import Mathlib
/-!
# BTreeMap — a map as the list of its entries in strictly ascending order of the keys

Two maps with the same entries are equal, so a statement that two programs build the same map is an equation.
-/
namespace Jss

structure BTreeMap (κ υ : Type) [LT κ] where
  entries : List (κ × υ)
  sorted : (entries.map Prod.fst).Pairwise (· < ·)

namespace BTreeMap

variable {κ υ : Type} [LT κ]

theorem ext {m n : BTreeMap κ υ} (h : m.entries = n.entries) : m = n := by
  cases m
  cases n
  simpa using h

def empty : BTreeMap κ υ := ⟨[], .nil⟩

def filter (m : BTreeMap κ υ) (p : κ × υ → Bool) : BTreeMap κ υ :=
  ⟨m.entries.filter p, m.sorted.sublist (List.filter_sublist.map _)⟩

section Insert

variable [DecidableLT κ]

/-- One pass over the entries: the new one goes before the first that is greater, and in place of its own. -/
def insertInto (k : κ) (v : υ) : List (κ × υ) → List (κ × υ)
  | [] => [(k, v)]
  | e :: rest => if k < e.1 then (k, v) :: e :: rest else if e.1 < k then e :: insertInto k v rest else (k, v) :: rest

theorem mem_insertInto {k : κ} {v : υ} {e : κ × υ} :
    ∀ {entries : List (κ × υ)}, e ∈ insertInto k v entries → e = (k, v) ∨ e ∈ entries
  | [], h => by simpa [insertInto] using h
  | e' :: rest, h => by
    unfold insertInto at h
    split at h
    · simpa using h
    · split at h
      · rcases List.mem_cons.1 h with h | h
        · exact .inr (by simp [h])
        · rcases mem_insertInto h with h | h
          · exact .inl h
          · exact .inr (by simp [h])
      · rcases List.mem_cons.1 h with h | h
        · exact .inl h
        · exact .inr (by simp [h])

theorem insertInto_last {k : κ} {v : υ} [Std.Asymm (α := κ) (· < ·)] :
    ∀ {entries : List (κ × υ)}, (∀ e ∈ entries, e.1 < k) → insertInto k v entries = entries ++ [(k, v)]
  | [], _ => rfl
  | e :: rest, h => by
    have hlt : e.1 < k := h e (by simp)
    have hge : ¬ k < e.1 := Std.Asymm.asymm _ _ hlt
    simp only [insertInto, hge, hlt, if_true, if_false, List.cons_append]
    rw [insertInto_last (fun e he => h e (by simp [he]))]

variable [Trans (α := κ) (β := κ) (γ := κ) (· < ·) (· < ·) (· < ·)] [Std.Trichotomous (α := κ) (· < ·)]

theorem sorted_insertInto (k : κ) (v : υ) : ∀ {entries : List (κ × υ)}, (entries.map Prod.fst).Pairwise (· < ·) →
    ((insertInto k v entries).map Prod.fst).Pairwise (· < ·)
  | [], _ => by simp [insertInto]
  | e :: rest, h => by
    obtain ⟨hfirst, hrest⟩ := List.pairwise_cons.1 h
    unfold insertInto
    split
    · rename_i hlt
      refine List.pairwise_cons.2 ⟨fun k' hk' => ?_, h⟩
      rcases List.mem_cons.1 hk' with rfl | hk'
      · exact hlt
      · exact Trans.trans hlt (hfirst k' hk')
    · rename_i hge
      split
      · rename_i hlt
        refine List.pairwise_cons.2 ⟨fun k' hk' => ?_, sorted_insertInto k v hrest⟩
        obtain ⟨e', he', rfl⟩ := List.mem_map.1 hk'
        rcases mem_insertInto he' with rfl | he'
        · exact hlt
        · exact hfirst _ (List.mem_map.2 ⟨e', he', rfl⟩)
      · rename_i hle
        -- neither key is below the other, so they are one key
        have heq : k = e.1 := Std.Trichotomous.trichotomous _ _ hge hle
        rw [heq]
        exact h

def insert (m : BTreeMap κ υ) (k : κ) (v : υ) : BTreeMap κ υ :=
  ⟨insertInto k v m.entries, sorted_insertInto k v m.sorted⟩

theorem mem_insert {m : BTreeMap κ υ} {k : κ} {v : υ} {e : κ × υ} (h : e ∈ (m.insert k v).entries) :
    e = (k, v) ∨ e ∈ m.entries :=
  mem_insertInto h

variable [Std.Asymm (α := κ) (· < ·)]

theorem foldl_insert_entries : ∀ (entries : List (κ × υ)) (m : BTreeMap κ υ),
    ((m.entries ++ entries).map Prod.fst).Pairwise (· < ·) →
      (entries.foldl (fun m e => m.insert e.1 e.2) m).entries = m.entries ++ entries
  | [], m, _ => by simp
  | e :: rest, m, h => by
    have hbelow : ∀ e' ∈ m.entries, e'.1 < e.1 := by
      intro e' he'
      rw [List.map_append] at h
      exact (List.pairwise_append.1 h).2.2 _ (List.mem_map.2 ⟨e', he', rfl⟩) _ (by simp)
    have hlast : (m.insert e.1 e.2).entries = m.entries ++ [e] := insertInto_last hbelow
    rw [List.foldl_cons, foldl_insert_entries rest _ (by rw [hlast]; simpa using h), hlast]
    simp

/-- **Inserting a map's entries one by one into an empty map gives the map back.** -/
theorem foldl_insert (m : BTreeMap κ υ) : m.entries.foldl (fun m e => m.insert e.1 e.2) empty = m :=
  ext (by rw [foldl_insert_entries _ _ (by simpa [empty] using m.sorted)]; simp [empty])

end Insert

/-! ## Lookup -/

section Lookup

variable [BEq κ]

def get (m : BTreeMap κ υ) (k : κ) : Option υ := m.entries.lookup k

def keys (m : BTreeMap κ υ) : List κ := m.entries.map Prod.fst

def erase (m : BTreeMap κ υ) (k : κ) : BTreeMap κ υ := m.filter (fun e => e.1 != k)

variable [LawfulBEq κ]

theorem mem_keys_of_get {m : BTreeMap κ υ} {k : κ} (h : (m.get k).isSome = true) : k ∈ m.keys := by
  obtain ⟨v, hv⟩ := Option.isSome_iff_exists.1 h
  obtain ⟨before, after, heq, -⟩ := List.lookup_eq_some_iff.1 hv
  unfold keys
  rw [heq]
  simp

/-- A map has one value for each of its keys. -/
theorem get_eq_some_iff [Std.Irrefl (α := κ) (· < ·)] {m : BTreeMap κ υ} {k : κ} {v : υ} :
    m.get k = some v ↔ (k, v) ∈ m.entries := by
  constructor
  · intro h
    obtain ⟨before, after, heq, -⟩ := List.lookup_eq_some_iff.1 h
    rw [heq]
    simp
  · intro h
    obtain ⟨before, after, heq⟩ := List.append_of_mem h
    refine List.lookup_eq_some_iff.2 ⟨before, after, heq, fun e he => ?_⟩
    have hsorted := m.sorted
    rw [heq, List.map_append, List.pairwise_append] at hsorted
    have hlt : e.1 < k := hsorted.2.2 _ (List.mem_map_of_mem he) k (by simp)
    have hne : k ≠ e.1 := by
      intro hk
      rw [hk] at hlt
      exact Std.Irrefl.irrefl _ hlt
    simpa using hne

omit [LT κ] in
theorem lookup_filter (p : κ → Bool) (k : κ) : ∀ entries : List (κ × υ),
    (entries.filter (fun e => p e.1)).lookup k = if p k then entries.lookup k else none
  | [] => by simp
  | e :: rest => by
    have ih := lookup_filter p k rest
    by_cases hp : p e.1 = true
    · have hkeeps : (e :: rest).filter (fun e => p e.1) = e :: rest.filter (fun e => p e.1) := List.filter_cons_of_pos hp
      rw [hkeeps, List.lookup_cons, List.lookup_cons, ih]
      by_cases hk : k = e.1
      · simp [hk, hp]
      · simp [beq_false_of_ne hk]
    · have hdrops : (e :: rest).filter (fun e => p e.1) = rest.filter (fun e => p e.1) := List.filter_cons_of_neg hp
      rw [hdrops, ih, List.lookup_cons]
      by_cases hk : k = e.1
      · simp [hk, hp]
      · simp [beq_false_of_ne hk]

theorem get_filter (m : BTreeMap κ υ) (p : κ → Bool) (k : κ) :
    (m.filter (fun e => p e.1)).get k = if p k then m.get k else none := lookup_filter p k m.entries

@[simp] theorem get_erase (m : BTreeMap κ υ) (k k' : κ) : (m.erase k).get k' = if k' == k then none else m.get k' := by
  have hget := m.get_filter (fun key => key != k) k'
  rw [erase, hget]
  by_cases hk : k' = k
  · simp [hk]
  · simp [hk]

variable [DecidableLT κ] [Std.Trichotomous (α := κ) (· < ·)] [Std.Asymm (α := κ) (· < ·)]

theorem lookup_insertInto (k k' : κ) (v : υ) : ∀ entries : List (κ × υ),
    (insertInto k v entries).lookup k' = if k' == k then some v else entries.lookup k'
  | [] => by
    by_cases hk : k' = k
    · simp [insertInto, hk]
    · simp [insertInto, List.lookup_cons, beq_false_of_ne hk]
  | e :: rest => by
    have ih := lookup_insertInto k k' v rest
    unfold insertInto
    split
    · rw [List.lookup_cons]
      cases k' == k <;> rfl
    · split
      · rename_i hlt
        have hne : e.1 ≠ k := by
          intro heq
          rw [heq] at hlt
          exact Std.Asymm.asymm _ _ hlt hlt
        rw [List.lookup_cons, List.lookup_cons, ih]
        by_cases hk : k' = k
        · have hne' : (k == e.1) = false := beq_false_of_ne (fun h => hne h.symm)
          simp [hk, hne']
        · simp [hk]
      · rename_i hge hle
        have heq : k = e.1 := Std.Trichotomous.trichotomous _ _ hge hle
        rw [List.lookup_cons, List.lookup_cons, heq]
        cases k' == e.1 <;> rfl

variable [Trans (α := κ) (β := κ) (γ := κ) (· < ·) (· < ·) (· < ·)]

@[simp] theorem get_insert (m : BTreeMap κ υ) (k k' : κ) (v : υ) :
    (m.insert k v).get k' = if k' == k then some v else m.get k' :=
  lookup_insertInto k k' v m.entries

/-- Of the entries inserted one after the other, the last with a key counts. -/
theorem get_foldl_insert (k : κ) : ∀ (entries : List (κ × υ)) (m : BTreeMap κ υ),
    (entries.foldl (fun m e => m.insert e.1 e.2) m).get k = (entries.reverse.lookup k).or (m.get k)
  | [], m => rfl
  | e :: entries, m => by
    rw [List.foldl_cons, get_foldl_insert k entries, get_insert, List.reverse_cons, List.lookup_append]
    cases hk : entries.reverse.lookup k with
    | some v => rfl
    | none =>
      rw [List.lookup_cons]
      cases k == e.1 with
      | true => rfl
      | false => rfl

end Lookup

end BTreeMap
end Jss
