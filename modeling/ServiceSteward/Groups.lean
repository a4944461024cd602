import Mathlib
/-!
# Groups — a list cut behind the items that close a group

What is cut into pieces first and then grouped is grouped as the whole is (`cut_flatten_pieces`).  Two ways to cut one
list of lists into groups are one if their groups hold as much and as many empty lists (`eq_of_flatten_eq`).
-/
namespace Groups

variable {α β : Type}

/-- The list cut behind each item that closes. -/
def cut (closes : α → Bool) : List α → List (List α)
  | [] => []
  | a :: l =>
    if closes a then [a] :: cut closes l
    else match cut closes l with
      | [] => [[a]]
      | group :: groups => (a :: group) :: groups

def closesAtEnd (closes : α → Bool) (piece : List α) : Bool := piece.getLast?.any closes

section Cut

variable {closes : α → Bool}

theorem cut_closed {a : α} (ha : closes a = true) (l : List α) : cut closes (a :: l) = [a] :: cut closes l := by
  rw [cut, if_pos ha]

theorem cut_open {a : α} (ha : closes a = false) (l : List α) :
    (cut closes l = [] ∧ cut closes (a :: l) = [[a]]) ∨
      ∃ group groups, cut closes l = group :: groups ∧ cut closes (a :: l) = (a :: group) :: groups := by
  rw [cut, if_neg (by simp [ha])]
  cases hl : cut closes l with
  | nil => exact .inl ⟨rfl, rfl⟩
  | cons group groups => exact .inr ⟨group, groups, rfl, rfl⟩

theorem flatten_cut : ∀ l : List α, (cut closes l).flatten = l
  | [] => rfl
  | a :: l => by
    have ih := flatten_cut l
    cases ha : closes a with
    | true => rw [cut_closed ha, List.flatten_cons, ih]; rfl
    | false =>
      rcases cut_open ha l with ⟨hnil, hcut⟩ | ⟨group, groups, hl, hcut⟩
      · rw [hnil] at ih
        rw [hcut, ← ih]
        rfl
      · rw [hl] at ih
        rw [hcut, List.flatten_cons, List.cons_append, ← List.flatten_cons, ih]

/-- A group holds something, and closes at its end at most. -/
theorem of_mem_cut : ∀ {l group : List α}, group ∈ cut closes l →
    group ≠ [] ∧ ∀ a ∈ group.dropLast, closes a = false
  | a :: l, group, h => by
    cases ha : closes a with
    | true =>
      rw [cut_closed ha] at h
      rcases List.mem_cons.1 h with rfl | h
      · exact ⟨by simp, by simp⟩
      · exact of_mem_cut h
    | false =>
      rcases cut_open ha l with ⟨-, hcut⟩ | ⟨first, groups, hl, hcut⟩
      · rw [hcut, List.mem_singleton] at h
        rw [h]
        exact ⟨by simp, by simp⟩
      · rw [hcut] at h
        rcases List.mem_cons.1 h with rfl | h
        · have hfirst : first ∈ cut closes l := by
            rw [hl]
            exact List.mem_cons_self
          obtain ⟨hne, hopen⟩ := of_mem_cut hfirst
          refine ⟨by simp, fun b hb => ?_⟩
          rw [List.dropLast_cons_of_ne_nil hne] at hb
          rcases List.mem_cons.1 hb with rfl | hb
          · exact ha
          · exact hopen b hb
        · exact of_mem_cut (l := l) (by rw [hl]; exact List.mem_cons_of_mem _ h)

/-- What a piece that closes at its end at most does before the rest of a list. -/
theorem cut_piece : ∀ (piece : List α), piece ≠ [] → (∀ a ∈ piece.dropLast, closes a = false) → ∀ rest : List α,
    (closesAtEnd closes piece = true ∧ cut closes (piece ++ rest) = piece :: cut closes rest) ∨
    (closesAtEnd closes piece = false ∧ ((cut closes rest = [] ∧ cut closes (piece ++ rest) = [piece]) ∨
      ∃ group groups, cut closes rest = group :: groups ∧ cut closes (piece ++ rest) = (piece ++ group) :: groups))
  | [], hne, _, _ => absurd rfl hne
  | [a], _, _, rest => by
    cases ha : closes a with
    | true => exact .inl ⟨ha, cut_closed ha rest⟩
    | false => exact .inr ⟨ha, cut_open ha rest⟩
  | a :: b :: piece, _, hopen, rest => by
    have ha : closes a = false := hopen a (by simp)
    have ih := cut_piece (b :: piece) (by simp) (fun c hc => hopen c (by simp [hc])) rest
    have hlast : closesAtEnd closes (a :: b :: piece) = closesAtEnd closes (b :: piece) := by
      unfold closesAtEnd
      rw [List.getLast?_cons_cons]
    have hstep := cut_open ha (b :: piece ++ rest)
    rw [hlast, List.cons_append]
    rcases ih with ⟨hclosed, hcut⟩ | ⟨hopened, ⟨hnil, hcut⟩ | ⟨group, groups, hrest, hcut⟩⟩
    · rcases hstep with ⟨hnone, -⟩ | ⟨first, groups, hsome, hnext⟩
      · rw [hcut] at hnone
        cases hnone
      · rw [hcut] at hsome
        cases hsome
        exact .inl ⟨hclosed, hnext⟩
    · rcases hstep with ⟨hnone, -⟩ | ⟨first, groups, hsome, hnext⟩
      · rw [hcut] at hnone
        cases hnone
      · rw [hcut] at hsome
        cases hsome
        exact .inr ⟨hopened, .inl ⟨hnil, hnext⟩⟩
    · rcases hstep with ⟨hnone, -⟩ | ⟨first, others, hsome, hnext⟩
      · rw [hcut] at hnone
        cases hnone
      · rw [hcut] at hsome
        cases hsome
        exact .inr ⟨hopened, .inr ⟨group, groups, hrest, hnext⟩⟩

/-- **Grouping pieces is grouping what they make.** -/
theorem cut_flatten_pieces : ∀ {pieces : List (List α)},
    (∀ piece ∈ pieces, piece ≠ [] ∧ ∀ a ∈ piece.dropLast, closes a = false) →
    cut closes pieces.flatten = (cut (closesAtEnd closes) pieces).map List.flatten
  | [], _ => rfl
  | piece :: pieces, h => by
    obtain ⟨hne, hopen⟩ := h piece List.mem_cons_self
    have ih := cut_flatten_pieces (fun p hp => h p (List.mem_cons_of_mem _ hp))
    rw [List.flatten_cons]
    rcases cut_piece piece hne hopen pieces.flatten with ⟨hclosed, hcut⟩ | ⟨hopened, hcases⟩
    · rw [hcut, cut_closed hclosed, ih, List.map_cons, List.flatten_singleton]
    · rcases cut_open hopened pieces with ⟨hnil, hnext⟩ | ⟨group, groups, hsome, hnext⟩
      · rw [hnil] at ih
        rcases hcases with ⟨-, hcut⟩ | ⟨first, others, hrest, -⟩
        · rw [hcut, hnext, List.map_singleton, List.flatten_singleton]
        · rw [ih] at hrest
          cases hrest
      · rw [hsome] at ih
        rcases hcases with ⟨hnone, -⟩ | ⟨first, others, hrest, hcut⟩
        · rw [hnone] at ih
          cases ih
        · rw [ih, List.map_cons] at hrest
          cases hrest
          rw [hcut, hnext]
          rfl

end Cut

/-! ## Two ways to group one list -/

theorem sum_le {f : α → Nat} {g : β → Nat} {l : List α} {l' : List β} (h : List.Forall₂ (fun a b => f a ≤ g b) l l') :
    (l.map f).sum ≤ (l'.map g).sum := by
  induction h with
  | nil => exact Nat.le_refl 0
  | cons hab _ ih =>
    rw [List.map_cons, List.map_cons, List.sum_cons, List.sum_cons]
    omega

/-- Where nothing is more, but the sums are the same, everything is the same. -/
theorem forall₂_eq_of_sum {f : α → Nat} {g : β → Nat} {l : List α} {l' : List β}
    (h : List.Forall₂ (fun a b => f a ≤ g b) l l') (hsum : (l.map f).sum = (l'.map g).sum) :
    List.Forall₂ (fun a b => f a = g b) l l' := by
  induction h with
  | nil => exact .nil
  | cons hab hrest ih =>
    have hle := sum_le hrest
    rw [List.map_cons, List.map_cons, List.sum_cons, List.sum_cons] at hsum
    exact .cons (by omega) (ih (by omega))

theorem eq_nil_of_flatten {l : List (List α)} (hflat : l.flatten.length = 0) (hcount : l.countP List.isEmpty = 0) :
    l = [] := by
  cases l with
  | nil => rfl
  | cons a l =>
    have hempty : a = [] := by
      rw [List.flatten_cons, List.length_append] at hflat
      exact List.length_eq_zero_iff.1 (by omega)
    rw [hempty, List.countP_cons_of_pos (by rfl)] at hcount
    cases hcount

theorem append_cancel {a b c d : List (List α)} (h : a ++ c = b ++ d) (hlength : a.flatten.length = b.flatten.length)
    (hcount : a.countP List.isEmpty = b.countP List.isEmpty) : a = b ∧ c = d := by
  rcases List.append_eq_append_iff.1 h with ⟨e, rfl, rfl⟩ | ⟨e, rfl, rfl⟩
  · rw [List.flatten_append, List.length_append] at hlength
    rw [List.countP_append] at hcount
    have he := eq_nil_of_flatten (l := e) (by omega) (by omega)
    rw [he]
    simp
  · rw [List.flatten_append, List.length_append] at hlength
    rw [List.countP_append] at hcount
    have he := eq_nil_of_flatten (l := e) (by omega) (by omega)
    rw [he]
    simp

theorem eq_of_flatten_eq {groups groups' : List (List (List α))}
    (hlength : List.Forall₂ (fun g g' => g.flatten.length = g'.flatten.length) groups groups')
    (hcount : List.Forall₂ (fun g g' => g.countP List.isEmpty = g'.countP List.isEmpty) groups groups')
    (h : groups.flatten = groups'.flatten) : groups = groups' := by
  induction hlength with
  | nil => rfl
  | cons hfirst _ ih =>
    cases hcount with
    | cons hempty hrest =>
      rw [List.flatten_cons, List.flatten_cons] at h
      obtain ⟨rfl, htail⟩ := append_cancel h hfirst hempty
      rw [ih hrest htail]

theorem length_flatten_flatten : ∀ groups : List (List (List α)),
    groups.flatten.flatten.length = (groups.map (fun g => g.flatten.length)).sum
  | [] => rfl
  | g :: groups => by
    rw [List.flatten_cons, List.flatten_append, List.length_append, length_flatten_flatten groups]
    rfl

/-- **One way to group is the other** if none of its groups holds more, and none has fewer empty lists. -/
theorem eq_of_bounds {groups groups' : List (List (List α))}
    (hlength : List.Forall₂ (fun g g' => g.flatten.length ≤ g'.flatten.length) groups groups')
    (hcount : List.Forall₂ (fun g' g => g'.countP List.isEmpty ≤ g.countP List.isEmpty) groups' groups)
    (h : groups.flatten = groups'.flatten) : groups = groups' := by
  have hsameLength := forall₂_eq_of_sum hlength (by rw [← length_flatten_flatten, h, length_flatten_flatten])
  have hsameCount := forall₂_eq_of_sum hcount (by rw [← List.countP_flatten, ← h, List.countP_flatten])
  refine eq_of_flatten_eq hsameLength ?_ h
  exact hsameCount.flip.imp (fun _ _ heq => heq.symm)

end Groups
