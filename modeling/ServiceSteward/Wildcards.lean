import Mathlib
/-!
# Wildcards — patterns of stars, gaps and single elements

`Matches` says which lists a pattern stands for, `Begins` that it stands for the start of a list.  A piece without a
star takes as many elements as it is long, so what stands behind the next star can be looked for from the first place
where the piece fits (`found_behind`): a matcher needs no other place to come back to than the last star.
-/
namespace Jss

inductive Wildcard (α : Type) where
  | star
  | any
  | one (a : α)
  deriving DecidableEq, Repr

namespace Wildcard

variable {α : Type}

/-- What a pattern stands for. -/
inductive Matches : List (Wildcard α) → List α → Prop
  | nil : Matches [] []
  | star (taken : List α) {p : List (Wildcard α)} {l : List α} : Matches p l → Matches (star :: p) (taken ++ l)
  | any (a : α) {p : List (Wildcard α)} {l : List α} : Matches p l → Matches (any :: p) (a :: l)
  | one (a : α) {p : List (Wildcard α)} {l : List α} : Matches p l → Matches (one a :: p) (a :: l)

def Begins (p : List (Wildcard α)) (l : List α) : Prop := ∃ start, start <+: l ∧ Matches p start

def Fits : Wildcard α → α → Prop
  | star, _ => False
  | any, _ => True
  | one a, b => a = b

@[simp] theorem begins_nil (l : List α) : Begins [] l := ⟨[], List.nil_prefix, .nil⟩

theorem begins_star {p : List (Wildcard α)} {l : List α} : Begins (star :: p) l ↔ ∃ k, Begins p (l.drop k) := by
  constructor
  · rintro ⟨start, ⟨rest, rfl⟩, hstart⟩
    cases hstart with
    | star taken hp =>
      rename_i behind
      refine ⟨taken.length, behind, ⟨rest, ?_⟩, hp⟩
      rw [List.append_assoc, List.drop_left]
  · rintro ⟨k, start, ⟨rest, hrest⟩, hp⟩
    refine ⟨l.take k ++ start, ⟨rest, ?_⟩, .star _ hp⟩
    rw [List.append_assoc, hrest, List.take_append_drop]

theorem begins_cons_nil {t : Wildcard α} {p : List (Wildcard α)} (ht : t ≠ star) : ¬ Begins (t :: p) [] := by
  rintro ⟨start, hstart, h⟩
  rw [List.prefix_nil.1 hstart] at h
  cases t with
  | star => exact ht rfl
  | any => cases h
  | one a => cases h

theorem begins_cons {t : Wildcard α} {p : List (Wildcard α)} {a : α} {l : List α} (ht : t ≠ star) :
    Begins (t :: p) (a :: l) ↔ t.Fits a ∧ Begins p l := by
  constructor
  · rintro ⟨start, hstart, h⟩
    cases h with
    | star taken hp => exact absurd rfl ht
    | any b hp =>
      obtain ⟨-, hrest⟩ := List.cons_prefix_cons.1 hstart
      exact ⟨trivial, _, hrest, hp⟩
    | one b hp =>
      obtain ⟨rfl, hrest⟩ := List.cons_prefix_cons.1 hstart
      exact ⟨rfl, _, hrest, hp⟩
  · rintro ⟨hfits, start, hstart, hp⟩
    have hprefix : a :: start <+: a :: l := List.cons_prefix_cons.2 ⟨rfl, hstart⟩
    cases t with
    | star => exact absurd rfl ht
    | any => exact ⟨a :: start, hprefix, .any a hp⟩
    | one b =>
      have hb : b = a := hfits
      exact ⟨a :: start, hprefix, hb ▸ .one b hp⟩

/-- A piece without a star takes as many elements as it is long. -/
theorem begins_append {p : List (Wildcard α)} : ∀ {u : List (Wildcard α)} {l : List α}, star ∉ u →
    (Begins (u ++ p) l ↔ Begins u l ∧ Begins p (l.drop u.length))
  | [], l, _ => by simp
  | t :: u, l, h => by
    have ht : t ≠ star := fun heq => h (heq ▸ List.mem_cons_self)
    have hu : star ∉ u := fun hmem => h (List.mem_cons_of_mem _ hmem)
    cases l with
    | nil =>
      constructor
      · intro hbegins
        exact absurd hbegins (begins_cons_nil ht)
      · rintro ⟨hbegins, -⟩
        exact absurd hbegins (begins_cons_nil ht)
    | cons a l =>
      rw [List.cons_append, begins_cons ht, begins_cons ht, begins_append hu, and_assoc]
      rfl

/-- A pattern of single elements stands for itself only. -/
theorem begins_ones : ∀ {w l : List α}, Begins (w.map one) l ↔ w <+: l
  | [], l => by simp
  | a :: w, [] => by
    have hnot := begins_cons_nil (t := one a) (p := w.map one) (by simp)
    simpa using hnot
  | a :: w, b :: l => by
    rw [List.map_cons, begins_cons (by simp), begins_ones, List.cons_prefix_cons]
    rfl

/-- Some piece of a list is what the pattern stands for exactly if the pattern begins somewhere. -/
theorem matches_infix {p : List (Wildcard α)} {l : List α} :
    (∃ slice, slice <:+: l ∧ Matches p slice) ↔ ∃ rest ∈ l.tails, Begins p rest := by
  constructor
  · rintro ⟨slice, ⟨before, after, rfl⟩, hp⟩
    refine ⟨slice ++ after, ?_, slice, List.prefix_append _ _, hp⟩
    rw [List.mem_tails, List.append_assoc]
    exact List.suffix_append _ _
  · rintro ⟨rest, hrest, slice, hslice, hp⟩
    exact ⟨slice, hslice.isInfix.trans ((List.mem_tails _ _).1 hrest).isInfix, hp⟩

/-! ## Looking for a pattern from a place on -/

def Found (p : List (Wildcard α)) (l : List α) (i : Nat) : Prop := ∃ k, i ≤ k ∧ Begins p (l.drop k)

theorem found_of_begins {p : List (Wildcard α)} {l : List α} {i : Nat} (h : Begins p (l.drop i)) : Found p l i :=
  ⟨i, Nat.le_refl i, h⟩

theorem found_iff_begins_star {p : List (Wildcard α)} {l : List α} {i : Nat} :
    Found p l i ↔ Begins (star :: p) (l.drop i) := by
  rw [begins_star]
  constructor
  · rintro ⟨k, hk, hp⟩
    refine ⟨k - i, ?_⟩
    rw [List.drop_drop, Nat.add_sub_cancel' hk]
    exact hp
  · rintro ⟨k, hp⟩
    rw [List.drop_drop] at hp
    exact ⟨i + k, Nat.le_add_right i k, hp⟩

theorem found_next {p : List (Wildcard α)} {l : List α} {i : Nat} (h : ¬ Begins p (l.drop i)) :
    Found p l i ↔ Found p l (i + 1) := by
  constructor
  · rintro ⟨k, hk, hp⟩
    have hne : i ≠ k := by
      rintro rfl
      exact h hp
    exact ⟨k, by omega, hp⟩
  · rintro ⟨k, hk, hp⟩
    exact ⟨k, by omega, hp⟩

theorem not_found_at_end {p : List (Wildcard α)} {l : List α} (h : ¬ Begins p (l.drop l.length)) :
    ¬ Found p l l.length := by
  rintro ⟨k, hk, hp⟩
  rw [List.drop_of_length_le hk] at hp
  rw [List.drop_length] at h
  exact h hp

/-- **The last star is enough**: where a piece without a star fits, what stands behind the next star is found from
there on or not at all. -/
theorem found_behind {u p : List (Wildcard α)} {l : List α} {i : Nat} (hu : star ∉ u) (h : Begins u (l.drop i)) :
    Found (u ++ star :: p) l i ↔ Found p l (i + u.length) := by
  constructor
  · rintro ⟨k, hk, hp⟩
    obtain ⟨-, hbehind⟩ := (begins_append hu).1 hp
    rw [List.drop_drop, ← found_iff_begins_star] at hbehind
    obtain ⟨k', hk', hp'⟩ := hbehind
    exact ⟨k', by omega, hp'⟩
  · intro hfound
    refine found_of_begins ((begins_append hu).2 ⟨h, ?_⟩)
    rw [List.drop_drop]
    exact found_iff_begins_star.1 hfound

end Wildcard
end Jss
