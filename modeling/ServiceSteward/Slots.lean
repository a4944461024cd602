import Mathlib
/-!
# Slots — numbered places, the newest thing in slot 0

`contents f k` reads the slots from `k` down to 0.  Moving a thing one slot up, into an empty slot, changes what is read
only where the reading starts in between.
-/
namespace Slots

variable {α : Type}

def contents (f : Nat → Option α) : Nat → List α
  | 0 => (f 0).toList
  | k + 1 => (f (k + 1)).toList ++ contents f k

/-- What is in slot `i` goes to the next one. -/
def move (f : Nat → Option α) (i : Nat) : Nat → Option α := fun n =>
  if n = i + 1 then f i else if n = i then none else f n

/-- Slot `i` is emptied. -/
def clear (f : Nat → Option α) (i : Nat) : Nat → Option α := fun n => if n = i then none else f n

/-- A thing is put in slot 0. -/
def put (f : Nat → Option α) (a : α) : Nat → Option α := fun n => if n = 0 then some a else f n

theorem contents_congr {f g : Nat → Option α} : ∀ {k : Nat}, (∀ n ≤ k, f n = g n) → contents f k = contents g k
  | 0, h => by rw [contents, contents, h 0 (Nat.le_refl _)]
  | k + 1, h => by
    rw [contents, contents, h (k + 1) (Nat.le_refl _), contents_congr (fun n hn => h n (by omega))]

theorem contents_clear_top (f : Nat → Option α) : ∀ k, (f k).toList ++ contents (clear f k) k = contents f k
  | 0 => by simp [contents, clear]
  | k + 1 => by
    have hbelow : contents (clear f (k + 1)) k = contents f k := by
      apply contents_congr
      intro n hn
      have hne : n ≠ k + 1 := by omega
      simp [clear, hne]
    rw [contents, contents, hbelow]
    simp [clear]

theorem contents_move {f : Nat → Option α} {i : Nat} (hfree : f (i + 1) = none) :
    ∀ {k : Nat}, i < k → contents (move f i) k = contents f k
  | k + 1, hk => by
    by_cases hi : i = k
    · subst hi
      have hbelow : contents (move f i) i = contents (clear f i) i := by
        apply contents_congr
        intro n hn
        have hne : n ≠ i + 1 := by omega
        simp [move, clear, hne]
      rw [contents, contents, hbelow, hfree, ← contents_clear_top f i]
      simp [move]
    · have hmoved : move f i (k + 1) = f (k + 1) := by
        have h1 : k + 1 ≠ i + 1 := by omega
        have h2 : k + 1 ≠ i := by omega
        simp only [move, if_neg h1, if_neg h2]
      rw [contents, contents, hmoved, contents_move hfree (by omega)]

theorem contents_eq_of_empty {f : Nat → Option α} {k : Nat} (hempty : ∀ n, k < n → f n = none) :
    ∀ {k' : Nat}, k ≤ k' → contents f k' = contents f k
  | 0, hk => by
    have heq : k = 0 := by omega
    rw [heq]
  | k' + 1, hk => by
    by_cases heq : k = k' + 1
    · rw [heq]
    · rw [contents, hempty (k' + 1) (by omega), contents_eq_of_empty hempty (by omega)]
      rfl

theorem mem_contents {f : Nat → Option α} {a : α} : ∀ {k : Nat}, a ∈ contents f k ↔ ∃ n ≤ k, f n = some a
  | 0 => by simp [contents]
  | k + 1 => by
    rw [contents, List.mem_append, mem_contents]
    constructor
    · rintro (h | ⟨n, hn, hf⟩)
      · exact ⟨k + 1, Nat.le_refl _, by simpa using h⟩
      · exact ⟨n, by omega, hf⟩
    · rintro ⟨n, hn, hf⟩
      by_cases heq : n = k + 1
      · subst heq
        exact .inl (by simpa using hf)
      · exact .inr ⟨n, by omega, hf⟩

theorem contents_clear_sublist (f : Nat → Option α) (i : Nat) : ∀ k, (contents (clear f i) k).Sublist (contents f k)
  | 0 => by
    by_cases h : 0 = i
    · simp [contents, clear, ← h]
    · simp [contents, clear, h]
  | k + 1 => by
    rw [contents, contents]
    apply List.Sublist.append _ (contents_clear_sublist f i k)
    by_cases h : k + 1 = i
    · simp [clear, h]
    · simp [clear, h]

theorem contents_put (f : Nat → Option α) (a : α) (hfree : f 0 = none) : ∀ k, contents (put f a) k = contents f k ++ [a]
  | 0 => by simp [contents, put, hfree]
  | k + 1 => by
    rw [contents, contents, contents_put f a hfree k]
    simp [put]

/-- The slots above `n`, from `k` down. -/
def contentsAbove (f : Nat → Option α) (n : Nat) : Nat → List α
  | 0 => []
  | k + 1 => if k + 1 ≤ n then [] else (f (k + 1)).toList ++ contentsAbove f n k

theorem contentsAbove_append (f : Nat → Option α) (n : Nat) :
    ∀ {k : Nat}, n ≤ k → contentsAbove f n k ++ contents f n = contents f k
  | 0, hk => by
    have hn : n = 0 := by omega
    rw [hn]
    rfl
  | k + 1, hk => by
    by_cases hn : k + 1 ≤ n
    · have heq : n = k + 1 := by omega
      simp [contentsAbove, heq]
    · rw [contentsAbove, if_neg hn, List.append_assoc, contentsAbove_append f n (by omega), contents]

/-- Putting another thing in slot 0 in place of the first. -/
theorem contents_put_over (f : Nat → Option α) (a b : α) (hf : f 0 = some a) :
    ∀ k, ∃ rest, contents f k = rest ++ [a] ∧ contents (put f b) k = rest ++ [b]
  | 0 => ⟨[], by simp [contents, hf], by simp [contents, put]⟩
  | k + 1 => by
    obtain ⟨rest, hold, hnew⟩ := contents_put_over f a b hf k
    refine ⟨(f (k + 1)).toList ++ rest, ?_, ?_⟩
    · rw [contents, hold, List.append_assoc]
    · rw [contents, hnew]
      simp [put]

end Slots
