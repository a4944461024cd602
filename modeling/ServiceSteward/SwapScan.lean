import Mathlib
/-!
# SwapScan — scanning a vector that `swap_remove` shrinks

A scan by index visits the element at the index and then keeps it and moves on, or drops it by `swap_remove` and stays,
or takes it out and stops.  `scan_induct` is the scan as a list recursion: what lies before the index is done, what lies
from it on is still to do, and a drop only permutes the latter.  An invariant of the done part, the rest and the
scanner's own state is all a use of the scan needs.
-/
namespace SwapScan

variable {α β σ : Type}

/-- `swap_remove`: the last element takes the place of the one removed. -/
def swapRemove (l : List α) (i : Nat) : List α :=
  match l.getLast? with
  | none => []
  | some x => (l.set i x).dropLast

/-- What a visit decides. -/
inductive Verdict (α β : Type) where
  | keep (a : α)
  | drop
  | stop (b : β)

/-- The scan from index `i`.  One visit uses one unit of fuel, and a scan makes no more visits than there are elements
from `i` on. -/
def scan (visit : σ → α → σ × Verdict α β) : Nat → σ → List α → Nat → σ × List α × Option β
  | 0, s, l, _ => (s, l, none)
  | fuel + 1, s, l, i =>
    match l[i]? with
    | none => (s, l, none)
    | some a =>
      match visit s a with
      | (s', .keep a') => scan visit fuel s' (l.set i a') (i + 1)
      | (s', .drop) => scan visit fuel s' (swapRemove l i) i
      | (s', .stop b) => (s', swapRemove l i, some b)

/-- The rest of a vector after its first element was swapped out: the last element comes first. -/
def lastFirst (rest : List α) : List α :=
  match rest.getLast? with
  | none => []
  | some x => x :: rest.dropLast

theorem lastFirst_perm (rest : List α) : (lastFirst rest).Perm rest := by
  unfold lastFirst
  cases hr : rest.getLast? with
  | none => rw [List.getLast?_eq_none_iff] at hr; rw [hr]
  | some x =>
    obtain ⟨ys, rfl⟩ := List.getLast?_eq_some_iff.1 hr
    rw [List.dropLast_concat]
    exact (List.perm_append_singleton x ys).symm

/-- **A `swap_remove` behind a done part leaves the done part and permutes the rest.** -/
theorem swapRemove_append_cons (done rest : List α) (a : α) :
    swapRemove (done ++ a :: rest) done.length = done ++ lastFirst rest := by
  unfold swapRemove lastFirst
  cases hr : rest.getLast? with
  | none =>
    rw [List.getLast?_eq_none_iff] at hr
    subst hr
    simp
  | some x =>
    obtain ⟨ys, rfl⟩ := List.getLast?_eq_some_iff.1 hr
    have hl : (done ++ a :: (ys ++ [x])).getLast? = some x := by
      rw [show done ++ a :: (ys ++ [x]) = (done ++ a :: ys) ++ [x] by simp, List.getLast?_concat]
    have hs : (done ++ a :: (ys ++ [x])).set done.length x = (done ++ x :: ys) ++ [x] := by simp
    rw [hl]
    simp only
    rw [hs, List.dropLast_concat, List.dropLast_concat]

theorem scan_induct_aux {visit : σ → α → σ × Verdict α β} {P : σ → List α → List α → Prop}
    (keep : ∀ s s' a a' done rest, P s done (a :: rest) → visit s a = (s', .keep a') → P s' (done ++ [a']) rest)
    (drop : ∀ s s' a done rest rest', P s done (a :: rest) → visit s a = (s', .drop) → rest'.Perm rest →
      P s' done rest') :
    ∀ (fuel : Nat) (s : σ) (done rest : List α), rest.length ≤ fuel → P s done rest →
      (∃ s' l', scan visit fuel s (done ++ rest) done.length = (s', l', none) ∧ P s' l' []) ∨
      (∃ s₁ s' done' a rest' rest'' b,
        scan visit fuel s (done ++ rest) done.length = (s', done' ++ rest'', some b) ∧
        P s₁ done' (a :: rest') ∧ visit s₁ a = (s', .stop b) ∧ rest''.Perm rest')
  | 0, s, done, [], _, hp => .inl ⟨s, done, by simp [scan], hp⟩
  | fuel + 1, s, done, [], _, hp => .inl ⟨s, done, by simp [scan], hp⟩
  | fuel + 1, s, done, a :: rest, hf, hp => by
    have hf' : rest.length ≤ fuel := by simpa using hf
    have ha : (done ++ a :: rest)[done.length]? = some a := by simp
    rw [scan, ha]
    simp only
    cases hv : visit s a with
    | mk s' verdict =>
      cases verdict with
      | keep a' =>
        have hset : (done ++ a :: rest).set done.length a' = (done ++ [a']) ++ rest := by simp
        have hlen : done.length + 1 = (done ++ [a']).length := by simp
        simp only
        rw [hset, hlen]
        exact scan_induct_aux keep drop fuel s' (done ++ [a']) rest hf' (keep s s' a a' done rest hp hv)
      | drop =>
        simp only
        rw [swapRemove_append_cons]
        have hperm := lastFirst_perm rest
        exact scan_induct_aux keep drop fuel s' done (lastFirst rest) (by rw [hperm.length_eq]; exact hf')
          (drop s s' a done rest _ hp hv hperm)
      | stop b =>
        refine .inr ⟨s, s', done, a, rest, lastFirst rest, b, ?_, hp, hv, lastFirst_perm rest⟩
        simp only
        rw [swapRemove_append_cons]

/-- **A whole scan**: it ends with nothing left to do, or stops at an element with the rest permuted. -/
theorem scan_induct {visit : σ → α → σ × Verdict α β} (P : σ → List α → List α → Prop) {s : σ} {l : List α}
    (init : P s [] l)
    (keep : ∀ s s' a a' done rest, P s done (a :: rest) → visit s a = (s', .keep a') → P s' (done ++ [a']) rest)
    (drop : ∀ s s' a done rest rest', P s done (a :: rest) → visit s a = (s', .drop) → rest'.Perm rest →
      P s' done rest') :
    (∃ s' l', scan visit l.length s l 0 = (s', l', none) ∧ P s' l' []) ∨
    (∃ s₁ s' done a rest rest' b, scan visit l.length s l 0 = (s', done ++ rest', some b) ∧
      P s₁ done (a :: rest) ∧ visit s₁ a = (s', .stop b) ∧ rest'.Perm rest) :=
  scan_induct_aux keep drop l.length s [] l (Nat.le_refl _) init

end SwapScan
