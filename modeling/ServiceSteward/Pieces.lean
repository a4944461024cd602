import Mathlib
/-!
# Pieces — a list cut at a separator that is a list

`splitOnce` cuts at the first occurrence, `splitn` at the first few and `split` at all of them, each from left to right
without overlaps.  A piece that is `Clear` of the separator is cut off at its end and not before.
-/
namespace Pieces

variable {α : Type} {sep : List α}

/-- No occurrence of the separator starts in the piece, not even one that ends behind it. -/
def Clear (sep piece : List α) : Prop := ∀ t, t ≠ [] → t <:+ piece → ¬ sep <+: t ++ sep

theorem Clear.tail {a : α} {piece : List α} (h : Clear sep (a :: piece)) : Clear sep piece :=
  fun t hne ht => h t hne (ht.trans (List.suffix_cons a piece))

theorem clear_of_not_infix {a b : α} (hne : a ≠ b) {rest piece : List α} (h : ¬ [a, b] <:+: piece) :
    Clear (a :: b :: rest) piece := by
  intro t ht hsuffix hpre
  obtain ⟨c, t, rfl⟩ := List.exists_cons_of_ne_nil ht
  rw [List.cons_append, List.cons_prefix_cons] at hpre
  obtain ⟨rfl, hpre⟩ := hpre
  cases t with
  | nil =>
    rw [List.nil_append, List.cons_prefix_cons] at hpre
    exact hne hpre.1.symm
  | cons d t =>
    rw [List.cons_append, List.cons_prefix_cons] at hpre
    obtain ⟨rfl, -⟩ := hpre
    have hstart : [a, b] <+: a :: b :: t := List.prefix_append [a, b] t
    exact h (hstart.isInfix.trans hsuffix.isInfix)

variable [DecidableEq α]

/-- What stands before and behind the first occurrence of a separator. -/
@[simp] def splitOnce (sep : List α) : List α → Option (List α × List α)
  | [] => if sep = [] then some ([], []) else none
  | a :: l =>
    if sep.isPrefixOf (a :: l) then some ([], (a :: l).drop sep.length)
    else (splitOnce sep l).map (fun (before, behind) => (a :: before, behind))

/-- At most `n` pieces. -/
@[simp] def splitn (sep : List α) : Nat → List α → List (List α)
  | 0, _ => []
  | 1, l => [l]
  | n + 2, l =>
    match splitOnce sep l with
    | none => [l]
    | some (before, behind) => before :: splitn sep (n + 1) behind

def split (sep : List α) (l : List α) : List (List α) := splitn sep (l.length + 1) l

/-! ## Cutting once -/

theorem splitOnce_append : ∀ {piece : List α}, Clear sep piece → ∀ (rest : List α),
    splitOnce sep (piece ++ sep ++ rest) = some (piece, rest)
  | [], _, rest => by
    cases hsep : sep ++ rest with
    | nil =>
      obtain ⟨rfl, rfl⟩ := List.append_eq_nil_iff.1 hsep
      rfl
    | cons a l =>
      have hpre : sep.isPrefixOf (a :: l) = true := by
        rw [← hsep, List.isPrefixOf_iff_prefix]
        exact List.prefix_append sep rest
      rw [List.nil_append, hsep, splitOnce, if_pos hpre, ← hsep, List.drop_left]
  | a :: piece, h, rest => by
    have hnot : ¬ sep.isPrefixOf (a :: (piece ++ sep ++ rest)) = true := by
      rw [List.isPrefixOf_iff_prefix]
      intro hpre
      apply h (a :: piece) (List.cons_ne_nil _ _) List.suffix_rfl
      have hlonger : a :: piece ++ sep <+: a :: (piece ++ sep ++ rest) := by
        rw [← List.cons_append, ← List.cons_append]
        exact List.prefix_append _ _
      apply List.prefix_of_prefix_length_le hpre hlonger
      simp
      omega
    rw [List.cons_append, List.cons_append, splitOnce, if_neg hnot, splitOnce_append h.tail]
    rfl

/-- **What a cut says**: where the first occurrence is, and that nothing before it holds one. -/
theorem splitOnce_some : ∀ {l before behind : List α}, splitOnce sep l = some (before, behind) →
    l = before ++ sep ++ behind ∧ (sep ≠ [] → ¬ sep <:+: before)
  | [], before, behind, h => by
    rw [splitOnce] at h
    split at h
    · rename_i hsep
      cases h
      exact ⟨by simp [hsep], fun hne => absurd hsep hne⟩
    · cases h
  | a :: l, before, behind, h => by
    rw [splitOnce] at h
    split at h
    · rename_i hpre
      cases h
      obtain ⟨rest, hrest⟩ := List.isPrefixOf_iff_prefix.1 hpre
      constructor
      · rw [← hrest, List.drop_left]
        rfl
      · intro hne hin
        exact hne (List.infix_nil.1 hin)
    · rename_i hnot
      cases hl : splitOnce sep l with
      | none => rw [hl] at h; cases h
      | some found =>
        obtain ⟨x, y⟩ := found
        rw [hl] at h
        cases h
        obtain ⟨hparts, hclear⟩ := splitOnce_some hl
        constructor
        · rw [hparts]
          rfl
        · intro hne hin
          rcases List.infix_cons_iff.1 hin with hpre | hin
          · apply hnot
            rw [List.isPrefixOf_iff_prefix, hparts, List.append_assoc, ← List.cons_append]
            exact hpre.trans (List.prefix_append _ _)
          · exact hclear hne hin

theorem splitOnce_none : ∀ {l : List α}, splitOnce sep l = none → ¬ sep <:+: l
  | [], h => by
    rw [splitOnce] at h
    split at h
    · cases h
    · rename_i hsep
      exact fun hin => hsep (List.infix_nil.1 hin)
  | a :: l, h => by
    rw [splitOnce] at h
    split at h
    · cases h
    · rename_i hnot
      have htail : splitOnce sep l = none := Option.map_eq_none_iff.1 h
      intro hin
      rcases List.infix_cons_iff.1 hin with hpre | hin
      · exact hnot (List.isPrefixOf_iff_prefix.2 hpre)
      · exact splitOnce_none htail hin

/-! ## All pieces -/

theorem splitn_append (n : Nat) {piece : List α} (h : Clear sep piece) (rest : List α) :
    splitn sep (n + 2) (piece ++ sep ++ rest) = piece :: splitn sep (n + 1) rest := by
  rw [splitn, splitOnce_append h]

/-- Joining undoes a cut. -/
theorem intercalate_splitn : ∀ (n : Nat) (l : List α), sep.intercalate (splitn sep (n + 1) l) = l
  | 0, l => by simp [splitn, List.intercalate]
  | n + 1, l => by
    rw [splitn]
    cases hl : splitOnce sep l with
    | none => simp [List.intercalate]
    | some found =>
      obtain ⟨before, behind⟩ := found
      have ih := intercalate_splitn n behind
      obtain ⟨hparts, -⟩ := splitOnce_some hl
      have hne : splitn sep (n + 1) behind ≠ [] := by
        intro hnil
        cases n with
        | zero => cases hnil
        | succ n =>
          rw [splitn] at hnil
          split at hnil <;> cases hnil
      dsimp only
      obtain ⟨p, ps, hps⟩ := List.exists_cons_of_ne_nil hne
      rw [hps] at ih ⊢
      rw [hparts, ← ih]
      simp [List.intercalate]

/-- No piece holds the separator, as long as there are pieces enough. -/
theorem not_infix_of_mem_splitn (hsep : sep ≠ []) : ∀ (n : Nat) (l : List α), l.length ≤ n →
    ∀ piece ∈ splitn sep (n + 1) l, ¬ sep <:+: piece
  | 0, l, hn, piece, hmem => by
    have hl : l = [] := List.length_eq_zero_iff.1 (Nat.le_zero.1 hn)
    rw [splitn, List.mem_singleton] at hmem
    rw [hmem, hl]
    exact fun hin => hsep (List.infix_nil.1 hin)
  | n + 1, l, hn, piece, hmem => by
    rw [splitn] at hmem
    cases hl : splitOnce sep l with
    | none =>
      rw [hl, List.mem_singleton] at hmem
      rw [hmem]
      exact splitOnce_none hl
    | some found =>
      obtain ⟨before, behind⟩ := found
      obtain ⟨hparts, hclear⟩ := splitOnce_some hl
      have hpos : 0 < sep.length := List.length_pos_iff.2 hsep
      have hlength : l.length = before.length + sep.length + behind.length := by
        rw [hparts, List.length_append, List.length_append]
      rw [hl] at hmem
      rcases List.mem_cons.1 hmem with rfl | hmem
      · exact hclear hsep
      · exact not_infix_of_mem_splitn hsep n behind (by omega) piece hmem

theorem not_infix_of_mem_split (hsep : sep ≠ []) {l piece : List α} (h : piece ∈ split sep l) : ¬ sep <:+: piece :=
  not_infix_of_mem_splitn hsep l.length l (Nat.le_refl _) piece h

theorem splitn_terminated (hsep : sep ≠ []) : ∀ (pieces : List (List α)) (n : Nat), pieces.length ≤ n →
    (∀ piece ∈ pieces, Clear sep piece) →
      splitn sep (n + 1) (pieces.flatMap (· ++ sep)) = pieces ++ [[]]
  | [], 0, _, _ => rfl
  | [], n + 1, _, _ => by
    rw [List.flatMap_nil, splitn, splitOnce, if_neg hsep]
    rfl
  | piece :: pieces, 0, hn, _ => by cases hn
  | piece :: pieces, n + 1, hn, h => by
    have ih := splitn_terminated hsep pieces n (Nat.le_of_succ_le_succ hn)
      (fun p hp => h p (List.mem_cons_of_mem _ hp))
    rw [List.flatMap_cons, splitn_append n (h piece List.mem_cons_self), ih]
    rfl

/-- **Clear pieces, each followed by the separator, are cut apart again.** -/
theorem split_terminated (hsep : sep ≠ []) {pieces : List (List α)} (h : ∀ piece ∈ pieces, Clear sep piece) :
    split sep (pieces.flatMap (· ++ sep)) = pieces ++ [[]] := by
  have hlength : ∀ ps : List (List α), ps.length ≤ (ps.flatMap (· ++ sep)).length := by
    intro ps
    induction ps with
    | nil => exact Nat.zero_le _
    | cons p ps ih =>
      have hpos : 0 < sep.length := List.length_pos_iff.2 hsep
      rw [List.flatMap_cons, List.length_append, List.length_append, List.length_cons]
      omega
  exact splitn_terminated hsep pieces _ (hlength pieces) h

end Pieces
