import ServiceSteward.Logging
import ServiceSteward.Wildcards
/-!
# FilterTriggers — what an output filter matches

The two cursors of `wildcard_matches_prefix` and the star it comes back to keep an invariant (`Cursors`), every turn of
its loop makes less of what is left to try, and the answer is the meaning of the pattern.
-/
namespace Jss

open Wildcard (Begins Found Matches)

def wildcardOf (p : UInt8) : Wildcard UInt8 := if p = 42 then .star else if p = 63 then .any else .one p

def wildcardsOf (pattern : Bytes) : List (Wildcard UInt8) := pattern.map wildcardOf

/-- One turn of the loop of `wildcard_matches_prefix`: it goes on, or returns. -/
def wildcardTurn (text pattern : Bytes) (w : WildcardState) : WildcardState ⊕ Bool :=
  match pattern[w.patternIndex]? with
  | none => .inr true
  | some p =>
    if p = 42 then
      .inl { w with lastStar := some w.patternIndex, patternIndex := w.patternIndex + 1, starTextIndex := w.textIndex }
    else if w.textIndex < text.length ∧ (p = 63 ∨ text[w.textIndex]? = some p) then
      .inl { w with patternIndex := w.patternIndex + 1, textIndex := w.textIndex + 1 }
    else
      match w.lastStar with
      | none => .inr false
      | some starIndex =>
        if w.starTextIndex = text.length then .inr false
        else .inl { w with
          starTextIndex := w.starTextIndex + 1, textIndex := w.starTextIndex + 1, patternIndex := starIndex + 1 }

/-- The loop, with no bound on its turns, returns this. -/
inductive WildcardReturns (text pattern : Bytes) : WildcardState → Bool → Prop
  | stop {w : WildcardState} {b : Bool} : wildcardTurn text pattern w = .inr b → WildcardReturns text pattern w b
  | next {w w' : WildcardState} {b : Bool} : wildcardTurn text pattern w = .inl w' →
      WildcardReturns text pattern w' b → WildcardReturns text pattern w b

theorem wildcardLoop_succ (text pattern : Bytes) (fuel : Nat) (w : WildcardState) :
    wildcardLoop text pattern (fuel + 1) w =
      match wildcardTurn text pattern w with
      | .inl w' => wildcardLoop text pattern fuel w'
      | .inr b => b := by
  unfold wildcardTurn
  rw [wildcardLoop]
  cases pattern[w.patternIndex]? with
  | none => rfl
  | some p =>
    dsimp only
    split
    · rfl
    · split
      · rfl
      · cases w.lastStar with
        | none => rfl
        | some starIndex =>
          dsimp only
          split
          · rfl
          · rfl

/-! ## One element of the pattern -/

theorem wildcardsOf_drop {pattern : Bytes} {i : Nat} {p : UInt8} (h : pattern[i]? = some p) :
    (wildcardsOf pattern).drop i = wildcardOf p :: (wildcardsOf pattern).drop (i + 1) := by
  obtain ⟨hi, hp⟩ := List.getElem?_eq_some_iff.1 h
  unfold wildcardsOf
  rw [← List.map_drop, ← List.map_drop, List.drop_eq_getElem_cons hi, hp]
  rfl

theorem wildcardOf_star : wildcardOf 42 = .star := rfl

theorem wildcardOf_ne_star {p : UInt8} (h : p ≠ 42) : wildcardOf p ≠ .star := by
  unfold wildcardOf
  rw [if_neg h]
  split
  · simp
  · simp

theorem wildcardOf_fits {p a : UInt8} (h : p ≠ 42) : (wildcardOf p).Fits a ↔ p = 63 ∨ a = p := by
  unfold wildcardOf
  rw [if_neg h]
  by_cases hany : p = 63
  · simp [hany, Wildcard.Fits]
  · simp [hany, Wildcard.Fits, eq_comm]

/-- What the code tests of the next byte of the text. -/
theorem begins_at {text : Bytes} {i : Nat} {p : UInt8} (hp : p ≠ 42) (rest : List (Wildcard UInt8)) :
    Begins (wildcardOf p :: rest) (text.drop i) ↔
      (i < text.length ∧ (p = 63 ∨ text[i]? = some p)) ∧ Begins rest (text.drop (i + 1)) := by
  by_cases hi : i < text.length
  · rw [List.drop_eq_getElem_cons hi, Wildcard.begins_cons (wildcardOf_ne_star hp), wildcardOf_fits hp,
      List.getElem?_eq_getElem hi]
    simp [hi]
  · rw [List.drop_of_length_le (by omega)]
    constructor
    · intro h
      exact absurd h (Wildcard.begins_cons_nil (wildcardOf_ne_star hp))
    · rintro ⟨⟨hlt, -⟩, -⟩
      exact absurd hlt hi

/-! ## The invariant of the two cursors -/

/-- Behind the last star a piece without a star fits where that star ends, up to the two cursors; before a star is
found the pattern is behind its start what it is from the cursors on. -/
structure Cursors (text pattern : Bytes) (w : WildcardState) : Prop where
  textIndex : w.textIndex ≤ text.length
  patternIndex : w.patternIndex ≤ pattern.length
  starTextIndex : w.starTextIndex ≤ w.textIndex
  fresh : w.lastStar = none → (Begins (wildcardsOf pattern) text ↔
    Begins ((wildcardsOf pattern).drop w.patternIndex) (text.drop w.textIndex))
  behind : ∀ starIndex, w.lastStar = some starIndex → starIndex < w.patternIndex ∧
    (Begins (wildcardsOf pattern) text ↔ Found ((wildcardsOf pattern).drop (starIndex + 1)) text w.starTextIndex) ∧
    ∃ piece, .star ∉ piece ∧ Begins piece (text.drop w.starTextIndex) ∧
      w.textIndex = w.starTextIndex + piece.length ∧
      (wildcardsOf pattern).drop (starIndex + 1) = piece ++ (wildcardsOf pattern).drop w.patternIndex

theorem cursors_start (text pattern : Bytes) : Cursors text pattern {} :=
  ⟨Nat.zero_le _, Nat.zero_le _, Nat.le_refl _, fun _ => Iff.rfl, fun _ h => by cases h⟩

/-- What is left to try. -/
def WildcardState.remaining (text pattern : Bytes) (w : WildcardState) : Nat :=
  (text.length - w.starTextIndex) * (pattern.length + 1) + (pattern.length - w.patternIndex)

section Turn

variable {text pattern : Bytes} {w : WildcardState}

/-- A star: what is behind it is looked for from here on. -/
theorem Cursors.star (h : Cursors text pattern w) (hp : pattern[w.patternIndex]? = some 42) :
    Cursors text pattern { w with
      lastStar := some w.patternIndex, patternIndex := w.patternIndex + 1, starTextIndex := w.textIndex } := by
  have hlt : w.patternIndex < pattern.length := (List.getElem?_eq_some_iff.1 hp).1
  have hdrop := wildcardsOf_drop hp
  rw [wildcardOf_star] at hdrop
  have hfound : Begins (wildcardsOf pattern) text ↔
      Found ((wildcardsOf pattern).drop (w.patternIndex + 1)) text w.textIndex := by
    cases hstar : w.lastStar with
    | none => rw [h.fresh hstar, hdrop, Wildcard.found_iff_begins_star]
    | some starIndex =>
      obtain ⟨-, hgoal, piece, hpiece, hbegins, htext, hsplit⟩ := h.behind starIndex hstar
      rw [hgoal, hsplit, hdrop, Wildcard.found_behind hpiece hbegins, htext]
  refine ⟨h.textIndex, hlt, Nat.le_refl _, (fun hnone => by cases hnone), ?_⟩
  rintro _ ⟨⟩
  exact ⟨Nat.lt_succ_self _, hfound, [], by simp, Wildcard.begins_nil _, rfl, rfl⟩

/-- A byte that fits: both cursors go on. -/
theorem Cursors.advance (h : Cursors text pattern w) {p : UInt8} (hp : pattern[w.patternIndex]? = some p) (hne : p ≠ 42)
    (hfits : w.textIndex < text.length ∧ (p = 63 ∨ text[w.textIndex]? = some p)) :
    Cursors text pattern { w with patternIndex := w.patternIndex + 1, textIndex := w.textIndex + 1 } := by
  have hlt : w.patternIndex < pattern.length := (List.getElem?_eq_some_iff.1 hp).1
  have hdrop := wildcardsOf_drop hp
  refine ⟨hfits.1, hlt, Nat.le_succ_of_le h.starTextIndex, fun hnone => ?_, fun starIndex hstar => ?_⟩
  · rw [h.fresh hnone, hdrop, begins_at hne]
    exact ⟨fun hboth => hboth.2, fun hrest => ⟨hfits, hrest⟩⟩
  · obtain ⟨hbefore, hgoal, piece, hpiece, hbegins, htext, hsplit⟩ := h.behind starIndex hstar
    refine ⟨Nat.lt_succ_of_lt hbefore, hgoal, piece ++ [wildcardOf p], ?_, ?_, ?_, ?_⟩
    · intro hmem
      rcases List.mem_append.1 hmem with hmem | hmem
      · exact hpiece hmem
      · exact wildcardOf_ne_star hne (List.mem_singleton.1 hmem).symm
    · rw [Wildcard.begins_append hpiece, List.drop_drop, ← htext, begins_at hne]
      exact ⟨hbegins, hfits, Wildcard.begins_nil _⟩
    · rw [List.length_append, List.length_singleton, ← Nat.add_assoc, ← htext]
    · rw [hsplit, hdrop, List.append_assoc]
      rfl

/-- Where a byte does not fit, what is behind the last star does not begin. -/
theorem Cursors.misfit (h : Cursors text pattern w) {p : UInt8} (hp : pattern[w.patternIndex]? = some p) (hne : p ≠ 42)
    (hfits : ¬ (w.textIndex < text.length ∧ (p = 63 ∨ text[w.textIndex]? = some p))) {starIndex : Nat}
    (hstar : w.lastStar = some starIndex) :
    ¬ Begins ((wildcardsOf pattern).drop (starIndex + 1)) (text.drop w.starTextIndex) := by
  obtain ⟨-, -, piece, hpiece, -, htext, hsplit⟩ := h.behind starIndex hstar
  rw [hsplit, Wildcard.begins_append hpiece, List.drop_drop, ← htext, wildcardsOf_drop hp, begins_at hne]
  rintro ⟨-, hboth, -⟩
  exact hfits hboth

/-- The last star takes one byte more. -/
theorem Cursors.backtrack (h : Cursors text pattern w) {p : UInt8} (hp : pattern[w.patternIndex]? = some p) (hne : p ≠ 42)
    (hfits : ¬ (w.textIndex < text.length ∧ (p = 63 ∨ text[w.textIndex]? = some p))) {starIndex : Nat}
    (hstar : w.lastStar = some starIndex) (hend : w.starTextIndex ≠ text.length) :
    Cursors text pattern { w with
      starTextIndex := w.starTextIndex + 1, textIndex := w.starTextIndex + 1, patternIndex := starIndex + 1 } := by
  obtain ⟨hbefore, hgoal, -⟩ := h.behind starIndex hstar
  have hstart := h.starTextIndex
  have htext := h.textIndex
  have hpattern := h.patternIndex
  refine ⟨by dsimp only; omega, by dsimp only; omega, Nat.le_refl _, fun hnone => ?_, fun other hother => ?_⟩
  · dsimp only at hnone
    rw [hstar] at hnone
    cases hnone
  · dsimp only at hother
    rw [hstar] at hother
    cases hother
    exact ⟨Nat.lt_succ_self _, hgoal.trans (Wildcard.found_next (h.misfit hp hne hfits hstar)), [], by simp,
      Wildcard.begins_nil _, rfl, rfl⟩

/-- **One turn** answers with the meaning of the pattern, or keeps the invariant and leaves less to try. -/
theorem Cursors.turn (h : Cursors text pattern w) :
    match wildcardTurn text pattern w with
    | .inl w' => Cursors text pattern w' ∧ w'.remaining text pattern < w.remaining text pattern
    | .inr b => b = true ↔ Begins (wildcardsOf pattern) text := by
  unfold wildcardTurn
  have hstart := h.starTextIndex
  have htext := h.textIndex
  cases hp : pattern[w.patternIndex]? with
  | none =>
    have hdrop : (wildcardsOf pattern).drop w.patternIndex = [] := by
      apply List.drop_of_length_le
      rw [wildcardsOf, List.length_map]
      exact List.getElem?_eq_none_iff.1 hp
    have hbegins : Begins (wildcardsOf pattern) text := by
      cases hstar : w.lastStar with
      | none =>
        rw [h.fresh hstar, hdrop]
        exact Wildcard.begins_nil _
      | some starIndex =>
        obtain ⟨-, hgoal, piece, -, hbegins, -, hsplit⟩ := h.behind starIndex hstar
        rw [hgoal, hsplit, hdrop, List.append_nil]
        exact Wildcard.found_of_begins hbegins
    simpa using hbegins
  | some p =>
    have hlt : w.patternIndex < pattern.length := (List.getElem?_eq_some_iff.1 hp).1
    dsimp only
    by_cases hstarred : p = 42
    · subst hstarred
      rw [if_pos rfl]
      refine ⟨h.star hp, ?_⟩
      have hless : (text.length - w.textIndex) * (pattern.length + 1) ≤
          (text.length - w.starTextIndex) * (pattern.length + 1) := Nat.mul_le_mul_right _ (by omega)
      unfold WildcardState.remaining
      dsimp only
      omega
    · rw [if_neg hstarred]
      by_cases hfits : w.textIndex < text.length ∧ (p = 63 ∨ text[w.textIndex]? = some p)
      · rw [if_pos hfits]
        refine ⟨h.advance hp hstarred hfits, ?_⟩
        unfold WildcardState.remaining
        dsimp only
        omega
      · rw [if_neg hfits]
        cases hstar : w.lastStar with
        | none =>
          have hnot : ¬ Begins (wildcardsOf pattern) text := by
            rw [h.fresh hstar, wildcardsOf_drop hp, begins_at hstarred]
            rintro ⟨hboth, -⟩
            exact hfits hboth
          simpa using hnot
        | some starIndex =>
          dsimp only
          have hmisfit := h.misfit hp hstarred hfits hstar
          by_cases hend : w.starTextIndex = text.length
          · rw [if_pos hend]
            have hnot : ¬ Begins (wildcardsOf pattern) text := by
              rw [hend] at hmisfit
              rw [(h.behind starIndex hstar).2.1, hend]
              exact Wildcard.not_found_at_end hmisfit
            simpa using hnot
          · rw [if_neg hend]
            have hnext := h.backtrack hp hstarred hfits hstar hend
            rw [hstar] at hnext
            refine ⟨hnext, ?_⟩
            have hless : text.length - w.starTextIndex = text.length - (w.starTextIndex + 1) + 1 := by omega
            unfold WildcardState.remaining
            dsimp only
            rw [hless, Nat.add_mul]
            omega

end Turn

/-- **The loop** ends, within the turns the model allows it, and answers with the meaning of the pattern. -/
theorem wildcardLoop_spec {text pattern : Bytes} : ∀ (fuel : Nat) {w : WildcardState}, Cursors text pattern w →
    w.remaining text pattern < fuel →
    WildcardReturns text pattern w (wildcardLoop text pattern fuel w) ∧
      (wildcardLoop text pattern fuel w = true ↔ Begins (wildcardsOf pattern) text)
  | 0, w, _, hfuel => absurd hfuel (Nat.not_lt_zero _)
  | fuel + 1, w, h, hfuel => by
    have hturn := h.turn
    rw [wildcardLoop_succ]
    cases hw : wildcardTurn text pattern w with
    | inr b =>
      rw [hw] at hturn
      exact ⟨.stop hw, hturn⟩
    | inl w' =>
      rw [hw] at hturn
      obtain ⟨hreturns, hmeaning⟩ := wildcardLoop_spec fuel hturn.1 (by omega)
      exact ⟨.next hw hreturns, hmeaning⟩

theorem wildcardMatchesPrefix_spec (text pattern : Bytes) :
    WildcardReturns text pattern {} (wildcardMatchesPrefix text pattern) ∧
      (wildcardMatchesPrefix text pattern = true ↔ Begins (wildcardsOf pattern) text) := by
  apply wildcardLoop_spec _ (cursors_start text pattern)
  have hproduct : text.length * (pattern.length + 1) + pattern.length < (text.length + 2) * (pattern.length + 2) := by
    nlinarith
  unfold WildcardState.remaining
  simpa using hproduct

theorem wildcardContains_iff (text pattern : Bytes) :
    wildcardContains text pattern = true ↔ ∃ slice, slice <:+: text ∧ Matches (wildcardsOf pattern) slice := by
  unfold wildcardContains
  rw [Wildcard.matches_infix, List.any_eq_true]
  constructor
  · rintro ⟨rest, hrest, hbegins⟩
    exact ⟨rest, hrest, (wildcardMatchesPrefix_spec rest pattern).2.1 hbegins⟩
  · rintro ⟨rest, hrest, hbegins⟩
    exact ⟨rest, hrest, (wildcardMatchesPrefix_spec rest pattern).2.2 hbegins⟩

/-! ## Triggers -/

/-- The text that is searched. -/
def searchedText (decodeWindows1252 : Bytes → Text) (line : Bytes) (trigger : Text) : Bytes :=
  if trigger.isAscii || (fromUtf8 line).isSome then line else (decodeWindows1252 line).asBytes

theorem triggerMatches_eq (decodeWindows1252 : Bytes → Text) (line : Bytes) {trigger : Text} (h : trigger ≠ [])
    (allowWildcards : Bool) : triggerMatches decodeWindows1252 line trigger allowWildcards =
      if allowWildcards then wildcardContains (searchedText decodeWindows1252 line trigger) trigger.asBytes
      else contains (searchedText decodeWindows1252 line trigger) trigger.asBytes := by
  have hne : trigger.isEmpty = false := by simpa using h
  have htext : (if trigger.isAscii then line else if (fromUtf8 line).isSome then line
      else (decodeWindows1252 line).asBytes) = searchedText decodeWindows1252 line trigger := by
    unfold searchedText
    cases trigger.isAscii with
    | true => rfl
    | false => rfl
  unfold triggerMatches
  rw [hne, if_neg (by simp), htext]

/-- A byte below 128 of a text's UTF-8 is a character of its own. -/
theorem mem_of_mem_asBytes {t : Text} {b : UInt8} (h : b ∈ t.asBytes) (hascii : b.toNat < 128) :
    Char.ofNat b.toNat ∈ t := by
  obtain ⟨c, hc, hb⟩ := List.mem_flatMap.1 h
  have hcode : c.toNat = b.toNat := by
    have hval : c.val.toNat = c.toNat := rfl
    unfold String.utf8EncodeChar at hb
    rw [hval] at hb
    generalize c.toNat = v at *
    dsimp only at hb
    split at hb
    · rename_i hsmall
      rw [List.mem_singleton.1 hb, UInt8.toNat_ofNat']
      omega
    · -- every byte of a longer encoding is at least 128
      exfalso
      have hbyte : ∀ n, 128 ≤ n → n < 256 → b ≠ UInt8.ofNat n := by
        rintro n hlow hhigh rfl
        rw [UInt8.toNat_ofNat', Nat.mod_eq_of_lt hhigh] at hascii
        omega
      repeat' split at hb
      all_goals simp only [List.mem_cons, List.not_mem_nil, or_false] at hb
      all_goals grind
  have hchar : Char.ofNat c.toNat = c := Char.ofNat_toNat c
  rw [← hcode, hchar]
  exact hc

theorem contains_iff (haystack needle : Bytes) : contains haystack needle = true ↔ needle <:+: haystack := by
  unfold contains
  rw [List.any_eq_true, List.infix_iff_prefix_suffix]
  constructor
  · rintro ⟨rest, hrest, hprefix⟩
    exact ⟨rest, List.isPrefixOf_iff_prefix.1 hprefix, (List.mem_tails _ _).1 hrest⟩
  · rintro ⟨rest, hprefix, hrest⟩
    exact ⟨rest, (List.mem_tails _ _).2 hrest, List.isPrefixOf_iff_prefix.2 hprefix⟩

theorem wildcardsOf_plain {pattern : Bytes} (hstar : 42 ∉ pattern) (hany : 63 ∉ pattern) :
    wildcardsOf pattern = pattern.map .one := by
  apply List.map_congr_left
  intro p hp
  unfold wildcardOf
  have hnotStar : p ≠ 42 := by
    rintro rfl
    exact hstar hp
  have hnotAny : p ≠ 63 := by
    rintro rfl
    exact hany hp
  rw [if_neg hnotStar, if_neg hnotAny]

theorem wildcardContains_plain (text : Bytes) {pattern : Bytes} (hstar : 42 ∉ pattern) (hany : 63 ∉ pattern) :
    wildcardContains text pattern = contains text pattern := by
  rw [Bool.eq_iff_iff, wildcardContains_iff, contains_iff, wildcardsOf_plain hstar hany, Wildcard.matches_infix,
    List.infix_iff_prefix_suffix]
  constructor
  · rintro ⟨rest, hrest, hbegins⟩
    exact ⟨rest, Wildcard.begins_ones.1 hbegins, (List.mem_tails _ _).1 hrest⟩
  · rintro ⟨rest, hprefix, hrest⟩
    exact ⟨rest, (List.mem_tails _ _).2 hrest, Wildcard.begins_ones.2 hprefix⟩

/-- **A trigger with wildcards matches what it means**: it is found exactly if some piece of the searched text is what
the trigger stands for; the loop returns on every text and pattern; and without a star and a question mark it answers
what the search for the plain text does. -/
theorem triggerMatches_wildcards (decodeWindows1252 : Bytes → Text) (line : Bytes) (trigger : Text) (h : trigger ≠ []) :
    (triggerMatches decodeWindows1252 line trigger true = true ↔
      ∃ slice, slice <:+: searchedText decodeWindows1252 line trigger ∧ Matches (wildcardsOf trigger.asBytes) slice) ∧
    (∀ text pattern, WildcardReturns text pattern {} (wildcardMatchesPrefix text pattern)) ∧
    ('*' ∉ trigger → '?' ∉ trigger →
      triggerMatches decodeWindows1252 line trigger true = triggerMatches decodeWindows1252 line trigger false) := by
  rw [triggerMatches_eq decodeWindows1252 line h, triggerMatches_eq decodeWindows1252 line h, if_pos rfl,
    if_neg (by simp)]
  refine ⟨wildcardContains_iff _ _, fun text pattern => (wildcardMatchesPrefix_spec text pattern).1, fun hstar hany => ?_⟩
  apply wildcardContains_plain
  · intro hmem
    exact hstar (mem_of_mem_asBytes hmem (by decide))
  · intro hmem
    exact hany (mem_of_mem_asBytes hmem (by decide))

theorem head_and_tail : ∃ slice,
    slice <:+: searchedText (fun _ => []) (Text.asBytes "prefix Head middle Tail-7 suffix") "Head*Tail-?" ∧
      Matches (wildcardsOf (Text.asBytes "Head*Tail-?")) slice :=
  (triggerMatches_wildcards (fun _ => []) (Text.asBytes "prefix Head middle Tail-7 suffix") "Head*Tail-?"
    (by simp)).1.1 (by decide +kernel)

end Jss
