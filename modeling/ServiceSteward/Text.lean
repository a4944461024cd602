import Mathlib
import ServiceSteward.Basics
/-!
# Text — the string functions of the Rust standard library that the code calls

`trim`, lines, prefixes and splitting, ASCII case, the integer parsers, substring search, and the two UTF-8 decoders:
`fromUtf8` refuses what `utf8Lossy` replaces by U+FFFD.
-/
namespace Jss
namespace Text

/-- `char::is_whitespace`. -/
def isWhitespace (c : Char) : Bool :=
  let n := c.toNat
  (0x09 ≤ n && n ≤ 0x0D) || n == 0x20 || n == 0x85 || n == 0xA0 || n == 0x1680 || (0x2000 ≤ n && n ≤ 0x200A) ||
    n == 0x2028 || n == 0x2029 || n == 0x202F || n == 0x205F || n == 0x3000

/-- `str::trim`. -/
def trim (t : Text) : Text := ((t.dropWhile isWhitespace).reverse.dropWhile isWhitespace).reverse

/-- `str::trim_end_matches` of one character. -/
def trimEndMatches (c : Char) (t : Text) : Text := (t.reverse.dropWhile (· == c)).reverse

/-- `str::strip_prefix`. -/
def stripPrefix (pre t : Text) : Option Text := if pre.isPrefixOf t then some (t.drop pre.length) else none

/-- `str::split_once` at one character. -/
def splitOnce (c : Char) (t : Text) : Option (Text × Text) :=
  if c ∈ t then some (t.takeWhile (· != c), (t.dropWhile (· != c)).tail) else none

/-- `str::lines`, from inside a line on. -/
def linesFrom (line : Text) : Text → List Text
  | [] => if line.isEmpty then [] else [line]
  | '\n' :: rest => (if line.getLast? = some '\r' then line.dropLast else line) :: linesFrom [] rest
  | c :: rest => linesFrom (line ++ [c]) rest

/-- `str::lines`. -/
def lines (t : Text) : List Text := linesFrom [] t

def toAsciiUppercase (t : Text) : Text := t.map Char.toUpper

def toAsciiLowercase (t : Text) : Text := t.map Char.toLower

/-- `is_ascii`. -/
def isAscii (t : Text) : Bool := t.all (fun c => c.toNat < 128)

/-- The value of a non-empty string of ASCII digits. -/
def digits : Text → Option Nat
  | [] => none
  | t => if t.all Char.isDigit then some (t.foldl (fun n c => 10 * n + (c.toNat - '0'.toNat)) 0) else none

/-- `parse` to an unsigned type with this largest value. -/
def parseUnsigned (max : Nat) (t : Text) : Option Nat :=
  let magnitude := match t with
    | '+' :: rest => digits rest
    | _ => digits t
  magnitude.filter (· ≤ max)

theorem digits_ofNat (n : Nat) : digits (ofNat n) = some n := by
  have hall : (ofNat n).all Char.isDigit = true :=
    List.all_eq_true.2 (fun _ hc => Nat.isDigit_of_mem_toDigits (by decide) (by decide) hc)
  have hne : ofNat n ≠ [] := Nat.toDigits_ne_nil
  have hvalue : Nat.ofDigitChars 10 (ofNat n) 0 = n := Nat.ofDigitChars_ten_toDigits
  rw [Nat.ofDigitChars_eq_foldl] at hvalue
  unfold digits
  split
  · rename_i heq
    exact absurd heq hne
  · rw [if_pos hall, hvalue]

theorem ofNat_injective {m n : Nat} (h : ofNat m = ofNat n) : m = n := by
  have hdigits := digits_ofNat m
  rw [h, digits_ofNat] at hdigits
  exact (Option.some.inj hdigits).symm

theorem parseUnsigned_ofNat {max n : Nat} (h : n ≤ max) : parseUnsigned max (ofNat n) = some n := by
  have hplus : ∀ rest, ofNat n ≠ '+' :: rest := by
    intro rest heq
    have hdigit : Char.isDigit '+' = true := by
      apply Nat.isDigit_of_mem_toDigits (b := 10) (n := n) (by decide) (by decide)
      change '+' ∈ ofNat n
      simp [heq]
    exact absurd hdigit (by decide)
  unfold parseUnsigned
  split
  · rename_i rest heq
    exact absurd heq (hplus rest)
  · rw [digits_ofNat]
    simp [h]

def u16Max : Nat := 65535
def u32Max : Nat := 4294967295
def u64Max : Nat := 18446744073709551615

/-- `parse::<i32>`. -/
def parseI32 : Text → Option Int
  | '-' :: rest => ((digits rest).filter (· ≤ 2147483648)).map (fun n => -(n : Int))
  | '+' :: rest => ((digits rest).filter (· ≤ 2147483647)).map (fun n => (n : Int))
  | t => ((digits t).filter (· ≤ 2147483647)).map (fun n => (n : Int))

/-! ## Trimming and splitting -/

theorem trim_eq (t : Text) : t.trim = (t.dropWhile isWhitespace).rdropWhile isWhitespace := rfl

theorem trim_sublist (t : Text) : t.trim.Sublist t := by
  rw [trim_eq]
  exact (List.rdropWhile_prefix _ _).sublist.trans (List.dropWhile_sublist _)

theorem head_trim (t : Text) : ∀ c, t.trim.head? = some c → isWhitespace c = false := by
  intro c hc
  have hprefix : t.trim <+: t.dropWhile isWhitespace := List.rdropWhile_prefix _ _
  have hhead : (t.dropWhile isWhitespace).head? = some c := by
    obtain ⟨rest, hrest⟩ := hprefix
    rw [← hrest, List.head?_append, hc]
    rfl
  have hnot := List.head?_dropWhile_not isWhitespace t
  rw [hhead] at hnot
  exact hnot

theorem rdropWhile_append_of_all {p : Char → Bool} (t : Text) {u : Text} (h : ∀ c ∈ u, p c = true) :
    (t ++ u).rdropWhile p = t.rdropWhile p := by
  have hdrop : u.reverse.dropWhile p = [] := by
    apply List.dropWhile_eq_nil_iff.2
    intro c hc
    exact h c (List.mem_reverse.1 hc)
  simp [List.rdropWhile, List.dropWhile_append, hdrop]

/-- White space at the end does not matter. -/
theorem trim_append_whitespace (t : Text) {u : Text} (h : ∀ c ∈ u, isWhitespace c = true) : (t ++ u).trim = t.trim := by
  rw [trim_eq, trim_eq, List.dropWhile_append]
  by_cases hempty : (t.dropWhile isWhitespace).isEmpty = true
  · have hu : u.dropWhile isWhitespace = [] := List.dropWhile_eq_nil_iff.2 h
    have ht : t.dropWhile isWhitespace = [] := by simpa using hempty
    rw [if_pos hempty, hu, ht]
  · rw [if_neg hempty]
    exact rdropWhile_append_of_all _ h

/-- Only the end is left to trim of a text that starts with something else. -/
theorem trim_of_head {t : Text} (h : ∀ c, t.head? = some c → isWhitespace c = false) :
    t.trim = t.rdropWhile isWhitespace := by
  have hdrop : t.dropWhile isWhitespace = t := by
    cases t with
    | nil => rfl
    | cons c t => simp [h c rfl]
  rw [trim_eq, hdrop]

theorem rdropWhile_append_cons {p : Char → Bool} (t : Text) {c : Char} (u : Text) (hc : p c = false) :
    (t ++ c :: u).rdropWhile p = t ++ c :: u.rdropWhile p := by
  have hstop : (c :: u).reverse.dropWhile p = (u.reverse.dropWhile p) ++ [c] := by
    rw [List.reverse_cons, List.dropWhile_append]
    by_cases h : (u.reverse.dropWhile p).isEmpty = true
    · have hu : u.reverse.dropWhile p = [] := by simpa using h
      simp [hu, hc]
    · rw [if_neg h]
  unfold List.rdropWhile
  rw [List.reverse_append, List.dropWhile_append, hstop]
  simp

/-- A text that is trimmed already has no white space at its end. -/
theorem rdropWhile_of_trim {t : Text} (h : t.trim = t) : t.rdropWhile isWhitespace = t := by
  have hhead := head_trim t
  rw [h] at hhead
  rw [← trim_of_head hhead]
  exact h

/-- What a text with a trimmed form that is trimmed already is made of. -/
theorem trim_eq_iff {t u : Text} (h : u.trim = u) : t.trim = u ↔ ∃ before after : Text,
    (∀ c ∈ before, isWhitespace c = true) ∧ (∀ c ∈ after, isWhitespace c = true) ∧ t = before ++ u ++ after := by
  constructor
  · rintro rfl
    have hstart : t.takeWhile isWhitespace ++ t.dropWhile isWhitespace = t := List.takeWhile_append_dropWhile
    have hend : (t.dropWhile isWhitespace).rdropWhile isWhitespace ++ (t.dropWhile isWhitespace).rtakeWhile isWhitespace =
        t.dropWhile isWhitespace := List.rdropWhile_append_rtakeWhile
    refine ⟨t.takeWhile isWhitespace, (t.dropWhile isWhitespace).rtakeWhile isWhitespace, ?_, ?_, ?_⟩
    · intro c hc
      exact List.mem_takeWhile_imp hc
    · intro c hc
      exact List.mem_rtakeWhile_imp hc
    · rw [trim_eq, List.append_assoc, hend, hstart]
  · rintro ⟨before, after, hbefore, hafter, rfl⟩
    have hdrop : (before ++ u).dropWhile isWhitespace = u.dropWhile isWhitespace := List.dropWhile_append_of_pos hbefore
    rw [trim_append_whitespace _ hafter, trim_eq, hdrop, ← trim_eq, h]

theorem splitOnce_append {c : Char} {t : Text} (u : Text) (h : c ∉ t) : splitOnce c (t ++ c :: u) = some (t, u) := by
  have hbefore : ∀ d ∈ t, (d != c) = true := by
    intro d hd
    have hne : d ≠ c := fun heq => h (heq ▸ hd)
    simpa using hne
  unfold splitOnce
  rw [if_pos (by simp), List.takeWhile_append_of_pos hbefore, List.dropWhile_append_of_pos hbefore]
  simp

theorem splitOnce_some {c : Char} {t before after : Text} (h : splitOnce c t = some (before, after)) :
    t = before ++ c :: after ∧ c ∉ before := by
  unfold splitOnce at h
  split at h
  · rename_i hmem
    cases h
    have hstop : (t.dropWhile (· != c)).head? = some c := by
      have hnot := List.head?_dropWhile_not (· != c) t
      cases hdrop : t.dropWhile (· != c) with
      | nil =>
        have hall := List.dropWhile_eq_nil_iff.1 hdrop c hmem
        simp at hall
      | cons d rest =>
        rw [hdrop] at hnot
        simpa using hnot
    have hbehind : t.dropWhile (· != c) = c :: (t.dropWhile (· != c)).tail := (List.cons_head?_tail hstop).symm
    refine ⟨?_, fun hc => ?_⟩
    · rw [← hbehind, List.takeWhile_append_dropWhile]
    · have hne := List.mem_takeWhile_imp hc
      simp at hne
  · cases h

theorem splitOnce_none {c : Char} {t : Text} (h : c ∉ t) : splitOnce c t = none := if_neg h

theorem trimEndMatches_append (c : Char) (t : Text) :
    ∃ n, t = trimEndMatches c t ++ List.replicate n c := by
  refine ⟨(t.reverse.takeWhile (· == c)).length, ?_⟩
  have hall : t.reverse.takeWhile (· == c) = List.replicate (t.reverse.takeWhile (· == c)).length c := by
    apply List.eq_replicate_iff.2
    constructor
    · rfl
    · intro d hd
      simpa using List.mem_takeWhile_imp hd
  have hparts := List.takeWhile_append_dropWhile (p := (· == c)) (l := t.reverse)
  unfold trimEndMatches
  rw [← List.reverse_inj, List.reverse_append, List.reverse_replicate, List.reverse_reverse, ← hall]
  exact hparts.symm

/-! ## Lines -/

theorem linesFrom_append {t : Text} (h : '\n' ∉ t) : ∀ (line rest : Text), linesFrom line (t ++ rest) = linesFrom (line ++ t) rest := by
  induction t with
  | nil => simp
  | cons c t ih =>
    intro line rest
    have hc : c ≠ '\n' := fun heq => h (by simp [heq])
    have ht : '\n' ∉ t := fun hmem => h (List.mem_cons_of_mem _ hmem)
    rw [List.cons_append, linesFrom, ih ht]
    · simp
    · rintro rfl
      exact hc rfl

end Text

/-- Whether one list occurs in another as a contiguous piece. -/
def contains {α : Type} [BEq α] (haystack needle : List α) : Bool := haystack.tails.any (needle.isPrefixOf ·)

/-! ## UTF-8 -/

def isContinuation (b : Nat) : Bool := 0x80 ≤ b && b ≤ 0xBF

/-- Whether `second` may follow the first byte of a character of three or four bytes. -/
def secondByteFits (first second : Nat) : Bool :=
  if first = 0xE0 then 0xA0 ≤ second && second ≤ 0xBF
  else if first = 0xED then 0x80 ≤ second && second ≤ 0x9F
  else if first = 0xF0 then 0x90 ≤ second && second ≤ 0xBF
  else if first = 0xF4 then 0x80 ≤ second && second ≤ 0x8F
  else isContinuation second

/-- The character a byte string starts with, or none, and how many bytes that takes.  A missing byte reads as 0. -/
def decodeChar (bytes : Bytes) : Option Char × Nat :=
  let b (i : Nat) : Nat := (bytes.getD i 0).toNat
  if b 0 < 0x80 then (some (Char.ofNat (b 0)), 1)
  else if 0xC2 ≤ b 0 && b 0 ≤ 0xDF then
    if isContinuation (b 1) then (some (Char.ofNat ((b 0 - 0xC0) * 0x40 + (b 1 - 0x80))), 2) else (none, 1)
  else if 0xE0 ≤ b 0 && b 0 ≤ 0xEF then
    if !secondByteFits (b 0) (b 1) then (none, 1)
    else if !isContinuation (b 2) then (none, 2)
    else (some (Char.ofNat ((b 0 - 0xE0) * 0x1000 + (b 1 - 0x80) * 0x40 + (b 2 - 0x80))), 3)
  else if 0xF0 ≤ b 0 && b 0 ≤ 0xF4 then
    if !secondByteFits (b 0) (b 1) then (none, 1)
    else if !isContinuation (b 2) then (none, 2)
    else if !isContinuation (b 3) then (none, 3)
    else (some (Char.ofNat
      ((b 0 - 0xF0) * 0x40000 + (b 1 - 0x80) * 0x1000 + (b 2 - 0x80) * 0x40 + (b 3 - 0x80))), 4)
  else (none, 1)

/-- The characters of a byte string, with none for each piece that is not UTF-8. -/
def decodeUtf8 : Nat → Bytes → List (Option Char)
  | 0, _ => []
  | _, [] => []
  | n + 1, bytes => (decodeChar bytes).1 :: decodeUtf8 n (bytes.drop (decodeChar bytes).2)

/-- `std::str::from_utf8`. -/
def fromUtf8 (bytes : Bytes) : Option Text := (decodeUtf8 bytes.length bytes).mapM id

/-- `String::from_utf8_lossy`. -/
def utf8Lossy (bytes : Bytes) : Text := (decodeUtf8 bytes.length bytes).map (·.getD (Char.ofNat 0xFFFD))

/-! ### What the encoder writes is read back -/

theorem toNat_ofNat_byte {n : Nat} (h : n < 256) : (UInt8.ofNat n).toNat = n := by
  rw [UInt8.toNat_ofNat']
  exact Nat.mod_eq_of_lt h

theorem isContinuation_tail (n : Nat) : isContinuation (n % 64 + 128) = true := by
  unfold isContinuation
  rw [Bool.and_eq_true, decide_eq_true_eq, decide_eq_true_eq]
  omega

theorem secondByteFits_three {v : Nat} (h : 0x7ff < v) (hvalid : v < 0xD800 ∨ 0xDFFF < v ∧ v ≤ 0xffff) :
    secondByteFits (v / 4096 % 16 + 224) (v / 64 % 64 + 128) = true := by
  unfold secondByteFits isContinuation
  repeat' split
  all_goals rw [Bool.and_eq_true, decide_eq_true_eq, decide_eq_true_eq]
  all_goals omega

theorem secondByteFits_four {v : Nat} (h : 0xffff < v) (hvalid : v < 0x110000) :
    secondByteFits (v / 262144 % 8 + 240) (v / 4096 % 64 + 128) = true := by
  unfold secondByteFits isContinuation
  repeat' split
  all_goals rw [Bool.and_eq_true, decide_eq_true_eq, decide_eq_true_eq]
  all_goals omega

/-- The decoder reads back what the encoder wrote of one character. -/
theorem decodeChar_encode (c : Char) (rest : Bytes) :
    decodeChar (String.utf8EncodeChar c ++ rest) = (some c, (String.utf8EncodeChar c).length) := by
  have hvalid : c.toNat < 0xD800 ∨ 0xDFFF < c.toNat ∧ c.toNat < 0x110000 := c.valid
  have hchar : Char.ofNat c.toNat = c := Char.ofNat_toNat c
  have hval : c.val.toNat = c.toNat := rfl
  unfold String.utf8EncodeChar decodeChar
  rw [hval]
  generalize c.toNat = v at *
  have htail := toNat_ofNat_byte (n := v % 64 + 128) (by omega)
  have hsecond := toNat_ofNat_byte (n := v / 64 % 64 + 128) (by omega)
  by_cases h1 : v ≤ 0x7f
  · have hv := toNat_ofNat_byte (n := v) (by omega)
    have hlt : v < 128 := by omega
    simp [h1, hlt, hv, hchar]
  · by_cases h2 : v ≤ 0x7ff
    · have hfirst := toNat_ofNat_byte (n := v / 64 % 32 + 192) (by omega)
      have hrange : (0xC2 ≤ v / 64 % 32 + 192 && v / 64 % 32 + 192 ≤ 0xDF) = true := by
        rw [Bool.and_eq_true, decide_eq_true_eq, decide_eq_true_eq]
        omega
      have hcode : (v / 64 % 32 + 192 - 0xC0) * 0x40 + (v % 64 + 128 - 0x80) = v := by omega
      rw [if_neg h1, if_pos h2]
      simp only [List.cons_append, List.nil_append, List.getD_cons_zero, List.getD_cons_succ]
      rw [hfirst, htail, if_neg (by omega), if_pos hrange, if_pos (isContinuation_tail v), hcode, hchar]
      rfl
    · by_cases h3 : v ≤ 0xffff
      · have hfirst := toNat_ofNat_byte (n := v / 4096 % 16 + 224) (by omega)
        have hlarge : ¬ (0xC2 ≤ v / 4096 % 16 + 224 && v / 4096 % 16 + 224 ≤ 0xDF) = true := by
          rw [Bool.and_eq_true, decide_eq_true_eq, decide_eq_true_eq]
          omega
        have hrange : (0xE0 ≤ v / 4096 % 16 + 224 && v / 4096 % 16 + 224 ≤ 0xEF) = true := by
          rw [Bool.and_eq_true, decide_eq_true_eq, decide_eq_true_eq]
          omega
        have hfits := secondByteFits_three (v := v) (by omega) (by omega)
        have hcode : (v / 4096 % 16 + 224 - 0xE0) * 0x1000 + (v / 64 % 64 + 128 - 0x80) * 0x40 +
            (v % 64 + 128 - 0x80) = v := by omega
        rw [if_neg h1, if_neg h2, if_pos h3]
        simp only [List.cons_append, List.nil_append, List.getD_cons_zero, List.getD_cons_succ]
        rw [hfirst, hsecond, htail, if_neg (by omega), if_neg hlarge, if_pos hrange, hfits, isContinuation_tail,
          hcode, hchar]
        rfl
      · have hfirst := toNat_ofNat_byte (n := v / 262144 % 8 + 240) (by omega)
        have hthird := toNat_ofNat_byte (n := v / 4096 % 64 + 128) (by omega)
        have hlarge : ¬ (0xC2 ≤ v / 262144 % 8 + 240 && v / 262144 % 8 + 240 ≤ 0xDF) = true := by
          rw [Bool.and_eq_true, decide_eq_true_eq, decide_eq_true_eq]
          omega
        have hlarger : ¬ (0xE0 ≤ v / 262144 % 8 + 240 && v / 262144 % 8 + 240 ≤ 0xEF) = true := by
          rw [Bool.and_eq_true, decide_eq_true_eq, decide_eq_true_eq]
          omega
        have hrange : (0xF0 ≤ v / 262144 % 8 + 240 && v / 262144 % 8 + 240 ≤ 0xF4) = true := by
          rw [Bool.and_eq_true, decide_eq_true_eq, decide_eq_true_eq]
          omega
        have hfits := secondByteFits_four (v := v) (by omega) (by omega)
        have hcode : (v / 262144 % 8 + 240 - 0xF0) * 0x40000 + (v / 4096 % 64 + 128 - 0x80) * 0x1000 +
            (v / 64 % 64 + 128 - 0x80) * 0x40 + (v % 64 + 128 - 0x80) = v := by omega
        rw [if_neg h1, if_neg h2, if_neg h3]
        simp only [List.cons_append, List.nil_append, List.getD_cons_zero, List.getD_cons_succ]
        rw [hfirst, hthird, hsecond, htail, if_neg (by omega), if_neg hlarge, if_neg hlarger, if_pos hrange, hfits,
          isContinuation_tail, isContinuation_tail, hcode, hchar]
        rfl

theorem decodeUtf8_asBytes : ∀ (t : Text) (n : Nat), t.asBytes.length ≤ n → decodeUtf8 n t.asBytes = t.map some
  | [], 0, _ => rfl
  | [], n + 1, _ => rfl
  | c :: t, n, h => by
    have hparts : Text.asBytes (c :: t) = String.utf8EncodeChar c ++ Text.asBytes t := rfl
    have hpos : 0 < (String.utf8EncodeChar c).length := by
      rw [String.length_utf8EncodeChar]
      exact c.utf8Size_pos
    rw [hparts, List.length_append] at h
    obtain ⟨m, rfl⟩ : ∃ m, n = m + 1 := ⟨n - 1, by omega⟩
    have hne : String.utf8EncodeChar c ++ Text.asBytes t ≠ [] := by
      intro hnil
      have hlength := congrArg List.length hnil
      rw [List.length_append, List.length_nil] at hlength
      omega
    rw [hparts, decodeUtf8]
    · rw [decodeChar_encode]
      dsimp only
      rw [List.drop_left, decodeUtf8_asBytes t m (by omega)]
      rfl
    · exact hne

/-- A text survives being encoded and decoded. -/
theorem utf8Lossy_asBytes (t : Text) : utf8Lossy t.asBytes = t := by
  unfold utf8Lossy
  rw [decodeUtf8_asBytes t _ (Nat.le_refl _), List.map_map]
  exact List.map_id' t

end Jss
