import Mathlib
/-!
# Slices — a text cut at byte offsets

A text is the list of its characters, and an offset counts bytes of their UTF-8 encoding.  A cut that is not on a
character boundary has no value, where the `str` slices of Rust panic.
-/
namespace Jss
namespace Slice

def byteLength (t : List Char) : Nat := (t.flatMap String.utf8EncodeChar).length

/-- `str::find` of one character: the offset of its first occurrence. -/
def find (c : Char) : List Char → Option Nat
  | [] => none
  | d :: t => if d = c then some 0 else (find c t).map ((String.utf8EncodeChar d).length + ·)

/-- The two parts of a text at an offset. -/
def cut : List Char → Nat → Option (List Char × List Char)
  | t, 0 => some ([], t)
  | [], _ + 1 => none
  | c :: t, n + 1 =>
    if (String.utf8EncodeChar c).length ≤ n + 1 then
      (cut t (n + 1 - (String.utf8EncodeChar c).length)).map (fun parts => (c :: parts.1, parts.2))
    else none

/-- `&t[..n]`. -/
def upTo (t : List Char) (n : Nat) : Option (List Char) := (cut t n).map Prod.fst

/-- `&t[n..]`. -/
def from_ (t : List Char) (n : Nat) : Option (List Char) := (cut t n).map Prod.snd

@[simp] theorem byteLength_nil : byteLength [] = 0 := rfl

@[simp] theorem byteLength_cons (c : Char) (t : List Char) :
    byteLength (c :: t) = (String.utf8EncodeChar c).length + byteLength t := by
  simp [byteLength]

@[simp] theorem byteLength_append (t u : List Char) : byteLength (t ++ u) = byteLength t + byteLength u := by
  simp [byteLength]

theorem find_none {c : Char} : ∀ {t : List Char}, c ∉ t → find c t = none
  | [], _ => rfl
  | d :: t, h => by
    have hd : d ≠ c := fun heq => h (by simp [heq])
    have ht : c ∉ t := fun hmem => h (List.mem_cons_of_mem _ hmem)
    rw [find, if_neg hd, find_none ht]
    rfl

theorem find_append {c : Char} (u : List Char) : ∀ {t : List Char}, c ∉ t → find c (t ++ c :: u) = some (byteLength t)
  | [], _ => by simp [find]
  | d :: t, h => by
    have hd : d ≠ c := fun heq => h (by simp [heq])
    have ht : c ∉ t := fun hmem => h (List.mem_cons_of_mem _ hmem)
    rw [List.cons_append, find, if_neg hd, find_append u ht, byteLength_cons]
    rfl

/-- The offset behind a text is a character boundary. -/
theorem cut_append (u : List Char) : ∀ t : List Char, cut (t ++ u) (byteLength t) = some (t, u)
  | [] => by simp [cut]
  | c :: t => by
    have hpos : 0 < (String.utf8EncodeChar c).length := by
      rw [String.length_utf8EncodeChar]
      exact c.utf8Size_pos
    obtain ⟨n, hn⟩ : ∃ n, byteLength (c :: t) = n + 1 :=
      Nat.exists_eq_succ_of_ne_zero (by rw [byteLength_cons]; omega)
    have hlength : n + 1 = (String.utf8EncodeChar c).length + byteLength t := by rw [← hn, byteLength_cons]
    have hrest : n + 1 - (String.utf8EncodeChar c).length = byteLength t := by omega
    rw [hn, List.cons_append, cut, if_pos (by omega), hrest, cut_append u t]
    rfl

theorem upTo_append (t u : List Char) : upTo (t ++ u) (byteLength t) = some t := by
  rw [upTo, cut_append]
  rfl

theorem from_append (t u : List Char) : from_ (t ++ u) (byteLength t) = some u := by
  rw [from_, cut_append]
  rfl

/-- One byte behind a text that a character of one byte follows is a boundary too. -/
theorem from_behind {c : Char} (hc : (String.utf8EncodeChar c).length = 1) (t u : List Char) :
    from_ (t ++ c :: u) (byteLength t + 1) = some u := by
  have hparts : t ++ c :: u = (t ++ [c]) ++ u := by simp
  have hlength : byteLength t + 1 = byteLength (t ++ [c]) := by simp [hc]
  rw [hparts, hlength, from_append]

example : from_ ['n', 'é', '%', 'x'] 2 = none := by decide

end Slice
end Jss
