import ServiceSteward.Bridge
import ServiceSteward.Text
/-!
# StartStopApp — the parameters of the launcher with a start and a stop class

`parse` reads `<startClass> <startArgCount> <startArgs...> <stopClass> <waitForStopThreads> <stopArgCount>
<stopArgs...>` with a cursor and counts that are `int`s, whose sums wrap.
-/
namespace Jss
namespace StartStopApp

open Bridge (JString)

/-! ## The Java runtime -/

inductive Thrown where
  | illegalArgument (message : JString)
  | arrayIndexOutOfBounds
  | outOfMemory
  deriving DecidableEq, Repr

/-- A `String[]` without nulls. -/
structure Arguments where
  elements : List JString
  representable : elements.length < 2 ^ 31

/-- What the code leaves to the runtime. -/
structure Runtime where
  /-- `Character.digit` in base 10 beyond ASCII, and the case mappings there. -/
  digits : UInt16 → Option Nat
  upperCase : UInt16 → UInt16
  lowerCase : UInt16 → UInt16
  /-- `Arrays.copyOfRange` where the range ends before it starts. -/
  reversedCopy : Int → Int → Except Thrown (List (Option JString))

/-- The value of an `int` expression. -/
def int (i : Int) : Int := i.bmod (2 ^ 32)

def Arguments.length (arguments : Arguments) : Nat := arguments.elements.length

/-- `arguments[index]`. -/
def Arguments.element (arguments : Arguments) (index : Int) : Except Thrown JString :=
  if index < 0 then .error .arrayIndexOutOfBounds
  else
    match arguments.elements[index.toNat]? with
    | some argument => .ok argument
    | none => .error .arrayIndexOutOfBounds

/-- `Arrays.copyOfRange`: what lies beyond the end is null. -/
def copyOfRange (runtime : Runtime) (arguments : Arguments) (start stop : Int) :
    Except Thrown (List (Option JString)) :=
  if stop < start then runtime.reversedCopy start stop
  else if start < 0 ∨ (arguments.length : Int) < start then .error .arrayIndexOutOfBounds
  else
    let behind := arguments.elements.drop start.toNat
    let size := (stop - start).toNat
    .ok ((behind.take size).map some ++ List.replicate (size - behind.length) none)

def trim (t : JString) : JString := ((t.dropWhile (· ≤ 0x20)).reverse.dropWhile (· ≤ 0x20)).reverse

def digit (runtime : Runtime) (c : UInt16) : Option Nat :=
  if c < 0x80 then (if 0x30 ≤ c ∧ c ≤ 0x39 then some (c.toNat - 0x30) else none)
  else (runtime.digits c).filter (· < 10)

def magnitude (runtime : Runtime) : JString → Option Nat
  | [] => none
  | t => t.foldlM (fun n c => (digit runtime c).map (10 * n + ·)) 0

/-- `Integer.parseInt`, none for a `NumberFormatException`. -/
def parseInt (runtime : Runtime) (t : JString) : Option Int :=
  if t.head? = some 0x2D then ((magnitude runtime t.tail).filter (· ≤ 2 ^ 31)).map (fun n : Nat => -(n : Int))
  else
    ((magnitude runtime (if t.head? = some 0x2B then t.tail else t)).filter (· < 2 ^ 31)).map (fun n : Nat => (n : Int))

def toUpperCase (runtime : Runtime) (c : UInt16) : UInt16 :=
  if c < 0x80 then (if 0x61 ≤ c ∧ c ≤ 0x7A then c - 0x20 else c) else runtime.upperCase c

def toLowerCase (runtime : Runtime) (c : UInt16) : UInt16 :=
  if c < 0x80 then (if 0x41 ≤ c ∧ c ≤ 0x5A then c + 0x20 else c) else runtime.lowerCase c

def equalsIgnoreCase (runtime : Runtime) (t u : JString) : Bool :=
  t.length == u.length && (t.zip u).all (fun (c, d) =>
    c == d || toUpperCase runtime c == toUpperCase runtime d ||
      toLowerCase runtime (toUpperCase runtime c) == toLowerCase runtime (toUpperCase runtime d))

/-! ## The parser -/

structure Parameters where
  startClass : JString
  startArguments : List (Option JString)
  stopClass : JString
  waitForStopThreads : Bool
  stopArguments : List (Option JString)
  deriving DecidableEq

def illegalArgument (message : Text) (found : JString) : Thrown := .illegalArgument (JString.ofText message ++ found)

/-- The count that a text stands for. -/
def countOf (runtime : Runtime) (value : JString) : Option Nat :=
  ((parseInt runtime (trim value)).filter (0 ≤ ·)).map Int.toNat

/-- `Launchers.parseCount`. -/
def parseCount (runtime : Runtime) (value : JString) (what : Text) : Except Thrown Nat :=
  match countOf runtime value with
  | some count => .ok count
  | none => .error (illegalArgument (what ++ " must be a non-negative integer, found: ".toList) value)

/-- The flag that a text stands for. -/
def flagOf (runtime : Runtime) (value : JString) : Option Bool :=
  if equalsIgnoreCase runtime (JString.ofText "true") (trim value) then some true
  else if equalsIgnoreCase runtime (JString.ofText "false") (trim value) then some false
  else none

def parseFlag (runtime : Runtime) (value : JString) : Except Thrown Bool :=
  match flagOf runtime value with
  | some flag => .ok flag
  | none => .error (illegalArgument "waitForStopThreads must be true or false, found: " (trim value))

/-- `Parameters.parse` behind the start arguments. -/
def parseStop (runtime : Runtime) (arguments : Arguments) (cursor : Int) :
    Except Thrown (JString × Bool × List (Option JString)) :=
  if (arguments.length : Int) < int (cursor + 3) then
    .error (illegalArgument "missing stop class, waitForStopThreads flag or stop argument count" [])
  else do
    let stopClass ← arguments.element cursor
    let waitFlag ← arguments.element (int (cursor + 1))
    let waitForStopThreads ← parseFlag runtime waitFlag
    let stopCount ← arguments.element (int (cursor + 2))
    let stopCount ← parseCount runtime stopCount "stop argument count"
    let cursor := int (cursor + 3)
    if (arguments.length : Int) < int (cursor + stopCount) then
      .error (illegalArgument "fewer stop arguments than declared" [])
    else
      let stopArguments ← copyOfRange runtime arguments cursor (int (cursor + stopCount))
      return (stopClass, waitForStopThreads, stopArguments)

def Parameters.parse (runtime : Runtime) (arguments : Arguments) : Except Thrown Parameters :=
  if arguments.length < 2 then .error (illegalArgument "missing start class and start argument count" [])
  else do
    let startClass ← arguments.element 0
    let startCount ← arguments.element 1
    let startCount ← parseCount runtime startCount "start argument count"
    let cursor := int (2 + startCount)
    if (arguments.length : Int) < cursor then .error (illegalArgument "fewer start arguments than declared" [])
    else
      let startArguments ← copyOfRange runtime arguments 2 cursor
      let (stopClass, waitForStopThreads, stopArguments) ← parseStop runtime arguments cursor
      return ⟨startClass, startArguments, stopClass, waitForStopThreads, stopArguments⟩

/-! ## The parser on the list of the arguments -/

/-- With too few arguments for the stop class the check fails, unless its sum wraps. -/
def tooFew {α : Type} (cursor : Nat) (unchecked : Except Thrown α) : Except Thrown α :=
  if 2 ^ 31 ≤ cursor + 3 then unchecked
  else .error (illegalArgument "missing stop class, waitForStopThreads flag or stop argument count" [])

/-- `parseStop` on the arguments that are left behind `cursor` others. -/
def stopOf (runtime : Runtime) (cursor : Nat) : List JString → Except Thrown (JString × Bool × List (Option JString))
  | [] => tooFew cursor (.error .arrayIndexOutOfBounds)
  | [_] => tooFew cursor (.error .arrayIndexOutOfBounds)
  | [_, waitFlag] => tooFew cursor ((parseFlag runtime waitFlag).bind (fun _ => .error .arrayIndexOutOfBounds))
  | stopClass :: waitFlag :: stopCount :: rest => do
    let waitForStopThreads ← parseFlag runtime waitFlag
    let stopCount ← parseCount runtime stopCount "stop argument count"
    if 2 ^ 31 ≤ cursor + 3 + stopCount then
      let stopArguments ← runtime.reversedCopy (cursor + 3 : Nat) (int (cursor + 3 + stopCount : Nat))
      return (stopClass, waitForStopThreads, stopArguments)
    else if rest.length < stopCount then .error (illegalArgument "fewer stop arguments than declared" [])
    else return (stopClass, waitForStopThreads, (rest.take stopCount).map some)

def parametersOf (runtime : Runtime) : List JString → Except Thrown Parameters
  | startClass :: startCount :: rest => do
    let startCount ← parseCount runtime startCount "start argument count"
    if 2 ^ 31 ≤ 2 + startCount then
      (runtime.reversedCopy 2 (int (2 + startCount))).bind (fun _ => .error .arrayIndexOutOfBounds)
    else if rest.length < startCount then .error (illegalArgument "fewer start arguments than declared" [])
    else
      let (stopClass, waitForStopThreads, stopArguments) ← stopOf runtime (2 + startCount) (rest.drop startCount)
      return ⟨startClass, (rest.take startCount).map some, stopClass, waitForStopThreads, stopArguments⟩
  | _ => .error (illegalArgument "missing start class and start argument count" [])

/-! ### Both are the same -/

theorem int_eq_self {i : Int} (h : -2 ^ 31 ≤ i) (h' : i < 2 ^ 31) : int i = i := by
  unfold int
  rw [Int.bmod_eq_iff (by decide)]
  omega

theorem int_wraps {i : Int} (h : 2 ^ 31 ≤ i) (h' : i < 2 ^ 32) : int i = i - 2 ^ 32 := by
  unfold int
  rw [Int.bmod_eq_iff (by decide)]
  omega

variable {runtime : Runtime}

theorem countOf_lt {value : JString} {count : Nat} (h : countOf runtime value = some count) : count < 2 ^ 31 := by
  obtain ⟨i, hi, rfl⟩ := Option.map_eq_some_iff.1 h
  obtain ⟨hparse, hnonneg⟩ := Option.filter_eq_some_iff.1 hi
  have hnonneg : 0 ≤ i := by simpa using hnonneg
  have hlt : i < 2 ^ 31 := by
    unfold parseInt at hparse
    split at hparse
    · obtain ⟨n, -, rfl⟩ := Option.map_eq_some_iff.1 hparse
      omega
    · obtain ⟨n, hn, rfl⟩ := Option.map_eq_some_iff.1 hparse
      have hlt := (Option.filter_eq_some_iff.1 hn).2
      have hlt : n < 2 ^ 31 := by simpa using hlt
      omega
  omega

theorem parseCount_lt {value : JString} {what : Text} {count : Nat} (h : parseCount runtime value what = .ok count) :
    count < 2 ^ 31 := by
  unfold parseCount at h
  split at h
  · rename_i count' hcount
    cases h
    exact countOf_lt hcount
  · cases h

theorem ok_bind {α β : Type} (a : α) (f : α → Except Thrown β) : (Except.ok a >>= f) = f a := rfl

theorem error_bind {α β : Type} (thrown : Thrown) (f : α → Except Thrown β) :
    (Except.error thrown >>= f) = .error thrown := rfl

theorem element_append {arguments : Arguments} {before rest : List JString} (h : arguments.elements = before ++ rest)
    {i : Nat} {argument : JString} (hi : rest[i]? = some argument) :
    arguments.element ((before.length : Int) + i) = .ok argument := by
  have hindex : ((before.length : Int) + i).toNat = before.length + i := by omega
  unfold Arguments.element
  rw [if_neg (by omega), hindex, h, List.getElem?_append_right (by omega), Nat.add_sub_cancel_left, hi]

theorem element_beyond {arguments : Arguments} {index : Int} (h : (arguments.length : Int) ≤ index) :
    arguments.element index = .error .arrayIndexOutOfBounds := by
  unfold Arguments.length at h
  unfold Arguments.element
  rw [if_neg (by omega), List.getElem?_eq_none (by omega)]

theorem copyOfRange_append (runtime : Runtime) {arguments : Arguments} {before rest : List JString}
    (h : arguments.elements = before ++ rest) {size : Nat} (hsize : size ≤ rest.length) :
    copyOfRange runtime arguments before.length (before.length + size) = .ok ((rest.take size).map some) := by
  have hlength : arguments.length = before.length + rest.length := by
    unfold Arguments.length
    rw [h, List.length_append]
  have hdifference : ((before.length : Int) + size - before.length).toNat = size := by omega
  have hdrop : arguments.elements.drop ((before.length : Int)).toNat = rest := by
    rw [h, Int.toNat_natCast, List.drop_left]
  unfold copyOfRange
  rw [if_neg (by omega), if_neg (by omega)]
  dsimp only
  rw [hdifference, hdrop, Nat.sub_eq_zero_of_le hsize, List.replicate_zero, List.append_nil]

/-- A range whose end wraps ends before it starts. -/
theorem copyOfRange_wrapped (runtime : Runtime) (arguments : Arguments) (start size : Nat) (hstart : start < 2 ^ 31)
    (hsize : size < 2 ^ 31) (hwraps : 2 ^ 31 ≤ start + size) :
    copyOfRange runtime arguments start (int (start + size : Nat)) =
      runtime.reversedCopy start (int (start + size : Nat)) := by
  have hint := int_wraps (i := (start + size : Nat)) (by omega) (by omega)
  unfold copyOfRange
  rw [if_pos (by omega)]

/-- The accesses behind a check whose sum wraps. -/
theorem parseStop_wide {arguments : Arguments} {cursor : Nat} (hwide : 2 ^ 31 ≤ cursor + 3)
    (hcursor : cursor < 2 ^ 31) :
    parseStop runtime arguments cursor = (do
      let _ ← arguments.element cursor
      let waitFlag ← arguments.element (int (cursor + 1))
      let _ ← parseFlag runtime waitFlag
      .error .arrayIndexOutOfBounds) := by
  have hnegative : int ((cursor : Int) + 3) = cursor + 3 - 2 ^ 32 := int_wraps (by omega) (by omega)
  have hlast : arguments.element (int ((cursor : Int) + 2)) = .error .arrayIndexOutOfBounds := by
    have hrepresentable : arguments.length < 2 ^ 31 := arguments.representable
    by_cases hbelow : (cursor : Int) + 2 < 2 ^ 31
    · rw [int_eq_self (by omega) hbelow]
      exact element_beyond (by omega)
    · rw [int_wraps (by omega) (by omega)]
      unfold Arguments.element
      rw [if_pos (by omega)]
  unfold parseStop
  rw [hnegative, if_neg (by omega), hlast]
  rfl

theorem parseStop_negative (arguments : Arguments) {cursor : Int} (h : -2 ^ 31 ≤ cursor) (h' : cursor + 3 < 0) :
    parseStop runtime arguments cursor = .error .arrayIndexOutOfBounds := by
  have helement : arguments.element cursor = .error .arrayIndexOutOfBounds := by
    unfold Arguments.element
    rw [if_pos (by omega)]
  unfold parseStop
  rw [int_eq_self (i := cursor + 3) (by omega) (by omega), if_neg (by omega), helement, error_bind]

theorem parseStop_eq (runtime : Runtime) {arguments : Arguments} {before rest : List JString}
    (h : arguments.elements = before ++ rest) :
    parseStop runtime arguments before.length = stopOf runtime before.length rest := by
  have hlength : arguments.length = before.length + rest.length := by
    unfold Arguments.length
    rw [h, List.length_append]
  have hrepresentable : arguments.length < 2 ^ 31 := arguments.representable
  match rest, h, hlength with
  | [], h, hlength =>
    rw [List.length_nil] at hlength
    rw [stopOf, tooFew]
    split
    · rename_i hwide
      rw [parseStop_wide hwide (by omega), element_beyond (by omega)]
      rfl
    · unfold parseStop
      rw [int_eq_self (by omega) (by omega), if_pos (by omega)]
  | [stopClass], h, hlength =>
    rw [List.length_singleton] at hlength
    rw [stopOf, tooFew]
    split
    · rename_i hwide
      have hclass : arguments.element (before.length : Int) = .ok stopClass := element_append h (i := 0) rfl
      rw [parseStop_wide hwide (by omega), hclass, int_eq_self (by omega) (by omega), element_beyond (by omega)]
      rfl
    · unfold parseStop
      rw [int_eq_self (by omega) (by omega), if_pos (by omega)]
  | [stopClass, waitFlag], h, hlength =>
    rw [List.length_cons, List.length_singleton] at hlength
    rw [stopOf, tooFew]
    split
    · rename_i hwide
      have hclass : arguments.element (before.length : Int) = .ok stopClass := element_append h (i := 0) rfl
      have hflag : arguments.element ((before.length : Int) + 1) = .ok waitFlag := element_append h (i := 1) rfl
      rw [parseStop_wide hwide (by omega), hclass, int_eq_self (by omega) (by omega), hflag]
      rfl
    · unfold parseStop
      rw [int_eq_self (by omega) (by omega), if_pos (by omega)]
  | stopClass :: waitFlag :: stopCountText :: rest, h, hlength =>
    simp only [List.length_cons] at hlength
    have hcursor : int ((before.length : Int) + 3) = (before.length + 3 : Nat) := int_eq_self (by omega) (by omega)
    have hclass : arguments.element (before.length : Int) = .ok stopClass := element_append h (i := 0) rfl
    have hflag : arguments.element ((before.length : Int) + 1) = .ok waitFlag := element_append h (i := 1) rfl
    have hcount : arguments.element ((before.length : Int) + 2) = .ok stopCountText := element_append h (i := 2) rfl
    unfold parseStop
    rw [hcursor, if_neg (by omega), hclass, int_eq_self (i := (before.length : Int) + 1) (by omega) (by omega), hflag,
      int_eq_self (i := (before.length : Int) + 2) (by omega) (by omega), hcount, stopOf]
    rw [ok_bind, ok_bind]
    cases parseFlag runtime waitFlag with
    | error thrown => rw [error_bind, error_bind]
    | ok wait =>
      rw [ok_bind, ok_bind, ok_bind]
      cases hparse : parseCount runtime stopCountText "stop argument count" with
      | error thrown => rw [error_bind, error_bind]
      | ok count =>
        have hcount : count < 2 ^ 31 := parseCount_lt hparse
        have hsum : ((before.length + 3 : Nat) : Int) + count = (before.length + 3 + count : Nat) := rfl
        rw [ok_bind, ok_bind]
        dsimp only
        rw [hsum]
        by_cases hwraps : 2 ^ 31 ≤ before.length + 3 + count
        · have hint := int_wraps (i := (before.length + 3 + count : Nat)) (by omega) (by omega)
          rw [if_pos hwraps, if_neg (by omega),
            copyOfRange_wrapped runtime arguments (before.length + 3) count (by omega) hcount hwraps]
        · have hparts : arguments.elements = (before ++ [stopClass, waitFlag, stopCountText]) ++ rest := by simp [h]
          have hbefore : (before ++ [stopClass, waitFlag, stopCountText]).length = before.length + 3 := by simp
          rw [if_neg hwraps, int_eq_self (i := (before.length + 3 + count : Nat)) (by omega) (by omega)]
          by_cases hfewer : rest.length < count
          · rw [if_pos hfewer, if_pos (by omega)]
          · have hcopy := copyOfRange_append runtime hparts (Nat.not_lt.1 hfewer)
            rw [hbefore] at hcopy
            rw [if_neg hfewer, if_neg (by omega), ← hsum, hcopy]
            rfl

theorem parse_eq (arguments : Arguments) :
    Parameters.parse runtime arguments = parametersOf runtime arguments.elements := by
  have hrepresentable : arguments.length < 2 ^ 31 := arguments.representable
  unfold Parameters.parse
  match helements : arguments.elements with
  | [] =>
    have hlength : arguments.length = 0 := by rw [Arguments.length, helements]; rfl
    rw [if_pos (by omega)]
    rfl
  | [_] =>
    have hlength : arguments.length = 1 := by rw [Arguments.length, helements]; rfl
    rw [if_pos (by omega)]
    rfl
  | startClass :: startCountText :: rest =>
    have hlength : arguments.length = rest.length + 2 := by rw [Arguments.length, helements]; rfl
    have helements : arguments.elements = [startClass, startCountText] ++ rest := helements
    have hall : arguments.elements = [] ++ startClass :: startCountText :: rest := helements
    have hclass : arguments.element 0 = .ok startClass := element_append hall (i := 0) rfl
    have hcount : arguments.element 1 = .ok startCountText := element_append hall (i := 1) rfl
    rw [if_neg (by omega), hclass, hcount, parametersOf, ok_bind, ok_bind]
    cases hparse : parseCount runtime startCountText "start argument count" with
    | error thrown => rw [error_bind, error_bind]
    | ok count =>
      have hcount : count < 2 ^ 31 := parseCount_lt hparse
      have hsum : (2 : Int) + count = (2 + count : Nat) := rfl
      rw [ok_bind, ok_bind]
      dsimp only
      rw [hsum]
      by_cases hwraps : 2 ^ 31 ≤ 2 + count
      · have hint := int_wraps (i := (2 + count : Nat)) (by omega) (by omega)
        have hcopy : copyOfRange runtime arguments 2 (int (2 + count : Nat)) =
            runtime.reversedCopy 2 (int (2 + count : Nat)) :=
          copyOfRange_wrapped runtime arguments 2 count (by decide) hcount hwraps
        rw [if_pos hwraps, if_neg (by omega), hcopy, parseStop_negative arguments (by omega) (by omega)]
        cases runtime.reversedCopy 2 (int (2 + count : Nat)) with
        | error thrown => rfl
        | ok copied => rfl
      · rw [if_neg hwraps, int_eq_self (i := (2 + count : Nat)) (by omega) (by omega)]
        by_cases hfewer : rest.length < count
        · rw [if_pos hfewer, if_pos (by omega)]
        · have hcopy := copyOfRange_append runtime helements (Nat.not_lt.1 hfewer)
          have hsplit : arguments.elements = (startClass :: startCountText :: rest.take count) ++ rest.drop count := by
            rw [List.cons_append, List.cons_append, List.take_append_drop]
            exact helements
          have hbefore : (startClass :: startCountText :: rest.take count).length = 2 + count := by
            simp
            omega
          have hstop := parseStop_eq runtime hsplit
          rw [hbefore] at hstop
          have hcopy : copyOfRange runtime arguments 2 (2 + count : Nat) = .ok ((rest.take count).map some) := hcopy
          rw [if_neg hfewer, if_neg (by omega), hcopy, hstop]
          rfl

/-! ## What is parsed -/

def Refused {α : Type} (result : Except Thrown α) : Prop := ∃ message, result = .error (.illegalArgument message)

/-- Parameters that some arguments begin with, laid out with texts for the counts and the flag. -/
structure LaidOut (runtime : Runtime) (parameters : Parameters) (elements : List JString) : Prop where
  layout : ∃ startCount startArguments waitFlag stopCount stopArguments rest,
    elements = parameters.startClass :: startCount :: (startArguments ++
      parameters.stopClass :: waitFlag :: stopCount :: (stopArguments ++ rest)) ∧
    parameters.startArguments = startArguments.map some ∧ parameters.stopArguments = stopArguments.map some ∧
    countOf runtime startCount = some startArguments.length ∧
    flagOf runtime waitFlag = some parameters.waitForStopThreads ∧
    countOf runtime stopCount = some stopArguments.length

/-- Arguments are refused with an `IllegalArgumentException`, or the parameters are what they begin with. -/
def ParsesOrRefuses (runtime : Runtime) (arguments : Arguments) : Prop :=
  Refused (Parameters.parse runtime arguments) ∨
    ∃ parameters, Parameters.parse runtime arguments = .ok parameters ∧ LaidOut runtime parameters arguments.elements

/-- No sum of the cursor wraps unseen: where the end of a range does, the copy is refused as documented, and where the
check for the stop class lets too few arguments pass, the flag is none. -/
structure SumsFit (runtime : Runtime) (elements : List JString) : Prop where
  start : ∀ startClass startCount rest count, elements = startClass :: startCount :: rest →
    countOf runtime startCount = some count → 2 ^ 31 ≤ 2 + count →
    Refused (runtime.reversedCopy 2 (int (2 + count : Nat)))
  middle : ∀ startClass startCount startArguments rest,
    elements = startClass :: startCount :: (startArguments ++ rest) →
    countOf runtime startCount = some startArguments.length → 2 ^ 31 ≤ 2 + startArguments.length + 3 →
    ∃ stopClass waitFlag, rest = [stopClass, waitFlag] ∧ flagOf runtime waitFlag = none
  stop : ∀ startClass startCount startArguments stopClass waitFlag stopCount rest wait count,
    elements = startClass :: startCount :: (startArguments ++ stopClass :: waitFlag :: stopCount :: rest) →
    countOf runtime startCount = some startArguments.length → flagOf runtime waitFlag = some wait →
    countOf runtime stopCount = some count → 2 ^ 31 ≤ 2 + startArguments.length + 3 + count →
    Refused (runtime.reversedCopy (2 + startArguments.length + 3 : Nat)
      (int (2 + startArguments.length + 3 + count : Nat)))

theorem parseCount_of_some {value : JString} {what : Text} {count : Nat} (h : countOf runtime value = some count) :
    parseCount runtime value what = .ok count := by
  unfold parseCount
  rw [h]

theorem parseCount_of_none {value : JString} (what : Text) (h : countOf runtime value = none) :
    Refused (parseCount runtime value what) := by
  unfold parseCount
  rw [h]
  exact ⟨_, rfl⟩

theorem parseFlag_of_some {value : JString} {wait : Bool} (h : flagOf runtime value = some wait) :
    parseFlag runtime value = .ok wait := by
  unfold parseFlag
  rw [h]

theorem parseFlag_of_none {value : JString} (h : flagOf runtime value = none) : Refused (parseFlag runtime value) := by
  unfold parseFlag
  rw [h]
  exact ⟨_, rfl⟩

theorem Refused.bind {α β : Type} {result : Except Thrown α} (h : Refused result) (f : α → Except Thrown β) :
    Refused (result >>= f) := by
  obtain ⟨message, rfl⟩ := h
  exact ⟨message, rfl⟩

theorem not_refused_beyond {α : Type} : ¬ Refused (.error .arrayIndexOutOfBounds : Except Thrown α) := by
  rintro ⟨message, h⟩
  cases h

theorem not_refused_ok {α : Type} (a : α) : ¬ Refused (.ok a : Except Thrown α) := by
  rintro ⟨message, h⟩
  cases h

/-- The parameters with what is behind the start arguments. -/
def Parameters.of (startClass : JString) (startArguments : List JString)
    (stop : JString × Bool × List (Option JString)) : Parameters :=
  ⟨startClass, startArguments.map some, stop.1, stop.2.1, stop.2.2⟩

theorem parametersOf_wrapped (startClass : JString) {startCount : JString} (rest : List JString) {count : Nat}
    (hcount : countOf runtime startCount = some count) (hwraps : 2 ^ 31 ≤ 2 + count) :
    parametersOf runtime (startClass :: startCount :: rest) =
      (runtime.reversedCopy 2 (int (2 + count : Nat))).bind (fun _ => .error .arrayIndexOutOfBounds) := by
  rw [parametersOf, parseCount_of_some hcount, ok_bind, if_pos hwraps]
  rfl

theorem parametersOf_append (startClass : JString) {startCount : JString} (startArguments rest : List JString)
    (hcount : countOf runtime startCount = some startArguments.length) (hfits : ¬ 2 ^ 31 ≤ 2 + startArguments.length) :
    parametersOf runtime (startClass :: startCount :: (startArguments ++ rest)) =
      stopOf runtime (2 + startArguments.length) rest >>= fun stop => .ok (.of startClass startArguments stop) := by
  rw [parametersOf, parseCount_of_some hcount, ok_bind, if_neg hfits, if_neg (by simp), List.drop_left, List.take_left]
  rfl

theorem stopOf_full (cursor : Nat) (stopClass : JString) {waitFlag stopCount : JString} (rest : List JString)
    {wait : Bool}
    {count : Nat} (hflag : flagOf runtime waitFlag = some wait) (hcount : countOf runtime stopCount = some count) :
    stopOf runtime cursor (stopClass :: waitFlag :: stopCount :: rest) =
      if 2 ^ 31 ≤ cursor + 3 + count then
        runtime.reversedCopy (cursor + 3 : Nat) (int (cursor + 3 + count : Nat)) >>= fun copied =>
          .ok (stopClass, wait, copied)
      else if rest.length < count then .error (illegalArgument "fewer stop arguments than declared" [])
      else .ok (stopClass, wait, (rest.take count).map some) := by
  rw [stopOf, parseFlag_of_some hflag, ok_bind, parseCount_of_some hcount, ok_bind]
  rfl

theorem refused_tooFew {α : Type} {cursor : Nat} {unchecked : Except Thrown α}
    (h : 2 ^ 31 ≤ cursor + 3 → Refused unchecked) : Refused (tooFew cursor unchecked) := by
  unfold tooFew
  by_cases hwide : 2 ^ 31 ≤ cursor + 3
  · rw [if_pos hwide]
    exact h hwide
  · rw [if_neg hwide]
    exact ⟨_, rfl⟩

/-- What is behind the start arguments is refused, or laid out. -/
theorem stopOf_fits {cursor : Nat} {rest : List JString}
    (hmiddle : 2 ^ 31 ≤ cursor + 3 →
      ∃ stopClass waitFlag, rest = [stopClass, waitFlag] ∧ flagOf runtime waitFlag = none)
    (hstop : ∀ stopClass waitFlag stopCount rest' wait count, rest = stopClass :: waitFlag :: stopCount :: rest' →
      flagOf runtime waitFlag = some wait → countOf runtime stopCount = some count → 2 ^ 31 ≤ cursor + 3 + count →
      Refused (runtime.reversedCopy (cursor + 3 : Nat) (int (cursor + 3 + count : Nat)))) :
    Refused (stopOf runtime cursor rest) ∨
      ∃ stopClass waitFlag stopCount stopArguments behind wait,
        rest = stopClass :: waitFlag :: stopCount :: (stopArguments ++ behind) ∧
        flagOf runtime waitFlag = some wait ∧ countOf runtime stopCount = some stopArguments.length ∧
        stopOf runtime cursor rest = .ok (stopClass, wait, stopArguments.map some) := by
  match rest with
  | [] =>
    refine .inl (refused_tooFew fun hwide => ?_)
    obtain ⟨_, _, heq, -⟩ := hmiddle hwide
    cases heq
  | [_] =>
    refine .inl (refused_tooFew fun hwide => ?_)
    obtain ⟨_, _, heq, -⟩ := hmiddle hwide
    cases heq
  | [_, waitFlag] =>
    refine .inl (refused_tooFew fun hwide => ?_)
    obtain ⟨_, _, heq, hflag⟩ := hmiddle hwide
    cases heq
    exact (parseFlag_of_none hflag).bind _
  | stopClass :: waitFlag :: stopCount :: rest =>
    cases hflag : flagOf runtime waitFlag with
    | none => exact .inl ((parseFlag_of_none hflag).bind _)
    | some wait =>
      cases hcount : countOf runtime stopCount with
      | none =>
        rw [stopOf, parseFlag_of_some hflag, ok_bind]
        exact .inl ((parseCount_of_none _ hcount).bind _)
      | some count =>
        rw [stopOf_full cursor stopClass rest hflag hcount]
        by_cases hwraps : 2 ^ 31 ≤ cursor + 3 + count
        · rw [if_pos hwraps]
          exact .inl ((hstop _ _ _ _ _ _ rfl hflag hcount hwraps).bind _)
        · rw [if_neg hwraps]
          by_cases hfewer : rest.length < count
          · rw [if_pos hfewer]
            exact .inl ⟨_, rfl⟩
          · have hlength : (rest.take count).length = count := List.length_take_of_le (Nat.not_lt.1 hfewer)
            rw [if_neg hfewer]
            refine .inr ⟨stopClass, waitFlag, stopCount, rest.take count, rest.drop count, wait, ?_, hflag, ?_, rfl⟩
            · rw [List.take_append_drop]
            · rw [hlength]
              exact hcount

theorem parses_of_sumsFit {arguments : Arguments} (h : SumsFit runtime arguments.elements) :
    ParsesOrRefuses runtime arguments := by
  unfold ParsesOrRefuses
  rw [parse_eq]
  generalize arguments.elements = elements at h
  match elements with
  | [] => exact .inl ⟨_, rfl⟩
  | [_] => exact .inl ⟨_, rfl⟩
  | startClass :: startCount :: rest =>
    cases hcount : countOf runtime startCount with
    | none => exact .inl ((parseCount_of_none _ hcount).bind _)
    | some count =>
      by_cases hwraps : 2 ^ 31 ≤ 2 + count
      · rw [parametersOf_wrapped startClass rest hcount hwraps]
        exact .inl ((h.start _ _ _ _ rfl hcount hwraps).bind _)
      · by_cases hfewer : rest.length < count
        · rw [parametersOf, parseCount_of_some hcount, ok_bind, if_neg hwraps, if_pos hfewer]
          exact .inl ⟨_, rfl⟩
        · obtain ⟨startArguments, behind, rfl, hlength⟩ : ∃ startArguments behind, rest = startArguments ++ behind ∧
              startArguments.length = count :=
            ⟨rest.take count, rest.drop count, (List.take_append_drop _ _).symm,
              List.length_take_of_le (Nat.not_lt.1 hfewer)⟩
          subst hlength
          rw [parametersOf_append startClass startArguments behind hcount hwraps]
          have hfits := stopOf_fits
            (h.middle _ _ _ _ rfl hcount)
            (fun stopClass waitFlag stopCount rest' wait count hrest hflag hstop hwide =>
              h.stop _ _ _ _ _ _ _ _ _ (by rw [hrest]) hcount hflag hstop hwide)
          rcases hfits with
            hrefused | ⟨stopClass, waitFlag, stopCount, stopArguments, rest', wait, hrest, hflag, hstop, hresult⟩
          · exact .inl (hrefused.bind _)
          · rw [hresult, hrest]
            exact .inr ⟨_, rfl, startCount, startArguments, waitFlag, stopCount, stopArguments, rest', rfl, rfl, rfl,
              hcount, hflag, hstop⟩

/-- The counts of a layout tell where its parts are. -/
theorem LaidOut.stopArguments_le {parameters : Parameters} {elements : List JString}
    (h : LaidOut runtime parameters elements) {startClass startCount stopClass waitFlag stopCount : JString}
    {startArguments rest : List JString} {count : Nat}
    (helements : elements = startClass :: startCount :: (startArguments ++ stopClass :: waitFlag :: stopCount :: rest))
    (hstart : countOf runtime startCount = some startArguments.length)
    (hstop : countOf runtime stopCount = some count) : 2 + startArguments.length + 3 + count ≤ elements.length := by
  obtain ⟨startCount', startArguments', waitFlag', stopCount', stopArguments', rest', hlayout, -, -, hstart', -,
    hstop'⟩ :=
    h.layout
  have hsame := helements.symm.trans hlayout
  obtain ⟨-, hsame⟩ := List.cons.inj hsame
  obtain ⟨hstartCount, hsame⟩ := List.cons.inj hsame
  rw [← hstartCount, hstart] at hstart'
  obtain ⟨-, hsame⟩ := List.append_inj hsame (Option.some.inj hstart')
  obtain ⟨-, hsame⟩ := List.cons.inj hsame
  obtain ⟨-, hsame⟩ := List.cons.inj hsame
  obtain ⟨hstopCount, hrest⟩ := List.cons.inj hsame
  rw [← hstopCount, hstop] at hstop'
  have hcount : count = stopArguments'.length := Option.some.inj hstop'
  rw [helements, hrest, hcount]
  simp only [List.length_cons, List.length_append]
  omega

theorem refused_of_bind {α β : Type} {result : Except Thrown α}
    (h : Refused (result.bind (fun _ => .error .arrayIndexOutOfBounds : α → Except Thrown β))) : Refused result := by
  cases result with
  | error thrown =>
    obtain ⟨message, hmessage⟩ := h
    cases hmessage
    exact ⟨message, rfl⟩
  | ok a => exact absurd h not_refused_beyond

theorem sumsFit_of_parses {arguments : Arguments} (h : ParsesOrRefuses runtime arguments) :
    SumsFit runtime arguments.elements := by
  have hrepresentable := arguments.representable
  unfold ParsesOrRefuses at h
  rw [parse_eq] at h
  generalize arguments.elements = elements at h hrepresentable
  constructor
  · rintro startClass startCount rest count rfl hcount hwraps
    rw [parametersOf_wrapped startClass rest hcount hwraps] at h
    rcases h with hrefused | ⟨parameters, hresult, -⟩
    · exact refused_of_bind hrefused
    · cases hcopy : runtime.reversedCopy 2 (int (2 + count : Nat)) with
      | error thrown => rw [hcopy] at hresult; cases hresult
      | ok copied => rw [hcopy] at hresult; cases hresult
  · rintro startClass startCount startArguments rest rfl hcount hwide
    simp only [List.length_cons, List.length_append] at hrepresentable
    rw [parametersOf_append startClass startArguments rest hcount (by omega)] at h
    have hcheck : ∀ unchecked : Except Thrown (JString × Bool × List (Option JString)),
        tooFew (2 + startArguments.length) unchecked = unchecked := fun _ => if_pos hwide
    match rest with
    | [] =>
      rw [stopOf, hcheck] at h
      rcases h with hrefused | ⟨parameters, hresult, -⟩
      · exact absurd hrefused not_refused_beyond
      · cases hresult
    | [_] =>
      rw [stopOf, hcheck] at h
      rcases h with hrefused | ⟨parameters, hresult, -⟩
      · exact absurd hrefused not_refused_beyond
      · cases hresult
    | [stopClass, waitFlag] =>
      refine ⟨stopClass, waitFlag, rfl, ?_⟩
      cases hflag : flagOf runtime waitFlag with
      | none => rfl
      | some wait =>
        rw [stopOf, hcheck, parseFlag_of_some hflag] at h
        rcases h with hrefused | ⟨parameters, hresult, -⟩
        · exact absurd hrefused not_refused_beyond
        · cases hresult
    | _ :: _ :: _ :: _ =>
      simp only [List.length_cons] at hrepresentable
      omega
  · rintro startClass startCount startArguments stopClass waitFlag stopCount rest wait count helements hstart hflag
      hstop hwraps
    have hlength := congrArg List.length helements
    simp only [List.length_cons, List.length_append] at hlength
    have hresult : parametersOf runtime elements =
        runtime.reversedCopy (2 + startArguments.length + 3 : Nat)
            (int (2 + startArguments.length + 3 + count : Nat)) >>=
          fun copied => .ok (.of startClass startArguments (stopClass, wait, copied)) := by
      rw [helements, parametersOf_append startClass startArguments _ hstart (by omega),
        stopOf_full _ stopClass rest hflag hstop, if_pos hwraps]
      cases runtime.reversedCopy (2 + startArguments.length + 3 : Nat)
        (int (2 + startArguments.length + 3 + count : Nat)) with
      | error thrown => rfl
      | ok copied => rfl
    rw [hresult] at h
    generalize runtime.reversedCopy (2 + startArguments.length + 3 : Nat)
      (int (2 + startArguments.length + 3 + count : Nat)) = copy at h
    cases copy with
    | error thrown =>
      rcases h with ⟨message, hmessage⟩ | ⟨parameters, hparsed, -⟩
      · cases hmessage
        exact ⟨message, rfl⟩
      · cases hparsed
    | ok copied =>
      rcases h with hrefused | ⟨parameters, -, hlaid⟩
      · exact absurd hrefused (not_refused_ok _)
      · have hle := hlaid.stopArguments_le helements hstart hstop
        omega

/-! ## The round trip -/

/-- A decimal digit as one code unit. -/
theorem toNat_digit {c : Char} (h : c.isDigit = true) :
    (UInt16.ofNat c.toNat).toNat = c.toNat ∧ 48 ≤ c.toNat ∧ c.toNat ≤ 57 := by
  have hrange : 48 ≤ c.toNat ∧ c.toNat ≤ 57 := Char.isDigit_iff_toNat.1 h
  refine ⟨?_, hrange⟩
  rw [UInt16.toNat_ofNat']
  exact Nat.mod_eq_of_lt (by omega)

theorem digit_of_isDigit (runtime : Runtime) {c : Char} (h : c.isDigit = true) :
    digit runtime (UInt16.ofNat c.toNat) = some (c.toNat - '0'.toNat) := by
  obtain ⟨hunit, hlow, hhigh⟩ := toNat_digit h
  have hascii : UInt16.ofNat c.toNat < 0x80 := by
    rw [UInt16.lt_iff_toNat_lt, hunit]
    exact Nat.lt_of_le_of_lt hhigh (by decide)
  have hdigit : 0x30 ≤ UInt16.ofNat c.toNat ∧ UInt16.ofNat c.toNat ≤ 0x39 := by
    rw [UInt16.le_iff_toNat_le, UInt16.le_iff_toNat_le, hunit]
    exact ⟨hlow, hhigh⟩
  unfold digit
  rw [if_pos hascii, if_pos hdigit, hunit]
  rfl

theorem foldlM_digits (runtime : Runtime) : ∀ {t : Text}, (∀ c ∈ t, c.isDigit = true) → ∀ n : Nat,
    (JString.ofText t).foldlM (fun n c => (digit runtime c).map (10 * n + ·)) n =
      some (t.foldl (fun n c => 10 * n + (c.toNat - '0'.toNat)) n)
  | [], _, n => rfl
  | c :: t, h, n => by
    have hparts : JString.ofText (c :: t) = UInt16.ofNat c.toNat :: JString.ofText t := rfl
    rw [hparts, List.foldlM_cons, digit_of_isDigit runtime (h c (by simp)), List.foldl_cons]
    exact foldlM_digits runtime (fun c hc => h c (List.mem_cons_of_mem _ hc)) _

theorem isDigit_ofNat (n : Nat) : ∀ c ∈ Text.ofNat n, c.isDigit = true :=
  fun _ hc => Nat.isDigit_of_mem_toDigits (by decide) (by decide) hc

theorem magnitude_printed (runtime : Runtime) (n : Nat) :
    magnitude runtime (JString.ofText (Text.ofNat n)) = some n := by
  have hvalue := Text.digits_ofNat n
  have hne : Text.ofNat n ≠ [] := Nat.toDigits_ne_nil
  have hall := isDigit_ofNat n
  generalize Text.ofNat n = t at hvalue hne hall
  cases t with
  | nil => exact absurd rfl hne
  | cons c t =>
    have hdigits := foldlM_digits runtime hall 0
    have hvalue : (if (c :: t).all Char.isDigit then
        some ((c :: t).foldl (fun n c => 10 * n + (c.toNat - '0'.toNat)) 0) else none) = some n := hvalue
    rw [if_pos (List.all_eq_true.2 hall)] at hvalue
    rw [hvalue] at hdigits
    exact hdigits

theorem trim_of_visible {t : JString} (h : ∀ c ∈ t, ¬ c ≤ 0x20) : trim t = t := by
  have hkeep : ∀ u : JString, (∀ c ∈ u, ¬ c ≤ 0x20) → u.dropWhile (· ≤ 0x20) = u := by
    intro u hu
    cases u with
    | nil => rfl
    | cons c u => exact List.dropWhile_cons_of_neg (by simpa using hu c (by simp))
  unfold trim
  rw [hkeep t h, hkeep t.reverse (fun c hc => h c (List.mem_reverse.1 hc)), List.reverse_reverse]

theorem countOf_printed (runtime : Runtime) {n : Nat} (h : n < 2 ^ 31) :
    countOf runtime (JString.ofText (Text.ofNat n)) = some n := by
  have hunits : ∀ u ∈ JString.ofText (Text.ofNat n), 48 ≤ u.toNat := by
    intro u hu
    obtain ⟨c, hc, rfl⟩ := List.mem_map.1 hu
    obtain ⟨hunit, hlow, -⟩ := toNat_digit (isDigit_ofNat n c hc)
    omega
  have hhead : ∀ sign : UInt16, sign.toNat < 48 → (JString.ofText (Text.ofNat n)).head? ≠ some sign := by
    intro sign hsign heq
    have hle := hunits sign (List.mem_of_mem_head? heq)
    omega
  have htrim : trim (JString.ofText (Text.ofNat n)) = JString.ofText (Text.ofNat n) := by
    apply trim_of_visible
    intro u hu hspace
    have hle := hunits u hu
    rw [UInt16.le_iff_toNat_le] at hspace
    have hspace : u.toNat ≤ 32 := hspace
    omega
  have hparse : parseInt runtime (JString.ofText (Text.ofNat n)) = some n := by
    unfold parseInt
    rw [if_neg (hhead _ (by decide)), if_neg (hhead _ (by decide)), magnitude_printed]
    rw [Option.filter_some, if_pos (by simpa using h)]
    rfl
  unfold countOf
  rw [htrim, hparse]
  simp

/-- The arguments that parameters are written as. -/
def flatten (startClass : JString) (startArguments : List JString) (stopClass : JString) (wait : Bool)
    (stopArguments : List JString) : List JString :=
  startClass :: JString.ofText (Text.ofNat startArguments.length) :: (startArguments ++
    stopClass :: JString.ofText (if wait then "true" else "false") ::
      JString.ofText (Text.ofNat stopArguments.length) :: stopArguments)

theorem flagOf_printed (runtime : Runtime) (wait : Bool) :
    flagOf runtime (JString.ofText (if wait then "true" else "false")) = some wait := by
  cases wait with
  | true => rfl
  | false => rfl

/-- **What is written is read back**, whatever the arguments look like. -/
theorem parametersOf_flatten (runtime : Runtime) (startClass : JString) (startArguments : List JString)
    (stopClass : JString) (wait : Bool) (stopArguments : List JString)
    (h : (flatten startClass startArguments stopClass wait stopArguments).length < 2 ^ 31) :
    parametersOf runtime (flatten startClass startArguments stopClass wait stopArguments) =
      .ok ⟨startClass, startArguments.map some, stopClass, wait, stopArguments.map some⟩ := by
  have hlength : 2 + startArguments.length + 3 + stopArguments.length < 2 ^ 31 := by
    unfold flatten at h
    simp only [List.length_cons, List.length_append] at h
    omega
  unfold flatten
  rw [parametersOf_append _ _ _ (countOf_printed runtime (by omega)) (by omega),
    stopOf_full _ _ _ (flagOf_printed runtime wait) (countOf_printed runtime (by omega)), if_neg (by omega),
    if_neg (Nat.lt_irrefl _), List.take_length]
  rfl

/-! ## The claim about the parser -/

/-- **Every array is parsed or refused exactly if no sum wraps unseen**, and what parameters are written as is always
read back. -/
theorem parse_exact (runtime : Runtime) :
    (∀ arguments, ParsesOrRefuses runtime arguments ↔ SumsFit runtime arguments.elements) ∧
      ∀ startClass startArguments stopClass wait stopArguments,
        ∀ h : (flatten startClass startArguments stopClass wait stopArguments).length < 2 ^ 31,
          Parameters.parse runtime ⟨flatten startClass startArguments stopClass wait stopArguments, h⟩ =
            .ok ⟨startClass, startArguments.map some, stopClass, wait, stopArguments.map some⟩ := by
  constructor
  · exact fun arguments => ⟨sumsFit_of_parses, parses_of_sumsFit⟩
  · intro startClass startArguments stopClass wait stopArguments h
    rw [parse_eq]
    exact parametersOf_flatten runtime startClass startArguments stopClass wait stopArguments h

/-- A runtime that knows ASCII only and copies ranges as documented. -/
def documented : Runtime where
  digits _ := none
  upperCase c := c
  lowerCase c := c
  reversedCopy start stop :=
    .error (.illegalArgument (JString.ofText (Text.ofInt start ++ " > ".toList ++ Text.ofInt stop)))

/-- OpenJDK measures a range by the difference of its ends, which wraps, and an array of that size is beyond its
limit. -/
def openJdk : Runtime :=
  { documented with
    reversedCopy := fun start stop =>
      if int (stop - start) < 0 then documented.reversedCopy start stop else .error .outOfMemory }

/-- An array of empty start arguments and nothing behind them. -/
def crowded (count : Nat) (h : count + 2 < 2 ^ 31) : Arguments where
  elements := JString.ofText "A" :: JString.ofText (Text.ofNat count) :: List.replicate count []
  representable := by
    rw [List.length_cons, List.length_cons, List.length_replicate]
    exact h

/-- From the count on at which the check for the stop class wraps, the array is read beyond its end. -/
theorem parse_crowded (runtime : Runtime) {count : Nat} (h : count + 2 < 2 ^ 31) (hwide : 2 ^ 31 ≤ count + 5) :
    Parameters.parse runtime (crowded count h) = .error .arrayIndexOutOfBounds := by
  have hcount : countOf runtime (JString.ofText (Text.ofNat count)) =
      some (List.replicate count ([] : JString)).length := by
    rw [List.length_replicate]
    exact countOf_printed runtime (by omega)
  have helements : (crowded count h).elements = JString.ofText "A" :: JString.ofText (Text.ofNat count) ::
      (List.replicate count [] ++ []) := by
    rw [List.append_nil]
    rfl
  rw [parse_eq, helements, parametersOf_append _ _ _ hcount (by rw [List.length_replicate]; omega), stopOf, tooFew,
    List.length_replicate, if_pos (by omega), error_bind]

theorem not_parses_of_error {arguments : Arguments} {thrown : Thrown}
    (h : Parameters.parse runtime arguments = .error thrown) (hthrown : ∀ message, thrown ≠ .illegalArgument message) :
    ¬ ParsesOrRefuses runtime arguments := by
  rintro (⟨message, hrefused⟩ | ⟨parameters, hok, -⟩)
  · rw [h] at hrefused
    exact hthrown message (Except.error.inj hrefused)
  · rw [h] at hok
    cases hok

/-- A count is answered with an error on OpenJDK, and an array is read beyond its end on any runtime. -/
theorem counts_overrun_the_array :
    ¬ ParsesOrRefuses openJdk ⟨[JString.ofText "A", JString.ofText "2147483647"], by decide⟩ ∧
      ¬ ParsesOrRefuses documented (crowded 2147483643 (by decide)) := by
  constructor
  · have hcount : countOf openJdk (JString.ofText "2147483647") = some 2147483647 := by decide +kernel
    have hparse : Parameters.parse openJdk ⟨[JString.ofText "A", JString.ofText "2147483647"], by decide⟩ =
        .error .outOfMemory := by
      rw [parse_eq, parametersOf_wrapped _ _ hcount (by decide)]
      rfl
    exact not_parses_of_error hparse (by intro message h; cases h)
  · exact not_parses_of_error (parse_crowded documented _ (by decide)) (by intro message h; cases h)

end StartStopApp
end Jss
