import Mathlib
import ServiceSteward.BridgeReader
import ServiceSteward.PingLimits
/-!
# ControlLoop — the control loop of the bridge and the clock it reads

The loop keeps the reading of a clock at the last packet and, at a read timeout, compares it with the reading then.  It
is written here over any clock.  The code reads the wall clock; `monotonicClock` is the one that its documentation names.
Which read timeouts the loop comes to does not depend on the clock (`askings`), so what the two clocks decide can be
compared one timeout at a time.
-/
namespace Jss
namespace BackendClient

/-- A clock that is read at monotonic instants, in milliseconds, and whether more time than a limit has passed from the
second reading to the first. -/
structure Clock (τ : Type) where
  read : Nat → τ
  exceeds : τ → τ → Int → Bool

/-- `System.currentTimeMillis`: any readings, and the wrapping difference of two. -/
def wallClock (readings : Nat → Int64) : Clock Int64 where
  read := readings
  exceeds now last limit := limit < (now - last).toInt

def monotonicClock : Clock Nat where
  read := id
  exceeds now last limit := limit < (now : Int) - last

/-- What is outside the loop: the digits of the Java runtime, what the n-th call of the handler or of the socket throws,
and whether the JVM is shutting down at an instant. -/
structure World where
  digits : Char → Option Nat := fun _ => none
  throws : Nat → Packet → Option Text := fun _ _ => none
  jvmShuttingDown : Nat → Bool := fun _ => false

/-- The fields of `BackendClient` that the loop uses, and how often it has called outside. -/
structure ControlLoop (τ : Type) where
  reader : Reader := {}
  properties : BTreeMap Text Text := .empty
  lastWrapperPacket : τ
  wrapperRequestedStop : Bool := false
  calls : Nat := 0

inductive LoopEnd where
  /-- The loop ends because the wrapper has asked for a stop. -/
  | stopped
  | shuttingDown
  | missingPacket (instant : Nat) (message : Text)
  | failed (message : Text)
  | blocked
  | outOfFuel
  deriving DecidableEq, Repr

/-- The exception for a missing packet ends the JVM. -/
def LoopEnd.terminated : LoopEnd → Bool
  | .missingPacket _ _ => true
  | _ => false

variable {τ : Type}

def ControlLoop.call (w : World) (s : ControlLoop τ) (p : Packet) : Except Text (ControlLoop τ) :=
  match w.throws s.calls p with
  | none => .ok { s with calls := s.calls + 1 }
  | some message => .error message

def rejectedKey : Text := "the wrapper rejected the control channel key".toList

open Protocol in
def handle (w : World) (s : ControlLoop τ) (p : Packet) : Except Text (ControlLoop τ) :=
  if p.code = START.toNat then s.call w p
  else if p.code = STOP.toNat then ({ s with wrapperRequestedStop := true } : ControlLoop τ).call w p
  else if p.code = PING.toNat then s.call w p
  else if p.code = PROPERTIES.toNat then .ok { s with properties := loadProperties p.message }
  else if p.code = PAUSE.toNat then s.call w p
  else if p.code = RESUME.toNat then s.call w p
  else if p.code = SERVICE_CONTROL.toNat then s.call w p
  else if p.code = BAD_KEY.toNat then .error rejectedKey
  else .ok s

/-- `pingTimeoutMillis` of the properties received last. -/
def ControlLoop.limit (w : World) (s : ControlLoop τ) : Int := pingTimeoutMillis w.digits s.properties

def pingTimedOut (w : World) (c : Clock τ) (s : ControlLoop τ) (now : Nat) : Bool :=
  0 < s.limit w && c.exceeds (c.read now) s.lastWrapperPacket (s.limit w)

def missingPacket (limit : Int) : Text :=
  "no packet from the wrapper for ".toList ++ Text.ofNat (limit / 1000).toNat ++ " seconds".toList

def controlLoop (w : World) (c : Clock τ) : Nat → ControlLoop τ → List (Nat × ReadEvent) → LoopEnd
  | 0, _, _ => .outOfFuel
  | n + 1, s, input =>
    if s.wrapperRequestedStop then .stopped
    else
      match readPacket s.reader input with
      | (.timedOut now, reader, rest) =>
        if s.wrapperRequestedStop || w.jvmShuttingDown now then .shuttingDown
        else if pingTimedOut w c s now then .missingPacket now (missingPacket (s.limit w))
        else controlLoop w c n { s with reader := reader } rest
      | (.packet now p, reader, rest) =>
        match handle w { s with reader := reader, lastWrapperPacket := c.read now } p with
        | .ok s' => controlLoop w c n s' rest
        | .error message => .failed message
      | (.failed message, _, _) => .failed message
      | (.blocked, _, _) => .blocked

/-- The loop of a client made at an instant. -/
def runLoop (w : World) (c : Clock τ) (start : Nat) (input : List (Nat × ReadEvent)) : LoopEnd :=
  controlLoop w c (input.length + 1) { lastWrapperPacket := c.read start } input

/-! ## The read timeouts that the loop comes to -/

/-- A read timeout: the instant of the last packet, its own instant, and the limit. -/
structure Asking where
  last : Nat
  now : Nat
  limit : Int
  deriving DecidableEq, Repr

/-- Whether the watchdog is on and, by a clock, more time than the limit has passed. -/
def Asking.exceeds (c : Clock τ) (a : Asking) : Bool := 0 < a.limit && c.exceeds (c.read a.now) (c.read a.last) a.limit

/-- The timeouts at which the loop looks at the clock, as long as no packet is found missing. -/
def askings (w : World) : Nat → ControlLoop Nat → List (Nat × ReadEvent) → List Asking
  | 0, _, _ => []
  | n + 1, s, input =>
    if s.wrapperRequestedStop then []
    else
      match readPacket s.reader input with
      | (.timedOut now, reader, rest) =>
        if s.wrapperRequestedStop || w.jvmShuttingDown now then []
        else ⟨s.lastWrapperPacket, now, s.limit w⟩ :: askings w n { s with reader := reader } rest
      | (.packet now p, reader, rest) =>
        match handle w { s with reader := reader, lastWrapperPacket := now } p with
        | .ok s' => askings w n s' rest
        | .error _ => []
      | _ => []

def runAskings (w : World) (start : Nat) (input : List (Nat × ReadEvent)) : List Asking :=
  askings w (input.length + 1) { lastWrapperPacket := start } input

/-- The loop that keeps readings of a clock in place of instants. -/
def ControlLoop.reading (c : Clock τ) (s : ControlLoop Nat) : ControlLoop τ :=
  { s with lastWrapperPacket := c.read s.lastWrapperPacket }

theorem call_reading (w : World) (c : Clock τ) (s : ControlLoop Nat) (p : Packet) :
    (s.reading c).call w p = (s.call w p).map (·.reading c) := by
  unfold ControlLoop.call
  have hcalls : (s.reading c).calls = s.calls := rfl
  rw [hcalls]
  cases w.throws s.calls p with
  | none => rfl
  | some message => rfl

/-- A packet is handled without a look at the clock. -/
theorem handle_reading (w : World) (c : Clock τ) (s : ControlLoop Nat) (p : Packet) :
    handle w (s.reading c) p = (handle w s p).map (·.reading c) := by
  have hcall := call_reading w c s p
  have hstop := call_reading w c { s with wrapperRequestedStop := true } p
  unfold handle
  repeat' split
  all_goals first | exact hcall | exact hstop | rfl

/-- **The loop finds a packet missing** exactly where, by its clock, the limit is exceeded at one of the timeouts. -/
theorem terminated_eq (w : World) (c : Clock τ) : ∀ (n : Nat) (s : ControlLoop Nat) (input : List (Nat × ReadEvent)),
    (controlLoop w c n (s.reading c) input).terminated = (askings w n s input).any (·.exceeds c)
  | 0, _, _ => rfl
  | n + 1, s, input => by
    have hreader : (s.reading c).reader = s.reader := rfl
    have hstop : (s.reading c).wrapperRequestedStop = s.wrapperRequestedStop := rfl
    rw [controlLoop, askings, hreader, hstop]
    by_cases hstopped : s.wrapperRequestedStop = true
    · rw [if_pos hstopped, if_pos hstopped]
      rfl
    · rw [if_neg hstopped, if_neg hstopped]
      obtain ⟨outcome, reader, rest⟩ := readPacket s.reader input
      cases outcome with
      | timedOut now =>
        dsimp only
        by_cases hdown : (s.wrapperRequestedStop || w.jvmShuttingDown now) = true
        · rw [if_pos hdown, if_pos hdown]
          rfl
        · have ih := terminated_eq w c n { s with reader := reader } rest
          have hasks : pingTimedOut w c (s.reading c) now = Asking.exceeds c ⟨s.lastWrapperPacket, now, s.limit w⟩ := rfl
          rw [if_neg hdown, if_neg hdown, List.any_cons, ← ih, hasks]
          by_cases hexceeds : Asking.exceeds c ⟨s.lastWrapperPacket, now, s.limit w⟩ = true
          · rw [if_pos hexceeds, hexceeds]
            rfl
          · rw [if_neg hexceeds, Bool.eq_false_iff.2 hexceeds]
            rfl
      | packet now p =>
        have hhandled := handle_reading w c { s with reader := reader, lastWrapperPacket := now } p
        dsimp only [ControlLoop.reading] at hhandled ⊢
        rw [hhandled]
        cases handle w { s with reader := reader, lastWrapperPacket := now } p with
        | ok s' => exact terminated_eq w c n s' rest
        | error message => rfl
      | failed message => rfl
      | blocked => rfl

theorem runLoop_terminated (w : World) (c : Clock τ) (start : Nat) (input : List (Nat × ReadEvent)) :
    (runLoop w c start input).terminated = (runAskings w start input).any (·.exceeds c) :=
  terminated_eq w c (input.length + 1) { lastWrapperPacket := start } input

theorem monotonic_terminated_iff (w : World) (start : Nat) (input : List (Nat × ReadEvent)) :
    (runLoop w monotonicClock start input).terminated = true ↔
      ∃ a ∈ runAskings w start input, 0 < a.limit ∧ a.limit < (a.now : Int) - a.last := by
  rw [runLoop_terminated, List.any_eq_true]
  simp only [Asking.exceeds, monotonicClock, id, Bool.and_eq_true, decide_eq_true_eq]

/-! ## The limit is no largest `long` -/

theorem pingTimeoutMillis_lt (others : Char → Option Nat) (properties : BTreeMap Text Text) :
    pingTimeoutMillis others properties < 2 ^ 63 - 1 := by
  unfold pingTimeoutMillis
  by_cases hoff : longProperty others properties "wrapper.ping.timeout" 30 ≤ 0
  · simp only [hoff, if_true]
    decide
  · simp only [hoff, if_false]
    generalize (longProperty others properties "wrapper.ping.timeout" 30 +
      max (longProperty others properties "wrapper.ping.interval" 5) 1).bmod (2 ^ 64) = seconds
    have hlt : (seconds * 1000).bmod (2 ^ 64) < (((2 ^ 64 : Nat) : Int) + 1) / 2 := Int.bmod_lt (by decide)
    obtain ⟨k, hk⟩ := Int.dvd_bmod_sub_self (x := seconds * 1000) (m := 2 ^ 64)
    omega

theorem limit_of_mem_askings {w : World} {a : Asking} : ∀ {n : Nat} {s : ControlLoop Nat} {input : List (Nat × ReadEvent)},
    a ∈ askings w n s input → ∃ properties, a.limit = pingTimeoutMillis w.digits properties
  | 0, _, _, h => by cases h
  | n + 1, s, input, h => by
    rw [askings] at h
    split at h
    · cases h
    · split at h
      · split at h
        · cases h
        · cases h with
          | head => exact ⟨s.properties, rfl⟩
          | tail _ h => exact limit_of_mem_askings h
      · split at h
        · exact limit_of_mem_askings h
        · cases h
      · cases h

/-! ## Two clocks -/

theorem constant_not_exceeds (a : Asking) : Asking.exceeds (wallClock (fun _ => 0)) a = false := by
  have hzero : ((0 : Int64) - 0).toInt = 0 := by decide
  simp only [Asking.exceeds, wallClock, hzero]
  by_cases hlimit : 0 < a.limit
  · simp [Int.not_lt.2 (Int.le_of_lt hlimit)]
  · simp [hlimit]

/-- A clock that jumps ahead before a timeout exceeds every limit there. -/
theorem jump_exceeds {a : Asking} (hpositive : 0 < a.limit) (hlimit : a.limit < 2 ^ 63 - 1) (hlater : a.now ≠ a.last) :
    Asking.exceeds (wallClock (fun t => if t = a.now then Int64.maxValue else 0)) a = true := by
  have hmax : (Int64.maxValue - 0).toInt = 2 ^ 63 - 1 := by decide
  simp only [Asking.exceeds, wallClock, if_true, if_neg hlater.symm, hmax]
  rw [decide_eq_true hpositive, decide_eq_true hlimit]
  rfl

theorem any_exceeds_congr {σ : Type} {c : Clock σ} {d : Clock τ} {as : List Asking}
    (h : ∀ a ∈ as, a.exceeds c = a.exceeds d) : as.any (·.exceeds c) = as.any (·.exceeds d) := by
  rw [Bool.eq_iff_iff, List.any_eq_true, List.any_eq_true]
  exact exists_congr (fun a => and_congr_right (fun ha => by rw [h a ha]))

/-- **The decision of the loop.**  Every history of the wall clock leads to the decision of the monotonic clock exactly
where the loop comes to no read timeout later than the last packet with its watchdog on.  A history whose readings at
the timeouts and at the packets before them differ by what has passed always does. -/
theorem decisions_agree_iff (w : World) (start : Nat) (input : List (Nat × ReadEvent)) :
    ((∀ readings, (runLoop w (wallClock readings) start input).terminated =
        (runLoop w monotonicClock start input).terminated) ↔
      ∀ a ∈ runAskings w start input, 0 < a.limit → a.now = a.last) ∧
    ∀ readings : Nat → Int64,
      (∀ a ∈ runAskings w start input, (readings a.now - readings a.last).toInt = (a.now : Int) - a.last) →
        (runLoop w (wallClock readings) start input).terminated = (runLoop w monotonicClock start input).terminated := by
  simp only [runLoop_terminated]
  refine ⟨⟨?_, ?_⟩, ?_⟩
  · intro h a ha hpositive
    by_contra hlater
    obtain ⟨properties, hlimit⟩ := limit_of_mem_askings ha
    have hjump := jump_exceeds hpositive (hlimit ▸ pingTimeoutMillis_lt w.digits properties) hlater
    have htrue : (runAskings w start input).any
        (·.exceeds (wallClock (fun t => if t = a.now then Int64.maxValue else 0))) = true :=
      List.any_eq_true.2 ⟨a, ha, hjump⟩
    have hfalse : (runAskings w start input).any (·.exceeds (wallClock (fun _ => 0))) = false :=
      List.any_eq_false.2 (fun b _ => by simp [constant_not_exceeds b])
    rw [h, ← h (fun _ => 0), hfalse] at htrue
    cases htrue
  · intro h readings
    apply any_exceeds_congr
    intro a ha
    by_cases hpositive : 0 < a.limit
    · -- at the instant of the last packet nothing has passed by either clock
      simp [Asking.exceeds, wallClock, monotonicClock, h a ha hpositive]
    · simp [Asking.exceeds, hpositive]
  · intro readings h
    apply any_exceeds_congr
    intro a ha
    simp only [Asking.exceeds, wallClock, monotonicClock, h a ha, id]

/-! ## Runs -/

theorem readPacket_length : ∀ (input : List (Nat × ReadEvent)) (r : Reader), input ≠ [] →
    (readPacket r input).1 = .blocked ∨ (readPacket r input).2.2.length < input.length
  | [], _, h => absurd rfl h
  | (instant, .timeout) :: rest, r, _ => .inr (Nat.lt_succ_self _)
  | (instant, .endOfStream) :: rest, r, _ => .inr (Nat.lt_succ_self _)
  | (instant, .value byte) :: rest, r, _ => by
    have hnext : ∀ r', (readPacket r' rest).1 = .blocked ∨ (readPacket r' rest).2.2.length < rest.length + 1 := by
      intro r'
      cases rest with
      | nil => exact .inl rfl
      | cons e rest => exact (readPacket_length (e :: rest) r' (by simp)).imp_right Nat.lt_succ_of_lt
    rw [readPacket]
    split
    · exact hnext _
    · split
      · exact .inr (Nat.lt_succ_self _)
      · split
        · exact .inr (Nat.lt_succ_self _)
        · exact hnext _

/-- Each call of `readPacket` that returns has read something, so the loop makes no more turns than there are reads. -/
theorem controlLoop_ends (w : World) (c : Clock τ) : ∀ (n : Nat) (s : ControlLoop τ) (input : List (Nat × ReadEvent)),
    input.length < n → controlLoop w c n s input ≠ .outOfFuel
  | 0, _, _, h => by cases h
  | n + 1, s, input, h => by
    have hread : (readPacket s.reader input).1 = .blocked ∨ (readPacket s.reader input).2.2.length < n := by
      by_cases hempty : input = []
      · exact .inl (by rw [hempty, readPacket])
      · exact (readPacket_length input s.reader hempty).imp_right (fun hlt => by omega)
    rw [controlLoop]
    generalize readPacket s.reader input = call at hread ⊢
    obtain ⟨outcome, reader, rest⟩ := call
    split
    · simp
    · cases outcome with
      | timedOut now =>
        dsimp only
        split
        · simp
        · split
          · simp
          · exact controlLoop_ends w c n _ rest (hread.resolve_left (by simp))
      | packet now p =>
        dsimp only
        cases handle w { s with reader := reader, lastWrapperPacket := c.read now } p with
        | ok s' => exact controlLoop_ends w c n s' rest (hread.resolve_left (by simp))
        | error message => simp
      | failed message => simp
      | blocked => simp

theorem runLoop_ends (w : World) (c : Clock τ) (start : Nat) (input : List (Nat × ReadEvent)) :
    runLoop w c start input ≠ .outOfFuel :=
  controlLoop_ends w c _ _ input (Nat.lt_succ_self _)

def pingThenTimeout : List (Nat × ReadEvent) := [(500, .value 103), (500, .value 0), (1500, .timeout)]

def silence : List (Nat × ReadEvent) := (List.range 37).map (fun n => (1000 * (n + 1), .timeout))

/-- A wall clock that is put forward, or back, by an hour at the first second. -/
def putForward (t : Nat) : Int64 := if t < 1000 then .ofNat t else .ofNat (t + 3600000)
def putBack (t : Nat) : Int64 := if t < 1000 then .ofNat (t + 3600000) else .ofNat t

theorem clock_adjustments_decide :
    (runLoop {} monotonicClock 0 pingThenTimeout = .blocked ∧ runLoop {} (wallClock .ofNat) 0 pingThenTimeout = .blocked ∧
      runLoop {} (wallClock putForward) 0 pingThenTimeout =
        .missingPacket 1500 "no packet from the wrapper for 35 seconds".toList) ∧
    runLoop {} monotonicClock 0 silence = .missingPacket 36000 "no packet from the wrapper for 35 seconds".toList ∧
    runLoop {} (wallClock .ofNat) 0 silence = .missingPacket 36000 "no packet from the wrapper for 35 seconds".toList ∧
    runLoop {} (wallClock putBack) 0 silence = .blocked := by
  decide +kernel

end BackendClient
end Jss
