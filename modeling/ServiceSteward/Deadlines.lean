import ServiceSteward.PingLimits
import ServiceSteward.StartupDeadline
import ServiceSteward.StopHint
import ServiceSteward.Throttle
/-!
# Deadlines — configured times added to instants, and to one another

A number of seconds is read as any 64-bit number, and nothing bounds it before it is added to the clock or to another
one.  `+` panics where a sum is above `Duration::MAX`, and in all of these places nobody looks.  `Deadline` lists them;
no one of them panics exactly where the numbers are in range (`no_overflow_iff`).
-/
namespace Jss

/-- `Duration::MAX`, which bounds an `Instant` as well. -/
def Duration.MAX : Duration := Duration.fromSecs Text.u64Max + 999999999

/-! ## Sums that may panic -/

/-- A sum that is checked against a limit. -/
def checkedAdd (limit a b : Nat) : Option Nat := if a + b ≤ limit then some (a + b) else none

/-- Terms that are added from the left. -/
def checkedSum (limit : Nat) : Nat → List Nat → Option Nat := List.foldlM (checkedAdd limit)

theorem checkedSum_eq_some {limit : Nat} : ∀ (terms : List Nat) (first : Nat), first + terms.sum ≤ limit →
    checkedSum limit first terms = some (first + terms.sum)
  | [], first, _ => rfl
  | term :: terms, first, h => by
    rw [List.sum_cons, ← Nat.add_assoc] at h
    have hterm : first + term ≤ limit := (Nat.le_add_right _ _).trans h
    have hrest := checkedSum_eq_some terms (first + term) h
    rw [List.sum_cons, ← Nat.add_assoc, ← hrest]
    simp only [checkedSum, List.foldlM_cons, checkedAdd, if_pos hterm]
    rfl

/-- Only the whole sum matters. -/
theorem checkedSum_isSome_iff {limit : Nat} : ∀ (terms : List Nat) (first : Nat), terms ≠ [] →
    ((checkedSum limit first terms).isSome ↔ first + terms.sum ≤ limit)
  | [], _, h => absurd rfl h
  | term :: terms, first, _ => by
    by_cases hterm : first + term ≤ limit
    · have hstep : checkedSum limit first (term :: terms) = checkedSum limit (first + term) terms := by
        simp only [checkedSum, List.foldlM_cons, checkedAdd, if_pos hterm]
        rfl
      rw [hstep, List.sum_cons, ← Nat.add_assoc]
      by_cases hnil : terms = []
      · subst hnil
        simpa [checkedSum] using hterm
      · exact checkedSum_isSome_iff terms (first + term) hnil
    · have hstep : checkedSum limit first (term :: terms) = none := by
        simp only [checkedSum, List.foldlM_cons, checkedAdd, if_neg hterm]
        rfl
      rw [hstep, List.sum_cons]
      refine iff_of_false (by simp) (fun h => hterm ?_)
      omega

namespace Supervisor

open BackendClient (oneFile)

/-! ## The sums of the program -/

/-- The `wrapper.startup.delay` that counts. -/
def startupDelaySeconds (config : Config) (service : Bool) : Nat :=
  config.getU64 (if service then "wrapper.startup.delay.service" else "wrapper.startup.delay.console")
    (config.getU64 "wrapper.startup.delay" 0)

/-- Each place where a deadline or a limit is computed, with what it depends on beside the configuration. -/
inductive Deadline where
  /-- `startup_deadline` in `run_once`. -/
  | startup
  /-- `next_ping` in `run_once`, and again in `tick`. -/
  | nextPing
  /-- The delay before the first JVM, in `wait_for_restart`. -/
  | startupDelay
  /-- The delay before another one, for a JVM that was launched then, with the failures before it. -/
  | restartDelay (launchedAt : Instant) (automatic : Bool) (failures : Nat)
  /-- The deadline of a connection that has not authenticated yet. -/
  | handshake
  /-- `startup_deadline` for a `START_PENDING`. -/
  | startPending (message : Bytes)
  /-- The silence that `tick` allows. -/
  | allowed (dumping : Bool)
  /-- `wait_for_exit` in `shutdown_and_drain`. -/
  | shutdown
  /-- `wait_for_exit` after a thread dump. -/
  | dumpDelay
  /-- `drain_remaining_output`. -/
  | drain
  /-- `capture_with_jcmd`. -/
  | threadDump
  /-- The worker of a heap dump. -/
  | heapDump
  /-- `stop_wait_hint`. -/
  | stopHint

/-- The first term and those that are added to it, where the sum is computed. -/
def Deadline.terms (sup : Supervisor) (arguments : List Text) (now : Instant) : Deadline → Option (Nat × List Duration)
  | .startup =>
    if startupTimeout sup > 0 then some (now, [Duration.fromSecs (startupTimeout sup)]) else none
  | .nextPing => some (now, [pingInterval sup])
  | .startupDelay =>
    if Supervisor.startupDelay sup.config sup.service > 0 then
      some (now, [Supervisor.startupDelay sup.config sup.service])
    else none
  | .restartDelay launchedAt automatic failures =>
    if restartsDisabled sup automatic then none
    else if countFailure sup failures (now - launchedAt) ≥ maxFailures sup then none
    else some (now, [Supervisor.restartDelay sup])
  | .handshake => some (now, [max (Duration.fromSecs (startupTimeout sup)) minHandshakeTimeout])
  | .startPending message =>
    if startupTimeout sup > 0 then
      some (now, [Duration.fromMillis (max (waitHint (startupTimeout sup) message) 1)])
    else none
  | .allowed dumping =>
    if pingTimeout sup > 0 then
      some (pingTimeout sup, [pingInterval sup, if dumping then heapDumpTimeout sup.config else 0])
    else none
  | .shutdown => some (now, [shutdownTimeout sup.config])
  | .dumpDelay =>
    if dumpsOnFailedExit sup.config && (threadDumpMethod sup.config arguments).isOk then
      some (now, [Duration.fromSecs (max (dumpDelaySeconds sup.config) 1)])
    else none
  | .drain => some (now, [drainTime])
  | .threadDump =>
    match threadDumpMethod sup.config arguments with
    | .ok .jcmd => some (now, [jcmdTime sup.config])
    | _ => none
  | .heapDump => some (now, [heapDumpTimeout sup.config])
  | .stopHint =>
    some (shutdownTimeout sup.config,
      if dumpsOnFailedExit sup.config then [Duration.fromSecs (dumpDelaySeconds sup.config), stopWaitMargin]
      else [stopWaitMargin])

/-- What the code computes: none where it does not get there, and where it panics. -/
def Deadline.value (sup : Supervisor) (arguments : List Text) (now : Instant) (deadline : Deadline) : Option Nat :=
  (deadline.terms sup arguments now).bind (fun terms => checkedSum Duration.MAX terms.1 terms.2)

/-- **The claim**: no sum panics. -/
def NoOverflow (sup : Supervisor) (arguments : List Text) (now : Instant) : Prop :=
  ∀ deadline : Deadline, ∀ terms ∈ deadline.terms sup arguments now,
    (checkedSum Duration.MAX terms.1 terms.2).isSome

/-! ## The numbers in range -/

/-- The whole seconds from an instant to the last one. -/
def secondsLeft (now : Instant) : Nat := (Duration.MAX - now) / 1000000000

/-- Whether a JVM that ends is ever followed by another one after a delay. -/
def RestartsAfterDelay (sup : Supervisor) (now : Instant) : Prop :=
  sup.config.getBool "wrapper.disable_restarts" false = false ∧ (successfulTime sup ≤ now ∨ 1 < maxFailures sup)

/-- What is added to the clock is left on it, and what is added up is a 64-bit number of seconds. -/
structure InRange (sup : Supervisor) (arguments : List Text) (now : Instant) : Prop where
  constant : 5 ≤ secondsLeft now
  startup : startupTimeout sup ≤ secondsLeft now
  interval : max (sup.config.getU64 "wrapper.ping.interval" 5) 1 ≤ secondsLeft now
  startupDelay : startupDelaySeconds sup.config sup.service ≤ secondsLeft now
  restartDelay : RestartsAfterDelay sup now → sup.config.getU64 "wrapper.restart.delay" 5 ≤ secondsLeft now
  shutdown : sup.config.getU64 "wrapper.shutdown.timeout" 30 ≤ secondsLeft now
  dumpDelay : dumpsOnFailedExit sup.config = true → (threadDumpMethod sup.config arguments).isOk = true →
    max (dumpDelaySeconds sup.config) 1 ≤ secondsLeft now
  threadDump : threadDumpMethod sup.config arguments = .ok .jcmd → threadDumpSeconds sup.config ≤ secondsLeft now
  heapDump : max (sup.config.getU64 "jss.heapdump.timeout" 600) 1 ≤ secondsLeft now
  /-- A packet may ask for any 64-bit number of milliseconds. -/
  hint : 0 < startupTimeout sup → now ≤ Duration.MAX - Duration.fromMillis Text.u64Max
  silence : 0 < sup.config.getU64 "wrapper.ping.timeout" 30 →
    sup.config.getU64 "wrapper.ping.timeout" 30 + max (sup.config.getU64 "wrapper.ping.interval" 5) 1 +
      max (sup.config.getU64 "jss.heapdump.timeout" 600) 1 ≤ Text.u64Max
  stopHint : sup.config.getU64 "wrapper.shutdown.timeout" 30 +
    (if dumpsOnFailedExit sup.config then dumpDelaySeconds sup.config else 0) + 10 ≤ Text.u64Max

/-! ## One sum -/

theorem fits_iff {now : Instant} (hnow : now ≤ Duration.MAX) (seconds : Nat) :
    now + Duration.fromSecs seconds ≤ Duration.MAX ↔ seconds ≤ secondsLeft now := by
  unfold secondsLeft
  rw [Nat.le_div_iff_mul_le (by decide), Nat.le_sub_iff_add_le' hnow]
  rfl

/-- A sum of seconds is a `Duration` where it is a 64-bit number. -/
theorem seconds_fit_iff (seconds : Nat) : Duration.fromSecs seconds ≤ Duration.MAX ↔ seconds ≤ Text.u64Max := by
  show seconds * 1000000000 ≤ 18446744073709551615 * 1000000000 + 999999999 ↔ seconds ≤ 18446744073709551615
  omega

/-- One term that is added. -/
theorem checkedSum_one (first term : Nat) :
    (checkedSum Duration.MAX first [term]).isSome ↔ first + term ≤ Duration.MAX := by
  rw [checkedSum_isSome_iff _ _ (List.cons_ne_nil _ _), List.sum_singleton]

theorem InRange.now_le {sup : Supervisor} {arguments : List Text} {now : Instant} (h : InRange sup arguments now) :
    now ≤ Duration.MAX := by
  by_contra hnot
  have hleft : secondsLeft now = 0 := by
    unfold secondsLeft
    rw [Nat.sub_eq_zero_of_le (Nat.le_of_not_le hnot), Nat.zero_div]
  have hconstant := h.constant
  rw [hleft] at hconstant
  omega

section Sums

variable {sup : Supervisor} {arguments : List Text} {now : Instant}

/-- A deadline that is always computed. -/
theorem NoOverflow.fits (h : NoOverflow sup arguments now) (deadline : Deadline) {term : Duration}
    (hterms : deadline.terms sup arguments now = some (now, [term])) : now + term ≤ Duration.MAX :=
  (checkedSum_one _ _).1 (h deadline _ hterms)

theorem NoOverflow.left (h : NoOverflow sup arguments now) (deadline : Deadline) {seconds : Nat}
    (hterms : deadline.terms sup arguments now = some (now, [Duration.fromSecs seconds])) :
    seconds ≤ secondsLeft now := by
  have hfits := h.fits deadline hterms
  exact (fits_iff ((Nat.le_add_right _ _).trans hfits) seconds).1 hfits

/-- The longest hint of a `START_PENDING`. -/
def longestHint : Bytes := (Text.ofNat Text.u64Max).asBytes

theorem waitHint_le (startupSeconds : Nat) (message : Bytes) : waitHint startupSeconds message ≤ Text.u64Max := by
  unfold waitHint
  cases hparsed : Text.parseUnsigned Text.u64Max (utf8Lossy message).trim with
  | none => exact Nat.min_le_right _ _
  | some hint => exact parseUnsigned_le hparsed

theorem waitHint_longest (startupSeconds : Nat) : waitHint startupSeconds longestHint = Text.u64Max := by
  have hparsed : Text.parseUnsigned Text.u64Max (utf8Lossy longestHint).trim = some Text.u64Max := by decide +kernel
  unfold waitHint
  rw [hparsed]
  rfl

theorem NoOverflow.restarts (h : NoOverflow sup arguments now) (hpossible : RestartsAfterDelay sup now) :
    sup.config.getU64 "wrapper.restart.delay" 5 ≤ secondsLeft now := by
  obtain ⟨henabled, hsoon⟩ := hpossible
  have hterms : (Deadline.restartDelay 0 false 0).terms sup arguments now =
      some (now, [Supervisor.restartDelay sup]) := by
    have hon : restartsDisabled sup false = false := by
      unfold restartsDisabled
      rw [henabled]
      rfl
    have hfew : ¬ countFailure sup 0 (now - 0) ≥ maxFailures sup := by
      unfold countFailure
      split
      · exact Nat.not_le.2 (Nat.lt_of_lt_of_le Nat.one_pos (Nat.le_max_right _ _))
      · rename_i hfailed
        rcases hsoon with hsuccessful | hfailures
        · exact absurd hsuccessful hfailed
        · exact Nat.not_le.2 hfailures
    simp only [Deadline.terms, hon, Bool.false_eq_true, if_false, if_neg hfew]
  exact h.left _ hterms

/-- **Where no sum panics**, the numbers are in range. -/
theorem NoOverflow.inRange (h : NoOverflow sup arguments now) : InRange sup arguments now := by
  have hhandshake := h.fits .handshake rfl
  have hnow : now ≤ Duration.MAX := (Nat.le_add_right _ _).trans hhandshake
  refine ⟨?_, ?_, h.left .nextPing rfl, ?_, h.restarts, h.left .shutdown rfl, ?_, ?_,
    h.left .heapDump rfl, ?_, ?_, ?_⟩
  · exact (fits_iff hnow 5).1 ((Nat.add_le_add_left (Nat.le_max_right _ _) _).trans hhandshake)
  · exact (fits_iff hnow _).1 ((Nat.add_le_add_left (Nat.le_max_left _ _) _).trans hhandshake)
  · by_cases hpos : Supervisor.startupDelay sup.config sup.service > 0
    · exact h.left .startupDelay (by simp only [Deadline.terms, if_pos hpos]; rfl)
    · have hzero : startupDelaySeconds sup.config sup.service = 0 := by
        by_contra hne
        exact hpos (Nat.mul_pos (Nat.pos_of_ne_zero hne) (by decide))
      rw [hzero]
      exact Nat.zero_le _
  · intro hflag hmethod
    exact h.left .dumpDelay (by simp only [Deadline.terms, hflag, hmethod, Bool.and_self, if_true])
  · intro hmethod
    refine h.left .threadDump ?_
    simp only [Deadline.terms, hmethod]
    rw [jcmdTime_eq]
  · intro hpos
    have hfits := h.fits (.startPending longestHint) (by
      simp only [Deadline.terms, if_pos hpos]
      rw [waitHint_longest, Nat.max_eq_left (by decide)])
    exact Nat.le_sub_of_add_le hfits
  · intro hpos
    have hon : pingTimeout sup > 0 := Nat.mul_pos hpos (by decide)
    have hsum := h (.allowed true) _ (by simp only [Deadline.terms, if_pos hon, if_true]; rfl)
    rw [checkedSum_isSome_iff _ _ (List.cons_ne_nil _ _), sum_pair, pingTimeout, pingInterval, heapDumpTimeout,
      fromSecs_add, fromSecs_add, seconds_fit_iff, ← Nat.add_assoc] at hsum
    exact hsum
  · have hsum := h .stopHint _ rfl
    rw [checkedSum_isSome_iff _ _ (by split <;> simp), shutdownTimeout, stopWaitMargin] at hsum
    cases hflag : dumpsOnFailedExit sup.config with
    | false =>
      simp only [hflag, Bool.false_eq_true, if_false, List.sum_singleton] at hsum
      rw [fromSecs_add, seconds_fit_iff] at hsum
      exact hsum
    | true =>
      simp only [hflag, if_true] at hsum
      rw [sum_pair, fromSecs_add, fromSecs_add, seconds_fit_iff, ← Nat.add_assoc] at hsum
      exact hsum

/-- A number of seconds in range, added to the clock. -/
theorem InRange.adds (h : InRange sup arguments now) {seconds : Nat} (hseconds : seconds ≤ secondsLeft now) :
    (checkedSum Duration.MAX now [Duration.fromSecs seconds]).isSome :=
  (checkedSum_one _ _).2 ((fits_iff h.now_le seconds).2 hseconds)

theorem InRange.restarts (h : InRange sup arguments now) {launchedAt : Instant} {automatic : Bool} {failures : Nat}
    (henabled : ¬ restartsDisabled sup automatic = true)
    (hfew : ¬ countFailure sup failures (now - launchedAt) ≥ maxFailures sup) :
    sup.config.getU64 "wrapper.restart.delay" 5 ≤ secondsLeft now := by
  refine h.restartDelay ⟨?_, ?_⟩
  · rw [restartsDisabled, Bool.or_eq_true, not_or] at henabled
    exact Bool.eq_false_of_not_eq_true henabled.1
  · by_contra hnever
    rw [not_or] at hnever
    apply hfew
    have hfailed : ¬ now - launchedAt ≥ successfulTime sup := fun hlong =>
      hnever.1 (hlong.trans (Nat.sub_le _ _))
    rw [countFailure, if_neg hfailed]
    have hcount : 1 ≤ min (failures + 1) Text.u64Max := Nat.le_min.2 ⟨Nat.succ_pos _, by decide⟩
    exact (Nat.le_of_not_lt hnever.2).trans hcount

/-- **Where the numbers are in range**, no sum panics. -/
theorem InRange.noOverflow (h : InRange sup arguments now) : NoOverflow sup arguments now := by
  intro deadline terms hterms
  cases deadline with
  | startup =>
    simp only [Deadline.terms] at hterms
    split at hterms
    · cases hterms
      exact h.adds h.startup
    · cases hterms
  | nextPing =>
    cases hterms
    exact h.adds h.interval
  | startupDelay =>
    simp only [Deadline.terms] at hterms
    split at hterms
    · cases hterms
      exact h.adds h.startupDelay
    · cases hterms
  | restartDelay launchedAt automatic failures =>
    simp only [Deadline.terms] at hterms
    split at hterms
    · cases hterms
    · split at hterms
      · cases hterms
      · cases hterms
        exact h.adds (h.restarts ‹_› ‹_›)
  | handshake =>
    cases hterms
    rw [checkedSum_one]
    rcases Nat.le_total (Duration.fromSecs (startupTimeout sup)) minHandshakeTimeout with hle | hle
    · simp only
      rw [Nat.max_eq_right hle]
      exact (fits_iff h.now_le 5).2 h.constant
    · simp only
      rw [Nat.max_eq_left hle]
      exact (fits_iff h.now_le _).2 h.startup
  | startPending message =>
    simp only [Deadline.terms] at hterms
    split at hterms
    · rename_i hpos
      cases hterms
      rw [checkedSum_one]
      have hhint : max (waitHint (startupTimeout sup) message) 1 ≤ Text.u64Max :=
        Nat.max_le.2 ⟨waitHint_le _ _, by decide⟩
      have hlongest : Duration.fromMillis (max (waitHint (startupTimeout sup) message) 1) ≤
        Duration.fromMillis Text.u64Max := Nat.mul_le_mul_right _ hhint
      exact (Nat.add_le_add_left hlongest now).trans
        ((Nat.le_sub_iff_add_le (by decide)).1 (h.hint hpos))
    · cases hterms
  | allowed dumping =>
    simp only [Deadline.terms] at hterms
    split at hterms
    · rename_i hon
      cases hterms
      have hpos : 0 < sup.config.getU64 "wrapper.ping.timeout" 30 := Nat.pos_of_mul_pos_right hon
      have hsilence := h.silence hpos
      rw [checkedSum_isSome_iff _ _ (List.cons_ne_nil _ _)]
      simp only
      rw [sum_pair, pingTimeout, pingInterval]
      cases dumping with
      | false =>
        simp only [Bool.false_eq_true, if_false]
        rw [Nat.add_zero, fromSecs_add, seconds_fit_iff]
        exact (Nat.le_add_right _ _).trans hsilence
      | true =>
        simp only [if_true]
        rw [heapDumpTimeout, fromSecs_add, fromSecs_add, seconds_fit_iff, ← Nat.add_assoc]
        exact hsilence
    · cases hterms
  | shutdown =>
    cases hterms
    exact h.adds h.shutdown
  | dumpDelay =>
    simp only [Deadline.terms, Bool.and_eq_true] at hterms
    split at hterms
    · rename_i hdumped
      cases hterms
      exact h.adds (h.dumpDelay hdumped.1 hdumped.2)
    · cases hterms
  | drain =>
    cases hterms
    have hone : 1 ≤ secondsLeft now := Nat.le_trans (by decide) h.constant
    exact h.adds hone
  | threadDump =>
    simp only [Deadline.terms] at hterms
    cases hmethod : threadDumpMethod sup.config arguments with
    | error e =>
      rw [hmethod] at hterms
      cases hterms
    | ok method =>
      rw [hmethod] at hterms
      cases method with
      | consoleBreak => cases hterms
      | jcmd =>
        cases hterms
        simp only
        rw [jcmdTime_eq]
        exact h.adds (h.threadDump hmethod)
  | heapDump =>
    cases hterms
    exact h.adds h.heapDump
  | stopHint =>
    cases hterms
    have hhint := h.stopHint
    rw [checkedSum_isSome_iff _ _ (by simp only; split <;> simp)]
    simp only
    rw [shutdownTimeout, stopWaitMargin]
    cases hflag : dumpsOnFailedExit sup.config with
    | false =>
      simp only [hflag, Bool.false_eq_true, if_false] at hhint ⊢
      rw [List.sum_singleton, fromSecs_add, seconds_fit_iff]
      exact hhint
    | true =>
      simp only [hflag, if_true] at hhint ⊢
      rw [sum_pair, fromSecs_add, fromSecs_add, seconds_fit_iff, ← Nat.add_assoc]
      exact hhint

/-! ## The model's sums -/

theorem NoOverflow.value (h : NoOverflow sup arguments now) (deadline : Deadline) {first : Nat} {rest : List Duration}
    (hterms : deadline.terms sup arguments now = some (first, rest)) (hrest : rest ≠ []) :
    deadline.value sup arguments now = some (first + rest.sum) := by
  have hsum := (checkedSum_isSome_iff rest first hrest).1 (h deadline _ hterms)
  rw [Deadline.value, hterms]
  exact checkedSum_eq_some rest first hsum

/-- A `JvmRun` is built with the deadlines that are computed for it. -/
theorem NoOverflow.launched (h : NoOverflow sup arguments now) (jvmId : Nat) (resuming : Bool) (command : JvmCommand)
    (key : Text) (pid : Nat) (launchedAt : Instant) :
    (JvmRun.launched sup jvmId resuming command key pid launchedAt now).startupDeadline =
      Deadline.startup.value sup arguments now ∧
    some (JvmRun.launched sup jvmId resuming command key pid launchedAt now).nextPing =
      Deadline.nextPing.value sup arguments now := by
  refine ⟨?_, ?_⟩
  · show (if startupTimeout sup > 0 then some (now + Duration.fromSecs (startupTimeout sup)) else none) = _
    by_cases hpos : startupTimeout sup > 0
    · have hterms : Deadline.startup.terms sup arguments now = some (now, [Duration.fromSecs (startupTimeout sup)]) := by
        simp only [Deadline.terms, if_pos hpos]
      rw [h.value _ hterms (List.cons_ne_nil _ _), List.sum_singleton, if_pos hpos]
    · have hterms : Deadline.startup.terms sup arguments now = none := by
        simp only [Deadline.terms, if_neg hpos]
      rw [Deadline.value, hterms, if_neg hpos]
      rfl
  · rw [h.value .nextPing rfl (List.cons_ne_nil _ _), List.sum_singleton]
    rfl

/-- While a JVM is supervised, the silence that is allowed is the sum for its heap dump. -/
theorem NoOverflow.allowedSilence (h : NoOverflow sup arguments now) {s : Sys} (hs : Watching sup s)
    (hon : pingTimeout sup > 0)
    (htask : ∀ task, s.run.heapDumpTask = some task → task.timeout = heapDumpTimeout sup.config) :
    some (allowedSilence s.run) = (Deadline.allowed s.run.heapDumpTask.isSome).value sup arguments now := by
  have hterms : (Deadline.allowed s.run.heapDumpTask.isSome).terms sup arguments now =
      some (pingTimeout sup, [pingInterval sup, if s.run.heapDumpTask.isSome then heapDumpTimeout sup.config else 0]) := by
    simp only [Deadline.terms, if_pos hon]
  rw [h.value _ hterms (List.cons_ne_nil _ _), sum_pair, ← Nat.add_assoc]
  unfold Supervisor.allowedSilence
  rw [hs.timeout, hs.interval]
  cases hdump : s.run.heapDumpTask with
  | none => rfl
  | some task =>
    simp only [Option.isSome_some, if_true]
    rw [htask task hdump]

/-- The hint of the service is the sum. -/
theorem NoOverflow.stopWaitHint (h : NoOverflow sup arguments now) :
    some (stopWaitHint sup.config) = Deadline.stopHint.value sup arguments now := by
  rw [h.value .stopHint rfl (by split <;> simp)]
  unfold Supervisor.stopWaitHint
  cases dumpsOnFailedExit sup.config with
  | false => simp only [Bool.false_eq_true, if_false, List.sum_singleton]
  | true =>
    simp only [if_true]
    rw [sum_pair, Nat.add_assoc]

end Sums

/-- **No deadline overflows** exactly where the numbers are in range. -/
theorem no_deadline_overflows_iff (sup : Supervisor) (arguments : List Text) (now : Instant) :
    NoOverflow sup arguments now ↔ InRange sup arguments now := ⟨NoOverflow.inRange, InRange.noOverflow⟩

/-- The service computes its hint when it starts, and the supervisor its deadline when it stops a JVM. -/
theorem longest_shutdown_overflows : ∃ config : LoadedConfig,
    Config.load (oneFile "/w.conf" "") "/w.conf" "/" ["wrapper.shutdown.timeout=18446744073709551615"] = .ok config ∧
    Deadline.stopHint.value (.sample config.toConfig) [] (Duration.fromSecs 1) = none ∧
    Deadline.shutdown.value (.sample config.toConfig) [] (Duration.fromSecs 1) = none ∧
    ¬ NoOverflow (.sample config.toConfig) [] (Duration.fromSecs 1) := by
  have hvalues : ((Loader.beforeOverride (oneFile "/w.conf" "") "/w.conf" "/"
      ["wrapper.shutdown.timeout=18446744073709551615"] ["wrapper.shutdown.timeout=18446744073709551615"]).map
      (fun loader => (Deadline.stopHint.value (.sample (loader.config "/w.conf" "/").toConfig) [] (Duration.fromSecs 1),
        Deadline.shutdown.value (.sample (loader.config "/w.conf" "/").toConfig) [] (Duration.fromSecs 1)))) =
      .ok (none, none) := by
    decide +kernel
  obtain ⟨config, hload, hvalues⟩ := Loader.load_of_before
    (f := fun config => (Deadline.stopHint.value (.sample config.toConfig) [] (Duration.fromSecs 1),
      Deadline.shutdown.value (.sample config.toConfig) [] (Duration.fromSecs 1))) (fun _ _ => rfl) hvalues
  obtain ⟨hhint, hshutdown⟩ := Prod.mk.inj hvalues
  refine ⟨config, hload, hhint, hshutdown, fun h => ?_⟩
  have hsum := h.value .shutdown rfl (List.cons_ne_nil _ _)
  rw [hshutdown] at hsum
  cases hsum

end Supervisor
end Jss
