import ServiceSteward.Loop
/-!
# Acts — the turns of the event loop, with what each of them writes

`Closing` asks that any packet may be written at any time.  Here a packet is written where the code writes it: `Told`
are the packets of a JVM that goes on, and `PAUSE`, `RESUME`, the greeting of a new connection and the shutdown have a
rule of their own.  `J` holds between two turns and `E` wherever a run may be cut short; `Acts` is what has to be shown
of the operations that matter, and **`Acts.serve` is every turn**.
-/
namespace Jss
namespace Supervisor

open Protocol (Packet ReceiveEvent STOP PING SERVICE_CONTROL PAUSE RESUME GC STARTED)
open Scripted

/-- The packets for a JVM that goes on as it is. -/
inductive Told : UInt8 → Text → Prop
  | gc : Told GC "gc"
  | user (code : Nat) : Told SERVICE_CONTROL (Text.ofNat code)
  | ping (started : Bool) : Told PING (if started then "ping" else "silent")

/-- **A relation kept by all that is neither written to the JVM nor read from it.** -/
class Aside (R : Sys → Sys → Prop) : Prop extends Dumping R, Timing R, Outputting R where
  published : ∀ s kind, R s (s.note (.published kind))
  waited : ∀ s site status unread, R s (s.note (.waited site status unread))
  batch : ∀ s lines, R s (s.note (.took .batch lines))

/-- A program that may end the run, from `J`. -/
def Act (J E : Sys → Prop) (p : Run (Option RunOutcome)) : Prop :=
  ∀ s, J s → (p s).All (fun r t => match r with | none => J t | some _ => E t) (fun _ => E) E

/-- A program that ends the run. -/
def Final (J E : Sys → Prop) (p : Run RunOutcome) : Prop := ∀ s, J s → (p s).All (fun _ => E) (fun _ => E) E

/-- A program that leaves the run as it is. -/
def Within (J E : Sys → Prop) {α : Type} (p : Run α) : Prop := ∀ s, J s → (p s).All (fun _ => J) (fun _ => E) E

/-- **What has to be shown once**, to know every turn. -/
structure Acts (sup : Supervisor) (R : Sys → Sys → Prop) (J E : Sys → Prop) : Prop where
  inside : Carried R J E E
  outside : Carried R E E E
  held : ∀ s t, R s t → t.run.pausedInPlace = s.run.pausedInPlace
  tells : ∀ code message, Told code message → Within J E (sendIfConnected code message)
  pauses : ∀ s, J s → s.run.pausedInPlace = false → (sendIfConnected PAUSE "0" s).All
    (fun sent t => if sent then J (t.setPausedInPlace true) else J t) (fun _ => E) E
  resumes : ∀ s, J s → s.run.pausedInPlace = true → (sendIfConnected RESUME "0" s).All
    (fun sent t => if sent then J (t.setPausedInPlace false) else J t) (fun _ => E) E
  drops : Within J E markDisconnected
  greets : ∀ events s, J s → s.run.connection = none → (connect sup events s).All (fun _ => J) (fun _ => E) E
  shuts : ∀ code s, J s → (shutdownAndDrain sup code s).All (fun _ => E) (fun _ => E) E

section Rules

variable {R : Sys → Sys → Prop} {J E : Sys → Prop} {α β : Type}

theorem within_bind {p : Run α} {f : α → Run β} (hp : Within J E p) (hf : ∀ a, Within J E (f a)) :
    Within J E (p >>= f) := by
  intro s hs
  rw [all_bind]
  exact (hp s hs).mono (fun a t ht => hf a t ht) (fun _ _ h => h) (fun _ h => h)

theorem within_pure (a : α) : Within J E (pure a) := fun _ hs => hs

theorem act_bind {p : Run α} {f : α → Run (Option RunOutcome)} (hp : Within J E p) (hf : ∀ a, Act J E (f a)) :
    Act J E (p >>= f) := by
  intro s hs
  rw [all_bind]
  exact (hp s hs).mono (fun a t ht => hf a t ht) (fun _ _ h => h) (fun _ h => h)

theorem act_none : Act J E (pure none) := fun _ hs => hs

theorem act_forEach {body : α → Run (Option RunOutcome)} (h : ∀ a, Act J E (body a)) :
    ∀ as : List α, Act J E (Prog.forEach body as)
  | [] => act_none
  | a :: as => by
    intro s hs
    rw [Prog.forEach, all_bind]
    refine (h a s hs).mono (fun r t ht => ?_) (fun _ _ h => h) (fun _ h => h)
    cases r with
    | some o => exact ht
    | none => exact act_forEach h as t ht

theorem act_of_within {p : Run α} (h : Within J E p) : Act J E (p >>= fun _ => pure none) :=
  act_bind h (fun _ => act_none)

theorem act_of_final {p : Run RunOutcome} (h : Final J E p) : Act J E (p >>= fun o => pure (some o)) := by
  intro s hs
  rw [all_bind]
  exact (h s hs).mono (fun _ _ ht => ht) (fun _ _ h => h) (fun _ h => h)

theorem final_bind {p : Run α} {f : α → Run RunOutcome} (hp : Within J E p) (hf : ∀ a, Final J E (f a)) :
    Final J E (p >>= f) := by
  intro s hs
  rw [all_bind]
  exact (hp s hs).mono (fun a t ht => hf a t ht) (fun _ _ h => h) (fun _ h => h)

/-- Where the run is over, what follows only has to keep `E`. -/
theorem final_after {p : Run α} {f : α → Run RunOutcome} (hp : ∀ s, J s → (p s).All (fun _ => E) (fun _ => E) E)
    (hf : ∀ a, Final E E (f a)) : Final J E (p >>= f) := by
  intro s hs
  rw [all_bind]
  exact (hp s hs).mono (fun a t ht => hf a t ht) (fun _ _ h => h) (fun _ h => h)

theorem within_of_keeps (hJ : Carried R J E E) {p : Run α} (h : Keeps R p) : Within J E p := fun s hs =>
  (h s).mono (fun _ t ht => hJ.after s t hs ht) (fun _ t ht => hJ.err t (hJ.after s t hs ht))
    (fun t ht => hJ.cut t (hJ.after s t hs ht))

theorem final_of_keeps (hE : Carried R E E E) {p : Run RunOutcome} (h : Keeps R p) : Final E E p :=
  within_of_keeps hE h

theorem Acts.keeps {sup : Supervisor} (l : Acts sup R J E) {p : Run α} (h : Keeps R p) : Within J E p :=
  within_of_keeps l.inside h

/-- The JVM is or is not paused in place. -/
def HeldAs (J : Sys → Prop) (paused : Bool) (s : Sys) : Prop := J s ∧ s.run.pausedInPlace = paused

theorem Acts.carriedHeld {sup : Supervisor} (l : Acts sup R J E) (paused : Bool) : Carried R (HeldAs J paused) E E where
  after s t hs hst := ⟨l.inside.after s t hs.1 hst, (l.held s t hst).trans hs.2⟩
  err s hs := l.inside.err s hs.1
  cut s hs := l.inside.cut s hs.1

end Rules

section Handlers

variable {sup : Supervisor} {R : Sys → Sys → Prop} [Aside R] {J E : Sys → Prop} (l : Acts sup R J E)
include l

theorem Acts.logs {level : LogLevel} {source : LogSource} {message : Text}
    (h : .logged level source (.text message) ≠ Obs.marker) : Within J E (log level source message) :=
  l.keeps (keeps_log h)

theorem Acts.publishes (kind : EventKind) : Within J E (publish kind) := l.keeps (fun s => Aside.published s kind)

theorem Acts.stopWith (exitCode : Int) : Final J E (stopWith sup exitCode) :=
  final_after (l.shuts exitCode) (fun _ => final_of_keeps l.outside (keeps_pure _))

theorem Acts.restartWith (automatic : Bool) (exitCode : Int) : Final J E (restartWith sup automatic exitCode) :=
  final_after (l.shuts exitCode)
    (fun _ => final_of_keeps l.outside (keeps_bind keeps_elapsed (fun _ => keeps_pure _)))

/-- A pause of a JVM that is not paused. -/
theorem Acts.pause {s : Sys} (hs : J s) (h : s.run.pausedInPlace = false) :
    (pause sup s).All (fun r t => match r with | none => J t | some _ => E t) (fun _ => E) E := by
  unfold Supervisor.pause
  by_cases hstops : sup.pausableStopsJvm = true
  · rw [if_pos hstops, all_bind]
    refine (l.shuts 0 s hs).mono (fun _ t ht => ?_) (fun _ _ h => h) (fun _ h => h)
    exact l.outside.after t _ ht (Aside.published t .servicePaused)
  · rw [if_neg hstops, all_bind]
    refine (l.pauses s hs h).mono (fun sent t ht => ?_) (fun _ _ h => h) (fun _ h => h)
    cases sent with
    | true => exact act_of_within (l.publishes _) _ ht
    | false => exact ht

/-- A JVM that is paused goes on. -/
theorem Acts.resume {s : Sys} (hs : J s) (h : s.run.pausedInPlace = true) :
    (resume s).All (fun _ => J) (fun _ => E) E := by
  unfold Supervisor.resume
  rw [all_bind]
  refine (l.resumes s hs h).mono (fun sent t ht => ?_) (fun _ _ h => h) (fun _ h => h)
  cases sent with
  | true => exact l.publishes .serviceResumed _ ht
  | false => exact ht

theorem Acts.whenPausable : Act J E (do
    if sup.pausable && !(← getRun).pausedInPlace then Supervisor.pause sup
    else return none) := by
  intro s hs
  unfold getRun
  simp only [all_bind, all_get, all_pure]
  by_cases h : (sup.pausable && !s.run.pausedInPlace) = true
  · rw [if_pos h]
    have hparts := Bool.and_eq_true_iff.1 h
    exact l.pause hs (by simpa using hparts.2)
  · rw [if_neg h]
    exact hs

theorem Acts.whenPaused : Act J E (do
    if (← getRun).pausedInPlace then do
      Supervisor.resume
      return none
    else return none) := by
  intro s hs
  unfold getRun
  simp only [all_bind, all_get, all_pure]
  by_cases h : s.run.pausedInPlace = true
  · rw [if_pos h, all_bind]
    exact l.resume hs h
  · rw [if_neg h]
    exact hs

/-! ## Output, controls and packets -/

theorem Acts.filterMessage (level : LogLevel) (configured : Text) {action : Text} (h : action ≠ [])
    (hlast : action.getLast? ≠ some 'd') : Within J E (log level .wrapper (filterMessage configured action)) :=
  l.keeps (keeps_filterMessage level configured h hlast)

theorem Acts.applyAction (matched : FilterMatch) (action : FilterAction) : Act J E (applyAction sup matched action) := by
  cases action with
  | none => exact act_none
  | debug => exact act_of_within (l.filterMessage _ _ (by decide) (by decide))
  | dump =>
    refine act_bind (l.filterMessage _ _ (by decide) (by decide)) (fun _ => ?_)
    exact act_of_within (l.keeps (keeps_requestThreadDump sup))
  | gc =>
    refine act_bind (l.filterMessage _ _ (by decide) (by decide)) (fun _ => ?_)
    exact act_of_within (l.tells _ _ .gc)
  | restart =>
    refine act_bind (l.filterMessage _ _ (by decide) (by decide)) (fun _ => act_bind (l.publishes _) (fun _ => ?_))
    exact act_of_final (l.restartWith false 0)
  | shutdown =>
    refine act_bind (l.filterMessage _ _ (by decide) (by decide)) (fun _ => ?_)
    exact act_of_final (l.stopWith 0)
  | pause =>
    intro s hs
    unfold Supervisor.applyAction getRun
    simp only [all_bind, all_get, all_pure]
    by_cases h : (sup.pausable && !s.run.pausedInPlace) = true
    · rw [if_pos h]
      have hheld : HeldAs J false s := ⟨hs, by simpa using (Bool.and_eq_true_iff.1 h).2⟩
      have hlog : Within (HeldAs J false) E (log .status .wrapper (Supervisor.filterMessage matched.message
          "Filter action: pausing.")) :=
        within_of_keeps (l.carriedHeld false) (keeps_filterMessage _ _ (by decide) (by decide))
      rw [all_bind]
      exact (hlog s hheld).mono (fun _ t ht => l.pause ht.1 ht.2) (fun _ _ h => h) (fun _ h => h)
    · rw [if_neg h]
      exact hs
  | resume =>
    intro s hs
    unfold Supervisor.applyAction getRun
    simp only [all_bind, all_get, all_pure]
    by_cases h : s.run.pausedInPlace = true
    · rw [if_pos h]
      have hlog : Within (HeldAs J true) E (log .status .wrapper (Supervisor.filterMessage matched.message
          "Filter action: resuming.")) :=
        within_of_keeps (l.carriedHeld true) (keeps_filterMessage _ _ (by decide) (by decide))
      rw [all_bind]
      refine (hlog s ⟨hs, h⟩).mono (fun _ t ht => ?_) (fun _ _ h => h) (fun _ h => h)
      rw [all_bind]
      exact l.resume ht.1 ht.2
    · rw [if_neg h]
      exact hs

theorem Acts.handleOutputLine (line : Bytes) : Act J E (handleOutputLine sup line) :=
  act_bind (l.keeps (keeps_recordOutput sup line))
    (fun found => act_forEach (fun matched => act_forEach (l.applyAction matched) matched.actions) found)

theorem Acts.handleOutputBatch (first : Bytes) : Act J E (handleOutputBatch sup first) := by
  have hbatch : Keeps R (takeBatch .batch outputBatch) := by
    unfold takeBatch
    refine keeps_bind keeps_ask (fun _ => keeps_bind keeps_get (fun u => ?_))
    refine keeps_bind (keeps_touch (fun _ => .of_core rfl)) (fun _ => ?_)
    exact keeps_bind (fun s => Aside.batch s _) (fun _ => keeps_pure _)
  intro s hs
  unfold Supervisor.handleOutputBatch
  rw [all_bind]
  refine (l.handleOutputLine first s hs).mono (fun r t ht => ?_) (fun _ _ h => h) (fun _ h => h)
  cases r with
  | some o => exact ht
  | none => exact act_bind (l.keeps hbatch) (fun batch => act_forEach l.handleOutputLine batch) t ht

theorem Acts.handleControl (control : Control) : Act J E (handleControl sup control) := by
  cases control with
  | stop => exact act_of_final (l.stopWith 0)
  | consoleInterrupt =>
    exact act_bind (l.logs (not_marker_of_head _ _ _ _ (by decide))) (fun _ => act_of_final (l.stopWith 0))
  | consoleBreak =>
    refine act_bind (l.logs (not_marker_of_head _ _ _ _ (by decide))) (fun _ => ?_)
    exact act_of_within (l.keeps (keeps_requestThreadDump sup))
  | pause => exact l.whenPausable
  | resume => exact l.whenPaused
  | threadDump =>
    refine act_bind (l.logs (not_marker_of_head _ _ _ _ (by decide))) (fun _ => ?_)
    exact act_of_within (l.keeps (keeps_requestThreadDump sup))
  | heapDump => exact act_of_within (l.keeps (keeps_startHeapDump sup))
  | user code => exact act_of_within (l.tells _ _ (.user code))

theorem Acts.handleStop (message : Bytes) : Final J E (handleStop sup message) := by
  refine final_after (l.shuts _) (fun _ => final_of_keeps l.outside ?_)
  refine keeps_bind (keeps_tryWait (by decide)) (fun _ => keeps_bind (keeps_logJvmExit _) (fun _ => ?_))
  exact keeps_bind keeps_elapsed (fun _ => keeps_pure _)

theorem Acts.handleStarted : Within J E handleStarted := by
  unfold Supervisor.handleStarted
  refine within_bind (l.keeps (keeps_modifyRun (fun _ => .of_core rfl))) (fun _ => ?_)
  refine within_bind (l.keeps keeps_getRun) (fun run => within_bind (l.publishes _) (fun _ => ?_))
  exact l.keeps (keeps_runIf (fun s => Aside.published s _))

theorem Acts.handlePacket (packet : Packet) : Act J E (handlePacket sup packet) := by
  unfold Supervisor.handlePacket
  split
  · exact act_of_within l.handleStarted
  split
  · exact act_of_within (l.keeps (keeps_handleStartPending _))
  split
  · exact act_of_final (final_bind (l.publishes _) (fun _ => l.restartWith false 0))
  split
  · exact act_of_final (l.handleStop _)
  split
  · exact act_bind (l.keeps keeps_getRun) (fun run => act_of_within (l.keeps (keeps_logBytes _ _ _)))
  · exact act_none

theorem Acts.handleProtocol (event : ReceiveEvent) : Act J E (handleProtocol sup event) := by
  cases event with
  | disconnected => exact act_of_within l.drops
  | packet packet =>
    rw [handleProtocol_packet]
    exact act_bind (l.keeps keeps_answered) (fun _ => l.handlePacket packet)

/-! ## The tick -/

theorem Acts.authenticate : Within J E (authenticate sup) := by
  intro s hs
  unfold Supervisor.authenticate getRun
  simp only [all_bind, all_get, all_pure]
  by_cases hconn : s.run.connection.isSome = true
  · rw [if_pos hconn]
    exact hs
  rw [if_neg hconn, all_bind]
  have hnone : s.run.connection = none := by simpa using hconn
  refine ((ask_spec (R := R) s).and (ask_spec (R := StaysDown) s)).mono (fun a t ht => ?_) (fun _ _ h => h.1.elim)
    (fun t ht => l.inside.cut t (l.inside.after s t hs ht.1))
  obtain ⟨hR, hdown⟩ := ht
  have hJ := l.inside.after s t hs hR
  unfold modifyRun
  rw [all_bind, all_modify]
  generalize hpolled : t.run.listener = listener
  have hlistener : ∀ next, J { t with run := { t.run with listener := next } } :=
    fun next => l.inside.after t _ hJ (Steady.same (.of_core rfl))
  generalize (s.run.listener.pollAuthentication s.run.key.asBytes
    (max (Duration.fromSecs s.run.startupSeconds) minHandshakeTimeout) a.poll) = polled
  have hafter := hlistener polled.1
  cases hresult : polled.2.2 with
  | error e => exact l.inside.err _ hafter
  | ok found =>
    cases found with
    | none => exact hafter
    | some connection => exact l.greets _ _ hafter (hdown hnone)

theorem Acts.restartOverdue : Final J E (restartOverdue sup) := by
  unfold Supervisor.restartOverdue
  refine final_bind (l.keeps keeps_getRun) (fun run => ?_)
  exact final_bind (l.logs (not_marker_of_level (by decide))) (fun _ => l.restartWith true 1)

theorem Acts.pingIfDue (now : Instant) : Within J E (pingIfDue now) := by
  unfold Supervisor.pingIfDue
  refine within_bind (l.keeps keeps_getRun) (fun run => ?_)
  split
  · exact within_bind (l.tells _ _ (.ping run.started)) (fun _ => l.keeps (fun s => Timing.nextPing s _))
  · exact within_pure _

theorem Acts.watchPing (now : Instant) : Act J E (watchPing sup now) := by
  intro s hs
  unfold Supervisor.watchPing
  rw [all_bind, all_get]
  have hcheck := l.inside.after s _ hs (Timing.check s now)
  simp only [emit]
  rw [all_bind, all_modify]
  split
  · exact act_bind (l.logs (not_marker_of_level (by decide))) (fun _ => act_of_final (l.restartWith true 1)) _ hcheck
  · exact hcheck

theorem Acts.exitSeen (exitCode : Option Int) : Final J E (exitSeen sup exitCode) := by
  unfold Supervisor.exitSeen
  refine final_bind (l.keeps (keeps_drainRemainingOutput sup)) (fun _ => ?_)
  refine final_bind (l.keeps (keeps_logJvmExit _)) (fun _ => ?_)
  intro s hs
  exact (within_of_keeps l.inside (keeps_bind keeps_elapsed (fun _ => keeps_pure _)) s hs).mono
    (fun _ t ht => l.inside.err t ht) (fun _ _ h => h) (fun _ h => h)

theorem Acts.tick : Act J E (tick sup) := by
  unfold Supervisor.tick
  refine act_bind (l.keeps keeps_pollHeapDump) (fun _ => act_bind (l.keeps (keeps_tryWait_of (fun s _ _ => Aside.waited s _ _ _))) ?_)
  intro status
  cases status with
  | some exitCode => exact act_of_final (l.exitSeen exitCode)
  | none =>
    refine act_bind l.authenticate (fun _ => act_bind (l.keeps keeps_now) (fun now => ?_))
    refine act_bind (l.keeps keeps_getRun) (fun run => ?_)
    split
    · exact act_of_final l.restartOverdue
    · exact act_bind (l.pingIfDue now) (fun _ => l.watchPing now)

/-- **Every turn.** -/
theorem Acts.serve (arm : Arm) : Act J E (serve sup arm) := by
  cases arm with
  | output line =>
    cases line with
    | some line => exact l.handleOutputBatch line
    | none => exact act_of_within (l.keeps (keeps_modifyRun (fun _ => .of_core rfl)))
  | control control =>
    cases control with
    | some control => exact l.handleControl control
    | none => exact act_of_final (l.stopWith 0)
  | protocol event =>
    cases event with
    | some event => exact l.handleProtocol event
    | none => exact act_of_within l.drops
  | tick => exact l.tick

/-- **The event loop**, from what reading its channels does. -/
theorem Acts.eventLoop (hselected : ∀ s arm t, J s → Selected s arm t → J t) {s : Sys} (hs : J s) :
    (eventLoop sup s).All (fun _ => E) (fun _ => E) E := by
  refine all_eventLoop (I := J) (fun t ht => ?_) (fun t ht => l.inside.cut t ht) s
    (fun next => l.inside.after s _ hs (Steady.same (.of_core rfl)))
  refine (select_spec (R := R) t).mono (fun arm v hv => ?_) (fun _ _ h => h.elim)
    (fun u hu => l.inside.cut u (l.inside.after t u ht hu))
  obtain ⟨u, hu, hsel⟩ := hv
  refine (l.serve arm v (hselected u arm v (l.inside.after t u ht hu) hsel)).mono (fun r w hw => ?_) (fun _ _ h => h)
    (fun _ h => h)
  cases r with
  | none => exact hw
  | some o => exact hw

end Handlers

end Supervisor
end Jss
