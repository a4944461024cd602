import ServiceSteward.Frame
/-!
# Turns — what one turn of the event loop does to a run

A turn either leaves the run going or ends it with an outcome.  `Turn W D` says which relations it keeps in each case
(`Ways`), and that `D` holds of the outcome it ends with.  `Closing` is what a claim has to show of shutting down and of
the few state changes that are not plain; every handler then has its `Turn` (`turn_tick`, `turn_handleControl` and the
others).
-/
namespace Jss
namespace Supervisor

open Protocol (Packet ReceiveEvent STARTED)
open Scripted

/-- The JVM paused in place, or not any more. -/
def Sys.setPausedInPlace (s : Sys) (paused : Bool) : Sys := { s with run := { s.run with pausedInPlace := paused } }

/-- The relations of a turn: where it leaves the run going, where it ends it, where it fails, and where it is still
under way. -/
structure Ways where
  on : Sys → Sys → Prop
  ended : Sys → Sys → Prop
  err : Sys → Sys → Prop
  cut : Sys → Sys → Prop

/-- Each of the relations is weaker than the one before it. -/
class Ways.Lawful (W : Ways) : Prop where
  on : Steady W.on
  ended : IsPreorder Sys W.ended
  le : ∀ {s t}, W.on s t → W.ended s t
  err : Cut W.ended W.err
  cut : Cut W.ended W.cut

/-- One relation, however the turn stops. -/
abbrev Ways.all (R : Sys → Sys → Prop) : Ways := ⟨R, R, R, R⟩

instance {R : Sys → Sys → Prop} [h : Steady R] : (Ways.all R).Lawful where
  on := h
  ended := h.toIsPreorder
  le h := h
  err := inferInstanceAs (Cut R R)
  cut := inferInstanceAs (Cut R R)

section Lawful

variable {W : Ways} [W.Lawful]

instance : Steady W.on := Ways.Lawful.on

instance : IsPreorder Sys W.ended := Ways.Lawful.ended

instance : Cut W.ended W.err := Ways.Lawful.err

instance : Cut W.ended W.cut := Ways.Lawful.cut

instance : Cut W.on W.ended where
  after h h' := trans_of W.ended (Ways.Lawful.le h) h'
  of := Ways.Lawful.le

instance : Cut W.on W.err where
  after h h' := After.after (Ways.Lawful.le h) h'
  of h := Cut.of (Ways.Lawful.le h)

instance : Cut W.on W.cut where
  after h h' := After.after (Ways.Lawful.le h) h'
  of h := Cut.of (Ways.Lawful.le h)

end Lawful

/-- What is said of a turn's result. -/
def Ways.result (W : Ways) (D : RunOutcome → Sys → Prop) (s : Sys) : Option RunOutcome → Sys → Prop
  | none, t => W.on s t
  | some o, t => W.ended s t ∧ D o t

theorem Ways.relates {R : Sys → Sys → Prop} {D : RunOutcome → Sys → Prop} {s t : Sys} {r : Option RunOutcome}
    (h : (Ways.all R).result D s r t) : R s t := by
  cases r with
  | none => exact h
  | some o => exact h.1

/-- A program that may end the run. -/
def Turn (W : Ways) (D : RunOutcome → Sys → Prop) (p : Run (Option RunOutcome)) : Prop :=
  ∀ s, (p s).All (W.result D s) (fun _ => W.err s) (W.cut s)

/-- A program that ends the run, other than by a pause, with the JVM down. -/
def Ends (W : Ways) (Down : Sys → Prop) (p : Run RunOutcome) : Prop :=
  ∀ s, (p s).All (fun o t => W.ended s t ∧ Down t ∧ o ≠ .pause) (fun _ => W.err s) (W.cut s)

/-- Only what all steady relations keep has happened. -/
def Still (s t : Sys) : Prop := ∀ R : Sys → Sys → Prop, Steady R → R s t

/-- ... and the last lines may have been taken. -/
def Calm (s t : Sys) : Prop := ∀ R : Sys → Sys → Prop, Outputting R → R s t

instance : Steady Still where
  refl s R _ := refl_of R s
  trans _ _ _ h h' R hR := trans_of R (h R hR) (h' R hR)
  same h _ _ := Steady.same h
  move s m _ _ := Steady.move s m
  note s o h _ _ := Steady.note s o h

instance : Outputting Calm where
  refl s R _ := refl_of R s
  trans _ _ _ h h' R hR := trans_of R (h R hR) (h' R hR)
  same h _ _ := Steady.same h
  move s m _ _ := Steady.move s m
  note s o h _ _ := Steady.note s o h
  took s site lines h h' _ _ := Outputting.took s site lines h h'
  recorded s line _ _ := Outputting.recorded s line

theorem Still.keeps {R : Sys → Sys → Prop} [h : Steady R] {s t : Sys} (hst : Still s t) : R s t := hst R h

theorem Calm.keeps {R : Sys → Sys → Prop} [h : Outputting R] {s t : Sys} (hst : Calm s t) : R s t := hst R h

theorem Still.calm {s t : Sys} (h : Still s t) : Calm s t := fun _ hR => h _ hR.toSteady

/-- A program that makes an outcome, other than a pause. -/
def Yields (W : Ways) (p : Run RunOutcome) : Prop :=
  ∀ s, (p s).All (fun o t => W.ended s t ∧ Calm s t ∧ o ≠ .pause) (fun _ => W.err s) (W.cut s)

/-- A packet is heard from the JVM. -/
def answered : Run Unit := do
  let now ← now
  modifyRun (fun run => { run with lastPingResponse := now })

theorem keeps_answered {R : Sys → Sys → Prop} [Timing R] : Keeps R answered :=
  keeps_bind keeps_now (fun _ s => Timing.answered s _)

theorem handleProtocol_packet (sup : Supervisor) (packet : Packet) :
    handleProtocol sup (.packet packet) = answered >>= fun _ => handlePacket sup packet :=
  (bind_assoc _ _ _).symm

/-- **What a claim shows once**, to know every turn: how the JVM goes down, and what the operations that are not plain
do to its relations. -/
structure Closing (sup : Supervisor) (W : Ways) (Down : Sys → Prop) (D : RunOutcome → Sys → Prop) : Prop where
  publish : ∀ s kind, (∀ id pid, kind ≠ .jvmStarted id pid) → kind.dumping = false →
    W.on s (s.note (.published kind))
  hold : sup.pausableStopsJvm = false → ∀ s, W.on s (s.setPausedInPlace true)
  release : ∀ s, W.on s (s.setPausedInPlace false)
  join : ∀ s events now, s.run.connection = none → W.on s (s.join events now)
  drain : Stops W.ended W.err W.cut (drainRemainingOutput sup)
  stable : ∀ s t, Calm s t → Down s → Down t
  shutdown : ∀ code s, (shutdownAndDrain sup code s).All (fun _ t => W.ended s t ∧ Down t) (fun _ => W.err s) (W.cut s)
  ended : ∀ o s, Down s → o ≠ .pause → D o s
  paused : ∀ s, Down s → D .pause (s.note (.published .servicePaused))
  -- what a frame keeps anyway
  sends : ∀ code message, Stops W.on W.err W.cut (sendIfConnected code message) := by
    exact fun _ _ => (keeps_sendIfConnected _ _).stops
  writes : ∀ code message s, s.run.connection = none →
      (send code message s).All (fun _ => W.on s) (fun _ => W.err s) (W.cut s) := by
    exact fun code message s _ => (keeps_send code message).stops s
  disconnect : Stops W.on W.err W.cut markDisconnected := by exact keeps_markDisconnected.stops
  startDump : Stops W.on W.err W.cut (startHeapDump sup) := by exact (keeps_startHeapDump _).stops
  heard : Stops W.on W.err W.cut answered := by exact keeps_answered.stops

section Rules

variable {W : Ways} [W.Lawful] {D : RunOutcome → Sys → Prop} {Down : Sys → Prop} {α : Type}

/-- What a turn says still holds of a start before it. -/
theorem turn_after {s t : Sys} (hst : W.on s t) {o : Outcome Sys Error (Option RunOutcome)}
    (h : o.All (W.result D t) (fun _ => W.err t) (W.cut t)) : o.All (W.result D s) (fun _ => W.err s) (W.cut s) := by
  refine h.mono (fun r u hu => ?_) (fun _ _ hu => After.after hst hu) (fun _ hu => After.after hst hu)
  cases r with
  | none => exact trans_of W.on hst hu
  | some o => exact ⟨After.after hst hu.1, hu.2⟩

theorem turn_none : Turn W D (pure none) := fun s => refl_of W.on s

theorem turn_step {p : Run α} {f : α → Run (Option RunOutcome)} (hp : Stops W.on W.err W.cut p)
    (hf : ∀ a, Turn W D (f a)) : Turn W D (p >>= f) := by
  intro s
  rw [all_bind]
  exact (hp s).mono (fun a t ht => turn_after ht (hf a t)) (fun _ _ h => h) (fun _ h => h)

theorem turn_bind {p : Run α} {f : α → Run (Option RunOutcome)} (hp : Keeps W.on p) (hf : ∀ a, Turn W D (f a)) :
    Turn W D (p >>= f) := turn_step hp.stops hf

theorem turn_of_stops {p : Run α} (h : Stops W.on W.err W.cut p) : Turn W D (p >>= fun _ => pure none) :=
  turn_step h (fun _ => turn_none)

theorem turn_of_keeps {p : Run α} (h : Keeps W.on p) : Turn W D (p >>= fun _ => pure none) := turn_of_stops h.stops

theorem turn_forEach {body : α → Run (Option RunOutcome)} (h : ∀ a, Turn W D (body a)) :
    ∀ as : List α, Turn W D (Prog.forEach body as)
  | [] => turn_none
  | a :: as => by
    intro s
    rw [Prog.forEach, all_bind]
    refine (h a s).mono (fun r t ht => ?_) (fun _ _ h => h) (fun _ h => h)
    cases r with
    | some o => exact ht
    | none => exact turn_after ht (turn_forEach h as t)

theorem ends_bind {p : Run α} {f : α → Run RunOutcome} (hp : Keeps W.on p) (hf : ∀ a, Ends W Down (f a)) :
    Ends W Down (p >>= f) := by
  intro s
  rw [all_bind]
  refine (hp s).mono (fun a t ht => ?_) (fun _ _ h => Cut.of h) (fun _ h => Cut.of h)
  exact all_after (Ways.Lawful.le ht) (hf a t)

theorem yields_pure {o : RunOutcome} (h : o ≠ .pause) : Yields W (pure o) :=
  fun s => ⟨refl_of W.ended s, refl_of Calm s, h⟩

theorem yields_step {p : Run α} {f : α → Run RunOutcome} (hp : Stops W.ended W.err W.cut p) (hp' : Keeps Calm p)
    (hf : ∀ a, Yields W (f a)) : Yields W (p >>= f) := by
  intro s
  rw [all_bind]
  refine ((hp s).and (hp' s)).mono (fun a t ht => ?_) (fun _ _ h => h.1) (fun _ h => h.1)
  have hrest : (f a t).All (fun o u => W.ended t u ∧ Calm s u ∧ o ≠ .pause) (fun _ => W.err t) (W.cut t) :=
    (hf a t).mono (fun o u hu => ⟨hu.1, trans_of Calm ht.2 hu.2.1, hu.2.2⟩) (fun _ _ h => h) (fun _ h => h)
  exact all_after ht.1 hrest

theorem yields_bind {p : Run α} {f : α → Run RunOutcome} (hp : Keeps Still p) (hf : ∀ a, Yields W (f a)) :
    Yields W (p >>= f) := by
  have hon : Keeps W.on p := fun s => (hp s).mono (fun _ _ h => h.keeps) (fun _ _ h => h.keeps) (fun _ h => h.keeps)
  have hcalm : Keeps Calm p := fun s => (hp s).mono (fun _ _ h => h.calm) (fun _ _ h => h.calm) (fun _ h => h.calm)
  exact yields_step (fun s => (hon s).mono (fun _ _ h => Ways.Lawful.le h) (fun _ _ h => Cut.of h) (fun _ h => Cut.of h))
    hcalm hf

/-- The JVM stays down while an outcome is made of it. -/
theorem ends_of_down (hstable : ∀ s t, Calm s t → Down s → Down t) {p : Run Unit} {q : Run RunOutcome}
    (hp : ∀ s, (p s).All (fun _ t => W.ended s t ∧ Down t) (fun _ => W.err s) (W.cut s)) (hq : Yields W q) :
    Ends W Down (p >>= fun _ => q) := by
  intro s
  rw [all_bind]
  refine (hp s).mono (fun _ t ht => ?_) (fun _ _ h => h) (fun _ h => h)
  obtain ⟨hR, hDown⟩ := ht
  have hend : (q t).All (fun o u => W.ended t u ∧ Down u ∧ o ≠ .pause) (fun _ => W.err t) (W.cut t) :=
    (hq t).mono (fun o u hu => ⟨hu.1, hstable t u hu.2.1 hDown, hu.2.2⟩) (fun _ _ h => h) (fun _ h => h)
  exact all_after hR hend

end Rules

/-! ## The connection that is not there -/

/-- A connection that is gone stays gone until the next one is taken into use. -/
def StaysDown (s t : Sys) : Prop := s.run.connection = none → t.run.connection = none

instance : Frame StaysDown where
  refl _ h := h
  trans _ _ _ h h' hs := h' (h hs)
  same _ _ hc _ hs := by rw [hc]; exact hs
  move s m hs := by
    cases m with
    | deliver event => simp only [Sys.move, hs]
    | output line => simp only [Sys.move]; split <;> exact hs
    | exit code => simp only [Sys.move]; split <;> exact hs
    | dumped worker result => simp only [Sys.move]; split <;> exact hs
    | _ => exact hs
  note _ _ _ hs := hs
  drop _ _ _ _ := rfl
  reap _ _ _ hs := hs

section Handlers

variable {sup : Supervisor} {W : Ways} [W.Lawful] {Down : Sys → Prop} {D : RunOutcome → Sys → Prop}
  (c : Closing sup W Down D)

theorem turn_of_ends (h : Closing sup W Down D) {p : Run RunOutcome} (hp : Ends W Down p) :
    Turn W D (p >>= fun o => pure (some o)) := by
  intro s
  rw [all_bind]
  exact (hp s).mono (fun o t ht => ⟨ht.1, h.ended o t ht.2.1 ht.2.2⟩) (fun _ _ h => h) (fun _ h => h)

include c

theorem ends_stopWith (exitCode : Int) : Ends W Down (stopWith sup exitCode) :=
  ends_of_down c.stable (c.shutdown exitCode) (yields_pure (by simp))

theorem ends_restartWith (automatic : Bool) (exitCode : Int) : Ends W Down (restartWith sup automatic exitCode) :=
  ends_of_down c.stable (c.shutdown exitCode) (yields_bind keeps_elapsed (fun _ => yields_pure (by simp)))

theorem turn_pause : Turn W D (pause sup) := by
  unfold pause
  split
  · intro s
    rw [all_bind]
    refine (c.shutdown 0 s).mono (fun _ t ht => ?_) (fun _ _ h => h) (fun _ h => h)
    exact ⟨trans_of W.ended ht.1 (Ways.Lawful.le (c.publish t _ (by simp) rfl)), c.paused t ht.2⟩
  · rename_i hstops
    refine turn_step (c.sends _ _) (fun sent => ?_)
    split
    · refine turn_bind (c.hold (by simpa using hstops)) (fun _ => ?_)
      exact turn_of_keeps (fun s => c.publish s _ (by simp) rfl)
    · exact turn_none

theorem stops_resume : Stops W.on W.err W.cut resume := by
  unfold resume
  refine stops_bind (c.sends _ _) (fun sent => ?_)
  split
  · have hrelease : Keeps W.on (modifyRun (fun run => { run with pausedInPlace := false })) := c.release
    have hpublish : Keeps W.on (publish .serviceResumed) := fun s => c.publish s _ (by simp) rfl
    exact (keeps_bind hrelease (fun _ => hpublish)).stops
  · exact (keeps_pure (R := W.on) _).stops

theorem turn_applyAction (matched : FilterMatch) (action : FilterAction) :
    Turn W D (applyAction sup matched action) := by
  cases action with
  | none => exact turn_none
  | debug => exact turn_of_keeps (keeps_filterMessage _ _ (by decide) (by decide))
  | dump =>
    refine turn_bind (keeps_filterMessage _ _ (by decide) (by decide)) (fun _ => ?_)
    exact turn_of_keeps (keeps_requestThreadDump sup)
  | gc =>
    refine turn_bind (keeps_filterMessage _ _ (by decide) (by decide)) (fun _ => ?_)
    exact turn_of_stops (c.sends _ _)
  | restart =>
    refine turn_bind (keeps_filterMessage _ _ (by decide) (by decide)) (fun _ => ?_)
    exact turn_bind (fun s => c.publish s _ (by simp) rfl) (fun _ => turn_of_ends c (ends_restartWith c false 0))
  | shutdown =>
    refine turn_bind (keeps_filterMessage _ _ (by decide) (by decide)) (fun _ => ?_)
    exact turn_of_ends c (ends_stopWith c 0)
  | pause =>
    refine turn_bind keeps_getRun (fun run => ?_)
    split
    · exact turn_bind (keeps_filterMessage _ _ (by decide) (by decide)) (fun _ => turn_pause c)
    · exact turn_none
  | resume =>
    refine turn_bind keeps_getRun (fun run => ?_)
    split
    · refine turn_bind (keeps_filterMessage _ _ (by decide) (by decide)) (fun _ => ?_)
      exact turn_of_stops (stops_resume c)
    · exact turn_none

theorem turn_applyFilterMatches (found : List FilterMatch) : Turn W D (applyFilterMatches sup found) :=
  turn_forEach (fun matched => turn_forEach (turn_applyAction c matched) matched.actions) found

theorem turn_handleControl (control : Control) : Turn W D (handleControl sup control) := by
  cases control with
  | stop => exact turn_of_ends c (ends_stopWith c 0)
  | consoleInterrupt =>
    refine turn_bind (keeps_log (not_marker_of_head _ _ _ _ (by decide))) (fun _ => ?_)
    exact turn_of_ends c (ends_stopWith c 0)
  | consoleBreak =>
    refine turn_bind (keeps_log (not_marker_of_head _ _ _ _ (by decide))) (fun _ => ?_)
    exact turn_of_keeps (keeps_requestThreadDump sup)
  | pause =>
    refine turn_bind keeps_getRun (fun run => ?_)
    split
    · exact turn_pause c
    · exact turn_none
  | resume =>
    refine turn_bind keeps_getRun (fun run => ?_)
    split
    · exact turn_of_stops (stops_resume c)
    · exact turn_none
  | threadDump =>
    refine turn_bind (keeps_log (not_marker_of_head _ _ _ _ (by decide))) (fun _ => ?_)
    exact turn_of_keeps (keeps_requestThreadDump sup)
  | heapDump => exact turn_of_stops c.startDump
  | user code => exact turn_of_stops (c.sends _ _)

theorem ends_handleStop (message : Bytes) : Ends W Down (handleStop sup message) := by
  refine ends_of_down c.stable (c.shutdown _) ?_
  refine yields_bind (keeps_tryWait (by decide)) (fun _ => yields_bind (keeps_logJvmExit _) (fun _ => ?_))
  exact yields_bind keeps_elapsed (fun _ => yields_pure (by simp))

theorem turn_handlePacket (packet : Packet) (hstarted : packet.code = STARTED → Keeps W.on handleStarted) :
    Turn W D (handlePacket sup packet) := by
  unfold handlePacket
  split
  · exact turn_of_keeps (hstarted ‹_›)
  split
  · exact turn_of_keeps (keeps_handleStartPending _)
  split
  · refine turn_of_ends c (ends_bind (fun s => c.publish s _ (by simp) rfl) (fun _ => ?_))
    exact ends_restartWith c false 0
  split
  · exact turn_of_ends c (ends_handleStop c _)
  split
  · exact turn_bind keeps_getRun (fun run => turn_of_keeps (keeps_logBytes _ _ _))
  · exact turn_none

theorem turn_handleProtocol (event : ReceiveEvent)
    (hstarted : ∀ packet, event = .packet packet → packet.code = STARTED → Keeps W.on handleStarted) :
    Turn W D (handleProtocol sup event) := by
  cases event with
  | disconnected => exact turn_of_stops c.disconnect
  | packet packet =>
    rw [handleProtocol_packet]
    exact turn_step c.heard (fun _ => turn_handlePacket c packet (hstarted packet rfl))

/-- A JVM that has reported started, where this counts for nothing. -/
theorem keeps_handleStarted (h : ∀ s id pid, W.on s (s.note (.published (.jvmStarted id pid)))) :
    Keeps W.on handleStarted := by
  unfold handleStarted
  refine keeps_bind (keeps_modifyRun (fun _ => .of_core rfl)) (fun _ => keeps_bind keeps_getRun (fun run => ?_))
  exact keeps_bind (fun s => h s _ _) (fun _ => keeps_runIf (fun s => c.publish s _ (by simp) rfl))

/-! ### The tick -/

/-- Connecting keeps the relation if there is no connection yet. -/
theorem stops_connect (events : List ReceiveEvent) (s : Sys) (hs : s.run.connection = none) :
    (connect sup events s).All (fun _ => W.on s) (fun _ => W.err s) (W.cut s) := by
  have hjoin : ∀ now t, t.run.connection = none →
      ((do Prog.modify (·.join events now); publish .protocolAuthenticated : Run Unit) t).All
        (fun _ => W.on t) (fun _ => W.err t) (W.cut t) := by
    intro now t ht
    exact trans_of W.on (c.join t events now ht) (Steady.note _ (.published .protocolAuthenticated) ⟨rfl, rfl⟩)
  unfold connect
  -- the connection stays away while the four packets are sent
  have step : ∀ {α β : Type} {p : Run α} {f : α → Run β} (t : Sys), t.run.connection = none →
      (p t).All (fun _ => W.on t) (fun _ => W.err t) (W.cut t) → Keeps StaysDown p →
      (∀ a u, u.run.connection = none → ((f a) u).All (fun _ => W.on u) (fun _ => W.err u) (W.cut u)) →
      ((p >>= f) t).All (fun _ => W.on t) (fun _ => W.err t) (W.cut t) := by
    intro α β p f t ht hp hp' hf
    rw [all_bind]
    refine (hp.and (hp' t)).mono (fun a u hu => ?_) (fun _ _ hu => hu.1) (fun _ hu => hu.1)
    refine (hf a u (hu.2 ht)).mono (fun _ v hv => trans_of W.on hu.1 hv) ?_ ?_
    · exact fun _ v hv => After.after hu.1 hv
    · exact fun v hv => After.after hu.1 hv
  refine step s hs (c.writes _ _ s hs) (keeps_send _ _) (fun _ s hs => ?_)
  refine step s hs (keeps_ask.stops s) keeps_ask (fun a s hs => ?_)
  refine step s hs (c.writes _ _ s hs) (keeps_send _ _) (fun _ s hs => ?_)
  refine step s hs (c.writes _ _ s hs) (keeps_send _ _) (fun _ s hs => ?_)
  refine step s hs (c.writes _ _ s hs) (keeps_send _ _) (fun _ s hs => ?_)
  refine step s hs (keeps_getRun.stops s) keeps_getRun (fun run s hs => ?_)
  have hlog : ∀ {R' : Sys → Sys → Prop} [Steady R'], Keeps R' (runIf run.everConnected
      (log .debug .protocol "JVM control channel reconnected.")) :=
    fun {R'} _ => keeps_runIf (keeps_log (not_marker_of_level (by decide)))
  refine step s hs (hlog.stops s) hlog (fun _ s hs => ?_)
  exact step s hs (keeps_now.stops s) keeps_now (fun now s hs => hjoin now s hs)

theorem stops_afterPoll (result : Except Error (Option Protocol.Connection)) (s : Sys)
    (hs : s.run.connection = none) : (afterPoll sup result s).All (fun _ => W.on s) (fun _ => W.err s) (W.cut s) := by
  have hrefl : W.on s s := refl_of W.on s
  cases result with
  | error e => exact Cut.of hrefl
  | ok found =>
    cases found with
    | none => exact hrefl
    | some connection => exact stops_connect c _ s hs

theorem stops_authenticate : Stops W.on W.err W.cut (authenticate sup) := by
  intro s
  unfold authenticate getRun
  simp only [all_bind, all_get, all_pure]
  split
  · exact refl_of W.on s
  · rename_i hconn
    have hnone : s.run.connection = none := by simpa using hconn
    rw [all_bind]
    refine ((ask_spec (R := W.on) s).and (ask_spec (R := StaysDown) s)).mono (fun a t ht => ?_) ?_ ?_
    · obtain ⟨hR, hdown⟩ := ht
      have hlistener : ∀ l, W.on s { t with run := { t.run with listener := l } } := fun l => by
        have hsame : W.on t { t with run := { t.run with listener := l } } := Steady.same (.of_core rfl)
        exact trans_of W.on hR hsame
      unfold modifyRun
      rw [all_bind, all_modify]
      refine (stops_afterPoll c _ _ (by exact hdown hnone)).mono ?_ ?_ ?_
      · exact fun _ u hu => trans_of W.on (hlistener _) hu
      · exact fun _ u hu => After.after (hlistener _) hu
      · exact fun u hu => After.after (hlistener _) hu
    · exact fun _ t ht => ht.1.elim
    · exact fun t ht => Cut.of ht.1

theorem ends_restartOverdue : Ends W Down (restartOverdue sup) := by
  unfold restartOverdue
  refine ends_bind keeps_getRun (fun run => ends_bind (keeps_log (not_marker_of_level (by decide))) (fun _ => ?_))
  exact ends_restartWith c true 1

theorem turn_watchPing [Timing W.on] (now : Instant) : Turn W D (watchPing sup now) := by
  intro s
  unfold watchPing
  rw [all_bind, all_get]
  have hrest : Turn W D (if pingOverdue s.run now then do
      log .error .wrapper ("No ping response from the JVM for ".toList ++ Text.ofNat (allowedSilence s.run).asSecs
        ++ " seconds; restarting.".toList)
      return some (← restartWith sup true 1)
    else return none) := by
    split
    · refine turn_bind (keeps_log (not_marker_of_level (by decide))) (fun _ => ?_)
      exact turn_of_ends c (ends_restartWith c true 1)
    · exact turn_none
  exact turn_after (Timing.check s now) (hrest _)

theorem yields_exitSeen (exitCode : Option Int) : Yields W (exitSeen sup exitCode) := by
  unfold exitSeen
  refine yields_step c.drain (keeps_drainRemainingOutput sup) (fun _ => yields_bind (keeps_logJvmExit _) (fun _ => ?_))
  exact yields_bind keeps_elapsed (fun _ => yields_pure (by simp))

/-- The tick while the child runs. -/
theorem turn_alive [Timing W.on] : Turn W D (do
    authenticate sup
    let now ← now
    if startupOverdue (← getRun) now then return some (← restartOverdue sup)
    else do
      pingIfDue now
      watchPing sup now) := by
  refine turn_step (stops_authenticate c) (fun _ => turn_bind keeps_now (fun now => ?_))
  refine turn_bind keeps_getRun (fun run => ?_)
  split
  · exact turn_of_ends c (ends_restartOverdue c)
  · exact turn_step (stops_pingIfDue Timing.nextPing c.sends now) (fun _ => turn_watchPing c now)

/-- The tick that sees the child exited. -/
theorem turn_exitSeen {s : Sys} (hs : Down s) (exitCode : Option Int) :
    ((exitSeen sup exitCode >>= fun o => pure (some o)) s).All
      (fun r t => ∃ o, r = some o ∧ W.ended s t ∧ D o t) (fun _ => W.err s) (W.cut s) := by
  rw [all_bind]
  refine (yields_exitSeen c exitCode s).mono (fun o t ht => ?_) (fun _ _ h => h) (fun _ h => h)
  exact ⟨o, rfl, ht.1, c.ended o t (c.stable s t ht.2.1 hs) ht.2.2⟩

theorem turn_tick [Timing W.on] (hpoll : Stops W.on W.err W.cut pollHeapDump) (hseen : ∀ s, (tryWait .tick s).All
    (fun status t => match status with | none => W.on s t | some _ => W.ended s t ∧ Down t) (fun _ => W.err s)
      (W.cut s)) : Turn W D (tick sup) := by
  unfold tick
  refine turn_step hpoll (fun _ s => ?_)
  rw [all_bind]
  refine (hseen s).mono (fun status t ht => ?_) (fun _ _ h => h) (fun _ h => h)
  cases status with
  | some exitCode =>
    refine (turn_exitSeen c ht.2 exitCode).mono (fun r u hu => ?_) (fun _ _ h => After.after ht.1 h)
      (fun _ h => After.after ht.1 h)
    obtain ⟨o, rfl, hover, hD⟩ := hu
    exact ⟨trans_of W.ended ht.1 hover, hD⟩
  | none => exact turn_after ht (turn_alive c t)

end Handlers

end Supervisor
end Jss
