import ServiceSteward.Lifecycle
import ServiceSteward.Monitor
import ServiceSteward.Phases
/-!
# PausedState — what the service reports while it is paused

The status reporter follows the events: a started JVM and a resumption show the service running, a pause shows it
paused.  `lastShown` is the last of these events.  A pause that the supervisor makes itself is published; the one that
`wrapper.on_exit.<code>=PAUSE` makes of an exit is not, so there the event has to be the last one already.
-/
namespace Jss
namespace Supervisor

open Scripted

/-- `ServiceState`, as far as the status reporter and the start of the service set it. -/
inductive ServiceState where
  | startPending | running | paused
  deriving DecidableEq, Repr

/-- `status_reporter`, event by event. -/
def statusReporter (state : ServiceState) : EventKind → ServiceState
  | .jvmStarted _ _ | .serviceResumed => .running
  | .servicePaused => .paused
  | _ => state

/-- The events that the status reporter acts on. -/
def EventKind.shows : EventKind → Bool
  | .jvmStarted _ _ | .servicePaused | .serviceResumed => true
  | _ => false

/-- The service's state as reported. -/
def status : Monitor ServiceState Obs where
  start := .startPending
  step state
    | .published kind => statusReporter state kind
    | _ => state

/-- The last event published among `JvmStarted`, `ServicePaused` and `ServiceResumed`. -/
def lastShown : Monitor (Option EventKind) Obs where
  start := none
  step last
    | .published kind => if kind.shows then some kind else last
    | _ => last

/-- **The reporter shows the service paused exactly if the last event was a pause.** -/
theorem status_paused (trace : List Obs) : status.after trace = .paused ↔ lastShown.after trace = some .servicePaused := by
  induction trace using List.reverseRecOn with
  | nil => exact ⟨by decide, by decide⟩
  | append_singleton trace o ih =>
    rw [Monitor.after_concat, Monitor.after_concat]
    cases o with
    | published kind =>
      cases kind with
      | jvmStarted id pid => simp [status, lastShown, statusReporter, EventKind.shows]
      | servicePaused => simp [status, lastShown, statusReporter, EventKind.shows]
      | serviceResumed => simp [status, lastShown, statusReporter, EventKind.shows]
      | _ => exact ih
    | _ => exact ih

/-- Where the supervisor waits for a control while paused, the last event is a pause. -/
def PausedIsShown : List Obs → Prop := lastShown.Always (fun last o => o = .waitingPaused → last = some .servicePaused)

/-- Where an exit is turned into a pause, the last event is a pause already. -/
def ExitsWhilePaused (sup : Supervisor) : List Obs → Prop :=
  lastShown.Always (fun last o => sup.pausable = true → (∃ code, o = .exitAction code .pause) →
    last = some .servicePaused)

/-! ## What leaves the two alone -/

/-- What one JVM may add to the trace. -/
def Obs.inside (o : Obs) : Prop := o ≠ .waitingPaused ∧ ∀ code action, o ≠ .exitAction code action

/-- And no event that is shown. -/
def Obs.unshown (o : Obs) : Prop := o.inside ∧ ∀ last, lastShown.step last o = last

theorem plain_inside (o : Obs) (h : o.plain) : o.inside := by
  refine ⟨?_, fun code action => ?_⟩
  · rintro rfl
    exact h
  · rintro rfl
    exact h

instance : Loose Obs.inside where
  plain := plain_inside
  delivered _ := by simp [Obs.inside]
  dropped _ := by simp [Obs.inside]
  told _ _ := by simp [Obs.inside]
  started _ _ := by simp [Obs.inside]
  waited _ _ _ := by simp [Obs.inside]
  took _ _ := by simp [Obs.inside]
  recorded _ := by simp [Obs.inside]
  received _ := by simp [Obs.inside]
  connected := by simp [Obs.inside]

instance : Quiet Obs.unshown where
  plain o h := by
    refine ⟨plain_inside o h, fun last => ?_⟩
    cases o with
    | published kind =>
      cases kind with
      | jvmStarted id pid => cases h
      | servicePaused => cases h
      | serviceResumed => cases h
      | _ => rfl
    | _ => rfl
  delivered _ := ⟨by simp [Obs.inside], fun _ => rfl⟩
  dropped _ := ⟨by simp [Obs.inside], fun _ => rfl⟩

/-- What a run that meets the condition has shown. -/
def PausesShown (sup : Supervisor) (s : Sys) : Prop :=
  ExitsWhilePaused sup s.trace →
    PausedIsShown s.trace ∧ status.Always (fun state o => o = .waitingPaused → state = .paused) s.trace

/-! ## The phases of a run -/

section Showing

variable (sup : Supervisor)

/-- Every pause so far was shown, if every exit turned into a pause came while one was shown. -/
def ShownSoFar (s : Sys) : Prop := ExitsWhilePaused sup s.trace → PausedIsShown s.trace

/-- And one is shown now. -/
def ShownNow (s : Sys) : Prop :=
  ExitsWhilePaused sup s.trace → PausedIsShown s.trace ∧ lastShown.after s.trace = some .servicePaused

variable {sup}

theorem ShownSoFar.after {s t : Sys} (h : ShownSoFar sup s) (hst : Emits Obs.inside s t) : ShownSoFar sup t := by
  obtain ⟨new, htrace, hnew⟩ := hst
  intro hexits
  rw [htrace] at hexits ⊢
  exact (h hexits.earlier).append new (fun o ho _ hwaits => absurd hwaits (hnew o ho).1)

theorem ShownNow.after {s t : Sys} (h : ShownNow sup s) (hst : Emits Obs.unshown s t) : ShownNow sup t := by
  obtain ⟨new, htrace, hnew⟩ := hst
  intro hexits
  rw [htrace] at hexits ⊢
  obtain ⟨hshown, hlast⟩ := h hexits.earlier
  refine ⟨hshown.append new (fun o ho _ hwaits => absurd hwaits (hnew o ho).1.1), ?_⟩
  rw [lastShown.after_append _ new (fun o ho => (hnew o ho).2), hlast]

theorem ShownSoFar.pausesShown {s : Sys} (h : ShownSoFar sup s) : PausesShown sup s := by
  intro hexits
  refine ⟨h hexits, fun before o rest heq hwaits => ?_⟩
  exact (status_paused before).2 (h hexits before o rest heq hwaits)

theorem ShownNow.soFar {s : Sys} (h : ShownNow sup s) : ShownSoFar sup s := fun hexits => (h hexits).1

variable (sup)

theorem carried_shownSoFar : Carried (Emits Obs.unshown) (ShownSoFar sup) (ShownSoFar sup) (ShownSoFar sup) :=
  ⟨fun _ _ h hst => h.after (emits_mono (fun _ ho => ho.1) hst), fun _ h => h, fun _ h => h⟩

/-- A JVM is paused only with its event published. -/
def PauseShown (o : RunOutcome) (t : Sys) : Prop := o = .pause → lastShown.after t.trace = some .servicePaused

theorem eventLoop_shown {s : Sys} (h : ShownSoFar sup s) :
    (eventLoop sup s).All (fun o t => ShownSoFar sup t ∧ PauseShown o t) (fun _ => ShownSoFar sup)
      (ShownSoFar sup) := by
  have c : Closing sup (.all (Both (Emits Obs.inside) Lives)) Down PauseShown :=
    closing_outcome (fun o _ ho hpause => absurd hpause ho) (fun s _ => by
      rw [Sys.note, lastShown.after_concat]
      rfl)
  refine all_eventLoop_of (R := Both (Emits Obs.inside) Lives) (fun s t hs hst => hs.after hst.1) ?_
    (fun arm => turn_serve_loose c arm) s h
  exact fun s arm t hs hsel => hs.after (emits_of_selected hsel (fun _ _ => by simp [Obs.inside])).1

theorem runOnce_shown (jvmId : Nat) (resuming : Bool) {s : Sys} (h : ShownSoFar sup s) :
    (runOnce sup jvmId resuming s).All (fun o t => ShownSoFar sup t ∧ PauseShown o t) (fun _ => ShownSoFar sup)
      (ShownSoFar sup) := by
  refine all_runOnce (carried_shownSoFar sup) (carried_shownSoFar sup) (carried_shownSoFar sup) (fun _ h => h) (fun t h => ?_)
    (fun t h => ?_) (fun t _ h => ⟨h, by simp [PauseShown]⟩) ?_ s h
  · exact h.after (emits_one (o := .spawned jvmId) rfl (by simp [Obs.inside]))
  · exact h.after (emits_one (o := .spawnFailed jvmId) rfl (by simp [Obs.inside]))
  · exact fun t command key pid launchedAt now h => eventLoop_shown sup h

/-- The phases of a run, as far as pauses are shown. -/
def showing : Phases where
  ready _ := ShownSoFar sup
  ended _ o s := ShownSoFar sup s ∧ (o = .pause → ShownNow sup s)
  paused _ := ShownNow sup
  delayed _ := ShownSoFar sup
  closing _ := ShownSoFar sup

theorem showing_laws : (showing sup).Laws sup (Emits Obs.unshown) (fun _ => ShownSoFar sup) (ShownSoFar sup)
    (ShownSoFar sup) where
  carriedReady _ := carried_shownSoFar sup
  carriedPaused _ := ⟨fun _ _ h => h.after, fun _ h => h.soFar, fun _ h => h.soFar⟩
  carriedDelayed _ := carried_shownSoFar sup
  carriedOver _ := carried_shownSoFar sup
  pauseFirst s h := by
    have hnext : ShownSoFar sup (s.note (.published .servicePaused)) :=
      ShownSoFar.after h (emits_one rfl (by simp [Obs.inside]))
    refine fun hexits => ⟨hnext hexits, ?_⟩
    rw [Sys.note, lastShown.after_concat]
    rfl
  file _ _ _ h := h
  launching vars s h := ShownSoFar.after h (emits_one rfl (by simp [Obs.inside]))
  launch vars s h := (runOnce_shown sup vars.jvmId vars.resuming h).mono
    (fun _ t ht => ⟨ht.1, fun ho hexits => ⟨ht.1 hexits, ht.2 ho⟩⟩) (fun _ _ h => h) (fun _ h => h)
  exit vars elapsed code s h := by
    have hnext : ShownSoFar sup (s.note (.exitAction code (onExitAction sup.config code))) :=
      fun hexits => (h.1 hexits.earlier).append [_] (by simp)
    refine ⟨hnext, fun hpause hexits => ⟨hnext hexits, ?_⟩⟩
    obtain ⟨hpausable, haction⟩ := resolved_pause hpause
    rw [Sys.note, lastShown.after_concat]
    exact hexits.last hpausable ⟨code, by rw [haction]⟩
  stop _ _ _ h := h.1
  pause _ _ h := h.2 rfl
  disabled _ _ _ _ _ h _ := h.1
  gaveUp _ _ _ _ _ h _ _ := h.1
  retry _ _ _ _ _ h _ _ := h.1
  waits _ s h hexits := by
    obtain ⟨hshown, hlast⟩ := h hexits.earlier
    refine ⟨(Monitor.always_concat _ _).2 ⟨hshown, fun _ => hlast⟩, ?_⟩
    rw [Sys.note, lastShown.after_concat, hlast]
    rfl
  heardPaused vars s control t h hc := by
    have hnow : ShownNow sup t := h.after (emits_of_heard hc ⟨by simp [Obs.inside], fun _ => rfl⟩)
    cases control with
    | none => exact hnow.soFar
    | some c =>
      cases c with
      | resume => exact hnow.soFar
      | stop => exact hnow.soFar
      | consoleInterrupt => exact hnow.soFar
      | _ => exact hnow
  delay _ _ h := h
  heardDelayed vars s control t h hc := by
    have hnow : ShownSoFar sup t := ShownSoFar.after h (emits_of_heard hc (by simp [Obs.inside]))
    cases control with
    | none => exact hnow
    | some c =>
      cases c with
      | _ => exact hnow
  elapsed _ s h := ShownSoFar.after h (emits_one rfl (by simp [Obs.inside]))
  finish _ s h := by
    have hmarker : Keeps (Emits Obs.inside) (log .status .wrapper stoppedMarker) :=
      keeps_marker (fun _ => emits_one rfl (by simp [Obs.inside, Obs.marker]))
    exact (hmarker s).mono (fun _ _ ht => ShownSoFar.after h ht) (fun _ _ ht => ShownSoFar.after h ht)
      (fun _ ht => ShownSoFar.after h ht)

end Showing

/-- **A paused supervisor is shown paused**: in every run, wherever it is cut short, if every exit that is turned into a
pause comes while a pause is shown, then wherever the supervisor waits for a control while paused, the last event is
`ServicePaused` and the reported state is paused. -/
theorem paused_is_shown (sup : Supervisor) (script : List Answer) :
    (run sup { script := script }).All (fun _ => PausesShown sup) (fun _ => PausesShown sup) (PausesShown sup) :=
  ((showing_laws sup).run (s := { script := script }) (fun _ => Monitor.always_nil)).mono (fun _ _ h => h.pausesShown)
    (fun _ _ h => h.pausesShown) (fun _ h => h.pausesShown)

/-- An exit of the JVM pauses the service. -/
def pauseOnExit : Supervisor :=
  .sample ⟨[("wrapper.on_exit.default", "PAUSE"), ("wrapper.pausable", "TRUE")], [], by decide⟩

/-- The JVM connects, reports that it is started, and exits. -/
def startedAndExits : List Answer :=
  quiet 4 ++ connected ++ [{ moves := [.deliver (.packet ⟨Protocol.STARTED, []⟩)], source := .protocol }] ++ quiet 1 ++
    [{ moves := [.exit (some 0), .elapse tickInterval] }] ++ quiet 2 ++ [{ moves := [.closeOutput] }] ++ quiet 3

/-- The service is shown running while the supervisor waits for a control to resume it. -/
theorem pause_after_an_exit_is_not_shown :
    .waitingPaused ∈ (run pauseOnExit { script := startedAndExits }).state.trace ∧
    lastShown.after (run pauseOnExit { script := startedAndExits }).state.trace = some (.jvmStarted 1 0) ∧
    status.after (run pauseOnExit { script := startedAndExits }).state.trace = .running := by
  decide +kernel

end Supervisor
end Jss
