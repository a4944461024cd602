import ServiceSteward.Monitor
import ServiceSteward.Phases
/-!
# PendingControls — the pause and continue controls that the service manager waits for

The handler reports a pending state before it puts a `Pause` or a `Resume` in the channel, and only an event of the
supervisor's ends that state.  Where the supervisor acts on a control, it publishes one before it turns to anything
else: a pause by stopping the JVM after the shutdown, any other after the packet is written.  Where it ignores a control
it publishes nothing.
-/
namespace Jss
namespace Supervisor

open Scripted

/-! ## What is owed -/

/-- The events that the status reporter makes a state of. -/
def EventKind.reportsState : EventKind → Bool
  | .jvmStarted _ _ | .servicePaused | .serviceResumed => true
  | _ => false

/-- The last `Pause` or `Resume` read that no such event has followed.  A `Resume` that is read while the supervisor is
paused is carried out by the launch it leads to, so nothing is owed for it here. -/
def unanswered : Monitor (Option Control) (JvmRun × Obs) where
  start := none
  step x m :=
    match m.2 with
    | .control _ (some .pause) => some .pause
    | .control .paused (some .resume) => x
    | .control _ (some .resume) => some .resume
    | .published kind => if kind.reportsState then none else x
    | _ => x

/-- The supervisor turns to something: a channel, the tick, a launch, or the end of a wait. -/
def Obs.begins : Obs → Bool
  | .control _ _ | .took .select _ | .received _ | .waited .tick _ _ | .delayOver | .waitingPaused | .spawned _ => true
  | .published (.jvmLaunching _) => true
  | _ => false

/-- Whenever the supervisor turns to something, every `Pause` and `Resume` it has read was answered since. -/
def Answered (moments : List (JvmRun × Obs)) : Prop :=
  unanswered.Always (fun x m => m.2.begins = true → x = none) moments

/-- Whether the supervisor acts on what it reads, and the write that this takes succeeds. -/
def Supervisor.acts (sup : Supervisor) (x : Option Control) (m : JvmRun × Obs) : Bool :=
  match m.2 with
  | .control .eventLoop (some .pause) =>
    sup.pausable && !m.1.pausedInPlace && (sup.pausableStopsJvm || m.1.connection.isSome)
  | .control .eventLoop (some .resume) => m.1.pausedInPlace && m.1.connection.isSome
  | .control .restartDelay (some .pause) | .control .restartDelay (some .resume) | .control .paused (some .pause) => false
  | .sendFailed => x = none || (x = some .pause && sup.pausableStopsJvm)
  | _ => true

/-- No `Pause` and no `Resume` of the run is ignored. -/
def Acted (sup : Supervisor) (moments : List (JvmRun × Obs)) : Prop :=
  unanswered.Always (fun x m => sup.acts x m = true) moments

/-- All that the handler puts in the channel of these two controls it has reported as pending. -/
theorem handler_pending (settings : Service.Settings) (event : Service.ServiceControl) :
    ((Service.handler settings event).control = some .pause →
      (Service.handler settings event).report.map (·.currentState) = some .pausePending) ∧
    ((Service.handler settings event).control = some .resume →
      (Service.handler settings event).report.map (·.currentState) = some .continuePending) := by
  cases event with
  | pause =>
    by_cases h : settings.pausable = true
    · simp [Service.handler, h, Service.setStatus]
    · simp [Service.handler, h]
  | resume =>
    by_cases h : settings.pausable = true
    · simp [Service.handler, h, Service.setStatus]
    · simp [Service.handler, h]
  | userEvent code =>
    simp only [Service.handler]
    split
    · simp
    · split
      · simp
      · simp
  | _ => simp [Service.handler]

/-! ## One observation -/

/-- What is owed, in a run whose steps all act so far. -/
def Owing (sup : Supervisor) (x : Option Control) (s : Sys) : Prop :=
  Acted sup s.moments → Answered s.moments ∧ unanswered.after s.moments = x

def AnsweredSoFar (sup : Supervisor) (s : Sys) : Prop := Acted sup s.moments → Answered s.moments

/-- What is observed only adds to what was. -/
def Later (s t : Sys) : Prop := s.moments <+: t.moments

variable {sup : Supervisor} {x y : Option Control} {s t : Sys}

theorem Owing.soFar (h : Owing sup x s) : AnsweredSoFar sup s := fun hacted => (h hacted).1

theorem Owing.same (h : Owing sup x s) (ht : t.moments = s.moments) : Owing sup x t := by
  unfold Owing
  rw [ht]
  exact h

theorem Owing.note {m : JvmRun × Obs} (h : Owing sup x s) (ht : t.moments = s.moments ++ [m])
    (hm : sup.acts x m = true → (m.2.begins = true → x = none) ∧ unanswered.step x m = y) : Owing sup y t := by
  unfold Owing Acted Answered
  rw [ht, Monitor.always_concat, Monitor.always_concat, Monitor.after_concat]
  rintro ⟨hacted, hacts⟩
  obtain ⟨hanswered, hx⟩ := h hacted
  rw [hx] at hacts ⊢
  obtain ⟨hbegins, hstep⟩ := hm hacts
  exact ⟨⟨hanswered, hbegins⟩, hstep⟩

theorem not_acted_of_later (h : ¬ Acted sup s.moments) (hst : Later s t) : ¬ Acted sup t.moments := by
  obtain ⟨new, hnew⟩ := hst
  rw [← hnew]
  exact fun hacted => h hacted.earlier

/-- Once a step does not act, nothing more is said of the run. -/
theorem owing_of_not_acted (h : ¬ Acted sup s.moments) : Owing sup x s := fun hacted => absurd hacted h

/-- Observations that neither turn to something nor change what is owed. -/
def Obs.mute (o : Obs) : Prop := o.begins = false ∧ ∀ x run, unanswered.step x (run, o) = x

theorem Owing.mute {m : JvmRun × Obs} (h : Owing sup x s) (ht : t.moments = s.moments ++ [m]) (hm : m.2.mute) :
    Owing sup x t := by
  apply h.note ht
  intro _
  constructor
  · intro hbegins
    rw [hm.1] at hbegins
    cases hbegins
  · exact hm.2 x m.1

theorem Obs.bland.mute {o : Obs} (h : o.bland) : o.mute := by
  cases o with
  | published kind =>
    cases kind with
    | jvmLaunching id => cases h.1
    | jvmStarted id pid => cases h.1
    | servicePaused => cases h.1
    | serviceResumed => cases h.1
    | _ => exact ⟨rfl, fun _ _ => rfl⟩
  | waited site status unread =>
    cases site with
    | tick => exact absurd rfl h.1
    | _ => exact ⟨rfl, fun _ _ => rfl⟩
  | logged level source message => exact ⟨rfl, fun _ _ => rfl⟩
  | logFailed => exact ⟨rfl, fun _ _ => rfl⟩
  | _ => exact h.elim

/-! ## What keeps it -/

theorem later_of_eq (h : t.moments = s.moments) : Later s t := by
  unfold Later
  rw [h]

theorem later_note (s : Sys) (o : Obs) : Later s (s.note o) := List.prefix_append _ _

theorem later_move (s : Sys) (m : Move) : Later s (s.move m) := by
  cases m with
  | deliver event =>
    simp only [Sys.move]
    split
    · exact later_of_eq rfl
    · exact List.prefix_append _ _
  | output line => simp only [Sys.move]; split <;> exact later_of_eq rfl
  | exit code => simp only [Sys.move]; split <;> exact later_of_eq rfl
  | dumped worker result => simp only [Sys.move]; split <;> exact later_of_eq rfl
  | _ => exact later_of_eq rfl

instance : Kept Later where
  refl _ := List.prefix_rfl
  trans _ _ _ h h' := h.trans h'
  same h := later_of_eq h.moments
  move := later_move
  note s o _ := later_note s o
  sent s _ _ := later_note s _
  sendFailed s := later_note s _
  drop _ _ _ := List.prefix_append _ _
  killed s := later_note s _
  reaped s := later_note s _
  reap _ _ _ := later_of_eq rfl
  worker _ _ := later_of_eq rfl
  task _ _ := later_of_eq rfl
  dumping s _ _ := later_note s _
  nextPing _ _ := later_of_eq rfl
  answered _ _ := later_of_eq rfl
  check s _ := later_note s _
  took s _ _ _ _ := later_note s _
  recorded s _ := later_note s _
  published s _ := later_note s _
  waited s _ _ _ := later_note s _
  batch s _ := later_note s _
  held _ _ := later_of_eq rfl
  join _ _ _ _ := List.prefix_append _ _

theorem owing_move (s : Sys) (m : Move) (h : Owing sup x s) : Owing sup x (s.move m) := by
  cases m with
  | deliver event =>
    simp only [Sys.move]
    split
    · exact h
    · exact h.mute rfl ⟨rfl, fun _ _ => rfl⟩
  | output line => simp only [Sys.move]; split <;> exact h
  | exit code => simp only [Sys.move]; split <;> exact h
  | dumped worker result => simp only [Sys.move]; split <;> exact h
  | _ => exact h

instance : Talking (Preserves (Owing sup x)) where
  same hsame h := h.same hsame.moments
  move := owing_move
  note _ _ ho h := h.mute rfl ho.mute
  sent _ _ _ h := h.mute rfl ⟨rfl, fun _ _ => rfl⟩
  sendFailed _ h := h.mute rfl ⟨rfl, fun _ _ => rfl⟩
  drop _ _ _ h := h.mute rfl ⟨rfl, fun _ _ => rfl⟩

instance : Killing (Preserves (Owing sup x)) where
  killed _ h := h.mute rfl ⟨rfl, fun _ _ => rfl⟩
  reaped _ h := h.mute rfl ⟨rfl, fun _ _ => rfl⟩
  reap _ _ _ h := h.same rfl

instance : Outputting (Preserves (Owing sup x)) where
  took _ site _ hselect _ h := by
    cases site with
    | select => exact absurd rfl hselect
    | _ => exact h.mute rfl ⟨rfl, fun _ _ => rfl⟩
  recorded _ _ h := h.mute rfl ⟨rfl, fun _ _ => rfl⟩

/-- Where nothing is owed, only reading a `Pause` or a `Resume` changes that. -/
theorem Owing.free {m : JvmRun × Obs} (h : Owing sup none s) (ht : t.moments = s.moments ++ [m])
    (hm : unanswered.step none m = none) : Owing sup none t :=
  h.note ht (fun _ => ⟨fun _ => rfl, hm⟩)

theorem step_published (run : JvmRun) (kind : EventKind) : unanswered.step none (run, .published kind) = none := by
  show (if kind.reportsState then none else none) = none
  split
  · rfl
  · rfl

theorem Owing.join (h : Owing sup none s) (events : List Protocol.ReceiveEvent) (now : Instant) :
    Owing sup none (s.join events now) := by
  have hall : ∀ (ms : List (JvmRun × Obs)) {u v : Sys}, Owing sup none u → v.moments = u.moments ++ ms →
      (∀ m ∈ ms, unanswered.step none m = none) → Owing sup none v := by
    intro ms
    induction ms with
    | nil => exact fun hu hv _ => hu.same (by simpa using hv)
    | cons m ms ih =>
      intro u v hu hv hms
      have hone : Owing sup none { u with moments := u.moments ++ [m] } := hu.free rfl (hms m List.mem_cons_self)
      exact ih hone (by simpa using hv) (fun n hn => hms n (List.mem_cons_of_mem _ hn))
  refine hall _ h rfl (fun m hm => ?_)
  rcases List.mem_cons.1 hm with rfl | hm
  · rfl
  · obtain ⟨event, -, rfl⟩ := List.mem_map.1 hm
    rfl

instance : Kept (Preserves (Owing sup none)) where
  toTalking := inferInstance
  killed := Killing.killed
  reaped := Killing.reaped
  reap := Killing.reap
  worker _ _ h := h.same rfl
  task _ _ h := h.same rfl
  dumping _ kind _ h := h.free rfl (step_published _ kind)
  nextPing _ _ h := h.same rfl
  answered _ _ h := h.same rfl
  check _ _ h := h.free rfl rfl
  took := Outputting.took
  recorded := Outputting.recorded
  published _ kind h := h.free rfl (step_published _ kind)
  waited _ _ _ _ h := h.free rfl rfl
  batch _ _ h := h.free rfl rfl
  held _ _ h := h.same rfl
  join _ events now _ h := h.join events now

/-! ## Acting on a control -/

theorem keeps_shutdown_owing (exitCode : Int) : Keeps (Preserves (Owing sup x)) (shutdownAndDrain sup exitCode) :=
  stops_shutdownAndDrain (keeps_drainRemainingOutput sup).stops (keeps_waitForOutput sup).stops
    keeps_terminateChild.stops (keeps_tryWait_of (fun _ _ _ h => h.mute rfl ⟨rfl, fun _ _ => rfl⟩)).stops
    (fun code message => (keeps_sendIfConnected code message).stops) exitCode

theorem publish_answers {kind : EventKind} (h : Owing sup x s) (hkind : kind.reportsState = true) :
    Owing sup none (s.note (.published kind)) := by
  apply h.note rfl
  intro _
  constructor
  · intro hbegins
    cases kind with
    | jvmLaunching id => cases hkind
    | _ => cases hbegins
  · show (if kind.reportsState then none else x) = none
    rw [if_pos hkind]

/-- A write that fails is a step that does not act. -/
theorem sendFailed_not_acted (h : Owing sup x s) (hfail : ∀ run, sup.acts x (run, .sendFailed) = false) :
    ¬ Acted sup (s.note .sendFailed).moments := by
  intro hacted
  have hlast : sup.acts (unanswered.after s.moments) (s.run, .sendFailed) = true := Monitor.Always.last hacted
  rw [(h (Monitor.Always.earlier hacted)).2, hfail] at hlast
  cases hlast

theorem send_owing (code : UInt8) (message : Text) (h : Owing sup x s)
    (hfail : ∀ run, sup.acts x (run, .sendFailed) = false) :
    (send code message s).All (fun _ => Owing sup x) (fun _ t => ¬ Acted sup t.moments) (Owing sup x) := by
  unfold send
  rw [all_bind]
  refine (ask_spec (R := Preserves (Owing sup x)) s).mono (fun a u hu => ?_) (fun _ _ hno => hno.elim) (fun u hu => hu h)
  have howing := hu h
  cases (Protocol.Packet.text code message).writeTo with
  | error e => exact sendFailed_not_acted howing hfail
  | ok frame =>
    cases a.failure with
    | some e => exact sendFailed_not_acted howing hfail
    | none => exact howing.mute rfl ⟨rfl, fun _ _ => rfl⟩

/-- **A write to a connection that is there**: unless it fails, what was owed is owed still. -/
theorem sendIfConnected_owing (code : UInt8) (message : Text) (h : Owing sup x s)
    (hfail : ∀ run, sup.acts x (run, .sendFailed) = false) (hconnection : s.run.connection.isSome = true) :
    (sendIfConnected code message s).All (fun sent t => if sent then Owing sup x t else ¬ Acted sup t.moments)
      (fun _ => AnsweredSoFar sup) (AnsweredSoFar sup) := by
  obtain ⟨unread, hunread⟩ := Option.isSome_iff_exists.1 hconnection
  unfold sendIfConnected getRun
  simp only [all_bind, all_get, all_pure]
  rw [hunread]
  dsimp only
  rw [all_bind, all_attempt]
  refine (send_owing code message h hfail).mono (fun _ t ht => ht) (fun e t ht => ?_) (fun t ht => ht.soFar)
  have hlater : Keeps Later (log .error .protocol ("Control channel write failed: ".toList ++ e.display)) :=
    keeps_log (not_marker_of_level (by decide))
  have hnot : ∀ u, Later t u → ¬ Acted sup u.moments := fun u hu => not_acted_of_later ht hu
  rw [all_bind]
  refine (hlater t).mono (fun _ u hu => ?_) (fun _ u hu hacted => absurd hacted (hnot u hu))
    (fun u hu hacted => absurd hacted (hnot u hu))
  rw [all_bind]
  refine (keeps_markDisconnected (R := Later) u).mono (fun _ v hv => ?_)
    (fun _ v hv hacted => absurd hacted (hnot v (hu.trans hv))) (fun v hv hacted => absurd hacted (hnot v (hu.trans hv)))
  exact hnot v (hu.trans hv)

theorem pause_answers (h : Owing sup (some .pause) s)
    (hway : (sup.pausableStopsJvm || s.run.connection.isSome) = true) :
    (pause sup s).All (fun _ => Owing sup none) (fun _ => AnsweredSoFar sup) (AnsweredSoFar sup) := by
  unfold pause
  by_cases hstops : sup.pausableStopsJvm = true
  · rw [if_pos hstops, all_bind]
    refine (@keeps_shutdown_owing sup (some .pause) 0 s).mono (fun _ t ht => ?_)
      (fun _ t ht => (ht h).soFar) (fun t ht => (ht h).soFar)
    exact publish_answers (ht h) rfl
  · have hstays : sup.pausableStopsJvm = false := Bool.eq_false_iff.2 hstops
    rw [hstays, Bool.false_or] at hway
    rw [if_neg hstops, all_bind]
    refine (sendIfConnected_owing Protocol.PAUSE "0" h (fun _ => ?_) hway).mono (fun sent t ht => ?_) (fun _ _ hu => hu)
      (fun _ hu => hu)
    · simp [Supervisor.acts, hstays]
    · cases sent with
      | true => exact publish_answers (Owing.same ht rfl) rfl
      | false => exact owing_of_not_acted ht

theorem resume_answers (h : Owing sup (some .resume) s) (hconnection : s.run.connection.isSome = true) :
    (resume s).All (fun _ => Owing sup none) (fun _ => AnsweredSoFar sup) (AnsweredSoFar sup) := by
  unfold resume
  rw [all_bind]
  refine (sendIfConnected_owing Protocol.RESUME "0" h (fun _ => ?_) hconnection).mono (fun sent t ht => ?_)
    (fun _ _ hu => hu) (fun _ hu => hu)
  · simp [Supervisor.acts]
  · cases sent with
    | true => exact publish_answers (Owing.same ht rfl) rfl
    | false => exact owing_of_not_acted ht

/-- **A control that is acted on is answered** by the time it is handled. -/
theorem handleControl_answers {control : Control} (h : Owing sup (some control) s)
    (hacts : sup.acts none (s.run, .control .eventLoop (some control)) = true)
    (hcontrol : control = .pause ∨ control = .resume) :
    (handleControl sup control s).All (fun _ => Owing sup none) (fun _ => AnsweredSoFar sup) (AnsweredSoFar sup) := by
  rcases hcontrol with rfl | rfl
  · have hparts : ((sup.pausable && !s.run.pausedInPlace) &&
        (sup.pausableStopsJvm || s.run.connection.isSome)) = true := hacts
    obtain ⟨hpausable, hway⟩ := Bool.and_eq_true_iff.1 hparts
    unfold handleControl getRun
    simp only [all_bind, all_get, all_pure]
    rw [if_pos hpausable]
    exact pause_answers h hway
  · have hparts : (s.run.pausedInPlace && s.run.connection.isSome) = true := hacts
    obtain ⟨hpaused, hconnection⟩ := Bool.and_eq_true_iff.1 hparts
    unfold handleControl getRun
    simp only [all_bind, all_get, all_pure]
    rw [if_pos hpaused, all_bind]
    exact resume_answers h hconnection

/-! ## The run -/

/-- What serving an arm leaves, where nothing is owed. -/
theorem serve_owing (arm : Arm) (h : Owing sup none s) :
    (serve sup arm s).All (fun _ => Owing sup none) (fun _ => AnsweredSoFar sup) (AnsweredSoFar sup) := by
  refine (turn_serve_kept (R := Preserves (Owing sup none)) sup arm s).mono (fun r t ht => ?_) (fun _ t ht => (ht h).soFar)
    (fun t ht => (ht h).soFar)
  cases r with
  | none => exact ht h
  | some o => exact ht.1 h

/-- ... and where a step did not act. -/
theorem serve_not_acted (arm : Arm) (h : ¬ Acted sup s.moments) :
    (serve sup arm s).All (fun _ => Owing sup none) (fun _ => AnsweredSoFar sup) (AnsweredSoFar sup) := by
  refine (turn_serve_kept (R := Later) sup arm s).mono (fun r t ht => ?_)
    (fun _ t ht hacted => absurd hacted (not_acted_of_later h ht)) (fun t ht hacted => absurd hacted (not_acted_of_later h ht))
  cases r with
  | none => exact owing_of_not_acted (not_acted_of_later h ht)
  | some o => exact owing_of_not_acted (not_acted_of_later h ht.1)

theorem serve_control (control : Control) {rest : List Control} (h : Owing sup none s)
    (hcontrol : control = .pause ∨ control = .resume) :
    (serve sup (.control (some control))
      ({ s with controls := rest }.note (.control .eventLoop (some control)))).All (fun _ => Owing sup none)
      (fun _ => AnsweredSoFar sup) (AnsweredSoFar sup) := by
  have hstep : unanswered.step none (s.run, .control .eventLoop (some control)) = some control := by
    rcases hcontrol with rfl | rfl
    · rfl
    · rfl
  have howing : Owing sup (some control) ({ s with controls := rest }.note (.control .eventLoop (some control))) :=
    h.note rfl (fun _ => ⟨fun _ => rfl, hstep⟩)
  by_cases hacts : sup.acts none (s.run, .control .eventLoop (some control)) = true
  · exact handleControl_answers howing hacts hcontrol
  · apply serve_not_acted
    intro hacted
    have hlast : sup.acts (unanswered.after s.moments) (s.run, .control .eventLoop (some control)) = true :=
      Monitor.Always.last hacted
    rw [(h (Monitor.Always.earlier hacted)).2] at hlast
    exact hacts hlast

theorem serve_keeps_owing (arm : Arm) (h : Owing sup none s) :
    (serve sup arm s).All (fun r t => match r with | none => Owing sup none t | some _ => Owing sup none t)
      (fun _ => AnsweredSoFar sup) (AnsweredSoFar sup) := by
  refine (serve_owing arm h).mono (fun r t ht => ?_) (fun _ _ ht => ht) (fun _ ht => ht)
  cases r with
  | _ => exact ht

theorem serve_pending {rest : List Control} {control : Control} (h : Owing sup none s)
    (hcontrol : control = .pause ∨ control = .resume) :
    (serve sup (.control (some control)) ({ s with controls := rest }.note (.control .eventLoop (some control)))).All
      (fun r t => match r with | none => Owing sup none t | some _ => Owing sup none t)
      (fun _ => AnsweredSoFar sup) (AnsweredSoFar sup) := by
  refine (serve_control control h hcontrol).mono (fun r t ht => ?_) (fun _ _ ht => ht) (fun _ ht => ht)
  cases r with
  | _ => exact ht

theorem eventLoop_owing (h : Owing sup none s) :
    (eventLoop sup s).All (fun _ => Owing sup none) (fun _ => AnsweredSoFar sup) (AnsweredSoFar sup) := by
  refine all_eventLoop (fun t ht => ?_) (fun _ ht => ht.soFar) s (fun _ => h.same rfl)
  refine (select_spec (R := Preserves (Owing sup none)) t).mono (fun arm v hv => ?_) (fun _ _ hno => hno.elim)
    (fun u hu => (hu ht).soFar)
  obtain ⟨u, hu, hsel⟩ := hv
  have howing := hu ht
  cases hsel with
  | line line rest _ => exact serve_keeps_owing _ (howing.free rfl rfl)
  | outputClosed => exact serve_keeps_owing _ howing
  | controlsClosed => exact serve_keeps_owing _ (howing.free rfl rfl)
  | event event rest _ => exact serve_keeps_owing _ (howing.free rfl rfl)
  | channelClosed _ => exact serve_keeps_owing _ (howing.free rfl rfl)
  | tick next => exact serve_keeps_owing _ (howing.same rfl)
  | control control rest _ =>
    cases control with
    | pause => exact serve_pending howing (.inl rfl)
    | resume => exact serve_pending howing (.inr rfl)
    | _ => exact serve_keeps_owing _ (howing.free rfl rfl)

/-- A control read while no JVM runs: none that is ignored meets the condition. -/
theorem owing_heard {site : ControlSite} {control : Option Control} (hsite : site ≠ .eventLoop) (h : Owing sup none s)
    (hc : Heard site s control t) : Owing sup none t := by
  have hread : ∀ {u : Sys}, u.moments = s.moments ++ [(s.run, .control site control)] → Owing sup none u := by
    intro u hu
    apply h.note hu
    intro hacts
    refine ⟨fun _ => rfl, ?_⟩
    cases control with
    | none => rfl
    | some control =>
      cases control with
      | pause =>
        cases site with
        | eventLoop => exact absurd rfl hsite
        | restartDelay => cases hacts
        | paused => cases hacts
      | resume =>
        cases site with
        | eventLoop => exact absurd rfl hsite
        | restartDelay => cases hacts
        | paused => rfl
      | _ => rfl
  cases hc with
  | item c rest _ => exact hread rfl
  | closed => exact hread rfl

theorem runOnce_owing (jvmId : Nat) (resuming : Bool) (h : Owing sup none s) :
    (runOnce sup jvmId resuming s).All (fun _ => Owing sup none) (fun _ => AnsweredSoFar sup) (AnsweredSoFar sup) := by
  have hcarried : Carried (Preserves (Owing sup none)) (Owing sup none) (AnsweredSoFar sup) (AnsweredSoFar sup) :=
    ⟨fun _ _ h hst => hst h, fun _ h => h.soFar, fun _ h => h.soFar⟩
  refine all_runOnce hcarried hcarried hcarried (fun _ h => h.same rfl) (fun u hu => ?_) (fun u hu => hu.free rfl rfl)
    (fun _ _ hu => hu) (fun u command key pid launchedAt now hu => ?_) s h
  · exact hu.free rfl rfl
  · have hlaunched : Owing sup none
        { u with run := .launched sup jvmId resuming command key pid launchedAt now } := hu.same rfl
    exact (eventLoop_owing hlaunched).mono (fun _ v hv => hv.same rfl) (fun _ _ hv => hv) (fun _ hv => hv)

theorem outer_free {o : Obs} (hcontrol : ∀ site control, o ≠ .control site control) (run : JvmRun) :
    unanswered.step none (run, o) = none := by
  cases o with
  | control site control => exact absurd rfl (hcontrol site control)
  | published kind => exact step_published run kind
  | _ => rfl

def pausesInPlace : Supervisor :=
  .sample ⟨[("wrapper.pausable", "TRUE"), ("wrapper.pausable.stop_jvm", "FALSE")], [], by decide⟩

/-- The service manager's pause and continue controls for a connected JVM. -/
def pausedAndContinued : List Answer :=
  quiet 4 ++ connected ++ [{ moves := [.event .pause], source := .controls }] ++ quiet 1 ++
    [{ moves := [.event .resume], source := .controls }] ++ quiet 1 ++ [{ moves := [.elapse tickInterval] }] ++ quiet 3

/-- A launch fails, and the service manager pauses the service during the restart delay. -/
def pausedWhileDelayed : List Answer :=
  quiet 10 ++ [{ failure := some (.io .other) }] ++ quiet 4 ++
    [{ moves := [.event .pause] }, { moves := [.elapse (Duration.fromSecs 5)] }] ++ quiet 8

end Supervisor
end Jss
