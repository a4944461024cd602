import ServiceSteward.CommandLine
import ServiceSteward.StatusReporter
import ServiceSteward.StopHint
/-!
# ServiceWorker — the service from its registration to `Stopped`

`run_service_worker` registers the control handler, reports `StartPending`, starts the status reporter and runs the
supervisor.  When that has returned and the reporter has taken what is left, it reports `Stopped`.  The handler runs on a
thread of the service manager's, the reporter on its own, and the supervisor is any program that publishes events and
takes controls.  **However they take turns, the service manager is told one story from `StartPending` to `Stopped`**
(`service_tells_one_story`).
-/
namespace Jss
namespace Service

open Supervisor (Control EventKind)
open LossyChannel (Channel step)

/-! ## The settings -/

def heapDumpControlCode (config : Config) : Except Error { code : Nat // 128 ≤ code ∧ code ≤ 255 } :=
  let raw := config.getU64 "jss.heapdump.control_code" 254
  if Text.u32Max < raw then .error (.config "jss.heapdump.control_code is outside the valid range")
  else if h : 128 ≤ raw ∧ raw ≤ 255 then .ok ⟨raw, h⟩
  else .error (.config "jss.heapdump.control_code must be between 128 and 255")

def isPausable (config : Config) : Bool :=
  config.getBool "wrapper.pausable" (config.getBool "wrapper.ntservice.pausable" false)

/-- What `run_service_worker` reads of its configuration. -/
structure WorkerSettings extends Settings where
  name : Text
  startHintMs : Nat
  heapDumpCode_ge : 128 ≤ heapDumpCode
  heapDumpCode_ne : heapDumpCode ≠ dumpCode

def workerSettings (config : Config) : Except Error WorkerSettings := do
  let name ← Jvm.required config "wrapper.ntservice.name"
  let heapDumpCode ← heapDumpControlCode config
  if h : heapDumpCode.val = config.getU64 "wrapper.thread_dump_control_code" 255 then
    .error (.config "jss.heapdump.control_code must differ from wrapper.thread_dump_control_code")
  else
    .ok {
      name
      dumpCode := config.getU64 "wrapper.thread_dump_control_code" 255
      heapDumpCode := heapDumpCode.val
      pausable := isPausable config
      stopHintMs := min (Supervisor.stopWaitHint config / Duration.fromMillis 1) Text.u64Max
      startHintMs := min (max (config.getU64 "wrapper.startup.timeout" 30) 1 * 1000) Text.u64Max
      heapDumpCode_ge := heapDumpCode.property.1
      heapDumpCode_ne := h }

/-- A service starts with a name, and with a control code of its own for heap dumps. -/
theorem workerSettings_isOk_iff (config : Config) :
    (workerSettings config).isOk = true ↔
      (Jvm.required config "wrapper.ntservice.name").isOk = true ∧
        128 ≤ config.getU64 "jss.heapdump.control_code" 254 ∧ config.getU64 "jss.heapdump.control_code" 254 ≤ 255 ∧
        config.getU64 "jss.heapdump.control_code" 254 ≠ config.getU64 "wrapper.thread_dump_control_code" 255 := by
  unfold workerSettings heapDumpControlCode
  cases Jvm.required config "wrapper.ntservice.name" with
  | error e => exact iff_of_false Bool.false_ne_true (fun h => Bool.false_ne_true h.1)
  | ok name =>
    generalize config.getU64 "jss.heapdump.control_code" 254 = raw
    dsimp only [bind, Except.bind]
    by_cases hlarge : Text.u32Max < raw
    · rw [if_pos hlarge]
      refine iff_of_false Bool.false_ne_true (fun h => ?_)
      have hsmall := h.2.2.1
      unfold Text.u32Max at hlarge
      omega
    · rw [if_neg hlarge]
      by_cases hrange : 128 ≤ raw ∧ raw ≤ 255
      · rw [dif_pos hrange]
        dsimp only
        by_cases hequal : raw = config.getU64 "wrapper.thread_dump_control_code" 255
        · rw [dif_pos hequal]
          exact iff_of_false Bool.false_ne_true (fun h => h.2.2.2 hequal)
        · rw [dif_neg hequal]
          exact iff_of_true rfl ⟨rfl, hrange.1, hrange.2, hequal⟩
      · rw [dif_neg hrange]
        exact iff_of_false Bool.false_ne_true (fun h => hrange ⟨h.2.1, h.2.2.1⟩)

/-- Each dump has its code. -/
theorem dumps_are_told_apart (w : WorkerSettings) :
    (handler w.toSettings (.userEvent w.dumpCode)).control = some .threadDump ∧
      (handler w.toSettings (.userEvent w.heapDumpCode)).control = some .heapDump := by
  constructor
  · simp [handler]
  · simp [handler, w.heapDumpCode_ne]

/-! ## The threads -/

/-- `Error::Service`, which the calls of the service manager fail with, or another error. -/
inductive Failure where
  | service
  | error (e : Error)
  deriving DecidableEq, Repr

inductive Source where
  | worker | reporter | handler
  deriving DecidableEq, Repr

/-- A status that the service manager accepted. -/
structure Reported where
  source : Source
  status : ServiceStatus
  exitCode : Nat := 0
  deriving DecidableEq, Repr

/-- The statements of `run_service_worker`. -/
inductive Main where
  | registering | settingSlot | starting | supervising | joining
  | stopping (reporter : Except Failure Unit)
  | returned (result : Except Failure Unit)

/-- The reporter's thread. -/
inductive Reporter where
  | receiving
  | reporting (kind : EventKind) (state : ServiceState)
  | ended (result : Except Failure Unit)

/-- The thread of the service manager's that calls the handler. -/
inductive Dispatcher where
  | idle
  | reporting (handling : Handling)
  | sending (handling : Handling)

structure Worker where
  main : Main := .registering
  reporter : Option Reporter := none
  dispatcher : Dispatcher := .idle
  /-- The handler is registered. -/
  registered : Bool := false
  /-- The handle is in `status_slot`. -/
  slot : Bool := false
  statuses : List Reported := []
  events : Channel EventKind := {}
  controls : List Control := []
  /-- What the supervisor returned. -/
  result : Option (Except Error Int) := none
  /-- The history: the events that the supervisor published and that the reporter is done with, the controls that came
  to the handler and that the supervisor took. -/
  published : List EventKind := []
  done : List EventKind := []
  delivered : List ServiceControl := []
  taken : List Control := []

/-- The exit code of a result, as the service manager gets it. -/
def win32ExitCode (result : Except Error Int) : Nat :=
  match result with
  | .ok (.ofNat code) => code
  | _ => 1

def startPending (w : WorkerSettings) : Reported where
  source := .worker
  status := setStatus .startPending 1 w.startHintMs w.pausable

def stoppedWith (result : Except Error Int) : Reported where
  source := .worker
  status := { currentState := .stopped, controlsAccepted := [], checkpoint := 0, waitHintMs := 0 }
  exitCode := win32ExitCode result

def stateReport (w : WorkerSettings) (state : ServiceState) : Reported where
  source := .reporter
  status := setStatus state 0 0 w.pausable

/-- `reporter_result?; result.map(|_| ())`. -/
def workerResult (reporter : Except Failure Unit) (result : Except Error Int) : Except Failure Unit :=
  match reporter, result with
  | .error e, _ => .error e
  | .ok (), .error e => .error (.error e)
  | .ok (), .ok _ => .ok ()

/-- A turn, and whether the service manager accepts what it is asked for. -/
inductive WorkerTurn where
  | proceed (accepted : Bool)
  /-- The supervisor. -/
  | publish (kind : EventKind)
  | take
  | finish (result : Except Error Int)
  | report (accepted : Bool)
  | deliver (event : ServiceControl)
  | handle (accepted : Bool)

namespace Worker

/-- The next statement of `run_service_worker`. -/
def proceed (w : WorkerSettings) (accepted : Bool) (s : Worker) : Worker :=
  match s.main with
  | .registering =>
    if accepted then { s with main := .settingSlot, registered := true }
    else { s with main := .returned (.error .service) }
  | .settingSlot => { s with main := .starting, slot := true }
  | .starting =>
    if accepted then
      { s with main := .supervising, reporter := some .receiving, statuses := s.statuses ++ [startPending w] }
    else { s with main := .returned (.error .service) }
  | .joining =>
    match s.reporter with
    | some (.ended reporter) => { s with main := .stopping reporter }
    | _ => s
  | .stopping reporter =>
    match s.result with
    | none => s
    | some result =>
      if accepted then
        { s with main := .returned (workerResult reporter result), statuses := s.statuses ++ [stoppedWith result] }
      else { s with main := .returned (.error .service) }
  | .supervising | .returned _ => s

/-- The publisher is alive, and so is the receiver of the controls. -/
def supervises (s : Worker) : Bool :=
  match s.main with
  | .supervising => true
  | _ => false

/-- The reporter has dropped its end of the channel. -/
def deaf (s : Worker) : Bool :=
  match s.reporter with
  | some (.ended _) => true
  | _ => false

/-- `EventPublisher::publish`, by the supervisor. -/
def publish (kind : EventKind) (s : Worker) : Worker :=
  if s.supervises then
    { s with
      published := s.published ++ [kind]
      events := if s.deaf then s.events else step eventCapacity s.events (.offer kind) }
  else s

def take (s : Worker) : Worker :=
  if s.supervises then
    match s.controls with
    | [] => s
    | control :: controls => { s with controls, taken := s.taken ++ [control] }
  else s

def finish (result : Except Error Int) (s : Worker) : Worker :=
  if s.supervises then { s with main := .joining, result := some result } else s

/-- The next step of the reporter. -/
def report (w : WorkerSettings) (accepted : Bool) (s : Worker) : Worker :=
  match s.reporter with
  | some .receiving =>
    match s.events.waiting with
    | [] => if s.supervises then s else { s with reporter := some (.ended (.ok ())) }
    | kind :: _ =>
      match stateOf kind with
      | none => { s with events := step eventCapacity s.events .take, done := s.done ++ [kind] }
      | some state =>
        { s with events := step eventCapacity s.events .take, reporter := some (.reporting kind state) }
  | some (.reporting kind state) =>
    if accepted then
      { s with reporter := some .receiving, statuses := s.statuses ++ [stateReport w state], done := s.done ++ [kind] }
    else { s with reporter := some (.ended (.error .service)) }
  | _ => s

/-- The service manager calls the handler. -/
def deliver (w : WorkerSettings) (event : ServiceControl) (s : Worker) : Worker :=
  match s.dispatcher with
  | .idle =>
    if s.registered then
      { s with dispatcher := .reporting (handler w.toSettings event), delivered := s.delivered ++ [event] }
    else s
  | _ => s

/-- The receiver of the controls is alive. -/
def listens (s : Worker) : Bool :=
  match s.main with
  | .settingSlot | .starting | .supervising => true
  | _ => false

/-- The next step of the handler. -/
def handle (accepted : Bool) (s : Worker) : Worker :=
  match s.dispatcher with
  | .idle => s
  | .reporting handling =>
    match handling.report with
    | none => { s with dispatcher := .sending handling }
    | some status =>
      -- the result of `set_status` is ignored
      if s.slot && accepted then
        { s with dispatcher := .sending handling, statuses := s.statuses ++ [{ source := .handler, status }] }
      else { s with dispatcher := .sending handling }
  | .sending handling =>
    { s with
      dispatcher := .idle
      controls := if s.listens then trySend s.controls handling.control else s.controls }

def turn (w : WorkerSettings) (s : Worker) : WorkerTurn → Worker
  | .proceed accepted => s.proceed w accepted
  | .publish kind => s.publish kind
  | .take => s.take
  | .finish result => s.finish result
  | .report accepted => s.report w accepted
  | .deliver event => s.deliver w event
  | .handle accepted => s.handle accepted

def run (w : WorkerSettings) (turns : List WorkerTurn) : Worker := turns.foldl (turn w) {}

/-! ## What the service manager is told -/

/-- ... by the worker and its reporter. -/
def own (s : Worker) : List Reported := s.statuses.filter (fun r => r.source ≠ .handler)

end Worker

/-- `StartPending`, and the states of the events that the reporter is done with. -/
def story (w : WorkerSettings) (done : List EventKind) : List Reported :=
  startPending w :: (done.filterMap stateOf).map (stateReport w)

/-- The events that were taken are those that the reporter is done with and the one that it reports or could not
report. -/
def Reporter.Holds (done taken : List EventKind) : Option Reporter → Prop
  | none | some .receiving | some (.ended (.ok ())) => taken = done
  | some (.reporting kind state) => taken = done ++ [kind] ∧ stateOf kind = some state
  | some (.ended (.error _)) => ∃ kind, taken = done ++ [kind]

/-- The reporter takes what was published, in order, and ends for no other reason than a refused status before it has
taken all. -/
structure Reads (s : Worker) : Prop where
  holds : Reporter.Holds s.done s.events.taken s.reporter
  sublist : (s.events.taken ++ s.events.waiting).Sublist s.published
  ended : s.reporter = some (.ended (.ok ())) → s.supervises = false ∧ s.events.waiting = []

/-- What was told, by the statement that comes next. -/
def Tells (w : WorkerSettings) (s : Worker) : Prop :=
  match s.main with
  | .registering | .settingSlot | .starting => s.reporter = none ∧ s.own = [] ∧ s.done = []
  | .supervising => s.reporter.isSome ∧ s.own = story w s.done
  | .joining => s.reporter.isSome ∧ s.result.isSome ∧ s.own = story w s.done
  | .stopping reporter => s.reporter = some (.ended reporter) ∧ s.result.isSome ∧ s.own = story w s.done
  | .returned outcome =>
    (s.reporter = none ∧ s.own = [] ∧ outcome = .error .service) ∨
    ∃ reporter result, s.reporter = some (.ended reporter) ∧ s.result = some result ∧
      (s.own = story w s.done ∧ outcome = .error .service ∨
        s.own = story w s.done ++ [stoppedWith result] ∧ outcome = workerResult reporter result)

section Steps

variable {w : WorkerSettings} {s : Worker}

theorem Reads.of_same {t : Worker} (h : Reads s) (hreporter : t.reporter = s.reporter) (hdone : t.done = s.done)
    (hevents : t.events = s.events) (hpublished : t.published = s.published)
    (hends : s.supervises = false → t.supervises = false) : Reads t := by
  refine ⟨?_, ?_, fun hended => ?_⟩
  · rw [hreporter, hdone, hevents]
    exact h.holds
  · rw [hevents, hpublished]
    exact h.sublist
  · rw [hreporter] at hended
    obtain ⟨hidle, hwaiting⟩ := h.ended hended
    exact ⟨hends hidle, by rw [hevents, hwaiting]⟩

theorem Tells.of_same {t : Worker} (h : Tells w s) (hmain : t.main = s.main) (hreporter : t.reporter = s.reporter)
    (hresult : t.result = s.result) (hown : t.own = s.own) (hdone : t.done = s.done) : Tells w t := by
  unfold Tells at h ⊢
  rw [hmain, hreporter, hresult, hown, hdone]
  exact h

theorem own_append (s : Worker) (reported : Reported) (h : reported.source ≠ .handler) :
    Worker.own { s with statuses := s.statuses ++ [reported] } = s.own ++ [reported] := by
  simp [Worker.own, h]

theorem story_append (w : WorkerSettings) (done : List EventKind) (kind : EventKind) :
    story w (done ++ [kind]) = story w done ++ ((stateOf kind).toList.map (stateReport w)) := by
  cases hstate : stateOf kind <;> simp [story, hstate]

/-! ### The worker -/

theorem proceed_tells (accepted : Bool) (h : Tells w s) : Tells w (s.proceed w accepted) := by
  unfold Tells at h
  unfold Worker.proceed
  cases hmain : s.main with
  | registering =>
    rw [hmain] at h
    cases accepted with
    | true => exact h
    | false => exact .inl ⟨h.1, h.2.1, rfl⟩
  | settingSlot =>
    rw [hmain] at h
    exact h
  | starting =>
    rw [hmain] at h
    obtain ⟨hreporter, hown, hdone⟩ := h
    cases accepted with
    | true =>
      have htold : Worker.own { s with statuses := s.statuses ++ [startPending w] } = story w s.done := by
        rw [own_append _ _ (by simp [startPending]), hown, hdone]
        rfl
      exact ⟨rfl, htold⟩
    | false => exact .inl ⟨hreporter, hown, rfl⟩
  | supervising =>
    rw [hmain] at h
    unfold Tells
    rw [hmain]
    exact h
  | joining =>
    rw [hmain] at h
    obtain ⟨hspawned, hresult, hown⟩ := h
    dsimp only
    split
    · rename_i reporter hreporter
      exact ⟨hreporter, hresult, hown⟩
    · unfold Tells
      rw [hmain]
      exact ⟨hspawned, hresult, hown⟩
  | stopping reporter =>
    rw [hmain] at h
    obtain ⟨hreporter, hresult, hown⟩ := h
    obtain ⟨result, hresult⟩ := Option.isSome_iff_exists.1 hresult
    dsimp only
    rw [hresult]
    cases accepted with
    | true =>
      have htold : Worker.own { s with statuses := s.statuses ++ [stoppedWith result] } =
          story w s.done ++ [stoppedWith result] := by
        rw [own_append _ _ (by simp [stoppedWith]), hown]
      exact .inr ⟨reporter, result, hreporter, rfl, .inr ⟨htold, rfl⟩⟩
    | false => exact .inr ⟨reporter, result, hreporter, rfl, .inl ⟨hown, rfl⟩⟩
  | returned outcome =>
    rw [hmain] at h
    unfold Tells
    rw [hmain]
    exact h

theorem proceed_reads (accepted : Bool) (htells : Tells w s) (h : Reads s) : Reads (s.proceed w accepted) := by
  unfold Worker.proceed
  cases hmain : s.main with
  | registering =>
    cases accepted with
    | true => exact h.of_same rfl rfl rfl rfl (fun _ => rfl)
    | false => exact h.of_same rfl rfl rfl rfl (fun _ => rfl)
  | settingSlot => exact h.of_same rfl rfl rfl rfl (fun _ => rfl)
  | starting =>
    cases accepted with
    | true =>
      unfold Tells at htells
      rw [hmain] at htells
      have hholds := h.holds
      rw [htells.1] at hholds
      exact ⟨hholds, h.sublist, fun hended => by cases hended⟩
    | false => exact h.of_same rfl rfl rfl rfl (fun _ => rfl)
  | joining =>
    dsimp only
    split
    · exact h.of_same rfl rfl rfl rfl (fun _ => rfl)
    · exact h
  | stopping reporter =>
    dsimp only
    split
    · exact h
    · cases accepted with
      | true => exact h.of_same rfl rfl rfl rfl (fun _ => rfl)
      | false => exact h.of_same rfl rfl rfl rfl (fun _ => rfl)
  | supervising => exact h
  | returned outcome => exact h

/-! ### The supervisor -/

theorem offer_taken (events : Channel EventKind) (kind : EventKind) :
    (step eventCapacity events (.offer kind)).taken = events.taken := by
  by_cases hroom : events.waiting.length < eventCapacity
  · rw [step, if_pos hroom]
  · rw [LossyChannel.step_full hroom]

theorem offer_sublist {events : Channel EventKind} {published : List EventKind} (kind : EventKind)
    (h : (events.taken ++ events.waiting).Sublist published) :
    ((step eventCapacity events (.offer kind)).taken ++ (step eventCapacity events (.offer kind)).waiting).Sublist
      (published ++ [kind]) := by
  by_cases hroom : events.waiting.length < eventCapacity
  · rw [step, if_pos hroom, ← List.append_assoc]
    exact h.append (List.Sublist.refl _)
  · rw [LossyChannel.step_full hroom]
    exact h.trans (List.sublist_append_left _ _)

theorem publish_reads (kind : EventKind) (h : Reads s) : Reads (s.publish kind) := by
  unfold Worker.publish
  split
  · rename_i hruns
    -- only a refused status ends the reporter before the supervisor has returned
    have hopen : ¬ s.reporter = some (.ended (.ok ())) := by
      intro hended
      rw [(h.ended hended).1] at hruns
      cases hruns
    refine ⟨?_, ?_, fun hended => absurd hended hopen⟩
    · dsimp only
      split
      · exact h.holds
      · rw [offer_taken]
        exact h.holds
    · dsimp only
      split
      · exact h.sublist.trans (List.sublist_append_left _ _)
      · exact offer_sublist kind h.sublist
  · exact h

theorem publish_tells (kind : EventKind) (h : Tells w s) : Tells w (s.publish kind) := by
  unfold Worker.publish
  split
  · exact h.of_same rfl rfl rfl rfl rfl
  · exact h

theorem take_reads (h : Reads s) : Reads s.take := by
  unfold Worker.take
  split
  · split
    · exact h
    · exact h.of_same rfl rfl rfl rfl id
  · exact h

theorem take_tells (h : Tells w s) : Tells w s.take := by
  unfold Worker.take
  split
  · split
    · exact h
    · exact h.of_same rfl rfl rfl rfl rfl
  · exact h

theorem finish_reads (result : Except Error Int) (h : Reads s) : Reads (s.finish result) := by
  unfold Worker.finish
  split
  · exact h.of_same rfl rfl rfl rfl (fun _ => rfl)
  · exact h

theorem supervising_of_supervises (h : s.supervises = true) : s.main = .supervising := by
  unfold Worker.supervises at h
  split at h
  · assumption
  · cases h

theorem finish_tells (result : Except Error Int) (h : Tells w s) : Tells w (s.finish result) := by
  unfold Worker.finish
  split
  · rename_i hruns
    unfold Tells at h
    rw [supervising_of_supervises hruns] at h
    exact ⟨h.1, rfl, h.2⟩
  · exact h

/-! ### The reporter -/

/-- While the reporter has not ended, the worker supervises or waits for it. -/
theorem Tells.living (h : Tells w s) {reporter : Reporter} (hreporter : s.reporter = some reporter)
    (hliving : ∀ result, reporter ≠ .ended result) :
    s.own = story w s.done ∧ (s.main = .supervising ∨ s.main = .joining ∧ s.result.isSome) := by
  unfold Tells at h
  cases hmain : s.main with
  | registering | settingSlot | starting =>
    rw [hmain, hreporter] at h
    cases h.1
  | supervising =>
    rw [hmain] at h
    exact ⟨h.2, .inl rfl⟩
  | joining =>
    rw [hmain] at h
    exact ⟨h.2.2, .inr ⟨rfl, h.2.1⟩⟩
  | stopping result =>
    rw [hmain, hreporter] at h
    exact absurd (Option.some.inj h.1) (hliving result)
  | returned outcome =>
    rw [hmain, hreporter] at h
    rcases h with ⟨hnone, -⟩ | ⟨result, -, hended, -⟩
    · cases hnone
    · exact absurd (Option.some.inj hended) (hliving result)

/-- What a living reporter does is told right. -/
theorem Tells.of_living {t : Worker} (hmain : s.main = .supervising ∨ s.main = .joining ∧ s.result.isSome)
    (hsame : t.main = s.main) (hreporter : t.reporter.isSome) (hresult : t.result = s.result)
    (hown : t.own = story w t.done) : Tells w t := by
  unfold Tells
  rw [hsame]
  rcases hmain with hmain | ⟨hmain, hfinished⟩
  · rw [hmain]
    exact ⟨hreporter, hown⟩
  · rw [hmain, hresult]
    exact ⟨hreporter, hfinished, hown⟩

theorem report_tells (accepted : Bool) (hreads : Reads s) (h : Tells w s) : Tells w (s.report w accepted) := by
  unfold Worker.report
  cases hreporter : s.reporter with
  | none => exact h
  | some reporter =>
    cases reporter with
    | ended result => exact h
    | receiving =>
      obtain ⟨hown, hmain⟩ := h.living hreporter (fun result heq => by cases heq)
      dsimp only
      split
      · split
        · exact h
        · exact .of_living hmain rfl rfl rfl hown
      · rename_i kind rest hwaiting
        split
        · rename_i hstate
          -- an event without a state adds nothing
          have hdone : s.own = story w (s.done ++ [kind]) := by
            rw [story_append, hstate]
            simpa using hown
          exact .of_living hmain rfl rfl rfl hdone
        · exact .of_living hmain rfl rfl rfl hown
    | reporting kind state =>
      obtain ⟨hown, hmain⟩ := h.living hreporter (fun result heq => by cases heq)
      have hholds := hreads.holds
      rw [hreporter] at hholds
      have hdone : s.own ++ [stateReport w state] = story w (s.done ++ [kind]) := by
        rw [story_append, hholds.2, hown]
        rfl
      dsimp only
      split
      · exact .of_living hmain rfl rfl rfl ((own_append s _ (by simp [stateReport])).trans hdone)
      · exact .of_living hmain rfl rfl rfl hown

theorem report_reads (accepted : Bool) (h : Reads s) : Reads (s.report w accepted) := by
  have hholds := h.holds
  have hsublist := h.sublist
  unfold Worker.report
  cases hreporter : s.reporter with
  | none => exact h
  | some reporter =>
    rw [hreporter] at hholds
    cases reporter with
    | ended result => exact h
    | receiving =>
      dsimp only
      split
      · rename_i hwaiting
        split
        · exact h
        · rename_i hidle
          exact ⟨hholds, hsublist, fun _ => ⟨by simpa [Worker.supervises] using hidle, hwaiting⟩⟩
      · rename_i kind rest hwaiting
        have htake : step eventCapacity s.events .take = ⟨rest, s.events.taken ++ [kind]⟩ := by simp [step, hwaiting]
        have hall : (s.events.taken ++ [kind] ++ rest).Sublist s.published := by simpa [hwaiting] using hsublist
        have htaken : s.events.taken = s.done := hholds
        split
        · refine ⟨?_, ?_, fun hended => by cases hended⟩
          · rw [htake, htaken]
            rfl
          · rw [htake]
            exact hall
        · rename_i state hstate
          refine ⟨?_, ?_, fun hended => by cases hended⟩
          · rw [htake, htaken]
            exact ⟨rfl, hstate⟩
          · rw [htake]
            exact hall
    | reporting kind state =>
      dsimp only
      split
      · exact ⟨hholds.1, hsublist, fun hended => by cases hended⟩
      · exact ⟨⟨kind, hholds.1⟩, hsublist, fun hended => by cases hended⟩

/-! ### The handler -/

theorem deliver_reads (event : ServiceControl) (h : Reads s) : Reads (s.deliver w event) := by
  unfold Worker.deliver
  split
  · split
    · exact h.of_same rfl rfl rfl rfl id
    · exact h
  · exact h

theorem deliver_tells (event : ServiceControl) (h : Tells w s) : Tells w (s.deliver w event) := by
  unfold Worker.deliver
  split
  · split
    · exact h.of_same rfl rfl rfl rfl rfl
    · exact h
  · exact h

theorem handle_reads (accepted : Bool) (h : Reads s) : Reads (s.handle accepted) := by
  unfold Worker.handle
  split
  · exact h
  · split
    · exact h.of_same rfl rfl rfl rfl id
    · split
      · exact h.of_same rfl rfl rfl rfl id
      · exact h.of_same rfl rfl rfl rfl id
  · exact h.of_same rfl rfl rfl rfl id

theorem handle_tells (accepted : Bool) (h : Tells w s) : Tells w (s.handle accepted) := by
  unfold Worker.handle
  split
  · exact h
  · split
    · exact h.of_same rfl rfl rfl rfl rfl
    · split
      · rename_i status hreport hslot
        have hown : Worker.own { s with statuses := s.statuses ++ [{ source := .handler, status }] } = s.own := by
          simp [Worker.own]
        exact h.of_same rfl rfl rfl hown rfl
      · exact h.of_same rfl rfl rfl rfl rfl
  · exact h.of_same rfl rfl rfl rfl rfl

/-- The controls that events stand for. -/
def controlsOf (w : WorkerSettings) (events : List ServiceControl) : List Control :=
  events.filterMap (fun event => (handler w.toSettings event).control)

/-- The controls on their way, by what the handler does. -/
def Dispatcher.Sends (w : WorkerSettings) (delivered : List ServiceControl) (sent : List Control) : Dispatcher → Prop
  | .idle => sent.Sublist (controlsOf w delivered)
  | .reporting handling | .sending handling => ∃ before event, delivered = before ++ [event] ∧
      handling = handler w.toSettings event ∧ sent.Sublist (controlsOf w before)

/-- The handler reports what it was called for, and sends it on while there is room. -/
structure Serves (w : WorkerSettings) (s : Worker) : Prop where
  statuses : ∀ r ∈ s.statuses, r.source = .handler →
    ∃ event ∈ s.delivered, (handler w.toSettings event).report = some r.status
  sends : s.dispatcher.Sends w s.delivered (s.taken ++ s.controls)
  room : s.controls.length ≤ controlCapacity

theorem Serves.of_same {t : Worker} (h : Serves w s) (hstatuses : ∀ r ∈ t.statuses, r.source = .handler → r ∈ s.statuses)
    (hdelivered : t.delivered = s.delivered) (hdispatcher : t.dispatcher = s.dispatcher) (htaken : t.taken = s.taken)
    (hcontrols : t.controls = s.controls) : Serves w t := by
  refine ⟨fun r hr hsource => ?_, ?_, ?_⟩
  · rw [hdelivered]
    exact h.statuses r (hstatuses r hr hsource) hsource
  · rw [hdelivered, hdispatcher, htaken, hcontrols]
    exact h.sends
  · rw [hcontrols]
    exact h.room

theorem mem_of_other {statuses : List Reported} {reported r : Reported} (h : r ∈ statuses ++ [reported])
    (hsource : r.source = .handler) (hother : reported.source ≠ .handler) : r ∈ statuses := by
  rcases List.mem_append.1 h with h | h
  · exact h
  · rw [List.mem_singleton.1 h] at hsource
    exact absurd hsource hother

theorem proceed_serves (accepted : Bool) (h : Serves w s) : Serves w (s.proceed w accepted) := by
  have hkeeps : ∀ r ∈ s.statuses, r.source = .handler → r ∈ s.statuses := fun _ hr _ => hr
  unfold Worker.proceed
  split
  · split
    · exact h.of_same hkeeps rfl rfl rfl rfl
    · exact h.of_same hkeeps rfl rfl rfl rfl
  · exact h.of_same hkeeps rfl rfl rfl rfl
  · split
    · exact h.of_same (fun r hr hsource => mem_of_other hr hsource (by simp [startPending])) rfl rfl rfl rfl
    · exact h.of_same hkeeps rfl rfl rfl rfl
  · split
    · exact h.of_same hkeeps rfl rfl rfl rfl
    · exact h
  · split
    · exact h
    · split
      · exact h.of_same (fun r hr hsource => mem_of_other hr hsource (by simp [stoppedWith])) rfl rfl rfl rfl
      · exact h.of_same hkeeps rfl rfl rfl rfl
  · exact h
  · exact h

theorem report_serves (accepted : Bool) (h : Serves w s) : Serves w (s.report w accepted) := by
  have hkeeps : ∀ r ∈ s.statuses, r.source = .handler → r ∈ s.statuses := fun _ hr _ => hr
  unfold Worker.report
  split
  · split
    · split
      · exact h
      · exact h.of_same hkeeps rfl rfl rfl rfl
    · split
      · exact h.of_same hkeeps rfl rfl rfl rfl
      · exact h.of_same hkeeps rfl rfl rfl rfl
  · split
    · exact h.of_same (fun r hr hsource => mem_of_other hr hsource (by simp [stateReport])) rfl rfl rfl rfl
    · exact h.of_same hkeeps rfl rfl rfl rfl
  · exact h

theorem publish_serves (kind : EventKind) (h : Serves w s) : Serves w (s.publish kind) := by
  unfold Worker.publish
  split
  · exact h.of_same (fun _ hr _ => hr) rfl rfl rfl rfl
  · exact h

theorem finish_serves (result : Except Error Int) (h : Serves w s) : Serves w (s.finish result) := by
  unfold Worker.finish
  split
  · exact h.of_same (fun _ hr _ => hr) rfl rfl rfl rfl
  · exact h

theorem take_serves (h : Serves w s) : Serves w s.take := by
  unfold Worker.take
  split
  · split
    · exact h
    · rename_i control controls hcontrols
      have hsent : s.taken ++ [control] ++ controls = s.taken ++ s.controls := by simp [hcontrols]
      have hroom := h.room
      rw [hcontrols, List.length_cons] at hroom
      refine ⟨h.statuses, ?_, ?_⟩
      · rw [hsent]
        exact h.sends
      · exact Nat.le_of_succ_le hroom
  · exact h

theorem deliver_serves (event : ServiceControl) (h : Serves w s) : Serves w (s.deliver w event) := by
  unfold Worker.deliver
  split
  · rename_i hidle
    split
    · have hsends := h.sends
      rw [hidle] at hsends
      refine ⟨fun r hr hsource => ?_, ⟨s.delivered, event, rfl, rfl, hsends⟩, h.room⟩
      obtain ⟨event, hmem, hreport⟩ := h.statuses r hr hsource
      exact ⟨event, List.mem_append_left _ hmem, hreport⟩
    · exact h
  · exact h

theorem trySend_length {controls : List Control} (control : Option Control)
    (h : controls.length ≤ controlCapacity) : (trySend controls control).length ≤ controlCapacity := by
  unfold trySend
  split
  · exact h
  · split
    · rw [List.length_append]
      assumption
    · exact h

theorem trySend_sublist {taken controls sent : List Control} (control : Option Control)
    (h : (taken ++ controls).Sublist sent) : (taken ++ trySend controls control).Sublist (sent ++ control.toList) := by
  unfold trySend
  split
  · simpa using h
  · split
    · rw [← List.append_assoc]
      exact h.append (List.Sublist.refl _)
    · exact h.trans (List.sublist_append_left _ _)

theorem handle_serves (accepted : Bool) (h : Serves w s) : Serves w (s.handle accepted) := by
  have hsends := h.sends
  unfold Worker.handle
  split
  · exact h
  · rename_i handling hreporting
    rw [hreporting] at hsends
    split
    · exact ⟨h.statuses, hsends, h.room⟩
    · rename_i status hreport
      split
      · refine ⟨fun r hr hsource => ?_, hsends, h.room⟩
        rcases List.mem_append.1 hr with hold | hnew
        · exact h.statuses r hold hsource
        · obtain ⟨before, event, hdelivered, rfl, -⟩ := hsends
          obtain rfl := List.mem_singleton.1 hnew
          exact ⟨event, by simp [hdelivered], hreport⟩
      · exact ⟨h.statuses, hsends, h.room⟩
  · rename_i handling hsending
    rw [hsending] at hsends
    obtain ⟨before, event, hdelivered, rfl, hsent⟩ := hsends
    have hcontrols : controlsOf w s.delivered =
        controlsOf w before ++ (handler w.toSettings event).control.toList := by
      rw [hdelivered, controlsOf, List.filterMap_append]
      cases hcontrol : (handler w.toSettings event).control <;> simp [controlsOf, hcontrol]
    refine ⟨h.statuses, ?_, ?_⟩
    · change (s.taken ++ (if s.listens then trySend s.controls (handler w.toSettings event).control
        else s.controls)).Sublist (controlsOf w s.delivered)
      rw [hcontrols]
      split
      · exact trySend_sublist _ hsent
      · exact hsent.trans (List.sublist_append_left _ _)
    · dsimp only
      split
      · exact trySend_length _ h.room
      · exact h.room

end Steps

/-! ## Whole runs -/

/-- **Every turn keeps the story.** -/
structure Sound (w : WorkerSettings) (s : Worker) : Prop where
  reads : Reads s
  tells : Tells w s
  serves : Serves w s

theorem Sound.turn {w : WorkerSettings} {s : Worker} (h : Sound w s) (turn : WorkerTurn) : Sound w (s.turn w turn) := by
  cases turn with
  | proceed accepted =>
    exact ⟨proceed_reads accepted h.tells h.reads, proceed_tells accepted h.tells, proceed_serves accepted h.serves⟩
  | publish kind => exact ⟨publish_reads kind h.reads, publish_tells kind h.tells, publish_serves kind h.serves⟩
  | take => exact ⟨take_reads h.reads, take_tells h.tells, take_serves h.serves⟩
  | finish result => exact ⟨finish_reads result h.reads, finish_tells result h.tells, finish_serves result h.serves⟩
  | report accepted =>
    exact ⟨report_reads accepted h.reads, report_tells accepted h.reads h.tells, report_serves accepted h.serves⟩
  | deliver event => exact ⟨deliver_reads event h.reads, deliver_tells event h.tells, deliver_serves event h.serves⟩
  | handle accepted => exact ⟨handle_reads accepted h.reads, handle_tells accepted h.tells, handle_serves accepted h.serves⟩

theorem Reads.done_sublist {s : Worker} (h : Reads s) : s.done.Sublist s.published := by
  have htaken : s.events.taken.Sublist s.published := (List.sublist_append_left _ _).trans h.sublist
  have hholds := h.holds
  unfold Reporter.Holds at hholds
  split at hholds
  · exact hholds ▸ htaken
  · exact hholds ▸ htaken
  · exact hholds ▸ htaken
  · rw [hholds.1] at htaken
    exact (List.sublist_append_left _ _).trans htaken
  · obtain ⟨kind, hheld⟩ := hholds
    rw [hheld] at htaken
    exact (List.sublist_append_left _ _).trans htaken

theorem Tells.story {w : WorkerSettings} {s : Worker} (h : Tells w s) (hreads : Reads s) :
    s.own = [] ∨ ∃ told ending, told.Sublist s.published ∧ s.own = Service.story w told ++ ending ∧
      (ending = [] ∨ ∃ result, s.result = some result ∧ ending = [stoppedWith result]) := by
  have hopen : s.own = Service.story w s.done → ∃ told ending, told.Sublist s.published ∧
      s.own = Service.story w told ++ ending ∧
        (ending = [] ∨ ∃ result, s.result = some result ∧ ending = [stoppedWith result]) :=
    fun hown => ⟨s.done, [], hreads.done_sublist, by rw [hown, List.append_nil], .inl rfl⟩
  unfold Tells at h
  cases hmain : s.main with
  | registering | settingSlot | starting =>
    rw [hmain] at h
    exact .inl h.2.1
  | supervising =>
    rw [hmain] at h
    exact .inr (hopen h.2)
  | joining | stopping =>
    rw [hmain] at h
    exact .inr (hopen h.2.2)
  | returned outcome =>
    rw [hmain] at h
    rcases h with ⟨-, hown, -⟩ | ⟨reporter, result, -, hresult, ⟨hown, -⟩ | ⟨hown, -⟩⟩
    · exact .inl hown
    · exact .inr (hopen hown)
    · exact .inr ⟨s.done, _, hreads.done_sublist, hown, .inr ⟨result, hresult, rfl⟩⟩

theorem Tells.succeeded {w : WorkerSettings} {s : Worker} (h : Tells w s) (hreads : Reads s)
    (hmain : s.main = .returned (.ok ())) : ∃ code, s.result = some (.ok code) ∧ s.events.waiting = [] ∧
      s.own = Service.story w s.events.taken ++ [stoppedWith (.ok code)] := by
  unfold Tells at h
  rw [hmain] at h
  rcases h with ⟨-, -, hfailed⟩ | ⟨reporter, result, hreporter, hresult, ⟨-, hfailed⟩ | ⟨hown, houtcome⟩⟩
  · cases hfailed
  · cases hfailed
  · cases reporter with
    | error e => cases houtcome
    | ok =>
      cases result with
      | error e => cases houtcome
      | ok code =>
        have htaken := hreads.holds
        rw [hreporter] at htaken
        refine ⟨code, hresult, (hreads.ended hreporter).2, ?_⟩
        rw [hown, show s.events.taken = s.done from htaken]

theorem Serves.sent {w : WorkerSettings} {s : Worker} (h : Serves w s) :
    (s.taken ++ s.controls).Sublist (controlsOf w s.delivered) := by
  have hsends := h.sends
  unfold Dispatcher.Sends at hsends
  have hlater : (∃ before event, s.delivered = before ++ [event] ∧ (s.taken ++ s.controls).Sublist (controlsOf w before)) →
      (s.taken ++ s.controls).Sublist (controlsOf w s.delivered) := by
    rintro ⟨before, event, hdelivered, hsent⟩
    rw [hdelivered, controlsOf, List.filterMap_append]
    exact hsent.trans (List.sublist_append_left _ _)
  split at hsends
  · exact hsends
  · obtain ⟨before, event, hdelivered, -, hsent⟩ := hsends
    exact hlater ⟨before, event, hdelivered, hsent⟩
  · obtain ⟨before, event, hdelivered, -, hsent⟩ := hsends
    exact hlater ⟨before, event, hdelivered, hsent⟩

theorem run_sound (w : WorkerSettings) (turns : List WorkerTurn) : Sound w (Worker.run w turns) := by
  have hfrom : ∀ (turns : List WorkerTurn) (s : Worker), Sound w s → Sound w (turns.foldl (Worker.turn w) s) := by
    intro turns
    induction turns with
    | nil => exact fun _ h => h
    | cons turn turns ih => exact fun s h => ih _ (h.turn turn)
  refine hfrom turns {} ⟨⟨rfl, List.Sublist.refl _, fun hended => by cases hended⟩, ⟨rfl, rfl, rfl⟩, ⟨?_, ?_, ?_⟩⟩
  · exact fun r hr => absurd hr List.not_mem_nil
  · exact List.Sublist.refl _
  · exact Nat.zero_le _

/-- **The service manager is told one story**: however the worker, the reporter, the supervisor and the service manager
take turns, worker and reporter tell nothing, or `StartPending`, then the states of events in the order in which they were
published, and at most at the end `Stopped` with what the supervisor returned.  Where the worker succeeds, so did the
supervisor, and every event that found room was told in between.  The handler reports and sends what it was called for. -/
theorem service_tells_one_story (w : WorkerSettings) (turns : List WorkerTurn) :
    ((Worker.run w turns).own = [] ∨ ∃ told ending, told.Sublist (Worker.run w turns).published ∧
      (Worker.run w turns).own = story w told ++ ending ∧
      (ending = [] ∨ ∃ result, (Worker.run w turns).result = some result ∧ ending = [stoppedWith result])) ∧
    ((Worker.run w turns).main = .returned (.ok ()) → ∃ code, (Worker.run w turns).result = some (.ok code) ∧
      (Worker.run w turns).events.waiting = [] ∧
      (Worker.run w turns).own = story w (Worker.run w turns).events.taken ++ [stoppedWith (.ok code)]) ∧
    (∀ r ∈ (Worker.run w turns).statuses, r.source = .handler →
      ∃ event ∈ (Worker.run w turns).delivered, (handler w.toSettings event).report = some r.status) ∧
    ((Worker.run w turns).taken ++ (Worker.run w turns).controls).Sublist
      (controlsOf w (Worker.run w turns).delivered) ∧
    (Worker.run w turns).controls.length ≤ controlCapacity := by
  obtain ⟨hreads, htells, hserves⟩ := run_sound w turns
  generalize Worker.run w turns = s at *
  exact ⟨htells.story hreads, fun hmain => htells.succeeded hreads hmain, hserves.statuses, hserves.sent, hserves.room⟩

/-! ### A service that starts and stops -/

def plainSettings : WorkerSettings where
  name := "app"
  startHintMs := 30000
  heapDumpCode_ge := by decide
  heapDumpCode_ne := by decide

/-- The JVM starts, the service is stopped, and the supervisor returns. -/
def startsAndStops : List WorkerTurn :=
  [.proceed true, .proceed true, .proceed true, .publish (.jvmStarted 1 0), .report true, .deliver .stop, .report true,
    .handle true, .handle true, .take, .finish (.ok 0), .report true, .proceed true, .proceed true]

theorem start_and_stop_are_told : (Worker.run plainSettings startsAndStops).own =
    [startPending plainSettings, stateReport plainSettings .running, stoppedWith (.ok 0)] := by
  obtain ⟨code, hresult, -, hown⟩ := (service_tells_one_story plainSettings startsAndStops).2.1 rfl
  obtain rfl : (0 : Int) = code := Except.ok.inj (Option.some.inj hresult)
  exact hown

end Service
end Jss
