import ServiceSteward.JvmRun
/-!
# Frame — what the supervisor's methods leave alone

Most of what a method does is logging, reporting, talking to the JVM and letting the environment move.  A `Frame` is a
relation all of this keeps, and each method has one lemma for every frame.  A claim about runs then names its relation,
shows it to be a frame, and looks at the few operations that matter to it.
-/
namespace Jss
namespace Supervisor

open Protocol (ReceiveEvent)
open Scripted

/-- The events that say whether the service is started, paused or resumed, or that a JVM is launched. -/
def EventKind.lifecycle : EventKind → Bool
  | .jvmLaunching _ | .jvmStarted _ _ | .servicePaused | .serviceResumed => true
  | _ => false

/-- The last record of a run that ends well. -/
def Obs.marker : Obs := .logged .status .wrapper (.text stoppedMarker)

/-- **The observations no claim counts**: they neither launch, start, pause nor stop anything, take no line and read no
control, and end no record of the run. -/
def Obs.plain : Obs → Prop
  | .published kind => kind.lifecycle = false
  | .logged level source message => .logged level source message ≠ Obs.marker
  | .waited site _ _ => site ≠ .tick ∧ site ≠ .shutdown
  | .logFailed | .sent _ _ | .sendFailed | .killed | .reaped | .pingCheck _ => True
  | _ => False

def EventKind.dumping : EventKind → Bool
  | .heapDumpStarted _ _ _ | .heapDumpCompleted _ _ _ => true
  | .warning message => message.head? == some 'H'
  | _ => false

/-- **The observations that say nothing of the connection, the child or a heap dump either.** -/
def Obs.bland : Obs → Prop
  | .published kind => kind.lifecycle = false ∧ kind.dumping = false
  | .logged level source message => .logged level source message ≠ Obs.marker
  | .waited site _ _ => site ≠ .tick ∧ site ≠ .shutdown
  | .logFailed => True
  | _ => False

theorem Obs.bland.plain {o : Obs} (h : o.bland) : o.plain := by
  cases o with
  | published kind => exact h.1
  | logged level source message => exact h
  | waited site status unread => exact h
  | logFailed => trivial
  | _ => exact h.elim

/-- The connection dropped with its unread events. -/
def Sys.disconnect (s : Sys) (unread : List ReceiveEvent) : Sys :=
  { s with run := { s.run with connection := none } }.note (.dropped unread)

/-- What is read of a `JvmRun` to watch over the JVM has not changed. -/
structure JvmRun.Same (run run' : JvmRun) : Prop where
  jvmId : run'.jvmId = run.jvmId := by rfl
  pid : run'.pid = run.pid := by rfl
  launchedAt : run'.launchedAt = run.launchedAt := by rfl
  connection : run'.connection = run.connection := by rfl
  everConnected : run'.everConnected = run.everConnected := by rfl
  pausedInPlace : run'.pausedInPlace = run.pausedInPlace := by rfl
  lastPingResponse : run'.lastPingResponse = run.lastPingResponse := by rfl
  nextPing : run'.nextPing = run.nextPing := by rfl
  pingInterval : run'.pingInterval = run.pingInterval := by rfl
  pingTimeout : run'.pingTimeout = run.pingTimeout := by rfl
  heapDumpTask : run'.heapDumpTask = run.heapDumpTask := by rfl

/-- Nothing has happened but for the clock, the script and what the output channel holds. -/
structure Sys.Same (s t : Sys) : Prop where
  trace : t.trace = s.trace := by rfl
  timed : t.timed = s.timed := by rfl
  moments : t.moments = s.moments := by rfl
  script : t.script.length ≤ s.script.length := by exact Nat.le_refl _
  clock : s.clock ≤ t.clock := by exact Nat.le_refl _
  children : t.children = s.children := by rfl
  workers : t.workers = s.workers := by rfl
  dumpEnded : t.dumpEnded = s.dumpEnded := by rfl
  controls : t.controls = s.controls := by rfl
  offers : t.offers = s.offers := by rfl
  run : s.run.Same t.run := by exact {}

/-- What `Same` compares. -/
def JvmRun.core (run : JvmRun) :=
  (run.jvmId, run.pid, run.launchedAt, run.connection, run.everConnected, run.pausedInPlace, run.lastPingResponse,
    run.nextPing, run.pingInterval, run.pingTimeout, run.heapDumpTask)

def Sys.core (s : Sys) :=
  (s.trace, s.timed, s.moments, s.script, s.clock, s.children, s.workers, s.dumpEnded, s.controls, s.offers, s.run.core)

theorem JvmRun.Same.of_core {run run' : JvmRun} (h : run'.core = run.core) : run.Same run' := by
  simp only [JvmRun.core, Prod.mk.injEq] at h
  obtain ⟨hjvmId, hpid, hlaunched, hconnection, hever, hpaused, hlast, hnext, hinterval, htimeout, htask⟩ := h
  exact ⟨hjvmId, hpid, hlaunched, hconnection, hever, hpaused, hlast, hnext, hinterval, htimeout, htask⟩

theorem Sys.Same.of_core {s t : Sys} (h : t.core = s.core) : s.Same t := by
  simp only [Sys.core, Prod.mk.injEq] at h
  obtain ⟨htrace, htimed, hmoments, hscript, hclock, hchildren, hworkers, hdump, hcontrols, hoffers, hrun⟩ := h
  exact ⟨htrace, htimed, hmoments, by rw [hscript], by rw [hclock], hchildren, hworkers, hdump, hcontrols, hoffers,
    .of_core hrun⟩

/-- Time passes. -/
theorem Sys.Same.of_le {s : Sys} {clock : Instant} (h : s.clock ≤ clock) : s.Same { s with clock := clock } :=
  { clock := h }

/-- **A relation kept by logging, reporting, and what happens outside.** -/
class Steady (R : Sys → Sys → Prop) : Prop extends IsPreorder Sys R where
  same : ∀ {s t : Sys}, s.Same t → R s t
  move : ∀ s m, R s (s.move m)
  note : ∀ s o, Obs.bland o → R s (s.note o)

/-- ... and by writing to the JVM. -/
class Talking (R : Sys → Sys → Prop) : Prop extends Steady R where
  sent : ∀ s code message, R s (s.note (.sent code message))
  sendFailed : ∀ s, R s (s.note .sendFailed)
  drop : ∀ s unread, s.run.connection = some unread → R s (s.disconnect unread)

/-- ... and by ending the child. -/
class Killing (R : Sys → Sys → Prop) : Prop extends Steady R where
  killed : ∀ s, R s (s.note .killed)
  reaped : ∀ s, R s (s.note .reaped)
  reap : ∀ s older, s.children = .running :: older → R s { s with children := .exited (some 1) :: older }

/-- ... and by heap dumps. -/
class Dumping (R : Sys → Sys → Prop) : Prop extends Steady R where
  worker : ∀ s worker, R s { s with workers := s.workers ++ [worker] }
  task : ∀ s task, R s { s with run := { s.run with heapDumpTask := task } }
  dumping : ∀ s kind, kind.lifecycle = false → R s (s.note (.published kind))

/-- ... and by the ping watchdog. -/
class Timing (R : Sys → Sys → Prop) : Prop extends Steady R where
  nextPing : ∀ s next, R s { s with run := { s.run with nextPing := next } }
  answered : ∀ s now, R s { s with run := { s.run with lastPingResponse := now } }
  check : ∀ s now, R s (s.note (.pingCheck (s.pingCheck now)))

/-- **A relation kept by everything that does not matter to it.** -/
class Frame (R : Sys → Sys → Prop) : Prop extends IsPreorder Sys R where
  same : ∀ {s t : Sys}, t.trace = s.trace → t.children = s.children → t.run.connection = s.run.connection →
    t.run.pausedInPlace = s.run.pausedInPlace → R s t
  move : ∀ s m, R s (s.move m)
  note : ∀ s o, Obs.plain o → R s (s.note o)
  drop : ∀ s unread, s.run.connection = some unread → R s (s.disconnect unread)
  reap : ∀ s older, s.children = .running :: older → R s { s with children := .exited (some 1) :: older }

section Frame

variable {R : Sys → Sys → Prop} [Frame R]

instance : Steady R where
  same h := Frame.same h.trace h.children h.run.connection h.run.pausedInPlace
  move := Frame.move
  note s o h := Frame.note s o h.plain

instance : Talking R where
  sent s _ _ := Frame.note s _ trivial
  sendFailed s := Frame.note s _ trivial
  drop := Frame.drop

instance : Killing R where
  killed s := Frame.note s _ trivial
  reaped s := Frame.note s _ trivial
  reap := Frame.reap

instance : Dumping R where
  worker _ _ := Frame.same rfl rfl rfl rfl
  task _ _ := Frame.same rfl rfl rfl rfl
  dumping s _ h := Frame.note s _ h

instance : Timing R where
  nextPing _ _ := Frame.same rfl rfl rfl rfl
  answered _ _ := Frame.same rfl rfl rfl rfl
  check s _ := Frame.note s _ trivial

end Frame

variable {R : Sys → Sys → Prop}

/-! ## Operations -/

section Operations

variable [Steady R]

theorem frame_moves : ∀ (moves : List Move) (s : Sys), R s (moves.foldl Sys.move s)
  | [], s => refl_of R s
  | m :: moves, s => trans_of R (Steady.move s m) (frame_moves moves (s.move m))

/-- The environment's next answer comes, or the script is over. -/
theorem ask_spec (s : Sys) : (ask s).All (fun _ => R s) (fun _ _ => False) (R s) := by
  unfold ask
  cases hs : s.script with
  | nil => exact refl_of R s
  | cons a rest =>
    have hsame : R s { s with script := rest } := Steady.same { script := by simp [hs] }
    exact trans_of R hsame (frame_moves a.moves _)

theorem keeps_ask : Keeps R ask := fun s => (ask_spec s).mono (fun _ _ h => h) (fun _ _ h => h.elim) (fun _ h => h)

theorem keeps_emit {o : Obs} (h : o.bland) : Keeps R (emit o) := fun s => Steady.note s o h

theorem keeps_publish {kind : EventKind} (h : kind.lifecycle = false) (h' : kind.dumping = false) :
    Keeps R (publish kind) := keeps_emit ⟨h, h'⟩

/-- A change of fields that no frame looks at. -/
theorem keeps_touch {f : Sys → Sys} (h : ∀ s, Sys.Same s (f s)) : Keeps R (Prog.modify f : Run Unit) :=
  fun s => Steady.same (h s)

theorem keeps_modifyRun {f : JvmRun → JvmRun} (h : ∀ run, JvmRun.Same run (f run)) : Keeps R (modifyRun f) :=
  keeps_touch (fun s => { run := h s.run })

theorem keeps_runIf {condition : Bool} {p : Run Unit} (h : Keeps R p) : Keeps R (runIf condition p) := by
  unfold runIf
  split
  · exact h
  · exact keeps_pure _

theorem keeps_attemptOutside : Keeps R attemptOutside := by
  unfold attemptOutside
  refine keeps_bind keeps_ask (fun a => ?_)
  split
  · exact keeps_throw _
  · exact keeps_pure _

theorem keeps_getRun : Keeps R getRun := keeps_bind keeps_get (fun _ => keeps_pure _)

theorem keeps_now : Keeps R now := by
  unfold now
  exact keeps_bind keeps_ask (fun _ => keeps_bind keeps_get (fun _ => keeps_pure _))

theorem keeps_elapsed : Keeps R elapsed := by
  unfold elapsed
  exact keeps_bind keeps_now (fun _ => keeps_bind keeps_getRun (fun _ => keeps_pure _))

theorem keeps_repeatFrom {α β : Type} {body : α → Run (α ⊕ β)} (h : ∀ a, Keeps R (body a)) (a : α) :
    Keeps R (repeatFrom a body) := fun s => keeps_iterate h _ a s

theorem keeps_logMessage {level : LogLevel} {source : LogSource} {message : Message}
    (h : .logged level source message ≠ Obs.marker) : Keeps R (logMessage level source message) := by
  unfold logMessage
  refine keeps_bind keeps_ask (fun a => ?_)
  split
  · exact keeps_bind (keeps_emit trivial) (fun _ => keeps_throw _)
  · exact keeps_emit h

theorem keeps_marker (h : ∀ s : Sys, R s (s.note Obs.marker)) : Keeps R (log .status .wrapper stoppedMarker) := by
  unfold log logMessage
  refine keeps_bind keeps_ask (fun a => ?_)
  split
  · exact keeps_bind (keeps_emit trivial) (fun _ => keeps_throw _)
  · exact h

theorem keeps_log {level : LogLevel} {source : LogSource} {message : Text}
    (h : .logged level source (.text message) ≠ Obs.marker) : Keeps R (log level source message) := keeps_logMessage h

theorem keeps_logBytes (level : LogLevel) (source : LogSource) (message : Bytes) :
    Keeps R (logBytes level source message) := keeps_logMessage (by simp [Obs.marker])

theorem keeps_sleep (d : Duration) : Keeps R (sleep d) := by
  unfold sleep
  refine keeps_bind keeps_get (fun _ => keeps_bind keeps_ask (fun _ => ?_))
  exact keeps_touch (fun _ => .of_le (Nat.le_max_left _ _))

end Operations

/-! ## Texts that are not the marker -/

theorem not_marker_of_level {level : LogLevel} {source : LogSource} {message : Message} (h : level ≠ .status) :
    .logged level source message ≠ Obs.marker := by
  unfold Obs.marker
  simp [h]

theorem not_marker_of_head (level : LogLevel) (source : LogSource) (c : Char) (t : Text) (h : c ≠ '<') :
    .logged level source (.text (c :: t)) ≠ Obs.marker := by
  have hne : c :: t ≠ stoppedMarker := fun he => h (List.cons.inj he).1
  unfold Obs.marker
  simp [hne]

theorem not_marker_of_last (level : LogLevel) (source : LogSource) {t : Text} (h : t.getLast? ≠ some 'd') :
    .logged level source (.text t) ≠ Obs.marker := by
  have hne : t ≠ stoppedMarker := by
    rintro rfl
    exact h rfl
  unfold Obs.marker
  simp [hne]

/-- What a filter action logs ends in the action's own text. -/
theorem filterMessage_getLast (configured action : Text) (h : action ≠ []) :
    (filterMessage configured action).getLast? = action.getLast? := by
  unfold filterMessage
  split
  · rfl
  · rw [List.getLast?_append]
    cases hl : action.getLast? with
    | none => exact absurd (List.getLast?_eq_none_iff.1 hl) h
    | some c => rfl

theorem keeps_filterMessage [Steady R] (level : LogLevel) (configured : Text) {action : Text} (h : action ≠ [])
    (hlast : action.getLast? ≠ some 'd') : Keeps R (log level .wrapper (filterMessage configured action)) :=
  keeps_log (not_marker_of_last _ _ (by rw [filterMessage_getLast _ _ h]; exact hlast))

/-! ## The child and the control channel -/

section Child

variable [Steady R]

/-- **What `try_wait` says** is so when it says it. -/
theorem tryWait_spec (site : WaitSite) (s : Sys) :
    (tryWait site s).All
      (fun r t => ∃ u, R s u ∧ t = u.note (.waited site r (u.run.connection.getD [])) ∧ (r ≠ none → u.children.head? ≠ some .running))
      (fun _ => R s) (R s) := by
  unfold tryWait
  rw [all_bind]
  refine (keeps_attemptOutside (R := R) s).mono (fun a u hu => ?_) (fun _ _ h => h) (fun _ h => h)
  refine ⟨u, hu, rfl, fun hr => ?_⟩
  intro hrun
  apply hr
  cases hc : u.children with
  | nil => rfl
  | cons c older =>
    rw [hc] at hrun
    cases hrun
    rfl

theorem keeps_tryWait_of {site : WaitSite} (h : ∀ s status unread, R s (s.note (.waited site status unread))) :
    Keeps R (tryWait site) := by
  unfold tryWait
  refine keeps_bind keeps_attemptOutside (fun _ => keeps_bind keeps_get (fun s => ?_))
  exact keeps_bind (fun t => h t _ _) (fun _ => keeps_pure _)

theorem keeps_tryWait {site : WaitSite} (h : site ≠ .tick ∧ site ≠ .shutdown) : Keeps R (tryWait site) :=
  keeps_tryWait_of (fun s _ _ => Steady.note s _ h)

end Child

section Killing

variable [Killing R]

theorem keeps_kill : Keeps R kill := by
  unfold kill
  exact keeps_bind keeps_attemptOutside (fun _ => Killing.killed)

theorem keeps_wait : Keeps R wait := by
  unfold wait
  refine keeps_bind keeps_attemptOutside (fun _ => keeps_bind (fun s => ?_) (fun _ => Killing.reaped))
  rw [all_modify]
  split
  · exact Killing.reap s _ ‹_›
  · exact refl_of R s

theorem keeps_terminateChild : Keeps R terminateChild := by
  unfold terminateChild
  refine keeps_bind (keeps_tryWait (by decide)) (fun status => ?_)
  split
  · exact keeps_bind keeps_kill (fun _ => keeps_wait)
  · exact keeps_wait

end Killing

section Talking

variable [Talking R]

theorem keeps_send (code : UInt8) (message : Text) : Keeps R (send code message) := by
  unfold send
  refine keeps_bind keeps_ask (fun a => ?_)
  split
  · exact keeps_bind Talking.sendFailed (fun _ => keeps_throw _)
  · split
    · exact keeps_bind Talking.sendFailed (fun _ => keeps_throw _)
    · exact fun s => Talking.sent s _ _

theorem keeps_markDisconnected : Keeps R markDisconnected := by
  intro s
  unfold markDisconnected getRun
  simp only [all_bind, all_get, all_pure]
  cases hc : s.run.connection with
  | none => exact refl_of R s
  | some unread =>
    have hlog : Keeps R (log .debug .protocol
        "JVM control channel disconnected; waiting for the JVM to exit or reconnect.") :=
      keeps_log (not_marker_of_level (by decide))
    have hpublish : Keeps R (publish .protocolDisconnected) := keeps_publish rfl rfl
    have hrest := keeps_bind hlog (fun _ => hpublish)
    have hdrop : R s (s.disconnect unread) := Talking.drop s unread hc
    refine (hrest (s.disconnect unread)).mono ?_ ?_ ?_
    · exact fun _ t h => trans_of R hdrop h
    · exact fun _ t h => trans_of R hdrop h
    · exact fun t h => trans_of R hdrop h

theorem keeps_sendIfConnected (code : UInt8) (message : Text) : Keeps R (sendIfConnected code message) := by
  unfold sendIfConnected
  refine keeps_bind keeps_getRun (fun run => ?_)
  split
  · exact keeps_pure _
  · refine keeps_bind (keeps_attempt (keeps_send code message)) (fun r => ?_)
    cases r with
    | ok u => exact keeps_pure _
    | error e =>
      refine keeps_bind (keeps_log (not_marker_of_level (by decide))) (fun _ => ?_)
      exact keeps_bind keeps_markDisconnected (fun _ => keeps_pure _)

end Talking

/-! ## Diagnostics -/

section Diagnostics

variable [Steady R]

theorem keeps_logLines (level : LogLevel) (source : LogSource) : ∀ lines : List Bytes,
    Keeps R (logLines level source lines)
  | [] => keeps_pure ()
  | line :: lines => keeps_bind (keeps_logBytes level source line) (fun _ => keeps_logLines level source lines)

theorem keeps_captureWithJcmd (jvmId : Nat) : Keeps R (captureWithJcmd jvmId) := by
  unfold captureWithJcmd
  refine keeps_bind keeps_ask (fun a => keeps_bind (keeps_logLines _ _ _) (fun _ => ?_))
  split
  · exact keeps_throw _
  · exact keeps_pure _

theorem keeps_dumpThreads (run : JvmRun) (method : Except Error ThreadDumpMethod) :
    Keeps R (dumpThreads run method) := by
  unfold dumpThreads
  split
  · refine keeps_bind (keeps_publish rfl rfl) (fun _ => keeps_attempt ?_)
    exact keeps_bind keeps_attemptOutside (fun _ => keeps_pure _)
  · refine keeps_bind (keeps_log (not_marker_of_head _ _ _ _ (by decide))) (fun _ => ?_)
    refine keeps_bind (keeps_publish rfl rfl) (fun _ => keeps_attempt ?_)
    exact keeps_bind (keeps_captureWithJcmd _) (fun _ => keeps_pure _)
  · exact keeps_pure _

theorem keeps_requestThreadDump (sup : Supervisor) : Keeps R (requestThreadDump sup) := by
  unfold requestThreadDump
  refine keeps_bind keeps_getRun (fun run => keeps_bind (keeps_dumpThreads _ _) (fun r => ?_))
  cases r with
  | ok method => exact keeps_bind (keeps_publish rfl rfl) (fun _ => keeps_pure _)
  | error e =>
    refine keeps_bind (keeps_log (not_marker_of_level (by decide))) (fun _ => ?_)
    exact keeps_bind (keeps_publish rfl rfl) (fun _ => keeps_pure _)

theorem keeps_logJvmExit (exitCode : Option Int) : Keeps R (logJvmExit exitCode) := by
  unfold logJvmExit
  refine keeps_bind keeps_getRun (fun run => keeps_bind (keeps_publish rfl rfl) (fun _ => ?_))
  exact keeps_log (not_marker_of_head _ _ 'J' _ (by decide))

theorem keeps_handleStartPending (message : Bytes) : Keeps R (handleStartPending message) := by
  unfold handleStartPending
  refine keeps_bind keeps_getRun (fun run => ?_)
  split
  · exact keeps_bind keeps_now (fun _ => keeps_modifyRun (fun _ => .of_core rfl))
  · exact keeps_pure _

theorem keeps_publishMatches : ∀ found : List FilterMatch, Keeps R (publishMatches found)
  | [] => keeps_pure ()
  | _ :: found => keeps_bind (keeps_publish rfl rfl) (fun _ => keeps_publishMatches found)

/-- A ping, if sending it keeps the relation. -/
theorem stops_pingIfDue {E B : Sys → Sys → Prop} [Cut R E] [Cut R B]
    (hnext : ∀ s next, R s { s with run := { s.run with nextPing := next } })
    (hsend : ∀ code message, Stops R E B (sendIfConnected code message)) (now : Instant) :
    Stops R E B (pingIfDue now) := by
  unfold pingIfDue
  refine stops_bind (keeps_getRun (R := R)).stops (fun run => ?_)
  split
  · exact stops_bind (hsend _ _) (fun _ => Keeps.stops (R := R) (fun s => hnext s _))
  · exact (keeps_pure (R := R) _).stops

end Diagnostics

/-! ## Heap dumps -/

section Dumping

variable [Dumping R]

theorem keeps_heapDumpStart (config : Config) : Keeps R (heapDumpStart config) := by
  unfold heapDumpStart
  refine keeps_bind keeps_attemptOutside (fun a => keeps_bind keeps_get (fun s => ?_))
  exact keeps_bind (fun s => Dumping.worker s _) (fun _ => keeps_pure _)

theorem keeps_poll (task : Task) : Keeps R task.poll :=
  keeps_bind keeps_ask (fun _ => keeps_bind keeps_get (fun _ => keeps_pure _))

theorem keeps_startHeapDump (sup : Supervisor) : Keeps R (startHeapDump sup) := by
  unfold startHeapDump
  refine keeps_bind keeps_getRun (fun run => ?_)
  split
  · exact keeps_log (not_marker_of_level (by decide))
  · split
    · exact keeps_log (not_marker_of_level (by decide))
    · refine keeps_bind (keeps_attempt (keeps_heapDumpStart _)) (fun r => ?_)
      cases r with
      | ok task =>
        refine keeps_bind (keeps_log (not_marker_of_head _ _ 'H' _ (by decide))) (fun _ => ?_)
        exact keeps_bind (fun s => Dumping.dumping s _ rfl) (fun _ s => Dumping.task s _)
      | error e => exact keeps_bind (keeps_log (not_marker_of_level (by decide))) (fun _ => keeps_publish rfl rfl)

theorem keeps_reportCompletion (jvmId : Nat) (completion : Completion) : Keeps R (reportCompletion jvmId completion) := by
  cases completion with
  | created path bytes =>
    exact keeps_bind (keeps_log (not_marker_of_head _ _ 'H' _ (by decide))) (fun _ s => Dumping.dumping s _ rfl)
  | failed path message =>
    exact keeps_bind (keeps_log (not_marker_of_level (by decide))) (fun _ s => Dumping.dumping s _ rfl)

theorem keeps_pollHeapDump : Keeps R pollHeapDump := by
  unfold pollHeapDump
  refine keeps_bind keeps_getRun (fun run => ?_)
  split
  · exact keeps_pure _
  · refine keeps_bind (keeps_poll _) (fun completion => ?_)
    split
    · exact keeps_pure _
    · exact keeps_bind (fun s => Dumping.task s _) (fun _ => keeps_reportCompletion _ _)

end Dumping

/-! ## Output and shutdown -/

/-- A steady relation that counts neither the lines taken while the supervisor waits nor the records made of them. -/
class Outputting (R : Sys → Sys → Prop) : Prop extends Steady R where
  took : ∀ s site lines, site ≠ .select → site ≠ .batch → R s (s.note (.took site lines))
  recorded : ∀ s line, R s (s.note (.recorded line))

/-- A frame that does not count them either. -/
class Draining (R : Sys → Sys → Prop) : Prop extends Frame R where
  took : ∀ s site lines, site ≠ .select → site ≠ .batch → R s (s.note (.took site lines))
  recorded : ∀ s line, R s (s.note (.recorded line))

instance [Draining R] : Outputting R where
  took := Draining.took
  recorded := Draining.recorded

section Outputting

variable [Outputting R]

theorem keeps_recvOutputTimeout {site : OutputSite} (h : site ≠ .select) (h' : site ≠ .batch) (timeout : Duration) :
    Keeps R (recvOutputTimeout site timeout) := by
  unfold recvOutputTimeout
  refine keeps_bind keeps_get (fun s => keeps_bind keeps_ask (fun _ => keeps_bind keeps_get (fun s' => ?_)))
  split
  · refine keeps_bind (keeps_touch (fun _ => .of_core rfl)) (fun _ => ?_)
    exact keeps_bind (fun s => Outputting.took s site _ h h') (fun _ => keeps_pure _)
  · split
    · exact keeps_bind (keeps_touch (fun _ => .of_le (Nat.le_max_left _ _))) (fun _ => keeps_pure _)
    · exact keeps_pure _

theorem keeps_takeBatch {site : OutputSite} (h : site ≠ .select) (h' : site ≠ .batch) (limit : Nat) :
    Keeps R (takeBatch site limit) := by
  unfold takeBatch
  refine keeps_bind keeps_ask (fun _ => keeps_bind keeps_get (fun s => ?_))
  refine keeps_bind (keeps_touch (fun _ => .of_core rfl)) (fun _ => ?_)
  exact keeps_bind (fun s => Outputting.took s site _ h h') (fun _ => keeps_pure _)

theorem keeps_recordOutput (sup : Supervisor) (line : Bytes) : Keeps R (recordOutput sup line) := by
  unfold recordOutput
  refine keeps_bind keeps_getRun (fun run => keeps_bind (keeps_logBytes _ _ _) (fun _ => ?_))
  refine keeps_bind (fun s => Outputting.recorded s line) (fun _ => ?_)
  exact keeps_bind (keeps_publishMatches _) (fun _ => keeps_pure _)

theorem keeps_recordBatch (sup : Supervisor) : ∀ lines : List Bytes, Keeps R (recordBatch sup lines)
  | [] => keeps_pure ()
  | line :: lines => keeps_bind (keeps_recordOutput sup line) (fun _ => keeps_recordBatch sup lines)

theorem keeps_drainTurn (sup : Supervisor) (deadline : Instant) : Keeps R (drainTurn sup deadline) := by
  unfold drainTurn
  refine keeps_bind (keeps_recvOutputTimeout (by decide) (by decide) _) (fun r => ?_)
  cases r with
  | item line => exact keeps_bind (keeps_recordOutput sup line) (fun _ => keeps_pure _)
  | timeout => exact keeps_bind keeps_now (fun _ => keeps_pure _)
  | disconnected => exact keeps_pure _

theorem keeps_waitForOutput (sup : Supervisor) : Keeps R (waitForOutput sup) := by
  unfold waitForOutput
  refine keeps_bind (keeps_recvOutputTimeout (by decide) (by decide) _) (fun r => ?_)
  cases r with
  | item line =>
    refine keeps_bind (keeps_recordOutput sup line) (fun _ => ?_)
    exact keeps_bind (keeps_takeBatch (by decide) (by decide) _) (fun batch => keeps_recordBatch sup batch)
  | timeout => exact keeps_pure _
  | disconnected => exact keeps_sleep _

end Outputting

/-! ### From the ways of reading output and ending the child to the whole shutdown -/

/-- `shutdown_and_drain` once the child is known to run. -/
def stopChild (sup : Supervisor) (exitCode : Int) : Run Unit := do
  if ← sendIfConnected Protocol.STOP (Text.ofInt exitCode) then do
    if ← waitForExit sup (shutdownTimeout sup.config) then return ()
    else afterTimeout sup
  else do
    terminateChild
    drainRemainingOutput sup

theorem shutdownAndDrain_eq (sup : Supervisor) (exitCode : Int) :
    shutdownAndDrain sup exitCode = tryWait .shutdown >>= fun status =>
      match status with
      | some _ => drainRemainingOutput sup
      | none => stopChild sup exitCode := rfl

section Shutdown

variable [Steady R] {sup : Supervisor} {E B : Sys → Sys → Prop} [Cut R E] [Cut R B]

theorem stops_drainRemainingOutput (h : ∀ deadline, Stops R E B (drainTurn sup deadline)) :
    Stops R E B (drainRemainingOutput sup) := by
  unfold drainRemainingOutput
  refine stops_bind (keeps_now (R := R)).stops (fun now => ?_)
  exact fun s => stops_iterate (fun _ => h _) _ () s

variable (hdrain : Stops R E B (drainRemainingOutput sup)) (hout : Stops R E B (waitForOutput sup))

section Waiting

include hdrain hout

theorem stops_waitForExit (timeout : Duration) : Stops R E B (waitForExit sup timeout) := by
  unfold waitForExit
  refine stops_bind (keeps_now (R := R)).stops (fun now s => stops_iterate (fun _ => ?_) _ () s)
  unfold waitTurn
  refine stops_bind (keeps_tryWait (R := R) (by decide)).stops (fun status => ?_)
  split
  · exact stops_bind hdrain (fun _ => (keeps_pure (R := R) _).stops)
  · refine stops_bind (keeps_now (R := R)).stops (fun _ => ?_)
    split
    · exact (keeps_pure (R := R) _).stops
    · exact stops_bind hout (fun _ => (keeps_pure (R := R) _).stops)

end Waiting

variable (hterminate : Stops R E B terminateChild)

section Terminating

include hdrain hterminate

theorem stops_terminateForcibly : Stops R E B (terminateForcibly sup) := by
  unfold terminateForcibly
  refine stops_bind (keeps_log (R := R) (not_marker_of_level (by decide))).stops (fun _ => ?_)
  exact stops_bind hterminate (fun _ => hdrain)

include hout

theorem stops_afterTimeout : Stops R E B (afterTimeout sup) := by
  unfold afterTimeout
  refine stops_bind (keeps_log (R := R) (not_marker_of_level (by decide))).stops (fun _ => ?_)
  split
  · refine stops_bind (keeps_log (R := R) (not_marker_of_head _ _ _ _ (by decide))).stops (fun _ => ?_)
    refine stops_bind (keeps_requestThreadDump (R := R) sup).stops (fun requested => ?_)
    split
    · refine stops_bind (stops_waitForExit hdrain hout _) (fun exited => ?_)
      split
      · exact (keeps_pure (R := R) _).stops
      · exact stops_terminateForcibly hdrain hterminate
    · exact stops_terminateForcibly hdrain hterminate
  · exact stops_terminateForcibly hdrain hterminate

theorem stops_stopChild (hsend : ∀ code message, Stops R E B (sendIfConnected code message)) (exitCode : Int) :
    Stops R E B (stopChild sup exitCode) := by
  unfold stopChild
  refine stops_bind (hsend _ _) (fun sent => ?_)
  split
  · refine stops_bind (stops_waitForExit hdrain hout _) (fun exited => ?_)
    split
    · exact (keeps_pure (R := R) _).stops
    · exact stops_afterTimeout hdrain hout hterminate
  · exact stops_bind hterminate (fun _ => hdrain)

theorem stops_shutdownAndDrain (hask : Stops R E B (tryWait .shutdown))
    (hsend : ∀ code message, Stops R E B (sendIfConnected code message)) (exitCode : Int) :
    Stops R E B (shutdownAndDrain sup exitCode) := by
  rw [shutdownAndDrain_eq]
  refine stops_bind hask (fun status => ?_)
  cases status with
  | some code => exact hdrain
  | none => exact stops_stopChild hdrain hout hterminate hsend exitCode

end Terminating

end Shutdown

theorem keeps_drainRemainingOutput [Outputting R] (sup : Supervisor) : Keeps R (drainRemainingOutput sup) :=
  stops_drainRemainingOutput (fun deadline => (keeps_drainTurn sup deadline).stops)

theorem keeps_shutdownAndDrain [Draining R] (sup : Supervisor) (hask : Keeps R (tryWait .shutdown)) (exitCode : Int) :
    Keeps R (shutdownAndDrain sup exitCode) :=
  stops_shutdownAndDrain (keeps_drainRemainingOutput sup).stops (keeps_waitForOutput sup).stops
    keeps_terminateChild.stops hask.stops (fun code message => (keeps_sendIfConnected code message).stops) exitCode

end Supervisor
end Jss
