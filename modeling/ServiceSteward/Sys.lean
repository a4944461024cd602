import ServiceSteward.Listener
import ServiceSteward.Logging
import ServiceSteward.Scripted
import ServiceSteward.ServiceHandler
/-!
# Sys — the supervisor and what surrounds it

`Sys` is the supervisor's state together with the channels, the child process and the clock it works with.  Every
operation that meets the outside takes one `Answer` from the script: what happened outside since the last one (`Move`),
whether the operation fails, and what it returns.  So a script is one interleaving, and a run that uses its script up
is the beginning of a longer one.  `trace` is what an observer of the supervisor sees, oldest first.
-/
namespace Jss
namespace Supervisor

open Protocol (Packet ReceiveEvent BackendListener Poll)
open Scripted (Prog Outcome)

/-- `telemetry.rs`. -/
inductive EventKind where
  | wrapperStarted
  | jvmLaunching (id : Nat)
  | jvmStarted (id pid : Nat)
  | jvmStopped (id : Nat) (exitCode : Option Int)
  | restartRequested (reason : Text)
  | filterMatched (index : Nat)
  | protocolAuthenticated
  | protocolDisconnected
  | servicePaused
  | serviceResumed
  | threadDumpStarted (jvmId pid : Nat) (method : Text)
  | threadDumpCompleted (jvmId : Nat) (method : Text)
  | heapDumpStarted (jvmId pid : Nat) (path : Text)
  | heapDumpCompleted (jvmId : Nat) (path : Text) (bytes : Nat)
  | warning (message : Text)
  deriving DecidableEq, Repr

/-- What is passed to `LogWriter::write` or to `write_bytes`. -/
inductive Message where
  | text (t : Text)
  | bytes (b : Bytes)
  deriving DecidableEq, Repr

/-- Where the supervisor takes lines from the output channel. -/
inductive OutputSite where
  | select | batch | wait | waitBatch | drain
  deriving DecidableEq, Repr

/-- Where the supervisor reads its control channel. -/
inductive ControlSite where
  | eventLoop | restartDelay | paused
  deriving DecidableEq, Repr

/-- Where the supervisor asks whether the child has exited. -/
inductive WaitSite where
  | tick | shutdown | waiting | terminating | afterStop
  deriving DecidableEq, Repr

/-- What is configured to follow an exit of the JVM. -/
inductive ExitAction where
  | shutdown | restart | pause
  deriving DecidableEq, Repr

/-- What the ping watchdog compares, with the connection's unread events at that moment and the last time at which a
heap dump was running. -/
structure PingCheck where
  now : Instant
  lastPingResponse : Instant
  allowed : Duration
  unread : List ReceiveEvent
  dumping : Option Instant
  restarts : Bool
  deriving DecidableEq, Repr

inductive Obs where
  | published (kind : EventKind)
  | logged (level : LogLevel) (source : LogSource) (message : Message)
  | logFailed
  /-- A JVM was launched, or could not be. -/
  | spawned (id : Nat)
  | spawnFailed (id : Nat)
  /-- `select!` served this arm. -/
  | control (site : ControlSite) (control : Option Control)
  | took (site : OutputSite) (lines : List Bytes)
  | recorded (line : Bytes)
  /-- A packet or the end of the stream reached the connection's queue. -/
  | delivered (event : ReceiveEvent)
  | received (event : Option ReceiveEvent)
  | connected
  /-- The connection was dropped with these events unread. -/
  | dropped (unread : List ReceiveEvent)
  | sent (code : UInt8) (message : Text)
  | sendFailed
  /-- `try_wait`, its result, and the connection's unread events at that moment. -/
  | waited (site : WaitSite) (status : Option (Option Int)) (unread : List ReceiveEvent)
  | killed
  | reaped
  /-- The supervisor waits for a control in `wait_while_paused`. -/
  | waitingPaused
  /-- A restart or startup delay is over. -/
  | delayOver
  /-- What `on_exit_action` made of an exit code. -/
  | exitAction (code : Int) (action : ExitAction)
  | pingCheck (check : PingCheck)
  deriving DecidableEq, Repr

/-- `JvmCommand`, as far as it is read after it is built. -/
structure JvmCommand where
  arguments : List Text := []
  launchNote : Option Text := none
  redactedCommandLine : Text := []

inductive Completion where
  | created (path : Text) (bytes : Nat)
  | failed (path message : Text)
  deriving DecidableEq, Repr

/-- What the worker of a dump sends. -/
def Completion.ofResult (path : Text) : Except Text Nat → Completion
  | .ok bytes => .created path bytes
  | .error message => .failed path message

/-- The thread of a heap dump, with the size of the dump or what went wrong once it is done. -/
structure Worker where
  path : Text
  result : Option (Except Text Nat) := none

def Worker.completion (worker : Worker) : Option Completion := worker.result.map (.ofResult worker.path)

/-- `heap_dump::Task`, with its receiver as the number of the worker. -/
structure Task where
  path : Text
  timeout : Duration
  worker : Nat
  deriving DecidableEq, Repr

/-- A child process: running, or exited with a code if it has one. -/
inductive Child where
  | running
  | exited (code : Option Int)
  deriving DecidableEq, Repr

inductive Source where
  | output | controls | protocol | ticker
  deriving DecidableEq, Repr

/-- What happens outside between two operations of the supervisor. -/
inductive Move where
  | control (c : Control)
  /-- The service manager calls the control handler. -/
  | event (event : Service.ServiceControl)
  | closeControls
  | output (line : Bytes)
  | closeOutput
  | deliver (event : ReceiveEvent)
  | exit (code : Option Int)
  /-- A heap-dump worker ends. -/
  | dumped (worker : Nat) (result : Except Text Nat)
  | elapse (d : Duration)

/-- One answer of the environment.  Each operation reads what it needs. -/
structure Answer where
  moves : List Move := []
  failure : Option Error := none
  /-- The arm `select!` serves. -/
  source : Source := .ticker
  /-- A port, a process id. -/
  number : Nat := 0
  /-- A key, a path. -/
  text : Text := []
  /-- Whether a path exists. -/
  present : Bool := false
  command : JvmCommand := {}
  lines : List Bytes := []
  poll : Poll := { accepts := [], now := 0, reads := [], short := Protocol.short_of_no_reads }

/-- `JvmRun`. -/
structure JvmRun where
  jvmId : Nat := 0
  resuming : Bool := false
  command : JvmCommand := {}
  pid : Nat := 0
  outputOpen : Bool := true
  listener : BackendListener := {}
  key : Text := []
  connection : Option (List ReceiveEvent) := none
  everConnected : Bool := false
  launchedAt : Instant := 0
  started : Bool := false
  startupSeconds : Nat := 0
  startupDeadline : Option Instant := none
  pingInterval : Duration := 0
  pingTimeout : Duration := 0
  nextPing : Instant := 0
  lastPingResponse : Instant := 0
  pausedInPlace : Bool := false
  heapDumpTask : Option Task := none
  /-- When the ticker of `event_loop` delivers next. -/
  nextTick : Instant := 0

structure Sys where
  script : List Answer := []
  clock : Instant := 0
  controls : List Control := []
  controlsOpen : Bool := true
  /-- What the service control handler was registered with. -/
  service : Service.Settings := {}
  /-- What was to be put in the control channel so far. -/
  offers : List Service.Offer := []
  output : List Bytes := []
  outputOpen : Bool := true
  /-- The children launched so far, the last one first. -/
  children : List Child := []
  /-- The heap-dump workers started so far. -/
  workers : List Worker := []
  /-- When a worker last finished. -/
  dumpEnded : Option Instant := none
  run : JvmRun := {}
  trace : List Obs := []
  /-- The trace, with the time of each observation. -/
  timed : List (Instant × Obs) := []
  /-- The trace, with the `JvmRun` at each observation. -/
  moments : List (JvmRun × Obs) := []

/-! ## The environment -/

/-- What a move does.  The readers feed the channels of the current JVM, and only a running child exits. -/
def Sys.move (s : Sys) : Move → Sys
  | .control c => { s with controls := s.controls ++ [c], offers := s.offers ++ [.direct c] }
  | .event event =>
    { s with
      controls := Service.trySend s.controls (Service.handler s.service event).control
      offers := s.offers ++ [.handled (Service.handler s.service event) s.controls.length] }
  | .closeControls => { s with controlsOpen := false }
  | .output line => if s.outputOpen then { s with output := s.output ++ [line] } else s
  | .closeOutput => { s with outputOpen := false }
  | .deliver event =>
    match s.run.connection with
    | none => s
    | some unread =>
      { s with
        run := { s.run with connection := some (unread ++ [event]) }
        trace := s.trace ++ [.delivered event]
        timed := s.timed ++ [(s.clock, .delivered event)]
        moments := s.moments ++ [(s.run, .delivered event)] }
  | .exit code =>
    match s.children with
    | .running :: older => { s with children := .exited code :: older }
    | _ => s
  | .dumped worker result =>
    match s.workers[worker]? with
    | some ⟨path, none⟩ =>
      { s with
        workers := s.workers.set worker ⟨path, some result⟩
        dumpEnded := some s.clock }
    | _ => s
  | .elapse d => { s with clock := s.clock + d }

/-- The next answer of the environment, after the moves that come with it. -/
def ask : Prog Sys Error Answer := fun s =>
  match s.script with
  | [] => .blocked s
  | a :: rest => .ok a (a.moves.foldl Sys.move { s with script := rest })

def Sys.note (s : Sys) (o : Obs) : Sys :=
  { s with trace := s.trace ++ [o], timed := s.timed ++ [(s.clock, o)], moments := s.moments ++ [(s.run, o)] }

def emit (o : Obs) : Prog Sys Error Unit := Prog.modify (·.note o)

/-- A loop that ends no later than the script: a turn takes at least one answer. -/
def repeatFrom {α β : Type} (a : α) (body : α → Prog Sys Error (α ⊕ β)) : Prog Sys Error β := fun s =>
  Prog.iterate body (s.script.length + 1) a s

/-- An operation whose only result is whether it failed. -/
def attemptOutside : Prog Sys Error Answer := do
  let a ← ask
  match a.failure with
  | some e => Prog.throw e
  | none => return a

/-- `Instant::now`. -/
def now : Prog Sys Error Instant := do
  let _ ← ask
  return (← Prog.get).clock

def publish (kind : EventKind) : Prog Sys Error Unit := emit (.published kind)

/-- `LogWriter::write` and `write_bytes`. -/
def logMessage (level : LogLevel) (source : LogSource) (message : Message) : Prog Sys Error Unit := do
  let a ← ask
  match a.failure with
  | some e => do
    emit .logFailed
    Prog.throw e
  | none => emit (.logged level source message)

def log (level : LogLevel) (source : LogSource) (message : Text) : Prog Sys Error Unit :=
  logMessage level source (.text message)

def logBytes (level : LogLevel) (source : LogSource) (message : Bytes) : Prog Sys Error Unit :=
  logMessage level source (.bytes message)

/-- `controls.recv`: none once the channel is closed and empty. -/
def recvControl (site : ControlSite) : Prog Sys Error (Option Control) := do
  let _ ← ask
  let s ← Prog.get
  match s.controls with
  | c :: rest => do
    Prog.modify (fun s => { s with controls := rest })
    emit (.control site (some c))
    return some c
  | [] =>
    if s.controlsOpen then Prog.blocked
    else do
      emit (.control site none)
      return none

/-- What `recv_timeout` returns. -/
inductive Received (α : Type) where
  | item (a : α)
  | timeout
  | disconnected

/-- `controls.recv_timeout`.  On a timeout the clock has moved past it. -/
def recvControlTimeout (site : ControlSite) (timeout : Duration) : Prog Sys Error (Received Control) := do
  let start := (← Prog.get).clock
  let _ ← ask
  let s ← Prog.get
  match s.controls with
  | c :: rest => do
    Prog.modify (fun s => { s with controls := rest })
    emit (.control site (some c))
    return .item c
  | [] =>
    if s.controlsOpen then do
      Prog.modify (fun s => { s with clock := max s.clock (start + timeout) })
      return .timeout
    else do
      emit (.control site none)
      return .disconnected

/-- `output.recv_timeout`. -/
def recvOutputTimeout (site : OutputSite) (timeout : Duration) : Prog Sys Error (Received Bytes) := do
  let start := (← Prog.get).clock
  let _ ← ask
  let s ← Prog.get
  match s.output with
  | line :: rest => do
    Prog.modify (fun s => { s with output := rest })
    emit (.took site [line])
    return .item line
  | [] =>
    if s.outputOpen then do
      Prog.modify (fun s => { s with clock := max s.clock (start + timeout) })
      return .timeout
    else return .disconnected

/-- `output.try_iter().take(OUTPUT_BATCH).collect()`. -/
def takeBatch (site : OutputSite) (limit : Nat) : Prog Sys Error (List Bytes) := do
  let _ ← ask
  let s ← Prog.get
  Prog.modify (fun s => { s with output := s.output.drop limit })
  emit (.took site (s.output.take limit))
  return s.output.take limit

def sleep (d : Duration) : Prog Sys Error Unit := do
  let start := (← Prog.get).clock
  let _ ← ask
  Prog.modify (fun s => { s with clock := max s.clock (start + d) })

/-! ## The child -/

/-- `child.try_wait`: the exit code, if the child has exited and has one. -/
def tryWait (site : WaitSite) : Prog Sys Error (Option (Option Int)) := do
  let _ ← attemptOutside
  let s ← Prog.get
  let status := match s.children with
    | .exited code :: _ => some code
    | _ => none
  emit (.waited site status (s.run.connection.getD []))
  return status

/-- `child.kill`. -/
def kill : Prog Sys Error Unit := do
  let _ ← attemptOutside
  emit .killed

/-- `child.wait`: a child that was killed has exited when it returns. -/
def wait : Prog Sys Error Unit := do
  let _ ← attemptOutside
  Prog.modify (fun s =>
    match s.children with
    | .running :: older => { s with children := .exited (some 1) :: older }
    | _ => s)
  emit .reaped

def terminateChild : Prog Sys Error Unit := do
  if (← tryWait .terminating).isNone then kill
  wait

end Supervisor
end Jss
