import ServiceSteward.Sys
/-!
# JvmRun — the methods of one JVM invocation

`JvmRun` of `supervisor.rs`, method by method: output and filters, controls, packets, the tick, pausing, diagnostics
and shutdown.  `eventLoop` is its `select!` loop.
-/
namespace Jss
namespace Supervisor

open Protocol (Packet ReceiveEvent START STOP RESTART PING STOP_PENDING START_PENDING STARTED STOPPED LOW_LOG_LEVEL
  SERVICE_CONTROL PROPERTIES LOG_BASE LOGFILE PAUSE RESUME GC)
open Scripted (Prog)

def startedAsServiceMarker : Text := "--> Wrapper Started as Service"
def startedAsConsoleMarker : Text := "--> Wrapper Started as Console"
def stoppedMarker : Text := "<-- Wrapper Stopped"

def tickInterval : Duration := Duration.fromMillis 50
def outputBatch : Nat := 4096
def minHandshakeTimeout : Duration := Duration.fromSecs 5

/-- `Supervisor`, with the decoder its filters use. -/
structure Supervisor where
  config : Config
  service : Bool := false
  decodeWindows1252 : Bytes → Text

namespace Supervisor

def filters (sup : Supervisor) : Filters := Filters.fromConfig sup.config

def pausable (sup : Supervisor) : Bool :=
  sup.config.getBool "wrapper.pausable" (sup.config.getBool "wrapper.ntservice.pausable" false)

def pausableStopsJvm (sup : Supervisor) : Bool :=
  sup.config.getBool "wrapper.pausable.stop_jvm" (sup.config.getBool "wrapper.ntservice.pausable.stop_jvm" true)

end Supervisor

inductive RunOutcome where
  | stop (code : Int)
  | pause
  | exited (elapsed : Duration) (exitCode : Int)
  | restart (elapsed : Duration) (automatic : Bool) (exitCode : Int)
  deriving DecidableEq, Repr

abbrev Run := Prog Sys Error

def getRun : Run JvmRun := do
  return (← Prog.get).run

def modifyRun (f : JvmRun → JvmRun) : Run Unit := Prog.modify (fun s => { s with run := f s.run })

def runIf (condition : Bool) (p : Run Unit) : Run Unit := if condition then p else return ()

/-- `launched_at.elapsed()`. -/
def elapsed : Run Duration := do
  let now ← now
  return now - (← getRun).launchedAt

/-! ## The control channel -/

/-- `Connection::send`. -/
def send (code : UInt8) (message : Text) : Run Unit := do
  let a ← ask
  match (Packet.text code message).writeTo with
  | .error e => do
    emit .sendFailed
    Prog.throw e
  | .ok _ =>
    match a.failure with
    | some e => do
      emit .sendFailed
      Prog.throw e
    | none => emit (.sent code message)

def markDisconnected : Run Unit := do
  match (← getRun).connection with
  | none => return ()
  | some unread => do
    modifyRun (fun run => { run with connection := none })
    emit (.dropped unread)
    log .debug .protocol "JVM control channel disconnected; waiting for the JVM to exit or reconnect."
    publish .protocolDisconnected

def sendIfConnected (code : UInt8) (message : Text) : Run Bool := do
  match (← getRun).connection with
  | none => return false
  | some _ =>
    match ← Prog.attempt (send code message) with
    | .ok () => return true
    | .error e => do
      log .error .protocol ("Control channel write failed: ".toList ++ e.display)
      markDisconnected
      return false

/-! ## Output -/

def publishMatches : List FilterMatch → Run Unit
  | [] => return ()
  | matched :: rest => do
    publish (.filterMatched matched.index)
    publishMatches rest

def recordOutput (sup : Supervisor) (line : Bytes) : Run (List FilterMatch) := do
  logBytes .info (.jvm (← getRun).jvmId) line
  emit (.recorded line)
  publishMatches (sup.filters.inspectBytes sup.decodeWindows1252 line)
  return sup.filters.inspectBytes sup.decodeWindows1252 line

/-- One turn of `drain_remaining_output`'s loop. -/
def drainTurn (sup : Supervisor) (deadline : Instant) : Run (Unit ⊕ Unit) := do
  match ← recvOutputTimeout .drain (Duration.fromMillis 25) with
  | .item line => do
    let _ ← recordOutput sup line
    return .inl ()
  | .disconnected => return .inr ()
  | .timeout => do
    let now ← now
    return if now ≥ deadline then .inr () else .inl ()

def drainRemainingOutput (sup : Supervisor) : Run Unit := do
  let now ← now
  repeatFrom () (fun _ => drainTurn sup (now + Duration.fromSecs 1))

/-- The lines that follow the first one in `wait_for_exit`. -/
def recordBatch (sup : Supervisor) : List Bytes → Run Unit
  | [] => return ()
  | line :: rest => do
    let _ ← recordOutput sup line
    recordBatch sup rest

/-- What `wait_for_exit` does with its receive. -/
def waitForOutput (sup : Supervisor) : Run Unit := do
  match ← recvOutputTimeout .wait (Duration.fromMillis 50) with
  | .item line => do
    let _ ← recordOutput sup line
    let batch ← takeBatch .waitBatch outputBatch
    recordBatch sup batch
  | .disconnected => sleep (Duration.fromMillis 50)
  | .timeout => return ()

/-- One turn of `wait_for_exit`'s loop. -/
def waitTurn (sup : Supervisor) (deadline : Instant) : Run (Unit ⊕ Bool) := do
  match ← tryWait .waiting with
  | some _ => do
    drainRemainingOutput sup
    return .inr true
  | none => do
    let now ← now
    if now ≥ deadline then return .inr false
    else do
      waitForOutput sup
      return .inl ()

def waitForExit (sup : Supervisor) (timeout : Duration) : Run Bool := do
  let now ← now
  repeatFrom () (fun _ => waitTurn sup (now + timeout))

/-! ## Diagnostics -/

inductive ThreadDumpMethod where
  | consoleBreak | jcmd
  deriving DecidableEq, Repr

def hasReducedSignalUsage (arguments : List Text) : Bool :=
  arguments.any (fun argument => argument.toAsciiLowercase == "-xrs".toList)

/-- `thread_dump::method`. -/
def threadDumpMethod (config : Config) (arguments : List Text) : Except Error ThreadDumpMethod :=
  let value := (config.getOr "jss.threaddump.method" "AUTO").trim.toAsciiUppercase
  if value = "AUTO".toList then .ok (if hasReducedSignalUsage arguments then .jcmd else .consoleBreak)
  else if value = "BREAK".toList ∨ value = "CTRL_BREAK".toList ∨ value = "CONSOLE_BREAK".toList then
    if hasReducedSignalUsage arguments then
      .error (.diagnosticUnavailable ("the JVM was launched with -Xrs, which disables Windows CTRL_BREAK thread ".toList
        ++ "dumps; remove -Xrs or use AUTO/JCMD with the matching JDK diagnostic tool".toList))
    else .ok .consoleBreak
  else if value = "JCMD".toList then .ok .jcmd
  else .error (.config ("jss.threaddump.method must be AUTO, BREAK, or JCMD; found ".toList ++ value))

def logLines (level : LogLevel) (source : LogSource) : List Bytes → Run Unit
  | [] => return ()
  | line :: rest => do
    logBytes level source line
    logLines level source rest

/-- `thread_dump::capture_with_jcmd`: the lines the tool printed are recorded, then it succeeds or fails. -/
def captureWithJcmd (jvmId : Nat) : Run Unit := do
  let a ← ask
  logLines .info (.jvm jvmId) a.lines
  match a.failure with
  | some e => Prog.throw e
  | none => return ()

/-- The `match` on the method in `request_thread_dump`: the method's name, or what went wrong. -/
def dumpThreads (run : JvmRun) : Except Error ThreadDumpMethod → Run (Except Error Text)
  | .ok .consoleBreak => do
    publish (.threadDumpStarted run.jvmId run.pid "CTRL_BREAK")
    Prog.attempt (do
      let _ ← attemptOutside
      return "CTRL_BREAK".toList)
  | .ok .jcmd => do
    log .status .wrapper "Requesting a thread dump with jcmd."
    publish (.threadDumpStarted run.jvmId run.pid "JCMD")
    Prog.attempt (do
      captureWithJcmd run.jvmId
      return "JCMD".toList)
  | .error e => return .error e

def requestThreadDump (sup : Supervisor) : Run Bool := do
  let run ← getRun
  match ← dumpThreads run (threadDumpMethod sup.config run.command.arguments) with
  | .ok method => do
    publish (.threadDumpCompleted run.jvmId method)
    return true
  | .error e => do
    let message := "Unable to request thread dump: ".toList ++ e.display
    log .error .wrapper message
    publish (.warning message)
    return false

/-- `heap_dump::timeout`. -/
def heapDumpTimeout (config : Config) : Duration := Duration.fromSecs (max (config.getU64 "jss.heapdump.timeout" 600) 1)

/-- `heap_dump::start`: the worker is running when it returns. -/
def heapDumpStart (config : Config) : Run Task := do
  let a ← attemptOutside
  let s ← Prog.get
  Prog.modify (fun s => { s with workers := s.workers ++ [⟨a.text, none⟩] })
  return { path := a.text, timeout := heapDumpTimeout config, worker := s.workers.length }

/-- `Task::poll`: what the worker has sent, if it is done. -/
def Task.poll (task : Task) : Run (Option Completion) := do
  let _ ← ask
  return (← Prog.get).workers[task.worker]?.bind Worker.completion

def startHeapDump (sup : Supervisor) : Run Unit := do
  let run ← getRun
  if !run.started then
    log .warn .wrapper "Heap dump request ignored because the application has not reported started."
  else
    match run.heapDumpTask with
    | some task => log .warn .wrapper ("A heap dump is already in progress: ".toList ++ task.path)
    | none =>
      match ← Prog.attempt (heapDumpStart sup.config) with
      | .ok task => do
        log .status .wrapper ("Heap dump requested: ".toList ++ task.path)
        publish (.heapDumpStarted run.jvmId run.pid task.path)
        modifyRun (fun run => { run with heapDumpTask := some task })
      | .error e => do
        let message := "Unable to request heap dump: ".toList ++ e.display
        log .error .wrapper message
        publish (.warning message)

def reportCompletion (jvmId : Nat) : Completion → Run Unit
  | .created path bytes => do
    log .status .wrapper ("Heap dump completed: ".toList ++ path ++ " (".toList ++ Text.ofNat bytes ++ " bytes)".toList)
    publish (.heapDumpCompleted jvmId path bytes)
  | .failed path message => do
    let message := "Heap dump failed for ".toList ++ path ++ ": ".toList ++ message
    log .error .wrapper message
    publish (.warning message)

def pollHeapDump : Run Unit := do
  let run ← getRun
  match run.heapDumpTask with
  | none => return ()
  | some task =>
    match ← task.poll with
    | none => return ()
    | some completion => do
      modifyRun (fun run => { run with heapDumpTask := none })
      reportCompletion run.jvmId completion

/-! ## Shutdown -/

def shutdownTimeout (config : Config) : Duration := Duration.fromSecs (config.getU64 "wrapper.shutdown.timeout" 30)

/-- The last resort of `shutdown_and_drain`. -/
def terminateForcibly (sup : Supervisor) : Run Unit := do
  log .error .wrapper "Terminating the JVM forcibly."
  terminateChild
  drainRemainingOutput sup

/-- `shutdown_and_drain` after the child let the timeout pass. -/
def afterTimeout (sup : Supervisor) : Run Unit := do
  log .error .wrapper ("The JVM did not stop within ".toList ++ Text.ofNat (shutdownTimeout sup.config).asSecs
    ++ " seconds.".toList)
  if sup.config.getBool "wrapper.request_thread_dump_on_failed_jvm_exit" false then do
    log .status .wrapper "Requesting a thread dump before terminating the JVM."
    if ← requestThreadDump sup then do
      let dumpDelay := Duration.fromSecs
        (max (sup.config.getU64 "wrapper.request_thread_dump_on_failed_jvm_exit.delay" 5) 1)
      if ← waitForExit sup dumpDelay then return ()
      else terminateForcibly sup
    else terminateForcibly sup
  else terminateForcibly sup

def shutdownAndDrain (sup : Supervisor) (exitCode : Int) : Run Unit := do
  match ← tryWait .shutdown with
  | some _ => drainRemainingOutput sup
  | none => do
    if ← sendIfConnected STOP (Text.ofInt exitCode) then do
      if ← waitForExit sup (shutdownTimeout sup.config) then return ()
      else afterTimeout sup
    else do
      terminateChild
      drainRemainingOutput sup

def stopWith (sup : Supervisor) (exitCode : Int) : Run RunOutcome := do
  shutdownAndDrain sup exitCode
  return .stop exitCode

/-- Shutting the JVM down to launch another one. -/
def restartWith (sup : Supervisor) (automatic : Bool) (exitCode : Int) : Run RunOutcome := do
  shutdownAndDrain sup exitCode
  return .restart (← elapsed) automatic exitCode

/-! ## Pausing -/

def pause (sup : Supervisor) : Run (Option RunOutcome) := do
  if sup.pausableStopsJvm then do
    shutdownAndDrain sup 0
    publish .servicePaused
    return some .pause
  else if ← sendIfConnected PAUSE "0" then do
    modifyRun (fun run => { run with pausedInPlace := true })
    publish .servicePaused
    return none
  else return none

def resume : Run Unit := do
  if ← sendIfConnected RESUME "0" then do
    modifyRun (fun run => { run with pausedInPlace := false })
    publish .serviceResumed
  else return ()

/-! ## Filter actions -/

def filterMessage (configured action : Text) : Text :=
  if configured.trim.isEmpty then action else configured.trim ++ "  ".toList ++ action

def applyAction (sup : Supervisor) (matched : FilterMatch) : FilterAction → Run (Option RunOutcome)
  | .none => return none
  | .debug => do
    log .debug .wrapper (filterMessage matched.message "Filter action: debug.")
    return none
  | .dump => do
    log .status .wrapper (filterMessage matched.message "Filter action: requesting a thread dump.")
    let _ ← requestThreadDump sup
    return none
  | .gc => do
    log .status .wrapper (filterMessage matched.message "Filter action: requesting garbage collection.")
    let _ ← sendIfConnected GC "gc"
    return none
  | .restart => do
    log .status .wrapper (filterMessage matched.message "Filter action: restarting the JVM.")
    publish (.restartRequested ("wrapper.filter.action.".toList ++ Text.ofNat matched.index ++ "=RESTART".toList))
    return some (← restartWith sup false 0)
  | .shutdown => do
    log .status .wrapper (filterMessage matched.message "Filter action: stopping.")
    return some (← stopWith sup 0)
  | .pause => do
    if sup.pausable && !(← getRun).pausedInPlace then do
      log .status .wrapper (filterMessage matched.message "Filter action: pausing.")
      pause sup
    else return none
  | .resume => do
    if (← getRun).pausedInPlace then do
      log .status .wrapper (filterMessage matched.message "Filter action: resuming.")
      resume
      return none
    else return none

def applyFilterMatches (sup : Supervisor) (found : List FilterMatch) : Run (Option RunOutcome) :=
  Prog.forEach (fun matched => Prog.forEach (applyAction sup matched) matched.actions) found

def handleOutputLine (sup : Supervisor) (line : Bytes) : Run (Option RunOutcome) := do
  let found ← recordOutput sup line
  applyFilterMatches sup found

def handleOutputBatch (sup : Supervisor) (first : Bytes) : Run (Option RunOutcome) := do
  match ← handleOutputLine sup first with
  | some outcome => return some outcome
  | none => do
    let batch ← takeBatch .batch outputBatch
    Prog.forEach (handleOutputLine sup) batch

/-! ## Controls and packets -/

def handleControl (sup : Supervisor) : Control → Run (Option RunOutcome)
  | .stop => return some (← stopWith sup 0)
  | .consoleInterrupt => do
    log .status .wrapper "Console interrupt received; stopping."
    return some (← stopWith sup 0)
  | .consoleBreak => do
    log .status .wrapper "Console break received; requesting a thread dump."
    let _ ← requestThreadDump sup
    return none
  | .pause => do
    if sup.pausable && !(← getRun).pausedInPlace then pause sup
    else return none
  | .resume => do
    if (← getRun).pausedInPlace then do
      resume
      return none
    else return none
  | .threadDump => do
    log .status .wrapper "Requesting a thread dump from the JVM."
    let _ ← requestThreadDump sup
    return none
  | .heapDump => do
    startHeapDump sup
    return none
  | .user code => do
    let _ ← sendIfConnected SERVICE_CONTROL (Text.ofNat code)
    return none

/-- Records the JVM exit in the log and publishes the lifecycle event. -/
def logJvmExit (exitCode : Option Int) : Run Unit := do
  let run ← getRun
  publish (.jvmStopped run.jvmId exitCode)
  log .status .wrapper ("JVM #".toList ++ Text.ofNat run.jvmId ++ " exited with code ".toList
    ++ (match exitCode with | none => "unknown".toList | some code => Text.ofInt code))

def handleStarted : Run Unit := do
  modifyRun (fun run => { run with started := true, startupDeadline := none })
  let run ← getRun
  publish (.jvmStarted run.jvmId run.pid)
  runIf run.resuming (publish .serviceResumed)

/-- The wait hint of a `START_PENDING` packet, in milliseconds. -/
def waitHint (startupSeconds : Nat) (message : Bytes) : Nat :=
  (Text.parseUnsigned Text.u64Max (utf8Lossy message).trim).getD (min (startupSeconds * 1000) Text.u64Max)

def handleStartPending (message : Bytes) : Run Unit := do
  let run ← getRun
  if run.startupSeconds > 0 then do
    let now ← now
    let hint := max (waitHint run.startupSeconds message) 1
    modifyRun (fun run => { run with startupDeadline := some (now + Duration.fromMillis hint) })
  else return ()

/-- The code of a `STOP` packet. -/
def stopCode (message : Bytes) : Int := (Text.parseI32 (utf8Lossy message).trim).getD 0

def handleStop (sup : Supervisor) (message : Bytes) : Run RunOutcome := do
  shutdownAndDrain sup (stopCode message)
  let observed ← tryWait .afterStop
  logJvmExit (observed.bind id)
  return .exited (← elapsed) (stopCode message)

def handleRestart (sup : Supervisor) : Run RunOutcome := do
  publish (.restartRequested "requested by the application")
  restartWith sup false 0

def handlePacket (sup : Supervisor) (packet : Packet) : Run (Option RunOutcome) := do
  if packet.code = STARTED then do
    handleStarted
    return none
  else if packet.code = START_PENDING then do
    handleStartPending packet.message
    return none
  else if packet.code = RESTART then return some (← handleRestart sup)
  else if packet.code = STOP then return some (← handleStop sup packet.message)
  else
    -- of PING, STOP_PENDING, STOPPED, the log codes and the rest, only the log codes have a level
    match LogLevel.fromProtocolCode packet.code with
    | some level => do
      logBytes level (.jvm (← getRun).jvmId) packet.message
      return none
    | none => return none

def handleProtocol (sup : Supervisor) : ReceiveEvent → Run (Option RunOutcome)
  | .disconnected => do
    markDisconnected
    return none
  | .packet packet => do
    let now ← now
    modifyRun (fun run => { run with lastPingResponse := now })
    handlePacket sup packet

/-! ## The tick -/

/-- `is_sensitive_name`. -/
def isSensitiveName (name : Text) : Bool :=
  ["password", "secret", "token", "key", "credential", "vault"].any
    (fun needle => contains name.toAsciiLowercase needle.toList)

def doubleTabs (t : Text) : Text := t.flatMap (fun c => if c = '\t' then ['\t', '\t'] else [c])

def protocolProperties (config : Config) : Text :=
  (config.properties.foldl (fun output (name, value) =>
    if isSensitiveName name then output
    else
      let output := if output.isEmpty then output else output ++ ['\t']
      output ++ doubleTabs name ++ ['='] ++ doubleTabs value) [])

/-- The connection taken into use, with the events that came with it. -/
def Sys.join (s : Sys) (events : List ReceiveEvent) (now : Instant) : Sys :=
  { s with
    run := { s.run with everConnected := true, lastPingResponse := now, connection := some events }
    trace := s.trace ++ .connected :: events.map .delivered
    timed := s.timed ++ (s.clock, .connected) :: events.map (fun event => (s.clock, .delivered event))
    moments := s.moments ++ (s.run, .connected) :: events.map (fun event => (s.run, .delivered event)) }

/-- The part of `tick` for a connection that just authenticated, with the events it comes with. -/
def connect (sup : Supervisor) (events : List ReceiveEvent) : Run Unit := do
  send LOW_LOG_LEVEL (Text.ofNat (lowLogLevel sup.config))
  let a ← ask
  send LOGFILE a.text
  send PROPERTIES (protocolProperties sup.config)
  send START "start"
  runIf (← getRun).everConnected (log .debug .protocol "JVM control channel reconnected.")
  let now ← now
  Prog.modify (·.join events now)
  publish .protocolAuthenticated

/-- What `tick` does with the result of `poll_authentication`. -/
def afterPoll (sup : Supervisor) : Except Error (Option Protocol.Connection) → Run Unit
  | .error e => Prog.throw e
  | .ok none => return ()
  | .ok (some connection) => connect sup connection.events

def authenticate (sup : Supervisor) : Run Unit := do
  let run ← getRun
  if run.connection.isSome then return ()
  else do
    let a ← ask
    let handshakeTimeout := max (Duration.fromSecs run.startupSeconds) minHandshakeTimeout
    let polled := run.listener.pollAuthentication run.key.asBytes handshakeTimeout a.poll
    modifyRun (fun run => { run with listener := polled.1 })
    afterPoll sup polled.2.2

def startupOverdue (run : JvmRun) (now : Instant) : Bool :=
  !run.started && (match run.startupDeadline with | none => false | some deadline => now ≥ deadline)

def restartOverdue (sup : Supervisor) : Run RunOutcome := do
  let run ← getRun
  log .error .wrapper ((if run.everConnected then "The application did not report started within ".toList
    else "The JVM did not connect to the control channel within ".toList)
    ++ Text.ofNat run.startupSeconds ++ " seconds; restarting.".toList)
  restartWith sup true 1

def pingIfDue (now : Instant) : Run Unit := do
  let run ← getRun
  if run.connection.isSome && now ≥ run.nextPing then do
    let _ ← sendIfConnected PING (if run.started then "ping" else "silent")
    modifyRun (fun run => { run with nextPing := now + run.pingInterval })
  else return ()

def allowedSilence (run : JvmRun) : Duration :=
  run.pingTimeout + run.pingInterval + (match run.heapDumpTask with | none => 0 | some task => task.timeout)

def pingOverdue (run : JvmRun) (now : Instant) : Bool :=
  run.pingTimeout > 0 && run.everConnected && now - run.lastPingResponse > allowedSilence run

def Sys.pingCheck (s : Sys) (now : Instant) : PingCheck where
  now := now
  lastPingResponse := s.run.lastPingResponse
  allowed := allowedSilence s.run
  unread := s.run.connection.getD []
  dumping := if s.workers.all (·.result.isSome) then s.dumpEnded else some s.clock
  restarts := pingOverdue s.run now

def watchPing (sup : Supervisor) (now : Instant) : Run (Option RunOutcome) := do
  let s ← Prog.get
  emit (.pingCheck (s.pingCheck now))
  if pingOverdue s.run now then do
    log .error .wrapper ("No ping response from the JVM for ".toList ++ Text.ofNat (allowedSilence s.run).asSecs
      ++ " seconds; restarting.".toList)
    return some (← restartWith sup true 1)
  else return none

/-- `tick` once it has seen the child exit. -/
def exitSeen (sup : Supervisor) (exitCode : Option Int) : Run RunOutcome := do
  drainRemainingOutput sup
  logJvmExit exitCode
  return .exited (← elapsed) (exitCode.getD 1)

def tick (sup : Supervisor) : Run (Option RunOutcome) := do
  pollHeapDump
  match ← tryWait .tick with
  | some exitCode => return some (← exitSeen sup exitCode)
  | none => do
    authenticate sup
    let now ← now
    if startupOverdue (← getRun) now then return some (← restartOverdue sup)
    else do
      pingIfDue now
      watchPing sup now

/-! ## The event loop -/

/-- What `select!` served. -/
inductive Arm where
  | output (line : Option Bytes)
  | control (control : Option Control)
  | protocol (event : Option ReceiveEvent)
  | tick

/-- `select!` over the output channel while it is open, the controls, the connection's events, and the ticker.  An arm
that is not ready is not served. -/
def select : Run Arm := do
  let a ← ask
  let s ← Prog.get
  match a.source with
  | .output =>
    if !s.run.outputOpen then Prog.blocked
    else
      match s.output with
      | line :: rest => do
        Prog.modify (fun s => { s with output := rest })
        emit (.took .select [line])
        return .output (some line)
      | [] => if s.outputOpen then Prog.blocked else return .output none
  | .controls =>
    match s.controls with
    | c :: rest => do
      Prog.modify (fun s => { s with controls := rest })
      emit (.control .eventLoop (some c))
      return .control (some c)
    | [] =>
      if s.controlsOpen then Prog.blocked
      else do
        emit (.control .eventLoop none)
        return .control none
  | .protocol =>
    match s.run.connection with
    | none => Prog.blocked
    | some [] =>
      if a.failure.isNone then Prog.blocked
      else do
        emit (.received none)
        return .protocol none
    | some (event :: rest) => do
      modifyRun (fun run => { run with connection := some rest })
      emit (.received (some event))
      return .protocol (some event)
  | .ticker =>
    if s.clock < s.run.nextTick then Prog.blocked
    else do
      modifyRun (fun run => { run with nextTick := s.clock + tickInterval })
      return .tick

def serve (sup : Supervisor) : Arm → Run (Option RunOutcome)
  | .output (some line) => handleOutputBatch sup line
  | .output none => do
    modifyRun (fun run => { run with outputOpen := false })
    return none
  | .control (some control) => handleControl sup control
  | .control none => return some (← stopWith sup 0)
  | .protocol (some event) => handleProtocol sup event
  | .protocol none => do
    markDisconnected
    return none
  | .tick => tick sup

def eventLoopTurn (sup : Supervisor) : Run (Unit ⊕ RunOutcome) := do
  let arm ← select
  match ← serve sup arm with
  | some outcome => return .inr outcome
  | none => return .inl ()

def eventLoop (sup : Supervisor) : Run RunOutcome := do
  let s ← Prog.get
  modifyRun (fun run => { run with nextTick := s.clock + tickInterval })
  repeatFrom () (fun _ => eventLoopTurn sup)

end Supervisor
end Jss
