import ServiceSteward.JvmRun
/-!
# Launch — `Supervisor::run_once` and `Supervisor::run`

`runOnce` launches one JVM and runs its event loop.  `run` is the restart loop around it, with the controls it reads
while no JVM runs.
-/
namespace Jss
namespace Supervisor

open Scripted (Prog)

/-! ## Files that hold a number -/

structure OwnedPidFile where
  path : Text
  contents : Text
  deriving DecidableEq, Repr

/-- `OwnedPidFile::create`.  The path is taken as configured; joining it to the executable's directory is left out. -/
def OwnedPidFile.create (config : Config) (property : Text) (pid : Nat) (strict : Bool) : Run (Option OwnedPidFile) :=
  match (config.get property).filter (fun value => !value.trim.isEmpty) with
  | none => return none
  | some value => do
    let path := removeGroupingQuotes value.trim
    let a ← ask
    if strict && a.present then
      Prog.throw (.config (property ++ " already exists and wrapper.pidfile.strict is enabled: ".toList ++ path))
    else do
      let _ ← attemptOutside
      return some ⟨path, Text.ofNat pid ++ "\r\n".toList⟩

def OwnedPidFile.update (file : OwnedPidFile) (value : Nat) : Run OwnedPidFile := do
  let _ ← attemptOutside
  return { file with contents := Text.ofNat value ++ "\r\n".toList }

/-! ## One JVM -/

def optionalPort (config : Config) (name : Text) : Except Error (Option Nat) :=
  match config.get name with
  | none => .ok none
  | some value =>
    match Text.parseUnsigned Text.u16Max value.trim with
    | none => .error (.config (name ++ " is not a valid port: ".toList ++ value))
    | some parsed => .ok (if parsed = 0 then none else some parsed)

def port (config : Config) (name : Text) (default : Nat) : Except Error Nat :=
  (optionalPort config name).map (·.getD default)

def liftResult {α : Type} : Except Error α → Run α
  | .ok a => return a
  | .error e => Prog.throw e

/-- `spawn_child`: a child process, with its own output channel. -/
def spawnChild (jvmId : Nat) : Run Nat := do
  let a ← ask
  match a.failure with
  | some e => do
    emit (.spawnFailed jvmId)
    Prog.throw e
  | none => do
    Prog.modify (fun s => { s with children := .running :: s.children, output := [], outputOpen := true })
    emit (.spawned jvmId)
    return a.number

/-- The ports are read and the listener bound, the key drawn and the command built: the command and the key. -/
def prepareLaunch (sup : Supervisor) : Run (JvmCommand × Text) := do
  let _ ← liftResult (optionalPort sup.config "wrapper.port")
  let _ ← liftResult (port sup.config "wrapper.port.min" 32000)
  let _ ← liftResult (port sup.config "wrapper.port.max" 32999)
  let _ ← attemptOutside
  let key ← attemptOutside
  let _ ← liftResult (optionalPort sup.config "wrapper.jvm.port")
  let _ ← liftResult (port sup.config "wrapper.jvm.port.min" 31000)
  let _ ← liftResult (port sup.config "wrapper.jvm.port.max" 31999)
  let built ← attemptOutside
  return (built.command, key.text)

def logNote : Option Text → Run Unit
  | some note => log .info .wrapper note
  | none => return ()

def logCommand (sup : Supervisor) (command : JvmCommand) : Run Unit := do
  logNote command.launchNote
  runIf (javaCommandLogLevel sup.config != .none)
    (log (javaCommandLogLevel sup.config) .wrapper ("Command: ".toList ++ command.redactedCommandLine))

def assignJob (sup : Supervisor) : Run Unit := do
  if sup.config.getBool "jss.java.job_object" true then
    match ← Prog.attempt attemptOutside with
    | .ok _ => return ()
    | .error e =>
      log .warn .wrapper
        ("Unable to place the JVM in a job object; child processes may outlive the wrapper: ".toList ++ e.display)
  else return ()

/-- The `JvmRun` that `run_once` builds. -/
def JvmRun.launched (sup : Supervisor) (jvmId : Nat) (resuming : Bool) (command : JvmCommand) (key : Text) (pid : Nat)
    (launchedAt now : Instant) : JvmRun :=
  let startupSeconds := sup.config.getU64 "wrapper.startup.timeout" 30
  let pingInterval := Duration.fromSecs (max (sup.config.getU64 "wrapper.ping.interval" 5) 1)
  { jvmId, resuming, command, key, pid, launchedAt, startupSeconds, pingInterval
    startupDeadline := if startupSeconds > 0 then some (now + Duration.fromSecs startupSeconds) else none
    pingTimeout := Duration.fromSecs (sup.config.getU64 "wrapper.ping.timeout" 30)
    nextPing := now + pingInterval
    lastPingResponse := now }

/-- `run_once` from the running child on. -/
def superviseChild (sup : Supervisor) (jvmId : Nat) (resuming : Bool) (command : JvmCommand) (key : Text)
    (launchedAt : Instant) (pid : Nat) : Run RunOutcome := do
  assignJob sup
  match ← Prog.attempt (OwnedPidFile.create sup.config "wrapper.java.pidfile" pid false) with
  | .error e => do
    terminateChild
    Prog.throw e
  | .ok _ => do
    let now ← now
    Prog.modify (fun s => { s with run := .launched sup jvmId resuming command key pid launchedAt now })
    let outcome ← eventLoop sup
    Prog.modify (fun s => { s with run := {} })
    return outcome

def runOnce (sup : Supervisor) (jvmId : Nat) (resuming : Bool) : Run RunOutcome := do
  -- there is no `JvmRun` yet
  Prog.modify (fun s => { s with run := {} })
  let launchedAt ← now
  let (command, key) ← prepareLaunch sup
  logCommand sup command
  log .status .wrapper ("Launching JVM #".toList ++ Text.ofNat jvmId)
  match ← Prog.attempt (spawnChild jvmId) with
  | .error e => do
    log .error .wrapper ("Unable to launch the JVM: ".toList ++ e.display)
    let now ← now
    return .restart (now - launchedAt) true 1
  | .ok pid => superviseChild sup jvmId resuming command key launchedAt pid

/-! ## Between two JVMs -/

/-- One turn of `wait_for_restart`'s loop. -/
def restartTurn (deadline : Instant) : Run (Unit ⊕ Bool) := do
  let now ← now
  if now < deadline then
    match ← recvControlTimeout .restartDelay (Duration.fromMillis 100) with
    | .item .stop | .item .consoleInterrupt | .disconnected => return .inr true
    | .item _ | .timeout => return .inl ()
  else do
    emit .delayOver
    return .inr false

def waitForRestart (delay : Duration) : Run Bool := do
  let now ← now
  repeatFrom () (fun _ => restartTurn (now + delay))

inductive PausedOutcome where
  | resume | stop
  deriving DecidableEq, Repr

/-- One turn of `wait_while_paused`'s loop. -/
def pausedTurn : Run (Unit ⊕ PausedOutcome) := do
  emit .waitingPaused
  match ← recvControl .paused with
  | some .resume => return .inr .resume
  | some .stop | some .consoleInterrupt | none => return .inr .stop
  | some _ => return .inl ()

def waitWhilePaused : Run PausedOutcome := repeatFrom () (fun _ => pausedTurn)

def startupDelay (config : Config) (service : Bool) : Duration :=
  Duration.fromSecs (config.getU64 (if service then "wrapper.startup.delay.service" else "wrapper.startup.delay.console")
    (config.getU64 "wrapper.startup.delay" 0))

def onExitAction (config : Config) (exitCode : Int) : ExitAction :=
  let configured := (config.get ("wrapper.on_exit.".toList ++ Text.ofInt exitCode)).getD
    (config.getOr "wrapper.on_exit.default" "SHUTDOWN")
  let value := configured.trim.toAsciiUppercase
  if value = "RESTART".toList then .restart
  else if value = "PAUSE".toList then .pause
  else .shutdown

/-! ## The whole program -/

/-- `product_banner`, of a 64-bit build. -/
def productBanner : Text := "Java Service Steward 64-bit 0.3.2"

/-- The variables of `run`'s loop. -/
structure RunVars where
  jvmId : Nat := 1
  javaIdFile : Option OwnedPidFile := none
  failedInvocations : Nat := 0
  resuming : Bool := false

def stopped (code : Int) : Run (RunVars ⊕ Int) := do
  log .status .wrapper stoppedMarker
  return .inr code

/-- The id file for the JVM about to be launched; a failure is only logged. -/
def updateJavaIdFile (sup : Supervisor) (vars : RunVars) : Run (Option OwnedPidFile) := do
  let result ← Prog.attempt (match vars.javaIdFile with
    | some file => do
      let file ← file.update vars.jvmId
      return some file
    | none => OwnedPidFile.create sup.config "wrapper.java.idfile" vars.jvmId false)
  match result with
  | .ok file => return file
  | .error e => do
    log .warn .wrapper ("Unable to write wrapper.java.idfile: ".toList ++ e.display)
    return vars.javaIdFile

/-- The `match` of `run` on an `Exited` outcome. -/
def resolveExit (sup : Supervisor) : RunOutcome → Run RunOutcome
  | .exited elapsed exitCode => do
    emit (.exitAction exitCode (onExitAction sup.config exitCode))
    match onExitAction sup.config exitCode with
    | .shutdown => return .stop exitCode
    | .restart => return .restart elapsed true exitCode
    | .pause => return if sup.pausable then .pause else .restart elapsed true exitCode
  | outcome => return outcome

def afterPause (vars : RunVars) : Run (RunVars ⊕ Int) := do
  match ← waitWhilePaused with
  | .resume =>
    return .inl { vars with failedInvocations := 0, jvmId := min (vars.jvmId + 1) Text.u32Max, resuming := true }
  | .stop => stopped 0

def afterRestart (sup : Supervisor) (vars : RunVars) (elapsed : Duration) (automatic : Bool) (exitCode : Int) :
    Run (RunVars ⊕ Int) := do
  if sup.config.getBool "wrapper.disable_restarts" false ||
      (automatic && sup.config.getBool "wrapper.disable_restarts.automatic" false) then do
    log .status .wrapper (if automatic then "Automatic JVM restarts are disabled; stopping."
      else "JVM restarts are disabled; stopping.")
    stopped exitCode
  else do
    let successfulSeconds := sup.config.getU64 "wrapper.successful_invocation_time" 300
    let failedInvocations := if elapsed ≥ Duration.fromSecs successfulSeconds then 0
      else min (vars.failedInvocations + 1) Text.u64Max
    if failedInvocations ≥ max (sup.config.getU64 "wrapper.max_failed_invocations" 5) 1 then do
      log .fatal .wrapper (Text.ofNat failedInvocations ++ " consecutive JVM launches ended within ".toList
        ++ Text.ofNat successfulSeconds ++ " seconds; giving up.".toList)
      log .fatal .wrapper "Check the application configuration and the log above."
      stopped exitCode
    else if ← waitForRestart (Duration.fromSecs (sup.config.getU64 "wrapper.restart.delay" 5)) then stopped 0
    else
      return .inl { vars with failedInvocations, jvmId := min (vars.jvmId + 1) Text.u32Max, resuming := false }

/-- One turn of `run`'s loop. -/
def runTurn (sup : Supervisor) (vars : RunVars) : Run (RunVars ⊕ Int) := do
  let javaIdFile ← updateJavaIdFile sup vars
  if vars.jvmId > 1 then do
    let _ ← attemptOutside
    launch { vars with javaIdFile }
  else launch { vars with javaIdFile }
where
  /-- The turn from the launch on. -/
  launch (vars : RunVars) : Run (RunVars ⊕ Int) := do
    publish (.jvmLaunching vars.jvmId)
    let outcome ← runOnce sup vars.jvmId vars.resuming
    match ← resolveExit sup outcome with
    | .stop code => stopped code
    | .pause => afterPause vars
    | .restart elapsed automatic exitCode => afterRestart sup vars elapsed automatic exitCode
    | .exited _ _ => Prog.throw (.config "exit actions are resolved above")

def logWarnings : List Warning → Run Unit
  | [] => return ()
  | warning :: rest => do
    log (match warning.level with | .info => .info | .warn => .warn) .wrapper warning.message
    logWarnings rest

/-- A call of the operating system whose failure is only logged. -/
def tryOutside (message : Text) : Run Unit := do
  match ← Prog.attempt attemptOutside with
  | .ok _ => return ()
  | .error e => log .warn .wrapper (message ++ e.display)

/-- `run` up to its loop's variables, but for the pause on startup and the startup delay. -/
def startWrapper (sup : Supervisor) : Run Unit := do
  let _ ← OwnedPidFile.create sup.config "wrapper.pidfile" 0 (sup.config.getBool "wrapper.pidfile.strict" false)
  publish .wrapperStarted
  let _ ← attemptOutside
  runIf sup.service (tryOutside "Unable to allocate the service console: ")
  runIf ((sup.config.get "wrapper.console.title.windows").or (sup.config.get "wrapper.console.title")).isSome
    (tryOutside "Unable to set the console title: ")
  log .status .wrapper (if sup.service then startedAsServiceMarker else startedAsConsoleMarker)
  log .status .wrapper productBanner
  log .status .wrapper []
  logWarnings sup.config.warnings

/-- The pause on startup: whether the first JVM resumes from it, or the supervisor stops. -/
def pauseOnStartup : Run PausedOutcome := do
  publish .servicePaused
  waitWhilePaused

/-- `run` after the pause on startup. -/
def runLoop (sup : Supervisor) (resuming : Bool) : Run Int := do
  if startupDelay sup.config sup.service > 0 then
    if ← waitForRestart (startupDelay sup.config sup.service) then do
      log .status .wrapper stoppedMarker
      return 0
    else repeatFrom { resuming } (runTurn sup)
  else repeatFrom { resuming } (runTurn sup)

def run (sup : Supervisor) : Run Int := do
  startWrapper sup
  if sup.config.getBool "wrapper.pause_on_startup" false && sup.pausable then
    match ← pauseOnStartup with
    | .resume => runLoop sup true
    | .stop => do
      log .status .wrapper stoppedMarker
      return 0
  else runLoop sup false

/-- A supervisor whose filters read bytes as the code points they are, as Windows-1252 does with ASCII. -/
def Supervisor.sample (config : Config) : Supervisor where
  config := config
  decodeWindows1252 := fun bytes => bytes.map (fun b => Char.ofNat b.toNat)

/-- Nothing happens outside for `n` operations, and all of them succeed. -/
def quiet (n : Nat) : List Answer := List.replicate n {}

/-- The handshake of a JVM with the key `k`. -/
def keyPoll : Protocol.Poll where
  accepts := [.ok ⟨true, true, 0⟩]
  now := 0
  reads := [.ok [Protocol.KEY, 107, 0]]
  short := by simp [Protocol.handshakeBuffer]

/-- A launch, up to the first tick, at which the JVM connects. -/
def connected : List Answer :=
  quiet 2 ++ [{ text := "k" }] ++ quiet 6 ++ [{ moves := [.elapse tickInterval] }] ++ quiet 1 ++ [{ poll := keyPoll }] ++
    quiet 7

end Supervisor
end Jss
