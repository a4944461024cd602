import ServiceSteward.Interleaving
import ServiceSteward.StartStopApp
/-!
# BridgeThreads — the JVM with the bridge, thread by thread

The control thread, the application's threads, the main thread and the shutdown hook share the atomic flags of
`BackendClient`, its monitor and the socket.  A `Task` is what a thread still has to do, atomic step by atomic step;
what the application, the wrapper and the network do is an `Answer`.  A frame is written byte by byte inside the
monitor, so other threads run between any two bytes.
-/
namespace Jss
namespace Bridge

open StartStopApp (Runtime parseInt)
open Protocol (PING START LOW_LOG_LEVEL BAD_KEY PAUSE RESUME SERVICE_CONTROL)
open Interleaving (Machine Threads)

/-- The atomic flags. -/
inductive Flag where
  | wrapperRequestedStop | abnormalExit | jvmShuttingDown
  deriving DecidableEq, Repr

/-- Why the JVM goes down: the wrapper's stop was carried out, the channel or a callback failed, the application's
`main` threw, the application called `System.exit`, or its last thread ended. -/
inductive Cause where
  | stop | failure | thrown | application | ended
  deriving DecidableEq, Repr

/-- The launcher class, or the application's own `main` with a `ServiceListener`. -/
inductive Launcher where
  /-- `SimpleApp` and `JarApp`. -/
  | application
  | startStop (waitForStopThreads : Bool)
  | listener
  deriving DecidableEq, Repr

/-- Where code of the application runs: its `main`, its stop class, any other thread of it, and the three callbacks of a
listener. -/
inductive Body where
  | main | stop | other | listenerStart | listenerStop (exitCode : Int) | controlEvent
  deriving DecidableEq, Repr

inductive Task where
  | done
  /-- Inside `System.exit`, which does not return. -/
  | exiting
  | controlLoop
  | reading
  | application (body : Body)
  /-- A thread that is not a daemon ends. -/
  | finish (body : Body)
  | call (c : Call) (next : Task)
  /-- `BackendClient.send`, from the hook or not, where an exception leads and where it returns. -/
  | send (hook : Bool) (code : Nat) (message : JString) (thrown next : Task)
  | set (flag : Flag) (next : Task)
  | test (flag : Flag) (ifSet otherwise : Task)
  | close (next : Task)
  /-- The synchronized block of `onStart`. -/
  | startApplication
  | countDown (next : Task)
  | await (next : Task)
  | startStopThread (next : Task)
  | joinStopThread (next : Task)
  | waitForApplicationThreads (next : Task)
  | exit (cause : Cause)
  | halt
  | destroyJavaVM
  | network

/-- A thread between two statements, or inside `BackendClient.send` with the bytes it still has to write. -/
inductive Thread where
  | at (t : Task)
  | writing (hook : Bool) (code : Nat) (message : JString) (rest : Bytes) (thrown next : Task)

/-- A packet whose last byte is written. -/
structure Sent where
  hook : Bool
  code : Nat
  message : JString
  deriving DecidableEq, Repr

structure Jvm where
  client : BackendClient := {}
  wrapperRequestedStop : Bool := false
  abnormalExit : Bool := false
  jvmShuttingDown : Bool := false
  /-- The thread inside a synchronized method of the client. -/
  monitor : Option Nat := none
  /-- From here on every write to the socket throws. -/
  connectionLost : Bool := false
  wire : Bytes := []
  sent : List Sent := []
  /-- `applicationThread[0] != null`. -/
  application : Bool := false
  /-- The latch of the main thread is down. -/
  applicationStarted : Bool := false
  stopThreadEnded : Bool := false
  /-- How many threads that are no daemons have not ended. -/
  nonDaemon : Nat := 1
  shutdown : Option Cause := none
  halted : Bool := false

inductive Answer where
  | goesOn
  | packet (code : Nat) (message : JString)
  /-- A read timeout, and whether a packet is missing for too long. -/
  | timeout (missing : Bool)
  | failed
  | call (c : Call)
  | startsThread
  | returns (exitCode : Option Int)
  /-- A `RuntimeException`, or an `Error`. -/
  | throws
  | fails
  | exits
  deriving DecidableEq, Repr

def Jvm.get (s : Jvm) : Flag → Bool
  | .wrapperRequestedStop => s.wrapperRequestedStop
  | .abnormalExit => s.abnormalExit
  | .jvmShuttingDown => s.jvmShuttingDown

def Jvm.set (s : Jvm) : Flag → Jvm
  | .wrapperRequestedStop => { s with wrapperRequestedStop := true }
  | .abnormalExit => { s with abnormalExit := true }
  | .jvmShuttingDown => { s with jvmShuttingDown := true }

/-- The bytes of a packet. -/
def frame (code : Nat) (message : JString) : Bytes := UInt8.ofNat code :: getBytes message ++ [0]

def frames (sent : List Sent) : Bytes := sent.flatMap (fun p => frame p.code p.message)

/-- The calls of `Steward`. -/
def Call.public : Call → Bool
  | .requestStop _ | .requestRestart | .signalStarting _ | .log _ _ => true
  | .reportStarted | .reportStopped _ => false

/-! ## The programs of the threads -/

/-- `catch (IOException error)` of the control thread. -/
def ioException : Task :=
  .test .wrapperRequestedStop .done (.test .jvmShuttingDown .done (.set .abnormalExit (.exit .failure)))

/-- `catch (RuntimeException error)` of the control thread. -/
def runtimeException : Task := .test .jvmShuttingDown .done (.set .abnormalExit (.exit .failure))

def onJvmShutdown : Task :=
  .set .jvmShuttingDown
    (.test .wrapperRequestedStop (.close .halt)
      (.test .abnormalExit (.close .halt)
        (.send true STOP (.ofText "0".toList) (.close .halt) (.close .halt))))

/-- The parsed number of a message. -/
def intOf (runtime : Runtime) (message : JString) (default : Int) : Int :=
  (parseInt runtime (StartStopApp.trim message)).getD default

/-- `onStart` of the launcher's handler. -/
def onStart : Launcher → Task
  | .application | .startStop _ => .startApplication
  | .listener => .countDown .controlLoop

/-- Reporting the stop and leaving. -/
def stopped (exitCode : Int) : Task := .call (.reportStopped exitCode) (.exit .stop)

def onStop (launcher : Launcher) (exitCode : Int) : Task :=
  match launcher with
  | .application => stopped exitCode
  | .startStop waitForStopThreads =>
    .startStopThread (.joinStopThread
      (if waitForStopThreads then .waitForApplicationThreads (stopped exitCode) else stopped exitCode))
  | .listener => .application (.listenerStop exitCode)

/-- `onPause`, `onResume` and `onControl`. -/
def onControlEvent : Launcher → Task
  | .application | .startStop _ => .controlLoop
  | .listener => .application .controlEvent

/-- `BackendClient.handle`, but for the properties and the log file, which only the application reads. -/
def handle (runtime : Runtime) (launcher : Launcher) (s : Jvm) (code : Nat) (message : JString) : Jvm × Task :=
  if code = START.toNat then (s, onStart launcher)
  else if code = STOP then (s, .set .wrapperRequestedStop (onStop launcher (intOf runtime message 0)))
  else if code = PING.toNat then (s, .send false PING.toNat message ioException .controlLoop)
  else if code = LOW_LOG_LEVEL.toNat then
    ({ s with client := { s.client with lowLogLevel := intOf runtime message 2 } }, .controlLoop)
  else if code = PAUSE.toNat ∨ code = RESUME.toNat ∨ code = SERVICE_CONTROL.toNat then (s, onControlEvent launcher)
  else if code = BAD_KEY.toNat then (s, .set .abnormalExit ioException)
  else (s, .controlLoop)

/-- Where code of the application returns to. -/
def returned : Body → Option Int → Task
  | .listenerStart, none => .call .reportStarted (.finish .main)
  | .listenerStart, some exitCode => .call (.requestStop exitCode) (.finish .main)
  | .listenerStop _, exitCode => stopped (exitCode.getD 0)
  | .controlEvent, _ => .controlLoop
  | body, _ => .finish body

/-- Where a `RuntimeException` of the application leads. -/
def threw : Body → Task
  | .main | .stop | .listenerStart => .set .abnormalExit (.exit .thrown)
  | .listenerStop exitCode => stopped (if exitCode = 0 then 1 else exitCode)
  | .controlEvent => runtimeException
  | .other => .finish .other

/-- Where an `Error` of the application leads: only `invokeMain` catches it. -/
def crashed : Body → Task
  | .main => threw .main
  | .stop => threw .stop
  | .listenerStart => .finish .main
  | .listenerStop _ | .controlEvent => .done
  | .other => .finish .other

/-- `System.exit`, and the end of the last thread: the first one starts the hook. -/
def Jvm.exit (s : Jvm) (hook : Bool) (cause : Cause) : Jvm × List Task :=
  match s.shutdown with
  | some _ => (s, [])
  | none => ({ s with shutdown := some cause }, [if hook then onJvmShutdown else .halt])

def Jvm.ended (s : Jvm) (body : Body) : Jvm :=
  { s with nonDaemon := s.nonDaemon - 1, stopThreadEnded := s.stopThreadEnded || body = .stop }

/-- What the JVM is launched with: the launcher, and whether the shutdown hook is installed. -/
structure Setup where
  runtime : Runtime
  launcher : Launcher
  hook : Bool := true

/-- The next step of a thread that is not writing. -/
def proceed (setup : Setup) (s : Jvm) (t : Task) (answer : Answer) : Option (Jvm × Task × List Task) :=
  match t with
  | .done | .exiting | .send .. => none
  | .controlLoop => some (s, if s.wrapperRequestedStop then .done else .reading, [])
  | .reading =>
    match answer with
    | .packet code message =>
      let (s', t') := handle setup.runtime setup.launcher s code message
      some (s', t', [])
    | .timeout missing =>
      some (s, .test .wrapperRequestedStop .done (.test .jvmShuttingDown .done
        (if missing then .set .abnormalExit ioException else .controlLoop)), [])
    | .failed => some (s, ioException, [])
    | _ => none
  | .application body =>
    match answer with
    | .call c => if c.public then some (s, .call c (.application body), []) else none
    | .startsThread => some ({ s with nonDaemon := s.nonDaemon + 1 }, .application body, [.application .other])
    | .returns exitCode => some (s, returned body exitCode, [])
    | .throws => some (s, threw body, [])
    | .fails => some (s, crashed body, [])
    | .exits => some (s, .exit .application, [])
    | _ => none
  | .finish body => some (s.ended body, .done, [])
  | .call c next =>
    match s.client.perform c with
    | (client, none) => some ({ s with client }, next, [])
    | (client, some (code, message)) => some ({ s with client }, .send false code message next next, [])
  | .set flag next => some (s.set flag, next, [])
  | .test flag ifSet otherwise => some (s, if s.get flag then ifSet else otherwise, [])
  | .close next =>
    if s.monitor.isSome then none else some ({ s with client := { s.client with connected := false } }, next, [])
  | .startApplication =>
    if s.application then some (s, .controlLoop, [])
    else
      some ({ s with application := true, nonDaemon := s.nonDaemon + 1 },
        .call .reportStarted (.countDown .controlLoop), [.application .main])
  | .countDown next => some ({ s with applicationStarted := true }, next, [])
  | .await next => if s.applicationStarted then some (s, next, []) else none
  | .startStopThread next => some ({ s with nonDaemon := s.nonDaemon + 1 }, next, [.application .stop])
  | .joinStopThread next => if s.stopThreadEnded then some (s, next, []) else none
  | .waitForApplicationThreads next => if s.nonDaemon = 0 then some (s, next, []) else none
  | .exit cause => some ((s.exit setup.hook cause).1, .exiting, (s.exit setup.hook cause).2)
  | .halt => some ({ s with halted := true }, .done, [])
  | .destroyJavaVM =>
    if s.nonDaemon = 0 then some ((s.exit setup.hook .ended).1, .exiting, (s.exit setup.hook .ended).2) else none
  | .network => some ({ s with connectionLost := true }, .done, [])

/-- **The next step of a thread.** -/
def act (setup : Setup) (s : Jvm) (i : Nat) (t : Thread) (answer : Answer) : Option (Jvm × Thread × List Thread) :=
  if s.halted then none
  else
    match t with
    | .at (.send hook code message thrown next) =>
      if s.monitor.isSome then none
      else
        match s.client.send code message with
        | .error _ => some (s, .at thrown, [])
        | .ok bytes => some ({ s with monitor := some i }, .writing hook code message bytes thrown next, [])
    | .at t => (proceed setup s t answer).map (fun (s', t', started) => (s', .at t', started.map .at))
    | .writing _ _ _ [] _ next => some ({ s with monitor := none }, .at next, [])
    | .writing hook code message (b :: rest) thrown next =>
      if s.connectionLost then some ({ s with monitor := none }, .at thrown, [])
      else
        some ({ s with wire := s.wire ++ [b], sent := if rest = [] then s.sent ++ [⟨hook, code, message⟩] else s.sent },
          .writing hook code message rest thrown next, [])

def jvm (setup : Setup) : Machine Jvm Thread Answer := ⟨act setup⟩

/-- The main thread behind `startControlThread`. -/
def mainTask : Launcher → Task
  | .application | .startStop _ => .await (.finish .main)
  | .listener => .await (.application .listenerStart)

/-- The bridge is connected, and its key is written. -/
def connected (launcher : Launcher) : Threads Jvm Thread :=
  ⟨{}, [.at .controlLoop, .at (mainTask launcher), .at .destroyJavaVM, .at .network]⟩

/-! ## What a step can do -/

/-- **The kinds of steps.** -/
inductive Stepped (setup : Setup) (s : Jvm) (i : Nat) (answer : Answer) : Thread → Jvm → Thread → List Thread → Prop
  | proceeds {t t' : Task} {s' : Jvm} {started : List Task} : proceed setup s t answer = some (s', t', started) →
      Stepped setup s i answer (.at t) s' (.at t') (started.map .at)
  | refused {hook : Bool} {code : Nat} {message : JString} {thrown next : Task} {e : Text} : s.monitor = none →
      s.client.send code message = .error e →
      Stepped setup s i answer (.at (.send hook code message thrown next)) s (.at thrown) []
  | enters {hook : Bool} {code : Nat} {message : JString} {thrown next : Task} {bytes : Bytes} : s.monitor = none →
      s.client.send code message = .ok bytes →
      Stepped setup s i answer (.at (.send hook code message thrown next)) { s with monitor := some i }
        (.writing hook code message bytes thrown next) []
  | writes {hook : Bool} {code : Nat} {message : JString} {thrown next : Task} (b : UInt8) (rest : Bytes) :
      s.connectionLost = false →
      Stepped setup s i answer (.writing hook code message (b :: rest) thrown next)
        { s with wire := s.wire ++ [b], sent := if rest = [] then s.sent ++ [⟨hook, code, message⟩] else s.sent }
        (.writing hook code message rest thrown next) []
  | breaks {hook : Bool} {code : Nat} {message : JString} {thrown next : Task} (b : UInt8) (rest : Bytes) :
      s.connectionLost = true →
      Stepped setup s i answer (.writing hook code message (b :: rest) thrown next) { s with monitor := none } (.at thrown) []
  | leaves {hook : Bool} {code : Nat} {message : JString} {thrown next : Task} :
      Stepped setup s i answer (.writing hook code message [] thrown next) { s with monitor := none } (.at next) []

theorem act_at {setup : Setup} {s : Jvm} {i : Nat} {t : Task} {answer : Answer} (hs : s.halted = false)
    (h : ∀ hook code message thrown next, t ≠ .send hook code message thrown next) :
    act setup s i (.at t) answer = (proceed setup s t answer).map (fun (s', t', started) => (s', .at t', started.map .at)) := by
  unfold act
  rw [if_neg (by simp [hs])]
  cases t with
  | send hook code message thrown next => exact absurd rfl (h _ _ _ _ _)
  | _ => rfl

theorem act_stepped {setup : Setup} {s s' : Jvm} {i : Nat} {t t' : Thread} {answer : Answer} {started : List Thread}
    (h : act setup s i t answer = some (s', t', started)) : Stepped setup s i answer t s' t' started := by
  have hs : s.halted = false := by
    by_contra hhalted
    unfold act at h
    rw [if_pos (by simpa using hhalted)] at h
    cases h
  cases t with
  | writing hook code message rest thrown next =>
    unfold act at h
    rw [if_neg (by simp [hs])] at h
    cases rest with
    | nil =>
      cases h
      exact .leaves
    | cons b rest =>
      by_cases hlost : s.connectionLost = true
      · dsimp only at h
        rw [if_pos hlost] at h
        cases h
        exact .breaks b rest hlost
      · dsimp only at h
        rw [if_neg hlost] at h
        cases h
        exact .writes b rest (by simpa using hlost)
  | «at» t =>
    by_cases hsend : ∃ hook code message thrown next, t = .send hook code message thrown next
    · obtain ⟨hook, code, message, thrown, next, rfl⟩ := hsend
      unfold act at h
      rw [if_neg (by simp [hs])] at h
      by_cases hfree : s.monitor.isSome = true
      · simp only [hfree, if_true] at h
        cases h
      · have hnone : s.monitor = none := by simpa using hfree
        simp only [hnone, Option.isSome_none, Bool.false_eq_true, if_false] at h
        cases hframe : s.client.send code message with
        | error e =>
          rw [hframe] at h
          cases h
          exact .refused hnone hframe
        | ok bytes =>
          rw [hframe] at h
          cases h
          exact .enters hnone hframe
    · have hother : ∀ hook code message thrown next, t ≠ .send hook code message thrown next :=
        fun hook code message thrown next he => hsend ⟨hook, code, message, thrown, next, he⟩
      rw [act_at hs hother] at h
      obtain ⟨⟨s₁, t₁, started₁⟩, hp, heq⟩ := Option.map_eq_some_iff.1 h
      cases heq
      exact .proceeds hp

end Bridge
end Jss
