import ServiceSteward.Basics
/-!
# ServiceHandler — the service control handler and the control channel

The handler runs on a thread of the service manager's.  It reports a pending state and puts a control in the bounded
channel that the supervisor reads, without waiting for room.  The supervisor starts after the status handle is in its
slot, so every report is made.
-/
namespace Jss
namespace Supervisor

inductive Control where
  | stop | consoleInterrupt | consoleBreak | pause | resume | threadDump | heapDump
  | user (code : Nat)
  deriving DecidableEq, Repr

end Supervisor

namespace Service

open Supervisor (Control)

/-- `ServiceControl`; `resume` is its `Continue`, and `other` is all that the handler does not implement. -/
inductive ServiceControl where
  | stop | shutdown | pause | resume | interrogate
  | userEvent (code : Nat)
  | other
  deriving DecidableEq, Repr

inductive ServiceState where
  | startPending | running | paused | stopPending | pausePending | continuePending | stopped
  deriving DecidableEq, Repr

inductive ServiceControlAccept where
  | stop | shutdown | pauseContinue
  deriving DecidableEq, Repr

structure ServiceStatus where
  currentState : ServiceState
  controlsAccepted : List ServiceControlAccept
  checkpoint : Nat
  waitHintMs : Nat
  deriving DecidableEq, Repr

inductive ServiceControlHandlerResult where
  | noError | notImplemented
  deriving DecidableEq, Repr

/-- What `run_service_worker` reads before it registers the handler. -/
structure Settings where
  dumpCode : Nat := 255
  heapDumpCode : Nat := 254
  pausable : Bool := false
  stopHintMs : Nat := 0

/-- The status that `set_status` reports. -/
def setStatus (state : ServiceState) (checkpoint waitHintMs : Nat) (pausable : Bool) : ServiceStatus where
  currentState := state
  controlsAccepted :=
    if state = .startPending ∨ state = .stopped then []
    else [.stop, .shutdown] ++ (if pausable then [.pauseContinue] else [])
  checkpoint := checkpoint
  waitHintMs := waitHintMs

/-- What the handler does with an event: what it reports, what it sends, and what it returns. -/
structure Handling where
  report : Option ServiceStatus := none
  control : Option Control := none
  result : ServiceControlHandlerResult := .noError
  deriving DecidableEq, Repr

def handler (settings : Settings) : ServiceControl → Handling
  | .stop | .shutdown =>
    { report := some (setStatus .stopPending 1 settings.stopHintMs settings.pausable), control := some .stop }
  | .pause =>
    if settings.pausable then
      { report := some (setStatus .pausePending 1 settings.stopHintMs settings.pausable), control := some .pause }
    else { result := .notImplemented }
  | .resume =>
    if settings.pausable then
      { report := some (setStatus .continuePending 1 30000 settings.pausable), control := some .resume }
    else { result := .notImplemented }
  | .userEvent code =>
    { control := some (
        if code = settings.dumpCode then .threadDump
        else if code = settings.heapDumpCode then .heapDump
        else .user code) }
  | .interrogate => {}
  | .other => { result := .notImplemented }

def controlCapacity : Nat := 32

/-- `control_sender.try_send`, its result ignored: the channel afterwards. -/
def trySend (controls : List Control) : Option Control → List Control
  | none => controls
  | some control => if controls.length < controlCapacity then controls ++ [control] else controls

/-- A control on its way into the channel: put there by something else, or by the handler, with what it did and how many
controls the channel held. -/
inductive Offer where
  | direct (control : Control)
  | handled (handling : Handling) (queued : Nat)
  deriving DecidableEq, Repr

end Service
end Jss
