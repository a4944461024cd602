import ServiceSteward.Monitor
import ServiceSteward.Onward
/-!
# StartupDeadline — how long a JVM may take to start

`startup` reads off the trace what the current JVM was given to start: `wrapper.startup.timeout` from its launch, and
the hints of its START_PENDING packets.  Each packet overwrites the deadline, so it ends where the last hint does, which
can be earlier than what was given before.  As long as no hint ends before what was given until then (`OnlyExtends`),
the JVM is restarted only after all of it has passed (`startup_restart_in_time`).
-/
namespace Jss
namespace Supervisor

open Protocol (Packet ReceiveEvent STARTED START_PENDING RESTART STOP)
open Scripted

/-- What the current JVM was given to start, and whether it has reported that it did. -/
structure Startup where
  launched : Instant := 0
  started : Bool := false
  /-- When a hint was received, and how long it is. -/
  hints : List (Instant × Duration) := []
  deriving DecidableEq, Repr

def startupTimeout (sup : Supervisor) : Nat := sup.config.getU64 "wrapper.startup.timeout" 30

def startup (sup : Supervisor) : Monitor Startup (Instant × Obs) where
  start := {}
  step m
    | (now, .spawned _) => { launched := now }
    | (now, .received (some (.packet packet))) =>
      if packet.code = STARTED then { m with started := true }
      else if packet.code = START_PENDING then
        { m with hints := m.hints ++ [(now, Duration.fromMillis (waitHint (startupTimeout sup) packet.message))] }
      else m
    | _ => m

/-- Until when each of them gives it time, in the order in which they were given. -/
def Startup.ends (sup : Supervisor) (m : Startup) : List Instant :=
  (m.launched + Duration.fromSecs (startupTimeout sup)) :: m.hints.map (fun hint => hint.1 + hint.2)

/-- **The claim**: it has not started, and all of the time that it was given has passed. -/
def Startup.Expired (sup : Supervisor) (m : Startup) (now : Instant) : Prop :=
  m.started = false ∧ ∀ time ∈ m.ends sup, time ≤ now

/-- No hint ends before what was given until then. -/
def Startup.OnlyExtends (sup : Supervisor) (m : Startup) : Prop := (m.ends sup).Pairwise (· ≤ ·)

/-! ## From the launch to the check -/

/-- `run_once` from the launch of the child to the first turn of its event loop. -/
def startSupervising (sup : Supervisor) (jvmId : Nat) (resuming : Bool) (command : JvmCommand) (key : Text)
    (launchedAt : Instant) : Run Unit := do
  let pid ← spawnChild jvmId
  assignJob sup
  match ← Prog.attempt (OwnedPidFile.create sup.config "wrapper.java.pidfile" pid false) with
  | .error e => do
    terminateChild
    Prog.throw e
  | .ok _ => do
    let now ← now
    Prog.modify (fun s => { s with run := .launched sup jvmId resuming command key pid launchedAt now })
    let s ← Prog.get
    modifyRun (fun run => { run with nextTick := s.clock + tickInterval })

/-- `tick` up to its look at the startup deadline: when that is, if the child is running. -/
def tickToDeadline (sup : Supervisor) : Run (Option Instant) := do
  pollHeapDump
  match ← tryWait .tick with
  | some _ => return none
  | none => do
    authenticate sup
    let now ← now
    return some now

/-- **The restart is taken**: a turn from `s` is a tick that looks at the deadline at `now`, in `u`, and finds it
passed. -/
structure StartupRestart (sup : Supervisor) (s : Sys) (now : Instant) (u : Sys) : Prop where
  looks : ∃ t, select s = .ok .tick t ∧ tickToDeadline sup t = .ok (some now) u
  overdue : startupOverdue u.run now = true

/-- What the turn does then. -/
theorem StartupRestart.turn {sup : Supervisor} {s u : Sys} {now : Instant} (h : StartupRestart sup s now u) :
    eventLoopTurn sup s = (restartOverdue sup >>= fun outcome => return .inr outcome) u := by
  obtain ⟨⟨t, hselect, hlook⟩, hoverdue⟩ := h
  have htick : tick sup t = (restartOverdue sup >>= fun outcome => return some outcome) u := by
    unfold tickToDeadline at hlook
    obtain ⟨_, t1, hpoll, hlook⟩ := ok_of_bind hlook
    obtain ⟨status, t2, hwait, hlook⟩ := ok_of_bind hlook
    cases status with
    | some exitCode => cases hlook
    | none =>
      obtain ⟨_, t3, hauthenticate, hlook⟩ := ok_of_bind hlook
      obtain ⟨time, t4, hnow, hlook⟩ := ok_of_bind hlook
      cases hlook
      unfold tick
      simp only [Bind.bind, hpoll, hwait, hauthenticate, hnow]
      simp [getRun, Bind.bind, Prog.get, pure, hoverdue]
  unfold eventLoopTurn serve
  simp only [Bind.bind, hselect, htick]
  cases restartOverdue sup u with
  | _ => rfl

/-- ... and then the event loop runs. -/
theorem spawn_and_supervise (sup : Supervisor) (jvmId : Nat) (resuming : Bool) (command : JvmCommand) (key : Text)
    (launchedAt : Instant) :
    (spawnChild jvmId >>= fun pid => superviseChild sup jvmId resuming command key launchedAt pid) =
      (startSupervising sup jvmId resuming command key launchedAt >>= fun _ => do
        let outcome ← repeatFrom () (fun _ => eventLoopTurn sup)
        Prog.modify (fun s => { s with run := {} })
        return outcome) := by
  unfold startSupervising superviseChild eventLoop
  simp only [bind_assoc]
  refine bind_congr (fun pid => bind_congr (fun _ => bind_congr (fun r => ?_)))
  cases r with
  | error e =>
    simp only [bind_assoc]
    rfl
  | ok file => simp only [bind_assoc]

/-! ## What the deadline depends on -/

/-- Nothing that decides on a restart has changed. -/
def SameStart (s t : Sys) : Prop :=
  t.run.started = s.run.started ∧ t.run.startupDeadline = s.run.startupDeadline ∧
    t.run.startupSeconds = s.run.startupSeconds

instance : IsPreorder Sys SameStart where
  refl _ := ⟨rfl, rfl, rfl⟩
  trans _ _ _ h h' := ⟨h'.1.trans h.1, h'.2.1.trans h.2.1, h'.2.2.trans h.2.2⟩

theorem sameStart_of_run {s t : Sys} (h : t.run = s.run) : SameStart s t := by
  unfold SameStart
  rw [h]
  exact ⟨rfl, rfl, rfl⟩

theorem same_modify {f : Sys → Sys} (h : ∀ s, SameStart s (f s)) : Keeps SameStart (Prog.modify f : Run Unit) := h

theorem same_emit (o : Obs) : Keeps SameStart (emit o) := fun _ => sameStart_of_run rfl

theorem same_move (s : Sys) (m : Move) : SameStart s (s.move m) := by
  cases m with
  | deliver event =>
    simp only [Sys.move]
    split
    · exact refl_of SameStart s
    · exact ⟨rfl, rfl, rfl⟩
  | output line => simp only [Sys.move]; split <;> exact sameStart_of_run rfl
  | exit code => simp only [Sys.move]; split <;> exact sameStart_of_run rfl
  | dumped worker result => simp only [Sys.move]; split <;> exact sameStart_of_run rfl
  | _ => exact sameStart_of_run rfl

theorem same_moves : ∀ (moves : List Move) (s : Sys), SameStart s (moves.foldl Sys.move s)
  | [], s => refl_of SameStart s
  | m :: moves, s => trans_of SameStart (same_move s m) (same_moves moves (s.move m))

theorem same_ask : Keeps SameStart ask := by
  intro s
  unfold ask
  split
  · exact refl_of SameStart s
  · have hscript : SameStart s { s with script := ‹_› } := sameStart_of_run rfl
    exact trans_of SameStart hscript (same_moves _ _)

theorem same_attemptOutside : Keeps SameStart attemptOutside := by
  unfold attemptOutside
  refine keeps_bind same_ask (fun a => ?_)
  split
  · exact keeps_throw _
  · exact keeps_pure _

theorem same_getRun : Keeps SameStart getRun := keeps_bind keeps_get (fun _ => keeps_pure _)

theorem same_now : Keeps SameStart now := keeps_bind same_ask (fun _ => keeps_bind keeps_get (fun _ => keeps_pure _))

theorem same_log (level : LogLevel) (source : LogSource) (message : Message) :
    Keeps SameStart (logMessage level source message) := by
  unfold logMessage
  refine keeps_bind same_ask (fun a => ?_)
  split
  · exact keeps_bind (same_emit _) (fun _ => keeps_throw _)
  · exact same_emit _

theorem same_logLines (level : LogLevel) (source : LogSource) : ∀ lines : List Bytes,
    Keeps SameStart (logLines level source lines)
  | [] => keeps_pure ()
  | _ :: lines => keeps_bind (same_log _ _ _) (fun _ => same_logLines level source lines)

theorem same_tryWait (site : WaitSite) : Keeps SameStart (tryWait site) := by
  unfold tryWait
  refine keeps_bind same_attemptOutside (fun _ => keeps_bind keeps_get (fun s => ?_))
  exact keeps_bind (same_emit _) (fun _ => keeps_pure _)

theorem same_send (code : UInt8) (message : Text) : Keeps SameStart (send code message) := by
  unfold send
  refine keeps_bind same_ask (fun a => ?_)
  split
  · exact keeps_bind (same_emit _) (fun _ => keeps_throw _)
  · split
    · exact keeps_bind (same_emit _) (fun _ => keeps_throw _)
    · exact same_emit _

theorem same_markDisconnected : Keeps SameStart markDisconnected := by
  unfold markDisconnected
  refine keeps_bind same_getRun (fun run => ?_)
  split
  · exact keeps_pure _
  · refine keeps_bind (same_modify (fun _ => ⟨rfl, rfl, rfl⟩)) (fun _ => keeps_bind (same_emit _) (fun _ => ?_))
    exact keeps_bind (same_log _ _ _) (fun _ => same_emit _)

theorem same_sendIfConnected (code : UInt8) (message : Text) : Keeps SameStart (sendIfConnected code message) := by
  unfold sendIfConnected
  refine keeps_bind same_getRun (fun run => ?_)
  split
  · exact keeps_pure _
  · refine keeps_bind (keeps_attempt (same_send _ _)) (fun r => ?_)
    cases r with
    | ok _ => exact keeps_pure _
    | error e =>
      exact keeps_bind (same_log _ _ _) (fun _ => keeps_bind same_markDisconnected (fun _ => keeps_pure _))

theorem same_publishMatches : ∀ found : List FilterMatch, Keeps SameStart (publishMatches found)
  | [] => keeps_pure ()
  | _ :: rest => keeps_bind (same_emit _) (fun _ => same_publishMatches rest)

theorem same_recordOutput (sup : Supervisor) (line : Bytes) : Keeps SameStart (recordOutput sup line) := by
  unfold recordOutput
  refine keeps_bind same_getRun (fun run => keeps_bind (same_log _ _ _) (fun _ => ?_))
  exact keeps_bind (same_emit _) (fun _ => keeps_bind (same_publishMatches _) (fun _ => keeps_pure _))

theorem same_requestThreadDump (sup : Supervisor) : Keeps SameStart (requestThreadDump sup) := by
  have hdump : ∀ run method, Keeps SameStart (dumpThreads run method) := by
    intro run method
    cases method with
    | error e => exact keeps_pure _
    | ok method =>
      cases method with
      | consoleBreak =>
        exact keeps_bind (same_emit _) (fun _ => keeps_attempt (keeps_bind same_attemptOutside (fun _ => keeps_pure _)))
      | jcmd =>
        have hcapture : Keeps SameStart (captureWithJcmd run.jvmId) := by
          unfold captureWithJcmd
          refine keeps_bind same_ask (fun a => keeps_bind (same_logLines _ _ _) (fun _ => ?_))
          split
          · exact keeps_throw _
          · exact keeps_pure _
        refine keeps_bind (same_log _ _ _) (fun _ => keeps_bind (same_emit _) (fun _ => keeps_attempt ?_))
        exact keeps_bind hcapture (fun _ => keeps_pure _)
  unfold requestThreadDump
  refine keeps_bind same_getRun (fun run => keeps_bind (hdump _ _) (fun r => ?_))
  cases r with
  | ok method => exact keeps_bind (same_emit _) (fun _ => keeps_pure _)
  | error e => exact keeps_bind (same_log _ _ _) (fun _ => keeps_bind (same_emit _) (fun _ => keeps_pure _))

theorem same_startHeapDump (sup : Supervisor) : Keeps SameStart (startHeapDump sup) := by
  have hstart : Keeps SameStart (heapDumpStart sup.config) := by
    unfold heapDumpStart
    refine keeps_bind same_attemptOutside (fun a => keeps_bind keeps_get (fun s => ?_))
    exact keeps_bind (same_modify (fun _ => sameStart_of_run rfl)) (fun _ => keeps_pure _)
  unfold startHeapDump
  refine keeps_bind same_getRun (fun run => ?_)
  split
  · exact same_log _ _ _
  · split
    · exact same_log _ _ _
    · refine keeps_bind (keeps_attempt hstart) (fun r => ?_)
      cases r with
      | ok task =>
        refine keeps_bind (same_log _ _ _) (fun _ => keeps_bind (same_emit _) (fun _ => ?_))
        exact same_modify (fun _ => ⟨rfl, rfl, rfl⟩)
      | error e => exact keeps_bind (same_log _ _ _) (fun _ => same_emit _)

theorem same_pollHeapDump : Keeps SameStart pollHeapDump := by
  unfold pollHeapDump
  refine keeps_bind same_getRun (fun run => ?_)
  split
  · exact keeps_pure _
  · refine keeps_bind (keeps_bind same_ask (fun _ => keeps_bind keeps_get (fun _ => keeps_pure _))) (fun r => ?_)
    split
    · exact keeps_pure _
    · refine keeps_bind (same_modify (fun _ => ⟨rfl, rfl, rfl⟩)) (fun _ => ?_)
      unfold reportCompletion
      split
      · exact keeps_bind (same_log _ _ _) (fun _ => same_emit _)
      · exact keeps_bind (same_log _ _ _) (fun _ => same_emit _)

theorem same_connect (sup : Supervisor) (events : List ReceiveEvent) : Keeps SameStart (connect sup events) := by
  unfold connect
  refine keeps_bind (same_send _ _) (fun _ => keeps_bind same_ask (fun a => keeps_bind (same_send _ _) (fun _ => ?_)))
  refine keeps_bind (same_send _ _) (fun _ => keeps_bind (same_send _ _) (fun _ => ?_))
  refine keeps_bind same_getRun (fun run => keeps_bind ?_ (fun _ => keeps_bind same_now (fun now => ?_)))
  · unfold runIf
    split
    · exact same_log _ _ _
    · exact keeps_pure _
  · exact keeps_bind (same_modify (fun _ => ⟨rfl, rfl, rfl⟩)) (fun _ => same_emit _)

theorem same_authenticate (sup : Supervisor) : Keeps SameStart (authenticate sup) := by
  unfold authenticate
  refine keeps_bind same_getRun (fun run => ?_)
  split
  · exact keeps_pure _
  · refine keeps_bind same_ask (fun a => keeps_bind (same_modify (fun _ => ⟨rfl, rfl, rfl⟩)) (fun _ => ?_))
    unfold afterPoll
    split
    · exact keeps_throw _
    · exact keeps_pure _
    · exact same_connect _ _

theorem same_tickToDeadline (sup : Supervisor) : Keeps SameStart (tickToDeadline sup) := by
  unfold tickToDeadline
  refine keeps_bind same_pollHeapDump (fun _ => keeps_bind (same_tryWait _) (fun r => ?_))
  cases r with
  | some exitCode => exact keeps_pure _
  | none => exact keeps_bind (same_authenticate sup) (fun _ => keeps_bind same_now (fun _ => keeps_pure _))

theorem same_pingIfDue (now : Instant) : Keeps SameStart (pingIfDue now) := by
  unfold pingIfDue
  refine keeps_bind same_getRun (fun run => ?_)
  split
  · exact keeps_bind (same_sendIfConnected _ _) (fun _ => same_modify (fun _ => ⟨rfl, rfl, rfl⟩))
  · exact keeps_pure _

theorem same_resume : Keeps SameStart resume := by
  unfold resume
  refine keeps_bind (same_sendIfConnected _ _) (fun sent => ?_)
  split
  · exact keeps_bind (same_modify (fun _ => ⟨rfl, rfl, rfl⟩)) (fun _ => same_emit _)
  · exact keeps_pure _

/-! ### Turns that go on -/

/-- Nothing has changed if the turn goes on. -/
def GoesOn (p : Run (Option RunOutcome)) : Prop :=
  ∀ s, (p s).All (fun r t => r = none → SameStart s t) (fun _ _ => True) (fun _ => True)

theorem goesOn_of_keeps {p : Run (Option RunOutcome)} (h : Keeps SameStart p) : GoesOn p := fun s =>
  (h s).mono (fun _ _ ht _ => ht) (fun _ _ _ => trivial) (fun _ _ => trivial)

theorem goesOn_bind {α : Type} {p : Run α} {f : α → Run (Option RunOutcome)} (hp : Keeps SameStart p)
    (hf : ∀ a, GoesOn (f a)) : GoesOn (p >>= f) := by
  intro s
  rw [all_bind]
  refine (hp s).mono (fun a t ht => ?_) (fun _ _ _ => trivial) (fun _ _ => trivial)
  exact (hf a t).mono (fun _ u hu hr => trans_of SameStart ht (hu hr)) (fun _ _ h => h) (fun _ h => h)

/-- A turn that ends the loop. -/
theorem goesOn_some (p : Run RunOutcome) : GoesOn (p >>= fun outcome => return some outcome) := by
  intro s
  rw [all_bind]
  exact (p s).all_true.mono (fun _ _ _ hr => absurd hr (Option.some_ne_none _)) (fun _ _ h => h) (fun _ h => h)

theorem goesOn_forEach {β : Type} {body : β → Run (Option RunOutcome)} (h : ∀ b, GoesOn (body b)) :
    ∀ bs : List β, GoesOn (Prog.forEach body bs)
  | [] => goesOn_of_keeps (keeps_pure none)
  | b :: bs => by
    intro s
    rw [Prog.forEach, all_bind]
    refine (h b s).mono (fun r t ht => ?_) (fun _ _ h => h) (fun _ h => h)
    cases r with
    | some outcome => exact fun hr => absurd hr (Option.some_ne_none _)
    | none =>
      exact (goesOn_forEach h bs t).mono (fun _ u hu hr => trans_of SameStart (ht rfl) (hu hr)) (fun _ _ h => h)
        (fun _ h => h)

theorem goesOn_pause (sup : Supervisor) : GoesOn (pause sup) := by
  unfold pause
  split
  · have hends := goesOn_some (do
      shutdownAndDrain sup 0
      publish .servicePaused
      return RunOutcome.pause)
    simp only [bind_assoc, pure_bind] at hends
    exact hends
  · refine goesOn_bind (same_sendIfConnected _ _) (fun sent => ?_)
    split
    · refine goesOn_of_keeps (keeps_bind (same_modify (fun _ => ⟨rfl, rfl, rfl⟩)) (fun _ => ?_))
      exact keeps_bind (same_emit _) (fun _ => keeps_pure _)
    · exact goesOn_of_keeps (keeps_pure none)

theorem goesOn_resume : GoesOn (resume >>= fun _ => return none) :=
  goesOn_of_keeps (keeps_bind same_resume (fun _ => keeps_pure none))

theorem goesOn_applyAction (sup : Supervisor) (matched : FilterMatch) (action : FilterAction) :
    GoesOn (applyAction sup matched action) := by
  cases action with
  | none => exact goesOn_of_keeps (keeps_pure none)
  | debug => exact goesOn_of_keeps (keeps_bind (same_log _ _ _) (fun _ => keeps_pure none))
  | dump =>
    refine goesOn_of_keeps (keeps_bind (same_log _ _ _) (fun _ => ?_))
    exact keeps_bind (same_requestThreadDump sup) (fun _ => keeps_pure none)
  | gc =>
    refine goesOn_of_keeps (keeps_bind (same_log _ _ _) (fun _ => ?_))
    exact keeps_bind (same_sendIfConnected _ _) (fun _ => keeps_pure none)
  | restart => exact goesOn_bind (same_log _ _ _) (fun _ => goesOn_bind (same_emit _) (fun _ => goesOn_some _))
  | shutdown => exact goesOn_bind (same_log _ _ _) (fun _ => goesOn_some _)
  | pause =>
    unfold applyAction
    refine goesOn_bind same_getRun (fun run => ?_)
    split
    · exact goesOn_bind (same_log _ _ _) (fun _ => goesOn_pause sup)
    · exact goesOn_of_keeps (keeps_pure none)
  | resume =>
    unfold applyAction
    refine goesOn_bind same_getRun (fun run => ?_)
    split
    · exact goesOn_bind (same_log _ _ _) (fun _ => goesOn_resume)
    · exact goesOn_of_keeps (keeps_pure none)

theorem goesOn_handleOutputLine (sup : Supervisor) (line : Bytes) : GoesOn (handleOutputLine sup line) :=
  goesOn_bind (same_recordOutput sup line) (fun found =>
    goesOn_forEach (fun matched => goesOn_forEach (goesOn_applyAction sup matched) matched.actions) found)

theorem goesOn_handleOutputBatch (sup : Supervisor) (line : Bytes) : GoesOn (handleOutputBatch sup line) := by
  have hbatch : Keeps SameStart (takeBatch .batch outputBatch) := by
    unfold takeBatch
    refine keeps_bind same_ask (fun _ => keeps_bind keeps_get (fun s => ?_))
    refine keeps_bind (same_modify (fun _ => sameStart_of_run rfl)) (fun _ => ?_)
    exact keeps_bind (same_emit _) (fun _ => keeps_pure _)
  intro s
  unfold handleOutputBatch
  rw [all_bind]
  refine (goesOn_handleOutputLine sup line s).mono (fun r t ht => ?_) (fun _ _ h => h) (fun _ h => h)
  cases r with
  | some outcome => exact fun hr => absurd hr (Option.some_ne_none _)
  | none =>
    have hrest := goesOn_bind hbatch (fun batch => goesOn_forEach (goesOn_handleOutputLine sup) batch)
    exact (hrest t).mono (fun _ u hu hr => trans_of SameStart (ht rfl) (hu hr)) (fun _ _ h => h) (fun _ h => h)

theorem goesOn_handleControl (sup : Supervisor) (control : Control) : GoesOn (handleControl sup control) := by
  cases control with
  | stop => exact goesOn_some _
  | consoleInterrupt => exact goesOn_bind (same_log _ _ _) (fun _ => goesOn_some _)
  | consoleBreak =>
    refine goesOn_of_keeps (keeps_bind (same_log _ _ _) (fun _ => ?_))
    exact keeps_bind (same_requestThreadDump sup) (fun _ => keeps_pure none)
  | pause =>
    unfold handleControl
    refine goesOn_bind same_getRun (fun run => ?_)
    split
    · exact goesOn_pause sup
    · exact goesOn_of_keeps (keeps_pure none)
  | resume =>
    unfold handleControl
    refine goesOn_bind same_getRun (fun run => ?_)
    split
    · exact goesOn_resume
    · exact goesOn_of_keeps (keeps_pure none)
  | threadDump =>
    refine goesOn_of_keeps (keeps_bind (same_log _ _ _) (fun _ => ?_))
    exact keeps_bind (same_requestThreadDump sup) (fun _ => keeps_pure none)
  | heapDump => exact goesOn_of_keeps (keeps_bind (same_startHeapDump sup) (fun _ => keeps_pure none))
  | user code => exact goesOn_of_keeps (keeps_bind (same_sendIfConnected _ _) (fun _ => keeps_pure none))

theorem goesOn_tick (sup : Supervisor) : GoesOn (tick sup) := by
  unfold tick
  refine goesOn_bind same_pollHeapDump (fun _ => goesOn_bind (same_tryWait _) (fun status => ?_))
  cases status with
  | some exitCode => exact goesOn_some _
  | none =>
    refine goesOn_bind (same_authenticate sup) (fun _ => goesOn_bind same_now (fun now => ?_))
    refine goesOn_bind same_getRun (fun run => ?_)
    split
    · exact goesOn_some _
    · refine goesOn_bind (same_pingIfDue now) (fun _ => ?_)
      unfold watchPing
      refine goesOn_bind keeps_get (fun s => goesOn_bind (same_emit _) (fun _ => ?_))
      split
      · exact goesOn_bind (same_log _ _ _) (fun _ => goesOn_some _)
      · exact goesOn_of_keeps (keeps_pure none)

/-- A packet that neither reports the start nor asks for time. -/
theorem goesOn_handlePacket (sup : Supervisor) {packet : Packet} (h : packet.code ≠ STARTED)
    (h' : packet.code ≠ START_PENDING) : GoesOn (handlePacket sup packet) := by
  unfold handlePacket
  rw [if_neg h, if_neg h']
  split
  · exact goesOn_some _
  · split
    · exact goesOn_some _
    · split
      · refine goesOn_of_keeps (keeps_bind same_getRun (fun run => ?_))
        exact keeps_bind (same_log _ _ _) (fun _ => keeps_pure none)
      · exact goesOn_of_keeps (keeps_pure none)

/-! ## What the trace says -/

/-- No packet was read, and no JVM launched. -/
def Unheard (sup : Supervisor) (s t : Sys) : Prop := (startup sup).after t.timed = (startup sup).after s.timed

section Unheard

variable {sup : Supervisor}

theorem unheard_of_timed {s t : Sys} (h : t.timed = s.timed) : Unheard sup s t := by
  unfold Unheard
  rw [h]

theorem unheard_note {s t : Sys} {o : Obs} (h : t.timed = s.timed ++ [(s.clock, o)])
    (ho : ∀ m now, (startup sup).step m (now, o) = m) : Unheard sup s t := by
  unfold Unheard
  rw [h, Monitor.after_concat, ho]

theorem bland_step {o : Obs} (h : o.bland) (m : Startup) (now : Instant) : (startup sup).step m (now, o) = m := by
  cases o with
  | received event => exact h.elim
  | spawned id => exact h.elim
  | _ => rfl

theorem unheard_join (s : Sys) (events : List ReceiveEvent) (now : Instant) : Unheard sup s (s.join events now) := by
  unfold Unheard Sys.join
  rw [Monitor.after_append]
  intro x hx m
  rcases List.mem_cons.1 hx with rfl | hx
  · rfl
  · obtain ⟨event, -, rfl⟩ := List.mem_map.1 hx
    rfl

instance : Kept (Unheard sup) where
  refl _ := rfl
  trans _ _ _ h h' := Eq.trans h' h
  same h := unheard_of_timed h.timed
  move s m := by
    cases m with
    | deliver event =>
      simp only [Sys.move]
      split
      · exact unheard_of_timed rfl
      · exact unheard_note rfl (fun _ _ => rfl)
    | output line => simp only [Sys.move]; split <;> exact unheard_of_timed rfl
    | exit code => simp only [Sys.move]; split <;> exact unheard_of_timed rfl
    | dumped worker result => simp only [Sys.move]; split <;> exact unheard_of_timed rfl
    | _ => exact unheard_of_timed rfl
  note _ _ ho := unheard_note rfl (bland_step ho)
  sent _ _ _ := unheard_note rfl (fun _ _ => rfl)
  sendFailed _ := unheard_note rfl (fun _ _ => rfl)
  drop _ _ _ := unheard_note rfl (fun _ _ => rfl)
  killed _ := unheard_note rfl (fun _ _ => rfl)
  reaped _ := unheard_note rfl (fun _ _ => rfl)
  reap _ _ _ := unheard_of_timed rfl
  worker _ _ := unheard_of_timed rfl
  task _ _ := unheard_of_timed rfl
  dumping _ _ _ := unheard_note rfl (fun _ _ => rfl)
  nextPing _ _ := unheard_of_timed rfl
  answered _ _ := unheard_of_timed rfl
  check _ _ := unheard_note rfl (fun _ _ => rfl)
  took _ _ _ _ _ := unheard_note rfl (fun _ _ => rfl)
  recorded _ _ := unheard_note rfl (fun _ _ => rfl)
  published _ _ := unheard_note rfl (fun _ _ => rfl)
  waited _ _ _ _ := unheard_note rfl (fun _ _ => rfl)
  batch _ _ := unheard_note rfl (fun _ _ => rfl)
  held _ _ := unheard_of_timed rfl
  join s events now _ := unheard_join s events now

end Unheard

/-! ## The invariant -/

/-- Until when the last of what was given gives time. -/
def Startup.last (sup : Supervisor) (m : Startup) : Instant :=
  ((m.hints.map (fun hint => hint.1 + hint.2)).getLast?).getD (m.launched + Duration.fromSecs (startupTimeout sup))

/-- **Between two turns**: a JVM that reported started is known to, and the deadline, if there is one, is not before the
end of what was given last. -/
structure Awaits (sup : Supervisor) (s : Sys) : Prop where
  seconds : s.run.startupSeconds = startupTimeout sup
  started : ((startup sup).after s.timed).started = true → s.run.started = true
  deadline : ∀ deadline ∈ s.run.startupDeadline, ((startup sup).after s.timed).last sup ≤ deadline
  disabled : startupTimeout sup = 0 → s.run.startupDeadline = none

theorem Awaits.after {sup : Supervisor} {s t : Sys} (h : Awaits sup s) (hsame : SameStart s t)
    (htrace : Unheard sup s t) : Awaits sup t := by
  obtain ⟨hstarted, hdeadline, hseconds⟩ := hsame
  have hm : (startup sup).after t.timed = (startup sup).after s.timed := htrace
  refine ⟨by rw [hseconds]; exact h.seconds, ?_, ?_, by rw [hdeadline]; exact h.disabled⟩
  · rw [hm, hstarted]
    exact h.started
  · rw [hm, hdeadline]
    exact h.deadline

theorem last_concat (sup : Supervisor) (m : Startup) (hint : Instant × Duration) :
    Startup.last sup { m with hints := m.hints ++ [hint] } = hint.1 + hint.2 := by
  simp [Startup.last]

theorem last_launched (sup : Supervisor) (launched : Instant) :
    Startup.last sup { launched := launched } = launched + Duration.fromSecs (startupTimeout sup) := by
  unfold Startup.last
  rw [List.map_nil, List.getLast?_nil, Option.getD_none]

/-- **The JVM reports that it is started.** -/
theorem awaits_handleStarted {sup : Supervisor} {s : Sys} (hseconds : s.run.startupSeconds = startupTimeout sup) :
    (handleStarted s).All (fun _ t => Awaits sup t) (fun _ _ => True) (fun _ => True) := by
  unfold handleStarted modifyRun getRun publish runIf emit
  simp only [all_bind, all_modify, all_get, all_pure]
  split
  · exact ⟨hseconds, fun _ => rfl, fun deadline h => absurd h (Option.not_mem_none deadline), fun _ => rfl⟩
  · exact ⟨hseconds, fun _ => rfl, fun deadline h => absurd h (Option.not_mem_none deadline), fun _ => rfl⟩

/-- **The JVM asks for time**: the deadline is then what this hint gives, or later. -/
theorem awaits_handleStartPending {sup : Supervisor} {s : Sys} {message : Bytes} {received : Instant}
    (hseconds : s.run.startupSeconds = startupTimeout sup)
    (hstarted : ((startup sup).after s.timed).started = true → s.run.started = true)
    (hlast : ((startup sup).after s.timed).last sup =
      received + Duration.fromMillis (waitHint (startupTimeout sup) message))
    (hreceived : received ≤ s.clock) (hdisabled : startupTimeout sup = 0 → s.run.startupDeadline = none) :
    (handleStartPending message s).All (fun _ t => Awaits sup t) (fun _ _ => True) (fun _ => True) := by
  unfold handleStartPending getRun
  rw [all_bind, all_bind, all_get, all_pure]
  by_cases hpos : s.run.startupSeconds > 0
  · rw [if_pos hpos, all_bind]
    refine (((now_onward s).and (same_now s)).and (keeps_now (R := Unheard sup) s)).mono (fun now t ht => ?_)
      (fun _ _ _ => trivial) (fun _ _ => trivial)
    obtain ⟨⟨⟨honward, -, hnow⟩, hsame⟩, htrace⟩ := ht
    have hm : (startup sup).after t.timed = (startup sup).after s.timed := htrace
    refine ⟨hsame.2.2.trans hseconds, ?_, ?_, ?_⟩
    · intro h
      exact hsame.1.trans (hstarted (by rw [← hm]; exact h))
    · rintro deadline ⟨rfl⟩
      show ((startup sup).after t.timed).last sup ≤ _
      rw [hm, hlast, hseconds, ← hnow]
      exact Nat.add_le_add (hreceived.trans honward.clock) (Nat.mul_le_mul_right _ (Nat.le_max_left _ _))
    · intro hzero
      rw [hseconds, hzero] at hpos
      exact absurd hpos (Nat.lt_irrefl 0)
  · rw [if_neg hpos]
    have hzero : startupTimeout sup = 0 := by
      rw [← hseconds]
      exact Nat.eq_zero_of_not_pos hpos
    refine ⟨hseconds, hstarted, fun deadline hd => ?_, hdisabled⟩
    rw [hdisabled hzero] at hd
    cases hd

/-- What `select!` does to the invariant, but for a packet. -/
theorem awaits_selected {sup : Supervisor} {s t : Sys} {arm : Arm} (h : Awaits sup s) (hsel : Selected s arm t)
    (harm : ∀ packet, arm ≠ .protocol (some (.packet packet))) : Awaits sup t := by
  cases hsel with
  | line line rest _ => exact h.after (sameStart_of_run rfl) (unheard_note rfl (fun _ _ => rfl))
  | outputClosed => exact h
  | control control rest _ => exact h.after (sameStart_of_run rfl) (unheard_note rfl (fun _ _ => rfl))
  | controlsClosed => exact h.after (sameStart_of_run rfl) (unheard_note rfl (fun _ _ => rfl))
  | channelClosed _ => exact h.after (sameStart_of_run rfl) (unheard_note rfl (fun _ _ => rfl))
  | tick next => exact h.after ⟨rfl, rfl, rfl⟩ (unheard_of_timed rfl)
  | event event rest _ =>
    cases event with
    | packet packet => exact absurd rfl (harm packet)
    | disconnected => exact h.after ⟨rfl, rfl, rfl⟩ (unheard_note rfl (fun _ _ => rfl))

/-- Serving an arm that is not a packet. -/
theorem awaits_serve {sup : Supervisor} {s : Sys} (h : Awaits sup s) {arm : Arm}
    (hgoes : GoesOn (serve sup arm)) :
    (serve sup arm s).All (fun r t => r = none → Awaits sup t) (fun _ _ => True) (fun _ => True) := by
  refine ((hgoes s).and (turn_serve_kept (R := Unheard sup) sup arm s)).mono (fun r t ht hr => ?_)
    (fun _ _ _ => trivial) (fun _ _ => trivial)
  subst hr
  exact h.after (ht.1 rfl) ht.2

theorem goesOn_serve (sup : Supervisor) {arm : Arm} (harm : ∀ packet, arm ≠ .protocol (some (.packet packet))) :
    GoesOn (serve sup arm) := by
  cases arm with
  | output line =>
    cases line with
    | some line => exact goesOn_handleOutputBatch sup line
    | none => exact goesOn_of_keeps (keeps_bind (same_modify (fun _ => ⟨rfl, rfl, rfl⟩)) (fun _ => keeps_pure none))
  | control control =>
    cases control with
    | some control => exact goesOn_handleControl sup control
    | none => exact goesOn_some _
  | protocol event =>
    cases event with
    | none => exact goesOn_of_keeps (keeps_bind same_markDisconnected (fun _ => keeps_pure none))
    | some event =>
      cases event with
      | disconnected => exact goesOn_of_keeps (keeps_bind same_markDisconnected (fun _ => keeps_pure none))
      | packet packet => exact absurd rfl (harm packet)
  | tick => exact goesOn_tick sup

theorem same_answered : Keeps SameStart answered :=
  keeps_bind same_now (fun _ => same_modify (fun _ => ⟨rfl, rfl, rfl⟩))

theorem packet_step (sup : Supervisor) (m : Startup) (now : Instant) (packet : Packet) :
    (startup sup).step m (now, .received (some (.packet packet))) =
      if packet.code = STARTED then { m with started := true }
      else if packet.code = START_PENDING then
        { m with hints := m.hints ++ [(now, Duration.fromMillis (waitHint (startupTimeout sup) packet.message))] }
      else m := rfl

/-- **A packet**, read in `s` and now handled. -/
theorem awaits_packet {sup : Supervisor} {s : Sys} (h : Awaits sup s) {packet : Packet} {t : Sys}
    (hrun : SameStart s t) (hclock : s.clock ≤ t.clock)
    (htimed : t.timed = s.timed ++ [(s.clock, .received (some (.packet packet)))]) :
    (handleProtocol sup (.packet packet) t).All (fun r u => r = none → Awaits sup u) (fun _ _ => True)
      (fun _ => True) := by
  have hm : (startup sup).after t.timed =
      (startup sup).step ((startup sup).after s.timed) (s.clock, .received (some (.packet packet))) := by
    rw [htimed, Monitor.after_concat]
  rw [packet_step] at hm
  have hanswered := ((same_answered t).and (keeps_answered (R := Unheard sup) t)).and (keeps_answered (R := Onward) t)
  by_cases hstarted : packet.code = STARTED
  · rw [handleProtocol_packet, all_bind]
    refine hanswered.mono (fun _ u hu => ?_) (fun _ _ _ => trivial) (fun _ _ => trivial)
    unfold handlePacket
    rw [if_pos hstarted, all_bind]
    have hseconds : u.run.startupSeconds = startupTimeout sup :=
      hu.1.1.2.2.trans (hrun.2.2.trans h.seconds)
    exact (awaits_handleStarted hseconds).mono (fun _ _ hv _ => hv) (fun _ _ h => h) (fun _ h => h)
  · rw [if_neg hstarted] at hm
    by_cases hpending : packet.code = START_PENDING
    · rw [if_pos hpending] at hm
      rw [handleProtocol_packet, all_bind]
      refine hanswered.mono (fun _ u hu => ?_) (fun _ _ _ => trivial) (fun _ _ => trivial)
      obtain ⟨⟨hsame, htrace⟩, honward⟩ := hu
      have hsame : SameStart s u := trans_of SameStart hrun hsame
      have hhint := Eq.trans htrace hm
      unfold handlePacket
      rw [if_neg hstarted, if_pos hpending, all_bind]
      refine (awaits_handleStartPending (hsame.2.2.trans h.seconds) ?_ ?_ (hclock.trans honward.clock) ?_).mono
        (fun _ _ hv _ => hv) (fun _ _ h => h) (fun _ h => h)
      · rw [hhint, hsame.1]
        exact h.started
      · rw [hhint, last_concat]
      · rw [hsame.2.1]
        exact h.disabled
    · rw [if_neg hpending] at hm
      have harm : GoesOn (serve sup (.protocol (some (.packet packet)))) := by
        show GoesOn (handleProtocol sup (.packet packet))
        rw [handleProtocol_packet]
        exact goesOn_bind same_answered (fun _ => goesOn_handlePacket sup hstarted hpending)
      exact awaits_serve (h.after hrun hm) harm

/-- **One turn of the event loop.** -/
theorem awaits_turn {sup : Supervisor} {s t : Sys} (h : Awaits sup s) (hturn : eventLoopTurn sup s = .ok (.inl ()) t) :
    Awaits sup t := by
  unfold eventLoopTurn at hturn
  obtain ⟨arm, u, hselect, hturn⟩ := ok_of_bind hturn
  obtain ⟨r, v, hserve, hturn⟩ := ok_of_bind hturn
  cases r with
  | some outcome => cases hturn
  | none =>
    cases hturn
    have hselected := select_asks s
    rw [hselect] at hselected
    obtain ⟨a, w, hask, hsel⟩ := hselected
    have hkept := ((same_ask s).and (keeps_ask (R := Unheard sup) s)).and (keeps_ask (R := Onward) s)
    rw [hask] at hkept
    obtain ⟨⟨hsame, htrace⟩, -⟩ := hkept
    have hw : Awaits sup w := h.after hsame htrace
    by_cases harm : ∃ packet, arm = .protocol (some (.packet packet))
    · obtain ⟨packet, rfl⟩ := harm
      cases hsel with
      | event event rest hconn =>
        have hpacket := awaits_packet hw
          (t := { w with run := { w.run with connection := some rest } }.note (.received (some (.packet packet))))
          ⟨rfl, rfl, rfl⟩ (Nat.le_refl _) rfl
        rw [show handleProtocol sup (.packet packet) _ = _ from hserve] at hpacket
        exact hpacket rfl
    · have hother : ∀ packet, arm ≠ .protocol (some (.packet packet)) := fun packet h => harm ⟨packet, h⟩
      have hserved := awaits_serve (awaits_selected hw hsel hother) (goesOn_serve sup hother)
      rw [hserve] at hserved
      exact hserved rfl

/-! ## Runs -/

theorem spawnChild_launched (sup : Supervisor) {jvmId pid : Nat} {s t : Sys} (h : spawnChild jvmId s = .ok pid t) :
    (startup sup).after t.timed = { launched := t.clock } := by
  unfold spawnChild at h
  obtain ⟨a, u, -, h⟩ := ok_of_bind h
  cases hf : a.failure with
  | some e =>
    rw [hf] at h
    cases h
  | none =>
    rw [hf] at h
    cases h
    show (startup sup).after (u.timed ++ [(u.clock, .spawned jvmId)]) = _
    rw [Monitor.after_concat]
    rfl

theorem launched_deadline {sup : Supervisor} {jvmId pid : Nat} {resuming : Bool} {command : JvmCommand} {key : Text}
    {launchedAt now deadline : Instant}
    (h : deadline ∈ (JvmRun.launched sup jvmId resuming command key pid launchedAt now).startupDeadline) :
    0 < startupTimeout sup ∧ deadline = now + Duration.fromSecs (startupTimeout sup) := by
  have hdeadline : (JvmRun.launched sup jvmId resuming command key pid launchedAt now).startupDeadline =
      if startupTimeout sup > 0 then some (now + Duration.fromSecs (startupTimeout sup)) else none := rfl
  rw [hdeadline] at h
  by_cases hpos : startupTimeout sup > 0
  · rw [if_pos hpos] at h
    exact ⟨hpos, (Option.some.inj h).symm⟩
  · rw [if_neg hpos] at h
    cases h

/-- What was given is known from the launch on. -/
theorem Unheard.launched {sup : Supervisor} {s t : Sys} {launched : Instant}
    (hs : (startup sup).after s.timed = { launched := launched }) (h : Unheard sup s t) :
    (startup sup).after t.timed = { launched := launched } := Eq.trans h hs

/-- **A JVM that was just launched.** -/
theorem awaits_launched {sup : Supervisor} {jvmId : Nat} {resuming : Bool} {command : JvmCommand} {key : Text}
    {launchedAt : Instant} {s t : Sys} (h : startSupervising sup jvmId resuming command key launchedAt s = .ok () t) :
    Awaits sup t := by
  unfold startSupervising at h
  obtain ⟨pid, s1, hspawn, h⟩ := ok_of_bind h
  obtain ⟨_, s2, hjob, h⟩ := ok_of_bind h
  obtain ⟨r, s3, hfile, h⟩ := ok_of_bind h
  have hs1 := spawnChild_launched sup hspawn
  have htook := ((keeps_assignJob (R := Unheard sup) sup s1).and (keeps_assignJob (R := Onward) sup s1))
  rw [hjob] at htook
  have hcreated := (keeps_attempt (keeps_create (R := Unheard sup) sup.config "wrapper.java.pidfile" pid false) s2).and
    (keeps_attempt (keeps_create (R := Onward) sup.config "wrapper.java.pidfile" pid false) s2)
  rw [hfile] at hcreated
  cases r with
  | error e =>
    obtain ⟨_, _, -, h⟩ := ok_of_bind h
    cases h
  | ok file =>
    obtain ⟨now, s4, hnow, h⟩ := ok_of_bind h
    have hlooked := (keeps_now (R := Unheard sup) s3).and (now_onward s3)
    rw [hnow] at hlooked
    cases h
    have hm := Unheard.launched (Unheard.launched (Unheard.launched hs1 htook.1) hcreated.1) hlooked.1
    have hlater : s1.clock ≤ now := by
      rw [← hlooked.2.2.2]
      exact htook.2.clock.trans (hcreated.2.clock.trans hlooked.2.1.clock)
    refine ⟨rfl, ?_, fun deadline (hdeadline : deadline ∈ (JvmRun.launched sup jvmId resuming command key pid
      launchedAt now).startupDeadline) => ?_, fun hzero => ?_⟩
    · show ((startup sup).after s4.timed).started = true → _
      rw [hm]
      exact fun h => absurd h Bool.false_ne_true
    · show ((startup sup).after s4.timed).last sup ≤ deadline
      obtain ⟨-, rfl⟩ := launched_deadline hdeadline
      rw [hm, last_launched]
      exact Nat.add_le_add_right hlater _
    · refine Option.eq_none_iff_forall_not_mem.2 (fun deadline (hdeadline : deadline ∈ (JvmRun.launched sup jvmId
        resuming command key pid launchedAt now).startupDeadline) => ?_)
      exact absurd (launched_deadline hdeadline).1 (by omega)

theorem awaits_turns {sup : Supervisor} {s t : Sys} (h : Awaits sup s)
    (hturns : Iterated (fun _ => eventLoopTurn sup) () s () t) : Awaits sup t := by
  have hall : ∀ (c : Unit) (u : Sys), Iterated (fun _ => eventLoopTurn sup) () s c u → Awaits sup u := by
    intro c u hturns
    induction hturns with
    | start => exact h
    | turn _ hturn ih => exact awaits_turn ih hturn
  exact hall () t hturns

theorem unheard_tickToDeadline (sup : Supervisor) : Keeps (Unheard sup) (tickToDeadline sup) := by
  unfold tickToDeadline
  refine keeps_bind keeps_pollHeapDump (fun _ => ?_)
  refine keeps_bind (keeps_tryWait_of (fun s _ _ => Kept.waited s _ _ _)) (fun status => ?_)
  cases status with
  | some exitCode => exact keeps_pure _
  | none =>
    refine keeps_bind (stops_authenticate (closing_kept (R := Unheard sup) sup)) (fun _ => ?_)
    exact keeps_bind keeps_now (fun _ => keeps_pure _)

/-- **At the restart** the JVM has not reported that it started, and what was given last has passed. -/
theorem startup_restart_after_last {sup : Supervisor} {s u : Sys} {now : Instant} (h : Awaits sup s)
    (hrestart : StartupRestart sup s now u) :
    ((startup sup).after u.timed).started = false ∧ ((startup sup).after u.timed).last sup ≤ now := by
  obtain ⟨⟨t, hselect, hlook⟩, hoverdue⟩ := hrestart
  have hselected := select_asks s
  rw [hselect] at hselected
  obtain ⟨a, w, hask, hsel⟩ := hselected
  have hkept := (same_ask s).and (keeps_ask (R := Unheard sup) s)
  rw [hask] at hkept
  have ht : Awaits sup t := awaits_selected (h.after hkept.1 hkept.2) hsel (fun packet h => by cases h)
  have hlooked := (same_tickToDeadline sup t).and (unheard_tickToDeadline sup t)
  rw [hlook] at hlooked
  have hu : Awaits sup u := ht.after hlooked.1 hlooked.2
  unfold startupOverdue at hoverdue
  rw [Bool.and_eq_true] at hoverdue
  obtain ⟨hnot, hpassed⟩ := hoverdue
  constructor
  · cases hm : ((startup sup).after u.timed).started with
    | false => rfl
    | true =>
      rw [hu.started hm] at hnot
      cases hnot
  · cases hd : u.run.startupDeadline with
    | none =>
      rw [hd] at hpassed
      cases hpassed
    | some deadline =>
      rw [hd] at hpassed
      exact (hu.deadline deadline hd).trans (of_decide_eq_true hpassed)

theorem le_last_of_pairwise (a : Nat) (l : List Nat) (h : (a :: l).Pairwise (· ≤ ·)) :
    ∀ x ∈ a :: l, x ≤ l.getLast?.getD a := by
  rcases List.eq_nil_or_concat l with rfl | ⟨l, b, rfl⟩
  · simp
  · rw [List.concat_eq_append] at h ⊢
    rw [← List.cons_append, List.pairwise_append] at h
    intro x hx
    rw [List.getLast?_concat, Option.getD_some]
    rcases List.mem_append.1 (by rw [List.cons_append]; exact hx : x ∈ (a :: l) ++ [b]) with hx | hx
    · exact h.2.2 x hx b (List.mem_singleton.2 rfl)
    · rw [List.mem_singleton.1 hx]

/-- **The startup restart**: while no hint ends before what was given until then, a JVM is restarted only if it has not
reported that it started, the startup timeout has passed since its launch, and each hint has passed since it came. -/
theorem startup_restart_in_time {sup : Supervisor} {jvmId : Nat} {resuming : Bool} {command : JvmCommand} {key : Text}
    {launchedAt now : Instant} {s t u v : Sys}
    (hstart : startSupervising sup jvmId resuming command key launchedAt s = .ok () t)
    (hturns : Iterated (fun _ => eventLoopTurn sup) () t () u) (hrestart : StartupRestart sup u now v)
    (hhints : ((startup sup).after v.timed).OnlyExtends sup) : ((startup sup).after v.timed).Expired sup now := by
  obtain ⟨hstarted, hlast⟩ := startup_restart_after_last (awaits_turns (awaits_launched hstart) hturns) hrestart
  refine ⟨hstarted, fun time htime => ?_⟩
  exact (le_last_of_pairwise _ _ hhints time htime).trans hlast

/-! ### Two JVMs that ask for time -/

/-- A JVM that connects, gives a hint, and then waits. -/
def hintedStart (hint : Bytes) (time : Duration) : List Answer :=
  quiet 3 ++ [{ moves := [.elapse tickInterval] }] ++ quiet 1 ++ [{ poll := keyPoll }] ++ quiet 7 ++
    [{ moves := [.deliver (.packet ⟨START_PENDING, hint⟩)], source := .protocol }] ++ quiet 2 ++
    [{ moves := [.elapse time] }] ++ quiet 2

def waitsThirtySeconds : Supervisor := .sample ⟨[], [], List.Pairwise.nil⟩

def hintedLaunch (hint : Bytes) (time : Duration) : Outcome Sys Error Unit :=
  startSupervising waitsThirtySeconds 1 false {} "k" 0 { script := hintedStart hint time }

/-- The turn in which it connects, and the one in which it gives the hint. -/
def hintedTurn (hint : Bytes) (time : Duration) : Nat → Outcome Sys Error (Unit ⊕ RunOutcome)
  | 0 => eventLoopTurn waitsThirtySeconds (hintedLaunch hint time).state
  | n + 1 => eventLoopTurn waitsThirtySeconds (hintedTurn hint time n).state

def hintedTick (hint : Bytes) (time : Duration) : Outcome Sys Error Arm := select (hintedTurn hint time 1).state

def hintedCheck (hint : Bytes) (time : Duration) : Outcome Sys Error (Option Instant) :=
  tickToDeadline waitsThirtySeconds (hintedTick hint time).state

def Arm.isTick : Arm → Bool
  | .tick => true
  | _ => false

theorem tick_of_result {o : Outcome Sys Error Arm} (h : o.result.any Arm.isTick = true) : o = .ok .tick o.state := by
  cases o with
  | err e s => cases h
  | blocked s => cases h
  | ok arm s =>
    cases arm with
    | tick => rfl
    | output line => cases h
    | control control => cases h
    | protocol event => cases h

theorem hinted_turns {hint : Bytes} {time : Duration} (hconnects : (hintedTurn hint time 0).result = some (.inl ()))
    (hhints : (hintedTurn hint time 1).result = some (.inl ())) :
    Iterated (fun _ => eventLoopTurn waitsThirtySeconds) () (hintedLaunch hint time).state ()
      (hintedTurn hint time 1).state :=
  .turn (.turn .start (Outcome.eq_of_result hconnects)) (Outcome.eq_of_result hhints)

theorem hinted_restart {hint : Bytes} {time : Duration} {now : Instant}
    (htick : (hintedTick hint time).result.any Arm.isTick = true)
    (hcheck : (hintedCheck hint time).result = some (some now))
    (hoverdue : startupOverdue (hintedCheck hint time).state.run now = true) :
    StartupRestart waitsThirtySeconds (hintedTurn hint time 1).state now (hintedCheck hint time).state :=
  ⟨⟨_, tick_of_result htick, Outcome.eq_of_result hcheck⟩, hoverdue⟩

/-- A hint of a minute, after which the JVM is restarted. -/
theorem long_hint_is_kept :
    ((startup waitsThirtySeconds).after (hintedCheck [54, 48, 48, 48, 48] (Duration.fromSecs 61)).state.timed).Expired
      waitsThirtySeconds (tickInterval + Duration.fromSecs 61) := by
  have hlaunch : (hintedLaunch [54, 48, 48, 48, 48] (Duration.fromSecs 61)).result = some () := by decide
  refine startup_restart_in_time (Outcome.eq_of_result hlaunch) (hinted_turns ?_ ?_) (hinted_restart ?_ ?_ ?_) ?_
  · decide
  · decide
  · decide
  · decide
  · decide
  · unfold Startup.OnlyExtends
    decide

/-- A hint of a second, after which the JVM is restarted although it has thirty. -/
theorem short_hint_brings_the_deadline_forward : ∃ t u v,
    startSupervising waitsThirtySeconds 1 false {} "k" 0
      { script := hintedStart [49, 48, 48, 48] (Duration.fromSecs 2) } = .ok () t ∧
    Iterated (fun _ => eventLoopTurn waitsThirtySeconds) () t () u ∧
    StartupRestart waitsThirtySeconds u (tickInterval + Duration.fromSecs 2) v ∧
    ¬ ((startup waitsThirtySeconds).after v.timed).Expired waitsThirtySeconds (tickInterval + Duration.fromSecs 2) := by
  have hlaunch : (hintedLaunch [49, 48, 48, 48] (Duration.fromSecs 2)).result = some () := by decide
  refine ⟨_, _, _, Outcome.eq_of_result hlaunch, hinted_turns ?_ ?_, hinted_restart ?_ ?_ ?_, ?_⟩
  · decide
  · decide
  · decide
  · decide
  · decide
  · rintro ⟨-, hpassed⟩
    have hlaunched : Duration.fromSecs 30 ∈
        ((startup waitsThirtySeconds).after (hintedCheck [49, 48, 48, 48] (Duration.fromSecs 2)).state.timed).ends
          waitsThirtySeconds := by
      decide
    exact absurd (hpassed _ hlaunched) (by decide)

end Supervisor
end Jss
