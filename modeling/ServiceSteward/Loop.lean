import ServiceSteward.Launch
import ServiceSteward.Shutdown
import ServiceSteward.Turns
/-!
# Loop — the event loop, turn by turn

`Selected` is all that `select!` can do: take the head of one of its channels, or find it closed.  `all_eventLoop` is
the loop's invariant rule; `keeps_runOnce` and `keeps_run` carry a relation over one launch and over the whole program.
`Emits K` is the relation of adding only observations of a kind to the trace.
-/
namespace Jss
namespace Supervisor

open Protocol (Packet ReceiveEvent STARTED)
open Scripted

/-- **What `select!` can serve**, from a state in which it is ready. -/
inductive Selected (s : Sys) : Arm → Sys → Prop
  | line (line : Bytes) (rest : List Bytes) : s.output = line :: rest →
      Selected s (.output (some line)) ({ s with output := rest }.note (.took .select [line]))
  | outputClosed : Selected s (.output none) s
  | control (c : Control) (rest : List Control) : s.controls = c :: rest →
      Selected s (.control (some c)) ({ s with controls := rest }.note (.control .eventLoop (some c)))
  | controlsClosed : Selected s (.control none) (s.note (.control .eventLoop none))
  | event (event : ReceiveEvent) (rest : List ReceiveEvent) : s.run.connection = some (event :: rest) →
      Selected s (.protocol (some event))
        ({ s with run := { s.run with connection := some rest } }.note (.received (some event)))
  | channelClosed : s.run.connection = some [] → Selected s (.protocol none) (s.note (.received none))
  | tick (next : Instant) : Selected s .tick { s with run := { s.run with nextTick := next } }

/-- It asks the environment once. -/
theorem select_asks (s : Sys) :
    (select s).All (fun arm t => ∃ a u, ask s = .ok a u ∧ Selected u arm t) (fun _ _ => False)
      (fun t => ask s = .blocked t ∨ ∃ a, ask s = .ok a t) := by
  unfold select
  rw [all_bind]
  refine (ask s).all_eq.mono (fun a u hu => ?_) (fun e u hu => ?_) (fun u hu => .inl hu)
  · rw [all_bind, all_get]
    cases a.source with
    | output =>
      simp only
      by_cases hopen : (!u.run.outputOpen) = true
      · rw [if_pos hopen]
        exact .inr ⟨a, hu⟩
      rw [if_neg hopen]
      cases hout : u.output with
      | cons line rest => exact ⟨a, u, hu, .line line rest hout⟩
      | nil =>
        simp only
        by_cases hch : u.outputOpen = true
        · rw [if_pos hch]
          exact .inr ⟨a, hu⟩
        · rw [if_neg hch]
          exact ⟨a, u, hu, .outputClosed⟩
    | controls =>
      cases hctl : u.controls with
      | cons c rest => exact ⟨a, u, hu, .control c rest hctl⟩
      | nil =>
        simp only
        by_cases hch : u.controlsOpen = true
        · rw [if_pos hch]
          exact .inr ⟨a, hu⟩
        · rw [if_neg hch]
          exact ⟨a, u, hu, .controlsClosed⟩
    | protocol =>
      cases hconn : u.run.connection with
      | none => exact .inr ⟨a, hu⟩
      | some unread =>
        cases unread with
        | cons event rest => exact ⟨a, u, hu, .event event rest hconn⟩
        | nil =>
          simp only
          by_cases hfail : a.failure.isNone = true
          · rw [if_pos hfail]
            exact .inr ⟨a, hu⟩
          · rw [if_neg hfail]
            exact ⟨a, u, hu, .channelClosed hconn⟩
    | ticker =>
      simp only
      by_cases htick : u.clock < u.run.nextTick
      · rw [if_pos htick]
        exact .inr ⟨a, hu⟩
      · rw [if_neg htick]
        exact ⟨a, u, hu, .tick _⟩
  · unfold ask at hu
    cases hs : s.script with
    | nil =>
      rw [hs] at hu
      cases hu
    | cons a rest =>
      rw [hs] at hu
      cases hu

theorem select_spec {R : Sys → Sys → Prop} [Steady R] (s : Sys) :
    (select s).All (fun arm t => ∃ u, R s u ∧ Selected u arm t) (fun _ _ => False) (R s) := by
  have hask := ask_spec (R := R) s
  refine (select_asks s).mono (fun arm t ht => ?_) (fun _ _ h => h) (fun t ht => ?_)
  · obtain ⟨a, u, hu, hsel⟩ := ht
    rw [hu] at hask
    exact ⟨u, hask, hsel⟩
  · rcases ht with ht | ⟨a, ht⟩
    · rw [ht] at hask
      exact hask
    · rw [ht] at hask
      exact hask

/-- A control read at one of the other places, or the channel found closed. -/
inductive Heard (site : ControlSite) (s : Sys) : Option Control → Sys → Prop
  | item (c : Control) (rest : List Control) : s.controls = c :: rest →
      Heard site s (some c) ({ s with controls := rest }.note (.control site (some c)))
  | closed : Heard site s none (s.note (.control site none))

theorem recvControl_spec {R : Sys → Sys → Prop} [Steady R] (site : ControlSite) (s : Sys) :
    (recvControl site s).All (fun r t => ∃ u, R s u ∧ Heard site u r t) (fun _ _ => False) (R s) := by
  unfold recvControl
  rw [all_bind]
  refine (ask_spec s).mono (fun a u hu => ?_) (fun _ _ h => h) (fun _ h => h)
  rw [all_bind, all_get]
  cases hctl : u.controls with
  | cons c rest => exact ⟨u, hu, .item c rest hctl⟩
  | nil =>
    simp only
    by_cases hch : u.controlsOpen = true
    · rw [if_pos hch]
      exact hu
    · rw [if_neg hch]
      exact ⟨u, hu, .closed⟩

theorem recvControlTimeout_spec {R : Sys → Sys → Prop} [Steady R] (site : ControlSite) (timeout : Duration) (s : Sys) :
    (recvControlTimeout site timeout s).All
      (fun r t => match r with
        | .item c => ∃ u, R s u ∧ Heard site u (some c) t
        | .disconnected => ∃ u, R s u ∧ Heard site u none t
        | .timeout => R s t)
      (fun _ _ => False) (R s) := by
  unfold recvControlTimeout
  rw [all_bind, all_get, all_bind]
  refine (ask_spec s).mono (fun a u hu => ?_) (fun _ _ h => h) (fun _ h => h)
  rw [all_bind, all_get]
  cases hctl : u.controls with
  | cons c rest => exact ⟨u, hu, .item c rest hctl⟩
  | nil =>
    simp only
    by_cases hch : u.controlsOpen = true
    · have hlate : R u { u with clock := max u.clock (s.clock + timeout) } :=
        Steady.same (.of_le (Nat.le_max_left _ _))
      rw [if_pos hch]
      exact trans_of R hu hlate
    · rw [if_neg hch]
      exact ⟨u, hu, .closed⟩

/-- **The event loop's rule**: an invariant between turns, with what serving an arm does to it. -/
theorem all_eventLoop {sup : Supervisor} {I : Sys → Prop} {Q : RunOutcome → Sys → Prop} {E : Error → Sys → Prop}
    {B : Sys → Prop} (hselect : ∀ s, I s → (select s).All
      (fun arm t => (serve sup arm t).All (fun r u => match r with | none => I u | some o => Q o u) E B) E B)
    (hcut : ∀ s, I s → B s) (s : Sys) (hs : ∀ next, I { s with run := { s.run with nextTick := next } }) :
    (eventLoop sup s).All Q E B := by
  unfold eventLoop
  rw [all_bind, all_get]
  unfold modifyRun
  rw [all_bind, all_modify]
  unfold repeatFrom
  refine all_iterate (I := fun _ => I) (fun _ t ht => ?_) (fun _ => hcut) _ _ _ (hs _)
  unfold eventLoopTurn
  rw [all_bind]
  refine (hselect t ht).mono (fun arm u hu => ?_) (fun _ _ h => h) (fun _ h => h)
  rw [all_bind]
  refine hu.mono (fun r v hv => ?_) (fun _ _ h => h) (fun _ h => h)
  cases r with
  | none => exact hv
  | some o => exact hv

/-! ## Serving an arm -/

section Serve

variable {sup : Supervisor} {W : Ways} [W.Lawful] {Down : Sys → Prop} {D : RunOutcome → Sys → Prop}
  (c : Closing sup W Down D)
include c

theorem turn_handleOutputLine [Outputting W.on] (line : Bytes) : Turn W D (handleOutputLine sup line) :=
  turn_bind (keeps_recordOutput sup line) (fun found => turn_applyFilterMatches c found)

/-- The batch, for a claim that counts no lines. -/
theorem turn_handleOutputBatch [Outputting W.on] (htook : ∀ s lines, W.on s (s.note (.took .batch lines)))
    (first : Bytes) : Turn W D (handleOutputBatch sup first) := by
  have hbatch : Keeps W.on (takeBatch .batch outputBatch) := by
    unfold takeBatch
    refine keeps_bind keeps_ask (fun _ => keeps_bind keeps_get (fun u => ?_))
    refine keeps_bind (keeps_touch (fun _ => .of_core rfl)) (fun _ => ?_)
    exact keeps_bind (fun s => htook s _) (fun _ => keeps_pure _)
  intro s
  unfold handleOutputBatch
  rw [all_bind]
  refine (turn_handleOutputLine c first s).mono (fun r t ht => ?_) (fun _ _ h => h) (fun _ h => h)
  cases r with
  | some o => exact ht
  | none => exact turn_after ht (turn_bind hbatch (fun batch => turn_forEach (turn_handleOutputLine c) batch) t)

/-- **Every arm's turn**, from those of a batch, of a JVM that reports started, and of the tick. -/
theorem turn_serve (arm : Arm)
    (hbatch : ∀ line, arm = .output (some line) → Turn W D (handleOutputBatch sup line))
    (hstarted : ∀ packet, arm = .protocol (some (.packet packet)) → packet.code = STARTED → Keeps W.on handleStarted)
    (htick : arm = .tick → Turn W D (tick sup)) : Turn W D (serve sup arm) := by
  cases arm with
  | output line =>
    cases line with
    | some line => exact hbatch line rfl
    | none => exact turn_of_keeps (keeps_modifyRun (fun _ => .of_core rfl))
  | control control =>
    cases control with
    | some control => exact turn_handleControl c control
    | none => exact turn_of_ends c (ends_stopWith c 0)
  | protocol event =>
    cases event with
    | some event => exact turn_handleProtocol c event (fun packet h => hstarted packet (by rw [h]))
    | none => exact turn_of_stops c.disconnect
  | tick => exact htick rfl

end Serve

/-! ### One relation for all turns -/

section All

variable {R : Sys → Sys → Prop} [Draining R] {P : Sys → Prop} (l : Lasting R P) (sup : Supervisor)
include l

/-- **A closing from a relation that every operation keeps**, and what the exit brings about. -/
theorem closing_all (hpublish : ∀ s kind, (∀ id pid, kind ≠ .jvmStarted id pid) → R s (s.note (.published kind)))
    (hhold : sup.pausableStopsJvm = false → ∀ s, R s (s.setPausedInPlace true))
    (hrelease : ∀ s, R s (s.setPausedInPlace false))
    (hjoin : ∀ s events now, s.run.connection = none → R s (s.join events now))
    (hwaited : ∀ s status unread, R s (s.note (.waited .shutdown status unread))) :
    Closing sup (.all R) P (fun _ => P) where
  publish s kind h _ := hpublish s kind h
  hold := hhold
  release := hrelease
  join := hjoin
  drain := keeps_drainRemainingOutput (R := R) sup
  stable s t h := l.stable s t h.keeps
  shutdown code s := by
    have hkeeps := keeps_shutdownAndDrain (R := R) sup (keeps_tryWait_of hwaited) code s
    exact (hkeeps.and (l.shutdown sup code s)).mono (fun _ _ h => h) (fun _ _ h => h.1) (fun _ h => h.1)
  ended _ _ h _ := h
  paused s h := l.stable s _ (hpublish s _ (by simp)) h

theorem turn_tick_all {D : RunOutcome → Sys → Prop} (c : Closing sup (.all R) P D)
    (hwaited : ∀ s status unread, R s (s.note (.waited .tick status unread))) : Turn (.all R) D (tick sup) := by
  refine turn_tick c keeps_pollHeapDump.stops (fun s => ?_)
  refine ((keeps_tryWait_of (R := R) hwaited s).and (l.seen .tick s)).mono (fun status t ht => ?_) (fun _ _ h => h.1)
    (fun _ h => h.1)
  cases status with
  | none => exact ht.1
  | some code => exact ⟨ht.1, ht.2 (by simp)⟩

end All

/-! ### A relation kept by whatever the loop does -/

/-- **A relation that every operation of the event loop keeps**, but for reading its channels. -/
class Kept (R : Sys → Sys → Prop) : Prop extends Talking R, Killing R, Dumping R, Timing R, Outputting R where
  published : ∀ s kind, R s (s.note (.published kind))
  waited : ∀ s site status unread, R s (s.note (.waited site status unread))
  batch : ∀ s lines, R s (s.note (.took .batch lines))
  held : ∀ s paused, R s (s.setPausedInPlace paused)
  join : ∀ s events now, s.run.connection = none → R s (s.join events now)

section Kept

variable {R : Sys → Sys → Prop} [Kept R] (sup : Supervisor)

theorem keeps_shutdown_kept (exitCode : Int) : Keeps R (shutdownAndDrain sup exitCode) :=
  stops_shutdownAndDrain (keeps_drainRemainingOutput sup).stops (keeps_waitForOutput sup).stops
    keeps_terminateChild.stops (keeps_tryWait_of (fun s _ _ => Kept.waited s _ _ _)).stops
    (fun code message => (keeps_sendIfConnected code message).stops) exitCode

theorem closing_kept : Closing sup (.all R) (fun _ => True) (fun _ _ => True) where
  publish s kind _ _ := Kept.published s kind
  hold _ s := Kept.held s true
  release s := Kept.held s false
  join := Kept.join
  drain := keeps_drainRemainingOutput (R := R) sup
  stable _ _ _ h := h
  shutdown code s := (keeps_shutdown_kept (R := R) sup code s).mono (fun _ _ h => ⟨h, trivial⟩) (fun _ _ h => h)
    (fun _ h => h)
  ended _ _ _ _ := trivial
  paused _ _ := trivial

theorem turn_serve_kept (arm : Arm) : Turn (.all R) (fun _ _ => True) (serve sup arm) := by
  have c := closing_kept (R := R) sup
  refine turn_serve c arm (fun line _ => turn_handleOutputBatch c (fun s _ => Kept.batch s _) line)
    (fun _ _ _ => keeps_handleStarted c (fun s _ _ => Kept.published s _)) (fun _ => ?_)
  refine turn_tick c (keeps_pollHeapDump (R := R)).stops (fun s => ?_)
  have hask : Keeps R (tryWait .tick) := keeps_tryWait_of (fun s _ _ => Kept.waited s _ _ _)
  refine (hask s).mono (fun status t ht => ?_) (fun _ _ h => h) (fun _ h => h)
  cases status with
  | none => exact ht
  | some code => exact ⟨ht, trivial⟩

end Kept

/-- **The event loop under one relation**: an invariant that it keeps, and what every turn says of the outcome it ends
with. -/
theorem all_eventLoop_of {sup : Supervisor} {R : Sys → Sys → Prop} [Steady R] {I : Sys → Prop}
    {D : RunOutcome → Sys → Prop} (hI : ∀ s t, I s → R s t → I t) (hselected : ∀ s arm t, I s → Selected s arm t → I t)
    (hturn : ∀ arm, Turn (.all R) D (serve sup arm)) (s : Sys) (hs : I s) :
    (eventLoop sup s).All (fun o t => I t ∧ D o t) (fun _ => I) I := by
  have hstart : ∀ next, R s { s with run := { s.run with nextTick := next } } := fun _ => Steady.same (.of_core rfl)
  refine all_eventLoop (fun t ht => ?_) (fun _ h => h) s (fun next => hI _ _ hs (hstart next))
  refine (select_spec (R := R) t).mono (fun arm v hv => ?_) (fun _ _ h => h.elim) (fun u hu => hI t u ht hu)
  obtain ⟨u, hu, hsel⟩ := hv
  have hv := hselected u arm v (hI t u ht hu) hsel
  refine (hturn arm v).mono (fun r w hw => ?_) (fun _ w hw => hI v w hv hw) (fun w hw => hI v w hv hw)
  cases r with
  | none => exact hI v w hv hw
  | some o => exact ⟨hI v w hv hw.1, hw.2⟩

/-! ## Around the loop -/

section Around

variable {R : Sys → Sys → Prop} [Steady R]

theorem keeps_liftResult {α : Type} (r : Except Error α) : Keeps R (liftResult r) := by
  cases r with
  | ok a => exact keeps_pure a
  | error e => exact keeps_throw e

theorem keeps_create (config : Config) (property : Text) (pid : Nat) (strict : Bool) :
    Keeps R (OwnedPidFile.create config property pid strict) := by
  unfold OwnedPidFile.create
  split
  · exact keeps_pure _
  · refine keeps_bind keeps_ask (fun a => ?_)
    split
    · exact keeps_throw _
    · exact keeps_bind keeps_attemptOutside (fun _ => keeps_pure _)

theorem keeps_prepareLaunch (sup : Supervisor) : Keeps R (prepareLaunch sup) := by
  unfold prepareLaunch
  refine keeps_bind (keeps_liftResult _) (fun _ => keeps_bind (keeps_liftResult _) (fun _ => ?_))
  refine keeps_bind (keeps_liftResult _) (fun _ => keeps_bind keeps_attemptOutside (fun _ => ?_))
  refine keeps_bind keeps_attemptOutside (fun key => keeps_bind (keeps_liftResult _) (fun _ => ?_))
  refine keeps_bind (keeps_liftResult _) (fun _ => keeps_bind (keeps_liftResult _) (fun _ => ?_))
  exact keeps_bind keeps_attemptOutside (fun built => keeps_pure _)

theorem keeps_logCommand (sup : Supervisor) (command : JvmCommand) : Keeps R (logCommand sup command) := by
  have hnote : ∀ note, Keeps R (logNote note) := by
    intro note
    cases note with
    | some note => exact keeps_log (not_marker_of_level (by decide))
    | none => exact keeps_pure _
  exact keeps_bind (hnote _) (fun _ => keeps_runIf (keeps_log (not_marker_of_head _ _ 'C' _ (by decide))))

theorem keeps_assignJob (sup : Supervisor) : Keeps R (assignJob sup) := by
  unfold assignJob
  split
  · refine keeps_bind (keeps_attempt keeps_attemptOutside) (fun r => ?_)
    cases r with
    | ok a => exact keeps_pure _
    | error e => exact keeps_log (not_marker_of_level (by decide))
  · exact keeps_pure _

theorem keeps_updateJavaIdFile (sup : Supervisor) (vars : RunVars) : Keeps R (updateJavaIdFile sup vars) := by
  unfold updateJavaIdFile
  refine keeps_bind (keeps_attempt ?_) (fun r => ?_)
  · split
    · refine keeps_bind ?_ (fun _ => keeps_pure _)
      exact keeps_bind keeps_attemptOutside (fun _ => keeps_pure _)
    · exact keeps_create _ _ _ _
  · cases r with
    | ok file => exact keeps_pure _
    | error e => exact keeps_bind (keeps_log (not_marker_of_level (by decide))) (fun _ => keeps_pure _)

theorem keeps_logWarnings : ∀ warnings : List Warning, Keeps R (logWarnings warnings)
  | [] => keeps_pure ()
  | ⟨level, message⟩ :: warnings => by
    refine keeps_bind (keeps_log (not_marker_of_level ?_)) (fun _ => keeps_logWarnings warnings)
    cases level <;> simp

theorem keeps_tryOutside (message : Text) : Keeps R (tryOutside message) := by
  unfold tryOutside
  refine keeps_bind (keeps_attempt keeps_attemptOutside) (fun r => ?_)
  cases r with
  | ok a => exact keeps_pure _
  | error e => exact keeps_log (not_marker_of_level (by decide))

theorem keeps_startWrapper (sup : Supervisor) : Keeps R (startWrapper sup) := by
  unfold startWrapper
  refine keeps_bind (keeps_create _ _ _ _) (fun _ => keeps_bind (keeps_publish rfl rfl) (fun _ => ?_))
  refine keeps_bind keeps_attemptOutside (fun _ => keeps_bind (keeps_runIf (keeps_tryOutside _)) (fun _ => ?_))
  refine keeps_bind (keeps_runIf (keeps_tryOutside _)) (fun _ => keeps_bind (keeps_log ?_) (fun _ => ?_))
  · cases sup.service
    · exact not_marker_of_head _ _ _ _ (by decide)
    · exact not_marker_of_head _ _ _ _ (by decide)
  refine keeps_bind (keeps_log (not_marker_of_head _ _ _ _ (by decide))) (fun _ => ?_)
  exact keeps_bind (keeps_log (not_marker_of_last _ _ (by decide))) (fun _ => keeps_logWarnings _)

/-- A child, with an output channel of its own. -/
def Sys.spawn (s : Sys) (jvmId : Nat) : Sys :=
  { s with children := .running :: s.children, output := [], outputOpen := true }.note (.spawned jvmId)

/-- **The rule of one launch**: what holds before it (`I`), of the launched child (`J`), and of a launch that failed
(`K`). -/
theorem all_runOnce_of {sup : Supervisor} {I J K E B : Sys → Prop} {Q : RunOutcome → Sys → Prop} {jvmId : Nat}
    {resuming : Bool} (hI : Carried R I E B) (hJ : Carried R J E B) (hK : Carried R K E B)
    (hreset : ∀ s, I s → I { s with run := {} })
    (hspawn : ∀ s, I s → J (s.spawn jvmId))
    (hfail : ∀ s, I s → K (s.note (.spawnFailed jvmId)))
    (hfailed : ∀ s elapsed, K s → Q (.restart elapsed true 1) s)
    (hterminate : ∀ s, J s → (terminateChild s).All (fun _ => E) (fun _ => E) B)
    (hloop : ∀ s command key pid launchedAt now, J s →
      (eventLoop sup { s with run := .launched sup jvmId resuming command key pid launchedAt now }).All
        (fun o t => Q o { t with run := {} }) (fun _ => E) B)
    (s : Sys) (h : I s) : (runOnce sup jvmId resuming s).All Q (fun _ => E) B := by
  unfold runOnce
  rw [all_bind, all_modify]
  refine hI.bind (hreset s h) keeps_now (fun launchedAt t ht => ?_)
  refine hI.bind ht (keeps_prepareLaunch sup) (fun prepared t ht => ?_)
  refine hI.bind ht (keeps_logCommand sup _) (fun _ t ht => ?_)
  refine hI.bind ht (keeps_log (not_marker_of_head _ _ 'L' _ (by decide))) (fun _ t ht => ?_)
  rw [all_bind, all_attempt]
  unfold spawnChild
  rw [all_bind]
  refine (ask_spec (R := R) t).mono (fun a u hu => ?_) (fun _ _ h => h.elim) (fun u hu => hI.cut u (hI.after t u ht hu))
  have hready := hI.after t u ht hu
  cases a.failure with
  | some e =>
    refine hK.bind (s := u.note (.spawnFailed jvmId)) (hfail u hready)
      (keeps_log (not_marker_of_level (by decide))) (fun _ v hv => ?_)
    exact hK.bind hv keeps_now (fun now v hv => hfailed v _ hv)
  | none =>
    refine hJ.bind (s := u.spawn jvmId) (hspawn u hready) (keeps_assignJob sup) (fun _ v hv => ?_)
    refine hJ.bind hv (keeps_attempt (keeps_create _ _ _ _)) (fun r v hv => ?_)
    cases r with
    | error e =>
      rw [all_bind]
      exact (hterminate v hv).mono (fun _ _ hw => hw) (fun _ _ hw => hw) (fun _ hw => hw)
    | ok file =>
      refine hJ.bind hv keeps_now (fun now v hv => ?_)
      rw [all_bind, all_modify, all_bind]
      exact (hloop v _ _ _ _ now hv).mono (fun o w hw => hw) (fun _ _ h => h) (fun _ h => h)

/-- ... where ending the child says nothing. -/
theorem all_runOnce [Killing R] {sup : Supervisor} {I J K E B : Sys → Prop} {Q : RunOutcome → Sys → Prop} {jvmId : Nat}
    {resuming : Bool} (hI : Carried R I E B) (hJ : Carried R J E B) (hK : Carried R K E B)
    (hreset : ∀ s, I s → I { s with run := {} })
    (hspawn : ∀ s, I s → J (s.spawn jvmId))
    (hfail : ∀ s, I s → K (s.note (.spawnFailed jvmId)))
    (hfailed : ∀ s elapsed, K s → Q (.restart elapsed true 1) s)
    (hloop : ∀ s command key pid launchedAt now, J s →
      (eventLoop sup { s with run := .launched sup jvmId resuming command key pid launchedAt now }).All
        (fun o t => Q o { t with run := {} }) (fun _ => E) B)
    (s : Sys) (h : I s) : (runOnce sup jvmId resuming s).All Q (fun _ => E) B := by
  refine all_runOnce_of hI hJ hK hreset hspawn hfail hfailed (fun t ht => ?_) hloop s h
  refine (keeps_terminateChild (R := R) t).mono (fun _ u hu => ?_) (fun _ u hu => ?_) (fun u hu => ?_)
  · exact hJ.err u (hJ.after t u ht hu)
  · exact hJ.err u (hJ.after t u ht hu)
  · exact hJ.cut u (hJ.after t u ht hu)

end Around

/-! ## Relations on the trace -/

/-- Only observations of a kind are added to the trace. -/
def Emits (K : Obs → Prop) (s t : Sys) : Prop := ∃ new, t.trace = s.trace ++ new ∧ ∀ o ∈ new, K o

/-- A kind that has all plain observations, and those of the connection coming and going. -/
class Quiet (K : Obs → Prop) : Prop where
  plain : ∀ o, Obs.plain o → K o
  delivered : ∀ event, K (.delivered event)
  dropped : ∀ unread, K (.dropped unread)

section Emits

variable {K : Obs → Prop}

theorem emits_refl (s : Sys) : Emits K s s := ⟨[], by simp, by simp⟩

theorem emits_of_trace {s t : Sys} (h : t.trace = s.trace) : Emits K s t := ⟨[], by simp [h], by simp⟩

theorem emits_one {s t : Sys} {o : Obs} (h : t.trace = s.trace ++ [o]) (ho : K o) : Emits K s t :=
  ⟨[o], h, by simpa using ho⟩

theorem keeps_emits {o : Obs} (ho : K o) : Keeps (Emits K) (emit o) := fun _ => emits_one rfl ho

theorem emits_trans {s t u : Sys} (h : Emits K s t) (h' : Emits K t u) : Emits K s u := by
  obtain ⟨new, ht, hnew⟩ := h
  obtain ⟨new', hu, hnew'⟩ := h'
  refine ⟨new ++ new', by rw [hu, ht, List.append_assoc], fun o ho => ?_⟩
  rcases List.mem_append.1 ho with ho | ho
  · exact hnew o ho
  · exact hnew' o ho

theorem emits_mono {K' : Obs → Prop} (h : ∀ o, K o → K' o) {s t : Sys} (hst : Emits K s t) : Emits K' s t := by
  obtain ⟨new, ht, hnew⟩ := hst
  exact ⟨new, ht, fun o ho => h o (hnew o ho)⟩

theorem move_trace (s : Sys) (m : Move) :
    (s.move m).trace = s.trace ∨ ∃ event, (s.move m).trace = s.trace ++ [.delivered event] := by
  cases m with
  | deliver event =>
    simp only [Sys.move]
    split
    · exact .inl rfl
    · exact .inr ⟨event, rfl⟩
  | output line => simp only [Sys.move]; split <;> exact .inl rfl
  | exit code => simp only [Sys.move]; split <;> exact .inl rfl
  | dumped worker result => simp only [Sys.move]; split <;> exact .inl rfl
  | _ => exact .inl rfl

instance [Quiet K] : Frame (Emits K) where
  refl := emits_refl
  trans _ _ _ := emits_trans
  same h _ _ _ := emits_of_trace h
  move s m := by
    rcases move_trace s m with h | ⟨event, h⟩
    · exact emits_of_trace h
    · exact emits_one h (Quiet.delivered event)
  note _ o h := emits_one rfl (Quiet.plain o h)
  drop _ unread _ := emits_one rfl (Quiet.dropped unread)
  reap _ _ _ := emits_of_trace rfl

end Emits

theorem emits_join {K : Obs → Prop} (hconnected : K .connected) (hdelivered : ∀ event, K (.delivered event)) (s : Sys)
    (events : List ReceiveEvent) (now : Instant) : Emits K s (s.join events now) := by
  refine ⟨.connected :: events.map .delivered, rfl, fun o ho => ?_⟩
  rcases List.mem_cons.1 ho with rfl | ho
  · exact hconnected
  · obtain ⟨event, -, rfl⟩ := List.mem_map.1 ho
    exact hdelivered event

theorem emits_of_heard {K : Obs → Prop} {site : ControlSite} {s t : Sys} {control : Option Control}
    (h : Heard site s control t) (hk : K (.control site control)) : Emits K s t := by
  cases h with
  | item c rest _ => exact emits_one rfl hk
  | closed => exact emits_one rfl hk

/-- Reading a control, where that counts. -/
theorem keeps_recvControl {K : Obs → Prop} [Steady (Emits K)] {site : ControlSite}
    (hk : ∀ control, K (.control site control)) : Keeps (Emits K) (recvControl site) := by
  intro s
  refine (recvControl_spec (R := Emits K) site s).mono (fun r t ht => ?_) (fun _ _ h => h.elim) (fun _ h => h)
  obtain ⟨u, hu, hc⟩ := ht
  exact emits_trans hu (emits_of_heard hc (hk r))

theorem keeps_recvControlTimeout {K : Obs → Prop} [Steady (Emits K)] {site : ControlSite}
    (hk : ∀ control, K (.control site control)) (timeout : Duration) :
    Keeps (Emits K) (recvControlTimeout site timeout) := by
  intro s
  refine (recvControlTimeout_spec (R := Emits K) site timeout s).mono (fun r t ht => ?_) (fun _ _ h => h.elim)
    (fun _ h => h)
  cases r with
  | timeout => exact ht
  | item c =>
    obtain ⟨u, hu, hc⟩ := ht
    exact emits_trans hu (emits_of_heard hc (hk _))
  | disconnected =>
    obtain ⟨u, hu, hc⟩ := ht
    exact emits_trans hu (emits_of_heard hc (hk _))

/-- An invariant, as a relation. -/
def Preserves (I : Sys → Prop) (s t : Sys) : Prop := I s → I t

instance {I : Sys → Prop} : IsPreorder Sys (Preserves I) where
  refl _ h := h
  trans _ _ _ h h' hs := h' (h hs)

/-- Two relations at once. -/
def Both (R R' : Sys → Sys → Prop) (s t : Sys) : Prop := R s t ∧ R' s t

instance {R R' : Sys → Sys → Prop} [Steady R] [Steady R'] : Steady (Both R R') where
  refl s := ⟨refl_of R s, refl_of R' s⟩
  trans _ _ _ h h' := ⟨trans_of R h.1 h'.1, trans_of R' h.2 h'.2⟩
  same h := ⟨Steady.same h, Steady.same h⟩
  move s m := ⟨Steady.move s m, Steady.move s m⟩
  note s o h := ⟨Steady.note s o h, Steady.note s o h⟩

instance {R R' : Sys → Sys → Prop} [Killing R] [Killing R'] : Killing (Both R R') where
  killed s := ⟨Killing.killed s, Killing.killed s⟩
  reaped s := ⟨Killing.reaped s, Killing.reaped s⟩
  reap s older h := ⟨Killing.reap s older h, Killing.reap s older h⟩

instance {R R' : Sys → Sys → Prop} [Frame R] [Frame R'] : Frame (Both R R') where
  refl s := ⟨refl_of R s, refl_of R' s⟩
  trans _ _ _ h h' := ⟨trans_of R h.1 h'.1, trans_of R' h.2 h'.2⟩
  same h1 h2 h3 h4 := ⟨Frame.same h1 h2 h3 h4, Frame.same h1 h2 h3 h4⟩
  move s m := ⟨Frame.move s m, Frame.move s m⟩
  note s o h := ⟨Frame.note s o h, Frame.note s o h⟩
  drop s unread h := ⟨Frame.drop s unread h, Frame.drop s unread h⟩
  reap s older h := ⟨Frame.reap s older h, Frame.reap s older h⟩

instance {R R' : Sys → Sys → Prop} [Draining R] [Draining R'] : Draining (Both R R') where
  took s site lines h h' := ⟨Draining.took s site lines h h', Draining.took s site lines h h'⟩
  recorded s line := ⟨Draining.recorded s line, Draining.recorded s line⟩

end Supervisor
end Jss
