import ServiceSteward.Acts
import ServiceSteward.Monitor
import ServiceSteward.Phases
/-!
# Dialogue — what the supervisor writes to a JVM, from its greeting to its stop

`talk` follows the control channel over the trace of a run: how much of the greeting is written, whether the connection
is in use, whether `STOP` was written on it, and whether the JVM is paused in place.  `Talk.may` says which packets may
be written at each stage, and when packets may be read.  **`channel_is_spoken_in_order`: in every run, wherever it is
cut short, every observation is one that its stage allows.**
-/
namespace Jss
namespace Supervisor

open Protocol (ReceiveEvent START STOP LOW_LOG_LEVEL PROPERTIES LOGFILE PAUSE RESUME GC SERVICE_CONTROL PING)
open Scripted

/-! ## The stages of a connection -/

inductive Stage where
  /-- No connection is in use, and this many packets of the next greeting are written. -/
  | greeting (written : Nat)
  | serving
  /-- `STOP` was written. -/
  | stopping
  deriving DecidableEq, Repr

structure Talk where
  stage : Stage := .greeting 0
  /-- `PAUSE` was the last of `PAUSE` and `RESUME` to be written to this JVM. -/
  paused : Bool := false
  deriving DecidableEq, Repr

/-- A packet is written. -/
def Talk.wrote (m : Talk) (code : UInt8) : Talk :=
  match m.stage with
  | .greeting written => { m with stage := .greeting (written + 1) }
  | .serving =>
    if code = STOP then { m with stage := .stopping }
    else if code = PAUSE then { m with paused := true }
    else if code = RESUME then { m with paused := false }
    else m
  | .stopping => m

def Talk.step (m : Talk) : Obs → Talk
  | .spawned _ => {}
  | .sent code _ => m.wrote code
  | .connected => { m with stage := .serving }
  | .dropped _ => { m with stage := .greeting 0 }
  | _ => m

def talk : Monitor Talk Obs := ⟨{}, Talk.step⟩

/-- The packets each stage allows. -/
def Talk.mayWrite (config : Config) (m : Talk) (code : UInt8) (message : Text) : Prop :=
  match m.stage with
  | .greeting 0 => code = LOW_LOG_LEVEL ∧ message = Text.ofNat (lowLogLevel config)
  | .greeting 1 => code = LOGFILE
  | .greeting 2 => code = PROPERTIES ∧ message = protocolProperties config
  | .greeting 3 => code = START ∧ message = "start".toList
  | .greeting _ => False
  | .serving => Told code message ∨ (code = PAUSE ∧ message = "0".toList ∧ m.paused = false) ∨
      (code = RESUME ∧ message = "0".toList ∧ m.paused = true) ∨ (code = STOP ∧ ∃ exitCode, message = Text.ofInt exitCode)
  | .stopping => False

/-- The packet has a frame. -/
def Writable (code : UInt8) (message : Text) : Prop := ∃ frame, (Protocol.Packet.text code message).writeTo = .ok frame

/-- The observations each stage allows: a connection is used once it is greeted, and no packet is read after `STOP`. -/
def Talk.may (config : Config) (m : Talk) : Obs → Prop
  | .sent code message => m.mayWrite config code message ∧ Writable code message
  | .connected => m.stage = .greeting 4
  | .received _ => m.stage = .serving
  | .dropped _ => m.stage = .serving ∨ m.stage = .stopping
  | _ => True

/-- **Every observation so far is one that its stage allows.** -/
def InOrder (config : Config) (s : Sys) : Prop := talk.Always (Talk.may config) s.trace

def Sys.talk (s : Sys) : Talk := Supervisor.talk.after s.trace

/-- The observations that the stages do not count. -/
def Obs.unspoken : Obs → Prop
  | .spawned _ | .sent _ _ | .connected | .received _ | .dropped _ => False
  | _ => True

theorem Obs.unspoken.step {o : Obs} (h : o.unspoken) (m : Talk) : m.step o = m := by
  cases o with
  | spawned id => exact h.elim
  | sent code message => exact h.elim
  | connected => exact h.elim
  | dropped unread => exact h.elim
  | _ => rfl

theorem Obs.unspoken.may {o : Obs} (h : o.unspoken) (config : Config) (m : Talk) : m.may config o := by
  cases o with
  | sent code message => exact h.elim
  | connected => exact h.elim
  | received event => exact h.elim
  | dropped unread => exact h.elim
  | _ => trivial

section Dialogue

variable {config : Config}

theorem talk_note (s : Sys) (o : Obs) : (s.note o).talk = s.talk.step o := Supervisor.talk.after_concat s.trace o

theorem orderly_note {s : Sys} {o : Obs} (h : InOrder config s) (ho : s.talk.may config o) : InOrder config (s.note o) :=
  (Monitor.always_concat s.trace o).2 ⟨h, ho⟩

/-! ## What happens apart from the channel -/

/-- Nothing is said, and nothing is changed that the stages depend on. -/
structure Unspoken (config : Config) (s t : Sys) : Prop where
  orderly : InOrder config s → InOrder config t
  talk : t.talk = s.talk
  connection : t.run.connection.isSome = s.run.connection.isSome
  held : t.run.pausedInPlace = s.run.pausedInPlace

theorem unspoken_of_trace {s t : Sys} (h : t.trace = s.trace)
    (hc : t.run.connection.isSome = s.run.connection.isSome) (hp : t.run.pausedInPlace = s.run.pausedInPlace) :
    Unspoken config s t := by
  refine ⟨fun hs => ?_, ?_, hc, hp⟩
  · unfold InOrder
    rw [h]
    exact hs
  · unfold Sys.talk
    rw [h]

theorem unspoken_note (s : Sys) {o : Obs} (h : o.unspoken) : Unspoken config s (s.note o) :=
  ⟨fun hs => orderly_note hs (h.may config s.talk), (talk_note s o).trans (h.step s.talk), rfl, rfl⟩

theorem Obs.bland.unspoken {o : Obs} (h : o.bland) : o.unspoken := by
  cases o with
  | published kind => trivial
  | logged level source message => trivial
  | waited site status unread => trivial
  | logFailed => trivial
  | _ => exact h.elim

theorem unspoken_move (s : Sys) (m : Move) : Unspoken config s (s.move m) := by
  cases m with
  | deliver event =>
    cases hc : s.run.connection with
    | none => exact unspoken_of_trace (by simp [Sys.move, hc]) (by simp [Sys.move, hc]) (by simp [Sys.move, hc])
    | some unread =>
      have hnote : Unspoken config s (s.note (.delivered event)) := unspoken_note s trivial
      have htrace : (s.move (.deliver event)).trace = (s.note (.delivered event)).trace := by simp [Sys.move, hc, Sys.note]
      refine ⟨fun hs => ?_, ?_, by simp [Sys.move, hc], by simp [Sys.move, hc]⟩
      · unfold InOrder
        rw [htrace]
        exact hnote.orderly hs
      · unfold Sys.talk
        rw [htrace]
        exact hnote.talk
  | output line => simp only [Sys.move]; split <;> exact unspoken_of_trace rfl rfl rfl
  | exit code => simp only [Sys.move]; split <;> exact unspoken_of_trace rfl rfl rfl
  | dumped worker result => simp only [Sys.move]; split <;> exact unspoken_of_trace rfl rfl rfl
  | _ => exact unspoken_of_trace rfl rfl rfl

instance : Steady (Unspoken config) where
  refl _ := ⟨id, rfl, rfl, rfl⟩
  trans _ _ _ h h' := ⟨fun hs => h'.orderly (h.orderly hs), h'.talk.trans h.talk, h'.connection.trans h.connection,
    h'.held.trans h.held⟩
  same h := unspoken_of_trace h.trace (by rw [h.run.connection]) h.run.pausedInPlace
  move := unspoken_move
  note s _ h := unspoken_note s h.unspoken

instance : Killing (Unspoken config) where
  killed s := unspoken_note s trivial
  reaped s := unspoken_note s trivial
  reap _ _ _ := unspoken_of_trace rfl rfl rfl

instance : Aside (Unspoken config) where
  worker _ _ := unspoken_of_trace rfl rfl rfl
  task _ _ := unspoken_of_trace rfl rfl rfl
  dumping s _ _ := unspoken_note s trivial
  nextPing _ _ := unspoken_of_trace rfl rfl rfl
  answered _ _ := unspoken_of_trace rfl rfl rfl
  check s _ := unspoken_note s trivial
  took s _ _ _ _ := unspoken_note s trivial
  recorded s _ := unspoken_note s trivial
  published s _ := unspoken_note s trivial
  waited s _ _ _ := unspoken_note s trivial
  batch s _ := unspoken_note s trivial

/-! ## Between two turns -/

/-- The stage between two turns: a connection is in use exactly if the supervisor has one. -/
def stageOf (run : JvmRun) : Stage := if run.connection.isSome then .serving else .greeting 0

/-- **Between two turns** the stages and the supervisor agree. -/
structure Attuned (config : Config) (s : Sys) : Prop where
  orderly : InOrder config s
  stage : s.talk.stage = stageOf s.run
  paused : s.talk.paused = s.run.pausedInPlace

theorem carried_orderly : Carried (Unspoken config) (InOrder config) (InOrder config) (InOrder config) :=
  ⟨fun _ _ h hst => hst.orderly h, fun _ h => h, fun _ h => h⟩

theorem Attuned.after {s t : Sys} (h : Attuned config s) (hst : Unspoken config s t) : Attuned config t where
  orderly := hst.orderly h.orderly
  stage := by
    rw [hst.talk, h.stage]
    unfold stageOf
    rw [hst.connection]
  paused := by rw [hst.talk, h.paused, hst.held]

theorem carried_attuned : Carried (Unspoken config) (Attuned config) (InOrder config) (InOrder config) :=
  ⟨fun _ _ h hst => h.after hst, fun _ h => h.orderly, fun _ h => h.orderly⟩

theorem Attuned.serving {s : Sys} (h : Attuned config s) (hc : s.run.connection.isSome = true) :
    s.talk.stage = .serving := by rw [h.stage, stageOf, if_pos hc]

theorem Attuned.greeting {s : Sys} (h : Attuned config s) (hc : s.run.connection = none) :
    s.talk.stage = .greeting 0 := by
  rw [h.stage, stageOf, hc]
  rfl

/-! ## Writing -/

/-- **A packet is written, or the connection has failed.** -/
theorem send_writes {R : Sys → Sys → Prop} [Steady R] (code : UInt8) (message : Text) (s : Sys) :
    (send code message s).All (fun _ t => Writable code message ∧ ∃ u, R s u ∧ t = u.note (.sent code message))
      (fun _ t => ∃ u, R s u ∧ t = u.note .sendFailed) (R s) := by
  unfold send
  rw [all_bind]
  refine (ask_spec (R := R) s).mono (fun a u hu => ?_) (fun _ _ h => h.elim) (fun _ h => h)
  cases hframe : (Protocol.Packet.text code message).writeTo with
  | error e => exact ⟨u, hu, rfl⟩
  | ok frame =>
    cases a.failure with
    | some e => exact ⟨u, hu, rfl⟩
    | none => exact ⟨⟨frame, hframe⟩, u, hu, rfl⟩

theorem Attuned.failed {s : Sys} (h : Attuned config s) : Attuned config (s.note .sendFailed) :=
  h.after (unspoken_note s trivial)

/-- The connection is dropped: the next packet will be the first of a greeting. -/
theorem Attuned.disconnect {s : Sys} (h : Attuned config s) (hc : s.run.connection.isSome = true)
    (unread : List ReceiveEvent) : Attuned config (s.disconnect unread) where
  orderly := orderly_note (s := { s with run := { s.run with connection := none } }) h.orderly (.inl (h.serving hc))
  stage := by
    unfold Sys.disconnect
    rw [talk_note]
    rfl
  paused := by
    unfold Sys.disconnect
    rw [talk_note]
    exact h.paused

theorem Attuned.markDisconnected {s : Sys} (h : Attuned config s) :
    (markDisconnected s).All (fun _ => Attuned config) (fun _ => InOrder config) (InOrder config) := by
  unfold Supervisor.markDisconnected getRun
  simp only [all_bind, all_get, all_pure]
  cases hc : s.run.connection with
  | none => exact h
  | some unread =>
    have hdropped := h.disconnect (by rw [hc]; rfl) unread
    have hrest : Within (Attuned config) (InOrder config) (do
        log .debug .protocol "JVM control channel disconnected; waiting for the JVM to exit or reconnect."
        publish .protocolDisconnected) :=
      within_of_keeps carried_attuned
        (keeps_bind (keeps_log (not_marker_of_level (by decide))) (fun _ => keeps_publish rfl rfl))
    exact hrest _ hdropped

/-- **A packet for a JVM that is connected**: what holds once it is written (`Q`), or that nothing was. -/
theorem Attuned.sendIfConnected {code : UInt8} {message : Text} {Q : Sys → Prop} {s : Sys} (h : Attuned config s)
    (hQ : ∀ t, Attuned config t → Unspoken config s t → t.run.connection.isSome = true → Writable code message →
      Q (t.note (.sent code message))) :
    (sendIfConnected code message s).All (fun sent t => if sent then Q t else Attuned config t)
      (fun _ => InOrder config) (InOrder config) := by
  unfold Supervisor.sendIfConnected getRun
  simp only [all_bind, all_get, all_pure]
  cases hc : s.run.connection with
  | none => exact h
  | some unread =>
    simp only
    rw [all_bind, all_attempt]
    refine (send_writes (R := Unspoken config) code message s).mono (fun _ t ht => ?_) (fun e t ht => ?_)
      (fun t ht => (h.after ht).orderly)
    · obtain ⟨hwritable, u, hu, rfl⟩ := ht
      exact hQ u (h.after hu) hu (by rw [hu.connection, hc]; rfl) hwritable
    · obtain ⟨u, hu, rfl⟩ := ht
      have hfailed := (h.after hu).failed
      refine carried_attuned.bind hfailed (keeps_log (not_marker_of_level (by decide))) (fun _ v hv => ?_)
      rw [all_bind]
      exact hv.markDisconnected.mono (fun _ _ hw => hw) (fun _ _ hw => hw) (fun _ hw => hw)

/-- What a packet that is told to a JVM changes: nothing. -/
theorem Told.wrote {code : UInt8} {message : Text} (h : Told code message) {m : Talk} (hm : m.stage = .serving) :
    m.wrote code = m := by
  unfold Talk.wrote
  rw [hm]
  cases h with
  | gc => simp [GC, STOP, PAUSE, RESUME]
  | user code => simp [SERVICE_CONTROL, STOP, PAUSE, RESUME]
  | ping started => simp [PING, STOP, PAUSE, RESUME]

theorem Attuned.told {code : UInt8} {message : Text} (hm : Told code message) {s : Sys} (h : Attuned config s)
    (hc : s.run.connection.isSome = true) (hw : Writable code message) : Attuned config (s.note (.sent code message)) := by
  have hstage := h.serving hc
  have hmay : s.talk.may config (.sent code message) := by
    refine ⟨?_, hw⟩
    unfold Talk.mayWrite
    rw [hstage]
    exact .inl hm
  have hstep : (s.note (.sent code message)).talk = s.talk := (talk_note s _).trans (hm.wrote hstage)
  refine ⟨orderly_note h.orderly hmay, ?_, ?_⟩
  · rw [hstep, h.stage]
    rfl
  · rw [hstep, h.paused]
    rfl

theorem Attuned.pause {s : Sys} (h : Attuned config s) (hc : s.run.connection.isSome = true)
    (hp : s.run.pausedInPlace = false) (hw : Writable PAUSE "0") : Attuned config ((s.note (.sent PAUSE "0")).setPausedInPlace true) := by
  have hstage := h.serving hc
  have hmay : s.talk.may config (.sent PAUSE "0") := by
    refine ⟨?_, hw⟩
    unfold Talk.mayWrite
    rw [hstage]
    exact .inr (.inl ⟨rfl, rfl, h.paused.trans hp⟩)
  have hstep : (s.note (.sent PAUSE "0")).talk = { s.talk with paused := true } := by
    rw [talk_note]
    simp [Talk.step, Talk.wrote, hstage, PAUSE, STOP]
  refine ⟨orderly_note h.orderly hmay, ?_, ?_⟩
  · show (s.note (.sent PAUSE "0")).talk.stage = stageOf s.run
    rw [hstep, ← h.stage]
  · show (s.note (.sent PAUSE "0")).talk.paused = true
    rw [hstep]

theorem Attuned.resume {s : Sys} (h : Attuned config s) (hc : s.run.connection.isSome = true)
    (hp : s.run.pausedInPlace = true) (hw : Writable RESUME "0") : Attuned config ((s.note (.sent RESUME "0")).setPausedInPlace false) := by
  have hstage := h.serving hc
  have hmay : s.talk.may config (.sent RESUME "0") := by
    refine ⟨?_, hw⟩
    unfold Talk.mayWrite
    rw [hstage]
    exact .inr (.inr (.inl ⟨rfl, rfl, h.paused.trans hp⟩))
  have hstep : (s.note (.sent RESUME "0")).talk = { s.talk with paused := false } := by
    rw [talk_note]
    simp [Talk.step, Talk.wrote, hstage, RESUME, PAUSE, STOP]
  refine ⟨orderly_note h.orderly hmay, ?_, ?_⟩
  · show (s.note (.sent RESUME "0")).talk.stage = stageOf s.run
    rw [hstep, ← h.stage]
  · show (s.note (.sent RESUME "0")).talk.paused = false
    rw [hstep]

/-- `STOP` is written where the connection is in use. -/
theorem Attuned.stop {s : Sys} (h : Attuned config s) (hc : s.run.connection.isSome = true) (exitCode : Int)
    (hw : Writable STOP (Text.ofInt exitCode)) : InOrder config (s.note (.sent STOP (Text.ofInt exitCode))) := by
  refine orderly_note h.orderly ⟨?_, hw⟩
  unfold Talk.mayWrite
  rw [h.serving hc]
  exact .inr (.inr (.inr ⟨rfl, exitCode, rfl⟩))

/-! ## The greeting -/

/-- While a connection is greeted, and after this many packets. -/
structure Greeting (config : Config) (written : Nat) (s : Sys) : Prop where
  orderly : InOrder config s
  stage : s.talk.stage = .greeting written
  paused : s.talk.paused = s.run.pausedInPlace

theorem Greeting.after {written : Nat} {s t : Sys} (h : Greeting config written s) (hst : Unspoken config s t) :
    Greeting config written t :=
  ⟨hst.orderly h.orderly, by rw [hst.talk, h.stage], by rw [hst.talk, h.paused, hst.held]⟩

theorem carried_greeting (written : Nat) :
    Carried (Unspoken config) (Greeting config written) (InOrder config) (InOrder config) :=
  ⟨fun _ _ h hst => h.after hst, fun _ h => h.orderly, fun _ h => h.orderly⟩

/-- **The next packet of the greeting.** -/
theorem Greeting.send {written : Nat} {code : UInt8} {message : Text} {s : Sys} (h : Greeting config written s)
    (hmay : ∀ m : Talk, m.stage = .greeting written → m.mayWrite config code message) :
    (send code message s).All (fun _ => Greeting config (written + 1)) (fun _ => InOrder config) (InOrder config) := by
  refine (send_writes (R := Unspoken config) code message s).mono (fun _ t ht => ?_) (fun _ t ht => ?_)
    (fun t ht => (h.after ht).orderly)
  · obtain ⟨hwritable, u, hu, rfl⟩ := ht
    have hready := h.after hu
    have hstep : (u.note (.sent code message)).talk = { u.talk with stage := .greeting (written + 1) } := by
      rw [talk_note]
      simp [Talk.step, Talk.wrote, hready.stage]
    refine ⟨orderly_note hready.orderly ⟨hmay _ hready.stage, hwritable⟩, by rw [hstep], ?_⟩
    rw [hstep]
    exact hready.paused
  · obtain ⟨u, hu, rfl⟩ := ht
    exact ((h.after hu).after (unspoken_note u (o := .sendFailed) trivial)).orderly

/-- The connection taken into use. -/
theorem Greeting.join {s : Sys} (h : Greeting config 4 s) (events : List ReceiveEvent) (now : Instant) :
    Attuned config (s.join events now) := by
  have hconnected : InOrder config (s.note .connected) := orderly_note h.orderly h.stage
  have hafter : (s.note .connected).talk = { s.talk with stage := .serving } := talk_note s .connected
  have htrace : (s.join events now).trace = (s.trace ++ [.connected]) ++ events.map .delivered := by
    simp [Sys.join]
  have hevents : ∀ o ∈ events.map Obs.delivered, ∃ event, o = .delivered event := by
    intro o ho
    obtain ⟨event, -, rfl⟩ := List.mem_map.1 ho
    exact ⟨event, rfl⟩
  have htalk : (s.join events now).talk = { s.talk with stage := .serving } := by
    rw [← hafter]
    unfold Sys.talk
    rw [htrace]
    refine Supervisor.talk.after_append _ _ (fun o ho m => ?_)
    obtain ⟨event, rfl⟩ := hevents o ho
    rfl
  refine ⟨?_, by rw [htalk]; rfl, by rw [htalk]; exact h.paused⟩
  unfold InOrder
  rw [htrace]
  refine Monitor.Always.append hconnected _ (fun o ho m => ?_)
  obtain ⟨event, rfl⟩ := hevents o ho
  trivial

theorem Attuned.connect {sup : Supervisor} {s : Sys} (h : Attuned sup.config s) (hc : s.run.connection = none)
    (events : List ReceiveEvent) : (connect sup events s).All (fun _ => Attuned sup.config)
      (fun _ => InOrder sup.config) (InOrder sup.config) := by
  have hstart : Greeting sup.config 0 s := ⟨h.orderly, h.greeting hc, h.paused⟩
  have hnext : ∀ {written : Nat} {code : UInt8} {message : Text} {β : Type} {f : Unit → Run β} {Q : β → Sys → Prop}
      {t : Sys}, Greeting sup.config written t →
      (∀ m : Talk, m.stage = .greeting written → m.mayWrite sup.config code message) →
      (∀ a u, Greeting sup.config (written + 1) u →
        ((f a) u).All Q (fun _ => InOrder sup.config) (InOrder sup.config)) →
      ((send code message >>= f) t).All Q (fun _ => InOrder sup.config) (InOrder sup.config) := by
    intro written code message β f Q t ht hmay hf
    rw [all_bind]
    exact (ht.send hmay).mono (fun a u hu => hf a u hu) (fun _ _ h => h) (fun _ h => h)
  unfold Supervisor.connect
  refine hnext hstart (fun m hm => ?_) (fun _ t ht => ?_)
  · simp [Talk.mayWrite, hm]
  refine (carried_greeting 1).bind ht keeps_ask (fun a t ht => ?_)
  refine hnext ht (fun m hm => ?_) (fun _ t ht => ?_)
  · simp [Talk.mayWrite, hm]
  refine hnext ht (fun m hm => ?_) (fun _ t ht => ?_)
  · simp [Talk.mayWrite, hm]
  refine hnext ht (fun m hm => ?_) (fun _ t ht => ?_)
  · simp [Talk.mayWrite, hm]
  refine (carried_greeting 4).bind ht keeps_getRun (fun run t ht => ?_)
  refine (carried_greeting 4).bind ht (keeps_runIf (keeps_log (not_marker_of_level (by decide)))) (fun _ t ht => ?_)
  refine (carried_greeting 4).bind ht keeps_now (fun now t ht => ?_)
  rw [all_bind, all_modify]
  exact (ht.join events now).after (unspoken_note _ trivial)

/-! ## The shutdown -/

/-- What is done to a JVM that was told to stop keeps what holds wherever a run is cut short. -/
theorem keeps_afterStop {R : Sys → Sys → Prop} [Aside R] [Killing R] (sup : Supervisor) :
    Keeps R (do if ← waitForExit sup (shutdownTimeout sup.config) then return () else afterTimeout sup) := by
  have hdrain : Keeps R (drainRemainingOutput sup) := keeps_drainRemainingOutput sup
  have hout : Keeps R (waitForOutput sup) := keeps_waitForOutput sup
  have hexit : Keeps R (waitForExit sup (shutdownTimeout sup.config)) :=
    stops_waitForExit (E := R) (B := R) hdrain.stops hout.stops _
  have htimeout : Keeps R (afterTimeout sup) :=
    stops_afterTimeout (E := R) (B := R) hdrain.stops hout.stops keeps_terminateChild.stops
  refine keeps_bind hexit (fun exited => ?_)
  cases exited with
  | true => exact keeps_pure _
  | false => exact htimeout

theorem Attuned.shutdown {sup : Supervisor} {s : Sys} (h : Attuned sup.config s) (exitCode : Int) :
    (shutdownAndDrain sup exitCode s).All (fun _ => InOrder sup.config) (fun _ => InOrder sup.config)
      (InOrder sup.config) := by
  have hover : ∀ {p : Run Unit}, Keeps (Unspoken sup.config) p → Within (InOrder sup.config) (InOrder sup.config) p :=
    fun hp => within_of_keeps carried_orderly hp
  rw [shutdownAndDrain_eq]
  refine carried_attuned.bind h (keeps_tryWait_of (fun s _ _ => unspoken_note s trivial)) (fun status t ht => ?_)
  cases status with
  | some code => exact hover (keeps_drainRemainingOutput sup) t ht.orderly
  | none =>
    simp only
    unfold stopChild
    rw [all_bind]
    refine (ht.sendIfConnected (Q := InOrder sup.config) (fun u hu _ hc => hu.stop hc exitCode)).mono
      (fun sent u hu => ?_) (fun _ _ h => h) (fun _ h => h)
    cases sent with
    | true => exact hover (keeps_afterStop sup) u hu
    | false =>
      exact hover (keeps_bind keeps_terminateChild (fun _ => keeps_drainRemainingOutput sup)) u hu.orderly

/-! ## The run -/

theorem acts_attuned (sup : Supervisor) : Acts sup (Unspoken sup.config) (Attuned sup.config) (InOrder sup.config) where
  inside := carried_attuned
  outside := carried_orderly
  held _ _ h := h.held
  tells code message hm s hs :=
    (hs.sendIfConnected (fun t ht _ hc => ht.told hm hc)).mono
      (fun sent t ht => by cases sent with | _ => exact ht) (fun _ _ h => h) (fun _ h => h)
  pauses s hs hp := hs.sendIfConnected (Q := fun t => Attuned sup.config (t.setPausedInPlace true))
    (fun t ht hst hc => ht.pause hc (hst.held.trans hp))
  resumes s hs hp := hs.sendIfConnected (Q := fun t => Attuned sup.config (t.setPausedInPlace false))
    (fun t ht hst hc => ht.resume hc (hst.held.trans hp))
  drops s hs := hs.markDisconnected
  greets events s hs hc := hs.connect hc events
  shuts code s hs := hs.shutdown code

/-- Packets are read while the connection is in use. -/
theorem Attuned.selected {s t : Sys} {arm : Arm} (h : Attuned config s) (hsel : Selected s arm t) : Attuned config t := by
  cases hsel with
  | line line rest _ =>
    have htaken : Attuned config { s with output := rest } := h.after (unspoken_of_trace rfl rfl rfl)
    exact htaken.after (unspoken_note _ trivial)
  | outputClosed => exact h
  | control c rest _ =>
    have htaken : Attuned config { s with controls := rest } := h.after (unspoken_of_trace rfl rfl rfl)
    exact htaken.after (unspoken_note _ trivial)
  | controlsClosed => exact h.after (unspoken_note _ trivial)
  | event event rest hc =>
    have hstage := h.serving (by rw [hc]; rfl)
    refine ⟨orderly_note (s := { s with run := { s.run with connection := some rest } }) h.orderly hstage, ?_, ?_⟩
    · rw [talk_note]
      exact hstage
    · rw [talk_note]
      exact h.paused
  | channelClosed hc =>
    have hstage := h.serving (by rw [hc]; rfl)
    refine ⟨orderly_note h.orderly hstage, ?_, ?_⟩
    · rw [talk_note]
      exact h.stage
    · rw [talk_note]
      exact h.paused
  | tick next => exact h.after (unspoken_of_trace rfl rfl rfl)

/-- A JVM was launched, and nothing is written to it yet. -/
structure Unopened (config : Config) (s : Sys) : Prop where
  orderly : InOrder config s
  talk : s.talk = {}

theorem carried_unopened : Carried (Unspoken config) (Unopened config) (InOrder config) (InOrder config) :=
  ⟨fun _ _ h hst => ⟨hst.orderly h.orderly, hst.talk.trans h.talk⟩, fun _ h => h.orderly, fun _ h => h.orderly⟩

/-- Before the first write the supervisor has no connection, and the JVM is not paused. -/
theorem Unopened.attuned {s : Sys} (h : Unopened config s) (sup : Supervisor) (jvmId : Nat) (resuming : Bool)
    (command : JvmCommand) (key : Text) (pid : Nat) (launchedAt now : Instant) :
    Attuned config { s with run := .launched sup jvmId resuming command key pid launchedAt now } :=
  ⟨h.orderly, congrArg Talk.stage h.talk, congrArg Talk.paused h.talk⟩

theorem orderly_runOnce (sup : Supervisor) (jvmId : Nat) (resuming : Bool) {s : Sys} (h : InOrder sup.config s) :
    (runOnce sup jvmId resuming s).All (fun _ => InOrder sup.config) (fun _ => InOrder sup.config)
      (InOrder sup.config) := by
  refine all_runOnce carried_orderly carried_unopened carried_orderly (fun _ h => h) (fun t ht => ?_) (fun t ht => ?_)
    (fun _ _ h => h) (fun t command key pid launchedAt now ht => ?_) s h
  · exact ⟨orderly_note (s := { t with children := .running :: t.children, output := [], outputOpen := true }) ht trivial,
      talk_note _ (.spawned jvmId)⟩
  · exact orderly_note ht trivial
  · have hattuned := ht.attuned sup jvmId resuming command key pid launchedAt now
    exact ((acts_attuned sup).eventLoop (fun _ _ _ hs hsel => hs.selected hsel) hattuned).mono (fun _ _ h => h)
      (fun _ _ h => h) (fun _ h => h)

theorem Obs.outer.unspoken {o : Obs} (h : o.outer) : o.unspoken := by
  cases o with
  | spawned id => cases h
  | sent code message => cases h
  | connected => cases h
  | received event => cases h
  | dropped unread => cases h
  | _ => trivial

instance : Steady (Preserves (InOrder config)) where
  same h hs := (Steady.same (R := Unspoken config) h).orderly hs
  move s m hs := (Steady.move (R := Unspoken config) s m).orderly hs
  note s o h hs := (Steady.note (R := Unspoken config) s o h).orderly hs

theorem inOrder_run (sup : Supervisor) (script : List Answer) : InOrder sup.config (run sup { script := script }).state := by
  have hlaws : (Phases.every (InOrder sup.config)).Laws sup (Preserves (InOrder sup.config))
      (fun _ => InOrder sup.config) (InOrder sup.config) (InOrder sup.config) := by
    refine Phases.every_laws (fun _ h => h) (fun _ h => h) (fun site s control t hsite hs hc => ?_)
      (fun s o ho _ hs => orderly_note hs (ho.unspoken.may _ _)) (fun jvmId resuming s hs => orderly_runOnce sup _ _ hs)
    cases hc with
    | item c rest _ => exact orderly_note (s := { s with controls := rest }) hs trivial
    | closed => exact orderly_note hs trivial
  have hstart : InOrder sup.config { script := script } := Monitor.always_nil
  exact (hlaws.run hstart).state (fun _ _ h => h) (fun _ _ h => h) (fun _ h => h)

end Dialogue

end Supervisor
end Jss
