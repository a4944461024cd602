import ServiceSteward.Monitor
import ServiceSteward.Phases
/-!
# LostChannel — a write to the JVM that fails

`link` follows the connection of the JVM through a trace.  A failed write is handled as a lost channel if nothing but
its record comes before the connection is dropped (`Handles`), and no run returns an error for it.  This is so exactly
when the write was one to a connection in use (`WritesInUse`), and not one of the handshake.
-/
namespace Jss
namespace Supervisor

open Protocol (ReceiveEvent)
open Scripted

/-- The connection of the current JVM, as the trace shows it. -/
structure Link where
  up : Bool := false
  /-- A write failed, and the connection has not been dropped yet. -/
  lost : Bool := false
  deriving DecidableEq, Repr

def link : Monitor Link Obs where
  start := {}
  step m
    | .connected => { up := true }
    | .dropped _ | .spawned _ => {}
    | .sendFailed => { m with lost := true }
    | _ => m

/-- What may come between a failed write and the end of its connection. -/
def Obs.onLoss : Obs → Prop
  | .delivered _ | .logFailed | .dropped _ => True
  | .logged level source _ => level = .error ∧ source = .protocol
  | _ => False

def Handles (m : Link) (o : Obs) : Prop := m.lost = true → o.onLoss

/-- A write that fails is one to a connection in use. -/
def WritesInUse (m : Link) (o : Obs) : Prop := o = .sendFailed → m.up = true

/-- **Every failed write is handled as a lost channel**, and none of them is what a run fails with. -/
def WritesHandled (o : Outcome Sys Error Int) : Prop :=
  link.Always Handles o.state.trace ∧
    ∀ e t, o = .err e t → (link.after t.trace).lost = true → t.trace.getLast? = some .logFailed

/-! ## The invariant -/

/-- What holds between two operations, with a property of the connection. -/
structure Linked (p : Link → Bool → Prop) (s : Sys) : Prop where
  handled : link.Always Handles s.trace
  inUse : link.Always WritesInUse s.trace
  kept : (link.after s.trace).lost = false
  shape : p (link.after s.trace) s.run.connection.isSome

/-- Nothing is said of the connection. -/
def Anyway (_ : Link) (_ : Bool) : Prop := True

/-- The JVM has not connected. -/
def Fresh (m : Link) (_ : Bool) : Prop := m.up = false

/-- The trace shows the connection. -/
def Shown (m : Link) (connected : Bool) : Prop := m.up = connected

/-- ... and it is there, or is not. -/
def Standing (b : Bool) (m : Link) (connected : Bool) : Prop := m.up = b ∧ connected = b

/-- An observation that has nothing to do with the connection. -/
def Obs.unlinked : Obs → Prop
  | .connected | .dropped _ | .spawned _ | .sendFailed => False
  | _ => True

theorem unlinked_step {o : Obs} (h : o.unlinked) (m : Link) : link.step m o = m := by
  cases o with
  | connected => exact h.elim
  | dropped unread => exact h.elim
  | spawned id => exact h.elim
  | sendFailed => exact h.elim
  | _ => rfl

variable {p : Link → Bool → Prop}

theorem Linked.note {s t : Sys} {o : Obs} (h : Linked p s) (ht : t.trace = s.trace ++ [o])
    (hc : t.run.connection.isSome = s.run.connection.isSome) (ho : o.unlinked) : Linked p t := by
  have hafter : link.after t.trace = link.after s.trace := by
    rw [ht, Monitor.after_concat, unlinked_step ho]
  refine ⟨?_, ?_, ?_, ?_⟩
  · rw [ht, Monitor.always_concat]
    refine ⟨h.handled, fun hlost => ?_⟩
    rw [h.kept] at hlost
    cases hlost
  · rw [ht, Monitor.always_concat]
    refine ⟨h.inUse, ?_⟩
    rintro rfl
    exact ho.elim
  · rw [hafter]
    exact h.kept
  · rw [hafter, hc]
    exact h.shape

theorem Linked.anew {p' : Link → Bool → Prop} {s t : Sys} (h : Linked p s) (ht : t.trace = s.trace)
    (hp : p' (link.after s.trace) t.run.connection.isSome) : Linked p' t := by
  refine ⟨?_, ?_, ?_, ?_⟩
  · rw [ht]
    exact h.handled
  · rw [ht]
    exact h.inUse
  · rw [ht]
    exact h.kept
  · rw [ht]
    exact hp

theorem Linked.same {s t : Sys} (h : Linked p s) (ht : t.trace = s.trace)
    (hc : t.run.connection.isSome = s.run.connection.isSome) : Linked p t :=
  h.anew ht (by rw [hc]; exact h.shape)

theorem linked_move (s : Sys) (m : Move) (h : Linked p s) : Linked p (s.move m) := by
  cases m with
  | deliver event =>
    simp only [Sys.move]
    cases hc : s.run.connection with
    | none => exact h
    | some unread => exact h.note (o := .delivered event) rfl (by simp [hc]) trivial
  | output line => simp only [Sys.move]; split <;> exact h.same rfl rfl
  | exit code => simp only [Sys.move]; split <;> exact h.same rfl rfl
  | dumped worker result => simp only [Sys.move]; split <;> exact h.same rfl rfl
  | _ => exact h.same rfl rfl

instance : Steady (Preserves (Linked p)) where
  same h hs := hs.same h.trace (by rw [h.run.connection])
  move := linked_move
  note s o ho h := by
    refine h.note rfl rfl ?_
    cases o with
    | connected => exact ho.elim
    | dropped unread => exact ho.elim
    | spawned id => exact ho.elim
    | sendFailed => exact ho.elim
    | _ => trivial

instance : Killing (Preserves (Linked p)) where
  killed _ h := h.note rfl rfl trivial
  reaped _ h := h.note rfl rfl trivial
  reap _ _ _ h := h.same rfl rfl

instance : Dumping (Preserves (Linked p)) where
  worker _ _ h := h.same rfl rfl
  task _ _ h := h.same rfl rfl
  dumping _ _ _ h := h.note rfl rfl trivial

instance : Timing (Preserves (Linked p)) where
  nextPing _ _ h := h.same rfl rfl
  answered _ _ h := h.same rfl rfl
  check _ _ h := h.note rfl rfl trivial

instance : Outputting (Preserves (Linked p)) where
  took _ _ _ _ _ h := h.note rfl rfl trivial
  recorded _ _ h := h.note rfl rfl trivial

/-! ## How a run can stop -/

/-- All writes so far were handled, or one is just being. -/
structure Handling (s : Sys) : Prop where
  handled : link.Always Handles s.trace
  inUse : link.Always WritesInUse s.trace

/-- A run that failed, but not for a write. -/
structure Excused (s : Sys) : Prop extends Handling s where
  excused : (link.after s.trace).lost = true → s.trace.getLast? = some .logFailed

/-- A run that failed for a write of the handshake. -/
structure Slipped (s : Sys) : Prop where
  lost : (link.after s.trace).lost = true
  last : s.trace.getLast? = some .sendFailed
  notInUse : ¬ link.Always WritesInUse s.trace

def Failing (s : Sys) : Prop := Excused s ∨ Slipped s

theorem Linked.handling {s : Sys} (h : Linked p s) : Handling s := ⟨h.handled, h.inUse⟩

theorem Linked.failing {s : Sys} (h : Linked p s) : Failing s := by
  refine .inl ⟨h.handling, fun hlost => ?_⟩
  rw [h.kept] at hlost
  cases hlost

theorem Linked.standing {s : Sys} (h : Linked Shown s) : Linked (Standing s.run.connection.isSome) s :=
  ⟨h.handled, h.inUse, h.kept, h.shape, rfl⟩

theorem Linked.shown {b : Bool} {s : Sys} (h : Linked (Standing b) s) : Linked Shown s :=
  ⟨h.handled, h.inUse, h.kept, h.shape.1.trans h.shape.2.symm⟩

theorem Linked.keeps {α : Type} {s : Sys} (h : Linked p s) {q : Run α} (hq : Keeps (Preserves (Linked p)) q) :
    (q s).All (fun _ => Linked p) (fun _ => Linked p) (Linked p) :=
  (hq s).mono (fun _ _ ht => ht h) (fun _ _ ht => ht h) (fun _ ht => ht h)

/-! ## A write -/

/-- A write, to a connection in use or to one that is being authenticated. -/
theorem send_spec (code : UInt8) (message : Text) {s : Sys} (h : Linked p s) :
    (send code message s).All (fun _ => Linked p) (fun _ t => ∃ u, Linked p u ∧ t = u.note .sendFailed) (Linked p) := by
  unfold send
  rw [all_bind]
  refine (ask_spec (R := Preserves (Linked p)) s).mono (fun a u hu => ?_) (fun _ _ h => h.elim) (fun u hu => hu h)
  have hlinked : Linked p u := hu h
  cases (Protocol.Packet.text code message).writeTo with
  | error e => exact ⟨u, hlinked, rfl⟩
  | ok bytes =>
    cases a.failure with
    | some e => exact ⟨u, hlinked, rfl⟩
    | none => exact hlinked.note rfl rfl trivial

/-- A write failed, and the connection is still to be dropped. -/
structure Losing (s : Sys) : Prop extends Handling s where
  lost : (link.after s.trace).lost = true
  connected : s.run.connection.isSome = true

theorem Losing.note {s t : Sys} {o : Obs} (h : Losing s) (ht : t.trace = s.trace ++ [o])
    (hc : t.run.connection.isSome = true) (ho : o.onLoss) (ho' : o.unlinked) : Losing t := by
  have hafter : link.after t.trace = link.after s.trace := by
    rw [ht, Monitor.after_concat, unlinked_step ho']
  refine ⟨⟨?_, ?_⟩, ?_, hc⟩
  · rw [ht, Monitor.always_concat]
    exact ⟨h.handled, fun _ => ho⟩
  · rw [ht, Monitor.always_concat]
    refine ⟨h.inUse, ?_⟩
    rintro rfl
    exact ho'.elim
  · rw [hafter]
    exact h.lost

theorem Losing.same {s t : Sys} (h : Losing s) (ht : t.trace = s.trace)
    (hc : t.run.connection.isSome = s.run.connection.isSome) : Losing t := by
  refine ⟨⟨?_, ?_⟩, ?_, ?_⟩
  · rw [ht]
    exact h.handled
  · rw [ht]
    exact h.inUse
  · rw [ht]
    exact h.lost
  · rw [hc]
    exact h.connected

theorem Losing.move {s : Sys} (h : Losing s) (m : Move) : Losing (s.move m) := by
  cases m with
  | deliver event =>
    simp only [Sys.move]
    cases hc : s.run.connection with
    | none => exact h
    | some unread => exact h.note (o := .delivered event) rfl rfl trivial trivial
  | output line => simp only [Sys.move]; split <;> exact h.same rfl rfl
  | exit code => simp only [Sys.move]; split <;> exact h.same rfl rfl
  | dumped worker result => simp only [Sys.move]; split <;> exact h.same rfl rfl
  | _ => exact h.same rfl rfl

theorem Losing.moves : ∀ (moves : List Move) {s : Sys}, Losing s → Losing (moves.foldl Sys.move s)
  | [], _, h => h
  | m :: moves, _, h => Losing.moves moves (h.move m)

theorem Losing.ask {s : Sys} (h : Losing s) : (ask s).All (fun _ => Losing) (fun _ _ => False) Losing := by
  unfold Supervisor.ask
  cases hs : s.script with
  | nil => exact h
  | cons a rest =>
    have hrest : Losing { s with script := rest } := h.same rfl rfl
    exact Losing.moves a.moves hrest

theorem Losing.log {s : Sys} (h : Losing s) (message : Text) :
    (log .error .protocol message s).All (fun _ => Losing) (fun _ => Excused) Handling := by
  unfold Supervisor.log logMessage
  rw [all_bind]
  refine h.ask.mono (fun a t ht => ?_) (fun _ _ h => h.elim) (fun _ h => h.toHandling)
  cases a.failure with
  | none => exact ht.note rfl ht.connected ⟨rfl, rfl⟩ trivial
  | some e =>
    have hfailed : Losing (t.note .logFailed) := ht.note rfl ht.connected trivial trivial
    exact ⟨hfailed.toHandling, fun _ => List.getLast?_concat⟩

theorem Handling.drop {s : Sys} (h : Handling s) (unread : List ReceiveEvent) :
    Linked (Standing false) (s.disconnect unread) := by
  have htrace : (s.disconnect unread).trace = s.trace ++ [.dropped unread] := rfl
  refine ⟨?_, ?_, ?_, ?_⟩
  · rw [htrace, Monitor.always_concat]
    exact ⟨h.handled, fun _ => trivial⟩
  · rw [htrace, Monitor.always_concat]
    exact ⟨h.inUse, by simp [WritesInUse]⟩
  · rw [htrace, Monitor.after_concat]
    rfl
  · rw [htrace, Monitor.after_concat]
    exact ⟨rfl, rfl⟩

theorem Handling.markDisconnected {s : Sys} (h : Handling s) (hc : s.run.connection.isSome = true) :
    (markDisconnected s).All (fun _ => Linked Shown) (fun _ => Failing) Handling := by
  unfold Supervisor.markDisconnected getRun
  simp only [all_bind, all_get, all_pure]
  cases hconn : s.run.connection with
  | none =>
    rw [hconn] at hc
    cases hc
  | some unread =>
    have hrest : Keeps (Preserves (Linked (Standing false))) (do
        Supervisor.log .debug .protocol "JVM control channel disconnected; waiting for the JVM to exit or reconnect."
        publish .protocolDisconnected) :=
      keeps_bind (keeps_log (not_marker_of_level (by decide))) (fun _ => keeps_publish rfl rfl)
    exact ((h.drop unread).keeps hrest).mono (fun _ _ ht => ht.shown) (fun _ _ ht => ht.failing) (fun _ ht => ht.handling)

/-- **A write to the connection in use** that fails costs the connection, and nothing else. -/
theorem sendIfConnected_spec (code : UInt8) (message : Text) {s : Sys} (h : Linked Shown s) :
    (sendIfConnected code message s).All (fun _ => Linked Shown) (fun _ => Failing) Handling := by
  unfold sendIfConnected getRun
  simp only [all_bind, all_get, all_pure]
  cases hc : s.run.connection with
  | none => exact h
  | some unread =>
    have hstanding : Linked (Standing true) s := by
      have := h.standing
      rw [hc] at this
      exact this
    simp only
    rw [all_bind, all_attempt]
    refine (send_spec code message hstanding).mono (fun _ t ht => ht.shown) (fun e t ht => ?_) (fun _ ht => ht.handling)
    obtain ⟨u, hu, rfl⟩ := ht
    have hlosing : Losing (u.note .sendFailed) := by
      refine ⟨⟨?_, ?_⟩, ?_, hu.shape.2⟩
      · rw [Sys.note, Monitor.always_concat]
        refine ⟨hu.handled, fun hlost => ?_⟩
        rw [hu.kept] at hlost
        cases hlost
      · rw [Sys.note, Monitor.always_concat]
        exact ⟨hu.inUse, fun _ => hu.shape.1⟩
      · rw [Sys.note, Monitor.after_concat]
        rfl
    simp only
    rw [all_bind]
    refine (hlosing.log _).mono (fun _ v hv => ?_) (fun _ _ hv => .inl hv) (fun _ hv => hv)
    rw [all_bind]
    exact hv.toHandling.markDisconnected hv.connected

/-- A write of the handshake that fails. -/
theorem handshake_spec (code : UInt8) (message : Text) {s : Sys} (h : Linked Shown s) (hc : s.run.connection = none) :
    (send code message s).All (fun _ => Linked Shown) (fun _ => Failing) Handling := by
  have hstanding : Linked (Standing false) s := by
    have := h.standing
    rw [hc] at this
    exact this
  refine (send_spec code message hstanding).mono (fun _ t ht => ht.shown) (fun e t ht => ?_) (fun _ ht => ht.handling)
  obtain ⟨u, hu, rfl⟩ := ht
  refine .inr ⟨?_, List.getLast?_concat, fun hinUse => ?_⟩
  · rw [Sys.note, Monitor.after_concat]
    rfl
  · have hup := ((Monitor.always_concat _ _).1 hinUse).2 rfl
    rw [hu.shape.1] at hup
    cases hup

/-! ## Runs -/

abbrev linkWays : Ways where
  on := Preserves (Linked Shown)
  ended := Preserves (Linked Shown)
  err := fun s t => Linked Shown s → Failing t
  cut := fun s t => Linked Shown s → Handling t

instance : Cut (Preserves (Linked Shown)) (fun s t => Linked Shown s → Failing t) where
  after h h' hs := h' (h hs)
  of h hs := (h hs).failing

instance : Cut (Preserves (Linked Shown)) (fun s t => Linked Shown s → Handling t) where
  after h h' hs := h' (h hs)
  of h hs := (h hs).handling

instance : linkWays.Lawful where
  on := inferInstanceAs (Steady (Preserves (Linked Shown)))
  ended := inferInstanceAs (IsPreorder Sys (Preserves (Linked Shown)))
  le h := h
  err := inferInstanceAs (Cut (Preserves (Linked Shown)) (fun s t => Linked Shown s → Failing t))
  cut := inferInstanceAs (Cut (Preserves (Linked Shown)) (fun s t => Linked Shown s → Handling t))

/-- A program that keeps the connection shown, however it stops. -/
theorem stops_of_linked {α : Type} {q : Run α} {s : Sys}
    (h : Linked Shown s → (q s).All (fun _ => Linked Shown) (fun _ => Failing) Handling) :
    (q s).All (fun _ => linkWays.on s) (fun _ => linkWays.err s) (linkWays.cut s) := by
  cases hq : q s with
  | ok a t =>
    rw [hq] at h
    exact h
  | err e t =>
    rw [hq] at h
    exact h
  | blocked t =>
    rw [hq] at h
    exact h

theorem Linked.join {s : Sys} (h : Linked Shown s) (events : List ReceiveEvent) (now : Instant) :
    Linked Shown (s.join events now) := by
  have htrace : (s.join events now).trace = (s.trace ++ [.connected]) ++ events.map .delivered := by
    simp [Sys.join]
  have hafter : link.after (s.join events now).trace = { up := true } := by
    rw [htrace, Monitor.after_append, Monitor.after_concat]
    · rfl
    · intro o ho m
      obtain ⟨event, -, rfl⟩ := List.mem_map.1 ho
      rfl
  refine ⟨?_, ?_, ?_, ?_⟩
  · rw [htrace]
    refine Monitor.Always.append ((Monitor.always_concat _ _).2 ⟨h.handled, fun hlost => ?_⟩) _ (fun o ho m => ?_)
    · rw [h.kept] at hlost
      cases hlost
    · obtain ⟨event, -, rfl⟩ := List.mem_map.1 ho
      exact fun _ => trivial
  · rw [htrace]
    refine Monitor.Always.append ((Monitor.always_concat _ _).2 ⟨h.inUse, by simp [WritesInUse]⟩) _ (fun o ho m => ?_)
    obtain ⟨event, -, rfl⟩ := List.mem_map.1 ho
    simp [WritesInUse]
  · rw [hafter]
  · rw [hafter]
    rfl

theorem stops_sends (code : UInt8) (message : Text) :
    Stops linkWays.on linkWays.err linkWays.cut (sendIfConnected code message) :=
  fun _ => stops_of_linked (sendIfConnected_spec code message)

theorem closing_linked (sup : Supervisor) : Closing sup linkWays (fun _ => True) (fun _ _ => True) where
  publish s kind _ _ h := h.note rfl rfl trivial
  hold _ _ h := h.same rfl rfl
  release _ h := h.same rfl rfl
  join _ events now _ h := h.join events now
  drain := (keeps_drainRemainingOutput (R := Preserves (Linked Shown)) sup).stops
  stable _ _ _ h := h
  shutdown code s := by
    have hask : Keeps (Preserves (Linked Shown)) (tryWait .shutdown) :=
      keeps_tryWait_of (fun _ _ _ h => h.note rfl rfl trivial)
    have hshutdown := stops_shutdownAndDrain (R := Preserves (Linked Shown)) (E := linkWays.err) (B := linkWays.cut)
      (keeps_drainRemainingOutput sup).stops (keeps_waitForOutput sup).stops keeps_terminateChild.stops hask.stops
      stops_sends code s
    exact hshutdown.mono (fun _ _ h => ⟨h, trivial⟩) (fun _ _ h => h) (fun _ h => h)
  ended _ _ _ _ := trivial
  paused _ _ := trivial
  sends := stops_sends
  writes code message s hc := stops_of_linked (fun h => handshake_spec code message h hc)
  disconnect s := by
    refine stops_of_linked (fun h => ?_)
    cases hc : s.run.connection with
    | none =>
      unfold markDisconnected getRun
      simp only [all_bind, all_get, all_pure, hc]
      exact h
    | some unread => exact h.handling.markDisconnected (by simp [hc])

theorem turn_serve_linked (sup : Supervisor) (arm : Arm) : Turn linkWays (fun _ _ => True) (serve sup arm) := by
  have c := closing_linked sup
  refine turn_serve c arm (fun line _ => turn_handleOutputBatch c (fun _ _ h => h.note rfl rfl trivial) line)
    (fun _ _ _ => keeps_handleStarted c (fun _ _ _ h => h.note rfl rfl trivial)) (fun _ => ?_)
  refine turn_tick c (keeps_pollHeapDump (R := Preserves (Linked Shown))).stops (fun s => ?_)
  have hask : Keeps (Preserves (Linked Shown)) (tryWait .tick) :=
    keeps_tryWait_of (fun _ _ _ h => h.note rfl rfl trivial)
  refine (hask.stops s).mono (fun status t ht => ?_) (fun _ _ h => h) (fun _ h => h)
  cases status with
  | none => exact ht
  | some code => exact ⟨ht, trivial⟩

theorem Linked.selected {s t : Sys} {arm : Arm} (h : Linked Shown s) (hsel : Selected s arm t) : Linked Shown t := by
  cases hsel with
  | line line rest _ => exact h.note rfl rfl trivial
  | outputClosed => exact h
  | control c rest _ => exact h.note rfl rfl trivial
  | controlsClosed => exact h.note rfl rfl trivial
  | event event rest hc => exact h.note rfl (by simp [Sys.note, hc]) trivial
  | channelClosed _ => exact h.note rfl rfl trivial
  | tick next => exact h.same rfl rfl

theorem eventLoop_linked (sup : Supervisor) {s : Sys} (h : Linked Shown s) :
    (eventLoop sup s).All (fun _ => Linked Shown) (fun _ => Failing) Handling := by
  refine all_eventLoop (I := Linked Shown) (fun t ht => ?_) (fun _ h => h.handling) s (fun next => h.same rfl rfl)
  refine (select_spec (R := Preserves (Linked Shown)) t).mono (fun arm v hv => ?_) (fun _ _ h => h.elim)
    (fun _ hu => (hu ht).handling)
  obtain ⟨u, hu, hsel⟩ := hv
  have hv := (hu ht).selected hsel
  refine (turn_serve_linked sup arm v).mono (fun r w hw => ?_) (fun _ _ hw => hw hv) (fun _ hw => hw hv)
  cases r with
  | none => exact hw hv
  | some o => exact hw.1 hv

theorem Linked.spawn {s : Sys} (h : Linked Anyway s) (jvmId : Nat) : Linked Fresh (s.spawn jvmId) := by
  have htrace : (s.spawn jvmId).trace = s.trace ++ [.spawned jvmId] := rfl
  refine ⟨?_, ?_, ?_, ?_⟩
  · rw [htrace, Monitor.always_concat]
    refine ⟨h.handled, fun hlost => ?_⟩
    rw [h.kept] at hlost
    cases hlost
  · rw [htrace, Monitor.always_concat]
    exact ⟨h.inUse, by simp [WritesInUse]⟩
  · rw [htrace, Monitor.after_concat]
    rfl
  · rw [htrace, Monitor.after_concat]
    rfl

/-- Around the event loop, what is said of the connection stays so. -/
abbrev Around : Sys → Sys → Prop := Both (Preserves (Linked Anyway)) (Preserves (Linked Fresh))

theorem carried_anyway : Carried Around (Linked Anyway) Failing Handling :=
  ⟨fun _ _ h hst => hst.1 h, fun _ h => h.failing, fun _ h => h.handling⟩

theorem carried_fresh : Carried Around (Linked Fresh) Failing Handling :=
  ⟨fun _ _ h hst => hst.2 h, fun _ h => h.failing, fun _ h => h.handling⟩

theorem runOnce_linked (sup : Supervisor) (jvmId : Nat) (resuming : Bool) {s : Sys} (h : Linked Anyway s) :
    (runOnce sup jvmId resuming s).All (fun _ => Linked Anyway) (fun _ => Failing) Handling := by
  refine all_runOnce (I := Linked Anyway) (J := Linked Fresh) (K := Linked Anyway) carried_anyway carried_fresh
    carried_anyway (fun t h => h.anew rfl trivial) (fun t h => h.spawn jvmId) (fun t h => h.note rfl rfl trivial)
    (fun _ _ h => h) (fun t command key pid launchedAt now h => ?_) s h
  have hshown : Linked Shown { t with run := .launched sup jvmId resuming command key pid launchedAt now } :=
    h.anew rfl h.shape
  exact (eventLoop_linked sup hshown).mono (fun _ u hu => hu.anew rfl trivial) (fun _ _ h => h) (fun _ h => h)

theorem outer_unlinked {o : Obs} (h : o.outer) : o.unlinked := by
  cases o with
  | connected => cases h
  | dropped unread => cases h
  | spawned id => cases h
  | sendFailed => cases h
  | _ => trivial

/-- **Writes that fail are handled** as a lost channel in a run, and no run fails for one, exactly when each of them is
to a connection in use. -/
theorem failed_writes_are_handled_iff (sup : Supervisor) (script : List Answer) :
    WritesHandled (run sup { script }) ↔ link.Always WritesInUse (run sup { script }).state.trace := by
  have hstart : Linked Anyway { script } := ⟨Monitor.always_nil, Monitor.always_nil, rfl, trivial⟩
  have hlaws : (Phases.every (Linked Anyway)).Laws sup (Preserves (Linked Anyway)) (fun _ => Linked Anyway) Failing
      Handling :=
    Phases.every_laws (fun _ h => h.failing) (fun _ h => h.handling)
      (preserves_heard (fun _ _ h => h.same rfl rfl) (fun _ _ ho h => h.note rfl rfl (outer_unlinked ho)))
      (fun _ _ ho _ h => h.note rfl rfl (outer_unlinked ho))
      (fun jvmId resuming _ h => runOnce_linked sup jvmId resuming h)
  have hrun := hlaws.run hstart
  unfold WritesHandled
  cases h : run sup { script } with
  | ok code t =>
    rw [h] at hrun
    exact ⟨fun _ => Linked.inUse hrun, fun _ => ⟨Linked.handled hrun, by simp⟩⟩
  | blocked t =>
    rw [h] at hrun
    exact ⟨fun _ => Handling.inUse hrun, fun _ => ⟨Handling.handled hrun, by simp⟩⟩
  | err e t =>
    rw [h] at hrun
    rcases hrun with hexcused | hslipped
    · refine ⟨fun _ => hexcused.inUse, fun _ => ⟨hexcused.handled, fun e' t' heq => ?_⟩⟩
      cases heq
      exact hexcused.excused
    · constructor
      · intro hhandled
        have hlast := hhandled.2 e t rfl hslipped.lost
        rw [hslipped.last] at hlast
        cases hlast
      · exact fun hinUse => absurd hinUse hslipped.notInUse

/-- A JVM that connects, and resets the connection before it is told to start. -/
def resetInHandshake : List Answer :=
  quiet 6 ++ [{ text := "k" }] ++ quiet 6 ++ [{ moves := [.elapse tickInterval] }] ++ quiet 1 ++ [{ poll := keyPoll }] ++
    quiet 4 ++ [{ failure := some (.io .other) }]

theorem reset_in_the_handshake_ends_the_run :
    ¬ WritesHandled (run (.sample ⟨[], [], by decide⟩) { script := resetInHandshake }) ∧
    ∃ e t, run (.sample ⟨[], [], by decide⟩) { script := resetInHandshake } = .err e t ∧ .running ∈ t.children := by
  have herr : (run (.sample ⟨[], [], by decide⟩) { script := resetInHandshake }).error = some (.io .other) := by
    decide +kernel
  have hlast : (run (.sample ⟨[], [], by decide⟩) { script := resetInHandshake }).state.trace.getLast? =
      some .sendFailed := by
    decide +kernel
  have hlost : (link.after (run (.sample ⟨[], [], by decide⟩) { script := resetInHandshake }).state.trace).lost =
      true := by
    decide +kernel
  have hrunning : .running ∈ (run (.sample ⟨[], [], by decide⟩) { script := resetInHandshake }).state.children := by
    decide +kernel
  have heq := Outcome.eq_of_error herr
  refine ⟨fun hhandled => ?_, _, _, heq, hrunning⟩
  have hexcused := hhandled.2 _ _ heq hlost
  rw [hlast] at hexcused
  cases hexcused

end Supervisor
end Jss
