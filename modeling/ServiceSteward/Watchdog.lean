import ServiceSteward.HeapDumps
/-!
# Watchdog — restarts for a missing ping response

`watch` follows the PINGs of the current JVM through a trace: those that no packet has followed yet, and the first one
since the last packet was processed.  The watchdog looks at the time of the last packet that was processed, not at what
has arrived.  So it restarts a JVM that answers in time if the answer is still unread or the PING was sent late
(`CaughtUp`), or if a heap dump has just ended and with it the extension of the limit (`CaughtUpAfterDump`).
-/
namespace Jss
namespace Supervisor

open Protocol (Packet ReceiveEvent PING)
open Scripted

def pingTimeout (sup : Supervisor) : Duration := Duration.fromSecs (sup.config.getU64 "wrapper.ping.timeout" 30)

def pingInterval (sup : Supervisor) : Duration :=
  Duration.fromSecs (max (sup.config.getU64 "wrapper.ping.interval" 5) 1)

structure PingWatch where
  /-- It has connected. -/
  connected : Bool := false
  /-- Those that no packet has followed yet. -/
  unanswered : List Instant := []
  /-- The first one since the last packet was processed. -/
  first : Option Instant := none
  deriving DecidableEq, Repr

def watch : Monitor PingWatch (Instant × Obs) where
  start := {}
  step m
    | (now, .sent code _) =>
      if code = PING then { m with unanswered := m.unanswered ++ [now], first := m.first.or (some now) } else m
    | (_, .delivered (.packet _)) => { m with unanswered := [] }
    | (_, .received (some (.packet _))) => { m with first := none }
    | (_, .connected) => { connected := true }
    | (_, .dropped _) => { connected := m.connected }
    | (_, .spawned _) => {}
    | _ => m

def Obs.checked : Obs → Option PingCheck
  | .pingCheck check => some check
  | _ => none

/-- A property of the checks of the watchdog. -/
def AtChecks (P : PingWatch → PingCheck → Prop) (m : PingWatch) (x : Instant × Obs) : Prop :=
  ∀ check ∈ x.2.checked, P m check

instance (P : PingWatch → PingCheck → Prop) [∀ m check, Decidable (P m check)] (m : PingWatch) (x : Instant × Obs) :
    Decidable (AtChecks P m x) := inferInstanceAs (Decidable (∀ check ∈ x.2.checked, P m check))

/-- **The claims**: the watchdog does not restart the JVM. -/
def NoPingRestart (_ : PingWatch) (check : PingCheck) : Prop := check.restarts = false

instance (m : PingWatch) (check : PingCheck) : Decidable (NoPingRestart m check) :=
  inferInstanceAs (Decidable (check.restarts = false))

/-- Every PING that no packet has followed is younger than `wrapper.ping.timeout`. -/
def AnsweredInTime (sup : Supervisor) (m : PingWatch) (check : PingCheck) : Prop :=
  ∀ sent ∈ m.unanswered, check.now < sent + pingTimeout sup

instance (sup : Supervisor) (m : PingWatch) (check : PingCheck) : Decidable (AnsweredInTime sup m check) :=
  inferInstanceAs (Decidable (∀ sent ∈ m.unanswered, _))

/-- ... or a heap dump was running not longer ago than that. -/
def AnsweredAfterDump (sup : Supervisor) (m : PingWatch) (check : PingCheck) : Prop :=
  ∀ sent ∈ m.unanswered, check.now < max sent (check.dumping.getD 0) + pingTimeout sup

instance (sup : Supervisor) (m : PingWatch) (check : PingCheck) : Decidable (AnsweredAfterDump sup m check) :=
  inferInstanceAs (Decidable (∀ sent ∈ m.unanswered, _))

/-- The JVM is watched, and more time than it may stay silent has passed since its last packet was processed. -/
def SilentTooLong (sup : Supervisor) (m : PingWatch) (check : PingCheck) : Prop :=
  0 < pingTimeout sup ∧ m.connected = true ∧ check.lastPingResponse + check.allowed < check.now

/-- If the watchdog finds the JVM silent, the supervisor has read all that has arrived, and has sent a PING in the
interval after the last packet. -/
def CaughtUp (sup : Supervisor) (m : PingWatch) (check : PingCheck) : Prop :=
  SilentTooLong sup m check → check.unread = [] ∧ ∃ sent ∈ m.first, sent ≤ check.lastPingResponse + pingInterval sup

/-- ... and no heap dump was running within the last `wrapper.ping.timeout`. -/
def CaughtUpAfterDump (sup : Supervisor) (m : PingWatch) (check : PingCheck) : Prop :=
  CaughtUp sup m check ∧ (SilentTooLong sup m check → ∀ dumping ∈ check.dumping, dumping + pingTimeout sup ≤ check.now)

/-! ## What the watchdog sees -/

/-- The first PING is still unanswered, or a packet is unread. -/
def Pending (m : PingWatch) (unread : List ReceiveEvent) : Prop :=
  ∀ sent, m.first = some sent → sent ∈ m.unanswered ∨ ∃ packet, .packet packet ∈ unread

def Truthful (sup : Supervisor) (m : PingWatch) (check : PingCheck) : Prop :=
  Pending m check.unread ∧ pingTimeout sup + pingInterval sup ≤ check.allowed ∧ (check.restarts = true ↔ SilentTooLong sup m check)

theorem pending_nil {m : PingWatch} (h : m.first = none) (unread : List ReceiveEvent) : Pending m unread := by
  intro sent hsent
  rw [h] at hsent
  cases hsent

theorem Pending.sent {m : PingWatch} {unread : List ReceiveEvent} (h : Pending m unread) (now : Instant) :
    Pending { m with unanswered := m.unanswered ++ [now], first := m.first.or (some now) } unread := by
  intro sent hsent
  cases hfirst : m.first with
  | none =>
    rw [hfirst] at hsent
    cases hsent
    exact .inl (List.mem_append_right _ List.mem_cons_self)
  | some first =>
    rw [hfirst] at hsent
    have heq : first = sent := Option.some.inj hsent
    subst heq
    rcases h first hfirst with hunanswered | hunread
    · exact .inl (List.mem_append_left _ hunanswered)
    · exact .inr hunread

theorem Pending.delivered {m : PingWatch} {unread : List ReceiveEvent} (h : Pending m unread) (now : Instant)
    (event : ReceiveEvent) : Pending (watch.step m (now, .delivered event)) (unread ++ [event]) := by
  intro sent hsent
  cases event with
  | packet packet => exact .inr ⟨packet, List.mem_append_right _ List.mem_cons_self⟩
  | disconnected =>
    rcases h sent hsent with hunanswered | ⟨packet, hunread⟩
    · exact .inl hunanswered
    · exact .inr ⟨packet, List.mem_append_left _ hunread⟩

theorem delivered_connected (m : PingWatch) (now : Instant) (event : ReceiveEvent) :
    (watch.step m (now, .delivered event)).connected = m.connected := by
  cases event with
  | _ => rfl

theorem received_connected (m : PingWatch) (now : Instant) (event : ReceiveEvent) :
    (watch.step m (now, .received (some event))).connected = m.connected := by
  cases event with
  | _ => rfl

theorem Pending.received {m : PingWatch} {event : ReceiveEvent} {rest : List ReceiveEvent}
    (h : Pending m (event :: rest)) (now : Instant) : Pending (watch.step m (now, .received (some event))) rest := by
  cases event with
  | packet packet => exact pending_nil rfl rest
  | disconnected =>
    intro sent hsent
    rcases h sent hsent with hunanswered | ⟨packet, hunread⟩
    · exact .inl hunanswered
    · rcases List.mem_cons.1 hunread with heq | hrest
      · cases heq
      · exact .inr ⟨packet, hrest⟩

/-- A supervisor that is caught up restarts a JVM only for a PING that is overdue. -/
theorem overdue_of_restarts {sup : Supervisor} {m : PingWatch} {check : PingCheck} (htruth : Truthful sup m check)
    (hcaught : CaughtUp sup m check) (hrestarts : check.restarts = true) :
    ∃ sent ∈ m.unanswered, sent + pingTimeout sup < check.now := by
  obtain ⟨hpending, hallowed, hsilent⟩ := htruth
  have hsilent := hsilent.1 hrestarts
  obtain ⟨hunread, sent, hfirst, hearly⟩ := hcaught hsilent
  rcases hpending sent hfirst with hunanswered | ⟨packet, hmem⟩
  · refine ⟨sent, hunanswered, ?_⟩
    have hlate := hsilent.2.2
    simp only [Instant, Duration] at *
    omega
  · rw [hunread] at hmem
    cases hmem

/-! ## The invariant -/

/-- While a JVM is supervised. -/
structure Watching (sup : Supervisor) (s : Sys) : Prop where
  truthful : watch.Always (AtChecks (Truthful sup)) s.timed
  pending : Pending (watch.after s.timed) (s.run.connection.getD [])
  connected : s.run.everConnected = (watch.after s.timed).connected
  timeout : s.run.pingTimeout = pingTimeout sup
  interval : s.run.pingInterval = pingInterval sup

/-- Between two JVMs. -/
def Watched (sup : Supervisor) (s : Sys) : Prop := watch.Always (AtChecks (Truthful sup)) s.timed

/-- A JVM is launched, and not yet supervised. -/
def WatchReady (sup : Supervisor) (s : Sys) : Prop := Watched sup s ∧ watch.after s.timed = {}

/-- An observation that is not about PINGs, packets or the connection. -/
def Obs.unwatched : Obs → Prop
  | .sent _ _ | .delivered _ | .received _ | .connected | .dropped _ | .spawned _ | .pingCheck _ => False
  | _ => True

variable {sup : Supervisor}

theorem unwatched_step {o : Obs} (h : o.unwatched) (now : Instant) (m : PingWatch) : watch.step m (now, o) = m := by
  cases o with
  | sent code message => exact h.elim
  | delivered event => exact h.elim
  | received event => exact h.elim
  | connected => exact h.elim
  | dropped unread => exact h.elim
  | spawned id => exact h.elim
  | _ => rfl

/-- Nothing is said of an observation that is no check. -/
theorem atChecks_of_ne {P : PingWatch → PingCheck → Prop} {m : PingWatch} {now : Instant} {o : Obs}
    (h : ∀ check, o ≠ .pingCheck check) : AtChecks P m (now, o) := by
  intro check hcheck
  cases o with
  | pingCheck check => exact absurd rfl (h check)
  | _ => cases hcheck

theorem Obs.unwatched.ne {o : Obs} (h : o.unwatched) (check : PingCheck) : o ≠ .pingCheck check := by
  rintro rfl
  exact h

theorem Obs.bland.unwatched {o : Obs} (h : o.bland) : o.unwatched := by
  cases o with
  | published kind => trivial
  | logged level source message => trivial
  | waited site status unread => trivial
  | logFailed => trivial
  | _ => exact h.elim

/-- **One more observation.** -/
theorem Watching.observe {s t : Sys} {x : Instant × Obs} (h : Watching sup s) (ht : t.timed = s.timed ++ [x])
    (hx : AtChecks (Truthful sup) (watch.after s.timed) x)
    (hpending : Pending (watch.step (watch.after s.timed) x) (t.run.connection.getD []))
    (hconnected : t.run.everConnected = (watch.step (watch.after s.timed) x).connected)
    (htimeout : t.run.pingTimeout = s.run.pingTimeout) (hinterval : t.run.pingInterval = s.run.pingInterval) :
    Watching sup t := by
  refine ⟨?_, ?_, ?_, htimeout.trans h.timeout, hinterval.trans h.interval⟩
  · rw [ht, Monitor.always_concat]
    exact ⟨h.truthful, hx⟩
  · rw [ht, Monitor.after_concat]
    exact hpending
  · rw [ht, Monitor.after_concat]
    exact hconnected

theorem Watching.note {s : Sys} {o : Obs} (h : Watching sup s) (ho : o.unwatched) : Watching sup (s.note o) := by
  refine h.observe rfl (atChecks_of_ne ho.ne) ?_ ?_ rfl rfl
  · rw [unwatched_step ho]
    exact h.pending
  · rw [unwatched_step ho]
    exact h.connected

theorem Watching.same {s t : Sys} (h : Watching sup s) (ht : t.timed = s.timed)
    (hc : t.run.connection = s.run.connection) (hever : t.run.everConnected = s.run.everConnected)
    (htimeout : t.run.pingTimeout = s.run.pingTimeout) (hinterval : t.run.pingInterval = s.run.pingInterval) :
    Watching sup t := by
  refine ⟨?_, ?_, ?_, htimeout.trans h.timeout, hinterval.trans h.interval⟩
  · rw [ht]
    exact h.truthful
  · rw [ht, hc]
    exact h.pending
  · rw [ht, hever]
    exact h.connected

theorem watching_move (s : Sys) (m : Move) (h : Watching sup s) : Watching sup (s.move m) := by
  cases m with
  | deliver event =>
    have hpending := h.pending
    simp only [Sys.move]
    cases hc : s.run.connection with
    | none => exact h
    | some unread =>
      rw [hc] at hpending
      refine h.observe rfl (atChecks_of_ne (by simp)) (hpending.delivered s.clock event) ?_ rfl rfl
      exact h.connected.trans (delivered_connected _ _ _).symm
  | output line => simp only [Sys.move]; split <;> exact h.same rfl rfl rfl rfl rfl
  | exit code => simp only [Sys.move]; split <;> exact h.same rfl rfl rfl rfl rfl
  | dumped worker result => simp only [Sys.move]; split <;> exact h.same rfl rfl rfl rfl rfl
  | _ => exact h.same rfl rfl rfl rfl rfl

theorem Watching.check {s : Sys} (h : Watching sup s) (now : Instant) :
    Watching sup (s.note (.pingCheck (s.pingCheck now))) := by
  refine h.observe rfl (fun check hcheck => ?_) h.pending h.connected rfl rfl
  cases hcheck
  refine ⟨h.pending, ?_, ?_⟩
  · have hallowed : (s.pingCheck now).allowed = allowedSilence s.run := rfl
    rw [hallowed, allowedSilence, h.timeout, h.interval]
    exact Nat.le_add_right _ _
  · change pingOverdue s.run now = true ↔ SilentTooLong sup (watch.after s.timed) (s.pingCheck now)
    unfold pingOverdue SilentTooLong Sys.pingCheck
    simp only [Bool.and_eq_true, decide_eq_true_eq, h.timeout, h.connected, Instant, Duration]
    constructor
    · rintro ⟨⟨hon, hconnected⟩, hlong⟩
      exact ⟨hon, hconnected, by omega⟩
    · rintro ⟨hon, hconnected, hlong⟩
      exact ⟨⟨hon, hconnected⟩, by omega⟩

theorem Watching.sent {s : Sys} (h : Watching sup s) (code : UInt8) (message : Text) :
    Watching sup (s.note (.sent code message)) := by
  by_cases hcode : code = PING
  · have hstep : ∀ m, watch.step m (s.clock, .sent code message) =
        { m with unanswered := m.unanswered ++ [s.clock], first := m.first.or (some s.clock) } := fun m => by
      simp only [watch, if_pos hcode]
    refine h.observe rfl (atChecks_of_ne (by simp)) ?_ ?_ rfl rfl
    · rw [hstep]
      exact h.pending.sent s.clock
    · rw [hstep]
      exact h.connected
  · have hstep : ∀ m, watch.step m (s.clock, .sent code message) = m := fun m => by simp only [watch, if_neg hcode]
    refine h.observe rfl (atChecks_of_ne (by simp)) ?_ ?_ rfl rfl
    · rw [hstep]
      exact h.pending
    · rw [hstep]
      exact h.connected

theorem Watching.deliveries : ∀ (events unread : List ReceiveEvent) {s t : Sys}, Watching sup s →
    s.run.connection = some unread → t.timed = s.timed ++ events.map (fun event => (s.clock, .delivered event)) →
    t.run.connection = some (unread ++ events) → t.run.everConnected = s.run.everConnected →
    t.run.pingTimeout = s.run.pingTimeout → t.run.pingInterval = s.run.pingInterval → Watching sup t
  | [], unread, s, t, h, hc, ht, hct, hever, htimeout, hinterval =>
    h.same (by rw [ht, List.map_nil, List.append_nil]) (by rw [hct, hc, List.append_nil]) hever htimeout hinterval
  | event :: events, unread, s, t, h, hc, ht, hct, hever, htimeout, hinterval => by
    have hmove : s.move (.deliver event) =
        { s with
          run := { s.run with connection := some (unread ++ [event]) }
          trace := s.trace ++ [.delivered event]
          timed := s.timed ++ [(s.clock, .delivered event)]
          moments := s.moments ++ [(s.run, .delivered event)] } := by
      simp only [Sys.move, hc]
    have hone := watching_move s (.deliver event) h
    rw [hmove] at hone
    refine Watching.deliveries events (unread ++ [event]) hone rfl ?_ ?_ hever htimeout hinterval
    · rw [ht, List.map_cons, List.append_cons]
    · rw [hct, List.append_cons]

theorem Watching.join {s : Sys} (h : Watching sup s) (events : List ReceiveEvent) (now : Instant) :
    Watching sup (s.join events now) := by
  have hconnected : Watching sup
      { s.note .connected with run := { s.run with everConnected := true, connection := some [] } } :=
    h.observe (x := (s.clock, .connected)) rfl (atChecks_of_ne (by simp)) (pending_nil rfl _) rfl rfl rfl
  exact hconnected.deliveries events [] rfl (by simp [Sys.join, Sys.note]) rfl rfl rfl rfl

instance : Kept (Preserves (Watching sup)) where
  same hst h := h.same hst.timed hst.run.connection hst.run.everConnected hst.run.pingTimeout hst.run.pingInterval
  move := watching_move
  note _ _ ho h := h.note ho.unwatched
  sent _ code message h := h.sent code message
  sendFailed _ h := h.note trivial
  drop _ unread _ h := h.observe (x := (_, .dropped unread)) rfl (atChecks_of_ne (by simp)) (pending_nil rfl _) h.connected rfl rfl
  killed _ h := h.note trivial
  reaped _ h := h.note trivial
  reap _ _ _ h := h.same rfl rfl rfl rfl rfl
  worker _ _ h := h.same rfl rfl rfl rfl rfl
  task _ _ h := h.same rfl rfl rfl rfl rfl
  dumping _ _ _ h := h.note trivial
  nextPing _ _ h := h.same rfl rfl rfl rfl rfl
  answered _ _ h := h.same rfl rfl rfl rfl rfl
  check _ now h := h.check now
  took _ _ _ _ _ h := h.note trivial
  recorded _ _ h := h.note trivial
  published _ _ h := h.note trivial
  waited _ _ _ _ h := h.note trivial
  batch _ _ h := h.note trivial
  held _ _ h := h.same rfl rfl rfl rfl rfl
  join _ events now _ h := h.join events now

/-! ## Runs -/

theorem Watching.selected {s t : Sys} {arm : Arm} (h : Watching sup s) (hsel : Selected s arm t) : Watching sup t := by
  have hpending := h.pending
  cases hsel with
  | line line rest _ => exact h.note (o := .took .select [line]) trivial |>.same rfl rfl rfl rfl rfl
  | outputClosed => exact h
  | control c rest _ => exact h.note (o := .control .eventLoop (some c)) trivial |>.same rfl rfl rfl rfl rfl
  | controlsClosed => exact h.note trivial
  | event event rest hc =>
    rw [hc] at hpending
    exact h.observe (x := (s.clock, .received (some event))) rfl (atChecks_of_ne (by simp)) (hpending.received s.clock)
      (h.connected.trans (received_connected _ _ _).symm) rfl rfl
  | channelClosed _ => exact h.observe (x := (s.clock, .received none)) rfl (atChecks_of_ne (by simp)) hpending h.connected rfl rfl
  | tick next => exact h.same rfl rfl rfl rfl rfl

theorem Watching.eventLoop {s : Sys} (h : Watching sup s) :
    (eventLoop sup s).All (fun _ => Watched sup) (fun _ => Watched sup) (Watched sup) := by
  refine (all_eventLoop_of (R := Preserves (Watching sup)) (I := Watching sup) (D := fun _ _ => True)
    (fun _ _ h hst => hst h) (fun _ _ _ h hsel => h.selected hsel) (turn_serve_kept sup) s h).mono ?_ ?_ ?_
  · exact fun _ t ht => ht.1.truthful
  · exact fun _ t ht => ht.truthful
  · exact fun t ht => ht.truthful

section Between

theorem Watched.note {s t : Sys} {o : Obs} (h : Watched sup s) (ht : t.timed = s.timed ++ [(s.clock, o)])
    (ho : ∀ check, o ≠ .pingCheck check) : Watched sup t := by
  unfold Watched
  rw [ht, Monitor.always_concat]
  exact ⟨h, atChecks_of_ne ho⟩

theorem WatchReady.note {s t : Sys} {o : Obs} (h : WatchReady sup s) (ht : t.timed = s.timed ++ [(s.clock, o)])
    (ho : ∀ check, o ≠ .pingCheck check) (hstep : watch.step {} (s.clock, o) = {}) : WatchReady sup t := by
  refine ⟨h.1.note ht ho, ?_⟩
  rw [ht, Monitor.after_concat, h.2, hstep]

theorem Watched.same {s t : Sys} (h : Watched sup s) (ht : t.timed = s.timed) : Watched sup t := by
  unfold Watched
  rw [ht]
  exact h

theorem WatchReady.same {s t : Sys} (h : WatchReady sup s) (ht : t.timed = s.timed) : WatchReady sup t :=
  ⟨h.1.same ht, by rw [ht]; exact h.2⟩

theorem move_timed (s : Sys) (m : Move) :
    (s.move m).timed = s.timed ∨ ∃ event, (s.move m).timed = s.timed ++ [(s.clock, .delivered event)] := by
  cases m with
  | deliver event =>
    simp only [Sys.move]
    split
    · exact .inl rfl
    · exact .inr ⟨event, rfl⟩
  | output line => simp only [Sys.move]; split <;> exact .inl rfl
  | exit code => simp only [Sys.move]; split <;> exact .inl rfl
  | dumped worker result => simp only [Sys.move]; split <;> exact .inl rfl
  | _ => exact .inl rfl

theorem delivered_step (now : Instant) (event : ReceiveEvent) : watch.step {} (now, .delivered event) = {} := by
  cases event with
  | _ => rfl

instance : Killing (Preserves (Watched sup)) where
  same hst h := h.same hst.timed
  move s m h := by
    rcases move_timed s m with ht | ⟨event, ht⟩
    · exact h.same ht
    · exact h.note ht (by simp)
  note _ _ ho h := h.note rfl ho.unwatched.ne
  killed _ h := h.note rfl (by simp)
  reaped _ h := h.note rfl (by simp)
  reap _ _ _ h := h.same rfl

instance : Killing (Preserves (WatchReady sup)) where
  same hst h := h.same hst.timed
  move s m h := by
    rcases move_timed s m with ht | ⟨event, ht⟩
    · exact h.same ht
    · exact h.note ht (by simp) (delivered_step _ event)
  note _ _ ho h := h.note rfl ho.unwatched.ne (unwatched_step ho.unwatched _ _)
  killed _ h := h.note rfl (by simp) rfl
  reaped _ h := h.note rfl (by simp) rfl
  reap _ _ _ h := h.same rfl

end Between

theorem Watched.runOnce (jvmId : Nat) (resuming : Bool) {s : Sys} (h : Watched sup s) :
    (runOnce sup jvmId resuming s).All (fun _ => Watched sup) (fun _ => Watched sup) (Watched sup) := by
  have hbefore : Carried (Both (Preserves (Watched sup)) (Preserves (WatchReady sup))) (Watched sup) (Watched sup)
      (Watched sup) := ⟨fun _ _ h hst => hst.1 h, fun _ h => h, fun _ h => h⟩
  have hafter : Carried (Both (Preserves (Watched sup)) (Preserves (WatchReady sup))) (WatchReady sup) (Watched sup)
      (Watched sup) := ⟨fun _ _ h hst => hst.2 h, fun _ h => h.1, fun _ h => h.1⟩
  refine all_runOnce (I := Watched sup) (J := WatchReady sup) (K := Watched sup) hbefore hafter hbefore
    (fun t h => h.same rfl) (fun t h => ⟨h.note (o := .spawned jvmId) rfl (by simp), ?_⟩)
    (fun t h => h.note (o := .spawnFailed jvmId) rfl (by simp)) (fun _ _ h => h)
    (fun t command key pid launchedAt now ht => ?_) s h
  · have htimed : (t.spawn jvmId).timed = t.timed ++ [(t.clock, .spawned jvmId)] := rfl
    rw [htimed, Monitor.after_concat]
    rfl
  · have hstart : Watching sup { t with run := .launched sup jvmId resuming command key pid launchedAt now } :=
      ⟨ht.1, pending_nil (by rw [ht.2]) _, by rw [ht.2]; rfl, rfl, rfl⟩
    exact hstart.eventLoop.mono (fun _ _ hu => hu.same rfl) (fun _ _ hu => hu) (fun _ hu => hu)

/-- **Every check of every run tells the truth.** -/
theorem run_watched (sup : Supervisor) (script : List Answer) : Watched sup (run sup { script }).state := by
  have hlaws : (Phases.every (Watched sup)).Laws sup (Preserves (Watched sup)) (fun _ => Watched sup) (Watched sup)
      (Watched sup) :=
    Phases.every_laws (fun _ h => h) (fun _ h => h)
      (preserves_heard (fun _ _ h => h.same rfl)
        (fun _ o ho h => h.note rfl (fun check heq => by subst heq; cases ho)))
      (fun _ o ho _ h => h.note rfl (fun check heq => by subst heq; cases ho))
      (fun jvmId resuming _ h => h.runOnce jvmId resuming)
  have hstart : Watched sup { script } := Monitor.always_nil
  exact (hlaws.run hstart).state (fun _ _ h => h) (fun _ _ h => h) (fun _ h => h)

/-- **A JVM that answers in time is not restarted** in a run exactly when the supervisor is caught up at each check that
finds the JVM silent. -/
theorem answering_jvm_is_not_restarted_iff (sup : Supervisor) (script : List Answer)
    (hanswered : watch.Always (AtChecks (AnsweredInTime sup)) (run sup { script }).state.timed) :
    watch.Always (AtChecks NoPingRestart) (run sup { script }).state.timed ↔
      watch.Always (AtChecks (CaughtUp sup)) (run sup { script }).state.timed := by
  constructor
  · intro hkept before x rest heq check hcheck hsilent
    have htruth := run_watched sup script before x rest heq check hcheck
    have hrestarts := htruth.2.2.2 hsilent
    rw [hkept before x rest heq check hcheck] at hrestarts
    cases hrestarts
  · intro hcaught before x rest heq check hcheck
    have htruth := run_watched sup script before x rest heq check hcheck
    have hanswered := hanswered before x rest heq check hcheck
    have hcaught := hcaught before x rest heq check hcheck
    by_contra hrestarts
    obtain ⟨sent, hmem, hover⟩ := overdue_of_restarts htruth hcaught (by simpa [NoPingRestart] using hrestarts)
    have hyoung := hanswered sent hmem
    simp only [Instant, Duration] at *
    omega

/-- A short ping timeout, and thread dumps by jcmd. -/
def quickWatchdog : Config :=
  ⟨[("jss.threaddump.method".toList, "JCMD".toList), ("wrapper.ping.timeout".toList, "10".toList)], [], by decide⟩

def answersPing : List Answer :=
  quiet 4 ++ connected ++ [{ moves := [.elapse (Duration.fromSecs 5)] }] ++ quiet 3 ++
    [{ moves := [.deliver (.packet ⟨PING, []⟩)], source := .protocol }] ++ quiet 1 ++
    [{ moves := [.elapse (Duration.fromSecs 5)] }] ++ quiet 3

theorem answered_ping_is_seen : watch.Always (AtChecks (CaughtUp (.sample quickWatchdog)))
    (run (.sample quickWatchdog) { script := answersPing }).state.timed := by
  have hkept : watch.Always (AtChecks (AnsweredInTime (.sample quickWatchdog)))
        (run (.sample quickWatchdog) { script := answersPing }).state.timed ∧
      watch.Always (AtChecks NoPingRestart) (run (.sample quickWatchdog) { script := answersPing }).state.timed := by
    decide +kernel
  exact (answering_jvm_is_not_restarted_iff _ _ hkept.1).1 hkept.2

/-- The connection goes down, or a heap dump is requested. -/
def Obs.disturbs : Obs → Bool
  | .dropped _ | .published (.heapDumpStarted _ _ _) => true
  | _ => false

/-- The answer to the first PING arrives while a thread dump is taken for 20 seconds, and the tick comes first. -/
def answerUnread : List Answer :=
  quiet 4 ++ connected ++ [{ moves := [.elapse (Duration.fromSecs 5)] }] ++ quiet 3 ++
    [{ moves := [.control .threadDump], source := .controls }] ++ quiet 2 ++
    [{ moves := [.deliver (.packet ⟨PING, []⟩), .elapse (Duration.fromSecs 20)] }] ++ quiet 4 ++
    [{ moves := [.deliver (.packet ⟨PING, []⟩)] }]

theorem unread_answer_restarts :
    watch.Always (AtChecks (AnsweredInTime (.sample quickWatchdog)))
      (run (.sample quickWatchdog) { script := answerUnread }).state.timed ∧
    (watch.after (run (.sample quickWatchdog) { script := answerUnread }).state.timed).unanswered = [] ∧
    (∀ x ∈ (run (.sample quickWatchdog) { script := answerUnread }).state.timed, x.2.disturbs = false) ∧
    ¬ watch.Always (AtChecks NoPingRestart) (run (.sample quickWatchdog) { script := answerUnread }).state.timed := by
  decide +kernel

/-- **... also with heap dumps**, where none was running within the last `wrapper.ping.timeout` then. -/
theorem dumping_jvm_is_not_restarted_iff (sup : Supervisor) (script : List Answer)
    (hanswered : watch.Always (AtChecks (AnsweredAfterDump sup)) (run sup { script }).state.timed) :
    watch.Always (AtChecks NoPingRestart) (run sup { script }).state.timed ↔
      watch.Always (AtChecks (CaughtUpAfterDump sup)) (run sup { script }).state.timed := by
  constructor
  · intro hkept before x rest heq check hcheck
    have htruth := run_watched sup script before x rest heq check hcheck
    have hloud : ¬ SilentTooLong sup (watch.after before) check := by
      intro hsilent
      have hrestarts := htruth.2.2.2 hsilent
      rw [hkept before x rest heq check hcheck] at hrestarts
      cases hrestarts
    exact ⟨fun hsilent => absurd hsilent hloud, fun hsilent => absurd hsilent hloud⟩
  · intro hcaught before x rest heq check hcheck
    have htruth := run_watched sup script before x rest heq check hcheck
    have hanswered := hanswered before x rest heq check hcheck
    obtain ⟨hcaught, hdumped⟩ := hcaught before x rest heq check hcheck
    by_contra hrestarts
    have hrestarts : check.restarts = true := by simpa [NoPingRestart] using hrestarts
    obtain ⟨sent, hmem, hover⟩ := overdue_of_restarts htruth hcaught hrestarts
    have hyoung := hanswered sent hmem
    cases hdumping : check.dumping with
    | none =>
      rw [hdumping] at hyoung
      simp only [Option.getD_none, Instant, Duration] at *
      omega
    | some dumping =>
      have hlong := hdumped (htruth.2.2.1 hrestarts) dumping hdumping
      rw [hdumping] at hyoung
      simp only [Option.getD_some, Instant, Duration] at *
      omega

/-- A JVM that answers before its dump has ended, and this is heard. -/
def answersDuringDump : List Answer :=
  quiet 4 ++ connected ++ dumpRequested "a.hprof" ++ [{ moves := [.elapse (Duration.fromSecs 5)] }] ++ quiet 4 ++
    [{ moves := [.elapse (Duration.fromSecs 95), .deliver (.packet ⟨PING, []⟩)], source := .protocol }] ++ quiet 1 ++
    [{ moves := [.dumped 0 (.ok 10)] }] ++ quiet 5

theorem dump_with_an_answer_is_survived :
    watch.Always (AtChecks (CaughtUpAfterDump (.sample ⟨[], [], by decide⟩)))
      (run (.sample ⟨[], [], by decide⟩) { script := answersDuringDump }).state.timed := by
  have hkept : watch.Always (AtChecks (AnsweredAfterDump (.sample ⟨[], [], by decide⟩)))
        (run (.sample ⟨[], [], by decide⟩) { script := answersDuringDump }).state.timed ∧
      watch.Always (AtChecks NoPingRestart)
        (run (.sample ⟨[], [], by decide⟩) { script := answersDuringDump }).state.timed := by
    decide +kernel
  exact (dumping_jvm_is_not_restarted_iff _ _ hkept.1).1 hkept.2

/-- A JVM that does not answer during a heap dump of 95 seconds, and answers right after it. -/
def dumpJustEnded : List Answer :=
  quiet 4 ++ connected ++ dumpRequested "a.hprof" ++ [{ moves := [.elapse (Duration.fromSecs 5)] }] ++ quiet 4 ++
    [{ moves := [.elapse (Duration.fromSecs 95), .dumped 0 (.ok 10)] }] ++ quiet 5 ++
    [{ moves := [.deliver (.packet ⟨PING, []⟩)] }]

theorem ended_dump_restarts :
    watch.Always (AtChecks (AnsweredAfterDump (.sample ⟨[], [], by decide⟩)))
      (run (.sample ⟨[], [], by decide⟩) { script := dumpJustEnded }).state.timed ∧
    (watch.after (run (.sample ⟨[], [], by decide⟩) { script := dumpJustEnded }).state.timed).unanswered = [] ∧
    ¬ watch.Always (AtChecks NoPingRestart)
      (run (.sample ⟨[], [], by decide⟩) { script := dumpJustEnded }).state.timed := by
  decide +kernel

end Supervisor
end Jss
