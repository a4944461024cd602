import Mathlib
import ServiceSteward.Lifecycle
/-!
# Requests — what the application asked for, and what became of it

A `STOP` or `RESTART` packet is a request.  The connection's queue is a function of the trace (`pending`), so the first
request that was delivered in time is either still pending, or was taken up, or was discarded with the queue.  `Waits`
is the invariant of the first; a request that is taken up is granted.
-/
namespace Jss
namespace Supervisor

open Protocol (Packet ReceiveEvent STARTED START_PENDING STOP RESTART)
open Scripted

inductive Request where
  | stop (code : Int)
  | restart
  deriving DecidableEq, Repr

/-- What an event of the connection asks for. -/
def request : ReceiveEvent → Option Request
  | .packet packet =>
    if packet.code = RESTART then some .restart
    else if packet.code = STOP then some (.stop (stopCode packet.message))
    else none
  | .disconnected => none

def Grants : Request → RunOutcome → Prop
  | .stop code, o => ∃ elapsed, o = .exited elapsed code
  | .restart, o => ∃ elapsed, o = .restart elapsed false 0

def firstRequest (events : List ReceiveEvent) : Option Request := events.findSome? request

/-! ## The queue -/

/-- The events of the connection's queue after an observation. -/
def Obs.queue (queue : List ReceiveEvent) : Obs → List ReceiveEvent
  | .delivered event => queue ++ [event]
  | .received (some _) => queue.tail
  | .connected | .dropped _ => []
  | _ => queue

/-- The events that are delivered and not yet read. -/
def pending (trace : List Obs) : List ReceiveEvent := trace.foldl Obs.queue []

/-- The supervisor observes that the child has exited. -/
def Obs.exits : Obs → Bool
  | .waited _ (some _) _ | .reaped => true
  | _ => false

/-- The queue's unread events are not read any more. -/
def Obs.discards : Obs → Bool
  | .dropped _ => true
  | o => o.exits

def Obs.deliveredEvent : Obs → Option ReceiveEvent
  | .delivered event => some event
  | _ => none

/-- The first request delivered before the exit was observed. -/
def requested (trace : List Obs) : Option Request :=
  firstRequest ((trace.takeWhile (fun o => !o.exits)).filterMap Obs.deliveredEvent)

/-- A request was taken up. -/
def TakenUp (trace : List Obs) : Prop := ∃ event, .received (some event) ∈ trace ∧ request event ≠ none

/-- **No request is discarded**: where the exit is observed or the connection dropped, none is pending, unless one is
being carried out. -/
def NoneDiscarded (trace : List Obs) : Prop :=
  ∀ before o after, trace = before ++ o :: after → o.discards = true → ¬ TakenUp before →
    firstRequest (pending before) = none

theorem discards_of_exits {o : Obs} (h : o.exits = true) : o.discards = true := by
  cases o with
  | dropped unread => rfl
  | _ => exact h

theorem dropped_of_discards {o : Obs} (h : o.discards = true) (he : o.exits = false) :
    ∃ unread, o = .dropped unread := by
  cases o with
  | dropped unread => exact ⟨unread, rfl⟩
  | _ => exact absurd (he.symm.trans h) (by decide)

theorem pending_append (a : List Obs) (o : Obs) : pending (a ++ [o]) = o.queue (pending a) := by
  unfold pending
  rw [List.foldl_append]
  rfl

theorem firstRequest_append (a b : List ReceiveEvent) :
    firstRequest (a ++ b) = (firstRequest a).or (firstRequest b) := List.findSome?_append

theorem NoneDiscarded.earlier {a b : List Obs} (h : NoneDiscarded (a ++ b)) : NoneDiscarded a :=
  fun before o after heq => h before o (after ++ b) (by rw [heq, List.append_assoc]; rfl)

theorem requested_of_exit {a : List Obs} (b : List Obs) (h : ∃ o ∈ a, o.exits = true) :
    requested (a ++ b) = requested a := by
  obtain ⟨o, ho, hexits⟩ := h
  unfold requested
  rw [List.takeWhile_append, if_neg]
  intro hlen
  have hall := List.takeWhile_prefix (fun o => !o.exits) (l := a) |>.eq_of_length hlen
  rw [← hall] at ho
  have := List.mem_takeWhile_imp ho
  rw [hexits] at this
  cases this

theorem requested_of_none {a : List Obs} (b : List Obs) (h : ∀ o ∈ a, o.exits = false) :
    requested (a ++ b) = (requested a).or (requested b) := by
  have hall : ∀ o ∈ a, (!o.exits) = true := fun o ho => by rw [h o ho]; rfl
  unfold requested
  rw [List.takeWhile_append_of_pos hall, List.takeWhile_eq_self_iff.2 hall, List.filterMap_append, firstRequest_append]

theorem requested_stays {a : List Obs} {r : Request} (b : List Obs) (h : requested a = some r) :
    requested (a ++ b) = some r := by
  by_cases hexit : ∃ o ∈ a, o.exits = true
  · rw [requested_of_exit b hexit, h]
  · rw [requested_of_none b (fun o ho => by simpa using fun he => hexit ⟨o, ho, he⟩), h]
    rfl

/-! ## Requests that wait -/

/-- The child was seen exited, or waited for. -/
def ExitSeen (s : Sys) : Prop := ∃ o ∈ s.trace, o.exits = true

/-- **No request was taken up yet**: the queue is what the connection holds, and the first request delivered in time is
the first one pending there, or there was none when the exit was observed. -/
structure Waits (s : Sys) : Prop where
  queue : pending s.trace = s.run.connection.getD []
  waiting : ¬ TakenUp s.trace
  first : NoneDiscarded s.trace →
    (ExitSeen s ∧ requested s.trace = none) ∨ (¬ ExitSeen s ∧ requested s.trace = firstRequest (pending s.trace))

theorem requested_one (o : Obs) (h : o.exits = false) : requested [o] = firstRequest o.deliveredEvent.toList := by
  unfold requested
  rw [List.takeWhile_cons_of_pos (by rw [h]; rfl)]
  cases o with
  | delivered event => rfl
  | _ => rfl

theorem takenUp_append {a : List Obs} {o : Obs} (ho : ∀ event, o = .received (some event) → request event = none)
    (h : TakenUp (a ++ [o])) : TakenUp a := by
  obtain ⟨event, hmem, hrequest⟩ := h
  rcases List.mem_append.1 hmem with hmem | hmem
  · exact ⟨event, hmem, hrequest⟩
  · exact absurd (ho event (List.mem_singleton.1 hmem).symm) hrequest

/-- **One observation** that takes up no request, and is about the queue what the connection is. -/
theorem Waits.note {s t : Sys} {o : Obs} (h : Waits s) (ht : t.trace = s.trace ++ [o])
    (hconnection : o.queue (s.run.connection.getD []) = t.run.connection.getD [])
    (hidle : ∀ event, o = .received (some event) → request event = none)
    (hqueue : o.discards = false → firstRequest (o.queue (pending s.trace)) =
      (firstRequest (pending s.trace)).or (firstRequest o.deliveredEvent.toList)) : Waits t where
  queue := by rw [ht, pending_append, h.queue, hconnection]
  waiting := by
    rw [ht]
    exact fun htaken => h.waiting (takenUp_append hidle htaken)
  first := by
    rw [ht]
    intro hnone
    rcases h.first hnone.earlier with ⟨⟨x, hx, hexits⟩, hrequested⟩ | ⟨hseen, hrequested⟩
    · refine .inl ⟨⟨x, by rw [ht]; exact List.mem_append_left _ hx, hexits⟩, ?_⟩
      rw [requested_of_exit _ ⟨x, hx, hexits⟩, hrequested]
    have hquiet : ∀ x ∈ s.trace, x.exits = false := fun x hx => by simpa using fun he => hseen ⟨x, hx, he⟩
    have hdiscards : o.discards = true → firstRequest (pending s.trace) = none := fun hd =>
      hnone s.trace o [] rfl hd h.waiting
    by_cases hexits : o.exits = true
    · -- the exit is observed now, and nothing is pending
      have hempty := hdiscards (discards_of_exits hexits)
      refine .inl ⟨⟨o, by rw [ht]; simp, hexits⟩, ?_⟩
      rw [requested_of_none _ hquiet, hrequested, hempty]
      unfold requested
      rw [List.takeWhile_cons_of_neg (by rw [hexits]; decide)]
      rfl
    · rw [Bool.not_eq_true] at hexits
      refine .inr ⟨?_, ?_⟩
      · rintro ⟨x, hx, he⟩
        rw [ht] at hx
        rcases List.mem_append.1 hx with hx | hx
        · exact hseen ⟨x, hx, he⟩
        · rw [List.mem_singleton.1 hx, hexits] at he
          cases he
      rw [requested_of_none _ hquiet, hrequested, requested_one o hexits, pending_append]
      by_cases hd : o.discards = true
      · -- the connection is dropped, and nothing is pending
        obtain ⟨unread, rfl⟩ := dropped_of_discards hd hexits
        rw [hdiscards hd]
        rfl
      · exact (hqueue (by simpa using hd)).symm

theorem Waits.same {s t : Sys} (h : Waits s) (ht : t.trace = s.trace) (hc : t.run.connection = s.run.connection) :
    Waits t := by
  obtain ⟨h1, h2, h3⟩ := h
  refine ⟨by rw [ht, hc, h1], by rw [ht]; exact h2, ?_⟩
  unfold ExitSeen at h3 ⊢
  rw [ht]
  exact h3

/-- An observation that has nothing to do with the queue. -/
theorem Waits.idle {s t : Sys} {o : Obs} (h : Waits s) (ht : t.trace = s.trace ++ [o])
    (hc : t.run.connection = s.run.connection) (hqueue : ∀ queue, o.queue queue = queue)
    (hdelivered : o.deliveredEvent = none) (hidle : ∀ event, o = .received (some event) → request event = none) :
    Waits t := by
  refine h.note ht ?_ hidle (fun _ => ?_)
  · rw [hqueue, hc]
  · rw [hqueue, hdelivered]
    exact (Option.or_none).symm

theorem plain_idle {o : Obs} (h : o.plain) : (∀ queue, o.queue queue = queue) ∧ o.deliveredEvent = none ∧
    ∀ event, o = .received (some event) → request event = none := by
  cases o with
  | delivered event => exact h.elim
  | received event => exact h.elim
  | connected => exact h.elim
  | dropped unread => exact h.elim
  | _ => exact ⟨fun _ => rfl, rfl, by simp⟩

instance : Frame (Preserves Waits) where
  same ht _ hc _ h := h.same ht hc
  move s m h := by
    cases m with
    | deliver event =>
      simp only [Sys.move]
      cases hc : s.run.connection with
      | none => exact h
      | some unread =>
        refine h.note (o := .delivered event) rfl ?_ (by simp) (fun _ => firstRequest_append _ _)
        rw [hc]
        rfl
    | output line => simp only [Sys.move]; split <;> exact h.same rfl rfl
    | exit code => simp only [Sys.move]; split <;> exact h.same rfl rfl
    | dumped worker result => simp only [Sys.move]; split <;> exact h.same rfl rfl
    | _ => exact h.same rfl rfl
  note s o ho h := by
    obtain ⟨hqueue, hdelivered, hidle⟩ := plain_idle ho
    exact h.idle rfl rfl hqueue hdelivered hidle
  drop s unread hc h := h.note (o := .dropped unread) rfl rfl (by simp) (by simp [Obs.discards])
  reap _ _ _ h := h.same rfl rfl

instance : Draining (Preserves Waits) where
  took _ _ _ _ _ h := h.idle rfl rfl (fun _ => rfl) rfl (by simp)
  recorded _ _ h := h.idle rfl rfl (fun _ => rfl) rfl (by simp)

/-! ## Turns -/

def Obs.any (_ : Obs) : Prop := True

instance : Quiet Obs.any := ⟨fun _ _ => trivial, fun _ => trivial, fun _ => trivial⟩

instance : Draining (Emits Obs.any) where
  took _ _ _ _ _ := emits_one rfl trivial
  recorded _ _ := emits_one rfl trivial

/-- The trace grows, and the requests that wait are accounted for. -/
abbrev Accounts : Sys → Sys → Prop := Both (Emits Obs.any) (Preserves Waits)

theorem ExitSeen.after {s t : Sys} (h : ExitSeen s) (hst : Emits Obs.any s t) : ExitSeen t := by
  obtain ⟨o, ho, hexits⟩ := h
  obtain ⟨new, htrace, -⟩ := hst
  exact ⟨o, by rw [htrace]; exact List.mem_append_left new ho, hexits⟩

theorem lasting_exitSeen : Lasting (Emits Obs.any) ExitSeen where
  stable _ _ h hs := hs.after h
  seen site s := by
    refine (tryWait_spec (R := Emits Obs.any) site s).mono (fun r t ht hr => ?_) (fun _ _ _ => trivial)
      (fun _ _ => trivial)
    obtain ⟨u, -, rfl, -⟩ := ht
    cases r with
    | none => exact absurd rfl hr
    | some code => exact ⟨_, List.mem_append_right _ (List.mem_singleton.2 rfl), rfl⟩
  waited s := by
    unfold wait
    rw [all_bind]
    refine (attemptOutside s).all_true.mono (fun _ t _ => ?_) (fun _ _ h => h) (fun _ h => h)
    exact ⟨.reaped, List.mem_append_right _ (List.mem_singleton.2 rfl), rfl⟩

theorem lasting_accounts : Lasting Accounts ExitSeen :=
  ⟨fun _ _ h hs => hs.after h.1, lasting_exitSeen.seen, lasting_exitSeen.waited⟩

theorem accounts_idle {s t : Sys} {o : Obs} (ht : t.trace = s.trace ++ [o])
    (hc : t.run.connection = s.run.connection) (hqueue : ∀ queue, o.queue queue = queue)
    (hdelivered : o.deliveredEvent = none) (hidle : ∀ event, o ≠ .received event) : Accounts s t :=
  ⟨emits_one ht trivial, fun h => h.idle ht hc hqueue hdelivered (fun _ he => absurd he (hidle _))⟩

theorem Waits.delivered : ∀ (events queue : List ReceiveEvent) {s t : Sys}, Waits s → s.run.connection = some queue →
    t.trace = s.trace ++ events.map .delivered → t.run.connection = some (queue ++ events) → Waits t
  | [], queue, s, t, h, hc, ht, hc' => h.same (by simpa using ht) (by rw [hc, hc', List.append_nil])
  | event :: events, queue, s, t, h, hc, ht, hc' => by
    have hone : Waits { s with
        trace := s.trace ++ [.delivered event]
        run := { s.run with connection := some (queue ++ [event]) } } := by
      refine h.note (o := .delivered event) rfl ?_ (by simp) (fun _ => firstRequest_append _ _)
      rw [hc]
      rfl
    exact Waits.delivered events (queue ++ [event]) hone rfl (by rw [ht, List.append_assoc]; rfl)
      (by rw [hc', List.append_assoc]; rfl)

theorem accounts_join (s : Sys) (events : List ReceiveEvent) (now : Instant) (hs : s.run.connection = none) :
    Accounts s (s.join events now) := by
  refine ⟨emits_join (K := Obs.any) trivial (fun _ => trivial) s events now, fun h => ?_⟩
  have hconnected : Waits { s with
      trace := s.trace ++ [.connected]
      run := { s.run with connection := some [] } } := by
    refine h.note (o := .connected) rfl rfl (by simp) (fun _ => ?_)
    rw [h.queue, hs]
    rfl
  exact Waits.delivered events [] hconnected rfl (by rw [List.append_assoc]; rfl) rfl

theorem closing_accounts (sup : Supervisor) : Closing sup (.all Accounts) ExitSeen (fun _ => ExitSeen) :=
  closing_all lasting_accounts sup (fun _ _ _ => accounts_idle rfl rfl (fun _ => rfl) rfl (by simp))
    (fun _ _ => ⟨emits_of_trace rfl, fun h => h.same rfl rfl⟩) (fun _ => ⟨emits_of_trace rfl, fun h => h.same rfl rfl⟩)
    accounts_join
    (fun _ _ _ => accounts_idle rfl rfl (fun _ => rfl) rfl (by simp))

theorem turn_accounts (sup : Supervisor) (arm : Arm) : Turn (.all Accounts) (fun _ => ExitSeen) (serve sup arm) := by
  have c := closing_accounts sup
  refine turn_serve c arm (fun line _ => turn_handleOutputBatch c (fun _ _ => ?_) line)
    (fun _ _ _ => keeps_handleStarted c (fun _ _ _ => ?_))
    (fun _ => turn_tick_all lasting_accounts sup c (fun _ _ _ => ?_))
  · exact accounts_idle rfl rfl (fun _ => rfl) rfl (by simp)
  · exact accounts_idle rfl rfl (fun _ => rfl) rfl (by simp)
  · exact accounts_idle rfl rfl (fun _ => rfl) rfl (by simp)

/-! ## A request that is taken up -/

theorem returns_handleRestart (sup : Supervisor) : Returns (Grants .restart) (handleRestart sup) := by
  refine returns_bind (fun _ => returns_bind (fun _ => returns_bind (fun elapsed => ?_)))
  exact returns_pure ⟨elapsed, rfl⟩

theorem returns_handleStop (sup : Supervisor) (message : Bytes) :
    Returns (Grants (.stop (stopCode message))) (handleStop sup message) := by
  refine returns_bind (fun _ => returns_bind (fun _ => returns_bind (fun _ => returns_bind (fun elapsed => ?_))))
  exact returns_pure ⟨elapsed, rfl⟩

/-- A packet that asks for something is granted. -/
theorem returns_handlePacket (sup : Supervisor) {packet : Packet} {r : Request} (h : request (.packet packet) = some r) :
    Returns (fun result => ∃ o, result = some o ∧ Grants r o) (handlePacket sup packet) := by
  have hsome : ∀ {p : Run RunOutcome}, Returns (Grants r) p →
      Returns (fun result => ∃ o, result = some o ∧ Grants r o) (p >>= fun o => pure (some o)) :=
    fun hp => returns_map hp (fun o ho => ⟨o, rfl, ho⟩)
  unfold handlePacket
  simp only [request] at h
  by_cases hrestart : packet.code = RESTART
  · rw [if_pos hrestart] at h
    cases h
    rw [hrestart, if_neg (by decide), if_neg (by decide), if_pos rfl]
    exact hsome (returns_handleRestart sup)
  · rw [if_neg hrestart] at h
    by_cases hstop : packet.code = STOP
    · rw [if_pos hstop] at h
      cases h
      rw [hstop, if_neg (by decide), if_neg (by decide), if_neg (by decide), if_pos rfl]
      exact hsome (returns_handleStop sup packet.message)
    · rw [if_neg hstop] at h
      cases h

theorem returns_handleProtocol (sup : Supervisor) {event : ReceiveEvent} {r : Request} (h : request event = some r) :
    Returns (fun result => ∃ o, result = some o ∧ Grants r o) (handleProtocol sup event) := by
  cases event with
  | disconnected => cases h
  | packet packet => exact returns_bind (fun _ => returns_bind (fun _ => returns_handlePacket sup h))

/-- What a run that ends has made of the first request. -/
def Granted (o : RunOutcome) (trace : List Obs) : Prop :=
  NoneDiscarded trace → ∀ r, requested trace = some r → Grants r o

theorem Waits.granted {s : Sys} (h : Waits s) (hexit : ExitSeen s) (o : RunOutcome) : Granted o s.trace := by
  intro hnone r hr
  rcases h.first hnone with ⟨-, hrequested⟩ | ⟨hseen, -⟩
  · rw [hrequested] at hr
    cases hr
  · exact absurd hexit hseen

/-- The request is the first one pending when it is taken up, and the run ends as it asks. -/
theorem serve_grants (sup : Supervisor) {u v : Sys} {event : ReceiveEvent} {rest : List ReceiveEvent} {r : Request}
    (hwaits : Waits u) (hpending : pending u.trace = event :: rest) (hr : request event = some r)
    (hv : v.trace = u.trace ++ [.received (some event)]) :
    (serve sup (.protocol (some event)) v).All (fun result w => ∃ o, result = some o ∧ Granted o w.trace)
      (fun _ _ => True) (fun _ => True) := by
  refine ((turn_accounts sup _ v).and (returns_handleProtocol sup hr v)).mono (fun result w hw => ?_)
    (fun _ _ _ => trivial) (fun _ _ => trivial)
  obtain ⟨hturn, o, rfl, hgrants⟩ := hw
  obtain ⟨new, hnew, -⟩ := hturn.1.1
  refine ⟨o, rfl, fun hnone r' hr' => ?_⟩
  rw [hnew, hv, List.append_assoc] at hnone hr'
  rcases hwaits.first hnone.earlier with ⟨hexit, hrequested⟩ | ⟨-, hrequested⟩
  · rw [requested_of_exit _ hexit, hrequested] at hr'
    cases hr'
  · have hfirst : requested u.trace = some r := by
      rw [hrequested, hpending]
      unfold firstRequest
      rw [List.findSome?_cons, hr]
    rw [requested_stays _ hfirst] at hr'
    cases hr'
    exact hgrants

theorem serve_while_waiting (sup : Supervisor) (arm : Arm) {s : Sys} (h : Waits s) : (serve sup arm s).All
    (fun r t => match r with | none => Waits t | some o => Granted o t.trace) (fun _ _ => True) (fun _ => True) := by
  refine (turn_accounts sup arm s).mono (fun r t hr => ?_) (fun _ _ _ => trivial) (fun _ _ => trivial)
  cases r with
  | none => exact hr.2 h
  | some o => exact (hr.1.2 h).granted hr.2 o

theorem eventLoop_grants (sup : Supervisor) {s : Sys} (h : Waits s) :
    (eventLoop sup s).All (fun o t => Granted o t.trace) (fun _ _ => True) (fun _ => True) := by
  refine all_eventLoop (I := Waits) (fun t ht => ?_) (fun _ _ => trivial) s (fun next => h.same rfl rfl)
  refine (select_spec (R := Accounts) t).mono (fun arm v hv => ?_) (fun _ _ h => h.elim) (fun _ _ => trivial)
  obtain ⟨u, hu, hsel⟩ := hv
  have hwaits := hu.2 ht
  cases hsel with
  | line line rest _ => exact serve_while_waiting sup _ (hwaits.idle rfl rfl (fun _ => rfl) rfl (by simp))
  | outputClosed => exact serve_while_waiting sup _ hwaits
  | control c rest _ => exact serve_while_waiting sup _ (hwaits.idle rfl rfl (fun _ => rfl) rfl (by simp))
  | controlsClosed => exact serve_while_waiting sup _ (hwaits.idle rfl rfl (fun _ => rfl) rfl (by simp))
  | event event rest hc =>
    have hpending : pending u.trace = event :: rest := by rw [hwaits.queue, hc]; rfl
    cases hr : request event with
    | none =>
      refine serve_while_waiting sup _ (hwaits.note (o := .received (some event)) rfl ?_ ?_ (fun _ => ?_))
      · rw [hc]
        rfl
      · rintro _ ⟨⟩
        exact hr
      · rw [hpending]
        unfold firstRequest
        rw [List.findSome?_cons, hr]
        exact (Option.or_none).symm
    | some r =>
      refine (serve_grants sup hwaits hpending hr rfl).mono (fun result w hw => ?_) (fun _ _ h => h) (fun _ h => h)
      obtain ⟨o, rfl, hgranted⟩ := hw
      exact hgranted
  | channelClosed _ => exact serve_while_waiting sup _ (hwaits.note (o := .received none) rfl rfl (by simp) (fun _ => (Option.or_none).symm))
  | tick next => exact serve_while_waiting sup _ (hwaits.same rfl rfl)

/-! ## One launch -/

/-- No connection, and no request taken up. -/
def Unconnected (s : Sys) : Prop := Waits s ∧ s.run.connection = none

theorem Unconnected.granted {s : Sys} (h : Unconnected s) (o : RunOutcome) : Granted o s.trace := by
  intro hnone r hr
  rcases h.1.first hnone with ⟨-, hrequested⟩ | ⟨-, hrequested⟩
  · rw [hrequested] at hr
    cases hr
  · rw [hrequested, h.1.queue, h.2] at hr
    cases hr

theorem carried_unconnected : Carried (Both Accounts StaysDown) Unconnected (fun _ => True) (fun _ => True) :=
  ⟨fun _ _ h hst => ⟨hst.1.2 h.1, hst.2 h.2⟩, fun _ _ => trivial, fun _ _ => trivial⟩

/-- **A request that was delivered in time is granted**: in every run of one JVM that returns, if no `STOP` or `RESTART`
was left unread where the exit was observed or the connection dropped, the outcome is what the first of those delivered
before the exit was observed asks for. -/
theorem first_request_is_granted (sup : Supervisor) (jvmId : Nat) (resuming : Bool) (s : Sys) :
    (runOnce sup jvmId resuming { s with trace := [] }).All
      (fun o t => NoneDiscarded t.trace → ∀ r, requested t.trace = some r → Grants r o) (fun _ _ => True)
      (fun _ => True) := by
  have hstart : Unconnected { s with run := {}, trace := [] } := by
    refine ⟨⟨rfl, ?_, fun _ => .inr ⟨?_, rfl⟩⟩, rfl⟩
    · rintro ⟨event, hmem, -⟩
      cases hmem
    · rintro ⟨o, ho, -⟩
      cases ho
  -- `run_once` has no connection until its event loop makes one
  have hspawn : ∀ (t : Sys) (o : Obs), Unconnected t → o = .spawned jvmId ∨ o = .spawnFailed jvmId →
      Waits (t.note o) := by
    rintro t o h (rfl | rfl) <;> exact h.1.idle rfl rfl (fun _ => rfl) rfl (by simp)
  refine all_runOnce (Q := fun o t => Granted o t.trace) carried_unconnected carried_unconnected carried_unconnected
    (fun t h => ?_) (fun t h => ?_) (fun t h => ?_) (fun t _ h => h.granted _) ?_
    { s with run := {}, trace := [] } hstart
  · exact ⟨h.1.same rfl h.2.symm, rfl⟩
  · exact ⟨(hspawn t _ h (.inl rfl)).same rfl rfl, h.2⟩
  · exact ⟨hspawn t _ h (.inr rfl), h.2⟩
  · exact fun t command key pid launchedAt now h => eventLoop_grants sup (h.1.same rfl h.2.symm)

/-- The JVM connects at the first tick, and asks to stop with code 7 and exits before the second. -/
def stopAndExit : List Answer :=
  connected ++ [{ moves := [.deliver (.packet ⟨STOP, Text.asBytes "7"⟩), .exit (some 1), .elapse tickInterval] }] ++
    quiet 2 ++ [{ moves := [.closeOutput] }] ++ quiet 2

/-- The packet is in the queue when the tick sees the exit, and its code is lost. -/
theorem stop_code_is_lost :
    requested (runOnce (.sample ⟨[], [], by decide⟩) 1 false { script := stopAndExit }).state.trace = some (.stop 7) ∧
    (runOnce (.sample ⟨[], [], by decide⟩) 1 false { script := stopAndExit }).result =
      some (.exited (2 * tickInterval) 1) := by
  decide +kernel

end Supervisor
end Jss
