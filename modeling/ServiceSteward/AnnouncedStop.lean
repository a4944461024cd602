import ServiceSteward.Monitor
import ServiceSteward.Onward
import ServiceSteward.Phases
/-!
# AnnouncedStop — a JVM that says that it stops

The bridge announces a stop of the JVM with a STOP packet, just before it closes its socket.  `announced` is the time of
the announcement, read off the trace.  The supervisor answers it: if that write succeeds, the JVM gets the whole
`wrapper.shutdown.timeout` (`KilledInTime`); if it fails, the JVM is killed at once.
-/
namespace Jss
namespace Supervisor

open Protocol (Packet ReceiveEvent STOP)
open Scripted

/-- When the current JVM announced its stop. -/
def announced : Monitor (Option Instant) (Instant × Obs) where
  start := none
  step m
    | (now, .received (some (.packet packet))) => if packet.code = STOP then some now else m
    | (_, .spawned _) => none
    | _ => m

/-- A JVM is killed no earlier than it has to be gone. -/
def KilledInTime (sup : Supervisor) (m : Option Instant) (x : Instant × Obs) : Prop :=
  x.2 = .killed → ∀ at', m = some at' → at' + shutdownTimeout sup.config ≤ x.1

/-- No write fails once the stop is announced. -/
def AnswerWritten (m : Option Instant) (x : Instant × Obs) : Prop := x.2 = .sendFailed → m = none

/-! ## The invariant -/

/-- What is known while every announcement was answered: the announcement and the clock satisfy `c`. -/
def Patient (sup : Supervisor) (c : Option Instant → Instant → Prop) (s : Sys) : Prop :=
  announced.Always AnswerWritten s.timed →
    announced.Always (KilledInTime sup) s.timed ∧ c (announced.after s.timed) s.clock

/-- A condition that time does not undo. -/
class Timely (c : Option Instant → Instant → Prop) : Prop where
  later : ∀ {m now now'}, now ≤ now' → c m now → c m now'

class Elapsed (sup : Supervisor) (c : Option Instant → Instant → Prop) : Prop where
  elapsed : ∀ {m now}, c m now → ∀ at', m = some at' → at' + shutdownTimeout sup.config ≤ now

def Ever (_ : Option Instant) (_ : Instant) : Prop := True

def Never (_ : Option Instant) (_ : Instant) : Prop := False

def Unannounced (m : Option Instant) (_ : Instant) : Prop := m = none

def Since (at' : Instant) (m : Option Instant) (now : Instant) : Prop := m = some at' ∧ at' ≤ now

/-- The deadline gives the JVM its time. -/
def Until (sup : Supervisor) (at' deadline : Instant) (m : Option Instant) (_ : Instant) : Prop :=
  m = some at' ∧ at' + shutdownTimeout sup.config ≤ deadline

def Past (sup : Supervisor) (at' : Instant) (m : Option Instant) (now : Instant) : Prop :=
  m = some at' ∧ at' + shutdownTimeout sup.config ≤ now

instance : Timely Ever := ⟨fun _ h => h⟩

instance : Timely Never := ⟨fun _ h => h⟩

instance : Timely Unannounced := ⟨fun _ h => h⟩

instance {at' : Instant} : Timely (Since at') := ⟨fun hle h => ⟨h.1, h.2.trans hle⟩⟩

instance {sup : Supervisor} {at' deadline : Instant} : Timely (Until sup at' deadline) := ⟨fun _ h => h⟩

instance {sup : Supervisor} {at' : Instant} : Timely (Past sup at') := ⟨fun hle h => ⟨h.1, h.2.trans hle⟩⟩

instance {sup : Supervisor} : Elapsed sup Never := ⟨fun h => h.elim⟩

instance {sup : Supervisor} : Elapsed sup Unannounced where
  elapsed h at' hat := by
    rw [h] at hat
    cases hat

instance {sup : Supervisor} {at' : Instant} : Elapsed sup (Past sup at') where
  elapsed h at'' hat := by
    rw [h.1] at hat
    cases hat
    exact h.2

variable {sup : Supervisor} {c c' : Option Instant → Instant → Prop}

theorem Patient.mono {s : Sys} (h : Patient sup c s) (hc : ∀ m, c m s.clock → c' m s.clock) : Patient sup c' s :=
  fun hanswered => ⟨(h hanswered).1, hc _ (h hanswered).2⟩

theorem Patient.ever {s : Sys} (h : Patient sup c s) : Patient sup Ever s := h.mono (fun _ _ => trivial)

/-- **One more observation.** -/
theorem Patient.observe {s t : Sys} {o : Obs} (h : Patient sup c s) (ht : t.timed = s.timed ++ [(s.clock, o)])
    (hkilled : ∀ m, c m s.clock → KilledInTime sup m (s.clock, o))
    (hc : ∀ m, AnswerWritten m (s.clock, o) → c m s.clock → c' (announced.step m (s.clock, o)) t.clock) :
    Patient sup c' t := by
  intro hanswered
  rw [ht, Monitor.always_concat] at hanswered
  obtain ⟨hkeeps, hnow⟩ := h hanswered.1
  rw [ht, Monitor.always_concat, Monitor.after_concat]
  exact ⟨⟨hkeeps, hkilled _ hnow⟩, hc _ hanswered.2 hnow⟩

/-- An observation that neither announces nor launches nor kills anything. -/
def Obs.passing : Obs → Prop
  | .received _ | .spawned _ | .killed => False
  | _ => True

theorem passing_step {o : Obs} (h : o.passing) (now : Instant) (m : Option Instant) :
    announced.step m (now, o) = m := by
  cases o with
  | received event => exact h.elim
  | spawned id => exact h.elim
  | _ => rfl

theorem killedInTime_of_ne {m : Option Instant} {x : Instant × Obs} (h : x.2 ≠ .killed) : KilledInTime sup m x :=
  fun hkilled => absurd hkilled h

section Timely

variable [Timely c]

theorem Patient.note {s t : Sys} {o : Obs} (h : Patient sup c s) (ht : t.timed = s.timed ++ [(s.clock, o)])
    (hclock : s.clock ≤ t.clock) (ho : o.passing) : Patient sup c t :=
  h.observe ht (fun m _ => killedInTime_of_ne (by rintro rfl; exact ho))
    (fun m _ hm => by rw [passing_step ho]; exact Timely.later hclock hm)

theorem Patient.same {s t : Sys} (h : Patient sup c s) (ht : t.timed = s.timed) (hclock : s.clock ≤ t.clock) :
    Patient sup c t := by
  unfold Patient
  rw [ht]
  exact fun hanswered => ⟨(h hanswered).1, Timely.later hclock (h hanswered).2⟩

theorem patient_move (s : Sys) (m : Move) (h : Patient sup c s) : Patient sup c (s.move m) := by
  cases m with
  | elapse d => exact h.same rfl (Nat.le_add_right _ _)
  | deliver event =>
    simp only [Sys.move]
    split
    · exact h
    · exact h.note rfl (Nat.le_refl _) trivial
  | output line => simp only [Sys.move]; split <;> exact h.same rfl (Nat.le_refl _)
  | exit code => simp only [Sys.move]; split <;> exact h.same rfl (Nat.le_refl _)
  | dumped worker result => simp only [Sys.move]; split <;> exact h.same rfl (Nat.le_refl _)
  | _ => exact h.same rfl (Nat.le_refl _)

theorem Patient.join {s : Sys} (h : Patient sup c s) (events : List ReceiveEvent) (now : Instant) :
    Patient sup c (s.join events now) := by
  have htimed : (s.join events now).timed =
      (s.timed ++ [(s.clock, .connected)]) ++ events.map (fun event => (s.clock, .delivered event)) := by
    simp [Sys.join]
  have hconnected : Patient sup c (s.note .connected) := h.note rfl (Nat.le_refl _) trivial
  intro hanswered
  rw [htimed] at hanswered ⊢
  obtain ⟨hkeeps, hnow⟩ := hconnected hanswered.earlier
  refine ⟨hkeeps.append _ (fun x hx m => ?_), ?_⟩
  · obtain ⟨event, -, rfl⟩ := List.mem_map.1 hx
    exact killedInTime_of_ne (by simp)
  · rw [Monitor.after_append]
    · exact hnow
    · intro x hx m
      obtain ⟨event, -, rfl⟩ := List.mem_map.1 hx
      rfl

theorem Obs.bland.passing {o : Obs} (h : o.bland) : o.passing := by
  cases o with
  | received event => exact h.elim
  | spawned id => exact h.elim
  | killed => exact h.elim
  | _ => trivial

instance : Steady (Preserves (Patient sup c)) where
  same hst h := h.same hst.timed hst.clock
  move := patient_move
  note _ _ ho h := h.note rfl (Nat.le_refl _) ho.passing

instance : Talking (Preserves (Patient sup c)) where
  sent _ _ _ h := h.note rfl (Nat.le_refl _) trivial
  sendFailed _ h := h.note rfl (Nat.le_refl _) trivial
  drop _ _ _ h := h.note rfl (Nat.le_refl _) trivial

instance : Dumping (Preserves (Patient sup c)) where
  worker _ _ h := h.same rfl (Nat.le_refl _)
  task _ _ h := h.same rfl (Nat.le_refl _)
  dumping _ _ _ h := h.note rfl (Nat.le_refl _) trivial

instance : Timing (Preserves (Patient sup c)) where
  nextPing _ _ h := h.same rfl (Nat.le_refl _)
  answered _ _ h := h.same rfl (Nat.le_refl _)
  check _ _ h := h.note rfl (Nat.le_refl _) trivial

instance : Outputting (Preserves (Patient sup c)) where
  took _ _ _ _ _ h := h.note rfl (Nat.le_refl _) trivial
  recorded _ _ h := h.note rfl (Nat.le_refl _) trivial

instance [Elapsed sup c] : Killing (Preserves (Patient sup c)) where
  killed _ h := h.observe rfl (fun _ hm _ => Elapsed.elapsed hm) (fun _ _ hm => hm)
  reaped _ h := h.note rfl (Nat.le_refl _) trivial
  reap _ _ _ h := h.same rfl (Nat.le_refl _)

instance [Elapsed sup c] : Kept (Preserves (Patient sup c)) where
  published _ _ h := h.note rfl (Nat.le_refl _) trivial
  waited _ _ _ _ h := h.note rfl (Nat.le_refl _) trivial
  batch _ _ h := h.note rfl (Nat.le_refl _) trivial
  held _ _ h := h.same rfl (Nat.le_refl _)
  join _ events now _ h := h.join events now

end Timely

theorem carried_patient : Carried (Preserves (Patient sup c)) (Patient sup c) (Patient sup Ever) (Patient sup Ever) :=
  ⟨fun _ _ h hst => hst h, fun _ h => h.ever, fun _ h => h.ever⟩

theorem Patient.keeps {α : Type} {p : Run α} (hp : Keeps (Preserves (Patient sup c)) p) {s : Sys}
    (h : Patient sup c s) : (p s).All (fun _ => Patient sup c) (fun _ => Patient sup Ever) (Patient sup Ever) :=
  (hp s).mono (fun _ _ ht => ht h) (fun _ _ ht => Patient.ever (ht h)) (fun _ ht => Patient.ever (ht h))

/-! ## The announcement -/

/-- The stop is announced, and the connection it came over is still there. -/
def Announcing (sup : Supervisor) (at' : Instant) (s : Sys) : Prop :=
  Patient sup (Since at') s ∧ s.run.connection.isSome = true

variable {at' : Instant}

instance : Steady (Preserves (Announcing sup at')) where
  same hst h := ⟨h.1.same hst.timed hst.clock, by rw [hst.run.connection]; exact h.2⟩
  move s m h := by
    refine ⟨patient_move s m h.1, ?_⟩
    cases m with
    | deliver event => simp only [Sys.move]; split <;> simp_all [Announcing]
    | output line => simp only [Sys.move]; split <;> exact h.2
    | exit code => simp only [Sys.move]; split <;> exact h.2
    | dumped worker result => simp only [Sys.move]; split <;> exact h.2
    | _ => exact h.2
  note _ _ ho h := ⟨h.1.note rfl (Nat.le_refl _) ho.passing, h.2⟩

instance : Timing (Preserves (Announcing sup at')) where
  nextPing _ _ h := ⟨h.1.same rfl (Nat.le_refl _), h.2⟩
  answered _ _ h := ⟨h.1.same rfl (Nat.le_refl _), h.2⟩
  check _ _ h := ⟨h.1.note rfl (Nat.le_refl _) trivial, h.2⟩

theorem carried_announcing : Carried (Preserves (Announcing sup at')) (Announcing sup at') (Patient sup Ever)
    (Patient sup Ever) :=
  ⟨fun _ _ h hst => hst h, fun _ h => h.1.ever, fun _ h => h.1.ever⟩

/-- **The answer**: it is written, or one is lost. -/
theorem Announcing.answer (code : UInt8) (message : Text) {s : Sys} (h : Announcing sup at' s) :
    (sendIfConnected code message s).All
      (fun sent t => if sent then Patient sup (Since at') t else Patient sup Never t)
      (fun _ => Patient sup Ever) (Patient sup Ever) := by
  obtain ⟨hsince, hconn⟩ := h
  unfold sendIfConnected getRun
  simp only [all_bind, all_get, all_pure]
  cases hc : s.run.connection with
  | none =>
    rw [hc] at hconn
    cases hconn
  | some unread =>
    have hlost : ∀ u, Patient sup (Since at') u → Patient sup Never (u.note .sendFailed) := by
      intro u hu
      refine hu.observe rfl (fun _ _ => killedInTime_of_ne (by simp)) (fun m hwritten hm => ?_)
      rw [hwritten rfl] at hm
      cases hm.1
    simp only
    rw [all_bind, all_attempt]
    unfold send
    rw [all_bind]
    refine (ask_spec (R := Preserves (Patient sup (Since at'))) s).mono (fun a u hu => ?_) (fun _ _ h => h.elim)
      (fun _ hu => Patient.ever (hu hsince))
    have hsince := hu hsince
    have hfailed : ∀ e : Error, ((do
        log .error .protocol ("Control channel write failed: ".toList ++ e.display)
        markDisconnected
        return false : Run Bool) (u.note .sendFailed)).All
        (fun sent t => if sent then Patient sup (Since at') t else Patient sup Never t)
        (fun _ => Patient sup Ever) (Patient sup Ever) := by
      intro e
      refine carried_patient.bind (hlost u hsince) (keeps_log (not_marker_of_level (by decide))) (fun _ v hv => ?_)
      exact carried_patient.bind hv keeps_markDisconnected (fun _ _ hw => hw)
    cases (Packet.text code message).writeTo with
    | error e => exact hfailed e
    | ok bytes =>
      cases a.failure with
      | some e => exact hfailed e
      | none => exact hsince.note rfl (Nat.le_refl _) trivial

/-- **The wait**: the child is gone, or it has had its time. -/
theorem Patient.waitForExit {s : Sys} (h : Patient sup (Since at') s) :
    (waitForExit sup (shutdownTimeout sup.config) s).All
      (fun exited t => if exited then Patient sup Ever t else Patient sup (Past sup at') t)
      (fun _ => Patient sup Ever) (Patient sup Ever) := by
  unfold Supervisor.waitForExit
  rw [all_bind]
  refine ((now_onward s).and (keeps_now (R := Preserves (Patient sup (Since at'))) s)).mono (fun start t ht => ?_)
    (fun _ _ h => h.1.elim) (fun _ ht => Patient.ever (ht.2 h))
  obtain ⟨⟨-, -, hstart⟩, ht⟩ := ht
  have huntil : Patient sup (Until sup at' (start + shutdownTimeout sup.config)) t := by
    refine (ht h).mono (fun m hm => ⟨hm.1, ?_⟩)
    rw [← hstart]
    exact Nat.add_le_add_right hm.2 _
  unfold repeatFrom
  refine all_iterate (I := fun _ => Patient sup (Until sup at' (start + shutdownTimeout sup.config))) (fun _ u hu => ?_)
    (fun _ _ h => h.ever) _ _ _ huntil
  unfold waitTurn
  refine carried_patient.bind hu (keeps_tryWait (by decide)) (fun status v hv => ?_)
  cases status with
  | some code => exact carried_patient.bind hv (keeps_drainRemainingOutput sup) (fun _ _ hw => hw.ever)
  | none =>
    simp only
    rw [all_bind]
    refine ((now_onward v).and (keeps_now (R := Preserves (Patient sup _)) v)).mono (fun now w hw => ?_)
      (fun _ _ h => h.1.elim) (fun _ hw => Patient.ever (hw.2 hv))
    obtain ⟨⟨-, -, hnow⟩, hw⟩ := hw
    by_cases hlate : now ≥ start + shutdownTimeout sup.config
    · rw [if_pos hlate]
      refine (hw hv).mono (fun m hm => ⟨hm.1, hm.2.trans ?_⟩)
      rw [hnow]
      exact hlate
    · rw [if_neg hlate]
      exact carried_patient.bind (hw hv) (keeps_waitForOutput sup) (fun _ _ hx => hx)

theorem Announcing.shutdownAndDrain (exitCode : Int) {s : Sys} (h : Announcing sup at' s) :
    (shutdownAndDrain sup exitCode s).All (fun _ => Patient sup Ever) (fun _ => Patient sup Ever)
      (Patient sup Ever) := by
  unfold Supervisor.shutdownAndDrain
  have hask : Keeps (Preserves (Announcing sup at')) (tryWait .shutdown) :=
    keeps_tryWait_of (fun _ _ _ h => ⟨h.1.note rfl (Nat.le_refl _) trivial, h.2⟩)
  refine carried_announcing.bind h hask (fun status t ht => ?_)
  cases status with
  | some code => exact ht.1.ever.keeps (keeps_drainRemainingOutput sup)
  | none =>
    simp only
    rw [all_bind]
    refine (ht.answer STOP _).mono (fun sent u hu => ?_) (fun _ _ h => h) (fun _ h => h)
    cases sent with
    | true =>
      simp only [if_true] at hu ⊢
      rw [all_bind]
      refine hu.waitForExit.mono (fun exited v hv => ?_) (fun _ _ h => h) (fun _ h => h)
      cases exited with
      | true => exact hv
      | false =>
        have hkeeps : Keeps (Preserves (Patient sup (Past sup at'))) (afterTimeout sup) :=
          stops_afterTimeout (keeps_drainRemainingOutput sup).stops (keeps_waitForOutput sup).stops
            keeps_terminateChild.stops
        exact (hv.keeps hkeeps).mono (fun _ _ h => h.ever) (fun _ _ h => h) (fun _ h => h)
    | false =>
      refine carried_patient.bind hu keeps_terminateChild (fun _ v hv => ?_)
      exact (hv.keeps (keeps_drainRemainingOutput sup)).mono (fun _ _ h => h.ever) (fun _ _ h => h) (fun _ h => h)

theorem Announcing.handleProtocol {packet : Packet} (hcode : packet.code = STOP) {s : Sys} (h : Announcing sup at' s) :
    (handleProtocol sup (.packet packet) s).All (fun r t => r ≠ none ∧ Patient sup Ever t) (fun _ => Patient sup Ever)
      (Patient sup Ever) := by
  rw [handleProtocol_packet]
  refine carried_announcing.bind h keeps_answered (fun _ t ht => ?_)
  have hpacket : handlePacket sup packet = handleStop sup packet.message >>= fun o => pure (some o) := by
    unfold handlePacket
    rw [hcode]
    rfl
  rw [hpacket, all_bind]
  unfold handleStop
  rw [all_bind]
  refine (ht.shutdownAndDrain _).mono (fun _ u hu => ?_) (fun _ _ h => h) (fun _ h => h)
  refine carried_patient.bind hu (keeps_tryWait (by decide)) (fun status v hv => ?_)
  refine carried_patient.bind hv (keeps_logJvmExit _) (fun _ w hw => ?_)
  refine carried_patient.bind hw keeps_elapsed (fun elapsed x hx => ?_)
  exact ⟨by simp, hx⟩

/-! ## Runs -/

/-- What `select!` serves is not an announcement, or it is one. -/
theorem Patient.selected {s t : Sys} {arm : Arm} (h : Patient sup Unannounced s) (hsel : Selected s arm t) :
    Patient sup Unannounced t ∨
      ∃ packet, arm = .protocol (some (.packet packet)) ∧ packet.code = STOP ∧ Announcing sup s.clock t := by
  cases hsel with
  | line line rest _ => exact .inl (h.note rfl (Nat.le_refl _) trivial)
  | outputClosed => exact .inl h
  | control control rest _ => exact .inl (h.note rfl (Nat.le_refl _) trivial)
  | controlsClosed => exact .inl (h.note rfl (Nat.le_refl _) trivial)
  | channelClosed _ =>
    exact .inl (h.observe rfl (fun _ _ => killedInTime_of_ne (by simp)) (fun _ _ hm => hm))
  | tick next => exact .inl (h.same rfl (Nat.le_refl _))
  | event event rest _ =>
    cases event with
    | disconnected => exact .inl (h.observe rfl (fun _ _ => killedInTime_of_ne (by simp)) (fun _ _ hm => hm))
    | packet packet =>
      by_cases hcode : packet.code = STOP
      · refine .inr ⟨packet, rfl, hcode, ?_, rfl⟩
        refine h.observe rfl (fun _ _ => killedInTime_of_ne (by simp)) (fun m _ _ => ⟨?_, Nat.le_refl _⟩)
        simp [announced, hcode]
      · refine .inl (h.observe rfl (fun _ _ => killedInTime_of_ne (by simp)) (fun m _ hm => ?_))
        simp only [announced, hcode, if_false]
        exact hm

theorem Patient.eventLoop {s : Sys} (h : Patient sup Unannounced s) :
    (eventLoop sup s).All (fun _ => Patient sup Ever) (fun _ => Patient sup Ever) (Patient sup Ever) := by
  refine all_eventLoop (I := Patient sup Unannounced) (fun t ht => ?_) (fun _ h => h.ever) s
    (fun next => h.same rfl (Nat.le_refl _))
  refine (select_spec (R := Preserves (Patient sup Unannounced)) t).mono (fun arm v hv => ?_) (fun _ _ h => h.elim)
    (fun _ hu => Patient.ever (hu ht))
  obtain ⟨u, hu, hsel⟩ := hv
  rcases (hu ht).selected hsel with hv | ⟨packet, rfl, hcode, hv⟩
  · refine (turn_serve_kept (R := Preserves (Patient sup Unannounced)) sup arm v).mono (fun r w hw => ?_)
      (fun _ _ hw => Patient.ever (hw hv)) (fun _ hw => Patient.ever (hw hv))
    cases r with
    | none => exact hw hv
    | some o => exact Patient.ever (hw.1 hv)
  · refine (hv.handleProtocol hcode).mono (fun r w hw => ?_) (fun _ _ h => h) (fun _ h => h)
    cases r with
    | none => exact absurd rfl hw.1
    | some o => exact hw.2

theorem Patient.spawn {s : Sys} (h : Patient sup Ever s) (jvmId : Nat) : Patient sup Unannounced (s.spawn jvmId) :=
  h.observe (o := .spawned jvmId) rfl (fun _ _ => killedInTime_of_ne (by simp)) (fun _ _ _ => rfl)

theorem Patient.runOnce {s : Sys} (h : Patient sup Ever s) (jvmId : Nat) (resuming : Bool) :
    (runOnce sup jvmId resuming s).All (fun _ => Patient sup Ever) (fun _ => Patient sup Ever) (Patient sup Ever) := by
  have hbefore : Carried (Both (Preserves (Patient sup Ever)) (Preserves (Patient sup Unannounced))) (Patient sup Ever)
      (Patient sup Ever) (Patient sup Ever) := ⟨fun _ _ h hst => hst.1 h, fun _ h => h, fun _ h => h⟩
  have hafter : Carried (Both (Preserves (Patient sup Ever)) (Preserves (Patient sup Unannounced)))
      (Patient sup Unannounced) (Patient sup Ever) (Patient sup Ever) :=
    ⟨fun _ _ h hst => hst.2 h, fun _ h => h.ever, fun _ h => h.ever⟩
  refine all_runOnce_of (I := Patient sup Ever) (J := Patient sup Unannounced) (K := Patient sup Ever) hbefore hafter
    hbefore (fun t h => h.same rfl (Nat.le_refl _)) (fun t h => h.spawn jvmId)
    (fun t h => h.note rfl (Nat.le_refl _) trivial) (fun _ _ h => h) (fun t ht => ?_)
    (fun t command key pid launchedAt now ht => ?_) s h
  · exact (ht.keeps keeps_terminateChild).mono (fun _ _ h => h.ever) (fun _ _ h => h) (fun _ h => h)
  · have hstart : Patient sup Unannounced
        { t with run := .launched sup jvmId resuming command key pid launchedAt now } := ht.same rfl (Nat.le_refl _)
    exact hstart.eventLoop.mono (fun _ _ h => h.same rfl (Nat.le_refl _)) (fun _ _ h => h) (fun _ h => h)

theorem outer_passing {o : Obs} (h : o.outer) : o.passing := by
  cases o with
  | received event => cases h
  | spawned id => cases h
  | killed => cases h
  | _ => trivial

/-- **A JVM that announced its stop gets its time** in every run in which the announcements are answered. -/
theorem announced_stop_gets_its_time (sup : Supervisor) (script : List Answer)
    (hanswered : announced.Always AnswerWritten (run sup { script }).state.timed) :
    announced.Always (KilledInTime sup) (run sup { script }).state.timed := by
  have hlaws : (Phases.every (Patient sup Ever)).Laws sup (Preserves (Patient sup Ever)) (fun _ => Patient sup Ever)
      (Patient sup Ever) (Patient sup Ever) :=
    Phases.every_laws (fun _ h => h) (fun _ h => h)
      (preserves_heard (fun _ _ h => h.same rfl (Nat.le_refl _))
        (fun _ _ ho h => h.note rfl (Nat.le_refl _) (outer_passing ho)))
      (fun _ _ ho _ h => h.note rfl (Nat.le_refl _) (outer_passing ho))
      (fun jvmId resuming _ h => h.runOnce jvmId resuming)
  have hstart : Patient sup Ever { script } := fun _ => ⟨Monitor.always_nil, trivial⟩
  have hrun : Patient sup Ever (run sup { script }).state :=
    (hlaws.run hstart).state (fun _ _ h => h) (fun _ _ h => h) (fun _ h => h)
  exact (Patient.ever hrun hanswered).1

/-- A JVM that connects and announces its stop, and what becomes of the answer. -/
def announcesStop (failure : Option Error) : List Answer :=
  quiet 4 ++ connected ++ [{ moves := [.deliver (.packet ⟨STOP, []⟩)], source := .protocol }] ++ quiet 2 ++ [{ failure := failure }]

/-- ... and the answer is written, but the JVM does not end. -/
def answeredStop : List Answer :=
  announcesStop none ++ quiet 3 ++ [{ moves := [.elapse (Duration.fromSecs 30)] }] ++ quiet 6

theorem answered_stop_is_waited_for : announced.Always (KilledInTime (.sample ⟨[], [], by decide⟩))
    (run (.sample ⟨[], [], by decide⟩) { script := answeredStop }).state.timed := by
  refine announced_stop_gets_its_time _ _ (Monitor.always_of_forall ?_)
  have hwritten : ∀ x ∈ (run (.sample ⟨[], [], by decide⟩) { script := answeredStop }).state.timed,
      x.2 ≠ .sendFailed := by
    decide +kernel
  exact fun x hx m hfailed => absurd hfailed (hwritten x hx)

/-- The bridge has closed its socket, and the JVM is killed in the moment of its announcement. -/
theorem lost_answer_kills_at_once : ¬ announced.Always (KilledInTime (.sample ⟨[], [], by decide⟩))
    (run (.sample ⟨[], [], by decide⟩) { script := announcesStop (some (.io .other)) ++ quiet 4 }).state.timed := by
  intro hkilled
  have hlast : (run (.sample ⟨[], [], by decide⟩)
      { script := announcesStop (some (.io .other)) ++ quiet 4 }).state.timed.getLast? = some (tickInterval, .killed) := by
    decide +kernel
  have hannounced : announced.after (run (.sample ⟨[], [], by decide⟩)
      { script := announcesStop (some (.io .other)) ++ quiet 4 }).state.timed.dropLast = some tickInterval := by
    decide +kernel
  rw [← List.dropLast_append_getLast? _ hlast] at hkilled
  have hdue := hkilled.last rfl tickInterval hannounced
  exact absurd hdue (by decide)

end Supervisor
end Jss
