import ServiceSteward.Dialogue
import ServiceSteward.Onward
/-!
# LastResort — no JVM is killed that can still be asked to stop

`farewell` follows, over a timed run, whether a connection is in use and when `STOP` was written on it.
**`killed_as_last_resort`: a JVM is killed only where no connection is in use and it was never asked, or
`wrapper.shutdown.timeout` after it was asked.**
-/
namespace Jss
namespace Supervisor

open Protocol (ReceiveEvent STOP PAUSE RESUME)
open Scripted

/-! ## The monitor -/

structure Farewell where
  connected : Bool := false
  /-- When `STOP` was written to the current JVM. -/
  asked : Option Instant := none
  deriving DecidableEq, Repr

def Farewell.step (m : Farewell) (x : Instant × Obs) : Farewell :=
  match x.2 with
  | .spawned _ => {}
  | .connected => { m with connected := true }
  | .dropped _ => { m with connected := false }
  | .sent code _ => if code = STOP then { m with asked := some x.1 } else m
  | _ => m

def farewell : Monitor Farewell (Instant × Obs) := ⟨{}, Farewell.step⟩

/-- The JVM may be killed now. -/
def Farewell.over (timeout : Duration) (m : Farewell) (now : Instant) : Prop :=
  match m.asked with
  | some at' => at' + timeout ≤ now
  | none => m.connected = false

/-- A JVM is killed where it may be. -/
def Spares (sup : Supervisor) (m : Farewell) (x : Instant × Obs) : Prop :=
  x.2 = .killed → m.over (shutdownTimeout sup.config) x.1

def Sys.farewell (s : Sys) : Farewell := Supervisor.farewell.after s.timed

/-- The observations that the monitor does not count, and no kill. -/
def Obs.indifferent : Obs → Prop
  | .spawned _ | .connected | .dropped _ | .sent _ _ | .killed => False
  | _ => True

theorem Obs.indifferent.step {o : Obs} (h : o.indifferent) (m : Farewell) (now : Instant) : m.step (now, o) = m := by
  cases o with
  | spawned id => exact h.elim
  | connected => exact h.elim
  | dropped unread => exact h.elim
  | sent code message => exact h.elim
  | killed => exact h.elim
  | _ => rfl

theorem Obs.indifferent.spares {o : Obs} (h : o.indifferent) (sup : Supervisor) (m : Farewell) (now : Instant) :
    Spares sup m (now, o) := by
  rintro rfl
  exact h.elim

theorem Obs.bland.indifferent {o : Obs} (h : o.bland) : o.indifferent := by
  cases o with
  | published kind => trivial
  | logged level source message => trivial
  | waited site status unread => trivial
  | logFailed => trivial
  | _ => exact h.elim

/-! ## Conditions on the monitor and the clock -/

/-- Every JVM was spared so far, and `c` holds of the monitor now. -/
structure Spared (sup : Supervisor) (c : Farewell → Instant → Prop) (s : Sys) : Prop where
  always : farewell.Always (Spares sup) s.timed
  now : c s.farewell s.clock

/-- A condition that time does not undo. -/
class Endures (c : Farewell → Instant → Prop) : Prop where
  later : ∀ {m now now'}, now ≤ now' → c m now → c m now'

/-- ... and that allows a kill. -/
class Allows (sup : Supervisor) (c : Farewell → Instant → Prop) : Prop where
  allows : ∀ {m now}, c m now → m.over (shutdownTimeout sup.config) now

def Anything (_ : Farewell) (_ : Instant) : Prop := True

/-- Nothing was asked of the JVM. -/
def Unasked (connected : Bool) (m : Farewell) (_ : Instant) : Prop := m = ⟨connected, none⟩

def Asked (at' : Instant) (m : Farewell) (now : Instant) : Prop := m.asked = some at' ∧ at' ≤ now

def Respite (sup : Supervisor) (at' deadline : Instant) (m : Farewell) (_ : Instant) : Prop :=
  m.asked = some at' ∧ at' + shutdownTimeout sup.config ≤ deadline

def Overdue (sup : Supervisor) (m : Farewell) (now : Instant) : Prop := m.over (shutdownTimeout sup.config) now

instance : Endures Anything := ⟨fun _ _ => trivial⟩

instance {connected : Bool} : Endures (Unasked connected) := ⟨fun _ h => h⟩

instance {at' : Instant} : Endures (Asked at') := ⟨fun hle h => ⟨h.1, h.2.trans hle⟩⟩

instance {sup : Supervisor} {at' deadline : Instant} : Endures (Respite sup at' deadline) := ⟨fun _ h => h⟩

instance {sup : Supervisor} : Endures (Overdue sup) where
  later {m now now'} hle h := by
    unfold Overdue Farewell.over at h ⊢
    cases hm : m.asked with
    | none => simpa [hm] using h
    | some at' =>
      rw [hm] at h
      exact Nat.le_trans h hle

instance {sup : Supervisor} : Allows sup (Overdue sup) := ⟨id⟩

section Spared

variable {sup : Supervisor} {c c' : Farewell → Instant → Prop}

theorem Spared.mono {s : Sys} (h : Spared sup c s) (hc : ∀ m, c m s.clock → c' m s.clock) : Spared sup c' s :=
  ⟨h.always, hc _ h.now⟩

theorem Spared.any {s : Sys} (h : Spared sup c s) : Spared sup Anything s := h.mono (fun _ _ => trivial)

theorem farewell_note (s : Sys) (o : Obs) : (s.note o).farewell = s.farewell.step (s.clock, o) :=
  Supervisor.farewell.after_concat s.timed (s.clock, o)

/-- **One more observation.** -/
theorem Spared.observe {s : Sys} {o : Obs} (h : Spared sup c s) (ho : Spares sup s.farewell (s.clock, o))
    (hc : c' (s.farewell.step (s.clock, o)) s.clock) : Spared sup c' (s.note o) :=
  ⟨(Monitor.always_concat s.timed (s.clock, o)).2 ⟨h.always, ho⟩, by rw [farewell_note]; exact hc⟩

theorem Spared.note {s : Sys} {o : Obs} (h : Spared sup c s) (ho : o.indifferent) : Spared sup c (s.note o) :=
  h.observe (ho.spares sup _ _) (by rw [ho.step]; exact h.now)

variable [Endures c]

theorem Spared.same {s t : Sys} (h : Spared sup c s) (ht : t.timed = s.timed) (hclock : s.clock ≤ t.clock) :
    Spared sup c t := by
  refine ⟨by rw [ht]; exact h.always, ?_⟩
  unfold Sys.farewell
  rw [ht]
  exact Endures.later hclock h.now

/-- What happens apart from the connection, the stop and the kill. -/
structure Apart (s t : Sys) : Prop where
  spared : ∀ {sup : Supervisor} {c : Farewell → Instant → Prop} [Endures c], Spared sup c s → Spared sup c t
  connection : t.run.connection.isSome = s.run.connection.isSome
  held : t.run.pausedInPlace = s.run.pausedInPlace

theorem apart_of_same {s t : Sys} (ht : t.timed = s.timed) (hclock : s.clock ≤ t.clock)
    (hc : t.run.connection.isSome = s.run.connection.isSome) (hp : t.run.pausedInPlace = s.run.pausedInPlace) :
    Apart s t :=
  ⟨fun h => h.same ht hclock, hc, hp⟩

theorem apart_note (s : Sys) {o : Obs} (ho : o.indifferent) : Apart s (s.note o) := ⟨fun h => h.note ho, rfl, rfl⟩

theorem apart_move (s : Sys) (m : Move) : Apart s (s.move m) := by
  cases m with
  | elapse d => exact apart_of_same rfl (Nat.le_add_right _ _) rfl rfl
  | deliver event =>
    cases hc : s.run.connection with
    | none =>
      have heq : s.move (.deliver event) = s := by simp [Sys.move, hc]
      rw [heq]
      exact apart_of_same rfl (Nat.le_refl _) rfl rfl
    | some unread =>
      have hnote := apart_note s (o := .delivered event) trivial
      refine ⟨fun h => ?_, by simp [Sys.move, hc], by simp [Sys.move, hc]⟩
      exact (hnote.spared h).same (by simp [Sys.move, hc, Sys.note]) (by simp [Sys.move, hc, Sys.note])
  | output line => simp only [Sys.move]; split <;> exact apart_of_same rfl (Nat.le_refl _) rfl rfl
  | exit code => simp only [Sys.move]; split <;> exact apart_of_same rfl (Nat.le_refl _) rfl rfl
  | dumped worker result => simp only [Sys.move]; split <;> exact apart_of_same rfl (Nat.le_refl _) rfl rfl
  | _ => exact apart_of_same rfl (Nat.le_refl _) rfl rfl

instance : Steady Apart where
  refl _ := ⟨id, rfl, rfl⟩
  trans _ _ _ h h' := ⟨fun hs => h'.spared (h.spared hs), h'.connection.trans h.connection, h'.held.trans h.held⟩
  same h := apart_of_same h.timed h.clock (by rw [h.run.connection]) h.run.pausedInPlace
  move := apart_move
  note s _ h := apart_note s h.indifferent

instance : Aside Apart where
  worker _ _ := apart_of_same rfl (Nat.le_refl _) rfl rfl
  task _ _ := apart_of_same rfl (Nat.le_refl _) rfl rfl
  dumping s _ _ := apart_note s trivial
  nextPing _ _ := apart_of_same rfl (Nat.le_refl _) rfl rfl
  answered _ _ := apart_of_same rfl (Nat.le_refl _) rfl rfl
  check s _ := apart_note s trivial
  took s _ _ _ _ := apart_note s trivial
  recorded s _ := apart_note s trivial
  published s _ := apart_note s trivial
  waited s _ _ _ := apart_note s trivial
  batch s _ := apart_note s trivial

theorem carried_spared : Carried Apart (Spared sup c) (Spared sup Anything) (Spared sup Anything) :=
  ⟨fun _ _ h hst => hst.spared h, fun _ h => h.any, fun _ h => h.any⟩

/-! ## Ending the child -/

instance : Steady (Preserves (Spared sup c)) where
  same h hs := hs.same h.timed h.clock
  move s m hs := (apart_move s m).spared hs
  note _ _ ho hs := hs.note ho.indifferent

instance [Allows sup c] : Killing (Preserves (Spared sup c)) where
  killed _ h := h.observe (fun _ => Allows.allows h.now) h.now
  reaped _ h := h.note trivial
  reap _ _ _ h := h.same rfl (Nat.le_refl _)

instance : Outputting (Preserves (Spared sup c)) where
  took _ _ _ _ _ h := h.note trivial
  recorded _ _ h := h.note trivial

omit [Endures c] in
theorem within_of_preserves {α : Type} {p : Run α} (hp : Keeps (Preserves (Spared sup c)) p) {s : Sys}
    (h : Spared sup c s) : (p s).All (fun _ => Spared sup Anything) (fun _ => Spared sup Anything) (Spared sup Anything) :=
  (hp s).mono (fun _ _ ht => (ht h).any) (fun _ _ ht => (ht h).any) (fun _ ht => (ht h).any)

/-- The kill that is allowed. -/
theorem Spared.terminate [Allows sup c] {s : Sys} (h : Spared sup c s) :
    ((do terminateChild; drainRemainingOutput sup : Run Unit) s).All (fun _ => Spared sup Anything)
      (fun _ => Spared sup Anything) (Spared sup Anything) :=
  within_of_preserves (keeps_bind keeps_terminateChild (fun _ => keeps_drainRemainingOutput sup)) h

end Spared

section Run

variable {sup : Supervisor}

/-- **The wait**: the child is gone, or it has had its time. -/
theorem Spared.waitForExit {at' : Instant} {s : Sys} (h : Spared sup (Asked at') s) :
    (waitForExit sup (shutdownTimeout sup.config) s).All
      (fun exited t => if exited then Spared sup Anything t else Spared sup (Overdue sup) t)
      (fun _ => Spared sup Anything) (Spared sup Anything) := by
  unfold Supervisor.waitForExit
  rw [all_bind]
  refine ((now_onward s).and (keeps_now (R := Apart) s)).mono (fun start t ht => ?_) (fun _ _ h => h.1.elim)
    (fun _ ht => (ht.2.spared h).any)
  obtain ⟨⟨-, -, hstart⟩, ht⟩ := ht
  have hrespite : Spared sup (Respite sup at' (start + shutdownTimeout sup.config)) t := by
    refine (ht.spared h).mono (fun m hm => ⟨hm.1, ?_⟩)
    rw [← hstart]
    exact Nat.add_le_add_right hm.2 _
  unfold repeatFrom
  refine all_iterate (I := fun _ => Spared sup (Respite sup at' (start + shutdownTimeout sup.config))) (fun _ u hu => ?_)
    (fun _ _ h => h.any) _ _ _ hrespite
  unfold waitTurn
  refine carried_spared.bind hu (keeps_tryWait (by decide)) (fun status v hv => ?_)
  cases status with
  | some code => exact carried_spared.bind hv (keeps_drainRemainingOutput sup) (fun _ _ hw => hw.any)
  | none =>
    simp only
    rw [all_bind]
    refine ((now_onward v).and (keeps_now (R := Apart) v)).mono (fun now w hw => ?_) (fun _ _ h => h.1.elim)
      (fun _ hw => (hw.2.spared hv).any)
    obtain ⟨⟨-, -, hnow⟩, hw⟩ := hw
    have hwaiting := hw.spared hv
    by_cases hlate : now ≥ start + shutdownTimeout sup.config
    · rw [if_pos hlate]
      refine hwaiting.mono (fun m hm => ?_)
      unfold Overdue Farewell.over
      rw [hm.1, hnow]
      exact hm.2.trans hlate
    · rw [if_neg hlate]
      exact carried_spared.bind hwaiting (keeps_waitForOutput sup) (fun _ _ hx => hx)

/-- What the supervisor knows between two turns. -/
def Amid (sup : Supervisor) (s : Sys) : Prop := Spared sup (Unasked s.run.connection.isSome) s

theorem Amid.after {s t : Sys} (h : Amid sup s) (hst : Apart s t) : Amid sup t := by
  unfold Amid
  rw [hst.connection]
  exact hst.spared h

theorem carried_amid : Carried Apart (Amid sup) (Spared sup Anything) (Spared sup Anything) :=
  ⟨fun _ _ h hst => h.after hst, fun _ h => h.any, fun _ h => h.any⟩

theorem Amid.disconnect {s : Sys} (h : Amid sup s) (unread : List ReceiveEvent) :
    Amid sup (s.disconnect unread) := by
  refine Spared.observe (s := { s with run := { s.run with connection := none } }) (c := Unasked s.run.connection.isSome)
    ⟨h.always, h.now⟩ (fun hkilled => by cases hkilled) ?_
  have hnow : s.farewell = ⟨s.run.connection.isSome, none⟩ := h.now
  show Farewell.step s.farewell (s.clock, .dropped unread) = ⟨false, none⟩
  rw [hnow]
  rfl

theorem Amid.markDisconnected {s : Sys} (h : Amid sup s) :
    (markDisconnected s).All (fun _ t => Amid sup t ∧ t.run.connection = none) (fun _ => Spared sup Anything)
      (Spared sup Anything) := by
  unfold Supervisor.markDisconnected getRun
  simp only [all_bind, all_get, all_pure]
  cases hc : s.run.connection with
  | none => exact ⟨h, hc⟩
  | some unread =>
    have hdropped := h.disconnect unread
    have hrest : Keeps Apart (do
        log .debug .protocol "JVM control channel disconnected; waiting for the JVM to exit or reconnect."
        publish .protocolDisconnected) :=
      keeps_bind (keeps_log (not_marker_of_level (by decide))) (fun _ => keeps_publish rfl rfl)
    refine (hrest _).mono (fun _ t ht => ⟨hdropped.after ht, ?_⟩) (fun _ _ ht => (hdropped.after ht).any)
      (fun _ ht => (hdropped.after ht).any)
    have hnone : t.run.connection.isSome = false := ht.connection
    simpa using hnone

/-- **A packet for the JVM**: it is written, or there is no connection any more. -/
theorem Amid.sendIfConnected (code : UInt8) (message : Text) {s : Sys} (h : Amid sup s) :
    (sendIfConnected code message s).All
      (fun sent t => if sent then ∃ u, Amid sup u ∧ Apart s u ∧ u.run.connection.isSome = true ∧
          t = u.note (.sent code message)
        else Amid sup t ∧ t.run.connection = none)
      (fun _ => Spared sup Anything) (Spared sup Anything) := by
  unfold Supervisor.sendIfConnected getRun
  simp only [all_bind, all_get, all_pure]
  cases hc : s.run.connection with
  | none => exact ⟨h, hc⟩
  | some unread =>
    simp only
    rw [all_bind, all_attempt]
    refine (send_writes (R := Apart) code message s).mono (fun _ t ht => ?_) (fun e t ht => ?_)
      (fun t ht => (h.after ht).any)
    · obtain ⟨-, u, hu, rfl⟩ := ht
      exact ⟨u, h.after hu, hu, by rw [hu.connection, hc]; rfl, rfl⟩
    · obtain ⟨u, hu, rfl⟩ := ht
      have hfailed : Amid sup (u.note .sendFailed) := (h.after hu).after (apart_note u trivial)
      refine carried_amid.bind hfailed (keeps_log (not_marker_of_level (by decide))) (fun _ v hv => ?_)
      rw [all_bind]
      exact hv.markDisconnected.mono (fun _ _ hw => hw) (fun _ _ hw => hw) (fun _ hw => hw)

/-- A packet other than `STOP`. -/
theorem Amid.sent {code : UInt8} (hcode : code ≠ STOP) (message : Text) {s : Sys} (h : Amid sup s) :
    Amid sup (s.note (.sent code message)) := by
  refine Spared.observe (c := Unasked s.run.connection.isSome) h (fun hkilled => by cases hkilled) ?_
  show Farewell.step s.farewell (s.clock, .sent code message) = _
  have hsame : Farewell.step s.farewell (s.clock, .sent code message) = s.farewell := if_neg hcode
  rw [hsame]
  exact h.now

theorem Amid.told {code : UInt8} (hcode : code ≠ STOP) (message : Text) {s : Sys} (h : Amid sup s)
    (Q : Sys → Prop) (hQ : ∀ t, Apart s t → Amid sup (t.note (.sent code message)) → Q (t.note (.sent code message))) :
    (Supervisor.sendIfConnected code message s).All (fun sent t => if sent then Q t else Amid sup t)
      (fun _ => Spared sup Anything) (Spared sup Anything) := by
  refine (h.sendIfConnected code message).mono (fun sent t ht => ?_) (fun _ _ h => h) (fun _ h => h)
  cases sent with
  | true =>
    obtain ⟨u, hu, hsu, -, rfl⟩ := ht
    exact hQ u hsu (hu.sent hcode message)
  | false => exact ht.1

theorem Amid.join {s : Sys} (h : Amid sup s) (events : List ReceiveEvent) (now : Instant) :
    Amid sup (s.join events now) := by
  have hconnected : Spared sup (Unasked true) (s.note .connected) := by
    refine Spared.observe (c := Unasked s.run.connection.isSome) h (fun hkilled => by cases hkilled) ?_
    show Farewell.step s.farewell (s.clock, .connected) = ⟨true, none⟩
    rw [show s.farewell = _ from h.now]
    rfl
  have htimed : (s.join events now).timed =
      (s.note .connected).timed ++ events.map (fun event => (s.clock, .delivered event)) := by
    simp [Sys.join, Sys.note]
  have hdelivered : ∀ x ∈ events.map (fun event => (s.clock, Obs.delivered event)), x.2.indifferent := by
    intro x hx
    obtain ⟨event, -, rfl⟩ := List.mem_map.1 hx
    trivial
  refine ⟨?_, ?_⟩
  · rw [htimed]
    exact hconnected.always.append _ (fun x hx m => (hdelivered x hx).spares sup m x.1)
  · show Supervisor.farewell.after (s.join events now).timed = ⟨true, none⟩
    rw [htimed, Monitor.after_append _ _ _ (fun x hx m => (hdelivered x hx).step m x.1)]
    exact hconnected.now

/-- The greeting of a connection. -/
theorem Amid.send {code : UInt8} (hcode : code ≠ STOP) (message : Text) {s : Sys} (h : Amid sup s) :
    (Supervisor.send code message s).All (fun _ => Amid sup) (fun _ => Spared sup Anything) (Spared sup Anything) := by
  refine (send_writes (R := Apart) code message s).mono (fun _ t ht => ?_) (fun _ t ht => ?_)
    (fun t ht => (h.after ht).any)
  · obtain ⟨-, u, hu, rfl⟩ := ht
    exact (h.after hu).sent hcode message
  · obtain ⟨u, hu, rfl⟩ := ht
    exact ((h.after hu).after (apart_note u (o := .sendFailed) trivial)).any

theorem Amid.connect {s : Sys} (h : Amid sup s) (events : List ReceiveEvent) :
    (connect sup events s).All (fun _ => Amid sup) (fun _ => Spared sup Anything) (Spared sup Anything) := by
  have hsend : ∀ code message, code ≠ STOP → Within (Amid sup) (Spared sup Anything) (Supervisor.send code message) :=
    fun code message hcode t ht => ht.send hcode message
  have hkeeps : ∀ {α : Type} {p : Run α}, Keeps Apart p → Within (Amid sup) (Spared sup Anything) p :=
    fun hp => within_of_keeps carried_amid hp
  have hwhole : Within (Amid sup) (Spared sup Anything) (Supervisor.connect sup events) := by
    unfold Supervisor.connect
    refine within_bind (hsend _ _ (by decide)) (fun _ => within_bind (hkeeps keeps_ask) (fun a => ?_))
    refine within_bind (hsend _ _ (by decide)) (fun _ => within_bind (hsend _ _ (by decide)) (fun _ => ?_))
    refine within_bind (hsend _ _ (by decide)) (fun _ => within_bind (hkeeps keeps_getRun) (fun run => ?_))
    refine within_bind (hkeeps (keeps_runIf (keeps_log (not_marker_of_level (by decide))))) (fun _ => ?_)
    refine within_bind (hkeeps keeps_now) (fun now t ht => ?_)
    rw [all_bind, all_modify]
    exact (ht.join events now).after (apart_note _ trivial)
  exact hwhole s h

/-- **The shutdown**: `STOP` is written and the JVM has its time, or it cannot be told. -/
theorem Amid.shutdown (exitCode : Int) {s : Sys} (h : Amid sup s) :
    (shutdownAndDrain sup exitCode s).All (fun _ => Spared sup Anything) (fun _ => Spared sup Anything)
      (Spared sup Anything) := by
  rw [shutdownAndDrain_eq]
  refine carried_amid.bind h (keeps_tryWait_of (fun s _ _ => apart_note s trivial)) (fun status t ht => ?_)
  cases status with
  | some code => exact within_of_preserves (keeps_drainRemainingOutput sup) ht
  | none =>
    simp only
    unfold stopChild
    rw [all_bind]
    refine (ht.sendIfConnected STOP (Text.ofInt exitCode)).mono (fun sent u hu => ?_) (fun _ _ h => h) (fun _ h => h)
    cases sent with
    | false =>
      have hlost : Spared sup (Overdue sup) u := by
        refine Spared.mono hu.1 (fun m hm => ?_)
        rw [hu.2] at hm
        rw [show m = _ from hm]
        rfl
      exact hlost.terminate
    | true =>
      obtain ⟨v, hv, -, -, rfl⟩ := hu
      have hasked : Spared sup (Asked v.clock) (v.note (.sent STOP (Text.ofInt exitCode))) :=
        Spared.observe hv (fun hkilled => by cases hkilled) ⟨rfl, Nat.le_refl _⟩
      rw [if_pos rfl, all_bind]
      refine hasked.waitForExit.mono (fun exited w hw => ?_) (fun _ _ h => h) (fun _ h => h)
      cases exited with
      | true => exact hw
      | false =>
        have hafter : Keeps (Preserves (Spared sup (Overdue sup))) (afterTimeout sup) :=
          stops_afterTimeout (E := Preserves (Spared sup (Overdue sup))) (B := Preserves (Spared sup (Overdue sup)))
            (keeps_drainRemainingOutput sup).stops (keeps_waitForOutput sup).stops keeps_terminateChild.stops
        exact within_of_preserves hafter hw

/-! ## The run -/

theorem Amid.setPausedInPlace {s : Sys} (h : Amid sup s) (paused : Bool) : Amid sup (s.setPausedInPlace paused) :=
  Spared.same h rfl (Nat.le_refl _)

theorem acts_amid (sup : Supervisor) : Acts sup Apart (Amid sup) (Spared sup Anything) where
  inside := carried_amid
  outside := carried_spared
  held _ _ h := h.held
  tells code message hm s hs := by
    have hcode : code ≠ STOP := by
      cases hm with
      | _ => decide
    refine (hs.told hcode message (Amid sup) (fun _ _ h => h)).mono (fun sent t ht => ?_) (fun _ _ h => h) (fun _ h => h)
    cases sent with
    | _ => exact ht
  pauses s hs _ := hs.told (by decide) "0" (fun t => Amid sup (t.setPausedInPlace true))
    (fun _ _ h => h.setPausedInPlace true)
  resumes s hs _ := hs.told (by decide) "0" (fun t => Amid sup (t.setPausedInPlace false))
    (fun _ _ h => h.setPausedInPlace false)
  drops s hs := hs.markDisconnected.mono (fun _ _ ht => ht.1) (fun _ _ h => h) (fun _ h => h)
  greets events s hs _ := hs.connect events
  shuts code s hs := hs.shutdown code

theorem Amid.selected {s t : Sys} {arm : Arm} (h : Amid sup s) (hsel : Selected s arm t) : Amid sup t := by
  cases hsel with
  | line line rest _ =>
    exact Amid.after (s := { s with output := rest }) (Spared.same h rfl (Nat.le_refl _)) (apart_note _ trivial)
  | outputClosed => exact h
  | control c rest _ =>
    exact Amid.after (s := { s with controls := rest }) (Spared.same h rfl (Nat.le_refl _)) (apart_note _ trivial)
  | controlsClosed => exact h.after (apart_note _ trivial)
  | event event rest hc =>
    have hsame : Amid sup { s with run := { s.run with connection := some rest } } := by
      unfold Amid at h ⊢
      rw [hc] at h
      exact h.same rfl (Nat.le_refl _)
    exact hsame.after (apart_note _ trivial)
  | channelClosed hc => exact h.after (apart_note _ trivial)
  | tick next => exact Spared.same h rfl (Nat.le_refl _)

theorem spared_runOnce (jvmId : Nat) (resuming : Bool) {s : Sys} (h : Spared sup Anything s) :
    (runOnce sup jvmId resuming s).All (fun _ => Spared sup Anything) (fun _ => Spared sup Anything)
      (Spared sup Anything) := by
  have hfresh : Carried Apart (Spared sup (Unasked false)) (Spared sup Anything) (Spared sup Anything) := carried_spared
  refine all_runOnce_of carried_spared hfresh carried_spared (fun _ h => h.same rfl (Nat.le_refl _)) (fun t ht => ?_)
    (fun t ht => ht.note trivial) (fun _ _ h => h) (fun t ht => ?_) (fun t command key pid launchedAt now ht => ?_) s h
  · exact Spared.observe (s := { t with children := .running :: t.children, output := [], outputOpen := true })
      (c := Anything) ⟨ht.always, trivial⟩ (fun hkilled => by cases hkilled) rfl
  · have hoverdue : Spared sup (Overdue sup) t := ht.mono (fun m hm => by rw [show m = _ from hm]; rfl)
    exact within_of_preserves keeps_terminateChild hoverdue
  · have hamid : Amid sup { t with run := .launched sup jvmId resuming command key pid launchedAt now } :=
      Spared.same ht rfl (Nat.le_refl _)
    exact ((acts_amid sup).eventLoop (fun _ _ _ hs hsel => hs.selected hsel) hamid).mono
      (fun _ _ h => h.same rfl (Nat.le_refl _)) (fun _ _ h => h) (fun _ h => h)

theorem Obs.outer.indifferent {o : Obs} (h : o.outer) : o.indifferent := by
  cases o with
  | spawned id => cases h
  | connected => cases h
  | dropped unread => cases h
  | sent code message => cases h
  | killed => cases h
  | _ => trivial

end Run

end Supervisor
end Jss
