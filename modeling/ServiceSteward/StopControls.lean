import ServiceSteward.Phases
/-!
# StopControls — a Stop of the service manager's and the control channel

The handler reports `StopPending` and offers `Control::Stop` to a channel of 32 controls; the offer's result is ignored.
The supervisor takes controls out in order and puts none back, so what it has read and what it will find in the channel
are exactly the controls that there was room for.
-/
namespace Jss
namespace Supervisor

open Protocol (ReceiveEvent)
open Scripted
open Service

/-! ## What was offered, and what was sent -/

def Obs.heard : Obs → Option Control
  | .control _ c => c
  | _ => none

def Sys.taken (s : Sys) : List Control := s.trace.filterMap Obs.heard

end Supervisor

namespace Service

open Supervisor (Control)

/-- The handler tells the service manager that the service is stopping. -/
def Handling.announcesStop (handling : Handling) : Bool :=
  handling.report.any (fun status => status.currentState = .stopPending) && handling.result = .noError

theorem announcesStop_iff (settings : Settings) (event : ServiceControl) :
    (handler settings event).announcesStop = true ↔ (handler settings event).control = some .stop := by
  cases event with
  | pause =>
    simp only [handler]
    split <;> simp [Handling.announcesStop, setStatus]
  | resume =>
    simp only [handler]
    split <;> simp [Handling.announcesStop, setStatus]
  | userEvent code =>
    simp only [handler, Handling.announcesStop]
    split
    · simp
    · split <;> simp
  | _ => simp [handler, Handling.announcesStop, setStatus]

namespace Offer

/-- What an offer adds to the channel. -/
def sent : Offer → List Control
  | .direct control => [control]
  | .handled handling queued => if queued < controlCapacity then handling.control.toList else []

def isStop : Offer → Bool
  | .direct control => control = .stop
  | .handled handling _ => handling.announcesStop

def fits : Offer → Bool
  | .direct _ => true
  | .handled _ queued => queued < controlCapacity

/-- An offer that the handler can make. -/
def Handles : Offer → Prop
  | .direct _ => True
  | .handled handling _ => ∃ settings event, handling = handler settings event

theorem count_sent {offer : Offer} (h : offer.Handles) :
    offer.sent.count .stop = if offer.isStop && offer.fits then 1 else 0 := by
  cases offer with
  | direct control =>
    by_cases hstop : control = .stop
    · simp [sent, isStop, fits, hstop]
    · simp [sent, isStop, fits, hstop]
  | handled handling queued =>
    obtain ⟨settings, event, rfl⟩ := h
    have hiff := announcesStop_iff settings event
    simp only [sent, isStop, fits]
    by_cases hroom : queued < controlCapacity
    · cases hcontrol : (handler settings event).control with
      | none =>
        rw [hcontrol] at hiff
        simp [hroom, hiff]
      | some control =>
        rw [hcontrol] at hiff
        by_cases hstop : control = .stop
        · simp [hroom, hiff.2 (by rw [hstop]), hstop]
        · have hnot : (handler settings event).announcesStop = false := by
            simpa [hstop] using hiff
          simp [hroom, hnot, hstop]
    · simp [hroom]

/-- The Stops that were sent and those that were lost are all the Stops. -/
theorem count_sent_add_lost : ∀ {offers : List Offer}, (∀ offer ∈ offers, offer.Handles) →
    (offers.flatMap sent).count .stop + offers.countP (fun offer => offer.isStop && !offer.fits) =
      offers.countP isStop
  | [], _ => rfl
  | offer :: offers, h => by
    have ih := count_sent_add_lost (fun o ho => h o (List.mem_cons_of_mem _ ho))
    have hone := count_sent (h offer (by simp))
    rw [List.flatMap_cons, List.count_append, List.countP_cons, List.countP_cons, hone]
    cases hstop : offer.isStop
    · simp
      omega
    · cases hfits : offer.fits
      · simp
        omega
      · simp
        omega

end Offer
end Service

namespace Supervisor

open Protocol (ReceiveEvent)
open Scripted
open Service

/-! ## The accounting -/

/-- **Every control that was sent has been read or is in the channel**, in order. -/
structure Conserved (s : Sys) : Prop where
  sent : s.taken ++ s.controls = s.offers.flatMap Offer.sent
  handles : ∀ offer ∈ s.offers, offer.Handles

theorem Conserved.same {s t : Sys} (h : Conserved s) (ht : t.trace = s.trace) (hcontrols : t.controls = s.controls)
    (hoffers : t.offers = s.offers) : Conserved t := by
  constructor
  · rw [Sys.taken, ht, hcontrols, hoffers]
    exact h.sent
  · rw [hoffers]
    exact h.handles

theorem Conserved.note {s t : Sys} {o : Obs} (h : Conserved s) (ht : t.trace = s.trace ++ [o])
    (hcontrols : t.controls = s.controls) (hoffers : t.offers = s.offers) (ho : o.heard = none) : Conserved t := by
  constructor
  · have htaken : t.taken = s.taken := by simp [Sys.taken, ht, ho]
    rw [htaken, hcontrols, hoffers]
    exact h.sent
  · rw [hoffers]
    exact h.handles

theorem Conserved.offer {s t : Sys} (offer : Offer) (h : Conserved s) (ht : t.trace = s.trace)
    (hcontrols : t.controls = s.controls ++ offer.sent) (hoffers : t.offers = s.offers ++ [offer])
    (hhandles : offer.Handles) : Conserved t := by
  constructor
  · rw [Sys.taken, ht, hcontrols, hoffers, List.flatMap_append, ← h.sent]
    simp [Sys.taken]
  · intro o ho
    rw [hoffers] at ho
    rcases List.mem_append.1 ho with ho | ho
    · exact h.handles o ho
    · rw [List.mem_singleton.1 ho]
      exact hhandles

theorem Conserved.take {s t : Sys} {site : ControlSite} {control : Control} {rest : List Control} (h : Conserved s)
    (hcontrols : s.controls = control :: rest) (ht : t.trace = s.trace ++ [.control site (some control)])
    (hrest : t.controls = rest) (hoffers : t.offers = s.offers) : Conserved t := by
  constructor
  · have hsent := h.sent
    rw [hcontrols] at hsent
    rw [Sys.taken, ht, hrest, hoffers, ← hsent]
    simp [Sys.taken, Obs.heard]
  · rw [hoffers]
    exact h.handles

theorem trySend_eq (controls : List Control) (handling : Service.Handling) :
    trySend controls handling.control = controls ++ (Offer.handled handling controls.length).sent := by
  cases hcontrol : handling.control with
  | none => simp [trySend, Offer.sent, hcontrol]
  | some control =>
    by_cases hroom : controls.length < controlCapacity
    · simp [trySend, Offer.sent, hcontrol, hroom]
    · simp [trySend, Offer.sent, hroom]

theorem conserved_move (s : Sys) (m : Move) (h : Conserved s) : Conserved (s.move m) := by
  cases m with
  | control c => exact h.offer (.direct c) rfl rfl rfl trivial
  | event event => exact h.offer (.handled _ _) rfl (trySend_eq _ _) rfl ⟨_, _, rfl⟩
  | deliver event =>
    simp only [Sys.move]
    split
    · exact h
    · exact h.note rfl rfl rfl rfl
  | output line => simp only [Sys.move]; split <;> exact h.same rfl rfl rfl
  | exit code => simp only [Sys.move]; split <;> exact h.same rfl rfl rfl
  | dumped worker result => simp only [Sys.move]; split <;> exact h.same rfl rfl rfl
  | _ => exact h.same rfl rfl rfl

theorem Obs.bland.heard {o : Obs} (h : o.bland) : o.heard = none := by
  cases o with
  | control site control => exact h.elim
  | _ => rfl

theorem Conserved.join {s : Sys} (h : Conserved s) (events : List ReceiveEvent) (now : Instant) :
    Conserved (s.join events now) := by
  constructor
  · have htaken : (s.join events now).taken = s.taken := by
      simp [Sys.taken, Sys.join, Obs.heard, List.filterMap_map, Function.comp_def]
    rw [htaken]
    exact h.sent
  · exact h.handles

instance : Steady (Preserves Conserved) where
  same hst h := h.same hst.trace hst.controls hst.offers
  move := conserved_move
  note _ _ ho h := h.note rfl rfl rfl ho.heard

instance : Talking (Preserves Conserved) where
  sent _ _ _ h := h.note rfl rfl rfl rfl
  sendFailed _ h := h.note rfl rfl rfl rfl
  drop _ _ _ h := h.note rfl rfl rfl rfl

instance : Killing (Preserves Conserved) where
  killed _ h := h.note rfl rfl rfl rfl
  reaped _ h := h.note rfl rfl rfl rfl
  reap _ _ _ h := h.same rfl rfl rfl

instance : Dumping (Preserves Conserved) where
  worker _ _ h := h.same rfl rfl rfl
  task _ _ h := h.same rfl rfl rfl
  dumping _ _ _ h := h.note rfl rfl rfl rfl

instance : Timing (Preserves Conserved) where
  nextPing _ _ h := h.same rfl rfl rfl
  answered _ _ h := h.same rfl rfl rfl
  check _ _ h := h.note rfl rfl rfl rfl

instance : Outputting (Preserves Conserved) where
  took _ _ _ _ _ h := h.note rfl rfl rfl rfl
  recorded _ _ h := h.note rfl rfl rfl rfl

instance : Kept (Preserves Conserved) where
  published _ _ h := h.note rfl rfl rfl rfl
  waited _ _ _ _ h := h.note rfl rfl rfl rfl
  batch _ _ h := h.note rfl rfl rfl rfl
  held _ _ h := h.same rfl rfl rfl
  join _ events now _ h := h.join events now

theorem Conserved.selected {s t : Sys} {arm : Arm} (h : Conserved s) (hsel : Selected s arm t) : Conserved t := by
  cases hsel with
  | control c rest hcontrols => exact h.take hcontrols rfl rfl rfl
  | line line rest _ => exact h.note rfl rfl rfl rfl
  | outputClosed => exact h
  | controlsClosed => exact h.note rfl rfl rfl rfl
  | event event rest _ => exact h.note rfl rfl rfl rfl
  | channelClosed _ => exact h.note rfl rfl rfl rfl
  | tick next => exact h.same rfl rfl rfl

theorem Conserved.heard {site : ControlSite} {s t : Sys} {control : Option Control} (h : Conserved s)
    (hc : Heard site s control t) : Conserved t := by
  cases hc with
  | item c rest hcontrols => exact h.take hcontrols rfl rfl rfl
  | closed => exact h.note rfl rfl rfl rfl

theorem outer_heard {o : Obs} (h : ∀ site control, o ≠ .control site control) : o.heard = none := by
  cases o with
  | control site control => exact absurd rfl (h site control)
  | _ => rfl

/-- **No control is lost once it is in the channel**, in any run. -/
theorem run_conserved (sup : Supervisor) (settings : Settings) (script : List Answer) :
    Conserved (run sup { script, service := settings }).state :=
  run_preserves (fun _ _ h => h.same rfl rfl rfl) (fun _ _ _ h hsel => h.selected hsel)
    (fun _ jvmId h => h.note (o := .spawned jvmId) rfl rfl rfl rfl) (fun _ _ h => h.note rfl rfl rfl rfl)
    (fun _ _ _ _ _ h hc => h.heard hc) (fun _ _ _ ho h => h.note rfl rfl rfl (outer_heard ho)) ⟨rfl, by simp⟩

/-! ## Stops -/

/-- As many Stops have been read or wait in the channel as were offered: those that the handler announced, and those put
there directly. -/
def StopsAvailable (s : Sys) : Prop := (s.taken ++ s.controls).count .stop = s.offers.countP Offer.isStop

/-- The channel had room whenever the handler announced a Stop. -/
def RoomForStops (s : Sys) : Prop :=
  ∀ handling queued, .handled handling queued ∈ s.offers → handling.announcesStop = true → queued < controlCapacity

instance (s : Sys) : Decidable (StopsAvailable s) := inferInstanceAs (Decidable (_ = _))

theorem Conserved.stops_iff {s : Sys} (h : Conserved s) : StopsAvailable s ↔ RoomForStops s := by
  have hcount := Offer.count_sent_add_lost h.handles
  rw [← h.sent] at hcount
  have hlost : StopsAvailable s ↔ s.offers.countP (fun offer => offer.isStop && !offer.fits) = 0 := by
    unfold StopsAvailable
    omega
  rw [hlost, List.countP_eq_zero]
  constructor
  · intro hnone handling queued hmem hstop
    have hoffer := hnone _ hmem
    simpa [Offer.isStop, Offer.fits, hstop] using hoffer
  · intro hroom offer hmem
    cases offer with
    | direct control => simp [Offer.fits]
    | handled handling queued =>
      have hfits := hroom handling queued hmem
      simpa [Offer.isStop, Offer.fits] using hfits

/-- **Every announced Stop is available to the supervisor** in a run exactly when none came to a full channel. -/
theorem announced_stops_are_available_iff (sup : Supervisor) (settings : Settings) (script : List Answer) :
    StopsAvailable (run sup { script, service := settings }).state ↔
      RoomForStops (run sup { script, service := settings }).state :=
  (run_conserved sup settings script).stops_iff

/-- While the supervisor waits for a thread dump, 32 user controls fill the channel, and then the service is stopped. -/
def stoppedWhileBusy : List Answer :=
  quiet 4 ++ connected ++ [{ moves := [.event (.userEvent 255)], source := .controls }] ++ quiet 2 ++
    [{ moves := List.replicate 32 (.event (.userEvent 200)) ++ [.event .stop] }] ++
    List.replicate 70 { source := .controls }

/-- The Stop is announced, and the supervisor has read every other control and finds none. -/
theorem full_channel_loses_a_stop :
    let s := (run (.sample ⟨[("jss.threaddump.method".toList, "JCMD".toList)], [], by decide⟩)
      { script := stoppedWhileBusy, service := {} }).state
    Offer.handled (handler {} .stop) 32 ∈ s.offers ∧ (handler {} .stop).announcesStop = true ∧
      s.taken = .threadDump :: List.replicate 32 (.user 200) ∧ s.controls = [] ∧ ¬ StopsAvailable s := by
  decide +kernel

end Supervisor
end Jss
