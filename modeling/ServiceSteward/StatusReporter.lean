import ServiceSteward.LossyChannel
import ServiceSteward.PendingControls
/-!
# StatusReporter — the events of the supervisor and the thread that reports the service's state

The supervisor publishes all its events into one channel of 512, and drops what finds no room.  The reporter takes them
out in order and reports a state for three kinds of them.  When the supervisor has returned, the reporter takes what is
left.
-/
namespace Jss
namespace Service

open Supervisor (EventKind)
open LossyChannel

def stateOf : EventKind → Option ServiceState
  | .jvmStarted _ _ => some .running
  | .servicePaused => some .paused
  | .serviceResumed => some .running
  | _ => none

def eventCapacity : Nat := 512

/-- The channel, what the reporter has reported, and whether a refused status has ended its thread. -/
structure Reporting where
  events : Channel EventKind := {}
  statuses : List ServiceStatus := []
  failed : Bool := false

/-- A publication, or a receive of the reporter's and whether the service manager refuses the status it leads to. -/
inductive Turn where
  | publish (kind : EventKind)
  | receive (refused : Bool)
  deriving DecidableEq, Repr

def Reporting.report (pausable refused : Bool) (s : Reporting) (kind : EventKind) : Reporting :=
  match stateOf kind with
  | none => s
  | some state =>
    if refused then { s with failed := true }
    else { s with statuses := s.statuses ++ [setStatus state 0 0 pausable] }

/-- `EventPublisher::publish`, and `event_receiver.recv` with what follows it.  A reporter that has ended has dropped its
end of the channel. -/
def Reporting.turn (pausable : Bool) (s : Reporting) : Turn → Reporting
  | .publish kind => if s.failed then s else { s with events := step eventCapacity s.events (.offer kind) }
  | .receive refused =>
    if s.failed then s
    else
      match s.events.waiting with
      | [] => s
      | kind :: _ => Reporting.report pausable refused { s with events := step eventCapacity s.events .take } kind

def Reporting.run (pausable : Bool) (turns : List Turn) : Reporting := turns.foldl (Reporting.turn pausable) {}

/-- The supervisor has returned, and the reporter takes what is left. -/
def Reporting.finish (pausable : Bool) (s : Reporting) : Reporting :=
  (List.replicate s.events.waiting.length (.receive false)).foldl (Reporting.turn pausable) s

def published (turns : List Turn) : List EventKind :=
  turns.filterMap (fun
    | .publish kind => some kind
    | .receive _ => none)

/-- Every event that stands for a state was published while there was room for it. -/
def RoomForStates (pausable : Bool) (turns : List Turn) : Prop :=
  ∀ before kind rest, turns = before ++ .publish kind :: rest → kind.reportsState = true →
    (Reporting.run pausable before).events.waiting.length < eventCapacity

/-! ## The reporter and its channel -/

/-- The reporter runs, and has reported the states of the events it took. -/
structure Reports (pausable : Bool) (s : Reporting) : Prop where
  runs : s.failed = false
  statuses : s.statuses = (s.events.taken.filterMap stateOf).map (fun state => setStatus state 0 0 pausable)

/-- The step of the channel that a turn is. -/
def stepOf : Turn → Step EventKind
  | .publish kind => .offer kind
  | .receive _ => .take

variable {pausable : Bool}

theorem turn_events {s : Reporting} (h : s.failed = false) (turn : Turn) :
    (s.turn pausable turn).events = step eventCapacity s.events (stepOf turn) := by
  cases turn with
  | publish kind => simp [Reporting.turn, h, stepOf]
  | receive refused =>
    cases hwaiting : s.events.waiting with
    | nil => simp [Reporting.turn, h, hwaiting, stepOf, step]
    | cons kind rest =>
      simp only [Reporting.turn, h, hwaiting, stepOf, Reporting.report]
      cases stateOf kind with
      | none => rfl
      | some state =>
        cases refused with
        | _ => rfl

theorem Reports.turn {s : Reporting} (h : Reports pausable s) {turn : Turn} (hturn : turn ≠ .receive true) :
    Reports pausable (s.turn pausable turn) := by
  obtain ⟨hruns, hstatuses⟩ := h
  cases turn with
  | publish kind =>
    by_cases hroom : s.events.waiting.length < eventCapacity
    · exact ⟨by simp [Reporting.turn, hruns], by simp [Reporting.turn, hruns, step, hroom, hstatuses]⟩
    · exact ⟨by simp [Reporting.turn, hruns], by simp [Reporting.turn, hruns, step, hroom, hstatuses]⟩
  | receive refused =>
    cases refused with
    | true => exact absurd rfl hturn
    | false =>
      cases hwaiting : s.events.waiting with
      | nil =>
        have hsame : s.turn pausable (.receive false) = s := by simp [Reporting.turn, hruns, hwaiting]
        rw [hsame]
        exact ⟨hruns, hstatuses⟩
      | cons kind rest =>
        cases hstate : stateOf kind with
        | none =>
          constructor
          · simp [Reporting.turn, hruns, hwaiting, Reporting.report, hstate]
          · simp [Reporting.turn, hruns, hwaiting, Reporting.report, hstate, step, hstatuses]
        | some state =>
          constructor
          · simp [Reporting.turn, hruns, hwaiting, Reporting.report, hstate]
          · simp [Reporting.turn, hruns, hwaiting, Reporting.report, hstate, step, hstatuses]

/-- **While no status is refused, the reporter is a receiver that takes one event after the other.** -/
theorem turns_reports : ∀ (turns : List Turn) {s : Reporting}, Reports pausable s →
    (∀ turn ∈ turns, turn ≠ .receive true) →
      Reports pausable (turns.foldl (Reporting.turn pausable) s) ∧
        (turns.foldl (Reporting.turn pausable) s).events = after eventCapacity s.events (turns.map stepOf)
  | [], _, h, _ => ⟨h, rfl⟩
  | turn :: turns, s, h, haccepted => by
    obtain ⟨hreports, hevents⟩ := turns_reports turns (h.turn (haccepted turn List.mem_cons_self))
      (fun t ht => haccepted t (List.mem_cons_of_mem _ ht))
    refine ⟨hreports, ?_⟩
    rw [List.foldl_cons, hevents, turn_events h.runs]
    rfl

theorem offered_map : ∀ turns : List Turn, offered (turns.map stepOf) = published turns
  | [] => rfl
  | .publish kind :: turns => by
    rw [List.map_cons, stepOf, offered, offered_map turns]
    rfl
  | .receive refused :: turns => offered_map turns

theorem room_iff {turns : List Turn} (haccepted : ∀ turn ∈ turns, turn ≠ .receive true) :
    Room eventCapacity EventKind.reportsState {} (turns.map stepOf) ↔ RoomForStates pausable turns := by
  have hstart : Reports pausable {} := ⟨rfl, rfl⟩
  have hevents : ∀ before rest, turns = before ++ rest →
      (Reporting.run pausable before).events = after eventCapacity {} (before.map stepOf) := by
    rintro before rest rfl
    exact (turns_reports before hstart (fun t ht => haccepted t (List.mem_append_left _ ht))).2
  constructor
  · intro h before kind rest heq hstate
    rw [hevents before _ heq]
    apply h (before.map stepOf) kind (rest.map stepOf) _ hstate
    rw [heq, List.map_append]
    rfl
  · intro h before kind rest heq hstate
    obtain ⟨before', later, rfl, rfl, hlater⟩ := List.map_eq_append_iff.1 heq
    obtain ⟨turn, rest', rfl, hturn, -⟩ := List.map_eq_cons_iff.1 hlater
    cases turn with
    | publish kind' =>
      cases hturn
      rw [← hevents before' _ rfl]
      exact h before' kind rest' rfl hstate
    | receive refused => cases hturn

/-- What was taken and what waits was published, in this order. -/
theorem turn_sublist (s : Reporting) (turn : Turn) {published : List EventKind}
    (h : (s.events.taken ++ s.events.waiting).Sublist published) :
    ((s.turn pausable turn).events.taken ++ (s.turn pausable turn).events.waiting).Sublist
      (published ++ Service.published [turn]) := by
  have hlonger : published.Sublist (published ++ Service.published [turn]) := List.sublist_append_left _ _
  by_cases hfailed : s.failed = true
  · have hsame : s.turn pausable turn = s := by
      cases turn with
      | publish kind => simp [Reporting.turn, hfailed]
      | receive refused => simp [Reporting.turn, hfailed]
    rw [hsame]
    exact h.trans hlonger
  · rw [turn_events (by simpa using hfailed)]
    cases turn with
    | publish kind =>
      by_cases hroom : s.events.waiting.length < eventCapacity
      · rw [stepOf, step, if_pos hroom, ← List.append_assoc]
        exact h.append (List.Sublist.refl _)
      · rw [stepOf, step_full hroom]
        exact h.trans hlonger
    | receive refused =>
      have hkeeps : (step eventCapacity s.events .take).taken ++ (step eventCapacity s.events .take).waiting =
          s.events.taken ++ s.events.waiting := by
        cases hwaiting : s.events.waiting with
        | nil => simp [step, hwaiting]
        | cons kind rest => simp [step, hwaiting]
      rw [stepOf, hkeeps]
      exact h.trans hlonger

theorem turns_sublist : ∀ (turns : List Turn) (s : Reporting) {published : List EventKind},
    (s.events.taken ++ s.events.waiting).Sublist published →
      ((turns.foldl (Reporting.turn pausable) s).events.taken ++
          (turns.foldl (Reporting.turn pausable) s).events.waiting).Sublist (published ++ Service.published turns)
  | [], s, published, h => by
    rw [Service.published, List.filterMap_nil, List.append_nil]
    exact h
  | turn :: turns, s, published, h => by
    have hrest := turns_sublist turns (s.turn pausable turn) (turn_sublist s turn h)
    rw [List.append_assoc] at hrest
    have hcons : Service.published [turn] ++ Service.published turns = Service.published (turn :: turns) := by
      rw [Service.published, Service.published, ← List.filterMap_append]
      rfl
    rwa [hcons] at hrest

theorem published_receives (n : Nat) : published (List.replicate n (.receive false)) = [] := by
  induction n with
  | zero => rfl
  | succ n ih => exact ih

theorem taken_sublist (turns : List Turn) :
    ((Reporting.run pausable turns).finish pausable).events.taken.Sublist (published turns) := by
  have hrun := @turns_sublist pausable turns {} [] (List.Sublist.refl [])
  have hfinish := @turns_sublist pausable
    (List.replicate (Reporting.run pausable turns).events.waiting.length (.receive false)) _ _ hrun
  rw [published_receives, List.append_nil, List.nil_append] at hfinish
  exact (List.sublist_append_left _ _).trans hfinish

theorem filterMap_stateOf : ∀ kinds : List EventKind,
    kinds.filterMap stateOf = (kinds.filter EventKind.reportsState).filterMap stateOf
  | [] => rfl
  | kind :: kinds => by
    have ih := filterMap_stateOf kinds
    cases kind with
    | jvmStarted id pid => exact congrArg (ServiceState.running :: ·) ih
    | servicePaused => exact congrArg (ServiceState.paused :: ·) ih
    | serviceResumed => exact congrArg (ServiceState.running :: ·) ih
    | _ => exact ih

/-- **The reporter receives what found room**: it takes events in the order they were published in.  As long as the
service manager refuses no status, it takes every event that stands for a state exactly where each was published while
there was room, reports the states of those it takes, and so, where there was room, all the states that were
published. -/
theorem states_received_iff (pausable : Bool) (turns : List Turn) :
    ((Reporting.run pausable turns).finish pausable).events.taken.Sublist (published turns) ∧
    ((∀ turn ∈ turns, turn ≠ .receive true) →
      ((((Reporting.run pausable turns).finish pausable).events.taken.filter EventKind.reportsState =
          (published turns).filter EventKind.reportsState) ↔ RoomForStates pausable turns) ∧
      ((Reporting.run pausable turns).finish pausable).statuses =
        (((Reporting.run pausable turns).finish pausable).events.taken.filterMap stateOf).map
          (fun state => setStatus state 0 0 pausable) ∧
      (RoomForStates pausable turns →
        ((Reporting.run pausable turns).finish pausable).statuses =
          ((published turns).filterMap stateOf).map (fun state => setStatus state 0 0 pausable))) := by
  refine ⟨taken_sublist turns, fun haccepted => ?_⟩
  have hstart : Reports pausable {} := ⟨rfl, rfl⟩
  obtain ⟨hreports, hevents⟩ := turns_reports turns hstart haccepted
  obtain ⟨hend, htaken⟩ := turns_reports
    (List.replicate (Reporting.run pausable turns).events.waiting.length (.receive false)) hreports
    (fun t ht => by rw [(List.mem_replicate.1 ht).2]; decide)
  have hall : ((Reporting.run pausable turns).finish pausable).events.taken =
      kept eventCapacity {} (turns.map stepOf) := by
    have hkept := @after_eq _ eventCapacity (turns.map stepOf) {}
    rw [← hevents] at hkept
    rw [List.map_replicate] at htaken
    calc ((Reporting.run pausable turns).finish pausable).events.taken
      _ = (Reporting.run pausable turns).events.taken ++ (Reporting.run pausable turns).events.waiting := by
        exact (congrArg Channel.taken htaken).trans (congrArg Channel.taken (after_takes _ _))
      _ = kept eventCapacity {} (turns.map stepOf) := hkept
  have hiff : (((Reporting.run pausable turns).finish pausable).events.taken.filter EventKind.reportsState =
      (published turns).filter EventKind.reportsState) ↔ RoomForStates pausable turns := by
    rw [hall, ← offered_map, filter_kept_iff, room_iff haccepted]
  have hstatuses : ((Reporting.run pausable turns).finish pausable).statuses =
      (((Reporting.run pausable turns).finish pausable).events.taken.filterMap stateOf).map
        (fun state => setStatus state 0 0 pausable) := hend.statuses
  refine ⟨hiff, hstatuses, fun hroom => ?_⟩
  rw [hstatuses, filterMap_stateOf, hiff.2 hroom, ← filterMap_stateOf]

theorem a_start_is_reported :
    ((Reporting.run true [.publish (.filterMatched 1), .publish (.jvmStarted 1 0), .receive false]).finish
      true).statuses = [setStatus .running 0 0 true] :=
  ((states_received_iff true [.publish (.filterMatched 1), .publish (.jvmStarted 1 0), .receive false]).2
    (by decide)).2.1

/-- A JVM starts while the matches of 512 lines wait. -/
def matchesThenStart : List Turn :=
  List.replicate 512 (.publish (.filterMatched 1)) ++ [.publish (.jvmStarted 1 0)]

/-- The service manager refuses the status of a start, and the service is paused. -/
def refusedThenPause : List Turn := [.publish (.jvmStarted 1 0), .receive true, .publish .servicePaused]

theorem states_not_received :
    (published matchesThenStart).filter EventKind.reportsState = [.jvmStarted 1 0] ∧
    (((Reporting.run true matchesThenStart).finish true).events.taken.filter EventKind.reportsState = [] ∧
      ((Reporting.run true matchesThenStart).finish true).statuses = []) ∧
    (published refusedThenPause).filter EventKind.reportsState = [.jvmStarted 1 0, .servicePaused] ∧
    ((Reporting.run true refusedThenPause).finish true).events.taken.filter EventKind.reportsState =
      [.jvmStarted 1 0] := by
  decide +kernel

/-- A filter that only looks, three lines that match it, and a JVM that reports its start after them. -/
def matchedBeforeStart : Supervisor.Sys :=
  (Supervisor.run (.sample ⟨[("wrapper.filter.action.1", "NONE"), ("wrapper.filter.trigger.1", "x")], [], by decide⟩)
    { script := Supervisor.quiet 4 ++ Supervisor.connected ++
        [{ moves := List.replicate 3 (.output [120]), source := .output }] ++ Supervisor.quiet 4 ++
        [{ moves := [.deliver (.packet ⟨Protocol.STARTED, []⟩)], source := .protocol }] ++ Supervisor.quiet 1 }).state

example :
    (matchedBeforeStart.trace.filterMap (fun o => match o with | .published kind => some kind | _ => none)).drop 3 =
      [.filterMatched 1, .filterMatched 1, .filterMatched 1, .jvmStarted 1 0] := by
  decide +kernel

end Service
end Jss
