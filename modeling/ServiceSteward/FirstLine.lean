import ServiceSteward.Batches
/-!
# FirstLine — the line that decides how a run ends

The event loop may read a line itself, or leave it to the drain once it has seen the exit.  `Undecided` observations
are those between two decisions of the loop, so the last decision of a run says what ended it (`Prompted`): a line, the
exit, or something else.
-/
namespace Jss
namespace Supervisor

open Protocol (ReceiveEvent)
open Scripted

variable {sup : Supervisor}

/-! ## What is asked -/

/-- Whether a line's filter ends the run with `RESTART` or `SHUTDOWN`. -/
def Supervisor.triggers (sup : Supervisor) (line : Bytes) : Bool :=
  sup.verdict line == some .restart || sup.verdict line == some .shutdown

/-- The lines the event loop takes up itself. -/
def Obs.served : Obs → List Bytes
  | .took .select lines | .took .batch lines => lines
  | _ => []

def served (trace : List Obs) : List Bytes := trace.flatMap Obs.served

/-- What the event loop takes up, and what it finds of the child. -/
def Obs.decides : Obs → Bool
  | .took .select _ | .took .batch _ | .control .eventLoop _ | .received _ | .waited .tick _ _ => true
  | _ => false

def lastDecision (trace : List Obs) : Option Obs := (trace.filter Obs.decides).getLast?

/-- A decision that is neither a line nor the exit. -/
def Obs.prompts : Obs → Bool
  | .control _ _ | .received _ | .waited _ none _ => true
  | _ => false

/-- A control, a packet or a timeout ended the run. -/
abbrev Prompted (trace : List Obs) : Prop := (lastDecision trace).any Obs.prompts = true

/-- The first line whose filter asks for `RESTART` or `SHUTDOWN` gets what it asks for. -/
def FirstLineDecides (sup : Supervisor) (o : RunOutcome) (trace : List Obs) : Prop :=
  ∀ line action, (taken trace).find? sup.triggers = some line → sup.verdict line = some action → Answers action o

/-- The event loop itself takes up the first line whose filter asks for `RESTART` or `SHUTDOWN`, and no line before it
that ends the run. -/
def ReadInTime (sup : Supervisor) (trace : List Obs) : Prop :=
  ∀ line, (taken trace).find? sup.triggers = some line → (served trace).find? sup.endsRun = some line

theorem endsRun_of_triggers {line : Bytes} (h : sup.triggers line = true) : sup.endsRun line = true := by
  unfold Supervisor.triggers at h
  unfold Supervisor.endsRun
  rcases Bool.or_eq_true_iff.1 h with h | h
  · rw [beq_iff_eq.1 h]
    rfl
  · rw [beq_iff_eq.1 h]
    rfl

structure EndedByLine (sup : Supervisor) (o : RunOutcome) (trace : List Obs) : Prop where
  line : ∃ line action, (served trace).find? sup.endsRun = some line ∧ sup.verdict line = some action ∧ Answers action o
  rest : ∃ lines, taken trace = served trace ++ lines

structure EndedByExit (sup : Supervisor) (o : RunOutcome) (trace : List Obs) : Prop where
  exited : ∃ elapsed exitCode, o = .exited elapsed exitCode
  quiet : ∀ line ∈ served trace, sup.endsRun line = false

theorem EndedByExit.iff {o : RunOutcome} {trace : List Obs} (h : EndedByExit sup o trace) :
    FirstLineDecides sup o trace ↔ ReadInTime sup trace := by
  obtain ⟨elapsed, exitCode, rfl⟩ := h.exited
  have hserved : (served trace).find? sup.endsRun = none := by
    rw [List.find?_eq_none]
    intro line hline
    rw [h.quiet line hline]
    decide
  unfold FirstLineDecides ReadInTime
  rw [hserved]
  constructor
  · intro hfirst line hline
    have htriggers := List.find?_some hline
    unfold Supervisor.triggers at htriggers
    rcases Bool.or_eq_true_iff.1 htriggers with hv | hv
    · obtain ⟨_, ho⟩ := hfirst line _ hline (beq_iff_eq.1 hv)
      cases ho
    · cases hfirst line _ hline (beq_iff_eq.1 hv)
  · intro hread line action hline
    cases hread line hline

/-- What a filter asks for is not what another kind of filter asks for. -/
theorem answers_unique {action action' : FilterAction} {o : RunOutcome} (h : Answers action o)
    (h' : Answers action' o) : action = action' := by
  cases action with
  | restart =>
    obtain ⟨elapsed, rfl⟩ := h
    cases action' with
    | restart => rfl
    | _ => cases h'
  | shutdown =>
    cases h
    cases action' with
    | shutdown => rfl
    | restart => obtain ⟨_, h'⟩ := h'; cases h'
    | _ => cases h'
  | pause =>
    cases h
    cases action' with
    | pause => rfl
    | restart => obtain ⟨_, h'⟩ := h'; cases h'
    | _ => cases h'
  | _ => exact h.elim

theorem EndedByLine.iff {o : RunOutcome} {trace : List Obs} (h : EndedByLine sup o trace) :
    FirstLineDecides sup o trace ↔ ReadInTime sup trace := by
  obtain ⟨line, action, hserved, hverdict, hanswers⟩ := h.line
  obtain ⟨rest, htaken⟩ := h.rest
  unfold FirstLineDecides ReadInTime
  rw [hserved]
  by_cases htriggers : sup.triggers line = true
  · -- the line that ended the run is the first to ask for it
    have hfirst : (taken trace).find? sup.triggers = some line := by
      obtain ⟨-, before, behind, hsplit, hquiet⟩ := List.find?_eq_some_iff_append.1 hserved
      rw [htaken, hsplit, List.append_assoc]
      refine List.find?_eq_some_iff_append.2 ⟨htriggers, before, behind ++ rest, rfl, fun l hl => ?_⟩
      rw [Bool.not_eq_true']
      by_contra hl'
      have hends := endsRun_of_triggers (Bool.not_eq_false _ ▸ hl')
      have := hquiet l hl
      rw [hends] at this
      cases this
    rw [hfirst]
    refine iff_of_true (fun l a hl ha => ?_) (fun l hl => hl)
    cases hl
    rw [hverdict] at ha
    cases ha
    exact hanswers
  · constructor
    · intro hfirst l hl
      have hl' := List.find?_some hl
      unfold Supervisor.triggers at hl' htriggers
      rw [hverdict] at htriggers
      rcases Bool.or_eq_true_iff.1 hl' with hv | hv
      · have := answers_unique hanswers (hfirst l _ hl (beq_iff_eq.1 hv))
        rw [this] at htriggers
        exact absurd (by decide) htriggers
      · have := answers_unique hanswers (hfirst l _ hl (beq_iff_eq.1 hv))
        rw [this] at htriggers
        exact absurd (by decide) htriggers
    · intro hread l a hl _
      have hl' := List.find?_some hl
      cases hread l hl
      exact absurd hl' htriggers

/-! ## Between two decisions -/

def Obs.undecided (o : Obs) : Prop := o.decides = false

theorem plain_undecided (o : Obs) (h : o.plain) : o.undecided := by
  cases o with
  | waited site status unread =>
    cases site with
    | tick => exact absurd rfl h.1
    | _ => rfl
  | took site lines => exact h.elim
  | control site control => exact h.elim
  | received event => exact h.elim
  | _ => rfl

instance : Quiet Obs.undecided where
  plain := plain_undecided
  delivered _ := rfl
  dropped _ := rfl

instance : Draining (Emits Obs.undecided) where
  took s site lines h h' := by
    refine emits_one rfl ?_
    cases site with
    | select => exact absurd rfl h
    | batch => exact absurd rfl h'
    | _ => rfl
  recorded _ _ := emits_one rfl rfl

theorem closing_undecided (sup : Supervisor) :
    Closing sup (.all (Emits Obs.undecided)) (fun _ => True) (fun _ _ => True) :=
  closing_all (lasting_true _) sup (fun _ _ _ => emits_one rfl rfl) (fun _ _ => emits_of_trace rfl) (fun _ => emits_of_trace rfl)
    (fun s events now _ => emits_join (K := Obs.undecided) rfl (fun _ => rfl) s events now) (fun _ _ _ => emits_one rfl rfl)

theorem lastDecision_append (a b : List Obs) :
    lastDecision (a ++ b) = (lastDecision b).or (lastDecision a) := by
  unfold lastDecision
  rw [List.filter_append, List.getLast?_append]

theorem lastDecision_of_undecided {s t : Sys} (h : Emits Obs.undecided s t) :
    lastDecision t.trace = lastDecision s.trace := by
  obtain ⟨new, htrace, hnew⟩ := h
  have hnone : lastDecision new = none := by
    unfold lastDecision
    rw [List.filter_eq_nil_iff.2 (fun o ho => by rw [hnew o ho]; decide)]
    rfl
  rw [htrace, lastDecision_append, hnone]
  rfl

theorem served_append (a b : List Obs) : served (a ++ b) = served a ++ served b := List.flatMap_append

theorem served_of_undecided {s t : Sys} (h : Emits Obs.undecided s t) : served t.trace = served s.trace := by
  obtain ⟨new, htrace, hnew⟩ := h
  have hnil : served new = [] := by
    refine List.flatMap_eq_nil_iff.2 (fun o ho => ?_)
    have := hnew o ho
    cases o with
    | took site lines =>
      cases site with
      | select => cases this
      | batch => cases this
      | _ => rfl
    | _ => rfl
  rw [htrace, served_append, hnil, List.append_nil]

/-! ## Reading lines -/

/-- Between two turns: nothing was drained, and no line that was read ends the run. -/
structure Reading (sup : Supervisor) (s : Sys) : Prop where
  even : taken s.trace = served s.trace
  quiet : ∀ line ∈ served s.trace, sup.endsRun line = false
  inPlace : NotInPlace sup s

/-- Nothing is taken and nothing decided. -/
abbrev Idles (sup : Supervisor) : Sys → Sys → Prop := Both (Silent sup) (Emits Obs.undecided)

theorem Reading.after {s t : Sys} (h : Reading sup s) (hst : Silent sup s t) (hserved : served t.trace = served s.trace) :
    Reading sup t := by
  obtain ⟨-, ht, -⟩ := hst.counts
  refine ⟨by rw [ht, List.append_nil, hserved, h.even], by rw [hserved]; exact h.quiet, hst.inPlace h.inPlace⟩

theorem Reading.idle {s t : Sys} (h : Reading sup s) (hst : Idles sup s t) : Reading sup t :=
  h.after hst.1 (served_of_undecided hst.2)

/-- Lines were taken up, and none of them is handled yet. -/
structure Serving (sup : Supervisor) (lines : List Bytes) (s : Sys) : Prop where
  even : taken s.trace = served s.trace
  earlier : ∃ before, served s.trace = before ++ lines ∧ ∀ line ∈ before, sup.endsRun line = false
  inPlace : NotInPlace sup s

theorem Reading.taking {s t : Sys} {lines : List Bytes} {o : Obs} (h : Reading sup s) (ht : t.trace = s.trace ++ [o])
    (htaken : o.taken = lines) (hserved : o.served = lines) (hp : t.run.pausedInPlace = s.run.pausedInPlace) :
    Serving sup lines t where
  even := by
    rw [ht, taken_append, served_append, h.even]
    simp [taken, served, htaken, hserved]
  earlier := ⟨served s.trace, by rw [ht, served_append]; simp [served, hserved], h.quiet⟩
  inPlace := by
    unfold NotInPlace
    rw [hp]
    exact h.inPlace

theorem Serving.ended {lines done rest : List Bytes} {line : Bytes} {action : FilterAction} {o : RunOutcome}
    {rs ts : List Bytes} {s t : Sys} (h : Serving sup lines s) (hlines : lines = done ++ line :: rest)
    (hdone : ∀ l ∈ done, sup.endsRun l = false) (hverdict : sup.verdict line = some action)
    (hanswers : Answers action o) (hmoved : Moved sup rs ts s t) (hundecided : Emits Obs.undecided s t) :
    EndedByLine sup o t.trace := by
  obtain ⟨before, hserved, hbefore⟩ := h.earlier
  have hsame := served_of_undecided hundecided
  obtain ⟨-, ht, -⟩ := hmoved.counts
  refine ⟨⟨line, action, ?_, hverdict, hanswers⟩, ts, by rw [ht, hsame, h.even]⟩
  rw [hsame, hserved, hlines, ← List.append_assoc]
  refine List.find?_eq_some_iff_append.2 ⟨by rw [Supervisor.endsRun, hverdict]; rfl, _, rest, rfl, fun l hl => ?_⟩
  rcases List.mem_append.1 hl with hl | hl
  · rw [hbefore l hl]
    rfl
  · rw [hdone l hl]
    rfl

theorem Serving.done {lines : List Bytes} {s t : Sys} {rs : List Bytes} (h : Serving sup lines s)
    (hdone : ∀ l ∈ lines, sup.endsRun l = false) (hmoved : Moved sup rs [] s t)
    (hundecided : Emits Obs.undecided s t) : Reading sup t := by
  obtain ⟨before, hserved, hbefore⟩ := h.earlier
  have hsame := served_of_undecided hundecided
  obtain ⟨-, ht, -⟩ := hmoved.counts
  refine ⟨by rw [ht, hsame, h.even, List.append_nil], fun l hl => ?_, hmoved.inPlace h.inPlace⟩
  rw [hsame, hserved] at hl
  rcases List.mem_append.1 hl with hl | hl
  · exact hbefore l hl
  · exact hdone l hl

/-- What a turn that reads lines leads to. -/
def ReadResult (sup : Supervisor) : Option RunOutcome → Sys → Prop
  | none, t => Reading sup t
  | some o, t => EndedByLine sup o t.trace

theorem line_spec (sup : Supervisor) (line : Bytes) {s : Sys} (hs : NotInPlace sup s) :
    (handleOutputLine sup line s).All (fun r t => LineResult sup line s r t ∧ Emits Obs.undecided s t)
      (fun _ _ => True) (fun _ => True) := by
  refine ((handleOutputLine_spec sup line hs).and (turn_handleOutputLine (closing_undecided sup) line s)).mono
    (fun r t ht => ⟨ht.1, Ways.relates ht.2⟩) (fun _ _ _ => trivial) (fun _ _ => trivial)

theorem readBatch_spec {lines : List Bytes} {s : Sys} (h : Serving sup lines s) :
    ((Prog.forEach (handleOutputLine sup) lines) s).All (ReadResult sup) (fun _ _ => True) (fun _ => True) := by
  refine all_forEach (I := fun rest t => ∃ done, lines = done ++ rest ∧ (∀ l ∈ done, sup.endsRun l = false) ∧
    Moved sup done [] s t ∧ Emits Obs.undecided s t) (fun line rest t ht => ?_) (fun t ht => ?_) lines s
    ⟨[], rfl, by simp, moved_refl s, emits_refl s⟩
  · obtain ⟨done, hlines, hdone, hst, hu⟩ := ht
    refine (line_spec sup line (hst.inPlace h.inPlace)).mono (fun r u hr => ?_) (fun _ _ h => h) (fun _ h => h)
    obtain ⟨hline, hu'⟩ := hr
    cases r with
    | none =>
      refine ⟨done ++ [line], by rw [hlines, List.append_assoc]; rfl, fun l hl => ?_, hst.trans hline.2,
        emits_trans hu hu'⟩
      rcases List.mem_append.1 hl with hl | hl
      · exact hdone l hl
      · rw [List.mem_singleton.1 hl, Supervisor.endsRun, hline.1]
        rfl
    | some o =>
      obtain ⟨⟨action, hverdict, hanswers⟩, lines', hmoved⟩ := hline
      exact h.ended hlines hdone hverdict hanswers (hst.trans hmoved) (emits_trans hu hu')
  · obtain ⟨done, hlines, hdone, hst, hu⟩ := ht
    rw [List.append_nil] at hlines
    exact h.done (hlines ▸ hdone) hst hu

theorem readOutput_spec {first : Bytes} {s : Sys} (h : Serving sup [first] s) :
    (handleOutputBatch sup first s).All (ReadResult sup) (fun _ _ => True) (fun _ => True) := by
  unfold handleOutputBatch
  rw [all_bind]
  refine (line_spec sup first h.inPlace).mono (fun r t hr => ?_) (fun _ _ h => h) (fun _ h => h)
  obtain ⟨hline, hu⟩ := hr
  cases r with
  | none =>
    have hreading : Reading sup t := by
      refine h.done (fun l hl => ?_) hline.2 hu
      rw [List.mem_singleton.1 hl, Supervisor.endsRun, hline.1]
      rfl
    simp only
    unfold takeBatch
    simp only [all_bind, all_get, all_modify, all_pure, emit]
    refine (ask_spec (R := Idles sup) t).mono (fun a u hu => ?_) (fun _ _ h => h.elim) (fun _ _ => trivial)
    exact readBatch_spec ((hreading.idle hu).taking (o := .took .batch _) rfl rfl rfl rfl)
  | some o =>
    obtain ⟨⟨action, hverdict, hanswers⟩, lines', hmoved⟩ := hline
    have hnone : ∀ l ∈ ([] : List Bytes), sup.endsRun l = false := by simp
    exact h.ended rfl hnone hverdict hanswers hmoved hu

/-! ## The other arms -/

def Decided (sup : Supervisor) (o : RunOutcome) (trace : List Obs) : Prop :=
  EndedByLine sup o trace ∨ EndedByExit sup o trace ∨ Prompted trace

def TurnResult (sup : Supervisor) : Option RunOutcome → Sys → Prop
  | none, t => Reading sup t
  | some o, t => Decided sup o t.trace

theorem prompted_after {s t : Sys} (h : Prompted s.trace) (hst : Emits Obs.undecided s t) : Prompted t.trace := by
  rw [Prompted, lastDecision_of_undecided hst]
  exact h

theorem prompted_of_last {s t : Sys} {o : Obs} (ht : t.trace = s.trace ++ [o]) (hdecides : o.decides = true)
    (h : o.prompts = true) : Prompted t.trace := by
  have hlast : lastDecision [o] = some o := by
    unfold lastDecision
    rw [List.filter_cons_of_pos hdecides]
    rfl
  rw [Prompted, ht, lastDecision_append, hlast]
  exact h

/-- Two views of one turn: what it takes, and what it decides. -/
theorem turn_views {p : Run (Option RunOutcome)} (hlines : Turn (lineWays sup) (fun _ _ => True) p)
    (hundecided : Turn (.all (Emits Obs.undecided)) (fun _ _ => True) p) {s : Sys} (h : Reading sup s)
    (hprompted : Prompted s.trace) : (p s).All (TurnResult sup) (fun _ _ => True) (fun _ => True) := by
  refine ((hlines s).and (hundecided s)).mono (fun r t ht => ?_) (fun _ _ _ => trivial) (fun _ _ => trivial)
  obtain ⟨hl, hu⟩ := ht
  cases r with
  | none => exact h.idle ⟨hl, hu⟩
  | some o => exact .inr (.inr (prompted_after hprompted hu.1))

theorem serve_prompted {arm : Arm} (hline : ∀ line, arm ≠ .output (some line)) (htick : arm ≠ .tick) {s : Sys}
    (h : Reading sup s) (hprompted : Prompted s.trace) :
    (serve sup arm s).All (TurnResult sup) (fun _ _ => True) (fun _ => True) := by
  have c := closing_even sup
  have c' := closing_undecided sup
  refine turn_views ?_ ?_ h hprompted
  · exact turn_serve c arm (fun line h => absurd h (hline line))
      (fun _ _ _ => keeps_handleStarted c (fun t _ _ => silent_note t rfl rfl (by simp))) (fun h => absurd h htick)
  · exact turn_serve c' arm (fun line h => absurd h (hline line))
      (fun _ _ _ => keeps_handleStarted c' (fun _ _ _ => emits_one rfl rfl)) (fun h => absurd h htick)

theorem returns_exitSeen (exitCode : Option Int) :
    Returns (fun o => ∃ elapsed code, o = .exited elapsed code) (exitSeen sup exitCode) :=
  returns_bind (fun _ => returns_bind (fun _ => returns_bind (fun elapsed => returns_pure ⟨elapsed, _, rfl⟩)))

/-- **The tick** ends the run for the exit, or for a timeout. -/
theorem tick_spec {s : Sys} (h : Reading sup s) :
    (tick sup s).All (TurnResult sup) (fun _ _ => True) (fun _ => True) := by
  unfold tick
  rw [all_bind]
  refine (keeps_pollHeapDump (R := Idles sup) s).mono (fun _ t ht => ?_) (fun _ _ _ => trivial) (fun _ _ => trivial)
  rw [all_bind]
  refine (tryWait_spec (R := Idles sup) .tick t).mono (fun status u hu => ?_) (fun _ _ _ => trivial)
    (fun _ _ => trivial)
  obtain ⟨v, hv, rfl, -⟩ := hu
  have hreading : Reading sup (v.note (.waited .tick status (v.run.connection.getD []))) := by
    refine ((h.idle ht).idle hv).after (silent_note v rfl rfl (by simp)) ?_
    exact (served_append v.trace _).trans (List.append_nil _)
  cases status with
  | some exitCode =>
    simp only
    rw [all_bind]
    refine ((yields_exitSeen (closing_undecided sup) exitCode _).and (returns_exitSeen exitCode _)).mono
      (fun o w hw => ?_) (fun _ _ _ => trivial) (fun _ _ => trivial)
    refine .inr (.inl ⟨hw.2, fun line hline => hreading.quiet line ?_⟩)
    rw [served_of_undecided hw.1.1] at hline
    exact hline
  | none =>
    exact turn_views (turn_alive (closing_even sup)) (turn_alive (closing_undecided sup)) hreading
      (prompted_of_last rfl rfl rfl)

theorem eventLoop_decided (sup : Supervisor) {s : Sys} (h : Reading sup s) :
    (eventLoop sup s).All (fun o t => Decided sup o t.trace) (fun _ _ => True) (fun _ => True) := by
  refine all_eventLoop (I := Reading sup) (fun t ht => ?_) (fun _ _ => trivial) s
    (fun next => h.idle ⟨silent_of_trace rfl rfl, emits_of_trace rfl⟩)
  refine (select_spec (R := Idles sup) t).mono (fun arm v hv => ?_) (fun _ _ h => h.elim) (fun _ _ => trivial)
  obtain ⟨u, hu, hsel⟩ := hv
  have hreading := ht.idle hu
  have hresult : (serve sup arm v).All (TurnResult sup) (fun _ _ => True) (fun _ => True) := by
    cases hsel with
    | line line rest _ =>
      have hserving : Serving sup [line] ({ u with output := rest }.note (.took .select [line])) :=
        hreading.taking (o := .took .select [line]) rfl rfl rfl rfl
      refine (readOutput_spec hserving).mono (fun r w hw => ?_) (fun _ _ h => h) (fun _ h => h)
      cases r with
      | none => exact hw
      | some o => exact .inl hw
    | outputClosed => exact hreading.idle ⟨silent_of_trace rfl rfl, emits_of_trace rfl⟩
    | control c rest _ =>
      refine serve_prompted (by simp) (by simp) (hreading.after ?_ ?_) (prompted_of_last rfl rfl rfl)
      · exact moved_one (o := .control .eventLoop (some c)) rfl (by simp) (fun hs => hs)
      · exact (served_append u.trace _).trans (List.append_nil _)
    | controlsClosed =>
      refine serve_prompted (by simp) (by simp) (hreading.after ?_ ?_) (prompted_of_last rfl rfl rfl)
      · exact silent_note u rfl rfl (by simp)
      · exact (served_append u.trace _).trans (List.append_nil _)
    | event event rest _ =>
      refine serve_prompted (by simp) (by simp) (hreading.after ?_ ?_) (prompted_of_last rfl rfl rfl)
      · exact moved_one (o := .received (some event)) rfl (by simp) (fun hs => hs)
      · exact (served_append u.trace _).trans (List.append_nil _)
    | channelClosed =>
      refine serve_prompted (by simp) (by simp) (hreading.after ?_ ?_) (prompted_of_last rfl rfl rfl)
      · exact silent_note u rfl rfl (by simp)
      · exact (served_append u.trace _).trans (List.append_nil _)
    | tick next => exact tick_spec (hreading.idle ⟨silent_of_trace rfl rfl, emits_of_trace rfl⟩)
  refine hresult.mono (fun r w hw => ?_) (fun _ _ h => h) (fun _ h => h)
  cases r with
  | none => exact hw
  | some o => exact hw

/-! ## The run of one JVM -/

/-- **The first line that asks for a restart or a shutdown decides the outcome, unless it is left to a drain**: in every
run of one JVM that returns and was not ended by a control, a packet or a timeout, the first line whose filter asks for
`RESTART` or `SHUTDOWN` gets it exactly if the event loop takes it up itself. -/
theorem first_line_decides_iff (sup : Supervisor) (jvmId : Nat) (resuming : Bool) (s : Sys) :
    (runOnce sup jvmId resuming { s with trace := [] }).All
      (fun o t => ¬ Prompted t.trace → (FirstLineDecides sup o t.trace ↔ ReadInTime sup t.trace))
      (fun _ _ => True) (fun _ => True) := by
  have hcarried : Carried (Idles sup) (fun t => taken t.trace = [] ∧ served t.trace = []) (fun _ => True)
      (fun _ => True) := by
    refine ⟨fun t u ht htu => ?_, fun _ _ => trivial, fun _ _ => trivial⟩
    obtain ⟨-, htaken, -⟩ := htu.1.counts
    exact ⟨by rw [htaken, ht.1]; rfl, by rw [served_of_undecided htu.2, ht.2]⟩
  refine (all_runOnce (Q := fun o t => Decided sup o t.trace ∨ taken t.trace = []) hcarried hcarried hcarried
    (fun _ h => h) (fun t h => ?_) (fun t h => ?_) (fun _ _ h => .inr h.1) ?_ _ ⟨rfl, rfl⟩).mono (fun o t h hnot => ?_)
    (fun _ _ _ => trivial) (fun _ _ => trivial)
  · exact ⟨(taken_append t.trace _).trans (by rw [h.1]; rfl), (served_append t.trace _).trans (by rw [h.2]; rfl)⟩
  · exact ⟨(taken_append t.trace _).trans (by rw [h.1]; rfl), (served_append t.trace _).trans (by rw [h.2]; rfl)⟩
  · intro t command key pid launchedAt now h
    have hreading : Reading sup
        { t with run := .launched sup jvmId resuming command key pid launchedAt now } := by
      refine ⟨h.1.trans h.2.symm, fun line hline => ?_, fun _ => rfl⟩
      change line ∈ served t.trace at hline
      rw [h.2] at hline
      cases hline
    exact (eventLoop_decided sup hreading).mono (fun _ _ h => .inl h) (fun _ _ h => h) (fun _ h => h)
  · rcases h with (hline | hexit | hprompted) | hnone
    · exact hline.iff
    · exact hexit.iff
    · exact absurd hprompted hnot
    · unfold FirstLineDecides ReadInTime
      rw [hnone]
      exact iff_of_true (fun _ _ h => by cases h) (fun _ h => by cases h)

/-- The word `boom` restarts the JVM. -/
def restartOnBoom : Supervisor :=
  .sample ⟨[("wrapper.filter.action.1", "RESTART"), ("wrapper.filter.trigger.1", "boom")], [], by decide⟩

/-- The JVM prints its last line and exits, and the ticker is served before the line is. -/
def lastWordsScript : List Answer :=
  quiet 9 ++ [{ moves := (lines ["boom"]).map .output ++ [.exit (some 3), .closeOutput, .elapse tickInterval] }] ++
    quiet 7

/-- The line is drained, and the run ends as if it had not been printed. -/
theorem last_line_is_not_acted_on :
    (runOnce restartOnBoom 1 false { script := lastWordsScript }).result = some (.exited tickInterval 3) ∧
    ¬ Prompted (runOnce restartOnBoom 1 false { script := lastWordsScript }).state.trace ∧
    recorded (runOnce restartOnBoom 1 false { script := lastWordsScript }).state.trace = lines ["boom"] ∧
    ¬ FirstLineDecides restartOnBoom (.exited tickInterval 3)
      (runOnce restartOnBoom 1 false { script := lastWordsScript }).state.trace := by
  have hfacts : (runOnce restartOnBoom 1 false { script := lastWordsScript }).result = some (.exited tickInterval 3) ∧
      ¬ Prompted (runOnce restartOnBoom 1 false { script := lastWordsScript }).state.trace ∧
      recorded (runOnce restartOnBoom 1 false { script := lastWordsScript }).state.trace = lines ["boom"] ∧
      (taken (runOnce restartOnBoom 1 false { script := lastWordsScript }).state.trace).find? restartOnBoom.triggers =
        some (Text.asBytes "boom") ∧
      restartOnBoom.verdict (Text.asBytes "boom") = some .restart := by
    decide +kernel
  obtain ⟨hresult, hprompted, hrecorded, htaken, hverdict⟩ := hfacts
  refine ⟨hresult, hprompted, hrecorded, fun h => ?_⟩
  obtain ⟨elapsed, ho⟩ := h _ _ htaken hverdict
  cases ho

end Supervisor
end Jss
