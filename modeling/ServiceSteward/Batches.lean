import ServiceSteward.OutputLines
/-!
# Batches — the lines behind one that ends the run

A filter action either goes on, taking nothing, or ends the run, shutting the JVM down on the way (`Judged`).  So the
loop over a batch records its lines up to the one that ends the run, and forgets the rest.
-/
namespace Jss
namespace Supervisor

open Scripted

variable {sup : Supervisor}

/-! ## Filter actions -/

/-- The outcome an action asks for. -/
def Answers : FilterAction → RunOutcome → Prop
  | .restart, o => ∃ elapsed, o = .restart elapsed false 0
  | .shutdown, o => o = .stop 0
  | .pause, o => o = .pause
  | _, _ => False

/-- A result is as a verdict says, and nothing is taken unless the run ends. -/
def Judgement (sup : Supervisor) (s : Sys) : Option FilterAction → Option RunOutcome → Sys → Prop
  | none, none, t => Silent sup s t
  | some action, some o, t => Answers action o ∧ Even sup s t
  | _, _, _ => False

/-- Only an action that ends the run fails otherwise than with its log. -/
def Failure (sup : Supervisor) (s : Sys) : Option FilterAction → Sys → Prop
  | none, t => Failed s t
  | some _, t => EvenOrFailed sup s t

/-- A program that ends the run as the verdict says, and goes on if there is none. -/
def Judged (sup : Supervisor) (verdict : Option FilterAction) (p : Run (Option RunOutcome)) : Prop :=
  ∀ s, NotInPlace sup s → (p s).All (Judgement sup s verdict) (fun _ => Failure sup s verdict) (fun _ => True)

section Judged

variable {verdict : Option FilterAction} {α : Type}

theorem judged_none : Judged sup none (pure none) := fun s _ => moved_refl s

theorem Judgement.after {r : Option RunOutcome} {s t u : Sys} (hst : Silent sup s t)
    (h : Judgement sup t verdict r u) : Judgement sup s verdict r u := by
  cases verdict with
  | none =>
    cases r with
    | none => exact trans_of (Silent sup) hst h
    | some o => exact h
  | some action =>
    cases r with
    | none => exact h
    | some o => exact ⟨h.1, trans_of (Even sup) hst.even h.2⟩

theorem Failure.after {s t u : Sys} (hst : Silent sup s t) (h : Failure sup t verdict u) : Failure sup s verdict u := by
  cases verdict with
  | none => exact Failed.after hst h
  | some action => exact After.after (C := EvenOrFailed sup) hst h

theorem failure_of_failed {s t : Sys} (h : Failed s t) : Failure sup s verdict t := by
  cases verdict with
  | none => exact h
  | some action => exact .inl h

theorem judged_bind {p : Run α} {f : α → Run (Option RunOutcome)} (hp : LogOnly sup p)
    (hf : ∀ a, Judged sup verdict (f a)) : Judged sup verdict (p >>= f) := by
  intro s hs
  rw [all_bind]
  refine (hp s).mono (fun a t ht => ?_) (fun _ _ h => failure_of_failed h) (fun _ h => h)
  exact (hf a t (ht.inPlace hs)).mono (fun r u hu => hu.after ht) (fun _ u hu => hu.after ht) (fun _ h => h)

theorem judged_of_logOnly {p : Run α} (h : LogOnly sup p) : Judged sup none (p >>= fun _ => pure none) :=
  judged_bind h (fun _ => judged_none)

/-- The verdict of a loop is the first one. -/
theorem judged_forEach {body : α → Run (Option RunOutcome)} {verdict : α → Option FilterAction}
    (h : ∀ a, Judged sup (verdict a) (body a)) :
    ∀ as : List α, Judged sup (as.findSome? verdict) (Prog.forEach body as)
  | [] => judged_none
  | a :: as => by
    intro s hs
    rw [Prog.forEach, all_bind, List.findSome?_cons]
    have hbody := h a s hs
    cases hv : verdict a with
    | none =>
      rw [hv] at hbody
      refine hbody.mono (fun r t ht => ?_) (fun _ t ht => failure_of_failed ht) (fun _ h => h)
      cases r with
      | none =>
        refine (judged_forEach h as t (Moved.inPlace ht hs)).mono (fun r u hu => ?_) (fun _ u hu => ?_) (fun _ h => h)
        · exact hu.after ht
        · exact hu.after ht
      | some o => exact ht.elim
    | some action =>
      rw [hv] at hbody
      refine hbody.mono (fun r t ht => ?_) (fun _ t ht => ht) (fun _ h => h)
      cases r with
      | none => exact ht.elim
      | some o => exact ht

variable (sup)

/-- A program that makes the outcome an action asks for. -/
def Makes (action : FilterAction) (p : Run RunOutcome) : Prop :=
  ∀ s, (p s).All (fun o t => Even sup s t ∧ Answers action o) (fun _ => EvenOrFailed sup s) (fun _ => True)

theorem judged_of_makes {action : FilterAction} {p : Run RunOutcome} (hp : Makes sup action p) :
    Judged sup (some action) (p >>= fun o => pure (some o)) := by
  intro s _
  rw [all_bind]
  exact (hp s).mono (fun o t ht => ⟨ht.2, ht.1⟩) (fun _ _ h => h) (fun _ h => h)

theorem makes_after {action : FilterAction} {p : Run Unit} {q : Run RunOutcome} (hp : EvenStops sup p)
    (hq : Makes sup action q) : Makes sup action (p >>= fun _ => q) := by
  intro s
  rw [all_bind]
  exact (hp s).mono (fun _ t ht => all_after (B := fun _ _ => True) ht (hq t)) (fun _ _ h => h) (fun _ h => h)

theorem makes_restartWith : Makes sup .restart (restartWith sup false 0) := by
  refine makes_after sup (even_shutdownAndDrain sup 0) (fun s => ?_)
  rw [all_bind]
  refine (keeps_elapsed (R := Even sup) s).mono (fun d t ht => ?_) (fun _ _ h => .inr h) (fun _ _ => trivial)
  exact ⟨ht, d, rfl⟩

theorem makes_stopWith : Makes sup .shutdown (stopWith sup 0) :=
  makes_after sup (even_shutdownAndDrain sup 0) (fun s => ⟨refl_of (Even sup) s, rfl⟩)

theorem judged_pause (hstops : sup.pausableStopsJvm = true) : Judged sup (some .pause) (pause sup) := by
  intro s _
  unfold pause
  rw [if_pos hstops, all_bind]
  refine (even_shutdownAndDrain sup 0 s).mono (fun _ t ht => ?_) (fun _ _ h => h) (fun _ h => h)
  exact ⟨rfl, trans_of (Even sup) ht (Silent.even (silent_note t rfl rfl (by simp)))⟩

theorem judged_pauseInPlace (hstops : sup.pausableStopsJvm = false) : Judged sup none (pause sup) := by
  unfold pause
  rw [hstops, if_neg (by decide)]
  refine judged_bind (logOnly_sendIfConnected sup _ _) (fun sent => ?_)
  split
  · refine judged_bind (fun s => ⟨⟨[], by simp, rfl, rfl, rfl⟩, fun _ h => ?_⟩) (fun _ => ?_)
    · rw [hstops] at h
      cases h
    · exact judged_of_logOnly (logOnly_publish sup _)
  · exact judged_none

/-- A filter pauses a JVM that is not paused yet. -/
theorem judged_pauseAction (matched : FilterMatch) :
    Judged sup (Option.guard sup.ends .pause) (applyAction sup matched .pause) := by
  have hlog : ∀ {verdict}, Judged sup verdict (pause sup) → Judged sup verdict (do
      log .status .wrapper (filterMessage matched.message "Filter action: pausing.")
      pause sup) := fun h => judged_bind (logOnly_log sup _ _ _) (fun _ => h)
  intro s hs
  unfold applyAction getRun
  simp only [all_bind, all_get, all_pure]
  cases hpausable : sup.pausable with
  | false =>
    rw [Bool.false_and, if_neg (by decide), Option.guard_eq_none_iff.2 (by simp [Supervisor.ends, hpausable])]
    exact judged_none s hs
  | true =>
    cases hstops : sup.pausableStopsJvm with
    | true =>
      rw [hs hstops, if_pos (by decide), Option.guard_eq_some_iff.2 ⟨rfl, by simp [Supervisor.ends, hpausable, hstops]⟩]
      exact hlog (judged_pause sup hstops) s hs
    | false =>
      rw [Option.guard_eq_none_iff.2 (by simp [Supervisor.ends, hstops])]
      split
      · exact hlog (judged_pauseInPlace sup hstops) s hs
      · exact judged_none s hs

theorem judged_applyAction (matched : FilterMatch) (action : FilterAction) :
    Judged sup (Option.guard sup.ends action) (applyAction sup matched action) := by
  cases action with
  | none => exact judged_none
  | debug => exact judged_of_logOnly (logOnly_log sup _ _ _)
  | dump => exact judged_bind (logOnly_log sup _ _ _) (fun _ => judged_of_logOnly (logOnly_requestThreadDump sup))
  | gc => exact judged_bind (logOnly_log sup _ _ _) (fun _ => judged_of_logOnly (logOnly_sendIfConnected sup _ _))
  | restart =>
    refine judged_bind (logOnly_log sup _ _ _) (fun _ => judged_bind (logOnly_publish sup _) (fun _ => ?_))
    exact judged_of_makes sup (makes_restartWith sup)
  | shutdown =>
    exact judged_bind (logOnly_log sup _ _ _) (fun _ => judged_of_makes sup (makes_stopWith sup))
  | pause => exact judged_pauseAction sup matched
  | resume =>
    refine judged_bind (logOnly_getRun sup) (fun run => ?_)
    split
    · exact judged_bind (logOnly_log sup _ _ _) (fun _ => judged_of_logOnly (logOnly_resume sup))
    · exact judged_none

theorem judged_applyFilterMatches (found : List FilterMatch) :
    Judged sup (found.findSome? (fun matched => matched.actions.find? sup.ends)) (applyFilterMatches sup found) := by
  refine judged_forEach (fun matched => ?_) found
  rw [List.find?_eq_findSome?_guard]
  exact judged_forEach (judged_applyAction sup matched) matched.actions

end Judged

/-! ## Batches -/

/-- The line is recorded, and then all that is taken. -/
def Handled (sup : Supervisor) (line : Bytes) (s t : Sys) : Prop := ∃ lines, Moved sup (line :: lines) lines s t

/-- What a line leads to: it is recorded, and then its filter's verdict is carried out. -/
def LineResult (sup : Supervisor) (line : Bytes) (s : Sys) : Option RunOutcome → Sys → Prop
  | none, t => sup.verdict line = none ∧ Moved sup [line] [] s t
  | some o, t => (∃ action, sup.verdict line = some action ∧ Answers action o) ∧ Handled sup line s t

theorem handleOutputLine_spec (sup : Supervisor) (line : Bytes) {s : Sys} (hs : NotInPlace sup s) :
    (handleOutputLine sup line s).All (LineResult sup line s)
      (fun _ t => Failed s t ∨ (sup.endsRun line = true ∧ Handled sup line s t)) (fun _ => True) := by
  unfold handleOutputLine
  rw [all_bind]
  refine (recordOutput_spec sup line s).mono (fun found t ht => ?_) (fun _ _ h => .inl h) (fun _ h => h)
  obtain ⟨rfl, ht⟩ := ht
  have handled : ∀ {u}, Even sup t u → Handled sup line s u := by
    rintro u ⟨lines, hu⟩
    exact ⟨lines, ht.trans hu⟩
  have hjudged := judged_applyFilterMatches sup (sup.found line) t (ht.inPlace hs)
  refine hjudged.mono (fun r u hu => ?_) (fun _ u hu => ?_) (fun _ h => h)
  · change Judgement sup t (sup.verdict line) r u at hu
    cases hv : sup.verdict line with
    | none =>
      rw [hv] at hu
      cases r with
      | none => exact ⟨hv, ht.trans hu⟩
      | some o => exact hu.elim
    | some action =>
      rw [hv] at hu
      cases r with
      | none => exact hu.elim
      | some o => exact ⟨⟨action, hv, hu.1⟩, handled hu.2⟩
  · change Failure sup t (sup.verdict line) u at hu
    cases hv : sup.verdict line with
    | none =>
      rw [hv] at hu
      exact .inl (Failed.after ht hu)
    | some action =>
      rw [hv] at hu
      exact hu.imp (fun h => h.after ht) (fun h => ⟨by rw [Supervisor.endsRun, hv]; rfl, handled h⟩)

/-- All that was taken is recorded, and no batch was cut short. -/
structure Accounted (sup : Supervisor) (s : Sys) : Prop where
  even : recorded s.trace = taken s.trace
  orderly : Orderly sup s.trace

/-- So it is between two turns of the event loop. -/
structure Clean (sup : Supervisor) (s : Sys) : Prop extends Accounted sup s where
  inPlace : NotInPlace sup s

/-- The lines taken are the lines recorded exactly if no batch was cut short. -/
def Exact (sup : Supervisor) (s : Sys) : Prop := recorded s.trace = taken s.trace ↔ Orderly sup s.trace

theorem Accounted.exact {s : Sys} (h : Accounted sup s) : Exact sup s := iff_of_true h.even h.orderly

theorem Moved.counts {rs ts : List Bytes} {s t : Sys} (h : Moved sup rs ts s t) :
    recorded t.trace = recorded s.trace ++ rs ∧ taken t.trace = taken s.trace ++ ts ∧
      batches t.trace = batches s.trace := by
  obtain ⟨new, htrace, hr, ht, hb⟩ := h.trace
  rw [htrace, recorded_append, taken_append, batches_append, hr, ht, hb, List.append_nil]
  exact ⟨rfl, rfl, rfl⟩

theorem Accounted.after {s t : Sys} (h : Accounted sup s) (hst : Even sup s t) : Accounted sup t := by
  obtain ⟨lines, hl⟩ := hst
  obtain ⟨hr, ht, hb⟩ := hl.counts
  refine ⟨by rw [hr, ht, h.even], ?_⟩
  unfold Orderly
  rw [hb]
  exact h.orderly

theorem Clean.after {s t : Sys} (h : Clean sup s) (hst : Even sup s t) : Clean sup t :=
  ⟨h.toAccounted.after hst, hst.elim (fun _ hl => hl.inPlace h.inPlace)⟩

theorem Clean.note {s t : Sys} {o : Obs} (h : Clean sup s) (ht : t.trace = s.trace ++ [o])
    (hp : t.run.pausedInPlace = s.run.pausedInPlace) (htaken : o.taken = []) (hrec : o.recordedLine = [])
    (hb : ∀ lines, o ≠ .took .batch lines) : Clean sup t := by
  have hmoved : Moved sup o.recordedLine o.taken s t := moved_one ht hb (fun hs hstops => by rw [hp]; exact hs hstops)
  rw [htaken, hrec] at hmoved
  exact h.after ⟨[], hmoved⟩

theorem failed_mem {s t : Sys} (h : Failed s t) : .logFailed ∈ t.trace := by
  obtain ⟨new, htrace, hmem⟩ := h
  rw [htrace]
  exact List.mem_append_right _ hmem

/-- A batch was taken, after a clean stretch, and none of its lines is recorded yet. -/
structure Batched (sup : Supervisor) (lines : List Bytes) (s : Sys) : Prop where
  open_ : taken s.trace = recorded s.trace ++ lines
  earlier : ∃ before, batches s.trace = before ++ [lines] ∧
    ∀ batch ∈ before, ∀ line ∈ batch.dropLast, sup.endsRun line = false
  inPlace : NotInPlace sup s

/-- No line before the last one ends the run exactly if the first that does is the last one. -/
theorem dropLast_quiet_iff {ends : Bytes → Bool} {done rest : List Bytes} {line : Bytes}
    (hdone : ∀ l ∈ done, ends l = false) (hline : ends line = true) :
    (∀ l ∈ (done ++ line :: rest).dropLast, ends l = false) ↔ rest = [] := by
  constructor
  · intro h
    by_contra hne
    have hmem : line ∈ (done ++ line :: rest).dropLast := by
      rw [List.dropLast_append_of_ne_nil (by simp), List.dropLast_cons_of_ne_nil hne]
      simp
    rw [h line hmem] at hline
    cases hline
  · rintro rfl
    simpa using hdone

/-- **A line that ends the run** leaves the rest of its batch unrecorded. -/
theorem Batched.ended {lines done rest : List Bytes} {line : Bytes} {s t : Sys} (h : Batched sup lines s)
    (hlines : lines = done ++ line :: rest) (hdone : ∀ l ∈ done, sup.endsRun l = false)
    (hline : sup.endsRun line = true) {u : Sys} (hs : Moved sup done [] s u) (ht : Handled sup line u t) :
    Exact sup t := by
  obtain ⟨after, hafter⟩ := ht
  obtain ⟨hr, ht, hb⟩ := (hs.trans hafter).counts
  obtain ⟨before, hbatches, hbefore⟩ := h.earlier
  have hequal : recorded t.trace = taken t.trace ↔ rest = [] := by
    rw [hr, ht, h.open_, hlines]
    constructor
    · intro heq
      have := congrArg List.length heq
      simp only [List.length_append, List.length_cons, List.length_nil] at this
      exact List.length_eq_zero_iff.1 (by omega)
    · rintro rfl
      simp
  have horderly : Orderly sup t.trace ↔ rest = [] := by
    have hquiet := @dropLast_quiet_iff sup.endsRun done rest line hdone hline
    rw [← hquiet, ← hlines]
    unfold Orderly
    rw [hb, hbatches]
    constructor
    · exact fun ho => ho lines (by simp)
    · intro ho batch hbatch
      rcases List.mem_append.1 hbatch with hbatch | hbatch
      · exact hbefore batch hbatch
      · rw [List.mem_singleton.1 hbatch]
        exact ho
  exact hequal.trans horderly.symm

theorem Batched.done {lines : List Bytes} {s t : Sys} (h : Batched sup lines s)
    (hdone : ∀ l ∈ lines, sup.endsRun l = false) (hs : Moved sup lines [] s t) : Clean sup t := by
  obtain ⟨hr, ht, hb⟩ := hs.counts
  obtain ⟨before, hbatches, hbefore⟩ := h.earlier
  refine ⟨⟨by rw [hr, ht, h.open_, List.append_nil], ?_⟩, hs.inPlace h.inPlace⟩
  unfold Orderly
  rw [hb, hbatches]
  intro batch hbatch
  rcases List.mem_append.1 hbatch with hbatch | hbatch
  · exact hbefore batch hbatch
  · rw [List.mem_singleton.1 hbatch]
    exact fun l hl => hdone l (List.dropLast_subset _ hl)

/-- **The loop over a batch**, line by line. -/
theorem batchLoop_spec (sup : Supervisor) {lines : List Bytes} {s : Sys} (h : Batched sup lines s) :
    ((Prog.forEach (handleOutputLine sup) lines) s).All
      (fun r t => match r with | none => Clean sup t | some _ => Exact sup t)
      (fun _ t => .logFailed ∈ t.trace ∨ Exact sup t) (fun _ => True) := by
  refine all_forEach (I := fun rest t => ∃ done, lines = done ++ rest ∧ (∀ l ∈ done, sup.endsRun l = false) ∧
    Moved sup done [] s t) (fun line rest t ht => ?_) (fun t ht => ?_) lines s ⟨[], rfl, by simp, moved_refl s⟩
  · obtain ⟨done, hlines, hdone, hst⟩ := ht
    refine (handleOutputLine_spec sup line (hst.inPlace h.inPlace)).mono (fun r u hu => ?_) (fun _ u hu => ?_)
      (fun _ h => h)
    · cases r with
      | none =>
        refine ⟨done ++ [line], by rw [hlines, List.append_assoc]; rfl, fun l hl => ?_, hst.trans hu.2⟩
        rcases List.mem_append.1 hl with hl | hl
        · exact hdone l hl
        · rw [List.mem_singleton.1 hl, Supervisor.endsRun, hu.1]
          rfl
      | some o =>
        obtain ⟨⟨action, hverdict, -⟩, hhandled⟩ := hu
        exact h.ended hlines hdone (by rw [Supervisor.endsRun, hverdict]; rfl) hst hhandled
    · exact hu.imp failed_mem (fun hu => h.ended hlines hdone hu.1 hst hu.2)
  · obtain ⟨done, hlines, hdone, hst⟩ := ht
    rw [List.append_nil] at hlines
    rw [← hlines] at hdone hst
    exact h.done hdone hst

/-! ## The run of one JVM -/

/-- What is said of a run that fails. -/
def FailedOrExact (sup : Supervisor) (s : Sys) : Prop := .logFailed ∈ s.trace ∨ Exact sup s

theorem Clean.taking {s t : Sys} {lines : List Bytes} (h : Clean sup s) (ht : t.trace = s.trace ++ [.took .batch lines])
    (hp : t.run.pausedInPlace = s.run.pausedInPlace) : Batched sup lines t where
  open_ := by
    rw [ht, taken_append, recorded_append, h.even]
    simp [taken, recorded, Obs.taken, Obs.recordedLine]
  earlier := ⟨batches s.trace, by rw [ht, batches_append]; rfl, h.orderly⟩
  inPlace := by
    unfold NotInPlace
    rw [hp]
    exact h.inPlace

theorem handleOutputBatch_spec {s t : Sys} {first : Bytes} (h : Clean sup s)
    (ht : t.trace = s.trace ++ [.took .select [first]]) (hp : t.run.pausedInPlace = s.run.pausedInPlace) :
    (handleOutputBatch sup first t).All (fun r u => match r with | none => Clean sup u | some _ => Exact sup u)
      (fun _ => FailedOrExact sup) (fun _ => True) := by
  have hin : NotInPlace sup t := by
    unfold NotInPlace
    rw [hp]
    exact h.inPlace
  have htook : Moved sup [] [first] s t := moved_one (o := .took .select [first]) ht (by simp) (fun _ => hin)
  have hclean : ∀ {u}, Handled sup first t u → Clean sup u := by
    rintro u ⟨lines, hu⟩
    exact h.after ⟨first :: lines, htook.trans hu⟩
  unfold handleOutputBatch
  rw [all_bind]
  refine (handleOutputLine_spec sup first hin).mono (fun r u hu => ?_) (fun _ u hu => ?_) (fun _ h => h)
  · cases r with
    | none =>
      have hfirst := hclean ⟨[], hu.2⟩
      simp only
      rw [all_bind]
      refine (takeBatch_spec sup .batch _ u).mono (fun lines v hv => ?_)
        (fun _ _ h => .inl (failed_mem (h.after hu.2))) (fun _ h => h)
      obtain ⟨w, hw, htrace, hpaused⟩ := hv
      exact batchLoop_spec sup ((hfirst.after hw.even).taking htrace hpaused)
    | some o => exact (hclean hu.2).exact
  · exact hu.imp failed_mem (fun hu => (hclean hu.2).exact)

theorem eventLoop_exact (sup : Supervisor) {s : Sys} (h : Clean sup s) :
    (eventLoop sup s).All (fun _ => Exact sup) (fun _ => FailedOrExact sup) (fun _ => True) := by
  refine all_eventLoop (I := Clean sup) (fun t ht => ?_) (fun _ _ => trivial) s
    (fun next => h.after (Silent.even (silent_of_trace rfl rfl)))
  refine (select_spec (R := Even sup) t).mono (fun arm v hv => ?_) (fun _ _ h => h.elim) (fun _ _ => trivial)
  obtain ⟨u, hu, hsel⟩ := hv
  have hclean := ht.after hu
  have serve_arm : ∀ {arm v}, Clean sup v → (∀ line, arm ≠ .output (some line)) →
      (serve sup arm v).All (fun r w => match r with | none => Clean sup w | some _ => Exact sup w)
        (fun _ => FailedOrExact sup) (fun _ => True) := by
    intro arm v hv harm
    have c := closing_even sup
    refine (turn_serve c arm (fun line hline => absurd hline (harm line)) (fun _ _ _ => keeps_handleStarted c
      (fun w _ _ => silent_note w rfl rfl (by simp))) (fun _ => turn_tick_even sup) v).mono (fun r w hw => ?_)
      (fun _ w hw => ?_) (fun _ _ => trivial)
    · cases r with
      | none => exact hv.after (Silent.even hw)
      | some o => exact (hv.after hw.1).exact
    · exact hw.imp failed_mem (fun he => (hv.after he).exact)
  cases hsel with
  | line line rest _ => exact handleOutputBatch_spec hclean rfl rfl
  | outputClosed => exact serve_arm hclean (by simp)
  | control c rest _ => exact serve_arm (hclean.note (o := .control _ _) rfl rfl rfl rfl (by simp)) (by simp)
  | controlsClosed => exact serve_arm (hclean.note (o := .control _ _) rfl rfl rfl rfl (by simp)) (by simp)
  | event event rest _ => exact serve_arm (hclean.note (o := .received _) rfl rfl rfl rfl (by simp)) (by simp)
  | channelClosed => exact serve_arm (hclean.note (o := .received _) rfl rfl rfl rfl (by simp)) (by simp)
  | tick next => exact serve_arm (hclean.after (Silent.even (silent_of_trace rfl rfl))) (by simp)

/-- **Every line is recorded, once and in order, unless it stands in a batch behind one that ends the run**: in every
run of one JVM that returns or fails without having failed to write a record, the lines recorded are the lines taken
from the output channel exactly if no line of a batch but its last one matches a filter that ends the run. -/
theorem lines_are_recorded_iff (sup : Supervisor) (jvmId : Nat) (resuming : Bool) (s : Sys) :
    (runOnce sup jvmId resuming { s with trace := [] }).All
      (fun _ t => .logFailed ∉ t.trace → (recorded t.trace = taken t.trace ↔ Orderly sup t.trace))
      (fun _ t => .logFailed ∉ t.trace → (recorded t.trace = taken t.trace ↔ Orderly sup t.trace))
      (fun _ => True) := by
  have hcarried : Carried (Even sup) (Accounted sup) (FailedOrExact sup) (fun _ => True) :=
    ⟨fun _ _ h => h.after, fun _ h => .inr h.exact, fun _ _ => trivial⟩
  have hstart : Accounted sup { s with trace := [] } := ⟨rfl, by simp [Orderly, batches]⟩
  refine (all_runOnce (Q := fun _ => Exact sup) hcarried hcarried hcarried (fun _ h => ⟨h.even, h.orderly⟩)
    (fun t h => ?_) (fun t h => ?_) (fun _ _ h => h.exact) ?_ _ hstart).mono (fun _ _ h _ => h)
    (fun _ t h hfine => h.resolve_left hfine) (fun _ h => h)
  · exact h.after ⟨[], moved_one (o := .spawned jvmId) rfl (by simp) (fun hs => hs)⟩
  · exact h.after ⟨[], moved_one (o := .spawnFailed jvmId) rfl (by simp) (fun hs => hs)⟩
  · exact fun t command key pid launchedAt now h => eventLoop_exact sup ⟨⟨h.even, h.orderly⟩, fun _ => rfl⟩

def lines (texts : List String) : List Bytes := texts.map (fun text => Text.asBytes text)

/-- The word `boom` stops the supervisor. -/
def shutdownOnBoom : Supervisor :=
  .sample ⟨[("wrapper.filter.action.1", "SHUTDOWN"), ("wrapper.filter.trigger.1", "boom")], [], by decide⟩

/-- Three lines are in the channel when the event loop takes the first. -/
def boomScript : List Answer :=
  quiet 9 ++ [{ moves := (lines ["starting", "boom", "stack trace"]).map .output, source := .output }] ++ quiet 8 ++
    [{ moves := [.closeOutput] }] ++ quiet 1

/-- The line behind the one that stops the supervisor is taken and never recorded. -/
theorem line_behind_a_shutdown_is_lost :
    (runOnce shutdownOnBoom 1 false { script := boomScript }).result = some (.stop 0) ∧
    .logFailed ∉ (runOnce shutdownOnBoom 1 false { script := boomScript }).state.trace ∧
    taken (runOnce shutdownOnBoom 1 false { script := boomScript }).state.trace =
      lines ["starting", "boom", "stack trace"] ∧
    recorded (runOnce shutdownOnBoom 1 false { script := boomScript }).state.trace = lines ["starting", "boom"] := by
  decide +kernel

end Supervisor
end Jss
