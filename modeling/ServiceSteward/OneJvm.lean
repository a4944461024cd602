import ServiceSteward.Lifecycle
import ServiceSteward.Phases
/-!
# OneJvm — the launches of a whole run

`Launched n` holds from the `n`-th attempt on while no stop was read, `Ready n` when its child is gone again.  A launch
takes `Ready n` to `Ready (n + 1)` or ends the run (`runOnce_spec`).  `attempts` is what this makes of the phases of a
run, and `Safe` holds wherever a run is cut short.
-/
namespace Jss
namespace Supervisor

open Scripted

/-- What holds in every state of every run: at most one child is alive, nothing is launched after a stop was read, and
the attempts have the ids 1, 2, 3, .... -/
structure Safe (s : Sys) : Prop where
  one : OneAtMost s
  order : s.trace.Pairwise (fun o o' => o.stops → ¬ o'.launches)
  ids : ∃ n, launchIds s.trace = jvmIds n

/-- After `n` attempts, with no stop read and no marker written. -/
structure Launched (n : Nat) (s : Sys) : Prop where
  one : OneAtMost s
  quiet : ∀ o ∈ s.trace, ¬ o.stops ∧ o ≠ Obs.marker
  ids : launchIds s.trace = jvmIds n

/-- And no child alive. -/
structure Ready (n : Nat) (s : Sys) : Prop extends Launched n s where
  down : Down s

/-- The run is over but for its last record. -/
structure Over (s : Sys) : Prop extends Safe s where
  down : Down s
  unmarked : ∀ o ∈ s.trace, o ≠ Obs.marker

/-- How a run that returns leaves things. -/
structure Finished (s : Sys) : Prop extends Safe s where
  idle : Idle s
  marked : ∃ earlier, s.trace = earlier ++ [Obs.marker] ∧ Obs.marker ∉ earlier

/-! ## The invariants and the relation -/

theorem launchIds_append (a b : List Obs) : launchIds (a ++ b) = launchIds a ++ launchIds b := List.filterMap_append

theorem launchIds_of_between {new : List Obs} (h : ∀ o ∈ new, o.between) : launchIds new = [] := by
  refine List.filterMap_eq_nil_iff.2 (fun o ho => ?_)
  have := (h o ho).1
  cases o with
  | spawned id => exact absurd trivial this
  | spawnFailed id => exact absurd trivial this
  | _ => rfl

theorem Safe.after {s t : Sys} (h : Safe s) (hst : Both (Emits Obs.between) Lives s t) : Safe t := by
  obtain ⟨⟨new, htrace, hnew⟩, hlives⟩ := hst
  refine ⟨hlives.one h.one, ?_, ?_⟩
  · rw [htrace, List.pairwise_append]
    refine ⟨h.order, List.pairwise_of_forall_mem_list (fun _ _ o ho _ => (hnew o ho).1), ?_⟩
    exact fun _ _ o ho _ => (hnew o ho).1
  · obtain ⟨n, hn⟩ := h.ids
    exact ⟨n, by rw [htrace, launchIds_append, launchIds_of_between hnew, List.append_nil, hn]⟩

theorem Over.after {s t : Sys} (h : Over s) (hst : Both (Emits Obs.between) Lives s t) : Over t where
  toSafe := h.toSafe.after hst
  down := hst.2.down h.down
  unmarked := by
    obtain ⟨new, htrace, hnew⟩ := hst.1
    intro o ho
    rw [htrace] at ho
    rcases List.mem_append.1 ho with ho | ho
    · exact h.unmarked o ho
    · exact (hnew o ho).2

theorem Launched.after {n : Nat} {s t : Sys} (h : Launched n s) (hst : Both (Emits Obs.calm) Lives s t) :
    Launched n t := by
  obtain ⟨⟨new, htrace, hnew⟩, hlives⟩ := hst
  refine ⟨hlives.one h.one, fun o ho => ?_, ?_⟩
  · rw [htrace] at ho
    rcases List.mem_append.1 ho with ho | ho
    · exact h.quiet o ho
    · exact ⟨(hnew o ho).2, (hnew o ho).1.2⟩
  · rw [htrace, launchIds_append, launchIds_of_between (fun o ho => (hnew o ho).1), List.append_nil, h.ids]

theorem Ready.after {n : Nat} {s t : Sys} (h : Ready n s) (hst : Both (Emits Obs.calm) Lives s t) : Ready n t :=
  ⟨h.toLaunched.after hst, hst.2.down h.down⟩

theorem Launched.safe {n : Nat} {s : Sys} (h : Launched n s) : Safe s where
  one := h.one
  order := List.pairwise_of_forall_mem_list (fun o ho _ _ hs => absurd hs (h.quiet o ho).1)
  ids := ⟨n, h.ids⟩

theorem Ready.over {n : Nat} {s : Sys} (h : Ready n s) : Over s :=
  ⟨h.safe, h.down, fun o ho => (h.quiet o ho).2⟩

theorem carried_launched (n : Nat) : Carried (Both (Emits Obs.calm) Lives) (Launched n) Safe Safe :=
  ⟨fun _ _ h => h.after, fun _ h => h.safe, fun _ h => h.safe⟩

theorem carried_ready (n : Nat) : Carried (Both (Emits Obs.calm) Lives) (Ready n) Safe Safe :=
  ⟨fun _ _ h => h.after, fun _ h => h.safe, fun _ h => h.safe⟩

/-! ## One launch -/

theorem jvmIds_succ (n : Nat) : jvmIds (n + 1) = jvmIds n ++ [min (n + 1) Text.u32Max] := by
  simp [jvmIds, List.range_succ]

theorem Launched.attempted {n : Nat} {s t : Sys} {o : Obs} (h : Launched n s)
    (ho : o = .spawned (min (n + 1) Text.u32Max) ∨ o = .spawnFailed (min (n + 1) Text.u32Max))
    (ht : t.trace = s.trace ++ [o]) (hone : OneAtMost t) : Launched (n + 1) t where
  one := hone
  quiet := by
    intro o' ho'
    rw [ht] at ho'
    rcases List.mem_append.1 ho' with ho' | ho'
    · exact h.quiet o' ho'
    · rw [List.mem_singleton.1 ho']
      rcases ho with rfl | rfl <;> exact ⟨id, by simp [Obs.marker]⟩
  ids := by
    rw [ht, launchIds_append, h.ids, jvmIds_succ]
    rcases ho with rfl | rfl <;> rfl

/-- Where the event loop leaves a launch. -/
theorem Launched.ended {n : Nat} {s t : Sys} (h : Launched n s) (hst : Both (Emits Obs.between) Lives s t)
    (hd : Down t) : Over t where
  toSafe := h.safe.after hst
  down := hd
  unmarked := by
    obtain ⟨new, htrace, hnew⟩ := hst.1
    intro o ho
    rw [htrace] at ho
    rcases List.mem_append.1 ho with ho | ho
    · exact (h.quiet o ho).2
    · exact (hnew o ho).2

/-- How a launch leaves the run: the JVM is down, and a stop was read only if it ends the run. -/
def Settled (n : Nat) (o : RunOutcome) (t : Sys) : Prop := Over t ∧ (Ready n t ∨ ∃ code, o = .stop code)

theorem eventLoop_settles (sup : Supervisor) {n : Nat} {s : Sys} (h : Launched n s) :
    (eventLoop sup s).All (Settled n) (fun _ => Safe) Safe := by
  refine (eventLoop_spec sup s).mono (fun o t ht => ?_) (fun _ t ht => h.safe.after ht) (fun t ht => h.safe.after ht)
  obtain ⟨hst, hdown, hcalm⟩ := ht
  refine ⟨h.ended hst hdown, ?_⟩
  rcases hcalm with hcalm | hstop
  · exact .inl ⟨h.after ⟨hcalm, hst.2⟩, hdown⟩
  · exact .inr hstop

theorem runOnce_spec (sup : Supervisor) (resuming : Bool) {n : Nat} {s : Sys} (h : Ready n s) :
    (runOnce sup (min (n + 1) Text.u32Max) resuming s).All (Settled (n + 1)) (fun _ => Safe) Safe := by
  refine all_runOnce (R := Both (Emits Obs.calm) Lives) (carried_ready n) (carried_launched (n + 1))
    (carried_ready (n + 1)) ?_ ?_ ?_ ?_ ?_ s h
  · exact fun t ht => ht.after ⟨emits_of_trace rfl, lives_of_children rfl⟩
  · exact fun t ht => ht.toLaunched.attempted (.inl rfl) rfl (idle_of_down ht.one ht.down)
  · exact fun t ht => ⟨ht.toLaunched.attempted (.inr rfl) rfl ht.one, ht.down⟩
  · exact fun t elapsed ht => ⟨ht.over, .inl ht⟩
  · intro t command key pid launchedAt now ht
    have hlaunched : Launched (n + 1)
        { t with run := .launched sup (min (n + 1) Text.u32Max) resuming command key pid launchedAt now } :=
      ht.after ⟨emits_of_trace rfl, lives_of_children rfl⟩
    refine (eventLoop_settles sup hlaunched).mono (fun o u hu => ?_) (fun _ _ h => h) (fun _ h => h)
    refine ⟨hu.1.after ?_, hu.2.imp_left (fun hr => hr.after ?_)⟩
    · exact both_of_calm ⟨emits_of_trace rfl, lives_of_children rfl⟩
    · exact ⟨emits_of_trace rfl, lives_of_children rfl⟩

theorem runOnce_idle (sup : Supervisor) (jvmId : Nat) (resuming : Bool) {s : Sys} (h : Idle s) :
    (runOnce sup jvmId resuming s).All (fun _ => Idle) (fun _ => OneAtMost) OneAtMost := by
  have hone : ∀ t, Idle t → OneAtMost t := fun t ht _ hc => ht _ (List.mem_of_mem_tail hc)
  have hIdle : Carried Lives Idle OneAtMost OneAtMost := by
    refine ⟨fun t u ht htu => ?_, hone, hone⟩
    exact idle_of_down (htu.one (hone t ht)) (htu.down (fun hd => ht _ (List.mem_of_head? hd) rfl))
  refine all_runOnce (R := Lives) hIdle ⟨fun _ _ ht htu => htu.one ht, fun _ h => h, fun _ h => h⟩ hIdle (fun _ h => h)
    (fun _ h => h) (fun _ h => h) (fun _ _ h => h) ?_ s h
  intro t command key pid launchedAt now ht
  refine (eventLoop_spec sup _).mono (fun o u hu => ?_) (fun _ u hu => hu.2.one ht) (fun u hu => hu.2.one ht)
  exact idle_of_down (hu.1.2.one ht) hu.2.1

/-! ## Between two launches -/

theorem Over.heard {s t : Sys} (h : Over s) {site : ControlSite} {control : Option Control}
    (hc : Heard site s control t) : Over t := by
  have hk : (Obs.control site control).between := ⟨id, by simp [Obs.marker]⟩
  cases hc with
  | item c rest _ => exact h.after ⟨emits_one rfl hk, lives_of_children rfl⟩
  | closed => exact h.after ⟨emits_one rfl hk, lives_of_children rfl⟩

theorem Ready.heard {n : Nat} {s t : Sys} (h : Ready n s) {site : ControlSite} {control : Option Control}
    (hc : Heard site s control t) (hcalm : ¬ (Obs.control site control).stops) : Ready n t := by
  have hk : (Obs.control site control).calm := ⟨⟨id, by simp [Obs.marker]⟩, hcalm⟩
  cases hc with
  | item c rest _ => exact h.after ⟨emits_one rfl hk, lives_of_children rfl⟩
  | closed => exact h.after ⟨emits_one rfl hk, lives_of_children rfl⟩

/-! ## The whole run -/

/-- The marker is the last record, and the only one. -/
theorem logStopped_spec {s : Sys} (h : Over s) :
    (log .status .wrapper stoppedMarker s).All (fun _ => Finished) (fun _ => Safe) Safe := by
  unfold log logMessage
  rw [all_bind]
  refine (ask_spec (R := Both (Emits Obs.calm) Lives) s).mono (fun a t ht => ?_) (fun _ _ h => h.elim)
    (fun t ht => (h.after (both_of_calm ht)).toSafe)
  have hover := h.after (both_of_calm ht)
  cases a.failure with
  | some e =>
    have hfailed : Over (t.note .logFailed) :=
      hover.after ⟨emits_one rfl (plain_calm .logFailed trivial).1, lives_of_children rfl⟩
    exact hfailed.toSafe
  | none =>
    refine ⟨⟨hover.one, ?_, ?_⟩, idle_of_down hover.one hover.down, t.trace, rfl, ?_⟩
    · refine List.pairwise_append.2 ⟨hover.order, by simp, fun _ _ o ho _ => ?_⟩
      rw [List.mem_singleton.1 ho]
      exact id
    · obtain ⟨n, hn⟩ := hover.ids
      exact ⟨n, (launchIds_append t.trace [Obs.marker]).trans ((List.append_nil _).trans hn)⟩
    · exact fun hm => hover.unmarked _ hm rfl

/-- What holds between two turns of `run`'s loop. -/
def AtTurn (vars : RunVars) (s : Sys) : Prop := ∃ n, vars.jvmId = min (n + 1) Text.u32Max ∧ Ready n s

theorem carried_atTurn (vars : RunVars) : Carried (Both (Emits Obs.calm) Lives) (AtTurn vars) Safe Safe where
  after _ _ h hst := h.imp (fun _ hn => ⟨hn.1, hn.2.after hst⟩)
  err _ h := h.elim (fun _ hn => hn.2.safe)
  cut _ h := h.elim (fun _ hn => hn.2.safe)

theorem AtTurn.over {vars : RunVars} {s : Sys} (h : AtTurn vars s) : Over s := h.elim (fun _ hn => hn.2.over)

theorem AtTurn.note {vars : RunVars} {s : Sys} (h : AtTurn vars s) {o : Obs} (ho : o.calm) : AtTurn vars (s.note o) :=
  (carried_atTurn vars).after s _ h ⟨emits_one rfl ho, lives_of_children rfl⟩

theorem AtTurn.heard {vars : RunVars} {s t : Sys} (h : AtTurn vars s) {site : ControlSite} {control : Option Control}
    (hc : Heard site s control t) (hcalm : ¬ (Obs.control site control).stops) : AtTurn vars t :=
  h.imp (fun _ hn => ⟨hn.1, hn.2.heard hc hcalm⟩)

theorem atTurn_next {n : Nat} {s : Sys} {vars vars' : RunVars} (h : Ready (n + 1) s)
    (hid : vars.jvmId = min (n + 1) Text.u32Max) (hnext : vars'.jvmId = min (vars.jvmId + 1) Text.u32Max) :
    AtTurn vars' s := by
  refine ⟨n + 1, ?_, h⟩
  rw [hnext, hid]
  omega

/-- The phases of a run: between two launches the run is ready, and a launch leaves it settled. -/
def attempts : Phases where
  ready := AtTurn
  ended vars o s := ∃ n, vars.jvmId = min (n + 1) Text.u32Max ∧ Settled (n + 1) o s
  paused := AtTurn
  delayed := AtTurn
  closing _ := Over

theorem ended_next {vars vars' : RunVars} {o : RunOutcome} {s : Sys} (h : attempts.ended vars o s)
    (hnot : ∀ code, o ≠ .stop code) (hnext : vars'.jvmId = min (vars.jvmId + 1) Text.u32Max) : AtTurn vars' s := by
  obtain ⟨n, hid, -, hsettled⟩ := h
  exact atTurn_next (hsettled.resolve_right (fun ⟨code, hcode⟩ => hnot code hcode)) hid hnext

theorem attempts_laws (sup : Supervisor) :
    attempts.Laws sup (Both (Emits Obs.calm) Lives) (fun _ => Finished) Safe Safe where
  carriedReady := carried_atTurn
  carriedPaused := carried_atTurn
  carriedDelayed := carried_atTurn
  carriedOver _ := ⟨fun _ _ h hst => h.after (both_of_calm hst), fun _ h => h.toSafe, fun _ h => h.toSafe⟩
  pauseFirst _ h := @AtTurn.note {} _ h _ (Loose.published _)
  file _ _ _ h := h
  launching _ _ h := h.note (Loose.published _)
  launch vars s h := by
    obtain ⟨n, hid, hready⟩ := h
    rw [hid]
    exact (runOnce_spec sup vars.resuming hready).mono (fun o t ht => ⟨n, hid, ht⟩) (fun _ _ h => h) (fun _ h => h)
  exit vars elapsed code s h := by
    obtain ⟨n, hid, -, hsettled⟩ := h
    have hready : Ready (n + 1) (s.note (.exitAction code (onExitAction sup.config code))) :=
      (hsettled.resolve_right (by simp)).after
        ⟨emits_one rfl ⟨⟨id, by simp [Obs.marker]⟩, id⟩, lives_of_children rfl⟩
    exact ⟨n, hid, hready.over, .inl hready⟩
  stop _ _ _ h := h.elim (fun _ hn => hn.2.1)
  pause _ _ h := ended_next h (by simp) rfl
  disabled _ _ _ _ _ h _ := h.elim (fun _ hn => hn.2.1)
  gaveUp _ _ _ _ _ h _ _ := h.elim (fun _ hn => hn.2.1)
  retry _ _ _ _ _ h _ _ := ended_next h (by simp) rfl
  waits _ _ h := AtTurn.note h ⟨⟨id, by simp [Obs.marker]⟩, id⟩
  heardPaused vars s control t h hc := by
    cases control with
    | none => exact h.over.heard hc
    | some c =>
      cases c with
      | stop => exact h.over.heard hc
      | consoleInterrupt => exact h.over.heard hc
      | _ => exact h.heard hc id
  delay _ _ h := h
  heardDelayed vars s control t h hc := by
    cases control with
    | none => exact h.over.heard hc
    | some c =>
      cases c with
      | stop => exact h.over.heard hc
      | consoleInterrupt => exact h.over.heard hc
      | _ => exact h.heard hc id
  elapsed _ _ h := AtTurn.note h ⟨⟨id, by simp [Obs.marker]⟩, id⟩
  finish _ _ h := logStopped_spec h

/-! ## What an observer sees -/

/-- At most one child is alive, nothing is launched after a stop was read, and the attempts have the ids
1, 2, 3, .... -/
structure OneJvm (s : Sys) : Prop where
  alive : s.alive ≤ 1
  order : s.trace.Pairwise (fun o o' => o.stops → ¬ o'.launches)
  ids : ∃ n, launchIds s.trace = jvmIds n

theorem Safe.oneJvm {s : Sys} (h : Safe s) : OneJvm s := ⟨alive_of_oneAtMost h.one, h.order, h.ids⟩

/-- **One JVM at a time**: from any idle state `run_once` returns only with no child alive; in every run of the
supervisor, wherever it is cut short, at most one child is alive, no JVM is launched after a stop was read, and the
attempts have the ids 1, 2, 3, ...; and a run that returns leaves no child alive and ends with its only marker. -/
theorem one_jvm_at_a_time (sup : Supervisor) :
    (∀ jvmId resuming s, s.alive = 0 →
      (runOnce sup jvmId resuming s).All (fun _ t => t.alive = 0) (fun _ t => t.alive ≤ 1) (fun t => t.alive ≤ 1)) ∧
    ∀ script, (run sup { script := script }).All
      (fun _ t => OneJvm t ∧ t.alive = 0 ∧ ∃ earlier, t.trace = earlier ++ [Obs.marker] ∧ Obs.marker ∉ earlier)
      (fun _ => OneJvm) OneJvm := by
  refine ⟨fun jvmId resuming s hs => ?_, fun script => ?_⟩
  · have hidle : Idle s := fun c hc hr => List.count_eq_zero.1 hs (hr ▸ hc)
    exact (runOnce_idle sup jvmId resuming hidle).mono (fun _ _ h => alive_of_idle h)
      (fun _ _ h => alive_of_oneAtMost h) (fun _ h => alive_of_oneAtMost h)
  · have hstart : Ready 0 { script := script } :=
      { one := by simp [OneAtMost], quiet := by simp, ids := rfl, down := by simp [Down] }
    refine ((attempts_laws sup).run ⟨0, rfl, hstart⟩).mono (fun _ t ht => ?_) (fun _ _ h => h.oneJvm) (fun _ h => h.oneJvm)
    exact ⟨ht.toSafe.oneJvm, alive_of_idle ht.idle, ht.marked⟩

/-- A launch, a stop, and a child that is killed because it never connected. -/
def stopScript : List Answer :=
  quiet 9 ++ [{ moves := [.control .stop], source := .controls }] ++ quiet 5 ++ [{ moves := [.closeOutput] }]

theorem stop_leaves_no_child :
    (runOnce (.sample ⟨[], [], by decide⟩) 1 false { script := stopScript }).result = some (.stop 0) ∧
    (runOnce (.sample ⟨[], [], by decide⟩) 1 false { script := stopScript }).state.alive = 0 := by
  have hstop : (runOnce (.sample ⟨[], [], by decide⟩) 1 false { script := stopScript }).result = some (.stop 0) := by
    decide +kernel
  exact ⟨hstop, ((one_jvm_at_a_time _).1 1 false { script := stopScript } rfl).of_result hstop⟩

end Supervisor
end Jss
