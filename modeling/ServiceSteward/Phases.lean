import ServiceSteward.Loop
/-!
# Phases — the whole run, phase by phase

Between two operations that matter, a run is ready to launch, has just ended a launch with an outcome, waits while
paused, waits for a delay, or is over but for its last record.  `Phases` names what a claim says of each; `Laws` is what
it has to show of the steps from one to the next.  `Laws.run` is the induction over the run, made once.
-/
namespace Jss
namespace Supervisor

open Scripted

/-! ## The decisions of `run` -/

def resolved (sup : Supervisor) (elapsed : Duration) (exitCode : Int) : RunOutcome :=
  match onExitAction sup.config exitCode with
  | .shutdown => .stop exitCode
  | .restart => .restart elapsed true exitCode
  | .pause => if sup.pausable then .pause else .restart elapsed true exitCode

def restartsDisabled (sup : Supervisor) (automatic : Bool) : Bool :=
  sup.config.getBool "wrapper.disable_restarts" false ||
    (automatic && sup.config.getBool "wrapper.disable_restarts.automatic" false)

def successfulTime (sup : Supervisor) : Duration :=
  Duration.fromSecs (sup.config.getU64 "wrapper.successful_invocation_time" 300)

/-- The failures in a row, counting an outcome that took `elapsed`. -/
def countFailure (sup : Supervisor) (failures : Nat) (elapsed : Duration) : Nat :=
  if elapsed ≥ successfulTime sup then 0 else min (failures + 1) Text.u64Max

def maxFailures (sup : Supervisor) : Nat := max (sup.config.getU64 "wrapper.max_failed_invocations" 5) 1

def restartDelay (sup : Supervisor) : Duration := Duration.fromSecs (sup.config.getU64 "wrapper.restart.delay" 5)

/-- The variables of the turn after a pause. -/
def RunVars.resumed (vars : RunVars) : RunVars :=
  { vars with failedInvocations := 0, jvmId := min (vars.jvmId + 1) Text.u32Max, resuming := true }

/-- The variables of the turn after a restart. -/
def RunVars.retried (sup : Supervisor) (vars : RunVars) (elapsed : Duration) : RunVars :=
  { vars with
    failedInvocations := countFailure sup vars.failedInvocations elapsed
    jvmId := min (vars.jvmId + 1) Text.u32Max
    resuming := false }

theorem resolveExit_exited (sup : Supervisor) (elapsed : Duration) (exitCode : Int) (s : Sys) :
    resolveExit sup (.exited elapsed exitCode) s =
      .ok (resolved sup elapsed exitCode) (s.note (.exitAction exitCode (onExitAction sup.config exitCode))) := by
  simp only [resolveExit, resolved]
  generalize onExitAction sup.config exitCode = action
  cases action with
  | _ => rfl

/-- Only a pausable supervisor makes a pause of an exit. -/
theorem resolved_pause {sup : Supervisor} {elapsed : Duration} {exitCode : Int}
    (h : resolved sup elapsed exitCode = .pause) : sup.pausable = true ∧ onExitAction sup.config exitCode = .pause := by
  unfold resolved at h
  generalize onExitAction sup.config exitCode = action at h
  cases action with
  | shutdown => cases h
  | restart => cases h
  | pause =>
    by_cases hpausable : sup.pausable = true
    · exact ⟨hpausable, rfl⟩
    · simp only [if_neg hpausable] at h
      cases h

theorem afterRestart_eq (sup : Supervisor) (vars : RunVars) (elapsed : Duration) (automatic : Bool) (exitCode : Int) :
    afterRestart sup vars elapsed automatic exitCode =
      if restartsDisabled sup automatic then do
        log .status .wrapper (if automatic then "Automatic JVM restarts are disabled; stopping."
          else "JVM restarts are disabled; stopping.")
        stopped exitCode
      else if countFailure sup vars.failedInvocations elapsed ≥ maxFailures sup then do
        log .fatal .wrapper (Text.ofNat (countFailure sup vars.failedInvocations elapsed)
          ++ " consecutive JVM launches ended within ".toList
          ++ Text.ofNat (sup.config.getU64 "wrapper.successful_invocation_time" 300) ++ " seconds; giving up.".toList)
        log .fatal .wrapper "Check the application configuration and the log above."
        stopped exitCode
      else do
        if ← waitForRestart (restartDelay sup) then stopped 0
        else return .inl (vars.retried sup elapsed) := rfl

theorem resolved_ne_exited (sup : Supervisor) (elapsed elapsed' : Duration) (exitCode exitCode' : Int) :
    resolved sup elapsed exitCode ≠ .exited elapsed' exitCode' := by
  unfold resolved
  cases onExitAction sup.config exitCode with
  | shutdown => simp
  | restart => simp
  | pause =>
    cases sup.pausable with
    | true => simp
    | false => simp

/-! ## The phases -/

/-- What is said of a run in each of its phases; the variables are those of the next turn of the loop. -/
structure Phases where
  ready : RunVars → Sys → Prop
  /-- A launch has ended, with the variables it was made with. -/
  ended : RunVars → RunOutcome → Sys → Prop
  paused : RunVars → Sys → Prop
  delayed : RunVars → Sys → Prop
  /-- The run returns this code once it has written its last record. -/
  closing : Int → Sys → Prop

/-- Where a control read while the supervisor is paused leads. -/
def Phases.afterPaused (p : Phases) (vars : RunVars) : Option Control → Sys → Prop
  | some .resume => p.ready vars
  | some .stop | some .consoleInterrupt | none => p.closing 0
  | some _ => p.paused vars

/-- Where a control read during a delay leads. -/
def Phases.afterDelayed (p : Phases) (vars : RunVars) : Option Control → Sys → Prop
  | some .stop | some .consoleInterrupt | none => p.closing 0
  | some _ => p.delayed vars

/-- **What a claim shows once**, to know every run. -/
structure Phases.Laws (p : Phases) (sup : Supervisor) (R : Sys → Sys → Prop) (F : Int → Sys → Prop) (E B : Sys → Prop) :
    Prop where
  carriedReady : ∀ vars, Carried R (p.ready vars) E B
  carriedPaused : ∀ vars, Carried R (p.paused vars) E B
  carriedDelayed : ∀ vars, Carried R (p.delayed vars) E B
  carriedOver : ∀ code, Carried R (p.closing code) E B
  pauseFirst : ∀ s, p.ready {} s → p.paused { resuming := true } (s.note (.published .servicePaused))
  file : ∀ vars file s, p.ready vars s → p.ready { vars with javaIdFile := file } s
  launching : ∀ vars s, p.ready vars s → p.ready vars (s.note (.published (.jvmLaunching vars.jvmId)))
  launch : ∀ vars s, p.ready vars s →
    (runOnce sup vars.jvmId vars.resuming s).All (p.ended vars) (fun _ => E) B
  exit : ∀ vars elapsed code s, p.ended vars (.exited elapsed code) s →
    p.ended vars (resolved sup elapsed code) (s.note (.exitAction code (onExitAction sup.config code)))
  stop : ∀ vars code s, p.ended vars (.stop code) s → p.closing code s
  pause : ∀ vars s, p.ended vars .pause s → p.paused vars.resumed s
  disabled : ∀ vars elapsed automatic code s, p.ended vars (.restart elapsed automatic code) s →
    restartsDisabled sup automatic = true → p.closing code s
  gaveUp : ∀ vars elapsed automatic code s, p.ended vars (.restart elapsed automatic code) s →
    restartsDisabled sup automatic = false →
    maxFailures sup ≤ countFailure sup vars.failedInvocations elapsed → p.closing code s
  retry : ∀ vars elapsed automatic code s, p.ended vars (.restart elapsed automatic code) s →
    restartsDisabled sup automatic = false →
    countFailure sup vars.failedInvocations elapsed < maxFailures sup → p.delayed (vars.retried sup elapsed) s
  waits : ∀ vars s, p.paused vars s → p.paused vars (s.note .waitingPaused)
  heardPaused : ∀ vars s control t, p.paused vars s → Heard .paused s control t → p.afterPaused vars control t
  delay : ∀ vars s, p.ready vars s → p.delayed vars s
  heardDelayed : ∀ vars s control t, p.delayed vars s → Heard .restartDelay s control t → p.afterDelayed vars control t
  elapsed : ∀ vars s, p.delayed vars s → p.ready vars (s.note .delayOver)
  finish : ∀ code s, p.closing code s →
    (log .status .wrapper stoppedMarker s).All (fun _ => F code) (fun _ => E) B

namespace Phases.Laws

variable {p : Phases} {sup : Supervisor} {R : Sys → Sys → Prop} [Steady R] {F : Int → Sys → Prop} {E B : Sys → Prop}
  (l : p.Laws sup R F E B)
include l

/-- A delay that is not stopped leaves the run ready. -/
theorem waitForRestart (delay : Duration) (vars : RunVars) {s : Sys} (h : p.delayed vars s) :
    (Supervisor.waitForRestart delay s).All (fun stop t => if stop then p.closing 0 t else p.ready vars t) (fun _ => E)
      B := by
  have hR := l.carriedDelayed vars
  unfold Supervisor.waitForRestart
  refine hR.bind h keeps_now (fun now t ht => ?_)
  unfold repeatFrom
  refine all_iterate (I := fun _ => p.delayed vars) (fun _ t ht => ?_) (fun _ => hR.cut) _ _ _ ht
  unfold restartTurn
  refine hR.bind ht keeps_now (fun now t ht => ?_)
  split
  · rw [all_bind]
    refine (recvControlTimeout_spec (R := R) _ _ t).mono (fun r u hu => ?_) (fun _ _ h => h.elim)
      (fun u hu => hR.cut u (hR.after t u ht hu))
    cases r with
    | timeout => exact hR.after t u ht hu
    | disconnected =>
      obtain ⟨v, hv, hc⟩ := hu
      exact l.heardDelayed vars v none u (hR.after t v ht hv) hc
    | item c =>
      obtain ⟨v, hv, hc⟩ := hu
      have hnext := l.heardDelayed vars v (some c) u (hR.after t v ht hv) hc
      cases c with
      | _ => exact hnext
  · exact l.elapsed vars t ht

theorem waitWhilePaused (vars : RunVars) {s : Sys} (h : p.paused vars s) :
    (Supervisor.waitWhilePaused s).All
      (fun r t => match r with | .resume => p.ready vars t | .stop => p.closing 0 t) (fun _ => E) B := by
  have hR := l.carriedPaused vars
  unfold Supervisor.waitWhilePaused repeatFrom
  refine all_iterate (I := fun _ => p.paused vars) (fun _ t ht => ?_) (fun _ => hR.cut) _ _ _ h
  unfold pausedTurn
  rw [emit, all_bind, all_modify, all_bind]
  have hwaits := l.waits vars t ht
  refine (recvControl_spec (R := R) _ _).mono (fun r u hu => ?_) (fun _ _ h => h.elim)
    (fun u hu => hR.cut u (hR.after _ u hwaits hu))
  obtain ⟨v, hv, hc⟩ := hu
  have hnext := l.heardPaused vars v r u (hR.after _ v hwaits hv) hc
  cases r with
  | none => exact hnext
  | some c =>
    cases c with
    | _ => exact hnext

/-- Where a turn of `run`'s loop may lead. -/
theorem stopped (code : Int) {s : Sys} (h : p.closing code s) :
    (Supervisor.stopped code s).All (fun r t => match r with | .inl vars => p.ready vars t | .inr code => F code t)
      (fun _ => E) B := by
  unfold Supervisor.stopped
  rw [all_bind]
  exact (l.finish code s h).mono (fun _ _ h => h) (fun _ _ h => h) (fun _ h => h)

theorem afterPause (vars : RunVars) {s : Sys} (h : p.paused vars.resumed s) :
    (Supervisor.afterPause vars s).All
      (fun r t => match r with | .inl vars => p.ready vars t | .inr code => F code t) (fun _ => E) B := by
  unfold Supervisor.afterPause
  rw [all_bind]
  refine (l.waitWhilePaused vars.resumed h).mono (fun r t ht => ?_) (fun _ _ h => h) (fun _ h => h)
  cases r with
  | resume => exact ht
  | stop => exact l.stopped 0 ht

theorem afterRestart (vars : RunVars) (elapsed : Duration) (automatic : Bool) (exitCode : Int) {s : Sys}
    (h : p.ended vars (.restart elapsed automatic exitCode) s) :
    (Supervisor.afterRestart sup vars elapsed automatic exitCode s).All
      (fun r t => match r with | .inl vars => p.ready vars t | .inr code => F code t) (fun _ => E) B := by
  rw [afterRestart_eq]
  cases hdisabled : restartsDisabled sup automatic with
  | true =>
    have hR := l.carriedOver exitCode
    rw [if_pos rfl]
    refine hR.bind (l.disabled vars elapsed automatic exitCode s h hdisabled) (keeps_log ?_)
      (fun _ t ht => l.stopped exitCode ht)
    cases automatic
    · exact not_marker_of_head _ _ 'J' _ (by decide)
    · exact not_marker_of_head _ _ 'A' _ (by decide)
  | false =>
    rw [if_neg (by decide)]
    by_cases hmax : countFailure sup vars.failedInvocations elapsed ≥ maxFailures sup
    · have hR := l.carriedOver exitCode
      rw [if_pos hmax]
      refine hR.bind (l.gaveUp vars elapsed automatic exitCode s h hdisabled hmax)
        (keeps_log (not_marker_of_level (by decide))) (fun _ t ht => ?_)
      exact hR.bind ht (keeps_log (not_marker_of_level (by decide))) (fun _ u hu => l.stopped exitCode hu)
    · rw [if_neg hmax, all_bind]
      have hdelayed := l.retry vars elapsed automatic exitCode s h hdisabled (by omega)
      refine (l.waitForRestart _ (vars.retried sup elapsed) hdelayed).mono (fun stop t ht => ?_) (fun _ _ h => h)
        (fun _ h => h)
      cases stop with
      | true => exact l.stopped 0 ht
      | false => exact ht

/-- What a turn does once the outcome of the launch is resolved. -/
theorem resolved (vars : RunVars) (o : RunOutcome) {s : Sys} : p.ended vars o s →
    (∀ elapsed code, o ≠ .exited elapsed code) →
    ((match o with
      | .stop code => Supervisor.stopped code
      | .pause => Supervisor.afterPause vars
      | .restart elapsed automatic exitCode => Supervisor.afterRestart sup vars elapsed automatic exitCode
      | .exited _ _ => Prog.throw (.config "exit actions are resolved above") : Run (RunVars ⊕ Int)) s).All
      (fun r t => match r with | .inl vars => p.ready vars t | .inr code => F code t) (fun _ => E) B := by
  intro h hne
  cases o with
  | stop code => exact l.stopped code (l.stop _ code s h)
  | pause => exact l.afterPause _ (l.pause _ s h)
  | restart elapsed automatic exitCode => exact l.afterRestart _ elapsed automatic exitCode h
  | exited elapsed code => exact absurd rfl (hne elapsed code)

theorem runTurn_launch (vars : RunVars) {s : Sys} (h : p.ready vars s) :
    (Supervisor.runTurn.launch sup vars s).All
      (fun r t => match r with | .inl vars => p.ready vars t | .inr code => F code t) (fun _ => E) B := by
  unfold Supervisor.runTurn.launch publish emit
  rw [all_bind, all_modify, all_bind]
  refine (l.launch _ _ (l.launching vars s h)).mono (fun o u hu => ?_) (fun _ _ h => h) (fun _ h => h)
  rw [all_bind]
  cases o with
  | exited elapsed code =>
    rw [resolveExit_exited]
    exact l.resolved _ _ (l.exit _ elapsed code u hu) (fun _ _ => resolved_ne_exited sup _ _ _ _)
  | stop code => exact l.resolved _ _ hu (by simp)
  | pause => exact l.resolved _ _ hu (by simp)
  | restart elapsed automatic exitCode => exact l.resolved _ _ hu (by simp)

/-- **One turn of `run`'s loop.** -/
theorem runTurn (vars : RunVars) {s : Sys} (h : p.ready vars s) :
    (Supervisor.runTurn sup vars s).All
      (fun r t => match r with | .inl vars => p.ready vars t | .inr code => F code t) (fun _ => E) B := by
  have hR := l.carriedReady vars
  unfold Supervisor.runTurn
  refine hR.bind h (keeps_updateJavaIdFile sup vars) (fun file t ht => ?_)
  split
  · exact hR.bind ht keeps_attemptOutside (fun _ u hu => l.runTurn_launch _ (l.file vars file u hu))
  · exact l.runTurn_launch _ (l.file vars file t ht)

theorem runLoop (resuming : Bool) {s : Sys} (h : p.ready { resuming } s) :
    (Supervisor.runLoop sup resuming s).All F (fun _ => E) B := by
  have hloop : ∀ t, p.ready { resuming } t → (repeatFrom { resuming } (Supervisor.runTurn sup) t).All F (fun _ => E)
      B := by
    intro t ht
    unfold repeatFrom
    refine all_iterate (I := p.ready) (fun vars u hu => ?_) (fun vars => (l.carriedReady vars).cut) _ _ _ ht
    refine (l.runTurn vars hu).mono (fun r v hv => ?_) (fun _ _ h => h) (fun _ h => h)
    cases r with
    | inl vars => exact hv
    | inr code => exact hv
  unfold Supervisor.runLoop
  split
  · rw [all_bind]
    refine (l.waitForRestart _ _ (l.delay _ s h)).mono (fun stop t ht => ?_) (fun _ _ h => h) (fun _ h => h)
    cases stop with
    | true =>
      rw [if_pos rfl, all_bind]
      exact (l.finish 0 t ht).mono (fun _ _ h => h) (fun _ _ h => h) (fun _ h => h)
    | false => exact hloop t ht
  · exact hloop s h

/-- **The whole run.** -/
theorem run {s : Sys} (h : p.ready {} s) : (Supervisor.run sup s).All F (fun _ => E) B := by
  unfold Supervisor.run
  refine (l.carriedReady {}).bind h (keeps_startWrapper sup) (fun _ t ht => ?_)
  split
  · unfold pauseOnStartup publish emit
    rw [all_bind, all_bind, all_modify]
    refine (l.waitWhilePaused _ (l.pauseFirst t ht)).mono (fun r u hu => ?_) (fun _ _ h => h) (fun _ h => h)
    cases r with
    | resume => exact l.runLoop true hu
    | stop =>
      simp only
      rw [all_bind]
      exact (l.finish 0 u hu).mono (fun _ _ h => h) (fun _ _ h => h) (fun _ h => h)
  · exact l.runLoop false ht

end Phases.Laws

/-! ## One invariant -/

/-- The observations of `run` itself. -/
def Obs.outer : Obs → Prop
  | .published (.jvmLaunching _) | .published .servicePaused => True
  | .control site _ => site ≠ .eventLoop
  | .waitingPaused | .delayOver | .exitAction _ _ => True
  | o => o = Obs.marker

/-- An invariant that holds in every phase. -/
def Phases.every (I : Sys → Prop) : Phases where
  ready _ := I
  ended _ _ := I
  paused _ := I
  delayed _ := I
  closing _ := I

/-- Reading a control, where that is as good as any other observation. -/
theorem preserves_heard {I : Sys → Prop} (htaken : ∀ s rest, I s → I { s with controls := rest })
    (hnote : ∀ s o, Obs.outer o → I s → I (s.note o)) (site : ControlSite) (s : Sys) (control : Option Control) (t : Sys)
    (hsite : site ≠ .eventLoop) (h : I s) (hc : Heard site s control t) : I t := by
  cases hc with
  | item c rest _ => exact hnote _ _ hsite (htaken s rest h)
  | closed => exact hnote _ _ hsite h

/-- **The whole run under one invariant**, from what a launch does to it. -/
theorem Phases.every_laws {sup : Supervisor} {I E B : Sys → Prop} [Steady (Preserves I)] (herr : ∀ s, I s → E s)
    (hcut : ∀ s, I s → B s)
    (hheard : ∀ site s control t, site ≠ .eventLoop → I s → Heard site s control t → I t)
    (hnote : ∀ s o, Obs.outer o → (∀ site control, o ≠ .control site control) → I s → I (s.note o))
    (hlaunch : ∀ jvmId resuming s, I s → (runOnce sup jvmId resuming s).All (fun _ => I) (fun _ => E) B) :
    (Phases.every I).Laws sup (Preserves I) (fun _ => I) E B := by
  have hcarried : Carried (Preserves I) I E B := ⟨fun _ _ h hst => hst h, herr, hcut⟩
  have hmarker : Keeps (Preserves I) (log .status .wrapper stoppedMarker) := keeps_marker (fun s => hnote s _ rfl (by simp [Obs.marker]))
  exact {
    carriedReady := fun _ => hcarried
    carriedPaused := fun _ => hcarried
    carriedDelayed := fun _ => hcarried
    carriedOver := fun _ => hcarried
    pauseFirst := fun s h => hnote s _ trivial (by simp) h
    file := fun _ _ _ h => h
    launching := fun _ s h => hnote s _ trivial (by simp) h
    launch := fun vars s h => hlaunch vars.jvmId vars.resuming s h
    exit := fun _ _ _ s h => hnote s _ trivial (by simp) h
    stop := fun _ _ _ h => h
    pause := fun _ _ h => h
    disabled := fun _ _ _ _ _ h _ => h
    gaveUp := fun _ _ _ _ _ h _ _ => h
    retry := fun _ _ _ _ _ h _ _ => h
    waits := fun _ s h => hnote s _ trivial (by simp) h
    heardPaused := fun vars s control t h hc => by
      have ht := hheard .paused s control t (by decide) h hc
      cases control with
      | none => exact ht
      | some c =>
        cases c with
        | _ => exact ht
    delay := fun _ _ h => h
    heardDelayed := fun vars s control t h hc => by
      have ht := hheard .restartDelay s control t (by decide) h hc
      cases control with
      | none => exact ht
      | some c =>
        cases c with
        | _ => exact ht
    elapsed := fun _ s h => hnote s _ trivial (by simp) h
    finish := fun code s h =>
      (hmarker s).mono (fun _ _ ht => ht h) (fun _ t ht => herr t (ht h)) (fun t ht => hcut t (ht h)) }

/-- **An invariant of the whole run that no phase matters to**, from the steps that a kept relation does not cover. -/
theorem run_preserves {sup : Supervisor} {I : Sys → Prop} [Kept (Preserves I)]
    (hrun : ∀ s run, I s → I { s with run := run })
    (hselected : ∀ s arm t, I s → Selected s arm t → I t)
    (hspawn : ∀ s jvmId, I s → I (s.spawn jvmId))
    (hfail : ∀ s jvmId, I s → I (s.note (.spawnFailed jvmId)))
    (hheard : ∀ site s control t, site ≠ .eventLoop → I s → Heard site s control t → I t)
    (hnote : ∀ s o, Obs.outer o → (∀ site control, o ≠ .control site control) → I s → I (s.note o))
    {s : Sys} (h : I s) : I (run sup s).state := by
  have hcarried : Carried (Preserves I) I I I := ⟨fun _ _ h hst => hst h, fun _ h => h, fun _ h => h⟩
  have hlaunch : ∀ jvmId resuming t, I t →
      (runOnce sup jvmId resuming t).All (fun _ => I) (fun _ => I) I := by
    intro jvmId resuming t ht
    refine all_runOnce hcarried hcarried hcarried (fun u hu => hrun u _ hu) (fun u hu => hspawn u jvmId hu)
      (fun u hu => hfail u jvmId hu) (fun _ _ hu => hu) (fun u command key pid launchedAt now hu => ?_) t ht
    refine (all_eventLoop_of (R := Preserves I) (fun _ _ h hst => hst h) hselected
      (turn_serve_kept (R := Preserves I) sup) _ (hrun u _ hu)).mono (fun _ v hv => ?_) (fun _ _ hv => hv) (fun _ hv => hv)
    exact hrun v _ hv.1
  have hlaws : (Phases.every I).Laws sup (Preserves I) (fun _ => I) I I :=
    Phases.every_laws (fun _ h => h) (fun _ h => h) hheard hnote hlaunch
  exact (hlaws.run h).state (fun _ _ h => h) (fun _ _ h => h) (fun _ h => h)

end Supervisor
end Jss
