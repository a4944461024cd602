import Mathlib
import ServiceSteward.Lifecycle
import ServiceSteward.Onward
import ServiceSteward.Phases
/-!
# Throttle — when the supervisor gives up restarting

A turn of `run`'s loop launches a JVM and makes an outcome of it (`launchTurn`), then follows the outcome (`follow`).
`Reached` is the outcomes a run has followed so far.  What the loop counts is their `streak`: the restarts in a row,
up to the last, that came too soon after their launch.
-/
namespace Jss
namespace Supervisor

open Scripted

/-! ## A turn, in two parts -/

/-- The launch of a turn, from its event on. -/
def launch (sup : Supervisor) (vars : RunVars) : Run (RunOutcome × RunVars) := do
  publish (.jvmLaunching vars.jvmId)
  let outcome ← runOnce sup vars.jvmId vars.resuming
  return (outcome, vars)

/-- A turn up to the outcome of its launch, and the variables it goes on with. -/
def launchTurn (sup : Supervisor) (vars : RunVars) : Run (RunOutcome × RunVars) := do
  let javaIdFile ← updateJavaIdFile sup vars
  if vars.jvmId > 1 then do
    let _ ← attemptOutside
    launch sup { vars with javaIdFile }
  else launch sup { vars with javaIdFile }

/-- The `match` on a resolved outcome. -/
def followResolved (sup : Supervisor) (vars : RunVars) : RunOutcome → Run (RunVars ⊕ Int)
  | .stop code => stopped code
  | .pause => afterPause vars
  | .restart elapsed automatic exitCode => afterRestart sup vars elapsed automatic exitCode
  | .exited _ _ => Prog.throw (.config "exit actions are resolved above")

def follow (sup : Supervisor) (vars : RunVars) (outcome : RunOutcome) : Run (RunVars ⊕ Int) := do
  let outcome ← resolveExit sup outcome
  followResolved sup vars outcome

theorem runTurn_launch_eq (sup : Supervisor) (vars : RunVars) :
    runTurn.launch sup vars = launch sup vars >>= fun r => follow sup r.2 r.1 := by
  unfold runTurn.launch launch follow
  simp only [bind_assoc, pure_bind]
  refine bind_congr (fun _ => bind_congr (fun _ => bind_congr (fun o => ?_)))
  cases o with
  | _ => rfl

theorem runTurn_eq (sup : Supervisor) (vars : RunVars) :
    runTurn sup vars = launchTurn sup vars >>= fun r => follow sup r.2 r.1 := by
  unfold runTurn launchTurn
  rw [bind_assoc]
  refine bind_congr (fun file => ?_)
  by_cases hroll : vars.jvmId > 1
  · rw [if_pos hroll, if_pos hroll, bind_assoc]
    exact bind_congr (fun _ => runTurn_launch_eq sup _)
  · rw [if_neg hroll, if_neg hroll]
    exact runTurn_launch_eq sup _

/-- `run` up to its loop: whether the first JVM resumes from a pause, or none if the supervisor is stopped before. -/
def enterLoop (sup : Supervisor) : Run (Option Bool) := do
  startWrapper sup
  if sup.config.getBool "wrapper.pause_on_startup" false && sup.pausable then
    match ← pauseOnStartup with
    | .resume => delayed true
    | .stop => return none
  else delayed false
where
  /-- The startup delay. -/
  delayed (resuming : Bool) : Run (Option Bool) := do
    if startupDelay sup.config sup.service > 0 then
      if ← waitForRestart (startupDelay sup.config sup.service) then return none
      else return some resuming
    else return some resuming

/-- `run` from its loop on. -/
def afterEntry (sup : Supervisor) : Option Bool → Run Int
  | some resuming => repeatFrom { resuming } (runTurn sup)
  | none => do
    log .status .wrapper stoppedMarker
    return 0

theorem runLoop_eq (sup : Supervisor) (resuming : Bool) :
    runLoop sup resuming = enterLoop.delayed sup resuming >>= afterEntry sup := by
  rw [runLoop, enterLoop.delayed]
  split
  · rw [bind_assoc]
    refine bind_congr (fun stop => ?_)
    cases stop with
    | true => exact (pure_bind _ _).symm
    | false => exact (pure_bind _ _).symm
  · exact (pure_bind _ _).symm

/-- The two ends of the pause on startup, for any programs that follow it. -/
theorem resumed_or_stopped {α : Type} {f : α → Run Int} {go : Run α} {halt : α} {goOn last : Run Int}
    (hgo : goOn = go >>= f) (hover : last = pure halt >>= f) : ∀ r : PausedOutcome,
    (match r with
      | .resume => goOn
      | .stop => last) = (match r with
        | .resume => go
        | .stop => pure halt) >>= f
  | .resume => hgo
  | .stop => hover

theorem run_eq (sup : Supervisor) : run sup = enterLoop sup >>= afterEntry sup := by
  rw [run, enterLoop, bind_assoc]
  refine bind_congr (fun _ => ?_)
  by_cases hpause : (sup.config.getBool "wrapper.pause_on_startup" false && sup.pausable) = true
  · rw [if_pos hpause, if_pos hpause, bind_assoc]
    exact bind_congr (resumed_or_stopped (runLoop_eq sup true) (pure_bind _ _).symm)
  · rw [if_neg hpause, if_neg hpause]
    exact runLoop_eq sup false

/-! ## What counts -/

/-- What `run` makes of an outcome before it looks at it. -/
def resolve (sup : Supervisor) : RunOutcome → RunOutcome
  | .exited elapsed exitCode => resolved sup elapsed exitCode
  | outcome => outcome

def tooSoon (sup : Supervisor) (outcome : RunOutcome) : Bool :=
  match resolve sup outcome with
  | .restart elapsed _ _ => elapsed < successfulTime sup
  | _ => false

/-- How many of the last outcomes, in a row, are restarts that came too soon. -/
def streak (sup : Supervisor) (outcomes : List RunOutcome) : Nat := (outcomes.rtakeWhile (tooSoon sup)).length

theorem streak_concat (sup : Supervisor) (outcomes : List RunOutcome) (o : RunOutcome) :
    streak sup (outcomes ++ [o]) = if tooSoon sup o then streak sup outcomes + 1 else 0 := by
  unfold streak
  rw [List.rtakeWhile_concat]
  by_cases h : tooSoon sup o = true
  · rw [if_pos h, if_pos h, List.length_append, List.length_singleton]
  · rw [if_neg h, if_neg h, List.length_nil]

theorem parseUnsigned_le {max : Nat} {t : Text} {n : Nat} (h : Text.parseUnsigned max t = some n) : n ≤ max := by
  unfold Text.parseUnsigned at h
  obtain ⟨-, hn⟩ := Option.filter_eq_some_iff.1 h
  simpa using hn

theorem getU64_le (config : Config) (name : Text) {default : Nat} (h : default ≤ Text.u64Max) :
    config.getU64 name default ≤ Text.u64Max := by
  unfold Config.getU64
  cases hv : (config.get name).bind (fun value => Text.parseUnsigned Text.u64Max value.trim) with
  | none => exact h
  | some n =>
    obtain ⟨value, -, hparse⟩ := Option.bind_eq_some_iff.1 hv
    exact parseUnsigned_le hparse

theorem maxFailures_le (sup : Supervisor) : maxFailures sup ≤ Text.u64Max :=
  max_le (getU64_le _ _ (by decide)) (by decide)

/-- The counter is the streak, as far as it can count. -/
theorem countFailure_streak {sup : Supervisor} {outcomes : List RunOutcome} {o : RunOutcome} {failures : Nat}
    {elapsed : Duration} {automatic : Bool} {code : Int} (h : failures = min (streak sup outcomes) Text.u64Max)
    (ho : resolve sup o = .restart elapsed automatic code) :
    countFailure sup failures elapsed = min (streak sup (outcomes ++ [o])) Text.u64Max := by
  have hsoon : tooSoon sup o = decide (elapsed < successfulTime sup) := by
    unfold tooSoon
    rw [ho]
  unfold countFailure
  rw [streak_concat, hsoon, h]
  by_cases hlong : elapsed ≥ successfulTime sup
  · have hnot : ¬ elapsed < successfulTime sup := Nat.not_lt.2 hlong
    simp [hlong, hnot]
  · have hshort : elapsed < successfulTime sup := Nat.not_le.1 hlong
    simp only [if_neg hlong, decide_eq_true hshort, if_true]
    omega

/-! ## Runs -/

/-- **The outcomes a run has followed** by the time it is ready for the next launch. -/
inductive Reached (sup : Supervisor) (script : List Answer) : List RunOutcome → RunVars → Sys → Prop
  | start {resuming : Bool} {s : Sys} : enterLoop sup { script } = .ok (some resuming) s →
      Reached sup script [] { resuming } s
  | turn {outcomes : List RunOutcome} {vars vars' vars'' : RunVars} {o : RunOutcome} {s t u : Sys} :
      Reached sup script outcomes vars s → launchTurn sup vars s = .ok (o, vars') t →
      follow sup vars' o t = .ok (.inl vars'') u → Reached sup script (outcomes ++ [o]) vars'' u

/-- A launch changes no variable but the id file. -/
theorem launchTurn_spec (sup : Supervisor) (vars : RunVars) :
    Returns (fun r => ∃ file, r.2 = { vars with javaIdFile := file }) (launchTurn sup vars) := by
  have hlaunch : ∀ file, Returns (fun r => ∃ file, r.2 = { vars with javaIdFile := file })
      (launch sup { vars with javaIdFile := file }) :=
    fun file => returns_bind (fun _ => returns_bind (fun o => returns_pure ⟨file, rfl⟩))
  unfold launchTurn
  refine returns_bind (fun file => ?_)
  split
  · exact returns_bind (fun _ => hlaunch file)
  · exact hlaunch file

theorem launchTurn_vars {sup : Supervisor} {vars vars' : RunVars} {o : RunOutcome} {s t : Sys}
    (h : launchTurn sup vars s = .ok (o, vars') t) : ∃ file, vars' = { vars with javaIdFile := file } := by
  have hspec := launchTurn_spec sup vars s
  rw [h] at hspec
  exact hspec

theorem keeps_launchTurn_onward (sup : Supervisor) (vars : RunVars) : Keeps Onward (launchTurn sup vars) := by
  have hlaunch : ∀ vars, Keeps Onward (launch sup vars) := by
    intro vars
    refine keeps_bind (fun s => onward_note s _) (fun _ => ?_)
    exact keeps_bind (keeps_runOnce_onward sup _ _) (fun _ => keeps_pure _)
  unfold launchTurn
  refine keeps_bind (keeps_updateJavaIdFile sup vars) (fun file => ?_)
  split
  · exact keeps_bind keeps_attemptOutside (fun _ => hlaunch _)
  · exact hlaunch _

/-! ## The delay before a restart -/

/-- A control that ends a delay. -/
def Obs.endsDelay : Obs → Prop
  | .control .restartDelay (some .stop) | .control .restartDelay (some .consoleInterrupt)
  | .control .restartDelay none => True
  | _ => False

def Obs.goesOn (o : Obs) : Prop := ¬ o.endsDelay

instance : Quiet Obs.goesOn where
  plain o h := by
    cases o with
    | control site control => exact h.elim
    | _ => exact id
  delivered _ := id
  dropped _ := id

/-- Between two states of a run, a delay was told to end. -/
def StopRead (s t : Sys) : Prop := ∃ o ∈ t.trace.drop s.trace.length, o.endsDelay

theorem not_stopRead {s t : Sys} (h : Emits Obs.goesOn s t) : ¬ StopRead s t := by
  obtain ⟨new, htrace, hnew⟩ := h
  rintro ⟨o, ho, hends⟩
  rw [htrace, List.drop_left] at ho
  exact hnew o ho hends

theorem stopRead_of_heard {s t u : Sys} {control : Option Control} (h : Emits Obs.goesOn s t)
    (hc : Heard .restartDelay t control u) (hends : (Obs.control .restartDelay control).endsDelay) : StopRead s u := by
  obtain ⟨new, htrace, -⟩ := h
  have hu : u.trace = t.trace ++ [.control .restartDelay control] := by
    cases hc with
    | item c rest _ => rfl
    | closed => rfl
  refine ⟨.control .restartDelay control, ?_, hends⟩
  rw [hu, htrace, List.append_assoc, List.drop_left]
  simp

/-- Whether a delay from `s` on was stopped, or let pass. -/
structure Delayed (delay : Duration) (s : Sys) (stop : Bool) (t : Sys) : Prop where
  onward : t.script.length < s.script.length
  stopped : stop = true → StopRead s t
  passed : stop = false → ¬ StopRead s t ∧ s.clock + delay ≤ t.clock

theorem waitForRestart_spec (delay : Duration) (s : Sys) :
    (waitForRestart delay s).All (Delayed delay s) (fun _ _ => False) (fun _ => True) := by
  let R := Both (Emits Obs.goesOn) Onward
  unfold waitForRestart
  rw [all_bind]
  refine ((now_onward s).and (keeps_now (R := Emits Obs.goesOn) s)).mono (fun start t ht => ?_) (fun _ _ h => h.1)
    (fun _ _ => trivial)
  obtain ⟨⟨hclock, hscript, rfl⟩, hst⟩ := ht
  unfold repeatFrom
  refine all_iterate (I := fun _ => R t) (fun _ u hu => ?_) (fun _ _ _ => trivial) _ _ _ (refl_of R t)
  have hquiet : Emits Obs.goesOn s u := emits_trans hst hu.1
  unfold restartTurn
  rw [all_bind]
  refine ((now_onward u).and (keeps_now (R := R) u)).mono (fun now v hv => ?_) (fun _ _ h => h.1) (fun _ _ => trivial)
  obtain ⟨⟨-, -, rfl⟩, huv⟩ := hv
  have htv : R t v := trans_of R hu huv
  split
  · rw [all_bind]
    refine (recvControlTimeout_spec (R := R) _ _ v).mono (fun r w hw => ?_) (fun _ _ h => h) (fun _ _ => trivial)
    have hnext : ∀ x control, R v x → Heard .restartDelay x control w → R t w ∨
        (Obs.control .restartDelay control).endsDelay := by
      intro x control hx hc
      by_cases hends : (Obs.control .restartDelay control).endsDelay
      · exact .inr hends
      · have hxw : Onward x w := by
          cases hc with
          | _ => exact onward_of_eq rfl rfl
        exact .inl (trans_of R (trans_of R htv hx) ⟨emits_of_heard hc hends, hxw⟩)
    have hstop : ∀ x control, R v x → Heard .restartDelay x control w →
        (Obs.control .restartDelay control).endsDelay → Delayed delay s true w := by
      intro x control hx hc hends
      have htx := trans_of R htv hx
      have hxw : w.script = x.script := by
        cases hc with
        | _ => rfl
      refine ⟨?_, fun _ => stopRead_of_heard (emits_trans hst htx.1) hc hends, by simp⟩
      rw [hxw]
      exact Nat.lt_of_le_of_lt htx.2.script hscript
    cases r with
    | timeout => exact trans_of R htv hw
    | disconnected =>
      obtain ⟨x, hx, hc⟩ := hw
      exact hstop x none hx hc trivial
    | item c =>
      obtain ⟨x, hx, hc⟩ := hw
      have hgo := hnext x (some c) hx hc
      cases c with
      | stop => exact hstop x _ hx hc trivial
      | consoleInterrupt => exact hstop x _ hx hc trivial
      | _ => exact hgo.resolve_right id
  · rename_i hover
    have hemits : Emits Obs.goesOn s (v.note .delayOver) :=
      emits_trans (emits_trans hst htv.1) (emits_one rfl id)
    refine ⟨Nat.lt_of_le_of_lt htv.2.script hscript, by simp, fun _ => ⟨not_stopRead hemits, ?_⟩⟩
    exact (Nat.add_le_add_right hclock.clock delay).trans (Nat.not_lt.1 hover)

/-! ## What follows an outcome -/

def Obs.launchless (o : Obs) : Prop := ¬ o.launches

instance : Quiet Obs.launchless where
  plain o h := (plain_calm o h).1.1
  delivered _ := id
  dropped _ := id

theorem keeps_stopped (code : Int) : Keeps (Emits Obs.launchless) (stopped code) := by
  unfold stopped
  exact keeps_bind (keeps_marker (fun _ => emits_one rfl id)) (fun _ => keeps_pure _)

theorem stopped_spec (code : Int) : Returns (fun r => r = .inr code) (stopped code) := by
  unfold stopped
  exact returns_bind (fun _ => returns_pure rfl)

theorem StopRead.later {s t u : Sys} (h : StopRead s t) (htu : Emits Obs.launchless t u) : StopRead s u := by
  obtain ⟨o, ho, hends⟩ := h
  obtain ⟨new, htrace, -⟩ := htu
  have hle : t.trace <+: u.trace := ⟨new, htrace.symm⟩
  exact ⟨o, (hle.drop _).subset ho, hends⟩

/-- Whether a restart that follows these outcomes, the last one its own, is not one too many. -/
def Relaunches (sup : Supervisor) (automatic : Bool) (outcomes : List RunOutcome) : Prop :=
  restartsDisabled sup automatic = false ∧ streak sup outcomes < maxFailures sup

/-- **The law of restarting**: where a turn goes from an outcome that follows others. -/
def Throttled (sup : Supervisor) (outcomes : List RunOutcome) (o : RunOutcome) (s : Sys) (r : RunVars ⊕ Int)
    (t : Sys) : Prop :=
  match resolve sup o with
  | .stop code => r = .inr code
  | .pause => (∃ vars, r = .inl vars) ∨ r = .inr 0
  | .restart _ automatic code =>
    (¬ Relaunches sup automatic (outcomes ++ [o]) ∧ r = .inr code) ∨
      (Relaunches sup automatic (outcomes ++ [o]) ∧ StopRead s t ∧ r = .inr 0) ∨
      (Relaunches sup automatic (outcomes ++ [o]) ∧ ¬ StopRead s t ∧ s.clock + restartDelay sup ≤ t.clock ∧
        ∃ vars, r = .inl vars)
  | .exited _ _ => False

/-- What the next turn starts with. -/
def Counted (sup : Supervisor) (outcomes : List RunOutcome) : RunVars ⊕ Int → Prop
  | .inl vars => vars.failedInvocations = min (streak sup outcomes) Text.u64Max
  | .inr _ => True

section Follow

variable {sup : Supervisor} {outcomes : List RunOutcome} {vars : RunVars} {o : RunOutcome}

/-- A run that ends with a code that the law gives. -/
theorem stopped_throttled {code : Int} {s t : Sys}
    (h : ∀ u, Emits Obs.launchless t u → Throttled sup outcomes o s (.inr code) u) :
    (stopped code t).All (fun r u => Throttled sup outcomes o s r u ∧ Counted sup (outcomes ++ [o]) r)
      (fun _ _ => True) (fun _ => True) := by
  refine ((stopped_spec code t).and (keeps_stopped code t)).mono (fun r u hr => ?_) (fun _ _ _ => trivial)
    (fun _ _ => trivial)
  obtain ⟨rfl, htu⟩ := hr
  exact ⟨h u htu, trivial⟩

theorem afterPause_spec (ho : resolve sup o = .pause) (s : Sys) :
    (afterPause vars s).All (fun r t => Throttled sup outcomes o s r t ∧ Counted sup (outcomes ++ [o]) r)
      (fun _ _ => True) (fun _ => True) := by
  have hlaw : ∀ r t, (∃ vars, r = .inl vars) ∨ r = .inr 0 → Throttled sup outcomes o s r t := by
    intro r t hr
    unfold Throttled
    rw [ho]
    exact hr
  have hstreak : streak sup (outcomes ++ [o]) = 0 := by
    have hsoon : tooSoon sup o = false := by
      unfold tooSoon
      rw [ho]
    rw [streak_concat, hsoon]
    rfl
  unfold afterPause
  rw [all_bind]
  refine (waitWhilePaused s).all_true.mono (fun r t _ => ?_) (fun _ _ _ => trivial) (fun _ h => h)
  cases r with
  | resume =>
    refine ⟨hlaw _ t (.inl ⟨_, rfl⟩), ?_⟩
    unfold Counted
    rw [hstreak]
    rfl
  | stop => exact stopped_throttled (fun u _ => hlaw _ u (.inr rfl))

theorem afterRestart_spec {elapsed : Duration} {automatic : Bool} {code : Int}
    (hvars : vars.failedInvocations = min (streak sup outcomes) Text.u64Max)
    (ho : resolve sup o = .restart elapsed automatic code) (s : Sys) :
    (afterRestart sup vars elapsed automatic code s).All
      (fun r t => Throttled sup outcomes o s r t ∧ Counted sup (outcomes ++ [o]) r)
      (fun _ _ => True) (fun _ => True) := by
  have hcount := countFailure_streak hvars ho
  have hmax := maxFailures_le sup
  have hgiveUp : ∀ (p : Run Unit), ¬ Relaunches sup automatic (outcomes ++ [o]) →
      ((p >>= fun _ => stopped code) s).All
        (fun r u => Throttled sup outcomes o s r u ∧ Counted sup (outcomes ++ [o]) r)
        (fun _ _ => True) (fun _ => True) := by
    intro p hnot
    rw [all_bind]
    refine (p s).all_true.mono (fun _ t _ => stopped_throttled (fun u _ => ?_)) (fun _ _ h => h) (fun _ h => h)
    unfold Throttled
    rw [ho]
    exact .inl ⟨hnot, rfl⟩
  rw [afterRestart_eq]
  by_cases hdisabled : restartsDisabled sup automatic = true
  · rw [if_pos hdisabled]
    refine hgiveUp _ (fun h => ?_)
    rw [h.1] at hdisabled
    cases hdisabled
  rw [if_neg hdisabled, hcount]
  by_cases hmany : min (streak sup (outcomes ++ [o])) Text.u64Max ≥ maxFailures sup
  · rw [if_pos hmany, ← bind_assoc]
    refine hgiveUp _ (fun h => ?_)
    have := h.2
    omega
  have hgoes : Relaunches sup automatic (outcomes ++ [o]) := ⟨by simpa using hdisabled, by omega⟩
  rw [if_neg hmany, all_bind]
  refine (waitForRestart_spec _ s).mono (fun stop t ht => ?_) (fun _ _ h => h.elim) (fun _ h => h)
  cases stop with
  | true =>
    refine stopped_throttled (fun u htu => ?_)
    unfold Throttled
    rw [ho]
    exact .inr (.inl ⟨hgoes, (ht.stopped rfl).later htu, rfl⟩)
  | false =>
    obtain ⟨hquiet, hdelay⟩ := ht.passed rfl
    refine ⟨?_, hcount⟩
    unfold Throttled
    rw [ho]
    exact .inr (.inr ⟨hgoes, hquiet, hdelay, _, rfl⟩)

/-! ### No JVM is launched -/

instance : Outputting (Emits Obs.launchless) where
  took _ _ _ _ _ := emits_one rfl id
  recorded _ _ := emits_one rfl id

theorem keeps_waitForRestart (delay : Duration) : Keeps (Emits Obs.launchless) (waitForRestart delay) := by
  unfold waitForRestart
  refine keeps_bind keeps_now (fun start => keeps_repeatFrom (fun _ => ?_) ())
  unfold restartTurn
  refine keeps_bind keeps_now (fun now => ?_)
  split
  · refine keeps_bind (keeps_recvControlTimeout (fun _ => id) _) (fun r => ?_)
    split <;> exact keeps_pure _
  · exact keeps_bind (keeps_emits id) (fun _ => keeps_pure _)

theorem keeps_afterPause (vars : RunVars) : Keeps (Emits Obs.launchless) (afterPause vars) := by
  have hwait : Keeps (Emits Obs.launchless) waitWhilePaused := by
    refine keeps_repeatFrom (fun _ => keeps_bind (keeps_emits id) (fun _ => ?_)) ()
    refine keeps_bind (keeps_recvControl (fun _ => id)) (fun r => ?_)
    split <;> exact keeps_pure _
  unfold afterPause
  refine keeps_bind hwait (fun r => ?_)
  cases r with
  | resume => exact keeps_pure _
  | stop => exact keeps_stopped 0

theorem keeps_afterRestart (sup : Supervisor) (vars : RunVars) (elapsed : Duration) (automatic : Bool) (code : Int) :
    Keeps (Emits Obs.launchless) (afterRestart sup vars elapsed automatic code) := by
  have hlog : ∀ level message, Keeps (Emits Obs.launchless) (log level .wrapper message) := by
    intro level message
    unfold log logMessage
    refine keeps_bind keeps_ask (fun a => ?_)
    split
    · exact keeps_bind (keeps_emits id) (fun _ => keeps_throw _)
    · exact keeps_emits id
  rw [afterRestart_eq]
  split
  · exact keeps_bind (hlog _ _) (fun _ => keeps_stopped code)
  split
  · exact keeps_bind (hlog _ _) (fun _ => keeps_bind (hlog _ _) (fun _ => keeps_stopped code))
  · refine keeps_bind (keeps_waitForRestart _) (fun stop => ?_)
    split
    · exact keeps_stopped 0
    · exact keeps_pure _

theorem keeps_followResolved (sup : Supervisor) (vars : RunVars) (o : RunOutcome) :
    Keeps (Emits Obs.launchless) (followResolved sup vars o) := by
  cases o with
  | stop code => exact keeps_stopped code
  | pause => exact keeps_afterPause vars
  | restart elapsed automatic code => exact keeps_afterRestart sup vars elapsed automatic code
  | exited elapsed code => exact keeps_throw _

/-- **No JVM is launched** by what follows an outcome. -/
theorem keeps_follow (sup : Supervisor) (vars : RunVars) (o : RunOutcome) :
    Keeps (Emits Obs.launchless) (follow sup vars o) := by
  have hresolve : Keeps (Emits Obs.launchless) (resolveExit sup o) := by
    unfold resolveExit
    cases o with
    | exited elapsed code =>
      refine keeps_bind (keeps_emits id) (fun _ => ?_)
      split <;> exact keeps_pure _
    | _ => exact keeps_pure _
  exact keeps_bind hresolve (fun o => keeps_followResolved sup vars o)

/-! ### The whole turn -/

/-- The outcome's exit action is no control. -/
theorem Throttled.of_exitAction {s t : Sys} {r : RunVars ⊕ Int} {code : Int} {action : ExitAction}
    (h : Throttled sup outcomes o (s.note (.exitAction code action)) r t)
    (hst : Emits Obs.launchless (s.note (.exitAction code action)) t) : Throttled sup outcomes o s r t := by
  obtain ⟨new, htrace, -⟩ := hst
  have hread : StopRead s t ↔ StopRead (s.note (.exitAction code action)) t := by
    have hlong : t.trace = s.trace ++ .exitAction code action :: new := by
      rw [htrace, Sys.note, List.append_assoc]
      rfl
    unfold StopRead
    rw [hlong, List.drop_left, ← hlong, htrace, List.drop_left]
    simp [Obs.endsDelay]
  unfold Throttled at h ⊢
  cases hres : resolve sup o with
  | stop code => simpa [hres] using h
  | pause => simpa [hres] using h
  | exited elapsed code => simp [hres] at h
  | restart elapsed automatic code =>
    rw [hres] at h
    simp only at h ⊢
    rw [hread]
    exact h

theorem followResolved_spec (hvars : vars.failedInvocations = min (streak sup outcomes) Text.u64Max) (s : Sys) :
    (followResolved sup vars (resolve sup o) s).All
      (fun r t => Throttled sup outcomes o s r t ∧ Counted sup (outcomes ++ [o]) r)
      (fun _ _ => True) (fun _ => True) := by
  cases ho : resolve sup o with
  | stop code =>
    refine stopped_throttled (fun u _ => ?_)
    unfold Throttled
    rw [ho]
  | pause => exact afterPause_spec ho s
  | restart elapsed automatic code => exact afterRestart_spec hvars ho s
  | exited elapsed code => trivial

/-- **Where a turn goes**, once the launch has an outcome. -/
theorem follow_spec (hvars : vars.failedInvocations = min (streak sup outcomes) Text.u64Max) (o : RunOutcome) (s : Sys) :
    (follow sup vars o s).All
      (fun r t => Throttled sup outcomes o s r t ∧ Counted sup (outcomes ++ [o]) r ∧ Emits Obs.launchless s t)
      (fun _ => Emits Obs.launchless s) (Emits Obs.launchless s) := by
  have hspec : (follow sup vars o s).All
      (fun r t => Throttled sup outcomes o s r t ∧ Counted sup (outcomes ++ [o]) r) (fun _ _ => True)
      (fun _ => True) := by
    unfold follow
    rw [all_bind]
    cases o with
    | exited elapsed code =>
      rw [resolveExit_exited]
      have hlaw := followResolved_spec (o := .exited elapsed code) hvars
        (s.note (.exitAction code (onExitAction sup.config code)))
      refine (hlaw.and (keeps_followResolved sup vars _ _)).mono (fun r t ht => ?_) (fun _ _ h => h.1) (fun _ h => h.1)
      exact ⟨ht.1.1.of_exitAction ht.2, ht.1.2⟩
    | stop code => exact followResolved_spec (o := .stop code) hvars s
    | pause => exact followResolved_spec (o := .pause) hvars s
    | restart elapsed automatic code => exact followResolved_spec (o := .restart elapsed automatic code) hvars s
  exact (hspec.and (keeps_follow sup vars o s)).mono (fun _ _ h => ⟨h.1.1, h.1.2, h.2⟩) (fun _ _ h => h.2)
    (fun _ h => h.2)

end Follow

/-! ## Turns use up the script -/

theorem recvControl_onward (site : ControlSite) (s : Sys) :
    (recvControl site s).All (fun _ t => t.script.length < s.script.length) (fun _ _ => False) (fun _ => True) := by
  unfold recvControl
  rw [all_bind]
  refine (ask_onward s).mono (fun a u hu => ?_) (fun _ _ h => h) (fun _ _ => trivial)
  rw [all_bind, all_get]
  cases u.controls with
  | cons c rest => exact hu.2
  | nil =>
    simp only
    split
    · trivial
    · exact hu.2

theorem waitWhilePaused_onward (s : Sys) :
    (waitWhilePaused s).All (fun _ t => t.script.length < s.script.length) (fun _ _ => False) (fun _ => True) := by
  unfold waitWhilePaused repeatFrom
  refine all_iterate (I := fun _ t => t.script.length ≤ s.script.length) (fun _ t ht => ?_) (fun _ _ _ => trivial) _ _ _
    (Nat.le_refl _)
  unfold pausedTurn emit
  rw [all_bind, all_modify, all_bind]
  refine (recvControl_onward .paused _).mono (fun r u hu => ?_) (fun _ _ h => h) (fun _ h => h)
  have hless : u.script.length < s.script.length := Nat.lt_of_lt_of_le hu ht
  cases r with
  | none => exact hless
  | some c =>
    cases c with
    | stop => exact hless
    | consoleInterrupt => exact hless
    | resume => exact hless
    | _ => exact Nat.le_of_lt hless

/-- A program that goes on with the loop only after it has taken an answer. -/
def Asks (p : Run (RunVars ⊕ Int)) : Prop :=
  ∀ s, (p s).All (fun r t => ∀ vars, r = .inl vars → t.script.length < s.script.length) (fun _ _ => True)
    (fun _ => True)

theorem asks_bind {α : Type} {p : Run α} {f : α → Run (RunVars ⊕ Int)} (hp : Keeps Onward p) (hf : ∀ a, Asks (f a)) :
    Asks (p >>= f) := by
  intro s
  rw [all_bind]
  refine (hp s).mono (fun a t ht => ?_) (fun _ _ _ => trivial) (fun _ _ => trivial)
  exact (hf a t).mono (fun r u hu vars hr => Nat.lt_of_lt_of_le (hu vars hr) ht.script) (fun _ _ h => h) (fun _ h => h)

theorem asks_stopped (code : Int) : Asks (stopped code) := by
  intro s
  refine (stopped_spec code s).mono (fun r t hr vars hvars => ?_) (fun _ _ h => h) (fun _ h => h)
  rw [hr] at hvars
  cases hvars

theorem asks_afterPause (vars : RunVars) : Asks (afterPause vars) := by
  intro s
  unfold afterPause
  rw [all_bind]
  refine (waitWhilePaused_onward s).mono (fun r t ht => ?_) (fun _ _ _ => trivial) (fun _ h => h)
  cases r with
  | resume => exact fun _ _ => ht
  | stop =>
    refine (asks_stopped 0 t).mono (fun r u hu vars hr => ?_) (fun _ _ h => h) (fun _ h => h)
    exact Nat.lt_trans (hu vars hr) ht

theorem asks_afterRestart (sup : Supervisor) (vars : RunVars) (elapsed : Duration) (automatic : Bool) (code : Int) :
    Asks (afterRestart sup vars elapsed automatic code) := by
  have hlog : ∀ level message, Keeps Onward (log level .wrapper message) := by
    intro level message
    unfold log logMessage
    refine keeps_bind keeps_ask (fun a => ?_)
    split
    · exact keeps_bind (fun s => onward_note s _) (fun _ => keeps_throw _)
    · exact fun s => onward_note s _
  rw [afterRestart_eq]
  split
  · exact asks_bind (hlog _ _) (fun _ => asks_stopped code)
  split
  · exact asks_bind (hlog _ _) (fun _ => asks_bind (hlog _ _) (fun _ => asks_stopped code))
  · intro s
    rw [all_bind]
    refine (waitForRestart_spec _ s).mono (fun stop t ht => ?_) (fun _ _ h => h.elim) (fun _ h => h)
    cases stop with
    | true =>
      refine (asks_stopped 0 t).mono (fun r u hu vars hr => ?_) (fun _ _ h => h) (fun _ h => h)
      exact Nat.lt_trans (hu vars hr) ht.onward
    | false => exact fun _ _ => ht.onward

/-- **A turn that goes on has taken an answer.** -/
theorem asks_runTurn (sup : Supervisor) (vars : RunVars) : Asks (runTurn sup vars) := by
  rw [runTurn_eq]
  refine asks_bind (keeps_launchTurn_onward sup vars) (fun r => ?_)
  have hresolve : Keeps Onward (resolveExit sup r.1) := by
    unfold resolveExit
    cases r.1 with
    | exited elapsed code =>
      refine keeps_bind (fun s => onward_note s _) (fun _ => ?_)
      split <;> exact keeps_pure _
    | _ => exact keeps_pure _
  refine asks_bind hresolve (fun o => ?_)
  cases o with
  | stop code => exact asks_stopped code
  | pause => exact asks_afterPause _
  | restart elapsed automatic code => exact asks_afterRestart sup _ elapsed automatic code
  | exited elapsed code => exact fun _ => trivial

theorem runTurn_onward {sup : Supervisor} (vars : RunVars) (s : Sys) (vars' : RunVars) (t : Sys)
    (h : runTurn sup vars s = .ok (.inl vars') t) : t.script.length < s.script.length := by
  have hasks := asks_runTurn sup vars s
  rw [h] at hasks
  exact hasks vars' rfl

/-! ## The whole run -/

section Whole

variable {sup : Supervisor} {script : List Answer}

theorem Reached.counted {outcomes : List RunOutcome} {vars : RunVars} {s : Sys} (h : Reached sup script outcomes vars s) :
    vars.failedInvocations = min (streak sup outcomes) Text.u64Max := by
  induction h with
  | start _ => rfl
  | @turn outcomes vars vars' vars'' o s t u _ hlaunch hfollow ih =>
    obtain ⟨file, rfl⟩ := launchTurn_vars hlaunch
    have hspec := @follow_spec sup outcomes { vars with javaIdFile := file } ih o t
    rw [hfollow] at hspec
    exact hspec.2.1

theorem runTurn_of_parts {vars vars' : RunVars} {o : RunOutcome} {s t : Sys}
    (h : launchTurn sup vars s = .ok (o, vars') t) : runTurn sup vars s = follow sup vars' o t := by
  rw [runTurn_eq]
  simp only [Bind.bind, h]

/-- **A run goes on from each state it has reached.** -/
theorem Reached.run_eq {outcomes : List RunOutcome} {vars : RunVars} {s : Sys} (h : Reached sup script outcomes vars s) :
    run sup { script } = repeatFrom vars (runTurn sup) s := by
  induction h with
  | @start resuming s henter =>
    rw [Supervisor.run_eq]
    simp only [Bind.bind, henter]
    rfl
  | @turn outcomes vars vars' vars'' o s t u _ hlaunch hfollow ih =>
    have hturn : runTurn sup vars s = .ok (.inl vars'') u := (runTurn_of_parts hlaunch).trans hfollow
    have hless := runTurn_onward vars s vars'' u hturn
    rw [ih]
    unfold repeatFrom
    rw [Prog.iterate]
    simp only [Bind.bind, hturn]
    exact iterate_enough (fun s => s.script.length) runTurn_onward _ _ _ _ hless (Nat.lt_succ_self _)

/-- The turns that a loop has made reach its state. -/
theorem reached_of_iterated {resuming : Bool} {s t : Sys} {vars : RunVars}
    (hs : enterLoop sup { script } = .ok (some resuming) s) (h : Iterated (runTurn sup) { resuming } s vars t) :
    ∃ outcomes, Reached sup script outcomes vars t := by
  induction h with
  | start => exact ⟨[], .start hs⟩
  | @turn vars vars' t u _ hbody ih =>
    obtain ⟨outcomes, hreached⟩ := ih
    rw [runTurn_eq] at hbody
    obtain ⟨⟨o, vars''⟩, v, hlaunch, hfollow⟩ := ok_of_bind hbody
    exact ⟨outcomes ++ [o], .turn hreached hlaunch hfollow⟩

/-- **How a run returns**: before its loop, or from what follows an outcome. -/
theorem returned_from {code : Int} {t : Sys} (h : run sup { script } = .ok code t) :
    (code = 0 ∧ ∃ s, enterLoop sup { script } = .ok none s) ∨
      ∃ outcomes vars vars' o s u, Reached sup script outcomes vars s ∧ launchTurn sup vars s = .ok (o, vars') u ∧
        follow sup vars' o u = .ok (.inr code) t := by
  rw [run_eq] at h
  obtain ⟨entry, s, henter, hafter⟩ := ok_of_bind h
  cases entry with
  | none =>
    obtain ⟨_, u, -, hcode⟩ := ok_of_bind hafter
    cases hcode
    exact .inl ⟨rfl, s, henter⟩
  | some resuming =>
    obtain ⟨vars, u, hturns, hlast⟩ := iterated_of_ok hafter
    obtain ⟨outcomes, hreached⟩ := reached_of_iterated henter hturns
    rw [runTurn_eq] at hlast
    obtain ⟨⟨o, vars'⟩, v, hlaunch, hfollow⟩ := ok_of_bind hlast
    exact .inr ⟨outcomes, vars, vars', o, u, v, hreached, hlaunch, hfollow⟩

end Whole

/-- **Restarts are throttled.**  Whatever a run has followed so far, it goes on with the next turn of its loop; from
every outcome of that turn's launch it goes where the law says, and launches nothing on the way; and it returns from
nowhere else, but for a stop before its first launch. -/
theorem restarts_are_throttled (sup : Supervisor) (script : List Answer) :
    (∀ outcomes vars s, Reached sup script outcomes vars s →
      run sup { script } = repeatFrom vars (runTurn sup) s ∧
      ∀ o vars' t, launchTurn sup vars s = .ok (o, vars') t →
        (follow sup vars' o t).All
          (fun r u => Throttled sup outcomes o t r u ∧ Emits Obs.launchless t u ∧
            ∀ code, r = .inr code → run sup { script } = .ok code u)
          (fun _ => Emits Obs.launchless t) (Emits Obs.launchless t)) ∧
    ∀ code t, run sup { script } = .ok code t →
      (code = 0 ∧ ∃ s, enterLoop sup { script } = .ok none s) ∨
        ∃ outcomes vars vars' o s u, Reached sup script outcomes vars s ∧ launchTurn sup vars s = .ok (o, vars') u ∧
          follow sup vars' o u = .ok (.inr code) t := by
  refine ⟨fun outcomes vars s hreached => ⟨hreached.run_eq, fun o vars' t hlaunch => ?_⟩, fun code t => returned_from⟩
  obtain ⟨file, rfl⟩ := launchTurn_vars hlaunch
  have hspec := @follow_spec sup outcomes { vars with javaIdFile := file } hreached.counted o t
  cases hfollow : follow sup { vars with javaIdFile := file } o t with
  | ok r u =>
    rw [hfollow] at hspec
    refine ⟨hspec.1, hspec.2.2, fun code hr => ?_⟩
    subst hr
    rw [hreached.run_eq, repeatFrom, Prog.iterate]
    simp only [Bind.bind, (runTurn_of_parts hlaunch).trans hfollow]
    rfl
  | err e u =>
    rw [hfollow] at hspec
    exact hspec
  | blocked u =>
    rw [hfollow] at hspec
    exact hspec

def impatient : Supervisor :=
  .sample { properties := [("wrapper.max_failed_invocations".toList, "2".toList), ("wrapper.restart.delay".toList, "0".toList)] }

def failedLaunch : List Answer := quiet 6 ++ [{ failure := some (.io .other) }] ++ quiet 2

def twoFailedLaunches : List Answer := quiet 4 ++ failedLaunch ++ quiet 3 ++ failedLaunch ++ quiet 3

theorem second_failure_gives_up : ∃ outcomes vars vars' o s t u, Reached impatient twoFailedLaunches outcomes vars s ∧
    launchTurn impatient vars s = .ok (o, vars') t ∧ follow impatient vars' o t = .ok (.inr 1) u := by
  have hcode : (run impatient { script := twoFailedLaunches }).result = some 1 := by decide +kernel
  rcases (restarts_are_throttled impatient twoFailedLaunches).2 1 _ (Outcome.eq_of_result hcode) with h | h
  · exact absurd h.1 (by decide)
  · obtain ⟨outcomes, vars, vars', o, s, t, h⟩ := h
    exact ⟨outcomes, vars, vars', o, s, t, _, h⟩

end Supervisor
end Jss
