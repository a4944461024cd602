import ServiceSteward.WholeFrames
/-!
# OneReport — what the bridge reports, it reports once

STARTED, STOPPED and the STOP of the shutdown hook each go out at most once, whatever the threads do: each is a token that
a thread gets from a flag of the JVM and loses where the last byte of its packet is written (`Budget.conserves`).  And
they say what is the case: STOPPED follows a stop of the wrapper, and **the hook reports that the application ended only
where no stop was carried out, the channel did not fail and `main` did not throw** (`each_report_goes_out_once`).
-/
namespace Jss
namespace Bridge

open Protocol (PING START LOW_LOG_LEVEL BAD_KEY PAUSE RESUME SERVICE_CONTROL)
open Interleaving.Machine (Holds Proves Conserves tokens)

/-! ## Tokens -/

/-- Which packets are counted, and what may become one of them. -/
structure Weights where
  packet : Sent → Bool
  call : Call → Nat := fun _ => 0
  listenerStart : Nat := 0
  startApplication : Nat := 0

def Weights.body (w : Weights) : Body → Nat
  | .listenerStart => w.listenerStart
  | _ => 0

/-- How many of the counted packets the task may still send. -/
@[simp] def Task.tokens (w : Weights) : Task → Nat
  | .call c next => w.call c + next.tokens w
  | .send hook code message thrown next => (w.packet ⟨hook, code, message⟩).toNat + max (thrown.tokens w) (next.tokens w)
  | .set _ next | .close next | .countDown next | .await next | .startStopThread next | .joinStopThread next
  | .waitForApplicationThreads next => next.tokens w
  | .test _ ifSet otherwise => max (ifSet.tokens w) (otherwise.tokens w)
  | .application body => w.body body
  | .startApplication => w.startApplication
  | _ => 0

def Thread.tokens (w : Weights) : Thread → Nat
  | .at t => t.tokens w
  | .writing hook code message rest thrown next =>
    (if rest = [] then 0 else (w.packet ⟨hook, code, message⟩).toNat) + max (thrown.tokens w) (next.tokens w)

/-- What the flags of the JVM still give out: `stoppedSent`, `application`, and whether the shutdown began. -/
abbrev Reserve := Bool → Bool → Bool → Nat

def Jvm.reserve (reserve : Reserve) (s : Jvm) : Nat := reserve s.client.stoppedSent s.application s.shutdown.isSome

def Jvm.tokens (w : Weights) (reserve : Reserve) (s : Jvm) : Nat := s.reserve reserve + s.sent.countP w.packet

/-- **Nothing is counted that no flag gave out.** -/
structure Budget (launcher : Launcher) (w : Weights) (reserve : Reserve) : Prop where
  ping : ∀ message, w.packet ⟨false, PING.toNat, message⟩ = false
  calls : ∀ c, c ≠ .reportStarted → w.call c = 0
  performs : ∀ {client client' : BackendClient} {c : Call} {packet : Option (Nat × JString)},
    client.perform c = (client', packet) → ∀ application shutdown,
      reserve client'.stoppedSent application shutdown +
          (packet.elim 0 fun p => (w.packet ⟨false, p.1, p.2⟩).toNat) ≤
        reserve client.stoppedSent application shutdown + w.call c
  onStart : (Bridge.onStart launcher).tokens w = 0
  starts : ∀ stoppedSent shutdown,
    reserve stoppedSent true shutdown + w.call .reportStarted ≤ reserve stoppedSent false shutdown + w.startApplication
  listener : w.call .reportStarted ≤ w.listenerStart
  exits : ∀ stoppedSent application,
    reserve stoppedSent application true + (w.packet ⟨true, STOP, .ofText "0".toList⟩).toNat ≤
      reserve stoppedSent application false

variable {launcher : Launcher} {w : Weights} {reserve : Reserve}

theorem ioException_tokens (w : Weights) : ioException.tokens w = 0 := rfl

theorem stopped_tokens (h : Budget launcher w reserve) (exitCode : Int) : (stopped exitCode).tokens w = 0 := by
  simp [stopped, Task.tokens, h.calls]

theorem onStop_tokens (h : Budget launcher w reserve) (exitCode : Int) : (onStop launcher exitCode).tokens w = 0 := by
  cases launcher with
  | application => exact stopped_tokens h exitCode
  | listener => rfl
  | startStop waits =>
    cases waits with
    | true => exact stopped_tokens h exitCode
    | false => exact stopped_tokens h exitCode

theorem onJvmShutdown_tokens (w : Weights) :
    onJvmShutdown.tokens w = (w.packet ⟨true, STOP, .ofText "0".toList⟩).toNat := by
  simp [onJvmShutdown, Task.tokens]

theorem returned_tokens (h : Budget launcher w reserve) (body : Body) (exitCode : Option Int) :
    (returned body exitCode).tokens w ≤ w.body body := by
  cases body with
  | listenerStart =>
    cases exitCode with
    | none => simpa [returned, Task.tokens, Weights.body] using h.listener
    | some exitCode => simp [returned, Task.tokens, h.calls]
  | listenerStop code => simp [returned, stopped_tokens h]
  | _ => simp [returned, Task.tokens]

theorem threw_tokens (h : Budget launcher w reserve) (body : Body) : (threw body).tokens w = 0 := by
  cases body with
  | listenerStop code => exact stopped_tokens h _
  | _ => rfl

theorem crashed_tokens (w : Weights) (body : Body) : (crashed body).tokens w = 0 := by
  cases body with
  | _ => rfl

theorem handle_tokens {setup : Setup} (h : Budget setup.launcher w reserve) (s : Jvm) (code : Nat) (message : JString) :
    (handle setup.runtime setup.launcher s code message).1.tokens w reserve = s.tokens w reserve ∧
      (handle setup.runtime setup.launcher s code message).2.tokens w = 0 := by
  unfold handle
  split
  · exact ⟨rfl, h.onStart⟩
  split
  · exact ⟨rfl, onStop_tokens h _⟩
  split
  · simp [Task.tokens, h.ping, ioException_tokens]
  split
  · exact ⟨rfl, rfl⟩
  split
  · cases setup.launcher with
    | _ => exact ⟨rfl, rfl⟩
  split
  · exact ⟨rfl, rfl⟩
  · exact ⟨rfl, rfl⟩

/-- The shutdown begins once, and the hook has its one packet. -/
theorem exit_tokens {setup : Setup} (h : Budget setup.launcher w reserve) (s : Jvm) (cause : Cause) :
    (s.exit setup.hook cause).1.tokens w reserve + ((s.exit setup.hook cause).2.map (Task.tokens w)).sum ≤
      s.tokens w reserve := by
  have hexits := h.exits s.client.stoppedSent s.application
  unfold Jvm.exit
  cases hs : s.shutdown with
  | some _ => simp
  | none =>
    cases setup.hook with
    | true =>
      simp only [Jvm.tokens, Jvm.reserve, hs, if_true, List.map_cons, List.map_nil, List.sum_cons, List.sum_nil,
        Option.isSome_some, Option.isSome_none, onJvmShutdown_tokens]
      omega
    | false =>
      simp only [Jvm.tokens, Jvm.reserve, hs, Bool.false_eq_true, if_false, List.map_cons, List.map_nil, List.sum_cons,
        List.sum_nil, Option.isSome_some, Option.isSome_none, Task.tokens]
      omega

/-- **A thread that is not writing makes no tokens.** -/
theorem proceed_tokens {setup : Setup} (hb : Budget setup.launcher w reserve) {s s' : Jvm} {t t' : Task} {answer : Answer}
    {started : List Task} (h : proceed setup s t answer = some (s', t', started)) :
    s'.tokens w reserve + t'.tokens w + (started.map (Task.tokens w)).sum ≤ s.tokens w reserve + t.tokens w := by
  cases t with
  | done => cases h
  | exiting => cases h
  | send hook code message thrown next => cases h
  | controlLoop =>
    cases h
    by_cases hr : s.wrapperRequestedStop = true <;> simp [hr, Task.tokens]
  | reading =>
    cases answer with
    | packet code message =>
      simp only [proceed, Option.some.injEq, Prod.mk.injEq] at h
      obtain ⟨rfl, rfl, rfl⟩ := h
      obtain ⟨hsame, hnone⟩ := handle_tokens hb s code message
      simp [hsame, hnone, Task.tokens]
    | timeout missing =>
      cases h
      cases missing with
      | true => simp [Task.tokens, ioException_tokens]
      | false => simp [Task.tokens]
    | failed =>
      cases h
      simp [Task.tokens, ioException_tokens]
    | _ => cases h
  | application body =>
    cases answer with
    | call c =>
      by_cases hc : c.public = true
      · simp only [proceed, hc, if_true] at h
        cases h
        have hne : c ≠ .reportStarted := by
          rintro rfl
          simp [Call.public] at hc
        simp [Task.tokens, hb.calls c hne]
      · simp only [proceed, hc] at h
        cases h
    | startsThread =>
      cases h
      simp [Task.tokens, Weights.body, Jvm.tokens, Jvm.reserve]
    | returns exitCode =>
      cases h
      simpa [Task.tokens] using returned_tokens hb body exitCode
    | throws =>
      cases h
      simp [threw_tokens hb body]
    | fails =>
      cases h
      simp [crashed_tokens w body]
    | exits =>
      cases h
      simp [Task.tokens]
    | _ => cases h
  | finish body =>
    cases h
    simp [Task.tokens, Jvm.ended, Jvm.tokens, Jvm.reserve]
  | call c next =>
    simp only [proceed] at h
    cases hp : s.client.perform c with
    | mk client r =>
      have hperforms := hb.performs hp s.application s.shutdown.isSome
      rw [hp] at h
      cases r with
      | none =>
        cases h
        simp only [Option.elim] at hperforms
        simp only [Jvm.tokens, Jvm.reserve, Task.tokens, List.map_nil, List.sum_nil]
        omega
      | some packet =>
        obtain ⟨code, message⟩ := packet
        cases h
        simp only [Option.elim] at hperforms
        simp only [Jvm.tokens, Jvm.reserve, Task.tokens, List.map_nil, List.sum_nil, Nat.max_self]
        omega
  | set flag next =>
    cases h
    cases flag <;> simp [Task.tokens, Jvm.set, Jvm.tokens, Jvm.reserve]
  | test flag ifSet otherwise =>
    cases h
    by_cases hf : s.get flag = true <;> simp [hf, Task.tokens]
  | close next =>
    simp only [proceed] at h
    split at h
    · cases h
    · cases h
      simp [Task.tokens, Jvm.tokens, Jvm.reserve]
  | startApplication =>
    simp only [proceed] at h
    split at h
    · cases h
      simp [Task.tokens]
    · rename_i hfirst
      have hstarts := hb.starts s.client.stoppedSent s.shutdown.isSome
      have hnot : s.application = false := by simpa using hfirst
      cases h
      simp only [Jvm.tokens, Jvm.reserve, Task.tokens, Weights.body, hnot, List.map_cons, List.map_nil, List.sum_cons,
        List.sum_nil]
      omega
  | countDown next =>
    cases h
    simp [Task.tokens, Jvm.tokens, Jvm.reserve]
  | await next =>
    simp only [proceed] at h
    split at h
    · cases h
      simp [Task.tokens]
    · cases h
  | startStopThread next =>
    cases h
    simp [Task.tokens, Weights.body, Jvm.tokens, Jvm.reserve]
  | joinStopThread next =>
    simp only [proceed] at h
    split at h
    · cases h
      simp [Task.tokens]
    · cases h
  | waitForApplicationThreads next =>
    simp only [proceed] at h
    split at h
    · cases h
      simp [Task.tokens]
    · cases h
  | exit cause =>
    cases h
    simpa [Task.tokens] using exit_tokens hb s cause
  | halt =>
    cases h
    simp [Task.tokens, Jvm.tokens, Jvm.reserve]
  | destroyJavaVM =>
    simp only [proceed] at h
    split at h
    · cases h
      simpa [Task.tokens] using exit_tokens hb s .ended
    · cases h
  | network =>
    cases h
    simp [Task.tokens, Jvm.tokens, Jvm.reserve]

/-- **No step of any thread makes tokens.** -/
theorem Budget.conserves {setup : Setup} (h : Budget setup.launcher w reserve) :
    Conserves (jvm setup) (Jvm.tokens w reserve) (Thread.tokens w) := by
  intro s i t answer s' t' started hact
  cases act_stepped hact with
  | proceeds hp =>
    rw [List.map_map]
    exact proceed_tokens h hp
  | refused _ _ =>
    simp only [Thread.tokens, Task.tokens, List.map_nil, List.sum_nil]
    omega
  | @enters hook code message thrown next bytes _ _ =>
    have hleft : (if bytes = [] then 0 else (w.packet ⟨hook, code, message⟩).toNat) ≤
        (w.packet ⟨hook, code, message⟩).toNat := by
      split <;> simp
    simp only [Thread.tokens, Task.tokens, Jvm.tokens, Jvm.reserve, List.map_nil, List.sum_nil]
    omega
  | @writes hook code message thrown next b rest _ =>
    by_cases hrest : rest = []
    · subst hrest
      simp only [Thread.tokens, Jvm.tokens, Jvm.reserve, List.map_nil, List.sum_nil, if_true, List.countP_append,
        List.countP_singleton, reduceCtorEq, if_false]
      cases w.packet ⟨hook, code, message⟩ with
      | true =>
        simp only [if_true, Bool.toNat_true]
        omega
      | false =>
        simp only [Bool.false_eq_true, if_false, Bool.toNat_false]
        omega
    · simp [Thread.tokens, Jvm.tokens, Jvm.reserve, hrest]
  | breaks b rest _ =>
    simp only [Thread.tokens, Jvm.tokens, Jvm.reserve, List.map_nil, List.sum_nil]
    omega
  | leaves =>
    simp only [Thread.tokens, Jvm.tokens, Jvm.reserve, List.map_nil, List.sum_nil]
    omega

/-- What is counted is at most what there was at the start. -/
theorem Budget.sent_le {setup : Setup} (h : Budget setup.launcher w reserve) (choices : List (Nat × Answer)) :
    ((jvm setup).run (connected setup.launcher) choices).shared.sent.countP w.packet ≤
      reserve false false false + (mainTask setup.launcher).tokens w := by
  have hrun := h.conserves.run (connected setup.launcher) choices
  have hstart : tokens (Jvm.tokens w reserve) (Thread.tokens w) (connected setup.launcher) =
      reserve false false false + (mainTask setup.launcher).tokens w := by
    simp [tokens, connected, Thread.tokens, Task.tokens, Jvm.tokens, Jvm.reserve]
  rw [hstart] at hrun
  refine Nat.le_trans ?_ hrun
  unfold tokens Jvm.tokens
  omega

/-! ### The three packets -/

theorem performs_code {client client' : BackendClient} {c : Call} {code : Nat} {message : JString}
    (h : client.perform c = (client', some (code, message))) :
    (code = STARTED → c = .reportStarted) ∧ (code = STOPPED → client.stoppedSent = false ∧ client'.stoppedSent = true ∧
      ∃ exitCode, c = .reportStopped exitCode) := by
  cases c with
  | reportStarted =>
    cases h
    simp [STARTED, STOPPED]
  | reportStopped exitCode =>
    simp only [BackendClient.perform] at h
    split at h
    · cases h
    · rename_i hsent
      cases h
      simp [STARTED, STOPPED, hsent]
  | requestStop exitCode =>
    cases h
    simp [STARTED, STOPPED, STOP]
  | requestRestart =>
    cases h
    simp [STARTED, STOPPED, RESTART]
  | signalStarting waitHintMillis =>
    cases h
    simp [STARTED, STOPPED, START_PENDING]
  | log level message =>
    simp only [BackendClient.perform] at h
    split at h
    · cases h
    · cases h
      unfold STARTED STOPPED LOG_BASE
      omega

theorem perform_stoppedSent (client : BackendClient) (c : Call) :
    client.stoppedSent = true → (client.perform c).1.stoppedSent = true := by
  intro h
  cases c with
  | reportStopped exitCode => simp [BackendClient.perform, h]
  | log level message =>
    simp only [BackendClient.perform]
    split <;> exact h
  | _ => exact h

def stoppedPackets : Weights where packet p := p.code = STOPPED

theorem budget_stopped (launcher : Launcher) :
    Budget launcher stoppedPackets (fun stoppedSent _ _ => (!stoppedSent).toNat) where
  ping message := by simp [stoppedPackets, PING, STOPPED]
  calls c _ := rfl
  performs {client client' c packet} h application shutdown := by
    have hkept := perform_stoppedSent client c
    rw [h] at hkept
    cases packet with
    | none =>
      cases hsent : client.stoppedSent <;> simp_all [stoppedPackets]
      exact Bool.toNat_le _
    | some p =>
      obtain ⟨code, message⟩ := p
      by_cases hcode : code = STOPPED
      · obtain ⟨hbefore, hafter, -⟩ := (performs_code h).2 hcode
        simp [hbefore, hafter, hcode, stoppedPackets]
      · cases hsent : client.stoppedSent <;> simp_all [stoppedPackets]
        exact Bool.toNat_le _
  onStart := by cases launcher <;> rfl
  starts _ _ := Nat.le_refl _
  listener := Nat.le_refl _
  exits _ _ := by simp [stoppedPackets, STOPPED, STOP]

/-- A listener's `start` reports that it started; otherwise the control thread reports it with the first START. -/
def startedPackets (launcher : Launcher) : Weights where
  packet p := p.code = STARTED
  call c := if c = .reportStarted then 1 else 0
  listenerStart := 1
  startApplication := if launcher = .listener then 1 else 0

theorem budget_started (launcher : Launcher) : Budget launcher (startedPackets launcher)
    (fun _ application _ => if launcher = .listener then 0 else (!application).toNat) where
  ping message := by simp [startedPackets, PING, STARTED]
  calls c hc := if_neg hc
  performs {client client' c packet} h application shutdown := by
    cases packet with
    | none => simp
    | some p =>
      obtain ⟨code, message⟩ := p
      by_cases hcode : code = STARTED
      · simp [(performs_code h).1 hcode, hcode, startedPackets]
      · simp [hcode, startedPackets]
  onStart := by cases launcher <;> rfl
  starts _ _ := by
    by_cases hl : launcher = .listener <;> simp [hl, startedPackets]
  listener := Nat.le_refl _
  exits _ _ := by simp [startedPackets, STARTED, STOP]

def hookPackets : Weights where packet p := p.hook

theorem budget_hook (launcher : Launcher) : Budget launcher hookPackets (fun _ _ shutdown => (!shutdown).toNat) where
  ping message := rfl
  calls c _ := rfl
  performs {client client' c packet} h application shutdown := by
    cases packet with
    | _ => simp [hookPackets]
  onStart := by cases launcher <;> rfl
  starts _ _ := Nat.le_refl _
  listener := Nat.le_refl _
  exits _ _ := by simp [hookPackets]

/-! ## Causes -/

/-- A shutdown has left behind why it happens. -/
def Jvm.Justified (s : Jvm) : Cause → Prop
  | .stop => s.wrapperRequestedStop = true
  | .failure | .thrown => s.abnormalExit = true
  | .application | .ended => True

/-- What the packet says is the case. -/
structure Jvm.Vouches (s : Jvm) (p : Sent) : Prop where
  stopped : p.code = STOPPED → s.wrapperRequestedStop = true
  hook : p.hook = true → p.code = STOP ∧ p.message = .ofText "0".toList ∧
    (s.shutdown = some .application ∨ s.shutdown = some .ended)

structure Sound (s : Jvm) : Prop where
  sent : ∀ p ∈ s.sent, s.Vouches p
  cause : ∀ c, s.shutdown = some c → s.Justified c

/-- The task will only send what is the case, and exit for a cause that is. -/
def Task.Safe : Task → Jvm → Prop
  | .call c next, s => (∀ exitCode, c = .reportStopped exitCode → s.wrapperRequestedStop = true) ∧ next.Safe s
  | .send hook code message thrown next, s => s.Vouches ⟨hook, code, message⟩ ∧ thrown.Safe s ∧ next.Safe s
  | .set flag next, s => next.Safe (s.set flag)
  | .test flag ifSet otherwise, s => ifSet.Safe s ∧ (s.get flag = false → otherwise.Safe s)
  | .close next, s | .countDown next, s | .await next, s | .startStopThread next, s | .joinStopThread next, s
  | .waitForApplicationThreads next, s => next.Safe s
  | .application (.listenerStop _), s => s.wrapperRequestedStop = true
  | .exit cause, s => s.Justified cause
  | _, _ => True

def Thread.Safe (s : Jvm) (_ : Nat) : Thread → Prop
  | .at t => t.Safe s
  | .writing hook code message _ thrown next => s.Vouches ⟨hook, code, message⟩ ∧ thrown.Safe s ∧ next.Safe s

/-- Flags stay set, and the first cause stays. -/
structure Later (s s' : Jvm) : Prop where
  flags : ∀ flag, s.get flag = true → s'.get flag = true
  shutdown : ∀ c, s.shutdown = some c → s'.shutdown = some c

theorem later_of_eq {s s' : Jvm} (requested : s'.wrapperRequestedStop = s.wrapperRequestedStop)
    (abnormal : s'.abnormalExit = s.abnormalExit) (shutting : s'.jvmShuttingDown = s.jvmShuttingDown)
    (shutdown : s'.shutdown = s.shutdown) : Later s s' where
  flags flag h := by
    cases flag with
    | wrapperRequestedStop => exact requested.trans h
    | abnormalExit => exact abnormal.trans h
    | jvmShuttingDown => exact shutting.trans h
  shutdown c h := shutdown.trans h

theorem later_refl (s : Jvm) : Later s s := later_of_eq rfl rfl rfl rfl

theorem later_set (s : Jvm) (flag : Flag) : Later s (s.set flag) where
  flags other h := by cases flag <;> cases other <;> simp_all [Jvm.get, Jvm.set]
  shutdown c h := by cases flag <;> exact h

theorem Later.set {s s' : Jvm} (h : Later s s') (flag : Flag) : Later (s.set flag) (s'.set flag) where
  flags other hset := by
    have hbefore := h.flags other
    cases flag <;> cases other <;> simp_all [Jvm.get, Jvm.set]
  shutdown c hs := by cases flag <;> exact h.shutdown c hs

theorem Later.justified {s s' : Jvm} (h : Later s s') {cause : Cause} (hc : s.Justified cause) : s'.Justified cause := by
  cases cause with
  | stop => exact h.flags .wrapperRequestedStop hc
  | failure => exact h.flags .abnormalExit hc
  | thrown => exact h.flags .abnormalExit hc
  | _ => trivial

theorem Later.vouches {s s' : Jvm} (h : Later s s') {p : Sent} (hp : s.Vouches p) : s'.Vouches p where
  stopped hcode := h.flags .wrapperRequestedStop (hp.stopped hcode)
  hook hhook := by
    obtain ⟨hcode, hmessage, hcause⟩ := hp.hook hhook
    exact ⟨hcode, hmessage, hcause.imp (h.shutdown _) (h.shutdown _)⟩

/-- **What was safe stays safe**: a test that fails later would have failed before. -/
theorem Task.Safe.later {t : Task} {s s' : Jvm} (h : Later s s') (ht : t.Safe s) : t.Safe s' := by
  induction t generalizing s s' with
  | call c next ih => exact ⟨fun exitCode hc => h.flags .wrapperRequestedStop (ht.1 exitCode hc), ih h ht.2⟩
  | send hook code message thrown next ihthrown ihnext =>
    exact ⟨h.vouches ht.1, ihthrown h ht.2.1, ihnext h ht.2.2⟩
  | set flag next ih => exact ih (h.set flag) ht
  | test flag ifSet otherwise ihset ihother =>
    refine ⟨ihset h ht.1, fun hnot => ihother h (ht.2 ?_)⟩
    by_contra hset
    have := h.flags flag (by simpa using hset)
    simp [hnot] at this
  | application body =>
    cases body with
    | listenerStop exitCode => exact h.flags .wrapperRequestedStop ht
    | _ => trivial
  | exit cause => exact h.justified ht
  | close next ih | countDown next ih | await next ih | startStopThread next ih | joinStopThread next ih
  | waitForApplicationThreads next ih => exact ih h ht
  | _ => trivial

theorem Thread.Safe.later {s s' : Jvm} {i : Nat} {t : Thread} (h : Later s s') (ht : t.Safe s i) : t.Safe s' i := by
  cases t with
  | «at» t => exact Task.Safe.later h ht
  | writing hook code message rest thrown next => exact ⟨h.vouches ht.1, ht.2.1.later h, ht.2.2.later h⟩

theorem Sound.later {s s' : Jvm} (hs : Sound s) (h : Later s s') (hsent : s'.sent = s.sent)
    (hcause : ∀ c, s'.shutdown = some c → s'.Justified c) : Sound s' where
  sent p hp := by
    rw [hsent] at hp
    exact h.vouches (hs.sent p hp)
  cause := hcause

theorem Sound.keep {s s' : Jvm} (hs : Sound s) (h : Later s s') (hsent : s'.sent = s.sent)
    (hshutdown : s'.shutdown = s.shutdown) : Sound s' :=
  hs.later h hsent (fun c hc => h.justified (hs.cause c (hshutdown ▸ hc)))

theorem vouches_plain (s : Jvm) {code : Nat} (message : JString) (h : code ≠ STOPPED) : s.Vouches ⟨false, code, message⟩ where
  stopped hcode := absurd hcode h
  hook hhook := by cases hhook

theorem ioException_safe (s : Jvm) : ioException.Safe s := ⟨trivial, fun _ => ⟨trivial, fun _ => rfl⟩⟩

theorem runtimeException_safe (s : Jvm) : runtimeException.Safe s := ⟨trivial, fun _ => rfl⟩

theorem stopped_safe {s : Jvm} (h : s.wrapperRequestedStop = true) (exitCode : Int) : (stopped exitCode).Safe s :=
  ⟨fun _ _ => h, h⟩

theorem onStop_safe {s : Jvm} (h : s.wrapperRequestedStop = true) (launcher : Launcher) (exitCode : Int) :
    (onStop launcher exitCode).Safe s := by
  cases launcher with
  | application => exact stopped_safe h exitCode
  | listener => exact h
  | startStop waits =>
    cases waits with
    | true => exact stopped_safe h exitCode
    | false => exact stopped_safe h exitCode

/-- **The hook** sends STOP only behind its two tests, which rule out every other cause. -/
theorem onJvmShutdown_safe {s : Jvm} (h : Sound s) (hdown : s.shutdown.isSome = true) : onJvmShutdown.Safe s := by
  obtain ⟨cause, hcause⟩ := Option.isSome_iff_exists.1 hdown
  have hjustified := h.cause cause hcause
  refine ⟨trivial, fun hrequested => ⟨trivial, fun habnormal => ⟨⟨fun hcode => ?_, fun _ => ⟨rfl, rfl, ?_⟩⟩, trivial, trivial⟩⟩⟩
  · simp [STOP, STOPPED] at hcode
  · have hnotRequested : s.wrapperRequestedStop = false := hrequested
    have hnotAbnormal : s.abnormalExit = false := habnormal
    cases cause with
    | stop => simp [Jvm.Justified, hnotRequested] at hjustified
    | failure => simp [Jvm.Justified, hnotAbnormal] at hjustified
    | thrown => simp [Jvm.Justified, hnotAbnormal] at hjustified
    | application => exact .inl hcause
    | ended => exact .inr hcause

theorem returned_safe {s : Jvm} {body : Body} (h : (Task.application body).Safe s) (exitCode : Option Int) :
    (returned body exitCode).Safe s := by
  cases body with
  | listenerStart =>
    cases exitCode with
    | none => exact ⟨by simp, trivial⟩
    | some exitCode => exact ⟨by simp, trivial⟩
  | listenerStop code => exact stopped_safe h _
  | _ => trivial

theorem threw_safe {s : Jvm} {body : Body} (h : (Task.application body).Safe s) : (threw body).Safe s := by
  cases body with
  | listenerStop code => exact stopped_safe h _
  | controlEvent => exact runtimeException_safe s
  | main => rfl
  | stop => rfl
  | listenerStart => rfl
  | other => trivial

theorem crashed_safe (s : Jvm) (body : Body) : (crashed body).Safe s := by
  cases body with
  | main => rfl
  | stop => rfl
  | _ => trivial

theorem handle_safe (setup : Setup) (s : Jvm) (code : Nat) (message : JString) :
    (handle setup.runtime setup.launcher s code message).2.Safe
      (handle setup.runtime setup.launcher s code message).1 := by
  unfold handle
  split
  · cases setup.launcher with
    | _ => trivial
  split
  · exact onStop_safe rfl _ _
  split
  · exact ⟨vouches_plain s message (by simp [PING, STOPPED]), ioException_safe s, trivial⟩
  split
  · trivial
  split
  · cases setup.launcher with
    | _ => trivial
  split
  · exact ioException_safe _
  · trivial

theorem handle_later (setup : Setup) (s : Jvm) (code : Nat) (message : JString) :
    Later s (handle setup.runtime setup.launcher s code message).1 ∧
      (handle setup.runtime setup.launcher s code message).1.sent = s.sent ∧
      (handle setup.runtime setup.launcher s code message).1.shutdown = s.shutdown := by
  unfold handle
  repeat' split
  all_goals exact ⟨later_of_eq rfl rfl rfl rfl, rfl, rfl⟩

/-- What a step of a thread leaves behind. -/
structure Leaves (s s' : Jvm) (t' : Task) (started : List Task) : Prop where
  later : Later s s'
  sound : Sound s'
  safe : t'.Safe s'
  started : ∀ u ∈ started, u.Safe s'

theorem leaves_same {s : Jvm} {t' : Task} (hs : Sound s) (ht : t'.Safe s) : Leaves s s t' [] :=
  ⟨later_refl s, hs, ht, by simp⟩

theorem leaves_exit {s : Jvm} (hs : Sound s) (hook : Bool) {cause : Cause} (hc : s.Justified cause) :
    Leaves s (s.exit hook cause).1 .exiting (s.exit hook cause).2 := by
  unfold Jvm.exit
  cases hdown : s.shutdown with
  | some _ => exact leaves_same hs trivial
  | none =>
    have hlater : Later s { s with shutdown := some cause } := ⟨fun flag h => h, fun c h => by simp [hdown] at h⟩
    have hsound : Sound { s with shutdown := some cause } := by
      refine hs.later hlater rfl (fun c h => ?_)
      cases h
      exact hc
    refine ⟨hlater, hsound, trivial, fun u hu => ?_⟩
    cases hook with
    | true =>
      rw [List.mem_singleton.1 hu]
      exact onJvmShutdown_safe hsound rfl
    | false =>
      rw [List.mem_singleton.1 hu]
      trivial

theorem proceed_leaves {setup : Setup} {s s' : Jvm} {t t' : Task} {answer : Answer} {started : List Task}
    (h : proceed setup s t answer = some (s', t', started)) (hs : Sound s) (ht : t.Safe s) : Leaves s s' t' started := by
  cases t with
  | done => cases h
  | exiting => cases h
  | send hook code message thrown next => cases h
  | controlLoop =>
    cases h
    exact leaves_same hs (by split <;> trivial)
  | reading =>
    cases answer with
    | packet code message =>
      cases h
      obtain ⟨hlater, hsent, hshutdown⟩ := handle_later setup s code message
      exact ⟨hlater, hs.keep hlater hsent hshutdown, handle_safe setup s code message, by simp⟩
    | timeout missing =>
      cases h
      refine leaves_same hs ⟨trivial, fun _ => ⟨trivial, fun _ => ?_⟩⟩
      cases missing with
      | true => exact ioException_safe _
      | false => trivial
    | failed =>
      cases h
      exact leaves_same hs (ioException_safe s)
    | _ => cases h
  | application body =>
    cases answer with
    | call c =>
      by_cases hc : c.public = true
      · simp only [proceed, hc, if_true] at h
        cases h
        refine leaves_same hs ⟨?_, ht⟩
        rintro exitCode rfl
        simp [Call.public] at hc
      · simp only [proceed, hc] at h
        cases h
    | startsThread =>
      cases h
      have hlater : Later s { s with nonDaemon := s.nonDaemon + 1 } := later_of_eq rfl rfl rfl rfl
      exact ⟨hlater, hs.keep hlater rfl rfl, ht.later hlater, by simp [Task.Safe]⟩
    | returns exitCode =>
      cases h
      exact leaves_same hs (returned_safe ht exitCode)
    | throws =>
      cases h
      exact leaves_same hs (threw_safe ht)
    | fails =>
      cases h
      exact leaves_same hs (crashed_safe s body)
    | exits =>
      cases h
      exact leaves_same hs trivial
    | _ => cases h
  | finish body =>
    cases h
    have hlater : Later s (s.ended body) := later_of_eq rfl rfl rfl rfl
    exact ⟨hlater, hs.keep hlater rfl rfl, trivial, by simp⟩
  | call c next =>
    simp only [proceed] at h
    cases hp : s.client.perform c with
    | mk client r =>
      have hlater : Later s { s with client } := later_of_eq rfl rfl rfl rfl
      rw [hp] at h
      cases r with
      | none =>
        cases h
        exact ⟨hlater, hs.keep hlater rfl rfl, ht.2.later hlater, by simp⟩
      | some packet =>
        obtain ⟨code, message⟩ := packet
        cases h
        refine ⟨hlater, hs.keep hlater rfl rfl, ⟨⟨fun hcode => ?_, fun hhook => ?_⟩, ht.2.later hlater, ht.2.later hlater⟩,
          by simp⟩
        · obtain ⟨-, -, exitCode, hc⟩ := (performs_code hp).2 hcode
          exact ht.1 exitCode hc
        · cases hhook
  | set flag next =>
    cases h
    refine ⟨later_set s flag, hs.keep (later_set s flag) ?_ ?_, ht, by simp⟩
    · cases flag <;> rfl
    · cases flag <;> rfl
  | test flag ifSet otherwise =>
    cases h
    refine leaves_same hs ?_
    by_cases hf : s.get flag = true
    · simpa [hf] using ht.1
    · simpa [hf] using ht.2 (by simpa using hf)
  | close next =>
    simp only [proceed] at h
    split at h
    · cases h
    · cases h
      have hlater : Later s { s with client := { s.client with connected := false } } := later_of_eq rfl rfl rfl rfl
      exact ⟨hlater, hs.keep hlater rfl rfl, Task.Safe.later hlater ht, by simp⟩
  | startApplication =>
    simp only [proceed] at h
    split at h
    · cases h
      exact leaves_same hs trivial
    · cases h
      have hlater : Later s { s with application := true, nonDaemon := s.nonDaemon + 1 } := later_of_eq rfl rfl rfl rfl
      exact ⟨hlater, hs.keep hlater rfl rfl, ⟨by simp, trivial⟩, by simp [Task.Safe]⟩
  | countDown next =>
    cases h
    have hlater : Later s { s with applicationStarted := true } := later_of_eq rfl rfl rfl rfl
    exact ⟨hlater, hs.keep hlater rfl rfl, Task.Safe.later hlater ht, by simp⟩
  | await next =>
    simp only [proceed] at h
    split at h
    · cases h
      exact leaves_same hs ht
    · cases h
  | startStopThread next =>
    cases h
    have hlater : Later s { s with nonDaemon := s.nonDaemon + 1 } := later_of_eq rfl rfl rfl rfl
    exact ⟨hlater, hs.keep hlater rfl rfl, Task.Safe.later hlater ht, by simp [Task.Safe]⟩
  | joinStopThread next =>
    simp only [proceed] at h
    split at h
    · cases h
      exact leaves_same hs ht
    · cases h
  | waitForApplicationThreads next =>
    simp only [proceed] at h
    split at h
    · cases h
      exact leaves_same hs ht
    · cases h
  | exit cause =>
    cases h
    exact leaves_exit hs setup.hook ht
  | halt =>
    cases h
    have hlater : Later s { s with halted := true } := later_of_eq rfl rfl rfl rfl
    exact ⟨hlater, hs.keep hlater rfl rfl, trivial, by simp⟩
  | destroyJavaVM =>
    simp only [proceed] at h
    split at h
    · cases h
      exact leaves_exit hs setup.hook trivial
    · cases h
  | network =>
    cases h
    have hlater : Later s { s with connectionLost := true } := later_of_eq rfl rfl rfl rfl
    exact ⟨hlater, hs.keep hlater rfl rfl, trivial, by simp⟩

/-- What a step of any thread leaves behind. -/
theorem act_leaves {setup : Setup} {s s' : Jvm} {i : Nat} {t t' : Thread} {answer : Answer} {started : List Thread}
    (hact : act setup s i t answer = some (s', t', started)) (hs : Sound s) (ht : t.Safe s i) :
    Later s s' ∧ Sound s' ∧ t'.Safe s' i ∧ ∀ u ∈ started, ∀ j, u.Safe s' j := by
  cases act_stepped hact with
  | proceeds hp =>
    have hleaves := proceed_leaves hp hs ht
    refine ⟨hleaves.later, hleaves.sound, hleaves.safe, fun u hu j => ?_⟩
    obtain ⟨v, hv, rfl⟩ := List.mem_map.1 hu
    exact hleaves.started v hv
  | refused _ _ => exact ⟨later_refl s, hs, ht.2.1, by simp⟩
  | enters _ _ =>
    have hlater : Later s { s with monitor := some i } := later_of_eq rfl rfl rfl rfl
    exact ⟨hlater, hs.keep hlater rfl rfl, ⟨hlater.vouches ht.1, ht.2.1.later hlater, ht.2.2.later hlater⟩, by simp⟩
  | @writes hook code message thrown next b rest _ =>
    have hlater : Later s { s with
        wire := s.wire ++ [b], sent := if rest = [] then s.sent ++ [⟨hook, code, message⟩] else s.sent } :=
      later_of_eq rfl rfl rfl rfl
    refine ⟨hlater, ⟨fun p hp => hlater.vouches ?_, fun c hc => hlater.justified (hs.cause c hc)⟩,
      ⟨hlater.vouches ht.1, ht.2.1.later hlater, ht.2.2.later hlater⟩, by simp⟩
    by_cases hrest : rest = []
    · simp only [hrest, if_true, List.mem_append, List.mem_singleton] at hp
      rcases hp with hp | rfl
      · exact hs.sent p hp
      · exact ht.1
    · simp only [hrest, if_false] at hp
      exact hs.sent p hp
  | breaks _ _ _ =>
    have hlater : Later s { s with monitor := none } := later_of_eq rfl rfl rfl rfl
    exact ⟨hlater, hs.keep hlater rfl rfl, ht.2.1.later hlater, by simp⟩
  | leaves =>
    have hlater : Later s { s with monitor := none } := later_of_eq rfl rfl rfl rfl
    exact ⟨hlater, hs.keep hlater rfl rfl, ht.2.2.later hlater, by simp⟩

theorem proves_sound (setup : Setup) : (jvm setup).Proves (fun _ => True) Sound Thread.Safe where
  shared _ hG hL hact := (act_leaves hact hG hL).2.1
  own _ hG hL hact := (act_leaves hact hG hL).2.2.1
  started _ hG hL hact := (act_leaves hact hG hL).2.2.2
  others _ hG hL hLj _ hact := hLj.later (act_leaves hact hG hL).1

theorem sound_connected (launcher : Launcher) : Holds Sound Thread.Safe (connected launcher) where
  shared := ⟨by simp [connected], by simp [connected]⟩
  each i t h := by
    have htask : t = .at .controlLoop ∨ t = .at (mainTask launcher) ∨ t = .at .destroyJavaVM ∨ t = .at .network := by
      simpa [connected] using List.mem_of_getElem? h
    rcases htask with rfl | rfl | rfl | rfl
    · trivial
    · cases launcher with
      | _ => trivial
    · trivial
    · trivial

end Bridge
end Jss
