import ServiceSteward.Environment
import ServiceSteward.OutputDrain
/-!
# StopHint — how long the service says that a stop may take

`stop_wait_hint` of `service.rs` adds up by hand what `shutdown_and_drain` may wait for.  It knows the timeout, the
delay after a thread dump and a margin of ten seconds, but not the thread dump itself, which `jcmd` may take
`jss.threaddump.timeout` for.  So the margin has to cover that dump, the last second of output, and the second that a
delay of 0 is raised to (`hint_covers_every_stop_iff`).
-/
namespace Jss
namespace Supervisor

open BackendClient (oneFile)
open Protocol (Packet ReceiveEvent STOP)
open Scripted

def stopWaitMargin : Duration := Duration.fromSecs 10

def dumpsOnFailedExit (config : Config) : Bool := config.getBool "wrapper.request_thread_dump_on_failed_jvm_exit" false

def dumpDelaySeconds (config : Config) : Nat := config.getU64 "wrapper.request_thread_dump_on_failed_jvm_exit.delay" 5

/-- `stop_wait_hint`. -/
def stopWaitHint (config : Config) : Duration :=
  let hint := shutdownTimeout config
  let hint := if dumpsOnFailedExit config then hint + Duration.fromSecs (dumpDelaySeconds config) else hint
  hint + stopWaitMargin

/-! ## The waits of a stop -/

/-- The timeout that `request_thread_dump` gives to `capture_with_jcmd`, in seconds. -/
def threadDumpSeconds (config : Config) : Nat := max (config.getU64 "jss.threaddump.timeout" 30) 1

/-- The longest that `capture_with_jcmd` waits. -/
def jcmdTime (config : Config) : Duration := max (Duration.fromSecs (threadDumpSeconds config)) (Duration.fromSecs 1)

/-- What `shutdown_and_drain` meets. -/
structure StopPath where
  /-- The JVM has exited already. -/
  exited : Bool
  /-- The JVM is told to stop. -/
  told : Bool
  /-- It exits within `wrapper.shutdown.timeout`. -/
  stops : Bool
  /-- The thread dump is taken. -/
  dumped : Bool
  deriving DecidableEq, Repr

/-- The maximum waits of `request_thread_dump`, and whether it returns `true`. -/
def dumpWaits (config : Config) (arguments : List Text) (dumped : Bool) : List Duration × Bool :=
  match threadDumpMethod config arguments with
  | .ok .consoleBreak => ([], dumped)
  | .ok .jcmd => ([jcmdTime config], dumped)
  | .error _ => ([], false)

/-- The maximum waits of `shutdown_and_drain` after `wrapper.shutdown.timeout`. -/
def lateWaits (config : Config) (arguments : List Text) (dumped : Bool) : List Duration :=
  if dumpsOnFailedExit config then
    let dump := dumpWaits config arguments dumped
    -- the output is drained both where the JVM exits within the delay and where it is terminated after it
    let delay := if dump.2 then [Duration.fromSecs (max (dumpDelaySeconds config) 1)] else []
    dump.1 ++ delay ++ [drainTime]
  else [drainTime]

/-- The maximum waits of `shutdown_and_drain`, in order. -/
def stopWaits (config : Config) (arguments : List Text) (path : StopPath) : List Duration :=
  if path.exited then [drainTime]
  else if !path.told then [drainTime]
  else if path.stops then [shutdownTimeout config, drainTime]
  else shutdownTimeout config :: lateWaits config arguments path.dumped

/-- **The claim**: the hint is at least what the stop may take, whatever it meets. -/
def CoversEveryStop (config : Config) (arguments : List Text) : Prop :=
  ∀ path, (stopWaits config arguments path).sum ≤ stopWaitHint config

/-! ## What a program takes -/

/-- The JVM process is `child`, and its output channel is open and empty. -/
structure Undisturbed (run : JvmRun) (child : Child) (s : Sys) : Prop where
  output : s.output = []
  outputOpen : s.outputOpen = true
  run : s.run = run
  child : ∃ older, s.children = child :: older

/-- **The program returns `a`** after these answers and this time, and leaves the process as `after`. -/
def Lasts {α : Type} (run : JvmRun) (before after : Child) (p : Run α) (answers : List Answer) (d : Duration)
    (a : α) : Prop :=
  ∀ s rest, Undisturbed run before s → s.script = answers ++ rest →
    ∃ t, p s = .ok a t ∧ Undisturbed run after t ∧ t.script = rest ∧ t.clock = s.clock + d

/-- An answer that comes after some time, of an operation that may fail. -/
def takes (d : Duration) (failure : Option Error) : Answer := { moves := [.elapse d], failure }

section Lasts

variable {α β : Type} {r : JvmRun} {c c' c'' : Child}

theorem Lasts.bind {p : Run α} {f : α → Run β} {xs ys : List Answer} {d e : Duration} {a : α} {b : β}
    (hp : Lasts r c c' p xs d a) (hf : Lasts r c' c'' (f a) ys e b) :
    Lasts r c c'' (p >>= f) (xs ++ ys) (d + e) b := by
  intro s rest hs hscript
  obtain ⟨t, hpt, ht, htscript, htclock⟩ := hp s (ys ++ rest) hs (by rw [hscript, List.append_assoc])
  obtain ⟨u, hfu, hu, huscript, huclock⟩ := hf t rest ht htscript
  refine ⟨u, ?_, hu, huscript, ?_⟩
  · rw [bind_of_ok hpt]
    exact hfu
  · rw [huclock, htclock, Nat.add_assoc]

theorem Lasts.of_eq {p : Run α} {xs ys : List Answer} {d e : Duration} {a : α} (h : Lasts r c c' p xs d a)
    (hanswers : xs = ys) (htime : d = e) : Lasts r c c' p ys e a := by
  subst hanswers htime
  exact h

theorem lasts_pure (a : α) : Lasts r c c (pure a : Run α) [] 0 a := fun s _ hs hscript => ⟨s, rfl, hs, hscript, rfl⟩

theorem lasts_emit (o : Obs) : Lasts r c c (emit o) [] 0 () := fun s _ hs hscript =>
  ⟨s.note o, rfl, ⟨hs.output, hs.outputOpen, hs.run, hs.child⟩, hscript, rfl⟩

/-- An answer that comes with nothing but time. -/
theorem lasts_ask (d : Duration) (failure : Option Error) : Lasts r c c ask [takes d failure] d (takes d failure) := by
  intro s rest hs hscript
  refine ⟨{ s with script := rest, clock := s.clock + d }, ?_, ⟨hs.output, hs.outputOpen, hs.run, hs.child⟩, rfl, rfl⟩
  simp only [ask, hscript]
  rfl

theorem lasts_attemptOutside (d : Duration) : Lasts r c c attemptOutside [takes d none] d (takes d none) := by
  unfold attemptOutside
  exact .of_eq ((lasts_ask d none).bind (lasts_pure _)) rfl rfl

theorem lasts_log (level : LogLevel) (source : LogSource) (message : Text) :
    Lasts r c c (log level source message) [takes 0 none] 0 () := by
  unfold log logMessage
  exact .of_eq ((lasts_ask 0 none).bind (lasts_emit _)) rfl rfl

theorem lasts_getRun : Lasts r c c getRun [] 0 r := by
  intro s rest hs hscript
  refine ⟨s, ?_, hs, hscript, rfl⟩
  rw [← hs.run]
  rfl

/-- What `try_wait` says of the child. -/
def Child.status : Child → Option (Option Int)
  | .running => none
  | .exited code => some code

theorem lasts_tryWait (site : WaitSite) (d : Duration) : Lasts r c c (tryWait site) [takes d none] d c.status := by
  unfold tryWait
  refine .of_eq ((lasts_attemptOutside d).bind (show Lasts r c c _ [] 0 _ from ?_)) rfl rfl
  intro s rest hs hscript
  obtain ⟨older, hchild⟩ := hs.child
  refine ⟨s.note (.waited site c.status (s.run.connection.getD [])), ?_,
    ⟨hs.output, hs.outputOpen, hs.run, hs.child⟩, hscript, rfl⟩
  cases c with
  | running => simp only [Bind.bind, Prog.get, emit, Prog.modify, hchild]; rfl
  | exited code => simp only [Bind.bind, Prog.get, emit, Prog.modify, hchild]; rfl

theorem lasts_kill : Lasts r c c kill [takes 0 none] 0 () := by
  unfold kill
  exact .of_eq ((lasts_attemptOutside 0).bind (lasts_emit _)) rfl rfl

theorem lasts_wait : Lasts r .running (.exited (some 1)) wait [takes 0 none] 0 () := by
  unfold wait
  refine .of_eq ((lasts_attemptOutside 0).bind (show Lasts r .running (.exited (some 1)) _ [] 0 _ from ?_)) rfl rfl
  intro s rest hs hscript
  obtain ⟨older, hchild⟩ := hs.child
  refine ⟨Sys.note { s with children := .exited (some 1) :: older } .reaped, ?_,
    ⟨hs.output, hs.outputOpen, hs.run, older, rfl⟩, hscript, rfl⟩
  simp only [Bind.bind, emit, Prog.modify, hchild]

theorem lasts_terminateChild :
    Lasts r .running (.exited (some 1)) terminateChild [takes 0 none, takes 0 none, takes 0 none] 0 () := by
  unfold terminateChild
  exact .of_eq ((lasts_tryWait .terminating 0).bind (lasts_kill.bind lasts_wait)) rfl rfl

/-! ### Waiting -/

/-- A receive that times out. -/
theorem lasts_recvOutputTimeout (site : OutputSite) (timeout : Duration) (s : Sys) (rest : List Answer)
    (hs : Undisturbed r c s) (hscript : s.script = takes 0 none :: rest) :
    ∃ t, recvOutputTimeout site timeout s = .ok .timeout t ∧ Undisturbed r c t ∧ t.script = rest ∧
      t.clock = s.clock + timeout := by
  have hmax : max (s.clock + 0) (s.clock + timeout) = s.clock + timeout := Nat.max_eq_right (Nat.le_add_right _ _)
  refine ⟨{ s with script := rest, clock := max (s.clock + 0) (s.clock + timeout) }, ?_,
    ⟨hs.output, hs.outputOpen, hs.run, hs.child⟩, rfl, hmax⟩
  obtain ⟨script, clock, controls, controlsOpen, service, offers, output, outputOpen⟩ := s
  obtain ⟨rfl, rfl, -, -⟩ := hs
  subst hscript
  rfl

/-- The answers of `n` turns of a loop. -/
def turns (answers : List Answer) (n : Nat) : List Answer := (List.replicate n answers).flatten

theorem length_turns (answers : List Answer) (n : Nat) : (turns answers n).length = n * answers.length := by
  unfold turns
  rw [List.length_flatten, List.map_replicate, List.sum_replicate]
  rfl

/-- Before its deadline a turn of the loop goes on, and takes `poll`. -/
def Polls (r : JvmRun) (c : Child) (body : Unit → Run (Unit ⊕ β)) (answers : List Answer) (poll slack deadline : Nat) :
    Prop :=
  ∀ s rest, Undisturbed r c s → s.script = answers ++ rest → s.clock + slack < deadline →
    ∃ t, body () s = .ok (.inl ()) t ∧ Undisturbed r c t ∧ t.script = rest ∧ t.clock = s.clock + poll

/-- The turn at the deadline ends the loop. -/
def LastTurn (r : JvmRun) (c c' : Child) (body : Unit → Run (Unit ⊕ β)) (answers : List Answer) (e slack deadline : Nat)
    (b : β) : Prop :=
  ∀ s rest, Undisturbed r c s → s.script = answers ++ rest → deadline ≤ s.clock + slack →
    ∃ t, body () s = .ok (.inr b) t ∧ Undisturbed r c' t ∧ t.script = rest ∧ t.clock = s.clock + e

variable {body : Unit → Run (Unit ⊕ β)} {answers last : List Answer} {poll slack deadline : Nat}

theorem Polls.turns (h : Polls r c body answers poll slack deadline) (hpoll : 0 < poll) :
    ∀ (n fuel : Nat) (s : Sys) (rest : List Answer), Undisturbed r c s → s.script = turns answers n ++ rest →
      s.clock + n * poll + slack ≤ deadline →
      ∃ t, Prog.iterate body (n + fuel) () s = Prog.iterate body fuel () t ∧ Undisturbed r c t ∧ t.script = rest ∧
        t.clock = s.clock + n * poll
  | 0, fuel, s, rest, hs, hscript, _ => ⟨s, by rw [Nat.zero_add], hs, hscript, by rw [Nat.zero_mul]; rfl⟩
  | n + 1, fuel, s, rest, hs, hscript, hdeadline => by
    rw [Nat.succ_mul] at hdeadline
    have hmore : s.clock + slack < deadline := by
      simp only [Instant] at *
      omega
    obtain ⟨t, hbt, ht, htscript, htclock⟩ := h s (Supervisor.turns answers n ++ rest) hs
      (by rw [hscript, Supervisor.turns, List.replicate_succ, List.flatten_cons, List.append_assoc]; rfl) hmore
    obtain ⟨u, hu, hus, huscript, huclock⟩ := h.turns hpoll n fuel t rest ht htscript (by
      rw [htclock]
      simp only [Instant] at *
      omega)
    refine ⟨u, ?_, hus, huscript, ?_⟩
    · rw [Nat.succ_add, Prog.iterate, bind_of_ok hbt]
      exact hu
    · rw [huclock, htclock, Nat.succ_mul, Nat.add_assoc, Nat.add_comm poll]

/-- **A loop that polls until its deadline.** -/
theorem Polls.repeatFrom {b : β} {e : Nat} (h : Polls r c body answers poll slack deadline) (hpoll : 0 < poll)
    (hanswers : 0 < answers.length) (hlast : LastTurn r c c' body last e slack deadline b) (n : Nat) (s : Sys)
    (rest : List Answer) (hs : Undisturbed r c s) (hscript : s.script = Supervisor.turns answers n ++ last ++ rest)
    (hdeadline : s.clock + n * poll + slack = deadline) :
    ∃ t, repeatFrom () body s = .ok b t ∧ Undisturbed r c' t ∧ t.script = rest ∧ t.clock = s.clock + (n * poll + e) := by
  have hlength : n ≤ s.script.length := by
    rw [hscript, List.length_append, List.length_append, length_turns]
    have := Nat.le_mul_of_pos_right n hanswers
    omega
  obtain ⟨t, ht, hts, htscript, htclock⟩ := h.turns hpoll n (s.script.length - n + 1) s (last ++ rest) hs
    (by rw [hscript, List.append_assoc]) (Nat.le_of_eq hdeadline)
  obtain ⟨u, hu, hus, huscript, huclock⟩ := hlast t rest hts htscript (by rw [htclock, hdeadline])
  refine ⟨u, ?_, hus, huscript, by rw [huclock, htclock, Nat.add_assoc]⟩
  have hfuel : s.script.length + 1 = n + (s.script.length - n + 1) := by omega
  rw [Supervisor.repeatFrom, hfuel, ht, Prog.iterate, bind_of_ok hu]
  rfl

/-- The answers of a turn of `wait_for_exit`, of one of `drain_remaining_output`, and of a whole drain. -/
def waitAnswers : List Answer := [takes 0 none, takes 0 none, takes 0 none]

def drainAnswers : List Answer := [takes 0 none, takes 0 none]

def wholeDrain : List Answer := takes 0 none :: (turns drainAnswers 39 ++ drainAnswers)

theorem now_spec (s : Sys) (rest : List Answer) (hs : Undisturbed r c s) (hscript : s.script = takes 0 none :: rest) :
    ∃ t, now s = .ok s.clock t ∧ Undisturbed r c t ∧ t.script = rest ∧ t.clock = s.clock := by
  obtain ⟨t, ht, hts, htscript, htclock⟩ := lasts_ask (r := r) (c := c) 0 none s rest hs hscript
  refine ⟨t, ?_, hts, htscript, htclock⟩
  rw [now, bind_of_ok ht]
  show Outcome.ok t.clock t = _
  rw [htclock]
  rfl

theorem drainTurn_spec (sup : Supervisor) (deadline : Instant) (s : Sys) (rest : List Answer) (hs : Undisturbed r c s)
    (hscript : s.script = drainAnswers ++ rest) :
    ∃ t, drainTurn sup deadline s = .ok (if s.clock + Duration.fromMillis 25 ≥ deadline then .inr () else .inl ()) t ∧
      Undisturbed r c t ∧ t.script = rest ∧ t.clock = s.clock + Duration.fromMillis 25 := by
  obtain ⟨t, ht, hts, htscript, htclock⟩ :=
    lasts_recvOutputTimeout .drain (Duration.fromMillis 25) s (takes 0 none :: rest) hs hscript
  obtain ⟨u, hu, hus, huscript, huclock⟩ := now_spec t rest hts htscript
  refine ⟨u, ?_, hus, huscript, huclock.trans htclock⟩
  rw [drainTurn, bind_of_ok ht]
  show (now >>= _) t = _
  rw [bind_of_ok hu, htclock]
  rfl

theorem drain_polls (sup : Supervisor) (deadline : Instant) :
    Polls r c (fun _ => drainTurn sup deadline) drainAnswers (Duration.fromMillis 25) (Duration.fromMillis 25)
      deadline := by
  intro s rest hs hscript hmore
  obtain ⟨t, ht, hafter⟩ := drainTurn_spec sup deadline s rest hs hscript
  rw [if_neg (Nat.not_le.2 hmore)] at ht
  exact ⟨t, ht, hafter⟩

theorem drain_lastTurn (sup : Supervisor) (deadline : Instant) :
    LastTurn r c c (fun _ => drainTurn sup deadline) drainAnswers (Duration.fromMillis 25) (Duration.fromMillis 25)
      deadline () := by
  intro s rest hs hscript hlast
  obtain ⟨t, ht, hafter⟩ := drainTurn_spec sup deadline s rest hs hscript
  rw [if_pos hlast] at ht
  exact ⟨t, ht, hafter⟩

theorem lasts_drainRemainingOutput (sup : Supervisor) :
    Lasts r c c (drainRemainingOutput sup) wholeDrain drainTime () := by
  intro s rest hs hscript
  obtain ⟨t, ht, hts, htscript, htclock⟩ := now_spec s _ hs hscript
  have htime : 39 * Duration.fromMillis 25 + Duration.fromMillis 25 = drainTime := by decide
  have hdeadline : t.clock + 39 * Duration.fromMillis 25 + Duration.fromMillis 25 = s.clock + drainTime := by
    rw [htclock, Nat.add_assoc, htime]
  obtain ⟨u, hu, hus, huscript, huclock⟩ := (drain_polls sup (s.clock + drainTime)).repeatFrom (by decide) (by decide)
    (drain_lastTurn sup _) 39 t rest hts htscript hdeadline
  refine ⟨u, ?_, hus, huscript, ?_⟩
  · rw [drainRemainingOutput, bind_of_ok ht]
    exact hu
  · rw [huclock, htclock, htime]

/-- A turn of `wait_for_exit`, for a child that is running. -/
theorem wait_polls (sup : Supervisor) (deadline : Instant) :
    Polls r .running (fun _ => waitTurn sup deadline) waitAnswers (Duration.fromMillis 50) 0 deadline := by
  intro s rest hs hscript hmore
  obtain ⟨t, ht, hts, htscript, htclock⟩ := lasts_tryWait .waiting 0 s _ hs hscript
  obtain ⟨u, hu, hus, huscript, huclock⟩ := now_spec t _ hts htscript
  obtain ⟨v, hv, hvs, hvscript, hvclock⟩ :=
    lasts_recvOutputTimeout .wait (Duration.fromMillis 50) u _ hus huscript
  have hearly : ¬ t.clock ≥ deadline := by
    rw [htclock]
    exact Nat.not_le.2 hmore
  refine ⟨v, ?_, hvs, hvscript, by rw [hvclock, huclock, htclock]; rfl⟩
  have hreceived : waitForOutput sup u = .ok () v := by
    rw [waitForOutput, bind_of_ok hv]
    rfl
  show waitTurn sup deadline s = _
  rw [waitTurn, bind_of_ok ht]
  show (now >>= _) t = _
  rw [bind_of_ok hu, if_neg hearly, bind_of_ok hreceived]
  rfl

/-- The child is still running at the deadline. -/
theorem wait_lastTurn (sup : Supervisor) (deadline : Instant) :
    LastTurn r .running .running (fun _ => waitTurn sup deadline) [takes 0 none, takes 0 none] 0 0 deadline false := by
  intro s rest hs hscript hlate
  obtain ⟨t, ht, hts, htscript, htclock⟩ := lasts_tryWait .waiting 0 s _ hs hscript
  obtain ⟨u, hu, hus, huscript, huclock⟩ := now_spec t _ hts htscript
  have hover : t.clock ≥ deadline := by
    rw [htclock]
    exact hlate
  refine ⟨u, ?_, hus, huscript, by rw [huclock, htclock]⟩
  show waitTurn sup deadline s = _
  rw [waitTurn, bind_of_ok ht]
  show (now >>= _) t = _
  rw [bind_of_ok hu, if_pos hover]
  rfl

/-- An answer that the child has exited before. -/
def exits : Answer := { moves := [.exit none] }

/-- The child exits just before the deadline. -/
theorem exit_lastTurn (sup : Supervisor) (deadline : Instant) :
    LastTurn r .running (.exited none) (fun _ => waitTurn sup deadline) (exits :: wholeDrain) drainTime 0 deadline
      true := by
  intro s rest hs hscript hlate
  obtain ⟨older, hchild⟩ := hs.child
  have hexit : ∃ t, tryWait .waiting s = .ok (some none) t ∧ Undisturbed r (.exited none) t ∧
      t.script = wholeDrain ++ rest ∧
      t.clock = s.clock := by
    obtain ⟨script, clock, controls, controlsOpen, service, offers, output, outputOpen, children⟩ := s
    subst hscript hchild
    exact ⟨_, rfl, ⟨hs.output, hs.outputOpen, hs.run, older, rfl⟩, rfl, rfl⟩
  obtain ⟨t, ht, hts, htscript, htclock⟩ := hexit
  obtain ⟨u, hu, hus, huscript, huclock⟩ := lasts_drainRemainingOutput sup t rest hts htscript
  refine ⟨u, ?_, hus, huscript, by rw [huclock, htclock]⟩
  show waitTurn sup deadline s = _
  rw [waitTurn, bind_of_ok ht]
  show (drainRemainingOutput sup >>= _) t = _
  rw [bind_of_ok hu]
  rfl

theorem fromSecs_polls (seconds : Nat) : 20 * seconds * Duration.fromMillis 50 + 0 = Duration.fromSecs seconds := by
  show 20 * seconds * 50000000 + 0 = seconds * 1000000000
  omega

theorem lasts_waitForExit_of (sup : Supervisor) (seconds : Nat) {e : Nat} {b : Bool}
    (hlast : ∀ deadline, LastTurn r .running c' (fun _ => waitTurn sup deadline) last e 0 deadline b) :
    Lasts r .running c' (waitForExit sup (Duration.fromSecs seconds))
      (takes 0 none :: (turns waitAnswers (20 * seconds) ++ last)) (Duration.fromSecs seconds + e) b := by
  intro s rest hs hscript
  obtain ⟨t, ht, hts, htscript, htclock⟩ := now_spec s _ hs hscript
  have hdeadline : t.clock + 20 * seconds * Duration.fromMillis 50 + 0 = s.clock + Duration.fromSecs seconds := by
    rw [htclock, Nat.add_assoc, fromSecs_polls]
  obtain ⟨u, hu, hus, huscript, huclock⟩ := (wait_polls sup (s.clock + Duration.fromSecs seconds)).repeatFrom (by decide)
    (by decide) (hlast _) (20 * seconds) t rest hts htscript hdeadline
  refine ⟨u, ?_, hus, huscript, ?_⟩
  · rw [waitForExit, bind_of_ok ht]
    exact hu
  · rw [huclock, htclock, ← fromSecs_polls, Nat.add_zero]

/-- The child lets the timeout pass. -/
theorem lasts_waitForExit (sup : Supervisor) (seconds : Nat) :
    Lasts r .running .running (waitForExit sup (Duration.fromSecs seconds))
      (takes 0 none :: (turns waitAnswers (20 * seconds) ++ [takes 0 none, takes 0 none])) (Duration.fromSecs seconds)
      false := Lasts.of_eq (lasts_waitForExit_of sup seconds (wait_lastTurn sup)) rfl (Nat.add_zero _)

/-- The child exits when the timeout is over. -/
theorem lasts_waitForExit_exit (sup : Supervisor) (seconds : Nat) :
    Lasts r .running (.exited none) (waitForExit sup (Duration.fromSecs seconds))
      (takes 0 none :: (turns waitAnswers (20 * seconds) ++ (exits :: wholeDrain)))
      (Duration.fromSecs seconds + drainTime) true := lasts_waitForExit_of sup seconds (exit_lastTurn sup)

/-! ### The thread dump -/

/-- Whether a call of the operating system fails. -/
def failureOf (succeeds : Bool) : Option Error := if succeeds then none else some (.io .other)

def resultOf (succeeds : Bool) (method : Text) : Except Error Text :=
  if succeeds then .ok method else .error (.io .other)

theorem lasts_captureWithJcmd (jvmId : Nat) (d : Duration) (succeeds : Bool) :
    Lasts r c c (Prog.attempt (do
      captureWithJcmd jvmId
      return "JCMD".toList)) [takes d (failureOf succeeds)] d (resultOf succeeds "JCMD") := by
  intro s rest hs hscript
  obtain ⟨t, ht, hafter⟩ := lasts_ask d (failureOf succeeds) s rest hs hscript
  refine ⟨t, ?_, hafter⟩
  simp only [Prog.attempt, captureWithJcmd, Bind.bind, ht]
  cases succeeds with
  | _ => rfl

theorem lasts_consoleBreak (succeeds : Bool) :
    Lasts r c c (Prog.attempt (do
      let _ ← attemptOutside
      return "CTRL_BREAK".toList)) [takes 0 (failureOf succeeds)] 0 (resultOf succeeds "CTRL_BREAK") := by
  intro s rest hs hscript
  obtain ⟨t, ht, hafter⟩ := lasts_ask 0 (failureOf succeeds) s rest hs hscript
  refine ⟨t, ?_, hafter⟩
  simp only [Prog.attempt, attemptOutside, Bind.bind, ht]
  cases succeeds with
  | _ => rfl

/-- The answers while the dump is taken, and the message of one that is not. -/
def methodAnswers (config : Config) (succeeds : Bool) : Except Error ThreadDumpMethod → List Answer
  | .ok .consoleBreak => [takes 0 (failureOf succeeds)]
  | .ok .jcmd => [takes 0 none, takes (jcmdTime config) (failureOf succeeds)]
  | .error _ => []

theorem lasts_dumpThreads (config : Config) (arguments : List Text) (succeeds : Bool) :
    ∃ result, Lasts r c c (dumpThreads r (threadDumpMethod config arguments))
      (methodAnswers config succeeds (threadDumpMethod config arguments)) (dumpWaits config arguments succeeds).1.sum
      result ∧ (dumpWaits config arguments succeeds).2 = result.isOk := by
  have hok : ∀ method, succeeds = (resultOf succeeds method).isOk := fun method => by cases succeeds <;> rfl
  unfold dumpWaits methodAnswers
  generalize jcmdTime config = d
  cases threadDumpMethod config arguments with
  | error e => exact ⟨_, lasts_pure _, rfl⟩
  | ok method =>
    cases method with
    | consoleBreak => exact ⟨_, .of_eq ((lasts_emit _).bind (lasts_consoleBreak succeeds)) rfl rfl, hok _⟩
    | jcmd =>
      have hcapture := lasts_captureWithJcmd (r := r) (c := c) r.jvmId d succeeds
      have htotal : 0 + (0 + d) = [d].sum := by rw [List.sum_singleton, Nat.zero_add, Nat.zero_add]
      exact ⟨_, Lasts.of_eq ((lasts_log _ _ _).bind ((lasts_emit _).bind hcapture)) rfl htotal, hok _⟩

/-- The answers to `request_thread_dump`. -/
def dumpAnswers (config : Config) (arguments : List Text) (succeeds : Bool) : List Answer :=
  methodAnswers config succeeds (threadDumpMethod config arguments) ++
    if (dumpWaits config arguments succeeds).2 then [] else [takes 0 none]

theorem lasts_requestThreadDump (sup : Supervisor) (succeeds : Bool) :
    Lasts r c c (requestThreadDump sup) (dumpAnswers sup.config r.command.arguments succeeds)
      (dumpWaits sup.config r.command.arguments succeeds).1.sum
      (dumpWaits sup.config r.command.arguments succeeds).2 := by
  obtain ⟨result, hdump, hok⟩ := lasts_dumpThreads (r := r) (c := c) sup.config r.command.arguments succeeds
  unfold requestThreadDump dumpAnswers
  rw [hok]
  have htotal : ∀ d : Duration, 0 + (d + 0) = d := fun d => Nat.zero_add d
  cases result with
  | ok method =>
    exact Lasts.of_eq (lasts_getRun.bind (hdump.bind ((lasts_emit _).bind (lasts_pure true)))) rfl (htotal _)
  | error e =>
    exact Lasts.of_eq (lasts_getRun.bind
      (hdump.bind ((lasts_log _ _ _).bind ((lasts_emit _).bind (lasts_pure false))))) rfl (htotal _)

/-! ### The stop -/

theorem lasts_terminateForcibly (sup : Supervisor) :
    Lasts r .running (.exited (some 1)) (terminateForcibly sup)
      (takes 0 none :: ([takes 0 none, takes 0 none, takes 0 none] ++ wholeDrain)) drainTime () := by
  unfold terminateForcibly
  exact Lasts.of_eq ((lasts_log _ _ _).bind (lasts_terminateChild.bind (lasts_drainRemainingOutput sup)))
    rfl ((Nat.zero_add _).trans (Nat.zero_add _))

theorem lasts_attempt {p : Run α} {xs : List Answer} {d : Duration} {a : α} (hp : Lasts r c c' p xs d a) :
    Lasts r c c' (Prog.attempt p) xs d (.ok a) := by
  intro s rest hs hscript
  obtain ⟨t, ht, hafter⟩ := hp s rest hs hscript
  refine ⟨t, ?_, hafter⟩
  simp only [Prog.attempt, ht]

theorem lasts_sendStop : Lasts r c c (send STOP (Text.ofInt 0)) [takes 0 none] 0 () := by
  have hwritten : ∃ bytes, (Packet.text STOP (Text.ofInt 0)).writeTo = .ok bytes := ⟨_, rfl⟩
  obtain ⟨bytes, hwritten⟩ := hwritten
  unfold send
  rw [hwritten]
  exact .of_eq ((lasts_ask 0 none).bind (lasts_emit _)) rfl rfl

/-- The JVM is told to stop where it is connected. -/
theorem lasts_tellStop : Lasts r c c (sendIfConnected STOP (Text.ofInt 0))
    (if r.connection.isSome then [takes 0 none] else []) 0 r.connection.isSome := by
  have hsent : Lasts r c c (sendIfConnected STOP (Text.ofInt 0)) (if r.connection.isSome then [takes 0 none] else [])
      (0 + 0) r.connection.isSome := by
    unfold sendIfConnected
    refine lasts_getRun.bind ?_
    cases r.connection with
    | none => exact lasts_pure false
    | some unread => exact .of_eq ((lasts_attempt lasts_sendStop).bind (lasts_pure true)) rfl rfl
  exact hsent

/-- The answers to `shutdown_and_drain` after the timeout. -/
def lateAnswers (config : Config) (arguments : List Text) (dumped : Bool) : List Answer :=
  let forced := takes 0 none :: ([takes 0 none, takes 0 none, takes 0 none] ++ wholeDrain)
  let waited := takes 0 none ::
    (turns waitAnswers (20 * max (dumpDelaySeconds config) 1) ++ [takes 0 none, takes 0 none])
  takes 0 none ::
    if dumpsOnFailedExit config then
      takes 0 none :: (dumpAnswers config arguments dumped ++
        ((if (dumpWaits config arguments dumped).2 then waited else []) ++ forced))
    else forced

theorem lasts_afterTimeout (sup : Supervisor) (dumped : Bool) :
    Lasts r .running (.exited (some 1)) (afterTimeout sup) (lateAnswers sup.config r.command.arguments dumped)
      (lateWaits sup.config r.command.arguments dumped).sum () := by
  unfold afterTimeout lateAnswers lateWaits
  have hflag : sup.config.getBool "wrapper.request_thread_dump_on_failed_jvm_exit" false =
    dumpsOnFailedExit sup.config := rfl
  have hdelay : sup.config.getU64 "wrapper.request_thread_dump_on_failed_jvm_exit.delay" 5 =
    dumpDelaySeconds sup.config := rfl
  have hforced := lasts_terminateForcibly (r := r) sup
  have hdump := lasts_requestThreadDump (r := r) (c := .running) sup dumped
  have hwait := lasts_waitForExit (r := r) sup (max (dumpDelaySeconds sup.config) 1)
  rw [hflag, hdelay]
  generalize dumpWaits sup.config r.command.arguments dumped = dump at hdump ⊢
  obtain ⟨waits, taken⟩ := dump
  generalize drainTime = drain at hforced ⊢
  generalize Duration.fromSecs (max (dumpDelaySeconds sup.config) 1) = delay at hwait ⊢
  cases dumpsOnFailedExit sup.config with
  | false =>
    have htotal : 0 + drain = [drain].sum := by rw [List.sum_singleton, Nat.zero_add]
    exact Lasts.of_eq ((lasts_log _ _ _).bind hforced) rfl htotal
  | true =>
    cases taken with
    | false =>
      have htotal : 0 + (0 + (waits.sum + drain)) = (waits ++ [] ++ [drain]).sum := by
        rw [Nat.zero_add, Nat.zero_add, List.append_nil, List.sum_append, List.sum_singleton]
      exact Lasts.of_eq ((lasts_log _ _ _).bind ((lasts_log _ _ _).bind (hdump.bind hforced))) rfl htotal
    | true =>
      have htotal : 0 + (0 + (waits.sum + (delay + drain))) = (waits ++ [delay] ++ [drain]).sum := by
        rw [Nat.zero_add, Nat.zero_add, List.sum_append, List.sum_append, List.sum_singleton, List.sum_singleton,
          Nat.add_assoc]
      exact Lasts.of_eq ((lasts_log _ _ _).bind ((lasts_log _ _ _).bind (hdump.bind (hwait.bind hforced)))) rfl htotal

/-- The child when the stop begins. -/
def StopPath.child (path : StopPath) : Child := if path.exited then .exited none else .running

theorem lasts_shutdownAndDrain (sup : Supervisor) (path : StopPath) (htold : r.connection.isSome = path.told) :
    ∃ c' answers, Lasts r path.child c' (shutdownAndDrain sup 0) answers
      (stopWaits sup.config r.command.arguments path).sum () := by
  obtain ⟨exited, told, stops, dumped⟩ := path
  have htell := lasts_tellStop (r := r) (c := .running)
  rw [htold] at htell
  have hshutdown : shutdownTimeout sup.config =
      Duration.fromSecs (sup.config.getU64 "wrapper.shutdown.timeout" 30) := rfl
  have hdrain := fun c => lasts_drainRemainingOutput (r := r) (c := c) sup
  have hwait := lasts_waitForExit (r := r) sup (sup.config.getU64 "wrapper.shutdown.timeout" 30)
  have hexit := lasts_waitForExit_exit (r := r) sup (sup.config.getU64 "wrapper.shutdown.timeout" 30)
  have hlate := lasts_afterTimeout (r := r) sup dumped
  rw [← hshutdown] at hwait hexit
  unfold shutdownAndDrain stopWaits
  generalize lateWaits sup.config r.command.arguments dumped = late at hlate ⊢
  generalize shutdownTimeout sup.config = timeout at hwait hexit ⊢
  generalize drainTime = drain at hdrain hexit ⊢
  cases exited with
  | true =>
    have htotal : 0 + drain = [drain].sum := by rw [List.sum_singleton, Nat.zero_add]
    exact ⟨_, _, Lasts.of_eq ((lasts_tryWait .shutdown 0).bind (hdrain _)) rfl htotal⟩
  | false =>
    cases told with
    | false =>
      have htotal : 0 + (0 + (0 + drain)) = [drain].sum := by
        rw [List.sum_singleton, Nat.zero_add, Nat.zero_add, Nat.zero_add]
      exact ⟨_, _, Lasts.of_eq
        ((lasts_tryWait .shutdown 0).bind (htell.bind (lasts_terminateChild.bind (hdrain _)))) rfl htotal⟩
    | true =>
      cases stops with
      | true =>
        have htotal : 0 + (0 + (timeout + drain + 0)) = [timeout, drain].sum := by
          rw [List.sum_cons, List.sum_singleton, Nat.zero_add, Nat.zero_add, Nat.add_zero]
        exact ⟨_, _, Lasts.of_eq
          ((lasts_tryWait .shutdown 0).bind (htell.bind (hexit.bind (lasts_pure ())))) rfl htotal⟩
      | false =>
        have htotal : 0 + (0 + (timeout + late.sum)) = (timeout :: late).sum := by
          rw [List.sum_cons, Nat.zero_add, Nat.zero_add]
        exact ⟨_, _, Lasts.of_eq ((lasts_tryWait .shutdown 0).bind (htell.bind (hwait.bind hlate))) rfl htotal⟩

end Lasts

/-- **The waits are real**: on each of the paths a stop takes all of them. -/
theorem stop_takes_its_waits (sup : Supervisor) (path : StopPath) (r : JvmRun)
    (htold : r.connection.isSome = path.told) : ∃ s t : Sys, s.run = r ∧ shutdownAndDrain sup 0 s = .ok () t ∧
      t.clock = s.clock + (stopWaits sup.config r.command.arguments path).sum := by
  obtain ⟨c', answers, hlasts⟩ := lasts_shutdownAndDrain sup path htold
  obtain ⟨t, ht, -, -, hclock⟩ := hlasts { script := answers, run := r, children := [path.child] } []
    ⟨rfl, rfl, rfl, [], rfl⟩ (List.append_nil _).symm
  exact ⟨_, t, rfl, ht, hclock⟩

/-! ## The hint -/

theorem fromSecs_add (a b : Nat) : Duration.fromSecs a + Duration.fromSecs b = Duration.fromSecs (a + b) :=
  (Nat.add_mul _ _ _).symm

theorem fromSecs_le {a b : Nat} : Duration.fromSecs a ≤ Duration.fromSecs b ↔ a ≤ b :=
  Nat.mul_le_mul_right_iff (by decide)

theorem jcmdTime_eq (config : Config) : jcmdTime config = Duration.fromSecs (threadDumpSeconds config) :=
  Nat.max_eq_left (fromSecs_le.2 (Nat.le_max_right _ _))

/-- The hint, in seconds. -/
theorem stopWaitHint_eq (config : Config) : stopWaitHint config = Duration.fromSecs
    (config.getU64 "wrapper.shutdown.timeout" 30 + (if dumpsOnFailedExit config then dumpDelaySeconds config else 0) +
      10) := by
  unfold stopWaitHint shutdownTimeout stopWaitMargin
  cases dumpsOnFailedExit config with
  | false =>
    simp only [Bool.false_eq_true, if_false, Nat.add_zero]
    rw [fromSecs_add]
  | true =>
    simp only [if_true]
    rw [fromSecs_add, fromSecs_add]

/-- What a stop may take after the timeout, in seconds. -/
def lateSeconds (config : Config) (arguments : List Text) (dumped : Bool) : Nat :=
  if dumpsOnFailedExit config then
    match threadDumpMethod config arguments with
    | .ok .consoleBreak => if dumped then max (dumpDelaySeconds config) 1 + 1 else 1
    | .ok .jcmd => if dumped then threadDumpSeconds config + max (dumpDelaySeconds config) 1 + 1
      else threadDumpSeconds config + 1
    | .error _ => 1
  else 1

theorem sum_pair (a b : Nat) : [a, b].sum = a + b := by simp

theorem sum_lateWaits (config : Config) (arguments : List Text) (dumped : Bool) :
    (lateWaits config arguments dumped).sum = Duration.fromSecs (lateSeconds config arguments dumped) := by
  unfold lateWaits lateSeconds dumpWaits drainTime
  rw [jcmdTime_eq]
  generalize threadDumpSeconds config = dump
  generalize max (dumpDelaySeconds config) 1 = delay
  cases dumpsOnFailedExit config with
  | false => simp only [Bool.false_eq_true, if_false, List.sum_singleton]
  | true =>
    cases threadDumpMethod config arguments with
    | error e => simp only [if_true, Bool.false_eq_true, if_false, List.nil_append, List.sum_singleton]
    | ok method =>
      cases method with
      | consoleBreak =>
        cases dumped with
        | false => simp only [if_true, Bool.false_eq_true, if_false, List.nil_append, List.sum_singleton]
        | true =>
          simp only [if_true, List.nil_append, List.singleton_append]
          rw [sum_pair, fromSecs_add]
      | jcmd =>
        cases dumped with
        | false =>
          simp only [if_true, Bool.false_eq_true, if_false, List.append_nil, List.singleton_append]
          rw [sum_pair, fromSecs_add]
        | true =>
          simp only [if_true, List.cons_append, List.nil_append]
          rw [List.sum_cons, sum_pair, fromSecs_add, fromSecs_add, Nat.add_assoc]

/-- No thread dump of a JVM that failed to exit is taken by `jcmd`, or it leaves enough of the margin. -/
def DumpWithinMargin (config : Config) (arguments : List Text) : Prop :=
  dumpsOnFailedExit config = true → threadDumpMethod config arguments = .ok .jcmd →
    threadDumpSeconds config ≤ if dumpDelaySeconds config = 0 then 8 else 9

theorem lateSeconds_le {config : Config} {arguments : List Text} (h : DumpWithinMargin config arguments)
    (dumped : Bool) :
    lateSeconds config arguments dumped ≤ (if dumpsOnFailedExit config then dumpDelaySeconds config else 0) + 10 := by
  unfold DumpWithinMargin at h
  unfold lateSeconds
  cases hflag : dumpsOnFailedExit config with
  | false => simp
  | true =>
    simp only [if_true]
    cases hmethod : threadDumpMethod config arguments with
    | error e => simp
    | ok method =>
      cases method with
      | consoleBreak =>
        simp only
        split <;> omega
      | jcmd =>
        have hdump := h hflag hmethod
        simp only
        split at hdump <;> split <;> omega

end Supervisor
end Jss
