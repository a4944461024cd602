import ServiceSteward.Monitor
import ServiceSteward.Phases
/-!
# HeapDumps — one heap dump at a time, and one record for each

`outstanding` follows the heap dumps through a trace: each request is an event, and so is its completion or failure.
The worker of a dump outlives the JVM it was requested for, but the task that waits for it does not.  So the dumps are
accounted for while no JVM ends with one in progress (`EndsIdle`).
-/
namespace Jss
namespace Supervisor

open Protocol (Packet ReceiveEvent)
open Scripted

def dumpFailed : Text := "Heap dump failed for "

def EventKind.endsDump : EventKind → Bool
  | .heapDumpCompleted _ _ _ => true
  | .warning message => dumpFailed.isPrefixOf message
  | _ => false

/-- A dump into this file has ended. -/
def EventKind.finishes (kind : EventKind) (path : Text) : Bool :=
  match kind with
  | .heapDumpCompleted _ completed _ => completed == path
  | .warning message => (dumpFailed ++ path ++ ": ".toList).isPrefixOf message
  | _ => false

/-- The files of the dumps that were requested and have not ended. -/
def outstanding : Monitor (List Text) Obs where
  start := []
  step m
    | .published (.heapDumpStarted _ _ path) => path :: m
    | .published kind => m.eraseP kind.finishes
    | _ => m

/-- A dump ends once, and none is left when the run ends. -/
def Recorded (m : List Text) : Obs → Prop
  | .published kind => kind.endsDump = true → ∃ path ∈ m, kind.finishes path = true
  | o => o = Obs.marker → m = []

/-- The supervisor starts to shut the JVM down, or sees that it has exited. -/
def Obs.endsJvm : Obs → Bool
  | .waited .shutdown _ _ => true
  | .waited .tick (some _) _ => true
  | _ => false

/-- No JVM ends with a dump in progress. -/
def EndsIdle (m : List Text) (o : Obs) : Prop := o.endsJvm = true → m = []

instance (m : List Text) (o : Obs) : Decidable (EndsIdle m o) := inferInstanceAs (Decidable (_ → _))

def Sys.dumping (s : Sys) : Nat := s.workers.countP (·.result.isNone)

/-- **The claim**: one worker at a time, and one record for each request. -/
structure DumpsInOrder (s : Sys) : Prop where
  one : s.dumping ≤ 1
  recorded : outstanding.Always Recorded s.trace

/-- Whether the JVM has begun to end since the last request. -/
def ending : Monitor Bool Obs where
  start := false
  step m
    | .published (.heapDumpStarted _ _ _) => false
    | o => m || o.endsJvm

/-! ## Workers -/

def AllDone (workers : List Worker) : Prop := ∀ (i : Nat) w, workers[i]? = some w → w.result.isSome

/-- No worker runs but the one of the task. -/
structure Current (workers : List Worker) (task : Task) : Prop where
  worker : ∃ w, workers[task.worker]? = some w ∧ w.path = task.path
  others : ∀ (i : Nat) w, workers[i]? = some w → i ≠ task.worker → w.result.isSome

theorem countP_le_one {α : Type} {p : α → Bool} : ∀ (l : List α) (k : Nat),
    (∀ i a, l[i]? = some a → p a = true → i = k) → l.countP p ≤ 1
  | [], _, _ => by simp
  | a :: l, k, h => by
    by_cases ha : p a = true
    · have hk : 0 = k := h 0 a rfl ha
      have hrest : l.countP p = 0 := by
        rw [List.countP_eq_zero]
        intro b hb hpb
        obtain ⟨i, hi⟩ := List.mem_iff_getElem?.1 hb
        have := h (i + 1) b hi hpb
        omega
      rw [List.countP_cons, hrest, if_pos ha]
    · rw [List.countP_cons, if_neg ha]
      refine countP_le_one l (k - 1) (fun i b hi hb => ?_)
      have := h (i + 1) b hi hb
      omega

theorem Current.one {workers : List Worker} {task : Task} (h : Current workers task) :
    workers.countP (·.result.isNone) ≤ 1 := by
  refine countP_le_one workers task.worker (fun i w hi hw => ?_)
  by_contra hne
  have hdone := h.others i w hi hne
  rw [Option.isNone_iff_eq_none] at hw
  rw [hw] at hdone
  cases hdone

theorem AllDone.one {workers : List Worker} (h : AllDone workers) : workers.countP (·.result.isNone) ≤ 1 := by
  refine countP_le_one workers 0 (fun i w hi hw => ?_)
  have hdone := h i w hi
  rw [Option.isNone_iff_eq_none] at hw
  rw [hw] at hdone
  cases hdone

theorem AllDone.start {workers : List Worker} (h : AllDone workers) (path : Text) (timeout : Duration) :
    Current (workers ++ [⟨path, none⟩]) ⟨path, timeout, workers.length⟩ := by
  refine ⟨⟨⟨path, none⟩, by simp, rfl⟩, fun i w hi hne => ?_⟩
  have hlt : i < workers.length := by
    obtain ⟨hlen, -⟩ := List.getElem?_eq_some_iff.1 hi
    rw [List.length_append, List.length_singleton] at hlen
    simp only at hne
    omega
  rw [List.getElem?_append_left hlt] at hi
  exact h i w hi

/-- The task's worker is done, and so are all. -/
theorem Current.finished {workers : List Worker} {task : Task} (h : Current workers task) {w : Worker}
    (hw : workers[task.worker]? = some w) (hdone : w.result.isSome) : AllDone workers := by
  intro i w' hi
  by_cases heq : i = task.worker
  · rw [heq, hw] at hi
    cases hi
    exact hdone
  · exact h.others i w' hi heq

section Set

variable {workers : List Worker} {k : Nat} {path : Text} {result : Except Text Nat}

theorem getElem?_ended (hk : workers[k]? = some ⟨path, none⟩) {i : Nat} {w : Worker}
    (hi : (workers.set k ⟨path, some result⟩)[i]? = some w) :
    (i = k ∧ w = ⟨path, some result⟩) ∨ (i ≠ k ∧ workers[i]? = some w) := by
  rw [List.getElem?_set] at hi
  by_cases heq : k = i
  · obtain ⟨hlen, -⟩ := List.getElem?_eq_some_iff.1 hk
    subst heq
    rw [if_pos rfl, if_pos hlen] at hi
    cases hi
    exact .inl ⟨rfl, rfl⟩
  · rw [if_neg heq] at hi
    exact .inr ⟨Ne.symm heq, hi⟩

theorem AllDone.set (h : AllDone workers) (hk : workers[k]? = some ⟨path, none⟩) :
    AllDone (workers.set k ⟨path, some result⟩) := by
  have hdone := h k _ hk
  cases hdone

theorem Current.set {task : Task} (h : Current workers task) (hk : workers[k]? = some ⟨path, none⟩) :
    Current (workers.set k ⟨path, some result⟩) task := by
  obtain ⟨⟨w, hw, hpath⟩, hothers⟩ := h
  refine ⟨?_, fun i w' hi hne => ?_⟩
  · by_cases heq : k = task.worker
    · subst heq
      rw [hk] at hw
      cases hw
      obtain ⟨hlen, -⟩ := List.getElem?_eq_some_iff.1 hk
      exact ⟨⟨path, some result⟩, by rw [List.getElem?_set, if_pos rfl, if_pos hlen], hpath⟩
    · exact ⟨w, by rw [List.getElem?_set, if_neg heq, hw], hpath⟩
  · rcases getElem?_ended hk hi with ⟨rfl, rfl⟩ | ⟨-, hi⟩
    · rfl
    · exact hothers i w' hi hne

theorem countP_set_le (hk : workers[k]? = some ⟨path, none⟩) :
    (workers.set k ⟨path, some result⟩).countP (·.result.isNone) ≤ workers.countP (·.result.isNone) := by
  obtain ⟨hlen, hget⟩ := List.getElem?_eq_some_iff.1 hk
  rw [List.countP_set hlen]
  simp

end Set

/-! ## The invariant -/

/-- What `c` says of the dumps outstanding, of whether the JVM is ending, of the workers and of the task, while no JVM
ended with a dump in progress. -/
def Tallied (c : List Text → Bool → List Worker → Option Task → Prop) (s : Sys) : Prop :=
  outstanding.Always EndsIdle s.trace → outstanding.Always Recorded s.trace ∧
    c (outstanding.after s.trace) (ending.after s.trace) s.workers s.run.heapDumpTask

/-- Between two turns: the dump of the task is the one outstanding. -/
def Matched (m : List Text) (ends : Bool) (workers : List Worker) : Option Task → Prop
  | none => m = [] ∧ AllDone workers
  | some task => m = [task.path] ∧ ends = false ∧ Current workers task

def Vacant (m : List Text) (_ : Bool) (workers : List Worker) (task : Option Task) : Prop :=
  m = [] ∧ AllDone workers ∧ task = none

/-- A worker is started, and its task not yet kept. -/
def Starting (task : Task) (m : List Text) (_ : Bool) (workers : List Worker) (kept : Option Task) : Prop :=
  m = [] ∧ Current workers task ∧ kept = none

/-- ... and the request is recorded. -/
def Requested (task : Task) (m : List Text) (ends : Bool) (workers : List Worker) (_ : Option Task) : Prop :=
  m = [task.path] ∧ ends = false ∧ Current workers task

/-- A worker is done, and this is not yet recorded. -/
def Ended (path : Text) (m : List Text) (_ : Bool) (workers : List Worker) (task : Option Task) : Prop :=
  m = [path] ∧ AllDone workers ∧ task = none

/-- No dump is in progress, whatever the task. -/
def Between (m : List Text) (_ : Bool) (workers : List Worker) (_ : Option Task) : Prop := m = [] ∧ AllDone workers

def AtMostOne (_ : List Text) (_ : Bool) (workers : List Worker) (_ : Option Task) : Prop :=
  workers.countP (·.result.isNone) ≤ 1

/-- A condition that stays when a worker ends. -/
class Dumpable (c : List Text → Bool → List Worker → Option Task → Prop) : Prop where
  set : ∀ {m ends workers task k path result}, workers[k]? = some ⟨path, none⟩ → c m ends workers task →
    c m ends (workers.set k ⟨path, some result⟩) task
  one : ∀ {m ends workers task}, c m ends workers task → AtMostOne m ends workers task

instance : Dumpable Matched where
  set {_ _ _ task _ _ _} hk h := by
    cases task with
    | none => exact ⟨h.1, h.2.set hk⟩
    | some task => exact ⟨h.1, h.2.1, h.2.2.set hk⟩
  one {_ _ _ task} h := by
    cases task with
    | none => exact h.2.one
    | some task => exact h.2.2.one

instance : Dumpable Vacant where
  set hk h := ⟨h.1, h.2.1.set hk, h.2.2⟩
  one h := h.2.1.one

instance {task : Task} : Dumpable (Starting task) where
  set hk h := ⟨h.1, h.2.1.set hk, h.2.2⟩
  one h := h.2.1.one

instance {task : Task} : Dumpable (Requested task) where
  set hk h := ⟨h.1, h.2.1, h.2.2.set hk⟩
  one h := h.2.2.one

instance {path : Text} : Dumpable (Ended path) where
  set hk h := ⟨h.1, h.2.1.set hk, h.2.2⟩
  one h := h.2.1.one

instance : Dumpable Between where
  set hk h := ⟨h.1, h.2.set hk⟩
  one h := h.2.one

instance : Dumpable AtMostOne where
  set hk h := (countP_set_le hk).trans h
  one h := h

/-- An observation that says nothing of a dump, nor of the end of the JVM. -/
def Obs.dumpless : Obs → Prop
  | .published kind => kind.dumping = false
  | .logged level source message => .logged level source message ≠ Obs.marker
  | .waited site status _ => site ≠ .shutdown ∧ (site = .tick → status = none)
  | _ => True

theorem dumping_of_endsDump {kind : EventKind} (h : kind.endsDump = true) : kind.dumping = true := by
  cases kind with
  | heapDumpCompleted id path bytes => rfl
  | warning message =>
    obtain ⟨rest, rfl⟩ := List.isPrefixOf_iff_prefix.1 h
    rfl
  | _ => cases h

theorem endsDump_of_finishes {kind : EventKind} {path : Text} (h : kind.finishes path = true) : kind.endsDump = true := by
  cases kind with
  | heapDumpCompleted id completed bytes => rfl
  | warning message =>
    have hprefix : dumpFailed ++ path ++ ": ".toList <+: message := List.isPrefixOf_iff_prefix.1 h
    rw [List.append_assoc] at hprefix
    exact List.isPrefixOf_iff_prefix.2 ((List.prefix_append _ _).trans hprefix)
  | _ => cases h

theorem outstanding_published {kind : EventKind} (h : kind.dumping = false) (m : List Text) :
    outstanding.step m (.published kind) = m := by
  have herase : m.eraseP kind.finishes = m := by
    refine List.eraseP_of_forall_not (fun path _ hpath => ?_)
    rw [dumping_of_endsDump (endsDump_of_finishes hpath)] at h
    cases h
  cases kind with
  | heapDumpStarted id pid path => cases h
  | _ => exact herase

theorem dumpless_step {o : Obs} (h : o.dumpless) (m : List Text) : outstanding.step m o = m := by
  cases o with
  | published kind => exact outstanding_published h m
  | _ => rfl

theorem dumpless_endsJvm {o : Obs} (h : o.dumpless) : o.endsJvm = false := by
  cases o with
  | waited site status unread =>
    cases site with
    | shutdown => exact absurd rfl h.1
    | tick =>
      rw [h.2 rfl]
      rfl
    | _ => rfl
  | _ => rfl

theorem dumpless_ending {o : Obs} (h : o.dumpless) (m : Bool) : ending.step m o = m := by
  have hstep : (m || o.endsJvm) = m := by rw [dumpless_endsJvm h, Bool.or_false]
  cases o with
  | published kind =>
    cases kind with
    | heapDumpStarted id pid path => cases h
    | _ => exact hstep
  | _ => exact hstep

theorem dumpless_recorded {o : Obs} (h : o.dumpless) (m : List Text) : Recorded m o := by
  cases o with
  | published kind =>
    intro hends
    have hdumping : kind.dumping = false := h
    rw [dumping_of_endsDump hends] at hdumping
    cases hdumping
  | logged level source message => exact fun hmarker => absurd hmarker h
  | _ => exact fun hmarker => by cases hmarker

theorem Obs.bland.dumpless {o : Obs} (h : o.bland) : o.dumpless := by
  cases o with
  | published kind => exact h.2
  | logged level source message => exact h
  | waited site status unread => exact ⟨h.2, fun htick => absurd htick h.1⟩
  | logFailed => trivial
  | _ => exact h.elim

variable {c c' : List Text → Bool → List Worker → Option Task → Prop}

/-- **One more observation.** -/
theorem Tallied.observe {s t : Sys} {o : Obs} (h : Tallied c s) (ht : t.trace = s.trace ++ [o])
    (hc : ∀ m ends, EndsIdle m o → c m ends s.workers s.run.heapDumpTask →
      Recorded m o ∧ c' (outstanding.step m o) (ending.step ends o) t.workers t.run.heapDumpTask) : Tallied c' t := by
  intro hidle
  rw [ht, Monitor.always_concat] at hidle
  obtain ⟨hrecorded, hnow⟩ := h hidle.1
  obtain ⟨ho, hnext⟩ := hc _ _ hidle.2 hnow
  rw [ht, Monitor.always_concat, Monitor.after_concat, Monitor.after_concat]
  exact ⟨⟨hrecorded, ho⟩, hnext⟩

theorem Tallied.note {s t : Sys} {o : Obs} (h : Tallied c s) (ht : t.trace = s.trace ++ [o])
    (hworkers : t.workers = s.workers) (htask : t.run.heapDumpTask = s.run.heapDumpTask) (ho : o.dumpless) :
    Tallied c t := by
  refine h.observe ht (fun m ends _ hm => ⟨dumpless_recorded ho m, ?_⟩)
  rw [dumpless_step ho, dumpless_ending ho, hworkers, htask]
  exact hm

theorem Tallied.mono {s t : Sys} (h : Tallied c s) (ht : t.trace = s.trace)
    (hc : ∀ m ends, c m ends s.workers s.run.heapDumpTask → c' m ends t.workers t.run.heapDumpTask) :
    Tallied c' t := by
  unfold Tallied
  rw [ht]
  exact fun hidle => ⟨(h hidle).1, hc _ _ (h hidle).2⟩

theorem Tallied.same {s t : Sys} (h : Tallied c s) (ht : t.trace = s.trace) (hworkers : t.workers = s.workers)
    (htask : t.run.heapDumpTask = s.run.heapDumpTask) : Tallied c t :=
  h.mono ht (fun _ _ hm => by rw [hworkers, htask]; exact hm)

section Dumpable

variable [Dumpable c]

theorem Tallied.one {s : Sys} (h : Tallied c s) : Tallied AtMostOne s :=
  h.mono rfl (fun _ _ hm => Dumpable.one hm)

theorem tallied_move (s : Sys) (m : Move) (h : Tallied c s) : Tallied c (s.move m) := by
  cases m with
  | deliver event =>
    simp only [Sys.move]
    split
    · exact h
    · exact h.note rfl rfl rfl trivial
  | dumped worker result =>
    simp only [Sys.move]
    split
    · rename_i path hk
      exact h.mono rfl (fun _ _ hm => Dumpable.set hk hm)
    · exact h
  | output line => simp only [Sys.move]; split <;> exact h.same rfl rfl rfl
  | exit code => simp only [Sys.move]; split <;> exact h.same rfl rfl rfl
  | _ => exact h.same rfl rfl rfl

instance : Steady (Preserves (Tallied c)) where
  same hst h := h.same hst.trace hst.workers hst.run.heapDumpTask
  move := tallied_move
  note _ _ ho h := h.note rfl rfl rfl ho.dumpless

instance : Talking (Preserves (Tallied c)) where
  sent _ _ _ h := h.note rfl rfl rfl trivial
  sendFailed _ h := h.note rfl rfl rfl trivial
  drop _ _ _ h := h.note rfl rfl rfl trivial

instance : Timing (Preserves (Tallied c)) where
  nextPing _ _ h := h.same rfl rfl rfl
  answered _ _ h := h.same rfl rfl rfl
  check _ _ h := h.note rfl rfl rfl trivial

instance : Outputting (Preserves (Tallied c)) where
  took _ _ _ _ _ h := h.note rfl rfl rfl trivial
  recorded _ _ h := h.note rfl rfl rfl trivial

instance : Killing (Preserves (Tallied c)) where
  killed _ h := h.note rfl rfl rfl trivial
  reaped _ h := h.note rfl rfl rfl trivial
  reap _ _ _ h := h.same rfl rfl rfl

theorem carried_tallied :
    Carried (Preserves (Tallied c)) (Tallied c) (Tallied AtMostOne) (Tallied AtMostOne) :=
  ⟨fun _ _ h hst => hst h, fun _ h => h.one, fun _ h => h.one⟩

end Dumpable

/-! ## A dump, from its request to its record -/

/-- A turn goes on settled; wherever it stops, one worker runs at most. -/
abbrev dumpWays : Ways where
  on := Preserves (Tallied Matched)
  ended := Preserves (Tallied Matched)
  err := fun s t => Tallied Matched s → Tallied AtMostOne t
  cut := fun s t => Tallied Matched s → Tallied AtMostOne t

instance : Cut (Preserves (Tallied Matched)) (fun s t => Tallied Matched s → Tallied AtMostOne t) where
  after h h' hs := h' (h hs)
  of h hs := (h hs).one

instance : dumpWays.Lawful where
  on := inferInstanceAs (Steady (Preserves (Tallied Matched)))
  ended := inferInstanceAs (IsPreorder Sys (Preserves (Tallied Matched)))
  le h := h
  err := inferInstanceAs (Cut (Preserves (Tallied Matched)) (fun s t => Tallied Matched s → Tallied AtMostOne t))
  cut := inferInstanceAs (Cut (Preserves (Tallied Matched)) (fun s t => Tallied Matched s → Tallied AtMostOne t))

/-- A program that leaves the dumps settled, however it stops. -/
theorem stops_of_tallied {α : Type} {p : Run α} {s : Sys}
    (h : Tallied Matched s →
      (p s).All (fun _ => Tallied Matched) (fun _ => Tallied AtMostOne) (Tallied AtMostOne)) :
    (p s).All (fun _ => dumpWays.on s) (fun _ => dumpWays.err s) (dumpWays.cut s) := by
  cases hp : p s with
  | ok a t =>
    rw [hp] at h
    exact h
  | err e t =>
    rw [hp] at h
    exact h
  | blocked t =>
    rw [hp] at h
    exact h

theorem Tallied.keeps [Dumpable c] {α : Type} {p : Run α} (hp : Keeps (Preserves (Tallied c)) p) {s : Sys}
    (h : Tallied c s) :
    (p s).All (fun _ => Tallied c) (fun _ => Tallied AtMostOne) (Tallied AtMostOne) :=
  (hp s).mono (fun _ _ ht => ht h) (fun _ _ ht => Tallied.one (ht h)) (fun _ ht => Tallied.one (ht h))

theorem Tallied.matched {s : Sys} (h : Tallied Vacant s) : Tallied Matched s := by
  refine h.mono rfl (fun m ends hm => ?_)
  rw [hm.2.2]
  exact ⟨hm.1, hm.2.1⟩

theorem Tallied.heapDumpStart (config : Config) {s : Sys} (h : Tallied Vacant s) :
    (heapDumpStart config s).All (fun task => Tallied (Starting task)) (fun _ => Tallied Vacant)
      (Tallied AtMostOne) := by
  unfold Supervisor.heapDumpStart
  rw [all_bind]
  refine (keeps_attemptOutside (R := Preserves (Tallied Vacant)) s).mono (fun a t ht => ?_) (fun _ _ ht => ht h)
    (fun _ ht => Tallied.one (ht h))
  rw [all_bind, all_get, all_bind, all_modify]
  exact (ht h).mono rfl (fun m ends hm => ⟨hm.1, hm.2.1.start _ _, hm.2.2⟩)

/-- **A request** is recorded, and its task kept. -/
theorem Tallied.startHeapDump (sup : Supervisor) {s : Sys} (h : Tallied Matched s) :
    (startHeapDump sup s).All (fun _ => Tallied Matched) (fun _ => Tallied AtMostOne) (Tallied AtMostOne) := by
  unfold Supervisor.startHeapDump getRun
  simp only [all_bind, all_get, all_pure]
  by_cases hstarted : (!s.run.started) = true
  · rw [if_pos hstarted]
    exact h.keeps (keeps_log (not_marker_of_level (by decide)))
  rw [if_neg hstarted]
  cases htask : s.run.heapDumpTask with
  | some task => exact h.keeps (keeps_log (not_marker_of_level (by decide)))
  | none =>
    have hvacant : Tallied Vacant s := by
      refine h.mono rfl (fun m ends hm => ?_)
      rw [htask] at hm ⊢
      exact ⟨hm.1, hm.2, rfl⟩
    simp only
    rw [all_bind, all_attempt]
    refine (hvacant.heapDumpStart sup.config).mono (fun task t ht => ?_) (fun e t ht => ?_) (fun _ h => h)
    · simp only
      refine carried_tallied.bind ht (keeps_log (not_marker_of_head _ _ 'H' _ (by decide))) (fun _ u hu => ?_)
      rw [all_bind]
      unfold publish emit
      rw [all_modify]
      refine hu.observe (o := .published (.heapDumpStarted s.run.jvmId s.run.pid task.path)) rfl
        (fun m ends _ hm => ⟨fun hends => ?_, ?_⟩)
      · cases hends
      · exact ⟨by rw [hm.1]; rfl, rfl, hm.2.1⟩
    · simp only
      refine carried_tallied.bind ht (keeps_log (not_marker_of_level (by decide))) (fun _ u hu => ?_)
      exact (hu.keeps (keeps_publish rfl rfl)).mono (fun _ _ hv => hv.matched) (fun _ _ h => h) (fun _ h => h)

theorem Tallied.finish {path : Text} {kind : EventKind} (hkind : kind.finishes path = true) {s : Sys}
    (h : Tallied (Ended path) s) : Tallied Matched (s.note (.published kind)) := by
  refine h.observe (o := .published kind) rfl (fun m ends _ hm => ⟨fun _ => ⟨path, ?_, hkind⟩, ?_⟩)
  · rw [hm.1]
    exact List.mem_singleton_self path
  · have hstep : outstanding.step m (.published kind) = [] := by
      rw [hm.1]
      cases kind with
      | heapDumpStarted id pid path => cases hkind
      | _ => exact List.eraseP_cons_of_pos hkind
    have htask : (s.note (.published kind)).run.heapDumpTask = none := hm.2.2
    rw [hstep, htask]
    exact ⟨rfl, hm.2.1⟩

/-- **The record** of a dump that has ended. -/
theorem Tallied.reportCompletion (jvmId : Nat) (path : Text) (result : Except Text Nat) {s : Sys}
    (h : Tallied (Ended path) s) :
    (reportCompletion jvmId (.ofResult path result) s).All (fun _ => Tallied Matched)
      (fun _ => Tallied AtMostOne) (Tallied AtMostOne) := by
  cases result with
  | ok bytes =>
    refine carried_tallied.bind h (keeps_log (not_marker_of_head _ _ 'H' _ (by decide))) (fun _ t ht => ?_)
    exact ht.finish (by simp [EventKind.finishes])
  | error message =>
    refine carried_tallied.bind h (keeps_log (not_marker_of_level (by decide))) (fun _ t ht => ?_)
    have hfinishes : (EventKind.warning ("Heap dump failed for ".toList ++ path ++ ": ".toList ++ message)).finishes path
        = true := List.isPrefixOf_iff_prefix.2 (List.prefix_append _ _)
    exact ht.finish hfinishes

theorem Tallied.pollHeapDump {s : Sys} (h : Tallied Matched s) :
    (pollHeapDump s).All (fun _ => Tallied Matched) (fun _ => Tallied AtMostOne) (Tallied AtMostOne) := by
  unfold Supervisor.pollHeapDump getRun Task.poll
  simp only [all_bind, all_get, all_pure]
  cases htask : s.run.heapDumpTask with
  | none => exact h
  | some task =>
    have hrequested : Tallied (Requested task) s := by
      refine h.mono rfl (fun m ends hm => ?_)
      rw [htask] at hm
      exact hm
    simp only [all_bind, all_get, all_pure]
    refine ((ask_spec (R := Preserves (Tallied (Requested task))) s).and
      (ask_spec (R := Preserves (Tallied Matched)) s)).mono (fun _ t ht => ?_) (fun _ _ h => h.1.elim)
      (fun _ ht => Tallied.one (ht.2 h))
    cases hworker : t.workers[task.worker]? with
    | none => exact ht.2 h
    | some w =>
      obtain ⟨path, result⟩ := w
      cases result with
      | none => exact ht.2 h
      | some result =>
        have hended : Tallied (Ended path) { t with run := { t.run with heapDumpTask := none } } := by
          refine (ht.1 hrequested).mono rfl (fun m ends hm => ?_)
          obtain ⟨hm, -, hcurrent⟩ := hm
          obtain ⟨w, hw, hpath⟩ := hcurrent.worker
          rw [hworker] at hw
          cases hw
          exact ⟨by rw [hm, ← hpath], hcurrent.finished hworker rfl, rfl⟩
        exact hended.reportCompletion _ path result

/-! ## Runs -/

/-- The JVM is ending, and no dump was requested since. -/
def Closed (s : Sys) : Prop := ending.after s.trace = true

theorem Closed.note {s t : Sys} {o : Obs} (h : Closed s) (ht : t.trace = s.trace ++ [o])
    (ho : ∀ id pid path, o ≠ .published (.heapDumpStarted id pid path)) : Closed t := by
  have hstep : ending.step true o = true := by
    cases o with
    | published kind =>
      cases kind with
      | heapDumpStarted id pid path => exact absurd rfl (ho id pid path)
      | _ => rfl
    | _ => rfl
  unfold Closed at h ⊢
  rw [ht, Monitor.after_concat, h, hstep]

theorem Closed.same {s t : Sys} (h : Closed s) (ht : t.trace = s.trace) : Closed t := by
  unfold Closed
  rw [ht]
  exact h

theorem closed_move (s : Sys) (m : Move) (h : Closed s) : Closed (s.move m) := by
  rcases move_trace s m with htrace | ⟨event, htrace⟩
  · exact h.same htrace
  · exact h.note htrace (by simp)

instance : Steady (Preserves Closed) where
  same hst h := h.same hst.trace
  move := closed_move
  note _ o ho h := h.note rfl (fun id pid path heq => by subst heq; cases ho.2)

instance : Talking (Preserves Closed) where
  sent _ _ _ h := h.note rfl (by simp)
  sendFailed _ h := h.note rfl (by simp)
  drop _ _ _ h := h.note rfl (by simp)

instance : Killing (Preserves Closed) where
  killed _ h := h.note rfl (by simp)
  reaped _ h := h.note rfl (by simp)
  reap _ _ _ h := h.same rfl

instance : Outputting (Preserves Closed) where
  took _ _ _ _ _ h := h.note rfl (by simp)
  recorded _ _ h := h.note rfl (by simp)

/-- The first step of a shutdown, or the tick that sees the exit. -/
theorem tryWait_dumps {site : WaitSite} (hsite : site = .shutdown ∨ site = .tick) (s : Sys) :
    (tryWait site s).All
      (fun status t => (Tallied Matched s → Tallied Matched t) ∧ (site = .shutdown ∨ status ≠ none → Closed t))
      (fun _ t => Tallied Matched s → Tallied Matched t) (fun t => Tallied Matched s → Tallied Matched t) := by
  refine (tryWait_spec (R := Preserves (Tallied Matched)) site s).mono (fun status t ht => ?_) (fun _ _ h => h)
    (fun _ h => h)
  obtain ⟨u, hu, rfl, -⟩ := ht
  by_cases hends : (Obs.waited site status (u.run.connection.getD [])).endsJvm = true
  · constructor
    · refine fun h => (hu h).observe rfl (fun m ends hidle hm => ⟨fun hmarker => (by cases hmarker), ?_⟩)
      have hempty : m = [] := hidle hends
      change Matched m (ends || _) u.workers u.run.heapDumpTask
      cases htask : u.run.heapDumpTask with
      | none =>
        rw [htask] at hm
        exact hm
      | some task =>
        rw [htask] at hm
        rw [hm.1] at hempty
        cases hempty
    · intro _
      unfold Closed
      rw [Sys.note, Monitor.after_concat]
      change (_ || _) = true
      rw [hends, Bool.or_true]
  · constructor
    · refine fun h => (hu h).note rfl rfl rfl ⟨?_, ?_⟩
      · rintro rfl
        exact hends rfl
      · rintro rfl
        cases status with
        | none => rfl
        | some code => exact absurd rfl hends
    · intro h
      rcases h with rfl | hstatus
      · exact absurd rfl hends
      · cases status with
        | none => exact absurd rfl hstatus
        | some code =>
          rcases hsite with rfl | rfl
          · exact absurd rfl hends
          · exact absurd rfl hends

/-- **A shutdown** leaves the JVM ending, if it returns. -/
theorem shutdown_closed (sup : Supervisor) (exitCode : Int) (s : Sys) :
    (shutdownAndDrain sup exitCode s).All (fun _ => Closed) (fun _ _ => True) (fun _ => True) := by
  rw [shutdownAndDrain_eq, all_bind]
  refine (tryWait_dumps (.inl rfl) s).mono (fun status t ht => ?_) (fun _ _ _ => trivial) (fun _ _ => trivial)
  have hclosed : Closed t := ht.2 (.inl rfl)
  have hdrain : Keeps (Preserves Closed) (drainRemainingOutput sup) := keeps_drainRemainingOutput sup
  cases status with
  | some code => exact (hdrain t).mono (fun _ _ hu => hu hclosed) (fun _ _ _ => trivial) (fun _ _ => trivial)
  | none =>
    have hstop : Keeps (Preserves Closed) (stopChild sup exitCode) :=
      stops_stopChild hdrain (keeps_waitForOutput sup) keeps_terminateChild keeps_sendIfConnected exitCode
    exact (hstop t).mono (fun _ _ hu => hu hclosed) (fun _ _ _ => trivial) (fun _ _ => trivial)

theorem Tallied.delivered [Dumpable c] : ∀ (events : List ReceiveEvent) {s t : Sys}, Tallied c s →
    t.trace = s.trace ++ events.map .delivered → t.workers = s.workers → t.run.heapDumpTask = s.run.heapDumpTask →
    Tallied c t
  | [], s, t, h, ht, hworkers, htask => h.same (by rw [ht, List.map_nil, List.append_nil]) hworkers htask
  | event :: events, s, t, h, ht, hworkers, htask => by
    have hone : Tallied c (s.note (.delivered event)) := h.note rfl rfl rfl trivial
    refine Tallied.delivered events hone ?_ hworkers htask
    rw [ht, Sys.note, List.map_cons, List.append_cons]

theorem closing_dumps (sup : Supervisor) : Closing sup dumpWays Closed (fun _ => Closed) where
  publish s kind _ hkind h := h.note rfl rfl rfl hkind
  hold _ _ h := h.same rfl rfl rfl
  release _ h := h.same rfl rfl rfl
  join s events now _ h := by
    have hconnected : Tallied Matched (s.note .connected) := h.note rfl rfl rfl trivial
    exact hconnected.delivered events (by simp [Sys.join, Sys.note]) rfl rfl
  drain := (keeps_drainRemainingOutput (R := Preserves (Tallied Matched)) sup).stops
  stable _ _ hcalm h := (Calm.keeps (R := Preserves Closed) hcalm) h
  shutdown code s := by
    have hask : Stops dumpWays.on dumpWays.err dumpWays.cut (tryWait .shutdown) := fun t =>
      (tryWait_dumps (.inl rfl) t).mono (fun _ _ h => h.1) (fun _ _ h hs => (h hs).one) (fun _ h hs => (h hs).one)
    have hmatched := stops_shutdownAndDrain (R := Preserves (Tallied Matched)) (E := dumpWays.err) (B := dumpWays.cut)
      (keeps_drainRemainingOutput sup).stops (keeps_waitForOutput sup).stops keeps_terminateChild.stops hask
      (fun code message => (keeps_sendIfConnected code message).stops) code s
    exact (hmatched.and (shutdown_closed sup code s)).mono (fun _ _ h => h) (fun _ _ h => h.1) (fun _ h => h.1)
  ended _ _ h _ := h
  paused _ h := h.note rfl (by simp)
  startDump _ := stops_of_tallied (fun h => h.startHeapDump sup)

theorem turn_serve_dumps (sup : Supervisor) (arm : Arm) : Turn dumpWays (fun _ => Closed) (serve sup arm) := by
  have c := closing_dumps sup
  refine turn_serve c arm (fun line _ => turn_handleOutputBatch c (fun _ _ h => h.note rfl rfl rfl trivial) line)
    (fun _ _ _ => keeps_handleStarted c (fun _ _ _ h => h.note rfl rfl rfl rfl)) (fun _ => ?_)
  refine turn_tick c (fun t => stops_of_tallied (fun h => h.pollHeapDump)) (fun s => ?_)
  refine (tryWait_dumps (.inr rfl) s).mono (fun status t ht => ?_) (fun _ _ h hs => (h hs).one)
    (fun _ h hs => (h hs).one)
  cases status with
  | none => exact ht.1
  | some code => exact ⟨ht.1, ht.2 (.inr (by simp))⟩

theorem Tallied.selected {s t : Sys} {arm : Arm} (h : Tallied Matched s) (hsel : Selected s arm t) :
    Tallied Matched t := by
  cases hsel with
  | outputClosed => exact h
  | tick next => exact h.same rfl rfl rfl
  | _ => exact h.note rfl rfl rfl trivial

/-- **A launch that ends** leaves no dump in progress. -/
theorem Tallied.eventLoop (sup : Supervisor) {s : Sys} (h : Tallied Matched s) :
    (eventLoop sup s).All (fun _ => Tallied Between) (fun _ => Tallied AtMostOne) (Tallied AtMostOne) := by
  refine all_eventLoop (I := Tallied Matched) (fun t ht => ?_) (fun _ h => h.one) s (fun next => h.same rfl rfl rfl)
  refine (select_spec (R := Preserves (Tallied Matched)) t).mono (fun arm v hv => ?_) (fun _ _ h => h.elim)
    (fun _ hu => Tallied.one (hu ht))
  obtain ⟨u, hu, hsel⟩ := hv
  have hv := (hu ht).selected hsel
  refine (turn_serve_dumps sup arm v).mono (fun r w hw => ?_) (fun _ _ hw => hw hv) (fun _ hw => hw hv)
  cases r with
  | none => exact hw hv
  | some o =>
    intro hidle
    obtain ⟨hrecorded, hnow⟩ := hw.1 hv hidle
    refine ⟨hrecorded, ?_⟩
    have hclosed : ending.after w.trace = true := hw.2
    cases htask : w.run.heapDumpTask with
    | none =>
      rw [htask] at hnow
      exact hnow
    | some task =>
      rw [htask, hclosed] at hnow
      cases hnow.2.1

theorem Tallied.runOnce (sup : Supervisor) (jvmId : Nat) (resuming : Bool) {s : Sys} (h : Tallied Between s) :
    (runOnce sup jvmId resuming s).All (fun _ => Tallied Between) (fun _ => Tallied AtMostOne)
      (Tallied AtMostOne) := by
  refine all_runOnce (I := Tallied Between) (J := Tallied Between) (K := Tallied Between)
    (R := Preserves (Tallied Between)) carried_tallied carried_tallied carried_tallied
    (fun t h => h.mono rfl (fun _ _ hm => hm)) (fun t h => ?_) (fun t h => h.note rfl rfl rfl trivial) (fun _ _ h => h)
    (fun t command key pid launchedAt now h => ?_) s h
  · exact h.note (o := .spawned jvmId) rfl rfl rfl trivial
  · have hmatched : Tallied Matched { t with run := .launched sup jvmId resuming command key pid launchedAt now } :=
      h.mono rfl (fun _ _ hm => hm)
    exact (hmatched.eventLoop sup).mono (fun _ u hu => hu.mono rfl (fun _ _ hm => hm)) (fun _ _ h => h) (fun _ h => h)

theorem Tallied.outer {s : Sys} {o : Obs} (ho : o.outer) (h : Tallied Between s) : Tallied Between (s.note o) := by
  by_cases hmarker : o = Obs.marker
  · subst hmarker
    exact h.observe rfl (fun m ends _ hm => ⟨fun _ => hm.1, by cases ends <;> exact hm⟩)
  · refine h.note rfl rfl rfl ?_
    cases o with
    | published kind =>
      cases kind with
      | jvmLaunching id => rfl
      | servicePaused => rfl
      | _ => cases ho
    | logged level source message => exact hmarker
    | waited site status unread => cases ho
    | _ => trivial

/-- The application reports that it has started, and a heap dump into this file is requested. -/
def dumpRequested (path : Text) : List Answer :=
  [{ moves := [.deliver (.packet ⟨Protocol.STARTED, []⟩)], source := .protocol }] ++ quiet 1 ++
    [{ moves := [.control .heapDump], source := .controls }, { text := path }] ++ quiet 1

def exitsWhenAsked : List Answer :=
  quiet 3 ++ [{ moves := [.exit (some 0)] }] ++ quiet 1 ++ [{ moves := [.closeOutput] }]

def dumpEnds : List Answer :=
  quiet 4 ++ connected ++ dumpRequested "a.hprof" ++
    [{ moves := [.dumped 0 (.ok 10), .elapse tickInterval] }] ++ quiet 4 ++
    [{ moves := [.control .stop], source := .controls }] ++ exitsWhenAsked ++ quiet 1

/-- The application asks for a restart during a dump, and another dump is requested of the next JVM. -/
def restartDuringDump : List Answer :=
  quiet 4 ++ connected ++ dumpRequested "a.hprof" ++
    [{ moves := [.deliver (.packet ⟨Protocol.RESTART, []⟩)], source := .protocol }] ++ quiet 1 ++ exitsWhenAsked ++
    quiet 3 ++ [{ moves := [.elapse (Duration.fromSecs 5)] }] ++ quiet 2 ++ connected ++ dumpRequested "b.hprof" ++
    [{ moves := [.control .stop], source := .controls }] ++ exitsWhenAsked ++ quiet 1

end Supervisor
end Jss
