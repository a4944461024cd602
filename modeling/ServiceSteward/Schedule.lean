import ServiceSteward.JvmRun
/-!
# Schedule — the supervisor in an environment that does not end

A `Schedule` answers for ever, and its time goes on without bound.  What the supervisor does on it is what it does on
its beginnings: a program finishes if a beginning is enough for it (`Finishes`).  `Took k` says that at most `k` answers
were taken and all their time has passed; a program that never waits takes a fixed number of them (`Prompt`).
-/
namespace Jss
namespace Supervisor

open Scripted

def Move.duration : Move → Duration
  | .elapse d => d
  | _ => 0

def Answer.duration (a : Answer) : Duration := (a.moves.map Move.duration).sum

/-- The time that passes with some answers. -/
def spent (script : List Answer) : Duration := (script.map Answer.duration).sum

/-- The answers of an environment, in which time goes on. -/
structure Schedule where
  answer : Nat → Answer
  goesOn : ∀ d, ∃ n, d ≤ spent ((List.range n).map answer)

def Schedule.take (σ : Schedule) (n : Nat) : List Answer := (List.range n).map σ.answer

def Sys.on (s : Sys) (script : List Answer) : Sys := { s with script := script }

/-- **The program returns or fails** once the environment has given it enough answers. -/
def Finishes {α : Type} (p : Run α) (s : Sys) (σ : Schedule) : Prop :=
  ∃ n, (p (s.on (σ.take n))).All (fun _ _ => True) (fun _ _ => True) (fun _ => False)

/-! ## Time -/

@[simp] theorem spent_append (a b : List Answer) : spent (a ++ b) = spent a + spent b := by
  unfold spent
  rw [List.map_append, List.sum_append]

theorem spent_take_add (l : List Answer) (i j : Nat) :
    spent (l.take (i + j)) = spent (l.take i) + spent ((l.drop i).take j) := by
  rw [List.take_add, spent_append]

theorem spent_take_mono (l : List Answer) {i j : Nat} (h : i ≤ j) : spent (l.take i) ≤ spent (l.take j) := by
  obtain ⟨d, rfl⟩ := Nat.exists_eq_add_of_le h
  rw [spent_take_add]
  exact Nat.le_add_right _ _

theorem Schedule.length_take (σ : Schedule) (n : Nat) : (σ.take n).length = n := by simp [Schedule.take]

theorem Schedule.take_take (σ : Schedule) {m n : Nat} (h : m ≤ n) : (σ.take n).take m = σ.take m := by
  unfold Schedule.take
  rw [← List.map_take, List.take_range, Nat.min_eq_left h]

theorem spent_const (a : Answer) (n : Nat) : spent ((List.range n).map (fun _ => a)) = n * a.duration := by
  unfold spent
  rw [List.map_map]
  show (List.map (fun _ => a.duration) (List.range n)).sum = _
  rw [List.map_const', List.length_range, List.sum_replicate]
  rfl

/-- An answer that takes time, again and again. -/
def Schedule.always (a : Answer) (h : 0 < a.duration) : Schedule where
  answer _ := a
  goesOn d := by
    refine ⟨d, ?_⟩
    rw [spent_const]
    exact Nat.le_mul_of_pos_right d h

theorem move_clock (s : Sys) (m : Move) : (s.move m).clock = s.clock + m.duration := by
  cases m with
  | elapse d => rfl
  | output line => simp only [Sys.move]; split <;> rfl
  | deliver event => simp only [Sys.move]; split <;> rfl
  | exit code => simp only [Sys.move]; split <;> rfl
  | dumped worker result => simp only [Sys.move]; split <;> rfl
  | _ => rfl

theorem move_script (s : Sys) (m : Move) : (s.move m).script = s.script := by
  cases m with
  | output line => simp only [Sys.move]; split <;> rfl
  | deliver event => simp only [Sys.move]; split <;> rfl
  | exit code => simp only [Sys.move]; split <;> rfl
  | dumped worker result => simp only [Sys.move]; split <;> rfl
  | _ => rfl

theorem moves_clock : ∀ (moves : List Move) (s : Sys),
    (moves.foldl Sys.move s).clock = s.clock + (moves.map Move.duration).sum
  | [], s => rfl
  | m :: moves, s => by
    rw [List.foldl_cons, moves_clock moves, move_clock, List.map_cons, List.sum_cons, Nat.add_assoc]

theorem moves_script : ∀ (moves : List Move) (s : Sys), (moves.foldl Sys.move s).script = s.script
  | [], _ => rfl
  | m :: moves, s => by rw [List.foldl_cons, moves_script moves, move_script]

/-! ## Answers taken -/

/-- At most `k` answers were taken, and their time has passed. -/
def Took (k : Nat) (s t : Sys) : Prop :=
  ∃ j ≤ k, j ≤ s.script.length ∧ t.script = s.script.drop j ∧ s.clock + spent (s.script.take j) ≤ t.clock

theorem took_refl (k : Nat) (s : Sys) : Took k s s := ⟨0, Nat.zero_le k, Nat.zero_le _, rfl, Nat.le_refl _⟩

theorem took_later {k : Nat} {s t : Sys} (h : t.script = s.script) (h' : s.clock ≤ t.clock) : Took k s t :=
  ⟨0, Nat.zero_le k, Nat.zero_le _, h, h'⟩

theorem Took.trans {k k' : Nat} {s t u : Sys} (h : Took k s t) (h' : Took k' t u) : Took (k + k') s u := by
  obtain ⟨i, hi, hlen, ht, hclock⟩ := h
  obtain ⟨j, hj, hlen', hu, hclock'⟩ := h'
  rw [ht, List.length_drop] at hlen'
  refine ⟨i + j, Nat.add_le_add hi hj, by omega, by rw [hu, ht, List.drop_drop], ?_⟩
  rw [ht] at hclock'
  rw [spent_take_add, ← Nat.add_assoc]
  exact (Nat.add_le_add_right hclock _).trans hclock'

theorem Took.length {k : Nat} {s t : Sys} (h : Took k s t) : s.script.length ≤ t.script.length + k := by
  obtain ⟨j, hj, hlen, ht, -⟩ := h
  rw [ht, List.length_drop]
  omega

/-- **A program that takes at most `k` answers**, and does not wait for more. -/
def Prompt {α : Type} (k : Nat) (p : Run α) : Prop :=
  ∀ s, (p s).All (fun _ => Took k s) (fun _ _ => True) (fun _ => s.script.length < k)

theorem prompt_pure {α : Type} (a : α) : Prompt 0 (pure a : Run α) := took_refl 0

theorem prompt_throw {α : Type} (e : Error) : Prompt 0 (Prog.throw e : Run α) := fun _ => trivial

theorem prompt_get : Prompt 0 (Prog.get : Run Sys) := took_refl 0

theorem prompt_modify {f : Sys → Sys} (h : ∀ s, (f s).script = s.script) (h' : ∀ s, s.clock ≤ (f s).clock) :
    Prompt 0 (Prog.modify f : Run Unit) := fun s => took_later (h s) (h' s)

theorem prompt_emit (o : Obs) : Prompt 0 (emit o) := prompt_modify (fun _ => rfl) (fun _ => Nat.le_refl _)

theorem prompt_modifyRun (f : JvmRun → JvmRun) : Prompt 0 (modifyRun f) :=
  prompt_modify (fun _ => rfl) (fun _ => Nat.le_refl _)

theorem prompt_ask : Prompt 1 ask := by
  intro s
  unfold ask
  cases hs : s.script with
  | nil => exact Nat.one_pos
  | cons a rest =>
    refine ⟨1, Nat.le_refl 1, ?_, ?_, ?_⟩
    · rw [hs]
      exact Nat.succ_le_succ (Nat.zero_le _)
    · rw [moves_script, hs]
      rfl
    · rw [moves_clock, hs]
      simp [spent, Answer.duration]

theorem Prompt.mono {α : Type} {k k' : Nat} {p : Run α} (h : Prompt k p) (hk : k ≤ k') : Prompt k' p := by
  refine fun s => (h s).mono (fun _ t ht => ?_) (fun _ _ h => h) (fun _ h => Nat.lt_of_lt_of_le h hk)
  obtain ⟨j, hj, htook⟩ := ht
  exact ⟨j, hj.trans hk, htook⟩

theorem prompt_bind {α β : Type} {k k' : Nat} {p : Run α} {f : α → Run β} (hp : Prompt k p)
    (hf : ∀ a, Prompt k' (f a)) : Prompt (k + k') (p >>= f) := by
  intro s
  rw [all_bind]
  refine (hp s).mono (fun a t ht => ?_) (fun _ _ h => h) (fun _ h => Nat.lt_add_right k' h)
  refine (hf a t).mono (fun _ u hu => ht.trans hu) (fun _ _ h => h) (fun _ hu => ?_)
  have hlen := ht.length
  omega

/-- A program before which no answer is taken. -/
theorem prompt_free {α β : Type} {k : Nat} {p : Run α} {f : α → Run β} (hp : Prompt 0 p) (hf : ∀ a, Prompt k (f a)) :
    Prompt k (p >>= f) := (prompt_bind hp hf).mono (Nat.le_of_eq (Nat.zero_add k))

/-- ... or one. -/
theorem prompt_step {α β : Type} {k : Nat} {p : Run α} {f : α → Run β} (hp : Prompt 1 p) (hf : ∀ a, Prompt k (f a)) :
    Prompt (k + 1) (p >>= f) := (prompt_bind hp hf).mono (Nat.le_of_eq (Nat.add_comm 1 k))

theorem prompt_attemptOutside : Prompt 1 attemptOutside := by
  unfold attemptOutside
  refine prompt_step prompt_ask (fun a => ?_)
  split
  · exact prompt_throw _
  · exact prompt_pure _

theorem prompt_now : Prompt 1 now :=
  prompt_step prompt_ask (fun _ => prompt_free prompt_get (fun _ => prompt_pure _))

theorem prompt_getRun : Prompt 0 getRun := prompt_free prompt_get (fun _ => prompt_pure _)

theorem prompt_elapsed : Prompt 1 elapsed :=
  prompt_step prompt_now (fun _ => prompt_free prompt_getRun (fun _ => prompt_pure _))

theorem prompt_logMessage (level : LogLevel) (source : LogSource) (message : Message) :
    Prompt 1 (logMessage level source message) := by
  unfold logMessage
  refine prompt_step prompt_ask (fun a => ?_)
  split
  · exact prompt_free (prompt_emit _) (fun _ => prompt_throw _)
  · exact prompt_emit _

theorem prompt_publishMatches : ∀ found : List FilterMatch, Prompt 0 (publishMatches found)
  | [] => prompt_pure ()
  | _ :: rest => prompt_free (prompt_emit _) (fun _ => prompt_publishMatches rest)

theorem prompt_recordOutput (sup : Supervisor) (line : Bytes) : Prompt 1 (recordOutput sup line) := by
  unfold recordOutput
  refine prompt_free prompt_getRun (fun run => prompt_step (prompt_logMessage _ _ _) (fun _ => ?_))
  exact prompt_free (prompt_emit _) (fun _ => prompt_free (prompt_publishMatches _) (fun _ => prompt_pure _))

theorem prompt_tryWait (site : WaitSite) : Prompt 1 (tryWait site) := by
  unfold tryWait
  refine prompt_step prompt_attemptOutside (fun _ => prompt_free prompt_get (fun s => ?_))
  exact prompt_free (prompt_emit _) (fun _ => prompt_pure _)

theorem prompt_logJvmExit (exitCode : Option Int) : Prompt 1 (logJvmExit exitCode) :=
  prompt_free prompt_getRun (fun _ => prompt_free (prompt_emit _) (fun _ => prompt_logMessage _ _ _))

theorem prompt_reportCompletion (jvmId : Nat) (completion : Completion) :
    Prompt 1 (reportCompletion jvmId completion) := by
  cases completion with
  | created path bytes => exact prompt_step (prompt_logMessage _ _ _) (fun _ => prompt_emit _)
  | failed path message => exact prompt_step (prompt_logMessage _ _ _) (fun _ => prompt_emit _)

theorem prompt_poll (task : Task) : Prompt 1 task.poll :=
  prompt_step prompt_ask (fun _ => prompt_free prompt_get (fun _ => prompt_pure _))

theorem prompt_pollHeapDump : Prompt 2 pollHeapDump := by
  unfold pollHeapDump
  refine prompt_free prompt_getRun (fun run => ?_)
  split
  · exact (prompt_pure ()).mono (Nat.zero_le 2)
  · refine prompt_step (prompt_poll _) (fun completion => ?_)
    split
    · exact (prompt_pure ()).mono (Nat.zero_le 1)
    · exact prompt_free (prompt_modifyRun _) (fun _ => prompt_reportCompletion _ _)

theorem prompt_recvOutputTimeout (site : OutputSite) (timeout : Duration) :
    Prompt 1 (recvOutputTimeout site timeout) := by
  unfold recvOutputTimeout
  refine prompt_free prompt_get (fun s => prompt_step prompt_ask (fun _ => prompt_free prompt_get (fun s' => ?_)))
  split
  · refine prompt_free (prompt_modify (fun _ => rfl) (fun _ => Nat.le_refl _)) (fun _ => ?_)
    exact prompt_free (prompt_emit _) (fun _ => prompt_pure _)
  · split
    · exact prompt_free (prompt_modify (fun _ => rfl) (fun _ => Nat.le_max_left _ _)) (fun _ => prompt_pure _)
    · exact prompt_pure _

theorem prompt_drainTurn (sup : Supervisor) (deadline : Instant) : Prompt 2 (drainTurn sup deadline) := by
  unfold drainTurn
  refine prompt_step (prompt_recvOutputTimeout _ _) (fun r => ?_)
  cases r with
  | item line => exact prompt_step (prompt_recordOutput sup line) (fun _ => prompt_pure _)
  | timeout => exact prompt_step prompt_now (fun _ => prompt_pure _)
  | disconnected => exact (prompt_pure _).mono (Nat.zero_le 1)

end Supervisor
end Jss
