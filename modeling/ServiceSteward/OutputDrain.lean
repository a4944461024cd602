import ServiceSteward.Onward
import ServiceSteward.Schedule
/-!
# OutputDrain — the output of a JVM that has exited

`drain_remaining_output` compares the clock with its deadline only where a receive timed out.  A receive that returns a
line is followed by another one however late it is, so another process that keeps writing to the JVM's output keeps
the supervisor there (`flooded_never_ends`).  It ends in time exactly where no line waits for the first receive after
the deadline; then everything ends that drains the output once the JVM has exited (`exit_path_ends_iff`).
-/
namespace Jss
namespace Supervisor

open Scripted

/-- How long the output is drained. -/
def drainTime : Duration := Duration.fromSecs 1

/-- The next record is written. -/
def Records (s : Sys) : Prop := ∃ answer rest, s.script = answer :: rest ∧ answer.failure = none

/-- A line is in the channel when the next receive looks, and is recorded. -/
def LineWaits (s : Sys) : Prop := ∃ answer t, ask s = .ok answer t ∧ t.output ≠ [] ∧ Records t

/-- The drain begins another receive, in `t`. -/
def Receives (sup : Supervisor) (deadline : Instant) (s t : Sys) : Prop :=
  Iterated (fun _ => drainTurn sup deadline) () s () t

/-- **The claim** for a drain: of the receives that begin at its deadline or later, the first is the last. -/
def OneMoreReceive (sup : Supervisor) (s : Sys) : Prop :=
  ∀ started t u v, now s = .ok started t → Receives sup (started + drainTime) t u → started + drainTime ≤ u.clock →
    drainTurn sup (started + drainTime) u ≠ .ok (.inl ()) v

/-- No line waits for a receive that begins at the deadline or later. -/
def QuietAtDeadline (sup : Supervisor) (s : Sys) : Prop :=
  ∀ started t u, now s = .ok started t → Receives sup (started + drainTime) t u → started + drainTime ≤ u.clock →
    ¬ LineWaits u

/-- **What drains the output once the JVM has exited**, with what it does until it has seen that. -/
inductive ExitPath (sup : Supervisor) : ∀ {α : Type}, Run α → Run (Option (Option Int)) → Prop
  | drain : ExitPath sup (drainRemainingOutput sup) (return some none)
  | shutdown (exitCode : Int) : ExitPath sup (shutdownAndDrain sup exitCode) (tryWait .shutdown)
  | wait (timeout : Duration) : ExitPath sup (waitForExit sup timeout) (do
      let _ ← now
      tryWait .waiting)
  /-- The rest of the loop of `wait_for_exit`, for a JVM that exits while it is waited for. -/
  | waiting (deadline : Instant) :
      ExitPath sup (repeatFrom () (fun _ => waitTurn sup deadline)) (tryWait .waiting)
  | tick : ExitPath sup (tick sup) (do
      pollHeapDump
      tryWait .tick)

/-- A property of the state in which the drain begins. -/
def AtDrain (P : Sys → Prop) (seen : Run (Option (Option Int))) (s : Sys) : Prop :=
  ∀ exitCode t, seen s = .ok (some exitCode) t → P t

/-! ## One receive -/

theorem ask_takes (s : Sys) : (ask s).All (fun answer t => s.clock ≤ t.clock ∧ ∃ rest, s.script = answer :: rest)
    (fun _ _ => False) (fun _ => s.script = []) := by
  refine ((ask_onward s).and (ask s).all_eq).mono (fun answer t ht => ⟨ht.1.1.clock, ?_⟩) (fun _ _ h => h.1) ?_
  · have heq := ht.2
    unfold ask at heq
    cases hs : s.script with
    | nil =>
      rw [hs] at heq
      cases heq
    | cons a rest =>
      rw [hs] at heq
      cases heq
      exact ⟨rest, rfl⟩
  · rintro t ⟨-, heq⟩
    unfold ask at heq
    cases hs : s.script with
    | nil => rfl
    | cons a rest =>
      rw [hs] at heq
      cases heq

theorem records_cons {s : Sys} {answer : Answer} {rest : List Answer} (h : s.script = answer :: rest) :
    Records s ↔ answer.failure = none := by
  unfold Records
  simp [h]

theorem records_nil {s : Sys} (h : s.script = []) : ¬ Records s := by
  unfold Records
  simp [h]

/-- Writing a record fails with the answer. -/
theorem logMessage_records (level : LogLevel) (source : LogSource) (message : Message) (s : Sys) :
    (logMessage level source message s).All (fun _ _ => Records s) (fun _ _ => ¬ Records s) (fun _ => ¬ Records s) := by
  unfold logMessage
  rw [all_bind]
  refine (ask_takes s).mono (fun answer t ht => ?_) (fun _ _ h => h.elim) (fun _ h => records_nil h)
  obtain ⟨-, rest, hs⟩ := ht
  rw [records_cons hs]
  cases hf : answer.failure with
  | none => rfl
  | some e => exact Option.some_ne_none e

theorem all_publishMatches {Q : Unit → Sys → Prop} {E : Error → Sys → Prop} {B : Sys → Prop} (h : ∀ t, Q () t) :
    ∀ (found : List FilterMatch) (s : Sys), (publishMatches found s).All Q E B
  | [], s => h s
  | _ :: rest, _ => all_publishMatches h rest _

theorem recordOutput_records (sup : Supervisor) (line : Bytes) (s : Sys) :
    (recordOutput sup line s).All (fun _ _ => Records s) (fun _ _ => ¬ Records s) (fun _ => ¬ Records s) := by
  unfold recordOutput getRun
  rw [all_bind, all_bind, all_get, all_pure, all_bind]
  refine (logMessage_records _ _ _ s).mono (fun _ t ht => ?_) (fun _ _ h => h) (fun _ h => h)
  rw [all_bind]
  unfold emit
  rw [all_modify, all_bind]
  exact all_publishMatches (fun _ => ht) _ _

/-- **A late receive** is followed by another one just if a line waits for it. -/
theorem drainTurn_late (sup : Supervisor) {deadline : Instant} {s : Sys} (hlate : deadline ≤ s.clock) :
    (drainTurn sup deadline s).All (fun r _ => r = .inl () ↔ LineWaits s) (fun _ _ => ¬ LineWaits s)
      (fun _ => ¬ LineWaits s) := by
  unfold drainTurn recvOutputTimeout
  rw [all_bind, all_bind, all_get, all_bind]
  refine ((ask_takes s).and (ask s).all_eq).mono (fun answer t ht => ?_) (fun _ _ h => h.1.elim) (fun t ht => ?_)
  · obtain ⟨⟨hclock, -⟩, hask⟩ := ht
    have hwaits : LineWaits s ↔ t.output ≠ [] ∧ Records t := by
      refine ⟨?_, fun h => ⟨answer, t, hask, h⟩⟩
      rintro ⟨answer', u, h, hu⟩
      rw [hask] at h
      cases h
      exact hu
    rw [hwaits, all_bind, all_get]
    cases hout : t.output with
    | cons line rest =>
      simp only
      rw [all_bind, all_modify, all_bind]
      unfold emit
      rw [all_modify, all_pure, all_bind]
      refine (recordOutput_records sup line _).mono (fun _ u hu => ?_) (fun _ u hu => ?_) (fun u hu => ?_)
      · exact ⟨fun _ => ⟨List.cons_ne_nil _ _, hu⟩, fun _ => rfl⟩
      · exact fun h => hu h.2
      · exact fun h => hu h.2
    | nil =>
      have hnone : ¬ (([] : List Bytes) ≠ [] ∧ Records t) := fun h => h.1 rfl
      by_cases hopen : t.outputOpen = true
      · simp only [hopen, if_true]
        rw [all_bind, all_modify, all_pure, all_bind]
        refine (now_onward _).mono (fun now u hu => ?_) (fun _ _ h => h.elim) (fun _ _ => hnone)
        have hpast : deadline ≤ now := by
          rw [← hu.2.2]
          exact (hlate.trans hclock).trans ((Nat.le_max_left _ _).trans hu.1.clock)
        rw [if_pos hpast]
        exact iff_of_false (by simp) hnone
      · simp only [hopen]
        exact iff_of_false (by simp) hnone
  · rintro ⟨answer, u, h, -⟩
    rw [ht.2] at h
    cases h

/-- **A drain is in time just if it is quiet at its deadline.** -/
theorem oneMoreReceive_iff (sup : Supervisor) (s : Sys) : OneMoreReceive sup s ↔ QuietAtDeadline sup s := by
  constructor
  · intro h started t u hnow hreceives hlate hwaits
    have hturn := (drainTurn_late sup hlate).and (drainTurn sup (started + drainTime) u).all_eq
    cases hr : drainTurn sup (started + drainTime) u with
    | ok r v =>
      rw [hr] at hturn
      have hnext : r = .inl () := hturn.1.2 hwaits
      subst hnext
      exact h started t u v hnow hreceives hlate hr
    | err e v =>
      rw [hr] at hturn
      exact hturn.1 hwaits
    | blocked v =>
      rw [hr] at hturn
      exact hturn.1 hwaits
  · intro h started t u v hnow hreceives hlate hturn
    have hwaits := drainTurn_late sup hlate
    rw [hturn] at hwaits
    exact h started t u hnow hreceives hlate (hwaits.1 rfl)

/-! ## How long it takes -/

/-- All but `m` of the answers are used up before the drain is over. -/
def Short (m : Nat) (script : List Answer) : Prop := ∃ j, script.length ≤ j + m ∧ spent (script.take j) < drainTime

/-- ... after at most `k` of them. -/
def ShortAfter (k m : Nat) (script : List Answer) : Prop := ∃ i ≤ k, Short m (script.drop i)

theorem Short.mono {m m' : Nat} {script : List Answer} (h : Short m script) (hm : m ≤ m') : Short m' script := by
  obtain ⟨j, hlen, hspent⟩ := h
  exact ⟨j, by omega, hspent⟩

theorem ShortAfter.mono {k k' m m' : Nat} {script : List Answer} (h : ShortAfter k m script) (hk : k ≤ k')
    (hm : m ≤ m') : ShortAfter k' m' script := by
  obtain ⟨i, hi, hshort⟩ := h
  exact ⟨i, hi.trans hk, hshort.mono hm⟩

theorem shortAfter_of_length {k m : Nat} {script : List Answer} (h : script.length < k) : ShortAfter k m script := by
  refine ⟨script.length, Nat.le_of_lt h, 0, ?_, ?_⟩
  · rw [List.drop_length]
    exact Nat.zero_le _
  · rw [List.take_zero]
    decide

theorem ShortAfter.before {k i m : Nat} {s t : Sys} (htook : Took k s t) (h : ShortAfter i m t.script) :
    ShortAfter (k + i) m s.script := by
  obtain ⟨j, hj, -, ht, -⟩ := htook
  obtain ⟨i', hi, hshort⟩ := h
  rw [ht, List.drop_drop] at hshort
  exact ⟨j + i', Nat.add_le_add hj hi, hshort⟩

/-- **Time goes on**: enough answers of a schedule are not short. -/
theorem Schedule.enough (σ : Schedule) (k m : Nat) : ∃ n, ¬ ShortAfter k m (σ.take n) := by
  obtain ⟨n, hn⟩ := σ.goesOn (spent (σ.take k) + drainTime)
  refine ⟨n + k + m, ?_⟩
  rintro ⟨i, hi, j, hlen, hspent⟩
  rw [List.length_drop, σ.length_take] at hlen
  have hmore : spent (σ.take n) ≤ spent ((σ.take (n + k + m)).take (i + j)) := by
    rw [← σ.take_take (by omega : n ≤ n + k + m)]
    exact spent_take_mono _ (by omega)
  have hfirst : spent ((σ.take (n + k + m)).take i) ≤ spent (σ.take k) := by
    rw [← σ.take_take (by omega : k ≤ n + k + m)]
    exact spent_take_mono _ hi
  rw [spent_take_add] at hmore
  have hall : spent (σ.take k) + drainTime ≤ spent (σ.take n) := hn
  exact absurd (hall.trans (hmore.trans (Nat.add_le_add_right hfirst _)))
    (Nat.not_le.2 (Nat.add_lt_add_left hspent _))

theorem recvOutputTimeout_takes (site : OutputSite) (timeout : Duration) (s : Sys) :
    (recvOutputTimeout site timeout s).All (fun _ t => t.script.length < s.script.length) (fun _ _ => True)
      (fun _ => True) := by
  unfold recvOutputTimeout
  rw [all_bind, all_get, all_bind]
  refine (ask_onward s).mono (fun answer t ht => ?_) (fun _ _ h => h.elim) (fun _ _ => trivial)
  rw [all_bind, all_get]
  cases hout : t.output with
  | cons line rest => exact ht.2
  | nil =>
    by_cases hopen : t.outputOpen = true
    · simp only [hopen, if_true]
      exact ht.2
    · simp only [hopen]
      exact ht.2

theorem drainTurn_takes (sup : Supervisor) (deadline : Instant) (s : Sys) :
    (drainTurn sup deadline s).All (fun _ t => t.script.length < s.script.length) (fun _ _ => True)
      (fun _ => True) := by
  unfold drainTurn
  rw [all_bind]
  refine (recvOutputTimeout_takes _ _ s).mono (fun r t ht => ?_) (fun _ _ h => h) (fun _ h => h)
  have hrest : ∀ p : Run (Unit ⊕ Unit), Keeps Onward p →
      (p t).All (fun _ u => u.script.length < s.script.length) (fun _ _ => True) (fun _ => True) := fun p hp =>
    (hp t).mono (fun _ u hu => Nat.lt_of_le_of_lt hu.script ht) (fun _ _ _ => trivial) (fun _ _ => trivial)
  cases r with
  | item line => exact hrest _ (keeps_bind (keeps_recordOutput sup line) (fun _ => keeps_pure _))
  | timeout => exact hrest _ (keeps_bind keeps_now (fun _ => keeps_pure _))
  | disconnected => exact hrest _ (keeps_pure _)

/-- A receive that begins at the deadline or later comes at most two answers after one that did not. -/
def Lately (deadline : Instant) (s t : Sys) : Prop :=
  ∃ k u, Took k s u ∧ u.clock < deadline ∧ u.script.length ≤ t.script.length + 2

theorem Lately.short {s t : Sys} {m : Nat} (h : Lately (s.clock + drainTime) s t) (hm : t.script.length + 2 ≤ m) :
    Short m s.script := by
  obtain ⟨k, u, ⟨j, -, hlen, hu, hclock⟩, hbefore, hlen'⟩ := h
  rw [hu, List.length_drop] at hlen'
  exact ⟨j, by omega, Nat.lt_of_add_lt_add_left (Nat.lt_of_le_of_lt hclock hbefore)⟩

/-- The loop of a quiet drain, from one of its receives on. -/
theorem drain_loop {sup : Supervisor} {v : Sys}
    (hquiet : ∀ u, Receives sup (v.clock + drainTime) v u → v.clock + drainTime ≤ u.clock → ¬ LineWaits u) :
    ∀ (n : Nat) (w : Sys), Receives sup (v.clock + drainTime) v w → (∃ k, Took k v w) →
      Lately (v.clock + drainTime) v w → w.script.length < n →
      (Prog.iterate (fun _ => drainTurn sup (v.clock + drainTime)) n () w).All
        (fun _ t => Short (t.script.length + 4) v.script) (fun _ _ => True) (fun _ => Short 3 v.script)
  | 0, w, _, _, _, hn => by omega
  | n + 1, w, hw, ⟨k, htook⟩, hlately, hn => by
    rw [Prog.iterate, all_bind]
    have hturn := ((prompt_drainTurn sup (v.clock + drainTime) w).and (drainTurn_takes sup (v.clock + drainTime) w)).and
      (drainTurn sup (v.clock + drainTime) w).all_eq
    refine hturn.mono (fun r t ht => ?_) (fun _ _ _ => trivial) (fun t ht => ?_)
    · obtain ⟨⟨htook', hless⟩, heq⟩ := ht
      have hlen := htook'.length
      cases r with
      | inl _ =>
        have hearly : w.clock < v.clock + drainTime := by
          by_contra hlate
          have hwaits := drainTurn_late sup (Nat.le_of_not_lt hlate)
          rw [heq] at hwaits
          exact hquiet w hw (Nat.le_of_not_lt hlate) (hwaits.1 rfl)
        exact drain_loop hquiet n t (.turn hw heq) ⟨k + 2, htook.trans htook'⟩ ⟨k, w, htook, hearly, hlen⟩ (by omega)
      | inr _ => exact hlately.short (by omega)
    · exact hlately.short (by have := ht.1.1; omega)

/-- **A quiet drain** is over with its second, but for four answers. -/
theorem drain_ends {sup : Supervisor} {s : Sys} (hquiet : QuietAtDeadline sup s) :
    (drainRemainingOutput sup s).All (fun _ t => ShortAfter 1 (t.script.length + 4) s.script) (fun _ _ => True)
      (fun _ => ShortAfter 1 3 s.script) := by
  unfold drainRemainingOutput
  rw [all_bind]
  refine (((prompt_now s).and (now_onward s)).and (now s).all_eq).mono (fun started v hv => ?_) (fun _ _ _ => trivial)
    (fun _ h => shortAfter_of_length h.1.1)
  obtain ⟨⟨htook, -, -, hclock⟩, hnow⟩ := hv
  subst hclock
  have hloop := drain_loop (fun u hu hlate => hquiet v.clock v u hnow hu hlate) (v.script.length + 1) v .start
    ⟨0, took_refl 0 v⟩ ⟨0, v, took_refl 0 v, Nat.lt_add_of_pos_right (by decide), Nat.le_add_right _ _⟩
    (Nat.lt_succ_self _)
  have hbefore : ∀ {m}, Short m v.script → ShortAfter 1 m s.script := fun h =>
    ShortAfter.before (i := 0) htook ⟨0, Nat.le_refl 0, h⟩
  exact hloop.mono (fun _ _ h => hbefore h) (fun _ _ h => h) (fun _ h => hbefore h)

/-! ## Once the JVM has exited -/

/-- The last child launched has exited. -/
def Exited (s : Sys) : Prop := ∃ exitCode older, s.children = .exited exitCode :: older

theorem exited_of_children {s t : Sys} (h : t.children = s.children) : Preserves Exited s t := by
  rintro ⟨exitCode, older, hs⟩
  exact ⟨exitCode, older, h.trans hs⟩

instance : Draining (Preserves Exited) where
  refl _ h := h
  trans _ _ _ h h' hs := h' (h hs)
  same _ h _ _ := exited_of_children h
  move s m := by
    cases m with
    | exit code =>
      rintro ⟨exitCode, older, hs⟩
      simp only [Sys.move, hs]
      exact ⟨exitCode, older, hs⟩
    | deliver event => simp only [Sys.move]; split <;> exact exited_of_children rfl
    | output line => simp only [Sys.move]; split <;> exact exited_of_children rfl
    | dumped worker result => simp only [Sys.move]; split <;> exact exited_of_children rfl
    | _ => exact exited_of_children rfl
  note _ _ _ := exited_of_children rfl
  drop _ _ _ := exited_of_children rfl
  reap _ older _ _ := ⟨some 1, older, rfl⟩
  took _ _ _ _ _ := exited_of_children rfl
  recorded _ _ := exited_of_children rfl

theorem tryWait_exited (site : WaitSite) {s : Sys} (hs : Exited s) :
    (tryWait site s).All (fun r t => r ≠ none ∧ Exited t) (fun _ _ => True) (fun _ => True) := by
  unfold tryWait
  rw [all_bind]
  refine (keeps_attemptOutside (R := Preserves Exited) s).mono (fun _ t ht => ?_) (fun _ _ _ => trivial)
    (fun _ _ => trivial)
  obtain ⟨exitCode, older, hchildren⟩ := ht hs
  rw [all_bind, all_get]
  simp only [hchildren]
  exact ⟨Option.some_ne_none _, exitCode, older, hchildren⟩

/-- A program that ends unless its answers run out in the first second of the drain, but for six. -/
def EndsSoon {α : Type} (k : Nat) (p : Run α) (s : Sys) : Prop :=
  (p s).All (fun _ _ => True) (fun _ _ => True) (fun _ => ShortAfter k 6 s.script)

/-- What drains the output as soon as it has seen that the JVM has exited. -/
theorem ends_of_seen {sup : Supervisor} {α : Type} {k : Nat} {seen : Run (Option (Option Int))}
    {f : Option (Option Int) → Run α} {g : Option Int → Run α} {s : Sys} (hseen : Prompt k seen)
    (hexit : (seen s).All (fun r _ => r ≠ none) (fun _ _ => True) (fun _ => True))
    (hquiet : AtDrain (QuietAtDeadline sup) seen s)
    (hf : ∀ exitCode, f (some exitCode) = drainRemainingOutput sup >>= fun _ => g exitCode)
    (hg : ∀ exitCode, Prompt 2 (g exitCode)) : EndsSoon (k + 1) (seen >>= f) s := by
  unfold EndsSoon
  rw [all_bind]
  refine (((hseen s).and hexit).and (seen s).all_eq).mono (fun r t ht => ?_) (fun _ _ _ => trivial)
    (fun _ h => (shortAfter_of_length h.1.1).mono (Nat.le_succ k) (Nat.le_refl 6))
  obtain ⟨⟨htook, hr⟩, heq⟩ := ht
  cases r with
  | none => exact absurd rfl hr
  | some exitCode =>
    rw [hf, all_bind]
    refine (drain_ends (hquiet exitCode t heq)).mono (fun _ u hu => ?_) (fun _ _ h => h)
      (fun _ hu => (hu.mono (Nat.le_refl 1) (by omega)).before htook)
    refine (hg exitCode u).mono (fun _ _ _ => trivial) (fun _ _ h => h) (fun _ hlen => ?_)
    exact (hu.mono (Nat.le_refl 1) (by omega)).before htook

theorem EndsSoon.mono {α : Type} {k k' : Nat} {p : Run α} {s : Sys} (h : EndsSoon k p s) (hk : k ≤ k') :
    EndsSoon k' p s :=
  Outcome.All.mono h (fun _ _ h => h) (fun _ _ h => h) (fun _ h => ShortAfter.mono h hk (Nat.le_refl 6))

theorem sees_exit {site : WaitSite} {s : Sys} (hs : Exited s) :
    (tryWait site s).All (fun r _ => r ≠ none) (fun _ _ => True) (fun _ => True) :=
  (tryWait_exited site hs).mono (fun _ _ h => h.1) (fun _ _ h => h) (fun _ h => h)

/-- The loop of `wait_for_exit` looks at the child first. -/
theorem waiting_ends {sup : Supervisor} (deadline : Instant) {s : Sys} (hs : Exited s)
    (hquiet : AtDrain (QuietAtDeadline sup) (tryWait .waiting) s) :
    EndsSoon 2 (repeatFrom () (fun _ => waitTurn sup deadline)) s := by
  show EndsSoon 2 (Prog.iterate (fun _ => waitTurn sup deadline) (s.script.length + 1) ()) s
  rw [Prog.iterate]
  unfold waitTurn
  rw [bind_assoc]
  exact ends_of_seen (g := fun _ => return true) (prompt_tryWait .waiting) (sees_exit hs) hquiet
    (fun _ => by rw [bind_assoc]; rfl) (fun _ => (prompt_pure _).mono (Nat.zero_le 2))

theorem shutdown_ends {sup : Supervisor} (exitCode : Int) {s : Sys} (hs : Exited s)
    (hquiet : AtDrain (QuietAtDeadline sup) (tryWait .shutdown) s) : EndsSoon 2 (shutdownAndDrain sup exitCode) s := by
  unfold shutdownAndDrain
  exact ends_of_seen (g := fun _ => return ()) (prompt_tryWait .shutdown) (sees_exit hs) hquiet
    (fun _ => (bind_pure _).symm) (fun _ => (prompt_pure _).mono (Nat.zero_le 2))

theorem tick_ends {sup : Supervisor} {s : Sys} (hs : Exited s)
    (hquiet : AtDrain (QuietAtDeadline sup) (pollHeapDump >>= fun _ => tryWait .tick) s) : EndsSoon 4 (tick sup) s := by
  have hsees : ((pollHeapDump >>= fun _ => tryWait .tick) s).All (fun r _ => r ≠ none) (fun _ _ => True)
      (fun _ => True) := by
    rw [all_bind]
    exact (keeps_pollHeapDump (R := Preserves Exited) s).mono (fun _ t ht => sees_exit (ht hs)) (fun _ _ _ => trivial)
      (fun _ _ => trivial)
  unfold tick
  rw [← bind_assoc]
  refine ends_of_seen (g := fun exitCode => logJvmExit exitCode >>= fun _ => elapsed >>= fun time =>
    return some (.exited time (exitCode.getD 1))) ?_ hsees hquiet (fun exitCode => ?_) (fun exitCode => ?_)
  · exact prompt_bind prompt_pollHeapDump (fun _ => prompt_tryWait .tick)
  · unfold exitSeen
    simp only [bind_assoc, pure_bind]
  · exact prompt_step (prompt_logJvmExit _) (fun _ => prompt_step prompt_elapsed (fun _ => prompt_pure _))

/-- **Every path ends soon** if its drain is quiet. -/
theorem exitPath_ends {sup : Supervisor} {α : Type} {p : Run α} {seen : Run (Option (Option Int))}
    (hpath : ExitPath sup p seen) {s : Sys} (hs : Exited s) (hquiet : AtDrain (QuietAtDeadline sup) seen s) :
    EndsSoon 5 p s := by
  cases hpath with
  | drain =>
    have hends : EndsSoon 1 ((return some none) >>= fun _ => drainRemainingOutput sup) s :=
      ends_of_seen (g := fun _ => return ()) (prompt_pure _) (Option.some_ne_none _) hquiet
        (fun _ => (bind_pure _).symm) (fun _ => (prompt_pure _).mono (Nat.zero_le 2))
    exact EndsSoon.mono hends (by omega)
  | shutdown exitCode => exact (shutdown_ends exitCode hs hquiet).mono (by omega)
  | wait timeout =>
    unfold EndsSoon waitForExit
    rw [all_bind]
    refine (((prompt_now s).and (keeps_now (R := Preserves Exited) s)).and (now s).all_eq).mono (fun started t ht => ?_)
      (fun _ _ _ => trivial) (fun _ h => (shortAfter_of_length h.1.1).mono (by omega) (Nat.le_refl 6))
    obtain ⟨⟨htook, hexited⟩, hnow⟩ := ht
    have hafter : AtDrain (QuietAtDeadline sup) (tryWait .waiting) t := fun exitCode u hu =>
      hquiet exitCode u (by simp only [Bind.bind, hnow]; exact hu)
    exact Outcome.All.mono (waiting_ends _ (hexited hs) hafter) (fun _ _ h => h) (fun _ _ h => h)
      (fun _ h => (ShortAfter.before htook h).mono (by omega) (Nat.le_refl 6))
  | waiting deadline => exact (waiting_ends deadline hs hquiet).mono (by omega)
  | tick => exact (tick_ends hs hquiet).mono (by omega)

theorem finishes_of_quiet {sup : Supervisor} {α : Type} {p : Run α} {seen : Run (Option (Option Int))}
    (hpath : ExitPath sup p seen) {s : Sys} {σ : Schedule} (hs : Exited s)
    (hquiet : ∀ n, AtDrain (QuietAtDeadline sup) seen (s.on (σ.take n))) : Finishes p s σ := by
  obtain ⟨n, hn⟩ := σ.enough 5 6
  have hends : EndsSoon 5 p (s.on (σ.take n)) := exitPath_ends hpath hs (hquiet n)
  exact ⟨n, Outcome.All.mono hends (fun _ _ h => h) (fun _ _ h => h) (fun _ h => hn h)⟩

theorem atDrain_iff {P P' : Sys → Prop} (h : ∀ s, P s ↔ P' s) (seen : Run (Option (Option Int))) (s : Sys) :
    AtDrain P seen s ↔ AtDrain P' seen s :=
  ⟨fun hP exitCode t ht => (h t).1 (hP exitCode t ht), fun hP exitCode t ht => (h t).2 (hP exitCode t ht)⟩

/-- **All that drains the output of a JVM that has exited ends**, and makes at most one receive after the deadline of
its drain, exactly where no line waits for that receive or the line cannot be recorded. -/
theorem exit_path_ends_iff {sup : Supervisor} {α : Type} {p : Run α} {seen : Run (Option (Option Int))}
    (hpath : ExitPath sup p seen) {s : Sys} (σ : Schedule) (hs : Exited s) :
    (Finishes p s σ ∧ ∀ n, AtDrain (OneMoreReceive sup) seen (s.on (σ.take n))) ↔
      ∀ n, AtDrain (QuietAtDeadline sup) seen (s.on (σ.take n)) := by
  have hdrain : ∀ n, AtDrain (OneMoreReceive sup) seen (s.on (σ.take n)) ↔
      AtDrain (QuietAtDeadline sup) seen (s.on (σ.take n)) := fun n => atDrain_iff (oneMoreReceive_iff sup) seen _
  constructor
  · rintro ⟨-, htime⟩ n
    exact (hdrain n).1 (htime n)
  · intro hquiet
    exact ⟨finishes_of_quiet hpath hs hquiet, fun n => (hdrain n).2 (hquiet n)⟩

/-! ## Lines without end -/

/-- The output is open, and every answer brings a line, and no failure. -/
structure Flooded (s : Sys) : Prop where
  outputOpen : s.outputOpen = true
  lines : ∀ answer ∈ s.script, answer.failure = none ∧
    ∀ t : Sys, t.outputOpen = true → (answer.moves.foldl Sys.move t).outputOpen = true ∧
      (answer.moves.foldl Sys.move t).output ≠ []

/-- A program that ends in such a state, or runs out of answers. -/
def Flooding {α : Type} (p : Run α) : Prop :=
  ∀ s, Flooded s → (p s).All (fun _ => Flooded) (fun _ _ => False) (fun _ => True)

theorem flooding_pure {α : Type} (a : α) : Flooding (pure a : Run α) := fun _ h => h

theorem flooding_bind {α β : Type} {p : Run α} {f : α → Run β} (hp : Flooding p) (hf : ∀ a, Flooding (f a)) :
    Flooding (p >>= f) := by
  intro s hs
  rw [all_bind]
  exact (hp s hs).mono (fun a t ht => hf a t ht) (fun _ _ h => h) (fun _ h => h)

theorem flooding_get : Flooding Prog.get := fun _ h => h

theorem flooding_modify {f : Sys → Sys} (h : ∀ s, (f s).outputOpen = s.outputOpen)
    (h' : ∀ s, (f s).script = s.script) : Flooding (Prog.modify f) := by
  refine fun s hs => ⟨(h s).trans hs.outputOpen, fun answer hmem => hs.lines answer ?_⟩
  rw [← h' s]
  exact hmem

theorem flooding_emit (o : Obs) : Flooding (emit o) := flooding_modify (fun _ => rfl) (fun _ => rfl)

theorem ask_flooded {s : Sys} (hs : Flooded s) :
    (ask s).All (fun answer t => answer.failure = none ∧ t.output ≠ [] ∧ Flooded t) (fun _ _ => False)
      (fun _ => True) := by
  unfold ask
  cases hscript : s.script with
  | nil => trivial
  | cons answer rest =>
    have hlines := fun a ha => hs.lines a (by rw [hscript]; exact ha)
    obtain ⟨hfailure, hline⟩ := hlines answer List.mem_cons_self
    obtain ⟨hopen, houtput⟩ := hline { s with script := rest } hs.outputOpen
    refine ⟨hfailure, houtput, hopen, fun a ha => hlines a ?_⟩
    rw [moves_script] at ha
    exact List.mem_cons_of_mem answer ha

theorem flooding_ask : Flooding ask := fun _ hs =>
  (ask_flooded hs).mono (fun _ _ h => h.2.2) (fun _ _ h => h) (fun _ h => h)

theorem flooding_attemptOutside : Flooding attemptOutside := by
  intro s hs
  unfold attemptOutside
  rw [all_bind]
  refine (ask_flooded hs).mono (fun answer t ht => ?_) (fun _ _ h => h) (fun _ h => h)
  rw [ht.1]
  exact ht.2.2

theorem flooding_logMessage (level : LogLevel) (source : LogSource) (message : Message) :
    Flooding (logMessage level source message) := by
  intro s hs
  unfold logMessage
  rw [all_bind]
  refine (ask_flooded hs).mono (fun answer t ht => ?_) (fun _ _ h => h) (fun _ h => h)
  rw [ht.1]
  exact flooding_emit _ t ht.2.2

theorem flooding_now : Flooding now :=
  flooding_bind flooding_ask (fun _ => flooding_bind flooding_get (fun _ => flooding_pure _))

theorem flooding_tryWait (site : WaitSite) : Flooding (tryWait site) := by
  unfold tryWait
  refine flooding_bind flooding_attemptOutside (fun _ => flooding_bind flooding_get (fun s => ?_))
  exact flooding_bind (flooding_emit _) (fun _ => flooding_pure _)

theorem flooding_publishMatches : ∀ found : List FilterMatch, Flooding (publishMatches found)
  | [] => flooding_pure ()
  | _ :: rest => flooding_bind (flooding_emit _) (fun _ => flooding_publishMatches rest)

theorem flooding_recordOutput (sup : Supervisor) (line : Bytes) : Flooding (recordOutput sup line) := by
  unfold recordOutput getRun
  refine flooding_bind (flooding_bind flooding_get (fun _ => flooding_pure _)) (fun run => ?_)
  refine flooding_bind (flooding_logMessage _ _ _) (fun _ => flooding_bind (flooding_emit _) (fun _ => ?_))
  exact flooding_bind (flooding_publishMatches _) (fun _ => flooding_pure _)

theorem flooding_pollHeapDump : Flooding pollHeapDump := by
  have hreport : ∀ jvmId completion, Flooding (reportCompletion jvmId completion) := by
    intro jvmId completion
    cases completion with
    | created path bytes => exact flooding_bind (flooding_logMessage _ _ _) (fun _ => flooding_emit _)
    | failed path message => exact flooding_bind (flooding_logMessage _ _ _) (fun _ => flooding_emit _)
  unfold pollHeapDump getRun
  refine flooding_bind (flooding_bind flooding_get (fun _ => flooding_pure _)) (fun run => ?_)
  split
  · exact flooding_pure ()
  · unfold Task.poll
    rw [bind_assoc]
    refine flooding_bind flooding_ask (fun _ => ?_)
    rw [bind_assoc]
    refine flooding_bind flooding_get (fun t => ?_)
    rw [pure_bind]
    split
    · exact flooding_pure ()
    · exact flooding_bind (flooding_modify (fun _ => rfl) (fun _ => rfl)) (fun _ => hreport _ _)

/-- Every receive returns a line. -/
theorem drainTurn_flooded (sup : Supervisor) (deadline : Instant) {s : Sys} (hs : Flooded s) :
    (drainTurn sup deadline s).All (fun r t => r = .inl () ∧ Flooded t) (fun _ _ => False) (fun _ => True) := by
  unfold drainTurn recvOutputTimeout
  rw [all_bind, all_bind, all_get, all_bind]
  refine (ask_flooded hs).mono (fun answer t ht => ?_) (fun _ _ h => h) (fun _ h => h)
  obtain ⟨-, houtput, hflood⟩ := ht
  rw [all_bind, all_get]
  cases hout : t.output with
  | nil => exact absurd hout houtput
  | cons line rest =>
    simp only
    rw [all_bind, all_modify, all_bind]
    unfold emit
    rw [all_modify, all_pure, all_bind]
    have hrest : Flooded ({ t with output := rest }.note (.took .drain [line])) := ⟨hflood.outputOpen, hflood.lines⟩
    exact (flooding_recordOutput sup line _ hrest).mono (fun _ u hu => ⟨rfl, hu⟩) (fun _ _ h => h) (fun _ h => h)

theorem drain_flooded (sup : Supervisor) {s : Sys} (hs : Flooded s) :
    (drainRemainingOutput sup s).All (fun _ _ => False) (fun _ _ => False) (fun _ => True) := by
  unfold drainRemainingOutput
  rw [all_bind]
  refine (flooding_now s hs).mono (fun started t ht => ?_) (fun _ _ h => h) (fun _ h => h)
  unfold repeatFrom
  refine all_iterate (I := fun _ => Flooded) (fun _ u hu => ?_) (fun _ _ _ => trivial) _ _ _ ht
  refine (drainTurn_flooded sup _ hu).mono (fun r v hv => ?_) (fun _ _ h => h) (fun _ h => h)
  obtain ⟨rfl, hv⟩ := hv
  exact hv

/-- What a path does before its drain. -/
theorem ExitPath.flooding {sup : Supervisor} {α : Type} {p : Run α} {seen : Run (Option (Option Int))}
    (hpath : ExitPath sup p seen) : Flooding seen := by
  cases hpath with
  | drain => exact flooding_pure _
  | shutdown exitCode => exact flooding_tryWait _
  | wait timeout => exact flooding_bind flooding_now (fun _ => flooding_tryWait _)
  | waiting deadline => exact flooding_tryWait _
  | tick => exact flooding_bind flooding_pollHeapDump (fun _ => flooding_tryWait _)

theorem waiting_flooded (sup : Supervisor) (deadline : Instant) {s : Sys} (hexited : Exited s) (hs : Flooded s) :
    (repeatFrom () (fun _ => waitTurn sup deadline) s).All (fun _ _ => False) (fun _ _ => False) (fun _ => True) := by
  unfold repeatFrom
  rw [Prog.iterate]
  unfold waitTurn
  rw [bind_assoc, all_bind]
  refine ((flooding_tryWait .waiting s hs).and (sees_exit hexited)).mono (fun r t ht => ?_) (fun _ _ h => h.1)
    (fun _ h => h.1)
  cases r with
  | none => exact absurd rfl ht.2
  | some exitCode =>
    simp only
    rw [bind_assoc, all_bind]
    exact (drain_flooded sup ht.1).mono (fun _ _ h => h.elim) (fun _ _ h => h) (fun _ h => h)

/-- **A path on which lines keep coming does not end.** -/
theorem flooded_never_ends {sup : Supervisor} {α : Type} {p : Run α} {seen : Run (Option (Option Int))}
    (hpath : ExitPath sup p seen) {s : Sys} (hexited : Exited s) (hs : Flooded s) :
    (p s).All (fun _ _ => False) (fun _ _ => False) (fun _ => True) := by
  cases hpath with
  | drain => exact drain_flooded sup hs
  | shutdown exitCode =>
    unfold shutdownAndDrain
    rw [all_bind]
    refine ((flooding_tryWait .shutdown s hs).and (sees_exit hexited)).mono (fun r t ht => ?_) (fun _ _ h => h.1)
      (fun _ h => h.1)
    cases r with
    | none => exact absurd rfl ht.2
    | some _ => exact drain_flooded sup ht.1
  | wait timeout =>
    unfold waitForExit
    rw [all_bind]
    refine ((flooding_now s hs).and (keeps_now (R := Preserves Exited) s)).mono (fun started t ht => ?_)
      (fun _ _ h => h.1) (fun _ h => h.1)
    exact waiting_flooded sup _ (ht.2 hexited) ht.1
  | waiting deadline => exact waiting_flooded sup deadline hexited hs
  | tick =>
    unfold tick
    rw [all_bind]
    refine ((flooding_pollHeapDump s hs).and (keeps_pollHeapDump (R := Preserves Exited) s)).mono (fun _ t ht => ?_)
      (fun _ _ h => h.1) (fun _ h => h.1)
    rw [all_bind]
    refine ((flooding_tryWait .tick t ht.1).and (sees_exit (ht.2 hexited))).mono (fun r u hu => ?_) (fun _ _ h => h.1)
      (fun _ h => h.1)
    cases r with
    | none => exact absurd rfl hu.2
    | some exitCode =>
      simp only
      unfold exitSeen
      rw [all_bind, all_bind]
      exact (drain_flooded sup hu.1).mono (fun _ _ h => h.elim) (fun _ _ h => h) (fun _ h => h)

/-- A line every ten milliseconds. -/
def flood : Schedule := .always { moves := [.elapse (Duration.fromMillis 10), .output [120]] } (by decide)

def unconfigured : Supervisor := .sample { properties := [] }

/-- The JVM has exited, and a process that it started has its output. -/
def survived : Sys := { children := [.exited (some 0)] }

theorem survived_exited (script : List Answer) : Exited (survived.on script) := ⟨some 0, [], rfl⟩

theorem survived_flooded (n : Nat) : Flooded (survived.on (flood.take n)) := by
  refine ⟨rfl, fun answer hanswer => ?_⟩
  obtain ⟨i, -, rfl⟩ := List.mem_map.1 hanswer
  refine ⟨rfl, fun t ht => ?_⟩
  simp [flood, Schedule.always, Sys.move, ht]

theorem flood_not_finishes {sup : Supervisor} {α : Type} {p : Run α} {seen : Run (Option (Option Int))}
    (hpath : ExitPath sup p seen) : ¬ Finishes p survived flood := by
  rintro ⟨n, hn⟩
  have hnever := flooded_never_ends hpath (survived_exited _) (survived_flooded n)
  cases hp : p (survived.on (flood.take n)) with
  | ok a t =>
    rw [hp] at hnever
    exact hnever
  | err e t =>
    rw [hp] at hnever
    exact hnever
  | blocked t =>
    rw [hp] at hn
    exact hn

theorem lines_wait_in_the_flood :
    ¬ ∀ n, AtDrain (QuietAtDeadline unconfigured) (tryWait .shutdown) (survived.on (flood.take n)) := fun hquiet =>
  flood_not_finishes (.shutdown 0) ((exit_path_ends_iff (.shutdown 0) flood (survived_exited [])).2 hquiet).1

/-- Lines every ten milliseconds keep the supervisor of a JVM that has exited for ever, on each of the paths. -/
theorem flood_keeps_the_supervisor :
    ¬ Finishes (drainRemainingOutput unconfigured) survived flood ∧
    ¬ (∀ n, OneMoreReceive unconfigured (survived.on (flood.take n))) ∧
    ¬ Finishes (shutdownAndDrain unconfigured 0) survived flood ∧
    ¬ Finishes (waitForExit unconfigured (Duration.fromSecs 30)) survived flood ∧
    ¬ Finishes (tick unconfigured) survived flood := by
  refine ⟨flood_not_finishes .drain, fun htime => ?_, flood_not_finishes (.shutdown 0), flood_not_finishes (.wait _),
    flood_not_finishes .tick⟩
  have hquiet : ∀ n, AtDrain (QuietAtDeadline unconfigured) (return some none) (survived.on (flood.take n)) := by
    rintro n exitCode t ⟨rfl, rfl⟩
    exact (oneMoreReceive_iff _ _).1 (htime n)
  exact flood_not_finishes .drain (finishes_of_quiet .drain (survived_exited []) hquiet)

end Supervisor
end Jss
