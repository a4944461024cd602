import Mathlib
/-!
# Interleaving — threads that share a state

A thread is what it still has to do.  `act` is the next atomic step of a thread, with what its surroundings answer, or
`none` where it has to wait; a step may start further threads.  A run is any list of choices of a thread and an answer,
so it is any interleaving.

`Proves` is the rule for safety: an assertion of each thread that its own steps carry on and that no step of another
thread destroys, beside one on the shared state, where the surroundings answer as assumed.  `Conserves` is the rule of
tokens: where no step makes more of them than it takes, there are never more than there were.
-/
namespace Interleaving

variable {σ τ ε : Type}

structure Machine (σ τ ε : Type) where
  act : σ → Nat → τ → ε → Option (σ × τ × List τ)

structure Threads (σ τ : Type) where
  shared : σ
  tasks : List τ

namespace Machine

variable (m : Machine σ τ ε)

/-- A choice that cannot be made changes nothing. -/
def step (c : Threads σ τ) (choice : Nat × ε) : Threads σ τ :=
  match c.tasks[choice.1]? with
  | none => c
  | some t =>
    match m.act c.shared choice.1 t choice.2 with
    | none => c
    | some (s, t', started) => ⟨s, c.tasks.set choice.1 t' ++ started⟩

def run (c : Threads σ τ) (choices : List (Nat × ε)) : Threads σ τ := choices.foldl m.step c

/-- **What one step can do.** -/
theorem step_cases (c : Threads σ τ) (choice : Nat × ε) :
    m.step c choice = c ∨ ∃ t s t' started, c.tasks[choice.1]? = some t ∧
      m.act c.shared choice.1 t choice.2 = some (s, t', started) ∧
      m.step c choice = ⟨s, c.tasks.set choice.1 t' ++ started⟩ := by
  unfold step
  cases ht : c.tasks[choice.1]? with
  | none => exact .inl rfl
  | some t =>
    dsimp only
    cases ha : m.act c.shared choice.1 t choice.2 with
    | none => exact .inl rfl
    | some r =>
      obtain ⟨s, t', started⟩ := r
      exact .inr ⟨t, s, t', started, rfl, ha, rfl⟩

/-- What every step keeps, every run keeps. -/
theorem run_induction {P : Threads σ τ → Prop} (h : ∀ c choice, P c → P (m.step c choice)) :
    ∀ (choices : List (Nat × ε)) {c : Threads σ τ}, P c → P (m.run c choices)
  | [], _, hc => hc
  | choice :: choices, c, hc => run_induction h choices (h c choice hc)

/-! ## Assertions -/

/-- **A proof of safety**: `G` of the shared state, and `L` of each thread, from answers in `A`. -/
structure Proves (A : ε → Prop) (G : σ → Prop) (L : σ → Nat → τ → Prop) : Prop where
  shared : ∀ {s i t e s' t' started}, A e → G s → L s i t → m.act s i t e = some (s', t', started) → G s'
  own : ∀ {s i t e s' t' started}, A e → G s → L s i t → m.act s i t e = some (s', t', started) → L s' i t'
  started : ∀ {s i t e s' t' started}, A e → G s → L s i t → m.act s i t e = some (s', t', started) →
    ∀ u ∈ started, ∀ j, L s' j u
  others : ∀ {s i t e s' t' started j u}, A e → G s → L s i t → L s j u → i ≠ j →
    m.act s i t e = some (s', t', started) → L s' j u

/-- The assertions hold. -/
structure Holds (G : σ → Prop) (L : σ → Nat → τ → Prop) (c : Threads σ τ) : Prop where
  shared : G c.shared
  each : ∀ i t, c.tasks[i]? = some t → L c.shared i t

variable {m} {A : ε → Prop} {G : σ → Prop} {L : σ → Nat → τ → Prop}

theorem Proves.step (h : m.Proves A G L) {c : Threads σ τ} {choice : Nat × ε} (hA : A choice.2) (hc : Holds G L c) :
    Holds G L (m.step c choice) := by
  rcases m.step_cases c choice with heq | ⟨t, s, t', started, ht, hact, heq⟩
  · rw [heq]
    exact hc
  · have hL := hc.each choice.1 t ht
    rw [heq]
    refine ⟨h.shared hA hc.shared hL hact, fun i u hu => ?_⟩
    rw [List.getElem?_append] at hu
    by_cases hi : i < (c.tasks.set choice.1 t').length
    · rw [if_pos hi] at hu
      by_cases hown : choice.1 = i
      · subst hown
        rw [List.length_set] at hi
        rw [List.getElem?_set_self hi] at hu
        cases hu
        exact h.own hA hc.shared hL hact
      · rw [List.getElem?_set_ne hown] at hu
        exact h.others hA hc.shared hL (hc.each i u hu) hown hact
    · rw [if_neg hi] at hu
      exact h.started hA hc.shared hL hact u (List.mem_of_getElem? hu) i

/-- **Safety of every run.** -/
theorem Proves.run (h : m.Proves A G L) : ∀ {choices : List (Nat × ε)} {c : Threads σ τ},
    (∀ choice ∈ choices, A choice.2) → Holds G L c → Holds G L (m.run c choices)
  | [], _, _, hc => hc
  | choice :: choices, c, hA, hc => by
    have hnext := h.step (hA choice List.mem_cons_self) hc
    have ih : Holds G L (m.run (m.step c choice) choices) :=
      Proves.run h (fun choice hm => hA choice (List.mem_cons_of_mem _ hm)) hnext
    exact ih

/-! ## Tokens -/

/-- The tokens in a state: those in its shared part (`g`) and those that its threads have (`f`). -/
def tokens (g : σ → Nat) (f : τ → Nat) (c : Threads σ τ) : Nat := g c.shared + (c.tasks.map f).sum

theorem sum_set (f : τ → Nat) : ∀ (ts : List τ) (i : Nat) (t t' : τ), ts[i]? = some t →
    ((ts.set i t').map f).sum + f t = (ts.map f).sum + f t'
  | [], _, _, _, h => by simp at h
  | u :: ts, 0, t, t', h => by
    simp only [List.getElem?_cons_zero, Option.some.injEq] at h
    subst h
    simp only [List.set_cons_zero, List.map_cons, List.sum_cons]
    omega
  | u :: ts, i + 1, t, t', h => by
    have ih := sum_set f ts i t t' (by simpa using h)
    simp only [List.set_cons_succ, List.map_cons, List.sum_cons]
    omega

/-- No step makes tokens. -/
def Conserves (m : Machine σ τ ε) (g : σ → Nat) (f : τ → Nat) : Prop :=
  ∀ s i t e s' t' started, m.act s i t e = some (s', t', started) → g s' + f t' + (started.map f).sum ≤ g s + f t

/-- **There are never more tokens than at the start.** -/
theorem Conserves.run {g : σ → Nat} {f : τ → Nat} (h : Conserves m g f) (c : Threads σ τ) (choices : List (Nat × ε)) :
    tokens g f (m.run c choices) ≤ tokens g f c := by
  refine m.run_induction (P := fun d => tokens g f d ≤ tokens g f c) (fun d choice hd => ?_) choices (Nat.le_refl _)
  rcases m.step_cases d choice with heq | ⟨t, s, t', started, ht, hact, heq⟩
  · rw [heq]
    exact hd
  · have hmade := h _ _ _ _ _ _ _ hact
    have hsum := sum_set f d.tasks choice.1 t t' ht
    rw [heq]
    unfold tokens at hd ⊢
    rw [List.map_append, List.sum_append]
    dsimp only
    omega

end Machine

end Interleaving
