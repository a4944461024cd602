import Mathlib
/-!
# Monitor — properties of a trace, observation by observation

A monitor folds a state over a trace.  `Always P` says that `P` holds of every observation and the state before it, so
it grows with the trace one observation at a time (`always_concat`) and is left alone by observations that `P` does not
count (`Always.append`).
-/

/-- A state that follows a trace. -/
structure Monitor (M O : Type) where
  start : M
  step : M → O → M

namespace Monitor

variable {M O : Type} (m : Monitor M O)

def after (trace : List O) : M := trace.foldl m.step m.start

/-- Every observation satisfies `P` with the state before it. -/
def Always (P : M → O → Prop) (trace : List O) : Prop :=
  ∀ before o rest, trace = before ++ o :: rest → P (m.after before) o

@[simp] theorem after_nil : m.after [] = m.start := rfl

@[simp] theorem after_concat (trace : List O) (o : O) : m.after (trace ++ [o]) = m.step (m.after trace) o := by
  unfold after
  rw [List.foldl_append]
  rfl

/-- Observations that leave the state alone. -/
theorem after_append (trace : List O) : ∀ new : List O, (∀ o ∈ new, ∀ x, m.step x o = x) →
    m.after (trace ++ new) = m.after trace
  | [], _ => by rw [List.append_nil]
  | o :: new, h => by
    rw [List.append_cons, after_append (trace ++ [o]) new (fun o' ho' => h o' (List.mem_cons_of_mem o ho')),
      after_concat, h o List.mem_cons_self]

variable {m} {P : M → O → Prop}

theorem always_nil : m.Always P [] := by
  intro before o rest h
  cases before with
  | nil => cases h
  | cons _ _ => cases h

theorem Always.earlier {a b : List O} (h : m.Always P (a ++ b)) : m.Always P a :=
  fun before o rest heq => h before o (rest ++ b) (by rw [heq, List.append_assoc]; rfl)

theorem Always.last {trace : List O} {o : O} (h : m.Always P (trace ++ [o])) : P (m.after trace) o := h trace o [] rfl

/-- **One more observation.** -/
theorem always_concat (trace : List O) (o : O) : m.Always P (trace ++ [o]) ↔ m.Always P trace ∧ P (m.after trace) o := by
  refine ⟨fun h => ⟨h.earlier, h.last⟩, ?_⟩
  rintro ⟨htrace, ho⟩ before x rest heq
  rcases List.eq_nil_or_concat rest with rfl | ⟨rest, y, rfl⟩
  · obtain ⟨rfl, hx⟩ := List.append_inj' heq rfl
    cases hx
    exact ho
  · have hcut : trace ++ [o] = (before ++ x :: rest) ++ [y] := by
      rw [heq]
      simp
    exact htrace before x rest (List.append_inj' hcut rfl).1

/-- **Two monitors of one trace** stay related where `P` holds of every observation. -/
theorem Always.relates {N : Type} {n : Monitor N O} {R : M → N → Prop} (hstart : R m.start n.start)
    (hstep : ∀ x y o, R x y → P x o → R (m.step x o) (n.step y o)) (trace : List O) :
    m.Always P trace → R (m.after trace) (n.after trace) := by
  induction trace using List.reverseRecOn with
  | nil => exact fun _ => hstart
  | append_singleton trace o ih =>
    intro h
    obtain ⟨htrace, ho⟩ := (always_concat trace o).1 h
    rw [after_concat, after_concat]
    exact hstep _ _ o (ih htrace) ho

/-- Observations that `P` holds of in any state. -/
theorem Always.append {trace : List O} (h : m.Always P trace) : ∀ new : List O, (∀ o ∈ new, ∀ x, P x o) →
    m.Always P (trace ++ new)
  | [], _ => by rwa [List.append_nil]
  | o :: new, hnew => by
    rw [List.append_cons]
    refine Always.append ?_ new (fun o' ho' => hnew o' (List.mem_cons_of_mem o ho'))
    exact (always_concat trace o).2 ⟨h, hnew o List.mem_cons_self _⟩

theorem always_of_forall {trace : List O} (h : ∀ o ∈ trace, ∀ x, P x o) : m.Always P trace := by
  rw [← List.nil_append trace]
  exact always_nil.append trace h

/-! ## Deciding it -/

/-- `Always`, from a state on. -/
def AlwaysFrom (m : Monitor M O) (P : M → O → Prop) : M → List O → Prop
  | _, [] => True
  | x, o :: trace => P x o ∧ AlwaysFrom m P (m.step x o) trace

theorem alwaysFrom_iff : ∀ (trace : List O) (x : M), m.AlwaysFrom P x trace ↔
    ∀ before o rest, trace = before ++ o :: rest → P (before.foldl m.step x) o
  | [], x => by
    refine ⟨fun _ before o rest h => ?_, fun _ => trivial⟩
    cases before with
    | nil => cases h
    | cons _ _ => cases h
  | o :: trace, x => by
    have ih := alwaysFrom_iff trace (m.step x o)
    constructor
    · rintro ⟨ho, hrest⟩ before o' rest h
      cases before with
      | nil =>
        cases h
        exact ho
      | cons first before =>
        cases h
        exact ih.1 hrest before o' rest rfl
    · intro h
      refine ⟨h [] o trace rfl, ih.2 (fun before o' rest heq => ?_)⟩
      subst heq
      exact h (o :: before) o' rest rfl

instance decidableAlwaysFrom [∀ x o, Decidable (P x o)] : ∀ (x : M) (trace : List O),
    Decidable (m.AlwaysFrom P x trace)
  | _, [] => isTrue trivial
  | x, o :: trace =>
    have := decidableAlwaysFrom (m.step x o) trace
    inferInstanceAs (Decidable (P x o ∧ m.AlwaysFrom P (m.step x o) trace))

instance [∀ x o, Decidable (P x o)] (trace : List O) : Decidable (m.Always P trace) :=
  decidable_of_iff _ (alwaysFrom_iff trace m.start)

end Monitor
