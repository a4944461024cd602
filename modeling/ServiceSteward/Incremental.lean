import Mathlib
/-!
# Incremental — readers that take a stream chunk by chunk

A machine takes one item at a time, may put out one value for it, and may refuse.  `emitted` is the machine on the
bare stream: what it puts out before the first refusal.  `feed` is a call on one chunk, which hands its outputs over
only if no item of the chunk was refused; `deliver` is a reader that feeds chunk after chunk until a call refuses.

A refusing call throws its outputs away, so `deliver` depends on where the stream is cut unless a refused chunk put
out nothing.  `deliver_eq_emitted` is that condition (`Quiet`) and its consequence: the cuts do not matter.
-/
namespace Incremental

variable {σ ι ο ε : Type}

/-- One item: a new state and at most one output, or a refusal. -/
abbrev Step (σ ι ο ε : Type) := σ → ι → Except ε (σ × Option ο)

/-- The machine on a bare stream: the outputs before the first refusal, and the state or the refusal at its end. -/
def emitted (step : Step σ ι ο ε) : σ → List ι → List ο × Except ε σ
  | s, [] => ([], .ok s)
  | s, i :: is =>
    match step s i with
    | .error e => ([], .error e)
    | .ok (s', o) => (o.toList ++ (emitted step s' is).1, (emitted step s' is).2)

/-- A call on one chunk: all its outputs, or a refusal and none of them. -/
def feed (step : Step σ ι ο ε) (s : σ) (chunk : List ι) : Except ε (σ × List ο) :=
  match emitted step s chunk with
  | (_, .error e) => .error e
  | (os, .ok s') => .ok (s', os)

/-- A reader that feeds chunk after chunk until a call refuses. -/
def deliver (step : Step σ ι ο ε) : σ → List (List ι) → List ο × Except ε σ
  | s, [] => ([], .ok s)
  | s, c :: cs =>
    match feed step s c with
    | .error e => ([], .error e)
    | .ok (s', os) => (os ++ (deliver step s' cs).1, (deliver step s' cs).2)

/-- A chunk that no state both refuses and draws an output from. -/
def Quiet (step : Step σ ι ο ε) (chunk : List ι) : Prop :=
  ∀ s e, (emitted step s chunk).2 = .error e → (emitted step s chunk).1 = []

@[simp] theorem emitted_nil (step : Step σ ι ο ε) (s : σ) : emitted step s [] = ([], .ok s) := rfl

theorem emitted_cons (step : Step σ ι ο ε) (s : σ) (i : ι) (is : List ι) :
    emitted step s (i :: is) = match step s i with
      | .error e => ([], .error e)
      | .ok (s', o) => (o.toList ++ (emitted step s' is).1, (emitted step s' is).2) := rfl

/-- **The stream goes on where its first part stopped.** -/
theorem emitted_append (step : Step σ ι ο ε) : ∀ (a b : List ι) (s : σ),
    emitted step s (a ++ b) = match (emitted step s a).2 with
      | .error _ => emitted step s a
      | .ok s' => ((emitted step s a).1 ++ (emitted step s' b).1, (emitted step s' b).2)
  | [], b, s => by simp
  | i :: a, b, s => by
    rw [List.cons_append, emitted_cons, emitted_cons]
    cases hi : step s i with
    | error e => rfl
    | ok r =>
      obtain ⟨s', o⟩ := r
      simp only
      rw [emitted_append step a b s']
      cases he : (emitted step s' a).2 with
      | error e => simp only [he]
      | ok s'' => simp only [List.append_assoc]

theorem emitted_append_of_ok (step : Step σ ι ο ε) {a : List ι} {s s' : σ} {os : List ο}
    (h : emitted step s a = (os, .ok s')) (b : List ι) :
    emitted step s (a ++ b) = (os ++ (emitted step s' b).1, (emitted step s' b).2) := by
  rw [emitted_append, h]

theorem feed_of_ok (step : Step σ ι ο ε) {chunk : List ι} {s s' : σ} {os : List ο}
    (h : emitted step s chunk = (os, .ok s')) : feed step s chunk = .ok (s', os) := by
  rw [feed, h]

theorem emitted_of_feed (step : Step σ ι ο ε) {chunk : List ι} {s s' : σ} {os : List ο}
    (h : feed step s chunk = .ok (s', os)) : emitted step s chunk = (os, .ok s') := by
  unfold feed at h
  split at h
  · cases h
  · rename_i os' s'' he
    cases h
    exact he

theorem emitted_of_feed_error (step : Step σ ι ο ε) {chunk : List ι} {s : σ} {e : ε}
    (h : feed step s chunk = .error e) : (emitted step s chunk).2 = .error e := by
  unfold feed at h
  split at h
  · rename_i os e' he
    cases h
    rw [he]
  · cases h

/-- **Cuts do not matter where refused chunks are quiet.** -/
theorem deliver_eq_emitted (step : Step σ ι ο ε) : ∀ (chunks : List (List ι)) (s : σ),
    (∀ c ∈ chunks, Quiet step c) → deliver step s chunks = emitted step s chunks.flatten
  | [], s, _ => rfl
  | c :: cs, s, hq => by
    rw [List.flatten_cons, emitted_append, deliver]
    cases hf : feed step s c with
    | error e =>
      have he := emitted_of_feed_error step hf
      rw [he]
      exact (Prod.ext (hq c List.mem_cons_self s e he) he).symm
    | ok r =>
      obtain ⟨s', os⟩ := r
      rw [emitted_of_feed step hf]
      simp only
      rw [deliver_eq_emitted step cs s' (fun c' hc' => hq c' (List.mem_cons_of_mem _ hc'))]

/-- **Nor where the stream is never refused.** -/
theorem deliver_of_ok (step : Step σ ι ο ε) : ∀ (chunks : List (List ι)) (s s' : σ) (os : List ο),
    emitted step s chunks.flatten = (os, .ok s') → deliver step s chunks = (os, .ok s')
  | [], s, s', os, h => h
  | c :: cs, s, s', os, h => by
    rw [List.flatten_cons, emitted_append] at h
    rw [deliver]
    cases hf : feed step s c with
    | error e =>
      have he := emitted_of_feed_error step hf
      simp only [he] at h
      rw [h] at he
      cases he
    | ok r =>
      obtain ⟨s₁, os₁⟩ := r
      rw [emitted_of_feed step hf] at h
      obtain ⟨h1, h2⟩ := Prod.mk.inj h
      simp only
      rw [deliver_of_ok step cs s₁ s' _ (Prod.ext rfl h2), h1]

/-- One item a chunk is the machine on the bare stream. -/
theorem deliver_singletons (step : Step σ ι ο ε) (is : List ι) (s : σ) :
    deliver step s (is.map (fun i => [i])) = emitted step s is := by
  have hq : ∀ c ∈ is.map (fun i => [i]), Quiet step c := by
    intro c hc s e he
    obtain ⟨i, _, rfl⟩ := List.mem_map.1 hc
    rw [emitted_cons] at he ⊢
    cases hi : step s i with
    | error e' => rfl
    | ok r => rw [hi] at he; cases he
  rw [deliver_eq_emitted step _ s hq, ← List.flatMap_def, List.flatMap_singleton']

end Incremental
