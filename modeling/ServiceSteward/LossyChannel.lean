import Mathlib
/-!
# LossyChannel — a bounded channel that drops what finds no room

Senders do not wait: an offer is dropped where as many items wait as the channel holds.  What the receiver has taken and
what waits are together the offers that found room, in order (`after_eq`).  So a kind of item gets through completely
exactly where each of its offers found room (`filter_kept_iff`).
-/
namespace LossyChannel

variable {α : Type}

structure Channel (α : Type) where
  waiting : List α := []
  taken : List α := []

inductive Step (α : Type) where
  | offer (a : α)
  | take

def step (capacity : Nat) (c : Channel α) : Step α → Channel α
  | .offer a => if c.waiting.length < capacity then { c with waiting := c.waiting ++ [a] } else c
  | .take =>
    match c.waiting with
    | [] => c
    | a :: rest => { waiting := rest, taken := c.taken ++ [a] }

def after (capacity : Nat) (c : Channel α) (steps : List (Step α)) : Channel α := steps.foldl (step capacity) c

def offered : List (Step α) → List α
  | [] => []
  | .offer a :: steps => a :: offered steps
  | .take :: steps => offered steps

/-- The offers that find room. -/
def kept (capacity : Nat) : Channel α → List (Step α) → List α
  | _, [] => []
  | c, .offer a :: steps =>
    if c.waiting.length < capacity then a :: kept capacity (step capacity c (.offer a)) steps
    else kept capacity c steps
  | c, .take :: steps => kept capacity (step capacity c .take) steps

/-- Every item of a kind is offered while there is room. -/
def Room (capacity : Nat) (p : α → Bool) (c : Channel α) (steps : List (Step α)) : Prop :=
  ∀ before a rest, steps = before ++ .offer a :: rest → p a = true → (after capacity c before).waiting.length < capacity

variable {capacity : Nat}

theorem step_full {c : Channel α} (h : ¬ c.waiting.length < capacity) (a : α) : step capacity c (.offer a) = c := if_neg h

/-- **What was taken and what waits** are what was there and the offers that found room. -/
theorem after_eq : ∀ (steps : List (Step α)) (c : Channel α),
    (after capacity c steps).taken ++ (after capacity c steps).waiting = c.taken ++ c.waiting ++ kept capacity c steps
  | [], c => by simp [after, kept]
  | .offer a :: steps, c => by
    have ih := after_eq steps (step capacity c (.offer a))
    have hafter : after capacity c (.offer a :: steps) = after capacity (step capacity c (.offer a)) steps := rfl
    rw [hafter, ih, kept]
    by_cases hroom : c.waiting.length < capacity
    · simp [step, hroom]
    · rw [step_full hroom, if_neg hroom]
  | .take :: steps, c => by
    have ih := after_eq steps (step capacity c .take)
    have hafter : after capacity c (.take :: steps) = after capacity (step capacity c .take) steps := rfl
    rw [hafter, ih, kept]
    cases hwaiting : c.waiting with
    | nil => simp [step, hwaiting]
    | cons a rest => simp [step, hwaiting]

theorem kept_sublist : ∀ (steps : List (Step α)) (c : Channel α), (kept capacity c steps).Sublist (offered steps)
  | [], _ => List.Sublist.refl _
  | .offer a :: steps, c => by
    rw [kept, offered]
    by_cases hroom : c.waiting.length < capacity
    · rw [if_pos hroom]
      exact (kept_sublist steps _).cons_cons a
    · rw [if_neg hroom]
      exact (kept_sublist steps c).cons a
  | .take :: steps, c => kept_sublist steps _

theorem room_cons (p : α → Bool) (s : Step α) (steps : List (Step α)) (c : Channel α) :
    Room capacity p c (s :: steps) ↔
      (∀ a, s = .offer a → p a = true → c.waiting.length < capacity) ∧ Room capacity p (step capacity c s) steps := by
  constructor
  · intro h
    constructor
    · rintro a rfl hp
      exact h [] a steps rfl hp
    · intro before a rest heq hp
      exact h (s :: before) a rest (by rw [heq]; rfl) hp
  · rintro ⟨hfirst, hrest⟩ before a rest heq hp
    cases before with
    | nil =>
      cases heq
      exact hfirst a rfl hp
    | cons first before =>
      cases heq
      exact hrest before a rest rfl hp

/-- **A kind of item gets through** exactly where each of its offers finds room. -/
theorem filter_kept_iff (p : α → Bool) : ∀ (steps : List (Step α)) (c : Channel α),
    (kept capacity c steps).filter p = (offered steps).filter p ↔ Room capacity p c steps
  | [], c => ⟨fun _ before a rest heq => (by cases before <;> cases heq), fun _ => rfl⟩
  | .take :: steps, c => by
    rw [room_cons, kept, offered, filter_kept_iff p steps]
    exact ⟨fun h => ⟨fun a ha => (by cases ha), h⟩, fun h => h.2⟩
  | .offer a :: steps, c => by
    have ih := filter_kept_iff p steps
    rw [room_cons, kept, offered]
    by_cases hroom : c.waiting.length < capacity
    · rw [if_pos hroom, ← ih]
      by_cases hp : p a = true
      · rw [List.filter_cons_of_pos hp, List.filter_cons_of_pos hp, List.cons_inj_right]
        exact ⟨fun h => ⟨fun _ _ _ => hroom, h⟩, fun h => h.2⟩
      · rw [List.filter_cons_of_neg hp, List.filter_cons_of_neg hp]
        exact ⟨fun h => ⟨fun _ _ _ => hroom, h⟩, fun h => h.2⟩
    · rw [if_neg hroom, step_full hroom, ← ih]
      by_cases hp : p a = true
      · rw [List.filter_cons_of_pos hp]
        constructor
        · intro h
          -- one item more was offered than can have been kept
          have hsublist : (kept capacity c steps).Sublist (offered steps) := kept_sublist steps c
          have hlength := (hsublist.filter p).length_le
          rw [h, List.length_cons] at hlength
          omega
        · intro h
          exact absurd (h.1 a rfl hp) hroom
      · rw [List.filter_cons_of_neg hp]
        constructor
        · intro h
          refine ⟨fun b hb hpb => ?_, h⟩
          cases hb
          exact absurd hpb hp
        · exact fun h => h.2

theorem after_takes : ∀ (waiting taken : List α),
    after capacity ⟨waiting, taken⟩ (List.replicate waiting.length .take) = ⟨[], taken ++ waiting⟩
  | [], taken => by simp [after]
  | a :: waiting, taken => by
    have ih := after_takes waiting (taken ++ [a])
    rw [List.length_cons, List.replicate_succ]
    show after capacity ⟨waiting, taken ++ [a]⟩ _ = _
    rw [ih, List.append_assoc]
    rfl

end LossyChannel
