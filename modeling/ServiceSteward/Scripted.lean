import Mathlib
/-!
# Scripted — programs that a script may cut short

A program changes a state and returns, fails with an error, or is still running when the script of its environment
ends (`blocked`): what it has done by then is a beginning of a run.  `All` states a property of each of the three
endings; `all_bind` is the rule of sequencing, `all_iterate` that of loops.  `Keeps R` says that a program relates
every state it starts from to the one it stops in, however it stops; for a preorder `R` it passes through every
construct, so it is proved of a program by naming the programs it is made of.
-/
namespace Scripted

variable {σ ε α β : Type}

inductive Outcome (σ ε α : Type) where
  | ok (a : α) (s : σ)
  | err (e : ε) (s : σ)
  | blocked (s : σ)

/-- A program: from a state to how it stops. -/
def Prog (σ ε α : Type) := σ → Outcome σ ε α

instance : Monad (Prog σ ε) where
  pure a := fun s => .ok a s
  bind p f := fun s =>
    match p s with
    | .ok a s' => f a s'
    | .err e s' => .err e s'
    | .blocked s' => .blocked s'

instance : LawfulMonad (Prog σ ε) := by
  refine LawfulMonad.mk' _ (fun p => ?_) (fun a f => rfl) (fun p f g => ?_)
  · funext s
    simp only [Functor.map, Bind.bind]
    cases p s with
    | _ => rfl
  · funext s
    simp only [Bind.bind]
    cases p s with
    | _ => rfl

namespace Prog

def throw (e : ε) : Prog σ ε α := fun s => .err e s

def blocked : Prog σ ε α := fun s => .blocked s

def get : Prog σ ε σ := fun s => .ok s s

def modify (f : σ → σ) : Prog σ ε Unit := fun s => .ok () (f s)

/-- The result of a program as a value. -/
def attempt (p : Prog σ ε α) : Prog σ ε (Except ε α) := fun s =>
  match p s with
  | .ok a s' => .ok (.ok a) s'
  | .err e s' => .ok (.error e) s'
  | .blocked s' => .blocked s'

/-- A loop that carries a value, for at most `n` turns: a turn goes on with a new value or ends the loop. -/
def iterate (body : α → Prog σ ε (α ⊕ β)) : Nat → α → Prog σ ε β
  | 0, _ => blocked
  | n + 1, a => do
    match ← body a with
    | .inl a' => iterate body n a'
    | .inr b => return b

/-- A `for` loop whose body may return. -/
def forEach (body : α → Prog σ ε (Option β)) : List α → Prog σ ε (Option β)
  | [] => return none
  | a :: as => do
    match ← body a with
    | some b => return some b
    | none => forEach body as

end Prog

open Prog (iterate forEach attempt)

/-! ## Endings -/

/-- A property of each way a program can stop. -/
def Outcome.All (Q : α → σ → Prop) (E : ε → σ → Prop) (B : σ → Prop) : Outcome σ ε α → Prop
  | .ok a s => Q a s
  | .err e s => E e s
  | .blocked s => B s

theorem Outcome.All.mono {o : Outcome σ ε α} {Q Q' : α → σ → Prop} {E E' : ε → σ → Prop} {B B' : σ → Prop}
    (h : o.All Q E B) (hQ : ∀ a s, Q a s → Q' a s) (hE : ∀ e s, E e s → E' e s) (hB : ∀ s, B s → B' s) :
    o.All Q' E' B' := by
  cases o with
  | ok a s => exact hQ a s h
  | err e s => exact hE e s h
  | blocked s => exact hB s h

theorem Outcome.All.and {o : Outcome σ ε α} {Q Q' : α → σ → Prop} {E E' : ε → σ → Prop} {B B' : σ → Prop}
    (h : o.All Q E B) (h' : o.All Q' E' B') :
    o.All (fun a s => Q a s ∧ Q' a s) (fun e s => E e s ∧ E' e s) (fun s => B s ∧ B' s) := by
  cases o with
  | ok a s => exact ⟨h, h'⟩
  | err e s => exact ⟨h, h'⟩
  | blocked s => exact ⟨h, h'⟩

theorem Outcome.all_true (o : Outcome σ ε α) : o.All (fun _ _ => True) (fun _ _ => True) (fun _ => True) := by
  cases o with
  | _ => trivial

/-- Each ending, as itself. -/
theorem Outcome.all_eq (o : Outcome σ ε α) :
    o.All (fun a s => o = .ok a s) (fun e s => o = .err e s) (fun s => o = .blocked s) := by
  cases o with
  | _ => rfl

def Outcome.result : Outcome σ ε α → Option α
  | .ok a _ => some a
  | _ => none

def Outcome.state : Outcome σ ε α → σ
  | .ok _ s | .err _ s | .blocked s => s

def Outcome.error : Outcome σ ε α → Option ε
  | .err e _ => some e
  | _ => none

/-- What holds of the state, however the program stopped. -/
theorem Outcome.All.state {o : Outcome σ ε α} {Q : α → σ → Prop} {E : ε → σ → Prop} {B P : σ → Prop} (h : o.All Q E B)
    (hQ : ∀ a s, Q a s → P s) (hE : ∀ e s, E e s → P s) (hB : ∀ s, B s → P s) : P o.state := by
  cases o with
  | ok a s => exact hQ a s h
  | err e s => exact hE e s h
  | blocked s => exact hB s h

theorem Outcome.eq_of_error {o : Outcome σ ε α} {e : ε} (h : o.error = some e) : o = .err e o.state := by
  cases o with
  | ok b s => cases h
  | err e' s =>
    cases h
    rfl
  | blocked s => cases h

theorem Outcome.eq_of_result {o : Outcome σ ε α} {a : α} (h : o.result = some a) : o = .ok a o.state := by
  cases o with
  | ok b s =>
    cases h
    rfl
  | err e s => cases h
  | blocked s => cases h

theorem Outcome.All.of_result {o : Outcome σ ε α} {Q : α → σ → Prop} {E : ε → σ → Prop} {B : σ → Prop}
    (h : o.All Q E B) {a : α} (ha : o.result = some a) : Q a o.state := by
  cases o with
  | ok b s =>
    cases ha
    exact h
  | err e s => cases ha
  | blocked s => cases ha

section Rules

variable {Q : α → σ → Prop} {Q' : β → σ → Prop} {E : ε → σ → Prop} {B : σ → Prop}

@[simp] theorem all_pure (a : α) (s : σ) : ((pure a : Prog σ ε α) s).All Q E B ↔ Q a s := Iff.rfl

@[simp] theorem all_throw (e : ε) (s : σ) : ((Prog.throw e : Prog σ ε α) s).All Q E B ↔ E e s := Iff.rfl

@[simp] theorem all_blocked (s : σ) : ((Prog.blocked : Prog σ ε α) s).All Q E B ↔ B s := Iff.rfl

@[simp] theorem all_get {Q : σ → σ → Prop} (s : σ) : ((Prog.get : Prog σ ε σ) s).All Q E B ↔ Q s s := Iff.rfl

@[simp] theorem all_modify {Q : Unit → σ → Prop} (f : σ → σ) (s : σ) :
    ((Prog.modify f : Prog σ ε Unit) s).All Q E B ↔ Q () (f s) := Iff.rfl

/-- **Sequencing**: what follows a program starts where it returned. -/
theorem all_bind (p : Prog σ ε α) (f : α → Prog σ ε β) (s : σ) :
    ((p >>= f) s).All Q' E B ↔ (p s).All (fun a s' => (f a s').All Q' E B) E B := by
  simp only [Bind.bind]
  cases p s with
  | ok a s' => rfl
  | err e s' => rfl
  | blocked s' => rfl

theorem all_attempt {Q : Except ε α → σ → Prop} (p : Prog σ ε α) (s : σ) :
    ((attempt p) s).All Q E B ↔ (p s).All (fun a => Q (.ok a)) (fun e => Q (.error e)) B := by
  unfold attempt
  cases p s with
  | ok a s' => rfl
  | err e s' => rfl
  | blocked s' => rfl

/-- **Loops**: an invariant of the carried value that every turn keeps until it ends the loop. -/
theorem all_iterate {I : α → σ → Prop} {body : α → Prog σ ε (α ⊕ β)}
    (hbody : ∀ a s, I a s → (body a s).All (fun r s' => match r with | .inl a' => I a' s' | .inr b => Q' b s') E B)
    (hcut : ∀ a s, I a s → B s) : ∀ (n : Nat) (a : α) (s : σ), I a s → ((iterate body n a) s).All Q' E B
  | 0, a, s, h => hcut a s h
  | n + 1, a, s, h => by
    rw [iterate, all_bind]
    refine (hbody a s h).mono (fun r s' hr => ?_) (fun _ _ he => he) (fun _ hb => hb)
    cases r with
    | inl a' => exact all_iterate hbody hcut n a' s' hr
    | inr b => exact hr

/-- **`for` loops**: an invariant of the elements still to come. -/
theorem all_forEach {I : List α → σ → Prop} {body : α → Prog σ ε (Option β)} {Q' : Option β → σ → Prop}
    (hbody : ∀ a as s, I (a :: as) s →
      (body a s).All (fun r s' => match r with | none => I as s' | some b => Q' (some b) s') E B)
    (hend : ∀ s, I [] s → Q' none s) : ∀ (as : List α) (s : σ), I as s → ((forEach body as) s).All Q' E B
  | [], s, h => hend s h
  | a :: as, s, h => by
    rw [forEach, all_bind]
    refine (hbody a as s h).mono (fun r s' hr => ?_) (fun _ _ he => he) (fun _ hb => hb)
    cases r with
    | none => exact all_forEach hbody hend as s' hr
    | some b => exact hr

end Rules

/-! ## Relations every ending keeps -/

/-- **A program relates every state it starts from to the one it stops in.** -/
def Keeps (R : σ → σ → Prop) (p : Prog σ ε α) : Prop := ∀ s, (p s).All (fun _ => R s) (fun _ => R s) (R s)

section Keeps

variable {R : σ → σ → Prop} [IsPreorder σ R]

theorem keeps_pure (a : α) : Keeps R (pure a : Prog σ ε α) := fun s => refl_of R s

theorem keeps_throw (e : ε) : Keeps R (Prog.throw e : Prog σ ε α) := fun s => refl_of R s

theorem keeps_get : Keeps R (Prog.get : Prog σ ε σ) := fun s => refl_of R s

theorem keeps_blocked : Keeps R (Prog.blocked : Prog σ ε α) := fun s => refl_of R s

/-- A program, and another from wherever the first returned. -/
theorem keeps_step {p : Prog σ ε α} {f : α → Prog σ ε β} {s : σ}
    (hp : (p s).All (fun a s' => R s s' ∧ ((f a) s').All (fun _ => R s') (fun _ => R s') (R s'))
      (fun _ => R s) (R s)) : ((p >>= f) s).All (fun _ => R s) (fun _ => R s) (R s) := by
  rw [all_bind]
  refine hp.mono (fun a s' hs' => ?_) (fun _ _ h => h) (fun _ h => h)
  obtain ⟨h, hf⟩ := hs'
  exact hf.mono (fun _ _ h' => trans_of R h h') (fun _ _ h' => trans_of R h h') (fun _ h' => trans_of R h h')

theorem keeps_bind {p : Prog σ ε α} {f : α → Prog σ ε β} (hp : Keeps R p) (hf : ∀ a, Keeps R (f a)) :
    Keeps R (p >>= f) := fun s =>
  keeps_step ((hp s).mono (fun a s' h => ⟨h, hf a s'⟩) (fun _ _ h => h) (fun _ h => h))

theorem keeps_iterate {body : α → Prog σ ε (α ⊕ β)} (hbody : ∀ a, Keeps R (body a)) :
    ∀ (n : Nat) (a : α), Keeps R (iterate body n a)
  | 0, _ => keeps_blocked
  | n + 1, a => by
    refine keeps_bind (hbody a) (fun r => ?_)
    cases r with
    | inl a' => exact keeps_iterate hbody n a'
    | inr b => exact keeps_pure b

theorem keeps_forEach {body : α → Prog σ ε (Option β)} (hbody : ∀ a, Keeps R (body a)) :
    ∀ as : List α, Keeps R (forEach body as)
  | [] => keeps_pure none
  | a :: as => by
    refine keeps_bind (hbody a) (fun r => ?_)
    cases r with
    | some b => exact keeps_pure (some b)
    | none => exact keeps_forEach hbody as

end Keeps

theorem keeps_attempt {R : σ → σ → Prop} {p : Prog σ ε α} (hp : Keeps R p) : Keeps R (attempt p) := by
  intro s
  rw [all_attempt]
  exact hp s

/-! ### What is said of a run that is cut short -/

/-- A relation that `R` may come before. -/
class After (R C : σ → σ → Prop) : Prop where
  after : ∀ {s t u}, R s t → C t u → C s u

/-- A weaker one. -/
class Cut (R C : σ → σ → Prop) : Prop extends After R C where
  of : ∀ {s t}, R s t → C s t

instance {R : σ → σ → Prop} [IsPreorder σ R] : Cut R R where
  after h h' := trans_of R h h'
  of h := h

instance {R : σ → σ → Prop} : Cut R (fun _ _ => True) where
  after _ _ := trivial
  of _ := trivial

/-- **A program that relates the state it starts from to the one it returns in**, with weaker relations for the states
in which it fails (`E`) or is still running (`B`). -/
def Stops (R E B : σ → σ → Prop) (p : Prog σ ε α) : Prop := ∀ s, (p s).All (fun _ => R s) (fun _ => E s) (B s)

theorem Keeps.stops {R E B : σ → σ → Prop} [Cut R E] [Cut R B] {p : Prog σ ε α} (h : Keeps R p) : Stops R E B p :=
  fun s => (h s).mono (fun _ _ h => h) (fun _ _ h => Cut.of h) (fun _ h => Cut.of h)

section Stops

variable {R E B : σ → σ → Prop} [IsPreorder σ R] [After R E] [After R B]

/-- What a program says from a state still holds of a start before it. -/
theorem all_after {Q : α → σ → Prop} {s t : σ} (hst : R s t) {o : Outcome σ ε α}
    (h : o.All (fun a u => R t u ∧ Q a u) (fun _ => E t) (B t)) :
    o.All (fun a u => R s u ∧ Q a u) (fun _ => E s) (B s) :=
  h.mono (fun _ _ hu => ⟨trans_of R hst hu.1, hu.2⟩) (fun _ _ hu => After.after hst hu) (fun _ hu => After.after hst hu)

theorem stops_bind {p : Prog σ ε α} {f : α → Prog σ ε β} (hp : Stops R E B p) (hf : ∀ a, Stops R E B (f a)) :
    Stops R E B (p >>= f) := by
  intro s
  rw [all_bind]
  refine (hp s).mono (fun a t ht => ?_) (fun _ _ h => h) (fun _ h => h)
  refine (hf a t).mono (fun _ u hu => trans_of R ht hu) ?_ ?_
  · exact fun _ u hu => After.after ht hu
  · exact fun u hu => After.after ht hu

theorem stops_pure (a : α) : Stops R E B (pure a : Prog σ ε α) := fun s => refl_of R s

end Stops

theorem stops_iterate {R E B : σ → σ → Prop} [IsPreorder σ R] [After R E] [Cut R B] {body : α → Prog σ ε (α ⊕ β)}
    (hbody : ∀ a, Stops R E B (body a)) : ∀ (n : Nat) (a : α), Stops R E B (iterate body n a)
  | 0, _ => fun s => Cut.of (R := R) (refl_of R s)
  | n + 1, a => by
    refine stops_bind (hbody a) (fun r => ?_)
    cases r with
    | inl a' => exact stops_iterate hbody n a'
    | inr b => exact stops_pure b

/-! ### What a program returns -/

/-- A property of all that a program can return, from any state. -/
def Returns (P : α → Prop) (p : Prog σ ε α) : Prop := ∀ s, (p s).All (fun a _ => P a) (fun _ _ => True) (fun _ => True)

theorem returns_pure {P : α → Prop} {a : α} (h : P a) : Returns P (pure a : Prog σ ε α) := fun _ => h

theorem returns_bind {P : β → Prop} {p : Prog σ ε α} {f : α → Prog σ ε β} (h : ∀ a, Returns P (f a)) :
    Returns P (p >>= f) := by
  intro s
  rw [all_bind]
  cases p s with
  | ok a t => exact h a t
  | err e t => trivial
  | blocked t => trivial

/-- What is made of what a program returns. -/
theorem returns_map {P : α → Prop} {P' : β → Prop} {p : Prog σ ε α} {f : α → β} (hp : Returns P p)
    (hf : ∀ a, P a → P' (f a)) : Returns P' (p >>= fun a => pure (f a)) := by
  intro s
  rw [all_bind]
  exact (hp s).mono (fun a _ ha => hf a ha) (fun _ _ h => h) (fun _ h => h)

/-! ### What a loop has done -/

/-- The turns of a loop that went on. -/
inductive Iterated (body : α → Prog σ ε (α ⊕ β)) (a : α) (s : σ) : α → σ → Prop
  | start : Iterated body a s a s
  | turn {b c : α} {t u : σ} : Iterated body a s b t → body b t = .ok (.inl c) u → Iterated body a s c u

theorem Iterated.cons {body : α → Prog σ ε (α ⊕ β)} {a b c : α} {s t u : σ} (h : body a s = .ok (.inl b) t)
    (h' : Iterated body b t c u) : Iterated body a s c u := by
  induction h' with
  | start => exact .turn .start h
  | turn _ hbody ih => exact .turn ih hbody

/-- What follows a program that returned. -/
theorem bind_of_ok {p : Prog σ ε α} {f : α → Prog σ ε β} {s t : σ} {a : α} (h : p s = .ok a t) :
    (p >>= f) s = f a t := by
  simp only [Bind.bind, h]

/-- **A sequence that returned**, part by part. -/
theorem ok_of_bind {p : Prog σ ε α} {f : α → Prog σ ε β} {s u : σ} {b : β} (h : (p >>= f) s = .ok b u) :
    ∃ a t, p s = .ok a t ∧ f a t = .ok b u := by
  simp only [Bind.bind] at h
  cases hp : p s with
  | ok a t =>
    rw [hp] at h
    exact ⟨a, t, rfl, h⟩
  | err e t =>
    rw [hp] at h
    cases h
  | blocked t =>
    rw [hp] at h
    cases h

/-- **A loop that returned** made turns that went on, and one that ended it. -/
theorem iterated_of_ok {body : α → Prog σ ε (α ⊕ β)} : ∀ {n : Nat} {a : α} {s : σ} {b : β} {u : σ},
    iterate body n a s = .ok b u → ∃ c t, Iterated body a s c t ∧ body c t = .ok (.inr b) u
  | 0, _, _, _, _, h => by cases h
  | n + 1, a, s, b, u, h => by
    rw [iterate] at h
    obtain ⟨r, t, hbody, hrest⟩ := ok_of_bind h
    cases r with
    | inl a' =>
      obtain ⟨c, v, hturns, hlast⟩ := iterated_of_ok hrest
      exact ⟨c, v, .cons hbody hturns, hlast⟩
    | inr b' =>
      cases hrest
      exact ⟨a, s, .start, hbody⟩

/-- **Turns enough**: where each turn that goes on lowers a measure, more turns than that change nothing. -/
theorem iterate_enough {body : α → Prog σ ε (α ⊕ β)} (μ : σ → Nat)
    (hμ : ∀ a s a' s', body a s = .ok (.inl a') s' → μ s' < μ s) : ∀ (n m : Nat) (a : α) (s : σ),
    μ s < n → μ s < m → iterate body n a s = iterate body m a s
  | 0, _, _, _, hn, _ => by omega
  | _ + 1, 0, _, _, _, hm => by omega
  | n + 1, m + 1, a, s, hn, hm => by
    simp only [iterate, Bind.bind]
    cases hbody : body a s with
    | ok r t =>
      cases r with
      | inl a' =>
        have hless := hμ a s a' t hbody
        exact iterate_enough μ hμ n m a' t (by omega) (by omega)
      | inr b => rfl
    | err e t => rfl
    | blocked t => rfl

/-! ### Invariants a relation carries -/

/-- An invariant that a relation keeps, with what it says of a run that is cut short. -/
structure Carried (R : σ → σ → Prop) (I E B : σ → Prop) : Prop where
  after : ∀ s t, I s → R s t → I t
  err : ∀ s, I s → E s
  cut : ∀ s, I s → B s

theorem Carried.bind {R : σ → σ → Prop} {I E B : σ → Prop} (hI : Carried R I E B) {s : σ} (h : I s)
    {p : Prog σ ε α} {f : α → Prog σ ε β} {Q : β → σ → Prop} (hp : Keeps R p)
    (hf : ∀ a t, I t → ((f a) t).All Q (fun _ => E) B) : ((p >>= f) s).All Q (fun _ => E) B := by
  rw [all_bind]
  refine (hp s).mono (fun a t ht => hf a t (hI.after s t h ht)) ?_ ?_
  · exact fun _ t ht => hI.err t (hI.after s t h ht)
  · exact fun t ht => hI.cut t (hI.after s t h ht)

end Scripted
