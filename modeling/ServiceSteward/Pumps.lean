import ServiceSteward.Interleaving
/-!
# Pumps — producers that share a bounded channel

A producer decodes what it reads into items and sends them one at a time.  A full channel holds it back; a channel
without a receiver ends it.  The receiver learns that the channel is disconnected once it is empty and each producer has
dropped its handle.  **Under every interleaving the receiver has a prefix of the items of each producer, in order, and
all of them once it was told that the channel is disconnected** (`delivered`).
-/
namespace Pumps

open Interleaving

variable {δ ε α : Type}

/-- What a producer makes of what it reads: the items, and how it goes on, where it does. -/
abbrev Decoder (δ ε α : Type) := δ → ε → List α × Option δ

structure Producer (δ ε α : Type) where
  pending : List α := []
  state : Option δ
  /-- Its handle of the channel is dropped. -/
  closed : Bool := false
  history : List ε := []

inductive Task (δ ε α : Type) where
  | producer (p : Producer δ ε α)
  | receiver

/-- A channel.  Each item is marked with its producer. -/
structure Channel (α : Type) where
  queue : List (Nat × α) := []
  received : List (Nat × α) := []
  closed : List Nat := []
  /-- The receiver is dropped. -/
  dropped : Bool := false
  /-- The receiver was told that the channel is disconnected. -/
  disconnected : Bool := false

inductive Answer (ε : Type) where
  | read (e : ε)
  | proceed
  | drop

/-- The next step of a thread.  The first `n` are the producers. -/
def act (decode : Decoder δ ε α) (capacity n : Nat) (s : Channel α) (i : Nat) :
    Task δ ε α → Answer ε → Option (Channel α × Task δ ε α × List (Task δ ε α))
  | .producer p, .read e =>
    match p.pending, p.state with
    | [], some d =>
      some (s, .producer { p with pending := (decode d e).1, state := (decode d e).2, history := p.history ++ [e] }, [])
    | _, _ => none
  | .producer p, .proceed =>
    match p.pending, p.state with
    | a :: rest, _ =>
      if s.dropped then some (s, .producer { p with pending := [], state := none }, [])
      else if s.queue.length < capacity then
        some ({ s with queue := s.queue ++ [(i, a)] }, .producer { p with pending := rest }, [])
      else none
    | [], none =>
      if p.closed then none else some ({ s with closed := i :: s.closed }, .producer { p with closed := true }, [])
    | [], some _ => none
  | .receiver, .proceed =>
    if s.dropped then none
    else
      match s.queue with
      | x :: queue => some ({ s with queue := queue, received := s.received ++ [x] }, .receiver, [])
      | [] =>
        if (List.range n).all (· ∈ s.closed) then some ({ s with disconnected := true }, .receiver, []) else none
  | .receiver, .drop => if s.dropped then none else some ({ s with dropped := true }, .receiver, [])
  | _, _ => none

def pumps (decode : Decoder δ ε α) (capacity n : Nat) : Machine (Channel α) (Task δ ε α) (Answer ε) :=
  ⟨act decode capacity n⟩

/-- `n` producers and the receiver. -/
def start (n : Nat) (d : δ) : Threads (Channel α) (Task δ ε α) :=
  ⟨{}, List.replicate n (.producer { state := some d }) ++ [.receiver]⟩

/-! ## What a step does -/

/-- **The steps of the threads.** -/
inductive Acts (decode : Decoder δ ε α) (capacity n : Nat) (s : Channel α) (i : Nat) :
    Task δ ε α → Channel α → Task δ ε α → Prop
  | reads {p : Producer δ ε α} {d : δ} (e : ε) : p.pending = [] → p.state = some d →
      Acts decode capacity n s i (.producer p) s
        (.producer { p with pending := (decode d e).1, state := (decode d e).2, history := p.history ++ [e] })
  | gives {p : Producer δ ε α} : p.pending ≠ [] → s.dropped = true →
      Acts decode capacity n s i (.producer p) s (.producer { p with pending := [], state := none })
  | sends {p : Producer δ ε α} {a : α} {rest : List α} : p.pending = a :: rest → s.dropped = false →
      s.queue.length < capacity →
      Acts decode capacity n s i (.producer p) { s with queue := s.queue ++ [(i, a)] }
        (.producer { p with pending := rest })
  | closes {p : Producer δ ε α} : p.pending = [] → p.state = none → p.closed = false →
      Acts decode capacity n s i (.producer p) { s with closed := i :: s.closed } (.producer { p with closed := true })
  | receives {x : Nat × α} {queue : List (Nat × α)} : s.dropped = false → s.queue = x :: queue →
      Acts decode capacity n s i .receiver { s with queue := queue, received := s.received ++ [x] } .receiver
  | disconnects : s.dropped = false → s.queue = [] → (∀ j < n, j ∈ s.closed) →
      Acts decode capacity n s i .receiver { s with disconnected := true } .receiver
  | drops : s.dropped = false → Acts decode capacity n s i .receiver { s with dropped := true } .receiver

theorem acts_of_act {decode : Decoder δ ε α} {capacity n : Nat} {s s' : Channel α} {i : Nat} {t t' : Task δ ε α}
    {e : Answer ε} {started : List (Task δ ε α)} (h : act decode capacity n s i t e = some (s', t', started)) :
    started = [] ∧ Acts decode capacity n s i t s' t' := by
  cases t with
  | producer p =>
    cases e with
    | read e =>
      dsimp only [act] at h
      split at h
      · rename_i hpending hstate
        cases h
        exact ⟨rfl, .reads e hpending hstate⟩
      · cases h
    | proceed =>
      dsimp only [act] at h
      split at h
      · rename_i hpending
        by_cases hdropped : s.dropped = true
        · rw [if_pos hdropped] at h
          cases h
          exact ⟨rfl, .gives (by rw [hpending]; simp) hdropped⟩
        · rw [if_neg hdropped] at h
          by_cases hroom : s.queue.length < capacity
          · rw [if_pos hroom] at h
            cases h
            exact ⟨rfl, .sends hpending (by simpa using hdropped) hroom⟩
          · rw [if_neg hroom] at h
            cases h
      · rename_i hpending hstate
        by_cases hclosed : p.closed = true
        · rw [if_pos hclosed] at h
          cases h
        · rw [if_neg hclosed] at h
          cases h
          exact ⟨rfl, .closes hpending hstate (by simpa using hclosed)⟩
      · cases h
    | drop => cases h
  | receiver =>
    cases e with
    | read e => cases h
    | proceed =>
      dsimp only [act] at h
      by_cases hdropped : s.dropped = true
      · rw [if_pos hdropped] at h
        cases h
      · rw [if_neg hdropped] at h
        split at h
        · rename_i hqueue
          cases h
          exact ⟨rfl, .receives (by simpa using hdropped) hqueue⟩
        · rename_i hqueue
          by_cases hall : (List.range n).all (· ∈ s.closed) = true
          · rw [if_pos hall] at h
            cases h
            exact ⟨rfl, .disconnects (by simpa using hdropped) hqueue (by simpa using hall)⟩
          · rw [if_neg hall] at h
            cases h
    | drop =>
      dsimp only [act] at h
      by_cases hdropped : s.dropped = true
      · rw [if_pos hdropped] at h
        cases h
      · rw [if_neg hdropped] at h
        cases h
        exact ⟨rfl, .drops (by simpa using hdropped)⟩

/-! ## What a producer has made -/

/-- What one more answer adds. -/
def produce (decode : Decoder δ ε α) (r : List α × Option δ) (e : ε) : List α × Option δ :=
  match r.2 with
  | some d => (r.1 ++ (decode d e).1, (decode d e).2)
  | none => r

/-- The items of a producer that started in `d`, and how it goes on. -/
def produced (decode : Decoder δ ε α) (d : δ) (history : List ε) : List α × Option δ :=
  history.foldl (produce decode) ([], some d)

theorem produced_append (decode : Decoder δ ε α) (d : δ) (history : List ε) (e : ε) :
    produced decode d (history ++ [e]) = produce decode (produced decode d history) e := List.foldl_concat ..

/-- The items of one producer. -/
def itemsOf (i : Nat) (items : List (Nat × α)) : List α := (items.filter (·.1 = i)).map Prod.snd

@[simp] theorem itemsOf_append (i : Nat) (a b : List (Nat × α)) : itemsOf i (a ++ b) = itemsOf i a ++ itemsOf i b := by
  simp [itemsOf]

@[simp] theorem itemsOf_nil (i : Nat) : itemsOf i ([] : List (Nat × α)) = [] := rfl

theorem itemsOf_own (i : Nat) (a : α) : itemsOf i [(i, a)] = [a] := by simp [itemsOf]

theorem itemsOf_other {i j : Nat} (h : i ≠ j) (a : α) : itemsOf j [(i, a)] = [] := by simp [itemsOf, h]

/-- What a producer has sent. -/
def sent (s : Channel α) (i : Nat) : List α := itemsOf i s.received ++ itemsOf i s.queue

theorem sent_receive {s : Channel α} {x : Nat × α} {queue : List (Nat × α)} (h : s.queue = x :: queue) (i : Nat) :
    sent { s with queue := queue, received := s.received ++ [x] } i = sent s i := by
  unfold sent
  rw [h, show x :: queue = [x] ++ queue from rfl, itemsOf_append, itemsOf_append, List.append_assoc]

/-! ## The invariant -/

section Invariant

variable (decode : Decoder δ ε α) (capacity n : Nat) (d : δ)

/-- Of the shared state. -/
structure Open (s : Channel α) : Prop where
  room : s.queue.length ≤ capacity
  known : ∀ x ∈ s.received ++ s.queue, x.1 < n
  ended : s.disconnected = true → s.queue = [] ∧ ∀ i < n, i ∈ s.closed

/-- Of a producer: nothing is lost while it works or there is a receiver. -/
structure Pumping (s : Channel α) (i : Nat) (p : Producer δ ε α) : Prop where
  known : i < n
  some_sent : sent s i ++ p.pending <+: (produced decode d p.history).1
  all_sent : s.dropped = false ∨ s.disconnected = true ∨ p.state.isSome = true →
    sent s i ++ p.pending = (produced decode d p.history).1 ∧ p.state = (produced decode d p.history).2
  done : p.closed = true → p.pending = [] ∧ p.state = none
  closed : i ∈ s.closed ↔ p.closed = true

def Sound (s : Channel α) (i : Nat) : Task δ ε α → Prop
  | .producer p => Pumping decode n d s i p
  | .receiver => True

variable {decode capacity n d}

/-- A producer that still works has no part in a channel that is disconnected. -/
theorem Pumping.working {s : Channel α} {i : Nat} {p : Producer δ ε α} (h : Pumping decode n d s i p)
    (hs : Open capacity n s) (hp : p.closed = false) : s.disconnected = false := by
  by_contra hdisconnected
  have hclosed := h.closed.1 ((hs.ended (by simpa using hdisconnected)).2 i h.known)
  rw [hp] at hclosed
  cases hclosed

theorem Pumping.working_of_pending {s : Channel α} {i : Nat} {p : Producer δ ε α} (h : Pumping decode n d s i p)
    (hp : p.pending ≠ []) : p.closed = false := by
  by_contra hclosed
  exact hp (h.done (by simpa using hclosed)).1

theorem acts_open {s s' : Channel α} {i : Nat} {t t' : Task δ ε α} (hs : Open capacity n s)
    (ht : Sound decode n d s i t) (h : Acts decode capacity n s i t s' t') : Open capacity n s' := by
  cases h with
  | reads e hpending hstate => exact hs
  | gives hpending hdropped => exact hs
  | @sends p a rest hpending hdropped hroom =>
    have hworking := Pumping.working ht hs (Pumping.working_of_pending ht (by rw [hpending]; simp))
    refine ⟨by rw [List.length_append, List.length_singleton]; omega, fun x hx => ?_, fun hended => ?_⟩
    · rw [← List.append_assoc] at hx
      rcases List.mem_append.1 hx with hmem | hmem
      · exact hs.known x hmem
      · rw [List.mem_singleton.1 hmem]
        exact ht.known
    · rw [hworking] at hended
      cases hended
  | closes hpending hstate hclosed =>
    exact ⟨hs.room, hs.known,
      fun hended => ⟨(hs.ended hended).1, fun j hj => List.mem_cons_of_mem _ ((hs.ended hended).2 j hj)⟩⟩
  | receives hdropped hqueue =>
    have hroom := hs.room
    rw [hqueue, List.length_cons] at hroom
    refine ⟨Nat.le_of_succ_le hroom, fun x hx => ?_, fun hended => ?_⟩
    · rw [List.append_assoc] at hx
      exact hs.known x (by rw [hqueue]; exact hx)
    · have hempty := (hs.ended hended).1
      rw [hqueue] at hempty
      cases hempty
  | disconnects hdropped hqueue hall => exact ⟨hs.room, hs.known, fun _ => ⟨hqueue, hall⟩⟩
  | drops hdropped => exact ⟨hs.room, hs.known, hs.ended⟩

theorem acts_own {s s' : Channel α} {i : Nat} {t t' : Task δ ε α} (hs : Open capacity n s)
    (ht : Sound decode n d s i t) (h : Acts decode capacity n s i t s' t') : Sound decode n d s' i t' := by
  cases h with
  | @reads p d' e hpending hstate =>
    obtain ⟨hknown, -, hall, hdone, hclosed⟩ := ht
    have hopen : p.closed = false := by
      by_contra hc
      have hnone := (hdone (by simpa using hc)).2
      rw [hstate] at hnone
      cases hnone
    have hmade : sent s i ++ (decode d' e).1 = (produced decode d (p.history ++ [e])).1 ∧
        (decode d' e).2 = (produced decode d (p.history ++ [e])).2 := by
      obtain ⟨hsent, hgoes⟩ := hall (.inr (.inr (by rw [hstate]; rfl)))
      rw [hpending, List.append_nil] at hsent
      rw [produced_append]
      unfold produce
      rw [← hgoes, hstate, hsent]
      exact ⟨rfl, rfl⟩
    refine ⟨hknown, hmade.1 ▸ List.prefix_rfl, fun _ => hmade, fun hc => ?_, hclosed⟩
    rw [hopen] at hc
    cases hc
  | @gives p hpending hdropped =>
    have hworking := ht.working hs (ht.working_of_pending hpending)
    refine ⟨ht.known, (List.prefix_append_right_inj _).2 List.nil_prefix |>.trans ht.some_sent, fun hreceiver => ?_,
      fun hc => ⟨rfl, rfl⟩, ht.closed⟩
    rcases hreceiver with h | h | h
    · rw [hdropped] at h
      cases h
    · rw [hworking] at h
      cases h
    · cases h
  | @sends p a rest hpending hdropped hroom =>
    have hmoved : sent { s with queue := s.queue ++ [(i, a)] } i ++ rest = sent s i ++ p.pending := by
      unfold sent
      rw [hpending, itemsOf_append, itemsOf_own, List.append_assoc, List.append_assoc, List.append_assoc]
      rfl
    have hopen := ht.working_of_pending (by rw [hpending]; simp)
    refine ⟨ht.known, hmoved ▸ ht.some_sent, fun hreceiver => hmoved ▸ ht.all_sent hreceiver, fun hc => ?_, ht.closed⟩
    rw [hopen] at hc
    cases hc
  | @closes p hpending hstate hclosed =>
    exact ⟨ht.known, ht.some_sent, ht.all_sent, fun _ => ⟨hpending, hstate⟩, by simp⟩
  | receives hdropped hqueue => exact ht
  | disconnects hdropped hqueue hall => exact ht
  | drops hdropped => exact ht

theorem acts_others {s s' : Channel α} {i j : Nat} {t t' u : Task δ ε α} (hu : Sound decode n d s j u) (hij : i ≠ j)
    (h : Acts decode capacity n s i t s' t') : Sound decode n d s' j u := by
  cases u with
  | receiver => trivial
  | producer q =>
    cases h with
    | reads e hpending hstate => exact hu
    | gives hpending hdropped => exact hu
    | @sends p a rest hpending hdropped hroom =>
      have hsame : sent { s with queue := s.queue ++ [(i, a)] } j = sent s j := by
        unfold sent
        rw [itemsOf_append, itemsOf_other hij, List.append_nil]
      exact ⟨hu.known, hsame ▸ hu.some_sent, fun hreceiver => hsame ▸ hu.all_sent hreceiver, hu.done, hu.closed⟩
    | closes hpending hstate hclosed =>
      have hmem : j ∈ i :: s.closed ↔ j ∈ s.closed := by simp [Ne.symm hij]
      exact ⟨hu.known, hu.some_sent, hu.all_sent, hu.done, hmem.trans hu.closed⟩
    | receives hdropped hqueue =>
      have hsame := sent_receive hqueue j
      exact ⟨hu.known, hsame ▸ hu.some_sent, fun hreceiver => hsame ▸ hu.all_sent hreceiver, hu.done, hu.closed⟩
    | disconnects hdropped hqueue hall =>
      exact ⟨hu.known, hu.some_sent, fun _ => hu.all_sent (.inl hdropped), hu.done, hu.closed⟩
    | drops hdropped =>
      exact ⟨hu.known, hu.some_sent, fun _ => hu.all_sent (.inl hdropped), hu.done, hu.closed⟩

/-- A thread stays what it is. -/
theorem producer_of_acts {s s' : Channel α} {i : Nat} {t t' : Task δ ε α} (h : Acts decode capacity n s i t s' t')
    (ht : ∃ p, t = .producer p) : ∃ p, t' = .producer p := by
  cases h with
  | reads e hpending hstate => exact ⟨_, rfl⟩
  | gives hpending hdropped => exact ⟨_, rfl⟩
  | sends hpending hdropped hroom => exact ⟨_, rfl⟩
  | closes hpending hstate hclosed => exact ⟨_, rfl⟩
  | receives hdropped hqueue => exact ht
  | disconnects hdropped hqueue hall => exact ht
  | drops hdropped => exact ht

theorem producers_run (decode : Decoder δ ε α) (capacity n : Nat) (d : δ) (choices : List (Nat × Answer ε)) :
    ∀ i < n, ∃ p, ((pumps decode capacity n).run (start n d) choices).tasks[i]? = some (.producer p) := by
  refine Machine.run_induction (pumps decode capacity n) (P := fun c => ∀ i < n, ∃ p, c.tasks[i]? = some (.producer p))
    (fun c choice hc i hi => ?_) choices (fun i hi => ?_)
  · obtain ⟨p, hp⟩ := hc i hi
    rcases Machine.step_cases (pumps decode capacity n) c choice with heq | ⟨t, s, t', started, ht, hact, heq⟩
    · rw [heq]
      exact ⟨p, hp⟩
    · obtain ⟨rfl, hacts⟩ := acts_of_act hact
      rw [heq]
      dsimp only
      rw [List.append_nil]
      by_cases hown : choice.1 = i
      · subst hown
        rw [ht] at hp
        obtain ⟨p', rfl⟩ := producer_of_acts hacts ⟨p, Option.some.inj hp⟩
        exact ⟨p', List.getElem?_set_self (List.getElem?_eq_some_iff.1 ht).1⟩
      · rw [List.getElem?_set_ne hown]
        exact ⟨p, hp⟩
  · refine ⟨{ state := some d }, ?_⟩
    unfold start
    dsimp only
    rw [List.getElem?_append, List.length_replicate, if_pos hi, List.getElem?_replicate, if_pos hi]

theorem proves (decode : Decoder δ ε α) (capacity n : Nat) (d : δ) :
    (pumps decode capacity n).Proves (fun _ => True) (Open capacity n) (Sound decode n d) where
  shared _ hs ht h := acts_open hs ht (acts_of_act h).2
  own _ hs ht h := acts_own hs ht (acts_of_act h).2
  started _ _ _ h u hu := by
    rw [(acts_of_act h).1] at hu
    cases hu
  others _ _ _ hu hij h := acts_others hu hij (acts_of_act h).2

/-! ## What the receiver has -/

variable (decode capacity n d) in
/-- **What the receiver has of each producer.** -/
structure Delivered (c : Threads (Channel α) (Task δ ε α)) : Prop where
  room : c.shared.queue.length ≤ capacity
  known : ∀ x ∈ c.shared.received, x.1 < n
  each : ∀ i < n, ∃ p, c.tasks[i]? = some (.producer p) ∧
    itemsOf i c.shared.received <+: (produced decode d p.history).1 ∧
    (c.shared.disconnected = true →
      itemsOf i c.shared.received = (produced decode d p.history).1 ∧ (produced decode d p.history).2 = none)

theorem Pumping.delivered {s : Channel α} {i : Nat} {p : Producer δ ε α} (h : Pumping decode n d s i p)
    (hs : Open capacity n s) : itemsOf i s.received <+: (produced decode d p.history).1 ∧
      (s.disconnected = true →
        itemsOf i s.received = (produced decode d p.history).1 ∧ (produced decode d p.history).2 = none) := by
  refine ⟨((List.prefix_append _ _).trans (List.prefix_append _ _)).trans h.some_sent, fun hended => ?_⟩
  obtain ⟨hempty, hclosed⟩ := hs.ended hended
  obtain ⟨hpending, hstate⟩ := h.done (h.closed.1 (hclosed i h.known))
  obtain ⟨hsent, hgoes⟩ := h.all_sent (.inr (.inl hended))
  unfold sent at hsent
  rw [hempty, hpending, itemsOf_nil, List.append_nil, List.append_nil] at hsent
  exact ⟨hsent, by rw [← hgoes, hstate]⟩

/-- The invariant holds at the start. -/
theorem holds_start : Machine.Holds (Open capacity n) (Sound decode n d) (start n d) := by
  refine ⟨⟨Nat.zero_le _, fun x hx => ?_, fun hended => ?_⟩, fun i t ht => ?_⟩
  · cases hx
  · cases hended
  · unfold start at ht
    dsimp only at ht
    rw [List.getElem?_append, List.length_replicate] at ht
    by_cases hi : i < n
    · rw [if_pos hi, List.getElem?_replicate, if_pos hi] at ht
      cases ht
      refine ⟨hi, List.nil_prefix, fun _ => ⟨rfl, rfl⟩, fun hclosed => ?_, by simp [start]⟩
      cases hclosed
    · rw [if_neg hi] at ht
      rw [List.mem_singleton.1 (List.mem_of_getElem? ht)]
      trivial

/-- **Every interleaving delivers what was produced.** -/
theorem delivered (decode : Decoder δ ε α) (capacity n : Nat) (d : δ) (choices : List (Nat × Answer ε)) :
    Delivered decode capacity n d ((pumps decode capacity n).run (start n d) choices) := by
  have hholds : Machine.Holds (Open capacity n) (Sound decode n d)
      ((pumps decode capacity n).run (start n d) choices) :=
    (proves decode capacity n d).run (fun _ _ => trivial) holds_start
  have hproducers := producers_run decode capacity n d choices
  generalize (pumps decode capacity n).run (start n d) choices = c at hholds hproducers
  refine ⟨hholds.shared.room, fun x hx => hholds.shared.known x (List.mem_append_left _ hx), fun i hi => ?_⟩
  obtain ⟨p, hp⟩ := hproducers i hi
  have hpumping : Pumping decode n d c.shared i p := hholds.each i _ hp
  exact ⟨p, hp, hpumping.delivered hholds.shared⟩

end Invariant

end Pumps
