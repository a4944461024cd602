import ServiceSteward.Frame
/-!
# Shutdown — what holds once the child has exited

`Lasting R P` says that `P` holds when the child was seen exited or was waited for, and that nothing else undoes it.
Then it holds whenever `shutdown_and_drain` returns (`Lasting.shutdown`), whichever way that took.
-/
namespace Jss
namespace Supervisor

open Scripted

/-- A property that the exit of the child brings about for good. -/
structure Lasting (R : Sys → Sys → Prop) (P : Sys → Prop) : Prop where
  stable : ∀ s t, R s t → P s → P t
  seen : ∀ site s, (tryWait site s).All (fun r t => r ≠ none → P t) (fun _ _ => True) (fun _ => True)
  waited : ∀ s, (wait s).All (fun _ => P) (fun _ _ => True) (fun _ => True)

theorem lasting_true (R : Sys → Sys → Prop) : Lasting R (fun _ => True) where
  stable _ _ _ h := h
  seen site s := (tryWait site s).all_true.mono (fun _ _ _ _ => trivial) (fun _ _ h => h) (fun _ h => h)
  waited s := (wait s).all_true

variable {R : Sys → Sys → Prop} {P : Sys → Prop}

/-- A program after one that may have brought the property about. -/
theorem lasting_bind {α β : Type} {p : Run α} {f : α → Run β} {C : α → Prop} {Q : β → Sys → Prop} {s : Sys}
    (hp : (p s).All (fun a t => C a → P t) (fun _ _ => True) (fun _ => True))
    (hf : ∀ a t, (C a → P t) → ((f a) t).All Q (fun _ _ => True) (fun _ => True)) :
    ((p >>= f) s).All Q (fun _ _ => True) (fun _ => True) := by
  rw [all_bind]
  exact hp.mono hf (fun _ _ h => h) (fun _ h => h)

/-- A program after one that has nothing to do with the property. -/
theorem lasting_skip {α β : Type} {p : Run α} {f : α → Run β} {Q : β → Sys → Prop} {s : Sys}
    (hf : ∀ a t, ((f a) t).All Q (fun _ _ => True) (fun _ => True)) :
    ((p >>= f) s).All Q (fun _ _ => True) (fun _ => True) := by
  rw [all_bind]
  exact (p s).all_true.mono (fun a t _ => hf a t) (fun _ _ h => h) (fun _ h => h)

theorem Lasting.keeps (l : Lasting R P) {α : Type} {p : Run α} (h : Keeps R p) {s : Sys} (hs : P s) :
    (p s).All (fun _ => P) (fun _ _ => True) (fun _ => True) :=
  (h s).mono (fun _ t ht => l.stable s t ht hs) (fun _ _ _ => trivial) (fun _ _ => trivial)

section Lasting

variable [Draining R] (l : Lasting R P) (sup : Supervisor)
include l

theorem Lasting.terminateChild (s : Sys) :
    (terminateChild s).All (fun _ => P) (fun _ _ => True) (fun _ => True) := by
  unfold Supervisor.terminateChild
  refine lasting_bind (l.seen .terminating s) (fun r t _ => ?_)
  split
  · exact lasting_skip (fun _ u => l.waited u)
  · exact l.waited t

theorem Lasting.waitForExit (timeout : Duration) (s : Sys) :
    (waitForExit sup timeout s).All (fun b t => b = true → P t) (fun _ _ => True) (fun _ => True) := by
  unfold Supervisor.waitForExit
  refine lasting_skip (fun now t => ?_)
  unfold repeatFrom
  refine all_iterate (I := fun _ _ => True) (fun _ u _ => ?_) (fun _ _ _ => trivial) _ _ _ trivial
  unfold waitTurn
  refine lasting_bind (l.seen .waiting u) (fun r v hv => ?_)
  cases r with
  | some code =>
    simp only
    rw [all_bind]
    exact (l.keeps (keeps_drainRemainingOutput sup) (hv (by simp))).mono (fun _ _ hw _ => hw) (fun _ _ h => h)
      (fun _ h => h)
  | none =>
    refine lasting_skip (fun now w => ?_)
    split
    · intro hb
      cases hb
    · exact lasting_skip (fun _ _ => trivial)

theorem Lasting.terminateForcibly (s : Sys) :
    (terminateForcibly sup s).All (fun _ => P) (fun _ _ => True) (fun _ => True) := by
  unfold Supervisor.terminateForcibly
  refine lasting_skip (fun _ t => ?_)
  rw [all_bind]
  exact (l.terminateChild t).mono (fun _ u hu => l.keeps (keeps_drainRemainingOutput sup) hu) (fun _ _ h => h)
    (fun _ h => h)

theorem Lasting.afterTimeout (s : Sys) :
    (afterTimeout sup s).All (fun _ => P) (fun _ _ => True) (fun _ => True) := by
  unfold Supervisor.afterTimeout
  refine lasting_skip (fun _ t => ?_)
  split
  · refine lasting_skip (fun _ u => ?_)
    refine lasting_skip (fun requested v => ?_)
    split
    · refine lasting_bind (l.waitForExit sup _ v) (fun exited w hw => ?_)
      split
      · exact hw ‹_›
      · exact l.terminateForcibly sup w
    · exact l.terminateForcibly sup v
  · exact l.terminateForcibly sup t

/-- **What the exit brings about holds after every shutdown.** -/
theorem Lasting.shutdown (exitCode : Int) (s : Sys) :
    (shutdownAndDrain sup exitCode s).All (fun _ => P) (fun _ _ => True) (fun _ => True) := by
  unfold shutdownAndDrain
  refine lasting_bind (l.seen .shutdown s) (fun r t ht => ?_)
  cases r with
  | some code => exact l.keeps (keeps_drainRemainingOutput sup) (ht (by simp))
  | none =>
    refine lasting_skip (fun sent u => ?_)
    split
    · refine lasting_bind (l.waitForExit sup _ u) (fun exited v hv => ?_)
      split
      · exact hv ‹_›
      · exact l.afterTimeout sup v
    · rw [all_bind]
      exact (l.terminateChild u).mono (fun _ v hv => l.keeps (keeps_drainRemainingOutput sup) hv) (fun _ _ h => h)
        (fun _ h => h)

end Lasting

end Supervisor
end Jss
