import ServiceSteward.Loop
/-!
# Onward — time passes, and the script is used up

Whatever the supervisor does, its clock does not go back and its script does not grow.  Every operation that asks the
environment takes an answer, so a loop whose turns ask never runs out of turns before it runs out of script.
-/
namespace Jss
namespace Supervisor

open Scripted

/-- A later moment of the same run. -/
structure Onward (s t : Sys) : Prop where
  clock : s.clock ≤ t.clock
  script : t.script.length ≤ s.script.length

theorem onward_of_eq {s t : Sys} (h : t.clock = s.clock) (h' : t.script = s.script) : Onward s t := by
  refine ⟨?_, ?_⟩
  · rw [h]
  · rw [h']

theorem onward_note (s : Sys) (o : Obs) : Onward s (s.note o) := onward_of_eq rfl rfl

theorem onward_move (s : Sys) (m : Move) : Onward s (s.move m) := by
  cases m with
  | elapse d => exact ⟨Nat.le_add_right _ _, Nat.le_refl _⟩
  | output line => simp only [Sys.move]; split <;> exact onward_of_eq rfl rfl
  | deliver event => simp only [Sys.move]; split <;> exact onward_of_eq rfl rfl
  | exit code => simp only [Sys.move]; split <;> exact onward_of_eq rfl rfl
  | dumped worker result => simp only [Sys.move]; split <;> exact onward_of_eq rfl rfl
  | _ => exact onward_of_eq rfl rfl

instance : Kept Onward where
  refl _ := onward_of_eq rfl rfl
  trans _ _ _ h h' := ⟨h.clock.trans h'.clock, h'.script.trans h.script⟩
  same h := ⟨h.clock, h.script⟩
  move := onward_move
  note s o _ := onward_note s o
  sent s _ _ := onward_note s _
  sendFailed s := onward_note s _
  drop _ _ _ := onward_of_eq rfl rfl
  killed s := onward_note s _
  reaped s := onward_note s _
  reap _ _ _ := onward_of_eq rfl rfl
  worker _ _ := onward_of_eq rfl rfl
  task _ _ := onward_of_eq rfl rfl
  dumping s _ _ := onward_note s _
  nextPing _ _ := onward_of_eq rfl rfl
  answered _ _ := onward_of_eq rfl rfl
  check s _ := onward_note s _
  took s _ _ _ _ := onward_note s _
  recorded s _ := onward_note s _
  published s _ := onward_note s _
  waited s _ _ _ := onward_note s _
  batch s _ := onward_note s _
  held _ _ := onward_of_eq rfl rfl
  join _ _ _ _ := onward_of_eq rfl rfl

theorem ask_onward (s : Sys) : (ask s).All (fun _ t => Onward s t ∧ t.script.length < s.script.length)
    (fun _ _ => False) (Onward s) := by
  unfold ask
  cases hs : s.script with
  | nil => exact refl_of Onward s
  | cons a rest =>
    have hmoves := frame_moves (R := Onward) a.moves { s with script := rest }
    have hless : (a.moves.foldl Sys.move { s with script := rest }).script.length < (a :: rest).length :=
      Nat.lt_succ_of_le hmoves.script
    refine ⟨⟨hmoves.clock, ?_⟩, hless⟩
    rw [hs]
    exact Nat.le_of_lt hless

theorem now_onward (s : Sys) :
    (now s).All (fun now t => Onward s t ∧ t.script.length < s.script.length ∧ t.clock = now) (fun _ _ => False)
      (Onward s) := by
  unfold now
  rw [all_bind]
  exact (ask_onward s).mono (fun _ t ht => ⟨ht.1, ht.2, rfl⟩) (fun _ _ h => h) (fun _ h => h)

theorem onward_selected {s t : Sys} {arm : Arm} (h : Selected s arm t) : Onward s t := by
  cases h with
  | _ => exact onward_of_eq rfl rfl

/-- What comes after a moment is kept wherever a run goes on from there. -/
theorem carried_onward (s : Sys) : Carried Onward (Onward s) (Onward s) (Onward s) :=
  ⟨fun _ _ h h' => trans_of Onward h h', fun _ h => h, fun _ h => h⟩

theorem keeps_eventLoop_onward (sup : Supervisor) : Keeps Onward (eventLoop sup) := by
  intro s
  refine (all_eventLoop_of (I := Onward s) (D := fun _ _ => True) (fun _ _ h h' => trans_of Onward h h') ?_
    (turn_serve_kept sup) s (refl_of Onward s)).mono (fun _ _ h => h.1) (fun _ _ h => h) (fun _ h => h)
  exact fun t arm u ht hsel => trans_of Onward ht (onward_selected hsel)

theorem keeps_runOnce_onward (sup : Supervisor) (jvmId : Nat) (resuming : Bool) :
    Keeps Onward (runOnce sup jvmId resuming) := by
  intro s
  have hI := carried_onward s
  have hafter : ∀ t u : Sys, Onward s t → u.clock = t.clock → u.script = t.script → Onward s u :=
    fun _ _ h hc hs => trans_of Onward h (onward_of_eq hc hs)
  refine all_runOnce hI hI hI (fun t h => hafter t _ h rfl rfl) (fun t h => hafter t _ h rfl rfl)
    (fun t h => hafter t _ h rfl rfl) (fun _ _ h => h) (fun t command key pid launchedAt now h => ?_) s
    (refl_of Onward s)
  have hstart : Onward s { t with run := .launched sup jvmId resuming command key pid launchedAt now } :=
    hafter t _ h rfl rfl
  refine (keeps_eventLoop_onward sup _).mono (fun _ u hu => ?_) (fun _ u hu => ?_) (fun u hu => ?_)
  · exact hafter u _ (trans_of Onward hstart hu) rfl rfl
  · exact trans_of Onward hstart hu
  · exact trans_of Onward hstart hu

end Supervisor
end Jss
