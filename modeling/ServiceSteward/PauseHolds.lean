import ServiceSteward.OutputLines
import ServiceSteward.PausedState
/-!
# PauseHolds — what a pause holds back

A pause is in force from the moment a `Pause` control is read until a `Resume` is.  Where the event loop pauses by
stopping the JVM, the run waits for the resumption before it goes on.  A `Pause` that is read during a delay is thrown
away, and a JVM paused in place can still exit, or report started: such a pause is loose.
-/
namespace Jss
namespace Supervisor

open Protocol (Packet ReceiveEvent STARTED)
open Scripted

/-- The pause in force: whether there is one, and whether nothing makes the supervisor wait for its end. -/
structure Pausing where
  paused : Bool := false
  loose : Bool := false
  deriving DecidableEq, Repr

/-- Whether reading a `Pause` there leaves it loose. -/
def Supervisor.loosens (sup : Supervisor) : ControlSite → Bool
  | .eventLoop => !sup.ends .pause
  | .restartDelay => true
  | .paused => false

/-- The pause in force, control by control. -/
def pausing (sup : Supervisor) : Monitor Pausing Obs where
  start := {}
  step x
    | .control site (some .pause) => { paused := true, loose := x.loose || sup.loosens site }
    | .control _ (some .resume) => {}
    | _ => x

/-- A JVM is launched, or reported started. -/
def Obs.goes : Obs → Bool
  | .spawned _ | .published (.jvmStarted _ _) => true
  | _ => false

/-- A delay runs out, or the JVM's report that it is started is read. -/
def Obs.opens : Obs → Bool
  | .delayOver => true
  | .received (some (.packet packet)) => packet.code = STARTED
  | _ => false

/-- Nothing is launched and nothing reported started while a pause is in force. -/
def PauseKept (sup : Supervisor) : List Obs → Prop := (pausing sup).Always (fun x o => o.goes = true → x.paused = false)

/-- No delay runs out and no report of a start is read while a loose pause is in force. -/
def NoLoosePause (sup : Supervisor) : List Obs → Prop :=
  (pausing sup).Always (fun x o => o.opens = true → x.loose = false)

/-- What a run that meets the condition keeps. -/
def PauseHolds (sup : Supervisor) (s : Sys) : Prop := NoLoosePause sup s.trace → PauseKept sup s.trace

/-! ## What leaves a pause alone -/

/-- Neither a control that counts, nor anything a pause holds back or lets go. -/
def Obs.still (o : Obs) : Prop :=
  (∀ sup x, (pausing sup).step x o = x) ∧ o.goes = false ∧ o.opens = false

/-- And a JVM that reports started. -/
def Obs.steady (o : Obs) : Prop := (∀ sup x, (pausing sup).step x o = x) ∧ o.opens = false

theorem Obs.still.steady {o : Obs} (h : o.still) : o.steady := ⟨h.1, h.2.2⟩

instance : Unstarted Obs.still where
  plain o h := by
    cases o with
    | published kind =>
      cases kind with
      | jvmStarted id pid => cases h
      | _ => exact ⟨fun _ _ => rfl, rfl, rfl⟩
    | control site control => exact h.elim
    | spawned id => exact h.elim
    | received event => exact h.elim
    | delayOver => exact h.elim
    | _ => exact ⟨fun _ _ => rfl, rfl, rfl⟩
  delivered _ := ⟨fun _ _ => rfl, rfl, rfl⟩
  dropped _ := ⟨fun _ _ => rfl, rfl, rfl⟩
  told kind h := by
    cases kind with
    | jvmStarted id pid => exact absurd rfl (h id pid)
    | _ => exact ⟨fun _ _ => rfl, rfl, rfl⟩
  waited _ _ _ := ⟨fun _ _ => rfl, rfl, rfl⟩
  took _ _ := ⟨fun _ _ => rfl, rfl, rfl⟩
  recorded _ := ⟨fun _ _ => rfl, rfl, rfl⟩
  connected := ⟨fun _ _ => rfl, rfl, rfl⟩

instance : Unstarted Obs.steady where
  plain o h := (Quiet.plain (K := Obs.still) o h).steady
  delivered _ := (Quiet.delivered (K := Obs.still) _).steady
  dropped _ := (Quiet.dropped (K := Obs.still) _).steady
  told kind h := (Unstarted.told (K := Obs.still) kind h).steady
  waited _ _ _ := (Unstarted.waited (K := Obs.still) _ _ _).steady
  took _ _ := (Unstarted.took (K := Obs.still) _ _).steady
  recorded _ := (Unstarted.recorded (K := Obs.still) _).steady
  connected := (Unstarted.connected (K := Obs.still)).steady

/-- **A pause, and what is known of it**, in a run that meets the condition so far. -/
def Held (sup : Supervisor) (Q : Pausing → Prop) (s : Sys) : Prop :=
  NoLoosePause sup s.trace → PauseKept sup s.trace ∧ Q ((pausing sup).after s.trace)

/-- A pause may be in force or not. -/
def Anyhow (_ : Pausing) : Prop := True

/-- No pause is in force. -/
def Free (x : Pausing) : Prop := x.paused = false

/-- The pause in force, if there is one, is loose. -/
def LooseOnly (x : Pausing) : Prop := x.paused = true → x.loose = true

theorem Free.looseOnly {x : Pausing} (h : Free x) : LooseOnly x := fun hpaused => by
  rw [h] at hpaused
  cases hpaused

theorem LooseOnly.free {x : Pausing} (h : LooseOnly x) (hloose : x.loose = false) : Free x := by
  cases hpaused : x.paused with
  | true =>
    rw [h hpaused] at hloose
    cases hloose
  | false => exact hpaused

section Held

variable {sup : Supervisor} {Q Q' : Pausing → Prop} {s t : Sys}

theorem Held.mono (h : Held sup Q s) (hQ : ∀ x, Q x → Q' x) : Held sup Q' s := fun hcond => (h hcond).imp_right (hQ _)

theorem Held.pauseHolds (h : Held sup Q s) : PauseHolds sup s := fun hcond => (h hcond).1

/-- **One observation.** -/
theorem Held.note {o : Obs} (h : Held sup Q s) (ht : t.trace = s.trace ++ [o])
    (ho : ∀ x, Q x → (o.opens = true → x.loose = false) →
      (o.goes = true → x.paused = false) ∧ Q' ((pausing sup).step x o)) : Held sup Q' t := by
  unfold Held NoLoosePause PauseKept
  rw [ht, Monitor.always_concat, Monitor.always_concat, Monitor.after_concat]
  rintro ⟨hcond, hopens⟩
  obtain ⟨hkept, hQ⟩ := h hcond
  obtain ⟨hgoes, hQ'⟩ := ho _ hQ hopens
  exact ⟨⟨hkept, hgoes⟩, hQ'⟩

theorem Held.after (h : Held sup Q s) (hst : Emits Obs.still s t) : Held sup Q t := by
  obtain ⟨new, htrace, hnew⟩ := hst
  intro hcond
  rw [htrace] at hcond ⊢
  obtain ⟨hkept, hQ⟩ := h hcond.earlier
  refine ⟨hkept.append new (fun o ho x hgoes => ?_), ?_⟩
  · rw [(hnew o ho).2.1] at hgoes
    cases hgoes
  · rw [Monitor.after_append _ _ new (fun o ho => (hnew o ho).1 sup)]
    exact hQ

/-- While no pause is in force, a JVM may report started. -/
theorem Held.afterStarted (h : Held sup Free s) (hst : Emits Obs.steady s t) : Held sup Free t := by
  obtain ⟨new, htrace, hnew⟩ := hst
  intro hcond
  rw [htrace] at hcond ⊢
  obtain ⟨hkept, hfree⟩ := h hcond.earlier
  have hafter : ∀ new : List Obs, (∀ o ∈ new, o.steady) →
      (pausing sup).after (s.trace ++ new) = (pausing sup).after s.trace :=
    fun new hnew => Monitor.after_append _ _ new (fun o ho => (hnew o ho).1 sup)
  refine ⟨fun before o rest heq hgoes => ?_, ?_⟩
  · rcases List.append_eq_append_iff.1 heq with ⟨mid, rfl, hmid⟩ | ⟨mid, hmid, hrest⟩
    · rw [hafter mid (fun o' ho' => hnew o' (by rw [hmid]; exact List.mem_append_left _ ho'))]
      exact hfree
    · cases mid with
      | nil =>
        rw [List.append_nil] at hmid
        rw [← hmid]
        exact hfree
      | cons x mid =>
        obtain ⟨rfl, -⟩ := List.cons.inj hrest
        exact hkept before o mid hmid hgoes
  · rw [hafter new hnew]
    exact hfree

theorem Held.still {o : Obs} (h : Held sup Q s) (ht : t.trace = s.trace ++ [o]) (ho : o.still) : Held sup Q t :=
  h.after (emits_one ht ho)

end Held

/-! ## One JVM -/

section Run

variable (sup : Supervisor)

/-- The trace grows by observations of a kind, and a JVM is paused in place only where that is how it is paused. -/
abbrev Grows (K : Obs → Prop) : Sys → Sys → Prop := Both (Emits K) (Preserves (NotInPlace sup))

theorem notInPlace_of_same {s t : Sys} (h : t.run.pausedInPlace = s.run.pausedInPlace) (hs : NotInPlace sup s) :
    NotInPlace sup t := by
  intro hstops
  rw [h]
  exact hs hstops

instance : Frame (Preserves (NotInPlace sup)) where
  same _ _ _ hp h := notInPlace_of_same sup hp h
  move s m h := by
    refine notInPlace_of_same sup ?_ h
    cases m with
    | deliver event => simp only [Sys.move]; split <;> rfl
    | output line => simp only [Sys.move]; split <;> rfl
    | exit code => simp only [Sys.move]; split <;> rfl
    | dumped worker result => simp only [Sys.move]; split <;> rfl
    | _ => rfl
  note _ _ _ h := h
  drop _ _ _ h := h
  reap _ _ _ h := h

instance : Draining (Preserves (NotInPlace sup)) where
  took _ _ _ _ _ h := h
  recorded _ _ h := h

/-- A turn adds nothing that counts, unless it serves the report of a start. -/
theorem turn_grows {K : Obs → Prop} [Unstarted K] (arm : Arm)
    (hstarted : ∀ packet, arm = .protocol (some (.packet packet)) → packet.code = STARTED →
      ∀ id pid, K (.published (.jvmStarted id pid))) :
    Turn (.all (Grows sup K)) (fun _ _ => True) (serve sup arm) := by
  have hnote : ∀ (s : Sys) (o : Obs), K o → Grows sup K s (s.note o) := fun s o ho => ⟨emits_one rfl ho, fun h => h⟩
  have c : Closing sup (.all (Grows sup K)) (fun _ => True) (fun _ _ => True) := by
    refine closing_all (lasting_true _) sup (fun s kind h => hnote s _ (Unstarted.told kind h)) (fun hstops s => ?_)
      (fun s => ⟨emits_of_trace rfl, fun _ _ => rfl⟩) (fun s events now _ => ?_)
      (fun s _ _ => hnote s _ (Unstarted.waited _ _ _))
    · refine ⟨emits_of_trace rfl, fun _ hstop => ?_⟩
      rw [hstops] at hstop
      cases hstop
    · exact ⟨emits_join Unstarted.connected Quiet.delivered s events now, fun h => h⟩
  refine turn_serve c arm (fun line _ => turn_handleOutputBatch c (fun s _ => hnote s _ (Unstarted.took _ _)) line)
    (fun packet harm hcode => keeps_handleStarted c (fun s id pid => hnote s _ (hstarted packet harm hcode id pid)))
    (fun _ => turn_tick_all (lasting_true _) sup c (fun s _ _ => hnote s _ (Unstarted.waited _ _ _)))

/-- Pausing by stopping the JVM ends the run with a pause. -/
theorem handleControl_pauses (h : sup.ends .pause = true) {s : Sys} (hs : NotInPlace sup s) :
    (handleControl sup .pause s).All (fun r _ => r = some .pause) (fun _ _ => True) (fun _ => True) := by
  obtain ⟨hpausable, hstops⟩ := Bool.and_eq_true_iff.1 h
  unfold handleControl getRun
  simp only [all_bind, all_get, all_pure]
  rw [hpausable, hs hstops]
  change Outcome.All _ _ _ (pause sup s)
  unfold pause
  rw [if_pos hstops]
  exact returns_bind (P := (· = some RunOutcome.pause)) (fun _ => returns_bind (fun _ => returns_pure rfl)) s

/-- Between two turns of the event loop. -/
def BetweenTurns (s : Sys) : Prop := Held sup LooseOnly s ∧ NotInPlace sup s

/-- What a launch leaves. -/
def HeldAfter (o : RunOutcome) (s : Sys) : Prop := Held sup Anyhow s ∧ (o ≠ .pause → Held sup LooseOnly s)

theorem held_after {s : Sys} (h : Held sup LooseOnly s) (o : RunOutcome) : HeldAfter sup o s :=
  ⟨h.mono (fun _ _ => trivial), fun _ => h⟩

/-- A turn that a pause in force does not concern. -/
theorem serve_still {s : Sys} {arm : Arm} (h : BetweenTurns sup s)
    (harm : ∀ packet, arm = .protocol (some (.packet packet)) → packet.code ≠ STARTED) :
    (serve sup arm s).All (fun r t => match r with | none => BetweenTurns sup t | some o => HeldAfter sup o t)
      (fun _ => Held sup Anyhow) (Held sup Anyhow) := by
  refine (turn_grows sup (K := Obs.still) arm (fun packet h hcode => absurd hcode (harm packet h)) s).mono
    (fun r t ht => ?_) (fun _ t ht => (h.1.after ht.1).mono (fun _ _ => trivial))
    (fun t ht => (h.1.after ht.1).mono (fun _ _ => trivial))
  cases r with
  | none => exact ⟨h.1.after ht.1, ht.2 h.2⟩
  | some o => exact held_after sup (h.1.after ht.1.1) o

theorem eventLoop_holds {s : Sys} (h : BetweenTurns sup s) :
    (eventLoop sup s).All (HeldAfter sup) (fun _ => Held sup Anyhow) (Held sup Anyhow) := by
  refine all_eventLoop (I := BetweenTurns sup) (fun t ht => ?_) (fun t ht => ht.1.mono (fun _ _ => trivial)) s
    (fun next => h)
  refine (select_spec (R := Grows sup Obs.still) t).mono (fun arm v hv => ?_) (fun _ _ h => h.elim)
    (fun u hu => (ht.1.after hu.1).mono (fun _ _ => trivial))
  obtain ⟨u, hu, hsel⟩ := hv
  have hheld := ht.1.after hu.1
  have hin := hu.2 ht.2
  have hnote : ∀ {w : Sys} {o : Obs}, w.trace = u.trace ++ [o] → w.run.pausedInPlace = u.run.pausedInPlace → o.still →
      BetweenTurns sup w := fun hw hp ho => ⟨hheld.still hw ho, notInPlace_of_same sup hp hin⟩
  cases hsel with
  | line line rest _ => exact serve_still sup (hnote rfl rfl ⟨fun _ _ => rfl, rfl, rfl⟩) (by simp)
  | outputClosed => exact serve_still sup ⟨hheld, hin⟩ (by simp)
  | controlsClosed => exact serve_still sup (hnote rfl rfl ⟨fun _ _ => rfl, rfl, rfl⟩) (by simp)
  | channelClosed _ => exact serve_still sup (hnote rfl rfl ⟨fun _ _ => rfl, rfl, rfl⟩) (by simp)
  | tick next => exact serve_still sup ⟨hheld, hin⟩ (by simp)
  | event event rest _ =>
    by_cases hstarted : ∃ packet, event = .packet packet ∧ packet.code = STARTED
    · -- the pause in force is not a loose one, so there is none
      obtain ⟨packet, rfl, hcode⟩ := hstarted
      have hfree : Held sup Free ({ u with run := { u.run with connection := some rest } }.note
          (.received (some (.packet packet)))) := by
        refine hheld.note rfl (fun x hx hopens => ⟨by simp [Obs.goes], ?_⟩)
        exact LooseOnly.free hx (hopens (by simpa [Obs.opens] using hcode))
      have hin' := notInPlace_of_same sup (t := { u with run := { u.run with connection := some rest } }.note
          (.received (some (.packet packet)))) rfl hin
      refine (turn_grows sup (K := Obs.steady) _ (fun _ _ _ _ _ => ⟨fun _ _ => rfl, rfl⟩) _).mono (fun r w hw => ?_)
        (fun _ w hw => (hfree.afterStarted hw.1).mono (fun _ _ => trivial))
        (fun w hw => (hfree.afterStarted hw.1).mono (fun _ _ => trivial))
      have hafter := (hfree.afterStarted (Ways.relates hw).1).mono (fun _ => Free.looseOnly)
      cases r with
      | none => exact ⟨hafter, hw.2 hin'⟩
      | some o => exact held_after sup hafter o
    · refine serve_still sup (hnote rfl rfl ⟨fun _ _ => rfl, rfl, ?_⟩) (fun packet harm hcode => ?_)
      · cases event with
        | disconnected => rfl
        | packet packet => simpa [Obs.opens] using fun hcode => hstarted ⟨packet, rfl, hcode⟩
      · cases harm
        exact hstarted ⟨packet, rfl, hcode⟩
  | control c rest _ =>
    cases c with
    | pause =>
      cases hends : sup.ends .pause with
      | true =>
        have hheld' : Held sup Anyhow ({ u with controls := rest }.note (.control .eventLoop (some .pause))) :=
          hheld.note rfl (fun x hx hopens => ⟨by simp [Obs.goes], trivial⟩)
        refine ((turn_grows sup (K := Obs.still) (.control (some .pause)) (by simp)
          ({ u with controls := rest }.note (.control .eventLoop (some .pause)))).and
          (handleControl_pauses sup hends (notInPlace_of_same sup rfl hin))).mono (fun r w hw => ?_)
          (fun _ w hw => hheld'.after hw.1.1) (fun w hw => hheld'.after hw.1.1)
        obtain ⟨hturn, rfl⟩ := hw
        exact ⟨hheld'.after hturn.1.1, fun hne => absurd rfl hne⟩
      | false =>
        refine serve_still sup ⟨hheld.note rfl (fun x hx hopens => ⟨by simp [Obs.goes], fun _ => ?_⟩), ?_⟩ (by simp)
        · simp [pausing, Supervisor.loosens, hends]
        · exact notInPlace_of_same sup rfl hin
    | resume =>
      refine serve_still sup ⟨hheld.note rfl (fun x hx hopens => ⟨by simp [Obs.goes], ?_⟩), ?_⟩ (by simp)
      · exact Free.looseOnly rfl
      · exact notInPlace_of_same sup rfl hin
    | _ => exact serve_still sup (hnote rfl rfl ⟨fun _ _ => rfl, rfl, rfl⟩) (by simp)

theorem carried_held (Q : Pausing → Prop) : Carried (Emits Obs.still) (Held sup Q) (Held sup Anyhow)
    (Held sup Anyhow) :=
  ⟨fun _ _ h hst => h.after hst, fun _ h => h.mono (fun _ _ => trivial), fun _ h => h.mono (fun _ _ => trivial)⟩

theorem runOnce_holds (jvmId : Nat) (resuming : Bool) {s : Sys} (h : Held sup Free s) :
    (runOnce sup jvmId resuming s).All (HeldAfter sup) (fun _ => Held sup Anyhow)
      (Held sup Anyhow) := by
  refine all_runOnce (carried_held sup Free) (carried_held sup Free) (carried_held sup Free) (fun _ h => h)
    (fun t h => ?_) (fun t h => ?_) (fun t _ h => held_after sup (h.mono (fun _ => Free.looseOnly)) _) ?_ s h
  · exact h.note rfl (fun x hx _ => ⟨fun _ => hx, hx⟩)
  · exact h.still (o := .spawnFailed jvmId) rfl ⟨fun _ _ => rfl, rfl, rfl⟩
  · exact fun t command key pid launchedAt now h => eventLoop_holds sup ⟨h.mono (fun _ => Free.looseOnly), fun _ => rfl⟩

/-! ## The whole run -/

/-- The phases of a run, as far as a pause is in force: none before a launch, and only a loose one during a delay. -/
def holding : Phases where
  ready _ := Held sup Free
  ended _ := HeldAfter sup
  paused _ := Held sup Anyhow
  delayed _ := Held sup LooseOnly
  closing _ := Held sup Anyhow

theorem Held.heard {Q Q' : Pausing → Prop} {s t : Sys} {site : ControlSite} {control : Option Control}
    (h : Held sup Q s) (hc : Heard site s control t)
    (hstep : ∀ x, Q x → Q' ((pausing sup).step x (.control site control))) : Held sup Q' t := by
  have hnote : ∀ x, Q x → ((Obs.control site control).opens = true → x.loose = false) →
      ((Obs.control site control).goes = true → x.paused = false) ∧
        Q' ((pausing sup).step x (.control site control)) := fun x hx _ => ⟨by simp [Obs.goes], hstep x hx⟩
  cases hc with
  | item c rest _ => exact h.note rfl hnote
  | closed => exact h.note rfl hnote

theorem holding_laws : (holding sup).Laws sup (Emits Obs.still) (fun _ => Held sup Anyhow)
    (Held sup Anyhow) (Held sup Anyhow) where
  carriedReady _ := carried_held sup Free
  carriedPaused _ := carried_held sup Anyhow
  carriedDelayed _ := carried_held sup LooseOnly
  carriedOver _ := carried_held sup Anyhow
  pauseFirst s h := (Held.still h rfl (Unstarted.told (K := Obs.still) .servicePaused (by simp))).mono (fun _ _ => trivial)
  file _ _ _ h := h
  launching _ _ h := Held.still h rfl (Unstarted.told (K := Obs.still) _ (by simp))
  launch vars s h := runOnce_holds sup vars.jvmId vars.resuming h
  exit vars elapsed code s h := held_after sup ((h.2 (by simp)).still rfl ⟨fun _ _ => rfl, rfl, rfl⟩) _
  stop _ _ _ h := h.1
  pause _ _ h := h.1
  disabled _ _ _ _ _ h _ := h.1
  gaveUp _ _ _ _ _ h _ _ := h.1
  retry _ _ _ _ _ h _ _ := h.2 (by simp)
  waits _ _ h := @Held.still sup Anyhow _ _ _ h rfl ⟨fun _ _ => rfl, rfl, rfl⟩
  heardPaused vars s control t h hc := by
    have hover : Held sup Anyhow t := Held.heard (Q := Anyhow) sup h hc (fun _ _ => trivial)
    cases control with
    | none => exact hover
    | some c =>
      cases c with
      | resume => exact Held.heard (Q := Anyhow) sup h hc (fun _ _ => rfl)
      | _ => exact hover
  delay _ _ h := h.mono (fun _ => Free.looseOnly)
  heardDelayed vars s control t h hc := by
    have hover : Held sup Anyhow t := Held.heard sup h hc (fun _ _ => trivial)
    cases control with
    | none => exact hover
    | some c =>
      cases c with
      | stop => exact hover
      | consoleInterrupt => exact hover
      | pause => exact Held.heard sup h hc (fun x _ _ => by simp [pausing, Supervisor.loosens])
      | resume => exact Held.heard sup h hc (fun _ _ => Free.looseOnly rfl)
      | _ => exact Held.heard sup h hc (fun _ hx => hx)
  elapsed _ s h := Held.note h rfl (fun x hx hopens => ⟨by simp [Obs.goes], LooseOnly.free hx (hopens rfl)⟩)
  finish _ s h := by
    have hmarker : Keeps (Emits Obs.still) (log .status .wrapper stoppedMarker) :=
      keeps_marker (fun _ => emits_one rfl ⟨fun _ _ => rfl, rfl, rfl⟩)
    exact (hmarker s).mono (fun _ _ ht => Held.after h ht) (fun _ _ ht => Held.after h ht)
      (fun _ ht => Held.after h ht)

end Run

/-- **A pause holds**: in every run, wherever it is cut short, if no delay runs out and no report of a start is read
while a loose pause is in force, no JVM is launched and none is reported started from the moment a `Pause` control is
read until a `Resume` is. -/
theorem pause_holds (sup : Supervisor) (script : List Answer) :
    (run sup { script := script }).All (fun _ => PauseHolds sup) (fun _ => PauseHolds sup) (PauseHolds sup) :=
  ((holding_laws sup).run (s := { script := script }) (fun _ => ⟨Monitor.always_nil, rfl⟩)).mono
    (fun _ _ h => h.pauseHolds) (fun _ _ h => h.pauseHolds) (fun _ h => h.pauseHolds)

/-- A launch fails, and a `Pause` comes during the restart delay. -/
def pausedInDelay : List Answer :=
  quiet 10 ++ [{ failure := some (.io .other) }] ++ quiet 4 ++
    [{ moves := [.control .pause] }, { moves := [.elapse (Duration.fromSecs 5)] }] ++ quiet 8

/-- The next JVM is launched while the pause is in force. -/
theorem pause_during_a_delay_is_lost :
    (pausing (.sample ⟨[("wrapper.pausable", "TRUE")], [], by decide⟩)).after
      (run (.sample ⟨[("wrapper.pausable", "TRUE")], [], by decide⟩) { script := pausedInDelay }).state.trace =
        { paused := true, loose := true } ∧
    (run (.sample ⟨[("wrapper.pausable", "TRUE")], [], by decide⟩) { script := pausedInDelay }).state.trace.getLast? =
      some (.spawned 2) := by
  decide +kernel

end Supervisor
end Jss
