import ServiceSteward.Loop
import ServiceSteward.Shutdown
/-!
# Lifecycle — one JVM at a time, and a last record

Between two launches no child is alive, no stop was read, and the attempts made so far had the ids 1, 2, 3, ...
(`Ready`).  One launch keeps it unless it ends the run: shutting down leaves no child alive (`lasting_down`), and a
stop read by the event loop ends the run with `Stop`.  From there `stopped` writes the marker and returns.
-/
namespace Jss
namespace Supervisor

open Protocol (Packet ReceiveEvent)
open Scripted

/-! ## Children -/

/-- The last child launched is not running. -/
def Down (s : Sys) : Prop := s.children.head? ≠ some .running

/-- No child but the last one is running. -/
def OneAtMost (s : Sys) : Prop := ∀ c ∈ s.children.tail, c ≠ .running

/-- No child is running. -/
def Idle (s : Sys) : Prop := ∀ c ∈ s.children, c ≠ .running

/-- How many children are alive. -/
def Sys.alive (s : Sys) : Nat := s.children.count .running

theorem idle_of_down {s : Sys} (h : OneAtMost s) (hd : Down s) : Idle s := by
  intro c hc
  unfold OneAtMost at h
  unfold Down at hd
  cases hs : s.children with
  | nil => rw [hs] at hc; cases hc
  | cons d older =>
    rw [hs] at hc h hd
    rcases List.mem_cons.1 hc with rfl | hc
    · rintro rfl
      exact hd rfl
    · exact h c hc

theorem alive_of_idle {s : Sys} (h : Idle s) : s.alive = 0 :=
  List.count_eq_zero.2 (fun hm => h .running hm rfl)

theorem alive_of_oneAtMost {s : Sys} (h : OneAtMost s) : s.alive ≤ 1 := by
  unfold Sys.alive
  unfold OneAtMost at h
  cases hs : s.children with
  | nil => simp
  | cons c older =>
    rw [hs] at h
    have hz : older.count .running = 0 := List.count_eq_zero.2 (fun hm => h .running hm rfl)
    rw [List.count_cons, hz]
    split <;> omega

/-- **A child that has exited stays so**, as long as no other is launched. -/
structure Lives (s t : Sys) : Prop where
  one : OneAtMost s → OneAtMost t
  down : Down s → Down t

theorem lives_of_children {s t : Sys} (h : t.children = s.children) : Lives s t := by
  refine ⟨fun hs => ?_, fun hs => ?_⟩
  · unfold OneAtMost
    rw [h]
    exact hs
  · unfold Down
    rw [h]
    exact hs

theorem lives_of_exit {s t : Sys} {older : List Child} {code : Option Int} (hs : s.children = .running :: older)
    (ht : t.children = .exited code :: older) : Lives s t := by
  refine ⟨fun h => ?_, fun _ => ?_⟩
  · unfold OneAtMost at h ⊢
    rw [hs] at h
    rw [ht]
    exact h
  · unfold Down
    rw [ht]
    simp

instance : Draining Lives where
  refl _ := ⟨id, id⟩
  trans _ _ _ h h' := ⟨fun hs => h'.one (h.one hs), fun hs => h'.down (h.down hs)⟩
  same _ h _ _ := lives_of_children h
  move s m := by
    cases m with
    | exit code =>
      simp only [Sys.move]
      split
      · exact lives_of_exit ‹_› rfl
      · exact lives_of_children rfl
    | deliver event => simp only [Sys.move]; split <;> exact lives_of_children rfl
    | output line => simp only [Sys.move]; split <;> exact lives_of_children rfl
    | dumped worker result => simp only [Sys.move]; split <;> exact lives_of_children rfl
    | _ => exact lives_of_children rfl
  note _ _ _ := lives_of_children rfl
  drop _ _ _ := lives_of_children rfl
  reap _ _ h := lives_of_exit h rfl
  took _ _ _ _ _ := lives_of_children rfl
  recorded _ _ := lives_of_children rfl

theorem tryWait_down (site : WaitSite) (s : Sys) :
    (tryWait site s).All (fun r t => r ≠ none → Down t) (fun _ _ => True) (fun _ => True) := by
  refine (tryWait_spec (R := Lives) site s).mono (fun r t ht hr => ?_) (fun _ _ _ => trivial) (fun _ _ => trivial)
  obtain ⟨u, -, rfl, hdown⟩ := ht
  exact hdown hr

theorem wait_down (s : Sys) : (wait s).All (fun _ => Down) (fun _ _ => True) (fun _ => True) := by
  unfold wait
  rw [all_bind]
  refine (keeps_attemptOutside (R := Lives) s).mono (fun _ t _ => ?_) (fun _ _ _ => trivial) (fun _ _ => trivial)
  rw [all_bind, all_modify]
  show Down _
  unfold Down
  cases hc : t.children with
  | nil => simp [Sys.note, hc]
  | cons c older =>
    cases c with
    | running => simp [Sys.note]
    | exited code => simp [Sys.note, hc]

theorem lasting_down : Lasting Lives Down := ⟨fun _ _ h => h.down, tryWait_down, wait_down⟩

theorem lasting_loose {K : Obs → Prop} : Lasting (Both (Emits K) Lives) Down :=
  ⟨fun _ _ h => h.2.down, tryWait_down, wait_down⟩

/-! ## What is observed between two launches -/

/-- A `Stop` or `ConsoleInterrupt` was read. -/
def Obs.stops : Obs → Prop
  | .control _ (some .stop) | .control _ (some .consoleInterrupt) => True
  | _ => False

/-- A JVM was launched, or could not be. -/
def Obs.launches : Obs → Prop
  | .spawned _ | .spawnFailed _ => True
  | _ => False

/-- Neither a launch nor the marker. -/
def Obs.between (o : Obs) : Prop := ¬ o.launches ∧ o ≠ Obs.marker

/-- Nor a stop. -/
def Obs.calm (o : Obs) : Prop := o.between ∧ ¬ o.stops

/-- The ids of the launch attempts. -/
def launchIds (trace : List Obs) : List Nat :=
  trace.filterMap (fun
    | .spawned id | .spawnFailed id => some id
    | _ => none)

/-- 1, 2, 3, ..., up to the largest `u32`. -/
def jvmIds (n : Nat) : List Nat := (List.range n).map (fun i => min (i + 1) Text.u32Max)

/-- A kind that has everything that serving a turn brings with it, but for the JVM reporting started. -/
class Unstarted (K : Obs → Prop) : Prop extends Quiet K where
  told : ∀ kind, (∀ id pid, kind ≠ .jvmStarted id pid) → K (.published kind)
  waited : ∀ site status unread, K (.waited site status unread)
  took : ∀ site lines, K (.took site lines)
  recorded : ∀ line, K (.recorded line)
  connected : K .connected

/-- A kind that has everything a running JVM brings with it, but for the controls. -/
class Loose (K : Obs → Prop) : Prop extends Unstarted K where
  started : ∀ id pid, K (.published (.jvmStarted id pid))
  received : ∀ event, K (.received event)

theorem Loose.published {K : Obs → Prop} [Loose K] (kind : EventKind) : K (.published kind) := by
  by_cases h : ∃ id pid, kind = .jvmStarted id pid
  · obtain ⟨id, pid, rfl⟩ := h
    exact Loose.started id pid
  · exact Unstarted.told kind (fun id pid heq => h ⟨id, pid, heq⟩)

theorem plain_calm (o : Obs) (h : o.plain) : o.calm := by
  cases o with
  | logged level source message => exact ⟨⟨id, h⟩, id⟩
  | published kind => exact ⟨⟨id, by simp [Obs.marker]⟩, id⟩
  | waited site status unread => exact ⟨⟨id, by simp [Obs.marker]⟩, id⟩
  | logFailed => exact ⟨⟨id, by simp [Obs.marker]⟩, id⟩
  | sent code message => exact ⟨⟨id, by simp [Obs.marker]⟩, id⟩
  | sendFailed => exact ⟨⟨id, by simp [Obs.marker]⟩, id⟩
  | killed => exact ⟨⟨id, by simp [Obs.marker]⟩, id⟩
  | reaped => exact ⟨⟨id, by simp [Obs.marker]⟩, id⟩
  | pingCheck check => exact ⟨⟨id, by simp [Obs.marker]⟩, id⟩
  | _ => exact h.elim

instance : Loose Obs.calm where
  plain := plain_calm
  delivered _ := ⟨⟨id, by simp [Obs.marker]⟩, id⟩
  dropped _ := ⟨⟨id, by simp [Obs.marker]⟩, id⟩
  told _ _ := ⟨⟨id, by simp [Obs.marker]⟩, id⟩
  started _ _ := ⟨⟨id, by simp [Obs.marker]⟩, id⟩
  waited _ _ _ := ⟨⟨id, by simp [Obs.marker]⟩, id⟩
  took _ _ := ⟨⟨id, by simp [Obs.marker]⟩, id⟩
  recorded _ := ⟨⟨id, by simp [Obs.marker]⟩, id⟩
  received _ := ⟨⟨id, by simp [Obs.marker]⟩, id⟩
  connected := ⟨⟨id, by simp [Obs.marker]⟩, id⟩

instance : Loose Obs.between where
  plain o h := (plain_calm o h).1
  delivered _ := (Quiet.delivered (K := Obs.calm) _).1
  dropped _ := (Quiet.dropped (K := Obs.calm) _).1
  told kind _ := (Loose.published (K := Obs.calm) kind).1
  started _ _ := (Loose.started (K := Obs.calm) _ _).1
  waited _ _ _ := (Unstarted.waited (K := Obs.calm) _ _ _).1
  took _ _ := (Unstarted.took (K := Obs.calm) _ _).1
  recorded _ := (Unstarted.recorded (K := Obs.calm) _).1
  received _ := (Loose.received (K := Obs.calm) _).1
  connected := (Unstarted.connected (K := Obs.calm)).1

instance {K : Obs → Prop} [Unstarted K] : Draining (Emits K) where
  took _ _ _ _ _ := emits_one rfl (Unstarted.took _ _)
  recorded _ _ := emits_one rfl (Unstarted.recorded _)

section Loose

variable {K : Obs → Prop} [Loose K]

/-- **Every turn leaves the JVM down if it ends the run.** -/
theorem closing_loose (sup : Supervisor) : Closing sup (.all (Both (Emits K) Lives)) Down (fun _ => Down) :=
  closing_all lasting_loose sup (fun _ _ _ => ⟨emits_one rfl (Loose.published _), lives_of_children rfl⟩)
    (fun _ _ => ⟨emits_of_trace rfl, lives_of_children rfl⟩) (fun _ => ⟨emits_of_trace rfl, lives_of_children rfl⟩)
    (fun s events now _ => ⟨emits_join Unstarted.connected Quiet.delivered s events now, lives_of_children rfl⟩)
    (fun _ _ _ => ⟨emits_one rfl (Unstarted.waited _ _ _), lives_of_children rfl⟩)

/-- What a run ends with, for a claim that also looks at the outcome. -/
theorem closing_outcome {sup : Supervisor} {D : RunOutcome → Sys → Prop} (hended : ∀ o s, o ≠ .pause → D o s)
    (hpaused : ∀ s : Sys, D .pause (s.note (.published .servicePaused))) :
    Closing sup (.all (Both (Emits K) Lives)) Down D := by
  have c := closing_loose (K := K) sup
  exact { c with ended := fun o s _ ho => hended o s ho, paused := fun s _ => hpaused s }

theorem turn_serve_loose {sup : Supervisor} {D : RunOutcome → Sys → Prop}
    (c : Closing sup (.all (Both (Emits K) Lives)) Down D) (arm : Arm) :
    Turn (.all (Both (Emits K) Lives)) D (serve sup arm) := by
  refine turn_serve c arm (fun line _ => turn_handleOutputBatch c (fun _ _ => ?_) line)
    (fun _ _ _ => keeps_handleStarted c (fun _ _ _ => ?_)) (fun _ => turn_tick_all lasting_loose sup c (fun _ _ _ => ?_))
  · exact ⟨emits_one rfl (Unstarted.took _ _), lives_of_children rfl⟩
  · exact ⟨emits_one rfl (Loose.published _), lives_of_children rfl⟩
  · exact ⟨emits_one rfl (Unstarted.waited _ _ _), lives_of_children rfl⟩

end Loose

/-! ## The event loop -/

/-- A stop read by the event loop ends the run with `Stop`. -/
theorem handleControl_stops {sup : Supervisor} {control : Control} (site : ControlSite)
    (h : (Obs.control site (some control)).stops) (s : Sys) :
    (handleControl sup control s).All (fun r _ => ∃ code, r = some (.stop code)) (fun _ _ => True)
      (fun _ => True) := by
  have hstop : ∀ t, ((do return some (← stopWith sup 0) : Run (Option RunOutcome)) t).All
      (fun r _ => ∃ code, r = some (.stop code)) (fun _ _ => True) (fun _ => True) := by
    intro t
    unfold stopWith
    simp only [all_bind, all_pure]
    exact (lasting_down.shutdown sup 0 t).mono (fun _ _ _ => ⟨0, rfl⟩) (fun _ _ h => h) (fun _ h => h)
  cases control with
  | stop => exact hstop s
  | consoleInterrupt =>
    unfold handleControl
    rw [all_bind]
    refine (keeps_log (R := Lives) (not_marker_of_head _ _ _ _ (by decide)) s).mono (fun _ t _ => hstop t) ?_ ?_
    · exact fun _ _ _ => trivial
    · exact fun _ _ => trivial
  | _ => exact h.elim

/-- What an arm adds to the trace, but for the controls. -/
theorem emits_of_selected {K : Obs → Prop} [Loose K] {s t : Sys} {arm : Arm} (h : Selected s arm t)
    (hcontrol : ∀ control, arm = .control control → K (.control .eventLoop control)) : Both (Emits K) Lives s t := by
  cases h with
  | line line rest _ => exact ⟨emits_one rfl (Unstarted.took _ _), lives_of_children rfl⟩
  | outputClosed => exact refl_of (Both (Emits K) Lives) s
  | control c rest _ => exact ⟨emits_one rfl (hcontrol _ rfl), lives_of_children rfl⟩
  | controlsClosed => exact ⟨emits_one rfl (hcontrol _ rfl), lives_of_children rfl⟩
  | event event rest _ => exact ⟨emits_one rfl (Loose.received _), lives_of_children rfl⟩
  | channelClosed => exact ⟨emits_one rfl (Loose.received _), lives_of_children rfl⟩
  | tick => exact ⟨emits_of_trace rfl, lives_of_children rfl⟩

theorem both_of_calm {s t : Sys} (h : Both (Emits Obs.calm) Lives s t) : Both (Emits Obs.between) Lives s t :=
  ⟨emits_mono (fun _ ho => ho.1) h.1, h.2⟩

/-- **The event loop** launches nothing, leaves the JVM down when it returns, and returns `Stop` if it read a stop. -/
theorem eventLoop_spec (sup : Supervisor) (s : Sys) :
    (eventLoop sup s).All
      (fun o t => Both (Emits Obs.between) Lives s t ∧ Down t ∧ (Emits Obs.calm s t ∨ ∃ code, o = .stop code))
      (fun _ => Both (Emits Obs.between) Lives s) (Both (Emits Obs.between) Lives s) := by
  refine all_eventLoop (I := Both (Emits Obs.calm) Lives s) (fun t ht => ?_) (fun t ht => both_of_calm ht) s
    (fun next => ⟨emits_of_trace rfl, lives_of_children rfl⟩)
  refine (select_spec (R := Both (Emits Obs.calm) Lives) t).mono (fun arm v hv => ?_) (fun _ _ h => h.elim)
    (fun u hu => both_of_calm (trans_of _ ht hu))
  obtain ⟨u, hu, hsel⟩ := hv
  have hsu := trans_of (Both (Emits Obs.calm) Lives) ht hu
  by_cases hstop : ∃ c, arm = .control (some c) ∧ (Obs.control .eventLoop (some c)).stops
  · obtain ⟨c, rfl, hc⟩ := hstop
    have hsv := trans_of _ (both_of_calm hsu) (emits_of_selected (K := Obs.between) hsel (fun control hcontrol => by
      cases hcontrol
      exact ⟨id, by simp [Obs.marker]⟩))
    refine ((turn_handleControl (closing_loose (K := Obs.between) sup) c v).and (handleControl_stops .eventLoop hc v)).mono ?_ ?_ ?_
    · rintro r w ⟨hw, code, rfl⟩
      exact ⟨trans_of _ hsv hw.1, hw.2, .inr ⟨code, rfl⟩⟩
    · exact fun _ w hw => trans_of _ hsv hw.1
    · exact fun w hw => trans_of _ hsv hw.1
  · have hsv := trans_of _ hsu (emits_of_selected (K := Obs.calm) hsel (fun control hcontrol => by
      refine ⟨⟨id, by simp [Obs.marker]⟩, fun hs => hstop ?_⟩
      cases control with
      | none => exact hs.elim
      | some c => exact ⟨c, hcontrol, hs⟩))
    refine (turn_serve_loose (closing_loose (K := Obs.calm) sup) arm v).mono (fun r w hw => ?_) ?_ ?_
    · cases r with
      | none => exact trans_of _ hsv hw
      | some o =>
        have hsw := trans_of _ hsv hw.1
        exact ⟨both_of_calm hsw, hw.2, .inl hsw.1⟩
    · exact fun _ w hw => both_of_calm (trans_of _ hsv hw)
    · exact fun w hw => both_of_calm (trans_of _ hsv hw)

end Supervisor
end Jss
