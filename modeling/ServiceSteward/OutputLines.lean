import ServiceSteward.Loop
/-!
# OutputLines — what becomes of the lines taken from the output channel

`Moved recorded taken` says which lines were recorded and which were taken on the way from one state to another.
Waiting and draining record what they take (`Even`).  A filter action that goes on takes nothing; one that ends the run
shuts the JVM down, which is even.  So a batch loses exactly the lines behind the one that ends the run.
-/
namespace Jss
namespace Supervisor

open Protocol (ReceiveEvent)
open Scripted

/-- The lines an observation takes from the output channel. -/
def Obs.taken : Obs → List Bytes
  | .took _ lines => lines
  | _ => []

/-- The line an observation records. -/
def Obs.recordedLine : Obs → List Bytes
  | .recorded line => [line]
  | _ => []

/-- All lines taken from the output channel, in order. -/
def taken (trace : List Obs) : List Bytes := trace.flatMap Obs.taken

/-- All lines recorded, in order. -/
def recorded (trace : List Obs) : List Bytes := trace.flatMap Obs.recordedLine

/-- The batches taken by `handle_output_batch`. -/
def batches (trace : List Obs) : List (List Bytes) :=
  trace.filterMap (fun
    | .took .batch lines => some lines
    | _ => none)

/-- Whether an action ends the run. -/
def Supervisor.ends (sup : Supervisor) : FilterAction → Bool
  | .restart | .shutdown => true
  | .pause => sup.pausable && sup.pausableStopsJvm
  | _ => false

/-- The matches of a line. -/
def Supervisor.found (sup : Supervisor) (line : Bytes) : List FilterMatch :=
  sup.filters.inspectBytes sup.decodeWindows1252 line

/-- The first action of a line's filter that ends the run. -/
def Supervisor.verdict (sup : Supervisor) (line : Bytes) : Option FilterAction :=
  (sup.found line).findSome? (fun matched => matched.actions.find? sup.ends)

/-- Whether the filter a line matches ends the run. -/
def Supervisor.endsRun (sup : Supervisor) (line : Bytes) : Bool := (sup.verdict line).isSome

/-- No line of a batch but its last one ends the run. -/
def Orderly (sup : Supervisor) (trace : List Obs) : Prop :=
  ∀ batch ∈ batches trace, ∀ line ∈ batch.dropLast, sup.endsRun line = false

/-! ## Accounting -/

/-- Where pausing stops the JVM, no JVM is paused in place. -/
def NotInPlace (sup : Supervisor) (s : Sys) : Prop := sup.pausableStopsJvm = true → s.run.pausedInPlace = false

/-- The lines recorded and the lines taken between two states, none of them by `handle_output_batch`. -/
structure Moved (sup : Supervisor) (rs ts : List Bytes) (s t : Sys) : Prop where
  trace : ∃ new, t.trace = s.trace ++ new ∧ recorded new = rs ∧ taken new = ts ∧ batches new = []
  inPlace : NotInPlace sup s → NotInPlace sup t

/-- A record could not be written. -/
def Failed (s t : Sys) : Prop := ∃ new, t.trace = s.trace ++ new ∧ .logFailed ∈ new

variable {sup : Supervisor}

theorem taken_append (a b : List Obs) : taken (a ++ b) = taken a ++ taken b := List.flatMap_append

theorem recorded_append (a b : List Obs) : recorded (a ++ b) = recorded a ++ recorded b := List.flatMap_append

theorem batches_append (a b : List Obs) : batches (a ++ b) = batches a ++ batches b := List.filterMap_append

theorem moved_refl (s : Sys) : Moved sup [] [] s s := ⟨⟨[], by simp, rfl, rfl, rfl⟩, id⟩

theorem Moved.trans {rs ts rs' ts' : List Bytes} {s t u : Sys} (h : Moved sup rs ts s t) (h' : Moved sup rs' ts' t u) :
    Moved sup (rs ++ rs') (ts ++ ts') s u := by
  obtain ⟨new, htrace, hr, ht, hb⟩ := h.trace
  obtain ⟨new', htrace', hr', ht', hb'⟩ := h'.trace
  refine ⟨⟨new ++ new', ?_, ?_, ?_, ?_⟩, fun hp => h'.inPlace (h.inPlace hp)⟩
  · rw [htrace', htrace, List.append_assoc]
  · rw [recorded_append, hr, hr']
  · rw [taken_append, ht, ht']
  · rw [batches_append, hb, hb', List.append_nil]

/-- One observation, by anything but `handle_output_batch`. -/
theorem moved_one {s t : Sys} {o : Obs} (h : t.trace = s.trace ++ [o]) (hb : ∀ lines, o ≠ .took .batch lines)
    (hp : NotInPlace sup s → NotInPlace sup t) : Moved sup o.recordedLine o.taken s t := by
  refine ⟨⟨[o], h, by simp [recorded], by simp [taken], ?_⟩, hp⟩
  unfold batches
  cases o with
  | took site lines =>
    cases site with
    | batch => exact absurd rfl (hb lines)
    | _ => rfl
  | _ => rfl

/-- Nothing is taken and nothing recorded. -/
def Silent (sup : Supervisor) : Sys → Sys → Prop := Moved sup [] []

/-- All that is taken is recorded, in order. -/
def Even (sup : Supervisor) (s t : Sys) : Prop := ∃ lines, Moved sup lines lines s t

/-- Even, unless a record could not be written. -/
def EvenOrFailed (sup : Supervisor) (s t : Sys) : Prop := Failed s t ∨ Even sup s t

theorem silent_of_trace {s t : Sys} (h : t.trace = s.trace) (hp : t.run.pausedInPlace = s.run.pausedInPlace) :
    Silent sup s t := by
  refine ⟨⟨[], by simp [h], rfl, rfl, rfl⟩, fun hs hstops => ?_⟩
  rw [hp]
  exact hs hstops

theorem silent_note (s : Sys) {o : Obs} (ht : o.taken = []) (hr : o.recordedLine = [])
    (hb : ∀ lines, o ≠ .took .batch lines) : Silent sup s (s.note o) := by
  have h : Moved sup o.recordedLine o.taken s (s.note o) := moved_one rfl hb (fun hs => hs)
  rw [ht, hr] at h
  exact h

theorem plain_silent (s : Sys) {o : Obs} (h : o.plain) : Silent sup s (s.note o) := by
  cases o with
  | took site lines => exact h.elim
  | recorded line => exact h.elim
  | _ => exact silent_note s rfl rfl (by simp)

instance : Frame (Silent sup) where
  refl := moved_refl
  trans _ _ _ h h' := h.trans h'
  same htrace _ _ hp := silent_of_trace htrace hp
  move s m := by
    cases m with
    | deliver event =>
      simp only [Sys.move]
      split
      · exact silent_of_trace rfl rfl
      · exact moved_one (o := .delivered event) rfl (by simp) (fun hs => hs)
    | output line => simp only [Sys.move]; split <;> exact silent_of_trace rfl rfl
    | exit code => simp only [Sys.move]; split <;> exact silent_of_trace rfl rfl
    | dumped worker result => simp only [Sys.move]; split <;> exact silent_of_trace rfl rfl
    | _ => exact silent_of_trace rfl rfl
  note s _ h := plain_silent s h
  drop s unread _ := moved_one (o := .dropped unread) rfl (by simp) (fun hs => hs)
  reap _ _ _ := silent_of_trace rfl rfl

theorem Silent.even {s t : Sys} (h : Silent sup s t) : Even sup s t := ⟨[], h⟩

instance : Frame (Even sup) where
  refl s := Silent.even (moved_refl s)
  trans _ _ _ h h' := by
    obtain ⟨lines, hl⟩ := h
    obtain ⟨lines', hl'⟩ := h'
    exact ⟨lines ++ lines', hl.trans hl'⟩
  same h1 h2 h3 h4 := (Frame.same (R := Silent sup) h1 h2 h3 h4).even
  move s m := (Frame.move (R := Silent sup) s m).even
  note s o h := (Frame.note (R := Silent sup) s o h).even
  drop s unread h := (Frame.drop (R := Silent sup) s unread h).even
  reap s older h := (Frame.reap (R := Silent sup) s older h).even

theorem Failed.after {rs ts : List Bytes} {s t u : Sys} (h : Moved sup rs ts s t) (h' : Failed t u) : Failed s u := by
  obtain ⟨new, htrace, -⟩ := h.trace
  obtain ⟨new', htrace', hmem⟩ := h'
  exact ⟨new ++ new', by rw [htrace', htrace, List.append_assoc], List.mem_append_right new hmem⟩

instance : After (Silent sup) Failed := ⟨fun h h' => h'.after h⟩

instance : Cut (Even sup) (EvenOrFailed sup) where
  after h h' := by
    rcases h' with hf | he
    · obtain ⟨lines, hl⟩ := h
      exact .inl (hf.after hl)
    · exact .inr (trans_of (Even sup) h he)
  of := .inr

instance : After (Silent sup) (EvenOrFailed sup) := ⟨fun h h' => After.after h.even h'⟩

/-! ## Programs that fail only where a record cannot be written -/

/-- A program that takes and records nothing, and fails only with its log. -/
abbrev LogOnly {α : Type} (sup : Supervisor) (p : Run α) : Prop := Stops (Silent sup) Failed (fun _ _ => True) p

section LogOnly

variable (sup)

theorem logOnly_emit {o : Obs} (ht : o.taken = []) (hr : o.recordedLine = []) (hb : ∀ lines, o ≠ .took .batch lines) :
    LogOnly sup (emit o) := fun s => silent_note s ht hr hb

theorem logOnly_publish (kind : EventKind) : LogOnly sup (publish kind) := logOnly_emit sup rfl rfl (by simp)

theorem logOnly_getRun : LogOnly sup getRun := fun s => moved_refl s

theorem logOnly_logMessage (level : LogLevel) (source : LogSource) (message : Message) :
    LogOnly sup (logMessage level source message) := by
  intro s
  unfold logMessage
  rw [all_bind]
  refine (ask_spec (R := Silent sup) s).mono (fun a t ht => ?_) (fun _ _ h => h.elim) (fun _ _ => trivial)
  cases a.failure with
  | some e => exact (show Failed t (t.note .logFailed) from ⟨[.logFailed], rfl, by simp⟩).after ht
  | none => exact trans_of (Silent sup) ht (silent_note t rfl rfl (by simp))

theorem logOnly_log (level : LogLevel) (source : LogSource) (message : Text) :
    LogOnly sup (log level source message) := logOnly_logMessage sup _ _ _

theorem logOnly_attempt {α : Type} {p : Run α} (h : Keeps (Silent sup) p) : LogOnly sup (Prog.attempt p) := by
  intro s
  rw [all_attempt]
  exact (h s).mono (fun _ _ h => h) (fun _ _ h => h) (fun _ _ => trivial)

theorem logOnly_markDisconnected : LogOnly sup markDisconnected := by
  unfold markDisconnected
  refine stops_bind (logOnly_getRun sup) (fun run => ?_)
  split
  · exact stops_pure _
  · refine stops_bind (fun s => silent_of_trace rfl rfl) (fun _ => ?_)
    refine stops_bind (logOnly_emit sup rfl rfl (by simp)) (fun _ => ?_)
    exact stops_bind (logOnly_log sup _ _ _) (fun _ => logOnly_publish sup _)

theorem logOnly_sendIfConnected (code : UInt8) (message : Text) : LogOnly sup (sendIfConnected code message) := by
  unfold sendIfConnected
  refine stops_bind (logOnly_getRun sup) (fun run => ?_)
  split
  · exact stops_pure _
  · refine stops_bind (logOnly_attempt sup (keeps_send code message)) (fun r => ?_)
    cases r with
    | ok u => exact stops_pure _
    | error e =>
      refine stops_bind (logOnly_log sup _ _ _) (fun _ => ?_)
      exact stops_bind (logOnly_markDisconnected sup) (fun _ => stops_pure _)

theorem logOnly_requestThreadDump : LogOnly sup (requestThreadDump sup) := by
  have hdump : ∀ run method, LogOnly sup (dumpThreads run method) := by
    intro run method
    unfold dumpThreads
    split
    · refine stops_bind (logOnly_publish sup _) (fun _ => logOnly_attempt sup ?_)
      exact keeps_bind keeps_attemptOutside (fun _ => keeps_pure _)
    · refine stops_bind (logOnly_log sup _ _ _) (fun _ => stops_bind (logOnly_publish sup _) (fun _ => logOnly_attempt sup ?_))
      exact keeps_bind (keeps_captureWithJcmd _) (fun _ => keeps_pure _)
    · exact stops_pure _
  unfold requestThreadDump
  refine stops_bind (logOnly_getRun sup) (fun run => stops_bind (hdump _ _) (fun r => ?_))
  cases r with
  | ok method => exact stops_bind (logOnly_publish sup _) (fun _ => stops_pure _)
  | error e => exact stops_bind (logOnly_log sup _ _ _) (fun _ => stops_bind (logOnly_publish sup _) (fun _ => stops_pure _))

theorem logOnly_resume : LogOnly sup resume := by
  unfold resume
  refine stops_bind (logOnly_sendIfConnected sup _ _) (fun sent => ?_)
  split
  · refine stops_bind (fun s => ⟨⟨[], by simp, rfl, rfl, rfl⟩, fun _ _ => rfl⟩) (fun _ => ?_)
    exact logOnly_publish sup _
  · exact stops_pure _

theorem logOnly_publishMatches : ∀ found : List FilterMatch, LogOnly sup (publishMatches found)
  | [] => stops_pure ()
  | _ :: found => stops_bind (logOnly_publish sup _) (fun _ => logOnly_publishMatches found)

/-! ## Recording -/

theorem recordOutput_spec (line : Bytes) (s : Sys) :
    (recordOutput sup line s).All (fun found t => found = sup.found line ∧ Moved sup [line] [] s t) (fun _ => Failed s)
      (fun _ => True) := by
  unfold recordOutput
  rw [all_bind]
  refine (logOnly_getRun sup s).mono (fun run t ht => ?_) (fun _ _ h => h) (fun _ h => h)
  rw [all_bind]
  refine (logOnly_logMessage sup _ _ _ t).mono (fun _ u hu => ?_) (fun _ _ h => h.after ht) (fun _ h => h)
  have hrec : Moved sup [line] [] u (u.note (.recorded line)) :=
    moved_one (o := .recorded line) rfl (by simp) (fun hs => hs)
  have hnoted := (ht.trans hu).trans hrec
  rw [emit, all_bind, all_modify, all_bind]
  refine (logOnly_publishMatches sup _ _).mono (fun _ v hv => ?_) (fun _ _ h => h.after hnoted) (fun _ h => h)
  exact ⟨rfl, hnoted.trans hv⟩

theorem recordBatch_spec : ∀ (lines : List Bytes) (s : Sys),
    (recordBatch sup lines s).All (fun _ => Moved sup lines [] s) (fun _ => Failed s) (fun _ => True)
  | [], s => moved_refl s
  | line :: lines, s => by
    unfold recordBatch
    rw [all_bind]
    refine (recordOutput_spec sup line s).mono (fun _ t ht => ?_) (fun _ _ h => h) (fun _ h => h)
    refine (recordBatch_spec lines t).mono (fun _ u hu => ?_) (fun _ _ h => h.after ht.2) (fun _ h => h)
    exact ht.2.trans hu

theorem recvOutputTimeout_spec {site : OutputSite} (h : site ≠ .batch) (timeout : Duration) (s : Sys) :
    (recvOutputTimeout site timeout s).All
      (fun r t => match r with
        | .item line => Moved sup [] [line] s t
        | .timeout | .disconnected => Silent sup s t)
      (fun _ => Failed s) (fun _ => True) := by
  unfold recvOutputTimeout
  rw [all_bind, all_get, all_bind]
  refine (ask_spec (R := Silent sup) s).mono (fun a t ht => ?_) (fun _ _ h => h.elim) (fun _ _ => trivial)
  rw [all_bind, all_get]
  cases hout : t.output with
  | cons line rest =>
    refine ht.trans (moved_one (o := .took site [line]) rfl (fun lines => ?_) (fun hs => hs))
    intro heq
    cases heq
    exact h rfl
  | nil =>
    simp only
    by_cases hopen : t.outputOpen = true
    · have hlate : Silent sup t { t with clock := max t.clock (s.clock + timeout) } := silent_of_trace rfl rfl
      rw [if_pos hopen]
      exact trans_of (Silent sup) ht hlate
    · rw [if_neg hopen]
      exact ht

theorem takeBatch_spec (site : OutputSite) (limit : Nat) (s : Sys) :
    (takeBatch site limit s).All (fun lines t => ∃ u, Silent sup s u ∧ t.trace = u.trace ++ [.took site lines] ∧
      t.run.pausedInPlace = u.run.pausedInPlace) (fun _ => Failed s) (fun _ => True) := by
  unfold takeBatch
  rw [all_bind]
  refine (ask_spec (R := Silent sup) s).mono (fun a t ht => ?_) (fun _ _ h => h.elim) (fun _ _ => trivial)
  exact ⟨t, ht, rfl, rfl⟩

/-- A program that records all it takes. -/
abbrev EvenStops {α : Type} (sup : Supervisor) (p : Run α) : Prop :=
  Stops (Even sup) (EvenOrFailed sup) (fun _ _ => True) p

theorem even_drainTurn (deadline : Instant) : EvenStops sup (drainTurn sup deadline) := by
  intro s
  unfold drainTurn
  rw [all_bind]
  refine (recvOutputTimeout_spec sup (by decide) _ s).mono (fun r t ht => ?_) (fun _ _ h => .inl h)
    (fun _ h => h)
  cases r with
  | item line =>
    simp only
    rw [all_bind]
    refine (recordOutput_spec sup line t).mono (fun _ u hu => ⟨[line], ?_⟩) (fun _ _ h => .inl (h.after ht)) (fun _ h => h)
    exact ht.trans hu.2
  | timeout =>
    have hlate : Keeps (Even sup) (do
        let now ← now
        return if now ≥ deadline then .inr () else .inl () : Run (Unit ⊕ Unit)) :=
      keeps_bind keeps_now (fun _ => keeps_pure _)
    refine (hlate t).mono (fun _ u hu => ?_) (fun _ u hu => ?_) (fun _ _ => trivial)
    · exact trans_of (Even sup) (Silent.even ht) hu
    · exact .inr (trans_of (Even sup) (Silent.even ht) hu)
  | disconnected => exact Silent.even ht

theorem even_drainRemainingOutput : EvenStops sup (drainRemainingOutput sup) :=
  stops_drainRemainingOutput (even_drainTurn sup)

theorem even_waitForOutput : EvenStops sup (waitForOutput sup) := by
  intro s
  unfold waitForOutput
  rw [all_bind]
  refine (recvOutputTimeout_spec sup (by decide) _ s).mono (fun r t ht => ?_) (fun _ _ h => .inl h)
    (fun _ h => h)
  cases r with
  | item line =>
    simp only
    rw [all_bind]
    refine (recordOutput_spec sup line t).mono (fun _ u hu => ?_) (fun _ _ h => .inl (h.after ht)) (fun _ h => h)
    have hfirst := ht.trans hu.2
    rw [all_bind]
    refine (takeBatch_spec sup .waitBatch _ u).mono (fun lines v hv => ?_)
      (fun _ _ h => .inl (h.after hfirst)) (fun _ h => h)
    obtain ⟨w, hw, htrace, hp⟩ := hv
    have htook : Moved sup [] lines w v :=
      moved_one (o := .took .waitBatch lines) htrace (by simp) (fun hs hstops => by rw [hp]; exact hs hstops)
    have hbatch := (hfirst.trans hw).trans htook
    refine (recordBatch_spec sup lines v).mono (fun _ x hx => ⟨[line] ++ lines, ?_⟩)
      (fun _ _ h => .inl (h.after hbatch)) (fun _ h => h)
    simpa using hbatch.trans hx
  | timeout => exact Silent.even ht
  | disconnected =>
    refine (keeps_sleep (R := Even sup) _ t).mono (fun _ u hu => ?_) (fun _ u hu => ?_) (fun _ _ => trivial)
    · exact trans_of (Even sup) (Silent.even ht) hu
    · exact .inr (trans_of (Even sup) (Silent.even ht) hu)

theorem even_shutdownAndDrain (exitCode : Int) : EvenStops sup (shutdownAndDrain sup exitCode) := by
  have hask : Keeps (Even sup) (tryWait .shutdown) :=
    keeps_tryWait_of (fun s _ _ => Silent.even (silent_note s rfl rfl (by simp)))
  exact stops_shutdownAndDrain (even_drainRemainingOutput sup) (even_waitForOutput sup)
    (keeps_terminateChild (R := Even sup)).stops hask.stops
    (fun code message => (keeps_sendIfConnected (R := Even sup) code message).stops) exitCode

/-- A turn that goes on takes nothing; one that ends the run records what it takes. -/
def lineWays (sup : Supervisor) : Ways where
  on := Silent sup
  ended := Even sup
  err := EvenOrFailed sup
  cut := fun _ _ => True

instance : Frame (lineWays sup).on := inferInstanceAs (Frame (Silent sup))

instance : (lineWays sup).Lawful where
  on := inferInstanceAs (Steady (Silent sup))
  ended := inferInstanceAs (IsPreorder Sys (Even sup))
  le h := Silent.even h
  err := inferInstanceAs (Cut (Even sup) (EvenOrFailed sup))
  cut := inferInstanceAs (Cut (Even sup) (fun _ _ => True))

theorem closing_even : Closing sup (lineWays sup) (fun _ => True) (fun _ _ => True) where
  publish s kind _ _ := silent_note s rfl rfl (by simp)
  hold hstops s := by
    refine ⟨⟨[], by simp [Sys.setPausedInPlace], rfl, rfl, rfl⟩, fun _ h => ?_⟩
    rw [hstops] at h
    cases h
  release s := ⟨⟨[], by simp [Sys.setPausedInPlace], rfl, rfl, rfl⟩, fun _ _ => rfl⟩
  join s events now _ := by
    refine ⟨⟨.connected :: events.map .delivered, rfl, ?_, ?_, ?_⟩, fun hs => hs⟩
    · simp [recorded, Obs.recordedLine, List.flatMap_map]
    · simp [taken, Obs.taken, List.flatMap_map]
    · simp [batches]
  drain := even_drainRemainingOutput sup
  stable _ _ _ h := h
  shutdown code s := (even_shutdownAndDrain sup code s).mono (fun _ _ h => ⟨h, trivial⟩) (fun _ _ h => h) (fun _ h => h)
  ended _ _ _ _ := trivial
  paused _ _ := trivial

theorem turn_tick_even : Turn (lineWays sup) (fun _ _ => True) (tick sup) := by
  refine turn_tick (closing_even sup) keeps_pollHeapDump.stops (fun s => ?_)
  have hseen : Keeps (Silent sup) (tryWait .tick) := keeps_tryWait_of (fun t _ _ => silent_note t rfl rfl (by simp))
  refine (hseen s).mono (fun status t ht => ?_) (fun _ _ h => .inr h.even) (fun _ _ => trivial)
  cases status with
  | none => exact ht
  | some code => exact ⟨ht.even, trivial⟩

end LogOnly

end Supervisor
end Jss
