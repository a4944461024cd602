import ServiceSteward.InterruptedRotation
import ServiceSteward.LogWriter
/-!
# LogHistory — what a log holds after any calls of its writer

A log is its archives from the oldest on and then the active file.  Between calls, what is held and the files that were
removed make up what was there at first and every record since, byte for byte.
-/
namespace Jss
namespace Log

open Scripted
open Slots (contents move clear put)

/-! ## Calls -/

inductive Call where
  | create (config : Config) (consoleEnabled : Bool)
  | write (record : Record)
  | rollForJvmRestart

/-- The writer in use, and what the calls so far have written to the file. -/
structure Session where
  writer : Option LogWriter := none
  records : List Bytes := []

/-- What a record adds to the file. -/
def LogWriter.lines (writer : LogWriter) (record : Record) : List Bytes :=
  if writer.writesFile record.level then [writer.line record] else []

def Call.run (path : Text) (session : Session) : Call → Io LogFile Session
  | .create config consoleEnabled => do
    let writer ← LogWriter.fromConfigWithConsole path config consoleEnabled
    return { session with writer := some writer }
  | .write record =>
    match session.writer with
    | none => return session
    | some writer => do
      let next ← writer.writeBytes record
      return { writer := some next, records := session.records ++ writer.lines record }
  | .rollForJvmRestart =>
    match session.writer with
    | none => return session
    | some writer => do
      let next ← writer.rollForJvmRestart
      return { session with writer := some next }

/-- A call that was refused: there is no new writer, or the old one is as it was. -/
def Call.refused (session : Session) : Call → Session
  | .create _ _ => { session with writer := none }
  | _ => session

/-- Calls one after the other.  The error of too many archives ends a call, an I/O error all of them. -/
def runCalls (path : Text) : List Call → Session → Io LogFile Session
  | [], session => return session
  | call :: calls, session => do
    match ← Prog.attempt (call.run path session) with
    | .ok next => runCalls path calls next
    | .error (.config _) => runCalls path calls (call.refused session)
    | .error e => Prog.throw e

/-! ## What is held -/

def bytesOf (files : List LogFile) : Bytes := files.flatMap LogFile.bytes

/-- The files that a limit is about: all of them where there is none. -/
def held (path : Text) (maxFiles : Nat) (files : BTreeMap Text LogFile) : List LogFile :=
  if maxFiles = 0 then chronicle path files else contents (slots path files) maxFiles

/-- The archives beyond a limit. -/
def beyond (path : Text) (maxFiles : Nat) (files : BTreeMap Text LogFile) : List LogFile :=
  if maxFiles = 0 then [] else Slots.contentsAbove (slots path files) maxFiles (top path files)

variable {path : Text} {maxFiles : Nat}

theorem beyond_append_held (path : Text) (maxFiles : Nat) (files : BTreeMap Text LogFile) :
    beyond path maxFiles files ++ held path maxFiles files = chronicle path files := by
  unfold beyond held
  by_cases hmax : maxFiles = 0
  · rw [if_pos hmax, if_pos hmax, List.nil_append]
  · rw [if_neg hmax, if_neg hmax]
    by_cases htop : maxFiles ≤ top path files
    · exact Slots.contentsAbove_append _ _ htop
    · have hnone : Slots.contentsAbove (slots path files) maxFiles (top path files) = [] := by
        cases hk : top path files with
        | zero => rfl
        | succ k => rw [Slots.contentsAbove, if_pos (by omega)]
      rw [hnone, List.nil_append, contents_of_top files (by omega)]

/-- What is held is read from one slot on in two directories. -/
theorem held_eq_contents (path : Text) (limit : Nat) (hlimit : maxFiles ≠ 0 → limit ≤ maxFiles) (files files' : BTreeMap Text LogFile) :
    ∃ k, limit ≤ k ∧ (maxFiles ≠ 0 → k = maxFiles) ∧ held path maxFiles files = contents (slots path files) k ∧
      held path maxFiles files' = contents (slots path files') k := by
  unfold held
  by_cases hmax : maxFiles = 0
  · refine ⟨max limit (max (top path files) (top path files')), by omega, fun h => absurd hmax h, ?_, ?_⟩
    · rw [if_pos hmax, contents_of_top files (by omega)]
    · rw [if_pos hmax, contents_of_top files' (by omega)]
  · exact ⟨maxFiles, hlimit hmax, fun _ => rfl, if_neg hmax, if_neg hmax⟩

/-- A rotation takes the file in slot `maxFiles` out of what is held. -/
theorem Complete.held {start d : Disk LogFile} (h : Complete path maxFiles start d) :
    held path maxFiles start.files =
      (if maxFiles = 0 then [] else (slots path start.files maxFiles).toList) ++ held path maxFiles d.files := by
  obtain ⟨limit, hmoved, hlimit⟩ := h.moved
  obtain ⟨k, hk, hkmax, hstart, hend⟩ :=
    held_eq_contents path limit (fun hmax => Nat.le_of_eq (hlimit hmax)) start.files d.files
  rw [hstart, hend, hmoved.same k hk]
  by_cases hmax : maxFiles = 0
  · rw [if_pos hmax, if_pos hmax, List.nil_append]
  · rw [if_neg hmax, if_neg hmax, hkmax hmax]
    exact (Slots.contents_clear_top _ _).symm

theorem held_put (files : BTreeMap Text LogFile) (file : LogFile) (hfree : slots path files 0 = none) :
    held path maxFiles (files.insert path file) = held path maxFiles files ++ [file] := by
  obtain ⟨k, -, -, hold, hnew⟩ :=
    held_eq_contents path 0 (fun _ => Nat.zero_le _) files (files.insert path file)
  rw [hold, hnew, slots_insert, Slots.contents_put _ _ hfree]

theorem held_put_over (maxFiles : Nat) (files : BTreeMap Text LogFile) (file file' : LogFile) (hfile : slots path files 0 = some file) :
    ∃ rest, held path maxFiles files = rest ++ [file] ∧
      held path maxFiles (files.insert path file') = rest ++ [file'] := by
  obtain ⟨k, -, -, hold, hnew⟩ :=
    held_eq_contents path 0 (fun _ => Nat.zero_le _) files (files.insert path file')
  obtain ⟨rest, hrest, hrest'⟩ := Slots.contents_put_over (slots path files) file file' hfile k
  exact ⟨rest, by rw [hold, hrest], by rw [hnew, slots_insert, hrest']⟩

/-! ## The balance -/

/-- **What is held, after what was removed, is what was there at first and the records since.** -/
structure Balanced (path : Text) (maxFiles : Nat) (files : BTreeMap Text LogFile) (records : List Bytes)
    (d : Disk LogFile) : Prop where
  balance : bytesOf (beyond path maxFiles files) ++ bytesOf (removedFiles d.steps) ++
    bytesOf (held path maxFiles d.files) = bytesOf (chronicle path files) ++ records.flatten
  unbounded : maxFiles = 0 → removedFiles d.steps = []
  above : maxFiles ≠ 0 → ∀ n, maxFiles < n → slots path d.files n = slots path files n

/-- A writer knows how long its file is. -/
structure Sized (path : Text) (maxFiles : Nat) (writer : LogWriter) (d : Disk LogFile) : Prop where
  samePath : writer.path = path
  sameMax : writer.maxFiles = maxFiles
  size : ∃ file, slots path d.files 0 = some file ∧ writer.currentSize = file.bytes.length

/-- Nothing has become of the directory. -/
structure Untouched (d d' : Disk LogFile) : Prop where
  files : d'.files = d.files
  steps : d'.steps = d.steps

theorem Untouched.refl (d : Disk LogFile) : Untouched d d := ⟨rfl, rfl⟩

theorem Untouched.trans {d d' d'' : Disk LogFile} (h : Untouched d d') (h' : Untouched d' d'') : Untouched d d'' :=
  ⟨h'.files.trans h.files, h'.steps.trans h.steps⟩

/-- A call that the error of too many archives ends has changed nothing. -/
def Refused (d : Disk LogFile) (e : Error) (d' : Disk LogFile) : Prop := ∀ message, e = .config message → Untouched d d'

variable {files : BTreeMap Text LogFile} {records : List Bytes} {d d' : Disk LogFile}

theorem Balanced.untouched (h : Balanced path maxFiles files records d) (hsame : Untouched d d') :
    Balanced path maxFiles files records d' := by
  constructor
  · rw [hsame.files, hsame.steps]
    exact h.balance
  · rw [hsame.steps]
    exact h.unbounded
  · rw [hsame.files]
    exact h.above

theorem Sized.untouched {writer : LogWriter} (h : Sized path maxFiles writer d) (hsame : Untouched d d') :
    Sized path maxFiles writer d' := by
  refine ⟨h.samePath, h.sameMax, ?_⟩
  rw [hsame.files]
  exact h.size

theorem Balanced.putEmpty (h : Balanced path maxFiles files records d) (hfree : slots path d.files 0 = none) :
    Balanced path maxFiles files records { d with files := d.files.insert path LogFile.empty } := by
  refine ⟨?_, h.unbounded, fun hmax n hn => ?_⟩
  · rw [held_put _ _ hfree]
    simpa [bytesOf, LogFile.empty] using h.balance
  · rw [slots_insert_above _ _ (by omega), ← h.above hmax n hn]

/-! ## Operations -/

theorem operation_untouched (d : Disk LogFile) :
    ((operation : Io LogFile Unit) d).All (fun _ => Untouched d) (Refused d) (fun _ => True) := by
  unfold operation
  split
  · trivial
  · exact ⟨rfl, rfl⟩
  · exact fun _ _ => ⟨rfl, rfl⟩

/-- A program that raises only I/O errors is never refused. -/
theorem operation_io (d : Disk LogFile) :
    ((operation : Io LogFile Unit) d).All (fun _ => Untouched d) (fun e _ => ∀ message, e ≠ .config message)
      (fun _ => True) := by
  unfold operation
  split
  · trivial
  · exact ⟨rfl, rfl⟩
  · exact fun _ h => by cases h

/-- ... nor refused. -/
theorem refused_of_io {e : Error} (h : ∀ message, e ≠ .config message) : Refused d e d' :=
  fun message heq => absurd heq (h message)

theorem writeStdout_untouched (bytes : Bytes) (d : Disk LogFile) :
    (writeStdout bytes d).All (fun _ => Untouched d) (Refused d) (fun _ => True) := by
  unfold writeStdout
  rw [all_bind]
  refine (operation_untouched d).mono (fun _ d' hd => ?_) (fun _ _ h => h) (fun _ h => h)
  rw [all_modify]
  exact ⟨hd.files, hd.steps⟩

theorem Balanced.openAppendShared (h : Balanced path maxFiles files records d) :
    (openAppendShared path d).All
      (fun _ d' => Balanced path maxFiles files records d' ∧ ∃ file, slots path d'.files 0 = some file)
      (fun e _ => ∀ message, e ≠ .config message) (fun _ => True) := by
  unfold Log.openAppendShared
  rw [all_bind]
  refine (operation_io d).mono (fun _ d' hd => ?_) (fun _ _ h => h) (fun _ h => h)
  rw [all_modify]
  have hb := h.untouched hd
  cases hactive : d'.files.get path with
  | some file =>
    rw [if_pos Option.isSome_some]
    exact ⟨hb, file, hactive⟩
  | none =>
    rw [if_neg (by simp)]
    have hfree : slots path d'.files 0 = none := hactive
    refine ⟨hb.putEmpty hfree, LogFile.empty, ?_⟩
    rw [slots_insert]
    rfl

theorem Balanced.openTruncatedShared (h : Balanced path maxFiles files records d)
    (hfree : slots path d.files 0 = none) :
    (openTruncatedShared path d).All
      (fun _ d' => Balanced path maxFiles files records d' ∧ slots path d'.files 0 = some LogFile.empty)
      (fun e _ => ∀ message, e ≠ .config message) (fun _ => True) := by
  unfold Log.openTruncatedShared
  rw [all_bind]
  refine (operation_io d).mono (fun _ d' hd => ?_) (fun _ _ h => h) (fun _ h => h)
  rw [all_modify]
  have hb := h.untouched hd
  have hfree' : slots path d'.files 0 = none := by rw [hd.files]; exact hfree
  refine ⟨hb.putEmpty hfree', ?_⟩
  rw [slots_insert]
  rfl

theorem Balanced.appendBytes (h : Balanced path maxFiles files records d) {file : LogFile}
    (hfile : slots path d.files 0 = some file) (bytes : Bytes) :
    (appendBytes path bytes d).All
      (fun _ d' => Balanced path maxFiles files (records ++ [bytes]) d' ∧
        ∃ file', slots path d'.files 0 = some file' ∧ file'.bytes = file.bytes ++ bytes)
      (fun e _ => ∀ message, e ≠ .config message) (fun _ => True) := by
  unfold Log.appendBytes
  rw [all_bind]
  refine (operation_io d).mono (fun _ d' hd => ?_) (fun _ _ h => h) (fun _ h => h)
  have hb := h.untouched hd
  have hfile' : slots path d'.files 0 = some file := by rw [hd.files]; exact hfile
  have hget : d'.files.get path = some file := hfile'
  rw [all_bind, all_get, hget]
  dsimp only
  split
  · rename_i hfits
    rw [all_modify]
    obtain ⟨rest, hold, hnew⟩ := held_put_over maxFiles d'.files file ⟨file.bytes ++ bytes, hfits⟩ hfile'
    refine ⟨⟨?_, hb.unbounded, fun hmax n hn => ?_⟩, ⟨file.bytes ++ bytes, hfits⟩, ?_, rfl⟩
    · have hbalance := hb.balance
      rw [hold] at hbalance
      rw [hnew]
      simp only [bytesOf, List.flatMap_append, List.flatMap_cons, List.flatMap_nil, List.append_nil,
        List.flatten_append, List.flatten_cons, List.flatten_nil] at hbalance ⊢
      rw [← List.append_assoc, ← List.append_assoc, ← List.append_assoc, ← hbalance]
      simp only [List.append_assoc]
    · rw [slots_insert_above _ _ (by omega), ← hb.above hmax n hn]
    · rw [slots_insert]
      rfl
  · exact fun _ h => by cases h

/-! ## Rolling -/

/-- A program that raises only I/O errors. -/
def RaisesIo {β : Type} (m : Io LogFile β) : Prop :=
  ∀ d, (m d).All (fun _ _ => True) (fun e _ => ∀ message, e ≠ .config message) (fun _ => True)

theorem RaisesIo.bind {β γ : Type} {m : Io LogFile β} {f : β → Io LogFile γ} (hm : RaisesIo m)
    (hf : ∀ a, RaisesIo (f a)) : RaisesIo (m >>= f) := by
  intro d
  rw [all_bind]
  exact (hm d).mono (fun a d' _ => hf a d') (fun _ _ h => h) (fun _ h => h)

theorem pure_raisesIo {β : Type} (a : β) : RaisesIo (pure a) := fun _ => trivial

theorem operation_raisesIo : RaisesIo operation :=
  fun d => (operation_io d).mono (fun _ _ _ => trivial) (fun _ _ h => h) (fun _ h => h)

theorem fileExists_raisesIo (name : Text) : RaisesIo (fileExists name) := fun _ => trivial

theorem removeFile_raisesIo (name : Text) : RaisesIo (removeFile name) := by
  apply operation_raisesIo.bind
  intro _ d
  rw [all_bind, all_get]
  cases hget : d.files.get name with
  | none => exact fun _ h => by cases h
  | some content => trivial

theorem rename_raisesIo (source target : Text) : RaisesIo (rename source target) := by
  apply operation_raisesIo.bind
  intro _ d
  rw [all_bind, all_get]
  cases hget : d.files.get source with
  | none => exact fun _ h => by cases h
  | some content => trivial

theorem renameIfExists_raisesIo (source target : Text) : RaisesIo (renameIfExists source target) := by
  apply (fileExists_raisesIo source).bind
  intro found
  cases found with
  | false => exact pure_raisesIo ()
  | true => exact rename_raisesIo source target

theorem removeIfExists_raisesIo (name : Text) : RaisesIo (removeIfExists name) := by
  apply (fileExists_raisesIo name).bind
  intro found
  cases found with
  | false => exact pure_raisesIo ()
  | true => exact removeFile_raisesIo name

theorem shift_raisesIo (path : Text) : ∀ index, RaisesIo (shift path index)
  | 0 => pure_raisesIo ()
  | index + 1 => (renameIfExists_raisesIo _ _).bind (fun _ => shift_raisesIo path index)

/-- There can be too many archives only before anything moves. -/
theorem rotationLimit_refused (path : Text) (maxFiles : Nat) (d : Disk LogFile) :
    (rotationLimit path maxFiles d).All (fun _ _ => True) (Refused d) (fun _ => True) := by
  unfold rotationLimit
  by_cases hmax : maxFiles = 0
  · rw [if_pos hmax]
    unfold highestRolledIndex readDir
    rw [all_bind, all_bind, all_bind]
    refine (operation_untouched d).mono (fun _ d' hd => ?_) (fun _ _ h => h) (fun _ h => h)
    rw [all_bind, all_get, all_pure, all_pure]
    split
    · trivial
    · exact fun _ _ => hd
  · rw [if_neg hmax, all_bind]
    exact (removeIfExists_raisesIo _ d).mono (fun _ _ _ => trivial) (fun _ _ h => refused_of_io h) (fun _ h => h)

/-- A rotation that is refused has changed nothing. -/
theorem rotate_refused (path : Text) (maxFiles : Nat) (d : Disk LogFile) :
    (rotate path maxFiles d).All (fun _ _ => True) (Refused d) (fun _ => True) := by
  unfold rotate
  rw [all_bind]
  refine (rotationLimit_refused path maxFiles d).mono (fun limit mid _ => ?_) (fun _ _ h => h) (fun _ h => h)
  have hmoves : RaisesIo (do shift path (limit - 1); renameIfExists path (rolledPath path 1) : Io LogFile Unit) :=
    (shift_raisesIo path _).bind (fun _ => renameIfExists_raisesIo _ _)
  exact (hmoves mid).mono (fun _ _ _ => trivial) (fun _ _ h => refused_of_io h) (fun _ h => h)

theorem Balanced.complete (h : Balanced path maxFiles files records d) (hrotate : Complete path maxFiles d d') :
    Balanced path maxFiles files records d' := by
  constructor
  · have hbalance := h.balance
    rw [hrotate.held] at hbalance
    rw [hrotate.removed, ← hbalance]
    simp [bytesOf]
  · intro hmax
    rw [hrotate.removed, h.unbounded hmax, if_pos hmax]
    rfl
  · intro hmax n hn
    obtain ⟨limit, hmoved, hlimit⟩ := hrotate.moved
    have hne : n ≠ maxFiles := by omega
    have hlt : limit < n := by
      rw [hlimit hmax]
      exact hn
    rw [hmoved.above n hlt, if_neg hmax, ← h.above hmax n hn]
    simp only [clear, if_neg hne]

/-- A rotation keeps the balance, or is refused. -/
theorem Balanced.rotate (h : Balanced path maxFiles files records d) :
    (rotate path maxFiles d).All
      (fun _ d' => Balanced path maxFiles files records d' ∧ slots path d'.files 0 = none) (Refused d)
      (fun _ => True) := by
  refine ((rotate_spec path maxFiles d).and (rotate_refused path maxFiles d)).mono (fun _ d' hd => ?_)
    (fun _ _ hd => hd.2) (fun _ _ => trivial)
  exact ⟨h.complete hd.1, hd.1.active⟩

theorem Balanced.roll (h : Balanced path maxFiles files records d) {writer : LogWriter} (hpath : writer.path = path)
    (hmax : writer.maxFiles = maxFiles) :
    (writer.roll d).All
      (fun next d' => next = { writer with currentSize := 0 } ∧ Balanced path maxFiles files records d' ∧
        Sized path maxFiles next d') (Refused d) (fun _ => True) := by
  subst hpath hmax
  unfold LogWriter.roll
  rw [all_bind]
  refine h.rotate.mono (fun _ mid hmid => ?_) (fun _ _ h => h) (fun _ h => h)
  obtain ⟨hmid, hfree⟩ := hmid
  rw [all_bind]
  refine (hmid.openTruncatedShared hfree).mono (fun _ d' hd => ?_) (fun _ _ h => refused_of_io h) (fun _ h => h)
  rw [all_pure]
  exact ⟨rfl, hd.1, rfl, rfl, LogFile.empty, hd.2, rfl⟩

/-! ## Writing -/

theorem Balanced.writeFile (h : Balanced path maxFiles files records d) {writer : LogWriter}
    (hsized : Sized path maxFiles writer d) (record : Record) :
    (writer.writeFile record d).All
      (fun next d' => Balanced path maxFiles files (records ++ [writer.line record]) d' ∧ Sized path maxFiles next d')
      (Refused d) (fun _ => True) := by
  unfold LogWriter.writeFile
  rw [all_bind]
  -- the writer that the record goes to
  have hready : (writer.rollIfFull d).All
      (fun next d' => next.line record = writer.line record ∧ Balanced path maxFiles files records d' ∧
        Sized path maxFiles next d') (Refused d) (fun _ => True) := by
    unfold LogWriter.rollIfFull
    split
    · refine (h.roll hsized.samePath hsized.sameMax).mono (fun next d' hd => ?_) (fun _ _ h => h) (fun _ h => h)
      obtain ⟨rfl, hd⟩ := hd
      exact ⟨rfl, hd⟩
    · exact ⟨rfl, h, hsized⟩
  refine hready.mono (fun next mid hmid => ?_) (fun _ _ h => h) (fun _ h => h)
  obtain ⟨hline, hmid, hpath, hmax, file, hfile, hsize⟩ := hmid
  rw [all_bind, hpath, hline]
  refine (hmid.appendBytes hfile (writer.line record)).mono (fun _ d' hd => ?_) (fun _ _ h => refused_of_io h)
    (fun _ h => h)
  obtain ⟨hd, file', hfile', hbytes⟩ := hd
  rw [all_pure]
  refine ⟨hd, rfl, hmax, file', hfile', ?_⟩
  have hfits := file'.fits
  rw [hbytes, List.length_append] at hfits
  rw [hbytes, List.length_append, hsize]
  exact Nat.min_eq_left hfits

theorem writeConsole_untouched (writer : LogWriter) (record : Record) (d : Disk LogFile) :
    (writer.writeConsole record d).All (fun _ => Untouched d) (Refused d) (fun _ => True) := by
  unfold LogWriter.writeConsole
  rw [all_bind]
  refine (writeStdout_untouched _ d).mono (fun _ d1 h1 => ?_) (fun _ _ h => h) (fun _ h => h)
  rw [all_bind]
  refine (writeStdout_untouched _ d1).mono (fun _ d2 h2 => ?_) (fun _ d2 h2 message heq => h1.trans (h2 message heq))
    (fun _ h => h)
  split
  · exact (operation_untouched d2).mono (fun _ d3 h3 => (h1.trans h2).trans h3)
      (fun _ d3 h3 message heq => (h1.trans h2).trans (h3 message heq)) (fun _ h => h)
  · exact h1.trans h2

theorem Balanced.writeBytes (h : Balanced path maxFiles files records d) {writer : LogWriter}
    (hsized : Sized path maxFiles writer d) (record : Record) :
    (writer.writeBytes record d).All
      (fun next d' => Balanced path maxFiles files (records ++ writer.lines record) d' ∧
        Sized path maxFiles next d') (Refused d) (fun _ => True) := by
  -- what comes after the console
  have hfile : ∀ mid, Untouched d mid →
      ((if writer.writesFile record.level then writer.writeFile record else pure writer : Io LogFile LogWriter) mid).All
        (fun next d' => Balanced path maxFiles files (records ++ writer.lines record) d' ∧
          Sized path maxFiles next d') (Refused d) (fun _ => True) := by
    intro mid hmid
    unfold LogWriter.lines
    by_cases hwrites : writer.writesFile record.level = true
    · rw [if_pos hwrites, if_pos hwrites]
      exact ((h.untouched hmid).writeFile (hsized.untouched hmid) record).mono (fun _ _ h => h)
        (fun _ _ h message heq => hmid.trans (h message heq)) (fun _ h => h)
    · rw [if_neg hwrites, if_neg hwrites, List.append_nil]
      exact ⟨h.untouched hmid, hsized.untouched hmid⟩
  unfold LogWriter.writeBytes
  by_cases hconsole : writer.writesConsole record.level = true
  · rw [if_pos hconsole, all_bind]
    exact (writeConsole_untouched writer record d).mono (fun _ mid hmid => hfile mid hmid) (fun _ _ h => h)
      (fun _ h => h)
  · rw [if_neg hconsole]
    exact hfile d (Untouched.refl d)

/-! ## Opening -/

theorem Balanced.rollForJvmRestart (h : Balanced path maxFiles files records d) {writer : LogWriter}
    (hsized : Sized path maxFiles writer d) :
    (writer.rollForJvmRestart d).All
      (fun next d' => Balanced path maxFiles files records d' ∧ Sized path maxFiles next d') (Refused d)
      (fun _ => True) := by
  unfold LogWriter.rollForJvmRestart
  split
  · exact (h.roll hsized.samePath hsized.sameMax).mono (fun _ _ hd => hd.2) (fun _ _ h => h) (fun _ h => h)
  · exact ⟨h, hsized⟩

theorem Balanced.rollOnCreation (h : Balanced path maxFiles files records d) (config : Config)
    (hmax : configuredMaxFiles config = maxFiles) :
    (LogWriter.rollOnCreation path config d).All (fun _ => Balanced path maxFiles files records) (Refused d)
      (fun _ => True) := by
  unfold LogWriter.rollOnCreation
  rw [all_bind]
  change (ite _ _ _ : Io LogFile Unit) d |>.All _ _ _
  split
  · rw [hmax]
    exact h.rotate.mono (fun _ _ hd => hd.1) (fun _ _ h => h) (fun _ h => h)
  · exact h

theorem Balanced.fromConfig (h : Balanced path maxFiles files records d) (config : Config) (consoleEnabled : Bool)
    (hmax : configuredMaxFiles config = maxFiles) :
    (LogWriter.fromConfigWithConsole path config consoleEnabled d).All
      (fun next d' => Balanced path maxFiles files records d' ∧ Sized path maxFiles next d') (Refused d)
      (fun _ => True) := by
  unfold LogWriter.fromConfigWithConsole
  rw [all_bind]
  refine (h.rollOnCreation config hmax).mono (fun _ d1 h1 => ?_) (fun _ _ h => h) (fun _ h => h)
  rw [all_bind]
  refine h1.openAppendShared.mono (fun _ d2 h2 => ?_) (fun _ _ h => refused_of_io h) (fun _ h => h)
  obtain ⟨h2, file, hfile⟩ := h2
  rw [all_bind]
  unfold fileLen
  rw [all_bind]
  refine (operation_io d2).mono (fun _ d3 h3 => ?_) (fun _ _ h => refused_of_io h) (fun _ h => h)
  have hfile' : slots path d3.files 0 = some file := by rw [h3.files]; exact hfile
  have hget : d3.files.get path = some file := hfile'
  rw [all_bind, all_get, all_pure, all_pure, hget]
  exact ⟨h2.untouched h3, rfl, hmax, file, hfile', rfl⟩

/-! ## Any calls -/

/-- The log between two calls. -/
structure Consistent (path : Text) (maxFiles : Nat) (files : BTreeMap Text LogFile) (session : Session)
    (d : Disk LogFile) : Prop where
  balanced : Balanced path maxFiles files session.records d
  sized : ∀ writer, session.writer = some writer → Sized path maxFiles writer d

/-- One call keeps the log consistent, or is refused. -/
theorem Consistent.run {session : Session} (h : Consistent path maxFiles files session d) (call : Call)
    (hmax : ∀ config consoleEnabled, call = .create config consoleEnabled → configuredMaxFiles config = maxFiles) :
    (call.run path session d).All (Consistent path maxFiles files) (Refused d) (fun _ => True) := by
  cases call with
  | create config consoleEnabled =>
    simp only [Call.run]
    rw [all_bind]
    refine (h.balanced.fromConfig config consoleEnabled (hmax _ _ rfl)).mono (fun next d' hd => ?_) (fun _ _ h => h)
      (fun _ h => h)
    rw [all_pure]
    exact ⟨hd.1, fun writer hwriter => by cases hwriter; exact hd.2⟩
  | write record =>
    simp only [Call.run]
    cases hwriter : session.writer with
    | none => exact h
    | some writer =>
      rw [all_bind]
      refine (h.balanced.writeBytes (h.sized writer hwriter) record).mono (fun next d' hd => ?_) (fun _ _ h => h)
        (fun _ h => h)
      rw [all_pure]
      exact ⟨hd.1, fun writer hwriter => by cases hwriter; exact hd.2⟩
  | rollForJvmRestart =>
    simp only [Call.run]
    cases hwriter : session.writer with
    | none => exact h
    | some writer =>
      rw [all_bind]
      refine (h.balanced.rollForJvmRestart (h.sized writer hwriter)).mono (fun next d' hd => ?_) (fun _ _ h => h)
        (fun _ h => h)
      rw [all_pure]
      exact ⟨hd.1, fun writer hwriter => by cases hwriter; exact hd.2⟩

/-- A refused call keeps it consistent. -/
theorem Consistent.refused {session : Session} (h : Consistent path maxFiles files session d) (call : Call)
    (hsame : Untouched d d') : Consistent path maxFiles files (call.refused session) d' := by
  have hkept : Consistent path maxFiles files session d' :=
    ⟨h.balanced.untouched hsame, fun writer hwriter => (h.sized writer hwriter).untouched hsame⟩
  cases call with
  | create config consoleEnabled => exact ⟨hkept.balanced, fun _ hwriter => by cases hwriter⟩
  | write record => exact hkept
  | rollForJvmRestart => exact hkept

theorem Consistent.runCalls : ∀ (calls : List Call) {session : Session} {d : Disk LogFile},
    Consistent path maxFiles files session d →
    (∀ config consoleEnabled, Call.create config consoleEnabled ∈ calls → configuredMaxFiles config = maxFiles) →
    (runCalls path calls session d).All (Consistent path maxFiles files) (fun _ _ => True) (fun _ => True)
  | [], session, d, h, _ => h
  | call :: calls, session, d, h, hmax => by
    have hrest : ∀ config consoleEnabled, Call.create config consoleEnabled ∈ calls →
        configuredMaxFiles config = maxFiles := fun config console hmem => hmax config console (List.mem_cons_of_mem _ hmem)
    have hcall := h.run call (fun config console heq => hmax config console (heq ▸ List.mem_cons_self))
    unfold Log.runCalls
    rw [all_bind, all_attempt]
    refine hcall.mono (fun next d' hd => ?_) (fun e d' hd => ?_) (fun _ h => h)
    · exact Consistent.runCalls calls hd hrest
    · cases e with
      | config message => exact Consistent.runCalls calls (h.refused call (hd message rfl)) hrest
      | _ => trivial

/-- **What a log holds** after some calls of its writers. -/
structure LogHeld (path : Text) (maxFiles : Nat) (files : BTreeMap Text LogFile) (session : Session)
    (d : Disk LogFile) : Prop where
  size : ∀ writer, session.writer = some writer →
    ∃ file, d.files.get path = some file ∧ writer.currentSize = file.bytes.length
  unbounded : maxFiles = 0 →
    bytesOf (chronicle path d.files) = bytesOf (chronicle path files) ++ session.records.flatten
  /-- What is not held any more is whole files. -/
  bounded : maxFiles ≠ 0 → bytesOf (beyond path maxFiles files ++ removedFiles d.steps) ++
    bytesOf (contents (slots path d.files) maxFiles) = bytesOf (chronicle path files) ++ session.records.flatten
  above : maxFiles ≠ 0 → ∀ n, maxFiles < n → slots path d.files n = slots path files n

/-- **Every record is in the log once, in order**, until the file it is in is the oldest of too many. -/
theorem calls_keep_the_log (path : Text) (maxFiles : Nat) (files : BTreeMap Text LogFile)
    (script : List (Option IoErrorKind)) (calls : List Call)
    (hmax : ∀ config consoleEnabled, Call.create config consoleEnabled ∈ calls → configuredMaxFiles config = maxFiles)
    (session : Session) (d : Disk LogFile) (hrun : runCalls path calls {} { files, script } = .ok session d) :
    LogHeld path maxFiles files session d := by
  have hstart : Consistent path maxFiles files {} { files, script } := by
    refine ⟨⟨?_, fun _ => rfl, fun _ _ _ => rfl⟩, fun _ h => by cases h⟩
    have htotal := congrArg bytesOf (beyond_append_held path maxFiles files)
    simpa [bytesOf, removedFiles] using htotal
  have hend := Consistent.runCalls calls hstart hmax
  rw [hrun] at hend
  obtain ⟨⟨hbalance, hnone, habove⟩, hsized⟩ := hend
  refine ⟨fun writer hwriter => ?_, fun hzero => ?_, fun hne => ?_, habove⟩
  · exact (hsized writer hwriter).size
  · have hheld : held path maxFiles d.files = chronicle path d.files := if_pos hzero
    have hbeyond : beyond path maxFiles files = [] := if_pos hzero
    rw [hbeyond, hnone hzero, hheld] at hbalance
    exact hbalance
  · have hheld : held path maxFiles d.files = contents (slots path d.files) maxFiles := if_neg hne
    rw [hheld] at hbalance
    simpa [bytesOf] using hbalance

/-- A log that is rolled before each record but the first, and keeps one archive. -/
def rollingConfig : Config where
  properties := [("wrapper.logfile.maxfiles", "1"), ("wrapper.logfile.maxsize", "1")]
  sorted := by decide +kernel

def rollingCalls : List Call :=
  [.create rollingConfig false, .write ⟨.info, .wrapper, [65], ⟨2024, 1, 2, 3, 4, 5, 0⟩, 0⟩,
    .write ⟨.info, .jvm 1, [66], ⟨2024, 1, 2, 3, 4, 6, 0⟩, 0⟩]

theorem two_records_in_two_files : ∃ session d,
    runCalls "log" rollingCalls {} { files := BTreeMap.empty, script := List.replicate 20 none } = .ok session d ∧
      LogHeld "log" 1 BTreeMap.empty session d := by
  have hmax : ∀ config consoleEnabled, Call.create config consoleEnabled ∈ rollingCalls →
      configuredMaxFiles config = 1 := by
    intro config consoleEnabled hmem
    have hconfig : config = rollingConfig ∧ consoleEnabled = false := by simpa [rollingCalls] using hmem
    rw [hconfig.1]
    decide +kernel
  have hok : (runCalls "log" rollingCalls {}
      { files := BTreeMap.empty, script := List.replicate 20 none }).result.isSome = true := by decide +kernel
  obtain ⟨session, hsession⟩ := Option.isSome_iff_exists.1 hok
  have hrun := Outcome.eq_of_result hsession
  exact ⟨session, _, hrun, calls_keep_the_log "log" 1 _ _ rollingCalls hmax session _ hrun⟩

end Log
end Jss
