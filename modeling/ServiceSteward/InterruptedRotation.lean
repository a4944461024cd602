import ServiceSteward.Rotation
/-!
# InterruptedRotation — what any beginning of `rotate` leaves behind

From the first rename on, the slot above the next file to move is empty, so a rename never meets a file and the files
keep their order; where the rotation stops does not matter.  Only the file that was in slot `maxFiles` is taken away,
before anything moves.
-/
namespace Jss
namespace Log

open Scripted
open Slots (contents move clear put)

variable {α : Type} {path : Text}

/-- The files of some slots, moved up to no higher than a limit. -/
structure Moved (limit : Nat) (g f : Nat → Option α) : Prop where
  same : ∀ k, limit ≤ k → contents f k = contents g k
  above : ∀ n, limit < n → f n = g n

theorem Moved.refl (limit : Nat) (f : Nat → Option α) : Moved limit f f := ⟨fun _ _ => rfl, fun _ _ => rfl⟩

theorem Moved.step {limit : Nat} {g f : Nat → Option α} (h : Moved limit g f) {i : Nat} (hi : i < limit)
    (hfree : f (i + 1) = none) : Moved limit g (move f i) := by
  constructor
  · intro k hk
    rw [Slots.contents_move hfree (by omega)]
    exact h.same k hk
  · intro n hn
    have h1 : n ≠ i + 1 := by omega
    have h2 : n ≠ i := by omega
    rw [← h.above n hn]
    simp only [move, if_neg h1, if_neg h2]

/-- The renames so far have moved the files of `g`, each to the next slot and none over another. -/
structure Rotating (path : Text) (limit : Nat) (g : Nat → Option α) (start d : Disk α) : Prop where
  moved : Moved limit g (slots path d.files)
  steps : ∃ new, d.steps = start.steps ++ new ∧
    ∀ s ∈ new, ∃ i, s = .renamed (slotName path i) (slotName path (i + 1)) none
  others : ∀ name, (∀ n, name ≠ slotName path n) → d.files.get name = start.files.get name

/-! ## One rename -/

theorem operation_spec {P : Disk α → Prop} (hP : ∀ d script, P d → P { d with script := script }) {d : Disk α}
    (h : P d) : (operation d).All (fun _ => P) (fun _ => P) P := by
  unfold operation
  split
  · exact h
  · exact hP d _ h
  · exact hP d _ h

theorem Rotating.removed {limit : Nat} {g : Nat → Option α} {start d : Disk α} (h : Rotating path limit g start d) :
    removedFiles d.steps = removedFiles start.steps := by
  obtain ⟨new, hsteps, hnew⟩ := h.steps
  have hnone : removedFiles new = [] := by
    apply List.filterMap_eq_nil_iff.2
    intro s hs
    obtain ⟨i, rfl⟩ := hnew s hs
    rfl
  rw [hsteps, removedFiles, List.filterMap_append, ← removedFiles, ← removedFiles, hnone, List.append_nil]

theorem Rotating.script {limit : Nat} {g : Nat → Option α} {start d : Disk α} (h : Rotating path limit g start d)
    (script : List (Option IoErrorKind)) : Rotating path limit g start { d with script := script } :=
  ⟨h.moved, h.steps, h.others⟩

theorem Rotating.moveUp {limit : Nat} {g : Nat → Option α} {start d : Disk α} (h : Rotating path limit g start d)
    {i : Nat} (hi : i < limit) (hfree : slots path d.files (i + 1) = none) :
    (renameIfExists (slotName path i) (slotName path (i + 1)) d).All
      (fun _ d' => Rotating path limit g start d' ∧ slots path d'.files i = none)
      (fun _ => Rotating path limit g start) (Rotating path limit g start) := by
  unfold renameIfExists fileExists
  rw [all_bind, all_bind, all_get, all_pure]
  cases hslot : slots path d.files i with
  | none =>
    have hget : d.files.get (slotName path i) = none := hslot
    rw [hget]
    exact ⟨h, hslot⟩
  | some content =>
    have hget : d.files.get (slotName path i) = some content := hslot
    rw [hget, if_pos Option.isSome_some]
    unfold rename
    rw [all_bind]
    -- the operation itself changes only the script
    have hready : ((operation : Io α Unit) d).All (fun _ d' => Rotating path limit g start d' ∧ d'.files = d.files)
        (fun _ d' => Rotating path limit g start d' ∧ d'.files = d.files)
        (fun d' => Rotating path limit g start d' ∧ d'.files = d.files) :=
      operation_spec (fun d' script hd => ⟨hd.1.script script, hd.2⟩) ⟨h, rfl⟩
    refine hready.mono (fun _ d' hd => ?_) (fun _ _ hd => hd.1) (fun _ hd => hd.1)
    obtain ⟨hd, hfiles⟩ := hd
    rw [all_bind, all_get, hfiles, hget, all_modify]
    have hslot' : slots path d'.files i = some content := by rw [hfiles]; exact hslot
    have hfree' : slots path d'.files (i + 1) = none := by rw [hfiles]; exact hfree
    have hmoved := slots_rename d'.files hslot'
    refine ⟨⟨?_, ?_, ?_⟩, ?_⟩
    · rw [hmoved]
      exact hd.moved.step hi hfree'
    · obtain ⟨new, hsteps, hnew⟩ := hd.steps
      refine ⟨new ++ [.renamed (slotName path i) (slotName path (i + 1)) none], ?_, ?_⟩
      · have hreplaced : d'.files.get (slotName path (i + 1)) = none := hfree'
        simp [hsteps, hreplaced]
      · intro s hs
        rcases List.mem_append.1 hs with hs | hs
        · exact hnew s hs
        · exact ⟨i, List.mem_singleton.1 hs⟩
    · intro name hname
      rw [← hd.others name hname]
      simp [hname i, hname (i + 1)]
    · rw [hmoved]
      simp [move]

/-- The loop of `rotate`: it leaves slot 1 empty. -/
theorem Rotating.shift {limit : Nat} {g : Nat → Option α} {start : Disk α} : ∀ (index : Nat) {d : Disk α},
    Rotating path limit g start d → index < limit → slots path d.files (index + 1) = none →
      (shift path index d).All (fun _ d' => Rotating path limit g start d' ∧ slots path d'.files 1 = none)
        (fun _ => Rotating path limit g start) (Rotating path limit g start)
  | 0, d, h, _, hfree => ⟨h, hfree⟩
  | index + 1, d, h, hlimit, hfree => by
    unfold Log.shift
    rw [all_bind]
    refine (h.moveUp hlimit hfree).mono (fun _ d' hd => ?_) (fun _ _ hd => hd) (fun _ hd => hd)
    exact Rotating.shift index hd.1 (by omega) hd.2

/-! ## The whole rotation -/

/-- **What a rotation has done**, wherever it stopped. -/
structure Rotated (path : Text) (maxFiles : Nat) (start d : Disk α) : Prop where
  /-- Renames go to the next slot and over no file, and only the file in slot `maxFiles` is removed. -/
  steps : ∃ new, d.steps = start.steps ++ new ∧ ∀ s ∈ new,
    (∃ i, s = .renamed (slotName path i) (slotName path (i + 1)) none) ∨
      (maxFiles ≠ 0 ∧ ∃ content, s = .removed (slotName path maxFiles) content ∧
        slots path start.files maxFiles = some content)
  /-- The files are those of before, perhaps without that one, moved up. -/
  moved : ∃ limit g, Moved limit g (slots path d.files) ∧ (maxFiles ≠ 0 → limit = maxFiles) ∧
    (g = slots path start.files ∨ maxFiles ≠ 0 ∧ g = clear (slots path start.files) maxFiles)
  others : ∀ name, (∀ n, name ≠ slotName path n) → d.files.get name = start.files.get name

theorem Rotated.none {maxFiles : Nat} {start d : Disk α} (hfiles : d.files = start.files)
    (hsteps : d.steps = start.steps) : Rotated path maxFiles start d := by
  refine ⟨⟨[], by simp [hsteps], by simp⟩, ⟨maxFiles, slots path start.files, ?_, fun _ => rfl, .inl rfl⟩, ?_⟩
  · rw [hfiles]
    exact Moved.refl _ _
  · rw [hfiles]
    exact fun _ _ => rfl

/-- What `rotate` knows once it starts to rename. -/
structure Ready (path : Text) (maxFiles limit : Nat) (start d : Disk α) : Prop where
  positive : 0 < limit
  bound : maxFiles ≠ 0 → limit = maxFiles
  free : slots path d.files limit = Option.none
  cleared : slots path d.files = if maxFiles = 0 then slots path start.files else clear (slots path start.files) maxFiles
  removed : removedFiles d.steps =
    removedFiles start.steps ++ (if maxFiles = 0 then [] else (Log.slots path start.files maxFiles).toList)
  rotated : Rotated path maxFiles start d

theorem highest_bounds (path : Text) (files : BTreeMap Text α) (n : Nat) (hn : n ≤ Text.u32Max)
    (habove : (files.keys.filterMap (rolledIndex path)).foldl max 0 < n) : slots path files n = none := by
  cases n with
  | zero => omega
  | succ n =>
    by_cases hslot : slots path files (n + 1) = none
    · exact hslot
    · have hkey : rolledPath path (n + 1) ∈ files.keys :=
        BTreeMap.mem_keys_of_get (Option.isSome_iff_ne_none.2 hslot)
      have hmem : n + 1 ∈ files.keys.filterMap (rolledIndex path) :=
        List.mem_filterMap.2 ⟨_, hkey, rolledIndex_rolledPath hn⟩
      have hle := (le_foldl_max _ 0).2 _ hmem
      omega

theorem rotationLimit_spec (maxFiles : Nat) (start : Disk α) :
    (rotationLimit path maxFiles start).All (fun limit d => Ready path maxFiles limit start d)
      (fun _ => Rotated path maxFiles start) (Rotated path maxFiles start) := by
  have hready : ((operation : Io α Unit) start).All (fun _ d => d.files = start.files ∧ d.steps = start.steps)
      (fun _ d => d.files = start.files ∧ d.steps = start.steps)
      (fun d => d.files = start.files ∧ d.steps = start.steps) :=
    operation_spec (fun _ _ h => h) ⟨rfl, rfl⟩
  unfold rotationLimit
  by_cases hmax : maxFiles = 0
  · rw [if_pos hmax]
    unfold highestRolledIndex readDir
    rw [all_bind, all_bind, all_bind]
    refine hready.mono (fun _ d hd => ?_) (fun _ d hd => .none hd.1 hd.2) (fun d hd => .none hd.1 hd.2)
    rw [all_bind, all_get, all_pure, all_pure]
    split
    · rename_i hbound
      rw [all_pure]
      have hfree := highest_bounds path d.files _ hbound (Nat.lt_succ_self _)
      exact ⟨Nat.succ_pos _, fun h => absurd hmax h, hfree, by rw [if_pos hmax, hd.1], by simp [hd.2, hmax],
        .none hd.1 hd.2⟩
    · exact .none hd.1 hd.2
  · rw [if_neg hmax]
    obtain ⟨top, rfl⟩ := Nat.exists_eq_succ_of_ne_zero hmax
    have hname : rolledPath path (top + 1) = slotName path (top + 1) := rfl
    unfold removeIfExists fileExists
    rw [all_bind, all_bind, all_bind, all_get, all_pure]
    cases hslot : slots path start.files (top + 1) with
    | none =>
      have hget : start.files.get (rolledPath path (top + 1)) = Option.none := hslot
      rw [hget]
      refine ⟨Nat.succ_pos _, fun _ => rfl, hslot, ?_, by simp [hslot], .none rfl rfl⟩
      rw [if_neg hmax]
      funext n
      by_cases hn : n = top + 1
      · simp [clear, hn, hslot]
      · simp [clear, hn]
    | some content =>
      have hget : start.files.get (rolledPath path (top + 1)) = some content := hslot
      rw [hget]
      unfold removeFile
      rw [if_pos Option.isSome_some, all_bind]
      refine hready.mono (fun _ d hd => ?_) (fun _ d hd => .none hd.1 hd.2) (fun d hd => .none hd.1 hd.2)
      rw [all_bind, all_get, hd.1, hget, all_modify]
      have hcleared : slots path (start.files.erase (rolledPath path (top + 1))) =
          clear (slots path start.files) (top + 1) := slots_erase start.files (top + 1)
      refine ⟨Nat.succ_pos _, fun _ => rfl, ?_, ?_, ?_, ?_⟩
      · rw [hd.1, hcleared]
        simp [clear]
      · rw [if_neg hmax, hd.1, hcleared]
      · simp [hd.2, hslot, removedFiles]
      · refine ⟨⟨[.removed (slotName path (top + 1)) content], by simp [hd.2, hname], fun s hs => ?_⟩, ?_, ?_⟩
        · exact .inr ⟨hmax, content, List.mem_singleton.1 hs, hslot⟩
        · refine ⟨top + 1, clear (Log.slots path start.files) (top + 1), ?_, fun _ => rfl, .inr ⟨hmax, rfl⟩⟩
          rw [hd.1, hcleared]
          exact Moved.refl _ _
        · intro name hne
          simp [hd.1, hne (top + 1), hname]

/-- The renames after the start of a rotation. -/
theorem Rotating.rotated {maxFiles limit : Nat} {start mid d : Disk α} (hready : Ready path maxFiles limit start mid)
    (h : Rotating path limit (slots path mid.files) mid d) : Rotated path maxFiles start d := by
  obtain ⟨new, hsteps, hnew⟩ := h.steps
  obtain ⟨before, hbefore, hremoved⟩ := hready.rotated.steps
  refine ⟨⟨before ++ new, by rw [hsteps, hbefore, List.append_assoc], fun s hs => ?_⟩, ?_, ?_⟩
  · rcases List.mem_append.1 hs with hs | hs
    · exact hremoved s hs
    · exact .inl (hnew s hs)
  · refine ⟨limit, _, h.moved, hready.bound, ?_⟩
    by_cases hmax : maxFiles = 0
    · exact .inl (by rw [hready.cleared, if_pos hmax])
    · exact .inr ⟨hmax, by rw [hready.cleared, if_neg hmax]⟩
  · intro name hname
    rw [h.others name hname, hready.rotated.others name hname]

/-- **A rotation that returns** has moved every file but the one in slot `maxFiles`, and leaves no active file. -/
structure Complete (path : Text) (maxFiles : Nat) (start d : Disk α) : Prop where
  rotated : Rotated path maxFiles start d
  moved : ∃ limit, Moved limit (if maxFiles = 0 then slots path start.files else clear (slots path start.files) maxFiles)
    (slots path d.files) ∧ (maxFiles ≠ 0 → limit = maxFiles)
  removed : removedFiles d.steps =
    removedFiles start.steps ++ (if maxFiles = 0 then [] else (slots path start.files maxFiles).toList)
  active : slots path d.files 0 = none

theorem rotate_spec (path : Text) (maxFiles : Nat) (start : Disk α) :
    (rotate path maxFiles start).All (fun _ => Complete path maxFiles start) (fun _ => Rotated path maxFiles start)
      (Rotated path maxFiles start) := by
  unfold rotate
  rw [all_bind]
  refine (rotationLimit_spec maxFiles start).mono (fun limit mid hready => ?_) (fun _ _ h => h) (fun _ h => h)
  obtain ⟨last, rfl⟩ := Nat.exists_eq_succ_of_ne_zero (Nat.pos_iff_ne_zero.1 hready.positive)
  have hstart : Rotating path (last + 1) (slots path mid.files) mid mid :=
    ⟨Moved.refl _ _, ⟨[], by simp, by simp⟩, fun _ _ => rfl⟩
  rw [all_bind]
  refine (hstart.shift last (Nat.lt_succ_self _) hready.free).mono (fun _ d hd => ?_)
    (fun _ _ h => h.rotated hready) (fun _ h => h.rotated hready)
  refine (hd.1.moveUp (i := 0) (Nat.succ_pos _) hd.2).mono (fun _ d' hd' => ?_) (fun _ _ h => h.rotated hready)
    (fun _ h => h.rotated hready)
  refine ⟨hd'.1.rotated hready, ⟨last + 1, ?_, hready.bound⟩, ?_, hd'.2⟩
  · rw [← hready.cleared]
    exact hd'.1.moved
  · rw [hd'.1.removed, hready.removed]

theorem rotate_rotated (path : Text) (maxFiles : Nat) (start : Disk α) :
    Rotated path maxFiles start (rotate path maxFiles start).state := by
  have hspec := rotate_spec path maxFiles start
  cases h : rotate path maxFiles start with
  | ok a d =>
    rw [h] at hspec
    exact hspec.rotated
  | err e d =>
    rw [h] at hspec
    exact hspec
  | blocked d =>
    rw [h] at hspec
    exact hspec

/-- A rotation keeps the age order, and takes away at most the file in slot `maxFiles`. -/
theorem Rotated.chronicle {maxFiles : Nat} {start d : Disk α} (h : Rotated path maxFiles start d) :
    chronicle path d.files = chronicle path start.files ∨
      (maxFiles ≠ 0 ∧ chronicle path d.files = chronicle path (start.files.erase (slotName path maxFiles))) := by
  obtain ⟨limit, g, hmoved, -, hg⟩ := h.moved
  have hread : ∀ (files : BTreeMap Text α), g = slots path files →
      Log.chronicle path d.files = Log.chronicle path files := by
    intro files hfiles
    have hsame := hmoved.same (max limit (max (top path d.files) (top path files))) (by omega)
    rw [hfiles, contents_of_top d.files (by omega), contents_of_top files (by omega)] at hsame
    exact hsame
  rcases hg with hg | ⟨hmax, hg⟩
  · exact .inl (hread _ hg)
  · exact .inr ⟨hmax, hread _ (by rw [hg, slots_erase])⟩

/-! ## Any sequence of rotations -/

/-- What happens to a log: a rotation, cut short wherever its script says, or a logger that opens a new active file if
there is none. -/
inductive LogEvent (α : Type) where
  | rotate (maxFiles : Nat) (script : List (Option IoErrorKind))
  | create (content : α)

def LogEvent.apply (path : Text) (files : BTreeMap Text α) : LogEvent α → BTreeMap Text α
  | .rotate maxFiles script => (Log.rotate path maxFiles { files, script }).state.files
  | .create content => if (files.get path).isSome then files else files.insert path content

def LogEvent.created : LogEvent α → List α
  | .rotate _ _ => []
  | .create content => [content]

/-- The files after some events. -/
def after (path : Text) (files : BTreeMap Text α) (events : List (LogEvent α)) : BTreeMap Text α :=
  events.foldl (LogEvent.apply path) files

/-- **What rotations, interrupted or not, do to the files of a log.** -/
structure LogKept (path : Text) (files : BTreeMap Text α) (events : List (LogEvent α)) : Prop where
  /-- No rename targets an existing file. -/
  renames : ∀ before maxFiles script rest, events = before ++ .rotate maxFiles script :: rest →
    ∀ source target replaced, .renamed source target replaced ∈
      (rotate path maxFiles { files := after path files before, script }).state.steps → replaced = none
  /-- Only the file in slot `maxFiles` at the start of a rotation is removed. -/
  deletions : ∀ before maxFiles script rest, events = before ++ .rotate maxFiles script :: rest →
    ∀ name content, .removed name content ∈
      (rotate path maxFiles { files := after path files before, script }).state.steps →
      maxFiles ≠ 0 ∧ name = rolledPath path maxFiles ∧ (after path files before).get name = some content
  /-- Nothing else is lost, and all other files keep their age order. -/
  rotations : ∀ before maxFiles script rest, events = before ++ .rotate maxFiles script :: rest →
    chronicle path (after path files (before ++ [.rotate maxFiles script])) = chronicle path (after path files before) ∨
      (maxFiles ≠ 0 ∧ chronicle path (after path files (before ++ [.rotate maxFiles script])) =
        chronicle path ((after path files before).erase (rolledPath path maxFiles)))
  /-- A file of the log, the active one among them, is there until it has been in slot `maxFiles` itself. -/
  kept : ∀ content ∈ chronicle path files, content ∈ chronicle path (after path files events) ∨
    ∃ before maxFiles script rest, events = before ++ .rotate maxFiles script :: rest ∧ maxFiles ≠ 0 ∧
      (after path files before).get (rolledPath path maxFiles) = some content
  /-- Survivors are in the order of their age. -/
  order : (chronicle path (after path files events)).Sublist
    (chronicle path files ++ events.flatMap LogEvent.created)

theorem slotName_of_ne {maxFiles : Nat} (h : maxFiles ≠ 0) : slotName path maxFiles = rolledPath path maxFiles := by
  cases maxFiles with
  | zero => exact absurd rfl h
  | succ n => rfl

theorem apply_create (path : Text) (files : BTreeMap Text α) (content : α) :
    chronicle path (LogEvent.apply path files (.create content)) = chronicle path files ∨
      chronicle path (LogEvent.apply path files (.create content)) = chronicle path files ++ [content] := by
  simp only [LogEvent.apply]
  by_cases h : (files.get path).isSome = true
  · rw [if_pos h]
    exact .inl rfl
  · rw [if_neg h]
    have hfree : slots path files 0 = none := by
      change files.get path = none
      simpa using h
    have hput := Slots.contents_put (slots path files) content hfree
      (max (top path files) (top path (files.insert path content)))
    rw [← slots_insert, contents_of_top _ (Nat.le_max_right _ _), contents_of_top _ (Nat.le_max_left _ _)] at hput
    exact .inr hput

theorem apply_rotate (path : Text) (files : BTreeMap Text α) (maxFiles : Nat) (script : List (Option IoErrorKind)) :
    chronicle path (LogEvent.apply path files (.rotate maxFiles script)) = chronicle path files ∨
      (maxFiles ≠ 0 ∧ chronicle path (LogEvent.apply path files (.rotate maxFiles script)) =
        chronicle path (files.erase (rolledPath path maxFiles))) := by
  rcases (rotate_rotated path maxFiles { files, script }).chronicle with h | ⟨hmax, h⟩
  · exact .inl h
  · rw [slotName_of_ne hmax] at h
    exact .inr ⟨hmax, h⟩

theorem chronicle_erase_sublist (files : BTreeMap Text α) {maxFiles : Nat} (h : maxFiles ≠ 0) :
    (chronicle path (files.erase (rolledPath path maxFiles))).Sublist (chronicle path files) := by
  have hsub := Slots.contents_clear_sublist (slots path files) maxFiles
    (max (top path files) (top path (files.erase (slotName path maxFiles))))
  rw [← slots_erase, contents_of_top _ (Nat.le_max_right _ _), contents_of_top _ (Nat.le_max_left _ _),
    slotName_of_ne h] at hsub
  exact hsub

theorem mem_chronicle_erase {files : BTreeMap Text α} {maxFiles : Nat} {content : α} (h : maxFiles ≠ 0)
    (hmem : content ∈ chronicle path files) : content ∈ chronicle path (files.erase (rolledPath path maxFiles)) ∨
      files.get (rolledPath path maxFiles) = some content := by
  obtain ⟨n, hn⟩ := mem_chronicle.1 hmem
  rw [← slotName_of_ne h]
  by_cases heq : n = maxFiles
  · subst heq
    exact .inr hn
  · refine .inl (mem_chronicle.2 ⟨n, ?_⟩)
    rw [slots_erase]
    simp only [clear, if_neg heq]
    exact hn

theorem after_cons (files : BTreeMap Text α) (event : LogEvent α) (events : List (LogEvent α)) :
    after path files (event :: events) = after path (event.apply path files) events := rfl

theorem after_concat (files : BTreeMap Text α) (events : List (LogEvent α)) (event : LogEvent α) :
    after path files (events ++ [event]) = event.apply path (after path files events) := by
  simp [after]

theorem chronicle_kept : ∀ (events : List (LogEvent α)) (files : BTreeMap Text α) (content : α),
    content ∈ chronicle path files → content ∈ chronicle path (after path files events) ∨
      ∃ before maxFiles script rest, events = before ++ .rotate maxFiles script :: rest ∧ maxFiles ≠ 0 ∧
        (after path files before).get (rolledPath path maxFiles) = some content
  | [], _, _, h => .inl h
  | event :: events, files, content, h => by
    have hnext : content ∈ chronicle path (event.apply path files) ∨ ∃ maxFiles script,
        event = .rotate maxFiles script ∧ maxFiles ≠ 0 ∧ files.get (rolledPath path maxFiles) = some content := by
      cases event with
      | rotate maxFiles script =>
        rcases apply_rotate path files maxFiles script with hsame | ⟨hmax, herased⟩
        · rw [hsame]
          exact .inl h
        · rcases mem_chronicle_erase hmax h with hmem | hlast
          · rw [herased]
            exact .inl hmem
          · exact .inr ⟨maxFiles, script, rfl, hmax, hlast⟩
      | create created =>
        rcases apply_create path files created with hsame | hmore
        · rw [hsame]
          exact .inl h
        · rw [hmore]
          exact .inl (List.mem_append_left _ h)
    rcases hnext with hmem | ⟨maxFiles, script, rfl, hmax, hlast⟩
    · rcases chronicle_kept events _ content hmem with hend | ⟨before, maxFiles, script, rest, rfl, hmax, hlast⟩
      · exact .inl hend
      · exact .inr ⟨event :: before, maxFiles, script, rest, rfl, hmax, hlast⟩
    · exact .inr ⟨[], maxFiles, script, events, rfl, hmax, hlast⟩

theorem chronicle_order : ∀ (events : List (LogEvent α)) (files : BTreeMap Text α),
    (chronicle path (after path files events)).Sublist (chronicle path files ++ events.flatMap LogEvent.created)
  | [], files => by simp [after]
  | event :: events, files => by
    have hnext : (chronicle path (event.apply path files)).Sublist (chronicle path files ++ event.created) := by
      cases event with
      | rotate maxFiles script =>
        have hcreated : (LogEvent.rotate maxFiles script : LogEvent α).created = [] := rfl
        rw [hcreated, List.append_nil]
        rcases apply_rotate path files maxFiles script with hsame | ⟨hmax, herased⟩
        · rw [hsame]
        · rw [herased]
          exact chronicle_erase_sublist files hmax
      | create created =>
        rcases apply_create path files created with hsame | hmore
        · rw [hsame]
          exact List.sublist_append_left _ _
        · rw [hmore]
          exact List.Sublist.refl _
    rw [after_cons, List.flatMap_cons, ← List.append_assoc]
    exact (chronicle_order events _).trans (hnext.append_right _)

/-- **Rotations that are interrupted anywhere, any number of times**, lose nothing but what reached slot `maxFiles`. -/
theorem interrupted_rotations_keep_the_log (path : Text) (files : BTreeMap Text α) (events : List (LogEvent α)) :
    LogKept path files events where
  renames before maxFiles script rest _ source target replaced hmem := by
    obtain ⟨new, hsteps, hnew⟩ :=
      (rotate_rotated path maxFiles { files := after path files before, script }).steps
    rw [hsteps, List.nil_append] at hmem
    rcases hnew _ hmem with ⟨i, heq⟩ | ⟨-, content, heq, -⟩
    · cases heq
      rfl
    · cases heq
  deletions before maxFiles script rest _ name content hmem := by
    obtain ⟨new, hsteps, hnew⟩ :=
      (rotate_rotated path maxFiles { files := after path files before, script }).steps
    rw [hsteps, List.nil_append] at hmem
    rcases hnew _ hmem with ⟨i, heq⟩ | ⟨hmax, removed, heq, hslot⟩
    · cases heq
    · cases heq
      exact ⟨hmax, slotName_of_ne hmax, hslot⟩
  rotations before maxFiles script rest _ := by
    rw [after_concat]
    exact apply_rotate path _ maxFiles script
  kept := chronicle_kept events files
  order := chronicle_order events files

end Log
end Jss
