import ServiceSteward.BTreeMap
import ServiceSteward.Scripted
import ServiceSteward.Slots
import ServiceSteward.Text
/-!
# Rotation — the log directory and `rotate`

A `Disk` is the directory of the log file.  Every operation on it that can fail takes the next answer of the script:
it works, or fails with an error; when the script is over the process is gone, in the middle of what it did.  `α` is what
a file is: a rotation never looks inside.
-/
namespace Jss
namespace Log

open Scripted (Prog)

/-- An operation that changed the directory, and what that did away with. -/
inductive FileStep (α : Type) where
  | removed (name : Text) (content : α)
  | renamed (source target : Text) (replaced : Option α)
  deriving DecidableEq

structure Disk (α : Type) where
  files : BTreeMap Text α
  script : List (Option IoErrorKind) := []
  steps : List (FileStep α) := []
  /-- What the process has written to its standard output. -/
  stdout : Bytes := []

def removedFiles {α : Type} (steps : List (FileStep α)) : List α :=
  steps.filterMap (fun step => match step with
    | .removed _ content => some content
    | .renamed _ _ _ => none)

abbrev Io (α β : Type) := Prog (Disk α) Error β

section Operations

variable {α : Type}

/-- What an operation meets before it does anything. -/
def operation : Io α Unit := fun d =>
  match d.script with
  | [] => .blocked d
  | none :: rest => .ok () { d with script := rest }
  | some kind :: rest => .err (.io kind) { d with script := rest }

/-- `Path::exists`. -/
def fileExists (name : Text) : Io α Bool := do
  return ((← Prog.get).files.get name).isSome

/-- `fs::remove_file`. -/
def removeFile (name : Text) : Io α Unit := do
  operation
  match (← Prog.get).files.get name with
  | none => Prog.throw (.io .notFound)
  | some content =>
    Prog.modify (fun d => { d with files := d.files.erase name, steps := d.steps ++ [.removed name content] })

/-- `fs::rename`. -/
def rename (source target : Text) : Io α Unit := do
  operation
  match (← Prog.get).files.get source with
  | none => Prog.throw (.io .notFound)
  | some content =>
    Prog.modify (fun d => { d with
      files := (d.files.erase source).insert target content
      steps := d.steps ++ [.renamed source target (d.files.get target)] })

/-- `fs::read_dir`: the names in the directory. -/
def readDir : Io α (List Text) := do
  operation
  return (← Prog.get).files.keys

end Operations

/-! ## `rotate` -/

def rolledPath (path : Text) (index : Nat) : Text := path ++ '.' :: Text.ofNat index

/-- The index of a rolled file, as `highest_rolled_index` reads it off a name. -/
def rolledIndex (path name : Text) : Option Nat :=
  (Text.stripPrefix (path ++ ['.']) name).bind (Text.parseUnsigned Text.u32Max)

section Rotate

variable {α : Type}

def highestRolledIndex (path : Text) : Io α Nat := do
  let names ← readDir
  return (names.filterMap (rolledIndex path)).foldl max 0

def removeIfExists (name : Text) : Io α Unit := do
  if ← fileExists name then removeFile name

def renameIfExists (source target : Text) : Io α Unit := do
  if ← fileExists source then rename source target

/-- What `rotate` does before it renames anything: the index that the oldest file it keeps is to get. -/
def rotationLimit (path : Text) (maxFiles : Nat) : Io α Nat :=
  if maxFiles = 0 then do
    let highest ← highestRolledIndex path
    if highest + 1 ≤ Text.u32Max then return highest + 1
    else Prog.throw (.config "too many rotated log files")
  else do
    removeIfExists (rolledPath path maxFiles)
    return maxFiles

/-- The loop of `rotate`, from an index down to 1. -/
def shift (path : Text) : Nat → Io α Unit
  | 0 => return ()
  | index + 1 => do
    renameIfExists (rolledPath path (index + 1)) (rolledPath path (index + 2))
    shift path index

def rotate (path : Text) (maxFiles : Nat) : Io α Unit := do
  let rotationLimit ← rotationLimit path maxFiles
  shift path (rotationLimit - 1)
  renameIfExists path (rolledPath path 1)

end Rotate

/-! ## The files as slots -/

/-- The active file is slot 0, and the archives are the slots above it. -/
def slotName (path : Text) : Nat → Text
  | 0 => path
  | n + 1 => rolledPath path (n + 1)

def slots {α : Type} (path : Text) (files : BTreeMap Text α) (n : Nat) : Option α := files.get (slotName path n)

theorem rolledPath_injective {path : Text} {m n : Nat} (h : rolledPath path m = rolledPath path n) : m = n := by
  have htail := List.append_cancel_left h
  exact Text.ofNat_injective (List.cons.inj htail).2

theorem rolledPath_ne (path : Text) (n : Nat) : rolledPath path n ≠ path := by
  intro h
  have hlength := congrArg List.length h
  simp [rolledPath] at hlength

theorem slotName_injective {path : Text} {m n : Nat} (h : slotName path m = slotName path n) : m = n := by
  cases m with
  | zero =>
    cases n with
    | zero => rfl
    | succ n => exact absurd h.symm (rolledPath_ne path _)
  | succ m =>
    cases n with
    | zero => exact absurd h (rolledPath_ne path _)
    | succ n => exact rolledPath_injective h

theorem rolledIndex_rolledPath {path : Text} {n : Nat} (h : n ≤ Text.u32Max) :
    rolledIndex path (rolledPath path n) = some n := by
  have hname : rolledPath path n = (path ++ ['.']) ++ Text.ofNat n := by simp [rolledPath]
  unfold rolledIndex Text.stripPrefix
  rw [hname]
  simp [Text.parseUnsigned_ofNat h]

section Slots

variable {α : Type} {path : Text}

theorem slots_erase (files : BTreeMap Text α) (i : Nat) :
    slots path (files.erase (slotName path i)) = Slots.clear (slots path files) i := by
  funext n
  unfold slots Slots.clear
  rw [BTreeMap.get_erase]
  by_cases h : n = i
  · simp [h]
  · have hne : slotName path n ≠ slotName path i := fun heq => h (slotName_injective heq)
    simp [h, hne]

theorem slots_rename (files : BTreeMap Text α) {i : Nat} {content : α} (hi : slots path files i = some content) :
    slots path ((files.erase (slotName path i)).insert (slotName path (i + 1)) content) =
      Slots.move (slots path files) i := by
  funext n
  unfold Slots.move
  have hget : slots path ((files.erase (slotName path i)).insert (slotName path (i + 1)) content) n =
      if slotName path n = slotName path (i + 1) then some content
      else if slotName path n = slotName path i then none else slots path files n := by
    simp [slots]
  rw [hget]
  by_cases h1 : n = i + 1
  · simp [h1, hi]
  · have hne1 : slotName path n ≠ slotName path (i + 1) := fun heq => h1 (slotName_injective heq)
    by_cases h2 : n = i
    · subst h2
      rw [if_neg hne1, if_pos rfl, if_neg h1, if_pos rfl]
    · have hne2 : slotName path n ≠ slotName path i := fun heq => h2 (slotName_injective heq)
      rw [if_neg hne1, if_neg hne2, if_neg h1, if_neg h2]

theorem slots_insert (files : BTreeMap Text α) (content : α) :
    slots path (files.insert path content) = Slots.put (slots path files) content := by
  funext n
  have hget : slots path (files.insert path content) n =
      if slotName path n = path then some content else slots path files n := by
    simp [slots]
  rw [hget]
  unfold Slots.put
  cases n with
  | zero => rw [if_pos rfl, slotName, if_pos rfl]
  | succ n =>
    have hne : slotName path (n + 1) ≠ path := rolledPath_ne path _
    rw [if_neg hne, if_neg (Nat.succ_ne_zero n)]

theorem slots_insert_above (files : BTreeMap Text α) (content : α) {n : Nat} (hn : 0 < n) :
    slots path (files.insert path content) n = slots path files n := by
  have hne : n ≠ 0 := by omega
  rw [slots_insert]
  simp only [Slots.put, if_neg hne]

end Slots

/-! ## The files in age order -/

theorem le_foldl_max : ∀ (ns : List Nat) (a : Nat), a ≤ ns.foldl max a ∧ ∀ n ∈ ns, n ≤ ns.foldl max a
  | [], a => ⟨Nat.le_refl a, by simp⟩
  | n :: ns, a => by
    obtain ⟨hstart, hrest⟩ := le_foldl_max ns (max a n)
    rw [List.foldl_cons]
    refine ⟨by omega, fun m hm => ?_⟩
    rcases List.mem_cons.1 hm with rfl | hm
    · omega
    · exact hrest m hm

/-- An index that no archive is beyond. -/
def top {α : Type} (path : Text) (files : BTreeMap Text α) : Nat :=
  (files.keys.filterMap (fun name => (Text.stripPrefix (path ++ ['.']) name).bind Text.digits)).foldl max 0

/-- **The files of a log from the oldest to the active one.** -/
def chronicle {α : Type} (path : Text) (files : BTreeMap Text α) : List α :=
  Slots.contents (slots path files) (top path files)

section Chronicle

variable {α : Type} {path : Text}

theorem slots_above_top (files : BTreeMap Text α) : ∀ n, top path files < n → slots path files n = none := by
  intro n hn
  cases n with
  | zero => omega
  | succ n =>
    by_cases hslot : slots path files (n + 1) = none
    · exact hslot
    · have hkey : rolledPath path (n + 1) ∈ files.keys :=
        BTreeMap.mem_keys_of_get (Option.isSome_iff_ne_none.2 hslot)
      have hindex : (Text.stripPrefix (path ++ ['.']) (rolledPath path (n + 1))).bind Text.digits = some (n + 1) := by
        have hname : rolledPath path (n + 1) = (path ++ ['.']) ++ Text.ofNat (n + 1) := by simp [rolledPath]
        rw [hname]
        simp [Text.stripPrefix, Text.digits_ofNat]
      have hmem : n + 1 ∈ files.keys.filterMap (fun name => (Text.stripPrefix (path ++ ['.']) name).bind Text.digits) :=
        List.mem_filterMap.2 ⟨_, hkey, hindex⟩
      have hle := (le_foldl_max _ 0).2 _ hmem
      unfold top at hn
      omega

theorem contents_of_top (files : BTreeMap Text α) {k : Nat} (hk : top path files ≤ k) :
    Slots.contents (slots path files) k = chronicle path files :=
  Slots.contents_eq_of_empty (slots_above_top files) hk

theorem mem_chronicle {files : BTreeMap Text α} {a : α} :
    a ∈ chronicle path files ↔ ∃ n, slots path files n = some a := by
  unfold chronicle
  rw [Slots.mem_contents]
  constructor
  · rintro ⟨n, -, hn⟩
    exact ⟨n, hn⟩
  · rintro ⟨n, hn⟩
    refine ⟨n, ?_, hn⟩
    by_cases hle : n ≤ top path files
    · exact hle
    · rw [slots_above_top files n (by omega)] at hn
      cases hn

end Chronicle

end Log
end Jss
