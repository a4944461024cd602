import ServiceSteward.Text
/-!
# JarScan — which main class is launched

`resolve_main_class` replaces a class that is not on the classpath by a bundled launcher.  Whether a JAR has a class is
read off the last bytes of the file, where the central directory repeats the name of each entry.
-/
namespace Jss
namespace Jvm

/-! ## The classpath -/

def BRIDGE_PACKAGE : Text := "io.github.jayyanez.jss.bridge"

def BUNDLED_LAUNCHERS : List Text := ["SimpleApp", "StartStopApp", "JarApp"]

def JAR_SCAN_LIMIT : Nat := 4 * 1024 * 1024

inductive MainClass where
  | bundled (launcher : Text) (mappedFrom : Option Text)
  | direct (name : Text)
  deriving DecidableEq, Repr

/-- The paths and files that the code asks the system for.  A path is its text. -/
structure Files where
  fileName : Text → Option Text
  parent : Text → Option Text
  extension : Text → Option Text
  join : Text → Text → Text
  isDir : Text → Bool
  isFile : Text → Bool
  /-- `fs::read_dir`: the path of each entry that can be read. -/
  readDir : Text → Option (List (Option Text))
  /-- The bytes of a file that can be opened and read. -/
  read : Text → Option Bytes

/-- `slice::windows`. -/
def windows {α : Type} (size : Nat) (t : List α) : List (List α) :=
  (List.range (t.length + 1 - size)).map (fun i => (t.drop i).take size)

def jarContainsEntry (files : Files) (path relative : Text) : Bool :=
  match files.read path with
  | none => false
  | some bytes =>
    let scanLength := min bytes.length JAR_SCAN_LIMIT
    let needle := relative.asBytes
    (windows needle.length ((bytes.drop (bytes.length - scanLength)).take scanLength)).any (· == needle)

def isJar (files : Files) (path : Text) : Bool :=
  (files.extension path).any (fun extension => extension.toAsciiLowercase == "jar".toList)

def directoryJarsContainEntry (files : Files) (directory relative : Text) : Bool :=
  match files.readDir directory with
  | none => false
  | some entries => (entries.filterMap id).any (fun path => isJar files path && jarContainsEntry files path relative)

def classpathContainsEntry (files : Files) (entries : List Text) (relative : Text) : Bool :=
  entries.any (fun entry =>
    if files.fileName entry = some "*".toList then
      (files.parent entry).any (fun directory => directoryJarsContainEntry files directory relative)
    else if files.isDir entry then files.isFile (files.join entry relative)
    else isJar files entry && jarContainsEntry files entry relative)

/-- The path of a class file. -/
def classFile (className : Text) : Text := className.map (fun c => if c = '.' then '/' else c) ++ ".class".toList

def classpathContainsClass (files : Files) (entries : List Text) (className : Text) : Bool :=
  classpathContainsEntry files entries (classFile className)

def explicitLauncher (configured : Text) : Option Text := do
  let rest ← Text.stripPrefix BRIDGE_PACKAGE configured
  let simpleName ← Text.stripPrefix ['.'] rest
  BUNDLED_LAUNCHERS.find? (· == simpleName)

/-- The bundled launcher that a class is named like. -/
def lookalike (configured : Text) : Option Text :=
  let simpleName := (configured.reverse.takeWhile (· != '.')).reverse
  BUNDLED_LAUNCHERS.find? (·.isSuffixOf simpleName)

def resolveMainClass (files : Files) (configured : Text) (classpath : List Text) : MainClass :=
  match explicitLauncher configured with
  | some launcher => .bundled launcher none
  | none =>
    match lookalike configured with
    | some launcher =>
      if !classpathContainsClass files classpath configured then .bundled launcher (some configured)
      else .direct configured
    | none => .direct configured

/-! ## JAR files -/

/-- A number in two bytes, the lower one first. -/
def u16 (n : Nat) : Bytes := [UInt8.ofNat n, UInt8.ofNat (n / 256)]

/-- A file header of the central directory. -/
structure FileHeader where
  /-- From the version that made the entry to its size. -/
  fields : Bytes
  /-- The disk, the attributes and the offset of the local header. -/
  attributes : Bytes
  name : Bytes
  extra : Bytes
  comment : Bytes
  fieldsLength : fields.length = 24 := by decide
  attributesLength : attributes.length = 12 := by decide
  nameLength : name.length < 2 ^ 16 := by decide
  extraLength : extra.length < 2 ^ 16 := by decide
  commentLength : comment.length < 2 ^ 16 := by decide

/-- What comes before the name. -/
def FileHeader.head (header : FileHeader) : Bytes :=
  [0x50, 0x4B, 0x01, 0x02] ++ header.fields ++ u16 header.name.length ++ u16 header.extra.length ++
    u16 header.comment.length ++ header.attributes

def FileHeader.bytes (header : FileHeader) : Bytes := header.head ++ header.name ++ header.extra ++ header.comment

/-- A JAR: the local records, the central directory that says what the entries are, and what ends the file. -/
structure Jar where
  records : Bytes
  directory : List FileHeader
  ending : Bytes

namespace Jar

def directoryBytes (jar : Jar) : Bytes := jar.directory.flatMap FileHeader.bytes

def bytes (jar : Jar) : Bytes := jar.records ++ jar.directoryBytes ++ jar.ending

def names (jar : Jar) : List Bytes := jar.directory.map FileHeader.name

/-- Where the whole name of an entry stands: behind the bytes `before`. -/
def IsName (jar : Jar) (before name : Bytes) : Prop :=
  ∃ passed header rest, jar.directory = passed ++ header :: rest ∧ header.name = name ∧
    before = jar.records ++ passed.flatMap FileHeader.bytes ++ header.head

/-- A place among the bytes that are scanned. -/
def Occurs (jar : Jar) (needle before after : Bytes) : Prop :=
  jar.bytes = before ++ needle ++ after ∧ jar.bytes.length - JAR_SCAN_LIMIT ≤ before.length

/-- The needle stands somewhere among those bytes without being the whole name of an entry there. -/
def Stray (jar : Jar) (needle : Bytes) : Prop :=
  ∃ before after, jar.Occurs needle before after ∧ ¬ jar.IsName before needle

end Jar

/-- The JAR files that an entry of the classpath stands for, which is no class directory. -/
def jarsOf (files : Files) (entry : Text) : List Text :=
  if files.fileName entry = some "*".toList then
    ((((files.parent entry).bind files.readDir).getD []).filterMap id).filter (isJar files)
  else [entry].filter (isJar files)

/-- A classpath of JAR files whose central directories are scanned whole. -/
structure OfJars (files : Files) (classpath : List Text) (jars : List Jar) : Prop where
  noDirectories : ∀ entry ∈ classpath, files.fileName entry = some "*".toList ∨ files.isDir entry = false
  contents : List.Forall₂ (fun path jar => files.read path = some jar.bytes) (classpath.flatMap (jarsOf files)) jars
  scanned : ∀ jar ∈ jars, jar.directoryBytes.length + jar.ending.length ≤ JAR_SCAN_LIMIT

/-- Some JAR has the class as an entry. -/
def HasClass (jars : List Jar) (className : Text) : Prop := ∃ jar ∈ jars, (classFile className).asBytes ∈ jar.names

/-- What is expected of the resolution. -/
structure ResolvesByEntries (files : Files) (classpath : List Text) (jars : List Jar) (configured : Text) : Prop where
  reports : classpathContainsClass files classpath configured = true ↔ HasClass jars configured
  absent : ∀ launcher, lookalike configured = some launcher → ¬ HasClass jars configured →
    resolveMainClass files configured classpath = .bundled launcher (some configured)
  present : ∀ launcher, lookalike configured = some launcher → HasClass jars configured →
    resolveMainClass files configured classpath = .direct configured

/-! ## The scan of one JAR -/

theorem mem_windows {α : Type} {size : Nat} {w t : List α} : w ∈ windows size t ↔ w.length = size ∧ w <:+: t := by
  unfold windows
  rw [List.mem_map]
  constructor
  · rintro ⟨i, hi, rfl⟩
    have hlt : i < t.length + 1 - size := List.mem_range.1 hi
    constructor
    · rw [List.length_take, List.length_drop]
      omega
    · exact (List.take_prefix _ _).isInfix.trans (List.drop_suffix _ _).isInfix
  · rintro ⟨hlength, before, after, rfl⟩
    refine ⟨before.length, List.mem_range.2 ?_, ?_⟩
    · simp only [List.length_append]
      omega
    · rw [List.append_assoc, List.drop_left, List.take_left' hlength]

theorem infix_drop_iff {α : Type} {needle t : List α} {start : Nat} (hstart : start ≤ t.length) :
    needle <:+: t.drop start ↔ ∃ before after, t = before ++ needle ++ after ∧ start ≤ before.length := by
  constructor
  · rintro ⟨before, after, h⟩
    refine ⟨t.take start ++ before, after, ?_, ?_⟩
    · rw [List.append_assoc, List.append_assoc, ← List.append_assoc before, h, List.take_append_drop]
    · rw [List.length_append, List.length_take]
      omega
  · rintro ⟨before, after, rfl, hle⟩
    refine ⟨before.drop start, after, ?_⟩
    rw [List.append_assoc before, List.drop_append_of_le_length hle, List.append_assoc]

theorem jarContainsEntry_iff {files : Files} {path relative : Text} {jar : Jar} (h : files.read path = some jar.bytes) :
    jarContainsEntry files path relative = true ↔ ∃ before after, jar.Occurs relative.asBytes before after := by
  have hscan : ((jar.bytes.drop (jar.bytes.length - min jar.bytes.length JAR_SCAN_LIMIT)).take
      (min jar.bytes.length JAR_SCAN_LIMIT)) = jar.bytes.drop (jar.bytes.length - JAR_SCAN_LIMIT) := by
    have hstart : jar.bytes.length - min jar.bytes.length JAR_SCAN_LIMIT = jar.bytes.length - JAR_SCAN_LIMIT := by omega
    rw [hstart, List.take_of_length_le]
    rw [List.length_drop]
    omega
  unfold jarContainsEntry
  rw [h]
  dsimp only
  rw [hscan, List.any_eq_true]
  constructor
  · rintro ⟨candidate, hmem, heq⟩
    rw [eq_of_beq heq] at hmem
    exact (infix_drop_iff (by omega)).1 (mem_windows.1 hmem).2
  · intro hoccurs
    exact ⟨relative.asBytes, mem_windows.2 ⟨rfl, (infix_drop_iff (by omega)).2 hoccurs⟩, beq_self_eq_true _⟩

/-- The name of an entry is found where it stands in the directory. -/
theorem Jar.occurs_of_mem {jar : Jar} (hscanned : jar.directoryBytes.length + jar.ending.length ≤ JAR_SCAN_LIMIT)
    {name : Bytes} (h : name ∈ jar.names) : ∃ before after, jar.Occurs name before after := by
  obtain ⟨header, hmem, rfl⟩ := List.mem_map.1 h
  obtain ⟨passed, rest, hdirectory⟩ := List.append_of_mem hmem
  refine ⟨jar.records ++ passed.flatMap FileHeader.bytes ++ header.head,
    header.extra ++ header.comment ++ rest.flatMap FileHeader.bytes ++ jar.ending, ?_, ?_⟩
  · simp [Jar.bytes, Jar.directoryBytes, hdirectory, FileHeader.bytes]
  · simp only [Jar.bytes, List.length_append]
    omega

theorem Jar.mem_of_isName {jar : Jar} {before name : Bytes} (h : jar.IsName before name) : name ∈ jar.names := by
  obtain ⟨passed, header, rest, hdirectory, hname, -⟩ := h
  unfold Jar.names
  rw [hdirectory, ← hname]
  simp

/-! ## The scan of the classpath -/

theorem classpathContainsEntry_eq {files : Files} {classpath : List Text}
    (h : ∀ entry ∈ classpath, files.fileName entry = some "*".toList ∨ files.isDir entry = false) (relative : Text) :
    classpathContainsEntry files classpath relative =
      (classpath.flatMap (jarsOf files)).any (fun path => jarContainsEntry files path relative) := by
  unfold classpathContainsEntry
  rw [List.any_flatMap]
  apply Bool.eq_iff_iff.2
  rw [List.any_eq_true, List.any_eq_true]
  apply exists_congr
  intro entry
  apply and_congr_right
  intro hmem
  unfold jarsOf
  by_cases hwildcard : files.fileName entry = some "*".toList
  · rw [if_pos hwildcard, if_pos hwildcard]
    cases files.parent entry with
    | none => rfl
    | some directory =>
      rw [Option.any_some, Option.bind_some, directoryJarsContainEntry]
      cases files.readDir directory with
      | none => rfl
      | some entries =>
        dsimp only
        rw [Option.getD_some, List.any_filter]
  · have hfile : files.isDir entry = false := (h entry hmem).resolve_left hwildcard
    rw [if_neg hwildcard, if_neg hwildcard, hfile]
    cases hjar : isJar files entry with
    | false => simp [hjar]
    | true => simp [hjar]

theorem exists_forall₂ {α β : Type} {R : α → β → Prop} {P : α → Prop} {Q : β → Prop} (h : ∀ a b, R a b → (P a ↔ Q b)) :
    ∀ {as : List α} {bs : List β}, List.Forall₂ R as bs → ((∃ a ∈ as, P a) ↔ ∃ b ∈ bs, Q b)
  | _, _, .nil => by simp
  | _, _, .cons hfirst hrest => by
    rw [List.exists_mem_cons_iff, List.exists_mem_cons_iff, h _ _ hfirst, exists_forall₂ h hrest]

/-- A class is reported just if its path stands somewhere in what is scanned of a JAR. -/
theorem classpathContainsClass_iff {files : Files} {classpath : List Text} {jars : List Jar}
    (h : OfJars files classpath jars) (className : Text) : classpathContainsClass files classpath className = true ↔
      ∃ jar ∈ jars, ∃ before after, jar.Occurs (classFile className).asBytes before after := by
  unfold classpathContainsClass
  rw [classpathContainsEntry_eq h.noDirectories, List.any_eq_true]
  exact exists_forall₂ (fun path jar hread => jarContainsEntry_iff hread) h.contents

theorem reported_of_hasClass {files : Files} {classpath : List Text} {jars : List Jar} (h : OfJars files classpath jars)
    {className : Text} (hclass : HasClass jars className) :
    classpathContainsClass files classpath className = true := by
  obtain ⟨jar, hmem, hname⟩ := hclass
  exact (classpathContainsClass_iff h className).2 ⟨jar, hmem, Jar.occurs_of_mem (h.scanned jar hmem) hname⟩

/-- **The resolution goes by the entries exactly if the path of the class file stands nowhere else in what is scanned,
or is an entry as well.** -/
theorem resolvesByEntries_iff {files : Files} {classpath : List Text} {jars : List Jar} {configured : Text}
    (hjars : OfJars files classpath jars) (hexplicit : explicitLauncher configured = none) :
    ResolvesByEntries files classpath jars configured ↔
      ((∃ jar ∈ jars, jar.Stray (classFile configured).asBytes) → HasClass jars configured) := by
  constructor
  · rintro h ⟨jar, hmem, before, after, hoccurs, -⟩
    exact h.reports.1 ((classpathContainsClass_iff hjars configured).2 ⟨jar, hmem, before, after, hoccurs⟩)
  · intro h
    have hreports : classpathContainsClass files classpath configured = true ↔ HasClass jars configured := by
      refine ⟨fun hreported => ?_, reported_of_hasClass hjars⟩
      obtain ⟨jar, hmem, before, after, hoccurs⟩ := (classpathContainsClass_iff hjars configured).1 hreported
      by_cases hname : jar.IsName before (classFile configured).asBytes
      · exact ⟨jar, hmem, Jar.mem_of_isName hname⟩
      · exact h ⟨jar, hmem, before, after, hoccurs, hname⟩
    have hresolve : ∀ launcher, lookalike configured = some launcher →
        resolveMainClass files configured classpath =
          if !classpathContainsClass files classpath configured then .bundled launcher (some configured)
          else .direct configured := by
      intro launcher hlookalike
      unfold resolveMainClass
      rw [hexplicit, hlookalike]
    refine ⟨hreports, fun launcher hlookalike habsent => ?_, fun launcher hlookalike hclass => ?_⟩
    · have hunreported : classpathContainsClass files classpath configured = false := by
        by_contra hreported
        exact habsent (hreports.1 (by simpa using hreported))
      rw [hresolve launcher hlookalike, hunreported]
      rfl
    · rw [hresolve launcher hlookalike, hreports.2 hclass]
      rfl

/-! ## The bundled JAR -/

/-- A system with one file. -/
def oneFile (path : Text) (bytes : Bytes) : Files where
  fileName entry := some entry
  parent _ := none
  extension _ := some "jar".toList
  join directory relative := directory ++ '/' :: relative
  isDir _ := false
  isFile entry := entry == path
  readDir _ := none
  read entry := if entry = path then some bytes else none

/-- A stored class file without contents, at the start of a JAR. -/
def storedEntry (name : Bytes) (h : name.length < 2 ^ 16 := by decide) : FileHeader where
  fields := [0x14, 0, 0x0A, 0] ++ List.replicate 20 0
  attributes := List.replicate 12 0
  name := name
  extra := []
  comment := []
  nameLength := h

/-- A JAR with that entry alone: its local header, its file header, and the end of the central directory. -/
def oneEntry (header : FileHeader) : Jar where
  records := [0x50, 0x4B, 0x03, 0x04, 0x0A, 0] ++ List.replicate 20 0 ++ u16 header.name.length ++ u16 0 ++ header.name
  directory := [header]
  ending := [0x50, 0x4B, 0x05, 0x06, 0, 0, 0, 0, 1, 0, 1, 0] ++ u16 header.bytes.length ++ [0, 0] ++
    u16 (30 + header.name.length) ++ [0, 0, 0, 0]

theorem ofJars_oneEntry {path : Text} (hpath : path ≠ "*".toList) {header : FileHeader}
    (hscanned : (oneEntry header).directoryBytes.length + (oneEntry header).ending.length ≤ JAR_SCAN_LIMIT) :
    OfJars (oneFile path (oneEntry header).bytes) [path] [oneEntry header] where
  noDirectories := fun _ _ => .inr rfl
  contents := by
    have hother : (oneFile path (oneEntry header).bytes).fileName path ≠ some "*".toList :=
      fun h => hpath (Option.some.inj h)
    have hjar : isJar (oneFile path (oneEntry header).bytes) path = true := by
      have hextension : (Text.toAsciiLowercase "jar".toList == "jar".toList) = true := by decide
      exact hextension
    have hpaths : [path].flatMap (jarsOf (oneFile path (oneEntry header).bytes)) = [path] := by
      rw [List.flatMap_singleton, jarsOf, if_neg hother, List.filter_cons_of_pos hjar, List.filter_nil]
    rw [hpaths]
    exact .cons (if_pos rfl) .nil
  scanned := by
    intro jar hmem
    rw [List.mem_singleton.1 hmem]
    exact hscanned

/-- The class that marks the bundled bridge. -/
def BRIDGE_MARKER_CLASS : Text := "io/github/jayyanez/jss/bridge/SimpleApp.class"

def bridgeJar : Jar := oneEntry (storedEntry BRIDGE_MARKER_CLASS.asBytes (by decide +kernel))

def appJar : Jar := oneEntry (storedEntry (Text.asBytes "app/SimpleApp.class") (by decide +kernel))

/-- A class of its own JAR is launched directly. -/
theorem own_class_is_launched :
    ResolvesByEntries (oneFile "app.jar" appJar.bytes) ["app.jar"] [appJar] "app.SimpleApp" :=
  (resolvesByEntries_iff (ofJars_oneEntry (by decide) (by decide +kernel)) (by decide)).2
    (fun _ => ⟨appJar, List.mem_singleton_self _, by decide +kernel⟩)

/-- The bundled bridge passes for a JAR with the class `SimpleApp`, since the name of its launcher ends in
`SimpleApp.class`. -/
theorem bridge_passes_for_a_class :
    OfJars (oneFile "wrapper.jar" bridgeJar.bytes) ["wrapper.jar"] [bridgeJar] ∧ explicitLauncher "SimpleApp" = none ∧
      resolveMainClass (oneFile "wrapper.jar" bridgeJar.bytes) "SimpleApp" ["wrapper.jar"] = .direct "SimpleApp" ∧
      ¬ ResolvesByEntries (oneFile "wrapper.jar" bridgeJar.bytes) ["wrapper.jar"] [bridgeJar] "SimpleApp" := by
  have hresolve : resolveMainClass (oneFile "wrapper.jar" bridgeJar.bytes) "SimpleApp" ["wrapper.jar"] =
      .direct "SimpleApp" := by decide +kernel
  refine ⟨ofJars_oneEntry (by decide) (by decide +kernel), by decide, hresolve, fun h => ?_⟩
  have habsent : ¬ HasClass [bridgeJar] "SimpleApp" := by
    rintro ⟨jar, hmem, hname⟩
    rw [List.mem_singleton.1 hmem] at hname
    exact absurd hname (by decide +kernel)
  have hbundled := h.absent "SimpleApp" (by decide) habsent
  rw [hresolve] at hbundled
  cases hbundled

end Jvm
end Jss
