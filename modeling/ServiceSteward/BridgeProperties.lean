import ServiceSteward.ConfigLoader
import ServiceSteward.JvmRun
/-!
# BridgeProperties — the properties that the bridge reads are those that the supervisor wrote

A single tab separates two entries and a doubled tab is one tab of an entry, so a run of tabs at the end of an entry can
be read in one way only because no entry starts with a tab: the loader trims every property name.
-/
namespace Jss
namespace BackendClient

open Supervisor (doubleTabs isSensitiveName protocolProperties)

/-! ## `loadProperties` of the bridge -/

def addProperty (properties : BTreeMap Text Text) (entry : Text) : BTreeMap Text Text :=
  let equals := entry.idxOf '='
  if equals < entry.length then properties.insert (entry.take equals) (entry.drop (equals + 1)) else properties

/-- The loop of `loadProperties`, with the entry that is being read.  At the end of the text the last entry is added. -/
@[simp] def loadFrom (properties : BTreeMap Text Text) (entry : Text) : Text → BTreeMap Text Text
  | [] => addProperty properties entry
  | '\t' :: '\t' :: rest => loadFrom properties (entry ++ ['\t']) rest
  | '\t' :: rest => loadFrom (addProperty properties entry) [] rest
  | c :: rest => loadFrom properties (entry ++ [c]) rest

def loadProperties (encoded : Text) : BTreeMap Text Text := loadFrom .empty [] encoded

/-! ## One entry -/

theorem addProperty_entry (properties : BTreeMap Text Text) {name : Text} (value : Text) (h : '=' ∉ name) :
    addProperty properties (name ++ '=' :: value) = properties.insert name value := by
  have hidx : (name ++ '=' :: value).idxOf '=' = name.length := by
    rw [List.idxOf_append_of_notMem h]
    simp
  unfold addProperty
  rw [hidx]
  simp

theorem loadFrom_char (properties : BTreeMap Text Text) (entry : Text) {c : Char} (rest : Text) (h : c ≠ '\t') :
    loadFrom properties entry (c :: rest) = loadFrom properties (entry ++ [c]) rest := by
  rw [loadFrom]
  · rintro rest rfl
    exact absurd rfl h
  · rintro rfl
    exact absurd rfl h

theorem loadFrom_doubleTabs (properties : BTreeMap Text Text) (rest : Text) : ∀ (t entry : Text),
    loadFrom properties entry (doubleTabs t ++ rest) = loadFrom properties (entry ++ t) rest
  | [], entry => by simp [doubleTabs]
  | c :: t, entry => by
    have ih := loadFrom_doubleTabs properties rest t (entry ++ [c])
    by_cases hc : c = '\t'
    · subst hc
      have hstep : doubleTabs ('\t' :: t) ++ rest = '\t' :: '\t' :: (doubleTabs t ++ rest) := by simp [doubleTabs]
      rw [hstep, loadFrom, ih]
      simp
    · have hstep : doubleTabs (c :: t) ++ rest = c :: (doubleTabs t ++ rest) := by simp [doubleTabs, hc]
      rw [hstep, loadFrom_char _ _ _ hc, ih]
      simp

/-- A tab before anything but a tab ends the entry. -/
theorem loadFrom_separator (properties : BTreeMap Text Text) (entry : Text) {rest : Text}
    (h : rest.head? ≠ some '\t') :
    loadFrom properties entry ('\t' :: rest) = loadFrom (addProperty properties entry) [] rest := by
  rw [loadFrom]
  rintro rest rfl
  simp at h

/-! ## The text that the supervisor writes -/

/-- An entry of `protocol_properties`. -/
def encodeEntry (e : Text × Text) : Text := doubleTabs e.1 ++ ['='] ++ doubleTabs e.2

def isSent (e : Text × Text) : Bool := !isSensitiveName e.1

theorem loadFrom_encodeEntry (properties : BTreeMap Text Text) (e : Text × Text) (rest : Text) :
    loadFrom properties [] (encodeEntry e ++ rest) = loadFrom properties (e.1 ++ '=' :: e.2) rest := by
  have hparts : encodeEntry e ++ rest = doubleTabs e.1 ++ '=' :: (doubleTabs e.2 ++ rest) := by simp [encodeEntry]
  rw [hparts, loadFrom_doubleTabs, loadFrom_char _ _ _ (by decide), loadFrom_doubleTabs]
  simp

theorem protocolProperties_from (es : List (Text × Text)) {output : Text} (h : output ≠ []) :
    es.foldl (fun output (name, value) =>
      if isSensitiveName name then output
      else
        let output := if output.isEmpty then output else output ++ ['\t']
        output ++ doubleTabs name ++ ['='] ++ doubleTabs value) output
      = output ++ (es.filter isSent).flatMap (fun e => '\t' :: encodeEntry e) := by
  induction es generalizing output with
  | nil => simp
  | cons e es ih =>
    obtain ⟨name, value⟩ := e
    rw [List.foldl_cons]
    by_cases hs : isSensitiveName name
    · have hskip : isSent (name, value) = false := by simp [isSent, hs]
      simp only [hs, if_true]
      rw [ih h, List.filter_cons_of_neg (by simp [hskip])]
    · have hsent : isSent (name, value) = true := by simp [isSent, hs]
      have hempty : output.isEmpty = false := by simpa using h
      simp only [hs, hempty, if_false, Bool.false_eq_true]
      rw [ih (by simp), List.filter_cons_of_pos hsent]
      simp [encodeEntry]

theorem protocolProperties_eq (config : Config) : protocolProperties config =
    match config.properties.filter isSent with
    | [] => []
    | e :: es => encodeEntry e ++ es.flatMap (fun e => '\t' :: encodeEntry e) := by
  unfold protocolProperties
  generalize config.properties = es
  induction es with
  | nil => rfl
  | cons e es ih =>
    obtain ⟨name, value⟩ := e
    rw [List.foldl_cons]
    by_cases hs : isSensitiveName name
    · have hskip : ¬ isSent (name, value) = true := by simp [isSent, hs]
      rw [List.filter_cons_of_neg hskip, ← ih]
      simp [hs]
    · have hsent : isSent (name, value) = true := by simp [isSent, hs]
      have hfirst : encodeEntry (name, value) ≠ [] := by simp [encodeEntry]
      rw [List.filter_cons_of_pos hsent]
      dsimp only
      rw [← protocolProperties_from es hfirst]
      simp [hs, encodeEntry]

/-! ## The names of a loaded configuration -/

/-- A name that the loader can have split off a line. -/
structure IsName (name : Text) : Prop where
  noEquals : '=' ∉ name
  trimmed : ∀ c, name.head? = some c → Text.isWhitespace c = false

theorem isName_of_splitProperty {line name rawValue : Text}
    (h : ConfigFile.splitProperty line = some (name, rawValue)) : IsName name := by
  unfold ConfigFile.splitProperty Text.splitOnce at h
  split at h
  · cases h
    constructor
    · intro hmem
      have hbefore := List.mem_takeWhile_imp ((Text.trim_sublist _).subset hmem)
      simp at hbefore
    · exact Text.head_trim _
  · cases h

/-- Every property of a loaded configuration has a name without an equals sign that starts with no white space. -/
theorem load_isName {platform : Platform} {rootPath executableDirectory : Text} {overrides : List Text}
    {config : LoadedConfig} (h : Config.load platform rootPath executableDirectory overrides = .ok config) :
    ∀ e ∈ config.properties, IsName e.1 := by
  refine load_keeps (P := fun properties => ∀ e ∈ properties.entries, IsName e.1) ?_ ?_ h
  · intro e he
    cases he
  · intro properties line name rawValue value hsplit hbefore e he
    rcases BTreeMap.mem_insert he with rfl | he
    · exact isName_of_splitProperty hsplit
    · exact hbefore e he

/-! ## Reading back -/

theorem head_encodeEntry {e : Text × Text} (h : IsName e.1) (rest : Text) :
    (encodeEntry e ++ rest).head? ≠ some '\t' := by
  obtain ⟨name, value⟩ := e
  cases name with
  | nil => simp [encodeEntry, doubleTabs]
  | cons c name =>
    have hc : c ≠ '\t' := by
      rintro rfl
      have hspace := h.trimmed '\t' rfl
      exact absurd hspace (by decide)
    simp [encodeEntry, doubleTabs, hc]

theorem loadFrom_entries : ∀ (es : List (Text × Text)) (properties : BTreeMap Text Text) (entry : Text),
    (∀ e ∈ es, IsName e.1) → loadFrom properties entry (es.flatMap (fun e => '\t' :: encodeEntry e)) =
      es.foldl (fun properties e => properties.insert e.1 e.2) (addProperty properties entry)
  | [], _, _, _ => by simp [loadFrom]
  | e :: es, properties, entry, h => by
    have he : IsName e.1 := h e (by simp)
    rw [List.flatMap_cons, List.cons_append, loadFrom_separator _ _ (head_encodeEntry he _), loadFrom_encodeEntry,
      loadFrom_entries es _ _ (fun e he => h e (by simp [he])), addProperty_entry _ _ he.noEquals, List.foldl_cons]

theorem loadProperties_of_isName {config : Config} (h : ∀ e ∈ config.properties, IsName e.1) :
    loadProperties (protocolProperties config) = config.map.filter isSent := by
  have hnames : ∀ e ∈ (config.map.filter isSent).entries, IsName e.1 := fun e he => h e (List.mem_filter.1 he).1
  have hback := BTreeMap.foldl_insert (config.map.filter isSent)
  have hentries : (config.map.filter isSent).entries = config.properties.filter isSent := rfl
  rw [protocolProperties_eq, ← hentries]
  unfold loadProperties
  cases hes : (config.map.filter isSent).entries with
  | nil =>
    rw [hes] at hback
    exact hback
  | cons e es =>
    rw [hes] at hback hnames
    have he : IsName e.1 := hnames e (by simp)
    rw [← hback]
    simp only [loadFrom_encodeEntry]
    rw [loadFrom_entries es _ _ (fun e he => hnames e (by simp [he])), addProperty_entry _ _ he.noEquals]
    rfl

/-- **The bridge reads exactly the properties that are sent**, for every configuration that loads. -/
theorem loadProperties_protocolProperties {platform : Platform} {rootPath executableDirectory : Text}
    {overrides : List Text} {config : LoadedConfig}
    (h : Config.load platform rootPath executableDirectory overrides = .ok config) :
    loadProperties (protocolProperties config.toConfig) =
      config.map.filter (fun e => !isSensitiveName e.1) :=
  loadProperties_of_isName (load_isName h)

/-- A platform with one UTF-8 file and no environment. -/
def oneFile (path text : Text) : Platform where
  vars := []
  toUppercase := Text.toAsciiUppercase
  isAbsolute := fun p => p.head? = some '/'
  join := fun directory p => directory ++ '/' :: p
  canonicalize := fun p => if p = path then .ok p else .error .notFound
  read := fun p => if p = path then .ok text.asBytes else .error .notFound
  forLabel := fun _ => none
  decode := fun _ bytes => (utf8Lossy bytes, false)

/-- A name with a tab in it, a value that starts and ends with tabs, and one with an equals sign. -/
theorem tabs_and_equals_are_read_back : ∃ config : LoadedConfig,
    Config.load (oneFile "/w.conf" "a\tb=x\t\t=y\npassword=p\n") "/w.conf" "/" ["z=\t1\t"] = .ok config ∧
      (loadProperties (protocolProperties config.toConfig)).entries =
        [("a\tb".toList, "x\t\t=y".toList), ("z".toList, "\t1\t".toList)] := by
  have hproperties : ((Config.load (oneFile "/w.conf" "a\tb=x\t\t=y\npassword=p\n") "/w.conf" "/"
      ["z=\t1\t"]).map (·.properties)) = .ok [("a\tb".toList, "x\t\t=y".toList), ("password".toList, "p".toList),
        ("z".toList, "\t1\t".toList)] := by decide +kernel
  cases h : Config.load (oneFile "/w.conf" "a\tb=x\t\t=y\npassword=p\n") "/w.conf" "/" ["z=\t1\t"] with
  | error e =>
    rw [h] at hproperties
    cases hproperties
  | ok config =>
    rw [h] at hproperties
    refine ⟨config, rfl, ?_⟩
    rw [loadProperties_protocolProperties h]
    simp only [BTreeMap.filter, Config.map, Except.ok.inj hproperties]
    decide +kernel

end BackendClient
end Jss
