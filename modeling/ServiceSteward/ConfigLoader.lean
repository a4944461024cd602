import ServiceSteward.BTreeMap
import ServiceSteward.Config
/-!
# ConfigLoader — `Config::load`

The files, the process environment, the Unicode upper-case table and the decoders of encoding_rs are a `Platform`.  A path
is its text.  `Loader` is the state that the code mutates; an error ends the whole load.
-/
namespace Jss

structure Platform where
  /-- `std::env::vars`. -/
  vars : List (Text × Text)
  /-- `str::to_uppercase`. -/
  toUppercase : Text → Text
  isAbsolute : Text → Bool
  join : Text → Text → Text
  canonicalize : Text → Except IoErrorKind Text
  read : Text → Except IoErrorKind Bytes
  /-- `Encoding::for_label`; an encoding is its name. -/
  forLabel : Text → Option Text
  /-- `Encoding::decode`: the text, and whether there were errors. -/
  decode : Text → Bytes → Text × Bool

def MAX_INCLUDE_DEPTH : Nat := 10

/-- A `Config`, with the fields that only its users outside the supervisor read. -/
structure LoadedConfig extends Config where
  rootPath : Text
  executableDirectory : Text
  environment : BTreeMap Text Text

structure Loader where
  executableDirectory : Text
  properties : BTreeMap Text Text := .empty
  environment : BTreeMap Text Text
  lockedEnvironment : List Text := []
  includeStack : List Text := []
  warnings : List Warning := []

namespace ConfigFile

/-! ## The text of a file -/

def splitProperty (line : Text) : Option (Text × Text) :=
  (Text.splitOnce '=' line).map (fun (name, value) => (name.trim, value))

def parseIncludeAs (line : Text) : List Text → Option (Text × Text)
  | [] => none
  | directive :: directives =>
    match Text.stripPrefix directive line with
    | none => parseIncludeAs line directives
    | some [] => some (directive, [])
    | some (c :: rest) =>
      if Text.isWhitespace c || c == '=' then
        some (directive, (c :: rest).dropWhile (fun c => c == ' ' || c == '\t' || c == '='))
      else parseIncludeAs line directives

def parseInclude (line : Text) : Option (Text × Text) :=
  parseIncludeAs line ["#include.required", "#include.debug", "#include"]

def decodeHashComments : Text → Text
  | [] => []
  | '#' :: '#' :: rest => '#' :: decodeHashComments rest
  | '#' :: _ => []
  | c :: rest => c :: decodeHashComments rest

/-- The loop of `logical_lines`, with the start of a continued line. -/
def logicalLinesFrom (pending : Text) : List Text → List Text
  | [] => if pending.isEmpty then [] else [pending]
  | physical :: rest =>
    let withoutCr := Text.trimEndMatches '\r' physical
    let slashCount := (withoutCr.reverse.takeWhile (· == '\\')).length
    if slashCount % 2 = 1 then logicalLinesFrom (pending ++ withoutCr.dropLast) rest
    else if pending.isEmpty then withoutCr :: logicalLinesFrom [] rest
    else (pending ++ withoutCr) :: logicalLinesFrom [] rest

def logicalLines (text : Text) : List Text := logicalLinesFrom [] (Text.lines text)

def firstLineEncodingLabel (bytes : Bytes) : Option Text := do
  let first := bytes.takeWhile (· != 10)
  let first ← fromUtf8 (if [0xEF, 0xBB, 0xBF].isPrefixOf first then first.drop 3 else first)
  let value ← Text.stripPrefix "#encoding=" first.trim
  return removeGroupingQuotes value.trim

def decodeConfiguration (platform : Platform) (bytes : Bytes) (path : Text) : Except Error (Text × Option Text) := do
  let label := firstLineEncodingLabel bytes
  let encoding ← match label with
    | some label =>
      match platform.forLabel label with
      | some encoding => .ok encoding
      | none => .error (.configSyntax path 1 ("unknown encoding: ".toList ++ label))
    | none => .ok (if (fromUtf8 bytes).isSome then "UTF-8".toList else "windows-1252".toList)
  let (decoded, hadErrors) := platform.decode encoding bytes
  let warning :=
    if hadErrors then some (path ++ " contains byte sequences that are invalid for ".toList ++ encoding)
    else if label.isNone && encoding == "windows-1252".toList then
      some (path ++ " is not UTF-8; it was read as windows-1252".toList)
    else none
  return (decoded, warning)

/-! ## The environment -/

/-- The loop of `expand_environment`.  Each turn takes two percent signs away, so it makes fewer turns than there are
characters. -/
def expandFrom (platform : Platform) (environment : BTreeMap Text Text) : Nat → Text → Text
  | 0, remaining => remaining
  | fuel + 1, remaining =>
    match Text.splitOnce '%' remaining with
    | none => remaining
    | some (before, afterStart) =>
      match Text.splitOnce '%' afterStart with
      | none => remaining
      | some (name, rest) =>
        before ++ (environment.get (platform.toUppercase name)).getD ('%' :: name ++ ['%']) ++
          expandFrom platform environment fuel rest

def expandEnvironment (platform : Platform) (value : Text) (environment : BTreeMap Text Text) : Text :=
  expandFrom platform environment value.length value

end ConfigFile

/-! ## The tables of supported properties -/

def IGNORED_WRAPPER_PROPERTY_PREFIXES : List Text :=
  ["wrapper.license."]

def SUPPORTED_JSS_PROPERTIES : List Text :=
  ["jss.threaddump.method", "jss.threaddump.timeout", "jss.heapdump.control_code", "jss.heapdump.directory",
   "jss.heapdump.timeout", "jss.java.job_object"]

def SUPPORTED_NUMBERED_WRAPPER_PROPERTY_PREFIXES : List Text :=
  ["wrapper.java.additional.", "wrapper.java.classpath.", "wrapper.java.library.path.", "wrapper.app.parameter.",
   "wrapper.filter.trigger.", "wrapper.filter.action.", "wrapper.filter.allow_wildcards.",
   "wrapper.filter.message.", "wrapper.on_exit.", "wrapper.ntservice.dependency."]

def SUPPORTED_WRAPPER_PROPERTIES : List Text :=
  ["wrapper.java.command", "wrapper.java.mainclass", "wrapper.java.additional.auto_bits",
   "wrapper.java.initmemory", "wrapper.java.maxmemory", "wrapper.java.command.loglevel", "wrapper.debug",
   "wrapper.ignore_sequence_gaps", "wrapper.pidfile", "wrapper.pidfile.strict", "wrapper.java.pidfile",
   "wrapper.java.idfile", "wrapper.working.dir", "wrapper.port", "wrapper.port.min", "wrapper.port.max",
   "wrapper.jvm.port", "wrapper.jvm.port.min", "wrapper.jvm.port.max", "wrapper.native_library",
   "wrapper.disable_console_input", "wrapper.listener.force_stop", "wrapper.use_system_time",
   "wrapper.disable_shutdown_hook", "wrapper.cpu.timeout", "wrapper.startup.timeout", "wrapper.startup.delay",
   "wrapper.startup.delay.console", "wrapper.startup.delay.service", "wrapper.shutdown.timeout",
   "wrapper.request_thread_dump_on_failed_jvm_exit", "wrapper.request_thread_dump_on_failed_jvm_exit.delay",
   "wrapper.ping.interval", "wrapper.ping.timeout", "wrapper.restart.delay", "wrapper.disable_restarts",
   "wrapper.disable_restarts.automatic", "wrapper.max_failed_invocations", "wrapper.successful_invocation_time",
   "wrapper.logfile", "wrapper.logfile.format", "wrapper.logfile.loglevel", "wrapper.logfile.rollmode",
   "wrapper.logfile.maxfiles", "wrapper.logfile.maxsize", "wrapper.console.format", "wrapper.console.loglevel",
   "wrapper.console.flush", "wrapper.console.title", "wrapper.console.title.windows", "wrapper.internal.namedpipe",
   "wrapper.syslog.loglevel", "wrapper.thread_dump_control_code", "wrapper.pausable", "wrapper.pausable.stop_jvm",
   "wrapper.ntservice.generate_console", "wrapper.ntservice.name", "wrapper.ntservice.displayname",
   "wrapper.ntservice.description", "wrapper.ntservice.pausable", "wrapper.ntservice.pausable.stop_jvm",
   "wrapper.ntservice.starttype", "wrapper.ntservice.account", "wrapper.ntservice.password",
   "wrapper.ntservice.interactive", "wrapper.pause_on_startup"]

def isSupportedWrapperProperty (name : Text) : Bool :=
  SUPPORTED_NUMBERED_WRAPPER_PROPERTY_PREFIXES.any (·.isPrefixOf name) || SUPPORTED_WRAPPER_PROPERTIES.contains name

namespace Loader

open ConfigFile

/-! ## The loader -/

def warn (loader : Loader) (message : Text) : Loader :=
  { loader with warnings := loader.warnings ++ [⟨.warn, message⟩] }

def info (loader : Loader) (message : Text) : Loader :=
  { loader with warnings := loader.warnings ++ [⟨.info, message⟩] }

def push (loader : Loader) (path : Text) : Loader := { loader with includeStack := loader.includeStack ++ [path] }

def pop (loader : Loader) : Loader := { loader with includeStack := loader.includeStack.dropLast }

/-- How `new` and `apply_overrides` read an override. -/
def splitOverride (override : Text) : Except Error (Text × Text) :=
  match splitProperty override with
  | some property => .ok property
  | none => .error (.cli ("invalid property override: ".toList ++ override))

/-- What `new` does with an override: a `set.` definition is final. -/
def lock (platform : Platform) (loader : Loader) (override : Text) : Except Error Loader := do
  let (name, value) ← splitOverride override
  match Text.stripPrefix "set." name with
  | none => return loader
  | some environmentName =>
    let normalized := platform.toUppercase environmentName
    return { loader with
      environment := loader.environment.insert normalized value
      lockedEnvironment := loader.lockedEnvironment ++ [normalized] }

def new (platform : Platform) (executableDirectory : Text) (overrides : List Text) : Except Error Loader :=
  overrides.foldlM (lock platform)
    { executableDirectory := executableDirectory
      environment := platform.vars.foldl
        (fun environment e => environment.insert (platform.toUppercase e.1) e.2) .empty }

def applyEnvironmentProperty (platform : Platform) (loader : Loader) (name value : Text) : Loader :=
  match Text.stripPrefix "set.default." name with
  | some environmentName =>
    let normalized := platform.toUppercase environmentName
    if loader.lockedEnvironment.contains normalized || (loader.environment.get normalized).isSome then loader
    else { loader with environment := loader.environment.insert normalized value }
  | none =>
    match Text.stripPrefix "set." name with
    | some environmentName =>
      let normalized := platform.toUppercase environmentName
      if loader.lockedEnvironment.contains normalized then loader
      else { loader with environment := loader.environment.insert normalized value }
    | none => loader

/-- The end that `parse_line` and `apply_overrides` share. -/
def define (platform : Platform) (loader : Loader) (name value : Text) : Loader :=
  applyEnvironmentProperty platform { loader with properties := loader.properties.insert name value } name value

/-- `parse_line`, given what an include does with the path it names. -/
def parseLine (platform : Platform) (loadFile : Text → Bool → Loader → Except Error Loader) (path : Text)
    (loader : Loader) (line : Nat × Text) : Except Error Loader :=
  let trimmed := line.2.trim
  let place := path ++ ':' :: Text.ofNat line.1
  if trimmed.isEmpty || trimmed.head? = some '!' then .ok loader
  else
    match parseInclude trimmed with
    | some (directive, argument) =>
      let expanded := expandEnvironment platform argument loader.environment
      let includePath := removeGroupingQuotes expanded.trim
      let loader :=
        if directive = "#include.debug".toList then
          loader.info ("#include.debug from ".toList ++ place ++ " -> ".toList ++ includePath)
        else loader
      loadFile includePath (directive = "#include.required".toList) loader
    | none =>
      if trimmed.head? = some '#' then .ok loader
      else
        match splitProperty trimmed with
        | none => .ok (loader.warn ("ignored line without '=' at ".toList ++ place))
        | some (name, rawValue) =>
          if name.isEmpty then .error (.configSyntax path line.1 "the property name is empty")
          else
            let value := expandEnvironment platform (decodeHashComments rawValue).trim loader.environment
            .ok (define platform loader name value)

/-- `load_file`, with the include levels that are left: `MAX_INCLUDE_DEPTH + 1` at depth 0, none beyond the last. -/
def loadFile (platform : Platform) : Nat → Text → Bool → Loader → Except Error Loader
  | 0, _, _, _ =>
    .error (.config ("more than ".toList ++ Text.ofNat MAX_INCLUDE_DEPTH ++ " nested #include levels".toList))
  | remaining + 1, path, required, loader =>
    let resolved := if platform.isAbsolute path then path else platform.join loader.executableDirectory path
    match platform.canonicalize resolved with
    | .error source =>
      if !required && source = .notFound then .ok (loader.warn ("optional #include not found: ".toList ++ resolved))
      else .error (.configRead resolved source)
    | .ok canonical =>
      if loader.includeStack.contains canonical then
        .error (.config ("#include cycle detected at ".toList ++ canonical))
      else do
        let bytes ← (platform.read canonical).mapError (Error.configRead canonical)
        let (text, decodingWarning) ← decodeConfiguration platform bytes canonical
        let loader := match decodingWarning with
          | some message => loader.warn message
          | none => loader
        let lines := (logicalLines text).zipIdx.map (fun (line, index) => (index + 1, line))
        let loader ← lines.foldlM (parseLine platform (loadFile platform remaining) canonical) (loader.push canonical)
        return loader.pop

def applyOverride (platform : Platform) (loader : Loader) (override : Text) : Except Error Loader := do
  let (name, rawValue) ← splitOverride override
  let value := expandEnvironment platform rawValue loader.environment
  return define platform loader name value

def applyOverrides (platform : Platform) (loader : Loader) (overrides : List Text) : Except Error Loader :=
  overrides.foldlM (applyOverride platform) loader

/-- What `warn_about_unsupported_properties` says of a property of its own, and the family it is counted in. -/
def unsupported (name : Text) : Option Text × Option Text :=
  if "jss.".toList.isPrefixOf name && !SUPPORTED_JSS_PROPERTIES.contains name then
    (some ("the property ".toList ++ name ++
      " is not a known Java Service Steward extension and will be ignored".toList), none)
  else if !"wrapper.".toList.isPrefixOf name || isSupportedWrapperProperty name then (none, none)
  else
    match IGNORED_WRAPPER_PROPERTY_PREFIXES.find? (·.isPrefixOf name) with
    | some family => (none, some family)
    | none => (some ("the property ".toList ++ name ++ " is not implemented and will be ignored".toList), none)

def warnAboutUnsupportedProperties (loader : Loader) : Loader :=
  let names := loader.properties.entries.map Prod.fst
  let loader := (names.filterMap (fun name => (unsupported name).1)).foldl warn loader
  let families : BTreeMap Text Unit :=
    (names.filterMap (fun name => (unsupported name).2)).foldl (fun families family => families.insert family ()) .empty
  families.entries.foldl
    (fun loader family => loader.info (family.1 ++ "* properties are accepted and ignored".toList)) loader

end Loader

/-- `Config::load`. -/
def Config.load (platform : Platform) (rootPath executableDirectory : Text) (overrides : List Text) :
    Except Error LoadedConfig := do
  let loader ← Loader.new platform executableDirectory overrides
  let loader ← Loader.loadFile platform (MAX_INCLUDE_DEPTH + 1) rootPath true loader
  let loader ← Loader.applyOverrides platform loader overrides
  let loader := loader.warnAboutUnsupportedProperties
  return {
    properties := loader.properties.entries
    warnings := loader.warnings
    sorted := loader.properties.sorted
    rootPath := rootPath
    executableDirectory := executableDirectory
    environment := loader.environment }

/-! ## What a load leaves in the property map -/

namespace Loader

open ConfigFile

variable {platform : Platform} {P : BTreeMap Text Text → Prop}

/-- Defining a property whose name was split off a line, whatever its value, keeps `P`. -/
def Definable (P : BTreeMap Text Text → Prop) : Prop :=
  ∀ properties line name rawValue value, splitProperty line = some (name, rawValue) → P properties →
    P (properties.insert name value)

@[simp] theorem applyEnvironmentProperty_properties (loader : Loader) (name value : Text) :
    (applyEnvironmentProperty platform loader name value).properties = loader.properties := by
  unfold applyEnvironmentProperty
  split
  · dsimp only
    split <;> rfl
  · split
    · dsimp only
      split <;> rfl
    · rfl

@[simp] theorem define_properties (loader : Loader) (name value : Text) :
    (define platform loader name value).properties = loader.properties.insert name value := by
  simp [define]

/-- What defining a property keeps, and what nothing else that a load does can change. -/
structure Kept (platform : Platform) (I : Loader → Prop) : Prop where
  define : ∀ loader line name rawValue value, splitProperty line = some (name, rawValue) → I loader →
    I (define platform loader name value)
  frame : ∀ loader loader', loader'.properties = loader.properties → loader'.environment = loader.environment →
    loader'.lockedEnvironment = loader.lockedEnvironment → I loader → I loader'

theorem Definable.kept (hdef : Definable P) : Kept platform (fun loader => P loader.properties) where
  define loader line name rawValue value hsplit hP := by
    rw [define_properties]
    exact hdef _ _ _ _ _ hsplit hP
  frame loader loader' hproperties _ _ hP := by
    rw [hproperties]
    exact hP

variable {I : Loader → Prop}

theorem parseLine_keeps (hI : Kept platform I) {load : Text → Bool → Loader → Except Error Loader}
    (hload : ∀ path required loader loader', load path required loader = .ok loader' → I loader → I loader')
    {path : Text} {line : Nat × Text} {loader loader' : Loader}
    (h : parseLine platform load path loader line = .ok loader') (hbefore : I loader) : I loader' := by
  unfold parseLine at h
  dsimp only at h
  split at h
  · cases h
    exact hbefore
  · split at h
    · rename_i directive argument _
      apply hload _ _ _ _ h
      split
      · exact hI.frame loader _ rfl rfl rfl hbefore
      · exact hbefore
    · split at h
      · cases h
        exact hbefore
      · split at h
        · cases h
          exact hI.frame loader _ rfl rfl rfl hbefore
        · rename_i name rawValue hsplit
          split at h
          · cases h
          · cases h
            exact hI.define _ _ _ _ _ hsplit hbefore

/-- A file that is found keeps the state it is read in, but for a warning and its place on the stack. -/
theorem opened_keeps (hI : Kept platform I) {loader : Loader} (h : I loader) (decodingWarning : Option Text)
    (canonical : Text) : I (((match decodingWarning with
      | some message => loader.warn message
      | none => loader) : Loader).push canonical) := by
  cases decodingWarning with
  | none => exact hI.frame loader _ rfl rfl rfl h
  | some message => exact hI.frame loader _ rfl rfl rfl h

theorem loadFile_keeps (hI : Kept platform I) : ∀ (remaining : Nat) {path : Text} {required : Bool}
    {loader loader' : Loader}, loadFile platform remaining path required loader = .ok loader' →
      I loader → I loader'
  | 0, _, _, _, _, h, _ => by simp [loadFile] at h
  | remaining + 1, path, required, loader, loader', h, hbefore => by
    unfold loadFile at h
    dsimp only at h
    split at h
    · -- the path has no file: an optional include leaves a warning
      split at h
      · cases h
        exact hI.frame loader _ rfl rfl rfl hbefore
      · cases h
    · split at h
      · cases h
      · rename_i canonical _ _
        obtain ⟨bytes, -, h⟩ := result_of_bind h
        obtain ⟨⟨text, decodingWarning⟩, -, h⟩ := result_of_bind h
        obtain ⟨last, hlines, h⟩ := result_of_bind h
        cases h
        apply hI.frame last last.pop rfl rfl rfl
        refine foldlM_keeps (P := I) ?_ _ hlines (opened_keeps hI hbefore decodingWarning canonical)
        intro before line after hline hbefore
        exact parseLine_keeps hI (fun _ _ _ _ => loadFile_keeps hI remaining) hline hbefore

theorem applyOverride_eq {loader loader' : Loader} {override : Text}
    (h : applyOverride platform loader override = .ok loader') :
    ∃ name rawValue, splitProperty override = some (name, rawValue) ∧
      loader' = define platform loader name (expandEnvironment platform rawValue loader.environment) := by
  obtain ⟨⟨name, rawValue⟩, hsplit, hdefine⟩ := result_of_bind h
  cases hdefine
  unfold splitOverride at hsplit
  split at hsplit
  · rename_i property hproperty
    cases hsplit
    exact ⟨name, rawValue, hproperty, rfl⟩
  · cases hsplit

theorem applyOverrides_keeps (hI : Kept platform I) {overrides : List Text} {loader loader' : Loader}
    (h : applyOverrides platform loader overrides = .ok loader') (hbefore : I loader) : I loader' := by
  refine foldlM_keeps (P := I) ?_ _ h hbefore
  intro before override after hover hbefore
  obtain ⟨name, rawValue, hsplit, rfl⟩ := applyOverride_eq hover
  exact hI.define _ _ _ _ _ hsplit hbefore

theorem new_properties {executableDirectory : Text} {overrides : List Text} {loader : Loader}
    (h : new platform executableDirectory overrides = .ok loader) : loader.properties = .empty := by
  refine foldlM_keeps (P := fun loader => loader.properties = .empty) ?_ _ h rfl
  intro before override after hlock hbefore
  obtain ⟨⟨name, value⟩, -, hlock⟩ := result_of_bind hlock
  dsimp only at hlock
  split at hlock
  · cases hlock
    exact hbefore
  · cases hlock
    exact hbefore

theorem foldl_same {α β : Type} (g : Loader → β) {f : Loader → α → Loader} (h : ∀ loader x, g (f loader x) = g loader) :
    ∀ (xs : List α) (loader : Loader), g (xs.foldl f loader) = g loader
  | [], _ => rfl
  | x :: xs, loader => by rw [List.foldl_cons, foldl_same g h xs, h]

/-- The warnings are all that `warn_about_unsupported_properties` changes. -/
theorem warnAboutUnsupportedProperties_same {β : Type} (g : Loader → β)
    (hwarn : ∀ loader message, g (warn loader message) = g loader)
    (hinfo : ∀ loader message, g (info loader message) = g loader) (loader : Loader) :
    g loader.warnAboutUnsupportedProperties = g loader := by
  unfold warnAboutUnsupportedProperties
  dsimp only
  apply Eq.trans (foldl_same g _ _ _) (foldl_same g _ _ _)
  · intro loader family
    exact hinfo _ _
  · intro loader message
    exact hwarn _ _

@[simp] theorem warnAboutUnsupportedProperties_properties (loader : Loader) :
    loader.warnAboutUnsupportedProperties.properties = loader.properties :=
  warnAboutUnsupportedProperties_same Loader.properties (fun _ _ => rfl) (fun _ _ => rfl) loader

@[simp] theorem warnAboutUnsupportedProperties_environment (loader : Loader) :
    loader.warnAboutUnsupportedProperties.environment = loader.environment :=
  warnAboutUnsupportedProperties_same Loader.environment (fun _ _ => rfl) (fun _ _ => rfl) loader

end Loader

def Config.map (config : Config) : BTreeMap Text Text := ⟨config.properties, config.sorted⟩

/-- **What holds of the empty map and outlives every definition holds of a loaded configuration.** -/
theorem load_keeps {platform : Platform} {P : BTreeMap Text Text → Prop} (hempty : P .empty)
    (hdef : Loader.Definable P) {rootPath executableDirectory : Text} {overrides : List Text} {config : LoadedConfig}
    (h : Config.load platform rootPath executableDirectory overrides = .ok config) : P config.map := by
  obtain ⟨fresh, hfresh, h⟩ := result_of_bind h
  obtain ⟨loaded, hloaded, h⟩ := result_of_bind h
  obtain ⟨overridden, hoverridden, h⟩ := result_of_bind h
  cases h
  have hP : P fresh.properties := by
    rw [Loader.new_properties hfresh]
    exact hempty
  have hP : P loaded.properties := Loader.loadFile_keeps hdef.kept _ hloaded hP
  have hP : P overridden.properties := Loader.applyOverrides_keeps hdef.kept hoverridden hP
  have heq := Loader.warnAboutUnsupportedProperties_properties overridden
  rw [← heq] at hP
  exact hP

end Jss
