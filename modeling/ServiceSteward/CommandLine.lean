import ServiceSteward.CommandFragment
import ServiceSteward.ConfigLoader
import ServiceSteward.JarScan
import ServiceSteward.JvmRun
/-!
# CommandLine — the command that a JVM is launched with, and what the log shows of it

`JvmCommand::build` puts the command together from the configuration and the control channel's key and ports;
`redacted_command_line` is what the log shows.  **Two launches that differ only in the key and in the values of
sensitive names among the arguments fail alike or show the same (`command_line_hides_secrets`).**
-/
namespace Jss
namespace Jvm

open Supervisor (isSensitiveName)

/-! ## The command -/

def PRODUCT_VERSION : Text := "0.3.2"

def MISSING_BRIDGE_MESSAGE : Text :=
  "wrapper.java.classpath does not contain the bundled Java Service Steward bridge (wrapper.jar). " ++
  "Only the bundled wrapper.jar is supported; deploy it at the path named by wrapper.java.classpath."

/-- What the code asks the system for. -/
structure Host extends Files where
  isAbsolute : Text → Bool
  /-- `cfg!(windows)`. -/
  onWindows : Bool
  /-- `std::process::id`. -/
  pid : Nat

structure BackendLaunch where
  key : Text
  port : Nat
  jvmPort : Option Nat
  jvmPortMin : Nat
  jvmPortMax : Nat
  jvmId : Nat
  service : Bool

structure JvmCommand where
  program : Text
  arguments : List OsString
  workingDirectory : Text
  environment : List (OsString × OsString)
  launchNote : Option Text

def MainClass.launched : MainClass → Text
  | .bundled launcher _ => BRIDGE_PACKAGE ++ '.' :: launcher
  | .direct name => name

def MainClass.requiresBridge : MainClass → Bool
  | .bundled _ _ => true
  | .direct _ => false

def classpathContainsBridge (files : Files) (entries : List Text) : Bool :=
  classpathContainsEntry files entries BRIDGE_MARKER_CLASS

/-- `Config::required`. -/
def required (config : Config) (name : Text) : Except Error Text :=
  match (config.get name).filter (fun value => !value.trim.isEmpty) with
  | some value => .ok value
  | none => .error (.config ("missing required property ".toList ++ name))

/-- `Config::resolve_path`. -/
def resolvePath (host : Host) (config : LoadedConfig) (value : Text) : Text :=
  let path := removeGroupingQuotes value.trim
  if host.isAbsolute path then path else host.join config.executableDirectory path

def resolveJavaCommand (host : Host) (config : LoadedConfig) (configured : Text) : Text :=
  let configured := removeGroupingQuotes configured.trim
  if host.isAbsolute configured || (host.parent configured).all List.isEmpty then configured
  else resolvePath host config configured

def resolvedPaths (host : Host) (config : LoadedConfig) (pre : Text) : List Text :=
  (config.numbered pre).filterMap (fun (_, value) =>
    let value := removeGroupingQuotes value.trim
    if value.isEmpty then none else some (resolvePath host config value))

def joinedPaths (host : Host) (paths : List Text) : Text := [if host.onWindows then ';' else ':'].intercalate paths

/-- An argument of which all but the flag is computed. -/
def argument (flag value : Text) : OsString := .ofText (flag ++ value)

def copyBooleanProperty (config : Config) (name : Text) : List OsString :=
  if config.getBool name false then [argument "-D" (name ++ "=TRUE".toList)] else []

/-- The configured fragments of a numbered property. -/
def fragments (config : Config) (pre : Text) : List OsString :=
  (config.numbered pre).flatMap (fun (_, value) => parseLegacyWindowsFragment value)

/-- `-Xms` and `-Xmx`. -/
def memoryArguments (config : Config) : List OsString :=
  let initMemory := config.getU64 "wrapper.java.initmemory" 0
  let maxMemory := config.getU64 "wrapper.java.maxmemory" 0
  (if initMemory > 0 then [argument "-Xms" (Text.ofNat (max initMemory 1) ++ ['m'])] else []) ++
  (if maxMemory > 0 then [argument "-Xmx" (Text.ofNat (max maxMemory (max initMemory 1)) ++ ['m'])] else [])

def pathArguments (host : Host) (config : LoadedConfig) : List OsString :=
  let libraryPath := joinedPaths host (resolvedPaths host config "wrapper.java.library.path")
  let classpath := joinedPaths host (resolvedPaths host config "wrapper.java.classpath")
  (if libraryPath.isEmpty then [] else [argument "-Djava.library.path=" libraryPath]) ++
  (if classpath.isEmpty then [] else [.ofText "-classpath", .ofText classpath])

/-- The system properties of the launch after the key. -/
def launchArguments (host : Host) (config : Config) (backend : BackendLaunch) : List OsString :=
  [argument "-Dwrapper.port=" (Text.ofNat backend.port)] ++
  (match backend.jvmPort with
    | some port => [argument "-Dwrapper.jvm.port=" (Text.ofNat port)]
    | none => []) ++
  [argument "-Dwrapper.jvm.port.min=" (Text.ofNat backend.jvmPortMin),
    argument "-Dwrapper.jvm.port.max=" (Text.ofNat backend.jvmPortMax)] ++
  (if config.getBool "wrapper.debug" false then [argument "-Dwrapper.debug=TRUE" []] else []) ++
  copyBooleanProperty config "wrapper.disable_console_input" ++
  copyBooleanProperty config "wrapper.listener.force_stop" ++
  [argument "-Dwrapper.pid=" (Text.ofNat host.pid)] ++
  (if config.getBool "wrapper.use_system_time" false then [argument "-Dwrapper.use_system_time=TRUE" []] else []) ++
  (if backend.service then [argument "-Dwrapper.service=TRUE" []] else []) ++
  copyBooleanProperty config "wrapper.disable_shutdown_hook" ++
  [argument "-Dwrapper.jvmid=" (Text.ofNat backend.jvmId), argument "-Djss.version=" PRODUCT_VERSION]

def substitutionNote (mainClass : MainClass) : Option Text :=
  match mainClass with
  | .bundled _ (some configured) =>
    some ("Main class ".toList ++ configured ++ " is not on the classpath; launching the bundled ".toList ++
      mainClass.launched ++ " instead.".toList)
  | _ => none

def configuredMain (config : Config) : Text :=
  (removeGroupingQuotes (config.getOr "wrapper.java.mainclass" "Main")).trim

/-- The arguments up to the application's own. -/
def commandArguments (host : Host) (config : LoadedConfig) (backend : BackendLaunch) (mainClass : MainClass) :
    List OsString :=
  fragments config.toConfig "wrapper.java.additional" ++ memoryArguments config.toConfig ++ pathArguments host config ++
  [argument "-Dwrapper.key=" backend.key] ++ launchArguments host config.toConfig backend ++
  [.ofText mainClass.launched] ++ fragments config.toConfig "wrapper.app.parameter"

def JvmCommand.build (host : Host) (config : LoadedConfig) (backend : BackendLaunch) (applicationArgs : List OsString) :
    Except Error JvmCommand := do
  let program := resolveJavaCommand host config (← required config.toConfig "wrapper.java.command")
  let classpathEntries := resolvedPaths host config "wrapper.java.classpath"
  let mainClass := resolveMainClass host.toFiles (configuredMain config.toConfig) classpathEntries
  if mainClass.requiresBridge && !classpathContainsBridge host.toFiles classpathEntries then
    throw (.config MISSING_BRIDGE_MESSAGE)
  return {
    program
    arguments := commandArguments host config backend mainClass ++ applicationArgs
    workingDirectory := (config.get "wrapper.working.dir").elim config.executableDirectory (resolvePath host config)
    environment := config.environment.entries.map (fun e => (.ofText e.1, .ofText e.2))
    launchNote := substitutionNote mainClass }

/-! ## What is shown -/

def redactCommandArgument (argument : Text) : Text :=
  let property := (Text.stripPrefix "-D" argument).getD argument
  match Text.splitOnce '=' property with
  | none => argument
  | some (name, _) =>
    if isSensitiveName name then argument.take (argument.length - property.length) ++ name ++ "=<redacted>".toList
    else argument

def quoteForDisplay (argument : Text) : Text :=
  if argument.isEmpty || argument.any Text.isWhitespace then
    '"' :: argument.flatMap (fun c => if c = '"' then ['\\', '"'] else [c]) ++ ['"']
  else argument

def redacted (arguments : List OsString) : List Text := arguments.map (fun a => redactCommandArgument a.toStringLossy)

namespace JvmCommand

def redactedCommandLine (command : JvmCommand) : Text :=
  [' '].intercalate ((command.program :: redacted command.arguments).map quoteForDisplay)

/-- What the log shows of a command: the note and the command line. -/
def shown (command : JvmCommand) : Option Text × Text := (command.launchNote, command.redactedCommandLine)

end JvmCommand

/-! ## Redaction -/

/-- Two arguments that differ at most in the value of a sensitive name. -/
inductive SameButSecret : OsString → OsString → Prop
  | same (a : OsString) : SameButSecret a a
  | value {dash name : OsString} (hdash : dash = [] ∨ dash = .ofText "-D") (hname : .char '=' ∉ name)
      (hsecret : isSensitiveName name.toStringLossy = true) (v w : OsString) :
      SameButSecret (dash ++ name ++ .char '=' :: v) (dash ++ name ++ .char '=' :: w)

theorem contains_cons_of_head {c : Char} {t needle : Text} (hne : needle ≠ []) (h : needle.head? ≠ some c) :
    contains (c :: t) needle = contains t needle := by
  cases needle with
  | nil => exact absurd rfl hne
  | cons d needle =>
    have hdc : d ≠ c := fun heq => h (by rw [heq]; rfl)
    simp [contains, hdc]

/-- The words that make a name sensitive, letter by letter. -/
def sensitiveWords : List Text :=
  [['p', 'a', 's', 's', 'w', 'o', 'r', 'd'], ['s', 'e', 'c', 'r', 'e', 't'], ['t', 'o', 'k', 'e', 'n'],
    ['k', 'e', 'y'], ['c', 'r', 'e', 'd', 'e', 'n', 't', 'i', 'a', 'l'], ['v', 'a', 'u', 'l', 't']]

theorem isSensitiveName_eq (name : Text) :
    isSensitiveName name = sensitiveWords.any (contains name.toAsciiLowercase) := rfl

/-- The sign of a system property is no part of a sensitive name. -/
theorem isSensitiveName_dash (name : Text) : isSensitiveName ('-' :: 'D' :: name) = isSensitiveName name := by
  have hlower : Text.toAsciiLowercase ('-' :: 'D' :: name) = '-' :: 'd' :: name.toAsciiLowercase := rfl
  have hheads : ∀ needle ∈ sensitiveWords, needle ≠ [] ∧ needle.head? ≠ some '-' ∧ needle.head? ≠ some 'd' := by
    decide
  rw [isSensitiveName_eq, isSensitiveName_eq, hlower, Bool.eq_iff_iff, List.any_eq_true, List.any_eq_true]
  refine exists_congr (fun needle => and_congr_right (fun hmem => ?_))
  obtain ⟨hne, hdash, hd⟩ := hheads needle hmem
  rw [contains_cons_of_head hne hdash, contains_cons_of_head hne hd]

theorem toStringLossy_append (a b : OsString) : (a ++ b).toStringLossy = a.toStringLossy ++ b.toStringLossy :=
  List.map_append

theorem equals_notMem_lossy {name : OsString} (h : OsUnit.char '=' ∉ name) : '=' ∉ name.toStringLossy := by
  intro hmem
  obtain ⟨u, hu, heq⟩ := List.mem_map.1 hmem
  cases u with
  | char c =>
    rw [show c = '=' from heq] at hu
    exact h hu
  | illFormed code =>
    have hreplaced : '\uFFFD' = '=' := heq
    exact absurd hreplaced (by decide)

/-- What `redact_command_argument` looks for a name in. -/
def propertyOf (argument : Text) : Text := (Text.stripPrefix "-D" argument).getD argument

theorem propertyOf_cases (argument : Text) :
    (∃ rest, argument = '-' :: 'D' :: rest ∧ propertyOf argument = rest) ∨
      (¬ ['-', 'D'] <+: argument) ∧ propertyOf argument = argument := by
  unfold propertyOf Text.stripPrefix
  rw [show ("-D" : String).toList = ['-', 'D'] from rfl]
  by_cases hflag : ['-', 'D'] <+: argument
  · obtain ⟨rest, rfl⟩ := hflag
    exact .inl ⟨rest, rfl, by simp⟩
  · exact .inr ⟨hflag, by simp [hflag]⟩

theorem redact_eq {argument before name v : Text} (h : propertyOf argument = name ++ '=' :: v)
    (hbefore : argument = before ++ propertyOf argument) (hname : '=' ∉ name) (hsecret : isSensitiveName name = true) :
    redactCommandArgument argument = before ++ name ++ "=<redacted>".toList := by
  have hlength : argument.length - (propertyOf argument).length = before.length := by
    have hparts := congrArg List.length hbefore
    rw [List.length_append] at hparts
    omega
  have htake : argument.take before.length = before := by
    rw [hbefore, List.take_left]
  unfold redactCommandArgument
  rw [← propertyOf]
  simp only [hlength, htake]
  rw [h, Text.splitOnce_append v hname]
  exact if_pos hsecret

/-- The sign does not run over the end of a name. -/
theorem starts_dash {name v : Text} (h : ['-', 'D'] <+: name ++ '=' :: v) : ['-', 'D'] <+: name := by
  match name, h with
  | [], h => simp [List.cons_prefix_cons] at h
  | [c], h => simp [List.cons_prefix_cons] at h
  | c :: d :: rest, h => simpa [List.cons_prefix_cons] using h

section Sensitive

variable {name : Text} (hname : '=' ∉ name) (hsecret : isSensitiveName name = true)

include hname hsecret

theorem redact_flagged (v : Text) :
    redactCommandArgument ("-D".toList ++ name ++ '=' :: v) = "-D".toList ++ name ++ "=<redacted>".toList := by
  have hproperty : propertyOf ("-D".toList ++ name ++ '=' :: v) = name ++ '=' :: v := by
    rcases propertyOf_cases ("-D".toList ++ name ++ '=' :: v) with ⟨rest, heq, hrest⟩ | ⟨hflag, -⟩
    · rw [hrest]
      exact (@List.append_cancel_left _ ['-', 'D'] _ _ heq).symm
    · exact absurd ⟨name ++ '=' :: v, rfl⟩ hflag
  exact redact_eq hproperty (by rw [hproperty, List.append_assoc]) hname hsecret

theorem redact_plain (v : Text) :
    redactCommandArgument (name ++ '=' :: v) = name ++ "=<redacted>".toList := by
  by_cases hflag : ['-', 'D'] <+: name
  · obtain ⟨rest, rfl⟩ := hflag
    have hrest : '=' ∉ rest := fun h => hname (List.mem_append_right _ h)
    have hsensitive : isSensitiveName rest = true := by rw [← isSensitiveName_dash]; exact hsecret
    exact redact_flagged hrest hsensitive v
  · rcases propertyOf_cases (name ++ '=' :: v) with ⟨rest, heq, -⟩ | ⟨-, hproperty⟩
    · exact absurd (starts_dash ⟨rest, heq.symm⟩) hflag
    · exact @redact_eq _ [] _ _ hproperty (by rw [hproperty]; rfl) hname hsecret

end Sensitive

theorem SameButSecret.redact {a b : OsString} (h : SameButSecret a b) :
    redactCommandArgument a.toStringLossy = redactCommandArgument b.toStringLossy := by
  cases h with
  | same => rfl
  | @value dash name hdash hname hsecret v w =>
    have hdash' : dash.toStringLossy = [] ∨ dash.toStringLossy = "-D" := by
      rcases hdash with rfl | rfl
      · exact .inl rfl
      · exact .inr rfl
    have hshown : ∀ u : OsString, redactCommandArgument (dash ++ name ++ .char '=' :: u).toStringLossy =
        dash.toStringLossy ++ name.toStringLossy ++ "=<redacted>".toList := by
      intro u
      rw [toStringLossy_append, toStringLossy_append]
      rcases hdash' with h | h
      · rw [h]
        exact redact_plain (equals_notMem_lossy hname) hsecret u.toStringLossy
      · rw [h]
        exact redact_flagged (equals_notMem_lossy hname) hsecret u.toStringLossy
    rw [hshown, hshown]

/-! ## Two launches -/

/-- The configured arguments: of the JVM, and of the application. -/
def isFragment (name : Text) : Bool :=
  ["wrapper.java.additional.", "wrapper.app.parameter."].any (fun pre => pre.toList.isPrefixOf name)

/-- Two entries of a configuration that differ at most in secrets among configured arguments. -/
def SameEntry (e e' : Text × Text) : Prop :=
  e.1 = e'.1 ∧ (e.2 = e'.2 ∨ isFragment e.1 = true ∧
    List.Forall₂ SameButSecret (parseLegacyWindowsFragment e.2) (parseLegacyWindowsFragment e'.2))

/-- Two configurations that do. -/
def SameConfig (config config' : Config) : Prop := List.Forall₂ SameEntry config.properties config'.properties

/-- The two families, letter by letter. -/
theorem isFragment_eq (name : Text) : isFragment name =
    [['w', 'r', 'a', 'p', 'p', 'e', 'r', '.', 'j', 'a', 'v', 'a', '.', 'a', 'd', 'd', 'i', 't', 'i', 'o', 'n', 'a', 'l',
        '.'],
      ['w', 'r', 'a', 'p', 'p', 'e', 'r', '.', 'a', 'p', 'p', '.', 'p', 'a', 'r', 'a', 'm', 'e', 't', 'e', 'r', '.']].any
      (fun pre => pre.isPrefixOf name) := rfl

/-- The properties that `build` reads besides the paths and the arguments. -/
theorem not_fragment :
    isFragment "wrapper.java.command" = false ∧ isFragment "wrapper.java.initmemory" = false ∧
      isFragment "wrapper.java.maxmemory" = false ∧ isFragment "wrapper.java.mainclass" = false ∧
      isFragment "wrapper.debug" = false ∧ isFragment "wrapper.disable_console_input" = false ∧
      isFragment "wrapper.listener.force_stop" = false ∧ isFragment "wrapper.use_system_time" = false ∧
      isFragment "wrapper.disable_shutdown_hook" = false ∧ isFragment "wrapper.ignore_sequence_gaps" = false := by
  simp only [isFragment_eq]
  repeat rw [String.toList_ofList]
  decide +kernel

section TwoConfigs

variable {config config' : Config} {R : Text → Text → Prop}

theorem rel_lookup {name : Text} : ∀ {es es' : List (Text × Text)},
    List.Forall₂ (fun e e' => e.1 = e'.1 ∧ (e.1 = name → R e.2 e'.2)) es es' →
      Option.Rel R (es.lookup name) (es'.lookup name)
  | [], [], .nil => .none
  | (k, v) :: es, (k', v') :: es', .cons ⟨hk, hv⟩ h => by
    obtain rfl : k = k' := hk
    rw [List.lookup_cons, List.lookup_cons]
    by_cases hname : name = k
    · subst hname
      simpa using Option.Rel.some (hv rfl)
    · simpa [beq_false_of_ne hname] using rel_lookup h

theorem rel_mergeSort {es es' : List (Nat × Text)} (h : List.Forall₂ (fun e e' => e.1 = e'.1 ∧ R e.2 e'.2) es es') :
    List.Forall₂ (fun e e' => e.1 = e'.1 ∧ R e.2 e'.2) (es.mergeSort (fun a b => a.1 ≤ b.1))
      (es'.mergeSort (fun a b => a.1 ≤ b.1)) := by
  obtain ⟨hlength, hzip⟩ := List.forall₂_iff_zip.1 h
  have hpairs : ∀ p ∈ es.zip es', p.1.1 = p.2.1 ∧ R p.1.2 p.2.2 := fun p hp => hzip hp
  have hleft := List.map_mergeSort (r := fun p q => decide (p.1.1 ≤ q.1.1)) (s := fun a b => decide (a.1 ≤ b.1))
    (f := Prod.fst) (l := es.zip es') (fun _ _ _ _ => rfl)
  have hright := List.map_mergeSort (r := fun p q => decide (p.1.1 ≤ q.1.1)) (s := fun a b => decide (a.1 ≤ b.1))
    (f := Prod.snd) (l := es.zip es') (fun p hp q hq => by rw [(hpairs p hp).1, (hpairs q hq).1])
  rw [List.map_fst_zip (Nat.le_of_eq hlength)] at hleft
  rw [List.map_snd_zip (Nat.le_of_eq hlength.symm)] at hright
  rw [← hleft, ← hright, List.forall₂_map_left_iff, List.forall₂_map_right_iff, List.forall₂_same]
  intro p hp
  exact hpairs p ((List.mergeSort_perm _ _).mem_iff.1 hp)

/-- What an index is written with. -/
def IsIndex (suffix : Text) : Prop := ∀ c ∈ suffix, c.isDigit = true ∨ c = '+'

theorem isIndex_ofNat (n : Nat) : IsIndex (Text.ofNat n) := fun _ hc =>
  .inl (Nat.isDigit_of_mem_toDigits (by decide) (by decide) hc)

theorem isIndex_of_digits {t : Text} {n : Nat} (h : Text.digits t = some n) : IsIndex t := by
  unfold Text.digits at h
  split at h
  · cases h
  · split at h
    · rename_i hall
      exact fun c hc => .inl (List.all_eq_true.1 hall c hc)
    · cases h

theorem isIndex_of_parseUnsigned {max n : Nat} {t : Text} (h : Text.parseUnsigned max t = some n) : IsIndex t := by
  unfold Text.parseUnsigned at h
  dsimp only at h
  obtain ⟨hmagnitude, -⟩ := Option.filter_eq_some_iff.1 h
  split at hmagnitude
  · intro c hc
    rcases List.mem_cons.1 hc with rfl | hc
    · exact .inr rfl
    · exact isIndex_of_digits hmagnitude c hc
  · exact isIndex_of_digits hmagnitude

/-- The values of a numbered property are related where all of its entries are. -/
theorem rel_numbered {pre : Text} (hgaps : config.getBool "wrapper.ignore_sequence_gaps" false =
      config'.getBool "wrapper.ignore_sequence_gaps" false)
    (h : List.Forall₂ (fun e e' => e.1 = e'.1 ∧ (∀ suffix, IsIndex suffix → e.1 = pre ++ '.' :: suffix → R e.2 e'.2))
      config.properties config'.properties) :
    List.Forall₂ (fun e e' => e.1 = e'.1 ∧ R e.2 e'.2) (config.numbered pre) (config'.numbered pre) := by
  unfold Config.numbered
  rw [← hgaps, ← h.length_eq]
  split
  · refine rel_mergeSort (List.rel_filterMap ?_ h)
    rintro ⟨name, value⟩ ⟨name', value'⟩ ⟨hname, hvalue⟩
    obtain rfl : name = name' := hname
    dsimp only at hvalue ⊢
    by_cases hpre : (pre ++ ['.']).isPrefixOf name = true
    · obtain ⟨suffix, rfl⟩ := List.isPrefixOf_iff_prefix.1 hpre
      have hdrop : (pre ++ ['.'] ++ suffix).drop (pre.length + 1) = suffix := by simp
      rw [if_pos hpre, if_pos hpre, hdrop]
      cases hindex : (Text.parseUnsigned Text.u32Max suffix).filter (0 < ·) with
      | none => exact .none
      | some index =>
        have hparsed := (Option.filter_eq_some_iff.1 hindex).1
        exact .some ⟨rfl, hvalue suffix (isIndex_of_parseUnsigned hparsed) (by simp)⟩
    · rw [if_neg hpre, if_neg hpre]
      exact .none
  · generalize config.properties.length + 1 = fuel
    suffices hfrom : ∀ fuel index, List.Forall₂ (fun e e' => e.1 = e'.1 ∧ R e.2 e'.2)
        (config.numberedFrom pre fuel index) (config'.numberedFrom pre fuel index) from hfrom fuel 1
    intro fuel
    induction fuel with
    | zero => exact fun _ => .nil
    | succ fuel ih =>
      intro index
      have hget : Option.Rel R (config.get (pre ++ '.' :: Text.ofNat index))
          (config'.get (pre ++ '.' :: Text.ofNat index)) :=
        rel_lookup (h.imp (fun e e' he => ⟨he.1, he.2 _ (isIndex_ofNat index)⟩))
      unfold Config.numberedFrom
      revert hget
      generalize config.get (pre ++ '.' :: Text.ofNat index) = v
      generalize config'.get (pre ++ '.' :: Text.ofNat index) = v'
      intro hget
      cases hget with
      | none => exact .nil
      | some hv => exact .cons ⟨rfl, hv⟩ (ih (index + 1))

theorem get_same {name : Text} (h : SameConfig config config') (hname : isFragment name = false) :
    config.get name = config'.get name := by
  have hrel : Option.Rel (· = ·) (config.get name) (config'.get name) := by
    refine rel_lookup (h.imp (fun e e' he => ⟨he.1, fun heq => ?_⟩))
    rcases he.2 with hvalue | ⟨hfragment, -⟩
    · exact hvalue
    · rw [heq, hname] at hfragment
      cases hfragment
  revert hrel
  generalize config.get name = v
  generalize config'.get name = v'
  rintro (⟨heq⟩ | _)
  · rw [heq]
  · rfl

theorem getBool_same {name : Text} (h : SameConfig config config') (hname : isFragment name = false) (default : Bool) :
    config.getBool name default = config'.getBool name default := by
  unfold Config.getBool
  rw [get_same h hname]

/-- The entries of a numbered property that holds no arguments are the same. -/
theorem numbered_same {pre : Text} (h : SameConfig config config')
    (hpre : ∀ name, pre ++ ['.'] <+: name → isFragment name = false) : config.numbered pre = config'.numbered pre := by
  have hrel : List.Forall₂ (fun e e' => e.1 = e'.1 ∧ e.2 = e'.2) (config.numbered pre) (config'.numbered pre) := by
    refine rel_numbered (getBool_same h (by simp only [not_fragment]) false)
      (h.imp (fun e e' he => ⟨he.1, fun suffix _ hname => ?_⟩))
    rcases he.2 with hvalue | ⟨hfragment, -⟩
    · exact hvalue
    · rw [hpre e.1 ⟨suffix, by rw [hname]; simp⟩] at hfragment
      cases hfragment
  exact List.forall₂_eq_eq_eq ▸ hrel.imp (fun _ _ he => Prod.ext he.1 he.2)

/-- The configured arguments differ at most in secrets. -/
theorem fragments_same {pre : Text} (h : SameConfig config config') :
    List.Forall₂ SameButSecret (fragments config pre) (fragments config' pre) := by
  refine List.rel_flatMap (rel_numbered (getBool_same h (by simp only [not_fragment]) false)
    (R := fun v v' => List.Forall₂ SameButSecret (parseLegacyWindowsFragment v) (parseLegacyWindowsFragment v'))
    (h.imp (fun e e' he => ⟨he.1, fun _ _ _ => ?_⟩))) (fun _ _ he => he.2)
  rcases he.2 with hvalue | ⟨-, hfragments⟩
  · rw [hvalue]
    exact List.forall₂_same.2 (fun a _ => .same a)
  · exact hfragments

theorem getU64_same {name : Text} (h : SameConfig config config') (hname : isFragment name = false) (default : Nat) :
    config.getU64 name default = config'.getU64 name default := by
  unfold Config.getU64
  rw [get_same h hname]

theorem getOr_same {name : Text} (h : SameConfig config config') (hname : isFragment name = false) (default : Text) :
    config.getOr name default = config'.getOr name default := by
  unfold Config.getOr
  rw [get_same h hname]

end TwoConfigs

/-- A name outside of both families, however it goes on. -/
theorem isFragment_of_apart {pre name : Text} (h : pre <+: name)
    (happart : ∀ family ∈ ["wrapper.java.additional.", "wrapper.app.parameter."],
      ¬ family.toList <+: pre ∧ ¬ pre <+: family.toList) : isFragment name = false := by
  unfold isFragment
  rw [List.any_eq_false]
  intro family hmem hprefix
  obtain ⟨hlonger, hshorter⟩ := happart family hmem
  rcases List.prefix_or_prefix_of_prefix (List.isPrefixOf_iff_prefix.1 hprefix) h with hp | hp
  · exact hlonger hp
  · exact hshorter hp

theorem redacted_same {as as' : List OsString} (hargs : List.Forall₂ SameButSecret as as') :
    redacted as = redacted as' := by
  unfold redacted
  induction hargs with
  | nil => rfl
  | cons hsame _ ih => rw [List.map_cons, List.map_cons, hsame.redact, ih]

/-- A system property of a sensitive name. -/
theorem sameButSecret_property {name : Text} (hname : '=' ∉ name) (hsecret : isSensitiveName name = true) (v w : Text) :
    SameButSecret (argument ("-D".toList ++ name ++ ['=']) v) (argument ("-D".toList ++ name ++ ['=']) w) := by
  have hunits : OsUnit.char '=' ∉ OsString.ofText name := by
    intro hmem
    obtain ⟨c, hc, heq⟩ := List.mem_map.1 hmem
    cases heq
    exact hname hc
  have hvalue : ∀ u : Text, argument ("-D".toList ++ name ++ ['=']) u =
      OsString.ofText "-D" ++ OsString.ofText name ++ .char '=' :: OsString.ofText u := by
    intro u
    unfold argument OsString.ofText
    simp
  rw [hvalue, hvalue]
  exact .value (.inr rfl) hunits (by rw [OsString.toStringLossy_ofText]; exact hsecret) (.ofText v) (.ofText w)

/-- The key is a secret. -/
theorem key_same (key key' : Text) : SameButSecret (argument "-Dwrapper.key=" key) (argument "-Dwrapper.key=" key') :=
  @sameButSecret_property "wrapper.key" (by simp)
    (by rw [isSensitiveName_eq, String.toList_ofList]; decide +kernel) key key'

/-! ## Noninterference -/

/-- Two launches that differ at most in the key of the channel and in secrets among the configured and the application's
own arguments. -/
structure SameLaunch (config config' : LoadedConfig) (backend backend' : BackendLaunch) (args args' : List OsString) :
    Prop where
  properties : SameConfig config.toConfig config'.toConfig
  directory : config.executableDirectory = config'.executableDirectory
  backend : backend = { backend' with key := backend.key }
  arguments : List.Forall₂ SameButSecret args args'

section SameLaunch

variable {config config' : LoadedConfig} {backend backend' : BackendLaunch} {args args' : List OsString} (host : Host)
  (h : SameLaunch config config' backend backend' args args')

include h

theorem resolvePath_same (value : Text) : resolvePath host config value = resolvePath host config' value := by
  unfold resolvePath
  rw [h.directory]

theorem resolveJavaCommand_same (configured : Text) :
    resolveJavaCommand host config configured = resolveJavaCommand host config' configured := by
  unfold resolveJavaCommand
  simp only [resolvePath_same host h]

theorem resolvedPaths_same {pre : Text} (hpre : ∀ name, pre ++ ['.'] <+: name → isFragment name = false) :
    resolvedPaths host config pre = resolvedPaths host config' pre := by
  unfold resolvedPaths
  rw [numbered_same h.properties hpre]
  simp only [resolvePath_same host h]

theorem classpath_same : resolvedPaths host config "wrapper.java.classpath" =
    resolvedPaths host config' "wrapper.java.classpath" :=
  resolvedPaths_same host h (fun _ hname => isFragment_of_apart hname (by decide +kernel))

theorem pathArguments_same : pathArguments host config = pathArguments host config' := by
  unfold pathArguments
  rw [classpath_same host h,
    resolvedPaths_same host h (fun _ hname => isFragment_of_apart hname (by decide +kernel))]

theorem memoryArguments_same : memoryArguments config.toConfig = memoryArguments config'.toConfig := by
  unfold memoryArguments
  rw [getU64_same h.properties (by simp only [not_fragment]),
    getU64_same h.properties (by simp only [not_fragment])]

theorem launchArguments_same : launchArguments host config.toConfig backend =
    launchArguments host config'.toConfig backend' := by
  have hbool : ∀ name : String, isFragment name.toList = false →
      config.getBool name.toList false = config'.getBool name.toList false :=
    fun _ hname => getBool_same h.properties hname false
  unfold launchArguments copyBooleanProperty
  rw [h.backend, hbool _ (by simp only [not_fragment]),
    hbool _ (by simp only [not_fragment]),
    hbool _ (by simp only [not_fragment]),
    hbool _ (by simp only [not_fragment]),
    hbool _ (by simp only [not_fragment])]

theorem required_same :
    required config.toConfig "wrapper.java.command" = required config'.toConfig "wrapper.java.command" := by
  unfold required
  rw [get_same h.properties (by simp only [not_fragment])]

theorem configuredMain_same : configuredMain config.toConfig = configuredMain config'.toConfig := by
  unfold configuredMain
  rw [getOr_same h.properties (by simp only [not_fragment])]

theorem commandArguments_same (mainClass : MainClass) :
    redacted (commandArguments host config backend mainClass) =
      redacted (commandArguments host config' backend' mainClass) := by
  have hfragments : ∀ pre : Text, redacted (fragments config.toConfig pre) =
      redacted (fragments config'.toConfig pre) :=
    fun pre => redacted_same (fragments_same h.properties)
  have hkey := (key_same backend.key backend'.key).redact
  unfold redacted at hfragments
  unfold redacted commandArguments
  rw [memoryArguments_same h, pathArguments_same host h, launchArguments_same host h]
  simp only [List.map_append, List.map_cons, List.map_nil]
  rw [hfragments, hfragments, hkey]

/-- **The log shows no secret of a command**: two launches that differ at most in the key and in the values of sensitive
names among the configured and the application's own arguments fail with the same error, or show the same note and the
same command line. -/
theorem command_line_hides_secrets :
    (JvmCommand.build host config backend args).map JvmCommand.shown =
      (JvmCommand.build host config' backend' args').map JvmCommand.shown := by
  unfold JvmCommand.build
  rw [required_same h, classpath_same host h, configuredMain_same h]
  cases required config'.toConfig "wrapper.java.command" with
  | error e => rfl
  | ok command =>
    dsimp only [bind, Except.bind]
    generalize resolveMainClass host.toFiles (configuredMain config'.toConfig)
      (resolvedPaths host config' "wrapper.java.classpath") = mainClass
    by_cases hbridge : (mainClass.requiresBridge &&
        !classpathContainsBridge host.toFiles (resolvedPaths host config' "wrapper.java.classpath")) = true
    · rw [if_pos hbridge, if_pos hbridge]
      rfl
    · rw [if_neg hbridge, if_neg hbridge]
      have harguments : redacted (commandArguments host config backend mainClass ++ args) =
          redacted (commandArguments host config' backend' mainClass ++ args') := by
        have hargs := redacted_same h.arguments
        have hcommand := commandArguments_same host h mainClass
        unfold redacted at hargs hcommand ⊢
        rw [List.map_append, List.map_append, hcommand, hargs]
      simp only [pure, Except.pure, Except.map, JvmCommand.shown, JvmCommand.redactedCommandLine, harguments,
        resolveJavaCommand_same host h]

end SameLaunch

/-! ### A configuration with a password -/

/-- A system without files. -/
def emptyHost : Host where
  fileName _ := none
  parent _ := some []
  extension _ := none
  join directory path := directory ++ '/' :: path
  isDir _ := false
  isFile _ := false
  readDir _ := none
  read _ := none
  isAbsolute _ := false
  onWindows := false
  pid := 1

def withArgument (fragment : Text) : LoadedConfig where
  properties :=
    [("wrapper.java.additional.1", fragment), ("wrapper.java.command", "java"),
      ("wrapper.java.mainclass", "example.Main")]
  sorted := by
    change List.Pairwise (· < ·)
      ["wrapper.java.additional.1".toList, "wrapper.java.command".toList, "wrapper.java.mainclass".toList]
    decide +kernel
  rootPath := "wrapper.conf"
  executableDirectory := "bin"
  environment := .empty

def withKey (key : Text) : BackendLaunch := ⟨key, 32000, none, 31000, 31999, 1, false⟩

theorem password_is_hidden :
    (JvmCommand.build emptyHost (withArgument "-DadminPassword=one") (withKey "first") []).map JvmCommand.shown =
      (JvmCommand.build emptyHost (withArgument "\"-DadminPassword=two words\"") (withKey "second") []).map
        JvmCommand.shown := by
  have hfragments : List.Forall₂ SameButSecret (parseLegacyWindowsFragment "-DadminPassword=one")
      (parseLegacyWindowsFragment "\"-DadminPassword=two words\"") := by
    rw [show parseLegacyWindowsFragment "-DadminPassword=one" = [argument "-DadminPassword=" "one"] by decide +kernel,
      show parseLegacyWindowsFragment "\"-DadminPassword=two words\"" = [argument "-DadminPassword=" "two words"] by
        decide +kernel]
    exact .cons (@sameButSecret_property "adminPassword" (by decide +kernel) (by decide +kernel) _ _) .nil
  have hrest : ∀ e : Text × Text, SameEntry e e := fun _ => ⟨rfl, .inl rfl⟩
  exact command_line_hides_secrets emptyHost
    ⟨.cons ⟨rfl, .inr ⟨by decide +kernel, hfragments⟩⟩ (.cons (hrest _) (.cons (hrest _) .nil)), rfl, rfl, .nil⟩

end Jvm
end Jss
