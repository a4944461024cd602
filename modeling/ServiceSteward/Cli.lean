import ServiceSteward.Text
/-!
# Cli — the command line, and the one that an installed service is started with

`installed_launch_arguments` writes what `Cli::parse` read from an install command back as arguments.  What a parse
accepts has a form (`Accepted`) that survives it, so the service control manager starts the service with what was
installed.
-/
namespace Jss

/-- A character of an `OsString`, or what is none: an unpaired surrogate of Windows, a maximal ill-formed sequence of
bytes of Unix. -/
inductive OsUnit where
  | char (c : Char)
  | illFormed (code : List Nat)
  deriving DecidableEq, Repr

abbrev OsString := List OsUnit

namespace OsString

/-- `OsString::from`. -/
def ofText (t : Text) : OsString := t.map .char

def toStr : OsString → Option Text
  | [] => some []
  | .char c :: rest => (toStr rest).map (c :: ·)
  | .illFormed _ :: _ => none

def toStringLossy (s : OsString) : Text :=
  s.map (fun
    | .char c => c
    | .illFormed _ => '\uFFFD')

@[simp] theorem toStr_ofText (t : Text) : toStr (ofText t) = some t := by
  induction t with
  | nil => rfl
  | cons c t ih => exact congrArg (Option.map (c :: ·)) ih

@[simp] theorem toStringLossy_ofText (t : Text) : toStringLossy (ofText t) = t := by
  unfold toStringLossy ofText
  rw [List.map_map]
  exact List.map_id t

end OsString

inductive LegacyCommand where
  | console | service | start | pause | resume | stop | install | installStart | remove
  | controlCode (code : Nat)
  | dump | heapDump
  | query (silent : Bool)
  | version | help
  deriving DecidableEq, Repr

def LegacyCommand.needsConfiguration : LegacyCommand → Bool
  | .version => false
  | .help => false
  | _ => true

structure Cli where
  command : LegacyCommand
  configuration : OsString
  overrides : List Text
  applicationArgs : List OsString
  deriving DecidableEq, Repr

namespace Cli

def commandNames : List (Text × LegacyCommand) :=
  [("-c", .console), ("--console", .console), ("-s", .service), ("--service", .service), ("-t", .start),
    ("--start", .start), ("-a", .pause), ("--pause", .pause), ("-e", .resume), ("--resume", .resume), ("-p", .stop),
    ("--stop", .stop), ("-i", .install), ("--install", .install), ("-it", .installStart),
    ("--installstart", .installStart), ("-r", .remove), ("--remove", .remove), ("-d", .dump), ("--dump", .dump),
    ("--heapdump", .heapDump), ("-q", .query false), ("--query", .query false), ("-qs", .query true),
    ("--querysilent", .query true), ("-v", .version), ("--version", .version), ("-?", .help), ("--help", .help),
    ("-h", .help)]

def parseCommand (argument : OsString) : Except Error (Option LegacyCommand) :=
  let lower := argument.toStringLossy.toAsciiLowercase
  match commandNames.lookup lower with
  | some command => .ok (some command)
  | none =>
    match (Text.stripPrefix "-l=" lower).or (Text.stripPrefix "--controlcode=" lower) with
    | none => .ok none
    | some code =>
      match Text.parseUnsigned Text.u32Max code with
      | some code => .ok (some (.controlCode code))
      | none => .error (.cli ("invalid control code: ".toList ++ code))

def looksLikeOverride (value : OsString) : Bool := value.toStringLossy.contains '='

def separator : OsString := .ofText "--"

/-- The arguments before the first `--`, and those after it. -/
def splitArguments (arguments : List OsString) : List OsString × List OsString :=
  (arguments.takeWhile (· != separator), (arguments.dropWhile (· != separator)).tail)

/-- The command, and whether the first argument names it. -/
def readCommand (wrapperArgs : List OsString) : Except Error (LegacyCommand × Bool) :=
  match wrapperArgs with
  | [] => .ok (.console, false)
  | first :: _ => do
    match ← parseCommand first with
    | some command => .ok (command, true)
    | none =>
      if first.toStringLossy.head? = some '-' then .error (.cli ("unknown command: ".toList ++ first.toStringLossy))
      else .ok (.console, false)

def defaultConfiguration : OsString := .ofText "wrapper.conf"

/-- The configuration file, and the arguments behind it. -/
def readConfiguration (command : LegacyCommand) (explicitCommand : Bool) :
    List OsString → Except Error (OsString × List OsString)
  | [] => .ok (defaultConfiguration, [])
  | candidate :: rest =>
    if command.needsConfiguration then
      if !looksLikeOverride candidate then .ok (candidate, rest)
      else if !explicitCommand then .error (.cli "missing configuration file")
      else .ok (defaultConfiguration, candidate :: rest)
    else .ok (defaultConfiguration, candidate :: rest)

def readOverride (argument : OsString) : Except Error Text :=
  match argument.toStr with
  | none => .error (.cli "configuration property overrides must be valid Unicode")
  | some text =>
    if text.contains '=' then .ok text
    else .error (.cli ("expected a name=value property, found: ".toList ++ text))

def parse (arguments : List OsString) : Except Error Cli := do
  let (wrapperArgs, applicationArgs) := splitArguments arguments
  let (command, explicitCommand) ← readCommand wrapperArgs
  let behind := if explicitCommand then wrapperArgs.tail else wrapperArgs
  let (configuration, behind) ← readConfiguration command explicitCommand behind
  let overrides ← behind.mapM readOverride
  return { command, configuration, overrides, applicationArgs }

end Cli

namespace Service

def isPasswordOverride (value : Text) : Bool := "wrapper.ntservice.password=".toList.isPrefixOf value

def installedLaunchArguments (cli : Cli) : List OsString :=
  [.ofText "-s", cli.configuration] ++ (cli.overrides.filter (fun value => !isPasswordOverride value)).map .ofText ++
    (if cli.applicationArgs.isEmpty then [] else Cli.separator :: cli.applicationArgs)

end Service

namespace Cli

/-! ## What a parse accepts -/

/-- The configuration file and the overrides stand where a parse looks for them. -/
structure Accepted (cli : Cli) : Prop where
  configuration : looksLikeOverride cli.configuration = false
  noSeparator : cli.configuration ≠ separator
  overrides : ∀ value ∈ cli.overrides, '=' ∈ value

theorem readOverride_ok {argument : OsString} {text : Text} (h : readOverride argument = .ok text) : '=' ∈ text := by
  unfold readOverride at h
  split at h
  · cases h
  · split at h
    · rename_i hcontains
      cases h
      simpa using hcontains
    · cases h

theorem readOverride_ofText {text : Text} (h : '=' ∈ text) : readOverride (.ofText text) = .ok text := by
  unfold readOverride
  rw [OsString.toStr_ofText]
  simp [h]

theorem splitArguments_append {wrapperArgs : List OsString} (h : separator ∉ wrapperArgs) (applicationArgs : List OsString) :
    splitArguments (wrapperArgs ++ (if applicationArgs.isEmpty then [] else separator :: applicationArgs)) =
      (wrapperArgs, applicationArgs) := by
  have hbefore : ∀ a ∈ wrapperArgs, (a != separator) = true := by
    intro a ha
    rw [bne_iff_ne]
    rintro rfl
    exact h ha
  unfold splitArguments
  rw [List.takeWhile_append_of_pos hbefore, List.dropWhile_append_of_pos hbefore]
  cases applicationArgs with
  | nil => simp
  | cons a applicationArgs => simp

theorem readConfiguration_ok {command : LegacyCommand} {explicitCommand : Bool} {arguments : List OsString}
    {configuration : OsString} {behind : List OsString} (hseparator : separator ∉ arguments)
    (h : readConfiguration command explicitCommand arguments = .ok (configuration, behind)) :
    looksLikeOverride configuration = false ∧ configuration ≠ separator := by
  have hdefault : looksLikeOverride defaultConfiguration = false ∧ defaultConfiguration ≠ separator := by decide
  unfold readConfiguration at h
  split at h
  · cases h
    exact hdefault
  · rename_i candidate rest
    split at h
    · split at h
      · rename_i hplain
        cases h
        refine ⟨by simpa using hplain, ?_⟩
        rintro rfl
        exact hseparator List.mem_cons_self
      · split at h
        · cases h
        · cases h
          exact hdefault
    · cases h
      exact hdefault

theorem mapM_readOverride_ok : ∀ {arguments : List OsString} {overrides : List Text},
    arguments.mapM readOverride = .ok overrides → ∀ value ∈ overrides, '=' ∈ value
  | [], overrides, h, value, hvalue => by
    cases h
    cases hvalue
  | argument :: arguments, overrides, h, value, hvalue => by
    rw [List.mapM_cons] at h
    obtain ⟨text, htext, h⟩ := result_of_bind h
    obtain ⟨texts, htexts, h⟩ := result_of_bind h
    cases h
    rcases List.mem_cons.1 hvalue with rfl | hvalue
    · exact readOverride_ok htext
    · exact mapM_readOverride_ok htexts value hvalue

theorem mapM_readOverride_ofText : ∀ {overrides : List Text}, (∀ value ∈ overrides, '=' ∈ value) →
    (overrides.map OsString.ofText).mapM readOverride = .ok overrides
  | [], _ => rfl
  | value :: overrides, h => by
    rw [List.map_cons, List.mapM_cons, readOverride_ofText (h value List.mem_cons_self),
      mapM_readOverride_ofText (fun v hv => h v (List.mem_cons_of_mem _ hv))]
    rfl

theorem accepted_of_parse {arguments : List OsString} {cli : Cli} (h : parse arguments = .ok cli) : Accepted cli := by
  obtain ⟨⟨command, explicitCommand⟩, hcommand, h⟩ := result_of_bind h
  obtain ⟨⟨configuration, behind⟩, hconfiguration, h⟩ := result_of_bind h
  obtain ⟨overrides, hoverrides, h⟩ := result_of_bind h
  cases h
  have hbefore : separator ∉ (splitArguments arguments).1 := by
    intro hmem
    have hne := List.mem_takeWhile_imp hmem
    simp at hne
  have hbehind : separator ∉ (if explicitCommand = true then (splitArguments arguments).1.tail
      else (splitArguments arguments).1) := by
    split
    · exact fun hmem => hbefore (List.mem_of_mem_tail hmem)
    · exact hbefore
  obtain ⟨hplain, hne⟩ := readConfiguration_ok hbehind hconfiguration
  exact ⟨hplain, hne, mapM_readOverride_ok hoverrides⟩

theorem readCommand_service (arguments : List OsString) :
    readCommand (.ofText "-s" :: arguments) = .ok (.service, true) := by
  have hname : parseCommand (.ofText "-s") = .ok (some .service) := by decide
  rw [readCommand, hname]
  rfl

theorem readConfiguration_plain {configuration : OsString} (h : looksLikeOverride configuration = false)
    (arguments : List OsString) :
    readConfiguration .service true (configuration :: arguments) = .ok (configuration, arguments) := by
  rw [readConfiguration, h]
  rfl

theorem not_separator_of_mem {text : Text} (h : '=' ∈ text) : OsString.ofText text ≠ separator := by
  intro heq
  have hsame : text = "--".toList := by
    have htext := congrArg OsString.toStr heq
    rw [separator, OsString.toStr_ofText, OsString.toStr_ofText] at htext
    exact Option.some.inj htext
  rw [hsame] at h
  exact absurd h (by decide)

/-- What has the form of an accepted command line is read from its launch arguments as it was written. -/
theorem Accepted.parse_launch {cli : Cli} (h : Accepted cli) :
    parse (Service.installedLaunchArguments cli) =
      .ok { cli with
        command := .service
        overrides := cli.overrides.filter (fun value => !Service.isPasswordOverride value) } := by
  unfold Service.installedLaunchArguments
  generalize hkept : cli.overrides.filter (fun value => !Service.isPasswordOverride value) = kept
  have hequals : ∀ value ∈ kept, '=' ∈ value := by
    subst hkept
    exact fun value hvalue => h.overrides value (List.mem_filter.1 hvalue).1
  have hseparator : separator ∉ [OsString.ofText "-s", cli.configuration] ++ kept.map .ofText := by
    intro hmem
    rcases List.mem_append.1 hmem with hfirst | hoverride
    · rcases List.mem_pair.1 hfirst with hcommand | hconfiguration
      · exact absurd hcommand (by decide)
      · exact h.noSeparator hconfiguration.symm
    · obtain ⟨value, hvalue, heq⟩ := List.mem_map.1 hoverride
      exact not_separator_of_mem (hequals value hvalue) heq
  unfold parse
  rw [splitArguments_append hseparator, List.cons_append]
  dsimp only
  rw [readCommand_service]
  show (do
    let (configuration, behind) ← readConfiguration .service true (cli.configuration :: kept.map .ofText)
    let overrides ← behind.mapM readOverride
    return ({ command := .service, configuration, overrides, applicationArgs := cli.applicationArgs } : Cli)) = _
  rw [readConfiguration_plain h.configuration]
  show (do
    let overrides ← (kept.map OsString.ofText).mapM readOverride
    return ({ cli with command := .service, overrides } : Cli)) = _
  rw [mapM_readOverride_ofText hequals]
  rfl

/-- **The service is started with what was installed**: the launch arguments of every command line that a parse
accepts, those of the install commands among them, are accepted as the service command, with the same configuration
file, the overrides in their order without those of the password, and the same arguments of the application. -/
theorem parse_installedLaunchArguments {arguments : List OsString} {cli : Cli} (h : parse arguments = .ok cli) :
    parse (Service.installedLaunchArguments cli) =
      .ok { cli with
        command := .service
        overrides := cli.overrides.filter (fun value => !Service.isPasswordOverride value) } :=
  (accepted_of_parse h).parse_launch

/-- An install command with a password, and application arguments that look like those of the wrapper. -/
theorem install_with_a_password :
    parse (Service.installedLaunchArguments
        ⟨.installStart, .ofText "conf/a b.conf", ["x==--", "wrapper.ntservice.password=p"],
          [.ofText "--", .ofText "-i", [.illFormed [0xD800]], .ofText "a=b"]⟩) =
      .ok ⟨.service, .ofText "conf/a b.conf", ["x==--"],
        [.ofText "--", .ofText "-i", [.illFormed [0xD800]], .ofText "a=b"]⟩ :=
  @parse_installedLaunchArguments
    [.ofText "-IT", .ofText "conf/a b.conf", .ofText "x==--", .ofText "wrapper.ntservice.password=p", .ofText "--",
      .ofText "--", .ofText "-i", [.illFormed [0xD800]], .ofText "a=b"] _ (by decide +kernel)

end Cli
end Jss
