import ServiceSteward.Cli
import ServiceSteward.ConfigLoader
/-!
# PersistedOverrides — the password, and the launch arguments of an installed service

`installed_launch_arguments` knows the override of the password by its first characters, the loader by the trimmed name
before the first `=`.  They disagree on a name with white space around it (`Padded`), and on nothing else.
-/
namespace Jss
namespace Service

open ConfigFile (splitProperty)
open Cli (parse splitArguments parseCommand readCommand readConfiguration readOverride looksLikeOverride)

def passwordProperty : Text := "wrapper.ntservice.password"

/-- What the loader reads as a definition of the password. -/
def DefinesPassword (value : Text) : Prop := ∃ rawValue, splitProperty value = some (passwordProperty, rawValue)

/-- The name of the password with white space before it, or between it and the first `=`. -/
def Padded (value : Text) : Prop := ∃ before after rest : Text,
  (∀ c ∈ before, Text.isWhitespace c = true) ∧ (∀ c ∈ after, Text.isWhitespace c = true) ∧
    (before ≠ [] ∨ after ≠ []) ∧ value = before ++ passwordProperty ++ after ++ '=' :: rest

theorem isPasswordOverride_iff (value : Text) :
    isPasswordOverride value = true ↔ ∃ rest, value = passwordProperty ++ '=' :: rest := by
  have hname : "wrapper.ntservice.password=".toList = passwordProperty ++ ['='] := by decide
  unfold isPasswordOverride
  rw [hname, List.isPrefixOf_iff_prefix]
  constructor
  · rintro ⟨rest, rfl⟩
    exact ⟨rest, by simp⟩
  · rintro ⟨rest, rfl⟩
    exact ⟨rest, by simp⟩

theorem splitProperty_iff (value name rawValue : Text) : splitProperty value = some (name, rawValue) ↔
    ∃ written : Text, '=' ∉ written ∧ written.trim = name ∧ value = written ++ '=' :: rawValue := by
  unfold splitProperty
  constructor
  · intro h
    obtain ⟨⟨written, raw⟩, hsplit, heq⟩ := Option.map_eq_some_iff.1 h
    cases heq
    obtain ⟨hvalue, hnot⟩ := Text.splitOnce_some hsplit
    exact ⟨written, hnot, rfl, hvalue⟩
  · rintro ⟨written, hnot, rfl, rfl⟩
    rw [Text.splitOnce_append _ hnot]
    rfl

theorem definesPassword_iff (value : Text) : DefinesPassword value ↔ ∃ before after rest : Text,
    (∀ c ∈ before, Text.isWhitespace c = true) ∧ (∀ c ∈ after, Text.isWhitespace c = true) ∧
      value = before ++ passwordProperty ++ after ++ '=' :: rest := by
  have htrim : passwordProperty.trim = passwordProperty := by decide +kernel
  have hplain : '=' ∉ passwordProperty := by decide
  have hspace : ∀ {t : Text}, (∀ c ∈ t, Text.isWhitespace c = true) → '=' ∉ t := by
    intro t ht hmem
    exact absurd (ht '=' hmem) (by decide)
  constructor
  · rintro ⟨rest, h⟩
    obtain ⟨written, hnot, hname, rfl⟩ := (splitProperty_iff _ _ _).1 h
    obtain ⟨before, after, hbefore, hafter, rfl⟩ := (Text.trim_eq_iff htrim).1 hname
    exact ⟨before, after, rest, hbefore, hafter, rfl⟩
  · rintro ⟨before, after, rest, hbefore, hafter, rfl⟩
    refine ⟨rest, (splitProperty_iff _ _ _).2 ⟨before ++ passwordProperty ++ after, ?_, ?_, rfl⟩⟩
    · simp only [List.mem_append, not_or]
      exact ⟨⟨hspace hbefore, hplain⟩, hspace hafter⟩
    · exact (Text.trim_eq_iff htrim).2 ⟨before, after, hbefore, hafter, rfl⟩

/-- **Where the two disagree.** -/
theorem definesPassword_kept_iff (value : Text) :
    (DefinesPassword value ∧ isPasswordOverride value = false) ↔ Padded value := by
  rw [definesPassword_iff]
  constructor
  · rintro ⟨⟨before, after, rest, hbefore, hafter, rfl⟩, hkept⟩
    refine ⟨before, after, rest, hbefore, hafter, ?_, rfl⟩
    by_contra hnone
    rw [not_or, not_not, not_not] at hnone
    obtain ⟨rfl, rfl⟩ := hnone
    have hfiltered := (isPasswordOverride_iff ([] ++ passwordProperty ++ [] ++ '=' :: rest)).2 ⟨rest, by simp⟩
    rw [hkept] at hfiltered
    cases hfiltered
  · rintro ⟨before, after, rest, hbefore, hafter, hpadded, rfl⟩
    refine ⟨⟨before, after, rest, hbefore, hafter, rfl⟩, Bool.eq_false_iff.2 ?_⟩
    intro hfiltered
    obtain ⟨rest', heq⟩ := (isPasswordOverride_iff _).1 hfiltered
    cases before with
    | cons c before =>
      -- the first character is white space
      have hc : c = 'w' := by
        have hhead := congrArg List.head? heq
        exact Option.some.inj hhead
      exact absurd (hbefore c List.mem_cons_self) (by rw [hc]; decide)
    | nil =>
      cases after with
      | nil => exact hpadded.elim (fun h => h rfl) (fun h => h rfl)
      | cons c after =>
        rw [List.nil_append, List.append_assoc] at heq
        have hbehind := List.append_cancel_left heq
        have hc : c = '=' := (List.cons.inj hbehind).1
        exact absurd (hafter c List.mem_cons_self) (by rw [hc]; decide)

theorem Padded.equals {value : Text} (h : Padded value) : '=' ∈ value := by
  obtain ⟨before, after, rest, -, -, -, rfl⟩ := h
  simp

theorem Padded.head {value : Text} (h : Padded value) : ∀ c, value.head? = some c → c ≠ '-' := by
  obtain ⟨before, after, rest, hbefore, -, -, rfl⟩ := h
  intro c hc
  cases before with
  | nil =>
    have hw : c = 'w' := (Option.some.inj hc).symm
    rw [hw]
    decide
  | cons d before =>
    have hd : d = c := Option.some.inj hc
    rintro rfl
    exact absurd (hbefore d List.mem_cons_self) (by rw [hd]; decide)

/-! ## Where the overrides of a command line stand -/

theorem toLower_eq_dash {c : Char} (h : c.toLower = '-') : c = '-' := by
  unfold Char.toLower at h
  split at h
  · rename_i hupper
    have hval := congrArg Char.val h
    have hlow := hupper.1
    have hhigh := hupper.2
    simp only [ge_iff_le, UInt32.le_iff_toNat_le, ← UInt32.toNat_inj, UInt32.toNat_add] at hval hlow hhigh
    simp at hval hlow hhigh
    omega
  · exact h

theorem parseCommand_padded {value : Text} (h : Padded value) : parseCommand (.ofText value) = .ok none := by
  have hequals : '=' ∈ value.toAsciiLowercase := List.mem_map.2 ⟨'=', h.equals, rfl⟩
  have hname : Cli.commandNames.lookup value.toAsciiLowercase = none := by
    apply List.lookup_eq_none_iff.2
    intro name hname
    have hplain : ∀ e ∈ Cli.commandNames, '=' ∉ e.1 := by decide
    rw [bne_iff_ne]
    intro heq
    exact hplain name hname (heq ▸ hequals)
  have hdash : ∀ pre : Text, Text.stripPrefix ('-' :: pre) value.toAsciiLowercase = none := by
    intro pre
    unfold Text.stripPrefix
    rw [if_neg]
    intro hpre
    obtain ⟨rest, hrest⟩ := List.isPrefixOf_iff_prefix.1 hpre
    cases hvalue : value with
    | nil =>
      rw [hvalue] at hrest
      cases hrest
    | cons c behind =>
      rw [hvalue] at hrest
      have hc : '-' = c.toLower := (List.cons.inj hrest).1
      exact absurd (toLower_eq_dash hc.symm) (h.head c (by rw [hvalue]; rfl))
  unfold parseCommand
  rw [OsString.toStringLossy_ofText]
  dsimp only
  rw [hname]
  dsimp only
  rw [show "-l=".toList = '-' :: "l=".toList from rfl, hdash]
  rw [show "--controlcode=".toList = '-' :: "-controlcode=".toList from rfl, hdash]
  rfl

theorem ofText_of_toStr : ∀ {s : OsString} {t : Text}, s.toStr = some t → s = OsString.ofText t
  | [], t, h => by
    cases h
    rfl
  | .char c :: s, t, h => by
    obtain ⟨t', ht', rfl⟩ := Option.map_eq_some_iff.1 h
    rw [ofText_of_toStr ht']
    rfl
  | .illFormed _ :: _, _, h => by cases h

theorem readOverride_eq {argument : OsString} {value : Text} (h : readOverride argument = .ok value) :
    argument = .ofText value := by
  unfold readOverride at h
  split at h
  · cases h
  · rename_i text htext
    split at h
    · cases h
      exact ofText_of_toStr htext
    · cases h

theorem mapM_readOverride_eq : ∀ {arguments : List OsString} {overrides : List Text},
    arguments.mapM readOverride = .ok overrides → arguments = overrides.map .ofText
  | [], overrides, h => by
    cases h
    rfl
  | argument :: arguments, overrides, h => by
    rw [List.mapM_cons] at h
    obtain ⟨value, hvalue, h⟩ := result_of_bind h
    obtain ⟨values, hvalues, h⟩ := result_of_bind h
    cases h
    rw [readOverride_eq hvalue, mapM_readOverride_eq hvalues]
    rfl

theorem readConfiguration_cases {command : LegacyCommand} {explicitCommand : Bool} {arguments : List OsString}
    {configuration : OsString} {behind : List OsString}
    (h : readConfiguration command explicitCommand arguments = .ok (configuration, behind)) :
    behind = arguments ∨ (arguments = configuration :: behind ∧ looksLikeOverride configuration = false) := by
  unfold readConfiguration at h
  split at h
  · cases h
    exact .inl rfl
  · split at h
    · split at h
      · rename_i hplain
        cases h
        exact .inr ⟨rfl, by simpa using hplain⟩
      · split at h
        · cases h
        · cases h
          exact .inl rfl
    · cases h
      exact .inl rfl

theorem looksLikeOverride_ofText {value : Text} (h : '=' ∈ value) : looksLikeOverride (.ofText value) = true := by
  unfold looksLikeOverride
  rw [OsString.toStringLossy_ofText]
  simpa using h

theorem readCommand_explicit {wrapperArgs : List OsString} {command : LegacyCommand}
    (h : readCommand wrapperArgs = .ok (command, true)) :
    ∃ first rest, wrapperArgs = first :: rest ∧ parseCommand first = .ok (some command) := by
  unfold readCommand at h
  split at h
  · cases h
  · rename_i first rest
    refine ⟨first, rest, rfl, ?_⟩
    obtain ⟨found, hfound, h⟩ := result_of_bind h
    cases found with
    | some found =>
      cases h
      exact hfound
    | none =>
      dsimp only at h
      split at h
      · cases h
      · cases h

theorem mem_behind_command {wrapperArgs : List OsString} {command : LegacyCommand} {explicitCommand : Bool}
    (h : readCommand wrapperArgs = .ok (command, explicitCommand)) {value : Text} (hpadded : Padded value) :
    OsString.ofText value ∈ (if explicitCommand then wrapperArgs.tail else wrapperArgs) ↔
      OsString.ofText value ∈ wrapperArgs := by
  cases explicitCommand with
  | false => exact Iff.rfl
  | true =>
    obtain ⟨first, rest, rfl, hfirst⟩ := readCommand_explicit h
    have hne : OsString.ofText value ≠ first := by
      rintro rfl
      rw [parseCommand_padded hpadded] at hfirst
      cases hfirst
    simp [hne]

theorem mem_behind_configuration {command : LegacyCommand} {explicitCommand : Bool} {arguments : List OsString}
    {configuration : OsString} {behind : List OsString}
    (h : readConfiguration command explicitCommand arguments = .ok (configuration, behind)) {value : Text}
    (hequals : '=' ∈ value) : OsString.ofText value ∈ behind ↔ OsString.ofText value ∈ arguments := by
  rcases readConfiguration_cases h with rfl | ⟨rfl, hplain⟩
  · exact Iff.rfl
  · have hne : OsString.ofText value ≠ configuration := by
      rintro rfl
      rw [looksLikeOverride_ofText hequals] at hplain
      cases hplain
    simp [hne]

theorem mem_overrides {behind : List OsString} {overrides : List Text} (h : behind.mapM readOverride = .ok overrides)
    (value : Text) : value ∈ overrides ↔ OsString.ofText value ∈ behind := by
  rw [mapM_readOverride_eq h]
  constructor
  · exact List.mem_map_of_mem
  · intro hmem
    obtain ⟨other, hother, heq⟩ := List.mem_map.1 hmem
    have hsame := congrArg OsString.toStr heq
    rw [OsString.toStr_ofText, OsString.toStr_ofText] at hsame
    exact Option.some.inj hsame ▸ hother

/-- An argument before the first `--` that pads the password's name is an override, and nothing else is one. -/
theorem padded_mem_overrides {arguments : List OsString} {cli : Cli} (h : parse arguments = .ok cli) {value : Text}
    (hpadded : Padded value) : value ∈ cli.overrides ↔ OsString.ofText value ∈ (splitArguments arguments).1 := by
  obtain ⟨⟨command, explicitCommand⟩, hcommand, h⟩ := result_of_bind h
  obtain ⟨⟨configuration, behind⟩, hconfiguration, h⟩ := result_of_bind h
  obtain ⟨overrides, hoverrides, h⟩ := result_of_bind h
  cases h
  have hbehind := (mem_overrides hoverrides value).trans (mem_behind_configuration hconfiguration hpadded.equals)
  exact hbehind.trans (mem_behind_command hcommand hpadded)

/-! ## What the loader reads back -/

theorem applyOverrides_get (platform : Platform) (name : Text) : ∀ {overrides : List Text} {loader loader' : Loader},
    (∀ value ∈ overrides, ∀ rawValue, splitProperty value ≠ some (name, rawValue)) →
    Loader.applyOverrides platform loader overrides = .ok loader' →
    loader'.properties.get name = loader.properties.get name
  | [], loader, loader', _, h => by
    cases h
    rfl
  | value :: overrides, loader, loader', hother, h => by
    unfold Loader.applyOverrides at h
    rw [List.foldlM_cons] at h
    obtain ⟨next, hnext, h⟩ := result_of_bind h
    have hrest := applyOverrides_get platform name (fun v hv => hother v (List.mem_cons_of_mem _ hv)) h
    obtain ⟨defined, rawValue, hsplit, rfl⟩ := Loader.applyOverride_eq hnext
    have hne : defined ≠ name := fun heq => hother value List.mem_cons_self rawValue (heq ▸ hsplit)
    rw [hrest, Loader.define_properties, BTreeMap.get_insert]
    simp [hne.symm]

theorem applyOverrides_total (platform : Platform) : ∀ {overrides : List Text} (loader : Loader),
    (∀ value ∈ overrides, '=' ∈ value) → ∃ loader', Loader.applyOverrides platform loader overrides = .ok loader'
  | [], loader, _ => ⟨loader, rfl⟩
  | value :: overrides, loader, h => by
    have hsplit : ∃ name rawValue, splitProperty value = some (name, rawValue) := by
      unfold splitProperty Text.splitOnce
      rw [if_pos (h value List.mem_cons_self)]
      exact ⟨_, _, rfl⟩
    obtain ⟨name, rawValue, hsplit⟩ := hsplit
    have hfirst : Loader.applyOverride platform loader value =
        .ok (Loader.define platform loader name (ConfigFile.expandEnvironment platform rawValue loader.environment)) := by
      unfold Loader.applyOverride Loader.splitOverride
      rw [hsplit]
      rfl
    obtain ⟨loader', hrest⟩ := applyOverrides_total platform
      (Loader.define platform loader name (ConfigFile.expandEnvironment platform rawValue loader.environment))
      (fun v hv => h v (List.mem_cons_of_mem _ hv))
    refine ⟨loader', ?_⟩
    unfold Loader.applyOverrides
    rw [List.foldlM_cons, hfirst]
    exact hrest

theorem applyOverrides_defines (platform : Platform) {name value rawValue : Text}
    (hsplit : splitProperty value = some (name, rawValue)) : ∀ {overrides : List Text} {loader loader' : Loader},
    value ∈ overrides → Loader.applyOverrides platform loader overrides = .ok loader' →
    (loader'.properties.get name).isSome = true
  | first :: overrides, loader, loader', hmem, h => by
    unfold Loader.applyOverrides at h
    rw [List.foldlM_cons] at h
    obtain ⟨next, hnext, h⟩ := result_of_bind h
    rcases List.mem_cons.1 hmem with rfl | hmem
    · obtain ⟨defined, raw, hdefined, rfl⟩ := Loader.applyOverride_eq hnext
      rw [hsplit] at hdefined
      cases hdefined
      have hstep : ∀ (before : Loader) (override : Text) (after : Loader),
          Loader.applyOverride platform before override = .ok after →
          (before.properties.get name).isSome = true → (after.properties.get name).isSome = true := by
        intro before override after hover hbefore
        obtain ⟨other, raw, -, rfl⟩ := Loader.applyOverride_eq hover
        rw [Loader.define_properties, BTreeMap.get_insert]
        by_cases hother : (name == other) = true
        · rw [if_pos hother]
          rfl
        · rw [if_neg hother]
          exact hbefore
      refine foldlM_keeps (P := fun l : Loader => (l.properties.get name).isSome = true) hstep _ h ?_
      rw [Loader.define_properties, BTreeMap.get_insert]
      simp
    · exact applyOverrides_defines platform hsplit hmem h

/-- **The password is kept out of the launch arguments exactly when no argument before the first `--` pads its name**:
of the overrides that define it none is kept, and reading back what is kept leaves the property as it was. -/
theorem password_not_persisted_iff {arguments : List OsString} {cli launched : Cli} (h : parse arguments = .ok cli)
    (hlaunch : parse (installedLaunchArguments cli) = .ok launched) :
    ((∀ value ∈ cli.overrides, DefinesPassword value → value ∉ launched.overrides) ↔
      ∀ value, Padded value → OsString.ofText value ∉ (splitArguments arguments).1) ∧
    ∀ platform, (∀ loader loader', Loader.applyOverrides platform loader launched.overrides = .ok loader' →
        loader'.properties.get passwordProperty = loader.properties.get passwordProperty) ↔
      ∀ value, Padded value → OsString.ofText value ∉ (splitArguments arguments).1 := by
  have hequals := (Cli.accepted_of_parse h).overrides
  rw [(Cli.accepted_of_parse h).parse_launch] at hlaunch
  have hkept : launched.overrides = cli.overrides.filter (fun value => !isPasswordOverride value) := by
    cases hlaunch
    rfl
  have hmem : ∀ value, value ∈ launched.overrides ↔ value ∈ cli.overrides ∧ isPasswordOverride value = false := by
    intro value
    rw [hkept, List.mem_filter, Bool.not_eq_true']
  have hpadded : ∀ value, (value ∈ launched.overrides ∧ DefinesPassword value) ↔
      (Padded value ∧ OsString.ofText value ∈ (splitArguments arguments).1) := by
    intro value
    rw [hmem]
    constructor
    · rintro ⟨⟨hover, hfilter⟩, hdefines⟩
      have hpad := (definesPassword_kept_iff value).1 ⟨hdefines, hfilter⟩
      exact ⟨hpad, (padded_mem_overrides h hpad).1 hover⟩
    · rintro ⟨hpad, harg⟩
      obtain ⟨hdefines, hfilter⟩ := (definesPassword_kept_iff value).2 hpad
      exact ⟨⟨(padded_mem_overrides h hpad).2 harg, hfilter⟩, hdefines⟩
  refine ⟨⟨fun hnone value hpad harg => ?_, fun hnone value _ hdefines hover => ?_⟩,
    fun platform => ⟨fun hsame value hpad harg => ?_, fun hnone loader loader' happly => ?_⟩⟩
  · obtain ⟨hover, hdefines⟩ := (hpadded value).2 ⟨hpad, harg⟩
    exact hnone value ((hmem value).1 hover).1 hdefines hover
  · obtain ⟨hpad, harg⟩ := (hpadded value).1 ⟨hover, hdefines⟩
    exact hnone value hpad harg
  · obtain ⟨hover, rawValue, hsplit⟩ := (hpadded value).2 ⟨hpad, harg⟩
    have hall : ∀ value ∈ launched.overrides, '=' ∈ value := fun value hv => hequals value ((hmem value).1 hv).1
    obtain ⟨loader', happly⟩ :=
      applyOverrides_total platform { executableDirectory := [], environment := .empty } hall
    have hsome := applyOverrides_defines platform hsplit hover happly
    rw [hsame _ _ happly] at hsome
    cases hsome
  · refine applyOverrides_get platform passwordProperty ?_ happly
    intro value hover rawValue hsplit
    obtain ⟨hpad, harg⟩ := (hpadded value).1 ⟨hover, rawValue, hsplit⟩
    exact hnone value hpad harg

theorem a_plain_password_is_left_out :
    (∀ value ∈ (["wrapper.ntservice.password=p"] : List Text), DefinesPassword value → value ∉ ([] : List Text)) ↔
      ∀ value, Padded value → OsString.ofText value ∉
        (splitArguments [.ofText "-i", .ofText "wrapper.conf", .ofText "wrapper.ntservice.password=p"]).1 :=
  (@password_not_persisted_iff [.ofText "-i", .ofText "wrapper.conf", .ofText "wrapper.ntservice.password=p"]
    ⟨.install, .ofText "wrapper.conf", ["wrapper.ntservice.password=p"], []⟩
    ⟨.service, .ofText "wrapper.conf", [], []⟩ (by decide +kernel) (by decide +kernel)).1

/-- With a blank before the `=` the password is written to the launch arguments. -/
theorem padded_password_is_persisted : ¬ ∀ (arguments : List OsString) (cli launched : Cli) (value : Text),
    parse arguments = .ok cli → parse (installedLaunchArguments cli) = .ok launched → value ∈ cli.overrides →
    DefinesPassword value → value ∉ launched.overrides := by
  intro h
  refine h [.ofText "-i", .ofText "wrapper.conf", .ofText "wrapper.ntservice.password =secret"]
    ⟨.install, .ofText "wrapper.conf", ["wrapper.ntservice.password =secret"], []⟩
    ⟨.service, .ofText "wrapper.conf", ["wrapper.ntservice.password =secret"], []⟩
    "wrapper.ntservice.password =secret" (by decide +kernel) (by decide +kernel) (by simp) ⟨"secret", ?_⟩ (by simp)
  decide +kernel

end Service
end Jss
