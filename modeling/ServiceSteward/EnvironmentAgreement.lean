import ServiceSteward.Environment
/-!
# EnvironmentAgreement — when the environment is what the definitions say

An override counts twice: `Loader::new` locks its value as it stands, and takes an override for a default to set a
variable whose name starts with `default.`; `apply_overrides` expands it.  The environment and the properties agree just
where neither makes a difference.
-/
namespace Jss
namespace Loader

open ConfigFile

/-- No property sets the variable under another spelling. -/
def OnlySpelling (platform : Platform) (config : LoadedConfig) (name : Text) : Prop :=
  ∀ other, (config.map.get ("set.".toList ++ other)).isSome = true → Text.stripPrefix "default." other = none →
    platform.toUppercase other = platform.toUppercase name → other = name

/-- A step changes the environment at most at a variable that was undefined. -/
def OnlyDefines (platform : Platform) (name : Text) (loader loader' : Loader) : Prop :=
  ∀ key, loader'.environment.get key ≠ loader.environment.get key →
    key = platform.toUppercase name ∧ loader.environment.get key = none

/-- **The environment of a configuration agrees with its definitions.** -/
structure Agrees (platform : Platform) (rootPath executableDirectory : Text) (overrides : List Text)
    (config : LoadedConfig) : Prop where
  overridden : ∀ override ∈ overrides, ∀ name value, Sets override name value → OnlySpelling platform config name →
    config.environment.get (platform.toUppercase name) = config.map.get ("set.".toList ++ name)
  /-- What an override for a default does, when it is locked and when it is applied. -/
  defaults : ∀ before override after, overrides = before ++ override :: after → ∀ name value,
    splitProperty override = some ("set.default.".toList ++ name, value) →
      (∀ loader loader', new platform executableDirectory before = .ok loader →
        lock platform loader override = .ok loader' → OnlyDefines platform name loader loader') ∧
      (∀ loader loader', beforeOverride platform rootPath executableDirectory overrides before = .ok loader →
        applyOverride platform loader override = .ok loader' → OnlyDefines platform name loader loader')
  keys : ∀ key, (config.environment.get key).isSome = true →
    (∃ e ∈ platform.vars, key = platform.toUppercase e.1) ∨
      ∃ name environmentName, (config.map.get name).isSome = true ∧ definedVariable name = some environmentName ∧
        key = platform.toUppercase environmentName

/-- No override of a default makes a difference when it is locked. -/
def DefaultsInert (platform : Platform) (overrides : List Text) : Prop :=
  ∀ before override after, overrides = before ++ override :: after → ∀ name value,
    splitProperty override = some ("set.default.".toList ++ name, value) →
      valueLocked platform before (platform.toUppercase ("default.".toList ++ name)) = some value ∨
        (platform.toUppercase ("default.".toList ++ name) = platform.toUppercase name ∧
          valueLocked platform before (platform.toUppercase name) = none)

/-- The last override that sets a variable, under its only spelling, has a value that expanding leaves as it is. -/
def ValuesPlain (platform : Platform) (rootPath executableDirectory : Text) (overrides : List Text)
    (config : LoadedConfig) : Prop :=
  ∀ before override after, overrides = before ++ override :: after → ∀ name value, Sets override name value →
    (∀ later ∈ after, ∀ value', ¬ Sets later name value') → OnlySpelling platform config name →
      ∀ loader, beforeOverride platform rootPath executableDirectory overrides before = .ok loader →
        expandEnvironment platform value loader.environment = value

variable {platform : Platform} {rootPath executableDirectory : Text} {overrides : List Text} {config : LoadedConfig}

/-! ## Names -/

theorem definedVariable_set {name : Text} (h : Text.stripPrefix "default." name = none) :
    definedVariable ("set.".toList ++ name) = some name := by
  have hdefault := isDefault_set name
  rw [h] at hdefault
  unfold definedVariable
  cases hstrip : Text.stripPrefix "set.default." ("set.".toList ++ name) with
  | some environmentName =>
    unfold isDefault at hdefault
    rw [hstrip] at hdefault
    cases hdefault
  | none => exact stripPrefix_append _ _

theorem definedVariable_default (name : Text) : definedVariable ("set.default.".toList ++ name) = some name := by
  unfold definedVariable
  rw [stripPrefix_append]

theorem lockedBy_default (platform : Platform) {override name value : Text}
    (h : splitProperty override = some ("set.default.".toList ++ name, value)) :
    lockedBy platform override = some (platform.toUppercase ("default.".toList ++ name), value) := by
  have hparts : "set.default.".toList ++ name = "set.".toList ++ ("default.".toList ++ name) := rfl
  rw [lockedBy_of_split platform h, hparts, stripPrefix_append]
  rfl

/-- An override that locks a variable either sets it or is for a default. -/
theorem lockedBy_cases {override key value : Text} (h : lockedBy platform override = some (key, value)) :
    (∃ name, Sets override name value ∧ key = platform.toUppercase name) ∨
      ∃ name, splitProperty override = some ("set.default.".toList ++ name, value) ∧
        key = platform.toUppercase ("default.".toList ++ name) := by
  obtain ⟨name, hsplit, rfl⟩ := split_of_lockedBy h
  cases hdefault : Text.stripPrefix "default." name with
  | none => exact .inl ⟨name, ⟨hsplit, hdefault⟩, rfl⟩
  | some environmentName =>
    have hname := eq_of_stripPrefix hdefault
    subst hname
    exact .inr ⟨environmentName, hsplit, rfl⟩

/-! ## What the overrides lock -/

theorem valueLocked_concat (before : List Text) (override key : Text) :
    valueLocked platform (before ++ [override]) key =
      (lockedValue platform [override] key).or (valueLocked platform before key) := by
  unfold valueLocked
  rw [lockedValue_append, Option.or_assoc]

/-- Where the defaults are inert, what a variable was set to last stays locked. -/
theorem DefaultsInert.lockedValue (h : DefaultsInert platform overrides) {before after : List Text}
    {override name value : Text} (hoverrides : overrides = before ++ override :: after) (hsets : Sets override name value)
    (hlast : ∀ later ∈ after, ∀ name' value', Sets later name' value' →
      platform.toUppercase name' ≠ platform.toUppercase name) :
    ∀ pre post : List Text, after = pre ++ post →
      lockedValue platform (before ++ override :: pre) (platform.toUppercase name) = some value := by
  intro pre
  induction pre using List.reverseRecOn with
  | nil =>
    intro post _
    rw [lockedValue_append, hsets.lockedValue]
    rfl
  | append_singleton pre later ih =>
    intro post hafter
    have hbefore := ih (later :: post) (by rw [hafter]; simp)
    have hparts : before ++ override :: (pre ++ [later]) = (before ++ override :: pre) ++ [later] := by simp
    rw [hparts, lockedValue_append, hbefore, lockedValue_singleton]
    cases hby : lockedBy platform later with
    | none => rfl
    | some e =>
      obtain ⟨key, value'⟩ := e
      by_cases hkey : platform.toUppercase name = key
      · subst hkey
        rcases lockedBy_cases hby with ⟨name', hsets', heq⟩ | ⟨name', hsplit, heq⟩
        · exact absurd heq.symm (hlast later (by rw [hafter]; simp) name' value' hsets')
        · have hlocked : valueLocked platform (before ++ override :: pre) (platform.toUppercase name) = some value := by
            unfold valueLocked
            rw [hbefore]
            rfl
          have hcases := h (before ++ override :: pre) later post (by rw [hoverrides, hafter]; simp) name' value' hsplit
          rw [← heq, hlocked] at hcases
          rcases hcases with hsame | ⟨hupper, hnone⟩
          · simp [Option.some.inj hsame]
          · rw [← hupper, hlocked] at hnone
            cases hnone
      · simp [hkey]

/-! ## The overrides of a load -/

theorem new_before {before after : List Text} {override : Text} (hoverrides : overrides = before ++ override :: after)
    {fresh : Loader} (h : new platform executableDirectory overrides = .ok fresh) :
    ∃ loader loader', new platform executableDirectory before = .ok loader ∧
      lock platform loader override = .ok loader' := by
  unfold new at h
  rw [hoverrides, List.foldlM_append] at h
  obtain ⟨loader, hbefore, h⟩ := result_of_bind h
  rw [List.foldlM_cons] at h
  obtain ⟨loader', hlock, -⟩ := result_of_bind h
  exact ⟨loader, loader', hbefore, hlock⟩

/-- A load applies each override to the state that those before it leave. -/
theorem applied_at {before after : List Text} {override : Text} (hoverrides : overrides = before ++ override :: after)
    (h : Config.load platform rootPath executableDirectory overrides = .ok config) :
    ∃ loader loader' last, beforeOverride platform rootPath executableDirectory overrides before = .ok loader ∧
      applyOverride platform loader override = .ok loader' ∧ applyOverrides platform loader' after = .ok last ∧
      config.environment = last.environment ∧ config.map = last.properties := by
  obtain ⟨last, hlast, henvironment, hproperties⟩ := load_eq h
  unfold beforeOverride at hlast ⊢
  obtain ⟨fresh, hfresh, hlast⟩ := result_of_bind hlast
  obtain ⟨loaded, hloaded, hlast⟩ := result_of_bind hlast
  unfold applyOverrides at hlast
  rw [hoverrides, List.foldlM_append] at hlast
  obtain ⟨loader, hbefore, hlast⟩ := result_of_bind hlast
  rw [List.foldlM_cons] at hlast
  obtain ⟨loader', happly, hafter⟩ := result_of_bind hlast
  refine ⟨loader, loader', last, ?_, happly, hafter, henvironment, hproperties⟩
  rw [hfresh]
  change (do
    let loader ← loadFile platform (MAX_INCLUDE_DEPTH + 1) rootPath true fresh
    applyOverrides platform loader before) = _
  rw [hloaded]
  exact hbefore

theorem applyOverrides_other {name : Text} : ∀ {after : List Text} {loader last : Loader},
    (∀ later ∈ after, ∀ value, splitProperty later ≠ some (name, value)) →
      applyOverrides platform loader after = .ok last → last.properties.get name = loader.properties.get name
  | [], loader, last, _, h => by
    have heq : loader = last := by simpa [applyOverrides, pure, Except.pure] using h
    rw [heq]
  | later :: after, loader, last, hother, h => by
    unfold applyOverrides at h
    rw [List.foldlM_cons] at h
    obtain ⟨next, hnext, h⟩ := result_of_bind h
    obtain ⟨name', rawValue, hsplit, rfl⟩ := applyOverride_eq hnext
    have hne : name ≠ name' := by
      rintro rfl
      exact hother later (by simp) rawValue hsplit
    rw [applyOverrides_other (fun later hmem => hother later (List.mem_cons_of_mem _ hmem)) h, define_properties,
      BTreeMap.get_insert, if_neg (by simpa using hne)]

theorem defined_kept (platform : Platform) (name : Text) :
    Kept platform (fun loader => (loader.properties.get name).isSome = true) where
  define loader line name' rawValue value _ h := by
    rw [define_properties, BTreeMap.get_insert]
    by_cases heq : name = name'
    · simp [heq]
    · rw [if_neg (by simpa using heq)]
      exact h
  frame loader loader' hproperties _ _ h := by
    rw [hproperties]
    exact h

theorem override_defined (h : Config.load platform rootPath executableDirectory overrides = .ok config)
    {override name value : Text} (hmem : override ∈ overrides) (hsplit : splitProperty override = some (name, value)) :
    (config.map.get name).isSome = true := by
  obtain ⟨before, after, hoverrides⟩ := List.append_of_mem hmem
  obtain ⟨loader, loader', last, -, happly, hafter, -, hproperties⟩ := applied_at hoverrides h
  obtain ⟨name', rawValue, hsplit', rfl⟩ := applyOverride_eq happly
  rw [hsplit] at hsplit'
  cases hsplit'
  rw [hproperties]
  apply applyOverrides_keeps (defined_kept platform name) hafter
  rw [define_properties]
  simp

/-- The property that an override defines last has its value, expanded where it is applied. -/
theorem property_last (h : Config.load platform rootPath executableDirectory overrides = .ok config)
    {before after : List Text} {override name value : Text} (hoverrides : overrides = before ++ override :: after)
    (hsets : Sets override name value) (hlast : ∀ later ∈ after, ∀ value', ¬ Sets later name value') :
    ∃ loader, beforeOverride platform rootPath executableDirectory overrides before = .ok loader ∧
      config.map.get ("set.".toList ++ name) = some (expandEnvironment platform value loader.environment) := by
  obtain ⟨loader, loader', last, hbefore, happly, hafter, -, hproperties⟩ := applied_at hoverrides h
  obtain ⟨name', rawValue, hsplit, rfl⟩ := applyOverride_eq happly
  rw [hsets.named] at hsplit
  cases hsplit
  refine ⟨loader, hbefore, ?_⟩
  have hother : ∀ later ∈ after, ∀ value', splitProperty later ≠ some ("set.".toList ++ name, value') :=
    fun later hmem value' hnamed => hlast later hmem value' ⟨hnamed, hsets.noDefault⟩
  rw [hproperties, applyOverrides_other hother hafter, define_properties]
  simp

/-- Of the overrides that set a variable under one name, there is a last one. -/
theorem exists_last {name : Text} : ∀ {overrides : List Text} {override value : Text}, override ∈ overrides →
    Sets override name value → ∃ before last after value', overrides = before ++ last :: after ∧ Sets last name value' ∧
      ∀ later ∈ after, ∀ value', ¬ Sets later name value'
  | first :: overrides, override, value, hmem, hsets => by
    by_cases hlater : ∃ later ∈ overrides, ∃ value', Sets later name value'
    · obtain ⟨later, hmem', value', hsets'⟩ := hlater
      obtain ⟨before, last, after, value', heq, hlast, hafter⟩ := exists_last hmem' hsets'
      exact ⟨first :: before, last, after, value', by rw [heq]; rfl, hlast, hafter⟩
    · rcases List.mem_cons.1 hmem with rfl | hmem
      · exact ⟨[], override, overrides, value, rfl, hsets, fun later hmem value' h => hlater ⟨later, hmem, value', h⟩⟩
      · exact absurd ⟨override, hmem, value, hsets⟩ hlater

/-! ## The variables of an environment -/

/-- A variable of the process, or one that an override defines. -/
def Given (platform : Platform) (overrides : List Text) (key : Text) : Prop :=
  (∃ e ∈ platform.vars, key = platform.toUppercase e.1) ∨
    ∃ override ∈ overrides, ∃ name value environmentName, splitProperty override = some (name, value) ∧
      definedVariable name = some environmentName ∧ key = platform.toUppercase environmentName

theorem processEnvironment_given {key : Text} (h : ((processEnvironment platform).get key).isSome = true) :
    ∃ e ∈ platform.vars, key = platform.toUppercase e.1 := by
  have hfold : processEnvironment platform = (platform.vars.map (fun e => (platform.toUppercase e.1, e.2))).foldl
      (fun environment e => environment.insert e.1 e.2) .empty := by
    unfold processEnvironment
    rw [List.foldl_map]
  obtain ⟨value, hvalue⟩ := Option.isSome_iff_exists.1 h
  rw [hfold, BTreeMap.get_foldl_insert] at hvalue
  have hnone : (BTreeMap.empty : BTreeMap Text Text).get key = none := rfl
  rw [hnone, Option.or_none] at hvalue
  obtain ⟨before, after, heq, -⟩ := List.lookup_eq_some_iff.1 hvalue
  have hmem : (key, value) ∈ platform.vars.map (fun e => (platform.toUppercase e.1, e.2)) := by
    rw [← List.mem_reverse, heq]
    simp
  obtain ⟨e, he, hpair⟩ := List.mem_map.1 hmem
  exact ⟨e, he, (congrArg Prod.fst hpair).symm⟩

/-- Where the defaults are inert, the overrides lock no other variables. -/
theorem DefaultsInert.given (h : DefaultsInert platform overrides) : ∀ pre post : List Text, overrides = pre ++ post →
    ∀ key, (valueLocked platform pre key).isSome = true → Given platform overrides key := by
  intro pre
  induction pre using List.reverseRecOn with
  | nil =>
    intro post _ key hkey
    exact .inl (processEnvironment_given hkey)
  | append_singleton pre override ih =>
    intro post hoverrides key hkey
    have hmem : override ∈ overrides := by rw [hoverrides]; simp
    have hparts : overrides = pre ++ override :: post := by rw [hoverrides]; simp
    have hbefore := ih (override :: post) hparts key
    rw [valueLocked_concat, lockedValue_singleton] at hkey
    cases hby : lockedBy platform override with
    | none =>
      rw [hby] at hkey
      exact hbefore hkey
    | some e =>
      obtain ⟨key', value⟩ := e
      by_cases heq : key = key'
      · subst heq
        rcases lockedBy_cases hby with ⟨name, hsets, hkey'⟩ | ⟨name, hsplit, hkey'⟩
        · exact .inr ⟨override, hmem, _, value, name, hsets.named, definedVariable_set hsets.noDefault, hkey'⟩
        · rcases h pre override post hparts name value hsplit with hsame | ⟨hupper, -⟩
          · rw [← hkey'] at hsame
            exact hbefore (by rw [hsame]; rfl)
          · rw [hupper] at hkey'
            exact .inr ⟨override, hmem, _, value, name, hsplit, definedVariable_default name, hkey'⟩
      · rw [hby] at hkey
        simp only [Option.bind_some, beq_iff_eq, heq, if_false, Option.none_or] at hkey
        exact hbefore hkey

/-- Every variable is given, or a property that is there defines it. -/
def KeysDefined (platform : Platform) (overrides : List Text) (loader : Loader) : Prop :=
  ∀ key, (loader.environment.get key).isSome = true → Given platform overrides key ∨
    ∃ name environmentName, (loader.properties.get name).isSome = true ∧ definedVariable name = some environmentName ∧
      key = platform.toUppercase environmentName

theorem keysDefined_kept (platform : Platform) (overrides : List Text) :
    Kept platform (KeysDefined platform overrides) where
  define loader line name rawValue value hsplit h := by
    intro key hkey
    have hold : (loader.environment.get key).isSome = true → Given platform overrides key ∨
        ∃ name' environmentName, ((define platform loader name value).properties.get name').isSome = true ∧
          definedVariable name' = some environmentName ∧ key = platform.toUppercase environmentName := by
      intro hkey
      rcases h key hkey with hgiven | ⟨name', environmentName, hname, hdefined, heq⟩
      · exact .inl hgiven
      · exact .inr ⟨name', environmentName,
          (defined_kept platform name').define loader line name rawValue value hsplit hname, hdefined, heq⟩
    rcases define_cases platform loader name value with hsame | ⟨environmentName, hdefined, -, -, hset⟩
    · rw [hsame] at hkey
      exact hold hkey
    · by_cases heq : key = platform.toUppercase environmentName
      · refine .inr ⟨name, environmentName, ?_, hdefined, heq⟩
        rw [define_properties]
        simp
      · rw [hset, BTreeMap.get_insert, if_neg (by simpa using heq)] at hkey
        exact hold hkey
  frame loader loader' hproperties henvironment _ h := by
    unfold KeysDefined
    rw [hproperties, henvironment]
    exact h

/-! ## Agreement -/

/-- The lock of an override for a default makes no difference just where the variable is what it would be set to. -/
theorem lock_default {before : List Text} {override name value : Text} {loader loader' : Loader}
    (hsplit : splitProperty override = some ("set.default.".toList ++ name, value))
    (hnew : new platform executableDirectory before = .ok loader) (hlock : lock platform loader override = .ok loader') :
    OnlyDefines platform name loader loader' ↔
      (valueLocked platform before (platform.toUppercase ("default.".toList ++ name)) = some value ∨
        (platform.toUppercase ("default.".toList ++ name) = platform.toUppercase name ∧
          valueLocked platform before (platform.toUppercase name) = none)) := by
  have hvalues := (new_locks hnew).1
  have hby := lockedBy_default platform hsplit
  rcases lock_cases hlock with ⟨hnone, -⟩ | ⟨key, value', hsome, rfl⟩
  · rw [hby] at hnone
    cases hnone
  · rw [hby] at hsome
    cases hsome
    constructor
    · intro h
      by_cases hsame : valueLocked platform before (platform.toUppercase ("default.".toList ++ name)) = some value
      · exact .inl hsame
      · have hchanged := h (platform.toUppercase ("default.".toList ++ name)) (by
          rw [BTreeMap.get_insert, if_pos (by simp), hvalues]
          exact fun heq => hsame heq.symm)
        obtain ⟨hupper, hnone⟩ := hchanged
        rw [hvalues, hupper] at hnone
        exact .inr ⟨hupper, hnone⟩
    · intro h key hkey
      rw [BTreeMap.get_insert] at hkey
      by_cases heq : key = platform.toUppercase ("default.".toList ++ name)
      · rw [if_pos (by simpa using heq), hvalues, heq] at hkey
        rcases h with hsame | ⟨hupper, hnone⟩
        · exact absurd hsame.symm hkey
        · rw [heq, hvalues, hupper]
          exact ⟨rfl, hnone⟩
      · rw [if_neg (by simpa using heq)] at hkey
        exact absurd rfl hkey

/-- Applying an override for a default defines its variable at most. -/
theorem apply_default {override name value : Text} {loader loader' : Loader}
    (hsplit : splitProperty override = some ("set.default.".toList ++ name, value))
    (happly : applyOverride platform loader override = .ok loader') : OnlyDefines platform name loader loader' := by
  obtain ⟨name', rawValue, hsplit', rfl⟩ := applyOverride_eq happly
  rw [hsplit] at hsplit'
  cases hsplit'
  intro key hkey
  have hdefault : isDefault ("set.default.".toList ++ name) = true := by
    unfold isDefault
    rw [stripPrefix_append]
    rfl
  rcases define_cases platform loader ("set.default.".toList ++ name)
    (expandEnvironment platform value loader.environment) with hsame | ⟨environmentName, hdefined, -, hnone, hset⟩
  · rw [hsame] at hkey
    exact absurd rfl hkey
  · rw [definedVariable_default] at hdefined
    cases hdefined
    by_cases heq : key = platform.toUppercase name
    · rw [heq]
      exact ⟨rfl, hnone hdefault⟩
    · rw [hset, BTreeMap.get_insert, if_neg (by simpa using heq)] at hkey
      exact absurd rfl hkey

/-- What a variable is at last, where the defaults are inert and it has one spelling. -/
theorem DefaultsInert.variable_last (h : DefaultsInert platform overrides)
    (hload : Config.load platform rootPath executableDirectory overrides = .ok config) {before after : List Text}
    {override name value : Text} (hoverrides : overrides = before ++ override :: after) (hsets : Sets override name value)
    (hlast : ∀ later ∈ after, ∀ value', ¬ Sets later name value') (hspelling : OnlySpelling platform config name) :
    config.environment.get (platform.toUppercase name) = some value := by
  have hothers : ∀ later ∈ after, ∀ name' value', Sets later name' value' →
      platform.toUppercase name' ≠ platform.toUppercase name := by
    intro later hmem name' value' hlater hupper
    have hdefined := override_defined hload (by rw [hoverrides]; simp [hmem]) hlater.named
    have hname := hspelling name' hdefined hlater.noDefault hupper
    subst hname
    exact hlast later hmem value' hlater
  have hlocked := h.lockedValue hoverrides hsets hothers after [] (List.append_nil after).symm
  rw [← hoverrides] at hlocked
  obtain ⟨loader, happlied, henvironment, -⟩ := load_eq hload
  rw [henvironment]
  exact (LoadState.override (List.append_nil overrides).symm happlied).locked hlocked

/-- **The environment agrees with the definitions just where the overrides for defaults are inert when they are locked
and the values that the overrides set are left as they are when they are expanded.** -/
theorem agrees_iff (platform : Platform) (rootPath executableDirectory : Text) (overrides : List Text)
    (config : LoadedConfig) (hload : Config.load platform rootPath executableDirectory overrides = .ok config) :
    Agrees platform rootPath executableDirectory overrides config ↔
      DefaultsInert platform overrides ∧ ValuesPlain platform rootPath executableDirectory overrides config := by
  obtain ⟨last, happlied, henvironment, hproperties⟩ := load_eq hload
  obtain ⟨fresh, hfresh, hrest⟩ := result_of_bind happlied
  obtain ⟨loaded, hloaded, hoverridden⟩ := result_of_bind hrest
  constructor
  · intro h
    have hinert : DefaultsInert platform overrides := by
      intro before override after hoverrides name value hsplit
      obtain ⟨loader, loader', hbefore, hlock⟩ := new_before hoverrides hfresh
      exact (lock_default hsplit hbefore hlock).1
        ((h.defaults before override after hoverrides name value hsplit).1 loader loader' hbefore hlock)
    refine ⟨hinert, ?_⟩
    intro before override after hoverrides name value hsets hlast hspelling loader hbefore
    obtain ⟨loader', hbefore', hproperty⟩ := property_last hload hoverrides hsets hlast
    rw [hbefore] at hbefore'
    cases hbefore'
    have hagrees := h.overridden override (by rw [hoverrides]; simp) name value hsets hspelling
    rw [hinert.variable_last hload hoverrides hsets hlast hspelling, hproperty] at hagrees
    exact (Option.some.inj hagrees).symm
  · rintro ⟨hinert, hplain⟩
    refine ⟨?_, ?_, ?_⟩
    · intro override hmem name value hsets hspelling
      obtain ⟨before, chosen, after, value', hoverrides, hchosen, hlast⟩ := exists_last hmem hsets
      obtain ⟨loader, hbefore, hproperty⟩ := property_last hload hoverrides hchosen hlast
      rw [hinert.variable_last hload hoverrides hchosen hlast hspelling, hproperty,
        hplain before chosen after hoverrides name value' hchosen hlast hspelling loader hbefore]
    · intro before override after hoverrides name value hsplit
      constructor
      · intro loader loader' hbefore hlock
        exact (lock_default hsplit hbefore hlock).2 (hinert before override after hoverrides name value hsplit)
      · intro loader loader' _ happly
        exact apply_default hsplit happly
    · intro key hkey
      have hstart : KeysDefined platform overrides fresh := by
        intro key hkey
        rw [(new_locks hfresh).1] at hkey
        exact .inl (hinert.given overrides [] (List.append_nil overrides).symm key hkey)
      have hkept := keysDefined_kept platform overrides
      have hend := applyOverrides_keeps hkept hoverridden (loadFile_keeps hkept _ hloaded hstart)
      rw [henvironment] at hkey
      rcases hend key hkey with (hprocess | ⟨override, hmem, name, value, environmentName, hsplit, hdefined, heq⟩) |
        ⟨name, environmentName, hname, hdefined, heq⟩
      · exact .inl hprocess
      · exact .inr ⟨name, environmentName, override_defined hload hmem hsplit, hdefined, heq⟩
      · rw [← hproperties] at hname
        exact .inr ⟨name, environmentName, hname, hdefined, heq⟩

open BackendClient (oneFile)

/-- An override without percent signs is in the environment as it is in the properties. -/
theorem plain_override_agrees : ∃ config, Config.load (oneFile "/w.conf" "") "/w.conf" "/" ["set.A=1"] = .ok config ∧
    Agrees (oneFile "/w.conf" "") "/w.conf" "/" ["set.A=1"] config := by
  have hok : (Config.load (oneFile "/w.conf" "") "/w.conf" "/" ["set.A=1"]).map (fun _ => ()) = .ok () := by
    decide +kernel
  obtain ⟨config, hload, -⟩ := load_of_ok hok
  have hproperty : splitProperty "set.A=1" = some ("set.A".toList, "1".toList) := by decide
  have honly : ∀ (before after : List Text) (override : Text), ["set.A=1".toList] = before ++ override :: after →
      override = "set.A=1".toList := by
    intro before after override hoverrides
    have hmem : override ∈ ["set.A=1".toList] := by rw [hoverrides]; simp
    exact List.mem_singleton.1 hmem
  refine ⟨config, hload, (agrees_iff _ _ _ _ config hload).2 ⟨?_, ?_⟩⟩
  · intro before override after hoverrides name value hsplit
    rw [honly _ _ _ hoverrides, hproperty] at hsplit
    have hlength := congrArg List.length (congrArg Prod.fst (Option.some.inj hsplit))
    simp at hlength
  · intro before override after hoverrides name value hsets _ _ loader _
    have hnamed := hsets.named
    rw [honly _ _ _ hoverrides, hproperty] at hnamed
    have hvalue : "1".toList = value := congrArg Prod.snd (Option.some.inj hnamed)
    rw [← hvalue]
    rfl

/-- An override for a default of `FOO` sets `DEFAULT.FOO`, and one with a reference is expanded in the properties only. -/
theorem overrides_that_disagree :
    (∃ config, Config.load (oneFile "/w.conf" "") "/w.conf" "/" ["set.default.FOO=v"] = .ok config ∧
      config.environment.get "DEFAULT.FOO" = some "v".toList ∧
      ¬ Agrees (oneFile "/w.conf" "") "/w.conf" "/" ["set.default.FOO=v"] config) ∧
    ∃ config, Config.load (oneFile "/w.conf" "") "/w.conf" "/" ["set.B=1", "set.A=%B%"] = .ok config ∧
      config.environment.get "A" = some "%B%".toList ∧ config.map.get "set.A" = some "1".toList ∧
      ¬ Agrees (oneFile "/w.conf" "") "/w.conf" "/" ["set.B=1", "set.A=%B%"] config := by
  constructor
  · have hvalues : (Config.load (oneFile "/w.conf" "") "/w.conf" "/" ["set.default.FOO=v"]).map
        (fun config => (config.environment.get "DEFAULT.FOO", config.map.keys)) =
          .ok (some "v".toList, ["set.default.FOO".toList]) := by decide +kernel
    obtain ⟨config, hload, hvalues⟩ := load_of_ok hvalues
    rw [Prod.mk.injEq] at hvalues
    obtain ⟨hvalue, hkeys⟩ := hvalues
    refine ⟨config, hload, hvalue, fun h => ?_⟩
    rcases h.keys "DEFAULT.FOO" (by rw [hvalue]; rfl) with ⟨e, he, -⟩ | ⟨name, environmentName, hname, hdefined, heq⟩
    · cases he
    · have hkey := BTreeMap.mem_keys_of_get hname
      rw [hkeys] at hkey
      rw [List.mem_singleton.1 hkey] at hdefined
      have hfoo : definedVariable "set.default.FOO" = some "FOO".toList := by decide
      rw [hfoo] at hdefined
      cases hdefined
      exact absurd heq (by decide)
  · have hvalues : (Config.load (oneFile "/w.conf" "") "/w.conf" "/" ["set.B=1", "set.A=%B%"]).map
        (fun config => (config.environment.get "A", config.map.get "set.A", config.map.keys)) =
          .ok (some "%B%".toList, some "1".toList, ["set.A".toList, "set.B".toList]) := by decide +kernel
    obtain ⟨config, hload, hvalues⟩ := load_of_ok hvalues
    rw [Prod.mk.injEq, Prod.mk.injEq] at hvalues
    obtain ⟨hvalue, hproperty, hkeys⟩ := hvalues
    refine ⟨config, hload, hvalue, hproperty, fun h => ?_⟩
    have hspelling : OnlySpelling (oneFile "/w.conf" "") config "A" := by
      intro other hdefined _ hupper
      have hkey := BTreeMap.mem_keys_of_get hdefined
      rw [hkeys] at hkey
      rcases List.mem_cons.1 hkey with hother | hother
      · have hother : "set.".toList ++ other = "set.".toList ++ "A".toList := hother
        exact List.append_cancel_left hother
      · have hother : "set.".toList ++ other = "set.".toList ++ "B".toList := List.mem_singleton.1 hother
        rw [List.append_cancel_left hother] at hupper
        exact absurd hupper (by decide)
    have hagrees := h.overridden "set.A=%B%" (by simp) "A" "%B%" ⟨by decide, by decide⟩ hspelling
    have hupper : (oneFile "/w.conf" "").toUppercase "A" = "A".toList := by decide
    have hname : "set.".toList ++ "A".toList = "set.A".toList := rfl
    rw [hupper, hname, hvalue, hproperty] at hagrees
    exact absurd hagrees (by decide)

end Loader
end Jss
