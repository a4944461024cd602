import ServiceSteward.BridgeProperties
/-!
# Environment — the variables that `set.` definitions leave

`Loader::new` sets and locks a variable for each override that starts with `set.`, with the value as it stands.  The files
then define the variables that are not locked, and `apply_overrides` defines the properties of the overrides, whose values
it expands.
-/
namespace Jss
namespace Loader

open ConfigFile

/-! ## The overrides as `Loader::new` reads them -/

/-- The variable that an override locks, and with what. -/
def lockedBy (platform : Platform) (override : Text) : Option (Text × Text) := do
  let (name, value) ← splitProperty override
  let environmentName ← Text.stripPrefix "set." name
  return (platform.toUppercase environmentName, value)

/-- What some overrides lock a variable with: the last of them counts. -/
def lockedValue (platform : Platform) (overrides : List Text) (key : Text) : Option Text :=
  (overrides.filterMap (lockedBy platform)).reverse.lookup key

def processEnvironment (platform : Platform) : BTreeMap Text Text :=
  platform.vars.foldl (fun environment e => environment.insert (platform.toUppercase e.1) e.2) .empty

/-- A variable after some overrides were locked. -/
def valueLocked (platform : Platform) (overrides : List Text) (key : Text) : Option Text :=
  (lockedValue platform overrides key).or ((processEnvironment platform).get key)

variable {platform : Platform}

theorem lockedBy_of_split (platform : Platform) {override name value : Text}
    (h : splitProperty override = some (name, value)) : lockedBy platform override =
      (Text.stripPrefix "set." name).bind (fun environmentName => some (platform.toUppercase environmentName, value)) := by
  unfold lockedBy
  rw [h]
  rfl

theorem splitOverride_eq {override : Text} {property : Text × Text} (h : splitOverride override = .ok property) :
    splitProperty override = some property := by
  unfold splitOverride at h
  split at h
  · rename_i property' hproperty
    cases h
    exact hproperty
  · cases h

theorem lock_cases {loader loader' : Loader} {override : Text} (h : lock platform loader override = .ok loader') :
    (lockedBy platform override = none ∧ loader' = loader) ∨
      ∃ key value, lockedBy platform override = some (key, value) ∧ loader' = { loader with
        environment := loader.environment.insert key value
        lockedEnvironment := loader.lockedEnvironment ++ [key] } := by
  obtain ⟨⟨name, value⟩, hsplit, h⟩ := result_of_bind h
  have hsplit := splitOverride_eq hsplit
  have hby := lockedBy_of_split platform hsplit
  dsimp only at h
  cases hname : Text.stripPrefix "set." name with
  | none =>
    rw [hname] at h hby
    cases h
    exact .inl ⟨hby, rfl⟩
  | some environmentName =>
    rw [hname] at h hby
    cases h
    exact .inr ⟨_, _, hby, rfl⟩

/-- What locking some overrides leaves. -/
structure Locks (platform : Platform) (overrides : List Text) (loader loader' : Loader) : Prop where
  properties : loader'.properties = loader.properties
  environment : ∀ key, loader'.environment.get key =
    (lockedValue platform overrides key).or (loader.environment.get key)
  locked : ∀ key, key ∈ loader'.lockedEnvironment ↔
    key ∈ loader.lockedEnvironment ∨ (lockedValue platform overrides key).isSome

theorem lockedValue_cons (platform : Platform) (override : Text) (overrides : List Text) (key : Text) :
    lockedValue platform (override :: overrides) key =
      (lockedValue platform overrides key).or (lockedValue platform [override] key) := by
  unfold lockedValue
  cases hby : lockedBy platform override with
  | none => simp [hby]
  | some e =>
    rw [List.filterMap_cons_some hby, List.filterMap_cons_some hby, List.reverse_cons, List.lookup_append]
    rfl

theorem lockedValue_singleton (override key : Text) : lockedValue platform [override] key =
    (lockedBy platform override).bind (fun e => if key == e.1 then some e.2 else none) := by
  unfold lockedValue
  cases hby : lockedBy platform override with
  | none => simp [hby]
  | some e =>
    obtain ⟨key', value⟩ := e
    rw [List.filterMap_cons_some hby]
    simp only [List.filterMap_nil, List.reverse_singleton, List.lookup_cons, List.lookup_nil, Option.bind_some]
    cases key == key' <;> rfl

theorem foldlM_lock : ∀ (overrides : List Text) {loader loader' : Loader},
    overrides.foldlM (lock platform) loader = .ok loader' → Locks platform overrides loader loader'
  | [], loader, loader', h => by
    have heq : loader = loader' := by simpa [pure, Except.pure] using h
    subst heq
    exact ⟨rfl, fun _ => rfl, fun _ => by simp [lockedValue]⟩
  | override :: overrides, loader, loader', h => by
    rw [List.foldlM_cons] at h
    obtain ⟨next, hnext, h⟩ := result_of_bind h
    have ih := foldlM_lock overrides h
    have hvalue := lockedValue_cons platform override overrides
    rcases lock_cases hnext with ⟨hby, rfl⟩ | ⟨key, value, hby, rfl⟩
    · have hnone : ∀ key, lockedValue platform [override] key = none := by
        intro key
        rw [lockedValue_singleton, hby]
        rfl
      constructor
      · exact ih.properties
      · intro key
        rw [ih.environment, hvalue, hnone, Option.or_none]
      · intro key
        rw [ih.locked, hvalue, hnone, Option.or_none]
    · have hone : ∀ key', lockedValue platform [override] key' = if key' == key then some value else none := by
        intro key'
        rw [lockedValue_singleton, hby]
        rfl
      constructor
      · exact ih.properties
      · intro key'
        rw [ih.environment, hvalue, hone, BTreeMap.get_insert]
        cases lockedValue platform overrides key' with
        | some other => rfl
        | none =>
          by_cases heq : (key' == key) = true
          · simp [heq]
          · simp [heq]
      · intro key'
        rw [ih.locked, hvalue, hone]
        by_cases heq : key' = key
        · simp [heq]
        · simp [heq]

theorem new_locks {executableDirectory : Text} {overrides : List Text} {loader : Loader}
    (h : new platform executableDirectory overrides = .ok loader) :
    (∀ key, loader.environment.get key = valueLocked platform overrides key) ∧
      ∀ key, key ∈ loader.lockedEnvironment ↔ (lockedValue platform overrides key).isSome := by
  have hlocks := foldlM_lock overrides h
  constructor
  · exact hlocks.environment
  · intro key
    rw [hlocks.locked]
    simp

/-! ## Definitions -/

/-- The variable that a definition is for. -/
def definedVariable (name : Text) : Option Text :=
  match Text.stripPrefix "set.default." name with
  | some environmentName => some environmentName
  | none => Text.stripPrefix "set." name

def isDefault (name : Text) : Bool := (Text.stripPrefix "set.default." name).isSome

/-- **What defining a property can do to the environment**: it sets its variable, if that is not locked. -/
theorem define_cases (platform : Platform) (loader : Loader) (name value : Text) :
    (define platform loader name value).environment = loader.environment ∨
      ∃ environmentName, definedVariable name = some environmentName ∧
        platform.toUppercase environmentName ∉ loader.lockedEnvironment ∧
        (isDefault name = true → loader.environment.get (platform.toUppercase environmentName) = none) ∧
        (define platform loader name value).environment =
          loader.environment.insert (platform.toUppercase environmentName) value := by
  unfold define applyEnvironmentProperty definedVariable isDefault
  cases hdefault : Text.stripPrefix "set.default." name with
  | some environmentName =>
    dsimp only
    split
    · exact .inl rfl
    · rename_i hfree
      have hfree : platform.toUppercase environmentName ∉ loader.lockedEnvironment ∧
          loader.environment.get (platform.toUppercase environmentName) = none := by simpa using hfree
      exact .inr ⟨environmentName, rfl, hfree.1, fun _ => hfree.2, rfl⟩
  | none =>
    dsimp only
    cases hset : Text.stripPrefix "set." name with
    | none => exact .inl rfl
    | some environmentName =>
      dsimp only
      split
      · exact .inl rfl
      · rename_i hfree
        have hfree : platform.toUppercase environmentName ∉ loader.lockedEnvironment := by simpa using hfree
        exact .inr ⟨environmentName, rfl, hfree, fun h => (by cases h), rfl⟩

@[simp] theorem define_lockedEnvironment (loader : Loader) (name value : Text) :
    (define platform loader name value).lockedEnvironment = loader.lockedEnvironment := by
  unfold define applyEnvironmentProperty
  split
  · dsimp only
    split <;> rfl
  · split
    · dsimp only
      split <;> rfl
    · rfl

/-- The locked variables have the values that they were locked with. -/
structure LocksHold (fresh loader : Loader) : Prop where
  locked : loader.lockedEnvironment = fresh.lockedEnvironment
  values : ∀ key ∈ fresh.lockedEnvironment, loader.environment.get key = fresh.environment.get key

theorem LocksHold.refl (fresh : Loader) : LocksHold fresh fresh := ⟨rfl, fun _ _ => rfl⟩

theorem locksHold_kept (platform : Platform) (fresh : Loader) : Kept platform (LocksHold fresh) where
  define loader line name rawValue value _ h := by
    constructor
    · rw [define_lockedEnvironment]
      exact h.locked
    · intro key hkey
      rcases define_cases platform loader name value with hsame | ⟨environmentName, -, hfree, -, hset⟩
      · rw [hsame]
        exact h.values key hkey
      · have hne : key ≠ platform.toUppercase environmentName := by
          rintro rfl
          rw [h.locked] at hfree
          exact hfree hkey
        rw [hset, BTreeMap.get_insert, if_neg (by simpa using hne)]
        exact h.values key hkey
  frame loader loader' _ henvironment hlocked h := by
    constructor
    · rw [hlocked]
      exact h.locked
    · intro key hkey
      rw [henvironment]
      exact h.values key hkey

/-! ## The states of a load -/

/-- The include of a line: the path, whether it is required, and the state in which it is loaded. -/
def includeOf (platform : Platform) (path : Text) (loader : Loader) (line : Nat × Text) : Option (Text × Bool × Loader) :=
  let trimmed := line.2.trim
  if trimmed.isEmpty || trimmed.head? = some '!' then none
  else
    (parseInclude trimmed).map (fun (directive, argument) =>
      let includePath := removeGroupingQuotes (expandEnvironment platform argument loader.environment).trim
      (includePath, decide (directive = "#include.required".toList),
        if directive = "#include.debug".toList then
          loader.info ("#include.debug from ".toList ++ (path ++ ':' :: Text.ofNat line.1) ++ " -> ".toList ++ includePath)
        else loader))

theorem parseLine_include {load : Text → Bool → Loader → Except Error Loader} {path : Text} {loader : Loader}
    {line : Nat × Text} {included : Text × Bool × Loader} (h : includeOf platform path loader line = some included) :
    parseLine platform load path loader line = load included.1 included.2.1 included.2.2 := by
  unfold includeOf at h
  unfold parseLine
  dsimp only at h ⊢
  split at h
  · cases h
  · rename_i hline
    rw [if_neg hline]
    cases hinclude : parseInclude line.2.trim with
    | none =>
      rw [hinclude] at h
      cases h
    | some directive =>
      rw [hinclude] at h
      cases h
      rfl

/-- A file that is found: its path, its lines, and the state in which the first of them is read. -/
structure Opened (platform : Platform) (path : Text) (loader : Loader) (canonical : Text)
    (lines : List (Nat × Text)) (start : Loader) : Prop where
  found : platform.canonicalize
    (if platform.isAbsolute path then path else platform.join loader.executableDirectory path) = .ok canonical
  fresh : loader.includeStack.contains canonical = false
  read : ∃ bytes text decodingWarning, platform.read canonical = .ok bytes ∧
    decodeConfiguration platform bytes canonical = .ok (text, decodingWarning) ∧
    lines = (logicalLines text).zipIdx.map (fun (line, index) => (index + 1, line)) ∧
    start = ((match decodingWarning with
      | some message => loader.warn message
      | none => loader) : Loader).push canonical

/-- `load_file` parses a line in a state, in the file itself or in what it includes. -/
inductive Parses (platform : Platform) : Nat → Text → Loader → Loader → Nat × Text → Prop where
  | here {remaining : Nat} {path canonical : Text} {loader start point : Loader} {line : Nat × Text}
      {before after : List (Nat × Text)} : Opened platform path loader canonical (before ++ line :: after) start →
      before.foldlM (parseLine platform (loadFile platform remaining) canonical) start = .ok point →
      Parses platform (remaining + 1) path loader point line
  | inside {remaining : Nat} {path canonical : Text} {loader start point point' : Loader} {line line' : Nat × Text}
      {before after : List (Nat × Text)} {included : Text × Bool × Loader} :
      Opened platform path loader canonical (before ++ line :: after) start →
      before.foldlM (parseLine platform (loadFile platform remaining) canonical) start = .ok point →
      includeOf platform canonical point line = some included →
      Parses platform remaining included.1 included.2.2 point' line' →
      Parses platform (remaining + 1) path loader point' line'

theorem includeOf_keeps {I : Loader → Prop} (hI : Kept platform I) {path : Text} {loader : Loader} {line : Nat × Text}
    {included : Text × Bool × Loader} (h : includeOf platform path loader line = some included) (hbefore : I loader) :
    I included.2.2 := by
  unfold includeOf at h
  dsimp only at h
  split at h
  · cases h
  · obtain ⟨directive, -, rfl⟩ := Option.map_eq_some_iff.1 h
    dsimp only
    split
    · exact hI.frame loader _ rfl rfl rfl hbefore
    · exact hbefore

/-- What a load keeps holds in every state in which a line is parsed. -/
theorem Parses.keeps {I : Loader → Prop} (hI : Kept platform I) {remaining : Nat} {path : Text} {loader point : Loader}
    {line : Nat × Text} (h : Parses platform remaining path loader point line) (hbefore : I loader) : I point := by
  have hopened : ∀ {remaining : Nat} {path canonical : Text} {loader start point : Loader}
      {before lines : List (Nat × Text)}, Opened platform path loader canonical lines start →
      before.foldlM (parseLine platform (loadFile platform remaining) canonical) start = .ok point →
      I loader → I point := by
    intro remaining path canonical loader start point before lines hopen hrun hbefore
    obtain ⟨bytes, text, decodingWarning, -, -, -, rfl⟩ := hopen.read
    refine foldlM_keeps (P := I) ?_ _ hrun (opened_keeps hI hbefore decodingWarning canonical)
    intro before line after hline hbefore
    exact parseLine_keeps hI (fun _ _ _ _ => loadFile_keeps hI remaining) hline hbefore
  induction h with
  | here hopen hrun => exact hopened hopen hrun hbefore
  | inside hopen hrun hinclude _ ih => exact ih (includeOf_keeps hI hinclude (hopened hopen hrun hbefore))

/-- The loader before the next override is applied. -/
def beforeOverride (platform : Platform) (rootPath executableDirectory : Text) (overrides before : List Text) :
    Except Error Loader := do
  let loader ← new platform executableDirectory overrides
  let loader ← loadFile platform (MAX_INCLUDE_DEPTH + 1) rootPath true loader
  applyOverrides platform loader before

/-- The states of `Config::load`: when the overrides are locked, when a line is parsed, and when overrides have been
applied. -/
inductive LoadState (platform : Platform) (rootPath executableDirectory : Text) (overrides : List Text) :
    Loader → Prop where
  | fresh {loader : Loader} : new platform executableDirectory overrides = .ok loader →
      LoadState platform rootPath executableDirectory overrides loader
  | line {fresh loader : Loader} {line : Nat × Text} : new platform executableDirectory overrides = .ok fresh →
      Parses platform (MAX_INCLUDE_DEPTH + 1) rootPath fresh loader line →
      LoadState platform rootPath executableDirectory overrides loader
  | override {before after : List Text} {loader : Loader} : overrides = before ++ after →
      beforeOverride platform rootPath executableDirectory overrides before = .ok loader →
      LoadState platform rootPath executableDirectory overrides loader

theorem LoadState.keeps {I : Loader → Prop} (hI : Kept platform I) {rootPath executableDirectory : Text}
    {overrides : List Text} {loader : Loader} (h : LoadState platform rootPath executableDirectory overrides loader)
    (hfresh : ∀ fresh, new platform executableDirectory overrides = .ok fresh → I fresh) : I loader := by
  cases h with
  | fresh hnew => exact hfresh loader hnew
  | line hnew hparses => exact hparses.keeps hI (hfresh _ hnew)
  | override _ hbefore =>
    obtain ⟨fresh, hnew, hbefore⟩ := result_of_bind hbefore
    obtain ⟨loaded, hloaded, happlied⟩ := result_of_bind hbefore
    exact applyOverrides_keeps hI happlied (loadFile_keeps hI _ hloaded (hfresh _ hnew))

theorem load_eq {rootPath executableDirectory : Text} {overrides : List Text} {config : LoadedConfig}
    (h : Config.load platform rootPath executableDirectory overrides = .ok config) :
    ∃ loader, beforeOverride platform rootPath executableDirectory overrides overrides = .ok loader ∧
      config.environment = loader.environment ∧ config.map = loader.properties := by
  obtain ⟨fresh, hfresh, h⟩ := result_of_bind h
  obtain ⟨loaded, hloaded, h⟩ := result_of_bind h
  obtain ⟨loader, happlied, h⟩ := result_of_bind h
  cases h
  refine ⟨loader, ?_, warnAboutUnsupportedProperties_environment loader, ?_⟩
  · unfold beforeOverride
    rw [hfresh]
    change (do
      let loader ← loadFile platform (MAX_INCLUDE_DEPTH + 1) rootPath true fresh
      applyOverrides platform loader overrides) = _
    rw [hloaded]
    exact happlied
  · apply BTreeMap.ext
    exact congrArg BTreeMap.entries (warnAboutUnsupportedProperties_properties loader)

/-! ## Expansion -/

theorem splitOnce_length {c : Char} {t before after : Text} (h : Text.splitOnce c t = some (before, after)) :
    after.length < t.length := by
  unfold Text.splitOnce at h
  split at h
  · rename_i hmem
    cases h
    have hparts := List.takeWhile_append_dropWhile (p := (· != c)) (l := t)
    have hne : t.dropWhile (· != c) ≠ [] := by
      intro hnil
      have hall := List.dropWhile_eq_nil_iff.1 hnil c hmem
      simp at hall
    have hlength := congrArg List.length hparts
    have htail := List.length_tail (l := t.dropWhile (· != c))
    have hpos := List.length_pos_iff.2 hne
    rw [List.length_append] at hlength
    omega
  · cases h

/-- The fuel does not matter once it covers the text. -/
theorem expandFrom_fuel (environment : BTreeMap Text Text) : ∀ (fuel fuel' : Nat) (t : Text), t.length ≤ fuel →
    t.length ≤ fuel' → expandFrom platform environment fuel t = expandFrom platform environment fuel' t
  | 0, 0, t, _, _ => rfl
  | 0, fuel' + 1, t, h, _ => by
    have hnil : t = [] := List.length_eq_zero_iff.1 (Nat.le_zero.1 h)
    subst hnil
    rfl
  | fuel + 1, 0, t, _, h => by
    have hnil : t = [] := List.length_eq_zero_iff.1 (Nat.le_zero.1 h)
    subst hnil
    rfl
  | fuel + 1, fuel' + 1, t, h, h' => by
    rw [expandFrom, expandFrom]
    cases hfirst : Text.splitOnce '%' t with
    | none => rfl
    | some first =>
      obtain ⟨before, afterStart⟩ := first
      dsimp only
      cases hsecond : Text.splitOnce '%' afterStart with
      | none => rfl
      | some second =>
        obtain ⟨name, rest⟩ := second
        have hlength := splitOnce_length hfirst
        have hlength' := splitOnce_length hsecond
        dsimp only
        rw [expandFrom_fuel environment fuel fuel' rest (by omega) (by omega)]

/-- One turn of the loop takes a literal and the reference behind it. -/
theorem expandEnvironment_pair (environment : BTreeMap Text Text) {before name : Text} (after : Text)
    (hbefore : '%' ∉ before) (hname : '%' ∉ name) :
    expandEnvironment platform (before ++ '%' :: (name ++ '%' :: after)) environment =
      before ++ (environment.get (platform.toUppercase name)).getD ('%' :: name ++ ['%']) ++
        expandEnvironment platform after environment := by
  have hlength : (before ++ '%' :: (name ++ '%' :: after)).length =
      (before.length + name.length + after.length + 1) + 1 := by
    simp
    omega
  unfold expandEnvironment
  rw [hlength, expandFrom, Text.splitOnce_append _ hbefore]
  dsimp only
  rw [Text.splitOnce_append _ hname]
  dsimp only
  rw [expandFrom_fuel environment _ after.length after (by omega) (Nat.le_refl _)]

/-- **A reference to a variable that is set expands to its value.** -/
theorem expandEnvironment_reference (environment : BTreeMap Text Text) {before name value : Text} (after : Text)
    (hbefore : '%' ∉ before) (hname : '%' ∉ name)
    (hvalue : environment.get (platform.toUppercase name) = some value) :
    expandEnvironment platform (before ++ '%' :: (name ++ '%' :: after)) environment =
      before ++ value ++ expandEnvironment platform after environment := by
  rw [expandEnvironment_pair environment after hbefore hname, hvalue, Option.getD_some]

/-! ## A variable that an override sets -/

/-- A variable has a value in every state of a load, and so wherever it is referred to. -/
structure Settled (platform : Platform) (rootPath executableDirectory : Text) (overrides : List Text)
    (name value : Text) : Prop where
  states : ∀ loader, LoadState platform rootPath executableDirectory overrides loader →
    loader.environment.get (platform.toUppercase name) = some value
  references : ∀ loader, LoadState platform rootPath executableDirectory overrides loader →
    ∀ before reference after, '%' ∉ before → '%' ∉ reference →
      platform.toUppercase reference = platform.toUppercase name →
        expandEnvironment platform (before ++ '%' :: (reference ++ '%' :: after)) loader.environment =
          before ++ value ++ expandEnvironment platform after loader.environment
  loaded : ∀ config, Config.load platform rootPath executableDirectory overrides = .ok config →
    config.environment.get (platform.toUppercase name) = some value

/-- An override named `set.default.`. -/
def isDefaultOverride (override : Text) : Bool := (splitProperty override).any (fun property => isDefault property.1)

/-- An override of a variable: its name starts with `set.`, and not with `set.default.`. -/
structure Sets (override name value : Text) : Prop where
  named : splitProperty override = some ("set.".toList ++ name, value)
  noDefault : Text.stripPrefix "default." name = none

theorem stripPrefix_append (pre t : Text) : Text.stripPrefix pre (pre ++ t) = some t := by
  simp [Text.stripPrefix]

theorem eq_of_stripPrefix {pre t rest : Text} (h : Text.stripPrefix pre t = some rest) : t = pre ++ rest := by
  unfold Text.stripPrefix at h
  split at h
  · rename_i hstarts
    obtain ⟨rest', rfl⟩ := List.isPrefixOf_iff_prefix.1 hstarts
    cases h
    simp
  · cases h

theorem isDefault_set (name : Text) : isDefault ("set.".toList ++ name) = (Text.stripPrefix "default." name).isSome := by
  have hstarts : "set.default.".toList.isPrefixOf ("set.".toList ++ name) = "default.".toList.isPrefixOf name := rfl
  unfold isDefault Text.stripPrefix
  rw [hstarts]
  split
  · rfl
  · rfl

theorem Sets.lockedBy {override name value : Text} (h : Sets override name value) :
    lockedBy platform override = some (platform.toUppercase name, value) := by
  rw [lockedBy_of_split platform h.named, stripPrefix_append]
  rfl

theorem split_of_lockedBy {override key value : Text} (h : lockedBy platform override = some (key, value)) :
    ∃ name, splitProperty override = some ("set.".toList ++ name, value) ∧ key = platform.toUppercase name := by
  cases hsplit : splitProperty override with
  | none => simp [lockedBy, hsplit] at h
  | some property =>
    obtain ⟨name, value'⟩ := property
    rw [lockedBy_of_split platform hsplit] at h
    obtain ⟨environmentName, hset, heq⟩ := Option.bind_eq_some_iff.1 h
    cases heq
    exact ⟨environmentName, by rw [eq_of_stripPrefix hset], rfl⟩

/-- Where no more overrides set a variable, only those for defaults still lock it. -/
theorem lockedValue_defaults {key : Text} : ∀ {overrides : List Text},
    (∀ override ∈ overrides, ∀ name value, Sets override name value → platform.toUppercase name ≠ key) →
      lockedValue platform overrides key = lockedValue platform (overrides.filter isDefaultOverride) key
  | [], _ => rfl
  | override :: overrides, h => by
    have ih := lockedValue_defaults (fun override hmem => h override (List.mem_cons_of_mem _ hmem))
    rw [lockedValue_cons, ih]
    by_cases hdefault : isDefaultOverride override = true
    · rw [List.filter_cons_of_pos hdefault, lockedValue_cons platform override (overrides.filter isDefaultOverride)]
    · have hnone : lockedValue platform [override] key = none := by
        rw [lockedValue_singleton]
        cases hby : Loader.lockedBy platform override with
        | none => rfl
        | some e =>
          obtain ⟨key', value⟩ := e
          obtain ⟨name, hsplit, rfl⟩ := split_of_lockedBy hby
          have hsets : Sets override name value := by
            refine ⟨hsplit, ?_⟩
            have hnot : isDefault ("set.".toList ++ name) = false := by
              simpa [isDefaultOverride, hsplit] using hdefault
            rw [isDefault_set] at hnot
            exact Option.isNone_iff_eq_none.1 (by simpa using hnot)
          have hne : key ≠ platform.toUppercase name := fun heq => h override (by simp) _ _ hsets heq.symm
          simp [hne]
      rw [List.filter_cons_of_neg hdefault, hnone, Option.or_none]

theorem lockedValue_append (key : Text) : ∀ overrides more : List Text,
    lockedValue platform (overrides ++ more) key =
      (lockedValue platform more key).or (lockedValue platform overrides key)
  | [], more => by
    have hnil : lockedValue platform [] key = none := rfl
    rw [List.nil_append, hnil, Option.or_none]
  | override :: overrides, more => by
    rw [List.cons_append, lockedValue_cons, lockedValue_append key overrides more,
      lockedValue_cons platform override overrides, Option.or_assoc]

theorem Sets.lockedValue {override name value : Text} (h : Sets override name value) :
    lockedValue platform [override] (platform.toUppercase name) = some value := by
  rw [lockedValue_singleton, h.lockedBy]
  simp

/-- What the overrides lock a variable with, after the last one that sets it. -/
theorem lockedValue_last {overrides before after : List Text} {override name value : Text}
    (hoverrides : overrides = before ++ override :: after) (hsets : Sets override name value)
    (hlast : ∀ later ∈ after, ∀ name' value', Sets later name' value' →
      platform.toUppercase name' ≠ platform.toUppercase name) :
    lockedValue platform overrides (platform.toUppercase name) =
      some ((lockedValue platform (after.filter isDefaultOverride) (platform.toUppercase name)).getD value) := by
  rw [hoverrides, lockedValue_append, lockedValue_cons platform override after, hsets.lockedValue,
    lockedValue_defaults hlast]
  cases lockedValue platform (after.filter isDefaultOverride) (platform.toUppercase name) with
  | none => rfl
  | some other => rfl

/-- A locked variable has the value it was locked with in every state of a load. -/
theorem LoadState.locked {rootPath executableDirectory key value : Text} {overrides : List Text} {loader : Loader}
    (h : LoadState platform rootPath executableDirectory overrides loader)
    (hvalue : lockedValue platform overrides key = some value) : loader.environment.get key = some value := by
  have hnew : ∃ fresh, new platform executableDirectory overrides = .ok fresh := by
    cases h with
    | fresh hnew => exact ⟨_, hnew⟩
    | line hnew _ => exact ⟨_, hnew⟩
    | override _ hbefore =>
      obtain ⟨fresh, hnew, -⟩ := result_of_bind hbefore
      exact ⟨fresh, hnew⟩
  obtain ⟨fresh, hnew⟩ := hnew
  obtain ⟨henvironment, hlocked⟩ := new_locks hnew
  have hholds : LocksHold fresh loader := by
    apply h.keeps (locksHold_kept platform fresh)
    intro fresh' hnew'
    rw [hnew] at hnew'
    cases hnew'
    exact LocksHold.refl fresh
  have hmem : key ∈ fresh.lockedEnvironment := (hlocked key).2 (by rw [hvalue]; rfl)
  rw [hholds.values key hmem, henvironment, valueLocked, hvalue]
  rfl

/-- **A variable keeps the value of the last override that sets it just where no later override for a default, which
`Loader::new` takes for a variable whose name starts with `default.`, locks it with another.** -/
theorem settled_iff (platform : Platform) (rootPath executableDirectory : Text) (overrides before after : List Text)
    (override name value : Text) (hoverrides : overrides = before ++ override :: after)
    (hsets : Sets override name value)
    (hlast : ∀ later ∈ after, ∀ name' value', Sets later name' value' →
      platform.toUppercase name' ≠ platform.toUppercase name)
    (hnew : (new platform executableDirectory overrides).isOk = true) :
    Settled platform rootPath executableDirectory overrides name value ↔
      ∀ other, lockedValue platform (after.filter isDefaultOverride) (platform.toUppercase name) = some other →
        other = value := by
  have hlocked := lockedValue_last hoverrides hsets hlast
  constructor
  · intro h other hother
    cases hfresh : new platform executableDirectory overrides with
    | error e =>
      rw [hfresh] at hnew
      cases hnew
    | ok fresh =>
      have hstate : LoadState platform rootPath executableDirectory overrides fresh := .fresh hfresh
      have hvalue := h.states fresh hstate
      rw [hother] at hlocked
      rw [hstate.locked hlocked] at hvalue
      exact Option.some.inj hvalue
  · intro h
    have hvalue : lockedValue platform overrides (platform.toUppercase name) = some value := by
      rw [hlocked]
      cases hother : lockedValue platform (after.filter isDefaultOverride) (platform.toUppercase name) with
      | none => rfl
      | some other => rw [h other hother]; rfl
    refine ⟨fun loader hstate => hstate.locked hvalue, fun loader hstate => ?_, fun config hload => ?_⟩
    · intro before reference after hbefore hreference hupper
      apply expandEnvironment_reference _ _ hbefore hreference
      rw [hupper]
      exact hstate.locked hvalue
    · obtain ⟨loader, happlied, henvironment, -⟩ := load_eq hload
      rw [henvironment]
      exact (LoadState.override (List.append_nil overrides).symm happlied).locked hvalue

open BackendClient (oneFile)

theorem load_of_ok {rootPath executableDirectory : Text} {overrides : List Text} {α : Type} {f : LoadedConfig → α} {a : α}
    (h : (Config.load platform rootPath executableDirectory overrides).map f = .ok a) :
    ∃ config, Config.load platform rootPath executableDirectory overrides = .ok config ∧ f config = a := by
  cases hload : Config.load platform rootPath executableDirectory overrides with
  | error e =>
    rw [hload] at h
    cases h
  | ok config =>
    rw [hload] at h
    exact ⟨config, rfl, Except.ok.inj h⟩

/-- The configuration of a loader that has read everything, without the warnings that follow. -/
def config (loader : Loader) (rootPath executableDirectory : Text) : LoadedConfig where
  properties := loader.properties.entries
  warnings := loader.warnings
  sorted := loader.properties.sorted
  rootPath := rootPath
  executableDirectory := executableDirectory
  environment := loader.environment

/-- What does not look at the warnings is found before them. -/
theorem load_of_before {rootPath executableDirectory : Text} {overrides : List Text} {α : Type} {f : LoadedConfig → α}
    {a : α} (hf : ∀ config warnings, f { config with warnings := warnings } = f config)
    (h : (beforeOverride platform rootPath executableDirectory overrides overrides).map
      (fun loader => f (loader.config rootPath executableDirectory)) = .ok a) :
    ∃ config, Config.load platform rootPath executableDirectory overrides = .ok config ∧ f config = a := by
  cases hbefore : beforeOverride platform rootPath executableDirectory overrides overrides with
  | error e =>
    rw [hbefore] at h
    cases h
  | ok loader =>
    rw [hbefore] at h
    refine ⟨loader.warnAboutUnsupportedProperties.config rootPath executableDirectory, ?_, ?_⟩
    · obtain ⟨fresh, hfresh, hbefore⟩ := result_of_bind hbefore
      obtain ⟨loaded, hloaded, happlied⟩ := result_of_bind hbefore
      simp only [Config.load, hfresh, hloaded, happlied, bind, Except.bind, pure, Except.pure]
      rfl
    · rw [← Except.ok.inj h]
      exact warnAboutUnsupportedProperties_same (fun loader => f (loader.config rootPath executableDirectory))
        (fun loader _ => hf (loader.config rootPath executableDirectory) _)
        (fun loader _ => hf (loader.config rootPath executableDirectory) _) loader

/-- A later definition of the variable in the file changes nothing. -/
theorem override_outlives_the_file : Settled (oneFile "/w.conf" "set.a=2\nb=%A%\n") "/w.conf" "/" ["set.A=1"] "A" "1" := by
  have hnew : (new (oneFile "/w.conf" "set.a=2\nb=%A%\n") "/" ["set.A=1"]).isOk = true := by decide +kernel
  apply (settled_iff _ "/w.conf" "/" ["set.A=1"] [] [] "set.A=1" "A" "1" rfl ⟨by decide, by decide⟩ (by simp) hnew).2
  intro other hother
  cases hother

/-- The override for a default of `x` replaces the variable `DEFAULT.X` that the first override sets. -/
theorem default_override_replaces_a_variable :
    Sets "set.Default.x=1" "Default.x" "1" ∧
    (∀ name value, ¬ Sets "set.default.x=2" name value) ∧
    ∃ config, Config.load (oneFile "/w.conf" "") "/w.conf" "/" ["set.Default.x=1", "set.default.x=2"] = .ok config ∧
      config.environment.get "DEFAULT.X" = some "2".toList ∧
      ¬ Settled (oneFile "/w.conf" "") "/w.conf" "/" ["set.Default.x=1", "set.default.x=2"] "Default.x" "1" := by
  refine ⟨⟨by decide, by decide⟩, fun name value h => ?_, ?_⟩
  · have hsplit : splitProperty "set.default.x=2" = some ("set.".toList ++ "default.x".toList, "2".toList) := by decide
    have hnamed := h.named
    rw [hsplit] at hnamed
    have hname : "default.x".toList = name := List.append_cancel_left (congrArg Prod.fst (Option.some.inj hnamed))
    have hdefault := h.noDefault
    rw [← hname] at hdefault
    exact absurd hdefault (by decide)
  · have hvalue : ((Config.load (oneFile "/w.conf" "") "/w.conf" "/" ["set.Default.x=1", "set.default.x=2"]).map
        (fun config => config.environment.get "DEFAULT.X")) = .ok (some "2".toList) := by decide +kernel
    obtain ⟨config, hload, hvalue⟩ := load_of_ok hvalue
    refine ⟨config, hload, hvalue, fun h => ?_⟩
    have hloaded := h.loaded config hload
    have hupper : (oneFile "/w.conf" "").toUppercase "Default.x" = "DEFAULT.X".toList := by decide
    rw [hupper, hvalue] at hloaded
    exact absurd hloaded (by decide)

end Loader
end Jss
