import ServiceSteward.ConfigText
import ServiceSteward.Environment
/-!
# Inlining — included files as one sequence of lines

`load_file` is compared with a parser that never includes anything: it reads the sequence of logical lines in which each
`#include` that is executed is replaced by the lines of the file it names.  Which file that is depends on the variables
that the lines before it define.
-/
namespace Jss
namespace Loader

open ConfigFile

/-! ## The recursion of `load_file` -/

/-- The text of a file, and what is said of its decoding. -/
def readFile (platform : Platform) (canonical : Text) : Except Error (Text × Option Text) := do
  let bytes ← (platform.read canonical).mapError (Error.configRead canonical)
  decodeConfiguration platform bytes canonical

/-- The state in which the first line of a file is read. -/
def opened (loader : Loader) (canonical : Text) (decodingWarning : Option Text) : Loader :=
  ((match decodingWarning with
    | some message => loader.warn message
    | none => loader) : Loader).push canonical

/-- What `load_file` does behind its check of the depth, given what it does one level deeper. -/
def loadFileWith (platform : Platform) (load : Text → Bool → Loader → Except Error Loader) (path : Text)
    (required : Bool) (loader : Loader) : Except Error Loader :=
  let resolved := if platform.isAbsolute path then path else platform.join loader.executableDirectory path
  match platform.canonicalize resolved with
  | .error source =>
    if !required && source = .notFound then .ok (loader.warn ("optional #include not found: ".toList ++ resolved))
    else .error (.configRead resolved source)
  | .ok canonical =>
    if loader.includeStack.contains canonical then
      .error (.config ("#include cycle detected at ".toList ++ canonical))
    else do
      let (text, decodingWarning) ← readFile platform canonical
      let loader ← (numberedLines text).foldlM (parseLine platform load canonical)
        (opened loader canonical decodingWarning)
      return loader.pop

def tooDeep : Error := .config ("more than ".toList ++ Text.ofNat MAX_INCLUDE_DEPTH ++ " nested #include levels".toList)

def cycleAt (canonical : Text) : Error := .config ("#include cycle detected at ".toList ++ canonical)

/-- The recursive equation of `load_file`, in which the depth counts up. -/
def IsLoadFile (platform : Platform) (load : Nat → Text → Bool → Loader → Except Error Loader) : Prop :=
  ∀ depth path required loader, load depth path required loader =
    if depth > MAX_INCLUDE_DEPTH then .error tooDeep else loadFileWith platform (load (depth + 1)) path required loader

def loadFileAt (platform : Platform) (depth : Nat) : Text → Bool → Loader → Except Error Loader :=
  loadFile platform (MAX_INCLUDE_DEPTH + 1 - depth)

variable {platform : Platform}

theorem loadFile_succ (remaining : Nat) (path : Text) (required : Bool) (loader : Loader) :
    loadFile platform (remaining + 1) path required loader =
      loadFileWith platform (loadFile platform remaining) path required loader := by
  rw [loadFile, loadFileWith]
  dsimp only
  cases platform.canonicalize
    (if platform.isAbsolute path then path else platform.join loader.executableDirectory path) with
  | error source => rfl
  | ok canonical =>
    dsimp only
    unfold readFile
    by_cases hcycle : loader.includeStack.contains canonical = true
    · rw [if_pos hcycle, if_pos hcycle]
    · rw [if_neg hcycle, if_neg hcycle]
      cases platform.read canonical with
      | error source => rfl
      | ok bytes => rfl

theorem loadFileAt_isLoadFile (platform : Platform) : IsLoadFile platform (loadFileAt platform) := by
  intro depth path required loader
  unfold loadFileAt
  by_cases hdeep : depth > MAX_INCLUDE_DEPTH
  · have hnone : MAX_INCLUDE_DEPTH + 1 - depth = 0 := by omega
    rw [if_pos hdeep, hnone]
    rfl
  · have hsome : MAX_INCLUDE_DEPTH + 1 - depth = (MAX_INCLUDE_DEPTH + 1 - (depth + 1)) + 1 := by omega
    rw [if_neg hdeep, hsome, loadFile_succ]

/-- **The recursion ends**: exactly one function satisfies its equation. -/
theorem isLoadFile_iff {load : Nat → Text → Bool → Loader → Except Error Loader} :
    IsLoadFile platform load ↔ load = loadFileAt platform := by
  constructor
  · intro hload
    -- the levels that are left decrease with each include
    have hlevels : ∀ levels depth, MAX_INCLUDE_DEPTH + 1 - depth = levels → load depth = loadFileAt platform depth := by
      intro levels
      induction levels with
      | zero =>
        intro depth hdepth
        have hdeep : depth > MAX_INCLUDE_DEPTH := by omega
        funext path required loader
        rw [hload, loadFileAt_isLoadFile, if_pos hdeep, if_pos hdeep]
      | succ levels ih =>
        intro depth hdepth
        have hnext := ih (depth + 1) (by omega)
        funext path required loader
        rw [hload, loadFileAt_isLoadFile, hnext]
    funext depth
    exact hlevels _ depth rfl
  · rintro rfl
    exact loadFileAt_isLoadFile platform

/-! ## The flat sequence -/

/-- Lines parsed as those of a file at a path, where an include would do nothing. -/
def parseLines (platform : Platform) (path : Text) (lines : List Text) (loader : Loader) : Except Error Loader :=
  (lines.zipIdx.map (fun (line, index) => (index + 1, line))).foldlM
    (parseLine platform (fun _ _ loader => .ok loader) path) loader

/-- The path that an `#include` line names, and whether its file must exist; none for other lines. -/
def named (platform : Platform) (loader : Loader) (line : Text) : Option (Text × Bool) :=
  (includeOf platform [] loader (0, line)).map (fun included => (included.1, included.2.1))

/-- The lines that a line becomes, which are what an include names and the line itself otherwise, and the state that
they leave.  There are none if an error ends the processing. -/
def inlineLine (platform : Platform) (inlined : Loader → Text → Bool → Option (List Text)) (loader : Loader)
    (line : Text) : Option (List Text × Loader) := do
  let replaced ← match named platform loader line with
    | none => some [line]
    | some (path, required) => inlined loader path required
  let next ← (parseLines platform [] replaced loader).toOption
  return (replaced, next)

/-- The lines that some lines of a file become, each in the state that those before it leave. -/
def inlineLines (platform : Platform) (inlined : Loader → Text → Bool → Option (List Text)) :
    Loader → List Text → Option (List Text)
  | _, [] => some []
  | loader, line :: rest => do
    let (replaced, next) ← inlineLine platform inlined loader line
    let lines ← inlineLines platform inlined next rest
    return replaced ++ lines

/-- The lines of a file and of what it includes, where `levels` are left and the files of `chain` are being read. -/
def inlineFile (platform : Platform) : Nat → List Text → Loader → Text → Bool → Option (List Text)
  | 0, _, _, _, _ => none
  | levels + 1, chain, loader, path, required =>
    let resolved := if platform.isAbsolute path then path else platform.join loader.executableDirectory path
    match platform.canonicalize resolved with
    | .error source => if !required && source = .notFound then some [] else none
    | .ok canonical =>
      if canonical ∈ chain then none
      else do
        let (text, _) ← (readFile platform canonical).toOption
        inlineLines platform (inlineFile platform levels (chain ++ [canonical])) loader (logicalLines text)

/-! ## What a line reads of the state -/

/-- Two states that the parser cannot tell apart: they differ at most in their warnings and their stacks. -/
structure Agree (loader loader' : Loader) : Prop where
  executableDirectory : loader.executableDirectory = loader'.executableDirectory
  properties : loader.properties = loader'.properties
  environment : loader.environment = loader'.environment
  lockedEnvironment : loader.lockedEnvironment = loader'.lockedEnvironment

theorem Agree.refl (loader : Loader) : Agree loader loader := ⟨rfl, rfl, rfl, rfl⟩

theorem Agree.symm {loader loader' : Loader} (h : Agree loader loader') : Agree loader' loader :=
  ⟨h.1.symm, h.2.symm, h.3.symm, h.4.symm⟩

theorem Agree.trans {loader loader' loader'' : Loader} (h : Agree loader loader') (h' : Agree loader' loader'') :
    Agree loader loader'' :=
  ⟨h.1.trans h'.1, h.2.trans h'.2, h.3.trans h'.3, h.4.trans h'.4⟩

/-- Two results that are both errors, or agree.  The first leaves the stack as it was. -/
inductive SameResult (stack : List Text) : Except Error Loader → Except Error Loader → Prop
  | errors (e e' : Error) : SameResult stack (.error e) (.error e')
  | oks {loader loader' : Loader} : Agree loader loader' → loader.includeStack = stack →
      SameResult stack (.ok loader) (.ok loader')

theorem Agree.define {loader loader' : Loader} (h : Agree loader loader') (name value : Text) :
    Agree (define platform loader name value) (Loader.define platform loader' name value) := by
  obtain ⟨directory, properties, environment, locked, stack, warnings⟩ := loader
  obtain ⟨directory', properties', environment', locked', stack', warnings'⟩ := loader'
  obtain ⟨rfl, rfl, rfl, rfl⟩ : directory = directory' ∧ properties = properties' ∧ environment = environment' ∧
    locked = locked' := ⟨h.1, h.2, h.3, h.4⟩
  unfold Loader.define applyEnvironmentProperty
  dsimp only
  split
  · split
    · exact ⟨rfl, rfl, rfl, rfl⟩
    · exact ⟨rfl, rfl, rfl, rfl⟩
  · split
    · split
      · exact ⟨rfl, rfl, rfl, rfl⟩
      · exact ⟨rfl, rfl, rfl, rfl⟩
    · exact ⟨rfl, rfl, rfl, rfl⟩

@[simp] theorem define_includeStack (loader : Loader) (name value : Text) :
    (define platform loader name value).includeStack = loader.includeStack := by
  unfold define applyEnvironmentProperty
  dsimp only
  split
  · split
    · rfl
    · rfl
  · split
    · split
      · rfl
      · rfl
    · rfl

/-- What an include line asks for is read off the line and the environment. -/
theorem includeOf_cases (platform : Platform) {loader loader' : Loader} (h : Agree loader loader') (path : Text)
    (line : Nat × Text) :
    (named platform loader' line.2 = none ∧ includeOf platform path loader line = none) ∨
      ∃ includePath required start, named platform loader' line.2 = some (includePath, required) ∧
        includeOf platform path loader line = some (includePath, required, start) ∧
        Agree start loader' ∧ start.includeStack = loader.includeStack := by
  unfold named includeOf
  dsimp only
  by_cases hskipped : (line.2.trim.isEmpty || line.2.trim.head? = some '!') = true
  · left
    rw [if_pos hskipped, if_pos hskipped]
    exact ⟨rfl, rfl⟩
  · rw [if_neg hskipped, if_neg hskipped]
    cases hinclude : parseInclude line.2.trim with
    | none => exact .inl ⟨rfl, rfl⟩
    | some included =>
      obtain ⟨directive, argument⟩ := included
      right
      simp only [Option.map_some, h.environment]
      refine ⟨_, _, _, rfl, rfl, ?_, ?_⟩
      · split
        · exact ⟨h.1, h.2, h.3, h.4⟩
        · exact h
      · split
        · rfl
        · rfl

/-- A line that includes nothing does the same in states that agree, whatever its place. -/
theorem parseLine_same (load load' : Text → Bool → Loader → Except Error Loader) {loader loader' : Loader}
    (h : Agree loader loader') (path path' : Text) (number number' : Nat) {line : Text}
    (hplain : named platform loader' line = none) :
    SameResult loader.includeStack (parseLine platform load path loader (number, line))
      (parseLine platform load' path' loader' (number', line)) := by
  unfold named includeOf at hplain
  unfold parseLine
  dsimp only at hplain ⊢
  by_cases hskipped : (line.trim.isEmpty || line.trim.head? = some '!') = true
  · rw [if_pos hskipped, if_pos hskipped]
    exact .oks h rfl
  · rw [if_neg hskipped] at hplain
    rw [if_neg hskipped, if_neg hskipped]
    cases hinclude : parseInclude line.trim with
    | some included =>
      rw [hinclude] at hplain
      cases hplain
    | none =>
      dsimp only
      by_cases hcomment : line.trim.head? = some '#'
      · rw [if_pos hcomment, if_pos hcomment]
        exact .oks h rfl
      · rw [if_neg hcomment, if_neg hcomment]
        cases splitProperty line.trim with
        | none => exact .oks ⟨h.1, h.2, h.3, h.4⟩ rfl
        | some property =>
          obtain ⟨name, rawValue⟩ := property
          dsimp only
          by_cases hempty : name.isEmpty = true
          · rw [if_pos hempty, if_pos hempty]
            exact .errors _ _
          · rw [if_neg hempty, if_neg hempty, h.environment]
            exact .oks (h.define name _) (define_includeStack loader name _)

/-- A line that is no include, whatever the state. -/
def Plain (platform : Platform) (line : Text) : Prop := ∀ loader, named platform loader line = none

theorem plain_of_named {loader : Loader} {line : Text} (h : named platform loader line = none) :
    Plain platform line := by
  intro loader'
  unfold named includeOf at h ⊢
  dsimp only at h ⊢
  by_cases hskipped : (line.trim.isEmpty || line.trim.head? = some '!') = true
  · rw [if_pos hskipped]
    rfl
  · rw [if_neg hskipped] at h ⊢
    cases hinclude : parseInclude line.trim with
    | none => rfl
    | some included =>
      rw [hinclude] at h
      cases h

theorem foldlM_same (load load' : Text → Bool → Loader → Except Error Loader) (path path' : Text) :
    ∀ (lines lines' : List (Nat × Text)), lines.map Prod.snd = lines'.map Prod.snd →
      (∀ line ∈ lines.map Prod.snd, Plain platform line) → ∀ {loader loader' : Loader}, Agree loader loader' →
        SameResult loader.includeStack (lines.foldlM (parseLine platform load path) loader)
          (lines'.foldlM (parseLine platform load' path') loader')
  | [], [], _, _, _, _, h => .oks h rfl
  | [], _ :: _, hlines, _, _, _, _ => by simp at hlines
  | _ :: _, [], hlines, _, _, _, _ => by simp at hlines
  | (number, line) :: lines, (number', line') :: lines', hlines, hplain, loader, loader', h => by
    rw [List.map_cons, List.map_cons] at hlines
    obtain ⟨hline, hrest⟩ := List.cons.inj hlines
    have hline : line = line' := hline
    subst hline
    have hfirst := parseLine_same load load' h path path' number number'
      (hplain line (by simp) loader')
    rw [List.foldlM_cons, List.foldlM_cons]
    generalize parseLine platform load path loader (number, line) = result at hfirst
    generalize parseLine platform load' path' loader' (number', line) = result' at hfirst
    cases hfirst with
    | errors e e' => exact .errors e e'
    | oks hagree hstack =>
      rw [← hstack]
      exact foldlM_same load load' path path' lines lines' hrest (fun line hmem => hplain line (by simp [hmem])) hagree

theorem map_numbered (lines : List Text) (start : Nat) :
    ((lines.zipIdx start).map (fun (line, index) => (index + 1, line))).map Prod.snd = lines := by
  rw [List.map_map]
  exact List.zipIdx_map_fst start _

theorem parseLines_singleton (platform : Platform) (path : Text) (line : Text) (loader : Loader) :
    parseLines platform path [line] loader =
      parseLine platform (fun _ _ loader => .ok loader) path loader (1, line) := by
  simp [parseLines]

/-- Neither the path nor the numbers of the lines change what is parsed. -/
theorem parseLines_append {path : Text} {lines rest : List Text} (hrest : ∀ line ∈ rest, Plain platform line)
    {loader next last : Loader} (hlines : parseLines platform path lines loader = .ok next)
    (hlast : parseLines platform path rest next = .ok last) :
    ∃ last', parseLines platform path (lines ++ rest) loader = .ok last' ∧ Agree last' last := by
  have hsame := foldlM_same (fun _ _ loader => .ok loader) (fun _ _ loader => .ok loader) path path
    ((rest.zipIdx lines.length).map (fun (line, index) => (index + 1, line)))
    (rest.zipIdx.map (fun (line, index) => (index + 1, line)))
    (by rw [map_numbered, map_numbered]) (by rw [map_numbered]; exact hrest) (Agree.refl next)
  have hlast : (rest.zipIdx.map (fun (line, index) => (index + 1, line))).foldlM
    (parseLine platform (fun _ _ loader => .ok loader) path) next = .ok last := hlast
  rw [hlast] at hsame
  unfold parseLines at hlines ⊢
  rw [List.zipIdx_append, List.map_append, List.foldlM_append, hlines, Nat.zero_add]
  change ∃ last', ((rest.zipIdx lines.length).map (fun (line, index) => (index + 1, line))).foldlM
    (parseLine platform (fun _ _ loader => .ok loader) path) next = .ok last' ∧ Agree last' last
  generalize ((rest.zipIdx lines.length).map (fun (line, index) => (index + 1, line))).foldlM
    (parseLine platform (fun _ _ loader => .ok loader) path) next = result at hsame
  cases hsame with
  | oks hagree _ => exact ⟨_, rfl, hagree⟩

/-! ## The loader against the flat parser -/

/-- Either a load fails and has no flat sequence, or both end in states that agree. -/
inductive Simulates (platform : Platform) (stack : List Text) (flat : Loader) :
    Except Error Loader → Option (List Text) → Prop
  | failed (e : Error) : Simulates platform stack flat (.error e) none
  | parsed {loader last : Loader} {lines : List Text} : (∀ line ∈ lines, Plain platform line) →
      parseLines platform [] lines flat = .ok last → Agree loader last → loader.includeStack = stack →
      Simulates platform stack flat (.ok loader) (some lines)

section Lines

variable (load : Text → Bool → Loader → Except Error Loader) (inlined : Loader → Text → Bool → Option (List Text))
  (stack : List Text)

/-- One line, with what it becomes. -/
theorem parseLine_simulated
    (hload : ∀ path required loader flat, Agree loader flat → loader.includeStack = stack →
      Simulates platform stack flat (load path required loader) (inlined flat path required))
    (path : Text) (line : Nat × Text) {loader flat : Loader} (hagree : Agree loader flat)
    (hstack : loader.includeStack = stack) :
    (∃ e, parseLine platform load path loader line = .error e ∧ inlineLine platform inlined flat line.2 = none) ∨
      ∃ loader' replaced next, parseLine platform load path loader line = .ok loader' ∧
        inlineLine platform inlined flat line.2 = some (replaced, next) ∧ Agree loader' next ∧
        loader'.includeStack = stack ∧ parseLines platform [] replaced flat = .ok next ∧
        ∀ line ∈ replaced, Plain platform line := by
  unfold inlineLine
  rcases includeOf_cases platform hagree path line with ⟨hnamed, -⟩ |
    ⟨includePath, required, start, hnamed, hinclude, hstart, hstartStack⟩
  · -- the line itself is parsed
    have hsame := parseLine_same load (fun _ _ loader => .ok loader) hagree path [] line.1 1 hnamed
    rw [hnamed]
    simp only [Option.bind_eq_bind, Option.bind_some]
    rw [parseLines_singleton]
    have hline : parseLine platform load path loader line = parseLine platform load path loader (line.1, line.2) := rfl
    rw [← hline] at hsame
    generalize parseLine platform load path loader line = result at hsame
    generalize hflat : parseLine platform (fun _ _ loader => .ok loader) [] flat (1, line.2) = result' at hsame
    cases hsame with
    | errors e e' => exact .inl ⟨e, rfl, rfl⟩
    | oks hnext hnextStack =>
      have hplain : ∀ other ∈ [line.2], Plain platform other := by
        intro other hother
        rw [List.mem_singleton.1 hother]
        exact plain_of_named hnamed
      have hparsed := (parseLines_singleton platform [] line.2 flat).trans hflat
      exact .inr ⟨_, [line.2], _, rfl, rfl, hnext, hnextStack.trans hstack, hparsed, hplain⟩
  · -- the file that it names is read
    have hfile := hload includePath required start flat hstart (hstartStack.trans hstack)
    rw [hnamed, parseLine_include hinclude]
    simp only [Option.bind_eq_bind]
    generalize load includePath required start = result at hfile
    generalize inlined flat includePath required = lines at hfile
    cases hfile with
    | failed e => exact .inl ⟨e, rfl, rfl⟩
    | parsed hplain hparsed hnext hnextStack =>
      refine .inr ⟨_, _, _, rfl, ?_, hnext, hnextStack, hparsed, hplain⟩
      simp [hparsed, Except.toOption]

theorem parseLines_simulated
    (hload : ∀ path required loader flat, Agree loader flat → loader.includeStack = stack →
      Simulates platform stack flat (load path required loader) (inlined flat path required)) (path : Text) :
    ∀ (lines : List (Nat × Text)) {loader flat : Loader}, Agree loader flat → loader.includeStack = stack →
      Simulates platform stack flat (lines.foldlM (parseLine platform load path) loader)
        (inlineLines platform inlined flat (lines.map Prod.snd))
  | [], loader, flat, hagree, hstack => .parsed (fun _ h => by cases h) rfl hagree hstack
  | line :: lines, loader, flat, hagree, hstack => by
    rw [List.foldlM_cons, List.map_cons, inlineLines]
    rcases parseLine_simulated load inlined stack hload path line hagree hstack with ⟨e, hline, hinline⟩ |
      ⟨loader', replaced, next, hline, hinline, hnext, hnextStack, hparsed, hplain⟩
    · rw [hline, hinline]
      exact .failed e
    · have hrest := parseLines_simulated hload path lines hnext hnextStack
      rw [hline, hinline]
      simp only [Option.bind_eq_bind, Option.bind_some]
      generalize inlineLines platform inlined next (lines.map Prod.snd) = inlinedRest at hrest
      change Simulates platform stack flat (lines.foldlM (parseLine platform load path) loader') _
      generalize lines.foldlM (parseLine platform load path) loader' = result at hrest
      cases hrest with
      | failed e => exact .failed e
      | parsed hplainRest hparsedRest hlast hlastStack =>
        obtain ⟨last, hall, hsame⟩ := parseLines_append hplainRest hparsed hparsedRest
        refine .parsed ?_ hall (hlast.trans hsame.symm) hlastStack
        intro line hmem
        rcases List.mem_append.1 hmem with hmem | hmem
        · exact hplain line hmem
        · exact hplainRest line hmem

end Lines

theorem opened_agree {loader flat : Loader} (h : Agree loader flat) (canonical : Text) (decodingWarning : Option Text) :
    Agree (opened loader canonical decodingWarning) flat := by
  cases decodingWarning with
  | none => exact ⟨h.1, h.2, h.3, h.4⟩
  | some message => exact ⟨h.1, h.2, h.3, h.4⟩

theorem opened_includeStack (loader : Loader) (canonical : Text) (decodingWarning : Option Text) :
    (opened loader canonical decodingWarning).includeStack = loader.includeStack ++ [canonical] := by
  cases decodingWarning with
  | none => rfl
  | some message => rfl

/-- **A load does what the flat parser does with the lines that the file becomes.** -/
theorem loadFile_simulated : ∀ (levels : Nat) (path : Text) (required : Bool) {loader flat : Loader},
    Agree loader flat →
    Simulates platform loader.includeStack flat (loadFile platform levels path required loader)
      (inlineFile platform levels loader.includeStack flat path required)
  | 0, _, _, _, _, _ => .failed tooDeep
  | levels + 1, path, required, loader, flat, hagree => by
    rw [loadFile_succ, loadFileWith, inlineFile, hagree.executableDirectory]
    dsimp only
    cases platform.canonicalize
      (if platform.isAbsolute path then path else platform.join flat.executableDirectory path) with
    | error source =>
      dsimp only
      split
      · exact .parsed (fun _ h => by cases h) rfl ⟨hagree.1, hagree.2, hagree.3, hagree.4⟩ rfl
      · exact .failed _
    | ok canonical =>
      dsimp only
      by_cases hcycle : canonical ∈ loader.includeStack
      · rw [if_pos (List.contains_iff_mem.2 hcycle), if_pos hcycle]
        exact .failed _
      · rw [if_neg (fun h => hcycle (List.contains_iff_mem.1 h)), if_neg hcycle]
        cases readFile platform canonical with
        | error source => exact .failed _
        | ok decoded =>
          obtain ⟨text, decodingWarning⟩ := decoded
          simp only [Except.toOption, Option.bind_eq_bind, Option.bind_some]
          have hstart := opened_agree hagree canonical decodingWarning
          have hlines := parseLines_simulated (loadFile platform levels)
            (inlineFile platform levels (loader.includeStack ++ [canonical])) (loader.includeStack ++ [canonical])
            (fun path required loader flat hagree hstack => by
              rw [← hstack]
              exact loadFile_simulated levels path required hagree)
            canonical (numberedLines text) hstart (opened_includeStack loader canonical decodingWarning)
          rw [map_numberedLines] at hlines
          change Simulates platform loader.includeStack flat
            ((numberedLines text).foldlM (parseLine platform (loadFile platform levels) canonical)
              (opened loader canonical decodingWarning) >>= fun loader => .ok loader.pop) _
          generalize (numberedLines text).foldlM (parseLine platform (loadFile platform levels) canonical)
            (opened loader canonical decodingWarning) = result at hlines
          generalize inlineLines platform (inlineFile platform levels (loader.includeStack ++ [canonical])) flat
            (logicalLines text) = lines at hlines
          cases hlines with
          | failed e => exact .failed e
          | parsed hplain hparsed hlast hlastStack =>
            refine .parsed hplain hparsed ⟨hlast.1, hlast.2, hlast.3, hlast.4⟩ ?_
            simp [pop, hlastStack]

/-! ## The calls that a load makes -/

structure Call where
  depth : Nat
  path : Text
  required : Bool
  loader : Loader

def Call.result (platform : Platform) (call : Call) : Except Error Loader :=
  loadFileAt platform call.depth call.path call.required call.loader

/-- The file that a call is made for. -/
def Call.Names (platform : Platform) (call : Call) (canonical : Text) : Prop :=
  platform.canonicalize
    (if platform.isAbsolute call.path then call.path else platform.join call.loader.executableDirectory call.path) =
      .ok canonical

/-- A call parses its file up to an include, and makes the other call for that. -/
inductive Includes (platform : Platform) : Call → Call → Prop
  | line {call : Call} {canonical : Text} {before after : List (Nat × Text)} {line : Nat × Text} {start point : Loader}
      {included : Text × Bool × Loader} : call.depth ≤ MAX_INCLUDE_DEPTH →
      Opened platform call.path call.loader canonical (before ++ line :: after) start →
      before.foldlM (parseLine platform (loadFileAt platform (call.depth + 1)) canonical) start = .ok point →
      includeOf platform canonical point line = some included →
      Includes platform call ⟨call.depth + 1, included.1, included.2.1, included.2.2⟩

/-- The calls that processing one call reaches. -/
def Reaches (platform : Platform) : Call → Call → Prop := Relation.ReflTransGen (Includes platform)

theorem loadFileWith_opened {load : Text → Bool → Loader → Except Error Loader} {path canonical : Text}
    {required : Bool} {loader start : Loader} {lines : List (Nat × Text)}
    (h : Opened platform path loader canonical lines start) :
    loadFileWith platform load path required loader = (do
      let loader ← lines.foldlM (parseLine platform load canonical) start
      return loader.pop) := by
  obtain ⟨bytes, text, decodingWarning, hread, hdecode, rfl, rfl⟩ := h.read
  have hfile : readFile platform canonical = .ok (text, decodingWarning) := by
    rw [readFile, hread]
    exact hdecode
  rw [loadFileWith, h.found]
  dsimp only
  rw [if_neg (by rw [h.fresh]; decide), hfile]
  rfl

/-- An error in what is included ends the whole. -/
theorem Includes.error {call call' : Call} (h : Includes platform call call') {e : Error}
    (he : call'.result platform = .error e) : call.result platform = .error e := by
  obtain ⟨hdepth, hopened, hbefore, hinclude⟩ := h
  unfold Call.result at he
  dsimp only at he
  rw [Call.result, loadFileAt_isLoadFile, if_neg (by omega), loadFileWith_opened hopened, List.foldlM_append, hbefore]
  change ((List.foldlM (parseLine platform _ _) _ (_ :: _)) >>= _) = _
  rw [List.foldlM_cons, parseLine_include hinclude, he]
  rfl

theorem Reaches.error {call call' : Call} (h : Reaches platform call call') {e : Error}
    (he : call'.result platform = .error e) : call.result platform = .error e := by
  induction h using Relation.ReflTransGen.head_induction_on with
  | refl => exact he
  | head hfirst _ ih => exact hfirst.error ih

/-- The flat sequence of a call, in the state in which it is made. -/
def Call.inlined (platform : Platform) (call : Call) : Option (List Text) :=
  inlineFile platform (MAX_INCLUDE_DEPTH + 1 - call.depth) call.loader.includeStack call.loader call.path call.required

/-- **`load_file` ends, and parses the one sequence of lines that the includes make up.**  It fails if it reaches a file
that is being read or a depth above the limit.  Otherwise a load that ends without an error leaves the stack as it was,
and the properties and the environment are those that the flat parser leaves. -/
theorem loadFile_parses_the_inlined_lines (platform : Platform) (call : Call) :
    (∀ load, IsLoadFile platform load ↔ load = loadFileAt platform) ∧
      (∀ call', Reaches platform call call' →
        (call'.depth > MAX_INCLUDE_DEPTH → call.result platform = .error tooDeep) ∧
          ∀ canonical, call'.depth ≤ MAX_INCLUDE_DEPTH → call'.Names platform canonical →
            canonical ∈ call'.loader.includeStack → call.result platform = .error (cycleAt canonical)) ∧
      ((call.result platform).isOk = (call.inlined platform).isSome) ∧
      ∀ loader, call.result platform = .ok loader → loader.includeStack = call.loader.includeStack ∧
        ∃ lines, call.inlined platform = some lines ∧ (∀ line ∈ lines, Plain platform line) ∧
          ∀ path, ∃ flat, parseLines platform path lines call.loader = .ok flat ∧
            flat.properties = loader.properties ∧ flat.environment = loader.environment := by
  have hsimulated : Simulates platform call.loader.includeStack call.loader (call.result platform)
      (call.inlined platform) :=
    loadFile_simulated _ call.path call.required (Agree.refl call.loader)
  refine ⟨fun load => isLoadFile_iff, fun call' hreaches => ⟨fun hdeep => ?_, ?_⟩, ?_, ?_⟩
  · apply hreaches.error
    rw [Call.result, loadFileAt_isLoadFile, if_pos hdeep]
  · intro canonical hdepth hnames hcycle
    apply hreaches.error
    have hnames : platform.canonicalize (if platform.isAbsolute call'.path then call'.path
      else platform.join call'.loader.executableDirectory call'.path) = .ok canonical := hnames
    rw [Call.result, loadFileAt_isLoadFile, if_neg (by omega), loadFileWith, hnames]
    dsimp only
    rw [if_pos (List.contains_iff_mem.2 hcycle)]
    rfl
  · generalize call.result platform = result at hsimulated
    generalize call.inlined platform = inlined at hsimulated
    cases hsimulated with
    | failed e => rfl
    | parsed => rfl
  · intro loader hresult
    rw [hresult] at hsimulated
    generalize call.inlined platform = inlined at hsimulated
    cases hsimulated with
    | parsed hplain hparsed hagree hstack =>
      refine ⟨hstack, _, rfl, hplain, fun path => ?_⟩
      -- the path of the flat file shows in warnings and errors only
      have hsame := foldlM_same (fun _ _ loader => .ok loader) (fun _ _ loader => .ok loader) [] path _ _ rfl
        (by rw [map_numbered _ 0]; exact hplain) (Agree.refl call.loader)
      unfold parseLines at hparsed ⊢
      rw [hparsed] at hsame
      generalize List.foldlM (parseLine platform (fun _ _ loader => .ok loader) path) call.loader _ = result at hsame
      cases hsame with
      | oks hflat _ =>
        exact ⟨_, rfl, hflat.properties.symm.trans hagree.properties.symm,
          hflat.environment.symm.trans hagree.environment.symm⟩

end Loader
end Jss
