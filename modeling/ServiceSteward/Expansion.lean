import ServiceSteward.ConfigText
import ServiceSteward.Environment
import ServiceSteward.Slices
/-!
# Expansion — what `expand_environment` makes of every value

A value is a template: literals and references that alternate, with a last percent sign that may be left without a
partner.  Each value is the text of exactly one template, and the loop replaces its references one by one.
-/
namespace Jss
namespace ConfigFile

/-! ## The loop over byte offsets -/

/-- `expand_environment` with the slices it takes.  It has no value if a slice is off a character boundary, or if the
loop takes more turns than it is given. -/
def expandSlices (platform : Platform) (environment : BTreeMap Text Text) : Nat → Text → Text → Option Text
  | 0, _, _ => none
  | fuel + 1, output, remaining =>
    match Slice.find '%' remaining with
    | none => some (output ++ remaining)
    | some start => do
      let before ← Slice.upTo remaining start
      let afterStart ← Slice.from_ remaining (start + 1)
      match Slice.find '%' afterStart with
      | none =>
        let unpaired ← Slice.from_ remaining start
        return output ++ before ++ unpaired
      | some stop =>
        let name ← Slice.upTo afterStart stop
        let expansion := (environment.get (platform.toUppercase name)).getD ('%' :: name ++ ['%'])
        let remaining ← Slice.from_ afterStart (stop + 1)
        expandSlices platform environment fuel (output ++ before ++ expansion) remaining

/-! ## Templates -/

/-- A text without percent signs. -/
abbrev PlainText := { t : Text // '%' ∉ t }

inductive Template where
  | literal (text : PlainText)
  /-- The last percent sign has no partner. -/
  | unpaired (before tail : PlainText)
  | reference (before name : PlainText) (rest : Template)

namespace Template

def text : Template → Text
  | literal t => t
  | unpaired before tail => before ++ '%' :: tail
  | reference before name rest => before ++ '%' :: (name ++ '%' :: rest.text)

def names : Template → List Text
  | literal _ => []
  | unpaired _ _ => []
  | reference _ name rest => name :: rest.names

/-- Each reference replaced by the variable it names, if that is defined. -/
def expanded (platform : Platform) (environment : BTreeMap Text Text) : Template → Text
  | literal t => t
  | unpaired before tail => before ++ '%' :: tail
  | reference before name rest =>
    before ++ (environment.get (platform.toUppercase name)).getD ('%' :: name ++ ['%']) ++
      rest.expanded platform environment

/-! ### Every text has one template -/

/-- What the first percent sign splits the text into. -/
def parts : Template → Option (Text × Text)
  | literal _ => none
  | unpaired before tail => some (before, tail)
  | reference before name rest => some (before, name ++ '%' :: rest.text)

theorem splitOnce_text (template : Template) : Text.splitOnce '%' template.text = template.parts := by
  cases template with
  | literal t => exact Text.splitOnce_none t.2
  | unpaired before tail => exact Text.splitOnce_append _ before.2
  | reference before name rest => exact Text.splitOnce_append _ before.2

theorem parts_eq {template other : Template} (h : template.text = other.text) : template.parts = other.parts := by
  rw [← splitOnce_text, ← splitOnce_text, h]

/-- A tail without percent signs is not what a reference leaves. -/
theorem tail_ne (tail name : PlainText) (rest : Template) : tail.1 ≠ name.1 ++ '%' :: rest.text := by
  intro heq
  have hmem : '%' ∈ tail.1 := by
    rw [heq]
    simp
  exact tail.2 hmem

/-- The parts around the first percent sign tell the templates apart. -/
theorem text_injective {template other : Template} (h : template.text = other.text) : template = other := by
  induction template generalizing other with
  | literal t =>
    have hparts := parts_eq h
    cases other with
    | literal u => exact congrArg literal (Subtype.ext h)
    | unpaired before tail => cases hparts
    | reference before name rest => cases hparts
  | unpaired before tail =>
    have hparts := parts_eq h
    cases other with
    | literal t => cases hparts
    | unpaired before' tail' =>
      obtain ⟨hbefore, htail⟩ := Prod.mk.inj (Option.some.inj hparts)
      rw [Subtype.ext hbefore, Subtype.ext htail]
    | reference before' name rest =>
      obtain ⟨-, htail⟩ := Prod.mk.inj (Option.some.inj hparts)
      exact absurd htail (tail_ne tail name rest)
  | reference before name rest ih =>
    have hparts := parts_eq h
    cases other with
    | literal t => cases hparts
    | unpaired before' tail =>
      obtain ⟨-, htail⟩ := Prod.mk.inj (Option.some.inj hparts)
      exact absurd htail.symm (tail_ne tail name rest)
    | reference before' name' rest' =>
      obtain ⟨hbefore, hbehind⟩ := Prod.mk.inj (Option.some.inj hparts)
      have hsplit := Text.splitOnce_append rest.text name.2
      rw [hbehind, Text.splitOnce_append _ name'.2] at hsplit
      obtain ⟨hname, hrest⟩ := Prod.mk.inj (Option.some.inj hsplit)
      rw [Subtype.ext hbefore, Subtype.ext hname.symm, ih hrest.symm]

theorem exists_text (value : Text) : ∃ template : Template, template.text = value := by
  induction hlength : value.length using Nat.strong_induction_on generalizing value with
  | _ length ih =>
    by_cases hpercent : '%' ∈ value
    · cases hfirst : Text.splitOnce '%' value with
      | none => simp [Text.splitOnce, hpercent] at hfirst
      | some parts =>
        obtain ⟨before, afterStart⟩ := parts
        obtain ⟨hvalue, hbefore⟩ := Text.splitOnce_some hfirst
        by_cases hpaired : '%' ∈ afterStart
        · cases hsecond : Text.splitOnce '%' afterStart with
          | none => simp [Text.splitOnce, hpaired] at hsecond
          | some parts =>
            obtain ⟨name, rest⟩ := parts
            obtain ⟨hafter, hname⟩ := Text.splitOnce_some hsecond
            have hshorter : rest.length < length := by
              rw [← hlength, hvalue, hafter]
              simp
              omega
            obtain ⟨template, hrest⟩ := ih rest.length hshorter rest rfl
            refine ⟨reference ⟨before, hbefore⟩ ⟨name, hname⟩ template, ?_⟩
            rw [hvalue, hafter, ← hrest]
            rfl
        · exact ⟨unpaired ⟨before, hbefore⟩ ⟨afterStart, hpaired⟩, hvalue.symm⟩
    · exact ⟨literal ⟨value, hpercent⟩, rfl⟩

/-- **Every value is taken apart in exactly one way.** -/
theorem text_bijective : Function.Bijective text := ⟨fun _ _ => text_injective, exists_text⟩

/-! ### What the loop does with it -/

variable {platform : Platform} (environment : BTreeMap Text Text)

theorem expandEnvironment_unpaired {before tail : Text} (hbefore : '%' ∉ before) (htail : '%' ∉ tail) :
    expandEnvironment platform (before ++ '%' :: tail) environment = before ++ '%' :: tail := by
  have hlength : (before ++ '%' :: tail).length = (before.length + tail.length) + 1 := by
    simp
    omega
  unfold expandEnvironment
  rw [hlength, expandFrom, Text.splitOnce_append _ hbefore]
  dsimp only
  rw [Text.splitOnce_none htail]

theorem expandEnvironment_text (template : Template) :
    expandEnvironment platform template.text environment = template.expanded platform environment := by
  induction template with
  | literal t => exact expandEnvironment_noPercent platform t.2 environment
  | unpaired before tail => exact expandEnvironment_unpaired environment before.2 tail.2
  | reference before name rest ih =>
    rw [text, expanded, ← ih]
    exact Loader.expandEnvironment_pair environment rest.text before.2 name.2

theorem expanded_of_undefined {template : Template}
    (h : ∀ name ∈ template.names, environment.get (platform.toUppercase name) = none) :
    template.expanded platform environment = template.text := by
  induction template with
  | literal t => rfl
  | unpaired before tail => rfl
  | reference before name rest ih =>
    have hname : environment.get (platform.toUppercase name.1) = none := h name.1 List.mem_cons_self
    have hrest := ih (fun name hmem => h name (List.mem_cons_of_mem _ hmem))
    rw [expanded, hname, hrest, Option.getD_none, text]
    simp

/-- Each cut is behind a literal, a name or a percent sign, which is one byte. -/
theorem expandSlices_text (template : Template) (fuel : Nat) (hfuel : template.names.length < fuel) (output : Text) :
    expandSlices platform environment fuel output template.text =
      some (output ++ template.expanded platform environment) := by
  have hsign : (String.utf8EncodeChar '%').length = 1 := by decide
  induction template generalizing fuel output with
  | literal t =>
    obtain ⟨fuel, rfl⟩ := Nat.exists_eq_succ_of_ne_zero (Nat.ne_zero_of_lt hfuel)
    rw [text, expandSlices, Slice.find_none t.2]
    rfl
  | unpaired before tail =>
    obtain ⟨fuel, rfl⟩ := Nat.exists_eq_succ_of_ne_zero (Nat.ne_zero_of_lt hfuel)
    rw [text, expandSlices, Slice.find_append _ before.2]
    dsimp only
    rw [Slice.upTo_append, Slice.from_behind hsign, Slice.from_append]
    simp [Slice.find_none tail.2, expanded]
  | reference before name rest ih =>
    obtain ⟨fuel, rfl⟩ := Nat.exists_eq_succ_of_ne_zero (Nat.ne_zero_of_lt hfuel)
    have hrest : rest.names.length < fuel := Nat.lt_of_succ_lt_succ hfuel
    have hnext := ih fuel hrest
    rw [text, expandSlices, Slice.find_append _ before.2]
    dsimp only
    rw [Slice.upTo_append, Slice.from_behind hsign]
    simp only [Option.bind_eq_bind, Option.bind_some]
    rw [Slice.find_append _ name.2]
    dsimp only
    rw [Slice.upTo_append, Slice.from_behind hsign]
    simp only [Option.bind_some]
    rw [hnext, expanded]
    simp

theorem length_names_le (template : Template) : template.names.length ≤ template.text.length := by
  induction template with
  | literal t => exact Nat.zero_le _
  | unpaired before tail => exact Nat.zero_le _
  | reference before name rest ih =>
    simp only [names, text, List.length_cons, List.length_append]
    omega

end Template

/-- **Every value is expanded reference by reference**: it is the text of one template, whose references are replaced
where they name a variable and stay where they do not, and no slice is off a character boundary. -/
theorem expandEnvironment_exact (platform : Platform) (environment : BTreeMap Text Text) :
    Function.Bijective Template.text ∧
      (∀ template : Template,
        expandEnvironment platform template.text environment = template.expanded platform environment ∧
          ((∀ name ∈ template.names, environment.get (platform.toUppercase name) = none) →
            expandEnvironment platform template.text environment = template.text)) ∧
      ∀ value, expandSlices platform environment (value.length + 1) [] value =
        some (expandEnvironment platform value environment) := by
  refine ⟨Template.text_bijective, fun template => ⟨Template.expandEnvironment_text environment template, ?_⟩, ?_⟩
  · intro hundefined
    rw [Template.expandEnvironment_text, Template.expanded_of_undefined environment hundefined]
  · intro value
    obtain ⟨template, rfl⟩ := Template.exists_text value
    have hfuel : template.names.length < template.text.length + 1 := Nat.lt_succ_of_le template.length_names_le
    rw [Template.expandSlices_text environment template _ hfuel, Template.expandEnvironment_text]
    rfl

end ConfigFile
end Jss
