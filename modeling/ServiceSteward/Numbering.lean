import ServiceSteward.BTreeMap
import ServiceSteward.Config
/-!
# Numbering — the two ways in which `numbered` reads a sequence

With gaps ignored the indexes are parsed from the names, and sorted; otherwise the names are made from the indexes until
one is missing.  The ways agree as long as every index is written as it is printed.
-/
namespace Jss

/-! ## Runs of consecutive numbers -/

namespace Run

variable {α : Type}

/-- The entries `start`, `start + 1`, ... with their values. -/
def from_ (value : Nat → α) (start k : Nat) : List (Nat × α) := (List.range' start k).map (fun i => (i, value i))

@[simp] theorem from_zero (value : Nat → α) (start : Nat) : from_ value start 0 = [] := rfl

theorem from_succ (value : Nat → α) (start k : Nat) :
    from_ value start (k + 1) = (start, value start) :: from_ value (start + 1) k := by
  simp [from_, List.range'_succ]

@[simp] theorem from_length (value : Nat → α) (start k : Nat) : (from_ value start k).length = k := by simp [from_]

@[simp] theorem from_indexes (value : Nat → α) (start k : Nat) :
    (from_ value start k).map Prod.fst = List.range' start k := by
  simp [from_, Function.comp_def]

theorem mem_from {value : Nat → α} {start k : Nat} {e : Nat × α} :
    e ∈ from_ value start k ↔ (start ≤ e.1 ∧ e.1 < start + k) ∧ e.2 = value e.1 := by
  unfold from_
  rw [List.mem_map]
  constructor
  · rintro ⟨i, hi, rfl⟩
    exact ⟨List.mem_range'_1.1 hi, rfl⟩
  · rintro ⟨hi, hvalue⟩
    exact ⟨e.1, List.mem_range'_1.2 hi, Prod.ext rfl hvalue.symm⟩

/-- The first entries of a list are numbered 1, 2, .... -/
def Initial (all run : List (Nat × α)) : Prop := run <+: all ∧ run.map Prod.fst = List.range' 1 run.length

def Longest (all run : List (Nat × α)) : Prop :=
  Initial all run ∧ ∀ other, Initial all other → other.length ≤ run.length

/-- A run whose entries all are in a strictly ascending list that starts nowhere below is its beginning. -/
theorem from_prefix (value : Nat → α) : ∀ (k start : Nat) {all : List (Nat × α)}, (all.map Prod.fst).Pairwise (· < ·) →
    (∀ e ∈ all, start ≤ e.1) → (∀ e ∈ from_ value start k, e ∈ all) → from_ value start k <+: all
  | 0, start, all, _, _, _ => List.nil_prefix
  | k + 1, start, all, hsorted, hbelow, hmem => by
    rw [from_succ] at hmem ⊢
    have hfirst : (start, value start) ∈ all := hmem _ List.mem_cons_self
    cases all with
    | nil => cases hfirst
    | cons e rest =>
      rw [List.map_cons, List.pairwise_cons] at hsorted
      have habove : ∀ e' ∈ rest, e.1 < e'.1 := fun e' he' => hsorted.1 _ (List.mem_map_of_mem he')
      have he : e = (start, value start) := by
        rcases List.mem_cons.1 hfirst with heq | hrest
        · exact heq.symm
        · have hlt := habove _ hrest
          have hge := hbelow e List.mem_cons_self
          omega
      subst he
      refine (List.cons_prefix_cons).2 ⟨rfl, from_prefix value k (start + 1) hsorted.2 habove ?_⟩
      intro e' he'
      rcases List.mem_cons.1 (hmem e' (List.mem_cons_of_mem _ he')) with rfl | hrest
      · have hstart := (mem_from.1 he').1.1
        omega
      · exact hrest

end Run

namespace Config

/-! ## The loop over 32-bit indexes -/

/-- The value of a numbered property. -/
def at_ (config : Config) (pre : Text) (index : Nat) : Option Text := config.get (pre ++ '.' :: Text.ofNat index)

/-- The index and the value of a property, if its name has the prefix and an index behind it. -/
def numberedEntry (pre : Text) (property : Text × Text) : Option (Nat × Text) :=
  if (pre ++ ['.']).isPrefixOf property.1 then
    ((Text.parseUnsigned Text.u32Max (property.1.drop (pre.length + 1))).filter (0 < ·)).map (·, property.2)
  else none

/-- What `numbered` returns with gaps ignored. -/
def ignoringGaps (config : Config) (pre : Text) : List (Nat × Text) :=
  (config.properties.filterMap (numberedEntry pre)).mergeSort (fun a b => a.1 ≤ b.1)

/-- The loop of `numbered` otherwise: its index is a `u32`, which wraps in a release build.  None if the loop has not
ended after some turns. -/
def numberedTurns (config : Config) (pre : Text) : Nat → Nat → Option (List (Nat × Text))
  | 0, _ => none
  | turns + 1, index =>
    match config.at_ pre index with
    | none => some []
    | some value => (config.numberedTurns pre turns ((index + 1) % 2 ^ 32)).map ((index, value) :: ·)

/-- `numbered` returns some values, where `wrapper.ignore_sequence_gaps` has some setting. -/
def Returns (config : Config) (pre : Text) (ignoreGaps : Bool) (values : List (Nat × Text)) : Prop :=
  if ignoreGaps then values = config.ignoringGaps pre else ∃ turns, config.numberedTurns pre turns 1 = some values

/-- What is expected of `numbered` in both settings. -/
structure Numbers (config : Config) (pre : Text) : Prop where
  returns : ∀ ignoreGaps, ∃ values, Returns config pre ignoreGaps values
  increasing : ∀ ignoreGaps values, Returns config pre ignoreGaps values → (values.map Prod.fst).Pairwise (· < ·)
  lookup : ∀ ignoreGaps values, Returns config pre ignoreGaps values →
    ∀ i v, (i, v) ∈ values → config.at_ pre i = some v
  complete : ∀ values, Returns config pre true values → ∀ i v, 0 < i → config.at_ pre i = some v → (i, v) ∈ values
  longest : ∀ all run, Returns config pre true all → Returns config pre false run → Run.Longest all run
  agree : (∀ i, 0 < i → (config.at_ pre (i + 1)).isSome → (config.at_ pre i).isSome) →
    ∀ all run, Returns config pre true all → Returns config pre false run → run = all

/-! ## When it holds -/

/-- Every index is written as it is printed: without leading zeros and without a sign. -/
def Canonical (config : Config) (pre : Text) : Prop :=
  ∀ suffix i, (config.get (pre ++ '.' :: suffix)).isSome → Text.parseUnsigned Text.u32Max suffix = some i → 0 < i →
    suffix = Text.ofNat i

/-- No index is beyond 32 bits. -/
def InIndexRange (config : Config) (pre : Text) : Prop := ∀ i, 2 ^ 32 ≤ i → config.at_ pre i = none

/-- Some index of 32 bits is missing. -/
def HasGap (config : Config) (pre : Text) : Prop := ∃ i, i < 2 ^ 32 ∧ config.at_ pre i = none

variable {config : Config} {pre : Text}

theorem get_eq_some_iff {name value : Text} : config.get name = some value ↔ (name, value) ∈ config.properties :=
  BTreeMap.get_eq_some_iff (m := ⟨config.properties, config.sorted⟩)

/-! ### With gaps ignored -/

theorem numberedEntry_eq_some {property : Text × Text} {i : Nat} {v : Text} :
    numberedEntry pre property = some (i, v) ↔
      ∃ suffix, property = (pre ++ '.' :: suffix, v) ∧ Text.parseUnsigned Text.u32Max suffix = some i ∧ 0 < i := by
  obtain ⟨name, value⟩ := property
  unfold numberedEntry
  constructor
  · intro h
    dsimp only at h
    split at h
    · rename_i hstarts
      obtain ⟨suffix, rfl⟩ := List.isPrefixOf_iff_prefix.1 hstarts
      have hdrop : (pre ++ ['.'] ++ suffix).drop (pre.length + 1) = suffix := by
        rw [List.drop_left' (by simp)]
      rw [hdrop] at h
      obtain ⟨index, hindex, heq⟩ := Option.map_eq_some_iff.1 h
      obtain ⟨hparse, hpos⟩ := Option.filter_eq_some_iff.1 hindex
      cases heq
      exact ⟨suffix, by simp, hparse, by simpa using hpos⟩
    · cases h
  · rintro ⟨suffix, heq, hparse, hpos⟩
    cases heq
    have hstarts : (pre ++ ['.']).isPrefixOf (pre ++ '.' :: suffix) = true :=
      List.isPrefixOf_iff_prefix.2 ⟨suffix, by simp⟩
    have hdrop : (pre ++ '.' :: suffix).drop (pre.length + 1) = suffix := by simp
    dsimp only
    rw [if_pos hstarts, hdrop, hparse]
    simp [hpos]

theorem mem_ignoringGaps {i : Nat} {v : Text} : (i, v) ∈ config.ignoringGaps pre ↔
    ∃ suffix, config.get (pre ++ '.' :: suffix) = some v ∧ Text.parseUnsigned Text.u32Max suffix = some i ∧ 0 < i := by
  unfold ignoringGaps
  rw [List.mem_mergeSort, List.mem_filterMap]
  constructor
  · rintro ⟨property, hmem, h⟩
    obtain ⟨suffix, rfl, hparse, hpos⟩ := numberedEntry_eq_some.1 h
    exact ⟨suffix, get_eq_some_iff.2 hmem, hparse, hpos⟩
  · rintro ⟨suffix, hget, hparse, hpos⟩
    exact ⟨_, get_eq_some_iff.1 hget, numberedEntry_eq_some.2 ⟨suffix, rfl, hparse, hpos⟩⟩

theorem index_range {i : Nat} {v : Text} (h : (i, v) ∈ config.ignoringGaps pre) : 0 < i ∧ i < 2 ^ 32 := by
  obtain ⟨suffix, -, hparse, hpos⟩ := mem_ignoringGaps.1 h
  have hmax : i ≤ Text.u32Max := by
    unfold Text.parseUnsigned at hparse
    have hfilter := (Option.filter_eq_some_iff.1 hparse).2
    simpa using hfilter
  have hvalue : Text.u32Max = 4294967295 := rfl
  omega

theorem mem_ignoringGaps_of_at {i : Nat} {v : Text} (hpos : 0 < i) (hrange : i < 2 ^ 32)
    (h : config.at_ pre i = some v) :
    (i, v) ∈ config.ignoringGaps pre := by
  have hmax : i ≤ Text.u32Max := by
    have hvalue : Text.u32Max = 4294967295 := rfl
    omega
  exact mem_ignoringGaps.2 ⟨Text.ofNat i, h, Text.parseUnsigned_ofNat hmax, hpos⟩

theorem at_of_mem (hcanonical : Canonical config pre) {i : Nat} {v : Text} (h : (i, v) ∈ config.ignoringGaps pre) :
    config.at_ pre i = some v := by
  obtain ⟨suffix, hget, hparse, hpos⟩ := mem_ignoringGaps.1 h
  have hsuffix := hcanonical suffix i (by rw [hget]; rfl) hparse hpos
  rw [at_, ← hsuffix]
  exact hget

/-- Two properties with one index would have one name. -/
theorem increasing_ignoringGaps (hcanonical : Canonical config pre) :
    ((config.ignoringGaps pre).map Prod.fst).Pairwise (· < ·) := by
  have hapart : (config.properties.filterMap (numberedEntry pre)).Pairwise (fun a b => a.1 ≠ b.1) := by
    rw [List.pairwise_filterMap]
    have hsorted := List.pairwise_map.1 config.sorted
    apply hsorted.imp_of_mem
    rintro property property' hmem hmem' hlt ⟨i, v⟩ h ⟨i', v'⟩ h' heq
    obtain ⟨suffix, rfl, hparse, hpos⟩ := numberedEntry_eq_some.1 h
    obtain ⟨suffix', rfl, hparse', hpos'⟩ := numberedEntry_eq_some.1 h'
    have hget := get_eq_some_iff.2 hmem
    have hget' := get_eq_some_iff.2 hmem'
    have hsuffix := hcanonical suffix i (by rw [hget]; rfl) hparse hpos
    have hsuffix' := hcanonical suffix' i' (by rw [hget']; rfl) hparse' hpos'
    have heq : i = i' := heq
    rw [hsuffix, hsuffix', heq] at hlt
    exact lt_irrefl _ hlt
  have hsorted : (config.ignoringGaps pre).Pairwise (fun a b => a.1 ≤ b.1) := by
    have hle : (config.ignoringGaps pre).Pairwise (fun a b => decide (a.1 ≤ b.1) = true) := by
      apply List.pairwise_mergeSort
      · intro a b c hab hbc
        simp only [decide_eq_true_eq] at *
        omega
      · intro a b
        simp only [Bool.or_eq_true, decide_eq_true_eq]
        omega
    apply hle.imp
    intro a b h
    simpa using h
  have hperm := List.mergeSort_perm (config.properties.filterMap (numberedEntry pre)) (fun a b => a.1 ≤ b.1)
  have hdistinct : (config.ignoringGaps pre).Pairwise (fun a b => a.1 ≠ b.1) :=
    hapart.perm hperm.symm (fun h => h.symm)
  rw [List.pairwise_map]
  exact hsorted.imp₂ (fun a b hle hne => by omega) hdistinct

/-- Two properties with one index are two entries with it. -/
theorem canonical_of_increasing (hincreasing : ((config.ignoringGaps pre).map Prod.fst).Pairwise (· < ·))
    (hlookup : ∀ i v, (i, v) ∈ config.ignoringGaps pre → config.at_ pre i = some v) : Canonical config pre := by
  intro suffix i hsome hparse hpos
  obtain ⟨v, hget⟩ := Option.isSome_iff_exists.1 hsome
  have hmem : (i, v) ∈ config.ignoringGaps pre := mem_ignoringGaps.2 ⟨suffix, hget, hparse, hpos⟩
  have hat : config.get (pre ++ '.' :: Text.ofNat i) = some v := hlookup i v hmem
  have hmax : i ≤ Text.u32Max := by
    have hrange := index_range hmem
    have hvalue : Text.u32Max = 4294967295 := rfl
    omega
  by_contra hne
  have hnodup : (config.ignoringGaps pre).Nodup := by
    apply List.Nodup.of_map Prod.fst
    exact hincreasing.imp (fun h => Nat.ne_of_lt h)
  have hperm := List.mergeSort_perm (config.properties.filterMap (numberedEntry pre)) (fun a b => a.1 ≤ b.1)
  have hapart : (config.properties.filterMap (numberedEntry pre)).Pairwise (· ≠ ·) := hperm.nodup_iff.1 hnodup
  rw [List.pairwise_filterMap] at hapart
  have : Std.Symm (fun property property' : Text × Text => ∀ e, numberedEntry pre property = some e →
      ∀ e', numberedEntry pre property' = some e' → e ≠ e') :=
    ⟨fun property property' h e he e' he' heq => h e' he' e he heq.symm⟩
  have hnames : (pre ++ '.' :: suffix, v) ≠ (pre ++ '.' :: Text.ofNat i, v) := by
    intro heq
    have hname := List.append_cancel_left (Prod.mk.inj heq).1
    exact hne (List.cons.inj hname).2
  exact hapart.forall (get_eq_some_iff.1 hget) (get_eq_some_iff.1 hat) hnames
    (i, v) (numberedEntry_eq_some.2 ⟨suffix, rfl, hparse, hpos⟩)
    (i, v) (numberedEntry_eq_some.2 ⟨Text.ofNat i, rfl, Text.parseUnsigned_ofNat hmax, hpos⟩) rfl

/-! ### Up to the first gap -/

/-- The value at an index that has one. -/
def valueAt (config : Config) (pre : Text) (i : Nat) : Text := (config.at_ pre i).getD []

theorem at_eq_valueAt {i : Nat} (h : config.at_ pre i ≠ none) : config.at_ pre i = some (config.valueAt pre i) := by
  obtain ⟨v, hv⟩ := Option.ne_none_iff_exists'.1 h
  rw [valueAt, hv]
  rfl

/-- The loop stops at the first index that is missing, before it wraps or right after. -/
theorem numberedTurns_run (config : Config) (pre : Text) : ∀ (k start turns : Nat), start + k ≤ 2 ^ 32 →
    (∀ i, start ≤ i → i < start + k → config.at_ pre i ≠ none) → config.at_ pre ((start + k) % 2 ^ 32) = none →
      k < turns → config.numberedTurns pre turns (start % 2 ^ 32) = some (Run.from_ (config.valueAt pre) start k)
  | 0, start, turns, _, _, hmissing, hturns => by
    obtain ⟨turns, rfl⟩ := Nat.exists_eq_succ_of_ne_zero (Nat.ne_zero_of_lt hturns)
    rw [Nat.add_zero] at hmissing
    rw [numberedTurns, hmissing]
    rfl
  | k + 1, start, turns, hrange, hpresent, hmissing, hturns => by
    obtain ⟨turns, rfl⟩ := Nat.exists_eq_succ_of_ne_zero (Nat.ne_zero_of_lt hturns)
    have hstart : start % 2 ^ 32 = start := Nat.mod_eq_of_lt (by omega)
    have hend : start + 1 + k = start + (k + 1) := by omega
    have hrest := numberedTurns_run config pre k (start + 1) turns (by omega)
      (fun i hi hi' => hpresent i (by omega) (by omega)) (by rw [hend]; exact hmissing) (by omega)
    rw [numberedTurns, hstart, at_eq_valueAt (hpresent start (Nat.le_refl _) (by omega))]
    dsimp only
    rw [hrest, Run.from_succ]
    rfl

/-- Without a gap the loop goes round and round. -/
theorem numberedTurns_forever (h : ¬ HasGap config pre) : ∀ (turns index : Nat), index < 2 ^ 32 →
    config.numberedTurns pre turns index = none
  | 0, _, _ => rfl
  | turns + 1, index, hindex => by
    have hpresent : config.at_ pre index ≠ none := fun hnone => h ⟨index, hindex, hnone⟩
    rw [numberedTurns, at_eq_valueAt hpresent]
    dsimp only
    rw [numberedTurns_forever h turns _ (Nat.mod_lt _ (by decide))]
    rfl

theorem numberedTurns_more : ∀ (turns turns' index : Nat) {values : List (Nat × Text)},
    config.numberedTurns pre turns index = some values → turns ≤ turns' →
      config.numberedTurns pre turns' index = some values
  | 0, _, _, _, h, _ => by cases h
  | turns + 1, 0, _, _, _, hle => by omega
  | turns + 1, turns' + 1, index, values, h, hle => by
    rw [numberedTurns] at h ⊢
    cases hat : config.at_ pre index with
    | none =>
      rw [hat] at h
      exact h
    | some value =>
      rw [hat] at h
      dsimp only at h ⊢
      obtain ⟨rest, hrest, hvalues⟩ := Option.map_eq_some_iff.1 h
      rw [numberedTurns_more turns turns' _ hrest (by omega), ← hvalues]
      rfl

/-- Where the first gap is: behind `k` indexes that all are there. -/
structure FirstGap (config : Config) (pre : Text) (k : Nat) : Prop where
  range : k < 2 ^ 32
  present : ∀ i, 0 < i → i ≤ k → config.at_ pre i ≠ none
  missing : config.at_ pre ((k + 1) % 2 ^ 32) = none

theorem exists_firstGap (h : HasGap config pre) : ∃ k, FirstGap config pre k := by
  have hgap : ∃ k, k < 2 ^ 32 ∧ config.at_ pre ((k + 1) % 2 ^ 32) = none := by
    obtain ⟨i, hi, hnone⟩ := h
    by_cases hzero : i = 0
    · refine ⟨2 ^ 32 - 1, by decide, ?_⟩
      rw [hzero] at hnone
      exact hnone
    · have hpred : (i - 1 + 1) % 2 ^ 32 = i := by
        rw [Nat.sub_add_cancel (by omega)]
        exact Nat.mod_eq_of_lt hi
      refine ⟨i - 1, by omega, ?_⟩
      rw [hpred]
      exact hnone
  obtain ⟨hrange, hmissing⟩ := Nat.find_spec hgap
  refine ⟨Nat.find hgap, hrange, fun i hpos hi hnone => ?_, hmissing⟩
  have hpred : (i - 1 + 1) % 2 ^ 32 = i := by
    rw [Nat.sub_add_cancel (by omega)]
    exact Nat.mod_eq_of_lt (by omega)
  exact Nat.find_min hgap (m := i - 1) (by omega) ⟨by omega, by rw [hpred]; exact hnone⟩

theorem returns_run {k : Nat} (h : FirstGap config pre k) (values : List (Nat × Text)) :
    Returns config pre false values ↔ values = Run.from_ (config.valueAt pre) 1 k := by
  have hrun := numberedTurns_run config pre k 1 (k + 1)
    (by have hrange := h.range; omega) (fun i hi hi' => h.present i (by omega) (by omega))
    (by rw [Nat.add_comm 1 k]; exact h.missing) (Nat.lt_succ_self k)
  have hone : 1 % 2 ^ 32 = 1 := by decide
  rw [hone] at hrun
  constructor
  · rintro ⟨turns, hturns⟩
    have hmore := numberedTurns_more turns (max turns (k + 1)) 1 hturns (Nat.le_max_left _ _)
    have hmore' := numberedTurns_more (k + 1) (max turns (k + 1)) 1 hrun (Nat.le_max_right _ _)
    rw [hmore] at hmore'
    exact Option.some.inj hmore'
  · rintro rfl
    exact ⟨k + 1, hrun⟩

theorem at_of_mem_run {k : Nat} (h : FirstGap config pre k) {i : Nat} {v : Text}
    (hmem : (i, v) ∈ Run.from_ (config.valueAt pre) 1 k) : 0 < i ∧ i < 2 ^ 32 ∧ config.at_ pre i = some v := by
  obtain ⟨⟨hpos, hle⟩, hvalue⟩ := Run.mem_from.1 hmem
  have hrange := h.range
  have hpos : 0 < i := hpos
  have hle : i < 1 + k := hle
  have hvalue : v = config.valueAt pre i := hvalue
  refine ⟨hpos, by omega, ?_⟩
  rw [hvalue]
  exact at_eq_valueAt (h.present i hpos (by omega))

/-- What is found up to the first gap is the longest run that the sorted list starts with. -/
theorem run_longest (hcanonical : Canonical config pre) {k : Nat} (h : FirstGap config pre k) :
    Run.Longest (config.ignoringGaps pre) (Run.from_ (config.valueAt pre) 1 k) := by
  have hinitial : Run.from_ (config.valueAt pre) 1 k <+: config.ignoringGaps pre := by
    apply Run.from_prefix _ k 1 (increasing_ignoringGaps hcanonical)
    · rintro ⟨i, v⟩ hmem
      exact (index_range hmem).1
    · rintro ⟨i, v⟩ hmem
      obtain ⟨hpos, hrange, hat⟩ := at_of_mem_run h hmem
      exact mem_ignoringGaps_of_at hpos hrange hat
  refine ⟨⟨hinitial, by rw [Run.from_indexes, Run.from_length]⟩, ?_⟩
  rintro other ⟨hother, hindexes⟩
  rw [Run.from_length]
  by_contra hlonger
  -- the longer run has an entry for the index that is missing
  have hnext : k + 1 ∈ other.map Prod.fst := by
    rw [hindexes]
    exact List.mem_range'_1.2 ⟨by omega, by omega⟩
  obtain ⟨⟨i, v⟩, hmem, heq⟩ := List.mem_map.1 hnext
  have heq : i = k + 1 := heq
  subst heq
  have hall : (k + 1, v) ∈ config.ignoringGaps pre := hother.subset hmem
  have hmod : (k + 1) % 2 ^ 32 = k + 1 := Nat.mod_eq_of_lt (index_range hall).2
  have hat := at_of_mem hcanonical hall
  have hmissing := h.missing
  rw [hmod, hat] at hmissing
  cases hmissing

/-- If each index follows the one before it, there is nothing behind the first gap. -/
theorem run_eq_all (hcanonical : Canonical config pre) {k : Nat} (h : FirstGap config pre k)
    (hfree : ∀ i, 0 < i → (config.at_ pre (i + 1)).isSome → (config.at_ pre i).isSome) :
    Run.from_ (config.valueAt pre) 1 k = config.ignoringGaps pre := by
  have hdown : ∀ n i, 0 < i → (config.at_ pre (i + n)).isSome → (config.at_ pre i).isSome := by
    intro n
    induction n with
    | zero => exact fun i _ hi => hi
    | succ n ih => exact fun i hpos hi => ih i hpos (hfree (i + n) (by omega) hi)
  have hsubset : config.ignoringGaps pre ⊆ Run.from_ (config.valueAt pre) 1 k := by
    rintro ⟨i, v⟩ hmem
    have hat := at_of_mem hcanonical hmem
    obtain ⟨hpos, hrange⟩ := index_range hmem
    have hle : i ≤ k := by
      by_contra hbeyond
      have hmod : (k + 1) % 2 ^ 32 = k + 1 := Nat.mod_eq_of_lt (by omega)
      have hsome := hdown (i - (k + 1)) (k + 1) (by omega)
        (by rw [Nat.add_sub_of_le (by omega), hat]; rfl)
      have hmissing := h.missing
      rw [hmod] at hmissing
      rw [hmissing] at hsome
      cases hsome
    refine Run.mem_from.2 ⟨⟨hpos, by dsimp only; omega⟩, ?_⟩
    dsimp only
    rw [valueAt, hat]
    rfl
  have hnodup : (config.ignoringGaps pre).Nodup := by
    apply List.Nodup.of_map Prod.fst
    exact (increasing_ignoringGaps hcanonical).imp (fun h => Nat.ne_of_lt h)
  have hinitial := (run_longest hcanonical h).1.1
  exact hinitial.eq_of_length_le (hnodup.subperm hsubset).length_le

/-! ## The two ways -/

theorem numbers_of_condition (hcanonical : Canonical config pre) (hrange : InIndexRange config pre)
    (hgap : HasGap config pre) : Numbers config pre := by
  obtain ⟨k, hk⟩ := exists_firstGap hgap
  have hcases : ∀ ignoreGaps values, Returns config pre ignoreGaps values →
      values = config.ignoringGaps pre ∨ values = Run.from_ (config.valueAt pre) 1 k := by
    intro ignoreGaps values h
    cases ignoreGaps with
    | true => exact .inl h
    | false => exact .inr ((returns_run hk values).1 h)
  constructor
  · intro ignoreGaps
    cases ignoreGaps with
    | true => exact ⟨_, rfl⟩
    | false => exact ⟨_, (returns_run hk _).2 rfl⟩
  · intro ignoreGaps values h
    rcases hcases ignoreGaps values h with rfl | rfl
    · exact increasing_ignoringGaps hcanonical
    · rw [Run.from_indexes]
      exact List.pairwise_lt_range'
  · intro ignoreGaps values h i v hmem
    rcases hcases ignoreGaps values h with rfl | rfl
    · exact at_of_mem hcanonical hmem
    · exact (at_of_mem_run hk hmem).2.2
  · rintro values rfl i v hpos hat
    have hlt : i < 2 ^ 32 := by
      by_contra hbeyond
      rw [hrange i (by omega)] at hat
      cases hat
    exact mem_ignoringGaps_of_at hpos hlt hat
  · rintro all run rfl hrun
    rw [(returns_run hk run).1 hrun]
    exact run_longest hcanonical hk
  · rintro hfree all run rfl hrun
    rw [(returns_run hk run).1 hrun]
    exact run_eq_all hcanonical hk hfree

theorem canonical_of_numbers (h : Numbers config pre) : Canonical config pre :=
  canonical_of_increasing (h.increasing true _ rfl) (h.lookup true _ rfl)

/-- **`numbered` does in both settings what is expected of it exactly if each index is written as it is printed, none is
beyond 32 bits, and one of 32 bits is missing.** -/
theorem numbers_iff (config : Config) (pre : Text) :
    Numbers config pre ↔ Canonical config pre ∧ InIndexRange config pre ∧ HasGap config pre := by
  constructor
  · intro h
    refine ⟨canonical_of_numbers h, fun i hi => ?_, ?_⟩
    · by_contra hsome
      have hmem := h.complete _ rfl i _ (by omega) (at_eq_valueAt hsome)
      have hlt := (index_range hmem).2
      omega
    · by_contra hnone
      obtain ⟨values, turns, hturns⟩ := h.returns false
      rw [numberedTurns_forever hnone turns 1 (by decide)] at hturns
      cases hturns
  · rintro ⟨hcanonical, hrange, hgap⟩
    exact numbers_of_condition hcanonical hrange hgap

/-- Two names for the index 1: the second value is never found at it. -/
theorem zeros_double_an_index :
    ¬ Numbers { properties := [("wrapper.java.additional.01", "-Da"), ("wrapper.java.additional.1", "-Db")] }
      "wrapper.java.additional" := by
  intro h
  have hsuffix := canonical_of_numbers h "01" 1 (by decide) (by decide) (by decide)
  exact absurd hsuffix (by decide)

/-! ## The unbounded loop -/

theorem numberedFrom_run (config : Config) (pre : Text) : ∀ (k start fuel : Nat),
    (∀ i, start ≤ i → i < start + k → config.at_ pre i ≠ none) → config.at_ pre (start + k) = none → k < fuel →
      config.numberedFrom pre fuel start = Run.from_ (config.valueAt pre) start k
  | 0, start, fuel, _, hmissing, hfuel => by
    obtain ⟨fuel, rfl⟩ := Nat.exists_eq_succ_of_ne_zero (Nat.ne_zero_of_lt hfuel)
    have hmissing : config.get (pre ++ '.' :: Text.ofNat start) = none := hmissing
    rw [numberedFrom, hmissing]
    rfl
  | k + 1, start, fuel, hpresent, hmissing, hfuel => by
    obtain ⟨fuel, rfl⟩ := Nat.exists_eq_succ_of_ne_zero (Nat.ne_zero_of_lt hfuel)
    have hend : start + 1 + k = start + (k + 1) := by omega
    have hrest := numberedFrom_run config pre k (start + 1) fuel (fun i hi hi' => hpresent i (by omega) (by omega))
      (by rw [hend]; exact hmissing) (by omega)
    have hstart : config.get (pre ++ '.' :: Text.ofNat start) = some (config.valueAt pre start) :=
      at_eq_valueAt (hpresent start (Nat.le_refl _) (by omega))
    rw [numberedFrom, hstart]
    dsimp only
    rw [hrest, Run.from_succ]

/-- There are no more indexes than properties. -/
theorem firstGap_le {k : Nat} (h : FirstGap config pre k) : k ≤ config.properties.length := by
  have hnames : ((List.range' 1 k).map (fun i => pre ++ '.' :: Text.ofNat i)).Nodup := by
    apply List.Nodup.map _ List.nodup_range'
    intro i j heq
    exact Text.ofNat_injective (List.cons.inj (List.append_cancel_left heq)).2
  have hsubset : (List.range' 1 k).map (fun i => pre ++ '.' :: Text.ofNat i) ⊆ config.properties.map Prod.fst := by
    intro name hname
    obtain ⟨i, hi, rfl⟩ := List.mem_map.1 hname
    obtain ⟨hpos, hle⟩ := List.mem_range'_1.1 hi
    have hat := at_eq_valueAt (h.present i (by omega) (by omega))
    exact List.mem_map_of_mem (f := Prod.fst) (get_eq_some_iff.1 hat)
  have hlength := (hnames.subperm hsubset).length_le
  simpa using hlength

/-- **The loop over unbounded indexes is the one that wraps**, as long as no index is beyond 32 bits and one is
missing. -/
theorem returns_numbered (hrange : InIndexRange config pre) (hgap : HasGap config pre) :
    Returns config pre (config.getBool "wrapper.ignore_sequence_gaps" false) (config.numbered pre) := by
  unfold numbered
  cases config.getBool "wrapper.ignore_sequence_gaps" false with
  | true => rfl
  | false =>
    obtain ⟨k, hk⟩ := exists_firstGap hgap
    have hmissing : config.at_ pre (1 + k) = none := by
      have hlt := hk.range
      by_cases hlast : k + 1 = 2 ^ 32
      · exact hrange _ (by omega)
      · have hmod : (k + 1) % 2 ^ 32 = 1 + k := by rw [Nat.mod_eq_of_lt (by omega), Nat.add_comm]
        rw [← hmod]
        exact hk.missing
    have hrun := numberedFrom_run config pre k 1 (config.properties.length + 1)
      (fun i hi hi' => hk.present i (by omega) (by omega)) hmissing (by have hle := firstGap_le hk; omega)
    rw [if_neg (by decide), hrun]
    exact (returns_run hk _).2 rfl

end Config
end Jss
