import ServiceSteward.Cli
/-!
# CommandFragment — the arguments of a configured command line fragment

`parse_legacy_windows_fragment` reads back what the quoting rule of a Windows command line writes (`renderArguments`),
but for the arguments that are nothing but backslashes: a run of backslashes alone does not count as a token.
-/
namespace Jss
namespace Jvm

/-- The inner loop of `parse_legacy_windows_fragment`: the argument and whether a token was seen, and what is left.
A turn reads one character or one run of backslashes. -/
@[simp] def parseToken : Nat → Text → Bool → Bool → Text → (Text × Bool) × Text
  | 0, argument, _, sawToken, characters => ((argument, sawToken), characters)
  | _ + 1, argument, _, sawToken, [] => ((argument, sawToken), [])
  | fuel + 1, argument, quoted, sawToken, c :: rest =>
    if !quoted && Text.isWhitespace c then ((argument, sawToken), c :: rest)
    else if c = '\\' then
      let slashCount := ((c :: rest).takeWhile (· == '\\')).length
      match (c :: rest).dropWhile (· == '\\') with
      | '"' :: behind =>
        if slashCount % 2 = 0 then
          parseToken fuel (argument ++ List.replicate (slashCount / 2) '\\') (!quoted) true behind
        else parseToken fuel (argument ++ List.replicate (slashCount / 2) '\\' ++ ['"']) quoted true behind
      | behind => parseToken fuel (argument ++ List.replicate slashCount '\\') quoted sawToken behind
    else if c = '"' then parseToken fuel argument (!quoted) true rest
    else parseToken fuel (argument ++ [c]) quoted true rest

/-- The outer loop. -/
def parseFragment : Nat → Text → List OsString
  | 0, _ => []
  | fuel + 1, characters =>
    match characters.dropWhile Text.isWhitespace with
    | [] => []
    | token =>
      let ((argument, sawToken), behind) := parseToken token.length [] false false token
      (if sawToken then [.ofText argument] else []) ++ parseFragment fuel behind

def parseLegacyWindowsFragment (fragment : Text) : List OsString := parseFragment (fragment.length + 1) fragment

/-! ## The loops end -/

/-- With as many turns as there are characters, or more, the inner loop ends with this. -/
def Reads (argument : Text) (quoted sawToken : Bool) (characters : Text) (result : (Text × Bool) × Text) : Prop :=
  ∀ fuel, characters.length ≤ fuel → parseToken fuel argument quoted sawToken characters = result

section Reads

variable {argument : Text} {quoted sawToken : Bool} {c : Char} {rest : Text} {result : (Text × Bool) × Text}

theorem reads_nil (argument : Text) (quoted sawToken : Bool) : Reads argument quoted sawToken [] ((argument, sawToken), []) := by
  intro fuel _
  cases fuel with
  | zero => rfl
  | succ fuel => rfl

theorem reads_blank (argument : Text) (sawToken : Bool) (rest : Text) (hc : Text.isWhitespace c = true) :
    Reads argument false sawToken (c :: rest) ((argument, sawToken), c :: rest) := by
  intro fuel hfuel
  cases fuel with
  | zero => cases hfuel
  | succ fuel =>
    rw [parseToken, if_pos (by simp [hc])]

theorem reads_plain (hquoted : quoted = true ∨ Text.isWhitespace c = false) (hslash : c ≠ '\\') (hquote : c ≠ '"')
    (h : Reads (argument ++ [c]) quoted true rest result) : Reads argument quoted sawToken (c :: rest) result := by
  intro fuel hfuel
  have hgoes : ¬ (!quoted && Text.isWhitespace c) = true := by
    rcases hquoted with hq | hw
    · simp [hq]
    · simp [hw]
  cases fuel with
  | zero => cases hfuel
  | succ fuel =>
    rw [parseToken, if_neg hgoes, if_neg hslash, if_neg hquote]
    exact h fuel (Nat.le_of_succ_le_succ hfuel)

theorem reads_quote (h : Reads argument (!quoted) true rest result) : Reads argument quoted sawToken ('"' :: rest) result := by
  intro fuel hfuel
  have hgoes : ¬ (!quoted && Text.isWhitespace '"') = true := by
    cases quoted with
    | true => simp
    | false => decide
  cases fuel with
  | zero => cases hfuel
  | succ fuel =>
    rw [parseToken, if_neg hgoes, if_neg (by decide), if_pos rfl]
    exact h fuel (Nat.le_of_succ_le_succ hfuel)

theorem slash_goes_on (quoted : Bool) : ¬ (!quoted && Text.isWhitespace '\\') = true := by
  cases quoted with
  | true => simp
  | false => decide

theorem run_of_slashes (n : Nat) (behind : Text) (h : behind.head? ≠ some '\\') :
    (List.replicate n '\\' ++ behind).takeWhile (· == '\\') = List.replicate n '\\' ∧
      (List.replicate n '\\' ++ behind).dropWhile (· == '\\') = behind := by
  have hall : ∀ d ∈ List.replicate n '\\', (d == '\\') = true := by
    intro d hd
    rw [List.eq_of_mem_replicate hd]
    rfl
  rw [List.takeWhile_append_of_pos hall, List.dropWhile_append_of_pos hall]
  cases behind with
  | nil => simp
  | cons d behind =>
    have hd : d ≠ '\\' := fun heq => h (by rw [heq]; rfl)
    simp [hd]

/-- What a turn does at a run of backslashes before a quote. -/
theorem parseToken_run_quote (fuel n : Nat) (argument : Text) (quoted sawToken : Bool) (rest : Text) :
    parseToken (fuel + 1) argument quoted sawToken (List.replicate (n + 1) '\\' ++ '"' :: rest) =
      if (n + 1) % 2 = 0 then parseToken fuel (argument ++ List.replicate ((n + 1) / 2) '\\') (!quoted) true rest
      else parseToken fuel (argument ++ List.replicate ((n + 1) / 2) '\\' ++ ['"']) quoted true rest := by
  obtain ⟨htake, hdrop⟩ := run_of_slashes (n + 1) ('"' :: rest) (by simp)
  rw [List.replicate_succ, List.cons_append] at htake hdrop ⊢
  rw [parseToken, if_neg (slash_goes_on quoted), if_pos rfl, htake, hdrop]
  dsimp only
  rw [List.length_cons, List.length_replicate]
  rfl

/-- What a turn does at any other run of backslashes. -/
theorem parseToken_run (fuel n : Nat) (argument : Text) (quoted sawToken : Bool) {behind : Text}
    (hslash : behind.head? ≠ some '\\') (hquote : behind.head? ≠ some '"') :
    parseToken (fuel + 1) argument quoted sawToken (List.replicate (n + 1) '\\' ++ behind) =
      parseToken fuel (argument ++ List.replicate (n + 1) '\\') quoted sawToken behind := by
  obtain ⟨htake, hdrop⟩ := run_of_slashes (n + 1) behind hslash
  rw [List.replicate_succ, List.cons_append] at htake hdrop ⊢
  rw [parseToken, if_neg (slash_goes_on quoted), if_pos rfl, htake, hdrop]
  dsimp only
  rw [List.length_cons, List.length_replicate, ← List.replicate_succ]
  split
  · exact absurd rfl hquote
  · rfl

/-- An even run before a quote stands for half as many backslashes, and the quote for itself. -/
theorem reads_even_run (n : Nat) (h : Reads (argument ++ List.replicate (n + 1) '\\') (!quoted) true rest result) :
    Reads argument quoted sawToken (List.replicate (2 * (n + 1)) '\\' ++ '"' :: rest) result := by
  intro fuel hfuel
  rw [List.length_append, List.length_replicate, List.length_cons] at hfuel
  cases fuel with
  | zero => omega
  | succ fuel =>
    have hrun := parseToken_run_quote fuel (2 * n + 1) argument quoted sawToken rest
    have hhalf : (2 * n + 1 + 1) / 2 = n + 1 := by omega
    rw [if_pos (by omega), hhalf] at hrun
    rw [show 2 * (n + 1) = 2 * n + 1 + 1 by omega, hrun]
    exact h fuel (by omega)

/-- An odd run before a quote stands for half as many backslashes and the quote. -/
theorem reads_odd_run (n : Nat) (h : Reads (argument ++ List.replicate n '\\' ++ ['"']) quoted true rest result) :
    Reads argument quoted sawToken (List.replicate (2 * n + 1) '\\' ++ '"' :: rest) result := by
  intro fuel hfuel
  rw [List.length_append, List.length_replicate, List.length_cons] at hfuel
  cases fuel with
  | zero => omega
  | succ fuel =>
    have hrun := parseToken_run_quote fuel (2 * n) argument quoted sawToken rest
    have hhalf : (2 * n + 1) / 2 = n := by omega
    rw [if_neg (by omega), hhalf] at hrun
    rw [hrun]
    exact h fuel (by omega)

/-- Any other run stands for itself. -/
theorem reads_run (n : Nat) {behind : Text} (hslash : behind.head? ≠ some '\\') (hquote : behind.head? ≠ some '"')
    (h : Reads (argument ++ List.replicate (n + 1) '\\') quoted sawToken behind result) :
    Reads argument quoted sawToken (List.replicate (n + 1) '\\' ++ behind) result := by
  intro fuel hfuel
  rw [List.length_append, List.length_replicate] at hfuel
  cases fuel with
  | zero => omega
  | succ fuel =>
    rw [parseToken_run fuel n argument quoted sawToken hslash hquote]
    exact h fuel (by omega)

end Reads

theorem split_run (t : Text) :
    t = List.replicate (t.takeWhile (· == '\\')).length '\\' ++ t.dropWhile (· == '\\') ∧
      (t.dropWhile (· == '\\')).head? ≠ some '\\' := by
  have hrun : t.takeWhile (· == '\\') = List.replicate (t.takeWhile (· == '\\')).length '\\' := by
    apply List.eq_replicate_of_mem
    intro c hc
    simpa using List.mem_takeWhile_imp hc
  constructor
  · rw [← hrun, List.takeWhile_append_dropWhile]
  · intro hhead
    have hnot := List.head?_dropWhile_not (· == '\\') t
    rw [hhead] at hnot
    simp at hnot

/-- Every text has a result, and what does not start with a blank is read on. -/
theorem reads_total : ∀ (n : Nat) (characters : Text), characters.length ≤ n → ∀ argument quoted sawToken, ∃ result,
    Reads argument quoted sawToken characters result ∧ result.2.length ≤ characters.length ∧
      (∀ c, characters.head? = some c → Text.isWhitespace c = false → result.2.length < characters.length)
  | _, [], _, argument, quoted, sawToken =>
    ⟨_, reads_nil argument quoted sawToken, Nat.le_refl _, fun _ h => by cases h⟩
  | 0, _ :: _, h, _, _, _ => by cases h
  | n + 1, c :: rest, h, argument, quoted, sawToken => by
    have hlen : rest.length ≤ n := Nat.le_of_succ_le_succ h
    by_cases hblank : quoted = false ∧ Text.isWhitespace c = true
    · obtain ⟨rfl, hc⟩ := hblank
      refine ⟨_, reads_blank argument sawToken rest hc, Nat.le_refl _, fun d hd hplain => ?_⟩
      cases hd
      rw [hc] at hplain
      cases hplain
    · have hgoes : quoted = true ∨ Text.isWhitespace c = false := by
        cases quoted with
        | true => exact .inl rfl
        | false => exact .inr (Bool.eq_false_iff.2 (fun hc => hblank ⟨rfl, hc⟩))
      by_cases hslash : c = '\\'
      · -- a run of backslashes
        subst hslash
        obtain ⟨hsplit, hhead⟩ := split_run ('\\' :: rest)
        have hrun : ∃ k, (('\\' :: rest).takeWhile (· == '\\')).length = k + 1 := by
          rw [List.takeWhile_cons_of_pos (by simp)]
          exact ⟨_, rfl⟩
        obtain ⟨k, hk⟩ := hrun
        rw [hk] at hsplit
        generalize ('\\' :: rest).dropWhile (· == '\\') = behind at hsplit hhead
        have hshort : behind.length + k = rest.length := by
          have hlength := congrArg List.length hsplit
          rw [List.length_append, List.length_replicate, List.length_cons] at hlength
          omega
        rw [hsplit]
        have hless : (List.replicate (k + 1) '\\' ++ behind).length = behind.length + k + 1 := by
          rw [List.length_append, List.length_replicate]
          omega
        rw [hless]
        by_cases hquote : behind.head? = some '"'
        · obtain ⟨more, rfl⟩ : ∃ more, behind = '"' :: more := by
            cases behind with
            | nil => cases hquote
            | cons d more =>
              cases hquote
              exact ⟨more, rfl⟩
          rw [List.length_cons] at hshort ⊢
          rcases Nat.even_or_odd' (k + 1) with ⟨m, hm | hm⟩
          · obtain ⟨m, rfl⟩ : ∃ m', m = m' + 1 := ⟨m - 1, by omega⟩
            obtain ⟨result, hresult, hle, -⟩ := reads_total n more (by omega)
              (argument ++ List.replicate (m + 1) '\\') (!quoted) true
            rw [hm]
            exact ⟨result, reads_even_run m hresult, by omega, fun _ _ _ => by omega⟩
          · obtain ⟨result, hresult, hle, -⟩ := reads_total n more (by omega)
              (argument ++ List.replicate m '\\' ++ ['"']) quoted true
            rw [hm]
            exact ⟨result, reads_odd_run m hresult, by omega, fun _ _ _ => by omega⟩
        · obtain ⟨result, hresult, hle, -⟩ := reads_total n behind (by omega)
            (argument ++ List.replicate (k + 1) '\\') quoted sawToken
          exact ⟨result, reads_run k hhead hquote hresult, by omega, fun _ _ _ => by omega⟩
      · rw [List.length_cons]
        by_cases hquote : c = '"'
        · subst hquote
          obtain ⟨result, hresult, hle, -⟩ := reads_total n rest hlen argument (!quoted) true
          exact ⟨result, reads_quote hresult, by omega, fun _ _ _ => by omega⟩
        · obtain ⟨result, hresult, hle, -⟩ := reads_total n rest hlen (argument ++ [c]) quoted true
          exact ⟨result, reads_plain hgoes hslash hquote hresult, by omega, fun _ _ _ => by omega⟩

/-- **More turns change nothing**: the bound of the outer loop is no bound. -/
theorem parseFragment_enough : ∀ (n : Nat) (fuel : Nat) (characters : Text), characters.length ≤ n → n < fuel →
    parseFragment fuel characters = parseFragment (n + 1) characters
  | n, 0, _, _, h => absurd h (Nat.not_lt_zero n)
  | n, fuel + 1, characters, hlen, hfuel => by
    rw [parseFragment, parseFragment]
    have hle := (List.dropWhile_sublist (l := characters) Text.isWhitespace).length_le
    have hnot := List.head?_dropWhile_not Text.isWhitespace characters
    generalize characters.dropWhile Text.isWhitespace = token at hle hnot
    cases token with
    | nil => rfl
    | cons c rest =>
      obtain ⟨result, hresult, -, hless⟩ := reads_total (c :: rest).length (c :: rest) (Nat.le_refl _) [] false false
      have hbehind := hless c rfl (by simpa using hnot)
      dsimp only
      rw [hresult _ (Nat.le_refl _)]
      obtain ⟨⟨argument, sawToken⟩, behind⟩ := result
      dsimp only at hbehind ⊢
      obtain ⟨n, rfl⟩ : ∃ n', n = n' + 1 := ⟨n - 1, by omega⟩
      rw [parseFragment_enough n fuel behind (by omega) (by omega)]

/-! ## The quoting rule of a Windows command line -/

/-- The inside of the quotes, from behind a run of this many backslashes on. -/
def escaped : Nat → Text → Text
  | n, [] => List.replicate (2 * n) '\\'
  | n, c :: rest =>
    if c = '\\' then escaped (n + 1) rest
    else if c = '"' then List.replicate (2 * n + 1) '\\' ++ '"' :: escaped 0 rest
    else List.replicate n '\\' ++ c :: escaped 0 rest

def needsQuotes (argument : Text) : Bool := argument.isEmpty || argument.any (fun c => Text.isWhitespace c || c == '"')

def renderArgument (argument : Text) : Text :=
  if needsQuotes argument then '"' :: (escaped 0 argument ++ ['"']) else argument

def renderArguments (arguments : List Text) : Text := [' '].intercalate (arguments.map renderArgument)

/-- Backslashes and nothing else. -/
def OnlyBackslashes (argument : Text) : Prop := argument ≠ [] ∧ ∀ c ∈ argument, c = '\\'

instance (argument : Text) : Decidable (OnlyBackslashes argument) := inferInstanceAs (Decidable (_ ∧ _))

/-! ## Reading back what is rendered -/

/-- What is inside the quotes is read up to the closing one. -/
theorem reads_escaped {rest : Text} {result : (Text × Bool) × Text} : ∀ (t : Text) (n : Nat) (argument : Text)
    (sawToken : Bool), Reads (argument ++ List.replicate n '\\' ++ t) false true rest result →
    Reads argument true sawToken (escaped n t ++ '"' :: rest) result
  | [], n, argument, sawToken, h => by
    rw [List.append_nil] at h
    cases n with
    | zero =>
      rw [List.replicate_zero, List.append_nil] at h
      exact reads_quote h
    | succ n => exact reads_even_run n h
  | c :: t, n, argument, sawToken, h => by
    rw [escaped]
    by_cases hslash : c = '\\'
    · rw [if_pos hslash]
      apply reads_escaped t (n + 1) argument sawToken
      rw [List.replicate_succ', List.append_assoc, List.append_assoc]
      rw [hslash, List.append_assoc] at h
      exact h
    · rw [if_neg hslash]
      by_cases hquote : c = '"'
      · rw [if_pos hquote, List.append_assoc, List.cons_append]
        apply reads_odd_run n
        apply reads_escaped t 0
        rw [hquote] at h
        simpa using h
      · have hrest : Reads (argument ++ List.replicate n '\\') true sawToken (c :: (escaped 0 t ++ '"' :: rest)) result := by
          apply reads_plain (.inl rfl) hslash hquote
          apply reads_escaped t 0
          simpa using h
        rw [if_neg hquote, List.append_assoc, List.cons_append]
        cases n with
        | zero => simpa using hrest
        | succ n => exact reads_run n (by simpa using hslash) (by simpa using hquote) hrest

/-- Where an argument ends. -/
def Ends (rest : Text) : Prop := rest = [] ∨ ∃ more, rest = ' ' :: more

theorem Ends.head {rest : Text} (h : Ends rest) {c : Char} (hc : c ≠ ' ') : rest.head? ≠ some c := by
  rcases h with rfl | ⟨more, rfl⟩
  · simp
  · intro heq
    exact hc (Option.some.inj heq).symm

theorem Ends.reads {rest : Text} (h : Ends rest) (argument : Text) (sawToken : Bool) :
    Reads argument false sawToken rest ((argument, sawToken), rest) := by
  rcases h with rfl | ⟨more, rfl⟩
  · exact reads_nil argument false sawToken
  · exact reads_blank argument sawToken more (by decide)

/-- What is left as it is, is read up to its end; it counts as a token unless it is a run of backslashes. -/
theorem reads_bare {rest : Text} (hrest : Ends rest) : ∀ (n : Nat) (t : Text), t.length ≤ n →
    (∀ c ∈ t, Text.isWhitespace c = false ∧ c ≠ '"') → ∀ argument sawToken,
    Reads argument false sawToken (t ++ rest) ((argument ++ t, sawToken || t.any (· != '\\')), rest)
  | _, [], _, _, argument, sawToken => by
    have hread := hrest.reads argument sawToken
    simpa using hread
  | 0, _ :: _, h, _, _, _ => by cases h
  | n + 1, c :: t, h, hplain, argument, sawToken => by
    have hlen : t.length ≤ n := Nat.le_of_succ_le_succ h
    by_cases hslash : c = '\\'
    · subst hslash
      obtain ⟨hsplit, hhead⟩ := split_run ('\\' :: t)
      have hrun : ∃ k, (('\\' :: t).takeWhile (· == '\\')).length = k + 1 := by
        rw [List.takeWhile_cons_of_pos (by simp)]
        exact ⟨_, rfl⟩
      obtain ⟨k, hk⟩ := hrun
      rw [hk] at hsplit
      generalize ('\\' :: t).dropWhile (· == '\\') = behind at hsplit hhead
      have hshort : behind.length ≤ n := by
        have hlength := congrArg List.length hsplit
        rw [List.length_append, List.length_replicate, List.length_cons] at hlength
        omega
      have hbehind : ∀ c ∈ behind, Text.isWhitespace c = false ∧ c ≠ '"' := by
        intro c hc
        apply hplain
        rw [hsplit]
        exact List.mem_append_right _ hc
      have hnext := reads_bare hrest n behind hshort hbehind (argument ++ List.replicate (k + 1) '\\') sawToken
      have hany : (List.replicate (k + 1) '\\' ++ behind).any (· != '\\') = behind.any (· != '\\') := by
        simp
      rw [hsplit, hany, List.append_assoc, ← List.append_assoc argument]
      cases behind with
      | nil => exact reads_run k (hrest.head (by decide)) (hrest.head (by decide)) hnext
      | cons d behind =>
        have hd := hbehind d List.mem_cons_self
        exact reads_run k hhead (by simpa using hd.2) hnext
    · obtain ⟨hc, hquote⟩ := hplain c List.mem_cons_self
      have hnext := reads_bare hrest n t hlen (fun d hd => hplain d (List.mem_cons_of_mem _ hd)) (argument ++ [c]) true
      have hany : (c :: t).any (· != '\\') = true := by simp [hslash]
      rw [hany, Bool.or_true]
      rw [Bool.true_or, List.append_assoc] at hnext
      exact reads_plain (.inr hc) hslash hquote hnext

theorem needsQuotes_false {argument : Text} (h : needsQuotes argument = false) :
    argument ≠ [] ∧ ∀ c ∈ argument, Text.isWhitespace c = false ∧ c ≠ '"' := by
  unfold needsQuotes at h
  obtain ⟨hempty, hany⟩ := Bool.or_eq_false_iff.1 h
  refine ⟨by simpa using hempty, fun c hc => ?_⟩
  have hc' := List.any_eq_false.1 hany c hc
  simpa using hc'

theorem not_onlyBackslashes {argument : Text} (h : needsQuotes argument = true) : ¬ OnlyBackslashes argument := by
  rintro ⟨hne, hall⟩
  unfold needsQuotes at h
  rcases Bool.or_eq_true_iff.1 h with hempty | hany
  · exact hne (by simpa using hempty)
  · obtain ⟨c, hc, hquoted⟩ := List.any_eq_true.1 hany
    rw [hall c hc] at hquoted
    exact absurd hquoted (by decide)

/-- **One rendered argument** is read back whole, and counts as a token unless it is a run of backslashes. -/
theorem reads_renderArgument (argument : Text) {rest : Text} (hrest : Ends rest) :
    Reads [] false false (renderArgument argument ++ rest)
      ((argument, !decide (OnlyBackslashes argument)), rest) := by
  unfold renderArgument
  cases hquotes : needsQuotes argument with
  | true =>
    have hinner : Reads [] true true (escaped 0 argument ++ '"' :: rest) ((argument, true), rest) := by
      apply reads_escaped
      exact hrest.reads argument true
    rw [if_pos rfl, decide_eq_false (not_onlyBackslashes hquotes)]
    have hread : Reads [] false false ('"' :: (escaped 0 argument ++ '"' :: rest)) ((argument, true), rest) :=
      reads_quote hinner
    simpa using hread
  | false =>
    obtain ⟨hne, hplain⟩ := needsQuotes_false hquotes
    have hread := reads_bare hrest argument.length argument (Nat.le_refl _) hplain [] false
    have hsaw : argument.any (· != '\\') = !decide (OnlyBackslashes argument) := by
      rw [Bool.eq_iff_iff, List.any_eq_true, Bool.not_eq_true', decide_eq_false_iff_not]
      constructor
      · rintro ⟨c, hc, hother⟩ ⟨-, hall⟩
        rw [hall c hc] at hother
        simp at hother
      · intro hnot
        by_contra hnone
        refine hnot ⟨hne, fun c hc => ?_⟩
        by_contra hother
        exact hnone ⟨c, hc, by simpa using hother⟩
    rw [if_neg (by simp), ← hsaw]
    simpa using hread

/-- A rendered argument starts with a character that is no blank. -/
theorem renderArgument_start (argument : Text) :
    ∃ c rest, renderArgument argument = c :: rest ∧ Text.isWhitespace c = false := by
  unfold renderArgument
  cases hquotes : needsQuotes argument with
  | true => exact ⟨'"', _, rfl, by decide⟩
  | false =>
    obtain ⟨hne, hplain⟩ := needsQuotes_false hquotes
    cases argument with
    | nil => exact absurd rfl hne
    | cons c rest => exact ⟨c, rest, rfl, (hplain c List.mem_cons_self).1⟩

theorem parseFragment_argument (fuel : Nat) (argument : Text) {rest : Text} (hrest : Ends rest) :
    parseFragment (fuel + 1) (renderArgument argument ++ rest) =
      (if OnlyBackslashes argument then [] else [.ofText argument]) ++ parseFragment fuel rest := by
  have hread := reads_renderArgument argument hrest
  obtain ⟨c, more, hrender, hc⟩ := renderArgument_start argument
  rw [hrender, List.cons_append] at hread ⊢
  rw [parseFragment, List.dropWhile_cons_of_neg (by simp [hc])]
  dsimp only
  rw [hread _ (Nat.le_refl _)]
  by_cases honly : OnlyBackslashes argument
  · simp [honly]
  · simp [honly]

theorem parseFragment_blank (fuel : Nat) (rest : Text) : parseFragment fuel (' ' :: rest) = parseFragment fuel rest := by
  cases fuel with
  | zero => rfl
  | succ fuel =>
    rw [parseFragment, parseFragment, List.dropWhile_cons_of_pos (by decide)]

theorem renderArguments_cons (argument next : Text) (arguments : List Text) :
    renderArguments (argument :: next :: arguments) =
      renderArgument argument ++ ' ' :: renderArguments (next :: arguments) := by
  unfold renderArguments
  rw [List.map_cons, List.map_cons, List.intercalate_cons_cons]
  simp

/-- **What is read back of rendered arguments**: all of them in their order, but for the runs of backslashes. -/
theorem parseFragment_render : ∀ (arguments : List Text) (fuel : Nat), arguments.length ≤ fuel →
    parseFragment fuel (renderArguments arguments) =
      (arguments.filter (fun argument => !decide (OnlyBackslashes argument))).map .ofText
  | [], fuel, _ => by
    have hnone : renderArguments [] = [] := rfl
    rw [hnone]
    cases fuel with
    | zero => rfl
    | succ fuel => rfl
  | _ :: _, 0, h => by cases h
  | [argument], fuel + 1, _ => by
    have hone : renderArguments [argument] = renderArgument argument ++ [] := by simp [renderArguments]
    have hnone : parseFragment fuel [] = [] := by
      cases fuel with
      | zero => rfl
      | succ fuel => rfl
    rw [hone, parseFragment_argument fuel argument (.inl rfl), hnone]
    by_cases honly : OnlyBackslashes argument
    · simp [honly]
    · simp [honly]
  | argument :: next :: arguments, fuel + 1, h => by
    rw [renderArguments_cons, parseFragment_argument fuel argument (.inr ⟨_, rfl⟩), parseFragment_blank,
      parseFragment_render (next :: arguments) fuel (Nat.le_of_succ_le_succ h), List.filter_cons (x := argument)]
    by_cases honly : OnlyBackslashes argument
    · simp [honly]
    · simp [honly]

theorem length_le_renderArguments : ∀ arguments : List Text, arguments.length ≤ (renderArguments arguments).length + 1
  | [] => by simp
  | [_] => by simp
  | argument :: next :: arguments => by
    have hrest := length_le_renderArguments (next :: arguments)
    rw [renderArguments_cons]
    simp only [List.length_append, List.length_cons] at hrest ⊢
    omega

theorem parseLegacyWindowsFragment_render (arguments : List Text) :
    parseLegacyWindowsFragment (renderArguments arguments) =
      (arguments.filter (fun argument => !decide (OnlyBackslashes argument))).map .ofText :=
  parseFragment_render arguments _ (length_le_renderArguments arguments)

/-- **The arguments are read back as they were exactly if none of them is a run of backslashes and nothing else.** -/
theorem parse_renderArguments_iff (arguments : List Text) :
    parseLegacyWindowsFragment (renderArguments arguments) = arguments.map .ofText ↔
      ∀ argument ∈ arguments, ¬ OnlyBackslashes argument := by
  rw [parseLegacyWindowsFragment_render]
  constructor
  · intro h argument hmem honly
    have hlength := congrArg List.length h
    rw [List.length_map, List.length_map, List.length_filter_eq_length_iff] at hlength
    have hkept := hlength argument hmem
    simp [honly] at hkept
  · intro h
    rw [List.filter_eq_self.2]
    intro argument hmem
    simp [h argument hmem]

/-- An argument that is one backslash is dropped, and the next takes its place. -/
theorem backslash_is_dropped :
    parseLegacyWindowsFragment (renderArguments ["\\", "a"]) ≠ (["\\", "a"] : List Text).map .ofText := by
  decide +kernel

end Jvm
end Jss
