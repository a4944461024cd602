import ServiceSteward.ConfigLoader
/-!
# ConfigText — configuration files that are read back

A file is written from logical lines: properties, with or without an inline comment, blank lines and comments.  Each may
be broken after an even run of backslashes.  Carriage returns at the end of a line belong to its ending.
-/
namespace Jss
namespace ConfigFile

/-! ## What a file is written from -/

def trailingSlashes (t : Text) : Nat := (t.reverse.takeWhile (· == '\\')).length

def NotContinued (t : Text) : Prop := trailingSlashes (Text.trimEndMatches '\r' t) % 2 = 0

structure Property where
  name : Text
  value : Text
  nonempty : name ≠ []
  trimmedName : name.trim = name
  noEquals : '=' ∉ name
  oneLineName : '\n' ∉ name
  start : name.head? ≠ some '#' ∧ name.head? ≠ some '!'
  trimmedValue : value.trim = value
  oneLineValue : '\n' ∉ value
  noPercent : '%' ∉ value
  evenSlashes : trailingSlashes value % 2 = 0

/-- What follows the `#` of an inline comment. -/
structure InlineComment where
  text : Text
  oneLine : '\n' ∉ text
  start : text.head? ≠ some '#'
  notContinued : NotContinued text

/-- A blank line, or a comment that is no include. -/
structure IgnoredLine where
  text : Text
  oneLine : '\n' ∉ text
  notContinued : NotContinued text
  ignored : text.trim = [] ∨ text.trim.head? = some '!' ∨
    (text.trim.head? = some '#' ∧ parseInclude text.trim = none)

inductive Line where
  | property (p : Property) (comment : Option InlineComment)
  | ignored (line : IgnoredLine)

def doubleHashes (t : Text) : Text := t.flatMap (fun c => if c = '#' then ['#', '#'] else [c])

def Line.text : Line → Text
  | .property p none => p.name ++ '=' :: doubleHashes p.value
  | .property p (some comment) => p.name ++ '=' :: (doubleHashes p.value ++ '#' :: comment.text)
  | .ignored line => line.text

/-- The pair that a line is written from. -/
def Line.pair : Line → Option (Text × Text)
  | .property p _ => some (p.name, p.value)
  | .ignored _ => none

inductive Ending where
  | lf | crlf

def Ending.text : Ending → Text
  | .lf => ['\n']
  | .crlf => ['\r', '\n']

/-- A logical line as it is laid out: what each continued physical line takes of it, and the last one. -/
structure Layout where
  line : Line
  broken : List (Text × Ending)
  last : Text
  ending : Ending
  whole : broken.flatMap Prod.fst ++ last = line.text
  /-- The text before each break ends in an even run of backslashes. -/
  breaks : ∀ n, trailingSlashes ((broken.take n).flatMap Prod.fst) % 2 = 0

def Layout.physical (layout : Layout) : List (Text × Ending) :=
  layout.broken.map (fun piece => (piece.1 ++ ['\\'], piece.2)) ++ [(layout.last, layout.ending)]

/-- The text of a file.  Its last line may lack the ending. -/
def fileText (terminated : Bool) : List (Text × Ending) → Text
  | [] => []
  | [(line, ending)] => line ++ if terminated then ending.text else []
  | (line, ending) :: next :: rest => line ++ ending.text ++ fileText terminated (next :: rest)

/-! ## Physical lines -/

def withoutCr (t : Text) : Text := Text.trimEndMatches '\r' t

theorem withoutCr_append_cr (t : Text) : withoutCr (t ++ ['\r']) = withoutCr t := by
  simp [withoutCr, Text.trimEndMatches]

theorem lines_cons (line rest : Text) (ending : Ending) (h : '\n' ∉ line) :
    ∃ read, withoutCr read = withoutCr line ∧
      Text.linesFrom [] (line ++ ending.text ++ rest) = read :: Text.linesFrom [] rest := by
  have hread : ∀ t : Text, withoutCr (if t.getLast? = some '\r' then t.dropLast else t) = withoutCr t := by
    intro t
    split
    · rename_i hlast
      obtain ⟨init, rfl⟩ := List.getLast?_eq_some_iff.1 hlast
      rw [List.dropLast_concat, withoutCr_append_cr]
    · rfl
  cases ending with
  | lf =>
    refine ⟨_, hread line, ?_⟩
    rw [List.append_assoc, Text.linesFrom_append h]
    rfl
  | crlf =>
    have hcr : '\n' ∉ line ++ ['\r'] := by simp [h]
    refine ⟨_, (hread (line ++ ['\r'])).trans (withoutCr_append_cr line), ?_⟩
    have hparts : line ++ Ending.crlf.text ++ rest = (line ++ ['\r']) ++ '\n' :: rest := by simp [Ending.text]
    rw [hparts, Text.linesFrom_append hcr]
    rfl

/-- The lines of a file, but for carriage returns and a last line that is empty. -/
theorem lines_fileText (terminated : Bool) : ∀ (physical : List (Text × Ending)), (∀ p ∈ physical, '\n' ∉ p.1) →
    ∃ blank, (blank = [] ∨ blank = [[]]) ∧
      (Text.lines (fileText terminated physical) ++ blank).map withoutCr = physical.map (fun p => withoutCr p.1)
  | [], _ => ⟨[], .inl rfl, rfl⟩
  | [(line, ending)], h => by
    have hline : '\n' ∉ line := h (line, ending) (by simp)
    cases terminated with
    | true =>
      obtain ⟨read, hread, hlines⟩ := lines_cons line [] ending hline
      refine ⟨[], .inl rfl, ?_⟩
      have htext : fileText true [(line, ending)] = line ++ ending.text ++ [] := by simp [fileText]
      rw [htext, Text.lines, hlines]
      simp [Text.linesFrom, hread]
    | false =>
      have htext : fileText false [(line, ending)] = line ++ [] := by simp [fileText]
      rw [htext, Text.lines, Text.linesFrom_append hline]
      cases line with
      | nil => exact ⟨[[]], .inr rfl, rfl⟩
      | cons c line => exact ⟨[], .inl rfl, rfl⟩
  | (line, ending) :: next :: rest, h => by
    have hline : '\n' ∉ line := h (line, ending) (by simp)
    obtain ⟨blank, hblank, hrest⟩ := lines_fileText terminated (next :: rest) (fun p hp => h p (by simp [hp]))
    obtain ⟨read, hread, hlines⟩ := lines_cons line (fileText terminated (next :: rest)) ending hline
    refine ⟨blank, hblank, ?_⟩
    rw [fileText, Text.lines, hlines, List.cons_append, List.map_cons, hread, List.map_cons]
    rw [← hrest]
    rfl

/-! ## Logical lines -/

theorem logicalLinesFrom_congr : ∀ (physical physical' : List Text) (pending : Text),
    physical.map withoutCr = physical'.map withoutCr →
      logicalLinesFrom pending physical = logicalLinesFrom pending physical'
  | [], [], _, _ => rfl
  | [], _ :: _, _, h => by simp at h
  | _ :: _, [], _, h => by simp at h
  | line :: physical, line' :: physical', pending, h => by
    rw [List.map_cons, List.map_cons] at h
    obtain ⟨hline, hrest⟩ := List.cons.inj h
    have hline : Text.trimEndMatches '\r' line = Text.trimEndMatches '\r' line' := hline
    have ih := fun pending => logicalLinesFrom_congr physical physical' pending hrest
    simp only [logicalLinesFrom, hline, ih]

/-- An empty last line changes nothing but perhaps adds itself. -/
theorem logicalLinesFrom_blank : ∀ (physical : List Text) (pending : Text), ∃ blank, (blank = [] ∨ blank = [[]]) ∧
    logicalLinesFrom pending (physical ++ [[]]) = logicalLinesFrom pending physical ++ blank
  | [], [] => ⟨[[]], .inr rfl, rfl⟩
  | [], c :: pending => ⟨[], .inl rfl, by simp [logicalLinesFrom, Text.trimEndMatches]⟩
  | line :: physical, pending => by
    simp only [List.cons_append, logicalLinesFrom]
    split
    · exact logicalLinesFrom_blank physical _
    · obtain ⟨blank, hblank, hrest⟩ := logicalLinesFrom_blank physical []
      refine ⟨blank, hblank, ?_⟩
      rw [hrest]
      split
      · rfl
      · rfl

theorem trailingSlashes_append (t u : Text) : trailingSlashes (t ++ u) =
    if u.all (· == '\\') then u.length + trailingSlashes t else trailingSlashes u := by
  unfold trailingSlashes
  rw [List.reverse_append, List.takeWhile_append]
  have hall : u.all (· == '\\') = true ↔ (u.reverse.takeWhile (· == '\\')).length = u.reverse.length := by
    rw [← List.all_reverse]
    constructor
    · intro h
      rw [List.takeWhile_eq_self_iff.2 (List.all_eq_true.1 h)]
    · intro h
      have heq : u.reverse.takeWhile (· == '\\') = u.reverse :=
        (List.takeWhile_prefix _).eq_of_length h
      rw [← heq]
      exact List.all_takeWhile
  by_cases h : u.all (· == '\\') = true
  · rw [if_pos (hall.1 h), if_pos h]
    simp
  · rw [if_neg (fun heq => h (hall.2 heq)), if_neg h]

/-- After an even run, the run at the end of what follows is even just where that of both is. -/
theorem even_append {t : Text} (ht : trailingSlashes t % 2 = 0) (u : Text) :
    trailingSlashes (t ++ u) % 2 = 0 ↔ trailingSlashes u % 2 = 0 := by
  have hu := trailingSlashes_append [] u
  rw [List.nil_append] at hu
  have hnil : trailingSlashes [] = 0 := rfl
  rw [trailingSlashes_append, hu]
  split
  · omega
  · rfl

theorem logicalLinesFrom_broken (pending : Text) {piece : Text} (h : trailingSlashes piece % 2 = 0)
    (rest : List Text) :
    logicalLinesFrom pending ((piece ++ ['\\']) :: rest) = logicalLinesFrom (pending ++ piece) rest := by
  have htrim : Text.trimEndMatches '\r' (piece ++ ['\\']) = piece ++ ['\\'] := by simp [Text.trimEndMatches]
  have hodd : trailingSlashes (piece ++ ['\\']) % 2 = 1 := by
    rw [trailingSlashes_append]
    simp
    omega
  have hodd : ((piece ++ ['\\']).reverse.takeWhile (· == '\\')).length % 2 = 1 := hodd
  simp only [logicalLinesFrom, htrim]
  rw [if_pos hodd, List.dropLast_concat]

theorem logicalLinesFrom_last (pending : Text) {last : Text} (h : NotContinued last) (rest : List Text) :
    logicalLinesFrom pending (last :: rest) = (pending ++ withoutCr last) :: logicalLinesFrom [] rest := by
  have heven : ((Text.trimEndMatches '\r' last).reverse.takeWhile (· == '\\')).length % 2 ≠ 1 := by
    have heven : ((Text.trimEndMatches '\r' last).reverse.takeWhile (· == '\\')).length % 2 = 0 := h
    omega
  simp only [logicalLinesFrom]
  rw [if_neg heven]
  cases pending with
  | nil => rfl
  | cons c pending => rfl

/-- What the parser sees of a logical line. -/
def Layout.joined (layout : Layout) : Text := layout.broken.flatMap Prod.fst ++ withoutCr layout.last

theorem logicalLinesFrom_pieces (rest : List Text) : ∀ (pieces : List (Text × Ending)) (pending : Text),
    trailingSlashes pending % 2 = 0 →
    (∀ n, trailingSlashes (pending ++ (pieces.take n).flatMap Prod.fst) % 2 = 0) →
    logicalLinesFrom pending (pieces.map (fun piece => piece.1 ++ ['\\']) ++ rest) =
      logicalLinesFrom (pending ++ pieces.flatMap Prod.fst) rest
  | [], pending, _, _ => by simp
  | piece :: pieces, pending, hpending, h => by
    have hfirst : trailingSlashes (pending ++ piece.1) % 2 = 0 := by simpa using h 1
    have hpiece : trailingSlashes piece.1 % 2 = 0 := (even_append hpending _).1 hfirst
    have hrest : ∀ n, trailingSlashes (pending ++ piece.1 ++ (pieces.take n).flatMap Prod.fst) % 2 = 0 := by
      intro n
      simpa using h (n + 1)
    rw [List.map_cons, List.cons_append, logicalLinesFrom_broken _ hpiece,
      logicalLinesFrom_pieces rest pieces _ hfirst hrest, List.flatMap_cons, List.append_assoc]

/-! ## The ends of lines -/

theorem trailingSlashes_after {c : Char} (hc : c ≠ '\\') (t u : Text) :
    trailingSlashes (t ++ c :: u) = trailingSlashes u := by
  have hbefore : trailingSlashes (t ++ [c]) = 0 := by simp [trailingSlashes, hc]
  have hparts : t ++ c :: u = (t ++ [c]) ++ u := by simp
  have hu := trailingSlashes_append [] u
  have hnil : trailingSlashes [] = 0 := rfl
  rw [List.nil_append, hnil] at hu
  rw [hparts, trailingSlashes_append, hbefore]
  split
  · rename_i hall
    rw [hu, if_pos hall]
  · rfl

theorem doubleHashes_concat (t : Text) (c : Char) : ∃ before, doubleHashes (t ++ [c]) = before ++ [c] ∧
    (c = '\\' → before = doubleHashes t) := by
  by_cases hc : c = '#'
  · subst hc
    exact ⟨doubleHashes t ++ ['#'], by simp [doubleHashes], fun h => absurd h (by decide)⟩
  · exact ⟨doubleHashes t, by simp [doubleHashes, hc], fun _ => rfl⟩

theorem trailingSlashes_doubleHashes (t : Text) : trailingSlashes (doubleHashes t) = trailingSlashes t := by
  induction t using List.reverseRecOn with
  | nil => rfl
  | append_singleton t c ih =>
    obtain ⟨before, hdouble, hslash⟩ := doubleHashes_concat t c
    rw [hdouble]
    by_cases hc : c = '\\'
    · rw [hslash hc, trailingSlashes_append, trailingSlashes_append, ih]
    · rw [trailingSlashes_after hc, trailingSlashes_after hc]

theorem rdropWhile_of_last {p : Char → Bool} {c : Char} (t : Text) (hc : p c = false) :
    (t ++ [c]).rdropWhile p = t ++ [c] := by
  rw [Text.rdropWhile_append_cons t [] hc]
  rfl

/-- A text that is trimmed at its end ends in no white space, and so does what its hashes are doubled to. -/
theorem rdropWhile_doubleHashes {t : Text} (h : t.rdropWhile Text.isWhitespace = t) {p : Char → Bool}
    (hp : ∀ c, p c = true → Text.isWhitespace c = true) : (doubleHashes t).rdropWhile p = doubleHashes t := by
  induction t using List.reverseRecOn with
  | nil => rfl
  | append_singleton t c _ =>
    have hc : Text.isWhitespace c ≠ true := by
      have hlast := List.rdropWhile_eq_self_iff.1 h (by simp)
      simpa using hlast
    have hpc : p c = false := by
      by_contra hpc
      exact hc (hp c (by simpa using hpc))
    obtain ⟨before, hdouble, -⟩ := doubleHashes_concat t c
    rw [hdouble, rdropWhile_of_last before hpc]

theorem cr_isWhitespace : ∀ c, (c == '\r') = true → Text.isWhitespace c = true := by
  intro c hc
  have heq : c = '\r' := by simpa using hc
  rw [heq]
  decide

theorem Property.value_end (p : Property) : p.value.rdropWhile Text.isWhitespace = p.value :=
  Text.rdropWhile_of_trim p.trimmedValue

theorem not_mem_doubleHashes {c : Char} (hc : c ≠ '#') {t : Text} (h : c ∉ t) : c ∉ doubleHashes t := by
  intro hmem
  obtain ⟨d, hd, hcd⟩ := List.mem_flatMap.1 hmem
  by_cases hhash : d = '#'
  · rw [if_pos hhash] at hcd
    simp [hc] at hcd
  · rw [if_neg hhash] at hcd
    rw [List.mem_singleton.1 hcd] at h
    exact h hd

theorem Line.oneLine (line : Line) : '\n' ∉ line.text := by
  cases line with
  | ignored line => exact line.oneLine
  | property p comment =>
    have hvalue := not_mem_doubleHashes (by decide) p.oneLineValue
    have hname := p.oneLineName
    cases comment with
    | none => simp [Line.text, hvalue, hname]
    | some comment => simp [Line.text, hvalue, hname, comment.oneLine]

theorem Line.notContinued (line : Line) : NotContinued line.text := by
  have hrdrop : ∀ t : Text, Text.trimEndMatches '\r' t = t.rdropWhile (· == '\r') := fun _ => rfl
  cases line with
  | ignored line => exact line.notContinued
  | property p comment =>
    unfold NotContinued
    cases comment with
    | none =>
      rw [Line.text, hrdrop, Text.rdropWhile_append_cons _ _ (by decide),
        rdropWhile_doubleHashes p.value_end cr_isWhitespace, trailingSlashes_after (by decide),
        trailingSlashes_doubleHashes]
      exact p.evenSlashes
    | some comment =>
      have hparts : Line.text (.property p (some comment)) =
          (p.name ++ '=' :: doubleHashes p.value) ++ '#' :: comment.text := by simp [Line.text]
      rw [hparts, hrdrop, Text.rdropWhile_append_cons _ _ (by decide), trailingSlashes_after (by decide)]
      exact comment.notContinued

theorem withoutCr_sublist (t : Text) : ∃ n, t = withoutCr t ++ List.replicate n '\r' := Text.trimEndMatches_append '\r' t

/-- What is left of a line after a break is not continued either. -/
theorem notContinued_of_append {t u : Text} (ht : trailingSlashes t % 2 = 0) (h : NotContinued (t ++ u)) :
    NotContinued u := by
  obtain ⟨n, hn⟩ := withoutCr_sublist u
  have hcut : withoutCr (t ++ u) = (t ++ withoutCr u).rdropWhile (· == '\r') := by
    have hassoc : t ++ (withoutCr u ++ List.replicate n '\r') = (t ++ withoutCr u) ++ List.replicate n '\r' := by simp
    have hrdrop : withoutCr (t ++ u) = (t ++ u).rdropWhile (· == '\r') := rfl
    rw [hrdrop, hn, hassoc]
    have hall : ∀ c ∈ List.replicate n '\r', (c == '\r') = true := by simp
    rw [Text.rdropWhile_append_of_all _ hall, ← hn]
  rcases List.eq_nil_or_concat' (withoutCr u) with hnil | ⟨init, c, hlast⟩
  · change trailingSlashes (withoutCr u) % 2 = 0
    rw [hnil]
    rfl
  · have hstop : (c == '\r') = false := by
      have hself : (withoutCr u).rdropWhile (· == '\r') = withoutCr u := List.rdropWhile_idempotent _ _
      rw [hlast] at hself
      have hend := List.rdropWhile_eq_self_iff.1 hself (by simp)
      simpa using hend
    have hwhole : withoutCr (t ++ u) = t ++ withoutCr u := by
      rw [hcut, hlast, ← List.append_assoc]
      exact rdropWhile_of_last (p := (· == '\r')) _ hstop
    have heven : trailingSlashes (withoutCr (t ++ u)) % 2 = 0 := h
    rw [hwhole] at heven
    exact (even_append ht _).1 heven

theorem Layout.even_broken (layout : Layout) : trailingSlashes (layout.broken.flatMap Prod.fst) % 2 = 0 := by
  have h := layout.breaks layout.broken.length
  rw [List.take_length] at h
  exact h

theorem logicalLinesFrom_layout (layout : Layout) (rest : List Text) :
    logicalLinesFrom [] (layout.physical.map Prod.fst ++ rest) = layout.joined :: logicalLinesFrom [] rest := by
  have hlast : NotContinued layout.last := by
    apply notContinued_of_append layout.even_broken
    rw [layout.whole]
    exact layout.line.notContinued
  have hphysical : layout.physical.map Prod.fst ++ rest =
      layout.broken.map (fun piece => piece.1 ++ ['\\']) ++ layout.last :: rest := by simp [Layout.physical]
  rw [hphysical, logicalLinesFrom_pieces _ _ [] rfl (by simpa using layout.breaks), logicalLinesFrom_last _ hlast]
  rfl

theorem logicalLinesFrom_layouts : ∀ layouts : List Layout,
    logicalLinesFrom [] (layouts.flatMap (fun layout => layout.physical.map Prod.fst)) = layouts.map Layout.joined
  | [] => rfl
  | layout :: layouts => by
    rw [List.flatMap_cons, logicalLinesFrom_layout, logicalLinesFrom_layouts layouts, List.map_cons]

theorem Layout.oneLine (layout : Layout) : ∀ p ∈ layout.physical, '\n' ∉ p.1 := by
  have hwhole : '\n' ∉ layout.broken.flatMap Prod.fst ++ layout.last := by
    rw [layout.whole]
    exact layout.line.oneLine
  intro p hp hmem
  rcases List.mem_append.1 hp with hp | hp
  · obtain ⟨piece, hpiece, rfl⟩ := List.mem_map.1 hp
    have hmem : '\n' ∈ piece.1 := by simpa using hmem
    exact hwhole (List.mem_append_left _ (List.mem_flatMap.2 ⟨piece, hpiece, hmem⟩))
  · rw [List.mem_singleton.1 hp] at hmem
    exact hwhole (List.mem_append_right _ hmem)

/-- **The logical lines of a file are those it was written from**, but for a last one that is empty. -/
theorem logicalLines_fileText (terminated : Bool) (layouts : List Layout) :
    ∃ blank, (blank = [] ∨ blank = [[]]) ∧
      logicalLines (fileText terminated (layouts.flatMap Layout.physical)) ++ blank = layouts.map Layout.joined := by
  have hone : ∀ p ∈ layouts.flatMap Layout.physical, '\n' ∉ p.1 := by
    intro p hp
    obtain ⟨layout, -, hp⟩ := List.mem_flatMap.1 hp
    exact layout.oneLine p hp
  obtain ⟨blank, hblank, hlines⟩ := lines_fileText terminated _ hone
  have hread : logicalLinesFrom [] (Text.lines (fileText terminated (layouts.flatMap Layout.physical)) ++ blank) =
      layouts.map Layout.joined := by
    rw [← logicalLinesFrom_layouts]
    apply logicalLinesFrom_congr
    rw [hlines, List.map_flatMap, List.map_flatMap]
    simp only [List.map_map]
    rfl
  rcases hblank with rfl | rfl
  · rw [List.append_nil] at hread
    exact ⟨[], .inl rfl, by rw [List.append_nil]; exact hread⟩
  · obtain ⟨blank, hblank, hmore⟩ :=
      logicalLinesFrom_blank (Text.lines (fileText terminated (layouts.flatMap Layout.physical))) []
    exact ⟨blank, hblank, by rw [← hread, hmore]; rfl⟩

/-! ## Parsing -/

theorem Layout.trim_joined (layout : Layout) : layout.joined.trim = layout.line.text.trim := by
  obtain ⟨n, hn⟩ := withoutCr_sublist layout.last
  have hspaces : ∀ c ∈ List.replicate n '\r', Text.isWhitespace c = true := by
    intro c hc
    rw [List.eq_of_mem_replicate hc]
    decide
  have htext : layout.line.text = layout.joined ++ List.replicate n '\r' := by
    rw [← layout.whole, Layout.joined, List.append_assoc, ← hn]
  rw [htext, Text.trim_append_whitespace _ hspaces]

theorem decodeHashComments_doubleHashes (rest : Text) : ∀ t : Text,
    decodeHashComments (doubleHashes t ++ rest) = t ++ decodeHashComments rest
  | [] => rfl
  | c :: t => by
    have ih := decodeHashComments_doubleHashes rest t
    by_cases hc : c = '#'
    · subst hc
      have hstep : doubleHashes ('#' :: t) ++ rest = '#' :: '#' :: (doubleHashes t ++ rest) := by simp [doubleHashes]
      rw [hstep, decodeHashComments, ih]
      rfl
    · have hstep : doubleHashes (c :: t) ++ rest = c :: (doubleHashes t ++ rest) := by simp [doubleHashes, hc]
      rw [hstep, decodeHashComments, ih]
      · rfl
      · rintro _ rfl
        exact absurd rfl hc
      · rintro rfl
        exact hc rfl

theorem decodeHashComments_comment {t : Text} (h : t.head? ≠ some '#') : decodeHashComments ('#' :: t) = [] := by
  rw [decodeHashComments]
  rintro rest rfl
  simp at h

/-- What is left of a property line when it is trimmed. -/
theorem Line.trim_property (p : Property) (comment : Option InlineComment) :
    ∃ rawValue, (Line.property p comment).text.trim = p.name ++ '=' :: rawValue ∧
      decodeHashComments rawValue = p.value := by
  have hhead : ∀ rest c, (p.name ++ '=' :: rest).head? = some c → Text.isWhitespace c = false := by
    intro rest c hc
    have hname := Text.head_trim p.name
    rw [p.trimmedName] at hname
    cases hcases : p.name with
    | nil => exact absurd hcases p.nonempty
    | cons d name =>
      rw [hcases] at hc hname
      exact hname c (by simpa using hc)
  cases comment with
  | none =>
    refine ⟨doubleHashes p.value, ?_, ?_⟩
    · rw [Line.text, Text.trim_of_head (hhead _), Text.rdropWhile_append_cons _ _ (by decide),
        rdropWhile_doubleHashes p.value_end (fun _ h => h)]
    · have h := decodeHashComments_doubleHashes [] p.value
      rw [List.append_nil, decodeHashComments, List.append_nil] at h
      exact h
  | some comment =>
    refine ⟨doubleHashes p.value ++ '#' :: comment.text.rdropWhile Text.isWhitespace, ?_, ?_⟩
    · have hparts : p.name ++ '=' :: (doubleHashes p.value ++ '#' :: comment.text) =
          (p.name ++ '=' :: doubleHashes p.value) ++ '#' :: comment.text := by simp
      rw [Line.text, Text.trim_of_head (hhead _), hparts, Text.rdropWhile_append_cons _ _ (by decide)]
      simp
    · have hstart : (comment.text.rdropWhile Text.isWhitespace).head? ≠ some '#' := by
        obtain ⟨rest, hrest⟩ := List.rdropWhile_prefix Text.isWhitespace (l := comment.text)
        intro hhash
        apply comment.start
        rw [← hrest, List.head?_append, hhash]
        rfl
      rw [decodeHashComments_doubleHashes, decodeHashComments_comment hstart, List.append_nil]

theorem parseIncludeAs_none {t : Text} (h : t.head? ≠ some '#') : ∀ directives : List Text,
    (∀ directive ∈ directives, directive.head? = some '#') → parseIncludeAs t directives = none
  | [], _ => rfl
  | directive :: directives, hhash => by
    have hstrip : Text.stripPrefix directive t = none := by
      apply if_neg
      intro hprefix
      obtain ⟨rest, rfl⟩ := List.isPrefixOf_iff_prefix.1 hprefix
      apply h
      rw [List.head?_append, hhash directive (by simp)]
      rfl
    rw [parseIncludeAs, hstrip]
    exact parseIncludeAs_none h directives (fun directive hmem => hhash directive (by simp [hmem]))

theorem parseInclude_none {t : Text} (h : t.head? ≠ some '#') : parseInclude t = none :=
  parseIncludeAs_none h _ (by decide)

theorem expandEnvironment_noPercent (platform : Platform) {value : Text} (h : '%' ∉ value)
    (environment : BTreeMap Text Text) : expandEnvironment platform value environment = value := by
  unfold expandEnvironment
  cases value.length with
  | zero => rfl
  | succ n => rw [expandFrom, Text.splitOnce_none h]

variable {platform : Platform} {load : Text → Bool → Loader → Except Error Loader} {path : Text}

theorem parseLine_property (loader : Loader) {line : Nat × Text} (p : Property) (comment : Option InlineComment)
    (h : line.2.trim = (Line.property p comment).text.trim) :
    Loader.parseLine platform load path loader line = .ok (Loader.define platform loader p.name p.value) := by
  obtain ⟨rawValue, htrim, hvalue⟩ := Line.trim_property p comment
  have hhead : (p.name ++ '=' :: rawValue).head? = p.name.head? := by
    cases hname : p.name with
    | nil => exact absurd hname p.nonempty
    | cons c name => rfl
  have hsplit : splitProperty (p.name ++ '=' :: rawValue) = some (p.name, rawValue) := by
    unfold splitProperty
    rw [Text.splitOnce_append _ p.noEquals]
    simp [p.trimmedName]
  have hempty : (p.name ++ '=' :: rawValue).isEmpty = false := by simp
  have hname : p.name.isEmpty = false := by simp [p.nonempty]
  have hinclude : parseInclude (p.name ++ '=' :: rawValue) = none := by
    apply parseInclude_none
    rw [hhead]
    exact p.start.1
  unfold Loader.parseLine
  rw [h, htrim]
  dsimp only
  rw [hhead, hempty, hinclude, hsplit]
  dsimp only
  rw [hname, hvalue, p.trimmedValue, expandEnvironment_noPercent platform p.noPercent]
  simp [p.start.1, p.start.2]

theorem parseLine_ignored (loader : Loader) {line : Nat × Text} (hignored : line.2.trim = [] ∨
    line.2.trim.head? = some '!' ∨ (line.2.trim.head? = some '#' ∧ parseInclude line.2.trim = none)) :
    Loader.parseLine platform load path loader line = .ok loader := by
  unfold Loader.parseLine
  dsimp only
  rcases hignored with hblank | hbang | ⟨hhash, hinclude⟩
  · simp [hblank]
  · simp [hbang]
  · rw [hinclude]
    simp [hhash]

variable (platform load path)

/-- What a line does to the properties. -/
def Line.apply (properties : BTreeMap Text Text) (line : Line) : BTreeMap Text Text :=
  match line.pair with
  | none => properties
  | some (name, value) => properties.insert name value

theorem parseLine_layout (loader : Loader) {line : Nat × Text} (layout : Layout) (h : line.2 = layout.joined) :
    ∃ loader', Loader.parseLine platform load path loader line = .ok loader' ∧
      loader'.properties = layout.line.apply loader.properties := by
  have htrim : line.2.trim = layout.line.text.trim := by rw [h, layout.trim_joined]
  cases hline : layout.line with
  | property p comment =>
    rw [hline] at htrim
    exact ⟨_, parseLine_property loader p comment htrim, Loader.define_properties _ _ _⟩
  | ignored ignored =>
    rw [hline] at htrim
    refine ⟨loader, parseLine_ignored loader ?_, rfl⟩
    rw [htrim]
    exact ignored.ignored

theorem parseLine_layouts : ∀ (layouts : List Layout) (lines : List (Nat × Text)) (loader : Loader),
    lines.map Prod.snd = layouts.map Layout.joined →
      ∃ loader', lines.foldlM (Loader.parseLine platform load path) loader = .ok loader' ∧
        loader'.properties = (layouts.map Layout.line).foldl Line.apply loader.properties
  | [], [], loader, _ => ⟨loader, rfl, rfl⟩
  | [], _ :: _, _, h => by simp at h
  | _ :: _, [], _, h => by simp at h
  | layout :: layouts, line :: lines, loader, h => by
    rw [List.map_cons, List.map_cons] at h
    obtain ⟨hline, hrest⟩ := List.cons.inj h
    obtain ⟨next, hnext, hproperties⟩ := parseLine_layout platform load path loader layout hline
    obtain ⟨loader', hloader', hlast⟩ := parseLine_layouts layouts lines next hrest
    refine ⟨loader', ?_, ?_⟩
    · rw [List.foldlM_cons, hnext]
      exact hloader'
    · rw [hlast, hproperties]
      rfl

theorem foldl_apply : ∀ (lines : List Line) (properties : BTreeMap Text Text),
    lines.foldl Line.apply properties =
      (lines.filterMap Line.pair).foldl (fun properties e => properties.insert e.1 e.2) properties
  | [], _ => rfl
  | line :: lines, properties => by
    rw [List.foldl_cons, foldl_apply lines]
    cases line with
    | property p comment => rfl
    | ignored line => rfl

/-- The numbered lines that `load_file` parses. -/
def numberedLines (text : Text) : List (Nat × Text) :=
  (logicalLines text).zipIdx.map (fun (line, index) => (index + 1, line))

theorem map_numberedLines (text : Text) : (numberedLines text).map Prod.snd = logicalLines text := by
  unfold numberedLines
  rw [List.map_map]
  exact List.zipIdx_map_fst 0 _

/-- **A file gives back the pairs it was written from**, the last one of each name. -/
theorem parse_fileText (platform : Platform) (load : Text → Bool → Loader → Except Error Loader) (path : Text)
    (loader : Loader) (terminated : Bool) (layouts : List Layout) :
    ∃ loader', (numberedLines (fileText terminated (layouts.flatMap Layout.physical))).foldlM
        (Loader.parseLine platform load path) loader = .ok loader' ∧
      ∀ name, loader'.properties.get name =
        (((layouts.map Layout.line).filterMap Line.pair).reverse.lookup name).or (loader.properties.get name) := by
  obtain ⟨blank, hblank, hlogical⟩ := logicalLines_fileText terminated layouts
  rw [← map_numberedLines] at hlogical
  generalize numberedLines (fileText terminated (layouts.flatMap Layout.physical)) = lines at hlogical
  have hmore : (lines ++ blank.map (fun line => (0, line))).map Prod.snd = layouts.map Layout.joined := by
    have hblanks : (blank.map (fun line => (0, line))).map Prod.snd = blank := by
      rw [List.map_map]
      exact List.map_id' blank
    rw [← hlogical, List.map_append, hblanks]
  obtain ⟨loader', hrun, hproperties⟩ :=
    parseLine_layouts platform load path layouts _ loader hmore
  refine ⟨loader', ?_, fun name => ?_⟩
  · rw [List.foldlM_append] at hrun
    obtain ⟨last, hlast, hrun⟩ := result_of_bind hrun
    rcases hblank with rfl | rfl
    · cases hrun
      exact hlast
    · rw [List.map_cons, List.foldlM_cons, parseLine_ignored last (.inl rfl)] at hrun
      cases hrun
      exact hlast
  · rw [hproperties, foldl_apply, BTreeMap.get_foldl_insert]

end ConfigFile
end Jss
