import Mathlib
import ServiceSteward.LogHistory
import ServiceSteward.Pieces
/-!
# LogDecoding — the records that can be read off a log

A log in the format `LPTM` is cut into lines at its line ends, and a line into four columns at its first three
separators.  The first three columns hold neither a line end nor a bar, so only a message can hold a line end of its own,
and only a label of a JVM can be too wide (`decodable_iff`).  No line captured from a JVM holds a line end.
-/
namespace Jss
namespace Log

open Pieces

/-! ## What a reader of the log does -/

/-- A line of the log shows its record: three columns of fixed widths, and the message as it was. -/
structure Decoded (record : Record) (line : Bytes) : Prop where
  columns : splitn separator 4 line = [Text.asBytes record.level.label, Text.asBytes record.source.label,
    Text.asBytes record.now.format, record.message]
  level : (Text.asBytes record.level.label).length = 6
  source : (Text.asBytes record.source.label).length = 8
  timestamp : (Text.asBytes record.now.format).length = 19

/-- Cut at its line ends, the log is one line for each record. -/
def Decodable (records : List Record) (log : Bytes) : Prop :=
  ∃ lines, split crlf log = lines ++ [[]] ∧ List.Forall₂ Decoded records lines

/-- What the file gets of some records. -/
def LogWriter.log (writer : LogWriter) (records : List Record) : Bytes := (records.flatMap writer.lines).flatten

/-- The records that go to the file. -/
def LogWriter.logged (writer : LogWriter) (records : List Record) : List Record :=
  records.filter (fun record => writer.writesFile record.level)

/-! ## The columns before the message -/

/-- A text of letters, digits and the like: no control character, and no bar. -/
def IsColumn (t : Text) : Prop := ∀ c ∈ t, 32 ≤ c.toNat ∧ c.toNat < 124

theorem asBytes_eq_map {t : Text} (h : IsColumn t) : t.asBytes = t.map (fun c => UInt8.ofNat c.toNat) := by
  induction t with
  | nil => rfl
  | cons c t ih =>
    have hc : c.val.toNat ≤ 0x7f := by
      have hbound := (h c List.mem_cons_self).2
      have hval : c.val.toNat = c.toNat := rfl
      omega
    have hbytes : String.utf8EncodeChar c = [UInt8.ofNat c.toNat] := by
      unfold String.utf8EncodeChar
      rw [if_pos hc]
      rfl
    have hparts : Text.asBytes (c :: t) = String.utf8EncodeChar c ++ Text.asBytes t := rfl
    rw [hparts, hbytes, ih (fun d hd => h d (List.mem_cons_of_mem _ hd))]
    rfl

theorem length_column {t : Text} (h : IsColumn t) : t.asBytes.length = t.length := by
  rw [asBytes_eq_map h, List.length_map]

theorem notMem_column {t : Text} (h : IsColumn t) {b : UInt8} (hb : b.toNat < 32 ∨ 124 ≤ b.toNat) : b ∉ t.asBytes := by
  rw [asBytes_eq_map h, List.mem_map]
  rintro ⟨c, hc, rfl⟩
  obtain ⟨hlow, hhigh⟩ := h c hc
  rw [toNat_ofNat_byte (by omega)] at hb
  omega

theorem IsColumn.append {s t : Text} (hs : IsColumn s) (ht : IsColumn t) : IsColumn (s ++ t) := by
  intro c hc
  rcases List.mem_append.1 hc with h | h
  · exact hs c h
  · exact ht c h

theorem isColumn_cons {c : Char} (hc : 32 ≤ c.toNat ∧ c.toNat < 124) {t : Text} (ht : IsColumn t) : IsColumn (c :: t) := by
  intro d hd
  rcases List.mem_cons.1 hd with rfl | hd
  · exact hc
  · exact ht d hd

theorem isColumn_replicate {c : Char} (hc : 32 ≤ c.toNat ∧ c.toNat < 124) (n : Nat) :
    IsColumn (List.replicate n c) := by
  intro d hd
  rw [(List.mem_replicate.1 hd).2]
  exact hc

theorem isColumn_ofNat (n : Nat) : IsColumn (Text.ofNat n) := by
  intro c hc
  have hdigit : c.isDigit = true := Nat.isDigit_of_mem_toDigits (by decide) (by decide) hc
  unfold Char.isDigit at hdigit
  rw [Bool.and_eq_true, decide_eq_true_eq, decide_eq_true_eq] at hdigit
  obtain ⟨hlow, hhigh⟩ := hdigit
  rw [ge_iff_le, UInt32.le_iff_toNat_le] at hlow
  rw [UInt32.le_iff_toNat_le] at hhigh
  have hval : c.val.toNat = c.toNat := rfl
  have hzero : ('0' : Char).val.toNat = 48 := rfl
  have hnine : ('9' : Char).val.toNat = 57 := rfl
  omega

theorem isColumn_zeroPadded (width n : Nat) : IsColumn (zeroPadded width n) :=
  (isColumn_replicate (by decide) _).append (isColumn_ofNat n)

/-- A fixed text is checked character by character. -/
theorem isColumn_of_all {t : Text} (h : t.all (fun c => 32 ≤ c.toNat ∧ c.toNat < 124) = true) : IsColumn t :=
  fun c hc => of_decide_eq_true (List.all_eq_true.1 h c hc)

theorem isColumn_level (level : LogLevel) : IsColumn level.label := by
  cases level with
  | _ => exact isColumn_of_all rfl

theorem isColumn_source (source : LogSource) : IsColumn source.label := by
  cases source with
  | jvm id =>
    have hname : IsColumn "jvm ".toList := isColumn_of_all rfl
    exact (hname.append (isColumn_ofNat id)).append (isColumn_replicate (by decide) _)
  | wrapper => exact isColumn_of_all rfl
  | protocol => exact isColumn_of_all rfl

theorem isColumn_format (now : LocalTime) : IsColumn now.format := by
  have hnumber : ∀ {c : Char}, 32 ≤ c.toNat ∧ c.toNat < 124 → ∀ n, IsColumn (c :: zeroPadded 2 n) :=
    fun hc n => isColumn_cons hc (isColumn_zeroPadded 2 n)
  have hdate := ((isColumn_zeroPadded 4 now.year).append (hnumber (c := '/') (by decide) now.month)).append
    (hnumber (c := '/') (by decide) now.day)
  exact ((hdate.append (hnumber (c := ' ') (by decide) now.hour)).append
    (hnumber (c := ':') (by decide) now.minute)).append (hnumber (c := ':') (by decide) now.second)

theorem length_zeroPadded {width n : Nat} (hwidth : 0 < width) (h : n < 10 ^ width) : (zeroPadded width n).length = width := by
  have hdigits : (Text.ofNat n).length ≤ width := (Nat.length_toDigits_le_iff (by decide) hwidth).2 h
  unfold zeroPadded
  rw [List.length_append, List.length_replicate]
  omega

theorem length_format (now : LocalTime) : now.format.length = 19 := by
  unfold LocalTime.format
  simp only [List.length_append, List.length_cons]
  rw [length_zeroPadded (by decide) now.year.isLt, length_zeroPadded (by decide) now.month.isLt,
    length_zeroPadded (by decide) now.day.isLt, length_zeroPadded (by decide) now.hour.isLt,
    length_zeroPadded (by decide) now.minute.isLt, length_zeroPadded (by decide) now.second.isLt]

theorem length_level (level : LogLevel) : level.label.length = 6 := by
  cases level <;> rfl

/-- The label of a source fits its column where a JVM's number has at most four digits. -/
theorem length_source (source : LogSource) : source.label.length = 8 ↔ ∀ id, source = .jvm id → id < 10000 := by
  cases source with
  | jvm id =>
    have hdigits : (Text.ofNat id).length ≤ 4 ↔ id < 10 ^ 4 := Nat.length_toDigits_le_iff (by decide) (by decide)
    have hlabel : (LogSource.jvm id).label.length =
        4 + (Text.ofNat id).length + (4 - (Text.ofNat id).length) := by
      unfold LogSource.label
      rw [List.length_append, List.length_append, List.length_replicate]
      rfl
    rw [hlabel]
    constructor
    · intro h other hother
      cases hother
      omega
    · intro h
      have hid := h id rfl
      omega
  | _ => exact ⟨fun _ id hid => (by cases hid), fun _ => rfl⟩

/-! ## One line -/

/-- What stands before the message. -/
def Record.header (record : Record) : Bytes :=
  Text.asBytes record.level.label ++ separator ++ Text.asBytes record.source.label ++ separator ++
    Text.asBytes record.now.format ++ separator

theorem render_lptm (record : Record) : record.render "LPTM" = record.header ++ record.message := by
  have hcolumns : "LPTM".toList.filterMap record.column =
      [Text.asBytes record.level.label, Text.asBytes record.source.label, Text.asBytes record.now.format,
        record.message] := rfl
  unfold Record.render Record.header
  rw [hcolumns]
  simp [List.intercalate]

theorem notMem_header (record : Record) : (13 : UInt8) ∉ record.header := by
  have hlevel : (13 : UInt8) ∉ Text.asBytes record.level.label := notMem_column (isColumn_level _) (by decide)
  have hsource : (13 : UInt8) ∉ Text.asBytes record.source.label := notMem_column (isColumn_source _) (by decide)
  have htime : (13 : UInt8) ∉ Text.asBytes record.now.format := notMem_column (isColumn_format _) (by decide)
  have hsep : (13 : UInt8) ∉ separator := by decide
  unfold Record.header
  simp only [List.mem_append, not_or]
  exact ⟨⟨⟨⟨⟨hlevel, hsep⟩, hsource⟩, hsep⟩, htime⟩, hsep⟩

/-- What starts with an element that a list does not have starts behind it. -/
theorem infix_of_infix_append {a b : UInt8} {m : Bytes} : ∀ {h : Bytes}, a ∉ h → [a, b] <:+: h ++ m → [a, b] <:+: m
  | [], _, hin => hin
  | c :: h, ha, hin => by
    rcases List.infix_cons_iff.1 hin with hpre | hin
    · rw [List.cons_prefix_cons] at hpre
      exact absurd (by rw [hpre.1]; exact List.mem_cons_self) ha
    · exact infix_of_infix_append (fun hmem => ha (List.mem_cons_of_mem _ hmem)) hin

theorem clear_line {record : Record} (h : ¬ crlf <:+: record.message) : Clear crlf (record.header ++ record.message) :=
  clear_of_not_infix (by decide) (fun hin => h (infix_of_infix_append (notMem_header record) hin))

theorem clear_column {t : Text} (h : IsColumn t) : Clear separator t.asBytes := by
  apply clear_of_not_infix (by decide)
  intro hin
  exact notMem_column h (b := 124) (by decide) (hin.subset (by decide))

theorem splitn_line (record : Record) : splitn separator 4 (record.header ++ record.message) =
    [Text.asBytes record.level.label, Text.asBytes record.source.label, Text.asBytes record.now.format,
      record.message] := by
  have hparts : record.header ++ record.message =
      Text.asBytes record.level.label ++ separator ++ (Text.asBytes record.source.label ++ separator ++
        (Text.asBytes record.now.format ++ separator ++ record.message)) := by
    unfold Record.header
    simp only [List.append_assoc]
  rw [hparts, splitn_append 2 (clear_column (isColumn_level _)), splitn_append 1 (clear_column (isColumn_source _)),
    splitn_append 0 (clear_column (isColumn_format _))]
  rfl

/-! ## The log -/

/-- The message of a record holds no line end, and its JVM has a number of at most four digits. -/
structure Plain (record : Record) : Prop where
  message : ¬ crlf <:+: record.message
  source : ∀ id, record.source = .jvm id → id < 10000

theorem decoded_of_plain {record : Record} (h : Plain record) : Decoded record (record.header ++ record.message) where
  columns := splitn_line record
  level := by rw [length_column (isColumn_level _), length_level]
  source := by rw [length_column (isColumn_source _), (length_source _).2 h.source]
  timestamp := by rw [length_column (isColumn_format _), length_format]

theorem log_eq {writer : LogWriter} (hformat : writer.format = "LPTM".toList) (records : List Record) :
    writer.log records = ((writer.logged records).map (fun r => r.header ++ r.message)).flatMap (· ++ crlf) := by
  unfold LogWriter.log LogWriter.logged
  induction records with
  | nil => rfl
  | cons record records ih =>
    rw [List.flatMap_cons, List.flatten_append, ih]
    unfold LogWriter.lines
    by_cases hlogged : writer.writesFile record.level = true
    · rw [List.filter_cons_of_pos (by exact hlogged), if_pos hlogged, LogWriter.line, hformat, render_lptm]
      simp
    · rw [List.filter_cons_of_neg (by exact hlogged), if_neg hlogged]
      rfl

theorem Decoded.message_infix {record : Record} {line : Bytes} (h : Decoded record line) : record.message <:+: line := by
  have hline : separator.intercalate (splitn separator 4 line) = line := intercalate_splitn 3 line
  rw [h.columns] at hline
  have hsuffix : record.message <:+ line := by
    refine ⟨record.header, ?_⟩
    rw [← hline]
    simp [Record.header, List.intercalate]
  exact hsuffix.isInfix

theorem line_of_record {records : List Record} {lines : List Bytes} (h : List.Forall₂ Decoded records lines) :
    ∀ record ∈ records, ∃ line ∈ lines, Decoded record line := by
  induction h with
  | nil => exact fun _ hrecord => absurd hrecord List.not_mem_nil
  | cons hdecoded _ ih =>
    intro record hrecord
    rcases List.mem_cons.1 hrecord with rfl | hrecord
    · exact ⟨_, List.mem_cons_self, hdecoded⟩
    · obtain ⟨line, hline, hrest⟩ := ih record hrecord
      exact ⟨line, List.mem_cons_of_mem _ hline, hrest⟩

/-- **What a log that can be read back was written from.** -/
theorem plain_of_decodable {records : List Record} {log : Bytes} (h : Decodable records log) :
    ∀ record ∈ records, Plain record := by
  obtain ⟨lines, hsplit, hlines⟩ := h
  intro record hrecord
  obtain ⟨line, hline, hdecoded⟩ := line_of_record hlines record hrecord
  have hpiece : line ∈ split crlf log := by
    rw [hsplit]
    exact List.mem_append_left _ hline
  constructor
  · intro hin
    exact not_infix_of_mem_split (by decide) hpiece (hin.trans hdecoded.message_infix)
  · apply (length_source _).1
    rw [← length_column (isColumn_source _)]
    exact hdecoded.source

/-- **Exactly the logs of plain records can be read back.** -/
theorem decodable_iff {writer : LogWriter} (hformat : writer.format = "LPTM".toList) (records : List Record) :
    Decodable (writer.logged records) (writer.log records) ↔ ∀ record ∈ writer.logged records, Plain record := by
  constructor
  · exact plain_of_decodable
  · intro hplain
    refine ⟨(writer.logged records).map (fun r => r.header ++ r.message), ?_, ?_⟩
    · rw [log_eq hformat]
      apply split_terminated (by decide)
      intro piece hpiece
      obtain ⟨record, hrecord, rfl⟩ := List.mem_map.1 hpiece
      exact clear_line (hplain record hrecord).message
    · apply List.forall₂_map_right_iff.2
      exact List.forall₂_same.2 (fun record hrecord => decoded_of_plain (hplain record hrecord))

/-! ## The lines captured from a JVM -/

def maxOutputLine : Nat := 64 * 1024

/-- A complete line without its line end. -/
def popLineEnd (line : Bytes) : Bytes :=
  if line.dropLast.getLast? = some 13 then line.dropLast.dropLast else line.dropLast

/-- A turn of the loop of `spawn_reader`: how much of the buffer it consumes, what it sends, and the line after it. -/
def readTurn (line buffer : Bytes) : Nat × Option Bytes × Bytes :=
  let newline := buffer.findIdx? (· == 10)
  let take := (newline.map (· + 1)).getD buffer.length
  let take := min take (max (maxOutputLine - line.length) 1)
  let line := line ++ buffer.take take
  if line.getLast? = some 10 then (take, some (popLineEnd line), [])
  else if line.length ≥ maxOutputLine then (take, some line, [])
  else (take, none, line)

/-- The turns that a buffer is consumed in.  A turn consumes at least one byte. -/
def readBuffer : Nat → Bytes → Bytes → List Bytes × Bytes
  | 0, line, _ => ([], line)
  | n + 1, line, buffer =>
    if buffer = [] then ([], line)
    else
      let (take, sent, next) := readTurn line buffer
      (sent.toList ++ (readBuffer n next (buffer.drop take)).1, (readBuffer n next (buffer.drop take)).2)

/-- The rest of `spawn_reader`, from inside a line on, with what `fill_buf` will return. -/
def readLines (line : Bytes) : List Bytes → List Bytes
  | [] => if line = [] then [] else [line]
  | buffer :: buffers =>
    (readBuffer buffer.length line buffer).1 ++ readLines (readBuffer buffer.length line buffer).2 buffers

/-- `spawn_reader`: the lines it sends. -/
def spawnReader (buffers : List Bytes) : List Bytes := readLines [] buffers

theorem notMem_of_last {l : Bytes} (hinit : (10 : UInt8) ∉ l.dropLast) (hlast : l.getLast? ≠ some 10) : (10 : UInt8) ∉ l := by
  rcases List.eq_nil_or_concat' l with rfl | ⟨init, b, rfl⟩
  · exact List.not_mem_nil
  · rw [List.dropLast_concat] at hinit
    rw [List.getLast?_concat] at hlast
    intro hmem
    rcases List.mem_append.1 hmem with h | h
    · exact hinit h
    · rw [List.mem_singleton] at h
      exact hlast (by rw [← h])

theorem notMem_popLineEnd {line : Bytes} (h : (10 : UInt8) ∉ line.dropLast) : (10 : UInt8) ∉ popLineEnd line := by
  unfold popLineEnd
  split
  · exact fun hmem => h (List.mem_of_mem_dropLast hmem)
  · exact h

/-- What a turn takes off the buffer holds a line feed at its end only. -/
theorem notMem_taken (buffer : Bytes) {take : Nat}
    (h : take ≤ ((buffer.findIdx? (· == 10)).map (· + 1)).getD buffer.length) : (10 : UInt8) ∉ (buffer.take take).dropLast := by
  rw [List.dropLast_eq_take, List.take_take]
  intro hmem
  obtain ⟨i, hi, hget⟩ := List.mem_take_iff_getElem.1 hmem
  rw [List.length_take] at hi
  cases hfind : buffer.findIdx? (· == 10) with
  | none =>
    have hall := List.findIdx?_eq_none_iff.1 hfind buffer[i] (List.getElem_mem _)
    simp [hget] at hall
  | some k =>
    rw [hfind] at h
    have hk : take ≤ k + 1 := h
    obtain ⟨hlt, -, hbefore⟩ := List.findIdx?_eq_some_iff_getElem.1 hfind
    have hnot := hbefore i (by omega)
    simp [hget] at hnot

/-- **No turn sends or keeps a line feed.** -/
theorem readTurn_clean {line : Bytes} (hline : (10 : UInt8) ∉ line) (buffer : Bytes) :
    (∀ sent ∈ (readTurn line buffer).2.1, (10 : UInt8) ∉ sent) ∧ (10 : UInt8) ∉ (readTurn line buffer).2.2 := by
  have htaken := notMem_taken buffer
    (Nat.min_le_left (((buffer.findIdx? (· == 10)).map (· + 1)).getD buffer.length) (max (maxOutputLine - line.length) 1))
  unfold readTurn
  dsimp only
  generalize buffer.take _ = taken at htaken
  have hinit : (10 : UInt8) ∉ (line ++ taken).dropLast := by
    rcases List.eq_nil_or_concat' taken with rfl | ⟨init, b, rfl⟩
    · rw [List.append_nil]
      exact fun hmem => hline (List.mem_of_mem_dropLast hmem)
    · rw [List.dropLast_concat] at htaken
      rw [← List.append_assoc, List.dropLast_concat, List.mem_append, not_or]
      exact ⟨hline, htaken⟩
  split
  · constructor
    · intro sent hsent
      cases hsent
      exact notMem_popLineEnd hinit
    · exact List.not_mem_nil
  · rename_i hlast
    have hclean := notMem_of_last hinit hlast
    split
    · constructor
      · intro sent hsent
        cases hsent
        exact hclean
      · exact List.not_mem_nil
    · exact ⟨fun sent hsent => (by cases hsent), hclean⟩

theorem readBuffer_clean : ∀ (n : Nat) {line : Bytes} (buffer : Bytes), (10 : UInt8) ∉ line →
    (∀ sent ∈ (readBuffer n line buffer).1, (10 : UInt8) ∉ sent) ∧ (10 : UInt8) ∉ (readBuffer n line buffer).2
  | 0, line, buffer, hline => ⟨fun sent hsent => absurd hsent List.not_mem_nil, hline⟩
  | n + 1, line, buffer, hline => by
    rw [readBuffer]
    by_cases hbuffer : buffer = []
    · rw [if_pos hbuffer]
      exact ⟨fun sent hsent => absurd hsent List.not_mem_nil, hline⟩
    · rw [if_neg hbuffer]
      obtain ⟨hsent, hnext⟩ := readTurn_clean hline buffer
      obtain ⟨hmore, hlast⟩ := readBuffer_clean n (buffer.drop (readTurn line buffer).1) hnext
      constructor
      · intro sent hmem
        rcases List.mem_append.1 hmem with h | h
        · exact hsent sent (Option.mem_toList.1 h)
        · exact hmore sent h
      · exact hlast

theorem readLines_clean : ∀ (buffers : List Bytes) {line : Bytes}, (10 : UInt8) ∉ line →
    ∀ sent ∈ readLines line buffers, (10 : UInt8) ∉ sent
  | [], line, hline, sent, hsent => by
    rw [readLines] at hsent
    split at hsent
    · cases hsent
    · rw [List.mem_singleton.1 hsent]
      exact hline
  | buffer :: buffers, line, hline, sent, hsent => by
    obtain ⟨hclean, hlast⟩ := readBuffer_clean buffer.length buffer hline
    rcases List.mem_append.1 hsent with h | h
    · exact hclean sent h
    · exact readLines_clean buffers hlast sent h

/-- **A captured line never adds a record**, whatever the JVM prints and however its pipe is read. -/
theorem captured_message (buffers : List Bytes) {line : Bytes} (h : line ∈ spawnReader buffers) : ¬ crlf <:+: line :=
  fun hin => readLines_clean buffers List.not_mem_nil line h (hin.subset (by decide))

/-! ## The default format -/

/-- A writer in the format that a configuration without one asks for. -/
def defaultWriter : LogWriter where
  path := "wrapper.log"
  currentSize := 0
  maxSize := 0
  maxFiles := 0
  rollOnJvmRestart := false
  format := "LPTM"
  threshold := .info
  consoleEnabled := false
  consoleFormat := "PM"
  consoleThreshold := .info
  consoleFlush := false

def noon : LocalTime := ⟨2024, 1, 2, 12, 0, 0, 0⟩

theorem logged_singleton {writer : LogWriter} {record : Record} (h : writer.writesFile record.level = true) :
    writer.logged [record] = [record] := by
  unfold LogWriter.logged
  rw [List.filter_cons_of_pos (by exact h)]
  rfl

theorem one_record_can_be_read_back :
    Decodable (defaultWriter.logged [⟨.info, .jvm 1, Text.asBytes "a | b\n", noon, 0⟩])
      (defaultWriter.log [⟨.info, .jvm 1, Text.asBytes "a | b\n", noon, 0⟩]) := by
  apply (decodable_iff rfl _).2
  intro record hrecord
  rw [logged_singleton (by decide), List.mem_singleton] at hrecord
  subst hrecord
  constructor
  · decide +kernel
  · intro id hid
    cases hid
    decide

/-- A log packet whose message holds a line end, and a record of a JVM with a number of five digits. -/
theorem two_logs_that_mislead :
    ¬ Decodable (defaultWriter.logged [⟨.warn, .jvm 1, Text.asBytes "one\r\ntwo", noon, 0⟩])
      (defaultWriter.log [⟨.warn, .jvm 1, Text.asBytes "one\r\ntwo", noon, 0⟩]) ∧
    ¬ Decodable (defaultWriter.logged [⟨.warn, .jvm 10000, Text.asBytes "one", noon, 0⟩])
      (defaultWriter.log [⟨.warn, .jvm 10000, Text.asBytes "one", noon, 0⟩]) := by
  constructor
  · intro h
    rw [logged_singleton (by decide)] at h
    have hplain := plain_of_decodable h _ List.mem_cons_self
    exact hplain.message (by decide +kernel)
  · intro h
    rw [logged_singleton (by decide)] at h
    have hplain := plain_of_decodable h _ List.mem_cons_self
    exact absurd (hplain.source 10000 rfl) (by decide)

end Log
end Jss
