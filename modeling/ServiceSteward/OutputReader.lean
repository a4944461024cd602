import ServiceSteward.Connection
import ServiceSteward.Incremental
import ServiceSteward.LogDecoding
/-!
# OutputReader — the records that a JVM's output is captured in

`spawn_reader` takes as much of a read as ends a line or fills the carried one.  Byte by byte it is a machine
(`readByte`) that the reads only feed, so how they cut the stream does not matter; what it puts out is the stream
without its line ends.  The line is sent on when it is full, before the next byte is seen: a line end that comes then
makes a record of its own (`recordsOf_iff`).
-/
namespace Jss
namespace Log

open Incremental (emitted)
open Protocol (ReadResult)

/-- The buffers that the loop of `spawn_reader` sees of what `fill_buf` returns. -/
def buffersOf : List ReadResult → List Bytes
  | [] => []
  | .ok [] :: _ => []
  | .ok buffer :: reads => buffer :: buffersOf reads
  | .error .interrupted :: reads => buffersOf reads
  | .error _ :: _ => []

/-- The bytes that were read. -/
def streamOf (reads : List ReadResult) : Bytes := (buffersOf reads).flatten

def recordsOf (reads : List ReadResult) : List Bytes := spawnReader (buffersOf reads)

/-- `spawn_reader` on one byte. -/
def readByte (line : Bytes) (b : UInt8) : Except Empty (Bytes × Option Bytes) :=
  if b = 10 then .ok ([], some (popLineEnd (line ++ [b])))
  else if line.length + 1 ≥ maxOutputLine then .ok ([], some (line ++ [b]))
  else .ok (line ++ [b], none)

/-! ## The loop is the machine -/

theorem emitted_plain : ∀ (init line : Bytes), (10 : UInt8) ∉ init → line.length + init.length < maxOutputLine →
    emitted readByte line init = ([], .ok (line ++ init))
  | [], line, _, _ => by rw [List.append_nil]; rfl
  | b :: init, line, hnot, hlen => by
    have hb : b ≠ 10 := fun heq => hnot (heq ▸ List.mem_cons_self)
    rw [List.length_cons] at hlen
    have hstep : readByte line b = .ok (line ++ [b], none) := by
      unfold readByte
      rw [if_neg hb, if_neg (by omega)]
    have hrest := emitted_plain init (line ++ [b]) (fun h => hnot (List.mem_cons_of_mem _ h))
      (by rw [List.length_append, List.length_singleton]; omega)
    rw [Incremental.emitted_cons, hstep]
    dsimp only
    rw [hrest, List.append_assoc]
    rfl

/-- How much of a buffer a turn takes. -/
def taken (line buffer : Bytes) : Nat :=
  min (((buffer.findIdx? (· == 10)).map (· + 1)).getD buffer.length) (max (maxOutputLine - line.length) 1)

/-- What is sent of a line that has grown, and what is kept of it. -/
def passOn (line : Bytes) : Option Bytes × Bytes :=
  if line.getLast? = some 10 then (some (popLineEnd line), [])
  else if line.length ≥ maxOutputLine then (some line, [])
  else (none, line)

theorem readTurn_eq (line buffer : Bytes) :
    readTurn line buffer = (taken line buffer, passOn (line ++ buffer.take (taken line buffer))) := by
  unfold readTurn passOn taken
  dsimp only
  generalize line ++ buffer.take _ = grown
  by_cases hend : grown.getLast? = some 10
  · rw [if_pos hend, if_pos hend]
  · rw [if_neg hend, if_neg hend]
    by_cases hfull : grown.length ≥ maxOutputLine
    · rw [if_pos hfull, if_pos hfull]
    · rw [if_neg hfull, if_neg hfull]

theorem readByte_eq (line : Bytes) (b : UInt8) :
    readByte line b = .ok ((passOn (line ++ [b])).2, (passOn (line ++ [b])).1) := by
  unfold readByte passOn
  rw [List.getLast?_concat, List.length_append, List.length_singleton]
  by_cases hb : b = 10
  · rw [if_pos hb, if_pos (by rw [hb])]
  · have hne : ¬ some b = some (10 : UInt8) := fun heq => hb (Option.some.inj heq)
    rw [if_neg hb, if_neg hne]
    split
    · rfl
    · rfl

theorem length_passOn (line : Bytes) : (passOn line).2.length < maxOutputLine := by
  have hmax : 0 < maxOutputLine := by decide
  unfold passOn
  split
  · exact hmax
  · split
    · exact hmax
    · rename_i hshort
      exact Nat.lt_of_not_le hshort

/-- A turn takes something, and no more than there is. -/
theorem taken_progress (line : Bytes) {buffer : Bytes} (h : buffer ≠ []) :
    0 < taken line buffer ∧ taken line buffer ≤ buffer.length := by
  have hpos : 0 < buffer.length := List.length_pos_iff.2 h
  unfold taken
  cases hfind : buffer.findIdx? (· == 10) with
  | none =>
    simp only [Option.map_none, Option.getD_none]
    omega
  | some i =>
    have hlt := (List.findIdx?_eq_some_iff_getElem.1 hfind).1
    simp only [Option.map_some, Option.getD_some]
    omega

/-- **A turn is the machine on the bytes it takes.** -/
theorem emitted_taken {line buffer : Bytes} (hline : line.length < maxOutputLine) (hbuffer : buffer ≠ []) :
    emitted readByte line (buffer.take (taken line buffer)) =
      ((passOn (line ++ buffer.take (taken line buffer))).1.toList,
        .ok (passOn (line ++ buffer.take (taken line buffer))).2) := by
  obtain ⟨hpos, hle⟩ := taken_progress line hbuffer
  have hclean := notMem_taken buffer (Nat.min_le_left (((buffer.findIdx? (· == 10)).map (· + 1)).getD buffer.length)
    (max (maxOutputLine - line.length) 1))
  have hroom : taken line buffer ≤ max (maxOutputLine - line.length) 1 := Nat.min_le_right _ _
  have hlength : (buffer.take (taken line buffer)).length = taken line buffer := by
    rw [List.length_take]
    omega
  unfold taken at hclean hlength hpos hroom ⊢
  generalize buffer.take _ = bytes at hclean hlength ⊢
  rcases List.eq_nil_or_concat' bytes with rfl | ⟨init, b, rfl⟩
  · rw [← hlength] at hpos
    cases hpos
  · rw [List.dropLast_concat] at hclean
    rw [List.length_append, List.length_singleton] at hlength
    have hplain := emitted_plain init line hclean (by omega)
    rw [Incremental.emitted_append_of_ok _ hplain, Incremental.emitted_cons, readByte_eq, ← List.append_assoc]
    simp

/-- The turns of one buffer. -/
theorem readBuffer_emitted : ∀ (n : Nat) (line buffer : Bytes), line.length < maxOutputLine → buffer.length ≤ n →
    emitted readByte line buffer = ((readBuffer n line buffer).1, .ok (readBuffer n line buffer).2) ∧
      (readBuffer n line buffer).2.length < maxOutputLine
  | 0, line, buffer, hline, hlen => by
    rw [List.length_eq_zero_iff.1 (Nat.le_zero.1 hlen)]
    exact ⟨rfl, hline⟩
  | n + 1, line, buffer, hline, hlen => by
    rw [readBuffer]
    by_cases hbuffer : buffer = []
    · rw [if_pos hbuffer, hbuffer]
      exact ⟨rfl, hline⟩
    · obtain ⟨hpos, -⟩ := taken_progress line hbuffer
      have hfirst := emitted_taken hline hbuffer
      have hrest := readBuffer_emitted n (passOn (line ++ buffer.take (taken line buffer))).2
        (buffer.drop (taken line buffer)) (length_passOn _) (by rw [List.length_drop]; omega)
      rw [if_neg hbuffer, readTurn_eq]
      refine ⟨?_, hrest.2⟩
      have hboth := Incremental.emitted_append_of_ok _ hfirst (buffer.drop (taken line buffer))
      rw [List.take_append_drop] at hboth
      rw [hboth, hrest.1]

/-- The line that is left when the reads end. -/
def lastLine (line : Bytes) : List Bytes := if line = [] then [] else [line]

/-- **The loop is the machine on the stream**, however the reads cut it. -/
theorem readLines_emitted : ∀ (buffers : List Bytes) (line : Bytes), line.length < maxOutputLine →
    ∃ sent last, emitted readByte line buffers.flatten = (sent, .ok last) ∧ last.length < maxOutputLine ∧
      readLines line buffers = sent ++ lastLine last
  | [], line, hline => ⟨[], line, rfl, hline, rfl⟩
  | buffer :: buffers, line, hline => by
    obtain ⟨hfirst, hshort⟩ := readBuffer_emitted buffer.length line buffer hline (Nat.le_refl _)
    obtain ⟨sent, last, hrest, hlast, hlines⟩ := readLines_emitted buffers _ hshort
    refine ⟨(readBuffer buffer.length line buffer).1 ++ sent, last, ?_, hlast, ?_⟩
    · rw [List.flatten_cons, Incremental.emitted_append_of_ok _ hfirst, hrest]
    · rw [readLines, hlines, List.append_assoc]

theorem recordsOf_eq (reads : List ReadResult) :
    ∃ sent last, emitted readByte [] (streamOf reads) = (sent, .ok last) ∧ last.length < maxOutputLine ∧
      recordsOf reads = sent ++ lastLine last :=
  readLines_emitted (buffersOf reads) [] (by decide)

/-! ## What the machine puts out -/

/-- A stream, and what is left of it without its line feeds and some of the carriage returns right before one. -/
inductive WithoutLineEnds : Bytes → Bytes → Prop
  | nil : WithoutLineEnds [] []
  | keep (b : UInt8) {s t : Bytes} : b ≠ 10 → WithoutLineEnds s t → WithoutLineEnds (b :: s) (b :: t)
  | lf {s t : Bytes} : WithoutLineEnds s t → WithoutLineEnds (10 :: s) t
  | crlf {s t : Bytes} : WithoutLineEnds s t → WithoutLineEnds (13 :: 10 :: s) t

theorem WithoutLineEnds.plain : ∀ {line : Bytes}, (10 : UInt8) ∉ line → WithoutLineEnds line line
  | [], _ => .nil
  | b :: _, h => .keep b (fun heq => h (heq ▸ List.mem_cons_self)) (.plain (fun hmem => h (List.mem_cons_of_mem _ hmem)))

theorem WithoutLineEnds.append {s t s' t' : Bytes} (h : WithoutLineEnds s t) (h' : WithoutLineEnds s' t') :
    WithoutLineEnds (s ++ s') (t ++ t') := by
  induction h with
  | nil => exact h'
  | keep b hb _ ih => exact .keep b hb ih
  | lf _ ih => exact .lf ih
  | crlf _ ih => exact .crlf ih

/-- A complete line is sent without its line end. -/
theorem withoutLineEnds_popLineEnd {line : Bytes} (h : (10 : UInt8) ∉ line) :
    WithoutLineEnds (line ++ [10]) (popLineEnd (line ++ [10])) := by
  unfold popLineEnd
  rw [List.dropLast_concat]
  split
  · rename_i hcr
    obtain ⟨init, rfl⟩ := List.getLast?_eq_some_iff.1 hcr
    rw [List.dropLast_concat, List.append_assoc]
    have hinit : (10 : UInt8) ∉ init := fun hmem => h (List.mem_append_left _ hmem)
    have hboth := (WithoutLineEnds.plain hinit).append (.crlf .nil)
    rw [List.append_nil] at hboth
    exact hboth
  · have hboth := (WithoutLineEnds.plain h).append (.lf .nil)
    rw [List.append_nil] at hboth
    exact hboth

theorem length_popLineEnd (line : Bytes) : (popLineEnd (line ++ [10])).length ≤ line.length := by
  unfold popLineEnd
  rw [List.dropLast_concat]
  split
  · rw [List.length_dropLast]
    omega
  · exact Nat.le_refl _

/-- One byte: the line grows, or all of it is sent without its line end. -/
theorem readByte_cases {line : Bytes} (b : UInt8) (hline : line.length < maxOutputLine) (hclean : (10 : UInt8) ∉ line) :
    (readByte line b = .ok (line ++ [b], none) ∧ (line ++ [b]).length < maxOutputLine ∧ (10 : UInt8) ∉ line ++ [b]) ∨
      ∃ record, readByte line b = .ok ([], some record) ∧ record.length ≤ maxOutputLine ∧
        WithoutLineEnds (line ++ [b]) record := by
  unfold readByte
  by_cases hb : b = 10
  · have hlength := length_popLineEnd line
    rw [if_pos hb, hb]
    exact .inr ⟨_, rfl, by omega, withoutLineEnds_popLineEnd hclean⟩
  · have hgrown : (10 : UInt8) ∉ line ++ [b] := by
      intro hmem
      rcases List.mem_append.1 hmem with hmem | hmem
      · exact hclean hmem
      · exact hb (List.mem_singleton.1 hmem).symm
    have hlength : (line ++ [b]).length = line.length + 1 := by rw [List.length_append, List.length_singleton]
    rw [if_neg hb]
    by_cases hfull : line.length + 1 ≥ maxOutputLine
    · rw [if_pos hfull]
      exact .inr ⟨_, rfl, by omega, .plain hgrown⟩
    · rw [if_neg hfull]
      exact .inl ⟨rfl, by omega, hgrown⟩

/-- **Of any stream**: no record is too long, and nothing is lost but line ends. -/
theorem emitted_keeps : ∀ (stream : Bytes) {line : Bytes} {sent : List Bytes} {last : Bytes},
    line.length < maxOutputLine → (10 : UInt8) ∉ line → emitted readByte line stream = (sent, .ok last) →
    (∀ record ∈ sent, record.length ≤ maxOutputLine) ∧ WithoutLineEnds (line ++ stream) (sent.flatten ++ last)
  | [], line, sent, last, _, hclean, h => by
    cases h
    refine ⟨fun record hrecord => absurd hrecord List.not_mem_nil, ?_⟩
    rw [List.append_nil]
    exact .plain hclean
  | b :: stream, line, sent, last, hline, hclean, h => by
    rw [Incremental.emitted_cons] at h
    rcases readByte_cases b hline hclean with ⟨hstep, hshort, hgrown⟩ | ⟨record, hstep, hfits, hends⟩
    · rw [hstep] at h
      obtain ⟨hall, hends⟩ := emitted_keeps stream hshort hgrown h
      rw [List.append_assoc] at hends
      exact ⟨hall, hends⟩
    · rw [hstep] at h
      obtain ⟨hsent, hlast⟩ := Prod.mk.inj h
      obtain ⟨hall, hrest⟩ := emitted_keeps stream (by decide) List.not_mem_nil (Prod.ext rfl hlast)
      rw [← hsent]
      constructor
      · intro other hother
        rcases List.mem_append.1 hother with hmem | hmem
        · rw [List.mem_singleton.1 hmem]
          exact hfits
        · exact hall other hmem
      · have hboth := hends.append hrest
        simpa using hboth

theorem lastLine_flatten (line : Bytes) : (lastLine line).flatten = line := by
  unfold lastLine
  by_cases hline : line = []
  · rw [if_pos hline, hline]
    rfl
  · rw [if_neg hline]
    exact List.flatten_singleton

/-- **The records are those of the stream**: two ways to read it give the same; none is longer than the bound; joined
they are the stream without its line feeds and some of the carriage returns right before one; and every turn of the
loop takes at least one byte of the buffer, and no more than there are. -/
theorem records_of_the_stream (reads reads' : List ReadResult) (h : streamOf reads = streamOf reads') :
    recordsOf reads = recordsOf reads' ∧
    (∀ record ∈ recordsOf reads, record.length ≤ maxOutputLine) ∧
    WithoutLineEnds (streamOf reads) (recordsOf reads).flatten ∧
    ∀ line buffer, buffer ≠ [] → 0 < (readTurn line buffer).1 ∧ (readTurn line buffer).1 ≤ buffer.length := by
  obtain ⟨sent, last, hemitted, hshort, hrecords⟩ := recordsOf_eq reads
  obtain ⟨sent', last', hemitted', -, hrecords'⟩ := recordsOf_eq reads'
  obtain ⟨hfits, hends⟩ := emitted_keeps (streamOf reads) (by decide) List.not_mem_nil hemitted
  refine ⟨?_, fun record hrecord => ?_, ?_, fun line buffer hbuffer => ?_⟩
  · rw [h, hemitted'] at hemitted
    cases hemitted
    rw [hrecords, hrecords']
  · rw [hrecords] at hrecord
    rcases List.mem_append.1 hrecord with hmem | hmem
    · exact hfits record hmem
    · unfold lastLine at hmem
      split at hmem
      · cases hmem
      · rw [List.mem_singleton.1 hmem]
        omega
  · rw [hrecords, List.flatten_append, lastLine_flatten]
    exact hends
  · rw [readTurn_eq]
    exact taken_progress line hbuffer

theorem two_ways_to_read_a_line :
    recordsOf [.ok [97, 13], .error .interrupted, .ok [10, 98]] = recordsOf [.ok [97, 13, 10, 98], .ok []] :=
  (records_of_the_stream [.ok [97, 13], .error .interrupted, .ok [10, 98]] [.ok [97, 13, 10, 98], .ok []] rfl).1

/-! ## How many records a line makes -/

/-- A line of a stream.  A carriage return before its line feed is part of the line end. -/
structure TerminatedLine where
  content : Bytes
  crlf : Bool
  noLineFeed : (10 : UInt8) ∉ content
  noReturn : crlf = false → content.getLast? ≠ some 13

def TerminatedLine.bytes (line : TerminatedLine) : Bytes := line.content ++ if line.crlf then [13, 10] else [10]

/-- The bytes that fill a line are sent when the last of them is read. -/
theorem emitted_full {block : Bytes} (hclean : (10 : UInt8) ∉ block) (hfull : block.length = maxOutputLine) :
    emitted readByte [] block = ([block], .ok []) := by
  rcases List.eq_nil_or_concat' block with rfl | ⟨init, b, rfl⟩
  · cases hfull
  · rw [List.length_append, List.length_singleton] at hfull
    have hinit : (10 : UInt8) ∉ init := fun hmem => hclean (List.mem_append_left _ hmem)
    have hb : b ≠ 10 := fun heq => hclean (by simp [heq])
    have hstep : readByte init b = .ok ([], some (init ++ [b])) := by
      unfold readByte
      rw [if_neg hb, if_pos (by omega)]
    have hplain := emitted_plain init [] hinit (by rw [List.length_nil]; omega)
    rw [List.nil_append] at hplain
    rw [Incremental.emitted_append_of_ok _ hplain, Incremental.emitted_cons, hstep]
    rfl

/-- The content of a line: its full blocks are sent, the rest is carried. -/
theorem emitted_content : ∀ (n : Nat) (content : Bytes), content.length ≤ n → (10 : UInt8) ∉ content →
    ∃ blocks rest, emitted readByte [] content = (blocks, .ok rest) ∧ content = blocks.flatten ++ rest ∧
      blocks.length = content.length / maxOutputLine ∧ rest.length = content.length % maxOutputLine
  | n, content, hlen, hclean => by
    by_cases hshort : content.length < maxOutputLine
    · have hplain := emitted_plain content [] hclean (by rw [List.length_nil]; omega)
      refine ⟨[], content, hplain, rfl, ?_, ?_⟩
      · rw [Nat.div_eq_of_lt hshort]
        rfl
      · rw [Nat.mod_eq_of_lt hshort]
    · have hmax : maxOutputLine = 65536 := rfl
      cases n with
      | zero => omega
      | succ n =>
        have hsplit := List.take_append_drop maxOutputLine content
        have htake : (content.take maxOutputLine).length = maxOutputLine := by
          rw [List.length_take]
          omega
        have hfull := emitted_full (fun hmem => hclean (List.mem_of_mem_take hmem)) htake
        have hdrop : (content.drop maxOutputLine).length = content.length - maxOutputLine := List.length_drop
        obtain ⟨blocks, rest, hemitted, hcontent, hblocks, hrest⟩ := emitted_content n (content.drop maxOutputLine)
          (by omega) (fun hmem => hclean (List.mem_of_mem_drop hmem))
        refine ⟨content.take maxOutputLine :: blocks, rest, ?_, ?_, ?_, ?_⟩
        · have hboth := Incremental.emitted_append_of_ok _ hfull (content.drop maxOutputLine)
          rw [hsplit, hemitted] at hboth
          exact hboth
        · rw [List.flatten_cons, List.append_assoc, ← hcontent, hsplit]
        · rw [List.length_cons, hblocks, hdrop, ← Nat.div_eq_sub_div (by decide) (by omega)]
        · rw [hrest, hdrop, ← Nat.mod_eq_sub_mod (by omega)]

theorem readByte_lf (line : Bytes) : readByte line 10 = .ok ([], some (popLineEnd (line ++ [10]))) := rfl

/-- **The records of one line**, and that nothing of it is carried on. -/
theorem emitted_line (line : TerminatedLine) : ∃ blocks rest,
    line.content = blocks.flatten ++ rest ∧ blocks.length = line.content.length / maxOutputLine ∧
    rest.length = line.content.length % maxOutputLine ∧
    emitted readByte [] line.bytes =
      (blocks ++ (if line.crlf ∧ rest.length + 1 = maxOutputLine then [rest ++ [13], []] else [rest]), .ok []) := by
  obtain ⟨blocks, rest, hemitted, hcontent, hblocks, hrest⟩ :=
    emitted_content line.content.length line.content (Nat.le_refl _) line.noLineFeed
  refine ⟨blocks, rest, hcontent, hblocks, hrest, ?_⟩
  have hshort : rest.length < maxOutputLine := by
    rw [hrest]
    exact Nat.mod_lt _ (by decide)
  unfold TerminatedLine.bytes
  rw [Incremental.emitted_append_of_ok _ hemitted]
  cases hcrlf : line.crlf with
  | false =>
    have hreturn : rest.getLast? ≠ some 13 := by
      intro hlast
      obtain ⟨init, rfl⟩ := List.getLast?_eq_some_iff.1 hlast
      apply line.noReturn hcrlf
      rw [hcontent, ← List.append_assoc, List.getLast?_concat]
    have hpop : popLineEnd (rest ++ [10]) = rest := by
      unfold popLineEnd
      rw [List.dropLast_concat, if_neg hreturn]
    rw [if_neg (by simp), if_neg (by simp), Incremental.emitted_cons, readByte_lf, hpop]
    rfl
  | true =>
    rw [if_pos rfl, Incremental.emitted_cons]
    by_cases hfull : rest.length + 1 = maxOutputLine
    · have hstep : readByte rest 13 = .ok ([], some (rest ++ [13])) := by
        unfold readByte
        rw [if_neg (by decide), if_pos (by omega)]
      rw [if_pos ⟨rfl, hfull⟩, hstep]
      rfl
    · have hstep : readByte rest 13 = .ok (rest ++ [13], none) := by
        unfold readByte
        rw [if_neg (by decide), if_neg (by omega)]
      have hpop : popLineEnd (rest ++ [13] ++ [10]) = rest := by
        unfold popLineEnd
        rw [List.dropLast_concat, List.getLast?_concat, if_pos rfl, List.dropLast_concat]
      rw [if_neg (fun hboth => hfull hboth.2), hstep]
      dsimp only
      rw [Incremental.emitted_cons, readByte_lf, hpop]
      rfl

/-- How many records a line should make: one for each started block, and one if it is empty. -/
def expectedRecords (line : TerminatedLine) : Nat :=
  max 1 ((line.content.length + maxOutputLine - 1) / maxOutputLine)

/-- The line end does not come when the carried line has just been sent, nor between its two bytes. -/
def EndsInside (line : TerminatedLine) : Prop :=
  (line.content.length = 0 ∨ line.content.length % maxOutputLine ≠ 0) ∧
    (line.crlf = true → line.content.length % maxOutputLine ≠ maxOutputLine - 1)

theorem spawnReader_line {line : TerminatedLine} {sent : List Bytes} (h : emitted readByte [] line.bytes = (sent, .ok [])) :
    spawnReader [line.bytes] = sent := by
  obtain ⟨sent', last, hemitted, -, hlines⟩ := readLines_emitted [line.bytes] [] (by decide)
  rw [List.flatten_singleton, h] at hemitted
  cases hemitted
  unfold spawnReader
  rw [hlines]
  exact List.append_nil _

theorem expectedRecords_eq (line : TerminatedLine) : expectedRecords line =
    if line.content.length = 0 ∨ line.content.length % maxOutputLine ≠ 0 then line.content.length / maxOutputLine + 1
    else line.content.length / maxOutputLine := by
  have hmax : maxOutputLine = 65536 := rfl
  unfold expectedRecords
  rw [hmax]
  split
  · omega
  · omega

/-- **One line** makes the records it should make, and none of them holds a byte of the line end, exactly if its line
end comes inside a carried line. -/
theorem line_records_iff (line : TerminatedLine) :
    ((spawnReader [line.bytes]).length = expectedRecords line ∧ (spawnReader [line.bytes]).flatten = line.content) ↔
      EndsInside line := by
  obtain ⟨blocks, rest, hcontent, hblocks, hrest, hemitted⟩ := emitted_line line
  have hmax : maxOutputLine = 65536 := rfl
  rw [spawnReader_line hemitted, expectedRecords_eq]
  unfold EndsInside
  by_cases hbetween : line.crlf = true ∧ rest.length + 1 = maxOutputLine
  · -- the carriage return fills the carried line, and the line feed makes a record of its own
    rw [if_pos hbetween]
    have hsplit : ¬ (line.crlf = true → line.content.length % maxOutputLine ≠ maxOutputLine - 1) := by
      intro hnot
      exact hnot hbetween.1 (by omega)
    have hlonger : (blocks ++ [rest ++ [13], []]).flatten ≠ line.content := by
      intro heq
      have hlength := congrArg List.length heq
      rw [hcontent] at hlength
      simp only [List.flatten_append, List.length_append, List.flatten_cons, List.flatten_nil, List.length_cons,
        List.length_nil] at hlength
      omega
    exact ⟨fun hboth => absurd hboth.2 hlonger, fun hboth => absurd hboth.2 hsplit⟩
  · rw [if_neg hbetween]
    have hinside : line.crlf = true → line.content.length % maxOutputLine ≠ maxOutputLine - 1 := by
      intro hcrlf heq
      exact hbetween ⟨hcrlf, by omega⟩
    have hflatten : (blocks ++ [rest]).flatten = line.content := by
      rw [hcontent, List.flatten_append, List.flatten_singleton]
    have hlength : (blocks ++ [rest]).length = line.content.length / maxOutputLine + 1 := by
      rw [List.length_append, hblocks]
      rfl
    rw [hlength, hflatten]
    split
    · rename_i hgood
      exact ⟨fun _ => ⟨hgood, hinside⟩, fun _ => ⟨rfl, rfl⟩⟩
    · rename_i hbad
      exact ⟨fun hboth => absurd hboth.1 (by omega), fun hboth => absurd hboth.1 hbad⟩

/-- The lines of a stream are recorded one after the other. -/
theorem emitted_lines : ∀ lines : List TerminatedLine,
    emitted readByte [] (lines.flatMap TerminatedLine.bytes) =
      (lines.flatMap (fun line => spawnReader [line.bytes]), .ok [])
  | [] => rfl
  | line :: lines => by
    obtain ⟨blocks, rest, -, -, -, hemitted⟩ := emitted_line line
    rw [List.flatMap_cons, List.flatMap_cons, Incremental.emitted_append_of_ok _ hemitted, emitted_lines lines,
      spawnReader_line hemitted]

/-- **The lines of a stream make the records they should make exactly if every line end comes inside a carried line.** -/
theorem records_per_line_iff (lines : List TerminatedLine) (reads : List ReadResult)
    (h : streamOf reads = lines.flatMap TerminatedLine.bytes) :
    recordsOf reads = lines.flatMap (fun line => spawnReader [line.bytes]) ∧
    ((∀ line ∈ lines, (spawnReader [line.bytes]).length = expectedRecords line ∧
        (spawnReader [line.bytes]).flatten = line.content) ↔ ∀ line ∈ lines, EndsInside line) := by
  constructor
  · obtain ⟨sent, last, hemitted, -, hrecords⟩ := recordsOf_eq reads
    rw [h, emitted_lines] at hemitted
    cases hemitted
    rw [hrecords]
    exact List.append_nil _
  · exact forall₂_congr (fun line _ => line_records_iff line)

def shortLine : TerminatedLine := ⟨[97], true, by decide, by decide⟩

theorem a_short_line_makes_its_record :
    recordsOf [.ok [97, 13], .ok [10]] = [shortLine].flatMap (fun line => spawnReader [line.bytes]) :=
  (records_per_line_iff [shortLine] [.ok [97, 13], .ok [10]] rfl).1

/-- A line of just 64 KiB. -/
def fullLine : TerminatedLine where
  content := List.replicate maxOutputLine 120
  crlf := false
  noLineFeed := by simp
  noReturn _ := by
    rw [List.getLast?_replicate]
    decide

/-- A line of one byte less, that ends with a carriage return and a line feed. -/
def almostFullLine : TerminatedLine := ⟨List.replicate (maxOutputLine - 1) 120, true, by simp, by simp⟩

/-- The first makes an empty record more; the second makes one that ends with the carriage return. -/
theorem full_lines_are_split :
    ¬ ((spawnReader [fullLine.bytes]).length = expectedRecords fullLine ∧
        (spawnReader [fullLine.bytes]).flatten = fullLine.content) ∧
    ¬ ((spawnReader [almostFullLine.bytes]).length = expectedRecords almostFullLine ∧
        (spawnReader [almostFullLine.bytes]).flatten = almostFullLine.content) := by
  have hfull : fullLine.content.length = maxOutputLine := List.length_replicate
  have halmost : almostFullLine.content.length = maxOutputLine - 1 := List.length_replicate
  rw [line_records_iff, line_records_iff]
  unfold EndsInside
  rw [hfull, halmost]
  constructor
  · rintro ⟨hzero | hmod, -⟩
    · cases hzero
    · exact hmod (Nat.mod_self _)
  · rintro ⟨-, hcrlf⟩
    exact hcrlf rfl (Nat.mod_eq_of_lt (by decide))

end Log
end Jss
