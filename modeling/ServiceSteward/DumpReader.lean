import ServiceSteward.Connection
import ServiceSteward.Groups
/-!
# DumpReader — the records that a thread dump of `jcmd` is captured in

`spawn_reader` of `thread_dump.rs` makes its records of one buffer at a time and carries nothing over, so a line that
two buffers share is recorded in pieces.
-/
namespace Jss
namespace ThreadDump

open Groups (cut closesAtEnd)

def maxOutputLine : Nat := 64 * 1024

/-- The capacity of `BufReader::new`. -/
def bufferCapacity : Nat := 8 * 1024

/-- A stream as `fill_buf` delivers it before its end. -/
structure Delivery where
  buffers : List Bytes
  ne_nil : ∀ buffer ∈ buffers, buffer ≠ []
  fits : ∀ buffer ∈ buffers, buffer.length ≤ bufferCapacity

def isLineFeed (b : UInt8) : Bool := b == 10

/-- A record without the line end. -/
def trimLine (line : Bytes) : Bytes :=
  let line := if line.getLast? = some 10 then line.dropLast else line
  if line.getLast? = some 13 then line.dropLast else line

/-- A turn of the loop of `spawn_reader` on what is left of a buffer: how much it consumes, and the record it sends. -/
def readTurn (buffer : Bytes) : Nat × Bytes :=
  let newline := buffer.findIdx? isLineFeed
  let consumed := (newline.map (· + 1)).getD buffer.length
  (consumed, trimLine (buffer.take (min consumed maxOutputLine)))

/-- The turns that a buffer is consumed in. -/
def readBuffer : Nat → Bytes → List Bytes
  | 0, _ => []
  | n + 1, buffer =>
    if buffer = [] then []
    else (readTurn buffer).2 :: readBuffer n (buffer.drop (readTurn buffer).1)

/-- `spawn_reader`: the records it sends. -/
def spawnReader (buffers : List Bytes) : List Bytes := buffers.flatMap (fun buffer => readBuffer buffer.length buffer)

/-! ## The records are the pieces that the buffers cut the lines into -/

/-- The lines of a stream, each with its line feed. -/
def linesOf (stream : Bytes) : List Bytes := cut isLineFeed stream

/-- For each line of the stream, the pieces that the buffers cut it into. -/
def linePieces (buffers : List Bytes) : List (List Bytes) := cut (closesAtEnd isLineFeed) (buffers.flatMap linesOf)

/-- A turn takes the first line of the buffer. -/
theorem linesOf_turn : ∀ {buffer : Bytes}, buffer ≠ [] →
    0 < (readTurn buffer).1 ∧ (readTurn buffer).1 ≤ buffer.length ∧
      linesOf buffer = buffer.take (readTurn buffer).1 :: linesOf (buffer.drop (readTurn buffer).1)
  | b :: rest, _ => by
    cases hb : isLineFeed b with
    | true =>
      have hturn : (readTurn (b :: rest)).1 = 1 := by
        unfold readTurn
        rw [List.findIdx?_cons, hb]
        rfl
      rw [hturn]
      exact ⟨by omega, by simp, Groups.cut_closed hb rest⟩
    | false =>
      have hturn : (readTurn (b :: rest)).1 = (readTurn rest).1 + 1 := by
        unfold readTurn
        rw [List.findIdx?_cons, hb, if_neg (by simp)]
        dsimp only
        cases rest.findIdx? isLineFeed with
        | none => rfl
        | some i => rfl
      rw [hturn, List.take_succ_cons, List.drop_succ_cons]
      unfold linesOf
      by_cases hrest : rest = []
      · subst hrest
        exact ⟨by omega, Nat.le_refl 1, by simp [cut, hb, readTurn]⟩
      · obtain ⟨hpos, hle, hlines⟩ := linesOf_turn hrest
        unfold linesOf at hlines
        refine ⟨by omega, by rw [List.length_cons]; omega, ?_⟩
        rcases Groups.cut_open hb rest with ⟨hnil, -⟩ | ⟨group, groups, hcut, hnext⟩
        · rw [hlines] at hnil
          cases hnil
        · rw [hlines] at hcut
          cases hcut
          exact hnext

theorem readBuffer_eq : ∀ (n : Nat) {buffer : Bytes}, buffer.length ≤ n → buffer.length ≤ maxOutputLine →
    readBuffer n buffer = (linesOf buffer).map trimLine
  | 0, buffer, hlen, _ => by
    rw [List.length_eq_zero_iff.1 (Nat.le_zero.1 hlen)]
    rfl
  | n + 1, buffer, hlen, hmax => by
    rw [readBuffer]
    by_cases hbuffer : buffer = []
    · rw [if_pos hbuffer, hbuffer]
      rfl
    · obtain ⟨hpos, hle, hlines⟩ := linesOf_turn hbuffer
      have hdrop : (buffer.drop (readTurn buffer).1).length = buffer.length - (readTurn buffer).1 := List.length_drop
      have hrecord : (readTurn buffer).2 = trimLine (buffer.take (readTurn buffer).1) := by
        have hmin : min (readTurn buffer).1 maxOutputLine = (readTurn buffer).1 := by omega
        have hraw : (readTurn buffer).2 = trimLine (buffer.take (min (readTurn buffer).1 maxOutputLine)) := rfl
        rw [hraw, hmin]
      rw [if_neg hbuffer, hlines, List.map_cons, hrecord, readBuffer_eq n (by omega) (by omega)]

theorem Delivery.short (d : Delivery) {buffer : Bytes} (h : buffer ∈ d.buffers) : buffer.length ≤ maxOutputLine :=
  Nat.le_trans (d.fits buffer h) (by decide)

theorem spawnReader_eq (d : Delivery) :
    spawnReader d.buffers = ((linePieces d.buffers).map (List.map trimLine)).flatten := by
  have hlines : ∀ buffers : List Bytes, (∀ buffer ∈ buffers, buffer.length ≤ maxOutputLine) →
      spawnReader buffers = (buffers.flatMap linesOf).map trimLine := by
    intro buffers
    induction buffers with
    | nil => exact fun _ => rfl
    | cons buffer buffers ih =>
      intro h
      have hrest := ih (fun other hother => h other (List.mem_cons_of_mem _ hother))
      unfold spawnReader at hrest ⊢
      rw [List.flatMap_cons, List.flatMap_cons, List.map_append, hrest,
        readBuffer_eq _ (Nat.le_refl _) (h buffer List.mem_cons_self)]
  rw [hlines d.buffers (fun buffer h => d.short h), ← List.map_flatten, linePieces, Groups.flatten_cut]

/-- The lines of the stream are what their pieces make. -/
theorem linesOf_stream (buffers : List Bytes) :
    linesOf buffers.flatten = (linePieces buffers).map List.flatten := by
  have hflatten : (buffers.flatMap linesOf).flatten = buffers.flatten := by
    induction buffers with
    | nil => rfl
    | cons buffer buffers ih =>
      rw [List.flatMap_cons, List.flatten_append, ih, linesOf, Groups.flatten_cut]
      rfl
  rw [← hflatten]
  apply Groups.cut_flatten_pieces
  intro piece hpiece
  obtain ⟨buffer, -, hmem⟩ := List.mem_flatMap.1 hpiece
  exact Groups.of_mem_cut hmem

/-! ## Trimming a piece and trimming a line -/

theorem trimLine_of_ne {p : Bytes} (h : p.getLast? ≠ some 10) :
    trimLine p = if p.getLast? = some 13 then p.dropLast else p := by
  unfold trimLine
  rw [if_neg h]

theorem trimLine_lf (p : Bytes) : trimLine (p ++ [10]) = if p.getLast? = some 13 then p.dropLast else p := by
  unfold trimLine
  rw [List.getLast?_concat, if_pos rfl, List.dropLast_concat]

theorem trimLine_crlf (p : Bytes) : trimLine (p ++ [13] ++ [10]) = p := by
  rw [trimLine_lf, List.getLast?_concat, if_pos rfl, List.dropLast_concat]

theorem trimLine_cr (p : Bytes) : trimLine (p ++ [13]) = p := by
  rw [trimLine_of_ne (by simp), List.getLast?_concat, if_pos rfl, List.dropLast_concat]

/-- The ways a piece can end. -/
theorem trimLine_cases (p : Bytes) : p = [] ∨ (trimLine p = p ∧ p.getLast? ≠ some 13 ∧ p.getLast? ≠ some 10) ∨
    p = trimLine p ++ [13] ∨ (p = trimLine p ++ [10] ∧ (trimLine p).getLast? ≠ some 13) ∨
      p = trimLine p ++ [13] ++ [10] := by
  rcases List.eq_nil_or_concat' p with rfl | ⟨init, b, rfl⟩
  · exact .inl rfl
  · right
    by_cases hlf : b = 10
    · subst hlf
      by_cases hcr : init.getLast? = some 13
      · obtain ⟨start, rfl⟩ := List.getLast?_eq_some_iff.1 hcr
        rw [trimLine_crlf]
        exact .inr (.inr (.inr rfl))
      · rw [trimLine_lf, if_neg hcr]
        exact .inr (.inr (.inl ⟨rfl, hcr⟩))
    · by_cases hcr : b = 13
      · subst hcr
        rw [trimLine_cr]
        exact .inr (.inl rfl)
      · have hlast : (init ++ [b]).getLast? = some b := List.getLast?_concat
        left
        rw [trimLine_of_ne (by rw [hlast]; simpa using hlf), hlast, if_neg (by simpa using hcr)]
        exact ⟨rfl, by simpa using hcr, by simpa using hlf⟩

theorem length_trimLine_le (p : Bytes) : (trimLine p).length ≤ p.length := by
  rcases trimLine_cases p with rfl | ⟨h, -, -⟩ | h | ⟨h, -⟩ | h
  · exact Nat.le_refl 0
  · rw [h]
  all_goals
    have hlength := congrArg List.length h
    simp only [List.length_append, List.length_cons, List.length_nil] at hlength
    omega

/-- Before something that is not only a line end, everything stays. -/
theorem trimLine_append (p : Bytes) {z : Bytes} (h : trimLine z ≠ []) : trimLine (p ++ z) = p ++ trimLine z := by
  rcases trimLine_cases z with rfl | ⟨hz, hcr, hlf⟩ | hz | ⟨hz, hcr⟩ | hz
  · exact absurd rfl h
  · have hlast : (p ++ z).getLast? = z.getLast? := List.getLast?_append_of_ne_nil _ (by rintro rfl; exact h rfl)
    rw [hz, trimLine_of_ne (by rw [hlast]; exact hlf), if_neg (by rw [hlast]; exact hcr)]
  · rw [hz, ← List.append_assoc, trimLine_cr, trimLine_cr]
  · have hlast : (p ++ trimLine z).getLast? = (trimLine z).getLast? := List.getLast?_append_of_ne_nil _ h
    have hkept : trimLine (p ++ trimLine z ++ [10]) = p ++ trimLine z := by
      rw [trimLine_lf, if_neg (by rw [hlast]; exact hcr)]
    rw [List.append_assoc, ← hz] at hkept
    exact hkept
  · have hkept : trimLine (p ++ trimLine z ++ [13] ++ [10]) = p ++ trimLine z := trimLine_crlf _
    rw [List.append_assoc, List.append_assoc, ← List.append_assoc (trimLine z), ← hz] at hkept
    exact hkept

/-- Two pieces of a line never keep more than the line does. -/
theorem trimLine_pair {p z : Bytes} (hp : p.getLast? ≠ some 10) (hz : z ≠ []) :
    (trimLine p).length + (trimLine z).length ≤ (trimLine (p ++ z)).length := by
  by_cases hempty : trimLine z = []
  · rw [hempty, List.length_nil, Nat.add_zero]
    rcases trimLine_cases z with rfl | ⟨h, -, -⟩ | h | ⟨h, -⟩ | h
    · exact absurd rfl hz
    · exact absurd (h.symm.trans hempty) hz
    · rw [h, hempty, List.nil_append, trimLine_cr]
      exact length_trimLine_le p
    · rw [h, hempty, List.nil_append, trimLine_lf, trimLine_of_ne hp]
    · have hcrlf : p ++ ([] ++ [13] ++ [10]) = p ++ [13] ++ [10] := by simp
      rw [h, hempty, hcrlf, trimLine_crlf]
      exact length_trimLine_le p
  · have hle := length_trimLine_le p
    rw [trimLine_append p hempty, List.length_append]
    omega

/-- The pieces of a line: none is empty, and only the last may end with a line feed. -/
structure OneLine (pieces : List Bytes) : Prop where
  ne_nil : pieces ≠ []
  nonempty : ∀ p ∈ pieces, p ≠ []
  closed : ∀ p ∈ pieces.dropLast, p.getLast? ≠ some 10

theorem OneLine.tail {p q : Bytes} {rest : List Bytes} (h : OneLine (p :: q :: rest)) : OneLine (q :: rest) :=
  ⟨by simp, fun r hr => h.nonempty r (List.mem_cons_of_mem _ hr), fun r hr => h.closed r (List.mem_cons_of_mem _ hr)⟩

theorem OneLine.flatten_ne_nil {pieces : List Bytes} (h : OneLine pieces) : pieces.flatten ≠ [] := by
  cases pieces with
  | nil => exact absurd rfl h.ne_nil
  | cons p rest =>
    intro hflat
    exact h.nonempty p List.mem_cons_self (List.append_eq_nil_iff.1 hflat).1

/-- The records of a line's pieces never keep more than the line does. -/
theorem OneLine.length_le : ∀ {pieces : List Bytes}, OneLine pieces →
    (pieces.map trimLine).flatten.length ≤ (trimLine pieces.flatten).length
  | [], h => absurd rfl h.ne_nil
  | [p], _ => by simp
  | p :: q :: rest, h => by
    have ih := h.tail.length_le
    have hpair := trimLine_pair (h.closed p (by simp)) h.tail.flatten_ne_nil
    rw [List.map_cons, List.flatten_cons, List.length_append]
    exact Nat.le_trans (Nat.add_le_add_left ih _) hpair

/-- Where nothing is lost and no piece is only a line end, no piece but the last ends with a carriage return. -/
theorem OneLine.no_return : ∀ {pieces : List Bytes}, OneLine pieces →
    (pieces.map trimLine).flatten.length = (trimLine pieces.flatten).length → (∀ p ∈ pieces, trimLine p ≠ []) →
    ∀ p ∈ pieces.dropLast, p.getLast? ≠ some 13
  | [], h, _, _ => absurd rfl h.ne_nil
  | [p], _, _, _ => by simp
  | p :: q :: rest, h, hsame, hkept => by
    have hle := h.tail.length_le
    have hpair := trimLine_pair (h.closed p (by simp)) h.tail.flatten_ne_nil
    rw [List.map_cons, List.flatten_cons, List.length_append, List.flatten_cons] at hsame
    have hq : 0 < (trimLine q).length := List.length_pos_iff.2 (hkept q (by simp))
    have hsum : (((q :: rest).map trimLine).flatten).length =
        (trimLine q).length + ((rest.map trimLine).flatten).length := by
      rw [List.map_cons, List.flatten_cons, List.length_append]
    have hbehind : trimLine (q :: rest).flatten ≠ [] := by
      intro hnil
      rw [hnil, List.length_nil] at hle
      omega
    have ih := h.tail.no_return (by omega) (fun r hr => hkept r (List.mem_cons_of_mem _ hr))
    intro r hr
    rw [List.dropLast_cons_of_ne_nil (by simp)] at hr
    rcases List.mem_cons.1 hr with rfl | hr
    · intro hcr
      rw [trimLine_append r hbehind, List.length_append] at hsame
      have hshort : (trimLine r).length < r.length := by
        rw [trimLine_of_ne (h.closed r (by simp)), if_pos hcr, List.length_dropLast]
        have hpos : 0 < r.length := List.length_pos_iff.2 (h.nonempty r List.mem_cons_self)
        omega
      omega
    · exact ih r hr

/-- And the other way round. -/
theorem OneLine.kept : ∀ {pieces : List Bytes}, OneLine pieces → (∀ p ∈ pieces, trimLine p ≠ []) →
    (∀ p ∈ pieces.dropLast, p.getLast? ≠ some 13) →
    (pieces.map trimLine).flatten = trimLine pieces.flatten ∧ trimLine pieces.flatten ≠ []
  | [], h, _, _ => absurd rfl h.ne_nil
  | [p], _, hkept, _ => by
    have hp := hkept p (by simp)
    simpa using hp
  | p :: q :: rest, h, hkept, hreturn => by
    obtain ⟨hsame, hne⟩ := h.tail.kept (fun r hr => hkept r (List.mem_cons_of_mem _ hr))
      (fun r hr => hreturn r (List.mem_cons_of_mem _ hr))
    have hp : trimLine p = p := by
      rw [trimLine_of_ne (h.closed p (by simp)), if_neg (hreturn p (by simp))]
    have hline : trimLine (p :: q :: rest).flatten = p ++ trimLine (q :: rest).flatten := trimLine_append p hne
    rw [List.map_cons, List.flatten_cons, hsame, hp, hline]
    exact ⟨rfl, fun hnil => hne (List.append_eq_nil_iff.1 hnil).2⟩

/-! ## What should be recorded -/

/-- A line that fits is one record, without its line end.  Of a longer one nothing but the line end is lost. -/
def LineRecorded (line : Bytes) (records : List Bytes) : Prop :=
  if (trimLine line).length ≤ maxOutputLine then records = [trimLine line]
  else records.flatten = trimLine line ∧ ∀ record ∈ records, record ≠ [] ∧ record.length ≤ maxOutputLine

/-- The records are those of the lines, one line after the other. -/
def Recorded (stream : Bytes) (records : List Bytes) : Prop :=
  ∃ groups, records = groups.flatten ∧ List.Forall₂ LineRecorded (linesOf stream) groups

/-- One buffer holds the whole line, or the line is too long for a record anyway, something of it stays of every piece,
and no piece but the last ends with a carriage return. -/
def WellCut (pieces : List Bytes) : Prop :=
  pieces.length = 1 ∨
    (maxOutputLine < (trimLine pieces.flatten).length ∧ (∀ p ∈ pieces, trimLine p ≠ []) ∧
      ∀ p ∈ pieces.dropLast, p.getLast? ≠ some 13)

theorem LineRecorded.flatten {line : Bytes} {records : List Bytes} (h : LineRecorded line records) :
    records.flatten = trimLine line := by
  unfold LineRecorded at h
  split at h
  · rw [h, List.flatten_singleton]
  · exact h.1

theorem OneLine.recorded_iff {pieces : List Bytes} (h : OneLine pieces) (hfits : ∀ p ∈ pieces, p.length ≤ maxOutputLine) :
    LineRecorded pieces.flatten (pieces.map trimLine) ↔ WellCut pieces := by
  unfold LineRecorded WellCut
  constructor
  · intro hrecorded
    split at hrecorded
    · have hlength := congrArg List.length hrecorded
      rw [List.length_map] at hlength
      exact .inl hlength
    · rename_i hlong
      have hkept : ∀ p ∈ pieces, trimLine p ≠ [] := fun p hp => (hrecorded.2 _ (List.mem_map_of_mem hp)).1
      exact .inr ⟨Nat.lt_of_not_le hlong, hkept, h.no_return (by rw [hrecorded.1]) hkept⟩
  · rintro (hone | ⟨hlong, hkept, hreturn⟩)
    · obtain ⟨p, rfl⟩ := List.length_eq_one_iff.1 hone
      have hshort : (trimLine p).length ≤ maxOutputLine :=
        Nat.le_trans (length_trimLine_le p) (hfits p List.mem_cons_self)
      rw [List.flatten_singleton, if_pos hshort]
      rfl
    · rw [if_neg (Nat.not_le_of_lt hlong)]
      refine ⟨(h.kept hkept hreturn).1, fun record hrecord => ?_⟩
      obtain ⟨p, hp, rfl⟩ := List.mem_map.1 hrecord
      exact ⟨hkept p hp, Nat.le_trans (length_trimLine_le p) (hfits p hp)⟩

/-- An empty line has an empty record, whatever it is cut into; no other line has one in what should be recorded. -/
theorem OneLine.count_le {pieces : List Bytes} (h : OneLine pieces) {records : List Bytes}
    (hrecorded : LineRecorded pieces.flatten records) :
    records.countP List.isEmpty ≤ (pieces.map trimLine).countP List.isEmpty := by
  unfold LineRecorded at hrecorded
  split at hrecorded
  · rw [hrecorded]
    by_cases hempty : trimLine pieces.flatten = []
    · have hle := h.length_le
      rw [hempty, List.length_nil] at hle
      cases pieces with
      | nil => exact absurd rfl h.ne_nil
      | cons p rest =>
        rw [List.map_cons, List.flatten_cons, List.length_append] at hle
        have hp : trimLine p = [] := List.length_eq_zero_iff.1 (by omega)
        rw [hempty, List.map_cons, hp, List.countP_cons_of_pos rfl, List.countP_cons_of_pos rfl, List.countP_nil]
        omega
    · rw [List.countP_cons_of_neg (by simpa using hempty)]
      exact Nat.zero_le _
  · have hnone : records.countP List.isEmpty = 0 := by
      rw [List.countP_eq_zero]
      intro record hmem
      have hne := (hrecorded.2 record hmem).1
      simpa using hne
    rw [hnone]
    exact Nat.zero_le _

/-- What the cut of a delivery gives for each line. -/
theorem oneLine_of_mem (d : Delivery) {pieces : List Bytes} (h : pieces ∈ linePieces d.buffers) :
    OneLine pieces ∧ ∀ p ∈ pieces, p.length ≤ maxOutputLine := by
  obtain ⟨hne, hopen⟩ := Groups.of_mem_cut h
  have hpiece : ∀ p ∈ pieces, ∃ buffer ∈ d.buffers, p ∈ linesOf buffer := by
    intro p hp
    have hmem : p ∈ (linePieces d.buffers).flatten := List.mem_flatten_of_mem h hp
    rw [linePieces, Groups.flatten_cut] at hmem
    exact List.mem_flatMap.1 hmem
  refine ⟨⟨hne, fun p hp => ?_, fun p hp heq => ?_⟩, fun p hp => ?_⟩
  · obtain ⟨buffer, -, hmem⟩ := hpiece p hp
    exact (Groups.of_mem_cut hmem).1
  · have hclosed := hopen p hp
    unfold closesAtEnd at hclosed
    rw [heq] at hclosed
    cases hclosed
  · obtain ⟨buffer, hbuffer, hmem⟩ := hpiece p hp
    have hpart := (List.sublist_flatten_of_mem hmem).length_le
    rw [linesOf, Groups.flatten_cut] at hpart
    exact Nat.le_trans hpart (d.short hbuffer)

/-- A line of three bytes in two buffers. -/
def splitLine : Delivery := ⟨[[97, 98], [99, 10]], by decide, by decide⟩

end ThreadDump
end Jss
