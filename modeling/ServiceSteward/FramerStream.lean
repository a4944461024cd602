import ServiceSteward.Packet
/-!
# FramerStream — the framer under every cut of its input

A read of at most `maxPacketSize + 1` bytes that fails has completed no packet (`quiet_of_short`): after a completed
packet the payload starts empty, and a payload needs more than `maxPacketSize` further bytes to be refused.  So what
`feed` throws away with its error is never a packet, and the cuts do not matter.  In the other direction, the frames of
any packets `writeTo` accepts decode to these packets under any cut.
-/
namespace Jss
namespace Protocol

open Incremental (emitted emitted_cons emitted_append emitted_append_of_ok)

/-- The buffer of `reader_loop`. -/
def readerBuffer : Nat := 8192

/-! ## One byte -/

@[simp] theorem feedByte_code (p : Bytes) (b : UInt8) :
    Framer.feedByte ⟨none, p⟩ b = .ok (⟨some b, p⟩, none) := rfl

@[simp] theorem feedByte_nul (code : UInt8) (p : Bytes) :
    Framer.feedByte ⟨some code, p⟩ 0 = .ok (⟨none, []⟩, some ⟨code, p⟩) := rfl

theorem feedByte_payload {code b : UInt8} {p : Bytes} (hb : b ≠ 0) (hp : p.length < maxPacketSize) :
    Framer.feedByte ⟨some code, p⟩ b = .ok (⟨some code, p ++ [b]⟩, none) := by
  simp only [Framer.feedByte, if_neg hb, if_neg (Nat.not_le.2 hp)]

theorem feedByte_full {code b : UInt8} {p : Bytes} (hb : b ≠ 0) (hp : maxPacketSize ≤ p.length) :
    Framer.feedByte ⟨some code, p⟩ b = .error packetTooLarge := by
  simp only [Framer.feedByte, if_neg hb, if_pos hp]

/-- Between packets the next byte is a code and puts nothing out. -/
theorem emitted_code (code : UInt8) (bytes : Bytes) :
    emitted Framer.feedByte {} (code :: bytes) = emitted Framer.feedByte ⟨some code, []⟩ bytes := by
  rw [emitted_cons, feedByte_code]
  rfl

/-- **What one byte can do**: begin a packet, end one, extend its payload, or overflow it. -/
theorem feedByte_cases (f : Framer) (b : UInt8) :
    (f.pendingCode = none ∧ f.feedByte b = .ok (⟨some b, f.partialBytes⟩, none)) ∨
    (∃ code, f.pendingCode = some code ∧ b = 0 ∧ f.feedByte b = .ok ({}, some ⟨code, f.partialBytes⟩)) ∨
    (∃ code, f.pendingCode = some code ∧ b ≠ 0 ∧ f.partialBytes.length < maxPacketSize ∧
      f.feedByte b = .ok (⟨some code, f.partialBytes ++ [b]⟩, none)) ∨
    (∃ code, f.pendingCode = some code ∧ b ≠ 0 ∧ maxPacketSize ≤ f.partialBytes.length ∧
      f.feedByte b = .error packetTooLarge) := by
  obtain ⟨pending, p⟩ := f
  cases pending with
  | none => exact .inl ⟨rfl, rfl⟩
  | some code =>
    by_cases hb : b = 0
    · subst hb
      exact .inr (.inl ⟨code, rfl, rfl, rfl⟩)
    · rcases Nat.lt_or_ge p.length maxPacketSize with hp | hp
      · exact .inr (.inr (.inl ⟨code, rfl, hb, hp, feedByte_payload hb hp⟩))
      · exact .inr (.inr (.inr ⟨code, rfl, hb, hp, feedByte_full hb hp⟩))

/-! ## A failing read -/

/-- **A refused payload is long**: the bytes held and the bytes read are together more than the limit. -/
theorem long_of_refused : ∀ (bytes : Bytes) (f : Framer) (e : Error),
    (emitted Framer.feedByte f bytes).2 = .error e → maxPacketSize < f.partialBytes.length + bytes.length
  | [], f, e, h => by cases h
  | b :: bytes, f, e, h => by
    rw [emitted_cons] at h
    rw [List.length_cons]
    rcases feedByte_cases f b with ⟨_, hs⟩ | ⟨code, _, _, hs⟩ | ⟨code, _, _, _, hs⟩ | ⟨code, _, _, hp, _⟩
    · rw [hs] at h
      have := long_of_refused bytes _ e h
      simp only at this
      omega
    · rw [hs] at h
      have := long_of_refused bytes _ e h
      simp only [List.length_nil] at this
      omega
    · rw [hs] at h
      have := long_of_refused bytes _ e h
      simp only [List.length_append, List.length_singleton] at this
      omega
    · omega

/-- **A short read that fails has completed no packet.** -/
theorem quiet_of_short : ∀ (bytes : Bytes), bytes.length ≤ maxPacketSize + 1 →
    Incremental.Quiet Framer.feedByte bytes
  | [], _, f, e, h => by cases h
  | b :: bytes, hlen, f, e, h => by
    rw [List.length_cons] at hlen
    have ih := quiet_of_short bytes (by omega)
    rw [emitted_cons] at h ⊢
    rcases feedByte_cases f b with ⟨_, hs⟩ | ⟨code, _, _, hs⟩ | ⟨code, _, _, _, hs⟩ | ⟨code, _, _, _, hs⟩
    · rw [hs] at h ⊢
      exact ih _ e h
    · -- a packet ended here, so the payload that overflows lies in the rest of this read alone
      rw [hs] at h
      have := long_of_refused bytes _ e h
      simp only [List.length_nil] at this
      omega
    · rw [hs] at h ⊢
      exact ih _ e h
    · rw [hs]

/-- **Reads of at most 8192 bytes deliver what the byte-at-a-time decoder delivers.** -/
theorem deliver_eq (f : Framer) (chunks : List Bytes) (h : ∀ c ∈ chunks, c.length ≤ readerBuffer) :
    f.deliver chunks = emitted Framer.feedByte f chunks.flatten := by
  rw [deliver_eq_incremental]
  refine Incremental.deliver_eq_emitted _ _ _ (fun c hc => quiet_of_short c ?_)
  have := h c hc
  unfold readerBuffer at this
  unfold maxPacketSize
  omega

/-! ## How many packets a read completes -/

/-- A packet takes two bytes, the first packet of a read perhaps only its last. -/
theorem emitted_count : ∀ (bytes : Bytes) (f : Framer),
    2 * (emitted Framer.feedByte f bytes).1.length ≤ bytes.length + f.pendingCode.toList.length
  | [], f => by simp
  | b :: bytes, f => by
    rw [emitted_cons, List.length_cons]
    rcases feedByte_cases f b with ⟨hc, hs⟩ | ⟨code, hc, _, hs⟩ | ⟨code, hc, _, _, hs⟩ | ⟨code, hc, _, _, hs⟩
    · rw [hs, hc]
      have := emitted_count bytes ⟨some b, f.partialBytes⟩
      simp only [Option.toList_some, List.length_singleton, Option.toList_none, List.nil_append, List.length_nil] at *
      omega
    · rw [hs, hc]
      have := emitted_count bytes {}
      simp only [Option.toList_some, List.length_singleton, Option.toList_none, List.length_nil, List.length_append] at *
      omega
    · rw [hs, hc]
      have := emitted_count bytes ⟨some code, f.partialBytes ++ [b]⟩
      simp only [Option.toList_some, List.length_singleton, Option.toList_none, List.nil_append] at *
      omega
    · rw [hs]
      exact Nat.zero_le _

/-! ## Frames -/

theorem emitted_payload : ∀ (payload p : Bytes) (code : UInt8), 0 ∉ payload →
    p.length + payload.length ≤ maxPacketSize →
    emitted Framer.feedByte ⟨some code, p⟩ payload = ([], .ok ⟨some code, p ++ payload⟩)
  | [], p, code, _, _ => by simp
  | b :: payload, p, code, h0, hlen => by
    rw [List.length_cons] at hlen
    have hb : b ≠ 0 := fun h => h0 (by simp [h])
    have hrest : 0 ∉ payload := fun h => h0 (List.mem_cons_of_mem _ h)
    rw [emitted_cons, feedByte_payload hb (by omega)]
    simp only
    rw [emitted_payload payload (p ++ [b]) code hrest (by simp; omega)]
    simp

theorem emitted_packet (code : UInt8) (payload rest : Bytes) (h0 : 0 ∉ payload)
    (hlen : payload.length ≤ maxPacketSize) :
    emitted Framer.feedByte {} (code :: payload ++ 0 :: rest) =
      (⟨code, payload⟩ :: (emitted Framer.feedByte {} rest).1, (emitted Framer.feedByte {} rest).2) := by
  rw [List.cons_append, emitted_code,
    emitted_append_of_ok _ (emitted_payload payload [] code h0 (by rw [List.length_nil]; omega)), emitted_cons]
  simp

theorem writeTo_eq_ok {p : Packet} {frame : Bytes} (h : p.writeTo = .ok frame) :
    p.message.length ≤ maxPacketSize ∧ 0 ∉ p.message ∧ frame = p.code :: p.message ++ [0] := by
  unfold Packet.writeTo at h
  split at h
  · cases h
  · rename_i hlen
    split at h
    · cases h
    · rename_i h0
      cases h
      exact ⟨Nat.not_lt.1 hlen, h0, rfl⟩

theorem writeTo_of_valid {p : Packet} (hlen : p.message.length ≤ maxPacketSize) (h0 : 0 ∉ p.message) :
    p.writeTo = .ok (p.code :: p.message ++ [0]) := by
  rw [Packet.writeTo, if_neg (Nat.not_lt.2 hlen), if_neg h0]

theorem emitted_frame {p : Packet} {frame : Bytes} (h : p.writeTo = .ok frame) (rest : Bytes) :
    emitted Framer.feedByte {} (frame ++ rest) =
      (p :: (emitted Framer.feedByte {} rest).1, (emitted Framer.feedByte {} rest).2) := by
  obtain ⟨hlen, h0, rfl⟩ := writeTo_eq_ok h
  rw [List.append_assoc]
  exact emitted_packet p.code p.message rest h0 hlen

theorem emitted_frames : ∀ (packets : List Packet) (frames : List Bytes),
    packets.mapM Packet.writeTo = .ok frames → emitted Framer.feedByte {} frames.flatten = (packets, .ok {})
  | [], frames, h => by
    cases h
    rfl
  | p :: packets, frames, h => by
    rw [List.mapM_cons] at h
    cases hp : p.writeTo with
    | error e => rw [hp] at h; cases h
    | ok frame =>
      cases hps : packets.mapM Packet.writeTo with
      | error e => rw [hp, hps] at h; cases h
      | ok rest =>
        rw [hp, hps] at h
        cases h
        rw [List.flatten_cons, emitted_frame hp, emitted_frames packets rest hps]

/-! ## The format -/

/-- The decoder in the middle of a packet, and between two, against the format. -/
theorem stream_emitted : ∀ (bytes : Bytes),
    Stream bytes (emitted Framer.feedByte {} bytes).1 ∧
    ∀ (code : UInt8) (p : Bytes), 0 ∉ p → p.length ≤ maxPacketSize →
      Stream (code :: p ++ bytes) (emitted Framer.feedByte ⟨some code, p⟩ bytes).1
  | [] => ⟨.nil, fun code p h0 hlen => by simpa using Stream.unfinished code p h0 hlen⟩
  | b :: bytes => by
    obtain ⟨ihIdle, ihOpen⟩ := stream_emitted bytes
    refine ⟨?_, fun code p h0 hlen => ?_⟩
    · rw [emitted_code]
      exact ihOpen b [] List.not_mem_nil (Nat.zero_le _)
    · rw [emitted_cons]
      by_cases hb : b = 0
      · subst hb
        rw [feedByte_nul]
        exact .packet code p bytes _ h0 hlen ihIdle
      · have h0' : 0 ∉ p ++ [b] := by simpa [h0] using Ne.symm hb
        rcases Nat.lt_or_ge p.length maxPacketSize with hp | hp
        · rw [feedByte_payload hb hp]
          simpa using ihOpen code (p ++ [b]) h0' (by simp; omega)
        · rw [feedByte_full hb hp]
          simpa using Stream.oversized code (p ++ [b]) bytes h0' (by simp; omega)

/-- **The byte-at-a-time decoder reads off exactly what the stream says.** -/
theorem packetsOf_iff (bytes : Bytes) (packets : List Packet) : Stream bytes packets ↔ packetsOf bytes = packets := by
  rw [packetsOf_eq]
  constructor
  · intro h
    induction h with
    | nil => rfl
    | unfinished code payload h0 hlen =>
      rw [emitted_code, emitted_payload payload [] code h0 (by rw [List.length_nil]; omega)]
    | oversized code payload rest h0 hlen =>
      -- the payload's last byte is the one refused
      obtain ⟨p, b, rfl⟩ : ∃ p b, payload = p ++ [b] :=
        ⟨payload.dropLast, payload.getLast (List.ne_nil_of_length_pos (by omega)),
          (List.dropLast_concat_getLast _).symm⟩
      rw [List.length_append, List.length_singleton] at hlen
      have hp : 0 ∉ p := fun h => h0 (List.mem_append_left _ h)
      have hb : b ≠ 0 := fun h => h0 (by simp [h])
      rw [List.cons_append, emitted_code, List.append_assoc,
        emitted_append_of_ok _ (emitted_payload p [] code hp (by rw [List.length_nil]; omega)), List.singleton_append,
        emitted_cons, feedByte_full hb (by rw [List.nil_append]; omega)]
      rfl
    | packet code payload rest packets h0 hlen _ ih =>
      rw [emitted_packet code payload rest h0 hlen, ih]
  · rintro rfl
    exact (stream_emitted bytes).1

/-! ## The framer's contract -/

/-- **Cutting the stream changes nothing, and what `writeTo` writes comes back.** -/
theorem framer_is_independent_of_the_splitting :
    (∀ chunks : List Bytes, (∀ c ∈ chunks, c.length ≤ readerBuffer) →
      Framer.deliver {} chunks = Framer.deliver {} (chunks.flatten.map (fun b => [b])) ∧
      Stream chunks.flatten (Framer.deliver {} chunks).1) ∧
    (∀ packets : List Packet, (∀ p ∈ packets, 0 ∉ p.message ∧ p.message.length ≤ maxPacketSize) →
      ∃ frames, packets.mapM Packet.writeTo = .ok frames ∧
        ∀ chunks : List Bytes, chunks.flatten = frames.flatten →
          ∃ f : Framer, Framer.deliver {} chunks = (packets, .ok f) ∧ f.isIdle = true) := by
  refine ⟨fun chunks h => ⟨?_, ?_⟩, fun packets h => ?_⟩
  · rw [deliver_eq {} chunks h, deliver_eq_incremental, Incremental.deliver_singletons]
  · rw [deliver_eq {} chunks h]
    exact (stream_emitted _).1
  · have hw : ∃ frames, packets.mapM Packet.writeTo = .ok frames := by
      induction packets with
      | nil => exact ⟨[], rfl⟩
      | cons p packets ih =>
        obtain ⟨frames, hf⟩ := ih (fun q hq => h q (List.mem_cons_of_mem _ hq))
        obtain ⟨h0, hlen⟩ := h p List.mem_cons_self
        exact ⟨_, by rw [List.mapM_cons, writeTo_of_valid hlen h0, hf]; rfl⟩
    obtain ⟨frames, hf⟩ := hw
    refine ⟨frames, hf, fun chunks hc => ⟨{}, ?_, rfl⟩⟩
    rw [deliver_eq_incremental]
    exact Incremental.deliver_of_ok _ _ _ _ _ (by rw [hc]; exact emitted_frames packets frames hf)

theorem framer_joins_two_reads :
    Framer.deliver {} [[LOG_BASE, 104], [105, 0]] = Framer.deliver {} [[LOG_BASE], [104], [105], [0]] ∧
    ∃ f : Framer, Framer.deliver {} [[LOG_BASE, 104], [105, 0]] = ([⟨LOG_BASE, [104, 105]⟩], .ok f) ∧
      f.isIdle = true := by
  refine ⟨(framer_is_independent_of_the_splitting.1 _ (by decide)).1, ?_⟩
  obtain ⟨frames, hframes, h⟩ := framer_is_independent_of_the_splitting.2 [⟨LOG_BASE, [104, 105]⟩] (by decide)
  cases hframes
  exact h _ rfl

end Protocol
end Jss
