import ServiceSteward.Authentication
/-!
# Handover — one stream, two decoders

A client's stream is decoded by its handshake up to the read that completes the key, and from there by the reader
thread of the connection.  The handshake hands over its framer and the packets already complete, so the two decode the
stream as one would (`outputs_after_handover`).  The queue between them has room for what was complete: the completing
read is of at most 512 bytes, and 255 frames is all it can hold after the key.
-/
namespace Jss
namespace Protocol

open Incremental (emitted)

/-- The reads of `reader_loop` before the end of the stream: some bytes, or an error it tries again after. -/
inductive StreamRead : ReadResult → Prop
  | data (bytes : Bytes) : bytes ≠ [] → bytes.length ≤ readerBuffer → StreamRead (.ok bytes)
  | interrupted : StreamRead (.error .interrupted)
  | wouldBlock : StreamRead (.error .wouldBlock)
  | timedOut : StreamRead (.error .timedOut)

def dataOf (reads : List ReadResult) : Bytes :=
  reads.flatMap (fun
    | .ok bytes => bytes
    | .error _ => [])

theorem afterRead_data (f : Framer) {bytes : Bytes} (h : bytes ≠ []) : Reader.afterRead f (.ok bytes) =
    match f.feed bytes with
    | .ok (f', packets) => .sending packets f'
    | .error _ => .closing := by
  cases bytes with
  | nil => exact absurd rfl h
  | cons b bytes => rfl

/-- After `disconnected` nothing more is sent. -/
theorem outputs_of_data : ∀ (reads : List ReadResult) (f : Framer), (∀ r ∈ reads, StreamRead r) →
    outputsReading f (reads ++ [.ok []]) =
      ((emitted Framer.feedByte f (dataOf reads)).1.map .packet) ++ [.disconnected]
  | [], f, _ => rfl
  | r :: reads, f, h => by
    have ih := fun f' => outputs_of_data reads f' (fun r' hr' => h r' (List.mem_cons_of_mem _ hr'))
    rw [List.cons_append, outputsReading_cons]
    cases h r List.mem_cons_self with
    | data bytes hne hlen =>
      have hdata : dataOf (.ok bytes :: reads) = bytes ++ dataOf reads := rfl
      rw [hdata, afterRead_data f hne, Incremental.emitted_append, feed_eq]
      cases hf : Incremental.feed Framer.feedByte f bytes with
      | error e =>
        -- the packets of a refused read are lost, but it has none
        have he := Incremental.emitted_of_feed_error _ hf
        have hshort : bytes.length ≤ maxPacketSize + 1 := by
          unfold readerBuffer at hlen
          unfold maxPacketSize
          omega
        have hnone := quiet_of_short bytes hshort f e he
        simp only [he, hnone]
        rfl
      | ok p =>
        obtain ⟨f', packets⟩ := p
        rw [Incremental.emitted_of_feed _ hf]
        simp only [Reader.outputs]
        rw [ih f', List.map_append, List.append_assoc]
    | interrupted => exact ih f
    | wouldBlock => exact ih f
    | timedOut => exact ih f

/-- **The two decoders are one**: what the connection starts with and what its reader sends are the packets after the
key frame. -/
theorem total_after_handover {key : Bytes} {obs : List Obs} {c : Connection} {frame tail : Bytes}
    {reads : List ReadResult} (hc : Handed key obs c) (hframe : Packet.writeTo ⟨KEY, key⟩ = .ok frame)
    (hreads : ∀ r ∈ reads, StreamRead r) (hstream : bytesOf c.stream obs ++ dataOf reads = frame ++ tail) :
    Session.total ⟨c, reads ++ [.ok []], []⟩ = (packetsOf tail).map .packet ++ [.disconnected] := by
  obtain ⟨framer, initial, hfeed, hreader, hevents, -⟩ := hc
  rw [feed_eq] at hfeed
  have hfirst := Incremental.emitted_append_of_ok _ (Incremental.emitted_of_feed _ hfeed) (dataOf reads)
  rw [hstream, emitted_frame hframe, ← packetsOf_eq] at hfirst
  obtain ⟨hpackets, -⟩ := Prod.mk.inj hfirst
  rw [List.cons_append] at hpackets
  obtain ⟨-, hpackets⟩ := List.cons.inj hpackets
  simp only [Session.total, Reader.outputs, hreader, hevents]
  rw [outputs_of_data reads framer hreads, List.nil_append, hpackets, List.map_append, List.append_assoc]

/-- What a session has received is a beginning of what it will receive in total. -/
theorem received_prefix {s t : Session} (h : Steps s t) : t.received <+: s.total := by
  rw [← steps_total h, Session.total, List.append_assoc]
  exact List.prefix_append _ _

/-- **Nothing is lost between handshake and reader**: whatever calls are made on a listener and however the reads cut
a client's stream, no spawn finds too many packets, and the receiver of a connection gets the packets after the key
frame, in order and once each, then `disconnected`; every run gets there. -/
theorem handover_is_lossless {l : BackendListener} {history : List PollRecord} (h : Polls l history) :
    (∀ r ∈ history, r.result ≠ .error tooManyPackets) ∧
    ∀ before r after c frame tail reads, history = before ++ r :: after → r.result = .ok (some c) →
      Packet.writeTo ⟨KEY, r.expectedKey⟩ = .ok frame → (∀ read ∈ reads, StreamRead read) →
      bytesOf c.stream (observed before ++ r.obs) ++ dataOf reads = frame ++ tail →
      c.events.length < eventQueueCapacity ∧
      (∀ s, Steps ⟨c, reads ++ [.ok []], []⟩ s →
        s.received <+: (packetsOf tail).map .packet ++ [.disconnected] ∧
        ((∀ t, ¬ Step s t) → s.received = (packetsOf tail).map .packet ++ [.disconnected]) ∧
        ∃ t, Steps s t ∧ t.received = (packetsOf tail).map .packet ++ [.disconnected]) := by
  refine ⟨fun r hr => ?_, fun before r after c frame tail reads hs hc hframe hreads hstream => ?_⟩
  · obtain ⟨before, after, hs⟩ := List.append_of_mem hr
    obtain ⟨l', hcalled⟩ := record_of_polls h before r after hs
    exact hcalled.room
  · obtain ⟨l', hcalled⟩ := record_of_polls h before r after hs
    have hhanded := hcalled.handed c hc
    have htotal := total_after_handover hhanded hframe hreads hstream
    refine ⟨?_, fun s hsteps => ⟨?_, fun hstuck => ?_, ?_⟩⟩
    · obtain ⟨-, initial, -, -, hevents, hfew⟩ := hhanded
      rw [hevents, List.length_map]
      exact hfew
    · rw [← htotal]
      exact received_prefix hsteps
    · rw [received_of_stuck hstuck, steps_total hsteps, htotal]
    · obtain ⟨t, ht, hstuck⟩ := reaches_stuck s.work s (Nat.le_refl _)
      exact ⟨t, ht, by rw [received_of_stuck hstuck, steps_total ht, steps_total hsteps, htotal]⟩

/-- The second of the two clients sends a PING after its key. -/
theorem second_client_is_heard :
    ∃ t, Steps ⟨⟨1, .reading {}, []⟩, [.ok [PING, 0], .ok []], []⟩ t ∧
      t.received = [.packet ⟨PING, []⟩, .disconnected] :=
  (((handover_is_lossless (.poll [107] 5 twoClients .bound)).2 [] _ [] _ [KEY, 107, 0] [PING, 0] [.ok [PING, 0]]
    rfl rfl rfl (fun read hr => by
      rw [List.mem_singleton.1 hr]
      exact .data _ (by decide) (by decide)) rfl).2 _ .refl).2.2

end Protocol
end Jss
