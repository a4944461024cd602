import ServiceSteward.FramerStream
import ServiceSteward.Text
/-!
# BridgeReader — the packets that the bridge reads

The bridge keeps the packet it is reading in two fields, so that a read timeout inside a packet loses nothing.  Under
any reads of the socket its reader does what the framer of the supervisor does on the same bytes (`received_eq`), and
hands over the message as text.
-/
namespace Jss
namespace BackendClient

open Protocol (Framer feedByte_payload feedByte_full feedByte_cases emitted_frames)
open Incremental (emitted emitted_cons)

inductive SocketRead where
  | bytes (first : UInt8) (rest : Bytes)
  | timeout
  | closed
  deriving DecidableEq, Repr

/-- What one `read()` of the buffered input gives. -/
inductive ReadEvent where
  | value (byte : UInt8)
  | timeout
  | endOfStream
  deriving DecidableEq, Repr

def SocketRead.events : SocketRead → List ReadEvent
  | .bytes first rest => .value first :: rest.map .value
  | .timeout => [.timeout]
  | .closed => [.endOfStream]

/-- `BufferedInputStream`: the socket is read again when all bytes of the last read are handed out. -/
def bufferedInput (reads : List SocketRead) : List ReadEvent := reads.flatMap SocketRead.events

def SocketRead.content : SocketRead → Bytes
  | .bytes first rest => first :: rest
  | _ => []

structure Packet where
  code : Int
  message : Text
  deriving DecidableEq, Repr

/-- The fields that hold the packet being read. -/
structure Reader where
  pendingCode : Int := -1
  pendingMessage : Bytes := []
  deriving DecidableEq, Repr

/-- How a call of `readPacket` ends, with the monotonic instant of the read it ends at.  A call that finds no more to
read is blocked. -/
inductive ReadOutcome where
  | packet (instant : Nat) (packet : Packet)
  | timedOut (instant : Nat)
  | failed (message : Text)
  | blocked
  deriving DecidableEq, Repr

def socketClosed : Text := "control socket closed".toList
def packetTooLarge : Text := "control packet exceeds 1048576 bytes".toList

/-- `readPacket`: how the call ends, the fields after it, and what is left to read. -/
@[simp] def readPacket (r : Reader) :
    List (Nat × ReadEvent) → ReadOutcome × Reader × List (Nat × ReadEvent)
  | [] => (.blocked, r, [])
  | (instant, .timeout) :: rest => (.timedOut instant, r, rest)
  | (_, .endOfStream) :: rest => (.failed socketClosed, r, rest)
  | (instant, .value byte) :: rest =>
    if r.pendingCode < 0 then readPacket { r with pendingCode := byte.toNat } rest
    else if byte = 0 then
      (.packet instant ⟨r.pendingCode, utf8Lossy r.pendingMessage⟩, { pendingCode := -1, pendingMessage := [] }, rest)
    else if r.pendingMessage.length ≥ Protocol.maxPacketSize then (.failed packetTooLarge, r, rest)
    else readPacket { r with pendingMessage := r.pendingMessage ++ [byte] } rest

/-- Why no further call of `readPacket` returned. -/
inductive Ending where
  | blocked
  | failed (message : Text)
  | outOfFuel
  deriving DecidableEq, Repr

/-- What at most `n` calls of `readPacket` return, each timeout followed by another call. -/
def received : Nat → Reader → List (Nat × ReadEvent) → List Packet × Ending
  | 0, _, _ => ([], .outOfFuel)
  | n + 1, r, input =>
    match readPacket r input with
    | (.packet _ p, r', rest) => (p :: (received n r' rest).1, (received n r' rest).2)
    | (.timedOut _, r', rest) => received n r' rest
    | (.failed message, _, _) => ([], .failed message)
    | (.blocked, _, _) => ([], .blocked)

/-! ## One read -/

/-- The fields of the bridge that stand for a state of the framer. -/
def readerOf (f : Framer) : Reader :=
  { pendingCode := match f.pendingCode with | none => -1 | some code => code.toNat
    pendingMessage := f.partialBytes }

def packetOf (p : Protocol.Packet) : Packet := ⟨p.code.toNat, utf8Lossy p.message⟩

theorem readPacket_code (instant : Nat) (p : Bytes) (b : UInt8) (rest : List (Nat × ReadEvent)) :
    readPacket (readerOf ⟨none, p⟩) ((instant, .value b) :: rest) = readPacket (readerOf ⟨some b, p⟩) rest := by
  have hidle : (readerOf ⟨none, p⟩).pendingCode < 0 := Int.negSucc_lt_zero 0
  rw [readPacket, if_pos hidle]
  rfl

theorem readerOf_pending (code : UInt8) (p : Bytes) : ¬ (readerOf ⟨some code, p⟩).pendingCode < 0 :=
  Int.not_lt.2 (Int.natCast_nonneg _)

theorem readPacket_nul (instant : Nat) (code : UInt8) (p : Bytes) (rest : List (Nat × ReadEvent)) :
    readPacket (readerOf ⟨some code, p⟩) ((instant, .value 0) :: rest) =
      (.packet instant (packetOf ⟨code, p⟩), readerOf {}, rest) := by
  rw [readPacket, if_neg (readerOf_pending code p), if_pos rfl]
  rfl

theorem readPacket_payload {code b : UInt8} {p : Bytes} (hb : b ≠ 0) (hp : p.length < Protocol.maxPacketSize)
    (instant : Nat) (rest : List (Nat × ReadEvent)) :
    readPacket (readerOf ⟨some code, p⟩) ((instant, .value b) :: rest) =
      readPacket (readerOf ⟨some code, p ++ [b]⟩) rest := by
  have hroom : ¬ (readerOf ⟨some code, p⟩).pendingMessage.length ≥ Protocol.maxPacketSize := Nat.not_le.2 hp
  rw [readPacket, if_neg (readerOf_pending code p), if_neg hb, if_neg hroom]
  rfl

theorem readPacket_full {code b : UInt8} {p : Bytes} (hb : b ≠ 0) (hp : Protocol.maxPacketSize ≤ p.length)
    (instant : Nat) (rest : List (Nat × ReadEvent)) :
    readPacket (readerOf ⟨some code, p⟩) ((instant, .value b) :: rest) =
      (.failed packetTooLarge, readerOf ⟨some code, p⟩, rest) := by
  have hfull : (readerOf ⟨some code, p⟩).pendingMessage.length ≥ Protocol.maxPacketSize := hp
  rw [readPacket, if_neg (readerOf_pending code p), if_neg hb, if_pos hfull]

theorem received_read {r r' : Reader} {e : Nat × ReadEvent} {rest : List (Nat × ReadEvent)}
    (h : readPacket r (e :: rest) = readPacket r' rest) (n : Nat) :
    received (n + 1) r (e :: rest) = received (n + 1) r' rest := by
  rw [received, received, h]

/-! ## The reader and the framer -/

def ReadEvent.content : ReadEvent → Bytes
  | .value byte => [byte]
  | _ => []

def content (input : List (Nat × ReadEvent)) : Bytes := input.flatMap (fun e => e.2.content)

def endingOf : Except Error Framer → Ending
  | .ok _ => .blocked
  | .error _ => .failed packetTooLarge

/-- **The bridge reads what the framer of the supervisor would**, whatever timeouts stand between the bytes. -/
theorem received_eq : ∀ (input : List (Nat × ReadEvent)) (n : Nat) (f : Framer), input.length < n →
    (∀ e ∈ input, e.2 ≠ .endOfStream) →
      received n (readerOf f) input =
        ((emitted Framer.feedByte f (content input)).1.map packetOf,
          endingOf (emitted Framer.feedByte f (content input)).2)
  | [], n, f, hn, _ => by
    obtain ⟨m, rfl⟩ : ∃ m, n = m + 1 := ⟨n - 1, by simp at hn; omega⟩
    rfl
  | (instant, .endOfStream) :: rest, n, f, hn, hopen => absurd rfl (hopen (instant, .endOfStream) List.mem_cons_self)
  | (instant, .timeout) :: rest, n, f, hn, hopen => by
    rw [List.length_cons] at hn
    obtain ⟨m, rfl⟩ : ∃ m, n = m + 1 := ⟨n - 1, by omega⟩
    have ih := received_eq rest m f (by omega) (fun e he => hopen e (List.mem_cons_of_mem _ he))
    exact ih
  | (instant, .value b) :: rest, n, f, hn, hopen => by
    rw [List.length_cons] at hn
    obtain ⟨m, rfl⟩ : ∃ m, n = m + 1 := ⟨n - 1, by omega⟩
    have hrest : ∀ e ∈ rest, e.2 ≠ .endOfStream := fun e he => hopen e (List.mem_cons_of_mem _ he)
    have hcontent : content ((instant, .value b) :: rest) = b :: content rest := rfl
    rw [hcontent, emitted_cons]
    obtain ⟨pending, p⟩ := f
    rcases feedByte_cases ⟨pending, p⟩ b with ⟨hidle, hs⟩ | ⟨code, hcode, rfl, hs⟩ | ⟨code, hcode, hb, hp, hs⟩ |
      ⟨code, hcode, hb, hp, hs⟩
    · cases hidle
      rw [hs, received_read (readPacket_code instant p b rest), received_eq rest (m + 1) _ (by omega) hrest]
      rfl
    · cases hcode
      rw [hs, received, readPacket_nul]
      dsimp only
      rw [received_eq rest m {} (by omega) hrest]
      rfl
    · cases hcode
      rw [hs, received_read (readPacket_payload hb hp instant rest), received_eq rest (m + 1) _ (by omega) hrest]
      rfl
    · cases hcode
      rw [hs, received, readPacket_full hb hp]
      rfl

theorem content_bufferedInput (reads : List SocketRead) :
    (bufferedInput reads).flatMap ReadEvent.content = reads.flatMap SocketRead.content := by
  induction reads with
  | nil => rfl
  | cons s reads ih =>
    have hvalues : ∀ bytes : Bytes, (bytes.map ReadEvent.value).flatMap ReadEvent.content = bytes := by
      intro bytes
      rw [List.flatMap_map]
      exact List.flatMap_singleton' bytes
    have hhead : s.events.flatMap ReadEvent.content = s.content := by
      cases s with
      | bytes first rest => simp [SocketRead.events, SocketRead.content, ReadEvent.content, hvalues]
      | timeout => rfl
      | closed => rfl
    unfold bufferedInput at ih ⊢
    rw [List.flatMap_cons, List.flatMap_append, List.flatMap_cons, hhead, ih]

theorem not_endOfStream {reads : List SocketRead} (h : SocketRead.closed ∉ reads) :
    ReadEvent.endOfStream ∉ bufferedInput reads := by
  intro hmem
  obtain ⟨s, hs, hevent⟩ := List.mem_flatMap.1 hmem
  cases s with
  | bytes first rest => simp [SocketRead.events] at hevent
  | timeout => simp [SocketRead.events] at hevent
  | closed => exact h hs

/-- What `Connection::send` puts on the wire for one packet. -/
def send (p : UInt8 × Text) : Except Error Bytes := (Protocol.Packet.text p.1 p.2).writeTo

/-- **What the supervisor sent is what the bridge reads.**  However the bytes are cut into reads, and wherever a read
times out, the calls of `readPacket` return the packets that were sent, in order, and none of them fails. -/
theorem received_of_sent {sent : List (UInt8 × Text)} {frames : List Bytes} (hsent : sent.mapM send = .ok frames)
    {reads : List SocketRead} (hopen : SocketRead.closed ∉ reads)
    (hreads : reads.flatMap SocketRead.content = frames.flatten)
    {input : List (Nat × ReadEvent)} (hinput : input.map Prod.snd = bufferedInput reads) :
    received (input.length + 1) {} input = (sent.map (fun p => ⟨p.1.toNat, p.2⟩), .blocked) := by
  have hpackets : (sent.map (fun p => Protocol.Packet.text p.1 p.2)).mapM Protocol.Packet.writeTo = .ok frames := by
    rw [List.mapM_map]
    exact hsent
  have hcontent : content input = frames.flatten := by
    have hmap : content input = (input.map Prod.snd).flatMap ReadEvent.content := by
      rw [List.flatMap_map]
      rfl
    rw [hmap, hinput, content_bufferedInput, hreads]
  have hevents : ∀ e ∈ input, e.2 ≠ .endOfStream := by
    intro e he heq
    apply not_endOfStream hopen
    rw [← hinput, ← heq]
    exact List.mem_map_of_mem he
  have hread := received_eq input (input.length + 1) {} (by omega) hevents
  rw [hcontent, emitted_frames _ _ hpackets, List.map_map] at hread
  have hmessages : packetOf ∘ (fun p : UInt8 × Text => Protocol.Packet.text p.1 p.2) =
      fun p => ⟨p.1.toNat, p.2⟩ := by
    funext p
    show Packet.mk p.1.toNat (utf8Lossy (Text.asBytes p.2)) = _
    rw [utf8Lossy_asBytes]
  rw [hmessages] at hread
  exact hread

/-- Two packets, with a timeout inside a character of two bytes. -/
theorem two_packets_in_three_reads :
    received 9 {} [(0, .value 103), (0, .value 195), (1000, .timeout), (1200, .value 169), (1200, .value 0),
      (1200, .value 105), (2200, .timeout), (2500, .value 0)] = ([⟨103, "é".toList⟩, ⟨105, []⟩], .blocked) :=
  @received_of_sent [(103, "é".toList), (105, [])] [[103, 195, 169, 0], [105, 0]] (by decide +kernel)
    [.bytes 103 [195], .timeout, .bytes 169 [0, 105], .timeout, .bytes 0 []] (by decide) rfl
    [(0, .value 103), (0, .value 195), (1000, .timeout), (1200, .value 169), (1200, .value 0),
      (1200, .value 105), (2200, .timeout), (2500, .value 0)] rfl

end BackendClient
end Jss
