import Mathlib
import ServiceSteward.FramerStream
/-!
# Connection — an authenticated connection and its reader thread

`Connection::spawn` puts the packets that came with the key into a bounded queue and starts a thread that decodes the
rest of the stream into it.  The thread and the receiver interleave freely (`Step`): a send waits for room, a receive
for an event.  `outputs` is what the thread still has to send; together with the queue and what was received it never
changes (`step_total`), so the receiver gets the thread's events in order, none lost and none twice.
-/
namespace Jss
namespace Protocol

open Incremental (emitted)

inductive ReceiveEvent where
  | packet (p : Packet)
  | disconnected
  deriving DecidableEq, Repr

/-- What a read of the socket returns: the bytes read, none of them at the end of the stream, or an error. -/
abbrev ReadResult := Except IoErrorKind Bytes

/-- Where `reader_loop` stands: before a read, in the loop over the packets of one, after the loop, returned. -/
inductive Reader where
  | reading (framer : Framer)
  | sending (packets : List Packet) (framer : Framer)
  | closing
  | ended
  deriving DecidableEq, Repr

structure Connection where
  /-- Which accepted socket this is. -/
  stream : Nat
  reader : Reader
  /-- The bounded channel of decoded packets. -/
  events : List ReceiveEvent
  deriving DecidableEq, Repr

def tooManyPackets : Error := .protocol "too many packets before the handshake completed".toList

/-- The loop of `try_send`s over the packets that came with the key. -/
def enqueueInitial (events : List ReceiveEvent) : List Packet → Except Error (List ReceiveEvent)
  | [] => .ok events
  | p :: ps =>
    if events.length ≥ eventQueueCapacity then .error tooManyPackets
    else enqueueInitial (events ++ [.packet p]) ps

/-- `Connection::spawn`.  `setup` is the outcome of the socket options, `thread` that of starting the reader. -/
def Connection.spawn (stream : Nat) (framer : Framer) (initial : List Packet) (setup thread : Except IoErrorKind Unit) :
    Except Error Connection :=
  match setup with
  | .error kind => .error (.io kind)
  | .ok () =>
    match enqueueInitial [] initial with
    | .error e => .error e
    | .ok events =>
      match thread with
      | .error kind => .error (.io kind)
      | .ok () => .ok ⟨stream, .reading framer, events⟩

theorem enqueueInitial_of_few : ∀ (packets : List Packet) (events : List ReceiveEvent),
    events.length + packets.length ≤ eventQueueCapacity →
    enqueueInitial events packets = .ok (events ++ packets.map .packet)
  | [], events, _ => by simp [enqueueInitial]
  | p :: packets, events, h => by
    rw [List.length_cons] at h
    have hroom : ¬ eventQueueCapacity ≤ events.length := by omega
    rw [enqueueInitial, if_neg hroom, enqueueInitial_of_few packets _ (by simp; omega)]
    simp

/-- **With room for the packets, only the operating system can fail a spawn.** -/
theorem spawn_of_few {initial : List Packet} (h : initial.length ≤ eventQueueCapacity) (stream : Nat) (framer : Framer)
    (setup thread : Except IoErrorKind Unit) :
    Connection.spawn stream framer initial setup thread = .ok ⟨stream, .reading framer, initial.map .packet⟩ ∨
    ∃ kind, Connection.spawn stream framer initial setup thread = .error (.io kind) := by
  unfold Connection.spawn
  rw [enqueueInitial_of_few initial [] (by simpa using h)]
  cases setup with
  | error kind => exact .inr ⟨kind, rfl⟩
  | ok u =>
    cases thread with
    | error kind => exact .inr ⟨kind, rfl⟩
    | ok u => exact .inl rfl

/-- One turn of `reader_loop`'s `match` on a read. -/
def Reader.afterRead (framer : Framer) : ReadResult → Reader
  | .ok [] => .closing
  | .ok bytes =>
    match framer.feed bytes with
    | .ok (framer', packets) => .sending packets framer'
    | .error _ => .closing
  | .error .interrupted | .error .wouldBlock | .error .timedOut => .reading framer
  | .error _ => .closing

/-- A connection in use: what the socket will still return, and what was received so far. -/
structure Session where
  connection : Connection
  reads : List ReadResult
  received : List ReceiveEvent

/-- One step of the reader thread or of the receiver. -/
inductive Step : Session → Session → Prop
  | read (stream framer events result reads received) :
      Step ⟨⟨stream, .reading framer, events⟩, result :: reads, received⟩
        ⟨⟨stream, .afterRead framer result, events⟩, reads, received⟩
  | send (stream p packets framer events reads received) : events.length < eventQueueCapacity →
      Step ⟨⟨stream, .sending (p :: packets) framer, events⟩, reads, received⟩
        ⟨⟨stream, .sending packets framer, events ++ [.packet p]⟩, reads, received⟩
  | sent (stream framer events reads received) :
      Step ⟨⟨stream, .sending [] framer, events⟩, reads, received⟩
        ⟨⟨stream, .reading framer, events⟩, reads, received⟩
  | close (stream events reads received) : events.length < eventQueueCapacity →
      Step ⟨⟨stream, .closing, events⟩, reads, received⟩
        ⟨⟨stream, .ended, events ++ [.disconnected]⟩, reads, received⟩
  | receive (stream reader event events reads received) :
      Step ⟨⟨stream, reader, event :: events⟩, reads, received⟩
        ⟨⟨stream, reader, events⟩, reads, received ++ [event]⟩

abbrev Steps : Session → Session → Prop := Relation.ReflTransGen Step

/-- What the reader thread sends from a read on. -/
def outputsReading (framer : Framer) : List ReadResult → List ReceiveEvent
  | [] => []
  | result :: reads =>
    match Reader.afterRead framer result with
    | .reading framer' => outputsReading framer' reads
    | .sending packets framer' => packets.map .packet ++ outputsReading framer' reads
    | .closing => [.disconnected]
    | .ended => []

/-- What the reader thread still has to send. -/
def Reader.outputs (reads : List ReadResult) : Reader → List ReceiveEvent
  | .reading framer => outputsReading framer reads
  | .sending packets framer => packets.map .packet ++ outputsReading framer reads
  | .closing => [.disconnected]
  | .ended => []

/-- Everything the receiver has got or will get. -/
def Session.total (s : Session) : List ReceiveEvent :=
  s.received ++ s.connection.events ++ s.connection.reader.outputs s.reads

theorem outputsReading_cons (framer : Framer) (result : ReadResult) (reads : List ReadResult) :
    outputsReading framer (result :: reads) = (Reader.afterRead framer result).outputs reads := by
  rw [outputsReading]
  cases Reader.afterRead framer result <;> rfl

/-- **No step adds, loses or reorders an event.** -/
theorem step_total {s t : Session} (h : Step s t) : t.total = s.total := by
  cases h with
  | read => simp only [Session.total, Reader.outputs, outputsReading_cons]
  | send => simp [Session.total, Reader.outputs]
  | sent => simp [Session.total, Reader.outputs]
  | close => simp [Session.total, Reader.outputs]
  | receive => simp [Session.total]

theorem steps_total {s t : Session} (h : Steps s t) : t.total = s.total := by
  induction h with
  | refl => rfl
  | tail _ hstep ih => rw [step_total hstep, ih]

/-- **A session without a step has delivered everything.** -/
theorem received_of_stuck {s : Session} (h : ∀ t, ¬ Step s t) : s.received = s.total := by
  obtain ⟨⟨stream, reader, events⟩, reads, received⟩ := s
  cases events with
  | cons event events => exact absurd (.receive ..) (h _)
  | nil =>
    cases reader with
    | reading framer =>
      cases reads with
      | nil => simp [Session.total, Reader.outputs, outputsReading]
      | cons result reads => exact absurd (.read ..) (h _)
    | sending packets framer =>
      cases packets with
      | nil => exact absurd (.sent ..) (h _)
      | cons p packets => exact absurd (.send _ _ _ _ _ _ _ (by decide)) (h _)
    | closing => exact absurd (.close _ _ _ _ (by decide)) (h _)
    | ended => simp [Session.total, Reader.outputs]

/-- The steps a session can still take, weighted so that each of them costs one at least. -/
def Reader.work (reads : List ReadResult) : Reader → Nat
  | .reading framer => workReading framer reads
  | .sending packets framer => 2 * packets.length + 1 + workReading framer reads
  | .closing => 3
  | .ended => 0
where
  workReading (framer : Framer) : List ReadResult → Nat
    | [] => 0
    | result :: reads =>
      match Reader.afterRead framer result with
      | .reading framer' => 1 + workReading framer' reads
      | .sending packets framer' => 2 * packets.length + 2 + workReading framer' reads
      | .closing => 4
      | .ended => 1

def Session.work (s : Session) : Nat := s.connection.reader.work s.reads + s.connection.events.length

theorem workReading_cons (framer : Framer) (result : ReadResult) (reads : List ReadResult) :
    Reader.work.workReading framer (result :: reads) = 1 + (Reader.afterRead framer result).work reads := by
  rw [Reader.work.workReading]
  cases Reader.afterRead framer result with
  | reading framer' => simp only [Reader.work]
  | sending packets framer' => simp only [Reader.work]; omega
  | closing => rfl
  | ended => rfl

/-- **Every step uses up work**, so a run has at most as many steps as its first session has work. -/
theorem step_work {s t : Session} (h : Step s t) : t.work < s.work := by
  cases h with
  | read => simp only [Session.work, Reader.work, workReading_cons]; omega
  | send => simp only [Session.work, Reader.work, List.length_append, List.length_cons, List.length_nil]; omega
  | sent => simp only [Session.work, Reader.work, List.length_nil]; omega
  | close => simp only [Session.work, Reader.work, List.length_append, List.length_cons, List.length_nil]; omega
  | receive => simp only [Session.work, List.length_cons]; omega

/-- **Every session reaches one without a step.** -/
theorem reaches_stuck : ∀ (n : Nat) (s : Session), s.work ≤ n → ∃ t, Steps s t ∧ ∀ u, ¬ Step t u
  | 0, s, hn => ⟨s, .refl, fun u hu => by have := step_work hu; omega⟩
  | n + 1, s, hn => by
    by_cases hs : ∃ t, Step s t
    · obtain ⟨t, ht⟩ := hs
      have := step_work ht
      obtain ⟨u, hu, hstuck⟩ := reaches_stuck n t (by omega)
      exact ⟨u, .head ht hu, hstuck⟩
    · exact ⟨s, .refl, fun u hu => hs ⟨u, hu⟩⟩

end Protocol
end Jss
