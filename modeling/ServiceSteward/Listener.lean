import ServiceSteward.Connection
import ServiceSteward.SwapScan
/-!
# Listener — the handshakes of `BackendListener`

One call of `poll_authentication` accepts what is waiting, then scans the pending handshakes once: each is advanced by
at most one read of its socket, kept, dropped, or handed over.  What the operating system answers during a call is its
`Poll`: the results of `accept`, the clock, the results of the reads in the order they are made, and how setting up the
connection goes.  A socket is named by its place in the order of acceptance.  `Obs` is what an observer of the call
sees.
-/
namespace Jss
namespace Protocol

structure PendingHandshake where
  stream : Nat
  framer : Framer
  deadline : Instant
  deriving DecidableEq, Repr

structure BackendListener where
  pending : List PendingHandshake := []
  /-- How many sockets were accepted so far: the name of the next one. -/
  accepted : Nat := 0
  deriving DecidableEq, Repr

inductive HandshakeStep where
  | keep
  | drop
  | authenticated (initial : List Packet)
  deriving DecidableEq, Repr

/-- A socket that `accept` returned: whether its peer is on loopback, whether its options could be set, and the clock
at that moment. -/
structure Accepted where
  loopback : Bool
  configured : Bool
  now : Instant
  deriving DecidableEq, Repr

/-- The size of the buffer that `advance_handshake` reads into. -/
def handshakeBuffer : Nat := 512

theorem short_of_no_reads : ∀ bytes : Bytes, (.ok bytes : ReadResult) ∈ [] → bytes.length ≤ handshakeBuffer := by
  intro bytes h
  cases h

/-- What the operating system answers during one call.  Past the end of a list it answers `WouldBlock`. -/
structure Poll where
  accepts : List (Except IoErrorKind Accepted)
  now : Instant
  reads : List ReadResult
  short : ∀ bytes, .ok bytes ∈ reads → bytes.length ≤ handshakeBuffer
  setup : Except IoErrorKind Unit := .ok ()
  thread : Except IoErrorKind Unit := .ok ()

inductive Obs where
  | pending (stream : Nat) (deadline : Instant)
  | advanced (stream : Nat)
  | read (stream : Nat) (bytes : Bytes)
  | badKey (stream : Nat)
  deriving DecidableEq, Repr

/-- The `accept` loop of `poll_authentication`. -/
def BackendListener.acceptAll (l : BackendListener) (handshakeTimeout : Duration) :
    List (Except IoErrorKind Accepted) → BackendListener × List Obs × Except Error Unit
  | [] => (l, [], .ok ())
  | .error .wouldBlock :: _ => (l, [], .ok ())
  | .error .interrupted :: accepts => l.acceptAll handshakeTimeout accepts
  | .error kind :: _ => (l, [], .error (.io kind))
  | .ok a :: accepts =>
    let next := { l with accepted := l.accepted + 1 }
    if !a.loopback || l.pending.length ≥ maxPendingHandshakes then next.acceptAll handshakeTimeout accepts
    else if !a.configured then next.acceptAll handshakeTimeout accepts
    else
      let deadline := a.now + handshakeTimeout
      let r := BackendListener.acceptAll { next with pending := l.pending ++ [⟨l.accepted, {}, deadline⟩] }
        handshakeTimeout accepts
      (r.1, .pending l.accepted deadline :: r.2.1, r.2.2)

/-- The reads still to come, and what was observed so far. -/
structure ScanState where
  reads : List ReadResult
  obs : List Obs

/-- `advance_handshake`: the handshake after it, and what to do with it. -/
def advanceHandshake (expectedKey : Bytes) (now : Instant) (s : ScanState) (h : PendingHandshake) :
    ScanState × PendingHandshake × HandshakeStep :=
  let s := { s with obs := s.obs ++ [.advanced h.stream] }
  if now ≥ h.deadline then (s, h, .drop)
  else
    let result := s.reads.head?.getD (.error .wouldBlock)
    let s := { s with reads := s.reads.tail }
    match result with
    | .ok [] => (s, h, .drop)
    | .error .wouldBlock | .error .interrupted => (s, h, .keep)
    | .error _ => (s, h, .drop)
    | .ok bytes =>
      let s := { s with obs := s.obs ++ [.read h.stream bytes] }
      match h.framer.feed bytes with
      | .error _ => (s, h, .drop)
      | .ok (framer, []) => (s, { h with framer := framer }, .keep)
      | .ok (framer, first :: rest) =>
        if first.code = KEY ∧ first.message = expectedKey then (s, { h with framer := framer }, .authenticated rest)
        else ({ s with obs := s.obs ++ [.badKey h.stream] }, { h with framer := framer }, .drop)

/-- The arms of the scan's `match`: `index += 1`, `swap_remove`, or `swap_remove` and return. -/
def visit (expectedKey : Bytes) (now : Instant) (s : ScanState) (h : PendingHandshake) :
    ScanState × SwapScan.Verdict PendingHandshake (PendingHandshake × List Packet) :=
  match advanceHandshake expectedKey now s h with
  | (s', h', .keep) => (s', .keep h')
  | (s', _, .drop) => (s', .drop)
  | (s', h', .authenticated initial) => (s', .stop (h', initial))

/-- `poll_authentication`: the listener after the call, what was observed, and the result. -/
def BackendListener.pollAuthentication (l : BackendListener) (expectedKey : Bytes) (handshakeTimeout : Duration)
    (poll : Poll) : BackendListener × List Obs × Except Error (Option Connection) :=
  match l.acceptAll handshakeTimeout poll.accepts with
  | (l', obs, .error e) => (l', obs, .error e)
  | (l', obs, .ok ()) =>
    match SwapScan.scan (visit expectedKey poll.now) l'.pending.length ⟨poll.reads, obs⟩ l'.pending 0 with
    | (s, pending, none) => ({ l' with pending := pending }, s.obs, .ok none)
    | (s, pending, some (h, initial)) =>
      ({ l' with pending := pending }, s.obs,
        (Connection.spawn h.stream h.framer initial poll.setup poll.thread).map some)

/-- A finished call: the key it was given, the clock of its scan, the handshakes the scan started with, what was
observed, the result. -/
structure PollRecord where
  expectedKey : Bytes
  now : Instant
  scanned : List Nat
  obs : List Obs
  result : Except Error (Option Connection)

/-- The calls made on a listener since it was bound, each with the key, the timeout and the answers of its moment. -/
inductive Polls : BackendListener → List PollRecord → Prop
  | bound : Polls {} []
  | poll {l : BackendListener} {history : List PollRecord} (expectedKey : Bytes) (handshakeTimeout : Duration)
      (poll : Poll) : Polls l history →
      Polls (l.pollAuthentication expectedKey handshakeTimeout poll).1
        (history ++ [⟨expectedKey, poll.now, (l.acceptAll handshakeTimeout poll.accepts).1.pending.map (·.stream),
          (l.pollAuthentication expectedKey handshakeTimeout poll).2.1,
          (l.pollAuthentication expectedKey handshakeTimeout poll).2.2⟩])

/-- The bytes a handshake has read from a socket. -/
def bytesOf (stream : Nat) (obs : List Obs) : Bytes :=
  obs.flatMap (fun
    | .read stream' bytes => if stream' = stream then bytes else []
    | _ => [])

/-- The deadlines a socket was given when it was accepted. -/
def deadlinesOf (stream : Nat) (obs : List Obs) : List Instant :=
  obs.flatMap (fun
    | .pending stream' deadline => if stream' = stream then [deadline] else []
    | _ => [])

/-- The sockets a call advanced, in order. -/
def advancedOf (obs : List Obs) : List Nat :=
  obs.filterMap (fun
    | .advanced stream => some stream
    | _ => none)

/-- All that was observed of a listener. -/
def observed (history : List PollRecord) : List Obs := history.flatMap (·.obs)

end Protocol
end Jss
