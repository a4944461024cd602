import ServiceSteward.FramerStream
/-!
# Bridge — what the Java bridge writes to the control channel

`BackendClient` of the bridge: the calls an application can make, the packet each of them sends, and the frame
`BackendClient.send` builds for it.  A Java string is its list of UTF-16 code units.  The Java encoder has the size
check of `Packet::write_to` but not its NUL check, and `log` passes the application's text through, so a text with
U+0000 ends its packet early (`frame_decodes_iff`).
-/
namespace Jss
namespace Bridge

open Protocol (Packet Framer maxPacketSize)
open Incremental (emitted)

/-! ## Strings -/

abbrev JString := List UInt16

/-- A literal or a formatted number: every character is one code unit. -/
def JString.ofText (t : Text) : JString := t.map (fun c => UInt16.ofNat c.toNat)

def isHighSurrogate (u : UInt16) : Bool := decide (0xD800 ≤ u.toNat ∧ u.toNat ≤ 0xDBFF)
def isLowSurrogate (u : UInt16) : Bool := decide (0xDC00 ≤ u.toNat ∧ u.toNat ≤ 0xDFFF)

/-- The code point of a surrogate pair. -/
def codePoint (high low : UInt16) : Nat := 0x10000 + (high.toNat - 0xD800) * 0x400 + (low.toNat - 0xDC00)

/-- `String.getBytes(UTF_8)`: a surrogate without its partner is encoded as `?`. -/
def getBytes : JString → Bytes
  | [] => []
  | [u] => encodeUnit u
  | u :: v :: rest =>
    if isHighSurrogate u && isLowSurrogate v then
      [UInt8.ofNat (0xF0 + codePoint u v / 0x40000), UInt8.ofNat (0x80 + codePoint u v / 0x1000 % 0x40),
        UInt8.ofNat (0x80 + codePoint u v / 0x40 % 0x40), UInt8.ofNat (0x80 + codePoint u v % 0x40)] ++ getBytes rest
    else encodeUnit u ++ getBytes (v :: rest)
where
  /-- A code unit on its own. -/
  encodeUnit (u : UInt16) : Bytes :=
    if u.toNat < 0x80 then [UInt8.ofNat u.toNat]
    else if u.toNat < 0x800 then [UInt8.ofNat (0xC0 + u.toNat / 0x40), UInt8.ofNat (0x80 + u.toNat % 0x40)]
    else if isHighSurrogate u || isLowSurrogate u then [0x3F]
    else [UInt8.ofNat (0xE0 + u.toNat / 0x1000), UInt8.ofNat (0x80 + u.toNat / 0x40 % 0x40),
      UInt8.ofNat (0x80 + u.toNat % 0x40)]

/-! ## The client -/

def START_PENDING : Nat := 105
def STARTED : Nat := 106
def STOPPED : Nat := 107
def STOP : Nat := 101
def RESTART : Nat := 102
def LOG_BASE : Nat := 116

/-- The fields of `BackendClient` its sending methods read. -/
structure BackendClient where
  /-- `output != null`. -/
  connected : Bool := true
  lowLogLevel : Int := 2
  stoppedSent : Bool := false

inductive Call where
  | reportStarted
  | reportStopped (exitCode : Int)
  | requestStop (exitCode : Int)
  | requestRestart
  | signalStarting (waitHintMillis : Int)
  | log (level : Int) (message : Option JString)
  deriving DecidableEq, Repr

/-- `BackendClient.send`: the frame handed to the socket, or the message of the exception. -/
def BackendClient.send (client : BackendClient) (code : Nat) (message : JString) : Except Text Bytes :=
  if !client.connected then .error "control socket is not connected".toList
  else if (getBytes message).length > maxPacketSize then .error "control packet exceeds 1048576 bytes".toList
  else .ok (UInt8.ofNat code :: getBytes message ++ [0])

/-- The code and the text a call passes to `sendQuietly`, and the client after it. -/
def BackendClient.perform (client : BackendClient) : Call → BackendClient × Option (Nat × JString)
  | .reportStarted => (client, some (STARTED, []))
  | .reportStopped exitCode =>
    if client.stoppedSent then (client, none)
    else ({ client with stoppedSent := true }, some (STOPPED, .ofText (.ofInt exitCode)))
  | .requestStop exitCode => (client, some (STOP, .ofText (.ofInt exitCode)))
  | .requestRestart => (client, some (RESTART, .ofText "restart".toList))
  | .signalStarting waitHintMillis => (client, some (START_PENDING, .ofText (.ofInt (max 0 waitHintMillis))))
  | .log level message =>
    if level < 1 || level > 8 || level < client.lowLogLevel then (client, none)
    else (client, some (LOG_BASE + level.toNat, message.getD (.ofText "null".toList)))

/-- What happens to the client: a call, and whether the socket takes its bytes; a `LOW_LOG_LEVEL` packet from the
wrapper; the socket closed. -/
inductive Event where
  | call (c : Call) (socketTakes : Bool)
  | lowLogLevel (level : Int)
  | closed
  deriving DecidableEq, Repr

/-- A frame that was written without an exception. -/
structure Written where
  call : Call
  code : Nat
  message : JString
  frame : Bytes
  deriving DecidableEq, Repr

/-- One event: the client after it, and the frame it wrote. -/
def BackendClient.step (client : BackendClient) : Event → BackendClient × Option Written
  | .lowLogLevel level => ({ client with lowLogLevel := level }, none)
  | .closed => ({ client with connected := false }, none)
  | .call c socketTakes =>
    match client.perform c with
    | (client', none) => (client', none)
    | (client', some (code, message)) =>
      match client'.send code message with
      | .error _ => (client', none)
      | .ok frame => (client', if socketTakes then some ⟨c, code, message, frame⟩ else none)

def BackendClient.written (client : BackendClient) : List Event → List Written
  | [] => []
  | e :: es => (client.step e).2.toList ++ (client.step e).1.written es

/-- **The supervisor reads the frame as it was meant**: one packet, of its code and its text, and nothing left over. -/
def Written.Decodes (w : Written) : Prop :=
  ∃ (code : UInt8) (f : Framer), code.toNat = w.code ∧ f.isIdle = true ∧
    Framer.feed {} w.frame = .ok (f, [⟨code, getBytes w.message⟩])

/-- The text an application logged has no U+0000. -/
def Call.NulFree : Call → Prop
  | .log _ (some message) => 0 ∉ message
  | _ => True

/-! ## NUL in a text and in its bytes -/

theorem ofNat_ne_zero {n : Nat} (h0 : 0 < n) (h : n < 256) : (0 : UInt8) ≠ UInt8.ofNat n := by
  intro he
  have := congrArg UInt8.toNat he
  rw [UInt8.toNat_ofNat_of_lt' (by simpa using h)] at this
  simp at this
  omega

theorem zero_mem_encodeUnit (u : UInt16) : (0 : UInt8) ∈ getBytes.encodeUnit u ↔ u = 0 := by
  have hu : u.toNat < 65536 := u.toNat_lt
  have h0 : u = 0 ↔ u.toNat = 0 := UInt16.toNat_inj.symm
  rw [h0]
  unfold getBytes.encodeUnit
  split
  · rw [List.mem_singleton]
    constructor
    · intro he
      by_contra hne
      exact ofNat_ne_zero (by omega) (by omega) he
    · intro he
      rw [he]
      rfl
  split
  · simp only [List.mem_cons, List.not_mem_nil, or_false]
    have h1 := ofNat_ne_zero (n := 0xC0 + u.toNat / 0x40) (by omega) (by omega)
    have h2 := ofNat_ne_zero (n := 0x80 + u.toNat % 0x40) (by omega) (by omega)
    simp only [h1, h2, or_self, false_iff]
    omega
  split
  · have : (0 : UInt8) ∉ [0x3F] := by decide
    simp only [this, false_iff]
    omega
  · simp only [List.mem_cons, List.not_mem_nil, or_false]
    have h1 := ofNat_ne_zero (n := 0xE0 + u.toNat / 0x1000) (by omega) (by omega)
    have h2 := ofNat_ne_zero (n := 0x80 + u.toNat / 0x40 % 0x40) (by omega) (by omega)
    have h3 := ofNat_ne_zero (n := 0x80 + u.toNat % 0x40) (by omega) (by omega)
    simp only [h1, h2, h3, or_self, false_iff]
    omega

/-- **The encoding of a text has a NUL byte exactly where the text has U+0000.** -/
theorem zero_mem_getBytes : ∀ s : JString, (0 : UInt8) ∈ getBytes s ↔ (0 : UInt16) ∈ s
  | [] => by simp [getBytes]
  | [u] => by
    rw [getBytes, zero_mem_encodeUnit, List.mem_singleton, eq_comm]
  | u :: v :: rest => by
    rw [getBytes]
    split
    · rename_i hs
      simp only [isHighSurrogate, isLowSurrogate, Bool.and_eq_true, decide_eq_true_eq] at hs
      have hcp : codePoint u v < 0x110000 := by unfold codePoint; omega
      have h1 := ofNat_ne_zero (n := 0xF0 + codePoint u v / 0x40000) (by omega) (by omega)
      have h2 := ofNat_ne_zero (n := 0x80 + codePoint u v / 0x1000 % 0x40) (by omega) (by omega)
      have h3 := ofNat_ne_zero (n := 0x80 + codePoint u v / 0x40 % 0x40) (by omega) (by omega)
      have h4 := ofNat_ne_zero (n := 0x80 + codePoint u v % 0x40) (by omega) (by omega)
      have hu : (0 : UInt16) ≠ u := fun h => by rw [← h] at hs; simp at hs
      have hv : (0 : UInt16) ≠ v := fun h => by rw [← h] at hs; simp at hs
      simp only [List.mem_append, List.mem_cons, List.not_mem_nil, h1, h2, h3, h4, hu, hv, or_self, false_or,
        zero_mem_getBytes rest]
    · rw [List.mem_append, zero_mem_encodeUnit, zero_mem_getBytes (v :: rest)]
      exact (or_congr_left eq_comm).trans List.mem_cons.symm

/-! ## One frame -/

/-- A literal or a number has no U+0000. -/
theorem zero_not_mem_ofText (t : Text) (h : ∀ c ∈ t, 0 < c.toNat ∧ c.toNat < 0x80) : (0 : UInt16) ∉ JString.ofText t := by
  intro hm
  obtain ⟨c, hc, he⟩ := List.mem_map.1 hm
  obtain ⟨h1, h2⟩ := h c hc
  have hlt : c.toNat < UInt16.size := Nat.lt_trans h2 (by decide)
  have := congrArg UInt16.toNat he
  rw [UInt16.toNat_ofNat_of_lt' hlt, UInt16.toNat_zero] at this
  omega

theorem ofInt_ascii (n : Int) : ∀ c ∈ Text.ofInt n, 0 < c.toNat ∧ c.toNat < 0x80 := by
  have hd : ∀ (m : Nat), ∀ c ∈ Text.ofNat m, 0 < c.toNat ∧ c.toNat < 0x80 := by
    intro m c hc
    have := Nat.isDigit_of_mem_toDigits (by decide) (by decide) hc
    simp only [Char.isDigit, Bool.and_eq_true, decide_eq_true_eq] at this
    have h1 : 48 ≤ c.toNat := this.1
    have h2 : c.toNat ≤ 57 := this.2
    omega
  cases n with
  | ofNat m => exact hd m
  | negSucc m =>
    intro c hc
    rcases List.mem_cons.1 hc with rfl | hc
    · decide
    · exact hd (m + 1) c hc

/-- **Only a logged text can have U+0000**: every other call sends a literal or a number. -/
theorem perform_nulFree (client client' : BackendClient) (c : Call) (code : Nat) (message : JString)
    (h : client.perform c = (client', some (code, message))) : 0 ∉ message ↔ c.NulFree := by
  cases c with
  | reportStarted => cases h; simp [Call.NulFree]
  | reportStopped exitCode =>
    simp only [BackendClient.perform] at h
    split at h
    · cases h
    · cases h
      simp [Call.NulFree, zero_not_mem_ofText _ (ofInt_ascii exitCode)]
  | requestStop exitCode => cases h; simp [Call.NulFree, zero_not_mem_ofText _ (ofInt_ascii exitCode)]
  | requestRestart =>
    cases h
    exact iff_of_true (zero_not_mem_ofText "restart".toList (by simp)) trivial
  | signalStarting waitHintMillis =>
    cases h
    simp [Call.NulFree, zero_not_mem_ofText _ (ofInt_ascii (max 0 waitHintMillis))]
  | log level message' =>
    simp only [BackendClient.perform] at h
    split at h
    · cases h
    · cases h
      cases message' with
      | none => exact iff_of_true (zero_not_mem_ofText "null".toList (by simp)) trivial
      | some text => exact Iff.rfl

/-- The type codes the client uses fit a byte. -/
theorem perform_code (client client' : BackendClient) (c : Call) (code : Nat) (message : JString)
    (h : client.perform c = (client', some (code, message))) : code < 256 := by
  cases c with
  | reportStarted => cases h; decide
  | reportStopped exitCode =>
    simp only [BackendClient.perform] at h
    split at h
    · cases h
    · cases h; decide
  | requestStop exitCode => cases h; decide
  | requestRestart => cases h; decide
  | signalStarting waitHintMillis => cases h; decide
  | log level message' =>
    simp only [BackendClient.perform] at h
    split at h
    · cases h
    · rename_i hl
      cases h
      simp only [Bool.or_eq_true, decide_eq_true_eq, not_or] at hl
      unfold LOG_BASE
      omega

/-- A NUL in the payload ends the packet there. -/
theorem first_packet_of_nul (code : UInt8) (payload rest : Bytes) (h : 0 ∈ payload)
    (hlen : payload.length ≤ maxPacketSize) :
    ∃ p packets, (emitted Framer.feedByte {} (code :: payload ++ rest)).1 = ⟨code, p⟩ :: packets ∧
      p.length < payload.length := by
  obtain ⟨p, q, rfl, hp⟩ := List.eq_append_cons_of_mem h
  have hplen : p.length ≤ maxPacketSize := by simp at hlen; omega
  refine ⟨p, (emitted Framer.feedByte {} (q ++ rest)).1, ?_, by simp⟩
  have hsplit : code :: (p ++ 0 :: q) ++ rest = code :: p ++ 0 :: (q ++ rest) := by simp
  rw [hsplit, Protocol.emitted_packet code p (q ++ rest) hp hplen]

theorem send_eq_ok {client : BackendClient} {code : Nat} {message : JString} {frame : Bytes}
    (h : client.send code message = .ok frame) :
    (getBytes message).length ≤ maxPacketSize ∧ frame = UInt8.ofNat code :: getBytes message ++ [0] := by
  unfold BackendClient.send at h
  split at h
  · cases h
  · split at h
    · cases h
    · rename_i hlen
      cases h
      exact ⟨Nat.not_lt.1 hlen, rfl⟩

/-- **A frame decodes to its packet exactly when its text has no U+0000.** -/
theorem frame_decodes_iff (w : Written) (hcode : w.code < 256) (hlen : (getBytes w.message).length ≤ maxPacketSize)
    (hframe : w.frame = UInt8.ofNat w.code :: getBytes w.message ++ [0]) : w.Decodes ↔ 0 ∉ w.message := by
  rw [← zero_mem_getBytes]
  constructor
  · rintro ⟨code, f, _, _, hfeed⟩ hnul
    rw [Protocol.feed_eq] at hfeed
    have he := Incremental.emitted_of_feed _ hfeed
    obtain ⟨p, packets, hp, hshort⟩ := first_packet_of_nul (UInt8.ofNat w.code) _ [0] hnul hlen
    rw [hframe] at he
    rw [he] at hp
    have hmsg : getBytes w.message = p := congrArg Packet.message (List.cons.inj hp).1
    rw [hmsg] at hshort
    exact Nat.lt_irrefl _ hshort
  · intro hnul
    have hw := Protocol.writeTo_of_valid (p := ⟨UInt8.ofNat w.code, getBytes w.message⟩) hlen hnul
    refine ⟨UInt8.ofNat w.code, {}, UInt8.toNat_ofNat_of_lt' (by simpa using hcode), rfl, ?_⟩
    rw [Protocol.feed_eq, hframe]
    refine Incremental.feed_of_ok _ ?_
    have := Protocol.emitted_frame hw []
    simpa using this

theorem step_written {client : BackendClient} {e : Event} {w : Written} (h : (client.step e).2 = some w) :
    ∃ client' socketTakes, e = .call w.call socketTakes ∧
      client.perform w.call = (client', some (w.code, w.message)) ∧ client'.send w.code w.message = .ok w.frame := by
  cases e with
  | lowLogLevel level => cases h
  | closed => cases h
  | call c socketTakes =>
    simp only [BackendClient.step] at h
    split at h
    · cases h
    · rename_i client' code message hp
      split at h
      · cases h
      · rename_i frame hs
        cases socketTakes with
        | false => cases h
        | true =>
          cases h
          exact ⟨client', true, rfl, hp, hs⟩

theorem mem_written : ∀ (es : List Event) (client : BackendClient) (w : Written), w ∈ client.written es →
    ∃ client₁ e, e ∈ es ∧ (BackendClient.step client₁ e).2 = some w
  | [], client, w, h => by cases h
  | e :: es, client, w, h => by
    rw [BackendClient.written, List.mem_append] at h
    rcases h with h | h
    · exact ⟨client, e, List.mem_cons_self, Option.mem_toList.1 h⟩
    · obtain ⟨client₁, e₁, he₁, hs⟩ := mem_written es _ w h
      exact ⟨client₁, e₁, List.mem_cons_of_mem _ he₁, hs⟩

/-- **Every frame of a run decodes to its packet exactly when no text logged in it has U+0000.** -/
theorem written_decodes_iff (client : BackendClient) (events : List Event) :
    (∀ w ∈ client.written events, w.Decodes) ↔ ∀ w ∈ client.written events, w.call.NulFree := by
  have hone : ∀ w ∈ client.written events, (w.Decodes ↔ w.call.NulFree) := by
    intro w hw
    obtain ⟨client₁, e, _, hs⟩ := mem_written events client w hw
    obtain ⟨client', socketTakes, _, hp, hsend⟩ := step_written hs
    obtain ⟨hlen, hframe⟩ := send_eq_ok hsend
    rw [frame_decodes_iff w (perform_code _ _ _ _ _ hp) hlen hframe]
    exact perform_nulFree _ _ _ _ _ hp
  exact ⟨fun h w hw => (hone w hw).1 (h w hw), fun h w hw => (hone w hw).2 (h w hw)⟩

/-- **A logged text that is read as a stop request**: U+0000, `e`, U+0000 is an empty INFO record, then `STOP`. -/
theorem logged_nul_is_read_as_stop :
    ∃ w, ({} : BackendClient).written [.call (.log 2 (some [0, 101, 0])) true] = [w] ∧ ¬ w.Decodes ∧
      Framer.deliver {} [w.frame] =
        ([⟨118, []⟩, ⟨Protocol.STOP, []⟩], .ok { pendingCode := some 0, partialBytes := [] }) := by
  refine ⟨⟨.log 2 (some [0, 101, 0]), 118, [0, 101, 0], [118, 0, 101, 0, 0]⟩, by decide, ?_, by decide⟩
  rintro ⟨code, f, _, _, hfeed⟩
  have : Framer.feed {} [118, 0, 101, 0, 0] = .ok (⟨some 0, []⟩, [⟨118, []⟩, ⟨101, []⟩]) := by decide
  rw [this] at hfeed
  simp at hfeed

end Bridge
end Jss
