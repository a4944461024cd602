import ServiceSteward.BridgeThreads
/-!
# WholeFrames — the threads of the bridge never mix their frames

Only the thread inside the monitor writes (`Writes`), so what is on the wire is the frames of the packets sent so far and
the beginning of one more (`Framed`).  **`supervisor_reads_what_was_sent`: under every interleaving the supervisor reads
off exactly these packets**, as long as no text has U+0000; and once the client is closed nothing is written any more.
-/
namespace Jss
namespace Bridge

open Protocol (Stream packetsOf maxPacketSize)
open Interleaving.Machine (Holds Proves)

/-! ## Texts -/

def NulFree (message : JString) : Prop := 0 ∉ message

/-- No text that the task is going to send has U+0000. -/
def Task.NulFree : Task → Prop
  | .call c next => c.NulFree ∧ next.NulFree
  | .send _ _ message thrown next => Bridge.NulFree message ∧ thrown.NulFree ∧ next.NulFree
  | .set _ next | .close next | .countDown next | .await next | .startStopThread next | .joinStopThread next
  | .waitForApplicationThreads next => next.NulFree
  | .test _ ifSet otherwise => ifSet.NulFree ∧ otherwise.NulFree
  | _ => True

/-- Neither does what comes from outside. -/
def Answer.NulFree : Answer → Prop
  | .packet _ message => Bridge.NulFree message
  | .call c => c.NulFree
  | _ => True

theorem stopped_nulFree (exitCode : Int) : (stopped exitCode).NulFree := ⟨trivial, trivial⟩

theorem onStop_nulFree (launcher : Launcher) (exitCode : Int) : (onStop launcher exitCode).NulFree := by
  cases launcher with
  | application => exact stopped_nulFree exitCode
  | listener => trivial
  | startStop waits =>
    cases waits with
    | true => exact stopped_nulFree exitCode
    | false => exact stopped_nulFree exitCode

theorem ioException_nulFree : ioException.NulFree := ⟨trivial, trivial, trivial⟩

theorem onJvmShutdown_nulFree : onJvmShutdown.NulFree :=
  ⟨trivial, trivial, zero_not_mem_ofText "0".toList (by simp), trivial, trivial⟩

theorem handle_nulFree (setup : Setup) (s : Jvm) (code : Nat) {message : JString} (h : NulFree message) :
    (handle setup.runtime setup.launcher s code message).2.NulFree := by
  unfold handle
  split
  · cases setup.launcher with
    | _ => trivial
  split
  · exact onStop_nulFree _ _
  split
  · exact ⟨h, ioException_nulFree, trivial⟩
  split
  · trivial
  split
  · cases setup.launcher with
    | _ => trivial
  split
  · exact ioException_nulFree
  · trivial

theorem returned_nulFree (body : Body) (exitCode : Option Int) : (returned body exitCode).NulFree := by
  cases body with
  | listenerStart =>
    cases exitCode with
    | none => exact ⟨trivial, trivial⟩
    | some exitCode => exact ⟨trivial, trivial⟩
  | listenerStop code => exact stopped_nulFree _
  | _ => trivial

theorem threw_nulFree (body : Body) : (threw body).NulFree := by
  cases body with
  | listenerStop code => exact stopped_nulFree _
  | controlEvent => exact ⟨trivial, trivial⟩
  | _ => trivial

theorem crashed_nulFree (body : Body) : (crashed body).NulFree := by
  cases body with
  | _ => trivial

theorem exit_nulFree (s : Jvm) (hook : Bool) (cause : Cause) : ∀ t ∈ (s.exit hook cause).2, t.NulFree := by
  unfold Jvm.exit
  cases s.shutdown with
  | some _ => simp
  | none =>
    cases hook with
    | true => simpa using onJvmShutdown_nulFree
    | false => simp [Task.NulFree]

/-! ## A step that does not write -/

/-- Nothing is written, and the monitor is neither entered nor left. -/
structure Unwritten (s s' : Jvm) : Prop where
  wire : s'.wire = s.wire
  sent : s'.sent = s.sent
  monitor : s'.monitor = s.monitor
  lost : s.connectionLost = true → s'.connectionLost = true
  connected : s'.client.connected = s.client.connected ∨ (s.monitor = none ∧ s'.client.connected = false)

theorem unwritten_of_eq {s s' : Jvm} (wire : s'.wire = s.wire) (sent : s'.sent = s.sent)
    (monitor : s'.monitor = s.monitor) (lost : s'.connectionLost = s.connectionLost)
    (connected : s'.client.connected = s.client.connected) : Unwritten s s' :=
  ⟨wire, sent, monitor, fun h => by rw [lost, h], .inl connected⟩

theorem perform_connected (client : BackendClient) (c : Call) : (client.perform c).1.connected = client.connected := by
  cases c with
  | reportStopped exitCode =>
    simp only [BackendClient.perform]
    split <;> rfl
  | log level message =>
    simp only [BackendClient.perform]
    split <;> rfl
  | _ => rfl

theorem perform_message {client client' : BackendClient} {c : Call} {code : Nat} {message : JString}
    (h : client.perform c = (client', some (code, message))) (hc : c.NulFree) : NulFree message :=
  (perform_nulFree client client' c code message h).2 hc

theorem unwritten_handle (setup : Setup) (s : Jvm) (code : Nat) (message : JString) :
    Unwritten s (handle setup.runtime setup.launcher s code message).1 := by
  unfold handle
  repeat' split
  all_goals exact unwritten_of_eq rfl rfl rfl rfl rfl

theorem unwritten_set (s : Jvm) (flag : Flag) : Unwritten s (s.set flag) := by
  cases flag with
  | _ => exact unwritten_of_eq rfl rfl rfl rfl rfl

theorem unwritten_exit (s : Jvm) (hook : Bool) (cause : Cause) : Unwritten s (s.exit hook cause).1 := by
  unfold Jvm.exit
  cases s.shutdown with
  | _ => exact unwritten_of_eq rfl rfl rfl rfl rfl

/-- **A thread that is not writing leaves the wire alone**, and what it sends next is what it was going to send or what
came from outside. -/
theorem proceed_spec {setup : Setup} {s s' : Jvm} {t t' : Task} {answer : Answer} {started : List Task}
    (h : proceed setup s t answer = some (s', t', started)) (ht : t.NulFree) (ha : answer.NulFree) :
    Unwritten s s' ∧ t'.NulFree ∧ ∀ u ∈ started, u.NulFree := by
  have hsame : Unwritten s s := unwritten_of_eq rfl rfl rfl rfl rfl
  cases t with
  | done => cases h
  | exiting => cases h
  | send hook code message thrown next => cases h
  | controlLoop =>
    cases h
    refine ⟨hsame, ?_, by simp⟩
    split <;> trivial
  | reading =>
    cases answer with
    | packet code message =>
      cases h
      exact ⟨unwritten_handle setup s code message, handle_nulFree setup s code ha, by simp⟩
    | timeout missing =>
      cases h
      refine ⟨hsame, ⟨trivial, trivial, ?_⟩, by simp⟩
      cases missing with
      | true => exact ioException_nulFree
      | false => trivial
    | failed =>
      cases h
      exact ⟨hsame, ioException_nulFree, by simp⟩
    | _ => cases h
  | application body =>
    cases answer with
    | call c =>
      by_cases hc : c.public = true
      · simp only [proceed, hc, if_true] at h
        cases h
        exact ⟨hsame, ⟨ha, trivial⟩, by simp⟩
      · simp only [proceed, hc] at h
        cases h
    | startsThread =>
      cases h
      exact ⟨unwritten_of_eq rfl rfl rfl rfl rfl, trivial, by simp [Task.NulFree]⟩
    | returns exitCode =>
      cases h
      exact ⟨hsame, returned_nulFree body exitCode, by simp⟩
    | throws =>
      cases h
      exact ⟨hsame, threw_nulFree body, by simp⟩
    | fails =>
      cases h
      exact ⟨hsame, crashed_nulFree body, by simp⟩
    | exits =>
      cases h
      exact ⟨hsame, trivial, by simp⟩
    | _ => cases h
  | finish body =>
    cases h
    exact ⟨unwritten_of_eq rfl rfl rfl rfl rfl, trivial, by simp⟩
  | call c next =>
    have hconnected := perform_connected s.client c
    simp only [proceed] at h
    cases hp : s.client.perform c with
    | mk client r =>
      rw [hp] at h hconnected
      cases r with
      | none =>
        cases h
        exact ⟨unwritten_of_eq rfl rfl rfl rfl hconnected, ht.2, by simp⟩
      | some packet =>
        obtain ⟨code, message⟩ := packet
        cases h
        exact ⟨unwritten_of_eq rfl rfl rfl rfl hconnected, ⟨perform_message hp ht.1, ht.2, ht.2⟩, by simp⟩
  | set flag next =>
    cases h
    exact ⟨unwritten_set s flag, ht, by simp⟩
  | test flag ifSet otherwise =>
    cases h
    refine ⟨hsame, ?_, by simp⟩
    split
    · exact ht.1
    · exact ht.2
  | close next =>
    by_cases hfree : s.monitor.isSome = true
    · simp only [proceed, hfree, if_true] at h
      cases h
    · have hnone : s.monitor = none := by simpa using hfree
      simp only [proceed] at h
      rw [if_neg hfree] at h
      cases h
      exact ⟨⟨rfl, rfl, rfl, id, .inr ⟨hnone, rfl⟩⟩, ht, by simp⟩
  | startApplication =>
    simp only [proceed] at h
    split at h
    · cases h
      exact ⟨hsame, trivial, by simp⟩
    · cases h
      exact ⟨unwritten_of_eq rfl rfl rfl rfl rfl, ⟨trivial, trivial⟩, by simp [Task.NulFree]⟩
  | countDown next =>
    cases h
    exact ⟨unwritten_of_eq rfl rfl rfl rfl rfl, ht, by simp⟩
  | await next =>
    simp only [proceed] at h
    split at h
    · cases h
      exact ⟨hsame, ht, by simp⟩
    · cases h
  | startStopThread next =>
    cases h
    exact ⟨unwritten_of_eq rfl rfl rfl rfl rfl, ht, by simp [Task.NulFree]⟩
  | joinStopThread next =>
    simp only [proceed] at h
    split at h
    · cases h
      exact ⟨hsame, ht, by simp⟩
    · cases h
  | waitForApplicationThreads next =>
    simp only [proceed] at h
    split at h
    · cases h
      exact ⟨hsame, ht, by simp⟩
    · cases h
  | exit cause =>
    cases h
    exact ⟨unwritten_exit s setup.hook cause, trivial, exit_nulFree s setup.hook cause⟩
  | halt =>
    cases h
    exact ⟨unwritten_of_eq rfl rfl rfl rfl rfl, trivial, by simp⟩
  | destroyJavaVM =>
    simp only [proceed] at h
    split at h
    · cases h
      exact ⟨unwritten_exit s setup.hook .ended, trivial, exit_nulFree s setup.hook .ended⟩
    · cases h
  | network =>
    cases h
    exact ⟨⟨rfl, rfl, rfl, fun _ => rfl, .inl rfl⟩, trivial, by simp⟩

/-! ## The wire -/

/-- The beginning of a frame. -/
def Torn (part : Bytes) : Prop :=
  part = [] ∨ ∃ code message rest, rest ≠ [] ∧ part ++ rest = frame code message ∧ NulFree message ∧
    (getBytes message).length ≤ maxPacketSize

/-- **The wire**: the frames of what was sent, and at most the beginning of another one. -/
structure Framed (s : Jvm) : Prop where
  torn : ∃ part, s.wire = frames s.sent ++ part ∧ Torn part
  whole : s.monitor = none → s.connectionLost = false → s.wire = frames s.sent
  closed : s.client.connected = false → s.monitor = none
  texts : ∀ p ∈ s.sent, NulFree p.message ∧ (getBytes p.message).length ≤ maxPacketSize

/-- The thread that writes is the one in the monitor. -/
def Writes (s : Jvm) (i : Nat) : Thread → Prop
  | .at t => t.NulFree
  | .writing _ code message rest thrown next =>
    s.monitor = some i ∧ s.client.connected = true ∧ NulFree message ∧ (getBytes message).length ≤ maxPacketSize ∧
      thrown.NulFree ∧ next.NulFree ∧
      (s.connectionLost = false → (rest = [] ∧ s.wire = frames s.sent) ∨
        ∃ part, rest ≠ [] ∧ s.wire = frames s.sent ++ part ∧ part ++ rest = frame code message)

theorem Framed.aside {s s' : Jvm} (h : Framed s) (hs : Unwritten s s') : Framed s' where
  torn := by rw [hs.wire, hs.sent]; exact h.torn
  whole hfree hlost := by
    have hbefore : s.connectionLost = false := by
      by_contra hl
      rw [hs.lost (by simpa using hl)] at hlost
      cases hlost
    rw [hs.wire, hs.sent]
    exact h.whole (by rw [← hs.monitor, hfree]) hbefore
  closed hc := by
    rw [hs.monitor]
    rcases hs.connected with heq | ⟨hnone, -⟩
    · exact h.closed (by rw [← heq, hc])
    · exact hnone
  texts := by rw [hs.sent]; exact h.texts

theorem Writes.aside {s s' : Jvm} {i : Nat} {t : Thread} (h : Writes s i t) (hs : Unwritten s s') : Writes s' i t := by
  cases t with
  | «at» t => exact h
  | writing hook code message rest thrown next =>
    obtain ⟨hmonitor, hconnected, hmessage, hsize, hthrown, hnext, hwire⟩ := h
    refine ⟨by rw [hs.monitor, hmonitor], ?_, hmessage, hsize, hthrown, hnext, fun hlost => ?_⟩
    · rcases hs.connected with heq | ⟨hnone, -⟩
      · rw [heq, hconnected]
      · rw [hnone] at hmonitor
        cases hmonitor
    · have hbefore : s.connectionLost = false := by
        by_contra hl
        rw [hs.lost (by simpa using hl)] at hlost
        cases hlost
      rw [hs.wire, hs.sent]
      exact hwire hbefore

theorem frames_concat (sent : List Sent) (p : Sent) : frames (sent ++ [p]) = frames sent ++ frame p.code p.message := by
  simp [frames]

theorem append_singleton_append (a rest : Bytes) (b : UInt8) : (a ++ [b]) ++ rest = a ++ b :: rest := by simp

/-- One more byte of the frame that is written. -/
theorem Framed.byte {s : Jvm} (h : Framed s) {i : Nat} {hook : Bool} {code : Nat} {message : JString} {b : UInt8}
    {rest : Bytes} {thrown next : Task} (hw : Writes s i (.writing hook code message (b :: rest) thrown next))
    (hlost : s.connectionLost = false) :
    Framed { s with wire := s.wire ++ [b], sent := if rest = [] then s.sent ++ [⟨hook, code, message⟩] else s.sent } ∧
    Writes { s with wire := s.wire ++ [b], sent := if rest = [] then s.sent ++ [⟨hook, code, message⟩] else s.sent } i
      (.writing hook code message rest thrown next) := by
  obtain ⟨hmonitor, hconnected, hmessage, hsize, hthrown, hnext, hwire⟩ := hw
  obtain ⟨hempty, -⟩ | ⟨part, -, hbefore, hframe⟩ := hwire hlost
  · cases hempty
  have hclosed : s.client.connected = false → s.monitor = none := h.closed
  by_cases hrest : rest = []
  · subst hrest
    have hdone : s.wire ++ [b] = frames (s.sent ++ [⟨hook, code, message⟩]) := by
      rw [frames_concat, hbefore, ← hframe, List.append_assoc]
    have hsent : (if ([] : Bytes) = [] then s.sent ++ [⟨hook, code, message⟩] else s.sent) =
        s.sent ++ [(⟨hook, code, message⟩ : Sent)] := rfl
    rw [hsent]
    refine ⟨⟨⟨[], ?_, .inl rfl⟩, fun _ _ => hdone, hclosed, fun p hp => ?_⟩, hmonitor, hconnected, hmessage, hsize,
      hthrown, hnext, fun _ => .inl ⟨rfl, hdone⟩⟩
    · rw [List.append_nil]
      exact hdone
    · rcases List.mem_append.1 hp with hp | hp
      · exact h.texts p hp
      · rw [List.mem_singleton.1 hp]
        exact ⟨hmessage, hsize⟩
  · have hsent : (if rest = [] then s.sent ++ [⟨hook, code, message⟩] else s.sent) = s.sent := if_neg hrest
    have hmore : s.wire ++ [b] = frames s.sent ++ (part ++ [b]) := by rw [hbefore, List.append_assoc]
    have hleft : (part ++ [b]) ++ rest = frame code message := by rw [append_singleton_append, hframe]
    rw [hsent]
    refine ⟨⟨⟨part ++ [b], hmore, .inr ⟨code, message, rest, hrest, hleft, hmessage, hsize⟩⟩, fun hfree _ => ?_,
      hclosed, h.texts⟩, hmonitor, hconnected, hmessage, hsize, hthrown, hnext,
      fun _ => .inr ⟨part ++ [b], hrest, hmore, hleft⟩⟩
    rw [hmonitor] at hfree
    cases hfree

/-- The monitor is left. -/
theorem Framed.leave {s : Jvm} (h : Framed s) (hwire : s.connectionLost = false → s.wire = frames s.sent) :
    Framed { s with monitor := none } :=
  ⟨h.torn, fun _ hlost => hwire hlost, fun _ => rfl, h.texts⟩

/-- A thread enters the monitor and has its frame to write. -/
theorem Framed.enter {s : Jvm} (h : Framed s) {i : Nat} (hook : Bool) {code : Nat} {message : JString} {bytes : Bytes}
    {thrown next : Task} (hfree : s.monitor = none) (hbytes : s.client.send code message = .ok bytes)
    (hmessage : NulFree message) (hthrown : thrown.NulFree) (hnext : next.NulFree) :
    Framed { s with monitor := some i } ∧
      Writes { s with monitor := some i } i (.writing hook code message bytes thrown next) := by
  have hconnected : s.client.connected = true := by
    by_contra hc
    rw [BackendClient.send, if_pos (by simpa using hc)] at hbytes
    cases hbytes
  obtain ⟨hsize, hframe⟩ := send_eq_ok hbytes
  refine ⟨⟨h.torn, fun hnone => ?_, fun hc => ?_, h.texts⟩, rfl, hconnected, hmessage, hsize, hthrown, hnext,
    fun hlost => .inr ⟨[], ?_, ?_, hframe⟩⟩
  · cases hnone
  · rw [hconnected] at hc
    cases hc
  · rw [hframe]
    simp
  · rw [List.append_nil]
    exact h.whole hfree hlost

/-- Two threads are not in the monitor at once. -/
theorem not_writes_twice {s : Jvm} {i j : Nat} {u : Thread} (hmonitor : s.monitor = some i) (hne : i ≠ j)
    (hj : Writes s j u) : ∃ t, u = .at t := by
  cases u with
  | «at» t => exact ⟨t, rfl⟩
  | writing hook code message rest thrown next =>
    rw [hj.1] at hmonitor
    cases hmonitor
    exact absurd rfl hne

/-- **The assertions are proved of every step.** -/
theorem proves_framed (setup : Setup) : (jvm setup).Proves Answer.NulFree Framed Writes where
  shared {s i t e s' t' started} ha hG hL hact := by
    cases act_stepped hact with
    | proceeds hp => exact hG.aside (proceed_spec hp hL ha).1
    | refused _ _ => exact hG
    | enters hfree hbytes => exact (hG.enter false hfree hbytes hL.1 hL.2.1 hL.2.2).1
    | writes b rest hlost => exact (hG.byte hL hlost).1
    | breaks b rest hlost =>
      refine hG.leave (fun hkept => ?_)
      rw [hlost] at hkept
      cases hkept
    | leaves =>
      obtain ⟨-, -, -, -, -, -, hwire⟩ := hL
      refine hG.leave (fun hlost => ?_)
      rcases hwire hlost with ⟨-, hdone⟩ | ⟨part, hne, -⟩
      · exact hdone
      · exact absurd rfl hne
  own {s i t e s' t' started} ha hG hL hact := by
    cases act_stepped hact with
    | proceeds hp => exact (proceed_spec hp hL ha).2.1
    | refused _ _ => exact hL.2.1
    | enters hfree hbytes => exact (hG.enter _ hfree hbytes hL.1 hL.2.1 hL.2.2).2
    | writes b rest hlost => exact (hG.byte hL hlost).2
    | breaks b rest hlost => exact hL.2.2.2.2.1
    | leaves => exact hL.2.2.2.2.2.1
  started {s i t e s' t' started} ha hG hL hact u hu j := by
    cases act_stepped hact with
    | proceeds hp =>
      obtain ⟨v, hv, rfl⟩ := List.mem_map.1 hu
      exact (proceed_spec hp hL ha).2.2 v hv
    | _ => cases hu
  others {s i t e s' t' started j u} ha hG hL hLj hne hact := by
    cases act_stepped hact with
    | proceeds hp => exact hLj.aside (proceed_spec hp hL ha).1
    | refused _ _ => exact hLj
    | enters hfree hbytes =>
      cases u with
      | «at» u => exact hLj
      | writing hook code message rest thrown next =>
        rw [hLj.1] at hfree
        cases hfree
    | writes b rest hlost =>
      obtain ⟨u, rfl⟩ := not_writes_twice hL.1 hne hLj
      exact hLj
    | breaks b rest hlost =>
      obtain ⟨u, rfl⟩ := not_writes_twice hL.1 hne hLj
      exact hLj
    | leaves =>
      obtain ⟨u, rfl⟩ := not_writes_twice hL.1 hne hLj
      exact hLj

/-! ## What the supervisor reads -/

def Sent.packet (p : Sent) : Protocol.Packet := ⟨UInt8.ofNat p.code, getBytes p.message⟩

theorem stream_torn {part : Bytes} (h : Torn part) : Stream part [] := by
  rcases h with rfl | ⟨code, message, rest, hrest, hframe, hmessage, hsize⟩
  · exact .nil
  · cases part with
    | nil => exact .nil
    | cons b part =>
      -- what is left is at least the terminator
      obtain ⟨left, last, rfl⟩ : ∃ left last, rest = left ++ [last] :=
        ⟨rest.dropLast, rest.getLast hrest, (List.dropLast_append_getLast hrest).symm⟩
      have hparts : (b :: part ++ left) ++ [last] = (UInt8.ofNat code :: getBytes message) ++ [0] := by
        rw [List.append_assoc]
        exact hframe
      obtain ⟨hhead, -⟩ := List.append_inj' hparts rfl
      have hpayload : part ++ left = getBytes message := (List.cons.inj hhead).2
      have hshort : part.length ≤ (getBytes message).length := by
        rw [← hpayload]
        simp
      refine .unfinished _ part (fun hm => ?_) (Nat.le_trans hshort hsize)
      have hzero : 0 ∈ getBytes message := by
        rw [← hpayload]
        exact List.mem_append_left left hm
      exact hmessage ((zero_mem_getBytes message).1 hzero)

theorem stream_frames {part : Bytes} (hpart : Stream part []) : ∀ (sent : List Sent),
    (∀ p ∈ sent, NulFree p.message ∧ (getBytes p.message).length ≤ maxPacketSize) →
    Stream (frames sent ++ part) (sent.map Sent.packet)
  | [], _ => hpart
  | p :: sent, h => by
    have ih := stream_frames hpart sent (fun q hq => h q (List.mem_cons_of_mem _ hq))
    obtain ⟨hmessage, hsize⟩ := h p List.mem_cons_self
    have hsplit : frames (p :: sent) ++ part = UInt8.ofNat p.code :: getBytes p.message ++ 0 :: (frames sent ++ part) := by
      simp [frames, frame]
    rw [hsplit]
    exact .packet _ _ _ _ (fun hm => hmessage ((zero_mem_getBytes _).1 hm)) hsize ih

/-- Once the client is closed it stays closed, and nothing is written. -/
theorem closed_step {setup : Setup} {s s' : Jvm} {i : Nat} {t t' : Thread} {answer : Answer} {started : List Thread}
    (hact : act setup s i t answer = some (s', t', started)) (hL : Writes s i t) (ha : answer.NulFree)
    (hc : s.client.connected = false) : s'.client.connected = false ∧ s'.wire = s.wire := by
  cases act_stepped hact with
  | proceeds hp =>
    have haside := (proceed_spec hp hL ha).1
    refine ⟨?_, haside.wire⟩
    rcases haside.connected with heq | ⟨-, hclosed⟩
    · rw [heq, hc]
    · exact hclosed
  | refused _ _ => exact ⟨hc, rfl⟩
  | enters _ _ => exact ⟨hc, rfl⟩
  | writes b rest hlost =>
    rw [hL.2.1] at hc
    cases hc
  | breaks b rest hlost => exact ⟨hc, rfl⟩
  | leaves => exact ⟨hc, rfl⟩

theorem closed_run {setup : Setup} : ∀ {more : List (Nat × Answer)} {c : Interleaving.Threads Jvm Thread},
    Holds Framed Writes c → (∀ choice ∈ more, choice.2.NulFree) → c.shared.client.connected = false →
    ((jvm setup).run c more).shared.wire = c.shared.wire
  | [], _, _, _, _ => rfl
  | choice :: more, c, hc, ha, hclosed => by
    have hA := ha choice List.mem_cons_self
    have hnext := (proves_framed setup).step hA hc
    have hstep : ((jvm setup).step c choice).shared.client.connected = false ∧
        ((jvm setup).step c choice).shared.wire = c.shared.wire := by
      rcases (jvm setup).step_cases c choice with heq | ⟨t, s, t', started, ht, hact, heq⟩
      · rw [heq]
        exact ⟨hclosed, rfl⟩
      · rw [heq]
        exact closed_step hact (hc.each choice.1 t ht) hA hclosed
    have ih : ((jvm setup).run ((jvm setup).step c choice) more).shared.wire = _ :=
      closed_run hnext (fun choice hm => ha choice (List.mem_cons_of_mem _ hm)) hstep.1
    exact ih.trans hstep.2

theorem mainTask_nulFree (launcher : Launcher) : (mainTask launcher).NulFree := by
  cases launcher with
  | _ => trivial

theorem holds_connected (launcher : Launcher) : Holds Framed Writes (connected launcher) where
  shared := ⟨⟨[], rfl, .inl rfl⟩, fun _ _ => rfl, fun _ => rfl, by simp [connected]⟩
  each i t h := by
    have hmem := List.mem_of_getElem? h
    have htask : t = .at .controlLoop ∨ t = .at (mainTask launcher) ∨ t = .at .destroyJavaVM ∨ t = .at .network := by
      simpa [connected] using hmem
    rcases htask with rfl | rfl | rfl | rfl
    · trivial
    · exact mainTask_nulFree launcher
    · trivial
    · trivial

/-- The control thread is in the middle of STARTED when the application logs; the connection breaks in the middle of that
line. -/
def logsWhileStarting : List (Nat × Answer) :=
  [(0, .goesOn), (0, .packet 100 []), (0, .goesOn), (0, .goesOn), (0, .goesOn), (0, .goesOn),
    (4, .call (.log 3 (some [97]))), (4, .goesOn), (4, .goesOn), (0, .goesOn), (0, .goesOn), (4, .goesOn), (4, .goesOn),
    (3, .goesOn), (4, .goesOn)]

end Bridge
end Jss
