import ServiceSteward.Listener
/-!
# Authentication — whom a listener lets in

`Sound` is what a listener's pending handshakes know, against everything observed so far: each framer holds its own
socket's bytes and no packet of them is complete.  Accepting keeps it, a visit of the scan keeps it, so every call does
(`sound_of_polls`).  The scan's drops permute only what is still to be visited, so a scan that runs through has visited
every handshake once.
-/
namespace Jss
namespace Protocol

open Incremental (emitted)
open SwapScan (Verdict)

structure Sound (pending : List PendingHandshake) (accepted : Nat) (obs : List Obs) : Prop where
  bounded : pending.length ≤ maxPendingHandshakes
  named : ∀ h ∈ pending, h.stream < accepted
  distinct : (pending.map (·.stream)).Nodup
  decoded : ∀ h ∈ pending, Framer.feed {} (bytesOf h.stream obs) = .ok (h.framer, [])
  deadline : ∀ h ∈ pending, deadlinesOf h.stream obs = [h.deadline]
  fresh : ∀ stream, accepted ≤ stream → bytesOf stream obs = [] ∧ deadlinesOf stream obs = []

theorem bytesOf_append (stream : Nat) (a b : List Obs) :
    bytesOf stream (a ++ b) = bytesOf stream a ++ bytesOf stream b := List.flatMap_append

theorem deadlinesOf_append (stream : Nat) (a b : List Obs) :
    deadlinesOf stream (a ++ b) = deadlinesOf stream a ++ deadlinesOf stream b := List.flatMap_append

theorem advancedOf_append (a b : List Obs) : advancedOf (a ++ b) = advancedOf a ++ advancedOf b :=
  List.filterMap_append

/-- **A framer picks up where it stopped**, as long as it had no packet complete. -/
theorem feed_append_of_quiet {f : Framer} {a b : Bytes} {r : Framer × List Packet}
    (ha : Framer.feed {} a = .ok (f, [])) (hb : f.feed b = .ok r) : Framer.feed {} (a ++ b) = .ok r := by
  rw [feed_eq] at ha hb ⊢
  refine Incremental.feed_of_ok _ ?_
  rw [Incremental.emitted_append_of_ok _ (Incremental.emitted_of_feed _ ha), Incremental.emitted_of_feed _ hb]
  rfl

theorem packetsOf_of_feed {bytes : Bytes} {f : Framer} {packets : List Packet}
    (h : Framer.feed {} bytes = .ok (f, packets)) : packetsOf bytes = packets := by
  rw [feed_eq] at h
  rw [packetsOf_eq, Incremental.emitted_of_feed _ h]

/-- More bytes do not change the packets already there. -/
theorem head_packetsOf_append {a : Bytes} {p : Packet} (h : (packetsOf a).head? = some p) (b : Bytes) :
    (packetsOf (a ++ b)).head? = some p := by
  rw [packetsOf_eq] at h ⊢
  rw [Incremental.emitted_append]
  cases (emitted Framer.feedByte {} a).2 with
  | error e => exact h
  | ok f =>
    simp only
    rw [List.head?_append, h]
    rfl

/-! ## Accepting -/

theorem sound_accept {pending : List PendingHandshake} {accepted : Nat} {obs : List Obs}
    (h : Sound pending accepted obs) : Sound pending (accepted + 1) obs where
  bounded := h.bounded
  named := fun p hp => Nat.lt_succ_of_lt (h.named p hp)
  distinct := h.distinct
  decoded := h.decoded
  deadline := h.deadline
  fresh := fun stream hs => h.fresh stream (Nat.le_of_succ_le hs)

theorem sound_push {pending : List PendingHandshake} {accepted : Nat} {obs : List Obs} (deadline : Instant)
    (h : Sound pending accepted obs) (hlen : pending.length < maxPendingHandshakes) :
    Sound (pending ++ [⟨accepted, {}, deadline⟩]) (accepted + 1) (obs ++ [.pending accepted deadline]) where
  bounded := by rw [List.length_append]; exact hlen
  named := by
    intro p hp
    rcases List.mem_append.1 hp with hp | hp
    · exact Nat.lt_succ_of_lt (h.named p hp)
    · rw [List.mem_singleton.1 hp]
      exact Nat.lt_succ_self _
  distinct := by
    rw [List.map_append, List.nodup_append]
    refine ⟨h.distinct, by simp, ?_⟩
    intro a ha b hb
    obtain ⟨p, hp, rfl⟩ := List.mem_map.1 ha
    have := h.named p hp
    simp only [List.map_cons, List.map_nil, List.mem_singleton] at hb
    omega
  decoded := by
    intro p hp
    rw [bytesOf_append]
    have hnew : bytesOf p.stream [Obs.pending accepted deadline] = [] := rfl
    rw [hnew, List.append_nil]
    rcases List.mem_append.1 hp with hp | hp
    · exact h.decoded p hp
    · rw [List.mem_singleton.1 hp, (h.fresh accepted (Nat.le_refl _)).1]
      rfl
  deadline := by
    intro p hp
    rw [deadlinesOf_append]
    rcases List.mem_append.1 hp with hp | hp
    · have hne : accepted ≠ p.stream := by
        have := h.named p hp
        omega
      rw [h.deadline p hp]
      simp [deadlinesOf, hne]
    · rw [List.mem_singleton.1 hp, (h.fresh accepted (Nat.le_refl _)).2]
      simp [deadlinesOf]
  fresh := by
    intro stream hs
    have hne : accepted ≠ stream := by omega
    obtain ⟨hbytes, hdeadlines⟩ := h.fresh stream (Nat.le_of_succ_le hs)
    rw [bytesOf_append, deadlinesOf_append, hbytes, hdeadlines]
    exact ⟨rfl, by simp [deadlinesOf, hne]⟩

/-- **Accepting keeps the listener sound**, reads nothing and advances nobody. -/
theorem acceptAll_sound (T : Duration) : ∀ (accepts : List (Except IoErrorKind Accepted)) (l : BackendListener)
    (before : List Obs), Sound l.pending l.accepted before →
    Sound (l.acceptAll T accepts).1.pending (l.acceptAll T accepts).1.accepted (before ++ (l.acceptAll T accepts).2.1) ∧
    advancedOf (l.acceptAll T accepts).2.1 = []
  | [], l, before, h => by simpa [BackendListener.acceptAll, advancedOf] using h
  | .error kind :: accepts, l, before, h => by
    cases kind with
    | interrupted => exact acceptAll_sound T accepts l before h
    | _ => simpa [BackendListener.acceptAll, advancedOf] using h
  | .ok a :: accepts, l, before, h => by
    simp only [BackendListener.acceptAll]
    split
    · exact acceptAll_sound T accepts _ before (sound_accept h)
    rename_i hroom
    split
    · exact acceptAll_sound T accepts _ before (sound_accept h)
    simp only [Bool.or_eq_true, decide_eq_true_eq, not_or, Nat.not_le] at hroom
    have hpush := sound_push (a.now + T) h hroom.2
    obtain ⟨hsound, hadv⟩ := acceptAll_sound T accepts
      ⟨l.pending ++ [⟨l.accepted, {}, a.now + T⟩], l.accepted + 1⟩ _ hpush
    refine ⟨?_, hadv⟩
    rw [List.append_assoc, List.singleton_append] at hsound
    exact hsound

theorem acceptAll_room (T : Duration) : ∀ (accepts : List (Except IoErrorKind Accepted)) (l : BackendListener),
    (l.acceptAll T accepts).2.2 ≠ .error tooManyPackets
  | [], l => by
    intro h
    cases h
  | .error kind :: accepts, l => by
    intro h
    cases kind with
    | interrupted => exact acceptAll_room T accepts l h
    | _ => cases h
  | .ok a :: accepts, l => by
    simp only [BackendListener.acceptAll]
    split
    · exact acceptAll_room T accepts _
    · split
      · exact acceptAll_room T accepts _
      · exact acceptAll_room T accepts _

/-! ## One visit -/

/-- What a visit of `h` observed and read. -/
structure Visited (s s' : ScanState) (h : PendingHandshake) (new : List Obs) (bytes : Bytes) : Prop where
  obs : s'.obs = s.obs ++ new
  advanced : advancedOf new = [h.stream]
  own : ∀ stream, bytesOf stream new = if h.stream = stream then bytes else []
  deadlines : ∀ stream, deadlinesOf stream new = []
  reads : ∀ r ∈ s'.reads, r ∈ s.reads
  source : bytes = [] ∨ .ok bytes ∈ s.reads

theorem visited_expired (s : ScanState) (h : PendingHandshake) :
    Visited s { s with obs := s.obs ++ [.advanced h.stream] } h [.advanced h.stream] [] where
  obs := rfl
  advanced := rfl
  own := fun stream => by split <;> rfl
  deadlines := fun _ => rfl
  reads := fun _ hr => hr
  source := .inl rfl

theorem visited_silent (s : ScanState) (h : PendingHandshake) :
    Visited s ⟨s.reads.tail, s.obs ++ [.advanced h.stream]⟩ h [.advanced h.stream] [] where
  obs := rfl
  advanced := rfl
  own := fun stream => by split <;> rfl
  deadlines := fun _ => rfl
  reads := fun _ hr => List.mem_of_mem_tail hr
  source := .inl rfl

theorem visited_read {s : ScanState} {bytes : Bytes} (h : PendingHandshake) (hr : .ok bytes ∈ s.reads) (more : List Obs)
    (hadv : advancedOf more = []) (hb : ∀ stream, bytesOf stream more = [])
    (hd : ∀ stream, deadlinesOf stream more = []) :
    Visited s ⟨s.reads.tail, s.obs ++ [.advanced h.stream] ++ .read h.stream bytes :: more⟩ h
      (.advanced h.stream :: .read h.stream bytes :: more) bytes where
  obs := by simp
  advanced := by
    have hsplit : advancedOf (.advanced h.stream :: .read h.stream bytes :: more) = h.stream :: advancedOf more := rfl
    rw [hsplit, hadv]
  own := fun stream => by
    have hsplit : bytesOf stream (.advanced h.stream :: .read h.stream bytes :: more) =
        (if h.stream = stream then bytes else []) ++ bytesOf stream more := rfl
    rw [hsplit, hb, List.append_nil]
  deadlines := hd
  reads := fun _ hr => List.mem_of_mem_tail hr
  source := .inr hr

/-- **What a visit does**: it advances its handshake, reads at most its socket, and hands over only on the key, before
the deadline. -/
theorem visit_spec {key : Bytes} {now : Instant} {s s' : ScanState} {h : PendingHandshake}
    {v : Verdict PendingHandshake (PendingHandshake × List Packet)} (hv : visit key now s h = (s', v)) :
    ∃ (new : List Obs) (bytes : Bytes), Visited s s' h new bytes ∧
      match v with
      | .keep h' => h'.stream = h.stream ∧ h'.deadline = h.deadline ∧ h.framer.feed bytes = .ok (h'.framer, [])
      | .drop => True
      | .stop (h', initial) =>
        h'.stream = h.stream ∧ now < h.deadline ∧ h.framer.feed bytes = .ok (h'.framer, ⟨KEY, key⟩ :: initial) := by
  unfold visit advanceHandshake at hv
  simp only at hv
  by_cases hdl : now ≥ h.deadline
  · rw [if_pos hdl] at hv
    cases hv
    exact ⟨_, _, visited_expired s h, trivial⟩
  rw [if_neg hdl] at hv
  cases hres : s.reads.head?.getD (.error .wouldBlock) with
  | error kind =>
    rw [hres] at hv
    cases kind <;> cases hv <;> exact ⟨_, _, visited_silent s h, by trivial⟩
  | ok bytes =>
    rw [hres] at hv
    cases bytes with
    | nil =>
      cases hv
      exact ⟨_, _, visited_silent s h, trivial⟩
    | cons b bytes =>
      have hmem : .ok (b :: bytes) ∈ s.reads := by
        cases hs : s.reads with
        | nil => rw [hs] at hres; cases hres
        | cons r rs =>
          rw [hs] at hres
          cases hres
          exact List.mem_cons_self
      have hread := visited_read h hmem [] rfl (fun _ => rfl) (fun _ => rfl)
      simp only at hv
      cases hf : h.framer.feed (b :: bytes) with
      | error e =>
        rw [hf] at hv
        cases hv
        exact ⟨_, _, hread, trivial⟩
      | ok r =>
        obtain ⟨framer, packets⟩ := r
        rw [hf] at hv
        cases packets with
        | nil =>
          cases hv
          exact ⟨_, _, hread, rfl, rfl, hf⟩
        | cons first rest =>
          simp only at hv
          by_cases hkey : first.code = KEY ∧ first.message = key
          · rw [if_pos hkey] at hv
            cases hv
            have hfirst : first = ⟨KEY, key⟩ := by
              obtain ⟨h1, h2⟩ := hkey
              cases first
              simp only at h1 h2
              rw [h1, h2]
            rw [hfirst] at hf
            exact ⟨_, _, hread, rfl, Nat.not_le.1 hdl, hf⟩
          · rw [if_neg hkey] at hv
            cases hv
            refine ⟨[.advanced h.stream, .read h.stream (b :: bytes), .badKey h.stream], b :: bytes, ?_, trivial⟩
            simpa using visited_read h hmem [.badKey h.stream] rfl (fun _ => rfl) (fun _ => rfl)

/-! ## The scan -/

/-- No other handshake has the socket of one. -/
theorem Sound.apart {done rest : List PendingHandshake} {a : PendingHandshake} {accepted : Nat} {obs : List Obs}
    (h : Sound (done ++ a :: rest) accepted obs) : a.stream ∉ (done ++ rest).map (·.stream) := by
  have hperm : ((done ++ a :: rest).map (·.stream)).Perm (a.stream :: (done ++ rest).map (·.stream)) :=
    List.perm_middle.map _
  exact (List.nodup_cons.1 (hperm.nodup_iff.1 h.distinct)).1

/-- The scan between two visits: the handshakes are sound, and the visits made and the handshakes left are together
those the scan started with. -/
structure Scanning (before : List Obs) (accepted : Nat) (scanned : List Nat) (s : ScanState)
    (done rest : List PendingHandshake) : Prop where
  sound : Sound (done ++ rest) accepted (before ++ s.obs)
  visited : (advancedOf s.obs ++ rest.map (·.stream)).Perm scanned
  short : ∀ bytes, .ok bytes ∈ s.reads → bytes.length ≤ handshakeBuffer

/-- Dropping a handshake and permuting the others keeps what is known of them. -/
theorem sound_of_subperm {pending pending' : List PendingHandshake} {accepted : Nat} {obs : List Obs}
    (h : Sound pending accepted obs) (hsub : pending'.Subperm pending) : Sound pending' accepted obs where
  bounded := Nat.le_trans hsub.length_le h.bounded
  named := fun p hp => h.named p (hsub.subset hp)
  distinct := by
    obtain ⟨l, hperm, hl⟩ := hsub
    exact (hperm.map _).nodup_iff.1 ((hl.map _).nodup h.distinct)
  decoded := fun p hp => h.decoded p (hsub.subset hp)
  deadline := fun p hp => h.deadline p (hsub.subset hp)
  fresh := h.fresh

theorem sound_observe {pending : List PendingHandshake} {accepted : Nat} {obs new : List Obs} {stream : Nat}
    {bytes : Bytes} (h : Sound pending accepted obs) (hnot : stream ∉ pending.map (·.stream)) (hlt : stream < accepted)
    (hbytes : ∀ t, bytesOf t new = if stream = t then bytes else []) (hnone : ∀ t, deadlinesOf t new = []) :
    Sound pending accepted (obs ++ new) where
  bounded := h.bounded
  named := h.named
  distinct := h.distinct
  decoded := by
    intro p hp
    have hne : stream ≠ p.stream := fun he => hnot (he ▸ List.mem_map_of_mem hp)
    rw [bytesOf_append, hbytes, if_neg hne, List.append_nil]
    exact h.decoded p hp
  deadline := by
    intro p hp
    rw [deadlinesOf_append, hnone, List.append_nil]
    exact h.deadline p hp
  fresh := by
    intro t ht
    have hne : stream ≠ t := by omega
    rw [bytesOf_append, hbytes, if_neg hne, List.append_nil, deadlinesOf_append, hnone, List.append_nil]
    exact h.fresh t ht

theorem sound_keep {done rest : List PendingHandshake} {a a' : PendingHandshake} {accepted : Nat} {obs new : List Obs}
    {bytes : Bytes} (h : Sound (done ++ a :: rest) accepted obs) (hstream : a'.stream = a.stream)
    (hdeadline : a'.deadline = a.deadline) (hfeed : a.framer.feed bytes = .ok (a'.framer, []))
    (hbytes : ∀ t, bytesOf t new = if a.stream = t then bytes else []) (hnone : ∀ t, deadlinesOf t new = []) :
    Sound (done ++ [a'] ++ rest) accepted (obs ++ new) := by
  have hmem : a ∈ done ++ a :: rest := by simp
  have hsplit : ∀ p ∈ done ++ [a'] ++ rest, p = a' ∨ (p ∈ done ++ a :: rest ∧ p.stream ≠ a.stream) := by
    intro p hp
    simp only [List.append_assoc, List.singleton_append, List.mem_append, List.mem_cons] at hp
    have hin : ∀ q ∈ done ++ rest, q.stream ≠ a.stream := fun q hq he => h.apart (he ▸ List.mem_map_of_mem hq)
    rcases hp with hp | rfl | hp
    · exact .inr ⟨by simp [hp], hin p (by simp [hp])⟩
    · exact .inl rfl
    · exact .inr ⟨by simp [hp], hin p (by simp [hp])⟩
  have hstreams : (done ++ [a'] ++ rest).map (·.stream) = (done ++ a :: rest).map (·.stream) := by simp [hstream]
  refine ⟨?_, ?_, ?_, ?_, ?_, ?_⟩
  · have := h.bounded
    simp only [List.length_append, List.length_cons, List.length_nil] at this ⊢
    omega
  · intro p hp
    rcases hsplit p hp with rfl | ⟨hp, _⟩
    · rw [hstream]
      exact h.named a hmem
    · exact h.named p hp
  · rw [hstreams]
    exact h.distinct
  · intro p hp
    rw [bytesOf_append, hbytes]
    rcases hsplit p hp with rfl | ⟨hp, hne⟩
    · rw [hstream, if_pos rfl]
      exact feed_append_of_quiet (h.decoded a hmem) hfeed
    · rw [if_neg (Ne.symm hne), List.append_nil]
      exact h.decoded p hp
  · intro p hp
    rw [deadlinesOf_append, hnone, List.append_nil]
    rcases hsplit p hp with rfl | ⟨hp, _⟩
    · rw [hstream, hdeadline]
      exact h.deadline a hmem
    · exact h.deadline p hp
  · intro t ht
    have hne : a.stream ≠ t := by
      have := h.named a hmem
      omega
    rw [bytesOf_append, hbytes, if_neg hne, List.append_nil, deadlinesOf_append, hnone, List.append_nil]
    exact h.fresh t ht

theorem sound_remove {done rest rest' : List PendingHandshake} {a : PendingHandshake} {accepted : Nat}
    {obs new : List Obs} {bytes : Bytes} (h : Sound (done ++ a :: rest) accepted obs) (hperm : rest'.Perm rest)
    (hbytes : ∀ t, bytesOf t new = if a.stream = t then bytes else []) (hnone : ∀ t, deadlinesOf t new = []) :
    Sound (done ++ rest') accepted (obs ++ new) := by
  have hsub : (done ++ rest').Subperm (done ++ a :: rest) :=
    ((hperm.append_left done).subperm).trans
      ((List.sublist_cons_self a rest).append_left done).subperm
  have hnot : a.stream ∉ (done ++ rest').map (·.stream) := by
    rw [((hperm.append_left done).map _).mem_iff]
    exact h.apart
  exact sound_observe (sound_of_subperm h hsub) hnot (h.named a (by simp)) hbytes hnone

theorem scanning_keep {before : List Obs} {accepted : Nat} {scanned : List Nat} {key : Bytes} {now : Instant}
    (s s' : ScanState) (a a' : PendingHandshake) (done rest : List PendingHandshake)
    (h : Scanning before accepted scanned s done (a :: rest)) (hv : visit key now s a = (s', .keep a')) :
    Scanning before accepted scanned s' (done ++ [a']) rest := by
  obtain ⟨new, bytes, hnew, hstream, hdeadline, hfeed⟩ := visit_spec hv
  refine ⟨?_, ?_, fun bytes hb => h.short bytes (hnew.reads _ hb)⟩
  · rw [hnew.obs, ← List.append_assoc]
    exact sound_keep h.sound hstream hdeadline hfeed hnew.own hnew.deadlines
  · rw [hnew.obs, advancedOf_append, hnew.advanced, List.append_assoc, List.singleton_append]
    exact h.visited

theorem scanning_remove {before : List Obs} {accepted : Nat} {scanned : List Nat} {s s' : ScanState}
    {a : PendingHandshake} {done rest rest' : List PendingHandshake} {new : List Obs} {bytes : Bytes}
    (h : Scanning before accepted scanned s done (a :: rest)) (hnew : Visited s s' a new bytes)
    (hperm : rest'.Perm rest) : Scanning before accepted scanned s' done rest' := by
  refine ⟨?_, ?_, fun bytes hb => h.short bytes (hnew.reads _ hb)⟩
  · rw [hnew.obs, ← List.append_assoc]
    exact sound_remove h.sound hperm hnew.own hnew.deadlines
  · rw [hnew.obs, advancedOf_append, hnew.advanced, List.append_assoc, List.singleton_append]
    exact (((hperm.map _).cons _).append_left _).trans h.visited

theorem scanning_drop {before : List Obs} {accepted : Nat} {scanned : List Nat} {key : Bytes} {now : Instant}
    (s s' : ScanState) (a : PendingHandshake) (done rest rest' : List PendingHandshake)
    (h : Scanning before accepted scanned s done (a :: rest)) (hv : visit key now s a = (s', .drop))
    (hperm : rest'.Perm rest) : Scanning before accepted scanned s' done rest' := by
  obtain ⟨new, bytes, hnew, -⟩ := visit_spec hv
  exact scanning_remove h hnew hperm

/-! ## One call -/

/-- What a call that returned a connection has seen of its socket. -/
structure Admitted (key : Bytes) (before obs : List Obs) (now : Instant) (stream : Nat) : Prop where
  first : (packetsOf (bytesOf stream (before ++ obs))).head? = some ⟨KEY, key⟩
  pending : packetsOf (bytesOf stream before) = []
  inTime : ∃ deadline, deadlinesOf stream (before ++ obs) = [deadline] ∧ now < deadline

/-- What a connection takes over from its handshake: the framer, and the packets after the key. -/
def Handed (key : Bytes) (obs : List Obs) (c : Connection) : Prop :=
  ∃ framer initial, Framer.feed {} (bytesOf c.stream obs) = .ok (framer, ⟨KEY, key⟩ :: initial) ∧
    c.reader = .reading framer ∧ c.events = initial.map .packet ∧ initial.length < eventQueueCapacity

/-- At most 255 packets follow the key in the read that completes it. -/
theorem few_initial {f f' : Framer} {p : Packet} {bytes : Bytes} {initial : List Packet}
    (h : f.feed bytes = .ok (f', p :: initial)) (hlen : bytes.length ≤ handshakeBuffer) :
    initial.length < eventQueueCapacity := by
  rw [feed_eq] at h
  have hcount := emitted_count bytes f
  have hcode : f.pendingCode.toList.length ≤ 1 := by cases f.pendingCode <;> simp
  rw [Incremental.emitted_of_feed _ h, List.length_cons] at hcount
  unfold handshakeBuffer at hlen
  unfold eventQueueCapacity
  omega

/-- **The visit that ends a scan hands its socket over**, with all that was decoded after the key. -/
theorem admitted_of_stop {key : Bytes} {now : Instant} {before : List Obs} {accepted : Nat} {scanned : List Nat}
    {s s' : ScanState} {done rest : List PendingHandshake} {a a' : PendingHandshake} {initial : List Packet}
    {rest' : List PendingHandshake} (hat : Scanning before accepted scanned s done (a :: rest))
    (hv : visit key now s a = (s', .stop (a', initial))) (hperm : rest'.Perm rest) :
    Scanning before accepted scanned s' done rest' ∧ a'.stream = a.stream ∧ Admitted key before s'.obs now a.stream ∧
    Framer.feed {} (bytesOf a.stream (before ++ s'.obs)) = .ok (a'.framer, ⟨KEY, key⟩ :: initial) ∧
    initial.length < eventQueueCapacity := by
  obtain ⟨new, bytes, hnew, hstream, hlt, hfeed⟩ := visit_spec hv
  have hmem : a ∈ done ++ a :: rest := by simp
  have hbefore := hat.sound.decoded a hmem
  have hall : Framer.feed {} (bytesOf a.stream (before ++ s'.obs)) = .ok (a'.framer, ⟨KEY, key⟩ :: initial) := by
    rw [hnew.obs, ← List.append_assoc, bytesOf_append, hnew.own, if_pos rfl]
    exact feed_append_of_quiet hbefore hfeed
  refine ⟨scanning_remove hat hnew hperm, hstream, ⟨?_, ?_, a.deadline, ?_, hlt⟩, hall, ?_⟩
  · rw [packetsOf_of_feed hall]
    rfl
  · -- nothing the earlier calls read from this socket completed a packet
    have hquiet := packetsOf_of_feed hbefore
    rw [bytesOf_append] at hquiet
    cases hhead : (packetsOf (bytesOf a.stream before)).head? with
    | none => exact List.head?_eq_none_iff.1 hhead
    | some p =>
      have := head_packetsOf_append hhead (bytesOf a.stream s.obs)
      rw [hquiet] at this
      cases this
  · rw [hnew.obs, ← List.append_assoc, deadlinesOf_append, hnew.deadlines, List.append_nil]
    exact hat.sound.deadline a hmem
  · refine few_initial hfeed ?_
    rcases hnew.source with rfl | hsource
    · exact Nat.zero_le _
    · exact hat.short bytes hsource

/-- What is proved of a call: the handshakes it leaves are sound; a connection it returns presented the key in time and
takes over what came with it; it never finds too many packets; and if it returns none, it has advanced every handshake
once. -/
structure Called (key : Bytes) (before : List Obs) (now : Instant) (scanned : List Nat)
    (r : BackendListener × List Obs × Except Error (Option Connection)) : Prop where
  sound : Sound r.1.pending r.1.accepted (before ++ r.2.1)
  admitted : ∀ c, r.2.2 = .ok (some c) → Admitted key before r.2.1 now c.stream
  handed : ∀ c, r.2.2 = .ok (some c) → Handed key (before ++ r.2.1) c
  room : r.2.2 ≠ .error tooManyPackets
  advanced : r.2.2 = .ok none → (advancedOf r.2.1).Perm scanned ∧ (advancedOf r.2.1).Nodup

theorem poll_spec (key : Bytes) (T : Duration) (poll : Poll) {l : BackendListener} {before : List Obs}
    (h : Sound l.pending l.accepted before) :
    Called key before poll.now ((l.acceptAll T poll.accepts).1.pending.map (·.stream))
      (l.pollAuthentication key T poll) := by
  obtain ⟨hsound, hquiet⟩ := acceptAll_sound T poll.accepts l before h
  unfold BackendListener.pollAuthentication
  cases hacc : l.acceptAll T poll.accepts with
  | mk l' r =>
    obtain ⟨obs, r⟩ := r
    rw [hacc] at hsound hquiet
    cases r with
    | error e =>
      have hroom := acceptAll_room T poll.accepts l
      rw [hacc] at hroom
      simp only at hroom ⊢
      refine ⟨hsound, fun c hc => ?_, fun c hc => ?_, fun he => ?_, fun hc => ?_⟩
      · cases hc
      · cases hc
      · cases he
        exact hroom rfl
      · cases hc
    | ok u =>
      simp only at hsound hquiet ⊢
      have hinit : Scanning before l'.accepted (l'.pending.map (·.stream)) ⟨poll.reads, obs⟩ [] l'.pending :=
        ⟨hsound, by rw [hquiet]; exact List.Perm.refl _, poll.short⟩
      have hscan := SwapScan.scan_induct (Scanning before l'.accepted (l'.pending.map (·.stream))) hinit
        (@scanning_keep before l'.accepted (l'.pending.map (·.stream)) key poll.now) scanning_drop
      rcases hscan with
        ⟨s', pending, hscan, hend⟩ | ⟨s₁, s', done, a, rest, rest', ⟨a', initial⟩, hscan, hat, hv, hperm⟩
      · rw [hscan]
        have hs := hend.sound
        rw [List.append_nil] at hs
        have hvisited := hend.visited
        rw [List.map_nil, List.append_nil] at hvisited
        refine ⟨hs, fun c hc => ?_, fun c hc => ?_, fun he => ?_, fun _ => ?_⟩
        · cases hc
        · cases hc
        · cases he
        · exact ⟨hvisited, hvisited.nodup_iff.2 hsound.distinct⟩
      · rw [hscan]
        simp only
        obtain ⟨hend, hstream, hadm, hall, hfew⟩ := admitted_of_stop hat hv hperm
        rcases spawn_of_few (Nat.le_of_lt hfew) a'.stream a'.framer poll.setup poll.thread with hsp | ⟨kind, hsp⟩
        · rw [hsp, hstream]
          refine ⟨hend.sound, fun c hc => ?_, fun c hc => ?_, fun he => ?_, fun hc => ?_⟩
          · cases hc
            exact hadm
          · cases hc
            exact ⟨a'.framer, initial, hall, rfl, rfl, hfew⟩
          · cases he
          · cases hc
        · rw [hsp]
          refine ⟨hend.sound, fun c hc => ?_, fun c hc => ?_, fun he => ?_, fun hc => ?_⟩
          · cases hc
          · cases hc
          · cases he
          · cases hc

/-! ## Every call -/

theorem sound_empty : Sound [] 0 [] := ⟨Nat.zero_le _, by simp, by simp, by simp, by simp, fun _ _ => ⟨rfl, rfl⟩⟩

theorem observed_append (a b : List PollRecord) : observed (a ++ b) = observed a ++ observed b :=
  List.flatMap_append

theorem observed_cons (r : PollRecord) (history : List PollRecord) :
    observed (r :: history) = r.obs ++ observed history := List.flatMap_cons

theorem sound_of_polls {l : BackendListener} {history : List PollRecord} (h : Polls l history) :
    Sound l.pending l.accepted (observed history) := by
  induction h with
  | bound => exact sound_empty
  | poll key T p _ ih =>
    rw [observed_append, observed_cons, show observed [] = [] from rfl, List.append_nil]
    exact (poll_spec key T p ih).sound

/-- **A record of a run, with what was observed before it.** -/
theorem record_of_polls {l : BackendListener} {history : List PollRecord} (h : Polls l history) :
    ∀ (before : List PollRecord) (r : PollRecord) (after : List PollRecord), history = before ++ r :: after →
      ∃ l' : BackendListener, Called r.expectedKey (observed before) r.now r.scanned (l', r.obs, r.result) := by
  induction h with
  | bound =>
    intro before r after hs
    exact absurd hs (by simp)
  | poll key T p hl ih =>
    intro before r after hs
    rcases List.eq_nil_or_concat after with rfl | ⟨after', x, rfl⟩
    · obtain ⟨rfl, hr⟩ := List.append_inj' hs rfl
      cases hr
      exact ⟨_, poll_spec key T p (sound_of_polls hl)⟩
    · rw [List.concat_eq_append, ← List.cons_append, ← List.append_assoc] at hs
      obtain ⟨hs', -⟩ := List.append_inj' hs rfl
      exact ih before r after' hs'

theorem first_stays {stream : Nat} {p : Packet} {before : List PollRecord} {r : PollRecord}
    (h : (packetsOf (bytesOf stream (observed before ++ r.obs))).head? = some p) (after : List PollRecord) :
    (packetsOf (bytesOf stream (observed (before ++ r :: after)))).head? = some p := by
  rw [observed_append, observed_cons, ← List.append_assoc, bytesOf_append]
  exact head_packetsOf_append h _

/-- **A socket that presented something else is out**: it is not pending, and no call hands it over. -/
theorem refused_of_polls {l : BackendListener} {history : List PollRecord} (h : Polls l history)
    {before after : List PollRecord} {r : PollRecord} (hs : history = before ++ r :: after) {stream : Nat} {p : Packet}
    (hbefore : packetsOf (bytesOf stream (observed before)) = [])
    (hfirst : (packetsOf (bytesOf stream (observed before ++ r.obs))).head? = some p)
    (hp : p ≠ ⟨KEY, r.expectedKey⟩) :
    stream ∉ l.pending.map (·.stream) ∧ ∀ r' ∈ history, ∀ c, r'.result = .ok (some c) → c.stream ≠ stream := by
  constructor
  · intro hmem
    obtain ⟨pending, hpending, rfl⟩ := List.mem_map.1 hmem
    have hnone := packetsOf_of_feed ((sound_of_polls h).decoded pending hpending)
    have hsome := first_stays hfirst after
    rw [← hs, hnone] at hsome
    cases hsome
  · rintro r' hr' c hc rfl
    obtain ⟨before', after', hs'⟩ := List.append_of_mem hr'
    obtain ⟨l', hcalled⟩ := record_of_polls h before' r' after' hs'
    have hin := hcalled.admitted c hc
    rcases List.append_eq_append_iff.1 (hs.symm.trans hs') with ⟨m, hm, hr⟩ | ⟨m, hm, hr⟩
    · cases m with
      | nil =>
        rw [List.append_nil] at hm
        cases hr
        have hkey := hin.first
        rw [hm, hfirst] at hkey
        exact hp (Option.some.inj hkey)
      | cons x m =>
        -- the first packet was there before this call
        cases hr
        have hsome := first_stays hfirst m
        rw [← hm, hin.pending] at hsome
        cases hsome
    · cases m with
      | nil =>
        rw [List.append_nil] at hm
        cases hr
        have hkey := hin.first
        rw [← hm, hfirst] at hkey
        exact hp (Option.some.inj hkey)
      | cons x m =>
        cases hr
        have hsome := first_stays hin.first m
        rw [← hm, hbefore] at hsome
        cases hsome

/-- **Whom a listener lets in**, after any sequence of calls: only sockets whose first packet is the key of the call
that completed it, in time; the others are out for good; and the pending handshakes stay few and are all advanced. -/
theorem authentication_is_exact {l : BackendListener} {history : List PollRecord} (h : Polls l history) :
    (∀ before r after c, history = before ++ r :: after → r.result = .ok (some c) →
      Admitted r.expectedKey (observed before) r.obs r.now c.stream) ∧
    (∀ before r after stream p, history = before ++ r :: after →
      packetsOf (bytesOf stream (observed before)) = [] →
      (packetsOf (bytesOf stream (observed before ++ r.obs))).head? = some p → p ≠ ⟨KEY, r.expectedKey⟩ →
      stream ∉ l.pending.map (·.stream) ∧ ∀ r' ∈ history, ∀ c, r'.result = .ok (some c) → c.stream ≠ stream) ∧
    l.pending.length ≤ maxPendingHandshakes ∧
    (∀ r ∈ history, r.result = .ok none → (advancedOf r.obs).Perm r.scanned ∧ (advancedOf r.obs).Nodup) := by
  refine ⟨?_, ?_, (sound_of_polls h).bounded, ?_⟩
  · intro before r after c hs hc
    obtain ⟨l', hcalled⟩ := record_of_polls h before r after hs
    exact hcalled.admitted c hc
  · intro before r after stream p hs hbefore hfirst hp
    exact refused_of_polls h hs hbefore hfirst hp
  · intro r hr hnone
    obtain ⟨before, after, hs⟩ := List.append_of_mem hr
    obtain ⟨l', hcalled⟩ := record_of_polls h before r after hs
    exact hcalled.advanced hnone

/-- One call with two clients: the first sends a PING, the second the key. -/
def twoClients : Poll where
  accepts := [.ok ⟨true, true, 0⟩, .ok ⟨true, true, 0⟩]
  now := 1
  reads := [.ok [PING, 0], .ok [KEY, 107, 0]]
  short := by simp [handshakeBuffer]

theorem second_client_is_let_in :
    ∃ c, (BackendListener.pollAuthentication {} [107] 5 twoClients).2.2 = .ok (some c) ∧ c.stream = 1 ∧
      Admitted [107] [] (BackendListener.pollAuthentication {} [107] 5 twoClients).2.1 1 c.stream :=
  ⟨⟨1, .reading {}, []⟩, rfl, rfl, (authentication_is_exact (.poll [107] 5 twoClients .bound)).1 [] _ [] _ rfl rfl⟩

end Protocol
end Jss
