import ServiceSteward.BridgeProperties
import ServiceSteward.BridgeReader
import ServiceSteward.Dialogue
import ServiceSteward.StartStopApp
/-!
# Briefing — what the bridge knows when it starts the application

The packets that the supervisor has written on a connection are the beginning of its greeting and of what is told later
(`Spoken`), and the bridge reads a beginning of them however its reads are cut.  So **`application_is_briefed`: whatever
the bridge handles from `START` on, it handles with the properties, the log level and the log file of the supervisor.**
-/
namespace Jss
namespace Supervisor

open Protocol (Framer START STOP LOW_LOG_LEVEL PROPERTIES LOGFILE PAUSE RESUME GC SERVICE_CONTROL PING)
open BackendClient (SocketRead ReadEvent received bufferedInput loadProperties)
open StartStopApp (Runtime parseInt countOf)
open Bridge (JString)

/-! ## What is written -/

/-- The packets written since a JVM was launched or its last connection was dropped. -/
def spoken : Monitor (List (UInt8 × Text)) Obs where
  start := []
  step sent o :=
    match o with
    | .spawned _ | .dropped _ => []
    | .sent code message => sent ++ [(code, message)]
    | _ => sent

/-- What comes before `START`. -/
def settingsSent (config : Config) (logFile : Text) : List (UInt8 × Text) :=
  [(LOW_LOG_LEVEL, Text.ofNat (lowLogLevel config)), (LOGFILE, logFile), (PROPERTIES, protocolProperties config)]

def greeting (config : Config) (logFile : Text) : List (UInt8 × Text) :=
  settingsSent config logFile ++ [(START, "start".toList)]

/-- The packet leaves the settings of the bridge alone. -/
def Unsetting (p : UInt8 × Text) : Prop := p.1 ∉ [LOW_LOG_LEVEL, LOGFILE, PROPERTIES]

/-- **What is written so far**, at each stage of the connection. -/
structure Spoken (config : Config) (m : Talk) (sent : List (UInt8 × Text)) : Prop where
  writable : ∀ p ∈ sent, Writable p.1 p.2
  shape : ∃ logFile rest, sent ++ rest = greeting config logFile ∧ m.stage = .greeting sent.length ∨
    sent = greeting config logFile ++ rest ∧ (∀ p ∈ rest, Unsetting p) ∧ (m.stage = .serving ∨ m.stage = .stopping)

theorem Told.unsetting {code : UInt8} {message : Text} (h : Told code message) : Unsetting (code, message) := by
  cases h with
  | gc => simp [Unsetting, GC, LOW_LOG_LEVEL, LOGFILE, PROPERTIES]
  | user code => simp [Unsetting, SERVICE_CONTROL, LOW_LOG_LEVEL, LOGFILE, PROPERTIES]
  | ping started => simp [Unsetting, PING, LOW_LOG_LEVEL, LOGFILE, PROPERTIES]

theorem unsetting_of_mayWrite {config : Config} {m : Talk} {code : UInt8} {message : Text} (hm : m.stage = .serving)
    (h : m.mayWrite config code message) : Unsetting (code, message) := by
  unfold Talk.mayWrite at h
  rw [hm] at h
  rcases h with h | ⟨rfl, -⟩ | ⟨rfl, -⟩ | ⟨rfl, -⟩
  · exact h.unsetting
  · simp [Unsetting, PAUSE, LOW_LOG_LEVEL, LOGFILE, PROPERTIES]
  · simp [Unsetting, RESUME, LOW_LOG_LEVEL, LOGFILE, PROPERTIES]
  · simp [Unsetting, STOP, LOW_LOG_LEVEL, LOGFILE, PROPERTIES]

theorem wrote_serving {m : Talk} (hm : m.stage = .serving) (code : UInt8) :
    (m.wrote code).stage = .serving ∨ (m.wrote code).stage = .stopping := by
  unfold Talk.wrote
  simp only [hm]
  by_cases hstop : code = STOP
  · simp [hstop]
  · simp only [hstop, if_false]
    left
    split
    · rfl
    split
    · rfl
    · exact hm

/-- The next packet of the greeting. -/
theorem greeting_goes_on {config : Config} {m : Talk} {sent rest : List (UInt8 × Text)} {logFile code message}
    (hsent : sent ++ rest = greeting config logFile) (hm : m.stage = .greeting sent.length)
    (h : m.mayWrite config code message) :
    ∃ logFile' rest', (sent ++ [(code, message)]) ++ rest' = greeting config logFile' := by
  unfold Talk.mayWrite at h
  rw [hm] at h
  unfold greeting settingsSent at hsent
  match sent, hsent with
  | [], _ =>
    obtain ⟨rfl, rfl⟩ := h
    exact ⟨[], _, rfl⟩
  | [a], hsent =>
    obtain rfl : code = LOGFILE := h
    obtain ⟨rfl, -⟩ := List.cons.inj hsent
    exact ⟨message, _, rfl⟩
  | [a, b], hsent =>
    obtain ⟨rfl, rfl⟩ := h
    simp only [List.cons_append, List.nil_append, List.cons.injEq] at hsent
    obtain ⟨rfl, rfl, -⟩ := hsent
    exact ⟨logFile, _, rfl⟩
  | [a, b, c], hsent =>
    obtain ⟨rfl, rfl⟩ := h
    simp only [List.cons_append, List.nil_append, List.cons.injEq] at hsent
    obtain ⟨rfl, rfl, rfl, -⟩ := hsent
    exact ⟨logFile, [], rfl⟩
  | a :: b :: c :: d :: sent, hsent => exact h.elim

theorem Spoken.step {config : Config} {m : Talk} {sent : List (UInt8 × Text)} {o : Obs} (h : Spoken config m sent)
    (ho : m.may config o) : Spoken config (m.step o) (spoken.step sent o) := by
  obtain ⟨hwritable, logFile, rest, hshape⟩ := h
  have hnone : Spoken config { m with stage := .greeting 0 } [] := ⟨by simp, [], _, .inl ⟨rfl, rfl⟩⟩
  cases o with
  | spawned id => exact ⟨by simp [spoken], [], _, .inl ⟨rfl, rfl⟩⟩
  | dropped unread => exact hnone
  | connected =>
    have hstage : m.stage = .greeting 4 := ho
    refine ⟨hwritable, logFile, [], .inr ⟨?_, by simp, .inl rfl⟩⟩
    rcases hshape with ⟨hsent, hm⟩ | ⟨-, -, hm | hm⟩
    · -- all four packets are written, so nothing of the greeting is left
      have hlength : sent.length = 4 := by
        rw [hstage] at hm
        injection hm with hm
        exact hm.symm
      have hrest : rest = [] := by
        have := congrArg List.length hsent
        rw [List.length_append, hlength] at this
        exact List.length_eq_zero_iff.1 (by simpa [greeting, settingsSent] using this)
      rw [List.append_nil, ← hsent, hrest, List.append_nil]
      rfl
    · rw [hstage] at hm
      cases hm
    · rw [hstage] at hm
      cases hm
  | sent code message =>
    obtain ⟨hmay, hframe⟩ := ho
    have hall : ∀ p ∈ sent ++ [(code, message)], Writable p.1 p.2 := by
      intro p hp
      rcases List.mem_append.1 hp with hp | hp
      · exact hwritable p hp
      · rw [List.mem_singleton.1 hp]
        exact hframe
    rcases hshape with ⟨hsent, hm⟩ | ⟨hsent, hrest, hm | hm⟩
    · obtain ⟨logFile', rest', hnext⟩ := greeting_goes_on hsent hm hmay
      refine ⟨hall, logFile', rest', .inl ⟨hnext, ?_⟩⟩
      simp [Talk.step, Talk.wrote, hm, spoken]
    · refine ⟨hall, logFile, rest ++ [(code, message)], .inr ⟨by simp [spoken, hsent], ?_, ?_⟩⟩
      · intro p hp
        rcases List.mem_append.1 hp with hp | hp
        · exact hrest p hp
        · rw [List.mem_singleton.1 hp]
          exact unsetting_of_mayWrite hm hmay
      · exact wrote_serving hm code
    · unfold Talk.mayWrite at hmay
      rw [hm] at hmay
      exact hmay.elim
  | _ => exact ⟨hwritable, logFile, rest, hshape⟩

/-- **Every connection starts with the greeting**, and nothing after it changes a setting. -/
theorem spoken_prefix (sup : Supervisor) (script : List Answer) :
    (∀ p ∈ spoken.after (run sup { script := script }).state.trace, Writable p.1 p.2) ∧
      ∃ logFile rest, (∀ p ∈ rest, Unsetting p) ∧
        spoken.after (run sup { script := script }).state.trace <+: greeting sup.config logFile ++ rest := by
  have hstart : Spoken sup.config talk.start spoken.start := ⟨by simp [spoken], [], _, .inl ⟨rfl, rfl⟩⟩
  obtain ⟨hwritable, logFile, rest, hshape⟩ := Monitor.Always.relates (R := Spoken sup.config) hstart
    (fun _ _ _ h ho => h.step ho) _ (inOrder_run sup script)
  refine ⟨hwritable, ?_⟩
  rcases hshape with ⟨hsent, -⟩ | ⟨hsent, hrest, -⟩
  · exact ⟨logFile, [], by simp, by rw [List.append_nil, ← hsent]; exact List.prefix_append _ _⟩
  · exact ⟨logFile, rest, hrest, by rw [hsent]⟩

/-! ## What the bridge keeps -/

/-- The code units of a decoded text. -/
def utf16 (t : Text) : JString :=
  t.flatMap (fun c =>
    if c.toNat < 0x10000 then [UInt16.ofNat c.toNat]
    else [UInt16.ofNat (0xD800 + (c.toNat - 0x10000) / 0x400), UInt16.ofNat (0xDC00 + (c.toNat - 0x10000) % 0x400)])

/-- The fields of `BackendClient` that the wrapper sets. -/
structure AppSettings where
  properties : BTreeMap Text Text := .empty
  lowLogLevel : Int := 2
  wrapperLogFile : Text := []

/-- What `BackendClient.handle` keeps of a packet. -/
def AppSettings.handle (runtime : Runtime) (s : AppSettings) (p : BackendClient.Packet) : AppSettings :=
  if p.code = LOW_LOG_LEVEL.toNat then
    { s with lowLogLevel := (parseInt runtime (StartStopApp.trim (utf16 p.message))).getD 2 }
  else if p.code = LOGFILE.toNat then { s with wrapperLogFile := p.message }
  else if p.code = PROPERTIES.toNat then { s with properties := loadProperties p.message }
  else s

def AppSettings.after (runtime : Runtime) (packets : List BackendClient.Packet) : AppSettings :=
  packets.foldl (AppSettings.handle runtime) {}

/-- A packet as the bridge reads it. -/
def asRead (p : UInt8 × Text) : BackendClient.Packet := ⟨p.1.toNat, p.2⟩

theorem utf16_ofNat (n : Nat) : utf16 (Text.ofNat n) = JString.ofText (Text.ofNat n) := by
  have hdigits := StartStopApp.isDigit_ofNat n
  generalize Text.ofNat n = t at hdigits
  induction t with
  | nil => rfl
  | cons c t ih =>
    have hc : c.toNat < 0x10000 := by
      have h := hdigits c List.mem_cons_self
      have hle : c ≤ '9' := by
        have := h
        simp only [Char.isDigit, Bool.and_eq_true, decide_eq_true_eq] at this
        exact this.2
      have hle' : c.toNat ≤ '9'.toNat := hle
      have hnine : '9'.toNat = 57 := rfl
      omega
    have ih := ih (fun d hd => hdigits d (List.mem_cons_of_mem c hd))
    unfold utf16 at ih ⊢
    rw [List.flatMap_cons, if_pos hc, ih]
    rfl

theorem lowLogLevel_lt (config : Config) : lowLogLevel config < 2 ^ 31 := by
  have hnumber : ∀ level : LogLevel, level.number < 10 := by
    intro level
    cases level <;> decide
  unfold lowLogLevel
  split
  · decide
  · have := hnumber (configuredLogLevel config "wrapper.console.loglevel" .info)
    omega

/-- The number is read back as it was sent. -/
theorem parseInt_ofNat (runtime : Runtime) {n : Nat} (h : n < 2 ^ 31) :
    parseInt runtime (StartStopApp.trim (utf16 (Text.ofNat n))) = some (n : Int) := by
  have hcount : countOf runtime (JString.ofText (Text.ofNat n)) = some n := StartStopApp.countOf_printed runtime h
  rw [utf16_ofNat]
  unfold countOf at hcount
  obtain ⟨i, hi, hn⟩ := Option.map_eq_some_iff.1 hcount
  obtain ⟨hparse, hpositive⟩ := Option.filter_eq_some_iff.1 hi
  rw [hparse]
  have : 0 ≤ i := by simpa using hpositive
  exact congrArg some (by omega)

/-- What the supervisor's settings are at the bridge. -/
def briefed (config : Config) (logFile : Text) : AppSettings where
  properties := loadProperties (protocolProperties config)
  lowLogLevel := lowLogLevel config
  wrapperLogFile := logFile

theorem after_settingsSent (runtime : Runtime) (config : Config) (logFile : Text) :
    AppSettings.after runtime ((settingsSent config logFile).map asRead) = briefed config logFile := by
  have hlevel := parseInt_ofNat runtime (lowLogLevel_lt config)
  simp [AppSettings.after, settingsSent, asRead, AppSettings.handle, briefed, hlevel, LOW_LOG_LEVEL, LOGFILE, PROPERTIES]

theorem handle_unsetting (runtime : Runtime) (s : AppSettings) {p : UInt8 × Text} (h : Unsetting p) :
    s.handle runtime (asRead p) = s := by
  simp only [Unsetting, List.mem_cons, List.not_mem_nil, or_false, not_or] at h
  obtain ⟨hlevel, hfile, hproperties⟩ := h
  have hne : ∀ code : UInt8, p.1 ≠ code → ((asRead p).code = (code.toNat : Int)) = False := by
    intro code hcode
    simp only [asRead, eq_iff_iff, iff_false]
    intro heq
    exact hcode (UInt8.toNat_inj.1 (by exact_mod_cast heq))
  unfold AppSettings.handle
  simp only [hne _ hlevel, hne _ hfile, hne _ hproperties, if_false]

theorem after_unsetting (runtime : Runtime) (s : AppSettings) : ∀ ps : List (UInt8 × Text), (∀ p ∈ ps, Unsetting p) →
    (ps.map asRead).foldl (AppSettings.handle runtime) s = s
  | [], _ => rfl
  | p :: ps, h => by
    rw [List.map_cons, List.foldl_cons, handle_unsetting runtime s (h p List.mem_cons_self)]
    exact after_unsetting runtime s ps (fun q hq => h q (List.mem_cons_of_mem p hq))

/-- **From `START` on the settings stand.** -/
theorem after_of_started (runtime : Runtime) {config : Config} {logFile : Text} {rest before after : List (UInt8 × Text)}
    {p : UInt8 × Text} (hrest : ∀ q ∈ rest, Unsetting q)
    (hsplit : before ++ p :: after = greeting config logFile ++ rest) (hstarted : ∃ q ∈ before ++ [p], q.1 = START) :
    (LOGFILE, logFile) ∈ before ∧ AppSettings.after runtime (before.map asRead) = briefed config logFile := by
  have hlogFile : (LOGFILE, logFile) ∈ settingsSent config logFile := by simp [settingsSent]
  have htail : before ++ p :: after = settingsSent config logFile ++ ((START, "start".toList) :: rest) := by
    rw [hsplit]
    simp [greeting]
  have hnotStart : ∀ q ∈ settingsSent config logFile, q.1 ≠ START := by
    simp [settingsSent, LOW_LOG_LEVEL, LOGFILE, PROPERTIES, START]
  rcases List.append_eq_append_iff.1 htail with ⟨left, hsettings, hleft⟩ | ⟨more, hbefore, hmore⟩
  · -- `before` ends within the settings
    cases left with
    | nil =>
      rw [List.append_nil] at hsettings
      rw [← hsettings]
      exact ⟨hlogFile, after_settingsSent runtime config logFile⟩
    | cons q left =>
      obtain ⟨rfl, -⟩ := List.cons.inj hleft
      obtain ⟨q, hq, hstart⟩ := hstarted
      refine absurd hstart (hnotStart q ?_)
      rw [hsettings]
      rcases List.mem_append.1 hq with hq | hq
      · exact List.mem_append_left _ hq
      · rw [List.mem_singleton.1 hq]
        exact List.mem_append_right _ List.mem_cons_self
  · have hquiet : ∀ q ∈ more, Unsetting q := by
      intro q hq
      have hmem : q ∈ (START, "start".toList) :: rest := by
        rw [hmore]
        exact List.mem_append_left _ hq
      rcases List.mem_cons.1 hmem with rfl | hmem
      · simp [Unsetting, START, LOW_LOG_LEVEL, LOGFILE, PROPERTIES]
      · exact hrest q hmem
    rw [hbefore, List.map_append]
    refine ⟨List.mem_append_left _ hlogFile, ?_⟩
    unfold AppSettings.after
    rw [List.foldl_append]
    exact (after_unsetting runtime _ more hquiet).trans (after_settingsSent runtime config logFile)

/-! ## End to end -/

/-- **Any part of the bytes is read as a part of the packets.** -/
theorem received_prefix {sent : List (UInt8 × Text)} {frames : List Bytes} (hsent : sent.mapM BackendClient.send = .ok frames)
    {reads : List SocketRead} (hopen : SocketRead.closed ∉ reads)
    (hreads : reads.flatMap SocketRead.content <+: frames.flatten) {input : List (Nat × ReadEvent)}
    (hinput : input.map Prod.snd = bufferedInput reads) :
    (received (input.length + 1) {} input).1 <+: sent.map asRead := by
  have hpackets : (sent.map (fun p => Protocol.Packet.text p.1 p.2)).mapM Protocol.Packet.writeTo = .ok frames := by
    rw [List.mapM_map]
    exact hsent
  have hcontent : BackendClient.content input = reads.flatMap SocketRead.content := by
    have hmap : BackendClient.content input = (input.map Prod.snd).flatMap ReadEvent.content := by
      rw [List.flatMap_map]
      rfl
    rw [hmap, hinput, BackendClient.content_bufferedInput]
  have hevents : ∀ e ∈ input, e.2 ≠ .endOfStream := by
    intro e he heq
    apply BackendClient.not_endOfStream hopen
    rw [← hinput, ← heq]
    exact List.mem_map_of_mem he
  obtain ⟨unread, hunread⟩ := hreads
  have hwhole := Protocol.emitted_frames _ _ hpackets
  rw [← hunread, Incremental.emitted_append] at hwhole
  have hread := BackendClient.received_eq input (input.length + 1) {} (by omega) hevents
  have hmessages : sent.map asRead = (sent.map (fun p => Protocol.Packet.text p.1 p.2)).map BackendClient.packetOf := by
    rw [List.map_map]
    refine List.map_congr_left (fun p _ => ?_)
    show _ = BackendClient.Packet.mk p.1.toNat (utf8Lossy (Text.asBytes p.2))
    rw [utf8Lossy_asBytes]
    rfl
  rw [show received (input.length + 1) {} input = _ from hread, hcontent, hmessages]
  refine List.IsPrefix.map _ ?_
  cases hpart : (Incremental.emitted Framer.feedByte {} (reads.flatMap SocketRead.content)).2 with
  | error e =>
    rw [hpart] at hwhole
    have := congrArg Prod.snd hwhole
    rw [hpart] at this
    cases this
  | ok f =>
    rw [hpart] at hwhole
    exact ⟨_, congrArg Prod.fst hwhole⟩

theorem frames_of_writable : ∀ sent : List (UInt8 × Text), (∀ p ∈ sent, Writable p.1 p.2) →
    ∃ frames, sent.mapM BackendClient.send = .ok frames
  | [], _ => ⟨[], rfl⟩
  | p :: sent, h => by
    obtain ⟨frame, hframe⟩ := h p List.mem_cons_self
    obtain ⟨frames, hframes⟩ := frames_of_writable sent (fun q hq => h q (List.mem_cons_of_mem p hq))
    have hsend : BackendClient.send p = .ok frame := hframe
    exact ⟨frame :: frames, by rw [List.mapM_cons, hsend, hframes]; rfl⟩

theorem asRead_injective : Function.Injective asRead := by
  rintro ⟨code, message⟩ ⟨code', message'⟩ h
  simp only [asRead, BackendClient.Packet.mk.injEq, Nat.cast_inj] at h
  rw [UInt8.toNat_inj.1 h.1, h.2]

/-- **The application is briefed before it starts.**  In every run of the supervisor, wherever it is cut short, whatever
it wrote on the connection has its frames, and however far the bridge has read them, however its reads are cut and
wherever they time out: each packet that the bridge handles from `START` on, it handles with the properties, the log level
and the log file it was sent; and for a configuration that was loaded, the properties are all of its own but the sensitive
ones. -/
theorem application_is_briefed (sup : Supervisor) (script : List Answer) (runtime : Runtime) {platform : Platform}
    {rootPath executableDirectory : Text} {overrides : List Text} {config : LoadedConfig}
    (hload : Config.load platform rootPath executableDirectory overrides = .ok config) (hsup : sup.config = config.toConfig) :
    let sent := spoken.after (run sup { script := script }).state.trace
    ∃ frames logFile, sent.mapM BackendClient.send = .ok frames ∧
      ∀ reads input, SocketRead.closed ∉ reads → reads.flatMap SocketRead.content <+: frames.flatten →
        input.map Prod.snd = bufferedInput reads →
        ∀ before p after, (received (input.length + 1) {} input).1 = before ++ p :: after →
          (∃ q ∈ before ++ [p], q.code = (START.toNat : Int)) →
          (LOGFILE, logFile) ∈ sent ∧ AppSettings.after runtime before =
            ⟨config.map.filter (fun e => !isSensitiveName e.1), lowLogLevel sup.config, logFile⟩ := by
  obtain ⟨hwritable, logFile, rest, hrest, hpre⟩ := spoken_prefix sup script
  generalize spoken.after (run sup { script := script }).state.trace = sent at hwritable hpre
  obtain ⟨frames, hframes⟩ := frames_of_writable sent hwritable
  refine ⟨frames, logFile, hframes, fun reads input hopen hreads hinput before p after hsplit hstarted => ?_⟩
  have hread := received_prefix hframes hopen hreads hinput
  rw [hsplit] at hread
  obtain ⟨unread, hunread⟩ := hread.trans (hpre.map asRead)
  rw [List.append_assoc] at hunread
  obtain ⟨first, last, hcut, rfl, hlast⟩ := List.map_eq_append_iff.1 hunread.symm
  obtain ⟨q, last, rfl, rfl, -⟩ := List.map_eq_cons_iff.1 hlast
  have hstart : ∃ r ∈ first ++ [q], r.1 = START := by
    obtain ⟨r, hr, hcode⟩ := hstarted
    have hmapped : r ∈ (first ++ [q]).map asRead := by simpa using hr
    obtain ⟨r, hmem, rfl⟩ := List.mem_map.1 hmapped
    exact ⟨r, hmem, UInt8.toNat_inj.1 (by simpa [asRead] using hcode)⟩
  obtain ⟨hlogFile, hsettings⟩ := after_of_started runtime hrest hcut.symm hstart
  constructor
  · obtain ⟨r, hr, heq⟩ := List.mem_map.1 (hread.subset (List.mem_append_left _ (List.mem_map_of_mem hlogFile)))
    rwa [← asRead_injective heq]
  · rw [hsettings, briefed, hsup, BackendClient.loadProperties_protocolProperties hload]

/-- A configuration with a secret, and a run up to the greeting of its JVM. -/
theorem sample_application_is_briefed : ∃ config : LoadedConfig,
    Config.load (BackendClient.oneFile "/w.conf" "a=b\npassword=p\n") "/w.conf" "/" [] = .ok config ∧
      ∃ frames, (spoken.after (run (.sample config.toConfig) { script := quiet 4 ++ connected }).state.trace).mapM
        BackendClient.send = .ok frames ∧
      ∀ reads input, SocketRead.closed ∉ reads → reads.flatMap SocketRead.content <+: frames.flatten →
        input.map Prod.snd = bufferedInput reads →
        ∀ before p after, (received (input.length + 1) {} input).1 = before ++ p :: after →
          (∃ q ∈ before ++ [p], q.code = (START.toNat : Int)) →
          (AppSettings.after StartStopApp.documented before).properties =
            config.map.filter (fun e => !isSensitiveName e.1) := by
  have hloads : (Config.load (BackendClient.oneFile "/w.conf" "a=b\npassword=p\n") "/w.conf" "/" []).toOption.isSome =
      true := by decide +kernel
  cases hload : Config.load (BackendClient.oneFile "/w.conf" "a=b\npassword=p\n") "/w.conf" "/" [] with
  | error e =>
    rw [hload] at hloads
    cases hloads
  | ok config =>
    obtain ⟨frames, logFile, hframes, hbriefed⟩ := application_is_briefed (.sample config.toConfig) (quiet 4 ++ connected)
      StartStopApp.documented hload rfl
    refine ⟨config, rfl, frames, hframes, fun reads input hopen hreads hinput before p after hsplit hstarted => ?_⟩
    rw [(hbriefed reads input hopen hreads hinput before p after hsplit hstarted).2]

end Supervisor
end Jss
