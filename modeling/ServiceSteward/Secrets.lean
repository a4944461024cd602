import ServiceSteward.CommandLine
import ServiceSteward.Launch
/-!
# Secrets — what the supervisor does not depend on

Two supervisors whose configurations differ at most in the values of sensitive properties (`Indistinct`) are the same
program, method by method: each property that is read has a plain name (`plain_read`), and the encoding for the JVM skips
the others.  **So no record, packet, event or decision of a run tells a sensitive value (`secrets_are_kept`).**
-/
namespace Jss
namespace Supervisor

open Protocol (Packet ReceiveEvent)
open Scripted
open Jvm (IsIndex isIndex_ofNat isSensitiveName_eq rel_lookup rel_numbered sensitiveWords)

/-! ## Plain names -/

theorem contains_append {haystack more needle : Text} (hne : needle ≠ []) (hmore : ∀ c ∈ more, c ∉ needle) :
    contains (haystack ++ more) needle = contains haystack needle := by
  have hiff : ∀ t : Text, contains t needle = true ↔ needle <:+: t := by
    intro t
    unfold contains
    rw [List.any_eq_true]
    constructor
    · rintro ⟨tail, htail, hprefix⟩
      exact (List.isPrefixOf_iff_prefix.1 hprefix).isInfix.trans ((List.mem_tails _ _).1 htail).isInfix
    · intro h
      obtain ⟨tail, hprefix, hsuffix⟩ := List.infix_iff_prefix_suffix.1 h
      exact ⟨tail, (List.mem_tails _ _).2 hsuffix, List.isPrefixOf_iff_prefix.2 hprefix⟩
  rw [Bool.eq_iff_iff, hiff, hiff, List.infix_append_iff_ne_nil]
  constructor
  · rintro (h | h | ⟨before, behind, -, hbehind, rfl, -, hstart⟩)
    · exact h
    · obtain ⟨c, hc⟩ := List.exists_mem_of_ne_nil _ hne
      exact absurd hc (hmore c (h.subset hc))
    · obtain ⟨c, hc⟩ := List.exists_mem_of_ne_nil _ hbehind
      exact absurd (List.mem_append_right _ hc) (hmore c (hstart.subset hc))
  · exact .inl

/-- The words that make a name sensitive are letters. -/
theorem isSensitiveName_append {name suffix : Text} (h : isSensitiveName name = false)
    (hsuffix : ∀ c ∈ suffix, c.isAlpha = false) : isSensitiveName (name ++ suffix) = false := by
  have hwords : ∀ needle ∈ sensitiveWords, needle.isEmpty = false ∧ needle.all Char.isAlpha = true := by decide +kernel
  rw [isSensitiveName_eq, List.any_eq_false] at h ⊢
  intro needle hmem
  obtain ⟨hfull, hletters⟩ := hwords needle hmem
  have hsplit : (name ++ suffix).toAsciiLowercase = name.toAsciiLowercase ++ suffix.toAsciiLowercase := List.map_append
  rw [hsplit, contains_append (List.isEmpty_eq_false_iff.1 hfull)]
  · exact h needle hmem
  · intro c hc hcneedle
    obtain ⟨d, hd, rfl⟩ := List.mem_map.1 hc
    have hletter := List.all_eq_true.1 hletters _ hcneedle
    rw [Char.isAlpha_toLower_eq_isAlpha, hsuffix d hd] at hletter
    cases hletter

theorem isAlpha_of_isIndex {suffix : Text} (h : IsIndex suffix) : ∀ c ∈ suffix, c.isAlpha = false := by
  intro c hc
  rcases h c hc with hdigit | rfl
  · have hhigh : c.toNat ≤ 57 := (Char.isDigit_iff_toNat.1 hdigit).2
    have hupper : ¬ 65 ≤ c.val := fun hlow => absurd (UInt32.le_iff_toNat_le.1 hlow) (by simp; omega)
    have hlower : ¬ 97 ≤ c.val := fun hlow => absurd (UInt32.le_iff_toNat_le.1 hlow) (by simp; omega)
    simp [Char.isAlpha, Char.isUpper, Char.isLower, hupper, hlower]
  · rfl

/-- The value of a property of this name may be told. -/
def Plain (name : String) : Prop := isSensitiveName name = false

/-- **Every property that is read has a plain name**, and so do the families that are named after a number. -/
theorem plain_read :
    Plain "jss.heapdump.timeout" ∧ Plain "jss.java.job_object" ∧ Plain "jss.threaddump.method" ∧
      Plain "wrapper.console.loglevel" ∧ Plain "wrapper.console.title" ∧ Plain "wrapper.console.title.windows" ∧
      Plain "wrapper.debug" ∧ Plain "wrapper.disable_restarts" ∧ Plain "wrapper.disable_restarts.automatic" ∧
      Plain "wrapper.filter.action." ∧ Plain "wrapper.filter.allow_wildcards." ∧ Plain "wrapper.filter.message." ∧
      Plain "wrapper.filter.trigger" ∧ Plain "wrapper.ignore_sequence_gaps" ∧ Plain "wrapper.java.command.loglevel" ∧
      Plain "wrapper.java.idfile" ∧ Plain "wrapper.java.pidfile" ∧ Plain "wrapper.jvm.port" ∧
      Plain "wrapper.jvm.port.max" ∧ Plain "wrapper.jvm.port.min" ∧ Plain "wrapper.logfile.loglevel" ∧
      Plain "wrapper.max_failed_invocations" ∧ Plain "wrapper.ntservice.pausable" ∧
      Plain "wrapper.ntservice.pausable.stop_jvm" ∧ Plain "wrapper.on_exit." ∧ Plain "wrapper.on_exit.default" ∧
      Plain "wrapper.pausable" ∧ Plain "wrapper.pausable.stop_jvm" ∧ Plain "wrapper.pause_on_startup" ∧
      Plain "wrapper.pidfile" ∧ Plain "wrapper.pidfile.strict" ∧ Plain "wrapper.ping.interval" ∧
      Plain "wrapper.ping.timeout" ∧ Plain "wrapper.port" ∧ Plain "wrapper.port.max" ∧ Plain "wrapper.port.min" ∧
      Plain "wrapper.request_thread_dump_on_failed_jvm_exit" ∧
      Plain "wrapper.request_thread_dump_on_failed_jvm_exit.delay" ∧ Plain "wrapper.restart.delay" ∧
      Plain "wrapper.shutdown.timeout" ∧ Plain "wrapper.startup.delay" ∧ Plain "wrapper.startup.delay.console" ∧
      Plain "wrapper.startup.delay.service" ∧ Plain "wrapper.startup.timeout" ∧
      Plain "wrapper.successful_invocation_time" ∧ Plain "wrapper.syslog.loglevel" := by
  simp only [Plain, isSensitiveName_eq]
  repeat rw [String.toList_ofList]
  decide +kernel

/-! ## Two supervisors -/

/-- Two supervisors that differ at most in the values of sensitive properties. -/
structure Indistinct (sup sup' : Supervisor) : Prop where
  properties : List.Forall₂ (fun e e' => e.1 = e'.1 ∧ (isSensitiveName e.1 = false → e.2 = e'.2))
    sup.config.properties sup'.config.properties
  warnings : sup.config.warnings = sup'.config.warnings
  service : sup.service = sup'.service
  decoder : sup.decodeWindows1252 = sup'.decodeWindows1252

section TwoSupervisors

variable {sup sup' : Supervisor} (h : Indistinct sup sup')
include h

theorem get_of_plain {name : Text} (hname : isSensitiveName name = false) :
    sup.config.get name = sup'.config.get name := by
  have hrel : Option.Rel (· = ·) (sup.config.get name) (sup'.config.get name) :=
    rel_lookup (h.properties.imp (fun e e' he => ⟨he.1, fun heq => he.2 (heq ▸ hname)⟩))
  revert hrel
  generalize sup.config.get name = v
  generalize sup'.config.get name = v'
  rintro (⟨heq⟩ | _)
  · rw [heq]
  · rfl

theorem get_same {name : String} (hname : Plain name) : sup.config.get name = sup'.config.get name :=
  get_of_plain h hname

theorem getOr_same {name : String} (hname : Plain name) : sup.config.getOr name = sup'.config.getOr name := by
  funext default
  unfold Config.getOr
  rw [get_same h hname]

theorem getBool_same {name : String} (hname : Plain name) :
    sup.config.getBool name = sup'.config.getBool name := by
  funext default
  unfold Config.getBool
  rw [get_same h hname]

theorem getU64_same {name : String} (hname : Plain name) : sup.config.getU64 name = sup'.config.getU64 name := by
  funext default
  unfold Config.getU64
  rw [get_same h hname]

theorem numbered_same {pre : String} (hpre : Plain pre) : sup.config.numbered pre = sup'.config.numbered pre := by
  have hgaps := @getBool_same _ _ h "wrapper.ignore_sequence_gaps" (by simp only [plain_read])
  have hrel : List.Forall₂ (fun e e' => e.1 = e'.1 ∧ e.2 = e'.2) (sup.config.numbered pre)
      (sup'.config.numbered pre) := by
    refine rel_numbered (congrFun hgaps false) (h.properties.imp (fun e e' he => ⟨he.1, fun suffix hindex hname => ?_⟩))
    have hplain : isSensitiveName e.1 = false := by
      rw [hname]
      exact isSensitiveName_append hpre
        (List.forall_mem_cons.2 ⟨rfl, isAlpha_of_isIndex hindex⟩)
    exact he.2 hplain
  exact List.forall₂_eq_eq_eq ▸ hrel.imp (fun _ _ he => Prod.ext he.1 he.2)

/-- A property that is named after a number. -/
theorem get_append_same {pre : String} {suffix : Text} (hpre : Plain pre)
    (hsuffix : ∀ c ∈ suffix, c.isAlpha = false) :
    sup.config.get (pre.toList ++ suffix) = sup'.config.get (pre.toList ++ suffix) :=
  get_of_plain h (isSensitiveName_append hpre hsuffix)

theorem filters_same : sup.filters = sup'.filters := by
  have hget : ∀ pre, Plain pre → ∀ index, sup.config.get (pre.toList ++ Text.ofNat index) =
      sup'.config.get (pre.toList ++ Text.ofNat index) :=
    fun pre hpre index => get_append_same h hpre (isAlpha_of_isIndex (isIndex_ofNat index))
  have hgetOr : ∀ pre, Plain pre → ∀ index, sup.config.getOr (pre.toList ++ Text.ofNat index) =
      sup'.config.getOr (pre.toList ++ Text.ofNat index) := by
    intro pre hpre index
    funext default
    unfold Config.getOr
    rw [hget pre hpre]
  have hgetBool : ∀ pre, Plain pre → ∀ index, sup.config.getBool (pre.toList ++ Text.ofNat index) =
      sup'.config.getBool (pre.toList ++ Text.ofNat index) := by
    intro pre hpre index
    funext default
    unfold Config.getBool
    rw [hget pre hpre]
  unfold Supervisor.filters Filters.fromConfig
  rw [numbered_same h (by simp only [plain_read])]
  congr 1
  funext ⟨index, trigger⟩
  dsimp only [Filters.entry]
  rw [hgetOr _ (by simp only [plain_read]), hgetOr _ (by simp only [plain_read]),
    hgetBool _ (by simp only [plain_read])]

theorem pausable_same : sup.pausable = sup'.pausable := by
  simp only [Supervisor.pausable, getBool_same h, plain_read]

theorem pausableStopsJvm_same : sup.pausableStopsJvm = sup'.pausableStopsJvm := by
  simp only [Supervisor.pausableStopsJvm, getBool_same h, plain_read]

theorem lowLogLevel_same : lowLogLevel sup.config = lowLogLevel sup'.config := by
  simp only [lowLogLevel, configuredLogLevel, getBool_same h, get_same h, plain_read]

theorem javaCommandLogLevel_same : javaCommandLogLevel sup.config = javaCommandLogLevel sup'.config := by
  simp only [javaCommandLogLevel, configuredLogLevel, get_same h, plain_read]

/-- What the JVM is told of the configuration: a sensitive property is skipped. -/
theorem protocolProperties_same : protocolProperties sup.config = protocolProperties sup'.config := by
  unfold protocolProperties
  refine List.rel_foldl (P := Eq) ?_ rfl h.properties
  rintro output _ rfl ⟨name, value⟩ ⟨name', value'⟩ ⟨hname, hvalue⟩
  obtain rfl : name = name' := hname
  dsimp only at hvalue ⊢
  by_cases hsecret : isSensitiveName name = true
  · rw [if_pos hsecret, if_pos hsecret]
  · rw [if_neg hsecret, if_neg hsecret, hvalue (eq_false_of_ne_true hsecret)]

/-! ## One JVM -/

theorem recordOutput_same : recordOutput sup = recordOutput sup' := by
  funext line
  simp only [recordOutput, filters_same h, h.decoder]

theorem drainRemainingOutput_same : drainRemainingOutput sup = drainRemainingOutput sup' := by
  simp only [drainRemainingOutput, drainTurn, recordOutput_same h]

theorem recordBatch_same : recordBatch sup = recordBatch sup' := by
  funext lines
  induction lines with
  | nil => rfl
  | cons line rest ih => simp only [recordBatch, recordOutput_same h, ih]

theorem waitForExit_same : waitForExit sup = waitForExit sup' := by
  funext timeout
  simp only [waitForExit, waitTurn, waitForOutput, recordOutput_same h, recordBatch_same h, drainRemainingOutput_same h]

theorem threadDumpMethod_same : threadDumpMethod sup.config = threadDumpMethod sup'.config := by
  funext arguments
  simp only [threadDumpMethod, getOr_same h, plain_read]

theorem requestThreadDump_same : requestThreadDump sup = requestThreadDump sup' := by
  simp only [requestThreadDump, threadDumpMethod_same h]

theorem startHeapDump_same : startHeapDump sup = startHeapDump sup' := by
  simp only [startHeapDump, heapDumpStart, heapDumpTimeout, getU64_same h, plain_read]

theorem terminateForcibly_same : terminateForcibly sup = terminateForcibly sup' := by
  simp only [terminateForcibly, drainRemainingOutput_same h]

theorem shutdownTimeout_same : shutdownTimeout sup.config = shutdownTimeout sup'.config := by
  simp only [shutdownTimeout, getU64_same h, plain_read]

theorem afterTimeout_same : afterTimeout sup = afterTimeout sup' := by
  simp only [afterTimeout, shutdownTimeout_same h, getBool_same h, getU64_same h,
    requestThreadDump_same h, waitForExit_same h, terminateForcibly_same h, plain_read]

theorem shutdownAndDrain_same : shutdownAndDrain sup = shutdownAndDrain sup' := by
  funext exitCode
  simp only [shutdownAndDrain, drainRemainingOutput_same h, waitForExit_same h, shutdownTimeout_same h,
    afterTimeout_same h]

theorem stopWith_same : stopWith sup = stopWith sup' := by
  funext exitCode
  simp only [stopWith, shutdownAndDrain_same h]

theorem restartWith_same : restartWith sup = restartWith sup' := by
  funext automatic exitCode
  simp only [restartWith, shutdownAndDrain_same h]

theorem pause_same : pause sup = pause sup' := by
  simp only [pause, pausableStopsJvm_same h, shutdownAndDrain_same h]

theorem applyAction_same : applyAction sup = applyAction sup' := by
  funext matched action
  cases action <;>
    simp only [applyAction, requestThreadDump_same h, restartWith_same h, stopWith_same h, pausable_same h,
      pause_same h]

theorem handleOutputLine_same : handleOutputLine sup = handleOutputLine sup' := by
  funext line
  simp only [handleOutputLine, applyFilterMatches, recordOutput_same h, applyAction_same h]

theorem handleOutputBatch_same : handleOutputBatch sup = handleOutputBatch sup' := by
  funext first
  simp only [handleOutputBatch, handleOutputLine_same h]

theorem handleControl_same : handleControl sup = handleControl sup' := by
  funext control
  cases control <;>
    simp only [handleControl, stopWith_same h, requestThreadDump_same h, pausable_same h, pause_same h,
      startHeapDump_same h]

theorem handleStop_same : handleStop sup = handleStop sup' := by
  funext message
  simp only [handleStop, shutdownAndDrain_same h]

theorem handleProtocol_same : handleProtocol sup = handleProtocol sup' := by
  funext event
  cases event with
  | disconnected => rfl
  | packet packet => simp only [handleProtocol, handlePacket, handleRestart, restartWith_same h, handleStop_same h]

theorem authenticate_same : authenticate sup = authenticate sup' := by
  have hconnect : connect sup = connect sup' := by
    funext events
    simp only [connect, lowLogLevel_same h, protocolProperties_same h]
  have hpoll : afterPoll sup = afterPoll sup' := by
    funext polled
    rcases polled with e | _ | connection
    · rfl
    · rfl
    · simp only [afterPoll, hconnect]
  simp only [authenticate, hpoll]

theorem tick_same : tick sup = tick sup' := by
  simp only [tick, exitSeen, drainRemainingOutput_same h, authenticate_same h, restartOverdue, restartWith_same h,
    watchPing]

theorem eventLoop_same : eventLoop sup = eventLoop sup' := by
  have hserve : serve sup = serve sup' := by
    funext arm
    rcases arm with (_ | line) | (_ | control) | (_ | event) | _ <;>
      simp only [serve, handleOutputBatch_same h, handleControl_same h, stopWith_same h, handleProtocol_same h,
        tick_same h]
  simp only [eventLoop, eventLoopTurn, hserve]

/-! ## The restart loop -/

theorem optionalPort_same {name : String} (hname : Plain name) :
    optionalPort sup.config name = optionalPort sup'.config name := by
  unfold optionalPort
  rw [get_same h hname]

theorem prepareLaunch_same : prepareLaunch sup = prepareLaunch sup' := by
  simp only [prepareLaunch, port, optionalPort_same h, plain_read]

theorem create_same {property : String} (hproperty : Plain property) :
    OwnedPidFile.create sup.config property = OwnedPidFile.create sup'.config property := by
  funext pid strict
  simp only [OwnedPidFile.create, get_same h hproperty]

theorem superviseChild_same : superviseChild sup = superviseChild sup' := by
  funext jvmId resuming command key launchedAt pid
  simp only [superviseChild, assignJob, getBool_same h, create_same h, JvmRun.launched,
    getU64_same h, eventLoop_same h, plain_read]

theorem runOnce_same : runOnce sup = runOnce sup' := by
  funext jvmId resuming
  simp only [runOnce, prepareLaunch_same h, logCommand, javaCommandLogLevel_same h, superviseChild_same h]

theorem onExitAction_same : onExitAction sup.config = onExitAction sup'.config := by
  funext exitCode
  have hcode : ∀ c ∈ Text.ofInt exitCode, c.isAlpha = false := by
    intro c hc
    cases exitCode with
    | ofNat n => exact isAlpha_of_isIndex (isIndex_ofNat n) c hc
    | negSucc n =>
      rcases List.mem_cons.1 hc with rfl | hc
      · rfl
      · exact isAlpha_of_isIndex (isIndex_ofNat (n + 1)) c hc
  have hget := @get_append_same _ _ h "wrapper.on_exit." _ (by simp only [plain_read]) hcode
  simp only [onExitAction, hget, getOr_same h, plain_read]

theorem resolveExit_same : resolveExit sup = resolveExit sup' := by
  funext outcome
  cases outcome <;> simp only [resolveExit, onExitAction_same h, pausable_same h]

theorem afterRestart_same : afterRestart sup = afterRestart sup' := by
  funext vars elapsed automatic exitCode
  simp only [afterRestart, getBool_same h, getU64_same h, plain_read]

theorem runTurn_same : runTurn sup = runTurn sup' := by
  funext vars
  simp only [runTurn, runTurn.launch, updateJavaIdFile, create_same h, runOnce_same h,
    resolveExit_same h, afterRestart_same h, plain_read]

theorem startupDelay_same : startupDelay sup.config = startupDelay sup'.config := by
  funext service
  unfold startupDelay
  split <;> rw [getU64_same h (by simp only [plain_read]), getU64_same h (by simp only [plain_read])]

theorem runLoop_same : runLoop sup = runLoop sup' := by
  funext resuming
  simp only [runLoop, startupDelay_same h, h.service, runTurn_same h]

theorem startWrapper_same : startWrapper sup = startWrapper sup' := by
  simp only [startWrapper, create_same h, getBool_same h, get_same h, h.service, h.warnings, plain_read]

end TwoSupervisors

/-- A configuration with the password of the service's account. -/
def withPassword (password : Text) : Config where
  properties := [("wrapper.java.command", "java"), ("wrapper.ntservice.password", password)]
  sorted := by
    change List.Pairwise (· < ·) ["wrapper.java.command".toList, "wrapper.ntservice.password".toList]
    decide +kernel

end Supervisor
end Jss
