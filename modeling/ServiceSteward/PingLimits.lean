import ServiceSteward.Environment
import ServiceSteward.Watchdog
/-!
# PingLimits — how long each side lets the other be silent

Supervisor and bridge read `wrapper.ping.timeout` and `wrapper.ping.interval` by themselves.  The supervisor parses an
unsigned number and adds `Duration`s; the bridge parses a signed one and multiplies 64-bit integers, which wrap.
-/
namespace Jss
namespace BackendClient

open Supervisor (Supervisor Sys JvmRun JvmCommand Watching allowedSilence isSensitiveName protocolProperties)

/-! ## The numbers of the bridge -/

/-- `String.trim`. -/
def trim (t : Text) : Text :=
  ((t.dropWhile (fun c => c.toNat ≤ 0x20)).reverse.dropWhile (fun c => c.toNat ≤ 0x20)).reverse

/-- `Character.digit` of a `char` in base 10.  The digits of other scripts depend on the Java runtime. -/
def digit (others : Char → Option Nat) (c : Char) : Option Nat :=
  if c.toNat < 128 then (if c.isDigit then some (c.toNat - '0'.toNat) else none)
  else if c.toNat < 0x10000 then (others c).filter (· < 10)
  else none

def magnitude (others : Char → Option Nat) : Text → Option Nat
  | [] => none
  | t => t.foldlM (fun n c => (digit others c).map (10 * n + ·)) 0

/-- `Long.parseLong`, `none` for a `NumberFormatException`. -/
def parseLong (others : Char → Option Nat) : Text → Option Int
  | '-' :: rest => ((magnitude others rest).filter (· ≤ 2 ^ 63)).map (fun n => -(n : Int))
  | '+' :: rest => ((magnitude others rest).filter (· < 2 ^ 63)).map (fun n => (n : Int))
  | t => ((magnitude others t).filter (· < 2 ^ 63)).map (fun n => (n : Int))

/-- The number that a value is for the bridge. -/
def longOf (others : Char → Option Nat) (value : Option Text) (defaultValue : Int) : Int :=
  (value.bind (fun value => parseLong others (trim value))).getD defaultValue

def longProperty (others : Char → Option Nat) (properties : BTreeMap Text Text) (name : Text) (defaultValue : Int) : Int :=
  longOf others (properties.get name) defaultValue

/-- Addition and multiplication of `long`s wrap. -/
def pingTimeoutMillis (others : Char → Option Nat) (properties : BTreeMap Text Text) : Int :=
  let timeoutSeconds := longProperty others properties "wrapper.ping.timeout" 30
  let intervalSeconds := longProperty others properties "wrapper.ping.interval" 5
  if timeoutSeconds ≤ 0 then 0 else ((timeoutSeconds + max intervalSeconds 1).bmod (2 ^ 64) * 1000).bmod (2 ^ 64)

/-! ## The limit of the supervisor -/

/-- The silence that `tick` allows: 0 where it does not look, and none where the sum is no `Duration` and it panics. -/
def silenceLimit (run : JvmRun) : Option Duration :=
  if run.pingTimeout = 0 then some 0
  else if allowedSilence run < Duration.fromSecs (Text.u64Max + 1) then some (allowedSilence run)
  else none

/-- While a JVM is supervised, the limit outside heap dumps is the one it was launched with. -/
theorem silenceLimit_of_watching {sup : Supervisor} {s : Sys} (h : Watching sup s) (hdump : s.run.heapDumpTask = none)
    (jvmId : Nat) (resuming : Bool) (command : JvmCommand) (key : Text) (pid : Nat) (launchedAt now : Instant) :
    silenceLimit s.run = silenceLimit (.launched sup jvmId resuming command key pid launchedAt now) := by
  unfold silenceLimit allowedSilence
  rw [h.timeout, h.interval, hdump]
  rfl

theorem silenceLimit_launched (sup : Supervisor) (jvmId : Nat) (resuming : Bool) (command : JvmCommand) (key : Text)
    (pid : Nat) (launchedAt now : Instant) {timeout interval : Nat}
    (htimeout : sup.config.getU64 "wrapper.ping.timeout" 30 = timeout)
    (hinterval : max (sup.config.getU64 "wrapper.ping.interval" 5) 1 = interval) :
    silenceLimit (.launched sup jvmId resuming command key pid launchedAt now) =
      if timeout = 0 then some 0
      else if timeout + interval ≤ Text.u64Max then some (Duration.fromSecs (timeout + interval))
      else none := by
  have hallowed : allowedSilence (.launched sup jvmId resuming command key pid launchedAt now) =
      Duration.fromSecs (timeout + interval) := by
    subst htimeout hinterval
    have hparts : allowedSilence (.launched sup jvmId resuming command key pid launchedAt now) =
      Duration.fromSecs (sup.config.getU64 "wrapper.ping.timeout" 30) +
        Duration.fromSecs (max (sup.config.getU64 "wrapper.ping.interval" 5) 1) + 0 := rfl
    rw [hparts, Nat.add_zero]
    exact (Nat.add_mul _ _ _).symm
  have hoff : (JvmRun.launched sup jvmId resuming command key pid launchedAt now).pingTimeout = 0 ↔ timeout = 0 := by
    subst htimeout
    exact Nat.mul_eq_zero.trans (or_iff_left (by decide))
  have hfits : Duration.fromSecs (timeout + interval) < Duration.fromSecs (Text.u64Max + 1) ↔
      timeout + interval ≤ Text.u64Max := by
    unfold Duration.fromSecs
    rw [Nat.mul_lt_mul_right (by decide)]
    exact Nat.lt_succ_iff
  unfold silenceLimit
  simp only [hallowed, hoff, hfits]

/-! ## Where they agree -/

/-- What the two sides read: both limits are off, or both are on, the sum in milliseconds is a positive `long`, and the
sums that the sides form are the same up to what the factor 1000 makes of 64 bits. -/
def SameLimit (timeoutSeconds intervalSeconds : Nat) (timeoutLong intervalLong : Int) : Prop :=
  (timeoutSeconds = 0 ∧ (timeoutLong ≤ 0 ∨ (2 ^ 61 : Int) ∣ timeoutLong + intervalLong)) ∨
  (0 < timeoutSeconds ∧ 0 < timeoutLong ∧ (timeoutSeconds + intervalSeconds) * 1000 < 2 ^ 63 ∧
    (2 ^ 61 : Int) ∣ timeoutLong + intervalLong - (timeoutSeconds + intervalSeconds : Nat))

theorem dvd_mul_1000 (d : Int) : (2 ^ 64 : Int) ∣ d * 1000 ↔ (2 ^ 61 : Int) ∣ d := by
  have hthousand : d * 1000 = d * 125 * 8 := (Int.mul_assoc d 125 8).symm
  have hfactor : (2 ^ 64 : Int) ∣ d * 1000 ↔ (2 ^ 61 : Int) ∣ d * 125 := by
    rw [hthousand]
    exact Int.mul_dvd_mul_iff_right (a := 8) (b := 2 ^ 61) (by decide)
  -- 125 and the power of two have no common factor
  exact hfactor.trans ⟨fun h => Int.dvd_of_dvd_mul_left_of_gcd_one h (by decide), fun h => h.mul_right 125⟩

theorem wrapped_eq_iff (sum : Int) (total : Nat) :
    (sum.bmod (2 ^ 64) * 1000).bmod (2 ^ 64) = (total : Int) * 1000 ↔
      total * 1000 < 2 ^ 63 ∧ (2 ^ 61 : Int) ∣ sum - total := by
  have hfactor : (total : Int) * 1000 - sum * 1000 = (total - sum) * 1000 := (Int.sub_mul _ _ _).symm
  have hflip : (2 ^ 61 : Int) ∣ total - sum ↔ (2 ^ 61 : Int) ∣ sum - total := by
    rw [← Int.neg_sub, Int.dvd_neg]
  have hpow : ((2 ^ 64 : Nat) : Int) = 2 ^ 64 := rfl
  rw [Int.bmod_mul_bmod, Int.bmod_eq_iff (by decide), hfactor, hpow, dvd_mul_1000, hflip]
  constructor
  · rintro ⟨-, hsmall, hdvd⟩
    exact ⟨by omega, hdvd⟩
  · rintro ⟨hsmall, hdvd⟩
    exact ⟨by omega, by omega, hdvd⟩

theorem pingTimeoutMillis_eq_iff (others : Char → Option Nat) (properties : BTreeMap Text Text) (total : Nat)
    {timeout interval : Int} (htimeout : longProperty others properties "wrapper.ping.timeout" 30 = timeout)
    (hinterval : max (longProperty others properties "wrapper.ping.interval" 5) 1 = interval) :
    pingTimeoutMillis others properties = (total : Int) * 1000 ↔
      (timeout ≤ 0 ∧ total = 0) ∨ (0 < timeout ∧ total * 1000 < 2 ^ 63 ∧ (2 ^ 61 : Int) ∣ timeout + interval - total) := by
  subst htimeout hinterval
  unfold pingTimeoutMillis
  by_cases hoff : longProperty others properties "wrapper.ping.timeout" 30 ≤ 0
  · simp only [hoff, if_true, true_and, Int.not_lt.2 hoff, false_and, or_false]
    omega
  · simp only [hoff, if_false, false_and, false_or, Int.not_le.1 hoff, true_and]
    exact wrapped_eq_iff _ _

theorem longProperty_received (others : Char → Option Nat) {config : Config} (h : ∀ e ∈ config.properties, IsName e.1)
    (name : Text) (hsent : isSensitiveName name = false) (defaultValue : Int) :
    longProperty others (loadProperties (protocolProperties config)) name defaultValue =
      longOf others (config.get name) defaultValue := by
  have hget := config.map.get_filter (fun key => !isSensitiveName key) name
  rw [hsent] at hget
  rw [longProperty, loadProperties_of_isName h]
  exact congrArg (fun value => longOf others value defaultValue) hget

/-- **The limits of the two sides are the same** exactly where what they read satisfies `SameLimit`. -/
theorem limits_agree_iff (others : Char → Option Nat) {platform : Platform} {rootPath executableDirectory : Text}
    {overrides : List Text} {config : LoadedConfig}
    (h : Config.load platform rootPath executableDirectory overrides = .ok config) (sup : Supervisor)
    (jvmId : Nat) (resuming : Bool) (command : JvmCommand) (key : Text) (pid : Nat) (launchedAt now : Instant) :
    (∃ limit, silenceLimit (.launched { sup with config := config.toConfig } jvmId resuming command key pid launchedAt
        now) = some limit ∧
      (limit : Int) = pingTimeoutMillis others (loadProperties (protocolProperties config.toConfig)) * 1000000) ↔
    SameLimit (config.getU64 "wrapper.ping.timeout" 30) (max (config.getU64 "wrapper.ping.interval" 5) 1)
      (longOf others (config.get "wrapper.ping.timeout") 30) (max (longOf others (config.get "wrapper.ping.interval") 5) 1)
    := by
  have htimeout := longProperty_received others (load_isName h) "wrapper.ping.timeout" (by decide) 30
  have hinterval := longProperty_received others (load_isName h) "wrapper.ping.interval" (by decide) 5
  have hbridge := fun total => pingTimeoutMillis_eq_iff others (loadProperties (protocolProperties config.toConfig)) total
    htimeout (congrArg (max · 1) hinterval)
  rw [silenceLimit_launched { sup with config := config.toConfig } jvmId resuming command key pid launchedAt now rfl rfl]
  generalize config.getU64 "wrapper.ping.timeout" 30 = timeout
  generalize max (config.getU64 "wrapper.ping.interval" 5) 1 = interval
  generalize pingTimeoutMillis others (loadProperties (protocolProperties config.toConfig)) = millis at hbridge
  generalize longOf others (config.get "wrapper.ping.timeout") 30 = timeoutLong at hbridge
  generalize max (longOf others (config.get "wrapper.ping.interval") 5) 1 = intervalLong at hbridge
  have hsame : ∀ total, (Duration.fromSecs total : Int) = millis * 1000000 ↔ millis = (total : Int) * 1000 := by
    intro total
    unfold Duration.fromSecs
    omega
  unfold SameLimit
  by_cases hoff : timeout = 0
  · have hzero := (hsame 0).trans (hbridge 0)
    have hnone : Duration.fromSecs 0 = 0 := rfl
    rw [hnone] at hzero
    simp only [hoff, if_true, Option.some.injEq, exists_eq_left', hzero]
    by_cases hlong : timeoutLong ≤ 0
    · simp [hlong]
    · simp [hlong, Int.not_le.1 hlong]
  · have hon : 0 < timeout := Nat.pos_of_ne_zero hoff
    by_cases hfits : timeout + interval ≤ Text.u64Max
    · have hsum := (hsame (timeout + interval)).trans (hbridge (timeout + interval))
      simp only [hoff, hfits, if_false, if_true, Option.some.injEq, exists_eq_left', hsum]
      simp [hon, hoff]
    · -- the sum is no `Duration`, and in milliseconds no `long`
      have hlarge : ¬ (timeout + interval) * 1000 < 2 ^ 63 := by
        unfold Text.u64Max at hfits
        omega
      simp only [hoff, hfits, hlarge, if_false, false_and, and_false, or_false, reduceCtorEq, exists_false]

theorem signed_and_small_values_agree : ∃ config : LoadedConfig,
    Config.load (oneFile "/w.conf" "wrapper.ping.timeout= +60\nwrapper.ping.interval=-2\n") "/w.conf" "/"
      ["wrapper.ping.interval=0"] = .ok config ∧
    ∃ limit, silenceLimit (.launched { Supervisor.Supervisor.sample ⟨[], [], by decide⟩ with config := config.toConfig }
        1 false {} [] 0 0 0) = some limit ∧
      (limit : Int) =
        pingTimeoutMillis (fun _ => none) (loadProperties (protocolProperties config.toConfig)) * 1000000 := by
  have hproperties : (Loader.beforeOverride
      (oneFile "/w.conf" "wrapper.ping.timeout= +60\nwrapper.ping.interval=-2\n") "/w.conf" "/"
      ["wrapper.ping.interval=0"] ["wrapper.ping.interval=0"]).map (·.properties.entries) =
        .ok [("wrapper.ping.interval".toList, "0".toList), ("wrapper.ping.timeout".toList, "+60".toList)] := by
    decide +kernel
  obtain ⟨config, hload, hproperties⟩ := Loader.load_of_before (f := fun config => config.properties) (fun _ _ => rfl)
    hproperties
  refine ⟨config, hload, ?_⟩
  apply (limits_agree_iff (fun _ => none) hload (.sample ⟨[], [], by decide⟩) 1 false {} [] 0 0 0).2
  have hget : ∀ name, config.get name = [("wrapper.ping.interval".toList, "0".toList),
      ("wrapper.ping.timeout".toList, "+60".toList)].lookup name :=
    fun name => congrArg (List.lookup name) hproperties
  unfold SameLimit Config.getU64
  rw [hget, hget]
  decide +kernel

/-- The two limits for a configuration file. -/
def limitsOf (text : Text) : Except Error (Option Duration × Int) :=
  (Config.load (oneFile "/w.conf" text) "/w.conf" "/" []).map (fun config =>
    (silenceLimit (.launched (.sample config.toConfig) 1 false {} [] 0 0 0),
      pingTimeoutMillis (fun _ => none) (loadProperties (protocolProperties config.toConfig))))

/-- The limits are those of what was read. -/
theorem limitsOf_of_before {text : Text} {limits : Option Duration × Int}
    (h : (Loader.beforeOverride (oneFile "/w.conf" text) "/w.conf" "/" [] []).map (fun loader =>
      (silenceLimit (.launched (.sample (loader.config "/w.conf" "/").toConfig) 1 false {} [] 0 0 0),
        pingTimeoutMillis (fun _ => none)
          (loadProperties (protocolProperties (loader.config "/w.conf" "/").toConfig)))) = .ok limits) :
    limitsOf text = .ok limits := by
  obtain ⟨config, hload, hlimits⟩ := Loader.load_of_before
    (f := fun config => (silenceLimit (.launched (.sample config.toConfig) 1 false {} [] 0 0 0),
      pingTimeoutMillis (fun _ => none) (loadProperties (protocolProperties config.toConfig)))) (fun _ _ => rfl) h
  unfold limitsOf
  rw [hload, ← hlimits]
  rfl

/-- The bridge turns its watchdog off for a negative number and for a sum whose milliseconds wrap; the supervisor does
neither. -/
theorem limits_that_differ :
    limitsOf "wrapper.ping.timeout=-5\n" = .ok (some (Duration.fromSecs 35), 0) ∧
    limitsOf "wrapper.ping.timeout=9223372036854775\n" =
      .ok (some (Duration.fromSecs 9223372036854780), -9223372036854771616) :=
  ⟨limitsOf_of_before (by decide +kernel), limitsOf_of_before (by decide +kernel)⟩

end BackendClient
end Jss
