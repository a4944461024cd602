import Mathlib
import ServiceSteward.Config
/-!
# Logging — levels, sources and output filters

`LogWriter` itself is the other side of a `logged` observation; here is what the supervisor reads of `logging.rs`: the
levels it logs at, and the filters it matches every output line against.  The windows-1252 decoder of `encoding_rs`
is a parameter.
-/
namespace Jss

inductive LogLevel where
  | debug | info | status | warn | error | fatal | advice | notice | none
  deriving DecidableEq, Repr

namespace LogLevel

/-- The discriminant. -/
def number : LogLevel → Nat
  | debug => 1 | info => 2 | status => 3 | warn => 4 | error => 5 | fatal => 6 | advice => 7 | notice => 8 | none => 9

def fromProtocolCode (code : UInt8) : Option LogLevel :=
  match code.toNat with
  | 117 => some debug
  | 118 => some info
  | 119 => some status
  | 120 => some warn
  | 121 => some error
  | 122 => some fatal
  | 123 => some advice
  | 124 => some notice
  | _ => Option.none

end LogLevel

inductive LogSource where
  | wrapper
  | protocol
  | jvm (id : Nat)
  deriving DecidableEq, Repr

inductive FilterAction where
  | none | debug | dump | gc | restart | shutdown | pause | resume
  deriving DecidableEq, Repr

structure FilterMatch where
  index : Nat
  actions : List FilterAction
  message : Text
  deriving DecidableEq, Repr

structure Filter where
  index : Nat
  trigger : Text
  allowWildcards : Bool
  actions : List FilterAction
  message : Text
  deriving DecidableEq, Repr

abbrev Filters := List Filter

def parseFilterAction (value : Text) : Option FilterAction :=
  let value := value.trim.toAsciiUppercase
  if value = "NONE".toList then some .none
  else if value = "DEBUG".toList then some .debug
  else if value = "DUMP".toList then some .dump
  else if value = "GC".toList then some .gc
  else if value = "RESTART".toList then some .restart
  else if value = "SHUTDOWN".toList then some .shutdown
  else if value = "PAUSE".toList then some .pause
  else if value = "RESUME".toList then some .resume
  else Option.none

/-- One numbered trigger of `Filters::from_config`. -/
def Filters.entry (config : Config) (index : Nat) (trigger : Text) : Option Filter :=
  let named := ((config.getOr ("wrapper.filter.action.".toList ++ Text.ofNat index) "RESTART").splitOnP
    (fun c => c == ',' || c == ' ' || c == '\t')).filterMap parseFilterAction
  let actions := if named.isEmpty then [.restart] else named.take 16
  if trigger.isEmpty then Option.none
  else some {
    index, trigger, actions
    allowWildcards := config.getBool ("wrapper.filter.allow_wildcards.".toList ++ Text.ofNat index) false
    message := config.getOr ("wrapper.filter.message.".toList ++ Text.ofNat index) "Filter trigger matched." }

def Filters.fromConfig (config : Config) : Filters :=
  (config.numbered "wrapper.filter.trigger").filterMap (fun (index, trigger) => Filters.entry config index trigger)

/-- The variables of `wildcard_matches_prefix`'s loop. -/
structure WildcardState where
  textIndex : Nat := 0
  patternIndex : Nat := 0
  lastStar : Option Nat := none
  starTextIndex : Nat := 0

/-- The loop of `wildcard_matches_prefix`.  A turn moves on in the pattern or lets the last star take one byte more, so
`(text.length + 2) * (pattern.length + 2)` turns are enough. -/
def wildcardLoop (text pattern : Bytes) : Nat → WildcardState → Bool
  | 0, _ => false
  | fuel + 1, w =>
    match pattern[w.patternIndex]? with
    | Option.none => true
    | some p =>
      if p = 42 then
        wildcardLoop text pattern fuel { w with
          lastStar := some w.patternIndex, patternIndex := w.patternIndex + 1, starTextIndex := w.textIndex }
      else if w.textIndex < text.length ∧ (p = 63 ∨ text[w.textIndex]? = some p) then
        wildcardLoop text pattern fuel { w with patternIndex := w.patternIndex + 1, textIndex := w.textIndex + 1 }
      else
        match w.lastStar with
        | Option.none => false
        | some starIndex =>
          if w.starTextIndex = text.length then false
          else wildcardLoop text pattern fuel { w with
            starTextIndex := w.starTextIndex + 1, textIndex := w.starTextIndex + 1, patternIndex := starIndex + 1 }

def wildcardMatchesPrefix (text pattern : Bytes) : Bool :=
  wildcardLoop text pattern ((text.length + 2) * (pattern.length + 2)) {}

def wildcardContains (text pattern : Bytes) : Bool := text.tails.any (wildcardMatchesPrefix · pattern)

def triggerMatches (decodeWindows1252 : Bytes → Text) (line : Bytes) (trigger : Text) (allowWildcards : Bool) : Bool :=
  if trigger.isEmpty then false
  else
    let text := if trigger.isAscii then line
      else if (fromUtf8 line).isSome then line
      else (decodeWindows1252 line).asBytes
    if allowWildcards then wildcardContains text trigger.asBytes else contains text trigger.asBytes

/-- `Filters::inspect_bytes`: the first filter that matches, if any. -/
def Filters.inspectBytes (decodeWindows1252 : Bytes → Text) (filters : Filters) (line : Bytes) : List FilterMatch :=
  ((filters.find? (fun f => triggerMatches decodeWindows1252 line f.trigger f.allowWildcards)).map
    (fun f => ⟨f.index, f.actions, f.message⟩)).toList

/-! ## Configured levels -/

def configuredLogLevel (config : Config) (property : Text) (default : LogLevel) : LogLevel :=
  match (config.get property).map (fun value => value.trim.toAsciiUppercase) with
  | Option.none => default
  | some value =>
    if value = "DEBUG".toList then .debug
    else if value = "INFO".toList then .info
    else if value = "STATUS".toList then .status
    else if value = "WARN".toList then .warn
    else if value = "ERROR".toList then .error
    else if value = "FATAL".toList then .fatal
    else if value = "ADVICE".toList then .advice
    else if value = "NOTICE".toList then .notice
    else if value = "NONE".toList then .none
    else default

/-- `low_log_level`, as the number that is sent. -/
def lowLogLevel (config : Config) : Nat :=
  if config.getBool "wrapper.debug" false then LogLevel.debug.number
  else min (configuredLogLevel config "wrapper.console.loglevel" .info).number
    (min (configuredLogLevel config "wrapper.logfile.loglevel" .info).number
      (configuredLogLevel config "wrapper.syslog.loglevel" .none).number)

def javaCommandLogLevel (config : Config) : LogLevel :=
  configuredLogLevel config "wrapper.java.command.loglevel" .debug

end Jss
