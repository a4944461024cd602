import ServiceSteward.Logging
import ServiceSteward.Rotation
/-!
# LogWriter — `LogWriter` of `logging.rs`

The writer's file is the active file of the directory, at `path`.  What its buffer holds reaches the file before a call
returns, so the buffer is not modelled; a write that fails is not said to have written anything.
-/
namespace Jss

namespace LogLevel

def label : LogLevel → Text
  | debug => "DEBUG "
  | info => "INFO  "
  | status => "STATUS"
  | warn => "WARN  "
  | error => "ERROR "
  | fatal => "FATAL "
  | advice => "ADVICE"
  | notice => "NOTICE"
  | none => "NONE  "

end LogLevel

namespace LogSource

def label : LogSource → Text
  | wrapper => "wrapper "
  | protocol => "wrapperp"
  | jvm id => "jvm ".toList ++ Text.ofNat id ++ List.replicate (4 - (Text.ofNat id).length) ' '

def threadLabel : LogSource → Text
  | jvm _ => "javaio "
  | _ => "main   "

end LogSource

namespace Log

open Scripted (Prog)

instance neZero_10000 : NeZero 10000 := ⟨by decide⟩
instance neZero_100 : NeZero 100 := ⟨by decide⟩

/-- What `Local::now` tells, up to the year 9999. -/
structure LocalTime where
  year : Fin 10000
  month : Fin 100
  day : Fin 100
  hour : Fin 100
  minute : Fin 100
  second : Fin 100
  nanosecond : Nat

/-- A number with leading zeros. -/
def zeroPadded (width n : Nat) : Text := List.replicate (width - (Text.ofNat n).length) '0' ++ Text.ofNat n

/-- A number in a column of 8, to the right. -/
def column8 (n : Nat) : Text := List.replicate (8 - (Text.ofNat n).length) ' ' ++ Text.ofNat n

/-- `%Y/%m/%d %H:%M:%S`. -/
def LocalTime.format (now : LocalTime) : Text :=
  zeroPadded 4 now.year ++ '/' :: zeroPadded 2 now.month ++ '/' :: zeroPadded 2 now.day ++
    ' ' :: zeroPadded 2 now.hour ++ ':' :: zeroPadded 2 now.minute ++ ':' :: zeroPadded 2 now.second

/-- A file, as long as a length fits. -/
structure LogFile where
  bytes : Bytes
  fits : bytes.length ≤ Text.u64Max

def LogFile.empty : LogFile := ⟨[], by simp⟩

structure LogWriter where
  path : Text
  currentSize : Nat
  maxSize : Nat
  maxFiles : Nat
  rollOnJvmRestart : Bool
  format : Text
  threshold : LogLevel
  consoleEnabled : Bool
  consoleFormat : Text
  consoleThreshold : LogLevel
  consoleFlush : Bool

/-! ## Configuration -/

def parseSize (value : Text) : Option Nat := do
  let normalized := value.trim.toAsciiLowercase
  let number ← Text.parseUnsigned Text.u64Max (normalized.takeWhile Char.isDigit)
  let unit := Text.trim (normalized.dropWhile Char.isDigit)
  let multiplier ←
    if unit = [] ∨ unit = "b".toList then some 1
    else if unit = "k".toList ∨ unit = "kb".toList then some 1024
    else if unit = "m".toList ∨ unit = "mb".toList then some (1024 * 1024)
    else if unit = "g".toList ∨ unit = "gb".toList then some (1024 * 1024 * 1024)
    else none
  if number * multiplier ≤ Text.u64Max then some (number * multiplier) else none

def validatedFormat (format : Text) : Text :=
  if format.any (fun token => "LPDQTZUGM".toList.contains token.toUpper) then format else "LPTM"

def rollMode (config : Config) : Text := Text.toAsciiUppercase (config.getOr "wrapper.logfile.rollmode" "SIZE")

def configuredMaxFiles (config : Config) : Nat := min (config.getU64 "wrapper.logfile.maxfiles" 0) Text.u32Max

def configuredMaxSize (config : Config) : Nat :=
  if ["SIZE".toList, "SIZE_OR_WRAPPER".toList, "SIZE_OR_JVM".toList].contains (rollMode config) then
    (parseSize (config.getOr "wrapper.logfile.maxsize" "0")).getD 0
  else 0

/-- A threshold: everything is logged where the wrapper is debugged. -/
def configuredThreshold (config : Config) (property : Text) : LogLevel :=
  if config.getBool "wrapper.debug" false then .debug else configuredLogLevel config property .info

/-! ## Files -/

/-- `open_append_shared`. -/
def openAppendShared (path : Text) : Io LogFile Unit := do
  operation
  Prog.modify (fun d =>
    if (d.files.get path).isSome then d else { d with files := d.files.insert path LogFile.empty })

/-- `open_truncated_shared`. -/
def openTruncatedShared (path : Text) : Io LogFile Unit := do
  operation
  Prog.modify (fun d => { d with files := d.files.insert path LogFile.empty })

/-- `file.metadata()?.len()`. -/
def fileLen (path : Text) : Io LogFile Nat := do
  operation
  return (((← Prog.get).files.get path).map (fun file => file.bytes.length)).getD 0

/-- Bytes that are written and flushed, unless the file would be too long. -/
def appendBytes (path : Text) (bytes : Bytes) : Io LogFile Unit := do
  operation
  match (← Prog.get).files.get path with
  | none => Prog.throw (.io .notFound)
  | some file =>
    if h : (file.bytes ++ bytes).length ≤ Text.u64Max then
      Prog.modify (fun d => { d with files := d.files.insert path ⟨file.bytes ++ bytes, h⟩ })
    else Prog.throw (.io .other)

def writeStdout (bytes : Bytes) : Io LogFile Unit := do
  operation
  Prog.modify (fun d => { d with stdout := d.stdout ++ bytes })

namespace LogWriter

/-- The rotation that a writer's creation begins with, in the modes that ask for it. -/
def rollOnCreation (path : Text) (config : Config) : Io LogFile Unit := do
  let found ← fileExists path
  if ["WRAPPER".toList, "JVM".toList, "SIZE_OR_WRAPPER".toList, "SIZE_OR_JVM".toList].contains (rollMode config) && found
    then rotate path (configuredMaxFiles config)

/-- `from_config_with_console`, with the path that the configured name resolves to. -/
def fromConfigWithConsole (path : Text) (config : Config) (consoleEnabled : Bool) : Io LogFile LogWriter := do
  rollOnCreation path config
  openAppendShared path
  let currentSize ← fileLen path
  return {
    path, currentSize, consoleEnabled
    maxSize := configuredMaxSize config
    maxFiles := configuredMaxFiles config
    rollOnJvmRestart := ["JVM".toList, "SIZE_OR_JVM".toList].contains (rollMode config)
    format := validatedFormat (config.getOr "wrapper.logfile.format" "LPTM")
    threshold := configuredThreshold config "wrapper.logfile.loglevel"
    consoleFormat := validatedFormat (config.getOr "wrapper.console.format" "PM")
    consoleThreshold := configuredThreshold config "wrapper.console.loglevel"
    consoleFlush := config.getBool "wrapper.console.flush" false }

/-- A rotation, and the new active file. -/
def roll (writer : LogWriter) : Io LogFile LogWriter := do
  rotate writer.path writer.maxFiles
  openTruncatedShared writer.path
  return { writer with currentSize := 0 }

def rollForJvmRestart (writer : LogWriter) : Io LogFile LogWriter :=
  if writer.rollOnJvmRestart then writer.roll else return writer

end LogWriter

/-! ## Records -/

/-- What `write_bytes` is called with, and what the clocks tell it. -/
structure Record where
  level : LogLevel
  source : LogSource
  message : Bytes
  now : LocalTime
  /-- `self.started.elapsed().as_secs()`. -/
  elapsedSecs : Nat := 0

/-- The column that a token of a format stands for. -/
def Record.column (record : Record) (token : Char) : Option Bytes :=
  match token.toUpper with
  | 'L' => some (Text.asBytes record.level.label)
  | 'P' => some (Text.asBytes record.source.label)
  | 'D' => some (Text.asBytes record.source.threadLabel)
  | 'Q' => some (Text.asBytes " ")
  | 'T' => some (Text.asBytes record.now.format)
  | 'Z' => some (Text.asBytes (record.now.format ++ '.' :: zeroPadded 3 (record.now.nanosecond / 1000000)))
  | 'U' => some (Text.asBytes (column8 record.elapsedSecs))
  | 'G' => some (Text.asBytes (column8 0))
  | 'M' => some record.message
  | _ => none

def separator : Bytes := Text.asBytes " | "

def crlf : Bytes := [13, 10]

/-- `render_bytes`. -/
def Record.render (record : Record) (format : Text) : Bytes :=
  separator.intercalate (format.filterMap record.column)

namespace LogWriter

/-- Whether a record of a level goes to the file. -/
def writesFile (writer : LogWriter) (level : LogLevel) : Bool :=
  writer.threshold.number ≤ level.number && writer.threshold ≠ .none

def writesConsole (writer : LogWriter) (level : LogLevel) : Bool :=
  writer.consoleEnabled && writer.consoleThreshold.number ≤ level.number && writer.consoleThreshold ≠ .none

/-- What the file gets of a record. -/
def line (writer : LogWriter) (record : Record) : Bytes := record.render writer.format ++ crlf

def writeConsole (writer : LogWriter) (record : Record) : Io LogFile Unit := do
  writeStdout (record.render writer.consoleFormat)
  writeStdout crlf
  if writer.consoleFlush then operation

def rollIfFull (writer : LogWriter) : Io LogFile LogWriter :=
  if 0 < writer.maxSize ∧ writer.maxSize ≤ writer.currentSize then writer.roll else return writer

/-- The part of `write_bytes` for the file. -/
def writeFile (writer : LogWriter) (record : Record) : Io LogFile LogWriter := do
  let writer ← writer.rollIfFull
  appendBytes writer.path (writer.line record)
  return { writer with currentSize := min (writer.currentSize + (writer.line record).length) Text.u64Max }

def writeBytes (writer : LogWriter) (record : Record) : Io LogFile LogWriter := do
  if writer.writesConsole record.level then writer.writeConsole record
  if writer.writesFile record.level then writer.writeFile record else return writer

end LogWriter

end Log
end Jss
