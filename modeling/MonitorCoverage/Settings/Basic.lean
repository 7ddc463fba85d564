import MonitorCoverage.ByteSize
import MonitorCoverage.Log.Level
import MonitorCoverage.Range
import MonitorCoverage.Report.Render

/-!
# Settings

What a run can be told: how to report, how much to read, how to log and where to send telemetry.
Settings that are valid name a format, a log level and a size that can be used.
-/

namespace MonitorCoverage

structure Settings where
  format : Bytes := utf8 "text"
  noColor : Bool := false
  maxClassSize : Bytes := utf8 "64MiB"
  workers : Int64 := 1
  logLevel : Bytes := utf8 "info"
  logFormat : Bytes := utf8 "text"
  endpoint : Bytes := []
  headers : Bytes := []
  insecure : Bool := false
  environment : Bytes := []
  deriving DecidableEq, Repr

/-- What can be wrong with settings. -/
inductive SettingsFault where
  | unknownFormat (name : Bytes)
  | invalidWorkers (count : Int64)
  | unreadableSize (text : Bytes) (cause : ByteSize.ReadError)
  /-- The size is zero or above `Settings.greatestSize`. -/
  | invalidSize (text : Bytes)
  | unknownLevel (text : Bytes)
  | unknownLogFormat (name : Bytes)
  | sizeOutOfRange (cause : RangeError)
  deriving DecidableEq, Repr

def SettingsFault.message : SettingsFault → Bytes
  | unknownFormat name =>
    utf8 ("invalid output format: " ++ Text.quote name ++ " (want one of "
      ++ ", ".intercalate (Report.Format.all.map Report.Format.name) ++ ")")
  | invalidWorkers count => utf8 ("analysis workers must be positive: " ++ Decimal.text count.toInt)
  | unreadableSize text cause =>
    utf8 ("invalid max class size: " ++ Text.quote text ++ ": ") ++ cause.message
  | invalidSize text => utf8 ("invalid max class size: " ++ Text.quote text)
  | unknownLevel text => utf8 ("invalid log level: " ++ Text.quote text)
  | unknownLogFormat name => utf8 ("invalid log format: " ++ Text.quote name)
  | sizeOutOfRange cause => utf8 cause.message

namespace Settings

/-- The greatest size of a class that settings may allow. -/
def greatestSize : Nat := Nat.pow 2 62

/-- The number of bytes a class may have. -/
def maxClassBytes (settings : Settings) : Except SettingsFault Int64 :=
  match ByteSize.read settings.maxClassSize with
  | .error cause => .error (.unreadableSize settings.maxClassSize cause)
  | .ok size =>
    if size = 0 || greatestSize < size.toNat then .error (.invalidSize settings.maxClassSize)
    else
      match Range.toSize size with
      | .ok limit => .ok limit
      | .error cause => .error (.sizeOutOfRange cause)

def level (settings : Settings) : Except SettingsFault Log.Level :=
  match Log.Level.read? settings.logLevel with
  | some level => .ok level
  | none => .error (.unknownLevel settings.logLevel)

def logsJson (settings : Settings) : Bool := settings.logFormat = utf8 "json"

/-- Checks every setting, and tells of the first that cannot be used. -/
def validate (settings : Settings) : Except SettingsFault Unit := do
  if (Report.Format.ofName? settings.format).isNone then
    throw (.unknownFormat settings.format)
  if settings.workers ≤ 0 then
    throw (.invalidWorkers settings.workers)
  let _ ← settings.maxClassBytes
  let _ ← settings.level
  if settings.logFormat ≠ utf8 "text" && settings.logFormat ≠ utf8 "json" then
    throw (.unknownLogFormat settings.logFormat)

end Settings

end MonitorCoverage
