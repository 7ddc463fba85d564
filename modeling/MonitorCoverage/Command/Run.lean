import MonitorCoverage.Command.Invocation
import MonitorCoverage.Input
import MonitorCoverage.Lock.Workers
import MonitorCoverage.Release
import MonitorCoverage.Settings.Source
import MonitorCoverage.Telemetry.Metrics

/-!
# Running a command

A run loads settings, then a class, decodes and analyses it, writes the report and at last, if it is
asked to, its metrics. It stops at the first failure; what comes before the report writes nothing
but log lines.
-/

namespace MonitorCoverage.Command

/-- What a run finds around it. -/
structure Surroundings where
  entry : Bytes → Files.Entry
  home : Bytes
  /-- The value of an environment variable; empty if there is none. -/
  environment : Bytes → Bytes
  /-- Whether the output shows colours. -/
  showsColor : Bool
  release : Release := {}
  /-- Tells the languages of source texts. -/
  recognize : Recognizer := Input.languageByName
  /-- New identifiers for the span of the run, and for that of the analysis. -/
  runSpan : Telemetry.SpanContext := .none
  analysisSpan : Telemetry.SpanContext := .none
  /-- How the methods of the class are interleaved, and when the run is called off. -/
  schedule : List Lock.ScheduleStep := []
  /-- Why nothing can be observed with some settings, if so. What sends spans and metrics off is not
  part of a run. -/
  telemetryObstacle? : Telemetry.Settings → Option Bytes := fun _ => none
  /-- Makes the instrument of a name, or refuses it. -/
  makeInstrument : String → Except Bytes Unit := fun _ => .ok ()
  /-- Why the metrics that were kept cannot be gathered, if so. -/
  gatherObstacle? : Option Bytes := none

/-- What a run can do to its surroundings. -/
structure Effects (m : Type → Type) where
  writeOutput : Bytes → m (Except Bytes Unit)
  writeLog : Bytes → m Unit
  /-- Makes a file at a path, or empties the file that is there. -/
  createFile : Bytes → m (Except Files.Obstacle Unit)
  /-- Writes at the end of a file that was created. -/
  appendFile : (path bytes : Bytes) → m (Except Bytes Unit)
  /-- Closes a file that was created. -/
  closeFile : Bytes → m (Except Bytes Unit)
  /-- The time in nanoseconds since some moment. -/
  time : m Int64
  /-- The time of day, unless no clock tells it. -/
  now : m (Option Log.Moment)

inductive Failure where
  | usage (cause : UsageError)
  | settings (cause : Settings.SourceFault)
  /-- The settings are invalid with the flags. -/
  | flags (cause : SettingsFault)
  /-- Nothing can be observed with the settings. -/
  | telemetry (reason : Bytes)
  | limit (cause : SettingsFault)
  | input (cause : LoadFault)
  | decode (path : Bytes) (cause : ClassFile.Fault)
  | analysis (cause : Lock.AnalysisFault)
  | report (cause : Report.RenderError)
  /-- Metrics are asked for, and none were kept. -/
  | noRegistry
  /-- The file for the metrics cannot be created. -/
  | metricsFile (path : Bytes) (obstacle : Files.Obstacle)
  /-- The metrics cannot be written, or their file not closed. -/
  | metrics (reasons : List Bytes)
  /-- What is no report cannot be put out. -/
  | output (reason : Bytes)
  deriving DecidableEq, Repr

def Failure.message : Failure → Bytes
  | usage cause => cause.message
  | settings cause => cause.message
  | flags cause => utf8 "invalid flags: " ++ cause.message
  | telemetry reason => utf8 "init observability: " ++ reason
  | limit cause => cause.message
  | input cause => cause.message
  | decode path cause => utf8 "decode " ++ path ++ utf8 ": " ++ cause.message
  | analysis cause => cause.message
  | report cause => utf8 "write report: " ++ cause.message
  | noRegistry => utf8 "metrics registry not initialized"
  | metricsFile path obstacle => utf8 "create metrics file: " ++ Files.openMessage path obstacle
  | metrics reasons => Bytes.joinWith (utf8 "\n") reasons
  | output reason => reason

/-! ## Settings of a run -/

/-- Settings with the flags that were given put over them. -/
def Request.applyTo (request : Request) (settings : Settings) : Settings :=
  { settings with
    format := request.format.getD settings.format
    workers := request.workers.getD settings.workers
    noColor := settings.noColor || request.noColor
    logLevel := if request.isVerbose then utf8 "debug" else settings.logLevel }

/-- The settings that a request is carried out with. -/
def Request.settings (request : Request) (around : Surroundings) : Except Failure Settings :=
  match Settings.load around.entry around.home around.environment request.configPath with
  | .error cause => .error (.settings cause)
  | .ok loaded =>
    let settings := request.applyTo loaded
    match settings.validate with
    | .ok () => .ok settings
    | .error cause => .error (.flags cause)

/-- What is observed of a run with some settings. -/
def telemetryOf (settings : Settings) (release : Release) (collectMetrics : Bool) :
    Telemetry.Settings :=
  { version := release.version
    environment := settings.environment
    endpoint := settings.endpoint
    headers := Telemetry.Headers.parse settings.headers
    insecure := settings.insecure
    level := match settings.level with
      | .ok level => level
      | .error _ => .info
    json := settings.logsJson
    collectMetrics }

/-! ## Steps of a run -/

/-- Loads the class that a request names. -/
def loadClass (around : Surroundings) (settings : Settings) (path : Bytes) :
    Except Failure Input :=
  match settings.maxClassBytes with
  | .error cause => .error (.limit cause)
  | .ok limit =>
    match Input.load around.recognize around.entry limit path with
    | .error cause => .error (.input cause)
    | .ok input => .ok input

/-- The record of a class that was decoded. -/
def decodedRecord (input : Input) (file : ClassFile) : Except RangeError Log.Record := do
  let size ← Range.ofLength (Int64.ofNat input.data.length)
  return {
    level := .info
    message := utf8 "class decoded"
    attributes :=
      [Log.textAttribute "class" file.name,
        Log.textAttribute "size" (utf8 (ByteSize.text .decimal size)),
        Log.boolAttribute "compressed" input.isCompressed,
        Log.intAttribute "methods" (Int64.ofNat file.methods.length),
        Log.intAttribute "fields" (Int64.ofNat file.fields.length),
        Log.intAttribute "instructions" (Int64.ofNat file.instructionCount)] }

/-- The report options that settings stand for. -/
def reportOptions (around : Surroundings) (settings : Settings) : Report.Options :=
  { format := settings.format, noColor := settings.noColor, showsColor := around.showsColor }

/-- What is recorded of a run. -/
def runStats (input : Input) (analysis : Lock.Analysis) (decodeTime analyzeTime : Int64) :
    Telemetry.RunStats :=
  { inputBytes := Int64.ofNat input.data.length
    methods := analysis.tally.methods
    total := analysis.tally.total
    locked := analysis.tally.locked
    decodeTime, analyzeTime }

/-- The metrics of the runs that were recorded. -/
def gather (around : Surroundings) (telemetry : Telemetry.Settings)
    (runs : List Telemetry.RunStats) : Except Bytes (List Telemetry.Family) :=
  match around.gatherObstacle? with
  | some reason => .error reason
  | none => .ok (Telemetry.families telemetry.resource runs)

/-- The record of instruments that cannot be made. -/
def unmeasuredRecord (reason : Bytes) : Log.Record :=
  { level := .warn, message := utf8 "analysis metrics unavailable"
    attributes := [Log.textAttribute "error" reason] }

/-- Why some of several things failed. -/
def reasonsOf (results : List (Except Bytes Unit)) : List Bytes :=
  results.filterMap fun
    | .ok () => none
    | .error reason => some reason

section

variable {m : Type → Type} [Monad m]

/-- Writes the lines of records, each with the time at which it is written. -/
def logRecords (effects : Effects m) (handler : Log.Handler) (context : Telemetry.SpanContext)
    (records : List Log.Record) : m Unit :=
  records.forM fun record => do
    let time ← effects.now
    (handler.lines context [{ record with time }]).forM fun line => effects.writeLog (utf8 line)

/-- Records a run, unless an instrument is refused, which is logged. -/
def recordRun (effects : Effects m) (around : Surroundings) (handler : Log.Handler)
    (context : Telemetry.SpanContext) (stats : Telemetry.RunStats) :
    m (List Telemetry.RunStats) := do
  match Telemetry.makeInstruments around.makeInstrument with
  | .ok () => return [stats]
  | .error reason =>
    logRecords effects handler context [unmeasuredRecord reason]
    return []

/-- Writes metrics to a new file, which is closed also if a write fails. -/
def writeMetrics (effects : Effects m) (providers : Telemetry.Providers) (path : Bytes)
    (gathered : Except Bytes (List Telemetry.Family)) : m (Except Failure Unit) := do
  if !providers.collectsMetrics then return .error .noRegistry
  match ← effects.createFile path with
  | .error obstacle => return .error (.metricsFile path obstacle)
  | .ok () =>
    let written ← Telemetry.dump gathered (effects.appendFile path)
    let closed ← effects.closeFile path
    match reasonsOf [written, closed] with
    | [] => return .ok ()
    | reasons => return .error (.metrics reasons)

/-- Analyses a class that was loaded, and reports. -/
def analyzeInput (effects : Effects m) (around : Surroundings) (settings : Settings)
    (metricsPath : Bytes) (input : Input) : m (Except Failure Unit) := do
  let telemetry := telemetryOf settings around.release (!metricsPath.isEmpty)
  let providers := Telemetry.Providers.ofSettings telemetry around.environment
  let context := providers.startSpan around.runSpan .none
  let decodeStart ← effects.time
  match ClassFile.parse input.data with
  | .error cause => return .error (.decode input.path cause)
  | .ok file =>
    let decodeEnd ← effects.time
    match decodedRecord input file with
    | .error cause => return .error (.limit (.sizeOutOfRange cause))
    | .ok record =>
      logRecords effects providers.handler context [record]
      let analyzeStart ← effects.time
      let run := (Lock.ClassUnit.ofFile file).analyzeBy settings.workers around.schedule
      logRecords effects providers.handler (providers.startSpan around.analysisSpan context)
        run.records
      match run.outcome with
      | .error cause => return .error (.analysis cause)
      | .ok analysis =>
        let analyzeEnd ← effects.time
        let runs ← recordRun effects around providers.handler context
          (runStats input analysis (decodeEnd - decodeStart) (analyzeEnd - analyzeStart))
        match ← Report.render effects.writeOutput analysis (reportOptions around settings) with
        | .error cause => return .error (.report cause)
        | .ok () =>
          if metricsPath.isEmpty then return .ok ()
          else writeMetrics effects providers metricsPath (gather around telemetry runs)

/-- Loads the class at a path, analyses it with some settings, and reports. -/
def analyzePath (effects : Effects m) (around : Surroundings) (settings : Settings)
    (path metricsPath : Bytes) : m (Except Failure Unit) :=
  match loadClass around settings path with
  | .error cause => pure (.error cause)
  | .ok input => analyzeInput effects around settings metricsPath input

/-- Carries a request out. -/
def analyze (effects : Effects m) (around : Surroundings) (request : Request) :
    m (Except Failure Unit) :=
  match request.settings around with
  | .error cause => pure (.error cause)
  | .ok settings =>
    match around.telemetryObstacle?
        (telemetryOf settings around.release (!request.metricsPath.isEmpty)) with
    | some reason => pure (.error (.telemetry reason))
    | none => analyzePath effects around settings request.path request.metricsPath

/-- Writes a text that is no report. -/
def printText (effects : Effects m) (text : Bytes) : m (Except Failure Unit) := do
  match ← effects.writeOutput text with
  | .ok () => return .ok ()
  | .error reason => return .error (.output reason)

end

/-- What the program tells of its use. -/
def usage : String :=
  "lockcov decodes a compiled class file and classifies every instruction as
locked or unlocked: inside a synchronized method, or between monitorenter and
monitorexit. It prints \"<total>    <locked>    <percent>%\".

Files ending in .lz4 (lz4 frame format) are decompressed first.

Usage:
  lockcov <class-file> [flags]
  lockcov version

Flags:
  -c, --config string        Config file (default: ./lockcov.yaml or ~/.config/lockcov/lockcov.yaml)
  -f, --format string        Output format: text, json, yaml or table (default \"text\")
  -h, --help                 help for lockcov
      --metrics-out string   Write run metrics in Prometheus text format to this file
      --no-color             Disable colored output
  -v, --verbose              Debug logging to stderr
  -w, --workers int          Methods classified in parallel (default 1)
"

/-- Runs a command line. -/
def run {m : Type → Type} [Monad m] (effects : Effects m) (around : Surroundings)
    (line : List Bytes) : m (Except Failure Unit) :=
  match Invocation.ofLine line with
  | .error cause => pure (.error (.usage cause))
  | .ok .help => printText effects (utf8 usage)
  | .ok .version => printText effects (around.release.banner ++ utf8 "\n")
  | .ok (.analyze request) => analyze effects around request

end MonitorCoverage.Command
