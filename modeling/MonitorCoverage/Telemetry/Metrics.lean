import MonitorCoverage.Telemetry.Providers

/-!
# Metrics of runs

Five instruments observe a run: counts of classes, of methods and of instructions by lock state, the
time spent in each stage, and the size of the input. What they have seen is written as families of
samples, ordered by name, in the text format for metrics. A family appears once a run was recorded;
the family that describes the program is always there.
-/

namespace MonitorCoverage.Telemetry

/-! ## What is recorded -/

structure RunStats where
  inputBytes : Int64
  methods : Int64
  total : Int64
  locked : Int64
  /-- Times in nanoseconds. -/
  decodeTime : Int64
  analyzeTime : Int64
  deriving DecidableEq, Repr

/-- The instructions of a run that are not under a lock. -/
def RunStats.unlocked (run : RunStats) : Int64 := run.total - run.locked

/-- A time in seconds: the whole seconds and the rest are converted apart and added. -/
def seconds (nanoseconds : Int64) : Binary64 :=
  let unit : Int64 := 1000000000
  (Binary64.ofInt (nanoseconds / unit).toInt).add
    ((Binary64.ofInt (nanoseconds % unit).toInt).div (.ofNat 1000000000))

/-- The names of the instruments, in the order in which they are made. -/
def instruments : List String :=
  ["lockcov.analysis.classes", "lockcov.analysis.methods", "lockcov.analysis.instructions",
    "lockcov.analysis.duration", "lockcov.input.bytes"]

/-- Makes the instruments one by one, up to the first that is refused. -/
def makeInstruments (make : String → Except Bytes Unit) : Except Bytes Unit :=
  instruments.forM fun name =>
    match make name with
    | .ok () => .ok ()
    | .error reason => .error (utf8 ("create " ++ name ++ ": ") ++ reason)

/-! ## Families -/

structure Label where
  name : String
  value : Bytes
  deriving DecidableEq, Repr

structure Sample where
  /-- What the name of the family is followed by. -/
  ending : String
  labels : List Label
  value : Binary64
  deriving DecidableEq, Repr

structure Family where
  name : String
  help : String
  type : String
  samples : List Sample
  deriving DecidableEq, Repr

/-- The labels that say which library a metric is of. -/
def scopeLabels : List Label :=
  [⟨"otel_scope_name", utf8 "github.com/Sumatoshi-tech/lockcov"⟩, ⟨"otel_scope_schema_url", []⟩,
    ⟨"otel_scope_version", []⟩]

def sum64 (values : List Int64) : Int64 := values.foldl (· + ·) 0

/-- The cumulative samples of a histogram: for each bound the number of values up to it, then the
sum and the number of all values. -/
def histogram (labels : List Label) (bounds values : List Binary64) (sum : Binary64) :
    List Sample :=
  let bucket (bound : String) (count : Nat) : Sample :=
    ⟨"_bucket", labels ++ [⟨"le", utf8 bound⟩], .ofNat count⟩
  bounds.map (fun bound =>
      bucket (bound.text .general) (values.countP fun value => value.le bound))
    ++ [bucket "+Inf" values.length, ⟨"_sum", labels, sum⟩,
      ⟨"_count", labels, .ofNat values.length⟩]

/-- The bounds of times, from a tenth of a millisecond to ten seconds. -/
def timeBounds : List Binary64 :=
  [(1, 10000), (5, 10000), (1, 1000), (5, 1000), (1, 100), (5, 100), (1, 10), (5, 10), (1, 1),
    (5, 1), (10, 1)].map fun (num, den) => Binary64.ofQuotient false num den

def sizeBounds : List Binary64 :=
  [0, 5, 10, 25, 50, 75, 100, 250, 500, 750, 1000, 2500, 5000, 7500, 10000].map Binary64.ofNat

def timeHistogram (stage : String) (times : List Int64) : List Sample :=
  let values := times.map seconds
  histogram (scopeLabels ++ [⟨"stage", utf8 stage⟩]) timeBounds values
    (values.foldl Binary64.add .zero)

def counter (labels : List Label) (value : Int64) : Sample := ⟨"", labels, .ofInt value.toInt⟩

/-- The families of the runs recorded so far. -/
def runFamilies (runs : List RunStats) : List Family :=
  if runs.isEmpty then []
  else
    [{ name := "lockcov_analysis_classes_total", help := "Classes analyzed", type := "counter"
       samples := [counter scopeLabels (Int64.ofNat runs.length)] },
      { name := "lockcov_analysis_duration_seconds", help := "Time spent per stage in seconds"
        type := "histogram"
        samples := timeHistogram "analyze" (runs.map (·.analyzeTime))
          ++ timeHistogram "decode" (runs.map (·.decodeTime)) },
      { name := "lockcov_analysis_instructions_total", help := "Counted instructions by lock state"
        type := "counter"
        samples :=
          [counter (⟨"locked", utf8 "false"⟩ :: scopeLabels)
              (sum64 (runs.map (·.unlocked))),
            counter (⟨"locked", utf8 "true"⟩ :: scopeLabels) (sum64 (runs.map (·.locked)))] },
      { name := "lockcov_analysis_methods_total", help := "Methods classified", type := "counter"
        samples := [counter scopeLabels (sum64 (runs.map (·.methods)))] },
      { name := "lockcov_input_bytes", help := "Size of the decoded class file"
        type := "histogram"
        samples := histogram scopeLabels sizeBounds
          (runs.map fun run => .ofInt run.inputBytes.toInt)
          (.ofInt (sum64 (runs.map (·.inputBytes))).toInt) }]

/-- The family that describes the program. -/
def targetFamily (resource : List (String × Bytes)) : Family :=
  { name := "target_info", help := "Target metadata", type := "gauge"
    samples := [⟨"", resource.map fun (key, value) =>
      ⟨String.ofList (key.toList.map fun c => if c = '.' then '_' else c), value⟩, .ofNat 1⟩] }

def families (resource : List (String × Bytes)) (runs : List RunStats) : List Family :=
  runFamilies runs ++ [targetFamily resource]

/-! ## Text -/

/-- The value of a label: backslashes, quotes and newlines are escaped. -/
def escapeLabel (value : Bytes) : Bytes :=
  value.flatMap fun byte =>
    if byte = '\\'.toUInt8 then utf8 "\\\\"
    else if byte = '"'.toUInt8 then utf8 "\\\""
    else if byte = '\n'.toUInt8 then utf8 "\\n"
    else [byte]

def Label.bytes (label : Label) : Bytes :=
  utf8 (label.name ++ "=\"") ++ escapeLabel label.value ++ utf8 "\""

def Sample.bytes (name : String) (sample : Sample) : Bytes :=
  utf8 (name ++ sample.ending)
    ++ (if sample.labels.isEmpty then []
        else
          utf8 "\x7b" ++ Bytes.joinWith (utf8 ",") (sample.labels.map Label.bytes) ++ utf8 "\x7d")
    ++ utf8 (" " ++ sample.value.text .general ++ "\n")

def Family.bytes (family : Family) : Bytes :=
  utf8 ("# HELP " ++ family.name ++ " " ++ family.help ++ "\n# TYPE " ++ family.name ++ " "
      ++ family.type ++ "\n")
    ++ family.samples.flatMap (Sample.bytes family.name)

/-- Writes families one by one, up to the first write that fails. -/
def writeFamilies {m : Type → Type} [Monad m] (write : Bytes → m (Except Bytes Unit)) :
    List Family → m (Except Bytes Unit)
  | [] => pure (.ok ())
  | family :: rest => do
    match ← write family.bytes with
    | .ok () => writeFamilies write rest
    | .error reason => pure (.error (utf8 ("encode " ++ family.name ++ ": ") ++ reason))

/-- Writes what a gatherer of families gives, or says why it gives nothing. -/
def dump {m : Type → Type} [Monad m] (gathered : Except Bytes (List Family))
    (write : Bytes → m (Except Bytes Unit)) : m (Except Bytes Unit) :=
  match gathered with
  | .ok families => writeFamilies write families
  | .error reason => pure (.error (utf8 "gather metrics: " ++ reason))

end MonitorCoverage.Telemetry
