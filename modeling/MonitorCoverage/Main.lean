import MonitorCoverage.Command.Run

/-!
# The command line

Runs a command with the files, the environment and the streams of the process. A failure is told on
the error stream, and the process ends with status 1.
-/

namespace MonitorCoverage

/-- A text as bytes may hold it; what is not valid UTF-8 cannot be named. -/
def textOf (bytes : Bytes) : String := (String.fromUTF8? ⟨bytes.toArray⟩).getD ""

/-- Why a file could not be used. -/
def obstacleOf : IO.Error → Files.Obstacle
  | .noFileOrDirectory .. => .missing
  | .inappropriateType _ code details =>
    if code = 20 then .notDirectory
    else if code = 21 then .isDirectory
    else .refused (utf8 details)
  | cause => .refused (utf8 cause.toString)

/-- What is behind a path that was opened. A directory can be opened, and then not be read. -/
def entryOf (file : IO.FS.Handle) : IO Files.Entry := do
  try
    let content ← file.readBinToEnd
    return .file content.data.toList
  catch cause =>
    match obstacleOf cause with
    | .isDirectory => return .directory
    | obstacle => return .damaged [] obstacle.message

/-- What a path names in the file system. -/
def entryAt (path : Bytes) : IO Files.Entry := do
  try entryOf (← IO.FS.Handle.mk (textOf path) .read)
  catch cause => return .none (obstacleOf cause)

/-- The paths that a run may read. -/
def pathsOf (home : Bytes) (line : List Bytes) : List Bytes :=
  match Command.Invocation.ofLine line with
  | .ok (.analyze request) =>
    request.path ::
      if request.configPath.isEmpty then Settings.searchPaths home else [request.configPath]
  | _ => []

/-- The names of the environment variables that a run may read, besides those that files name. -/
def variableNames : List Bytes :=
  let sections : List (String × List String) :=
    [("output", ["format", "no_color"]), ("analysis", ["max_class_size", "workers"]),
      ("logging", ["level", "format"]),
      ("telemetry", ["otlp_endpoint", "otlp_headers", "otlp_insecure", "environment"])]
  [utf8 "OTEL_TRACES_SAMPLER", utf8 "OTEL_TRACES_SAMPLER_ARG"]
    ++ sections.flatMap fun (name, keys) =>
      Settings.variableOf [name] :: keys.map fun key => Settings.variableOf [name, key]

/-- The names of the variables that files name. -/
def variablesIn (entries : List (Bytes × Files.Entry)) : List Bytes :=
  entries.flatMap fun
    | (_, .file content) => (Dotenv.namesIn (Text.lossyChars content)).map Text.encode
    | _ => []

/-- A number of random bytes. -/
def randomBytes (count : Nat) : IO Bytes :=
  (List.range count).mapM fun _ => do return UInt8.ofNat (← IO.rand 0 255)

/-- The second at which the system started, in what it tells of itself. -/
def startTime? (statistics : String) : Option Nat :=
  (statistics.splitOn "\n").findSome? fun line =>
    match line.splitOn " " with
    | ["btime", seconds] => seconds.toNat?
    | _ => none

def processEffects : Command.Effects IO where
  writeOutput text := do
    try
      let output ← IO.getStdout
      output.write ⟨text.toArray⟩
      output.flush
      return .ok ()
    catch cause => return .error (utf8 cause.toString)
  writeLog text := do (← IO.getStderr).write ⟨text.toArray⟩
  createFile path := do
    try
      IO.FS.writeBinFile (textOf path) .empty
      return .ok ()
    catch cause => return .error (obstacleOf cause)
  appendFile path bytes := do
    try
      let file ← IO.FS.Handle.mk (textOf path) .append
      file.write ⟨bytes.toArray⟩
      file.flush
      return .ok ()
    catch cause => return .error (utf8 cause.toString)
  -- A file is closed after each write.
  closeFile _ := return .ok ()
  time := do return Int64.ofNat (← IO.monoNanosNow)
  now := do
    try
      let started? := startTime? (← IO.FS.readFile "/proc/stat")
      let elapsed ← IO.monoNanosNow
      return started?.map fun seconds => ⟨Int64.ofNat (seconds * 1000000000 + elapsed), 0⟩
    catch _ => return none

end MonitorCoverage

open MonitorCoverage in
def main (arguments : List String) : IO UInt32 := do
  let line := arguments.map utf8
  let home := utf8 ((← IO.getEnv "HOME").getD "")
  let entries ← (pathsOf home line).mapM fun path => do return (path, ← entryAt path)
  let values ← (variableNames ++ variablesIn entries).mapM fun name => do
    return (name, utf8 ((← IO.getEnv (textOf name)).getD ""))
  let around : Command.Surroundings :=
    { entry := fun path => (entries.lookup path).getD (.none .missing)
      home
      environment := fun name => (values.lookup name).getD []
      showsColor := (← (← IO.getStdout).isTty)
      runSpan := { trace := ← randomBytes 16, span := ← randomBytes 8, isSampled := true }
      analysisSpan := { trace := ← randomBytes 16, span := ← randomBytes 8, isSampled := true } }
  match ← Command.run processEffects around line with
  | .ok () => return 0
  | .error cause =>
    (← IO.getStderr).write ⟨(utf8 "Error: " ++ cause.message ++ utf8 "\n").toArray⟩
    return 1
