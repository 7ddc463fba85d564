import MonitorCoverage.Dotenv
import MonitorCoverage.Files
import MonitorCoverage.Json.Reader
import MonitorCoverage.Settings.Basic
import MonitorCoverage.Settings.Value
import MonitorCoverage.Text.LowerCase
import MonitorCoverage.Toml.Reader
import MonitorCoverage.Yaml.Block

/-!
# Where settings come from

Settings are read from a file, in which they are grouped into sections, and from environment
variables, which win over the file. What is given nowhere keeps its default. The case of keys does
not count, and a key may also be written at the top with its section before a point.
-/

namespace MonitorCoverage.Settings

inductive SourceFault where
  /-- The file cannot be opened. -/
  | cannotOpen (path : Bytes) (obstacle : Files.Obstacle)
  /-- The file cannot be read although it was opened. -/
  | cannotRead (path reason : Bytes)
  /-- The file is of no known kind, or it is malformed. -/
  | unreadable
  /-- A setting is given as something it cannot be. -/
  | wrongKind
  | invalid (fault : SettingsFault)
  deriving DecidableEq, Repr

def SourceFault.message : SourceFault → Bytes
  | cannotOpen path obstacle =>
    utf8 "failed to read config file: " ++ Files.openMessage path obstacle
  | cannotRead path reason => utf8 "failed to read config file: " ++ Files.readMessage path reason
  | unreadable => utf8 "failed to read config file: not a settings document"
  | wrongKind => utf8 "failed to unmarshal config: a setting has the wrong type"
  | invalid fault => utf8 "invalid configuration: " ++ fault.message

/-! ## Documents -/

/-- The pairs of a document, with keys in lower case. -/
abbrev Document := List (String × Yaml.Node)

def lowerKey (key : String) : String := String.ofList (key.toList.map Text.toLowerCase)

def lowerKeys (pairs : Document) : Document := pairs.map fun (key, node) => (lowerKey key, node)

/-- The pairs of a node; a document may also be empty. -/
def Document.ofNode? : Yaml.Node → Option Document
  | .null => some []
  | .mapping pairs => some (lowerKeys pairs)
  | _ => none

/-- Whether a document gives a key, and what it gives. -/
def Document.get? (document : Document) (key : String) : Option Yaml.Node :=
  document.reverse.lookup key

/-- How a file is written. -/
inductive Form where
  | json
  | toml
  | yaml
  /-- A file of variables, in which other variables may be named. -/
  | dotenv
  deriving DecidableEq, Repr

/-- Reads the document of a file. -/
def Document.read (environment : Bytes → Bytes) (form : Form) (content : Bytes) :
    Except SourceFault Document :=
  let node? : Option Yaml.Node := match form with
    | .json => (Json.read (Text.lossyChars content)).bind Yaml.Node.ofJson?
    | .toml => Toml.read content
    | .yaml => Yaml.read content
    | .dotenv => Dotenv.read environment content
  match node?.bind Document.ofNode? with
  | some document => .ok document
  | none => .error .unreadable

/-! ## Files -/

/-- The endings of the names of settings files, in the order in which they are looked for. -/
def endings : List String :=
  ["json", "toml", "yaml", "yml", "properties", "props", "prop", "hcl", "tfvars", "dotenv", "env",
    "ini"]

/-- The form that a file with an ending is read in. For some endings no reader is known. -/
def formOf? (ending : String) : Option Form :=
  if ending = "json" then some .json
  else if ending = "toml" then some .toml
  else if ending = "yaml" || ending = "yml" then some .yaml
  else if ending = "dotenv" || ending = "env" then some .dotenv
  else none

/-- The ending of a path, behind the last point of its last name. -/
def endingOf (path : Bytes) : Bytes :=
  let name := path.reverse.takeWhile (· ≠ 0x2F)
  if name.contains 0x2E then (name.takeWhile (· ≠ 0x2E)).reverse else []

/-- The document in the file at a path. Its ending tells how it is written. -/
def readFile (entry : Bytes → Files.Entry) (environment : Bytes → Bytes) (path : Bytes) :
    Except SourceFault Document :=
  match endings.find? fun ending => utf8 ending = endingOf path with
  | none => .error .unreadable
  | some ending =>
    match entry path with
    | .none obstacle => .error (.cannotOpen path obstacle)
    | .directory => .error (.cannotRead path Files.Obstacle.isDirectory.message)
    | .damaged _ reason => .error (.cannotRead path reason)
    | .file content =>
      match formOf? ending with
      | some form => Document.read environment form content
      | none => .error .unreadable

/-- The paths at which settings are looked for: in the working directory, and then below the home
directory. -/
def searchPaths (home : Bytes) : List Bytes :=
  let names := endings.map ("lockcov." ++ ·) ++ ["lockcov"]
  names.map utf8 ++ names.map fun name => home ++ utf8 ("/.config/lockcov/" ++ name)

/-- The document in the first file that is found, or an empty one. It is written in YAML, whatever
its ending. -/
def searchFile (entry : Bytes → Files.Entry) (home : Bytes) (environment : Bytes → Bytes) :
    Except SourceFault Document :=
  let found? : Option (Except SourceFault Bytes) := (searchPaths home).findSome? fun path =>
    match entry path with
    | .file content => some (.ok content)
    | .damaged _ reason => some (.error (.cannotRead path reason))
    | _ => none
  match found? with
  | some (.ok content) => Document.read environment .yaml content
  | some (.error fault) => .error fault
  | none => .ok []

/-! ## Sections -/

/-- The environment variable of a setting, or of a section. -/
def variableOf (path : List String) : Bytes :=
  utf8 ("_".intercalate ("LOCKCOV" :: path.map String.toUpper))

/-- What a section is given as. -/
inductive Section where
  /-- Each setting on its own. -/
  | separate
  /-- A null: the settings that are not given on their own at the top keep their defaults. -/
  | null
  deriving DecidableEq, Repr

/-- What a document gives as a section. An environment variable that is named for a section without
settings of its own stands in its place, and is no section. -/
def sectionOf (document : Document) (environment : Bytes → Bytes) (name : String) :
    Except SourceFault Section :=
  match document.get? name with
  | none => .ok .separate
  | some (.mapping _) => .ok .separate
  | some .null => if (environment (variableOf [name])).isEmpty then .ok .null else .error .wrongKind
  | some _ => .error .wrongKind

/-- What a document gives for a key of a section. -/
def Document.value? (document : Document) (sectionName key : String) : Option Value :=
  match (document.get? (sectionName ++ "." ++ key)).bind Value.ofNode? with
  | some value => some value
  | none =>
    match document.get? sectionName with
    | some (.mapping pairs) => (Document.get? (lowerKeys pairs) key).bind Value.ofNode?
    | _ => none

/-- What is known of a setting. -/
inductive Given where
  | value (value : Value)
  | byDefault
  /-- A variable named for the section hides the setting. -/
  | hidden
  deriving DecidableEq, Repr

/-- Looks a setting up: in its environment variable, unless that is empty, and then in the
document. -/
def given (document : Document) (environment : Bytes → Bytes) (state : Section)
    (sectionName key : String) : Given :=
  let ownText := environment (variableOf [sectionName, key])
  if state = .null && (document.get? (sectionName ++ "." ++ key)).isNone then .byDefault
  else if !ownText.isEmpty then .value (.text ownText)
  else if !(environment (variableOf [sectionName])).isEmpty then .hidden
  else
    match document.value? sectionName key with
    | some value => .value value
    | none => .byDefault

/-- Takes a setting as a value of its type. -/
def Given.take {α : Type} (found : Given) (convert : Value → Option α) (standard blank : α) :
    Except SourceFault α :=
  match found with
  | .byDefault => .ok standard
  | .hidden => .ok blank
  | .value v =>
    match convert v with
    | some result => .ok result
    | none => .error .wrongKind

/-- The settings that a document and the environment give. -/
def ofDocument (document : Document) (environment : Bytes → Bytes) :
    Except SourceFault Settings := do
  let standard : Settings := {}
  let output ← sectionOf document environment "output"
  let analysis ← sectionOf document environment "analysis"
  let logging ← sectionOf document environment "logging"
  let telemetry ← sectionOf document environment "telemetry"
  let text (state : Section) (sectionName key : String) (default : Bytes) :=
    (given document environment state sectionName key).take Value.toText? default []
  let bool (state : Section) (sectionName key : String) (default : Bool) :=
    (given document environment state sectionName key).take Value.toBool? default false
  return {
    format := ← text output "output" "format" standard.format
    noColor := ← bool output "output" "no_color" standard.noColor
    maxClassSize := ← text analysis "analysis" "max_class_size" standard.maxClassSize
    workers := ← (given document environment analysis "analysis" "workers").take Value.toInt?
      standard.workers 0
    logLevel := ← text logging "logging" "level" standard.logLevel
    logFormat := ← text logging "logging" "format" standard.logFormat
    endpoint := ← text telemetry "telemetry" "otlp_endpoint" standard.endpoint
    headers := ← text telemetry "telemetry" "otlp_headers" standard.headers
    insecure := ← bool telemetry "telemetry" "otlp_insecure" standard.insecure
    environment := ← text telemetry "telemetry" "environment" standard.environment }

/-- Loads settings from the file at a path or, if the path is empty, from the first file that is
found, and checks them. -/
def load (entry : Bytes → Files.Entry) (home : Bytes) (environment : Bytes → Bytes)
    (path : Bytes) : Except SourceFault Settings := do
  let document ←
    if path.isEmpty then searchFile entry home environment else readFile entry environment path
  let settings ← ofDocument document environment
  match settings.validate with
  | .ok () => return settings
  | .error fault => throw (.invalid fault)

end MonitorCoverage.Settings
