import MonitorCoverage.Json.Writer
import MonitorCoverage.Lock.Analysis
import MonitorCoverage.Schema.Basic
import MonitorCoverage.Yaml.Writer

/-!
# Reports

What is told of an analysis: the class with its tally, and a row for each method. A report can be
written as a JSON document or as a YAML document.
-/

namespace MonitorCoverage

namespace Report

structure Row where
  name : Bytes
  descriptor : Bytes
  isSynchronized : Bool
  events : Int64
  total : Int64
  locked : Int64
  percent : Binary64
  deriving DecidableEq, Repr

end Report

structure Report where
  name : Bytes
  rows : List Report.Row
  total : Int64
  locked : Int64
  percent : Binary64
  methods : Int64
  fields : Int64
  deriving DecidableEq, Repr

namespace Report

def Row.ofMethod (method : Lock.MethodReport) : Row :=
  { name := method.name, descriptor := method.descriptor, isSynchronized := method.isSynchronized,
    events := method.events, total := method.tally.total, locked := method.tally.locked,
    percent := method.tally.percent }

def ofAnalysis (analysis : Lock.Analysis) : Report :=
  { name := analysis.name, rows := analysis.methods.map Row.ofMethod, total := analysis.tally.total,
    locked := analysis.tally.locked, percent := analysis.tally.percent,
    methods := analysis.tally.methods, fields := analysis.tally.fields }

/-! ## JSON -/

/-- A text as a JSON string; stray bytes are replaced. -/
def jsonText (bytes : Bytes) : Json.Value := .string (String.ofList (Text.lossyChars bytes))

def jsonInt (i : Int64) : Json.Value := .ofInt i.toInt

def jsonNumber (x : Binary64) : Json.Value := .number (x.chars .wide)

def Row.toJson (row : Row) : Json.Value :=
  .object [("name", jsonText row.name), ("descriptor", jsonText row.descriptor),
    ("synchronized", .bool row.isSynchronized), ("events", jsonInt row.events),
    ("total", jsonInt row.total), ("locked", jsonInt row.locked),
    ("percent", jsonNumber row.percent)]

def toJson (report : Report) : Json.Value :=
  .object [("class", jsonText report.name), ("method_reports", .array (report.rows.map Row.toJson)),
    ("total", jsonInt report.total), ("locked", jsonInt report.locked),
    ("percent", jsonNumber report.percent), ("methods", jsonInt report.methods),
    ("fields", jsonInt report.fields)]

/-! ## YAML -/

/-- A line with a key and a value that needs no quotes. -/
def yamlLine (key : String) (value : String) : List Char := (key ++ ": " ++ value ++ "\n").toList

def yamlText (key : String) (indent : Nat) (bytes : Bytes) : List Char :=
  (key ++ ": ").toList ++ Yaml.stringScalar indent bytes

def yamlInt (key : String) (i : Int64) : List Char := yamlLine key (Decimal.text i.toInt)

def yamlNumber (key : String) (x : Binary64) : List Char := yamlLine key (x.text .general)

/-- The lines of a row, as an item of a list. -/
def Row.toYaml (row : Row) : List Char :=
  let margin := List.replicate 6 ' '
  "    - ".toList ++ yamlText "name" 8 row.name
    ++ margin ++ yamlText "descriptor" 8 row.descriptor
    ++ margin ++ yamlLine "synchronized" (if row.isSynchronized then "true" else "false")
    ++ margin ++ yamlInt "events" row.events
    ++ margin ++ yamlInt "total" row.total
    ++ margin ++ yamlInt "locked" row.locked
    ++ margin ++ yamlNumber "percent" row.percent

def toYaml (report : Report) : List Char :=
  yamlText "class" 4 report.name
    ++ (if report.rows.isEmpty then "method_reports: []\n".toList
        else "method_reports:\n".toList ++ report.rows.flatMap Row.toYaml)
    ++ yamlInt "total" report.total ++ yamlInt "locked" report.locked
    ++ yamlNumber "percent" report.percent ++ yamlInt "methods" report.methods
    ++ yamlInt "fields" report.fields

end Report

end MonitorCoverage
