import MonitorCoverage.Report.Table
import MonitorCoverage.Report.Validation

/-!
# Rendering analyses

An analysis is rendered as one line of text, as JSON, as YAML or as a table, and written to an
output. A JSON report is checked against the schema before anything is written.
-/

namespace MonitorCoverage.Report

inductive Format where
  | text
  | json
  | yaml
  | table
  deriving DecidableEq, Repr

namespace Format

def all : List Format := [text, json, yaml, table]

def name : Format → String
  | text => "text"
  | json => "json"
  | yaml => "yaml"
  | table => "table"

/-- The format with a name. -/
def ofName? (name : Bytes) : Option Format := all.find? fun format => utf8 format.name = name

end Format

/-- How a report is to be rendered. -/
structure Options where
  /-- The name of a format; none stands for text. -/
  format : Bytes
  noColor : Bool
  /-- Whether the output shows colours. -/
  showsColor : Bool
  deriving DecidableEq, Repr

inductive RenderError where
  | unknownFormat (name : Bytes)
  | invalid (violations : List Schema.Violation)
  /-- The output refused a write. -/
  | write (reason : Bytes)
  deriving DecidableEq, Repr

def RenderError.message : RenderError → Bytes
  | unknownFormat name => utf8 ("unknown report format: " ++ Text.quote name)
  | invalid violations => violationsMessage violations
  | write reason => reason

/-- Writes a document at once and passes a refusal on. -/
def put {m : Type → Type} [Monad m] (write : Bytes → m (Except Bytes Unit)) (document : Bytes) :
    m (Except RenderError Unit) := do
  match ← write document with
  | .ok () => pure (.ok ())
  | .error reason => pure (.error (.write reason))

/-- Renders an analysis in a format. A table is written in two parts, and refusals of its writes are
passed over. -/
def renderAs {m : Type → Type} [Monad m] (write : Bytes → m (Except Bytes Unit))
    (analysis : Lock.Analysis) (options : Options) (format : Format) :
    m (Except RenderError Unit) :=
  let report := ofAnalysis analysis
  match format with
  | .text => put write (utf8 (analysis.tally.line ++ "\n"))
  | .json =>
    match schema.violations [] report.toJson with
    | [] => put write (utf8 (report.toJson.document ++ "\n"))
    | violations => pure (.error (.invalid violations))
  | .yaml => put write (Text.encode report.toYaml)
  | .table => do
    let _ ← write (report.table (options.showsColor && !options.noColor))
    let _ ← write (utf8 "\n")
    pure (.ok ())

/-- Renders an analysis. -/
def render {m : Type → Type} [Monad m] (write : Bytes → m (Except Bytes Unit))
    (analysis : Lock.Analysis) (options : Options) : m (Except RenderError Unit) :=
  if options.format.isEmpty then renderAs write analysis options .text
  else
    match Format.ofName? options.format with
    | some format => renderAs write analysis options format
    | none => pure (.error (.unknownFormat options.format))

end MonitorCoverage.Report
