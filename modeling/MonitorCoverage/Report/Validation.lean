import MonitorCoverage.Json.Reader
import MonitorCoverage.Report.Basic
import MonitorCoverage.Schema.Shape

/-!
# The schema of reports

Reports as JSON have a schema with bounds: counts are not negative, percentages lie between zero and
a hundred, and methods have names. The shape of reports gives the same schema without bounds.
-/

namespace MonitorCoverage.Report

/-! ## The schema -/

def count : Schema := .integer { least := some 0 }

def percentage : Schema := .number { least := some 0, greatest := some 100 }

def rowSchema : Schema :=
  .object
    (["name", "descriptor", "synchronized", "events", "total", "locked", "percent"].map utf8)
    [(utf8 "name", .string 1), (utf8 "descriptor", .string 0), (utf8 "synchronized", .boolean),
      (utf8 "events", count), (utf8 "total", count), (utf8 "locked", count),
      (utf8 "percent", percentage)]

/-- The schema that JSON reports are checked against. -/
def schema : Schema :=
  .object
    (["class", "total", "locked", "percent", "methods", "fields", "method_reports"].map utf8)
    [(utf8 "class", .string 0), (utf8 "total", count), (utf8 "locked", count),
      (utf8 "percent", percentage), (utf8 "methods", count), (utf8 "fields", count),
      (utf8 "method_reports", .array rowSchema)]

/-! ## The shape -/

/-- The tag of a field that has one name in both kinds of documents. -/
def fieldTag (name : String) : Bytes := utf8 ("json:\"" ++ name ++ "\" yaml:\"" ++ name ++ "\"")

def rowShape : Schema.Shape :=
  .record [(fieldTag "name", .scalar .string), (fieldTag "descriptor", .scalar .string),
    (fieldTag "synchronized", .scalar .bool), (fieldTag "events", .scalar .signed),
    (fieldTag "total", .scalar .signed), (fieldTag "locked", .scalar .signed),
    (fieldTag "percent", .scalar .float)]

def shape : Schema.Shape :=
  .record [(fieldTag "class", .scalar .string), (fieldTag "method_reports", .list rowShape),
    (fieldTag "total", .scalar .signed), (fieldTag "locked", .scalar .signed),
    (fieldTag "percent", .scalar .float), (fieldTag "methods", .scalar .signed),
    (fieldTag "fields", .scalar .signed)]

/-- The document with the schema that the shape gives. -/
def schemaDocument : String :=
  (shape.schema.titledJson (utf8 "lockcov report")).document ++ "\n"

/-! ## Checking -/

inductive InvalidReport where
  /-- No JSON value can be read. -/
  | malformed
  | violations (violations : List Schema.Violation)
  deriving DecidableEq, Repr

/-- The messages of violations in bytewise order. -/
def violationMessages (violations : List Schema.Violation) : List Bytes :=
  (violations.map (·.message)).mergeSort fun a b => !b.less a

def violationsMessage (violations : List Schema.Violation) : Bytes :=
  utf8 "report does not match schema: "
    ++ Bytes.joinWith (utf8 "; ") (violationMessages violations)

/-- Checks a JSON value. -/
def validate (value : Json.Value) : Except InvalidReport Unit :=
  match schema.violations [] value with
  | [] => .ok ()
  | violations => .error (.violations violations)

/-- Checks the first JSON value of a document. -/
def validateDocument (document : Bytes) : Except InvalidReport Unit :=
  match Json.readFirst (Text.lossyChars document) with
  | some (value, _) => validate value
  | none => .error .malformed

end MonitorCoverage.Report
