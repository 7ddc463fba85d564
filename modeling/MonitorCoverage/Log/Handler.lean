import MonitorCoverage.Log.Record
import MonitorCoverage.Text.Blank
import MonitorCoverage.Text.Quoted

/-!
# Log handlers

A handler writes records as lines, either of `key=value` pairs or of JSON. It carries attributes and
open groups, in the order in which they were added: an attribute lies in the groups that were opened
before it. A record's own attributes, and those of its span, lie in all of them. A group without
attributes is not written.
-/

namespace MonitorCoverage.Log

/-- What was added to a handler. -/
inductive Scope where
  | attributes (attributes : List Attribute)
  | group (name : Bytes)
  deriving DecidableEq, Repr

structure Handler where
  json : Bool
  threshold : Level
  scopes : List Scope
  deriving DecidableEq, Repr

/-- The attributes that say what is running: its name, its mode and, if one is given, its
environment. -/
def serviceAttributes (service mode environment : Bytes) : List Attribute :=
  [textAttribute "service" service, textAttribute "mode" mode]
    ++ if environment.isEmpty then [] else [textAttribute "env" environment]

namespace Handler

/-- A handler whose lines say what is running. -/
def ofService (json : Bool) (threshold : Level) (service mode environment : Bytes) : Handler :=
  { json, threshold, scopes := [.attributes (serviceAttributes service mode environment)] }

def withAttributes (handler : Handler) (attributes : List Attribute) : Handler :=
  { handler with scopes := handler.scopes ++ [.attributes attributes] }

def withGroup (handler : Handler) (name : Bytes) : Handler :=
  { handler with scopes := handler.scopes ++ [.group name] }

def isEnabled (handler : Handler) (level : Level) : Bool := handler.threshold.value ≤ level.value

end Handler

/-! ## Lines of pairs -/

/-- Whether a piece of text forces quotes around the text. -/
def forcesQuotes : Text.Piece → Bool
  | .stray _ => true
  | .char c =>
    if c.toNat < 0x80 then c.toNat < 0x20 || c = ' ' || c = '=' || c = '"'
    else c = Text.replacement || Text.isBlank c || !Text.isPrintable c

def needsQuotes (bytes : Bytes) : Bool := bytes.isEmpty || (Text.pieces bytes).any forcesQuotes

/-- Two texts in a row as one word, in quotes if one of them needs quotes. -/
def wordOfTwo (first second : Bytes) (quoted : Bool) : String :=
  if quoted then Text.quote (first ++ second) else String.ofList (Text.lossyChars (first ++ second))

/-- A text as one word of a line. -/
def word (bytes : Bytes) : String := wordOfTwo bytes [] (needsQuotes bytes)

/-- A key behind the names of its groups. -/
def keyWord (path key : Bytes) : String :=
  wordOfTwo path key (needsQuotes key || (!path.isEmpty && needsQuotes path))

/-- A value as one word of a line. A time is told to the millisecond. -/
def Value.word : Value → String
  | .text bytes => Log.word bytes
  | .int i => Decimal.text i.toInt
  | .unsigned n => Decimal.text n.toNat
  | .float x => x.text .general
  | .bool b => if b then "true" else "false"
  | .duration nanoseconds => durationText nanoseconds
  | .time moment => moment.milliText

def pair (path : Bytes) (a : Attribute) : String := keyWord path a.key ++ "=" ++ a.value.word

/-- The pairs of scopes and of the attributes after them, inside the groups of a path. -/
def scopePairs (path : Bytes) (last : List Attribute) : List Scope → List String
  | [] => last.map (pair path)
  | .attributes attributes :: scopes => attributes.map (pair path) ++ scopePairs path last scopes
  | .group name :: scopes => scopePairs (path ++ name ++ utf8 ".") last scopes

/-! ## Lines of JSON -/

/-- A character inside a JSON string of a log line. -/
def jsonChar (c : Char) : List Char :=
  if c = '"' || c = '\\' then ['\\', c]
  else if c = '\n' then ['\\', 'n']
  else if c = '\r' then ['\\', 'r']
  else if c = '\t' then ['\\', 't']
  else if c.toNat < 0x20 || c.toNat = 0x2028 || c.toNat = 0x2029 then
    '\\' :: 'u' :: Text.hexDigits c.toNat 4
  else [c]

def jsonString (bytes : Bytes) : String :=
  String.ofList ('"' :: (Text.lossyChars bytes).flatMap jsonChar ++ ['"'])

/-- A number in JSON, or a note that JSON has none like it. -/
def jsonFloat (x : Binary64) : String :=
  if x.isFinite then x.text .wide
  else jsonString (utf8 ("!ERROR:json: unsupported value: " ++ x.text .general))

/-- A value in JSON. A duration is a number of nanoseconds. -/
def Value.json : Value → String
  | .text bytes => jsonString bytes
  | .int i => Decimal.text i.toInt
  | .unsigned n => Decimal.text n.toNat
  | .float x => jsonFloat x
  | .bool b => if b then "true" else "false"
  | .duration nanoseconds => Decimal.text nanoseconds.toInt
  | .time moment => "\"" ++ moment.nanoText ++ "\""

def member (a : Attribute) : String := jsonString a.key ++ ":" ++ a.value.json

def jsonObject (members : List String) : String := "\x7b" ++ ",".intercalate members ++ "\x7d"

/-- The members of scopes and of the attributes after them. -/
def scopeMembers (last : List Attribute) : List Scope → List String
  | [] => last.map member
  | .attributes attributes :: scopes => attributes.map member ++ scopeMembers last scopes
  | .group name :: scopes =>
    let inner := scopeMembers last scopes
    if inner.isEmpty then [] else [jsonString name ++ ":" ++ jsonObject inner]

namespace Handler

/-- The time, the level and the message, which come first and lie in no group. -/
def head (record : Record) : List Attribute :=
  record.time.toList.map (timeAttribute "time")
    ++ [textAttribute "level" (utf8 record.level.text), textAttribute "msg" record.message]

/-- The line for a record made in a span. -/
def line (handler : Handler) (context : Telemetry.SpanContext) (record : Record) : String :=
  let scopes := .attributes (head record) :: handler.scopes
  let last := record.attributes ++ spanAttributes context
  if handler.json then jsonObject (scopeMembers last scopes) ++ "\n"
  else " ".intercalate (scopePairs [] last scopes) ++ "\n"

/-- Writes the line for a record. A failed write is reported with the place that noticed it. -/
def handle {m : Type → Type} [Monad m] (handler : Handler) (write : String → m (Except Bytes Unit))
    (context : Telemetry.SpanContext) (record : Record) : m (Except Bytes Unit) := do
  match ← write (handler.line context record) with
  | .ok () => pure (.ok ())
  | .error reason => pure (.error (utf8 "tracing handler: " ++ reason))

/-- The lines for the records that are enabled. -/
def lines (handler : Handler) (context : Telemetry.SpanContext) (records : List Record) :
    List String :=
  (records.filter fun record => handler.isEnabled record.level).map (handler.line context)

end Handler

end MonitorCoverage.Log
