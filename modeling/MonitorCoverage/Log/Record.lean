import MonitorCoverage.Log.Level
import MonitorCoverage.Log.Moment
import MonitorCoverage.Telemetry.Span

/-!
# Log records

A record has a level, a message and attributes, and knows when it was made. If it is made in a span,
the identifiers of the span become attributes too.
-/

namespace MonitorCoverage.Log

inductive Value where
  | text (bytes : Bytes)
  | int (i : Int64)
  | unsigned (n : UInt64)
  | float (x : Binary64)
  | bool (b : Bool)
  | duration (nanoseconds : Int64)
  | time (moment : Moment)
  deriving DecidableEq, Repr

structure Attribute where
  key : Bytes
  value : Value
  deriving DecidableEq, Repr

structure Record where
  /-- When the record was made, unless no clock was there. -/
  time : Option Moment := none
  level : Level
  message : Bytes
  attributes : List Attribute
  deriving DecidableEq, Repr

def textAttribute (key : String) (bytes : Bytes) : Attribute := ⟨utf8 key, .text bytes⟩

def intAttribute (key : String) (i : Int64) : Attribute := ⟨utf8 key, .int i⟩

def boolAttribute (key : String) (b : Bool) : Attribute := ⟨utf8 key, .bool b⟩

def timeAttribute (key : String) (moment : Moment) : Attribute := ⟨utf8 key, .time moment⟩

/-- The identifiers of a valid span as attributes. -/
def spanAttributes (context : Telemetry.SpanContext) : List Attribute :=
  if context.isValid then
    [textAttribute "trace_id" (utf8 context.trace.hex),
      textAttribute "span_id" (utf8 context.span.hex)]
  else []

end MonitorCoverage.Log
