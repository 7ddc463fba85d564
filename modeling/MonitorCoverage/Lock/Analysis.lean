import MonitorCoverage.Lock.Tally
import MonitorCoverage.Log.Record
import MonitorCoverage.Telemetry.Span

/-!
# Analysis of a class

The methods of a class are tallied one by one and the tallies added up. A run also leaves log
records, one for each method and one for the class, and a span. Tallying a method looks only at that
method, so the order in which methods are tallied shows in the records alone.
-/

namespace MonitorCoverage.Lock

open Log (Record textAttribute intAttribute boolAttribute)
open Telemetry (Span SpanAttribute)

structure MethodReport where
  name : Bytes
  descriptor : Bytes
  isSynchronized : Bool
  events : Int64
  tally : Tally
  deriving DecidableEq, Repr

structure Analysis where
  name : Bytes
  tally : ClassTally
  methods : List MethodReport
  deriving DecidableEq, Repr

inductive AnalysisCause where
  /-- The run was called off before a method was tallied. -/
  | canceled (method : Bytes)
  | method (fault : MethodFault)
  deriving DecidableEq, Repr

def AnalysisCause.message : AnalysisCause → Bytes
  | canceled name => utf8 "classify " ++ name ++ utf8 ": context canceled"
  | method fault => fault.message

structure AnalysisFault where
  name : Bytes
  cause : AnalysisCause
  deriving DecidableEq, Repr

def AnalysisFault.message (fault : AnalysisFault) : Bytes :=
  utf8 "analyze " ++ fault.name ++ utf8 ": " ++ fault.cause.message

/-- What an analysis leaves behind. -/
structure AnalysisRun where
  outcome : Except AnalysisFault Analysis
  records : List Record
  span : Span

/-- The record of a tallied method. -/
def methodRecord (unit : MethodUnit) (tally : Tally) : Record :=
  { level := .debug, message := utf8 "method classified"
    attributes := [textAttribute "method" (unit.name ++ unit.descriptor),
      boolAttribute "synchronized" unit.isSynchronized,
      intAttribute "events" (Int64.ofNat unit.events.length),
      intAttribute "total" tally.total, intAttribute "locked" tally.locked] }

/-- The record of an analyzed class. -/
def classRecord (name : Bytes) (tally : ClassTally) : Record :=
  { level := .info, message := utf8 "class analyzed"
    attributes := [textAttribute "class" name, intAttribute "methods" tally.methods,
      intAttribute "fields" tally.fields, intAttribute "total" tally.total,
      intAttribute "locked" tally.locked] }

/-- The tally of a method, unless the run was called off. -/
def MethodUnit.classify (unit : MethodUnit) (canceled : Bool) : Except AnalysisCause Tally :=
  if canceled then .error (.canceled unit.name)
  else
    match unit.tally with
    | .ok tally => .ok tally
    | .error fault => .error (.method fault)

/-- The tallies of methods up to the first failure, and the records made until then, both after
those made before, last first. -/
def classifyOnto (canceled : Bool) (tallies : List Tally) (records : List Record) :
    List MethodUnit → Except AnalysisCause (List Tally) × List Record
  | [] => (.ok tallies.reverse, records.reverse)
  | unit :: units =>
    match unit.classify canceled with
    | .ok tally =>
      classifyOnto canceled (tally :: tallies) (methodRecord unit tally :: records) units
    | .error cause => (.error cause, records.reverse)

def MethodReport.of (unit : MethodUnit) (tally : Tally) : MethodReport :=
  { name := unit.name, descriptor := unit.descriptor, isSynchronized := unit.isSynchronized,
    events := Int64.ofNat unit.events.length, tally }

/-- The analysis of a class whose methods have the given tallies. -/
def Analysis.ofTallies (unit : ClassUnit) (tallies : List Tally) : Analysis :=
  { name := unit.name
    tally := { ClassTally.ofMethods tallies with fields := Int64.ofNat unit.fields.length }
    methods := unit.methods.zipWith MethodReport.of tallies }

namespace ClassUnit

/-- The attributes that a span has from the start. -/
def spanAttributes (unit : ClassUnit) : List SpanAttribute :=
  [⟨"class.name", .text unit.name⟩, ⟨"class.methods", .int (Int64.ofNat unit.methods.length)⟩,
    ⟨"class.fields", .int (Int64.ofNat unit.fields.length)⟩]

/-- The attributes that a span gets from an analysis. -/
def resultAttributes (analysis : Analysis) : List SpanAttribute :=
  [⟨"analysis.total", .int analysis.tally.total⟩, ⟨"analysis.locked", .int analysis.tally.locked⟩,
    ⟨"analysis.percent", .number analysis.tally.percent⟩]

/-- What is left behind once all methods were tallied or one of them was not. -/
def conclude (unit : ClassUnit) (outcome : Except AnalysisCause (List Tally))
    (records : List Record) : AnalysisRun :=
  let span (more : List SpanAttribute) (errors : Nat) : Span :=
    { name := "lockcov.analyze", attributes := unit.spanAttributes ++ more, errors }
  match outcome with
  | .ok tallies =>
    let analysis := Analysis.ofTallies unit tallies
    { outcome := .ok analysis, records := records ++ [classRecord unit.name analysis.tally],
      span := span (resultAttributes analysis) 0 }
  | .error cause => { outcome := .error { name := unit.name, cause }, records, span := span [] 1 }

def analyze (unit : ClassUnit) (canceled : Bool) : AnalysisRun :=
  let (outcome, records) := classifyOnto canceled [] [] unit.methods
  unit.conclude outcome records

end ClassUnit

end MonitorCoverage.Lock
