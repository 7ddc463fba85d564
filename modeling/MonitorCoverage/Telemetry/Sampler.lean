import MonitorCoverage.Binary64.Layout
import MonitorCoverage.Binary64.Reader
import MonitorCoverage.Telemetry.Span
import MonitorCoverage.Text.Utf8

/-!
# Samplers

A sampler decides which spans are kept. Sampling by ratio looks at the trace's identifier, so that
all spans of a trace are kept or none is.
-/

namespace MonitorCoverage.Telemetry

inductive Sampler where
  | always
  | never
  /-- A share of all traces, from zero up to one. -/
  | ratio (share : Binary64)
  /-- As the parent span was sampled, and by another rule where there is no parent. -/
  | parentBased (root : Sampler)
  deriving DecidableEq, Repr

namespace Sampler

def one : Binary64 := .ofNat 1

/-- Samples a share of the traces: all from one on, none up to zero. -/
def ofRatio (share : Binary64) : Sampler :=
  if one.le share then always
  else if share.le .zero then ratio .zero
  else ratio share

def alwaysText : String := "AlwaysOnSampler"

def neverText : String := "AlwaysOffSampler"

def text : Sampler → String
  | always => alwaysText
  | never => neverText
  | ratio share => "TraceIDRatioBased\x7b" ++ share.text .general ++ "\x7d"
  | parentBased root =>
    "ParentBased\x7broot:" ++ root.text ++ ",remoteParentSampled:" ++ alwaysText
      ++ ",remoteParentNotSampled:" ++ neverText ++ ",localParentSampled:" ++ alwaysText
      ++ ",localParentNotSampled:" ++ neverText ++ "\x7d"

/-- The number that ratios are compared with: the last eight bytes of the identifier without their
lowest bit. -/
def traceNumber (trace : Bytes) : Nat :=
  ((trace.drop 8).take 8).foldl (fun number byte => number * 256 + byte.toNat) 0 / 2

/-- The least trace number that a share leaves out. What is not a number leaves out none. -/
def traceBound (share : Binary64) : Nat :=
  if share.isNaN then Nat.pow 2 63 else (share.mul (.ofNat (Nat.pow 2 63))).truncate

/-- Whether a span of a trace under a parent is kept. -/
def keeps (parent : SpanContext) (trace : Bytes) : Sampler → Bool
  | always => true
  | never => false
  | ratio share => traceNumber trace < traceBound share
  | parentBased root => if parent.isValid then parent.isSampled else keeps parent trace root

/-- The share that a text gives; one if it gives none. -/
def readRatio (text : Bytes) : Binary64 :=
  match Binary64.read (Text.lossyChars text) with
  | .ok share => share
  | .error _ => one

/-- The sampler that the environment names, if it names one, and else the one for a ratio. A ratio
above zero holds for spans without a parent; otherwise all of these are kept. -/
def select (environment : Bytes → Bytes) (share : Binary64) : Sampler :=
  let name := environment (utf8 "OTEL_TRACES_SAMPLER")
  if name = utf8 "always_on" then always
  else if name = utf8 "always_off" then never
  else if name = utf8 "traceidratio" then
    ofRatio (readRatio (environment (utf8 "OTEL_TRACES_SAMPLER_ARG")))
  else if Binary64.zero.lt share then parentBased (ofRatio share)
  else parentBased always

end Sampler

end MonitorCoverage.Telemetry
