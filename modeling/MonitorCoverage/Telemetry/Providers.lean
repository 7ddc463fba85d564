import MonitorCoverage.Log.Handler
import MonitorCoverage.Telemetry.Headers
import MonitorCoverage.Telemetry.Sampler

/-!
# Telemetry of a run

The settings say what is running and what is observed of it. Spans are made only where there is an
endpoint to send them to; metrics are kept where they are collected.
-/

namespace MonitorCoverage.Telemetry

structure Settings where
  service : Bytes := utf8 "lockcov"
  version : Bytes := []
  environment : Bytes := []
  mode : Bytes := utf8 "cli"
  /-- Where spans and metrics are sent; nowhere if it is empty. -/
  endpoint : Bytes := []
  headers : Headers := []
  insecure : Bool := false
  sampleRatio : Binary64 := .zero
  level : Log.Level := .info
  json : Bool := false
  collectMetrics : Bool := false
  shutdownSeconds : Int64 := 5
  deriving Repr

namespace Settings

/-- What the running program tells of itself, ordered by key. The name is always told. -/
def resource (settings : Settings) : List (String × Bytes) :=
  let optional (key : String) (value : Bytes) : List (String × Bytes) :=
    if value.isEmpty then [] else [(key, value)]
  optional "app.mode" settings.mode ++ optional "deployment.environment" settings.environment
    ++ [("service.name", settings.service)] ++ optional "service.version" settings.version

def handler (settings : Settings) : Log.Handler :=
  .ofService settings.json settings.level settings.service settings.mode settings.environment

end Settings

/-- What a run is observed with. -/
structure Providers where
  handler : Log.Handler
  /-- Decides on new spans; without one, no spans are made. -/
  sampler : Option Sampler
  collectsMetrics : Bool
  deriving Repr

namespace Providers

def ofSettings (settings : Settings) (environment : Bytes → Bytes) : Providers :=
  { handler := settings.handler
    sampler :=
      if settings.endpoint.isEmpty then none
      else some (Sampler.select environment settings.sampleRatio)
    collectsMetrics := settings.collectMetrics }

/-- The context of a new span under a parent. The fresh context gives the identifiers; the trace of
a valid parent goes on. Where no spans are made, the parent's context stays. -/
def startSpan (providers : Providers) (fresh parent : SpanContext) : SpanContext :=
  match providers.sampler with
  | none => if parent.isValid then parent else .none
  | some sampler =>
    let trace := if parent.isValid then parent.trace else fresh.trace
    { trace, span := fresh.span, isSampled := sampler.keeps parent trace }

end Providers

end MonitorCoverage.Telemetry
