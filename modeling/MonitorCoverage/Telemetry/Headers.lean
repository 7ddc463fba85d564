import MonitorCoverage.Text.Blank

/-!
# Header lists

Headers are written as `key=value` pairs with commas between them and blanks around keys and values.
What has no `=` is not a pair and is passed over. Of two pairs with one key the later holds.
-/

namespace MonitorCoverage.Telemetry

/-- Headers, ordered by their keys. -/
abbrev Headers := List (Bytes × Bytes)

namespace Headers

/-- The headers with one more, which takes the place of one with the same key. -/
def insert (key value : Bytes) : Headers → Headers
  | [] => [(key, value)]
  | (k, v) :: headers =>
    if key = k then (key, value) :: headers
    else if key.less k then (key, value) :: (k, v) :: headers
    else (k, v) :: insert key value headers

/-- The pair that a segment holds. -/
def pair? (segment : Bytes) : Option (Bytes × Bytes) :=
  ((Text.trim segment).cut '='.toUInt8).map fun (key, value) => (Text.trim key, Text.trim value)

/-- The headers that a text lists. -/
def parse (raw : Bytes) : Headers :=
  ((raw.splitOn ','.toUInt8).filterMap pair?).foldl
    (fun headers (key, value) => headers.insert key value) []

end Headers

end MonitorCoverage.Telemetry
