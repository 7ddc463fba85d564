import MonitorCoverage.Text.Quoted

/-!
# Field tags

A tag gives a field of a record type values under keys, as `key:"value"` with blanks between. What
stands after the first malformed part is not read.
-/

namespace MonitorCoverage.Schema.Tag

def isKeyByte (byte : UInt8) : Bool :=
  0x20 < byte && byte != ':'.toUInt8 && byte != '"'.toUInt8 && byte != 0x7F

/-- The inside of a quoted value, after its opening quote, and what follows the closing one. A
backslash takes the byte after it along. -/
def takeValue (found : Bytes) : Bytes → Option (Bytes × Bytes)
  | [] => none
  | [byte] => if byte = '"'.toUInt8 then some (found.reverse, []) else none
  | byte :: next :: rest =>
    if byte = '"'.toUInt8 then some (found.reverse, next :: rest)
    else if byte = '\\'.toUInt8 then takeValue (next :: byte :: found) rest
    else takeValue (byte :: found) (next :: rest)

/-- The first key of a tag, its quoted value and the rest of the tag. -/
def takePair (tag : Bytes) : Option (Bytes × Bytes × Bytes) :=
  let tag := tag.dropWhile (· = ' '.toUInt8)
  let key := tag.takeWhile isKeyByte
  match key, tag.dropWhile isKeyByte with
  | _ :: _, colon :: quote :: rest =>
    if colon = ':'.toUInt8 && quote = '"'.toUInt8 then
      (takeValue [] rest).map fun (value, rest) => (key, value, rest)
    else none
  | _, _ => none

def lookupFrom : Nat → Bytes → Bytes → Bytes
  | 0, _, _ => []
  | fuel + 1, key, tag =>
    match takePair tag with
    | none => []
    | some (k, value, rest) =>
      if k = key then (Text.unquoteInside? value.length value []).getD []
      else lookupFrom fuel key rest

/-- The value under a key; empty if there is none. -/
def lookup (key tag : Bytes) : Bytes := lookupFrom tag.length key tag

end MonitorCoverage.Schema.Tag
