import MonitorCoverage.Text.Utf8

/-!
# Format directives without arguments

A text is used as a format for which there are no arguments. A percent sign starts a directive:
flags, an index, a width, a precision and a verb. Two percent signs stand for one; every other
directive is replaced by a note on what it lacks.
-/

namespace MonitorCoverage.Text

def isFlag (byte : UInt8) : Bool := [0x23, 0x30, 0x2B, 0x2D, 0x20].contains byte

def isDigitByte (byte : UInt8) : Bool := 0x30 ≤ byte && byte ≤ 0x39

/-- What follows a number, and whether there is one. A number above a million takes the whole rest
along. -/
def afterNumber (bytes : Bytes) : Bool × Bytes :=
  let digits := bytes.takeWhile isDigitByte
  let value := digits.dropLast.foldl (fun (n : Nat) byte => n * 10 + (byte.toNat - 48)) 0
  if digits.isEmpty then (false, bytes)
  else if 1000000 < value then (false, [])
  else (true, bytes.dropWhile isDigitByte)

/-- An index in brackets. -/
structure Index where
  /-- Whether the index can be read; no index names an argument. -/
  isReadable : Bool
  /-- Whether an index was there at all. -/
  isPresent : Bool
  rest : Bytes

def takeIndex (bytes : Bytes) : Index :=
  match bytes with
  | 0x5B :: rest =>
    if rest.length < 2 then ⟨false, true, rest⟩
    else
      match rest.dropWhile (· != 0x5D) with
      | _ :: after =>
        let inside := rest.takeWhile (· != 0x5D)
        let (isNumber, left) := afterNumber inside
        ⟨isNumber && left.isEmpty, true, after⟩
      | [] => ⟨false, true, rest⟩
  | _ => ⟨false, false, bytes⟩

/-- What a directive is replaced by, and what follows it. -/
def directive (bytes : Bytes) : Bytes × Bytes :=
  let first := takeIndex (bytes.dropWhile isFlag)
  let (widthNote, rest, indexed, bad) := match first.rest with
    | 0x2A :: rest => (utf8 "%!(BADWIDTH)", rest, false, first.isPresent)
    | rest =>
      let (isNumber, rest) := afterNumber rest
      ([], rest, first.isReadable, first.isPresent || (first.isReadable && isNumber))
  let (precisionNote, rest, indexed, bad) := match rest with
    | 0x2E :: rest =>
      let second := takeIndex rest
      match second.rest with
      | 0x2A :: rest =>
        (utf8 "%!(BADPREC)", rest, false, bad || indexed || second.isPresent)
      | rest => ([], (afterNumber rest).2, second.isReadable, bad || indexed || second.isPresent)
    | rest => ([], rest, indexed, bad)
  let last := if indexed then ⟨false, false, rest⟩ else takeIndex rest
  let bad := bad || last.isPresent
  let notes := widthNote ++ precisionNote
  match last.rest with
  | [] => (notes ++ utf8 "%!(NOVERB)", [])
  | byte :: rest =>
    let (verb, rest) : Bytes × Bytes := match scanChar? (byte :: rest) with
      | some (c, width) => (String.utf8EncodeChar c, rest.drop (width - 1))
      | none => (String.utf8EncodeChar replacement, rest)
    if byte = 0x25 then (notes ++ [0x25], rest)
    else
      (notes ++ utf8 "%!" ++ verb ++ utf8 (if bad then "(BADINDEX)" else "(MISSING)"), rest)

/-- The text of a format without arguments. -/
def withoutArgumentsFrom : Nat → Bytes → Bytes
  | 0, bytes => bytes
  | fuel + 1, bytes =>
    match bytes.dropWhile (· != 0x25) with
    | [] => bytes
    | _ :: rest =>
      let (text, rest) := directive rest
      bytes.takeWhile (· != 0x25) ++ text ++ withoutArgumentsFrom fuel rest

def withoutArguments (format : Bytes) : Bytes := withoutArgumentsFrom format.length format

end MonitorCoverage.Text
