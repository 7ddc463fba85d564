import MonitorCoverage.Binary64.Reader
import MonitorCoverage.Decimal.Integer
import MonitorCoverage.Text.Blank
import MonitorCoverage.Text.Digit
import MonitorCoverage.Text.LowerCase
import MonitorCoverage.Text.Quoted

/-!
# Sizes in bytes, as people write them

A size is read from a number and a unit, such as `64MiB` or `1.5 kb`. It is written with a unit that
leaves at least one before the point: one decimal below ten, none from ten on.
-/

namespace MonitorCoverage.ByteSize

inductive ReadError where
  /-- The number before the unit is none. -/
  | malformedNumber (number : Bytes)
  | numberOutOfRange (number : Bytes)
  | unknownUnit (name : Bytes)
  /-- The size does not fit into 64 bits. -/
  | tooLarge (text : Bytes)
  deriving DecidableEq, Repr

def ReadError.message : ReadError → Bytes
  | malformedNumber number =>
    utf8 ("strconv.ParseFloat: parsing " ++ Text.quote number ++ ": invalid syntax")
  | numberOutOfRange number =>
    utf8 ("strconv.ParseFloat: parsing " ++ Text.quote number ++ ": value out of range")
  | unknownUnit name => utf8 "unhandled size name: " ++ name
  | tooLarge text => utf8 "too large: " ++ text

/-- The letters of the units, from a thousand (or 1024) bytes up. -/
def unitLetters : List Char := ['k', 'm', 'g', 't', 'p', 'e']

/-- The number of bytes in a unit: powers of 1000, or of 1024 with an `i` after the letter. A final
`b` may be left out. -/
def unitBytes? (name : List Char) : Option Nat :=
  let power (base : Nat) (letter : Char) : Option Nat :=
    (unitLetters.findIdx? (· = letter)).map fun i => Nat.pow base (i + 1)
  match name with
  | [] => some 1
  | ['b'] => some 1
  | [letter] => power 1000 letter
  | [letter, 'b'] => power 1000 letter
  | [letter, 'i'] => power 1024 letter
  | [letter, 'i', 'b'] => power 1024 letter
  | _ => none

/-- Whether a character continues the number of a size. -/
def continuesNumber : Text.Piece → Bool
  | .char c => Text.isDecimalDigit c || c = '.' || c = ','
  | .stray _ => false

/-- The number and the unit of a size. The number has as many bytes as there are digits, points and
commas in front. -/
def split (text : Bytes) : Bytes × Bytes :=
  text.splitAt ((Text.pieces text).takeWhile continuesNumber).length

/-- The number of bytes a text names. Commas in the number mean nothing, and neither does the case
of the unit. A fraction of a byte is dropped. -/
def read (text : Bytes) : Except ReadError UInt64 :=
  let (front, back) := split text
  let number := front.filter (· ≠ 0x2C)
  let name := (Text.lossyChars (Text.trim back)).map Text.toLowerCase
  match Binary64.read (Text.lossyChars number) with
  | .error .malformed => .error (.malformedNumber number)
  | .error .outOfRange => .error (.numberOutOfRange number)
  | .ok value =>
    match unitBytes? name with
    | none => .error (.unknownUnit (Text.encode name))
    | some unit =>
      let size := (value.mul (.ofNat unit)).truncate
      if Nat.pow 2 64 ≤ size then .error (.tooLarge text) else .ok (UInt64.ofNat size)

/-- How sizes are written: the base of the units, and the units. -/
structure Style where
  base : Nat
  units : List String
  deriving DecidableEq, Repr

/-- Units of powers of 1000. -/
def Style.decimal : Style := ⟨1000, ["B", "kB", "MB", "GB", "TB", "PB", "EB"]⟩

/-- Units of powers of 1024. -/
def Style.binary : Style := ⟨1024, ["B", "KiB", "MiB", "GiB", "TiB", "PiB", "EiB"]⟩

/-- The greatest power of the base, of at most `most`, that is not above a size. -/
def exponent (base : Nat) (size : Nat) : Nat → Nat
  | 0 => 0
  | most + 1 => if Nat.pow base (most + 1) ≤ size then most + 1 else exponent base size most

/-- A size in the units of a style, rounded to tenths. -/
def text (style : Style) (size : UInt64) : String :=
  let n := size.toNat
  if n < 10 then Decimal.text n ++ " B"
  else
    let e := exponent style.base n 6
    let scaled := (Binary64.ofNat n).div (.ofNat (Nat.pow style.base e))
    let tenths := ((scaled.mul (.ofNat 10)).add (.ofQuotient false 1 2)).floor.toNat
    let digits :=
      if tenths < 100 then Decimal.text (tenths / 10) ++ "." ++ Decimal.text (tenths % 10 : Nat)
      else Decimal.text (Binary64.roundHalfEven tenths 10)
    digits ++ " " ++ style.units.getD e ""

end MonitorCoverage.ByteSize
