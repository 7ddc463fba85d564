import MonitorCoverage.Binary64.Basic
import MonitorCoverage.Decimal.Integer

/-!
# Reading numbers

A number is written in decimal, with an optional fraction and an optional exponent of ten, or in
hexadecimal after `0x`, with an optional fraction and an exponent of two. An underscore may stand
between two digits. The result is the number nearest to the exact value.
-/

namespace MonitorCoverage.Binary64

inductive ReadError where
  | malformed
  | outOfRange
  deriving DecidableEq, Repr

/-- The value of a hexadecimal digit. -/
def hexDigit? (c : Char) : Option Nat :=
  if c.isDigit then some (c.toNat - '0'.toNat)
  else if 'a' ≤ c && c ≤ 'f' then some (c.toNat - 'a'.toNat + 10)
  else if 'A' ≤ c && c ≤ 'F' then some (c.toNat - 'A'.toNat + 10)
  else none

def digitIn? (base : Nat) (c : Char) : Option Nat :=
  match hexDigit? c with
  | some value => if value < base then some value else none
  | none => none

/-- The digits at the front of a text, as values, and the rest. -/
def takeDigits (base : Nat) : List Char → List Nat × List Char
  | [] => ([], [])
  | c :: cs =>
    match digitIn? base c with
    | some value => let (values, rest) := takeDigits base cs; (value :: values, rest)
    | none => ([], c :: cs)

def valueOf (base : Nat) (digits : List Nat) : Nat :=
  digits.foldl (fun value digit => base * value + digit) 0

/-- What was seen last while underscores are checked. -/
inductive Seen where
  | start | digit | underscore | other
  deriving DecidableEq

/-- Whether each underscore has a digit, or a base mark, before it and a digit after it. -/
def underscoresFrom (hexadecimal : Bool) (seen : Seen) : List Char → Bool
  | [] => seen != .underscore
  | c :: cs =>
    if (digitIn? (if hexadecimal then 16 else 10) c).isSome then
      underscoresFrom hexadecimal .digit cs
    else if c = '_' then seen = .digit && underscoresFrom hexadecimal .underscore cs
    else seen != .underscore && underscoresFrom hexadecimal .other cs

/-- Whether the underscores of an unsigned numeral stand only between digits. -/
def underscoresFit (cs : List Char) : Bool :=
  match cs with
  | '0' :: mark :: rest =>
    if mark.toLower = 'x' then underscoresFrom true .digit rest
    else if mark.toLower = 'b' || mark.toLower = 'o' then underscoresFrom false .digit rest
    else underscoresFrom false .start cs
  | _ => underscoresFrom false .start cs

/-- A sign, if there is one, and the rest. -/
def takeSign : List Char → Option Bool × List Char
  | '+' :: rest => (some false, rest)
  | '-' :: rest => (some true, rest)
  | rest => (none, rest)

/-- An exponent after its mark. Its value stops growing at five digits, where every result is zero
or out of range. -/
def readExponent? (cs : List Char) : Option Int :=
  let (sign, rest) := takeSign cs
  match takeDigits 10 rest with
  | ([], _) => none
  | (digits, []) =>
    let value : Nat := digits.foldl (fun v d => if v < 10000 then 10 * v + d else v) 0
    some (if sign = some true then -(value : Int) else value)
  | (_, _ :: _) => none

/-- The digits of a numeral without its sign, and its exponent if one is written. -/
structure Numeral where
  base : Nat
  whole : List Nat
  fraction : List Nat
  exponent : Option Int

/-- A numeral in some base, whose exponent follows a mark. -/
def readNumeral? (base : Nat) (mark : Char) (cs : List Char) : Option Numeral :=
  let (whole, rest) := takeDigits base cs
  let (fraction, rest) := match rest with
    | '.' :: rest => takeDigits base rest
    | rest => ([], rest)
  if whole.isEmpty && fraction.isEmpty then none
  else
    match rest with
    | [] => some ⟨base, whole, fraction, none⟩
    | c :: rest =>
      if c.toLower = mark then
        match readExponent? rest with
        | some exponent => some ⟨base, whole, fraction, some exponent⟩
        | none => none
      else none

/-- The value of a decimal numeral. Far outside the range of finite numbers the answer does not
depend on the digits. -/
def decimalValue (negative : Bool) (numeral : Numeral) : Except ReadError Binary64 :=
  let digits := (numeral.whole ++ numeral.fraction).dropWhile (· = 0)
  let exponent := numeral.exponent.getD 0 - numeral.fraction.length
  let position := digits.length + exponent
  if digits.isEmpty || position < -330 then .ok (ofParts negative 0)
  else if 310 < position then .error .outOfRange
  else
    let coefficient := valueOf 10 digits
    let x := ofQuotient negative (coefficient * Nat.pow 10 exponent.toNat)
      (Nat.pow 10 (-exponent).toNat)
    if x.isInfinite then .error .outOfRange else .ok x

/-- The value of a hexadecimal numeral with an exponent of two. -/
def hexadecimalValue (negative : Bool) (numeral : Numeral) : Except ReadError Binary64 :=
  let coefficient := valueOf 16 (numeral.whole ++ numeral.fraction)
  let exponent := numeral.exponent.getD 0 - 4 * numeral.fraction.length
  let position := coefficient.log2 + exponent
  if coefficient = 0 || position < -1100 then .ok (ofParts negative 0)
  else if 1100 < position then .error .outOfRange
  else
    let x := ofQuotient negative (coefficient * Nat.pow 2 exponent.toNat)
      (Nat.pow 2 (-exponent).toNat)
    if x.isInfinite then .error .outOfRange else .ok x

/-- The number that a text denotes. -/
def read (cs : List Char) : Except ReadError Binary64 :=
  let (sign, unsigned) := takeSign cs
  let negative := sign = some true
  let word := String.ofList (unsigned.map Char.toLower)
  if word = "inf" || word = "infinity" then .ok (infinity negative)
  else if word = "nan" && sign.isNone then .ok nan
  else if unsigned.contains '_' && !underscoresFit unsigned then .error .malformed
  else
    match unsigned.filter (· != '_') with
    | '0' :: x :: c :: rest =>
      if x.toLower = 'x' then
        match readNumeral? 16 'p' (c :: rest) with
        | some numeral =>
          if numeral.exponent.isSome then hexadecimalValue negative numeral else .error .malformed
        | none => .error .malformed
      else
        match readNumeral? 10 'e' ('0' :: x :: c :: rest) with
        | some numeral => decimalValue negative numeral
        | none => .error .malformed
    | plain =>
      match readNumeral? 10 'e' plain with
      | some numeral => decimalValue negative numeral
      | none => .error .malformed

end MonitorCoverage.Binary64
