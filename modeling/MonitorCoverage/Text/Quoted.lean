import MonitorCoverage.Text.Printable
import MonitorCoverage.Text.Utf8

/-!
# Quoted text

A byte string between double quotes. Quotes, backslashes and whatever cannot be printed are
escaped: a few control characters by a letter, other control characters and stray bytes by two
hexadecimal digits, other characters by four or eight. `unquote?` reads such a form back, and the
octal escapes and hexadecimal escapes for single bytes too.
-/

namespace MonitorCoverage.Text

/-- A number as lower-case hexadecimal digits, with zeros in front up to a number of digits. -/
def hexDigits (n width : Nat) : List Char :=
  (List.range width).map fun i => Nat.digitChar (n / Nat.pow 16 (width - 1 - i) % 16)

/-- The letter that stands for a control character after a backslash. -/
def controlLetter? (c : Char) : Option Char :=
  match c.toNat with
  | 0x07 => some 'a'
  | 0x08 => some 'b'
  | 0x0C => some 'f'
  | 0x0A => some 'n'
  | 0x0D => some 'r'
  | 0x09 => some 't'
  | 0x0B => some 'v'
  | _ => none

def quoteChar (c : Char) : List Char :=
  if c = '"' || c = '\\' then ['\\', c]
  else if isPrintable c then [c]
  else
    match controlLetter? c with
    | some letter => ['\\', letter]
    | none =>
      if c.toNat < 0x20 || c.toNat = 0x7F then '\\' :: 'x' :: hexDigits c.toNat 2
      else if c.toNat < 0x10000 then '\\' :: 'u' :: hexDigits c.toNat 4
      else '\\' :: 'U' :: hexDigits c.toNat 8

def quotePiece : Piece → List Char
  | .char c => quoteChar c
  | .stray byte => '\\' :: 'x' :: hexDigits byte.toNat 2

/-- A byte string in double quotes. -/
def quote (bytes : Bytes) : String :=
  String.ofList ('"' :: (pieces bytes).flatMap quotePiece ++ ['"'])

def hexValue? (byte : UInt8) : Option Nat :=
  if 48 ≤ byte && byte ≤ 57 then some (byte.toNat - 48)
  else if 97 ≤ byte && byte ≤ 102 then some (byte.toNat - 87)
  else if 65 ≤ byte && byte ≤ 70 then some (byte.toNat - 55)
  else none

/-- The value of a number of hexadecimal digits, and what follows them. -/
def takeHex? : Nat → Bytes → Nat → Option (Nat × Bytes)
  | 0, rest, value => some (value, rest)
  | _ + 1, [], _ => none
  | n + 1, byte :: rest, value =>
    match hexValue? byte with
    | some digit => takeHex? n rest (16 * value + digit)
    | none => none

def octalValue? (byte : UInt8) : Option Nat :=
  if 48 ≤ byte && byte ≤ 55 then some (byte.toNat - 48) else none

/-- What an escape stands for, given the bytes after the backslash, and what follows it. -/
def unescape? : Bytes → Option (Bytes × Bytes)
  | [] => none
  | mark :: rest =>
    match Char.ofNat mark.toNat with
    | 'a' => some ([0x07], rest)
    | 'b' => some ([0x08], rest)
    | 'f' => some ([0x0C], rest)
    | 'n' => some ([0x0A], rest)
    | 'r' => some ([0x0D], rest)
    | 't' => some ([0x09], rest)
    | 'v' => some ([0x0B], rest)
    | '\\' => some ([0x5C], rest)
    | '"' => some ([0x22], rest)
    | 'x' =>
      match takeHex? 2 rest 0 with
      | some (value, rest) => some ([UInt8.ofNat value], rest)
      | none => none
    | 'u' => ofCode (takeHex? 4 rest 0)
    | 'U' => ofCode (takeHex? 8 rest 0)
    | _ =>
      match octalValue? mark, rest with
      | some a, b :: c :: rest =>
        match octalValue? b, octalValue? c with
        | some b, some c =>
          let value := (8 * a + b) * 8 + c
          if value < 256 then some ([UInt8.ofNat value], rest) else none
        | _, _ => none
      | _, _ => none
where
  ofCode : Option (Nat × Bytes) → Option (Bytes × Bytes)
    | some (code, rest) =>
      if code.isValidChar then some (String.utf8EncodeChar (Char.ofNat code), rest) else none
    | none => none

/-- The bytes that the inside of a quoted form stands for. -/
def unquoteInside? : Nat → Bytes → Bytes → Option Bytes
  | _, [], found => some found.reverse
  | 0, _ :: _, _ => none
  | fuel + 1, byte :: rest, found =>
    if byte = 0x22 || byte = 0x0A then none
    else if byte = 0x5C then
      match unescape? rest with
      | some (bytes, rest) => unquoteInside? fuel rest (bytes.reverse ++ found)
      | none => none
    else
      match scanChar? (byte :: rest) with
      | some (c, width) =>
        unquoteInside? fuel (rest.drop (width - 1)) ((String.utf8EncodeChar c).reverse ++ found)
      | none =>
        unquoteInside? fuel rest ((String.utf8EncodeChar replacement).reverse ++ found)

end MonitorCoverage.Text
