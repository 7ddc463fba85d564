import MonitorCoverage.Json.Basic
import MonitorCoverage.Text.Utf8

/-!
# Reading JSON

A reader takes a value from the front of a text and leaves what follows it. Values nest at most ten
thousand deep. Of two members with one key the later holds, at the place of the earlier.
-/

namespace MonitorCoverage.Json

def isSpace (c : Char) : Bool := c = ' ' || c = '\t' || c = '\n' || c = '\r'

def skipSpace (cs : List Char) : List Char := cs.dropWhile isSpace

/-! ## Strings -/

def hexValue? (c : Char) : Option Nat :=
  if c.isDigit then some (c.toNat - 48)
  else if 'a' ≤ c && c ≤ 'f' then some (c.toNat - 87)
  else if 'A' ≤ c && c ≤ 'F' then some (c.toNat - 55)
  else none

/-- The number that four hexadecimal digits stand for. -/
def codeUnit? (a b c d : Char) : Option Nat :=
  match hexValue? a, hexValue? b, hexValue? c, hexValue? d with
  | some a, some b, some c, some d => some (((a * 16 + b) * 16 + c) * 16 + d)
  | _, _, _, _ => none

def isHighUnit (unit : Nat) : Bool := 0xD800 ≤ unit && unit < 0xDC00

def isLowUnit (unit : Nat) : Bool := 0xDC00 ≤ unit && unit < 0xE000

/-- The character of a code unit that stands alone. -/
def charOfUnit (unit : Nat) : Char :=
  if isHighUnit unit || isLowUnit unit then Text.replacement else Char.ofNat unit

def charOfPair (high low : Nat) : Char :=
  Char.ofNat (0x10000 + (high - 0xD800) * 0x400 + (low - 0xDC00))

/-- What a letter stands for after a backslash. -/
def escaped? (c : Char) : Option Char :=
  if c = '"' || c = '\\' || c = '/' then some c
  else if c = 'b' then some (Char.ofNat 0x08)
  else if c = 'f' then some (Char.ofNat 0x0C)
  else if c = 'n' then some '\n'
  else if c = 'r' then some '\r'
  else if c = 't' then some '\t'
  else none

/-- The rest of a string after its opening quote, after characters found before, last first. -/
def readString (found : List Char) : List Char → Option (String × List Char)
  | [] => none
  | '"' :: rest => some (String.ofList found.reverse, rest)
  | '\\' :: 'u' :: a :: b :: c :: d :: rest =>
    match codeUnit? a b c d with
    | none => none
    | some unit =>
      match rest with
      | '\\' :: 'u' :: a' :: b' :: c' :: d' :: rest' =>
        match codeUnit? a' b' c' d' with
        | none => none
        | some low =>
          if isHighUnit unit && isLowUnit low then readString (charOfPair unit low :: found) rest'
          else readString (charOfUnit unit :: found) ('\\' :: 'u' :: a' :: b' :: c' :: d' :: rest')
      | rest => readString (charOfUnit unit :: found) rest
  | '\\' :: c :: rest =>
    match escaped? c with
    | some char => readString (char :: found) rest
    | none => none
  | c :: rest => if c = '\\' || c.toNat < 0x20 then none else readString (c :: found) rest
termination_by cs => cs.length

/-! ## Numbers -/

/-- Some digits, of which there must be one, and what follows them. -/
def readDigits (cs : List Char) : Option (List Char × List Char) :=
  match cs.takeWhile Char.isDigit with
  | [] => none
  | digits => some (digits, cs.dropWhile Char.isDigit)

/-- The whole part of a number: a zero or digits that start with none. -/
def readWhole : List Char → Option (List Char × List Char)
  | '0' :: rest => some (['0'], rest)
  | cs => readDigits cs

/-- The places after a point, if there is a point. -/
def readPlaces : List Char → Option (List Char × List Char)
  | '.' :: rest => (readDigits rest).map fun (digits, rest) => ('.' :: digits, rest)
  | cs => some ([], cs)

/-- The exponent, if there is one. -/
def readPower : List Char → Option (List Char × List Char)
  | c :: rest =>
    if c = 'e' || c = 'E' then
      match rest with
      | s :: digits =>
        if s = '+' || s = '-' then
          (readDigits digits).map fun (digits, rest) => (c :: s :: digits, rest)
        else (readDigits rest).map fun (digits, rest) => (c :: digits, rest)
      | [] => none
    else some ([], c :: rest)
  | [] => some ([], [])

/-- A number as it is written. -/
def readNumber (cs : List Char) : Option (List Char × List Char) := do
  let (sign, cs) := match cs with
    | '-' :: rest => (['-'], rest)
    | cs => ([], cs)
  let (whole, cs) ← readWhole cs
  let (places, cs) ← readPlaces cs
  let (power, cs) ← readPower cs
  some (sign ++ whole ++ places ++ power, cs)

/-! ## Values -/

/-- How deep values may nest. -/
def deepest : Nat := 10000

mutual

/-- The value at the front of a text that starts with no space. -/
def readValue (fuel depth : Nat) (cs : List Char) : Option (Value × List Char) :=
  match fuel with
  | 0 => none
  | fuel + 1 =>
    match cs with
    | 'n' :: 'u' :: 'l' :: 'l' :: rest => some (.null, rest)
    | 't' :: 'r' :: 'u' :: 'e' :: rest => some (.bool true, rest)
    | 'f' :: 'a' :: 'l' :: 's' :: 'e' :: rest => some (.bool false, rest)
    | '"' :: rest => (readString [] rest).map fun (text, rest) => (.string text, rest)
    | '[' :: rest =>
      if depth = 0 then none
      else
        match skipSpace rest with
        | ']' :: rest => some (.array [], rest)
        | rest => readItems fuel (depth - 1) [] rest
    | '\x7b' :: rest =>
      if depth = 0 then none
      else
        match skipSpace rest with
        | '\x7d' :: rest => some (.object [], rest)
        | rest => readMembers fuel (depth - 1) [] rest
    | cs => (readNumber cs).map fun (literal, rest) => (.number literal, rest)
termination_by structural fuel

/-- The items of an array from an item on, after items found before, last first. -/
def readItems (fuel depth : Nat) (found : List Value) (cs : List Char) :
    Option (Value × List Char) :=
  match fuel with
  | 0 => none
  | fuel + 1 =>
    match readValue fuel depth cs with
    | none => none
    | some (item, rest) =>
      match skipSpace rest with
      | ',' :: rest => readItems fuel depth (item :: found) (skipSpace rest)
      | ']' :: rest => some (.array (item :: found).reverse, rest)
      | _ => none
termination_by structural fuel

/-- The members of an object from a key on, after members found before. -/
def readMembers (fuel depth : Nat) (found : List (String × Value)) (cs : List Char) :
    Option (Value × List Char) :=
  match fuel with
  | 0 => none
  | fuel + 1 =>
    match cs with
    | '"' :: rest =>
      match readString [] rest with
      | none => none
      | some (key, rest) =>
        match skipSpace rest with
        | ':' :: rest =>
          match readValue fuel depth (skipSpace rest) with
          | none => none
          | some (value, rest) =>
            let found := insertMember key value found
            match skipSpace rest with
            | ',' :: rest => readMembers fuel depth found (skipSpace rest)
            | '\x7d' :: rest => some (.object found, rest)
            | _ => none
        | _ => none
    | _ => none
termination_by structural fuel

end

/-- The first value of a text and what follows it. Each step of a reader takes a character, so the
length of the text bounds the number of steps. -/
def readFirst (cs : List Char) : Option (Value × List Char) :=
  readValue (2 * cs.length + 1) deepest (skipSpace cs)

/-- The value that a text consists of. -/
def read (cs : List Char) : Option Value :=
  match readFirst cs with
  | some (value, rest) => if (skipSpace rest).isEmpty then some value else none
  | none => none

end MonitorCoverage.Json
