import MonitorCoverage.Text.Base64
import MonitorCoverage.Text.Quoted
import MonitorCoverage.Yaml.Character
import MonitorCoverage.Yaml.Scalar

/-!
# Writing strings as YAML

A string is written plainly if it then stands for itself, with line breaks as a literal block, and
else in quotes. What is not valid UTF-8 is written in base 64. How a string may be written depends
on its blanks, breaks and special characters, and on the characters that begin other constructs.
-/

namespace MonitorCoverage.Yaml

/-! ## What a string allows -/

/-- Whether a string begins like another construct. -/
def hasLeadIndicator : List Char → Bool
  | '-' :: '-' :: '-' :: _ => true
  | '.' :: '.' :: '.' :: _ => true
  | [c] => isLeadIndicator c || c = '?' || c = ':' || c = '-'
  | c :: d :: _ => isLeadIndicator c || ((c = '?' || c = ':' || c = '-') && isBlank d)
  | [] => false

/-- Whether there is a colon before a blank or the end, or a number sign after a blank, behind the
first character. -/
def hasInnerIndicator : List Char → Bool
  | a :: b :: rest =>
    (b = ':' && (match rest with
      | [] => true
      | c :: _ => isBlank c))
    || (b = '#' && (isBlank a || isBreak a || a.toNat = 0)) || hasInnerIndicator (b :: rest)
  | _ => false

/-- Whether a character of one kind stands before one of another. -/
def hasPair (p q : Char → Bool) : List Char → Bool
  | a :: b :: rest => (p a && q b) || hasPair p q (b :: rest)
  | _ => false

/-- Whether a string has characters that only double quotes can hold. -/
def hasSpecial (cs : List Char) : Bool := cs.any fun c => c != '\t' && !isPrintable c

def isSpace (c : Char) : Bool := c = ' '

/-- Whether a character of a kind stands at one of the ends. -/
def hasAtEnds (p : Char → Bool) (cs : List Char) : Bool :=
  cs.head?.any p || cs.getLast?.any p

def allowsPlain (cs : List Char) : Bool :=
  !hasAtEnds isSpace cs && !cs.any isBreak && !cs.contains '\t' && !hasSpecial cs
    && !hasLeadIndicator cs && !hasInnerIndicator cs

def allowsSingleQuotes (cs : List Char) : Bool :=
  !hasPair isBreak isSpace cs && !hasPair isSpace isBreak cs && !cs.contains '\t' && !hasSpecial cs

def allowsBlock (cs : List Char) : Bool :=
  !cs.getLast?.any isSpace && !hasPair isSpace isBreak cs && !hasSpecial cs

/-! ## The ways of writing -/

/-- The letter that stands for a character after a backslash. -/
def escapeLetter? (c : Char) : Option Char :=
  match c.toNat with
  | 0x00 => some '0'
  | 0x07 => some 'a'
  | 0x08 => some 'b'
  | 0x09 => some 't'
  | 0x0A => some 'n'
  | 0x0B => some 'v'
  | 0x0C => some 'f'
  | 0x0D => some 'r'
  | 0x1B => some 'e'
  | 0x22 => some '"'
  | 0x5C => some '\\'
  | 0x85 => some 'N'
  | 0x2028 => some 'L'
  | 0x2029 => some 'P'
  | _ => none

def escapeChar (c : Char) : List Char :=
  if isPrintable c && !isBreak c && c != '"' && c != '\\' then [c]
  else
    match escapeLetter? c with
    | some letter => ['\\', letter]
    | none =>
      let digits (mark : Char) (width : Nat) : List Char :=
        '\\' :: mark :: (Text.hexDigits c.toNat width).map Char.toUpper
      if c.toNat ≤ 0xFF then digits 'x' 2
      else if c.toNat ≤ 0xFFFF then digits 'u' 4
      else digits 'U' 8

def doubleQuoted (cs : List Char) : List Char := '"' :: cs.flatMap escapeChar ++ ['"']

/-- The text after breaks starts at the indentation. -/
def indentAfterBreaks (indent : Nat) (afterBreak : Bool) : List Char → List Char
  | [] => []
  | c :: rest =>
    if isBreak c then c :: indentAfterBreaks indent true rest
    else if afterBreak then
      List.replicate indent ' ' ++ c :: indentAfterBreaks indent false rest
    else c :: indentAfterBreaks indent false rest

def singleQuoted (indent : Nat) (cs : List Char) : List Char :=
  '\'' :: indentAfterBreaks indent false (cs.flatMap fun c => if c = '\'' then [c, c] else [c])
    ++ ['\'']

/-- What a block says of the breaks at its end: one is kept; none and more than one are marked. -/
def chomping (cs : List Char) : List Char :=
  match cs.reverse with
  | last :: rest =>
    if !isBreak last then ['-']
    else
      match rest with
      | [] => ['+']
      | before :: _ => if isBreak before then ['+'] else []
  | [] => ['-']

/-- A literal block. Its indentation is marked where its first line starts with a space or a
break. -/
def literalBlock (indent : Nat) (cs : List Char) : List Char :=
  let startsBlank := cs.head?.any fun c => isSpace c || isBreak c
  let startsBroken := cs.head?.any isBreak
  '|' :: (if startsBlank then ['4'] else []) ++ chomping cs
    ++ (if startsBroken then [] else ['\n']) ++ indentAfterBreaks indent true cs

/-- A valid string whose further lines start at an indentation. -/
def textScalar (indent : Nat) (cs : List Char) : List Char :=
  if cs.contains '\n' then
    if allowsBlock cs then literalBlock indent cs else doubleQuoted cs
  else if standsForItself cs then
    if allowsPlain cs then cs
    else if allowsSingleQuotes cs then singleQuoted indent cs
    else doubleQuoted cs
  else doubleQuoted cs

/-- Pieces of a length, each with a newline after it. -/
def chunked (length : Nat) : Nat → List Char → List Char
  | 0, _ => []
  | fuel + 1, cs =>
    if cs.isEmpty then [] else cs.take length ++ '\n' :: chunked length fuel (cs.drop length)

/-- Bytes in base 64; a long text is cut into lines. -/
def binaryScalar (indent : Nat) (bytes : Bytes) : List Char :=
  let digits := Text.base64 bytes
  "!!binary ".toList ++
    if digits.length < 70 then digits else literalBlock indent (chunked 70 digits.length digits)

/-- A string as the value of a key, with the end of its line. -/
def stringScalar (indent : Nat) (bytes : Bytes) : List Char :=
  let chars :=
    if Text.isValidUtf8 bytes then textScalar indent (Text.lossyChars bytes)
    else binaryScalar indent bytes
  if chars.getLast?.any isBreak then chars else chars ++ ['\n']

end MonitorCoverage.Yaml
