import MonitorCoverage.Yaml.Character
import MonitorCoverage.Yaml.Node

/-!
# Scalars in quotes, and collections in brackets

Both may go over several lines; every break in the text is a `'\n'` here. A break inside a scalar
stands for a space, and of several in a row each but the first for a break.
-/

namespace MonitorCoverage.Yaml

/-- Skips blanks, breaks and comments. A comment starts after a blank. -/
def skipGapFrom (inComment afterBlank : Bool) : List Char → List Char
  | [] => []
  | c :: cs =>
    if c = '\n' then skipGapFrom false true cs
    else if inComment then skipGapFrom true true cs
    else if isBlank c then skipGapFrom false true cs
    else if c = '#' && afterBlank then skipGapFrom true true cs
    else c :: cs

def skipGap (cs : List Char) : List Char := skipGapFrom false false cs

/-! ## Scalars -/

/-- The number of breaks at the front of a text, with the blanks around them, and what follows. -/
def takeBreaks (breaks : Nat) : List Char → Nat × List Char
  | [] => (breaks, [])
  | c :: cs =>
    if c = '\n' then takeBreaks (breaks + 1) cs
    else if isBlank c then takeBreaks breaks cs
    else (breaks, c :: cs)

/-- What breaks in a row stand for. -/
def foldedBreaks : Nat → List Char
  | 0 => []
  | 1 => [' ']
  | breaks + 2 => List.replicate (breaks + 1) '\n'

/-- The rest of a scalar in single quotes, where a quote is written twice. -/
def readSingle (found : List Char) : Nat → List Char → Option (List Char × List Char)
  | 0, _ => none
  | _ + 1, [] => none
  | fuel + 1, '\'' :: '\'' :: cs => readSingle ('\'' :: found) fuel cs
  | _ + 1, '\'' :: cs => some (found.reverse, cs)
  | fuel + 1, '\n' :: cs =>
    let (breaks, cs) := takeBreaks 1 cs
    readSingle (foldedBreaks breaks ++ found.dropWhile isBlank) fuel cs
  | fuel + 1, c :: cs => readSingle (c :: found) fuel cs

/-- The character that a letter behind a backslash stands for. -/
def escapedChar? (c : Char) : Option Char :=
  match c with
  | '0' => some (Char.ofNat 0)
  | 'a' => some (Char.ofNat 7)
  | 'b' => some (Char.ofNat 8)
  | 't' => some '\t'
  | '\t' => some '\t'
  | 'n' => some '\n'
  | 'v' => some (Char.ofNat 0x0B)
  | 'f' => some (Char.ofNat 0x0C)
  | 'r' => some '\r'
  | 'e' => some (Char.ofNat 0x1B)
  | ' ' => some ' '
  | '"' => some '"'
  | '\'' => some '\''
  | '/' => some '/'
  | '\\' => some '\\'
  | 'N' => some (Char.ofNat 0x85)
  | '_' => some (Char.ofNat 0xA0)
  | 'L' => some (Char.ofNat 0x2028)
  | 'P' => some (Char.ofNat 0x2029)
  | _ => none

/-- The number of hexadecimal digits that a letter behind a backslash announces. -/
def escapeWidth? (c : Char) : Option Nat :=
  match c with
  | 'x' => some 2
  | 'u' => some 4
  | 'U' => some 8
  | _ => none

/-- The character whose number is written in a number of hexadecimal digits. -/
def numberedChar? (width : Nat) (cs : List Char) : Option (Char × List Char) :=
  let (digits, rest) := cs.splitAt width
  if digits.length = width then
    match Decimal.digitsNat? 16 digits with
    | some n => if n.isValidChar then some (Char.ofNat n, rest) else none
    | none => none
  else none

/-- The rest of a scalar in double quotes. A break behind a backslash stands for nothing. -/
def readDouble (found : List Char) : Nat → List Char → Option (List Char × List Char)
  | 0, _ => none
  | _ + 1, [] => none
  | _ + 1, '"' :: cs => some (found.reverse, cs)
  | fuel + 1, '\n' :: cs =>
    let (breaks, cs) := takeBreaks 1 cs
    readDouble (foldedBreaks breaks ++ found.dropWhile isBlank) fuel cs
  | fuel + 1, '\\' :: '\n' :: cs =>
    let (breaks, cs) := takeBreaks 0 cs
    readDouble (List.replicate breaks '\n' ++ found) fuel cs
  | fuel + 1, '\\' :: c :: cs =>
    match escapedChar? c, escapeWidth? c with
    | some plain, _ => readDouble (plain :: found) fuel cs
    | none, some width =>
      match numberedChar? width cs with
      | some (plain, cs) => readDouble (plain :: found) fuel cs
      | none => none
    | none, none => none
  | fuel + 1, c :: cs => readDouble (c :: found) fuel cs

/-- The characters that end a plain scalar inside brackets. -/
def isFlowIndicator (c : Char) : Bool := [',', '[', ']', '\x7b', '\x7d'].contains c

/-- Whether a plain scalar can start here. -/
def startsPlain (inFlow : Bool) : List Char → Bool
  | [] => false
  | c :: rest =>
    if c = '-' || c = '?' || c = ':' then
      match rest with
      | [] => false
      | next :: _ =>
        !isBlank next && next != '\n' && !(inFlow && (c != '-' || isFlowIndicator next))
    else !isLeadIndicator c && c != '\n' && !isBlank c

/-- A plain scalar inside brackets, as it is written, and what follows it. -/
def takePlain (found : List Char) : List Char → List Char × List Char
  | [] => (found.reverse, [])
  | c :: cs =>
    let ends :=
      isFlowIndicator c
      || (c = '#' && (found.head?.map fun last => isBlank last || last = '\n').getD false)
      || (c = ':' && (cs.head?.map fun next =>
            isBlank next || next = '\n' || isFlowIndicator next).getD true)
    if ends then (found.reverse, c :: cs) else takePlain (c :: found) cs

/-- The lines of a text. -/
def splitLines (current : List Char) : List Char → List (List Char)
  | [] => [current.reverse]
  | c :: cs =>
    if c = '\n' then current.reverse :: splitLines [] cs else splitLines (c :: current) cs

def dropBlanksRight (cs : List Char) : List Char := (cs.reverse.dropWhile isBlank).reverse

/-- Lines of a plain scalar as one text. -/
def foldLines (folded : List Char) (breaks : Nat) : List (List Char) → List Char
  | [] => folded
  | line :: lines =>
    match dropBlanksRight (line.dropWhile isBlank) with
    | [] => foldLines folded (breaks + 1) lines
    | text => foldLines (folded ++ foldedBreaks breaks ++ text) 1 lines

/-- A scalar as it is read. -/
structure Scalar where
  text : List Char
  isPlain : Bool

def Scalar.node (scalar : Scalar) : Node :=
  if scalar.isPlain then .ofPlain scalar.text else .text (String.ofList scalar.text)

/-- A scalar in quotes. -/
def readQuoted (cs : List Char) : Option (Scalar × List Char) :=
  match cs with
  | '"' :: cs => (readDouble [] (cs.length + 1) cs).map fun (text, rest) => (⟨text, false⟩, rest)
  | '\'' :: cs => (readSingle [] (cs.length + 1) cs).map fun (text, rest) => (⟨text, false⟩, rest)
  | _ => none

/-- A scalar inside brackets. -/
def readFlowScalar (cs : List Char) : Option (Scalar × List Char) :=
  match cs with
  | '"' :: _ => readQuoted cs
  | '\'' :: _ => readQuoted cs
  | _ =>
    if startsPlain true cs then
      let (written, rest) := takePlain [] cs
      some (⟨foldLines [] 0 (splitLines [] written), true⟩, rest)
    else none

/-! ## Collections -/

mutual

/-- A scalar or a collection inside brackets. -/
def readFlow (fuel : Nat) (cs : List Char) : Option (Node × List Char) :=
  match fuel, cs with
  | 0, _ => none
  | fuel + 1, '[' :: cs => readItems fuel [] (skipGap cs)
  | fuel + 1, '\x7b' :: cs => readPairs fuel [] (skipGap cs)
  | _ + 1, cs => (readFlowScalar cs).map fun (scalar, rest) => (scalar.node, rest)
termination_by structural fuel

/-- The rest of a sequence. A comma may stand behind the last item. -/
def readItems (fuel : Nat) (found : List Node) (cs : List Char) : Option (Node × List Char) :=
  match fuel, cs with
  | 0, _ => none
  | _ + 1, ']' :: cs => some (.sequence found.reverse, cs)
  | fuel + 1, cs =>
    match readFlow fuel cs with
    | none => none
    | some (item, cs) =>
      match skipGap cs with
      | ',' :: cs => readItems fuel (item :: found) (skipGap cs)
      | ']' :: cs => some (.sequence (item :: found).reverse, cs)
      | _ => none
termination_by structural fuel

/-- The rest of a mapping. A key without a value has none, and no key may come twice. -/
def readPairs (fuel : Nat) (found : List (String × Node)) (cs : List Char) :
    Option (Node × List Char) :=
  match fuel, cs with
  | 0, _ => none
  | _ + 1, '\x7d' :: cs => some (.mapping found.reverse, cs)
  | fuel + 1, cs =>
    match readFlowScalar cs with
    | none => none
    | some (key, cs) =>
      let name := String.ofList key.text
      if found.any fun pair => pair.1 = name then none
      else
        match readPairValue fuel (skipGap cs) with
        | none => none
        | some (value, cs) =>
          match skipGap cs with
          | ',' :: cs => readPairs fuel ((name, value) :: found) (skipGap cs)
          | '\x7d' :: cs => some (.mapping ((name, value) :: found).reverse, cs)
          | _ => none
termination_by structural fuel

/-- The value behind a key, if there is one. -/
def readPairValue (fuel : Nat) (cs : List Char) : Option (Node × List Char) :=
  match fuel, cs with
  | 0, _ => none
  | fuel + 1, ':' :: cs =>
    match skipGap cs with
    | ',' :: rest => some (.null, ',' :: rest)
    | '\x7d' :: rest => some (.null, '\x7d' :: rest)
    | cs => readFlow fuel cs
  | _ + 1, cs => some (.null, cs)
termination_by structural fuel

end

end MonitorCoverage.Yaml
