import MonitorCoverage.Yaml.Flow

/-!
# Texts, numbers and moments in TOML

A text stands in double quotes, with escapes, or in single quotes, without; three quotes open a text
of several lines. Everything else is a word, a number or a moment.
-/

namespace MonitorCoverage.Toml

/-- Characters that may stand on a line: all but control characters, of which only the tab may. -/
def isTextChar (c : Char) : Bool := c = '\t' || (0x20 ≤ c.toNat && c.toNat ≠ 0x7F)

def isBlank (c : Char) : Bool := c = ' ' || c = '\t'

def skipBlanks (cs : List Char) : List Char := cs.dropWhile isBlank

/-- What follows the end of a line. -/
def afterBreak? : List Char → Option (List Char)
  | '\n' :: rest => some rest
  | '\r' :: '\n' :: rest => some rest
  | _ => none

/-! ## Texts -/

/-- The character that an escape stands for, after its backslash, and what follows the escape. -/
def escape? : List Char → Option (Char × List Char)
  | [] => none
  | c :: cs =>
    match c with
    | 'b' => some (Char.ofNat 0x08, cs)
    | 't' => some ('\t', cs)
    | 'n' => some ('\n', cs)
    | 'f' => some (Char.ofNat 0x0C, cs)
    | 'r' => some ('\r', cs)
    | 'e' => some (Char.ofNat 0x1B, cs)
    | '"' => some ('"', cs)
    | '\\' => some ('\\', cs)
    | 'u' => Yaml.numberedChar? 4 cs
    | 'U' => Yaml.numberedChar? 8 cs
    | _ => none

/-- The quotes that belong to a text which ends here, and what follows the text. Before the three
quotes at the end of several lines two more may stand. -/
def closing? (quote : Char) (isLong : Bool) (cs : List Char) : Option (List Char × List Char) :=
  match isLong, cs with
  | false, c :: rest => if c = quote then some ([], rest) else none
  | true, a :: b :: c :: rest =>
    if a = quote && b = quote && c = quote then
      let more := (rest.takeWhile (· = quote)).take 2
      some (more, rest.drop more.length)
    else none
  | _, _ => none

/-- The rest of a text in quotes, after characters found before, last first. In a long text a
backslash at the end of a line takes all that is blank with it. -/
def readText (quote : Char) (isLong : Bool) (found : List Char) :
    Nat → List Char → Option (String × List Char)
  | 0, _ => none
  | fuel + 1, cs =>
    match closing? quote isLong cs with
    | some (more, rest) => some (String.ofList (found.reverse ++ more), rest)
    | none =>
      match cs with
      | [] => none
      | '\r' :: '\n' :: rest =>
        if isLong then readText quote isLong ('\n' :: '\r' :: found) fuel rest else none
      | c :: rest =>
        if c = '\\' && quote = '"' then
          match afterBreak? (skipBlanks rest), escape? rest with
          | some rest, _ =>
            if isLong then
              readText quote isLong found fuel
                (rest.dropWhile fun c => isBlank c || c = '\n' || c = '\r')
            else none
          | none, some (char, rest) => readText quote isLong (char :: found) fuel rest
          | none, none => none
        else if isTextChar c || (isLong && c = '\n') then
          readText quote isLong (c :: found) fuel rest
        else none

/-- A text on one line. -/
def readShort : List Char → Option (String × List Char)
  | quote :: rest =>
    if quote = '"' || quote = '\'' then readText quote false [] (rest.length + 1) rest else none
  | [] => none

/-- A text. A break right after the quotes that open several lines does not count. -/
def readQuoted (cs : List Char) : Option (String × List Char) :=
  match cs with
  | '"' :: '"' :: '"' :: rest =>
    readText '"' true [] (rest.length + 1) ((afterBreak? rest).getD rest)
  | '\'' :: '\'' :: '\'' :: rest =>
    readText '\'' true [] (rest.length + 1) ((afterBreak? rest).getD rest)
  | cs => readShort cs

/-! ## Numbers -/

/-- Whether each mark stands between digits. -/
def marksFit (isMark isDigit : Char → Bool) (isAfterDigit : Bool) : List Char → Bool
  | [] => true
  | c :: rest =>
    if isMark c then isAfterDigit && rest.head?.any isDigit && marksFit isMark isDigit false rest
    else marksFit isMark isDigit (isDigit c) rest

def withoutUnderscores (cs : List Char) : List Char := cs.filter (· != '_')

/-- An integer in a base, after the mark of the base, and what follows it. -/
def readBased (base : Nat) (cs : List Char) : Option (Yaml.Node × List Char) :=
  let isDigit (c : Char) : Bool := (Binary64.digitIn? base c).isSome
  let digits := cs.takeWhile fun c => isDigit c || c = '_'
  if !marksFit (· = '_') isDigit false digits then none
  else
    match Decimal.readSigned (Decimal.digitsNat? base) (withoutUnderscores digits) with
    | .ok i => some (.int i.toInt, cs.drop digits.length)
    | .error _ => none

/-- A decimal number from its first to its last character. A whole part of several digits starts
with no zero. -/
def decimal? (cs : List Char) : Option Yaml.Node :=
  let plain := withoutUnderscores cs
  let hasLeadingZero := match (Binary64.takeSign plain).2 with
    | '0' :: d :: _ => d.isDigit
    | _ => false
  if !marksFit (fun c => c = '_' || c = '.') Char.isDigit false cs || hasLeadingZero then none
  else if cs.any fun c => c = '.' || c = 'e' || c = 'E' then
    (Binary64.read plain).toOption.map .float
  else (Decimal.readInteger plain).toOption.map fun i => .int i.toInt

/-- A number, and what follows it. -/
def readNumber (cs : List Char) : Option (Yaml.Node × List Char) :=
  match cs with
  | '0' :: 'x' :: rest => readBased 16 rest
  | '0' :: 'o' :: rest => readBased 8 rest
  | '0' :: 'b' :: rest => readBased 2 rest
  | '+' :: 'i' :: 'n' :: 'f' :: rest => some (.float (.infinity false), rest)
  | '-' :: 'i' :: 'n' :: 'f' :: rest => some (.float (.infinity true), rest)
  | '+' :: 'n' :: 'a' :: 'n' :: rest => some (.float .nan, rest)
  | '-' :: 'n' :: 'a' :: 'n' :: rest => some (.float .nan, rest)
  | cs =>
    let number := cs.takeWhile fun c => c.isDigit || ['+', '-', '_', '.', 'e', 'E'].contains c
    (decimal? number).map fun node => (node, cs.drop number.length)

/-! ## Moments -/

/-- A number of two digits up to a bound, and what follows it. -/
def twoDigits? (bound : Nat) : List Char → Option (Nat × List Char)
  | a :: b :: rest =>
    let n := (a.toNat - 48) * 10 + (b.toNat - 48)
    if a.isDigit && b.isDigit && n ≤ bound then some (n, rest) else none
  | _ => none

/-- What follows a date. -/
def afterDate? (cs : List Char) : Option (List Char) := do
  let year := cs.take 4
  guard (year.length = 4 && year.all Char.isDigit)
  let rest ← Yaml.after? '-' (cs.drop 4)
  let (month, rest) ← twoDigits? 12 rest
  let rest ← Yaml.after? '-' rest
  let (day, rest) ← twoDigits? 31 rest
  guard (1 ≤ month && 1 ≤ day
    && day ≤ Yaml.daysIn (Binary64.valueOf 10 (year.map fun c => c.toNat - 48)) month)
  some rest

/-- What follows a time of day. A minute may have a second too many. -/
def afterTime? (cs : List Char) : Option (List Char) := do
  let (_, rest) ← twoDigits? 23 cs
  let rest ← Yaml.after? ':' rest
  let (_, rest) ← twoDigits? 59 rest
  let rest ← Yaml.after? ':' rest
  let (_, rest) ← twoDigits? 60 rest
  match rest with
  | '.' :: d :: places => if d.isDigit then some (places.dropWhile Char.isDigit) else none
  | rest => some rest

/-- Nothing, or a zone: `Z`, or a sign with hours and minutes. -/
def isZoneOrNone : List Char → Bool
  | [] => true
  | ['Z'] | ['z'] => true
  | sign :: rest =>
    (sign = '+' || sign = '-')
      && match twoDigits? 23 rest with
        | some (_, ':' :: rest) => (twoDigits? 59 rest).any (·.2.isEmpty)
        | _ => false

/-- A date, a time of day or both, and then perhaps a zone. -/
def isMoment (cs : List Char) : Bool :=
  match afterDate? cs with
  | none => afterTime? cs = some []
  | some [] => true
  | some (mark :: rest) =>
    (mark = 'T' || mark = 't' || mark = ' ') && (afterTime? rest).any isZoneOrNone

/-- Whether digits at the front of a text begin a date or a time of day. -/
def beginsMoment (cs : List Char) : Bool :=
  let digits := cs.takeWhile Char.isDigit
  let mark? := (cs.drop digits.length).head?
  (digits.length = 2 && mark? = some ':') || (digits.length = 4 && mark? = some '-')

/-- The characters of a moment, in which one space may stand before a digit, and what follows. -/
def takeMoment (cs : List Char) : List Char × List Char :=
  let isMark (c : Char) : Bool :=
    c.isDigit || ['T', 't', 'Z', 'z', ':', '.', '+', '-'].contains c
  let front := cs.takeWhile isMark
  match cs.drop front.length with
  | ' ' :: d :: rest =>
    if d.isDigit then (front ++ ' ' :: d :: rest.takeWhile isMark, rest.dropWhile isMark)
    else (front, ' ' :: d :: rest)
  | rest => (front, rest)

/-- What is no text and no collection, and what follows it. -/
def readScalar (cs : List Char) : Option (Yaml.Node × List Char) :=
  match cs with
  | 't' :: 'r' :: 'u' :: 'e' :: rest => some (.bool true, rest)
  | 'f' :: 'a' :: 'l' :: 's' :: 'e' :: rest => some (.bool false, rest)
  | 'i' :: 'n' :: 'f' :: rest => some (.float (.infinity false), rest)
  | 'n' :: 'a' :: 'n' :: rest => some (.float .nan, rest)
  | cs =>
    if beginsMoment cs then
      let (moment, rest) := takeMoment cs
      if isMoment moment then some (.timestamp, rest) else none
    else readNumber cs

end MonitorCoverage.Toml
