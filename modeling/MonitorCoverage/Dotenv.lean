import MonitorCoverage.Text.Blank
import MonitorCoverage.Yaml.Node

/-!
# Files of variables

A file gives a variable on each line: a name, an equals sign or a colon, and a value. A value may
stand in quotes, and then it may go on over further lines. In a value that does not stand in single
quotes, other variables are replaced by what they stand for.
-/

namespace MonitorCoverage.Dotenv

/-- Characters that may stand around the parts of a line. -/
def isSpace (c : Char) : Bool :=
  c = ' ' || c = '\t' || c = '\n' || c = '\r' || c = Char.ofNat 0x0C

/-! ## Lines -/

/-- The lines of a text, after the characters of the first one found before, last first. A line ends
with a carriage return, a newline or both. -/
def linesFrom (found : List Char) : List Char → List (List Char)
  | [] => [found.reverse]
  | '\r' :: '\n' :: rest => found.reverse :: linesFrom [] rest
  | c :: rest =>
    if c = '\r' || c = '\n' then found.reverse :: linesFrom [] rest
    else linesFrom (c :: found) rest

/-- The lines of a text, without the mark of its encoding. -/
def lines : List Char → List (List Char)
  | c :: rest => if c = Char.ofNat 0xFEFF then linesFrom [] rest else linesFrom [] (c :: rest)
  | [] => []

/-- The place of the last of some character. -/
def lastPlace? (c : Char) (cs : List Char) : Option Nat :=
  (cs.reverse.idxOf? c).map fun place => cs.length - 1 - place

def isQuote (c : Char) : Bool := c = '"' || c = '\''

/-- The quote with which the value on a line starts, unless the line closes it. A quote behind a
backslash closes nothing; where blanks follow the first quote, the backslash is looked for too far
to the left. -/
def openQuote? (line : List Char) : Option Char :=
  match line.idxOf? '=' <|> line.idxOf? ':' with
  | none | some 0 => none
  | some place =>
    match Text.trimWhere Text.isBlank (line.drop (place + 1)) with
    | [] => none
    | quote :: rest =>
      if !isQuote quote then none
      else
        match lastPlace? quote (Text.trimWhere Text.isBlank rest) with
        | none => some quote
        | some place => if (quote :: rest)[place]? = some '\\' then some quote else none

/-- Whether a further line closes a quote. -/
def closesQuote (quote : Char) (cs : List Char) : Bool :=
  match lastPlace? quote cs with
  | none => false
  | some 0 => true
  | some (place + 1) => cs[place]? ≠ some '\\'

/-- What was gathered of a file. -/
structure Gathered where
  /-- Whole assignments, the last first. -/
  whole : List (List Char) := []
  /-- An assignment with the quote that it does not close. -/
  part? : Option (Char × List Char) := none

def Gathered.add (gathered : Gathered) (line : List Char) : Gathered :=
  match gathered.part? with
  | some (quote, part) =>
    let part := part ++ '\n' :: line
    if closesQuote quote line then { whole := part :: gathered.whole }
    else { gathered with part? := some (quote, part) }
  | none =>
    let line := Text.trimWhere Text.isBlank line
    if line.isEmpty || line.head? = some '#' then gathered
    else
      match openQuote? line with
      | some quote => { gathered with part? := some (quote, line) }
      | none => { gathered with whole := line :: gathered.whole }

/-- The assignments of a text, unless a quote stays open. -/
def assignments? (cs : List Char) : Option (List (List Char)) :=
  let gathered := (lines cs).foldl Gathered.add {}
  match gathered.part? with
  | some _ => none
  | none => some gathered.whole.reverse

/-! ## Assignments -/

/-- Whether only spaces are left, and a comment up to the end. -/
def isRest (cs : List Char) : Bool :=
  match cs.dropWhile isSpace with
  | [] => true
  | c :: comment => c = '#' && !comment.contains '\n'

/-- The longest text up to a quote after which only a rest is left. -/
def upToQuote? (quote : Char) : List Char → Option (List Char)
  | [] => none
  | c :: cs =>
    match upToQuote? quote cs with
    | some text => some (c :: text)
    | none => if c = quote && isRest cs then some [] else none

/-- The value at the front of a text of which only a rest is left then. -/
def value? (cs : List Char) : Option (List Char) :=
  let inQuotes? : Option (List Char) := match cs with
    | [] => none
    | quote :: rest =>
      if isQuote quote then (upToQuote? quote rest).map fun text => quote :: text ++ [quote]
      else none
  match inQuotes? with
  | some value => some value
  | none =>
    let plain := cs.takeWhile fun c => c ≠ '#' && c ≠ '\n'
    if isRest (cs.drop plain.length) then some plain else none

/-- The value behind some of the spaces at the front of a text, as few of them as can be. -/
def valueAfterSpaces? : List Char → Option (List Char)
  | [] => none
  | c :: cs =>
    if !isSpace c then none
    else
      match value? cs with
      | some value => some value
      | none => valueAfterSpaces? cs

/-- A name and its value as they are written. Between them stands an equals sign, with spaces or
without, or a colon that spaces follow. -/
def assignment? (cs : List Char) : Option (List Char × List Char) :=
  let name := cs.takeWhile fun c => c.isAlphanum || c = '_' || c = '.'
  let rest := cs.drop name.length
  if name.isEmpty then none
  else
    match rest with
    | ':' :: rest => (valueAfterSpaces? rest).map fun value => (name, value)
    | rest =>
      match rest.dropWhile isSpace with
      | '=' :: rest => (value? (rest.dropWhile isSpace)).map fun value => (name, value)
      | _ => none

/-- An assignment, before which the word `export` may stand. -/
def entry? (line : List Char) : Option (List Char × List Char) :=
  match line with
  | 'e' :: 'x' :: 'p' :: 'o' :: 'r' :: 't' :: c :: rest =>
    if isSpace c then assignment? (rest.dropWhile isSpace) <|> assignment? line
    else assignment? line
  | _ => assignment? line

/-! ## Values -/

/-- Replaces a letter that follows a backslash, and the backslash. -/
def replaceEscaped (letter meaning : Char) : List Char → List Char
  | '\\' :: c :: rest =>
    if c = letter then meaning :: replaceEscaped letter meaning rest
    else '\\' :: replaceEscaped letter meaning (c :: rest)
  | c :: rest => c :: replaceEscaped letter meaning rest
  | [] => []
termination_by cs => cs.length

/-- Removes backslashes before everything but a dollar sign. -/
def removeBackslashes : List Char → List Char
  | '\\' :: c :: rest =>
    if c = '$' then '\\' :: c :: removeBackslashes rest else c :: removeBackslashes rest
  | c :: rest => c :: removeBackslashes rest
  | [] => []

/-- The name of a variable at the front of a text, in braces or without, and what follows it. A
brace need not have its counterpart. -/
def takeVariable (cs : List Char) : List Char × List Char :=
  let inside := match cs with
    | '\x7b' :: rest => rest
    | cs => cs
  let name := inside.takeWhile fun c => c.isUpper || c.isDigit || c = '_'
  match inside.drop name.length with
  | '\x7d' :: rest => (name, rest)
  | rest => (name, rest)

/-- The names of the variables after dollar signs. -/
def namesIn : List Char → List (List Char)
  | [] => []
  | c :: rest => if c = '$' then (takeVariable rest).1 :: namesIn rest else namesIn rest

/-- Replaces the variables after dollar signs. A dollar sign behind a backslash stands for itself. A
text of some length has at most as many dollar signs. -/
def expand (meaning : List Char → List Char) : Nat → List Char → List Char
  | 0, cs => cs
  | _ + 1, [] => []
  | fuel + 1, '\\' :: '$' :: rest => '$' :: expand meaning fuel rest
  | fuel + 1, '$' :: rest =>
    match takeVariable rest with
    | ([], _) => '$' :: expand meaning fuel rest
    | (name, rest) => meaning name ++ expand meaning fuel rest
  | fuel + 1, c :: rest => c :: expand meaning fuel rest

/-- The text between two quotes, if a value stands between them. -/
def between? (quote : Char) (cs : List Char) : Option (List Char) :=
  match cs with
  | c :: d :: rest =>
    if c = quote && (d :: rest).getLast? = some quote then some (d :: rest).dropLast else none
  | _ => none

/-- What a value stands for as it is written. -/
def meaningOf (meaning : List Char → List Char) (written : List Char) : List Char :=
  let value := Text.trimWhere Text.isBlank written
  match between? '\'' value with
  | some text => text
  | none =>
    let text := match between? '"' value with
      | some text =>
        removeBackslashes (replaceEscaped 'r' '\r' (replaceEscaped 'n' '\n' text))
      | none => value
    expand meaning text.length text

/-! ## Files -/

abbrev Variables := List (List Char × List Char)

/-- What a name stands for: its value in the environment, or else in what was read before. -/
def lookup (environment : Bytes → Bytes) (known : Variables) (name : List Char) : List Char :=
  match environment (Text.encode name) with
  | [] => (known.lookup name).getD []
  | value => Text.lossyChars value

/-- Reads one more assignment. Of two values of one name the later holds. -/
def addEntry (environment : Bytes → Bytes) (known : Variables) (line : List Char) :
    Option Variables := do
  let (name, written) ← entry? line
  let value := meaningOf (lookup environment known) written
  return (name, value) :: known.filter fun pair => pair.1 ≠ name

/-- The mapping that a file consists of. -/
def read (environment : Bytes → Bytes) (content : Bytes) : Option Yaml.Node := do
  let entries ← assignments? (Text.lossyChars content)
  let known ← entries.foldlM (addEntry environment) []
  return .mapping (known.reverse.map fun (name, value) =>
    (String.ofList name, .text (String.ofList value)))

end MonitorCoverage.Dotenv
