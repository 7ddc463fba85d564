import MonitorCoverage.Text.Utf8
import MonitorCoverage.Toml.Scalar
import MonitorCoverage.Toml.Table

/-!
# Reading TOML

A file is a sequence of keys with values, cut into sections by headers. A reader takes a part from
the front of a text and leaves what follows it.
-/

namespace MonitorCoverage.Toml

/-- What follows blanks, comments and ends of lines. -/
def skipLines (inComment : Bool) : List Char → Option (List Char)
  | [] => some []
  | '\r' :: '\n' :: rest => skipLines false rest
  | c :: rest =>
    if c = '\n' then skipLines false rest
    else if inComment then if isTextChar c then skipLines true rest else none
    else if c = '#' then skipLines true rest
    else if isBlank c then skipLines false rest
    else some (c :: rest)

/-- What follows the end of a line, before which only a comment is left. -/
def afterLine? (cs : List Char) : Option (List Char) :=
  let cs := match skipBlanks cs with
    | '#' :: rest => rest.dropWhile isTextChar
    | cs => cs
  if cs.isEmpty then some [] else afterBreak? cs

/-! ## Keys -/

/-- A key without points. -/
def readSimpleKey (cs : List Char) : Option (String × List Char) :=
  match cs.takeWhile fun c => c.isAlphanum || c = '_' || c = '-' with
  | [] => readShort cs
  | bare => some (String.ofList bare, cs.drop bare.length)

/-- Keys with points between them, after keys found before, last first. -/
def readKeys (found : List String) : Nat → List Char → Option (List String × List Char)
  | 0, _ => none
  | fuel + 1, cs =>
    match readSimpleKey cs with
    | none => none
    | some (key, rest) =>
      match skipBlanks rest with
      | '.' :: rest => readKeys (key :: found) fuel (skipBlanks rest)
      | rest => some ((key :: found).reverse, rest)

def readKey (cs : List Char) : Option (List String × List Char) := readKeys [] (cs.length + 1) cs

/-- Adds a value at the end of keys. -/
def addAt (sectionNumber : Nat) (keys : List String) (node : Yaml.Node) (table : Table) :
    Option Table :=
  match keys.getLast? with
  | none => none
  | some key => table.within (Table.byKey sectionNumber) (Table.addValue key node) keys.dropLast

/-! ## Values -/

mutual

/-- The value at the front of a text. -/
def readValue (fuel : Nat) (cs : List Char) : Option (Yaml.Node × List Char) :=
  match fuel with
  | 0 => none
  | fuel + 1 =>
    match cs with
    | '[' :: rest => readItems fuel [] rest
    | '\x7b' :: rest =>
      match skipBlanks rest with
      | '\x7d' :: rest => some (.mapping [], rest)
      | rest => readPairs fuel [] rest
    | c :: rest =>
      if c = '"' || c = '\'' then
        (readQuoted (c :: rest)).map fun (text, rest) => (.text text, rest)
      else readScalar (c :: rest)
    | [] => none
termination_by structural fuel

/-- The items of an array up to its end, after items found before, last first. A comma may follow
the last item. -/
def readItems (fuel : Nat) (found : List Yaml.Node) (cs : List Char) :
    Option (Yaml.Node × List Char) :=
  match fuel with
  | 0 => none
  | fuel + 1 =>
    match skipLines false cs with
    | none => none
    | some (']' :: rest) => some (.sequence found.reverse, rest)
    | some cs =>
      match readValue fuel cs with
      | none => none
      | some (item, rest) =>
        match skipLines false rest with
        | some (',' :: rest) => readItems fuel (item :: found) rest
        | some (']' :: rest) => some (.sequence (item :: found).reverse, rest)
        | _ => none
termination_by structural fuel

/-- The pairs of a table in braces from a key on, after pairs found before. -/
def readPairs (fuel : Nat) (found : Table) (cs : List Char) : Option (Yaml.Node × List Char) :=
  match fuel with
  | 0 => none
  | fuel + 1 =>
    match readKey cs with
    | some (keys, '=' :: rest) =>
      match readValue fuel (skipBlanks rest) with
      | none => none
      | some (node, rest) =>
        match addAt 0 keys node found with
        | none => none
        | some found =>
          match skipBlanks rest with
          | ',' :: rest => readPairs fuel found (skipBlanks rest)
          | '\x7d' :: rest => some (.mapping (nodesOfEntries found), rest)
          | _ => none
    | _ => none
termination_by structural fuel

end

/-! ## Files -/

/-- What was read of a file. -/
structure Draft where
  root : Table := []
  /-- The header of the section that is read. -/
  header : List String := []
  /-- How many headers were read. -/
  sectionNumber : Nat := 0

namespace Draft

/-- Begins a section. -/
def enter (draft : Draft) (add : String → Table → Option Table) (header : List String) :
    Option Draft := do
  let key ← header.getLast?
  let root ← draft.root.within Table.byHeader (add key) header.dropLast
  return { root, header, sectionNumber := draft.sectionNumber + 1 }

/-- Adds a value to the section that is read. -/
def add (draft : Draft) (keys : List String) (node : Yaml.Node) : Option Draft := do
  let root ←
    draft.root.within Table.byHeader (addAt draft.sectionNumber keys node) draft.header
  return { draft with root }

end Draft

/-- A header or a key with its value at the front of a text, added to what was read before, and what
follows it on its line. -/
def readExpression (draft : Draft) (cs : List Char) : Option (Draft × List Char) :=
  match cs with
  | '[' :: '[' :: rest =>
    match readKey (skipBlanks rest) with
    | some (header, ']' :: ']' :: rest) =>
      (draft.enter Table.stateRow header).map fun draft => (draft, rest)
    | _ => none
  | '[' :: rest =>
    match readKey (skipBlanks rest) with
    | some (header, ']' :: rest) => (draft.enter Table.state header).map fun draft => (draft, rest)
    | _ => none
  | cs =>
    match readKey cs with
    | some (keys, '=' :: rest) =>
      match readValue (2 * rest.length + 1) (skipBlanks rest) with
      | some (node, rest) => (draft.add keys node).map fun draft => (draft, rest)
      | none => none
    | _ => none

/-- Reads the lines of a file up to its end. -/
def readLines (draft : Draft) : Nat → List Char → Option Draft
  | 0, _ => none
  | fuel + 1, cs =>
    match skipLines false cs with
    | none => none
    | some [] => some draft
    | some cs =>
      match readExpression draft cs with
      | none => none
      | some (draft, rest) =>
        match afterLine? rest with
        | some rest => readLines draft fuel rest
        | none => none

/-- The mapping that a file consists of. -/
def read (content : Bytes) : Option Yaml.Node :=
  if Text.isValidUtf8 content then
    let cs := Text.lossyChars content
    (readLines {} (cs.length + 1) cs).map fun draft => .mapping (nodesOfEntries draft.root)
  else none

end MonitorCoverage.Toml
