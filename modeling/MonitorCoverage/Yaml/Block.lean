import MonitorCoverage.Text.Utf8
import MonitorCoverage.Yaml.Flow

/-!
# Documents laid out by indentation

Mappings and sequences are told by the indentation of their lines; scalars, and collections in
brackets, stand behind a key or a dash and may go on in lines that are indented deeper. Comments and
empty lines count nowhere. Block scalars, anchors, tags and keys that are no scalars are not read.
-/

namespace MonitorCoverage.Yaml

/-- A line without the spaces it begins with. -/
structure Line where
  indent : Nat
  text : List Char

namespace Line

def ofChars (cs : List Char) : Line :=
  ⟨(cs.takeWhile (· = ' ')).length, cs.dropWhile (· = ' ')⟩

def chars (line : Line) : List Char := List.replicate line.indent ' ' ++ line.text

/-- Whether there is nothing in a line but a comment. -/
def isEmpty (line : Line) : Bool :=
  match line.text.dropWhile isBlank with
  | [] => true
  | c :: _ => c = '#'

/-- Whether a line holds an item of a sequence. -/
def isItem (line : Line) : Bool :=
  match line.text with
  | ['-'] => true
  | '-' :: c :: _ => isBlank c
  | _ => false

/-- Whether a line is a mark of three equal characters between documents. -/
def isMark (c : Char) (line : Line) : Bool :=
  line.indent = 0 && line.text.take 3 = [c, c, c]
    && ((line.text.drop 3).head?.map isBlank).getD true

/-- Whether a line begins with a tab. -/
def isTabbed (line : Line) : Bool := line.text.head? = some '\t'

end Line

def linesOf (cs : List Char) : List Line := (splitLines [] cs).map Line.ofChars

/-- Lines as the text they were cut from. -/
def joinLines (lines : List Line) : List Char := ['\n'].intercalate (lines.map Line.chars)

def skipEmpty (lines : List Line) : List Line := lines.dropWhile Line.isEmpty

/-- The front of a line up to a comment, and whether there is one. -/
def cutComment (found : List Char) : List Char → List Char × Bool
  | [] => (dropBlanksRight found.reverse, false)
  | c :: cs =>
    if c = '#' && (found.head?.map isBlank).getD true then (dropBlanksRight found.reverse, true)
    else cutComment (c :: found) cs

/-- The key before the first colon that a blank or the end follows, and what is behind the colon. -/
def splitPlainKey (found : List Char) : List Char → Option (List Char × List Char)
  | [] => none
  | c :: cs =>
    if c = ':' && (cs.head?.map isBlank).getD true then some (dropBlanksRight found.reverse, cs)
    else if c = '#' && (found.head?.map isBlank).getD false then none
    else splitPlainKey (c :: found) cs

/-- The key that a line begins with, and what is behind its colon. -/
def splitKey (text : List Char) : Option (String × List Char) :=
  match readQuoted text with
  | some (key, rest) =>
    match rest.dropWhile isBlank with
    | ':' :: rest =>
      if (rest.head?.map isBlank).getD true then some (String.ofList key.text, rest) else none
    | _ => none
  | none =>
    if startsPlain false text then
      (splitPlainKey [] text).map fun (key, rest) => (String.ofList key, rest)
    else none

/-- The lines that continue a plain scalar: those indented by at least `floor`, up to the first
comment. None of them may hold a key. -/
def takeContinuation (floor : Nat) (found : List (List Char)) :
    List Line → Option (List (List Char) × List Line)
  | [] => some (found.reverse, [])
  | line :: lines =>
    match line.text.dropWhile isBlank with
    | [] => takeContinuation floor ([] :: found) lines
    | c :: cs =>
      if line.indent < floor || c = '#' then some (found.reverse, line :: lines)
      else
        let (text, hasComment) := cutComment [] (c :: cs)
        if (splitPlainKey [] text).isSome then none
        else if hasComment then some ((text :: found).reverse, lines)
        else takeContinuation floor (text :: found) lines

/-- A plain scalar that begins with a text and goes on in the lines that follow. -/
def readPlain (floor : Nat) (text : List Char) (lines : List Line) : Option (Node × List Line) :=
  let (front, hasComment) := cutComment [] text
  if !startsPlain false text || (splitPlainKey [] front).isSome then none
  else if hasComment then some (.ofPlain front, lines)
  else (takeContinuation floor [] lines).map fun (more, lines) =>
    (.ofPlain (foldLines [] 0 (front :: more)), lines)

/-- A scalar in quotes or a collection in brackets. Behind it the line holds nothing more. -/
def readEnclosed (text : List Char) (lines : List Line) : Option (Node × List Line) :=
  let cs := joinLines (⟨0, text⟩ :: lines)
  match readFlow (cs.length + 1) cs with
  | none => none
  | some (node, rest) =>
    let after := rest.takeWhile (· != '\n')
    if (Line.isEmpty ⟨0, after⟩) && after.head? != some '#' then
      some (node, (linesOf rest).drop 1)
    else none

/-- A scalar, or a collection in brackets, that begins with a text. -/
def readInline (floor : Nat) (text : List Char) (lines : List Line) : Option (Node × List Line) :=
  match text with
  | c :: _ =>
    if ['"', '\'', '[', '\x7b'].contains c then readEnclosed text lines
    else readPlain floor text lines
  | [] => none

mutual

/-- What stands in lines that are indented by at least `floor`. -/
def readNode (fuel floor : Nat) (lines : List Line) : Option (Node × List Line) :=
  match fuel with
  | 0 => none
  | fuel + 1 =>
    match skipEmpty lines with
    | [] => some (.null, [])
    | line :: rest =>
      if line.indent < floor then some (.null, line :: rest)
      else if line.isTabbed then none
      else if line.isItem then readSequence fuel line.indent [] (line :: rest)
      else if (splitKey line.text).isSome then readMapping fuel line.indent [] (line :: rest)
      else readInline floor line.text rest
termination_by structural fuel

/-- The rest of a mapping whose keys are indented by `indent`. No key may come twice. -/
def readMapping (fuel indent : Nat) (found : List (String × Node)) (lines : List Line) :
    Option (Node × List Line) :=
  match fuel with
  | 0 => none
  | fuel + 1 =>
    let finished := Node.mapping found.reverse
    match skipEmpty lines with
    | [] => some (finished, [])
    | line :: rest =>
      if line.indent < indent then some (finished, line :: rest)
      else if indent < line.indent || line.isItem then none
      else
        match splitKey line.text with
        | none => none
        | some (key, after) =>
          if found.any fun pair => pair.1 = key then none
          else
            match readValue fuel indent after rest with
            | none => none
            | some (value, rest) => readMapping fuel indent ((key, value) :: found) rest
termination_by structural fuel

/-- The value behind a key: on its line, or below it. The items of a sequence need not be indented
deeper than the key. -/
def readValue (fuel indent : Nat) (after : List Char) (lines : List Line) :
    Option (Node × List Line) :=
  match fuel with
  | 0 => none
  | fuel + 1 =>
    if Line.isEmpty ⟨0, after⟩ then
      match skipEmpty lines with
      | line :: rest =>
        if line.indent = indent && line.isItem then readSequence fuel indent [] (line :: rest)
        else readNode fuel (indent + 1) (line :: rest)
      | [] => some (.null, [])
    else readInline (indent + 1) (after.dropWhile isBlank) lines
termination_by structural fuel

/-- The rest of a sequence whose dashes are indented by `indent`. -/
def readSequence (fuel indent : Nat) (found : List Node) (lines : List Line) :
    Option (Node × List Line) :=
  match fuel with
  | 0 => none
  | fuel + 1 =>
    match skipEmpty lines with
    | [] => some (.sequence found.reverse, [])
    | line :: rest =>
      if line.indent < indent || (line.indent = indent && !line.isItem) then
        some (.sequence found.reverse, line :: rest)
      else if indent < line.indent then none
      else
        let after := line.text.drop 1
        let text := after.dropWhile isBlank
        let item := if Line.isEmpty ⟨0, after⟩ then readNode fuel (indent + 1) rest
          else readNode fuel (indent + 1)
            (⟨indent + 1 + (after.length - text.length), text⟩ :: rest)
        match item with
        | none => none
        | some (node, rest) => readSequence fuel indent (node :: found) rest
termination_by structural fuel

end

/-! ## Documents -/

/-- The characters that a document may hold. -/
def isAllowed (c : Char) : Bool :=
  let n := c.toNat
  n = 0x09 || n = 0x0A || n = 0x0D || (0x20 ≤ n && n ≤ 0x7E) || n = 0x85
    || (0xA0 ≤ n && n ≤ 0xFFFD) || 0x10000 ≤ n

/-- A text with every break written as one character. -/
def unifyBreaks : List Char → List Char
  | [] => []
  | '\r' :: '\n' :: cs => '\n' :: unifyBreaks cs
  | c :: cs => (if isBreak c then '\n' else c) :: unifyBreaks cs

/-- The lines of the first document. -/
def firstDocument (lines : List Line) : List Line :=
  let isEnd (line : Line) : Bool := line.isMark '-' || line.isMark '.'
  match skipEmpty lines with
  | [] => []
  | line :: rest =>
    if line.isMark '-' then ⟨3, line.text.drop 3⟩ :: rest.takeWhile fun line => !isEnd line
    else (line :: rest).takeWhile fun line => !isEnd line

/-- The first document of a text. -/
def readChars (cs : List Char) : Option Node :=
  let lines := (firstDocument (linesOf (unifyBreaks cs))).map fun line =>
    Line.ofChars line.chars
  match readNode (2 * cs.length + 4) 0 lines with
  | some (node, rest) => if (skipEmpty rest).isEmpty then some node else none
  | none => none

/-- The first document of a text, which has to be valid UTF-8. -/
def read (bytes : Bytes) : Option Node :=
  if Text.isValidUtf8 bytes then
    let cs := match Text.lossyChars bytes with
      | c :: cs => if c.toNat = 0xFEFF then cs else c :: cs
      | [] => []
    if cs.all isAllowed then readChars cs else none
  else none

end MonitorCoverage.Yaml
