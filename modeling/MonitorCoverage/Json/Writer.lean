import MonitorCoverage.Json.Basic
import MonitorCoverage.Text.Quoted

/-!
# Writing JSON

Documents have one value or bracket a line and two blanks for each level. In strings, the characters
that markup gives a meaning to are escaped, and so are the two line separators of Unicode.
-/

namespace MonitorCoverage.Json

def escapeChar (c : Char) : List Char :=
  if c = '"' || c = '\\' then ['\\', c]
  else if c.toNat = 0x08 then ['\\', 'b']
  else if c.toNat = 0x0C then ['\\', 'f']
  else if c = '\n' then ['\\', 'n']
  else if c = '\r' then ['\\', 'r']
  else if c = '\t' then ['\\', 't']
  else if c.toNat < 0x20 || c = '<' || c = '>' || c = '&' || c.toNat = 0x2028
      || c.toNat = 0x2029 then
    '\\' :: 'u' :: Text.hexDigits c.toNat 4
  else [c]

def stringChars (text : String) : List Char := '"' :: text.toList.flatMap escapeChar ++ ['"']

/-- A new line at a level. -/
def newline (level : Nat) : List Char := '\n' :: List.replicate (2 * level) ' '

mutual

/-- A value whose first line stands at a level. -/
def Value.charsAt (level : Nat) : Value → List Char
  | .null => ['n', 'u', 'l', 'l']
  | .bool true => ['t', 'r', 'u', 'e']
  | .bool false => ['f', 'a', 'l', 's', 'e']
  | .number literal => literal
  | .string text => stringChars text
  | .array [] => ['[', ']']
  | .array (item :: items) =>
    '[' :: newline (level + 1) ++ item.charsAt (level + 1) ++ itemsAt (level + 1) items
      ++ newline level ++ [']']
  | .object [] => ['\x7b', '\x7d']
  | .object ((key, value) :: members) =>
    '\x7b' :: newline (level + 1) ++ stringChars key ++ [':', ' '] ++ value.charsAt (level + 1)
      ++ membersAt (level + 1) members ++ newline level ++ ['\x7d']
termination_by structural value => value

/-- The items after the first. -/
def itemsAt (level : Nat) : List Value → List Char
  | [] => []
  | item :: items => ',' :: newline level ++ item.charsAt level ++ itemsAt level items
termination_by structural items => items

/-- The members after the first. -/
def membersAt (level : Nat) : List (String × Value) → List Char
  | [] => []
  | (key, value) :: members =>
    ',' :: newline level ++ stringChars key ++ [':', ' '] ++ value.charsAt level
      ++ membersAt level members
termination_by structural members => members

end

/-- A value as a document. -/
def Value.document (value : Value) : String := String.ofList (value.charsAt 0)

end MonitorCoverage.Json
