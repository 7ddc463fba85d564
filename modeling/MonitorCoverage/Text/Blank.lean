import MonitorCoverage.Text.Utf8

/-!
# Blanks

The characters that Unicode counts as white space, and texts without blanks around them.
-/

namespace MonitorCoverage.Text

def isBlank (c : Char) : Bool :=
  let n := c.toNat
  (0x09 ≤ n && n ≤ 0x0D) || n = 0x20 || n = 0x85 || n = 0xA0 || n = 0x1680
    || (0x2000 ≤ n && n ≤ 0x200A) || n = 0x2028 || n = 0x2029 || n = 0x202F || n = 0x205F
    || n = 0x3000

def Piece.isBlank : Piece → Bool
  | .char c => Text.isBlank c
  | .stray _ => false

/-- A list without the elements of a kind at its two ends. -/
def trimWhere {α : Type} (p : α → Bool) (items : List α) : List α :=
  ((items.dropWhile p).reverse.dropWhile p).reverse

/-- A byte string without the blanks at its two ends. A stray byte is no blank. -/
def trim (bytes : Bytes) : Bytes := ofPieces (trimWhere Piece.isBlank (pieces bytes))

end MonitorCoverage.Text
