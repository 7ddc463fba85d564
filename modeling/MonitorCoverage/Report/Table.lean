import MonitorCoverage.Report.Basic
import MonitorCoverage.Text.Blank
import MonitorCoverage.Text.Directive
import MonitorCoverage.Text.DisplayWidth

/-!
# Reports as tables

A table is drawn with box characters: a title, a header, a row for each method and a footer. Columns
are as wide as their widest cell, counted in display cells.
-/

namespace MonitorCoverage.Report

open Text (Piece)

/-! ## Lines of text -/

/-- The display width of text. An escape sequence, which ends with an `m`, takes no cells. -/
def widthFrom (inEscape : Bool) (width : Nat) : List Piece → Nat
  | [] => width
  | piece :: pieces =>
    let c := piece.charOrReplacement
    if inEscape then widthFrom (c != 'm') width pieces
    else if c.toNat = 0x1B then widthFrom true width pieces
    else widthFrom false (width + Text.displayWidth c) pieces

def width (pieces : List Piece) : Nat := widthFrom false 0 pieces

def piecesOf (text : String) : List Piece := text.toList.map .char

def isSpacePiece (piece : Piece) : Bool := piece = .char ' '

def blanks (n : Nat) : List Piece := List.replicate n (.char ' ')

/-- Text at the left of some cells. -/
def padRight (cells : Nat) (text : List Piece) : List Piece :=
  let text := (text.reverse.dropWhile isSpacePiece).reverse
  text ++ blanks (cells - width text)

/-- Text at the right of some cells. -/
def padLeft (cells : Nat) (text : List Piece) : List Piece :=
  let text := text.dropWhile isSpacePiece
  blanks (cells - width text) ++ text

/-- Text with four spaces for each tab. -/
def expandTabs (text : List Piece) : List Piece :=
  text.flatMap fun piece => if piece = .char '\t' then blanks 4 else [piece]

/-- The parts between separators; there is always at least one. -/
def splitPieces (isSeparator : Piece → Bool) : List Piece → List (List Piece)
  | [] => [[]]
  | piece :: pieces =>
    match splitPieces isSeparator pieces with
    | [] => [[piece]]
    | part :: parts =>
      if isSeparator piece then [] :: part :: parts else (piece :: part) :: parts

def lines (text : List Piece) : List (List Piece) := splitPieces (· = .char '\n') text

/-! ## Wrapping -/

/-- What is written of a wrapped text, last piece first, and the cells used on its last line. -/
structure Wrapped where
  written : List Piece
  column : Nat

namespace Wrapped

def newLine (wrapped : Wrapped) : Wrapped := ⟨.char '\n' :: wrapped.written, 0⟩

/-- One character more, on a new line if the last line is full. -/
def putChar (cells : Nat) (wrapped : Wrapped) (piece : Piece) : Wrapped :=
  let wrapped := if wrapped.column = cells then wrapped.newLine else wrapped
  let c := piece.charOrReplacement
  ⟨.char c :: wrapped.written, wrapped.column + Text.displayWidth c⟩

/-- One word more: whole if it fits, and else character by character. -/
def putWord (cells : Nat) (wrapped : Wrapped) (word : List Piece) : Wrapped :=
  let wrapped := if 0 < wrapped.column then ⟨.char ' ' :: wrapped.written, wrapped.column + 1⟩
    else wrapped
  if wrapped.column + width word ≤ cells then
    ⟨word.reverse ++ wrapped.written, wrapped.column + width word⟩
  else word.foldl (putChar cells) wrapped

def putWords (cells : Nat) (wrapped : Wrapped) : List (List Piece) → Wrapped
  | [] => wrapped
  | [word] => putWord cells wrapped word
  | word :: words =>
    let wrapped := putWord cells wrapped word
    putWords cells (if wrapped.column = cells then wrapped.newLine else wrapped) words

end Wrapped

def words (text : List Piece) : List (List Piece) :=
  (splitPieces Piece.isBlank text).filter fun word => !word.isEmpty

/-- The lines of a text that is to fit into some cells. A text that fits as a whole is kept. -/
def wrap (cells : Nat) (text : List Piece) : List (List Piece) :=
  let text := expandTabs text
  if width text ≤ cells then lines text
  else
    (lines text).flatMap fun line =>
      lines (Wrapped.putWords cells ⟨[], 0⟩ (words line)).written.reverse

/-! ## Cells -/

inductive Side where
  | left
  | right
  deriving DecidableEq, Repr

def Side.pad (side : Side) (cells : Nat) (text : List Piece) : List Piece :=
  match side with
  | left => padRight cells text
  | right => padLeft cells text

/-- The lines of a cell. -/
abbrev Cell := List (List Piece)

def cell (text : List Piece) : Cell := lines (expandTabs text)

def cellWidth (cell : Cell) : Nat := (cell.map width).foldl max 0

def textCell (text : String) : Cell := cell (piecesOf text)

def intCell (i : Int64) : Cell := textCell (Decimal.text i.toInt)

/-- Where colours are shown, a percentage is red from a half on, yellow above zero and else green.
-/
def percentCell (colored : Bool) (x : Binary64) : Cell :=
  let text := Lock.percentText x ++ "%"
  let escape (code : String) : String := String.singleton (Char.ofNat 0x1B) ++ "[" ++ code ++ "m"
  if colored then
    let code :=
      if (Binary64.ofNat 50).le x then "31" else if Binary64.zero.lt x then "33" else "32"
    textCell (escape code ++ text ++ escape "0")
  else textCell text

def header : List Cell := ["METHOD", "SYNC", "EVENTS", "TOTAL", "LOCKED", "LOCKED %"].map textCell

def Row.cells (colored : Bool) (row : Row) : List Cell :=
  [cell (Text.pieces (row.name ++ row.descriptor)),
    textCell (if row.isSynchronized then "yes" else ""), intCell row.events, intCell row.total,
    intCell row.locked, percentCell colored row.percent]

def footer (colored : Bool) (report : Report) : List Cell :=
  [textCell (Decimal.text report.methods.toInt ++ " METHODS, " ++ Decimal.text report.fields.toInt
      ++ " FIELDS"),
    textCell "", textCell "", intCell report.total, intCell report.locked,
    percentCell colored report.percent]

/-- The sides of the cells of rows. -/
def rowSides : List Side := [.left, .left, .right, .right, .right, .right]

/-- The sides of the cells of header and footer. Without rows all cells are at the right. -/
def edgeSides (hasRows : Bool) : List Side :=
  if hasRows then [.left, .left, .right, .right, .right, .left] else List.replicate 6 .right

/-! ## Drawing -/

/-- A horizontal line with a character at the left, at the joints and at the right. -/
def ruler (left joint right : Char) (widths : List Nat) : List Piece :=
  piecesOf <| String.ofList <|
    left :: ([joint].intercalate (widths.map fun n => List.replicate (n + 2) '─')) ++ [right]

/-- One line of cells. -/
def cellLine (sides : List Side) (widths : List Nat) (texts : List (List Piece)) : List Piece :=
  let padded := (sides.zip (widths.zip texts)).map fun (side, cells, text) =>
    piecesOf " " ++ side.pad cells text ++ piecesOf " "
  piecesOf "│" ++ (piecesOf "│").intercalate padded ++ piecesOf "│"

/-- The lines of a row of cells: as many as its tallest cell has. -/
def cellLines (sides : List Side) (widths : List Nat) (cells : List Cell) : List (List Piece) :=
  let height := (cells.map List.length).foldl max 0
  (List.range height).map fun i =>
    cellLine sides widths (cells.map fun cell => cell[i]?.getD [])

/-- The lines of the title with the line above it. -/
def titleLines (widths : List Nat) (name : Bytes) : List (List Piece) :=
  let inner := widths.foldl (· + ·) 0 + 3 * widths.length - 3
  let title := Text.pieces (Text.withoutArguments name)
  piecesOf ("┌" ++ String.ofList (List.replicate (inner + 2) '─') ++ "┐")
    :: (wrap inner title).map fun line =>
      let text := Text.trimWhere Piece.isBlank line
      piecesOf "│ " ++ padRight inner text ++ piecesOf " │"

/-- The lines of a table. -/
def tableLines (report : Report) (colored : Bool) : List (List Piece) :=
  let rows := report.rows.map (Row.cells colored)
  let edges := edgeSides (!rows.isEmpty)
  let foot := footer colored report
  let widths := (header :: foot :: rows).foldl
    (fun widths cells => widths.zipWith (fun n c => max n (cellWidth c)) cells)
    (List.replicate 6 0)
  (if (Text.withoutArguments report.name).isEmpty then [ruler '┌' '┬' '┐' widths]
    else titleLines widths report.name ++ [ruler '├' '┬' '┤' widths])
    ++ cellLines edges widths header
    ++ [ruler '├' '┼' '┤' widths]
    ++ rows.flatMap (cellLines rowSides widths)
    ++ [ruler '├' '┼' '┤' widths]
    ++ cellLines edges widths foot
    ++ [ruler '└' '┴' '┘' widths]

/-- A report as a table, without the newline at its end. -/
def table (report : Report) (colored : Bool) : Bytes :=
  Text.ofPieces ([Piece.char '\n'].intercalate (report.tableLines colored))

end MonitorCoverage.Report
