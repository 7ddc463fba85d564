import MonitorCoverage.Bytes

/-!
# Reading bytes as UTF-8

A byte string is a sequence of pieces: characters in their UTF-8 encoding, and stray bytes that
belong to none. Only the shortest encoding of a character counts, and no surrogate has one.
-/

namespace MonitorCoverage.Text

inductive Piece where
  | char (c : Char)
  | stray (byte : UInt8)
  deriving DecidableEq, Repr

def isContinuation (byte : UInt8) : Bool := 0x80 ≤ byte && byte < 0xC0

/-- The bits that a continuation byte adds. -/
def payload (byte : UInt8) : Nat := byte.toNat % 64

/-- The character at the front of a byte string, and the number of bytes of its encoding. -/
def scanChar? : Bytes → Option (Char × Nat)
  | [] => none
  | a :: rest =>
    if a < 0x80 then some (Char.ofNat a.toNat, 1)
    else if a < 0xC2 then none
    else if a < 0xE0 then
      match rest with
      | b :: _ =>
        if isContinuation b then some (Char.ofNat (a.toNat % 32 * 64 + payload b), 2) else none
      | _ => none
    else if a < 0xF0 then
      match rest with
      | b :: c :: _ =>
        let code := (a.toNat % 16 * 64 + payload b) * 64 + payload c
        if isContinuation b && isContinuation c && 0x800 ≤ code
            && !(0xD800 ≤ code && code < 0xE000) then
          some (Char.ofNat code, 3)
        else none
      | _ => none
    else if a < 0xF5 then
      match rest with
      | b :: c :: d :: _ =>
        let code := ((a.toNat % 8 * 64 + payload b) * 64 + payload c) * 64 + payload d
        if isContinuation b && isContinuation c && isContinuation d && 0x10000 ≤ code
            && code < 0x110000 then
          some (Char.ofNat code, 4)
        else none
      | _ => none
    else none

/-- The pieces of a byte string, after pieces found before, last first. -/
def piecesOnto : Nat → Bytes → List Piece → List Piece
  | _, [], found => found.reverse
  | 0, _ :: _, found => found.reverse
  | fuel + 1, byte :: rest, found =>
    match scanChar? (byte :: rest) with
    | some (c, width) => piecesOnto fuel (rest.drop (width - 1)) (.char c :: found)
    | none => piecesOnto fuel rest (.stray byte :: found)

/-- The pieces of a byte string; there are at most as many as bytes. -/
def pieces (bytes : Bytes) : List Piece := piecesOnto bytes.length bytes []

def Piece.bytes : Piece → Bytes
  | .char c => String.utf8EncodeChar c
  | .stray byte => [byte]

/-- The character that stands for bytes which encode none. -/
def replacement : Char := Char.ofNat 0xFFFD

def Piece.charOrReplacement : Piece → Char
  | .char c => c
  | .stray _ => replacement

def Piece.isStray : Piece → Bool
  | .char _ => false
  | .stray _ => true

/-- The characters of a byte string, with the replacement character for each stray byte. -/
def lossyChars (bytes : Bytes) : List Char := (pieces bytes).map Piece.charOrReplacement

def isValidUtf8 (bytes : Bytes) : Bool := (pieces bytes).all fun piece => !piece.isStray

def ofPieces (pieces : List Piece) : Bytes := pieces.flatMap Piece.bytes

/-- The UTF-8 encoding of characters. -/
def encode (chars : List Char) : Bytes := chars.flatMap String.utf8EncodeChar

end MonitorCoverage.Text
