/-!
# Byte strings

Names in class files, paths and messages are sequences of bytes that need not be valid UTF-8, so
the whole library carries text of foreign origin as bytes. Words are written with the most
significant byte first.
-/

namespace MonitorCoverage

/-- The contents of a file, or text in no promised encoding. -/
abbrev Bytes := List UInt8

/-- The UTF-8 encoding of a text. -/
def utf8 (text : String) : Bytes := text.toUTF8.data.toList

namespace Bytes

def ofWord16 (word : UInt16) : Bytes :=
  [UInt8.ofNat (word.toNat / 256), UInt8.ofNat word.toNat]

def ofWord32 (word : UInt32) : Bytes :=
  ofWord16 (UInt16.ofNat (word.toNat / 65536)) ++ ofWord16 (UInt16.ofNat word.toNat)

def ofWord64 (word : UInt64) : Bytes :=
  ofWord32 (UInt32.ofNat (word.toNat / 4294967296)) ++ ofWord32 (UInt32.ofNat word.toNat)

@[simp] theorem length_ofWord16 (word : UInt16) : (ofWord16 word).length = 2 := rfl

@[simp] theorem length_ofWord32 (word : UInt32) : (ofWord32 word).length = 4 := rfl

@[simp] theorem length_ofWord64 (word : UInt64) : (ofWord64 word).length = 8 := rfl

/-- Pieces joined with a separator between each two. -/
def joinWith (separator : Bytes) : List Bytes → Bytes
  | [] => []
  | [piece] => piece
  | piece :: pieces => piece ++ separator ++ joinWith separator pieces

/-- The pieces between the occurrences of a byte; there is always at least one. -/
def splitOn (separator : UInt8) : Bytes → List Bytes
  | [] => [[]]
  | byte :: rest =>
    match splitOn separator rest with
    | [] => [[byte]]
    | piece :: pieces =>
      if byte = separator then [] :: piece :: pieces else (byte :: piece) :: pieces

/-- What stands before the first occurrence of a byte, and what stands after it. -/
def cut (separator : UInt8) (text : Bytes) : Option (Bytes × Bytes) :=
  match text.dropWhile (· != separator) with
  | [] => none
  | _ :: after => some (text.takeWhile (· != separator), after)

/-- Lexicographic order of the bytes. -/
def less : Bytes → Bytes → Bool
  | _, [] => false
  | [], _ :: _ => true
  | a :: as, b :: bs => a < b || (a == b && less as bs)

/-- A byte as two lower-case hexadecimal digits. -/
def hexByte (byte : UInt8) : List Char :=
  [Nat.digitChar (byte.toNat / 16), Nat.digitChar (byte.toNat % 16)]

/-- Two lower-case hexadecimal digits for each byte. -/
def hex (bytes : Bytes) : String := String.ofList (bytes.flatMap hexByte)

end Bytes

end MonitorCoverage
