import MonitorCoverage.Bytes

/-!
# Checksums of compressed data

A 32-bit hash: four lanes take the words of the data in turn, as long as there are sixteen bytes
left; their mix, and then the rest of the data, goes into the sum, whose bits are spread at the end.
-/

namespace MonitorCoverage.Lz4

def prime1 : UInt32 := 2654435761

def prime2 : UInt32 := 2246822519

def prime3 : UInt32 := 3266489917

def prime4 : UInt32 := 668265263

def prime5 : UInt32 := 374761393

def rotateLeft (word count : UInt32) : UInt32 := (word <<< count) ||| (word >>> (32 - count))

/-- A word from its bytes, the lowest first. -/
def word32 (a b c d : UInt8) : UInt32 :=
  a.toUInt32 ||| (b.toUInt32 <<< 8) ||| (c.toUInt32 <<< 16) ||| (d.toUInt32 <<< 24)

/-- The four lanes, the one whose turn it is first. -/
structure Lanes where
  first : UInt32
  second : UInt32
  third : UInt32
  fourth : UInt32
  deriving DecidableEq, Repr

namespace Lanes

def start : Lanes := ⟨prime1 + prime2, prime2, 0, 0 - prime1⟩

/-- Gives a word to the lane whose turn it is. -/
def step (lanes : Lanes) (word : UInt32) : Lanes :=
  ⟨lanes.second, lanes.third, lanes.fourth, rotateLeft (lanes.first + word * prime2) 13 * prime1⟩

def mix (lanes : Lanes) : UInt32 :=
  rotateLeft lanes.first 1 + rotateLeft lanes.second 7 + rotateLeft lanes.third 12
    + rotateLeft lanes.fourth 18

/-- Gives the lanes a number of words, and says what is left of the data. -/
def absorb : Nat → Lanes → Bytes → Lanes × Bytes
  | words + 1, lanes, a :: b :: c :: d :: rest => absorb words (lanes.step (word32 a b c d)) rest
  | _, lanes, rest => (lanes, rest)

end Lanes

/-- Adds the data that is too short for the lanes, by words and then by bytes. -/
def addTail (sum : UInt32) : Bytes → UInt32
  | a :: b :: c :: d :: rest =>
    addTail (rotateLeft (sum + word32 a b c d * prime3) 17 * prime4) rest
  | a :: rest => addTail (rotateLeft (sum + a.toUInt32 * prime5) 11 * prime1) rest
  | [] => sum

def spread (sum : UInt32) : UInt32 :=
  let sum := (sum ^^^ (sum >>> 15)) * prime2
  let sum := (sum ^^^ (sum >>> 13)) * prime3
  sum ^^^ (sum >>> 16)

def checksum (data : Bytes) : UInt32 :=
  let length := data.length
  let (sum, rest) :=
    if length < 16 then (prime5, data)
    else
      let (lanes, rest) := Lanes.absorb (length / 16 * 4) .start data
      (lanes.mix, rest)
  spread (addTail (sum + UInt32.ofNat length) rest)

end MonitorCoverage.Lz4
