import MonitorCoverage.Bytes

/-!
# Compressed blocks

A block is a sequence of steps. A step holds literal bytes and then a distance back into the output
from which bytes are taken again; they may overlap the bytes they produce. The last step may end
after its literal bytes.
-/

namespace MonitorCoverage.Lz4

/-- A length of which the token tells at most 15: from 15 on it goes on in the bytes that follow, up
to and including one below 255. -/
def extendLength (length : Nat) : Bytes → Option (Nat × Bytes)
  | [] => none
  | byte :: rest =>
    if byte = 255 then extendLength (length + 255) rest else some (length + byte.toNat, rest)

def readLength (nibble : Nat) (data : Bytes) : Option (Nat × Bytes) :=
  if nibble < 15 then some (nibble, data) else extendLength nibble data

/-- Moves a number of bytes of the data to the output. -/
def moveLiterals : Nat → Bytes → ByteArray → Option (Bytes × ByteArray)
  | 0, data, output => some (data, output)
  | _ + 1, [], _ => none
  | count + 1, byte :: data, output => moveLiterals count data (output.push byte)

/-- Repeats a number of bytes from a distance back in the output, one after the other. -/
def copyBack (distance : Nat) : Nat → ByteArray → ByteArray
  | 0, output => output
  | count + 1, output =>
    copyBack distance count (output.push (output[output.size - distance]?.getD 0))

/-- The length of a copy is at least this. -/
def leastCopy : Nat := 4

/-- Runs the steps of a block. No copy reaches behind `floor`, and the output does not grow beyond
`ceiling`. -/
def runSteps (floor ceiling : Nat) : Nat → Bytes → ByteArray → Option ByteArray
  | 0, _, _ => none
  | _ + 1, [], output => some output
  | fuel + 1, token :: data, output =>
    let copyNibble := token.toNat % 16
    match readLength (token.toNat / 16) data with
    | none => none
    | some (literals, data) =>
      if ceiling < output.size + literals then none
      else
        match moveLiterals literals data output with
        | none => none
        | some ([], output) => if copyNibble = 0 then some output else none
        | some ([_], _) => none
        | some (low :: high :: data, output) =>
          let distance := low.toNat + 256 * high.toNat
          match readLength copyNibble data with
          | none => none
          | some (more, data) =>
            let count := more + leastCopy
            if distance = 0 || output.size < floor + distance || ceiling < output.size + count then
              none
            else runSteps floor ceiling fuel data (copyBack distance count output)

/-- Adds what a block holds to the output, or nothing if the block is malformed. -/
def expand (floor ceiling : Nat) (block : Bytes) (output : ByteArray) : Option ByteArray :=
  runSteps floor ceiling (block.length + 1) block output

end MonitorCoverage.Lz4
