import MonitorCoverage.Bytes

/-!
# Ranges of machine words

Conversions between integers and words that refuse a value the target cannot hold. A refusal is a
breach of what the caller promised, not a fault of an input.
-/

namespace MonitorCoverage

inductive RangeError where
  | negativeLength
  | negativeSize
  | sizeTooLarge
  | exceedsWord16
  | exceedsWord32
  | negativeRepeat
  | repeatTooLong
  deriving DecidableEq, Repr

def RangeError.message : RangeError → String
  | negativeLength => "safeconv: negative int to uint64 conversion"
  | negativeSize => "safeconv: negative int64 to uint64 conversion"
  | sizeTooLarge => "safeconv: uint64 to int64 overflow"
  | exceedsWord16 => "safeconv: int to uint16 out of bounds"
  | exceedsWord32 => "safeconv: int to uint32 out of bounds"
  | negativeRepeat => "bytes: negative Repeat count"
  | repeatTooLong => "bytes: Repeat output length overflow"

namespace Range

/-- A length as an unsigned word. -/
def ofLength (length : Int64) : Except RangeError UInt64 :=
  if length < 0 then .error .negativeLength else .ok length.toUInt64

/-- A size as an unsigned word. -/
def ofSize (size : Int64) : Except RangeError UInt64 :=
  if size < 0 then .error .negativeSize else .ok size.toUInt64

/-- An unsigned word as a size. -/
def toSize (word : UInt64) : Except RangeError Int64 :=
  if Nat.pow 2 63 ≤ word.toNat then .error .sizeTooLarge else .ok word.toInt64

def toWord16 (i : Int) : Except RangeError UInt16 :=
  if i < 0 ∨ 0x10000 ≤ i then .error .exceedsWord16 else .ok (UInt16.ofNat i.toNat)

def toWord32 (i : Int) : Except RangeError UInt32 :=
  if i < 0 ∨ 0x100000000 ≤ i then .error .exceedsWord32 else .ok (UInt32.ofNat i.toNat)

end Range

/-- A byte sequence repeated a number of times. -/
def Bytes.repeated (bytes : Bytes) (times : Int64) : Except RangeError Bytes :=
  if times < 0 then .error .negativeRepeat
  else if Nat.pow 2 63 ≤ bytes.length * times.toInt.toNat then .error .repeatTooLong
  else .ok (List.replicate times.toInt.toNat bytes).flatten

end MonitorCoverage
