import MonitorCoverage.ClassFile.Decoder

/-!
# Instructions

A code array is a sequence of written instructions. Each is read as it is written and then
normalized: compact loads and stores and wide forms become their base opcode with the slot as
operand, long jumps become jumps with an absolute target, and the three ways to load a constant
become one. An instruction keeps the offset of its first byte in the code array.
-/

namespace MonitorCoverage.ClassFile

/-- The operands of an instruction as they are written. -/
inductive Operands where
  | none
  | byte (value : UInt8)
  | word (value : UInt16)
  | longWord (value : UInt32)
  | increment (slot amount : UInt8)
  | interfaceCall (method : UInt16) (reserved : Bytes)
  | dynamicCall (site : UInt16) (reserved : Bytes)
  | multiArray (type : UInt16) (dimensions : UInt8)
  | tableSwitch (padding default : Bytes) (low high : UInt32) (targets : Bytes)
  | lookupSwitch (padding default : Bytes) (pairs : UInt32) (targets : Bytes)
  | wide (op : Opcode) (slot : UInt16)
  | wideIncrement (slot amount : UInt16)
  deriving DecidableEq, Repr

/-- An instruction as it is written in a code array. -/
structure Written where
  opcode : Opcode
  operands : Operands
  deriving DecidableEq, Repr

/-- A normalized instruction. -/
structure Instruction where
  offset : Nat
  opcode : Opcode
  shape : Shape
  operand : Int
  deriving DecidableEq, Repr, Inhabited

/-- The operands of a switch start at a multiple of four, counted from the start of the code. -/
def switchPadding (offset : Nat) : Nat := (4 - (offset + 1) % 4) % 4

/-- The bytes that the targets of a table switch take. -/
def tableSize (low high : Int32) : Int := (high.toInt - low.toInt + 1) * 4

/-- The bytes that the pairs of a lookup switch take. -/
def lookupSize (pairs : Int32) : Int := pairs.toInt * 8

namespace Operands
open Decoder

def readTableSwitch (offset : Nat) : Decoder Operands := do
  let head ← take (switchPadding offset + 4)
  let low ← u4
  let high ← u4
  if high.toInt32 < low.toInt32 then fail (.emptyTable low.toInt32 high.toInt32)
  else
    let targets ← take (tableSize low.toInt32 high.toInt32).toNat
    pure (.tableSwitch (head.take (switchPadding offset)) (head.drop (switchPadding offset)) low
      high targets)

def readLookupSwitch (offset : Nat) : Decoder Operands := do
  let head ← take (switchPadding offset + 4)
  let pairs ← u4
  if pairs.toInt32 < 0 then fail (.negativePairs pairs.toInt32)
  else
    let targets ← take (lookupSize pairs.toInt32).toNat
    pure (.lookupSwitch (head.take (switchPadding offset)) (head.drop (switchPadding offset)) pairs
      targets)

def readWide (offset : Nat) : Decoder Operands := do
  let op ← within (.instruction .wide offset) (Opcode.mk <$> u1)
  let slot ← within (.wideInstruction op offset) u2
  if op = .increment then
    let amount ← within (.wideInstruction op offset) u2
    pure (.wideIncrement slot amount)
  else if op.shape = .var then pure (.wide op slot)
  else fail (.unknownWide op offset)

/-- The operands of an opcode, apart from the compact and wide forms. -/
def readNarrow (op : Opcode) (offset : Nat) : Decoder Operands :=
  if op = .loadConstantWide || op = .loadConstantPair || op = .shortConstant then .word <$> u2
  else if op = .jumpWide || op = .subroutineWide then .longWord <$> u4
  else if op = .callInterface then do return .interfaceCall (← u2) (← take 2)
  else match op.shape with
    | .int | .constant | .var => .byte <$> u1
    | .increment => do return .increment (← u1) (← u1)
    | .jump | .field | .method | .type => .word <$> u2
    | .dynamicCall => do return .dynamicCall (← u2) (← take 2)
    | .multiArray => do return .multiArray (← u2) (← u1)
    | .tableSwitch => readTableSwitch offset
    | .lookupSwitch => readLookupSwitch offset
    | .plain => pure .none

/-- The operands of an opcode whose instruction starts at an offset. -/
def read (op : Opcode) (offset : Nat) : Decoder Operands :=
  if op.compactVar?.isSome then pure .none
  else if op = .wide then readWide offset
  else within (.instruction op offset) (readNarrow op offset)

theorem forward_readTableSwitch (offset : Nat) : Forward (readTableSwitch offset) := by
  refine .bind (.take _) fun _ => .bind .u4 fun _ => .bind .u4 fun _ => ?_
  split
  · exact .fail _
  · exact .bind (.take _) fun _ => .pure _

theorem forward_readLookupSwitch (offset : Nat) : Forward (readLookupSwitch offset) := by
  refine .bind (.take _) fun _ => .bind .u4 fun _ => ?_
  split
  · exact .fail _
  · exact .bind (.take _) fun _ => .pure _

theorem forward_readWide (offset : Nat) : Forward (readWide offset) := by
  refine .bind (.within _ (.map _ .u1)) fun _ => .bind (.within _ .u2) fun _ => ?_
  split
  · exact .bind (.within _ .u2) fun _ => .pure _
  · split
    · exact .pure _
    · exact .fail _

theorem forward_readNarrow (op : Opcode) (offset : Nat) : Forward (readNarrow op offset) := by
  unfold readNarrow
  repeat' split
  all_goals first
    | exact .map _ .u1
    | exact .map _ .u2
    | exact .map _ .u4
    | exact .bind .u2 fun _ => .bind (.take _) fun _ => .pure _
    | exact .bind .u1 fun _ => .bind .u1 fun _ => .pure _
    | exact .bind .u2 fun _ => .bind .u1 fun _ => .pure _
    | exact forward_readTableSwitch offset
    | exact forward_readLookupSwitch offset
    | exact .pure _

theorem forward_read (op : Opcode) (offset : Nat) : Forward (read op offset) := by
  unfold read
  split
  · exact .pure _
  · split
    · exact forward_readWide offset
    · exact .within _ (forward_readNarrow op offset)

end Operands

namespace Written
open Decoder

def read : Decoder Written := do
  let offset ← offset
  let op : Opcode := ⟨← u1⟩
  if op.isDefined then Written.mk op <$> Operands.read op offset
  else fail (.unknownOpcode op offset)

/-- Reading an instruction uses up at least its opcode. -/
theorem length_rest_lt_of_read {c c' : Cursor} {written : Written} (h : read c = .ok written c') :
    c'.rest.length < c.rest.length := by
  have forward : ∀ (offset : Nat) (code : UInt8), Forward (if Opcode.isDefined ⟨code⟩ then
      Written.mk ⟨code⟩ <$> Operands.read ⟨code⟩ offset
      else fail (.unknownOpcode ⟨code⟩ offset)) := by
    intro offset code
    split
    · exact .map _ (Operands.forward_read _ _)
    · exact .fail _
  simp only [read, Bind.bind, EStateM.bind, Decoder.offset] at h
  split at h
  · rename_i code c₁ h₁
    obtain ⟨hr, _⟩ := u1_eq_ok h₁
    obtain ⟨front, hf, _⟩ := forward c.offset code c₁ written c' h
    simp only [hr, hf, List.length_cons, List.length_append]
    omega
  · cases h

/-- The opcode of the normal form. -/
def normalOpcode (written : Written) : Opcode :=
  match written.opcode.compactVar? with
  | some (base, _) => base
  | none =>
    match written.operands with
    | .wide op _ => op
    | .wideIncrement _ _ => .increment
    | _ =>
      if written.opcode = .loadConstantWide || written.opcode = .loadConstantPair then .loadConstant
      else if written.opcode = .jumpWide then .jump
      else if written.opcode = .subroutineWide then .subroutine
      else written.opcode

/-- The operand of the normal form: a slot, a constant, a pool slot or an absolute jump target. -/
def normalOperand (offset : Nat) (written : Written) : Int :=
  match written.opcode.compactVar? with
  | some (_, slot) => slot
  | none =>
    match written.operands with
    | .none | .tableSwitch .. | .lookupSwitch .. => 0
    | .byte value =>
      if written.opcode = .byteConstant || written.opcode = .newPrimitiveArray
      then value.toInt8.toInt else value.toNat
    | .word value =>
      if written.opcode.shape = .jump then offset + value.toInt16.toInt
      else if written.opcode = .shortConstant then value.toInt16.toInt else value.toNat
    | .longWord value => offset + value.toInt32.toInt
    | .increment slot _ => slot.toNat
    | .interfaceCall value _ | .dynamicCall value _ | .multiArray value _ => value.toNat
    | .wide _ slot | .wideIncrement slot _ => slot.toNat

def normalize (offset : Nat) (written : Written) : Instruction :=
  { offset, opcode := written.normalOpcode, shape := written.normalOpcode.shape,
    operand := written.normalOperand offset }

end Written

namespace Instruction

/-- The instructions from a position to the end, after those found before, last first. -/
def readFrom (c : Cursor) (found : List Instruction) : Except Fault (List Instruction) :=
  if c.rest.isEmpty then .ok found.reverse
  else
    match h : Written.read c with
    | .ok written c' =>
      have := Written.length_rest_lt_of_read h
      readFrom c' (written.normalize c.offset :: found)
    | .error fault _ => .error fault
termination_by c.rest.length

/-- The instructions of a code array. -/
def decode (code : Bytes) : Except Fault (List Instruction) := readFrom (Cursor.start code) []

end Instruction

end MonitorCoverage.ClassFile
