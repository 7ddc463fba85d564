import MonitorCoverage.ClassFile.Instruction

/-!
# The instruction set

The instructions as the instruction set defines them: which operands follow which opcode, how an
instruction is written at an offset of a code array, and what its normal form is. None of this goes
through the decoder. Every opcode has at most one operand layout, and the layouts are listed in the
order of the opcodes, so each of the 202 opcodes can be looked up.
-/

namespace MonitorCoverage.ClassFile

/-- What follows an opcode. -/
inductive OperandLayout where
  | none
  | signedByte
  | signedWord
  | constant
  | wideConstant
  | variableSlot
  | compactLoad
  | compactStore
  | increment
  | branch
  | longBranch
  | poolIndex
  | interfaceCall
  | dynamicCall
  | multiArray
  | tableSwitch
  | lookupSwitch
  | wide
  deriving DecidableEq, Repr

/-- The operand layout of an opcode; reserved opcodes have none. -/
def Opcode.layout? (op : Opcode) : Option OperandLayout :=
  let number := op.code.toNat
  if number ≤ 15 then some .none
  else if number = 16 then some .signedByte
  else if number = 17 then some .signedWord
  else if number = 18 then some .constant
  else if number ≤ 20 then some .wideConstant
  else if number ≤ 25 then some .variableSlot
  else if number ≤ 45 then some .compactLoad
  else if number ≤ 53 then some .none
  else if number ≤ 58 then some .variableSlot
  else if number ≤ 78 then some .compactStore
  else if number ≤ 131 then some .none
  else if number = 132 then some .increment
  else if number ≤ 152 then some .none
  else if number ≤ 168 then some .branch
  else if number = 169 then some .variableSlot
  else if number = 170 then some .tableSwitch
  else if number = 171 then some .lookupSwitch
  else if number ≤ 177 then some .none
  else if number ≤ 184 then some .poolIndex
  else if number = 185 then some .interfaceCall
  else if number = 186 then some .dynamicCall
  else if number = 187 then some .poolIndex
  else if number = 188 then some .signedByte
  else if number = 189 then some .poolIndex
  else if number ≤ 191 then some .none
  else if number ≤ 193 then some .poolIndex
  else if number ≤ 195 then some .none
  else if number = 196 then some .wide
  else if number = 197 then some .multiArray
  else if number ≤ 199 then some .branch
  else if number ≤ 201 then some .longBranch
  else Option.none

/-- An instruction with its operands. Where several opcodes share a layout, the opcode is given. -/
inductive RawInstruction where
  | plain (op : Opcode) (layout : op.layout? = some .none)
  /-- The load of one of the first four variables, of one of five types. -/
  | compactLoad (type : Fin 5) (slot : Fin 4)
  | compactStore (type : Fin 5) (slot : Fin 4)
  | signedByte (op : Opcode) (layout : op.layout? = some .signedByte) (value : Int8)
  | signedWord (value : Int16)
  | constant (index : UInt8)
  | wideConstant (op : Opcode) (layout : op.layout? = some .wideConstant) (index : UInt16)
  | variableSlot (op : Opcode) (layout : op.layout? = some .variableSlot) (slot : UInt8)
  | increment (slot : UInt8) (amount : Int8)
  | branch (op : Opcode) (layout : op.layout? = some .branch) (delta : Int16)
  | longBranch (op : Opcode) (layout : op.layout? = some .longBranch) (delta : Int32)
  | poolIndex (op : Opcode) (layout : op.layout? = some .poolIndex) (index : UInt16)
  | interfaceCall (index : UInt16) (count reserved : UInt8)
  | dynamicCall (index reserved : UInt16)
  | multiArray (index : UInt16) (dimensions : UInt8)
  | tableSwitch (padding : Bytes) (default low high : Int32) (targets : List Int32)
      (low_le_high : low.toInt ≤ high.toInt)
      (length_targets : (targets.length : Int) = high.toInt - low.toInt + 1)
  | lookupSwitch (padding : Bytes) (default : Int32) (pairs : List (Int32 × Int32))
      (length_lt : pairs.length < 2147483648)
  | wide (op : Opcode) (layout : op.layout? = some .variableSlot) (slot : UInt16)
  | wideIncrement (slot : UInt16) (amount : Int16)

namespace RawInstruction

def word16 (value : Int16) : Bytes := Bytes.ofWord16 value.toUInt16

def word32 (value : Int32) : Bytes := Bytes.ofWord32 value.toUInt32

/-- The bytes of an instruction. -/
def bytes : RawInstruction → Bytes
  | plain op _ => [op.code]
  | compactLoad type slot => [UInt8.ofNat (26 + 4 * type + slot)]
  | compactStore type slot => [UInt8.ofNat (59 + 4 * type + slot)]
  | signedByte op _ value => [op.code, value.toUInt8]
  | signedWord value => 17 :: word16 value
  | constant index => [18, index]
  | wideConstant op _ index => op.code :: Bytes.ofWord16 index
  | variableSlot op _ slot => [op.code, slot]
  | increment slot amount => [132, slot, amount.toUInt8]
  | branch op _ delta => op.code :: word16 delta
  | longBranch op _ delta => op.code :: word32 delta
  | poolIndex op _ index => op.code :: Bytes.ofWord16 index
  | interfaceCall index count reserved => 185 :: (Bytes.ofWord16 index ++ [count, reserved])
  | dynamicCall index reserved => 186 :: (Bytes.ofWord16 index ++ Bytes.ofWord16 reserved)
  | multiArray index dimensions => 197 :: (Bytes.ofWord16 index ++ [dimensions])
  | tableSwitch padding default low high targets _ _ =>
    170 :: (padding ++ word32 default ++ word32 low ++ word32 high ++ targets.flatMap word32)
  | lookupSwitch padding default pairs _ =>
    171 :: (padding ++ word32 default ++ Bytes.ofWord32 (UInt32.ofNat pairs.length)
      ++ pairs.flatMap fun pair => word32 pair.1 ++ word32 pair.2)
  | wide op _ slot => 196 :: op.code :: Bytes.ofWord16 slot
  | wideIncrement slot amount => 196 :: 132 :: (Bytes.ofWord16 slot ++ word16 amount)

/-- Padding after a switch opcode at an offset goes up to the next multiple of four. -/
def PadsAt (offset : Nat) (padding : Bytes) : Prop :=
  padding.length < 4 ∧ (offset + 1 + padding.length) % 4 = 0

/-- Whether an instruction can be written at an offset: only switches look at it. -/
def FitsAt (offset : Nat) : RawInstruction → Prop
  | tableSwitch padding _ _ _ _ _ _ => PadsAt offset padding
  | lookupSwitch padding _ _ _ => PadsAt offset padding
  | _ => True

/-- The normal form of an instruction at an offset. -/
def normal (offset : Nat) : RawInstruction → Instruction
  | plain op _ => form op 0
  | compactLoad type slot => form ⟨UInt8.ofNat (21 + type)⟩ slot.val
  | compactStore type slot => form ⟨UInt8.ofNat (54 + type)⟩ slot.val
  | signedByte op _ value => form op value.toInt
  | signedWord value => form .shortConstant value.toInt
  | constant index => form .loadConstant index.toNat
  | wideConstant _ _ index => form .loadConstant index.toNat
  | variableSlot op _ slot => form op slot.toNat
  | increment slot _ => form .increment slot.toNat
  | branch op _ delta => form op (offset + delta.toInt)
  | longBranch op _ delta =>
    form (if op = .jumpWide then .jump else .subroutine) (offset + delta.toInt)
  | poolIndex op _ index => form op index.toNat
  | interfaceCall index _ _ => form .callInterface index.toNat
  | dynamicCall index _ => form .callDynamic index.toNat
  | multiArray index _ => form .newMultiArray index.toNat
  | tableSwitch _ _ _ _ _ _ _ => form .tableSwitch 0
  | lookupSwitch _ _ _ _ => form .lookupSwitch 0
  | wide op _ slot => form op slot.toNat
  | wideIncrement slot _ => form .increment slot.toNat
where
  form (opcode : Opcode) (operand : Int) : Instruction :=
    { offset, opcode, shape := opcode.shape, operand }

/-- Whether instructions can be written one after the other from an offset on. -/
def FitFrom : Nat → List RawInstruction → Prop
  | _, [] => True
  | offset, raw :: raws => raw.FitsAt offset ∧ FitFrom (offset + raw.bytes.length) raws

/-- The normal forms of instructions that are written one after the other from an offset on. -/
def normalFrom : Nat → List RawInstruction → List Instruction
  | _, [] => []
  | offset, raw :: raws => raw.normal offset :: normalFrom (offset + raw.bytes.length) raws

end RawInstruction

end MonitorCoverage.ClassFile
