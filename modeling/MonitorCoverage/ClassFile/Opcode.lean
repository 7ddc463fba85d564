import MonitorCoverage.Decimal.Integer

/-!
# Opcodes of the class-file instruction set

An opcode is a byte; the first 202 values name instructions and the others are reserved. Opcodes
fall into thirteen shapes by the operands that their instructions carry.
-/

namespace MonitorCoverage.ClassFile

structure Opcode where
  code : UInt8
  deriving DecidableEq, Repr, Inhabited

namespace Opcode

/-- The mnemonics of opcodes 0 to 201, in order. -/
def mnemonics : Array String := #[
  "nop", "aconst_null", "iconst_m1", "iconst_0", "iconst_1", "iconst_2", "iconst_3", "iconst_4",
  "iconst_5", "lconst_0", "lconst_1", "fconst_0", "fconst_1", "fconst_2", "dconst_0", "dconst_1",
  "bipush", "sipush", "ldc", "ldc_w", "ldc2_w", "iload", "lload", "fload",
  "dload", "aload", "iload_0", "iload_1", "iload_2", "iload_3", "lload_0", "lload_1",
  "lload_2", "lload_3", "fload_0", "fload_1", "fload_2", "fload_3", "dload_0", "dload_1",
  "dload_2", "dload_3", "aload_0", "aload_1", "aload_2", "aload_3", "iaload", "laload",
  "faload", "daload", "aaload", "baload", "caload", "saload", "istore", "lstore",
  "fstore", "dstore", "astore", "istore_0", "istore_1", "istore_2", "istore_3", "lstore_0",
  "lstore_1", "lstore_2", "lstore_3", "fstore_0", "fstore_1", "fstore_2", "fstore_3", "dstore_0",
  "dstore_1", "dstore_2", "dstore_3", "astore_0", "astore_1", "astore_2", "astore_3", "iastore",
  "lastore", "fastore", "dastore", "aastore", "bastore", "castore", "sastore", "pop",
  "pop2", "dup", "dup_x1", "dup_x2", "dup2", "dup2_x1", "dup2_x2", "swap",
  "iadd", "ladd", "fadd", "dadd", "isub", "lsub", "fsub", "dsub",
  "imul", "lmul", "fmul", "dmul", "idiv", "ldiv", "fdiv", "ddiv",
  "irem", "lrem", "frem", "drem", "ineg", "lneg", "fneg", "dneg",
  "ishl", "lshl", "ishr", "lshr", "iushr", "lushr", "iand", "land",
  "ior", "lor", "ixor", "lxor", "iinc", "i2l", "i2f", "i2d",
  "l2i", "l2f", "l2d", "f2i", "f2l", "f2d", "d2i", "d2l",
  "d2f", "i2b", "i2c", "i2s", "lcmp", "fcmpl", "fcmpg", "dcmpl",
  "dcmpg", "ifeq", "ifne", "iflt", "ifge", "ifgt", "ifle", "if_icmpeq",
  "if_icmpne", "if_icmplt", "if_icmpge", "if_icmpgt", "if_icmple", "if_acmpeq", "if_acmpne", "goto",
  "jsr", "ret", "tableswitch", "lookupswitch", "ireturn", "lreturn", "freturn", "dreturn",
  "areturn", "return", "getstatic", "putstatic", "getfield", "putfield", "invokevirtual",
  "invokespecial", "invokestatic", "invokeinterface", "invokedynamic", "new", "newarray",
  "anewarray", "arraylength", "athrow", "checkcast", "instanceof", "monitorenter", "monitorexit",
  "wide", "multianewarray", "ifnull", "ifnonnull",
  "goto_w", "jsr_w"]

def isDefined (op : Opcode) : Bool := op.code < 202

/-- The mnemonic, or the number of a reserved opcode. -/
def text (op : Opcode) : String :=
  match mnemonics[op.code.toNat]? with
  | some mnemonic => mnemonic
  | none => "opcode(" ++ Decimal.text op.code.toNat ++ ")"

def byteConstant : Opcode := ⟨16⟩
def shortConstant : Opcode := ⟨17⟩
def loadConstant : Opcode := ⟨18⟩
def loadConstantWide : Opcode := ⟨19⟩
def loadConstantPair : Opcode := ⟨20⟩
def loadInt : Opcode := ⟨21⟩
def storeInt : Opcode := ⟨54⟩
def increment : Opcode := ⟨132⟩
def jump : Opcode := ⟨167⟩
def subroutine : Opcode := ⟨168⟩
def subroutineReturn : Opcode := ⟨169⟩
def tableSwitch : Opcode := ⟨170⟩
def lookupSwitch : Opcode := ⟨171⟩
def callInterface : Opcode := ⟨185⟩
def callDynamic : Opcode := ⟨186⟩
def newObject : Opcode := ⟨187⟩
def newPrimitiveArray : Opcode := ⟨188⟩
def newObjectArray : Opcode := ⟨189⟩
def checkCast : Opcode := ⟨192⟩
def instanceOf : Opcode := ⟨193⟩
def wide : Opcode := ⟨196⟩
def newMultiArray : Opcode := ⟨197⟩
def jumpNull : Opcode := ⟨198⟩
def jumpNonNull : Opcode := ⟨199⟩
def jumpWide : Opcode := ⟨200⟩
def subroutineWide : Opcode := ⟨201⟩

/-- Whether an opcode lies between two others, both included. -/
def within (op first last : Opcode) : Bool := first.code ≤ op.code && op.code ≤ last.code

end Opcode

/-- The operand shape of an instruction. -/
inductive Shape where
  | plain | int | var | type | field | method | dynamicCall | jump | constant | increment
  | tableSwitch | lookupSwitch | multiArray
  deriving DecidableEq, Repr, Inhabited

namespace Shape

def text : Shape → String
  | plain => "insn"
  | int => "int"
  | var => "var"
  | type => "type"
  | field => "field"
  | method => "method"
  | dynamicCall => "invokedynamic"
  | jump => "jump"
  | constant => "ldc"
  | increment => "iinc"
  | tableSwitch => "tableswitch"
  | lookupSwitch => "lookupswitch"
  | multiArray => "multianewarray"

/-- All shapes, in the order of their numbers. -/
def all : Array Shape :=
  #[plain, int, var, type, field, method, dynamicCall, jump, constant, increment, tableSwitch,
    lookupSwitch, multiArray]

/-- The name of the shape with a number, or the number itself where there is none. -/
def nameOfNumber (number : UInt8) : String :=
  match all[number.toNat]? with
  | some shape => shape.text
  | none => "kind(" ++ Decimal.text number.toNat ++ ")"

end Shape

namespace Opcode

/-- The shape of a normalized opcode. Compact, wide and reserved opcodes, which no normalized
instruction has, count as plain. -/
def shape (op : Opcode) : Shape :=
  if op = byteConstant || op = shortConstant || op = newPrimitiveArray then .int
  else if op = loadConstant then .constant
  else if op.within loadInt ⟨25⟩ || op.within storeInt ⟨58⟩ || op = subroutineReturn then .var
  else if op = increment then .increment
  else if op.within ⟨153⟩ subroutine || op = jumpNull || op = jumpNonNull then .jump
  else if op = tableSwitch then .tableSwitch
  else if op = lookupSwitch then .lookupSwitch
  else if op.within ⟨178⟩ ⟨181⟩ then .field
  else if op.within ⟨182⟩ callInterface then .method
  else if op = callDynamic then .dynamicCall
  else if op = newObject || op = newObjectArray || op = checkCast || op = instanceOf then .type
  else if op = newMultiArray then .multiArray
  else .plain

/-- The base opcode and the variable slot of a compact load or store. -/
def compactVar? (op : Opcode) : Option (Opcode × Nat) :=
  if op.within ⟨26⟩ ⟨45⟩ then
    some (⟨loadInt.code + (op.code - 26) / 4⟩, ((op.code - 26) % 4).toNat)
  else if op.within ⟨59⟩ ⟨78⟩ then
    some (⟨storeInt.code + (op.code - 59) / 4⟩, ((op.code - 59) % 4).toNat)
  else none

end Opcode

end MonitorCoverage.ClassFile
