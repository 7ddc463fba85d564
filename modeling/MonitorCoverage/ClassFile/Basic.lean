import MonitorCoverage.ClassFile.Access
import MonitorCoverage.ClassFile.ConstantPool
import MonitorCoverage.ClassFile.Instruction

/-!
# Class files

What a class file says about its class: versions, names, fields, and methods with their decoded
code. Decoding has two steps. First the outline of the file is read, with the attributes of each
member as bytes; then the code attribute of each method is decoded, in order. Whatever stands after
the methods is not looked at.
-/

namespace MonitorCoverage

namespace ClassFile

structure Field where
  access : AccessFlags
  name : Bytes
  descriptor : Bytes
  deriving DecidableEq, Repr

/-- The decoded code attribute of a method. -/
structure Code where
  maxStack : UInt16
  maxLocals : UInt16
  handlers : UInt16
  instructions : List Instruction
  deriving DecidableEq, Repr

structure Method where
  access : AccessFlags
  name : Bytes
  descriptor : Bytes
  code : Option Code
  deriving DecidableEq, Repr

end ClassFile

structure ClassFile where
  minor : UInt16
  major : UInt16
  access : ClassFile.AccessFlags
  name : Bytes
  /-- Empty where the class has no super class. -/
  superName : Bytes
  interfaces : List Bytes
  fields : List ClassFile.Field
  methods : List ClassFile.Method
  deriving DecidableEq, Repr

namespace ClassFile
open Decoder

structure Attribute where
  name : Bytes
  body : Bytes
  deriving DecidableEq, Repr

/-- A field or method as it stands in the file. -/
structure Member where
  access : AccessFlags
  name : Bytes
  descriptor : Bytes
  attributes : List Attribute
  deriving DecidableEq, Repr

/-- A class file whose attributes are not yet decoded. -/
structure Outline where
  minor : UInt16
  major : UInt16
  access : AccessFlags
  name : Bytes
  superName : Bytes
  interfaces : List Bytes
  fields : List Member
  methods : List Member
  deriving DecidableEq, Repr

def magic : UInt32 := 0xCAFEBABE

def leastMajor : UInt16 := 45

namespace Attribute

def read (pool : ConstantPool) : Decoder Attribute := do
  let name ← pool.readText
  let length ← u4
  let body ← within (.attribute name) (take length.toNat)
  pure { name, body }

end Attribute

namespace Member

def read (pool : ConstantPool) : Decoder Member := do
  let access ← u2
  let name ← pool.readText
  let descriptor ← pool.readText
  let attributes ← counted (Attribute.read pool)
  pure { access := ⟨access⟩, name, descriptor, attributes }

def toField (member : Member) : Field :=
  { access := member.access, name := member.name, descriptor := member.descriptor }

/-- The body of the last attribute with a name. -/
def lastBody? (member : Member) (name : Bytes) : Option Bytes :=
  (member.attributes.reverse.find? (·.name = name)).map (·.body)

end Member

namespace Outline

def read : Decoder Outline := do
  let word ← u4
  if word != magic then fail (.badMagic word)
  let minor ← u2
  let major ← u2
  if major < leastMajor then fail (.unsupportedVersion major minor)
  let pool ← ConstantPool.read
  let access ← u2
  let name ← within .thisClass pool.readClassName
  let superName ← within .superClass pool.readOptionalClassName
  let interfaces ← counted (within .interface pool.readClassName)
  let fields ← within .fields (counted (Member.read pool))
  let methods ← within .methods (counted (Member.read pool))
  pure { minor, major, access := ⟨access⟩, name, superName, interfaces, fields, methods }

end Outline

namespace Code

def codeName : Bytes := utf8 "Code"

/-- The head of a code attribute and the code array in it. -/
def readBody : Decoder (UInt16 × UInt16 × Bytes × UInt16) := do
  let maxStack ← u2
  let maxLocals ← u2
  let length ← u4
  let code ← take length.toNat
  let handlers ← u2
  skip (handlers.toNat * 8)
  pure (maxStack, maxLocals, code, handlers)

def decode (body : Bytes) : Except Fault Code := do
  let (maxStack, maxLocals, code, handlers) ← Decoder.run readBody body
  let instructions ← Instruction.decode code
  pure { maxStack, maxLocals, handlers, instructions }

end Code

/-- A method, with the code of its last code attribute. -/
def Method.ofMember (member : Member) : Except Fault Method :=
  let method (code : Option Code) : Method :=
    { access := member.access, name := member.name, descriptor := member.descriptor, code }
  match member.lastBody? Code.codeName with
  | none => .ok (method none)
  | some body =>
    match Code.decode body with
    | .ok code => .ok (method (some code))
    | .error fault => .error (fault.within (.method member.name member.descriptor))

def ofOutline (outline : Outline) : Except Fault ClassFile := do
  let methods ← outline.methods.mapM Method.ofMember
  pure { minor := outline.minor, major := outline.major, access := outline.access,
         name := outline.name, superName := outline.superName, interfaces := outline.interfaces,
         fields := outline.fields.map Member.toField, methods }

/-- The class that a file describes. -/
def parse (data : Bytes) : Except Fault ClassFile := do
  let outline ← Decoder.run Outline.read data
  ofOutline outline

def Method.instructions (method : Method) : List Instruction :=
  match method.code with
  | some code => code.instructions
  | none => []

/-- The number of instructions in all methods. -/
def instructionCount (file : ClassFile) : Nat :=
  file.methods.foldl (fun count method => count + method.instructions.length) 0

end ClassFile

end MonitorCoverage
