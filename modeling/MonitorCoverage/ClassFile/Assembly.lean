import MonitorCoverage.ClassFile.Access
import MonitorCoverage.ClassFile.ConstantPool
import MonitorCoverage.Range

/-!
# Assembling class files

A draft says what a class file is to hold: the class extends the root class and has fields, methods
and constants of eight bytes. Assembling gives each name one slot of the constant pool, in the order
in which names are first needed, and writes the file. Slot numbers have sixteen bits.
-/

namespace MonitorCoverage.ClassFile

/-- A piece of a code array. -/
inductive Snippet where
  | instruction (op : Opcode) (operands : Bytes)
  | branch (op : Opcode) (delta : Int16)
  | raw (bytes : Bytes)
  | repeated (snippet : Snippet) (times : Int64)
  deriving DecidableEq, Repr, Inhabited

namespace Snippet

def bytes : Snippet → Except RangeError Bytes
  | instruction op operands => .ok (op.code :: operands)
  | branch op delta => .ok (op.code :: Bytes.ofWord16 delta.toUInt16)
  | raw bytes => .ok bytes
  | repeated snippet times => do (← snippet.bytes).repeated times

/-- A code array from its pieces. -/
def assemble (snippets : List Snippet) : Except RangeError Bytes := do
  return (← snippets.mapM bytes).flatten

end Snippet

/-- A field, or a method with or without code, that a class is to have. -/
structure MemberDraft where
  access : AccessFlags
  name : Bytes
  descriptor : Bytes
  code : Option Bytes
  deriving DecidableEq, Repr

namespace MemberDraft

def field (access : AccessFlags) (name descriptor : Bytes) : MemberDraft :=
  { access, name, descriptor, code := none }

def method (access : AccessFlags) (name descriptor code : Bytes) : MemberDraft :=
  { access, name, descriptor, code := some code }

/-- A public method without code. -/
def abstractMethod (name descriptor : Bytes) : MemberDraft :=
  { access := ⟨AccessFlags.isPublic.bits ||| AccessFlags.isAbstract.bits⟩, name, descriptor,
    code := none }

end MemberDraft

/-- What a class file is to hold. -/
structure Draft where
  name : Bytes
  major : UInt16 := 52
  longs : List Int64 := []
  fields : List MemberDraft := []
  methods : List MemberDraft := []
  deriving DecidableEq, Repr

/-! ## The pool of a draft -/

/-- What a slot can be asked for by. -/
inductive PoolKey where
  | text (bytes : Bytes)
  | className (bytes : Bytes)
  deriving DecidableEq, Repr

/-- The constants added so far, last first, the next free slot and the slots of the keys. -/
structure PoolDraft where
  constants : List Constant := []
  next : UInt16 := 1
  index : List (PoolKey × UInt16) := []
  deriving DecidableEq, Repr

namespace PoolDraft

def slotOf? (pool : PoolDraft) (key : PoolKey) : Option UInt16 := pool.index.lookup key

def add (pool : PoolDraft) (key : PoolKey) (constant : Constant) : UInt16 × PoolDraft :=
  (pool.next,
    { constants := constant :: pool.constants, next := pool.next + 1,
      index := (key, pool.next) :: pool.index })

/-- The slot of a text, which is added if it is new. -/
def text (pool : PoolDraft) (bytes : Bytes) : Except RangeError (UInt16 × PoolDraft) :=
  match pool.slotOf? (.text bytes) with
  | some slot => .ok (slot, pool)
  | none => do
    let _ ← Range.toWord16 bytes.length
    pure (pool.add (.text bytes) (.text bytes))

/-- The slot of a class with a name, which is added if it is new, after its name. -/
def className (pool : PoolDraft) (name : Bytes) : Except RangeError (UInt16 × PoolDraft) :=
  match pool.slotOf? (.className name) with
  | some slot => .ok (slot, pool)
  | none => do
    let (nameSlot, pool) ← pool.text name
    pure (pool.add (.className name) (.classRef nameSlot))

/-- A constant of eight bytes, which takes two slots. -/
def long (pool : PoolDraft) (value : Int64) : PoolDraft :=
  { pool with
    constants := .other 5 (Bytes.ofWord64 value.toUInt64) :: pool.constants, next := pool.next + 2 }

end PoolDraft

/-- A constant as a file holds it. -/
def Constant.bytes : Constant → Bytes
  | text bytes => textTag :: (Bytes.ofWord16 (UInt16.ofNat bytes.length) ++ bytes)
  | classRef name => classTag :: Bytes.ofWord16 name
  | other tag payload => tag :: payload

def PoolDraft.bytes (pool : PoolDraft) : Bytes := pool.constants.reverse.flatMap Constant.bytes

/-! ## The file of a draft -/

namespace MemberDraft

/-- A member with the slots of its name and of its descriptor. -/
structure Placed where
  member : MemberDraft
  name : UInt16
  descriptor : UInt16
  deriving DecidableEq, Repr

/-- The slots of the names of some members, after those placed before, last first. -/
def placeOnto (pool : PoolDraft) (placed : List Placed) :
    List MemberDraft → Except RangeError (List Placed × PoolDraft)
  | [] => .ok (placed.reverse, pool)
  | member :: members => do
    let (name, pool) ← pool.text member.name
    let (descriptor, pool) ← pool.text member.descriptor
    placeOnto pool ({ member, name, descriptor } :: placed) members

/-- A code attribute without its name: eight stack entries, eight variables, and no handlers. -/
def codeBody (code : Bytes) : Except RangeError Bytes := do
  let length ← Range.toWord32 code.length
  pure (Bytes.ofWord16 8 ++ Bytes.ofWord16 8 ++ Bytes.ofWord32 length ++ code ++ Bytes.ofWord16 0
    ++ Bytes.ofWord16 0)

def Placed.bytes (codeName : UInt16) (placed : Placed) : Except RangeError Bytes := do
  let head := Bytes.ofWord16 placed.member.access.bits ++ Bytes.ofWord16 placed.name
    ++ Bytes.ofWord16 placed.descriptor
  match placed.member.code with
  | none => pure (head ++ Bytes.ofWord16 0)
  | some code =>
    let body ← codeBody code
    let length ← Range.toWord32 body.length
    pure (head ++ Bytes.ofWord16 1 ++ Bytes.ofWord16 codeName ++ Bytes.ofWord32 length ++ body)

/-- A count of members and the members. -/
def listBytes (codeName : UInt16) (members : List Placed) : Except RangeError Bytes := do
  let count ← Range.toWord16 members.length
  let bodies ← members.mapM (Placed.bytes codeName)
  pure (Bytes.ofWord16 count ++ bodies.flatten)

end MemberDraft

/-- The name of the class that every draft extends. -/
def rootName : Bytes := utf8 "java/lang/Object"

namespace Draft

/-- The class file of a draft. -/
def bytes (draft : Draft) : Except RangeError Bytes := do
  let (thisClass, pool) ← PoolDraft.className {} draft.name
  let (superClass, pool) ← pool.className rootName
  let (codeName, pool) ← pool.text (utf8 "Code")
  let pool := draft.longs.foldl PoolDraft.long pool
  let (fields, pool) ← MemberDraft.placeOnto pool [] draft.fields
  let (methods, pool) ← MemberDraft.placeOnto pool [] draft.methods
  let fieldBytes ← MemberDraft.listBytes codeName fields
  let methodBytes ← MemberDraft.listBytes codeName methods
  pure (Bytes.ofWord32 0xCAFEBABE ++ Bytes.ofWord16 0 ++ Bytes.ofWord16 draft.major
    ++ Bytes.ofWord16 pool.next ++ pool.bytes ++ Bytes.ofWord16 0x0021 ++ Bytes.ofWord16 thisClass
    ++ Bytes.ofWord16 superClass ++ Bytes.ofWord16 0 ++ fieldBytes ++ methodBytes
    ++ Bytes.ofWord16 0)

end Draft

end MonitorCoverage.ClassFile
