import MonitorCoverage.ClassFile.Basic

/-!
# Instruction events

An event is what the lock analysis sees of an instruction: its category, its opcode, and whether it
enters a monitor, leaves one or compares and jumps. Categories and kinds are numbers, of which only
the first few have a meaning. Some shapes of instructions have no category and give no event.
-/

namespace MonitorCoverage.Lock

open ClassFile (Opcode Shape)

structure Category where
  number : UInt8
  deriving DecidableEq, Repr

namespace Category

def plain : Category := ⟨0⟩
def int : Category := ⟨1⟩
def var : Category := ⟨2⟩
def type : Category := ⟨3⟩
def field : Category := ⟨4⟩
def method : Category := ⟨5⟩
def jump : Category := ⟨6⟩
def dynamicCall : Category := ⟨7⟩

/-- The names of the categories, in the order of their numbers. -/
def names : Array String :=
  #["no-operand", "int-operand", "var", "type-ref", "field-ref", "method-ref", "jump", "dynamic"]

def text (category : Category) : String := names[category.number.toNat]?.getD "unknown"

/-- The category of a shape, if its instructions give events. -/
def ofShape? : Shape → Option Category
  | .plain => some plain
  | .int => some int
  | .var => some var
  | .type => some type
  | .field => some field
  | .method => some method
  | .jump => some jump
  | .dynamicCall => some dynamicCall
  | .constant | .increment | .tableSwitch | .lookupSwitch | .multiArray => none

end Category

/-- What an event does to locks and counts. -/
structure EventKind where
  number : UInt8
  deriving DecidableEq, Repr

namespace EventKind

def other : EventKind := ⟨0⟩
def monitorEnter : EventKind := ⟨1⟩
def monitorExit : EventKind := ⟨2⟩
def compareJump : EventKind := ⟨3⟩

/-- Monitors are entered and left by instructions without operand. The jumps that compare are those
from the second comparison of integers up to the first comparison of references. -/
def resolve (category : Category) (opcode : Int64) : EventKind :=
  if category = .plain then
    if opcode = 194 then monitorEnter else if opcode = 195 then monitorExit else other
  else if category = .jump ∧ 160 ≤ opcode ∧ opcode ≤ 165 then compareJump
  else other

end EventKind

structure Event where
  category : Category
  opcode : Int64
  kind : EventKind
  deriving DecidableEq, Repr

namespace Event

def of (category : Category) (opcode : Int64) : Event :=
  { category, opcode, kind := .resolve category opcode }

def ofInstruction? (instruction : ClassFile.Instruction) : Option Event :=
  (Category.ofShape? instruction.shape).map fun category =>
    .of category instruction.opcode.code.toUInt64.toInt64

end Event

structure FieldUnit where
  name : Bytes
  descriptor : Bytes
  access : UInt16
  deriving DecidableEq, Repr

/-- A method and its events in order. -/
structure MethodUnit where
  name : Bytes
  descriptor : Bytes
  isSynchronized : Bool
  events : List Event
  deriving DecidableEq, Repr

/-- The subject of an analysis. -/
structure ClassUnit where
  name : Bytes
  fields : List FieldUnit
  methods : List MethodUnit
  deriving DecidableEq, Repr

def MethodUnit.ofMethod (method : ClassFile.Method) : MethodUnit :=
  { name := method.name, descriptor := method.descriptor,
    isSynchronized := method.access.isSynchronized,
    events := method.instructions.filterMap Event.ofInstruction? }

def ClassUnit.ofFile (file : ClassFile) : ClassUnit :=
  { name := file.name
    fields := file.fields.map fun field =>
      { name := field.name, descriptor := field.descriptor, access := field.access.bits }
    methods := file.methods.map MethodUnit.ofMethod }

end MonitorCoverage.Lock
