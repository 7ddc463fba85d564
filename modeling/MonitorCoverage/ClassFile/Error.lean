import MonitorCoverage.ClassFile.Opcode

/-!
# Faults of a class file

A fault has a cause and the places around it, outermost first. The text of a fault names the
places in that order and then the cause.
-/

namespace MonitorCoverage.ClassFile

/-- What is wrong with the bytes. -/
inductive Cause where
  /-- More bytes are needed at an offset than there are. -/
  | truncated (need offset available : Nat)
  | badMagic (word : UInt32)
  | unsupportedVersion (major minor : UInt16)
  | unknownTag (tag : UInt8) (slot : Nat)
  | slotOutOfRange (slot : UInt16)
  | unexpectedTag (slot : UInt16) (tag wanted : UInt8)
  | unknownOpcode (op : Opcode) (offset : Nat)
  | unknownWide (op : Opcode) (offset : Nat)
  | emptyTable (low high : Int32)
  | negativePairs (pairs : Int32)
  deriving DecidableEq, Repr

/-- Where in a class file a fault lies. -/
inductive Place where
  | thisClass
  | superClass
  | interface
  | fields
  | methods
  | method (name descriptor : Bytes)
  | attribute (name : Bytes)
  | instruction (op : Opcode) (offset : Nat)
  /-- The instruction under a wide prefix. -/
  | wideInstruction (op : Opcode) (offset : Nat)
  deriving DecidableEq, Repr

structure Fault where
  places : List Place
  cause : Cause
  deriving DecidableEq, Repr

/-- Eight upper-case hexadecimal digits. -/
def hexWord (word : UInt32) : String :=
  String.ofList <| (List.range 8).map fun i =>
    (Nat.digitChar (word.toNat / Nat.pow 16 (7 - i) % 16)).toUpper

def Cause.message : Cause → Bytes
  | .truncated need offset available => utf8 <|
      "class file truncated: need " ++ Decimal.text need ++ " bytes at offset "
        ++ Decimal.text offset ++ ", have " ++ Decimal.text available
  | .badMagic word => utf8 <| "not a class file: bad magic number: 0x" ++ hexWord word
  | .unsupportedVersion major minor => utf8 <|
      "unsupported class file version: " ++ Decimal.text major.toNat ++ "."
        ++ Decimal.text minor.toNat
  | .unknownTag tag slot => utf8 <|
      "bad constant pool entry: tag " ++ Decimal.text tag.toNat ++ " at index " ++ Decimal.text slot
  | .slotOutOfRange slot => utf8 <|
      "bad constant pool entry: index " ++ Decimal.text slot.toNat ++ " out of range"
  | .unexpectedTag slot tag wanted => utf8 <|
      "bad constant pool entry: index " ++ Decimal.text slot.toNat ++ " has tag "
        ++ Decimal.text tag.toNat ++ ", want " ++ Decimal.text wanted.toNat
  | .unknownOpcode op offset => utf8 <|
      "unknown opcode: " ++ Decimal.text op.code.toNat ++ " at offset " ++ Decimal.text offset
  | .unknownWide op offset => utf8 <|
      "unknown opcode: wide " ++ op.text ++ " at offset " ++ Decimal.text offset
  | .emptyTable low high => utf8 <|
      "malformed code attribute: tableswitch high " ++ Decimal.text high.toInt ++ " < low "
        ++ Decimal.text low.toInt
  | .negativePairs pairs => utf8 <|
      "malformed code attribute: lookupswitch with " ++ Decimal.text pairs.toInt ++ " pairs"

def Place.message : Place → Bytes
  | .thisClass => utf8 "this_class: "
  | .superClass => utf8 "super_class: "
  | .interface => utf8 "interface: "
  | .fields => utf8 "fields: "
  | .methods => utf8 "methods: "
  | .method name descriptor => utf8 "method " ++ name ++ descriptor ++ utf8 ": "
  | .attribute name => utf8 "attribute " ++ name ++ utf8 ": "
  | .instruction op offset => utf8 <|
      "decode " ++ op.text ++ " at offset " ++ Decimal.text offset ++ ": "
  | .wideInstruction op offset => utf8 <|
      "decode wide " ++ op.text ++ " at offset " ++ Decimal.text offset ++ ": "

def Fault.message (fault : Fault) : Bytes :=
  fault.places.flatMap Place.message ++ fault.cause.message

/-- The same fault, seen from one place further out. -/
def Fault.within (place : Place) (fault : Fault) : Fault :=
  { fault with places := place :: fault.places }

def Fault.ofCause (cause : Cause) : Fault := ⟨[], cause⟩

end MonitorCoverage.ClassFile
