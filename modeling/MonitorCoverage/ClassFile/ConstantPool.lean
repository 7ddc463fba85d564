import MonitorCoverage.ClassFile.Decoder

/-!
# The constant pool

The pool is a row of slots, numbered from zero. Slot zero is never used, and a constant of eight
bytes takes two slots, of which the second stays unused. Of a constant only what names need is kept
apart: the bytes of a text and the slot that a class takes its name from.
-/

namespace MonitorCoverage.ClassFile

inductive Constant where
  | text (bytes : Bytes)
  | classRef (name : UInt16)
  /-- A constant that no name goes through, by its tag. -/
  | other (tag : UInt8) (payload : Bytes)
  deriving DecidableEq, Repr

namespace Constant
open Decoder

def textTag : UInt8 := 1
def classTag : UInt8 := 7

def tag : Constant → UInt8
  | text _ => textTag
  | classRef _ => classTag
  | other tag _ => tag

/-- The number of slots that a constant takes. -/
def width (constant : Constant) : Nat := if constant.tag = 5 || constant.tag = 6 then 2 else 1

/-- The number of bytes after the tag of a constant that is neither text nor class. -/
def payloadSize? (tag : UInt8) : Option Nat :=
  if tag = 8 || tag = 16 || tag = 19 || tag = 20 then some 2
  else if tag = 3 || tag = 4 || tag = 9 || tag = 10 || tag = 11 || tag = 12 || tag = 17 || tag = 18
  then some 4
  else if tag = 5 || tag = 6 then some 8
  else if tag = 15 then some 3
  else none

/-- The constant for a slot. -/
def read (slot : Nat) : Decoder Constant := do
  let tag ← u1
  if tag = textTag then
    let length ← u2
    text <$> take length.toNat
  else if tag = classTag then classRef <$> u2
  else
    match payloadSize? tag with
    | some size => other tag <$> take size
    | none => fail (.unknownTag tag slot)

end Constant

structure ConstantPool where
  slots : Array (Option Constant)
  deriving Repr

namespace ConstantPool
open Decoder

/-- Fills a number of slots after those filled before. A constant that would take two slots takes
one where only one is left. -/
def readSlots : Nat → Array (Option Constant) → Decoder (Array (Option Constant))
  | 0, slots => pure slots
  | 1, slots => do
    let constant ← Constant.read slots.size
    pure (slots.push constant)
  | n + 2, slots => do
    let constant ← Constant.read slots.size
    if constant.width = 2 then readSlots n ((slots.push constant).push none)
    else readSlots (n + 1) (slots.push constant)

def read : Decoder ConstantPool := do
  let count ← u2
  if count = 0 then pure ⟨#[]⟩ else return ⟨← readSlots (count.toNat - 1) #[none]⟩

/-- The tag of what a slot holds; an unused slot has tag zero. -/
def slotTag : Option Constant → UInt8
  | some constant => constant.tag
  | none => 0

/-- What a slot holds, if it is a slot that can be used. -/
def slot? (pool : ConstantPool) (slot : UInt16) : Option (Option Constant) :=
  if slot = 0 then none else pool.slots[slot.toNat]?

/-- The text in a slot. -/
def text (pool : ConstantPool) (slot : UInt16) : Except Cause Bytes :=
  match pool.slot? slot with
  | none => .error (.slotOutOfRange slot)
  | some (some (.text bytes)) => .ok bytes
  | some held => .error (.unexpectedTag slot (slotTag held) Constant.textTag)

/-- The name of the class in a slot. -/
def className (pool : ConstantPool) (slot : UInt16) : Except Cause Bytes :=
  match pool.slot? slot with
  | none => .error (.slotOutOfRange slot)
  | some (some (.classRef name)) => pool.text name
  | some held => .error (.unexpectedTag slot (slotTag held) Constant.classTag)

/-- The slot number that comes next, and the text in that slot. -/
def readText (pool : ConstantPool) : Decoder Bytes := do
  let slot ← u2
  match pool.text slot with
  | .ok bytes => pure bytes
  | .error cause => fail cause

/-- The slot number that comes next, and the name of the class in that slot. -/
def readClassName (pool : ConstantPool) : Decoder Bytes := do
  let slot ← u2
  match pool.className slot with
  | .ok bytes => pure bytes
  | .error cause => fail cause

/-- As `readClassName`, where slot zero stands for no class and gives the empty name. -/
def readOptionalClassName (pool : ConstantPool) : Decoder Bytes := do
  let slot ← u2
  if slot = 0 then pure []
  else
    match pool.className slot with
    | .ok bytes => pure bytes
    | .error cause => fail cause

end ConstantPool

end MonitorCoverage.ClassFile
