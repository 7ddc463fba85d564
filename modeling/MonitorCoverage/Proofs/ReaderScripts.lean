import MonitorCoverage.Proofs.ByteRequests
import MonitorCoverage.Proofs.CodeTruncation
import MonitorCoverage.Proofs.SlotAlignment

/-!
# Scripts of the readers

Parsing asks for bytes whose number may come from the file: lengths, counts and the bounds of a
switch. Each reader has a script that follows its definition and tells how the sizes are computed.
A size is safe by the range of the words that it is computed from; for a switch also by the tests
that were passed before, and for its padding by the offset of the instruction.
-/

namespace MonitorCoverage.ClassFile

open Decoder

/-! ## Scripts of the outline -/

namespace Constant

theorem payloadSize?_lt {tag : UInt8} {size : Nat} (h : payloadSize? tag = some size) :
    size < 2 ^ 35 := by
  have hmem := payloadSize?_eq_some_iff.mp h
  simp only [payloads, List.mem_cons, Prod.mk.injEq, List.not_mem_nil, or_false] at hmem
  omega

def payloadScript (tag : UInt8) (slot : Nat) :
    Script 0 (match payloadSize? tag with
      | some size => other tag <$> take size
      | none => fail (.unknownTag tag slot)) :=
  match h : payloadSize? tag with
  | some size => .map _ (.take size (payloadSize?_lt h))
  | none => .fail _ (by simp [Cause.kind])

def script (slot : Nat) : Script 0 (read slot) :=
  .bind .u1 fun tag => .ite (fun _ => .bind .u2 fun length => .map _ (.takeWord16 length)) fun _ =>
    .ite (fun _ => .map _ .u2) fun _ => payloadScript tag slot

end Constant

namespace ConstantPool

def slotsScript : (n : Nat) → (slots : Array (Option Constant)) → Script 0 (readSlots n slots)
  | 0, slots => .pure slots
  | 1, slots => .bind (Constant.script slots.size) fun _ => .pure _
  | n + 2, slots => .bind (Constant.script slots.size) fun _ =>
    .ite (fun _ => slotsScript n _) fun _ => slotsScript (n + 1) _

def script : Script 0 ConstantPool.read :=
  .bind .u2 fun _ => .ite (fun _ => .pure _) fun _ => .bind (slotsScript _ _) fun _ => .pure _

variable (pool : ConstantPool)

def textScript : Script 0 pool.readText :=
  .bind .u2 fun slot =>
    match h : pool.text slot with
    | .ok _ => .pure _
    | .error cause => .fail cause (by simp [kind_of_text_eq_error h])

def classNameAtScript (slot : UInt16) :
    Script 0 (match pool.className slot with
      | .ok bytes => pure bytes
      | .error cause => fail cause) :=
  match h : pool.className slot with
  | .ok _ => .pure _
  | .error cause => .fail cause (by simp [kind_of_className_eq_error h])

def classNameScript : Script 0 pool.readClassName := .bind .u2 pool.classNameAtScript

def optionalClassNameScript : Script 0 pool.readOptionalClassName :=
  .bind .u2 fun slot => .ite (fun _ => .pure []) fun _ => pool.classNameAtScript slot

end ConstantPool

def Attribute.script (pool : ConstantPool) : Script 0 (Attribute.read pool) :=
  .bind pool.textScript fun name => .bind .u4 fun length =>
    .bind (.within (.attribute name) (.takeWord32 length)) fun _ => .pure _

def Member.script (pool : ConstantPool) : Script 0 (Member.read pool) :=
  .bind .u2 fun _ => .bind pool.textScript fun _ => .bind pool.textScript fun _ =>
    .bind (.counted (Attribute.script pool)) fun _ => .pure _

def Outline.script : Script 0 Outline.read :=
  .bind .u4 fun _ => .guarded (by simp [Cause.kind]) <| .bind .u2 fun _ => .bind .u2 fun _ =>
    .guarded (by simp [Cause.kind]) <|
    .bind ConstantPool.script fun pool => .bind .u2 fun _ =>
    .bind (.within .thisClass pool.classNameScript) fun _ =>
    .bind (.within .superClass pool.optionalClassNameScript) fun _ =>
    .bind (.counted (.within .interface pool.classNameScript)) fun _ =>
    .bind (.within .fields (.counted (Member.script pool))) fun _ =>
    .bind (.within .methods (.counted (Member.script pool))) fun _ => .pure _

/-! ## Scripts of code -/

/-- The bytes of the exception table of a code attribute: four words of two bytes for each entry. -/
def handlerBytes (handlers : UInt16) : WordTerm :=
  .product (.product (.given handlers.toNat) (.given 2)) (.given 4)

theorem exact_handlerBytes (handlers : UInt16) :
    (handlerBytes handlers).exact = (handlers.toNat * 8 : Nat) := by
  simp only [handlerBytes, WordTerm.exact]
  omega

theorem isSafe_handlerBytes (start : Nat) (handlers : UInt16) :
    (handlerBytes handlers).IsSafe start := by
  have hlt := handlers.toNat_lt
  refine .of_exact_eq (exact_handlerBytes handlers) (by omega) fun _ => ?_
  simp only [handlerBytes, WordTerm.Fits, WordTerm.IsWord, WordTerm.exact]
  omega

def Code.bodyScript : Script 0 Code.readBody :=
  .bind .u2 fun _ => .bind .u2 fun _ => .bind .u4 fun length =>
    .bind (.takeWord32 length) fun _ => .bind .u2 fun handlers =>
    .bind (.read (handlerBytes handlers) (isSafe_handlerBytes 0 handlers)
      (exact_handlerBytes handlers) (.skip _)) fun _ => .pure _

/-- The padding of a switch at an offset and its default target. -/
def switchHead (offset : Nat) : WordTerm :=
  .sum (.remainder
      (.difference (.given 4) (.remainder (.sum (.given offset) (.given 1)) (.given 4))) (.given 4))
    (.given 4)

theorem exact_switchHead (offset : Nat) :
    (switchHead offset).exact = (switchPadding offset + 4 : Nat) := by
  simp only [switchHead, WordTerm.exact, switchPadding]
  rw [Int.tmod_eq_emod_of_nonneg (show (0 : Int) ≤ offset + 1 by omega),
    Int.tmod_eq_emod_of_nonneg (by omega)]
  omega

theorem isSafe_switchHead (offset : Nat) : (switchHead offset).IsSafe offset := by
  have hlt : switchPadding offset < 4 := Nat.mod_lt _ (by decide)
  refine .of_exact_eq (exact_switchHead offset) (by omega) fun hstart => ?_
  simp only [switchHead, WordTerm.Fits, WordTerm.IsWord, WordTerm.exact]
  rw [Int.tmod_eq_emod_of_nonneg (show (0 : Int) ≤ offset + 1 by omega),
    Int.tmod_eq_emod_of_nonneg (by omega)]
  omega

/-- The targets of a table switch: four bytes for each number from one bound to the other. -/
def tableBytes (low high : Int32) : WordTerm :=
  .product (.sum (.difference (.given high.toInt) (.given low.toInt)) (.given 1)) (.given 4)

theorem exact_tableBytes {low high : Int32} (h : ¬high < low) :
    (tableBytes low high).exact = ((tableSize low high).toNat : Nat) := by
  rw [Int32.lt_iff_toInt_lt] at h
  simp only [tableBytes, WordTerm.exact, tableSize]
  omega

/-- The bounds may be as far apart as words of 32 bits allow. -/
theorem isSafe_tableBytes (start : Nat) {low high : Int32} (h : ¬high < low) :
    (tableBytes low high).IsSafe start := by
  have hlow := low.le_toInt
  have hhigh := high.toInt_lt
  have hsize : (tableSize low high).toNat < 2 ^ 35 := by
    simp only [tableSize]
    omega
  refine .of_exact_eq (exact_tableBytes h) hsize fun _ => ?_
  rw [Int32.lt_iff_toInt_lt] at h
  simp only [tableBytes, WordTerm.Fits, WordTerm.IsWord, WordTerm.exact]
  omega

/-- The pairs of a lookup switch, of eight bytes each. -/
def lookupBytes (pairs : Int32) : WordTerm := .product (.given pairs.toInt) (.given 8)

theorem exact_lookupBytes {pairs : Int32} (h : ¬pairs < 0) :
    (lookupBytes pairs).exact = ((lookupSize pairs).toNat : Nat) := by
  rw [Int32.lt_iff_toInt_lt, Int32.toInt_zero] at h
  simp only [lookupBytes, WordTerm.exact, lookupSize]
  omega

theorem isSafe_lookupBytes (start : Nat) {pairs : Int32} (h : ¬pairs < 0) :
    (lookupBytes pairs).IsSafe start := by
  have hpairs := pairs.toInt_lt
  have hsize : (lookupSize pairs).toNat < 2 ^ 35 := by
    simp only [lookupSize]
    omega
  refine .of_exact_eq (exact_lookupBytes h) hsize fun _ => ?_
  rw [Int32.lt_iff_toInt_lt, Int32.toInt_zero] at h
  simp only [lookupBytes, WordTerm.Fits, WordTerm.IsWord, WordTerm.exact]
  omega

namespace Operands

def switchHeadScript (offset : Nat) : Script offset (take (switchPadding offset + 4)) :=
  .read (switchHead offset) (isSafe_switchHead offset) (exact_switchHead offset) (.take _)

def tableSwitchScript (offset : Nat) : Script offset (readTableSwitch offset) :=
  .bind (switchHeadScript offset) fun _ => .bind .u4 fun low => .bind .u4 fun high =>
    .ite (fun _ => .fail _ (by simp [Cause.kind])) fun h =>
      .bind (.read (tableBytes low.toInt32 high.toInt32) (isSafe_tableBytes offset h)
        (exact_tableBytes h) (.take _)) fun _ => .pure _

def lookupSwitchScript (offset : Nat) : Script offset (readLookupSwitch offset) :=
  .bind (switchHeadScript offset) fun _ => .bind .u4 fun pairs =>
    .ite (fun _ => .fail _ (by simp [Cause.kind])) fun h =>
      .bind (.read (lookupBytes pairs.toInt32) (isSafe_lookupBytes offset h)
        (exact_lookupBytes h) (.take _)) fun _ => .pure _

def wideScript (offset : Nat) : Script offset (readWide offset) :=
  .bind (.within _ (.map _ .u1)) fun op => .bind (.within _ .u2) fun _ =>
    .ite (fun _ => .bind (.within _ .u2) fun _ => .pure _) fun _ =>
      .ite (fun _ => .pure _) fun _ => .fail (.unknownWide op offset) (by simp [Cause.kind])

def narrowScript (op : Opcode) (offset : Nat) : Script offset (readNarrow op offset) :=
  .ite (fun _ => .map _ .u2) fun _ => .ite (fun _ => .map _ .u4) fun _ =>
    .ite (fun _ => .bind .u2 fun _ => .bind (.take 2 (by decide)) fun _ => .pure _) fun _ =>
      match op.shape with
      | .int | .constant | .var => .map _ .u1
      | .increment => .bind .u1 fun _ => .bind .u1 fun _ => .pure _
      | .jump | .field | .method | .type => .map _ .u2
      | .dynamicCall => .bind .u2 fun _ => .bind (.take 2 (by decide)) fun _ => .pure _
      | .multiArray => .bind .u2 fun _ => .bind .u1 fun _ => .pure _
      | .tableSwitch => tableSwitchScript offset
      | .lookupSwitch => lookupSwitchScript offset
      | .plain => .pure _

def script (op : Opcode) (offset : Nat) : Script offset (read op offset) :=
  .ite (fun _ => .pure _) fun _ => .ite (fun _ => wideScript offset) fun _ =>
    .within _ (narrowScript op offset)

end Operands

namespace Written

/-- Reading an instruction, once its offset is known. -/
def readAt (offset : Nat) : Decoder Written := do
  let op : Opcode := ⟨← u1⟩
  if op.isDefined then Written.mk op <$> Operands.read op offset
  else fail (.unknownOpcode op offset)

theorem read_eq_readAt (c : Cursor) : read c = readAt c.offset c := rfl

def script (offset : Nat) : Script offset (readAt offset) :=
  .bind .u1 fun code => .ite (fun _ => .map _ (Operands.script ⟨code⟩ offset)) fun _ =>
    .fail _ (by simp [Cause.kind])

end Written

end MonitorCoverage.ClassFile
