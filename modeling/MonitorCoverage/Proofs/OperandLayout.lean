import Mathlib.Tactic.MkIffOfInductiveProp
import MonitorCoverage.Proofs.InstructionSet
import MonitorCoverage.Proofs.Recognition

/-!
# Operands and their layouts

The decoder finds the operands of an opcode by a row of tests on the opcode and its shape. Each test
is one on the layout of the opcode, which is checked for all bytes. So the reader of operands is
chosen by the layout alone, and it recognizes the phrases of that layout.
-/

namespace MonitorCoverage.ClassFile

/-- The shapes of the opcodes with a layout. -/
def OperandLayout.shapes : OperandLayout → List Shape
  | .none | .compactLoad | .compactStore | .wideConstant | .longBranch | .wide => [.plain]
  | .signedByte | .signedWord => [.int]
  | .constant => [.constant]
  | .variableSlot => [.var]
  | .increment => [.increment]
  | .branch => [.jump]
  | .poolIndex => [.field, .method, .type]
  | .interfaceCall => [.method]
  | .dynamicCall => [.dynamicCall]
  | .multiArray => [.multiArray]
  | .tableSwitch => [.tableSwitch]
  | .lookupSwitch => [.lookupSwitch]

/-- The opcode with a layout, where there is only one. -/
def OperandLayout.opcode? : OperandLayout → Option Opcode
  | .signedWord => some .shortConstant
  | .constant => some .loadConstant
  | .increment => some .increment
  | .interfaceCall => some .callInterface
  | .dynamicCall => some .callDynamic
  | .multiArray => some .newMultiArray
  | .tableSwitch => some .tableSwitch
  | .lookupSwitch => some .lookupSwitch
  | .wide => some .wide
  | _ => Option.none

namespace Opcode

/-- The tests that are made on an opcode are tests on its layout. -/
@[mk_iff]
structure TestsLayout (op : Opcode) : Prop where
  isDefined_iff : op.isDefined = true ↔ op.layout?.isSome
  isSome_compactVar?_iff : op.compactVar?.isSome = true ↔
    op.layout? = some .compactLoad ∨ op.layout? = some .compactStore
  eq_wide_iff : op = .wide ↔ op.layout? = some .wide
  eq_wideConstant_iff :
    op = .loadConstantWide ∨ op = .loadConstantPair ↔ op.layout? = some .wideConstant
  eq_shortConstant_iff : op = .shortConstant ↔ op.layout? = some .signedWord
  eq_longBranch_iff : op = .jumpWide ∨ op = .subroutineWide ↔ op.layout? = some .longBranch
  eq_callInterface_iff : op = .callInterface ↔ op.layout? = some .interfaceCall
  eq_signedByte_iff : op = .byteConstant ∨ op = .newPrimitiveArray ↔ op.layout? = some .signedByte
  shape_eq_jump_iff : op.shape = .jump ↔ op.layout? = some .branch
  shape_eq_var_iff : op.shape = .var ↔ op.layout? = some .variableSlot
  shape_mem_shapes : ∀ layout ∈ op.layout?, op.shape ∈ layout.shapes
  eq_of_opcode? : ∀ layout ∈ op.layout?, ∀ only ∈ layout.opcode?, op = only
  exists_compactLoad : op.layout? = some .compactLoad →
    ∃ (type : Fin 5) (slot : Fin 4), op = ⟨UInt8.ofNat (26 + 4 * type + slot)⟩
  exists_compactStore : op.layout? = some .compactStore →
    ∃ (type : Fin 5) (slot : Fin 4), op = ⟨UInt8.ofNat (59 + 4 * type + slot)⟩

instance (op : Opcode) : Decidable op.TestsLayout := decidable_of_iff' _ (testsLayout_iff op)

/-- What can be checked of an opcode is checked by trying all bytes. -/
theorem forall_of_bytes {p : Opcode → Prop} (h : ∀ n : Fin 256, p ⟨⟨⟨n⟩⟩⟩) (op : Opcode) : p op :=
  h op.code.toBitVec.toFin

theorem testsLayout (op : Opcode) : op.TestsLayout := by
  revert op
  apply forall_of_bytes
  decide +kernel

end Opcode

namespace Operands
open Decoder RawInstruction

/-- The reader of the operands in a layout. -/
def layoutReader (op : Opcode) (offset : Nat) : OperandLayout → Decoder Operands
  | .compactLoad | .compactStore => pure .none
  | .wide => readWide offset
  | .none => within (.instruction op offset) (pure .none)
  | .signedByte | .constant | .variableSlot => within (.instruction op offset) (.byte <$> u1)
  | .signedWord | .wideConstant | .branch | .poolIndex =>
    within (.instruction op offset) (.word <$> u2)
  | .longBranch => within (.instruction op offset) (.longWord <$> u4)
  | .increment => within (.instruction op offset) do return .increment (← u1) (← u1)
  | .interfaceCall => within (.instruction op offset) do return .interfaceCall (← u2) (← take 2)
  | .dynamicCall => within (.instruction op offset) do return .dynamicCall (← u2) (← take 2)
  | .multiArray => within (.instruction op offset) do return .multiArray (← u2) (← u1)
  | .tableSwitch => within (.instruction op offset) (readTableSwitch offset)
  | .lookupSwitch => within (.instruction op offset) (readLookupSwitch offset)

theorem read_eq_layoutReader {op : Opcode} {layout : OperandLayout} (h : op.layout? = some layout)
    (offset : Nat) : read op offset = layoutReader op offset layout := by
  have tests := op.testsLayout
  have hs := tests.shape_mem_shapes layout h
  simp only [read, readNarrow, Bool.or_eq_true, decide_eq_true_eq, tests.isSome_compactVar?_iff,
    tests.eq_wide_iff, tests.eq_wideConstant_iff, tests.eq_shortConstant_iff,
    tests.eq_longBranch_iff, tests.eq_callInterface_iff, h, Option.some.injEq]
  cases layout <;>
    simp only [OperandLayout.shapes, List.mem_cons, List.not_mem_nil, or_false] at hs <;>
    simp only [reduceCtorEq, or_false, or_true, if_true, if_false, or_self, layoutReader, hs]
  rcases hs with hs | hs | hs <;> simp only [hs]

/-- The bytes of the operands in a layout, for an instruction at an offset. -/
def Phrase (offset : Nat) : OperandLayout → Bytes → Operands → Prop
  | .none, phrase, operands | .compactLoad, phrase, operands | .compactStore, phrase, operands =>
    phrase = [] ∧ operands = .none
  | .signedByte, phrase, operands | .constant, phrase, operands
  | .variableSlot, phrase, operands => ∃ value, phrase = [value] ∧ operands = .byte value
  | .signedWord, phrase, operands | .wideConstant, phrase, operands | .branch, phrase, operands
  | .poolIndex, phrase, operands => ∃ value, phrase = Bytes.ofWord16 value ∧ operands = .word value
  | .longBranch, phrase, operands =>
    ∃ value, phrase = Bytes.ofWord32 value ∧ operands = .longWord value
  | .increment, phrase, operands =>
    ∃ slot amount, phrase = [slot, amount] ∧ operands = .increment slot amount
  | .interfaceCall, phrase, operands => ∃ index reserved, reserved.length = 2 ∧
    phrase = Bytes.ofWord16 index ++ reserved ∧ operands = .interfaceCall index reserved
  | .dynamicCall, phrase, operands => ∃ index reserved, reserved.length = 2 ∧
    phrase = Bytes.ofWord16 index ++ reserved ∧ operands = .dynamicCall index reserved
  | .multiArray, phrase, operands => ∃ index dimensions,
    phrase = Bytes.ofWord16 index ++ [dimensions] ∧ operands = .multiArray index dimensions
  | .tableSwitch, phrase, operands => ∃ padding default low high targets,
    padding.length = switchPadding offset ∧ default.length = 4 ∧ ¬high.toInt32 < low.toInt32 ∧
    targets.length = (tableSize low.toInt32 high.toInt32).toNat ∧
    phrase = padding ++ default ++ Bytes.ofWord32 low ++ Bytes.ofWord32 high ++ targets ∧
    operands = .tableSwitch padding default low high targets
  | .lookupSwitch, phrase, operands => ∃ padding default pairs targets,
    padding.length = switchPadding offset ∧ default.length = 4 ∧ ¬pairs.toInt32 < 0 ∧
    targets.length = (lookupSize pairs.toInt32).toNat ∧
    phrase = padding ++ default ++ Bytes.ofWord32 pairs ++ targets ∧
    operands = .lookupSwitch padding default pairs targets
  | .wide, phrase, operands =>
    (∃ op slot, op.layout? = some .variableSlot ∧ phrase = op.code :: Bytes.ofWord16 slot ∧
      operands = .wide op slot) ∨
    (∃ slot amount, phrase = 132 :: (Bytes.ofWord16 slot ++ Bytes.ofWord16 amount) ∧
      operands = .wideIncrement slot amount)

theorem recognizes_tableSwitch (offset : Nat) : Recognizes (readTableSwitch offset)
    fun _ phrase operands => Phrase offset .tableSwitch phrase operands := by
  refine (Recognizes.bind (.take _) fun head => .bind .u4 fun low => .bind .u4 fun high =>
    .ite (fun _ => .fail _) fun _ => .bind (.take _) fun targets => .pure _).congr ?_
  intro start phrase operands
  constructor
  · rintro ⟨head, _, _, rfl, ⟨rfl, hhead⟩, low, _, _, rfl, rfl, high, _, _, rfl, rfl, h⟩
    split at h
    · cases h
    · rename_i hlow
      obtain ⟨targets, _, _, rfl, ⟨rfl, htargets⟩, rfl, rfl⟩ := h
      refine ⟨_, _, low, high, targets, ?_, ?_, hlow, htargets, ?_, rfl⟩
      · simp [hhead]
      · simp [hhead]
      · simp [← List.append_assoc]
  · rintro ⟨padding, default, low, high, targets, hp, hd, hlow, ht, rfl, rfl⟩
    refine ⟨padding ++ default, padding ++ default,
      Bytes.ofWord32 low ++ (Bytes.ofWord32 high ++ targets), by simp only [List.append_assoc],
      ⟨rfl, by simp [hp, hd]⟩, low, _, _, rfl, rfl, high, _, _, rfl, rfl, ?_⟩
    rw [if_neg hlow]
    exact ⟨targets, targets, [], by simp, ⟨rfl, ht⟩, rfl, by simp [← hp]⟩

theorem recognizes_lookupSwitch (offset : Nat) : Recognizes (readLookupSwitch offset)
    fun _ phrase operands => Phrase offset .lookupSwitch phrase operands := by
  refine (Recognizes.bind (.take _) fun head => .bind .u4 fun pairs =>
    .ite (fun _ => .fail _) fun _ => .bind (.take _) fun targets => .pure _).congr ?_
  intro start phrase operands
  constructor
  · rintro ⟨head, _, _, rfl, ⟨rfl, hhead⟩, pairs, _, _, rfl, rfl, h⟩
    split at h
    · cases h
    · rename_i hpairs
      obtain ⟨targets, _, _, rfl, ⟨rfl, htargets⟩, rfl, rfl⟩ := h
      refine ⟨_, _, pairs, targets, ?_, ?_, hpairs, htargets, ?_, rfl⟩
      · simp [hhead]
      · simp [hhead]
      · simp [← List.append_assoc]
  · rintro ⟨padding, default, pairs, targets, hp, hd, hpairs, ht, rfl, rfl⟩
    refine ⟨padding ++ default, padding ++ default, Bytes.ofWord32 pairs ++ targets,
      by simp only [List.append_assoc], ⟨rfl, by simp [hp, hd]⟩, pairs, _, _, rfl, rfl, ?_⟩
    rw [if_neg hpairs]
    exact ⟨targets, targets, [], by simp, ⟨rfl, ht⟩, rfl, by simp [← hp]⟩

theorem recognizes_wide (offset : Nat) : Recognizes (readWide offset)
    fun _ phrase operands => Phrase offset .wide phrase operands := by
  refine (Recognizes.bind (.within _ (.map _ .u1)) fun op => .bind (.within _ .u2) fun slot =>
    .ite (fun _ => .bind (.within _ .u2) fun amount => .pure _) fun _ =>
      .ite (fun _ => .pure _) fun _ => .fail _).congr ?_
  intro start phrase operands
  constructor
  · rintro ⟨op, _, _, rfl, ⟨code, rfl, rfl⟩, slot, _, _, rfl, rfl, h⟩
    split at h
    · rename_i hop
      obtain ⟨amount, _, _, rfl, rfl, rfl, rfl⟩ := h
      obtain rfl : code = 132 := congrArg Opcode.code hop
      exact .inr ⟨slot, amount, by simp, rfl⟩
    · split at h
      · rename_i hshape
        obtain ⟨rfl, rfl⟩ := h
        exact .inl ⟨⟨code⟩, slot, (Opcode.testsLayout _).shape_eq_var_iff.mp hshape, by simp, rfl⟩
      · cases h
  · rintro (⟨op, slot, hop, rfl, rfl⟩ | ⟨slot, amount, rfl, rfl⟩)
    · have hne : op ≠ .increment := by rintro rfl; cases hop
      refine ⟨op, [op.code], Bytes.ofWord16 slot, rfl, ⟨op.code, rfl, rfl⟩, slot, _, [],
        (List.append_nil _).symm, rfl, ?_⟩
      rw [if_neg hne, if_pos (op.testsLayout.shape_eq_var_iff.mpr hop)]
      exact ⟨rfl, rfl⟩
    · refine ⟨.increment, [132], _, rfl, ⟨132, rfl, rfl⟩, slot, _, _, rfl, rfl, ?_⟩
      rw [if_pos rfl]
      exact ⟨amount, _, [], (List.append_nil _).symm, rfl, rfl, rfl⟩

/-- The reader of a layout recognizes the phrases of the layout. -/
theorem recognizes_layoutReader (op : Opcode) (offset : Nat) (layout : OperandLayout) :
    Recognizes (layoutReader op offset layout) fun _ phrase operands =>
      Phrase offset layout phrase operands := by
  cases layout with
  | none => exact .within (.instruction op offset) (.pure _)
  | compactLoad | compactStore => exact .pure _
  | signedByte | constant | variableSlot => exact .within _ (.map _ .u1)
  | signedWord | wideConstant | branch | poolIndex => exact .within _ (.map _ .u2)
  | longBranch => exact .within _ (.map _ .u4)
  | increment =>
    refine .within _ ((Recognizes.bind .u1 fun slot => .bind .u1 fun amount => .pure _).congr ?_)
    intro start phrase operands
    constructor
    · rintro ⟨slot, _, _, rfl, rfl, amount, _, _, rfl, rfl, rfl, rfl⟩
      exact ⟨slot, amount, rfl, rfl⟩
    · rintro ⟨slot, amount, rfl, rfl⟩
      exact ⟨slot, [slot], [amount], rfl, rfl, amount, [amount], [], rfl, rfl, rfl, rfl⟩
  | interfaceCall | dynamicCall =>
    refine .within _ ((Recognizes.bind .u2 fun index => .bind (.take 2) fun reserved =>
      .pure _).congr ?_)
    intro start phrase operands
    constructor
    · rintro ⟨index, _, _, rfl, rfl, reserved, _, _, rfl, ⟨rfl, hr⟩, rfl, rfl⟩
      exact ⟨index, reserved, hr, by simp, rfl⟩
    · rintro ⟨index, reserved, hr, rfl, rfl⟩
      exact ⟨index, _, _, rfl, rfl, reserved, reserved, [], by simp, ⟨rfl, hr⟩, rfl, rfl⟩
  | multiArray =>
    refine .within _ ((Recognizes.bind .u2 fun index => .bind .u1 fun dimensions =>
      .pure _).congr ?_)
    intro start phrase operands
    constructor
    · rintro ⟨index, _, _, rfl, rfl, dimensions, _, _, rfl, rfl, rfl, rfl⟩
      exact ⟨index, dimensions, rfl, rfl⟩
    · rintro ⟨index, dimensions, rfl, rfl⟩
      exact ⟨index, _, _, rfl, rfl, dimensions, [dimensions], [], rfl, rfl, rfl, rfl⟩
  | tableSwitch => exact .within _ (recognizes_tableSwitch offset)
  | lookupSwitch => exact .within _ (recognizes_lookupSwitch offset)
  | wide => exact recognizes_wide offset

end Operands

end MonitorCoverage.ClassFile
