import MonitorCoverage.Proofs.FaultKinds
import MonitorCoverage.Proofs.OperandLayout

/-!
# What goes through the readers of instructions

The readers of instructions are put together from a few parts: reads of words and bytes, the offset,
places and failures. A relation of decoders that the parts keep is kept by every reader. So what has
to be said of all operand layouts is shown for the parts alone. The two decoders of a pair may stand
at different offsets, as long as these differ by whole words: the padding of a switch, which is the
only thing that an offset decides, is then the same.
-/

namespace MonitorCoverage.ClassFile

/-- The same cause, found a number of bytes further on. -/
def Cause.shift (n : Nat) : Cause → Cause
  | .truncated need offset available => .truncated need (offset + n) available
  | .unknownOpcode op offset => .unknownOpcode op (offset + n)
  | .unknownWide op offset => .unknownWide op (offset + n)
  | cause => cause

def Place.shift (n : Nat) : Place → Place
  | .instruction op offset => .instruction op (offset + n)
  | .wideInstruction op offset => .wideInstruction op (offset + n)
  | place => place

theorem switchPadding_add {n : Nat} (hn : n % 4 = 0) (offset : Nat) :
    switchPadding (offset + n) = switchPadding offset := by
  unfold switchPadding
  omega

namespace Decoder

/-- A relation that the parts keep from which instructions are read, where the second decoder of a
pair stands `n` bytes further on than the first. -/
structure Congruence (n : Nat) (rel : ∀ {α : Type}, Decoder α → Decoder α → Prop) : Prop where
  pure {α : Type} (a : α) : rel (Pure.pure a) (Pure.pure a)
  fail {α : Type} (cause : Cause) : cause.kind = .unknownOpcode ∨ cause.kind = .badCode →
    rel (fail cause : Decoder α) (fail (cause.shift n))
  bind {α β : Type} {decoder decoder' : Decoder α} {next next' : α → Decoder β} :
    rel decoder decoder' → (∀ a, rel (next a) (next' a)) →
      rel (decoder >>= next) (decoder' >>= next')
  within {α : Type} {decoder decoder' : Decoder α} (place : Place) :
    rel decoder decoder' → rel (within place decoder) (within (place.shift n) decoder')
  offset {α : Type} {next next' : Nat → Decoder α} :
    (∀ k, rel (next k) (next' (k + n))) → rel (offset >>= next) (offset >>= next')
  u1 : rel u1 u1
  u2 : rel u2 u2
  u4 : rel u4 u4
  take (k : Nat) : rel (take k) (take k)

namespace Congruence

variable {n : Nat} {rel : ∀ {α : Type}, Decoder α → Decoder α → Prop}

theorem map {α β : Type} {decoder decoder' : Decoder α} (h : Congruence n rel) (f : α → β)
    (hd : rel decoder decoder') : rel (f <$> decoder) (f <$> decoder') := by
  rw [map_eq_pure_bind, map_eq_pure_bind]
  exact h.bind hd fun a => h.pure (f a)

theorem ite {α : Type} {p : Prop} [Decidable p] {decoder decoder' other other' : Decoder α}
    (hd : rel decoder decoder') (ho : rel other other') :
    rel (if p then decoder else other) (if p then decoder' else other') := by
  by_cases hp : p
  · simpa only [if_pos hp] using hd
  · simpa only [if_neg hp] using ho

open Operands

theorem readTableSwitch (h : Congruence n rel) (hn : n % 4 = 0) (offset : Nat) :
    rel (readTableSwitch offset) (readTableSwitch (offset + n)) := by
  unfold Operands.readTableSwitch
  rw [switchPadding_add hn]
  exact h.bind (h.take _) fun _ => h.bind h.u4 fun _ => h.bind h.u4 fun _ =>
    ite (h.fail (.emptyTable _ _) (.inr rfl)) (h.bind (h.take _) fun _ => h.pure _)

theorem readLookupSwitch (h : Congruence n rel) (hn : n % 4 = 0) (offset : Nat) :
    rel (readLookupSwitch offset) (readLookupSwitch (offset + n)) := by
  unfold Operands.readLookupSwitch
  rw [switchPadding_add hn]
  exact h.bind (h.take _) fun _ => h.bind h.u4 fun _ =>
    ite (h.fail (.negativePairs _) (.inr rfl)) (h.bind (h.take _) fun _ => h.pure _)

theorem readWide (h : Congruence n rel) (offset : Nat) :
    rel (readWide offset) (readWide (offset + n)) :=
  h.bind (h.within (.instruction .wide offset) (h.map _ h.u1)) fun op =>
    h.bind (h.within (.wideInstruction op offset) h.u2) fun _ =>
      ite (h.bind (h.within (.wideInstruction op offset) h.u2) fun _ => h.pure _)
        (ite (h.pure _) (h.fail (.unknownWide op offset) (.inl rfl)))

theorem layoutReader (h : Congruence n rel) (hn : n % 4 = 0) (op : Opcode) (offset : Nat)
    (layout : OperandLayout) :
    rel (layoutReader op offset layout) (layoutReader op (offset + n) layout) := by
  cases layout with
  | compactLoad | compactStore => exact h.pure _
  | wide => exact h.readWide offset
  | none => exact h.within (.instruction op offset) (h.pure _)
  | signedByte | constant | variableSlot =>
    exact h.within (.instruction op offset) (h.map _ h.u1)
  | signedWord | wideConstant | branch | poolIndex =>
    exact h.within (.instruction op offset) (h.map _ h.u2)
  | longBranch => exact h.within (.instruction op offset) (h.map _ h.u4)
  | increment =>
    exact h.within (.instruction op offset) (h.bind h.u1 fun _ => h.bind h.u1 fun _ => h.pure _)
  | interfaceCall | dynamicCall =>
    exact h.within (.instruction op offset)
      (h.bind h.u2 fun _ => h.bind (h.take 2) fun _ => h.pure _)
  | multiArray =>
    exact h.within (.instruction op offset) (h.bind h.u2 fun _ => h.bind h.u1 fun _ => h.pure _)
  | tableSwitch => exact h.within (.instruction op offset) (h.readTableSwitch hn offset)
  | lookupSwitch => exact h.within (.instruction op offset) (h.readLookupSwitch hn offset)

/-- Reading an instruction keeps what its parts keep. -/
theorem read (h : Congruence n rel) (hn : n % 4 = 0) : rel Written.read Written.read := by
  refine h.offset fun offset => h.bind h.u1 fun code => ?_
  -- an opcode is defined exactly if its operands have a layout
  have hdefined := (Opcode.mk code).testsLayout.isDefined_iff
  cases hlayout : Opcode.layout? ⟨code⟩ with
  | none =>
    rw [hlayout] at hdefined
    simp only [Bool.eq_false_iff.mpr (by simpa using hdefined)]
    exact h.fail (.unknownOpcode ⟨code⟩ offset) (.inl rfl)
  | some layout =>
    rw [hlayout] at hdefined
    simp only [hdefined.mpr rfl, read_eq_layoutReader hlayout, if_true]
    exact h.map _ (h.layoutReader hn ⟨code⟩ offset layout)

end Congruence

end Decoder

end MonitorCoverage.ClassFile
