import MonitorCoverage.ClassFile.Assembly
import MonitorCoverage.Proofs.Recognition

/-!
# Constants and their slots

A constant pool is written as its constants one after the other. A constant stands in the slot whose
number is one more than the slots that the constants before it take. The reader of a pool keeps a
row of slots instead; the two views hold the same constants at the same slots, also where the last
constant takes one slot more than the pool has.
-/

namespace MonitorCoverage.ClassFile

open Decoder

namespace Constant

/-- The sizes of the payloads of the constants that are neither text nor class, by tag. -/
def payloads : List (UInt8 × Nat) :=
  [(3, 4), (4, 4), (5, 8), (6, 8), (8, 2), (9, 4), (10, 4), (11, 4), (12, 4), (15, 3), (16, 2),
    (17, 4), (18, 4), (19, 2), (20, 2)]

/-- Whether a constant can be written into a file. -/
def IsWritable : Constant → Prop
  | text bytes => bytes.length < 65536
  | classRef _ => True
  | other tag payload => (tag, payload.length) ∈ payloads

theorem payloadSize?_eq_some_iff {tag : UInt8} {size : Nat} :
    payloadSize? tag = some size ↔ (tag, size) ∈ payloads := by
  constructor
  · intro h
    simp only [payloadSize?, Bool.or_eq_true, decide_eq_true_eq] at h
    simp only [payloads, List.mem_cons, Prod.mk.injEq, List.not_mem_nil, or_false]
    grind
  · intro h
    simp only [payloads, List.mem_cons, Prod.mk.injEq, List.not_mem_nil, or_false] at h
    rcases h with ⟨rfl, rfl⟩ | ⟨rfl, rfl⟩ | ⟨rfl, rfl⟩ | ⟨rfl, rfl⟩ | ⟨rfl, rfl⟩ | ⟨rfl, rfl⟩ |
      ⟨rfl, rfl⟩ | ⟨rfl, rfl⟩ | ⟨rfl, rfl⟩ | ⟨rfl, rfl⟩ | ⟨rfl, rfl⟩ | ⟨rfl, rfl⟩ | ⟨rfl, rfl⟩ |
      ⟨rfl, rfl⟩ | ⟨rfl, rfl⟩ <;> rfl

theorem recognizes_payload (tag : UInt8) (slot : Nat) :
    Recognizes (match payloadSize? tag with
      | some size => other tag <$> take size
      | none => fail (.unknownTag tag slot))
    fun _ phrase constant => (tag, phrase.length) ∈ payloads ∧ constant = other tag phrase := by
  cases hsize : payloadSize? tag with
  | none =>
    refine (Recognizes.fail _).congr fun offset phrase constant => ?_
    rw [← payloadSize?_eq_some_iff, hsize]
    simp
  | some size =>
    refine ((Recognizes.take size).map _).congr fun offset phrase constant => ?_
    rw [← payloadSize?_eq_some_iff, hsize, Option.some.injEq]
    constructor
    · rintro ⟨_, ⟨rfl, hn⟩, rfl⟩
      exact ⟨hn.symm, rfl⟩
    · rintro ⟨hn, rfl⟩
      exact ⟨phrase, ⟨rfl, hn.symm⟩, rfl⟩

theorem recognizes_text : Recognizes (do let length ← u2; text <$> take length.toNat)
    fun _ phrase constant => ∃ bytes, bytes.length < 65536 ∧
      phrase = Bytes.ofWord16 (UInt16.ofNat bytes.length) ++ bytes ∧ constant = text bytes := by
  refine (Recognizes.u2.bind fun length => (Recognizes.take length.toNat).map text).congr ?_
  intro offset phrase constant
  constructor
  · rintro ⟨length, _, _, rfl, rfl, bytes, ⟨rfl, hn⟩, rfl⟩
    have hlength : UInt16.ofNat bytes.length = length := by rw [hn, UInt16.ofNat_toNat]
    exact ⟨bytes, hn ▸ length.toNat_lt, by rw [hlength], rfl⟩
  · rintro ⟨bytes, hn, rfl, rfl⟩
    have hlength : (UInt16.ofNat bytes.length).toNat = bytes.length := UInt16.toNat_ofNat_of_lt' hn
    exact ⟨_, _, _, rfl, rfl, bytes, ⟨rfl, hlength.symm⟩, rfl⟩

theorem recognizes_read (slot : Nat) : Recognizes (read slot) fun _ phrase constant =>
    constant.IsWritable ∧ phrase = constant.bytes := by
  refine (Recognizes.u1.bind fun tag => .ite (fun _ => recognizes_text) fun _ =>
    .ite (fun _ => Recognizes.u2.map classRef) fun _ => recognizes_payload tag slot).congr ?_
  intro offset phrase constant
  constructor
  · rintro ⟨tag, _, rest, rfl, rfl, h⟩
    split at h
    · rename_i htag
      obtain ⟨bytes, hn, rfl, rfl⟩ := h
      exact ⟨hn, by rw [htag]; rfl⟩
    · split at h
      · rename_i htag
        obtain ⟨name, rfl, rfl⟩ := h
        exact ⟨trivial, by rw [htag]; rfl⟩
      · obtain ⟨hpayload, rfl⟩ := h
        exact ⟨hpayload, rfl⟩
  · rintro ⟨hwritable, rfl⟩
    cases constant with
    | text bytes =>
      refine ⟨textTag, [textTag], _, rfl, rfl, ?_⟩
      rw [if_pos rfl]
      exact ⟨bytes, hwritable, rfl, rfl⟩
    | classRef name =>
      refine ⟨classTag, [classTag], _, rfl, rfl, ?_⟩
      rw [if_neg (by decide), if_pos rfl]
      exact ⟨name, rfl, rfl⟩
    | other tag payload =>
      refine ⟨tag, [tag], payload, rfl, rfl, ?_⟩
      have hsize := payloadSize?_eq_some_iff.mpr hwritable
      rw [if_neg (by rintro rfl; cases hsize), if_neg (by rintro rfl; cases hsize)]
      exact ⟨hwritable, rfl⟩

/-- The tags of the constants of eight bytes: that of longs and that of doubles. -/
def wideTags : List UInt8 := [5, 6]

/-- The slots that a constant takes by the rule of the format: two with a wide tag, one with any
other. -/
def slotsTaken (constant : Constant) : Nat := if constant.tag ∈ wideTags then 2 else 1

/-- The reader counts slots by the rule. -/
theorem width_eq_slotsTaken (constant : Constant) : constant.width = constant.slotsTaken := by
  simp [width, slotsTaken, wideTags]

theorem slotsTaken_eq_two_iff {constant : Constant} :
    constant.slotsTaken = 2 ↔ constant.tag ∈ wideTags := by
  unfold slotsTaken
  split <;> simp_all

theorem one_le_slotsTaken (constant : Constant) : 1 ≤ constant.slotsTaken := by
  unfold slotsTaken
  split <;> omega

theorem slotsTaken_le_two (constant : Constant) : constant.slotsTaken ≤ 2 := by
  unfold slotsTaken
  split <;> omega

end Constant

/-- The number of slots that constants take. -/
def slotCount : List Constant → Nat
  | [] => 0
  | constant :: constants => constant.slotsTaken + slotCount constants

/-- Constants take slots from a number on, as long as the number of the next slot is below a
count. -/
def FillUpTo (count : Nat) : Nat → List Constant → Prop
  | next, [] => count ≤ next
  | next, constant :: constants =>
    next < count ∧ FillUpTo count (next + constant.slotsTaken) constants

/-- A constant stands in the slot after those of the constants before it; slot zero is not used. -/
def Holds (constants : List Constant) (slot : Nat) (constant : Constant) : Prop :=
  ∃ before after, constants = before ++ constant :: after ∧ slot = 1 + slotCount before

/-- A slot names a class: it holds a reference to a slot that holds the name. -/
def HoldsClass (constants : List Constant) (slot : UInt16) (name : Bytes) : Prop :=
  ∃ reference : UInt16, Holds constants slot.toNat (.classRef reference) ∧
    Holds constants reference.toNat (.text name)

theorem HoldsClass.ne_zero {constants : List Constant} {slot : UInt16} {name : Bytes}
    (h : HoldsClass constants slot name) : slot ≠ 0 := by
  rintro rfl
  obtain ⟨_, ⟨before, after, -, h⟩, -⟩ := h
  rw [UInt16.toNat_zero] at h
  omega

/-- The slots of a constant: itself and, if it takes two, an unused one. -/
def Constant.cells (constant : Constant) : List (Option Constant) :=
  if constant.slotsTaken = 2 then [some constant, none] else [some constant]

theorem Constant.length_cells (constant : Constant) :
    constant.cells.length = constant.slotsTaken := by
  unfold cells slotsTaken
  split <;> simp_all

theorem Constant.getElem?_cells_zero (constant : Constant) :
    constant.cells[0]? = some (some constant) := by
  unfold cells
  split <;> rfl

/-- Of the slots of a constant only the first holds one. -/
theorem Constant.getElem?_cells {constant held : Constant} {i : Nat}
    (h : constant.cells[i]? = some (some held)) : held = constant ∧ i = 0 := by
  unfold cells at h
  split at h <;> grind

theorem Constant.take_cells_one (constant : Constant) :
    constant.cells.take 1 = [some constant] := by
  unfold cells
  split <;> rfl

namespace ConstantPool

/-- The bytes of constants that fill a number of slots after those filled before. -/
def SlotsPhrase (n : Nat) (slots : Array (Option Constant)) (phrase : Bytes)
    (all : Array (Option Constant)) : Prop :=
  ∃ constants, (∀ constant ∈ constants, constant.IsWritable) ∧ FillUpTo n 0 constants ∧
    phrase = constants.flatMap Constant.bytes ∧
    all = slots ++ ((constants.flatMap Constant.cells).take n).toArray

theorem fillUpTo_add (count next shift : Nat) (constants : List Constant) :
    FillUpTo count (next + shift) constants ↔ FillUpTo (count - shift) next constants := by
  induction constants generalizing next with
  | nil => simp only [FillUpTo]; omega
  | cons constant constants ih =>
    have hnext : next + shift + constant.slotsTaken = next + constant.slotsTaken + shift := by omega
    simp only [FillUpTo, hnext, ih]
    rw [show next + shift < count ↔ next < count - shift by omega]

theorem slotsPhrase_zero {slots all : Array (Option Constant)} {phrase : Bytes} :
    SlotsPhrase 0 slots phrase all ↔ phrase = [] ∧ all = slots := by
  constructor
  · rintro ⟨constants, -, hfill, rfl, rfl⟩
    cases constants with
    | nil => simp
    | cons constant constants => exact absurd hfill.1 (Nat.lt_irrefl _)
  · rintro ⟨rfl, rfl⟩
    exact ⟨[], by simp, Nat.le_refl _, rfl, by simp⟩

/-- Where a slot is left, a constant comes next and takes its slots, as far as they are left. -/
theorem slotsPhrase_succ {n : Nat} {slots all : Array (Option Constant)} {phrase : Bytes} :
    SlotsPhrase (n + 1) slots phrase all ↔ ∃ (constant : Constant) (rest : Bytes),
      constant.IsWritable ∧ phrase = constant.bytes ++ rest ∧
      SlotsPhrase (n + 1 - constant.slotsTaken)
        (slots ++ (constant.cells.take (n + 1)).toArray) rest
        all := by
  constructor
  · rintro ⟨constants, hwritable, hfill, rfl, rfl⟩
    cases constants with
    | nil => exact absurd hfill (Nat.not_succ_le_zero n)
    | cons constant constants =>
      refine ⟨constant, _, hwritable constant (by simp), List.flatMap_cons, constants,
        fun c hc => hwritable c (by simp [hc]), ?_, rfl, ?_⟩
      · exact (fillUpTo_add _ _ _ _).mp hfill.2
      · rw [List.flatMap_cons, List.take_append, Constant.length_cells, ← List.append_toArray,
          ← Array.append_assoc]
  · rintro ⟨constant, _, hconstant, rfl, constants, hwritable, hfill, rfl, rfl⟩
    refine ⟨constant :: constants, ?_, ⟨Nat.succ_pos n, ?_⟩, List.flatMap_cons.symm, ?_⟩
    · intro c hc
      obtain rfl | hc := List.mem_cons.mp hc
      · exact hconstant
      · exact hwritable c hc
    · exact (fillUpTo_add _ _ _ _).mpr hfill
    · rw [List.flatMap_cons, List.take_append, Constant.length_cells, ← List.append_toArray,
        ← Array.append_assoc]

/-- Where two slots are left, a constant takes all of its own. -/
theorem slotsPhrase_cells {n : Nat} {constant : Constant} {slots all : Array (Option Constant)}
    {phrase : Bytes} :
    SlotsPhrase (n + 1 + 1 - constant.slotsTaken)
        (slots ++ (constant.cells.take (n + 1 + 1)).toArray) phrase all ↔
      if constant.width = 2 then SlotsPhrase n ((slots.push constant).push none) phrase all
      else SlotsPhrase (n + 1) (slots.push constant) phrase all := by
  have hone := constant.one_le_slotsTaken
  have htwo := constant.slotsTaken_le_two
  rw [constant.width_eq_slotsTaken]
  by_cases htaken : constant.slotsTaken = 2
  · have hpush : slots ++ #[some constant, none] = (slots.push constant).push none :=
      Array.ext' (by simp)
    simp [Constant.cells, htaken, hpush]
  · have h : constant.slotsTaken = 1 := by omega
    simp [Constant.cells, h]

/-- Reading fills the slots that are left with the constants that the bytes denote. -/
theorem recognizes_readSlots (n : Nat) (slots : Array (Option Constant)) :
    Recognizes (readSlots n slots) fun _ phrase all => SlotsPhrase n slots phrase all := by
  induction n, slots using readSlots.induct with
  | case1 slots => exact (Recognizes.pure slots).congr fun _ _ _ => slotsPhrase_zero.symm
  | case2 slots =>
    -- one slot is left: a constant of two slots is still read, and its second one is cut off
    refine ((Constant.recognizes_read _).bind fun constant => .pure _).congr ?_
    intro offset phrase all
    rw [slotsPhrase_succ]
    constructor
    · rintro ⟨constant, _, _, rfl, ⟨hconstant, rfl⟩, rfl, rfl⟩
      refine ⟨constant, [], hconstant, rfl, ?_⟩
      rw [Nat.sub_eq_zero_of_le constant.one_le_slotsTaken, slotsPhrase_zero,
        constant.take_cells_one]
      exact ⟨rfl, by simp⟩
    · rintro ⟨constant, rest, hconstant, rfl, hrest⟩
      rw [Nat.sub_eq_zero_of_le constant.one_le_slotsTaken, slotsPhrase_zero,
        constant.take_cells_one] at hrest
      exact ⟨constant, constant.bytes, rest, rfl, ⟨hconstant, rfl⟩, hrest.1, by simp [hrest.2]⟩
  | case3 n slots ih₂ ih₁ =>
    refine ((Constant.recognizes_read _).bind fun constant =>
      .ite (fun _ => ih₂ constant) fun _ => ih₁ constant).congr ?_
    intro offset phrase all
    rw [slotsPhrase_succ]
    constructor
    · rintro ⟨constant, _, rest, rfl, ⟨hconstant, rfl⟩, hrest⟩
      exact ⟨constant, rest, hconstant, rfl, slotsPhrase_cells.mpr hrest⟩
    · rintro ⟨constant, rest, hconstant, rfl, hrest⟩
      exact ⟨constant, _, rest, rfl, ⟨hconstant, rfl⟩, slotsPhrase_cells.mp hrest⟩

end ConstantPool

/-- A constant pool as a file holds it: the number of slots, counted from zero, and the constants
that fill them. -/
structure PoolLayout where
  count : UInt16
  constants : List Constant
  writable : ∀ constant ∈ constants, constant.IsWritable
  fill : FillUpTo count.toNat 1 constants

namespace PoolLayout

def bytes (layout : PoolLayout) : Bytes :=
  Bytes.ofWord16 layout.count ++ layout.constants.flatMap Constant.bytes

/-- The row of slots that a reader makes of a pool. -/
def pool (layout : PoolLayout) : ConstantPool :=
  ⟨((none :: layout.constants.flatMap Constant.cells).take layout.count.toNat).toArray⟩

theorem exists_toNat_eq_succ {word : UInt16} (h : word ≠ 0) : ∃ k, word.toNat = k + 1 :=
  Nat.exists_eq_succ_of_ne_zero fun hz => h (UInt16.toNat_inj.mp hz)

theorem recognizes_read : Recognizes ConstantPool.read fun _ phrase pool =>
    ∃ layout : PoolLayout, phrase = layout.bytes ∧ pool = layout.pool := by
  refine (Recognizes.u2.bind fun count => .ite (fun _ => .pure _) fun _ =>
    (ConstantPool.recognizes_readSlots _ _).bind fun slots => .pure _).congr ?_
  intro offset phrase pool
  constructor
  · rintro ⟨count, _, _, rfl, rfl, h⟩
    split at h
    · rename_i hcount
      obtain ⟨rfl, rfl⟩ := h
      exact ⟨⟨count, [], by simp, by simp [hcount, FillUpTo]⟩, rfl,
        by simp [hcount, PoolLayout.pool]⟩
    · rename_i hcount
      obtain ⟨slots, _, _, rfl, ⟨constants, hwritable, hfill, rfl, rfl⟩, rfl, rfl⟩ := h
      obtain ⟨k, hk⟩ := exists_toNat_eq_succ hcount
      refine ⟨⟨count, constants, hwritable, (ConstantPool.fillUpTo_add _ 0 1 _).mpr hfill⟩, ?_, ?_⟩
      · simp [bytes]
      · simp [PoolLayout.pool, hk]
  · rintro ⟨layout, rfl, rfl⟩
    refine ⟨layout.count, _, _, rfl, rfl, ?_⟩
    have hfill := layout.fill
    split
    · rename_i hcount
      cases hconstants : layout.constants with
      | nil => exact ⟨rfl, by simp [PoolLayout.pool, hcount]⟩
      | cons constant constants =>
        rw [hconstants, hcount] at hfill
        exact absurd hfill.1 (by decide)
    · rename_i hcount
      obtain ⟨k, hk⟩ := exists_toNat_eq_succ hcount
      refine ⟨_, _, [], (List.append_nil _).symm, ⟨layout.constants, layout.writable,
        (ConstantPool.fillUpTo_add _ 0 1 _).mp hfill, rfl, rfl⟩, rfl, ?_⟩
      simp [PoolLayout.pool, hk]

theorem getElem?_flatMap_cells {constants : List Constant} {i : Nat} {constant : Constant} :
    (constants.flatMap Constant.cells)[i]? = some (some constant) ↔
      ∃ before after, constants = before ++ constant :: after ∧ i = slotCount before := by
  induction constants generalizing i with
  | nil => simp
  | cons first constants ih =>
    rw [List.flatMap_cons, List.getElem?_append, first.length_cells]
    by_cases hi : i < first.slotsTaken
    · rw [if_pos hi]
      constructor
      · intro h
        obtain ⟨rfl, rfl⟩ := first.getElem?_cells h
        exact ⟨[], constants, rfl, rfl⟩
      · rintro ⟨before, after, hc, rfl⟩
        cases before with
        | nil =>
          cases hc
          exact constant.getElem?_cells_zero
        | cons other before =>
          obtain ⟨rfl, -⟩ := List.cons.inj hc
          simp only [slotCount] at hi
          omega
    · rw [if_neg hi, ih]
      constructor
      · rintro ⟨before, after, rfl, hs⟩
        exact ⟨first :: before, after, rfl, by simp only [slotCount]; omega⟩
      · rintro ⟨before, after, hc, rfl⟩
        cases before with
        | nil => exact absurd first.one_le_slotsTaken hi
        | cons other before =>
          obtain ⟨rfl, htail⟩ := List.cons.inj hc
          exact ⟨before, after, htail, by simp only [slotCount]; omega⟩

theorem lt_count_of_fillUpTo {count next : Nat} {before after : List Constant} {constant : Constant}
    (h : FillUpTo count next (before ++ constant :: after)) : next + slotCount before < count := by
  induction before generalizing next with
  | nil => exact h.1
  | cons first before ih =>
    have := ih h.2
    simp only [slotCount]
    omega

/-- The row of slots holds what the constants say. -/
theorem slot?_eq_iff {layout : PoolLayout} {slot : UInt16} {constant : Constant} :
    layout.pool.slot? slot = some (some constant) ↔ Holds layout.constants slot.toNat constant := by
  unfold ConstantPool.slot?
  split
  · rename_i hslot
    constructor
    · intro h
      cases h
    · rintro ⟨before, after, -, h⟩
      rw [hslot, UInt16.toNat_zero] at h
      omega
  · rename_i hslot
    obtain ⟨k, hk⟩ := exists_toNat_eq_succ hslot
    simp only [PoolLayout.pool, List.getElem?_toArray, List.getElem?_take, hk,
      List.getElem?_cons_succ]
    constructor
    · intro h
      split at h
      · obtain ⟨before, after, hc, rfl⟩ := getElem?_flatMap_cells.mp h
        exact ⟨before, after, hc, by omega⟩
      · cases h
    · rintro ⟨before, after, hc, hs⟩
      have hlt := lt_count_of_fillUpTo (hc ▸ layout.fill)
      rw [if_pos (by omega)]
      exact getElem?_flatMap_cells.mpr ⟨before, after, hc, by omega⟩

theorem text_eq_ok_iff {layout : PoolLayout} {slot : UInt16} {bytes : Bytes} :
    layout.pool.text slot = .ok bytes ↔ Holds layout.constants slot.toNat (.text bytes) := by
  rw [← slot?_eq_iff, ConstantPool.text]
  split <;> simp_all

theorem className_eq_ok_iff {layout : PoolLayout} {slot : UInt16} {name : Bytes} :
    layout.pool.className slot = .ok name ↔ HoldsClass layout.constants slot name := by
  unfold HoldsClass
  simp only [← slot?_eq_iff]
  rw [ConstantPool.className]
  split
  · simp_all
  · rename_i reference hslot
    simp only [text_eq_ok_iff, slot?_eq_iff, hslot, Option.some.injEq, Constant.classRef.injEq,
      exists_eq_left']
  · simp_all

theorem recognizes_textAt (layout : PoolLayout) (slot : UInt16) :
    Recognizes (match layout.pool.text slot with
      | .ok bytes => pure bytes
      | .error cause => fail cause)
    fun _ phrase bytes => phrase = [] ∧ Holds layout.constants slot.toNat (.text bytes) := by
  simp only [← text_eq_ok_iff]
  exact .ofExcept (fun bytes h => by rw [h]) fun cause h => by rw [h]

theorem recognizes_classNameAt (layout : PoolLayout) (slot : UInt16) :
    Recognizes (match layout.pool.className slot with
      | .ok name => pure name
      | .error cause => fail cause)
    fun _ phrase name => phrase = [] ∧ HoldsClass layout.constants slot name := by
  simp only [← className_eq_ok_iff]
  exact .ofExcept (fun name h => by rw [h]) fun cause h => by rw [h]

theorem recognizes_readText (layout : PoolLayout) :
    Recognizes layout.pool.readText fun _ phrase bytes => ∃ slot : UInt16,
      phrase = Bytes.ofWord16 slot ∧ Holds layout.constants slot.toNat (.text bytes) :=
  .u2_bind layout.recognizes_textAt

theorem recognizes_readClassName (layout : PoolLayout) :
    Recognizes layout.pool.readClassName fun _ phrase name => ∃ slot : UInt16,
      phrase = Bytes.ofWord16 slot ∧ HoldsClass layout.constants slot name :=
  .u2_bind layout.recognizes_classNameAt

theorem recognizes_readOptionalClassName (layout : PoolLayout) :
    Recognizes layout.pool.readOptionalClassName fun _ phrase name => ∃ slot : UInt16,
      phrase = Bytes.ofWord16 slot ∧
        (slot = 0 ∧ name = [] ∨ HoldsClass layout.constants slot name) := by
  refine .u2_bind fun slot => (Recognizes.ite (fun _ => .pure []) fun _ =>
    layout.recognizes_classNameAt slot).congr ?_
  intro offset phrase name
  by_cases hslot : slot = 0
  · have hnone : ¬HoldsClass layout.constants slot name := fun h => h.ne_zero hslot
    simp [hslot, hslot ▸ hnone]
  · simp [hslot]

end PoolLayout

end MonitorCoverage.ClassFile
