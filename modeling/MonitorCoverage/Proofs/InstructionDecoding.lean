import MonitorCoverage.Proofs.OperandLayout

/-!
# Decoding code arrays

Reading one instruction accepts exactly the bytes of the instructions that fit at the offset at
hand, and its normal form is that of the instruction set. By induction over the positions of a code
array, decoding accepts exactly the sequences of instructions, each written where it stands.
-/

namespace MonitorCoverage.ClassFile

namespace Written
open Decoder

/-- What stands after the opcode: nothing if it is reserved, else a phrase of its layout. -/
theorem recognizes_operands (op : Opcode) (offset : Nat) :
    Recognizes (if op.isDefined then Written.mk op <$> Operands.read op offset
      else fail (.unknownOpcode op offset))
    fun _ phrase written => ∃ layout operands, op.layout? = some layout ∧
      Operands.Phrase offset layout phrase operands ∧ written = ⟨op, operands⟩ := by
  have hdefined := op.testsLayout.isDefined_iff
  cases hlayout : op.layout? with
  | none =>
    rw [hlayout] at hdefined
    rw [if_neg (by simp [hdefined])]
    exact (Recognizes.fail _).congr fun _ _ _ => by simp
  | some layout =>
    rw [hlayout] at hdefined
    rw [if_pos (hdefined.mpr rfl), Operands.read_eq_layoutReader hlayout]
    refine ((Operands.recognizes_layoutReader op offset layout).map _).congr ?_
    intro _ phrase written
    simp

/-- An instruction is its opcode and a phrase of the layout of its opcode. -/
theorem recognizes_read : Recognizes read fun offset bytes written => ∃ layout phrase,
    written.opcode.layout? = some layout ∧ bytes = written.opcode.code :: phrase ∧
      Operands.Phrase offset layout phrase written.operands := by
  refine (Recognizes.bind .offset fun offset => .bind .u1 fun code =>
    recognizes_operands ⟨code⟩ offset).congr ?_
  intro offset bytes written
  constructor
  · rintro ⟨_, _, _, rfl, ⟨rfl, rfl⟩, code, _, phrase, rfl, rfl, layout, operands, hl, hp, rfl⟩
    exact ⟨layout, phrase, hl, rfl, hp⟩
  · rintro ⟨layout, phrase, hl, rfl, hp⟩
    exact ⟨offset, [], _, rfl, ⟨rfl, rfl⟩, written.opcode.code, _, phrase, rfl, rfl, layout,
      written.operands, hl, hp, rfl⟩

end Written

namespace RawInstruction
open Operands (Phrase)

/-- The instruction as the decoder sees it. -/
def written : RawInstruction → Written
  | plain op _ => ⟨op, .none⟩
  | compactLoad type slot => ⟨⟨UInt8.ofNat (26 + 4 * type + slot)⟩, .none⟩
  | compactStore type slot => ⟨⟨UInt8.ofNat (59 + 4 * type + slot)⟩, .none⟩
  | signedByte op _ value => ⟨op, .byte value.toUInt8⟩
  | signedWord value => ⟨.shortConstant, .word value.toUInt16⟩
  | constant index => ⟨.loadConstant, .byte index⟩
  | wideConstant op _ index => ⟨op, .word index⟩
  | variableSlot op _ slot => ⟨op, .byte slot⟩
  | increment slot amount => ⟨.increment, .increment slot amount.toUInt8⟩
  | branch op _ delta => ⟨op, .word delta.toUInt16⟩
  | longBranch op _ delta => ⟨op, .longWord delta.toUInt32⟩
  | poolIndex op _ index => ⟨op, .word index⟩
  | interfaceCall index count reserved => ⟨.callInterface, .interfaceCall index [count, reserved]⟩
  | dynamicCall index reserved => ⟨.callDynamic, .dynamicCall index (Bytes.ofWord16 reserved)⟩
  | multiArray index dimensions => ⟨.newMultiArray, .multiArray index dimensions⟩
  | tableSwitch padding default low high targets _ _ =>
    ⟨.tableSwitch, .tableSwitch padding (word32 default) low.toUInt32 high.toUInt32
      (targets.flatMap word32)⟩
  | lookupSwitch padding default pairs _ =>
    ⟨.lookupSwitch, .lookupSwitch padding (word32 default) (UInt32.ofNat pairs.length)
      (pairs.flatMap fun pair => word32 pair.1 ++ word32 pair.2)⟩
  | wide op _ slot => ⟨.wide, .wide op slot⟩
  | wideIncrement slot amount => ⟨.wide, .wideIncrement slot amount.toUInt16⟩

/-- Which operand layout an instruction has. -/
def layout : RawInstruction → OperandLayout
  | plain _ _ => .none
  | compactLoad _ _ => .compactLoad
  | compactStore _ _ => .compactStore
  | signedByte _ _ _ => .signedByte
  | signedWord _ => .signedWord
  | constant _ => .constant
  | wideConstant _ _ _ => .wideConstant
  | variableSlot _ _ _ => .variableSlot
  | increment _ _ => .increment
  | branch _ _ _ => .branch
  | longBranch _ _ _ => .longBranch
  | poolIndex _ _ _ => .poolIndex
  | interfaceCall _ _ _ => .interfaceCall
  | dynamicCall _ _ => .dynamicCall
  | multiArray _ _ => .multiArray
  | tableSwitch _ _ _ _ _ _ _ => .tableSwitch
  | lookupSwitch _ _ _ _ => .lookupSwitch
  | wide _ _ _ => .wide
  | wideIncrement _ _ => .wide

theorem layout?_compact : ∀ (type : Fin 5) (slot : Fin 4),
    Opcode.layout? ⟨UInt8.ofNat (26 + 4 * type + slot)⟩ = some .compactLoad ∧
      Opcode.layout? ⟨UInt8.ofNat (59 + 4 * type + slot)⟩ = some .compactStore := by
  decide

theorem layout?_opcode (raw : RawInstruction) :
    raw.written.opcode.layout? = some raw.layout := by
  cases raw with
  | compactLoad type slot => exact (layout?_compact type slot).1
  | compactStore type slot => exact (layout?_compact type slot).2
  | plain _ h | signedByte _ h _ | wideConstant _ h _ | variableSlot _ h _ | branch _ h _
  | longBranch _ h _ | poolIndex _ h _ => exact h
  | _ => rfl

theorem head_bytes (raw : RawInstruction) :
    raw.bytes = raw.written.opcode.code :: raw.bytes.tail := by
  cases raw <;> rfl

/-- Bytes that come in groups of four are words. -/
theorem exists_words (n : Nat) {bytes : Bytes} (h : bytes.length = 4 * n) :
    ∃ words : List Int32, words.length = n ∧ bytes = words.flatMap word32 := by
  induction n generalizing bytes with
  | zero => exact ⟨[], rfl, List.eq_nil_of_length_eq_zero h⟩
  | succ n ih =>
    match bytes, h with
    | a :: b :: d :: e :: rest, h =>
      have hrest : rest.length = 4 * n := by simp only [List.length_cons] at h; omega
      obtain ⟨words, hn, hr⟩ := ih hrest
      obtain ⟨word, hword⟩ : ∃ word, Bytes.ofWord32 word = [a, b, d, e] :=
        ⟨_, Bytes.ofWord32_eq_iff.mpr rfl⟩
      refine ⟨word.toInt32 :: words, by rw [List.length_cons, hn], ?_⟩
      rw [List.flatMap_cons, word32, UInt32.toUInt32_toInt32, hword, ← hr]
      rfl

theorem exists_word {bytes : Bytes} (h : bytes.length = 4) : ∃ word, bytes = word32 word := by
  obtain ⟨words, hn, rfl⟩ := exists_words 1 h
  obtain ⟨word, rfl⟩ := List.length_eq_one_iff.mp hn
  exact ⟨word, by simp⟩

/-- Bytes that come in groups of eight are pairs of words. -/
theorem exists_pairs (n : Nat) {bytes : Bytes} (h : bytes.length = 8 * n) :
    ∃ pairs : List (Int32 × Int32), pairs.length = n ∧
      bytes = pairs.flatMap fun pair => word32 pair.1 ++ word32 pair.2 := by
  induction n generalizing bytes with
  | zero => exact ⟨[], rfl, List.eq_nil_of_length_eq_zero h⟩
  | succ n ih =>
    obtain ⟨first, hfirst⟩ := exists_word (show (bytes.take 4).length = 4 by simp; omega)
    obtain ⟨second, hsecond⟩ := exists_word (show ((bytes.drop 4).take 4).length = 4 by simp; omega)
    obtain ⟨pairs, hn, hr⟩ := ih (show ((bytes.drop 4).drop 4).length = 8 * n by simp; omega)
    refine ⟨(first, second) :: pairs, by rw [List.length_cons, hn], ?_⟩
    rw [List.flatMap_cons, ← hr, ← hfirst, ← hsecond, List.append_assoc, List.take_append_drop,
      List.take_append_drop]

@[simp] theorem length_words (words : List Int32) :
    (words.flatMap word32).length = 4 * words.length := by
  induction words with
  | nil => rfl
  | cons word words ih => rw [List.flatMap_cons, List.length_append, ih]; simp [word32]; omega

@[simp] theorem length_pairs (pairs : List (Int32 × Int32)) :
    (pairs.flatMap fun pair => word32 pair.1 ++ word32 pair.2).length = 8 * pairs.length := by
  induction pairs with
  | nil => rfl
  | cons pair pairs ih => rw [List.flatMap_cons, List.length_append, ih]; simp [word32]; omega

theorem padsAt_iff {offset : Nat} {padding : Bytes} :
    PadsAt offset padding ↔ padding.length = switchPadding offset := by
  unfold PadsAt switchPadding
  omega

theorem toInt_toInt32 (word : UInt32) : word.toInt32.toInt =
    if word.toNat < 2147483648 then (word.toNat : Int) else word.toNat - 4294967296 := by
  have h : word.toInt32.toInt = word.toBitVec.toInt := rfl
  rw [h, BitVec.toInt_eq_toNat_cond, UInt32.toNat_toBitVec]
  split <;> split <;> omega

/-- What a written instruction has after its opcode is a phrase of its layout. -/
theorem phrase_of_fitsAt {raw : RawInstruction} {offset : Nat} (h : raw.FitsAt offset) :
    Phrase offset raw.layout raw.bytes.tail raw.written.operands := by
  cases raw with
  | plain | compactLoad | compactStore => exact ⟨rfl, rfl⟩
  | signedByte | constant | variableSlot | signedWord | wideConstant | branch | poolIndex
  | longBranch => exact ⟨_, rfl, rfl⟩
  | increment | multiArray => exact ⟨_, _, rfl, rfl⟩
  | interfaceCall | dynamicCall => exact ⟨_, _, rfl, rfl, rfl⟩
  | tableSwitch padding default low high targets hle hn =>
    refine ⟨_, _, _, _, _, padsAt_iff.mp h, rfl, ?_, ?_, rfl, rfl⟩
    · rw [Int32.toInt32_toUInt32, Int32.toInt32_toUInt32, Int32.lt_iff_toInt_lt]
      omega
    · rw [Int32.toInt32_toUInt32, Int32.toInt32_toUInt32, tableSize, length_words]
      omega
  | lookupSwitch padding default pairs hn =>
    have hword : (UInt32.ofNat pairs.length).toNat = pairs.length :=
      UInt32.toNat_ofNat_of_lt' (by simp only [UInt32.size]; omega)
    have hpairs : (UInt32.ofNat pairs.length).toInt32.toInt = pairs.length := by
      rw [toInt_toInt32, hword, if_pos hn]
    refine ⟨_, _, _, _, padsAt_iff.mp h, rfl, ?_, ?_, rfl, rfl⟩
    · rw [Int32.lt_iff_toInt_lt, hpairs]
      simp
    · rw [lookupSize, hpairs, length_pairs]
      omega
  | wide op hop slot => exact .inl ⟨op, slot, hop, rfl, rfl⟩
  | wideIncrement slot amount => exact .inr ⟨slot, amount.toUInt16, rfl, rfl⟩

/-- A phrase of the layout of an opcode makes it a written instruction. -/
theorem exists_of_phrase {offset : Nat} {op : Opcode} {layout : OperandLayout} {phrase : Bytes}
    {operands : Operands} (hl : op.layout? = some layout)
    (h : Phrase offset layout phrase operands) :
    ∃ raw : RawInstruction, raw.FitsAt offset ∧ raw.bytes = op.code :: phrase ∧
      raw.written = ⟨op, operands⟩ := by
  have only := op.testsLayout.eq_of_opcode? layout hl
  cases layout with
  | none =>
    obtain ⟨rfl, rfl⟩ := h
    exact ⟨.plain op hl, trivial, rfl, rfl⟩
  | compactLoad =>
    obtain ⟨rfl, rfl⟩ := h
    obtain ⟨type, slot, rfl⟩ := op.testsLayout.exists_compactLoad hl
    exact ⟨.compactLoad type slot, trivial, rfl, rfl⟩
  | compactStore =>
    obtain ⟨rfl, rfl⟩ := h
    obtain ⟨type, slot, rfl⟩ := op.testsLayout.exists_compactStore hl
    exact ⟨.compactStore type slot, trivial, rfl, rfl⟩
  | signedByte =>
    obtain ⟨value, rfl, rfl⟩ := h
    exact ⟨.signedByte op hl value.toInt8, trivial, rfl, rfl⟩
  | signedWord =>
    obtain ⟨value, rfl, rfl⟩ := h
    obtain rfl := only _ rfl
    exact ⟨.signedWord value.toInt16, trivial, rfl, rfl⟩
  | constant =>
    obtain ⟨value, rfl, rfl⟩ := h
    obtain rfl := only _ rfl
    exact ⟨.constant value, trivial, rfl, rfl⟩
  | wideConstant =>
    obtain ⟨value, rfl, rfl⟩ := h
    exact ⟨.wideConstant op hl value, trivial, rfl, rfl⟩
  | variableSlot =>
    obtain ⟨value, rfl, rfl⟩ := h
    exact ⟨.variableSlot op hl value, trivial, rfl, rfl⟩
  | increment =>
    obtain ⟨slot, amount, rfl, rfl⟩ := h
    obtain rfl := only _ rfl
    exact ⟨.increment slot amount.toInt8, trivial, rfl, rfl⟩
  | branch =>
    obtain ⟨value, rfl, rfl⟩ := h
    exact ⟨.branch op hl value.toInt16, trivial, rfl, rfl⟩
  | longBranch =>
    obtain ⟨value, rfl, rfl⟩ := h
    exact ⟨.longBranch op hl value.toInt32, trivial, rfl, rfl⟩
  | poolIndex =>
    obtain ⟨value, rfl, rfl⟩ := h
    exact ⟨.poolIndex op hl value, trivial, rfl, rfl⟩
  | interfaceCall =>
    obtain ⟨index, reserved, hr, rfl, rfl⟩ := h
    obtain rfl := only _ rfl
    obtain ⟨count, zero, rfl⟩ := List.length_eq_two.mp hr
    exact ⟨.interfaceCall index count zero, trivial, rfl, rfl⟩
  | dynamicCall =>
    obtain ⟨index, reserved, hr, rfl, rfl⟩ := h
    obtain rfl := only _ rfl
    obtain ⟨a, b, rfl⟩ := List.length_eq_two.mp hr
    refine ⟨.dynamicCall index (UInt16.ofNat (a.toNat * 256 + b.toNat)), trivial, ?_, ?_⟩
    · rw [bytes, Bytes.ofWord16_eq_iff.mpr rfl]
      rfl
    · rw [written, Bytes.ofWord16_eq_iff.mpr rfl]
  | multiArray =>
    obtain ⟨index, dimensions, rfl, rfl⟩ := h
    obtain rfl := only _ rfl
    exact ⟨.multiArray index dimensions, trivial, rfl, rfl⟩
  | tableSwitch =>
    obtain ⟨padding, default, low, high, targets, hp, hd, hlow, ht, rfl, rfl⟩ := h
    obtain rfl := only _ rfl
    obtain ⟨default, rfl⟩ := exists_word hd
    rw [Int32.lt_iff_toInt_lt, Int.not_lt] at hlow
    rw [tableSize] at ht
    obtain ⟨targets, hn, rfl⟩ := exists_words (high.toInt32.toInt - low.toInt32.toInt + 1).toNat
      (ht.trans (by omega))
    exact ⟨.tableSwitch padding default low.toInt32 high.toInt32 targets hlow (by omega),
      padsAt_iff.mpr hp, rfl, rfl⟩
  | lookupSwitch =>
    obtain ⟨padding, default, pairs, targets, hp, hd, hpairs, ht, rfl, rfl⟩ := h
    obtain rfl := only _ rfl
    obtain ⟨default, rfl⟩ := exists_word hd
    -- a count is refused as negative from here on, so an accepted word is its own value
    have hsmall : pairs.toNat < 2147483648 := by
      have hlt := pairs.toNat_lt
      rw [Int32.lt_iff_toInt_lt, toInt_toInt32, Int32.toInt_zero] at hpairs
      split at hpairs <;> omega
    rw [lookupSize, toInt_toInt32, if_pos hsmall] at ht
    obtain ⟨list, hn, rfl⟩ := exists_pairs pairs.toNat (ht.trans (by omega))
    have hcount : UInt32.ofNat list.length = pairs := by rw [hn, UInt32.ofNat_toNat]
    exact ⟨.lookupSwitch padding default list (hn ▸ hsmall), padsAt_iff.mpr hp,
      by rw [bytes, hcount]; rfl, by rw [written, hcount]⟩
  | wide =>
    obtain rfl := only _ rfl
    obtain ⟨op, slot, hop, rfl, rfl⟩ | ⟨slot, amount, rfl, rfl⟩ := h
    · exact ⟨.wide op hop slot, trivial, rfl, rfl⟩
    · exact ⟨.wideIncrement slot amount.toInt16, trivial, rfl, rfl⟩

theorem compactVar?_compactLoad : ∀ (type : Fin 5) (slot : Fin 4),
    Opcode.compactVar? ⟨UInt8.ofNat (26 + 4 * type + slot)⟩ =
      some (⟨UInt8.ofNat (21 + type)⟩, slot.val) := by
  decide

theorem compactVar?_compactStore : ∀ (type : Fin 5) (slot : Fin 4),
    Opcode.compactVar? ⟨UInt8.ofNat (59 + 4 * type + slot)⟩ =
      some (⟨UInt8.ofNat (54 + type)⟩, slot.val) := by
  decide

theorem compactVar?_eq_none {op : Opcode} {layout : OperandLayout} (h : op.layout? = some layout)
    (hload : layout ≠ .compactLoad) (hstore : layout ≠ .compactStore) : op.compactVar? = none := by
  have hsome := op.testsLayout.isSome_compactVar?_iff
  rw [h, Option.some.injEq, Option.some.injEq] at hsome
  simpa [hload, hstore] using hsome

theorem normalize_written (raw : RawInstruction) (offset : Nat) :
    raw.written.normalize offset = raw.normal offset := by
  cases raw with
  | compactLoad type slot =>
    simp only [Written.normalize, Written.normalOpcode, Written.normalOperand, written, normal,
      compactVar?_compactLoad, normal.form]
  | compactStore type slot =>
    simp only [Written.normalize, Written.normalOpcode, Written.normalOperand, written, normal,
      compactVar?_compactStore, normal.form]
  | signedByte op h _ => obtain rfl | rfl := op.testsLayout.eq_signedByte_iff.mpr h <;> rfl
  | wideConstant op h _ => obtain rfl | rfl := op.testsLayout.eq_wideConstant_iff.mpr h <;> rfl
  | longBranch op h _ => obtain rfl | rfl := op.testsLayout.eq_longBranch_iff.mpr h <;> rfl
  | plain op h | variableSlot op h _ | branch op h _ | poolIndex op h _ =>
    -- no opcode of these layouts is one that normal forms rewrite
    have hcompact := compactVar?_eq_none h (by decide) (by decide)
    have hconstant := op.testsLayout.eq_wideConstant_iff
    have hlong := op.testsLayout.eq_longBranch_iff
    have hsigned := op.testsLayout.eq_signedByte_iff
    have hshort := op.testsLayout.eq_shortConstant_iff
    have hjump := op.testsLayout.shape_eq_jump_iff
    simp [h] at hconstant hlong hsigned hshort hjump
    simp [Written.normalize, Written.normalOpcode, Written.normalOperand, written, normal,
      normal.form, hcompact, hconstant, hlong, hsigned, hshort, hjump]
  | _ => rfl

/-- Reading an instruction accepts exactly the bytes of instructions that fit where they stand. -/
theorem recognizes_read : Decoder.Recognizes Written.read fun offset bytes written =>
    ∃ raw : RawInstruction, raw.FitsAt offset ∧ bytes = raw.bytes ∧ written = raw.written := by
  refine Written.recognizes_read.congr fun offset bytes written => ?_
  constructor
  · rintro ⟨layout, phrase, hl, rfl, hp⟩
    obtain ⟨raw, hfits, hbytes, hwritten⟩ := exists_of_phrase hl hp
    exact ⟨raw, hfits, hbytes.symm, hwritten.symm⟩
  · rintro ⟨raw, hfits, rfl, rfl⟩
    exact ⟨raw.layout, raw.bytes.tail, raw.layout?_opcode, raw.head_bytes, phrase_of_fitsAt hfits⟩

theorem bytes_ne_nil (raw : RawInstruction) : raw.bytes ≠ [] := by
  rw [head_bytes]
  exact List.cons_ne_nil _ _

end RawInstruction

namespace Instruction
open RawInstruction

theorem read_of_fitsAt {c : Cursor} {raw : RawInstruction} {rest : Bytes}
    (hfits : raw.FitsAt c.offset) (hrest : c.rest = raw.bytes ++ rest) :
    Written.read c = .ok raw.written ⟨c.offset + raw.bytes.length, rest⟩ :=
  (RawInstruction.recognizes_read _ _ _).mpr ⟨raw.bytes, hrest, rfl, raw, hfits, rfl, rfl⟩

/-- From a position on, decoding succeeds exactly if the bytes up to the end are instructions that
fit one after the other, and it then adds their normal forms to those found before. -/
theorem readFrom_eq_ok_iff (c : Cursor) (found instructions : List Instruction) :
    readFrom c found = .ok instructions ↔ ∃ raws, FitFrom c.offset raws ∧
      c.rest = raws.flatMap RawInstruction.bytes ∧
      instructions = found.reverse ++ normalFrom c.offset raws := by
  fun_induction readFrom c found with
  | case1 c found hempty =>
    rw [List.isEmpty_iff] at hempty
    constructor
    · intro h
      cases h
      exact ⟨[], trivial, hempty, (List.append_nil _).symm⟩
    · rintro ⟨raws, -, hrest, rfl⟩
      cases raws with
      | nil => rw [normalFrom, List.append_nil]
      | cons raw raws =>
        rw [hempty, List.flatMap_cons] at hrest
        exact absurd (List.append_eq_nil_iff.mp hrest.symm).1 raw.bytes_ne_nil
  | case2 c found hempty written c' hread _ ih =>
    rw [ih]
    obtain ⟨phrase, hrest, hoffset, raw, hfits, rfl, rfl⟩ :=
      (RawInstruction.recognizes_read _ _ _).mp hread
    constructor
    · rintro ⟨raws, hfit, hraws, rfl⟩
      rw [hoffset] at hfit ⊢
      refine ⟨raw :: raws, ⟨hfits, hfit⟩, by rw [hrest, hraws, List.flatMap_cons], ?_⟩
      rw [normalFrom, normalize_written]
      simp
    · rintro ⟨raws, hfit, hraws, rfl⟩
      cases raws with
      | nil => exact absurd (List.isEmpty_iff.mpr hraws) hempty
      | cons raw' raws =>
        -- `raw'` need not be `raw`, but both are read as the same instruction
        have hread' := read_of_fitsAt hfit.1 hraws
        rw [hread, EStateM.Result.ok.injEq] at hread'
        obtain ⟨hwritten, rfl⟩ := hread'
        refine ⟨raws, hfit.2, rfl, ?_⟩
        rw [normalFrom, ← normalize_written, ← hwritten, normalize_written]
        simp
  | case3 c found hempty fault c' hread =>
    constructor
    · intro h
      cases h
    · rintro ⟨raws, hfit, hraws, rfl⟩
      cases raws with
      | nil => exact absurd (List.isEmpty_iff.mpr hraws) hempty
      | cons raw raws =>
        rw [read_of_fitsAt hfit.1 hraws] at hread
        cases hread

/-- A code array decodes to some instructions exactly if it is the bytes of instructions of the
instruction set, each written where it stands, and the instructions are their normal forms. -/
theorem decode_eq_ok_iff (code : Bytes) (instructions : List Instruction) :
    decode code = .ok instructions ↔ ∃ raws, FitFrom 0 raws ∧
      code = raws.flatMap RawInstruction.bytes ∧ instructions = normalFrom 0 raws :=
  readFrom_eq_ok_iff (Cursor.start code) [] instructions

end Instruction
end MonitorCoverage.ClassFile
