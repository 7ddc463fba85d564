import Mathlib.Tactic.MkIffOfInductiveProp
import MonitorCoverage.Proofs.InstructionDecoding
import MonitorCoverage.Proofs.LockCounting

/-!
# The count of a code array

What a method counts can be read off the bytes of its code array: the byte at the start of each
instruction says how much the instruction counts for and whether it enters or leaves a monitor. Only
for an increment under a wide prefix the byte after it is looked at too. Decoding and normalizing
the instructions, taking events from them and walking the events comes to the same count.
-/

namespace MonitorCoverage

open ClassFile (Opcode OperandLayout Instruction RawInstruction)

/-- Where instructions start that are written one after the other from an offset on. -/
def ClassFile.RawInstruction.startsFrom : Nat → List RawInstruction → List Nat
  | _, [] => []
  | offset, raw :: raws => offset :: startsFrom (offset + raw.bytes.length) raws

namespace Lock

/-- How much an instruction counts for, by the bytes from its start on. Constants, increments,
switches and arrays of several dimensions do not count, and comparisons count twice. -/
def byteWeight : Bytes → Nat
  | [] => 0
  | op :: operands =>
    if op = 18 ∨ op = 19 ∨ op = 20 ∨ op = 132 ∨ op = 170 ∨ op = 171 ∨ op = 197 ∨
        op = 196 ∧ operands.head? = some 132 then 0
    else if 160 ≤ op ∧ op ≤ 165 then 2
    else 1

/-- The number of monitors held after an instruction, by the bytes from its start on. -/
def depthAfterBytes (bytes : Bytes) (depth : Nat) : Nat :=
  if bytes.head? = some 194 then depth + 1 else if bytes.head? = some 195 then depth - 1 else depth

/-- The count of the instructions of a code array that start at some offsets, from a number of
monitors held on. -/
def countBytes (isSynchronized : Bool) (code : Bytes) : Nat → List Nat → Count
  | _, [] => ⟨0, 0⟩
  | depth, start :: starts =>
    (countBytes isSynchronized code (depthAfterBytes (code.drop start) depth) starts).plus
      (byteWeight (code.drop start))
      (isSynchronized || (code.drop start).head? = some 194 || 0 < depth)

/-- The kind of the event of an instruction that counts, by the bytes from its start on. -/
def byteKind? (bytes : Bytes) : Option EventKind :=
  if byteWeight bytes = 0 then none
  else if bytes.head? = some 194 then some .monitorEnter
  else if bytes.head? = some 195 then some .monitorExit
  else if byteWeight bytes = 2 then some .compareJump
  else some .other

theorem byteWeight_le_two (bytes : Bytes) : byteWeight bytes ≤ 2 := by
  cases bytes with
  | nil => simp [byteWeight]
  | cons op operands =>
    simp only [byteWeight]
    split
    · omega
    · split <;> omega

/-- An instruction that does not count leaves the monitors as they are. -/
theorem depthAfterBytes_of_byteWeight_eq_zero {bytes : Bytes} (h : byteWeight bytes = 0)
    (depth : Nat) : depthAfterBytes bytes depth = depth := by
  cases bytes with
  | nil => rfl
  | cons op operands =>
    have henter : op ≠ 194 := by
      rintro rfl
      simp [byteWeight] at h
    have hexit : op ≠ 195 := by
      rintro rfl
      simp [byteWeight] at h
    simp [depthAfterBytes, henter, hexit]

theorem byteWeight_of_head?_monitor {bytes : Bytes}
    (h : bytes.head? = some 194 ∨ bytes.head? = some 195) : byteWeight bytes = 1 := by
  cases bytes with
  | nil => simp at h
  | cons op operands =>
    rw [List.head?_cons, Option.some.injEq, Option.some.injEq] at h
    obtain rfl | rfl := h <;> simp [byteWeight]

/-- The kind of an event says what the bytes say. -/
theorem of_byteKind?_eq_some {bytes : Bytes} {kind : EventKind} (h : byteKind? bytes = some kind) :
    kind.weight = byteWeight bytes ∧
      (kind = .monitorEnter ↔ bytes.head? = some 194) ∧
      ∀ depth, kind.depthAfter depth = depthAfterBytes bytes depth := by
  by_cases hzero : byteWeight bytes = 0
  · simp [byteKind?, hzero] at h
  · by_cases henter : bytes.head? = some 194
    · obtain rfl : .monitorEnter = kind := by simpa [byteKind?, hzero, henter] using h
      exact ⟨(byteWeight_of_head?_monitor (.inl henter)).symm, by simp [henter],
        fun depth => by simp [EventKind.depthAfter, depthAfterBytes, henter]⟩
    · by_cases hexit : bytes.head? = some 195
      · obtain rfl : .monitorExit = kind := by simpa [byteKind?, hzero, hexit] using h
        exact ⟨(byteWeight_of_head?_monitor (.inr hexit)).symm, by simp [henter]; decide,
          fun depth => by simp [depthAfterBytes, hexit]; rfl⟩
      · have hdepth (depth : Nat) : depthAfterBytes bytes depth = depth := by
          simp [depthAfterBytes, henter, hexit]
        by_cases htwo : byteWeight bytes = 2
        · obtain rfl : .compareJump = kind := by simpa [byteKind?, htwo, henter, hexit] using h
          exact ⟨htwo.symm, by simp [henter]; decide, fun depth => (hdepth depth).symm⟩
        · obtain rfl : .other = kind := by simpa [byteKind?, hzero, htwo, henter, hexit] using h
          have hone : byteWeight bytes = 1 := by
            have hle := byteWeight_le_two bytes
            omega
          exact ⟨hone.symm, by simp [henter]; decide, fun depth => (hdepth depth).symm⟩

/-- Counting the bytes is counting the events of the kinds that the bytes say. -/
theorem countBytes_eq_countFrom (isSynchronized : Bool) (code : Bytes) (depth : Nat)
    (starts : List Nat) :
    countBytes isSynchronized code depth starts =
      countFrom isSynchronized depth
        (starts.filterMap fun start => byteKind? (code.drop start)) := by
  induction starts generalizing depth with
  | nil => rfl
  | cons start starts ih =>
    rw [countBytes, List.filterMap_cons]
    cases hkind : byteKind? (code.drop start) with
    | none =>
      have hweight : byteWeight (code.drop start) = 0 := by
        unfold byteKind? at hkind
        grind
      rw [depthAfterBytes_of_byteWeight_eq_zero hweight, ih, hweight]
      simp [Count.plus]
    | some kind =>
      obtain ⟨hweight, henter, hdepth⟩ := of_byteKind?_eq_some hkind
      simp only [countFrom, ← hdepth, ih, hweight, EventKind.isLocked, henter]

/-- Only after a wide prefix the next byte is looked at. -/
theorem byteWeight_cons {op : UInt8} (h : op ≠ 196) (operands : Bytes) :
    byteWeight (op :: operands) = byteWeight [op] := by
  simp only [byteWeight, h, false_and]

theorem byteKind?_cons {op : UInt8} (h : op ≠ 196) (operands : Bytes) :
    byteKind? (op :: operands) = byteKind? [op] := by
  unfold byteKind?
  rw [byteWeight_cons h]
  rfl

end Lock

/-- The kind of the event of an instruction in normal form, by its opcode. -/
def ClassFile.Opcode.eventKind? (op : Opcode) : Option Lock.EventKind :=
  (Lock.Category.ofShape? op.shape).map fun category => .resolve category op.code.toUInt64.toInt64

namespace Lock

theorem map_kind_ofInstruction?_form (offset : Nat) (op : Opcode) (operand : Int) :
    (Event.ofInstruction? (RawInstruction.normal.form offset op operand)).map Event.kind =
      op.eventKind? := by
  rw [Event.ofInstruction?, Option.map_map]
  rfl

/-- What an opcode says about counting: the byte of an opcode that is neither a prefix nor a wide
constant says of what kind its event is, a compact opcode is of the kind of the opcode that it is
rewritten as, and an opcode under a wide prefix is of no special kind. -/
@[mk_iff]
structure SaysKind (op : Opcode) : Prop where
  eventKind?_eq : op.layout? ≠ some .wide → op.layout? ≠ some .wideConstant →
    op.eventKind? = byteKind? [op.code]
  eventKind?_compactVar? : ∀ base ∈ op.compactVar?, base.1.eventKind? = op.eventKind?
  eventKind?_variableSlot : op.layout? = some .variableSlot →
    op.code ≠ 132 ∧ op.eventKind? = some .other
  byteWeight_le_one : op.layout? = some .none ∨ op.layout? = some .compactLoad ∨
    op.layout? = some .compactStore → byteWeight [op.code] ≤ 1

instance (op : Opcode) : Decidable (SaysKind op) := decidable_of_iff' _ (saysKind_iff op)

theorem saysKind (op : Opcode) : SaysKind op := by
  revert op
  apply Opcode.forall_of_bytes
  decide +kernel

theorem code_ne_of_layout? {op : Opcode} {layout : OperandLayout} (h : op.layout? = some layout)
    (hwide : layout ≠ .wide) : op.code ≠ 196 := by
  intro hcode
  have hlayout := op.testsLayout.eq_wide_iff.mp (congrArg Opcode.mk hcode)
  exact hwide (Option.some.inj (h.symm.trans hlayout))

theorem eventKind?_eq_byteKind?_cons {op : Opcode} {layout : OperandLayout}
    (h : op.layout? = some layout) (hwide : layout ≠ .wide) (hconstant : layout ≠ .wideConstant)
    (operands : Bytes) : op.eventKind? = byteKind? (op.code :: operands) := by
  rw [byteKind?_cons (code_ne_of_layout? h hwide)]
  exact (saysKind op).eventKind?_eq (by simpa [h] using hwide) (by simpa [h] using hconstant)

theorem eventKind?_of_compactVar? {op base : Opcode} {slot : Nat}
    (h : op.compactVar? = some (base, slot)) : base.eventKind? = op.eventKind? :=
  (saysKind op).eventKind?_compactVar? (base, slot) h

/-- The event of the normal form of an instruction is of the kind that its bytes say. -/
theorem map_kind_ofInstruction?_normal (raw : RawInstruction) (offset : Nat) (rest : Bytes) :
    (Event.ofInstruction? (raw.normal offset)).map Event.kind = byteKind? (raw.bytes ++ rest) := by
  cases raw with
  | plain op h | signedByte op h _ | variableSlot op h _ | branch op h _ | poolIndex op h _ =>
    exact (map_kind_ofInstruction?_form _ _ _).trans
      (eventKind?_eq_byteKind?_cons h (by decide) (by decide) _)
  | compactLoad type slot =>
    have hlayout := (RawInstruction.layout?_compact type slot).1
    have hbase := eventKind?_of_compactVar? (RawInstruction.compactVar?_compactLoad type slot)
    exact (map_kind_ofInstruction?_form _ _ _).trans
      (hbase.trans (eventKind?_eq_byteKind?_cons hlayout (by decide) (by decide) _))
  | compactStore type slot =>
    have hlayout := (RawInstruction.layout?_compact type slot).2
    have hbase := eventKind?_of_compactVar? (RawInstruction.compactVar?_compactStore type slot)
    exact (map_kind_ofInstruction?_form _ _ _).trans
      (hbase.trans (eventKind?_eq_byteKind?_cons hlayout (by decide) (by decide) _))
  | wideConstant op h _ => obtain rfl | rfl := op.testsLayout.eq_wideConstant_iff.mpr h <;> rfl
  | longBranch op h _ => obtain rfl | rfl := op.testsLayout.eq_longBranch_iff.mpr h <;> rfl
  | wide op h _ =>
    obtain ⟨hcode, hkind⟩ := (saysKind op).eventKind?_variableSlot h
    refine (map_kind_ofInstruction?_form _ _ _).trans (hkind.trans ?_)
    simp [RawInstruction.bytes, byteKind?, byteWeight, hcode]
  | _ => rfl

theorem byteWeight_cons_le_one {op : Opcode} {layout : OperandLayout}
    (h : op.layout? = some layout)
    (hshort : layout = .none ∨ layout = .compactLoad ∨ layout = .compactStore) (operands : Bytes) :
    byteWeight (op.code :: operands) ≤ 1 := by
  have hwide : layout ≠ .wide := by
    rintro rfl
    simp at hshort
  rw [byteWeight_cons (code_ne_of_layout? h hwide)]
  exact (saysKind op).byteWeight_le_one (by simpa [h] using hshort)

/-- An instruction counts for no more than the bytes that it takes. -/
theorem byteWeight_le_length (raw : RawInstruction) (rest : Bytes) :
    byteWeight (raw.bytes ++ rest) ≤ raw.bytes.length := by
  have htwo := byteWeight_le_two (raw.bytes ++ rest)
  cases raw with
  | plain op h => exact byteWeight_cons_le_one h (by decide) rest
  | compactLoad type slot =>
    exact byteWeight_cons_le_one (RawInstruction.layout?_compact type slot).1 (by decide) rest
  | compactStore type slot =>
    exact byteWeight_cons_le_one (RawInstruction.layout?_compact type slot).2 (by decide) rest
  | _ =>
    refine Nat.le_trans htwo ?_
    simp only [RawInstruction.bytes, RawInstruction.word16, RawInstruction.word32, List.length_cons,
      List.length_append, List.length_nil, Bytes.length_ofWord16, Bytes.length_ofWord32]
    omega

/-- The kinds of the events of instructions, in order, are those that the bytes at their starts
say. -/
theorem map_kind_events_normalFrom (raws : List RawInstruction) (front : Bytes) :
    ((RawInstruction.normalFrom front.length raws).filterMap Event.ofInstruction?).map Event.kind =
      (RawInstruction.startsFrom front.length raws).filterMap fun start =>
        byteKind? ((front ++ raws.flatMap RawInstruction.bytes).drop start) := by
  -- the bytes of the instructions before go to the front, so that starts stay offsets into the code
  induction raws generalizing front with
  | nil => rfl
  | cons raw raws ih =>
    have hrest := ih (front ++ raw.bytes)
    rw [List.length_append, List.append_assoc] at hrest
    have hkind := map_kind_ofInstruction?_normal raw front.length
      (raws.flatMap RawInstruction.bytes)
    rw [RawInstruction.normalFrom, RawInstruction.startsFrom, List.flatMap_cons,
      List.filterMap_cons, List.filterMap_cons, List.drop_left, ← hkind]
    cases Event.ofInstruction? (raw.normal front.length) with
    | none => exact hrest
    | some event => exact congrArg (event.kind :: ·) hrest

theorem total_countBytes_le (isSynchronized : Bool) (depth : Nat) (raws : List RawInstruction)
    (front : Bytes) :
    (countBytes isSynchronized (front ++ raws.flatMap RawInstruction.bytes) depth
      (RawInstruction.startsFrom front.length raws)).total ≤
        (raws.flatMap RawInstruction.bytes).length := by
  induction raws generalizing depth front with
  | nil => exact Nat.le_refl _
  | cons raw raws ih =>
    have hweight := byteWeight_le_length raw (raws.flatMap RawInstruction.bytes)
    rw [RawInstruction.startsFrom, countBytes, List.flatMap_cons, List.drop_left]
    have hrest := ih (depthAfterBytes (raw.bytes ++ raws.flatMap RawInstruction.bytes) depth)
      (front ++ raw.bytes)
    rw [List.length_append, List.append_assoc] at hrest
    simp only [Count.plus, List.length_append]
    omega

theorem map_offset_normalFrom (offset : Nat) (raws : List RawInstruction) :
    (RawInstruction.normalFrom offset raws).map Instruction.offset =
      RawInstruction.startsFrom offset raws := by
  induction raws generalizing offset with
  | nil => rfl
  | cons raw raws ih =>
    have hoffset : (raw.normal offset).offset = offset := by cases raw <;> rfl
    rw [RawInstruction.normalFrom, RawInstruction.startsFrom, List.map_cons, hoffset, ih]

/-- The tally of a method is the count of its code array, taken at the starts of its instructions.
The events of the method, in order, are of the kinds that the bytes there say, so normalizing an
instruction neither makes nor hides nor moves one. -/
theorem tally_ofMethod_eq_countBytes (method : ClassFile.Method) (code : Bytes)
    (hlength : code.length < 9223372036854775808)
    (hcode : Instruction.decode code = .ok method.instructions) :
    ∃ (raws : List RawInstruction) (starts : List Nat) (tally : Tally),
      RawInstruction.FitFrom 0 raws ∧ code = raws.flatMap RawInstruction.bytes ∧
      starts = RawInstruction.startsFrom 0 raws ∧
      method.instructions.map Instruction.offset = starts ∧
      (MethodUnit.ofMethod method).events.map Event.kind =
        starts.filterMap (fun start => byteKind? (code.drop start)) ∧
      (MethodUnit.ofMethod method).tally = .ok tally ∧
      tally.total.toInt = (countBytes method.access.isSynchronized code 0 starts).total ∧
      tally.locked.toInt = (countBytes method.access.isSynchronized code 0 starts).locked := by
  obtain ⟨raws, hfit, hbytes, hinstructions⟩ :=
    (Instruction.readFrom_eq_ok_iff (.start code) [] _).mp hcode
  obtain rfl : code = raws.flatMap RawInstruction.bytes := hbytes
  obtain hinstructions : method.instructions = RawInstruction.normalFrom 0 raws := hinstructions
  have hkinds : (MethodUnit.ofMethod method).events.map Event.kind =
      (RawInstruction.startsFrom 0 raws).filterMap fun start =>
        byteKind? ((raws.flatMap RawInstruction.bytes).drop start) := by
    rw [MethodUnit.ofMethod, hinstructions]
    exact map_kind_events_normalFrom raws []
  have hcount := countBytes_eq_countFrom method.access.isSynchronized
    (raws.flatMap RawInstruction.bytes) 0 (RawInstruction.startsFrom 0 raws)
  rw [← hkinds] at hcount
  have htotal : (countBytes method.access.isSynchronized (raws.flatMap RawInstruction.bytes) 0
      (RawInstruction.startsFrom 0 raws)).total ≤ (raws.flatMap RawInstruction.bytes).length :=
    total_countBytes_le method.access.isSynchronized 0 raws []
  rw [hcount] at htotal
  obtain ⟨tally, htally, hsum, hlocked⟩ :=
    (MethodUnit.ofMethod method).exists_tally (Nat.lt_of_le_of_lt htotal hlength)
  refine ⟨raws, _, tally, hfit, rfl, rfl, ?_, hkinds, htally, ?_, ?_⟩
  · rw [hinstructions, map_offset_normalFrom]
  · rw [hcount]
    exact hsum
  · rw [hcount]
    exact hlocked

/-- A method that enters a monitor and leaves it twice. Its constant has the number of the opcode
that enters a monitor, and a comparison and a wide increment run under the lock. -/
def leavesTwice : ClassFile.Method where
  access := ⟨0⟩
  name := utf8 "m"
  descriptor := utf8 "()V"
  code := some ⟨8, 8, 0, RawInstruction.normalFrom 0
    [.plain ⟨194⟩ rfl, .constant 194, .branch ⟨160⟩ rfl 3, .wideIncrement 1 1, .plain ⟨195⟩ rfl,
      .plain ⟨195⟩ rfl, .plain ⟨177⟩ rfl]⟩

theorem tally_ofMethod_leavesTwice :
    Instruction.decode [194, 18, 194, 160, 0, 3, 196, 132, 0, 1, 0, 1, 195, 195, 177] =
      .ok leavesTwice.instructions ∧
    ∃ tally, (MethodUnit.ofMethod leavesTwice).tally = .ok tally ∧ tally.total.toInt = 6 ∧
      tally.locked.toInt = 4 := by
  have hcode : Instruction.decode [194, 18, 194, 160, 0, 3, 196, 132, 0, 1, 0, 1, 195, 195, 177] =
      .ok leavesTwice.instructions :=
    (Instruction.readFrom_eq_ok_iff (.start _) [] _).mpr
      ⟨[.plain ⟨194⟩ rfl, .constant 194, .branch ⟨160⟩ rfl 3, .wideIncrement 1 1, .plain ⟨195⟩ rfl,
        .plain ⟨195⟩ rfl, .plain ⟨177⟩ rfl],
        by simp [RawInstruction.FitFrom, RawInstruction.FitsAt], rfl, rfl⟩
  obtain ⟨_, starts, tally, -, -, -, rfl, -, htally, htotal, hlocked⟩ :=
    tally_ofMethod_eq_countBytes leavesTwice _ (by decide) hcode
  refine ⟨hcode, tally, htally, ?_, ?_⟩
  · rw [htotal]
    rfl
  · rw [hlocked]
    rfl

end Lock

end MonitorCoverage
