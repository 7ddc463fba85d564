import MonitorCoverage.Proofs.InstructionDecoding
import MonitorCoverage.Proofs.Outcome
import MonitorCoverage.Proofs.ReaderCongruence

/-!
# Code arrays that are cut off

A code array may be cut off anywhere: between two instructions, in an operand, in the padding of a
switch or in its table. Decoding what is left gives the instructions before the cut if the cut lies
between two instructions, and otherwise runs out of bytes. What else is wrong with code is found
whatever stands behind it. Both follow from one fact about the decoder's loop: unless it runs out of
bytes, it goes through the front of a longer code array as it goes through the front alone.
-/

namespace MonitorCoverage.ClassFile

namespace Decoder

theorem Stable.offset : Stable Decoder.offset := fun _ _ => .inr rfl

theorem Stable.congruence : Congruence 0 fun decoder _ => Stable decoder where
  pure := .pure
  fail cause _ := .fail cause
  bind hd hn := hd.bind hn
  within place hd := hd.within place
  offset hn := Stable.offset.bind hn
  u1 := .u1
  u2 := .u2
  u4 := .u4
  take := .take

/-- The kinds of faults that code can have. -/
def IsCodeFault (kind : FaultKind) : Prop :=
  kind = .truncated ∨ kind = .unknownOpcode ∨ kind = .badCode

theorem FailsOnly.congruence : Congruence 0 fun decoder _ => FailsOnly IsCodeFault decoder where
  pure := .pure
  fail _ hcause := .fail (.inr hcause)
  bind hd hn := hd.bind hn
  within place hd := hd.within place
  offset hn := FailsOnly.offset.bind hn
  u1 := .u1 (.inl rfl)
  u2 := .u2 (.inl rfl)
  u4 := .u4 (.inl rfl)
  take := .take (.inl rfl)

end Decoder

namespace Instruction

open RawInstruction

/-! ## The loop of the decoder -/

theorem readFrom_of_isEmpty {c : Cursor} (h : c.rest = []) (found : List Instruction) :
    readFrom c found = .ok found.reverse := by
  rw [readFrom, if_pos (List.isEmpty_iff.mpr h)]

theorem readFrom_of_read_eq_ok {c c' : Cursor} {written : Written}
    (h : Written.read c = .ok written c') (found : List Instruction) :
    readFrom c found = readFrom c' (written.normalize c.offset :: found) := by
  have hlt := Written.length_rest_lt_of_read h
  have hrest : ¬c.rest.isEmpty = true := by
    intro hempty
    rw [List.isEmpty_iff.mp hempty] at hlt
    exact absurd hlt (Nat.not_lt_zero _)
  rw [readFrom, if_neg hrest]
  split
  · rename_i hread
    rw [h] at hread
    cases hread
    rfl
  · rename_i hread
    rw [h] at hread
    cases hread

theorem readFrom_of_read_eq_error {c c' : Cursor} {fault : Fault} (hrest : c.rest ≠ [])
    (h : Written.read c = .error fault c') (found : List Instruction) :
    readFrom c found = .error fault := by
  rw [readFrom, if_neg (by rwa [List.isEmpty_iff])]
  split
  · rename_i hread
    rw [h] at hread
    cases hread
  · rename_i hread
    rw [h] at hread
    cases hread
    rfl

/-- With more bytes behind the code, the loop runs out of bytes in the code or goes through all of
it as before and then on from its end. -/
theorem readFrom_extend (c : Cursor) (found : List Instruction) (more : Bytes) :
    (∃ fault, readFrom c found = .error fault ∧ fault.IsTruncated) ∨
      readFrom (c.extend more) found = readFrom c found >>= fun instructions =>
        readFrom ⟨c.offset + c.rest.length, more⟩ instructions.reverse := by
  fun_induction readFrom c found with
  | case1 c found hempty =>
    right
    simp [Cursor.extend, List.isEmpty_iff.mp hempty, Bind.bind, Except.bind]
  | case2 c found hempty written c' hread _ ih =>
    obtain ⟨phrase, hrest, hoffset, -⟩ := (RawInstruction.recognizes_read _ _ _).mp hread
    -- the end of the code stays where it is while the cursor moves towards it
    have hend : c.offset + c.rest.length = c'.offset + c'.rest.length := by
      rw [hrest, hoffset, List.length_append]
      omega
    obtain ⟨fault, c₁, hstarves, -⟩ | hsame := Decoder.Stable.congruence.read rfl c more
    · rw [hread] at hstarves
      cases hstarves
    · rw [hread] at hsame
      rw [readFrom_of_read_eq_ok hsame, hend]
      exact ih
  | case3 c found hempty fault c' hread =>
    obtain ⟨fault', c₁, hstarves, htruncated⟩ | hsame := Decoder.Stable.congruence.read rfl c more
    · rw [hread] at hstarves
      cases hstarves
      exact .inl ⟨fault, rfl, htruncated⟩
    · right
      rw [hread] at hsame
      have hrest : (c.extend more).rest ≠ [] := by
        simp [Cursor.extend, List.isEmpty_iff.not.mp hempty]
      exact readFrom_of_read_eq_error hrest hsame found

theorem isCodeFault_of_readFrom {c : Cursor} {found : List Instruction} {fault : Fault}
    (h : readFrom c found = .error fault) : Decoder.IsCodeFault fault.kind := by
  fun_induction readFrom c found with
  | case1 c found hempty => cases h
  | case2 c found hempty written c' hread _ ih => exact ih h
  | case3 c found hempty fault' c' hread =>
    cases h
    exact Decoder.FailsOnly.congruence.read rfl c fault c' hread

/-! ## Cuts between instructions -/

theorem fitFrom_append {offset : Nat} {before after : List RawInstruction} :
    FitFrom offset (before ++ after) ↔
      FitFrom offset before ∧ FitFrom (offset + (before.flatMap bytes).length) after := by
  induction before generalizing offset with
  | nil => simp [FitFrom]
  | cons raw before ih => simp [FitFrom, ih, and_assoc, Nat.add_assoc]

theorem normalFrom_append (offset : Nat) (before after : List RawInstruction) :
    normalFrom offset (before ++ after) =
      normalFrom offset before ++ normalFrom (offset + (before.flatMap bytes).length) after := by
  induction before generalizing offset with
  | nil => simp [normalFrom]
  | cons raw before ih => simp [normalFrom, ih, Nat.add_assoc]

@[simp] theorem offset_normal (raw : RawInstruction) (offset : Nat) :
    (raw.normal offset).offset = offset := by
  cases raw <;> rfl

/-- An instruction of a code array stands where those before it end. -/
theorem exists_split_of_mem {offset : Nat} {raws : List RawInstruction} {instruction : Instruction}
    (h : instruction ∈ normalFrom offset raws) :
    ∃ before raw after, raws = before ++ raw :: after ∧
      instruction.offset = offset + (before.flatMap bytes).length := by
  induction raws generalizing offset with
  | nil => simp [normalFrom] at h
  | cons raw raws ih =>
    obtain rfl | hmem := List.mem_cons.mp h
    · exact ⟨[], raw, raws, rfl, by simp⟩
    · obtain ⟨before, raw', after, rfl, hoffset⟩ := ih hmem
      refine ⟨raw :: before, raw', after, rfl, ?_⟩
      rw [hoffset, List.flatMap_cons, List.length_append]
      omega

theorem offset_of_mem {offset : Nat} {raws : List RawInstruction} {instruction : Instruction}
    (h : instruction ∈ normalFrom offset raws) :
    offset ≤ instruction.offset ∧
      instruction.offset < offset + (raws.flatMap bytes).length := by
  obtain ⟨before, raw, after, rfl, hoffset⟩ := exists_split_of_mem h
  have hpos : 0 < raw.bytes.length := List.length_pos_iff.mpr raw.bytes_ne_nil
  simp only [List.flatMap_append, List.flatMap_cons, List.length_append]
  omega

/-- A position between two instructions of a code array, before the first or after the last. -/
def IsBoundary (code : Bytes) (instructions : List Instruction) (position : Nat) : Prop :=
  position = code.length ∨ ∃ instruction ∈ instructions, instruction.offset = position

instance (code : Bytes) (instructions : List Instruction) (position : Nat) :
    Decidable (IsBoundary code instructions position) :=
  inferInstanceAs (Decidable (_ ∨ _))

/-- A boundary parts the instructions of a code array. -/
theorem exists_split_of_isBoundary {front back : Bytes} {raws : List RawInstruction}
    (hbytes : front ++ back = raws.flatMap bytes)
    (h : IsBoundary (front ++ back) (normalFrom 0 raws) front.length) :
    ∃ before after, raws = before ++ after ∧ front = before.flatMap bytes := by
  obtain hend | ⟨instruction, hmem, hoffset⟩ := h
  · refine ⟨raws, [], (List.append_nil _).symm, ?_⟩
    have hback : back = [] := by simpa using hend
    rw [← hbytes, hback, List.append_nil]
  · obtain ⟨before, raw, after, rfl, hsplit⟩ := exists_split_of_mem hmem
    refine ⟨before, raw :: after, rfl, ?_⟩
    rw [List.flatMap_append] at hbytes
    exact List.append_inj_left hbytes (by omega)

/-- The instructions before a boundary are those with an offset below it. -/
theorem filter_normalFrom_append (before after : List RawInstruction) :
    (normalFrom 0 (before ++ after)).filter (·.offset < (before.flatMap bytes).length) =
      normalFrom 0 before := by
  rw [normalFrom_append, Nat.zero_add, List.filter_append]
  have hbefore : (normalFrom 0 before).filter (·.offset < (before.flatMap bytes).length) =
      normalFrom 0 before := by
    apply List.filter_eq_self.mpr
    intro instruction hmem
    have hlt := (offset_of_mem hmem).2
    rw [Nat.zero_add] at hlt
    exact decide_eq_true hlt
  have hafter : (normalFrom (before.flatMap bytes).length after).filter
      (·.offset < (before.flatMap bytes).length) = [] := by
    apply List.filter_eq_nil_iff.mpr
    intro instruction hmem hlt
    exact Nat.not_lt.mpr (offset_of_mem hmem).1 (of_decide_eq_true hlt)
  rw [hbefore, hafter, List.append_nil]

theorem decode_front_of_isBoundary {front back : Bytes} {instructions : List Instruction}
    (h : decode (front ++ back) = .ok instructions)
    (hboundary : IsBoundary (front ++ back) instructions front.length) :
    decode front = .ok (instructions.filter (·.offset < front.length)) := by
  obtain ⟨raws, hfit, hbytes, rfl⟩ := (readFrom_eq_ok_iff _ _ _).mp h
  obtain ⟨before, after, rfl, rfl⟩ := exists_split_of_isBoundary hbytes hboundary
  refine (readFrom_eq_ok_iff _ _ _).mpr ⟨before, (fitFrom_append.mp hfit).1, rfl, ?_⟩
  exact filter_normalFrom_append before after

/-- Where the whole code is decoded, the front runs out of bytes or ends between instructions. -/
theorem truncated_or_isBoundary {front back : Bytes} {instructions : List Instruction}
    (h : decode (front ++ back) = .ok instructions) :
    (∃ fault, decode front = .error fault ∧ fault.kind = .truncated) ∨
      IsBoundary (front ++ back) instructions front.length := by
  obtain ⟨fault, hfault, htruncated⟩ | hextend := readFrom_extend (Cursor.start front) [] back
  · exact .inl ⟨fault, hfault, Fault.isTruncated_iff.mp htruncated⟩
  · right
    rw [Cursor.extend_start, ← decode, h, eq_comm, Outcome.bind_eq_ok_iff] at hextend
    -- the loop goes on at the cut, so what it finds next, if anything, stands there
    obtain ⟨found, -, hback⟩ := hextend
    obtain ⟨raws, -, hbytes, rfl⟩ := (readFrom_eq_ok_iff _ _ _).mp hback
    cases raws with
    | nil =>
      left
      obtain rfl : back = [] := hbytes
      simp
    | cons raw raws =>
      right
      exact ⟨raw.normal front.length, by simp [normalFrom, Cursor.start], offset_normal _ _⟩

/-- A fault that is no want of bytes stays whatever follows. -/
theorem decode_append_of_eq_error {front : Bytes} {fault : Fault}
    (h : decode front = .error fault) (hkind : fault.kind ≠ .truncated) (back : Bytes) :
    decode (front ++ back) = .error fault := by
  obtain ⟨fault', hfault', htruncated⟩ | hextend := readFrom_extend (Cursor.start front) [] back
  · rw [← decode, h] at hfault'
    cases hfault'
    exact absurd (Fault.isTruncated_iff.mp htruncated) hkind
  · rw [Cursor.extend_start, ← decode, ← decode, h] at hextend
    exact hextend

/-- Cutting off a code array. Where the whole of it is decoded, the front is decoded to the
instructions with an offset below the cut if the cut lies between two instructions, and is truncated
otherwise. A front with an unknown opcode or a malformed switch is refused with the same fault
whatever follows it. Code has no faults but these. -/
theorem decode_front_or_truncated (front back : Bytes) :
    (∀ instructions, decode (front ++ back) = .ok instructions →
      (IsBoundary (front ++ back) instructions front.length →
        decode front = .ok (instructions.filter (·.offset < front.length))) ∧
      (¬IsBoundary (front ++ back) instructions front.length →
        ∃ fault, decode front = .error fault ∧ fault.kind = .truncated)) ∧
    (∀ fault, decode front = .error fault → fault.kind = .unknownOpcode ∨ fault.kind = .badCode →
      decode (front ++ back) = .error fault) ∧
    ∀ fault, decode front = .error fault →
      fault.kind = .truncated ∨ fault.kind = .unknownOpcode ∨ fault.kind = .badCode := by
  refine ⟨fun instructions h => ⟨decode_front_of_isBoundary h, fun hinside => ?_⟩, ?_,
    fun fault h => isCodeFault_of_readFrom h⟩
  · exact (truncated_or_isBoundary h).resolve_right hinside
  · intro fault h hkind
    refine decode_append_of_eq_error h ?_ back
    obtain hkind | hkind := hkind <;> simp [hkind]

/-- A switch with two targets between two instructions without operands. -/
def switchCode : Bytes :=
  [3, 170, 0, 0, 0, 0, 0, 23, 0, 0, 0, 7, 0, 0, 0, 8, 0, 0, 0, 23, 0, 0, 0, 23, 177]

theorem decode_front_or_truncated_switchCode :
    decode (switchCode.take 24) = .ok [⟨0, ⟨3⟩, .plain, 0⟩, ⟨1, .tableSwitch, .tableSwitch, 0⟩] ∧
    (∃ fault, decode (switchCode.take 13) = .error fault ∧ fault.kind = .truncated) ∧
    decode ([196, 96, 0, 1] ++ [177]) = .error ⟨[], .unknownWide ⟨96⟩ 0⟩ := by
  have hall : decode switchCode = .ok [⟨0, ⟨3⟩, .plain, 0⟩, ⟨1, .tableSwitch, .tableSwitch, 0⟩,
      ⟨24, ⟨177⟩, .plain, 0⟩] := by decide +kernel
  refine ⟨?_, ?_, ?_⟩
  · exact ((decode_front_or_truncated (switchCode.take 24) (switchCode.drop 24)).1 _ hall).1
      (by decide)
  · exact ((decode_front_or_truncated (switchCode.take 13) (switchCode.drop 13)).1 _ hall).2
      (by decide)
  · exact (decode_front_or_truncated [196, 96, 0, 1] [177]).2.1 _ (by decide +kernel) (.inl rfl)

end Instruction

end MonitorCoverage.ClassFile
