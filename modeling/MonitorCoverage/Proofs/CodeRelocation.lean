import MonitorCoverage.Proofs.CodeTruncation

/-!
# Code behind other code

Code that is moved by whole words is decoded as before, apart from what names a place in the code
array: the offsets of instructions, the targets of jumps, and the offsets in faults. The padding of
switches is the same at both places, and so is all that is read. A code array whose length is a
number of whole words can therefore be decoded apart from the code that follows it.
-/

namespace MonitorCoverage.ClassFile

/-- The same position, a number of bytes further on. -/
def Cursor.shift (n : Nat) (c : Cursor) : Cursor := ⟨c.offset + n, c.rest⟩

/-- The same fault, found a number of bytes further on. -/
def Fault.shift (n : Nat) (fault : Fault) : Fault :=
  ⟨fault.places.map (Place.shift n), fault.cause.shift n⟩

@[simp] theorem Fault.kind_shift (n : Nat) (fault : Fault) : (fault.shift n).kind = fault.kind := by
  obtain ⟨places, cause⟩ := fault
  cases cause <;> rfl

namespace Decoder

variable {α β : Type}

/-- The same result, a number of bytes further on. -/
def shiftResult (n : Nat) : EStateM.Result Fault Cursor α → EStateM.Result Fault Cursor α
  | .ok a c => .ok a (c.shift n)
  | .error fault c => .error (fault.shift n) (c.shift n)

/-- The second decoder does the same as the first, a number of bytes further on. -/
def Moves (n : Nat) (decoder decoder' : Decoder α) : Prop :=
  ∀ c, decoder' (c.shift n) = shiftResult n (decoder c)

namespace Moves

variable {n : Nat}

theorem bind {decoder decoder' : Decoder α} {next next' : α → Decoder β}
    (hd : Moves n decoder decoder') (hn : ∀ a, Moves n (next a) (next' a)) :
    Moves n (decoder >>= next) (decoder' >>= next') := by
  intro c
  simp only [Bind.bind, EStateM.bind, hd c]
  cases decoder c with
  | ok a c₁ => exact hn a c₁
  | error fault c₁ => rfl

theorem within {decoder decoder' : Decoder α} (place : Place) (hd : Moves n decoder decoder') :
    Moves n (within place decoder) (within (place.shift n) decoder') := by
  intro c
  simp only [Decoder.within, hd c]
  cases decoder c with
  | ok a c₁ => rfl
  | error fault c₁ => rfl

theorem starve (need : Nat) : Moves n (starve need : Decoder α) (starve need) := fun _ => rfl

theorem u1 : Moves n u1 u1 := by
  intro c
  simp only [Decoder.u1, Cursor.shift]
  split
  · simp [shiftResult, Cursor.shift, Nat.add_right_comm]
  · exact starve 1 c

theorem u2 : Moves n u2 u2 := by
  intro c
  simp only [Decoder.u2, Cursor.shift]
  split
  · simp [shiftResult, Cursor.shift, Nat.add_right_comm]
  · exact starve 2 c

theorem u4 : Moves n u4 u4 := by
  intro c
  simp only [Decoder.u4, Cursor.shift]
  split
  · simp [shiftResult, Cursor.shift, Nat.add_right_comm]
  · exact starve 4 c

theorem take (k : Nat) : Moves n (take k) (take k) := by
  rintro ⟨offset, rest⟩
  by_cases h : (rest.splitAt k).1.length = k
  · have htake : ∀ offset, Decoder.take k ⟨offset, rest⟩ =
        .ok (rest.splitAt k).1 ⟨offset + k, (rest.splitAt k).2⟩ := fun _ => if_pos h
    rw [Cursor.shift, htake, htake, shiftResult, Cursor.shift, Nat.add_right_comm]
  · have htake : ∀ offset, Decoder.take k ⟨offset, rest⟩ = Decoder.starve k ⟨offset, rest⟩ :=
      fun _ => if_neg h
    rw [Cursor.shift, htake, htake]
    exact starve k ⟨offset, rest⟩

theorem congruence (n : Nat) : Congruence n (Moves n) where
  pure _ _ := rfl
  fail _ _ _ := rfl
  bind hd hn := hd.bind hn
  within place hd := hd.within place
  offset hn c := hn c.offset c
  u1 := .u1
  u2 := .u2
  u4 := .u4
  take := .take

end Moves

end Decoder

namespace Instruction

open RawInstruction

/-- The same instruction, a number of bytes further on; only jumps have a place as operand. -/
def shift (n : Nat) (instruction : Instruction) : Instruction :=
  { instruction with
    offset := instruction.offset + n
    operand := if instruction.shape = .jump then instruction.operand + n else instruction.operand }

theorem shift_form (n offset : Nat) (op : Opcode) (operand : Int) :
    (normal.form offset op operand).shift n =
      normal.form (offset + n) op (if op.shape = .jump then operand + n else operand) := rfl

theorem shape_compact : ∀ type : Fin 5, Opcode.shape ⟨UInt8.ofNat (21 + type)⟩ = .var ∧
    Opcode.shape ⟨UInt8.ofNat (54 + type)⟩ = .var := by
  decide

theorem normal_add (raw : RawInstruction) (offset n : Nat) :
    raw.normal (offset + n) = (raw.normal offset).shift n := by
  cases raw with
  | compactLoad type slot =>
    simp only [normal, shift_form, (shape_compact type).1, reduceCtorEq, if_false]
  | compactStore type slot =>
    simp only [normal, shift_form, (shape_compact type).2, reduceCtorEq, if_false]
  | plain op h | signedByte op h _ | variableSlot op h _ | poolIndex op h _ | wide op h _ =>
    have hjump := op.testsLayout.shape_eq_jump_iff
    simp [h] at hjump
    simp [normal, shift_form, hjump]
  | branch op h delta =>
    have hjump := op.testsLayout.shape_eq_jump_iff.mpr h
    simp only [normal, shift_form, hjump, if_true, Int.natCast_add, Int.add_right_comm]
  | longBranch op h delta =>
    have hjump : (if op = .jumpWide then Opcode.jump else .subroutine).shape = .jump := by
      split <;> rfl
    simp only [normal, shift_form, hjump, if_true, Int.natCast_add, Int.add_right_comm]
  | _ => rfl

/-- What decoding comes to for the same code, a number of bytes further on and after instructions
that were found before. -/
def shiftBehind (before : List Instruction) (n : Nat) :
    Except Fault (List Instruction) → Except Fault (List Instruction)
  | .ok instructions => .ok (before ++ instructions.map (shift n))
  | .error fault => .error (fault.shift n)

/-- The loop of the decoder goes through moved code as it goes through the code. -/
theorem readFrom_shift {n : Nat} (hn : n % 4 = 0) (before : List Instruction) (c : Cursor)
    (found : List Instruction) :
    readFrom (c.shift n) (found.map (shift n) ++ before.reverse) =
      shiftBehind before n (readFrom c found) := by
  fun_induction readFrom c found with
  | case1 c found hempty =>
    rw [readFrom_of_isEmpty (c := c.shift n) (List.isEmpty_iff.mp hempty)]
    simp [shiftBehind]
  | case2 c found hempty written c' hread _ ih =>
    have hmoved := (Decoder.Moves.congruence n).read hn c
    rw [hread] at hmoved
    -- only the raw instruction tells which operands are places
    obtain ⟨_, _, _, raw, _, _, rfl⟩ := (RawInstruction.recognizes_read _ _ _).mp hread
    rw [readFrom_of_read_eq_ok hmoved, normalize_written, ← ih, normalize_written]
    simp [Cursor.shift, normal_add]
  | case3 c found hempty fault c' hread =>
    have hmoved := (Decoder.Moves.congruence n).read hn c
    rw [hread] at hmoved
    exact readFrom_of_read_eq_error (c := c.shift n) (List.isEmpty_iff.not.mp hempty) hmoved _

/-- Code after a number of whole words that are decoded on their own. -/
theorem decode_append_eq {front : Bytes} {found : List Instruction}
    (hfront : decode front = .ok found) (haligned : front.length % 4 = 0) (back : Bytes) :
    decode (front ++ back) = shiftBehind found front.length (decode back) := by
  obtain ⟨fault, hfault, -⟩ | hextend := readFrom_extend (Cursor.start front) [] back
  · rw [← decode, hfront] at hfault
    cases hfault
  · rw [Cursor.extend_start, ← decode, ← decode, hfront] at hextend
    have hback := readFrom_shift haligned found (Cursor.start back) []
    have hstart : (Cursor.start back).shift front.length =
        ⟨(Cursor.start front).offset + (Cursor.start front).rest.length, back⟩ := by
      simp [Cursor.start, Cursor.shift]
    rw [hstart] at hback
    exact hextend.trans hback

/-- Decoding is compositional at whole words. Behind a front that is decoded on its own and is a
number of whole words long, code is decoded exactly if it is decoded on its own, to the same
instructions with their offsets and jump targets moved by the length of the front. It is refused
with a fault of the same kind as on its own. -/
theorem decode_append_aligned (front back : Bytes) (found : List Instruction)
    (hfront : decode front = .ok found) (haligned : front.length % 4 = 0) :
    (∀ instructions, decode (front ++ back) = .ok instructions ↔
      ∃ rest, decode back = .ok rest ∧ instructions = found ++ rest.map (shift front.length)) ∧
    ∀ fault, decode back = .error fault →
      decode (front ++ back) = .error (fault.shift front.length) ∧
        (fault.shift front.length).kind = fault.kind := by
  rw [decode_append_eq hfront haligned]
  refine ⟨fun instructions => ?_, fun fault hback => ?_⟩
  · cases decode back with
    | ok rest => simp [shiftBehind, eq_comm]
    | error fault => simp [shiftBehind]
  · rw [hback]
    exact ⟨rfl, fault.kind_shift _⟩

/-- A word of code. -/
def jumpOverNothing : Bytes := [0, 167, 0, 3]

/-- A switch whose padding depends on where it stands, and a jump back to it. -/
def switchAndJump : Bytes := [3, 171, 0, 0, 0, 0, 0, 11, 0, 0, 0, 0, 200, 255, 255, 255, 245]

theorem decode_append_aligned_switchAndJump :
    decode jumpOverNothing = .ok [⟨0, ⟨0⟩, .plain, 0⟩, ⟨1, .jump, .jump, 4⟩] ∧
    decode (jumpOverNothing ++ switchAndJump) = .ok [⟨0, ⟨0⟩, .plain, 0⟩, ⟨1, .jump, .jump, 4⟩,
      ⟨4, ⟨3⟩, .plain, 0⟩, ⟨5, .lookupSwitch, .lookupSwitch, 0⟩, ⟨16, .jump, .jump, 5⟩] ∧
    decode (jumpOverNothing ++ [17, 1]) =
      .error ⟨[.instruction .shortConstant 4], .truncated 2 5 1⟩ := by
  have hfront : decode jumpOverNothing = .ok [⟨0, ⟨0⟩, .plain, 0⟩, ⟨1, .jump, .jump, 4⟩] := by
    decide +kernel
  refine ⟨hfront, ?_, ?_⟩
  · exact ((decode_append_aligned _ switchAndJump _ hfront rfl).1 _).mpr
      ⟨[⟨0, ⟨3⟩, .plain, 0⟩, ⟨1, .lookupSwitch, .lookupSwitch, 0⟩, ⟨12, .jump, .jump, 1⟩],
        by decide +kernel, rfl⟩
  · exact ((decode_append_aligned _ [17, 1] _ hfront rfl).2
      ⟨[.instruction .shortConstant 0], .truncated 2 1 1⟩ (by decide +kernel)).1

end Instruction

end MonitorCoverage.ClassFile
