import Mathlib.Order.Nat
import MonitorCoverage.ClassFile.Basic

/-!
# More bytes behind the input

A decoder that does not run out of bytes does not see what stands behind the bytes it has read: with
more bytes there, it yields the same value or fails with the same fault. This holds of the
reads of words and passes through sequences, counts and places, so it holds of the outline of a
class file. Code is decoded only after the outline was read, from bytes that the outline holds, so
it holds of parsing as well. A class file that is cut off is therefore either read as before or
reported as truncated, and one length separates the two.
-/

namespace MonitorCoverage.ClassFile

/-- A fault for want of bytes. -/
def Fault.IsTruncated (fault : Fault) : Prop :=
  ∃ need offset available, fault.cause = .truncated need offset available

theorem Fault.IsTruncated.within {fault : Fault} (h : fault.IsTruncated) (place : Place) :
    (fault.within place).IsTruncated := h

/-- The same position, with more bytes at the end of the input. -/
def Cursor.extend (c : Cursor) (more : Bytes) : Cursor := ⟨c.offset, c.rest ++ more⟩

theorem Cursor.extend_start (data more : Bytes) :
    (Cursor.start data).extend more = Cursor.start (data ++ more) := rfl

namespace Decoder

variable {α β : Type}

/-- The same result, with more bytes at the end of the input. -/
def extendResult (more : Bytes) : EStateM.Result Fault Cursor α → EStateM.Result Fault Cursor α
  | .ok a c => .ok a (c.extend more)
  | .error fault c => .error fault (c.extend more)

def Starves (result : EStateM.Result Fault Cursor α) : Prop :=
  ∃ fault c, result = .error fault c ∧ fault.IsTruncated

/-- A decoder that runs out of bytes or does not look at what stands behind those it has read. -/
def Stable (decoder : Decoder α) : Prop :=
  ∀ c more, Starves (decoder c) ∨ decoder (c.extend more) = extendResult more (decoder c)

theorem starves_starve (need : Nat) (c : Cursor) : Starves (starve need c : EStateM.Result _ _ α) :=
  ⟨_, c, rfl, need, c.offset, c.rest.length, rfl⟩

namespace Stable

theorem pure (a : α) : Stable (Pure.pure a : Decoder α) := fun _ _ => .inr rfl

theorem fail (cause : Cause) : Stable (fail cause : Decoder α) := fun _ _ => .inr rfl

theorem bind {decoder : Decoder α} {next : α → Decoder β} (hd : Stable decoder)
    (hn : ∀ a, Stable (next a)) : Stable (decoder >>= next) := by
  intro c more
  simp only [Bind.bind, EStateM.bind]
  cases hc : decoder c with
  | error fault c₁ =>
    obtain ⟨fault', c', h, htruncated⟩ | h := hd c more
    · rw [hc] at h
      cases h
      exact .inl ⟨fault, c₁, rfl, htruncated⟩
    · rw [h, hc]
      exact .inr rfl
  | ok a c₁ =>
    obtain ⟨fault', c', h, _⟩ | h := hd c more
    · rw [hc] at h
      cases h
    · rw [h, hc]
      exact hn a c₁ more

theorem map {decoder : Decoder α} (f : α → β) (hd : Stable decoder) : Stable (f <$> decoder) := by
  have hbind := hd.bind fun a => Stable.pure (f a)
  have hmap : (f <$> decoder) = (decoder >>= fun a => Pure.pure (f a)) := by
    funext c
    simp only [Functor.map, EStateM.map, Bind.bind, EStateM.bind]
    cases decoder c <;> rfl
  rwa [hmap]

theorem within {decoder : Decoder α} (place : Place) (hd : Stable decoder) :
    Stable (within place decoder) := by
  intro c more
  simp only [Decoder.within]
  obtain ⟨fault, c', h, htruncated⟩ | h := hd c more
  · rw [h]
    exact .inl ⟨fault.within place, c', rfl, htruncated.within place⟩
  · rw [h]
    cases decoder c with
    | ok a c' => exact .inr rfl
    | error fault c' => exact .inr rfl

theorem ite {p : Prop} [Decidable p] {decoder other : Decoder α} (hd : Stable decoder)
    (ho : Stable other) : Stable (if p then decoder else other) := by
  by_cases h : p
  · rwa [if_pos h]
  · rwa [if_neg h]

/-- A decoder that goes on only where a condition for failure does not hold. -/
theorem guarded {p : Prop} [Decidable p] {cause : Cause} {next : Unit → Decoder α}
    (hn : Stable (next ())) : Stable (if p then Decoder.fail cause >>= next else next ()) :=
  .ite (.bind (.fail cause) fun _ => hn) hn

theorem u1 : Stable u1 := by
  intro c more
  obtain ⟨offset, rest⟩ := c
  match rest with
  | [] => exact .inl (starves_starve 1 _)
  | _ :: _ => exact .inr rfl

theorem u2 : Stable u2 := by
  intro c more
  obtain ⟨offset, rest⟩ := c
  match rest with
  | [] | [_] => exact .inl (starves_starve 2 _)
  | _ :: _ :: _ => exact .inr rfl

theorem u4 : Stable u4 := by
  intro c more
  obtain ⟨offset, rest⟩ := c
  match rest with
  | [] | [_] | [_, _] | [_, _, _] => exact .inl (starves_starve 4 _)
  | _ :: _ :: _ :: _ :: _ => exact .inr rfl

theorem take (n : Nat) : Stable (take n) := by
  intro c more
  simp only [Decoder.take, List.splitAt_eq, Cursor.extend]
  by_cases h : n ≤ c.rest.length
  · have hshort : (c.rest.take n).length = n := List.length_take_of_le h
    rw [List.take_append_of_le_length h, List.drop_append_of_le_length h, if_pos hshort]
    exact .inr (if_pos hshort)
  · have hshort : (c.rest.take n).length ≠ n := by
      rw [List.length_take]
      omega
    rw [if_neg hshort]
    exact .inl (starves_starve n c)

theorem replicateOnto {decoder : Decoder α} (hd : Stable decoder) (n : Nat) (found : List α) :
    Stable (replicateOnto decoder n found) := by
  induction n generalizing found with
  | zero => exact .pure _
  | succ n ih => exact hd.bind fun a => ih (a :: found)

theorem counted {decoder : Decoder α} (hd : Stable decoder) : Stable (counted decoder) :=
  u2.bind fun count => hd.replicateOnto count.toNat []

/-- A decoder run for itself runs out of bytes or does not look at what stands behind its input. -/
theorem run_append {decoder : Decoder α} (hd : Stable decoder) (data more : Bytes) :
    (∃ fault, run decoder data = .error fault ∧ fault.IsTruncated) ∨
      run decoder (data ++ more) = run decoder data := by
  simp only [run, ← Cursor.extend_start]
  obtain ⟨fault, c, h, htruncated⟩ | h := hd (Cursor.start data) more
  · rw [h]
    exact .inl ⟨fault, rfl, htruncated⟩
  · rw [h]
    cases decoder (Cursor.start data) with
    | ok a c => exact .inr rfl
    | error fault c => exact .inr rfl

end Stable

end Decoder

/-! ## The parts of a class file -/

open Decoder

theorem Constant.stable_read (slot : Nat) : Stable (Constant.read slot) := by
  refine .bind .u1 fun tag => .ite (.bind .u2 fun length => .map _ (.take _)) (.ite (.map _ .u2) ?_)
  cases payloadSize? tag with
  | some size => exact .map _ (.take size)
  | none => exact .fail _

namespace ConstantPool

theorem stable_readSlots (n : Nat) (slots : Array (Option Constant)) :
    Stable (readSlots n slots) := by
  induction n, slots using readSlots.induct with
  | case1 slots => exact .pure slots
  | case2 slots => exact .bind (Constant.stable_read _) fun constant => .pure _
  | case3 n slots ihWide ihNarrow =>
    exact .bind (Constant.stable_read _) fun constant => .ite (ihWide constant) (ihNarrow constant)

theorem stable_read : Stable ConstantPool.read :=
  .bind .u2 fun _ => .ite (.pure _) (.bind (stable_readSlots _ _) fun _ => .pure _)

theorem stable_readText (pool : ConstantPool) : Stable pool.readText := by
  refine .bind .u2 fun slot => ?_
  split
  · exact .pure _
  · exact .fail _

theorem stable_readClassName (pool : ConstantPool) : Stable pool.readClassName := by
  refine .bind .u2 fun slot => ?_
  split
  · exact .pure _
  · exact .fail _

theorem stable_readOptionalClassName (pool : ConstantPool) : Stable pool.readOptionalClassName := by
  refine .bind .u2 fun slot => .ite (.pure []) ?_
  split
  · exact .pure _
  · exact .fail _

end ConstantPool

theorem Attribute.stable_read (pool : ConstantPool) : Stable (Attribute.read pool) :=
  .bind pool.stable_readText fun name => .bind .u4 fun length =>
    .bind (.within (.attribute name) (.take length.toNat)) fun _ => .pure _

theorem Member.stable_read (pool : ConstantPool) : Stable (Member.read pool) :=
  .bind .u2 fun _ => .bind pool.stable_readText fun _ => .bind pool.stable_readText fun _ =>
    .bind (.counted (Attribute.stable_read pool)) fun _ => .pure _

theorem Outline.stable_read : Stable Outline.read :=
  .bind .u4 fun _ => .guarded <| .bind .u2 fun _ => .bind .u2 fun _ => .guarded <|
    .bind ConstantPool.stable_read fun pool => .bind .u2 fun _ =>
    .bind (.within .thisClass pool.stable_readClassName) fun _ =>
    .bind (.within .superClass pool.stable_readOptionalClassName) fun _ =>
    .bind (.counted (.within .interface pool.stable_readClassName)) fun _ =>
    .bind (.within .fields (.counted (Member.stable_read pool))) fun _ =>
    .bind (.within .methods (.counted (Member.stable_read pool))) fun _ => .pure _

/-! ## Parsing -/

/-- Parsing reports the input as truncated or does not look at what stands behind it. -/
theorem parse_append_of_not_truncated (data more : Bytes) :
    (∃ fault, parse data = .error fault ∧ fault.IsTruncated) ∨
      parse (data ++ more) = parse data := by
  obtain ⟨fault, hrun, htruncated⟩ | hrun := Outline.stable_read.run_append data more
  · refine .inl ⟨fault, ?_, htruncated⟩
    rw [parse, hrun]
    rfl
  · refine .inr ?_
    rw [parse, hrun, parse]

theorem parse_append_of_eq_ok {data : Bytes} {file : ClassFile} (h : parse data = .ok file)
    (more : Bytes) : parse (data ++ more) = .ok file := by
  obtain ⟨fault, hfault, _⟩ | hsame := parse_append_of_not_truncated data more
  · rw [h] at hfault
    cases hfault
  · rw [hsame, h]

theorem parse_append_of_eq_error {data : Bytes} {fault : Fault} (h : parse data = .error fault)
    (hfault : ¬fault.IsTruncated) (more : Bytes) : parse (data ++ more) = .error fault := by
  obtain ⟨fault', h', htruncated⟩ | hsame := parse_append_of_not_truncated data more
  · rw [h] at h'
    cases h'
    exact absurd htruncated hfault
  · rw [hsame, h]

/-- The front of a class file is read as the whole file is, or it is reported as truncated. -/
theorem parse_take_of_eq_ok {data : Bytes} {file : ClassFile} (h : parse data = .ok file)
    (n : Nat) : parse (data.take n) = .ok file ∨
      ∃ fault, parse (data.take n) = .error fault ∧ fault.IsTruncated := by
  obtain htruncated | hsame := parse_append_of_not_truncated (data.take n) (data.drop n)
  · exact .inr htruncated
  · rw [List.take_append_drop, h] at hsame
    exact .inl hsame.symm

/-- A longer front of a class file is read as a shorter one that is read at all. -/
theorem parse_take_of_le {data : Bytes} {file : ClassFile} {m n : Nat} (hle : m ≤ n)
    (h : parse (data.take m) = .ok file) : parse (data.take n) = .ok file := by
  have hfront : (data.take n).take m = data.take m := by rw [List.take_take, Nat.min_eq_left hle]
  rw [← List.take_append_drop m (data.take n), hfront]
  exact parse_append_of_eq_ok h _

/-- One length separates the fronts of a class file that are reported as truncated from those that
are read as the whole file. -/
theorem exists_threshold {data : Bytes} {file : ClassFile} (h : parse data = .ok file) :
    ∃ threshold ≤ data.length, ∀ n,
      (threshold ≤ n → parse (data.take n) = .ok file) ∧
      (n < threshold → ∃ fault, parse (data.take n) = .error fault ∧ fault.IsTruncated) := by
  classical
  have hexists : ∃ n, parse (data.take n) = .ok file := ⟨data.length, by rwa [List.take_length]⟩
  refine ⟨Nat.find hexists, Nat.find_le (by rwa [List.take_length]), fun n => ⟨?_, ?_⟩⟩
  · intro hle
    exact parse_take_of_le hle (Nat.find_spec hexists)
  · intro hlt
    exact (parse_take_of_eq_ok h n).resolve_left (Nat.find_min hexists hlt)

/-- Bytes behind a class file change neither the class nor, unless bytes were missing, the fault.
Hence every front of a class file is read as the whole file, from one length on, or is reported as
truncated, below that length. -/
theorem parse_append (data more : Bytes) :
    (∀ file, parse data = .ok file → parse (data ++ more) = .ok file) ∧
    (∀ fault, parse data = .error fault → ¬fault.IsTruncated →
      parse (data ++ more) = .error fault) ∧
    ∀ file, parse data = .ok file → ∃ threshold ≤ data.length, ∀ n,
      (threshold ≤ n → parse (data.take n) = .ok file) ∧
      (n < threshold → ∃ fault, parse (data.take n) = .error fault ∧ fault.IsTruncated) :=
  ⟨fun _ h => parse_append_of_eq_ok h more,
    fun _ h hfault => parse_append_of_eq_error h hfault more,
    fun _ h => exists_threshold h⟩

/-- A class `A` without super class, interfaces and members. -/
def bareClass : Bytes :=
  [0xCA, 0xFE, 0xBA, 0xBE, 0, 0, 0, 45, 0, 3, 7, 0, 2, 1, 0, 1, 65, 0, 0, 0, 1, 0, 0, 0, 0, 0, 0, 0,
    0]

theorem parse_append_bareClass :
    (∃ file, parse bareClass = .ok file ∧ file.name = utf8 "A" ∧
      parse (bareClass ++ [0xFF]) = .ok file ∧
      ∃ threshold ≤ 29, ∀ n, n < threshold →
        ∃ fault, parse (bareClass.take n) = .error fault ∧ fault.IsTruncated) ∧
    parse (0 :: bareClass ++ [0xFF]) = .error ⟨[], .badMagic 0x00CAFEBA⟩ := by
  refine ⟨?_, (parse_append (0 :: bareClass) [0xFF]).2.1 _ rfl (by simp [Fault.IsTruncated])⟩
  obtain ⟨happend, -, hfronts⟩ := parse_append bareClass [0xFF]
  have hparse : parse bareClass = .ok ⟨0, 45, ⟨0⟩, [65], [], [], [], []⟩ := rfl
  obtain ⟨threshold, hle, hthreshold⟩ := hfronts _ hparse
  exact ⟨_, hparse, rfl, happend _ hparse, threshold, hle, fun n hn => (hthreshold n).2 hn⟩

end MonitorCoverage.ClassFile
