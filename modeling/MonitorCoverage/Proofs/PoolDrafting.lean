import Mathlib.Data.List.Dedup
import MonitorCoverage.Proofs.ConstantSlots
import MonitorCoverage.Proofs.Outcome

/-!
# Constants that a draft asks for

The pool of a draft grows at its end and remembers the slot of every key that was asked for. Its
slot numbers have sixteen bits, so they are the numbers of the slots up to multiples of 65536. What
a pool says about the keys asked for so far is kept by every request, whether or not the numbers
have overflowed; where they have not, a slot number is the number of the slot.
-/

namespace MonitorCoverage

namespace Range

theorem toWord16_eq_ok {n : Nat} {word : UInt16} (h : toWord16 n = .ok word) :
    n < 65536 ∧ word = UInt16.ofNat n := by
  unfold toWord16 at h
  split at h
  · cases h
  · cases h
    exact ⟨by omega, by simp⟩

theorem toWord32_eq_ok {n : Nat} {word : UInt32} (h : toWord32 n = .ok word) :
    n < 4294967296 ∧ word = UInt32.ofNat n := by
  unfold toWord32 at h
  split at h
  · cases h
  · cases h
    exact ⟨by omega, by simp⟩

end Range

namespace ClassFile

theorem slotCount_append (constants more : List Constant) :
    slotCount (constants ++ more) = slotCount constants + slotCount more := by
  induction constants with
  | nil => simp [slotCount]
  | cons constant constants ih =>
    simp only [List.cons_append, slotCount, ih]
    omega

theorem Holds.mono {constants constants' : List Constant} {slot : Nat} {constant : Constant}
    (h : Holds constants slot constant) (hgrows : constants <+: constants') :
    Holds constants' slot constant := by
  obtain ⟨before, after, rfl, hslot⟩ := h
  obtain ⟨more, rfl⟩ := hgrows
  exact ⟨before, after ++ more, by simp, hslot⟩

theorem Holds.lt {constants : List Constant} {slot : Nat} {constant : Constant}
    (h : Holds constants slot constant) : slot < 1 + slotCount constants := by
  obtain ⟨before, after, rfl, rfl⟩ := h
  have htaken := constant.one_le_slotsTaken
  simp only [slotCount_append, slotCount]
  omega

theorem holds_last (constants : List Constant) (constant : Constant) :
    Holds (constants ++ [constant]) (1 + slotCount constants) constant :=
  ⟨constants, [], rfl, rfl⟩

/-- Where slot numbers fit, constants fill a pool up to the next free slot. -/
theorem fillUpTo_slotCount (next : Nat) (constants : List Constant) :
    FillUpTo (next + slotCount constants) next constants := by
  induction constants generalizing next with
  | nil => simp [FillUpTo, slotCount]
  | cons constant constants ih =>
    have htaken := constant.one_le_slotsTaken
    have hnext : next + slotCount (constant :: constants) =
        next + constant.slotsTaken + slotCount constants := by
      simp only [slotCount]
      omega
    refine ⟨by rw [hnext]; omega, ?_⟩
    rw [hnext]
    exact ih _

/-- A slot number with sixteen bits belongs to a constant. -/
def Numbers (constants : List Constant) (slot : UInt16) (constant : Constant) : Prop :=
  ∃ n, Holds constants n constant ∧ slot = UInt16.ofNat n

theorem Numbers.mono {constants constants' : List Constant} {slot : UInt16} {constant : Constant}
    (h : Numbers constants slot constant) (hgrows : constants <+: constants') :
    Numbers constants' slot constant := by
  obtain ⟨n, hholds, hslot⟩ := h
  exact ⟨n, hholds.mono hgrows, hslot⟩

theorem Numbers.holds {constants : List Constant} {slot : UInt16} {constant : Constant}
    (h : Numbers constants slot constant) (hcount : slotCount constants ≤ 65535) :
    Holds constants slot.toNat constant := by
  obtain ⟨n, hholds, rfl⟩ := h
  have hlt := hholds.lt
  rwa [UInt16.toNat_ofNat_of_lt' (by show n < 65536; omega)]

/-- A slot number belongs to what a key asks for. -/
def PoolKey.Numbers (constants : List Constant) (slot : UInt16) : PoolKey → Prop
  | text bytes => ClassFile.Numbers constants slot (.text bytes)
  | className name => ∃ reference, ClassFile.Numbers constants slot (.classRef reference) ∧
      ClassFile.Numbers constants reference (.text name)

theorem PoolKey.Numbers.mono {constants constants' : List Constant} {slot : UInt16}
    {key : PoolKey} (h : key.Numbers constants slot) (hgrows : constants <+: constants') :
    key.Numbers constants' slot := by
  cases key with
  | text bytes => exact ClassFile.Numbers.mono h hgrows
  | className name =>
    obtain ⟨reference, hclass, hname⟩ := h
    exact ⟨reference, hclass.mono hgrows, hname.mono hgrows⟩

theorem PoolKey.Numbers.holdsClass {constants : List Constant} {slot : UInt16} {name : Bytes}
    (h : (PoolKey.className name).Numbers constants slot) (hcount : slotCount constants ≤ 65535) :
    HoldsClass constants slot name := by
  obtain ⟨reference, hclass, hname⟩ := h
  exact ⟨reference, hclass.holds hcount, hname.holds hcount⟩

namespace PoolDraft

/-- The constants of a pool in the order of their slots. -/
def inOrder (pool : PoolDraft) : List Constant := pool.constants.reverse

/-- A pool in which some keys were asked for, and which was given some constants of eight bytes. -/
structure Covers (pool : PoolDraft) (keys : List PoolKey) (longs : Nat) : Prop where
  next : pool.next = UInt16.ofNat (1 + slotCount pool.inOrder)
  writable : ∀ constant ∈ pool.inOrder, constant.IsWritable
  nodup : (pool.index.map Prod.fst).Nodup
  mem_index : ∀ key, key ∈ pool.index.map Prod.fst ↔ key ∈ keys
  numbers : ∀ key slot, (key, slot) ∈ pool.index → key.Numbers pool.inOrder slot
  named : ∀ name, .className name ∈ keys → .text name ∈ keys
  count : slotCount pool.inOrder = pool.index.length + 2 * longs

theorem Covers.empty : Covers {} [] 0 where
  next := rfl
  writable := by simp [inOrder]
  nodup := by simp
  mem_index := by simp
  numbers := by simp
  named := by simp
  count := rfl

/-- The slots that a pool takes: one for each key that was asked for, and two for each constant of
eight bytes. -/
theorem Covers.slotCount_eq {pool : PoolDraft} {keys : List PoolKey} {longs : Nat}
    (h : pool.Covers keys longs) : slotCount pool.inOrder = keys.dedup.length + 2 * longs := by
  have hperm : (pool.index.map Prod.fst).Perm keys.dedup :=
    (List.perm_ext_iff_of_nodup h.nodup (List.nodup_dedup keys)).mpr fun key => by
      rw [h.mem_index, List.mem_dedup]
  have hlength : pool.index.length = keys.dedup.length := by
    rw [← hperm.length_eq, List.length_map]
  rw [h.count, hlength]

theorem Covers.mem_of_slotOf?_eq_some {pool : PoolDraft} {keys : List PoolKey} {longs : Nat}
    {key : PoolKey} {slot : UInt16} (h : pool.Covers keys longs)
    (hslot : pool.slotOf? key = some slot) :
    key ∈ keys ∧ key.Numbers pool.inOrder slot := by
  obtain ⟨before, after, hindex, -⟩ := List.lookup_eq_some_iff.mp hslot
  have hmem : (key, slot) ∈ pool.index := by simp [hindex]
  exact ⟨(h.mem_index key).mp (List.mem_map_of_mem hmem), h.numbers key slot hmem⟩

theorem Covers.not_mem_of_slotOf?_eq_none {pool : PoolDraft} {keys : List PoolKey} {longs : Nat}
    {key : PoolKey} (h : pool.Covers keys longs) (hslot : pool.slotOf? key = none) :
    key ∉ keys := by
  rw [← h.mem_index, List.mem_map]
  rintro ⟨entry, hentry, rfl⟩
  simpa using List.lookup_eq_none_iff.mp hslot entry hentry

/-- Keys that were asked for before change nothing. -/
theorem Covers.of_mem {pool : PoolDraft} {keys more : List PoolKey} {longs : Nat}
    (h : pool.Covers keys longs) (hmore : ∀ key ∈ more, key ∈ keys) :
    pool.Covers (keys ++ more) longs := by
  have hmem : ∀ key, key ∈ keys ++ more ↔ key ∈ keys := by
    intro key
    rw [List.mem_append]
    exact ⟨fun hkey => hkey.elim id (hmore key), .inl⟩
  refine ⟨h.next, h.writable, h.nodup, ?_, h.numbers, ?_, h.count⟩
  · intro key
    rw [hmem, h.mem_index]
  · intro name hname
    rw [hmem] at hname ⊢
    exact h.named name hname

theorem Covers.numbers_next {pool : PoolDraft} {keys : List PoolKey} {longs : Nat}
    (h : pool.Covers keys longs) (constant : Constant) :
    Numbers (pool.inOrder ++ [constant]) pool.next constant :=
  ⟨_, holds_last pool.inOrder constant, h.next⟩

theorem inOrder_add (pool : PoolDraft) (key : PoolKey) (constant : Constant) :
    (pool.add key constant).2.inOrder = pool.inOrder ++ [constant] :=
  List.reverse_cons

/-- A key that is new gets the next free slot. -/
theorem Covers.add {pool : PoolDraft} {keys : List PoolKey} {longs : Nat} {key : PoolKey}
    {constant : Constant} (h : pool.Covers keys longs) (hkey : key ∉ keys)
    (htaken : constant.slotsTaken = 1) (hwritable : constant.IsWritable)
    (hnumbers : key.Numbers (pool.inOrder ++ [constant]) pool.next)
    (hnamed : ∀ name, key = .className name → .text name ∈ keys) :
    (pool.add key constant).2.Covers (keys ++ [key]) longs := by
  have hcount : slotCount (pool.inOrder ++ [constant]) = slotCount pool.inOrder + 1 := by
    simp only [slotCount_append, slotCount, htaken]
  refine ⟨?_, ?_, ?_, ?_, ?_, ?_, ?_⟩
  · rw [inOrder_add, hcount, ← Nat.add_assoc, UInt16.ofNat_add, ← h.next]
    rfl
  · intro other hother
    rw [inOrder_add, List.mem_append, List.mem_singleton] at hother
    obtain hother | rfl := hother
    · exact h.writable other hother
    · exact hwritable
  · rw [PoolDraft.add, List.map_cons, List.nodup_cons, h.mem_index]
    exact ⟨hkey, h.nodup⟩
  · intro other
    rw [PoolDraft.add, List.map_cons, List.mem_cons, h.mem_index, List.mem_append,
      List.mem_singleton, or_comm]
  · intro other slot hother
    rw [inOrder_add]
    obtain heq | hother := List.mem_cons.mp hother
    · cases heq
      exact hnumbers
    · exact (h.numbers other slot hother).mono (List.prefix_append _ _)
  · intro name hname
    rw [List.mem_append, List.mem_singleton] at hname ⊢
    obtain hname | rfl := hname
    · exact .inl (h.named name hname)
    · exact .inl (hnamed name rfl)
  · rw [inOrder_add, hcount, h.count, PoolDraft.add, List.length_cons]
    omega

theorem inOrder_prefix_add (pool : PoolDraft) (key : PoolKey) (constant : Constant) :
    pool.inOrder <+: (pool.add key constant).2.inOrder := by
  rw [inOrder_add]
  exact List.prefix_append _ _

/-- A request for a text yields a slot number of the text, in a pool that has grown at its end. -/
theorem Covers.text {pool pool' : PoolDraft} {keys : List PoolKey} {longs : Nat} {bytes : Bytes}
    {slot : UInt16} (h : pool.Covers keys longs) (htext : pool.text bytes = .ok (slot, pool')) :
    pool'.Covers (keys ++ [.text bytes]) longs ∧ pool.inOrder <+: pool'.inOrder ∧
      Numbers pool'.inOrder slot (.text bytes) := by
  unfold PoolDraft.text at htext
  cases hslot : pool.slotOf? (.text bytes) with
  | some found =>
    simp only [hslot] at htext
    cases htext
    obtain ⟨hmem, hnumbers⟩ := h.mem_of_slotOf?_eq_some hslot
    exact ⟨h.of_mem (by simpa using hmem), List.prefix_rfl, hnumbers⟩
  | none =>
    simp only [hslot, Outcome.bind_eq_ok_iff, Outcome.pure_eq_ok_iff] at htext
    -- writing a text fails where its length does not fit, so what is added can be written
    obtain ⟨word, hword, heq⟩ := htext
    obtain rfl : slot = pool.next := congrArg Prod.fst heq
    obtain rfl : pool' = (pool.add (.text bytes) (.text bytes)).2 := congrArg Prod.snd heq
    have hnumbers : Numbers (pool.inOrder ++ [.text bytes]) pool.next (.text bytes) :=
      h.numbers_next _
    refine ⟨h.add (h.not_mem_of_slotOf?_eq_none hslot) rfl (Range.toWord16_eq_ok hword).1 hnumbers
      (fun name hname => by cases hname), inOrder_prefix_add _ _ _, ?_⟩
    rwa [inOrder_add]

/-- A request for a class yields a slot number of a reference to its name. -/
theorem Covers.className {pool pool' : PoolDraft} {keys : List PoolKey} {longs : Nat} {name : Bytes}
    {slot : UInt16} (h : pool.Covers keys longs)
    (hclass : pool.className name = .ok (slot, pool')) :
    pool'.Covers (keys ++ [.text name, .className name]) longs ∧ pool.inOrder <+: pool'.inOrder ∧
      (PoolKey.className name).Numbers pool'.inOrder slot := by
  unfold PoolDraft.className at hclass
  cases hslot : pool.slotOf? (.className name) with
  | some found =>
    simp only [hslot] at hclass
    cases hclass
    obtain ⟨hmem, hnumbers⟩ := h.mem_of_slotOf?_eq_some hslot
    have hname := h.named name hmem
    exact ⟨h.of_mem (by simp [hmem, hname]), List.prefix_rfl, hnumbers⟩
  | none =>
    simp only [hslot, Outcome.bind_eq_ok_iff, Outcome.pure_eq_ok_iff] at hclass
    obtain ⟨⟨nameSlot, named⟩, htext, heq⟩ := hclass
    obtain rfl : slot = named.next := congrArg Prod.fst heq
    obtain rfl : pool' = (named.add (.className name) (.classRef nameSlot)).2 :=
      congrArg Prod.snd heq
    obtain ⟨hcovers, hgrows, hname⟩ := h.text htext
    have hnumbers : (PoolKey.className name).Numbers (named.inOrder ++ [.classRef nameSlot])
        named.next :=
      ⟨nameSlot, hcovers.numbers_next _, hname.mono (List.prefix_append _ _)⟩
    have hnew : PoolKey.className name ∉ keys ++ [.text name] := by
      simpa using h.not_mem_of_slotOf?_eq_none hslot
    have hwritable : (Constant.classRef nameSlot).IsWritable := trivial
    have hadd := hcovers.add hnew rfl hwritable hnumbers fun other hother => by
      cases hother
      simp
    refine ⟨?_, hgrows.trans (inOrder_prefix_add _ _ _), ?_⟩
    · rwa [List.append_assoc] at hadd
    · rwa [inOrder_add]

theorem inOrder_long (pool : PoolDraft) (value : Int64) :
    (pool.long value).inOrder = pool.inOrder ++ [.other 5 (Bytes.ofWord64 value.toUInt64)] :=
  List.reverse_cons

theorem Covers.long {pool : PoolDraft} {keys : List PoolKey} {longs : Nat}
    (h : pool.Covers keys longs) (value : Int64) : (pool.long value).Covers keys (longs + 1) := by
  have hcount : slotCount (pool.long value).inOrder = slotCount pool.inOrder + 2 := by
    rw [inOrder_long, slotCount_append]
    rfl
  refine ⟨?_, ?_, h.nodup, h.mem_index, ?_, h.named, ?_⟩
  · rw [hcount, ← Nat.add_assoc, UInt16.ofNat_add, ← h.next]
    rfl
  · intro constant hconstant
    rw [inOrder_long, List.mem_append, List.mem_singleton] at hconstant
    obtain hconstant | rfl := hconstant
    · exact h.writable constant hconstant
    · simp [Constant.IsWritable, Constant.payloads]
  · intro key slot hkey
    rw [inOrder_long]
    exact (h.numbers key slot hkey).mono (List.prefix_append _ _)
  · rw [hcount, h.count]
    simp only [PoolDraft.long]
    omega

theorem Covers.longs {pool : PoolDraft} {keys : List PoolKey} {longs : Nat}
    (h : pool.Covers keys longs) (values : List Int64) :
    (values.foldl PoolDraft.long pool).Covers keys (longs + values.length) ∧
      pool.inOrder <+: (values.foldl PoolDraft.long pool).inOrder := by
  induction values generalizing pool longs with
  | nil => exact ⟨h, List.prefix_rfl⟩
  | cons value values ih =>
    obtain ⟨hcovers, hgrows⟩ := ih (h.long value)
    rw [List.foldl_cons, List.length_cons]
    refine ⟨by rwa [Nat.add_assoc, Nat.add_comm 1] at hcovers, ?_⟩
    rw [inOrder_long] at hgrows
    exact (List.prefix_append _ _).trans hgrows

end PoolDraft

namespace MemberDraft

/-- What a member asks the pool for. -/
def keys (member : MemberDraft) : List PoolKey := [.text member.name, .text member.descriptor]

/-- A member that was given slot numbers of its name and of its descriptor. -/
structure PlacedIn (constants : List Constant) (member : MemberDraft) (placed : Placed) : Prop where
  member_eq : placed.member = member
  name : Numbers constants placed.name (.text member.name)
  descriptor : Numbers constants placed.descriptor (.text member.descriptor)

theorem PlacedIn.mono {constants constants' : List Constant} {member : MemberDraft}
    {placed : Placed} (h : PlacedIn constants member placed) (hgrows : constants <+: constants') :
    PlacedIn constants' member placed :=
  ⟨h.member_eq, h.name.mono hgrows, h.descriptor.mono hgrows⟩

/-- Members are placed in order, after those placed before. -/
theorem covers_placeOnto {pool pool' : PoolDraft} {keys : List PoolKey} {longs : Nat}
    {before all : List Placed} {members : List MemberDraft} (h : pool.Covers keys longs)
    (hplace : placeOnto pool before members = .ok (all, pool')) :
    pool'.Covers (keys ++ members.flatMap MemberDraft.keys) longs ∧
      pool.inOrder <+: pool'.inOrder ∧
      ∃ placed, all = before.reverse ++ placed ∧
        List.Forall₂ (PlacedIn pool'.inOrder) members placed := by
  induction members generalizing pool keys before with
  | nil =>
    cases hplace
    exact ⟨by simpa using h, List.prefix_rfl, [], by simp, .nil⟩
  | cons member members ih =>
    simp only [placeOnto, Outcome.bind_eq_ok_iff] at hplace
    obtain ⟨⟨name, pool₁⟩, hname, ⟨descriptor, pool₂⟩, hdescriptor, hrest⟩ := hplace
    obtain ⟨hcovers₁, hgrows₁, hnumbers₁⟩ := h.text hname
    obtain ⟨hcovers₂, hgrows₂, hnumbers₂⟩ := hcovers₁.text hdescriptor
    obtain ⟨hcovers, hgrows, placed, rfl, hplaced⟩ := ih hcovers₂ hrest
    refine ⟨?_, hgrows₁.trans (hgrows₂.trans hgrows), ⟨member, name, descriptor⟩ :: placed,
      by simp, .cons ⟨rfl, hnumbers₁.mono (hgrows₂.trans hgrows), hnumbers₂.mono hgrows⟩ hplaced⟩
    simpa [MemberDraft.keys] using hcovers

end MemberDraft

end ClassFile

end MonitorCoverage
