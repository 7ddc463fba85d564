import MonitorCoverage.Proofs.Assembling

/-!
# Pools with more slots than numbers

Lengths and counts that do not fit into their words stop the assembling of a class. The number of
the next free slot is not checked: it has sixteen bits and starts again from zero. A file whose pool
needs at most 65534 slots has a count that is one more than its slots, and each of its slot numbers
is that of the name it stands for. A file that needs more is written as well, with a wrong count.
-/

namespace MonitorCoverage.ClassFile

/-- The pool of an assembled file is sound: the count is one more than the slots of the constants,
which are two for each constant of eight bytes and one for each of the different names and classes,
and every slot number in the file is that of a slot which holds what it refers to. -/
structure Assembled.IsSound (file : Assembled) (draft : Draft) : Prop where
  count : file.count.toNat = 1 + slotCount file.constants
  slots : slotCount file.constants = draft.keys.dedup.length + 2 * draft.longs.length
  name : HoldsClass file.constants file.thisClass draft.name
  superName : HoldsClass file.constants file.superClass rootName
  fields : List.Forall₂ (MemberLayout.Denotes file.constants) file.fields.items
    (draft.fields.map MemberDraft.toMember)
  methods : List.Forall₂ (MemberLayout.Denotes file.constants) file.methods.items
    (draft.methods.map MemberDraft.toMember)

namespace Draft

variable {draft : Draft} {file : Assembled}

theorem AssembledAs.isSound (h : draft.AssembledAs file) (hslots : draft.slotsNeeded ≤ 65534) :
    file.IsSound draft := by
  have hcount : slotCount file.constants ≤ 65535 := by
    rw [h.slots]
    omega
  exact ⟨h.toNat_count hslots, h.slots, h.numbers.name.holdsClass hcount,
    h.numbers.superName.holdsClass hcount,
    h.numbers.fields.imp fun _ _ hfield => hfield.denotes hcount,
    h.numbers.methods.imp fun _ _ hmethod => hmethod.denotes hcount⟩

/-- A count has sixteen bits, so a sound pool has at most 65534 slots. -/
theorem slotsNeeded_le_of_isSound (h : file.IsSound draft) : draft.slotsNeeded ≤ 65534 := by
  have hcount := h.count
  have hlt : file.count.toNat < 65536 := file.count.toNat_lt
  rw [h.slots] at hcount
  rw [slotsNeeded]
  omega

/-- A draft that is assembled gives a file whose slots are those that it needs, and whose count and
slot numbers are right up to multiples of 65536. They are right exactly if 65534 slots are enough.
-/
theorem bytes_isSound_iff {bytes : Bytes} (h : draft.bytes = .ok bytes) :
    (∃ file : Assembled, bytes = file.bytes ∧ slotCount file.constants = draft.slotsNeeded ∧
      file.count = UInt16.ofNat (1 + draft.slotsNeeded) ∧ file.Numbers draft.toOutline) ∧
    ((∃ file : Assembled, bytes = file.bytes ∧ file.IsSound draft) ↔
      draft.slotsNeeded ≤ 65534) := by
  obtain ⟨-, file, hbytes, hfile⟩ := exists_assembledAs h
  refine ⟨⟨file, hbytes, hfile.slots, hfile.count, hfile.numbers⟩, ?_, ?_⟩
  · rintro ⟨other, -, hsound⟩
    exact slotsNeeded_le_of_isSound hsound
  · intro hslots
    exact ⟨file, hbytes, hfile.isSound hslots⟩

/-- A class with nothing but constants of eight bytes. -/
def onlyLongs (count : Nat) : Draft where
  name := utf8 "A"
  longs := List.replicate count 0

theorem exists_bytes_onlyLongs (count : Nat) : ∃ bytes, (onlyLongs count).bytes = .ok bytes :=
  ⟨_, rfl⟩

theorem slotsNeeded_onlyLongs (count : Nat) : (onlyLongs count).slotsNeeded = 5 + 2 * count := by
  have hkeys : (onlyLongs count).keys.dedup.length = 5 := by
    change (Draft.keys ⟨utf8 "A", 52, [], [], []⟩).dedup.length = 5
    decide +kernel
  rw [slotsNeeded, hkeys, onlyLongs, List.length_replicate]

theorem bytes_isSound_iff_onlyLongs :
    (∃ bytes, (onlyLongs 32764).bytes = .ok bytes ∧
      ∃ file : Assembled, bytes = file.bytes ∧ file.IsSound (onlyLongs 32764)) ∧
    ∃ bytes, (onlyLongs 32765).bytes = .ok bytes ∧
      ¬∃ file : Assembled, bytes = file.bytes ∧ file.IsSound (onlyLongs 32765) := by
  obtain ⟨bytes, hbytes⟩ := exists_bytes_onlyLongs 32764
  obtain ⟨bytes', hbytes'⟩ := exists_bytes_onlyLongs 32765
  refine ⟨⟨bytes, hbytes, (bytes_isSound_iff hbytes).2.mpr ?_⟩, bytes', hbytes', ?_⟩
  · rw [slotsNeeded_onlyLongs]
    decide
  · rw [(bytes_isSound_iff hbytes').2, slotsNeeded_onlyLongs]
    decide

/-- A class that needs 65535 slots is assembled, and its count is zero. -/
theorem bytes_unsound_onlyLongs :
    (∃ file : Assembled, (onlyLongs 32765).bytes = .ok file.bytes ∧
      slotCount file.constants = 65535 ∧ file.count = 0) ∧
    ¬∃ file : Assembled, (onlyLongs 32765).bytes = .ok file.bytes ∧
      file.IsSound (onlyLongs 32765) := by
  obtain ⟨bytes, hbytes⟩ := exists_bytes_onlyLongs 32765
  obtain ⟨-, file, rfl, hfile⟩ := exists_assembledAs hbytes
  have hslots := slotsNeeded_onlyLongs 32765
  refine ⟨⟨file, hbytes, hfile.slots.trans hslots, ?_⟩, ?_⟩
  · rw [hfile.count, hslots]
    decide
  · rintro ⟨other, -, hsound⟩
    have hle := slotsNeeded_le_of_isSound hsound
    omega

end Draft

end MonitorCoverage.ClassFile
