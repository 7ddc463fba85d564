import MonitorCoverage.Proofs.FaultKinds
import MonitorCoverage.Proofs.PoolDrafting

/-!
# Alignment of slots

The reader of a pool counts slots while it reads entries, and an entry of eight bytes moves the
count on by two. So the slot of an entry hangs on the tags of all entries before it, and one slot
too many or too few would shift every later name. Here the row of slots is compared with the entries
as they stand in the file: each entry lies in the slot after those of the entries before it, every
other slot is empty, and a lookup finds an entry exactly where one lies.
-/

namespace MonitorCoverage.ClassFile

/-- The second slot of an entry with a wide tag. -/
def IsSecondSlot (entries : List Constant) (slot : Nat) : Prop :=
  ∃ before entry after, entries = before ++ entry :: after ∧ entry.tag ∈ Constant.wideTags ∧
    slot = 2 + slotCount before

/-! ## The cells of the entries -/

theorem length_flatMap_cells (entries : List Constant) :
    (entries.flatMap Constant.cells).length = slotCount entries := by
  induction entries with
  | nil => rfl
  | cons entry entries ih => simp [slotCount, entry.length_cells, ih]

/-- The cells of an entry stand behind those of the entries before it. -/
theorem getElem?_flatMap_cells_add (before : List Constant) (entry : Constant)
    (after : List Constant) {i : Nat} (hi : i < entry.slotsTaken) :
    ((before ++ entry :: after).flatMap Constant.cells)[slotCount before + i]? =
      entry.cells[i]? := by
  rw [List.flatMap_append, List.getElem?_append_right (by rw [length_flatMap_cells]; omega),
    length_flatMap_cells, Nat.add_sub_cancel_left, List.flatMap_cons,
    List.getElem?_append_left (by rwa [entry.length_cells])]

/-- A slot that is counted is a slot of an entry. -/
theorem exists_entry_of_lt_slotCount {entries : List Constant} {slot : Nat}
    (h : slot < slotCount entries) :
    ∃ before entry after i, entries = before ++ entry :: after ∧ i < entry.slotsTaken ∧
      slot = slotCount before + i := by
  induction entries generalizing slot with
  | nil => exact absurd h (Nat.not_lt_zero slot)
  | cons first entries ih =>
    by_cases hfirst : slot < first.slotsTaken
    · exact ⟨[], first, entries, slot, rfl, hfirst, by simp [slotCount]⟩
    · simp only [slotCount] at h
      have hlater : slot - first.slotsTaken < slotCount entries := by omega
      obtain ⟨before, entry, after, i, rfl, hi, hslot⟩ := ih hlater
      refine ⟨first :: before, entry, after, i, rfl, hi, ?_⟩
      simp only [slotCount]
      omega

/-- The second cell of an entry with a wide tag is empty. -/
theorem getElem?_flatMap_cells_succ (before : List Constant) {entry : Constant}
    (after : List Constant) (h : entry.tag ∈ Constant.wideTags) :
    ((before ++ entry :: after).flatMap Constant.cells)[slotCount before + 1]? = some none := by
  have htaken := Constant.slotsTaken_eq_two_iff.mpr h
  rw [getElem?_flatMap_cells_add before entry after (by omega), Constant.cells, if_pos htaken]
  rfl

/-- Nothing lies in the second slot of an entry. -/
theorem IsSecondSlot.not_holds {entries : List Constant} {slot : Nat}
    (h : IsSecondSlot entries slot) (entry : Constant) : ¬Holds entries slot entry := by
  rintro ⟨before, after, hentries, hslot⟩
  obtain ⟨before', wide, after', rfl, hwide, hsecond⟩ := h
  have hheld := PoolLayout.getElem?_flatMap_cells.mpr ⟨before, after, hentries, rfl⟩
  rw [show slotCount before = slotCount before' + 1 by omega,
    getElem?_flatMap_cells_succ before' after' hwide] at hheld
  simp at hheld

theorem le_of_fillUpTo {count next : Nat} {entries : List Constant}
    (h : FillUpTo count next entries) : count ≤ next + slotCount entries := by
  induction entries generalizing next with
  | nil => exact h
  | cons entry entries ih =>
    have := ih h.2
    simp only [slotCount]
    omega

/-! ## The row of slots -/

namespace PoolLayout

variable (layout : PoolLayout)

theorem size_slots_pool : layout.pool.slots.size = layout.count.toNat := by
  have hle := le_of_fillUpTo layout.fill
  simp only [pool, List.size_toArray, List.length_take, List.length_cons, length_flatMap_cells]
  omega

theorem getElem?_slots_zero (h : 0 < layout.count.toNat) :
    layout.pool.slots[0]? = some none := by
  simp [pool, h]

theorem getElem?_slots_succ {slot : Nat} (h : slot + 1 < layout.count.toNat) :
    layout.pool.slots[slot + 1]? = (layout.constants.flatMap Constant.cells)[slot]? := by
  simp [pool, h]

/-- A slot that no entry lies in is slot zero, the second slot of an entry or past the last one. -/
theorem forall_not_holds_iff (slot : Nat) :
    (∀ entry, ¬Holds layout.constants slot entry) ↔
      slot = 0 ∨ IsSecondSlot layout.constants slot ∨ layout.count.toNat ≤ slot := by
  constructor
  · intro hnone
    by_cases hzero : slot = 0
    · exact .inl hzero
    by_cases hpast : layout.count.toNat ≤ slot
    · exact .inr (.inr hpast)
    have hcounted : slot - 1 < slotCount layout.constants := by
      have := le_of_fillUpTo layout.fill
      omega
    obtain ⟨before, entry, after, i, hentries, hi, hslot⟩ := exists_entry_of_lt_slotCount hcounted
    have htaken := entry.slotsTaken_le_two
    -- the first slot of an entry is where it lies, so this is the second one
    have hsecond : i ≠ 0 := by
      rintro rfl
      exact hnone entry ⟨before, after, hentries, by omega⟩
    have hwide := Constant.slotsTaken_eq_two_iff.mp (show entry.slotsTaken = 2 by omega)
    exact .inr (.inl ⟨before, entry, after, hentries, hwide, by omega⟩)
  · rintro (rfl | hsecond | hpast) entry
    · rintro ⟨before, after, -, hslot⟩
      omega
    · exact hsecond.not_holds entry
    · rintro ⟨before, after, hentries, rfl⟩
      have := lt_count_of_fillUpTo (hentries ▸ layout.fill)
      omega

theorem getElem?_slots_of_forall_not_holds {slot : Nat} (hslot : slot < layout.count.toNat)
    (hnone : ∀ entry, ¬Holds layout.constants slot entry) :
    layout.pool.slots[slot]? = some none := by
  obtain rfl | ⟨before, entry, after, hentries, hwide, rfl⟩ | hpast :=
    (layout.forall_not_holds_iff slot).mp hnone
  · exact layout.getElem?_slots_zero hslot
  · rw [show 2 + slotCount before = slotCount before + 1 + 1 by omega] at hslot ⊢
    rw [layout.getElem?_slots_succ hslot, hentries,
      getElem?_flatMap_cells_succ before after hwide]
  · omega

theorem getElem?_slots_of_constants_eq {before after : List Constant} {entry : Constant}
    (hentries : layout.constants = before ++ entry :: after) :
    1 + slotCount before < layout.count.toNat ∧
      layout.pool.slots[1 + slotCount before]? = some (some entry) := by
  have hlt := lt_count_of_fillUpTo (hentries ▸ layout.fill)
  refine ⟨hlt, ?_⟩
  rw [Nat.add_comm] at hlt ⊢
  rw [layout.getElem?_slots_succ hlt]
  exact getElem?_flatMap_cells.mpr ⟨before, after, hentries, rfl⟩

end PoolLayout

/-! ## Lookups -/

namespace ConstantPool

/-- The only fault of a lookup is that the pool holds something else. -/
theorem kind_of_text_eq_error {pool : ConstantPool} {slot : UInt16} {cause : Cause}
    (h : pool.text slot = .error cause) : cause.kind = .badConstant := by
  unfold text at h
  split at h <;> cases h <;> rfl

theorem kind_of_className_eq_error {pool : ConstantPool} {slot : UInt16} {cause : Cause}
    (h : pool.className slot = .error cause) : cause.kind = .badConstant := by
  unfold className at h
  split at h
  · cases h; rfl
  · exact kind_of_text_eq_error h
  · cases h; rfl

/-- A pool in which the entries of a layout lie in their slots, where lookups find them. -/
structure AlignedWith (pool : ConstantPool) (layout : PoolLayout) : Prop where
  size_slots : pool.slots.size = layout.count.toNat
  /-- An entry lies in the slot after those of the entries before it, which the pool has. -/
  entry_at : ∀ before entry after, layout.constants = before ++ entry :: after →
    1 + slotCount before < layout.count.toNat ∧
      pool.slots[1 + slotCount before]? = some (some entry)
  /-- Every other slot is empty, which gives it tag zero. -/
  tag_of_unused : ∀ slot < layout.count.toNat, (∀ entry, ¬Holds layout.constants slot entry) →
    pool.slots[slot]? = some none ∧ pool.slots[slot]?.map slotTag = some 0
  unused_iff : ∀ slot, (∀ entry, ¬Holds layout.constants slot entry) ↔
    slot = 0 ∨ IsSecondSlot layout.constants slot ∨ layout.count.toNat ≤ slot
  text_eq_ok_iff : ∀ slot bytes,
    pool.text slot = .ok bytes ↔ Holds layout.constants slot.toNat (.text bytes)
  text_fails : ∀ slot, (∀ bytes, ¬Holds layout.constants slot.toNat (.text bytes)) →
    ∃ cause, pool.text slot = .error cause ∧ cause.kind = .badConstant
  className_eq_ok_iff : ∀ slot name,
    pool.className slot = .ok name ↔ HoldsClass layout.constants slot name
  className_fails : ∀ slot, (∀ name, ¬HoldsClass layout.constants slot name) →
    ∃ cause, pool.className slot = .error cause ∧ cause.kind = .badConstant

theorem alignedWith_layout (layout : PoolLayout) : layout.pool.AlignedWith layout where
  size_slots := layout.size_slots_pool
  entry_at _ _ _ hentries := layout.getElem?_slots_of_constants_eq hentries
  tag_of_unused slot hslot hnone := by
    have hempty := layout.getElem?_slots_of_forall_not_holds hslot hnone
    exact ⟨hempty, by rw [hempty]; rfl⟩
  unused_iff := layout.forall_not_holds_iff
  text_eq_ok_iff _ _ := PoolLayout.text_eq_ok_iff
  text_fails slot hnone := by
    cases htext : layout.pool.text slot with
    | ok bytes => exact absurd (PoolLayout.text_eq_ok_iff.mp htext) (hnone bytes)
    | error cause => exact ⟨cause, rfl, kind_of_text_eq_error htext⟩
  className_eq_ok_iff _ _ := PoolLayout.className_eq_ok_iff
  className_fails slot hnone := by
    cases hname : layout.pool.className slot with
    | ok name => exact absurd (PoolLayout.className_eq_ok_iff.mp hname) (hnone name)
    | error cause => exact ⟨cause, rfl, kind_of_className_eq_error hname⟩

/-- Whatever pool is read, its slots are aligned with the entries that stand in the bytes read. -/
theorem alignedWith_of_read {c c' : Cursor} {pool : ConstantPool}
    (h : ConstantPool.read c = .ok pool c') :
    ∃ layout : PoolLayout, c.rest = layout.bytes ++ c'.rest ∧
      c'.offset = c.offset + layout.bytes.length ∧ pool.AlignedWith layout := by
  obtain ⟨_, hrest, hoffset, layout, rfl, rfl⟩ := (PoolLayout.recognizes_read c pool c').mp h
  exact ⟨layout, hrest, hoffset, alignedWith_layout layout⟩

/-- Eight slots: a long, a double, the text `A`, a class of that name, and a double in the last
slot. -/
def crowdedPool : Bytes :=
  [0, 8, 5, 0, 0, 0, 0, 0, 0, 0, 9, 6, 0x40, 8, 0, 0, 0, 0, 0, 0, 1, 0, 1, 65, 7, 0, 5,
    6, 0, 0, 0, 0, 0, 0, 0, 0]

theorem alignedWith_of_read_crowdedPool :
    ∃ pool c', ConstantPool.read (Cursor.start crowdedPool) = .ok pool c' ∧
      (∃ layout : PoolLayout, crowdedPool = layout.bytes ++ c'.rest ∧ pool.AlignedWith layout) ∧
      pool.slots.size = 8 ∧ pool.text 5 = .ok [65] ∧ pool.className 6 = .ok [65] ∧
      pool.text 2 = .error (.unexpectedTag 2 0 1) ∧ pool.text 4 = .error (.unexpectedTag 4 0 1) ∧
      pool.text 8 = .error (.slotOutOfRange 8) := by
  refine ⟨_, _, rfl, ?_, rfl, rfl, rfl, rfl, rfl, rfl⟩
  obtain ⟨layout, hrest, -, haligned⟩ :=
    alignedWith_of_read (c := Cursor.start crowdedPool) rfl
  exact ⟨layout, hrest, haligned⟩

end ConstantPool

end MonitorCoverage.ClassFile
