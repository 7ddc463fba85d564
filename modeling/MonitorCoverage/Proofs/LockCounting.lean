import MonitorCoverage.Lock.Tally

/-!
# Counting under locks

The count of a method in natural numbers: every event has a weight, and it is locked if the method
is synchronized, if the event enters a monitor or if monitors are held before it. An exit without a
monitor is none, so the number of monitors held is never negative. The walk of the analysis, whose
depth and sums are signed words, comes to the same count, and it does not fail, as long as the
events are fewer than a depth can count.
-/

namespace MonitorCoverage.Lock

namespace EventKind

/-- How many instructions an event counts for. -/
def weight (kind : EventKind) : Nat := if kind = compareJump then 2 else 1

/-- The number of monitors held after an event. -/
def depthAfter (kind : EventKind) (depth : Nat) : Nat :=
  if kind = monitorEnter then depth + 1 else if kind = monitorExit then depth - 1 else depth

/-- Whether an event runs under a lock, by the number of monitors held before it. -/
def isLocked (isSynchronized : Bool) (depth : Nat) (kind : EventKind) : Bool :=
  isSynchronized || kind = monitorEnter || 0 < depth

theorem depthAfter_le (kind : EventKind) (depth : Nat) : kind.depthAfter depth ≤ depth + 1 := by
  unfold depthAfter
  split
  · omega
  · split <;> omega

theorem one_le_weight (kind : EventKind) : 1 ≤ kind.weight := by
  unfold weight
  split <;> omega

theorem weight_le_two (kind : EventKind) : kind.weight ≤ 2 := by
  unfold weight
  split <;> omega

end EventKind

/-- The instructions of a method and those that run under a lock. -/
structure Count where
  total : Nat
  locked : Nat
  deriving DecidableEq, Repr

/-- The same count with an instruction of some weight before it. -/
def Count.plus (count : Count) (weight : Nat) (isLocked : Bool) : Count :=
  ⟨weight + count.total, if isLocked then weight + count.locked else count.locked⟩

/-- The count of events of some kinds, from a number of monitors held on. -/
def countFrom (isSynchronized : Bool) : Nat → List EventKind → Count
  | _, [] => ⟨0, 0⟩
  | depth, kind :: kinds =>
    (countFrom isSynchronized (kind.depthAfter depth) kinds).plus kind.weight
      (kind.isLocked isSynchronized depth)

theorem length_le_total_countFrom (isSynchronized : Bool) (depth : Nat) (kinds : List EventKind) :
    kinds.length ≤ (countFrom isSynchronized depth kinds).total := by
  induction kinds generalizing depth with
  | nil => exact Nat.le_refl _
  | cons kind kinds ih =>
    have hrest := ih (kind.depthAfter depth)
    have hweight := kind.one_le_weight
    simp only [countFrom, Count.plus, List.length_cons]
    omega

theorem total_countFrom_le (isSynchronized : Bool) (depth : Nat) (kinds : List EventKind) :
    (countFrom isSynchronized depth kinds).total ≤ 2 * kinds.length := by
  induction kinds generalizing depth with
  | nil => exact Nat.le_refl _
  | cons kind kinds ih =>
    have hrest := ih (kind.depthAfter depth)
    have hweight := kind.weight_le_two
    simp only [countFrom, Count.plus, List.length_cons]
    omega

theorem locked_le_total_countFrom (isSynchronized : Bool) (depth : Nat) (kinds : List EventKind) :
    (countFrom isSynchronized depth kinds).locked ≤
      (countFrom isSynchronized depth kinds).total := by
  induction kinds generalizing depth with
  | nil => exact Nat.le_refl _
  | cons kind kinds ih =>
    have hrest := ih (kind.depthAfter depth)
    simp only [countFrom, Count.plus]
    split <;> omega

/-- The state of the walk stands for a number of monitors held. The depth of a synchronized method
is not looked at. -/
structure LockState.Represents (state : LockState) (isSynchronized : Bool) (depth : Nat) :
    Prop where
  inSynchronized : state.inSynchronized = isSynchronized
  depth_eq : isSynchronized = false → state.depth = Int64.ofNat depth

theorem LockState.represents_start (isSynchronized : Bool) :
    (LockState.start isSynchronized).Represents isSynchronized 0 :=
  ⟨rfl, fun _ => rfl⟩

theorem LockState.Represents.isHeld_eq {state : LockState} {isSynchronized : Bool} {depth : Nat}
    (h : state.Represents isSynchronized depth) (hbound : depth < 9223372036854775808) :
    state.isHeld = (isSynchronized || decide (0 < depth)) := by
  rw [isHeld, h.inSynchronized]
  cases isSynchronized with
  | true => rfl
  | false =>
    have hiff : 0 < Int64.ofNat depth ↔ 0 < depth := Int64.ofNat_lt_iff_lt (by decide) hbound
    rw [h.depth_eq rfl]
    simp only [hiff]

/-- Leaving a monitor that is held takes one off the depth. -/
theorem ofNat_succ_sub_one (depth : Nat) : Int64.ofNat (depth + 1) - 1 = Int64.ofNat depth := by
  have hsub := Int64.ofNat_sub (depth + 1) 1 (Nat.le_add_left 1 depth)
  rw [Nat.add_sub_cancel] at hsub
  exact hsub.symm

theorem neg_one_lt_ofNat {depth : Nat} (hbound : depth < 9223372036854775808) :
    (-1 : Int64) < Int64.ofNat depth := by
  rw [Int64.lt_iff_toInt_lt, Int64.toInt_ofNat_of_lt hbound]
  exact Int.lt_of_lt_of_le (by decide) (Int.natCast_nonneg depth)

/-- The step of a method that is not synchronized. -/
theorem LockState.Represents.step_eq_of_not_synchronized {state : LockState} {depth : Nat}
    (h : state.Represents false depth) (hbound : depth < 9223372036854775808) (event : Event) :
    ∃ state', state.step event = (.ok (event.kind.isLocked false depth), state') ∧
      state'.Represents false (event.kind.depthAfter depth) := by
  have hdepth := h.depth_eq rfl
  simp only [step, h.inSynchronized, Bool.false_eq_true, if_false]
  by_cases henter : event.kind = .monitorEnter
  · refine ⟨⟨false, state.depth + 1⟩, by simp [henter, EventKind.isLocked], rfl, fun _ => ?_⟩
    rw [EventKind.depthAfter, if_pos henter, Int64.ofNat_add, ← hdepth]
    rfl
  · rw [if_neg henter]
    by_cases hexit : event.kind = .monitorExit
    · rw [if_pos hexit, EventKind.depthAfter, if_neg henter, if_pos hexit]
      cases depth with
      | zero =>
        rw [hdepth, if_pos (by decide)]
        exact ⟨⟨false, 0⟩, by simp [EventKind.isLocked, henter], rfl, fun _ => rfl⟩
      | succ depth =>
        have hlt : (-1 : Int64) < Int64.ofNat depth := neg_one_lt_ofNat (by omega)
        rw [hdepth, ofNat_succ_sub_one, if_neg (Int64.ne_of_lt hlt).symm,
          if_neg (Int64.lt_asymm hlt)]
        exact ⟨⟨false, Int64.ofNat depth⟩, by simp [EventKind.isLocked], rfl, fun _ => rfl⟩
    · rw [if_neg hexit, EventKind.depthAfter, if_neg henter, if_neg hexit]
      refine ⟨state, ?_, h⟩
      rw [h.isHeld_eq hbound]
      simp [EventKind.isLocked, henter]

/-- A step tells whether the event is locked, does not fail, and leads to the state that stands for
the number of monitors held after the event. -/
theorem LockState.Represents.step_eq {state : LockState} {isSynchronized : Bool} {depth : Nat}
    (h : state.Represents isSynchronized depth) (hbound : depth < 9223372036854775808)
    (event : Event) :
    ∃ state', state.step event = (.ok (event.kind.isLocked isSynchronized depth), state') ∧
      state'.Represents isSynchronized (event.kind.depthAfter depth) := by
  cases isSynchronized with
  | true =>
    refine ⟨state, ?_, h.inSynchronized, fun hfalse => by cases hfalse⟩
    rw [step, if_pos h.inSynchronized]
    rfl
  | false => exact h.step_eq_of_not_synchronized hbound event

namespace Tally

/-- A tally with a count added to it. -/
def plusCount (tally : Tally) (count : Count) : Tally :=
  ⟨tally.total + Int64.ofNat count.total, tally.locked + Int64.ofNat count.locked⟩

theorem plusCount_countEvent (tally : Tally) (event : Event) (locked : Bool) (count : Count) :
    (tally.countEvent event locked).plusCount count =
      tally.plusCount (count.plus event.kind.weight locked) := by
  have htwo : Int64.ofNat 2 = 1 + 1 := rfl
  have hone : Int64.ofNat 1 = 1 := rfl
  by_cases hkind : event.kind = .compareJump <;> cases locked <;>
    simp [countEvent, Tally.count, plusCount, Count.plus, EventKind.weight, hkind, Int64.ofNat_add,
      htwo, hone, Int64.add_assoc]

theorem plusCount_zero (count : Count) :
    zero.plusCount count = ⟨Int64.ofNat count.total, Int64.ofNat count.locked⟩ := by
  simp [plusCount, zero]

end Tally

/-- The walk over events adds their count to the tally, and it does not fail. -/
theorem tallyFrom_eq {state : LockState} {isSynchronized : Bool} {depth : Nat}
    (h : state.Represents isSynchronized depth) (tally : Tally) (number : Nat) (events : List Event)
    (hbound : depth + events.length ≤ 9223372036854775807) :
    tallyFrom state tally number events =
      .ok (tally.plusCount (countFrom isSynchronized depth (events.map Event.kind))) := by
  induction events generalizing state depth tally number with
  | nil =>
    have hzero : tally.plusCount ⟨0, 0⟩ = tally := by
      show Tally.mk (tally.total + 0) (tally.locked + 0) = tally
      rw [Int64.add_zero, Int64.add_zero]
    exact congrArg Except.ok hzero.symm
  | cons event events ih =>
    rw [List.length_cons] at hbound
    obtain ⟨state', hstep, hstate'⟩ := h.step_eq (by omega) event
    have hafter := event.kind.depthAfter_le depth
    rw [tallyFrom, hstep]
    simp only [ih hstate' _ _ (by omega), Tally.plusCount_countEvent, List.map_cons, countFrom]

/-- A method of fewer events than a depth can count is tallied without failure. -/
theorem MethodUnit.tally_eq_ok (unit : MethodUnit)
    (h : unit.events.length < 9223372036854775808) :
    unit.tally = .ok (Tally.zero.plusCount
      (countFrom unit.isSynchronized 0 (unit.events.map Event.kind))) := by
  have hwalk := tallyFrom_eq (LockState.represents_start unit.isSynchronized) .zero 0 unit.events
    (by omega)
  rw [tally, hwalk]

/-- The tally of a method is the count of its events, where a signed word can hold it. -/
theorem MethodUnit.exists_tally (unit : MethodUnit)
    (h : (countFrom unit.isSynchronized 0 (unit.events.map Event.kind)).total <
      9223372036854775808) :
    ∃ tally, unit.tally = .ok tally ∧
      tally.total.toInt = (countFrom unit.isSynchronized 0 (unit.events.map Event.kind)).total ∧
      tally.locked.toInt =
        (countFrom unit.isSynchronized 0 (unit.events.map Event.kind)).locked := by
  have hlength := length_le_total_countFrom unit.isSynchronized 0 (unit.events.map Event.kind)
  have hlocked := locked_le_total_countFrom unit.isSynchronized 0 (unit.events.map Event.kind)
  rw [List.length_map] at hlength
  have htally := unit.tally_eq_ok (by omega)
  rw [Tally.plusCount_zero] at htally
  refine ⟨_, htally, ?_, ?_⟩
  · exact Int64.toInt_ofNat_of_lt h
  · exact Int64.toInt_ofNat_of_lt (Nat.lt_of_le_of_lt hlocked h)

end MonitorCoverage.Lock
