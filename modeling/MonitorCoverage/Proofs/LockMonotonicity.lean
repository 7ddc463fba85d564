import MonitorCoverage.Proofs.MonitorNesting

/-!
# More locking, more locked

What one more event on a monitor does to a method. An event that enters a monitor makes the walk one
deeper from there on, and an event that leaves one makes it one shallower, unless none is held. With
the same events ahead, the two walks stay at most one apart. An exit that only the deeper one has a
monitor for brings them together, and then they are the same for good. So the deeper walk holds a
lock wherever the other one does.
-/

namespace MonitorCoverage.Lock

namespace EventKind

theorem depthAfter_mono {low high : Nat} (h : low ≤ high) (kind : EventKind) :
    kind.depthAfter low ≤ kind.depthAfter high := by
  unfold depthAfter
  split_ifs <;> omega

theorem depthAfter_le_succ {low high : Nat} (h : high ≤ low + 1) (kind : EventKind) :
    kind.depthAfter high ≤ kind.depthAfter low + 1 := by
  unfold depthAfter
  split_ifs <;> omega

theorem isLocked_mono {low high : Nat} (h : low ≤ high) {isSynchronized : Bool} {kind : EventKind}
    (hlow : kind.isLocked isSynchronized low = true) :
    kind.isLocked isSynchronized high = true := by
  simp only [isLocked, Bool.or_eq_true, decide_eq_true_eq] at hlow ⊢
  exact hlow.imp_right fun hpos => Nat.lt_of_lt_of_le hpos h

end EventKind

/-! ## Two walks over the same events -/

theorem heldAfter_append (depth : Nat) (first second : List EventKind) :
    heldAfter depth (first ++ second) = heldAfter (heldAfter depth first) second :=
  List.foldl_append

theorem heldAfter_mono {low high : Nat} (h : low ≤ high) (kinds : List EventKind) :
    heldAfter low kinds ≤ heldAfter high kinds := by
  induction kinds generalizing low high with
  | nil => exact h
  | cons kind kinds ih => exact ih (kind.depthAfter_mono h)

theorem heldAfter_le_succ {low high : Nat} (h : high ≤ low + 1) (kinds : List EventKind) :
    heldAfter high kinds ≤ heldAfter low kinds + 1 := by
  induction kinds generalizing low high with
  | nil => exact h
  | cons kind kinds ih => exact ih (kind.depthAfter_le_succ h)

/-- Depths on the way through the same events: one is never below the other, never more than one
above it, and no longer above it once the two are equal. -/
structure OneApart (shallow deep : Nat → Int) : Prop where
  le : ∀ j, shallow j ≤ deep j
  le_succ : ∀ j, deep j ≤ shallow j + 1
  eq_of_eq : ∀ i j, i ≤ j → shallow i = deep i → shallow j = deep j

theorem oneApart_heldAfter {low high : Nat} (hle : low ≤ high) (hclose : high ≤ low + 1)
    (kinds : List EventKind) :
    OneApart (fun j => heldAfter low (kinds.take j)) (fun j => heldAfter high (kinds.take j)) where
  le j := Int.ofNat_le.mpr (heldAfter_mono hle _)
  le_succ j := Int.ofNat_le.mpr (heldAfter_le_succ hclose _)
  eq_of_eq i j hij heq := by
    -- from where they meet on, both go through the same events from the same depth
    obtain ⟨m, rfl⟩ := Nat.exists_eq_add_of_le hij
    simp only [Int.ofNat_inj] at heq ⊢
    rw [List.take_add, heldAfter_append, heldAfter_append, heq]

/-! ## Counts -/

theorem locked_countFrom_append (isSynchronized : Bool) (depth : Nat)
    (first second : List EventKind) :
    (countFrom isSynchronized depth (first ++ second)).locked =
      (countFrom isSynchronized depth first).locked +
        (countFrom isSynchronized (heldAfter depth first) second).locked := by
  induction first generalizing depth with
  | nil => simp [countFrom, heldAfter]
  | cons kind first ih =>
    have hrest := ih (kind.depthAfter depth)
    simp only [List.cons_append, countFrom, Count.plus, heldAfter, List.foldl_cons] at hrest ⊢
    split <;> omega

theorem locked_countFrom_mono {low high : Nat} (h : low ≤ high) (isSynchronized : Bool)
    (kinds : List EventKind) :
    (countFrom isSynchronized low kinds).locked ≤ (countFrom isSynchronized high kinds).locked := by
  induction kinds generalizing low high with
  | nil => exact Nat.le_refl _
  | cons kind kinds ih =>
    have hrest := ih (kind.depthAfter_mono h)
    simp only [countFrom, Count.plus]
    by_cases hlow : kind.isLocked isSynchronized low = true
    · simp only [hlow, EventKind.isLocked_mono h hlow, if_true]
      omega
    · -- the deeper walk may count it, the other one does not
      rw [if_neg hlow]
      split <;> omega

/-- One more monitor adds itself to the locked count, and takes nothing from it. -/
theorem locked_countFrom_insert_enter (depth : Nat) (before after : List EventKind) :
    (countFrom false depth (before ++ after)).locked + 1 ≤
      (countFrom false depth (before ++ .monitorEnter :: after)).locked := by
  have hafter := locked_countFrom_mono (Nat.le_add_right (heldAfter depth before) 1) false after
  have henter : (countFrom false (heldAfter depth before) (.monitorEnter :: after)).locked =
      1 + (countFrom false (heldAfter depth before + 1) after).locked := rfl
  rw [locked_countFrom_append, locked_countFrom_append, henter]
  omega

theorem total_countFrom_insert_enter (isSynchronized : Bool) (depth : Nat)
    (before after : List EventKind) :
    (countFrom isSynchronized depth (before ++ .monitorEnter :: after)).total =
      (countFrom isSynchronized depth (before ++ after)).total + 1 := by
  have hother : (EventKind.monitorEnter :: after).count .compareJump = after.count .compareJump :=
    List.count_cons_of_ne (by decide)
  simp only [total_countFrom, List.length_append, List.length_cons, List.count_append, hother]
  omega

namespace MethodUnit

/-- The same method with other events. -/
def withEvents (unit : MethodUnit) (events : List Event) : MethodUnit := { unit with events }

/-- The walk over a method counts the event with a number as locked. -/
def LocksAt (unit : MethodUnit) (k : Nat) : Prop :=
  ∃ event, unit.events[k]? = some event ∧ ((unit.stateAfter k).step event).1 = .ok true

/-- The depth of the walk before the event with a number. -/
def depthAt (unit : MethodUnit) (k : Nat) : Int := (unit.stateAfter k).depth.toInt

theorem depthAt_eq (unit : MethodUnit) (hplain : unit.isSynchronized = false)
    (hbound : unit.events.length < 9223372036854775808) (k : Nat) :
    unit.depthAt k = heldAfter 0 (unit.kinds.take k) := by
  have hle := unit.heldAfter_take_le k
  rw [depthAt, (represents_stateAfter hbound k).depth_eq hplain]
  exact Int64.toInt_ofNat_of_lt (by omega)

theorem locksAt_iff {unit : MethodUnit} (hbound : unit.events.length < 9223372036854775808)
    (k : Nat) : unit.LocksAt k ↔ ∃ event, unit.events[k]? = some event ∧
      event.kind.isLocked unit.isSynchronized (heldAfter 0 (unit.kinds.take k)) = true := by
  have hle := unit.heldAfter_take_le k
  refine exists_congr fun event => and_congr_right fun _ => ?_
  obtain ⟨state, hstep, -⟩ := (represents_stateAfter hbound k).step_eq (by omega) event
  simp [hstep]

/-- A locked event is locked wherever at least as many monitors are held before it. -/
theorem LocksAt.of_heldAfter_le {unit other : MethodUnit} {k k' : Nat} (h : unit.LocksAt k)
    (hunit : unit.events.length < 9223372036854775808)
    (hother : other.events.length < 9223372036854775808)
    (hsynchronized : other.isSynchronized = unit.isSynchronized)
    (hevent : other.events[k']? = unit.events[k]?)
    (hle : heldAfter 0 (unit.kinds.take k) ≤ heldAfter 0 (other.kinds.take k')) :
    other.LocksAt k' := by
  obtain ⟨event, hk, hlocked⟩ := (locksAt_iff hunit k).mp h
  refine (locksAt_iff hother k').mpr ⟨event, hevent.trans hk, ?_⟩
  rw [hsynchronized]
  exact EventKind.isLocked_mono hle hlocked

/-! ## One more event -/

/-- Where the event with a number stands once another one is put in behind the first `n`. -/
def past (n k : Nat) : Nat := if k < n then k else k + 1

variable (unit : MethodUnit) (before after : List Event) (extra : Event)

theorem kinds_withEvents_append :
    (unit.withEvents (before ++ after)).kinds = before.map Event.kind ++ after.map Event.kind :=
  List.map_append

theorem getElem?_insert_past (k : Nat) :
    (before ++ extra :: after)[past before.length k]? = (before ++ after)[k]? := by
  unfold past
  split
  · rw [List.getElem?_append_left ‹_›, List.getElem?_append_left ‹_›]
  · rw [List.getElem?_append_right (by omega), List.getElem?_append_right (by omega),
      Nat.sub_add_comm (by omega), List.getElem?_cons_succ]

/-- The monitors held before the event with a number, by how many are held where the front ends. -/
theorem heldAfter_take_append (j : Nat) :
    heldAfter 0 ((unit.withEvents (before ++ after)).kinds.take (before.length + j)) =
      heldAfter (heldAfter 0 (before.map Event.kind)) ((after.map Event.kind).take j) := by
  rw [kinds_withEvents_append, ← List.length_map Event.kind, List.take_length_add_append,
    heldAfter_append]

theorem heldAfter_take_insert (j : Nat) :
    heldAfter 0
        ((unit.withEvents (before ++ extra :: after)).kinds.take (before.length + (j + 1))) =
      heldAfter (extra.kind.depthAfter (heldAfter 0 (before.map Event.kind)))
        ((after.map Event.kind).take j) := by
  rw [heldAfter_take_append]
  rfl

/-- Up to where the event is put in, the walks do not differ. -/
theorem take_kinds_insert {k : Nat} (hk : k ≤ before.length) :
    (unit.withEvents (before ++ extra :: after)).kinds.take k =
      (unit.withEvents (before ++ after)).kinds.take k := by
  rw [← List.length_map Event.kind] at hk
  rw [kinds_withEvents_append, kinds_withEvents_append, List.take_append_of_le_length hk,
    List.take_append_of_le_length hk]

/-- What holds of the monitors of two walks over the same events, from where the one more event
leaves them, holds before each event that they share. -/
theorem heldAfter_take_past (rel : Nat → Nat → Prop) (hrefl : ∀ held, rel held held)
    (hrel : ∀ kinds, rel (heldAfter (heldAfter 0 (before.map Event.kind)) kinds)
      (heldAfter (extra.kind.depthAfter (heldAfter 0 (before.map Event.kind))) kinds)) (k : Nat) :
    rel (heldAfter 0 ((unit.withEvents (before ++ after)).kinds.take k))
      (heldAfter 0
        ((unit.withEvents (before ++ extra :: after)).kinds.take (past before.length k))) := by
  unfold past
  split
  · rw [take_kinds_insert unit before after extra (Nat.le_of_lt ‹_›)]
    exact hrefl _
  · obtain ⟨j, rfl⟩ := Nat.exists_eq_add_of_le (Nat.le_of_not_lt ‹_›)
    rw [Nat.add_assoc, heldAfter_take_insert, heldAfter_take_append]
    exact hrel _

variable {unit before after extra}

theorem depthAt_append (hplain : unit.isSynchronized = false)
    (hbound : (before ++ after).length < 9223372036854775808) (j : Nat) :
    (unit.withEvents (before ++ after)).depthAt (before.length + j) =
      heldAfter (heldAfter 0 (before.map Event.kind)) ((after.map Event.kind).take j) := by
  rw [depthAt_eq (unit.withEvents (before ++ after)) hplain hbound, heldAfter_take_append]

theorem depthAt_insert (hplain : unit.isSynchronized = false)
    (hbound : (before ++ extra :: after).length < 9223372036854775808) (j : Nat) :
    (unit.withEvents (before ++ extra :: after)).depthAt (before.length + (j + 1)) =
      heldAfter (extra.kind.depthAfter (heldAfter 0 (before.map Event.kind)))
        ((after.map Event.kind).take j) :=
  depthAt_append hplain hbound (j + 1)

section Insert

variable (hshort : (before ++ after).length < 9223372036854775808)
  (hlong : (before ++ extra :: after).length < 9223372036854775808)

include hshort hlong

theorem LocksAt.insert_enter (henter : extra.kind = .monitorEnter) {k : Nat}
    (h : (unit.withEvents (before ++ after)).LocksAt k) :
    (unit.withEvents (before ++ extra :: after)).LocksAt (past before.length k) := by
  refine h.of_heldAfter_le hshort hlong rfl (getElem?_insert_past before after extra k) ?_
  refine heldAfter_take_past unit before after extra (· ≤ ·) Nat.le_refl (fun kinds => ?_) k
  rw [henter]
  exact heldAfter_mono (Nat.le_add_right _ 1) kinds

theorem LocksAt.of_insert_exit (hexit : extra.kind = .monitorExit) {k : Nat}
    (h : (unit.withEvents (before ++ extra :: after)).LocksAt (past before.length k)) :
    (unit.withEvents (before ++ after)).LocksAt k := by
  refine h.of_heldAfter_le hlong hshort rfl (getElem?_insert_past before after extra k).symm ?_
  refine heldAfter_take_past unit before after extra (· ≥ ·) Nat.le_refl (fun kinds => ?_) k
  rw [hexit]
  exact heldAfter_mono (Nat.sub_le _ 1) kinds

theorem oneApart_insert_enter (hplain : unit.isSynchronized = false)
    (henter : extra.kind = .monitorEnter) :
    OneApart (fun j => (unit.withEvents (before ++ after)).depthAt (before.length + j))
      fun j => (unit.withEvents (before ++ extra :: after)).depthAt (before.length + (j + 1)) := by
  simp only [depthAt_append hplain hshort, depthAt_insert hplain hlong, henter]
  exact oneApart_heldAfter (Nat.le_add_right _ 1) (Nat.le_refl _) _

theorem oneApart_insert_exit (hplain : unit.isSynchronized = false)
    (hexit : extra.kind = .monitorExit) :
    OneApart
      (fun j => (unit.withEvents (before ++ extra :: after)).depthAt (before.length + (j + 1)))
      (fun j => (unit.withEvents (before ++ after)).depthAt (before.length + j)) := by
  simp only [depthAt_append hplain hshort, depthAt_insert hplain hlong, hexit]
  exact oneApart_heldAfter (Nat.sub_le _ 1) (Nat.le_add_of_sub_le (Nat.le_refl _)) _

end Insert

/-! ## Tallies -/

theorem exists_tally_withEvents (hplain : unit.isSynchronized = false) (events : List Event)
    (hbound : (countFrom false 0 (events.map Event.kind)).total < 9223372036854775808) :
    ∃ tally, (unit.withEvents events).tally = .ok tally ∧
      tally.total.toInt = (countFrom false 0 (events.map Event.kind)).total ∧
      tally.locked.toInt = (countFrom false 0 (events.map Event.kind)).locked := by
  have htally := (unit.withEvents events).exists_tally
  rw [show (unit.withEvents events).isSynchronized = false from hplain] at htally
  exact htally hbound

theorem exists_tally_insert_enter (hplain : unit.isSynchronized = false)
    (henter : extra.kind = .monitorEnter)
    (hbound : before.length + after.length < 4611686018427387904) :
    ∃ tally more, (unit.withEvents (before ++ after)).tally = .ok tally ∧
      (unit.withEvents (before ++ extra :: after)).tally = .ok more ∧
      more.total.toInt = tally.total.toInt + 1 ∧
      tally.locked.toInt + 1 ≤ more.locked.toInt := by
  have htotal := total_countFrom_insert_enter false 0 (before.map Event.kind)
    (after.map Event.kind)
  have hlocked := locked_countFrom_insert_enter 0 (before.map Event.kind) (after.map Event.kind)
  have hle := total_countFrom_le false 0 (before.map Event.kind ++ after.map Event.kind)
  rw [List.length_append, List.length_map, List.length_map] at hle
  have hshort := exists_tally_withEvents hplain (before ++ after)
  have hlong := exists_tally_withEvents hplain (before ++ extra :: after)
  simp only [List.map_append, List.map_cons, henter] at hshort hlong
  obtain ⟨tally, htally, htallyTotal, htallyLocked⟩ := hshort (by omega)
  obtain ⟨more, hmore, hmoreTotal, hmoreLocked⟩ := hlong (by omega)
  exact ⟨tally, more, htally, hmore, by omega, by omega⟩

/-- A synchronized method has everything locked that another one counts. -/
theorem exists_tally_synchronized (hbound : unit.events.length < 4611686018427387904) :
    ∃ tally marked, unit.tally = .ok tally ∧
      { unit with isSynchronized := true }.tally = .ok marked ∧
      marked.total = tally.total ∧ tally.locked.toInt ≤ marked.locked.toInt := by
  have htotal : (countFrom true 0 unit.kinds).total =
      (countFrom unit.isSynchronized 0 unit.kinds).total := by
    rw [total_countFrom, total_countFrom]
  have hall := locked_countFrom_synchronized 0 unit.kinds
  have hpart := locked_le_total_countFrom unit.isSynchronized 0 unit.kinds
  have hle := total_countFrom_le unit.isSynchronized 0 unit.kinds
  rw [length_kinds] at hle
  simp only [kinds] at htotal hall hpart hle
  obtain ⟨tally, htally, htallyTotal, htallyLocked⟩ := unit.exists_tally (by omega)
  obtain ⟨marked, hmarked, hmarkedTotal, hmarkedLocked⟩ :=
    { unit with isSynchronized := true }.exists_tally (by simp only; omega)
  simp only at hmarkedTotal hmarkedLocked
  refine ⟨tally, marked, htally, hmarked, ?_, by omega⟩
  rw [← Int64.toInt_inj]
  omega

/-- One more monitor entered leaves every locked event of a method locked, adds one to its total
and at least one to its locked part. One more monitor left locks no event that was not locked. From
there on the depths are at most one apart, and equal once they meet. A synchronized method has the
same total and no smaller locked part. -/
theorem locksAt_monotone (unit : MethodUnit) (before after : List Event) (enter exit : Event)
    (hplain : unit.isSynchronized = false) (henter : enter.kind = .monitorEnter)
    (hexit : exit.kind = .monitorExit) (hbound : before.length + after.length < 2 ^ 62) :
    (∀ k, (unit.withEvents (before ++ after)).LocksAt k →
      (unit.withEvents (before ++ enter :: after)).LocksAt (past before.length k)) ∧
    (∃ tally more, (unit.withEvents (before ++ after)).tally = .ok tally ∧
      (unit.withEvents (before ++ enter :: after)).tally = .ok more ∧
      more.total.toInt = tally.total.toInt + 1 ∧
      tally.locked.toInt + 1 ≤ more.locked.toInt) ∧
    OneApart (fun j => (unit.withEvents (before ++ after)).depthAt (before.length + j))
      (fun j => (unit.withEvents (before ++ enter :: after)).depthAt (before.length + (j + 1))) ∧
    (∀ k, (unit.withEvents (before ++ exit :: after)).LocksAt (past before.length k) →
      (unit.withEvents (before ++ after)).LocksAt k) ∧
    OneApart
      (fun j => (unit.withEvents (before ++ exit :: after)).depthAt (before.length + (j + 1)))
      (fun j => (unit.withEvents (before ++ after)).depthAt (before.length + j)) ∧
    ∃ tally marked, (unit.withEvents (before ++ after)).tally = .ok tally ∧
      { unit.withEvents (before ++ after) with isSynchronized := true }.tally = .ok marked ∧
      marked.total = tally.total ∧ tally.locked.toInt ≤ marked.locked.toInt := by
  have hshort : (before ++ after).length < 4611686018427387904 := by
    rw [List.length_append]
    omega
  have hlong (extra : Event) : (before ++ extra :: after).length < 9223372036854775808 := by
    rw [List.length_append, List.length_cons]
    omega
  have hword : (before ++ after).length < 9223372036854775808 := by omega
  exact ⟨fun k => LocksAt.insert_enter hword (hlong enter) henter,
    exists_tally_insert_enter hplain henter (by omega),
    oneApart_insert_enter hword (hlong enter) hplain henter,
    fun k => LocksAt.of_insert_exit hword (hlong exit) hexit,
    oneApart_insert_exit hword (hlong exit) hplain hexit,
    exists_tally_synchronized hshort⟩

/-- A method that leaves a monitor it has not entered, between two jumps that compare. -/
def exitBetweenJumps : MethodUnit where
  name := utf8 "run"
  descriptor := utf8 "()V"
  isSynchronized := false
  events := [⟨.jump, 160, .compareJump⟩, ⟨.plain, 195, .monitorExit⟩, ⟨.jump, 165, .compareJump⟩]

/-- Entered before it, the monitor is held for the first jump and for its exit, and the depths meet
behind the exit. -/
theorem locksAt_monotone_exitBetweenJumps :
    let entering := exitBetweenJumps.withEvents
      (⟨.plain, 194, .monitorEnter⟩ :: exitBetweenJumps.events)
    (∃ tally more, exitBetweenJumps.tally = .ok tally ∧ entering.tally = .ok more ∧
      tally.locked.toInt = 0 ∧ more.locked.toInt = 4 ∧
      more.total.toInt = tally.total.toInt + 1) ∧
    exitBetweenJumps.depthAt 1 + 1 = entering.depthAt 2 ∧
    ∀ j, 2 ≤ j → exitBetweenJumps.depthAt j = entering.depthAt (j + 1) := by
  intro entering
  obtain ⟨-, ⟨tally, more, htally, hmore, htotal, -⟩, hdepths, -⟩ :=
    exitBetweenJumps.locksAt_monotone [] exitBetweenJumps.events ⟨.plain, 194, .monitorEnter⟩
      ⟨.plain, 195, .monitorExit⟩ rfl rfl rfl (by decide)
  have hfew : exitBetweenJumps.tally = .ok ⟨5, 0⟩ := by decide +kernel
  have hmany : entering.tally = .ok ⟨6, 4⟩ := by decide +kernel
  refine ⟨⟨tally, more, htally, hmore, ?_, ?_, htotal⟩, by decide +kernel, fun j hj => ?_⟩
  · cases hfew.symm.trans htally
    rfl
  · cases hmany.symm.trans hmore
    rfl
  · have hmeet := hdepths.eq_of_eq 2 j hj (by decide +kernel)
    simp only [List.length_nil, Nat.zero_add] at hmeet
    exact hmeet

end MethodUnit

end MonitorCoverage.Lock
