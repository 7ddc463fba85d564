import Mathlib.Algebra.BigOperators.Fin
import Mathlib.Algebra.Order.Group.Int
import Mathlib.Data.Finset.Lattice.Fold
import MonitorCoverage.Proofs.LockCounting

/-!
# Nesting of monitors

How deep a method is inside its monitors, told from the events alone. The balance of some events is
the number of monitors entered in them less the number left. An exit that no monitor is open for
brings the balance to a new low and opens or closes nothing, so the depth after some events is the
height of their balance above the lowest balance on the way there. The walk of the analysis keeps
this depth without remembering the lowest balance, and never underflows.
-/

namespace MonitorCoverage.Lock

/-- The monitors entered by events of some kinds, less those left. -/
def balance (kinds : List EventKind) : Int :=
  kinds.count .monitorEnter - kinds.count .monitorExit

/-- The lowest balance on the way through the first `k` events, none and all of them included. -/
def lowestBalance (kinds : List EventKind) (k : Nat) : Int :=
  (Finset.range (k + 1)).inf' Finset.nonempty_range_add_one fun j => balance (kinds.take j)

/-- How far the balance of the first `k` events stands above the lowest balance on the way. -/
def nesting (kinds : List EventKind) (k : Nat) : Int :=
  balance (kinds.take k) - lowestBalance kinds k

theorem balance_concat (kinds : List EventKind) (kind : EventKind) :
    balance (kinds ++ [kind]) = balance kinds +
      if kind = .monitorEnter then 1 else if kind = .monitorExit then -1 else 0 := by
  simp only [balance, List.count_append, List.count_singleton, beq_iff_eq]
  split_ifs with henter hexit
  · exact absurd (henter.symm.trans hexit) (by decide)
  all_goals omega

theorem lowestBalance_succ (kinds : List EventKind) (k : Nat) :
    lowestBalance kinds (k + 1) = min (balance (kinds.take (k + 1))) (lowestBalance kinds k) := by
  simp only [lowestBalance, Finset.range_add_one (n := k + 1)]
  exact Finset.inf'_insert _ _

theorem nesting_zero (kinds : List EventKind) : nesting kinds 0 = 0 := by
  simp [nesting, lowestBalance]

/-- The nesting is counted up by an enter and down by an exit, but not below zero. -/
theorem nesting_succ {kinds : List EventKind} {k depth : Nat} (hk : k < kinds.length)
    (h : nesting kinds k = depth) : nesting kinds (k + 1) = kinds[k].depthAfter depth := by
  have hbalance := balance_concat (kinds.take k) kinds[k]
  rw [List.take_append_getElem hk] at hbalance
  have hlowest := lowestBalance_succ kinds k
  simp only [nesting, EventKind.depthAfter] at h ⊢
  split_ifs at hbalance ⊢ <;> omega

/-- The number of monitors held after events of some kinds. -/
def heldAfter (depth : Nat) (kinds : List EventKind) : Nat :=
  kinds.foldl (fun depth kind => kind.depthAfter depth) depth

theorem nesting_eq_heldAfter {kinds : List EventKind} {k : Nat} (hk : k ≤ kinds.length) :
    nesting kinds k = heldAfter 0 (kinds.take k) := by
  induction k with
  | zero => simp [nesting_zero, heldAfter]
  | succ k ih =>
    rw [nesting_succ hk (ih (Nat.le_of_lt hk)), ← List.take_append_getElem hk, heldAfter, heldAfter,
      List.foldl_append]
    rfl

/-! ## The walk over the events -/

/-- The state after some events. -/
def LockState.after (state : LockState) (events : List Event) : LockState :=
  events.foldl (fun state event => (state.step event).2) state

/-- A run keeps the number of monitors held. -/
theorem LockState.Represents.after {state : LockState} {isSynchronized : Bool} {depth : Nat}
    (h : state.Represents isSynchronized depth) (events : List Event)
    (hbound : depth + events.length ≤ 9223372036854775807) :
    (state.after events).Represents isSynchronized
      (heldAfter depth (events.map Event.kind)) := by
  induction events generalizing state depth with
  | nil => exact h
  | cons event events ih =>
    rw [List.length_cons] at hbound
    obtain ⟨state', hstep, hstate'⟩ := h.step_eq (by omega) event
    have hafter := event.kind.depthAfter_le depth
    simpa [LockState.after, hstep, heldAfter] using ih hstate' (by omega)

theorem heldAfter_le (depth : Nat) (kinds : List EventKind) :
    heldAfter depth kinds ≤ depth + kinds.length := by
  induction kinds generalizing depth with
  | nil => simp [heldAfter]
  | cons kind kinds ih =>
    have hrest := ih (kind.depthAfter depth)
    have hafter := kind.depthAfter_le depth
    simp only [heldAfter, List.foldl_cons, List.length_cons] at hrest ⊢
    omega

/-! ## Counts -/

theorem total_countFrom (isSynchronized : Bool) (depth : Nat) (kinds : List EventKind) :
    (countFrom isSynchronized depth kinds).total = kinds.length + kinds.count .compareJump := by
  induction kinds generalizing depth with
  | nil => rfl
  | cons kind kinds ih =>
    simp only [countFrom, Count.plus, ih, EventKind.weight, List.length_cons, List.count_cons,
      beq_iff_eq]
    split <;> omega

theorem locked_countFrom_synchronized (depth : Nat) (kinds : List EventKind) :
    (countFrom true depth kinds).locked = (countFrom true depth kinds).total := by
  induction kinds generalizing depth with
  | nil => rfl
  | cons kind kinds ih => simp [countFrom, Count.plus, ih, EventKind.isLocked]

/-- The locked count as a sum over the positions of the events. -/
theorem locked_countFrom (isSynchronized : Bool) (depth : Nat) (events : List Event) :
    (countFrom isSynchronized depth (events.map Event.kind)).locked =
      ∑ k : Fin events.length, if events[k].kind.isLocked isSynchronized
        (heldAfter depth ((events.map Event.kind).take k)) then events[k].kind.weight else 0 := by
  induction events generalizing depth with
  | nil => rfl
  | cons event events ih =>
    rw [List.map_cons, countFrom, Count.plus, ih]
    have hhead : heldAfter depth [] = depth := rfl
    have htail : ∀ kinds, heldAfter depth (event.kind :: kinds) =
        heldAfter (event.kind.depthAfter depth) kinds := fun _ => rfl
    simp only [List.length_cons, Fin.sum_univ_succ, Fin.getElem_fin, Fin.val_zero, Fin.val_succ,
      List.getElem_cons_zero, List.getElem_cons_succ, List.take_zero, List.take_succ_cons, hhead,
      htail]
    split <;> simp

namespace MethodUnit

def kinds (unit : MethodUnit) : List EventKind := unit.events.map Event.kind

/-- By the nesting of monitors, an event is locked if it enters one or stands inside of one. -/
def IsLockedAt (unit : MethodUnit) (k : Fin unit.events.length) : Prop :=
  unit.events[k].kind = .monitorEnter ∨ 0 < nesting unit.kinds k

instance (unit : MethodUnit) : DecidablePred unit.IsLockedAt :=
  fun _ => inferInstanceAs (Decidable (_ ∨ _))

/-- The state of the walk after the first `k` events of a method. -/
def stateAfter (unit : MethodUnit) (k : Nat) : LockState :=
  (LockState.start unit.isSynchronized).after (unit.events.take k)

variable {unit : MethodUnit}

@[simp] theorem length_kinds : unit.kinds.length = unit.events.length := List.length_map _

theorem nesting_kinds_eq {k : Nat} (hk : k ≤ unit.events.length) :
    nesting unit.kinds k = heldAfter 0 (unit.kinds.take k) :=
  nesting_eq_heldAfter (by rwa [length_kinds])

theorem isLockedAt_iff (k : Fin unit.events.length) :
    unit.IsLockedAt k ↔
      unit.events[k].kind.isLocked false (heldAfter 0 (unit.kinds.take k)) = true := by
  rw [IsLockedAt, nesting_kinds_eq k.isLt.le]
  simp [EventKind.isLocked]

/-- While a signed word can count the events, the walk holds as many monitors as they leave open. -/
theorem represents_stateAfter (hbound : unit.events.length < 9223372036854775808) (k : Nat) :
    (unit.stateAfter k).Represents unit.isSynchronized (heldAfter 0 (unit.kinds.take k)) := by
  have hrun := (LockState.represents_start unit.isSynchronized).after (unit.events.take k)
    (by rw [List.length_take]; omega)
  rwa [List.map_take] at hrun

theorem heldAfter_take_le (k : Nat) : heldAfter 0 (unit.kinds.take k) ≤ unit.events.length := by
  have hle := heldAfter_le 0 (unit.kinds.take k)
  rw [List.length_take, length_kinds] at hle
  omega

theorem toInt_depth_stateAfter (hplain : unit.isSynchronized = false)
    (hbound : unit.events.length < 9223372036854775808) {k : Nat} (hk : k ≤ unit.events.length) :
    (unit.stateAfter k).depth.toInt = nesting unit.kinds k := by
  have hle := unit.heldAfter_take_le k
  rw [(represents_stateAfter hbound k).depth_eq hplain, nesting_kinds_eq hk]
  exact Int64.toInt_ofNat_of_lt (by omega)

/-- The walk does not underflow at any event, and tells whether it is locked. -/
theorem step_stateAfter (hplain : unit.isSynchronized = false)
    (hbound : unit.events.length < 9223372036854775808) (k : Fin unit.events.length) :
    ((unit.stateAfter k).step unit.events[k]).1 = .ok (decide (unit.IsLockedAt k)) := by
  have hle := unit.heldAfter_take_le k
  obtain ⟨state, hstep, -⟩ :=
    (represents_stateAfter hbound k).step_eq (by omega) unit.events[k]
  simp only [hstep, hplain, isLockedAt_iff, Bool.decide_eq_true]

theorem locked_countFrom_eq_sum :
    (countFrom false 0 unit.kinds).locked =
      ∑ k with unit.IsLockedAt k, unit.events[k].kind.weight := by
  rw [kinds, locked_countFrom, Finset.sum_filter]
  refine Finset.sum_congr rfl fun k _ => ?_
  simp only [isLockedAt_iff, kinds]

/-- A method is tallied without underflow. Its total counts every event once and every jump that
compares once more. In a synchronized method all of it is locked. In any other method the depth is
the nesting all along, and the locked part counts the events that enter a monitor or have a positive
nesting before them. -/
theorem tally_eq_nesting (unit : MethodUnit) (h : unit.events.length < 2 ^ 62) :
    ∃ tally, unit.tally = .ok tally ∧
      tally.total.toInt = unit.events.length + unit.kinds.count .compareJump ∧
      (unit.isSynchronized = true → tally.locked = tally.total) ∧
      (unit.isSynchronized = false →
        (∀ k ≤ unit.events.length, 0 ≤ nesting unit.kinds k ∧
          (unit.stateAfter k).depth.toInt = nesting unit.kinds k) ∧
        (∀ k : Fin unit.events.length,
          ((unit.stateAfter k).step unit.events[k]).1 = .ok (decide (unit.IsLockedAt k))) ∧
        tally.locked.toInt =
          ∑ k with unit.IsLockedAt k, if unit.events[k].kind = .compareJump then 2 else 1) := by
  have hcount := total_countFrom unit.isSynchronized 0 unit.kinds
  rw [length_kinds] at hcount
  have hjumps : unit.kinds.count .compareJump ≤ unit.kinds.length := List.count_le_length
  rw [length_kinds] at hjumps
  have hbound : unit.events.length < 9223372036854775808 := by omega
  obtain ⟨tally, htally, htotal, hlocked⟩ :=
    unit.exists_tally (by change (countFrom _ 0 unit.kinds).total < _; omega)
  refine ⟨tally, htally, ?_, ?_, ?_⟩
  · rw [htotal]
    exact_mod_cast hcount
  · intro hsynchronized
    rw [hsynchronized] at htotal hlocked
    rw [← Int64.toInt_inj, htotal, hlocked, locked_countFrom_synchronized]
  · intro hplain
    refine ⟨fun k hk => ⟨?_, toInt_depth_stateAfter hplain hbound hk⟩,
      step_stateAfter hplain hbound, ?_⟩
    · rw [nesting_kinds_eq hk]
      exact Int.natCast_nonneg _
    · rw [hplain] at hlocked
      rw [hlocked]
      exact_mod_cast locked_countFrom_eq_sum

/-- A method that leaves a monitor it has not entered, before and after two that are nested. -/
def strayExits (isSynchronized : Bool) : MethodUnit where
  name := utf8 "run"
  descriptor := utf8 "()V"
  isSynchronized
  events := [⟨.plain, 195, .monitorExit⟩, ⟨.plain, 194, .monitorEnter⟩, ⟨.jump, 160, .compareJump⟩,
    ⟨.var, 0, .monitorEnter⟩, ⟨.plain, 195, .monitorExit⟩, ⟨.plain, 195, .monitorExit⟩,
    ⟨.plain, 195, .monitorExit⟩, ⟨.jump, 165, .compareJump⟩, ⟨⟨200⟩, -1, ⟨77⟩⟩]

theorem tally_eq_nesting_strayExits :
    (∃ tally, (strayExits false).tally = .ok tally ∧ tally.total.toInt = 11 ∧
      tally.locked.toInt = 6 ∧ ((strayExits false).stateAfter 4).depth.toInt = 2 ∧
      ((strayExits false).stateAfter 7).depth.toInt = 0) ∧
    ∃ tally, (strayExits true).tally = .ok tally ∧ tally.total.toInt = 11 ∧
      tally.locked = tally.total := by
  constructor
  · obtain ⟨tally, htally, htotal, -, hplain⟩ := (strayExits false).tally_eq_nesting (by decide)
    obtain ⟨hdepth, -, hlocked⟩ := hplain rfl
    have hfour := (hdepth 4 (by decide)).2
    have hseven := (hdepth 7 (by decide)).2
    refine ⟨tally, htally, htotal.trans ?_, hlocked.trans ?_, hfour.trans ?_, hseven.trans ?_⟩
    all_goals decide +kernel
  · obtain ⟨tally, htally, htotal, hsynchronized, -⟩ :=
      (strayExits true).tally_eq_nesting (by decide)
    exact ⟨tally, htally, htotal.trans (by decide), hsynchronized rfl⟩

end MethodUnit

end MonitorCoverage.Lock
