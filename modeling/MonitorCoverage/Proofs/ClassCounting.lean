import Mathlib.Algebra.Order.BigOperators.Group.List
import Mathlib.Algebra.Order.Group.Nat
import Mathlib.Algebra.Ring.Int.Defs
import MonitorCoverage.Proofs.WorkerSchedules

/-!
# Counting over a class

The count of a class is the sum of the counts of its methods, in natural numbers. The tallies of the
methods and their sum are signed words that wrap around. They stand for the counts nevertheless, as
long as the count of the class is one that a signed word can hold: it bounds the count of every
method and every sum on the way.
-/

namespace MonitorCoverage.Lock

/-! ## Counts -/

/-- The count of a method. -/
def MethodUnit.count (unit : MethodUnit) : Count :=
  countFrom unit.isSynchronized 0 (unit.events.map Event.kind)

/-- The sums of the counts of methods. -/
def countAll (methods : List MethodUnit) : Count where
  total := (methods.map fun method => method.count.total).sum
  locked := (methods.map fun method => method.count.locked).sum

theorem MethodUnit.locked_le_total_count (unit : MethodUnit) :
    unit.count.locked ≤ unit.count.total :=
  locked_le_total_countFrom unit.isSynchronized 0 (unit.events.map Event.kind)

theorem MethodUnit.length_events_le_total_count (unit : MethodUnit) :
    unit.events.length ≤ unit.count.total := by
  have hlength := length_le_total_countFrom unit.isSynchronized 0 (unit.events.map Event.kind)
  rwa [List.length_map] at hlength

theorem MethodUnit.total_count_le (unit : MethodUnit) :
    unit.count.total ≤ 2 * unit.events.length := by
  have htotal := total_countFrom_le unit.isSynchronized 0 (unit.events.map Event.kind)
  rwa [List.length_map] at htotal

theorem total_countAll_le_events (methods : List MethodUnit) :
    (countAll methods).total ≤ 2 * (methods.map fun method => method.events.length).sum := by
  induction methods with
  | nil => exact Nat.le_refl _
  | cons method methods ih =>
    have hmethod := method.total_count_le
    simp only [countAll, List.map_cons, List.sum_cons] at ih ⊢
    omega

theorem locked_countAll_le_total (methods : List MethodUnit) :
    (countAll methods).locked ≤ (countAll methods).total :=
  List.sum_le_sum fun method _ => method.locked_le_total_count

theorem total_count_le_countAll {methods : List MethodUnit} {method : MethodUnit}
    (hmem : method ∈ methods) : method.count.total ≤ (countAll methods).total :=
  List.le_sum_of_mem (List.mem_map_of_mem hmem)

/-! ## Tallies that stand for counts -/

/-- The words of a tally are the numbers of a count. -/
structure Tally.Represents (tally : Tally) (count : Count) : Prop where
  total : tally.total.toInt = count.total
  locked : tally.locked.toInt = count.locked

theorem Tally.Represents.total_nonneg {tally : Tally} {count : Count} (h : tally.Represents count) :
    0 ≤ tally.total.toInt := by
  rw [h.total]
  exact Int.natCast_nonneg _

theorem Tally.Represents.locked_nonneg {tally : Tally} {count : Count}
    (h : tally.Represents count) :
    0 ≤ tally.locked.toInt := by
  rw [h.locked]
  exact Int.natCast_nonneg _

theorem Tally.Represents.locked_le_total {tally : Tally} {count : Count}
    (h : tally.Represents count) (hle : count.locked ≤ count.total) :
    tally.locked.toInt ≤ tally.total.toInt := by
  rw [h.locked, h.total]
  exact Int.ofNat_le.mpr hle

theorem Tally.represents_zero : Tally.zero.Represents ⟨0, 0⟩ := ⟨rfl, rfl⟩

/-- Two words whose sum a word can hold are added as numbers. -/
theorem toInt_add_of_natCast {a b : Int64} {m n : Nat} (ha : a.toInt = m) (hb : b.toInt = n)
    (h : m + n < 9223372036854775808) : (a + b).toInt = (m + n : Nat) := by
  rw [Int64.toInt_add, ha, hb, ← Int.natCast_add]
  apply Int.bmod_eq_of_le <;> omega

theorem Tally.Represents.add {a b : Tally} {m n : Count} (ha : a.Represents m)
    (hb : b.Represents n) (htotal : m.total + n.total < 9223372036854775808)
    (hlocked : m.locked + n.locked < 9223372036854775808) :
    (a.add b).Represents ⟨m.total + n.total, m.locked + n.locked⟩ :=
  ⟨toInt_add_of_natCast ha.total hb.total htotal, toInt_add_of_natCast ha.locked hb.locked hlocked⟩

/-- Tallies that stand for the counts of methods, one for each and in their order. -/
abbrev Represent (methods : List MethodUnit) (tallies : List Tally) : Prop :=
  List.Forall₂ (fun method tally => tally.Represents method.count) methods tallies

/-- Adding the tallies of methods to a sum adds their counts to the count that it stands for. -/
theorem Represent.foldl_add {methods : List MethodUnit} {tallies : List Tally}
    (h : Represent methods tallies) {sum : Tally} {count : Count} (hsum : sum.Represents count)
    (hle : count.locked ≤ count.total)
    (hbound : count.total + (countAll methods).total < 9223372036854775808) :
    (tallies.foldl Tally.add sum).Represents
      ⟨count.total + (countAll methods).total, count.locked + (countAll methods).locked⟩ := by
  induction h generalizing sum count with
  | nil => exact hsum
  | @cons method tally methods tallies htally _ ih =>
    have hmethod := method.locked_le_total_count
    simp only [countAll, List.map_cons, List.sum_cons] at ih hbound ⊢
    have hstep := hsum.add htally (by omega) (by omega)
    have hrest := ih hstep (by simp only; omega) (by simp only; omega)
    simp only [Nat.add_assoc] at hrest
    exact hrest

theorem Represent.represents_sum {methods : List MethodUnit} {tallies : List Tally}
    (h : Represent methods tallies)
    (hbound : (countAll methods).total < 9223372036854775808) :
    (tallies.foldl Tally.add .zero).Represents (countAll methods) := by
  have hsum := h.foldl_add Tally.represents_zero (Nat.le_refl _) (by rwa [Nat.zero_add])
  simp only [Nat.zero_add] at hsum
  exact hsum

/-- The tallies of methods stand for their counts, if a word can hold the count of them all. -/
theorem TalliesOf.represent {methods : List MethodUnit} {tallies : List Tally}
    (h : TalliesOf methods tallies)
    (hbound : (countAll methods).total < 9223372036854775808) : Represent methods tallies := by
  have hsmall : ∀ method ∈ methods, method.count.total < 9223372036854775808 := fun _ hmem =>
    Nat.lt_of_le_of_lt (total_count_le_countAll hmem) hbound
  refine ((List.forall₂_and_left ..).mpr ⟨hsmall, h⟩).imp fun method tally ⟨hlt, htally⟩ => ?_
  obtain ⟨tally', htally', htotal, hlocked⟩ := method.exists_tally hlt
  rw [htally] at htally'
  cases htally'
  exact ⟨htotal, hlocked⟩

theorem exists_talliesOf_of_total_lt {methods : List MethodUnit}
    (hbound : (countAll methods).total < 9223372036854775808) :
    ∃ tallies, TalliesOf methods tallies := by
  refine exists_talliesOf fun method hmem => ⟨_, method.tally_eq_ok ?_⟩
  have hlength := method.length_events_le_total_count
  have hle := total_count_le_countAll hmem
  omega

/-- The exact sums of the words of tallies are the count of the methods. -/
theorem Represent.sum_toInt {methods : List MethodUnit} {tallies : List Tally}
    (h : Represent methods tallies) :
    (tallies.map fun tally => tally.total.toInt).sum = (countAll methods).total ∧
    (tallies.map fun tally => tally.locked.toInt).sum = (countAll methods).locked := by
  induction h with
  | nil => exact ⟨rfl, rfl⟩
  | @cons method tally methods tallies htally _ ih =>
    obtain ⟨htotal, hlocked⟩ := ih
    simp only [countAll] at htotal hlocked
    simp only [countAll, List.map_cons, List.sum_cons, htally.total, htally.locked, htotal, hlocked,
      Int.natCast_add, and_self]

end MonitorCoverage.Lock
