import Mathlib.Data.List.FinRange
import Mathlib.Data.List.Perm.Basic
import MonitorCoverage.Proofs.WorkerSchedules

/-!
# Independence of methods

The report of a method is made from that method alone: the walk over its events starts afresh, with
no monitor held. So the rows of an analysis are the reports of the methods, one by one, and follow
them wherever they are moved. The counts of the class are sums of words. These wrap around, but they
are still the same in any order and in any grouping.
-/

namespace MonitorCoverage.Lock

/-! ## Sums of tallies -/

namespace Tally

theorem add_assoc (a b c : Tally) : (a.add b).add c = a.add (b.add c) := by
  simp only [add, Int64.add_assoc]

theorem add_right_comm (a b c : Tally) : (a.add b).add c = (a.add c).add b := by
  simp only [add, Int64.add_assoc, Int64.add_comm b.total, Int64.add_comm b.locked]

theorem add_zero (a : Tally) : a.add zero = a := by
  simp [add, zero]

/-- A sum that is started from a tally is that tally and the sum of the others. -/
theorem foldl_add (sum : Tally) (tallies : List Tally) :
    tallies.foldl add sum = sum.add (tallies.foldl add zero) := by
  induction tallies generalizing sum with
  | nil => exact (add_zero sum).symm
  | cons tally tallies ih =>
    rw [List.foldl_cons, List.foldl_cons, ih, ih (zero.add tally), ← add_assoc, ← add_assoc,
      add_zero]

end Tally

namespace ClassTally

def zero : ClassTally := ⟨0, 0, 0, 0⟩

/-- The sum of two tallies of classes, component by component. -/
def add (a b : ClassTally) : ClassTally where
  total := a.total + b.total
  locked := a.locked + b.locked
  methods := a.methods + b.methods
  fields := a.fields + b.fields

theorem ofMethods_append (first second : List Tally) :
    ofMethods (first ++ second) = (ofMethods first).add (ofMethods second) := by
  have hsum := Tally.foldl_add (first.foldl Tally.add .zero) second
  simp only [ofMethods, add, List.foldl_append, List.length_append, Int64.ofNat_add, hsum]
  rfl

theorem ofMethods_append_flatten (first : List Tally) (parts : List (List Tally)) :
    ofMethods (first ++ parts.flatten) = (parts.map ofMethods).foldl add (ofMethods first) := by
  induction parts generalizing first with
  | nil => simp
  | cons part parts ih =>
    rw [List.flatten_cons, ← List.append_assoc, ih, ofMethods_append]
    rfl

theorem ofMethods_eq_of_perm {tallies others : List Tally} (h : tallies.Perm others) :
    ofMethods tallies = ofMethods others := by
  have hsum := h.foldl_eq' (fun a _ b _ sum => sum.add_right_comm a b) Tally.zero
  simp only [ofMethods, hsum, h.length_eq]

/-- In any order and in any grouping, the sums of tallies are the sums of the sums of the groups. -/
theorem ofMethods_eq_foldl_of_perm {tallies : List Tally} {parts : List (List Tally)}
    (h : tallies.Perm parts.flatten) :
    ofMethods tallies = (parts.map ofMethods).foldl add zero :=
  (ofMethods_eq_of_perm h).trans (ofMethods_append_flatten [] parts)

end ClassTally

/-! ## Rows -/

namespace MethodUnit

/-- The tally of a method, and nothing for a method that has none. -/
def tallyOrZero (unit : MethodUnit) : Tally :=
  match unit.tally with
  | .ok tally => tally
  | .error _ => .zero

/-- The row of a method in the analysis of its class. -/
def report (unit : MethodUnit) : MethodReport := .of unit unit.tallyOrZero

end MethodUnit

theorem TalliesOf.eq_map {methods : List MethodUnit} {tallies : List Tally}
    (h : TalliesOf methods tallies) : tallies = methods.map MethodUnit.tallyOrZero := by
  induction h with
  | nil => rfl
  | @cons method tally methods tallies htally _ ih =>
    rw [List.map_cons, ← ih, MethodUnit.tallyOrZero, htally]

namespace ClassUnit

/-- All methods of a class can be tallied. -/
def HasTallies (unit : ClassUnit) : Prop :=
  ∀ method ∈ unit.methods, ∃ tally, method.tally = .ok tally

/-- The rows of the methods of a class, and the sums of their tallies. -/
def summary (unit : ClassUnit) : Analysis where
  name := unit.name
  tally := { ClassTally.ofMethods (unit.methods.map MethodUnit.tallyOrZero) with
    fields := Int64.ofNat unit.fields.length }
  methods := unit.methods.map MethodUnit.report

/-- The methods one after the other, and any number of workers under any schedule, come to an
analysis, if nobody calls them off. -/
structure Gives (unit : ClassUnit) (analysis : Analysis) : Prop where
  inOrder : (unit.analyze false).outcome = .ok analysis
  byWorkers : ∀ workers, unit.AlwaysEnds workers false fun run => run.outcome = .ok analysis

theorem summary_eq_ofTallies {unit : ClassUnit} {tallies : List Tally}
    (h : TalliesOf unit.methods tallies) : .ofTallies unit tallies = unit.summary := by
  rw [h.eq_map, Analysis.ofTallies, List.zipWith_map_right, List.zipWith_self]
  rfl

theorem gives_iff {unit : ClassUnit} {analysis : Analysis} :
    unit.Gives analysis ↔ unit.HasTallies ∧ analysis = unit.summary := by
  constructor
  · intro h
    -- some schedule is complete, and its run has tallied every method
    obtain ⟨schedule, run, hschedule, hrun⟩ := (h.byWorkers 1).exists_end [] _ rfl
    have hok := (h.byWorkers 1).holds_end _ run hschedule hrun
    obtain ⟨tallies, -, htallies, rfl, -, -⟩ := exists_talliesOf_of_analyzeUnder hrun hok
    exact ⟨fun _ => htallies.exists_tally, summary_eq_ofTallies htallies⟩
  · rintro ⟨htallies, rfl⟩
    obtain ⟨tallies, htallies⟩ := exists_talliesOf htallies
    rw [← summary_eq_ofTallies htallies]
    refine ⟨?_, alwaysEnds_of_talliesOf htallies⟩
    rw [analyze_eq_conclude htallies]
    rfl

theorem hasTallies_of_length_lt {unit : ClassUnit}
    (h : ∀ method ∈ unit.methods, method.events.length < 9223372036854775808) : unit.HasTallies :=
  fun method hmem => ⟨_, method.tally_eq_ok (h method hmem)⟩

/-! ## Other orders -/

/-- The same class with its methods in another order. -/
def permute (unit : ClassUnit) (σ : Equiv.Perm (Fin unit.methods.length)) : ClassUnit :=
  { unit with methods := List.ofFn (unit.methods.get ∘ σ) }

variable {unit : ClassUnit}

theorem permute_methods_perm (σ : Equiv.Perm (Fin unit.methods.length)) :
    (unit.permute σ).methods.Perm unit.methods := by
  have hperm := σ.ofFn_comp_perm unit.methods.get
  rwa [List.ofFn_get] at hperm

theorem HasTallies.permute (h : unit.HasTallies) (σ : Equiv.Perm (Fin unit.methods.length)) :
    (unit.permute σ).HasTallies :=
  fun method hmem => h method ((permute_methods_perm σ).subset hmem)

theorem tally_summary_permute (σ : Equiv.Perm (Fin unit.methods.length)) :
    (unit.permute σ).summary.tally = unit.summary.tally := by
  have hsums := ClassTally.ofMethods_eq_of_perm
    ((permute_methods_perm σ).map MethodUnit.tallyOrZero)
  simp only [summary, hsums]
  rfl

theorem getElem?_summary_permute (σ : Equiv.Perm (Fin unit.methods.length))
    (i : Fin unit.methods.length) :
    (unit.permute σ).summary.methods[i.val]? = unit.summary.methods[(σ i).val]? := by
  have hmethod : (unit.permute σ).methods[i.val]? = unit.methods[(σ i).val]? := by
    simp [ClassUnit.permute]
  simp only [summary, List.getElem?_map, hmethod]

/-! ## Other events -/

/-- The same class with other events for the method with a number. -/
def withEventsAt (unit : ClassUnit) (i : Nat) (events : List Event) : ClassUnit :=
  { unit with methods := unit.methods.modify i fun method => { method with events } }

theorem HasTallies.withEventsAt (h : unit.HasTallies) (i : Nat) {events : List Event}
    (hevents : events.length < 9223372036854775808) : (unit.withEventsAt i events).HasTallies := by
  intro method hmem
  obtain ⟨j, hj⟩ := List.mem_iff_getElem?.mp hmem
  simp only [ClassUnit.withEventsAt, List.getElem?_modify, Option.map_eq_map,
    Option.map_eq_some_iff] at hj
  obtain ⟨old, hold, rfl⟩ := hj
  split
  · exact ⟨_, MethodUnit.tally_eq_ok _ hevents⟩
  · exact h old (List.mem_of_getElem? hold)

theorem getElem?_summary_withEventsAt {i j : Nat} (hne : j ≠ i) (events : List Event) :
    (unit.withEventsAt i events).summary.methods[j]? = unit.summary.methods[j]? := by
  simp only [summary, withEventsAt, List.getElem?_map, List.getElem?_modify_ne _ _ hne.symm]

/-- A class whose methods have fewer events than a depth can count is analyzed. In another order its
methods have the same sums and their rows in that order. Other fields show in the number of fields
only, and other events of a method in no other row. The sums of any tallies, in any order, are the
sums of the sums of their parts. -/
theorem gives_methods_independent (unit : ClassUnit) :
    ((∀ method ∈ unit.methods, method.events.length < 9223372036854775808) →
      ∃ analysis, unit.Gives analysis) ∧
    (∀ analysis, unit.Gives analysis →
      analysis.methods.length = unit.methods.length ∧
      (∀ σ : Equiv.Perm (Fin unit.methods.length), ∃ other, (unit.permute σ).Gives other ∧
        other.name = analysis.name ∧ other.tally = analysis.tally ∧
        other.methods.length = unit.methods.length ∧
        ∀ i : Fin unit.methods.length, other.methods[i.val]? = analysis.methods[(σ i).val]?) ∧
      (∀ fields, { unit with fields }.Gives { analysis with
        tally := { analysis.tally with fields := Int64.ofNat fields.length } }) ∧
      ∀ i events,
        (events.length < 9223372036854775808 → ∃ other, (unit.withEventsAt i events).Gives other) ∧
        ∀ other, (unit.withEventsAt i events).Gives other →
          ∀ j, j ≠ i → other.methods[j]? = analysis.methods[j]?) ∧
    ∀ (tallies : List Tally) (parts : List (List Tally)), tallies.Perm parts.flatten →
      ClassTally.ofMethods tallies =
        (parts.map ClassTally.ofMethods).foldl ClassTally.add .zero := by
  refine ⟨fun hevents => ⟨_, gives_iff.mpr ⟨hasTallies_of_length_lt hevents, rfl⟩⟩, ?_,
    fun _ _ => ClassTally.ofMethods_eq_foldl_of_perm⟩
  intro analysis hgives
  obtain ⟨htallies, rfl⟩ := gives_iff.mp hgives
  refine ⟨by simp [summary], fun σ => ?_, fun fields => ?_, fun i events => ⟨fun hevents => ?_, ?_⟩⟩
  · refine ⟨_, gives_iff.mpr ⟨htallies.permute σ, rfl⟩, rfl, tally_summary_permute σ, ?_,
      getElem?_summary_permute σ⟩
    rw [summary, List.length_map, (permute_methods_perm σ).length_eq]
  · exact gives_iff.mpr ⟨htallies, rfl⟩
  · exact ⟨_, gives_iff.mpr ⟨htallies.withEventsAt i hevents, rfl⟩⟩
  · intro other hother j hne
    obtain ⟨-, rfl⟩ := gives_iff.mp hother
    exact getElem?_summary_withEventsAt hne events

/-- A class whose first method is left with its monitor held. -/
def monitorLeftHeld : ClassUnit where
  name := utf8 "P"
  fields := []
  methods :=
    [{ name := utf8 "f", descriptor := utf8 "()V", isSynchronized := false
       events := [⟨.plain, 194, .monitorEnter⟩] },
      { name := utf8 "g", descriptor := utf8 "()V", isSynchronized := false
        events := [⟨.jump, 160, .compareJump⟩, ⟨.plain, 195, .monitorExit⟩] }]

/-- The second method has nothing locked before the first one, after it and next to any other. -/
theorem gives_methods_independent_monitorLeftHeld :
    ∃ analysis other changed,
      monitorLeftHeld.Gives analysis ∧
      (monitorLeftHeld.permute (Equiv.swap ⟨0, by decide⟩ ⟨1, by decide⟩)).Gives other ∧
      (monitorLeftHeld.withEventsAt 0 []).Gives changed ∧
      analysis.tally = ⟨4, 1, 2, 0⟩ ∧ other.tally = analysis.tally ∧
      other.methods[0]? = analysis.methods[1]? ∧ changed.methods[1]? = analysis.methods[1]? ∧
      analysis.methods[1]?.map MethodReport.tally = some ⟨3, 0⟩ := by
  obtain ⟨hexists, hindependent, -⟩ := gives_methods_independent monitorLeftHeld
  obtain ⟨analysis, hanalysis⟩ := hexists (by decide)
  obtain ⟨-, hpermute, -, hchange⟩ := hindependent analysis hanalysis
  obtain ⟨other, hother, -, htally, -, hrows⟩ :=
    hpermute (Equiv.swap ⟨0, by decide⟩ ⟨1, by decide⟩)
  obtain ⟨changed, hchanged⟩ := (hchange 0 []).1 (by decide)
  have hrow := (hchange 0 []).2 changed hchanged 1 (by decide)
  have hfirst := hrows ⟨0, by decide⟩
  rw [Equiv.swap_apply_left] at hfirst
  obtain ⟨-, rfl⟩ := gives_iff.mp hanalysis
  exact ⟨_, other, changed, hanalysis, hother, hchanged, by decide +kernel, htally, hfirst, hrow,
    by decide +kernel⟩

end ClassUnit

end MonitorCoverage.Lock
