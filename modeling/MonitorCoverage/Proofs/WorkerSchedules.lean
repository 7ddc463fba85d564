import Mathlib.Algebra.BigOperators.Group.List.Basic
import Mathlib.Algebra.Ring.Nat
import MonitorCoverage.Lock.Workers
import MonitorCoverage.Proofs.LockCounting
import MonitorCoverage.Proofs.Outcome

/-!
# Schedules of an analysis

What a schedule leads to does not depend on the schedule. Every state that a schedule leads to is
consistent: the phase of a task says what it has stored and which record it has made, and some task
has failed exactly if a failure is listed. Every step makes progress, and there is always a task
that can move on before the run is over, so every schedule is short and can be completed. A run that
is over without a failure has stored the tallies of all methods, which are those that the analysis
in order comes to.
-/

namespace MonitorCoverage.Lock

open Log (Record)

/-! ## Steps -/

/-- What a task does when it moves on. -/
inductive Advances (unit : ClassUnit) (workers : Int64) (state : TaskState) (task : Nat)
    (method : MethodUnit) : TaskState → Prop where
  | start (hphase : state.phases[task]? = some .waiting)
      (hmay : unit.mayStart workers state task = true) :
      Advances unit workers state task method (state.setPhase task .started)
  | enter (hphase : state.phases[task]? = some .started) (hlive : state.canceled = false) :
      Advances unit workers state task method (state.setPhase task .admitted)
  | refuse (hphase : state.phases[task]? = some .started) (hcanceled : state.canceled = true) :
      Advances unit workers state task method (state.fail task (.canceled method.name))
  | tally {tally : Tally} (hphase : state.phases[task]? = some .admitted)
      (htally : method.tally = .ok tally) :
      Advances unit workers state task method (state.log task method tally)
  | fault {fault : MethodFault} (hphase : state.phases[task]? = some .admitted)
      (hfault : method.tally = .error fault) :
      Advances unit workers state task method (state.fail task (.method fault))
  | store {tally : Tally} (hphase : state.phases[task]? = some (.tallied tally)) :
      Advances unit workers state task method (state.store task tally)

variable {unit : ClassUnit} {workers : Int64} {state state' : TaskState} {task : Nat}

theorem advance_eq_some_iff : unit.advance workers state task = some state' ↔
    ∃ method, unit.methods[task]? = some method ∧
      Advances unit workers state task method state' := by
  constructor
  · intro h
    unfold ClassUnit.advance at h
    split at h
    · rename_i method hmethod hphase
      split at h
      · rename_i hmay
        cases h
        exact ⟨method, hmethod, .start hphase hmay⟩
      · cases h
    · rename_i method hmethod hphase
      split at h
      · rename_i hcanceled
        cases h
        exact ⟨method, hmethod, .refuse hphase hcanceled⟩
      · rename_i hcanceled
        cases h
        exact ⟨method, hmethod, .enter hphase (Bool.eq_false_iff.mpr hcanceled)⟩
    · rename_i method hmethod hphase
      split at h
      · rename_i htally
        cases h
        exact ⟨method, hmethod, .tally hphase htally⟩
      · rename_i hfault
        cases h
        exact ⟨method, hmethod, .fault hphase hfault⟩
    · rename_i method tally hmethod hphase
      cases h
      exact ⟨method, hmethod, .store hphase⟩
    · cases h
  · rintro ⟨method, hmethod, h⟩
    unfold ClassUnit.advance
    cases h with
    | start hphase hmay => simp only [hmethod, hphase, hmay, if_true]
    | enter hphase hlive => simp [hmethod, hphase, hlive]
    | refuse hphase hcanceled => simp only [hmethod, hphase, hcanceled, if_true]
    | tally hphase htally => simp only [hmethod, hphase, htally]
    | fault hphase hfault => simp only [hmethod, hphase, hfault]
    | store hphase => simp only [hmethod, hphase]

/-! ## What every state satisfies -/

/-- What the phase of a task says about its method and its slot. -/
def TaskPhase.Agrees (method : MethodUnit) (slot : Option Tally) : TaskPhase → Prop
  | .tallied tally => method.tally = .ok tally
  | .stored => ∃ tally, slot = some tally ∧ method.tally = .ok tally
  | .waiting | .started | .admitted | .failed => True

/-- The record that the task of a method has made, if it has made one. -/
def TaskPhase.record? (method : MethodUnit) : TaskPhase → Option Record
  | .tallied tally => some (methodRecord method tally)
  | .stored =>
    match method.tally with
    | .ok tally => some (methodRecord method tally)
    | .error _ => none
  | .waiting | .started | .admitted | .failed => none

/-- The records that the tasks of methods have made, in the order of the methods. -/
def loggedRecords (methods : List MethodUnit) (phases : List TaskPhase) : List Record :=
  (methods.zipWith (fun method phase => phase.record? method) phases).filterMap id

theorem loggedRecords_cons (method : MethodUnit) (methods : List MethodUnit) (phase : TaskPhase)
    (phases : List TaskPhase) :
    loggedRecords (method :: methods) (phase :: phases) =
      (phase.record? method).toList ++ loggedRecords methods phases := by
  unfold loggedRecords
  rw [List.zipWith_cons_cons, List.filterMap_cons]
  cases phase.record? method <;> rfl

/-- A task that moves on adds the record that it makes, if it makes one. -/
theorem loggedRecords_set {methods : List MethodUnit} {phases : List TaskPhase} {task : Nat}
    {method : MethodUnit} {phase phase' : TaskPhase} {made : List Record}
    (hmethod : methods[task]? = some method) (hphase : phases[task]? = some phase)
    (hmade : (phase'.record? method).toList = (phase.record? method).toList ++ made) :
    (loggedRecords methods (phases.set task phase')).Perm
      (loggedRecords methods phases ++ made) := by
  induction methods generalizing phases task with
  | nil => simp at hmethod
  | cons first methods ih =>
    cases phases with
    | nil => simp at hphase
    | cons firstPhase phases =>
      cases task with
      | zero =>
        obtain rfl : first = method := by simpa using hmethod
        obtain rfl : firstPhase = phase := by simpa using hphase
        rw [List.set_cons_zero, loggedRecords_cons, loggedRecords_cons, hmade, List.append_assoc,
          List.append_assoc]
        exact List.perm_append_comm.append_left _
      | succ task =>
        rw [List.getElem?_cons_succ] at hmethod hphase
        rw [List.set_cons_succ, loggedRecords_cons, loggedRecords_cons, List.append_assoc]
        exact (ih hmethod hphase).append_left _

theorem failed_mem_set_iff {phases : List TaskPhase} {phase phase' : TaskPhase}
    (hphase : phases[task]? = some phase) (hne : phase ≠ .failed) :
    .failed ∈ phases.set task phase' ↔ .failed ∈ phases ∨ phase' = .failed := by
  have hlt : task < phases.length := (List.getElem?_eq_some_iff.mp hphase).1
  simp only [List.mem_iff_getElem?]
  constructor
  · rintro ⟨i, hi⟩
    by_cases h : task = i
    · subst h
      rw [List.getElem?_set_self hlt] at hi
      exact .inr (Option.some.inj hi)
    · rw [List.getElem?_set_ne h] at hi
      exact .inl ⟨i, hi⟩
  · rintro (⟨i, hi⟩ | rfl)
    · have h : task ≠ i := by
        rintro rfl
        rw [hphase] at hi
        exact hne (Option.some.inj hi)
      exact ⟨i, by rw [List.getElem?_set_ne h, hi]⟩
    · exact ⟨task, List.getElem?_set_self hlt⟩

namespace TaskState

/-- The phases agree with the slots, the records are those that the phases say, and there is a
failure exactly if a task has failed. -/
structure Consistent (unit : ClassUnit) (state : TaskState) : Prop where
  length_phases : state.phases.length = unit.methods.length
  length_tallies : state.tallies.length = unit.methods.length
  agrees : ∀ {task : Nat} {method : MethodUnit} {phase : TaskPhase},
    unit.methods[task]? = some method → state.phases[task]? = some phase →
      phase.Agrees method state.tallies[task]?
  records : state.records.Perm (loggedRecords unit.methods state.phases)
  failed_iff : .failed ∈ state.phases ↔ state.failures ≠ []

theorem consistent_start (unit : ClassUnit) (canceled : Bool) :
    (TaskState.start unit canceled).Consistent unit where
  length_phases := List.length_map _
  length_tallies := List.length_map _
  agrees := by
    intro task method phase hmethod hphase
    have hwaiting : phase = .waiting := by
      simp only [start, List.getElem?_map, hmethod, Option.map_some, Option.some.injEq] at hphase
      exact hphase.symm
    rw [hwaiting]
    trivial
  records := by
    have hnone : loggedRecords unit.methods (unit.methods.map fun _ => .waiting) = [] := by
      induction unit.methods with
      | nil => rfl
      | cons method methods ih => exact ih
    rw [start, hnone]
  failed_iff := by simp [start]

/-- A task that moves on keeps a state consistent, if its new phase agrees with its method and its
slot, the record is made that the new phase says, and a failure is listed if it fails. -/
theorem Consistent.set {method : MethodUnit} {phase phase' : TaskPhase} {made : List Record}
    (h : state.Consistent unit) (hmethod : unit.methods[task]? = some method)
    (hphase : state.phases[task]? = some phase) (hne : phase ≠ .failed)
    (hphases : state'.phases = state.phases.set task phase')
    (hlength : state'.tallies.length = state.tallies.length)
    (hslots : ∀ i, i ≠ task → state'.tallies[i]? = state.tallies[i]?)
    (hagrees : phase'.Agrees method state'.tallies[task]?)
    (hrecords : state'.records = state.records ++ made)
    (hmade : (phase'.record? method).toList = (phase.record? method).toList ++ made)
    (hfailures : state'.failures ≠ [] ↔ state.failures ≠ [] ∨ phase' = .failed) :
    state'.Consistent unit where
  length_phases := by rw [hphases, List.length_set, h.length_phases]
  length_tallies := by rw [hlength, h.length_tallies]
  agrees := by
    intro i method' phase'' hmethod' hphase''
    rw [hphases] at hphase''
    by_cases hi : i = task
    · subst hi
      rw [hmethod] at hmethod'
      cases hmethod'
      rw [List.getElem?_set_self (List.getElem?_eq_some_iff.mp hphase).1] at hphase''
      cases hphase''
      exact hagrees
    · rw [List.getElem?_set_ne (Ne.symm hi)] at hphase''
      rw [hslots i hi]
      exact h.agrees hmethod' hphase''
  records := by
    rw [hphases, hrecords]
    exact (h.records.append_right made).trans (loggedRecords_set hmethod hphase hmade).symm
  failed_iff := by rw [hphases, failed_mem_set_iff hphase hne, h.failed_iff, hfailures]

theorem Consistent.advance {method : MethodUnit} (h : state.Consistent unit)
    (hmethod : unit.methods[task]? = some method)
    (hadvance : Advances unit workers state task method state') : state'.Consistent unit := by
  cases hadvance with
  | start hphase hmay =>
    exact h.set hmethod hphase (by decide) rfl rfl (fun _ _ => rfl) trivial
      (List.append_nil _).symm rfl (by simp [setPhase])
  | enter hphase hlive =>
    exact h.set hmethod hphase (by decide) rfl rfl (fun _ _ => rfl) trivial
      (List.append_nil _).symm rfl (by simp [setPhase])
  | refuse hphase hcanceled =>
    exact h.set hmethod hphase (by decide) rfl rfl (fun _ _ => rfl) trivial
      (List.append_nil _).symm rfl (by simp [fail])
  | tally hphase htally =>
    exact h.set hmethod hphase (by decide) rfl rfl (fun _ _ => rfl) htally rfl rfl (by simp [log])
  | fault hphase hfault =>
    exact h.set hmethod hphase (by decide) rfl rfl (fun _ _ => rfl) trivial
      (List.append_nil _).symm rfl (by simp [fail])
  | @store tally hphase =>
    have htally : method.tally = .ok tally := h.agrees hmethod hphase
    have hlt : task < state.tallies.length := by
      rw [h.length_tallies, ← h.length_phases]
      exact (List.getElem?_eq_some_iff.mp hphase).1
    refine h.set hmethod hphase (by simp) rfl (List.length_set ..) ?_ ?_ (List.append_nil _).symm ?_
      (by simp [store])
    · intro i hi
      exact List.getElem?_set_ne (Ne.symm hi)
    · exact ⟨tally, List.getElem?_set_self hlt, htally⟩
    · simp [TaskPhase.record?, htally]

end TaskState

/-! ## Schedules -/

theorem step_cases {step : ScheduleStep} (h : unit.step workers state step = some state') :
    (∃ task method, step = .advance task ∧ unit.methods[task]? = some method ∧
      Advances unit workers state task method state') ∨
    (step = .cancel ∧ state.canceled = false ∧ state' = { state with canceled := true }) := by
  cases step with
  | advance task =>
    obtain ⟨method, hmethod, hadvance⟩ := advance_eq_some_iff.mp h
    exact .inl ⟨task, method, rfl, hmethod, hadvance⟩
  | cancel =>
    simp only [ClassUnit.step] at h
    split at h
    · cases h
    · rename_i hcanceled
      cases h
      exact .inr ⟨rfl, Bool.eq_false_iff.mpr hcanceled, rfl⟩

/-- What every step of a schedule preserves holds after the schedule. -/
theorem follow_preserves (holds : TaskState → Prop) {schedule : List ScheduleStep}
    (hstep : ∀ {before after : TaskState} {step : ScheduleStep}, step ∈ schedule → holds before →
      unit.step workers before step = some after → holds after)
    (hstart : holds state) (hfollow : unit.follow workers state schedule = some state') :
    holds state' := by
  induction schedule generalizing state with
  | nil =>
    cases hfollow
    exact hstart
  | cons step schedule ih =>
    simp only [ClassUnit.follow] at hfollow
    split at hfollow
    · rename_i next hnext
      have hholds : holds next := hstep List.mem_cons_self hstart hnext
      exact ih (fun hmem => hstep (List.mem_cons_of_mem step hmem)) hholds hfollow
    · cases hfollow

theorem follow_append (first second : List ScheduleStep) :
    unit.follow workers state (first ++ second) =
      (unit.follow workers state first).bind fun next => unit.follow workers next second := by
  induction first generalizing state with
  | nil => rfl
  | cons step first ih =>
    simp only [List.cons_append, ClassUnit.follow]
    cases unit.step workers state step with
    | none => rfl
    | some next => exact ih

theorem consistent_follow {canceled : Bool} {schedule : List ScheduleStep}
    (h : unit.follow workers (.start unit canceled) schedule = some state) :
    state.Consistent unit := by
  refine follow_preserves (·.Consistent unit) (fun _ hbefore hstep => ?_)
    (TaskState.consistent_start unit canceled) h
  obtain ⟨task, method, -, hmethod, hadvance⟩ | ⟨-, -, rfl⟩ := step_cases hstep
  · exact hbefore.advance hmethod hadvance
  · exact ⟨hbefore.length_phases, hbefore.length_tallies, hbefore.agrees, hbefore.records,
      hbefore.failed_iff⟩

/-! ## Every schedule is short -/

/-- How many steps a task has made. -/
def TaskPhase.rank : TaskPhase → Nat
  | .waiting => 0
  | .started => 1
  | .admitted => 2
  | .tallied _ => 3
  | .stored | .failed => 4

theorem TaskPhase.rank_le (phase : TaskPhase) : phase.rank ≤ 4 := by
  cases phase <;> simp [rank]

/-- How many steps have been made; being called off is one. -/
def TaskState.progress (state : TaskState) : Nat :=
  (state.phases.map TaskPhase.rank).sum + state.canceled.toNat

theorem sum_rank_set {phases : List TaskPhase} {phase : TaskPhase}
    (hphase : phases[task]? = some phase) (phase' : TaskPhase) :
    ((phases.set task phase').map TaskPhase.rank).sum + phase.rank =
      (phases.map TaskPhase.rank).sum + phase'.rank := by
  induction phases generalizing task with
  | nil => simp at hphase
  | cons first phases ih =>
    cases task with
    | zero =>
      obtain rfl : first = phase := by simpa using hphase
      simp only [List.set_cons_zero, List.map_cons, List.sum_cons]
      omega
    | succ task =>
      rw [List.getElem?_cons_succ] at hphase
      have hrest := ih hphase
      simp only [List.set_cons_succ, List.map_cons, List.sum_cons]
      omega

theorem progress_lt_of_step {step : ScheduleStep}
    (h : unit.step workers state step = some state') : state.progress < state'.progress := by
  obtain ⟨task, method, -, -, hadvance⟩ | ⟨-, hlive, rfl⟩ := step_cases h
  · cases hadvance with
    | start hphase hmay =>
      have hsum := sum_rank_set hphase .started
      simp only [TaskState.progress, TaskState.setPhase, TaskPhase.rank] at hsum ⊢
      omega
    | enter hphase hlive =>
      have hsum := sum_rank_set hphase .admitted
      simp only [TaskState.progress, TaskState.setPhase, TaskPhase.rank] at hsum ⊢
      omega
    | refuse hphase hcanceled =>
      have hsum := sum_rank_set hphase .failed
      simp only [TaskState.progress, TaskState.fail, TaskPhase.rank, hcanceled] at hsum ⊢
      omega
    | @tally tally hphase htally =>
      have hsum := sum_rank_set hphase (.tallied tally)
      simp only [TaskState.progress, TaskState.log, TaskPhase.rank] at hsum ⊢
      omega
    | fault hphase hfault =>
      have hsum := sum_rank_set hphase .failed
      have hcanceled := state.canceled.toNat_le
      simp only [TaskState.progress, TaskState.fail, TaskPhase.rank, Bool.toNat_true] at hsum ⊢
      omega
    | store hphase =>
      have hsum := sum_rank_set hphase .stored
      simp only [TaskState.progress, TaskState.store, TaskPhase.rank] at hsum ⊢
      omega
  · simp [TaskState.progress, hlive]

theorem progress_le (h : state.Consistent unit) : state.progress ≤ 4 * unit.methods.length + 1 := by
  have hsum : (state.phases.map TaskPhase.rank).sum ≤ 4 * state.phases.length := by
    induction state.phases with
    | nil => simp
    | cons phase phases ih =>
      have hrank := phase.rank_le
      simp only [List.map_cons, List.sum_cons, List.length_cons]
      omega
  have hcanceled := state.canceled.toNat_le
  rw [h.length_phases] at hsum
  simp only [TaskState.progress]
  omega

theorem progress_add_length_le {schedule : List ScheduleStep}
    (h : unit.follow workers state schedule = some state') :
    state.progress + schedule.length ≤ state'.progress := by
  induction schedule generalizing state with
  | nil =>
    cases h
    exact Nat.le_refl _
  | cons step schedule ih =>
    simp only [ClassUnit.follow] at h
    split at h
    · rename_i next hnext
      have hlt := progress_lt_of_step hnext
      have hrest := ih h
      rw [List.length_cons]
      omega
    · cases h

/-! ## Every schedule can be completed -/

theorem exists_advance_of_isActive {method : MethodUnit} {phase : TaskPhase}
    (hmethod : unit.methods[task]? = some method) (hphase : state.phases[task]? = some phase)
    (hactive : phase.isActive = true) : ∃ next, unit.advance workers state task = some next := by
  simp only [advance_eq_some_iff]
  cases phase with
  | started =>
    cases hcanceled : state.canceled with
    | true => exact ⟨_, method, hmethod, .refuse hphase hcanceled⟩
    | false => exact ⟨_, method, hmethod, .enter hphase hcanceled⟩
  | admitted =>
    cases htally : method.tally with
    | ok tally => exact ⟨_, method, hmethod, .tally hphase htally⟩
    | error fault => exact ⟨_, method, hmethod, .fault hphase htally⟩
  | tallied tally => exact ⟨_, method, hmethod, .store hphase⟩
  | waiting | stored | failed => cases hactive

theorem exists_advance_of_waiting {method : MethodUnit}
    (hmethod : unit.methods[task]? = some method)
    (hphase : state.phases[task]? = some .waiting)
    (hmay : unit.mayStart workers state task = true) :
    ∃ next, unit.advance workers state task = some next := by
  simp only [advance_eq_some_iff]
  exact ⟨_, method, hmethod, .start hphase hmay⟩

theorem TaskState.Consistent.exists_method {phase : TaskPhase} (h : state.Consistent unit)
    (hphase : state.phases[task]? = some phase) : ∃ method, unit.methods[task]? = some method := by
  have hlt : task < unit.methods.length := by
    rw [← h.length_phases]
    exact (List.getElem?_eq_some_iff.mp hphase).1
  exact ⟨_, List.getElem?_eq_getElem hlt⟩

theorem two_le_of_isParallel (h : unit.isParallel workers = true) : 2 ≤ workers.toInt := by
  simp only [ClassUnit.isParallel, Bool.and_eq_true, decide_eq_true_eq] at h
  exact Int64.le_iff_toInt_le.mp h.1

/-- Interleaved tasks: an active one can move on, and if none is active, a waiting one can start. -/
theorem exists_advance_of_isParallel (h : state.Consistent unit)
    (hparallel : unit.isParallel workers = true) (hover : unit.isOver workers state = false) :
    ∃ task next, unit.advance workers state task = some next := by
  by_cases hactive : ∃ phase ∈ state.phases, phase.isActive = true
  · obtain ⟨phase, hmem, hphase⟩ := hactive
    obtain ⟨task, htask⟩ := List.mem_iff_getElem?.mp hmem
    obtain ⟨method, hmethod⟩ := h.exists_method htask
    exact ⟨task, exists_advance_of_isActive hmethod htask hphase⟩
  · have hidle : state.phases.countP (·.isActive) = 0 := by
      rw [List.countP_eq_zero]
      intro phase hmem hphase
      exact hactive ⟨phase, hmem, hphase⟩
    simp only [ClassUnit.isOver, hparallel, Bool.not_true, Bool.false_and, Bool.or_false,
      List.all_eq_false] at hover
    obtain ⟨phase, hmem, hphase⟩ := hover
    obtain ⟨task, htask⟩ := List.mem_iff_getElem?.mp hmem
    obtain ⟨method, hmethod⟩ := h.exists_method htask
    have hwaiting : phase = .waiting := by
      cases phase with
      | waiting => rfl
      | started | admitted | tallied tally => exact absurd ⟨_, hmem, rfl⟩ hactive
      | stored | failed => exact absurd rfl hphase
    rw [hwaiting] at htask
    refine ⟨task, exists_advance_of_waiting hmethod htask ?_⟩
    have hworkers := two_le_of_isParallel hparallel
    simp only [ClassUnit.mayStart, hparallel, if_true, hidle, decide_eq_true_eq]
    omega

/-- Tasks in order: the first one that has not stored its tally can move on. -/
theorem exists_advance_of_not_isParallel (h : state.Consistent unit)
    (hparallel : unit.isParallel workers = false) (hover : unit.isOver workers state = false) :
    ∃ task next, unit.advance workers state task = some next := by
  simp only [ClassUnit.isOver, hparallel, Bool.not_false, Bool.true_and, Bool.or_eq_false_iff,
    List.all_eq_false, List.any_eq_false, decide_eq_true_eq] at hover
  obtain ⟨⟨phase, hmem, hphase⟩, hfailed⟩ := hover
  have hexists : ∃ phase ∈ state.phases, decide (phase ≠ .stored) = true := by
    refine ⟨phase, hmem, decide_eq_true ?_⟩
    rintro rfl
    exact hphase rfl
  have hlt := List.findIdx_lt_length_of_exists hexists
  have hfirst := List.findIdx_getElem (w := hlt)
  have hbefore : (state.phases.take (state.phases.findIdx fun p => decide (p ≠ .stored))).all
      (· = .stored) = true := by
    rw [List.all_eq_true]
    intro other hother
    obtain ⟨i, hi, rfl⟩ := List.mem_take_iff_getElem.mp hother
    have hlt : i < state.phases.findIdx fun p => decide (p ≠ .stored) := by omega
    simpa using List.not_of_lt_findIdx hlt
  generalize state.phases.findIdx (fun p => decide (p ≠ .stored)) = task at hlt hfirst hbefore
  have htask : state.phases[task]? = some state.phases[task] := List.getElem?_eq_getElem hlt
  obtain ⟨method, hmethod⟩ := h.exists_method htask
  have hmem' : state.phases[task] ∈ state.phases := List.getElem_mem hlt
  generalize state.phases[task] = current at htask hfirst hmem'
  refine ⟨task, ?_⟩
  cases current with
  | waiting =>
    refine exists_advance_of_waiting hmethod htask ?_
    simpa only [ClassUnit.mayStart, hparallel, Bool.false_eq_true, if_false] using hbefore
  | started | admitted | tallied tally => exact exists_advance_of_isActive hmethod htask rfl
  | stored => simp at hfirst
  | failed => exact absurd rfl (hfailed _ hmem')

theorem exists_advance (h : state.Consistent unit) (hover : unit.isOver workers state = false) :
    ∃ task next, unit.advance workers state task = some next := by
  cases hparallel : unit.isParallel workers with
  | true => exact exists_advance_of_isParallel h hparallel hover
  | false => exact exists_advance_of_not_isParallel h hparallel hover

theorem exists_completion (workers : Int64) (h : state.Consistent unit) :
    ∃ more next, .cancel ∉ more ∧ unit.follow workers state more = some next ∧
      unit.isOver workers next = true := by
  induction hleft : 4 * unit.methods.length + 1 - state.progress using Nat.strongRecOn
    generalizing state with
  | ind left ih =>
    cases hover : unit.isOver workers state with
    | true => exact ⟨[], state, by simp, rfl, hover⟩
    | false =>
      obtain ⟨task, next, hadvance⟩ := exists_advance h hover
      obtain ⟨method, hmethod, hmoves⟩ := advance_eq_some_iff.mp hadvance
      have hnext : next.Consistent unit := h.advance hmethod hmoves
      have hstep : unit.step workers state (.advance task) = some next := hadvance
      have hlt := progress_lt_of_step hstep
      have hle := progress_le hnext
      obtain ⟨more, last, hmore, hfollow, hend⟩ := ih _ (by omega) hnext rfl
      refine ⟨.advance task :: more, last, by simp [hmore], ?_, hend⟩
      simp only [ClassUnit.follow, ClassUnit.step, hadvance, hfollow]

/-! ## Results -/

/-- At the end of a run without failure every task has stored its tally. -/
theorem TaskState.Consistent.eq_stored (h : state.Consistent unit)
    (hover : unit.isOver workers state = true) (hfailures : state.failures = []) :
    ∀ phase ∈ state.phases, phase = .stored := by
  have hfailed : .failed ∉ state.phases := by
    rw [h.failed_iff]
    simp [hfailures]
  intro phase hmem
  simp only [ClassUnit.isOver, Bool.or_eq_true, List.all_eq_true, Bool.and_eq_true,
    List.any_eq_true, decide_eq_true_eq] at hover
  obtain hended | ⟨-, other, hother, rfl⟩ := hover
  · have hphase := hended phase hmem
    cases phase with
    | stored => rfl
    | failed => exact absurd hmem hfailed
    | waiting | started | admitted | tallied tally => cases hphase
  · exact absurd hother hfailed

/-- Tallies of methods, one for each and in their order. -/
abbrev TalliesOf (methods : List MethodUnit) (tallies : List Tally) : Prop :=
  List.Forall₂ (fun method tally => method.tally = .ok tally) methods tallies

theorem TalliesOf.exists_tally {methods : List MethodUnit} {tallies : List Tally}
    (h : TalliesOf methods tallies) {method : MethodUnit} (hmem : method ∈ methods) :
    ∃ tally, method.tally = .ok tally := by
  induction h with
  | nil => simp at hmem
  | @cons first tally methods tallies htally _ ih =>
    obtain rfl | hmem := List.mem_cons.mp hmem
    · exact ⟨tally, htally⟩
    · exact ih hmem

theorem TalliesOf.unique {methods : List MethodUnit} {tallies tallies' : List Tally}
    (h : TalliesOf methods tallies) (h' : TalliesOf methods tallies') : tallies = tallies' := by
  have hpass := Outcome.mapM_eq_ok_iff.mpr h
  rw [Outcome.mapM_eq_ok_iff.mpr h'] at hpass
  exact (Except.ok.inj hpass).symm

theorem exists_talliesOf {methods : List MethodUnit}
    (h : ∀ method ∈ methods, ∃ tally, method.tally = .ok tally) :
    ∃ tallies, TalliesOf methods tallies := by
  induction methods with
  | nil => exact ⟨[], .nil⟩
  | cons method methods ih =>
    obtain ⟨tally, htally⟩ := h method List.mem_cons_self
    obtain ⟨tallies, htallies⟩ := ih fun other hmem => h other (List.mem_cons_of_mem method hmem)
    exact ⟨tally :: tallies, .cons htally htallies⟩

theorem TaskState.Consistent.talliesOf (h : state.Consistent unit)
    (hstored : ∀ phase ∈ state.phases, phase = .stored) : TalliesOf unit.methods state.tallies := by
  rw [TalliesOf, List.forall₂_iff_get]
  refine ⟨h.length_tallies.symm, fun i hmethod htally => ?_⟩
  have hlt : i < state.phases.length := by
    rw [h.length_phases]
    exact hmethod
  have hphase : state.phases[i]? = some .stored := by
    rw [List.getElem?_eq_getElem hlt, hstored _ (List.getElem_mem hlt)]
  obtain ⟨tally, hslot, hok⟩ := h.agrees (List.getElem?_eq_getElem hmethod) hphase
  rw [List.getElem?_eq_getElem htally] at hslot
  rw [List.get_eq_getElem, List.get_eq_getElem, hok, ← Option.some.inj hslot]

/-- Once every task has stored its tally, there is one record for each method. -/
theorem loggedRecords_eq_zipWith {methods : List MethodUnit} {tallies : List Tally}
    {phases : List TaskPhase} (h : TalliesOf methods tallies)
    (hlength : phases.length = methods.length) (hstored : ∀ phase ∈ phases, phase = .stored) :
    loggedRecords methods phases = methods.zipWith methodRecord tallies := by
  induction h generalizing phases with
  | nil => rfl
  | @cons method tally methods tallies htally _ ih =>
    cases phases with
    | nil => simp at hlength
    | cons phase phases =>
      have hphase : phase = .stored := hstored phase List.mem_cons_self
      have hrest := ih (Nat.succ.inj hlength) fun other hmem =>
        hstored other (List.mem_cons_of_mem phase hmem)
      rw [loggedRecords_cons, hrest, hphase, TaskPhase.record?, htally]
      rfl

theorem classifyOnto_eq_ok {methods : List MethodUnit} {found : List Tally}
    (h : TalliesOf methods found) (tallies : List Tally) (records : List Record) :
    classifyOnto false tallies records methods =
      (.ok (tallies.reverse ++ found), records.reverse ++ methods.zipWith methodRecord found) := by
  induction h generalizing tallies records with
  | nil => simp [classifyOnto]
  | cons htally _ ih =>
    simp [classifyOnto, MethodUnit.classify, htally, ih, List.zipWith_cons_cons]

/-- The analysis of a class in the order of its methods, if nobody calls it off. -/
theorem analyze_eq_conclude {tallies : List Tally} (h : TalliesOf unit.methods tallies) :
    unit.analyze false =
      unit.conclude (.ok tallies) (unit.methods.zipWith methodRecord tallies) := by
  rw [ClassUnit.analyze, classifyOnto_eq_ok h]
  rfl

theorem analyzeUnder_eq_some_iff {canceled : Bool} {schedule : List ScheduleStep}
    {run : AnalysisRun} : unit.analyzeUnder workers canceled schedule = some run ↔
      ∃ state, unit.follow workers (.start unit canceled) schedule = some state ∧
        unit.isOver workers state = true ∧ unit.conclude state.outcome state.records = run := by
  unfold ClassUnit.analyzeUnder
  cases unit.follow workers (.start unit canceled) schedule with
  | none => simp
  | some state => simp

theorem TaskState.outcome_eq_ok_iff {tallies : List Tally} :
    state.outcome = .ok tallies ↔ state.failures = [] ∧ state.tallies = tallies := by
  unfold TaskState.outcome
  cases state.failures <;> simp

theorem conclude_outcome_eq_ok_iff {outcome : Except AnalysisCause (List Tally)}
    {records : List Record} {analysis : Analysis} :
    (unit.conclude outcome records).outcome = .ok analysis ↔
      ∃ tallies, outcome = .ok tallies ∧ analysis = .ofTallies unit tallies := by
  cases outcome with
  | ok tallies => simp [ClassUnit.conclude, eq_comm]
  | error cause => simp [ClassUnit.conclude]

/-- Under any schedule, a run that comes to a result has tallied every method and made one record
of each. -/
theorem exists_talliesOf_of_analyzeUnder {canceled : Bool} {schedule : List ScheduleStep}
    {run : AnalysisRun} {analysis : Analysis}
    (hrun : unit.analyzeUnder workers canceled schedule = some run)
    (hok : run.outcome = .ok analysis) :
    ∃ tallies records, TalliesOf unit.methods tallies ∧ analysis = .ofTallies unit tallies ∧
      run = unit.conclude (.ok tallies) records ∧
      records.Perm (unit.methods.zipWith methodRecord tallies) := by
  obtain ⟨state, hfollow, hover, rfl⟩ := analyzeUnder_eq_some_iff.mp hrun
  obtain ⟨tallies, houtcome, rfl⟩ := conclude_outcome_eq_ok_iff.mp hok
  obtain ⟨hfailures, rfl⟩ := TaskState.outcome_eq_ok_iff.mp houtcome
  have hconsistent := consistent_follow hfollow
  have hstored := hconsistent.eq_stored hover hfailures
  have htallies := hconsistent.talliesOf hstored
  refine ⟨state.tallies, state.records, htallies, rfl, by rw [houtcome], ?_⟩
  rw [← loggedRecords_eq_zipWith htallies hconsistent.length_phases hstored]
  exact hconsistent.records

/-- Where all methods can be tallied and nobody calls the run off, no task fails. -/
theorem failures_eq_nil_of_follow {schedule : List ScheduleStep}
    (htallies : ∀ method ∈ unit.methods, ∃ tally, method.tally = .ok tally)
    (hcancel : .cancel ∉ schedule)
    (h : unit.follow workers (.start unit false) schedule = some state) : state.failures = [] := by
  have hlive : state.canceled = false ∧ state.failures = [] := by
    refine follow_preserves (fun state => state.canceled = false ∧ state.failures = []) ?_
      ⟨rfl, rfl⟩ h
    rintro before after step hmem ⟨hcanceled, hfailures⟩ hstep
    obtain ⟨task, method, -, hmethod, hadvance⟩ | ⟨rfl, -, -⟩ := step_cases hstep
    · cases hadvance with
      | start | enter | tally | store => exact ⟨hcanceled, hfailures⟩
      | refuse hphase htrue => simp [hcanceled] at htrue
      | fault hphase hfault =>
        obtain ⟨tally, htally⟩ := htallies method (List.mem_of_getElem? hmethod)
        simp [hfault] at htally
    · exact absurd hmem hcancel
  exact hlive.2

/-- In a run that was called off no task gets past its look at that. -/
structure TaskState.Refuses (unit : ClassUnit) (state : TaskState) : Prop where
  canceled : state.canceled = true
  phases : ∀ phase ∈ state.phases, phase = .waiting ∨ phase = .started ∨ phase = .failed
  failures : ∀ cause ∈ state.failures, ∃ method ∈ unit.methods, cause = .canceled method.name

theorem TaskState.Refuses.advance {method : MethodUnit} (h : state.Refuses unit)
    (hmethod : unit.methods[task]? = some method)
    (hadvance : Advances unit workers state task method state') : state'.Refuses unit := by
  cases hadvance with
  | start hphase hmay =>
    refine ⟨h.canceled, fun phase hmem => ?_, h.failures⟩
    obtain hmem | rfl := List.mem_or_eq_of_mem_set hmem
    · exact h.phases phase hmem
    · exact .inr (.inl rfl)
  | enter hphase hlive => simp [h.canceled] at hlive
  | refuse hphase hcanceled =>
    refine ⟨rfl, fun phase hmem => ?_, fun cause hmem => ?_⟩
    · obtain hmem | rfl := List.mem_or_eq_of_mem_set hmem
      · exact h.phases phase hmem
      · exact .inr (.inr rfl)
    · obtain hmem | hmem := List.mem_append.mp hmem
      · exact h.failures cause hmem
      · exact ⟨method, List.mem_of_getElem? hmethod, List.mem_singleton.mp hmem⟩
  | tally hphase htally | fault hphase hfault | store hphase =>
    have hmem := h.phases _ (List.mem_of_getElem? hphase)
    simp at hmem

theorem refuses_of_follow {schedule : List ScheduleStep}
    (h : unit.follow workers (.start unit true) schedule = some state) : state.Refuses unit := by
  have hstart : (TaskState.start unit true).Refuses unit := by
    refine ⟨rfl, fun phase hmem => ?_, by simp [TaskState.start]⟩
    obtain ⟨method, -, rfl⟩ := List.mem_map.mp hmem
    exact .inl rfl
  refine follow_preserves (·.Refuses unit) (fun _ hbefore hstep => ?_) hstart h
  obtain ⟨task, method, -, hmethod, hadvance⟩ | ⟨-, hlive, -⟩ := step_cases hstep
  · exact hbefore.advance hmethod hadvance
  · simp [hbefore.canceled] at hlive

/-- A run that was called off before it began ends with the failure of a task that says so. -/
theorem exists_canceled_of_analyzeUnder {schedule : List ScheduleStep} {run : AnalysisRun}
    (hmethods : unit.methods ≠ []) (hrun : unit.analyzeUnder workers true schedule = some run) :
    ∃ method ∈ unit.methods, run.outcome = .error ⟨unit.name, .canceled method.name⟩ := by
  obtain ⟨state, hfollow, hover, rfl⟩ := analyzeUnder_eq_some_iff.mp hrun
  have hconsistent := consistent_follow hfollow
  have hrefuses := refuses_of_follow hfollow
  cases hfailures : state.failures with
  | nil =>
    -- every task would have stored a tally, but none gets that far
    have hstored := hconsistent.eq_stored hover hfailures
    obtain ⟨phase, phases, hphases⟩ := List.exists_cons_of_length_pos (l := state.phases) (by
      rw [hconsistent.length_phases]
      exact List.length_pos_iff.mpr hmethods)
    have hmem : phase ∈ state.phases := by simp [hphases]
    have hphase := hrefuses.phases phase hmem
    rw [hstored phase hmem] at hphase
    simp at hphase
  | cons cause failures =>
    obtain ⟨method, hmem, rfl⟩ := hrefuses.failures cause (by simp [hfailures])
    refine ⟨method, hmem, ?_⟩
    simp [ClassUnit.conclude, TaskState.outcome, hfailures]

/-- Whatever the schedule, as long as nobody calls the run off on the way, it comes to an end after
a bounded number of steps, and it then leaves something behind of which a property holds. -/
structure ClassUnit.AlwaysEnds (unit : ClassUnit) (workers : Int64) (canceled : Bool)
    (holds : AnalysisRun → Prop) : Prop where
  length_le : ∀ schedule state, unit.follow workers (.start unit canceled) schedule = some state →
    schedule.length ≤ 4 * unit.methods.length + 1
  exists_end : ∀ schedule state, unit.follow workers (.start unit canceled) schedule = some state →
    ∃ more run, .cancel ∉ more ∧ unit.analyzeUnder workers canceled (schedule ++ more) = some run
  holds_end : ∀ schedule run, .cancel ∉ schedule →
    unit.analyzeUnder workers canceled schedule = some run → holds run

theorem alwaysEnds {canceled : Bool} {holds : AnalysisRun → Prop}
    (h : ∀ schedule run, .cancel ∉ schedule →
      unit.analyzeUnder workers canceled schedule = some run → holds run) :
    unit.AlwaysEnds workers canceled holds where
  length_le := by
    intro schedule state hfollow
    have hlength := progress_add_length_le hfollow
    have hle := progress_le (consistent_follow hfollow)
    omega
  exists_end := by
    intro schedule state hfollow
    obtain ⟨more, last, hmore, hlast, hover⟩ :=
      exists_completion workers (consistent_follow hfollow)
    refine ⟨more, _, hmore, analyzeUnder_eq_some_iff.mpr ⟨last, ?_, hover, rfl⟩⟩
    rw [follow_append, hfollow]
    exact hlast
  holds_end := h

/-- A run that nobody calls off always comes to the result of the methods in their order. -/
theorem alwaysEnds_of_talliesOf {tallies : List Tally} (h : TalliesOf unit.methods tallies)
    (workers : Int64) :
    unit.AlwaysEnds workers false fun run => run.outcome = .ok (.ofTallies unit tallies) := by
  refine alwaysEnds fun schedule run hcancel hrun => ?_
  obtain ⟨state, hfollow, hover, rfl⟩ := analyzeUnder_eq_some_iff.mp hrun
  have hfailures := failures_eq_nil_of_follow (fun _ => h.exists_tally) hcancel hfollow
  have hconsistent := consistent_follow hfollow
  have hstored := hconsistent.talliesOf (hconsistent.eq_stored hover hfailures)
  have houtcome : state.outcome = .ok tallies :=
    TaskState.outcome_eq_ok_iff.mpr ⟨hfailures, hstored.unique h⟩
  rw [houtcome]
  rfl

/-- A result that any workers come to is that of the methods in their order. -/
theorem outcome_analyze_of_analyzeBy {schedule : List ScheduleStep} {analysis : Analysis}
    (h : (unit.analyzeBy workers schedule).outcome = .ok analysis) :
    (unit.analyze false).outcome = .ok analysis := by
  unfold ClassUnit.analyzeBy at h
  cases hrun : unit.analyzeUnder workers false schedule with
  | none =>
    rw [hrun] at h
    exact h
  | some run =>
    rw [hrun] at h
    obtain ⟨tallies, -, htallies, rfl, -, -⟩ := exists_talliesOf_of_analyzeUnder hrun h
    rw [analyze_eq_conclude htallies]
    rfl

theorem outcome_analyzeBy_of_talliesOf {schedule : List ScheduleStep} {tallies : List Tally}
    (h : TalliesOf unit.methods tallies) (hcancel : .cancel ∉ schedule) :
    (unit.analyzeBy workers schedule).outcome = .ok (.ofTallies unit tallies) := by
  unfold ClassUnit.analyzeBy
  cases hrun : unit.analyzeUnder workers false schedule with
  | none =>
    rw [Option.getD_none, analyze_eq_conclude h]
    rfl
  | some run => exact (alwaysEnds_of_talliesOf h workers).holds_end schedule run hcancel hrun

theorem TaskState.Consistent.exists_outcome_eq_error_iff (h : state.Consistent unit) :
    (∃ cause, state.outcome = .error cause) ↔ .failed ∈ state.phases := by
  rw [h.failed_iff, TaskState.outcome]
  cases state.failures <;> simp

/-- A run ends with an error, and with nothing of a result, exactly if a task has failed. -/
theorem exists_eq_conclude_error_iff {canceled : Bool} {schedule : List ScheduleStep}
    {run : AnalysisRun} (hfollow : unit.follow workers (.start unit canceled) schedule = some state)
    (hrun : unit.analyzeUnder workers canceled schedule = some run) :
    (∃ cause, run = unit.conclude (.error cause) state.records) ↔ .failed ∈ state.phases := by
  obtain ⟨state', hfollow', -, rfl⟩ := analyzeUnder_eq_some_iff.mp hrun
  rw [hfollow] at hfollow'
  cases hfollow'
  rw [← (consistent_follow hfollow).exists_outcome_eq_error_iff]
  constructor
  · rintro ⟨cause, hconclude⟩
    cases houtcome : state.outcome with
    | ok tallies =>
      rw [houtcome] at hconclude
      have hboth := congrArg AnalysisRun.outcome hconclude
      cases hboth
    | error cause' => exact ⟨cause', rfl⟩
  · rintro ⟨cause, houtcome⟩
    exact ⟨cause, by rw [houtcome]⟩

theorem countP_isActive_set_le_succ (phases : List TaskPhase) (task : Nat) (phase : TaskPhase) :
    (phases.set task phase).countP (·.isActive) ≤ phases.countP (·.isActive) + 1 := by
  by_cases hlt : task < phases.length
  · rw [List.countP_set hlt]
    split <;> split <;> omega
  · rw [List.set_eq_of_length_le (Nat.le_of_not_lt hlt)]
    omega

/-- An active task that moves on leaves at most as many active. -/
theorem countP_isActive_set_le {phases : List TaskPhase} {phase : TaskPhase}
    (hphase : phases[task]? = some phase) (hactive : phase.isActive = true) (phase' : TaskPhase) :
    (phases.set task phase').countP (·.isActive) ≤ phases.countP (·.isActive) := by
  obtain ⟨hlt, hget⟩ := List.getElem?_eq_some_iff.mp hphase
  have hpos : 0 < phases.countP (·.isActive) :=
    List.countP_pos_iff.mpr ⟨phase, List.mem_of_getElem? hphase, hactive⟩
  rw [List.countP_set hlt, hget, if_pos hactive]
  split <;> omega

/-- Where tasks are interleaved, no more of them are active than there are workers. -/
theorem countP_isActive_le {canceled : Bool} {schedule : List ScheduleStep}
    (hparallel : unit.isParallel workers = true)
    (h : unit.follow workers (.start unit canceled) schedule = some state) :
    (state.phases.countP (·.isActive) : Int) ≤ workers.toInt := by
  refine follow_preserves (fun state => (state.phases.countP (·.isActive) : Int) ≤ workers.toInt)
    ?_ ?_ h
  · intro before after step _ hbefore hstep
    obtain ⟨task, method, -, -, hadvance⟩ | ⟨-, -, rfl⟩ := step_cases hstep
    · cases hadvance with
      | start hphase hmay =>
        have hle := countP_isActive_set_le_succ before.phases task .started
        simp only [ClassUnit.mayStart, hparallel, if_true, decide_eq_true_eq] at hmay
        exact Int.le_trans (Int.ofNat_le.mpr hle) (Int.add_one_le_of_lt hmay)
      | enter hphase | refuse hphase | tally hphase | fault hphase | store hphase =>
        exact Int.le_trans (Int.ofNat_le.mpr (countP_isActive_set_le hphase rfl _)) hbefore
    · exact hbefore
  · have hworkers := two_le_of_isParallel hparallel
    have hnone : (TaskState.start unit canceled).phases.countP (·.isActive) = 0 := by
      simp [TaskState.start, TaskPhase.isActive]
    omega

theorem map_tally_zipWith {methods : List MethodUnit} {tallies : List Tally}
    (h : TalliesOf methods tallies) :
    (methods.zipWith MethodReport.of tallies).map MethodReport.tally = tallies := by
  induction h with
  | nil => rfl
  | cons _ _ ih =>
    rw [List.zipWith_cons_cons, List.map_cons, ih]
    rfl

/-- However the tasks of an analysis are scheduled, and whenever it is called off: no more tasks are
active than there are workers; a result is the result of tallying the methods one after the other,
with one record for each method and one for the class; without being called off, the analysis comes
to a result; being called off before it begins, it fails for that reason; and it ends with an error,
and nothing of a result, exactly if a task has failed. -/
theorem analyzeUnder_eq_analyze (unit : ClassUnit) (workers : Int64) :
    (∀ canceled schedule state, unit.isParallel workers = true →
      unit.follow workers (.start unit canceled) schedule = some state →
        (state.phases.countP (·.isActive) : Int) ≤ workers.toInt) ∧
    (∀ canceled schedule run analysis, unit.analyzeUnder workers canceled schedule = some run →
      run.outcome = .ok analysis →
        (unit.analyze false).outcome = .ok analysis ∧
        ∃ made inOrder, made.Perm inOrder ∧
          inOrder = unit.methods.zipWith methodRecord (analysis.methods.map MethodReport.tally) ∧
          run.records = made ++ [classRecord unit.name analysis.tally] ∧
          (unit.analyze false).records = inOrder ++ [classRecord unit.name analysis.tally]) ∧
    ((∀ method ∈ unit.methods, method.events.length < 9223372036854775808) →
      unit.AlwaysEnds workers false fun run => ∃ analysis, run.outcome = .ok analysis) ∧
    (unit.methods ≠ [] → unit.AlwaysEnds workers true fun run =>
      ∃ method ∈ unit.methods, run.outcome = .error ⟨unit.name, .canceled method.name⟩) ∧
    ∀ canceled schedule state run,
      unit.follow workers (.start unit canceled) schedule = some state →
      unit.analyzeUnder workers canceled schedule = some run →
        ((∃ cause, run = unit.conclude (.error cause) state.records) ↔ .failed ∈ state.phases) := by
  refine ⟨fun _ _ _ hparallel h => countP_isActive_le hparallel h, ?_, ?_, ?_,
    fun _ _ _ _ hfollow hrun => exists_eq_conclude_error_iff hfollow hrun⟩
  · intro canceled schedule run analysis hrun hok
    obtain ⟨tallies, records, htallies, rfl, rfl, hperm⟩ :=
      exists_talliesOf_of_analyzeUnder hrun hok
    rw [analyze_eq_conclude htallies, Analysis.ofTallies, map_tally_zipWith htallies]
    exact ⟨rfl, records, _, hperm, rfl, rfl, rfl⟩
  · intro hevents
    obtain ⟨tallies, htallies⟩ := exists_talliesOf fun method hmem =>
      ⟨_, method.tally_eq_ok (hevents method hmem)⟩
    have hends := alwaysEnds_of_talliesOf htallies workers
    exact alwaysEnds fun schedule run hcancel hrun => ⟨_, hends.holds_end schedule run hcancel hrun⟩
  · intro hmethods
    exact alwaysEnds fun schedule run _ hrun => exists_canceled_of_analyzeUnder hmethods hrun

/-- A class with two methods that hold a monitor. -/
def pairOfMethods : ClassUnit where
  name := utf8 "P"
  fields := []
  methods :=
    [{ name := utf8 "f", descriptor := utf8 "()V", isSynchronized := true
       events := [⟨.plain, 0, .other⟩] },
      { name := utf8 "g", descriptor := utf8 "()V", isSynchronized := false
        events := [⟨.plain, 194, .monitorEnter⟩, ⟨.plain, 195, .monitorExit⟩] }]

/-- The second of two tasks overtakes the first. -/
def overtaking : List ScheduleStep :=
  [.advance 0, .advance 1, .advance 1, .advance 1, .advance 0, .advance 1, .advance 0, .advance 0]

theorem analyzeUnder_eq_analyze_overtaking :
    (∃ run analysis, pairOfMethods.analyzeUnder 2 false overtaking = some run ∧
      run.outcome = .ok analysis ∧ (pairOfMethods.analyze false).outcome = .ok analysis) ∧
    (pairOfMethods.AlwaysEnds 2 false fun run => ∃ analysis, run.outcome = .ok analysis) ∧
    pairOfMethods.AlwaysEnds 2 true fun run =>
      ∃ method ∈ pairOfMethods.methods,
        run.outcome = .error ⟨utf8 "P", .canceled method.name⟩ := by
  obtain ⟨-, hresult, hlive, hcanceled, -⟩ := analyzeUnder_eq_analyze pairOfMethods 2
  refine ⟨⟨_, _, rfl, rfl, (hresult false overtaking _ _ rfl rfl).1⟩, hlive ?_, hcanceled ?_⟩
  · decide
  · decide

end MonitorCoverage.Lock
