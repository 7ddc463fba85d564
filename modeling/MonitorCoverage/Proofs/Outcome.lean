import Mathlib.Data.List.Forall2

/-!
# Computations that can fail

A chain of computations succeeds if each of them does. A pass over a list succeeds if it does for
every element, and otherwise fails as it does for the first element that it fails for.
-/

namespace MonitorCoverage.Outcome

variable {ε α β : Type}

theorem bind_eq_ok_iff {x : Except ε α} {f : α → Except ε β} {b : β} :
    (x >>= f) = .ok b ↔ ∃ a, x = .ok a ∧ f a = .ok b := by
  cases x with
  | ok a => simp [Bind.bind, Except.bind]
  | error e => simp [Bind.bind, Except.bind]

theorem pure_eq_ok_iff {a b : α} : (pure a : Except ε α) = .ok b ↔ b = a := by
  simp [pure, Except.pure, eq_comm]

theorem mapM_eq_ok_iff {f : α → Except ε β} {items : List α} {values : List β} :
    items.mapM f = .ok values ↔
      List.Forall₂ (fun item value => f item = .ok value) items values := by
  induction items generalizing values with
  | nil => simp [pure_eq_ok_iff]
  | cons item items ih =>
    simp only [List.mapM_cons, bind_eq_ok_iff, pure_eq_ok_iff, List.forall₂_cons_left_iff, ih]
    constructor
    · rintro ⟨value, hvalue, values, hvalues, rfl⟩
      exact ⟨value, values, hvalue, hvalues, rfl⟩
    · rintro ⟨value, values, hvalue, hvalues, rfl⟩
      exact ⟨value, hvalue, values, hvalues, rfl⟩

/-- A pass that reaches an element it fails for fails as it does for that element. -/
theorem mapM_append_cons_eq_error {f : α → Except ε β} {before after : List α} {item : α} {e : ε}
    (hbefore : ∀ other ∈ before, ∃ value, f other = .ok value) (hitem : f item = .error e) :
    (before ++ item :: after).mapM f = .error e := by
  induction before with
  | nil => rw [List.nil_append, List.mapM_cons, hitem]; rfl
  | cons first before ih =>
    obtain ⟨value, hvalue⟩ := hbefore first List.mem_cons_self
    have hrest := ih fun other hother => hbefore other (List.mem_cons_of_mem first hother)
    rw [List.cons_append, List.mapM_cons, hvalue, hrest]
    rfl

end MonitorCoverage.Outcome
