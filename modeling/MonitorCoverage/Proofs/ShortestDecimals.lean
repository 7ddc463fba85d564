import Mathlib.Tactic.Ring
import MonitorCoverage.Proofs.DecimalText

/-!
# Shortest decimals are read back

The quotients that round to a magnitude are those between the midpoints to its neighbours, and each
quotient rounds to one magnitude. On a grid of seventeen digits, steps are smaller than the distance
of these midpoints. So the search for a shortest decimal always finds one, and what it finds is read
back as the number that it was found for.
-/

namespace MonitorCoverage.Binary64

/-! ## Magnitudes by scale and digits -/

/-- At one scale, units grow with the digits. The digits of the next power of two belong to both
scales. -/
theorem unitsOf_scale {s r : Nat} (hle : r ≤ 2 * fractions) (hfull : s = 0 ∨ fractions ≤ r) :
    unitsOf (s * fractions + r) = r * Nat.pow 2 s := by
  by_cases hlt : r < fractions
  · obtain rfl : s = 0 := by omega
    rw [Nat.zero_mul, Nat.zero_add, unitsOf_of_lt hlt]
    exact (Nat.mul_one r).symm
  rw [unitsOf_of_le (by omega)]
  rw [fractions_eq] at hle hlt ⊢
  by_cases hnext : r = 2 * 4503599627370496
  · have hmod : (s * 4503599627370496 + r) % 4503599627370496 = 0 := by omega
    have hdiv : (s * 4503599627370496 + r) / 4503599627370496 - 1 = s + 1 := by omega
    rw [hmod, hdiv, hnext, Nat.add_zero, Nat.mul_comm 2, Nat.mul_assoc, Nat.mul_comm 2]
    rfl
  · have hmod : 4503599627370496 + (s * 4503599627370496 + r) % 4503599627370496 = r := by omega
    have hdiv : (s * 4503599627370496 + r) / 4503599627370496 - 1 = s := by omega
    rw [hmod, hdiv]

theorem exists_scale (m : Nat) :
    ∃ s r, m = s * fractions + r ∧ r < 2 * fractions ∧ (s = 0 ∨ fractions ≤ r) := by
  rw [fractions_eq]
  by_cases hlt : m < 4503599627370496
  · exact ⟨0, m, by omega, by omega, .inl rfl⟩
  · exact ⟨m / 4503599627370496 - 1, 4503599627370496 + m % 4503599627370496, by omega, by omega,
      .inr (by omega)⟩

theorem le_unitsOf_succ {s r : Nat} (hle : r ≤ 2 * fractions) (hfull : s = 0 ∨ fractions ≤ r) :
    (r + 1) * Nat.pow 2 s ≤ unitsOf (s * fractions + r + 1) := by
  obtain hlt | rfl := Nat.lt_or_eq_of_le hle
  · rw [Nat.add_assoc, unitsOf_scale hlt (by omega)]
  · have hnext : s * fractions + 2 * fractions + 1 = (s + 1) * fractions + (fractions + 1) := by
      rw [fractions_eq]
      omega
    have hpow : Nat.pow 2 (s + 1) = 2 * Nat.pow 2 s := Nat.mul_comm _ _
    rw [hnext, unitsOf_scale (by rw [fractions_eq]; omega) (.inr (by omega)), hpow, ← Nat.mul_assoc]
    exact Nat.mul_le_mul_right _ (by omega)

/-- Below a power of two, the distance to the next smaller magnitude is half of that above it. -/
theorem unitsOf_pred {s r : Nat} (hpos : 0 < r) (hle : r ≤ 2 * fractions)
    (hfull : s = 0 ∨ fractions ≤ r) :
    unitsOf (s * fractions + r - 1) = (r - 1) * Nat.pow 2 s ∨
    ∃ t, s = t + 1 ∧ r = fractions ∧
      unitsOf (s * fractions + r - 1) = (2 * fractions - 1) * Nat.pow 2 t := by
  rw [Nat.add_sub_assoc hpos]
  by_cases hhalf : s = 0 ∨ fractions ≤ r - 1
  · exact .inl (unitsOf_scale (by omega) hhalf)
  · obtain ⟨t, rfl⟩ : ∃ t, s = t + 1 := ⟨s - 1, by omega⟩
    have hr : r = fractions := by omega
    have hsplit : (t + 1) * fractions + (r - 1) = t * fractions + (2 * fractions - 1) := by
      rw [hr, fractions_eq]
      omega
    refine .inr ⟨t, rfl, hr, ?_⟩
    rw [hsplit, unitsOf_scale (by omega) (.inr (by rw [fractions_eq]; omega))]

theorem unitsOf_lt_succ (m : Nat) : unitsOf m < unitsOf (m + 1) := by
  obtain ⟨s, r, rfl, hlt, hfull⟩ := exists_scale m
  have hnext := le_unitsOf_succ (Nat.le_of_lt hlt) hfull
  rw [unitsOf_scale (Nat.le_of_lt hlt) hfull]
  rw [Nat.succ_mul] at hnext
  have hpos : 0 < Nat.pow 2 s := Nat.two_pow_pos s
  omega

theorem unitsOf_lt {m n : Nat} (h : m < n) : unitsOf m < unitsOf n :=
  Nat.lt_of_lt_of_le (unitsOf_lt_succ m) (unitsOf_mono h)

/-- Neighbouring magnitudes are farther apart than steps on a grid of seventeen digits. -/
theorem unitsOf_gap {m : Nat} (hpos : 0 < m) :
    2 * unitsOf m + Nat.pow 10 16 * unitsOf (m - 1) < Nat.pow 10 16 * unitsOf (m + 1) := by
  obtain ⟨s, r, rfl, hlt, hfull⟩ := exists_scale m
  have hr : 0 < r := by
    obtain rfl | hfull := hfull
    · omega
    · exact Nat.lt_of_lt_of_le (by decide) hfull
  have hten : Nat.pow 10 16 = 10000000000000000 := rfl
  have hnext := le_unitsOf_succ (Nat.le_of_lt hlt) hfull
  rw [unitsOf_scale (Nat.le_of_lt hlt) hfull, hten]
  obtain hpred | ⟨t, rfl, rfl, hpred⟩ := unitsOf_pred hr (Nat.le_of_lt hlt) hfull
  · have hpow : 0 < Nat.pow 2 s := Nat.two_pow_pos s
    have hdigits : r * Nat.pow 2 s ≤ 9007199254740991 * Nat.pow 2 s :=
      Nat.mul_le_mul_right _ (by rw [fractions_eq] at hlt; omega)
    rw [Nat.succ_mul] at hnext
    rw [hpred, Nat.sub_one_mul]
    omega
  · have hpow : 0 < Nat.pow 2 t := Nat.two_pow_pos t
    have hdouble : Nat.pow 2 (t + 1) = Nat.pow 2 t * 2 := rfl
    rw [hdouble] at hnext ⊢
    rw [hpred]
    rw [fractions_eq] at hnext ⊢
    omega

/-! ## Rounding to the nearest magnitude -/

/-- A quotient of units between the midpoints to the neighbours of a magnitude. The midpoints belong
to it iff it is even. -/
structure IsRoundedTo (num den m : Nat) : Prop where
  low_le : (unitsOf (m - 1) + unitsOf m) * den ≤ 2 * num
  le_high : 2 * num ≤ (unitsOf m + unitsOf (m + 1)) * den
  low_lt : m % 2 = 1 → (unitsOf (m - 1) + unitsOf m) * den < 2 * num
  lt_high : m % 2 = 1 → 2 * num < (unitsOf m + unitsOf (m + 1)) * den

section Rounding

variable {num den m n : Nat}

theorem IsRoundedTo.not_lt (hden : 0 < den) (hm : IsRoundedTo num den m)
    (hn : IsRoundedTo num den n) : ¬ m < n := by
  intro hlt
  have hmid := Nat.mul_le_mul_right den
    (Nat.add_le_add (unitsOf_mono (show m ≤ n - 1 by omega))
      (unitsOf_mono (show m + 1 ≤ n from hlt)))
  have hhigh := hm.le_high
  have hlow := hn.low_le
  -- The quotient is the midpoint of both, so both are even and another magnitude lies between them.
  have hmEven : m % 2 = 0 := by
    have hstrict := hm.lt_high
    omega
  have hnEven : n % 2 = 0 := by
    have hstrict := hn.low_lt
    omega
  have hapart := Nat.mul_lt_mul_of_pos_right
    (Nat.add_lt_add (unitsOf_lt (show m < n - 1 by omega))
      (unitsOf_lt (show m + 1 < n by omega))) hden
  omega

theorem IsRoundedTo.eq (hden : 0 < den) (hm : IsRoundedTo num den m)
    (hn : IsRoundedTo num den n) : m = n := by
  have hle := hm.not_lt hden hn
  have hge := hn.not_lt hden hm
  omega

/-- A quotient is at most one half away from the integer that it rounds to, and less if that is
odd. -/
theorem roundHalfEven_near (hden : 0 < den) :
    2 * num ≤ 2 * (roundHalfEven num den * den) + den ∧
    2 * (roundHalfEven num den * den) ≤ 2 * num + den ∧
    (roundHalfEven num den % 2 = 1 → 2 * num < 2 * (roundHalfEven num den * den) + den ∧
      2 * (roundHalfEven num den * den) < 2 * num + den) := by
  have hnum := Nat.div_add_mod' num den
  have hmod := Nat.mod_lt num hden
  have hnext := Nat.add_one_mul (num / den) den
  unfold roundHalfEven
  dsimp only
  split
  · omega
  split
  · omega
  · obtain heven | hodd := Nat.mod_two_eq_zero_or_one (num / den)
    · rw [heven, Nat.add_zero]
      omega
    · rw [hodd]
      omega

/-- The midpoint above digits at a scale. -/
theorem le_midpoint_above {s r : Nat} (den : Nat) (hle : r ≤ 2 * fractions)
    (hfull : s = 0 ∨ fractions ≤ r) :
    2 * (r * (den * Nat.pow 2 s)) + den * Nat.pow 2 s ≤
      (unitsOf (s * fractions + r) + unitsOf (s * fractions + r + 1)) * den := by
  have hnext := le_unitsOf_succ hle hfull
  rw [unitsOf_scale hle hfull]
  calc 2 * (r * (den * Nat.pow 2 s)) + den * Nat.pow 2 s
      = (r * Nat.pow 2 s + (r + 1) * Nat.pow 2 s) * den := by ring
    _ ≤ (r * Nat.pow 2 s + unitsOf (s * fractions + r + 1)) * den :=
      Nat.mul_le_mul_right _ (Nat.add_le_add_left hnext _)

/-- The midpoint below digits at a scale, where the scale does not start with them. -/
theorem midpoint_below {s r : Nat} (den : Nat) (hpos : 0 < r) (hle : r ≤ 2 * fractions)
    (hfull : s = 0 ∨ fractions ≤ r) :
    (unitsOf (s * fractions + r - 1) + unitsOf (s * fractions + r)) * den + den * Nat.pow 2 s =
      2 * (r * (den * Nat.pow 2 s)) ∨
    0 < s ∧ r = fractions ∧ unitsOf (s * fractions + r - 1) + unitsOf (s * fractions + r) <
      2 * (r * Nat.pow 2 s) := by
  rw [unitsOf_scale hle hfull]
  obtain hpred | ⟨t, rfl, rfl, hpred⟩ := unitsOf_pred hpos hle hfull
  · left
    obtain ⟨q, rfl⟩ : ∃ q, r = q + 1 := ⟨r - 1, by omega⟩
    rw [hpred, Nat.add_sub_cancel]
    ring
  · right
    have hpow : 0 < Nat.pow 2 t := Nat.two_pow_pos t
    have hdouble : Nat.pow 2 (t + 1) = Nat.pow 2 t * 2 := rfl
    refine ⟨Nat.succ_pos t, rfl, ?_⟩
    rw [hpred, hdouble, fractions_eq]
    omega

/-- Rounding goes to the magnitude that the quotient is nearest to. -/
theorem isRoundedTo_nearest (hden : 0 < den) :
    IsRoundedTo num den (quotientShift num den * fractions +
      roundHalfEven num (den * Nat.pow 2 (quotientShift num den))) := by
  have hle := roundHalfEven_quotientShift_le num den
  have hscaled : 0 < den * Nat.pow 2 (quotientShift num den) :=
    Nat.mul_pos hden (Nat.two_pow_pos _)
  obtain ⟨hup, hdown, hodd⟩ := @roundHalfEven_near num _ hscaled
  have hfull : quotientShift num den = 0 ∨
      fractions ≤ roundHalfEven num (den * Nat.pow 2 (quotientShift num den)) := by
    obtain hzero | hpos := Nat.eq_zero_or_pos (quotientShift num den)
    · exact .inl hzero
    · exact .inr (le_roundHalfEven_quotientShift hpos)
  have hstart : 0 < quotientShift num den →
      fractions * (den * Nat.pow 2 (quotientShift num den)) ≤ num := fun hpos =>
    (Nat.le_div_iff_mul_le hscaled).mp (le_div_quotientShift hpos)
  generalize roundHalfEven num (den * Nat.pow 2 (quotientShift num den)) = r at *
  generalize quotientShift num den = s at *
  have hparity : (s * fractions + r) % 2 = r % 2 := by
    rw [fractions_eq]
    omega
  have habove := le_midpoint_above den hle hfull
  -- At the start of a scale, the quotient is not below the power of two.
  have hbelow : (unitsOf (s * fractions + r - 1) + unitsOf (s * fractions + r)) * den ≤ 2 * num ∧
      (r % 2 = 1 →
        (unitsOf (s * fractions + r - 1) + unitsOf (s * fractions + r)) * den < 2 * num) := by
    obtain rfl | hpos := Nat.eq_zero_or_pos r
    · obtain rfl : s = 0 := by
        obtain hzero | hfull := hfull
        · exact hzero
        · exact absurd hfull (by decide)
      have hzero : unitsOf (0 * fractions + 0 - 1) + unitsOf (0 * fractions + 0) = 0 := by decide
      rw [hzero, Nat.zero_mul]
      omega
    obtain hmid | ⟨hs, hr, hmid⟩ := midpoint_below den hpos hle hfull
    · omega
    · have hlt : (unitsOf (s * fractions + r - 1) + unitsOf (s * fractions + r)) * den < 2 * num :=
        calc (unitsOf (s * fractions + r - 1) + unitsOf (s * fractions + r)) * den
            < 2 * (r * Nat.pow 2 s) * den := Nat.mul_lt_mul_of_pos_right hmid hden
          _ = 2 * (fractions * (den * Nat.pow 2 s)) := by
            rw [hr]
            ring
          _ ≤ 2 * num := Nat.mul_le_mul_left 2 (hstart hs)
      exact ⟨Nat.le_of_lt hlt, fun _ => hlt⟩
  refine ⟨hbelow.1, by omega, ?_, ?_⟩
  · rw [hparity]
    exact hbelow.2
  · rw [hparity]
    intro hr
    have hstrict := (hodd hr).1
    omega

theorem nearestMagnitude_of_isRoundedTo (hden : 0 < den) (hm : m ≤ infinityMagnitude)
    (h : IsRoundedTo num den m) : nearestMagnitude num den = m := by
  rw [nearestMagnitude_eq, (isRoundedTo_nearest hden).eq hden h]
  exact Nat.min_eq_right hm

/-- Rounding depends on the quotient only. -/
theorem nearestMagnitude_congr {num' den' : Nat} (hden : 0 < den) (hden' : 0 < den')
    (h : num * den' = num' * den) : nearestMagnitude num den = nearestMagnitude num' den' :=
  Nat.le_antisymm (nearestMagnitude_mono hden hden' (Nat.le_of_eq h))
    (nearestMagnitude_mono hden' hden (Nat.le_of_eq h.symm))

end Rounding

/-! ## Decimals -/

namespace ShortDecimal

/-- The magnitude nearest to a decimal. -/
def nearest (d : ShortDecimal) : Nat :=
  nearestMagnitude (d.coefficient * Nat.pow 10 d.exponent.toNat * unitsOfOne)
    (Nat.pow 10 (-d.exponent).toNat)

/-- A zero at the end of the coefficient may move to the power of ten. -/
theorem nearest_shift {d : ShortDecimal} (hmod : d.coefficient % 10 = 0) :
    nearest ⟨d.coefficient / 10, d.exponent + 1⟩ = d.nearest := by
  obtain ⟨c, exponent⟩ := d
  have hc : c / 10 * 10 = c := Nat.div_mul_cancel (Nat.dvd_of_mod_eq_zero hmod)
  have hpos : ∀ k, 0 < Nat.pow 10 k := fun k => Nat.pow_pos (by decide)
  apply nearestMagnitude_congr (hpos _) (hpos _)
  dsimp only
  nth_rewrite 2 [← hc]
  by_cases hnonneg : 0 ≤ exponent
  · have hnext : (exponent + 1).toNat = exponent.toNat + 1 := by omega
    have hscale : (-exponent).toNat = 0 := by omega
    have hscale' : (-(exponent + 1)).toNat = 0 := by omega
    have hpow : Nat.pow 10 (exponent.toNat + 1) = Nat.pow 10 exponent.toNat * 10 := rfl
    rw [hnext, hscale, hscale', hpow]
    ring
  · have hpoint : exponent.toNat = 0 := by omega
    have hpoint' : (exponent + 1).toNat = 0 := by omega
    have hscale : (-exponent).toNat = (-(exponent + 1)).toNat + 1 := by omega
    have hpow : Nat.pow 10 ((-(exponent + 1)).toNat + 1) =
        Nat.pow 10 (-(exponent + 1)).toNat * 10 := rfl
    rw [hpoint, hpoint', hscale, hpow]
    ring

theorem nearest_strip (d : ShortDecimal) : d.strip.nearest = d.nearest := by
  fun_induction ShortDecimal.strip d with
  | case1 d hzero =>
    have hpos : ∀ k, 0 < Nat.pow 10 k := fun k => Nat.pow_pos (by decide)
    apply nearestMagnitude_congr (hpos _) (hpos _)
    simp [hzero]
  | case2 d _ hmod ih => rw [ih, nearest_shift hmod]
  | case3 d _ _ => rfl

end ShortDecimal

theorem isRoundedTo_of_roundsTo {m : Nat} {d : ShortDecimal} (h : roundsTo m d = true) :
    IsRoundedTo (d.coefficient * Nat.pow 10 d.exponent.toNat * unitsOfOne)
      (Nat.pow 10 (-d.exponent).toNat) m := by
  have hpoint : d.coefficient * Nat.pow 10 d.exponent.toNat * halfUnitsOfOne =
      2 * (d.coefficient * Nat.pow 10 d.exponent.toNat * unitsOfOne) := by
    rw [halfUnitsOfOne_eq]
    ring
  unfold roundsTo at h
  dsimp only at h
  rw [hpoint] at h
  split at h
  · rename_i heven
    simp only [Bool.and_eq_true, decide_eq_true_eq] at h
    exact ⟨h.1, h.2, by omega, by omega⟩
  · simp only [Bool.and_eq_true, decide_eq_true_eq] at h
    exact ⟨Nat.le_of_lt h.1, Nat.le_of_lt h.2, fun _ => h.1, fun _ => h.2⟩

/-- A decimal strictly between the midpoints rounds to the magnitude. -/
theorem roundsTo_of_lt {m c : Nat} {exponent : Int}
    (hlow : (unitsOf (m - 1) + unitsOf m) * Nat.pow 10 (-exponent).toNat <
      2 * (c * (unitsOfOne * Nat.pow 10 exponent.toNat)))
    (hhigh : 2 * (c * (unitsOfOne * Nat.pow 10 exponent.toNat)) <
      (unitsOf m + unitsOf (m + 1)) * Nat.pow 10 (-exponent).toNat) :
    roundsTo m ⟨c, exponent⟩ = true := by
  have hpoint : c * Nat.pow 10 exponent.toNat * halfUnitsOfOne =
      2 * (c * (unitsOfOne * Nat.pow 10 exponent.toNat)) := by
    rw [halfUnitsOfOne_eq]
    ring
  unfold roundsTo
  dsimp only
  rw [hpoint]
  split
  · exact (Bool.and_eq_true _ _).mpr
      ⟨decide_eq_true (Nat.le_of_lt hlow), decide_eq_true (Nat.le_of_lt hhigh)⟩
  · exact (Bool.and_eq_true _ _).mpr ⟨decide_eq_true hlow, decide_eq_true hhigh⟩

/-- The units of a magnitude lie between two neighbours on a grid. If the grid has seventeen digits,
one of them rounds to the magnitude. -/
theorem isSome_onGrid? {m : Nat} (hpos : 0 < m) {exponent : Int}
    (hgrid : Nat.pow 10 16 * (unitsOfOne * Nat.pow 10 exponent.toNat) ≤
      unitsOf m * Nat.pow 10 (-exponent).toNat) : (onGrid? m exponent).isSome = true := by
  have hscale : 0 < Nat.pow 10 (-exponent).toNat := Nat.pow_pos (by decide)
  have hden : 0 < unitsOfOne * Nat.pow 10 exponent.toNat :=
    Nat.mul_pos unitsOfOne_pos (Nat.pow_pos (by decide))
  have hnum := Nat.div_add_mod' (unitsOf m * Nat.pow 10 (-exponent).toNat)
    (unitsOfOne * Nat.pow 10 exponent.toNat)
  have hmod := Nat.mod_lt (unitsOf m * Nat.pow 10 (-exponent).toNat) hden
  have hbelow := Nat.mul_lt_mul_of_pos_right (unitsOf_lt (show m - 1 < m by omega)) hscale
  have habove := Nat.mul_lt_mul_of_pos_right (unitsOf_lt_succ m) hscale
  have hgap := Nat.mul_lt_mul_of_pos_right (unitsOf_gap hpos) hscale
  rw [Nat.add_mul, Nat.mul_assoc, Nat.mul_assoc, Nat.mul_assoc] at hgap
  have hten : Nat.pow 10 16 = 10000000000000000 := rfl
  rw [hten] at hgap hgrid
  have hlow := @roundsTo_of_lt m (unitsOf m * Nat.pow 10 (-exponent).toNat /
    (unitsOfOne * Nat.pow 10 exponent.toNat)) exponent
  have hhigh := @roundsTo_of_lt m (unitsOf m * Nat.pow 10 (-exponent).toNat /
    (unitsOfOne * Nat.pow 10 exponent.toNat) + 1) exponent
  simp only [Nat.add_mul, Nat.one_mul] at hlow hhigh
  unfold onGrid?
  dsimp only
  by_cases hnear : unitsOf (m - 1) * Nat.pow 10 (-exponent).toNat +
      unitsOf m * Nat.pow 10 (-exponent).toNat <
      2 * (unitsOf m * Nat.pow 10 (-exponent).toNat / (unitsOfOne * Nat.pow 10 exponent.toNat) *
        (unitsOfOne * Nat.pow 10 exponent.toNat))
  · rw [hlow hnear (by omega)]
    split <;> simp_all
  · rw [hhigh (by omega) (by omega)]
    split <;> simp_all

/-! ## The search -/

theorem pow_le_of_length_digitsOnto {n : Nat} (hpos : 0 < n) (tail : List Char) :
    Nat.pow 10 ((Decimal.digitsOnto n tail).length - tail.length - 1) ≤ n := by
  fun_induction Decimal.digitsOnto n tail with
  | case1 n tail _ =>
    have hone : (Nat.digitChar n :: tail).length - tail.length - 1 = 0 := by
      rw [List.length_cons]
      omega
    rw [hone]
    exact hpos
  | case2 n tail hge ih =>
    have hlonger := Decimal.length_lt_length_digitsOnto (n / 10) (Nat.digitChar (n % 10) :: tail)
    have hih := ih (by omega)
    rw [List.length_cons] at hih hlonger
    have hexponent : (Decimal.digitsOnto (n / 10) (Nat.digitChar (n % 10) :: tail)).length -
        tail.length - 1 = (Decimal.digitsOnto (n / 10) (Nat.digitChar (n % 10) :: tail)).length -
        (tail.length + 1) - 1 + 1 := by omega
    rw [hexponent]
    calc Nat.pow 10 _ * 10 ≤ n / 10 * 10 := Nat.mul_le_mul_right 10 hih
      _ ≤ n := Nat.div_mul_le_self n 10

theorem pow_length_ofNat_le {n : Nat} (hpos : 0 < n) :
    Nat.pow 10 ((Decimal.ofNat n).length - 1) ≤ n := pow_le_of_length_digitsOnto hpos []

/-- A quotient with a number of digits, counted after a shift by some places, has seventeen digits
on the grid that starts seventeen places below the first. -/
theorem grid_of_length {units one places length : Nat} (hlength : 0 < length)
    (h : Nat.pow 10 (length - 1) * one ≤ units * Nat.pow 10 places) {exponent : Int}
    (hexponent : exponent = length - places - 17) :
    Nat.pow 10 16 * (one * Nat.pow 10 exponent.toNat) ≤ units * Nat.pow 10 (-exponent).toNat := by
  have hsum : 16 + exponent.toNat + places = length - 1 + (-exponent).toNat := by omega
  -- The shift clears the fractions, whatever the sign of the exponent.
  apply Nat.le_of_mul_le_mul_right (c := Nat.pow 10 places) _ (Nat.pow_pos (by decide))
  calc Nat.pow 10 16 * (one * Nat.pow 10 exponent.toNat) * Nat.pow 10 places
      = one * 10 ^ (16 + exponent.toNat + places) := by
        rw [Nat.pow_add, Nat.pow_add]
        simp only [Nat.pow_eq]
        ring
    _ = Nat.pow 10 (length - 1) * one * Nat.pow 10 (-exponent).toNat := by
        rw [hsum, Nat.pow_add]
        simp only [Nat.pow_eq]
        ring
    _ ≤ units * Nat.pow 10 places * Nat.pow 10 (-exponent).toNat := Nat.mul_le_mul_right _ h
    _ = units * Nat.pow 10 (-exponent).toNat * Nat.pow 10 places := Nat.mul_right_comm _ _ _

theorem pointPosition_grid {m : Nat} (hpos : 0 < m) :
    Nat.pow 10 16 * (unitsOfOne * Nat.pow 10 (pointPosition m - 17).toNat) ≤
      unitsOf m * Nat.pow 10 (-(pointPosition m - 17)).toNat := by
  have hbig : unitsOfOne ≤ Nat.pow 10 400 := by decide +kernel
  have hwhole : 0 < unitsOf m * Nat.pow 10 400 / unitsOfOne := by
    apply Nat.div_pos _ unitsOfOne_pos
    exact Nat.le_trans hbig (Nat.le_mul_of_pos_left _ (unitsOf_pos hpos))
  have hdigits := pow_length_ofNat_le hwhole
  rw [Nat.le_div_iff_mul_le unitsOfOne_pos] at hdigits
  refine grid_of_length (Decimal.length_ofNat_pos _) hdigits ?_
  unfold pointPosition
  omega

/-- The search finds a decimal that rounds to the magnitude. -/
theorem exists_of_searchShortest {m : Nat} (hpos : 0 < m) (digits : Nat) (hdigits : digits ≤ 17) :
    ∃ d, searchShortest m (pointPosition m) digits = d.strip ∧ roundsTo m d = true := by
  have hlast := isSome_onGrid? hpos (pointPosition_grid hpos)
  fun_induction searchShortest m (pointPosition m) digits with
  | case1 digits d hgrid => exact ⟨d, rfl, (roundsTo_of_onGrid? hgrid).1⟩
  | case2 digits _ hlt ih => exact ih hlt
  | case3 digits hnone hge =>
    obtain rfl : digits = 17 := by omega
    have hnone : onGrid? m (pointPosition m - 17) = none := hnone
    rw [hnone] at hlast
    cases hlast

/-- The shortest decimal of a magnitude is nearest to that magnitude. -/
theorem nearest_shortest {m : Nat} (hm : m ≤ infinityMagnitude) : (shortest m).nearest = m := by
  unfold shortest
  split
  · rename_i hzero
    rw [hzero]
    decide +kernel
  rename_i hne
  obtain ⟨d, heq, hround⟩ := exists_of_searchShortest (Nat.pos_of_ne_zero hne) 1 (by decide)
  rw [heq, ShortDecimal.nearest_strip]
  exact nearestMagnitude_of_isRoundedTo (Nat.pow_pos (by decide)) hm
    (isRoundedTo_of_roundsTo hround)

theorem coefficient_shortest_pos {m : Nat} (hpos : 0 < m) (hm : m ≤ infinityMagnitude) :
    0 < (shortest m).coefficient := by
  apply Nat.pos_of_ne_zero
  intro hzero
  have hnearest := nearest_shortest hm
  rw [ShortDecimal.nearest, hzero, Nat.zero_mul, Nat.zero_mul] at hnearest
  have hround : IsRoundedTo 0 (Nat.pow 10 (-(shortest m).exponent).toNat) 0 :=
    ⟨Nat.le_of_eq (Nat.zero_mul _), Nat.zero_le _, nofun, nofun⟩
  have hnone := nearestMagnitude_of_isRoundedTo (Nat.pow_pos (by decide)) (Nat.zero_le _) hround
  exact Nat.ne_of_gt hpos (hnearest.symm.trans hnone)

/-! ## Reading -/

/-- The number nearest to an exact decimal. -/
def ofExact (x : Decimal.Exact) : Binary64 :=
  ofQuotient x.negative (x.coefficient * Nat.pow 10 x.exponent.toNat)
    (Nat.pow 10 (-x.exponent).toNat)

theorem ofParts_magnitude {x : Binary64} (h : x.isNegative = false) :
    ofParts false x.magnitude = x := by
  have hlt : x.bits.toNat < signBits := Nat.not_le.mp (of_decide_eq_false h)
  have hmod : x.magnitude = x.bits.toNat := Nat.mod_eq_of_lt hlt
  obtain ⟨bits⟩ := x
  simp [ofParts, hmod]

/-- A number that is written is read back. -/
theorem ofExact_exactOf_chars {x : Binary64} (h : x.IsPlain) (layout : Layout) :
    ofExact (Json.exactOf (x.chars layout)) = x := by
  have hm : x.magnitude ≤ infinityMagnitude := Nat.le_of_lt (of_decide_eq_true h.isFinite_eq)
  have hnearest := nearest_shortest hm
  unfold ShortDecimal.nearest at hnearest
  rw [chars_eq_magnitudeText h]
  obtain hread | ⟨hnonneg, hread⟩ := exactOf_magnitudeText layout x.magnitude
  · rw [hread, ofExact, ofQuotient]
    dsimp only
    rw [hnearest, ofParts_magnitude h.isNegative_eq]
  · have hscale : (-(shortest x.magnitude).exponent).toNat = 0 := by omega
    rw [hscale] at hnearest
    rw [hread]
    show ofParts false (nearestMagnitude ((shortest x.magnitude).coefficient *
      Nat.pow 10 (shortest x.magnitude).exponent.toNat * 1 * unitsOfOne) (Nat.pow 10 0)) = x
    rw [Nat.mul_one, hnearest, ofParts_magnitude h.isNegative_eq]

end MonitorCoverage.Binary64
