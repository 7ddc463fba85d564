import Mathlib.Data.Nat.Log
import MonitorCoverage.Lock.Tally

/-!
# Rounding and order

Rounding keeps the order: of two quotients, the larger one is not rounded to the smaller magnitude.
So do the operations on numbers that are not negative, each of which rounds one exact result. An
operation that is exact at a bound therefore carries the bound over, and a share that is at most one
stays at most a hundred when it is turned into a percentage.
-/

namespace MonitorCoverage

namespace Binary64

/-! ## Rounding quotients -/

section Quotients

variable {num den num' den' : Nat}

theorem div_le_div_of_mul_le (hden : 0 < den) (hden' : 0 < den') (h : num * den' ≤ num' * den) :
    num / den ≤ num' / den' := by
  rw [Nat.le_div_iff_mul_le hden']
  apply Nat.le_of_mul_le_mul_right _ hden
  calc num / den * den' * den = num / den * den * den' := Nat.mul_right_comm _ _ _
    _ ≤ num * den' := Nat.mul_le_mul_right _ (Nat.div_mul_le_self _ _)
    _ ≤ num' * den := h

theorem div_le_roundHalfEven (num den : Nat) : num / den ≤ roundHalfEven num den := by
  unfold roundHalfEven
  dsimp only
  split
  · exact Nat.le_refl _
  · split <;> omega

theorem roundHalfEven_le_succ (num den : Nat) : roundHalfEven num den ≤ num / den + 1 := by
  unfold roundHalfEven
  dsimp only
  split
  · omega
  · split <;> omega

theorem roundHalfEven_eq_or (num den : Nat) :
    roundHalfEven num den = num / den ∨ roundHalfEven num den = num / den + 1 := by
  have hle := div_le_roundHalfEven num den
  have hge := roundHalfEven_le_succ num den
  omega

/-- With equal integer parts, the quotient with the larger remainder is the larger one. -/
theorem mod_mul_le_of_div_eq (heq : num / den = num' / den') (h : num * den' ≤ num' * den) :
    num % den * den' ≤ num' % den' * den := by
  have hnum : num = num / den * den + num % den := (Nat.div_add_mod' num den).symm
  have hnum' : num' = num / den * den' + num' % den' := heq ▸ (Nat.div_add_mod' num' den').symm
  apply Nat.le_of_add_le_add_left
  calc num / den * den * den' + num % den * den' = num * den' := by rw [← Nat.add_mul, ← hnum]
    _ ≤ num' * den := h
    _ = num / den * den' * den + num' % den' * den := by rw [← Nat.add_mul, ← hnum']
    _ = num / den * den * den' + num' % den' * den := by rw [Nat.mul_right_comm]

theorem roundHalfEven_mono (hden : 0 < den) (hden' : 0 < den') (h : num * den' ≤ num' * den) :
    roundHalfEven num den ≤ roundHalfEven num' den' := by
  have hle := roundHalfEven_le_succ num den
  have hle' := div_le_roundHalfEven num' den'
  obtain hlt | heq := Nat.lt_or_eq_of_le (div_le_div_of_mul_le hden hden' h)
  · omega
  -- The integer parts agree, so it depends on which side of one half the remainders are.
  have hmod := mod_mul_le_of_div_eq heq h
  have hdouble : 2 * (num % den) * den' ≤ 2 * (num' % den') * den := by
    rw [Nat.mul_assoc, Nat.mul_assoc]
    exact Nat.mul_le_mul_left 2 hmod
  have hbelow : 2 * (num' % den') < den' → 2 * (num % den) < den := by
    intro hlt
    apply Nat.lt_of_mul_lt_mul_right (a := den')
    rw [Nat.mul_comm den den']
    exact Nat.lt_of_le_of_lt hdouble (Nat.mul_lt_mul_of_pos_right hlt hden)
  have hatmost : 2 * (num' % den') ≤ den' → 2 * (num % den) ≤ den := by
    intro hle
    apply Nat.le_of_mul_le_mul_right _ hden'
    rw [Nat.mul_comm den den']
    exact Nat.le_trans hdouble (Nat.mul_le_mul_right _ hle)
  unfold roundHalfEven at hle ⊢
  dsimp only at hle ⊢
  rw [← heq]
  by_cases hlt : 2 * (num' % den') < den'
  · rw [if_pos hlt, if_pos (hbelow hlt)]
  rw [if_neg hlt]
  by_cases hgt : den' < 2 * (num' % den')
  · rw [if_pos hgt]
    exact hle
  have hnot := hatmost (Nat.le_of_not_lt hgt)
  rw [if_neg hgt, if_neg (Nat.not_lt.mpr hnot)]
  split <;> omega

/-! ## Rounding to magnitudes -/

/-- The power of two that a quotient is divided by, so that its integer part keeps 53 digits. -/
def quotientShift (num den : Nat) : Nat := (num / den).log2 - 52

theorem nearestMagnitude_eq (num den : Nat) :
    nearestMagnitude num den =
      min infinityMagnitude (quotientShift num den * fractions +
        roundHalfEven num (den * Nat.pow 2 (quotientShift num den))) := rfl

theorem fractions_eq : fractions = 4503599627370496 := rfl

theorem infinityMagnitude_eq : infinityMagnitude = 9218868437227405312 := rfl

theorem nearestMagnitude_le (num den : Nat) : nearestMagnitude num den ≤ infinityMagnitude :=
  Nat.min_le_left _ _

theorem quotientShift_mono (h : num / den ≤ num' / den') :
    quotientShift num den ≤ quotientShift num' den' := by
  have hlog := Nat.log_mono_right (b := 2) h
  unfold quotientShift
  rw [Nat.log2_eq_log_two, Nat.log2_eq_log_two]
  omega

/-- Rounding may carry to the next exponent, but no further. -/
theorem roundHalfEven_quotientShift_le (num den : Nat) :
    roundHalfEven num (den * Nat.pow 2 (quotientShift num den)) ≤ 2 * fractions := by
  have hlt : num / den < 2 ^ ((num / den).log2 + 1) := Nat.lt_log2_self
  have hpow : 2 ^ ((num / den).log2 + 1) ≤ 2 ^ quotientShift num den * 2 ^ 53 := by
    rw [← Nat.pow_add]
    exact Nat.pow_le_pow_right (by decide) (by unfold quotientShift; omega)
  have hquot : num / (den * Nat.pow 2 (quotientShift num den)) < 2 ^ 53 := by
    rw [← Nat.div_div_eq_div_mul]
    apply Nat.div_lt_of_lt_mul
    exact Nat.lt_of_lt_of_le hlt hpow
  have hround := roundHalfEven_le_succ num (den * Nat.pow 2 (quotientShift num den))
  rw [fractions_eq]
  omega

/-- A quotient that is divided at all has all 53 digits. -/
theorem le_div_quotientShift (hpos : 0 < quotientShift num den) :
    fractions ≤ num / (den * Nat.pow 2 (quotientShift num den)) := by
  have hlog : (num / den).log2 = 52 + quotientShift num den := by
    unfold quotientShift at hpos ⊢
    omega
  have hne : num / den ≠ 0 := by
    intro hzero
    rw [quotientShift, hzero] at hpos
    simp at hpos
  have hle := Nat.log2_self_le hne
  rw [hlog, Nat.pow_add] at hle
  rw [← Nat.div_div_eq_div_mul]
  exact (Nat.le_div_iff_mul_le (Nat.two_pow_pos _)).mpr hle

theorem le_roundHalfEven_quotientShift (hpos : 0 < quotientShift num den) :
    fractions ≤ roundHalfEven num (den * Nat.pow 2 (quotientShift num den)) :=
  Nat.le_trans (le_div_quotientShift hpos) (div_le_roundHalfEven _ _)

theorem nearestMagnitude_mono (hden : 0 < den) (hden' : 0 < den')
    (h : num * den' ≤ num' * den) : nearestMagnitude num den ≤ nearestMagnitude num' den' := by
  have hshift := quotientShift_mono (div_le_div_of_mul_le hden hden' h)
  have hcarry := roundHalfEven_quotientShift_le num den
  have hfull := @le_roundHalfEven_quotientShift num' den'
  rw [nearestMagnitude_eq, nearestMagnitude_eq]
  apply Nat.le_min.mpr ⟨Nat.min_le_left _ _, Nat.le_trans (Nat.min_le_right _ _) _⟩
  obtain hlt | heq := Nat.lt_or_eq_of_le hshift
  · have hfull := hfull (by omega)
    have hmul := Nat.mul_le_mul_right fractions hlt
    rw [Nat.succ_mul] at hmul
    omega
  · rw [heq]
    apply Nat.add_le_add_left
    have hpos : 0 < Nat.pow 2 (quotientShift num' den') := Nat.two_pow_pos _
    apply roundHalfEven_mono (Nat.mul_pos hden hpos) (Nat.mul_pos hden' hpos)
    rw [← Nat.mul_assoc, ← Nat.mul_assoc]
    exact Nat.mul_le_mul_right _ h

end Quotients

/-! ## Units of magnitudes -/

theorem unitsOf_of_lt {m : Nat} (h : m < fractions) : unitsOf m = m := if_pos h

theorem unitsOf_of_le {m : Nat} (h : fractions ≤ m) :
    unitsOf m = (fractions + m % fractions) * Nat.pow 2 (m / fractions - 1) :=
  if_neg (Nat.not_lt.mpr h)

theorem unitsOf_mono {m n : Nat} (h : m ≤ n) : unitsOf m ≤ unitsOf n := by
  have hpos : ∀ k, 0 < Nat.pow 2 k := Nat.two_pow_pos
  by_cases hn : n < fractions
  · rw [unitsOf_of_lt hn, unitsOf_of_lt (Nat.lt_of_le_of_lt h hn)]
    exact h
  have hn := Nat.le_of_not_lt hn
  rw [unitsOf_of_le hn]
  by_cases hm : m < fractions
  · rw [unitsOf_of_lt hm]
    have hone := Nat.le_mul_of_pos_right (fractions + n % fractions) (hpos (n / fractions - 1))
    omega
  have hm := Nat.le_of_not_lt hm
  rw [unitsOf_of_le hm]
  have hF : 0 < fractions := by decide
  obtain hlt | heq := Nat.lt_or_eq_of_le (Nat.div_le_div_right (c := fractions) h)
  · -- The power of two makes up for any fraction.
    have hexp : 1 ≤ m / fractions := (Nat.le_div_iff_mul_le hF).mpr (by omega)
    have hmod := Nat.mod_lt m hF
    calc (fractions + m % fractions) * Nat.pow 2 (m / fractions - 1)
        ≤ fractions * 2 * Nat.pow 2 (m / fractions - 1) := Nat.mul_le_mul_right _ (by omega)
      _ = fractions * Nat.pow 2 (m / fractions - 1 + 1) := by
        rw [Nat.mul_assoc, Nat.mul_comm 2]
        rfl
      _ ≤ fractions * Nat.pow 2 (n / fractions - 1) :=
        Nat.mul_le_mul_left _ (Nat.pow_le_pow_right (by decide) (by omega))
      _ ≤ (fractions + n % fractions) * Nat.pow 2 (n / fractions - 1) :=
        Nat.mul_le_mul_right _ (Nat.le_add_right _ _)
  · have hmDiv := Nat.div_add_mod m fractions
    have hnDiv := Nat.div_add_mod n fractions
    rw [heq] at hmDiv ⊢
    exact Nat.mul_le_mul_right _ (by omega)

theorem unitsOf_pos {m : Nat} (h : 0 < m) : 0 < unitsOf m := unitsOf_mono (m := 1) h

/-! ## Numbers that are not negative -/

/-- Finite and not negative. -/
structure IsPlain (x : Binary64) : Prop where
  isNegative_eq : x.isNegative = false
  isFinite_eq : x.isFinite = true

instance (x : Binary64) : Decidable x.IsPlain :=
  decidable_of_iff (x.isNegative = false ∧ x.isFinite = true)
    ⟨fun h => ⟨h.1, h.2⟩, fun h => ⟨h.isNegative_eq, h.isFinite_eq⟩⟩

/-- Not negative, and not larger than another number. -/
structure UpTo (y x : Binary64) : Prop where
  isNegative_eq : x.isNegative = false
  magnitude_le : x.magnitude ≤ y.magnitude

theorem UpTo.isPlain {x y : Binary64} (h : y.UpTo x) (hy : y.IsPlain) : x.IsPlain := by
  have hlt : y.magnitude < infinityMagnitude := of_decide_eq_true hy.isFinite_eq
  exact ⟨h.isNegative_eq, decide_eq_true (Nat.lt_of_le_of_lt h.magnitude_le hlt)⟩

theorem UpTo.units_le {x y : Binary64} (h : y.UpTo x) : x.units ≤ y.units :=
  unitsOf_mono h.magnitude_le

section Operations

variable {x y z : Binary64}

theorem signBits_eq : signBits = 9223372036854775808 := rfl

theorem toNat_bits_ofParts (negative : Bool) {m : Nat} (h : m ≤ infinityMagnitude) :
    (ofParts negative m).bits.toNat = m + if negative then signBits else 0 := by
  rw [infinityMagnitude_eq] at h
  apply UInt64.toNat_ofNat_of_lt'
  show _ < 2 ^ 64
  rw [signBits_eq]
  split <;> omega

theorem magnitude_ofParts (negative : Bool) {m : Nat} (h : m ≤ infinityMagnitude) :
    (ofParts negative m).magnitude = m := by
  rw [magnitude, toNat_bits_ofParts negative h]
  rw [infinityMagnitude_eq] at h
  rw [signBits_eq]
  split <;> omega

theorem isNegative_ofParts (negative : Bool) {m : Nat} (h : m ≤ infinityMagnitude) :
    (ofParts negative m).isNegative = negative := by
  rw [isNegative, toNat_bits_ofParts negative h]
  rw [infinityMagnitude_eq] at h
  rw [signBits_eq]
  cases negative with
  | false => simp; omega
  | true => simp

theorem upTo_ofParts {m n : Nat} (hle : m ≤ n) (hn : n ≤ infinityMagnitude) :
    (ofParts false n).UpTo (ofParts false m) := by
  have hm := Nat.le_trans hle hn
  refine ⟨isNegative_ofParts false hm, ?_⟩
  rw [magnitude_ofParts false hm, magnitude_ofParts false hn]
  exact hle

/-- Rounding a larger quotient gives a larger number. -/
theorem upTo_nearest {num den num' den' : Nat} (hden : 0 < den) (hden' : 0 < den')
    (h : num * den' ≤ num' * den) :
    (ofParts false (nearestMagnitude num' den')).UpTo
      (ofParts false (nearestMagnitude num den)) :=
  upTo_ofParts (nearestMagnitude_mono hden hden' h) (nearestMagnitude_le _ _)

theorem unitsOfOne_pos : 0 < unitsOfOne := by decide +kernel

theorem isNaN_eq_false (h : x.IsPlain) : x.isNaN = false := by
  have hlt : x.magnitude < infinityMagnitude := of_decide_eq_true h.isFinite_eq
  exact decide_eq_false (Nat.lt_asymm hlt)

theorem isInfinite_eq_false (h : x.IsPlain) : x.isInfinite = false := by
  have hlt : x.magnitude < infinityMagnitude := of_decide_eq_true h.isFinite_eq
  exact decide_eq_false (Nat.ne_of_lt hlt)

theorem mul_eq (hx : x.IsPlain) (hy : y.IsPlain) :
    x.mul y = ofParts false (nearestMagnitude (x.units * y.units) unitsOfOne) := by
  simp [mul, isNaN_eq_false, isInfinite_eq_false, hx, hy, hx.isNegative_eq, hy.isNegative_eq]

theorem div_eq (hx : x.IsPlain) (hy : y.IsPlain) (hpos : 0 < y.magnitude) :
    x.div y = ofParts false (nearestMagnitude (x.units * unitsOfOne) y.units) := by
  have hne : y.magnitude ≠ 0 := Nat.ne_of_gt hpos
  simp [div, isNaN_eq_false, isInfinite_eq_false, hx, hy, hx.isNegative_eq, hy.isNegative_eq, hne]

theorem round_eq (hx : x.IsPlain) :
    x.round = ofParts false (nearestMagnitude
      ((2 * x.units + unitsOfOne) / (2 * unitsOfOne) * unitsOfOne) 1) := by
  simp [round, hx.isFinite_eq, hx.isNegative_eq]

theorem upTo_ofNat {m n : Nat} (h : m ≤ n) : (ofNat n).UpTo (ofNat m) :=
  upTo_nearest Nat.one_pos Nat.one_pos
    (Nat.mul_le_mul_right _ (Nat.mul_le_mul_right _ h))

theorem UpTo.mul (h : y.UpTo x) (hy : y.IsPlain) (hz : z.IsPlain) : (y.mul z).UpTo (x.mul z) := by
  rw [mul_eq (h.isPlain hy) hz, mul_eq hy hz]
  apply upTo_nearest unitsOfOne_pos unitsOfOne_pos
  exact Nat.mul_le_mul_right _ (Nat.mul_le_mul_right _ h.units_le)

theorem UpTo.div (h : y.UpTo x) (hy : y.IsPlain) (hz : z.IsPlain) (hpos : 0 < z.magnitude) :
    (y.div z).UpTo (x.div z) := by
  rw [div_eq (h.isPlain hy) hz hpos, div_eq hy hz hpos]
  have hunits : 0 < z.units := unitsOf_pos hpos
  apply upTo_nearest hunits hunits
  exact Nat.mul_le_mul_right _ (Nat.mul_le_mul_right _ h.units_le)

theorem UpTo.round (h : y.UpTo x) (hy : y.IsPlain) : y.round.UpTo x.round := by
  rw [round_eq (h.isPlain hy), round_eq hy]
  apply upTo_nearest Nat.one_pos Nat.one_pos
  have hunits := h.units_le
  have hwhole : (2 * x.units + unitsOfOne) / (2 * unitsOfOne) ≤
      (2 * y.units + unitsOfOne) / (2 * unitsOfOne) := Nat.div_le_div_right (by omega)
  exact Nat.mul_le_mul_right _ (Nat.mul_le_mul_right _ hwhole)

/-- A number divided by a larger one is at most one. -/
theorem UpTo.div_self (h : y.UpTo x) (hy : y.IsPlain) (hpos : 0 < y.magnitude) :
    (ofNat 1).UpTo (x.div y) := by
  rw [div_eq (h.isPlain hy) hy hpos]
  apply upTo_nearest (unitsOf_pos hpos) Nat.one_pos
  rw [Nat.mul_one, Nat.one_mul, Nat.mul_comm]
  exact Nat.mul_le_mul_left _ h.units_le

end Operations

theorem ofInt_natCast (n : Nat) : ofInt n = ofNat n := by
  have hnonneg : ¬ (n : Int) < 0 := Int.not_lt.mpr (Int.natCast_nonneg n)
  simp [ofInt, ofNat, hnonneg]

/-- Counts that a signed word can hold are finite numbers. -/
theorem isPlain_ofNat {n : Nat} (h : n < 9223372036854775808) : (ofNat n).IsPlain :=
  (upTo_ofNat (Nat.le_of_lt h)).isPlain (by decide +kernel)

theorem magnitude_ofNat_pos {n : Nat} (h : 0 < n) : 0 < (ofNat n).magnitude := by
  have hone : 0 < (ofNat 1).magnitude := by decide +kernel
  exact Nat.lt_of_lt_of_le hone (upTo_ofNat h).magnitude_le

end Binary64

/-! ## Percentages -/

namespace Lock

open Binary64

/-- Rounding to hundredths keeps numbers up to a hundred. -/
theorem upTo_roundHundredths {x : Binary64} (h : (ofNat 100).UpTo x) :
    (ofNat 100).UpTo (roundHundredths x) := by
  have hscale : (ofNat 100).mul (ofNat 100) = ofNat 10000 := by decide +kernel
  have hround : (ofNat 10000).round = ofNat 10000 := by decide +kernel
  have hunscale : (ofNat 10000).div (ofNat 100) = ofNat 100 := by decide +kernel
  have hhundred : (ofNat 100).IsPlain := isPlain_ofNat (by decide)
  have hbound : (ofNat 10000).IsPlain := isPlain_ofNat (by decide)
  have hscaled := h.mul hhundred hhundred
  rw [hscale] at hscaled
  have hwhole := hscaled.round hbound
  rw [hround] at hwhole
  have hrounded := hwhole.div hbound hhundred (magnitude_ofNat_pos (by decide))
  rw [hunscale] at hrounded
  exact hrounded

/-- The locked share lies between zero and a hundred. -/
theorem upTo_percentOf {locked total : Int64} (hnonneg : 0 ≤ locked.toInt)
    (hle : locked.toInt ≤ total.toInt) : (ofNat 100).UpTo (percentOf locked total) := by
  unfold percentOf
  split
  · exact ⟨rfl, Nat.zero_le _⟩
  rename_i hone
  obtain ⟨m, hm⟩ := Int.eq_ofNat_of_zero_le hnonneg
  obtain ⟨n, hn⟩ := Int.eq_ofNat_of_zero_le (Int.le_trans hnonneg hle)
  have hpos : 0 < n := by
    rw [Int64.lt_iff_toInt_lt, hn] at hone
    have hword : (1 : Int64).toInt = 1 := rfl
    omega
  have hlt := total.toInt_lt
  rw [hm, hn] at hle ⊢
  rw [ofInt_natCast, ofInt_natCast]
  have hshare : (ofNat 1).UpTo ((ofNat m).div (ofNat n)) :=
    (upTo_ofNat (Int.ofNat_le.mp hle)).div_self (isPlain_ofNat (by omega))
      (magnitude_ofNat_pos hpos)
  have hscale : (ofNat 1).mul (ofNat 100) = ofNat 100 := by decide +kernel
  have hone : (ofNat 1).IsPlain := isPlain_ofNat (by decide)
  have hhundred : (ofNat 100).IsPlain := isPlain_ofNat (by decide)
  have hpercent := hshare.mul hone hhundred
  rw [hscale] at hpercent
  exact upTo_roundHundredths hpercent

end Lock

end MonitorCoverage
