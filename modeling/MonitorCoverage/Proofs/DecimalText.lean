import Mathlib.Data.List.TakeWhile
import MonitorCoverage.Json.Basic
import MonitorCoverage.Proofs.RoundingOrder

/-!
# Decimals as texts

Reading the text of a number back gives the decimal that was written: its digits and its power of
ten, wherever the point stands and whether or not there is an exponent. The shortest decimal of a
magnitude rounds to that magnitude. It is therefore not larger than a bound that the magnitude does
not exceed, as long as the bound is written exactly.
-/

namespace MonitorCoverage

namespace Decimal

/-! ## Digits -/

/-- Digits and nothing else. -/
def AreDigits (text : List Char) : Prop := ∀ c ∈ text, c.isDigit = true

theorem digitValue_digitChar : ∀ d < 10, digitValue (Nat.digitChar d) = d := by decide

theorem isDigit_digitChar : ∀ d < 10, (Nat.digitChar d).isDigit = true := by decide

theorem areDigits_nil : AreDigits [] := fun _ hmem => absurd hmem List.not_mem_nil

theorem AreDigits.cons {c : Char} {text : List Char} (hc : c.isDigit = true)
    (h : AreDigits text) : AreDigits (c :: text) := by
  intro d hmem
  obtain rfl | hmem := List.mem_cons.mp hmem
  · exact hc
  · exact h d hmem

theorem AreDigits.append {a b : List Char} (ha : AreDigits a) (hb : AreDigits b) :
    AreDigits (a ++ b) := by
  intro c hmem
  obtain hmem | hmem := List.mem_append.mp hmem
  · exact ha c hmem
  · exact hb c hmem

theorem AreDigits.take {text : List Char} (h : AreDigits text) (n : Nat) :
    AreDigits (text.take n) :=
  fun c hmem => h c (List.mem_of_mem_take hmem)

theorem AreDigits.drop {text : List Char} (h : AreDigits text) (n : Nat) :
    AreDigits (text.drop n) :=
  fun c hmem => h c (List.mem_of_mem_drop hmem)

theorem areDigits_zeros (n : Nat) : AreDigits (List.replicate n '0') := by
  intro c hmem
  rw [List.eq_of_mem_replicate hmem]
  rfl

theorem AreDigits.ne {text : List Char} (h : AreDigits text) {c d : Char} (hmem : c ∈ text)
    (hd : d.isDigit = false) : c ≠ d := by
  intro heq
  have hc := h c hmem
  rw [heq, hd] at hc
  cases hc

theorem AreDigits.bne_point {text : List Char} (h : AreDigits text) :
    ∀ c ∈ text, (c != '.') = true := by
  intro c hmem
  exact bne_iff_ne.mpr (h.ne hmem rfl)

theorem areDigits_digitsOnto (n : Nat) {tail : List Char} (h : AreDigits tail) :
    AreDigits (digitsOnto n tail) := by
  fun_induction digitsOnto n tail with
  | case1 n tail hlt => exact h.cons (isDigit_digitChar n hlt)
  | case2 n tail _ ih => exact ih (h.cons (isDigit_digitChar _ (Nat.mod_lt n (by decide))))

theorem areDigits_ofNat (n : Nat) : AreDigits (ofNat n) :=
  areDigits_digitsOnto n areDigits_nil

theorem length_lt_length_digitsOnto (n : Nat) (tail : List Char) :
    tail.length < (digitsOnto n tail).length := by
  fun_induction digitsOnto n tail with
  | case1 n tail _ => exact Nat.lt_succ_self _
  | case2 n tail _ ih =>
    rw [List.length_cons] at ih
    omega

theorem length_ofNat_pos (n : Nat) : 0 < (ofNat n).length := length_lt_length_digitsOnto n []

theorem valueFrom_append (start : Nat) (a b : List Char) :
    valueFrom start (a ++ b) = valueFrom (valueFrom start a) b := List.foldl_append

/-- Writing digits in front of a text leaves the text to be read on from their value. -/
theorem valueFrom_digitsOnto (n : Nat) (tail : List Char) :
    valueFrom 0 (digitsOnto n tail) = valueFrom n tail := by
  fun_induction digitsOnto n tail with
  | case1 n tail hlt =>
    have hdigit := digitValue_digitChar n hlt
    simp only [valueFrom, List.foldl_cons, hdigit, Nat.mul_zero, Nat.zero_add]
  | case2 n tail _ ih =>
    have hdigit := digitValue_digitChar (n % 10) (Nat.mod_lt n (by decide))
    rw [ih]
    simp only [valueFrom, List.foldl_cons, hdigit, Nat.div_add_mod]

theorem valueFrom_ofNat (n : Nat) : valueFrom 0 (ofNat n) = n := valueFrom_digitsOnto n []

theorem valueFrom_zeros (start n : Nat) :
    valueFrom start (List.replicate n '0') = start * Nat.pow 10 n := by
  induction n generalizing start with
  | zero => exact (Nat.mul_one start).symm
  | succ n ih =>
    have hstep : valueFrom start (List.replicate (n + 1) '0') =
        valueFrom (10 * start) (List.replicate n '0') := rfl
    have hpow : Nat.pow 10 (n + 1) = Nat.pow 10 n * 10 := rfl
    rw [hstep, ih, hpow, Nat.mul_comm 10, Nat.mul_assoc, Nat.mul_comm 10]

/-- Zeros in front change nothing. -/
theorem valueFrom_zeros_append (n : Nat) (text : List Char) :
    valueFrom 0 (List.replicate n '0' ++ text) = valueFrom 0 text := by
  rw [valueFrom_append, valueFrom_zeros, Nat.zero_mul]

end Decimal

namespace Json

open Decimal

/-! ## Reading numbers -/

/-- Digits before and after a point. Without digits after it, there is no point. -/
def numeral (whole places : List Char) : List Char :=
  if places.isEmpty then whole else whole ++ '.' :: places

section Numerals

variable {whole places : List Char}

theorem numeral_nil (whole : List Char) : numeral whole [] = whole := rfl

theorem numeral_of_ne_nil (h : places ≠ []) : numeral whole places = whole ++ '.' :: places := by
  rw [numeral, if_neg]
  rwa [List.isEmpty_iff]

theorem numeral_cons (c : Char) (whole places : List Char) :
    numeral (c :: whole) places = c :: numeral whole places := by
  unfold numeral
  split
  · rfl
  · rfl

theorem takeWhile_numeral (hwhole : AreDigits whole) :
    (numeral whole places).takeWhile (· != '.') = whole := by
  have hne := hwhole.bne_point
  by_cases hplaces : places = []
  · rw [hplaces, numeral_nil, List.takeWhile_eq_self_iff]
    exact hne
  · rw [numeral_of_ne_nil hplaces, List.takeWhile_append_of_pos hne]
    exact List.append_nil whole

theorem dropWhile_numeral (hwhole : AreDigits whole) :
    ((numeral whole places).dropWhile (· != '.')).drop 1 = places := by
  have hne := hwhole.bne_point
  by_cases hplaces : places = []
  · rw [hplaces, numeral_nil, List.dropWhile_eq_nil_iff.mpr hne]
    rfl
  · rw [numeral_of_ne_nil hplaces, List.dropWhile_append_of_pos hne]
    rfl

theorem ne_of_mem_numeral (hwhole : AreDigits whole) (hplaces : AreDigits places) {c d : Char}
    (hmem : c ∈ numeral whole places) (hd : d.isDigit = false) (hpoint : d ≠ '.') : c ≠ d := by
  by_cases hnil : places = []
  · rw [hnil, numeral_nil] at hmem
    exact hwhole.ne hmem hd
  rw [numeral_of_ne_nil hnil, List.mem_append, List.mem_cons] at hmem
  obtain hmem | rfl | hmem := hmem
  · exact hwhole.ne hmem hd
  · exact hpoint.symm
  · exact hplaces.ne hmem hd

/-- A numeral is read digit by digit, and then the exponent after it. -/
theorem exactOf_numeral_append {suffix : List Char} (hne : whole ≠ []) (hwhole : AreDigits whole)
    (hplaces : AreDigits places) (hsuffix : suffix = [] ∨ ∃ power, suffix = 'e' :: power) :
    exactOf (numeral whole places ++ suffix) =
      ⟨false, valueFrom 0 (whole ++ places), exponentOf (suffix.drop 1) - places.length⟩ := by
  have hplain : ∀ c ∈ numeral whole places, (!(decide (c = 'e') || decide (c = 'E'))) = true := by
    intro c hmem
    have hlower := ne_of_mem_numeral hwhole hplaces hmem (d := 'e') rfl (by decide)
    have hupper := ne_of_mem_numeral hwhole hplaces hmem (d := 'E') rfl (by decide)
    simp [hlower, hupper]
  have htake : (numeral whole places ++ suffix).takeWhile
      (fun c => !(decide (c = 'e') || decide (c = 'E'))) = numeral whole places := by
    rw [List.takeWhile_append_of_pos hplain]
    obtain rfl | ⟨power, rfl⟩ := hsuffix
    · exact List.append_nil _
    · exact List.append_nil _
  have hdrop : (numeral whole places ++ suffix).dropWhile
      (fun c => !(decide (c = 'e') || decide (c = 'E'))) = suffix := by
    rw [List.dropWhile_append_of_pos hplain]
    obtain rfl | ⟨power, rfl⟩ := hsuffix
    · rfl
    · rfl
  have hunsigned : ∀ rest, numeral whole places ++ suffix ≠ '-' :: rest := by
    intro rest heq
    obtain ⟨c, tail, rfl⟩ := List.exists_cons_of_ne_nil hne
    rw [numeral_cons, List.cons_append, List.cons_eq_cons] at heq
    exact hwhole.ne List.mem_cons_self rfl heq.1
  unfold exactOf
  split
  rename_i negative unsigned hsign
  split at hsign
  · rename_i rest heq
    exact absurd heq (hunsigned rest)
  · cases hsign
    simp only [htake, hdrop, takeWhile_numeral hwhole, dropWhile_numeral hwhole]

theorem exactOf_numeral (hne : whole ≠ []) (hwhole : AreDigits whole)
    (hplaces : AreDigits places) :
    exactOf (numeral whole places) =
      ⟨false, valueFrom 0 (whole ++ places), -places.length⟩ := by
  have hread := exactOf_numeral_append hne hwhole hplaces (.inl rfl)
  rw [List.append_nil] at hread
  rw [hread, ← Int.zero_sub]
  rfl

theorem exactOf_digits (hne : whole ≠ []) (hwhole : AreDigits whole) :
    exactOf whole = ⟨false, valueFrom 0 whole, 0⟩ := by
  have hread := exactOf_numeral hne hwhole areDigits_nil
  rw [numeral_nil, List.append_nil] at hread
  exact hread

end Numerals

theorem exactOf_ofNat (n : Nat) : exactOf (Decimal.ofNat n) = .ofNat n := by
  have hne := List.ne_nil_of_length_pos (length_ofNat_pos n)
  rw [exactOf_digits hne (areDigits_ofNat n), valueFrom_ofNat]
  rfl

theorem exponentOf_signed (exponent : Int) (zeros : Nat) :
    exponentOf ((if exponent < 0 then '-' else '+') ::
      (List.replicate zeros '0' ++ Decimal.ofNat exponent.natAbs)) = exponent := by
  have hvalue : valueFrom 0 (List.replicate zeros '0' ++ Decimal.ofNat exponent.natAbs) =
      exponent.natAbs := by
    rw [valueFrom_zeros_append, valueFrom_ofNat]
  split
  · show -(valueFrom 0 _ : Int) = exponent
    rw [hvalue]
    omega
  · show (valueFrom 0 _ : Int) = exponent
    rw [hvalue]
    omega

end Json

namespace Binary64

open Decimal Json

/-! ## Reading what was laid out -/

section Layouts

variable {digits : List Char}

/-- A point among digits or before them tells how many of them are places. -/
theorem exactOf_placePoint_of_lt (hne : digits ≠ []) (hdigits : AreDigits digits) {position : Int}
    (hlt : position < digits.length) :
    exactOf (placePoint digits position) =
      ⟨false, valueFrom 0 digits, position - digits.length⟩ := by
  unfold placePoint
  by_cases hpos : position ≤ 0
  · have hplaces : List.replicate (-position).toNat '0' ++ digits ≠ [] :=
      List.append_ne_nil_of_right_ne_nil _ hne
    have hread := exactOf_numeral (List.cons_ne_nil '0' []) (areDigits_zeros 1)
      ((areDigits_zeros (-position).toNat).append hdigits)
    have hvalue : valueFrom 0 (['0'] ++ (List.replicate (-position).toNat '0' ++ digits)) =
        valueFrom 0 digits :=
      (valueFrom_zeros_append 1 _).trans (valueFrom_zeros_append _ digits)
    rw [numeral_of_ne_nil hplaces, hvalue, List.length_append, List.length_replicate] at hread
    rw [if_pos hpos]
    refine hread.trans ?_
    congr 1
    omega
  · have hlt' : position.toNat < digits.length := by omega
    have hplaces : digits.drop position.toNat ≠ [] := by
      rw [Ne, List.drop_eq_nil_iff]
      omega
    have hwhole : digits.take position.toNat ≠ [] := by
      rw [Ne, List.take_eq_nil_iff, not_or]
      exact ⟨by omega, hne⟩
    have hread := exactOf_numeral hwhole (hdigits.take _) (hdigits.drop position.toNat)
    rw [numeral_of_ne_nil hplaces, List.take_append_drop, List.length_drop] at hread
    rw [if_neg hpos, if_neg (Nat.not_le.mpr hlt'), hread]
    congr 1
    omega

/-- A point that would stand behind the digits is left out, and zeros fill up the space. -/
theorem exactOf_placePoint_of_le (hne : digits ≠ []) (hdigits : AreDigits digits) {position : Int}
    (hle : digits.length ≤ position) :
    exactOf (placePoint digits position) =
      ⟨false, valueFrom 0 digits * Nat.pow 10 (position - digits.length).toNat, 0⟩ := by
  have hlength := List.length_pos_iff.mpr hne
  unfold placePoint
  rw [if_neg (by omega), if_pos (by omega),
    exactOf_digits (List.append_ne_nil_of_left_ne_nil hne _) (hdigits.append (areDigits_zeros _)),
    valueFrom_append, valueFrom_zeros]
  congr 3
  omega

theorem withExponent_cons (d : Char) (places : List Char) (exponent : Int) (least : Nat) :
    withExponent (d :: places) exponent least =
      numeral [d] places ++ 'e' :: (if exponent < 0 then '-' else '+') ::
        (List.replicate (least - (Decimal.ofNat exponent.natAbs).length) '0' ++
          Decimal.ofNat exponent.natAbs) := by
  cases places with
  | nil => rfl
  | cons c places =>
    rw [numeral_of_ne_nil (List.cons_ne_nil c places)]
    simp [withExponent]

/-- The exponent is that of the first digit. -/
theorem exactOf_withExponent (hne : digits ≠ []) (hdigits : AreDigits digits) (exponent : Int)
    (least : Nat) :
    exactOf (withExponent digits exponent least) =
      ⟨false, valueFrom 0 digits, exponent + 1 - digits.length⟩ := by
  obtain ⟨d, places, rfl⟩ := List.exists_cons_of_ne_nil hne
  have hplaces : AreDigits places := hdigits.drop 1
  have hfirst : AreDigits [d] := hdigits.take 1
  rw [withExponent_cons,
    exactOf_numeral_append (List.cons_ne_nil d []) hfirst hplaces (.inr ⟨_, rfl⟩),
    List.drop_one, List.tail_cons, exponentOf_signed, List.length_cons]
  congr 1
  omega

end Layouts

/-- The text of a magnitude is read as its shortest decimal, with the zeros at the end either
written out or left to the power of ten. -/
theorem exactOf_magnitudeText (layout : Layout) (m : Nat) :
    exactOf (magnitudeText layout m) = ⟨false, (shortest m).coefficient, (shortest m).exponent⟩ ∨
    0 ≤ (shortest m).exponent ∧
      exactOf (magnitudeText layout m) =
        ⟨false, (shortest m).coefficient * Nat.pow 10 (shortest m).exponent.toNat, 0⟩ := by
  by_cases hzero : m = 0
  · left
    rw [hzero]
    rfl
  have hne := List.ne_nil_of_length_pos (length_ofNat_pos (shortest m).coefficient)
  have hdigits := areDigits_ofNat (shortest m).coefficient
  have hvalue := valueFrom_ofNat (shortest m).coefficient
  unfold magnitudeText
  rw [if_neg hzero]
  dsimp only
  by_cases hpositional : layout.isPositional
      ((Decimal.ofNat (shortest m).coefficient).length + (shortest m).exponent - 1) = true
  · rw [if_pos hpositional]
    by_cases hexponent : 0 ≤ (shortest m).exponent
    · right
      rw [exactOf_placePoint_of_le hne hdigits (by omega), hvalue]
      refine ⟨hexponent, ?_⟩
      congr 3
      omega
    · left
      rw [exactOf_placePoint_of_lt hne hdigits (by omega), hvalue]
      congr 1
      omega
  · left
    rw [if_neg hpositional, exactOf_withExponent hne hdigits, hvalue]
    congr 1
    omega

/-! ## The size of shortest decimals -/

namespace ShortDecimal

/-- Not larger than an integer. -/
def AtMost (n : Nat) (d : ShortDecimal) : Prop :=
  d.coefficient * Nat.pow 10 d.exponent.toNat ≤ n * Nat.pow 10 (-d.exponent).toNat

instance (n : Nat) (d : ShortDecimal) : Decidable (AtMost n d) :=
  inferInstanceAs (Decidable (_ ≤ _))

variable {n : Nat} {d : ShortDecimal}

/-- A zero at the end of the coefficient may move to the power of ten. -/
theorem AtMost.shift (h : AtMost n d) (hmod : d.coefficient % 10 = 0) :
    AtMost n ⟨d.coefficient / 10, d.exponent + 1⟩ := by
  obtain ⟨c, exponent⟩ := d
  have hc : c / 10 * 10 = c := Nat.div_mul_cancel (Nat.dvd_of_mod_eq_zero hmod)
  unfold AtMost at h ⊢
  dsimp only at h ⊢
  by_cases hnonneg : 0 ≤ exponent
  · have hnext : (exponent + 1).toNat = exponent.toNat + 1 := by omega
    have hscale : (-exponent).toNat = 0 := by omega
    have hscale' : (-(exponent + 1)).toNat = 0 := by omega
    have hpow : Nat.pow 10 (exponent.toNat + 1) = 10 * Nat.pow 10 exponent.toNat :=
      Nat.mul_comm _ _
    rw [hscale] at h
    rw [hnext, hscale', hpow, ← Nat.mul_assoc, hc]
    exact h
  · have hpoint : exponent.toNat = 0 := by omega
    have hpoint' : (exponent + 1).toNat = 0 := by omega
    have hscale : (-exponent).toNat = (-(exponent + 1)).toNat + 1 := by omega
    have hpow : Nat.pow 10 ((-(exponent + 1)).toNat + 1) =
        Nat.pow 10 (-(exponent + 1)).toNat * 10 := rfl
    rw [hpoint, hscale, hpow, ← Nat.mul_assoc, ← hc, Nat.mul_right_comm] at h
    rw [hpoint']
    exact Nat.le_of_mul_le_mul_right h (by decide)

theorem AtMost.strip (h : AtMost n d) : AtMost n d.strip := by
  fun_induction ShortDecimal.strip d with
  | case1 d _ => exact Nat.le_trans (Nat.le_of_eq (Nat.zero_mul _)) (Nat.zero_le _)
  | case2 d _ hmod ih => exact ih (h.shift hmod)
  | case3 d _ _ => exact h

theorem le_exponent_strip {low : Int} (hlow : low ≤ 0) (h : low ≤ d.exponent) :
    low ≤ d.strip.exponent := by
  fun_induction ShortDecimal.strip d with
  | case1 d _ => exact hlow
  | case2 d _ _ ih => exact ih (Int.le_trans h (Int.le_add_one (Int.le_refl _)))
  | case3 d _ _ => exact h

end ShortDecimal

theorem roundsTo_of_onGrid? {m : Nat} {exponent : Int} {d : ShortDecimal}
    (h : onGrid? m exponent = some d) : roundsTo m d = true ∧ d.exponent = exponent := by
  unfold onGrid? at h
  dsimp only at h
  split at h
  · rename_i hlow hhigh
    obtain rfl := Option.some.inj h
    -- Rounding goes to one of the two neighbours on the grid, and both stand for the magnitude.
    obtain heq | heq := roundHalfEven_eq_or (unitsOf m * Nat.pow 10 (-exponent).toNat)
      (unitsOfOne * Nat.pow 10 exponent.toNat)
    · rw [heq]
      exact ⟨hlow, rfl⟩
    · rw [heq]
      exact ⟨hhigh, rfl⟩
  · rename_i hlow _
    cases h
    exact ⟨hlow, rfl⟩
  · rename_i _ hhigh
    cases h
    exact ⟨hhigh, rfl⟩
  · cases h

/-- The search ends with a decimal that rounds to the magnitude, or else writes its units. -/
theorem searchShortest_cases (m : Nat) (position : Int) (digits : Nat) (hdigits : digits ≤ 17) :
    (∃ d, searchShortest m position digits = d.strip ∧ roundsTo m d = true ∧
      position - 17 ≤ d.exponent) ∨
    searchShortest m position digits = ⟨unitsOf m, -1074⟩ := by
  fun_induction searchShortest m position digits with
  | case1 digits d hgrid =>
    obtain ⟨hround, hexponent⟩ := roundsTo_of_onGrid? hgrid
    exact .inl ⟨d, rfl, hround, by omega⟩
  | case2 digits _ hlt ih => exact ih hlt
  | case3 digits _ _ => exact .inr rfl

theorem le_pointPosition (m : Nat) : -399 ≤ pointPosition m := by
  have hlength := length_ofNat_pos (unitsOf m * Nat.pow 10 400 / unitsOfOne)
  unfold pointPosition
  omega

theorem le_exponent_shortest (m : Nat) : -1074 ≤ (shortest m).exponent := by
  unfold shortest
  split
  · decide
  have hposition := le_pointPosition m
  obtain ⟨d, heq, -, hexponent⟩ | heq := searchShortest_cases m (pointPosition m) 1 (by decide)
  · rw [heq]
    exact ShortDecimal.le_exponent_strip (by decide) (by omega)
  · rw [heq]

theorem halfUnitsOfOne_eq : halfUnitsOfOne = 2 * unitsOfOne := by decide +kernel

/-- A decimal that rounds to a magnitude does not go beyond the next one. -/
theorem atMost_of_roundsTo {m n : Nat} {d : ShortDecimal} (hround : roundsTo m d = true)
    (hnext : unitsOf (m + 1) ≤ n * unitsOfOne) : d.AtMost n := by
  have hhigh : d.coefficient * Nat.pow 10 d.exponent.toNat * halfUnitsOfOne ≤
      (unitsOf m + unitsOf (m + 1)) * Nat.pow 10 (-d.exponent).toNat := by
    unfold roundsTo at hround
    dsimp only at hround
    split at hround
    · rw [Bool.and_eq_true] at hround
      exact of_decide_eq_true hround.2
    · rw [Bool.and_eq_true] at hround
      exact Nat.le_of_lt (of_decide_eq_true hround.2)
  have hunits := unitsOf_mono (Nat.le_add_right m 1)
  apply Nat.le_of_mul_le_mul_right (c := halfUnitsOfOne) _ (by decide +kernel)
  calc d.coefficient * Nat.pow 10 d.exponent.toNat * halfUnitsOfOne
      ≤ (unitsOf m + unitsOf (m + 1)) * Nat.pow 10 (-d.exponent).toNat := hhigh
    _ ≤ n * halfUnitsOfOne * Nat.pow 10 (-d.exponent).toNat := by
      apply Nat.mul_le_mul_right
      rw [halfUnitsOfOne_eq, Nat.mul_left_comm]
      omega
    _ = n * Nat.pow 10 (-d.exponent).toNat * halfUnitsOfOne := Nat.mul_right_comm _ _ _

/-- The units of a magnitude, taken for places of ten instead of two, are a smaller number. -/
theorem atMost_units {m n : Nat} (h : unitsOf m ≤ n * unitsOfOne) (places : Nat)
    (hplaces : unitsOfOne ≤ Nat.pow 10 places) : ShortDecimal.AtMost n ⟨unitsOf m, -places⟩ := by
  have hscale := Nat.mul_le_mul_left n hplaces
  unfold ShortDecimal.AtMost
  dsimp only
  rw [Int.toNat_neg_natCast, Int.neg_neg, Int.toNat_natCast]
  exact Nat.le_trans (Nat.le_of_eq (Nat.mul_one _)) (Nat.le_trans h hscale)

/-- A bound that is a number itself, and is written as such, bounds the decimals of all magnitudes
up to its own. -/
theorem atMost_shortest {m n : Nat} (hle : m ≤ (ofNat n).magnitude)
    (hexact : (ofNat n).units = n * unitsOfOne)
    (hwritten : (shortest (ofNat n).magnitude).AtMost n) : (shortest m).AtMost n := by
  obtain hlt | rfl := Nat.lt_or_eq_of_le hle
  · have hnext : unitsOf (m + 1) ≤ n * unitsOfOne := hexact ▸ unitsOf_mono hlt
    unfold shortest
    split
    · exact Nat.le_trans (Nat.le_of_eq (Nat.zero_mul _)) (Nat.zero_le _)
    obtain ⟨d, heq, hround, -⟩ | heq := searchShortest_cases m (pointPosition m) 1 (by decide)
    · rw [heq]
      exact (atMost_of_roundsTo hround hnext).strip
    · rw [heq]
      have hunits := unitsOf_mono (Nat.le_add_right m 1)
      exact atMost_units (Nat.le_trans hunits hnext) 1074 (by decide +kernel)
  · exact hwritten

end Binary64

namespace Decimal.Exact

open Binary64

/-! ## Comparing what was read -/

theorem zero_le (coefficient : Nat) (exponent : Int) :
    (ofNat 0).le ⟨false, coefficient, exponent⟩ = true := by
  apply decide_eq_true
  show (0 : Int) * _ ≤ (coefficient : Int) * _
  rw [Int.zero_mul]
  exact Int.mul_nonneg (Int.natCast_nonneg _) (Int.natCast_nonneg _)

/-- Comparing with an integer is exact for numbers that are not too small to be looked at closely.
-/
theorem le_ofNat {n coefficient : Nat} {exponent : Int} (hfar : -(farthest : Int) ≤ exponent)
    (h : ShortDecimal.AtMost n ⟨coefficient, exponent⟩) :
    le ⟨false, coefficient, exponent⟩ (ofNat n) = true := by
  have hfarthest : (farthest : Int) = 1000000 := rfl
  -- An exponent that is too large is taken for a smaller one, which is all right here.
  have hpoint : (max (-(farthest : Int)) (min farthest exponent) -
      min (max (-(farthest : Int)) (min farthest exponent)) 0).toNat ≤ exponent.toNat := by omega
  have hscale : (0 - min (max (-(farthest : Int)) (min farthest exponent)) 0).toNat =
      (-exponent).toNat := by omega
  apply decide_eq_true
  show (coefficient : Int) * (Nat.pow 10 (max (-(farthest : Int)) (min farthest exponent) -
      min (max (-(farthest : Int)) (min farthest exponent)) 0).toNat : Nat) ≤
    (n : Int) * (Nat.pow 10
      (0 - min (max (-(farthest : Int)) (min farthest exponent)) 0).toNat : Nat)
  rw [hscale, ← Int.natCast_mul, ← Int.natCast_mul, Int.ofNat_le]
  have hpow := Nat.pow_le_pow_right (n := 10) (by decide) hpoint
  exact Nat.le_trans (Nat.mul_le_mul_left coefficient hpow) h

end Decimal.Exact

namespace Binary64

open Decimal Json

theorem chars_eq_magnitudeText {x : Binary64} (h : x.IsPlain) (layout : Layout) :
    x.chars layout = magnitudeText layout x.magnitude := by
  simp [chars, isNaN_eq_false h, isInfinite_eq_false h, h.isNegative_eq]

/-- The text of a number between zero and a hundred is read as such a number. -/
theorem exactOf_chars_within {x : Binary64} (h : (Binary64.ofNat 100).UpTo x) (layout : Layout) :
    (Exact.ofNat 0).le (exactOf (x.chars layout)) = true ∧
      (exactOf (x.chars layout)).le (.ofNat 100) = true := by
  have hchars := chars_eq_magnitudeText (h.isPlain (isPlain_ofNat (by decide))) layout
  have hexact : (Binary64.ofNat 100).units = 100 * unitsOfOne := by decide +kernel
  have hwritten : (shortest (Binary64.ofNat 100).magnitude).AtMost 100 := by decide +kernel
  have hmost := atMost_shortest h.magnitude_le hexact hwritten
  have hlow := le_exponent_shortest x.magnitude
  have hfarthest : (Exact.farthest : Int) = 1000000 := rfl
  rw [hchars]
  obtain hread | ⟨hnonneg, hread⟩ := exactOf_magnitudeText layout x.magnitude
  · rw [hread]
    exact ⟨Exact.zero_le _ _, Exact.le_ofNat (by omega) hmost⟩
  · rw [hread]
    refine ⟨Exact.zero_le _ _, Exact.le_ofNat (by omega) ?_⟩
    have hscale : (-(shortest x.magnitude).exponent).toNat = 0 := by omega
    unfold ShortDecimal.AtMost at hmost
    rw [hscale] at hmost
    exact Nat.le_trans (Nat.le_of_eq (Nat.mul_one _)) hmost

end Binary64

end MonitorCoverage
