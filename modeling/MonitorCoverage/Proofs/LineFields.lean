import MonitorCoverage.Decimal.Literal
import MonitorCoverage.Proofs.ReportReading

/-!
# The fields of lines

The line that sums up a class falls into three fields where four blanks stand: the total, the locked
count and the percentage. No field holds a blank, so the fields are those that were written. The two
counts are read back as the integers that they are, negative ones included, and the percentage has a
whole part and places whatever the counts are, since it is never infinite. So a line tells the total
and the locked count, and nothing else goes into it.
-/

namespace MonitorCoverage

/-! ## Splitting at a delimiter -/

namespace Text

/-- The parts of a text between the occurrences of a delimiter. Occurrences are looked for from the
left and do not overlap. -/
def fields (delimiter : List Char) : List Char → List (List Char)
  | [] => [[]]
  | c :: cs =>
    if delimiter.isPrefixOf (c :: cs) then
      [] :: fields delimiter (cs.drop (delimiter.length - 1))
    else (fields delimiter cs).modifyHead (c :: ·)
termination_by text => text.length

section Fields

variable {d : Char} {ds field : List Char}

theorem fields_delimiter (rest : List Char) :
    fields (d :: ds) (d :: ds ++ rest) = [] :: fields (d :: ds) rest := by
  have hprefix : (d :: ds).isPrefixOf (d :: (ds ++ rest)) = true := by
    rw [List.isPrefixOf_iff_prefix]
    exact ⟨rest, rfl⟩
  rw [List.cons_append, fields, if_pos hprefix]
  simp

/-- A character with which no delimiter starts belongs to the field that follows. -/
theorem fields_cons_of_ne {c : Char} (h : c ≠ d) (rest : List Char) :
    fields (d :: ds) (c :: rest) = (fields (d :: ds) rest).modifyHead (c :: ·) := by
  rw [fields, if_neg]
  simp [List.isPrefixOf, h.symm]

theorem fields_of_not_mem (h : d ∉ field) : fields (d :: ds) field = [field] := by
  induction field with
  | nil => simp [fields]
  | cons c field ih =>
    rw [List.mem_cons, not_or] at h
    rw [fields_cons_of_ne (Ne.symm h.1), ih h.2]
    simp

/-- A field ends at the first delimiter behind it. -/
theorem fields_append (h : d ∉ field) (rest : List Char) :
    fields (d :: ds) (field ++ (d :: ds ++ rest)) = field :: fields (d :: ds) rest := by
  induction field with
  | nil => exact fields_delimiter rest
  | cons c field ih =>
    rw [List.mem_cons, not_or] at h
    rw [List.cons_append, fields_cons_of_ne (Ne.symm h.1), ih h.2]
    simp

end Fields

end Text

/-! ## Reading integers back -/

namespace Decimal

open Binary64 (hexDigit? digitIn? takeDigits takeSign valueOf)

theorem digitValue_lt {c : Char} (h : c.isDigit = true) : digitValue c < 10 := by
  simp only [Char.isDigit, Bool.and_eq_true, decide_eq_true_eq, ge_iff_le,
    UInt32.le_iff_toNat_le] at h
  have hcode : c.toNat = c.val.toNat := rfl
  have hzero : '0'.toNat = 48 := rfl
  simp only [digitValue, hzero, hcode]
  have hlow : '0'.val.toNat = 48 := rfl
  have hhigh : '9'.val.toNat = 57 := rfl
  omega

theorem digitIn?_eq {c : Char} (h : c.isDigit = true) : digitIn? 10 c = some (digitValue c) := by
  have hlt := digitValue_lt h
  have hhex : hexDigit? c = some (digitValue c) := if_pos h
  simp [digitIn?, hhex, hlt]

theorem takeDigits_eq {digits : List Char} (h : AreDigits digits) :
    takeDigits 10 digits = (digits.map digitValue, []) := by
  induction digits with
  | nil => rfl
  | cons c digits ih =>
    have hc := digitIn?_eq (h c List.mem_cons_self)
    simp [takeDigits, hc, ih (h.drop 1)]

theorem digitsNat?_ofNat (n : Nat) : digitsNat? 10 (ofNat n) = some n := by
  have htake := takeDigits_eq (areDigits_ofNat n)
  have hvalue : valueOf 10 ((ofNat n).map digitValue) = n := by
    rw [valueOf, List.foldl_map]
    exact valueFrom_ofNat n
  obtain ⟨d, ds, heq⟩ := List.exists_cons_of_length_pos (length_ofNat_pos n)
  rw [heq, List.map_cons] at hvalue htake
  rw [digitsNat?, heq, htake]
  simp only [hvalue]

theorem takeSign_ofNat (n : Nat) : takeSign (ofNat n) = (none, ofNat n) := by
  have hdigits := areDigits_ofNat n
  unfold takeSign
  split
  · rename_i rest heq
    rw [heq] at hdigits
    exact absurd (hdigits '+' List.mem_cons_self) (by decide)
  · rename_i rest heq
    rw [heq] at hdigits
    exact absurd (hdigits '-' List.mem_cons_self) (by decide)
  · rfl

/-- The decimal form of a signed word is read as that word. -/
theorem readInteger_ofInt (i : Int64) : readInteger (ofInt i.toInt) = .ok i := by
  have hlow := i.le_toInt
  have hhigh := i.toInt_lt
  have hpow : Nat.pow 2 63 = 9223372036854775808 := rfl
  cases hi : i.toInt with
  | ofNat n =>
    rw [hi, Int.ofNat_eq_natCast] at hhigh
    have hword : Int64.ofInt n = i := by
      rw [← Int64.ofInt_toInt (x := i), hi]
      rfl
    have hlt : n < Nat.pow 2 63 := by omega
    simp [readInteger, readSigned, ofInt, takeSign_ofNat, digitsNat?_ofNat, signed64, hlt, hword]
  | negSucc n =>
    rw [hi] at hlow
    have hword : Int64.ofInt (-((n + 1 : Nat) : Int)) = i := by
      rw [← Int64.ofInt_toInt (x := i), hi]
      rfl
    have hle : n + 1 ≤ Nat.pow 2 63 := by omega
    simp only [readInteger, readSigned, ofInt, takeSign, digitsNat?_ofNat, signed64, hle, hword,
      if_true, decide_true]

theorem digitsOnto_eq_toDigits (n : Nat) (tail : List Char) :
    digitsOnto n tail = Nat.toDigits 10 n ++ tail := by
  fun_induction digitsOnto n tail with
  | case1 n tail hlt => simp [Nat.toDigits_of_lt_base hlt]
  | case2 n tail hge ih =>
    rw [ih, Nat.toDigits_of_base_le (by decide) (Nat.le_of_not_lt hge)]
    simp

theorem ofNat_eq_toString (n : Nat) : ofNat n = (toString n).toList := by
  rw [ofNat, digitsOnto_eq_toDigits, List.append_nil]
  simp

/-- The decimal form has no other digits than the standard one. -/
theorem ofInt_eq_toString (i : Int) : ofInt i = (toString i).toList := by
  cases i with
  | ofNat n => exact ofNat_eq_toString n
  | negSucc n =>
    show '-' :: ofNat (n + 1) = ("-" ++ toString (n + 1)).toList
    rw [ofNat_eq_toString, String.toList_append]
    rfl

theorem not_mem_ofInt {c : Char} (hdigit : c.isDigit = false) (hminus : c ≠ '-') (i : Int) :
    c ∉ ofInt i := by
  intro hmem
  cases i with
  | ofNat n => exact (areDigits_ofNat n).ne hmem hdigit rfl
  | negSucc n =>
    obtain heq | hmem := List.mem_cons.mp hmem
    · exact hminus heq
    · exact (areDigits_ofNat (n + 1)).ne hmem hdigit rfl

end Decimal

/-! ## The sign of percentages -/

namespace Binary64

theorem magnitude_infinity (negative : Bool) :
    (infinity negative).magnitude = infinityMagnitude :=
  magnitude_ofParts negative (Nat.le_refl _)

/-- Two numbers of one size, each with its own sign. -/
structure SameSize (x y : Binary64) : Prop where
  magnitude_eq : x.magnitude = y.magnitude

namespace SameSize

variable {x y z : Binary64}

theorem isNaN_eq (h : x.SameSize y) : x.isNaN = y.isNaN := by
  rw [isNaN, isNaN, h.magnitude_eq]

theorem isInfinite_eq (h : x.SameSize y) : x.isInfinite = y.isInfinite := by
  rw [isInfinite, isInfinite, h.magnitude_eq]

theorem isFinite_eq (h : x.SameSize y) : x.isFinite = y.isFinite := by
  rw [isFinite, isFinite, h.magnitude_eq]

theorem units_eq (h : x.SameSize y) : x.units = y.units := by
  rw [units, units, h.magnitude_eq]

/-- The size of a product does not depend on the sign of a factor. -/
theorem mul (h : x.SameSize y) : (x.mul z).SameSize (y.mul z) := by
  constructor
  simp only [Binary64.mul, h.isNaN_eq, h.isInfinite_eq, h.units_eq, h.magnitude_eq,
    apply_ite magnitude, magnitude_infinity, magnitude_ofParts _ (nearestMagnitude_le _ _)]

theorem div (h : x.SameSize y) : (x.div z).SameSize (y.div z) := by
  constructor
  simp only [Binary64.div, h.isNaN_eq, h.isInfinite_eq, h.units_eq, h.magnitude_eq,
    apply_ite magnitude, magnitude_infinity, magnitude_ofParts _ (Nat.zero_le _),
    magnitude_ofParts _ (nearestMagnitude_le _ _)]

theorem round (h : x.SameSize y) : x.round.SameSize y.round := by
  constructor
  simp only [Binary64.round, h.isFinite_eq, h.units_eq, h.magnitude_eq, apply_ite magnitude,
    magnitude_ofParts _ (nearestMagnitude_le _ _)]

end SameSize

theorem sameSize_ofInt (i : Int) : (ofInt i).SameSize (ofNat i.natAbs) := by
  constructor
  rw [ofInt, ofNat, magnitude_ofParts _ (nearestMagnitude_le _ _),
    magnitude_ofParts _ (nearestMagnitude_le _ _)]

end Binary64

namespace Lock

open Binary64

/-- A percentage is finite whatever the two counts are. -/
theorem isFinite_percentOf (locked total : Int64) : (percentOf locked total).isFinite = true := by
  unfold percentOf
  split
  · decide
  rename_i hone
  have hword : (1 : Int64).toInt = 1 := rfl
  rw [Int64.lt_iff_toInt_lt, hword] at hone
  obtain ⟨n, hn⟩ := Int.eq_ofNat_of_zero_le (show 0 ≤ total.toInt by omega)
  have hlow := locked.le_toInt
  have hhigh := locked.toInt_lt
  have hlt := total.toInt_lt
  rw [hn, ofInt_natCast]
  -- The sign changes no size on the way, so the share of the absolute value decides.
  have hsize := ((sameSize_ofInt locked.toInt).div (z := ofNat n)).mul (z := ofNat 100)
  have hrounded := (hsize.mul (z := ofNat 100)).round.div (z := ofNat 100)
  have hshare := isPlain_share (m := locked.toInt.natAbs) (n := n) (by omega) (by omega) (by omega)
  exact hrounded.isFinite_eq.trans hshare.isFinite_eq

end Lock

/-! ## The form of percentages -/

namespace Binary64

open Decimal Json

/-- Digits with a point placed among them have a whole part, and places where the point is. -/
theorem exists_numeral_placePoint {digits : List Char} (hne : digits ≠ [])
    (hdigits : AreDigits digits) (position : Int) :
    ∃ whole places, whole ≠ [] ∧ AreDigits whole ∧ AreDigits places ∧
      placePoint digits position = numeral whole places := by
  unfold placePoint
  split
  · have hplaces : List.replicate (-position).toNat '0' ++ digits ≠ [] :=
      List.append_ne_nil_of_right_ne_nil _ hne
    refine ⟨['0'], List.replicate (-position).toNat '0' ++ digits, List.cons_ne_nil _ _,
      areDigits_zeros 1, (areDigits_zeros _).append hdigits, ?_⟩
    rw [numeral_of_ne_nil hplaces]
    rfl
  split
  · exact ⟨_, [], List.append_ne_nil_of_left_ne_nil hne _, hdigits.append (areDigits_zeros _),
      areDigits_nil, (numeral_nil _).symm⟩
  · rename_i hpos hlt
    have hplaces : digits.drop position.toNat ≠ [] := by
      rw [Ne, List.drop_eq_nil_iff]
      omega
    have hwhole : digits.take position.toNat ≠ [] := by
      rw [Ne, List.take_eq_nil_iff, not_or]
      exact ⟨by omega, hne⟩
    exact ⟨_, _, hwhole, hdigits.take _, hdigits.drop _, (numeral_of_ne_nil hplaces).symm⟩

theorem exists_numeral_magnitudeText (m : Nat) :
    ∃ whole places, whole ≠ [] ∧ AreDigits whole ∧ AreDigits places ∧
      magnitudeText .positional m = numeral whole places := by
  unfold magnitudeText
  split
  · exact ⟨['0'], [], List.cons_ne_nil _ _, areDigits_zeros 1, areDigits_nil, rfl⟩
  · exact exists_numeral_placePoint (List.ne_nil_of_length_pos (length_ofNat_pos _))
      (areDigits_ofNat _) _

/-- A finite number that is written positionally is an optional sign, digits, and optionally a point
with digits behind it. -/
theorem exists_numeral_chars {x : Binary64} (h : x.isFinite = true) :
    ∃ sign whole places, (sign = [] ∨ sign = ['-']) ∧ whole ≠ [] ∧ AreDigits whole ∧
      AreDigits places ∧ x.chars .positional = sign ++ numeral whole places := by
  have hlt : x.magnitude < infinityMagnitude := of_decide_eq_true h
  have hnan : x.isNaN = false := decide_eq_false (Nat.lt_asymm hlt)
  have hinfinite : x.isInfinite = false := decide_eq_false (Nat.ne_of_lt hlt)
  obtain ⟨whole, places, hne, hwhole, hplaces, htext⟩ := exists_numeral_magnitudeText x.magnitude
  refine ⟨if x.isNegative then ['-'] else [], whole, places, ?_, hne, hwhole, hplaces, ?_⟩
  · split <;> simp
  · simp [chars, hnan, hinfinite, htext]

end Binary64

namespace Lock

open Decimal Json

/-- An optional minus, digits, a point, digits and a percent sign. -/
inductive IsPercentage : List Char → Prop where
  | parts {sign whole places : List Char} (hsign : sign = [] ∨ sign = ['-'])
    (hwholeNe : whole ≠ []) (hwhole : AreDigits whole) (hplacesNe : places ≠ [])
    (hplaces : AreDigits places) :
    IsPercentage (sign ++ (whole ++ '.' :: (places ++ ['%'])))

theorem IsPercentage.not_mem {text : List Char} (h : IsPercentage text) {c : Char}
    (hdigit : c.isDigit = false) (hminus : c ≠ '-') (hpoint : c ≠ '.') (hpercent : c ≠ '%') :
    c ∉ text := by
  cases h with
  | parts hsign _ hwhole _ hplaces =>
    intro hmem
    simp only [List.mem_append, List.mem_cons, List.not_mem_nil, or_false] at hmem
    obtain hmem | hmem | heq | hmem | heq := hmem
    · obtain rfl | rfl := hsign
      · cases hmem
      · exact hminus (List.mem_singleton.mp hmem)
    · exact hwhole.ne hmem hdigit rfl
    · exact hpoint heq
    · exact hplaces.ne hmem hdigit rfl
    · exact hpercent heq

theorem isPercentage_percentChars {x : Binary64} (h : x.isFinite = true) :
    IsPercentage (percentChars x ++ ['%']) := by
  obtain ⟨sign, whole, places, hsign, hne, hwhole, hplaces, hchars⟩ :=
    Binary64.exists_numeral_chars h
  unfold percentChars
  dsimp only
  rw [hchars]
  by_cases hnil : places = []
  · -- Without a point, a place is added.
    have hpoint : (sign ++ numeral whole places).contains '.' = false := by
      rw [hnil, numeral_nil, List.contains_eq_mem]
      apply decide_eq_false
      intro hmem
      obtain hmem | hmem := List.mem_append.mp hmem
      · obtain rfl | rfl := hsign <;> simp at hmem
      · exact hwhole.ne hmem rfl rfl
    rw [hpoint, hnil, numeral_nil]
    have hform := IsPercentage.parts hsign hne hwhole (List.cons_ne_nil '0' []) (areDigits_zeros 1)
    simpa using hform
  · have hpoint : (sign ++ numeral whole places).contains '.' = true := by
      rw [numeral_of_ne_nil hnil]
      simp
    rw [hpoint, numeral_of_ne_nil hnil]
    have hform := IsPercentage.parts hsign hne hwhole hnil hplaces
    simpa using hform

/-! ## Lines -/

namespace ClassTally

/-- What stands between the fields of a line. -/
def delimiter : List Char := [' ', ' ', ' ', ' ']

theorem toList_line (tally : ClassTally) :
    tally.line.toList = Decimal.ofInt tally.total.toInt ++ (delimiter ++
      (Decimal.ofInt tally.locked.toInt ++
        (delimiter ++ (percentChars tally.percent ++ ['%'])))) := by
  simp [line, Decimal.text, percentText, delimiter]

theorem isPercentage_percent (tally : ClassTally) :
    IsPercentage (percentChars tally.percent ++ ['%']) :=
  isPercentage_percentChars (isFinite_percentOf tally.locked tally.total)

/-- The fields are what was written between the delimiters. -/
theorem fields_line (tally : ClassTally) :
    Text.fields delimiter tally.line.toList = [Decimal.ofInt tally.total.toInt,
      Decimal.ofInt tally.locked.toInt, percentChars tally.percent ++ ['%']] := by
  have hcount (i : Int) : ' ' ∉ Decimal.ofInt i := Decimal.not_mem_ofInt rfl (by decide) i
  have hpercent := (isPercentage_percent tally).not_mem (c := ' ') rfl (by decide) (by decide)
    (by decide)
  rw [toList_line, delimiter, Text.fields_append (hcount _), Text.fields_append (hcount _),
    Text.fields_of_not_mem hpercent]

theorem eq_of_line_eq {a b : ClassTally} (h : a.line = b.line) :
    a.total = b.total ∧ a.locked = b.locked := by
  have hfields := fields_line a
  rw [h, fields_line b] at hfields
  simp only [List.cons.injEq] at hfields
  have htotal := Decimal.readInteger_ofInt a.total
  have hlocked := Decimal.readInteger_ofInt a.locked
  rw [← hfields.1, Decimal.readInteger_ofInt] at htotal
  rw [← hfields.2.1, Decimal.readInteger_ofInt] at hlocked
  exact ⟨(Except.ok.inj htotal).symm, (Except.ok.inj hlocked).symm⟩

/-- The line of a class can be parsed, whatever its counts are, negative ones and a locked count
above the total included. At four blanks it falls into three fields. The first two are the total and
the locked count in decimal, which are read back as these integers, and the third is a percentage
with its sign, whole part and places. Lines are equal exactly if total and locked count are, so the
numbers of methods and of fields do not go into them. -/
theorem line_parses (tally : ClassTally) :
    (∃ total locked percentage,
      Text.fields [' ', ' ', ' ', ' '] tally.line.toList = [total, locked, percentage] ∧
      total = (toString tally.total.toInt).toList ∧ Decimal.readInteger total = .ok tally.total ∧
      locked = (toString tally.locked.toInt).toList ∧
      Decimal.readInteger locked = .ok tally.locked ∧ IsPercentage percentage) ∧
    ∀ other : ClassTally,
      other.line = tally.line ↔ other.total = tally.total ∧ other.locked = tally.locked := by
  refine ⟨⟨_, _, _, fields_line tally, Decimal.ofInt_eq_toString _, Decimal.readInteger_ofInt _,
    Decimal.ofInt_eq_toString _, Decimal.readInteger_ofInt _, isPercentage_percent tally⟩,
    fun other => ⟨eq_of_line_eq, ?_⟩⟩
  intro hcounts
  obtain ⟨htotal, hlocked⟩ := hcounts
  simp only [line, percent, htotal, hlocked]

end ClassTally

end Lock

end MonitorCoverage
