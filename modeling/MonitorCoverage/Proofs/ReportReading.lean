import MonitorCoverage.Proofs.JsonGrammar
import MonitorCoverage.Proofs.SchemaMeaning
import MonitorCoverage.Proofs.ShortestDecimals

/-!
# Reading reports

A report that is written as JSON can be read back. What is read off a JSON value is a class with its
counts and a row for each method; texts are read as characters, counts as integers and percentages
as the nearest numbers. A written report tells all that there is to tell, but for stray bytes in
names, which are read as replacement characters.
-/

namespace MonitorCoverage

namespace Decimal.Exact

/-- The integer that an exact decimal is, if it is one. -/
def toInt? (x : Exact) : Option Int :=
  if 0 ≤ x.exponent then some (x.signed * Nat.pow 10 x.exponent.toNat)
  else if x.signed % Nat.pow 10 x.exponent.natAbs = 0 then
    some (x.signed / Nat.pow 10 x.exponent.natAbs)
  else none

end Decimal.Exact

namespace Report

open Json (exactOf)

/-! ## What can be read off a value -/

/-- What a JSON value tells of a method. -/
structure RowReading where
  name : String
  descriptor : String
  isSynchronized : Bool
  events : Int
  total : Int
  locked : Int
  percent : Binary64
  deriving DecidableEq, Repr

/-- What a JSON value tells of a class. -/
structure Reading where
  name : String
  rows : List RowReading
  total : Int
  locked : Int
  percent : Binary64
  methods : Int
  fields : Int
  deriving DecidableEq, Repr

def textOf? : Json.Value → Option String
  | .string text => some text
  | _ => none

def flagOf? : Json.Value → Option Bool
  | .bool b => some b
  | _ => none

def integerOf? : Json.Value → Option Int
  | .number literal => (exactOf literal).toInt?
  | _ => none

def numberOf? : Json.Value → Option Binary64
  | .number literal => some (.ofExact (exactOf literal))
  | _ => none

def itemsOf? : Json.Value → Option (List Json.Value)
  | .array items => some items
  | _ => none

/-- The values under some keys of an object that has no other keys. -/
def membersOf? (keys : List String) : Json.Value → Option (List Json.Value)
  | .object members =>
    if members.length = keys.length then keys.mapM (Json.lookupMember · members) else none
  | _ => none

def RowReading.ofJson? (value : Json.Value) : Option RowReading := do
  match ← membersOf?
      ["name", "descriptor", "synchronized", "events", "total", "locked", "percent"] value with
  | [name, descriptor, synchronized, events, total, locked, percent] =>
    some {
      name := ← textOf? name
      descriptor := ← textOf? descriptor
      isSynchronized := ← flagOf? synchronized
      events := ← integerOf? events
      total := ← integerOf? total
      locked := ← integerOf? locked
      percent := ← numberOf? percent }
  | _ => none

def Reading.ofJson? (value : Json.Value) : Option Reading := do
  match ← membersOf?
      ["class", "method_reports", "total", "locked", "percent", "methods", "fields"] value with
  | [name, rows, total, locked, percent, methods, fields] =>
    some {
      name := ← textOf? name
      rows := ← (← itemsOf? rows).mapM RowReading.ofJson?
      total := ← integerOf? total
      locked := ← integerOf? locked
      percent := ← numberOf? percent
      methods := ← integerOf? methods
      fields := ← integerOf? fields }
  | _ => none

/-! ## What a report has to tell -/

/-- A text is that of some bytes, with the replacement character for each byte that is part of no
character. -/
def TellsText (text : String) (bytes : Bytes) : Prop :=
  ∃ pieces, Text.SplitsInto bytes pieces ∧
    text.toList = pieces.map fun piece =>
      match piece with
      | .char c => c
      | .stray _ => Char.ofNat 0xFFFD

structure RowReading.Tells (reading : RowReading) (row : Row) : Prop where
  name : TellsText reading.name row.name
  descriptor : TellsText reading.descriptor row.descriptor
  isSynchronized : reading.isSynchronized = row.isSynchronized
  events : reading.events = row.events.toInt
  total : reading.total = row.total.toInt
  locked : reading.locked = row.locked.toInt
  percent : reading.percent = row.percent

structure Reading.Tells (reading : Reading) (report : Report) : Prop where
  name : TellsText reading.name report.name
  rows : List.Forall₂ RowReading.Tells reading.rows report.rows
  total : reading.total = report.total.toInt
  locked : reading.locked = report.locked.toInt
  percent : reading.percent = report.percent
  methods : reading.methods = report.methods.toInt
  fields : reading.fields = report.fields.toInt

end Report

/-! ## Numbers as literals -/

namespace Json

open Decimal

theorem exists_cons_digitsOnto {n : Nat} (hpos : 0 < n) (tail : List Char) :
    ∃ d ds, digitsOnto n tail = d :: ds ∧ d ≠ '0' := by
  have hdigit : ∀ n < 10, 0 < n → Nat.digitChar n ≠ '0' := by decide
  fun_induction digitsOnto n tail with
  | case1 n tail hlt => exact ⟨_, tail, rfl, hdigit n hlt hpos⟩
  | case2 n tail hge ih => exact ih (by omega)

/-- The digits of a positive number start with none that is zero. -/
theorem exists_cons_ofNat {n : Nat} (hpos : 0 < n) :
    ∃ d ds, Decimal.ofNat n = d :: ds ∧ d.isDigit = true ∧ d ≠ '0' ∧ AreDigits ds := by
  have hdigits := areDigits_ofNat n
  obtain ⟨d, ds, heq, hne⟩ := exists_cons_digitsOnto hpos []
  rw [Decimal.ofNat, heq] at hdigits
  exact ⟨d, ds, heq, hdigits d List.mem_cons_self, hne, hdigits.drop 1⟩

theorem IsWhole.isNumber {whole : List Char} (h : IsWhole whole) : IsNumber whole := by
  simpa using IsNumber.parts (.inl rfl) h .none .none

theorem isWhole_ofNat (n : Nat) : IsWhole (Decimal.ofNat n) := by
  obtain rfl | hpos := Nat.eq_zero_or_pos n
  · rw [Decimal.ofNat, digitsOnto, if_pos (by decide)]
    exact .zero
  · obtain ⟨d, ds, heq, hd, hne, hds⟩ := exists_cons_ofNat hpos
    exact heq ▸ .digits hd hne hds

theorem isNumber_ofInt (i : Int) : IsNumber (Decimal.ofInt i) := by
  cases i with
  | ofNat n => exact (isWhole_ofNat n).isNumber
  | negSucc n =>
    have hnumber := IsNumber.parts (.inr rfl) (isWhole_ofNat (n + 1)) .none .none
    simpa [Decimal.ofInt] using hnumber

theorem exactOf_minus_ofNat (n : Nat) : exactOf ('-' :: Decimal.ofNat n) = ⟨true, n, 0⟩ := by
  have hplain := exactOf_ofNat n
  obtain ⟨d, ds, heq, hd⟩ := (isWhole_ofNat n).exists_cons
  have hminus : d ≠ '-' := by
    rintro rfl
    cases hd
  rw [heq] at hplain ⊢
  simp [exactOf, hminus, Exact.ofNat] at hplain ⊢
  exact hplain

/-- The literal of an integer is read as that integer. -/
theorem signed_exactOf_ofInt (i : Int) :
    (exactOf (Decimal.ofInt i)).signed = i ∧ (exactOf (Decimal.ofInt i)).exponent = 0 := by
  cases i with
  | ofNat n =>
    rw [Decimal.ofInt, exactOf_ofNat]
    exact ⟨rfl, rfl⟩
  | negSucc n =>
    rw [Decimal.ofInt, exactOf_minus_ofNat]
    exact ⟨rfl, rfl⟩

end Json

namespace Binary64

open Decimal Json

section Literals

variable {d : Char} {ds : List Char}

theorem isNumber_placePoint (hd : d.isDigit = true) (hne : d ≠ '0') (hds : AreDigits ds)
    (position : Int) : IsNumber (placePoint (d :: ds) position) := by
  have hdigits : AreDigits (d :: ds) := hds.cons hd
  unfold placePoint
  split
  · have hplaces : IsPlaces ('.' :: (List.replicate (-position).toNat '0' ++ d :: ds)) :=
      .digits (by simp) ((areDigits_zeros _).append hdigits)
    simpa using IsNumber.parts (.inl rfl) .zero hplaces .none
  split
  · exact (IsWhole.digits hd hne (hds.append (areDigits_zeros _))).isNumber
  · rename_i hpos hlt
    obtain ⟨n, hn⟩ : ∃ n, position.toNat = n + 1 := ⟨position.toNat - 1, by omega⟩
    rw [List.length_cons] at hlt
    have hplaces : IsPlaces ('.' :: ds.drop n) :=
      .digits (by simp only [ne_eq, List.drop_eq_nil_iff]; omega) (hds.drop n)
    have hnumber := IsNumber.parts (.inl rfl) (.digits hd hne (hds.take n)) hplaces .none
    simpa [hn] using hnumber

theorem isNumber_withExponent (hd : d.isDigit = true) (hne : d ≠ '0') (hds : AreDigits ds)
    (exponent : Int) (least : Nat) : IsNumber (withExponent (d :: ds) exponent least) := by
  have hsign : [if exponent < 0 then '-' else '+'] = [] ∨
      [if exponent < 0 then '-' else '+'] = ['+'] ∨
      [if exponent < 0 then '-' else '+'] = ['-'] := by
    split <;> simp
  have hdigits := length_ofNat_pos exponent.natAbs
  have hpower := IsPower.digits (.inl (Eq.refl 'e')) hsign
    (List.append_ne_nil_of_right_ne_nil _ (List.ne_nil_of_length_pos hdigits))
    ((areDigits_zeros (least - (Decimal.ofNat exponent.natAbs).length)).append
      (areDigits_ofNat exponent.natAbs))
  have hwhole : IsWhole [d] := .digits hd hne areDigits_nil
  cases ds with
  | nil => simpa [withExponent] using IsNumber.parts (.inl rfl) hwhole .none hpower
  | cons c cs =>
    have hplaces := IsPlaces.digits (List.cons_ne_nil c cs) hds
    simpa [withExponent] using IsNumber.parts (.inl rfl) hwhole hplaces hpower

end Literals

theorem isNumber_magnitudeText (layout : Layout) {m : Nat} (hm : m ≤ infinityMagnitude) :
    IsNumber (magnitudeText layout m) := by
  unfold magnitudeText
  split
  · exact IsWhole.zero.isNumber
  rename_i hzero
  have hpos := coefficient_shortest_pos (Nat.pos_of_ne_zero hzero) hm
  obtain ⟨d, ds, heq, hd, hne, hds⟩ := exists_cons_ofNat hpos
  dsimp only
  rw [heq]
  split
  · exact isNumber_placePoint hd hne hds _
  · exact isNumber_withExponent hd hne hds _ _

theorem isNumber_chars {x : Binary64} (h : x.IsPlain) (layout : Layout) :
    IsNumber (x.chars layout) := by
  have hm : x.magnitude ≤ infinityMagnitude := Nat.le_of_lt (of_decide_eq_true h.isFinite_eq)
  rw [chars_eq_magnitudeText h]
  exact isNumber_magnitudeText layout hm

end Binary64

namespace Lock

open Binary64

/-- A share in percent is a number, even where it is above a hundred. -/
theorem isPlain_share {m n : Nat} (hm : m ≤ 9223372036854775808) (hpos : 0 < n)
    (hn : n < 9223372036854775808) :
    (roundHundredths (((ofNat m).div (ofNat n)).mul (ofNat 100))).IsPlain := by
  have hbound : (ofNat 9223372036854775808).IsPlain := by decide +kernel
  have hmost := upTo_ofNat hm
  -- Division by a count does not make a number larger, and the other steps stay far below infinity.
  have hshare : (ofNat 9223372036854775808).UpTo ((ofNat m).div (ofNat n)) := by
    have hunit : (ofNat 1).units ≤ (ofNat n).units := (upTo_ofNat hpos).units_le
    have hone : (ofNat 1).units = unitsOfOne := by decide +kernel
    have hexact : (ofNat 9223372036854775808).units = 9223372036854775808 * unitsOfOne := by
      decide +kernel
    rw [div_eq (hmost.isPlain hbound) (isPlain_ofNat hn) (magnitude_ofNat_pos hpos)]
    apply upTo_nearest (Nat.lt_of_lt_of_le unitsOfOne_pos (hone ▸ hunit)) Nat.one_pos
    rw [Nat.mul_one]
    exact Nat.mul_le_mul (hexact ▸ hmost.units_le) (hone ▸ hunit)
  have hhundred : (ofNat 100).IsPlain := isPlain_ofNat (by decide)
  have hpercent := hshare.mul hbound hhundred
  have hscaled := hpercent.mul (by decide +kernel) hhundred
  have hwhole := hscaled.round (by decide +kernel)
  have hrounded := hwhole.div (by decide +kernel) hhundred (magnitude_ofNat_pos (by decide))
  exact hrounded.isPlain (by decide +kernel)

theorem isPlain_percentOf {locked : Int64} (total : Int64) (hnonneg : 0 ≤ locked.toInt) :
    (percentOf locked total).IsPlain := by
  unfold percentOf
  split
  · decide
  rename_i hone
  obtain ⟨m, hm⟩ := Int.eq_ofNat_of_zero_le hnonneg
  have hword : (1 : Int64).toInt = 1 := rfl
  rw [Int64.lt_iff_toInt_lt, hword] at hone
  obtain ⟨n, hn⟩ := Int.eq_ofNat_of_zero_le (show 0 ≤ total.toInt by omega)
  have hlt := locked.toInt_lt
  have hlt' := total.toInt_lt
  rw [hm, hn, ofInt_natCast, ofInt_natCast]
  exact isPlain_share (by omega) (by omega) (by omega)

end Lock

namespace Report

/-! ## Reading what was written -/

theorem integerOf?_jsonInt (i : Int64) : integerOf? (jsonInt i) = some i.toInt := by
  obtain ⟨hsigned, hexponent⟩ := Json.signed_exactOf_ofInt i.toInt
  simp [jsonInt, Json.Value.ofInt, integerOf?, Decimal.Exact.toInt?, hsigned, hexponent]

theorem numberOf?_jsonNumber {x : Binary64} (h : x.IsPlain) :
    numberOf? (jsonNumber x) = some x := by
  rw [jsonNumber, numberOf?, Binary64.ofExact_exactOf_chars h]

/-- What a row tells. -/
def RowReading.ofRow (row : Row) : RowReading where
  name := String.ofList (Text.lossyChars row.name)
  descriptor := String.ofList (Text.lossyChars row.descriptor)
  isSynchronized := row.isSynchronized
  events := row.events.toInt
  total := row.total.toInt
  locked := row.locked.toInt
  percent := row.percent

/-- What a report tells. -/
def Reading.ofReport (report : Report) : Reading where
  name := String.ofList (Text.lossyChars report.name)
  rows := report.rows.map RowReading.ofRow
  total := report.total.toInt
  locked := report.locked.toInt
  percent := report.percent
  methods := report.methods.toInt
  fields := report.fields.toInt

theorem tellsText_lossyChars (bytes : Bytes) :
    TellsText (String.ofList (Text.lossyChars bytes)) bytes := by
  refine ⟨Text.pieces bytes, Text.splitsInto_iff.mpr rfl, ?_⟩
  rw [String.toList_ofList, Text.lossyChars]
  apply List.map_congr_left
  intro piece _
  cases piece <;> rfl

theorem RowReading.tells_ofRow (row : Row) : (ofRow row).Tells row where
  name := tellsText_lossyChars _
  descriptor := tellsText_lossyChars _
  isSynchronized := rfl
  events := rfl
  total := rfl
  locked := rfl
  percent := rfl

theorem Reading.tells_ofReport (report : Report) : (ofReport report).Tells report where
  name := tellsText_lossyChars _
  rows := by
    rw [ofReport, List.forall₂_map_left_iff, List.forall₂_same]
    exact fun row _ => RowReading.tells_ofRow row
  total := rfl
  locked := rfl
  percent := rfl
  methods := rfl
  fields := rfl

theorem RowReading.ofJson?_toJson {row : Row} (h : row.percent.IsPlain) :
    RowReading.ofJson? row.toJson = some (ofRow row) := by
  simp [RowReading.ofJson?, Row.toJson, membersOf?, Json.lookupMember, textOf?, flagOf?, jsonText,
    integerOf?_jsonInt, numberOf?_jsonNumber h, ofRow]

theorem RowReading.mapM_ofJson?_toJson {rows : List Row} (h : ∀ row ∈ rows, row.percent.IsPlain) :
    (rows.map Row.toJson).mapM RowReading.ofJson? = some (rows.map ofRow) := by
  induction rows with
  | nil => rfl
  | cons row rows ih =>
    obtain ⟨hrow, hrows⟩ := List.forall_mem_cons.mp h
    simp [ofJson?_toJson hrow, ih hrows]

theorem Reading.ofJson?_toJson {report : Report} (h : report.percent.IsPlain)
    (hrows : ∀ row ∈ report.rows, row.percent.IsPlain) :
    Reading.ofJson? report.toJson = some (ofReport report) := by
  simp [Reading.ofJson?, toJson, membersOf?, Json.lookupMember, textOf?, itemsOf?, jsonText,
    integerOf?_jsonInt, numberOf?_jsonNumber h, RowReading.mapM_ofJson?_toJson hrows, ofReport]

theorem isProper_jsonInt (depth : Nat) (i : Int64) : (jsonInt i).IsProper depth :=
  .number (Json.isNumber_ofInt i.toInt)

theorem isProper_jsonNumber (depth : Nat) {x : Binary64} (h : x.IsPlain) :
    (jsonNumber x).IsProper depth :=
  .number (Binary64.isNumber_chars h .wide)

theorem Row.isProper_toJson {row : Row} (h : row.percent.IsPlain) : row.toJson.IsProper 1 := by
  refine .object (by simp) ?_
  simp only [List.forall_mem_cons]
  exact ⟨.string _, .string _, .bool _, isProper_jsonInt _ _, isProper_jsonInt _ _,
    isProper_jsonInt _ _, isProper_jsonNumber _ h, List.forall_mem_nil _⟩

/-- A report nests three deep: rows stand in a list in the report. -/
theorem isProper_toJson {report : Report} (h : report.percent.IsPlain)
    (hrows : ∀ row ∈ report.rows, row.percent.IsPlain) : report.toJson.IsProper 3 := by
  refine .object (by simp) ?_
  simp only [List.forall_mem_cons]
  refine ⟨.string _, .array ?_, isProper_jsonInt _ _, isProper_jsonInt _ _,
    isProper_jsonNumber _ h, isProper_jsonInt _ _, isProper_jsonInt _ _, List.forall_mem_nil _⟩
  intro item hmem
  obtain ⟨row, hrow, rfl⟩ := List.mem_map.mp hmem
  exact Row.isProper_toJson (hrows row hrow)

/-! ## Reports that are written -/

theorem nonneg_of_violations_count {path : List Bytes} {i : Int64}
    (h : count.violations path (jsonInt i) = []) : 0 ≤ i.toInt := by
  obtain ⟨hsigned, hexponent⟩ := Json.signed_exactOf_ofInt i.toInt
  have hnear : (Json.exactOf (Decimal.ofInt i.toInt)).IsNear := by
    rw [Decimal.Exact.IsNear, hexponent]
    exact Nat.zero_le _
  have hvalid := (count.violations_eq_nil_iff path (.number hnear)).mp h
  cases hvalid with
  | integer _ hbounds =>
    have hleast := hbounds.1 0 rfl
    rw [Decimal.Exact.value, hsigned, hexponent, zpow_zero, mul_one] at hleast
    exact_mod_cast hleast

/-- An object without violations has none at its members. -/
theorem violations_member {properties : List (Bytes × Schema)} {path : List Bytes}
    {members : List (String × Json.Value)}
    (h : Schema.propertyViolations properties path members = []) (name : Bytes) (schema : Schema)
    (member : String × Json.Value) (hproperty : (name, schema) ∈ properties)
    (hfind : members.find? (fun member => utf8 member.1 = name) = some member) :
    schema.violations (path ++ [name]) member.2 = [] := by
  induction properties with
  | nil => cases hproperty
  | cons property properties ih =>
    rw [Schema.propertyViolations, List.append_eq_nil_iff] at h
    obtain rfl | hproperty := List.mem_cons.mp hproperty
    · simpa [hfind] using h.1
    · exact ih h.2 hproperty

theorem Row.nonneg_of_violations {path : List Bytes} {row : Row}
    (h : rowSchema.violations path row.toJson = []) : 0 ≤ row.locked.toInt := by
  have hmembers := (List.append_eq_nil_iff.mp h).2
  exact nonneg_of_violations_count (violations_member hmembers (utf8 "locked") count
    ("locked", jsonInt row.locked) (by simp) (by simp [utf8_inj]))

theorem nonneg_of_violations {report : Report} (h : schema.violations [] report.toJson = []) :
    0 ≤ report.locked.toInt ∧ ∀ row ∈ report.rows, 0 ≤ row.locked.toInt := by
  have hmembers := (List.append_eq_nil_iff.mp h).2
  have hlocked := violations_member hmembers (utf8 "locked") count
    ("locked", jsonInt report.locked) (by simp) (by simp [utf8_inj])
  have hrows := violations_member hmembers (utf8 "method_reports") (.array rowSchema)
    ("method_reports", .array (report.rows.map Row.toJson)) (by simp) (by simp [utf8_inj])
  refine ⟨nonneg_of_violations_count hlocked, fun row hmem => ?_⟩
  rw [Schema.violations, List.flatMap_eq_nil_iff] at hrows
  obtain ⟨i, hi⟩ := List.mem_iff_getElem?.mp (List.mem_map_of_mem (f := Row.toJson) hmem)
  exact Row.nonneg_of_violations (hrows (row.toJson, i) (List.mem_zipIdx_iff_getElem?.mpr hi))

/-- The percentages of a valid report are numbers. -/
theorem isPlain_of_violations {analysis : Lock.Analysis}
    (h : schema.violations [] (ofAnalysis analysis).toJson = []) :
    (ofAnalysis analysis).percent.IsPlain ∧
      ∀ row ∈ (ofAnalysis analysis).rows, row.percent.IsPlain := by
  obtain ⟨hlocked, hrows⟩ := nonneg_of_violations h
  refine ⟨Lock.isPlain_percentOf _ hlocked, fun row hmem => ?_⟩
  have hrow := hrows row hmem
  obtain ⟨method, -, rfl⟩ := List.mem_map.mp hmem
  exact Lock.isPlain_percentOf _ hrow

/-- An output that keeps what it is given. It answers as it likes, and may refuse. -/
def transcribe (answer : Bytes → Bytes → Except Bytes Unit) (bytes : Bytes) :
    StateM Bytes (Except Bytes Unit) :=
  fun written => (answer written bytes, written ++ bytes)

theorem written_of_put {answer : Bytes → Bytes → Except Bytes Unit} {document before after : Bytes}
    (h : (put (transcribe answer) document).run before = (.ok (), after)) :
    after = before ++ document := by
  have hrun : ((put (transcribe answer) document).run before).2 = before ++ document := by
    cases hanswer : answer before document with
    | ok =>
      simp only [put, transcribe, StateT.run, bind, StateT.bind, hanswer]
      rfl
    | error reason =>
      simp only [put, transcribe, StateT.run, bind, StateT.bind, hanswer]
      rfl
  rw [h] at hrun
  exact hrun

/-- Only valid reports are written, and a report is written at once. -/
theorem written_of_render_json {answer : Bytes → Bytes → Except Bytes Unit}
    {analysis : Lock.Analysis} {options : Options} (hformat : options.format = utf8 "json")
    {before after : Bytes}
    (h : (render (transcribe answer) analysis options).run before = (.ok (), after)) :
    schema.violations [] (ofAnalysis analysis).toJson = [] ∧
      after = before ++ utf8 ((ofAnalysis analysis).toJson.document ++ "\n") := by
  by_cases hvalid : schema.violations [] (ofAnalysis analysis).toJson = []
  · rw [render_eq_renderAs_json hformat] at h
    simp only [renderAs, hvalid] at h
    exact ⟨hvalid, written_of_put h⟩
  · rw [render_of_invalid hformat hvalid] at h
    cases h

/-- Nothing is lost in a JSON report. Whatever the analysis and whatever the output, if rendering
succeeds, what was written is one JSON document in UTF-8, and a newline. The document spells one
value only, and that value tells the report of the analysis: it has the seven members of a report
and no others, its rows stand in order, its counts are the same integers and its percentages the
same numbers, and its texts are the same but for stray bytes. -/
theorem render_json_lossless (answer : Bytes → Bytes → Except Bytes Unit) (analysis : Lock.Analysis)
    (options : Options) (hformat : options.format = utf8 "json") (before after : Bytes)
    (hwritten : (render (transcribe answer) analysis options).run before = (.ok (), after)) :
    ∃ (encoded : Bytes) (document : List Char) (value : Json.Value) (reading : Reading),
      after = before ++ (encoded ++ [0x0A]) ∧
      Text.SplitsInto encoded (document.map .char) ∧
      Json.SpellsDocument 3 document value ∧
      (∀ depth other, Json.SpellsDocument depth document other → other = value) ∧
      Json.read (Text.lossyChars encoded) = some value ∧
      Reading.ofJson? value = some reading ∧ reading.Tells (ofAnalysis analysis) := by
  obtain ⟨hvalid, rfl⟩ := written_of_render_json hformat hwritten
  obtain ⟨hpercent, hrows⟩ := isPlain_of_violations hvalid
  have hspells := (isProper_toJson hpercent hrows).spellsDocument
  refine ⟨_, _, _, _, ?_, Text.splitsInto_encode _, hspells,
    fun depth other hother => hother.value_eq hspells, ?_, Reading.ofJson?_toJson hpercent hrows,
    Reading.tells_ofReport _⟩
  · rw [← String.ofList_toList (s := (ofAnalysis analysis).toJson.document ++ "\n"), utf8_ofList,
      String.toList_append, Text.encode_append]
    rfl
  · rw [Text.lossyChars_encode]
    exact hspells.read_eq (by decide)

/-- An analysis of a class with stray bytes in its names and a method whose name has to be escaped.
-/
def strayNames : Lock.Analysis where
  name := [0x41, 0xFF]
  tally := { total := 3, locked := 1, methods := 1, fields := 9223372036854775807 }
  methods :=
    [{ name := utf8 "<init>", descriptor := [0xE2, 0x82], isSynchronized := true, events := 3
       tally := ⟨3, 1⟩ }]

theorem render_json_lossless_strayNames :
    ∃ after, (render (transcribe fun _ _ => .ok ()) strayNames ⟨utf8 "json", false, false⟩).run [] =
      (.ok (), after) ∧
    ∃ (encoded : Bytes) (value : Json.Value) (reading : Reading),
      after = encoded ++ [0x0A] ∧ Json.read (Text.lossyChars encoded) = some value ∧
      Reading.ofJson? value = some reading ∧ reading.Tells (ofAnalysis strayNames) := by
  have hwritten :
      (render (transcribe fun _ _ => .ok ()) strayNames ⟨utf8 "json", false, false⟩).run []
      = (.ok (), _) := Prod.ext (by decide +kernel) rfl
  obtain ⟨encoded, document, value, reading, hafter, -, -, -, hread, hreading, htells⟩ :=
    render_json_lossless _ strayNames _ rfl [] _ hwritten
  exact ⟨_, hwritten, encoded, value, reading, hafter, hread, hreading, htells⟩

end Report

end MonitorCoverage
