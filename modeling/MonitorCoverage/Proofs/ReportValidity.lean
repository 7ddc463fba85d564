import MonitorCoverage.Proofs.ClassCounting
import MonitorCoverage.Proofs.DecimalText
import MonitorCoverage.Report.Render

/-!
# Valid reports

The report of an analysis satisfies its schema but for the names of methods: counts are not negative
and percentages lie between zero and a hundred, since they are counts and shares of events. A name
may be empty, and then the schema is violated there and nowhere else. So rendering an analysis as
JSON succeeds exactly if all methods have names.
-/

namespace MonitorCoverage

theorem utf8_inj {a b : String} : utf8 a = utf8 b ↔ a = b := by
  constructor
  · intro h
    exact String.toByteArray_inj.mp (ByteArray.ext (Array.ext' h))
  · intro h
    rw [h]

namespace Text

theorem length_le_length_piecesOnto (fuel : Nat) (bytes : Bytes) (found : List Piece) :
    found.length ≤ (piecesOnto fuel bytes found).length := by
  fun_induction piecesOnto fuel bytes found with
  | case1 fuel found => simp
  | case2 byte rest found => simp
  | case3 fuel byte rest found c width _ ih =>
    rw [List.length_cons] at ih
    omega
  | case4 fuel byte rest found _ ih =>
    rw [List.length_cons] at ih
    omega

/-- A character stands for every byte that is none, so nothing is lost altogether. -/
theorem lossyChars_eq_nil_iff {bytes : Bytes} : lossyChars bytes = [] ↔ bytes = [] := by
  unfold lossyChars
  rw [List.map_eq_nil_iff]
  cases bytes with
  | nil => simp [pieces, piecesOnto]
  | cons byte rest =>
    have hpos : 0 < (pieces (byte :: rest)).length := by
      unfold pieces
      rw [List.length_cons, piecesOnto]
      split
      · exact length_le_length_piecesOnto _ _ [_]
      · exact length_le_length_piecesOnto _ _ [_]
    simp [List.ne_nil_of_length_pos hpos]

end Text

namespace Report

open Binary64 (ofNat UpTo)

/-! ## Values -/

theorem violations_count (path : List Bytes) {i : Int64} (h : 0 ≤ i.toInt) :
    count.violations path (jsonInt i) = [] := by
  obtain ⟨n, hn⟩ := Int.eq_ofNat_of_zero_le h
  have hread : Json.exactOf (Decimal.ofInt i.toInt) = .ofNat n := by
    rw [hn]
    exact Json.exactOf_ofNat n
  have hwhole : (Decimal.Exact.ofNat n).isInteger = true := by
    simp [Decimal.Exact.isInteger, Decimal.Exact.ofNat]
  have hleast : (Decimal.Exact.ofNat 0).le (.ofNat n) = true := Decimal.Exact.zero_le n 0
  simp [count, jsonInt, Json.Value.ofInt, Schema.violations, Bounds.violations, hread, hwhole,
    hleast]

theorem violations_percentage (path : List Bytes) {x : Binary64} (h : (ofNat 100).UpTo x) :
    percentage.violations path (jsonNumber x) = [] := by
  obtain ⟨hleast, hgreatest⟩ := Binary64.exactOf_chars_within h .wide
  simp [percentage, jsonNumber, Schema.violations, Bounds.violations, hleast, hgreatest]

theorem violations_text (path : List Bytes) (bytes : Bytes) :
    (Schema.string 0).violations path (jsonText bytes) = [] := by
  simp [jsonText, Schema.violations]

/-- What is wrong with a name. -/
def nameViolations (path : List Bytes) (name : Bytes) : List Schema.Violation :=
  if name = [] then
    [⟨path, utf8 "String length must be greater than or equal to " ++ Decimal.bytes 1⟩]
  else []

theorem violations_name (path : List Bytes) (name : Bytes) :
    (Schema.string 1).violations path (jsonText name) = nameViolations path name := by
  have hlength : (String.ofList (Text.lossyChars name)).length < 1 ↔ name = [] := by
    rw [String.length_ofList, Nat.lt_one_iff, List.length_eq_zero_iff, Text.lossyChars_eq_nil_iff]
  simp only [jsonText, Schema.violations, hlength]
  rfl

/-! ## Rows and reports -/

/-- No count is negative, and the percentage is one. -/
structure Row.IsSound (row : Row) : Prop where
  events : 0 ≤ row.events.toInt
  total : 0 ≤ row.total.toInt
  locked : 0 ≤ row.locked.toInt
  percent : (ofNat 100).UpTo row.percent

structure IsSound (report : Report) : Prop where
  total : 0 ≤ report.total.toInt
  locked : 0 ≤ report.locked.toInt
  percent : (ofNat 100).UpTo report.percent
  methods : 0 ≤ report.methods.toInt
  fields : 0 ≤ report.fields.toInt
  rows : ∀ row ∈ report.rows, row.IsSound

theorem Row.IsSound.violations_toJson {row : Row} (h : row.IsSound) (path : List Bytes) :
    rowSchema.violations path row.toJson = nameViolations (path ++ [utf8 "name"]) row.name := by
  simp [rowSchema, Row.toJson, Schema.violations, Schema.missing, Schema.additional,
    Schema.propertyViolations, utf8_inj, violations_text, violations_count, violations_percentage,
    violations_name, h.events, h.total, h.locked, h.percent]

/-- What is wrong with the names of rows. -/
def namesViolations (rows : List Row) : List Schema.Violation :=
  rows.zipIdx.flatMap fun (row, i) =>
    nameViolations [utf8 "method_reports", Decimal.bytes i, utf8 "name"] row.name

theorem namesViolations_eq_nil_iff {rows : List Row} :
    namesViolations rows = [] ↔ ∀ row ∈ rows, row.name ≠ [] := by
  unfold namesViolations nameViolations
  rw [List.flatMap_eq_nil_iff]
  constructor
  · intro h row hmem
    obtain ⟨i, hi⟩ := List.mem_iff_getElem?.mp hmem
    have hrow := h (row, i) (List.mem_zipIdx_iff_getElem?.mpr hi)
    simpa using hrow
  · intro h item hmem
    have hrow := h item.1 (List.fst_mem_of_mem_zipIdx hmem)
    simp [hrow]

theorem violations_rows {rows : List Row} (h : ∀ row ∈ rows, row.IsSound) :
    ((rows.map Row.toJson).zipIdx.flatMap fun item =>
      rowSchema.violations [utf8 "method_reports", Decimal.bytes item.2] item.1) =
        namesViolations rows := by
  rw [List.zipIdx_map, List.flatMap_map]
  apply List.flatMap_congr
  intro item hmem
  exact (h item.1 (List.fst_mem_of_mem_zipIdx hmem)).violations_toJson _

/-- A report violates its schema by the names of its rows alone. -/
theorem IsSound.violations_toJson {report : Report} (h : report.IsSound) :
    schema.violations [] report.toJson = namesViolations report.rows := by
  simp [schema, toJson, Schema.violations, Schema.missing, Schema.additional,
    Schema.propertyViolations, utf8_inj, violations_text, violations_count, violations_percentage,
    violations_rows h.rows, h.total, h.locked, h.percent, h.methods, h.fields]

/-! ## Reports of analyses -/

section Analyses

open Lock (Analysis ClassUnit MethodUnit MethodReport Represent ScheduleStep AnalysisRun Tally
  countAll)

theorem Row.isSound_ofMethod {method : MethodUnit} {tally : Tally}
    (h : tally.Represents method.count) (hbound : method.count.total < 9223372036854775808) :
    (Row.ofMethod (.of method tally)).IsSound := by
  have hevents := method.length_events_le_total_count
  have hword : (Int64.ofNat method.events.length).toInt = method.events.length :=
    Int64.toInt_ofNat_of_lt (by omega)
  have hle := h.locked_le_total method.locked_le_total_count
  exact {
    events := hword ▸ Int.natCast_nonneg _
    total := h.total_nonneg
    locked := h.locked_nonneg
    percent := Lock.upTo_percentOf h.locked_nonneg hle }

theorem isSound_rows {methods : List MethodUnit} {tallies : List Tally}
    (h : Represent methods tallies)
    (hbound : ∀ method ∈ methods, method.count.total < 9223372036854775808) :
    ∀ row ∈ (methods.zipWith MethodReport.of tallies).map Row.ofMethod, row.IsSound := by
  induction h with
  | nil => simp
  | @cons method tally methods tallies htally _ ih =>
    obtain ⟨hmethod, hbound⟩ := List.forall_mem_cons.mp hbound
    rw [List.zipWith_cons_cons, List.map_cons, List.forall_mem_cons]
    exact ⟨Row.isSound_ofMethod htally hmethod, ih hbound⟩

theorem forall_name_rows_iff {methods : List MethodUnit} {tallies : List Tally}
    (h : Represent methods tallies) :
    (∀ row ∈ (methods.zipWith MethodReport.of tallies).map Row.ofMethod, row.name ≠ []) ↔
      ∀ method ∈ methods, method.name ≠ [] := by
  induction h with
  | nil => simp
  | cons _ _ ih =>
    rw [List.zipWith_cons_cons, List.map_cons, List.forall_mem_cons, List.forall_mem_cons, ih]
    rfl

theorem isSound_ofAnalysis {unit : ClassUnit} {tallies : List Tally}
    (h : Represent unit.methods tallies)
    (hbound : (countAll unit.methods).total < 9223372036854775808)
    (hmethods : unit.methods.length < 9223372036854775808)
    (hfields : unit.fields.length < 9223372036854775808) :
    (ofAnalysis (.ofTallies unit tallies)).IsSound := by
  have hsum := h.represents_sum hbound
  have hle := hsum.locked_le_total (Lock.locked_countAll_le_total unit.methods)
  have hmethodsWord : (Int64.ofNat tallies.length).toInt = tallies.length :=
    Int64.toInt_ofNat_of_lt (h.length_eq ▸ hmethods)
  have hfieldsWord : (Int64.ofNat unit.fields.length).toInt = unit.fields.length :=
    Int64.toInt_ofNat_of_lt hfields
  exact {
    total := hsum.total_nonneg
    locked := hsum.locked_nonneg
    percent := Lock.upTo_percentOf hsum.locked_nonneg hle
    methods := hmethodsWord ▸ Int.natCast_nonneg _
    fields := hfieldsWord ▸ Int.natCast_nonneg _
    rows := isSound_rows h fun _ hmem =>
      Nat.lt_of_le_of_lt (Lock.total_count_le_countAll hmem) hbound }

/-! ## Rendering -/

theorem render_eq_renderAs_json {m : Type → Type} [Monad m] {write : Bytes → m (Except Bytes Unit)}
    {analysis : Analysis} {options : Options} (h : options.format = utf8 "json") :
    render write analysis options = renderAs write analysis options .json := by
  have hname : Format.ofName? (utf8 "json") = some .json := by decide +kernel
  have hnonempty : (utf8 "json").isEmpty = false := by decide +kernel
  simp [render, h, hname, hnonempty]

section Writers

variable {σ : Type} {write : Bytes → StateM σ (Except Bytes Unit)} {analysis : Analysis}
  {options : Options}

/-- A valid report is handed to a working output as a whole. -/
theorem render_of_valid (hwrite : ∀ bytes state, ((write bytes).run state).1 = .ok ())
    (hformat : options.format = utf8 "json")
    (hvalid : schema.violations [] (ofAnalysis analysis).toJson = []) (state : σ) :
    (render write analysis options).run state =
      (.ok (), ((write (utf8 ((ofAnalysis analysis).toJson.document ++ "\n"))).run state).2) := by
  have hok := hwrite (utf8 ((ofAnalysis analysis).toJson.document ++ "\n")) state
  rw [render_eq_renderAs_json hformat]
  simp only [renderAs, hvalid, put, StateT.run_bind]
  cases hrun : (write (utf8 ((ofAnalysis analysis).toJson.document ++ "\n"))).run state with
  | mk result next =>
    rw [hrun] at hok
    obtain rfl : result = .ok () := hok
    rfl

/-- Of a report that is not valid, nothing is handed to the output. -/
theorem render_of_invalid (hformat : options.format = utf8 "json")
    (hinvalid : schema.violations [] (ofAnalysis analysis).toJson ≠ []) (state : σ) :
    (render write analysis options).run state =
      (.error (.invalid (schema.violations [] (ofAnalysis analysis).toJson)), state) := by
  rw [render_eq_renderAs_json hformat]
  unfold renderAs
  dsimp only
  split
  · contradiction
  · rfl

end Writers

/-- The JSON report of an analysis is valid exactly if no method is unnamed. Whatever the run that
the analysis is the result of, and whatever the output, as long as it takes what is written:
rendering the analysis as JSON succeeds if and only if every method has a name. The whole report is
written then; otherwise the unnamed methods are reported as violations, and nothing is written. -/
theorem render_json_succeeds_iff (unit : ClassUnit) (workers : Int64) (canceled : Bool)
    (schedule : List ScheduleStep) (run : AnalysisRun) (analysis : Analysis)
    (hevents : (unit.methods.map fun method => method.events.length).sum < 4611686018427387904)
    (hmethods : unit.methods.length < 9223372036854775808)
    (hfields : unit.fields.length < 9223372036854775808)
    (hrun : unit.analyzeUnder workers canceled schedule = some run)
    (hok : run.outcome = .ok analysis) (options : Options) (hformat : options.format = utf8 "json")
    (σ : Type) (write : Bytes → StateM σ (Except Bytes Unit))
    (hwrite : ∀ bytes state, ((write bytes).run state).1 = .ok ()) (state : σ) :
    (((render write analysis options).run state).1 = .ok () ↔
      ∀ method ∈ unit.methods, method.name ≠ []) ∧
    ((∀ method ∈ unit.methods, method.name ≠ []) →
      (render write analysis options).run state =
        (.ok (), ((write (utf8 ((ofAnalysis analysis).toJson.document ++ "\n"))).run state).2)) ∧
    ((∃ method ∈ unit.methods, method.name = []) →
      namesViolations (ofAnalysis analysis).rows ≠ [] ∧
      (render write analysis options).run state =
        (.error (.invalid (namesViolations (ofAnalysis analysis).rows)), state)) := by
  obtain ⟨tallies, -, htallies, rfl, -, -⟩ := Lock.exists_talliesOf_of_analyzeUnder hrun hok
  have hle := Lock.total_countAll_le_events unit.methods
  have hbound : (countAll unit.methods).total < 9223372036854775808 := by omega
  have hrepresent := htallies.represent hbound
  have hsound := isSound_ofAnalysis hrepresent hbound hmethods hfields
  have hviolations := hsound.violations_toJson
  have hvalid : namesViolations (ofAnalysis (.ofTallies unit tallies)).rows = [] ↔
      ∀ method ∈ unit.methods, method.name ≠ [] :=
    namesViolations_eq_nil_iff.trans (forall_name_rows_iff hrepresent)
  have hsucceeds : (∀ method ∈ unit.methods, method.name ≠ []) →
      (render write (.ofTallies unit tallies) options).run state = (.ok (), ((write (utf8
        ((ofAnalysis (.ofTallies unit tallies)).toJson.document ++ "\n"))).run state).2) := by
    intro hnamed
    exact render_of_valid hwrite hformat (hviolations.trans (hvalid.mpr hnamed)) state
  have hfails : (¬ ∀ method ∈ unit.methods, method.name ≠ []) →
      (render write (.ofTallies unit tallies) options).run state =
        (.error (.invalid (namesViolations (ofAnalysis (.ofTallies unit tallies)).rows)),
          state) := by
    intro hunnamed
    rw [← hviolations]
    exact render_of_invalid hformat (hviolations ▸ mt hvalid.mp hunnamed) state
  refine ⟨⟨fun hresult => ?_, fun hnamed => ?_⟩, hsucceeds, fun ⟨method, hmem, hname⟩ => ?_⟩
  · by_contra hunnamed
    rw [hfails hunnamed] at hresult
    cases hresult
  · rw [hsucceeds hnamed]
  · have hunnamed : ¬ ∀ method ∈ unit.methods, method.name ≠ [] := fun h => h method hmem hname
    exact ⟨mt hvalid.mp hunnamed, hfails hunnamed⟩

/-- A class with a method whose name is a stray byte, and one with a name to choose. -/
def strayAnd (name : Bytes) : ClassUnit where
  name := utf8 "S"
  fields := []
  methods :=
    [{ name := [0xFF], descriptor := utf8 "()V", isSynchronized := true
       events := [⟨.plain, 0, .other⟩] },
      { name, descriptor := utf8 "()V", isSynchronized := false
        events :=
          [⟨.plain, 194, .monitorEnter⟩, ⟨.plain, 195, .monitorExit⟩, ⟨.plain, 0, .other⟩] }]

def oneAfterTheOther : List ScheduleStep :=
  [.advance 0, .advance 0, .advance 0, .advance 0, .advance 1, .advance 1, .advance 1, .advance 1]

/-- An output that keeps what is written. -/
def keep (bytes : Bytes) : StateM Bytes (Except Bytes Unit) := fun kept => (.ok (), kept ++ bytes)

theorem render_json_succeeds_iff_strayAnd :
    (∃ run analysis, (strayAnd (utf8 "f")).analyzeUnder 1 false oneAfterTheOther = some run ∧
      run.outcome = .ok analysis ∧
      ((render keep analysis ⟨utf8 "json", false, false⟩).run []).1 = .ok ()) ∧
    ∃ run analysis, (strayAnd []).analyzeUnder 1 false oneAfterTheOther = some run ∧
      run.outcome = .ok analysis ∧
      (render keep analysis ⟨utf8 "json", false, false⟩).run [] =
        (.error (.invalid (namesViolations (ofAnalysis analysis).rows)), []) := by
  have hnamed := render_json_succeeds_iff (strayAnd (utf8 "f")) 1 false oneAfterTheOther _ _
    (by decide) (by decide) (by decide) rfl rfl ⟨utf8 "json", false, false⟩ rfl Bytes keep
    (fun _ _ => rfl) []
  have hunnamed := render_json_succeeds_iff (strayAnd []) 1 false oneAfterTheOther _ _
    (by decide) (by decide) (by decide) rfl rfl ⟨utf8 "json", false, false⟩ rfl Bytes keep
    (fun _ _ => rfl) []
  have hnames : ∀ method ∈ (strayAnd (utf8 "f")).methods, method.name ≠ [] := by decide
  have hempty : ∃ method ∈ (strayAnd []).methods, method.name = [] := by decide
  exact ⟨⟨_, _, rfl, rfl, hnamed.1.mpr hnames⟩, ⟨_, _, rfl, rfl, (hunnamed.2.2 hempty).2⟩⟩

end Analyses

end Report

end MonitorCoverage
