import MonitorCoverage.Command.Run
import MonitorCoverage.Proofs.BoundaryCount
import MonitorCoverage.Proofs.ClassCounting
import MonitorCoverage.Proofs.ClassFileLayout

/-!
# Counts and the size of the input

A method counts for no more than the bytes of its code array: what counts twice takes three bytes.
The code arrays of the methods stand at different places of the file, so the count of a class is no
more than the size of the file. A word that can hold the size of the input can therefore hold every
count and every sum of counts on the way.
-/

namespace MonitorCoverage

namespace ClassFile

/-! ## Code arrays -/

/-- The code array of a method as it stands in the file, empty if the method has no code. -/
def Member.codeArray (member : Member) : Bytes :=
  match member.lastBody? Code.codeName with
  | none => []
  | some body =>
    match Decoder.run Code.readBody body with
    | .ok (_, _, code, _) => code
    | .error _ => []

/-- The instructions of a method are those of its code array. -/
theorem decode_codeArray {member : Member} {method : Method}
    (h : Method.ofMember member = .ok method) :
    Instruction.decode member.codeArray = .ok method.instructions := by
  unfold Method.ofMember at h
  unfold Member.codeArray
  cases hlast : member.lastBody? Code.codeName with
  | none =>
    simp only [hlast] at h
    cases h
    exact (Instruction.readFrom_eq_ok_iff (.start []) [] _).mpr ⟨[], trivial, rfl, rfl⟩
  | some body =>
    simp only [hlast] at h
    cases hcode : Code.decode body with
    | error fault =>
      rw [hcode] at h
      cases h
    | ok code =>
      rw [hcode] at h
      cases h
      simp only [Code.decode, Outcome.bind_eq_ok_iff, Outcome.pure_eq_ok_iff] at hcode
      obtain ⟨_, hbody, instructions, hinstructions, rfl⟩ := hcode
      simp only [hbody]
      exact hinstructions

theorem CodeLayout.length_code_le (layout : CodeLayout) :
    layout.code.length ≤ layout.bytes.length := by
  simp only [bytes, List.length_append]
  omega

/-- A code array is part of the body of an attribute. -/
theorem Member.exists_length_codeArray_le (member : Member) :
    member.codeArray = [] ∨
      ∃ attr ∈ member.attributes, member.codeArray.length ≤ attr.body.length := by
  unfold codeArray
  cases hlast : member.lastBody? Code.codeName with
  | none => exact .inl rfl
  | some body =>
    obtain ⟨before, last, after, hsplit, -, -, rfl⟩ := lastBody?_eq_some_iff.mp hlast
    have hmem : last ∈ member.attributes := by simp [hsplit]
    cases hread : Decoder.run Code.readBody last.body with
    | error fault =>
      left
      simp only [hread]
    | ok head =>
      obtain ⟨phrase, rest, hbody, layout, rfl, rfl⟩ :=
        CodeLayout.recognizes_readBody.run_eq_ok_iff.mp hread
      refine .inr ⟨last, hmem, ?_⟩
      have hle := layout.length_code_le
      simp only [hread]
      rw [hbody, List.length_append]
      exact Nat.le_trans hle (Nat.le_add_right _ _)

theorem AttributeLayout.length_body_le (layout : AttributeLayout) :
    layout.body.length ≤ layout.bytes.length := by
  simp only [bytes, List.length_append]
  omega

theorem AttributeLayout.length_body_le_flatMap {constants : List Constant}
    {layouts : List AttributeLayout} {attributes : List Attribute}
    (h : List.Forall₂ (Denotes constants) layouts attributes) {attr : Attribute}
    (hmem : attr ∈ attributes) :
    attr.body.length ≤ (layouts.flatMap AttributeLayout.bytes).length := by
  induction h with
  | nil => simp at hmem
  | @cons layout first layouts attributes hfirst _ ih =>
    rw [List.flatMap_cons, List.length_append]
    obtain rfl | hmem := List.mem_cons.mp hmem
    · have hle := layout.length_body_le
      rw [hfirst.2]
      omega
    · have hrest := ih hmem
      omega

theorem MemberLayout.length_codeArray_le {constants : List Constant} {layout : MemberLayout}
    {member : Member} (h : layout.Denotes constants member) :
    member.codeArray.length ≤ layout.bytes.length := by
  obtain hnil | ⟨attr, hmem, hle⟩ := member.exists_length_codeArray_le
  · rw [hnil]
    exact Nat.zero_le _
  · have hbody := AttributeLayout.length_body_le_flatMap h.attributes hmem
    simp only [bytes, Row.bytes, List.length_append]
    omega

/-- The code arrays of members stand side by side. -/
theorem MemberLayout.sum_length_codeArray_le {constants : List Constant}
    {layouts : List MemberLayout} {members : List Member}
    (h : List.Forall₂ (Denotes constants) layouts members) :
    (members.map fun member => member.codeArray.length).sum ≤
      (layouts.flatMap MemberLayout.bytes).length := by
  induction h with
  | nil => exact Nat.le_refl _
  | @cons layout member layouts members hmember _ ih =>
    have hle := length_codeArray_le hmember
    rw [List.map_cons, List.sum_cons, List.flatMap_cons, List.length_append]
    omega

/-- Together the code arrays of the methods of a file are not larger than the file. -/
theorem Outline.sum_length_codeArray_le {data : Bytes} {outline : Outline}
    (h : Decoder.run Outline.read data = .ok outline) :
    (outline.methods.map fun member => member.codeArray.length).sum ≤ data.length := by
  obtain ⟨layout, rest, rfl, hdenotes⟩ := Outline.run_read_eq_ok_iff.mp h
  have hle := MemberLayout.sum_length_codeArray_le hdenotes.methods
  simp only [Layout.bytes, Row.bytes, List.length_append]
  omega

theorem Outline.length_codeArray_le {data : Bytes} {outline : Outline} {member : Member}
    (h : Decoder.run Outline.read data = .ok outline) (hmem : member ∈ outline.methods) :
    member.codeArray.length ≤ data.length := by
  have hlength : member.codeArray.length ∈
      outline.methods.map fun member => member.codeArray.length :=
    List.mem_map.mpr ⟨member, hmem, rfl⟩
  exact Nat.le_trans (List.le_sum_of_mem hlength) (sum_length_codeArray_le h)

/-- A file announces its members by counts of two bytes. -/
theorem Outline.length_members_lt {data : Bytes} {outline : Outline}
    (h : Decoder.run Outline.read data = .ok outline) :
    outline.fields.length < 65536 ∧ outline.methods.length < 65536 := by
  obtain ⟨layout, rest, rfl, hdenotes⟩ := Outline.run_read_eq_ok_iff.mp h
  rw [← hdenotes.fields.length_eq, ← hdenotes.methods.length_eq]
  exact ⟨layout.fields.length_lt, layout.methods.length_lt⟩

/-- A parsed file has the fields of its outline and the methods that its members decode to. -/
theorem exists_outline_of_parse {data : Bytes} {file : ClassFile} (h : parse data = .ok file) :
    ∃ outline, Decoder.run Outline.read data = .ok outline ∧
      file.fields = outline.fields.map Member.toField ∧
      List.Forall₂ (fun member method => Method.ofMember member = .ok method) outline.methods
        file.methods := by
  obtain ⟨outline, hread, hfile⟩ := Outcome.bind_eq_ok_iff.mp h
  obtain ⟨methods, hmethods, hfile⟩ := Outcome.bind_eq_ok_iff.mp hfile
  rw [Outcome.pure_eq_ok_iff] at hfile
  rw [hfile]
  exact ⟨outline, hread, rfl, Outcome.mapM_eq_ok_iff.mp hmethods⟩

end ClassFile

namespace Lock

open ClassFile (Instruction RawInstruction Member Outline)

/-! ## Counts and code arrays -/

theorem total_count_ofMethod_le {method : ClassFile.Method} {code : Bytes}
    (h : Instruction.decode code = .ok method.instructions) :
    (MethodUnit.ofMethod method).count.total ≤ code.length := by
  obtain ⟨raws, -, hbytes, hinstructions⟩ :=
    (Instruction.readFrom_eq_ok_iff (.start code) [] _).mp h
  obtain rfl : code = raws.flatMap RawInstruction.bytes := hbytes
  obtain hinstructions : method.instructions = RawInstruction.normalFrom 0 raws := hinstructions
  have htotal := total_countBytes_le method.access.isSynchronized 0 raws []
  have hkinds := map_kind_events_normalFrom raws []
  rw [countBytes_eq_countFrom, ← hkinds] at htotal
  rw [MethodUnit.count, MethodUnit.ofMethod, hinstructions]
  exact htotal

theorem length_events_ofMethod_le (method : ClassFile.Method) :
    (MethodUnit.ofMethod method).events.length ≤ method.instructions.length :=
  List.length_filterMap_le _ _

theorem total_countAll_le {members : List Member} {methods : List ClassFile.Method}
    (h : List.Forall₂ (fun member method => ClassFile.Method.ofMember member = .ok method) members
      methods) :
    (countAll (methods.map MethodUnit.ofMethod)).total ≤
      (members.map fun member => member.codeArray.length).sum := by
  induction h with
  | nil => exact Nat.le_refl _
  | cons hmember _ ih =>
    have hle := total_count_ofMethod_le (ClassFile.decode_codeArray hmember)
    simp only [countAll, List.map_cons, List.sum_cons] at ih ⊢
    omega

/-- The counts of an analyzed method are within what its code array allows. -/
structure MethodReport.Fits (row : MethodReport) (code : Bytes) (instructions : List Instruction) :
    Prop where
  decode_eq : Instruction.decode code = .ok instructions
  locked_nonneg : 0 ≤ row.tally.locked.toInt
  locked_le : row.tally.locked.toInt ≤ row.tally.total.toInt
  total_le : row.tally.total.toInt ≤ code.length
  events_nonneg : 0 ≤ row.events.toInt
  events_le : row.events.toInt ≤ instructions.length

/-- The counts of an analyzed class are the exact sums of those of its methods, and within what the
size of its file allows. -/
structure Analysis.Fits (analysis : Analysis) (file : ClassFile) (size : Nat) : Prop where
  total_eq : analysis.tally.total.toInt =
    (analysis.methods.map fun row => row.tally.total.toInt).sum
  locked_eq : analysis.tally.locked.toInt =
    (analysis.methods.map fun row => row.tally.locked.toInt).sum
  locked_nonneg : 0 ≤ analysis.tally.locked.toInt
  locked_le : analysis.tally.locked.toInt ≤ analysis.tally.total.toInt
  total_le : analysis.tally.total.toInt ≤ size
  methods_eq : analysis.tally.methods.toInt = file.methods.length
  fields_eq : analysis.tally.fields.toInt = file.fields.length

/-- The row of a method fits the code array that its instructions are decoded from. -/
theorem MethodReport.fits_of {method : ClassFile.Method} {tally : Tally} {code : Bytes}
    (hcode : Instruction.decode code = .ok method.instructions)
    (htally : tally.Represents (MethodUnit.ofMethod method).count)
    (hlength : code.length < 9223372036854775808) :
    (MethodReport.of (MethodUnit.ofMethod method) tally).Fits code method.instructions := by
  have htotal := total_count_ofMethod_le hcode
  have hlocked := htally.locked_le_total (MethodUnit.ofMethod method).locked_le_total_count
  have hevents := (MethodUnit.ofMethod method).length_events_le_total_count
  have hword : (Int64.ofNat (MethodUnit.ofMethod method).events.length).toInt =
      (MethodUnit.ofMethod method).events.length := Int64.toInt_ofNat_of_lt (by omega)
  have hinstructions := length_events_ofMethod_le method
  refine ⟨hcode, htally.locked_nonneg, hlocked, ?_, ?_, ?_⟩
  · rw [MethodReport.of, htally.total]
    omega
  · rw [MethodReport.of, hword]
    omega
  · rw [MethodReport.of, hword]
    omega

theorem Analysis.fits_ofTallies {file : ClassFile} {tallies : List Tally} {size : Nat}
    (htallies : TalliesOf (ClassUnit.ofFile file).methods tallies)
    (htotal : (countAll (ClassUnit.ofFile file).methods).total ≤ size)
    (hsize : size < 9223372036854775808)
    (hmethods : file.methods.length < 65536) (hfields : file.fields.length < 65536) :
    (Analysis.ofTallies (ClassUnit.ofFile file) tallies).Fits file size := by
  have hbound := Nat.lt_of_le_of_lt htotal hsize
  have hsum := (htallies.represent hbound).represents_sum hbound
  have hlocked := hsum.locked_le_total (locked_countAll_le_total (ClassUnit.ofFile file).methods)
  obtain ⟨htotals, hlockeds⟩ := (htallies.represent hbound).sum_toInt
  have hrows : (Analysis.ofTallies (ClassUnit.ofFile file) tallies).methods.map MethodReport.tally =
      tallies := map_tally_zipWith htallies
  rw [← hrows, List.map_map] at htotals hlockeds
  have hlength : tallies.length = file.methods.length := by
    rw [← htallies.length_eq]
    exact List.length_map _
  have hfieldsLength : (ClassUnit.ofFile file).fields.length = file.fields.length :=
    List.length_map _
  refine ⟨hsum.total.trans htotals.symm, hsum.locked.trans hlockeds.symm, hsum.locked_nonneg,
    hlocked, ?_, ?_, ?_⟩
  · exact hsum.total ▸ Int.ofNat_le.mpr htotal
  · rw [← hlength]
    exact Int64.toInt_ofNat_of_lt (by omega)
  · rw [← hfieldsLength]
    exact Int64.toInt_ofNat_of_lt (by omega)

/-- What is not under a lock is counted exactly, too. -/
theorem Analysis.Fits.unlocked {analysis : Analysis} {file : ClassFile} {size : Nat}
    (h : analysis.Fits file size) (input : Input) (decodeTime analyzeTime : Int64) :
    (Command.runStats input analysis decodeTime analyzeTime).unlocked.toInt =
      analysis.tally.total.toInt - analysis.tally.locked.toInt := by
  have hnonneg := h.locked_nonneg
  have hle := h.locked_le
  have hlt := analysis.tally.total.toInt_lt
  show (analysis.tally.total - analysis.tally.locked).toInt = _
  rw [Int64.toInt_sub]
  apply Int.bmod_eq_of_le <;> omega

/-- Each row of an analysis fits the code array of its method. -/
theorem fits_of_getElem? {members : List Member} {methods : List ClassFile.Method}
    {tallies : List Tally}
    (hmembers : List.Forall₂ (fun member method => ClassFile.Method.ofMember member = .ok method)
      members methods)
    (htallies : Represent (methods.map MethodUnit.ofMethod) tallies) {i : Nat} {member : Member}
    {method : ClassFile.Method} {row : MethodReport} (hmember : members[i]? = some member)
    (hmethod : methods[i]? = some method)
    (hrow : ((methods.map MethodUnit.ofMethod).zipWith MethodReport.of tallies)[i]? = some row)
    (hlength : member.codeArray.length < 9223372036854775808) :
    row.Fits member.codeArray method.instructions := by
  induction hmembers generalizing tallies i with
  | nil => simp at hmember
  | cons hfirst _ ih =>
    cases htallies with
    | cons htally htallies =>
      cases i with
      | zero =>
        cases hmember
        cases hmethod
        cases hrow
        exact MethodReport.fits_of (ClassFile.decode_codeArray hfirst) htally hlength
      | succ i => exact ih htallies hmember hmethod hrow

/-- Counts are bounded by the input. For a file that is parsed, whatever the number of workers, the
analysis comes to a result. The counts of each method are within what its code array allows, those
of the class are the exact sums and within the size of the file, and what a run records as not
locked is never negative. -/
theorem counts_fit_of_parse (data : Bytes) (file : ClassFile) (workers : Int64)
    (hlength : data.length < 9223372036854775808) (hparse : ClassFile.parse data = .ok file) :
    ∃ (outline : Outline) (analysis : Analysis),
      ClassFile.Decoder.run Outline.read data = .ok outline ∧
      ((ClassUnit.ofFile file).AlwaysEnds workers false fun run => run.outcome = .ok analysis) ∧
      outline.methods.length = file.methods.length ∧
      analysis.methods.length = file.methods.length ∧
      (∀ (i : Nat) (member : Member) (method : ClassFile.Method) (row : MethodReport),
        outline.methods[i]? = some member → file.methods[i]? = some method →
        analysis.methods[i]? = some row → row.Fits member.codeArray method.instructions) ∧
      analysis.Fits file data.length ∧
      ∀ (input : Input) (decodeTime analyzeTime : Int64),
        (Command.runStats input analysis decodeTime analyzeTime).unlocked.toInt =
            analysis.tally.total.toInt - analysis.tally.locked.toInt ∧
          0 ≤ (Command.runStats input analysis decodeTime analyzeTime).unlocked.toInt := by
  obtain ⟨outline, hread, hfields, hmethods⟩ := ClassFile.exists_outline_of_parse hparse
  have htotal : (countAll (ClassUnit.ofFile file).methods).total ≤ data.length :=
    Nat.le_trans (total_countAll_le hmethods) (Outline.sum_length_codeArray_le hread)
  have hbound := Nat.lt_of_le_of_lt htotal hlength
  obtain ⟨tallies, htallies⟩ := exists_talliesOf_of_total_lt hbound
  have hrepresent := htallies.represent hbound
  obtain ⟨hfieldsLength, hmethodsLength⟩ := Outline.length_members_lt hread
  have hfits := Analysis.fits_ofTallies htallies htotal hlength
    (hmethods.length_eq ▸ hmethodsLength)
    (by rw [hfields, List.length_map]; exact hfieldsLength)
  refine ⟨outline, .ofTallies (ClassUnit.ofFile file) tallies, hread,
    alwaysEnds_of_talliesOf htallies workers, hmethods.length_eq, ?_, ?_, hfits, ?_⟩
  · simp [Analysis.ofTallies, ClassUnit.ofFile, ← htallies.length_eq]
  · intro i member method row hmember hmethod hrow
    have hcode := Outline.length_codeArray_le hread (List.mem_of_getElem? hmember)
    exact fits_of_getElem? hmethods hrepresent hmember hmethod hrow (by omega)
  · intro input decodeTime analyzeTime
    have hunlocked := hfits.unlocked input decodeTime analyzeTime
    have hle := hfits.locked_le
    exact ⟨hunlocked, by omega⟩

/-- A class `A` with a method that compares under a lock. -/
def comparingClass : Bytes :=
  [0xCA, 0xFE, 0xBA, 0xBE, 0, 0, 0, 45, 0, 6, 7, 0, 2, 1, 0, 1, 65, 1, 0, 1, 109, 1, 0, 3, 40, 41,
    86, 1, 0, 4, 67, 111, 100, 101, 0, 0, 0, 1, 0, 0, 0, 0, 0, 0, 0, 1, 0, 0, 0, 3, 0, 4, 0, 1, 0,
    5, 0, 0, 0, 16, 0, 2, 0, 1, 0, 0, 0, 6, 194, 160, 0, 3, 195, 177, 0, 0, 0, 0]

theorem counts_fit_of_parse_comparingClass :
    comparingClass.length < 9223372036854775808 ∧
    ∃ file analysis, ClassFile.parse comparingClass = .ok file ∧
      ((ClassUnit.ofFile file).AlwaysEnds 4 false fun run => run.outcome = .ok analysis) ∧
      analysis.methods.length = file.methods.length ∧ analysis.Fits file 78 := by
  have hlength : comparingClass.length < 9223372036854775808 := by decide
  have hok : (ClassFile.parse comparingClass).isOk = true := by decide +kernel
  cases hparse : ClassFile.parse comparingClass with
  | error fault =>
    rw [hparse] at hok
    cases hok
  | ok file =>
    obtain ⟨_, analysis, -, hends, -, hrows, -, hfits, -⟩ :=
      counts_fit_of_parse comparingClass file 4 hlength hparse
    exact ⟨hlength, file, analysis, rfl, hends, hrows, hfits⟩

end Lock

end MonitorCoverage
