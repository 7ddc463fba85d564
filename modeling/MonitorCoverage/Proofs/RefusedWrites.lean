import MonitorCoverage.Report.Render

/-!
# Refused writes

An output takes what it is given or refuses it for a reason, as it likes and by what it was given
before. Rendering gives it the whole rendering or nothing. A line of text, a JSON report and a YAML
report are given at once, and a refusal becomes the result: rendering succeeds only if the output
took everything. A table does not keep to this. It is given in two parts, the second whatever became
of the first, and rendering succeeds even if both were refused.
-/

namespace MonitorCoverage.Report

/-! ## Outputs -/

/-- Bytes that were given to an output, and its answer. -/
structure Writing where
  bytes : Bytes
  answer : Except Bytes Unit

/-- An answer as a result of rendering. -/
def asResult : Except Bytes Unit → Except RenderError Unit
  | .ok () => .ok ()
  | .error reason => .error (.write reason)

/-- How writes are answered, each by those before it. -/
structure Output where
  answer : List Writing → Bytes → Except Bytes Unit

namespace Output

/-- A write is answered and noted down. -/
def write (output : Output) (bytes : Bytes) : StateM (List Writing) (Except Bytes Unit) :=
  fun before => (output.answer before bytes, before ++ [⟨bytes, output.answer before bytes⟩])

variable (output : Output) (before : List Writing)

theorem run_write_bind {α : Type} (bytes : Bytes)
    (next : Except Bytes Unit → StateM (List Writing) α) :
    (output.write bytes >>= next).run before =
      (next (output.answer before bytes)).run
        (before ++ [⟨bytes, output.answer before bytes⟩]) :=
  rfl

theorem run_put (document : Bytes) :
    (put output.write document).run before =
      (asResult (output.answer before document),
        before ++ [⟨document, output.answer before document⟩]) := by
  rw [put, run_write_bind]
  cases output.answer before document with
  | ok => rfl
  | error reason => rfl

/-- Both parts of a table are given, whatever the answers. -/
theorem exists_run_renderAs_table (analysis : Lock.Analysis) (options : Options) :
    ∃ first second, (renderAs output.write analysis options .table).run before =
      (.ok (), before ++
        [⟨(ofAnalysis analysis).table (options.showsColor && !options.noColor), first⟩,
          ⟨utf8 "\n", second⟩]) := by
  rw [renderAs, run_write_bind, run_write_bind, List.append_assoc]
  exact ⟨_, _, rfl⟩

end Output

/-! ## Renderings -/

/-- The format that options ask for. -/
def Options.chosen (options : Options) : Option Format :=
  if options.format = [] then some .text else Format.ofName? options.format

/-- All the bytes of an analysis in a format. -/
def rendering (analysis : Lock.Analysis) (options : Options) : Format → Bytes
  | .text => utf8 (analysis.tally.line ++ "\n")
  | .json => utf8 ((ofAnalysis analysis).toJson.document ++ "\n")
  | .yaml => Text.encode (ofAnalysis analysis).toYaml
  | .table => (ofAnalysis analysis).table (options.showsColor && !options.noColor) ++ utf8 "\n"

section Renderings

variable {m : Type → Type} [Monad m] {write : Bytes → m (Except Bytes Unit)}
  {analysis : Lock.Analysis} {options : Options}

theorem render_eq_renderAs_of_chosen {format : Format} (h : options.chosen = some format) :
    render write analysis options = renderAs write analysis options format := by
  unfold Options.chosen at h
  unfold render
  split at h
  · rename_i hempty
    obtain rfl : Format.text = format := by simpa using h
    rw [hempty, List.isEmpty_nil, if_pos rfl]
  · rename_i hne
    rw [if_neg (by simpa using hne), h]

theorem render_of_unknown (h : options.chosen = none) :
    render write analysis options = pure (.error (.unknownFormat options.format)) := by
  unfold Options.chosen at h
  unfold render
  split at h
  · cases h
  · rename_i hne
    rw [if_neg (by simpa using hne), h]

/-- Only JSON reports are checked. -/
def violationsIn (analysis : Lock.Analysis) : Format → List Schema.Violation
  | .json => schema.violations [] (ofAnalysis analysis).toJson
  | _ => []

theorem renderAs_of_invalid {format : Format} (h : violationsIn analysis format ≠ []) :
    renderAs write analysis options format =
      pure (.error (.invalid (violationsIn analysis format))) := by
  cases format with
  | json =>
    unfold renderAs
    dsimp only
    split
    · contradiction
    · rfl
  | text | yaml | table => exact absurd rfl h

theorem renderAs_of_valid {format : Format} (hformat : format ≠ .table)
    (h : violationsIn analysis format = []) :
    renderAs write analysis options format = put write (rendering analysis options format) := by
  cases format with
  | json =>
    have hvalid : schema.violations [] (ofAnalysis analysis).toJson = [] := h
    simp only [renderAs, hvalid]
    rfl
  | text | yaml => rfl
  | table => exact absurd rfl hformat

end Renderings

/-! ## Results -/

/-- A result of rendering goes with what was given to the output. -/
structure Accounts (analysis : Lock.Analysis) (options : Options)
    (result : Except RenderError Unit) (writings : List Writing) : Prop where
  /-- Success means that the whole rendering was given, and outside tables also taken. -/
  complete : result = .ok () → ∃ format, options.chosen = some format ∧
    writings.flatMap (·.bytes) = rendering analysis options format ∧
    (format ≠ .table → ∀ writing ∈ writings, writing.answer = .ok ())
  /-- A refusal becomes the result, but for tables. -/
  refused (reason : Bytes) : result = .error (.write reason) ↔
    options.chosen ≠ some .table ∧ ∃ writing ∈ writings, writing.answer = .error reason
  /-- A table succeeds, whatever the output answers. -/
  table : options.chosen = some .table → result = .ok ()
  unknown (name : Bytes) : result = .error (.unknownFormat name) ↔
    options.chosen = none ∧ name = options.format
  invalid (violations : List Schema.Violation) : result = .error (.invalid violations) ↔
    violations ≠ [] ∧
      ∃ format, options.chosen = some format ∧ violationsIn analysis format = violations
  /-- Nothing is given for a format that is not known or of a report that is not valid. -/
  untouched : (∃ name, result = .error (.unknownFormat name)) ∨
    (∃ violations, result = .error (.invalid violations)) → writings = []

section Accounts

variable {analysis : Lock.Analysis} {options : Options}

theorem accounts_unknown (h : options.chosen = none) :
    Accounts analysis options (.error (.unknownFormat options.format)) [] where
  complete hok := by cases hok
  refused reason := by simp
  table htable := by simp [h] at htable
  unknown name := by simp [h, eq_comm]
  invalid violations := by simp [h]
  untouched _ := rfl

theorem accounts_invalid {format : Format} (hchosen : options.chosen = some format)
    (h : violationsIn analysis format ≠ []) :
    Accounts analysis options (.error (.invalid (violationsIn analysis format))) [] where
  complete hok := by cases hok
  refused reason := by simp
  table htable := by
    obtain rfl : format = .table := by simpa [hchosen] using htable
    exact absurd rfl h
  unknown name := by simp [hchosen]
  invalid violations := by
    simp only [hchosen, Except.error.injEq, RenderError.invalid.injEq, Option.some.injEq,
      exists_eq_left']
    constructor
    · intro heq
      exact ⟨heq ▸ h, heq⟩
    · exact And.right
  untouched _ := rfl

/-- A document that is given at once is taken or refused as a whole. -/
theorem accounts_document {format : Format} (hchosen : options.chosen = some format)
    (hformat : format ≠ .table) (hvalid : violationsIn analysis format = [])
    (answer : Except Bytes Unit) :
    Accounts analysis options (asResult answer)
      [⟨rendering analysis options format, answer⟩] where
  complete hok := by
    refine ⟨format, hchosen, by simp, ?_⟩
    intro _ writing hmem
    rw [List.mem_singleton.mp hmem]
    cases answer with
    | ok => rfl
    | error reason => cases hok
  refused reason := by
    cases answer with
    | ok => simp [asResult]
    | error other => simp [asResult, hchosen, hformat]
  table htable := by simp [hchosen, hformat] at htable
  unknown name := by
    cases answer with
    | ok => simp [asResult, hchosen]
    | error other => simp [asResult, hchosen]
  invalid violations := by
    cases answer with
    | ok => simp [asResult, hchosen, hvalid, eq_comm]
    | error other => simp [asResult, hchosen, hvalid, eq_comm]
  untouched h := by
    cases answer with
    | ok => simp [asResult] at h
    | error other => simp [asResult] at h

theorem accounts_table (hchosen : options.chosen = some .table) (first second : Except Bytes Unit) :
    Accounts analysis options (.ok ())
      [⟨(ofAnalysis analysis).table (options.showsColor && !options.noColor), first⟩,
        ⟨utf8 "\n", second⟩] where
  complete _ := ⟨.table, hchosen, by simp [rendering], fun h => absurd rfl h⟩
  refused reason := by simp [hchosen]
  table _ := rfl
  unknown name := by simp [hchosen]
  invalid violations := by simp [hchosen, violationsIn, eq_comm]
  untouched h := by simp at h

end Accounts

/-- For every output, analysis and choice of options: if rendering succeeds, the output was given
the whole rendering, and it took all of it unless the format is that of a table. Unless it is, a
refusal becomes the result. A format that is not known and a report that is not valid are the only
other ways to fail, and then nothing was given to the output. -/
theorem render_accounts (output : Output) (before : List Writing) (analysis : Lock.Analysis)
    (options : Options) :
    ∃ result writings,
      (render output.write analysis options).run before = (result, before ++ writings) ∧
      Accounts analysis options result writings := by
  cases hchosen : options.chosen with
  | none =>
    refine ⟨_, [], ?_, accounts_unknown hchosen⟩
    rw [render_of_unknown hchosen, List.append_nil]
    rfl
  | some format =>
    rw [render_eq_renderAs_of_chosen hchosen]
    by_cases hvalid : violationsIn analysis format = []
    · by_cases hformat : format = .table
      · rw [hformat] at hchosen ⊢
        obtain ⟨first, second, hrun⟩ := output.exists_run_renderAs_table before analysis options
        exact ⟨_, _, hrun, accounts_table hchosen first second⟩
      · rw [renderAs_of_valid hformat hvalid, output.run_put]
        exact ⟨_, _, rfl, accounts_document hchosen hformat hvalid _⟩
    · refine ⟨_, [], ?_, accounts_invalid hchosen hvalid⟩
      rw [renderAs_of_invalid hvalid, List.append_nil]
      rfl

/-- An output that refuses everything. -/
def refusing : Output := ⟨fun _ _ => .error (utf8 "write failed")⟩

def withoutMethods : Lock.Analysis := ⟨utf8 "A", ⟨1, 0, 0, 0⟩, []⟩

/-- Rendering a table succeeds although nothing of it was taken. -/
theorem render_table_refused :
    ∃ writings,
      (render refusing.write withoutMethods ⟨utf8 "table", false, false⟩).run [] =
        (.ok (), writings) ∧
      writings ≠ [] ∧ ∀ writing ∈ writings, writing.answer = .error (utf8 "write failed") := by
  have hchosen : (⟨utf8 "table", false, false⟩ : Options).chosen = some .table := by decide +kernel
  rw [render_eq_renderAs_of_chosen hchosen]
  refine ⟨_, rfl, List.cons_ne_nil _ _, ?_⟩
  intro writing hmem
  simp only [List.nil_append, List.cons_append, List.mem_cons, List.not_mem_nil, or_false] at hmem
  obtain rfl | rfl := hmem
  · rfl
  · rfl

end MonitorCoverage.Report
