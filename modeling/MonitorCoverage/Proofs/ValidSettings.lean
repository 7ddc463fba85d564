import MonitorCoverage.Proofs.CountBounds
import MonitorCoverage.Proofs.RunTranscripts

/-!
# Runs with valid settings

Settings are checked once, before a run. What is checked there cannot fail later: the format and the
log level are known, the size limit is a positive number that can be raised by one, and a class
within it is short enough for every length and count to fit into a word. The failures that remain
are those of the input, of the class, of the report and of writes.
-/

namespace MonitorCoverage

namespace Lock

/-- Whoever works on it, the analysis of a class of a file that fits into memory comes to a result
unless it is called off. -/
theorem exists_outcome_of_parse {data : Bytes} {file : ClassFile}
    (hlength : data.length < 9223372036854775808) (hparse : ClassFile.parse data = .ok file)
    (workers : Int64) {schedule : List ScheduleStep} (hcancel : .cancel ∉ schedule) :
    ∃ analysis, ((ClassUnit.ofFile file).analyzeBy workers schedule).outcome = .ok analysis := by
  obtain ⟨outline, hread, -, hmethods⟩ := ClassFile.exists_outline_of_parse hparse
  have htotal : (countAll (ClassUnit.ofFile file).methods).total ≤ data.length :=
    Nat.le_trans (total_countAll_le hmethods) (ClassFile.Outline.sum_length_codeArray_le hread)
  obtain ⟨tallies, htallies⟩ := exists_talliesOf_of_total_lt (Nat.lt_of_le_of_lt htotal hlength)
  exact ⟨_, outcome_analyzeBy_of_talliesOf htallies hcancel⟩

end Lock

namespace Command

variable {settings : Settings}

theorem of_validate (h : settings.validate = .ok ()) :
    (∃ format, Report.Format.ofName? settings.format = some format) ∧
      (∃ limit, settings.maxClassBytes = .ok limit) ∧ ∃ level, settings.level = .ok level := by
  cases hformat : Report.Format.ofName? settings.format with
  | none =>
    simp only [Settings.validate, hformat] at h
    cases h
  | some format =>
    by_cases hworkers : settings.workers ≤ 0
    · simp only [Settings.validate, hformat, hworkers] at h
      cases h
    · simp only [Settings.validate, hformat, hworkers] at h
      obtain ⟨limit, hlimit, h⟩ := Outcome.bind_eq_ok_iff.mp h
      obtain ⟨level, hlevel, -⟩ := Outcome.bind_eq_ok_iff.mp h
      exact ⟨⟨format, rfl⟩, ⟨limit, hlimit⟩, level, hlevel⟩

/-- The settings that a request is carried out with were checked after its flags were put over
them. -/
theorem validate_of_settings {request : Request} {around : Surroundings}
    (h : request.settings around = .ok settings) : settings.validate = .ok () := by
  unfold Request.settings at h
  split at h
  · cases h
  · dsimp only at h
    split at h
    · rename_i hvalid
      cases h
      exact hvalid
    · cases h

/-- Whether a failure can come of an input, a class, a report or a write. -/
def Failure.IsExpected : Failure → Prop
  | .input cause => cause.IsOfInput
  | .decode .. | .report (.invalid _) | .report (.write _) | .metricsFile .. | .metrics _ => True
  | .usage _ | .settings _ | .flags _ | .telemetry _ | .limit _ | .analysis _ => False
  | .report (.unknownFormat _) | .noRegistry | .output _ => False

variable {answers : Answers} {around : Surroundings} {path metricsPath : Bytes} {failure : Failure}

theorem isExpected_of_loadClass (hvalid : settings.validate = .ok ())
    (h : loadClass around settings path = .error failure) : failure.IsExpected := by
  obtain ⟨-, ⟨limit, hlimit⟩, -⟩ := of_validate hvalid
  simp only [loadClass, hlimit] at h
  split at h
  · rename_i hload
    cases h
    exact Input.load_eq_error (isUsable_of_maxClassBytes hlimit) hload
  · cases h

theorem Ends.isExpected {input : Input} {acts : List Act}
    (hformat : ∃ format, Report.Format.ofName? settings.format = some format)
    (hlength : input.data.length < 9223372036854775808)
    (hcancel : .cancel ∉ around.schedule)
    (h : Ends around settings metricsPath input (.error failure) acts) :
    failure.IsExpected := by
  cases h with
  | undecoded => trivial
  | oversized hsize =>
    have hnonneg : ¬ Int64.ofNat input.data.length < 0 := by
      rw [Int64.lt_iff_toInt_lt, Int64.toInt_ofNat_of_lt hlength]
      exact Int.not_lt.mpr (Int.natCast_nonneg _)
    rw [Range.ofLength, if_neg hnonneg] at hsize
    cases hsize
  | unanalyzed hparse houtcome =>
    obtain ⟨analysis, hanalysis⟩ :=
      Lock.exists_outcome_of_parse hlength hparse settings.workers hcancel
    rw [hanalysis] at houtcome
    cases houtcome
  | unreported hreports =>
    cases hreports with
    | intro _ _ _ hrendered =>
      cases hrendered with
      | unknown hunknown =>
        obtain ⟨format, hknown⟩ := hformat
        cases hknown.symm.trans hunknown
      | invalid | refused => trivial
  | uncreated | unwritten => trivial

theorem isExpected_of_analyzePath (hvalid : settings.validate = .ok ())
    (hcancel : .cancel ∉ around.schedule)
    (h : ((analyzePath answers.effects around settings path metricsPath).run []).1 =
      .error failure) : failure.IsExpected := by
  obtain ⟨other, hload, hrun⟩ | ⟨input, result, acts, hload, hrun, hends⟩ :=
    run_analyzePath answers around settings path metricsPath
  · rw [hrun] at h
    cases h
    exact isExpected_of_loadClass hvalid hload
  · rw [hrun] at h
    obtain rfl : result = .error failure := h
    obtain ⟨limit, -, hlimit, -, -, hle⟩ := loadClass_eq_ok hload
    have hlt := (isUsable_of_maxClassBytes hlimit).lt
    exact hends.isExpected (of_validate hvalid).1 (by omega) hcancel

/-- Valid settings leave no failure to a run but those of its input, its class, its report and its
writes. The settings of a request are valid. With valid settings the size limit is between one and
`Settings.greatestSize`, so that it can be raised by one without a wrap; the log level is known, and
it is the one that is logged with; and if nobody calls the run off, every failure is an expected
one: the limit and the format are not found wrong again, no length and no size is out of range, and
no method leaves a lock that it does not hold. The same holds of a whole run from its settings on,
as long as telemetry can be set up. Of how a size is read, only that it gives a word or an error is
used. -/
theorem failures_of_valid_settings :
    (∀ (request : Request) (around : Surroundings) (settings : Settings),
      request.settings around = .ok settings → settings.validate = .ok ()) ∧
    (∀ settings : Settings, settings.validate = .ok () →
      (∃ limit, settings.maxClassBytes = .ok limit ∧ 1 ≤ limit.toInt ∧
        limit.toInt ≤ Settings.greatestSize ∧ (limit + 1).toInt = limit.toInt + 1) ∧
      (∃ level, settings.level = .ok level ∧ ∀ release collectMetrics,
        (telemetryOf settings release collectMetrics).level = level) ∧
      ∀ (answers : Answers) (around : Surroundings) (path metricsPath : Bytes) (failure : Failure),
        .cancel ∉ around.schedule →
        ((analyzePath answers.effects around settings path metricsPath).run []).1 =
          .error failure → failure.IsExpected) ∧
    ∀ (execution : Execution) (request : Request) (settings : Settings) (failure : Failure),
      Invocation.ofLine execution.line = .ok (.analyze request) →
      request.settings execution.around = .ok settings →
      execution.around.telemetryObstacle? (telemetryOf settings execution.around.release
        (!request.metricsPath.isEmpty)) = none →
      .cancel ∉ execution.around.schedule →
      execution.result = .error failure → failure.IsExpected := by
  refine ⟨fun _ _ _ => validate_of_settings, ?_, ?_⟩
  · intro settings hvalid
    obtain ⟨-, ⟨limit, hlimit⟩, level, hlevel⟩ := of_validate hvalid
    obtain ⟨hpos, hle⟩ := maxClassBytes_eq_ok hlimit
    refine ⟨⟨limit, hlimit, hpos, hle, (isUsable_of_maxClassBytes hlimit).toInt_succ⟩, ?_, ?_⟩
    · refine ⟨level, hlevel, fun release collectMetrics => ?_⟩
      simp only [telemetryOf, hlevel]
    · intro answers around path metricsPath failure hcancel hfails
      exact isExpected_of_analyzePath hvalid hcancel hfails
  · intro execution request settings failure hline hsettings htelemetry hcancel hresult
    obtain ⟨_, hfails, -⟩ | ⟨settings', hsettings', ⟨reason, hreason, -⟩ | hrun⟩ :=
      Execution.cases_of_analyze hline
    · cases hsettings.symm.trans hfails
    · obtain rfl := Except.ok.inj (hsettings.symm.trans hsettings')
      cases htelemetry.symm.trans hreason
    · obtain rfl := Except.ok.inj (hsettings.symm.trans hsettings')
      have hfails : ((analyzePath execution.answers.effects execution.around settings request.path
          request.metricsPath).run []).1 = .error failure := by rw [hrun, hresult]
      exact isExpected_of_analyzePath (validate_of_settings hsettings) hcancel hfails

/-- A frame of 22 bytes that expands to 121. -/
def swellingFrame : Bytes :=
  Lz4.magic ++ [0x60, 0x40, 0x82, 7, 0, 0, 0, 0x1F, 0x41, 0x01, 0x00, 0x64, 0x10, 0x42, 0, 0, 0, 0]

def swellingRun : Execution :=
  .withFile (utf8 "A") swellingFrame [("LOCKCOV_ANALYSIS_MAX_CLASS_SIZE", "120")] [utf8 "A"]

theorem failures_of_valid_settings_swellingRun :
    (∃ limit, ({ maxClassSize := utf8 "120" } : Settings).maxClassBytes = .ok limit ∧
      (limit + 1).toInt = limit.toInt + 1) ∧
    swellingRun.result = .error (.input (.unreadable (utf8 "A") (.expandsTooLarge 120))) ∧
    (Failure.input (.unreadable (utf8 "A") (.expandsTooLarge 120))).IsExpected := by
  obtain ⟨hchecked, hclosed, hexpected⟩ := failures_of_valid_settings
  have hline : Invocation.ofLine swellingRun.line =
      .ok (.analyze ⟨utf8 "A", [], false, none, none, false, []⟩) := by decide +kernel
  have hsettings : (⟨utf8 "A", [], false, none, none, false, []⟩ : Request).settings
      swellingRun.around = .ok { maxClassSize := utf8 "120" } := by decide +kernel
  have hresult : swellingRun.result =
      .error (.input (.unreadable (utf8 "A") (.expandsTooLarge 120))) := by decide +kernel
  obtain ⟨⟨limit, hlimit, -, -, hsucc⟩, -⟩ := hclosed _ (hchecked _ _ _ hsettings)
  exact ⟨⟨limit, hlimit, hsucc⟩, hresult,
    hexpected swellingRun _ _ _ hline hsettings rfl List.not_mem_nil hresult⟩

end Command

end MonitorCoverage
