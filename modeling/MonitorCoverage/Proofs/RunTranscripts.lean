import MonitorCoverage.Command.Run
import MonitorCoverage.Proofs.ReportValidity
import MonitorCoverage.Proofs.WholeInput

/-!
# What runs do

A run is seen from outside as a list of acts: bytes given to the output or to the log, steps on
files and looks at the clock. What is around the run answers each act as it likes, by what was done
before it. Whatever the answers, acts other than log lines and looks at the clock come only after
the class was analysed; what is given to the output is then its report, and after it there are only
steps on the file of the metrics.
-/

namespace MonitorCoverage.Command

/-- What can be done to a file. -/
inductive FileStep where
  | create
  | append (bytes : Bytes)
  | close
  deriving DecidableEq, Repr

inductive Act where
  | output (bytes : Bytes)
  | log (bytes : Bytes)
  | file (path : Bytes) (step : FileStep)
  | clock
  deriving DecidableEq, Repr

/-- How acts are answered, each by those before it. -/
structure Answers where
  output : List Act → Bytes → Except Bytes Unit
  create : List Act → Bytes → Except Files.Obstacle Unit
  append : List Act → (path bytes : Bytes) → Except Bytes Unit
  close : List Act → Bytes → Except Bytes Unit
  clock : List Act → Int64
  now : List Act → Option Log.Moment

/-- Effects that are written down. -/
def Answers.effects (answers : Answers) : Effects (StateM (List Act)) where
  writeOutput bytes := fun acts => (answers.output acts bytes, acts ++ [.output bytes])
  writeLog bytes := fun acts => ((), acts ++ [.log bytes])
  createFile path := fun acts => (answers.create acts path, acts ++ [.file path .create])
  appendFile path bytes := fun acts =>
    (answers.append acts path bytes, acts ++ [.file path (.append bytes)])
  closeFile path := fun acts => (answers.close acts path, acts ++ [.file path .close])
  time := fun acts => (answers.clock acts, acts ++ [.clock])
  now := fun acts => (answers.now acts, acts ++ [.clock])

/-- Whether an act leaves the output and all files as they are. -/
@[simp] def Act.IsQuiet : Act → Prop
  | log _ | clock => True
  | output _ | file .. => False

/-- The bytes that were given to the output. -/
def outputOf (acts : List Act) : Bytes :=
  acts.flatMap fun
    | .output bytes => bytes
    | _ => []

theorem outputOf_append (acts more : List Act) :
    outputOf (acts ++ more) = outputOf acts ++ outputOf more :=
  List.flatMap_append

theorem outputOf_quiet {acts : List Act} (h : ∀ act ∈ acts, act.IsQuiet) : outputOf acts = [] := by
  rw [outputOf, List.flatMap_eq_nil_iff]
  intro act hmem
  cases act with
  | output | file => cases h _ hmem
  | log | clock => rfl

theorem outputOf_map_output (chunks : List Bytes) :
    outputOf (chunks.map .output) = chunks.flatten := by
  rw [outputOf, List.flatMap_map, List.flatMap_id']

theorem outputOf_map_file (path : Bytes) (steps : List FileStep) :
    outputOf (steps.map (.file path)) = [] := by
  rw [outputOf, List.flatMap_map, List.flatMap_eq_nil_iff]
  intro step hmem
  rfl

/-! ## Pieces of runs -/

variable {answers : Answers} {around : Surroundings} {settings : Settings} {metricsPath : Bytes}
  {input : Input} {α β : Type}

theorem run_bind (first : StateM (List Act) α) (next : α → StateM (List Act) β)
    (acts : List Act) :
    (first >>= next).run acts = (next (first.run acts).1).run (first.run acts).2 :=
  rfl

theorem run_pure (value : α) (acts : List Act) :
    (pure value : StateM (List Act) α).run acts = (value, acts) :=
  rfl

theorem run_writeOutput (bytes : Bytes) (acts : List Act) :
    (answers.effects.writeOutput bytes).run acts =
      (answers.output acts bytes, acts ++ [.output bytes]) :=
  rfl

theorem run_createFile (path : Bytes) (acts : List Act) :
    (answers.effects.createFile path).run acts =
      (answers.create acts path, acts ++ [.file path .create]) :=
  rfl

theorem run_closeFile (path : Bytes) (acts : List Act) :
    (answers.effects.closeFile path).run acts =
      (answers.close acts path, acts ++ [.file path .close]) :=
  rfl

/-- A piece of a run keeps quiet: after quiet acts, all acts are still quiet. -/
def KeepsQuiet (piece : StateM (List Act) α) : Prop :=
  ∀ acts, (∀ act ∈ acts, act.IsQuiet) → ∀ act ∈ (piece.run acts).2, act.IsQuiet

theorem keepsQuiet_pure (value : α) : KeepsQuiet (pure value) := fun _ h => h

theorem KeepsQuiet.bind {first : StateM (List Act) α} {next : α → StateM (List Act) β}
    (hfirst : KeepsQuiet first) (hnext : ∀ value, KeepsQuiet (next value)) :
    KeepsQuiet (first >>= next) := by
  intro acts h
  rw [run_bind]
  exact hnext _ _ (hfirst acts h)

theorem keepsQuiet_forM {piece : α → StateM (List Act) Unit} (h : ∀ item, KeepsQuiet (piece item))
    (items : List α) : KeepsQuiet (items.forM piece) := by
  induction items with
  | nil => exact keepsQuiet_pure ()
  | cons item items ih => exact (h item).bind fun _ => ih

/-- A quiet act keeps quiet. -/
theorem keepsQuiet_of_run {piece : StateM (List Act) α} (act : Act) (hact : act.IsQuiet)
    (hrun : ∀ acts, (piece.run acts).2 = acts ++ [act]) : KeepsQuiet piece := by
  intro acts h other hmem
  rw [hrun] at hmem
  obtain hold | hnew := List.mem_append.mp hmem
  · exact h other hold
  · exact List.mem_singleton.mp hnew ▸ hact

theorem keepsQuiet_time (answers : Answers) : KeepsQuiet answers.effects.time :=
  keepsQuiet_of_run .clock trivial fun _ => rfl

theorem keepsQuiet_now (answers : Answers) : KeepsQuiet answers.effects.now :=
  keepsQuiet_of_run .clock trivial fun _ => rfl

theorem keepsQuiet_writeLog (answers : Answers) (bytes : Bytes) :
    KeepsQuiet (answers.effects.writeLog bytes) :=
  keepsQuiet_of_run (.log bytes) trivial fun _ => rfl

theorem keepsQuiet_logRecords (answers : Answers) (handler : Log.Handler)
    (context : Telemetry.SpanContext) (records : List Log.Record) :
    KeepsQuiet (logRecords answers.effects handler context records) := by
  refine keepsQuiet_forM (fun record => ?_) records
  exact (keepsQuiet_now answers).bind fun _ =>
    keepsQuiet_forM (fun line => keepsQuiet_writeLog answers (utf8 line)) _

theorem keepsQuiet_recordRun (answers : Answers) (around : Surroundings) (handler : Log.Handler)
    (context : Telemetry.SpanContext) (stats : Telemetry.RunStats) :
    KeepsQuiet (recordRun answers.effects around handler context stats) := by
  unfold recordRun
  split
  · exact keepsQuiet_pure _
  · exact (keepsQuiet_logRecords answers handler context _).bind fun _ => keepsQuiet_pure _

/-- A piece of a run handles one file: it adds nothing but steps on it. -/
def Handles (path : Bytes) (piece : StateM (List Act) α) : Prop :=
  ∀ acts, ∃ steps : List FileStep, (piece.run acts).2 = acts ++ steps.map (.file path)

theorem handles_pure (path : Bytes) (value : α) : Handles path (pure value) :=
  fun acts => ⟨[], (List.append_nil acts).symm⟩

theorem Handles.bind {path : Bytes} {first : StateM (List Act) α}
    {next : α → StateM (List Act) β} (hfirst : Handles path first)
    (hnext : ∀ value, Handles path (next value)) : Handles path (first >>= next) := by
  intro acts
  obtain ⟨steps, hsteps⟩ := hfirst acts
  obtain ⟨more, hmore⟩ := hnext (first.run acts).1 (acts ++ steps.map (.file path))
  refine ⟨steps ++ more, ?_⟩
  rw [run_bind, hsteps, hmore, List.map_append, List.append_assoc]

theorem handles_appendFile (answers : Answers) (path bytes : Bytes) :
    Handles path (answers.effects.appendFile path bytes) :=
  fun _ => ⟨[.append bytes], rfl⟩

theorem handles_writeFamilies (answers : Answers) (path : Bytes)
    (families : List Telemetry.Family) :
    Handles path (Telemetry.writeFamilies (answers.effects.appendFile path) families) := by
  induction families with
  | nil => exact handles_pure path _
  | cons family families ih =>
    refine (handles_appendFile answers path family.bytes).bind fun answer => ?_
    cases answer with
    | ok => exact ih
    | error reason => exact handles_pure path _

theorem handles_dump (answers : Answers) (path : Bytes)
    (gathered : Except Bytes (List Telemetry.Family)) :
    Handles path (Telemetry.dump gathered (answers.effects.appendFile path)) := by
  cases gathered with
  | ok families => exact handles_writeFamilies answers path families
  | error reason => exact handles_pure path _

/-! ## Reports -/

open Report (RenderError put render renderAs keep)

/-- What rendering can come to, and the bytes that were given to the output by then. If it succeeds,
they are those that an output gets that takes everything. -/
inductive Rendered (analysis : Lock.Analysis) (options : Report.Options) :
    Except RenderError Unit → List Bytes → Prop where
  | unknown (h : Report.Format.ofName? options.format = none) :
    Rendered analysis options (.error (.unknownFormat options.format)) []
  | invalid (violations : List Schema.Violation) :
    Rendered analysis options (.error (.invalid violations)) []
  | refused (reason : Bytes) (chunks : List Bytes) :
    Rendered analysis options (.error (.write reason)) chunks
  | written {chunks : List Bytes}
    (hkept : (render keep analysis options).run [] = (.ok (), chunks.flatten)) :
    Rendered analysis options (.ok ()) chunks

variable {analysis : Lock.Analysis} {options : Report.Options}

theorem exists_rendered_of_put (document : Bytes)
    (h : ∀ (m : Type → Type) [Monad m] (write : Bytes → m (Except Bytes Unit)),
      render write analysis options = put write document) (acts : List Act) :
    ∃ result chunks, (render answers.effects.writeOutput analysis options).run acts =
      (result, acts ++ chunks.map .output) ∧ Rendered analysis options result chunks := by
  rw [h, put, run_bind, run_writeOutput]
  cases answers.output acts document with
  | ok =>
    refine ⟨_, [document], rfl, .written ?_⟩
    rw [h, List.flatten_singleton]
    rfl
  | error reason => exact ⟨_, [document], rfl, .refused reason [document]⟩

theorem exists_rendered_of_renderAs (format : Report.Format)
    (h : ∀ (m : Type → Type) [Monad m] (write : Bytes → m (Except Bytes Unit)),
      render write analysis options = renderAs write analysis options format) (acts : List Act) :
    ∃ result chunks, (render answers.effects.writeOutput analysis options).run acts =
      (result, acts ++ chunks.map .output) ∧ Rendered analysis options result chunks := by
  cases format with
  | text => exact exists_rendered_of_put _ (fun m _ write => h m write) acts
  | yaml => exact exists_rendered_of_put _ (fun m _ write => h m write) acts
  | json =>
    cases hviolations : Report.schema.violations [] (Report.ofAnalysis analysis).toJson with
    | nil =>
      let document := utf8 ((Report.ofAnalysis analysis).toJson.document ++ "\n")
      refine exists_rendered_of_put document (fun m _ write => ?_) acts
      rw [h, renderAs]
      simp only [hviolations, document]
    | cons violation violations =>
      refine ⟨_, [], ?_, .invalid (violation :: violations)⟩
      rw [h, renderAs]
      simp only [hviolations]
      rw [List.map_nil, List.append_nil]
      rfl
  | table =>
    let table := (Report.ofAnalysis analysis).table (options.showsColor && !options.noColor)
    refine ⟨.ok (), [table, utf8 "\n"], ?_, .written ?_⟩
    · rw [h, List.map_cons, List.map_singleton, ← List.singleton_append, ← List.append_assoc]
      rfl
    · rw [h]
      simp only [List.flatten_cons, List.flatten_nil, List.append_nil]
      rfl

theorem exists_rendered (answers : Answers) (analysis : Lock.Analysis) (options : Report.Options)
    (acts : List Act) :
    ∃ result chunks, (render answers.effects.writeOutput analysis options).run acts =
      (result, acts ++ chunks.map .output) ∧ Rendered analysis options result chunks := by
  by_cases hempty : options.format.isEmpty = true
  · exact exists_rendered_of_renderAs .text (fun _ _ _ => if_pos hempty) acts
  · cases hname : Report.Format.ofName? options.format with
    | some format =>
      refine exists_rendered_of_renderAs format (fun _ _ _ => ?_) acts
      rw [render, if_neg hempty, hname]
    | none =>
      refine ⟨_, [], ?_, .unknown hname⟩
      rw [render, if_neg hempty, hname, List.map_nil, List.append_nil]
      rfl

/-! ## Inputs -/

/-- A class was decoded and analysed with nothing but quiet acts, and its report rendered. -/
inductive Reports (around : Surroundings) (settings : Settings) (data : Bytes) :
    Except RenderError Unit → List Act → Prop where
  | intro {file : ClassFile} {analysis : Lock.Analysis} {before : List Act}
    {result : Except RenderError Unit} {chunks : List Bytes}
    (hparse : ClassFile.parse data = .ok file)
    (houtcome : ((Lock.ClassUnit.ofFile file).analyzeBy settings.workers around.schedule).outcome =
      .ok analysis)
    (hquiet : ∀ act ∈ before, act.IsQuiet)
    (hrendered : Rendered analysis (reportOptions around settings) result chunks) :
    Reports around settings data result (before ++ chunks.map .output)

theorem Reports.of_render {file : ClassFile} {before acts : List Act}
    {result : Except RenderError Unit} (hparse : ClassFile.parse input.data = .ok file)
    (houtcome : ((Lock.ClassUnit.ofFile file).analyzeBy settings.workers around.schedule).outcome =
      .ok analysis)
    (hquiet : ∀ act ∈ before, act.IsQuiet)
    (hrender : (render answers.effects.writeOutput analysis (reportOptions around settings)).run
      before = (result, acts)) : Reports around settings input.data result acts := by
  obtain ⟨result', chunks, hrun, hrendered⟩ :=
    exists_rendered answers analysis (reportOptions around settings) before
  obtain ⟨rfl, rfl⟩ := Prod.mk.inj (hrender.symm.trans hrun)
  exact .intro hparse houtcome hquiet hrendered

/-- What can become of an input: how the run ends, and what it has done by then. -/
inductive Ends (around : Surroundings) (settings : Settings) (metricsPath : Bytes) (input : Input) :
    Except Failure Unit → List Act → Prop where
  | undecoded {cause : ClassFile.Fault} {acts : List Act}
    (hparse : ClassFile.parse input.data = .error cause) (hquiet : ∀ act ∈ acts, act.IsQuiet) :
    Ends around settings metricsPath input (.error (.decode input.path cause)) acts
  | oversized {cause : RangeError} {acts : List Act}
    (hsize : Range.ofLength (Int64.ofNat input.data.length) = .error cause)
    (hquiet : ∀ act ∈ acts, act.IsQuiet) :
    Ends around settings metricsPath input (.error (.limit (.sizeOutOfRange cause))) acts
  | unanalyzed {file : ClassFile} {cause : Lock.AnalysisFault} {acts : List Act}
    (hparse : ClassFile.parse input.data = .ok file)
    (houtcome : ((Lock.ClassUnit.ofFile file).analyzeBy settings.workers around.schedule).outcome =
      .error cause) (hquiet : ∀ act ∈ acts, act.IsQuiet) :
    Ends around settings metricsPath input (.error (.analysis cause)) acts
  | unreported {cause : RenderError} {acts : List Act}
    (hreports : Reports around settings input.data (.error cause) acts) :
    Ends around settings metricsPath input (.error (.report cause)) acts
  | uncreated {obstacle : Files.Obstacle} {acts : List Act}
    (hreports : Reports around settings input.data (.ok ()) acts) :
    Ends around settings metricsPath input (.error (.metricsFile metricsPath obstacle))
      (acts ++ [.file metricsPath .create])
  | unwritten {reasons : List Bytes} {steps : List FileStep} {acts : List Act}
    (hreports : Reports around settings input.data (.ok ()) acts) :
    Ends around settings metricsPath input (.error (.metrics reasons))
      (acts ++ steps.map (.file metricsPath))
  | done {steps : List FileStep} {acts : List Act}
    (hreports : Reports around settings input.data (.ok ()) acts) :
    Ends around settings metricsPath input (.ok ()) (acts ++ steps.map (.file metricsPath))

/-- Where no metrics are asked for, nothing comes after the report. -/
theorem Reports.ends {acts : List Act} (h : Reports around settings input.data (.ok ()) acts) :
    Ends around settings metricsPath input (.ok ()) acts := by
  have hdone : Ends around settings metricsPath input (.ok ())
      (acts ++ ([] : List FileStep).map (.file metricsPath)) := .done h
  rwa [List.map_nil, List.append_nil] at hdone

/-- Where metrics were kept, writing them ends well, or the file cannot be created, or it cannot be
written or closed. -/
theorem Reports.ends_writeMetrics {acts : List Act} {providers : Telemetry.Providers}
    (hkept : providers.collectsMetrics = true)
    (gathered : Except Bytes (List Telemetry.Family))
    (h : Reports around settings input.data (.ok ()) acts) :
    Ends around settings metricsPath input
      ((writeMetrics answers.effects providers metricsPath gathered).run acts).1
      ((writeMetrics answers.effects providers metricsPath gathered).run acts).2 := by
  rw [writeMetrics, if_neg (by simp [hkept]), run_bind, run_createFile]
  cases answers.create acts metricsPath with
  | error obstacle => exact .uncreated h
  | ok =>
    obtain ⟨steps, hsteps⟩ :=
      handles_dump answers metricsPath gathered (acts ++ [.file metricsPath .create])
    have hacts : acts ++ [.file metricsPath .create] ++ steps.map (.file metricsPath) ++
        [.file metricsPath .close] =
        acts ++ (.create :: (steps ++ [FileStep.close])).map (.file metricsPath) := by simp
    simp only [run_bind, run_closeFile, hsteps, hacts]
    split
    · exact .done h
    · exact .unwritten h

theorem ends_analyzeInput (answers : Answers) (around : Surroundings) (settings : Settings)
    (metricsPath : Bytes) (input : Input) :
    Ends around settings metricsPath input
      ((analyzeInput answers.effects around settings metricsPath input).run []).1
      ((analyzeInput answers.effects around settings metricsPath input).run []).2 := by
  have hstart := keepsQuiet_time answers [] (by simp)
  cases hparse : ClassFile.parse input.data with
  | error cause =>
    simp only [analyzeInput, hparse, run_bind, run_pure]
    exact .undecoded hparse hstart
  | ok file =>
    have hdecoded := keepsQuiet_time answers _ hstart
    cases hsize : Range.ofLength (Int64.ofNat input.data.length) with
    | error cause =>
      have hrecord : decodedRecord input file = .error cause := by
        rw [decodedRecord, hsize]
        rfl
      simp only [analyzeInput, hparse, hrecord, run_bind, run_pure]
      exact .oversized hsize hdecoded
    | ok size =>
      obtain ⟨record, hrecord⟩ : ∃ record, decodedRecord input file = .ok record := by
        rw [decodedRecord, hsize]
        exact ⟨_, rfl⟩
      have hanalyzed (handler : Log.Handler) (context inner : Telemetry.SpanContext)
          (records : List Log.Record) :=
        keepsQuiet_logRecords answers handler inner records _ (keepsQuiet_time answers _
          (keepsQuiet_logRecords answers handler context [record] _ hdecoded))
      cases houtcome : ((Lock.ClassUnit.ofFile file).analyzeBy settings.workers
          around.schedule).outcome with
      | error cause =>
        simp only [analyzeInput, hparse, hrecord, houtcome, run_bind, run_pure]
        exact .unanalyzed hparse houtcome (hanalyzed _ _ _ _)
      | ok analysis =>
        -- the report is rendered after looks at the clock and log lines alone
        have hrecorded (handler : Log.Handler) (context inner : Telemetry.SpanContext)
            (records : List Log.Record) (stats : Telemetry.RunStats) :=
          keepsQuiet_recordRun answers around handler context stats _ (keepsQuiet_time answers _
            (hanalyzed handler context inner records))
        simp only [analyzeInput, hparse, hrecord, houtcome, run_bind]
        split
        · rename_i cause hcause
          exact .unreported (.of_render hparse houtcome (hrecorded _ _ _ _ _)
            (Prod.ext hcause rfl))
        · rename_i hdone
          have hreports := Reports.of_render hparse houtcome (hrecorded _ _ _ _ _)
            (Prod.ext hdone rfl)
          by_cases hpath : metricsPath.isEmpty = true
          · rw [if_pos hpath]
            exact hreports.ends
          · have hkept : (!metricsPath.isEmpty) = true := by simpa using hpath
            rw [if_neg hpath]
            exact hreports.ends_writeMetrics hkept _

/-! ## Loading -/

/-- A size that settings allow is at least one and at most `Settings.greatestSize`. -/
theorem maxClassBytes_eq_ok {limit : Int64} (h : settings.maxClassBytes = .ok limit) :
    1 ≤ limit.toInt ∧ limit.toInt ≤ Settings.greatestSize := by
  unfold Settings.maxClassBytes at h
  split at h
  · cases h
  · rename_i size _
    split at h
    · cases h
    · rename_i hrange
      simp only [Bool.or_eq_true, decide_eq_true_eq, not_or, Nat.not_lt] at hrange
      obtain ⟨hzero, hle⟩ := hrange
      have hpos : 0 < size.toNat := by
        rw [Nat.pos_iff_ne_zero]
        exact fun h => hzero (UInt64.toNat_inj.mp h)
      have hbound : size.toNat < 9223372036854775808 := Nat.lt_of_le_of_lt hle (by decide)
      have hsize : Range.toSize size = .ok (Int64.ofNat size.toNat) := by
        rw [Range.toSize, if_neg (Nat.not_le.mpr hbound), ← UInt64.toInt64_ofNat',
          UInt64.ofNat_toNat]
      rw [hsize] at h
      cases h
      rw [Int64.toInt_ofNat_of_lt hbound]
      omega

theorem isUsable_of_maxClassBytes {limit : Int64} (h : settings.maxClassBytes = .ok limit) :
    Input.IsUsable limit := by
  obtain ⟨hpos, hle⟩ := maxClassBytes_eq_ok h
  have hgreatest : (Settings.greatestSize : Int) = 4611686018427387904 := rfl
  exact ⟨by omega, by omega⟩

theorem loadClass_eq_ok {path : Bytes} (h : loadClass around settings path = .ok input) :
    ∃ limit stored, settings.maxClassBytes = .ok limit ∧ around.entry path = .file stored ∧
      Input.classBytes? stored = some input.data ∧ (input.data.length : Int) ≤ limit.toInt := by
  unfold loadClass at h
  split at h
  · cases h
  · rename_i limit hlimit
    split at h
    · cases h
    · rename_i hload
      cases h
      obtain ⟨stored, hentry, hclass, hle⟩ :=
        Input.load_eq_ok (isUsable_of_maxClassBytes hlimit) hload
      exact ⟨limit, stored, hlimit, hentry, hclass, hle⟩

theorem run_analyzePath (answers : Answers) (around : Surroundings) (settings : Settings)
    (path metricsPath : Bytes) :
    (∃ failure, loadClass around settings path = .error failure ∧
      (analyzePath answers.effects around settings path metricsPath).run [] =
        (.error failure, [])) ∨
    ∃ input result acts, loadClass around settings path = .ok input ∧
      (analyzePath answers.effects around settings path metricsPath).run [] = (result, acts) ∧
      Ends around settings metricsPath input result acts := by
  cases hload : loadClass around settings path with
  | error failure =>
    refine .inl ⟨failure, rfl, ?_⟩
    rw [analyzePath, hload]
    rfl
  | ok input =>
    refine .inr ⟨input, _, _, rfl, ?_, ends_analyzeInput answers around settings metricsPath input⟩
    rw [analyzePath, hload]
    rfl

/-! ## Executions -/

/-- Whether a failure comes before anything is given to the output: in the arguments, the settings,
the telemetry, the class, its analysis or the check of the report. -/
def Failure.IsEarly : Failure → Prop
  | .usage _ | .settings _ | .flags _ | .telemetry _ | .limit _ => True
  | .input _ | .decode .. | .analysis _ => True
  | .report (.unknownFormat _) | .report (.invalid _) => True
  | .report (.write _) | .noRegistry | .metricsFile .. | .metrics _ | .output _ => False

theorem Ends.quiet {failure : Failure} {acts : List Act}
    (h : Ends around settings metricsPath input (.error failure) acts)
    (hearly : failure.IsEarly) : ∀ act ∈ acts, act.IsQuiet := by
  cases h with
  | undecoded _ hquiet | oversized _ hquiet | unanalyzed _ _ hquiet => exact hquiet
  | unreported hreports =>
    cases hreports with
    | intro hparse houtcome hquiet hrendered =>
      cases hrendered with
      | unknown | invalid => simpa using hquiet
      | refused => cases hearly
  | uncreated | unwritten => cases hearly

/-- A run with all that it depends on. -/
structure Execution where
  line : List Bytes
  around : Surroundings
  answers : Answers

namespace Execution

def result (execution : Execution) : Except Failure Unit :=
  ((run execution.answers.effects execution.around execution.line).run []).1

def acts (execution : Execution) : List Act :=
  ((run execution.answers.effects execution.around execution.line).run []).2

/-- What was given to the output. -/
def output (execution : Execution) : Bytes := outputOf execution.acts

/-- A class is to be analysed and its report rendered with some options. The class is what the file
at the path holds; the options are those of the settings that flags, environment and files give. -/
def Renders (execution : Execution) (data : Bytes) (options : Report.Options) : Prop :=
  ∃ request settings stored,
    Invocation.ofLine execution.line = .ok (.analyze request) ∧
    request.settings execution.around = .ok settings ∧
    execution.around.entry request.path = .file stored ∧
    Input.classBytes? stored = some data ∧
    options = reportOptions execution.around settings

variable {execution : Execution} {request : Request}

theorem run_eq (execution : Execution) :
    (run execution.answers.effects execution.around execution.line).run [] =
      (execution.result, execution.acts) :=
  rfl

/-- An execution that is to analyse a class fails by its settings or by its telemetry, and has done
nothing by then, or it does what its settings say. -/
theorem cases_of_analyze (hline : Invocation.ofLine execution.line = .ok (.analyze request)) :
    (∃ failure, request.settings execution.around = .error failure ∧
      execution.result = .error failure ∧ execution.acts = []) ∨
    ∃ settings, request.settings execution.around = .ok settings ∧
      ((∃ reason, execution.around.telemetryObstacle? (telemetryOf settings execution.around.release
            (!request.metricsPath.isEmpty)) = some reason ∧
          execution.result = .error (.telemetry reason) ∧ execution.acts = []) ∨
        (analyzePath execution.answers.effects execution.around settings request.path
          request.metricsPath).run [] = (execution.result, execution.acts)) := by
  have hrun := run_eq execution
  simp only [run, hline, analyze] at hrun
  cases hsettings : request.settings execution.around with
  | error failure =>
    rw [hsettings] at hrun
    obtain ⟨hresult, hacts⟩ := Prod.mk.inj hrun
    exact .inl ⟨failure, rfl, hresult.symm, hacts.symm⟩
  | ok settings =>
    refine .inr ⟨settings, rfl, ?_⟩
    simp only [hsettings] at hrun
    split at hrun
    · rename_i reason hreason
      obtain ⟨hresult, hacts⟩ := Prod.mk.inj hrun
      exact .inl ⟨reason, hreason, hresult.symm, hacts.symm⟩
    · exact .inr hrun

theorem exists_ends (hline : Invocation.ofLine execution.line = .ok (.analyze request))
    (hresult : execution.result = .ok ()) :
    ∃ settings input, request.settings execution.around = .ok settings ∧
      loadClass execution.around settings request.path = .ok input ∧
      Ends execution.around settings request.metricsPath input (.ok ()) execution.acts := by
  obtain ⟨failure, -, hfailure, -⟩ | ⟨settings, hsettings, ⟨reason, -, hfailure, -⟩ | hrun⟩ :=
    cases_of_analyze hline
  · cases hresult.symm.trans hfailure
  · cases hresult.symm.trans hfailure
  · rw [hresult] at hrun
    obtain ⟨failure, -, hfailure⟩ | ⟨input, result, acts, hload, hends, h⟩ := run_analyzePath
      execution.answers execution.around settings request.path request.metricsPath
    · cases hrun.symm.trans hfailure
    · obtain ⟨rfl, rfl⟩ := Prod.mk.inj (hrun.symm.trans hends)
      exact ⟨settings, input, hsettings, hload, h⟩

/-- A successful analysis has rendered the class that its file holds. -/
theorem exists_renders (hline : Invocation.ofLine execution.line = .ok (.analyze request))
    (hresult : execution.result = .ok ()) : ∃ data options, execution.Renders data options := by
  obtain ⟨settings, input, hsettings, hload, -⟩ := exists_ends hline hresult
  obtain ⟨limit, stored, -, hentry, hclass, -⟩ := loadClass_eq_ok hload
  exact ⟨input.data, _, request, settings, stored, hline, hsettings, hentry, hclass, rfl⟩

/-- The output of a successful analysis is the report of the class, as an output gets it that takes
everything. -/
theorem render_output {data : Bytes} {options : Report.Options}
    (hresult : execution.result = .ok ()) (hrenders : execution.Renders data options) :
    ∃ file analysis, ClassFile.parse data = .ok file ∧
      ((Lock.ClassUnit.ofFile file).analyze false).outcome = .ok analysis ∧
      (render keep analysis options).run [] = (.ok (), execution.output) := by
  obtain ⟨request, settings, stored, hline, hsettings, hentry, hclass, rfl⟩ := hrenders
  obtain ⟨settings', input, hsettings', hload, hends⟩ := exists_ends hline hresult
  obtain rfl := Except.ok.inj (hsettings.symm.trans hsettings')
  obtain ⟨limit, stored', -, hentry', hclass', -⟩ := loadClass_eq_ok hload
  obtain rfl := Files.Entry.file.inj (hentry.symm.trans hentry')
  obtain rfl := Option.some.inj (hclass.symm.trans hclass')
  generalize hacts : execution.acts = acts at hends
  cases hends with
  | done hreports =>
    cases hreports with
    | intro hparse houtcome hquiet hrendered =>
      refine ⟨_, _, hparse, Lock.outcome_analyze_of_analyzeBy houtcome, ?_⟩
      cases hrendered with
      | written hkept =>
        rw [hkept, output, hacts, outputOf_append, outputOf_append, outputOf_quiet hquiet,
          outputOf_map_file, outputOf_map_output, List.nil_append, List.append_nil]

theorem run_printText (answers : Answers) (text : Bytes) :
    ((printText answers.effects text).run []).1 = .ok () ∨
      ∃ reason, ((printText answers.effects text).run []).1 = .error (.output reason) := by
  cases hanswer : answers.output [] text with
  | ok =>
    refine .inl ?_
    rw [printText, run_bind, run_writeOutput, hanswer]
    rfl
  | error reason =>
    refine .inr ⟨reason, ?_⟩
    rw [printText, run_bind, run_writeOutput, hanswer]
    rfl

/-- A run that fails before its report leaves nothing but log lines. -/
theorem quiet_of_isEarly {failure : Failure} (hresult : execution.result = .error failure)
    (hearly : failure.IsEarly) : ∀ act ∈ execution.acts, act.IsQuiet := by
  have hprinted : ∀ text, ¬ execution.result =
      ((printText execution.answers.effects text).run []).1 := by
    intro text hprint
    obtain hdone | ⟨reason, hrefused⟩ := run_printText execution.answers text
    · cases hresult.symm.trans (hprint.trans hdone)
    · cases hresult.symm.trans (hprint.trans hrefused)
      exact hearly
  cases hline : Invocation.ofLine execution.line with
  | error cause =>
    have hacts : execution.acts = [] := by
      simp only [acts, run, hline]
      rfl
    simp [hacts]
  | ok invocation =>
    cases invocation with
    | help => exact absurd (by simp only [result, run, hline]) (hprinted (utf8 usage))
    | version =>
      exact absurd (by simp only [result, run, hline])
        (hprinted (execution.around.release.banner ++ utf8 "\n"))
    | analyze request =>
      obtain ⟨_, -, -, hacts⟩ | ⟨settings, -, ⟨reason, -, -, hacts⟩ | hrun⟩ :=
        cases_of_analyze hline
      · simp [hacts]
      · simp [hacts]
      · rw [hresult] at hrun
        obtain ⟨_, -, hfailure⟩ | ⟨input, _, _, -, hends, h⟩ := run_analyzePath
          execution.answers execution.around settings request.path request.metricsPath
        · simp [(Prod.mk.inj (hrun.symm.trans hfailure)).2]
        · obtain ⟨rfl, rfl⟩ := Prod.mk.inj (hrun.symm.trans hends)
          exact h.quiet hearly

/-- The output depends on the class and on how it is to be rendered, and on nothing else. Every
successful analysis renders the class of some file; two that render the same class with the same
options give the same bytes to the output, whatever their paths, encodings, settings and
surroundings, and these bytes are the report of the analysis of the class. A run that fails before
its report gives nothing to the output, and does nothing to any file. -/
theorem output_depends_on_class_and_options :
    (∀ (execution : Execution) (request : Request),
      Invocation.ofLine execution.line = .ok (.analyze request) → execution.result = .ok () →
        ∃ data options, execution.Renders data options) ∧
    (∀ (first second : Execution) (data : Bytes) (options : Report.Options),
      first.result = .ok () → second.result = .ok () →
      first.Renders data options → second.Renders data options →
        first.output = second.output ∧
        ∃ file analysis, ClassFile.parse data = .ok file ∧
          ((Lock.ClassUnit.ofFile file).analyze false).outcome = .ok analysis ∧
          (render keep analysis options).run [] = (.ok (), first.output)) ∧
    ∀ (execution : Execution) (failure : Failure),
      execution.result = .error failure → failure.IsEarly →
        execution.output = [] ∧ ∀ path step, Act.file path step ∉ execution.acts := by
  refine ⟨fun _ _ => exists_renders, ?_, ?_⟩
  · intro first second data options hfirst hsecond hrenders hrenders'
    obtain ⟨file, analysis, hparse, houtcome, hkept⟩ := render_output hfirst hrenders
    obtain ⟨file', analysis', hparse', houtcome', hkept'⟩ := render_output hsecond hrenders'
    obtain rfl := Except.ok.inj (hparse.symm.trans hparse')
    obtain rfl := Except.ok.inj (houtcome.symm.trans houtcome')
    have houtput : first.output = second.output := (Prod.mk.inj (hkept.symm.trans hkept')).2
    exact ⟨houtput, file, analysis, hparse, houtcome, hkept⟩
  · intro execution failure hresult hearly
    have hquiet := quiet_of_isEarly hresult hearly
    exact ⟨outputOf_quiet hquiet, fun path step hmem => hquiet _ hmem⟩

/-- A class `A` with two methods, one of them synchronized. -/
def pairedClass : Bytes :=
  [0xCA, 0xFE, 0xBA, 0xBE, 0, 0, 0, 45, 0, 6, 7, 0, 2, 1, 0, 1, 65, 1, 0, 1, 109, 1, 0, 3, 40, 41,
    86, 1, 0, 4, 67, 111, 100, 101, 0, 0, 0, 1, 0, 0, 0, 0, 0, 0, 0, 2, 0, 0, 0, 3, 0, 4, 0, 1, 0,
    5, 0, 0, 0, 12, 0, 2, 0, 1, 0, 0, 0, 2, 3, 177, 0, 0, 0, 0x20, 0, 3, 0, 4, 0, 1, 0, 5, 0, 0, 0, 11,
    0, 1, 0, 0, 0, 0, 0, 1, 177, 0, 0, 0, 0]

/-- The class in a frame of one block, stored as it is. -/
def framedClass : Bytes :=
  Lz4.magic ++ [0x60, 0x40, 0x82, 99, 0, 0, 0x80] ++ pairedClass ++ [0, 0, 0, 0]

/-- A run of which nothing is refused, where there is one file. -/
def withFile (path content : Bytes) (values : List (String × String)) (line : List Bytes) :
    Execution where
  line
  around :=
    { entry := fun other => if other = path then .file content else .none .missing
      home := []
      environment := fun name =>
        ((values.find? fun entry => utf8 entry.1 = name).map fun entry => utf8 entry.2).getD []
      showsColor := false }
  answers :=
    { output := fun _ _ => .ok ()
      create := fun _ _ => .ok ()
      append := fun _ _ _ => .ok ()
      close := fun _ _ => .ok ()
      clock := fun _ => 0
      now := fun _ => some ⟨1500000000, 0⟩ }

def plainRun : Execution :=
  withFile (utf8 "A") pairedClass [("LOCKCOV_ANALYSIS_MAX_CLASS_SIZE", "99")] [utf8 "A"]

/-- A run with other settings, whose workers overtake each other. -/
def framedRun : Execution :=
  let run := withFile (utf8 "b.lz4") framedClass
    [("LOCKCOV_ANALYSIS_MAX_CLASS_SIZE", "123"), ("LOCKCOV_LOGGING_FORMAT", "json")]
    [utf8 "-vw4", utf8 "b.lz4", utf8 "--metrics-out=m"]
  { run with around :=
    { run.around with
      schedule :=
        [.advance 1, .advance 0, .advance 1, .advance 1, .advance 0, .advance 0, .advance 0,
          .advance 1] } }

/-- A run on the beginning of the class. -/
def cutRun : Execution :=
  withFile (utf8 "A") (pairedClass.take 12) [("LOCKCOV_ANALYSIS_MAX_CLASS_SIZE", "99")]
    [utf8 "A", utf8 "--metrics-out=m"]

theorem output_depends_on_class_and_options_framedRun :
    plainRun.result = .ok () ∧ framedRun.result = .ok () ∧ plainRun.output = framedRun.output ∧
    (∃ failure, cutRun.result = .error failure ∧ failure.IsEarly) ∧ cutRun.output = [] := by
  have hplain : plainRun.result = .ok () := by decide +kernel
  have hframed : framedRun.result = .ok () := by decide +kernel
  have hplainRenders : plainRun.Renders pairedClass ⟨utf8 "text", false, false⟩ := by
    refine ⟨⟨utf8 "A", [], false, none, none, false, []⟩, { maxClassSize := utf8 "99" },
      pairedClass, ?_, ?_, rfl, rfl, rfl⟩
    · decide +kernel
    · decide +kernel
  have hframedRenders : framedRun.Renders pairedClass ⟨utf8 "text", false, false⟩ := by
    refine ⟨⟨utf8 "b.lz4", [], true, none, some 4, false, utf8 "m"⟩,
      { maxClassSize := utf8 "123", workers := 4, logLevel := utf8 "debug"
        logFormat := utf8 "json" },
      framedClass, ?_, ?_, rfl, ?_, rfl⟩
    · decide +kernel
    · decide +kernel
    · decide +kernel
  have hcut : cutRun.result = .error (.decode (utf8 "A") ⟨[], .truncated 2 11 1⟩) := by
    decide +kernel
  obtain ⟨-, hsame, hearly⟩ := output_depends_on_class_and_options
  exact ⟨hplain, hframed, (hsame _ _ _ _ hplain hframed hplainRenders hframedRenders).1,
    ⟨_, hcut, trivial⟩, (hearly cutRun _ hcut trivial).1⟩

end Execution

end MonitorCoverage.Command
