import MonitorCoverage.Lock.Analysis

/-!
# Analysis by workers

The methods of a class are tallied by tasks, one for each method. A task looks whether the run was
called off, tallies its method and makes the record of it, and stores the tally in the slot of the
method. With several workers the tasks are interleaved, and no more of them are active at a time
than there are workers; the run ends when all tasks have ended, and the first failure calls it off.
With fewer than two workers or methods, the tasks are run in order, up to the first failure. A
schedule says which task moves on at each step and when the run is called off from outside.
-/

namespace MonitorCoverage.Lock

open Log (Record)

/-- How far the task of a method has come. -/
inductive TaskPhase where
  | waiting
  | started
  /-- The run was not called off when the task looked. -/
  | admitted
  /-- The method is tallied and its record made. -/
  | tallied (tally : Tally)
  | stored
  | failed
  deriving DecidableEq, Repr

namespace TaskPhase

def isActive : TaskPhase → Bool
  | started | admitted | tallied _ => true
  | waiting | stored | failed => false

def isEnded : TaskPhase → Bool
  | stored | failed => true
  | waiting | started | admitted | tallied _ => false

end TaskPhase

/-- A step of a schedule. -/
inductive ScheduleStep where
  /-- The task with a number moves on. -/
  | advance (task : Nat)
  /-- The run is called off from outside. -/
  | cancel
  deriving DecidableEq, Repr

/-- The tasks of a class, in the order of its methods, and what they have left behind. -/
structure TaskState where
  phases : List TaskPhase
  tallies : List Tally
  records : List Record
  /-- What tasks failed for, first failure first. -/
  failures : List AnalysisCause
  canceled : Bool
  deriving DecidableEq, Repr

namespace TaskState

def start (unit : ClassUnit) (canceled : Bool) : TaskState :=
  { phases := unit.methods.map fun _ => .waiting
    tallies := unit.methods.map fun _ => .zero
    records := [], failures := [], canceled }

def setPhase (state : TaskState) (task : Nat) (phase : TaskPhase) : TaskState :=
  { state with phases := state.phases.set task phase }

/-- A task that fails calls the run off. -/
def fail (state : TaskState) (task : Nat) (cause : AnalysisCause) : TaskState :=
  { state with
    phases := state.phases.set task .failed
    failures := state.failures ++ [cause]
    canceled := true }

/-- A task with its tally, which it has not stored yet. -/
def log (state : TaskState) (task : Nat) (method : MethodUnit) (tally : Tally) : TaskState :=
  { state with
    phases := state.phases.set task (.tallied tally)
    records := state.records ++ [methodRecord method tally] }

def store (state : TaskState) (task : Nat) (tally : Tally) : TaskState :=
  { state with
    phases := state.phases.set task .stored
    tallies := state.tallies.set task tally }

/-- The tallies of all methods, unless a task has failed. -/
def outcome (state : TaskState) : Except AnalysisCause (List Tally) :=
  match state.failures with
  | [] => .ok state.tallies
  | cause :: _ => .error cause

end TaskState

namespace ClassUnit

/-- Whether the tasks of a class are interleaved. -/
def isParallel (unit : ClassUnit) (workers : Int64) : Bool :=
  2 ≤ workers && decide (2 ≤ unit.methods.length)

/-- Whether a waiting task may start. -/
def mayStart (unit : ClassUnit) (workers : Int64) (state : TaskState) (task : Nat) : Bool :=
  if unit.isParallel workers then decide ((state.phases.countP (·.isActive) : Int) < workers.toInt)
  else (state.phases.take task).all (· = .stored)

/-- Whether the run is over: all tasks have ended or, where they run in order, one has failed. -/
def isOver (unit : ClassUnit) (workers : Int64) (state : TaskState) : Bool :=
  state.phases.all (·.isEnded) || (!unit.isParallel workers && state.phases.any (· = .failed))

/-- The state after a task has moved on, if it can. -/
def advance (unit : ClassUnit) (workers : Int64) (state : TaskState) (task : Nat) :
    Option TaskState :=
  match unit.methods[task]?, state.phases[task]? with
  | some _, some .waiting =>
    if unit.mayStart workers state task then some (state.setPhase task .started) else none
  | some method, some .started =>
    if state.canceled then some (state.fail task (.canceled method.name))
    else some (state.setPhase task .admitted)
  | some method, some .admitted =>
    match method.tally with
    | .ok tally => some (state.log task method tally)
    | .error fault => some (state.fail task (.method fault))
  | some _, some (.tallied tally) => some (state.store task tally)
  | _, _ => none

def step (unit : ClassUnit) (workers : Int64) (state : TaskState) :
    ScheduleStep → Option TaskState
  | .advance task => unit.advance workers state task
  | .cancel => if state.canceled then none else some { state with canceled := true }

/-- The state after a schedule, if it can be followed. -/
def follow (unit : ClassUnit) (workers : Int64) : TaskState → List ScheduleStep → Option TaskState
  | state, [] => some state
  | state, step :: schedule =>
    match unit.step workers state step with
    | some state => follow unit workers state schedule
    | none => none

/-- The analysis of a class under a schedule that leads to the end of the run. -/
def analyzeUnder (unit : ClassUnit) (workers : Int64) (canceled : Bool)
    (schedule : List ScheduleStep) : Option AnalysisRun :=
  match unit.follow workers (.start unit canceled) schedule with
  | some state =>
    if unit.isOver workers state then some (unit.conclude state.outcome state.records) else none
  | none => none

/-- The analysis of a class by a number of workers. Where the schedule does not lead to the end of
the run, the methods are tallied in order. -/
def analyzeBy (unit : ClassUnit) (workers : Int64) (schedule : List ScheduleStep) : AnalysisRun :=
  (unit.analyzeUnder workers false schedule).getD (unit.analyze false)

end ClassUnit

end MonitorCoverage.Lock
