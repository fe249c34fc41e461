import CerynthOS.Bench.Kernel
import CerynthOS.Schemes.JsonDocument
import CerynthOS.Schemes.Program
import CerynthOS.Schemes.Trees

/-! A session of the benchmark script: its variables, its files, and the system it runs on.

    Whatever the script calls may raise, a signal may come at any call, and the process may be killed
    at any call; what the system answers may depend on all that has happened before. A file is
    written in pieces with a call for each, so a session can end in the middle of a file. -/

namespace CerynthOS.Bench
open Files

/-- `PROFILES`. -/
inductive MatrixProfile where
  | linuxDefault
  | balanced
  | interactive
  | performance
  | background
  deriving DecidableEq

namespace MatrixProfile

def all : List MatrixProfile := [linuxDefault, balanced, interactive, performance, background]

def name : MatrixProfile → String
  | linuxDefault => "linux-default"
  | balanced => "balanced"
  | interactive => "interactive"
  | performance => "performance"
  | background => "background"

end MatrixProfile

/-- `WORKLOADS`. -/
inductive Workload where
  | idle
  | cpuStress
  | interactiveStress
  | burst
  | compile
  | mixed
  deriving DecidableEq

def Workload.all : List Workload := [idle, cpuStress, interactiveStress, burst, compile, mixed]

/-- An item of the plan. -/
structure Item where
  profile : MatrixProfile
  workload : Workload
  repetition : ℕ
  duration : ℕ
  deriving DecidableEq

/-- The measurements that every run needs. -/
inductive Metric where
  | cpuUsagePercent
  | contextSwitchRate
  | processCreationRate
  | runnableTasks
  deriving DecidableEq

def Metric.all : List Metric :=
  [cpuUsagePercent, contextSwitchRate, processCreationRate, runnableTasks]

/-- What `Observer.sample` returns, with the measurements that are numbers. -/
structure Sample where
  actualProfile : Option String
  schedulerHealthy : Bool
  schedExtState : String
  scheduler : SchedulerRecord
  telemetry : List Metric
  deriving DecidableEq

/-- `summary.json` of a run. -/
structure Summary where
  profile : MatrixProfile
  workload : Workload
  sampleCount : ℕ
  measurementOrigin : Option String
  deriving DecidableEq

/-- `metadata.json` of a run. -/
structure Metadata where
  workloadExit : ℤ
  requestedDurationSeconds : ℕ
  intervalSeconds : ℚ
  deriving DecidableEq

/-- `completion.json`. -/
structure Completion where
  status : String
  completedRuns : ℕ
  mode : String
  deriving DecidableEq

/-- What is read of the daemon's state file. -/
structure StateRecord where
  schedulerBackend : Option String
  adaptationEnabled : Option Bool
  profile : Option String

/-- The directories under the output directory. -/
inductive Dir where
  | output
  | run (profile : MatrixProfile) (workload : Workload) (repetition : ℕ)
  | failedAttempts
  | failedAttempt (profile : MatrixProfile) (workload : Workload) (repetition : ℕ) (timeNs : ℕ)
  | summaries
  deriving DecidableEq

/-- The directory of the raw data of an item. -/
def Item.dir (item : Item) : Dir := .run item.profile item.workload item.repetition

inductive File where
  | plan
  | session (timeNs : ℕ)
  | completion
  | failure
  | failureBeforeResume (timeNs : ℕ)
  | kernelEvents
  | report
  | workloadLog
  | observations
  | adaptationAudit
  | summary
  | metadata
  | combination (profile : MatrixProfile) (workload : Workload)
  deriving DecidableEq

abbrev OutputTree := Tree Dir File UInt8

/-- The words of a `cerynthctl` command. -/
inductive Command where
  | stop
  | start
  | profileSet (profile : String)
  deriving DecidableEq

/-- `watchdog` is raised by `poll` and is a runtime error as well. -/
inductive PyError where
  | runtime
  | watchdog
  | os
  | value
  | systemExit
  | other
  deriving DecidableEq

def PyError.isRuntime : PyError → Bool
  | runtime => true
  | watchdog => true
  | _ => false

/-- How a piece of the script ends when it does not return. -/
inductive Stop where
  | raised (error : PyError)
  | killed
  deriving DecidableEq

/-- The variables of `main` that outlive an error, its files, how many samples the observer has
    taken, and what has been done to the scheduler and read from the journal. -/
structure State where
  tree : OutputTree
  calls : ℕ
  samples : ℕ
  commands : List Command
  kernel : Option KernelEvents
  polls : List (List Row)
  results : List Summary
  reusedRuns : List Dir
  newRuns : List Dir

/-- A process that was just started. -/
def State.init (tree : OutputTree) : State := ⟨tree, 0, 0, [], none, [], [], [], []⟩

/-- One call later. -/
def State.called (s : State) : State := { s with calls := s.calls + 1 }

/-- The scheduler is not to be put back. -/
def State.marked (s : State) : State :=
  { s with kernel := s.kernel.map fun kernel => { kernel with unsafeToRestart := true } }

/-- There are stability gates, and they say that the scheduler is not to be put back. -/
def State.unsafeToRestart (s : State) : Bool :=
  (s.kernel.map KernelEvents.unsafeToRestart).getD false

/-- What the system does at a call: whether it interrupts it, and the answer. `tries` is how often a
    profile can be looked for before the deadline, `rounds` how often a workload is found running,
    `text` a text that nobody reads again. -/
structure Env where
  interrupt : State → Option Stop
  sample : State → Sample
  lastRow : State → Option Row
  rows : State → List Row
  record : State → SchedulerRecord
  stateRecord : State → StateRecord
  tries : State → ℕ
  rounds : State → ℕ
  overdue : State → Bool
  exitCode : State → ℤ
  timeNs : State → ℕ
  text : State → List UInt8
  chunks : State → List UInt8 → List (List UInt8)
  chunks_flatten : ∀ s bytes, (chunks s bytes).flatten = bytes

abbrev Script (α : Type) := Prog State Stop α

def raise {α : Type} (error : PyError) : Script α := throw (.raised error)

/-- The value, or the error raised. -/
def ofExcept {α : Type} : Except PyError α → Script α
  | .ok a => pure a
  | .error e => raise e

/-- `try` with an `except` clause. -/
def tryExcept {α : Type} (body : Script α) (handler : PyError → Script α) : Script α :=
  tryCatch body fun
    | .raised e => handler e
    | .killed => throw .killed

/-- `try` with a `finally` clause, which a kill passes over. -/
def tryFinally {α : Type} (body : Script α) (final : Script Unit) : Script α := do
  let ended ← tryCatch (Except.ok <$> body) fun stop => pure (.error stop)
  match ended with
  | .ok a => do
    final
    return a
  | .error (.raised e) => do
    final
    raise e
  | .error .killed => throw .killed

section
variable (env : Env)

/-- Any call. -/
def call : Script Unit := do
  modify State.called
  match env.interrupt (← get) with
  | some stop => throw stop
  | none => pure ()

/-! ### Files -/

def applyStep (step : TreeStep Dir File UInt8) : Script Unit :=
  modify fun s => { s with tree := step.apply s.tree }

def fileExists (d : Dir) (f : File) : Script Bool := do
  call env
  return ((← get).tree.file d f).isSome

def dirExists (d : Dir) : Script Bool := do
  call env
  return ((← get).tree d).isSome

/-- `Path.mkdir`. -/
def mkdir (d : Dir) (existOk : Bool) : Script Unit := do
  call env
  if ((← get).tree d).isSome then
    if existOk then pure () else raise .os
  else applyStep (.mkdir d)

/-- `Path.rename` of a directory. -/
def moveDir (d e : Dir) : Script Unit := do
  call env
  if ((← get).tree e).isSome then raise .os
  else applyStep (.move d e)

/-- `Path.rename` of a file. -/
def renameFile (d : Dir) (f g : File) : Script Unit := do
  call env
  applyStep (.inside d (.rename f g))

/-- `open` for writing. -/
def openFile (d : Dir) (f : File) : Script Unit := do
  call env
  if ((← get).tree d).isSome then
    applyStep (.inside d (.truncate f))
  else raise .os

def appendChunks (d : Dir) (f : File) : List (List UInt8) → Script Unit
  | [] => pure ()
  | chunk :: chunks => do
    call env
    applyStep (.inside d (.append f chunk))
    appendChunks d f chunks

def append (d : Dir) (f : File) (bytes : List UInt8) : Script Unit := do
  appendChunks env d f (env.chunks (← get) bytes)

/-- `Path.write_text`. -/
def writeText (d : Dir) (f : File) (bytes : List UInt8) : Script Unit := do
  openFile env d f
  append env d f bytes

/-- `write_json` of something that is read again. -/
def writeJson {α : Type} [Json.Document α] (d : Dir) (f : File) (value : α) : Script Unit :=
  writeText env d f (Json.Document.dumpsIndent value ++ [10])

/-- A file whose text is not read again. -/
def writeRest (d : Dir) (f : File) : Script Unit := do
  writeText env d f (env.text (← get))

/-! ### The scheduler and the journal -/

/-- `observer.sample()`. -/
def observe : Script Sample := do
  call env
  modify fun s => { s with samples := s.samples + 1 }
  return env.sample (← get)

/-- `kernel.poll()`, if there are stability gates. -/
def pollKernel : Script Unit := do
  match (← get).kernel with
  | none => pure ()
  | some kernel => do
    call env
    let rows := env.rows (← get)
    modify fun s => { s with kernel := some (kernel.poll rows), polls := s.polls ++ [rows] }
    if watchdogRows rows ≠ [] then raise .watchdog else pure ()

/-- `kernel.unsafe_to_restart = True`. -/
def markUnsafe : Script Unit := modify State.marked

/-- `ctl`. -/
def ctl (command : Command) : Script Unit := do
  call env
  modify fun s => { s with commands := s.commands ++ [command] }
  pollKernel env

/-- `stop_scheduler`. -/
def stopScheduler : Script Unit := do
  let sample ← observe env
  if sample.schedExtState ≠ "disabled" then
    ctl env .stop
    if (← get).kernel.isSome then
      call env
      if checkCleanStop (env.record (← get)) sample.scheduler.pid then pure ()
      else
        markUnsafe
        raise .runtime

end

end CerynthOS.Bench
