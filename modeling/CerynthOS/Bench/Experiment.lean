import CerynthOS.Bench.Session
import CerynthOS.Schemes.Lines

/-! The benchmark matrix: a plan of runs, each measured or taken over from an earlier session. -/

namespace CerynthOS.Bench
open Files Json

/-- The kinds of JSON documents that the script reads. -/
class Documents where
  plan : Document (List Item)
  sample : Document Sample
  summary : Document Summary
  metadata : Document Metadata
  completion : Document Completion

attribute [reducible, instance] Documents.plan Documents.sample Documents.summary Documents.metadata
  Documents.completion

/-! ### One run -/

/-- `verify` does not raise. -/
def verify (sample : Sample) (profile : MatrixProfile) : Bool :=
  match sample.actualProfile with
  | none => false
  | some actual =>
    actual.toLower == profile.name && (profile == .linuxDefault || sample.schedulerHealthy)

section
variable [Documents] (env : Env)

/-- A line of `observations.jsonl`. -/
def Sample.line (sample : Sample) : List UInt8 := Document.dumps sample ++ [10]

def writeSample (item : Item) (sample : Sample) : Script Unit :=
  append env item.dir .observations sample.line

/-- One round of the loop of `run_workload`. -/
def watchOnce (item : Item) : Script Sample := do
  let sample ← observe env
  writeSample env item sample
  call env
  pollKernel env
  if (← get).kernel.isSome && !sample.schedulerHealthy && item.profile != .linuxDefault then
    markUnsafe
    raise .runtime
  if verify sample item.profile then return sample
  else raise .runtime

/-- The loop of `run_workload`, when the workload is found running so many times. -/
def watch (item : Item) : ℕ → Script (List Sample)
  | 0 => do
    let sample ← watchOnce env item
    return [sample]
  | rounds + 1 => do
    let sample ← watchOnce env item
    if env.overdue (← get) then raise .runtime
    call env
    let samples ← watch item rounds
    return sample :: samples

/-- The `finally` clause of `run_workload`. -/
def endWorkload (item : Item) : Script Unit := do
  call env
  call env
  writeRest env item.dir .adaptationAudit

/-- The `try` block of `run_workload`. -/
def measureSamples (item : Item) : Script (List Sample) := do
  let samples ← watch env item (env.rounds (← get))
  if env.exitCode (← get) = 0 then return samples else raise .runtime

/-- `run_workload` up to its `try`. -/
def startWorkload (item : Item) : Script Unit := do
  mkdir env item.dir false
  let _ ← observe env
  openFile env item.dir .workloadLog
  openFile env item.dir .observations
  call env

/-- `run_workload` up to its results. -/
def measureWorkload (item : Item) : Script (List Sample) := do
  startWorkload env item
  let samples ← tryFinally (measureSamples env item) (endWorkload env item)
  unless Metric.all.all fun metric => samples.any fun sample => sample.telemetry.contains metric do
    raise .runtime
  call env
  return samples

def runWorkload (item : Item) (interval : ℚ) : Script Summary := do
  let samples ← measureWorkload env item
  let summary : Summary := ⟨item.profile, item.workload, samples.length, none⟩
  writeJson env item.dir .summary summary
  writeJson env item.dir .metadata (⟨0, item.duration, interval⟩ : Metadata)
  return summary

/-! ### Earlier runs -/

/-- `json.loads(path.read_text())`. -/
def readJson {α : Type} [Document α] (files : Disk File UInt8) (f : File) : Except PyError α :=
  match files f with
  | none => .error .os
  | some bytes =>
    match Document.loads bytes with
    | none => .error .value
    | some a => .ok a

/-- `splitlines`, without the blank lines. -/
def splitLines (bytes : List UInt8) : List (List UInt8) :=
  ((Lines.lines 10 bytes).map fun line => line.takeWhile (· != 10)).filter
    fun line => line.any fun b => !isWsByte b

/-- The samples of `observations.jsonl`. -/
def readSamples (files : Disk File UInt8) : Except PyError (List Sample) :=
  match files .observations with
  | none => .error .os
  | some bytes =>
    match (splitLines bytes).mapM (Document.loads (α := Sample)) with
    | none => .error .value
    | some samples => .ok samples

def completedRun (files : Disk File UInt8) (item : Item) (interval : ℚ) :
    Except PyError Summary := do
  let summary : Summary ← readJson files .summary
  let metadata : Metadata ← readJson files .metadata
  let samples ← readSamples files
  if summary.profile ≠ item.profile ∨ summary.workload ≠ item.workload ∨
      metadata.workloadExit ≠ 0 ∨ metadata.requestedDurationSeconds ≠ item.duration ∨
      metadata.intervalSeconds ≠ interval ∨ samples.length ≠ summary.sampleCount ∨ samples = [] then
    .error .runtime
  else if samples.all fun sample => verify sample item.profile then .ok summary
  else .error .runtime

/-! ### The session -/

structure Args where
  repeats : ℕ
  duration : ℕ
  interval : ℚ
  resume : Bool
  reuseFrom : Option OutputTree
  stabilityGates : Bool

namespace Args

/-- The profiles in the order of a repetition. -/
def rotated (r : ℕ) : List MatrixProfile :=
  MatrixProfile.all.drop ((r - 1) % 5) ++ MatrixProfile.all.take ((r - 1) % 5)

def plan (args : Args) : List Item :=
  (List.range args.repeats).flatMap fun r => Workload.all.flatMap fun w =>
    (rotated (r + 1)).map fun p => ⟨p, w, r + 1, args.duration⟩

end Args

/-- What is put back at the end. -/
structure Original where
  actualProfile : String
  stateProfile : Option String

/-- The profiles that the scheduler is known to report. -/
def knownProfiles : List String :=
  ["linux-default", "Balanced", "Interactive", "Performance", "Background", "balanced",
    "interactive", "performance", "background"]

/-- `plan.json` holds this plan. -/
def samePlan (files : Option (Disk File UInt8)) (plan : List Item) : Except PyError Unit := do
  let saved : List Item ← readJson (files.getD fun _ => none) .plan
  if saved ≠ plan then .error .systemExit else .ok ()

/-- `parser.error`, if this is so. -/
def refuseIf (p : Prop) [Decidable p] : Script Unit := if p then raise .systemExit else pure ()

/-- The earlier matrix has the same plan. -/
def checkReuse (args : Args) : Script Unit := do
  match args.reuseFrom with
  | none => pure ()
  | some earlier => do
    call env
    ofExcept (samePlan (earlier .output) args.plan)

/-- There is no output directory yet, or the one there is has the same plan. -/
def checkOutput (args : Args) : Script Unit := do
  let found ← dirExists env .output
  refuseIf (found = true ∧ args.resume = false)
  if args.resume then
    let saved ← fileExists env .output .plan
    refuseIf (saved = false)
    ofExcept (samePlan ((← get).tree .output) args.plan)

/-- `main` up to the stability gates. -/
def checkPlan (args : Args) : Script Unit := do
  refuseIf (args.repeats < 3 ∨ args.duration = 0 ∨ args.interval ≤ 0)
  refuseIf (args.resume = true ∧ args.reuseFrom.isSome = true)
  checkReuse env args
  checkOutput env args

/-- The stability gates are verified, and the journal is read from now on. -/
def openKernel (args : Args) : Script Unit := do
  if args.stabilityGates then
    call env
    call env
    match env.lastRow (← get) with
    | none => raise .runtime
    | some row => modify fun s => { s with kernel := some (.new row) }

/-- The profile to be put back, if it can be told. -/
def acceptOriginal (original : Sample) (state : StateRecord) : Script Original :=
  match original.actualProfile with
  | none => raise .systemExit
  | some actual =>
    if knownProfiles.contains actual then pure ⟨actual, state.profile⟩ else raise .systemExit

/-- `main` from there up to the output directory. -/
def checkRuntime (args : Args) : Script Original := do
  openKernel env args
  let _ ← observe env
  call env
  let original ← observe env
  call env
  let state := env.stateRecord (← get)
  refuseIf (state.schedulerBackend ≠ some "scx")
  refuseIf (state.adaptationEnabled ≠ some false)
  acceptOriginal original state

/-- The record of an earlier failure makes room. -/
def clearFailure (args : Args) : Script Unit := do
  if args.resume then
    if ← fileExists env .output .failure then
      call env
      renameFile env .output .failure (.failureBeforeResume (env.timeNs (← get)))

/-- `main` from the output directory up to its `try`. -/
def startSession (args : Args) : Script ℕ := do
  mkdir env .output args.resume
  clearFailure env args
  writeJson env .output .plan args.plan
  call env
  let timeNs := env.timeNs (← get)
  writeRest env .output (.session timeNs)
  return timeNs

/-- `session_path.stem`. -/
def origin (timeNs : ℕ) : String := s!"measurement-session-{timeNs}"

/-- The scheduler reports the profile before the deadline, which comes after so many tries. -/
def awaitProfile (profile : MatrixProfile) : ℕ → Script Unit
  | 0 => do
    let sample ← observe env
    if verify sample profile then pure () else raise .runtime
  | tries + 1 =>
    tryExcept (do
      let sample ← observe env
      if verify sample profile then pure () else raise .runtime)
    fun e => do
      if e.isRuntime then
        call env
        awaitProfile profile tries
      else raise e

/-- The scheduler is brought to the profile of the item. -/
def switchTo (profile : MatrixProfile) : Script Unit := do
  stopScheduler env
  if profile ≠ .linuxDefault then
    ctl env (.profileSet profile.name)
    ctl env .start
  awaitProfile env profile (env.tries (← get))

/-- The item is taken over from an earlier session. -/
def reuse (timeNs : ℕ) (item : Item) (summary : Summary) : Script Unit := do
  modify fun s => { s with
    results := s.results ++ [{ summary with measurementOrigin := some "reused before this session" }]
    reusedRuns := s.reusedRuns ++ [item.dir] }
  writeRest env .output (.session timeNs)

/-- An earlier attempt makes room. -/
def setAside (item : Item) : Script Unit := do
  if ← dirExists env item.dir then
    mkdir env .failedAttempts true
    call env
    moveDir env item.dir
      (.failedAttempt item.profile item.workload item.repetition (env.timeNs (← get)))

/-- The item is measured, and its summary says in which session. -/
def measureRun (args : Args) (timeNs : ℕ) (item : Item) : Script Summary := do
  switchTo env item.profile
  let summary ← runWorkload env item args.interval
  let summary := { summary with measurementOrigin := some (origin timeNs) }
  writeJson env item.dir .summary summary
  return summary

/-- The item is measured for this session. -/
def measure (args : Args) (timeNs : ℕ) (item : Item) : Script Unit := do
  let summary ← measureRun env args timeNs item
  modify fun s => { s with
    results := s.results ++ [summary]
    newRuns := s.newRuns ++ [item.dir] }
  writeRest env .output (.session timeNs)

/-- The directory of the earlier run, if it has a `summary.json`. -/
def prior (args : Args) (tree : OutputTree) (item : Item) : Option (Disk File UInt8) :=
  match args.reuseFrom with
  | some earlier => (earlier item.dir).filter fun files => (files .summary).isSome
  | none =>
    if args.resume then (tree item.dir).filter fun files => (files .summary).isSome else none

/-- One round of the loop over the plan. -/
def processItem (args : Args) (timeNs : ℕ) (item : Item) : Script Unit := do
  call env
  match prior args (← get).tree item with
  | some files => do
    let summary ← ofExcept (completedRun files item args.interval)
    reuse env timeNs item summary
  | none => do
    if args.resume then setAside env item
    measure env args timeNs item

def processPlan (args : Args) (timeNs : ℕ) : List Item → Script Unit
  | [] => pure ()
  | item :: items => do
    processItem env args timeNs item
    processPlan args timeNs items

/-- The combinations of a workload and a profile in the order of the report. -/
def combinations : List (Workload × MatrixProfile) :=
  Workload.all.flatMap fun w => MatrixProfile.all.map fun p => (w, p)

/-- The loop of `aggregate`. -/
def aggregateAll (repeats : ℕ) : List (Workload × MatrixProfile) → Script Unit
  | [] => pure ()
  | (w, p) :: rest => do
    if (← get).results.countP (fun r => r.workload == w && r.profile == p) < repeats then
      raise .runtime
    writeRest env .summaries (.combination p w)
    aggregateAll repeats rest

def aggregate (args : Args) : Script Unit := do
  mkdir env .summaries true
  aggregateAll env args.repeats combinations
  writeRest env .output .report

/-- The `try` block of `main`. -/
def runPlan (args : Args) (timeNs : ℕ) : Script Unit := do
  processPlan env args timeNs args.plan
  aggregate env args
  writeJson env .output .completion
    (⟨"pass", (← get).results.length, "matrix"⟩ : Completion)

/-- The `except` clause of `main`. -/
def recordFailure (error : PyError) : Script Unit := do
  markUnsafe
  writeRest env .output .failure
  raise error

/-- The original profile is put back. -/
def restoreProfile (original : Original) : Script Unit := do
  pollKernel env
  stopScheduler env
  let profile := if original.actualProfile = "linux-default" then original.stateProfile.getD ""
    else original.actualProfile.toLower
  if profile ≠ "" then ctl env (.profileSet profile.toLower)
  if original.actualProfile ≠ "linux-default" then ctl env .start

/-- The journal is kept, and a scheduler that has stopped must have done so cleanly. -/
def collectKernelEvents : Script Unit := do
  if (← get).kernel.isSome then
    writeRest env .output .kernelEvents
    if (← observe env).schedExtState = "disabled" then
      call env
      let record := env.record (← get)
      if !checkCleanStop record record.pid then markUnsafe

/-- The `finally` clause of `main`. -/
def endSession (original : Original) : Script Unit := do
  collectKernelEvents env
  unless (← get).unsafeToRestart do
    restoreProfile env original

/-- `main` up to its `try`. -/
def openSession (args : Args) : Script (Original × ℕ) := do
  checkPlan env args
  let original ← checkRuntime env args
  let timeNs ← startSession env args
  return (original, timeNs)

/-- `main` in matrix mode. -/
def main (args : Args) : Script Unit := do
  let (original, timeNs) ← openSession env args
  tryFinally (tryExcept (runPlan env args timeNs) (recordFailure env)) (endSession env original)

end

end CerynthOS.Bench
