import CerynthOS.Bench.Session
import CerynthOS.Schemes.Protocol
import CerynthOS.Tools.Burst

/-! The stability tool: it attaches the scheduler again and again, under load.

    In every phase the tool detaches the scheduler that is attached, attaches it with the next
    profile and runs the burst workload. Any call may raise or be the last one before the process is
    killed, and what it answers may depend on everything done before. The tool must never attach a
    scheduler after something has gone wrong. -/

namespace CerynthOS.Tools.Stability
open Bench Logging

/-- `PROFILES`. -/
def profiles : List String :=
  ["balanced", "interactive", "performance", "background", "interactive", "balanced"]

structure Args where
  rounds : ℤ
  duration : ℚ
  cpuMs : ℚ
  workers : ℤ
  idleSoak : ℚ
  linuxBaseline : ℤ
  poll : ℚ

/-- All parameters are positive. -/
def Args.valid (args : Args) : Bool :=
  !(args.rounds < 1 || args.duration ≤ 0 || args.workers < 1 || args.workers > 256 ||
    args.cpuMs ≤ 0 || args.poll ≤ 0 || args.idleSoak < 0 || args.linuxBaseline < 0)

/-- The files that the tool writes. -/
inductive Saved where
  | parameters
  | linuxBaselines
  | completed
  | result
  | failure
  | failureCopy
  | kernelEvents
  deriving DecidableEq

/-- An entry of `completed.json`. -/
structure Phase where
  round : ℕ
  profile : String
  workerBursts : ℕ
  pid : ℕ
  deriving DecidableEq

/-- What the tool does or sees. A `call` is anything that may raise. -/
inductive Deed where
  | call
  | polls (rows : List Row)
  | reads (schedExt : String)
  | looksUp (pid : ℕ)
  | controls (command : Command)
  | records (record : SchedulerRecord)
  | loads
  | exits (code : ℤ)
  | checks (pid : ℕ)
  | finishes (record : BurstRecord)
  | completes (phase : Phase)
  | saves (file : Saved)
  | terminates
  | catches

abbrev Log := List Deed

/-- What `check_health` returns of the scheduler. -/
structure Health where
  pid : ℕ
  progressSequence : ℕ

/-- What the system does at a call and answers. `overdue` are the deadlines and limits, `due` is
    whether the journal is to be polled, `rested` whether the soak is over, and `rounds` says after
    how many rounds of a loop the process is killed. -/
structure Env where
  interrupt : Log → Option Stop
  outputExists : Log → Bool
  lastRow : Log → Option Row
  rows : Log → List Row
  schedExt : Log → String
  record : Log → Except PyError SchedulerRecord
  health : String → Log → Except PyError Health
  controlFails : Log → Bool
  progress : Log → Option BurstRecord
  exitCode : Log → Option ℤ
  overdue : Log → Bool
  due : Log → Bool
  rested : Log → Bool
  rounds : Log → ℕ

/-- What the tool has done and seen so far: whether a scheduler that it started may be attached, the
    process of the one to be stopped, the last state of sched_ext, the last command, whether a
    workload runs, what was completed, whether anything has gone wrong and whether the result is
    saved. -/
structure History where
  attached : Bool
  pid : Option ℕ
  schedExt : Option String
  command : Option Command
  running : Bool
  completed : List Phase
  finals : List BurstRecord
  quiet : Bool
  caught : Bool
  saved : Bool

namespace History

def empty : History := ⟨false, none, none, none, false, [], [], true, false, false⟩

/-- Only a clean stop of the process that was to be stopped tells that the scheduler is detached. -/
def add (h : History) : Deed → History
  | .polls rows => { h with quiet := h.quiet && (watchdogRows rows).isEmpty }
  | .reads state => { h with schedExt := some state }
  | .looksUp pid => { h with pid := some pid }
  | .controls command =>
    { h with command := some command, attached := h.attached || command == .start }
  | .records record => { h with attached := h.attached && !checkCleanStop record h.pid }
  | .loads => { h with running := true }
  | .exits _ => { h with running := false }
  | .finishes final => { h with finals := h.finals ++ [final] }
  | .completes phase => { h with completed := h.completed ++ [phase] }
  | .saves .result => { h with saved := true }
  | .catches => { h with caught := true }
  | _ => h

end History

def history (log : Log) : History := log.foldl History.add .empty

abbrev Script (α : Type) := Logging Deed Stop α

def raise {α : Type} (error : PyError) : Script α := throw (.raised error)

def ofExcept {α : Type} : Except PyError α → Script α
  | .ok a => pure a
  | .error e => raise e

/-- `try` with an `except` clause. -/
def tryExcept {α : Type} (body : Script α) (handler : PyError → Script α) : Script α :=
  tryCatch body fun
    | .raised e => handler e
    | .killed => throw .killed

/-- `try` with a `finally` clause, which a kill passes over. -/
def tryFinally {α : Type} (body : Script α) (final : Script Unit) : Script α := do
  let a ← tryCatch body fun
    | .raised e => do
      final
      raise e
    | .killed => throw .killed
  final
  return a

/-- What happens before the script goes on or not. -/
def require (c : Bool) (error : PyError) : Script Unit := if c then pure () else raise error

section
variable (env : Env)

/-! ### Calls -/

/-- Any call. -/
def call : Script Unit := do
  did .call
  match ← ask env.interrupt with
  | some stop => throw stop
  | none => pure ()

def save (file : Saved) : Script Unit := do
  did (.saves file)
  call env

/-- `KernelEvents.poll`. -/
def poll : Script Unit := do
  call env
  let rows ← ask env.rows
  did (.polls rows)
  require (watchdogRows rows).isEmpty .watchdog

/-- The state of sched_ext, stripped. -/
def readSchedExt : Script String := do
  call env
  let state ← ask env.schedExt
  did (.reads state)
  return state

/-- The scheduler must not be attached. -/
def requireDisabled : Script Unit := do
  let state ← readSchedExt env
  require (state == "disabled") .runtime

/-- `read_object(Path('/run/cerynth/scheduler.json'))`. -/
def readRecord : Script SchedulerRecord := do
  call env
  ofExcept (← ask env.record)

/-- `ctl`. -/
def ctl (command : Command) : Script Unit := do
  did (.controls command)
  call env
  require (!(← ask env.controlFails)) .runtime
  poll env

/-- `check_health`. -/
def checkHealth (profile : String) : Script Health := do
  call env
  let health ← ofExcept (← ask (env.health profile))
  did (.checks health.pid)
  return health

/-- `terminate`. -/
def terminate : Script Unit := do
  did .terminates
  call env

/-! ### Linux without the scheduler -/

/-- The loop of `run_linux_baseline`. -/
def watchBaseline : ℕ → Script Unit
  | 0 => throw .killed
  | rounds + 1 => do
    requireDisabled env
    poll env
    call env
    match ← ask env.exitCode with
    | some code => do
      did (.exits code)
      require (code == 0) .runtime
    | none => do
      call env
      require (!(← ask env.overdue)) .runtime
      call env
      watchBaseline rounds

/-- `run_linux_baseline`. -/
def runLinuxBaseline : Script Unit := do
  requireDisabled env
  poll env
  call env
  did .loads
  call env
  tryFinally (do watchBaseline env (← ask env.rounds)) (terminate env)

/-! ### A phase -/

/-- The scheduler that is attached is stopped, and must say so itself. -/
def stopAttached : Script Unit := do
  let record ← readRecord env
  match record.pid with
  | none => raise .other
  | some stoppedPid => do
    did (.looksUp stoppedPid)
    ctl env .stop
    let record ← readRecord env
    did (.records record)
    require (checkCleanStop record (some stoppedPid)) .runtime

/-- What is attached is detached; Linux on its own is fine only before the first phase. -/
def detach : Script Unit := do
  let state ← readSchedExt env
  if state == "enabled" then
    stopAttached env
  else do
    require (!(state == "disabled" && !(← ask fun log => (history log).completed).isEmpty)) .runtime
    require (state == "disabled") .runtime
  requireDisabled env

/-- The scheduler has some time to become healthy. -/
def awaitHealth (profile : String) : ℕ → Script Health
  | 0 => throw .killed
  | rounds + 1 => do
    poll env
    let first ← tryExcept (some <$> checkHealth env profile) fun e => do
      if e == .os || e == .value || e.isRuntime then
        call env
        require (!(← ask env.overdue)) e
        call env
        return none
      else raise e
    match first with
    | some health => return health
    | none => awaitHealth profile rounds

/-- All workers completed all bursts. -/
def allCompleted (final : BurstRecord) : Bool :=
  final.completed && final.completedBursts != 0 &&
    !final.workerCompletions.any (· != final.completedBursts)

/-- The workload has exited. -/
def checkFinal (code : ℤ) : Script Unit := do
  did (.exits code)
  require (code == 0) .runtime
  call env
  match ← ask env.progress with
  | none => raise .os
  | some final => do
    did (.finishes final)
    require (allCompleted final) .runtime

def pollIfDue : Script Unit := do
  if ← ask env.due then poll env else pure ()

/-- The number of bursts that the workload has last told, if it has told one. -/
def burstsTold (lastCount : ℕ) (workers : Option BurstRecord) : ℕ :=
  (workers.map fun workers => max lastCount workers.completedBursts).getD lastCount

/-- The loop around the workload. It returns the last number of bursts that it has seen. -/
def watchWorkload (profile : String) (expectedPid : ℕ) : ℕ → ℕ → Script ℕ
  | 0, _ => throw .killed
  | rounds + 1, lastCount => do
    let snapshot ← checkHealth env profile
    require (snapshot.pid == expectedPid) .runtime
    call env
    require (!(← ask env.overdue)) .runtime
    call env
    let lastCount := burstsTold lastCount (← ask env.progress)
    call env
    require (!(← ask env.overdue)) .runtime
    call env
    pollIfDue env
    call env
    match ← ask env.exitCode with
    | some code => do
      checkFinal env code
      return lastCount
    | none => do
      call env
      watchWorkload profile expectedPid rounds lastCount

/-- Every round may begin with load under Linux. -/
def beginRound (args : Args) (index : ℕ) : Script Unit :=
  if index == 0 && args.linuxBaseline != 0 then do
    runLinuxBaseline env
    save env .linuxBaselines
  else pure ()

def runPhase (args : Args) (number index : ℕ) (profile : String) : Script Unit := do
  call env
  poll env
  detach env
  beginRound env args index
  ctl env (.profileSet profile)
  ctl env .start
  let first ← awaitHealth env profile (← ask env.rounds)
  call env
  did .loads
  call env
  let lastCount ← watchWorkload env profile first.pid (← ask env.rounds) 0
  poll env
  let _ ← checkHealth env profile
  did (.completes ⟨number + 1, profile, lastCount, first.pid⟩)
  save env .completed

/-! ### A session -/

def runProfiles (args : Args) (number : ℕ) : ℕ → List String → Script Unit
  | _, [] => pure ()
  | index, profile :: rest => do
    runPhase env args number index profile
    runProfiles args number (index + 1) rest

def runRounds (args : Args) : ℕ → ℕ → Script Unit
  | _, 0 => pure ()
  | number, left + 1 => do
    runProfiles env args number 0 profiles
    runRounds args (number + 1) left

/-- The scheduler idles for a while. -/
def soak : ℕ → Script Unit
  | 0 => throw .killed
  | rounds + 1 => do
    call env
    if ← ask env.rested then pure ()
    else do
      poll env
      let _ ← checkHealth env "balanced"
      require (!(← ask env.overdue)) .runtime
      call env
      soak rounds

/-- The body of `main`. -/
def session (args : Args) : Script Unit := do
  runRounds env args 0 args.rounds.toNat
  let _ ← checkHealth env "balanced"
  call env
  soak env (← ask env.rounds)
  poll env
  save env .result

def saveCopies : List String → Script Unit
  | [] => pure ()
  | _ :: names => do
    tryExcept (save env .failureCopy) fun e => require (e == .os) e
    saveCopies names

/-- What is written when something has gone wrong; the error is raised again. -/
def recordFailure (error : PyError) : Script Unit := do
  did .catches
  tryExcept (poll env) fun e => if e == .systemExit then raise e else pure ()
  save env .failure
  saveCopies env ["scheduler.json", "scheduler-stats.json", "policy.json"]
  save env .kernelEvents
  raise error

def main (args : Args) : Script Unit := do
  require args.valid .systemExit
  call env
  require (!(← ask env.outputExists)) .systemExit
  call env
  require (← ask env.lastRow).isSome .runtime
  call env
  save env .parameters
  tryFinally (tryExcept (session env args) (recordFailure env)) do
    terminate env
    save env .kernelEvents

end

end CerynthOS.Tools.Stability
