import CerynthOS.Daemon.Backend

/-! The backend that runs the sched_ext scheduler as a child process.

    Times are in nanoseconds. The two polling loops of the source are `retry` over one round; the
    rounds they get are enough, since every round but the last sleeps. -/

namespace CerynthOS.Daemon
open Ipc Json

/-- How old a heartbeat timestamp may be. -/
def heartbeatTimeoutSecs : ℕ := 10

/-- How long `start` waits for the scheduler to become healthy. -/
def startTimeoutSecs : ℕ := 15

def fromSecs (n : ℕ) : ℕ := n * 1000000000

def fromMillis (n : ℕ) : ℕ := n * 1000000

/-- The pause between two rounds of a polling loop. -/
def pollInterval : ℕ := fromMillis 100

/-- Rounds enough to reach a deadline. -/
def rounds (timeout : ℕ) : ℕ := timeout / pollInterval + 2

/-- Seconds as `as_secs_f64` prints them, which is exact for whole milliseconds. -/
def secsText (duration : ℕ) : String :=
  let millis := toString (1000 + duration / 1000000 % 1000)
  let fraction := (millis.toList.drop 1).reverse.dropWhile (· == '0')
  let whole := toString (duration / 1000000000)
  if fraction = [] then whole else whole ++ "." ++ .ofList fraction.reverse

/-! ### Health files -/

/-- Unicode white space. -/
def isWhitespace (c : Char) : Bool :=
  (9 ≤ c.toNat && c.toNat ≤ 13) || c == ' ' || c == '\u0085' || c == '\u00A0' || c == '\u1680' ||
    (0x2000 ≤ c.toNat && c.toNat ≤ 0x200A) || c == '\u2028' || c == '\u2029' || c == '\u202F' ||
    c == '\u205F' || c == '\u3000'

/-- `str::trim`. -/
def trim (s : String) : String :=
  .ofList ((s.toList.dropWhile isWhitespace).reverse.dropWhile isWhitespace).reverse

section
variable {B : Type}

def readScxState : Op B (Option String) := do
  let some contents ← readState | return none
  let state := trim contents
  return if state = "" ∨ state = "none" then none else some state

def schedExtIsEnabled : Op B Bool := do
  return (← readScxState) == some "enabled"

variable [Codec]

/-- The record names this process, running and healthy. -/
def recordMatches (json : Value) (expectedPid : UInt32) : Bool :=
  (json.get "pid").bind Value.asU64 == some expectedPid.toUInt64 &&
    (json.get "running").bind Value.asBool == some true &&
    (json.get "healthy").bind Value.asBool == some true

def heartbeatIsFresh (expectedPid : UInt32) : Op B Bool := do
  let some contents ← readHeartbeat | return false
  let some json := Codec.fromStr contents | return false
  if !recordMatches json expectedPid then return false
  let some timestamp := (json.get "heartbeat").bind Value.asU64 | return false
  let some now ← unixNow | return false
  return timestamp.toNat ≤ now && now - timestamp.toNat ≤ heartbeatTimeoutSecs

end

/-! ### The backend -/

structure ScxBackend where
  schedulerBinary : String
  profile : Profile
  adaptationEnabled : Bool
  pid : Option UInt32
  child : Option Child
  deriving DecidableEq

namespace ScxBackend

def new (schedulerBinary : String) (profile : Profile) : ScxBackend where
  schedulerBinary := schedulerBinary
  profile := profile
  adaptationEnabled := true
  pid := none
  child := none

def withAdaptation (b : ScxBackend) (adaptationEnabled : Bool) : ScxBackend :=
  { b with adaptationEnabled }

/-- No process is tracked any more. -/
def forget (b : ScxBackend) : ScxBackend := { b with child := none, pid := none }

/-- Reconciles the tracked child with reality. -/
def reapChild : Op ScxBackend Unit := do
  match (← get).backend.child with
  | none => update fun b => { b with pid := none }
  | some child =>
    match ← tryWait child with
    | .exited => update forget
    | .running => pure ()
    | .error error => throw s!"failed to inspect scheduler process: {error}"

variable [Codec]

def schedulerIsHealthy : Op ScxBackend Bool := do
  let some pid := (← get).backend.pid | return false
  if (← kill pid .probe) ≠ .ok then return false
  let schedExtEnabled ← schedExtIsEnabled
  let heartbeatOk ← heartbeatIsFresh pid
  return schedExtEnabled && heartbeatOk

/-- One round of `waitUntilHealthy`: whether the scheduler is healthy or the deadline has passed. -/
def pollHealth (deadline : ℕ) : Op ScxBackend (Option Bool) := do
  if (← now) < deadline then
    reapChild
    if (← get).backend.pid.isNone then throw "scheduler exited before becoming healthy"
    if ← schedulerIsHealthy then return some true
    sleep pollInterval
    return none
  else return some false

/-- Waits until the spawned scheduler is alive and healthy. -/
def waitUntilHealthy (timeout : ℕ) : Op ScxBackend Unit := do
  let deadline := (← now) + timeout
  match ← Prog.retry (pollHealth deadline) (rounds timeout) with
  | some true => pure ()
  | _ =>
    let secs := secsText timeout
    throw s!"scheduler did not become healthy within {secs} seconds"

/-- One round of `stop`: whether the process has exited. At the deadline it is killed. -/
def pollExit (child : Child) (pid : UInt32) (deadline : ℕ) : Op ScxBackend (Option Unit) := do
  match ← tryWait child with
  | .exited => return some ()
  | .error error => throw s!"failed to poll scheduler state: {error}"
  | .running =>
    if (← now) ≥ deadline then
      if let .error error ← kill pid .kill then
        throw s!"failed to send SIGKILL to scheduler (pid {pid}): {error}"
      match ← wait child with
      | .ok () => return some ()
      | .error error => throw s!"failed to reap scheduler after SIGKILL: {error}"
    else
      sleep pollInterval
      return none

def stop : Op ScxBackend Unit := do
  reapChild
  let some child := (← get).backend.child | throw "no scheduler is currently running"
  let some pid := (← get).backend.pid | throw "no scheduler is currently running"
  match ← kill pid .term with
  | .esrch => update forget
  | .error error => throw s!"failed to send SIGTERM to scheduler (pid {pid}): {error}"
  | .ok =>
    let deadline := (← now) + fromSecs 5
    let _ ← Prog.retry (pollExit child pid deadline) (rounds (fromSecs 5))
    update forget

def ensureHealthyStartup (timeout : ℕ) : Op ScxBackend Unit := do
  try waitUntilHealthy timeout
  catch error =>
    try stop catch _ => pure ()
    throw error

/-- The part of `start` up to the spawned child. -/
def launch : Op ScxBackend Unit := do
  reapChild
  let b := (← get).backend
  if b.pid.isSome then throw "scheduler is already running"
  if !(← binaryExists) then
    let binary := b.schedulerBinary
    throw s!"scheduler binary not found: {binary}"
  match ← spawn (toString b.profile) with
  | .error error => throw s!"failed to spawn scheduler: {error}"
  | .ok child => update fun b => { b with pid := some child.id, child := some child }

def start : Op ScxBackend Unit := do
  launch
  ensureHealthyStartup (fromSecs startTimeoutSecs)

def restart : Op ScxBackend Unit := do
  reapChild
  if (← get).backend.pid.isSome then stop
  start

def status : Op ScxBackend SchedulerStatus := do
  reapChild
  let b := (← get).backend
  let schedExtState ← readScxState
  let heartbeatOk ← match b.pid with
    | some pid => heartbeatIsFresh pid
    | none => pure false
  return {
    profile := b.profile
    adaptationEnabled := b.adaptationEnabled
    backend := .scx
    running := b.pid.isSome
    schedExtState
    heartbeatOk }

def setProfile (profile : Profile) : Op ScxBackend Unit := do
  reapChild
  if (← get).backend.pid.isSome then
    stop
    update fun b => { b with profile }
    start
  else update fun b => { b with profile }

instance : Backend ScxBackend where
  status := status
  getProfile b := .ok b.profile
  setProfile := setProfile
  pauseAdaptation := update fun b => { b with adaptationEnabled := false }
  resumeAdaptation := update fun b => { b with adaptationEnabled := true }
  start := start
  stop := stop
  restart := restart

/-- The backend as the daemon builds it. -/
def boot (moves : ℕ → Move) (schedulerBinary : String) (profile : Profile)
    (adaptationEnabled : Bool) : Sys ScxBackend where
  backend := (new schedulerBinary profile).withAdaptation adaptationEnabled
  world := { moves }

end ScxBackend

end CerynthOS.Daemon
