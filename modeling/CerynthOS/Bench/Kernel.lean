import Mathlib

/-! The watchdog of sched_ext, as the benchmark tools see it in the kernel journal. -/

namespace CerynthOS.Bench

/-- A row of the kernel journal. -/
structure Row where
  cursor : String
  message : String
  deriving DecidableEq

/-- `text in message`. -/
def Row.mentions (row : Row) (text : String) : Bool := decide (text.toList <:+: row.message.toList)

/-- `watchdog_rows`. -/
def watchdogRows (rows : List Row) : List Row :=
  rows.filter fun row => row.mentions "sched_ext:" &&
    ["runnable task stall", "watchdog", "failed to run for"].any row.mentions

/-- `KernelEvents`. -/
structure KernelEvents where
  cursor : String
  events : List Row
  watchdogDetected : Bool
  unsafeToRestart : Bool

namespace KernelEvents

/-- A new one starts at the last row of the journal. -/
def new (last : Row) : KernelEvents := ⟨last.cursor, [], false, false⟩

/-- What `poll` keeps of the rows it finds after its cursor. -/
def poll (self : KernelEvents) (rows : List Row) : KernelEvents :=
  let self := { self with
    cursor := (rows.getLast?.map Row.cursor).getD self.cursor
    events := self.events ++ rows.filter (Row.mentions · "sched_ext:") }
  if watchdogRows rows ≠ [] then { self with watchdogDetected := true, unsafeToRestart := true }
  else self

theorem poll_watchdogDetected (self : KernelEvents) (rows : List Row) :
    (self.poll rows).watchdogDetected = (self.watchdogDetected || !(watchdogRows rows).isEmpty) := by
  unfold poll
  cases h : watchdogRows rows <;> simp

end KernelEvents

/-- What is read of `scheduler.json`; a member is missing or has another type when it is `none`. -/
structure SchedulerRecord where
  pid : Option ℕ
  running : Option Bool
  healthy : Option Bool
  exitError : Option String
  deriving DecidableEq

/-- `check_clean_stop` does not raise. -/
def checkCleanStop (record : SchedulerRecord) (expectedPid : Option ℕ) : Bool :=
  record.pid == expectedPid && record.running == some false && record.healthy == some false &&
    (record.exitError.getD "").isEmpty

end CerynthOS.Bench
