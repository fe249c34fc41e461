import CerynthOS.Schemes.JsonWidth
import CerynthOS.Ipc.Protocol
import CerynthOS.Scx.Reporter

/-! A snapshot as JSON.

    It is written from one pair of structs and read into another, the same one but for the borrow.
    The status leaves its error out when there is none. Whatever the counters are, the text of a
    running scheduler's snapshot is short. -/

namespace CerynthOS.Scx
open Json Machine
open Ipc (structFields readU32 writeU32 readString readOptString structFields_zip)

/-! ### Derived serialisation -/

/-- The fields of a struct in which every position is needed. -/
def everyField (names : List String) : Value → Option (List (Option Value))
  | .arr items =>
    if items.length = names.length then structFields false names (.arr items) else none
  | v => structFields false names v

/-- A double may be written as an integer, too. -/
def readF64 : Value → Option Float
  | .float x => some x
  | .posInt n => some (toF64 n.toNat)
  | .negInt n => some (-toF64 n)
  | _ => none

namespace SchedulerStatus

def fieldNames : List String :=
  ["running", "pid", "profile", "healthy", "started_at_ms", "sched_ext_state", "heartbeat",
    "exit_error"]

/-- `exit_error` is the last field, and left out when there is none. -/
def values (s : SchedulerStatus) : List Value := [
  .bool s.running,
  writeU32 s.pid,
  .str s.profile,
  .bool s.healthy,
  .posInt s.startedAtMs,
  .str s.schedExtState,
  .posInt s.heartbeat] ++ s.exitError.toList.map Value.str

def toValue (s : SchedulerStatus) : Value := .obj (fieldNames.zip s.values)

def ofValue (v : Value) : Option SchedulerStatus :=
  match everyField fieldNames v with
  | some [some running, some pid, some profile, some healthy, some startedAtMs, some schedExtState,
      some heartbeat, exitError] => do
    return {
      running := ← running.asBool
      pid := ← readU32 pid
      profile := ← readString profile
      healthy := ← healthy.asBool
      startedAtMs := ← startedAtMs.asU64
      schedExtState := ← readString schedExtState
      heartbeat := ← heartbeat.asU64
      exitError := ← readOptString exitError }
  | _ => none

end SchedulerStatus

namespace SchedulerStats

def fieldNames : List String :=
  ["pid", "profile", "heartbeat", "scheduler_uptime_ms", "progress_sequence", "tasks_dequeued",
    "tasks_dispatched", "reporter_drops", "dispatch_errors", "dequeue_errors",
    "batches_processed", "avg_batch_size", "max_batch_size", "kernel_queued", "kernel_scheduled",
    "kernel_user_dispatches", "kernel_direct_dispatches", "kernel_failed_dispatches",
    "kernel_cancel_dispatches"]

def values (s : SchedulerStats) : List Value := [
  writeU32 s.pid,
  .str s.profile,
  .posInt s.heartbeat,
  .posInt s.schedulerUptimeMs,
  .posInt s.progressSequence,
  .posInt s.tasksDequeued,
  .posInt s.tasksDispatched,
  .posInt s.reporterDrops,
  .posInt s.dispatchErrors,
  .posInt s.dequeueErrors,
  .posInt s.batchesProcessed,
  .float s.avgBatchSize,
  .posInt s.maxBatchSize,
  .posInt s.kernelQueued,
  .posInt s.kernelScheduled,
  .posInt s.kernelUserDispatches,
  .posInt s.kernelDirectDispatches,
  .posInt s.kernelFailedDispatches,
  .posInt s.kernelCancelDispatches]

def toValue (s : SchedulerStats) : Value := .obj (fieldNames.zip s.values)

def ofValue (v : Value) : Option SchedulerStats :=
  match everyField fieldNames v with
  | some [some pid, some profile, some heartbeat, some schedulerUptimeMs, some progressSequence,
      some tasksDequeued, some tasksDispatched, some reporterDrops, some dispatchErrors,
      some dequeueErrors, some batchesProcessed, some avgBatchSize, some maxBatchSize,
      some kernelQueued, some kernelScheduled, some kernelUserDispatches,
      some kernelDirectDispatches, some kernelFailedDispatches, some kernelCancelDispatches] => do
    return {
      pid := ← readU32 pid
      profile := ← readString profile
      heartbeat := ← heartbeat.asU64
      schedulerUptimeMs := ← schedulerUptimeMs.asU64
      progressSequence := ← progressSequence.asU64
      tasksDequeued := ← tasksDequeued.asU64
      tasksDispatched := ← tasksDispatched.asU64
      reporterDrops := ← reporterDrops.asU64
      dispatchErrors := ← dispatchErrors.asU64
      dequeueErrors := ← dequeueErrors.asU64
      batchesProcessed := ← batchesProcessed.asU64
      avgBatchSize := ← readF64 avgBatchSize
      maxBatchSize := ← maxBatchSize.asU64
      kernelQueued := ← kernelQueued.asU64
      kernelScheduled := ← kernelScheduled.asU64
      kernelUserDispatches := ← kernelUserDispatches.asU64
      kernelDirectDispatches := ← kernelDirectDispatches.asU64
      kernelFailedDispatches := ← kernelFailedDispatches.asU64
      kernelCancelDispatches := ← kernelCancelDispatches.asU64 }
  | _ => none

end SchedulerStats

namespace Snapshot

def fieldNames : List String := ["status", "stats"]

def toValue (s : Snapshot) : Value :=
  .obj (fieldNames.zip [s.status.toValue, s.stats.toValue])

def ofValue (v : Value) : Option Snapshot :=
  match everyField fieldNames v with
  | some [some status, some stats] => do
    return ⟨← SchedulerStatus.ofValue status, ← SchedulerStats.ofValue stats⟩
  | _ => none

end Snapshot

theorem everyField_zip {names : List String} (hn : names.Nodup) {values : List Value}
    (hl : values.length ≤ names.length) : everyField names (.obj (names.zip values)) =
      some (values.map some ++ List.replicate (names.length - values.length) none) :=
  structFields_zip hn hl

namespace SchedulerStatus

theorem length_values_le (s : SchedulerStatus) : s.values.length ≤ fieldNames.length := by
  cases h : s.exitError <;> simp [values, fieldNames, h]

theorem ofValue_toValue (s : SchedulerStatus) : ofValue s.toValue = some s := by
  rw [ofValue, toValue, everyField_zip (by decide) s.length_values_le]
  obtain ⟨running, pid, profile, healthy, startedAtMs, schedExtState, heartbeat, exitError⟩ := s
  cases exitError <;>
    simp [fieldNames, values, Value.asBool, Value.asU64, readString, readOptString]

end SchedulerStatus

theorem SchedulerStats.ofValue_toValue (s : SchedulerStats) : ofValue s.toValue = some s := by
  have hlength : s.values.length ≤ fieldNames.length := Nat.le_refl 19
  rw [ofValue, toValue, everyField_zip (by decide) hlength]
  simp [fieldNames, values, Value.asU64, readString, readF64]

namespace Snapshot

/-- A snapshot is read back from its value. -/
theorem ofValue_toValue (s : Snapshot) : ofValue s.toValue = some s := by
  rw [ofValue, toValue, everyField_zip (by decide)]
  · simp [fieldNames, SchedulerStatus.ofValue_toValue, SchedulerStats.ofValue_toValue]
  · simp [fieldNames]

/-- Its only double is the average. -/
theorem finite_toValue (s : Snapshot) : s.toValue.finite = s.stats.avgBatchSize.isFinite := by
  obtain ⟨⟨running, pid, profile, healthy, startedAtMs, state, heartbeat, exitError⟩, stats⟩ := s
  cases exitError <;>
    simp [toValue, fieldNames, SchedulerStatus.toValue, SchedulerStatus.fieldNames,
      SchedulerStatus.values, SchedulerStats.toValue, SchedulerStats.fieldNames,
      SchedulerStats.values, Value.finite, Value.membersFinite, writeU32]

theorem depth_toValue (s : Snapshot) : s.toValue.depth = 2 := by
  obtain ⟨⟨running, pid, profile, healthy, startedAtMs, state, heartbeat, exitError⟩, stats⟩ := s
  cases exitError <;> rfl

end Snapshot

/-! ### The size of a snapshot -/

theorem width_debug (profile : Profile) : (printStr profile.debug).length ≤ 13 := by
  cases profile <;> decide

/-- The status of a running scheduler is short. -/
theorem width_runningStatus (pid : UInt32) (profile : Profile) (startedAtMs nowSecs : UInt64) :
    width 32 (runningStatus pid profile startedAtMs nowSecs).toValue ≤ 256 := by
  have hprofile := width_debug profile
  have hstate : (printStr "enabled").length = 9 := by decide
  have hnames : (SchedulerStatus.fieldNames.map fun name => (printStr name).length).sum ≤ 100 := by
    decide
  have hvalues : ∀ v ∈ (runningStatus pid profile startedAtMs nowSecs).values, width 32 v ≤ 20 := by
    simp [SchedulerStatus.values, runningStatus, width, writeU32, hstate]
    omega
  have hlength : (runningStatus pid profile startedAtMs nowSecs).values.length = 7 := rfl
  have h := membersWidth_zip_le SchedulerStatus.fieldNames hvalues
  rw [SchedulerStatus.toValue, width]
  omega

/-- So are the counters, whatever they have come to. -/
theorem width_stats {stats : SchedulerStats} {profile : Profile}
    (hp : stats.profile = profile.debug) : width 32 stats.toValue ≤ 1200 := by
  have hprofile := width_debug profile
  have hnames : (SchedulerStats.fieldNames.map fun name => (printStr name).length).sum ≤ 400 := by
    decide
  have hvalues : ∀ v ∈ stats.values, width 32 v ≤ 32 := by
    simp [SchedulerStats.values, width, writeU32, hp]
    omega
  have hlength : stats.values.length = 19 := rfl
  have h := membersWidth_zip_le SchedulerStats.fieldNames hvalues
  rw [SchedulerStats.toValue, width]
  omega

/-- The text of a running scheduler's snapshot is at most a quarter of the child's buffer. -/
theorem Snapshot.width_toValue {s : Snapshot} {pid : UInt32} {profile : Profile}
    {startedAtMs nowSecs : UInt64} (hs : s.status = runningStatus pid profile startedAtMs nowSecs)
    (hp : s.stats.profile = profile.debug) : width 32 s.toValue ≤ 2048 := by
  have hstatus := width_runningStatus pid profile startedAtMs nowSecs
  have hstats := width_stats hp
  have hnames : (printStr "status").length = 8 ∧ (printStr "stats").length = 7 := by decide
  rw [← hs] at hstatus
  simp only [toValue, fieldNames, List.zip_cons_cons, List.zip_nil_left, width, membersWidth,
    hnames]
  omega

end CerynthOS.Scx
