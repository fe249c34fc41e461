import CerynthOS.Bench.Progress
import CerynthOS.Schemes.JsonCoding

/-! A system that does as it is told, and the documents of the script as JSON text. -/

namespace CerynthOS.Bench
open Files Json

/-! ### Documents -/

def MatrixProfile.coding : Coding MatrixProfile :=
  .named all name fun profile => by cases profile <;> decide

namespace Workload

def name : Workload → String
  | idle => "idle"
  | cpuStress => "cpu-stress"
  | interactiveStress => "interactive-stress"
  | burst => "burst"
  | compile => "compile"
  | mixed => "mixed"

def coding : Coding Workload := .named all name fun workload => by cases workload <;> decide

end Workload

namespace Metric

def name : Metric → String
  | cpuUsagePercent => "cpu_usage_percent"
  | contextSwitchRate => "context_switch_rate"
  | processCreationRate => "process_creation_rate"
  | runnableTasks => "runnable_tasks"

def coding : Coding Metric := .named all name fun metric => by cases metric <;> decide

end Metric

def Item.coding : Coding Item where
  encode item := .obj [("profile", MatrixProfile.coding.encode item.profile),
    ("workload", Workload.coding.encode item.workload),
    ("repeat", Coding.nat.encode item.repetition),
    ("duration", Coding.nat.encode item.duration)]
  decode v := do
    let profile ← MatrixProfile.coding.decode (v.member "profile")
    let workload ← Workload.coding.decode (v.member "workload")
    let repetition ← Coding.nat.decode (v.member "repeat")
    let duration ← Coding.nat.decode (v.member "duration")
    return ⟨profile, workload, repetition, duration⟩
  decode_encode item := by simp [Value.member, Value.get]
  whole item := by simp [Value.whole, Value.membersWhole]

def SchedulerRecord.coding : Coding SchedulerRecord where
  encode record := .obj [("pid", (Coding.nat.optional rfl).encode record.pid),
    ("running", (Coding.bool.optional rfl).encode record.running),
    ("healthy", (Coding.bool.optional rfl).encode record.healthy),
    ("exit_error", (Coding.string.optional rfl).encode record.exitError)]
  decode v := do
    let pid ← (Coding.nat.optional rfl).decode (v.member "pid")
    let running ← (Coding.bool.optional rfl).decode (v.member "running")
    let healthy ← (Coding.bool.optional rfl).decode (v.member "healthy")
    let exitError ← (Coding.string.optional rfl).decode (v.member "exit_error")
    return ⟨pid, running, healthy, exitError⟩
  decode_encode record := by simp [Value.member, Value.get]
  whole record := by simp [Value.whole, Value.membersWhole]

/-- The measurements are listed by their names. -/
def Sample.coding : Coding Sample where
  encode sample := .obj [
    ("actual_profile", (Coding.string.optional rfl).encode sample.actualProfile),
    ("scheduler_healthy", .bool sample.schedulerHealthy),
    ("sched_ext_state", .str sample.schedExtState),
    ("scheduler", SchedulerRecord.coding.encode sample.scheduler),
    ("telemetry", Metric.coding.list.encode sample.telemetry)]
  decode v := do
    let actualProfile ← (Coding.string.optional rfl).decode (v.member "actual_profile")
    let schedulerHealthy ← Coding.bool.decode (v.member "scheduler_healthy")
    let schedExtState ← Coding.string.decode (v.member "sched_ext_state")
    let scheduler ← SchedulerRecord.coding.decode (v.member "scheduler")
    let telemetry ← Metric.coding.list.decode (v.member "telemetry")
    return ⟨actualProfile, schedulerHealthy, schedExtState, scheduler, telemetry⟩
  decode_encode sample := by
    simp [Value.member, Value.get, Coding.bool, Coding.string, Value.asBool]
  whole sample := by simp [Value.whole, Value.membersWhole]

def Summary.coding : Coding Summary where
  encode summary := .obj [("profile", MatrixProfile.coding.encode summary.profile),
    ("workload", Workload.coding.encode summary.workload),
    ("sample_count", Coding.nat.encode summary.sampleCount),
    ("measurement_origin", (Coding.string.optional rfl).encode summary.measurementOrigin)]
  decode v := do
    let profile ← MatrixProfile.coding.decode (v.member "profile")
    let workload ← Workload.coding.decode (v.member "workload")
    let sampleCount ← Coding.nat.decode (v.member "sample_count")
    let measurementOrigin ← (Coding.string.optional rfl).decode (v.member "measurement_origin")
    return ⟨profile, workload, sampleCount, measurementOrigin⟩
  decode_encode summary := by simp [Value.member, Value.get]
  whole summary := by simp [Value.whole, Value.membersWhole]

def Metadata.coding : Coding Metadata where
  encode metadata := .obj [("workload_exit", Coding.int.encode metadata.workloadExit),
    ("requested_duration_seconds", Coding.nat.encode metadata.requestedDurationSeconds),
    ("interval_seconds", Coding.rat.encode metadata.intervalSeconds)]
  decode v := do
    let workloadExit ← Coding.int.decode (v.member "workload_exit")
    let requestedDurationSeconds ← Coding.nat.decode (v.member "requested_duration_seconds")
    let intervalSeconds ← (v.get "interval_seconds").elim (some 1) Coding.rat.decode
    return ⟨workloadExit, requestedDurationSeconds, intervalSeconds⟩
  decode_encode metadata := by simp [Value.member, Value.get]
  whole metadata := by simp [Value.whole, Value.membersWhole]

def Completion.coding : Coding Completion where
  encode completion := .obj [("status", .str completion.status),
    ("completed_runs", Coding.nat.encode completion.completedRuns),
    ("mode", .str completion.mode)]
  decode v := do
    let status ← Coding.string.decode (v.member "status")
    let completedRuns ← Coding.nat.decode (v.member "completed_runs")
    let mode ← Coding.string.decode (v.member "mode")
    return ⟨status, completedRuns, mode⟩
  decode_encode completion := by simp [Value.member, Value.get, Coding.string]
  whole completion := by simp [Value.whole, Value.membersWhole]

/-- The documents as JSON text. -/
@[reducible] def textDocuments : Documents where
  plan := .ofCoding Item.coding.list fun _ => rfl
  sample := .ofCoding Sample.coding fun _ => rfl
  summary := .ofCoding Summary.coding fun _ => rfl
  metadata := .ofCoding Metadata.coding fun _ => rfl
  completion := .ofCoding Completion.coding fun _ => rfl

/-! ### A system -/

theorem toLower_name (profile : MatrixProfile) : profile.name.toLower = profile.name := by
  rw [← String.toList_inj, String.toLower, String.toList_map]
  cases profile <;> rfl

/-- The scheduler is not running at first, and this is what is read from the journal. -/
def steady (rows : State → List Row) : Env where
  interrupt _ := none
  sample s :=
    let control := (Control.mk false "balanced").after s.commands
    { actualProfile := some control.inEffect
      schedulerHealthy := true
      schedExtState := if control.running then "enabled" else "disabled"
      scheduler := ⟨some 1, some true, some true, none⟩
      telemetry := Metric.all }
  lastRow _ := some ⟨"", ""⟩
  rows := rows
  record _ := ⟨some 1, some false, some false, none⟩
  stateRecord _ := ⟨some "scx", some false, none⟩
  tries _ := 0
  rounds _ := 0
  overdue _ := false
  exitCode _ := 0
  timeNs s := s.calls
  text _ := []
  chunks _ bytes := [bytes]
  chunks_flatten _ bytes := List.append_nil bytes

theorem steady_healthy {rows : State → List Row} {quiet : Prop}
    (h : ∀ s, quiet ∨ Incomplete s.tree → watchdogRows (rows s) = []) :
    (steady rows).Healthy ⟨false, "balanced"⟩ quiet where
  interrupt _ := rfl
  disabled s := by
    simp only [steady]
    cases ((Control.mk false "balanced").after s.commands).running <;> decide
  profile s profile hs := ⟨_, rfl, by rw [hs, toLower_name]⟩
  healthy _ _ := rfl
  known s hs := ⟨_, rfl, by rw [hs]; decide⟩
  telemetry _ _ metric := by
    change metric ∈ Metric.all
    cases metric <;> decide
  stopped _ _ _ _ := rfl
  state _ := ⟨rfl, rfl⟩
  lastRow _ := rfl
  rows := h
  overdue _ := rfl
  exitCode _ := rfl

end CerynthOS.Bench
