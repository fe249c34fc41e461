import CerynthOS.Schemes.Machine

/-! The telemetry source: one call of `collect` reads `/proc` once and compares what it finds with
    what earlier calls have left behind. A call is a function of its `Reading`, which is what the
    files say once they are parsed. Instants are rational numbers, in seconds. The usage and the
    rates of counters are exact; the rate of short-lived processes is the quotient of doubles. -/

namespace CerynthOS.Telemetry
open Machine

/-- The ticks of all processors in each state. -/
structure CpuTimes where
  user : ℕ
  nice : ℕ
  system : ℕ
  idle : ℕ
  iowait : ℕ
  irq : ℕ
  softirq : ℕ
  steal : ℕ

namespace CpuTimes

def total (t : CpuTimes) : ℕ :=
  t.user + t.nice + t.system + t.idle + t.iowait + t.irq + t.softirq + t.steal

def idleTotal (t : CpuTimes) : ℕ := t.idle + t.iowait

def usagePercentSince (t prev : CpuTimes) : ℚ :=
  let totalDelta := t.total - prev.total
  let idleDelta := t.idleTotal - prev.idleTotal
  if totalDelta = 0 then 0 else ((totalDelta - idleDelta : ℕ) : ℚ) / totalDelta * 100

end CpuTimes

/-- `/proc/stat`. What is missing counts as zero. -/
structure Stat where
  cpu : Option CpuTimes
  contextSwitches : ℕ
  interrupts : ℕ
  processesCreated : ℕ
  runnableTasks : ℕ

/-- `/proc/loadavg`. -/
structure LoadAvg where
  load1m : ℚ
  load5m : ℚ
  load15m : ℚ
  totalTasks : ℕ

/-- `/proc/meminfo`, in kilobytes. -/
structure MemInfo where
  memTotal : ℕ
  memAvailable : ℕ
  swapTotal : ℕ
  swapFree : ℕ

/-- `/proc/[pid]/stat`. -/
structure ProcStat where
  command : String
  utime : ℕ
  stime : ℕ

def ProcStat.ticks (stat : ProcStat) : ℕ := stat.utime + stat.stime

/-- What one call finds: the instant at its start, the time since the epoch, the files that can be
    read, and the two listings of `/proc`. -/
structure Reading where
  now : ℚ
  timestampMs : Option ℕ
  stat : Option Stat
  loadavg : Option LoadAvg
  meminfo : Option MemInfo
  schedExtState : Option String
  processes : Option (List (ℤ × Option ProcStat))
  pids : Option (List ℤ)
  schedulerProfile : Option String

/-- CPU usage attributed to a single process over the last sampling interval. -/
structure ProcessCpuSample where
  pid : ℤ
  command : String
  cpuPercent : ℚ

structure SystemSnapshot where
  timestampMs : ℕ
  cpuUsagePercent : ℚ
  load1m : ℚ
  load5m : ℚ
  load15m : ℚ
  runnableTasks : ℕ
  totalTasks : ℕ
  contextSwitches : ℕ
  contextSwitchRate : ℚ
  shortLivedProcessRate : Float
  interrupts : ℕ
  memoryUsedBytes : ℕ
  memoryTotalBytes : ℕ
  swapUsedBytes : ℕ
  swapTotalBytes : ℕ
  topProcesses : List ProcessCpuSample
  schedulerProfile : Option String
  schedExtState : String

/-- What the calls leave for the next one. -/
structure ProcTelemetrySource where
  prevCpu : Option CpuTimes
  prevProcCpu : List (ℤ × ℕ)
  pidFirstSeen : List (ℤ × ℚ)
  prevContextSwitches : Option ℕ
  prevProcesses : Option ℕ
  prevSampleAt : Option ℚ
  clkTck : ℚ

namespace ProcTelemetrySource

/-- The source before the first call. `clkTck` is what the system says its tick rate is. -/
def new (clkTck : ℤ) : ProcTelemetrySource where
  prevCpu := none
  prevProcCpu := []
  pidFirstSeen := []
  prevContextSwitches := none
  prevProcesses := none
  prevSampleAt := none
  clkTck := if 0 < clkTck then clkTck else 100

/-- The seconds since the last sample, zero if there is none. -/
def elapsedSecs (self : ProcTelemetrySource) (now : ℚ) : ℚ :=
  (self.prevSampleAt.map fun prev => max 0 (now - prev)).getD 0

/-- The change of a counter in this time. -/
def rate (elapsedSecs : ℚ) (prev : Option ℕ) (cur : ℕ) : ℚ :=
  match prev with
  | some prev => if 0 < elapsedSecs then ((cur - prev : ℕ) : ℚ) / elapsedSecs else 0
  | none => 0

/-- The sample of one process, if there is an earlier value and the process has run since. -/
def cpuSample (self : ProcTelemetrySource) (elapsedSecs : ℚ) (pid : ℤ) (stat : ProcStat) :
    Option ProcessCpuSample :=
  match self.prevProcCpu.lookup pid with
  | some prev =>
    if 0 < elapsedSecs then
      let cpuPercent := ((stat.ticks - prev : ℕ) : ℚ) / self.clkTck / elapsedSecs * 100
      if 0 < cpuPercent then some ⟨pid, stat.command, cpuPercent⟩ else none
    else none
  | none => none

/-- The listed processes that can be read. -/
def readable (entries : List (ℤ × Option ProcStat)) : List (ℤ × ProcStat) :=
  entries.filterMap fun entry => entry.2.map (entry.1, ·)

/-- The latest value of a process comes first. -/
def seen (entries : List (ℤ × Option ProcStat)) : List (ℤ × ℕ) :=
  ((readable entries).map fun entry => (entry.1, entry.2.ticks)).reverse

/-- When `/proc` cannot be listed, nothing is sampled and nothing is recorded. -/
def topProcesses (self : ProcTelemetrySource) (elapsedSecs : ℚ) :
    Option (List (ℤ × Option ProcStat)) → ProcTelemetrySource × List ProcessCpuSample
  | none => (self, [])
  | some entries =>
    let samples := (readable entries).filterMap fun entry =>
      self.cpuSample elapsedSecs entry.1 entry.2
    ({ self with prevProcCpu := seen entries },
      (samples.mergeSort fun a b => b.cpuPercent ≤ a.cpuPercent).take 5)

/-- How long a process lives that is called short-lived. -/
def shortLivedThresholdSecs : ℚ := 5

/-- The new processes are entered with this instant. -/
def enter (now : ℚ) (firstSeen : List (ℤ × ℚ)) (pids : List ℤ) : List (ℤ × ℚ) :=
  pids.foldl (fun m pid => if (m.lookup pid).isSome then m else (pid, now) :: m) firstSeen

/-- `Duration::as_secs_f64`, of a duration in seconds; it counts whole nanoseconds. -/
def asSecsF64 (duration : ℚ) : Float :=
  let nanos := ⌊duration * 10 ^ 9⌋.toNat
  toF64 (nanos / 10 ^ 9) + toF64 (nanos % 10 ^ 9) / 1000000000.0

/-- The processes that have gone are removed, and those that were short-lived are counted. -/
def shortLived (self : ProcTelemetrySource) (now : ℚ) (pids : List ℤ) :
    ProcTelemetrySource × ℕ :=
  let firstSeen := enter now self.pidFirstSeen pids
  let exited := firstSeen.filter fun entry => entry.1 ∉ pids
  ({ self with pidFirstSeen := firstSeen.filter fun entry => entry.1 ∈ pids },
    exited.countP fun entry => max 0 (now - entry.2) < shortLivedThresholdSecs)

/-- The counters of `/proc/stat` are recorded as soon as they are read. -/
def record (self : ProcTelemetrySource) (stat : Stat) : ProcTelemetrySource :=
  { self with
    prevCpu := stat.cpu
    prevContextSwitches := some stat.contextSwitches
    prevProcesses := some stat.processesCreated }

def cpuUsagePercent (self : ProcTelemetrySource) (cur : Option CpuTimes) : ℚ :=
  match self.prevCpu, cur with
  | some prev, some cur => cur.usagePercentSince prev
  | _, _ => 0

/-- `TelemetrySource::collect`. -/
def collect (self : ProcTelemetrySource) (r : Reading) :
    ProcTelemetrySource × Except String SystemSnapshot :=
  let elapsed := self.elapsedSecs r.now
  match r.timestampMs with
  | none => (self, .error "system clock before UNIX epoch")
  | some timestampMs =>
    match r.stat with
    | none => (self, .error "reading /proc/stat")
    | some stat =>
      let recorded := self.record stat
      match r.loadavg with
      | none => (recorded, .error "reading /proc/loadavg")
      | some loadavg =>
        match r.meminfo with
        | none => (recorded, .error "reading /proc/meminfo")
        | some mem =>
          let top := recorded.topProcesses elapsed r.processes
          let short := top.1.shortLived r.now (r.pids.getD [])
          ({ short.1 with prevSampleAt := some r.now }, .ok {
            timestampMs
            cpuUsagePercent := self.cpuUsagePercent stat.cpu
            load1m := loadavg.load1m
            load5m := loadavg.load5m
            load15m := loadavg.load15m
            runnableTasks := stat.runnableTasks
            totalTasks := loadavg.totalTasks
            contextSwitches := stat.contextSwitches
            contextSwitchRate := rate elapsed self.prevContextSwitches stat.contextSwitches
            shortLivedProcessRate :=
              if 0 < elapsed then toF64 short.2 / asSecsF64 elapsed else 0.0
            interrupts := stat.interrupts
            memoryUsedBytes := mem.memTotal * 1024 - mem.memAvailable * 1024
            memoryTotalBytes := mem.memTotal * 1024
            swapUsedBytes := mem.swapTotal * 1024 - mem.swapFree * 1024
            swapTotalBytes := mem.swapTotal * 1024
            topProcesses := top.2
            schedulerProfile := r.schedulerProfile
            schedExtState := r.schedExtState.getD "unavailable" })

/-- The source before call `n`, when the calls find these readings. -/
def before (clkTck : ℤ) (calls : ℕ → Reading) : ℕ → ProcTelemetrySource
  | 0 => new clkTck
  | n + 1 => ((before clkTck calls n).collect (calls n)).1

/-- What call `n` returns. -/
def returned (clkTck : ℤ) (calls : ℕ → Reading) (n : ℕ) : Except String SystemSnapshot :=
  ((before clkTck calls n).collect (calls n)).2

end ProcTelemetrySource

end CerynthOS.Telemetry
