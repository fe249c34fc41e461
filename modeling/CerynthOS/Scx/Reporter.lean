import CerynthOS.Scx.Loop

/-! The reporter: a child process that writes down what the scheduler says of itself.

    The scheduler sends a snapshot through a datagram socket and never waits for it to be taken. The
    child drains the socket, keeps the latest snapshot only, looks at the state of sched_ext and
    writes the two files. Each step of either process is one event, and they come in any order. -/

namespace CerynthOS.Scx
open Machine

/-- What is in `scheduler.json`. -/
structure SchedulerStatus where
  running : Bool
  pid : UInt32
  profile : String
  healthy : Bool
  startedAtMs : UInt64
  schedExtState : String
  heartbeat : UInt64
  exitError : Option String
  deriving DecidableEq

/-- `SchedulerStatus::running`. -/
def runningStatus (pid : UInt32) (profile : Profile) (startedAtMs nowSecs : UInt64) :
    SchedulerStatus where
  running := true
  pid := pid
  profile := profile.debug
  healthy := true
  startedAtMs := startedAtMs
  schedExtState := "enabled"
  heartbeat := nowSecs
  exitError := none

/-- `SchedulerStatus::stopped`, with the error that `main` puts in. -/
def stoppedStatus (pid : UInt32) (schedExtState : String) (nowSecs : UInt64)
    (exitError : Option String) : SchedulerStatus where
  running := false
  pid := pid
  profile := ""
  healthy := false
  startedAtMs := 0
  schedExtState := schedExtState
  heartbeat := nowSecs
  exitError := exitError

structure Snapshot where
  status : SchedulerStatus
  stats : SchedulerStats

/-- A snapshot in the socket, and how many passes the scheduler had made when it was sent. -/
structure Datagram where
  snapshot : Snapshot
  passes : ℕ

/-- The status with the state of sched_ext that the child has found. -/
def observed (status : SchedulerStatus) (state : String) : SchedulerStatus :=
  { status with schedExtState := state, healthy := state == "enabled" }

/-- A record in `scheduler.json`, the snapshot it comes from and the state found in its round. -/
structure Written where
  source : Datagram
  state : String
  record : SchedulerStatus

/-- The history of one reporter: the snapshots its socket accepted, the records it has put in
    `scheduler.json`, and the snapshots whose counters it has put in `scheduler-stats.json`. -/
structure Session where
  sent : List Datagram
  written : List Written
  counted : List Datagram

def Session.empty : Session := ⟨[], [], []⟩

/-- Where the child is in its loop. -/
inductive ChildPhase where
  | draining (latest : Option Datagram)
  | drained (source : Datagram)
  | reporting (source : Datagram) (state : String) (record : SchedulerStatus)
  | counting (source : Datagram)
  | exited

/-- Where the parent is: `attaching` until the BPF program is loaded, `announcing` until the first
    snapshot is published; `fresh` is whether a pass has been made since the last one. From `closing`
    on the BPF program is gone. -/
inductive ParentPhase where
  | starting
  | attaching
  | announcing
  | running (fresh : Bool)
  | closing (restart : Bool)
  | killed (restart : Bool)
  | finished
  | stopped (record : Option SchedulerStatus)

/-- Both processes. `writes` is everything they have put in `scheduler.json`, and `past` are the
    reporters that are gone. -/
structure Reporting where
  pid : UInt32
  profile : Profile
  phase : ParentPhase
  sched : Scheduler
  passes : ℕ
  queue : List Datagram
  child : ChildPhase
  session : Session
  past : List Session
  writes : List SchedulerStatus

/-- What `write_stats` finds: the clocks, the kernel's counters, and whether the socket accepts the
    datagram. It may be full, or closed on the other side. -/
structure StatsFacts where
  nowMs : UInt64
  uptimeNowMs : UInt64
  nowSecs : UInt64
  kernelQueued : UInt64
  kernelScheduled : UInt64
  kernelUserDispatches : UInt64
  kernelDirectDispatches : UInt64
  kernelFailedDispatches : UInt64
  kernelCancelDispatches : UInt64
  accepted : Bool

/-- The counters that `write_stats` publishes. -/
def Scheduler.refreshStats (self : Scheduler) (facts : StatsFacts) : SchedulerStats :=
  { self.stats with
    heartbeat := facts.nowMs / 1000
    schedulerUptimeMs := satSub64 facts.uptimeNowMs self.startedAtMs
    kernelQueued := facts.kernelQueued
    kernelScheduled := facts.kernelScheduled
    kernelUserDispatches := facts.kernelUserDispatches
    kernelDirectDispatches := facts.kernelDirectDispatches
    kernelFailedDispatches := facts.kernelFailedDispatches
    kernelCancelDispatches := facts.kernelCancelDispatches }

namespace Reporting

/-- A process that was just started. -/
def boot (pid : UInt32) (profile : Profile) : Reporting where
  pid := pid
  profile := profile
  phase := .starting
  sched := .init pid 0 profile
  passes := 0
  queue := []
  child := .exited
  session := .empty
  past := []
  writes := []

/-! ### The parent -/

/-- `write_stats`: a snapshot that is not accepted is only counted. -/
def writeStats (s : Reporting) (facts : StatsFacts) : Reporting :=
  let stats := s.sched.refreshStats facts
  let status := runningStatus s.pid s.profile s.sched.startedAtMs facts.nowSecs
  if facts.accepted then
    let datagram := ⟨⟨status, stats⟩, s.passes⟩
    { s with
      sched := { s.sched with stats := stats }
      queue := s.queue ++ [datagram]
      session := { s.session with sent := s.session.sent ++ [datagram] } }
  else
    { s with
      sched := { s.sched with stats := { stats with reporterDrops := stats.reporterDrops + 1 } } }

def goTo (s : Reporting) (phase : ParentPhase) : Reporting := { s with phase := phase }

/-- `Reporter::start` has spawned the child on a new socket. -/
def spawn (s : Reporting) : Reporting :=
  { s with phase := .attaching, queue := [], child := .draining none }

/-- The rest of `Scheduler::init`, once the BPF program is attached. -/
def attach (s : Reporting) (startedAtMs : UInt64) : Reporting :=
  { s with phase := .announcing, sched := .init s.pid startedAtMs s.profile, passes := 0 }

def pass (s : Reporting) (rings : Rings) : Reporting :=
  { s with
    phase := .running true, sched := s.sched.dispatchTasks rings, passes := s.passes + 1 }

/-- `Reporter::drop` has waited for the child; `run_scheduler` starts over or returns. -/
def reap (s : Reporting) (restart : Bool) : Reporting :=
  { s with
    phase := if restart then .starting else .finished
    queue := []
    child := .exited
    session := .empty
    past := s.past ++ [s.session] }

/-- The end of `main`. -/
def writeStopped (s : Reporting) (record : SchedulerStatus) : Reporting :=
  { s with phase := .stopped (some record), writes := s.writes ++ [record] }

/-! ### The child -/

/-- One `recv`: the latest datagram is kept until the socket is empty. -/
def receive (s : Reporting) (latest : Option Datagram) : Reporting :=
  match s.queue with
  | datagram :: queue => { s with queue := queue, child := .draining (some datagram) }
  | [] =>
    match latest with
    | some datagram => { s with child := .drained datagram }
    | none => { s with child := .draining none }

/-- The check of the pid and the look at the state of sched_ext. -/
def observe (s : Reporting) (source : Datagram) (state : Option String) : Reporting :=
  if source.snapshot.status.pid ≠ s.pid ∨ source.snapshot.stats.pid ≠ s.pid then
    { s with child := .exited }
  else
    match state with
    | none => { s with child := .exited }
    | some state =>
      { s with child := .reporting source state (observed source.snapshot.status state) }

/-- The rename at the end of `SchedulerStatus::write`. -/
def putStatus (s : Reporting) (source : Datagram) (state : String) (record : SchedulerStatus) :
    Reporting :=
  { s with
    child := .counting source
    session := { s.session with written := s.session.written ++ [⟨source, state, record⟩] }
    writes := s.writes ++ [record] }

/-- The same for the counters; then the child sleeps and starts over. -/
def putStats (s : Reporting) (source : Datagram) : Reporting :=
  { s with
    child := .draining none
    session := { s.session with counted := s.session.counted ++ [source] } }

/-! ### Events -/

/-- A step of the parent or of the child; `ok` is whether it succeeds. A child that fails exits, and
    so does one that is no longer the parent's. The state is the text of the file, trimmed. -/
inductive Event where
  | start (ok : Bool)
  | attach (ok : Bool) (startedAtMs : UInt64)
  | writeStats (facts : StatsFacts)
  | pass (rings : Rings)
  | exit (restart : Bool)
  | kill
  | reap
  | writeStopped (ok : Bool) (state : String) (nowSecs : UInt64) (exitError : Option String)
  | receive
  | observe (state : Option String)
  | putStatus (ok : Bool)
  | putStats (ok : Bool)
  | fail

/-- The process that an event belongs to makes it if it has come to it. -/
def step (s : Reporting) : Event → Reporting
  | .start ok =>
    match s.phase with
    | .starting => if ok then s.spawn else s.goTo .finished
    | _ => s
  | .attach ok startedAtMs =>
    match s.phase with
    | .attaching => if ok then s.attach startedAtMs else s.goTo (.closing false)
    | _ => s
  | .writeStats facts =>
    match s.phase with
    | .announcing | .running true => (s.writeStats facts).goTo (.running false)
    | _ => s
  | .pass rings =>
    match s.phase with
    | .running _ => s.pass rings
    | _ => s
  | .exit restart =>
    match s.phase with
    | .running _ => s.goTo (.closing restart)
    | _ => s
  | .kill =>
    match s.phase with
    | .closing restart => s.goTo (.killed restart)
    | _ => s
  | .reap =>
    match s.phase with
    | .killed restart => s.reap restart
    | _ => s
  | .writeStopped ok state nowSecs exitError =>
    match s.phase with
    | .finished =>
      if ok then s.writeStopped (stoppedStatus s.pid state nowSecs exitError)
      else s.goTo (.stopped none)
    | _ => s
  | .receive =>
    match s.child with
    | .draining latest => s.receive latest
    | _ => s
  | .observe state =>
    match s.child with
    | .drained source => s.observe source state
    | _ => s
  | .putStatus ok =>
    match s.child with
    | .reporting source state record =>
      if ok then s.putStatus source state record else { s with child := .exited }
    | _ => s
  | .putStats ok =>
    match s.child with
    | .counting source => if ok then s.putStats source else { s with child := .exited }
    | _ => s
  | .fail => { s with child := .exited }

def run (s : Reporting) (events : List Event) : Reporting := events.foldl step s

end Reporting

end CerynthOS.Scx
