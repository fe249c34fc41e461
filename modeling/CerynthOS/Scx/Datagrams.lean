import CerynthOS.Schemes.Binary64
import CerynthOS.Scx.Snapshots
import CerynthOS.Scx.Counters
import CerynthOS.Scx.Reports

/-! The datagrams between the scheduler and its reporter.

    The scheduler refuses to send what the child has no room for, and the child gives up on what it
    cannot read and on pids that are not its parent's. Over every run neither happens to a snapshot
    of the scheduler, as long as the count of its batches has not come back to zero. -/

namespace CerynthOS.Scx
open Json Machine

def maxSnapshot : ℕ := 8192

/-- The kinds of errors that are told apart. -/
inductive ErrorKind where
  | invalidData | writeZero | wouldBlock | interrupted | other
  deriving DecidableEq

structure IoError where
  kind : ErrorKind
  message : String

/-! ### The scheduler -/

/-- What `send_snapshot` makes of the socket's answer to a datagram of this size. -/
def sendAnswer (size : ℕ) : Except IoError ℕ → Except IoError Bool
  | .ok sent =>
    if sent = size then .ok true else .error ⟨.writeZero, "partial scheduler datagram"⟩
  | .error error =>
    if error.kind = .wouldBlock ∨ error.kind = .interrupted then .ok false else .error error

def sendSnapshot (send : List UInt8 → Except IoError ℕ) (bytes : List UInt8) :
    Except IoError Bool :=
  if bytes.length > maxSnapshot then .error ⟨.invalidData, "oversized scheduler snapshot"⟩
  else sendAnswer bytes.length (send bytes)

section
variable [Codec]

def Snapshot.toVec (snapshot : Snapshot) : List UInt8 := Codec.toVec snapshot.toValue

/-- `Reporter::publish`. -/
def publish (send : List UInt8 → Except IoError ℕ) (pid : UInt32) (profile : Profile)
    (startedAtMs nowSecs : UInt64) (stats : SchedulerStats) : Except IoError Bool :=
  sendSnapshot send (Snapshot.toVec ⟨runningStatus pid profile startedAtMs nowSecs, stats⟩)

/-! ### The child -/

/-- Why the child gives up. -/
inductive Failure where
  | io (error : IoError)
  | decode

/-- The drain loop over the answers of `recv`: the latest snapshot is kept until the socket is
    empty. -/
def drain (latest : Option Snapshot) :
    List (Except IoError (List UInt8)) → Except Failure (Option Snapshot)
  | [] => .ok latest
  | .ok bytes :: answers =>
    match (Codec.fromSlice bytes).bind Snapshot.ofValue with
    | some snapshot => drain (some snapshot) answers
    | none => .error .decode
  | .error error :: answers =>
    match error.kind with
    | .wouldBlock => .ok latest
    | .interrupted => drain latest answers
    | _ => .error (.io error)

/-- The pids of the latest snapshot have to be the parent's. -/
def checkPid (parent : UInt32) : Option Snapshot → Except Failure (Option Snapshot)
  | some snapshot =>
    if snapshot.status.pid ≠ parent ∨ snapshot.stats.pid ≠ parent then
      .error (.io ⟨.invalidData, "snapshot PID mismatch"⟩)
    else .ok (some snapshot)
  | none => .ok none

/-- One round of the child's loop, up to the snapshot that it reports. -/
def round (parent : UInt32) (answers : List (Except IoError (List UInt8))) :
    Except Failure (Option Snapshot) :=
  (drain none answers).bind (checkPid parent)

/-- What `recv` finds: a datagram, of which the buffer takes its size, or an interruption. -/
def recv : Option Snapshot → Except IoError (List UInt8)
  | some snapshot => .ok (snapshot.toVec.take maxSnapshot)
  | none => .error ⟨.interrupted, "Interrupted system call"⟩

end

/-! ### What the scheduler computes -/

/-- The average as `dispatch_tasks` computes it. -/
def Averaged (stats : SchedulerStats) : Prop :=
  stats.avgBatchSize = 0.0 ∨ stats.batchesProcessed ≠ 0 ∧
    stats.avgBatchSize = toF64 stats.tasksDequeued.toNat / toF64 stats.batchesProcessed.toNat

theorem Averaged.isFinite {stats : SchedulerStats} (h : Averaged stats) :
    stats.avgBatchSize.isFinite = true := by
  rcases h with h | ⟨hne, h⟩
  · rw [h]
    decide +kernel
  · rw [h]
    have hb : stats.batchesProcessed.toNat ≠ 0 := fun hz => hne (UInt64.toNat_inj.mp hz)
    have hbatches := Binary64.ranged_toF64 hb (UInt64.toNat_lt _) (by decide)
    by_cases hd : stats.tasksDequeued.toNat = 0
    · rw [hd]
      exact Binary64.isFinite_zero_div hbatches
    · have htasks := Binary64.ranged_toF64 hd (UInt64.toNat_lt _) (by decide)
      exact (htasks.div hbatches (by decide) (by decide)).isFinite

/-- A snapshot of the scheduler of this process. -/
structure Genuine (pid : UInt32) (profile : Profile) (snapshot : Snapshot) : Prop where
  status : ∃ startedAtMs nowSecs, snapshot.status = runningStatus pid profile startedAtMs nowSecs
  pid : snapshot.stats.pid = pid
  profile : snapshot.stats.profile = profile.debug

/-- What the child can read: the library reads back what it has printed, and the average is one. -/
structure Readable [Codec] (snapshot : Snapshot) : Prop where
  average : Averaged snapshot.stats
  back : ReadsBack snapshot.toValue

section
variable {pid : UInt32} {profile : Profile} {snapshot : Snapshot}

theorem Genuine.length_le [Codec] [CompactCodec 32] (h : Genuine pid profile snapshot) :
    snapshot.toVec.length ≤ maxSnapshot := by
  obtain ⟨startedAtMs, nowSecs, hs⟩ := h.status
  have hbytes := length_toVec_le snapshot.toValue
  have hwidth := Nat.mul_le_mul_left 4 (Snapshot.width_toValue hs h.profile)
  exact hbytes.trans (hwidth.trans (by decide))

/-- The child reads what the scheduler wrote. -/
theorem Genuine.decode [Codec] [CompactCodec 32] (h : Genuine pid profile snapshot)
    (hr : Readable snapshot) :
    (Codec.fromSlice (snapshot.toVec.take maxSnapshot)).bind Snapshot.ofValue = some snapshot := by
  have hfinite : snapshot.toValue.finite = true := by
    rw [Snapshot.finite_toValue]
    exact hr.average.isFinite
  have hdepth : snapshot.toValue.depth < recursionLimit := by
    rw [Snapshot.depth_toValue]
    decide
  rw [List.take_of_length_le h.length_le, Snapshot.toVec, hr.back hfinite hdepth]
  exact snapshot.ofValue_toValue

theorem drain_genuine [Codec] [CompactCodec 32] {received : List (Option Snapshot)}
    (h : ∀ snapshot, some snapshot ∈ received → Genuine pid profile snapshot ∧ Readable snapshot)
    (latest : Option Snapshot) :
    drain latest (received.map recv) = .ok (received.reduceOption.getLast?.or latest) := by
  induction received generalizing latest with
  | nil => rfl
  | cons first received ih =>
    have hrest := ih fun snapshot hs => h snapshot (List.mem_cons_of_mem _ hs)
    cases first with
    | none => exact hrest latest
    | some snapshot =>
      obtain ⟨hg, hr⟩ := h snapshot List.mem_cons_self
      rw [List.map_cons, recv, drain, hg.decode hr]
      dsimp only
      rw [hrest, List.reduceOption_cons_of_some, List.getLast?_cons]
      cases received.reduceOption.getLast? <;> rfl

theorem Genuine.pids (h : Genuine pid profile snapshot) :
    snapshot.status.pid = pid ∧ snapshot.stats.pid = pid := by
  obtain ⟨startedAtMs, nowSecs, hs⟩ := h.status
  refine ⟨?_, h.pid⟩
  rw [hs]
  rfl

/-- A round on snapshots of the scheduler ends with the latest one. -/
theorem round_genuine [Codec] [CompactCodec 32] {received : List (Option Snapshot)}
    (h : ∀ snapshot, some snapshot ∈ received → Genuine pid profile snapshot ∧ Readable snapshot) :
    round pid (received.map recv) = .ok received.reduceOption.getLast? := by
  rw [round, drain_genuine h, Option.or_none]
  cases hlast : received.reduceOption.getLast? with
  | none => rfl
  | some snapshot =>
    have hmem := List.mem_of_getLast? hlast
    obtain ⟨hg, -⟩ := h snapshot (List.reduceOption_mem_iff.mp hmem)
    exact if_neg (by simp [hg.pids])

end

/-- The scheduler is told what the socket answers, and never that the snapshot is too large. -/
theorem publish_genuine [Codec] [CompactCodec 32] (send : List UInt8 → Except IoError ℕ)
    {pid : UInt32} {profile : Profile} {startedAtMs nowSecs : UInt64} {stats : SchedulerStats}
    (h : Genuine pid profile ⟨runningStatus pid profile startedAtMs nowSecs, stats⟩) :
    let bytes := Snapshot.toVec ⟨runningStatus pid profile startedAtMs nowSecs, stats⟩
    publish send pid profile startedAtMs nowSecs stats = sendAnswer bytes.length (send bytes) :=
  if_neg (Nat.not_lt.mpr h.length_le)

/-! ### Every run -/

/-- The counters of a scheduler of this process after `n` passes. -/
structure Sound (pid : UInt32) (profile : Profile) (n : ℕ) (stats : SchedulerStats) : Prop where
  pid : stats.pid = pid
  profile : stats.profile = profile.debug
  batches : n < 2 ^ 64 → stats.batchesProcessed.toNat ≤ n
  average : n < 2 ^ 64 → Averaged stats

section
variable {pid : UInt32} {profile : Profile} {n : ℕ}

theorem sound_init (startedAtMs : UInt64) :
    Sound pid profile n (Scheduler.init pid startedAtMs profile).stats where
  pid := rfl
  profile := rfl
  batches _ := Nat.zero_le n
  average _ := .inl rfl

theorem Sound.pass {self : Scheduler} (h : Sound pid profile n self.stats) (rings : Rings) :
    Sound pid profile (n + 1) (self.dispatchTasks rings).stats := by
  obtain ⟨hpid, hprofile⟩ := Scheduler.dispatchTasks_identity rings self
  obtain ⟨size, granted, -, -, -, hc⟩ := Scheduler.dispatchTasks_counts rings self
  by_cases hempty : size = 0
  · obtain ⟨hb, -, ha⟩ := hc.empty hempty
    have hd : (self.dispatchTasks rings).stats.tasksDequeued = self.stats.tasksDequeued := by
      simp [hc.dequeued, hempty]
    refine ⟨hpid.trans h.pid, hprofile.trans h.profile, fun hn => ?_, fun hn => ?_⟩
    · rw [hb]
      exact (h.batches (by omega)).trans (Nat.le_succ n)
    · rw [Averaged, ha, hb, hd]
      exact h.average (by omega)
  · obtain ⟨hb, -, ha⟩ := hc.nonempty hempty
    have hsucc (hn : n + 1 < 2 ^ 64) : (self.dispatchTasks rings).stats.batchesProcessed.toNat =
        self.stats.batchesProcessed.toNat + 1 := by
      have hle := h.batches (by omega)
      rw [hb]
      exact Scheduler.toNat_add_ofNat (k := 1) (by omega)
    refine ⟨hpid.trans h.pid, hprofile.trans h.profile, fun hn => ?_, fun hn => .inr ⟨?_, ha⟩⟩
    · rw [hsucc hn]
      exact Nat.succ_le_succ (h.batches (by omega))
    · intro hz
      have hsucc := hsucc hn
      rw [hz] at hsucc
      exact absurd hsucc (Nat.succ_ne_zero _).symm

theorem Sound.refresh {self : Scheduler} (h : Sound pid profile n self.stats)
    (facts : StatsFacts) : Sound pid profile n (self.refreshStats facts) :=
  ⟨h.pid, h.profile, h.batches, h.average⟩

end

/-- A snapshot that was sent after so many passes. -/
structure Datagram.Sound (pid : UInt32) (profile : Profile) (d : Datagram) : Prop where
  status : ∃ startedAtMs nowSecs, d.snapshot.status = runningStatus pid profile startedAtMs nowSecs
  stats : Scx.Sound pid profile d.passes d.snapshot.stats

theorem Datagram.Sound.genuine {pid : UInt32} {profile : Profile} {d : Datagram}
    (h : d.Sound pid profile) : Genuine pid profile d.snapshot :=
  ⟨h.status, h.stats.pid, h.stats.profile⟩

namespace Reporting

/-- The scheduler's counters are sound, and so is all that was sent. -/
structure Sends (pid : UInt32) (profile : Profile) (s : Reporting) : Prop where
  samePid : s.pid = pid
  sameProfile : s.profile = profile
  stats : Sound pid profile s.passes s.sched.stats
  sent : ∀ d ∈ s.session.sent, d.Sound pid profile
  past : ∀ session ∈ s.past, ∀ d ∈ session.sent, d.Sound pid profile

namespace Sends

variable {pid : UInt32} {profile : Profile} {s : Reporting}

theorem boot (pid : UInt32) (profile : Profile) : Sends pid profile (boot pid profile) :=
  ⟨rfl, rfl, sound_init 0, fun _ hd => absurd hd List.not_mem_nil,
    fun _ hs => absurd hs List.not_mem_nil⟩

theorem attach (h : Sends pid profile s) (startedAtMs : UInt64) :
    Sends pid profile (s.attach startedAtMs) := by
  refine ⟨h.samePid, h.sameProfile, ?_, h.sent, h.past⟩
  rw [Reporting.attach, h.samePid, h.sameProfile]
  exact sound_init startedAtMs

theorem writeStats (h : Sends pid profile s) (facts : StatsFacts) :
    Sends pid profile (s.writeStats facts) := by
  have hstats := h.stats.refresh facts
  rw [Reporting.writeStats]
  split
  · refine ⟨h.samePid, h.sameProfile, hstats, fun d hd => ?_, h.past⟩
    rcases List.mem_append.mp hd with hd | hd
    · exact h.sent d hd
    · obtain rfl := List.mem_singleton.mp hd
      exact ⟨⟨_, _, by rw [h.samePid, h.sameProfile]⟩, hstats⟩
  · exact ⟨h.samePid, h.sameProfile, ⟨hstats.pid, hstats.profile, hstats.batches, hstats.average⟩,
      h.sent, h.past⟩

theorem pass (h : Sends pid profile s) (rings : Rings) : Sends pid profile (s.pass rings) :=
  ⟨h.samePid, h.sameProfile, h.stats.pass rings, h.sent, h.past⟩

theorem reap (h : Sends pid profile s) (restart : Bool) : Sends pid profile (s.reap restart) := by
  refine ⟨h.samePid, h.sameProfile, h.stats, fun d hd => absurd hd List.not_mem_nil,
    fun session hs => ?_⟩
  rcases List.mem_append.mp hs with hs | hs
  · exact h.past session hs
  · obtain rfl := List.mem_singleton.mp hs
    exact h.sent

/-- A step that sends nothing and leaves the scheduler alone. -/
theorem keep (h : Sends pid profile s) {s' : Reporting}
    (hs : (s'.pid, s'.profile, s'.passes, s'.sched, s'.session.sent, s'.past) =
      (s.pid, s.profile, s.passes, s.sched, s.session.sent, s.past)) : Sends pid profile s' := by
  simp only [Prod.mk.injEq] at hs
  obtain ⟨hpid, hprofile, hpasses, hsched, hsent, hpast⟩ := hs
  refine ⟨hpid.trans h.samePid, hprofile.trans h.sameProfile, ?_, ?_, ?_⟩
  · rw [hpasses, hsched]
    exact h.stats
  · rw [hsent]
    exact h.sent
  · rw [hpast]
    exact h.past

theorem step (h : Sends pid profile s) (event : Event) : Sends pid profile (s.step event) := by
  cases event with
  | attach ok startedAtMs =>
    rw [Reporting.step]
    split
    · split
      · exact h.attach startedAtMs
      · exact h.keep rfl
    · exact h
  | writeStats facts =>
    rw [Reporting.step]
    split
    · exact (h.writeStats facts).keep rfl
    · exact (h.writeStats facts).keep rfl
    · exact h
  | pass rings =>
    rw [Reporting.step]
    split
    · exact h.pass rings
    · exact h
  | reap =>
    rw [Reporting.step]
    split
    · exact h.reap _
    · exact h
  | fail => exact h.keep rfl
  | receive =>
    rw [Reporting.step]
    split
    · unfold Reporting.receive
      split
      · exact h.keep rfl
      · split <;> exact h.keep rfl
    · exact h
  | observe state =>
    rw [Reporting.step]
    split
    · unfold Reporting.observe
      split
      · exact h.keep rfl
      · split <;> exact h.keep rfl
    · exact h
  | start ok | writeStopped ok state nowSecs exitError | putStatus ok | putStats ok =>
    rw [Reporting.step]
    split
    · split <;> exact h.keep rfl
    · exact h
  | exit restart | kill =>
    rw [Reporting.step]
    split
    · exact h.keep rfl
    · exact h

theorem run (h : Sends pid profile s) (events : List Event) :
    Sends pid profile (s.run events) := by
  induction events generalizing s with
  | nil => exact h
  | cons event events ih => exact ih (h.step event)

/-- What would be published now. -/
theorem published (h : Sends pid profile s) (facts : StatsFacts) :
    Genuine pid profile ⟨runningStatus pid profile s.sched.startedAtMs facts.nowSecs,
      s.sched.refreshStats facts⟩ :=
  ⟨⟨_, _, rfl⟩, (h.stats.refresh facts).pid, (h.stats.refresh facts).profile⟩

theorem sound (h : Sends pid profile s) {session : Session} (hs : session ∈ s.past ++ [s.session])
    {d : Datagram} (hd : d ∈ session.sent) : d.Sound pid profile := by
  rcases List.mem_append.mp hs with hs | hs
  · exact h.past session hs d hd
  · obtain rfl := List.mem_singleton.mp hs
    exact h.sent d hd

end Sends

/-- What the scheduler publishes in any state that it comes to, and what its sockets have accepted,
    is genuine, and its average is computed until the count of batches can be zero again. A genuine
    snapshot fits: the scheduler hears of the socket only, and the child's buffer cuts nothing off.
    What the child can read it reads as it was, with the pid of its parent; a round that finds such
    snapshots, and any interruptions, ends with the latest. -/
theorem snapshots_accepted [Codec] [CompactCodec 32] (pid : UInt32) (profile : Profile) :
    (∀ events : List Event,
      let s := (Reporting.boot pid profile).run events
      (∀ (facts : StatsFacts) (send : List UInt8 → Except IoError ℕ),
        let stats := s.sched.refreshStats facts
        let snapshot := ⟨runningStatus pid profile s.sched.startedAtMs facts.nowSecs, stats⟩
        Genuine pid profile snapshot ∧ (s.passes < 2 ^ 64 → Averaged stats) ∧
        publish send pid profile s.sched.startedAtMs facts.nowSecs stats =
          sendAnswer snapshot.toVec.length (send snapshot.toVec)) ∧
      ∀ session ∈ s.past ++ [s.session], ∀ d ∈ session.sent,
        Genuine pid profile d.snapshot ∧ (d.passes < 2 ^ 64 → Averaged d.snapshot.stats)) ∧
    (∀ snapshot, Genuine pid profile snapshot →
      snapshot.toVec.length ≤ maxSnapshot ∧
      (∀ send, sendSnapshot send snapshot.toVec =
        sendAnswer snapshot.toVec.length (send snapshot.toVec)) ∧
      snapshot.toVec.take maxSnapshot = snapshot.toVec ∧
      snapshot.status.pid = pid ∧ snapshot.stats.pid = pid ∧
      (Readable snapshot →
        (Codec.fromSlice snapshot.toVec).bind Snapshot.ofValue = some snapshot)) ∧
    ∀ received : List (Option Snapshot),
      (∀ snapshot, some snapshot ∈ received →
        Genuine pid profile snapshot ∧ Readable snapshot) →
      round pid (received.map recv) = .ok received.reduceOption.getLast? := by
  refine ⟨fun events => ?_, fun snapshot h => ?_, fun received h => round_genuine h⟩
  · have hsends := (Sends.boot pid profile).run events
    refine ⟨fun facts send => ⟨hsends.published facts, (hsends.stats.refresh facts).average,
      publish_genuine send (hsends.published facts)⟩, fun session hs d hd => ?_⟩
    have hd := hsends.sound hs hd
    exact ⟨hd.genuine, hd.stats.average⟩
  · have htake := List.take_of_length_le h.length_le
    refine ⟨h.length_le, fun send => if_neg (Nat.not_lt.mpr h.length_le), htake, h.pids.1,
      h.pids.2, fun hr => ?_⟩
    have hread := h.decode hr
    rwa [htake] at hread

section Example

/-- A printer of doubles that is exact for zero. -/
def shortText (x : Float) : List Char :=
  if x == 0.0 then ['0', '.', '0'] else (toString x).toList.take 32

theorem length_shortText (x : Float) : (shortText x).length ≤ 32 := by
  rw [shortText]
  split
  · decide
  · exact List.length_take_le 32 _

/-- The first snapshot of a scheduler. -/
def firstReport : Snapshot where
  status := runningStatus 700 .balanced 4900 5
  stats := (Scheduler.init 700 4900 .balanced).refreshStats atStart

/-- A codec that knows the text of that snapshot. -/
@[reducible] def reportCodec : Codec := { floatCodec shortText with
  fromSlice bytes :=
    if bytes = utf8 (printWith shortText firstReport.toValue) then some firstReport.toValue
    else textCodec.fromSlice bytes }

@[reducible] def reportCodec_compact : @CompactCodec 32 reportCodec :=
  @CompactCodec.mk 32 reportCodec shortText (fun x _ => length_shortText x) fun _ => rfl

theorem reportCodec_readsBack : @ReadsBack reportCodec firstReport.toValue := fun _ _ => if_pos rfl

/-- The one snapshot of a run is sent whole and read after an interruption. -/
theorem firstReport_accepted :
    ((boot 700 .balanced).run oneReport).past.map
      (fun session => session.sent.map Datagram.snapshot) = [[firstReport]] ∧
    (@Snapshot.toVec reportCodec firstReport).length ≤ maxSnapshot ∧
    @round reportCodec 700 ([none, some firstReport].map (@recv reportCodec)) =
      .ok (some firstReport) := by
  obtain ⟨hrun, hsend, hround⟩ :=
    @snapshots_accepted reportCodec reportCodec_compact 700 .balanced
  obtain ⟨hg, haverage⟩ :=
    (hrun oneReport).2 _ List.mem_cons_self ⟨firstReport, 0⟩ List.mem_cons_self
  refine ⟨rfl, (hsend firstReport hg).1, hround [none, some firstReport] fun snapshot hs => ?_⟩
  obtain rfl : snapshot = firstReport := by simpa using hs
  exact ⟨hg, @Readable.mk reportCodec _ (haverage (by decide)) reportCodec_readsBack⟩

end Example

end Reporting

end CerynthOS.Scx
