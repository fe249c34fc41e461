import CerynthOS.Telemetry.Source

/-! What the rates of the telemetry are divided by.

    The time since the last sample belongs to the last call that succeeded. The counters that are
    compared belong to the last call that read them: the counters of `/proc/stat` to any call that
    got so far, even if it failed later, and the ticks of the processes to the last call that could
    list `/proc`. A rate is right as long as these calls are one. -/

namespace CerynthOS.Telemetry
open ProcTelemetrySource

namespace Reading

/-- The call reads the counters of `/proc/stat` and fails afterwards. -/
def FailsLate (r : Reading) : Prop :=
  r.timestampMs.isSome ∧ r.stat.isSome ∧ (r.loadavg = none ∨ r.meminfo = none)

def Succeeds (r : Reading) : Prop :=
  r.timestampMs.isSome ∧ r.stat.isSome ∧ r.loadavg.isSome ∧ r.meminfo.isSome

/-- The call finds this process with so many ticks. -/
def Lists (r : Reading) (pid : ℤ) (ticks : ℕ) : Prop :=
  ∃ entries, r.processes = some entries ∧ (pid, ticks) ∈ seen entries

end Reading

/-- The rates of what call `n` returns are the change since an earlier call divided by the time
    since the same call. -/
structure Dated (clkTck : ℚ) (calls : ℕ → Reading) (n : ℕ) (snapshot : SystemSnapshot) : Prop where
  contextSwitches : snapshot.contextSwitchRate ≠ 0 →
    ∃ m < n, ∃ prev cur, (calls m).stat = some prev ∧ (calls n).stat = some cur ∧
      snapshot.contextSwitchRate =
        ((cur.contextSwitches : ℚ) - prev.contextSwitches) / ((calls n).now - (calls m).now)
  processes : ∀ p ∈ snapshot.topProcesses, p.cpuPercent ≠ 0 →
    ∃ m < n, ∃ prev cur, (calls m).Lists p.pid prev ∧ (calls n).Lists p.pid cur ∧
      p.cpuPercent =
        ((cur : ℚ) - prev) / clkTck / ((calls n).now - (calls m).now) * 100

/-- A call that fails after it has read `/proc/stat` finds no earlier sample or an unchanged
    counter; a call that succeeds without a listing finds no recorded process. -/
structure Steady (source : ProcTelemetrySource) (r : Reading) : Prop where
  late : r.FailsLate →
    source.prevSampleAt = none ∨ source.prevContextSwitches = r.stat.map (·.contextSwitches)
  listed : r.Succeeds → r.processes = none → source.prevProcCpu = []

/-! ### One call -/

variable {source : ProcTelemetrySource} {r : Reading} {clkTck : ℤ} {calls : ℕ → Reading} {n : ℕ}

/-- How a call can end: before anything is recorded, after the counters are recorded, or with a
    snapshot. -/
theorem collect_cases (source : ProcTelemetrySource) (r : Reading) :
    (∃ e, source.collect r = (source, .error e)) ∨
    (∃ stat e, r.FailsLate ∧ r.stat = some stat ∧ source.collect r = (source.record stat, .error e)) ∨
    ∃ stat snapshot, r.Succeeds ∧ r.stat = some stat ∧ (source.collect r).2 = .ok snapshot ∧
      snapshot.contextSwitchRate =
        rate (source.elapsedSecs r.now) source.prevContextSwitches stat.contextSwitches ∧
      snapshot.topProcesses = (source.topProcesses (source.elapsedSecs r.now) r.processes).2 ∧
      (source.collect r).1.prevContextSwitches = some stat.contextSwitches ∧
      (source.collect r).1.prevSampleAt = some r.now ∧
      (source.collect r).1.prevProcCpu =
        (source.topProcesses (source.elapsedSecs r.now) r.processes).1.prevProcCpu ∧
      (source.collect r).1.clkTck = source.clkTck := by
  obtain ⟨now, timestampMs, stat, loadavg, meminfo, state, processes, pids, profile⟩ := r
  cases timestampMs with
  | none => exact .inl ⟨_, rfl⟩
  | some timestampMs =>
    cases stat with
    | none => exact .inl ⟨_, rfl⟩
    | some stat =>
      cases loadavg with
      | none => exact .inr (.inl ⟨stat, _, ⟨rfl, rfl, .inl rfl⟩, rfl, rfl⟩)
      | some loadavg =>
        cases meminfo with
        | none => exact .inr (.inl ⟨stat, _, ⟨rfl, rfl, .inr rfl⟩, rfl, rfl⟩)
        | some mem =>
          refine .inr (.inr ⟨stat, _, ⟨rfl, rfl, rfl, rfl⟩, rfl, rfl, rfl, ?_, ?_, rfl, ?_, ?_⟩) <;>
            cases processes <;> rfl

theorem rate_ne_zero {elapsed : ℚ} {prev : Option ℕ} {cur : ℕ} (h : rate elapsed prev cur ≠ 0) :
    0 < elapsed ∧ ∃ p, prev = some p ∧ rate elapsed prev cur = ((cur : ℚ) - p) / elapsed := by
  cases prev with
  | none => exact absurd rfl h
  | some p =>
    rw [rate] at h ⊢
    split_ifs at h ⊢ with hpos
    on_goal 2 => exact absurd rfl h
    have hlt : p ≤ cur := by
      by_contra hlt
      rw [Nat.sub_eq_zero_of_le (by omega)] at h
      simp at h
    exact ⟨hpos, p, rfl, by rw [Nat.cast_sub hlt]⟩

/-- A time that has passed is the time since the last sample. -/
theorem elapsedSecs_pos {now : ℚ} (h : 0 < source.elapsedSecs now) :
    ∃ prev, source.prevSampleAt = some prev ∧ source.elapsedSecs now = now - prev := by
  rw [elapsedSecs] at h ⊢
  cases hp : source.prevSampleAt with
  | none => rw [hp] at h; exact absurd h (by simp)
  | some prev =>
    rw [hp] at h
    simp only [Option.map_some, Option.getD_some] at h ⊢
    refine ⟨prev, rfl, max_eq_right ?_⟩
    by_contra hle
    rw [max_eq_left (not_le.mp hle).le] at h
    exact absurd h (lt_irrefl 0)

theorem mem_seen {entries : List (ℤ × Option ProcStat)} {pid : ℤ} {stat : ProcStat}
    (h : (pid, stat) ∈ readable entries) : (pid, stat.ticks) ∈ seen entries := by
  rw [seen, List.mem_reverse, List.mem_map]
  exact ⟨(pid, stat), h, rfl⟩

/-- Every sampled process was recorded before and is listed now. -/
theorem mem_topProcesses {elapsed : ℚ} {p : ProcessCpuSample}
    (h : p ∈ (source.topProcesses elapsed r.processes).2) :
    0 < elapsed ∧ ∃ prev cur, source.prevProcCpu.lookup p.pid = some prev ∧ r.Lists p.pid cur ∧
      p.cpuPercent = ((cur : ℚ) - prev) / source.clkTck / elapsed * 100 := by
  cases hentries : r.processes with
  | none => rw [hentries] at h; cases h
  | some entries =>
    rw [hentries] at h
    have hsample := (List.mergeSort_perm _ _).subset (List.mem_of_mem_take h)
    obtain ⟨⟨pid, stat⟩, hmem, hsome⟩ := List.mem_filterMap.mp hsample
    rw [cpuSample] at hsome
    cases hprev : source.prevProcCpu.lookup pid with
    | none => rw [hprev] at hsome; cases hsome
    | some prev =>
      rw [hprev] at hsome
      simp only at hsome
      split_ifs at hsome with hpos hpercent
      obtain rfl := Option.some.inj hsome
      have hlt : prev ≤ stat.ticks := by
        by_contra hlt
        rw [Nat.sub_eq_zero_of_le (by omega)] at hpercent
        simp at hpercent
      exact ⟨hpos, prev, stat.ticks, hprev, ⟨entries, hentries, mem_seen hmem⟩,
        by rw [Nat.cast_sub hlt]⟩

/-! ### Runs -/

/-- The recorded values and the last sample belong to the same earlier call. -/
structure Recorded (calls : ℕ → Reading) (n : ℕ) (source : ProcTelemetrySource) : Prop where
  contextSwitches : ∀ since, source.prevSampleAt = some since → ∃ m < n, ∃ stat,
    (calls m).stat = some stat ∧ (calls m).now = since ∧
      source.prevContextSwitches = some stat.contextSwitches
  processes : ∀ pid ticks, source.prevProcCpu.lookup pid = some ticks → ∃ m < n,
    (calls m).Lists pid ticks ∧ source.prevSampleAt = some (calls m).now

theorem recorded_new (clkTck : ℤ) (calls : ℕ → Reading) : Recorded calls 0 (new clkTck) where
  contextSwitches _ h := by cases h
  processes _ _ h := by cases h

theorem Recorded.mono (h : Recorded calls n source) : Recorded calls (n + 1) source where
  contextSwitches since hat := by
    obtain ⟨m, hm, hstat⟩ := h.contextSwitches since hat
    exact ⟨m, by omega, hstat⟩
  processes pid ticks hlookup := by
    obtain ⟨m, hm, hlist⟩ := h.processes pid ticks hlookup
    exact ⟨m, by omega, hlist⟩

/-- A steady call leaves values of one call behind. -/
theorem recorded_step (h : Recorded calls n source) (hs : Steady source (calls n)) :
    Recorded calls (n + 1) (source.collect (calls n)).1 := by
  rcases collect_cases source (calls n) with ⟨e, hc⟩ | ⟨stat, e, hlate, hstat, hc⟩ |
    ⟨stat, snapshot, hok, hstat, -, -, -, hcs, hat, hproc, -⟩
  · rw [hc]
    exact h.mono
  · -- only the counters of `/proc/stat` are new, and they are not
    rw [hc]
    refine ⟨fun since hprev => ?_, fun pid ticks hlookup => h.mono.processes pid ticks hlookup⟩
    obtain ⟨m, hm, stat', hstat', hnow, hsame⟩ := h.mono.contextSwitches since hprev
    rcases hs.late hlate with hnone | hkept
    · rw [show source.prevSampleAt = some since from hprev] at hnone
      cases hnone
    · rw [hsame, hstat, Option.map_some] at hkept
      exact ⟨m, hm, stat', hstat', hnow, hkept.symm⟩
  · refine ⟨fun since hprev => ?_, fun pid ticks hlookup => ?_⟩
    · rw [hat] at hprev
      exact ⟨n, by omega, stat, hstat, Option.some.inj hprev, hcs⟩
    · rw [hproc] at hlookup
      cases hentries : (calls n).processes with
      | none =>
        rw [hentries, topProcesses, hs.listed hok hentries] at hlookup
        cases hlookup
      | some entries =>
        rw [hentries] at hlookup
        obtain ⟨l₁, l₂, hl, -⟩ := List.lookup_eq_some_iff.mp hlookup
        have hmem : (pid, ticks) ∈ seen entries := by
          rw [show seen entries = l₁ ++ (pid, ticks) :: l₂ from hl]
          simp
        exact ⟨n, by omega, ⟨entries, hentries, hmem⟩, hat⟩

/-- In a run of steady calls the recorded values are always those of one call. -/
theorem recorded_before (hs : ∀ m < n, Steady (before clkTck calls m) (calls m)) :
    Recorded calls n (before clkTck calls n) := by
  induction n with
  | zero => exact recorded_new clkTck calls
  | succ n ih => exact recorded_step (ih fun m hm => hs m (by omega)) (hs n (by omega))

theorem clkTck_before (clkTck : ℤ) (calls : ℕ → Reading) (n : ℕ) :
    (before clkTck calls n).clkTck = (new clkTck).clkTck := by
  induction n with
  | zero => rfl
  | succ n ih =>
    rw [← ih, before]
    rcases collect_cases (before clkTck calls n) (calls n) with ⟨e, hc⟩ | ⟨stat, e, -, -, hc⟩ |
      ⟨stat, snapshot, -, -, -, -, -, -, -, -, hclk⟩
    · rw [hc]
    · rw [hc]
      rfl
    · exact hclk

/-- What a call reports from recorded values of one call is dated by that call. -/
theorem dated_of_recorded (h : Recorded calls n source) {snapshot : SystemSnapshot}
    (hok : (source.collect (calls n)).2 = .ok snapshot) :
    Dated source.clkTck calls n snapshot := by
  rcases collect_cases source (calls n) with ⟨e, hc⟩ | ⟨stat, e, -, -, hc⟩ |
    ⟨stat, snapshot', -, hstat, hok', hrate, htop, -⟩
  · rw [hc] at hok
    cases hok
  · rw [hc] at hok
    cases hok
  · obtain rfl := Except.ok.inj (hok'.symm.trans hok)
    constructor
    · intro hne
      rw [hrate] at hne ⊢
      obtain ⟨hpos, prev, hprev, heq⟩ := rate_ne_zero hne
      obtain ⟨since, hsince, helapsed⟩ := elapsedSecs_pos hpos
      obtain ⟨m, hm, stat', hstat', rfl, hcs⟩ := h.contextSwitches since hsince
      obtain rfl := Option.some.inj (hprev.symm.trans hcs)
      exact ⟨m, hm, stat', stat, hstat', hstat, by rw [heq, helapsed]⟩
    · intro p hp hne
      rw [htop] at hp
      obtain ⟨hpos, prev, cur, hprev, hlists, heq⟩ := mem_topProcesses hp
      obtain ⟨since, hsince, helapsed⟩ := elapsedSecs_pos hpos
      obtain ⟨m, hm, hlists', hat⟩ := h.processes p.pid prev hprev
      obtain rfl := Option.some.inj (hsince.symm.trans hat)
      exact ⟨m, hm, prev, cur, hlists', hlists, by rw [heq, helapsed]⟩

/-- In every run of steady calls, every rate is the change since an earlier call divided by the time
    since that call. -/
theorem rates_dated (clkTck : ℤ) (calls : ℕ → Reading) (n : ℕ)
    (hs : ∀ m < n, Steady (before clkTck calls m) (calls m)) (snapshot : SystemSnapshot)
    (hok : returned clkTck calls n = .ok snapshot) :
    Dated (new clkTck).clkTck calls n snapshot := by
  rw [← clkTck_before clkTck calls n]
  exact dated_of_recorded (recorded_before hs) hok

/-! ### Two runs -/

/-- A reading at this instant with so many context switches, and one process with so many ticks. -/
def reading (now : ℚ) (contextSwitches ticks : ℕ) : Reading where
  now := now
  timestampMs := some 0
  stat := some ⟨none, contextSwitches, 0, 0, 1⟩
  loadavg := some ⟨0, 0, 0, 1⟩
  meminfo := some ⟨1, 1, 0, 0⟩
  schedExtState := none
  processes := some [(1, some ⟨"init", ticks, 0⟩)]
  pids := some [1]
  schedulerProfile := none

/-- A load of a hundred context switches a second. Two calls cannot read `/proc/meminfo`: one before
    there is a sample, and one that finds the counter of the sample before. -/
def lateFailures : ℕ → Reading
  | 0 => { reading 0 1000 0 with meminfo := none }
  | 1 => reading 10 2000 100
  | 2 => { reading 10 2000 100 with meminfo := none }
  | _ => reading 20 3000 200

theorem lateFailures_steady (m : ℕ) (hm : m < 3) :
    Steady (before 100 lateFailures m) (lateFailures m) := by
  interval_cases m
  · exact ⟨fun _ => .inl rfl, fun h => by cases h.2.2.2⟩
  · refine ⟨?_, fun _ h => by cases h⟩
    rintro ⟨-, -, h | h⟩ <;> cases h
  · exact ⟨fun _ => .inr rfl, fun h => by cases h.2.2.2⟩

theorem lateFailures_dated : ∃ snapshot, returned 100 lateFailures 3 = .ok snapshot ∧
    Dated (new 100).clkTck lateFailures 3 snapshot ∧ snapshot.contextSwitchRate = 100 := by
  refine ⟨_, rfl, rates_dated 100 lateFailures 3 lateFailures_steady _ rfl, ?_⟩
  change rate (max 0 ((20 : ℚ) - 10)) (some 2000) 3000 = 100
  norm_num [rate]

/-- The same load, and a call that cannot read `/proc/meminfo` a second before the last one. -/
def nineSeconds : ℕ → Reading
  | 0 => reading 0 1000 0
  | 1 => { reading 9 1900 90 with meminfo := none }
  | _ => reading 10 2000 100

/-- The last call divides the change of one second by the time of ten. -/
theorem late_failure_undated : ¬ ∀ (clkTck : ℤ) (calls : ℕ → Reading) (n : ℕ)
    (snapshot : SystemSnapshot), returned clkTck calls n = .ok snapshot →
    Dated (new clkTck).clkTck calls n snapshot := by
  intro h
  obtain ⟨snapshot, hok, hrate⟩ : ∃ snapshot, returned 100 nineSeconds 2 = .ok snapshot ∧
      snapshot.contextSwitchRate = 10 := by
    refine ⟨_, rfl, ?_⟩
    change rate (max 0 ((10 : ℚ) - 0)) (some 1900) 2000 = 10
    norm_num [rate]
  have hdated := (h 100 nineSeconds 2 snapshot hok).contextSwitches (by rw [hrate]; norm_num)
  rw [hrate] at hdated
  obtain ⟨m, hm, prev, cur, hprev, hcur, heq⟩ := hdated
  obtain rfl := Option.some.inj hcur
  interval_cases m <;> obtain rfl := Option.some.inj hprev <;>
    norm_num [nineSeconds, reading] at heq

end CerynthOS.Telemetry
