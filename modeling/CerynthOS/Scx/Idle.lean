import CerynthOS.Scx.Live

/-! The idle CPUs.

    For `Live` the answer of `pick_idle_cpu` is open. Here it is traced to the mask of idle CPUs that
    the kernel keeps: a CPU that is picked may be taken off the mask, and it comes back only when it
    wakes up and goes to sleep again. So a CPU that is picked and then not woken would be lost to
    every later search. Which CPU a search of the kernel answers with is left open, also whether it
    is idle. -/

namespace CerynthOS.Scx
open Kernel

/-! ### CPUs -/

/-- What the scheduler finds out about the CPUs and the kernel when it is loaded. -/
structure Topology where
  smtEnabled : Bool
  numaLocal : Bool
  hasPickIdleCpuNode : Bool
  hasSelectCpuAnd : Bool
  llcId : Int32 → UInt32
  priority : Int32 → UInt64

/-- The mask of idle CPUs, the CPUs that sleep and those that a wake-up is on its way to. -/
structure Cpus where
  idle : Int32 → Bool
  asleep : Int32 → Bool
  woken : Int32 → Bool

def eBusy : Int32 := -16

theorem not_le_eBusy : ¬ (0 : Int32) ≤ eBusy := by decide

namespace Cpus

def claim (c : Cpus) (cpu : Int32) : Cpus := { c with idle := Function.update c.idle cpu false }

/-- A CPU has nothing to do. -/
def sleep (c : Cpus) (cpu : Int32) : Cpus :=
  { c with
    idle := Function.update c.idle cpu true
    asleep := Function.update c.asleep cpu true }

/-- A CPU leaves its sleep, for a wake-up or for anything else. -/
def rise (c : Cpus) (cpu : Int32) : Cpus where
  idle := Function.update c.idle cpu false
  asleep := Function.update c.asleep cpu false
  woken := Function.update c.woken cpu false

/-- Wake-ups are sent, which mean nothing to a CPU that does not sleep. -/
def wake (c : Cpus) (cpus : List Int32) : Cpus :=
  { c with woken := fun cpu => c.woken cpu || (c.asleep cpu && cpus.contains cpu) }

/-- `scx_bpf_test_and_clear_cpu_idle`. -/
def testAndClearCpuIdle (c : Cpus) (cpu : Int32) : Bool × Cpus :=
  if 0 ≤ cpu && c.idle cpu then (true, c.claim cpu) else (false, c)

end Cpus

/-- The answer of a search of the kernel. The CPU need not be idle, or even online; `claimed` is
    whether the search has taken it off the mask. -/
structure Found where
  cpu : Int32
  valid : 0 ≤ cpu
  claimed : Bool

namespace Cpus

/-- `scx_bpf_select_cpu_and`, `scx_bpf_select_cpu_dfl`, `scx_bpf_pick_idle_cpu` and
    `scx_bpf_pick_idle_cpu_node`, as far as they change the mask: no CPU is taken off it but the one
    that is the answer. -/
def search (c : Cpus) : Option Found → Int32 × Cpus
  | none => (eBusy, c)
  | some found => (found.cpu, if found.claimed then c.claim found.cpu else c)

end Cpus

/-! ### main.bpf.c -/

/-- What one call of `pick_idle_cpu` sees of the kernel. -/
structure Ask where
  thisCpu : Int32
  numaNode : Int32
  smtIdle : Int32 → Bool
  found : Option Found

namespace Topology

variable (top : Topology)

/-- `cpus_share_cache`. -/
def cpusShareCache (thisCpu thatCpu : Int32) : Bool :=
  thisCpu == thatCpu || top.llcId thisCpu == top.llcId thatCpu

/-- `is_cpu_faster`. -/
def isCpuFaster (thisCpu thatCpu : Int32) : Bool :=
  thisCpu != thatCpu && decide (top.priority thisCpu > top.priority thatCpu)

/-- `is_smt_idle`. -/
def isSmtIdle (ask : Ask) (cpu : Int32) : Bool := !top.smtEnabled || ask.smtIdle cpu

/-- `is_wakeup`; the flag is `SCX_WAKE_TTWU`. -/
def isWakeup (wakeFlags : UInt64) : Bool := wakeFlags &&& 8 != 0

/-- The end of `pick_idle_cpu`: the kernel searches, near the preferred node or near a CPU. -/
def searchIdleCpu (c : Cpus) (wakeFlags : UInt64) (ask : Ask) : Int32 × Cpus :=
  if top.numaLocal && top.hasPickIdleCpuNode && ask.numaNode != -1 then c.search ask.found
  else if !top.hasSelectCpuAnd && wakeFlags == 0 then (eBusy, c)
  else c.search ask.found

/-- `pick_idle_cpu`. -/
def pickIdleCpu (c : Cpus) (p : Task) (nrCpusAllowed : UInt64) (prevCpu : Int32)
    (wakeFlags : UInt64) (ask : Ask) : Int32 × Cpus :=
  if nrCpusAllowed == 1 then
    let (idle, c) := c.testAndClearCpuIdle prevCpu
    (if idle then prevCpu else eBusy, c)
  else if isWakeup wakeFlags && top.isCpuFaster ask.thisCpu prevCpu && p.cpusPtr ask.thisCpu then
    let (stays, c) := if top.cpusShareCache ask.thisCpu prevCpu && top.isSmtIdle ask prevCpu then
      c.testAndClearCpuIdle prevCpu else (false, c)
    if stays then (prevCpu, c) else top.searchIdleCpu c wakeFlags ask
  else top.searchIdleCpu c wakeFlags ask

end Topology

/-- The host in the middle of things, with its CPUs. -/
structure Idling extends Live where
  cpus : Cpus

namespace Idling

/-- What happens next. `other` is any event without a search for an idle CPU. -/
inductive Event where
  | sleeps (cpu : Int32)
  | rises (cpu : Int32)
  | selectCpu (pid prevCpu : Int32) (wakeFlags nrCpusAllowed : UInt64) (ask : Ask)
  | enqueue (pid : Int32) (flags : UInt64) (facts : EnqueueFacts) (ask : Ask)
  | handOver (found : Option Found)
  | other (event : Live.Event)

variable (ro : Rodata) (top : Topology)

/-- A step of the scheduler; the CPUs that it kicks are on their way. -/
def settle (s : Idling) (live : Live) (cpus : Cpus) : Idling :=
  ⟨live, cpus.wake (live.kernel.kicked.drop s.kernel.kicked.length)⟩

/-- The previous CPU, or one that the task can use. -/
def usableCpu (p : Task) (thisCpu prevCpu : Int32) : Int32 :=
  if !p.cpusPtr prevCpu then
    if p.cpusPtr thisCpu then thisCpu else firstCpu p.cpusPtr else prevCpu

/-- `rustland_select_cpu`; the kernel wakes the CPU that it returns. -/
def selectCpu (s : Idling) (pid : Int32) (p : Task) (prevCpu : Int32)
    (wakeFlags nrCpusAllowed : UInt64) (ask : Ask) : Idling :=
  let (idle, cpus) := if pid ≠ ro.userschedPid && ro.builtinIdle then
      top.pickIdleCpu s.cpus p nrCpusAllowed (usableCpu p ask.thisCpu prevCpu) wakeFlags ask
    else (eBusy, s.cpus)
  let (cpu, host) := s.toHost.selectCpu ro pid p ask.thisCpu prevCpu idle
  s.settle (s.toLive.setHost host) (cpus.wake [cpu])

/-- Whether `rustland_enqueue` looks for an idle CPU. -/
def looksForIdle (pid : Int32) (facts : EnqueueFacts) : Bool :=
  pid ≠ ro.userschedPid &&
  !((facts.kthread && facts.nrCpusAllowed == 1) || facts.kswapd ||
    (ro.khugepagedPid ≠ 0 && pid = ro.khugepagedPid)) &&
  (ro.builtinIdle && facts.wakeup)

/-- `rustland_enqueue`. -/
def enqueue (s : Idling) (pid : Int32) (p : Task) (flags : UInt64) (facts : EnqueueFacts)
    (ask : Ask) : Idling :=
  let (idle, cpus) := if looksForIdle ro pid facts then
      top.pickIdleCpu s.cpus p facts.nrCpusAllowed p.cpu 0 ask
    else (eBusy, s.cpus)
  s.settle (s.toLive.setHost (s.toHost.enqueue ro pid p flags { facts with idle := idle })) cpus

/-- The task of a record for any CPU, if it cannot use its previous one: `kick_task_cpu` looks for an
    idle CPU. -/
def strayTask (s : Idling) : Option Task :=
  match s.draining, s.ring.pending with
  | some drain, task :: _ =>
    if drain.stopped then none
    else (s.kernel.tasks task.pid).filter fun p => task.cpu = rlCpuAny && !p.cpusPtr p.cpu
  | _, _ => none

/-- The callback of the drain. -/
def handOver (s : Idling) (found : Option Found) : Idling :=
  match s.strayTask with
  | none => s.settle (s.toLive.handOver fun _ => eBusy) s.cpus
  | some _ =>
    let (idle, cpus) := s.cpus.search found
    s.settle (s.toLive.handOver fun _ => idle) cpus

def step (s : Idling) : Event → Idling
  | .sleeps cpu => { s with cpus := s.cpus.sleep cpu }
  | .rises cpu => { s with cpus := s.cpus.rise cpu }
  | .selectCpu pid prevCpu wakeFlags nrCpusAllowed ask =>
    match s.enabledTask pid with
    | none => s
    | some p => s.selectCpu ro top pid p prevCpu wakeFlags nrCpusAllowed ask
  | .enqueue pid flags facts ask =>
    match s.enabledTask pid with
    | none => s
    | some p => s.enqueue ro top pid p flags facts ask
  | .handOver found => s.handOver found
  | .other event =>
    match event with
    | .selectCpu .. | .enqueue .. | .handOver .. => s
    | event => s.settle (s.toLive.step ro event) s.cpus

def run (s : Idling) (events : List Event) : Idling := events.foldl (step ro top) s

/-- The scheduler has been loaded; the kernel takes every CPU that is online for idle. -/
def boot (pid : UInt32) (startedAtMs : UInt64) (profile : Profile) (online busy : Int32 → Bool) :
    Idling where
  toLive := .boot pid startedAtMs profile
  cpus :=
    { idle := online
      asleep := fun cpu => online cpu && !busy cpu
      woken := fun _ => false }

end Idling

/-! ### What a search finds -/

namespace Cpus

/-- No CPU is taken off the mask but the one that is the answer. -/
def Picked (c : Cpus) (result : Int32 × Cpus) : Prop :=
  result.2 = c ∨ 0 ≤ result.1 ∧ result.2 = c.claim result.1

/-- A CPU that sleeps can be found, or it will wake up. -/
def NoneLost (c : Cpus) : Prop := ∀ cpu, c.asleep cpu → c.idle cpu ∨ c.woken cpu

theorem testAndClearCpuIdle_cases (c : Cpus) (cpu : Int32) :
    c.testAndClearCpuIdle cpu = (false, c) ∨
    c.testAndClearCpuIdle cpu = (true, c.claim cpu) ∧ 0 ≤ cpu := by
  rw [testAndClearCpuIdle]
  split_ifs with h
  · simp only [Bool.and_eq_true, decide_eq_true_eq] at h
    exact Or.inr ⟨rfl, h.1⟩
  · exact Or.inl rfl

theorem testAndClearCpuIdle_picked (c : Cpus) (cpu : Int32) :
    c.Picked (if (c.testAndClearCpuIdle cpu).1 then cpu else eBusy,
      (c.testAndClearCpuIdle cpu).2) := by
  rcases c.testAndClearCpuIdle_cases cpu with h | ⟨h, hle⟩
  · exact Or.inl (by rw [h])
  · exact Or.inr (by simpa [h] using hle)

theorem search_picked (c : Cpus) (found : Option Found) : c.Picked (c.search found) := by
  cases found with
  | none => exact Or.inl rfl
  | some found =>
    rw [search]
    split_ifs
    · exact Or.inr ⟨found.valid, rfl⟩
    · exact Or.inl rfl

/-- The CPU that is picked, if any, is among those that are then woken. -/
def Serves (c c' : Cpus) : Prop :=
  ∃ (result : Int32 × Cpus) (cpus : List Int32), c.Picked result ∧
    (0 ≤ result.1 → result.1 ∈ cpus) ∧ c' = result.2.wake cpus

@[simp] theorem wake_nil (c : Cpus) : c.wake [] = c := by
  simp [wake]

theorem wake_wake (c : Cpus) (cpus later : List Int32) :
    (c.wake cpus).wake later = c.wake (cpus ++ later) := by
  simp [wake, Bool.and_or_distrib_left, Bool.or_assoc]

theorem serves_wake (c : Cpus) (cpus : List Int32) : c.Serves (c.wake cpus) :=
  ⟨(eBusy, c), cpus, Or.inl rfl, fun hle => absurd hle not_le_eBusy, rfl⟩

theorem serves_self (c : Cpus) : c.Serves c := by
  simpa using c.serves_wake []

theorem Serves.wake {c c' : Cpus} (h : c.Serves c') (cpus : List Int32) :
    c.Serves (c'.wake cpus) := by
  obtain ⟨result, first, hpicked, hmem, rfl⟩ := h
  rw [wake_wake]
  exact ⟨result, first ++ cpus, hpicked, fun hle => List.mem_append_left _ (hmem hle), rfl⟩

namespace NoneLost

variable {c : Cpus}

theorem sleep (h : c.NoneLost) (cpu : Int32) : (c.sleep cpu).NoneLost := by
  intro other hasleep
  by_cases hother : other = cpu
  · exact Or.inl (by simp [Cpus.sleep, hother])
  · have hbefore : c.asleep other := by simpa [Cpus.sleep, hother] using hasleep
    rcases h other hbefore with hidle | hwoken
    · exact Or.inl (by simpa [Cpus.sleep, hother] using hidle)
    · exact Or.inr hwoken

theorem rise (h : c.NoneLost) (cpu : Int32) : (c.rise cpu).NoneLost := by
  intro other hasleep
  by_cases hother : other = cpu
  · simp [Cpus.rise, hother] at hasleep
  · have hbefore : c.asleep other := by simpa [Cpus.rise, hother] using hasleep
    rcases h other hbefore with hidle | hwoken
    · exact Or.inl (by simpa [Cpus.rise, hother] using hidle)
    · exact Or.inr (by simpa [Cpus.rise, hother] using hwoken)

/-- A CPU that was picked and then woken is not lost. -/
theorem serves (h : c.NoneLost) {c' : Cpus} (hserves : c.Serves c') : c'.NoneLost := by
  obtain ⟨result, cpus, hpicked, hmem, rfl⟩ := hserves
  intro cpu hasleep
  rcases hpicked with hsame | ⟨hle, hclaim⟩
  · rw [hsame] at hasleep ⊢
    rcases h cpu hasleep with hidle | hwoken
    · exact Or.inl hidle
    · exact Or.inr (by simp [Cpus.wake, hwoken])
  · rw [hclaim] at hasleep ⊢
    have hbefore : c.asleep cpu = true := hasleep
    by_cases hcpu : cpu = result.1
    · have hwakes : cpu ∈ cpus := hcpu ▸ hmem hle
      exact Or.inr (by simp [Cpus.wake, Cpus.claim, hbefore, hwakes])
    · rcases h cpu hbefore with hidle | hwoken
      · exact Or.inl (by simpa [Cpus.wake, Cpus.claim, hcpu] using hidle)
      · exact Or.inr (by simp [Cpus.wake, Cpus.claim, hwoken])

end NoneLost

end Cpus

namespace Topology

variable (top : Topology)

theorem searchIdleCpu_picked (c : Cpus) (wakeFlags : UInt64) (ask : Ask) :
    c.Picked (top.searchIdleCpu c wakeFlags ask) := by
  rw [searchIdleCpu]
  split_ifs
  · exact c.search_picked ask.found
  · exact Or.inl rfl
  · exact c.search_picked ask.found

/-- Through every branch `pick_idle_cpu` takes no CPU off the mask but the one that it returns. -/
theorem pickIdleCpu_picked (c : Cpus) (p : Task) (nrCpusAllowed : UInt64) (prevCpu : Int32)
    (wakeFlags : UInt64) (ask : Ask) :
    c.Picked (top.pickIdleCpu c p nrCpusAllowed prevCpu wakeFlags ask) := by
  have hpicked := top.searchIdleCpu_picked c wakeFlags ask
  rw [pickIdleCpu]
  split_ifs with hone hnear hstay
  · exact c.testAndClearCpuIdle_picked prevCpu
  · rcases c.testAndClearCpuIdle_cases prevCpu with h | ⟨h, hle⟩
    · rw [h]
      exact hpicked
    · rw [h]
      exact Or.inr ⟨hle, rfl⟩
  · exact hpicked
  · exact hpicked

end Topology

/-! ### The host among its CPUs -/

/-- A step is one of the host in the middle of things, with the answer of the search, or none. -/
theorem Idling.step_live (ro : Rodata) (top : Topology) (s : Idling) (event : Idling.Event) :
    ∃ events, (s.step ro top event).toLive = s.toLive.run ro events := by
  cases event with
  | sleeps cpu => exact ⟨[], rfl⟩
  | rises cpu => exact ⟨[], rfl⟩
  | selectCpu pid prevCpu wakeFlags nrCpusAllowed ask =>
    simp only [Idling.step]
    cases hp : s.enabledTask pid with
    | none => exact ⟨[], rfl⟩
    | some p =>
      have hlive : ∃ idle, (s.selectCpu ro top pid p prevCpu wakeFlags nrCpusAllowed ask).toLive =
          s.toLive.setHost (s.toHost.selectCpu ro pid p ask.thisCpu prevCpu idle).2 := ⟨_, rfl⟩
      obtain ⟨idle, hlive⟩ := hlive
      exact ⟨[.selectCpu pid ask.thisCpu prevCpu idle], by simp [hlive, Live.run, Live.step, hp]⟩
  | enqueue pid flags facts ask =>
    simp only [Idling.step]
    cases hp : s.enabledTask pid with
    | none => exact ⟨[], rfl⟩
    | some p =>
      have hlive : ∃ idle, (s.enqueue ro top pid p flags facts ask).toLive =
          s.toLive.setHost (s.toHost.enqueue ro pid p flags { facts with idle := idle }) := ⟨_, rfl⟩
      obtain ⟨idle, hlive⟩ := hlive
      exact ⟨[.enqueue pid flags { facts with idle := idle }], by
        simp [hlive, Live.run, Live.step, hp]⟩
  | handOver found =>
    simp only [Idling.step, Idling.handOver]
    cases s.strayTask with
    | none => exact ⟨[.handOver fun _ => eBusy], rfl⟩
    | some p => exact ⟨[.handOver fun _ => (s.cpus.search found).1], rfl⟩
  | other event =>
    have hlive : (s.step ro top (.other event)).toLive = s.toLive ∨
        (s.step ro top (.other event)).toLive = s.toLive.step ro event := by
      cases event with
      | selectCpu => exact Or.inl rfl
      | enqueue => exact Or.inl rfl
      | handOver => exact Or.inl rfl
      | _ => exact Or.inr rfl
    rcases hlive with hlive | hlive
    · exact ⟨[], hlive⟩
    · exact ⟨[event], hlive⟩

/-- Whatever holds in every run of the host holds in every run with its CPUs. -/
theorem Idling.run_live (ro : Rodata) (top : Topology) (s : Idling) (events : List Idling.Event) :
    ∃ live, (s.run ro top events).toLive = s.toLive.run ro live := by
  induction events generalizing s with
  | nil => exact ⟨[], rfl⟩
  | cons event events ih =>
    obtain ⟨first, hfirst⟩ := s.step_live ro top event
    obtain ⟨rest, hrest⟩ := ih (s.step ro top event)
    refine ⟨first ++ rest, ?_⟩
    rw [Live.run_append, ← hfirst]
    exact hrest

/-! ### Who is kicked -/

namespace Kernel

@[simp] theorem cpuToDsq_kicked (k : Kernel) (cpu : Int32) :
    (k.cpuToDsq cpu).2.kicked = k.kicked := by
  rw [cpuToDsq]
  split_ifs <;> rfl

@[simp] theorem dsqInsertVtime_kicked (k : Kernel) (pid : Int32) (p : Task)
    (dsq sliceNs vtime flags : UInt64) :
    (k.dsqInsertVtime pid p dsq sliceNs vtime flags).kicked = k.kicked := by
  simp only [dsqInsertVtime]
  split_ifs <;> rfl

/-- A record for any CPU, whose task cannot use its previous one: another CPU is kicked too. -/
theorem callback_kicked (env : Env) {k : Kernel} {task : DispatchedTask} {p : Task}
    (hp : (k.elapse env).tasks task.pid = some p) (hany : task.cpu = rlCpuAny)
    (hstray : p.cpusPtr p.cpu = false) (hidle : 0 ≤ env.idleCpu (k.tick + 1) p) :
    (callback env task k).2.kicked = k.kicked ++ [p.cpu, env.idleCpu (k.tick + 1) p] := by
  have hdelivered : ((k.elapse env).deliver task).tasks task.pid = some p := hp
  have htick : ∀ dsq slice vtime flags, ((((k.elapse env).deliver task).dsqInsertVtime task.pid p
      dsq slice vtime flags).kickCpu p.cpu).tick = k.tick + 1 := by
    intro dsq slice vtime flags
    simp only [dsqInsertVtime]
    split_ifs <;> rfl
  have hlt : ¬ env.idleCpu (k.tick + 1) p < 0 := Int32.not_lt.mpr hidle
  simp only [callback, handleDispatchedTask, dispatchTask, hdelivered, hany, if_true, kickTaskCpu,
    hstray, Bool.not_false, htick, if_neg hlt]
  simp [kickCpu, deliver, elapse]

end Kernel

namespace Host

variable (ro : Rodata) (s : Host)

@[simp] theorem canDirectDispatch_kicked (cpu : Int32) :
    (s.canDirectDispatch cpu).2.kernel.kicked = s.kernel.kicked := by
  rw [canDirectDispatch]
  split_ifs
  · exact s.kernel.cpuToDsq_kicked cpu
  · rfl

@[simp] theorem directDispatch_kicked (pid : Int32) (p : Task) (cpu : Int32) (flags : UInt64) :
    (s.directDispatch ro pid p cpu flags).kernel.kicked = s.kernel.kicked :=
  s.kernel.cpuToDsq_kicked cpu

@[simp] theorem queueTaskToUserspace_kicked (pid : Int32) (p : Task) (prevCpu : Int32)
    (flags : UInt64) (facts : EnqueueFacts) :
    (s.queueTaskToUserspace ro pid p prevCpu flags facts).kernel.kicked = s.kernel.kicked := by
  rw [queueTaskToUserspace]
  cases p.ctx with
  | none => rfl
  | some ctx =>
    dsimp only
    split_ifs <;> rfl

@[simp] theorem kickIf_true_kicked (cpu : Int32) :
    (s.kickIf true cpu).kernel.kicked = s.kernel.kicked ++ [cpu] := rfl

/-- Whatever becomes of the task, the CPU that was picked for it is kicked. -/
theorem enqueue_kicked {pid : Int32} (facts : EnqueueFacts)
    (hlooks : Idling.looksForIdle ro pid facts = true) (hidle : 0 ≤ facts.idle) (p : Task)
    (flags : UInt64) :
    (s.enqueue ro pid p flags facts).kernel.kicked = s.kernel.kicked ++ [facts.idle] := by
  simp only [Idling.looksForIdle, Bool.and_eq_true, Bool.not_eq_true', decide_eq_true_eq] at hlooks
  obtain ⟨⟨huser, hkernel⟩, hwakeup⟩ := hlooks
  have hlt : ¬ facts.idle < 0 := Int32.not_lt.mpr hidle
  rw [enqueue]
  simp only [if_neg huser, hkernel, hwakeup.1, hwakeup.2, Bool.and_self, Bool.not_true,
    Bool.false_eq_true, if_false, if_neg hlt]
  split_ifs <;> simp

end Host

/-! ### No CPU is lost -/

namespace Idling

variable {ro : Rodata} {top : Topology} {s : Idling}

theorem serves_selectCpu (pid : Int32) (p : Task) (prevCpu : Int32)
    (wakeFlags nrCpusAllowed : UInt64) (ask : Ask) :
    s.cpus.Serves (s.selectCpu ro top pid p prevCpu wakeFlags nrCpusAllowed ask).cpus := by
  simp only [selectCpu]
  refine Cpus.Serves.wake ?_ _
  split_ifs with hasks
  · simp only [ne_eq, Bool.and_eq_true, decide_not, Bool.not_eq_true',
      decide_eq_false_iff_not] at hasks
    refine ⟨_, _, top.pickIdleCpu_picked s.cpus p nrCpusAllowed
      (usableCpu p ask.thisCpu prevCpu) wakeFlags ask, fun hle => ?_, rfl⟩
    -- A CPU that was picked is the one that is returned.
    simp [Host.selectCpu, hasks.1, hasks.2, hle]
  · exact s.cpus.serves_wake _

theorem serves_enqueue (pid : Int32) (p : Task) (flags : UInt64) (facts : EnqueueFacts)
    (ask : Ask) :
    s.cpus.Serves (s.enqueue ro top pid p flags facts ask).cpus := by
  simp only [enqueue]
  split_ifs with hlooks
  · refine ⟨_, _, top.pickIdleCpu_picked s.cpus p facts.nrCpusAllowed p.cpu 0 ask,
      fun hle => ?_, rfl⟩
    have hkicked := s.toHost.enqueue_kicked ro { facts with
      idle := (top.pickIdleCpu s.cpus p facts.nrCpusAllowed p.cpu 0 ask).1 } hlooks hle p flags
    simp [Live.setHost, hkicked]
  · exact s.cpus.serves_wake _

theorem strayTask_some {p : Task} (h : s.strayTask = some p) :
    ∃ drain task rest, s.draining = some drain ∧ s.ring.pending = task :: rest ∧
      drain.stopped = false ∧ s.kernel.tasks task.pid = some p ∧ task.cpu = rlCpuAny ∧
      p.cpusPtr p.cpu = false := by
  rw [strayTask] at h
  split at h
  · next drain task rest hdrain hpending =>
    split_ifs at h with hstopped
    obtain ⟨htask, hstray⟩ := Option.filter_eq_some_iff.mp h
    simp only [Bool.and_eq_true, decide_eq_true_eq, Bool.not_eq_true'] at hstray
    exact ⟨drain, task, rest, hdrain, hpending, by simpa using hstopped, htask, hstray⟩
  · cases h

theorem serves_handOver (found : Option Found) : s.cpus.Serves (s.handOver found).cpus := by
  rw [handOver]
  cases hstray : s.strayTask with
  | none => exact s.cpus.serves_wake _
  | some p =>
    obtain ⟨drain, task, rest, hdrain, hpending, hstopped, htask, hany, hcpu⟩ :=
      strayTask_some hstray
    have hpicked := s.cpus.search_picked found
    dsimp only
    generalize s.cpus.search found = result at hpicked ⊢
    refine ⟨result, _, hpicked, fun hle => ?_, rfl⟩
    have hkicked := Kernel.callback_kicked (Live.still fun _ => result.1) (k := s.kernel) htask hany
      hcpu hle
    rw [Live.still] at hkicked
    simp [Live.handOver, hdrain, hpending, hstopped, hkicked, System.withRing, Live.still]

/-- A CPU goes to sleep or rises, or whoever is picked is woken. -/
theorem step_cpus (s : Idling) (event : Event) :
    (∃ cpu, event = .sleeps cpu ∧ (s.step ro top event).cpus = s.cpus.sleep cpu) ∨
    (∃ cpu, (s.step ro top event).cpus = s.cpus.rise cpu) ∨
    s.cpus.Serves (s.step ro top event).cpus := by
  cases event with
  | sleeps cpu => exact Or.inl ⟨cpu, rfl, rfl⟩
  | rises cpu => exact Or.inr (Or.inl ⟨cpu, rfl⟩)
  | selectCpu pid prevCpu wakeFlags nrCpusAllowed ask =>
    refine Or.inr (Or.inr ?_)
    rw [step]
    split
    · exact s.cpus.serves_self
    · exact serves_selectCpu pid _ prevCpu wakeFlags nrCpusAllowed ask
  | enqueue pid flags facts ask =>
    refine Or.inr (Or.inr ?_)
    rw [step]
    split
    · exact s.cpus.serves_self
    · exact serves_enqueue pid _ flags facts ask
  | handOver found => exact Or.inr (Or.inr (serves_handOver found))
  | other event =>
    refine Or.inr (Or.inr ?_)
    cases event with
    | selectCpu => exact s.cpus.serves_self
    | enqueue => exact s.cpus.serves_self
    | handOver => exact s.cpus.serves_self
    | _ => exact s.cpus.serves_wake _

theorem noneLost_step (h : s.cpus.NoneLost) (event : Event) :
    (s.step ro top event).cpus.NoneLost := by
  rcases s.step_cpus event with ⟨cpu, -, hsleep⟩ | ⟨cpu, hrise⟩ | hserves
  · rw [hsleep]
    exact h.sleep cpu
  · rw [hrise]
    exact h.rise cpu
  · exact h.serves hserves

theorem noneLost_run (h : s.cpus.NoneLost) (events : List Event) :
    (s.run ro top events).cpus.NoneLost := by
  induction events generalizing s with
  | nil => exact h
  | cons event events ih => exact ih (noneLost_step h event)

/-- No search ever loses a CPU: in every run a CPU that sleeps is still in the mask of idle CPUs, or
    a wake-up is on its way to it. -/
theorem none_lost (ro : Rodata) (top : Topology) (pid : UInt32) (startedAtMs : UInt64)
    (profile : Profile) (online busy : Int32 → Bool) (events : List Event) :
    ((boot pid startedAtMs profile online busy).run ro top events).cpus.NoneLost := by
  refine noneLost_run (fun cpu hasleep => Or.inl ?_) events
  exact (Bool.and_eq_true_iff.mp hasleep).1

end Idling

/-! ### Straight to a CPU -/

/-- The queue of a CPU. -/
def Kernel.dsqOf (k : Kernel) (cpu : Int32) : UInt64 := (k.cpuToDsq cpu).1

namespace Host

/-- A task was put alone in the queue of a CPU that nobody waited for. -/
structure Direct (s s' : Host) (pid cpu : Int32) : Prop where
  ahead : (s.dsq sharedDsq).waiting = [] ∧ (s.dsq (s.kernel.dsqOf cpu)).waiting = []
  alone : (s'.dsq (s.kernel.dsqOf cpu)).waiting.map (·.insertion.pid) = [pid]
  others : ∀ d, d ≠ s.kernel.dsqOf cpu → s'.dsq d = s.dsq d

variable (ro : Rodata) (s : Host)

theorem canDirectDispatch_dsq (cpu : Int32) : (s.canDirectDispatch cpu).2.dsq = s.dsq := by
  rw [canDirectDispatch]
  split_ifs <;> rfl

theorem canDirectDispatch_dsqOf (cpu : Int32) :
    (s.canDirectDispatch cpu).2.kernel.dsqOf cpu = s.kernel.dsqOf cpu := by
  rw [Kernel.dsqOf, Kernel.dsqOf, Kernel.cpuToDsq_dsq, Kernel.cpuToDsq_dsq]

theorem canDirectDispatch_true {cpu : Int32} (h : (s.canDirectDispatch cpu).1 = true) :
    (s.dsq sharedDsq).waiting = [] ∧ (s.dsq (s.kernel.dsqOf cpu)).waiting = [] := by
  rw [canDirectDispatch] at h
  split_ifs at h with hshared
  exact ⟨List.isEmpty_iff.mp hshared, List.isEmpty_iff.mp h⟩

theorem directDispatch_dsq (pid : Int32) (p : Task) (cpu : Int32) (flags : UInt64) :
    (s.directDispatch ro pid p cpu flags).dsq = Function.update s.dsq (s.kernel.dsqOf cpu)
      ((s.dsq (s.kernel.dsqOf cpu)).insert Entry.vtime
        ⟨⟨pid, s.kernel.dsqOf cpu, sliceAfter ro.sliceNs p.slice, p.dsqVtime, flags⟩, none⟩) := rfl

theorem directDispatch_direct {cpu : Int32} (h : (s.canDirectDispatch cpu).1 = true) (pid : Int32)
    (p : Task) (flags : UInt64) :
    Direct s ((s.canDirectDispatch cpu).2.directDispatch ro pid p cpu flags) pid cpu := by
  have hahead := s.canDirectDispatch_true h
  refine ⟨hahead, ?_, fun d hd => ?_⟩
  · rw [directDispatch_dsq, canDirectDispatch_dsqOf, canDirectDispatch_dsq, Function.update_self]
    simp [KeyQueue.insert, hahead.2]
  · rw [directDispatch_dsq, canDirectDispatch_dsqOf, canDirectDispatch_dsq, Function.update_of_ne hd]

theorem selectCpu_direct (pid : Int32) (p : Task) (thisCpu prevCpu idle : Int32) :
    (s.selectCpu ro pid p thisCpu prevCpu idle).2.dsq = s.dsq ∨
    0 ≤ idle ∧ (s.selectCpu ro pid p thisCpu prevCpu idle).1 = idle ∧
      Direct s (s.selectCpu ro pid p thisCpu prevCpu idle).2 pid idle := by
  simp only [selectCpu]
  by_cases huser : pid = ro.userschedPid
  · exact Or.inl (by rw [if_pos huser])
  · rw [if_neg huser]
    by_cases hbuiltin : (!ro.builtinIdle) = true
    · exact Or.inl (by rw [if_pos hbuiltin])
    · rw [if_neg hbuiltin]
      by_cases hidle : idle ≥ 0
      · rw [if_pos hidle]
        dsimp only
        split_ifs with hdirect
        · exact Or.inr ⟨hidle, rfl, s.directDispatch_direct ro hdirect pid p 0⟩
        · exact Or.inl (s.canDirectDispatch_dsq idle)
      · exact Or.inl (by rw [if_neg hidle])

/-- A task that is sent to user space is in no queue, unless the ring is full. -/
theorem queueTaskToUserspace_dsq (pid : Int32) (p : Task) (prevCpu : Int32) (flags : UInt64)
    (facts : EnqueueFacts) {d : UInt64} (h : d ≠ sharedDsq) :
    (s.queueTaskToUserspace ro pid p prevCpu flags facts).dsq d = s.dsq d := by
  rw [queueTaskToUserspace]
  cases p.ctx with
  | none => rfl
  | some ctx =>
    dsimp only
    split_ifs
    · exact Function.update_of_ne h _ _
    · rfl

theorem kickIf_dsq (wakeup : Bool) (cpu : Int32) : (s.kickIf wakeup cpu).dsq = s.dsq := by
  rw [kickIf]
  split_ifs <;> rfl

theorem enqueue_direct {pid : Int32} (facts : EnqueueFacts)
    (hlooks : Idling.looksForIdle ro pid facts = true) (p : Task) (flags : UInt64) :
    (∀ d, d ≠ sharedDsq → (s.enqueue ro pid p flags facts).dsq d = s.dsq d) ∨
    0 ≤ facts.idle ∧ Direct s (s.enqueue ro pid p flags facts) pid facts.idle := by
  simp only [Idling.looksForIdle, Bool.and_eq_true, Bool.not_eq_true', decide_eq_true_eq] at hlooks
  obtain ⟨⟨huser, hkernel⟩, hwakeup⟩ := hlooks
  rw [enqueue]
  simp only [if_neg huser, hkernel, hwakeup.1, hwakeup.2, Bool.and_self, Bool.not_true,
    Bool.false_eq_true, if_false]
  split_ifs with hlt hbusy hallowed
  · refine Or.inl fun d hd => ?_
    rw [kickIf_dsq]
    exact s.queueTaskToUserspace_dsq ro pid p p.cpu flags facts hd
  · refine Or.inl fun d hd => ?_
    rw [kickIf_dsq, queueTaskToUserspace_dsq ro _ pid p facts.idle flags facts hd,
      canDirectDispatch_dsq]
  · refine Or.inl fun d _ => ?_
    rw [kickIf_dsq, canDirectDispatch_dsq]
  · refine Or.inr ⟨Int32.not_lt.mp hlt, ?_⟩
    have hdirect := s.directDispatch_direct ro (by simpa using hbusy) pid p flags
    exact ⟨hdirect.ahead, hdirect.alone, hdirect.others⟩

end Host

theorem toNatClampNeg_lt_maxCpus {cpu : Int32} (h : 0 ≤ cpu ∧ cpu < maxCpus) :
    cpu.toNatClampNeg < 1024 := by
  have hint := Int32.lt_iff_toInt_lt.mp h.2
  have hmax : maxCpus.toInt = 1024 := by decide
  rw [Int32.toInt_eq_toNatClampNeg h.1, hmax] at hint
  exact_mod_cast hint

namespace Idling

variable {ro : Rodata} {top : Topology} {s s' : Idling}

/-- A CPU does not sleep, or a wake-up is on its way to it. -/
def Up (s : Idling) (cpu : Int32) : Prop := s.cpus.asleep cpu → s.cpus.woken cpu

/-- A task went straight to a CPU, which is up or will be. -/
structure Straight (s s' : Idling) (pid cpu : Int32) : Prop where
  valid : 0 ≤ cpu
  direct : Host.Direct s.toHost s'.toHost pid cpu
  up : s'.Up cpu

/-- A task wakes up, and is nobody that has a CPU or a queue of its own. -/
def Event.Wakes (ro : Rodata) (pid : Int32) : Event → Prop
  | selectCpu pid' _ _ _ _ => pid' = pid
  | enqueue pid' _ facts _ => pid' = pid ∧ looksForIdle ro pid facts = true
  | _ => False

theorem up_of_wake {c : Cpus} {cpus : List Int32} {cpu : Int32} (hmem : cpu ∈ cpus)
    (hasleep : (c.wake cpus).asleep cpu) : (c.wake cpus).woken cpu := by
  have hbefore : c.asleep cpu = true := hasleep
  simp [Cpus.wake, hbefore, hmem]

theorem selectCpu_straight (pid : Int32) (p : Task) (prevCpu : Int32)
    (wakeFlags nrCpusAllowed : UInt64) (ask : Ask) :
    (s.selectCpu ro top pid p prevCpu wakeFlags nrCpusAllowed ask).dsq = s.dsq ∨
    ∃ cpu, Straight s (s.selectCpu ro top pid p prevCpu wakeFlags nrCpusAllowed ask) pid cpu := by
  simp only [selectCpu]
  generalize (if (decide (pid ≠ ro.userschedPid) && ro.builtinIdle) = true then
    top.pickIdleCpu s.cpus p nrCpusAllowed (usableCpu p ask.thisCpu prevCpu) wakeFlags ask
    else (eBusy, s.cpus)) = result
  rcases s.toHost.selectCpu_direct ro pid p ask.thisCpu prevCpu result.1 with
    h | ⟨hle, hreturned, h⟩
  · exact Or.inl h
  · refine Or.inr ⟨result.1, hle, h, ?_⟩
    rw [Up, settle, Cpus.wake_wake]
    exact up_of_wake (by simp [hreturned])

theorem enqueue_straight {pid : Int32} {facts : EnqueueFacts}
    (hlooks : looksForIdle ro pid facts = true) (p : Task) (flags : UInt64) (ask : Ask) :
    (∀ d, d ≠ sharedDsq → (s.enqueue ro top pid p flags facts ask).dsq d = s.dsq d) ∨
    ∃ cpu, Straight s (s.enqueue ro top pid p flags facts ask) pid cpu := by
  simp only [enqueue, if_pos hlooks]
  generalize top.pickIdleCpu s.cpus p facts.nrCpusAllowed p.cpu 0 ask = result
  rcases s.toHost.enqueue_direct ro { facts with idle := result.1 } hlooks p flags with
    h | ⟨hle, h⟩
  · exact Or.inl h
  · have hkicked := s.toHost.enqueue_kicked ro { facts with idle := result.1 } hlooks hle p flags
    refine Or.inr ⟨result.1, hle, h, ?_⟩
    exact up_of_wake (by simp [Live.setHost, hkicked])

/-- The waking task goes to user space, or straight to a CPU. -/
theorem step_straight {pid : Int32} {event : Event} (hwakes : event.Wakes ro pid) :
    (∀ d, d ≠ sharedDsq → (s.step ro top event).dsq d = s.dsq d) ∨
    ∃ cpu, Straight s (s.step ro top event) pid cpu := by
  cases event with
  | selectCpu pid' prevCpu wakeFlags nrCpusAllowed ask =>
    obtain rfl : pid' = pid := hwakes
    rw [step]
    cases s.enabledTask pid' with
    | none => exact Or.inl fun _ _ => rfl
    | some p =>
      rcases selectCpu_straight pid' p prevCpu wakeFlags nrCpusAllowed ask with h | h
      · exact Or.inl fun d _ => congrFun h d
      · exact Or.inr h
  | enqueue pid' flags facts ask =>
    obtain ⟨rfl, hlooks⟩ := hwakes
    rw [step]
    cases s.enabledTask pid' with
    | none => exact Or.inl fun _ _ => rfl
    | some p => exact enqueue_straight hlooks p flags ask
  | _ => exact hwakes.elim

/-! ### Until the next sleep -/

/-- Only sleep brings a CPU back to the mask. -/
theorem idle_step {cpu : Int32} (h : s.cpus.idle cpu = false) {event : Event}
    (hsleeps : event ≠ .sleeps cpu) : (s.step ro top event).cpus.idle cpu = false := by
  rcases s.step_cpus event with
    ⟨other, rfl, hsleep⟩ | ⟨other, hrise⟩ | ⟨result, cpus, hpicked, -, hc⟩
  · have hother : cpu ≠ other := by
      rintro rfl
      exact hsleeps rfl
    rw [hsleep]
    simpa [Cpus.sleep, hother] using h
  · rw [hrise]
    by_cases hother : cpu = other
    · simp [Cpus.rise, hother]
    · simpa [Cpus.rise, hother] using h
  · rw [hc]
    rcases hpicked with hsame | ⟨-, hclaim⟩
    · rwa [hsame]
    · by_cases hcpu : cpu = result.1 <;> simp [Cpus.wake, hclaim, Cpus.claim, hcpu, h]

/-- Only sleep takes a CPU down. -/
theorem up_step {cpu : Int32} (h : s.Up cpu) {event : Event} (hsleeps : event ≠ .sleeps cpu) :
    (s.step ro top event).Up cpu := by
  intro hasleep
  rcases s.step_cpus event with
    ⟨other, rfl, hsleep⟩ | ⟨other, hrise⟩ | ⟨result, cpus, hpicked, -, hc⟩
  · have hother : cpu ≠ other := by
      rintro rfl
      exact hsleeps rfl
    rw [hsleep] at hasleep ⊢
    exact h (by simpa [Cpus.sleep, hother] using hasleep)
  · rw [hrise] at hasleep ⊢
    by_cases hother : cpu = other
    · simp [Cpus.rise, hother] at hasleep
    · simpa [Cpus.rise, hother] using h (by simpa [Cpus.rise, hother] using hasleep)
  · have hsame : result.2.asleep = s.cpus.asleep ∧ result.2.woken = s.cpus.woken := by
      rcases hpicked with hsame | ⟨-, hclaim⟩
      · exact ⟨by rw [hsame], by rw [hsame]⟩
      · exact ⟨by rw [hclaim, Cpus.claim], by rw [hclaim, Cpus.claim]⟩
    have hbefore : s.cpus.asleep cpu = true := by
      rwa [hc, Cpus.wake, hsame.1] at hasleep
    rw [hc]
    simp [Cpus.wake, hsame.2, h hbefore]

theorem idle_run {cpu : Int32} (h : s.cpus.idle cpu = false) {events : List Event}
    (hsleeps : Event.sleeps cpu ∉ events) : (s.run ro top events).cpus.idle cpu = false := by
  induction events generalizing s with
  | nil => exact h
  | cons event events ih =>
    simp only [List.mem_cons, not_or] at hsleeps
    exact ih (idle_step h (Ne.symm hsleeps.1)) hsleeps.2

theorem up_run {cpu : Int32} (h : s.Up cpu) {events : List Event}
    (hsleeps : Event.sleeps cpu ∉ events) : (s.run ro top events).Up cpu := by
  induction events generalizing s with
  | nil => exact h
  | cons event events ih =>
    simp only [List.mem_cons, not_or] at hsleeps
    exact ih (up_step h (Ne.symm hsleeps.1)) hsleeps.2

theorem dsqOf_valid (k : Kernel) {cpu : Int32} (h : 0 ≤ cpu ∧ cpu < maxCpus) :
    k.dsqOf cpu = cpu.toUInt32.toUInt64 ∧ cpu.toUInt32.toUInt64 ≠ sharedDsq := by
  refine ⟨?_, fun hshared => ?_⟩
  · rw [Kernel.dsqOf, Kernel.cpuToDsq_dsq, if_neg]
    rintro (hlt | hge)
    · exact Int32.not_lt.mpr h.1 hlt
    · exact Int32.not_lt.mpr hge h.2
  · have hnat := congrArg UInt64.toNat hshared
    rw [UInt32.toNat_toUInt64, Int32.toNat_toUInt32_of_le h.1] at hnat
    exact absurd hnat (toNatClampNeg_lt_maxCpus h).ne

/-- Every CPU has a queue of its own. -/
theorem eq_of_dsqOf {k : Kernel} {cpu other : Int32} (hother : 0 ≤ other)
    (hcpu : 0 ≤ cpu ∧ cpu < maxCpus) (h : cpu.toUInt32.toUInt64 = k.dsqOf other) : cpu = other := by
  by_cases hlt : other < maxCpus
  · rw [(dsqOf_valid k ⟨hother, hlt⟩).1] at h
    exact congrArg Int32.ofUInt32 (UInt32.toUInt64_inj.mp h)
  · rw [Kernel.dsqOf, Kernel.cpuToDsq_dsq, if_pos (Or.inr (Int32.not_lt.mp hlt))] at h
    exact absurd h (dsqOf_valid k hcpu).2

/-- The waking task that came into the queue of a CPU went straight to it. -/
theorem straight_of_ne {pid : Int32} {event : Event} (hwakes : event.Wakes ro pid) {cpu : Int32}
    (hcpu : 0 ≤ cpu ∧ cpu < maxCpus)
    (h : (s.step ro top event).dsq cpu.toUInt32.toUInt64 ≠ s.dsq cpu.toUInt32.toUInt64) :
    Straight s (s.step ro top event) pid cpu := by
  rcases @step_straight ro top s pid event hwakes with hsame | ⟨other, hstraight⟩
  · exact absurd (hsame _ (dsqOf_valid s.kernel hcpu).2) h
  · by_cases hqueue : cpu.toUInt32.toUInt64 = s.kernel.dsqOf other
    · exact eq_of_dsqOf hstraight.valid hcpu hqueue ▸ hstraight
    · exact absurd (hstraight.direct.others _ hqueue) h

/-- The idle CPU search is left to the kernel, over eight equal CPUs. -/
def kernelIdle : Rodata := ⟨true, 5000000, 900, 0⟩

def eightCpus : Topology := ⟨false, false, false, true, fun _ => 0, fun _ => 0⟩

/-- CPU 3 sleeps; a task joins the scheduler. -/
def oneSleeper : Idling :=
  (boot 900 0 .balanced (fun cpu => decide (0 ≤ cpu && cpu < 8)) (· != 3)).run kernelIdle eightCpus
    [.other (.initTask 1201 ⟨0, fun _ => true, 0, 0, none⟩), .other (.enable 1201)]

/-- The task wakes up, and the kernel finds CPU 3. -/
def wakesUp : Event := .selectCpu 1201 0 8 4 ⟨0, -1, fun _ => true, some ⟨3, by decide, true⟩⟩

end Idling

end CerynthOS.Scx
