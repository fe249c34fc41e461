import CerynthOS.Schemes.Lifecycle
import CerynthOS.Schemes.Program

/-! Memory around the BPF scheduler.

    Memory is locked before the scheduler is attached and unlocked after it has been detached. While
    a scheduler is initialised a guard answers for the unlock, and from then on the scheduler does,
    when it is dropped. Every call may fail or panic. -/

open Std.Do

set_option mvcgen.warning false

namespace CerynthOS.Scx
open Lifecycle

namespace Preparation

/-! ### The machine -/

/-- How a call of a library ends. -/
inductive Outcome where
  | ok
  | error
  | panic
  deriving DecidableEq

/-- How a program ends that does not return. -/
inductive Failure where
  | error
  | panic
  deriving DecidableEq

inductive Event where
  | lockMemory
  | prepared
  | attached
  | linkDropped
  | unlockMemory
  | reporterDropped
  deriving DecidableEq

/-- How the next call ends and, where it reports the exit of a scheduler, whether it is to be
    restarted. -/
structure Move where
  outcome : Outcome := .ok
  shouldRestart : Bool := false

/-- The environment's moves, the guard, whether the scheduler holds a link, and what happened. -/
structure Machine where
  moves : ℕ → Move
  calls : ℕ := 0
  armed : Bool := false
  structOps : Bool := false
  log : List Event := []

abbrev Step (α : Type) := Prog Machine Failure α

def Machine.record (m : Machine) (e : Event) : Machine := { m with log := m.log ++ [e] }

def record (e : Event) : Step Unit := modify fun m => m.record e

/-- A call whose error is returned. -/
def fallible : Step Move := do
  let m ← get
  let move := m.moves m.calls
  set { m with calls := m.calls + 1 }
  match move.outcome with
  | .ok => return move
  | .error => throw .error
  | .panic => throw .panic

/-- A call whose error is a panic. -/
def expected : Step Unit := do
  let m ← get
  let move := m.moves m.calls
  set { m with calls := m.calls + 1 }
  if move.outcome ≠ .ok then throw .panic

/-! ### The scheduler -/

/-- `Drop` for `MemoryPreparation`. -/
def MemoryPreparation.drop (m : Machine) : Machine :=
  if m.armed then { m with armed := false }.record .unlockMemory else m

/-- `prepare_then_attach`. -/
def prepareThenAttach {P L : Type} (prepare : Step P) (attach : Step L) : Step (P × L) := do
  let prepared ← prepare
  record .prepared
  let link ← attach
  return (prepared, link)

namespace BpfScheduler

/-- What is done before the scheduler is attached. `inPart` switches only some tasks to it. -/
def prepare (inPart : Bool) : Step Unit := do
  -- the two ring buffers
  expected
  modify fun m => { m with armed := true }
  record .lockMemory
  -- `disable_mmap`
  expected
  -- `use_sched_ext`
  if inPart then let _ ← fallible

def attach : Step Unit := do
  let _ ← fallible
  record .attached

/-- What is done under the guard. In the end the link is the scheduler's. -/
def bringUp (inPart : Bool) : Step Unit := do
  let _ ← prepareThenAttach (prepare inPart) attach
  modify fun m => { m with armed := false, structOps := true }

def init (inPart : Bool) : Step Unit := do
  -- the handler of the signal, the program, the topology, the maps
  let _ ← fallible
  expected
  let _ ← fallible
  modify fun m => { m with armed := false }
  Prog.scope MemoryPreparation.drop (bringUp inPart)

/-- The link is dropped, if it has not been taken. -/
def dropLink (m : Machine) : Machine :=
  if m.structOps then { m with structOps := false }.record .linkDropped else m

/-- `Drop` for `BpfScheduler`. -/
def drop (m : Machine) : Machine := (dropLink m).record .unlockMemory

/-- Whether the scheduler is to be restarted. -/
def shutdownAndReport : Step Bool := do
  modify dropLink
  return (← fallible).shouldRestart

end BpfScheduler

namespace Scheduler

/-- The reporter is dropped if the scheduler does not come up. -/
def init (inPart : Bool) : Step Unit := do
  let _ ← fallible
  try BpfScheduler.init inPart
  catch e =>
    record .reporterDropped
    throw e

/-- The fields are dropped in their order. -/
def drop (m : Machine) : Machine := (BpfScheduler.drop m).record .reporterDropped

/-- The loop of the scheduler may panic. It ends when the scheduler has exited. -/
def run : Step Bool := do
  expected
  BpfScheduler.shutdownAndReport

end Scheduler

/-- What is done with a scheduler that has come up. -/
def useScheduler : Step (Option Unit) := do
  -- `write_stats`
  expected
  let shouldRestart ← Scheduler.run
  return if shouldRestart then none else some ()

/-- One round of `run_scheduler`. It returns unless the scheduler is to be restarted. -/
def schedulerRound (inPart : Bool) : Step (Option Unit) := do
  Scheduler.init inPart
  Prog.scope Scheduler.drop useScheduler

/-- `run_scheduler`, up to this many rounds. -/
def runScheduler (inPart : Bool) (rounds : ℕ) : Step (Option Unit) :=
  Prog.retry (schedulerRound inPart) rounds

/-! ### What each piece leaves -/

/-- What an event does to the memory. -/
def Event.op : Event → Option Op
  | .lockMemory => some .acquire
  | .prepared => some .prepare
  | .attached => some .attach
  | .linkDropped => some .detach
  | .unlockMemory => some .release
  | .reporterDropped => none

/-- A call leaves everything but the environment as it was. -/
structure Same (m₀ m : Machine) : Prop where
  log : m.log = m₀.log
  armed : m.armed = m₀.armed
  structOps : m.structOps = m₀.structOps

/-- The memory is in this phase, and the guard answers for it or does not. -/
structure In (armed : Bool) (p : Phase) (m : Machine) : Prop where
  armed : m.armed = armed
  legal : Legal Event.op m.log p

/-- The scheduler has its link, and the memory is in this phase. -/
structure Linked (structOps : Bool) (p : Phase) (m : Machine) : Prop where
  structOps : m.structOps = structOps
  legal : Legal Event.op m.log p

section
variable {m₀ m : Machine} {armed structOps : Bool} {p : Phase}

theorem Same.guard (h : Same m₀ m) (hp : In armed p m₀) : In armed p m :=
  ⟨h.armed.trans hp.armed, h.log ▸ hp.legal⟩

theorem Same.linked (h : Same m₀ m) (hp : Linked structOps p m₀) : Linked structOps p m :=
  ⟨h.structOps.trans hp.structOps, h.log ▸ hp.legal⟩

theorem In.attach (h : In armed .ready m) : In armed .live (m.record .attached) :=
  ⟨h.armed, h.legal.next rfl rfl⟩

theorem In.prepare (h : In armed .held m) : In armed .ready (m.record .prepared) :=
  ⟨h.armed, h.legal.next rfl rfl⟩

theorem In.lock (h : In false .free m) :
    In true .held ({ m with armed := true }.record .lockMemory) :=
  ⟨rfl, h.legal.next rfl rfl⟩

end

/-- The guard answers for the unlock, if there is something to unlock. -/
def Guarded (m : Machine) : Prop := In false .free m ∨ In true .held m ∨ In true .ready m

/-- The scheduler answers for the unlock, and for its link as long as it has it. -/
def Running (m : Machine) : Prop := Linked true .live m ∨ Linked false .ended m

/-- The memory is free, and nobody answers for it. -/
def Free (m : Machine) : Prop := Legal Event.op m.log .free

theorem Same.free {m₀ m : Machine} (h : Same m₀ m) (hf : Free m₀) : Free m := by
  rwa [Free, h.log]

/-- A new guard has nothing to unlock. -/
theorem Free.disarm {m : Machine} (h : Free m) : In false .free { m with armed := false } :=
  ⟨rfl, h⟩

theorem Free.reporter {m : Machine} (h : Free m) : Free (m.record .reporterDropped) :=
  Legal.skip h rfl

section
variable {m : Machine}

/-- The guard unlocks what the preparation has locked, unless the scheduler has come up. -/
theorem Guarded.drop (h : Guarded m) : Free (MemoryPreparation.drop m) := by
  rw [MemoryPreparation.drop]
  rcases h with h | h | h
  · rw [h.armed, if_neg (by decide)]
    exact h.legal
  · rw [h.armed, if_pos rfl]
    exact h.legal.next rfl rfl
  · rw [h.armed, if_pos rfl]
    exact h.legal.next rfl rfl

theorem In.handOver (h : In true .live m) :
    Linked true .live (MemoryPreparation.drop { m with armed := false, structOps := true }) :=
  ⟨rfl, h.legal⟩

/-- The link is dropped when the scheduler has exited. -/
theorem Linked.dropLink (h : Linked true .live m) :
    Linked false .ended (BpfScheduler.dropLink m) := by
  rw [BpfScheduler.dropLink, h.structOps, if_pos rfl]
  exact ⟨rfl, h.legal.next rfl rfl⟩

/-- The scheduler unlocks the memory after its link has been dropped, here or before. -/
theorem Running.drop (h : Running m) : Free (BpfScheduler.drop m) := by
  rw [BpfScheduler.drop]
  rcases h with h | h
  · exact h.dropLink.legal.next rfl rfl
  · rw [BpfScheduler.dropLink, h.structOps, if_neg (by decide)]
    exact h.legal.next rfl rfl

theorem Running.schedulerDrop (h : Running m) : Free (Scheduler.drop m) :=
  h.drop.reporter

end

/-! ### Specifications -/

@[spec] theorem fallible_spec (m₀ : Machine) : ⦃fun m => ⌜m = m₀⌝⦄ fallible
    ⦃post⟨fun _ m => ⌜Same m₀ m⌝, fun _ m => ⌜Same m₀ m⌝⟩⦄ := by
  mvcgen [fallible] with exact ⟨by subst_vars; rfl, by subst_vars; rfl, by subst_vars; rfl⟩

@[spec] theorem expected_spec (m₀ : Machine) : ⦃fun m => ⌜m = m₀⌝⦄ expected
    ⦃post⟨fun _ m => ⌜Same m₀ m⌝, fun _ m => ⌜Same m₀ m⌝⟩⦄ := by
  mvcgen [expected] with exact ⟨by subst_vars; rfl, by subst_vars; rfl, by subst_vars; rfl⟩

@[spec] theorem record_spec (m₀ : Machine) (e : Event) : ⦃fun m => ⌜m = m₀⌝⦄ record e
    ⦃post⟨fun _ m => ⌜m = m₀.record e⌝, fun _ _ => ⌜False⌝⟩⦄ := by
  mvcgen [record] with (subst_vars; rfl)

namespace BpfScheduler

@[spec] theorem prepare_spec (inPart : Bool) :
    ⦃fun m => ⌜In false .free m⌝⦄ prepare inPart
    ⦃post⟨fun _ m => ⌜In true .held m⌝, fun _ m => ⌜Guarded m⌝⟩⦄ := by
  mvcgen [prepare] with grind [Guarded, → Same.guard, → In.lock]

@[spec] theorem attach_spec : ⦃fun m => ⌜In true .ready m⌝⦄ attach
    ⦃post⟨fun _ m => ⌜In true .live m⌝, fun _ m => ⌜In true .ready m⌝⟩⦄ := by
  mvcgen [attach] with grind [→ Same.guard, In.attach]

theorem bringUp_spec (inPart : Bool) : ⦃fun m => ⌜In false .free m⌝⦄ bringUp inPart
    ⦃post⟨fun _ m => ⌜Linked true .live (MemoryPreparation.drop m)⌝,
      fun _ m => ⌜Free (MemoryPreparation.drop m)⌝⟩⦄ := by
  mvcgen [bringUp, prepareThenAttach] with grind [Guarded, Guarded.drop, In.prepare, In.handOver]

@[spec] theorem scope_bringUp_spec (inPart : Bool) :
    ⦃fun m => ⌜In false .free m⌝⦄ Prog.scope MemoryPreparation.drop (bringUp inPart)
    ⦃post⟨fun _ m => ⌜Linked true .live m⌝, fun _ m => ⌜Free m⌝⟩⦄ :=
  Prog.scope_spec (bringUp_spec inPart)

@[spec] theorem init_spec (inPart : Bool) : ⦃fun m => ⌜Free m⌝⦄ init inPart
    ⦃post⟨fun _ m => ⌜Linked true .live m⌝, fun _ m => ⌜Free m⌝⟩⦄ := by
  mvcgen [init] with grind [→ Same.free, Free.disarm]

@[spec] theorem shutdownAndReport_spec : ⦃fun m => ⌜Linked true .live m⌝⦄ shutdownAndReport
    ⦃post⟨fun _ m => ⌜Linked false .ended m⌝, fun _ m => ⌜Linked false .ended m⌝⟩⦄ := by
  mvcgen [shutdownAndReport] with grind [→ Same.linked, Linked.dropLink]

end BpfScheduler

/-! ### Runs -/

@[spec] theorem Scheduler.init_spec (inPart : Bool) : ⦃fun m => ⌜Free m⌝⦄ Scheduler.init inPart
    ⦃post⟨fun _ m => ⌜Linked true .live m⌝, fun _ m => ⌜Free m⌝⟩⦄ := by
  mvcgen [Scheduler.init] with grind [→ Same.free, Free.reporter]

theorem useScheduler_spec : ⦃fun m => ⌜Linked true .live m⌝⦄ useScheduler
    ⦃post⟨fun _ m => ⌜Free (Scheduler.drop m)⌝, fun _ m => ⌜Free (Scheduler.drop m)⌝⟩⦄ := by
  mvcgen [useScheduler, Scheduler.run]
    with grind [Running, → Same.linked, Running.schedulerDrop]

@[spec] theorem scope_useScheduler_spec :
    ⦃fun m => ⌜Linked true .live m⌝⦄ Prog.scope Scheduler.drop useScheduler
    ⦃post⟨fun _ m => ⌜Free m⌝, fun _ m => ⌜Free m⌝⟩⦄ :=
  Prog.scope_spec useScheduler_spec

theorem schedulerRound_spec (inPart : Bool) : ⦃fun m => ⌜Free m⌝⦄ schedulerRound inPart
    ⦃post⟨fun _ m => ⌜Free m⌝, fun _ m => ⌜Free m⌝⟩⦄ := by
  mvcgen [schedulerRound]

theorem runScheduler_spec (inPart : Bool) (rounds : ℕ) :
    ⦃fun m => ⌜Free m⌝⦄ runScheduler inPart rounds
    ⦃post⟨fun _ m => ⌜Free m⌝, fun _ m => ⌜Free m⌝⟩⦄ :=
  Prog.retry_keeps (schedulerRound_spec inPart) rounds

/-- The order of the events of a run. Before the scheduler is attached the memory has been locked
    and then everything prepared, without an unlock since; every lock is followed by one unlock,
    before the next lock; and after the scheduler has been attached the memory is unlocked only
    when the link has been dropped. -/
structure Orderly (log : List Event) : Prop where
  prepared : ∀ before after, log = before ++ .attached :: after → ∃ l₁ l₂,
    before = l₁ ++ .lockMemory :: l₂ ∧ .prepared ∈ l₂ ∧ .unlockMemory ∉ l₂
  balanced : ∃ n, log.filter (fun e => e = .lockMemory ∨ e = .unlockMemory) =
    (List.replicate n [Event.lockMemory, Event.unlockMemory]).flatten
  detached : ∀ before mid after, log = before ++ .attached :: (mid ++ .unlockMemory :: after) →
    .linkDropped ∈ mid

theorem free_start {moves : ℕ → Move} : Free { moves } := legal_nil

theorem op_inj {e e' : Event} {o : Op} (h : e.op = some o) (h' : e'.op = some o) : e = e' := by
  revert h h'
  cases e <;> cases e' <;> cases o <;> decide

theorem Free.orderly {m : Machine} (h : Free m) : Orderly m.log where
  prepared before after hlog := by
    rw [Free, hlog] at h
    obtain ⟨l₁, e, l₂, rfl, he, ⟨x, hx, hprepare⟩, hrelease⟩ := h.prepared rfl
    obtain rfl : e = .lockMemory := op_inj he rfl
    obtain rfl : x = .prepared := op_inj hprepare rfl
    exact ⟨l₁, l₂, rfl, hx, fun hu => hrelease _ hu rfl⟩
  balanced := by
    refine h.balanced (fun e => ⟨fun he => op_inj he rfl, ?_⟩)
      fun e => ⟨fun he => op_inj he rfl, ?_⟩
    · rintro rfl
      rfl
    · rintro rfl
      rfl
  detached before mid after hlog := by
    rw [Free, hlog] at h
    obtain ⟨x, hx, hdetach⟩ := h.detached rfl rfl
    obtain rfl : x = .linkDropped := op_inj hdetach rfl
    exact hx

/-- For every number of rounds and every outcome of every call. -/
theorem preparation_orderly (moves : ℕ → Move) (inPart : Bool) (rounds : ℕ) :
    Orderly ((runScheduler inPart rounds).exec { moves }).2.log :=
  (Prog.keeps_exec (runScheduler_spec inPart rounds) free_start).orderly

end Preparation

end CerynthOS.Scx
