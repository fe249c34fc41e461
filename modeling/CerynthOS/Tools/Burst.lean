import Mathlib.Data.Fintype.Option
import CerynthOS.Schemes.Barrier

/-! The burst workload: its workers compute in step with the main process.

    In each burst all workers and the main process pass a barrier, each worker computes and counts,
    and they pass the barrier again. The main process then publishes the counts, which the workers write
    to without a lock. Processes may be killed at any moment, every wait may time out, and an error
    breaks the barrier for everybody; what is published is exact all the same. -/

namespace CerynthOS.Tools

/-- What `publish` writes, without its clock. -/
structure BurstRecord where
  workerCompletions : List ℕ
  completedBursts : ℕ
  completed : Bool
  deriving DecidableEq

namespace Burst

/-- Where a worker is: before or in the first `gate.wait` of a burst, behind it, in its computation,
    before or in the second `gate.wait`, or in the `except` clause. -/
inductive Spot where
  | unstarted
  | top
  | arriving
  | waiting
  | released
  | computing
  | counted
  | closing
  | raised
  | stopping
  | ended
  deriving DecidableEq

/-- Where the main process is. `seen` are the counts that it has read so far, of a record that it
    publishes or of the check at the end. -/
inductive Main where
  | opening (seen : List ℕ)
  | starting (k : ℕ)
  | head
  | arriving
  | waiting
  | between
  | closing
  | publishing (seen : List ℕ)
  | ending
  | checking (seen : List ℕ)
  | finishing (seen : List ℕ)
  | stopping
  | aborting
  | ended
  deriving DecidableEq

/-- The processes and what they share; at the gate the main process is `none`. -/
structure State (n : ℕ) where
  main : Main
  bursts : ℕ
  spots : Fin n → Spot
  counts : Fin n → ℕ
  stop : Bool
  gate : Barrier (Option (Fin n))
  published : List BurstRecord

/-- Who moves next: a process makes its next step, which may be `late` (the end of the workload has
    come, or a timeout), a worker is killed, or an exception interrupts the main process. -/
inductive Event (n : ℕ) where
  | main (late : Bool)
  | worker (i : Fin n) (late : Bool)
  | kill (i : Fin n)
  | interrupt

variable {n : ℕ}

namespace State

/-! ### Workers -/

def moveTo (s : State n) (i : Fin n) (spot : Spot) : State n :=
  { s with spots := Function.update s.spots i spot }

/-- What comes of a `gate.wait`: the worker goes on behind it, waits in it, or is in the `except`
    clause. -/
def atGate (s : State n) (i : Fin n) (here inside behind : Spot)
    (call : Passage × Barrier (Option (Fin n))) : State n :=
  { s with gate := call.2 }.moveTo i (call.1.lead here inside behind .raised)

/-- `worker`. -/
def worker (s : State n) (i : Fin n) (late : Bool) : State n :=
  match s.spots i with
  | .unstarted => s
  | .top => s.moveTo i (if s.stop then .ended else .arriving)
  | .arriving => s.atGate i .arriving .waiting .released (s.gate.enter (some i))
  | .waiting => s.atGate i .waiting .waiting .released (s.gate.leave late (some i))
  | .released => s.moveTo i (if s.stop then .ended else .computing)
  | .computing => { s with counts := Function.update s.counts i (s.counts i + 1) }.moveTo i .counted
  | .counted => s.atGate i .counted .closing .top (s.gate.enter (some i))
  | .closing => s.atGate i .closing .closing .top (s.gate.leave late (some i))
  | .raised => if s.stop then s.moveTo i .ended else { s with stop := true }.moveTo i .stopping
  | .stopping => { s with gate := s.gate.abort }.moveTo i .ended
  | .ended => s

/-! ### The main process -/

def mainAt (s : State n) (main : Main) : State n := { s with main := main }

def mainAtGate (s : State n) (here inside : Main) (behind : State n → State n)
    (call : Passage × Barrier (Option (Fin n))) : State n :=
  call.1.lead (·.mainAt here) (·.mainAt inside) behind (·.mainAt .stopping) { s with gate := call.2 }

def publish (s : State n) (seen : List ℕ) (completed : Bool) : State n :=
  { s with published := s.published ++ [⟨seen, s.bursts, completed⟩] }

/-- Reads the next count, or goes on when all are read. -/
def readNext (s : State n) (seen : List ℕ) (here : List ℕ → State n) (done : State n) : State n :=
  if h : seen.length < n then here (seen ++ [s.counts ⟨seen.length, h⟩]) else done

/-- A burst is over. -/
def countBurst (s : State n) : State n := { s with bursts := s.bursts + 1, main := .publishing [] }

/-- `main`. -/
def mainStep (s : State n) (late : Bool) : State n :=
  match s.main with
  | .opening seen =>
    s.readNext seen (fun seen => s.mainAt (.opening seen))
      ((s.publish seen false).mainAt (.starting 0))
  | .starting k =>
    if h : k < n then (s.moveTo ⟨k, h⟩ .top).mainAt (.starting (k + 1)) else s.mainAt .head
  | .head => s.mainAt (if late || s.stop then .ending else .arriving)
  | .arriving => s.mainAtGate .arriving .waiting (·.mainAt .between) (s.gate.enter none)
  | .waiting => s.mainAtGate .waiting .waiting (·.mainAt .between) (s.gate.leave late none)
  | .between => s.mainAtGate .between .closing countBurst (s.gate.enter none)
  | .closing => s.mainAtGate .closing .closing countBurst (s.gate.leave late none)
  | .publishing seen =>
    s.readNext seen (fun seen => s.mainAt (.publishing seen)) ((s.publish seen false).mainAt .head)
  | .ending => s.mainAt (if s.stop || s.bursts == 0 then .stopping else .checking [])
  | .checking seen =>
    s.readNext seen
      (fun seen => s.mainAt (if seen.getLast? == some s.bursts then .checking seen else .stopping))
      (s.mainAt (.finishing []))
  | .finishing seen =>
    s.readNext seen (fun seen => s.mainAt (.finishing seen))
      ((s.publish seen true).mainAt .stopping)
  | .stopping => { s with stop := true }.mainAt .aborting
  | .aborting => { s with gate := s.gate.abort }.mainAt .ended
  | .ended => s

/-! ### Runs -/

def step (s : State n) : Event n → State n
  | .main late => s.mainStep late
  | .worker i late => s.worker i late
  | .kill i => if s.spots i = .unstarted then s else s.moveTo i .ended
  | .interrupt =>
    match s.main with
    | .stopping | .aborting | .ended => s
    | _ => s.mainAt .stopping

def run (s : State n) (events : List (Event n)) : State n := events.foldl step s

/-- Before the first record is published. -/
def start (n : ℕ) : State n where
  main := .opening []
  bursts := 0
  spots _ := .unstarted
  counts _ := 0
  stop := false
  gate := .new
  published := []

end State

/-! ### What the counts say -/

/-- How many bursts a worker has counted, by how often it has arrived at the gate and left it. -/
def Spot.Counted (c entered left : ℕ) : Spot → Prop
  | unstarted => entered = 2 * c ∧ left = 2 * c
  | top => entered = 2 * c ∧ left = 2 * c
  | arriving => entered = 2 * c ∧ left = 2 * c
  | waiting => entered = 2 * c + 1 ∧ left = 2 * c
  | released => entered = 2 * c + 1 ∧ left = 2 * c + 1
  | computing => entered = 2 * c + 1 ∧ left = 2 * c + 1
  | counted => entered + 1 = 2 * c ∧ left + 1 = 2 * c
  | closing => entered = 2 * c ∧ left + 1 = 2 * c
  | _ => entered ≤ 2 * c + 1 ∧ 2 * c ≤ left + 1

/-- The main process, after `b` bursts. -/
def Main.Counted (b entered left : ℕ) : Main → Prop
  | waiting => entered = 2 * b + 1 ∧ left = 2 * b
  | between => entered = 2 * b + 1 ∧ left = 2 * b + 1
  | closing => entered = 2 * b + 2 ∧ left = 2 * b + 1
  | stopping => True
  | aborting => True
  | ended => True
  | _ => entered = 2 * b ∧ left = 2 * b

theorem Spot.Counted.bounds {c entered left : ℕ} {spot : Spot} (h : spot.Counted c entered left) :
    entered ≤ 2 * c + 1 ∧ 2 * c ≤ left + 1 := by
  cases spot <;> simp only [Spot.Counted] at h <;> omega

/-- The first records, one for each burst. -/
def records (n k : ℕ) : List BurstRecord :=
  (List.range k).map fun b => ⟨List.replicate n b, b, false⟩

theorem records_succ (n k : ℕ) :
    records n (k + 1) = records n k ++ [⟨List.replicate n k, k, false⟩] := by
  rw [records, List.range_succ, List.map_append]
  rfl

/-- What was published when `b` bursts are over and the main process is there. -/
def Main.Published (n b : ℕ) (published : List BurstRecord) : Main → Prop
  | opening seen => b = 0 ∧ published = [] ∧ seen.length ≤ n ∧ seen = List.replicate seen.length b
  | publishing seen => published = records n b ∧ seen.length ≤ n ∧
    seen = List.replicate seen.length b
  | checking seen => b ≠ 0 ∧ published = records n (b + 1) ∧ seen.length ≤ n
  | finishing seen => b ≠ 0 ∧ published = records n (b + 1) ∧ seen.length ≤ n ∧
    seen = List.replicate seen.length b
  | stopping => True
  | aborting => True
  | ended => True
  | _ => published = records n (b + 1)

/-- From where on no worker was started yet. -/
def Main.unstartedFrom : Main → Option ℕ
  | opening _ => some 0
  | starting k => some k
  | _ => none

/-- Every record is exact. -/
def Exact (n : ℕ) (published : List BurstRecord) : Prop :=
  ∃ k, published = records n k ∨
    k ≠ 0 ∧ published = records n (k + 1) ++ [⟨List.replicate n k, k, true⟩]

/-- The processes are in step. -/
structure InStep (s : State n) : Prop where
  spots : ∀ i, (s.spots i).Counted (s.counts i) (s.gate.entered (some i)) (s.gate.left (some i))
  unstarted : ∀ k, s.main.unstartedFrom = some k → ∀ i : Fin n, k ≤ i → s.spots i = .unstarted
  main : s.main.Counted s.bursts (s.gate.entered none) (s.gate.left none)
  published : s.main.Published n s.bursts s.published
  exact : Exact n s.published

namespace InStep

variable {s : State n}

/-- Between two bursts every worker has counted all of them, whatever has become of it. -/
theorem quiet (h : InStep s)
    (hmain : s.gate.entered none = 2 * s.bursts ∧ s.gate.left none = 2 * s.bursts) (i : Fin n) :
    s.counts i = s.bursts := by
  obtain ⟨hentered, hleft⟩ := (h.spots i).bounds
  have hall := s.gate.left_le_entered none (some i)
  have hback := s.gate.left_le_entered (some i) none
  omega

/-! ### Steps of a worker -/

/-- Only one worker moves. -/
theorem move (h : InStep s) {s' : State n} {i : Fin n} (hstarted : s.spots i ≠ .unstarted)
    (hmain : s'.main = s.main ∧ s'.bursts = s.bursts ∧ s'.published = s.published)
    (hother : ∀ j, j ≠ i → s'.spots j = s.spots j ∧ s'.counts j = s.counts j)
    (hgate : ∀ q, q ≠ some i →
      s'.gate.entered q = s.gate.entered q ∧ s'.gate.left q = s.gate.left q)
    (hi : (s'.spots i).Counted (s'.counts i) (s'.gate.entered (some i))
      (s'.gate.left (some i))) : InStep s' := by
  obtain ⟨hat, hbursts, hpublished⟩ := hmain
  obtain ⟨hentered, hleft⟩ := hgate none (by simp)
  refine ⟨fun j => ?_, fun k hk j hj => ?_, ?_, ?_, ?_⟩
  · by_cases hji : j = i
    · rw [hji]
      exact hi
    · obtain ⟨hspot, hcount⟩ := hother j hji
      obtain ⟨hentered, hleft⟩ := hgate (some j) (by simpa using hji)
      rw [hspot, hcount, hentered, hleft]
      exact h.spots j
  · rw [hat] at hk
    have hold := h.unstarted k hk j hj
    by_cases hji : j = i
    · exact absurd (hji ▸ hold) hstarted
    · rw [(hother j hji).1, hold]
  · rw [hat, hbursts, hentered, hleft]
    exact h.main
  · rw [hat, hbursts, hpublished]
    exact h.published
  · rw [hpublished]
    exact h.exact

theorem moveTo (h : InStep s) {i : Fin n} (hstarted : s.spots i ≠ .unstarted) {spot : Spot}
    (hspot : spot.Counted (s.counts i) (s.gate.entered (some i)) (s.gate.left (some i))) :
    InStep (s.moveTo i spot) := by
  refine h.move hstarted ⟨rfl, rfl, rfl⟩ (fun j hji => ⟨Function.update_of_ne hji _ _, rfl⟩)
    (fun q _ => ⟨rfl, rfl⟩) ?_
  change (Function.update s.spots i spot i).Counted _ _ _
  rw [Function.update_self]
  exact hspot

/-- A call of the barrier by a worker. -/
theorem atGate (h : InStep s) {i : Fin n} (hstarted : s.spots i ≠ .unstarted)
    {call : Passage × Barrier (Option (Fin n))} {arrivals : ℕ} {here inside behind : Spot}
    (hentered : call.2.entered = Function.update s.gate.entered (some i)
      (s.gate.entered (some i) + arrivals))
    (hleft : call.2.left = Function.update s.gate.left (some i)
      (s.gate.left (some i) + call.1.departures))
    (hspot : (call.1.lead here inside behind .raised).Counted (s.counts i)
      (s.gate.entered (some i) + arrivals) (s.gate.left (some i) + call.1.departures)) :
    InStep (s.atGate i here inside behind call) := by
  refine h.move hstarted ⟨rfl, rfl, rfl⟩ (fun j hji => ⟨Function.update_of_ne hji _ _, rfl⟩)
    (fun q hq => ?_) ?_
  · change call.2.entered q = _ ∧ call.2.left q = _
    rw [hentered, hleft]
    exact ⟨Function.update_of_ne hq _ _, Function.update_of_ne hq _ _⟩
  · change (Function.update s.spots i _ i).Counted (s.counts i) (call.2.entered (some i))
      (call.2.left (some i))
    rw [hentered, hleft, Function.update_self, Function.update_self, Function.update_self]
    exact hspot

theorem enter (h : InStep s) {i : Fin n} (hstarted : s.spots i ≠ .unstarted)
    {here inside behind : Spot}
    (hhere : here.Counted (s.counts i) (s.gate.entered (some i)) (s.gate.left (some i)))
    (hinside : inside.Counted (s.counts i) (s.gate.entered (some i) + 1) (s.gate.left (some i)))
    (hbehind : behind.Counted (s.counts i) (s.gate.entered (some i) + 1)
      (s.gate.left (some i) + 1)) :
    InStep (s.atGate i here inside behind (s.gate.enter (some i))) := by
  obtain ⟨hentered, hleft⟩ := Barrier.enter_counts (Prod.eta (s.gate.enter (some i))).symm
  refine h.atGate hstarted hentered hleft ?_
  cases (s.gate.enter (some i)).1 with
  | blocked => exact hhere
  | waits => exact hinside
  | passes => exact hbehind
  | raises => exact hhere.bounds

theorem leave (h : InStep s) {i : Fin n} (hstarted : s.spots i ≠ .unstarted) (late : Bool)
    {here behind : Spot}
    (hhere : here.Counted (s.counts i) (s.gate.entered (some i)) (s.gate.left (some i)))
    (hbehind : behind.Counted (s.counts i) (s.gate.entered (some i)) (s.gate.left (some i) + 1)) :
    InStep (s.atGate i here here behind (s.gate.leave late (some i))) := by
  obtain ⟨hwaits, hentered, hleft⟩ :=
    Barrier.leave_counts (Prod.eta (s.gate.leave late (some i))).symm
  have hsame : (s.gate.leave late (some i)).2.entered = Function.update s.gate.entered (some i)
      (s.gate.entered (some i) + 0) := by simp [hentered]
  refine h.atGate hstarted hsame hleft ?_
  cases hpassage : (s.gate.leave late (some i)).1 with
  | blocked => exact hhere
  | waits => exact absurd hpassage hwaits
  | passes => exact hbehind
  | raises => exact hhere.bounds

theorem worker (h : InStep s) (i : Fin n) (late : Bool) : InStep (s.worker i late) := by
  have hi := h.spots i
  rw [State.worker]
  cases hspot : s.spots i with
  | unstarted => exact h
  | top =>
    rw [hspot] at hi
    refine h.moveTo (by simp [hspot]) ?_
    split_ifs
    · exact hi.bounds
    · exact hi
  | arriving =>
    rw [hspot] at hi
    obtain ⟨hentered, hleft⟩ := id hi
    refine h.enter (by simp [hspot]) hi ⟨?_, hleft⟩ ⟨?_, ?_⟩ <;> omega
  | waiting =>
    rw [hspot] at hi
    obtain ⟨hentered, hleft⟩ := id hi
    exact h.leave (by simp [hspot]) late hi ⟨hentered, by omega⟩
  | released =>
    rw [hspot] at hi
    refine h.moveTo (by simp [hspot]) ?_
    split_ifs
    · exact hi.bounds
    · exact hi
  | computing =>
    rw [hspot] at hi
    obtain ⟨hentered, hleft⟩ := id hi
    refine h.move (by simp [hspot]) ⟨rfl, rfl, rfl⟩ (fun j hji => ⟨Function.update_of_ne hji _ _,
      Function.update_of_ne hji _ _⟩) (fun q _ => ⟨rfl, rfl⟩) ?_
    change (Function.update s.spots i .counted i).Counted
      (Function.update s.counts i (s.counts i + 1) i) (s.gate.entered (some i))
      (s.gate.left (some i))
    rw [Function.update_self, Function.update_self]
    exact ⟨by omega, by omega⟩
  | counted =>
    rw [hspot] at hi
    obtain ⟨hentered, hleft⟩ := id hi
    refine h.enter (by simp [hspot]) hi ⟨?_, hleft⟩ ⟨?_, ?_⟩ <;> omega
  | closing =>
    rw [hspot] at hi
    obtain ⟨hentered, hleft⟩ := id hi
    exact h.leave (by simp [hspot]) late hi ⟨hentered, by omega⟩
  | raised =>
    rw [hspot] at hi
    have hstarted : s.spots i ≠ .unstarted := by simp [hspot]
    dsimp only
    split_ifs
    · exact h.moveTo hstarted hi
    · have hstop : InStep { s with stop := true } :=
        ⟨h.spots, h.unstarted, h.main, h.published, h.exact⟩
      exact hstop.moveTo hstarted hi
  | stopping =>
    rw [hspot] at hi
    have hgate : InStep { s with gate := s.gate.abort } :=
      ⟨h.spots, h.unstarted, h.main, h.published, h.exact⟩
    exact hgate.moveTo (by simp [hspot]) hi
  | ended => exact h

/-! ### Steps of the main process -/

/-- Only the main process moves. -/
theorem mainMoves (h : InStep s) {s' : State n}
    (hspots : s'.spots = s.spots ∧ s'.counts = s.counts)
    (hgate : ∀ i : Fin n, s'.gate.entered (some i) = s.gate.entered (some i) ∧
      s'.gate.left (some i) = s.gate.left (some i))
    (hunstarted : s'.main.unstartedFrom = none ∨ s'.main.unstartedFrom = s.main.unstartedFrom)
    (hmain : s'.main.Counted s'.bursts (s'.gate.entered none) (s'.gate.left none))
    (hpublished : s'.main.Published n s'.bursts s'.published) (hexact : Exact n s'.published) :
    InStep s' := by
  refine ⟨fun i => ?_, fun k hk i hi => ?_, hmain, hpublished, hexact⟩
  · rw [hspots.1, hspots.2, (hgate i).1, (hgate i).2]
    exact h.spots i
  · rw [hspots.1]
    rcases hunstarted with hnone | hsame
    · cases hnone.symm.trans hk
    · exact h.unstarted k (hsame.symm.trans hk) i hi

/-- The main process goes on without a call of the barrier. -/
theorem mainAt (h : InStep s) {main : Main}
    (hunstarted : main.unstartedFrom = none ∨ main.unstartedFrom = s.main.unstartedFrom)
    (hmain : main.Counted s.bursts (s.gate.entered none) (s.gate.left none))
    (hpublished : main.Published n s.bursts s.published) : InStep (s.mainAt main) :=
  h.mainMoves ⟨rfl, rfl⟩ (fun _ => ⟨rfl, rfl⟩) hunstarted hmain hpublished h.exact

/-- The main process may stand at this point, with these bursts and counts of the barrier. -/
structure Stands (s : State n) (bursts entered left : ℕ) (main : Main) : Prop where
  counted : main.Counted bursts entered left
  published : main.Published n bursts s.published
  unstarted : main.unstartedFrom = none

/-- A call of the barrier by the main process; behind it, `bursts` are over. -/
theorem mainAtGate (h : InStep s) {call : Passage × Barrier (Option (Fin n))}
    {arrivals : ℕ} {here inside : Main} {behind : State n → State n} (main : Main) (bursts : ℕ)
    (hbehind : ∀ gate, behind { s with gate := gate } =
      { s with gate := gate, bursts := bursts, main := main })
    (hentered : call.2.entered = Function.update s.gate.entered none
      (s.gate.entered none + arrivals))
    (hleft : call.2.left = Function.update s.gate.left none
      (s.gate.left none + call.1.departures))
    (hstands : Stands s (call.1.lead s.bursts s.bursts bursts s.bursts)
      (s.gate.entered none + arrivals) (s.gate.left none + call.1.departures)
      (call.1.lead here inside main .stopping)) :
    InStep (s.mainAtGate here inside behind call) := by
  have hothers : ∀ i : Fin n, call.2.entered (some i) = s.gate.entered (some i) ∧
      call.2.left (some i) = s.gate.left (some i) := by
    intro i
    rw [hentered, hleft]
    exact ⟨Function.update_of_ne (by simp) _ _, Function.update_of_ne (by simp) _ _⟩
  have hme : call.2.entered none = s.gate.entered none + arrivals ∧
      call.2.left none = s.gate.left none + call.1.departures := by
    rw [hentered, hleft]
    exact ⟨Function.update_self _ _ _, Function.update_self _ _ _⟩
  rw [← hme.1, ← hme.2] at hstands
  rw [State.mainAtGate]
  cases hpassage : call.1 with
  | blocked =>
    rw [hpassage] at hstands
    exact h.mainMoves ⟨rfl, rfl⟩ hothers (Or.inl hstands.unstarted) hstands.counted
      hstands.published h.exact
  | waits =>
    rw [hpassage] at hstands
    exact h.mainMoves ⟨rfl, rfl⟩ hothers (Or.inl hstands.unstarted) hstands.counted
      hstands.published h.exact
  | passes =>
    rw [hpassage] at hstands
    rw [Passage.lead, hbehind]
    exact h.mainMoves ⟨rfl, rfl⟩ hothers (Or.inl hstands.unstarted) hstands.counted
      hstands.published h.exact
  | raises =>
    rw [hpassage] at hstands
    exact h.mainMoves ⟨rfl, rfl⟩ hothers (Or.inl hstands.unstarted) hstands.counted
      hstands.published h.exact

theorem mainEnter (h : InStep s) {here inside : Main} {behind : State n → State n} (main : Main)
    (bursts : ℕ)
    (hbehind : ∀ gate, behind { s with gate := gate } =
      { s with gate := gate, bursts := bursts, main := main })
    (hhere : Stands s s.bursts (s.gate.entered none) (s.gate.left none) here)
    (hinside : Stands s s.bursts (s.gate.entered none + 1) (s.gate.left none) inside)
    (hpast : Stands s bursts (s.gate.entered none + 1) (s.gate.left none + 1) main) :
    InStep (s.mainAtGate here inside behind (s.gate.enter none)) := by
  obtain ⟨hentered, hleft⟩ := Barrier.enter_counts (Prod.eta (s.gate.enter none)).symm
  refine h.mainAtGate main bursts hbehind hentered hleft ?_
  cases (s.gate.enter none).1 with
  | blocked => exact hhere
  | waits => exact hinside
  | passes => exact hpast
  | raises => exact ⟨trivial, trivial, rfl⟩

theorem mainLeave (h : InStep s) (late : Bool) {here : Main} {behind : State n → State n}
    (main : Main) (bursts : ℕ)
    (hbehind : ∀ gate, behind { s with gate := gate } =
      { s with gate := gate, bursts := bursts, main := main })
    (hhere : Stands s s.bursts (s.gate.entered none) (s.gate.left none) here)
    (hpast : Stands s bursts (s.gate.entered none) (s.gate.left none + 1) main) :
    InStep (s.mainAtGate here here behind (s.gate.leave late none)) := by
  obtain ⟨hwaits, hentered, hleft⟩ :=
    Barrier.leave_counts (Prod.eta (s.gate.leave late none)).symm
  have hsame : (s.gate.leave late none).2.entered = Function.update s.gate.entered none
      (s.gate.entered none + 0) := by simp [hentered]
  refine h.mainAtGate main bursts hbehind hsame hleft ?_
  cases hpassage : (s.gate.leave late none).1 with
  | blocked => exact hhere
  | waits => exact absurd hpassage hwaits
  | passes => exact hpast
  | raises => exact ⟨trivial, trivial, rfl⟩

/-- Reads the next count between two bursts. -/
theorem readNext (h : InStep s)
    (hquiet : s.gate.entered none = 2 * s.bursts ∧ s.gate.left none = 2 * s.bursts)
    {seen : List ℕ} (hle : seen.length ≤ n) {here : List ℕ → State n} {done : State n}
    (hhere : seen.length < n → InStep (here (seen ++ [s.bursts])))
    (hdone : seen.length = n → InStep done) : InStep (s.readNext seen here done) := by
  rw [State.readNext]
  split_ifs with hlt
  · rw [h.quiet hquiet]
    exact hhere hlt
  · exact hdone (by omega)

theorem seen_concat {seen : List ℕ} {b : ℕ} (h : seen = List.replicate seen.length b) :
    seen ++ [b] = List.replicate (seen ++ [b]).length b := by
  rw [List.length_append, List.length_singleton, List.replicate_succ', ← h]

/-- The main process publishes a record and goes on. -/
theorem publish (h : InStep s) (main : Main)
    (hunstarted : main.unstartedFrom = none ∨ main.unstartedFrom = s.main.unstartedFrom)
    (hmain : main.Counted s.bursts (s.gate.entered none) (s.gate.left none)) {seen : List ℕ}
    {completed : Bool}
    (hpublished : main.Published n s.bursts (s.published ++ [⟨seen, s.bursts, completed⟩]))
    (hexact : Exact n (s.published ++ [⟨seen, s.bursts, completed⟩])) :
    InStep ((s.publish seen completed).mainAt main) :=
  h.mainMoves ⟨rfl, rfl⟩ (fun _ => ⟨rfl, rfl⟩) hunstarted hmain hpublished hexact

/-- The main process starts the next worker. -/
theorem starting (h : InStep s) {k : ℕ} (hmain : s.main = .starting k) (late : Bool) :
    InStep (s.mainStep late) := by
  have hcounted := h.main
  have hpublished := h.published
  have hfrom : s.main.unstartedFrom = some k := by rw [hmain, Main.unstartedFrom]
  rw [hmain] at hcounted hpublished
  simp only [State.mainStep, hmain]
  split_ifs with hk
  · refine ⟨fun i => ?_, fun k' hk' i hi => ?_, hcounted, hpublished, h.exact⟩
    · change (Function.update s.spots ⟨k, hk⟩ .top i).Counted _ _ _
      by_cases hik : i = ⟨k, hk⟩
      · have hold := h.spots i
        rw [h.unstarted k hfrom i (by rw [hik])] at hold
        rw [hik, Function.update_self, ← hik]
        exact hold
      · rw [Function.update_of_ne hik]
        exact h.spots i
    · obtain rfl : k + 1 = k' := Option.some.inj hk'
      change Function.update s.spots ⟨k, hk⟩ .top i = _
      have hik : i ≠ ⟨k, hk⟩ := by
        rintro rfl
        exact absurd hi (by simp)
      rw [Function.update_of_ne hik]
      exact h.unstarted k hfrom i (by omega)
  · exact h.mainAt (Or.inl rfl) hcounted hpublished

theorem mainStep (h : InStep s) (late : Bool) : InStep (s.mainStep late) := by
  have hcounted := h.main
  have hpublished := h.published
  cases hmain : s.main with
  | opening seen =>
    rw [hmain] at hcounted hpublished
    obtain ⟨hbursts, hnone, hle, hseen⟩ := hpublished
    simp only [State.mainStep, hmain]
    refine h.readNext hcounted hle (fun hlt => ?_) (fun hall => ?_)
    · exact h.mainAt (Or.inr (by rw [hmain]; rfl)) hcounted
        ⟨hbursts, hnone, by simpa [Nat.succ_le_iff] using hlt, seen_concat hseen⟩
    · have hrecords : s.published ++ [⟨seen, s.bursts, false⟩] = records n (s.bursts + 1) := by
        rw [records_succ, hbursts, hnone, hseen, hall, hbursts]
        rfl
      exact h.publish (.starting 0) (Or.inr (by rw [hmain]; rfl)) hcounted hrecords
        ⟨s.bursts + 1, Or.inl hrecords⟩
  | starting k => exact h.starting hmain late
  | head =>
    rw [hmain] at hcounted hpublished
    simp only [State.mainStep, hmain]
    split_ifs
    · exact h.mainAt (Or.inl rfl) hcounted hpublished
    · exact h.mainAt (Or.inl rfl) hcounted hpublished
  | arriving =>
    rw [hmain] at hcounted hpublished
    obtain ⟨hentered, hleft⟩ := id hcounted
    simp only [State.mainStep, hmain]
    exact h.mainEnter .between s.bursts (fun _ => rfl) ⟨hcounted, hpublished, rfl⟩
      ⟨⟨by omega, hleft⟩, hpublished, rfl⟩
      ⟨⟨by omega, by omega⟩, hpublished, rfl⟩
  | waiting =>
    rw [hmain] at hcounted hpublished
    obtain ⟨hentered, hleft⟩ := id hcounted
    simp only [State.mainStep, hmain]
    exact h.mainLeave late .between s.bursts (fun _ => rfl) ⟨hcounted, hpublished, rfl⟩
      ⟨⟨by omega, by omega⟩, hpublished, rfl⟩
  | between =>
    rw [hmain] at hcounted hpublished
    obtain ⟨hentered, hleft⟩ := id hcounted
    simp only [State.mainStep, hmain]
    exact h.mainEnter (.publishing []) (s.bursts + 1) (fun _ => rfl) ⟨hcounted, hpublished, rfl⟩
      ⟨⟨by omega, hleft⟩, hpublished, rfl⟩
      ⟨⟨by omega, by omega⟩, ⟨hpublished, by simp, rfl⟩, rfl⟩
  | closing =>
    rw [hmain] at hcounted hpublished
    obtain ⟨hentered, hleft⟩ := id hcounted
    simp only [State.mainStep, hmain]
    exact h.mainLeave late (.publishing []) (s.bursts + 1) (fun _ => rfl)
      ⟨hcounted, hpublished, rfl⟩
      ⟨⟨by omega, by omega⟩, ⟨hpublished, by simp, rfl⟩, rfl⟩
  | publishing seen =>
    rw [hmain] at hcounted hpublished
    obtain ⟨hrecords, hle, hseen⟩ := hpublished
    simp only [State.mainStep, hmain]
    refine h.readNext hcounted hle (fun hlt => ?_) (fun hall => ?_)
    · exact h.mainAt (Or.inl rfl) hcounted
        ⟨hrecords, by simpa [Nat.succ_le_iff] using hlt, seen_concat hseen⟩
    · have hnext : s.published ++ [⟨seen, s.bursts, false⟩] = records n (s.bursts + 1) := by
        rw [records_succ, hrecords, hseen, hall]
      exact h.publish .head (Or.inl rfl) hcounted hnext ⟨s.bursts + 1, Or.inl hnext⟩
  | ending =>
    rw [hmain] at hcounted hpublished
    simp only [State.mainStep, hmain]
    split_ifs with hfails
    · exact h.mainAt (Or.inl rfl) trivial trivial
    · have hbursts : s.bursts ≠ 0 := by
        rintro hzero
        simp [hzero] at hfails
      exact h.mainAt (Or.inl rfl) hcounted ⟨hbursts, hpublished, Nat.zero_le n⟩
  | checking seen =>
    rw [hmain] at hcounted hpublished
    obtain ⟨hbursts, hrecords, hle⟩ := hpublished
    simp only [State.mainStep, hmain]
    refine h.readNext hcounted hle (fun hlt => ?_) (fun _ => ?_)
    · have hlast : ((seen ++ [s.bursts]).getLast? == some s.bursts) = true := by simp
      rw [if_pos hlast]
      exact h.mainAt (Or.inl rfl) hcounted ⟨hbursts, hrecords, by simpa [Nat.succ_le_iff] using hlt⟩
    · exact h.mainAt (Or.inl rfl) hcounted ⟨hbursts, hrecords, Nat.zero_le n, rfl⟩
  | finishing seen =>
    rw [hmain] at hcounted hpublished
    obtain ⟨hbursts, hrecords, hle, hseen⟩ := hpublished
    simp only [State.mainStep, hmain]
    refine h.readNext hcounted hle (fun hlt => ?_) (fun hall => ?_)
    · exact h.mainAt (Or.inl rfl) hcounted
        ⟨hbursts, hrecords, by simpa [Nat.succ_le_iff] using hlt, seen_concat hseen⟩
    · refine h.publish .stopping (Or.inl rfl) trivial trivial ⟨s.bursts, Or.inr ⟨hbursts, ?_⟩⟩
      rw [hrecords, hseen, hall]
  | stopping =>
    simp only [State.mainStep, hmain]
    exact h.mainMoves ⟨rfl, rfl⟩ (fun _ => ⟨rfl, rfl⟩) (Or.inl rfl) trivial trivial h.exact
  | aborting =>
    simp only [State.mainStep, hmain]
    exact h.mainMoves ⟨rfl, rfl⟩ (fun _ => ⟨rfl, rfl⟩) (Or.inl rfl) trivial trivial h.exact
  | ended =>
    simp only [State.mainStep, hmain]
    exact h

/-! ### Runs -/

theorem step (h : InStep s) (event : Event n) : InStep (s.step event) := by
  cases event with
  | main late => exact h.mainStep late
  | worker i late => exact h.worker i late
  | kill i =>
    rw [State.step]
    split_ifs with hunstarted
    · exact h
    · exact h.moveTo hunstarted (h.spots i).bounds
  | interrupt =>
    rw [State.step]
    split
    · exact h
    · exact h
    · exact h
    · exact h.mainAt (Or.inl rfl) trivial trivial

theorem run (h : InStep s) (events : List (Event n)) : InStep (s.run events) := by
  induction events generalizing s with
  | nil => exact h
  | cons event events ih => exact ih (h.step event)

theorem start (n : ℕ) : InStep (State.start n) :=
  ⟨fun _ => ⟨rfl, rfl⟩, fun _ _ _ _ => rfl, ⟨rfl, rfl⟩, ⟨rfl, rfl, Nat.zero_le n, rfl⟩,
    0, Or.inl rfl⟩

end InStep

/-- In every interleaving, with timeouts, deaths and interrupts anywhere, the record of each burst
    says that every worker has completed all bursts so far and no more. -/
theorem published_exact (n : ℕ) (events : List (Event n)) :
    Exact n ((State.start n).run events).published :=
  ((InStep.start n).run events).exact

/-- One worker and one burst. -/
example :
    ((State.start 1).run [.main false, .main false, .main false, .main false, .main false,
      .worker 0 false, .main false, .worker 0 false, .main false, .worker 0 false, .worker 0 false,
      .worker 0 false, .main false, .main false, .main false, .main true, .main false, .main false,
      .main false, .main false, .main false]).published =
    records 1 2 ++ [⟨[1], 1, true⟩] := by decide

end Burst

end CerynthOS.Tools
