import CerynthOS.Schemes.Program

/-! The operating system as the daemon meets it.

    Before every system call the environment moves: processes exit, time passes, and it decides how
    the call answers. What the daemon may rely on is built into the calls: `try_wait` reports an
    exit and `wait` succeeds only for a process that has exited, `kill` fails with `ESRCH` only if
    no such process is alive, `sleep` takes at least its time. The log keeps every call. -/

open Std.Do

set_option mvcgen.warning false

namespace CerynthOS.Daemon

/-- A process the daemon has spawned, with its `--profile` argument. -/
structure Proc where
  pid : UInt32
  profile : String
  exited : Bool := false
  reaped : Bool := false
  deriving DecidableEq

/-- The handle of a spawned process: its pid, and which of the spawned processes it is. -/
structure Child where
  id : UInt32
  proc : ℕ
  deriving DecidableEq

inductive Signal where
  | probe | term | kill
  deriving DecidableEq

/-- What `try_wait` answers. -/
inductive Poll where
  | running
  | exited
  | error (message : String)
  deriving DecidableEq

/-- What `kill` answers. -/
inductive Killed where
  | ok
  | esrch
  | error (message : String)
  deriving DecidableEq

/-- How writing the state file ends; a failed write may leave anything. -/
inductive Saved where
  | done
  | noDirectory
  | failed (left : Option String)
  deriving DecidableEq

/-- A system call and its answer. -/
inductive Event where
  | exists (found : Bool)
  | spawn (proc : ℕ) (pid : UInt32)
  | spawnFailed (message : String)
  | tryWait (proc : ℕ) (answer : Poll)
  | kill (pid : UInt32) (signal : Signal) (answer : Killed)
  | wait (proc : ℕ) (answer : Except String Unit)
  | readState (contents : Option String)
  | readHeartbeat (contents : Option String)
  | readClock (now : Option ℕ)
  | save (text : String) (answer : Saved)

/-- A call made while stopping a process that failed. -/
def Event.failed : Event → Prop
  | tryWait _ (.error _) => True
  | kill _ _ answer => answer ≠ .ok
  | wait _ (.error _) => True
  | _ => False

def Event.isSave : Event → Prop
  | save _ _ => True
  | _ => False

/-- What the environment does at one system call: who has exited by then, how many nanoseconds
    have passed, and what the call finds. -/
structure Move where
  exits : List ℕ := []
  elapsed : ℕ := 0
  unixTime : Option ℕ := some 0
  found : Bool := true
  spawned : Except String UInt32 := .ok 1
  tryWait : Poll := .running
  kill : Killed := .ok
  wait : Except String Unit := .ok ()
  state : Option String := none
  heartbeat : Option String := none
  saved : Saved := .done

/-- The world: the environment's moves, the processes spawned so far, and how many of them were
    alive at once at most. -/
structure World where
  moves : ℕ → Move
  calls : ℕ := 0
  clock : ℕ := 0
  procs : List Proc := []
  peak : ℕ := 0
  stateFile : Option String := none
  log : List Event := []

namespace World

def exitedAt (w : World) (i : ℕ) : Bool := (w.procs[i]?).any (·.exited)

def aliveAt (w : World) (pid : UInt32) : Bool := w.procs.any fun p => p.pid == pid && !p.exited

def alive (w : World) : ℕ := w.procs.countP fun p => !p.exited

def record (w : World) (e : Event) : World := { w with log := w.log ++ [e] }

/-- A process has exited and its parent has waited for it. -/
def reap (w : World) (i : ℕ) : World :=
  { w with procs := w.procs.modify i fun p => { p with exited := true, reaped := true } }

/-- The environment moves. -/
def turn (w : World) : World :=
  let m := w.moves w.calls
  { w with
    calls := w.calls + 1
    clock := w.clock + m.elapsed
    procs := w.procs.mapIdx fun i p => if i ∈ m.exits then { p with exited := true } else p }

end World

/-- A backend and the world it runs in. -/
structure Sys (B : Type) where
  backend : B
  world : World

abbrev Op (B α : Type) := Prog (Sys B) String α

/-! ### System calls -/

section Calls
variable {B α : Type}

def syscall (f : Move → World → α × World) : Op B α := do
  let s ← get
  let (a, w) := f (s.world.moves s.world.calls) s.world.turn
  set { s with world := w }
  return a

/-- `Child::try_wait`. -/
def tryWait (c : Child) : Op B Poll := syscall fun m w =>
  match m.tryWait with
  | .exited =>
    if w.exitedAt c.proc then (.exited, (w.reap c.proc).record (.tryWait c.proc .exited))
    else (.running, w.record (.tryWait c.proc .running))
  | answer => (answer, w.record (.tryWait c.proc answer))

/-- `libc::kill`. -/
def kill (pid : UInt32) (signal : Signal) : Op B Killed := syscall fun m w =>
  let answer := if m.kill = .esrch ∧ w.aliveAt pid then .ok else m.kill
  (answer, w.record (.kill pid signal answer))

/-- `Child::wait`: blocks until the process has exited. -/
def wait (c : Child) : Op B (Except String Unit) := syscall fun m w =>
  match m.wait with
  | .ok () => (.ok (), (w.reap c.proc).record (.wait c.proc (.ok ())))
  | .error message => (.error message, w.record (.wait c.proc (.error message)))

/-- `Instant::now`. -/
def now : Op B ℕ := syscall fun _ w => (w.clock, w)

/-- `thread::sleep`. -/
def sleep (duration : ℕ) : Op B Unit := syscall fun _ w =>
  ((), { w with clock := w.clock + duration })

/-- `Path::exists` of the scheduler binary. -/
def binaryExists : Op B Bool := syscall fun m w => (m.found, w.record (.exists m.found))

/-- `Command::spawn` of the scheduler binary with a `--profile` argument. -/
def spawn (profile : String) : Op B (Except String Child) := syscall fun m w =>
  match m.spawned with
  | .ok pid =>
    let w' : World := { w with procs := w.procs ++ [{ pid, profile }] }
    (.ok ⟨pid, w.procs.length⟩,
      { w' with peak := max w.peak w'.alive }.record (.spawn w.procs.length pid))
  | .error message => (.error message, w.record (.spawnFailed message))

/-- The text of the sched_ext state file. -/
def readState : Op B (Option String) := syscall fun m w => (m.state, w.record (.readState m.state))

/-- The text of the heartbeat file. -/
def readHeartbeat : Op B (Option String) := syscall fun m w =>
  (m.heartbeat, w.record (.readHeartbeat m.heartbeat))

/-- The whole seconds of the system time since the epoch. -/
def unixNow : Op B (Option ℕ) := syscall fun m w => (m.unixTime, w.record (.readClock m.unixTime))

/-- `create_dir_all` of the state file's directory and `fs::write` of the file. -/
def writeState (text : String) : Op B Saved := syscall fun m w =>
  let w := w.record (.save text m.saved)
  match m.saved with
  | .done => (.done, { w with stateFile := some text })
  | .noDirectory => (.noDirectory, w)
  | .failed left => (.failed left, { w with stateFile := left })

end Calls

/-! ### What a call leaves -/

/-- A process later on. -/
structure Proc.Ages (p p' : Proc) : Prop where
  pid : p'.pid = p.pid
  profile : p'.profile = p.profile
  exited : p.exited = true → p'.exited = true
  reaped : p.reaped = true → p'.reaped = true

/-- The world later on, when nothing has been spawned or saved in between. -/
structure Moved (w w' : World) : Prop where
  length : w'.procs.length = w.procs.length
  procs : ∀ (i : ℕ) p, w.procs[i]? = some p → ∃ p', w'.procs[i]? = some p' ∧ p.Ages p'
  peak : w'.peak = w.peak
  clock : w.clock ≤ w'.clock
  log : ∃ l, w'.log = w.log ++ l ∧ ∀ e ∈ l, ¬ e.isSave

namespace Moved
variable {w w' w'' : World} {e : Event}

theorem refl (w : World) : Moved w w :=
  ⟨rfl, fun _ p h => ⟨p, h, rfl, rfl, id, id⟩, rfl, le_rfl, [], by simp, by simp⟩

theorem trans (h : Moved w w') (h' : Moved w' w'') : Moved w w'' where
  length := h'.length.trans h.length
  procs i p hp := by
    obtain ⟨p', hp', ha⟩ := h.procs i p hp
    obtain ⟨p'', hp'', ha'⟩ := h'.procs i p' hp'
    exact ⟨p'', hp'', ha'.pid.trans ha.pid, ha'.profile.trans ha.profile,
      fun hx => ha'.exited (ha.exited hx), fun hx => ha'.reaped (ha.reaped hx)⟩
  peak := h'.peak.trans h.peak
  clock := h.clock.trans h'.clock
  log := by
    obtain ⟨l, hl, hs⟩ := h.log
    obtain ⟨l', hl', hs'⟩ := h'.log
    refine ⟨l ++ l', by rw [hl', hl, List.append_assoc], fun e he => ?_⟩
    exact (List.mem_append.mp he).elim (hs e) (hs' e)

theorem turn (w : World) : Moved w w.turn where
  length := by simp [World.turn]
  procs i p hp := by
    refine ⟨if i ∈ (w.moves w.calls).exits then { p with exited := true } else p,
      by simp [World.turn, hp], ?_⟩
    split
    · exact ⟨rfl, rfl, fun _ => rfl, id⟩
    · exact ⟨rfl, rfl, id, id⟩
  peak := rfl
  clock := Nat.le_add_right _ _
  log := ⟨[], by simp [World.turn], by simp⟩

theorem record (h : Moved w w') (he : ¬ e.isSave) : Moved w (w'.record e) :=
  h.trans ⟨rfl, fun _ p h => ⟨p, h, rfl, rfl, id, id⟩, rfl, le_rfl, [e], rfl, by simpa using he⟩

theorem reap (h : Moved w w') (i : ℕ) : Moved w (w'.reap i) := by
  refine h.trans ⟨by simp [World.reap], fun j p hp => ?_, rfl, le_rfl, [], by simp [World.reap],
    by simp⟩
  refine ⟨if i = j then { p with exited := true, reaped := true } else p,
    by simp [World.reap, List.getElem?_modify, hp], ?_⟩
  split
  · exact ⟨rfl, rfl, fun _ => rfl, fun _ => rfl⟩
  · exact ⟨rfl, rfl, id, id⟩

end Moved

/-- The process has exited and been waited for. -/
def World.GoneAt (w : World) (i : ℕ) : Prop :=
  ∀ p, w.procs[i]? = some p → p.exited = true ∧ p.reaped = true

theorem World.goneAt_reap (w : World) (i : ℕ) : (w.reap i).GoneAt i := by
  intro p hp
  obtain ⟨q, hq, rfl⟩ : ∃ q : Proc, w.procs[i]? = some q ∧
      { q with exited := true, reaped := true } = p := by
    simpa [World.reap, List.getElem?_modify] using hp
  exact ⟨rfl, rfl⟩

/-- System calls that leave the backend alone and leave these events in the log. -/
structure Called {B : Type} (s s' : Sys B) (events : List Event) : Prop where
  backend : s'.backend = s.backend
  moved : Moved s.world s'.world
  log : s'.world.log = s.world.log ++ events

theorem Called.refl {B : Type} (s : Sys B) : Called s s [] :=
  ⟨rfl, Moved.refl _, (List.append_nil _).symm⟩

@[grind →]
theorem Called.trans {B : Type} {s s' s'' : Sys B} {l l' : List Event} (h : Called s s' l)
    (h' : Called s' s'' l') : Called s s'' (l ++ l') :=
  ⟨h'.backend.trans h.backend, h.moved.trans h'.moved, by rw [h'.log, h.log, List.append_assoc]⟩

section Specs
variable {B α : Type} (s₀ : Sys B) (c : Child)

/-- A call that only lets the world move, with its events and what else it says. -/
theorem syscall_spec {f : Move → World → α × World} (events : α → List Event)
    (P : α → World → Prop)
    (h : ∀ m w, Moved w (f m w).2 ∧ (f m w).2.log = w.log ++ events (f m w).1 ∧
      P (f m w).1 (f m w).2) :
    ⦃fun s => ⌜s = s₀⌝⦄ syscall f
    ⦃post⟨fun a s => ⌜Called s₀ s (events a) ∧ P a s.world⌝, fun _ _ => ⌜False⌝⟩⦄ := by
  mvcgen [syscall]
  rename_i s hs
  subst hs
  obtain ⟨hm, hl, hp⟩ := h (s.world.moves s.world.calls) s.world.turn
  exact ⟨⟨rfl, (Moved.turn _).trans hm, hl⟩, hp⟩

@[spec] theorem tryWait_spec : ⦃fun s => ⌜s = s₀⌝⦄ tryWait c
    ⦃post⟨fun a s => ⌜Called s₀ s [.tryWait c.proc a] ∧ (a = .exited → s.world.GoneAt c.proc)⌝,
      fun _ _ => ⌜False⌝⟩⦄ := by
  refine syscall_spec s₀ (fun a => [.tryWait c.proc a])
    (fun a w => a = .exited → w.GoneAt c.proc) fun m w => ?_
  split
  · split
    · exact ⟨((Moved.refl w).reap c.proc).record id, rfl, fun _ => w.goneAt_reap c.proc⟩
    · exact ⟨(Moved.refl w).record id, rfl, by rintro ⟨⟩⟩
  · rename_i answer hne
    exact ⟨(Moved.refl w).record id, rfl, fun h => absurd h hne⟩

@[spec] theorem kill_spec (pid : UInt32) (signal : Signal) : ⦃fun s => ⌜s = s₀⌝⦄ kill pid signal
    ⦃post⟨fun a s =>
        ⌜Called s₀ s [.kill pid signal a] ∧ (a = .esrch → s.world.aliveAt pid = false)⌝,
      fun _ _ => ⌜False⌝⟩⦄ := by
  refine syscall_spec s₀ (fun a => [.kill pid signal a])
    (fun a w => a = .esrch → w.aliveAt pid = false) fun m w =>
      ⟨(Moved.refl w).record id, rfl, fun h => ?_⟩
  change w.aliveAt pid = false
  grind

@[spec] theorem wait_spec : ⦃fun s => ⌜s = s₀⌝⦄ wait c
    ⦃post⟨fun a s => ⌜Called s₀ s [.wait c.proc a] ∧ (a = .ok () → s.world.GoneAt c.proc)⌝,
      fun _ _ => ⌜False⌝⟩⦄ := by
  refine syscall_spec s₀ (fun a => [.wait c.proc a])
    (fun a w => a = .ok () → w.GoneAt c.proc) fun m w => ?_
  split
  · exact ⟨((Moved.refl w).reap c.proc).record id, rfl, fun _ => w.goneAt_reap c.proc⟩
  · exact ⟨(Moved.refl w).record id, rfl, by rintro ⟨⟩⟩

@[spec] theorem now_spec : ⦃fun s => ⌜s = s₀⌝⦄ now
    ⦃post⟨fun a s => ⌜Called s₀ s [] ∧ a = s.world.clock⌝, fun _ _ => ⌜False⌝⟩⦄ :=
  syscall_spec s₀ (fun _ => []) (fun a w => a = w.clock) fun _ w =>
    ⟨Moved.refl w, (List.append_nil _).symm, rfl⟩

@[spec] theorem sleep_spec (duration : ℕ) : ⦃fun s => ⌜s = s₀⌝⦄ sleep duration
    ⦃post⟨fun _ s => ⌜Called s₀ s [] ∧ s₀.world.clock + duration ≤ s.world.clock⌝,
      fun _ _ => ⌜False⌝⟩⦄ := by
  mvcgen [sleep, syscall]
  rename_i s hs
  subst hs
  have hturn := Moved.turn s.world
  refine ⟨⟨rfl, hturn.trans ?_, (List.append_nil _).symm⟩,
    Nat.add_le_add_right hturn.clock duration⟩
  exact ⟨rfl, fun _ p h => ⟨p, h, rfl, rfl, id, id⟩, rfl, Nat.le_add_right _ _, [],
    (List.append_nil _).symm, by simp⟩

/-- A call that reads something. -/
theorem read_spec (get : Move → α) (event : α → Event) (h : ∀ a, ¬ (event a).isSave) :
    ⦃fun s => ⌜s = s₀⌝⦄ syscall (fun m w => (get m, w.record (event (get m))))
    ⦃post⟨fun a s => ⌜Called s₀ s [event a]⌝, fun _ _ => ⌜False⌝⟩⦄ := by
  let f (m : Move) (w : World) := (get m, w.record (event (get m)))
  have := syscall_spec (f := f) s₀ (fun a => [event a]) (fun _ _ => True) fun m w =>
    ⟨(Moved.refl w).record (h (get m)), rfl, trivial⟩
  mvcgen [this] with grind

@[spec] theorem binaryExists_spec : ⦃fun s => ⌜s = s₀⌝⦄ binaryExists
    ⦃post⟨fun a s => ⌜Called s₀ s [.exists a]⌝, fun _ _ => ⌜False⌝⟩⦄ :=
  read_spec s₀ (·.found) .exists fun _ => id

@[spec] theorem readState_spec : ⦃fun s => ⌜s = s₀⌝⦄ readState
    ⦃post⟨fun a s => ⌜Called s₀ s [.readState a]⌝, fun _ _ => ⌜False⌝⟩⦄ :=
  read_spec s₀ (·.state) .readState fun _ => id

@[spec] theorem readHeartbeat_spec : ⦃fun s => ⌜s = s₀⌝⦄ readHeartbeat
    ⦃post⟨fun a s => ⌜Called s₀ s [.readHeartbeat a]⌝, fun _ _ => ⌜False⌝⟩⦄ :=
  read_spec s₀ (·.heartbeat) .readHeartbeat fun _ => id

@[spec] theorem unixNow_spec : ⦃fun s => ⌜s = s₀⌝⦄ unixNow
    ⦃post⟨fun a s => ⌜Called s₀ s [.readClock a]⌝, fun _ _ => ⌜False⌝⟩⦄ :=
  read_spec s₀ (·.unixTime) .readClock fun _ => id

/-- What `spawn` leaves: one more process, which runs. -/
structure Spawned (w w' : World) (profile : String) (c : Child) : Prop where
  proc : c.proc = w.procs.length
  procs : w'.procs = w.procs ++ [{ pid := c.id, profile }]
  peak : w'.peak = max w.peak w'.alive
  log : w'.log = w.log ++ [.spawn c.proc c.id]

@[spec] theorem spawn_spec (profile : String) : ⦃fun s => ⌜s = s₀⌝⦄ spawn profile
    ⦃post⟨fun a s => ⌜s.backend = s₀.backend ∧ match a with
      | .ok c => ∃ w, Moved s₀.world w ∧ w.log = s₀.world.log ∧ Spawned w s.world profile c
      | .error e => Called s₀ s [.spawnFailed e]⌝, fun _ _ => ⌜False⌝⟩⦄ := by
  mvcgen [spawn, syscall]
  rename_i s hs
  subst hs
  cases h : (s.world.moves s.world.calls).spawned with
  | ok pid => exact ⟨rfl, _, Moved.turn _, rfl, rfl, rfl, rfl, rfl⟩
  | error e => exact ⟨rfl, rfl, (Moved.turn _).record id, rfl⟩

@[spec] theorem writeState_spec (text : String) : ⦃fun s => ⌜s = s₀⌝⦄ writeState text
    ⦃post⟨fun a s => ⌜s.backend = s₀.backend ∧ s.world.log = s₀.world.log ++ [.save text a] ∧
        (a = .done → s.world.stateFile = some text) ∧
        a = (s₀.world.moves s₀.world.calls).saved⌝,
      fun _ _ => ⌜False⌝⟩⦄ := by
  mvcgen [writeState, syscall]
  rename_i s hs
  subst hs
  cases h : (s.world.moves s.world.calls).saved with
  | done => exact ⟨rfl, rfl, fun _ => rfl, rfl⟩
  | noDirectory => exact ⟨rfl, rfl, by rintro ⟨⟩, rfl⟩
  | failed left => exact ⟨rfl, rfl, by rintro ⟨⟩, rfl⟩

end Specs

end CerynthOS.Daemon
