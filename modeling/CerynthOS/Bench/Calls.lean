import CerynthOS.Bench.Experiment

/-! What a call leaves, and why it fails.

    Every piece of the script has one specification here or in the next modules. It says what is left
    when the piece returns and when it does not; in the second case it also says what cannot have
    been: a scheduler that does as it is told, in a state that the piece was meant for. -/

open Std.Do

set_option mvcgen.warning false

namespace CerynthOS.Bench
open Files

/-! ### A healthy system -/

/-- What the commands have made of the scheduler: whether it runs, and the profile selected. -/
structure Control where
  running : Bool
  selected : String

namespace Control

def step (control : Control) : Command → Control
  | .stop => { control with running := false }
  | .start => { control with running := true }
  | .profileSet profile => { control with selected := profile }

def after (control : Control) (commands : List Command) : Control := commands.foldl step control

/-- The profile that a sample should show. -/
def inEffect (control : Control) : String :=
  if control.running then control.selected else "linux-default"

theorem after_concat (control : Control) (commands : List Command) (command : Command) :
    control.after (commands ++ [command]) = (control.after commands).step command := by
  rw [after, List.foldl_append]
  rfl

end Control

/-- The file that says that the plan was completed does not exist. -/
def Incomplete (tree : OutputTree) : Prop := tree.file .output .completion = none

/-- A scheduler that does as it is told and workloads that succeed, on a system that interrupts
    nothing. No watchdog shows up, unless the plan has been completed and it is not `quiet`. -/
structure Env.Healthy (env : Env) (start : Control) (quiet : Prop) : Prop where
  interrupt : ∀ s, env.interrupt s = none
  disabled : ∀ s, (env.sample s).schedExtState = "disabled" ↔
    (start.after s.commands).running = false
  profile : ∀ s (profile : MatrixProfile), (start.after s.commands).inEffect = profile.name →
    ∃ actual, (env.sample s).actualProfile = some actual ∧ actual.toLower = profile.name
  healthy : ∀ s, (start.after s.commands).running = true → (env.sample s).schedulerHealthy = true
  known : ∀ s, s.commands = [] → ∃ actual, (env.sample s).actualProfile = some actual ∧
    actual ∈ knownProfiles
  telemetry : ∀ s, 1 < s.samples → ∀ metric, metric ∈ (env.sample s).telemetry
  stopped : ∀ s t, (start.after s.commands).running = true → t.commands = s.commands ++ [.stop] →
    checkCleanStop (env.record t) (env.sample s).scheduler.pid = true
  state : ∀ s, (env.stateRecord s).schedulerBackend = some "scx" ∧
    (env.stateRecord s).adaptationEnabled = some false
  lastRow : ∀ s, (env.lastRow s).isSome = true
  rows : ∀ s, quiet ∨ Incomplete s.tree → watchdogRows (env.rows s) = []
  overdue : ∀ s, env.overdue s = false
  exitCode : ∀ s, env.exitCode s = 0

def Env.Interrupts (env : Env) : Prop := ∃ s stop, env.interrupt s = some stop

@[grind →]
theorem Env.Healthy.not_interrupts {env : Env} {start : Control} {quiet : Prop}
    (h : env.Healthy start quiet) : ¬ env.Interrupts := by
  rintro ⟨s, stop, hs⟩
  rw [h.interrupt] at hs
  cases hs

/-! ### What is left -/

/-- A poll has found a watchdog. -/
def State.seen (s : State) : Bool := (s.kernel.map KernelEvents.watchdogDetected).getD false

/-- What the polls and the script have noted about the scheduler. -/
def State.flags (s : State) : Option (Bool × Bool) :=
  s.kernel.map fun kernel => (kernel.watchdogDetected, kernel.unsafeToRestart)

theorem seen_of_flags {s s' : State} (h : s'.flags = s.flags) : s'.seen = s.seen := by
  cases hk : s.kernel <;> cases hk' : s'.kernel <;>
    simp_all [State.flags, State.seen]

theorem unsafe_of_flags {s s' : State} (h : s'.flags = s.flags) :
    s'.unsafeToRestart = s.unsafeToRestart := by
  cases hk : s.kernel <;> cases hk' : s'.kernel <;>
    simp_all [State.flags, State.unsafeToRestart]

/-- There is no journal to be read. -/
theorem seen_of_ungated {s : State} (h : s.kernel.isSome = false) : s.seen = false := by
  have hk : s.kernel = none := by rwa [Option.isSome_eq_false_iff, Option.isNone_iff_eq_none] at h
  rw [State.seen, hk]
  rfl

theorem unsafe_marked {s : State} (h : s.kernel.isSome = true) :
    s.marked.unsafeToRestart = true := by
  obtain ⟨kernel, hk⟩ := Option.isSome_iff_exists.mp h
  rw [State.unsafeToRestart, State.marked, hk]
  rfl

theorem seen_marked (s : State) : s.marked.seen = s.seen := by
  cases hk : s.kernel <;> simp [State.marked, State.seen, hk]

def hasWatchdog (rows : List Row) : Bool := !(watchdogRows rows).isEmpty

/-- What the journal has shown is remembered. -/
structure Polled (s s' : State) : Prop where
  kernel : s'.kernel.isSome = s.kernel.isSome
  samples : s.samples ≤ s'.samples
  polls : ∃ l, s'.polls = s.polls ++ l ∧ s'.seen = (s.seen || l.any hasWatchdog)

/-- The results are left alone. -/
structure Logged (s s' : State) : Prop extends Polled s s' where
  results : s'.results = s.results
  reusedRuns : s'.reusedRuns = s.reusedRuns
  newRuns : s'.newRuns = s.newRuns

/-- The files and the results are left alone. -/
structure Calm (s s' : State) : Prop extends Logged s s' where
  tree : s'.tree = s.tree

/-- Only the files are touched. -/
structure Filed (s s' : State) : Prop where
  samples : s'.samples = s.samples
  commands : s'.commands = s.commands
  kernel : s'.kernel = s.kernel
  polls : s'.polls = s.polls
  results : s'.results = s.results
  reusedRuns : s'.reusedRuns = s.reusedRuns
  newRuns : s'.newRuns = s.newRuns

variable {s s' s'' : State}

theorem Polled.refl (s : State) : Polled s s := ⟨rfl, Nat.le_refl _, [], by simp, by simp⟩

@[grind →]
theorem Polled.trans (h : Polled s s') (h' : Polled s' s'') : Polled s s'' := by
  obtain ⟨l, hl, hs⟩ := h.polls
  obtain ⟨l', hl', hs'⟩ := h'.polls
  refine ⟨h'.kernel.trans h.kernel, h.samples.trans h'.samples, l ++ l', ?_, ?_⟩
  · rw [hl', hl, List.append_assoc]
  · rw [hs', hs, List.any_append, Bool.or_assoc]

theorem Logged.refl (s : State) : Logged s s := ⟨Polled.refl s, rfl, rfl, rfl⟩

@[grind →]
theorem Logged.trans (h : Logged s s') (h' : Logged s' s'') : Logged s s'' :=
  ⟨h.toPolled.trans h'.toPolled, h'.results.trans h.results,
    h'.reusedRuns.trans h.reusedRuns, h'.newRuns.trans h.newRuns⟩

theorem Calm.refl (s : State) : Calm s s := ⟨Logged.refl s, rfl⟩

@[grind →]
theorem Calm.trans (h : Calm s s') (h' : Calm s' s'') : Calm s s'' :=
  ⟨h.toLogged.trans h'.toLogged, h'.tree.trans h.tree⟩

theorem Filed.refl (s : State) : Filed s s := ⟨rfl, rfl, rfl, rfl, rfl, rfl, rfl⟩

@[grind →]
theorem Filed.trans (h : Filed s s') (h' : Filed s' s'') : Filed s s'' :=
  ⟨h'.samples.trans h.samples, h'.commands.trans h.commands, h'.kernel.trans h.kernel,
    h'.polls.trans h.polls, h'.results.trans h.results, h'.reusedRuns.trans h.reusedRuns,
    h'.newRuns.trans h.newRuns⟩

theorem Filed.flags (h : Filed s s') : s'.flags = s.flags := by
  rw [State.flags, h.kernel, State.flags]

theorem Filed.seen (h : Filed s s') : s'.seen = s.seen := seen_of_flags h.flags

@[grind →]
theorem Filed.logged (h : Filed s s') : Logged s s' :=
  ⟨⟨by rw [h.kernel], h.samples.ge, [], by simp [h.polls], by simp [h.seen]⟩, h.results,
    h.reusedRuns, h.newRuns⟩

theorem Filed.calm (h : Filed s s') (ht : s'.tree = s.tree) : Calm s s' := ⟨h.logged, ht⟩

/-! ### Calls -/

section
variable (env : Env) (s₀ : State) {start : Control} {quiet : Prop}

@[spec] theorem call_spec : ⦃fun s => ⌜s = s₀⌝⦄ call env
    ⦃post⟨fun _ s => ⌜Filed s₀ s ∧ s.tree = s₀.tree⌝,
      fun _ s => ⌜Filed s₀ s ∧ s.tree = s₀.tree ∧ env.Interrupts⌝⟩⦄ := by
  mvcgen [call]
  case vc1.h_1 s hs t stop hstop =>
    subst hs
    exact ⟨⟨rfl, rfl, rfl, rfl, rfl, rfl, rfl⟩, rfl, _, _, hstop⟩
  case vc2.h_2 s hs t hstop =>
    subst hs
    exact ⟨⟨rfl, rfl, rfl, rfl, rfl, rfl, rfl⟩, rfl⟩

@[spec] theorem fileExists_spec (d : Dir) (f : File) : ⦃fun s => ⌜s = s₀⌝⦄ fileExists env d f
    ⦃post⟨fun a s => ⌜Filed s₀ s ∧ s.tree = s₀.tree ∧ a = (s₀.tree.file d f).isSome⌝,
      fun _ s => ⌜Filed s₀ s ∧ s.tree = s₀.tree ∧ env.Interrupts⌝⟩⦄ := by
  mvcgen [fileExists] with grind

@[spec] theorem dirExists_spec (d : Dir) : ⦃fun s => ⌜s = s₀⌝⦄ dirExists env d
    ⦃post⟨fun a s => ⌜Filed s₀ s ∧ s.tree = s₀.tree ∧ a = (s₀.tree d).isSome⌝,
      fun _ s => ⌜Filed s₀ s ∧ s.tree = s₀.tree ∧ env.Interrupts⌝⟩⦄ := by
  mvcgen [dirExists] with grind

@[spec] theorem applyStep_spec (step : TreeStep Dir File UInt8) :
    ⦃fun s => ⌜s = s₀⌝⦄ applyStep step
    ⦃post⟨fun _ s => ⌜Filed s₀ s ∧ s.tree = step.apply s₀.tree⌝, fun _ _ => ⌜False⌝⟩⦄ := by
  mvcgen [applyStep]
  rename_i hs _
  subst hs
  exact ⟨⟨rfl, rfl, rfl, rfl, rfl, rfl, rfl⟩, rfl⟩

@[spec] theorem raise_spec {α : Type} (error : PyError) : ⦃fun s => ⌜s = s₀⌝⦄
    (raise error : Script α) ⦃post⟨fun _ _ => ⌜False⌝, fun e s => ⌜e = .raised error ∧ s = s₀⌝⟩⦄ := by
  mvcgen [raise]

@[spec] theorem ofExcept_spec {α : Type} (x : Except PyError α) : ⦃fun s => ⌜s = s₀⌝⦄ ofExcept x
    ⦃post⟨fun a s => ⌜x = .ok a ∧ s = s₀⌝,
      fun stop s => ⌜∃ e, x = .error e ∧ stop = .raised e ∧ s = s₀⌝⟩⦄ := by
  mvcgen [ofExcept] with grind

@[spec] theorem mkdir_spec (d : Dir) (existOk : Bool) : ⦃fun s => ⌜s = s₀⌝⦄ mkdir env d existOk
    ⦃post⟨fun _ s => ⌜Filed s₀ s ∧
        ((s₀.tree d).isSome = true ∧ existOk = true ∧ s.tree = s₀.tree ∨
          s₀.tree d = none ∧ s.tree = TreeStep.apply s₀.tree (.mkdir d))⌝,
      fun _ s => ⌜Filed s₀ s ∧ s.tree = s₀.tree ∧
        (env.Interrupts ∨ (s₀.tree d).isSome = true ∧ existOk = false)⌝⟩⦄ := by
  mvcgen [mkdir] with grind [Option.not_isSome_iff_eq_none]

@[spec] theorem moveDir_spec (d e : Dir) : ⦃fun s => ⌜s = s₀⌝⦄ moveDir env d e
    ⦃post⟨fun _ s => ⌜Filed s₀ s ∧ s.tree = TreeStep.apply s₀.tree (.move d e)⌝,
      fun _ s => ⌜Filed s₀ s ∧ s.tree = s₀.tree ∧
        (env.Interrupts ∨ (s₀.tree e).isSome = true)⌝⟩⦄ := by
  mvcgen [moveDir] with grind

@[spec] theorem renameFile_spec (d : Dir) (f g : File) : ⦃fun s => ⌜s = s₀⌝⦄ renameFile env d f g
    ⦃post⟨fun _ s => ⌜Filed s₀ s ∧ s.tree = TreeStep.apply s₀.tree (.inside d (.rename f g))⌝,
      fun _ s => ⌜Filed s₀ s ∧ s.tree = s₀.tree ∧ env.Interrupts⌝⟩⦄ := by
  mvcgen [renameFile] with grind

@[spec] theorem openFile_spec (d : Dir) (f : File) : ⦃fun s => ⌜s = s₀⌝⦄ openFile env d f
    ⦃post⟨fun _ s => ⌜Filed s₀ s ∧ s.tree = s₀.tree.put d f [] ∧ (s₀.tree d).isSome = true⌝,
      fun _ s => ⌜Filed s₀ s ∧ s.tree = s₀.tree ∧ (env.Interrupts ∨ (s₀.tree d).isSome = false)⌝⟩⦄ := by
  mvcgen [openFile] with grind [Tree.apply_truncate]

theorem appendChunks_spec (d : Dir) (f : File) (chunks : List (List UInt8)) :
    ⦃fun s => ⌜s = s₀⌝⦄ appendChunks env d f chunks
    ⦃post⟨fun _ s => ⌜Filed s₀ s ∧ ∀ written, s₀.tree.file d f = some written →
        s.tree = s₀.tree.put d f (written ++ chunks.flatten)⌝,
      fun _ s => ⌜Filed s₀ s ∧ env.Interrupts ∧ ∀ written, s₀.tree.file d f = some written →
        ∃ p, p <+: chunks.flatten ∧ s.tree = s₀.tree.put d f (written ++ p)⌝⟩⦄ := by
  induction chunks generalizing s₀ with
  | nil =>
    mvcgen [appendChunks]
    rename_i hs
    subst hs
    refine ⟨Filed.refl _, fun written hw => ?_⟩
    rw [List.flatten_nil, List.append_nil, Tree.put_eq_self hw]
  | cons chunk chunks ih =>
    mvcgen [appendChunks, ih]
    case vc1 s hs _ s₁ h₁ _ s₂ h₂ _ s₃ =>
      subst hs
      rintro h₃ ht
      refine ⟨(h₁.1.trans h₂.1).trans h₃, fun written hw => ?_⟩
      have h₂ : s₂.tree = s.tree.put d f (written ++ chunk) := by
        rw [h₂.2, h₁.2, Tree.apply_append hw]
      have hfile : s₂.tree.file d f = some (written ++ chunk) := by
        rw [h₂, Tree.file_put_self (Tree.isSome_of_file hw)]
      rw [ht _ hfile, h₂, Tree.put_put, List.append_assoc, List.flatten_cons]
    case vc2 s hs _ s₁ h₁ _ s₂ h₂ _ s₃ =>
      subst hs
      rintro h₃ hi ht
      refine ⟨(h₁.1.trans h₂.1).trans h₃, hi, fun written hw => ?_⟩
      have h₂ : s₂.tree = s.tree.put d f (written ++ chunk) := by
        rw [h₂.2, h₁.2, Tree.apply_append hw]
      have hfile : s₂.tree.file d f = some (written ++ chunk) := by
        rw [h₂, Tree.file_put_self (Tree.isSome_of_file hw)]
      obtain ⟨p, hp, ht⟩ := ht _ hfile
      refine ⟨chunk ++ p, ?_, by rw [ht, h₂, Tree.put_put, List.append_assoc]⟩
      rw [List.flatten_cons]
      exact (List.prefix_append_right_inj _).mpr hp
    case vc3 s hs _ s₁ =>
      subst hs
      rintro h₁ ht hi
      refine ⟨h₁, hi, fun written hw => ⟨[], List.nil_prefix, ?_⟩⟩
      rw [List.append_nil, Tree.put_eq_self hw, ht]

@[spec] theorem append_spec (d : Dir) (f : File) (bytes : List UInt8) :
    ⦃fun s => ⌜s = s₀⌝⦄ append env d f bytes
    ⦃post⟨fun _ s => ⌜Filed s₀ s ∧ ∀ written, s₀.tree.file d f = some written →
        s.tree = s₀.tree.put d f (written ++ bytes)⌝,
      fun _ s => ⌜Filed s₀ s ∧ env.Interrupts ∧ ∀ written, s₀.tree.file d f = some written →
        ∃ p, p <+: bytes ∧ s.tree = s₀.tree.put d f (written ++ p)⌝⟩⦄ := by
  have h := fun s => appendChunks_spec env s₀ d f (env.chunks s bytes)
  simp only [env.chunks_flatten] at h
  mvcgen [append, h]

@[spec] theorem writeText_spec (d : Dir) (f : File) (bytes : List UInt8) :
    ⦃fun s => ⌜s = s₀⌝⦄ writeText env d f bytes
    ⦃post⟨fun _ s => ⌜Filed s₀ s ∧ s.tree = s₀.tree.put d f bytes ∧ (s₀.tree d).isSome = true⌝,
      fun _ s => ⌜Filed s₀ s ∧
        (s.tree = s₀.tree ∨ ∃ p, p <+: bytes ∧ s.tree = s₀.tree.put d f p) ∧
        (env.Interrupts ∨ (s₀.tree d).isSome = false)⌝⟩⦄ := by
  mvcgen [writeText]
  case vc1 s hs _ s₁ h₁ _ s₂ =>
    subst hs
    intro h₂ ht
    have := ht [] (by rw [h₁.2.1, Tree.file_put_self h₁.2.2])
    refine ⟨h₁.1.trans h₂, ?_, h₁.2.2⟩
    rw [this, h₁.2.1, Tree.put_put, List.nil_append]
  case vc2 s hs _ s₁ h₁ _ s₂ =>
    subst hs
    intro h₂ hi ht
    obtain ⟨p, hp, ht⟩ := ht [] (by rw [h₁.2.1, Tree.file_put_self h₁.2.2])
    refine ⟨h₁.1.trans h₂, .inr ⟨p, hp, ?_⟩, .inl hi⟩
    rw [ht, h₁.2.1, Tree.put_put, List.nil_append]
  case vc3 s hs _ s₁ =>
    subst hs
    exact fun h ht hi => ⟨h, .inl ht, hi⟩

@[spec] theorem writeJson_spec {α : Type} [Json.Document α] (d : Dir) (f : File) (value : α) :
    ⦃fun s => ⌜s = s₀⌝⦄ writeJson env d f value
    ⦃post⟨fun _ s => ⌜Filed s₀ s ∧
        s.tree = s₀.tree.put d f (Json.Document.dumpsIndent value ++ [10]) ∧
        (s₀.tree d).isSome = true⌝,
      fun _ s => ⌜Filed s₀ s ∧ (s.tree = s₀.tree ∨
          ∃ p, p <+: Json.Document.dumpsIndent value ++ [10] ∧ s.tree = s₀.tree.put d f p) ∧
        (env.Interrupts ∨ (s₀.tree d).isSome = false)⌝⟩⦄ :=
  writeText_spec env s₀ d f _

/-- A write that is broken off leaves the file as it was, or something in it. -/
theorem left_of_broken {d : Dir} {f : File} {text : List UInt8} {tree tree' : OutputTree}
    (h : tree' = tree ∨ ∃ p, p <+: text ∧ tree' = tree.put d f p) :
    tree' = tree ∨ ∃ p, tree' = tree.put d f p :=
  h.imp_right (Exists.imp fun _ => And.right)

@[spec] theorem writeRest_spec (d : Dir) (f : File) : ⦃fun s => ⌜s = s₀⌝⦄ writeRest env d f
    ⦃post⟨fun _ s => ⌜Filed s₀ s ∧ (∃ bytes, s.tree = s₀.tree.put d f bytes) ∧
        (s₀.tree d).isSome = true⌝,
      fun _ s => ⌜Filed s₀ s ∧ (s.tree = s₀.tree ∨ ∃ bytes, s.tree = s₀.tree.put d f bytes) ∧
        (env.Interrupts ∨ (s₀.tree d).isSome = false)⌝⟩⦄ := by
  mvcgen [writeRest] with grind

end

/-! ### The scheduler and the journal -/

/-- The system has failed: it is not healthy, or not quiet any more. -/
def Env.AtFault (env : Env) (tree : OutputTree) : Prop :=
  ∀ start quiet, env.Healthy start quiet → ¬ (quiet ∨ Incomplete tree)

theorem Env.Interrupts.atFault {env : Env} (h : env.Interrupts) (tree : OutputTree) :
    env.AtFault tree := fun _ _ hh => absurd h hh.not_interrupts

/-- Nothing has been told to the scheduler, and nothing noted about it. -/
structure Still (s s' : State) : Prop extends Calm s s' where
  commands : s'.commands = s.commands
  flags : s'.flags = s.flags

theorem Still.refl (s : State) : Still s s := ⟨Calm.refl s, rfl, rfl⟩

@[grind →]
theorem Still.trans (h : Still s s') (h' : Still s' s'') : Still s s'' :=
  ⟨h.toCalm.trans h'.toCalm, h'.commands.trans h.commands, h'.flags.trans h.flags⟩

theorem Still.seen (h : Still s s') : s'.seen = s.seen := seen_of_flags h.flags

theorem Filed.still (h : Filed s s') (ht : s'.tree = s.tree) : Still s s' :=
  ⟨h.calm ht, h.commands, h.flags⟩

/-- The journal has been read once more. -/
theorem Filed.poll {kernel : KernelEvents} (h : Filed s s') (ht : s'.tree = s.tree)
    (hk : s.kernel = some kernel) (rows : List Row) :
    Calm s { s' with kernel := some (kernel.poll rows), polls := s'.polls ++ [rows] } where
  kernel := by rw [hk]; rfl
  samples := h.samples.ge
  polls := by
    refine ⟨[rows], by rw [h.polls], ?_⟩
    simp [State.seen, hk, KernelEvents.poll_watchdogDetected, hasWatchdog]
  tree := ht
  results := h.results
  reusedRuns := h.reusedRuns
  newRuns := h.newRuns

section
variable (env : Env) (s₀ : State)

@[spec] theorem observe_spec : ⦃fun s => ⌜s = s₀⌝⦄ observe env
    ⦃post⟨fun a s => ⌜Still s₀ s ∧ s.samples = s₀.samples + 1 ∧ a = env.sample s⌝,
      fun _ s => ⌜Still s₀ s ∧ env.Interrupts⌝⟩⦄ := by
  mvcgen [observe]
  case vc1 s hs _ s₁ h₁ t =>
    subst hs
    have h := h₁.1.still h₁.2
    exact ⟨{ h with samples := Nat.le_succ_of_le h.samples }, congrArg (· + 1) h₁.1.samples⟩
  case vc2 s hs _ s₁ =>
    subst hs
    exact fun h ht hi => ⟨h.still ht, hi⟩

@[spec] theorem pollKernel_spec : ⦃fun s => ⌜s = s₀⌝⦄ pollKernel env
    ⦃post⟨fun _ s => ⌜Still s₀ s⌝, fun _ s => ⌜Calm s₀ s ∧ env.AtFault s₀.tree⌝⟩⦄ := by
  mvcgen [pollKernel]
  case vc1 s hs _ => exact hs ▸ Still.refl s
  case vc2 => exact False.elim
  case vc3 s hs kernel hk _ s₁ h₁ rows t hrows _ s₂ =>
    subst hs
    rintro - rfl
    refine ⟨h₁.1.poll h₁.2 hk rows, fun start quiet hh hq => hrows ?_⟩
    exact hh.rows s₁ (h₁.2 ▸ hq)
  case vc4 s hs kernel hk _ s₁ h₁ rows t hrows =>
    subst hs
    refine ⟨h₁.1.poll h₁.2 hk rows, h₁.1.commands, ?_⟩
    have hrows : watchdogRows rows = [] := not_not.mp hrows
    simp [State.flags, hk, t, KernelEvents.poll, hrows]
  case vc5 s hs kernel hk _ s₁ =>
    subst hs
    exact fun h ht hi => ⟨h.calm ht, hi.atFault _⟩

@[spec] theorem ctl_spec (command : Command) : ⦃fun s => ⌜s = s₀⌝⦄ ctl env command
    ⦃post⟨fun _ s => ⌜Calm s₀ s ∧ s.commands = s₀.commands ++ [command] ∧ s.flags = s₀.flags⌝,
      fun _ s => ⌜Calm s₀ s ∧ env.AtFault s₀.tree⌝⟩⦄ := by
  mvcgen [ctl]
  case vc1 s hs _ s₁ h₁ t _ s₂ =>
    subst hs
    have hc : Calm s t.2 := { h₁.1.calm h₁.2 with }
    exact fun h => ⟨hc.trans h.toCalm, by rw [h.commands, ← h₁.1.commands], h.flags.trans h₁.1.flags⟩
  case vc2 s hs _ s₁ h₁ t _ s₂ =>
    subst hs
    have hc : Calm s t.2 := { h₁.1.calm h₁.2 with }
    exact fun h hf => ⟨hc.trans h, hc.tree ▸ hf⟩
  case vc3 s hs _ s₁ =>
    subst hs
    exact fun h ht hi => ⟨h.calm ht, hi.atFault _⟩

@[spec] theorem markUnsafe_spec : ⦃fun s => ⌜s = s₀⌝⦄ markUnsafe
    ⦃post⟨fun _ s => ⌜Calm s₀ s ∧ s = s₀.marked⌝, fun _ _ => ⌜False⌝⟩⦄ := by
  mvcgen [markUnsafe]
  rename_i s hs t
  subst hs
  exact ⟨⟨⟨⟨by simp [t, State.marked], Nat.le_refl _, [], by simp [t, State.marked],
    by simp [t, seen_marked]⟩, rfl, rfl, rfl⟩, rfl⟩, rfl⟩

/-- The scheduler is not running. -/
def Env.Stopped (env : Env) (commands : List Command) : Prop :=
  ∀ start quiet, env.Healthy start quiet → (start.after commands).running = false

theorem stopped_concat (commands : List Command) : env.Stopped (commands ++ [.stop]) := by
  intro start quiet _
  rw [Control.after_concat]
  rfl

theorem stopped_of_disabled {s : State} (h : (env.sample s).schedExtState = "disabled") :
    env.Stopped s.commands :=
  fun _ _ hh => (hh.disabled s).mp h

/-- A scheduler that ran has not stopped cleanly. -/
theorem atFault_of_unclean {s t : State} (h : (env.sample s).schedExtState ≠ "disabled")
    (ht : t.commands = s.commands ++ [.stop])
    (hc : ¬ checkCleanStop (env.record t) (env.sample s).scheduler.pid = true)
    (tree : OutputTree) : env.AtFault tree := by
  intro start quiet hh
  have hrun : (start.after s.commands).running = true :=
    Bool.eq_true_of_not_eq_false fun hx => h ((hh.disabled s).mpr hx)
  exact absurd (hh.stopped s t hrun ht) hc

attribute [grind →] Still.toCalm Still.commands Still.flags Calm.toLogged Calm.tree Logged.toPolled

@[spec] theorem stopScheduler_spec : ⦃fun s => ⌜s = s₀⌝⦄ stopScheduler env
    ⦃post⟨fun _ s => ⌜Calm s₀ s ∧ s.flags = s₀.flags ∧ env.Stopped s.commands⌝,
      fun _ s => ⌜Calm s₀ s ∧ env.AtFault s₀.tree⌝⟩⦄ := by
  mvcgen [stopScheduler] with
    grind [stopped_concat, stopped_of_disabled, atFault_of_unclean, Env.Interrupts.atFault,
      → Filed.still]

end

end CerynthOS.Bench
