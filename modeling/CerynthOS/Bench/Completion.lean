import CerynthOS.Bench.Steady

/-! Whether a matrix counts as completed once its process has ended, and what a watchdog does to it.

    A watchdog that is seen while the plan is run ends in `failure.json`. The polls of the final
    restoration come when `completion.json` has been written, and nothing is written after them. -/

open Std.Do

set_option mvcgen.warning false

namespace CerynthOS.Bench
open Files Json Prog

/-! ### The tools that read the result -/

section
variable [Documents]

/-- `verify` of `validation_completion` does not raise for a matrix. -/
def verifyMatrix (root : Disk File UInt8) : Bool :=
  if (root .failure).isSome then false
  else match (readJson root .completion : Except PyError Completion) with
    | .error _ => false
    | .ok result => result.status == "pass" && result.mode == "matrix" && result.completedRuns == 90

end

/-- The directories that `quarantined_runs` looks at. -/
inductive Phase where
  | smoke
  | stability
  | diagnostic
  | adaptiveEvaluation
  | benchmarkMatrix
  deriving DecidableEq

def Phase.all : List Phase := [smoke, stability, diagnostic, adaptiveEvaluation, benchmarkMatrix]

/-- What is read of `source-revision.json`. -/
structure SourceRevision where
  scheduler : Option String

/-- A directory `cerynth-validation-*`. -/
structure Validation where
  name : String
  manifest : Option SourceRevision
  phase : Phase → Option (Disk File UInt8)

/-- `failure.json` exists in the directory. -/
def hasFailure (files : Option (Disk File UInt8)) : Bool := (files.bind (· .failure)).isSome

def quarantinedRuns (artifacts : List Validation) (binaryHash : String) : List String :=
  let failed := artifacts.filter fun directory =>
    (directory.manifest.bind SourceRevision.scheduler) == some binaryHash &&
      Phase.all.any fun name => hasFailure (directory.phase name)
  (failed.map Validation.name).mergeSort (· ≤ ·)

/-- The matrix is not accepted, and its failure blocks the binary it was run with. -/
structure Rejected [Documents] (tree : OutputTree) : Prop where
  verify : ∀ root, tree .output = some root → verifyMatrix root = false
  failure : hasFailure (tree .output) = true
  quarantined : ∀ artifacts binaryHash, ∀ directory ∈ artifacts,
    directory.manifest.bind SourceRevision.scheduler = some binaryHash →
    directory.phase .benchmarkMatrix = tree .output →
    directory.name ∈ quarantinedRuns artifacts binaryHash

/-- A watchdog that any poll of the process has returned ends in a rejected matrix. -/
def FailClosed [Documents] (s : State) : Prop :=
  s.polls.any hasWatchdog = true → Rejected s.tree

theorem rejected_iff [Documents] {tree : OutputTree} :
    Rejected tree ↔ (tree.file .output .failure).isSome = true := by
  refine ⟨fun h => h.failure, fun h => ⟨fun root hroot => ?_, h, ?_⟩⟩
  · rw [Tree.file, hroot, Option.bind_some] at h
    rw [verifyMatrix, if_pos h]
  · intro artifacts binaryHash directory hmem hhash hphase
    rw [quarantinedRuns, List.mem_mergeSort, List.mem_map]
    refine ⟨directory, List.mem_filter.mpr ⟨hmem, ?_⟩, rfl⟩
    rw [hhash, beq_self_eq_true, Bool.true_and, List.any_eq_true]
    exact ⟨.benchmarkMatrix, by decide, by rw [hphase]; exact h⟩

/-! ### How the script runs -/

section
variable (env : Env)

theorem call_exec (s : State) : (call env).exec s = match env.interrupt s.called with
    | some stop => (.error stop, s.called)
    | none => (.ok (), s.called) := by
  rw [call]
  simp only [exec_bind]
  change (match env.interrupt s.called with
    | some stop => (throw stop : Script Unit)
    | none => pure ()).exec s.called = _
  cases env.interrupt s.called <;> rfl

theorem openFile_exec (d : Dir) (f : File) (s : State) (hd : (s.tree d).isSome = true) :
    (openFile env d f).exec s = match env.interrupt s.called with
    | some stop => (.error stop, s.called)
    | none => (.ok (), { s.called with tree := s.tree.put d f [] }) := by
  rw [openFile, exec_bind, call_exec]
  cases env.interrupt s.called with
  | some stop => rfl
  | none =>
    change (if (s.tree d).isSome then applyStep (.inside d (.truncate f))
      else raise .os : Script Unit).exec s.called = _
    rw [if_pos hd]
    rfl

/-- A failure is recorded unless the first call that does so is interrupted. -/
theorem failure_recorded (error : PyError) {s : State} (ho : (s.tree .output).isSome = true)
    (hf : s.tree.file .output .failure = none) :
    (((recordFailure env error).exec s).2.tree.file .output .failure).isSome = true ↔
      env.interrupt s.marked.called = none := by
  have hstate : ((recordFailure env error).exec s).2 =
      ((writeRest env .output .failure).exec s.marked).2 := by
    rw [recordFailure, exec_bind]
    change ((writeRest env .output .failure >>= fun _ => raise error).exec s.marked).2 = _
    rw [exec_bind]
    rcases (writeRest env .output .failure).exec s.marked with ⟨_ | _, s'⟩ <;> rfl
  have hwrite : (writeRest env .output .failure).exec s.marked =
      (openFile env .output .failure >>= fun _ =>
        append env .output .failure (env.text s.marked)).exec s.marked := rfl
  rw [hstate, hwrite, exec_bind, openFile_exec env .output .failure s.marked ho]
  cases env.interrupt s.marked.called with
  | some stop => simp [State.marked, State.called, hf]
  | none =>
    simp only [iff_true]
    set t : State := { s.marked.called with tree := s.marked.tree.put .output .failure [] }
    have hempty : t.tree.file .output .failure = some [] := Tree.file_put_self ho
    have hspec := triple_iff.mp (append_spec env t .output .failure (env.text s.marked)) t rfl
    rcases hx : (append env .output .failure (env.text s.marked)).exec t with ⟨e | _, t'⟩
    · obtain ⟨-, -, hp⟩ := hspec.error hx
      obtain ⟨p, -, ht⟩ := hp [] hempty
      rw [ht, Tree.file_put_self (Tree.isSome_of_file hempty)]
      rfl
    · obtain ⟨-, ht⟩ := hspec.ok hx
      rw [ht [] hempty, Tree.file_put_self (Tree.isSome_of_file hempty)]
      rfl

end

/-! ### When the result is not fail-closed -/

/-- No watchdog is seen too late, and a failure that is seen is recorded. Once the plan has been
    completed, no poll of the restoration may find a watchdog. If the plan fails after one, the first
    call of the `except` clause is not interrupted, and the process is not killed before. -/
def Env.Timely [Documents] (env : Env) (args : Args) (tree : OutputTree) : Prop :=
  match (openSession env args).exec (.init tree) with
  | (.error _, _) => True
  | (.ok (original, timeNs), s₁) =>
    match (runPlan env args timeNs).exec s₁ with
    | (.ok _, s₂) => ∀ rows ∈ ((endSession env original).exec s₂).2.polls.drop s₂.polls.length,
      hasWatchdog rows = false
    | (.error (.raised _), s₂) => s₂.seen = true → env.interrupt s₂.marked.called = none
    | (.error .killed, s₂) => s₂.seen = false

section
variable [Documents]

/-- What the polls have returned is what the script has noted. -/
def State.Noted (s : State) : Prop := s.polls.any hasWatchdog = s.seen

omit [Documents] in
theorem Polled.noted {s s' : State} (h : Polled s s') (hs : s.Noted) : s'.Noted := by
  obtain ⟨l, hl, hseen⟩ := h.polls
  rw [State.Noted, hl, List.any_append, hseen, hs]

omit [Documents] in
theorem State.Unused.noted {s : State} (h : s.Unused) : s.Noted := h.quiet.trans h.seen.symm

theorem failClosed_iff {s : State} (h : s.Noted) :
    FailClosed s ↔ (s.seen = true → (s.tree.file .output .failure).isSome = true) := by
  rw [FailClosed, h, rejected_iff]

theorem failClosed_of_quiet {s : State} (h : s.Noted) (hs : s.seen = false) : FailClosed s :=
  (failClosed_iff h).mpr fun hx => absurd (hs.symm.trans hx) (by decide)

theorem failClosed_of_unrecorded {s : State} (h : s.Noted)
    (hf : s.tree.file .output .failure = none) : FailClosed s ↔ s.seen = false := by
  rw [failClosed_iff h, hf]
  simp

/-- The plan was completed: only the restoration can still see a watchdog. -/
theorem failClosed_endSession (env : Env) (original : Original) {s : State} (hn : s.Noted)
    (hs : s.seen = false) (hf : s.tree.file .output .failure = none) :
    FailClosed ((endSession env original).exec s).2 ↔
      ∀ rows ∈ ((endSession env original).exec s).2.polls.drop s.polls.length,
        hasWatchdog rows = false := by
  have hw : Worked [] markerFiles s ((endSession env original).exec s).2 := by
    have hspec := exec_of_spec (endSession_spec env s original)
    rcases hx : (endSession env original).exec s with ⟨_ | _, s'⟩
    · exact (hspec.error hx).1
    · exact (hspec.ok hx).1
  obtain ⟨l, hl, hseen⟩ := hw.polls
  rw [failClosed_of_unrecorded (hw.noted hn) ((hw.files _ (by decide)).trans hf), hl,
    List.drop_left, hseen, hs, Bool.false_or]
  simp only [List.any_eq_false, Bool.not_eq_true]

/-- The plan failed. -/
theorem failClosed_handled (env : Env) (original : Original) (error : PyError) {s : State}
    (hn : s.Noted) (ho : (s.tree .output).isSome = true)
    (hf : s.tree.file .output .failure = none) :
    FailClosed ((tryFinally (recordFailure env error) (endSession env original)).exec s).2 ↔
      (s.seen = true → env.interrupt s.marked.called = none) := by
  rw [← failure_recorded env error ho hf]
  have hspec := exec_of_spec (recordFailure_spec env s error)
  rcases hx : (recordFailure env error).exec s with ⟨stop | _, s₁⟩
  · obtain ⟨hw, hseen, hheld⟩ := hspec.error hx
    cases stop with
    | killed => rw [tryFinally_exec, hx, failClosed_iff (hw.noted hn), hseen]
    | raised error' =>
      obtain ⟨hw', hseen'⟩ : Worked [] markerFiles s₁ ((endSession env original).exec s₁).2 ∧
          (s₁.unsafeToRestart = true →
            ((endSession env original).exec s₁).2.seen = s₁.seen) := by
        have hspec := exec_of_spec (endSession_spec env s₁ original)
        rcases hx : (endSession env original).exec s₁ with ⟨_ | _, s'⟩
        · exact ⟨(hspec.error hx).1, (hspec.error hx).2.1⟩
        · exact ⟨(hspec.ok hx).1, (hspec.ok hx).2.2⟩
      have hkeep : ((endSession env original).exec s₁).2.seen = s.seen := by
        cases hk : s.kernel.isSome with
        | true => rw [hseen' (hheld hk), hseen]
        | false =>
          rw [seen_of_ungated hk, seen_of_ungated]
          rw [hw'.kernel, hw.kernel, hk]
      rw [tryFinally_last hx (by simp), failClosed_iff (hw'.noted (hw.noted hn)), hkeep,
        hw'.files _ (by decide)]
  · exact (hspec.ok hx).elim

/-- A watchdog seen by a gated matrix ends in a rejected result exactly if the session is timely. -/
theorem failClosed_iff_timely (env : Env) (args : Args) (tree : OutputTree) :
    FailClosed ((main env args).exec (.init tree)).2 ↔ env.Timely args tree := by
  rw [main, exec_bind, Env.Timely]
  have hopen := exec_of_spec (openSession_spec env (.init tree) args)
  rcases hx : (openSession env args).exec (.init tree) with ⟨_ | ⟨original, timeNs⟩, s₁⟩
  · obtain ⟨⟨s₀, hl, hf, -⟩, -⟩ := hopen.error hx
    have hu := (hf.logged.unused hf.flags hf.commands) (hl.unused (unused_init tree))
    exact iff_of_true (failClosed_of_quiet hu.noted hu.seen) trivial
  obtain ⟨-, s₀, hl, -, hf, hw, ho, -, hnone⟩ := hopen.ok hx
  have hu := (hf.logged.unused hf.flags hf.commands) (hl.unused (unused_init tree))
  have hrun := exec_of_spec (runPlan_spec env s₁ args timeNs)
  dsimp only
  rcases hy : (runPlan env args timeNs).exec s₁ with ⟨(error | _) | _, s₂⟩
  · rw [tryFinally_exec, tryExcept_exec, hy]
    obtain ⟨hw₂, -⟩ := hrun.error hy
    have := failClosed_handled env original error (hw₂.noted hu.noted) (hw₂.output ho)
      ((hw₂.files _ (by decide)).trans hnone)
    rwa [tryFinally_exec] at this
  · rw [tryFinally_exec, tryExcept_exec, hy]
    obtain ⟨hw₂, -⟩ := hrun.error hy
    exact failClosed_of_unrecorded (hw₂.noted hu.noted) ((hw₂.files _ (by decide)).trans hnone)
  · obtain ⟨hw₂, hflags, -⟩ := hrun.ok hy
    have htry : (tryExcept (runPlan env args timeNs) (recordFailure env)).exec s₁ =
        (.ok (), s₂) := by
      rw [tryExcept_exec, hy]
    rw [tryFinally_last htry (by simp)]
    exact failClosed_endSession env original (hw₂.noted hu.noted)
      ((seen_of_flags hflags).trans hu.seen) ((hw₂.files _ (by decide)).trans hnone)

end

/-! ### A watchdog in the restoration -/

/-- A poll that finds a watchdog raises. -/
theorem pollKernel_raises {env : Env} {s : State} (hk : s.kernel.isSome = true)
    (hi : env.interrupt s.called = none) (hw : hasWatchdog (env.rows s.called) = true) :
    ∃ s', (pollKernel env).exec s = (.error (.raised .watchdog), s') ∧ s'.tree = s.tree ∧
      s'.polls = s.polls ++ [env.rows s.called] := by
  obtain ⟨kernel, hk⟩ := Option.isSome_iff_exists.mp hk
  have hne : watchdogRows (env.rows s.called) ≠ [] := by
    intro hx
    rw [hasWatchdog, hx] at hw
    cases hw
  refine ⟨{ s.called with
    kernel := some (kernel.poll (env.rows s.called))
    polls := s.polls ++ [env.rows s.called] }, ?_, rfl, rfl⟩
  have hget : (get : Script State).exec s = (.ok s, s) := rfl
  rw [pollKernel, exec_bind_ok hget]
  simp only [hk]
  rw [exec_bind, call_exec, hi]
  change (if watchdogRows (env.rows s.called) ≠ [] then raise .watchdog else pure () :
    Script Unit).exec _ = _
  rw [if_pos hne]
  rfl

/-- The restoration raises what its first poll raises. -/
theorem endSession_raises [Documents] {env : Env} {original : Original} {s₁ s₂ s₃ : State}
    {stop : Stop} (hc : (collectKernelEvents env).exec s₁ = (.ok (), s₂))
    (hu : s₂.unsafeToRestart = false) (hp : (pollKernel env).exec s₂ = (.error stop, s₃)) :
    (endSession env original).exec s₁ = (.error stop, s₃) := by
  rw [endSession, exec_bind_ok hc]
  change (if s₂.unsafeToRestart then pure () else restoreProfile env original :
    Script Unit).exec s₂ = _
  rw [hu, if_neg (by decide), restoreProfile, exec_bind_error hp]

attribute [local instance] textDocuments

/-- Three repetitions of one second with stability gates. -/
def gatedArgs : Args := ⟨3, 1, 1, false, none, true⟩

def stallRow : Row := ⟨"", "sched_ext: cerynth: runnable task stall"⟩

/-- A watchdog shows up when the plan has been completed. -/
def lateWatchdog : Env :=
  steady fun s => if (s.tree.file .output .completion).isSome then [stallRow] else []

theorem lateWatchdog_healthy : lateWatchdog.Healthy ⟨false, "balanced"⟩ False :=
  steady_healthy fun s hs => by
    obtain hs := hs.resolve_left id
    rw [Incomplete] at hs
    rw [hs]
    rfl

theorem gatedArgs_admissible : Admissible gatedArgs fun _ => none where
  repeats := by decide
  duration := by decide
  interval := by decide +kernel
  single := fun hx => by cases hx
  reuse := fun _ hx => by cases hx
  unmade _ := rfl
  resumes := fun hx => by cases hx

/-- The matrix has passed although a poll has found a watchdog. -/
theorem late_watchdog_passes : ∃ root,
    ((main lateWatchdog gatedArgs).exec (.init fun _ => none)).2.polls.any hasWatchdog = true ∧
    ((main lateWatchdog gatedArgs).exec (.init fun _ => none)).2.tree .output = some root ∧
    verifyMatrix root = true ∧ root .failure = none ∧
    ¬ FailClosed ((main lateWatchdog gatedArgs).exec (.init fun _ => none)).2 := by
  have hh := lateWatchdog_healthy
  have hnone : Incomplete fun _ => none := rfl
  obtain ⟨original, timeNs, s₁, s₂, hopen, hrun⟩ := completes hh (.inr hnone) gatedArgs_admissible
    fun item _ => ⟨fun _ hf => (by cases hf), fun _ _ => rfl, fun _ => rfl⟩
  have ho := opened_of_exec hopen
  obtain ⟨hw, hflags, ⟨reused, new, hserved⟩, hcompletion⟩ :=
    (exec_of_spec (runPlan_spec lateWatchdog s₁ gatedArgs timeNs)).ok hrun
  have hlength : s₂.results.length = 90 := by
    obtain ⟨l, hl, hkeys⟩ := hserved.results
    rw [hl, ho.unused.results, List.nil_append, ← List.length_map (f := Summary.key), hkeys,
      List.length_map]
    rfl
  have hcollect := exec_of_spec (collectKernelEvents_spec lateWatchdog s₂)
  rcases hc : (collectKernelEvents lateWatchdog).exec s₂ with ⟨_ | _, s₃⟩
  · exact (hh.not_interrupts ((hcollect.error hc).2.2 (hw.output ho.output))).elim
  obtain ⟨hw₃, -, -, -, hflags₃⟩ := hcollect.ok hc
  have hheld : s₃.unsafeToRestart = false := by
    rw [unsafe_of_flags (hflags₃ fun _ => rfl), unsafe_of_flags hflags, ho.unused.unsafeToRestart]
  have hfile : s₃.tree.file .output .completion =
      some (written (⟨"pass", 90, "matrix"⟩ : Completion)) := by
    rw [hw₃.files _ (by decide), hcompletion, hlength]
  have hrows : lateWatchdog.rows s₃.called = [stallRow] := by
    change (if (s₃.tree.file .output .completion).isSome then [stallRow] else []) = _
    rw [hfile]
    rfl
  have hkernel : s₃.kernel.isSome = true := by rw [hw₃.kernel, hw.kernel, ho.kernel rfl]
  obtain ⟨s, hp, ht, hpolls⟩ := pollKernel_raises hkernel (hh.interrupt _)
    (by rw [hrows]; decide +kernel)
  have hmain : ((main lateWatchdog gatedArgs).exec (.init fun _ => none)).2 = s := by
    rw [main, exec_bind_ok hopen]
    simp only [tryFinally_exec, tryExcept_exec, hrun, endSession_raises hc hheld hp]
  obtain ⟨root, hroot, hmarker⟩ := Option.bind_eq_some_iff.mp hfile
  have hfailure : root .failure = none := by
    have hnofile : s₃.tree.file .output .failure = none := by
      rw [hw₃.files _ (by decide), hw.files _ (by decide), ho.failure]
    rwa [Tree.file, hroot, Option.bind_some] at hnofile
  have hseen : s.polls.any hasWatchdog = true := by
    rw [hpolls, hrows, List.any_append, Bool.or_eq_true]
    exact .inr (by decide +kernel)
  rw [hmain]
  refine ⟨root, hseen, ht ▸ hroot, ?_, hfailure, fun hclosed => ?_⟩
  · have hread : (readJson root .completion : Except PyError Completion) =
        .ok ⟨"pass", 90, "matrix"⟩ := by
      rw [readJson, hmarker]
      simp only [loads_written]
    rw [verifyMatrix, hfailure, hread]
    decide
  · have hrecorded := (hclosed hseen).failure
    rw [ht, hroot] at hrecorded
    simp [hasFailure, hfailure] at hrecorded

end CerynthOS.Bench
