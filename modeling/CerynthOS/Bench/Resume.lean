import CerynthOS.Bench.Steady

/-! A matrix that was interrupted, and the session that resumes it.

    A run counts as completed when it has a `summary.json`. That file is written in place, before
    `metadata.json`, and so is `plan.json` whenever a session starts: a session that ends in between
    leaves files that a later one does not accept. -/

namespace CerynthOS.Bench
open Files Json Prog

/-! ### What interrupted sessions leave -/

section
variable {α : Type} {P : State → Prop}

/-- A piece of the script keeps a property, whether it returns or not. -/
def Keeps (P : State → Prop) (x : Script α) : Prop := ∀ s, P s → P (x.exec s).2

theorem Keeps.bind {β : Type} {x : Script α} {f : α → Script β} (hx : Keeps P x)
    (hf : ∀ a, Keeps P (f a)) : Keeps P (x >>= f) := by
  intro s hs
  rw [exec_bind]
  have hs' := hx s hs
  rcases hr : x.exec s with ⟨_ | a, s'⟩ <;> rw [hr] at hs'
  · exact hs'
  · exact hf a s' hs'

theorem Keeps.tryExcept {body : Script α} {handler : PyError → Script α} (hb : Keeps P body)
    (hh : ∀ e, Keeps P (handler e)) : Keeps P (tryExcept body handler) := by
  intro s hs
  rw [tryExcept_exec]
  have hs' := hb s hs
  rcases hr : body.exec s with ⟨(e | _) | a, s'⟩ <;> rw [hr] at hs'
  · exact hh e s' hs'
  · exact hs'
  · exact hs'

theorem Keeps.tryFinally {body : Script α} {final : Script Unit} (hb : Keeps P body)
    (hf : Keeps P final) : Keeps P (tryFinally body final) := by
  intro s hs
  rw [tryFinally_exec]
  have hs' := hb s hs
  rcases hr : body.exec s with ⟨(e | _) | a, s'⟩ <;> rw [hr] at hs'
  · have hs'' := hf s' hs'
    simp only
    rcases hq : final.exec s' with ⟨_ | _, s''⟩ <;> rw [hq] at hs'' <;> exact hs''
  · exact hs'
  · have hs'' := hf s' hs'
    simp only
    rcases hq : final.exec s' with ⟨_ | _, s''⟩ <;> rw [hq] at hs'' <;> exact hs''

end

section
variable [Documents] {plan : List Item} {tree : OutputTree} {s s' : State} {fs : List File}

/-- What sessions with one plan leave. Each of them may have ended anywhere. -/
inductive Left (plan : List Item) : OutputTree → Prop
  | empty : Left plan fun _ => none
  | session (env : Env) (args : Args) {tree : OutputTree} (h : Left plan tree)
      (hp : args.plan = plan) : Left plan ((main env args).exec (.init tree)).2.tree

/-- What is in `plan.json` is a beginning of the plan, and every run ended somewhere. -/
structure Kept (plan : List Item) (tree : OutputTree) : Prop where
  saved : ∀ bytes, tree.file .output .plan = some bytes → bytes <+: written plan
  runs : ∀ item ∈ plan, LeftRun item tree

theorem Kept.worked (h : Kept plan s.tree) (hw : Worked plan fs s s') (hf : .plan ∈ fs) :
    Kept plan s'.tree where
  saved bytes hb := h.saved bytes (hw.files _ hf ▸ hb)
  runs item hmem := hw.leftRun item hmem (h.runs item hmem)

theorem Kept.opened (h : Kept plan s.tree) (ht : s'.tree = s.tree) {s'' : State}
    (hw : Worked [] fs s' s'')
    (hp : ∀ bytes, s''.tree.file .output .plan = some bytes → bytes <+: written plan) :
    Kept plan s''.tree where
  saved := hp
  runs item hmem := (hw.of_nil plan).leftRun item hmem (ht ▸ h.runs item hmem)

variable (env : Env) (args : Args)

theorem openSession_keeps : Keeps (fun s => Kept args.plan s.tree) (openSession env args) := by
  intro s hs
  have hspec := exec_of_spec (openSession_spec env s args)
  rcases hx : (openSession env args).exec s with ⟨_ | _, s'⟩
  · obtain ⟨⟨s₁, hl, -, hw⟩, hplan, -⟩ := hspec.error hx
    refine hs.opened hl.tree hw fun bytes hb => ?_
    obtain hsame | ⟨p, hp, hf⟩ := hplan
    · exact hs.saved bytes (hsame ▸ hb)
    · rw [hf] at hb
      cases hb
      exact hp
  · obtain ⟨-, s₁, hl, -, -, hw, -, hplan, -⟩ := hspec.ok hx
    refine hs.opened hl.tree hw fun bytes hb => ?_
    rw [hplan] at hb
    cases hb
    exact List.prefix_rfl

theorem runPlan_keeps (timeNs : ℕ) :
    Keeps (fun s => Kept args.plan s.tree) (runPlan env args timeNs) := by
  intro s hs
  have hspec := exec_of_spec (runPlan_spec env s args timeNs)
  rcases hx : (runPlan env args timeNs).exec s with ⟨_ | _, s'⟩
  · exact hs.worked (hspec.error hx).1 (by decide)
  · exact hs.worked (hspec.ok hx).1 (by decide)

theorem recordFailure_keeps (error : PyError) :
    Keeps (fun s => Kept plan s.tree) (recordFailure env error) := by
  intro s hs
  have hspec := exec_of_spec (recordFailure_spec env s error)
  rcases hx : (recordFailure env error).exec s with ⟨_ | _, s'⟩
  · exact hs.worked ((hspec.error hx).1.of_nil plan) (by decide)
  · exact (hspec.ok hx).elim

theorem endSession_keeps (original : Original) :
    Keeps (fun s => Kept plan s.tree) (endSession env original) := by
  intro s hs
  have hspec := exec_of_spec (endSession_spec env s original)
  rcases hx : (endSession env original).exec s with ⟨_ | _, s'⟩
  · exact hs.worked ((hspec.error hx).1.of_nil plan) (by decide)
  · exact hs.worked ((hspec.ok hx).1.of_nil plan) (by decide)

/-- A session leaves what a session may find. -/
theorem main_keeps : Keeps (fun s => Kept args.plan s.tree) (main env args) :=
  (openSession_keeps env args).bind fun opened =>
    ((runPlan_keeps env args opened.2).tryExcept (recordFailure_keeps env)).tryFinally
      (endSession_keeps env opened.1)

theorem Left.kept (h : Left plan tree) : Kept plan tree := by
  induction h with
  | empty => exact ⟨fun _ hb => (by cases hb), fun item _ => leftRun_of_none rfl⟩
  | session env args h hp ih =>
    subst hp
    exact main_keeps env args _ ih

end

/-! ### What is read of it -/

section
variable [Documents] {tree : OutputTree} {files : Disk File UInt8} {item : Item}
  {samples : List Sample}

omit [Documents] in
/-- Of a document that is written, what can be read at all is the document. -/
theorem loads_of_prefix {α : Type} [Document α] {a b : α} {bytes : List UInt8}
    (hp : bytes <+: written a) (hl : Document.loads bytes = some b) : b = a := by
  obtain rfl | hp := List.prefix_concat_iff.mp hp
  · rw [← written, loads_written] at hl
    exact (Option.some.inj hl).symm
  · by_cases hne : bytes = Document.dumpsIndent a
    · have hwhole := Document.loads_indent a [] fun _ hb => absurd hb List.not_mem_nil
      rw [List.append_nil, ← hne, hl] at hwhole
      exact Option.some.inj hwhole
    · rw [Document.loads_cut a bytes hp hne] at hl
      cases hl

omit [Documents] in
theorem readJson_ok_iff {α : Type} [Document α] {f : File} {a : α} :
    readJson files f = .ok a ↔ ∃ bytes, files f = some bytes ∧ Document.loads bytes = some a := by
  rw [readJson]
  cases files f with
  | none => simp
  | some bytes => cases hl : (Document.loads bytes : Option α) <;> simp [hl]

theorem splitLines_samples (samples : List Sample) :
    splitLines (samples.flatMap Sample.line) = samples.map Document.dumps := by
  have hlines : Lines.lines 10 (samples.flatMap Sample.line) = samples.map Sample.line := by
    rw [List.flatMap]
    refine Lines.lines_flatten fun line hmem => ?_
    obtain ⟨sample, -, rfl⟩ := List.mem_map.mp hmem
    exact ⟨_, rfl, Document.newline_not_mem_dumps sample⟩
  have hbody : ∀ sample : Sample,
      sample.line.takeWhile (· != 10) = Document.dumps sample := fun sample => by
    rw [Sample.line, List.takeWhile_append_of_pos]
    · simp
    · intro b hb
      exact bne_iff_ne.mpr (ne_of_mem_of_not_mem hb (Document.newline_not_mem_dumps sample))
  rw [splitLines, hlines, List.map_map, List.filter_eq_self.mpr]
  · exact List.map_congr_left fun sample _ => hbody sample
  · intro line hmem
    obtain ⟨sample, -, rfl⟩ := List.mem_map.mp hmem
    rw [Function.comp_apply, hbody]
    by_contra hblank
    have hnone := Document.loads_blank (α := Sample) (Document.dumps sample) fun b hb => by
      by_contra hws
      exact hblank (List.any_eq_true.mpr ⟨b, hb, by simpa using hws⟩)
    rw [Document.loads_dumps] at hnone
    cases hnone

/-- The observations of a run are complete. -/
theorem Recorded.readSamples (h : Recorded item samples tree) (hd : tree item.dir = some files) :
    readSamples files = .ok samples := by
  have ho := h.observations
  rw [Tree.file, hd, Option.bind_some] at ho
  rw [Bench.readSamples, ho]
  simp only
  rw [splitLines_samples, mapM_map Document.loads_dumps]

/-- A run whose summary and metadata can be read is accepted, if the interval is the same. -/
theorem LeftRun.completedRun (h : LeftRun item tree) (hd : tree item.dir = some files)
    {summary : Summary} {metadata : Metadata} (hs : readJson files .summary = .ok summary)
    (hm : readJson files .metadata = .ok metadata) :
    completedRun files item metadata.intervalSeconds = .ok summary := by
  obtain ⟨bytes, hf, hl⟩ := readJson_ok_iff.mp hs
  obtain ⟨samples, origin, hr, hp⟩ := h bytes (by rw [Tree.file, hd, Option.bind_some, hf])
  obtain ⟨bytes', hf', hl'⟩ := readJson_ok_iff.mp hm
  obtain ⟨interval, hp'⟩ := hr.metadata bytes' (by rw [Tree.file, hd, Option.bind_some, hf'])
  obtain rfl := loads_of_prefix hp hl
  obtain rfl := loads_of_prefix hp' hl'
  exact completedRun_ok_iff.mpr ⟨hs, _, samples, hm, hr.readSamples hd, {
    profile := rfl
    workload := rfl
    workloadExit := rfl
    duration := rfl
    interval := rfl
    length := rfl
    ne_nil := hr.ne_nil
    verify := hr.verify }⟩

end

/-! ### The session that resumes -/

section
variable [Documents]

/-- Every item of the plan was processed once: either taken over from a run that was accepted, or
    measured after what was there was moved away. -/
structure Resumption (args : Args) (tree : OutputTree) (s : State) (reused new : List Item) :
    Prop where
  perm : (reused ++ new).Perm args.plan
  reusedRuns : s.reusedRuns = reused.map Item.dir
  newRuns : s.newRuns = new.map Item.dir
  accepted : ∀ item ∈ reused, ∃ files summary, tree item.dir = some files ∧
    completedRun files item args.interval = .ok summary
  moved : ∀ item ∈ new, ∀ files, tree item.dir = some files →
    ∃ timeNs, s.tree (item.attempt timeNs) = some files

/-- The session returns, and has resumed the matrix. -/
def Resumed (env : Env) (args : Args) (tree : OutputTree) : Prop :=
  ∃ s reused new, (main env args).exec (.init tree) = (.ok (), s) ∧
    Resumption args tree s reused new

/-- The plan can be read, and every run that has a summary was written to its end: the summary and
    the metadata can be read. The interval is the one that is asked for. -/
structure Intact (args : Args) (tree : OutputTree) : Prop where
  plan : ∃ files, tree .output = some files ∧
    ∃ saved : List Item, readJson files .plan = .ok saved
  runs : ∀ item ∈ args.plan, ∀ files, tree item.dir = some files → (files .summary).isSome = true →
    (∃ summary : Summary, readJson files .summary = .ok summary) ∧
      ∃ metadata : Metadata, readJson files .metadata = .ok metadata ∧
        metadata.intervalSeconds = args.interval

variable {env : Env} {args : Args} {tree : OutputTree} {item : Item} {files : Disk File UInt8}
  {start : Control} {s₁ s₂ s : State} {timeNs : ℕ} {original : Original} {reused new : List Item}

omit [Documents] in
theorem prior_resume (hresume : args.resume = true) (hreuse : args.reuseFrom = none) :
    prior args tree item = some files ↔
      tree item.dir = some files ∧ (files .summary).isSome = true := by
  rw [prior, hreuse, hresume, if_pos rfl, Option.filter_eq_some_iff]

theorem Kept.admissible (h : Kept args.plan tree) (hi : Intact args tree)
    (hresume : args.resume = true) (hreuse : args.reuseFrom = none) (hrepeats : 3 ≤ args.repeats)
    (hduration : 0 < args.duration) (hinterval : 0 < args.interval) : Admissible args tree where
  repeats := hrepeats
  duration := hduration
  interval := hinterval
  single _ := hreuse
  reuse earlier he := by
    rw [hreuse] at he
    cases he
  unmade hx := absurd (hresume.symm.trans hx) (by decide)
  resumes _ := by
    obtain ⟨files, ho, saved, hs⟩ := hi.plan
    obtain ⟨bytes, hf, hl⟩ := readJson_ok_iff.mp hs
    have hfile : tree.file .output .plan = some bytes := by rw [Tree.file, ho, Option.bind_some, hf]
    exact samePlan_iff.mpr ⟨bytes, hfile, loads_of_prefix (h.saved bytes hfile) hl ▸ hl⟩

theorem Kept.ready (h : Kept args.plan tree) (hi : Intact args tree)
    (hresume : args.resume = true) (hreuse : args.reuseFrom = none) (hmem : item ∈ args.plan)
    (hfresh : ∀ t, tree (item.attempt (env.timeNs t)) = none) : Ready env args tree item where
  acceptable files hf := by
    obtain ⟨hd, hs⟩ := (prior_resume hresume hreuse).mp hf
    obtain ⟨⟨summary, hs⟩, metadata, hm, hint⟩ := hi.runs item hmem files hd hs
    exact ⟨summary, hint ▸ (h.runs item hmem).completedRun hd hs hm⟩
  room hx := absurd (hresume.symm.trans hx) (by decide)
  fresh := hfresh

/-- What a session that was opened and has run its plan has made of the earlier runs. -/
theorem Opened.resumption (ho : Opened args tree s₁) (hresume : args.resume = true)
    (hreuse : args.reuseFrom = none) (hserved : Served args args.plan s₁ s₂ reused new)
    (hw : Worked [] markerFiles s₂ s) (hl : Logged s₂ s) : Resumption args tree s reused new where
  perm := hserved.perm
  reusedRuns := by rw [hl.reusedRuns, hserved.reusedRuns, ho.unused.reusedRuns, List.nil_append]
  newRuns := by rw [hl.newRuns, hserved.newRuns, ho.unused.newRuns, List.nil_append]
  accepted item hmem := by
    obtain ⟨files, summary, hf, hc⟩ := hserved.accepted item hmem
    rw [prior_congr (ho.untouched item _ (.inl rfl))] at hf
    exact ⟨files, summary, ((prior_resume hresume hreuse).mp hf).1, hc⟩
  moved item hmem files hd := by
    rw [← ho.untouched item _ (.inl rfl)] at hd
    obtain ⟨timeNs, ht⟩ := hserved.moved hresume item hmem files hd
    refine ⟨timeNs, ?_⟩
    rw [hw.untouched (fun _ hx => absurd hx List.not_mem_nil) (.inr ⟨timeNs, rfl⟩), ht]

/-- A session that has run its plan found the earlier runs intact. -/
theorem Opened.intact (ho : Opened args tree s₁) (hresume : args.resume = true)
    (hreuse : args.reuseFrom = none) (hserved : Served args args.plan s₁ s₂ reused new) :
    Intact args tree where
  plan := by
    obtain ⟨bytes, hf, hl⟩ := samePlan_iff.mp (ho.admissible.resumes hresume)
    obtain ⟨files, hfiles, hf⟩ := Option.bind_eq_some_iff.mp hf
    exact ⟨files, hfiles, _, readJson_ok_iff.mpr ⟨bytes, hf, hl⟩⟩
  runs item hmem files hd hs := by
    have hprior : prior args s₁.tree item = some files := by
      rw [prior_congr (ho.untouched item _ (.inl rfl))]
      exact (prior_resume hresume hreuse).mpr ⟨hd, hs⟩
    obtain hmem | hmem := List.mem_append.mp (hserved.perm.mem_iff.mpr hmem)
    · obtain ⟨files', summary, hf, hc⟩ := hserved.accepted item hmem
      obtain rfl := Option.some.inj (hprior.symm.trans hf)
      obtain ⟨hsummary, metadata, samples, hmeta, -, hm⟩ := completedRun_ok_iff.mp hc
      exact ⟨⟨summary, hsummary⟩, metadata, hmeta, hm.interval⟩
    · rw [hserved.unusable item hmem] at hprior
      cases hprior

/-- An interrupted matrix is resumed exactly if its files are intact. -/
theorem resumed_iff_intact (hh : env.Healthy start True) (hresume : args.resume = true)
    (hreuse : args.reuseFrom = none) (hrepeats : 3 ≤ args.repeats) (hduration : 0 < args.duration)
    (hinterval : 0 < args.interval)
    (hfresh : ∀ item ∈ args.plan, ∀ t, tree (item.attempt (env.timeNs t)) = none)
    (hleft : Left args.plan tree) : Resumed env args tree ↔ Intact args tree := by
  constructor
  · rintro ⟨s, -, -, hx, -⟩
    obtain ⟨original, timeNs, s₁, s₂, hopen, hrun, -⟩ := main_ok hx
    obtain ⟨-, -, ⟨reused, new, hserved⟩, -⟩ :=
      (exec_of_spec (runPlan_spec env s₁ args timeNs)).ok hrun
    exact (opened_of_exec hopen).intact hresume hreuse hserved
  · intro hi
    have ha := hleft.kept.admissible hi hresume hreuse hrepeats hduration hinterval
    have hr : ∀ item ∈ args.plan, Ready env args tree item := fun item hmem =>
      hleft.kept.ready hi hresume hreuse hmem (hfresh item hmem)
    obtain ⟨original, timeNs, s₁, s₂, hopen, hrun⟩ := completes hh (.inl trivial) ha hr
    have ho := opened_of_exec hopen
    obtain ⟨hw, -, ⟨reused, new, hserved⟩, -⟩ :=
      (exec_of_spec (runPlan_spec env s₁ args timeNs)).ok hrun
    have hspec := exec_of_spec (endSession_spec env s₂ original)
    rcases hend : (endSession env original).exec s₂ with ⟨_ | _, s⟩
    · exact ((hspec.error hend).2.2 (hw.output ho.output) start True hh (.inl trivial)).elim
    · obtain ⟨hw', hl, -⟩ := hspec.ok hend
      exact ⟨s, reused, new, main_of_parts hopen hrun hend,
        ho.resumption hresume hreuse hserved hw' hl⟩

end

/-! ### Two points of an interruption -/

attribute [local instance] textDocuments

/-- The process is killed at this call. -/
def killedAt (n : ℕ) : Env :=
  { steady fun _ => [] with interrupt := fun s => if s.calls = n then some .killed else none }

/-- Three repetitions of one second, with or without `--resume`. -/
def shortArgs (resume : Bool) : Args := ⟨3, 1, 1, resume, none, false⟩

/-- What is left of a new session that is killed at this call. -/
def leftAt (n : ℕ) : OutputTree :=
  ((main (killedAt n) (shortArgs false)).exec (.init fun _ => none)).2.tree

theorem leftAt_left (n : ℕ) : Left (shortArgs true).plan (leftAt n) :=
  .session (killedAt n) (shortArgs false) .empty rfl

attribute [local semireducible] String.mapAux in
theorem leftAt_attempt (profile : MatrixProfile) (workload : Workload) (repetition timeNs : ℕ) :
    leftAt 29 (.failedAttempt profile workload repetition timeNs) = none ∧
      leftAt 50 (.failedAttempt profile workload repetition timeNs) = none := by
  constructor <;> rfl

/-! At the fiftieth call the first run is complete, and the second one is being measured. -/

attribute [local semireducible] String.mapAux in
theorem plan_fifty :
    (leftAt 50).file .output .plan = some (written (shortArgs false).plan) := by rfl

attribute [local semireducible] String.mapAux in
theorem summary_fifty : (leftAt 50).file (Item.dir ⟨.linuxDefault, .idle, 1, 1⟩) .summary =
    some (written (⟨.linuxDefault, .idle, 1, some "measurement-session-9"⟩ : Summary)) := by rfl

attribute [local semireducible] String.mapAux in
theorem metadata_fifty : (leftAt 50).file (Item.dir ⟨.linuxDefault, .idle, 1, 1⟩) .metadata =
    some (written (⟨0, 1, 1⟩ : Metadata)) := by rfl

theorem complete_fifty : ∀ item ∈ (shortArgs true).plan,
    ((leftAt 50).file item.dir .summary).isSome = true → item = ⟨.linuxDefault, .idle, 1, 1⟩ := by
  decide +kernel

theorem intact_fifty : Intact (shortArgs true) (leftAt 50) where
  plan := by
    obtain ⟨files, ho, hf⟩ := Option.bind_eq_some_iff.mp plan_fifty
    exact ⟨files, ho, _, readJson_ok_iff.mpr ⟨_, hf, loads_written _⟩⟩
  runs item hmem files hd hs := by
    obtain rfl := complete_fifty item hmem (by rw [Tree.file, hd]; exact hs)
    have hsummary := summary_fifty
    have hmetadata := metadata_fifty
    rw [Tree.file, hd] at hsummary hmetadata
    exact ⟨⟨_, readJson_ok_iff.mpr ⟨_, hsummary, loads_written _⟩⟩,
      _, readJson_ok_iff.mpr ⟨_, hmetadata, loads_written _⟩, rfl⟩

/-- Killed in the second run, and resumed: the first run is taken over, the directory of the
    second one is moved. -/
theorem fifty_resumed : Resumed (steady fun _ => []) (shortArgs true) (leftAt 50) := by
  refine (resumed_iff_intact (steady_healthy fun _ _ => rfl) rfl rfl (by decide) (by decide)
    (by decide +kernel) ?_ (leftAt_left 50)).mpr intact_fifty
  exact fun _ _ _ => (leftAt_attempt _ _ _ _).2

/-- Killed when the `summary.json` of the first run has just been opened: no session resumes. -/
theorem opened_summary_stuck : Left (shortArgs true).plan (leftAt 29) ∧
    (steady fun _ => []).Healthy ⟨false, "balanced"⟩ True ∧
    (∀ item ∈ (shortArgs true).plan, ∀ t,
      leftAt 29 (item.attempt ((steady fun _ => []).timeNs t)) = none) ∧
    ¬ Resumed (steady fun _ => []) (shortArgs true) (leftAt 29) := by
  refine ⟨leftAt_left 29, steady_healthy fun _ _ => rfl, fun _ _ _ => (leftAt_attempt _ _ _ _).1,
    ?_⟩
  rintro ⟨s, -, -, hx, -⟩
  obtain ⟨original, timeNs, s₁, s₂, hopen, hrun, -⟩ := main_ok hx
  obtain ⟨-, -, ⟨reused, new, hserved⟩, -⟩ := (exec_of_spec (runPlan_spec _ s₁ _ timeNs)).ok hrun
  let item : Item := ⟨.linuxDefault, .idle, 1, 1⟩
  have hempty : (leftAt 29).file item.dir .summary = some [] := by decide +kernel
  obtain ⟨files, hd, hf⟩ := Option.bind_eq_some_iff.mp hempty
  have hruns := ((opened_of_exec hopen).intact rfl rfl hserved).runs item (by decide) files hd
  obtain ⟨⟨summary, hs⟩, -⟩ := hruns (by rw [hf]; rfl)
  obtain ⟨bytes, hb, hl⟩ := readJson_ok_iff.mp hs
  rw [hf] at hb
  cases hb
  rw [Document.loads_blank [] fun _ hx => absurd hx List.not_mem_nil] at hl
  cases hl

end CerynthOS.Bench
