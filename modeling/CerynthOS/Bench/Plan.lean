import CerynthOS.Bench.Runs

/-! The loop over the plan: what an item leaves, whether it is taken over or measured. -/

open Std.Do

set_option mvcgen.warning false

namespace CerynthOS.Bench
open Files Json

/-- Where an earlier attempt is put. -/
def Item.attempt (item : Item) (timeNs : ℕ) : Dir :=
  .failedAttempt item.profile item.workload item.repetition timeNs

/-- The directory is the item's own. -/
def Item.Owns (item : Item) (d : Dir) : Prop := d = item.dir ∨ ∃ timeNs, d = item.attempt timeNs

/-- The directories that all items use. -/
def sharedDirs : List Dir := [.output, .failedAttempts, .summaries]

theorem Item.dir_notMem_shared (item : Item) : item.dir ∉ sharedDirs := by
  rw [Item.dir]
  simp [sharedDirs]

theorem Item.attempt_notMem_shared (item : Item) (timeNs : ℕ) :
    item.attempt timeNs ∉ sharedDirs := by
  rw [Item.attempt]
  simp [sharedDirs]

/-- Two items that share a directory share all. -/
theorem Item.Owns.dir_eq {item item' : Item} {d : Dir} (h : item.Owns d) (h' : item'.Owns d) :
    item.dir = item'.dir := by
  obtain rfl | ⟨t, rfl⟩ := h <;> obtain hd | ⟨t', hd⟩ := h'
  · exact hd
  · cases hd
  · cases hd
  · rw [Item.attempt, Item.attempt, Dir.failedAttempt.injEq] at hd
    rw [Item.dir, Item.dir, hd.1, hd.2.1, hd.2.2.1]

theorem move_self (tree : OutputTree) (item : Item) (timeNs : ℕ) :
    TreeStep.apply tree (.move item.dir (item.attempt timeNs)) item.dir = none := by
  rw [TreeStep.apply, Function.update_self]

theorem move_attempt (tree : OutputTree) (item : Item) (timeNs : ℕ) :
    TreeStep.apply tree (.move item.dir (item.attempt timeNs)) (item.attempt timeNs) =
      tree item.dir := by
  rw [TreeStep.apply, Function.update_of_ne (by simp [Item.dir, Item.attempt]),
    Function.update_self]

section
variable [Documents]

theorem LeftRun.congr {item : Item} {tree tree' : OutputTree}
    (h : tree' item.dir = tree item.dir) (hl : LeftRun item tree) : LeftRun item tree' := by
  have hfile : ∀ f, tree'.file item.dir f = tree.file item.dir f := fun f => by
    rw [Tree.file, Tree.file, h]
  intro bytes hb
  rw [hfile] at hb
  obtain ⟨samples, origin, hr, hp⟩ := hl bytes hb
  refine ⟨samples, origin, ⟨hr.ne_nil, hr.verify, by rw [hfile, hr.observations], ?_⟩, hp⟩
  intro b hb
  rw [hfile] at hb
  exact hr.metadata b hb

/-- What the work on some items leaves. Their directories hold runs that ended anywhere, no other
    directory is touched, and these files in the output directory stay. -/
structure Worked (items : List Item) (fs : List File) (s s' : State) : Prop
    extends Polled s s' where
  elsewhere : ∀ d, d ∉ sharedDirs → (∀ item ∈ items, ¬ item.Owns d) → s'.tree d = s.tree d
  output : (s.tree .output).isSome = true → (s'.tree .output).isSome = true
  files : ∀ f ∈ fs, s'.tree.file .output f = s.tree.file .output f
  leftRun : ∀ item ∈ items, LeftRun item s.tree → LeftRun item s'.tree

variable {items : List Item} {item : Item} {fs : List File} {s s' s'' : State}

@[grind →]
theorem Worked.trans (h : Worked items fs s s') (h' : Worked items fs s' s'') :
    Worked items fs s s'' where
  toPolled := h.toPolled.trans h'.toPolled
  elsewhere d hs hd := (h'.elsewhere d hs hd).trans (h.elsewhere d hs hd)
  output ho := h'.output (h.output ho)
  files f hf := (h'.files f hf).trans (h.files f hf)
  leftRun _ hi hl := h'.leftRun _ hi (h.leftRun _ hi hl)

theorem Worked.untouched (h : Worked items fs s s') (hi : ∀ item' ∈ items, item'.dir ≠ item.dir)
    {d : Dir} (hd : item.Owns d) : s'.tree d = s.tree d := by
  refine h.elsewhere d ?_ fun item' hmem ho => hi item' hmem (ho.dir_eq hd)
  obtain rfl | ⟨timeNs, rfl⟩ := hd
  · exact item.dir_notMem_shared
  · exact item.attempt_notMem_shared timeNs

/-- What leaves all items alone. -/
theorem Worked.of_nil (h : Worked [] fs s s') (items : List Item) : Worked items fs s s' where
  toPolled := h.toPolled
  elsewhere d hs _ := h.elsewhere d hs fun _ hx => absurd hx List.not_mem_nil
  output := h.output
  files := h.files
  leftRun _ _ hl :=
    hl.congr (h.untouched (fun _ hx => absurd hx List.not_mem_nil) (.inl rfl))

/-- The items are worked on one after another. -/
theorem Worked.cons (h : Worked [item] fs s s') (h' : Worked items fs s' s'')
    (hi : ∀ item' ∈ items, item'.dir ≠ item.dir) : Worked (item :: items) fs s s'' where
  toPolled := h.toPolled.trans h'.toPolled
  elsewhere d hs hd := by
    obtain ⟨hd, hds⟩ := List.forall_mem_cons.mp hd
    rw [h'.elsewhere d hs hds, h.elsewhere d hs fun _ hx => List.mem_singleton.mp hx ▸ hd]
  output ho := h'.output (h.output ho)
  files f hf := (h'.files f hf).trans (h.files f hf)
  leftRun item' hmem hl := by
    obtain rfl | hmem := List.mem_cons.mp hmem
    · exact (h.leftRun _ (List.mem_singleton_self _) hl).congr (h'.untouched hi (.inl rfl))
    · refine h'.leftRun item' hmem (hl.congr (h.untouched ?_ (.inl rfl)))
      exact fun _ hx => List.mem_singleton.mp hx ▸ (hi item' hmem).symm

theorem Worked.mono {fs' : List File} (h : Worked items fs s s') (hsub : fs' ⊆ fs) :
    Worked items fs' s s' :=
  { h with files := fun f hf => h.files f (hsub hf) }

theorem Polled.worked (h : Polled s s') (ht : s'.tree = s.tree) (items : List Item)
    (fs : List File) : Worked items fs s s' where
  toPolled := h
  elsewhere d _ _ := by rw [ht]
  output ho := ht ▸ ho
  files f _ := by rw [ht]
  leftRun item _ hl := ht ▸ hl

theorem Calm.worked (h : Calm s s') (items : List Item) (fs : List File) :
    Worked items fs s s' := h.toPolled.worked h.tree items fs

omit [Documents] in
theorem polled_of_eq (hk : s'.kernel = s.kernel) (hs : s'.samples = s.samples)
    (hp : s'.polls = s.polls) : Polled s s' :=
  ⟨by rw [hk], hs.ge, [], by simp [hp], by simp [State.seen, hk]⟩

/-- A file of the output directory is written. -/
theorem Polled.worked_put (h : Polled s s') {f : File} {bytes : List UInt8}
    (ht : s'.tree = s.tree.put .output f bytes) (hf : f ∉ fs) : Worked items fs s s' where
  toPolled := h
  elsewhere d hs _ := by
    rw [ht, Tree.put_of_ne (ne_of_mem_of_not_mem List.mem_cons_self hs).symm]
  output ho := by rw [ht, Tree.isSome_put, ho]
  files f' hf' := by rw [ht, Tree.file_put_of_ne (.inr (ne_of_mem_of_not_mem hf' hf))]
  leftRun item _ hl := hl.congr (by rw [ht, Tree.put_of_ne item.dir_ne_output])

theorem Filed.worked (h : Filed s s') {f : File}
    (ht : s'.tree = s.tree ∨ ∃ bytes, s'.tree = s.tree.put .output f bytes) (hf : f ∉ fs) :
    Worked items fs s s' := by
  obtain ht | ⟨bytes, ht⟩ := ht
  · exact (h.calm ht).worked items fs
  · exact h.logged.toPolled.worked_put ht hf

/-- Something changes in one of the shared directories. -/
theorem Filed.worked_shared (h : Filed s s') {d : Dir} (hd : d ∈ sharedDirs) (hne : d ≠ .output)
    (hother : ∀ e, e ≠ d → s'.tree e = s.tree e) : Worked items fs s s' where
  toPolled := h.logged.toPolled
  elsewhere e he _ := hother e (ne_of_mem_of_not_mem hd he).symm
  output ho := by rw [hother _ hne.symm, ho]
  files f _ := by rw [Tree.file, Tree.file, hother _ hne.symm]
  leftRun item _ hl := hl.congr (hother _ (ne_of_mem_of_not_mem hd item.dir_notMem_shared).symm)

theorem Filed.worked_mkdir (h : Filed s s') {d : Dir} (hd : d ∈ sharedDirs) (hne : d ≠ .output)
    (ht : s'.tree = s.tree ∨ s'.tree = TreeStep.apply s.tree (.mkdir d)) :
    Worked items fs s s' := by
  refine h.worked_shared hd hne fun e he => ?_
  obtain ht | ht := ht
  · rw [ht]
  · rw [ht, TreeStep.apply, Function.update_of_ne he]

theorem Filed.worked_move (h : Filed s s') {timeNs : ℕ}
    (ht : s'.tree = TreeStep.apply s.tree (.move item.dir (item.attempt timeNs))) :
    Worked [item] fs s s' := by
  have hother : ∀ d, ¬ item.Owns d → s'.tree d = s.tree d := fun d hd => by
    rw [ht, TreeStep.apply, Function.update_of_ne fun hx => hd (.inl hx),
      Function.update_of_ne fun hx => hd (.inr ⟨timeNs, hx⟩)]
  have hout : ¬ item.Owns .output := by
    rintro (hx | ⟨t, hx⟩) <;> cases hx
  exact {
    toPolled := h.logged.toPolled
    elsewhere := fun d _ hd => hother d (hd item (List.mem_singleton_self _))
    output := fun ho => by rw [hother _ hout, ho]
    files := fun f _ => by rw [Tree.file, Tree.file, hother _ hout]
    leftRun := fun item' hmem _ => by
      obtain rfl := List.mem_singleton.mp hmem
      exact leftRun_of_none (by rw [Tree.file, ht, move_self, Option.bind_none]) }

theorem Touched.worked (h : Touched item.dir runFiles s s')
    (hl : LeftRun item s.tree → LeftRun item s'.tree) : Worked [item] fs s s' where
  toPolled := h.toPolled
  elsewhere d _ hd := h.elsewhere d fun hx => hd item (List.mem_singleton_self _) (.inl hx)
  output ho := by rw [h.elsewhere _ (Ne.symm item.dir_ne_output), ho]
  files f _ := by rw [Tree.file, Tree.file, h.elsewhere _ (Ne.symm item.dir_ne_output)]
  leftRun item' hmem := List.mem_singleton.mp hmem ▸ hl

theorem Worked.atFault {env : Env} (h : Worked items fs s s') (hf : .completion ∈ fs)
    (hs : env.AtFault s'.tree) : env.AtFault s.tree := by
  refine fun start quiet hh hq => hs start quiet hh (hq.imp_right fun hi => ?_)
  rw [Incomplete, h.files _ hf]
  exact hi

end

/-- The files of the output directory that say how the session stands. -/
def markerFiles : List File := [.plan, .completion, .failure]

theorem session_notMem (timeNs : ℕ) : File.session timeNs ∉ markerFiles := by simp [markerFiles]

section
variable [Documents] (env : Env) (s₀ : State)

@[spec] theorem reuse_spec (timeNs : ℕ) (item : Item) (summary : Summary) :
    ⦃fun s => ⌜s = s₀⌝⦄ reuse env timeNs item summary
    ⦃post⟨fun _ s => ⌜Worked [item] markerFiles s₀ s ∧ s.flags = s₀.flags ∧
        s.results = s₀.results ++
          [{ summary with measurementOrigin := some "reused before this session" }] ∧
        s.reusedRuns = s₀.reusedRuns ++ [item.dir] ∧ s.newRuns = s₀.newRuns⌝,
      fun _ s => ⌜Worked [item] markerFiles s₀ s ∧
        ((s₀.tree .output).isSome = true → env.Interrupts)⌝⟩⦄ := by
  mvcgen [reuse]
  case vc1 s hs t _ s₁ =>
    subst hs
    intro h₁ ht _
    have h : Polled s t.2 := polled_of_eq rfl rfl rfl
    exact ⟨(h.worked rfl _ _).trans (h₁.worked (.inr ht) (session_notMem _)), h₁.flags, h₁.results,
      h₁.reusedRuns, h₁.newRuns⟩
  case vc2 s hs t _ s₁ =>
    subst hs
    intro h₁ ht hi
    have h : Polled s t.2 := polled_of_eq rfl rfl rfl
    refine ⟨(h.worked rfl _ _).trans (h₁.worked ht (session_notMem _)), fun ho => hi.resolve_right ?_⟩
    exact fun hx => Bool.false_ne_true (hx.symm.trans ho)

@[spec] theorem setAside_spec (item : Item) : ⦃fun s => ⌜s = s₀⌝⦄ setAside env item
    ⦃post⟨fun _ s => ⌜Worked [item] markerFiles s₀ s ∧ Filed s₀ s ∧ s.tree item.dir = none ∧
        ∀ files, s₀.tree item.dir = some files → ∃ timeNs, s.tree (item.attempt timeNs) = some files⌝,
      fun _ s => ⌜Worked [item] markerFiles s₀ s ∧
        ((∀ t, s₀.tree (item.attempt (env.timeNs t)) = none) → env.Interrupts)⌝⟩⦄ := by
  mvcgen [setAside]
  case vc1 s hs _ _ s₁ h₁ _ s₂ _ s₃ h₃ _ s₄ h₂ =>
    subst hs
    intro h₄ ht
    have hw := (((h₁.1.calm h₁.2.1).worked [] markerFiles).trans (h₂.1.worked_mkdir
      (by decide) (by decide) (h₂.2.imp (·.2.2) (·.2)))).trans ((h₃.1.calm h₃.2).worked _ _)
    refine ⟨(hw.of_nil _).trans (h₄.worked_move ht), ((h₁.1.trans h₂.1).trans h₃.1).trans h₄, ?_, ?_⟩
    · rw [ht]
      exact move_self _ _ _
    · intro files hf
      refine ⟨env.timeNs s₃, ?_⟩
      rw [ht]
      refine (move_attempt _ _ _).trans ?_
      rw [hw.untouched (fun _ hx => absurd hx List.not_mem_nil) (.inl rfl), hf]
  case vc2 s hs _ _ s₁ h₁ _ s₂ _ s₃ h₃ _ s₄ h₂ =>
    subst hs
    intro h₄ ht hi
    have hw := (((h₁.1.calm h₁.2.1).worked [] markerFiles).trans (h₂.1.worked_mkdir
      (by decide) (by decide) (h₂.2.imp (·.2.2) (·.2)))).trans ((h₃.1.calm h₃.2).worked _ _)
    refine ⟨(hw.trans ((h₄.calm ht).worked _ _)).of_nil _, fun hfresh => hi.resolve_right fun hx => ?_⟩
    change (s₃.tree (item.attempt (env.timeNs s₃))).isSome = true at hx
    rw [hw.untouched (fun _ hx => absurd hx List.not_mem_nil) (.inr ⟨_, rfl⟩), hfresh] at hx
    cases hx
  case vc3 s hs _ _ s₁ h₁ _ s₂ _ s₃ h₂ =>
    subst hs
    intro h₃ ht hi
    have hw := ((h₁.1.calm h₁.2.1).worked [] markerFiles).trans (h₂.1.worked_mkdir
      (by decide) (by decide) (h₂.2.imp (·.2.2) (·.2)))
    exact ⟨(hw.trans ((h₃.calm ht).worked _ _)).of_nil _, fun _ => hi⟩
  case vc4 s hs _ _ s₁ h₁ _ s₂ =>
    subst hs
    intro h₂ ht hi
    refine ⟨((h₁.1.calm h₁.2.1).trans (h₂.calm ht)).worked _ _, fun _ => hi.resolve_right ?_⟩
    rintro ⟨-, ⟨⟩⟩
  case vc5 s hs _ hno s₁ h₁ =>
    subst hs
    have hd : s.tree item.dir = none := by
      rwa [h₁.2.2, Option.not_isSome_iff_eq_none] at hno
    refine ⟨(h₁.1.calm h₁.2.1).worked _ _, h₁.1, by rw [h₁.2.1, hd], fun files hf => ?_⟩
    rw [hd] at hf
    cases hf
  case vc6 s hs _ s₁ =>
    subst hs
    exact fun h ht hi => ⟨(h.calm ht).worked _ _, fun _ => hi⟩

@[spec] theorem measureRun_spec (args : Args) (timeNs : ℕ) (item : Item) :
    ⦃fun s => ⌜s = s₀⌝⦄ measureRun env args timeNs item
    ⦃post⟨fun summary s => ⌜Worked [item] markerFiles s₀ s ∧ Logged s₀ s ∧ s.flags = s₀.flags ∧
        (∃ n origin, summary = ⟨item.profile, item.workload, n, origin⟩) ∧
        ∀ d, d ≠ item.dir → s.tree d = s₀.tree d⌝,
      fun _ s => ⌜Worked [item] markerFiles s₀ s ∧
        (s₀.tree item.dir = none → env.AtFault s₀.tree)⌝⟩⦄ := by
  mvcgen [measureRun]
  case vc1 s hs _ s₁ h₁ result _ s₂ h₂ _ s₃ h₃ =>
    subst hs
    obtain ⟨ht₂, hf, -, hd, samples, rfl, hrec, -⟩ := h₂
    have ht₃ : Touched item.dir runFiles s₁ s₃ :=
      ht₂.trans (h₃.1.touched (.inr ⟨_, h₃.2.1⟩) (by decide))
    refine ⟨(h₁.1.worked _ _).trans (ht₃.worked fun _ => ?_), h₁.1.toLogged.trans ht₃.toLogged, ?_,
      ⟨_, _, rfl⟩, fun d hd => (ht₃.elsewhere d hd).trans (congrFun h₁.1.tree d)⟩
    · rw [h₃.2.1]
      exact hrec.leftRun_put (List.prefix_refl (written _))
    · rw [h₃.1.flags, hf, h₁.2.1]
  case vc2 s hs _ s₁ h₁ result _ s₂ h₂ _ s₃ =>
    subst hs
    intro h₃ ht hi
    obtain ⟨ht₂, -, -, -, samples, rfl, hrec, hleft⟩ := h₂
    have ht₃ : Touched item.dir runFiles s₁ s₃ :=
      ht₂.trans (h₃.touched (left_of_broken ht) (by decide))
    refine ⟨(h₁.1.worked _ _).trans (ht₃.worked fun _ => ?_), fun _ => ?_⟩
    · obtain ht | ⟨p, hp, ht⟩ := ht
      · exact ht ▸ hleft
      · rw [ht]
        exact hrec.leftRun_put hp
    · rw [Tree.isSome_of_file hrec.observations] at hi
      exact (hi.resolve_right (by decide)).atFault _
  case vc3 s hs _ s₁ h₁ _ s₂ =>
    subst hs
    intro ht hleft hf
    refine ⟨(h₁.1.worked _ _).trans (ht.worked hleft), fun hd => ?_⟩
    rw [h₁.1.tree] at hf
    exact hf hd h₁.2.2
  case vc4 s hs _ s₁ =>
    subst hs
    exact fun h hf => ⟨h.worked _ _, fun _ => hf⟩

@[spec] theorem measure_spec (args : Args) (timeNs : ℕ) (item : Item) :
    ⦃fun s => ⌜s = s₀⌝⦄ measure env args timeNs item
    ⦃post⟨fun _ s => ⌜Worked [item] markerFiles s₀ s ∧ s.flags = s₀.flags ∧
        (∃ n origin, s.results = s₀.results ++ [⟨item.profile, item.workload, n, origin⟩]) ∧
        s.reusedRuns = s₀.reusedRuns ∧ s.newRuns = s₀.newRuns ++ [item.dir] ∧
        ∀ timeNs, s.tree (item.attempt timeNs) = s₀.tree (item.attempt timeNs)⌝,
      fun _ s => ⌜Worked [item] markerFiles s₀ s ∧ ((s₀.tree .output).isSome = true →
        s₀.tree item.dir = none → env.AtFault s₀.tree)⌝⟩⦄ := by
  mvcgen [measure]
  case vc1 s hs summary s₁ h₁ t _ s₂ =>
    subst hs
    obtain ⟨hw, hl, hf, ⟨n, origin, rfl⟩, hd⟩ := h₁
    intro h₂ ht _
    have hp : Polled s₁ t.2 := polled_of_eq rfl rfl rfl
    refine ⟨(hw.trans (hp.worked rfl _ _)).trans (h₂.worked (.inr ht) (session_notMem _)), ?_,
      ⟨n, origin, ?_⟩, ?_, ?_, fun timeNs => ?_⟩
    · exact h₂.flags.trans hf
    · rw [h₂.results, ← hl.results]
    · exact h₂.reusedRuns.trans hl.reusedRuns
    · rw [h₂.newRuns, ← hl.newRuns]
    · obtain ⟨bytes, ht⟩ := ht
      rw [ht, Tree.put_of_ne (by simp [Item.attempt])]
      exact hd _ (by simp [Item.attempt, Item.dir])
  case vc2 s hs summary s₁ h₁ t _ s₂ =>
    subst hs
    obtain ⟨hw, -⟩ := h₁
    intro h₂ ht hi
    have hp : Polled s₁ t.2 := polled_of_eq rfl rfl rfl
    refine ⟨(hw.trans (hp.worked rfl _ _)).trans (h₂.worked ht (session_notMem _)), fun ho _ => ?_⟩
    have ho : (t.2.tree .output).isSome = true := hw.output ho
    rw [ho] at hi
    exact (hi.resolve_right (by decide)).atFault _
  case vc3 s hs _ s₁ =>
    subst hs
    exact fun hw hf => ⟨hw, fun _ => hf⟩

end

/-! ### The loop -/

/-- What is said of a run in the report. -/
def Summary.key (summary : Summary) : MatrixProfile × Workload := (summary.profile, summary.workload)

def Item.key (item : Item) : MatrixProfile × Workload := (item.profile, item.workload)

section
variable [Documents]

/-- How the items were processed. -/
structure Served (args : Args) (items : List Item) (s s' : State) (reused new : List Item) :
    Prop where
  perm : (reused ++ new).Perm items
  reusedRuns : s'.reusedRuns = s.reusedRuns ++ reused.map Item.dir
  newRuns : s'.newRuns = s.newRuns ++ new.map Item.dir
  accepted : ∀ item ∈ reused, ∃ files summary, prior args s.tree item = some files ∧
    completedRun files item args.interval = .ok summary
  unusable : ∀ item ∈ new, prior args s.tree item = none
  moved : args.resume = true → ∀ item ∈ new, ∀ files, s.tree item.dir = some files →
    ∃ timeNs, s'.tree (item.attempt timeNs) = some files
  results : ∃ l, s'.results = s.results ++ l ∧ l.map Summary.key = items.map Item.key

/-- Nothing that is on the disk stands in the way of the item. -/
structure Ready (env : Env) (args : Args) (tree : OutputTree) (item : Item) : Prop where
  acceptable : ∀ files, prior args tree item = some files →
    ∃ summary, completedRun files item args.interval = .ok summary
  room : args.resume = false → prior args tree item = none → tree item.dir = none
  fresh : ∀ s, tree (item.attempt (env.timeNs s)) = none

/-- The run that is read in these files was done as asked. -/
structure Matches (item : Item) (interval : ℚ) (summary : Summary) (metadata : Metadata)
    (samples : List Sample) : Prop where
  profile : summary.profile = item.profile
  workload : summary.workload = item.workload
  workloadExit : metadata.workloadExit = 0
  duration : metadata.requestedDurationSeconds = item.duration
  interval : metadata.intervalSeconds = interval
  length : samples.length = summary.sampleCount
  ne_nil : samples ≠ []
  verify : ∀ sample ∈ samples, Bench.verify sample item.profile = true

theorem completedRun_ok_iff {files : Disk File UInt8} {item : Item} {interval : ℚ}
    {summary : Summary} : completedRun files item interval = .ok summary ↔
      readJson files .summary = .ok summary ∧ ∃ metadata samples,
        readJson files .metadata = .ok metadata ∧ readSamples files = .ok samples ∧
        Matches item interval summary metadata samples := by
  rw [completedRun]
  cases hs : (readJson files .summary : Except PyError Summary) with
  | error e => simp [bind, Except.bind]
  | ok summary' =>
    cases hm : (readJson files .metadata : Except PyError Metadata) with
    | error e => simp [bind, Except.bind]
    | ok metadata =>
      cases ho : readSamples files with
      | error e => simp [bind, Except.bind]
      | ok samples =>
        simp only [bind, Except.bind]
        split_ifs with hbad hv
        · refine ⟨fun h => (by cases h), ?_⟩
          rintro ⟨⟨⟩, _, _, ⟨⟩, ⟨⟩, hm⟩
          exact absurd hbad (by simp [hm.profile, hm.workload, hm.workloadExit, hm.duration,
            hm.interval, hm.length, hm.ne_nil])
        · simp only [not_or, not_not] at hbad
          obtain ⟨hp, hw, hx, hd, hi, hl, hn⟩ := hbad
          refine ⟨?_, fun h => h.1⟩
          rintro ⟨⟩
          exact ⟨rfl, metadata, samples, rfl, rfl, hp, hw, hx, hd, hi, hl, hn,
            List.all_eq_true.mp hv⟩
        · refine ⟨fun h => (by cases h), ?_⟩
          rintro ⟨⟨⟩, _, _, ⟨⟩, ⟨⟩, hm⟩
          exact absurd (List.all_eq_true.mpr hm.verify) hv

theorem completedRun_key {files : Disk File UInt8} {item : Item} {interval : ℚ} {summary : Summary}
    (h : completedRun files item interval = .ok summary) : summary.key = item.key := by
  obtain ⟨-, metadata, samples, -, -, hm⟩ := completedRun_ok_iff.mp h
  rw [Summary.key, Item.key, hm.profile, hm.workload]

variable (env : Env) (s₀ : State)

@[spec] theorem processItem_spec (args : Args) (timeNs : ℕ) (item : Item) :
    ⦃fun s => ⌜s = s₀⌝⦄ processItem env args timeNs item
    ⦃post⟨fun _ s => ⌜Worked [item] markerFiles s₀ s ∧ s.flags = s₀.flags ∧
        ∃ reused new, Served args [item] s₀ s reused new⌝,
      fun _ s => ⌜Worked [item] markerFiles s₀ s ∧ ((s₀.tree .output).isSome = true →
        Ready env args s₀.tree item → env.AtFault s₀.tree)⌝⟩⦄ := by
  mvcgen [processItem]
  case vc1 s hs _ s₁ h₁ files hprior summary s₂ h₂ _ s₃ =>
    subst hs
    obtain ⟨hok, rfl⟩ := h₂
    intro hw hf hres hreused hnew
    refine ⟨((h₁.1.calm h₁.2).worked _ _).trans hw, hf.trans h₁.1.flags, [item], [], ?_⟩
    exact {
      perm := .refl _
      reusedRuns := by rw [hreused, h₁.1.reusedRuns]; rfl
      newRuns := by rw [hnew, h₁.1.newRuns, List.map_nil, List.append_nil]
      accepted := fun item' hmem => by
        obtain rfl := List.mem_singleton.mp hmem
        exact ⟨files, summary, h₁.2 ▸ hprior, hok⟩
      unusable := fun _ hmem => absurd hmem List.not_mem_nil
      moved := fun _ _ hmem => absurd hmem List.not_mem_nil
      results := ⟨_, by rw [hres, h₁.1.results], by
        rw [List.map_singleton, List.map_singleton, ← completedRun_key hok]
        rfl⟩ }
  case vc2 s hs _ s₁ h₁ files hprior summary s₂ h₂ _ s₃ =>
    subst hs
    obtain ⟨hok, rfl⟩ := h₂
    exact fun hw hi => ⟨((h₁.1.calm h₁.2).worked _ _).trans hw, fun ho _ => (hi (h₁.2 ▸ ho)).atFault _⟩
  case vc3 s hs _ s₁ h₁ files hprior _ s₂ =>
    subst hs
    rintro ⟨e, herr, -, rfl⟩
    refine ⟨(h₁.1.calm h₁.2).worked _ _, fun _ hr => ?_⟩
    obtain ⟨summary, hok⟩ := hr.acceptable files (h₁.2 ▸ hprior)
    rw [herr] at hok
    cases hok
  case vc4 s hs _ s₁ h₁ hprior _ hresume _ s₂ h₂ _ s₃ =>
    subst hs
    intro hw hf hres hreused hnew hkept
    refine ⟨((h₁.1.calm h₁.2).worked _ _).trans (h₂.1.trans hw),
      (hf.trans h₂.2.1.flags).trans h₁.1.flags, [], [item], ?_⟩
    obtain ⟨n, origin, hres⟩ := hres
    exact {
      perm := .refl _
      reusedRuns := by rw [hreused, h₂.2.1.reusedRuns, h₁.1.reusedRuns, List.map_nil, List.append_nil]
      newRuns := by rw [hnew, h₂.2.1.newRuns, h₁.1.newRuns]; rfl
      accepted := fun _ hmem => absurd hmem List.not_mem_nil
      unusable := fun _ hmem => List.mem_singleton.mp hmem ▸ h₁.2 ▸ hprior
      moved := fun _ item' hmem files hfiles => by
        obtain rfl := List.mem_singleton.mp hmem
        obtain ⟨timeNs, ht⟩ := h₂.2.2.2 files (by rw [h₁.2, hfiles])
        exact ⟨timeNs, (hkept timeNs).trans ht⟩
      results := ⟨_, by rw [hres, h₂.2.1.results, h₁.1.results], rfl⟩ }
  case vc5 s hs _ s₁ h₁ hprior _ hresume _ s₂ h₂ _ s₃ =>
    subst hs
    intro hw hf
    have hw₂ := ((h₁.1.calm h₁.2).worked _ _).trans h₂.1
    exact ⟨hw₂.trans hw, fun ho _ => hw₂.atFault (by decide) (hf (hw₂.output ho) h₂.2.2.1)⟩
  case vc6 s hs _ s₁ h₁ hprior _ hresume _ s₂ =>
    subst hs
    intro hw hi
    refine ⟨((h₁.1.calm h₁.2).worked _ _).trans hw, fun _ hr => (hi fun t => ?_).atFault _⟩
    rw [h₁.2, hr.fresh]
  case vc7 s hs _ s₁ h₁ hprior _ hresume _ s₂ =>
    subst hs
    intro hw hf hres hreused hnew hkept
    refine ⟨((h₁.1.calm h₁.2).worked _ _).trans hw, hf.trans h₁.1.flags, [], [item], ?_⟩
    obtain ⟨n, origin, hres⟩ := hres
    exact {
      perm := .refl _
      reusedRuns := by rw [hreused, h₁.1.reusedRuns, List.map_nil, List.append_nil]
      newRuns := by rw [hnew, h₁.1.newRuns]; rfl
      accepted := fun _ hmem => absurd hmem List.not_mem_nil
      unusable := fun _ hmem => List.mem_singleton.mp hmem ▸ h₁.2 ▸ hprior
      moved := fun hx => absurd hx hresume
      results := ⟨_, by rw [hres, h₁.1.results], rfl⟩ }
  case vc8 s hs _ s₁ h₁ hprior _ hresume _ s₂ =>
    subst hs
    intro hw hf
    refine ⟨((h₁.1.calm h₁.2).worked _ _).trans hw, fun ho hr => ?_⟩
    rw [h₁.2] at hf hprior
    exact hf ho (hr.room (Bool.eq_false_of_not_eq_true hresume) hprior)
  case vc9 s hs _ s₁ =>
    subst hs
    exact fun h ht hi => ⟨(h.calm ht).worked _ _, fun _ _ => hi.atFault _⟩

variable {env s₀} {args : Args} {item : Item} {items reused reused' new new' : List Item}
  {s s' s'' : State} {tree tree' : OutputTree} {fs : List File}

omit [Documents] in
theorem prior_congr (h : tree' item.dir = tree item.dir) :
    prior args tree' item = prior args tree item := by rw [prior, prior, h]

theorem Ready.congr (h : ∀ d, item.Owns d → tree' d = tree d) (hr : Ready env args tree item) :
    Ready env args tree' item where
  acceptable files hf := hr.acceptable files (prior_congr (h _ (.inl rfl)) ▸ hf)
  room hresume hf := by
    rw [h _ (.inl rfl)]
    exact hr.room hresume (prior_congr (h _ (.inl rfl)) ▸ hf)
  fresh t := by rw [h _ (.inr ⟨_, rfl⟩), hr.fresh]

theorem Served.cons (h : Served args [item] s s' reused new) (hw : Worked [item] fs s s')
    (h' : Served args items s' s'' reused' new') (hw' : Worked items fs s' s'')
    (hi : ∀ item' ∈ items, item'.dir ≠ item.dir) :
    Served args (item :: items) s s'' (reused ++ reused') (new ++ new') := by
  have hmine : ∀ item' ∈ reused ++ new, item' = item := fun item' hmem =>
    List.mem_singleton.mp (h.perm.mem_iff.mp hmem)
  have hrest : ∀ item' ∈ reused' ++ new', s'.tree item'.dir = s.tree item'.dir :=
    fun item' hmem => hw.untouched (fun _ hx => List.mem_singleton.mp hx ▸
      (hi item' (h'.perm.mem_iff.mp hmem)).symm) (.inl rfl)
  exact {
    perm := by
      refine List.Perm.trans ?_ (h.perm.append h'.perm)
      simp only [List.append_assoc]
      exact (List.perm_append_comm_assoc _ _ _).append_left reused
    reusedRuns := by
      rw [h'.reusedRuns, h.reusedRuns, List.map_append, List.append_assoc]
    newRuns := by rw [h'.newRuns, h.newRuns, List.map_append, List.append_assoc]
    accepted := fun item' hmem => by
      obtain hmem | hmem := List.mem_append.mp hmem
      · exact h.accepted item' hmem
      · rw [← prior_congr (hrest item' (List.mem_append_left _ hmem))]
        exact h'.accepted item' hmem
    unusable := fun item' hmem => by
      obtain hmem | hmem := List.mem_append.mp hmem
      · exact h.unusable item' hmem
      · rw [← prior_congr (hrest item' (List.mem_append_right _ hmem))]
        exact h'.unusable item' hmem
    moved := fun hresume item' hmem files hf => by
      obtain hmem | hmem := List.mem_append.mp hmem
      · obtain ⟨timeNs, ht⟩ := h.moved hresume item' hmem files hf
        refine ⟨timeNs, (hw'.untouched ?_ (.inr ⟨timeNs, rfl⟩)).trans ht⟩
        exact hmine item' (List.mem_append_right _ hmem) ▸ hi
      · refine h'.moved hresume item' hmem files ?_
        rw [hrest item' (List.mem_append_right _ hmem), hf]
    results := by
      obtain ⟨l, hl, hk⟩ := h.results
      obtain ⟨l', hl', hk'⟩ := h'.results
      refine ⟨l ++ l', by rw [hl', hl, List.append_assoc], ?_⟩
      rw [List.map_append, hk, hk']
      rfl }

theorem served_nil (args : Args) (s : State) : Served args [] s s [] [] :=
  ⟨.nil, by simp, by simp, by simp, by simp, by simp, [], by simp⟩

variable (env s₀)

theorem processPlan_of_nodup (args : Args) (timeNs : ℕ) (items : List Item)
    (hn : (items.map Item.dir).Nodup) : ⦃fun s => ⌜s = s₀⌝⦄ processPlan env args timeNs items
    ⦃post⟨fun _ s => ⌜Worked items markerFiles s₀ s ∧ s.flags = s₀.flags ∧
        ∃ reused new, Served args items s₀ s reused new⌝,
      fun _ s => ⌜Worked items markerFiles s₀ s ∧ ((s₀.tree .output).isSome = true →
        (∀ item ∈ items, Ready env args s₀.tree item) → env.AtFault s₀.tree)⌝⟩⦄ := by
  induction items generalizing s₀ with
  | nil =>
    mvcgen [processPlan]
    rename_i hs
    subst hs
    exact ⟨(Calm.refl _).worked _ _, rfl, [], [], served_nil _ _⟩
  | cons item items ih =>
    obtain ⟨hnot, hn⟩ := List.nodup_cons.mp hn
    have hi : ∀ item' ∈ items, item'.dir ≠ item.dir :=
      fun item' hmem heq => hnot (heq ▸ List.mem_map_of_mem hmem)
    replace ih := fun s₀ => ih s₀ hn
    mvcgen [processPlan, ih]
    case vc1 s hs _ s₁ h₁ _ s₂ =>
      subst hs
      obtain ⟨hw, hf, reused, new, hserved⟩ := h₁
      rintro hw' hf' ⟨reused', new', hserved'⟩
      exact ⟨hw.cons hw' hi, hf'.trans hf, _, _, hserved.cons hw hserved' hw' hi⟩
    case vc2 s hs _ s₁ h₁ _ s₂ =>
      subst hs
      obtain ⟨hw, -⟩ := h₁
      refine fun hw' hf => ⟨hw.cons hw' hi, fun ho hr => hw.atFault (by decide) ?_⟩
      refine hf (hw.output ho) fun item' hmem => (hr item' (List.mem_cons_of_mem _ hmem)).congr ?_
      intro d hd
      refine hw.untouched (fun _ hx => List.mem_singleton.mp hx ▸ (hi item' hmem).symm) hd
    case vc3 s hs _ s₁ =>
      subst hs
      exact fun hw hf => ⟨hw.cons ((Calm.refl _).worked _ _) hi,
        fun ho hr => hf ho (hr item List.mem_cons_self)⟩

end

end CerynthOS.Bench
