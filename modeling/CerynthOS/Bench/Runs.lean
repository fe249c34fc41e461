import CerynthOS.Bench.Calls

/-! One run of the matrix: the scheduler is switched to the profile, the workload is measured, and
    the files of the run are written, `summary.json` after the observations and before
    `metadata.json`. -/

open Std.Do

set_option mvcgen.warning false

namespace CerynthOS.Bench
open Files Json

/-- The commands have brought the scheduler to the profile. -/
def Env.InEffect (env : Env) (commands : List Command) (profile : MatrixProfile) : Prop :=
  ∀ start quiet, env.Healthy start quiet → (start.after commands).inEffect = profile.name

theorem running_of_inEffect {control : Control} {profile : MatrixProfile}
    (h : control.inEffect = profile.name) (hp : profile ≠ .linuxDefault) :
    control.running = true := by
  by_contra hr
  rw [Control.inEffect, if_neg hr] at h
  cases profile <;> first | exact hp rfl | exact absurd h (by decide)

theorem Env.Healthy.verify {env : Env} {start : Control} {quiet : Prop}
    (h : env.Healthy start quiet) {s : State} {profile : MatrixProfile}
    (hp : (start.after s.commands).inEffect = profile.name) :
    verify (env.sample s) profile = true := by
  obtain ⟨actual, ha, hl⟩ := h.profile s profile hp
  have hhealthy : (profile == .linuxDefault || (env.sample s).schedulerHealthy) = true := by
    by_cases hd : profile = .linuxDefault
    · simp [hd]
    · simp [h.healthy s (running_of_inEffect hp hd)]
  rw [Bench.verify, ha]
  simp only
  rw [hl, hhealthy, Bool.and_true, beq_self_eq_true]

/-- A sample that does not show the profile in effect. -/
theorem atFault_of_not_verify {env : Env} {s : State} {profile : MatrixProfile}
    (h : ¬ verify (env.sample s) profile = true) (hp : env.InEffect s.commands profile)
    (tree : OutputTree) : env.AtFault tree :=
  fun _ _ hh => absurd (hh.verify (hp _ _ hh)) h

section
variable (env : Env) (s₀ : State)

theorem awaitProfile_still (profile : MatrixProfile) (tries : ℕ) :
    ⦃fun s => ⌜Still s₀ s⌝⦄ awaitProfile env profile tries
    ⦃post⟨fun _ s => ⌜Still s₀ s⌝, fun _ s => ⌜Calm s₀ s ∧
      (env.InEffect s₀.commands profile → env.AtFault s₀.tree)⌝⟩⦄ := by
  induction tries with
  | zero =>
    mvcgen [awaitProfile]
    all_goals grind [atFault_of_not_verify, Env.Interrupts.atFault]
  | succ tries ih =>
    mvcgen [awaitProfile, tryExcept, ih]
    all_goals grind [atFault_of_not_verify, Env.Interrupts.atFault, → Filed.still]

@[spec] theorem awaitProfile_spec (profile : MatrixProfile) (tries : ℕ) :
    ⦃fun s => ⌜s = s₀⌝⦄ awaitProfile env profile tries
    ⦃post⟨fun _ s => ⌜Still s₀ s⌝, fun _ s => ⌜Calm s₀ s ∧
      (env.InEffect s₀.commands profile → env.AtFault s₀.tree)⌝⟩⦄ := by
  have h := awaitProfile_still env s₀ profile tries
  mvcgen [h]
  rename_i hs
  exact hs ▸ Still.refl _

theorem inEffect_of_stopped {env : Env} {commands : List Command} (h : env.Stopped commands) :
    env.InEffect commands .linuxDefault := by
  intro start quiet hh
  rw [Control.inEffect, if_neg (by simp [h _ _ hh])]
  rfl

theorem inEffect_of_started (commands : List Command) (profile : MatrixProfile) :
    env.InEffect (commands ++ [.profileSet profile.name] ++ [.start]) profile := by
  intro start quiet _
  rw [Control.after_concat, Control.after_concat]
  rfl

@[spec] theorem switchTo_spec (profile : MatrixProfile) : ⦃fun s => ⌜s = s₀⌝⦄ switchTo env profile
    ⦃post⟨fun _ s => ⌜Calm s₀ s ∧ s.flags = s₀.flags ∧ env.InEffect s.commands profile⌝,
      fun _ s => ⌜Calm s₀ s ∧ env.AtFault s₀.tree⌝⟩⦄ := by
  mvcgen [switchTo] with grind [inEffect_of_stopped, inEffect_of_started]

end

/-! ### Watching a workload -/

/-- While the workload is watched its observations grow. -/
structure Watched (d : Dir) (s s' : State) (more : List UInt8) : Prop extends Logged s s' where
  commands : s'.commands = s.commands
  flags : s'.flags = s.flags
  tree : ∀ written, s.tree.file d .observations = some written →
    s'.tree = s.tree.put d .observations (written ++ more)

/-- They may end anywhere. -/
structure Broken (d : Dir) (s s' : State) : Prop extends Logged s s' where
  tree : ∀ written, s.tree.file d .observations = some written →
    ∃ w, s'.tree = s.tree.put d .observations w

section
variable {d : Dir} {s s' s'' : State} {more more' : List UInt8}

theorem Watched.file (h : Watched d s s' more) {written : List UInt8}
    (hw : s.tree.file d .observations = some written) :
    s'.tree.file d .observations = some (written ++ more) := by
  rw [h.tree written hw, Tree.file_put_self (Tree.isSome_of_file hw)]

@[grind →]
theorem Watched.trans (h : Watched d s s' more) (h' : Watched d s' s'' more') :
    Watched d s s'' (more ++ more') where
  toLogged := h.toLogged.trans h'.toLogged
  commands := h'.commands.trans h.commands
  flags := h'.flags.trans h.flags
  tree written hw := by
    rw [h'.tree _ (h.file hw), h.tree _ hw, Tree.put_put, List.append_assoc]

@[grind →]
theorem Watched.still (h : Watched d s s' more) (h' : Still s' s'') : Watched d s s'' more where
  toLogged := h.toLogged.trans h'.toLogged
  commands := h'.commands.trans h.commands
  flags := h'.flags.trans h.flags
  tree written hw := h'.tree.trans (h.tree written hw)

@[grind →]
theorem Still.trans_watched (h : Still s s') (h' : Watched d s' s'' more) :
    Watched d s s'' more where
  toLogged := h.toLogged.trans h'.toLogged
  commands := h'.commands.trans h.commands
  flags := h'.flags.trans h.flags
  tree written hw := h.tree ▸ h'.tree written (h.tree ▸ hw)

theorem Still.watched (h : Still s s') (d : Dir) : Watched d s s' [] where
  toLogged := h.toLogged
  commands := h.commands
  flags := h.flags
  tree written hw := by rw [List.append_nil, Tree.put_eq_self hw, h.tree]

@[grind →]
theorem Watched.broken (h : Watched d s s' more) (h' : Broken d s' s'') : Broken d s s'' where
  toLogged := h.toLogged.trans h'.toLogged
  tree written hw := by
    obtain ⟨w, hw'⟩ := h'.tree _ (h.file hw)
    exact ⟨w, by rw [hw', h.tree _ hw, Tree.put_put]⟩

@[grind →]
theorem Still.trans_broken (h : Still s s') (h' : Broken d s' s'') : Broken d s s'' where
  toLogged := h.toLogged.trans h'.toLogged
  tree written hw := h.tree ▸ h'.tree written (h.tree ▸ hw)

@[grind →]
theorem Watched.calm (h : Watched d s s' more) (h' : Calm s' s'') : Broken d s s'' where
  toLogged := h.toLogged.trans h'.toLogged
  tree written hw := ⟨_, h'.tree.trans (h.tree written hw)⟩

theorem Calm.broken (h : Calm s s') (d : Dir) : Broken d s s' where
  toLogged := h.toLogged
  tree written hw := ⟨written, by rw [Tree.put_eq_self hw, h.tree]⟩

theorem incomplete_put (hd : d ≠ .output) {tree : OutputTree} {f : File} {contents : List UInt8} :
    Incomplete (tree.put d f contents) ↔ Incomplete tree := by
  rw [Incomplete, Tree.file_put_of_ne (.inl (Ne.symm hd)), Incomplete]

/-- If the observations are there and the scheduler is as it should be, it is the system's fault. -/
def Faulty (env : Env) (item : Item) (s : State) : Prop :=
  (s.tree.file item.dir .observations).isSome = true →
    env.InEffect s.commands item.profile → env.AtFault s.tree

variable {env : Env} {item : Item}

theorem faulty_of_atFault (h : env.AtFault s.tree) : Faulty env item s := fun _ _ => h

theorem Item.dir_ne_output (item : Item) : item.dir ≠ .output := by
  intro h
  cases h

@[grind →]
theorem Watched.faulty (h : Watched item.dir s s' more) (hf : Faulty env item s') :
    Faulty env item s := by
  intro hw hp start quiet hh hq
  obtain ⟨written, hw⟩ := Option.isSome_iff_exists.mp hw
  refine hf (by rw [h.file hw]; rfl) (h.commands ▸ hp) start quiet hh (hq.imp_right fun hi => ?_)
  rw [h.tree _ hw]
  exact (incomplete_put item.dir_ne_output).mpr hi

@[grind →]
theorem Still.faulty (h : Still s s') (hf : Faulty env item s') : Faulty env item s := by
  intro hw hp
  rw [← h.tree]
  exact hf (h.tree ▸ hw) (h.commands ▸ hp)

theorem faulty_of_not_verify (h : ¬ verify (env.sample s) item.profile = true) :
    Faulty env item s := fun _ hp => atFault_of_not_verify h hp _

/-- The health check of a gated run. -/
theorem faulty_of_unhealthy (h : (env.sample s).schedulerHealthy = false)
    (hd : item.profile ≠ .linuxDefault) : Faulty env item s := by
  intro _ hp start quiet hh
  have := hh.healthy s (running_of_inEffect (hp _ _ hh) hd)
  rw [h] at this
  cases this

end

section
variable [Documents] (env : Env) (s₀ : State)

@[spec] theorem writeSample_spec (item : Item) (sample : Sample) :
    ⦃fun s => ⌜s = s₀⌝⦄ writeSample env item sample
    ⦃post⟨fun _ s => ⌜Watched item.dir s₀ s sample.line⌝,
      fun _ s => ⌜Broken item.dir s₀ s ∧ env.Interrupts⌝⟩⦄ := by
  mvcgen [writeSample]
  case vc1 s hs _ s' =>
    subst hs
    exact fun h ht => ⟨h.logged, h.commands, h.flags, ht⟩
  case vc2 s hs _ s' =>
    subst hs
    exact fun h hi ht => ⟨⟨h.logged, fun w hw => (ht w hw).imp' _ fun _ hp => hp.2⟩, hi⟩

/-- What a healthy system shows in every sample but the first. -/
def Env.Measured (env : Env) (s : State) (sample : Sample) : Prop :=
  ∀ start quiet, env.Healthy start quiet → 0 < s.samples → ∀ m, m ∈ sample.telemetry

omit [Documents] in
theorem measured_of_observe {s : State} (h : s.samples = s₀.samples + 1) :
    env.Measured s₀ (env.sample s) :=
  fun _ _ hh hpos => hh.telemetry s (by omega)

@[spec] theorem watchOnce_spec (item : Item) : ⦃fun s => ⌜s = s₀⌝⦄ watchOnce env item
    ⦃post⟨fun sample s => ⌜Watched item.dir s₀ s sample.line ∧ verify sample item.profile = true ∧
        env.Measured s₀ sample⌝,
      fun _ s => ⌜Broken item.dir s₀ s ∧ Faulty env item s₀⌝⟩⦄ := by
  mvcgen [watchOnce]
  case vc4 s hs _ s₁ h₁ _ s₂ h₂ _ s₃ h₃ _ s₄ h₄ _ hgate _ s₅ h₅ _ s₆ =>
    subst hs
    rintro - rfl
    have hw := ((h₁.1.trans_watched h₂).still (h₃.1.still h₃.2)).still h₄
    rw [Bool.and_eq_true, Bool.and_eq_true, Bool.not_eq_true', bne_iff_ne, h₁.2.2] at hgate
    exact ⟨hw.calm h₅.1, h₁.1.faulty (faulty_of_unhealthy hgate.1.2 hgate.2)⟩
  case vc5 s hs _ s₁ h₁ _ s₂ h₂ _ s₃ h₃ _ s₄ h₄ _ hgate hv =>
    subst hs
    exact ⟨((h₁.1.trans_watched h₂).still (h₃.1.still h₃.2)).still h₄, hv,
      h₁.2.2 ▸ measured_of_observe _ _ h₁.2.1⟩
  case vc6 => exact False.elim
  case vc7 s hs _ s₁ h₁ _ s₂ h₂ _ s₃ h₃ _ s₄ h₄ _ hgate hv _ s₅ =>
    subst hs
    rintro - rfl
    have hw := (h₁.1.trans_watched h₂).still (h₃.1.still h₃.2)
    rw [h₁.2.2] at hv
    exact ⟨hw.calm h₄.toCalm, h₁.1.faulty (faulty_of_not_verify hv)⟩
  case vc8 s hs _ s₁ h₁ _ s₂ h₂ _ s₃ h₃ _ s₄ =>
    subst hs
    intro h₄ hf
    have hw := (h₁.1.trans_watched h₂).still (h₃.1.still h₃.2)
    exact ⟨hw.calm h₄, hw.faulty (faulty_of_atFault hf)⟩
  case vc9 s hs _ s₁ h₁ _ s₂ h₂ _ s₃ =>
    subst hs
    intro h₃ ht hi
    exact ⟨(h₁.1.trans_watched h₂).calm (h₃.calm ht), faulty_of_atFault (hi.atFault _)⟩
  case vc10 s hs _ s₁ h₁ _ s₂ =>
    subst hs
    exact fun h₂ hi => ⟨h₁.1.trans_broken h₂, faulty_of_atFault (hi.atFault _)⟩
  case vc11 s hs _ s₁ =>
    subst hs
    exact fun h₁ hi => ⟨h₁.toCalm.broken _, faulty_of_atFault (hi.atFault _)⟩

/-- What a workload that was watched to its end leaves. -/
structure Env.Collected (env : Env) (item : Item) (s s' : State) (samples : List Sample) :
    Prop where
  watched : Watched item.dir s s' (samples.flatMap Sample.line)
  ne_nil : samples ≠ []
  verify : ∀ sample ∈ samples, verify sample item.profile = true
  measured : ∃ sample ∈ samples, env.Measured s sample

@[spec] theorem watch_spec (item : Item) (rounds : ℕ) : ⦃fun s => ⌜s = s₀⌝⦄ watch env item rounds
    ⦃post⟨fun samples s => ⌜env.Collected item s₀ s samples⌝,
      fun _ s => ⌜Broken item.dir s₀ s ∧ Faulty env item s₀⌝⟩⦄ := by
  induction rounds generalizing s₀ with
  | zero =>
    mvcgen [watch]
    case vc1.zero.post.success s hs sample s₁ h₁ =>
      subst hs
      refine ⟨?_, List.cons_ne_nil _ _, ?_, sample, List.mem_singleton_self _, h₁.2.2⟩
      · rw [List.flatMap_singleton]
        exact h₁.1
      · intro sample' hmem
        rw [List.mem_singleton.mp hmem]
        exact h₁.2.1
    case vc2.zero.post.except.handle s hs _ s₁ =>
      subst hs
      exact And.intro
  | succ rounds ih =>
    mvcgen [watch, ih]
    case vc4.succ.post.success.isTrue.post.except.handle s hs sample s₁ h₁ _ hlate _ s₂ =>
      subst hs
      rintro - rfl
      refine ⟨h₁.1.calm (Calm.refl _), h₁.1.faulty (faulty_of_atFault fun _ _ hh => ?_)⟩
      rw [hh.overdue] at hlate
      cases hlate
    case vc5.succ.post.success.isFalse.post.success.post.success s hs sample s₁ h₁ _ _ _ s₂ h₂
        samples s₃ h₃ =>
      subst hs
      refine ⟨?_, List.cons_ne_nil _ _, ?_, sample, List.mem_cons_self, h₁.2.2⟩
      · rw [List.flatMap_cons]
        exact (h₁.1.still (h₂.1.still h₂.2)).trans h₃.watched
      · exact List.forall_mem_cons.mpr ⟨h₁.2.1, h₃.verify⟩
    case vc6.succ.post.success.isFalse.post.success.post.except.handle s hs sample s₁ h₁ _ _ _ s₂
        h₂ _ s₃ =>
      subst hs
      have hw := h₁.1.still (h₂.1.still h₂.2)
      exact fun h₃ hf => ⟨hw.broken h₃, hw.faulty hf⟩
    case vc7.succ.post.success.isFalse.post.except.handle s hs sample s₁ h₁ _ _ _ s₂ =>
      subst hs
      intro h₂ ht hi
      exact ⟨h₁.1.calm (h₂.calm ht), faulty_of_atFault (hi.atFault _)⟩
    case vc8.succ.post.except.handle s hs _ s₁ =>
      subst hs
      exact And.intro

@[spec] theorem measureSamples_spec (item : Item) : ⦃fun s => ⌜s = s₀⌝⦄ measureSamples env item
    ⦃post⟨fun samples s => ⌜env.Collected item s₀ s samples⌝,
      fun _ s => ⌜Broken item.dir s₀ s ∧ Faulty env item s₀⌝⟩⦄ := by
  mvcgen [measureSamples]
  case vc1 s hs samples s₁ h₁ _ => exact hs ▸ h₁
  case vc2 => exact False.elim
  case vc3 s hs samples s₁ h₁ hexit _ s₂ =>
    subst hs
    rintro - rfl
    refine ⟨h₁.watched.calm (Calm.refl _), h₁.watched.faulty (faulty_of_atFault fun _ _ hh => ?_)⟩
    exact absurd (hh.exitCode _) hexit
  case vc4 s hs _ s₁ =>
    subst hs
    exact And.intro

end

/-! ### The files of a run -/

/-- Of the files, only these in this directory are touched. -/
structure Touched (d : Dir) (fs : List File) (s s' : State) : Prop extends Logged s s' where
  elsewhere : ∀ e, e ≠ d → s'.tree e = s.tree e
  kept : (s.tree d).isSome = true → (s'.tree d).isSome = true
  others : ∀ f, f ∉ fs → s'.tree.file d f = s.tree.file d f

section
variable {d : Dir} {fs : List File} {s s' s'' : State} {f : File} {bytes : List UInt8}

@[grind →]
theorem Touched.trans (h : Touched d fs s s') (h' : Touched d fs s' s'') : Touched d fs s s'' where
  toLogged := h.toLogged.trans h'.toLogged
  elsewhere e he := (h'.elsewhere e he).trans (h.elsewhere e he)
  kept hs := h'.kept (h.kept hs)
  others f hf := (h'.others f hf).trans (h.others f hf)

theorem Touched.mono {fs' : List File} (h : Touched d fs s s') (hsub : fs ⊆ fs') :
    Touched d fs' s s' := { h with others := fun f hf => h.others f fun hx => hf (hsub hx) }

theorem Calm.touched (h : Calm s s') (d : Dir) (fs : List File) : Touched d fs s s' where
  toLogged := h.toLogged
  elsewhere e _ := by rw [h.tree]
  kept hs := h.tree ▸ hs
  others f _ := by rw [h.tree]

theorem Logged.touched_put (h : Logged s s') (ht : s'.tree = s.tree.put d f bytes) (hf : f ∈ fs) :
    Touched d fs s s' where
  toLogged := h
  elsewhere e he := by rw [ht, Tree.put_of_ne he]
  kept hs := by rw [ht, Tree.isSome_put, hs]
  others f' hf' := by
    rw [ht, Tree.file_put_of_ne (.inr (ne_of_mem_of_not_mem hf hf').symm)]

theorem Logged.touched_mkdir (h : Logged s s') (hd : s.tree d = none)
    (ht : s'.tree = TreeStep.apply s.tree (.mkdir d)) : Touched d fs s s' where
  toLogged := h
  elsewhere e he := by rw [ht, TreeStep.apply, Function.update_of_ne he]
  kept hs := by rw [hd] at hs; cases hs
  others f _ := by rw [ht, TreeStep.apply, Tree.file, Tree.file, Function.update_self, hd]; rfl

theorem Filed.touched (h : Filed s s')
    (ht : s'.tree = s.tree ∨ ∃ bytes, s'.tree = s.tree.put d f bytes) (hf : f ∈ fs) :
    Touched d fs s s' := by
  obtain ht | ⟨bytes, ht⟩ := ht
  · exact (h.calm ht).touched d fs
  · exact h.logged.touched_put ht hf

theorem Broken.touched (h : Broken d s s') {written : List UInt8}
    (hw : s.tree.file d .observations = some written) (hf : .observations ∈ fs) :
    Touched d fs s s' := by
  obtain ⟨w, ht⟩ := h.tree written hw
  exact h.toLogged.touched_put ht hf

/-- A directory that must not have been there. -/
theorem touched_of_made (h : Filed s s' ∧ ((s.tree d).isSome = true ∧ false = true ∧
      s'.tree = s.tree ∨ s.tree d = none ∧ s'.tree = TreeStep.apply s.tree (.mkdir d))) :
    s.tree d = none ∧ Touched d fs s s' ∧ (s'.tree d).isSome = true := by
  obtain ⟨-, hx, -⟩ | ⟨hd, ht⟩ := h.2
  · cases hx
  · refine ⟨hd, h.1.logged.touched_mkdir hd ht, ?_⟩
    rw [ht, TreeStep.apply, Function.update_self]
    rfl

theorem Touched.file_none (h : Touched d fs s s') (hd : s.tree d = none) (hf : f ∉ fs) :
    s'.tree.file d f = none := by
  rw [h.others f hf, Tree.file, hd, Option.bind_none]

theorem Touched.incomplete (h : Touched d fs s s') (hd : d ≠ .output) :
    Incomplete s'.tree ↔ Incomplete s.tree := by
  rw [Incomplete, Incomplete, Tree.file, Tree.file, h.elsewhere _ (Ne.symm hd)]

theorem Touched.atFault {env : Env} (h : Touched d fs s s') (hd : d ≠ .output)
    (hf : env.AtFault s'.tree) : env.AtFault s.tree :=
  fun start quiet hh hq => hf start quiet hh (hq.imp_right (h.incomplete hd).mpr)

end

/-- The files that are written while a workload is watched. -/
def watchFiles : List File := [.workloadLog, .observations, .adaptationAudit]

section
variable (env : Env) (s₀ : State)

@[spec] theorem startWorkload_spec (item : Item) : ⦃fun s => ⌜s = s₀⌝⦄ startWorkload env item
    ⦃post⟨fun _ s => ⌜Touched item.dir watchFiles s₀ s ∧ s.flags = s₀.flags ∧
        s.commands = s₀.commands ∧ s₀.samples < s.samples ∧ s₀.tree item.dir = none ∧
        s.tree.file item.dir .observations = some []⌝,
      fun _ s => ⌜Touched item.dir watchFiles s₀ s ∧
        (s₀.tree item.dir = none ∧ env.AtFault s₀.tree ∨ s.tree = s₀.tree ∧
          (s₀.tree item.dir = none → env.AtFault s₀.tree))⌝⟩⦄ := by
  mvcgen [startWorkload]
  case vc1 s hs _ s₁ h₁ _ s₂ h₂ _ s₃ h₃ _ s₄ h₄ _ s₅ =>
    subst hs
    intro h₅ ht
    have h₁₅ := h₃.1.trans (h₄.1.trans h₅)
    obtain ⟨hd, hm, -⟩ := touched_of_made h₁
    have hput := (h₃.1.logged.touched_put h₃.2.1 (by decide : .workloadLog ∈ watchFiles)).trans
      (h₄.1.logged.touched_put h₄.2.1 (by decide))
    have hall := (hm.trans (h₂.1.touched _ _)).trans hput
    refine ⟨hall.trans ((h₅.calm ht).touched _ _), ?_, ?_, ?_, hd, ?_⟩
    · rw [h₁₅.flags, h₂.1.flags, h₁.1.flags]
    · rw [h₁₅.commands, h₂.1.commands, h₁.1.commands]
    · rw [h₁₅.samples, h₂.2.1, h₁.1.samples]
      exact Nat.lt_succ_self _
    · rw [ht, h₄.2.1, Tree.file_put_self h₄.2.2]
  case vc2 s hs _ s₁ h₁ _ s₂ h₂ _ s₃ h₃ _ s₄ h₄ _ s₅ =>
    subst hs
    intro h₅ ht hi
    obtain ⟨hd, hm, -⟩ := touched_of_made h₁
    have hput := (h₃.1.logged.touched_put h₃.2.1 (by decide : .workloadLog ∈ watchFiles)).trans
      (h₄.1.logged.touched_put h₄.2.1 (by decide))
    have hall := (hm.trans (h₂.1.touched _ _)).trans hput
    exact ⟨hall.trans ((h₅.calm ht).touched _ _), .inl ⟨hd, hi.atFault _⟩⟩
  case vc3 s hs _ s₁ h₁ _ s₂ h₂ _ s₃ h₃ _ s₄ =>
    subst hs
    intro h₄ ht hi
    obtain ⟨hd, hm, -⟩ := touched_of_made h₁
    have hput := h₃.1.logged.touched_put h₃.2.1 (by decide : .workloadLog ∈ watchFiles)
    rw [h₃.2.1, Tree.isSome_put, h₃.2.2] at hi
    exact ⟨((hm.trans (h₂.1.touched _ _)).trans hput).trans ((h₄.calm ht).touched _ _),
      .inl ⟨hd, (hi.resolve_right (by decide)).atFault _⟩⟩
  case vc4 s hs _ s₁ h₁ _ s₂ h₂ _ s₃ =>
    subst hs
    intro h₃ ht hi
    obtain ⟨hd, hm, hmade⟩ := touched_of_made h₁
    rw [h₂.1.tree, hmade] at hi
    exact ⟨(hm.trans (h₂.1.touched _ _)).trans ((h₃.calm ht).touched _ _),
      .inl ⟨hd, (hi.resolve_right (by decide)).atFault _⟩⟩
  case vc5 s hs _ s₁ h₁ _ s₂ =>
    subst hs
    intro h₂ hi
    obtain ⟨hd, hm, -⟩ := touched_of_made h₁
    exact ⟨hm.trans (h₂.touched _ _), .inl ⟨hd, hi.atFault _⟩⟩
  case vc6 s hs _ s₁ =>
    subst hs
    intro h₁ ht hi
    refine ⟨(h₁.calm ht).touched _ _, .inr ⟨ht, fun hd => ?_⟩⟩
    rw [hd] at hi
    exact (hi.resolve_right (by decide)).atFault _

@[spec] theorem endWorkload_spec (item : Item) : ⦃fun s => ⌜s = s₀⌝⦄ endWorkload env item
    ⦃post⟨fun _ s => ⌜Filed s₀ s ∧ ∃ bytes, s.tree = s₀.tree.put item.dir .adaptationAudit bytes⌝,
      fun _ s => ⌜Filed s₀ s ∧ (s.tree = s₀.tree ∨
          ∃ bytes, s.tree = s₀.tree.put item.dir .adaptationAudit bytes) ∧
        (env.Interrupts ∨ (s₀.tree item.dir).isSome = false)⌝⟩⦄ := by
  mvcgen [endWorkload] with grind

/-- The workload is measured and ended. -/
@[spec] theorem watchWorkload_spec [Documents] (item : Item) : ⦃fun s => ⌜s = s₀⌝⦄
    tryFinally (measureSamples env item) (endWorkload env item)
    ⦃post⟨fun samples s => ⌜s₀.tree.file item.dir .observations = some [] →
        Touched item.dir watchFiles s₀ s ∧ s.flags = s₀.flags ∧ s.commands = s₀.commands ∧
        s.tree.file item.dir .observations = some (samples.flatMap Sample.line) ∧
        samples ≠ [] ∧ (∀ sample ∈ samples, verify sample item.profile = true) ∧
        ∃ sample ∈ samples, env.Measured s₀ sample⌝,
      fun _ s => ⌜s₀.tree.file item.dir .observations = some [] →
        Touched item.dir watchFiles s₀ s ∧
        (env.InEffect s₀.commands item.profile → env.AtFault s₀.tree)⌝⟩⦄ := by
  mvcgen [tryFinally]
  case vc1 s hs samples s₁ h₁ _ s₂ h₂ =>
    subst hs
    intro hw
    have ht := (h₁.watched.toLogged.touched_put (h₁.watched.tree _ hw)
      (by decide : .observations ∈ watchFiles)).trans (h₂.1.touched (.inr h₂.2) (by decide))
    obtain ⟨bytes, hb⟩ := h₂.2
    refine ⟨ht, ?_, ?_, ?_, h₁.ne_nil, h₁.verify, h₁.measured⟩
    · rw [h₂.1.flags, h₁.watched.flags]
    · rw [h₂.1.commands, h₁.watched.commands]
    · rw [hb, Tree.file_put_of_ne (.inr (by decide)), h₁.watched.file hw, List.nil_append]
  case vc2 s hs samples s₁ h₁ _ s₂ =>
    subst hs
    intro h₂ ht hi hw
    refine ⟨(h₁.watched.toLogged.touched_put (h₁.watched.tree _ hw)
      (by decide : .observations ∈ watchFiles)).trans (h₂.touched ht (by decide)), fun _ => ?_⟩
    rw [Tree.isSome_of_file (h₁.watched.file hw)] at hi
    exact (hi.resolve_right (by decide)).atFault _
  case vc5 => exact False.elim
  case vc6 s hs _ s₁ h₁ _ _ _ s₂ h₂ _ s₃ =>
    subst hs
    rintro - rfl hw
    exact ⟨(h₁.1.touched hw (by decide)).trans (h₂.1.touched (.inr h₂.2) (by decide)),
      h₁.2 (by rw [hw]; rfl)⟩
  case vc7 s hs _ s₁ h₁ _ _ _ s₂ =>
    subst hs
    intro h₂ ht _ hw
    exact ⟨(h₁.1.touched hw (by decide)).trans (h₂.touched ht (by decide)),
      h₁.2 (by rw [hw]; rfl)⟩
  case vc8 s hs _ s₁ h₁ _ =>
    subst hs
    exact fun hw => ⟨h₁.1.touched hw (by decide), h₁.2 (by rw [hw]; rfl)⟩

@[spec] theorem measureWorkload_spec [Documents] (item : Item) : ⦃fun s => ⌜s = s₀⌝⦄
    measureWorkload env item
    ⦃post⟨fun samples s => ⌜Touched item.dir watchFiles s₀ s ∧ s.flags = s₀.flags ∧
        s.commands = s₀.commands ∧ s₀.tree item.dir = none ∧ samples ≠ [] ∧
        (∀ sample ∈ samples, verify sample item.profile = true) ∧
        s.tree.file item.dir .observations = some (samples.flatMap Sample.line)⌝,
      fun _ s => ⌜Touched item.dir watchFiles s₀ s ∧
        (s₀.tree item.dir = none ∨ s.tree = s₀.tree) ∧
        (s₀.tree item.dir = none → env.InEffect s₀.commands item.profile →
          env.AtFault s₀.tree)⌝⟩⦄ := by
  mvcgen [measureWorkload]
  case vc1 s hs _ s₁ h₁ samples _ hall s₂ h₂ _ s₃ h₃ =>
    subst hs
    obtain ⟨ht, hf, hc, ho, hne, hv, -⟩ := h₂ h₁.2.2.2.2.2
    refine ⟨(h₁.1.trans ht).trans ((h₃.1.calm h₃.2).touched _ _), ?_, ?_, h₁.2.2.2.2.1, hne, hv, ?_⟩
    · rw [h₃.1.flags, hf, h₁.2.1]
    · rw [h₃.1.commands, hc, h₁.2.2.1]
    · rw [h₃.2, ho]
  case vc2 s hs _ s₁ h₁ samples _ hall s₂ h₂ _ s₃ =>
    subst hs
    intro h₃ htree hi
    obtain ⟨ht, -⟩ := h₂ h₁.2.2.2.2.2
    exact ⟨(h₁.1.trans ht).trans ((h₃.calm htree).touched _ _), .inl h₁.2.2.2.2.1,
      fun _ _ => hi.atFault _⟩
  case vc5 s hs _ s₁ h₁ samples _ hall s₂ h₂ _ s₃ =>
    subst hs
    rintro - rfl
    obtain ⟨ht, -, -, -, -, -, sample, hmem, hm⟩ := h₂ h₁.2.2.2.2.2
    refine ⟨h₁.1.trans ht, .inl h₁.2.2.2.2.1, fun _ _ start quiet hh => absurd ?_ hall⟩
    refine List.all_eq_true.mpr fun metric _ => List.any_eq_true.mpr ⟨sample, hmem, ?_⟩
    exact List.contains_iff_mem.mpr (hm start quiet hh (Nat.zero_lt_of_lt h₁.2.2.2.1) metric)
  case vc6 s hs _ s₁ h₁ _ s₂ =>
    subst hs
    intro h
    obtain ⟨ht, hf⟩ := h h₁.2.2.2.2.2
    refine ⟨h₁.1.trans ht, .inl h₁.2.2.2.2.1, fun _ hp => h₁.1.atFault item.dir_ne_output ?_⟩
    exact hf (h₁.2.2.1 ▸ hp)
  case vc7 s hs _ s₁ =>
    subst hs
    rintro ht (⟨hd, hf⟩ | ⟨hsame, hf⟩)
    · exact ⟨ht, .inl hd, fun _ _ => hf⟩
    · exact ⟨ht, .inr hsame, fun hd _ => hf hd⟩

/-! ### The records of a run -/

/-- The text of a document that is written. -/
def written {α : Type} [Document α] (a : α) : List UInt8 := Document.dumpsIndent a ++ [10]

theorem loads_written {α : Type} [Document α] (a : α) : Document.loads (written a) = some a :=
  Document.loads_indent a [10] fun _ hb => List.mem_singleton.mp hb ▸ rfl

/-- What a measured run leaves besides its summary. -/
structure Recorded [Documents] (item : Item) (samples : List Sample) (tree : OutputTree) : Prop where
  ne_nil : samples ≠ []
  verify : ∀ sample ∈ samples, Bench.verify sample item.profile = true
  observations : tree.file item.dir .observations = some (samples.flatMap Sample.line)
  metadata : ∀ bytes, tree.file item.dir .metadata = some bytes → ∃ interval,
    bytes <+: written (⟨0, item.duration, interval⟩ : Metadata)

/-- A run that ended anywhere: its summary comes after its observations. -/
def LeftRun [Documents] (item : Item) (tree : OutputTree) : Prop :=
  ∀ bytes, tree.file item.dir .summary = some bytes → ∃ samples origin,
    Recorded item samples tree ∧
      bytes <+: written (⟨item.profile, item.workload, samples.length, origin⟩ : Summary)

variable [Documents] {item : Item} {samples : List Sample} {tree : OutputTree}

theorem Recorded.put_summary (h : Recorded item samples tree) (bytes : List UInt8) :
    Recorded item samples (tree.put item.dir .summary bytes) where
  ne_nil := h.ne_nil
  verify := h.verify
  observations := by rw [Tree.file_put_of_ne (.inr (by decide)), h.observations]
  metadata b hb := by
    rw [Tree.file_put_of_ne (.inr (by decide))] at hb
    exact h.metadata b hb

theorem Recorded.put_metadata (h : Recorded item samples tree) {bytes : List UInt8}
    {interval : ℚ} (hb : bytes <+: written (⟨0, item.duration, interval⟩ : Metadata)) :
    Recorded item samples (tree.put item.dir .metadata bytes) where
  ne_nil := h.ne_nil
  verify := h.verify
  observations := by rw [Tree.file_put_of_ne (.inr (by decide)), h.observations]
  metadata b hm := by
    obtain ⟨files, hf, -⟩ := Option.bind_eq_some_iff.mp h.observations
    rw [Tree.file_put_self (by rw [hf]; rfl)] at hm
    exact ⟨interval, Option.some.inj hm ▸ hb⟩

theorem leftRun_of_none (h : tree.file item.dir .summary = none) : LeftRun item tree := by
  intro bytes hb
  rw [h] at hb
  cases hb

theorem Recorded.leftRun (h : Recorded item samples tree) {bytes : List UInt8}
    {origin : Option String} (hs : tree.file item.dir .summary = some bytes)
    (hb : bytes <+: written (⟨item.profile, item.workload, samples.length, origin⟩ : Summary)) :
    LeftRun item tree := by
  intro b hs'
  rw [hs] at hs'
  exact ⟨samples, origin, h, Option.some.inj hs' ▸ hb⟩

theorem Recorded.leftRun_put (h : Recorded item samples tree) {bytes : List UInt8}
    {origin : Option String}
    (hb : bytes <+: written (⟨item.profile, item.workload, samples.length, origin⟩ : Summary)) :
    LeftRun item (tree.put item.dir .summary bytes) :=
  (h.put_summary bytes).leftRun (Tree.file_put_self (Tree.isSome_of_file h.observations)) hb

theorem Touched.recorded {s s' : State} (h : Touched item.dir watchFiles s s')
    (hd : s.tree item.dir = none) (hne : samples ≠ [])
    (hv : ∀ sample ∈ samples, verify sample item.profile = true)
    (ho : s'.tree.file item.dir .observations = some (samples.flatMap Sample.line)) :
    Recorded item samples s'.tree := by
  refine ⟨hne, hv, ho, fun bytes hb => ?_⟩
  rw [h.file_none hd (by decide)] at hb
  cases hb

/-- What is written in the directory of a run. -/
def runFiles : List File := [.workloadLog, .observations, .adaptationAudit, .summary, .metadata]

@[spec] theorem runWorkload_spec (item : Item) (interval : ℚ) :
    ⦃fun s => ⌜s = s₀⌝⦄ runWorkload env item interval
    ⦃post⟨fun summary s => ⌜Touched item.dir runFiles s₀ s ∧ s.flags = s₀.flags ∧
        s.commands = s₀.commands ∧ s₀.tree item.dir = none ∧ ∃ samples,
        summary = ⟨item.profile, item.workload, samples.length, none⟩ ∧
        Recorded item samples s.tree ∧ LeftRun item s.tree⌝,
      fun _ s => ⌜Touched item.dir runFiles s₀ s ∧ (LeftRun item s₀.tree → LeftRun item s.tree) ∧
        (s₀.tree item.dir = none → env.InEffect s₀.commands item.profile →
          env.AtFault s₀.tree)⌝⟩⦄ := by
  mvcgen [runWorkload]
  case vc1 s hs samples summary s₁ h₁ _ s₂ h₂ _ s₃ h₃ =>
    subst hs
    obtain ⟨ht, hf, hc, hd, hne, hv, ho⟩ := h₁
    refine ⟨((ht.mono (by decide)).trans (h₂.1.touched (.inr ⟨_, h₂.2.1⟩) (by decide))).trans
      (h₃.1.touched (.inr ⟨_, h₃.2.1⟩) (by decide)), ?_, ?_, hd, samples, rfl, ?_⟩
    · rw [h₃.1.flags, h₂.1.flags, hf]
    · rw [h₃.1.commands, h₂.1.commands, hc]
    · rw [h₃.2.1, h₂.2.1]
      have hrec := ((ht.recorded hd hne hv ho).put_summary (written summary)).put_metadata
        (List.prefix_refl (written (⟨0, item.duration, interval⟩ : Metadata)))
      refine ⟨hrec, hrec.leftRun ?_ (List.prefix_refl (written summary))⟩
      rw [Tree.file_put_of_ne (.inr (by decide)), Tree.file_put_self h₂.2.2]
  case vc2 s hs samples summary s₁ h₁ _ s₂ h₂ _ s₃ =>
    subst hs
    intro h₃ ht₃ hi
    obtain ⟨ht, -, -, hd, hne, hv, ho⟩ := h₁
    have hrec := ht.recorded hd hne hv ho
    refine ⟨((ht.mono (by decide)).trans (h₂.1.touched (.inr ⟨_, h₂.2.1⟩) (by decide))).trans
      (h₃.touched (left_of_broken ht₃) (by decide)), fun _ => ?_, fun _ _ => ?_⟩
    · obtain ht₃ | ⟨p, hp, ht₃⟩ := ht₃
      · rw [ht₃, h₂.2.1]
        exact hrec.leftRun_put List.prefix_rfl
      · rw [ht₃, h₂.2.1]
        refine ((hrec.put_summary _).put_metadata hp).leftRun ?_ (List.prefix_refl (written summary))
        rw [Tree.file_put_of_ne (.inr (by decide)), Tree.file_put_self h₂.2.2, written]
    · rw [h₂.2.1, Tree.isSome_put, h₂.2.2] at hi
      exact (hi.resolve_right (by decide)).atFault _
  case vc3 s hs samples summary s₁ h₁ _ s₂ =>
    subst hs
    intro h₂ ht₂ hi
    obtain ⟨ht, -, -, hd, hne, hv, ho⟩ := h₁
    refine ⟨(ht.mono (by decide)).trans
      (h₂.touched (left_of_broken ht₂) (by decide)), fun _ => ?_, fun _ _ => ?_⟩
    · obtain ht₂ | ⟨p, hp, ht₂⟩ := ht₂
      · rw [ht₂]
        exact leftRun_of_none (ht.file_none hd (by decide))
      · rw [ht₂]
        exact (ht.recorded hd hne hv ho).leftRun_put hp
    · rw [Tree.isSome_of_file ho] at hi
      exact (hi.resolve_right (by decide)).atFault _
  case vc4 s hs _ s₁ =>
    subst hs
    intro ht hcases hf
    refine ⟨ht.mono (by decide), fun hleft => ?_, hf⟩
    obtain hd | hsame := hcases
    · exact leftRun_of_none (ht.file_none hd (by decide))
    · exact hsame ▸ hleft

end

end CerynthOS.Bench
