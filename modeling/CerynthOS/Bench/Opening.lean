import CerynthOS.Bench.Matrix

/-! What the script checks before it starts, and what it writes first. -/

open Std.Do

set_option mvcgen.warning false

namespace CerynthOS.Bench
open Files Json

/-- The session has done nothing yet. -/
structure State.Unused (s : State) : Prop where
  seen : s.seen = false
  unsafeToRestart : s.unsafeToRestart = false
  commands : s.commands = []
  quiet : s.polls.any hasWatchdog = false
  results : s.results = []
  reusedRuns : s.reusedRuns = []
  newRuns : s.newRuns = []

theorem unused_init (tree : OutputTree) : (State.init tree).Unused :=
  ⟨rfl, rfl, rfl, rfl, rfl, rfl, rfl⟩

section
variable [Documents] (env : Env) (s₀ : State)

/-- The script accepts its arguments and what is in the output directory. -/
structure Admissible (args : Args) (tree : OutputTree) : Prop where
  repeats : 3 ≤ args.repeats
  duration : 0 < args.duration
  interval : 0 < args.interval
  single : args.resume = true → args.reuseFrom = none
  reuse : ∀ earlier, args.reuseFrom = some earlier → samePlan (earlier .output) args.plan = .ok ()
  unmade : args.resume = false → tree .output = none
  resumes : args.resume = true → samePlan (tree .output) args.plan = .ok ()

theorem samePlan_iff {tree : OutputTree} {plan : List Item} :
    samePlan (tree .output) plan = .ok () ↔ ∃ bytes, tree.file .output .plan = some bytes ∧
      (Document.loads bytes : Option (List Item)) = some plan := by
  have hfile : tree.file .output .plan = ((tree .output).getD fun _ => none) .plan := by
    rw [Tree.file]
    cases tree .output <;> rfl
  rw [hfile, samePlan, readJson]
  cases ((tree .output).getD fun _ => none) .plan with
  | none => simp [bind, Except.bind]
  | some bytes =>
    cases hl : (Document.loads bytes : Option (List Item)) with
    | none => simp [bind, Except.bind, hl]
    | some saved =>
      by_cases hs : saved = plan <;> simp [bind, Except.bind, hl, hs]

omit [Documents] in
@[spec] theorem refuseIf_spec (p : Prop) [Decidable p] : ⦃fun s => ⌜s = s₀⌝⦄ refuseIf p
    ⦃post⟨fun _ s => ⌜¬ p ∧ s = s₀⌝, fun _ s => ⌜p ∧ s = s₀⌝⟩⦄ := by
  mvcgen [refuseIf] with grind

@[spec] theorem checkReuse_spec (args : Args) : ⦃fun s => ⌜s = s₀⌝⦄ checkReuse env args
    ⦃post⟨fun _ s => ⌜Filed s₀ s ∧ s.tree = s₀.tree ∧ ∀ earlier,
        args.reuseFrom = some earlier → samePlan (earlier .output) args.plan = .ok ()⌝,
      fun _ s => ⌜Filed s₀ s ∧ s.tree = s₀.tree ∧ (env.Interrupts ∨ ∃ earlier e,
        args.reuseFrom = some earlier ∧ samePlan (earlier .output) args.plan = .error e)⌝⟩⦄ := by
  mvcgen [checkReuse] with grind [Filed.refl]

@[spec] theorem checkOutput_spec (args : Args) : ⦃fun s => ⌜s = s₀⌝⦄ checkOutput env args
    ⦃post⟨fun _ s => ⌜Filed s₀ s ∧ s.tree = s₀.tree ∧
        (args.resume = false → s₀.tree .output = none) ∧
        (args.resume = true → samePlan (s₀.tree .output) args.plan = .ok ())⌝,
      fun _ s => ⌜Filed s₀ s ∧ s.tree = s₀.tree ∧ (env.Interrupts ∨
        args.resume = false ∧ (s₀.tree .output).isSome = true ∨
        args.resume = true ∧ samePlan (s₀.tree .output) args.plan ≠ .ok ())⌝⟩⦄ := by
  mvcgen [checkOutput]
  case vc1 s hs _ s₁ h₁ _ hresume s₂ h₂ _ s₃ h₃ _ s₄ h₄ _ s₅ =>
    subst hs
    obtain ⟨-, rfl⟩ := h₂
    obtain ⟨-, rfl⟩ := h₄
    rintro hsame rfl
    have ht : s₅.tree = s.tree := h₃.2.1.trans h₁.2.1
    refine ⟨h₁.1.trans h₃.1, ht, fun hx => ?_, fun _ => ht ▸ hsame⟩
    exact absurd (hresume.symm.trans hx) (by decide)
  case vc2 s hs _ s₁ h₁ _ hresume s₂ h₂ _ s₃ h₃ _ s₄ h₄ _ s₅ =>
    subst hs
    obtain ⟨-, rfl⟩ := h₂
    obtain ⟨-, rfl⟩ := h₄
    rintro ⟨e, he, -, rfl⟩
    have ht : s₅.tree = s.tree := h₃.2.1.trans h₁.2.1
    refine ⟨h₁.1.trans h₃.1, ht, .inr (.inr ⟨hresume, ?_⟩)⟩
    rw [← ht, he]
    exact fun h => by cases h
  case vc3 s hs _ s₁ h₁ _ hresume s₂ h₂ _ s₃ h₃ _ s₄ =>
    subst hs
    obtain ⟨-, rfl⟩ := h₂
    rintro rfl rfl
    refine ⟨h₁.1.trans h₃.1, h₃.2.1.trans h₁.2.1, .inr (.inr ⟨hresume, fun hok => ?_⟩)⟩
    obtain ⟨bytes, hf, -⟩ := samePlan_iff.mp hok
    rw [h₁.2.1, hf] at h₃
    cases h₃.2.2
  case vc4 s hs _ s₁ h₁ _ hresume s₂ h₂ _ s₃ =>
    subst hs
    obtain ⟨-, rfl⟩ := h₂
    exact fun h₃ ht hi => ⟨h₁.1.trans h₃, ht.trans h₁.2.1, .inl hi⟩
  case vc5 s hs found s₁ h₁ _ hresume s₂ h₂ =>
    subst hs
    obtain ⟨hno, rfl⟩ := h₂
    refine ⟨h₁.1, h₁.2.1, fun hx => ?_, fun hx => absurd hx hresume⟩
    rw [← Option.not_isSome_iff_eq_none, ← h₁.2.2]
    exact fun hf => hno ⟨hf, hx⟩
  case vc6 s hs found s₁ h₁ _ s₂ =>
    subst hs
    rintro rfl hresume rfl
    exact ⟨h₁.1, h₁.2.1, .inr (.inl ⟨hresume, h₁.2.2.symm⟩)⟩
  case vc7 s hs _ s₁ =>
    subst hs
    exact fun h ht hi => ⟨h, ht, .inl hi⟩

@[spec] theorem checkPlan_spec (args : Args) : ⦃fun s => ⌜s = s₀⌝⦄ checkPlan env args
    ⦃post⟨fun _ s => ⌜Filed s₀ s ∧ s.tree = s₀.tree ∧ Admissible args s₀.tree⌝,
      fun _ s => ⌜Filed s₀ s ∧ s.tree = s₀.tree ∧
        (Admissible args s₀.tree → env.Interrupts)⌝⟩⦄ := by
  mvcgen [checkPlan]
  case vc1 s hs _ s₁ h₁ _ s₂ h₂ _ s₃ h₃ _ s₄ =>
    subst hs
    obtain ⟨hvalid, rfl⟩ := h₁
    obtain ⟨hsingle, rfl⟩ := h₂
    intro h₄ ht hunmade hsame
    simp only [not_or, not_lt, not_le] at hvalid
    rw [h₃.2.1] at ht hunmade hsame
    refine ⟨h₃.1.trans h₄, ht, hvalid.1, Nat.pos_of_ne_zero hvalid.2.1, hvalid.2.2, fun hr => ?_,
      h₃.2.2, hunmade, hsame⟩
    exact Option.not_isSome_iff_eq_none.mp fun hx => hsingle ⟨hr, hx⟩
  case vc2 s hs _ s₁ h₁ _ s₂ h₂ _ s₃ h₃ _ s₄ =>
    subst hs
    obtain ⟨-, rfl⟩ := h₁
    obtain ⟨-, rfl⟩ := h₂
    intro h₄ ht hi
    rw [h₃.2.1] at ht hi
    refine ⟨h₃.1.trans h₄, ht, fun ha => ?_⟩
    obtain hi | ⟨hr, hsome⟩ | ⟨hr, hne⟩ := hi
    · exact hi
    · rw [ha.unmade hr] at hsome
      cases hsome
    · exact absurd (ha.resumes hr) hne
  case vc3 s hs _ s₁ h₁ _ s₂ h₂ _ s₃ =>
    subst hs
    obtain ⟨-, rfl⟩ := h₁
    obtain ⟨-, rfl⟩ := h₂
    intro h₃ ht hi
    refine ⟨h₃, ht, fun ha => hi.resolve_right ?_⟩
    rintro ⟨earlier, e, he, hne⟩
    rw [ha.reuse earlier he] at hne
    cases hne
  case vc4 s hs _ s₁ h₁ _ s₂ =>
    subst hs
    obtain ⟨-, rfl⟩ := h₁
    rintro hr hsome rfl
    refine ⟨Filed.refl _, rfl, fun ha => ?_⟩
    rw [ha.single hr] at hsome
    cases hsome
  case vc5 s hs _ s₁ =>
    subst hs
    rintro hbad rfl
    refine ⟨Filed.refl _, rfl, fun ha => ?_⟩
    obtain h | h | h := hbad
    · exact absurd ha.repeats (Nat.not_le_of_lt h)
    · exact absurd ha.duration (by rw [h]; exact Nat.lt_irrefl 0)
    · exact absurd ha.interval (not_lt_of_ge h)

/-- The system has been looked at, and nothing has been done to it. -/
structure Looked (s s' : State) : Prop where
  tree : s'.tree = s.tree
  kernel : s.kernel.isSome = true → s'.kernel.isSome = true
  unused : s.Unused → s'.Unused

section
variable {s s' s'' : State}

omit [Documents]

theorem Looked.trans (h : Looked s s') (h' : Looked s' s'') : Looked s s'' :=
  ⟨h'.tree.trans h.tree, fun hk => h'.kernel (h.kernel hk), fun hu => h'.unused (h.unused hu)⟩

theorem Logged.unused (h : Logged s s') (hf : s'.flags = s.flags) (hc : s'.commands = s.commands)
    (hu : s.Unused) : s'.Unused where
  seen := (seen_of_flags hf).trans hu.seen
  unsafeToRestart := (unsafe_of_flags hf).trans hu.unsafeToRestart
  commands := hc.trans hu.commands
  quiet := by
    obtain ⟨l, hl, hseen⟩ := h.polls
    rw [seen_of_flags hf, hu.seen, Bool.false_or] at hseen
    rw [hl, List.any_append, hu.quiet, ← hseen, Bool.false_or]
  results := h.results.trans hu.results
  reusedRuns := h.reusedRuns.trans hu.reusedRuns
  newRuns := h.newRuns.trans hu.newRuns

theorem Still.looked (h : Still s s') : Looked s s' :=
  ⟨h.tree, fun hk => h.kernel.trans hk, h.toLogged.unused h.flags h.commands⟩

theorem Filed.looked (h : Filed s s') (ht : s'.tree = s.tree) : Looked s s' := (h.still ht).looked

end

omit [Documents] in
@[spec] theorem openKernel_spec (args : Args) : ⦃fun s => ⌜s = s₀⌝⦄ openKernel env args
    ⦃post⟨fun _ s => ⌜Looked s₀ s ∧ (args.stabilityGates = true → s.kernel.isSome = true)⌝,
      fun _ s => ⌜Looked s₀ s ∧ env.AtFault s₀.tree⌝⟩⦄ := by
  mvcgen [openKernel]
  case vc1 => exact False.elim
  case vc2 _ s hs _ s₁ h₁ _ s₂ h₂ hnone _ s₃ =>
    subst hs
    rintro - rfl
    refine ⟨(h₁.1.trans h₂.1).looked (h₂.2.trans h₁.2), fun start quiet hh => ?_⟩
    have := hh.lastRow s₃
    rw [hnone] at this
    cases this
  case vc3 _ s hs _ s₁ h₁ _ s₂ h₂ row _ t =>
    subst hs
    have h : Looked s s₂ := (h₁.1.trans h₂.1).looked (h₂.2.trans h₁.2)
    exact ⟨⟨h.tree, fun _ => rfl, fun hu => { h.unused hu with seen := rfl, unsafeToRestart := rfl }⟩,
      fun _ => rfl⟩
  case vc4 _ s hs _ s₁ h₁ _ s₂ =>
    subst hs
    exact fun h₂ ht hi => ⟨(h₁.1.trans h₂).looked (ht.trans h₁.2), hi.atFault _⟩
  case vc5 _ s hs _ s₁ =>
    subst hs
    exact fun h ht hi => ⟨h.looked ht, hi.atFault _⟩
  case vc6 hno s hs =>
    subst hs
    exact ⟨(Filed.refl _).looked rfl, fun hx => absurd hx hno⟩

omit [Documents] in
@[spec] theorem acceptOriginal_spec (original : Sample) (state : StateRecord) :
    ⦃fun s => ⌜s = s₀⌝⦄ acceptOriginal original state
    ⦃post⟨fun _ s => ⌜s = s₀⌝, fun _ s => ⌜s = s₀ ∧
      ¬ ∃ actual, original.actualProfile = some actual ∧ actual ∈ knownProfiles⌝⟩⦄ := by
  mvcgen [acceptOriginal] with grind

omit [Documents] in
@[spec] theorem checkRuntime_spec (args : Args) : ⦃fun s => ⌜s = s₀⌝⦄ checkRuntime env args
    ⦃post⟨fun _ s => ⌜Looked s₀ s ∧ (args.stabilityGates = true → s.kernel.isSome = true)⌝,
      fun _ s => ⌜Looked s₀ s ∧ (s₀.Unused → env.AtFault s₀.tree)⌝⟩⦄ := by
  mvcgen [checkRuntime]
  case vc1 s hs _ s₁ h₁ _ s₂ h₂ _ s₃ h₃ _ s₄ h₄ _ s₅ h₅ state _ s₆ h₆ _ s₇ h₇ _ s₈ =>
    subst hs
    obtain ⟨-, rfl⟩ := h₆
    obtain ⟨-, rfl⟩ := h₇
    rintro rfl
    have h : Looked s₁ s₈ := ((h₂.1.looked.trans (h₃.1.looked h₃.2)).trans h₄.1.looked).trans
      (h₅.1.looked h₅.2)
    exact ⟨h₁.1.trans h, fun hg => h.kernel (h₁.2 hg)⟩
  case vc2 s hs _ s₁ h₁ _ s₂ h₂ _ s₃ h₃ _ s₄ h₄ _ s₅ h₅ state _ s₆ h₆ _ s₇ h₇ _ s₈ =>
    subst hs
    obtain ⟨-, rfl⟩ := h₆
    obtain ⟨-, rfl⟩ := h₇
    rintro rfl hunknown
    have h : Looked s s₄ := ((h₁.1.trans h₂.1.looked).trans (h₃.1.looked h₃.2)).trans h₄.1.looked
    refine ⟨h.trans (h₅.1.looked h₅.2), fun hu start quiet hh => absurd ?_ hunknown⟩
    rw [h₄.2.2]
    exact hh.known s₄ (h.unused hu).commands
  case vc3 s hs _ s₁ h₁ _ s₂ h₂ _ s₃ h₃ _ s₄ h₄ _ s₅ h₅ state _ s₆ h₆ _ s₇ =>
    subst hs
    obtain ⟨-, rfl⟩ := h₆
    rintro hbad rfl
    have h : Looked s s₄ := ((h₁.1.trans h₂.1.looked).trans (h₃.1.looked h₃.2)).trans h₄.1.looked
    exact ⟨h.trans (h₅.1.looked h₅.2), fun _ _ _ hh => absurd (hh.state _).2 hbad⟩
  case vc4 s hs _ s₁ h₁ _ s₂ h₂ _ s₃ h₃ _ s₄ h₄ _ s₅ h₅ state _ s₆ =>
    subst hs
    rintro hbad rfl
    have h : Looked s s₄ := ((h₁.1.trans h₂.1.looked).trans (h₃.1.looked h₃.2)).trans h₄.1.looked
    exact ⟨h.trans (h₅.1.looked h₅.2), fun _ _ _ hh => absurd (hh.state _).1 hbad⟩
  case vc5 s hs _ s₁ h₁ _ s₂ h₂ _ s₃ h₃ _ s₄ h₄ _ s₅ =>
    subst hs
    intro h₅ ht hi
    have h : Looked s s₄ := ((h₁.1.trans h₂.1.looked).trans (h₃.1.looked h₃.2)).trans h₄.1.looked
    exact ⟨h.trans (h₅.looked ht), fun _ => hi.atFault _⟩
  case vc6 s hs _ s₁ h₁ _ s₂ h₂ _ s₃ h₃ _ s₄ =>
    subst hs
    intro h₄ hi
    have h : Looked s s₃ := (h₁.1.trans h₂.1.looked).trans (h₃.1.looked h₃.2)
    exact ⟨h.trans h₄.looked, fun _ => hi.atFault _⟩
  case vc7 s hs _ s₁ h₁ _ s₂ h₂ _ s₃ =>
    subst hs
    exact fun h₃ ht hi => ⟨(h₁.1.trans h₂.1.looked).trans (h₃.looked ht), fun _ => hi.atFault _⟩
  case vc8 s hs _ s₁ h₁ _ s₂ =>
    subst hs
    exact fun h₂ hi => ⟨h₁.1.trans h₂.looked, fun _ => hi.atFault _⟩
  case vc9 s hs _ s₁ =>
    subst hs
    exact fun h hf => ⟨h, fun _ => hf⟩

section
variable {s s' : State} {fs : List File}

/-- The record of the failure is kept under another name. -/
theorem Filed.worked_rename (h : Filed s s') {f g : File}
    (ht : s'.tree = TreeStep.apply s.tree (.inside .output (.rename f g))) (hf : f ∉ fs)
    (hg : g ∉ fs) : Worked [] fs s s' := by
  have hother : ∀ d, d ≠ .output → s'.tree d = s.tree d := fun d hd => by
    rw [ht, TreeStep.apply, Function.update_of_ne hd]
  exact {
    toPolled := h.logged.toPolled
    elsewhere := fun d hd _ => hother d (ne_of_mem_of_not_mem List.mem_cons_self hd).symm
    output := fun ho => by rw [ht, TreeStep.apply, Function.update_self, Option.isSome_map, ho]
    files := fun n hn => by
      rw [ht, TreeStep.apply, Tree.file, Tree.file, Function.update_self]
      cases s.tree .output with
      | none => rfl
      | some files =>
        rw [Option.map_some, Option.bind_some, Option.bind_some, Step.apply,
          Function.update_of_ne (ne_of_mem_of_not_mem hn hf),
          Function.update_of_ne (ne_of_mem_of_not_mem hn hg)]
    leftRun := fun item hmem => absurd hmem List.not_mem_nil }

omit [Documents] in
theorem file_rename (tree : OutputTree) (f g : File) :
    (TreeStep.apply tree (.inside .output (.rename f g))).file .output f = none := by
  rw [TreeStep.apply, Tree.file, Function.update_self]
  cases tree .output with
  | none => rfl
  | some files => rw [Option.map_some, Option.bind_some, Step.apply, Function.update_self]

/-- The output directory is there. -/
theorem Filed.worked_output {resume : Bool} (h : Filed s s')
    (ht : (s.tree .output).isSome = true ∧ resume = true ∧ s'.tree = s.tree ∨
      s.tree .output = none ∧ s'.tree = TreeStep.apply s.tree (.mkdir .output)) :
    Worked [] markerFiles s s' ∧ (s'.tree .output).isSome = true ∧
      (resume = true ∨ s'.tree.file .output .failure = none) := by
  obtain ⟨ho, hr, ht⟩ | ⟨ho, ht⟩ := ht
  · exact ⟨(h.calm ht).worked _ _, by rw [ht, ho], .inl hr⟩
  · have hmade : s'.tree .output = some fun _ => none := by
      rw [ht, TreeStep.apply, Function.update_self]
    have hfile : ∀ f, s'.tree.file .output f = none := fun f => by
      rw [Tree.file, hmade, Option.bind_some]
    refine ⟨?_, by rw [hmade]; rfl, .inr (hfile _)⟩
    exact {
      toPolled := h.logged.toPolled
      elsewhere := fun d hd _ => by
        rw [ht, TreeStep.apply,
          Function.update_of_ne (ne_of_mem_of_not_mem List.mem_cons_self hd).symm]
      output := fun hx => by rw [ho] at hx; cases hx
      files := fun f _ => by rw [hfile, Tree.file, ho, Option.bind_none]
      leftRun := fun item hmem => absurd hmem List.not_mem_nil }

end

@[spec] theorem clearFailure_spec (args : Args) : ⦃fun s => ⌜s = s₀⌝⦄ clearFailure env args
    ⦃post⟨fun _ s => ⌜Filed s₀ s ∧ Worked [] [.plan, .completion] s₀ s ∧
        (args.resume = true ∨ s₀.tree.file .output .failure = none →
          s.tree.file .output .failure = none)⌝,
      fun _ s => ⌜Filed s₀ s ∧ Worked [] [.plan, .completion] s₀ s ∧ env.Interrupts⌝⟩⦄ := by
  mvcgen [clearFailure]
  case vc1 hresume s hs _ _ s₁ h₁ _ s₂ h₂ _ s₃ =>
    subst hs
    intro h₃ ht
    have hc : Calm s s₂ := (h₁.1.calm h₁.2.1).trans (h₂.1.calm h₂.2)
    refine ⟨(h₁.1.trans h₂.1).trans h₃, (hc.worked _ _).trans
      (h₃.worked_rename ht (by simp) (by simp)), fun _ => ?_⟩
    rw [ht, file_rename]
  case vc2 hresume s hs _ _ s₁ h₁ _ s₂ h₂ _ s₃ =>
    subst hs
    exact fun h₃ ht hi => ⟨(h₁.1.trans h₂.1).trans h₃, (((h₁.1.calm h₁.2.1).trans
      (h₂.1.calm h₂.2)).trans (h₃.calm ht)).worked _ _, hi⟩
  case vc3 hresume s hs _ _ s₁ h₁ _ s₂ =>
    subst hs
    exact fun h₂ ht hi => ⟨h₁.1.trans h₂, ((h₁.1.calm h₁.2.1).trans (h₂.calm ht)).worked _ _, hi⟩
  case vc4 hresume s hs _ hno s₁ h₁ =>
    subst hs
    refine ⟨h₁.1, (h₁.1.calm h₁.2.1).worked _ _, fun _ => ?_⟩
    rw [h₁.2.1, ← Option.not_isSome_iff_eq_none, ← h₁.2.2]
    exact hno
  case vc5 hresume s hs _ s₁ =>
    subst hs
    exact fun h ht hi => ⟨h, (h.calm ht).worked _ _, hi⟩
  case vc6 hresume s hs =>
    subst hs
    exact ⟨Filed.refl _, (Calm.refl _).worked _ _, fun h => h.resolve_left hresume⟩

@[spec] theorem startSession_spec (args : Args) : ⦃fun s => ⌜s = s₀⌝⦄ startSession env args
    ⦃post⟨fun _ s => ⌜Filed s₀ s ∧ Worked [] [.completion] s₀ s ∧
        (s.tree .output).isSome = true ∧
        s.tree.file .output .plan = some (written args.plan) ∧
        s.tree.file .output .failure = none⌝,
      fun _ s => ⌜Filed s₀ s ∧ Worked [] [.completion] s₀ s ∧
        (s.tree.file .output .plan = s₀.tree.file .output .plan ∨
          ∃ p, p <+: written args.plan ∧ s.tree.file .output .plan = some p) ∧
        ((args.resume = true ∨ s₀.tree .output = none) → env.Interrupts)⌝⟩⦄ := by
  mvcgen [startSession]
  case vc1 s hs _ s₁ h₁ _ s₂ h₂ _ s₃ h₃ _ s₄ h₄ timeNs _ s₅ h₅ =>
    subst hs
    obtain ⟨hw₁, ho₁, hfail⟩ := h₁.1.worked_output h₁.2
    have hw₃ : Worked [] [.completion] s₂ s₃ := h₃.1.worked (.inr ⟨_, h₃.2.1⟩) (by decide)
    have hw₅ : Worked [] [.plan, .completion, .failure] s₄ s₅ :=
      h₅.1.worked (.inr h₅.2.1) (session_notMem _)
    refine ⟨(((h₁.1.trans h₂.1).trans h₃.1).trans h₄.1).trans h₅.1, ?_, hw₅.output h₅.2.2, ?_, ?_⟩
    · exact ((((hw₁.mono (by decide)).trans (h₂.2.1.mono (by decide))).trans hw₃).trans
        ((h₄.1.calm h₄.2).worked _ _)).trans (hw₅.mono (by decide))
    · rw [hw₅.files _ (by decide), h₄.2, h₃.2.1, Tree.file_put_self h₃.2.2, written]
    · rw [hw₅.files _ (by decide), h₄.2, h₃.2.1, Tree.file_put_of_ne (.inr (by decide)), h₂.2.2 hfail]
  case vc2 s hs _ s₁ h₁ _ s₂ h₂ _ s₃ h₃ _ s₄ h₄ timeNs _ s₅ =>
    subst hs
    intro h₅ ht hi
    obtain ⟨hw₁, ho₁, -⟩ := h₁.1.worked_output h₁.2
    have hw₃ : Worked [] [.completion] s₂ s₃ := h₃.1.worked (.inr ⟨_, h₃.2.1⟩) (by decide)
    have hw₅ : Worked [] [.plan, .completion, .failure] s₄ s₅ := h₅.worked ht (session_notMem _)
    refine ⟨(((h₁.1.trans h₂.1).trans h₃.1).trans h₄.1).trans h₅, ?_, .inr ⟨_, List.prefix_rfl, ?_⟩,
      fun _ => hi.resolve_right ?_⟩
    · exact ((((hw₁.mono (by decide)).trans (h₂.2.1.mono (by decide))).trans hw₃).trans
        ((h₄.1.calm h₄.2).worked _ _)).trans (hw₅.mono (by decide))
    · rw [hw₅.files _ (by decide), h₄.2, h₃.2.1, Tree.file_put_self h₃.2.2, written]
    · rw [h₄.2, h₃.2.1, Tree.isSome_put, h₃.2.2]
      decide
  case vc3 s hs _ s₁ h₁ _ s₂ h₂ _ s₃ h₃ _ s₄ =>
    subst hs
    intro h₄ ht hi
    obtain ⟨hw₁, ho₁, -⟩ := h₁.1.worked_output h₁.2
    have hw₃ : Worked [] [.completion] s₂ s₃ := h₃.1.worked (.inr ⟨_, h₃.2.1⟩) (by decide)
    refine ⟨((h₁.1.trans h₂.1).trans h₃.1).trans h₄, ?_, .inr ⟨_, List.prefix_rfl, ?_⟩, fun _ => hi⟩
    · exact (((hw₁.mono (by decide)).trans (h₂.2.1.mono (by decide))).trans hw₃).trans
        ((h₄.calm ht).worked _ _)
    · rw [ht, h₃.2.1, Tree.file_put_self h₃.2.2, written]
  case vc4 s hs _ s₁ h₁ _ s₂ h₂ _ s₃ =>
    subst hs
    intro h₃ ht hi
    obtain ⟨hw₁, ho₁, -⟩ := h₁.1.worked_output h₁.2
    have hw₂ : Worked [] [.plan, .completion] s s₂ := (hw₁.mono (by decide)).trans h₂.2.1
    have hw₃ : Worked [] [.completion] s₂ s₃ :=
      h₃.worked (left_of_broken ht) (by decide)
    have ho₂ := h₂.2.1.output ho₁
    refine ⟨(h₁.1.trans h₂.1).trans h₃, (hw₂.mono (by decide)).trans hw₃, ?_,
      fun _ => hi.resolve_right ?_⟩
    · obtain ht | ⟨p, hp, ht⟩ := ht
      · exact .inl (by rw [ht, hw₂.files _ (by decide)])
      · exact .inr ⟨p, hp, by rw [ht, Tree.file_put_self ho₂]⟩
    · rw [ho₂]
      decide
  case vc5 s hs _ s₁ h₁ _ s₂ =>
    subst hs
    intro h₂ hw hi
    obtain ⟨hw₁, -, -⟩ := h₁.1.worked_output h₁.2
    have hw₂ : Worked [] [.plan, .completion] s s₂ := (hw₁.mono (by decide)).trans hw
    exact ⟨h₁.1.trans h₂, hw₂.mono (by decide), .inl (hw₂.files _ (by decide)), fun _ => hi⟩
  case vc6 s hs _ s₁ =>
    subst hs
    intro h₁ ht hi
    refine ⟨h₁, (h₁.calm ht).worked _ _, .inl (by rw [ht]), fun hok => hi.resolve_right ?_⟩
    rintro ⟨hsome, hr⟩
    obtain hok | hok := hok
    · rw [hr] at hok
      cases hok
    · rw [hok] at hsome
      cases hsome

@[spec] theorem openSession_spec (args : Args) : ⦃fun s => ⌜s = s₀⌝⦄ openSession env args
    ⦃post⟨fun _ s => ⌜Admissible args s₀.tree ∧ ∃ s₁, Looked s₀ s₁ ∧
        (args.stabilityGates = true → s₁.kernel.isSome = true) ∧ Filed s₁ s ∧
        Worked [] [.completion] s₁ s ∧ (s.tree .output).isSome = true ∧
        s.tree.file .output .plan = some (written args.plan) ∧
        s.tree.file .output .failure = none⌝,
      fun _ s => ⌜(∃ s₁, Looked s₀ s₁ ∧ Filed s₁ s ∧ Worked [] [.completion] s₁ s) ∧
        (s.tree.file .output .plan = s₀.tree.file .output .plan ∨
          ∃ p, p <+: written args.plan ∧ s.tree.file .output .plan = some p) ∧
        (s₀.Unused → Admissible args s₀.tree → env.AtFault s₀.tree)⌝⟩⦄ := by
  mvcgen [openSession]
  case vc1 s hs _ s₁ h₁ _ s₂ h₂ _ s₃ h₃ =>
    subst hs
    exact ⟨h₁.2.2, s₂, (h₁.1.looked h₁.2.1).trans h₂.1, h₂.2, h₃⟩
  case vc2 s hs _ s₁ h₁ _ s₂ h₂ _ s₃ =>
    subst hs
    intro h₃ hw hplan hi
    have hl : Looked s s₂ := (h₁.1.looked h₁.2.1).trans h₂.1
    refine ⟨⟨s₂, hl, h₃, hw⟩, hl.tree ▸ hplan, fun _ ha => (hi ?_).atFault _⟩
    cases hr : args.resume with
    | true => exact .inl rfl
    | false => exact .inr (by rw [hl.tree, ha.unmade hr])
  case vc3 s hs _ s₁ h₁ _ s₂ =>
    subst hs
    intro h₂ hf
    have hl : Looked s s₁ := h₁.1.looked h₁.2.1
    refine ⟨⟨s₂, hl.trans h₂, Filed.refl _, (Calm.refl _).worked _ _⟩,
      .inl (by rw [(hl.trans h₂).tree]), fun hu _ => ?_⟩
    exact hl.tree ▸ hf (hl.unused hu)
  case vc4 s hs _ s₁ =>
    subst hs
    intro h₁ ht hi
    exact ⟨⟨s₁, h₁.looked ht, Filed.refl _, (Calm.refl _).worked _ _⟩, .inl (by rw [ht]),
      fun _ ha => (hi ha).atFault _⟩

end

end CerynthOS.Bench
