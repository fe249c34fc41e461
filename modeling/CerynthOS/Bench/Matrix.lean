import CerynthOS.Bench.Plan

/-! The session around the loop: what it starts from, and how the plan is completed. -/

open Std.Do

set_option mvcgen.warning false

namespace CerynthOS.Bench
open Files Json

/-! ### The plan -/

theorem rotated_perm (r : ℕ) : (Args.rotated r).Perm MatrixProfile.all := by
  rw [Args.rotated]
  exact List.perm_append_comm.trans (.of_eq (List.take_append_drop _ _))

/-- Lists that are told apart by a key have nothing in common. -/
theorem nodup_flatMap_of_key {α β : Type} {l : List α} {f : α → List β} (key : β → Option α)
    (hl : l.Nodup) (hf : ∀ a ∈ l, (f a).Nodup) (hk : ∀ a ∈ l, ∀ b ∈ f a, key b = some a) :
    (l.flatMap f).Nodup := by
  refine List.nodup_flatMap.mpr ⟨hf, hl.imp_of_mem ?_⟩
  intro a a' ha ha' hne
  refine List.disjoint_left.mpr fun b hb hb' => hne ?_
  exact Option.some.inj ((hk a ha b hb).symm.trans (hk a' ha' b hb'))

/-- The repetition that a directory is for. -/
def Dir.repetition : Dir → Option ℕ
  | .run _ _ n => some n
  | _ => none

def Dir.workload : Dir → Option Workload
  | .run _ w _ => some w
  | _ => none

/-- Every item has a directory of its own. -/
theorem plan_nodup (args : Args) : (args.plan.map Item.dir).Nodup := by
  rw [Args.plan, List.map_flatMap]
  refine nodup_flatMap_of_key (fun d => d.repetition.map (· - 1)) List.nodup_range
    (fun r _ => ?_) (fun r _ d hd => ?_)
  · rw [List.map_flatMap]
    refine nodup_flatMap_of_key Dir.workload (by decide)
      (fun w _ => ?_) (fun w _ d hd => ?_)
    · rw [List.map_map, (rotated_perm _).map _ |>.nodup_iff]
      refine List.Nodup.map (fun p p' h => ?_) (by decide)
      cases h
      rfl
    · simp only [List.mem_map] at hd
      obtain ⟨_, ⟨p, -, rfl⟩, rfl⟩ := hd
      rfl
  · simp only [List.mem_map, List.mem_flatMap] at hd
    obtain ⟨_, ⟨w, -, p, -, rfl⟩, rfl⟩ := hd
    rfl

/-- Every combination is repeated as often as asked. -/
theorem plan_count (args : Args) (w : Workload) (p : MatrixProfile) :
    (args.plan.map Item.key).count (p, w) = args.repeats := by
  have honce : ∀ r, (((Workload.all.flatMap fun w => (Args.rotated (r + 1)).map fun p =>
      (⟨p, w, r + 1, args.duration⟩ : Item)).map Item.key).count (p, w)) = 1 := by
    intro r
    rw [List.map_flatMap, List.count_flatMap]
    have hperm : ∀ w' : Workload, (((Args.rotated (r + 1)).map fun p =>
        (⟨p, w', r + 1, args.duration⟩ : Item)).map Item.key).count (p, w) =
          (MatrixProfile.all.map fun p => (p, w')).count (p, w) := fun w' => by
      rw [List.map_map]
      exact ((rotated_perm _).map _).count_eq _
    simp only [Function.comp_def, hperm]
    cases w <;> cases p <;> rfl
  rw [Args.plan, List.map_flatMap, List.count_flatMap]
  simp [Function.comp_def, honce]

/-! ### The report -/

section
variable [Documents] (env : Env) (s₀ : State)

/-- The results have every combination often enough. -/
def Enough (repeats : ℕ) (results : List Summary) : Prop :=
  ∀ w p, repeats ≤ (results.map Summary.key).count (p, w)

omit [Documents] in
theorem countP_key (results : List Summary) (w : Workload) (p : MatrixProfile) :
    results.countP (fun r => r.workload == w && r.profile == p) =
      (results.map Summary.key).count (p, w) := by
  rw [List.count, List.countP_map]
  refine List.countP_congr fun r _ => ?_
  simp [Summary.key, and_comm]

theorem Filed.worked_summary {s s' : State} (h : Filed s s') {f : File}
    (ht : s'.tree = s.tree ∨ ∃ bytes, s'.tree = s.tree.put .summaries f bytes) :
    Worked [] markerFiles s s' := by
  refine h.worked_shared (by decide : .summaries ∈ sharedDirs) (by decide) fun e he => ?_
  obtain ht | ⟨bytes, ht⟩ := ht
  · rw [ht]
  · rw [ht, Tree.put_of_ne he]

/-- The loop of the report writes one file after another. -/
theorem aggregateAll_spec (repeats : ℕ) (rest : List (Workload × MatrixProfile)) :
    ⦃fun s => ⌜Worked [] markerFiles s₀ s ∧ Filed s₀ s ∧
      (s.tree .summaries).isSome = (s₀.tree .summaries).isSome⌝⦄ aggregateAll env repeats rest
    ⦃post⟨fun _ s => ⌜Worked [] markerFiles s₀ s ∧ Filed s₀ s⌝,
      fun _ s => ⌜Worked [] markerFiles s₀ s ∧ ((s₀.tree .summaries).isSome = true →
        Enough repeats s₀.results → env.Interrupts)⌝⟩⦄ := by
  induction rest with
  | nil =>
    mvcgen [aggregateAll]
    rename_i h
    exact ⟨h.1, h.2.1⟩
  | cons combination rest ih =>
    mvcgen [aggregateAll, ih]
    case vc3 s hs _ hfew _ s₁ =>
      rintro - rfl
      refine ⟨hs.1, fun _ henough => ?_⟩
      rw [hs.2.1.results, countP_key] at hfew
      exact absurd (henough _ _) (Nat.not_le_of_lt hfew)
    case vc4 s hs _ _ _ s₁ h₁ =>
      obtain ⟨bytes, ht⟩ := h₁.2.1
      exact ⟨hs.1.trans (h₁.1.worked_summary (.inr h₁.2.1)), hs.2.1.trans h₁.1,
        by rw [ht, Tree.isSome_put, hs.2.2]⟩
    case vc5 s hs _ _ _ s₁ =>
      intro h₁ ht hi
      refine ⟨hs.1.trans (h₁.worked_summary ht), fun hsome _ => hi.resolve_right ?_⟩
      rw [hs.2.2, hsome]
      decide

@[spec] theorem aggregate_spec (args : Args) : ⦃fun s => ⌜s = s₀⌝⦄ aggregate env args
    ⦃post⟨fun _ s => ⌜Worked [] markerFiles s₀ s ∧ Filed s₀ s⌝,
      fun _ s => ⌜Worked [] markerFiles s₀ s ∧ ((s₀.tree .output).isSome = true →
        Enough args.repeats s₀.results → env.Interrupts)⌝⟩⦄ := by
  have hall : ∀ s, ⦃fun t => ⌜t = s⌝⦄ aggregateAll env args.repeats combinations
      ⦃post⟨fun _ t => ⌜Worked [] markerFiles s t ∧ Filed s t⌝,
        fun _ t => ⌜Worked [] markerFiles s t ∧ ((s.tree .summaries).isSome = true →
          Enough args.repeats s.results → env.Interrupts)⌝⟩⦄ := fun s => by
    mvcgen [aggregateAll_spec]
    rename_i hs
    subst hs
    exact ⟨(Calm.refl _).worked _ _, Filed.refl _, rfl⟩
  mvcgen [aggregate, hall]
  case vc1 s hs _ s₁ _ s₂ h₂ _ s₃ h₁ =>
    subst hs
    intro h₃ ht _
    have hw := (h₁.1.worked_mkdir (by decide) (by decide) (h₁.2.imp (·.2.2) (·.2))).trans h₂.1
    exact ⟨hw.trans (h₃.worked (.inr ht) (by decide)), (h₁.1.trans h₂.2).trans h₃⟩
  case vc2 s hs _ s₁ _ s₂ h₂ _ s₃ h₁ =>
    subst hs
    intro h₃ ht hi
    have hw := (h₁.1.worked_mkdir (by decide) (by decide) (h₁.2.imp (·.2.2) (·.2))).trans h₂.1
    refine ⟨hw.trans (h₃.worked ht (by decide)), fun ho _ => hi.resolve_right ?_⟩
    rw [hw.output ho]
    decide
  case vc3 s hs _ s₁ _ s₂ h₁ =>
    subst hs
    intro hw' hf
    refine ⟨(h₁.1.worked_mkdir (by decide) (by decide) (h₁.2.imp (·.2.2) (·.2))).trans hw', ?_⟩
    intro _ henough
    refine hf ?_ (h₁.1.results ▸ henough)
    obtain ⟨hsome, -, ht⟩ | ⟨-, ht⟩ := h₁.2
    · rw [ht, hsome]
    · rw [ht, TreeStep.apply, Function.update_self]
      rfl
  case vc4 s hs _ s₁ =>
    subst hs
    intro h₁ ht hi
    refine ⟨(h₁.calm ht).worked _ _, fun _ _ => hi.resolve_right ?_⟩
    rintro ⟨-, ⟨⟩⟩

/-! ### The plan is completed -/

variable {env s₀} in
/-- What follows the loop does not change how the items were processed. -/
theorem Served.filed {args : Args} {items reused new : List Item} {s s' s'' : State}
    {fs : List File} (h : Served args items s s' reused new) (hf : Filed s' s'')
    (hw : Worked [] fs s' s'') : Served args items s s'' reused new :=
  { h with
    reusedRuns := hf.reusedRuns.trans h.reusedRuns
    newRuns := hf.newRuns.trans h.newRuns
    moved := fun hresume item hmem files hfiles => by
      obtain ⟨timeNs, ht⟩ := h.moved hresume item hmem files hfiles
      refine ⟨timeNs, (hw.untouched ?_ (.inr ⟨timeNs, rfl⟩)).trans ht⟩
      exact fun _ hx => absurd hx List.not_mem_nil
    results := by
      obtain ⟨l, hl, hk⟩ := h.results
      exact ⟨l, hf.results.trans hl, hk⟩ }

variable {env s₀} in
theorem Served.enough {args : Args} {s s' : State} {reused new : List Item}
    (h : Served args args.plan s s' reused new) (hs : s.results = []) :
    Enough args.repeats s'.results := by
  obtain ⟨l, hl, hk⟩ := h.results
  intro w p
  rw [hl, hs, List.nil_append, hk, plan_count]

@[spec] theorem processPlan_spec (args : Args) (timeNs : ℕ) : ⦃fun s => ⌜s = s₀⌝⦄
    processPlan env args timeNs args.plan
    ⦃post⟨fun _ s => ⌜Worked args.plan markerFiles s₀ s ∧ s.flags = s₀.flags ∧
        ∃ reused new, Served args args.plan s₀ s reused new⌝,
      fun _ s => ⌜Worked args.plan markerFiles s₀ s ∧ ((s₀.tree .output).isSome = true →
        (∀ item ∈ args.plan, Ready env args s₀.tree item) → env.AtFault s₀.tree)⌝⟩⦄ :=
  processPlan_of_nodup env s₀ args timeNs args.plan (plan_nodup args)

@[spec] theorem runPlan_spec (args : Args) (timeNs : ℕ) :
    ⦃fun s => ⌜s = s₀⌝⦄ runPlan env args timeNs
    ⦃post⟨fun _ s => ⌜Worked args.plan [.plan, .failure] s₀ s ∧ s.flags = s₀.flags ∧
        (∃ reused new, Served args args.plan s₀ s reused new) ∧ s.tree.file .output .completion =
          some (written (⟨"pass", s.results.length, "matrix"⟩ : Completion))⌝,
      fun _ s => ⌜Worked args.plan [.plan, .failure] s₀ s ∧ ((s₀.tree .output).isSome = true →
        s₀.results = [] → (∀ item ∈ args.plan, Ready env args s₀.tree item) →
        env.AtFault s₀.tree)⌝⟩⦄ := by
  mvcgen [runPlan]
  case vc1 s hs _ s₁ h₁ _ s₂ h₂ _ s₃ =>
    subst hs
    obtain ⟨hw, hf, reused, new, hserved⟩ := h₁
    intro h₃ ht ho
    have hw₂ := (hw.trans (h₂.1.of_nil _)).mono (by decide : [.plan, .failure] ⊆ markerFiles)
    have hw₃ : Worked [] [.plan, .failure] s₂ s₃ := h₃.worked (.inr ⟨_, ht⟩) (by decide)
    refine ⟨hw₂.trans (hw₃.of_nil _), ?_, ⟨reused, new, ?_⟩, ?_⟩
    · rw [h₃.flags, h₂.2.flags, hf]
    · exact (hserved.filed h₂.2 h₂.1).filed h₃ hw₃
    · rw [ht, Tree.file_put_self ho, h₃.results, written]
  case vc2 s hs _ s₁ h₁ _ s₂ h₂ _ s₃ =>
    subst hs
    obtain ⟨hw, -⟩ := h₁
    intro h₃ ht hi
    have hw₂ := (hw.trans (h₂.1.of_nil _)).mono (by decide : [.plan, .failure] ⊆ markerFiles)
    refine ⟨hw₂.trans (h₃.worked (left_of_broken ht) (by decide)), ?_⟩
    refine fun ho _ _ => (hi.resolve_right ?_).atFault _
    rw [hw₂.output ho]
    decide
  case vc3 s hs _ s₁ h₁ _ s₂ =>
    subst hs
    obtain ⟨hw, -, reused, new, hserved⟩ := h₁
    intro h₂ hi
    refine ⟨(hw.trans (h₂.of_nil _)).mono (by decide), fun ho hres _ => ?_⟩
    exact (hi (hw.output ho) (hserved.enough hres)).atFault _
  case vc4 s hs _ s₁ =>
    subst hs
    exact fun hw hf => ⟨hw.mono (by decide), fun ho _ hr => hf ho hr⟩

/-! ### The end of the session -/

omit [Documents] in
@[spec] theorem restoreProfile_spec (original : Original) :
    ⦃fun s => ⌜s = s₀⌝⦄ restoreProfile env original
    ⦃post⟨fun _ s => ⌜Calm s₀ s⌝, fun _ s => ⌜Calm s₀ s ∧ env.AtFault s₀.tree⌝⟩⦄ := by
  mvcgen [restoreProfile] with grind

@[spec] theorem collectKernelEvents_spec : ⦃fun s => ⌜s = s₀⌝⦄ collectKernelEvents env
    ⦃post⟨fun _ s => ⌜Worked [] markerFiles s₀ s ∧ Logged s₀ s ∧ s.seen = s₀.seen ∧
        (s₀.unsafeToRestart = true → s.unsafeToRestart = true) ∧
        ((∀ t, checkCleanStop (env.record t) (env.record t).pid = true) → s.flags = s₀.flags)⌝,
      fun _ s => ⌜Worked [] markerFiles s₀ s ∧ s.seen = s₀.seen ∧
        ((s₀.tree .output).isSome = true → env.Interrupts)⌝⟩⦄ := by
  mvcgen [collectKernelEvents]
  case vc1 s hs hk _ s₁ h₁ _ _ s₂ h₂ _ s₃ h₃ record hbad _ s₄ =>
    subst hs
    rintro h₄ rfl
    have hw := (h₁.1.worked (.inr h₁.2.1) (by decide)).trans
      (((h₂.1.toCalm.trans (h₃.1.calm h₃.2)).trans h₄).worked [] markerFiles)
    have hf : s₃.flags = s.flags := by rw [h₃.1.flags, h₂.1.flags, h₁.1.flags]
    have hl := ((h₁.1.logged.trans h₂.1.toLogged).trans h₃.1.logged).trans h₄.toLogged
    refine ⟨hw, hl, (seen_marked _).trans (seen_of_flags hf), fun _ => unsafe_marked ?_,
      fun hclean => ?_⟩
    · rw [h₃.1.kernel, h₂.1.kernel, h₁.1.kernel, hk]
    · rw [hclean] at hbad
      cases hbad
  case vc2 s hs hk _ s₁ h₁ _ _ s₂ h₂ _ s₃ h₃ record _ =>
    subst hs
    have hf : s₃.flags = s.flags := by rw [h₃.1.flags, h₂.1.flags, h₁.1.flags]
    exact ⟨(h₁.1.worked (.inr h₁.2.1) (by decide)).trans
      ((h₂.1.toCalm.trans (h₃.1.calm h₃.2)).worked _ _),
      (h₁.1.logged.trans h₂.1.toLogged).trans h₃.1.logged, seen_of_flags hf,
      fun hu => (unsafe_of_flags hf).trans hu, fun _ => hf⟩
  case vc3 s hs hk _ s₁ h₁ _ _ s₂ h₂ _ s₃ =>
    subst hs
    intro h₃ ht hi
    have hf : s₃.flags = s.flags := by rw [h₃.flags, h₂.1.flags, h₁.1.flags]
    exact ⟨(h₁.1.worked (.inr h₁.2.1) (by decide)).trans
      ((h₂.1.toCalm.trans (h₃.calm ht)).worked _ _), seen_of_flags hf, fun _ => hi⟩
  case vc4 s hs hk _ s₁ h₁ _ _ s₂ h₂ =>
    subst hs
    have hf : s₂.flags = s.flags := by rw [h₂.1.flags, h₁.1.flags]
    exact ⟨(h₁.1.worked (.inr h₁.2.1) (by decide)).trans (h₂.1.toCalm.worked _ _),
      h₁.1.logged.trans h₂.1.toLogged, seen_of_flags hf,
      fun hu => (unsafe_of_flags hf).trans hu, fun _ => hf⟩
  case vc5 s hs hk _ s₁ h₁ _ s₂ =>
    subst hs
    intro h₂ hi
    have hw : Worked [] markerFiles s s₁ := h₁.1.worked (.inr h₁.2.1) (by decide)
    exact ⟨hw.trans (h₂.toCalm.worked _ _), h₂.seen.trans h₁.1.seen, fun _ => hi⟩
  case vc6 s hs hk _ s₁ =>
    subst hs
    intro h₁ ht hi
    refine ⟨h₁.worked ht (by decide), h₁.seen, fun ho => hi.resolve_right ?_⟩
    rw [ho]
    decide
  case vc7 s hs _ =>
    subst hs
    exact ⟨(Calm.refl _).worked _ _, Logged.refl _, rfl, id, fun _ => rfl⟩

@[spec] theorem endSession_spec (original : Original) :
    ⦃fun s => ⌜s = s₀⌝⦄ endSession env original
    ⦃post⟨fun _ s => ⌜Worked [] markerFiles s₀ s ∧ Logged s₀ s ∧
        (s₀.unsafeToRestart = true → s.seen = s₀.seen)⌝,
      fun _ s => ⌜Worked [] markerFiles s₀ s ∧
        (s₀.unsafeToRestart = true → s.seen = s₀.seen) ∧
        ((s₀.tree .output).isSome = true → env.AtFault s₀.tree)⌝⟩⦄ := by
  mvcgen [endSession]
  case vc1 s hs _ s₁ h₁ _ =>
    subst hs
    exact ⟨h₁.1, h₁.2.1, fun _ => h₁.2.2.1⟩
  case vc2 s hs _ s₁ h₁ hheld _ s₂ =>
    subst hs
    exact fun h₂ => ⟨h₁.1.trans (h₂.worked _ _), h₁.2.1.trans h₂.toLogged,
      fun hu => absurd (h₁.2.2.2.1 hu) hheld⟩
  case vc3 s hs _ s₁ h₁ hheld _ s₂ =>
    subst hs
    exact fun h₂ hf => ⟨h₁.1.trans (h₂.worked _ _), fun hu => absurd (h₁.2.2.2.1 hu) hheld,
      fun _ => h₁.1.atFault (by decide) hf⟩
  case vc4 s hs _ s₁ =>
    subst hs
    exact fun hw hseen hi => ⟨hw, fun _ => hseen, fun ho => (hi ho).atFault _⟩

@[spec] theorem recordFailure_spec (error : PyError) :
    ⦃fun s => ⌜s = s₀⌝⦄ recordFailure env error
    ⦃post⟨fun _ _ => ⌜False⌝, fun _ s => ⌜Worked [] [.plan, .completion] s₀ s ∧
      s.seen = s₀.seen ∧ (s₀.kernel.isSome = true → s.unsafeToRestart = true)⌝⟩⦄ := by
  mvcgen [recordFailure]
  case vc1 => exact False.elim
  case vc2 s hs _ s₁ h₁ _ s₂ h₂ _ s₃ =>
    subst hs
    rintro - rfl
    obtain ⟨hc, rfl⟩ := h₁
    refine ⟨(hc.worked _ _).trans (h₂.1.worked (.inr h₂.2.1) (by decide)),
      h₂.1.seen.trans (seen_marked _), fun hk => ?_⟩
    rw [unsafe_of_flags h₂.1.flags, unsafe_marked hk]
  case vc3 s hs _ s₁ h₁ _ s₂ =>
    subst hs
    intro h₂ ht _
    obtain ⟨hc, rfl⟩ := h₁
    refine ⟨(hc.worked _ _).trans (h₂.worked ht (by decide)), h₂.seen.trans (seen_marked _), ?_⟩
    intro hk
    rw [unsafe_of_flags h₂.flags, unsafe_marked hk]

end

end CerynthOS.Bench
