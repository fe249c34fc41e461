import CerynthOS.Bench.Opening

/-! Runs of the whole script, and what a healthy system makes of them. -/

open Std.Do

set_option mvcgen.warning false

namespace CerynthOS.Bench
open Files Json Prog

/-- What a piece of the script leaves is what its specification says for either end. -/
theorem exec_of_spec {α : Type} {x : Script α} {s : State} {Q : α → State → Prop}
    {E : Stop → State → Prop}
    (h : ⦃fun t => ⌜t = s⌝⦄ x ⦃post⟨fun a t => ⌜Q a t⌝, fun e t => ⌜E e t⌝⟩⦄) :
    Ends Q E (x.exec s) := triple_iff.mp h s rfl

section
variable {α : Type}

theorem tryExcept_exec (body : Script α) (handler : PyError → Script α) (s : State) :
    (tryExcept body handler).exec s = match body.exec s with
      | (.ok a, s') => (.ok a, s')
      | (.error (.raised e), s') => (handler e).exec s'
      | (.error .killed, s') => (.error .killed, s') := by
  rw [tryExcept, exec_tryCatch]
  rcases body.exec s with ⟨(_ | _) | _, s'⟩ <;> rfl

theorem tryFinally_exec (body : Script α) (final : Script Unit) (s : State) :
    (tryFinally body final).exec s = match body.exec s with
      | (.ok a, s') => match final.exec s' with
        | (.ok _, s'') => (.ok a, s'')
        | (.error e, s'') => (.error e, s'')
      | (.error (.raised e), s') => match final.exec s' with
        | (.ok _, s'') => (.error (.raised e), s'')
        | (.error e', s'') => (.error e', s'')
      | (.error .killed, s') => (.error .killed, s') := by
  have hok {a : α} {s' : State} (h : body.exec s = (.ok a, s')) :
      (Except.ok <$> body : Script (Except Stop α)).exec s = (.ok (.ok a), s') :=
    exec_bind_ok h
  have herror {e : Stop} {s' : State} (h : body.exec s = (.error e, s')) :
      (Except.ok <$> body : Script (Except Stop α)).exec s = (.error e, s') :=
    exec_bind_error h
  rw [tryFinally, exec_bind, exec_tryCatch]
  rcases hb : body.exec s with ⟨(e | _) | a, s'⟩
  · rw [herror hb]
    change ((do final; raise e) : Script α).exec s' = _
    rw [exec_bind]
    simp only
    rcases final.exec s' with ⟨_ | _, s''⟩ <;> rfl
  · rw [herror hb]
    rfl
  · rw [hok hb]
    change ((do final; return a) : Script α).exec s' = _
    rw [exec_bind]
    simp only
    rcases final.exec s' with ⟨_ | _, s''⟩ <;> rfl

/-- Whatever the body does, unless the process is killed the final part comes last. -/
theorem tryFinally_last {body : Script α} {final : Script Unit} {s s' : State}
    {r : Except Stop α} (h : body.exec s = (r, s')) (hr : r ≠ .error .killed) :
    ((tryFinally body final).exec s).2 = (final.exec s').2 := by
  rw [tryFinally_exec, h]
  rcases r with (e | _) | a
  · dsimp only
    rcases final.exec s' with ⟨_ | _, s''⟩ <;> rfl
  · exact absurd rfl hr
  · dsimp only
    rcases final.exec s' with ⟨_ | _, s''⟩ <;> rfl

end

section
variable [Documents] {env : Env} {args : Args} {tree : OutputTree} {start : Control} {quiet : Prop}

/-- What the script starts the plan with, from the files in this tree. -/
structure Opened (args : Args) (tree : OutputTree) (s : State) : Prop where
  admissible : Admissible args tree
  unused : s.Unused
  kernel : args.stabilityGates = true → s.kernel.isSome = true
  output : (s.tree .output).isSome = true
  plan : s.tree.file .output .plan = some (written args.plan)
  failure : s.tree.file .output .failure = none
  completion : s.tree.file .output .completion = tree.file .output .completion
  untouched : ∀ (item : Item) d, item.Owns d → s.tree d = tree d

theorem opened_of_exec {opened : Original × ℕ} {s : State}
    (hx : (openSession env args).exec (.init tree) = (.ok opened, s)) : Opened args tree s := by
  obtain ⟨ha, s₀, hl, hk, hf, hw, ho, hp, hn⟩ :=
    (exec_of_spec (openSession_spec env (.init tree) args)).ok hx
  exact {
    admissible := ha
    unused := hf.logged.unused hf.flags hf.commands (hl.unused (unused_init tree))
    kernel := fun hg => hf.kernel ▸ hk hg
    output := ho
    plan := hp
    failure := hn
    completion := by rw [hw.files _ (by decide), hl.tree]; rfl
    untouched := fun item d hd => by
      rw [hw.untouched (fun _ hx => absurd hx List.not_mem_nil) hd, hl.tree]
      rfl }

/-- The script returns only from a plan that was completed. -/
theorem main_ok {s : State} (hx : (main env args).exec (.init tree) = (.ok (), s)) :
    ∃ original timeNs s₁ s₂, (openSession env args).exec (.init tree) = (.ok (original, timeNs), s₁) ∧
      (runPlan env args timeNs).exec s₁ = (.ok (), s₂) ∧
      (endSession env original).exec s₂ = (.ok (), s) := by
  rw [main, exec_bind] at hx
  rcases hopen : (openSession env args).exec (.init tree) with ⟨_ | ⟨original, timeNs⟩, s₁⟩
  · rw [hopen] at hx
    cases hx
  rw [hopen] at hx
  simp only [tryFinally_exec, tryExcept_exec] at hx
  rcases hrun : (runPlan env args timeNs).exec s₁ with ⟨(error | _) | _, s₂⟩
  · rw [hrun] at hx
    rcases hrec : (recordFailure env error).exec s₂ with ⟨(_ | _) | _, s₃⟩
    · rcases hend : (endSession env original).exec s₃ with ⟨_ | _, s₄⟩
      · simp only [hrec, hend] at hx
        cases hx
      · simp only [hrec, hend] at hx
        cases hx
    · simp only [hrec] at hx
      cases hx
    · exact ((exec_of_spec (recordFailure_spec env s₂ error)).ok hrec).elim
  · rw [hrun] at hx
    cases hx
  · rw [hrun] at hx
    rcases hend : (endSession env original).exec s₂ with ⟨_ | _, s₃⟩
    · simp only [hend] at hx
      cases hx
    · simp only [hend] at hx
      cases hx
      exact ⟨original, timeNs, s₁, s₂, rfl, hrun, hend⟩

theorem main_of_parts {original : Original} {timeNs : ℕ} {s₁ s₂ s : State}
    (hopen : (openSession env args).exec (.init tree) = (.ok (original, timeNs), s₁))
    (hrun : (runPlan env args timeNs).exec s₁ = (.ok (), s₂))
    (hend : (endSession env original).exec s₂ = (.ok (), s)) :
    (main env args).exec (.init tree) = (.ok (), s) := by
  rw [main, exec_bind, hopen]
  simp only [tryFinally_exec, tryExcept_exec, hrun, hend]

/-- A healthy system completes a plan that nothing stands in the way of. -/
theorem completes (hh : env.Healthy start quiet) (hq : quiet ∨ Incomplete tree)
    (ha : Admissible args tree) (hr : ∀ item ∈ args.plan, Ready env args tree item) :
    ∃ original timeNs s₁ s₂, (openSession env args).exec (.init tree) = (.ok (original, timeNs), s₁) ∧
      (runPlan env args timeNs).exec s₁ = (.ok (), s₂) := by
  rcases hopen : (openSession env args).exec (.init tree) with ⟨_ | ⟨original, timeNs⟩, s₁⟩
  · have hfault := ((exec_of_spec (openSession_spec env (.init tree) args)).error hopen).2.2
    exact (hfault (unused_init tree) ha start quiet hh hq).elim
  have ho := opened_of_exec hopen
  rcases hrun : (runPlan env args timeNs).exec s₁ with ⟨_ | _, s₂⟩
  · have hfault := ((exec_of_spec (runPlan_spec env s₁ args timeNs)).error hrun).2 ho.output
      ho.unused.results fun item hmem => (hr item hmem).congr fun d hd => ho.untouched item d hd
    refine (hfault start quiet hh (hq.imp_right fun hi => ?_)).elim
    rw [Incomplete, ho.completion]
    exact hi
  · exact ⟨original, timeNs, s₁, s₂, rfl, hrun⟩

end

end CerynthOS.Bench
