import Mathlib

/-! Programs that change a state and may fail, and loops that poll.

    A program runs to an answer or an error, and either way to a state. What it does is stated as
    a triple; `triple_iff` says what a triple means for a run. `retry` is the loop of a poller: it
    repeats its body until that answers, as long as it has fuel. -/

open Std.Do

set_option mvcgen.warning false

/-- A program over a state that may fail. -/
abbrev Prog (σ ε α : Type) := ExceptT ε (StateM σ) α

namespace Prog
variable {σ ε α : Type} {x : Prog σ ε α} {P : σ → Prop} {Q : α → σ → Prop} {E : ε → σ → Prop}
  {s' s : σ} {a : α} {e : ε}

/-- The answer or the error of a run, and the state it leaves. -/
def exec (x : Prog σ ε α) (s : σ) : Except ε α × σ := x.run s

theorem exec_bind {β : Type} (x : Prog σ ε α) (f : α → Prog σ ε β) (s : σ) :
    (x >>= f).exec s = match x.exec s with
      | (.ok a, s') => (f a).exec s'
      | (.error e, s') => (.error e, s') := by
  change ExceptT.bindCont f (x.exec s).1 (x.exec s).2 = _
  rcases x.exec s with ⟨_ | _, s'⟩ <;> rfl

theorem exec_bind_ok {β : Type} {f : α → Prog σ ε β} (h : x.exec s = (.ok a, s')) :
    (x >>= f).exec s = (f a).exec s' := by rw [exec_bind, h]

theorem exec_bind_error {β : Type} {f : α → Prog σ ε β} (h : x.exec s = (.error e, s')) :
    (x >>= f).exec s = (.error e, s') := by rw [exec_bind, h]

theorem exec_tryCatch (x : Prog σ ε α) (f : ε → Prog σ ε α) (s : σ) :
    (tryCatch x f).exec s = match x.exec s with
      | (.ok a, s') => (.ok a, s')
      | (.error e, s') => (f e).exec s' := by
  change (ExceptT.tryCatch x f : StateM σ _) s = _
  rcases h : x.exec s with ⟨_ | _, s'⟩
  all_goals
    have h : x s = _ := h
    simp [ExceptT.tryCatch, ExceptT.mk, bind, StateT.bind, h, exec, ExceptT.run, pure, StateT.pure]

/-- What a run may leave, when it answers and when it fails. -/
def Ends (Q : α → σ → Prop) (E : ε → σ → Prop) : Except ε α × σ → Prop
  | (.ok a, s) => Q a s
  | (.error e, s) => E e s

theorem wp_iff (x : Prog σ ε α) (s : σ) :
    (wp⟦x⟧ post⟨fun a s => ⌜Q a s⌝, fun e s => ⌜E e s⌝⟩ s).down ↔ Ends Q E (x.exec s) := by
  let post : PostCond (Except ε α) (.arg σ .pure) := (fun r s => ⌜Ends Q E (r, s)⌝, PUnit.unit)
  have h : wp⟦x.run⟧ post = _ := WP.ExceptT_run x
  exact iff_of_eq (congrArg ULift.down (congrFun h.symm s))

theorem triple_iff :
    ⦃fun s => ⌜P s⌝⦄ x ⦃post⟨fun a s => ⌜Q a s⌝, fun e s => ⌜E e s⌝⟩⦄ ↔
      ∀ s, P s → Ends Q E (x.exec s) :=
  forall_congr' fun s => imp_congr Iff.rfl (wp_iff x s)

theorem Ends.ok (h : Ends Q E (x.exec s)) (hx : x.exec s = (.ok a, s')) : Q a s' := by
  rw [hx] at h
  exact h

theorem Ends.error (h : Ends Q E (x.exec s)) (hx : x.exec s = (.error e, s')) : E e s' := by
  rw [hx] at h
  exact h

/-- A program that keeps a property, whether it answers or fails. -/
theorem keeps_exec (h : ⦃fun s => ⌜P s⌝⦄ x ⦃post⟨fun _ s => ⌜P s⌝, fun _ s => ⌜P s⌝⟩⦄) (hs : P s) :
    P (x.exec s).2 := by
  have := triple_iff.mp h s hs
  rcases hx : x.exec s with ⟨_ | _, s'⟩
  · exact this.error hx
  · exact this.ok hx

/-! ### Scopes -/

/-- Runs a body and then, however it ends, what happens at the end of its scope. -/
def scope (drop : σ → σ) (body : Prog σ ε α) : Prog σ ε α :=
  ExceptT.mk fun s =>
    let (r, s) := body.exec s
    (r, drop s)

theorem exec_scope (drop : σ → σ) (body : Prog σ ε α) (s : σ) :
    (scope drop body).exec s = ((body.exec s).1, drop (body.exec s).2) := rfl

/-- The rule of a scope. -/
theorem scope_spec {drop : σ → σ} {body : Prog σ ε α}
    (h : ⦃fun s => ⌜P s⌝⦄ body
      ⦃post⟨fun a s => ⌜Q a (drop s)⌝, fun e s => ⌜E e (drop s)⌝⟩⦄) :
    ⦃fun s => ⌜P s⌝⦄ scope drop body ⦃post⟨fun a s => ⌜Q a s⌝, fun e s => ⌜E e s⌝⟩⦄ := by
  refine triple_iff.mpr fun s hs => ?_
  have hbody := triple_iff.mp h s hs
  rw [exec_scope]
  rcases hr : body.exec s with ⟨_ | _, s'⟩
  · exact hbody.error hr
  · exact hbody.ok hr

/-! ### Polling -/

/-- Repeats `body` until it answers, at most `n` times. -/
def retry (body : Prog σ ε (Option α)) : ℕ → Prog σ ε (Option α)
  | 0 => pure none
  | n + 1 => do
    match ← body with
    | some a => pure (some a)
    | none => retry body n

/-- The rule of a loop. `I n` holds with fuel for `n` rounds left; where `I 0` cannot hold the
    loop answers. -/
theorem retry_spec {body : Prog σ ε (Option α)} {I : ℕ → σ → Prop}
    (h : ∀ n, ⦃fun s => ⌜I (n + 1) s⌝⦄ body ⦃post⟨
      fun r s => ⌜(∀ a, r = some a → Q a s) ∧ (r = none → I n s)⌝, fun e s => ⌜E e s⌝⟩⦄) (n : ℕ) :
    ⦃fun s => ⌜I n s⌝⦄ retry body n ⦃post⟨
      fun r s => ⌜(∀ a, r = some a → Q a s) ∧ (r = none → I 0 s)⌝, fun e s => ⌜E e s⌝⟩⦄ := by
  induction n with
  | zero =>
    mvcgen [retry]
    grind
  | succ n ih =>
    mvcgen [retry, h, ih]
    all_goals grind

/-- What every round keeps the loop keeps. -/
theorem retry_keeps {body : Prog σ ε (Option α)}
    (h : ⦃fun s => ⌜P s⌝⦄ body ⦃post⟨fun _ s => ⌜P s⌝, fun _ s => ⌜P s⌝⟩⦄) (n : ℕ) :
    ⦃fun s => ⌜P s⌝⦄ retry body n ⦃post⟨fun _ s => ⌜P s⌝, fun _ s => ⌜P s⌝⟩⦄ := by
  induction n with
  | zero => mvcgen [retry]
  | succ n ih => mvcgen [retry, h, ih]

end Prog
