import CerynthOS.Schemes.Program

/-! Scripts that keep a log, and protocols that the log follows.

    A protocol says in which stage which deed is allowed, and which stage follows. A script leads
    from one stage to others; the rules follow its structure. A script that is broken off has still
    done nothing that is not allowed. -/

open Prog

variable {δ σ ε α β : Type}

/-- A program whose state is the log of what it has done. -/
abbrev Logging (δ ε α : Type) := Prog (List δ) ε α

namespace Logging

def did (d : δ) : Logging δ ε Unit := modify (· ++ [d])

/-- What the surroundings answer may depend on everything done so far. -/
def ask (answer : List δ → α) : Logging δ ε α := do return answer (← get)

theorem exec_did (d : δ) (log : List δ) :
    (did d : Logging δ ε Unit).exec log = (.ok (), log ++ [d]) := rfl

end Logging

/-- An automaton over deeds; a deed with no next stage is not allowed. -/
structure Protocol (δ σ : Type) where
  start : σ
  next : σ → δ → Option σ

namespace Protocol

variable (P : Protocol δ σ)

/-- The stage that a log leads to, if all its deeds are allowed. -/
def after (log : List δ) : Option σ := log.foldlM P.next P.start

theorem after_concat (log : List δ) (d : δ) :
    P.after (log ++ [d]) = (P.after log).bind (P.next · d) := by
  rw [after, after, List.foldlM_append]
  cases log.foldlM P.next P.start <;> simp

/-- What every allowed deed keeps holds after every allowed log. -/
theorem after_induction {I : σ → List δ → Prop} (hstart : I P.start [])
    (hnext : ∀ s log d s', I s log → P.next s d = some s' → I s' (log ++ [d])) {log : List δ} {s : σ}
    (h : P.after log = some s) : I s log := by
  induction log using List.reverseRecOn generalizing s with
  | nil =>
    obtain rfl : P.start = s := Option.some.inj h
    exact hstart
  | append_singleton log d ih =>
    rw [after_concat] at h
    obtain ⟨t, hlog, hd⟩ := Option.bind_eq_some_iff.mp h
    exact hnext t log d s (ih hlog) hd

/-- Every deed was allowed where it was done. -/
theorem allowed {log more : List δ} {d : δ} {s : σ} (h : P.after (log ++ d :: more) = some s) :
    ∃ t t', P.after log = some t ∧ P.next t d = some t' := by
  rw [after, List.foldlM_append] at h
  obtain ⟨t, hlog, hmore⟩ := Option.bind_eq_some_iff.mp h
  rw [List.foldlM_cons] at hmore
  obtain ⟨t', hd, -⟩ := Option.bind_eq_some_iff.mp hmore
  exact ⟨t, t', hlog, hd⟩

/-! ### Guards -/

/-- The protocol of a history that every deed is added to, where a guard says what is allowed. -/
noncomputable def guarded (start : σ) (add : σ → δ → σ) (allows : σ → δ → Prop) : Protocol δ σ where
  start := start
  next s d := open Classical in if allows s d then some (add s d) else none

section
variable {start : σ} {add : σ → δ → σ} {allows : σ → δ → Prop}

theorem guarded_next {s : σ} {d : δ} (h : allows s d) :
    (guarded start add allows).next s d = some (add s d) := if_pos h

theorem guarded_next_iff {s t : σ} {d : δ} :
    (guarded start add allows).next s d = some t ↔ allows s d ∧ add s d = t := by
  simp [guarded]

theorem guarded_after {log : List δ} {s : σ} (h : (guarded start add allows).after log = some s) :
    log.foldl add start = s := by
  refine after_induction _ (I := fun s log => log.foldl add start = s) rfl ?_ h
  rintro s log d t rfl hnext
  rw [List.foldl_concat]
  exact (guarded_next_iff.mp hnext).2

end

/-! ### Scripts -/

/-- From this stage the script does what is allowed; it ends in a stage where `Q` holds of its
    answer, or `E` of its error. -/
def Leads (s : σ) (x : Logging δ ε α) (Q : α → σ → Prop) (E : ε → σ → Prop) : Prop :=
  ∀ log, P.after log = some s → Ends (fun a log => ∃ t, P.after log = some t ∧ Q a t)
    (fun e log => ∃ t, P.after log = some t ∧ E e t) (x.exec log)

namespace Leads

variable {P} {s : σ} {x : Logging δ ε α} {Q R : α → σ → Prop} {E : ε → σ → Prop}

theorem pure {a : α} (h : Q a s) : P.Leads s (pure a) Q E :=
  fun _ hlog => ⟨s, hlog, h⟩

theorem throw {e : ε} (h : E e s) : P.Leads s (throw e) Q E :=
  fun _ hlog => ⟨s, hlog, h⟩

theorem did {d : δ} {t : σ} {Q : Unit → σ → Prop} (hd : P.next s d = some t) (h : Q () t) :
    P.Leads s (Logging.did d) Q E := by
  intro log hlog
  rw [Logging.exec_did]
  refine ⟨t, ?_, h⟩
  rw [after_concat, hlog]
  exact hd

theorem ask {answer : List δ → α} (h : ∀ log, P.after log = some s → Q (answer log) s) :
    P.Leads s (Logging.ask answer) Q E :=
  fun log hlog => ⟨s, hlog, h log hlog⟩

theorem bind {f : α → Logging δ ε β} {Q : β → σ → Prop} (hx : P.Leads s x R E)
    (hf : ∀ a t, R a t → P.Leads t (f a) Q E) : P.Leads s (x >>= f) Q E := by
  intro log hlog
  have hends := hx log hlog
  rw [exec_bind]
  rcases hrun : x.exec log with ⟨_ | a, log'⟩
  · exact hends.error hrun
  · obtain ⟨t, hlog', ha⟩ := hends.ok hrun
    exact hf a t ha log' hlog'

theorem tryCatch {f : ε → Logging δ ε α} {E' : ε → σ → Prop} (hx : P.Leads s x Q E)
    (hf : ∀ e t, E e t → P.Leads t (f e) Q E') : P.Leads s (tryCatch x f) Q E' := by
  intro log hlog
  have hends := hx log hlog
  rw [exec_tryCatch]
  rcases hrun : x.exec log with ⟨e | a, log'⟩
  · obtain ⟨t, hlog', he⟩ := hends.error hrun
    exact hf e t he log' hlog'
  · exact hends.ok hrun

theorem mono (h : P.Leads s x R E) {E' : ε → σ → Prop} (hQ : ∀ a t, R a t → Q a t)
    (hE : ∀ e t, E e t → E' e t) : P.Leads s x Q E' := by
  intro log hlog
  have hends := h log hlog
  rcases hrun : x.exec log with ⟨e | a, log'⟩
  · obtain ⟨t, hlog', he⟩ := hends.error hrun
    exact ⟨t, hlog', hE e t he⟩
  · obtain ⟨t, hlog', ha⟩ := hends.ok hrun
    exact ⟨t, hlog', hQ a t ha⟩

theorem imp (h : P.Leads s x R E) (hQ : ∀ a t, R a t → Q a t) : P.Leads s x Q E :=
  h.mono hQ fun _ _ he => he

/-- Both ways to go on are fine. -/
theorem ite {c : Prop} [Decidable c] {y : Logging δ ε α} (hx : c → P.Leads s x Q E)
    (hy : ¬ c → P.Leads s y Q E) : P.Leads s (if c then x else y) Q E := by
  split_ifs with h
  · exact hx h
  · exact hy h

/-- What holds in every stage that an allowed log leads to may be assumed. -/
theorem assume {I : σ → Prop} (hI : ∀ log t, P.after log = some t → I t)
    (h : I s → P.Leads s x Q E) : P.Leads s x Q E :=
  fun log hlog => h (hI log s hlog) log hlog

/-- The rule of a loop that polls. -/
theorem retry {body : Logging δ ε (Option α)} {I : σ → Prop} {Q : Option α → σ → Prop}
    (hbody : ∀ t, I t → P.Leads t body
      (fun r t' => (∀ a, r = some a → Q (some a) t') ∧ (r = none → I t')) E)
    (hnone : ∀ t, I t → Q none t) (n : ℕ) {s : σ} (hs : I s) : P.Leads s (retry body n) Q E := by
  induction n generalizing s with
  | zero => exact .pure (hnone s hs)
  | succ n ih =>
    refine .bind (hbody s hs) fun r t hr => ?_
    cases r with
    | none => exact ih (hr.2 rfl)
    | some a => exact .pure (hr.1 a rfl)

/-- A whole run leaves a log that is allowed. -/
theorem run (h : P.Leads P.start x Q E) : ∃ t, P.after (x.exec []).2 = some t := by
  have hends := h [] rfl
  rcases hrun : x.exec [] with ⟨e | a, log⟩
  · obtain ⟨t, hlog, -⟩ := hends.error hrun
    exact ⟨t, hlog⟩
  · obtain ⟨t, hlog, -⟩ := hends.ok hrun
    exact ⟨t, hlog⟩

end Leads

end Protocol
