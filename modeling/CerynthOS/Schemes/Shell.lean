import CerynthOS.Schemes.Protocol

/-! Scripts of a shell.

    A script runs commands, looks at the status of some of them and sets variables; its log holds
    all that. Under `set -e` a command that fails ends the script, and so does a signal, at the end
    of the command that it interrupts. `onExit` is the trap for the end of the shell. The status of
    a command may depend on everything done before. -/

variable {κ ν σ : Type}

/-- What a script does: it runs a command, sets its variables, or begins to exit. -/
inductive Act (κ ν : Type) where
  | ran (command : κ) (status : ℕ)
  | sets (vars : ν)
  | exits (status : ℕ)

namespace Shell

/-- What a script runs in: the status of each command, and the status that the trap of a signal exits
    with, if a signal has come. -/
structure World (κ ν : Type) where
  status : κ → List (Act κ ν) → ℕ
  signal : List (Act κ ν) → Option ℕ+

/-- A script; its error is the status of the shell. -/
abbrev Script (κ ν α : Type) := Logging (Act κ ν) ℕ α

open Logging

/-- `trap ''` for all signals. -/
def World.ignoring (world : World κ ν) : World κ ν := { world with signal _ := none }

section
variable (world : World κ ν)

/-- The trap of a signal, if one has come. -/
def takeSignal : Script κ ν Unit := do
  match ← ask world.signal with
  | some status => throw (status : ℕ)
  | none => pure ()

/-- A command whose status is looked at. -/
def run (command : κ) : Script κ ν ℕ := do
  let status ← ask (world.status command)
  did (.ran command status)
  takeSignal world
  return status

/-- A command in a condition. -/
def test (command : κ) : Script κ ν Bool := do
  let status ← run world command
  return status == 0

/-- A command whose status does not matter. -/
def anyway (command : κ) : Script κ ν Unit := do
  let _ ← run world command

/-- What the status of a command means under `set -e`. -/
def leaveIf (status : ℕ) : Script κ ν Unit := if status = 0 then pure () else throw status

/-- A command under `set -e`. -/
def must (command : κ) : Script κ ν Unit := do
  leaveIf (← run world command)

/-- Commands under `set -e`, one after the other. -/
def mustAll : List κ → Script κ ν Unit
  | [] => pure ()
  | command :: commands => do
    must world command
    mustAll commands

/-- Commands with `|| return 1` after each. -/
def chain : List κ → Script κ ν Bool
  | [] => pure true
  | command :: commands => do
    if ← test world command then chain commands else return false

end

/-- Commands in a condition, of which the second runs if the first succeeds. -/
def both (x y : Script κ ν Bool) : Script κ ν Bool := do
  if ← x then y else return false

/-- A body that runs only if a condition holds. -/
def onlyIf (c : Bool) (x : Script κ ν Unit) : Script κ ν Unit := if c then x else pure ()

/-- `trap … EXIT`: at the end of the shell, whatever its status, the trap runs. -/
def onExit (body : Script κ ν Unit) (trap : ℕ → Script κ ν Unit) : Script κ ν Unit := do
  let status ← tryCatch (do body; return 0) fun status => pure status
  did (.exits status)
  trap status

/-! ### Rules -/

section
variable {P : Protocol (Act κ ν) σ} {world : World κ ν} {s t : σ} {command : κ} {α : Type}
  {E : ℕ → σ → Prop}

/-- No signal goes through, or all of them may. -/
def Allows (world : World κ ν) (E : ℕ → σ → Prop) (s : σ) : Prop :=
  ∀ log status, world.signal log = some status → E status s

theorem allows_ignoring : Allows world.ignoring E s := by
  rintro log status h
  cases h

theorem takeSignal_leads (hE : Allows world E s) :
    P.Leads s (takeSignal world) (fun _ t => s = t) E := by
  refine .bind (R := fun signal t => s = t ∧ ∀ status : ℕ+, signal = some status → E status s)
    (.ask fun log _ => ⟨rfl, hE log⟩) ?_
  rintro signal _ ⟨rfl, hsignal⟩
  cases signal with
  | none => exact .pure rfl
  | some status => exact .throw (hsignal status rfl)

theorem run_leads {f : ℕ → σ} (h : ∀ n, P.next s (.ran command n) = some (f n))
    (hE : ∀ n, Allows world E (f n)) :
    P.Leads s (run world command) (fun n t => f n = t) E := by
  refine .bind (R := fun _ t => s = t) (.ask fun _ _ => rfl) ?_
  rintro n _ rfl
  refine .bind (R := fun _ t => f n = t) (.did (h n) rfl) ?_
  rintro - _ rfl
  refine .bind (takeSignal_leads (hE n)) ?_
  rintro - _ rfl
  exact .pure rfl

theorem test_leads {f : ℕ → σ} (h : ∀ n, P.next s (.ran command n) = some (f n))
    (hE : ∀ n, Allows world E (f n)) :
    P.Leads s (test world command) (fun b t => ∃ n, f n = t ∧ b = (n == 0)) E := by
  refine .bind (run_leads h hE) ?_
  rintro n _ rfl
  exact .pure ⟨n, rfl, rfl⟩

theorem anyway_leads {f : ℕ → σ} (h : ∀ n, P.next s (.ran command n) = some (f n))
    (hE : ∀ n, Allows world E (f n)) :
    P.Leads s (anyway world command) (fun _ t => ∃ n, f n = t) E := by
  refine .bind (run_leads h hE) ?_
  rintro n _ rfl
  exact .pure ⟨n, rfl⟩

theorem leaveIf_leads {n : ℕ} (h : n ≠ 0 → E n s) :
    P.Leads s (leaveIf n) (fun _ t => s = t ∧ n = 0) E := by
  rw [leaveIf]
  split_ifs with hn
  · exact .pure ⟨rfl, hn⟩
  · exact .throw (h hn)

theorem must_leads {f : ℕ → σ} (h : ∀ n, P.next s (.ran command n) = some (f n))
    (hE : ∀ n, Allows world E (f n)) (hfails : ∀ n, n ≠ 0 → E n (f n)) :
    P.Leads s (must world command) (fun _ t => f 0 = t) E := by
  refine .bind (run_leads h hE) ?_
  rintro n _ rfl
  refine (leaveIf_leads (hfails n)).mono ?_ fun _ _ h => h
  rintro - _ ⟨rfl, rfl⟩
  rfl

section
variable {f : σ → κ → ℕ → σ} {I : σ → Prop} {commands : List κ}

/-- Each of the commands may run where `I` holds, and keeps it. -/
def Runs (P : Protocol (Act κ ν) σ) (f : σ → κ → ℕ → σ) (I : σ → Prop) (commands : List κ) : Prop :=
  ∀ t, I t → ∀ c ∈ commands, ∀ n, P.next t (.ran c n) = some (f t c n) ∧ I (f t c n)

theorem chain_leads (h : Runs P f I commands) (hE : ∀ t, I t → Allows world E t) (hs : I s) :
    P.Leads s (chain world commands)
      (fun b t => I t ∧ (b = true → commands.foldl (f · · 0) s = t)) E := by
  induction commands generalizing s with
  | nil => exact .pure ⟨hs, fun _ => rfl⟩
  | cons c commands ih =>
    have hc := h s hs c List.mem_cons_self
    refine .bind (test_leads (fun n => (hc n).1) fun n => hE _ (hc n).2) ?_
    rintro b _ ⟨n, rfl, rfl⟩
    by_cases hn : n = 0
    · subst hn
      exact ih (fun t ht d hd => h t ht d (List.mem_cons_of_mem c hd)) (hc 0).2
    · rw [if_neg (by simpa using hn)]
      exact .pure ⟨(hc n).2, fun h => absurd h (by simp)⟩

theorem mustAll_leads (h : Runs P f I commands) (hE : ∀ t, I t → Allows world E t)
    (hfails : ∀ n t, n ≠ 0 → E n t) (hs : I s) :
    P.Leads s (mustAll world commands)
      (fun _ t => I t ∧ commands.foldl (f · · 0) s = t) E := by
  induction commands generalizing s with
  | nil => exact .pure ⟨hs, rfl⟩
  | cons c commands ih =>
    have hc := h s hs c List.mem_cons_self
    refine .bind (must_leads (fun n => (hc n).1) (fun n => hE _ (hc n).2) fun n => hfails n _) ?_
    rintro - _ rfl
    exact ih (fun t ht d hd => h t ht d (List.mem_cons_of_mem c hd)) (hc 0).2

end

theorem both_leads {x y : Script κ ν Bool} {Q R : Bool → σ → Prop} (hx : P.Leads s x R E)
    (htrue : ∀ t, R true t → P.Leads t y Q E) (hfalse : ∀ t, R false t → Q false t) :
    P.Leads s (both x y) Q E := by
  refine .bind hx fun b t hb => ?_
  cases b with
  | false => exact .pure (hfalse t hb)
  | true => exact htrue t hb

theorem onlyIf_leads {c : Bool} {x : Script κ ν Unit} {Q : Unit → σ → Prop}
    (hx : c = true → P.Leads s x Q E) (hskip : c = false → Q () s) :
    P.Leads s (onlyIf c x) Q E := by
  cases c with
  | false => exact .pure (hskip rfl)
  | true => exact hx rfl

/-- The trap runs after a body that has come to its end, and after one that has not. -/
theorem onExit_leads {body : Script κ ν Unit} {trap : ℕ → Script κ ν Unit} {Q R : Unit → σ → Prop}
    {E' : ℕ → σ → Prop} (hbody : P.Leads s body R E) {f : ℕ → σ → σ}
    (hexits : ∀ n t, P.next t (.exits n) = some (f n t))
    (hend : ∀ t, R () t → P.Leads (f 0 t) (trap 0) Q E')
    (hleft : ∀ n t, E n t → P.Leads (f n t) (trap n) Q E') :
    P.Leads s (onExit body trap) Q E' := by
  refine .bind (R := fun n t => (n = 0 ∧ R () t) ∨ E n t) (.tryCatch (E := E) ?_ ?_) ?_
  · exact .bind hbody fun _ t ht => .pure (.inl ⟨rfl, ht⟩)
  · exact fun n t ht => .pure (.inr ht)
  · intro n t hn
    refine .bind (R := fun _ t' => f n t = t') (.did (hexits n t) rfl) ?_
    rintro - _ rfl
    rcases hn with ⟨rfl, ht⟩ | ht
    · exact hend t ht
    · exact hleft n t ht

end

end Shell
