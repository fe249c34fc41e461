import Mathlib.Data.Nat.Basic
import Mathlib.Tactic.Common

/-! Progress that is paid for.

    A machine goes on as long as it likes, and some of its steps complete a round. When what is left
    to do drops by one with every round and never grows, it is done after as many rounds as there was
    work, whatever steps come between the rounds. -/

variable {σ ε : Type*} (step : σ → ε → σ)

/-- Allowed steps keep the invariant, and the rounds they complete take as much off the work. -/
def Pays (inv : σ → Prop) (allowed : ε → Prop) (left done : σ → ℕ) : Prop :=
  ∀ s e, inv s → allowed e → inv (step s e) ∧ done s ≤ done (step s e) ∧
    left (step s e) ≤ left s - (done (step s e) - done s)

variable {step} {inv : σ → Prop} {allowed : ε → Prop} {left done : σ → ℕ}

theorem Pays.run (h : Pays step inv allowed left done) {events : List ε} {s : σ} (hs : inv s)
    (hallowed : ∀ e ∈ events, allowed e) : inv (events.foldl step s) ∧
      done s ≤ done (events.foldl step s) ∧
      left (events.foldl step s) ≤ left s - (done (events.foldl step s) - done s) := by
  induction events generalizing s with
  | nil =>
    rw [List.foldl_nil, Nat.sub_self, Nat.sub_zero]
    exact ⟨hs, le_rfl, le_rfl⟩
  | cons e events ih =>
    obtain ⟨hinv, hdone, hleft⟩ := h s e hs (hallowed e List.mem_cons_self)
    obtain ⟨hlast, hrun, hrest⟩ := ih hinv fun e' he' => hallowed e' (List.mem_cons_of_mem _ he')
    refine ⟨hlast, Nat.le_trans hdone hrun, ?_⟩
    rw [List.foldl_cons]
    omega

/-- As many rounds as there was work leave no work. -/
theorem Pays.finished (h : Pays step inv allowed left done) {events : List ε} {s : σ} (hs : inv s)
    (hallowed : ∀ e ∈ events, allowed e) (hrounds : done s + left s ≤ done (events.foldl step s)) :
    left (events.foldl step s) = 0 := by
  have := (h.run hs hallowed).2.2
  omega
