import Mathlib.Data.List.Induction
import Mathlib.Tactic.Common

/-! What can be told from a history.

    A property of each event may look at the events before it. A flag that some events raise and
    others clear tells whoever looks at it about the past: it has been raised, and not cleared since. -/

variable {σ ε : Type*}

/-- Each event has the property, given what was before it. -/
def Each (P : List ε → ε → Prop) (events : List ε) : Prop :=
  ∀ before e after, events = before ++ e :: after → P before e

theorem each_nil {P : List ε → ε → Prop} : Each P [] :=
  fun before e after h => absurd h (by simp)

theorem each_concat {P : List ε → ε → Prop} {events : List ε} {e : ε} :
    Each P (events ++ [e]) ↔ Each P events ∧ P events e := by
  constructor
  · intro h
    refine ⟨fun before e' after hsplit => ?_, h events e [] rfl⟩
    exact h before e' (after ++ [e]) (by rw [hsplit, List.append_assoc, List.cons_append])
  · rintro ⟨h, hlast⟩ before e' after hsplit
    rcases List.eq_nil_or_concat after with rfl | ⟨after, e'', rfl⟩
    · obtain ⟨rfl, hsame⟩ := List.append_inj' hsplit rfl
      rwa [(List.cons.inj hsame).1] at hlast
    · rw [List.concat_eq_append, ← List.cons_append, ← List.append_assoc] at hsplit
      exact h before e' after (List.append_inj' hsplit rfl).1

theorem each_cons {P : List ε → ε → Prop} {events : List ε} {e : ε} :
    Each P (e :: events) ↔ P [] e ∧ Each (fun before => P (e :: before)) events := by
  constructor
  · intro h
    refine ⟨h [] e events rfl, fun before e' after hsplit => ?_⟩
    exact h (e :: before) e' after (by rw [hsplit, List.cons_append])
  · rintro ⟨hfirst, h⟩ (- | ⟨e'', before⟩) e' after hsplit
    · obtain ⟨rfl, -⟩ := List.cons.inj hsplit
      exact hfirst
    · obtain ⟨rfl, hrest⟩ := List.cons.inj hsplit
      exact h before e' after hrest

theorem each_singleton {P : List ε → ε → Prop} {e : ε} : Each P [e] ↔ P [] e := by
  rw [each_cons]
  exact and_iff_left each_nil

/-! ### Flags -/

variable (step : σ → ε → σ)

/-- No step of the run is one of these. -/
def Never (clears : σ → ε → Bool) (s : σ) (events : List ε) : Prop :=
  Each (fun before e => clears (before.foldl step s) e = false) events

/-- The flag was raised by some step and not cleared since. -/
def Raised (raises clears : σ → ε → Bool) (s : σ) (events : List ε) : Prop :=
  ∃ before e after, events = before ++ e :: after ∧ raises (before.foldl step s) e = true ∧
    Never step clears (before.foldl step s) (e :: after)

variable {step} {raises clears : σ → ε → Bool} {s : σ} {events : List ε} {e : ε}

theorem never_concat : Never step clears s (events ++ [e]) ↔
    Never step clears s events ∧ clears (events.foldl step s) e = false := each_concat

theorem never_singleton : Never step clears s [e] ↔ clears s e = false := each_singleton

theorem raised_nil : ¬ Raised step raises clears s [] := by
  rintro ⟨before, e, after, hsplit, -⟩
  exact List.cons_ne_nil e after (List.append_eq_nil_iff.mp hsplit.symm).2

theorem raised_concat : Raised step raises clears s (events ++ [e]) ↔
    clears (events.foldl step s) e = false ∧
    (Raised step raises clears s events ∨ raises (events.foldl step s) e = true) := by
  constructor
  · rintro ⟨before, e', after, hsplit, hraise, hnever⟩
    rcases List.eq_nil_or_concat after with rfl | ⟨after, e'', rfl⟩
    · obtain ⟨rfl, hsame⟩ := List.append_inj' hsplit rfl
      obtain ⟨rfl, -⟩ := List.cons.inj hsame
      exact ⟨hnever [] e [] rfl, .inr hraise⟩
    · rw [List.concat_eq_append] at hsplit hnever
      have hsplit' : events ++ [e] = before ++ e' :: after ++ [e''] := by
        rw [hsplit, List.append_assoc, List.cons_append]
      obtain ⟨rfl, hsame⟩ := List.append_inj' hsplit' rfl
      obtain ⟨rfl, -⟩ := List.cons.inj hsame
      rw [← List.cons_append, never_concat, ← List.foldl_append] at hnever
      exact ⟨hnever.2, .inl ⟨before, e', after, rfl, hraise, hnever.1⟩⟩
  · rintro ⟨hclear, ⟨before, e', after, rfl, hraise, hnever⟩ | hraise⟩
    · refine ⟨before, e', after ++ [e], by rw [List.append_assoc, List.cons_append], hraise, ?_⟩
      rw [← List.cons_append, never_concat, ← List.foldl_append]
      exact ⟨hnever, hclear⟩
    · exact ⟨events, e, [], rfl, hraise, never_singleton.mpr hclear⟩

/-- What the flag says, when a step that clears it does nothing else to it. -/
theorem flag_iff (flag : σ → Bool) {inv : σ → Prop} {allowed : ε → Prop}
    (hstep : ∀ s e, inv s → allowed e →
      flag (step s e) = (!clears s e && (flag s || raises s e)) ∧ inv (step s e))
    (hs : flag s = false) (hinv : inv s) (hallowed : ∀ e ∈ events, allowed e) :
    (flag (events.foldl step s) = true ↔ Raised step raises clears s events) ∧
      inv (events.foldl step s) := by
  induction events using List.reverseRecOn with
  | nil => exact ⟨⟨fun h => absurd h (by simp [hs]), fun h => absurd h raised_nil⟩, hinv⟩
  | append_singleton events e ih =>
    obtain ⟨hflag, hold⟩ := ih fun e' he' => hallowed e' (List.mem_append_left _ he')
    obtain ⟨hlast, hnew⟩ := hstep _ e hold (hallowed e (List.mem_append_right _ (by simp)))
    rw [List.foldl_append, List.foldl_cons, List.foldl_nil, hlast, raised_concat, ← hflag,
      Bool.and_eq_true, Bool.or_eq_true, Bool.not_eq_true']
    exact ⟨.rfl, hnew⟩
