import Mathlib

/-! Debouncing a stream of candidates with a dwell and a cooldown.

    The machine holds one accepted value. A candidate that differs from it is taken over only after
    `D` consecutive candidates agreed on it, and for the `C` candidates after a takeover nothing is
    counted at all. The counters (`count`, `cooldown`) are an implementation; what a debouncer is
    *for* is the `Law`, which speaks of the candidate stream `q` and the accepted stream `a` only:
    the value changes at `t` exactly when the last `D` candidates agree on a new value and the
    previous change is at least `C + D` candidates back. Candidates are numbered from 1; `a 0` is
    the value the machine starts with. -/

namespace Debounce

variable {α : Type*}

/-- What the machine remembers between two candidates. -/
structure State (α : Type*) where
  accepted : α
  pending : Option α
  count : ℕ
  cooldown : ℕ

/-- The machine before the first candidate. -/
def init (a₀ : α) : State α := ⟨a₀, none, 0, 0⟩

/-- One candidate: agreement and cooldown forget the pending value, anything else counts. -/
def step [DecidableEq α] (D C : ℕ) (s : State α) (q : α) : State α :=
  if q = s.accepted ∨ 0 < s.cooldown then ⟨s.accepted, none, 0, s.cooldown - 1⟩
  else
    let n := if s.pending = some q then s.count + 1 else 1
    if n < D then ⟨s.accepted, some q, n, 0⟩ else ⟨q, none, 0, C⟩

/-- The count that a candidate which is counted brings about. -/
def State.counted [DecidableEq α] (s : State α) (q : α) : ℕ :=
  if s.pending = some q then s.count + 1 else 1

/-- What one candidate can do: the pending value is forgotten, or counted, or taken over. -/
theorem step_cases [DecidableEq α] (D C : ℕ) (s : State α) (q : α) :
    ((q = s.accepted ∨ 0 < s.cooldown) ∧
      step D C s q = ⟨s.accepted, none, 0, s.cooldown - 1⟩) ∨
    (q ≠ s.accepted ∧ s.cooldown = 0 ∧ s.counted q < D ∧
      step D C s q = ⟨s.accepted, some q, s.counted q, 0⟩) ∨
    (q ≠ s.accepted ∧ s.cooldown = 0 ∧ D ≤ s.counted q ∧ step D C s q = ⟨q, none, 0, C⟩) := by
  rw [step]
  by_cases h : q = s.accepted ∨ 0 < s.cooldown
  · exact .inl ⟨h, if_pos h⟩
  · rw [if_neg h]
    obtain ⟨hq, hc⟩ := not_or.mp h
    by_cases hlt : s.counted q < D
    · exact .inr (.inl ⟨hq, by omega, hlt, if_pos hlt⟩)
    · exact .inr (.inr ⟨hq, by omega, by omega, if_neg hlt⟩)

/-- The state after the first `t` candidates. -/
def run [DecidableEq α] (D C : ℕ) (a₀ : α) (q : ℕ → α) : ℕ → State α
  | 0 => init a₀
  | t + 1 => step D C (run D C a₀ q t) (q (t + 1))

/-- The accepted value after the first `t` candidates. -/
def accepted [DecidableEq α] (D C : ℕ) (a₀ : α) (q : ℕ → α) (t : ℕ) : α :=
  (run D C a₀ q t).accepted

theorem accepted_zero [DecidableEq α] (D C : ℕ) (a₀ : α) (q : ℕ → α) :
    accepted D C a₀ q 0 = a₀ := rfl

/-! ### The law -/

/-- The accepted stream changes at candidate `t`. -/
def Changes (a : ℕ → α) (t : ℕ) : Prop := 1 ≤ t ∧ a t ≠ a (t - 1)

/-- `s` is the last change before `t`. -/
def PrevChange (a : ℕ → α) (s t : ℕ) : Prop :=
  Changes a s ∧ s < t ∧ ∀ u, s < u → u < t → ¬ Changes a u

/-- There are `D` candidates up to `t`, and the last `D` of them are equal. -/
def Steady (D : ℕ) (q : ℕ → α) (t : ℕ) : Prop := D ≤ t ∧ ∀ i < D, q (t - i) = q t

/-- The previous change, if there is one, is at least a cooldown and a dwell before `t`. -/
def Rested (D C : ℕ) (a : ℕ → α) (t : ℕ) : Prop := ∀ s, PrevChange a s t → s + C + D ≤ t

/-- The accepted stream `a` is the candidate stream `q` debounced. -/
structure Law (D C : ℕ) (q a : ℕ → α) : Prop where
  changes_iff : ∀ t, 1 ≤ t →
    (a t ≠ a (t - 1) ↔ q t ≠ a (t - 1) ∧ Steady D q t ∧ Rested D C a t)
  takes : ∀ t, 1 ≤ t → a t ≠ a (t - 1) → a t = q t

/-- After every change there is one before every later change that is the last one. -/
theorem exists_prevChange {a : ℕ → α} {s t : ℕ} (hs : Changes a s) (hst : s < t) :
    ∃ u, s ≤ u ∧ PrevChange a u t := by
  induction t with
  | zero => omega
  | succ t ih =>
    by_cases ht : Changes a t
    · exact ⟨t, by omega, ht, by omega, fun u h₁ h₂ => by omega⟩
    · have hlt : s < t := by
        rcases Nat.lt_succ_iff_lt_or_eq.mp hst with h | rfl
        · exact h
        · exact absurd hs ht
      obtain ⟨u, hsu, hu, hut, hlast⟩ := ih hlt
      refine ⟨u, hsu, hu, by omega, fun v h₁ h₂ => ?_⟩
      rcases Nat.lt_succ_iff_lt_or_eq.mp h₂ with h | rfl
      · exact hlast v h₁ h
      · exact ht

/-- Two changes are never closer than a cooldown and a dwell. -/
theorem Law.spaced {D C : ℕ} {q a : ℕ → α} (h : Law D C q a) {s t : ℕ} (hs : Changes a s)
    (ht : Changes a t) (hst : s < t) : s + C + D ≤ t := by
  obtain ⟨u, hsu, hu⟩ := exists_prevChange hs hst
  have := ((h.changes_iff t ht.1).mp ht.2).2.2 u hu
  omega

/-- A dwell of equal candidates outside the cooldown is enough to have their value accepted. -/
theorem Law.enough {D C : ℕ} {q a : ℕ → α} (h : Law D C q a) {t : ℕ} (ht : 1 ≤ t)
    (hq : Steady D q t) (hr : Rested D C a t) : a t = q t := by
  by_cases hc : a t = a (t - 1)
  · by_contra hne
    exact (h.changes_iff t ht).mpr ⟨fun he => hne (hc.trans he.symm), hq, hr⟩ hc
  · exact h.takes t ht hc

/-! ### The machine obeys the law -/

/-- How the counters after `t` candidates relate to the history: `r` is the last candidate of the
    cooldown that the last change started (0 when nothing has changed yet). -/
structure Inv (D C : ℕ) (q a : ℕ → α) (t : ℕ) (s : State α) (r : ℕ) : Prop where
  now : s.accepted = a t
  bound : ∀ u, u ≤ t → Changes a u → u + C ≤ r
  attained : r = 0 ∨ ∃ u, u ≤ t ∧ Changes a u ∧ u + C = r
  cooldown : s.cooldown = r - t
  idle : s.pending = none → t ≤ r ∨ q t = a t
  short : ∀ p, s.pending = some p → s.count < D
  window : ∀ p, s.pending = some p → r + s.count ≤ t ∧ ∀ i < s.count, q (t - i) = p
  maximal : ∀ p, s.pending = some p → r + s.count = t ∨ q (t - s.count) ≠ p
  last : ∀ p, s.pending = some p → p = q t

theorem inv_init (D C : ℕ) (a : ℕ → α) (q : ℕ → α) : Inv D C q a 0 (init (a 0)) 0 where
  now := rfl
  bound := fun u hu hc => by have := hc.1; omega
  attained := Or.inl rfl
  cooldown := rfl
  idle := fun _ => Or.inl le_rfl
  short := fun _ h => by simp [init] at h
  window := fun _ h => by simp [init] at h
  maximal := fun _ h => by simp [init] at h
  last := fun _ h => by simp [init] at h

/-- Under the invariant the distance to the previous change is the distance to `r`. -/
theorem Inv.rested_iff {D C : ℕ} {q a : ℕ → α} {t r : ℕ} {s : State α} (h : Inv D C q a t s r)
    (hD : D ≤ t + 1) : Rested D C a (t + 1) ↔ r + D ≤ t + 1 := by
  constructor
  · intro hr
    rcases h.attained with h0 | ⟨u, hut, hu, rfl⟩
    · omega
    · refine hr u ⟨hu, by omega, fun v h₁ h₂ hv => ?_⟩
      have := h.bound v (by omega) hv
      omega
  · rintro hr s ⟨hs, hst, -⟩
    have := h.bound s (by omega) hs
    omega

/-- A candidate that changes nothing keeps what the invariant says about past changes. -/
theorem Inv.keep {D C : ℕ} {q a : ℕ → α} {t r : ℕ} {s s' : State α} (h : Inv D C q a t s r)
    (hkeep : a (t + 1) = a t) (hacc : s'.accepted = s.accepted) (hcool : s'.cooldown = r - (t + 1))
    (hidle : s'.pending = none → t + 1 ≤ r ∨ q (t + 1) = a t)
    (hpend : ∀ p, s'.pending = some p → s'.count < D ∧ r + s'.count ≤ t + 1 ∧
      (∀ i < s'.count, q (t + 1 - i) = p) ∧ (r + s'.count = t + 1 ∨ q (t + 1 - s'.count) ≠ p) ∧
      p = q (t + 1)) : Inv D C q a (t + 1) s' r where
  now := by rw [hacc, h.now, hkeep]
  bound := by
    intro u hu hc
    rcases Nat.le_succ_iff.mp hu with hut | rfl
    · exact h.bound u hut hc
    · exact absurd hkeep (by simpa using hc.2)
  attained := by
    rcases h.attained with h | ⟨u, hut, hu, hr⟩
    · exact .inl h
    · exact .inr ⟨u, by omega, hu, hr⟩
  cooldown := hcool
  idle := fun hn => by rw [hkeep]; exact hidle hn
  short := fun p hp => (hpend p hp).1
  window := fun p hp => ⟨(hpend p hp).2.1, (hpend p hp).2.2.1⟩
  maximal := fun p hp => (hpend p hp).2.2.2.1
  last := fun p hp => (hpend p hp).2.2.2.2

variable [DecidableEq α]

/-- Counting the next candidate: the new count is the length of the run of candidates equal to it
    that ends here and started after `r`. -/
theorem Inv.counted {D C : ℕ} {q a : ℕ → α} {t r n : ℕ} {s : State α} (h : Inv D C q a t s r)
    (hne : q (t + 1) ≠ a t) (hrt : r ≤ t)
    (hn : n = if s.pending = some (q (t + 1)) then s.count + 1 else 1) :
    r + n ≤ t + 1 ∧ (∀ i < n, q (t + 1 - i) = q (t + 1)) ∧
      (r + n = t + 1 ∨ q (t + 1 - n) ≠ q (t + 1)) := by
  by_cases hp : s.pending = some (q (t + 1))
  · rw [if_pos hp] at hn
    subst hn
    obtain ⟨hle, hwin⟩ := h.window _ hp
    refine ⟨by omega, fun i hi => ?_, ?_⟩
    · rcases Nat.eq_zero_or_pos i with rfl | hpos
      · rfl
      · have := hwin (i - 1) (by omega)
        rwa [show t - (i - 1) = t + 1 - i by omega] at this
    · rcases h.maximal _ hp with hm | hm
      · exact Or.inl (by omega)
      · exact Or.inr (by rwa [show t + 1 - (s.count + 1) = t - s.count by omega])
  · rw [if_neg hp] at hn
    subst hn
    refine ⟨by omega, fun i hi => by rw [show i = 0 by omega]; rfl, ?_⟩
    simp only [Nat.add_sub_cancel]
    cases hpend : s.pending with
    | none =>
      rcases h.idle hpend with hr | hq
      · exact Or.inl (by omega)
      · exact Or.inr (by rw [hq]; exact fun he => hne he.symm)
    | some p =>
      refine Or.inr fun he => hp ?_
      rw [hpend, h.last p hpend, he]

/-- One candidate obeys the law and keeps the invariant. -/
theorem step_law {D C : ℕ} (hD : 1 ≤ D) {q a : ℕ → α} {t r : ℕ} {s : State α}
    (h : Inv D C q a t s r) (ha : a (t + 1) = (step D C s (q (t + 1))).accepted) :
    (a (t + 1) ≠ a t ↔ q (t + 1) ≠ a t ∧ Steady D q (t + 1) ∧ Rested D C a (t + 1)) ∧
    (a (t + 1) ≠ a t → a (t + 1) = q (t + 1)) ∧
    ∃ r', Inv D C q a (t + 1) (step D C s (q (t + 1))) r' := by
  unfold step at ha ⊢
  by_cases hc : q (t + 1) = s.accepted ∨ 0 < s.cooldown
  · rw [if_pos hc] at ha ⊢
    have hkeep : a (t + 1) = a t := ha.trans h.now
    refine ⟨⟨fun hne => absurd hkeep hne, ?_⟩, fun hne => absurd hkeep hne, r, ?_⟩
    · rintro ⟨hq, hsteady, hrest⟩
      rw [h.rested_iff hsteady.1] at hrest
      rcases hc with he | hpos
      · exact absurd (he.trans h.now) hq
      · have := h.cooldown
        omega
    · refine h.keep hkeep rfl ?_ ?_ (fun p hp => by simp at hp)
      · simp only [h.cooldown]; omega
      · rintro -
        rcases hc with he | hpos
        · exact Or.inr (he.trans h.now)
        · have := h.cooldown
          exact Or.inl (by omega)
  · rw [if_neg hc] at ha ⊢
    push Not at hc
    obtain ⟨hq, hcool⟩ := hc
    rw [h.now] at hq
    have hrt : r ≤ t := by have := h.cooldown; omega
    set n := if s.pending = some (q (t + 1)) then s.count + 1 else 1 with hn
    obtain ⟨hle, hwin, hmax⟩ := h.counted hq hrt hn
    simp only at ha ⊢
    by_cases hlt : n < D
    · rw [if_pos hlt] at ha ⊢
      have hkeep : a (t + 1) = a t := ha.trans h.now
      refine ⟨⟨fun hne => absurd hkeep hne, ?_⟩, fun hne => absurd hkeep hne, r, ?_⟩
      · rintro ⟨-, hsteady, hrest⟩
        rw [h.rested_iff hsteady.1] at hrest
        rcases hmax with hm | hm
        · omega
        · exact absurd (hsteady.2 n hlt) hm
      · refine h.keep hkeep rfl (by simp only; omega) (fun hp => by simp at hp) ?_
        rintro p hp
        obtain rfl : q (t + 1) = p := by simpa using hp
        exact ⟨hlt, hle, hwin, hmax, rfl⟩
    · rw [if_neg hlt] at ha ⊢
      have hdwell : D ≤ n := by omega
      have hchange : a (t + 1) ≠ a t := by rw [ha]; exact hq
      refine ⟨⟨fun _ => ⟨hq, ⟨by omega, fun i hi => hwin i (by omega)⟩, ?_⟩, fun _ => hchange⟩,
        fun _ => ha, t + 1 + C, ?_⟩
      · rw [h.rested_iff (by omega)]; omega
      · exact
          { now := ha.symm
            bound := fun u hu hcu => by
              rcases Nat.le_succ_iff.mp hu with hut | rfl
              · have := h.bound u hut hcu
                omega
              · exact le_rfl
            attained := Or.inr ⟨t + 1, le_rfl, ⟨by omega, by simpa using hchange⟩, rfl⟩
            cooldown := by simp
            idle := fun _ => Or.inr ha.symm
            short := fun p hp => by simp at hp
            window := fun p hp => by simp at hp
            maximal := fun p hp => by simp at hp
            last := fun p hp => by simp at hp }

theorem inv_run {D C : ℕ} (hD : 1 ≤ D) (a₀ : α) (q : ℕ → α) (t : ℕ) :
    ∃ r, Inv D C q (accepted D C a₀ q) t (run D C a₀ q t) r := by
  induction t with
  | zero => exact ⟨0, inv_init D C (accepted D C a₀ q) q⟩
  | succ t ih =>
    obtain ⟨r, hr⟩ := ih
    exact (step_law hD hr rfl).2.2

/-- The stream of accepted values is the candidate stream debounced. -/
theorem law_run {D C : ℕ} (hD : 1 ≤ D) (a₀ : α) (q : ℕ → α) :
    Law D C q (accepted D C a₀ q) := by
  have hstep : ∀ t, 1 ≤ t → ∃ r, Inv D C q (accepted D C a₀ q) (t - 1) (run D C a₀ q (t - 1)) r :=
    fun t _ => inv_run hD a₀ q (t - 1)
  constructor <;> intro t ht <;> obtain ⟨r, hr⟩ := hstep t ht <;> have h := step_law hD hr rfl <;>
    rw [Nat.sub_add_cancel ht] at h
  · exact h.1
  · exact h.2.1

/-! ### Two streams that debounce to the same -/

/-- Candidate `k` is the first with which `D` candidates agree on something else than `p`. -/
structure FirstRun (D : ℕ) (p : α) (q : ℕ → α) (k : ℕ) : Prop where
  steady : Steady D q k
  ne : q k ≠ p
  first : ∀ j < k, Steady D q j → q j = p

/-- The first `n` candidates of two streams, with the value `p` to start from: in neither of them
    `D` candidates ever agree on another value, or the first to do so are at the same place and
    equal, and behind the cooldown that starts there it is the same again. -/
inductive Agree (D C : ℕ) : α → (ℕ → α) → (ℕ → α) → ℕ → Prop where
  | quiet {p : α} {q q' : ℕ → α} {n : ℕ} :
    (∀ k ≤ n, Steady D q k → q k = p) → (∀ k ≤ n, Steady D q' k → q' k = p) → Agree D C p q q' n
  | change {p : α} {q q' : ℕ → α} {n k : ℕ} : k ≤ n → FirstRun D p q k → FirstRun D p q' k →
    q k = q' k → Agree D C (q k) (fun t => q (k + C + t)) (fun t => q' (k + C + t)) (n - (k + C)) →
    Agree D C p q q' n

section Agree
variable {D C : ℕ} {p r : α} {q q' : ℕ → α} {n k t : ℕ}

omit [DecidableEq α] in
theorem exists_firstRun (h : ¬ ∀ k ≤ n, Steady D q k → q k = p) : ∃ k ≤ n, FirstRun D p q k := by
  classical
  push Not at h
  obtain ⟨hn, hs, hne⟩ := Nat.find_spec h
  refine ⟨Nat.find h, hn, hs, hne, fun j hj hsj => ?_⟩
  by_contra hnej
  exact Nat.find_min h hj ⟨by omega, hsj, hnej⟩

theorem accepted_quiet (hD : 1 ≤ D) (h : ∀ k ≤ n, Steady D q k → q k = p) :
    ∀ t ≤ n, accepted D C p q t = p := by
  intro t ht
  induction t with
  | zero => rfl
  | succ t ih =>
    have hprev := ih (by omega)
    by_contra hne
    have hchange := (law_run (C := C) hD p q).changes_iff (t + 1) (by omega)
    rw [Nat.add_sub_cancel, hprev] at hchange
    obtain ⟨hq, hs, -⟩ := hchange.mp hne
    exact hq (h (t + 1) ht hs)

/-- A takeover starts the cooldown. -/
theorem step_takeover {s : State α} {x : α} (h : (step D C s x).accepted ≠ s.accepted) :
    step D C s x = ⟨x, none, 0, C⟩ := by
  unfold step at h ⊢
  by_cases hc : x = s.accepted ∨ 0 < s.cooldown
  · rw [if_pos hc] at h
    exact absurd rfl h
  · rw [if_neg hc] at h ⊢
    simp only at h ⊢
    by_cases hn : (if s.pending = some x then s.count + 1 else 1) < D
    · rw [if_pos hn] at h
      exact absurd rfl h
    · rw [if_neg hn]

theorem run_firstRun (hD : 1 ≤ D) (h : FirstRun D p q k) : run D C p q k = ⟨q k, none, 0, C⟩ := by
  obtain ⟨k, rfl⟩ := Nat.exists_eq_add_of_le' (hD.trans h.steady.1)
  have hbefore := accepted_quiet (C := C) hD fun j hj => h.first j (Nat.lt_succ_of_le hj)
  have hrested : Rested D C (accepted D C p q) (k + 1) := by
    rintro s ⟨⟨hs, hne⟩, hlt, -⟩
    rw [hbefore s (by omega), hbefore (s - 1) (by omega)] at hne
    exact absurd rfl hne
  have hk : accepted D C p q k = p := hbefore k le_rfl
  refine step_takeover (s := run D C p q k) ?_
  refine ((law_run hD p q).changes_iff (k + 1) (by omega)).mpr ⟨?_, h.steady, hrested⟩
  rw [Nat.add_sub_cancel, hk]
  exact h.ne

theorem run_cooldown (h : run D C p q k = ⟨r, none, 0, C⟩) :
    ∀ i ≤ C, run D C p q (k + i) = ⟨r, none, 0, C - i⟩ := by
  intro i hi
  induction i with
  | zero => exact h
  | succ i ih =>
    change step D C (run D C p q (k + i)) _ = _
    rw [ih (by omega), step, if_pos (.inr (Nat.sub_pos_of_lt hi)), Nat.sub_sub]

theorem run_restart {m : ℕ} (h : run D C p q m = init r) (t : ℕ) :
    run D C p q (m + t) = run D C r (fun i => q (m + i)) t := by
  induction t with
  | zero => exact h
  | succ t ih =>
    change step D C (run D C p q (m + t)) _ = step D C _ _
    rw [ih]
    rfl

/-- After the first takeover its value is kept for the cooldown, then the machine starts anew. -/
theorem accepted_firstRun (hD : 1 ≤ D) (h : FirstRun D p q k) :
    (∀ i ≤ C, accepted D C p q (k + i) = q k) ∧
      ∀ t, accepted D C p q (k + C + t) = accepted D C (q k) (fun i => q (k + C + i)) t := by
  have hcool := run_cooldown (run_firstRun (C := C) hD h)
  refine ⟨fun i hi => congrArg State.accepted (hcool i hi), fun t => ?_⟩
  have hinit : run D C p q (k + C) = init (q k) := by rw [hcool C le_rfl, Nat.sub_self]; rfl
  exact congrArg State.accepted (run_restart hinit t)

theorem Agree.accepted (hD : 1 ≤ D) (h : Agree D C p q q' n) :
    ∀ t ≤ n, accepted D C p q t = Debounce.accepted D C p q' t := by
  induction h with
  | quiet hq hq' =>
    intro t ht
    rw [accepted_quiet hD hq t ht, accepted_quiet hD hq' t ht]
  | @change p q q' n k hk h h' heq _ ih =>
    intro t ht
    obtain ⟨hhold, hlater⟩ := accepted_firstRun (C := C) hD h
    obtain ⟨hhold', hlater'⟩ := accepted_firstRun (C := C) hD h'
    rcases Nat.lt_or_ge t k with hlt | hge
    · rw [accepted_quiet hD (fun j hj => h.first j (by omega)) t (le_refl t),
        accepted_quiet hD (fun j hj => h'.first j (by omega)) t (le_refl t)]
    · obtain ⟨i, rfl⟩ := Nat.exists_eq_add_of_le hge
      rcases Nat.le_total i C with hi | hi
      · rw [hhold i hi, hhold' i hi, heq]
      · obtain ⟨j, rfl⟩ := Nat.exists_eq_add_of_le hi
        rw [← Nat.add_assoc, hlater, hlater', ih j (by omega), heq]

/-- A stream that debounces to the same as one with a first run has a first run up to there. -/
theorem FirstRun.le_of_accepted (hD : 1 ≤ D) (h : FirstRun D p q k)
    (heq : accepted D C p q k = accepted D C p q' k) : ∃ j ≤ k, FirstRun D p q' j := by
  refine exists_firstRun fun hquiet => h.ne ?_
  rw [← accepted_quiet (C := C) hD hquiet k le_rfl, ← heq]
  exact ((accepted_firstRun hD h).1 0 (Nat.zero_le C)).symm

omit [DecidableEq α] in
theorem FirstRun.unique {j : ℕ} (h : FirstRun D p q k) (h' : FirstRun D p q j) : j = k := by
  rcases Nat.lt_trichotomy j k with hlt | heq | hlt
  · exact absurd (h.first j hlt h'.steady) h'.ne
  · exact heq
  · exact absurd (h'.first k hlt h.steady) h.ne

theorem agree_of_accepted (hD : 1 ≤ D)
    (h : ∀ t ≤ n, accepted D C p q t = accepted D C p q' t) : Agree D C p q q' n := by
  induction n using Nat.strong_induction_on generalizing p q q' with
  | _ n ih =>
    by_cases hq : ∀ k ≤ n, Steady D q k → q k = p
    · by_cases hq' : ∀ k ≤ n, Steady D q' k → q' k = p
      · exact .quiet hq hq'
      · obtain ⟨k, hk, hrun⟩ := exists_firstRun hq'
        obtain ⟨j, hj, hrun'⟩ := hrun.le_of_accepted hD (h k hk).symm
        exact absurd (hq j (hj.trans hk) hrun'.steady) hrun'.ne
    · obtain ⟨k, hk, hrun⟩ := exists_firstRun hq
      obtain ⟨j, hj, hrun'⟩ := hrun.le_of_accepted hD (h k hk)
      obtain ⟨i, hi, hrun''⟩ := hrun'.le_of_accepted hD (h j (hj.trans hk)).symm
      have hik := hrun.unique hrun''
      obtain rfl : j = k := by omega
      obtain ⟨hhold, hlater⟩ := accepted_firstRun (C := C) hD hrun
      obtain ⟨hhold', hlater'⟩ := accepted_firstRun (C := C) hD hrun'
      have heq : q j = q' j :=
        (hhold 0 (Nat.zero_le C)).symm.trans ((h j hk).trans (hhold' 0 (Nat.zero_le C)))
      have hpos : 1 ≤ j := hD.trans hrun.steady.1
      refine .change hk hrun hrun' heq (ih (n - (j + C)) (by omega) fun t ht => ?_)
      rcases Nat.eq_zero_or_pos t with rfl | ht'
      · rfl
      · have := h (j + C + t) (by omega)
        rwa [hlater, hlater', ← heq] at this

/-- Two streams debounce to the same exactly when they agree. -/
theorem agree_iff (hD : 1 ≤ D) :
    Agree D C p q q' n ↔ ∀ t ≤ n, accepted D C p q t = accepted D C p q' t :=
  ⟨Agree.accepted hD, agree_of_accepted hD⟩

end Agree

end Debounce
