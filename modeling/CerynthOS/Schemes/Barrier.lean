import Mathlib.Data.Fintype.Card
import Mathlib.Data.Finset.Card
import Mathlib.Tactic.Common

/-! A barrier that a fixed number of parties pass together.

    A party that arrives waits until all have; then they leave one by one, and none can arrive again
    before the last has left. A timeout or an abort breaks the barrier: whoever waits or arrives
    later is turned away. Whatever happens, nobody leaves for the `n`-th time before everybody has arrived
    `n` times. -/

variable {α : Type*}

inductive BarrierMode where
  | filling
  | draining
  | broken
  deriving DecidableEq

/-- What comes of a call. -/
inductive Passage where
  | blocked
  | waits
  | passes
  | raises
  deriving DecidableEq

/-- How often the party arrives with it. -/
def Passage.arrivals : Passage → ℕ
  | .waits => 1
  | .passes => 1
  | _ => 0

/-- How often the party leaves with it. -/
def Passage.departures : Passage → ℕ
  | .passes => 1
  | _ => 0

/-- Where a call leads. -/
def Passage.lead {β : Type*} (here inside behind away : β) : Passage → β
  | .blocked => here
  | .waits => inside
  | .passes => behind
  | .raises => away

/-- How often a party has arrived and left, in each mode. -/
structure BarrierCounts [DecidableEq α] (mode : BarrierMode) (inside : Finset α) (trips : ℕ)
    (entered left : α → ℕ) : Prop where
  filling : mode = .filling → ∀ p, left p = trips ∧
    entered p = trips + if p ∈ inside then 1 else 0
  draining : mode = .draining → ∀ p, entered p = trips ∧
    left p + (if p ∈ inside then 1 else 0) = trips
  around : ∀ p, left p ≤ trips ∧ trips ≤ entered p

/-- `inside` are the parties that wait; `trips` is how often the barrier was full. -/
structure Barrier (α : Type*) [DecidableEq α] where
  mode : BarrierMode
  inside : Finset α
  trips : ℕ
  entered : α → ℕ
  left : α → ℕ
  counts : BarrierCounts mode inside trips entered left

namespace Barrier

variable [DecidableEq α]

def new : Barrier α where
  mode := .filling
  inside := ∅
  trips := 0
  entered _ := 0
  left _ := 0
  counts := ⟨fun _ _ => ⟨rfl, rfl⟩, fun h => (BarrierMode.noConfusion h), fun _ => ⟨le_rfl, le_rfl⟩⟩

/-- Nobody leaves for the `n`-th time before everybody has arrived `n` times. -/
theorem left_le_entered (b : Barrier α) (p q : α) : b.left p ≤ b.entered q :=
  (b.counts.around p).1.trans (b.counts.around q).2

/-! ### Arriving -/

theorem counts_wait {b : Barrier α} (h : b.mode = .filling) {p : α} (hp : p ∉ b.inside) :
    BarrierCounts .filling (insert p b.inside) b.trips
      (Function.update b.entered p (b.entered p + 1)) b.left := by
  refine ⟨fun _ q => ?_, fun hmode => (BarrierMode.noConfusion hmode), fun q => ?_⟩
  · obtain ⟨hleft, hentered⟩ := b.counts.filling h q
    refine ⟨hleft, ?_⟩
    by_cases hq : q = p
    · rw [hq] at hentered ⊢
      rw [Function.update_self, if_pos (Finset.mem_insert_self p _), hentered, if_neg hp]
    · rw [Function.update_of_ne hq, hentered]
      simp only [Finset.mem_insert, hq, false_or]
  · obtain ⟨hleft, hentered⟩ := b.counts.around q
    refine ⟨hleft, hentered.trans ?_⟩
    by_cases hq : q = p
    · rw [hq, Function.update_self]
      exact Nat.le_succ _
    · rw [Function.update_of_ne hq]

/-- The last party arrives, and leaves at once. -/
theorem counts_full [Fintype α] {b : Barrier α} (h : b.mode = .filling) {p : α}
    (hp : p ∉ b.inside) (hfull : b.inside.card + 1 = Fintype.card α) :
    BarrierCounts (if b.inside = ∅ then .filling else .draining) b.inside (b.trips + 1)
      (Function.update b.entered p (b.entered p + 1))
      (Function.update b.left p (b.left p + 1)) := by
  have hall : ∀ q, q ≠ p → q ∈ b.inside := by
    intro q hq
    have huniv : insert p b.inside = Finset.univ := by
      rw [← Finset.card_eq_iff_eq_univ, Finset.card_insert_of_notMem hp, hfull]
    exact Finset.mem_of_mem_insert_of_ne (huniv ▸ Finset.mem_univ q) hq
  have hcounts : ∀ q, Function.update b.entered p (b.entered p + 1) q = b.trips + 1 ∧
      Function.update b.left p (b.left p + 1) q + (if q ∈ b.inside then 1 else 0) =
        b.trips + 1 := by
    intro q
    obtain ⟨hleft, hentered⟩ := b.counts.filling h q
    by_cases hq : q = p
    · rw [hq] at hleft hentered ⊢
      rw [Function.update_self, Function.update_self, hentered, hleft, if_neg hp]
      exact ⟨rfl, rfl⟩
    · rw [Function.update_of_ne hq, Function.update_of_ne hq, hentered, hleft, if_pos (hall q hq)]
      exact ⟨rfl, rfl⟩
  refine ⟨fun hmode q => ?_, fun _ => hcounts, fun q => ?_⟩
  · have hempty : b.inside = ∅ := by
      by_contra hne
      rw [if_neg hne] at hmode
      cases hmode
    obtain ⟨hentered, hleft⟩ := hcounts q
    rw [hempty] at hleft ⊢
    exact ⟨hleft, hentered⟩
  · obtain ⟨hentered, hleft⟩ := hcounts q
    omega

/-- A party arrives. -/
def enter [Fintype α] (b : Barrier α) (p : α) : Passage × Barrier α :=
  if hp : p ∈ b.inside then (.blocked, b)
  else
    match hmode : b.mode with
    | .broken => (.raises, b)
    | .draining => (.blocked, b)
    | .filling =>
      if hfull : b.inside.card + 1 = Fintype.card α then
        (.passes, { b with
          mode := if b.inside = ∅ then .filling else .draining
          trips := b.trips + 1
          entered := Function.update b.entered p (b.entered p + 1)
          left := Function.update b.left p (b.left p + 1)
          counts := counts_full hmode hp hfull })
      else
        (.waits, { b with
          mode := .filling
          inside := insert p b.inside
          entered := Function.update b.entered p (b.entered p + 1)
          counts := counts_wait hmode hp })

/-! ### Leaving -/

theorem counts_leave {b : Barrier α} (h : b.mode = .draining) {p : α} (hp : p ∈ b.inside) :
    BarrierCounts (if b.inside.erase p = ∅ then .filling else .draining) (b.inside.erase p) b.trips
      b.entered (Function.update b.left p (b.left p + 1)) := by
  have hcounts : ∀ q, b.entered q = b.trips ∧ Function.update b.left p (b.left p + 1) q +
      (if q ∈ b.inside.erase p then 1 else 0) = b.trips := by
    intro q
    obtain ⟨hentered, hleft⟩ := b.counts.draining h q
    refine ⟨hentered, ?_⟩
    by_cases hq : q = p
    · rw [hq] at hleft ⊢
      rw [if_pos hp] at hleft
      rw [Function.update_self, if_neg (Finset.notMem_erase p _), hleft]
    · rw [Function.update_of_ne hq]
      simp only [Finset.mem_erase, hq, ne_eq, not_false_eq_true, true_and, hleft]
  refine ⟨fun hmode q => ?_, fun _ => hcounts, fun q => ?_⟩
  · have hempty : b.inside.erase p = ∅ := by
      by_contra hne
      rw [if_neg hne] at hmode
      cases hmode
    obtain ⟨hentered, hleft⟩ := hcounts q
    rw [hempty] at hleft ⊢
    exact ⟨hleft, hentered⟩
  · obtain ⟨hentered, hleft⟩ := hcounts q
    omega

theorem counts_broken (b : Barrier α) (inside : Finset α) :
    BarrierCounts .broken inside b.trips b.entered b.left :=
  ⟨fun h => (BarrierMode.noConfusion h), fun h => (BarrierMode.noConfusion h), b.counts.around⟩

/-- Breaks the barrier. -/
def abort (b : Barrier α) : Barrier α :=
  { b with mode := .broken, counts := b.counts_broken b.inside }

/-- A party that waits is turned away. -/
def turnAway (b : Barrier α) (p : α) : Barrier α :=
  { b with mode := .broken, inside := b.inside.erase p, counts := b.counts_broken _ }

/-- A party that waits leaves, if it can; when its time is up, it breaks a barrier that still fills. -/
def leave (b : Barrier α) (timeout : Bool) (p : α) : Passage × Barrier α :=
  if hp : p ∈ b.inside then
    match hmode : b.mode with
    | .filling => if timeout then (.raises, b.turnAway p) else (.blocked, b)
    | .broken => (.raises, b.turnAway p)
    | .draining =>
      (.passes, { b with
        mode := if b.inside.erase p = ∅ then .filling else .draining
        inside := b.inside.erase p
        left := Function.update b.left p (b.left p + 1)
        counts := counts_leave hmode hp })
  else (.blocked, b)

/-! ### What a call counts -/

theorem enter_counts [Fintype α] {b b' : Barrier α} {p : α} {passage : Passage}
    (h : b.enter p = (passage, b')) :
    b'.entered = Function.update b.entered p (b.entered p + passage.arrivals) ∧
    b'.left = Function.update b.left p (b.left p + passage.departures) := by
  have hentered : Function.update b.entered p (b.entered p + 0) = b.entered := by simp
  have hleft : Function.update b.left p (b.left p + 0) = b.left := by simp
  rw [enter] at h
  split at h
  · obtain ⟨rfl, rfl⟩ := Prod.mk.inj h
    exact ⟨hentered.symm, hleft.symm⟩
  · split at h
    · obtain ⟨rfl, rfl⟩ := Prod.mk.inj h
      exact ⟨hentered.symm, hleft.symm⟩
    · obtain ⟨rfl, rfl⟩ := Prod.mk.inj h
      exact ⟨hentered.symm, hleft.symm⟩
    · split at h
      · obtain ⟨rfl, rfl⟩ := Prod.mk.inj h
        exact ⟨rfl, rfl⟩
      · obtain ⟨rfl, rfl⟩ := Prod.mk.inj h
        exact ⟨rfl, hleft.symm⟩

theorem leave_counts {b b' : Barrier α} {p : α} {timeout : Bool} {passage : Passage}
    (h : b.leave timeout p = (passage, b')) : passage ≠ .waits ∧ b'.entered = b.entered ∧
      b'.left = Function.update b.left p (b.left p + passage.departures) := by
  have hleft : Function.update b.left p (b.left p + 0) = b.left := by simp
  rw [leave] at h
  split at h
  · split at h
    · split at h
      · obtain ⟨rfl, rfl⟩ := Prod.mk.inj h
        exact ⟨by simp, rfl, hleft.symm⟩
      · obtain ⟨rfl, rfl⟩ := Prod.mk.inj h
        exact ⟨by simp, rfl, hleft.symm⟩
    · obtain ⟨rfl, rfl⟩ := Prod.mk.inj h
      exact ⟨by simp, rfl, hleft.symm⟩
    · obtain ⟨rfl, rfl⟩ := Prod.mk.inj h
      exact ⟨by simp, rfl, rfl⟩
  · obtain ⟨rfl, rfl⟩ := Prod.mk.inj h
    exact ⟨by simp, rfl, hleft.symm⟩

end Barrier
