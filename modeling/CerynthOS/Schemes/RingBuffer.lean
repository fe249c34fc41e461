import Mathlib

/-! A single-producer ring whose consumer may stop early.

    A ring is the list of everything ever submitted and the consumer's position in it, so that what
    has been handed over and what is pending are the two halves of one list. A drain calls a
    callback on the pending records, oldest first, until the callback asks to stop; the record it
    stops at has been handed over. The callback works on a state of its own, and a stop test that
    reads slots off that state makes the drain hand over the shortest prefix that uses them up. -/

variable {α σ : Type*}

/-- Everything submitted so far and how much of it has been consumed. -/
structure RingBuffer (α : Type*) where
  records : List α
  consumed : ℕ
  bound : consumed ≤ records.length

namespace RingBuffer

def empty : RingBuffer α := ⟨[], 0, Nat.zero_le _⟩

/-- The records handed over so far, oldest first. -/
def handed (r : RingBuffer α) : List α := r.records.take r.consumed

/-- The records waiting, oldest first. -/
def pending (r : RingBuffer α) : List α := r.records.drop r.consumed

def submit (r : RingBuffer α) (x : α) : RingBuffer α where
  records := r.records ++ [x]
  consumed := r.consumed
  bound := by
    have := r.bound
    simp; omega

@[simp] theorem empty_records : (empty : RingBuffer α).records = [] := rfl

@[simp] theorem submit_records (r : RingBuffer α) (x : α) :
    (r.submit x).records = r.records ++ [x] := rfl

@[simp] theorem submit_consumed (r : RingBuffer α) (x : α) :
    (r.submit x).consumed = r.consumed := rfl

theorem handed_append_pending (r : RingBuffer α) : r.handed ++ r.pending = r.records :=
  List.take_append_drop _ _

theorem handed_submit (r : RingBuffer α) (x : α) : (r.submit x).handed = r.handed :=
  List.take_append_of_le_length r.bound

/-- The oldest record waiting is handed over. -/
def advance (r : RingBuffer α) : RingBuffer α where
  records := r.records
  consumed := min (r.consumed + 1) r.records.length
  bound := Nat.min_le_right _ _

@[simp] theorem advance_records (r : RingBuffer α) : r.advance.records = r.records := rfl

theorem consumed_lt {r : RingBuffer α} {x : α} {rest : List α} (h : r.pending = x :: rest) :
    r.consumed < r.records.length := by
  have hlen := congrArg List.length h
  rw [pending, List.length_drop, List.length_cons] at hlen
  omega

theorem advance_consumed {r : RingBuffer α} {x : α} {rest : List α} (h : r.pending = x :: rest) :
    r.advance.consumed = r.consumed + 1 := Nat.min_eq_left (consumed_lt h)

theorem advance_pending {r : RingBuffer α} {x : α} {rest : List α} (h : r.pending = x :: rest) :
    r.advance.pending = rest := by
  have htail : r.pending.tail = rest := by rw [h, List.tail_cons]
  rw [pending, advance_consumed h, advance_records, ← htail, pending, List.tail_drop]

theorem advance_handed {r : RingBuffer α} {x : α} {rest : List α} (h : r.pending = x :: rest) :
    r.advance.handed = r.handed ++ [x] := by
  have hnext := r.advance.handed_append_pending
  rw [advance_pending h, advance_records, ← r.handed_append_pending, h, ← List.singleton_append,
    ← List.append_assoc] at hnext
  exact List.append_cancel_right hnext

/-! ### Feeding a callback -/

/-- Calls `f` on the records until it returns `true`: how many were handed over, and the state. -/
def feed (f : α → σ → Bool × σ) : List α → σ → ℕ × σ
  | [], s => (0, s)
  | x :: xs, s =>
    let (stop, s') := f x s
    if stop then (1, s')
    else
      let (n, s'') := feed f xs s'
      (n + 1, s'')

/-- The state after `f` has been called on all of the records, whatever it returned. -/
def through (f : α → σ → Bool × σ) (xs : List α) (s : σ) : σ := xs.foldl (fun s x => (f x s).2) s

theorem through_cons (f : α → σ → Bool × σ) (x : α) (xs : List α) (s : σ) :
    through f (x :: xs) s = through f xs (f x s).2 := rfl

theorem feed_le (f : α → σ → Bool × σ) (xs : List α) (s : σ) : (feed f xs s).1 ≤ xs.length := by
  induction xs generalizing s with
  | nil => exact Nat.zero_le _
  | cons x xs ih =>
    simp only [feed]
    split
    · simp
    · exact Nat.succ_le_succ (ih _)

/-- The state is the one after the records that were handed over. -/
theorem feed_state (f : α → σ → Bool × σ) (xs : List α) (s : σ) :
    (feed f xs s).2 = through f (xs.take (feed f xs s).1) s := by
  induction xs generalizing s with
  | nil => rfl
  | cons x xs ih =>
    simp only [feed]
    split
    · rfl
    · exact ih _

/-! ### A stop test on slots -/

section Slots

variable {f : α → σ → Bool × σ} {slots : σ → ℕ}

/-- The drain hands over the shortest prefix that leaves no slot, or everything if none does. -/
theorem feed_shortest (hstop : ∀ x s, (f x s).1 = decide (slots (f x s).2 = 0)) (xs : List α)
    (s : σ) (hs : 0 < slots s) :
    IsLeast {m | m ≤ xs.length ∧ slots (through f (xs.take m) s) = 0} (feed f xs s).1 ∨
      ((∀ m ≤ xs.length, 0 < slots (through f (xs.take m) s)) ∧ (feed f xs s).1 = xs.length) := by
  induction xs generalizing s with
  | nil => exact Or.inr ⟨fun m _ => by rw [List.take_nil]; exact hs, rfl⟩
  | cons x xs ih =>
    have hone : ∀ m, slots (through f ((x :: xs).take m) s) = 0 → 1 ≤ m := by
      intro m hm
      cases m with
      | zero => exact absurd hm (Nat.pos_iff_ne_zero.mp hs)
      | succ m => exact Nat.succ_le_succ (Nat.zero_le m)
    simp only [feed, hstop, decide_eq_true_eq]
    by_cases h0 : slots (f x s).2 = 0
    · rw [if_pos h0]
      exact Or.inl ⟨⟨by simp, h0⟩, fun m hm => hone m hm.2⟩
    · rw [if_neg h0]
      rcases ih _ (Nat.pos_of_ne_zero h0) with ⟨⟨hle, hz⟩, hleast⟩ | ⟨hall, hlen⟩
      · refine Or.inl ⟨⟨Nat.succ_le_succ hle, hz⟩, fun m hm => ?_⟩
        obtain ⟨m, rfl⟩ := Nat.exists_eq_add_of_le' (hone m hm.2)
        exact Nat.succ_le_succ (hleast ⟨Nat.le_of_succ_le_succ hm.1, hm.2⟩)
      · refine Or.inr ⟨fun m hm => ?_, congrArg (· + 1) hlen⟩
        cases m with
        | zero => exact hs
        | succ m => exact hall m (Nat.le_of_succ_le_succ hm)

/-- The callback is never called without a slot. -/
theorem feed_slots (hstop : ∀ x s, (f x s).1 = decide (slots (f x s).2 = 0)) (xs : List α) (s : σ)
    (hs : 0 < slots s) {m : ℕ} (hm : m < (feed f xs s).1) :
    0 < slots (through f (xs.take m) s) := by
  have hle : m ≤ xs.length := (Nat.le_of_lt hm).trans (feed_le f xs s)
  rcases feed_shortest hstop xs s hs with ⟨-, hleast⟩ | ⟨hall, -⟩
  · exact Nat.pos_of_ne_zero fun h0 => absurd (hleast ⟨hle, h0⟩) (Nat.not_le_of_lt hm)
  · exact hall m hle

/-- A record uses at most one slot, so a drain hands over at least as many records as there are
    slots. -/
theorem le_feed (hstop : ∀ x s, (f x s).1 = decide (slots (f x s).2 = 0))
    (huse : ∀ x s, slots s ≤ slots (f x s).2 + 1) (xs : List α) (s : σ) :
    min (slots s) xs.length ≤ (feed f xs s).1 := by
  induction xs generalizing s with
  | nil => simp
  | cons x xs ih =>
    have hx := huse x s
    have hrest := ih (f x s).2
    simp only [feed, hstop, decide_eq_true_eq, List.length_cons]
    split
    · next h0 => simp; omega
    · simp only; omega

end Slots

/-! ### Draining -/

/-- A drain of the ring: the pending records are fed to the callback and those handed over are
    consumed. -/
def drain (f : α → σ → Bool × σ) (r : RingBuffer α) (s : σ) : RingBuffer α × σ :=
  ({ records := r.records
     consumed := r.consumed + (feed f r.pending s).1
     bound := by
      have h := feed_le f r.pending s
      simp only [pending, List.length_drop] at h ⊢
      have := r.bound
      omega }, (feed f r.pending s).2)

@[simp] theorem drain_records (f : α → σ → Bool × σ) (r : RingBuffer α) (s : σ) :
    (drain f r s).1.records = r.records := rfl

theorem drain_handed (f : α → σ → Bool × σ) (r : RingBuffer α) (s : σ) :
    (drain f r s).1.handed = r.handed ++ r.pending.take (feed f r.pending s).1 :=
  List.take_add

theorem drain_pending (f : α → σ → Bool × σ) (r : RingBuffer α) (s : σ) :
    (drain f r s).1.pending = r.pending.drop (feed f r.pending s).1 := by
  simp only [pending, drain, List.drop_drop]

theorem drain_state (f : α → σ → Bool × σ) (r : RingBuffer α) (s : σ) :
    (drain f r s).2 = through f (r.pending.take (feed f r.pending s).1) s :=
  feed_state f r.pending s

end RingBuffer
