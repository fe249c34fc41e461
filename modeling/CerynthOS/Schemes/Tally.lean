import Mathlib

/-! Counting keys, and the steps of a walk.

    A tally is an ordered table of keys with how often each was seen. Of a walk it is the changes
    that are counted: between two places next to each other that differ. Whoever arrives somewhere
    leaves it again, unless the walk ends there. -/

namespace Tally

section
variable {α : Type*} [LinearOrder α]

/-- One more of this key. -/
def bump (key : α) : List (α × ℕ) → List (α × ℕ)
  | [] => [(key, 1)]
  | (k, n) :: tally =>
    if key < k then (key, 1) :: (k, n) :: tally
    else if key = k then (k, n + 1) :: tally
    else (k, n) :: bump key tally

/-- How often the key was seen. -/
def count (tally : List (α × ℕ)) (key : α) : ℕ := (tally.lookup key).getD 0

def total (tally : List (α × ℕ)) : ℕ := (tally.map Prod.snd).sum

/-- The tally of a list of keys. -/
def ofList (keys : List α) : List (α × ℕ) := keys.foldl (fun tally key => bump key tally) []

/-- The keys stand in order, each once. -/
def Ordered (tally : List (α × ℕ)) : Prop := tally.Pairwise fun a b => a.1 < b.1

variable {tally : List (α × ℕ)} {key k : α} {n : ℕ}

theorem total_bump (key : α) (tally : List (α × ℕ)) : total (bump key tally) = total tally + 1 := by
  induction tally with
  | nil => rfl
  | cons entry tally ih =>
    obtain ⟨k, n⟩ := entry
    rw [bump]
    split_ifs
    · simp [total, add_comm]
    · simp [total, add_right_comm]
    · simp only [total, List.map_cons, List.sum_cons] at ih ⊢
      rw [ih, add_assoc]

theorem count_cons : count ((k, n) :: tally) key = if key = k then n else count tally key := by
  rw [count, List.lookup_cons]
  by_cases h : key = k
  · simp [h]
  · rw [if_neg h, beq_false_of_ne h]
    rfl

theorem count_eq_zero (h : ∀ entry ∈ tally, key < entry.1) : count tally key = 0 := by
  induction tally with
  | nil => rfl
  | cons entry tally ih =>
    obtain ⟨hk, h⟩ := List.forall_mem_cons.mp h
    rw [count_cons, if_neg hk.ne, ih h]

theorem mem_bump {entry : α × ℕ} (h : entry ∈ bump key tally) :
    entry.1 = key ∨ ∃ old ∈ tally, entry.1 = old.1 := by
  induction tally with
  | nil => exact .inl (congrArg Prod.fst (List.mem_singleton.mp h))
  | cons old tally ih =>
    obtain ⟨k, n⟩ := old
    rw [bump] at h
    split_ifs at h with hlt heq
    · rcases List.mem_cons.mp h with rfl | h
      · exact .inl rfl
      · exact .inr ⟨entry, h, rfl⟩
    · rcases List.mem_cons.mp h with rfl | h
      · exact .inl heq.symm
      · exact .inr ⟨entry, List.mem_cons_of_mem _ h, rfl⟩
    · rcases List.mem_cons.mp h with rfl | h
      · exact .inr ⟨(k, n), List.mem_cons_self, rfl⟩
      · refine (ih h).imp_right ?_
        rintro ⟨old, hold, heq⟩
        exact ⟨old, List.mem_cons_of_mem _ hold, heq⟩

theorem Ordered.bump (h : Ordered tally) (key : α) : Ordered (bump key tally) := by
  induction tally with
  | nil => exact List.pairwise_singleton _ _
  | cons entry tally ih =>
    obtain ⟨k, n⟩ := entry
    obtain ⟨hk, h⟩ := List.pairwise_cons.mp h
    rw [Tally.bump]
    split_ifs with hlt heq
    · refine List.pairwise_cons.mpr ⟨fun entry hm => ?_, List.pairwise_cons.mpr ⟨hk, h⟩⟩
      rcases List.mem_cons.mp hm with rfl | hm
      · exact hlt
      · exact hlt.trans (hk entry hm)
    · exact List.pairwise_cons.mpr ⟨hk, h⟩
    · refine List.pairwise_cons.mpr ⟨fun entry hm => ?_, ih h⟩
      rcases mem_bump hm with hm | ⟨old, hold, hm⟩
      · rw [hm]
        exact lt_of_le_of_ne (not_lt.mp hlt) (Ne.symm heq)
      · rw [hm]
        exact hk old hold

theorem count_bump (h : Ordered tally) (key k : α) :
    count (bump key tally) k = count tally k + if k = key then 1 else 0 := by
  induction tally with
  | nil =>
    rw [bump, count_cons]
    simp [count]
  | cons entry tally ih =>
    obtain ⟨k', n⟩ := entry
    obtain ⟨hk, h⟩ := List.pairwise_cons.mp h
    rcases lt_trichotomy key k' with hlt | rfl | hgt
    · rw [bump, if_pos hlt, count_cons]
      by_cases hkey : k = key
      · rw [if_pos hkey, if_pos hkey, hkey, count_eq_zero]
        intro entry hm
        rcases List.mem_cons.mp hm with rfl | hm
        · exact hlt
        · exact hlt.trans (hk entry hm)
      · rw [if_neg hkey, if_neg hkey, add_zero]
    · rw [bump, if_neg (lt_irrefl key), if_pos rfl, count_cons, count_cons]
      split_ifs <;> rfl
    · rw [bump, if_neg hgt.not_gt, if_neg hgt.ne', count_cons, count_cons, ih h]
      by_cases hkey : k = k'
      · rw [if_pos hkey, if_pos hkey, if_neg (hkey ▸ hgt.ne), add_zero]
      · rw [if_neg hkey, if_neg hkey]

theorem ofList_concat (keys : List α) (key : α) :
    ofList (keys ++ [key]) = bump key (ofList keys) := by
  rw [ofList, List.foldl_append]
  rfl

theorem ordered_ofList (keys : List α) : Ordered (ofList keys) := by
  induction keys using List.reverseRecOn with
  | nil => exact List.Pairwise.nil
  | append_singleton keys key ih =>
    rw [ofList_concat]
    exact ih.bump key

@[simp] theorem total_ofList (keys : List α) : total (ofList keys) = keys.length := by
  induction keys using List.reverseRecOn with
  | nil => rfl
  | append_singleton keys key ih => rw [ofList_concat, total_bump, ih, List.length_append]; rfl

@[simp] theorem count_ofList (keys : List α) (key : α) :
    count (ofList keys) key = keys.count key := by
  induction keys using List.reverseRecOn with
  | nil => rfl
  | append_singleton keys k ih =>
    rw [ofList_concat, count_bump (ordered_ofList keys), ih, List.count_append,
      List.count_singleton]
    simp only [beq_iff_eq]
    split_ifs with h h' h'
    · rfl
    · exact absurd h.symm h'
    · exact absurd h'.symm h
    · rfl

end

/-! ### Walks -/

section
variable {α : Type*} [DecidableEq α]

/-- The changes of a walk: where it comes from and where it goes. -/
def changes (walk : List α) : List (α × α) :=
  (walk.zip walk.tail).filter fun step => step.1 ≠ step.2

theorem changes_cons (a b : α) (walk : List α) :
    changes (a :: b :: walk) = if a = b then changes (b :: walk)
      else (a, b) :: changes (b :: walk) := by
  rw [changes, List.tail_cons, List.zip_cons_cons, List.filter_cons]
  by_cases h : a = b
  · simp [h, changes]
  · simp [h, changes]

/-- The last step of a walk. -/
theorem changes_concat (walk : List α) (b : α) :
    changes (walk ++ [b]) = changes walk ++
      match walk.getLast? with
      | some a => if a = b then [] else [(a, b)]
      | none => [] := by
  induction walk with
  | nil => rfl
  | cons a walk ih =>
    cases walk with
    | nil => exact changes_cons a b []
    | cons c walk =>
      rw [List.cons_append, List.cons_append, changes_cons, changes_cons, List.getLast?_cons_cons,
        ← List.cons_append, ih]
      split_ifs
      · rfl
      · rfl

/-- As many changes lead to a place as lead away from it, but for the end and the start. -/
theorem arrivals_departures (walk : List α) (place : α) :
    ((changes walk).countP fun step => step.2 = place) +
        (if walk.head? = some place then 1 else 0) =
      ((changes walk).countP fun step => step.1 = place) +
        if walk.getLast? = some place then 1 else 0 := by
  induction walk with
  | nil => rfl
  | cons a walk ih =>
    cases walk with
    | nil => rfl
    | cons b walk =>
      rw [List.head?_cons] at ih ⊢
      rw [List.getLast?_cons_cons, changes_cons]
      by_cases h : a = b
      · rw [if_pos h, h]
        exact ih
      · rw [if_neg h, List.countP_cons, List.countP_cons]
        simp only [Option.some.injEq, decide_eq_true_eq] at ih ⊢
        omega

end

end Tally
