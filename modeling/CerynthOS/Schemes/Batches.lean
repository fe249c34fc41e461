import Mathlib

/-! Streams cut into batches, each of which is put into an order of its own.

    The elements of a stream are its places; a batch is a run of consecutive ones. Whatever the
    order inside the batches, an element leaves with its batch, so that what overtakes it is in the
    rest of that batch. -/

namespace Batches

variable {α : Type*} {places : List α → List ℕ} {f : List α → List α}

/-- The places in the stream, in the order in which the elements leave, when the first batch begins
    at `start` and `places` puts a batch into its order. -/
def leaving (places : List α → List ℕ) : ℕ → List (List α) → List ℕ
  | _, [] => []
  | start, batch :: batches =>
    (places batch).map (start + ·) ++ leaving places (start + batch.length) batches

theorem leaving_perm (hplaces : ∀ batch, (places batch).Perm (List.range batch.length))
    (start : ℕ) (batches : List (List α)) :
    (leaving places start batches).Perm (List.range' start batches.flatten.length) := by
  induction batches generalizing start with
  | nil => exact .refl _
  | cons batch batches ih =>
    rw [leaving, List.flatten_cons, List.length_append, ← List.range'_append_1]
    refine .append ?_ (ih _)
    rw [List.range'_eq_map_range]
    exact (hplaces batch).map _

/-- What leaves is what stands at these places of the stream. -/
theorem leaving_map (hplaces : ∀ batch, (places batch).Perm (List.range batch.length))
    (hf : ∀ batch, (places batch).map (batch[·]?) = (f batch).map some)
    (stream : List α) (batches : List (List α)) :
    (leaving places stream.length batches).map ((stream ++ batches.flatten)[·]?) =
      (batches.flatMap f).map some := by
  induction batches generalizing stream with
  | nil => rfl
  | cons batch batches ih =>
    have hbatch : ((places batch).map (stream.length + ·)).map
        ((stream ++ (batch ++ batches.flatten))[·]?) = (f batch).map some := by
      rw [List.map_map, ← hf]
      refine List.map_congr_left fun i hi => ?_
      have hi := List.mem_range.mp ((hplaces batch).mem_iff.mp hi)
      rw [Function.comp_apply, List.getElem?_append_right (Nat.le_add_right _ _),
        Nat.add_sub_cancel_left, List.getElem?_append_left hi]
    rw [leaving, List.flatten_cons, List.flatMap_cons, List.map_append, List.map_append, hbatch,
      ← List.append_assoc, ← List.length_append, ih]

/-- An element of a list in two parts stands in the second part or in the first. -/
theorem append_eq_append_cons {xs ys pre post : List α} {x : α} (h : xs ++ ys = pre ++ x :: post) :
    (∃ mid, pre = xs ++ mid ∧ ys = mid ++ x :: post) ∨ ∃ mid, xs = pre ++ x :: mid := by
  obtain ⟨mid, hpre, hys⟩ | ⟨mid, hxs, hpost⟩ := List.append_eq_append_iff.mp h
  · exact .inl ⟨mid, hpre, hys⟩
  · cases mid with
    | nil => exact .inl ⟨[], by simpa using hxs.symm, by simpa using hpost.symm⟩
    | cons y mid =>
      obtain ⟨rfl, -⟩ := List.cons.inj hpost
      exact .inr ⟨mid, hxs⟩

/-- Only elements of its own batch can overtake an element. -/
theorem overtaking_lt (hplaces : ∀ batch, (places batch).Perm (List.range batch.length)) {m : ℕ}
    {batches : List (List α)} (hm : ∀ batch ∈ batches, batch.length ≤ m) (start : ℕ)
    {pre post : List ℕ} {i : ℕ} (h : leaving places start batches = pre ++ i :: post) :
    (pre.filter (i < ·)).length < m := by
  induction batches generalizing start pre with
  | nil => simp [leaving] at h
  | cons batch batches ih =>
    obtain ⟨hbatch, hm⟩ := List.forall_mem_cons.mp hm
    have hfirst : ∀ j ∈ (places batch).map (start + ·), j < start + batch.length := by
      intro j hj
      obtain ⟨k, hk, rfl⟩ := List.mem_map.mp hj
      have := List.mem_range.mp ((hplaces batch).mem_iff.mp hk)
      omega
    have hlen : ((places batch).map (start + ·)).length = batch.length := by
      rw [List.length_map, (hplaces batch).length_eq, List.length_range]
    rw [leaving] at h
    obtain ⟨rest, hpre, hrest⟩ | ⟨rest, hpre⟩ := append_eq_append_cons h
    · -- the element leaves with a later batch: all of this one stands before it and is older
      have hi : start + batch.length ≤ i := by
        have hmem : i ∈ leaving places (start + batch.length) batches := by
          rw [hrest]
          exact List.mem_append_right _ List.mem_cons_self
        have := List.mem_range'_1.mp ((leaving_perm hplaces _ _).mem_iff.mp hmem)
        exact this.1
      have hnone : ((places batch).map (start + ·)).filter (i < ·) = [] := by
        refine List.filter_eq_nil_iff.mpr fun j hj => ?_
        have := hfirst j hj
        rw [decide_eq_true_eq]
        omega
      rw [hpre, List.filter_append, hnone, List.nil_append]
      exact ih hm _ hrest
    · -- the element leaves with this batch, and so does all that stands before it
      have hle := List.length_filter_le (i < ·) pre
      have := congrArg List.length hpre
      rw [hlen, List.length_append, List.length_cons] at this
      omega

end Batches
