import Mathlib

/-! Text between delimiters, and words between separators.

    Whatever stands between the first opening and the last closing delimiter is found again, also
    when it contains both. What follows is cut into words, and words that are joined with separators
    are cut apart again. -/

namespace Words

variable {α : Type*}

/-! ### Delimiters -/

section
variable [DecidableEq α]

/-- Where the character is last. -/
def lastIdxOf? (c : α) (s : List α) : Option ℕ :=
  (s.reverse.idxOf? c).map fun i => s.length - 1 - i

theorem idxOf?_first {c : α} {s : List α} (h : c ∉ s) (t : List α) :
    (s ++ c :: t).idxOf? c = some s.length := by
  induction s with
  | nil => simp [List.idxOf?_cons]
  | cons x s ih =>
    obtain ⟨hx, hs⟩ := not_or.mp (mt List.mem_cons.mpr h)
    rw [List.cons_append, List.idxOf?_cons, ih hs]
    simp [Ne.symm hx]

theorem lastIdxOf?_last {c : α} {t : List α} (h : c ∉ t) (s : List α) :
    lastIdxOf? c (s ++ c :: t) = some s.length := by
  have hreverse : (s ++ c :: t).reverse = t.reverse ++ c :: s.reverse := by simp
  rw [lastIdxOf?, hreverse, idxOf?_first (mt List.mem_reverse.mp h)]
  simp

end

/-- What stands between two positions, if they are in the text and in order. -/
def slice? (s : List α) (i j : ℕ) : Option (List α) :=
  if i ≤ j ∧ j ≤ s.length then some ((s.take j).drop i) else none

theorem slice?_between (s m t : List α) :
    slice? (s ++ (m ++ t)) s.length (s.length + m.length) = some m := by
  rw [slice?, if_pos (by simp), ← List.append_assoc,
    List.take_left' (List.length_append ..), List.drop_left]

theorem slice?_rest (s t : List α) : slice? (s ++ t) s.length (s ++ t).length = some t := by
  rw [slice?, if_pos (by simp), List.take_length, List.drop_left]

/-! ### Words -/

variable {p : α → Bool}

/-- The words of a text with these separators. -/
def words (p : α → Bool) (s : List α) : List (List α) := (s.splitOnP p).filter (· ≠ [])

theorem words_separator {d : α} (h : p d = true) (s : List α) : words p (d :: s) = words p s := by
  rw [words, words, List.splitOnP_cons_eq_if_modifyHead, if_pos h, List.filter_cons]
  simp

theorem words_blank {s : List α} (h : ∀ c ∈ s, p c = true) : words p s = [] := by
  induction s with
  | nil => rfl
  | cons c s ih =>
    rw [words_separator (h c List.mem_cons_self), ih fun d hd => h d (List.mem_cons_of_mem c hd)]

/-- A word ends at a separator or at the end of the text. -/
theorem words_word {w s : List α} (hw : w ≠ []) (h : ∀ c ∈ w, p c = false)
    (hs : ∀ c ∈ s.head?, p c = true) : words p (w ++ s) = w :: words p s := by
  cases s with
  | nil =>
    rw [List.append_nil, words, List.splitOnP_eq_singleton h]
    simp [hw, words]
  | cons d s =>
    have hd := hs d rfl
    rw [words_separator hd, words, words, List.splitOnP_append_cons_of_forall_mem h d hd,
      List.filter_cons]
    simp [hw]

/-- Words that each follow a separator. -/
theorem words_flatMap {d : α} (hd : p d = true) {ws : List (List α)}
    (h : ∀ w ∈ ws, w ≠ [] ∧ ∀ c ∈ w, p c = false) {s : List α} (hs : ∀ c ∈ s, p c = true) :
    words p (ws.flatMap (fun w => d :: w) ++ s) = ws := by
  induction ws with
  | nil => exact words_blank hs
  | cons w ws ih =>
    obtain ⟨hw, hc⟩ := h w List.mem_cons_self
    have hrest := ih fun v hv => h v (List.mem_cons_of_mem w hv)
    rw [List.flatMap_cons, List.append_assoc, List.cons_append, words_separator hd,
      words_word hw hc, hrest]
    intro c hhead
    cases ws with
    | nil => exact hs c (List.mem_of_mem_head? hhead)
    | cons v ws =>
      obtain rfl : d = c := Option.some.inj hhead
      exact hd

end Words
