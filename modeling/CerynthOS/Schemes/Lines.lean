import Mathlib

/-! Streams that are cut into lines.

    A line is what stands before a delimiter, and the delimiter. Lines that follow one another can
    be told apart again, in one way only: a line starts where the one before it ends. -/

namespace Lines

variable {α : Type*}

/-- The delimiter ends the line and does not occur earlier. -/
def IsLine (d : α) (line : List α) : Prop := ∃ body, line = body ++ [d] ∧ d ∉ body

section
variable [DecidableEq α]

/-- The lines of a stream; what follows the last delimiter is the last of them. -/
def lines (d : α) : List α → List (List α)
  | [] => []
  | x :: xs =>
    if x = d then [x] :: lines d xs
    else
      match lines d xs with
      | [] => [[x]]
      | line :: rest => (x :: line) :: rest

/-- What is read up to the first delimiter, with it, or all there is. -/
def readUntil (d : α) : List α → List α
  | [] => []
  | x :: xs => if x = d then [x] else x :: readUntil d xs

variable {d : α}

theorem lines_append {body : List α} (h : d ∉ body) (s : List α) :
    lines d (body ++ d :: s) = (body ++ [d]) :: lines d s := by
  induction body with
  | nil => simp [lines]
  | cons x body ih =>
    obtain ⟨hx, hbody⟩ := not_or.mp (mt List.mem_cons.mpr h)
    rw [List.cons_append, lines, if_neg (Ne.symm hx), ih hbody]
    rfl

theorem lines_flatten_append {ls : List (List α)} (h : ∀ line ∈ ls, IsLine d line) (s : List α) :
    lines d (ls.flatten ++ s) = ls ++ lines d s := by
  induction ls with
  | nil => rfl
  | cons line ls ih =>
    obtain ⟨body, rfl, hbody⟩ := h line List.mem_cons_self
    rw [List.flatten_cons, List.append_assoc, List.append_assoc, List.singleton_append,
      lines_append hbody, ih fun l hl => h l (List.mem_cons_of_mem _ hl), List.cons_append]

/-- Lines that follow one another are told apart again. -/
theorem lines_flatten {ls : List (List α)} (h : ∀ line ∈ ls, IsLine d line) :
    lines d ls.flatten = ls := by
  have := lines_flatten_append h []
  rwa [List.append_nil, lines, List.append_nil] at this

theorem flatten_inj {ls ms : List (List α)} (hls : ∀ line ∈ ls, IsLine d line)
    (hms : ∀ line ∈ ms, IsLine d line) (h : ls.flatten = ms.flatten) : ls = ms := by
  rw [← lines_flatten hls, h, lines_flatten hms]

theorem readUntil_line {line : List α} (h : IsLine d line) (s : List α) :
    readUntil d (line ++ s) = line := by
  obtain ⟨body, rfl, hbody⟩ := h
  induction body with
  | nil => simp [readUntil]
  | cons x body ih =>
    obtain ⟨hx, hbody⟩ := not_or.mp (mt List.mem_cons.mpr hbody)
    rw [List.cons_append, List.cons_append, readUntil, if_neg (Ne.symm hx), ih hbody]

/-! ### Complete lines -/

/-- The lines that are ended. Only the last line of a stream may lack its delimiter. -/
def complete (d : α) (s : List α) : List (List α) :=
  (lines d s).takeWhile fun line => line.getLast? = some d

omit [DecidableEq α] in
theorem getLast?_line {line : List α} (h : IsLine d line) : line.getLast? = some d := by
  obtain ⟨body, rfl, -⟩ := h
  exact List.getLast?_concat

theorem lines_rest {s : List α} (h : d ∉ s) : lines d s = [] ∨ lines d s = [s] := by
  induction s with
  | nil => exact .inl rfl
  | cons x s ih =>
    obtain ⟨hx, hs⟩ := not_or.mp (mt List.mem_cons.mpr h)
    refine .inr ?_
    rw [lines, if_neg (Ne.symm hx)]
    cases s with
    | nil => rfl
    | cons y s =>
      rcases ih hs with hnil | hone
      · rw [lines] at hnil
        split at hnil
        · cases hnil
        · split at hnil <;> cases hnil
      · rw [hone]

/-- The complete lines are those that the stream is made of, up to what is not ended. -/
theorem complete_flatten {ls : List (List α)} (h : ∀ line ∈ ls, IsLine d line) {s : List α}
    (hs : d ∉ s) : complete d (ls.flatten ++ s) = ls := by
  rw [complete, lines_flatten_append h,
    List.takeWhile_append_of_pos fun line hl => decide_eq_true (getLast?_line (h line hl))]
  rcases lines_rest hs with hnil | hone
  · rw [hnil, List.takeWhile_nil, List.append_nil]
  · have hlast : s.getLast? ≠ some d := fun hd => hs (List.mem_of_getLast? hd)
    rw [hone, List.takeWhile_cons_of_neg (by simpa using hlast), List.append_nil]

theorem complete_nil_of_notMem {s : List α} (hs : d ∉ s) : complete d s = [] := by
  have hnone : ∀ line ∈ ([] : List (List α)), IsLine d line := by simp
  exact complete_flatten hnone hs

/-- Every stream is made of complete lines and a rest. -/
theorem exists_complete (d : α) (s : List α) :
    ∃ (ls : List (List α)) (rest : List α), s = ls.flatten ++ rest ∧
      (∀ line ∈ ls, IsLine d line) ∧ d ∉ rest := by
  induction s with
  | nil => exact ⟨[], [], rfl, by simp, by simp⟩
  | cons x s ih =>
    obtain ⟨ls, rest, rfl, hls, hrest⟩ := ih
    by_cases hx : x = d
    · refine ⟨[x] :: ls, rest, rfl, ?_, hrest⟩
      rintro line (_ | ⟨_, hl⟩)
      · exact ⟨[], by rw [hx, List.nil_append], List.not_mem_nil⟩
      · exact hls line hl
    · cases ls with
      | nil => exact ⟨[], x :: rest, rfl, by simp, by simp [hrest, Ne.symm hx]⟩
      | cons line ls =>
        refine ⟨(x :: line) :: ls, rest, rfl, ?_, hrest⟩
        rintro l (_ | ⟨_, hl⟩)
        · obtain ⟨body, rfl, hbody⟩ := hls line List.mem_cons_self
          exact ⟨x :: body, rfl, by simp [hbody, Ne.symm hx]⟩
        · exact hls l (List.mem_cons_of_mem _ hl)

theorem isLine_complete {s line : List α} (h : line ∈ complete d s) : IsLine d line := by
  obtain ⟨ls, rest, rfl, hls, hrest⟩ := exists_complete d s
  rw [complete_flatten hls hrest] at h
  exact hls line h

/-- What is appended leaves the complete lines as they are. -/
theorem complete_isPrefix (s t : List α) : complete d s <+: complete d (s ++ t) := by
  obtain ⟨ls, rest, rfl, hls, hrest⟩ := exists_complete d s
  obtain ⟨more, tail, htail, hmore, htail'⟩ := exists_complete d (rest ++ t)
  have hlines : ∀ line ∈ ls ++ more, IsLine d line := by
    intro line hl
    exact (List.mem_append.mp hl).elim (hls line) (hmore line)
  rw [complete_flatten hls hrest, List.append_assoc, htail, ← List.append_assoc,
    ← List.flatten_append, complete_flatten hlines htail']
  exact List.prefix_append _ _

/-- A stream that ends with the delimiter is made of complete lines. -/
theorem flatten_complete {s : List α} (h : ∀ x ∈ s.getLast?, x = d) :
    s = (complete d s).flatten := by
  obtain ⟨ls, rest, rfl, hls, hrest⟩ := exists_complete d s
  have hnil : rest = [] := by
    by_contra hne
    obtain ⟨x, hx⟩ := Option.ne_none_iff_exists'.mp (mt List.getLast?_eq_none_iff.mp hne)
    have hlast := h x (by simp [List.getLast?_append, hx])
    exact hrest (hlast ▸ List.mem_of_getLast? hx)
  rw [hnil, List.append_nil]
  have := complete_flatten hls (s := []) (by simp)
  rw [List.append_nil] at this
  rw [this]

/-- After complete lines a stream continues with the lines of what is appended. -/
theorem complete_append {s : List α} (h : ∀ x ∈ s.getLast?, x = d) (t : List α) :
    complete d (s ++ t) = complete d s ++ complete d t := by
  obtain ⟨ls, rest, rfl, hls, hrest⟩ := exists_complete d t
  have hlines : ∀ line ∈ complete d s ++ ls, IsLine d line := by
    intro line hl
    exact (List.mem_append.mp hl).elim isLine_complete (hls line)
  rw [complete_flatten hls hrest]
  conv_lhs => rw [flatten_complete h]
  rw [← List.append_assoc, ← List.flatten_append, complete_flatten hlines hrest]

end

end Lines
