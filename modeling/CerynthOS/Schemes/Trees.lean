import CerynthOS.Schemes.Files

/-! Directories of files.

    A directory exists or not, and has its files. It can be made, moved with all that is in it, and
    its files can be written. -/

namespace Files
variable {D N α : Type}

/-- What is in the directories of a disk, those that exist. -/
abbrev Tree (D N α : Type) := D → Option (Disk N α)

inductive TreeStep (D N α : Type) where
  | mkdir (d : D)
  | move (d e : D)
  | inside (d : D) (step : Step N α)

namespace Tree
variable [DecidableEq D] [DecidableEq N]

def file (tree : Tree D N α) (d : D) (n : N) : Option (List α) := (tree d).bind (· n)

/-- The file holds this now. -/
def put (tree : Tree D N α) (d : D) (n : N) (contents : List α) : Tree D N α :=
  Function.update tree d ((tree d).map fun files => Function.update files n (some contents))

end Tree

variable [DecidableEq D] [DecidableEq N]

def TreeStep.apply (tree : Tree D N α) : TreeStep D N α → Tree D N α
  | mkdir d => Function.update tree d (some fun _ => none)
  | move d e => Function.update (Function.update tree e (tree d)) d none
  | inside d step => Function.update tree d ((tree d).map step.apply)

namespace Tree
variable {tree : Tree D N α} {d e : D} {n m : N} {contents more : List α} {files : Disk N α}

theorem put_of_ne (h : e ≠ d) : put tree d n contents e = tree e := Function.update_of_ne h _ _

theorem put_self (h : tree d = some files) :
    put tree d n contents d = some (Function.update files n (some contents)) := by
  rw [put, Function.update_self, h]
  rfl

theorem isSome_put : (put tree d n contents e).isSome = (tree e).isSome := by
  by_cases h : e = d
  · rw [h, put, Function.update_self, Option.isSome_map]
  · rw [put_of_ne h]

theorem file_put_self (h : (tree d).isSome = true) :
    (put tree d n contents).file d n = some contents := by
  obtain ⟨files, hf⟩ := Option.isSome_iff_exists.mp h
  rw [file, put_self hf, Option.bind_some, Function.update_self]

theorem file_put_of_ne (h : e ≠ d ∨ m ≠ n) :
    (put tree d n contents).file e m = tree.file e m := by
  by_cases he : e = d
  · subst he
    rw [file, file, put, Function.update_self]
    cases tree e with
    | none => rfl
    | some files => exact Function.update_of_ne (h.resolve_left fun hx => hx rfl) _ _
  · rw [file, file, put_of_ne he]

theorem put_put : put (put tree d n contents) d n more = put tree d n more := by
  rw [put, put, Function.update_self, Function.update_idem, Option.map_map, put]
  congr 2
  funext files
  exact Function.update_idem _ _ _

theorem put_eq_self (h : tree.file d n = some contents) : put tree d n contents = tree := by
  obtain ⟨files, hf, hn⟩ := Option.bind_eq_some_iff.mp h
  rw [put, hf, Option.map_some, ← hn, Function.update_eq_self, ← hf, Function.update_eq_self]

theorem apply_truncate : TreeStep.apply tree (.inside d (.truncate n)) = put tree d n [] := rfl

/-- What is appended to a file follows what is in it. -/
theorem apply_append (h : tree.file d n = some contents) :
    TreeStep.apply tree (.inside d (.append n more)) = put tree d n (contents ++ more) := by
  obtain ⟨files, hf, hn⟩ := Option.bind_eq_some_iff.mp h
  rw [TreeStep.apply, put, hf, Option.map_some, Option.map_some, Step.apply, hn]
  rfl

omit [DecidableEq D] [DecidableEq N] in
theorem isSome_of_file (h : tree.file d n = some contents) : (tree d).isSome = true := by
  obtain ⟨files, hf, -⟩ := Option.bind_eq_some_iff.mp h
  rw [hf]
  rfl

end Tree

end Files
