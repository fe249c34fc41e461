import Mathlib

/-! Files that are seen while they are written.

    A write changes the disk in steps, and a reader or a crash can come between any two of them. What
    is seen then is the disk after the steps made so far. A file that is written in place can be seen
    empty or cut short. -/

namespace Files
variable {P α : Type}

/-- What the files of a disk hold, those that exist. -/
abbrev Disk (P α : Type) := P → Option (List α)

inductive Step (P α : Type) where
  | truncate (p : P)
  | append (p : P) (chunk : List α)
  | rename (p q : P)

variable [DecidableEq P]

def Step.apply (disk : Disk P α) : Step P α → Disk P α
  | truncate p => Function.update disk p (some [])
  | append p chunk => Function.update disk p (some ((disk p).getD [] ++ chunk))
  | rename p q => Function.update (Function.update disk q (disk p)) p none

/-- The disk at the instant when `k` of these steps have been made. -/
def after (disk : Disk P α) (steps : List (Step P α)) (k : ℕ) : Disk P α :=
  (steps.take k).foldl Step.apply disk

/-- The file is written in place, in these chunks. -/
def writeFile (p : P) (chunks : List (List α)) : List (Step P α) :=
  .truncate p :: chunks.map (.append p)

variable (disk : Disk P α)

/-- Chunks are appended one after another. -/
theorem foldl_append (p : P) (chunks : List (List α)) (written : List α) :
    (chunks.map (Step.append p)).foldl Step.apply (Function.update disk p (some written)) =
      Function.update disk p (some (written ++ chunks.flatten)) := by
  induction chunks generalizing written with
  | nil => simp
  | cons chunk chunks ih =>
    rw [List.map_cons, List.foldl_cons, Step.apply, Function.update_self, Function.update_idem,
      Option.getD_some, ih, List.flatten_cons, List.append_assoc]

/-- In place, the file holds the chunks written so far. -/
theorem after_writeFile (p : P) (chunks : List (List α)) (k : ℕ) :
    after disk (writeFile p chunks) (k + 1) =
      Function.update disk p (some (chunks.take k).flatten) := by
  rw [after, writeFile, List.take_succ_cons, List.foldl_cons, Step.apply, ← List.map_take,
    foldl_append, List.nil_append]

end Files
