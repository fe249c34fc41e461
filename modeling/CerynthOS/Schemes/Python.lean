import CerynthOS.Schemes.Json
import Mathlib

/-! Python values as `json.loads` returns them, and what Python does with text.

    A bool counts as a number, numbers of all kinds compare by their value, and only of a string is
    the text the string itself. How a float is written, and what stands between the brackets of a
    container, is left open. `Same` is what one JSON text is to Python and to a reader that keeps
    the integers of 64 bits apart from the other numbers. -/

namespace Python

inductive Value where
  | null
  | bool (b : Bool)
  | int (n : ℤ)
  | float (x : Float)
  | str (s : String)
  | list (items : List Value)
  | dict (members : List (String × Value))

abbrev Dict := List (String × Value)

/-- The member of a name; of several, the last one. -/
def Dict.get (d : Dict) (key : String) : Option Value :=
  (d.reverse.find? fun member => member.1 == key).map Prod.snd

/-- What is left open of the library. `errorText` is what the exception says of a file that is
    missing or not JSON. No character of the text of a float is a letter, but for those of `inf`,
    `nan` and an exponent. -/
class Library where
  loads : String → Option Value
  errorText : Option String → String
  int : String → Option ℤ
  repr : Value → String
  floatText : Float → String
  floatText_chars : ∀ x, ∀ c ∈ (floatText x).toList, c ∈ "0123456789+-.einfa".toList

/-- How many digits `int` reads of a text, unless another limit is set. -/
def intMaxStrDigits : ℕ := 4300

/-- A text of digits is the number it says, if it is not too long. -/
class LawfulInt [Library] : Prop where
  int_digits : ∀ digits : List Char, digits ≠ [] → (∀ c ∈ digits, c.isDigit = true) →
    digits.length ≤ intMaxStrDigits →
    Library.int (.ofList digits) = some (Nat.ofDigitChars 10 digits 0 : ℤ)

/-- The number that a finite float is. -/
def floatValue (x : Float) : Option ℚ :=
  match x.toModel.unpack with
  | .zero _ => some 0
  | .finite .positive m e _ => some (m * 2 ^ e)
  | .finite .negative m e _ => some (-(m * 2 ^ e))
  | _ => none

namespace Value

/-- An instance of `int`; a bool is one. -/
def asInt : Value → Option ℤ
  | .bool b => some (if b then 1 else 0)
  | .int n => some n
  | _ => none

/-- The number that an int or a finite float is. -/
def number : Value → Option ℚ
  | .float x => floatValue x
  | v => v.asInt.map fun n : ℤ => (n : ℚ)

def isTrue : Value → Bool
  | .bool b => b
  | _ => false

def truthy : Value → Bool
  | .null => false
  | .bool b => b
  | .int n => n ≠ 0
  | .float x => floatValue x ≠ some 0
  | .str s => s ≠ ""
  | .list items => !items.isEmpty
  | .dict members => !members.isEmpty

/-- `str`. -/
def text [Library] : Value → String
  | .null => "None"
  | .bool true => "True"
  | .bool false => "False"
  | .int n => toString n
  | .float x => Library.floatText x
  | .str s => s
  | .list items => "[" ++ ", ".intercalate (items.map Library.repr) ++ "]"
  | .dict members => "\x7b" ++ ", ".intercalate (members.map fun (key, v) =>
      Library.repr (.str key) ++ ": " ++ Library.repr v) ++ "\x7d"

end Value

/-! ### Text -/

/-- The separators of information, which Python takes for white space. -/
def isSeparator (c : Char) : Bool := 0x1C ≤ c.toNat && c.toNat ≤ 0x1F

/-- `str.isspace` of one character. -/
def isSpace (c : Char) : Bool :=
  isSeparator c || (9 ≤ c.toNat && c.toNat ≤ 13) || c == ' ' || c == '\u0085' || c == '\u00A0' ||
    c == '\u1680' || (0x2000 ≤ c.toNat && c.toNat ≤ 0x200A) || c == '\u2028' || c == '\u2029' ||
    c == '\u202F' || c == '\u205F' || c == '\u3000'

/-- `str.strip`. -/
def strip (s : List Char) : List Char :=
  ((s.dropWhile isSpace).reverse.dropWhile isSpace).reverse

/-- `str.split`. -/
def split (s : List Char) : List (List Char) := (s.splitOnP isSpace).filter (· ≠ [])

/-- `str.find` of one character. -/
def find (c : Char) (s : List Char) : ℤ := if c ∈ s then s.idxOf c else -1

/-- `str.rfind` of one character. -/
def rfind (c : Char) (s : List Char) : ℤ :=
  if c ∈ s then s.length - 1 - s.reverse.idxOf c else -1

/-- Where an index of a slice points. -/
def sliceIndex (length : ℕ) (i : ℤ) : ℕ := min length (if i < 0 then i + length else i).toNat

/-- `s[i:j]`. -/
def slice (s : List Char) (i j : ℤ) : List Char :=
  (s.take (sliceIndex s.length j)).drop (sliceIndex s.length i)

/-- `read_text`, of what the file says: every kind of line break becomes a newline. -/
def readText : List Char → List Char
  | '\r' :: '\n' :: s => '\n' :: readText s
  | '\r' :: s => '\n' :: readText s
  | c :: s => c :: readText s
  | [] => []

theorem readText_eq {s : List Char} (h : '\r' ∉ s) : readText s = s := by
  induction s with
  | nil => rfl
  | cons c s ih =>
    obtain ⟨hc, hs⟩ := not_or.mp (mt List.mem_cons.mpr h)
    rw [readText, ih hs]
    · rintro _ rfl
      exact absurd rfl hc
    · rintro rfl
      exact absurd rfl hc

theorem find_first {c : Char} {s : List Char} (h : c ∉ s) (t : List Char) :
    find c (s ++ c :: t) = s.length := by
  rw [find, if_pos (by simp), List.idxOf_append_of_notMem h, List.idxOf_cons_self, add_zero]

theorem rfind_last {c : Char} {t : List Char} (h : c ∉ t) (s : List Char) :
    rfind c (s ++ c :: t) = s.length := by
  have hreverse : (s ++ c :: t).reverse = t.reverse ++ c :: s.reverse := by simp
  rw [rfind, if_pos (by simp), hreverse, List.idxOf_append_of_notMem (mt List.mem_reverse.mp h),
    List.idxOf_cons_self]
  simp
  omega

theorem sliceIndex_natCast {length i : ℕ} (h : i ≤ length) : sliceIndex length i = i := by
  rw [sliceIndex, if_neg (by omega), Int.toNat_natCast, min_eq_right h]

theorem slice_between (s m t : List Char) :
    slice (s ++ (m ++ t)) s.length ((s.length + m.length : ℕ) : ℤ) = m := by
  rw [slice, sliceIndex_natCast (by simp), sliceIndex_natCast (by simp), ← List.append_assoc,
    List.take_left' (List.length_append ..), List.drop_left]

theorem slice_rest (s t : List Char) : slice (s ++ t) s.length (s ++ t).length = t := by
  rw [slice, sliceIndex_natCast le_rfl, sliceIndex_natCast (by simp), List.take_length,
    List.drop_left]

/-- Where no character is a separator, the white space of Python is that of Unicode. -/
theorem dropWhile_isSpace {p : Char → Bool} {s : List Char}
    (hp : ∀ c, isSpace c = (isSeparator c || p c)) (hs : ∀ c ∈ s, isSeparator c = false) :
    s.dropWhile isSpace = s.dropWhile p := by
  induction s with
  | nil => rfl
  | cons c s ih =>
    have hc : isSpace c = p c := by rw [hp, hs c List.mem_cons_self, Bool.false_or]
    rw [List.dropWhile_cons, List.dropWhile_cons, hc,
      ih fun d hd => hs d (List.mem_cons_of_mem c hd)]

theorem strip_eq {p : Char → Bool} {s : List Char}
    (hp : ∀ c, isSpace c = (isSeparator c || p c)) (hs : ∀ c ∈ s, isSeparator c = false) :
    strip s = ((s.dropWhile p).reverse.dropWhile p).reverse := by
  rw [strip, dropWhile_isSpace hp hs, dropWhile_isSpace hp]
  intro c hc
  exact hs c ((List.dropWhile_sublist p).mem (List.mem_reverse.mp hc))

/-! ### One text, two values -/

mutual
/-- A text may be read as the one and as the other. An integer that does not fit in 64 bits, and
    zero with a sign, are floats to the other reader, and the readers may round differently. -/
inductive Same : Value → Json.Value → Prop
  | null : Same .null .null
  | bool (b : Bool) : Same (.bool b) (.bool b)
  | posInt (n : UInt64) : Same (.int n.toNat) (.posInt n)
  | negInt (n : ℕ) (hn : 0 < n ∧ n ≤ 2 ^ 63) : Same (.int (-n)) (.negInt n)
  | outside (n : ℤ) (x : Float) (hn : n < -2 ^ 63 ∨ n = 0 ∨ 2 ^ 64 ≤ n) : Same (.int n) (.float x)
  | float (x y : Float) : Same (.float x) (.float y)
  | str (s : String) : Same (.str s) (.str s)
  | list {items : List Value} {items' : List Json.Value} (h : items.Forall₂ Same items') :
      Same (.list items) (.arr items')
  | dict {members : Dict} {members' : List (String × Json.Value)}
      (h : SameMembers members members') : Same (.dict members) (.obj members')

inductive SameMembers : Dict → List (String × Json.Value) → Prop
  | nil : SameMembers [] []
  | cons {v : Value} {v' : Json.Value} {members : Dict} {members' : List (String × Json.Value)}
      (key : String) (hv : Same v v') (h : SameMembers members members') :
      SameMembers ((key, v) :: members) ((key, v') :: members')
end

theorem SameMembers.forall₂ {d : Dict} {members : List (String × Json.Value)}
    (h : SameMembers d members) : d.Forall₂ (fun m m' => m.1 = m'.1 ∧ Same m.2 m'.2) members := by
  cases h with
  | nil => exact .nil
  | cons _ hv h => exact .cons ⟨rfl, hv⟩ h.forall₂

/-- The last member of a name is the same to both. -/
theorem Same.rel_get {d : Dict} {json : Json.Value} (h : Same (.dict d) json) (key : String) :
    Option.Rel Same (d.get key) (json.get key) := by
  cases h with
  | @dict _ members h =>
    have hrev := List.forall₂_reverse_iff.mpr h.forall₂
    rw [Dict.get, Json.Value.get]
    generalize d.reverse = a, members.reverse = b at hrev
    induction hrev with
    | nil => exact .none
    | cons hm _ ih =>
      rw [List.find?_cons, List.find?_cons, hm.1]
      split
      · exact .some hm.2
      · exact ih

theorem Same.get {d : Dict} {json : Json.Value} {key : String} {v : Value}
    (h : Same (.dict d) json) (hv : d.get key = some v) :
    ∃ w, json.get key = some w ∧ Same v w := by
  have hrel := h.rel_get key
  rw [hv] at hrel
  generalize json.get key = o at hrel ⊢
  cases hrel with
  | some hsame => exact ⟨_, rfl, hsame⟩

theorem Same.of_get {d : Dict} {json : Json.Value} {key : String} {w : Json.Value}
    (h : Same (.dict d) json) (hw : json.get key = some w) :
    ∃ v, d.get key = some v ∧ Same v w := by
  have hrel := h.rel_get key
  rw [hw] at hrel
  generalize d.get key = o at hrel ⊢
  cases hrel with
  | some hsame => exact ⟨_, rfl, hsame⟩

end Python
