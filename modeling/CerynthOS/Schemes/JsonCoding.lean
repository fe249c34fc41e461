import CerynthOS.Schemes.JsonDocument

/-! Codings: types whose values are written as JSON values and read back.

    The coding of a record is put together from those of its members. -/

namespace Json

structure Coding (α : Type) where
  encode : α → Value
  decode : Value → Option α
  decode_encode : ∀ a, decode (encode a) = some a
  whole : ∀ a, (encode a).whole = true

/-- The member of a name; one that is not there counts as `null`. -/
def Value.member (v : Value) (key : String) : Value := (v.get key).getD .null

theorem itemsWhole_map {α : Type} {f : α → Value} (h : ∀ a, (f a).whole = true) (items : List α) :
    Value.itemsWhole (items.map f) = true := by
  induction items with
  | nil => rfl
  | cons a items ih => rw [List.map_cons, Value.itemsWhole, h, ih, Bool.and_self]

theorem mapM_map {α β : Type} {f : α → β} {g : β → Option α} (h : ∀ a, g (f a) = some a)
    (items : List α) : (items.map f).mapM g = some items := by
  induction items with
  | nil => rfl
  | cons a items ih =>
    rw [List.map_cons, List.mapM_cons, h, ih]
    rfl

namespace Coding
variable {α : Type}

attribute [simp] Coding.decode_encode Coding.whole

def string : Coding String where
  encode := .str
  decode
    | .str s => some s
    | _ => none
  decode_encode _ := rfl
  whole _ := rfl

def bool : Coding Bool where
  encode := .bool
  decode := Value.asBool
  decode_encode _ := rfl
  whole _ := rfl

/-- Natural numbers. One that does not fit is kept as its digits. -/
def nat : Coding ℕ where
  encode := natValue
  decode := natOfValue
  decode_encode := natOfValue_natValue
  whole := natValue_whole

/-- Integers. A negative one that does not fit is kept as its absolute value in an array. -/
def int : Coding ℤ where
  encode
    | .ofNat n => natValue n
    | .negSucc n => if n < 2 ^ 63 then .negInt (n + 1) else .arr [natValue (n + 1)]
  decode
    | .negInt n => some (-n)
    | .arr [v] => (natOfValue v).map fun n => -n
    | v => (natOfValue v).map fun n => n
  decode_encode z := by
    rcases z with n | n
    · simp only [natValue]
      split_ifs with h
      · have := natOfValue_natValue n
        simp only [natValue, if_pos h] at this
        simp [this]
      · have := natOfValue_natValue n
        simp only [natValue, if_neg h] at this
        simp [this]
    · simp only
      split_ifs
      · rfl
      · simp only [natOfValue_natValue]
        rfl
  whole z := by
    rcases z with n | n
    · exact natValue_whole n
    · simp only
      split_ifs with h
      · simp only [Value.whole, Bool.and_eq_true, decide_eq_true_eq]
        omega
      · simp [Value.whole, Value.itemsWhole, natValue_whole]

/-- Rational numbers, kept as their numerator and denominator. -/
def rat : Coding ℚ where
  encode q := .arr [int.encode q.num, nat.encode q.den]
  decode
    | .arr [v, w] => do
      let num ← int.decode v
      let den ← nat.decode w
      return num / den
    | _ => none
  decode_encode q := by simp [Rat.num_div_den]
  whole q := by simp [Value.whole, Value.itemsWhole]

def list (c : Coding α) : Coding (List α) where
  encode items := .arr (items.map c.encode)
  decode
    | .arr vs => vs.mapM c.decode
    | _ => none
  decode_encode := mapM_map c.decode_encode
  whole := itemsWhole_map c.whole

/-- Values that may be missing, of a kind that is never `null`. -/
def optional (c : Coding α) (h : c.decode .null = none) : Coding (Option α) where
  encode a := a.elim .null c.encode
  decode
    | .null => some none
    | v => (c.decode v).map some
  decode_encode a := by
    cases a with
    | none => rfl
    | some a =>
      have hback := c.decode_encode a
      simp only [Option.elim_some]
      cases hv : c.encode a with
      | null =>
        rw [hv, h] at hback
        cases hback
      | _ =>
        rw [hv] at hback
        simp only [hback, Option.map_some]
  whole a := by
    cases a with
    | none => rfl
    | some a => exact c.whole a

/-- The values of an enumeration, by their names. -/
def named [DecidableEq α] (all : List α) (name : α → String)
    (h : ∀ a, all.find? (fun b => name b == name a) = some a) : Coding α where
  encode a := .str (name a)
  decode
    | .str s => all.find? fun b => name b == s
    | _ => none
  decode_encode := h
  whole _ := rfl

end Coding

/-- A kind of document whose values are objects or arrays. -/
@[reducible] def Document.ofCoding {α : Type} (c : Coding α)
    (bracketed : ∀ a, (c.encode a).bracketed = true) : Document α :=
  .ofValue c.encode c.decode c.decode_encode c.whole bracketed

end Json
