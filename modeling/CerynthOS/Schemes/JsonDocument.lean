import CerynthOS.Schemes.JsonCodec

/-! Documents of one kind as JSON text.

    A program that writes its records with one library and reads them with the same is modelled over
    a `Document` for each kind of record. What it relies on is part of it: a text is read back,
    with or without whitespace after it, and one that is cut short is refused. -/

namespace Json

class Document (α : Type) where
  dumps : α → List UInt8
  dumpsIndent : α → List UInt8
  loads : List UInt8 → Option α
  loads_dumps : ∀ a, loads (dumps a) = some a
  newline_not_mem_dumps : ∀ a, (10 : UInt8) ∉ dumps a
  loads_blank : ∀ p, (∀ b ∈ p, isWsByte b = true) → loads p = none
  loads_indent : ∀ a ws, (∀ b ∈ ws, isWsByte b = true) → loads (dumpsIndent a ++ ws) = some a
  loads_cut : ∀ a p, p <+: dumpsIndent a → p ≠ dumpsIndent a → loads p = none

/-! ### Documents of the printer and the reader -/

/-- An object or an array. -/
def Value.bracketed : Value → Bool
  | .obj _ => true
  | .arr _ => true
  | _ => false

theorem read_cut (layout : Layout) {v : Value} (hb : v.bracketed = true) (hv : v.whole = true)
    {p : List Char} (hp : p <+: print layout 0 v) (hne : p ≠ print layout 0 v) : read p = none := by
  cases v with
  | obj members => exact read_piece layout hv hp hne
  | arr items => exact read_array_piece layout hv hp hne
  | _ => cases hb

theorem readBytes_print (layout : Layout) {v : Value} (hv : v.whole = true) {ws : List UInt8}
    (hws : ∀ b ∈ ws, isWsByte b = true) : readBytes (utf8 (print layout 0 v) ++ ws) = some v := by
  obtain ⟨cs, rfl, hcs⟩ := utf8_ws hws
  rw [← utf8_append, readBytes_utf8, read_print layout hv hcs]

theorem readBytes_blank {p : List UInt8} (hp : ∀ b ∈ p, isWsByte b = true) :
    readBytes p = none := by
  obtain ⟨cs, rfl, hcs⟩ := utf8_ws hp
  have hskip : skipWs cs = skipWs [] := by
    have := skipWs_ws hcs []
    rwa [List.append_nil] at this
  rw [readBytes_utf8, read, ← parse_skipWs, hskip]
  simp [parse, skipWs, parseNumber, sign, parseNat, digits]

theorem readBytes_cut (layout : Layout) {v : Value} (hb : v.bracketed = true)
    (hv : v.whole = true) {p : List UInt8} (hp : p <+: utf8 (print layout 0 v))
    (hne : p ≠ utf8 (print layout 0 v)) : readBytes p = none := by
  by_contra h
  obtain ⟨w, hr⟩ := Option.ne_none_iff_exists'.mp h
  obtain ⟨t, rfl, ht, hread⟩ := readBytes_prefix hp hr
  have hnone := read_cut layout hb hv ht fun h => hne (congrArg utf8 h)
  rw [hread] at hnone
  cases hnone

/-- A kind of document that is a kind of JSON value. -/
@[reducible] def Document.ofValue {α : Type} (toValue : α → Value) (ofValue : Value → Option α)
    (back : ∀ a, ofValue (toValue a) = some a) (whole : ∀ a, (toValue a).whole = true)
    (bracketed : ∀ a, (toValue a).bracketed = true) : Document α where
  dumps a := utf8 (print compact 0 (toValue a))
  dumpsIndent a := utf8 (print pretty 0 (toValue a))
  loads bytes := (readBytes bytes).bind ofValue
  loads_dumps a := by
    have := readBytes_print compact (whole a) fun b hb => absurd hb List.not_mem_nil
    rw [List.append_nil] at this
    rw [this, Option.bind_some, back]
  newline_not_mem_dumps a := newline_not_mem_utf8 (newline_not_mem_print _ 0 (whole a))
  loads_blank p hp := by rw [readBytes_blank hp, Option.bind_none]
  loads_indent a ws hws := by rw [readBytes_print pretty (whole a) hws, Option.bind_some, back]
  loads_cut a p hp hne := by
    rw [readBytes_cut pretty (bracketed a) (whole a) hp hne, Option.bind_none]

/-! ### Numbers of any size -/

/-- A natural number; one that does not fit is kept as its digits. -/
def natValue (n : ℕ) : Value :=
  if n < 2 ^ 64 then .posInt (.ofNat n) else .str (.ofList (Nat.toDigits 10 n))

def natOfValue : Value → Option ℕ
  | .posInt n => some n.toNat
  | .str s => (parseNat s.toList).map (·.1)
  | _ => none

theorem natOfValue_natValue (n : ℕ) : natOfValue (natValue n) = some n := by
  rw [natValue]
  split_ifs with h
  · rw [natOfValue, UInt64.toNat_ofNat_of_lt' h]
  · have := parseNat_toDigits n endsNumber_nil
    rw [List.append_nil] at this
    rw [natOfValue, String.toList_ofList, this]
    rfl

theorem natValue_whole (n : ℕ) : (natValue n).whole = true := by
  rw [natValue]
  split_ifs <;> rfl

end Json
