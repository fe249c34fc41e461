import CerynthOS.Schemes.JsonBytes

/-! What a program relies on in a JSON library.

    A program that uses a library for its JSON is modelled over a `Codec`, and what it relies on is
    that the codec is lawful: what was written is read back, and an object that is cut short is
    refused. Both are promised for whole numbers and for a nesting below the library's limit. The
    printer and the reader of this development are one lawful codec. -/

namespace Json

/-- How deep a value may be nested to be read. -/
def recursionLimit : ℕ := 128

/-- A value that is read back as it was written. -/
def Value.plain (v : Value) : Prop := v.whole = true ∧ v.depth < recursionLimit

instance (v : Value) : Decidable v.plain := inferInstanceAs (Decidable (_ ∧ _))

/-- Writing a value and reading one, as bytes and as text. -/
class Codec where
  toVec : Value → List UInt8
  toStringPretty : Value → String
  fromSlice : List UInt8 → Option Value
  fromStr : String → Option Value

/-- Whitespace in bytes. -/
def isWsByte (b : UInt8) : Bool := b == 32 || b == 10 || b == 13 || b == 9

class LawfulCodec [Codec] : Prop where
  fromSlice_toVec : ∀ (v : Value) (ws : List UInt8), v.plain → (∀ b ∈ ws, isWsByte b = true) →
    Codec.fromSlice (Codec.toVec v ++ ws) = some v
  newline_not_mem_toVec : ∀ v : Value, v.plain → (10 : UInt8) ∉ Codec.toVec v
  fromSlice_prefix : ∀ (members : List (String × Value)) (p : List UInt8),
    (Value.obj members).plain → p <+: Codec.toVec (.obj members) →
    p ≠ Codec.toVec (.obj members) → Codec.fromSlice p = none
  fromStr_toStringPretty : ∀ v : Value, v.plain →
    Codec.fromStr (Codec.toStringPretty v) = some v

/-- A lawful codec that refuses a pretty object that is cut short, too. -/
class CutCodec [Codec] : Prop extends LawfulCodec where
  fromStr_prefix : ∀ (members : List (String × Value)) (p : List Char),
    (Value.obj members).plain → p <+: (Codec.toStringPretty (.obj members)).toList →
    p ≠ (Codec.toStringPretty (.obj members)).toList → Codec.fromStr (.ofList p) = none

/-! ### The codec of the printer and the reader -/

/-- The value, if it is not nested too deep. -/
def limited (v : Value) : Option Value := if v.depth < recursionLimit then some v else none

@[reducible] def textCodec : Codec where
  toVec v := utf8 (print compact 0 v)
  toStringPretty v := .ofList (print pretty 0 v)
  fromSlice bytes := (readBytes bytes).bind limited
  fromStr s := (read s.toList).bind limited

theorem limited_plain {v : Value} (hv : v.plain) : limited v = some v := if_pos hv.2

theorem utf8_ws {ws : List UInt8} (h : ∀ b ∈ ws, isWsByte b = true) :
    ∃ cs, ws = utf8 cs ∧ ∀ c ∈ cs, isWs c = true := by
  induction ws with
  | nil => exact ⟨[], rfl, fun _ hc => absurd hc List.not_mem_nil⟩
  | cons b ws ih =>
    obtain ⟨cs, rfl, hcs⟩ := ih fun b hb => h b (List.mem_cons_of_mem _ hb)
    have hb := h b List.mem_cons_self
    simp only [isWsByte, Bool.or_eq_true, beq_iff_eq] at hb
    have hchar : ∃ c, String.utf8EncodeChar c = [b] ∧ isWs c = true := by
      rcases hb with ((rfl | rfl) | rfl) | rfl
      · exact ⟨' ', by decide, rfl⟩
      · exact ⟨'\n', by decide, rfl⟩
      · exact ⟨'\r', by decide, rfl⟩
      · exact ⟨'\t', by decide, rfl⟩
    obtain ⟨c, hc, hws⟩ := hchar
    refine ⟨c :: cs, by simp [utf8, hc], fun d hd => ?_⟩
    rcases List.mem_cons.mp hd with rfl | hd
    · exact hws
    · exact hcs d hd

theorem textCodec_lawful : @LawfulCodec textCodec := by
  refine @LawfulCodec.mk textCodec ?_ ?_ ?_ ?_
  · intro v ws hv hws
    obtain ⟨cs, rfl, hcs⟩ := utf8_ws hws
    change (readBytes (utf8 (print compact 0 v) ++ utf8 cs)).bind limited = some v
    rw [← utf8_append, readBytes_utf8, read_print compact hv.1 hcs]
    exact limited_plain hv
  · intro v hv
    exact newline_not_mem_utf8 (newline_not_mem_print v 0 hv.1)
  · intro members p hv hp hne
    change (readBytes p).bind limited = none
    cases hr : readBytes p with
    | none => rfl
    | some w =>
      obtain ⟨t, rfl, ht, hread⟩ := readBytes_prefix hp hr
      have := read_piece compact hv.1 ht fun h => hne (congrArg utf8 h)
      rw [hread] at this
      cases this
  · intro v hv
    change (read (String.ofList (print pretty 0 v)).toList).bind limited = some v
    have : read (print pretty 0 v ++ []) = some v :=
      read_print pretty hv.1 fun _ h => absurd h List.not_mem_nil
    rw [List.append_nil] at this
    rw [String.toList_ofList, this]
    exact limited_plain hv

theorem textCodec_cut : @CutCodec textCodec := by
  refine @CutCodec.mk textCodec textCodec_lawful ?_
  intro members p hv hp hne
  change p <+: (String.ofList (print pretty 0 (.obj members))).toList at hp
  change p ≠ (String.ofList (print pretty 0 (.obj members))).toList at hne
  change (read (String.ofList p).toList).bind limited = none
  rw [String.toList_ofList] at hp hne ⊢
  rw [read_piece pretty hv.1 hp hne]
  rfl

end Json
