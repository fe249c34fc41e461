import CerynthOS.Ipc.Protocol
import CerynthOS.Schemes.Lines

/-! Frames on a stream.

    A frame is the compact text of a value and a newline. It is read back from its line, whether the
    line ends in a newline, in a carriage return and a newline, or not at all; and frames that
    follow one another are told apart by their newlines. -/

namespace CerynthOS.Ipc
open Json Lines

/-! ### Trimmed lines -/

section
variable {bytes : List UInt8}

/-- Nothing is stripped from a line without a newline. -/
theorem trimLine_of_not_mem (h : (10 : UInt8) ∉ bytes) : trimLine bytes = bytes := by
  have hsuffix {suffix : List UInt8} (hs : (10 : UInt8) ∈ suffix) :
      stripSuffix suffix bytes = none :=
    if_neg fun hs' => h (hs'.subset hs)
  rw [trimLine, hsuffix (by simp), hsuffix (by simp)]
  rfl

theorem trimLine_newline (bytes : List UInt8) : trimLine (bytes ++ [10]) = bytes := by
  have hs : stripSuffix [10] (bytes ++ [10]) = some bytes := by
    rw [stripSuffix, if_pos (List.suffix_append _ _)]
    simp
  rw [trimLine, hs]
  rfl

/-- Of a carriage return and a newline only the newline is stripped. -/
theorem trimLine_crlf (bytes : List UInt8) : trimLine (bytes ++ [13, 10]) = bytes ++ [13] := by
  rw [show bytes ++ [13, 10] = bytes ++ [13] ++ [10] by simp, trimLine_newline]

end

/-! ### Framed types -/

/-- A type that can be framed: how it is written as a value, and that it is read back from it. -/
class Frame (α : Type) where
  toValue : α → Value
  ofValue : Value → Option α
  ofValue_toValue : ∀ e, ofValue (toValue e) = some e
  plain_toValue : ∀ e, (toValue e).plain

theorem SocketRequest.plain_toValue (r : SocketRequest) : r.toValue.plain := by
  cases r with
  | setProfile p => cases p <;> decide
  | _ => decide

@[simp] theorem SocketResponse.ofValue_toValue (r : SocketResponse) :
    SocketResponse.ofValue r.toValue = some r := by
  cases r with
  | status s =>
    simp [SocketResponse.toValue, SocketResponse.ofValue, tagged, oneField, structFields,
      SchedulerStatus.ofValue_toValue]
  | profile p =>
    simp [SocketResponse.toValue, SocketResponse.ofValue, tagged, oneField, structFields]
  | error message =>
    simp [SocketResponse.toValue, SocketResponse.ofValue, tagged, oneField, structFields,
      readString]
  | _ => rfl

/-- A response is shallow and has no numbers. -/
theorem SocketResponse.whole_toValue (r : SocketResponse) :
    r.toValue.whole = true ∧ r.toValue.depth ≤ 2 := by
  cases r with
  | status s =>
    obtain ⟨profile, adaptation, backend, running, state, heartbeat⟩ := s
    cases state <;>
      simp [SocketResponse.toValue, SchedulerStatus.toValue, Profile.toValue,
        SchedulerBackend.toValue, optString, Value.whole, Value.membersWhole, Value.depth,
        Value.membersDepth]
  | profile p => cases p <;> decide
  | error message =>
    simp [SocketResponse.toValue, Value.whole, Value.membersWhole, Value.depth, Value.membersDepth]
  | _ => decide

theorem SocketResponse.plain_toValue (r : SocketResponse) : r.toValue.plain := by
  obtain ⟨hw, hd⟩ := r.whole_toValue
  exact ⟨hw, Nat.lt_of_le_of_lt hd (by decide)⟩

theorem ResponseEnvelope.ofValue_toValue (e : ResponseEnvelope) :
    ResponseEnvelope.ofValue e.toValue = some e := by
  obtain ⟨version, correlationId, response⟩ := e
  cases correlationId <;>
    simp [ResponseEnvelope.toValue, ResponseEnvelope.ofValue, structFields, correlation,
      readOptString]

theorem ResponseEnvelope.plain_toValue (e : ResponseEnvelope) : e.toValue.plain := by
  obtain ⟨version, correlationId, response⟩ := e
  obtain ⟨hw, hd⟩ := response.whole_toValue
  cases correlationId <;>
    simp [ResponseEnvelope.toValue, Value.plain, correlation, writeU32, Value.whole,
      Value.membersWhole, Value.depth, Value.membersDepth, recursionLimit, hw] <;> omega

instance : Frame RequestEnvelope where
  toValue := RequestEnvelope.toValue
  ofValue := RequestEnvelope.ofValue
  ofValue_toValue := RequestEnvelope.ofValue_toValue
  plain_toValue := RequestEnvelope.plain_toValue

instance : Frame ResponseEnvelope where
  toValue := ResponseEnvelope.toValue
  ofValue := ResponseEnvelope.ofValue
  ofValue_toValue := ResponseEnvelope.ofValue_toValue
  plain_toValue := ResponseEnvelope.plain_toValue

instance : Frame SocketRequest where
  toValue := SocketRequest.toValue
  ofValue := SocketRequest.ofValue
  ofValue_toValue := SocketRequest.ofValue_toValue
  plain_toValue := SocketRequest.plain_toValue

instance : Frame SocketResponse where
  toValue := SocketResponse.toValue
  ofValue := SocketResponse.ofValue
  ofValue_toValue := SocketResponse.ofValue_toValue
  plain_toValue := SocketResponse.plain_toValue

namespace Frame

section
variable [Codec] {α : Type} [Frame α]

def toJsonBytes (e : α) : List UInt8 := Codec.toVec (toValue e)

def fromJsonBytes (bytes : List UInt8) : Option α := (Codec.fromSlice bytes).bind ofValue

def toLine (e : α) : List UInt8 := toJsonBytes e ++ [10]

def fromLine (line : List UInt8) : Option α := fromJsonBytes (trimLine line)

/-- The frames one after another on a stream. -/
def stream (es : List α) : List UInt8 := (es.map toLine).flatten

/-- A frame is read back from its line, however the line ends; a line holds one newline, at its
    end; and a stream of frames is cut into their lines, in one way only. -/
structure RoundTrip (α : Type) [Frame α] : Prop where
  bare : ∀ e : α, fromLine (toJsonBytes e) = some e
  newline : ∀ e : α, fromLine (toJsonBytes e ++ [10]) = some e
  crlf : ∀ e : α, fromLine (toJsonBytes e ++ [13, 10]) = some e
  isLine : ∀ e : α, IsLine 10 (toLine e)
  cut : ∀ es : List α, lines 10 (stream es) = es.map toLine
  unique : ∀ (es : List α) (ls : List (List UInt8)), (∀ line ∈ ls, IsLine 10 line) →
    ls.flatten = stream es → ls = es.map toLine
  decoded : ∀ es : List α, (lines 10 (stream es)).map fromLine = es.map some

variable [LawfulCodec]

theorem fromJsonBytes_ws (e : α) {ws : List UInt8} (h : ∀ b ∈ ws, isWsByte b = true) :
    fromJsonBytes (toJsonBytes e ++ ws) = some e := by
  rw [fromJsonBytes, toJsonBytes, LawfulCodec.fromSlice_toVec _ ws (plain_toValue e) h]
  exact ofValue_toValue e

theorem fromJsonBytes_toJsonBytes (e : α) : fromJsonBytes (toJsonBytes e) = some e := by
  have h := fromJsonBytes_ws e (fun b hb => absurd hb List.not_mem_nil)
  rwa [List.append_nil] at h

theorem newline_not_mem (e : α) : (10 : UInt8) ∉ toJsonBytes e :=
  LawfulCodec.newline_not_mem_toVec _ (plain_toValue e)

theorem isLine_toLine (e : α) : IsLine 10 (toLine e) := ⟨_, rfl, newline_not_mem e⟩

theorem isLine_map (es : List α) : ∀ line ∈ es.map toLine, IsLine 10 line := by
  intro line hl
  obtain ⟨e, -, rfl⟩ := List.mem_map.mp hl
  exact isLine_toLine e

theorem fromLine_toLine (e : α) : fromLine (toLine e) = some e := by
  rw [fromLine, toLine, trimLine_newline, fromJsonBytes_toJsonBytes]

theorem roundTrip : RoundTrip α where
  bare e := by rw [fromLine, trimLine_of_not_mem (newline_not_mem e), fromJsonBytes_toJsonBytes]
  newline := fromLine_toLine
  crlf e := by
    have hws : ∀ b ∈ [(13 : UInt8)], isWsByte b = true := by simp [isWsByte]
    rw [fromLine, trimLine_crlf, fromJsonBytes_ws e hws]
  isLine := isLine_toLine
  cut es := lines_flatten (isLine_map es)
  unique es _ hls h := flatten_inj hls (isLine_map es) h
  decoded es := by
    rw [stream, lines_flatten (isLine_map es), List.map_map]
    exact List.map_congr_left fun e _ => fromLine_toLine e

end

end Frame

/-- Every type that is sent over the socket makes the round trip, alone and on a stream. -/
theorem wire_round_trip [Codec] [LawfulCodec] :
    Frame.RoundTrip RequestEnvelope ∧ Frame.RoundTrip ResponseEnvelope ∧
      Frame.RoundTrip SocketRequest ∧ Frame.RoundTrip SocketResponse :=
  ⟨Frame.roundTrip, Frame.roundTrip, Frame.roundTrip, Frame.roundTrip⟩

theorem wire_round_trip_text :
    @Frame.RoundTrip textCodec RequestEnvelope _ ∧ @Frame.RoundTrip textCodec ResponseEnvelope _ ∧
      @Frame.RoundTrip textCodec SocketRequest _ ∧ @Frame.RoundTrip textCodec SocketResponse _ :=
  @wire_round_trip textCodec textCodec_lawful

end CerynthOS.Ipc
