import CerynthOS.Daemon.Backend
import CerynthOS.Ipc.Framing

/-! One connection: a request is read, served and answered.

    A stream delivers what the client has sent in pieces; a read returns the next piece, or as much
    of it as the buffer takes. The connection makes one read, and what that read returns has to be
    the whole request. -/

namespace CerynthOS.Daemon
open Ipc Json

/-! ### One connection -/

section Connection
variable {B : Type} [Backend B] [Codec]

def decodeRequest (bytes : List UInt8) : Option RequestEnvelope :=
  fromLine RequestEnvelope.ofValue bytes

def encodeResponse (response : ResponseEnvelope) : List UInt8 := toLine response.toValue

/-- What one read into a buffer of this size returns: nothing at the end of the stream. -/
def read (size : ℕ) : List (List UInt8) → List UInt8
  | [] => []
  | chunk :: _ => chunk.take size

/-- The supported request in what was read, if there is one. -/
def receive (bytes : List UInt8) : Option RequestEnvelope :=
  if bytes.length = 0 then none
  else
    match decodeRequest bytes with
    | none => none
    | some envelope =>
      match envelope.validateVersion with
      | .error _ => none
      | .ok () => some envelope

/-- The line that answers a request. -/
def reply (envelope : RequestEnvelope) (response : Response) : List UInt8 :=
  encodeResponse (ResponseEnvelope.forRequest envelope (.ofResponse response))

/-- What is written to the stream, and what is left of the backend and its world. -/
def handleConnection (chunks : List (List UInt8)) (s : Sys B) : Option (List UInt8) × Sys B :=
  match receive (read maxMessageSize chunks) with
  | none => (none, s)
  | some envelope =>
    let (response, s) := serve envelope.request.toRequest s
    (some (reply envelope response), s)

/-- The request was served once, and one response with its correlation id was written. -/
structure Served (envelope : RequestEnvelope) (chunks : List (List UInt8)) (s : Sys B) : Prop where
  applied : (handleConnection chunks s).2 = (serve envelope.request.toRequest s).2
  written : ∃ response : ResponseEnvelope, response.correlationId = envelope.correlationId ∧
    response.response = .ofResponse (serve envelope.request.toRequest s).1 ∧
    (handleConnection chunks s).1 = some (encodeResponse response)

variable {envelope : RequestEnvelope} {chunks : List (List UInt8)} {bytes : List UInt8} {s : Sys B}

theorem served_of_receive (h : receive (read maxMessageSize chunks) = some envelope) :
    Served envelope chunks s := by
  constructor
  · rw [handleConnection, h]
  · refine ⟨.forRequest envelope (.ofResponse (serve envelope.request.toRequest s).1), rfl, rfl, ?_⟩
    rw [handleConnection, h]
    rfl

theorem not_served_of_receive (h : receive (read maxMessageSize chunks) = none) :
    ¬ Served envelope chunks s := by
  rintro ⟨-, _, -, -, hwritten⟩
  rw [handleConnection, h] at hwritten
  cases hwritten

/-! ### Requests that are cut -/

theorem receive_none (h : Codec.fromSlice (trimLine bytes) = none) : receive bytes = none := by
  rw [receive, decodeRequest, fromLine, h]
  simp

variable [LawfulCodec]

theorem receive_some (hne : bytes ≠ []) (hv : envelope.validateVersion = .ok ())
    (h : trimLine bytes = Codec.toVec envelope.toValue) : receive bytes = some envelope := by
  have hread : Codec.fromSlice (Codec.toVec envelope.toValue) = some envelope.toValue := by
    have := LawfulCodec.fromSlice_toVec envelope.toValue [] envelope.plain_toValue (by simp)
    rwa [List.append_nil] at this
  rw [receive, if_neg (mt List.length_eq_zero_iff.mp hne), decodeRequest, fromLine, h, hread,
    Option.bind_some, envelope.ofValue_toValue]
  simp [hv]

/-- A supported request is received from a part of its line exactly when at most the newline is
    missing. -/
theorem receive_prefix (hv : envelope.validateVersion = .ok ()) (hne : bytes ≠ [])
    (hp : bytes <+: toLine envelope.toValue) :
    receive bytes = if (toLine envelope.toValue).length ≤ bytes.length + 1 then some envelope
      else none := by
  have hplain := envelope.plain_toValue
  have hnl := LawfulCodec.newline_not_mem_toVec _ hplain
  have hlen : (toLine envelope.toValue).length = (Codec.toVec envelope.toValue).length + 1 :=
    List.length_append
  rw [hlen]
  rcases List.prefix_concat_iff.mp hp with rfl | hp
  · rw [if_pos (by simp)]
    exact receive_some hne hv (trimLine_newline _)
  · have htrim := trimLine_of_not_mem fun h => hnl (hp.subset h)
    split_ifs with hle
    · have heq := hp.eq_of_length_le (Nat.le_of_succ_le_succ hle)
      exact receive_some hne hv (htrim.trans heq)
    · have hcut : bytes ≠ Codec.toVec envelope.toValue := fun h => hle (h ▸ le_rfl)
      refine receive_none ?_
      rw [htrim]
      exact LawfulCodec.fromSlice_prefix _ _ hplain hp hcut

/-- A request is served from a delivery of its line exactly when the first read returns all of it,
    or all but the newline. -/
theorem served_iff (envelope : RequestEnvelope) (hv : envelope.validateVersion = .ok ())
    (hlen : (toLine envelope.toValue).length ≤ maxMessageSize) (chunks : List (List UInt8))
    (hne : ∀ chunk ∈ chunks, chunk ≠ []) (hchunks : chunks.flatten = toLine envelope.toValue)
    (s : Sys B) :
    Served envelope chunks s ↔
      (toLine envelope.toValue).length ≤ (chunks.headD []).length + 1 := by
  cases chunks with
  | nil =>
    have hnil : toLine envelope.toValue ≠ [] := List.append_ne_nil_of_right_ne_nil _ (by simp)
    exact absurd hchunks.symm hnil
  | cons chunk chunks =>
    have hp : chunk <+: toLine envelope.toValue := hchunks ▸ List.prefix_append _ _
    have hread : read maxMessageSize (chunk :: chunks) = chunk :=
      List.take_of_length_le (hp.length_le.trans hlen)
    have hreceive := receive_prefix hv (hne chunk List.mem_cons_self) hp
    split_ifs at hreceive with hle
    · exact iff_of_true (served_of_receive (hread.symm ▸ hreceive)) hle
    · exact iff_of_false (not_served_of_receive (hread.symm ▸ hreceive)) hle

end Connection

section Example
local instance : Codec := textCodec

def statusRequest : RequestEnvelope := ⟨protocolVersion, some "req-7", .status⟩

def idle : Sys MockBackend := ⟨⟨⟨.balanced, false, .mock⟩⟩, { moves := fun _ => {} }⟩

theorem served_whole : Served statusRequest [toLine statusRequest.toValue] idle :=
  (@served_iff _ _ textCodec textCodec_lawful statusRequest rfl (by decide +kernel) _
    (by decide +kernel) (by simp) idle).mpr (by simp)

theorem cut_dropped : ¬ ∀ (envelope : RequestEnvelope) (chunks : List (List UInt8))
    (s : Sys MockBackend), envelope.validateVersion = .ok () →
    (toLine envelope.toValue).length ≤ maxMessageSize → (∀ chunk ∈ chunks, chunk ≠ []) →
    chunks.flatten = toLine envelope.toValue → Served envelope chunks s := by
  intro h
  let line := toLine statusRequest.toValue
  have hcut : receive (read maxMessageSize [line.take 20, line.drop 20]) = none := by
    decide +kernel
  refine not_served_of_receive hcut (h statusRequest [line.take 20, line.drop 20] idle rfl
    (by decide +kernel) (by decide +kernel) ?_)
  simp [line]

end Example

end CerynthOS.Daemon
