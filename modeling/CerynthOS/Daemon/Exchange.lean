import CerynthOS.Daemon.Connection

/-! One exchange of a client and the daemon.

    The client sends a line, reads one line back and takes for granted that it is a response. The
    daemon answers the requests it supports. The others it only reports to its own log, so that the
    client finds nothing to read. -/

namespace CerynthOS.Daemon
open Ipc Json Lines

/-- How `send_request` ends when the socket itself does not fail. -/
inductive Exchange where
  | ok (response : ResponseEnvelope)
  | panicked
  deriving DecidableEq

section Exchange
variable {B : Type} [Backend B] [Codec]

/-- `send_request` after it has sent its line: it reads a line and unwraps what that decodes to. -/
def receiveResponse (written : Option (List UInt8)) : Exchange :=
  match (Frame.fromLine (readUntil 10 (written.getD [])) : Option ResponseEnvelope) with
  | some response => .ok response
  | none => .panicked

/-- The bytes are a request of a supported version. -/
def Supported (bytes : List UInt8) : Prop :=
  ∃ envelope, decodeRequest bytes = some envelope ∧ envelope.validateVersion = .ok ()

/-- The bytes that one read returns are answered with one response, an error if they are no
    supported request; then nothing is touched; and the client gets a response. -/
structure Answered (bytes : List UInt8) (s : Sys B) : Prop where
  written : ∃ response : ResponseEnvelope,
    (handleConnection [bytes] s).1 = some (encodeResponse response) ∧
      (¬ Supported bytes → ∃ message, response.response = .error message)
  untouched : ¬ Supported bytes → (handleConnection [bytes] s).2 = s
  client : receiveResponse (handleConnection [bytes] s).1 ≠ .panicked

variable {bytes : List UInt8} {s : Sys B}

theorem receive_isSome (hne : bytes ≠ []) : (receive bytes).isSome ↔ Supported bytes := by
  rw [receive, if_neg (mt List.length_eq_zero_iff.mp hne), Supported]
  cases decodeRequest bytes with
  | none => simp
  | some envelope => cases h : envelope.validateVersion <;> simp [h]

/-- What is no supported request is not answered, and nothing is touched. -/
theorem handleConnection_unsupported (hne : bytes ≠ []) (hlen : bytes.length ≤ maxMessageSize)
    (h : ¬ Supported bytes) : handleConnection [bytes] s = (none, s) := by
  rw [← receive_isSome hne, Option.not_isSome_iff_eq_none] at h
  rw [handleConnection, read, List.take_of_length_le hlen, h]

theorem handleConnection_supported (hne : bytes ≠ []) (hlen : bytes.length ≤ maxMessageSize)
    (h : Supported bytes) :
    ∃ response, (handleConnection [bytes] s).1 = some (encodeResponse response) := by
  rw [← receive_isSome hne, Option.isSome_iff_exists] at h
  obtain ⟨envelope, henvelope⟩ := h
  refine ⟨.forRequest envelope (.ofResponse (serve envelope.request.toRequest s).1), ?_⟩
  rw [handleConnection, read, List.take_of_length_le hlen, henvelope]
  rfl

variable [LawfulCodec]

theorem receiveResponse_encodeResponse (response : ResponseEnvelope) :
    receiveResponse (some (encodeResponse response)) = .ok response := by
  have hline : readUntil 10 (encodeResponse response) = Frame.toLine response := by
    have h := readUntil_line (Frame.isLine_toLine response) []
    rwa [List.append_nil] at h
  rw [receiveResponse, Option.getD_some, hline, Frame.fromLine_toLine]

/-- The bytes of one read are answered exactly when they are a request of a supported version. -/
theorem answered_iff (bytes : List UInt8) (hne : bytes ≠ []) (hlen : bytes.length ≤ maxMessageSize)
    (s : Sys B) : Answered bytes s ↔ Supported bytes := by
  constructor
  · intro h
    by_contra hs
    obtain ⟨response, hwritten, -⟩ := h.written
    rw [handleConnection_unsupported hne hlen hs] at hwritten
    cases hwritten
  · intro hs
    obtain ⟨response, hwritten⟩ := handleConnection_supported (s := s) hne hlen hs
    refine ⟨⟨response, hwritten, fun h => absurd hs h⟩, fun h => absurd hs h, ?_⟩
    rw [hwritten, receiveResponse_encodeResponse]
    exact fun h => Exchange.noConfusion h

end Exchange

section Example
local instance exchangeCodec : Codec := textCodec

theorem answered_status : Answered (toLine statusRequest.toValue) idle :=
  (@answered_iff _ _ textCodec textCodec_lawful (toLine statusRequest.toValue)
    (by decide +kernel) (by decide +kernel) idle).mpr ⟨statusRequest, by decide +kernel, rfl⟩

/-- A request of a version to come. -/
def futureRequest : RequestEnvelope := ⟨3, none, .status⟩

theorem version_unanswered : ¬ ∀ (bytes : List UInt8) (s : Sys MockBackend), bytes ≠ [] →
    bytes.length ≤ maxMessageSize → Answered bytes s := by
  intro h
  have hs : ¬ Supported (toLine futureRequest.toValue) := by
    rw [← receive_isSome (by decide +kernel)]
    decide +kernel
  refine (h (toLine futureRequest.toValue) idle (by decide +kernel) (by decide +kernel)).client ?_
  rw [handleConnection_unsupported (by decide +kernel) (by decide +kernel) hs]
  decide +kernel

end Example

end CerynthOS.Daemon
