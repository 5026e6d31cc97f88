import SecureMessenger.Server.MessageService

/-!
# Payloads

Which payloads `_validate_envelope` accepts.  The bound on the length of the
text is that of the bytes, the decoder is tolerant, and only a text that is the
encoding of its bytes passes the last check.
-/

namespace SecureMessenger
namespace Server

open Lib
open Lib.Base64 (Bytes b64encode b64decode)

/-- `EnvelopeResponse.encode_payload`. -/
def encode_payload (value : Option Bytes) : Option String :=
  value.map b64encode

section Payloads

variable {envelope : ClientEnvelopeRequest} {payload : Bytes}

/-- The protocol that this server knows. -/
def Supported (envelope : ClientEnvelopeRequest) : Prop :=
  envelope.protocol_version = PROTOCOL_VERSION_PLAINTEXT ∧
    envelope.envelope_type = PLAINTEXT_ENVELOPE_TYPE

/-- An accepted text is the encoding of what is stored. -/
theorem validate_envelope_ok (h : validate_envelope envelope = .ok payload) :
    Supported envelope ∧ payload.length ≤ MAX_ENVELOPE_PAYLOAD_BYTES ∧
      envelope.payload = b64encode payload := by
  unfold validate_envelope at h
  split_ifs at h with hprotocol hlong
  rw [not_or, not_not, not_not] at hprotocol
  cases hdecoded : b64decode envelope.payload with
  | none => simp [hdecoded] at h
  | some decoded =>
      simp only [hdecoded] at h
      split_ifs at h with hsize hcanonical
      obtain rfl := Except.ok.inj h
      exact ⟨hprotocol, not_lt.mp hsize, (not_not.mp hcanonical).symm⟩

/-- An encoding is not longer than the bound that is checked first. -/
theorem length_b64encode_le (h : payload.length ≤ MAX_ENVELOPE_PAYLOAD_BYTES) :
    (b64encode payload).length ≤ 4 * ((MAX_ENVELOPE_PAYLOAD_BYTES + 2) / 3) := by
  rw [Base64.length_b64encode]
  omega

/-- Every encoding of at most so many bytes is accepted. -/
theorem validate_envelope_encoding (hsupported : Supported envelope)
    (hsize : payload.length ≤ MAX_ENVELOPE_PAYLOAD_BYTES)
    (hpayload : envelope.payload = b64encode payload) :
    validate_envelope envelope = .ok payload := by
  have hprotocol : ¬ (envelope.protocol_version ≠ PROTOCOL_VERSION_PLAINTEXT ∨
      envelope.envelope_type ≠ PLAINTEXT_ENVELOPE_TYPE) := by
    rw [not_or, not_not, not_not]
    exact hsupported
  have hlong : ¬ envelope.payload.length > 4 * ((MAX_ENVELOPE_PAYLOAD_BYTES + 2) / 3) := by
    rw [hpayload]
    exact not_lt.mpr (length_b64encode_le hsize)
  have hdecoded : b64decode envelope.payload = some payload := by
    rw [hpayload, Base64.b64decode_b64encode]
  have hcanonical : ¬ b64encode payload ≠ envelope.payload := not_not.mpr hpayload.symm
  simp only [validate_envelope, if_neg hprotocol, if_neg hlong, hdecoded,
    if_neg (not_lt.mpr hsize), if_neg hcanonical]

/-- **The accepted payloads are the encodings of byte strings within the
limit**, and each is stored as that byte string. -/
theorem accepted_payloads :
    (∀ (envelope : ClientEnvelopeRequest) (payload : Bytes),
      validate_envelope envelope = .ok payload ↔
        (envelope.protocol_version = 0 ∧ envelope.envelope_type = "PLAINTEXT") ∧
          payload.length ≤ 65536 ∧ envelope.payload = b64encode payload) ∧
    (∀ (envelope envelope' : ClientEnvelopeRequest) (payload payload' : Bytes),
      validate_envelope envelope = .ok payload → validate_envelope envelope' = .ok payload' →
        envelope.payload ≠ envelope'.payload → payload ≠ payload') ∧
    ∀ (envelope : ClientEnvelopeRequest) (payload : Bytes),
      validate_envelope envelope = .ok payload →
        encode_payload (some payload) = some envelope.payload := by
  refine ⟨fun envelope payload => ⟨validate_envelope_ok, ?_⟩, ?_, ?_⟩
  · rintro ⟨hsupported, hsize, hpayload⟩
    exact validate_envelope_encoding hsupported hsize hpayload
  · intro envelope envelope' payload payload' h h' hne heq
    rw [(validate_envelope_ok h).2.2, (validate_envelope_ok h').2.2, heq] at hne
    exact hne rfl
  · intro envelope payload h
    rw [encode_payload, Option.map_some, (validate_envelope_ok h).2.2]

end Payloads

end Server
end SecureMessenger
