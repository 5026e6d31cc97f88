import SecureMessenger.Client.Contracts
import SecureMessenger.Lib.Utf8

/-!
# PlaintextMessageCodec

`messageCodec.ts` over `browserTextEncoding` of `platform/messaging.ts`.  A
JavaScript string without lone surrogates is a string of characters; the binary
strings between `btoa` and `atob` are the bytes they stand for.
-/

namespace SecureMessenger
namespace Client

open Lib
open Lib.Base64 (Bytes)

/-- `TextEncoding`; `none` is an exception. -/
structure TextEncoding where
  encodeUtf8 : String → Bytes
  decodeUtf8 : Bytes → Option String
  encodeBase64 : Bytes → String
  decodeBase64 : String → Option Bytes

/-- `browserTextEncoding`. -/
def browserTextEncoding : TextEncoding where
  encodeUtf8 := Utf8.encode
  decodeUtf8 := Utf8.decode
  encodeBase64 := Base64.b64encode
  decodeBase64 := Base64.atob

def PLAINTEXT_PROTOCOL_VERSION : Nat := 0

def PLAINTEXT_ENVELOPE_TYPE : String := "PLAINTEXT"

section Codec

variable (encoding : TextEncoding)

/-- `PlaintextMessageCodec.buildOutgoing`. -/
def buildOutgoing (logicalContent : String) (destinationDevices : List DestinationDevice) :
    Except JsError (List ClientEnvelope) :=
  let payload := encoding.encodeBase64 (encoding.encodeUtf8 logicalContent)
  destinationDevices.mapM fun device =>
    if device.protocolVersion ≠ PLAINTEXT_PROTOCOL_VERSION then
      .error (.error ("Device " ++ device.id ++ " does not support plaintext messaging."))
    else .ok
      { recipient_device_id := device.id
        protocol_version := PLAINTEXT_PROTOCOL_VERSION
        envelope_type := PLAINTEXT_ENVELOPE_TYPE
        payload := payload }

/-- `PlaintextMessageCodec.decodeIncoming`. -/
def decodeIncoming (envelope : ClientEnvelope) : Except JsError String :=
  if envelope.protocol_version ≠ PLAINTEXT_PROTOCOL_VERSION ∨
      envelope.envelope_type ≠ PLAINTEXT_ENVELOPE_TYPE then
    .error (.error ("Unsupported message envelope: " ++ toString envelope.protocol_version ++ "/" ++
      envelope.envelope_type ++ "."))
  else
    match encoding.decodeBase64 envelope.payload >>= encoding.decodeUtf8 with
    | some content => .ok content
    | none => .error (.error "The message payload is not valid UTF-8 plaintext.")

end Codec

/-- The envelope that is built for a device. -/
def builtEnvelope (content : String) (device : DestinationDevice) : ClientEnvelope where
  recipient_device_id := device.id
  protocol_version := PLAINTEXT_PROTOCOL_VERSION
  envelope_type := PLAINTEXT_ENVELOPE_TYPE
  payload := Base64.b64encode (Utf8.encode content)

section Browser

variable {content : String} {devices : List DestinationDevice}

/-- One envelope for each device. -/
theorem buildOutgoing_eq (h : ∀ d ∈ devices, d.protocolVersion = 0) :
    buildOutgoing browserTextEncoding content devices =
      .ok (devices.map (builtEnvelope content)) := by
  unfold buildOutgoing
  induction devices with
  | nil => rfl
  | cons d rest ih =>
      have hd : d.protocolVersion = PLAINTEXT_PROTOCOL_VERSION := h d List.mem_cons_self
      have ih := ih fun d' hd' => h d' (List.mem_cons_of_mem _ hd')
      rw [List.mapM_cons, if_neg (not_not.mpr hd)]
      simp only at ih
      rw [ih]
      rfl

/-- **What is read of an envelope that was built.** -/
theorem decodeIncoming_built (device : DestinationDevice) :
    decodeIncoming browserTextEncoding (builtEnvelope content device) =
      match Utf8.decode (Utf8.encode content) with
      | some text => .ok text
      | none => .error (.error "The message payload is not valid UTF-8 plaintext.") := by
  unfold decodeIncoming
  rw [if_neg (by simp [builtEnvelope])]
  simp only [builtEnvelope, browserTextEncoding, Base64.atob_b64encode]
  rfl

theorem decodeIncoming_built_iff (device : DestinationDevice) :
    decodeIncoming browserTextEncoding (builtEnvelope content device) = .ok content ↔
      content.toList.head? ≠ some Utf8.bom := by
  rw [decodeIncoming_built, ← Utf8.decode_encode_iff]
  cases Utf8.decode (Utf8.encode content) with
  | none => simp
  | some text => simp

end Browser

end Client
end SecureMessenger
