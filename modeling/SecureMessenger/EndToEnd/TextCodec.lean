import SecureMessenger.Client.MessageCodec
import SecureMessenger.Server.Payloads

/-!
# Text through the codec

A text is encoded by one client, checked, stored and encoded again by the
server, and decoded by another client.
-/

namespace SecureMessenger
namespace EndToEnd

open Lib
open Lib.Base64 (Bytes)
open Client (ClientEnvelope DestinationDevice browserTextEncoding buildOutgoing decodeIncoming
  builtEnvelope)

/-- The envelope as the server receives it. -/
def envelopeRequest (envelope : ClientEnvelope) : Server.ClientEnvelopeRequest where
  recipient_device_id := envelope.recipient_device_id
  protocol_version := envelope.protocol_version
  envelope_type := envelope.envelope_type
  payload := envelope.payload

/-- The text is read from every envelope, as it was built and as the server
returns it. -/
def Survives (content : String) (devices : List DestinationDevice) : Prop :=
  ∃ envelopes, buildOutgoing browserTextEncoding content devices = .ok envelopes ∧
    envelopes.map (·.recipient_device_id) = devices.map (·.id) ∧
    ∀ envelope ∈ envelopes,
      decodeIncoming browserTextEncoding envelope = .ok content ∧
      ((browserTextEncoding.encodeUtf8 content).length ≤ 64 * 1024 →
        ∃ stored payload, Server.validate_envelope (envelopeRequest envelope) = .ok stored ∧
          Server.encode_payload (some stored) = some payload ∧
          decodeIncoming browserTextEncoding { envelope with payload := payload } = .ok content)

/-- The server returns the payload that it was sent. -/
theorem validate_built (content : String) (device : DestinationDevice)
    (hsize : (Utf8.encode content).length ≤ 64 * 1024) :
    Server.validate_envelope (envelopeRequest (builtEnvelope content device)) =
        .ok (Utf8.encode content) ∧
      Server.encode_payload (some (Utf8.encode content)) =
        some (builtEnvelope content device).payload :=
  ⟨Server.validate_envelope_encoding ⟨rfl, rfl⟩ hsize rfl, rfl⟩

/-- **When text survives the codec**: unless it begins with the character that
the decoder takes for a byte order mark. -/
theorem text_survives_iff (content : String) (devices : List DestinationDevice)
    (hplaintext : ∀ d ∈ devices, d.protocolVersion = 0) :
    Survives content devices ↔
      (devices ≠ [] → content.toList.head? ≠ some (Char.ofNat 0xFEFF)) := by
  have hbuilt : buildOutgoing browserTextEncoding content devices =
      .ok (devices.map (builtEnvelope content)) := Client.buildOutgoing_eq hplaintext
  constructor
  · rintro ⟨envelopes, hok, -, hdecoded⟩ hdevices
    rw [hbuilt, Except.ok.injEq] at hok
    obtain ⟨device, hdevice⟩ := List.exists_mem_of_ne_nil devices hdevices
    have henvelope : builtEnvelope content device ∈ envelopes :=
      hok ▸ List.mem_map_of_mem hdevice
    exact (Client.decodeIncoming_built_iff device).mp (hdecoded _ henvelope).1
  · intro hbom
    refine ⟨_, hbuilt, by rw [List.map_map]; rfl, fun envelope henvelope => ?_⟩
    obtain ⟨device, hdevice, rfl⟩ := List.mem_map.mp henvelope
    have hdecoded := (Client.decodeIncoming_built_iff device).mpr
      (hbom (List.ne_nil_of_mem hdevice))
    refine ⟨hdecoded, fun hsize => ?_⟩
    obtain ⟨hvalid, hencoded⟩ := validate_built content device hsize
    exact ⟨_, _, hvalid, hencoded, hdecoded⟩

theorem text_survives_iff_greeting :
    Survives "Hello" [⟨"bob-device-1", 0, none⟩, ⟨"bob-device-2", 0, none⟩] :=
  (text_survives_iff "Hello" _ (by decide)).mpr fun _ => by decide

/-- A text that begins with U+FEFF is read without it. -/
theorem byte_order_mark_is_lost :
    ¬ Survives (String.singleton (Char.ofNat 0xFEFF) ++ "hi") [⟨"bob-device-1", 0, none⟩] := by
  intro hsurvives
  obtain ⟨envelopes, hok, -, hdecoded⟩ := hsurvives
  have hbuilt : buildOutgoing browserTextEncoding (String.singleton Utf8.bom ++ "hi")
      [⟨"bob-device-1", 0, none⟩] =
        .ok ([⟨"bob-device-1", 0, none⟩].map
          (builtEnvelope (String.singleton Utf8.bom ++ "hi"))) :=
    Client.buildOutgoing_eq (by decide)
  obtain rfl : _ = envelopes := Except.ok.inj (hbuilt.symm.trans hok)
  have hread := (hdecoded _ List.mem_cons_self).1
  have hhead := (Client.decodeIncoming_built_iff _).mp hread
  simp [Utf8.bom] at hhead

end EndToEnd
end SecureMessenger
