import SecureMessenger.Client.WebSocketManager
import SecureMessenger.Lib.JsonValue

/-!
# From JSON to client records

`web/src/shared/api/mappers.ts`: what the gateway makes of the body of a
response or of a frame.  A value that is `undefined` is a missing one.  An error
names the field and nothing of what was received.

Whether `Date.parse` returns a number is left to the parameter `parses`.
-/

namespace SecureMessenger
namespace Client
namespace Mappers

open Lib
open Socket (ServerEvent)

/-- A value that `JSON.parse` returns. -/
abbrev Json := JsonValue JsNumber

/-- The entries of an object. -/
abbrev Fields := List (String × Json)

section Primitives

/-- `invalid`. -/
def invalid {α : Type} (field : String) : Except JsError α :=
  .error (.error ("Invalid server response: " ++ field ++ "."))

/-- `object`. -/
def object : Option Json → Except JsError Fields
  | some (.object fields) => .ok fields
  | _ => invalid "object"

/-- `string`. -/
def string (field : String) : Option Json → Except JsError String
  | some (.string s) => .ok s
  | _ => invalid field

/-- `integer`. -/
def integer (field : String) : Option Json → Except JsError Nat
  | some (.number (.integer z)) =>
      if JsNumber.isSafeInteger (.integer z) ∧ 0 ≤ z then .ok z.toNat else invalid field
  | _ => invalid field

/-- `positiveInteger`. -/
def positiveInteger (field : String) (value : Option Json) : Except JsError Nat := do
  let result ← integer field value
  if 0 < result then return result else invalid field

/-- `boolean`. -/
def boolean (field : String) : Option Json → Except JsError Bool
  | some (.bool b) => .ok b
  | _ => invalid field

/-- The text matches a pattern in which `9` stands for any digit; what remains of it. -/
def matchPattern : List Char → List Char → Option (List Char)
  | [], text => some text
  | _ :: _, [] => none
  | p :: pattern, c :: text =>
      if (if p = '9' then c.isDigit else decide (c = p)) then matchPattern pattern text else none

/-- `(?:Z|[+-]\d{2}:\d{2})$`. -/
def matchZone : List Char → Bool
  | ['Z'] => true
  | '+' :: text => decide (matchPattern "99:99".toList text = some [])
  | '-' :: text => decide (matchPattern "99:99".toList text = some [])
  | _ => false

/-- `(?:\.\d+)?(?:Z|[+-]\d{2}:\d{2})$`. -/
def matchFraction : List Char → Bool
  | '.' :: c :: text => c.isDigit && matchZone (text.dropWhile Char.isDigit)
  | text => matchZone text

/-- The regular expression of `timestamp`. -/
def timestampPattern (text : String) : Bool :=
  match matchPattern "9999-99-99T99:99:99".toList text.toList with
  | some rest => matchFraction rest
  | none => false

theorem timestampPattern_nonempty {text : String} (h : timestampPattern text = true) :
    text ≠ "" := by
  rintro rfl
  cases h

variable (parses : String → Bool)

/-- The condition of `timestamp`. -/
def isTimestamp (text : String) : Bool :=
  timestampPattern text && parses text

theorem isTimestamp_nonempty {text : String} (h : isTimestamp parses text = true) : text ≠ "" :=
  timestampPattern_nonempty ((Bool.and_eq_true _ _).mp h).1

/-- `timestamp`. -/
def timestamp (field : String) (value : Option Json) : Except JsError Timestamp := do
  let text ← string field value
  if h : isTimestamp parses text = true then return ⟨text, isTimestamp_nonempty parses h⟩
  else invalid field

/-- `value === null ? null : read(value)`. -/
def nullable {α : Type} (read : Option Json → Except JsError α) :
    Option Json → Except JsError (Option α)
  | some .null => .ok none
  | value => do return some (← read value)

/-- `value === undefined ? undefined : read(value)`. -/
def optional {α : Type} (read : Option Json → Except JsError α) :
    Option Json → Except JsError (Option α)
  | none => .ok none
  | value => do return some (← read value)

/-- `mapList`. -/
def mapList {α : Type} (map : Option Json → Except JsError α) :
    Option Json → Except JsError (List α)
  | some (.array items) => items.mapM fun item => map (some item)
  | _ => invalid "array"

end Primitives

/-! ## The mappers -/

section Mappers

variable (parses : String → Bool)

/-- `validateUser`, then `userFromDto`. -/
def mapUser (value : Option Json) : Except JsError User := do
  let raw ← object value
  let id ← string "id" (JsonValue.entry "id" raw)
  let username ← string "username" (JsonValue.entry "username" raw)
  let status ← string "status" (JsonValue.entry "status" raw)
  let created_at ← timestamp parses "created_at" (JsonValue.entry "created_at" raw)
  return { id := id, username := username, status := status, createdAt := created_at.text }

/-- `raw.type !== 'DIRECT'`. -/
def directType : Option Json → Except JsError Unit
  | some (.string type) => if type = "DIRECT" then .ok () else invalid "type"
  | _ => invalid "type"

/-- `mapDirectChat`. -/
def mapDirectChat (value : Option Json) : Except JsError DirectChat := do
  let raw ← object value
  directType (JsonValue.entry "type" raw)
  let id ← string "id" (JsonValue.entry "id" raw)
  let created_at ← timestamp parses "created_at" (JsonValue.entry "created_at" raw)
  let other_user ← mapUser parses (JsonValue.entry "other_user" raw)
  return { id := id, createdAt := created_at.text, otherUser := other_user }

/-- `mapDestinationDevice`. -/
def mapDestinationDevice (value : Option Json) : Except JsError DestinationDevice := do
  let raw ← object value
  let id ← string "id" (JsonValue.entry "id" raw)
  let protocol_version ← integer "protocol_version" (JsonValue.entry "protocol_version" raw)
  let user_id ← string "user_id" (JsonValue.entry "user_id" raw)
  return { id := id, protocolVersion := protocol_version, userId := some user_id }

/-- `mapMessageEnvelope`. -/
def mapMessageEnvelope (value : Option Json) : Except JsError MessageEnvelope := do
  let dto ← object value
  let id ← string "id" (JsonValue.entry "id" dto)
  let message_id ← string "message_id" (JsonValue.entry "message_id" dto)
  let recipient_device_id ←
    string "recipient_device_id" (JsonValue.entry "recipient_device_id" dto)
  let recipient_user_id ← string "recipient_user_id" (JsonValue.entry "recipient_user_id" dto)
  let mailbox_seq ← integer "mailbox_seq" (JsonValue.entry "mailbox_seq" dto)
  let protocol_version ← integer "protocol_version" (JsonValue.entry "protocol_version" dto)
  let envelope_type ← string "envelope_type" (JsonValue.entry "envelope_type" dto)
  let payload ← nullable (string "payload") (JsonValue.entry "payload" dto)
  let created_at ← timestamp parses "created_at" (JsonValue.entry "created_at" dto)
  let expires_at ← timestamp parses "expires_at" (JsonValue.entry "expires_at" dto)
  let delivered_at ←
    nullable (timestamp parses "delivered_at") (JsonValue.entry "delivered_at" dto)
  let payload_purged_at ←
    nullable (timestamp parses "payload_purged_at") (JsonValue.entry "payload_purged_at" dto)
  return {
    id := id
    message_id := message_id
    recipient_device_id := recipient_device_id
    recipient_user_id := some recipient_user_id
    mailbox_seq := .integer mailbox_seq
    protocol_version := protocol_version
    envelope_type := envelope_type
    payload := payload
    created_at := created_at.text
    expires_at := expires_at.text
    delivered_at := delivered_at
    payload_purged_at := payload_purged_at }

/-- `mapSentMessage`. -/
def mapSentMessage (value : Option Json) : Except JsError SentMessage := do
  let raw ← object value
  let id ← string "id" (JsonValue.entry "id" raw)
  let chat_id ← string "chat_id" (JsonValue.entry "chat_id" raw)
  let chat_seq ← positiveInteger "chat_seq" (JsonValue.entry "chat_seq" raw)
  let sender_user_id ← string "sender_user_id" (JsonValue.entry "sender_user_id" raw)
  let sender_device_id ← string "sender_device_id" (JsonValue.entry "sender_device_id" raw)
  let client_message_id ← string "client_message_id" (JsonValue.entry "client_message_id" raw)
  let created_at ← timestamp parses "created_at" (JsonValue.entry "created_at" raw)
  let envelopes ← mapList (mapMessageEnvelope parses) (JsonValue.entry "envelopes" raw)
  return {
    id := id
    chatId := chat_id
    chatSeq := some chat_seq
    senderUserId := sender_user_id
    senderDeviceId := sender_device_id
    clientMessageId := client_message_id
    createdAt := created_at.text
    envelopes := envelopes }

/-- `mapMailboxEnvelope`. -/
def mapMailboxEnvelope (value : Option Json) : Except JsError MailboxEnvelope := do
  let dto ← object value
  let envelope ← mapMessageEnvelope parses (some (.object dto))
  let chat_id ← string "chat_id" (JsonValue.entry "chat_id" dto)
  let chat_seq ← positiveInteger "chat_seq" (JsonValue.entry "chat_seq" dto)
  let sender_user_id ← string "sender_user_id" (JsonValue.entry "sender_user_id" dto)
  let sender_device_id ← string "sender_device_id" (JsonValue.entry "sender_device_id" dto)
  let client_message_id ← string "client_message_id" (JsonValue.entry "client_message_id" dto)
  let message_created_at ←
    timestamp parses "message_created_at" (JsonValue.entry "message_created_at" dto)
  return {
    toMessageEnvelope := envelope
    chat_id := chat_id
    chat_seq := some chat_seq
    sender_user_id := sender_user_id
    sender_device_id := sender_device_id
    client_message_id := client_message_id
    message_created_at := message_created_at.text
    properties := mailboxProperties }

/-- `mapMailboxPage`. -/
def mapMailboxPage (value : Option Json) : Except JsError MailboxPage := do
  let raw ← object value
  let envelopes ← mapList (mapMailboxEnvelope parses) (JsonValue.entry "envelopes" raw)
  let next_seq ← integer "next_seq" (JsonValue.entry "next_seq" raw)
  let has_more ← boolean "has_more" (JsonValue.entry "has_more" raw)
  return { envelopes := envelopes, nextSeq := .integer next_seq, hasMore := has_more }

/-- `mapChatReadCursor`. -/
def mapChatReadCursor (value : Option Json) : Except JsError ChatReadCursor := do
  let dto ← object value
  let chatId ← string "chat_id" (JsonValue.entry "chat_id" dto)
  let userId ← string "user_id" (JsonValue.entry "user_id" dto)
  let lastReadSeq ← integer "last_read_seq" (JsonValue.entry "last_read_seq" dto)
  let updatedAt ← nullable (timestamp parses "updated_at") (JsonValue.entry "updated_at" dto)
  return {
    chatId := chatId
    userId := userId
    lastReadSeq := .integer lastReadSeq
    updatedAt := updatedAt }

/-- The states of `mapChatStatesPage`. -/
def mapChatState (value : Option Json) : Except JsError ChatStatesEntry := do
  let state ← object value
  let chatId ← string "chat_id" (JsonValue.entry "chat_id" state)
  let lastMessageSeq ← integer "last_message_seq" (JsonValue.entry "last_message_seq" state)
  let readStates ← mapList (mapChatReadCursor parses) (JsonValue.entry "read_states" state)
  return { chatId := chatId, lastMessageSeq := lastMessageSeq, readStates := readStates }

/-- `mapChatStatesPage`. -/
def mapChatStatesPage (value : Option Json) : Except JsError ChatStatesPage := do
  let dto ← object value
  let states ← mapList (mapChatState parses) (JsonValue.entry "states" dto)
  let nextChatId ← nullable (string "next_chat_id") (JsonValue.entry "next_chat_id" dto)
  let hasMore ← boolean "has_more" (JsonValue.entry "has_more" dto)
  return { states := states, nextChatId := nextChatId, hasMore := hasMore }

/-- `mapSentMessagesPage`. -/
def mapSentMessagesPage (value : Option Json) : Except JsError SentMessagesPage := do
  let dto ← object value
  let messages ← mapList (mapSentMessage parses) (JsonValue.entry "messages" dto)
  let nextMessageId ← nullable (string "next_message_id") (JsonValue.entry "next_message_id" dto)
  let hasMore ← boolean "has_more" (JsonValue.entry "has_more" dto)
  return { messages := messages, nextMessageId := nextMessageId, hasMore := hasMore }

/-- The error of an event. -/
def mapEventError (dto : Fields) : Except JsError ServerEvent := do
  let error ← object (JsonValue.entry "error" dto)
  let request_id ← optional (string "request_id") (JsonValue.entry "request_id" dto)
  let code ← string "code" (JsonValue.entry "code" error)
  let message ← string "message" (JsonValue.entry "message" error)
  let status ← integer "status" (JsonValue.entry "status" error)
  return .error request_id message status code

/-- The cases of `mapServerEvent`. -/
def mapEventOf (dto : Fields) (type : String) : Except JsError ServerEvent :=
  if type = "chat.read.updated" then do
    let request_id ← optional (string "request_id") (JsonValue.entry "request_id" dto)
    let data ← mapChatReadCursor parses (JsonValue.entry "data" dto)
    return .chatReadUpdated request_id data
  else if type = "auth.ok" then
    return .authOk
  else if type = "message.new" then do
    return .messageNew (← mapMailboxEnvelope parses (JsonValue.entry "data" dto))
  else if type = "message.delivered" then do
    let request_id ← optional (string "request_id") (JsonValue.entry "request_id" dto)
    let data ← mapMessageEnvelope parses (JsonValue.entry "data" dto)
    return .messageDelivered request_id data
  else if type = "message.accepted" then do
    let request_id ← string "request_id" (JsonValue.entry "request_id" dto)
    let data ← mapSentMessage parses (JsonValue.entry "data" dto)
    return .messageAccepted request_id data
  else if type = "sync.response" then do
    let request_id ← string "request_id" (JsonValue.entry "request_id" dto)
    let data ← mapMailboxPage parses (JsonValue.entry "data" dto)
    return .syncResponse request_id data
  else if type = "error" then
    mapEventError dto
  else invalid "event type"

/-- `mapServerEvent`. -/
def mapServerEvent (value : Option Json) : Except JsError ServerEvent := do
  let dto ← object value
  match JsonValue.entry "type" dto with
  | some (.string type) => mapEventOf parses dto type
  | _ => invalid "event type"

end Mappers

end Mappers
end Client
end SecureMessenger
