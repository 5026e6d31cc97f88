import Mathlib.Data.Int.Basic
import Mathlib.Tactic.TypeStar

/-!
# Client data model

The records of `protocol/contracts.ts`, `domain/models.ts`, `domain/errors.ts`
and `ports/durableInbox.ts` that the messaging core passes around.  Optional
and nullable fields are `Option`s; the operator `??` of the source is
`Option.or`.
-/

namespace SecureMessenger
namespace Client

/-- A JavaScript number as far as the sync code looks at one: an integer
value, or something else (`NaN`, an infinity, a fraction), which is never a
safe integer and never equals an integer. -/
inductive JsNumber
  | integer (z : ℤ)
  | other
deriving DecidableEq

namespace JsNumber

/-- `Number.MAX_SAFE_INTEGER`. -/
def maxSafeInteger : ℤ := 9007199254740991

/-- `Number.isSafeInteger`. -/
def isSafeInteger : JsNumber → Bool
  | integer z => decide (-maxSafeInteger ≤ z ∧ z ≤ maxSafeInteger)
  | other => false

end JsNumber

/-- A timestamp text that passed the gateway's `timestamp` check; such a text
is never empty, hence truthy. -/
structure Timestamp where
  text : String
  nonempty : text ≠ ""
deriving DecidableEq

/-- A string that may be missing counts as true if it is neither missing nor
empty. -/
def isTruthy : Option String → Bool
  | none => false
  | some s => decide (s ≠ "")

/-- `ClientErrorCode`. -/
inductive ClientErrorCode
  | device_revoked
  | local_generation_changed
  | delivery_targets_changed
  | no_recipient_devices
  | session_expired
  | invalid_credentials
  | network_error
  | delivery_unconfirmed
  | forbidden
  | not_found
  | conflict
  | validation_error
  | server_error
  | invalid_response
  | request_failed
deriving DecidableEq

/-- What a rejected promise carries: a plain `Error` or a `ClientError`. -/
inductive JsError
  | error (message : String)
  | client (message : String) (code : ClientErrorCode)
deriving DecidableEq

/-- `ClientEnvelope`. -/
structure ClientEnvelope where
  recipient_device_id : String
  protocol_version : Nat
  envelope_type : String
  payload : String
deriving DecidableEq

/-- `SendMessageRequest`. -/
structure SendMessageRequest where
  chat_id : String
  client_message_id : String
  envelopes : List ClientEnvelope
deriving DecidableEq

/-- `MessageEnvelope`. -/
structure MessageEnvelope where
  id : String
  message_id : String
  recipient_device_id : String
  recipient_user_id : Option String
  mailbox_seq : JsNumber
  protocol_version : Nat
  envelope_type : String
  payload : Option String
  created_at : String
  expires_at : String
  delivered_at : Option Timestamp
  payload_purged_at : Option Timestamp
deriving DecidableEq

/-- The properties of a `MailboxEnvelope`. -/
inductive EnvelopeProperty
  | id
  | message_id
  | recipient_device_id
  | recipient_user_id
  | mailbox_seq
  | protocol_version
  | envelope_type
  | payload
  | created_at
  | expires_at
  | delivered_at
  | payload_purged_at
  | chat_id
  | chat_seq
  | sender_user_id
  | sender_device_id
  | client_message_id
  | message_created_at
deriving DecidableEq

/-- The properties of a `MessageEnvelope`, in the order of `mapMessageEnvelope`. -/
def messageProperties : List EnvelopeProperty :=
  [.id, .message_id, .recipient_device_id, .recipient_user_id, .mailbox_seq, .protocol_version,
    .envelope_type, .payload, .created_at, .expires_at, .delivered_at, .payload_purged_at]

/-- The properties of a `MailboxEnvelope`, in the order of `mapMailboxEnvelope`. -/
def mailboxProperties : List EnvelopeProperty :=
  messageProperties ++
    [.chat_id, .chat_seq, .sender_user_id, .sender_device_id, .client_message_id,
      .message_created_at]

/-- The properties of an object after an assignment: a new one comes last. -/
def assignProperties (properties names : List EnvelopeProperty) : List EnvelopeProperty :=
  properties ++ names.filter fun name => decide (name ∉ properties)

/-- `MailboxEnvelope`.  An object has its properties in the order in which they
were assigned; that order is part of its JSON text. -/
structure MailboxEnvelope extends MessageEnvelope where
  chat_id : String
  chat_seq : Option Nat
  sender_user_id : String
  sender_device_id : String
  client_message_id : String
  message_created_at : String
  properties : List EnvelopeProperty := mailboxProperties
deriving DecidableEq

/-- `MailboxPage`. -/
structure MailboxPage where
  envelopes : List MailboxEnvelope
  nextSeq : JsNumber
  hasMore : Bool
deriving DecidableEq

/-- `SentMessage`. -/
structure SentMessage where
  id : String
  chatId : String
  chatSeq : Option Nat
  senderUserId : String
  senderDeviceId : String
  clientMessageId : String
  createdAt : String
  envelopes : List MessageEnvelope
deriving DecidableEq

/-- `SentMessagesPage`. -/
structure SentMessagesPage where
  messages : List SentMessage
  nextMessageId : Option String
  hasMore : Bool
deriving DecidableEq

/-- `User`. -/
structure User where
  id : String
  username : String
  status : String
  createdAt : String
deriving DecidableEq

/-- `DirectChat`; its `type` is the constant `DIRECT`. -/
structure DirectChat where
  id : String
  createdAt : String
  otherUser : User
deriving DecidableEq

/-- `DestinationDevice`. -/
structure DestinationDevice where
  id : String
  protocolVersion : Nat
  userId : Option String
deriving DecidableEq

/-- `ChatReadCursor`. -/
structure ChatReadCursor where
  chatId : String
  userId : String
  lastReadSeq : JsNumber
  updatedAt : Option Timestamp
deriving DecidableEq

/-- `ChatReadState`. -/
structure ChatReadState where
  chatId : String
  ownLocalReadSeq : ℤ
  ownConfirmedReadSeq : ℤ
  peerLastReadSeq : ℤ
deriving DecidableEq

/-- One entry of a `ChatStatesPage`. -/
structure ChatStatesEntry where
  chatId : String
  lastMessageSeq : Nat
  readStates : List ChatReadCursor
deriving DecidableEq

/-- `ChatStatesPage`. -/
structure ChatStatesPage where
  states : List ChatStatesEntry
  nextChatId : Option String
  hasMore : Bool
deriving DecidableEq

/-- `InboxScope`. -/
structure InboxScope where
  userId : String
  deviceId : String
  generation : String
deriving DecidableEq

/-- `DeviceIdentity`. -/
structure DeviceIdentity where
  id : String
  name : String
deriving DecidableEq

/-- `DurableDeviceIdentity`. -/
structure DurableDeviceIdentity where
  id : String
  name : String
  generation : String
deriving DecidableEq

/-- `OutgoingCommand`. -/
structure OutgoingCommand where
  command : SendMessageRequest
  accepted : Option SentMessage
  createdAt : Option String
deriving DecidableEq

/-- `InboxSnapshot`. -/
structure InboxSnapshot where
  cursor : ℤ
  envelopes : List MailboxEnvelope
  outgoing : List OutgoingCommand
  chats : List DirectChat

/-- `ChatHistoryCursor`. -/
structure ChatHistoryCursor where
  createdAt : String
  id : String
deriving DecidableEq

/-- `ChatHistoryPage`. -/
structure ChatHistoryPage where
  envelopes : List MailboxEnvelope
  outgoing : List OutgoingCommand
  nextBefore : Option ChatHistoryCursor

/-- `deliveryState(...).status`; `read` is never produced by it. -/
inductive DeliveryStatus
  | pending
  | accepted
  | delivered
deriving DecidableEq

/-- One element of `deliveryState(...).deliveries`. -/
structure Delivery where
  deviceId : String
  deliveredAt : Option Timestamp
deriving DecidableEq

/-- `deliveryState`: what the accepted copy of a command says about its
delivery. -/
def deliveryState : Option SentMessage → DeliveryStatus × Option (List Delivery)
  | none => (.pending, none)
  | some accepted =>
      (if accepted.envelopes.any (fun item =>
            decide (item.recipient_user_id ≠ some accepted.senderUserId)
              && item.delivered_at.isSome)
          then .delivered else .accepted,
        some (accepted.envelopes.map fun item =>
          ⟨item.recipient_device_id, item.delivered_at⟩))

end Client
end SecureMessenger
