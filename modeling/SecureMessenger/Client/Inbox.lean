import SecureMessenger.Client.Contracts
import SecureMessenger.Lib.Json
import SecureMessenger.Lib.Store
import Mathlib.Data.String.Basic

/-!
# The IndexedDB durable inbox

`IndexedDBDurableInbox` of `platform/durableInbox.ts`.  An operation is one
IndexedDB transaction: a function from the database to either an exception,
with the database as it was (the transaction aborts), or a result and the new
database.  Records carry the denormalised index fields the adapter maintains.
-/

namespace SecureMessenger
namespace Client

open Lib

/-- `Stored<T>`: a record with its primary key and index fields. -/
structure Stored (α : Type) where
  key : String
  scope : String
  value : α
  pending : Option String := none
  message : Option (List String) := none
  history : Option (List String) := none
deriving DecidableEq

/-- Values of the `cursors` store: a mailbox cursor or the flag of a finished
sequence backfill. -/
inductive CursorValue
  | seq (n : ℤ)
  | done
deriving DecidableEq

/-- The object stores. -/
structure Database where
  identity : Option DurableDeviceIdentity := none
  envelopes : List (Stored MailboxEnvelope) := []
  outgoing : List (Stored OutgoingCommand) := []
  chats : List (Stored DirectChat) := []
  cursors : List (Stored CursorValue) := []
  receipts : List (Stored MessageEnvelope) := []
  readStates : List (Stored ChatReadState) := []
  sentMetadata : List (Stored SentMessage) := []

/-- Outcome of one transaction. -/
abbrev Transaction (α : Type) := Database → Except JsError (α × Database)

/-- `scopeKey`. -/
def scopeKey (scope : InboxScope) : String :=
  Json.stringify [scope.userId, scope.deviceId, scope.generation]

/-- The primary key `record` builds. -/
def recordKey (scope id : String) : String :=
  Json.stringify [scope, id]

/-- `record`. -/
def record {α : Type} (scope id : String) (value : α) : Stored α :=
  { key := recordKey scope id, scope := scope, value := value }

/-- `indexedRecord` on an envelope. -/
def indexedEnvelope (entry : Stored MailboxEnvelope) : Stored MailboxEnvelope :=
  { entry with
    pending :=
      if entry.value.payload.isSome ∧ entry.value.delivered_at = none
      then some entry.scope else none
    history := some [entry.scope, entry.value.chat_id,
      entry.value.message_created_at, "envelope:" ++ entry.value.id] }

/-- `indexedRecord` on an outgoing command. -/
def indexedOutgoing (entry : Stored OutgoingCommand) : Stored OutgoingCommand :=
  { entry with
    pending :=
      match entry.value.accepted with
      | none => some entry.scope
      | some accepted =>
          if accepted.envelopes = [] ∨
              accepted.envelopes.any (fun item => item.delivered_at.isNone)
          then some entry.scope else none
    message := entry.value.accepted.map fun accepted => [entry.scope, accepted.id]
    history := some [entry.scope, entry.value.command.chat_id,
      (entry.value.createdAt.or (entry.value.accepted.map (·.createdAt))).getD "",
      "outgoing:" ++ entry.value.command.client_message_id] }

/-- `mergeDeliveryMetadata`. -/
def mergeDeliveryMetadata (envelope : MessageEnvelope)
    (prior : Option MessageEnvelope) : MessageEnvelope :=
  { envelope with
    delivered_at := envelope.delivered_at.or (prior.bind (·.delivered_at))
    payload_purged_at :=
      envelope.payload_purged_at.or (prior.bind (·.payload_purged_at)) }

/-- `mergeReceipt`. -/
def mergeReceipt (envelope : MessageEnvelope)
    (receipt : Option MessageEnvelope) : MessageEnvelope :=
  match receipt with
  | none => envelope
  | some receipt =>
      if receipt.message_id ≠ envelope.message_id ∨
          receipt.recipient_device_id ≠ envelope.recipient_device_id
      then envelope
      else
        { envelope with
          delivered_at := envelope.delivered_at.or receipt.delivered_at
          payload_purged_at :=
            envelope.payload_purged_at.or receipt.payload_purged_at }

/-- White space of `String.prototype.trim`. -/
def isSpace (c : Char) : Bool :=
  c.toNat ∈ [9, 10, 11, 12, 13, 32, 160, 5760, 8232, 8233, 8239, 8287, 12288, 65279]
    || (8192 ≤ c.toNat && c.toNat ≤ 8202)

/-- UTF-16 code units, which is what string comparison goes by. -/
def utf16Units (s : String) : List Nat :=
  s.toList.flatMap fun c =>
    if c.toNat < 65536 then [c.toNat]
    else [55296 + (c.toNat - 65536) / 1024, 56320 + (c.toNat - 65536) % 1024]

/-- Length in UTF-16 code units. -/
def utf16Length (s : String) : Nat :=
  (s.toList.map fun c => if c.toNat < 65536 then 1 else 2).sum

/-- A hexadecimal digit, in either case. -/
def isHex (c : Char) : Bool :=
  ('0' ≤ c && c ≤ '9') || ('a' ≤ c && c ≤ 'f') || ('A' ≤ c && c ≤ 'F')

/-- What `UUID_PATTERN` allows at position `i`. -/
def uuidCharAt (i : Nat) (c : Char) : Bool :=
  if i ∈ [8, 13, 18, 23] then c = '-'
  else if i = 14 then '1' ≤ c && c ≤ '8'
  else if i = 19 then c ∈ ['8', '9', 'a', 'b', 'A', 'B']
  else isHex c

/-- `UUID_PATTERN.test`. -/
def isUuid (s : String) : Bool :=
  s.toList.length = 36 && (s.toList.zipIdx.all fun p => uuidCharAt p.2 p.1)

/-- `isDeviceIdentity`, on a value with string fields. -/
def isDeviceIdentity (value : DurableDeviceIdentity) : Bool :=
  isUuid value.id
    && value.name.toList.any (fun c => !isSpace c)
    && decide (utf16Length value.name ≤ 100)

/-- `IndexedDBDurableInbox.identity`. -/
def identity (db : Database) : Option DurableDeviceIdentity :=
  db.identity.filter fun value =>
    isDeviceIdentity value && decide (value.generation ≠ "")

/-- The scope matches the stored identity; what `validate` checks. -/
def valid (scope : InboxScope) (db : Database) : Bool :=
  match identity db with
  | none => false
  | some value =>
      decide (value.id = scope.deviceId ∧ value.generation = scope.generation)

/-- `validate`. -/
def validate (scope : InboxScope) (db : Database) : Except JsError Unit :=
  if valid scope db then .ok ()
  else .error (.client "Local device generation changed" .local_generation_changed)

/-- The mailbox cursor stored under a scope key, `0` if there is none. -/
def cursorAt (key : String) (db : Database) : ℤ :=
  match Store.get Stored.key key db.cursors with
  | some ⟨_, _, .seq n, _, _, _⟩ => n
  | _ => 0

/-- The stored copy of an envelope. -/
def envelopeAt (scope : InboxScope) (id : String)
    (store : List (Stored MailboxEnvelope)) : Option MailboxEnvelope :=
  (Store.get Stored.key (recordKey (scopeKey scope) id) store).map Stored.value

/-- Comparison of `snapshot`'s sort: a difference that is no number counts as
`0`. -/
def bySeq (a b : MailboxEnvelope) : Bool :=
  match a.mailbox_seq, b.mailbox_seq with
  | .integer m, .integer n => decide (m ≤ n)
  | _, _ => true

/-- `snapshot`. -/
def snapshot (scope : InboxScope) : Transaction InboxSnapshot := fun db => do
  validate scope db
  let key := scopeKey scope
  let envelopes := (db.envelopes.filter fun entry => decide (entry.scope = key)).map Stored.value
  let outgoing := (db.outgoing.filter fun entry => decide (entry.scope = key)).map Stored.value
  let chats := (db.chats.filter fun entry => decide (entry.scope = key)).map Stored.value
  return (⟨cursorAt key db, envelopes.mergeSort bySeq, outgoing, chats⟩, db)

/-- `readCursor`. -/
def readCursor (scope : InboxScope) : Transaction ℤ := fun db => do
  validate scope db
  return (cursorAt (scopeKey scope) db, db)

/-- `getPendingAcknowledgments`. -/
def getPendingAcknowledgments (scope : InboxScope) :
    Transaction (List MailboxEnvelope) := fun db => do
  validate scope db
  return ((db.envelopes.filter fun entry =>
    decide (entry.pending = some (scopeKey scope))).map Stored.value, db)

/-- `getOutgoingToRecover`. -/
def getOutgoingToRecover (scope : InboxScope) :
    Transaction (List OutgoingCommand) := fun db => do
  validate scope db
  return ((db.outgoing.filter fun entry =>
    decide (entry.pending = some (scopeKey scope))).map Stored.value, db)

/-- The name of a property. -/
def EnvelopeProperty.name : EnvelopeProperty → String
  | id => "id"
  | message_id => "message_id"
  | recipient_device_id => "recipient_device_id"
  | recipient_user_id => "recipient_user_id"
  | mailbox_seq => "mailbox_seq"
  | protocol_version => "protocol_version"
  | envelope_type => "envelope_type"
  | payload => "payload"
  | created_at => "created_at"
  | expires_at => "expires_at"
  | delivered_at => "delivered_at"
  | payload_purged_at => "payload_purged_at"
  | chat_id => "chat_id"
  | chat_seq => "chat_seq"
  | sender_user_id => "sender_user_id"
  | sender_device_id => "sender_device_id"
  | client_message_id => "client_message_id"
  | message_created_at => "message_created_at"

/-- The JSON value of a number; one that is not finite is written as `null`. -/
def JsNumber.scalar : JsNumber → Json.Scalar
  | integer z => .number z
  | other => .null

/-- The JSON value of a nullable string. -/
def nullableText : Option String → Json.Scalar
  | none => .null
  | some s => .string s

namespace MailboxEnvelope

/-- The value of a property, `none` if it is `undefined`. -/
def value (e : MailboxEnvelope) : EnvelopeProperty → Option Json.Scalar
  | .id => some (.string e.id)
  | .message_id => some (.string e.message_id)
  | .recipient_device_id => some (.string e.recipient_device_id)
  | .recipient_user_id => e.recipient_user_id.map .string
  | .mailbox_seq => some e.mailbox_seq.scalar
  | .protocol_version => some (.number e.protocol_version)
  | .envelope_type => some (.string e.envelope_type)
  | .payload => some (nullableText e.payload)
  | .created_at => some (.string e.created_at)
  | .expires_at => some (.string e.expires_at)
  | .delivered_at => some (nullableText (e.delivered_at.map (·.text)))
  | .payload_purged_at => some (nullableText (e.payload_purged_at.map (·.text)))
  | .chat_id => some (.string e.chat_id)
  | .chat_seq => e.chat_seq.map fun n : ℕ => .number n
  | .sender_user_id => some (.string e.sender_user_id)
  | .sender_device_id => some (.string e.sender_device_id)
  | .client_message_id => some (.string e.client_message_id)
  | .message_created_at => some (.string e.message_created_at)

/-- The properties with a value, in their order. -/
def shown (e : MailboxEnvelope) : List EnvelopeProperty :=
  (assignProperties e.properties mailboxProperties).filter fun p => (e.value p).isSome

/-- `JSON.stringify`: properties that are `undefined` are left out. -/
def text (e : MailboxEnvelope) : String :=
  Json.stringifyObject (e.shown.filterMap fun p => (e.value p).map fun v => (p.name, v))

end MailboxEnvelope

/-- The properties `commitPage` assigns over those of the envelope. -/
def mergedProperties : List EnvelopeProperty :=
  [.chat_seq, .payload, .delivered_at, .payload_purged_at]

/-- The value `commitPage` stores for an envelope over the stored copy. -/
def mergeEnvelope (existing : Option MailboxEnvelope)
    (envelope : MailboxEnvelope) : MailboxEnvelope :=
  { envelope with
    chat_seq := envelope.chat_seq.or (existing.bind (·.chat_seq))
    payload := envelope.payload.or (existing.bind (·.payload))
    delivered_at := envelope.delivered_at.or (existing.bind (·.delivered_at))
    payload_purged_at :=
      envelope.payload_purged_at.or (existing.bind (·.payload_purged_at))
    properties := assignProperties envelope.properties mergedProperties }

/-- The loop of `commitPage` over the envelopes. -/
def commitEnvelopes (scope : InboxScope) :
    List MailboxEnvelope → List (Stored MailboxEnvelope) →
      Except JsError (List MailboxEnvelope × List (Stored MailboxEnvelope))
  | [], store => .ok ([], store)
  | envelope :: rest, store =>
      if envelope.recipient_device_id ≠ scope.deviceId then
        .error (.error "Envelope belongs to another device")
      else
        let existing := envelopeAt scope envelope.id store
        let value := mergeEnvelope existing envelope
        if existing.map (·.text) = some value.text then commitEnvelopes scope rest store
        else
          match commitEnvelopes scope rest
              (Store.put Stored.key
                (indexedEnvelope (record (scopeKey scope) envelope.id value)) store) with
          | .error x => .error x
          | .ok (changes, store') => .ok (value :: changes, store')

/-- The `cursors` store with the mailbox cursor of a scope key set. -/
def putCursor (key : String) (n : ℤ) (db : Database) : Database :=
  { db with
    cursors := Store.put Stored.key { key := key, scope := key, value := .seq n } db.cursors }

/-- `commitPage`. -/
def commitPage (scope : InboxScope) (expectedCursor : ℤ)
    (envelopes : List MailboxEnvelope) (nextCursor : JsNumber) :
    Transaction (List MailboxEnvelope) := fun db =>
  match nextCursor with
  | .other => .error (.error "Invalid mailbox cursor")
  | .integer next =>
      if nextCursor.isSafeInteger = false ∨ next < expectedCursor then
        .error (.error "Invalid mailbox cursor")
      else do
        validate scope db
        if cursorAt (scopeKey scope) db ≠ expectedCursor then
          throw (.error "Mailbox cursor changed")
        let (changes, store) ← commitEnvelopes scope envelopes db.envelopes
        return (changes, putCursor (scopeKey scope) next { db with envelopes := store })

/-- The stored row of an outgoing command. -/
def outgoingAt (scope : InboxScope) (clientMessageId : String) (db : Database) :
    Option (Stored OutgoingCommand) :=
  Store.get Stored.key (recordKey (scopeKey scope) clientMessageId) db.outgoing

/-- `getOutgoing`. -/
def getOutgoing (scope : InboxScope) (clientMessageId : String) :
    Transaction (Option OutgoingCommand) := fun db => do
  validate scope db
  return ((outgoingAt scope clientMessageId db).map Stored.value, db)

/-- Lookup in the `message` index of the outgoing store. -/
def outgoingByMessage (scope : InboxScope) (messageId : String) (db : Database) :
    Option (Stored OutgoingCommand) :=
  db.outgoing.find? fun entry =>
    decide (entry.message = some [scopeKey scope, messageId])

/-- `put` into the outgoing store; the `message` index is unique, so a second
row with the same accepted message aborts the transaction. -/
def putOutgoingRow (entry : Stored OutgoingCommand) (db : Database) :
    Except JsError Database :=
  if entry.message.isSome ∧
      db.outgoing.any (fun other =>
        decide (other.key ≠ entry.key ∧ other.message = entry.message)) then
    .error (.error "ConstraintError")
  else .ok { db with outgoing := Store.put Stored.key entry db.outgoing }

/-- `putOutgoing`; `now` is `new Date().toISOString()`. -/
def putOutgoing (scope : InboxScope) (command : SendMessageRequest)
    (replaceRejected : Bool) (now : String) : Transaction OutgoingCommand := fun db => do
  validate scope db
  let value : OutgoingCommand := ⟨command, none, some now⟩
  match outgoingAt scope command.client_message_id db with
  | none =>
      let db' ← putOutgoingRow (indexedOutgoing
        (record (scopeKey scope) command.client_message_id value)) db
      return (value, db')
  | some existing =>
      if replaceRejected then
        if existing.value.accepted.isSome then
          throw (.error "Accepted outgoing command cannot be replaced")
        if existing.value.command.chat_id ≠ command.chat_id then
          throw (.error "Outgoing command belongs to another chat")
        let value := { value with createdAt := some (existing.value.createdAt.getD "") }
        let db' ← putOutgoingRow (indexedOutgoing
          (record (scopeKey scope) command.client_message_id value)) db
        return (value, db')
      else if existing.value.command ≠ command then
        throw (.error "Outgoing command is immutable")
      else return (existing.value, db)

/-- A parked delivery receipt. -/
def receiptAt (scope : InboxScope) (envelopeId : String)
    (receipts : List (Stored MessageEnvelope)) : Option MessageEnvelope :=
  (Store.get Stored.key (recordKey (scopeKey scope) envelopeId) receipts).map Stored.value

/-- The loop of `acceptOutgoing`: merge the previous acceptance and the parked
receipt into each envelope, and consume the receipt. -/
def acceptEnvelopes (scope : InboxScope) (prior : Option SentMessage) :
    List MessageEnvelope → List (Stored MessageEnvelope) →
      List MessageEnvelope × List (Stored MessageEnvelope)
  | [], receipts => ([], receipts)
  | envelope :: rest, receipts =>
      let previous := prior.bind fun message =>
        message.envelopes.find? fun item => decide (item.id = envelope.id)
      let merged := mergeReceipt (mergeDeliveryMetadata envelope previous)
        (receiptAt scope envelope.id receipts)
      let (merges, receipts') := acceptEnvelopes scope prior rest
        (Store.delete Stored.key (recordKey (scopeKey scope) envelope.id) receipts)
      (merged :: merges, receipts')

/-- `acceptOutgoing`. -/
def acceptOutgoing (scope : InboxScope) (message : SentMessage) :
    Transaction OutgoingCommand := fun db => do
  validate scope db
  if message.senderDeviceId ≠ scope.deviceId ∨ message.senderUserId ≠ scope.userId then
    throw (.error "Accepted message belongs to another sender")
  match outgoingAt scope message.clientMessageId db with
  | none => throw (.error "Missing durable outgoing command")
  | some existing =>
      if existing.value.command.chat_id ≠ message.chatId then
        throw (.error "Accepted message belongs to another chat")
      let prior := existing.value.accepted
      let createdAt := (existing.value.createdAt.or (prior.map (·.createdAt))).getD ""
      let (envelopes, receipts) :=
        acceptEnvelopes scope prior message.envelopes db.receipts
      let accepted : SentMessage :=
        { message with
          chatSeq := message.chatSeq.or (prior.bind (·.chatSeq))
          envelopes := envelopes }
      let value : OutgoingCommand :=
        { existing.value with createdAt := some createdAt, accepted := some accepted }
      let db' ← putOutgoingRow (indexedOutgoing { existing with value := value })
        { db with receipts := receipts }
      return (value, db')

/-- The stored sent metadata of a message. -/
def metadataAt (scope : InboxScope) (messageId : String) (db : Database) :
    Option (Stored SentMessage) :=
  Store.get Stored.key (recordKey (scopeKey scope) messageId) db.sentMetadata

/-- `getSentMetadata`. -/
def getSentMetadata (scope : InboxScope) (messageId : String) :
    Transaction (Option SentMessage) := fun db => do
  validate scope db
  return ((metadataAt scope messageId db).map Stored.value, db)

/-- Merge a receipt into the envelope it is for. -/
def applyReceipt (receipt item : MessageEnvelope) : MessageEnvelope :=
  if item.id = receipt.id then mergeReceipt item (some receipt) else item

/-- The first write of `applyDeliveryReceipt`: the sent metadata. -/
def applyReceiptToMetadata (scope : InboxScope) (receipt : MessageEnvelope)
    (db : Database) : Database :=
  match metadataAt scope receipt.message_id db with
  | none => db
  | some metadata =>
      { db with
        sentMetadata := Store.put Stored.key
          { metadata with
            value := { metadata.value with
              envelopes := metadata.value.envelopes.map (applyReceipt receipt) } }
          db.sentMetadata }

/-- Park a receipt whose acceptance is not stored yet. -/
def putReceipt (scope : InboxScope) (receipt : MessageEnvelope) (db : Database) :
    Database :=
  { db with
    receipts := Store.put Stored.key (record (scopeKey scope) receipt.id receipt) db.receipts }

/-- `applyDeliveryReceipt`. -/
def applyDeliveryReceipt (scope : InboxScope) (receipt : MessageEnvelope) :
    Transaction (Option OutgoingCommand) := fun db => do
  if receipt.delivered_at = none then
    throw (.error "Invalid delivery receipt")
  validate scope db
  let db := applyReceiptToMetadata scope receipt db
  let park := putReceipt scope receipt db
  match outgoingByMessage scope receipt.message_id db with
  | none => return (none, park)
  | some entry =>
      match entry.value.accepted with
      | none => return (none, park)
      | some accepted =>
          let envelopes := accepted.envelopes.map (applyReceipt receipt)
          if envelopes = accepted.envelopes then
            return (none, db)
          let value := { entry.value with
            accepted := some { accepted with envelopes := envelopes } }
          let db' ← putOutgoingRow (indexedOutgoing { entry with value := value }) db
          return (some value, db')

/-- The merged envelope `mergeSentMetadata` stores: the stored metadata comes
before the accepted copy, the parked receipt last; the payload is dropped. -/
def mergeSentEnvelope (scope : InboxScope) (prior accepted : Option SentMessage)
    (receipts : List (Stored MessageEnvelope)) (envelope : MessageEnvelope) :
    MessageEnvelope :=
  let sameId := fun (message : SentMessage) =>
    message.envelopes.find? fun item => decide (item.id = envelope.id)
  { mergeReceipt
      (mergeDeliveryMetadata envelope ((prior.bind sameId).or (accepted.bind sameId)))
      (receiptAt scope envelope.id receipts) with
    payload := none }

/-- Store the metadata of a sent message. -/
def putMetadata (scope : InboxScope) (message : SentMessage) (db : Database) :
    Database :=
  { db with
    sentMetadata :=
      Store.put Stored.key (record (scopeKey scope) message.id message) db.sentMetadata }

/-- `mergeSentMetadata`. -/
def mergeSentMetadata (scope : InboxScope) (message : SentMessage) :
    Transaction SentMessage := fun db => do
  validate scope db
  if message.senderUserId ≠ scope.userId then
    throw (.error "Metadata belongs to another sender")
  let prior := (metadataAt scope message.id db).map Stored.value
  let outgoing := outgoingByMessage scope message.id db
  let accepted := outgoing.bind (·.value.accepted)
  let value := { message with
    envelopes := message.envelopes.map
      (mergeSentEnvelope scope prior accepted db.receipts) }
  let db := putMetadata scope value db
  match outgoing with
  | none => return (value, db)
  | some entry =>
      let db' ← putOutgoingRow (indexedOutgoing
        { entry with value := { entry.value with accepted := some value } }) db
      return (value, db')

/-- Name of the flag record in the `cursors` store. -/
def backfillId : String := "sequence-backfill-v7"

/-- `needsSequenceBackfill`. -/
def needsSequenceBackfill (scope : InboxScope) : Transaction Bool := fun db => do
  validate scope db
  return ((Store.get Stored.key (recordKey (scopeKey scope) backfillId) db.cursors).isNone, db)

/-- `finishSequenceBackfill`. -/
def finishSequenceBackfill (scope : InboxScope) : Transaction Unit := fun db => do
  validate scope db
  let cursors := Store.put Stored.key (record (scopeKey scope) backfillId .done) db.cursors
  return ((), { db with cursors := cursors })

/-- `readChatReadStates`. -/
def readChatReadStates (scope : InboxScope) :
    Transaction (List ChatReadState) := fun db => do
  validate scope db
  return ((db.readStates.filter fun entry =>
    decide (entry.scope = scopeKey scope)).map Stored.value, db)

/-- `updateReadState`. -/
def updateReadState (scope : InboxScope) (chatId : String)
    (update : ChatReadState → ChatReadState) : Transaction ChatReadState := fun db => do
  validate scope db
  let prior := Store.get Stored.key (recordKey (scopeKey scope) chatId) db.readStates
  let value := update ((prior.map Stored.value).getD ⟨chatId, 0, 0, 0⟩)
  let readStates :=
    Store.put Stored.key (record (scopeKey scope) chatId value) db.readStates
  return (value, { db with readStates := readStates })

/-- `mergeChatReadCursor`. -/
def mergeChatReadCursor (scope : InboxScope) (cursor : ChatReadCursor) :
    Transaction ChatReadState := fun db =>
  match cursor.lastReadSeq with
  | .other => .error (.error "Invalid read cursor")
  | .integer seq =>
      if cursor.lastReadSeq.isSafeInteger = false ∨ seq < 0 then
        .error (.error "Invalid read cursor")
      else updateReadState scope cursor.chatId (fun state =>
        if cursor.userId = scope.userId then
          { state with
            ownLocalReadSeq := max state.ownLocalReadSeq seq
            ownConfirmedReadSeq := max state.ownConfirmedReadSeq seq }
        else { state with peerLastReadSeq := max state.peerLastReadSeq seq }) db

end Client
end SecureMessenger
