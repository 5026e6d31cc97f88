import SecureMessenger.Server.Sql

/-!
# MessageService

The functions of `messages/service.py` over `messages/repository.py` and
`chats/repository.py`.
-/

namespace SecureMessenger
namespace Server

open Lib
open Lib.Base64 (Bytes b64encode b64decode)

/-- `ClientEnvelopeRequest`. -/
structure ClientEnvelopeRequest where
  recipient_device_id : UUID
  protocol_version : Int
  envelope_type : String
  payload : String
deriving DecidableEq

/-- `SendMessageRequest`. -/
structure SendMessageRequest where
  chat_id : UUID
  client_message_id : UUID
  envelopes : List ClientEnvelopeRequest
deriving DecidableEq

/-- `PAYLOAD_RETENTION`: 45 days. -/
def PAYLOAD_RETENTION : Nat := 45 * 24 * 3600 * 1000000

def PROTOCOL_VERSION_PLAINTEXT : Int := 0

def PLAINTEXT_ENVELOPE_TYPE : String := "PLAINTEXT"

def MAX_ENVELOPE_PAYLOAD_BYTES : Nat := 64 * 1024

/-- An envelope that passed validation, with its decoded payload: one entry of
`supplied_by_device` and `decoded_payloads`. -/
structure Supplied where
  request : ClientEnvelopeRequest
  payload : Bytes
deriving DecidableEq

/-- `_validate_envelope`. -/
def validate_envelope (envelope : ClientEnvelopeRequest) : Except PyError Bytes :=
  if envelope.protocol_version ≠ PROTOCOL_VERSION_PLAINTEXT
      ∨ envelope.envelope_type ≠ PLAINTEXT_ENVELOPE_TYPE then
    .error (.invalidEnvelope "unsupported envelope protocol and type")
  else if envelope.payload.length > 4 * ((MAX_ENVELOPE_PAYLOAD_BYTES + 2) / 3) then
    .error (.invalidEnvelope "payload exceeds the maximum size")
  else
    match b64decode envelope.payload with
    | none => .error (.invalidEnvelope "payload must be valid base64")
    | some decoded =>
        if decoded.length > MAX_ENVELOPE_PAYLOAD_BYTES then
          .error (.invalidEnvelope "payload exceeds the maximum size")
        else if b64encode decoded ≠ envelope.payload then
          .error (.invalidEnvelope "payload must use canonical base64 encoding")
        else .ok decoded

/-- The loop of `_validate_envelopes`, with the entries collected so far. -/
def validate_envelopes (supplied : List Supplied) :
    List ClientEnvelopeRequest → Except PyError (List Supplied)
  | [] => .ok supplied
  | envelope :: rest =>
      if supplied.any fun s =>
          decide (s.request.recipient_device_id = envelope.recipient_device_id) then
        .error .duplicateDestination
      else
        match validate_envelope envelope with
        | .error x => .error x
        | .ok payload => validate_envelopes (supplied ++ [⟨envelope, payload⟩]) rest

/-- `get_message_by_client_id`: the message, then its envelopes. -/
def get_message_by_client_id (sender_device_id client_message_id : UUID) :
    Session (Option StoredMessage) := do
  match ← query (Db.messageByClientId sender_device_id client_message_id) with
  | none => return none
  | some message =>
      let envelopes ← query (Db.envelopesOf message.id)
      return some ⟨message, envelopes⟩

/-- `purge_expired_for_message`. -/
def purge_expired_for_message (message_id : UUID) (now : Instant) : Session Nat :=
  executeUpdate (fun e => decide (e.message_id = message_id) && Db.expired now e)
    (Db.purged now)

/-- `purge_expired_for_device`. -/
def purge_expired_for_device (device_id : UUID) (now : Instant) : Session Nat :=
  executeUpdate (fun e => decide (e.recipient_device_id = device_id) && Db.expired now e)
    (Db.purged now)

/-- `lookup`. -/
def lookup (principal : Principal) (client_message_id : UUID) :
    Session (Option StoredMessage) := do
  match ← get_message_by_client_id principal.device_id client_message_id with
  | none => return none
  | some existing =>
      let now ← utcNow
      let _ ← purge_expired_for_message existing.message.id now
      commit
      match ← get_message_by_client_id principal.device_id client_message_id with
      | none => Prog.throw (.mailboxInvariant "an idempotent message disappeared")
      | some refreshed => return some refreshed

/-- `MessageRepository.acknowledge`. -/
def acknowledge_envelope (device_id envelope_id : UUID) (now : Instant) :
    Session (Option (Envelope × UUID)) := do
  match ← selectLocked (fun e => .envelope e.id) .update
      (Db.envelopeFor device_id envelope_id) with
  | none => return none
  | some envelope =>
      write (Db.updateEnvelopes
        (fun e => decide (e.id = envelope_id ∧ e.recipient_device_id = device_id))
        (Db.acknowledged now))
      let sender ← query fun db =>
        (db.messages.find? fun m => decide (m.id = envelope.message_id)).map (·.sender_user_id)
      match sender with
      | none => Prog.throw (.valueError "assert sender_user_id is not None")
      | some sender_user_id => return some (Db.acknowledged now envelope, sender_user_id)

/-- Publish an event to each of some devices; failures are swallowed. -/
def publishAll : List UUID → Session Unit
  | [] => return ()
  | device_id :: rest => Prog.eff (.publish device_id) fun _ => publishAll rest

/-- `acknowledge`. -/
def acknowledge (principal : Principal) (envelope_id : UUID) : Session Envelope := do
  let now ← utcNow
  match ← acknowledge_envelope principal.device_id envelope_id now with
  | none => Prog.throw .envelopeNotFound
  | some (envelope, sender_user_id) =>
      let sender_devices ← query (Db.activeDevices sender_user_id)
      commit
      publishAll (sender_devices.map (·.id))
      return envelope

/-- `_recipient_devices`. -/
def recipient_devices (sender_device_id : UUID) (devices : List Device) : List Device :=
  (devices.filter fun d => decide (d.id ≠ sender_device_id)).insertionSort
    fun a b => a.id ≤ b.id

/-- `destination_devices`. -/
def destination_devices (principal : Principal) (chat_id : UUID) : Session (List Device) := do
  match ← query (Db.otherUserId principal.user_id chat_id) with
  | none => Prog.throw .chatNotFound
  | some other_user_id =>
      let devices ← query (Db.activeDevices other_user_id)
      let own ← query (Db.activeDevices principal.user_id)
      return recipient_devices principal.device_id (devices ++ own)

/-- `lock_device_set`. -/
def lock_device_set (user_id : UUID) : Session Bool := do
  let locked ← selectLocked (fun u : User => .user u.id) .share (Db.userById user_id)
  return locked.isSome

/-- The loop of `_lock_destination_mailboxes` over the two users. -/
def lock_device_sets : List UUID → Session Unit
  | [] => return ()
  | user_id :: rest => do
      if !(← lock_device_set user_id) then
        Prog.throw (.mailboxInvariant "a chat member has no user")
      lock_device_sets rest

/-- `lock_mailboxes`. -/
def lock_mailboxes (device_ids : List UUID) : Session (List DeviceMailbox) := do
  let ids ← query fun db => (db.mailboxesOf device_ids).map (·.device_id)
  lockAll .update (ids.map .mailbox)
  query fun db => (db.mailboxesOf device_ids).filter fun m => decide (m.device_id ∈ ids)

/-- Equality of two lists as sets. -/
def sameSet (xs ys : List UUID) : Bool :=
  xs.all (fun x => decide (x ∈ ys)) && ys.all fun y => decide (y ∈ xs)

/-- `sorted({a, b})`. -/
def sortedPair (a b : UUID) : List UUID :=
  if a = b then [a] else if a ≤ b then [a, b] else [b, a]

theorem mem_sortedPair {a b x : UUID} : x ∈ sortedPair a b ↔ x = a ∨ x = b := by
  unfold sortedPair
  split
  · rename_i h
    simp [h]
  · split
    · simp
    · simp [or_comm]

theorem sortedPair_pairwise (a b : UUID) : (sortedPair a b).Pairwise (· ≤ ·) := by
  unfold sortedPair
  split
  · simp
  · split
    · rename_i h
      simpa using h
    · rename_i h
      simpa using le_of_not_ge h

/-- `_lock_destination_mailboxes`. -/
def lock_destination_mailboxes (principal : Principal) (other_user_id : UUID)
    (supplied_device_ids : List UUID) :
    Session (List DeviceMailbox × List (UUID × UUID)) := do
  lock_device_sets (sortedPair other_user_id principal.user_id)
  let eligible_devices ← query (Db.activeDevices other_user_id)
  if eligible_devices.isEmpty then
    Prog.throw .deliveryTargetsChanged
  let own_devices ← query (Db.activeDevices principal.user_id)
  if !(own_devices.any fun d => decide (d.id = principal.device_id)) then
    Prog.throw .deliveryTargetsChanged
  let recipients := recipient_devices principal.device_id (eligible_devices ++ own_devices)
  let device_users := recipients.map fun d => (d.id, d.user_id)
  let eligible_ids := device_users.map (·.1)
  if !(sameSet supplied_device_ids eligible_ids) then
    Prog.throw .deliveryTargetsChanged
  let mailboxes ← lock_mailboxes eligible_ids
  if !(sameSet (mailboxes.map (·.device_id)) eligible_ids) then
    Prog.throw (.mailboxInvariant "an eligible device has no mailbox")
  return (mailboxes, device_users)

/-- The envelope `_create_envelopes` builds for one mailbox. -/
def newEnvelope (id : UUID) (message : Message) (mailbox : DeviceMailbox)
    (supplied : Supplied) (recipient_user_id : UUID) : Envelope where
  id := id
  message_id := message.id
  recipient_device_id := mailbox.device_id
  recipient_user_id := recipient_user_id
  mailbox_seq := mailbox.last_seq + 1
  protocol_version := supplied.request.protocol_version.toNat
  envelope_type := supplied.request.envelope_type
  payload := some supplied.payload
  created_at := message.created_at
  expires_at := message.created_at + PAYLOAD_RETENTION

/-- `_create_envelopes`. -/
def create_envelopes (message : Message) (supplied : List Supplied)
    (device_users : List (UUID × UUID)) : List DeviceMailbox → Session (List Envelope)
  | [] => return []
  | mailbox :: rest => do
      match supplied.find? (fun s =>
          decide (s.request.recipient_device_id = mailbox.device_id)),
        device_users.lookup mailbox.device_id with
      | some s, some user_id =>
          let id ← uuid4
          let envelopes ← create_envelopes message supplied device_users rest
          return newEnvelope id message mailbox s user_id :: envelopes
      | _, _ => Prog.throw (.valueError "KeyError")

/-- The rows a send writes: the counters as read and incremented, the message
and its envelopes. -/
def storeMessage (chat : Chat) (message : Message) (mailboxes : List DeviceMailbox)
    (envelopes : List Envelope) (db : Db) : Db :=
  { db with
    chats := db.chats.map fun c =>
      if c.id = chat.id then { c with last_message_seq := chat.last_message_seq + 1 } else c
    messages := db.messages ++ [message]
    mailboxes := db.mailboxes.map fun m =>
      match mailboxes.find? fun b => decide (b.device_id = m.device_id) with
      | some b => { m with last_seq := b.last_seq + 1 }
      | none => m
    envelopes := db.envelopes ++ envelopes }

/-- The `Message` of a send. -/
def newMessage (id : UUID) (principal : Principal) (request : SendMessageRequest)
    (chat : Chat) (now : Instant) : Message where
  id := id
  chat_id := request.chat_id
  sender_user_id := principal.user_id
  sender_device_id := principal.device_id
  client_message_id := request.client_message_id
  chat_seq := chat.last_message_seq + 1
  created_at := now

/-- The end of `send`: store, commit, and publish or return the winner. -/
def storeAndPublish (principal : Principal) (request : SendMessageRequest) (chat : Chat)
    (message : Message) (mailboxes : List DeviceMailbox) (envelopes : List Envelope) :
    Session StoredMessage := do
  write (storeMessage chat message mailboxes envelopes)
  match ← Prog.attempt commit with
  | .error .integrity =>
      rollback
      match ← get_message_by_client_id principal.device_id request.client_message_id with
      | none => Prog.throw .integrity
      | some winning => return winning
  | .error x => Prog.throw x
  | .ok () =>
      publishAll (envelopes.map (·.recipient_device_id))
      return ⟨message, envelopes⟩

/-- The part of `send` under the chat lock. -/
def sendLocked (principal : Principal) (request : SendMessageRequest) (other_user_id : UUID)
    (supplied : List Supplied) (chat : Chat) : Session StoredMessage := do
  match ← get_message_by_client_id principal.device_id request.client_message_id with
  | some existing =>
      commit
      return existing
  | none =>
      let (mailboxes, device_users) ← lock_destination_mailboxes principal other_user_id
        (supplied.map (·.request.recipient_device_id))
      let now ← utcNow
      let id ← uuid4
      let message := newMessage id principal request chat now
      let envelopes ← create_envelopes message supplied device_users mailboxes
      storeAndPublish principal request chat message mailboxes envelopes

/-- `lock_chat`. -/
def lock_chat (requester_id chat_id : UUID) : Session (Option Chat) :=
  selectLocked (fun c => .chat c.id) .update (Db.chatFor requester_id chat_id)

/-- `send`. -/
def send (principal : Principal) (request : SendMessageRequest) : Session StoredMessage := do
  match ← lookup principal request.client_message_id with
  | some existing => return existing
  | none =>
      match ← query (Db.otherUserId principal.user_id request.chat_id) with
      | none => Prog.throw .chatNotFound
      | some other_user_id =>
          let supplied ← Prog.ofExcept (validate_envelopes [] request.envelopes)
          match ← lock_chat principal.user_id request.chat_id with
          | none => Prog.throw .chatNotFound
          | some chat => sendLocked principal request other_user_id supplied chat

/-- The page `mailbox` builds from the rows it has read. -/
def mailboxPage (rows : List MailboxEntry) (after_seq limit : Nat) : MailboxPage :=
  let entries := rows.take limit
  { entries := entries
    next_seq := (entries.getLast?.map (·.envelope.mailbox_seq)).getD after_seq
    has_more := decide (rows.length > limit) }

/-- `mailbox`. -/
def mailbox (principal : Principal) (after_seq limit : Nat) : Session MailboxPage := do
  let now ← utcNow
  let _ ← purge_expired_for_device principal.device_id now
  let rows ← query (Db.mailboxRows principal.device_id after_seq limit)
  commit
  return mailboxPage rows after_seq limit

/-- `sent_page`: the messages, then their envelopes. -/
def sent_page (principal : Principal) (after_message_id : Option UUID) (limit : Nat)
    (unread_only : Bool) : Session SentMessagesPage := do
  let rows ← query (Db.sentRows principal.user_id after_message_id limit unread_only)
  let messages ← query fun db =>
    (rows.take limit).map fun m => (⟨m, db.envelopesOf m.id⟩ : StoredMessage)
  return {
    messages := messages
    next_message_id := ((rows.take limit).getLast?.map (·.id)).or after_message_id
    has_more := decide (rows.length > limit) }

/-- `purge_expired_batch`. -/
def purge_expired_batch (batch_size : Nat) (now : Option Instant) : Session Nat := do
  if batch_size < 1 then
    Prog.throw (.valueError "batch_size must be positive")
  let clock ← utcNow
  let purge_time := now.getD clock
  let ids ← Prog.eff (.lockFree (fun locked db => db.expiredBatch purge_time batch_size locked))
    fun (ids : List UUID) => .ret ids
  let purged ← if ids.isEmpty then pure 0 else
    executeUpdate (fun e => decide (e.id ∈ ids) && Db.expired purge_time e) (Db.purged purge_time)
  commit
  return purged

end Server
end SecureMessenger
