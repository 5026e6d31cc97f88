import SecureMessenger.Lib.Base64
import Mathlib.Data.List.Sort
import Mathlib.Data.String.Basic

/-!
# Server data model

The tables of `auth/models.py`, `chats/models.py` and `messages/models.py`
that message delivery and session handling read or write, and the queries of
the repositories as functions of a database.

A UUID is its canonical text; on canonical texts the order of strings is the
order of `uuid.int`.  A `datetime` is a number of microseconds.
-/

namespace SecureMessenger
namespace Server

open Lib.Base64 (Bytes)

/-- Canonical text of a UUID. -/
abbrev UUID := String

/-- A point in time, in microseconds. -/
abbrev Instant := Nat

/-- Table `users`. -/
structure User where
  id : UUID
  username : String
  password_hash : String
  status : String := "active"
deriving DecidableEq

/-- Table `devices`. -/
structure Device where
  id : UUID
  user_id : UUID
  name : String
  protocol_version : Nat := 0
  last_seen_at : Instant
  revoked_at : Option Instant := none
deriving DecidableEq

/-- Table `device_mailboxes`. -/
structure DeviceMailbox where
  device_id : UUID
  last_seq : Nat := 0
deriving DecidableEq

/-- Table `chats`. -/
structure Chat where
  id : UUID
  last_message_seq : Nat := 0
  type : String := "DIRECT"
deriving DecidableEq

/-- Table `direct_chat_pairs`. -/
structure DirectChatPair where
  chat_id : UUID
  user_low_id : UUID
  user_high_id : UUID
deriving DecidableEq

/-- Table `chat_members`. -/
structure ChatMember where
  chat_id : UUID
  user_id : UUID
deriving DecidableEq

/-- Table `chat_read_states`. -/
structure ChatReadState where
  chat_id : UUID
  user_id : UUID
  last_read_seq : Int := 0
  updated_at : Instant
deriving DecidableEq

/-- Table `messages`. -/
structure Message where
  id : UUID
  chat_id : UUID
  sender_user_id : UUID
  sender_device_id : UUID
  client_message_id : UUID
  chat_seq : Nat
  created_at : Instant
deriving DecidableEq

/-- Table `message_envelopes`. -/
structure Envelope where
  id : UUID
  message_id : UUID
  recipient_device_id : UUID
  recipient_user_id : UUID
  mailbox_seq : Nat
  protocol_version : Nat
  envelope_type : String
  payload : Option Bytes
  created_at : Instant
  expires_at : Instant
  delivered_at : Option Instant := none
  payload_purged_at : Option Instant := none
deriving DecidableEq

/-- Table `auth_sessions`. -/
structure AuthSession where
  id : UUID
  device_id : UUID
  refresh_token_hash : String
  refresh_cookie_bound : Bool := true
  last_used_at : Instant
  refresh_expires_at : Instant
  revoked_at : Option Instant := none
deriving DecidableEq

/-- Table `refresh_token_history`. -/
structure RefreshTokenHistory where
  token_hash : String
  auth_session_id : UUID
  consumed_at : Instant
deriving DecidableEq

/-- The database. -/
structure Db where
  users : List User := []
  devices : List Device := []
  mailboxes : List DeviceMailbox := []
  chats : List Chat := []
  pairs : List DirectChatPair := []
  messages : List Message := []
  envelopes : List Envelope := []
  sessions : List AuthSession := []
  tokenHistory : List RefreshTokenHistory := []
  members : List ChatMember := []
  readStates : List ChatReadState := []
deriving DecidableEq

/-- `Principal`. -/
structure Principal where
  user_id : UUID
  device_id : UUID
  session_id : UUID
deriving DecidableEq

/-- `StoredMessage`. -/
structure StoredMessage where
  message : Message
  envelopes : List Envelope
deriving DecidableEq

/-- `ReadState`. -/
structure ReadState where
  chat_id : UUID
  user_id : UUID
  last_read_seq : Int
  updated_at : Option Instant
deriving DecidableEq

/-- `DirectChatView`. -/
structure DirectChatView where
  chat : Chat
  other_user : User
deriving DecidableEq

/-- `SentMessagesPage`. -/
structure SentMessagesPage where
  messages : List StoredMessage
  next_message_id : Option UUID
  has_more : Bool
deriving DecidableEq

/-- A chat of `ChatStatesPage`, as `chat_states_response` returns it. -/
structure ChatState where
  chat_id : UUID
  last_message_seq : Nat
  read_states : List ReadState
deriving DecidableEq

/-- `ChatStatesPage`. -/
structure ChatStatesPage where
  states : List ChatState
  next_chat_id : Option UUID
  has_more : Bool
deriving DecidableEq

/-- `MailboxEntry`. -/
structure MailboxEntry where
  envelope : Envelope
  message : Message
deriving DecidableEq

/-- `MailboxPage`. -/
structure MailboxPage where
  entries : List MailboxEntry
  next_seq : Nat
  has_more : Bool
deriving DecidableEq

namespace Db

/-- The unique and primary keys of the tables. -/
def uniqueKeys (db : Db) : Prop :=
  (db.users.map (·.id)).Nodup ∧ (db.users.map (·.username)).Nodup ∧
    (db.devices.map (·.id)).Nodup ∧
    (db.mailboxes.map (·.device_id)).Nodup ∧ (db.chats.map (·.id)).Nodup ∧
    (db.pairs.map (·.chat_id)).Nodup ∧ (db.messages.map (·.id)).Nodup ∧
    (db.messages.map fun m => (m.chat_id, m.chat_seq)).Nodup ∧
    (db.messages.map fun m => (m.sender_device_id, m.client_message_id)).Nodup ∧
    (db.envelopes.map (·.id)).Nodup ∧
    (db.envelopes.map fun e => (e.message_id, e.recipient_device_id)).Nodup ∧
    (db.envelopes.map fun e => (e.recipient_device_id, e.mailbox_seq)).Nodup ∧
    (db.sessions.map (·.id)).Nodup ∧ (db.sessions.map (·.refresh_token_hash)).Nodup ∧
    (db.tokenHistory.map (·.token_hash)).Nodup ∧
    (db.pairs.map fun p => (p.user_low_id, p.user_high_id)).Nodup ∧
    (db.members.map fun m => (m.chat_id, m.user_id)).Nodup ∧
    (db.readStates.map fun r => (r.chat_id, r.user_id)).Nodup

instance (db : Db) : Decidable db.uniqueKeys :=
  inferInstanceAs (Decidable (_ ∧ _))

section UniqueKeys

variable {db : Db} (h : db.uniqueKeys)

include h

theorem uniqueKeys.devices : (db.devices.map (·.id)).Nodup :=
  h.2.2.1

theorem uniqueKeys.mailboxes : (db.mailboxes.map (·.device_id)).Nodup :=
  h.2.2.2.1

theorem uniqueKeys.chats : (db.chats.map (·.id)).Nodup :=
  h.2.2.2.2.1

theorem uniqueKeys.messages : (db.messages.map (·.id)).Nodup :=
  h.2.2.2.2.2.2.1

theorem uniqueKeys.clientMessages :
    (db.messages.map fun m => (m.sender_device_id, m.client_message_id)).Nodup :=
  h.2.2.2.2.2.2.2.2.1

theorem uniqueKeys.envelopes : (db.envelopes.map (·.id)).Nodup :=
  h.2.2.2.2.2.2.2.2.2.1

theorem uniqueKeys.sessions : (db.sessions.map (·.id)).Nodup :=
  h.2.2.2.2.2.2.2.2.2.2.2.2.1

theorem uniqueKeys.tokenHashes : (db.sessions.map (·.refresh_token_hash)).Nodup :=
  h.2.2.2.2.2.2.2.2.2.2.2.2.2.1

theorem uniqueKeys.tokenHistory : (db.tokenHistory.map (·.token_hash)).Nodup :=
  h.2.2.2.2.2.2.2.2.2.2.2.2.2.2.1

theorem uniqueKeys.pairUsers :
    (db.pairs.map fun p => (p.user_low_id, p.user_high_id)).Nodup :=
  h.2.2.2.2.2.2.2.2.2.2.2.2.2.2.2.1

theorem uniqueKeys.members : (db.members.map fun m => (m.chat_id, m.user_id)).Nodup :=
  h.2.2.2.2.2.2.2.2.2.2.2.2.2.2.2.2.1

theorem uniqueKeys.readStates : (db.readStates.map fun r => (r.chat_id, r.user_id)).Nodup :=
  h.2.2.2.2.2.2.2.2.2.2.2.2.2.2.2.2.2

end UniqueKeys

/-- The first query of `get_message_by_client_id`. -/
def messageByClientId (sender_device_id client_message_id : UUID) (db : Db) : Option Message :=
  db.messages.find? fun m =>
    decide (m.sender_device_id = sender_device_id ∧ m.client_message_id = client_message_id)

/-- `Message.envelopes`, in the order of the relationship. -/
def envelopesOf (message_id : UUID) (db : Db) : List Envelope :=
  (db.envelopes.filter fun e => decide (e.message_id = message_id)).insertionSort
    fun a b => a.recipient_device_id ≤ b.recipient_device_id

/-- The user is active. -/
def activeUser (user_id : UUID) (db : Db) : Bool :=
  db.users.any fun u => decide (u.id = user_id ∧ u.status = "active")

/-- `get_active_devices`. -/
def activeDevices (user_id : UUID) (db : Db) : List Device :=
  (db.devices.filter fun d =>
    decide (d.user_id = user_id ∧ d.revoked_at = none) && db.activeUser user_id).insertionSort
      fun a b => a.id ≤ b.id

/-- The chat is a direct one and `requester_id` is in its pair. -/
def directPair (requester_id chat_id : UUID) (db : Db) : Option DirectChatPair :=
  db.pairs.find? fun p =>
    decide (p.chat_id = chat_id ∧ (p.user_low_id = requester_id ∨ p.user_high_id = requester_id))
      && db.chats.any fun c => decide (c.id = chat_id ∧ c.type = "DIRECT")

/-- `get_other_user_id`. -/
def otherUserId (requester_id chat_id : UUID) (db : Db) : Option UUID :=
  (db.directPair requester_id chat_id).map fun p =>
    if p.user_low_id = requester_id then p.user_high_id else p.user_low_id

/-- `_authorized_direct_chat_statement` for one chat. -/
def directChat (requester_id chat_id : UUID) (db : Db) : Option DirectChatView :=
  match db.chats.find? fun c => decide (c.id = chat_id ∧ c.type = "DIRECT"),
    (db.otherUserId requester_id chat_id).bind fun id => db.users.find? fun u =>
      decide (u.id = id) with
  | some chat, some other_user => some ⟨chat, other_user⟩
  | _, _ => none

/-- The query of `lock_chat`. -/
def chatFor (requester_id chat_id : UUID) (db : Db) : Option Chat :=
  db.chats.find? fun c =>
    decide (c.id = chat_id ∧ c.type = "DIRECT") &&
      db.pairs.any fun p => decide (p.chat_id = c.id ∧
        (p.user_low_id = requester_id ∨ p.user_high_id = requester_id))

/-- `_pair_chat_id`. -/
def pairChatId (user_low_id user_high_id : UUID) (db : Db) : Option UUID :=
  (db.pairs.find? fun p =>
    decide (p.user_low_id = user_low_id ∧ p.user_high_id = user_high_id)).map (·.chat_id)

/-- The user is a member of the chat. -/
def isMember (chat_id user_id : UUID) (db : Db) : Bool :=
  db.members.any fun m => decide (m.chat_id = chat_id ∧ m.user_id = user_id)

/-- `peer_has_read`. -/
def peerHasRead (user_id : UUID) (message : Message) (db : Db) : Bool :=
  db.readStates.any fun r => decide (r.chat_id = message.chat_id ∧ r.user_id ≠ user_id ∧
    (message.chat_seq : Int) ≤ r.last_read_seq)

/-- `MessageRepository.sent_page`: the rows of one page and one more. -/
def sentRows (user_id : UUID) (after_message_id : Option UUID) (limit : Nat)
    (unread_only : Bool) (db : Db) : List Message :=
  ((db.messages.filter fun m =>
    decide (m.sender_user_id = user_id) && db.isMember m.chat_id user_id &&
      after_message_id.all (fun id => decide (id < m.id)) &&
      !(unread_only && db.peerHasRead user_id m)).insertionSort fun a b => a.id ≤ b.id).take
    (limit + 1)

/-- The chats of `states_page`: the rows of one page and one more. -/
def chatRows (user_id : UUID) (after_chat_id : Option UUID) (limit : Nat) (db : Db) :
    List Chat :=
  ((db.chats.filter fun c =>
    db.isMember c.id user_id &&
      after_chat_id.all (fun id => decide (id < c.id))).insertionSort fun a b => a.id ≤ b.id).take
    (limit + 1)

/-- The members of a chat, in the order of `chat_states_response`. -/
def membersOf (chat_id : UUID) (db : Db) : List ChatMember :=
  (db.members.filter fun m => decide (m.chat_id = chat_id)).insertionSort
    fun a b => a.user_id ≤ b.user_id

/-- `chat_position_exists`. -/
def chatPositionExists (chat_id : UUID) (chat_seq : Int) (db : Db) : Bool :=
  db.messages.any fun m => decide (m.chat_id = chat_id ∧ (m.chat_seq : Int) = chat_seq)

/-- `get_read_state`. -/
def readState (chat_id user_id : UUID) (db : Db) : Option ChatReadState :=
  db.readStates.find? fun r => decide (r.chat_id = chat_id ∧ r.user_id = user_id)

/-- The position the user has read the chat to; 0 where no row is stored. -/
def lastReadSeq (chat_id user_id : UUID) (db : Db) : Int :=
  ((db.readState chat_id user_id).map (·.last_read_seq)).getD 0

/-- The mailbox rows of some devices, in the order of `lock_mailboxes`. -/
def mailboxesOf (device_ids : List UUID) (db : Db) : List DeviceMailbox :=
  (db.mailboxes.filter fun m => decide (m.device_id ∈ device_ids)).insertionSort
    fun a b => a.device_id ≤ b.device_id

/-- `mailbox_page`: the rows of one page and one more to look ahead. -/
def mailboxRows (device_id : UUID) (after_seq limit : Nat) (db : Db) : List MailboxEntry :=
  (((db.envelopes.filter fun e =>
      decide (e.recipient_device_id = device_id ∧ after_seq < e.mailbox_seq)).insertionSort
        fun a b => a.mailbox_seq ≤ b.mailbox_seq).flatMap fun e =>
          (db.messages.filter fun m => decide (m.id = e.message_id)).map fun m => ⟨e, m⟩).take
    (limit + 1)

/-- The envelope addressed to a device. -/
def envelopeFor (device_id envelope_id : UUID) (db : Db) : Option Envelope :=
  db.envelopes.find? fun e =>
    decide (e.id = envelope_id ∧ e.recipient_device_id = device_id)

/-- An envelope whose payload is to be purged at `now`. -/
def expired (now : Instant) (e : Envelope) : Bool :=
  e.payload.isSome && decide (e.expires_at ≤ now)

/-- `values(payload=None, payload_purged_at=now)`. -/
def purged (now : Instant) (e : Envelope) : Envelope :=
  { e with payload := none, payload_purged_at := some now }

/-- The `values` of the acknowledging update. -/
def acknowledged (now : Instant) (e : Envelope) : Envelope :=
  { e with
    delivered_at := e.delivered_at.or (some now)
    payload := none
    payload_purged_at := e.payload_purged_at.or (some now) }

/-- `UPDATE message_envelopes SET f WHERE p`. -/
def updateEnvelopes (p : Envelope → Bool) (f : Envelope → Envelope) (db : Db) : Db :=
  { db with envelopes := db.envelopes.map fun e => if p e then f e else e }

/-- The envelopes `lock_expired_batch` selects before it takes their locks. -/
def expiredBatch (now : Instant) (batch_size : Nat) (locked : UUID → Bool) (db : Db) :
    List UUID :=
  (((db.envelopes.filter fun e => expired now e && !locked e.id).insertionSort
    fun a b => a.expires_at < b.expires_at ∨ (a.expires_at = b.expires_at ∧ a.id ≤ b.id)).take
      batch_size).map (·.id)

/-- The session with this refresh token hash. -/
def sessionByHash (token_hash : String) (db : Db) : Option AuthSession :=
  db.sessions.find? fun s => decide (s.refresh_token_hash = token_hash)

/-- The session by primary key. -/
def sessionById (id : UUID) (db : Db) : Option AuthSession :=
  db.sessions.find? fun s => decide (s.id = id)

/-- The session a consumed token belonged to. -/
def sessionByConsumed (token_hash : String) (db : Db) : Option AuthSession :=
  db.sessions.find? fun s =>
    db.tokenHistory.any fun h => decide (h.token_hash = token_hash ∧ h.auth_session_id = s.id)

/-- The device by primary key. -/
def deviceById (id : UUID) (db : Db) : Option Device :=
  db.devices.find? fun d => decide (d.id = id)

/-- The user by primary key. -/
def userById (id : UUID) (db : Db) : Option User :=
  db.users.find? fun u => decide (u.id = id)

/-- The user by name. -/
def userByName (username : String) (db : Db) : Option User :=
  db.users.find? fun u => decide (u.username = username)

/-- `UPDATE auth_sessions SET f WHERE p`. -/
def updateSessions (p : AuthSession → Bool) (f : AuthSession → AuthSession) (db : Db) : Db :=
  { db with sessions := db.sessions.map fun s => if p s then f s else s }

/-- `UPDATE devices SET f WHERE id = device_id`. -/
def updateDevice (device_id : UUID) (f : Device → Device) (db : Db) : Db :=
  { db with devices := db.devices.map fun d => if d.id = device_id then f d else d }

end Db

end Server
end SecureMessenger
