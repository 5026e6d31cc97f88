import SecureMessenger.Server.Alone
import SecureMessenger.Lib.Numbering
import Mathlib.Data.Prod.Lex

/-!
# The migration to chat sequences

Revision 0008 numbers the messages of each chat, counts them in the chat, and
writes the owner of the recipient device into each envelope.  A database that
meets the constraints of revision 0007 is upgraded, and the upgraded database
has the sequences that a send continues.
-/

namespace SecureMessenger
namespace Server

open Lib

/-! ## Revision 0007 -/

/-- Table `chats`. -/
structure Chat7 where
  id : UUID
  type : String := "DIRECT"
deriving DecidableEq

/-- Table `messages`. -/
structure Message7 where
  id : UUID
  chat_id : UUID
  sender_user_id : UUID
  sender_device_id : UUID
  client_message_id : UUID
  created_at : Instant
deriving DecidableEq

/-- Table `message_envelopes`. -/
structure Envelope7 where
  id : UUID
  message_id : UUID
  recipient_device_id : UUID
  mailbox_seq : Nat
  protocol_version : Nat
  envelope_type : String
  payload : Option Lib.Base64.Bytes
  created_at : Instant
  expires_at : Instant
  delivered_at : Option Instant := none
  payload_purged_at : Option Instant := none
deriving DecidableEq

/-- The database. -/
structure Db7 where
  users : List User := []
  devices : List Device := []
  mailboxes : List DeviceMailbox := []
  chats : List Chat7 := []
  pairs : List DirectChatPair := []
  messages : List Message7 := []
  envelopes : List Envelope7 := []
  sessions : List AuthSession := []
  tokenHistory : List RefreshTokenHistory := []
  members : List ChatMember := []
deriving DecidableEq

namespace Db7

/-- The keys and references of the schema. -/
structure Valid (db : Db7) : Prop where
  users : (db.users.map (·.id)).Nodup
  usernames : (db.users.map (·.username)).Nodup
  devices : (db.devices.map (·.id)).Nodup
  mailboxes : (db.mailboxes.map (·.device_id)).Nodup
  chats : (db.chats.map (·.id)).Nodup
  pairs : (db.pairs.map (·.chat_id)).Nodup
  pairUsers : (db.pairs.map fun p => (p.user_low_id, p.user_high_id)).Nodup
  members : (db.members.map fun m => (m.chat_id, m.user_id)).Nodup
  messages : (db.messages.map (·.id)).Nodup
  clientMessages : (db.messages.map fun m => (m.sender_device_id, m.client_message_id)).Nodup
  envelopes : (db.envelopes.map (·.id)).Nodup
  recipients : (db.envelopes.map fun e => (e.message_id, e.recipient_device_id)).Nodup
  mailboxSeqs : (db.envelopes.map fun e => (e.recipient_device_id, e.mailbox_seq)).Nodup
  sessions : (db.sessions.map (·.id)).Nodup
  tokenHashes : (db.sessions.map (·.refresh_token_hash)).Nodup
  tokenHistory : (db.tokenHistory.map (·.token_hash)).Nodup
  message_chat : ∀ m ∈ db.messages, m.chat_id ∈ db.chats.map (·.id)
  envelope_message : ∀ e ∈ db.envelopes, e.message_id ∈ db.messages.map (·.id)
  envelope_device : ∀ e ∈ db.envelopes, e.recipient_device_id ∈ db.devices.map (·.id)
  device_user : ∀ d ∈ db.devices, d.user_id ∈ db.users.map (·.id)
  session_device : ∀ s ∈ db.sessions, s.device_id ∈ db.devices.map (·.id)
  history_session : ∀ h ∈ db.tokenHistory, h.auth_session_id ∈ db.sessions.map (·.id)

/-- What the services keep beyond the schema: each device has a mailbox, which
counts its envelopes. -/
structure Mailboxes (db : Db7) : Prop where
  device_mailbox : ∀ d ∈ db.devices, d.id ∈ db.mailboxes.map (·.device_id)
  mailbox_seqs : ∀ b ∈ db.mailboxes,
    Counted ((db.envelopes.filter fun e => decide (e.recipient_device_id = b.device_id)).map
      (·.mailbox_seq)) b.last_seq

end Db7

/-! ## The upgrade -/

/-- Constraints that a statement can violate. -/
inductive MigrationError
  | notNull
  | unique
  | check
  | foreignKey
deriving DecidableEq

section Statements

variable {α β κ : Type}

/-- `alter_column(..., nullable=False)`. -/
def alter_not_null (rows : List (α × Option β)) : Except MigrationError (List (α × β)) :=
  rows.mapM fun (a, b) =>
    match b with
    | some b => .ok (a, b)
    | none => .error .notNull

/-- `create_unique_constraint`. -/
def create_unique_constraint [DecidableEq κ] (key : α → κ) (rows : List α) :
    Except MigrationError Unit :=
  if (rows.map key).Nodup then .ok () else .error .unique

/-- `create_check_constraint`. -/
def create_check_constraint (check : α → Bool) (rows : List α) : Except MigrationError Unit :=
  if rows.all check then .ok () else .error .check

/-- `create_foreign_key`. -/
def create_foreign_key [DecidableEq κ] (key : α → κ) (rows : List α) (keys : List κ) :
    Except MigrationError Unit :=
  if ∀ a ∈ rows, key a ∈ keys then .ok () else .error .foreignKey

end Statements

/-- `ORDER BY created_at, id`. -/
def position (m : Message7) : Nat ×ₗ UUID :=
  toLex (m.created_at, m.id)

/-- The relation `positions` of the first update. -/
def positions (messages : List (Message7 × Option Nat)) : List (UUID × Nat) :=
  (rowNumber (fun m => m.1.chat_id) (fun m => position m.1) messages).map
    fun (m, seq) => (m.1.id, seq)

/-- `upgrade`. -/
def upgrade (db : Db7) : Except MigrationError Db := do
  let chats := db.chats.map fun c => (c, some 0)
  let messages := db.messages.map fun m => (m, none)
  let messages := updateFrom (fun m p => decide (m.1.id = p.1)) (fun p m => (m.1, some p.2))
    (positions messages) messages
  let chats ← alter_not_null <| updateFrom (fun c p => decide (c.1.id = p.1))
    (fun p c => (c.1, p.2)) (groupMax (fun m => m.1.chat_id) (fun m => m.2) messages) chats
  let messages ← alter_not_null messages
  create_unique_constraint (fun m => (m.1.chat_id, m.2)) messages
  create_check_constraint (fun m => decide (0 < m.2)) messages
  let envelopes := db.envelopes.map fun e => (e, none)
  let envelopes := updateFrom (fun e d => decide (d.id = e.1.recipient_device_id))
    (fun d e => (e.1, some d.user_id)) db.devices envelopes
  let envelopes ← alter_not_null envelopes
  create_foreign_key (fun e => e.2) envelopes (db.users.map (·.id))
  return {
    users := db.users
    devices := db.devices
    mailboxes := db.mailboxes
    chats := chats.map fun (c, last_message_seq) => ⟨c.id, last_message_seq, c.type⟩
    pairs := db.pairs
    messages := messages.map fun (m, chat_seq) => ⟨m.id, m.chat_id, m.sender_user_id,
      m.sender_device_id, m.client_message_id, chat_seq, m.created_at⟩
    envelopes := envelopes.map fun (e, recipient_user_id) => ⟨e.id, e.message_id,
      e.recipient_device_id, recipient_user_id, e.mailbox_seq, e.protocol_version,
      e.envelope_type, e.payload, e.created_at, e.expires_at, e.delivered_at,
      e.payload_purged_at⟩
    sessions := db.sessions
    tokenHistory := db.tokenHistory
    members := db.members
    readStates := [] }

/-- The columns of revision 0007. -/
def Chat.before (c : Chat) : Chat7 :=
  ⟨c.id, c.type⟩

def Message.before (m : Message) : Message7 :=
  ⟨m.id, m.chat_id, m.sender_user_id, m.sender_device_id, m.client_message_id, m.created_at⟩

def Envelope.before (e : Envelope) : Envelope7 :=
  ⟨e.id, e.message_id, e.recipient_device_id, e.mailbox_seq, e.protocol_version,
    e.envelope_type, e.payload, e.created_at, e.expires_at, e.delivered_at, e.payload_purged_at⟩

/-! ## What it computes -/

/-- The sequence of each message and the owner of each recipient device. -/
structure Backfill (db : Db7) where
  chat_seq : Message7 → Nat
  owner : Envelope7 → UUID
  numbered : ∀ m ∈ db.messages,
    (m, chat_seq m) ∈ rowNumber (fun m => m.chat_id) position db.messages
  owned : ∀ e ∈ db.envelopes, ∃ d ∈ db.devices,
    d.id = e.recipient_device_id ∧ d.user_id = owner e

/-- The number of messages of a chat. -/
def Db7.messageCount (db : Db7) (chat_id : UUID) : Nat :=
  (db.messages.filter fun m => decide (m.chat_id = chat_id)).length

/-- The upgraded database. -/
def Backfill.result {db : Db7} (b : Backfill db) : Db where
  users := db.users
  devices := db.devices
  mailboxes := db.mailboxes
  chats := db.chats.map fun c => ⟨c.id, db.messageCount c.id, c.type⟩
  pairs := db.pairs
  messages := db.messages.map fun m => ⟨m.id, m.chat_id, m.sender_user_id, m.sender_device_id,
    m.client_message_id, b.chat_seq m, m.created_at⟩
  envelopes := db.envelopes.map fun e => ⟨e.id, e.message_id, e.recipient_device_id, b.owner e,
    e.mailbox_seq, e.protocol_version, e.envelope_type, e.payload, e.created_at, e.expires_at,
    e.delivered_at, e.payload_purged_at⟩
  sessions := db.sessions
  tokenHistory := db.tokenHistory
  members := db.members

section Statements

variable {α β κ : Type}

theorem alter_not_null_map {f : α → β} (rows : List α) :
    alter_not_null (rows.map fun a => (a, some (f a))) = .ok (rows.map fun a => (a, f a)) := by
  unfold alter_not_null
  induction rows with
  | nil =>
      rfl
  | cons a rows ih =>
      rw [List.map_cons, List.mapM_cons, ih]
      rfl

theorem create_unique_constraint_ok [DecidableEq κ] {key : α → κ} {rows : List α}
    (h : (rows.map key).Nodup) : create_unique_constraint key rows = .ok () :=
  if_pos h

theorem create_check_constraint_ok {check : α → Bool} {rows : List α}
    (h : ∀ a ∈ rows, check a = true) : create_check_constraint check rows = .ok () :=
  if_pos (List.all_eq_true.mpr h)

theorem create_foreign_key_ok [DecidableEq κ] {key : α → κ} {rows : List α} {keys : List κ}
    (h : ∀ a ∈ rows, key a ∈ keys) : create_foreign_key key rows keys = .ok () :=
  if_pos h

end Statements

section Upgrade

variable {db : Db7}

theorem Db7.Valid.exists_backfill (h : db.Valid) : Nonempty (Backfill db) := by
  have hnumber : ∀ m ∈ db.messages, ∃ n,
      (m, n) ∈ rowNumber (fun m => m.chat_id) position db.messages :=
    fun m hm => exists_rowNumber hm
  have howner : ∀ e ∈ db.envelopes, ∃ user_id, ∃ d ∈ db.devices,
      d.id = e.recipient_device_id ∧ d.user_id = user_id := by
    intro e he
    obtain ⟨d, hd, hid⟩ := List.mem_map.mp (h.envelope_device e he)
    exact ⟨d.user_id, d, hd, hid, rfl⟩
  choose! chat_seq hnumbered using hnumber
  choose! owner howned using howner
  exact ⟨⟨chat_seq, owner, hnumbered, howned⟩⟩

theorem Db7.Valid.messages_nodup (h : db.Valid) : db.messages.Nodup :=
  h.messages.of_map _

/-- No two messages have one position. -/
theorem Db7.Valid.position_inj (h : db.Valid) :
    ∀ m ∈ db.messages, ∀ m' ∈ db.messages, position m = position m' → m = m' := by
  intro m hm m' hm' heq
  have hid := congrArg (fun p => (ofLex p).2) heq
  exact eq_of_key h.messages hm hm' hid

/-- The messages of a chat are numbered `1, ..., n`. -/
theorem Backfill.counted (b : Backfill db) (h : db.Valid) (chat_id : UUID) :
    Counted ((db.messages.filter fun m => decide (m.chat_id = chat_id)).map b.chat_seq)
      (db.messageCount chat_id) :=
  counted_rowNumber h.messages_nodup b.numbered chat_id

/-- The first update. -/
theorem Backfill.update_messages (b : Backfill db) (h : db.Valid) :
    updateFrom (fun (m : Message7 × Option Nat) p => decide (m.1.id = p.1))
        (fun p m => (m.1, some p.2)) (positions (db.messages.map fun m => (m, none)))
        (db.messages.map fun m => (m, none)) =
      db.messages.map fun m => (m, some (b.chat_seq m)) := by
  have hsource : ∀ p ∈ positions (db.messages.map fun m => (m, none)),
      ∃ m ∈ db.messages, p = (m.id, b.chat_seq m) := by
    intro p hp
    unfold positions at hp
    rw [rowNumber_map, List.map_map] at hp
    obtain ⟨⟨m, n⟩, hmn, rfl⟩ := List.mem_map.mp hp
    have hm := mem_of_mem_rowNumber hmn
    rw [← rowNumber_unique h.messages_nodup (b.numbered m hm) hmn]
    exact ⟨m, hm, rfl⟩
  have hall : ∀ m ∈ db.messages,
      (m.id, b.chat_seq m) ∈ positions (db.messages.map fun m => (m, none)) := by
    intro m hm
    unfold positions
    rw [rowNumber_map, List.map_map]
    exact List.mem_map.mpr ⟨(m, b.chat_seq m), b.numbered m hm, rfl⟩
  refine (updateFrom_eq (f := fun m => (m.1, some (b.chat_seq m.1))) ?_ ?_).trans ?_
  · intro a ha p hp hon
    obtain ⟨m, hm, rfl⟩ := List.mem_map.mp ha
    obtain ⟨m', hm', rfl⟩ := hsource p hp
    rw [eq_of_key h.messages hm hm' (of_decide_eq_true hon)]
  · intro a ha hnone
    obtain ⟨m, hm, rfl⟩ := List.mem_map.mp ha
    exact absurd rfl (of_decide_eq_false (hnone _ (hall m hm)))
  · rw [List.map_map]
    rfl

/-- The second update. -/
theorem Backfill.update_chats (b : Backfill db) (h : db.Valid) :
    updateFrom (fun (c : Chat7 × Option Nat) p => decide (c.1.id = p.1)) (fun p c => (c.1, p.2))
        (groupMax (fun m => m.1.chat_id) (fun m => m.2)
          (db.messages.map fun m => (m, some (b.chat_seq m))))
        (db.chats.map fun c => (c, some 0)) =
      db.chats.map fun c => (c, some (db.messageCount c.id)) := by
  rw [groupMax_map]
  refine (updateFrom_eq (f := fun c => (c.1, some (db.messageCount c.1.id))) ?_ ?_).trans ?_
  · rintro c hc ⟨k, x⟩ hp hon
    rw [groupMax_counted (fun _ _ => rfl) hp (b.counted h k), of_decide_eq_true hon]
    rfl
  · intro a ha hno
    obtain ⟨c, hc, rfl⟩ := List.mem_map.mp ha
    have hempty : (db.messages.filter fun m => decide (m.chat_id = c.id)) = [] := by
      refine List.filter_eq_nil_iff.mpr fun m hm hid => ?_
      obtain ⟨x, hx⟩ : ∃ x, (m.chat_id, x) ∈ groupMax (fun m => m.chat_id)
        (fun m => some (b.chat_seq m)) db.messages := exists_groupMax hm
      exact absurd (of_decide_eq_true hid).symm (of_decide_eq_false (hno _ hx))
    unfold Db7.messageCount
    rw [hempty]
    rfl
  · rw [List.map_map]
    rfl

/-- The third update. -/
theorem Backfill.update_envelopes (b : Backfill db) (h : db.Valid) :
    updateFrom (fun (e : Envelope7 × Option UUID) d => decide (d.id = e.1.recipient_device_id))
        (fun (d : Device) e => (e.1, some d.user_id)) db.devices
        (db.envelopes.map fun e => (e, none)) =
      db.envelopes.map fun e => (e, some (b.owner e)) := by
  refine (updateFrom_eq (f := fun e => (e.1, some (b.owner e.1))) ?_ ?_).trans ?_
  · intro a ha d hd hon
    obtain ⟨e, he, rfl⟩ := List.mem_map.mp ha
    obtain ⟨d', hd', hid, howner⟩ := b.owned e he
    rw [← howner, eq_of_key h.devices hd' hd (hid.trans (of_decide_eq_true hon).symm)]
  · intro a ha hno
    obtain ⟨e, he, rfl⟩ := List.mem_map.mp ha
    obtain ⟨d, hd, hid, -⟩ := b.owned e he
    exact absurd hid (of_decide_eq_false (hno d hd))
  · rw [List.map_map]
    rfl

theorem Backfill.chat_seqs_nodup (b : Backfill db) (h : db.Valid) :
    (db.messages.map fun m => (m.chat_id, b.chat_seq m)).Nodup := by
  refine h.messages_nodup.map_on fun m hm m' hm' heq => ?_
  obtain ⟨hchat, hseq⟩ := Prod.mk.inj heq
  have hnumbered' := b.numbered m' hm'
  rw [← hseq] at hnumbered'
  exact rowNumber_inj h.messages_nodup h.position_inj (b.numbered m hm) hnumbered' hchat

/-- **The upgrade succeeds.** -/
theorem Backfill.upgrade_eq (b : Backfill db) (h : db.Valid) : upgrade db = .ok b.result := by
  have hunique : ((db.messages.map fun m => (m, b.chat_seq m)).map
      fun m => (m.1.chat_id, m.2)).Nodup := by
    rw [List.map_map]
    exact b.chat_seqs_nodup h
  have hpos : ∀ m ∈ db.messages.map fun m => (m, b.chat_seq m), decide (0 < m.2) = true := by
    intro a ha
    obtain ⟨m, hm, rfl⟩ := List.mem_map.mp ha
    exact decide_eq_true (rowNumber_pos (b.numbered m hm))
  have howner : ∀ e ∈ db.envelopes.map fun e => (e, b.owner e), e.2 ∈ db.users.map (·.id) := by
    intro a ha
    obtain ⟨e, he, rfl⟩ := List.mem_map.mp ha
    obtain ⟨d, hd, -, hid⟩ := b.owned e he
    exact hid ▸ h.device_user d hd
  unfold upgrade
  dsimp only
  rw [b.update_messages h, b.update_chats h, b.update_envelopes h, alter_not_null_map,
    alter_not_null_map, alter_not_null_map]
  simp only [bind, Except.bind]
  rw [create_unique_constraint_ok hunique, create_check_constraint_ok hpos,
    create_foreign_key_ok howner]
  simp only [Backfill.result, List.map_map]
  rfl

/-! ## The upgraded database -/

theorem Backfill.chatsCounted (b : Backfill db) (h : db.Valid) : ChatsCounted b.result where
  message_chat := by
    intro m' hm'
    obtain ⟨m, hm, rfl⟩ := List.mem_map.mp hm'
    obtain ⟨c, hc, hid⟩ := List.mem_map.mp (h.message_chat m hm)
    exact List.mem_map.mpr ⟨_, List.mem_map.mpr ⟨c, hc, rfl⟩, hid⟩
  chat_seqs := by
    intro c' hc'
    obtain ⟨c, hc, rfl⟩ := List.mem_map.mp hc'
    have hseqs : chatSeqs c.id b.result =
        (db.messages.filter fun m => decide (m.chat_id = c.id)).map b.chat_seq := by
      unfold chatSeqs Backfill.result
      rw [List.filter_map, List.map_map]
      rfl
    rw [hseqs]
    exact b.counted h c.id

theorem Backfill.uniqueKeys (b : Backfill db) (h : db.Valid) : b.result.uniqueKeys := by
  have hseqs := b.chat_seqs_nodup h
  obtain ⟨users, usernames, devices, mailboxes, chats, pairs, pairUsers, members, messages,
    clientMessages, envelopes, recipients, mailboxSeqs, sessions, tokenHashes, tokenHistory,
    -⟩ := h
  simp only [Db.uniqueKeys, Backfill.result, List.map_map, Function.comp_def]
  exact ⟨users, usernames, devices, mailboxes, chats, pairs, messages, hseqs, clientMessages,
    envelopes, recipients, mailboxSeqs, sessions, tokenHashes, tokenHistory, pairUsers, members,
    List.nodup_nil⟩

theorem Backfill.wf (b : Backfill db) (h : db.Valid) (hm : db.Mailboxes) : Wf b.result where
  unique := b.uniqueKeys h
  envelope_mailbox := by
    intro e' he'
    obtain ⟨e, he, rfl⟩ := List.mem_map.mp he'
    obtain ⟨d, hd, hid⟩ := List.mem_map.mp (h.envelope_device e he)
    exact hid ▸ hm.device_mailbox d hd
  envelope_message := by
    intro e' he'
    obtain ⟨e, he, rfl⟩ := List.mem_map.mp he'
    simpa [Backfill.result] using h.envelope_message e he
  message_chat := (b.chatsCounted h).message_chat
  device_user := h.device_user
  device_mailbox := hm.device_mailbox
  session_device := h.session_device
  history_session := h.history_session
  mailbox_seqs := by
    intro m hmem
    have hseqs := hm.mailbox_seqs m hmem
    unfold Server.mailboxSeqs Backfill.result
    rw [List.filter_map, List.map_map]
    exact hseqs
  chat_seqs := (b.chatsCounted h).chat_seqs

/-- The sequences of a chat follow the positions. -/
theorem Backfill.ordered (b : Backfill db) (h : db.Valid) {m m' : Message}
    (hm : m ∈ b.result.messages) (hm' : m' ∈ b.result.messages) (hchat : m.chat_id = m'.chat_id) :
    m.chat_seq < m'.chat_seq ↔ position m.before < position m'.before := by
  obtain ⟨m₁, h₁, rfl⟩ := List.mem_map.mp hm
  obtain ⟨m₂, h₂, rfl⟩ := List.mem_map.mp hm'
  exact rowNumber_lt h.messages_nodup h.position_inj (b.numbered m₁ h₁) (b.numbered m₂ h₂) hchat

end Upgrade

/-- A transaction of a request commits. -/
def Commits (sec : Security) (db db' : Db) : Prop :=
  db'.uniqueKeys ∧ ∃ op, Effect sec op db db'

theorem chatsCounted_of_commits {sec : Security} {db db' : Db} (h : ChatsCounted db)
    (hc : Relation.ReflTransGen (Commits sec) db db') : ChatsCounted db' := by
  induction hc with
  | refl =>
      exact h
  | tail _ hstep ih =>
      obtain ⟨hu, op, heffect⟩ := hstep
      exact heffect.chatsCounted hu ih

/-- The tables and columns of revision 0007 are as they were. -/
structure Unchanged (db : Db7) (db' : Db) : Prop where
  messages : db'.messages.map Message.before = db.messages
  envelopes : db'.envelopes.map Envelope.before = db.envelopes
  chats : db'.chats.map Chat.before = db.chats
  users : db'.users = db.users
  devices : db'.devices = db.devices
  mailboxes : db'.mailboxes = db.mailboxes
  pairs : db'.pairs = db.pairs
  members : db'.members = db.members
  sessions : db'.sessions = db.sessions
  tokenHistory : db'.tokenHistory = db.tokenHistory

theorem Backfill.unchanged {db : Db7} (b : Backfill db) : Unchanged db b.result := by
  constructor <;> simp [Backfill.result, Message.before, Envelope.before, Chat.before,
    Function.comp_def]

/-- **Main result.**  A database that meets the constraints of revision 0007 is
upgraded.  The sequences of each chat are `1, ..., last_message_seq`, each
once, in the order of the positions; each envelope names the owner of its
recipient device; nothing has been read; the columns that were there are
unchanged.  The sequences stay without gaps through all transactions that
follow, and in every state a server reaches from the upgraded database. -/
theorem upgrade_establishes_sequences {db : Db7} (h : db.Valid) :
    ∃ db', upgrade db = .ok db' ∧
      (∀ c ∈ db'.chats, (chatSeqs c.id db').Perm (List.range' 1 c.last_message_seq)) ∧
      (∀ c ∈ db'.chats, (∀ m ∈ db'.messages, m.chat_id ≠ c.id) → c.last_message_seq = 0) ∧
      (∀ m ∈ db'.messages, ∃ c ∈ db'.chats, c.id = m.chat_id) ∧
      (∀ m ∈ db'.messages, ∀ m' ∈ db'.messages, m.chat_id = m'.chat_id →
        (m.chat_seq < m'.chat_seq ↔ position m.before < position m'.before)) ∧
      (∀ e ∈ db'.envelopes, ∃ d ∈ db'.devices,
        d.id = e.recipient_device_id ∧ d.user_id = e.recipient_user_id) ∧
      db'.readStates = [] ∧ Unchanged db db' ∧
      (∀ sec db'', Relation.ReflTransGen (Commits sec) db' db'' → ∀ c ∈ db''.chats,
        (chatSeqs c.id db'').Perm (List.range' 1 c.last_message_seq)) ∧
      (db.Mailboxes → Wf db' ∧ ∀ sec w p, World.Initial sec w → w.db = db' →
        System.Reaches (serverSystem sec) (System.idle w) p → ∀ c ∈ p.shared.db.chats,
          (chatSeqs c.id p.shared.db).Perm (List.range' 1 c.last_message_seq)) := by
  obtain ⟨b⟩ := h.exists_backfill
  have hcounted := b.chatsCounted h
  refine ⟨b.result, b.upgrade_eq h, hcounted.chat_seqs, fun c hc hnone => ?_, fun m hm => ?_,
    fun m hm m' hm' => b.ordered h hm hm', fun e he => ?_, rfl, b.unchanged,
    fun sec db'' hc => (chatsCounted_of_commits hcounted hc).chat_seqs, fun hmail => ?_⟩
  · have hseqs := hcounted.chat_seqs c hc
    have hempty : chatSeqs c.id b.result = [] := by
      unfold chatSeqs
      rw [List.map_eq_nil_iff, List.filter_eq_nil_iff]
      exact fun m hm hid => hnone m hm (of_decide_eq_true hid)
    rw [hempty] at hseqs
    simpa using hseqs.length_eq.symm
  · obtain ⟨c, hc, hid⟩ := List.mem_map.mp (hcounted.message_chat m hm)
    exact ⟨c, hc, hid⟩
  · obtain ⟨e₀, he₀, rfl⟩ := List.mem_map.mp he
    exact b.owned e₀ he₀
  · exact ⟨b.wf h hmail, fun sec w p hinit _ hp => (reachable_inv ⟨w, hinit, hp⟩).wf.chat_seqs⟩

/-! ## Three messages and no messages -/

namespace Example

def oldDb : Db7 where
  users := [⟨"alice", "alice", "secret", "active"⟩, ⟨"bob", "bob", "secret", "active"⟩]
  devices := [⟨"phone-a", "alice", "phone", 0, 0, none⟩, ⟨"phone-b", "bob", "phone", 0, 0, none⟩]
  chats := [⟨"chat", "DIRECT"⟩, ⟨"empty", "DIRECT"⟩]
  messages := [⟨"m2", "chat", "alice", "phone-a", "k2", 5⟩,
    ⟨"m1", "chat", "alice", "phone-a", "k1", 5⟩, ⟨"m0", "chat", "alice", "phone-a", "k0", 7⟩]

theorem oldDb_valid : oldDb.Valid := by
  constructor <;> decide

end Example

theorem upgrade_establishes_sequences_ties :
    ∃ db', upgrade Example.oldDb = .ok db' ∧ db'.messages.map (·.chat_seq) = [2, 1, 3] ∧
      ∀ c ∈ db'.chats, (chatSeqs c.id db').Perm (List.range' 1 c.last_message_seq) := by
  obtain ⟨db', hup, hseqs, -⟩ := upgrade_establishes_sequences Example.oldDb_valid
  refine ⟨db', hup, ?_, hseqs⟩
  have hrun : (upgrade Example.oldDb).map (fun db' => db'.messages.map (·.chat_seq)) =
      .ok [2, 1, 3] := by
    decide
  rw [hup] at hrun
  exact Except.ok.inj hrun

end Server
end SecureMessenger
