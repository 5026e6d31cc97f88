import SecureMessenger.Server.World
import SecureMessenger.Lib.Table

/-!
# What a committed transaction does

`Effect` lists what a transaction of a request can have done to the database
when it commits, with what holds of the rows at that instant.  Every effect
keeps the database well formed (`Wf`: keys, references, gap-free counters) and
only lets it grow (`Grows`: no message, session or device disappears, no
revocation is taken back).
-/

namespace SecureMessenger
namespace Server

open Lib

/-- The device belongs to the user and neither is blocked. -/
def Active (db : Db) (user_id device_id : UUID) : Prop :=
  db.activeUser user_id = true ∧
    ∃ d ∈ db.devices, d.id = device_id ∧ d.user_id = user_id ∧ d.revoked_at = none

instance (db : Db) (user_id device_id : UUID) : Decidable (Active db user_id device_id) :=
  inferInstanceAs (Decidable (_ ∧ _))

/-- A session of a device of the user. -/
def SessionOf (db : Db) (user_id session_id : UUID) : Prop :=
  ∃ s ∈ db.sessions, s.id = session_id ∧ ∃ d ∈ db.devices, d.id = s.device_id ∧ d.user_id = user_id

def SessionRevoked (db : Db) (session_id : UUID) : Prop :=
  ∃ s ∈ db.sessions, s.id = session_id ∧ s.revoked_at ≠ none

def DeviceRevoked (db : Db) (device_id : UUID) : Prop :=
  ∃ d ∈ db.devices, d.id = device_id ∧ d.revoked_at ≠ none

/-- The session itself or its device is revoked. -/
def Revoked (db : Db) (session_id : UUID) : Prop :=
  ∃ s ∈ db.sessions, s.id = session_id ∧ (s.revoked_at ≠ none ∨ DeviceRevoked db s.device_id)

/-- The token with this hash has been rotated out of the session. -/
def Consumed (db : Db) (token_hash : String) (session_id : UUID) : Prop :=
  ∃ h ∈ db.tokenHistory, h.token_hash = token_hash ∧ h.auth_session_id = session_id

/-- The hash is the current or a former one of a session. -/
def HashKnown (db : Db) (token_hash : String) : Prop :=
  (∃ s ∈ db.sessions, s.refresh_token_hash = token_hash) ∨
    ∃ h ∈ db.tokenHistory, h.token_hash = token_hash

/-- The mailbox sequences of a device. -/
def mailboxSeqs (device_id : UUID) (db : Db) : List Nat :=
  (db.envelopes.filter fun e => decide (e.recipient_device_id = device_id)).map (·.mailbox_seq)

/-- The sequences of a chat. -/
def chatSeqs (chat_id : UUID) (db : Db) : List Nat :=
  (db.messages.filter fun m => decide (m.chat_id = chat_id)).map (·.chat_seq)

/-- The envelopes of a message, by identifier. -/
def envelopeIds (message_id : UUID) (db : Db) : List UUID :=
  (db.envelopes.filter fun e => decide (e.message_id = message_id)).map (·.id)

/-- Keys, foreign keys and counters of the tables. -/
structure Wf (db : Db) : Prop where
  unique : db.uniqueKeys
  envelope_mailbox : ∀ e ∈ db.envelopes, e.recipient_device_id ∈ db.mailboxes.map (·.device_id)
  envelope_message : ∀ e ∈ db.envelopes, e.message_id ∈ db.messages.map (·.id)
  message_chat : ∀ m ∈ db.messages, m.chat_id ∈ db.chats.map (·.id)
  device_user : ∀ d ∈ db.devices, d.user_id ∈ db.users.map (·.id)
  device_mailbox : ∀ d ∈ db.devices, d.id ∈ db.mailboxes.map (·.device_id)
  session_device : ∀ s ∈ db.sessions, s.device_id ∈ db.devices.map (·.id)
  history_session : ∀ h ∈ db.tokenHistory, h.auth_session_id ∈ db.sessions.map (·.id)
  mailbox_seqs : ∀ b ∈ db.mailboxes, Counted (mailboxSeqs b.device_id db) b.last_seq
  chat_seqs : ∀ c ∈ db.chats, Counted (chatSeqs c.id db) c.last_message_seq

/-- The sequences of every chat are `1, ..., last_message_seq`. -/
structure ChatsCounted (db : Db) : Prop where
  message_chat : ∀ m ∈ db.messages, m.chat_id ∈ db.chats.map (·.id)
  chat_seqs : ∀ c ∈ db.chats, Counted (chatSeqs c.id db) c.last_message_seq

theorem Wf.chatsCounted {db : Db} (h : Wf db) : ChatsCounted db :=
  ⟨h.message_chat, h.chat_seqs⟩

theorem ChatsCounted.of_eq {db db' : Db} (h : ChatsCounted db)
    (hmessages : db'.messages = db.messages) (hchats : db'.chats = db.chats) :
    ChatsCounted db' := by
  obtain ⟨message_chat, chat_seqs⟩ := h
  constructor
  · rw [hmessages, hchats]
    exact message_chat
  · unfold chatSeqs
    rw [hmessages, hchats]
    exact chat_seqs

/-- No consumed token is current. -/
def Rotation (db : Db) : Prop :=
  ∀ h ∈ db.tokenHistory, ∀ s ∈ db.sessions, h.token_hash ≠ s.refresh_token_hash

/-- What stays once it has been committed. -/
structure Grows (db db' : Db) : Prop where
  users : db'.users = db.users
  pairs : ∀ p ∈ db.pairs, p ∈ db'.pairs
  chats : ∀ c ∈ db.chats, ∃ c' ∈ db'.chats, c'.id = c.id ∧ c'.type = c.type
  others : ∀ user_id chat_id other_user_id,
    db.otherUserId user_id chat_id = some other_user_id →
      db'.otherUserId user_id chat_id = some other_user_id
  messages : ∀ m ∈ db.messages, m ∈ db'.messages
  envelopes : ∀ m ∈ db.messages, envelopeIds m.id db' = envelopeIds m.id db
  devices : ∀ d ∈ db.devices, ∃ d' ∈ db'.devices, d'.id = d.id ∧ d'.user_id = d.user_id ∧
    (d.revoked_at ≠ none → d'.revoked_at ≠ none)
  sessions : ∀ s ∈ db.sessions, ∃ s' ∈ db'.sessions, s'.id = s.id ∧ s'.device_id = s.device_id ∧
    (s.revoked_at ≠ none → s'.revoked_at ≠ none)
  history : ∀ h ∈ db.tokenHistory, h ∈ db'.tokenHistory
  members : ∀ m ∈ db.members, m ∈ db'.members
  reads : ∀ chat_id user_id, db.lastReadSeq chat_id user_id ≤ db'.lastReadSeq chat_id user_id

theorem Grows.refl (db : Db) : Grows db db where
  users := rfl
  pairs := fun _ h => h
  chats := fun c h => ⟨c, h, rfl, rfl⟩
  others := fun _ _ _ h => h
  messages := fun _ h => h
  envelopes := fun _ _ => rfl
  devices := fun d h => ⟨d, h, rfl, rfl, id⟩
  sessions := fun s h => ⟨s, h, rfl, rfl, id⟩
  history := fun _ h => h
  members := fun _ h => h
  reads := fun _ _ => le_refl _

theorem Grows.trans {db₁ db₂ db₃ : Db} (h : Grows db₁ db₂) (h' : Grows db₂ db₃) :
    Grows db₁ db₃ where
  users := h'.users.trans h.users
  pairs := fun p hp => h'.pairs p (h.pairs p hp)
  chats := by
    intro c hc
    obtain ⟨c', hc', hid, htype⟩ := h.chats c hc
    obtain ⟨c'', hc'', hid', htype'⟩ := h'.chats c' hc'
    exact ⟨c'', hc'', hid'.trans hid, htype'.trans htype⟩
  others := fun u c x hx => h'.others u c x (h.others u c x hx)
  messages := fun m hm => h'.messages m (h.messages m hm)
  envelopes := fun m hm => (h'.envelopes m (h.messages m hm)).trans (h.envelopes m hm)
  devices := by
    intro d hd
    obtain ⟨d', hd', hid, huser, hrev⟩ := h.devices d hd
    obtain ⟨d'', hd'', hid', huser', hrev'⟩ := h'.devices d' hd'
    exact ⟨d'', hd'', hid'.trans hid, huser'.trans huser, fun hr => hrev' (hrev hr)⟩
  sessions := by
    intro s hs
    obtain ⟨s', hs', hid, hdev, hrev⟩ := h.sessions s hs
    obtain ⟨s'', hs'', hid', hdev', hrev'⟩ := h'.sessions s' hs'
    exact ⟨s'', hs'', hid'.trans hid, hdev'.trans hdev, fun hr => hrev' (hrev hr)⟩
  history := fun x hx => h'.history x (h.history x hx)
  members := fun m hm => h'.members m (h.members m hm)
  reads := fun chat_id user_id => (h.reads chat_id user_id).trans (h'.reads chat_id user_id)

section Monotone

variable {db db' : Db} (h : Grows db db')

include h

theorem Grows.sessionRevoked {id : UUID} (hr : SessionRevoked db id) : SessionRevoked db' id := by
  obtain ⟨s, hs, hid, hrev⟩ := hr
  obtain ⟨s', hs', hid', -, hrev'⟩ := h.sessions s hs
  exact ⟨s', hs', hid'.trans hid, hrev' hrev⟩

theorem Grows.deviceRevoked {id : UUID} (hr : DeviceRevoked db id) : DeviceRevoked db' id := by
  obtain ⟨d, hd, hid, hrev⟩ := hr
  obtain ⟨d', hd', hid', -, hrev'⟩ := h.devices d hd
  exact ⟨d', hd', hid'.trans hid, hrev' hrev⟩

theorem Grows.revoked {id : UUID} (hr : Revoked db id) : Revoked db' id := by
  obtain ⟨s, hs, hid, hrev⟩ := hr
  obtain ⟨s', hs', hid', hdev, hrev'⟩ := h.sessions s hs
  refine ⟨s', hs', hid'.trans hid, ?_⟩
  rcases hrev with hrev | hrev
  · exact Or.inl (hrev' hrev)
  · right
    rw [hdev]
    exact h.deviceRevoked hrev

theorem Grows.consumed {hash : String} {id : UUID} (hc : Consumed db hash id) :
    Consumed db' hash id := by
  obtain ⟨x, hx, hhash, hid⟩ := hc
  exact ⟨x, h.history x hx, hhash, hid⟩

end Monotone

/-- The direct chat of the pair stays one. -/
theorem otherUserId_of_chats {db db' : Db}
    (hchats : ∀ c ∈ db.chats, ∃ c' ∈ db'.chats, c'.id = c.id ∧ c'.type = c.type)
    (hpairs : db.pairs <+: db'.pairs) {user_id chat_id other_user_id : UUID}
    (h : db.otherUserId user_id chat_id = some other_user_id) :
    db'.otherUserId user_id chat_id = some other_user_id := by
  unfold Db.otherUserId at h ⊢
  obtain ⟨p, hp, hother⟩ := Option.map_eq_some_iff.mp h
  unfold Db.directPair at hp
  have hkey := List.find?_some hp
  simp only [Bool.and_eq_true, decide_eq_true_eq] at hkey
  obtain ⟨⟨hchat, -⟩, hany⟩ := hkey
  have hany' : (db'.chats.any fun c => decide (c.id = chat_id ∧ c.type = "DIRECT")) = true := by
    obtain ⟨c, hc, hc'⟩ := List.any_eq_true.mp hany
    obtain ⟨c', hmem, hid, htype⟩ := hchats c hc
    refine List.any_eq_true.mpr ⟨c', hmem, ?_⟩
    rw [hid, htype]
    exact hc'
  obtain ⟨new, hnew⟩ := hpairs
  have hfind : db'.directPair user_id chat_id = some p := by
    unfold Db.directPair
    rw [← hnew, List.find?_append, hany']
    rw [hany] at hp
    rw [hp]
    rfl
  rw [hfind, Option.map_some, hother]

/-- The envelope `_create_envelopes` has built for the mailbox. -/
structure Created (message : Message) (device_users : List (UUID × UUID))
    (b : DeviceMailbox) (e : Envelope) : Prop where
  message_id : e.message_id = message.id
  device : e.recipient_device_id = b.device_id
  user : (b.device_id, e.recipient_user_id) ∈ device_users
  seq : e.mailbox_seq = b.last_seq + 1
  fresh : e.payload.isSome ∧ e.delivered_at = none ∧ e.payload_purged_at = none

/-- What a send has read under its locks, all of it still true when it
commits. -/
structure Accepted (principal : Principal) (request : SendMessageRequest) (db : Db) where
  other_user_id : UUID
  chat : Chat
  mailboxes : List DeviceMailbox
  device_users : List (UUID × UUID)
  message : Message
  envelopes : List Envelope
  other : db.otherUserId principal.user_id request.chat_id = some other_user_id
  chat_row : row (·.id) request.chat_id db.chats = some chat
  sender_active : Active db principal.user_id principal.device_id
  peer_active : ∃ id, Active db other_user_id id
  recipients : ∀ id user_id, (id, user_id) ∈ device_users ↔
    id ≠ principal.device_id ∧ (user_id = other_user_id ∨ user_id = principal.user_id) ∧
      Active db user_id id
  mailbox_rows : ∀ b ∈ mailboxes, row (·.device_id) b.device_id db.mailboxes = some b
  mailboxes_nodup : (mailboxes.map (·.device_id)).Nodup
  mailbox_ids : ∀ id, id ∈ mailboxes.map (·.device_id) ↔ id ∈ device_users.map (·.1)
  created : List.Forall₂ (Created message device_users) mailboxes envelopes
  message_eq : ∃ id now, message = newMessage id principal request chat now

/-- The database after the commit of a send. -/
def Accepted.store {principal : Principal} {request : SendMessageRequest} {db : Db}
    (a : Accepted principal request db) : Db :=
  storeMessage a.chat a.message a.mailboxes a.envelopes db

/-- What an advance that raises the position has read under its lock. -/
structure Advanced (principal : Principal) (chat_id : UUID) (last_read_seq : Int)
    (db : Db) where
  other_user_id : UUID
  chat : Chat
  now : Instant
  other : db.otherUserId principal.user_id chat_id = some other_user_id
  chat_row : row (·.id) chat_id db.chats = some chat
  low : 0 ≤ last_read_seq
  high : last_read_seq ≤ chat.last_message_seq
  position : last_read_seq ≠ 0 → db.chatPositionExists chat_id last_read_seq = true
  raises : db.lastReadSeq chat_id principal.user_id < last_read_seq

/-- The database after the commit of an advance. -/
def Advanced.store {principal : Principal} {chat_id : UUID} {last_read_seq : Int} {db : Db}
    (a : Advanced principal chat_id last_read_seq db) : Db :=
  storeReadState (db.readState chat_id principal.user_id) chat_id principal.user_id
    last_read_seq a.now db

/-- The requests that purge expired envelopes. -/
def Op.purges : Op → Bool
  | .send _ _ => true
  | .lookup _ _ => true
  | .mailbox _ _ _ => true
  | .purgeExpiredBatch _ _ => true
  | _ => false

/-- The requests that revoke a session because of its token. -/
def Op.revokes : Op → Bool
  | .refresh _ => true
  | .logout _ => true
  | _ => false

/-- What a transaction can have done when it commits. -/
inductive Effect (sec : Security) : Op → Db → Db → Prop
  | nothing (op : Op) (db : Db) : Effect sec op db db
  | purge (op : Op) (db : Db) (p : Envelope → Bool) (now : Instant)
      (hop : op.purges = true)
      (hp : ∀ e, p e = true → Db.expired now e = true) :
      Effect sec op db (db.updateEnvelopes p (Db.purged now))
  | acknowledge (principal : Principal) (envelope_id : UUID) (db : Db) (p : Envelope → Bool)
      (now : Instant)
      (hp : ∀ e, p e = true → e.id = envelope_id ∧ e.recipient_device_id = principal.device_id) :
      Effect sec (.acknowledge principal envelope_id) db
        (db.updateEnvelopes p (Db.acknowledged now))
  | send {principal : Principal} {request : SendMessageRequest} {db : Db}
      (a : Accepted principal request db) :
      Effect sec (.send principal request) db a.store
  | advance {principal : Principal} {chat_id : UUID} {last_read_seq : Int} {db : Db}
      (a : Advanced principal chat_id last_read_seq db) :
      Effect sec (.advance principal chat_id last_read_seq) db a.store
  /-- A pair gets its chat. -/
  | openDirectChat {requester_id target_user_id : Uuid} (db : Db)
      (chat_id user_low_id user_high_id : UUID)
      (hpair : canonical_user_pair requester_id target_user_id =
        .ok (user_low_id, user_high_id)) :
      Effect sec (.openDirectChat requester_id target_user_id) db
        (insertDirectChat chat_id user_low_id user_high_id db)
  /-- A login on a new device. -/
  | register (request : LoginRequest) (db : Db) (device : Device) (auth_session : AuthSession)
      (huser : device.user_id ∈ db.users.map (·.id))
      (hdevice : auth_session.device_id = device.id)
      (hnew : sec.Distinct → ¬HashKnown db auth_session.refresh_token_hash) :
      Effect sec (.login request) db (insertSession auth_session (insertDevice device db))
  /-- A login on a known device. -/
  | login (request : LoginRequest) (db : Db) (device_id : UUID) (name : String)
      (now : Instant) (auth_session : AuthSession)
      (hdevice : device_id ∈ db.devices.map (·.id))
      (hid : auth_session.device_id = device_id)
      (hnew : sec.Distinct → ¬HashKnown db auth_session.refresh_token_hash) :
      Effect sec (.login request) db (insertSession auth_session
        (db.updateDevice device_id fun d => { d with name := name, last_seen_at := now }))
  /-- A refresh token is exchanged. -/
  | rotate (refresh_token : String) (db : Db) (auth_session : AuthSession) (new_hash : String)
      (now : Instant)
      (hcurrent : auth_session ∈ db.sessions)
      (hhash : auth_session.refresh_token_hash = sec.hash_refresh_token refresh_token)
      (hsession : auth_session.revoked_at = none)
      (hdevice : ¬DeviceRevoked db auth_session.device_id)
      (hnew : sec.Distinct → ¬HashKnown db new_hash) :
      Effect sec (.refresh refresh_token) db (rotateSession auth_session.id
        auth_session.device_id (sec.hash_refresh_token refresh_token) new_hash now db)
  | revoke (op : Op) (db : Db) (session_id : UUID) (now : Instant) (hop : op.revokes = true) :
      Effect sec op db (revokeSession session_id now db)
  | revokeDevice (principal : Principal) (device_id : UUID) (db : Db) (ids : List UUID)
      (now : Instant) :
      Effect sec (.revokeDevice principal device_id) db (revokeDeviceRows device_id ids now db)

/-! ## Updates of envelopes -/

/-- An update that leaves the keys of an envelope alone. -/
structure KeepsKeys (f : Envelope → Envelope) : Prop where
  id : ∀ e, (f e).id = e.id
  message_id : ∀ e, (f e).message_id = e.message_id
  device : ∀ e, (f e).recipient_device_id = e.recipient_device_id
  seq : ∀ e, (f e).mailbox_seq = e.mailbox_seq

theorem keepsKeys_purged (now : Instant) : KeepsKeys (Db.purged now) :=
  ⟨fun _ => rfl, fun _ => rfl, fun _ => rfl, fun _ => rfl⟩

theorem keepsKeys_acknowledged (now : Instant) : KeepsKeys (Db.acknowledged now) :=
  ⟨fun _ => rfl, fun _ => rfl, fun _ => rfl, fun _ => rfl⟩

/-- An update of some envelopes, as an update of all. -/
theorem KeepsKeys.ite {f : Envelope → Envelope} (hf : KeepsKeys f) (p : Envelope → Bool) :
    KeepsKeys fun e => if p e then f e else e := by
  constructor <;> intro e <;> split
  · exact hf.id e
  · rfl
  · exact hf.message_id e
  · rfl
  · exact hf.device e
  · rfl
  · exact hf.seq e
  · rfl

section UpdateEnvelopes

variable {f : Envelope → Envelope} (hf : KeepsKeys f) (p : Envelope → Bool) (db : Db)

include hf

theorem mailboxSeqs_updateEnvelopes (device_id : UUID) :
    mailboxSeqs device_id (db.updateEnvelopes p f) = mailboxSeqs device_id db := by
  have hg := hf.ite p
  unfold mailboxSeqs Db.updateEnvelopes
  rw [filter_map_key (fun e => by rw [hg.device e]), map_key_map hg.seq]

theorem envelopeIds_updateEnvelopes (message_id : UUID) :
    envelopeIds message_id (db.updateEnvelopes p f) = envelopeIds message_id db := by
  have hg := hf.ite p
  unfold envelopeIds Db.updateEnvelopes
  rw [filter_map_key (fun e => by rw [hg.message_id e]), map_key_map hg.id]

theorem grows_updateEnvelopes : Grows db (db.updateEnvelopes p f) :=
  { Grows.refl db with
    envelopes := fun m _ => envelopeIds_updateEnvelopes hf p db m.id }

theorem Wf.updateEnvelopes {db : Db} (h : Wf db)
    (hu : (db.updateEnvelopes p f).uniqueKeys) : Wf (db.updateEnvelopes p f) where
  unique := hu
  envelope_mailbox := by
    intro e he
    obtain ⟨e₀, he₀, rfl⟩ := List.mem_map.mp he
    rw [(hf.ite p).device e₀]
    exact h.envelope_mailbox e₀ he₀
  envelope_message := by
    intro e he
    obtain ⟨e₀, he₀, rfl⟩ := List.mem_map.mp he
    rw [(hf.ite p).message_id e₀]
    exact h.envelope_message e₀ he₀
  message_chat := h.message_chat
  device_user := h.device_user
  device_mailbox := h.device_mailbox
  session_device := h.session_device
  history_session := h.history_session
  mailbox_seqs := by
    intro b hb
    rw [mailboxSeqs_updateEnvelopes hf p db]
    exact h.mailbox_seqs b hb
  chat_seqs := h.chat_seqs

end UpdateEnvelopes

theorem uniqueKeys_updateEnvelopes {db : Db} (h : db.uniqueKeys) {g : Envelope → Envelope}
    (hg : KeepsKeys g) (p : Envelope → Bool) : (db.updateEnvelopes p g).uniqueKeys := by
  have hite := hg.ite p
  simp only [Db.uniqueKeys, Db.updateEnvelopes] at h ⊢
  rw [map_key_map hite.id, map_key_map fun e => by rw [hite.message_id e, hite.device e],
    map_key_map fun e => by rw [hite.device e, hite.seq e]]
  exact h

/-! ## Sends -/

section Send

variable {principal : Principal} {request : SendMessageRequest} {db : Db}

theorem Accepted.message_chat (a : Accepted principal request db) :
    a.message.chat_id = a.chat.id := by
  obtain ⟨id, now, h⟩ := a.message_eq
  rw [h, row_key a.chat_row]
  rfl

theorem Accepted.message_seq (a : Accepted principal request db) :
    a.message.chat_seq = a.chat.last_message_seq + 1 := by
  obtain ⟨id, now, h⟩ := a.message_eq
  rw [h]
  rfl

/-- The counter of a chat after the send. -/
def bumpChat (chat c : Chat) : Chat :=
  if c.id = chat.id then { c with last_message_seq := chat.last_message_seq + 1 } else c

/-- The counter of a mailbox after the send. -/
def bumpMailbox (mailboxes : List DeviceMailbox) (m : DeviceMailbox) : DeviceMailbox :=
  match row (·.device_id) m.device_id mailboxes with
  | some b => { m with last_seq := b.last_seq + 1 }
  | none => m

theorem bumpChat_id (chat c : Chat) : (bumpChat chat c).id = c.id := by
  unfold bumpChat
  split <;> rfl

theorem bumpChat_type (chat c : Chat) : (bumpChat chat c).type = c.type := by
  unfold bumpChat
  split <;> rfl

theorem bumpMailbox_id (mailboxes : List DeviceMailbox) (m : DeviceMailbox) :
    (bumpMailbox mailboxes m).device_id = m.device_id := by
  unfold bumpMailbox
  split <;> rfl

theorem store_chats (a : Accepted principal request db) :
    a.store.chats = db.chats.map (bumpChat a.chat) :=
  rfl

theorem store_mailboxes (a : Accepted principal request db) :
    a.store.mailboxes = db.mailboxes.map (bumpMailbox a.mailboxes) :=
  rfl

theorem store_messages (a : Accepted principal request db) :
    a.store.messages = db.messages ++ [a.message] :=
  rfl

theorem store_envelopes (a : Accepted principal request db) :
    a.store.envelopes = db.envelopes ++ a.envelopes :=
  rfl

/-- The devices of the new envelopes. -/
theorem created_devices {message : Message} {users : List (UUID × UUID)}
    {mailboxes : List DeviceMailbox} {envelopes : List Envelope}
    (h : List.Forall₂ (Created message users) mailboxes envelopes) :
    envelopes.map (·.recipient_device_id) = mailboxes.map (·.device_id) := by
  induction h with
  | nil =>
      rfl
  | cons hc _ ih =>
      simp [hc.device, ih]

theorem created_of_mem {message : Message} {users : List (UUID × UUID)}
    {mailboxes : List DeviceMailbox} {envelopes : List Envelope}
    (h : List.Forall₂ (Created message users) mailboxes envelopes) {e : Envelope}
    (he : e ∈ envelopes) : ∃ b ∈ mailboxes, Created message users b e := by
  induction h with
  | nil =>
      cases he
  | cons hc _ ih =>
      rcases List.mem_cons.mp he with rfl | he
      · exact ⟨_, List.mem_cons_self, hc⟩
      · obtain ⟨b, hb, hbe⟩ := ih he
        exact ⟨b, List.mem_cons_of_mem _ hb, hbe⟩

/-- The new sequences of a device: the next number of its mailbox, if it is
among the recipients. -/
theorem created_seqs {message : Message} {users : List (UUID × UUID)}
    {mailboxes : List DeviceMailbox} {envelopes : List Envelope}
    (h : List.Forall₂ (Created message users) mailboxes envelopes)
    (hn : (mailboxes.map (·.device_id)).Nodup) (id : UUID) :
    (envelopes.filter fun e => decide (e.recipient_device_id = id)).map (·.mailbox_seq) =
      ((row (·.device_id) id mailboxes).map fun b => b.last_seq + 1).toList := by
  induction h with
  | nil =>
      rfl
  | @cons b e mailboxes envelopes hc hrest ih =>
      have hn' := List.nodup_cons.mp hn
      by_cases hid : b.device_id = id
      · -- the rest goes to other devices
        have hnone : (envelopes.filter fun e => decide (e.recipient_device_id = id)) = [] := by
          refine List.filter_eq_nil_iff.mpr fun e' he' => ?_
          have hmem : e'.recipient_device_id ∈ mailboxes.map (·.device_id) := by
            rw [← created_devices hrest]
            exact List.mem_map_of_mem he'
          simp only [decide_eq_true_eq]
          intro heq
          rw [heq, ← hid] at hmem
          exact hn'.1 hmem
        simp [row, hc.device, hid, hc.seq, hnone]
      · have hrow : row (·.device_id) id (b :: mailboxes) = row (·.device_id) id mailboxes := by
          simp [row, hid]
        rw [hrow, ← ih hn'.2]
        simp [hc.device, hid]

theorem mailboxSeqs_store (a : Accepted principal request db) (id : UUID) :
    mailboxSeqs id a.store = mailboxSeqs id db ++
      ((row (·.device_id) id a.mailboxes).map fun b => b.last_seq + 1).toList := by
  unfold mailboxSeqs
  rw [store_envelopes, List.filter_append, List.map_append,
    created_seqs a.created a.mailboxes_nodup]

theorem chatSeqs_store (a : Accepted principal request db) (id : UUID) :
    chatSeqs id a.store = chatSeqs id db ++
      if a.chat.id = id then [a.chat.last_message_seq + 1] else [] := by
  unfold chatSeqs
  rw [store_messages, List.filter_append, List.map_append]
  congr 1
  by_cases hid : a.chat.id = id
  · simp [a.message_chat, hid, a.message_seq]
  · simp [a.message_chat, hid]

theorem envelopeIds_store (a : Accepted principal request db)
    (hu : a.store.uniqueKeys) {m : Message} (hm : m ∈ db.messages) :
    envelopeIds m.id a.store = envelopeIds m.id db := by
  have hne : a.message.id ≠ m.id := by
    have hn := hu.messages
    rw [store_messages, List.map_append, List.nodup_append] at hn
    exact fun heq => hn.2.2 m.id (List.mem_map_of_mem hm) a.message.id (by simp) heq.symm
  unfold envelopeIds
  rw [store_envelopes, List.filter_append]
  have hnone : (a.envelopes.filter fun e => decide (e.message_id = m.id)) = [] := by
    refine List.filter_eq_nil_iff.mpr fun e he => ?_
    obtain ⟨b, -, hc⟩ := created_of_mem a.created he
    simp [hc.message_id, hne]
  rw [hnone, List.append_nil]

theorem grows_store (a : Accepted principal request db)
    (hu : a.store.uniqueKeys) : Grows db a.store :=
  { Grows.refl db with
    chats := fun c hc => ⟨_, List.mem_map_of_mem hc, bumpChat_id a.chat c, bumpChat_type a.chat c⟩
    others := by
      intro u c x hx
      have hpairs : db.pairs <+: a.store.pairs := List.prefix_refl db.pairs
      refine otherUserId_of_chats (fun c hc => ?_) hpairs hx
      exact ⟨_, List.mem_map_of_mem hc, bumpChat_id a.chat c, bumpChat_type a.chat c⟩
    messages := fun m hm => by
      rw [store_messages]
      exact List.mem_append_left _ hm
    envelopes := fun m hm => envelopeIds_store a hu hm }

/-- A send hands out the next sequence of its chat. -/
theorem ChatsCounted.store (h : ChatsCounted db) (a : Accepted principal request db)
    (hu : a.store.uniqueKeys) : ChatsCounted a.store where
  message_chat := by
    intro m hm
    rw [store_chats, map_key_map (bumpChat_id a.chat)]
    rcases List.mem_append.mp hm with hm | hm
    · exact h.message_chat m hm
    · obtain rfl := List.mem_singleton.mp hm
      rw [a.message_chat]
      exact List.mem_map_of_mem (row_mem a.chat_row)
  chat_seqs := by
    have hunique := hu.chats
    rw [store_chats, map_key_map (bumpChat_id a.chat)] at hunique
    intro c' hc'
    rw [store_chats] at hc'
    obtain ⟨c, hc, rfl⟩ := List.mem_map.mp hc'
    rw [bumpChat_id, chatSeqs_store]
    have hseqs := h.chat_seqs c hc
    unfold bumpChat
    by_cases hid : c.id = a.chat.id
    · have heq : a.chat = c := eq_of_key hunique (row_mem a.chat_row) hc hid.symm
      subst heq
      simpa using hseqs.snoc
    · simpa [hid, Ne.symm hid] using hseqs

theorem Wf.store (h : Wf db) (a : Accepted principal request db)
    (hu : a.store.uniqueKeys) : Wf a.store where
  unique := hu
  envelope_mailbox := by
    intro e he
    rw [store_mailboxes, map_key_map (bumpMailbox_id a.mailboxes)]
    rcases List.mem_append.mp he with he | he
    · exact h.envelope_mailbox e he
    · obtain ⟨b, hb, hc⟩ := created_of_mem a.created he
      rw [hc.device]
      exact List.mem_map_of_mem (row_mem (a.mailbox_rows b hb))
  envelope_message := by
    intro e he
    rw [store_messages, List.map_append]
    rcases List.mem_append.mp he with he | he
    · exact List.mem_append_left _ (h.envelope_message e he)
    · obtain ⟨b, -, hc⟩ := created_of_mem a.created he
      simp [hc.message_id]
  message_chat := (h.chatsCounted.store a hu).message_chat
  device_user := h.device_user
  device_mailbox := by
    intro d hd
    rw [store_mailboxes, map_key_map (bumpMailbox_id a.mailboxes)]
    exact h.device_mailbox d hd
  session_device := h.session_device
  history_session := h.history_session
  mailbox_seqs := by
    intro b' hb'
    rw [store_mailboxes] at hb'
    obtain ⟨b, hb, rfl⟩ := List.mem_map.mp hb'
    rw [bumpMailbox_id, mailboxSeqs_store]
    have hseqs := h.mailbox_seqs b hb
    unfold bumpMailbox
    cases hrow : row (·.device_id) b.device_id a.mailboxes with
    | none =>
        simpa using hseqs
    | some b₁ =>
        -- the row the send has read is the row of the mailbox
        have hb₁ := a.mailbox_rows b₁ (row_mem hrow)
        have heq : b₁ = b := eq_of_key h.unique.mailboxes (row_mem hb₁) hb (row_key hrow)
        subst heq
        exact hseqs.snoc
  chat_seqs := (h.chatsCounted.store a hu).chat_seqs

end Send

/-! ## Direct chats -/

section DirectChats

variable (chat_id user_low_id user_high_id : UUID) (db : Db)

theorem chatIds_insertDirectChat :
    (insertDirectChat chat_id user_low_id user_high_id db).chats.map (·.id) =
      db.chats.map (·.id) ++ [chat_id] := by
  unfold insertDirectChat insertPair insertMembers insertChat
  rw [List.map_append]
  rfl

theorem grows_insertDirectChat :
    Grows db (insertDirectChat chat_id user_low_id user_high_id db) :=
  { Grows.refl db with
    pairs := fun _ hp => List.mem_append_left _ hp
    chats := fun c hc => ⟨c, List.mem_append_left _ hc, rfl, rfl⟩
    others := fun _ _ _ h => otherUserId_of_chats
      (fun c hc => ⟨c, List.mem_append_left _ hc, rfl, rfl⟩) (List.prefix_append _ _) h
    members := fun _ hm => List.mem_append_left _ hm }

variable {chat_id user_low_id user_high_id db}

/-- The identifier of the new chat is new. -/
theorem chat_fresh (hu : (insertDirectChat chat_id user_low_id user_high_id db).uniqueKeys) :
    chat_id ∉ db.chats.map (·.id) := by
  have hn := hu.chats
  rw [chatIds_insertDirectChat, List.nodup_append] at hn
  exact fun hmem => hn.2.2 _ hmem chat_id (List.mem_singleton_self _) rfl

/-- A new chat has no messages yet. -/
theorem ChatsCounted.insertDirectChat (h : ChatsCounted db)
    (hu : (insertDirectChat chat_id user_low_id user_high_id db).uniqueKeys) :
    ChatsCounted (insertDirectChat chat_id user_low_id user_high_id db) where
  message_chat := by
    intro m hm
    rw [chatIds_insertDirectChat]
    exact List.mem_append_left _ (h.message_chat m hm)
  chat_seqs := by
    intro c hc
    rcases List.mem_append.mp hc with hc | hc
    · exact h.chat_seqs c hc
    · obtain rfl := List.mem_singleton.mp hc
      have hnone : chatSeqs chat_id
          (Server.insertDirectChat chat_id user_low_id user_high_id db) = [] := by
        unfold chatSeqs
        rw [List.map_eq_nil_iff, List.filter_eq_nil_iff]
        intro m hm
        simp only [decide_eq_true_eq]
        rintro rfl
        exact chat_fresh hu (h.message_chat m hm)
      rw [hnone]
      exact counted_nil

theorem Wf.insertDirectChat (h : Wf db)
    (hu : (insertDirectChat chat_id user_low_id user_high_id db).uniqueKeys) :
    Wf (insertDirectChat chat_id user_low_id user_high_id db) :=
  { h with
    unique := hu
    message_chat := (h.chatsCounted.insertDirectChat hu).message_chat
    chat_seqs := (h.chatsCounted.insertDirectChat hu).chat_seqs }

end DirectChats

/-! ## Devices and sessions -/

/-- An update of a device that leaves its keys alone and takes no revocation
back. -/
structure KeepsDevice (f : Device → Device) : Prop where
  id : ∀ d, (f d).id = d.id
  user : ∀ d, (f d).user_id = d.user_id
  revoked : ∀ d, d.revoked_at ≠ none → (f d).revoked_at ≠ none

/-- The same for sessions. -/
structure KeepsSession (f : AuthSession → AuthSession) : Prop where
  id : ∀ s, (f s).id = s.id
  device : ∀ s, (f s).device_id = s.device_id
  revoked : ∀ s, s.revoked_at ≠ none → (f s).revoked_at ≠ none

theorem keepsDevice_seen (now : Instant) :
    KeepsDevice fun d => { d with last_seen_at := now } :=
  ⟨fun _ => rfl, fun _ => rfl, fun _ h => h⟩

theorem keepsDevice_named (name : String) (now : Instant) :
    KeepsDevice fun d => { d with name := name, last_seen_at := now } :=
  ⟨fun _ => rfl, fun _ => rfl, fun _ h => h⟩

theorem KeepsDevice.ite {f : Device → Device} (hf : KeepsDevice f) (device_id : UUID) :
    KeepsDevice fun d => if d.id = device_id then f d else d := by
  constructor <;> intro d <;> split
  · exact hf.id d
  · rfl
  · exact hf.user d
  · rfl
  · exact hf.revoked d
  · exact fun h => h

theorem KeepsSession.ite {f : AuthSession → AuthSession} (hf : KeepsSession f)
    (p : AuthSession → Bool) : KeepsSession fun s => if p s then f s else s := by
  constructor <;> intro s <;> split
  · exact hf.id s
  · rfl
  · exact hf.device s
  · rfl
  · exact hf.revoked s
  · exact fun h => h

theorem grows_updateDevice {f : Device → Device} (hf : KeepsDevice f) (device_id : UUID)
    (db : Db) : Grows db (db.updateDevice device_id f) :=
  { Grows.refl db with
    devices := fun d hd =>
      ⟨_, List.mem_map_of_mem hd, (hf.ite device_id).id d, (hf.ite device_id).user d,
        (hf.ite device_id).revoked d⟩ }

theorem grows_updateSessions {f : AuthSession → AuthSession} (hf : KeepsSession f)
    (p : AuthSession → Bool) (db : Db) : Grows db (db.updateSessions p f) :=
  { Grows.refl db with
    sessions := fun s hs =>
      ⟨_, List.mem_map_of_mem hs, (hf.ite p).id s, (hf.ite p).device s, (hf.ite p).revoked s⟩ }

theorem grows_insertSession (auth_session : AuthSession) (db : Db) :
    Grows db (insertSession auth_session db) :=
  { Grows.refl db with
    sessions := fun s hs => ⟨s, List.mem_append_left _ hs, rfl, rfl, id⟩ }

theorem grows_insertDevice (device : Device) (db : Db) : Grows db (insertDevice device db) :=
  { Grows.refl db with
    devices := fun d hd => ⟨d, List.mem_append_left _ hd, rfl, rfl, id⟩ }

theorem grows_rotateSession (id device_id : UUID) (old_hash new_hash : String) (now : Instant)
    (db : Db) : Grows db (rotateSession id device_id old_hash new_hash now db) := by
  have h₁ := grows_updateSessions (f := fun s =>
      { s with refresh_token_hash := new_hash, last_used_at := now })
    ⟨fun _ => rfl, fun _ => rfl, fun _ h => h⟩ (fun s => decide (s.id = id)) db
  have h₂ := grows_updateDevice (keepsDevice_seen now) device_id db
  exact
    { Grows.refl db with
      devices := h₂.devices
      sessions := h₁.sessions
      history := fun x hx => List.mem_append_left _ hx }

theorem keepsDevice_revoke (now : Instant) :
    KeepsDevice fun d => { d with revoked_at := some now } :=
  ⟨fun _ => rfl, fun _ => rfl, fun _ _ => by simp⟩

theorem keepsSession_revoke (now : Instant) :
    KeepsSession fun s => { s with revoked_at := some now } :=
  ⟨fun _ => rfl, fun _ => rfl, fun _ _ => by simp⟩

theorem grows_revokeSession (id : UUID) (now : Instant) (db : Db) :
    Grows db (revokeSession id now db) :=
  grows_updateSessions (keepsSession_revoke now) _ db

theorem grows_revokeDeviceRows (device_id : UUID) (ids : List UUID) (now : Instant) (db : Db) :
    Grows db (revokeDeviceRows device_id ids now db) :=
  (grows_updateDevice (keepsDevice_revoke now) device_id db).trans
    (grows_updateSessions (keepsSession_revoke now) _ _)

/-- Changes to devices and sessions only: what has to be checked again. -/
theorem Wf.accounts {db db' : Db} (h : Wf db) (hu : db'.uniqueKeys)
    (hrest : db'.users = db.users ∧ db'.messages = db.messages ∧ db'.envelopes = db.envelopes ∧
      db'.chats = db.chats ∧ db'.mailboxes = db.mailboxes)
    (hdevices : ∀ d ∈ db'.devices, ∃ d₀ ∈ db.devices, d.id = d₀.id ∧ d.user_id = d₀.user_id)
    (hsession : ∀ s ∈ db'.sessions, s.device_id ∈ db'.devices.map (·.id))
    (hhistory : ∀ x ∈ db'.tokenHistory, x.auth_session_id ∈ db'.sessions.map (·.id)) :
    Wf db' := by
  obtain ⟨husers, hmessages, henvelopes, hchats, hmailboxes⟩ := hrest
  constructor
  · exact hu
  · rw [henvelopes, hmailboxes]
    exact h.envelope_mailbox
  · rw [henvelopes, hmessages]
    exact h.envelope_message
  · rw [hmessages, hchats]
    exact h.message_chat
  · intro d hd
    obtain ⟨d₀, hd₀, -, huser⟩ := hdevices d hd
    rw [husers, huser]
    exact h.device_user d₀ hd₀
  · intro d hd
    obtain ⟨d₀, hd₀, hid, -⟩ := hdevices d hd
    rw [hmailboxes, hid]
    exact h.device_mailbox d₀ hd₀
  · exact hsession
  · exact hhistory
  · unfold mailboxSeqs
    rw [hmailboxes, henvelopes]
    exact h.mailbox_seqs
  · unfold chatSeqs
    rw [hchats, hmessages]
    exact h.chat_seqs

theorem uniqueKeys_updateDevice {db : Db} (h : db.uniqueKeys) {f : Device → Device}
    (hf : KeepsDevice f) (device_id : UUID) : (db.updateDevice device_id f).uniqueKeys := by
  have hmap : (db.updateDevice device_id f).devices.map (·.id) = db.devices.map (·.id) :=
    map_key_map (hf.ite device_id).id db.devices
  unfold Db.uniqueKeys at h ⊢
  rw [hmap]
  exact h

theorem uniqueKeys_updateSessions {db : Db} (h : db.uniqueKeys) {f : AuthSession → AuthSession}
    (hf : KeepsSession f) (hhash : ∀ s, (f s).refresh_token_hash = s.refresh_token_hash)
    (p : AuthSession → Bool) : (db.updateSessions p f).uniqueKeys := by
  have hmap : (db.updateSessions p f).sessions.map (·.id) = db.sessions.map (·.id) :=
    map_key_map (hf.ite p).id db.sessions
  have hmap' : (db.updateSessions p f).sessions.map (·.refresh_token_hash) =
      db.sessions.map (·.refresh_token_hash) := by
    refine map_key_map (fun s => ?_) db.sessions
    split
    · exact hhash s
    · rfl
  unfold Db.uniqueKeys at h ⊢
  rw [hmap, hmap']
  exact h

theorem uniqueKeys_of_insertSession {db : Db} {auth_session : AuthSession}
    (h : (insertSession auth_session db).uniqueKeys) : db.uniqueKeys := by
  have h₁ := h.sessions
  have h₂ := h.tokenHashes
  unfold insertSession at h₁ h₂
  rw [List.map_append] at h₁ h₂
  unfold Db.uniqueKeys at h ⊢
  obtain ⟨u₁, u₂, u₃, u₄, u₅, u₆, u₇, u₈, u₉, u₁₀, u₁₁, u₁₂, -, -, u₁₅⟩ := h
  exact ⟨u₁, u₂, u₃, u₄, u₅, u₆, u₇, u₈, u₉, u₁₀, u₁₁, u₁₂,
    (List.nodup_append.mp h₁).1, (List.nodup_append.mp h₂).1, u₁₅⟩

theorem Wf.updateDevice {db : Db} (h : Wf db) {f : Device → Device} (hf : KeepsDevice f)
    (device_id : UUID) : Wf (db.updateDevice device_id f) := by
  refine h.accounts (uniqueKeys_updateDevice h.unique hf device_id) ⟨rfl, rfl, rfl, rfl, rfl⟩
    ?_ ?_ h.history_session
  · intro d hd
    obtain ⟨d₀, hd₀, rfl⟩ := List.mem_map.mp hd
    exact ⟨d₀, hd₀, (hf.ite device_id).id d₀, (hf.ite device_id).user d₀⟩
  · intro s hs
    have hmap : (db.updateDevice device_id f).devices.map (·.id) = db.devices.map (·.id) :=
      map_key_map (hf.ite device_id).id db.devices
    rw [hmap]
    exact h.session_device s hs

/-- Updates of sessions that keep the hashes. -/
theorem Wf.updateSessions {db : Db} (h : Wf db) {f : AuthSession → AuthSession}
    (hf : KeepsSession f) (hhash : ∀ s, (f s).refresh_token_hash = s.refresh_token_hash)
    (p : AuthSession → Bool) : Wf (db.updateSessions p f) := by
  refine h.accounts (uniqueKeys_updateSessions h.unique hf hhash p) ⟨rfl, rfl, rfl, rfl, rfl⟩
    (fun d hd => ⟨d, hd, rfl, rfl⟩) ?_ ?_
  · intro s hs
    obtain ⟨s₀, hs₀, rfl⟩ := List.mem_map.mp hs
    rw [(hf.ite p).device s₀]
    exact h.session_device s₀ hs₀
  · intro x hx
    have hmap : (db.updateSessions p f).sessions.map (·.id) = db.sessions.map (·.id) :=
      map_key_map (hf.ite p).id db.sessions
    rw [hmap]
    exact h.history_session x hx

theorem Wf.revokeSession {db : Db} (h : Wf db) (id : UUID) (now : Instant) :
    Wf (revokeSession id now db) :=
  h.updateSessions (keepsSession_revoke now) (fun _ => rfl) _

theorem Wf.revokeDeviceRows {db : Db} (h : Wf db) (device_id : UUID) (ids : List UUID)
    (now : Instant) : Wf (revokeDeviceRows device_id ids now db) :=
  (h.updateDevice (keepsDevice_revoke now) device_id).updateSessions (keepsSession_revoke now)
    (fun _ => rfl) _

theorem Wf.insertSession {db : Db} (h : Wf db) {auth_session : AuthSession}
    (hu : (insertSession auth_session db).uniqueKeys)
    (hdevice : auth_session.device_id ∈ db.devices.map (·.id)) :
    Wf (insertSession auth_session db) := by
  refine h.accounts hu ⟨rfl, rfl, rfl, rfl, rfl⟩ (fun d hd => ⟨d, hd, rfl, rfl⟩) ?_ ?_
  · intro s hs
    rcases List.mem_append.mp hs with hs | hs
    · exact h.session_device s hs
    · obtain rfl := List.mem_singleton.mp hs
      exact hdevice
  · intro x hx
    unfold Server.insertSession
    rw [List.map_append]
    exact List.mem_append_left _ (h.history_session x hx)

/-- A new device starts with an empty mailbox: no envelope can be addressed to
it yet. -/
theorem Wf.insertDevice {db : Db} (h : Wf db) {device : Device}
    (hu : (insertDevice device db).uniqueKeys) (huser : device.user_id ∈ db.users.map (·.id)) :
    Wf (insertDevice device db) where
  unique := hu
  envelope_mailbox := by
    intro e he
    unfold Server.insertDevice
    rw [List.map_append]
    exact List.mem_append_left _ (h.envelope_mailbox e he)
  envelope_message := h.envelope_message
  message_chat := h.message_chat
  device_user := by
    intro d hd
    rcases List.mem_append.mp hd with hd | hd
    · exact h.device_user d hd
    · obtain rfl := List.mem_singleton.mp hd
      exact huser
  device_mailbox := by
    intro d hd
    unfold Server.insertDevice
    rw [List.map_append]
    rcases List.mem_append.mp hd with hd | hd
    · exact List.mem_append_left _ (h.device_mailbox d hd)
    · obtain rfl := List.mem_singleton.mp hd
      exact List.mem_append_right _ (by simp)
  session_device := by
    intro s hs
    unfold Server.insertDevice
    rw [List.map_append]
    exact List.mem_append_left _ (h.session_device s hs)
  history_session := h.history_session
  mailbox_seqs := by
    intro b hb
    rcases List.mem_append.mp hb with hb | hb
    · exact h.mailbox_seqs b hb
    · obtain rfl := List.mem_singleton.mp hb
      have hn := hu.mailboxes
      unfold Server.insertDevice at hn
      rw [List.map_append, List.nodup_append] at hn
      have hnone : mailboxSeqs device.id (Server.insertDevice device db) = [] := by
        unfold mailboxSeqs Server.insertDevice
        rw [List.map_eq_nil_iff, List.filter_eq_nil_iff]
        intro e he
        simp only [decide_eq_true_eq]
        exact fun heq => hn.2.2 _ (h.envelope_mailbox e he) device.id (by simp) heq
      rw [hnone]
      exact counted_nil
  chat_seqs := h.chat_seqs

theorem Wf.rotateSession {db : Db} (h : Wf db) {auth_session : AuthSession}
    {new_hash : String} {now : Instant} (hcurrent : auth_session ∈ db.sessions)
    (hu : (rotateSession auth_session.id auth_session.device_id auth_session.refresh_token_hash
      new_hash now db).uniqueKeys) :
    Wf (rotateSession auth_session.id auth_session.device_id auth_session.refresh_token_hash
      new_hash now db) := by
  have hf : KeepsSession fun s =>
      { s with refresh_token_hash := new_hash, last_used_at := now } :=
    ⟨fun _ => rfl, fun _ => rfl, fun _ h => h⟩
  have hg := keepsDevice_seen now
  have hd := h.updateDevice hg auth_session.device_id
  refine h.accounts hu ⟨rfl, rfl, rfl, rfl, rfl⟩ ?_ ?_ ?_
  · intro d hmem
    obtain ⟨d₀, hd₀, rfl⟩ := List.mem_map.mp hmem
    exact ⟨d₀, hd₀, (hg.ite _).id d₀, (hg.ite _).user d₀⟩
  · intro s hs
    obtain ⟨s₀, hs₀, rfl⟩ := List.mem_map.mp hs
    have hdev := (hf.ite fun s => decide (s.id = auth_session.id)).device s₀
    rw [hdev]
    exact hd.session_device s₀ hs₀
  · intro x hx
    have hmap : (Server.rotateSession auth_session.id auth_session.device_id
        auth_session.refresh_token_hash new_hash now db).sessions.map (·.id) =
          db.sessions.map (·.id) :=
      map_key_map (hf.ite _).id db.sessions
    rw [hmap]
    rcases List.mem_append.mp hx with hx | hx
    · exact h.history_session x hx
    · obtain rfl := List.mem_singleton.mp hx
      exact List.mem_map_of_mem hcurrent

/-! ## Read positions -/

section Advance

variable {principal : Principal} {chat_id : UUID} {last_read_seq : Int} {db : Db}

/-- The tables an advance leaves alone. -/
structure Untouched (db db' : Db) : Prop where
  users : db'.users = db.users
  devices : db'.devices = db.devices
  mailboxes : db'.mailboxes = db.mailboxes
  chats : db'.chats = db.chats
  pairs : db'.pairs = db.pairs
  messages : db'.messages = db.messages
  envelopes : db'.envelopes = db.envelopes
  sessions : db'.sessions = db.sessions
  tokenHistory : db'.tokenHistory = db.tokenHistory
  members : db'.members = db.members

theorem untouched_storeReadState (state : Option ChatReadState) (chat_id user_id : UUID)
    (last_read_seq : Int) (now : Instant) (db : Db) :
    Untouched db (storeReadState state chat_id user_id last_read_seq now db) := by
  cases state <;> constructor <;> rfl

theorem Advanced.tables (a : Advanced principal chat_id last_read_seq db) :
    Untouched db a.store :=
  untouched_storeReadState _ _ _ _ _ _

/-- The row that is written is the one that is read. -/
theorem readState_storeReadState (chat_id user_id : UUID) (last_read_seq : Int) (now : Instant)
    (db : Db) (chat_id' user_id' : UUID) :
    (storeReadState (db.readState chat_id user_id) chat_id user_id last_read_seq now
      db).readState chat_id' user_id' =
        if chat_id' = chat_id ∧ user_id' = user_id then
          some ⟨chat_id, user_id, last_read_seq, now⟩
        else db.readState chat_id' user_id' := by
  cases hstate : db.readState chat_id user_id with
  | none =>
      by_cases hkey : chat_id' = chat_id ∧ user_id' = user_id
      · obtain ⟨rfl, rfl⟩ := hkey
        unfold Db.readState at hstate
        simp only [storeReadState, Db.readState, List.find?_append, hstate]
        simp
      · have hnew : ¬(chat_id = chat_id' ∧ user_id = user_id') :=
          fun h => hkey ⟨h.1.symm, h.2.symm⟩
        simp [storeReadState, Db.readState, List.find?_append, hkey, hnew]
  | some s =>
      have hs : s.chat_id = chat_id ∧ s.user_id = user_id := by
        simpa using List.find?_some hstate
      obtain ⟨rfl, rfl⟩ := hs
      -- the update leaves the keys alone
      have hkeys : ((fun r : ChatReadState => decide (r.chat_id = chat_id' ∧ r.user_id = user_id'))
          ∘ fun r => if r.chat_id = s.chat_id ∧ r.user_id = s.user_id then
            { r with last_read_seq := last_read_seq, updated_at := now } else r) =
          fun r => decide (r.chat_id = chat_id' ∧ r.user_id = user_id') := by
        funext r
        simp only [Function.comp]
        split <;> rfl
      simp only [storeReadState, Db.readState, List.find?_map, hkeys]
      by_cases hkey : chat_id' = s.chat_id ∧ user_id' = s.user_id
      · obtain ⟨rfl, rfl⟩ := hkey
        unfold Db.readState at hstate
        rw [hstate]
        simp
      · rw [if_neg hkey]
        cases hfind : db.readStates.find? fun r =>
            decide (r.chat_id = chat_id' ∧ r.user_id = user_id') with
        | none =>
            rfl
        | some r =>
            have hr : r.chat_id = chat_id' ∧ r.user_id = user_id' := by
              simpa using List.find?_some hfind
            rw [Option.map_some, if_neg]
            rw [hr.1, hr.2]
            exact hkey

theorem lastReadSeq_advanced (a : Advanced principal chat_id last_read_seq db)
    (chat_id' user_id' : UUID) :
    a.store.lastReadSeq chat_id' user_id' =
      if chat_id' = chat_id ∧ user_id' = principal.user_id then last_read_seq
      else db.lastReadSeq chat_id' user_id' := by
  unfold Advanced.store Db.lastReadSeq
  rw [readState_storeReadState]
  split <;> rfl

theorem grows_advance (a : Advanced principal chat_id last_read_seq db) : Grows db a.store := by
  have ht := a.tables
  constructor
  · exact ht.users
  · rw [ht.pairs]
    exact fun _ h => h
  · rw [ht.chats]
    exact (Grows.refl db).chats
  · intro u c x hx
    refine otherUserId_of_chats ?_ ?_ hx
    · rw [ht.chats]
      exact (Grows.refl db).chats
    · exact ht.pairs.symm ▸ List.prefix_refl db.pairs
  · rw [ht.messages]
    exact fun _ h => h
  · intro m _
    unfold envelopeIds
    rw [ht.envelopes]
  · rw [ht.devices]
    exact (Grows.refl db).devices
  · rw [ht.sessions]
    exact (Grows.refl db).sessions
  · rw [ht.tokenHistory]
    exact fun _ h => h
  · rw [ht.members]
    exact fun _ h => h
  · intro chat_id' user_id'
    rw [lastReadSeq_advanced]
    split
    · rename_i h
      obtain ⟨rfl, rfl⟩ := h
      exact a.raises.le
    · exact le_refl _

theorem Wf.advance (h : Wf db) (a : Advanced principal chat_id last_read_seq db)
    (hu : a.store.uniqueKeys) : Wf a.store := by
  have ht := a.tables
  refine h.accounts hu ⟨ht.users, ht.messages, ht.envelopes, ht.chats, ht.mailboxes⟩ ?_ ?_ ?_
  · rw [ht.devices]
    exact fun d hd => ⟨d, hd, rfl, rfl⟩
  · rw [ht.sessions, ht.devices]
    exact h.session_device
  · rw [ht.tokenHistory, ht.sessions]
    exact h.history_session

end Advance

/-- **Every transaction keeps the sequences of the chats.** -/
theorem Effect.chatsCounted {sec : Security} {op : Op} {db db' : Db} (h : Effect sec op db db')
    (hu : db'.uniqueKeys) (hc : ChatsCounted db) : ChatsCounted db' := by
  cases h with
  | send a =>
      exact hc.store a hu
  | advance a =>
      exact hc.of_eq a.tables.messages a.tables.chats
  | openDirectChat db chat_id low high hpair =>
      exact hc.insertDirectChat hu
  | _ =>
      exact hc.of_eq rfl rfl

/-- **Every commit keeps the database well formed.** -/
theorem Effect.wf {sec : Security} {op : Op} {db db' : Db} (h : Effect sec op db db')
    (hw : Wf db) (hu : db'.uniqueKeys) : Wf db' := by
  cases h with
  | nothing =>
      exact hw
  | purge op db p now =>
      exact hw.updateEnvelopes (keepsKeys_purged now) p hu
  | acknowledge principal envelope_id db p now =>
      exact hw.updateEnvelopes (keepsKeys_acknowledged now) p hu
  | send a =>
      exact hw.store a hu
  | advance a =>
      exact hw.advance a hu
  | openDirectChat db chat_id user_low_id user_high_id hpair =>
      exact hw.insertDirectChat hu
  | register request db device auth_session huser hdevice hnew =>
      have hu' := uniqueKeys_of_insertSession hu
      refine (hw.insertDevice hu' huser).insertSession hu ?_
      unfold insertDevice
      rw [List.map_append, hdevice]
      exact List.mem_append_right _ (by simp)
  | login request db device_id name now auth_session hdevice hid hnew =>
      have hf := keepsDevice_named name now
      refine (hw.updateDevice hf device_id).insertSession hu ?_
      have hmap : (db.updateDevice device_id fun d =>
          { d with name := name, last_seen_at := now }).devices.map (·.id) =
            db.devices.map (·.id) :=
        map_key_map (hf.ite device_id).id db.devices
      rw [hmap, hid]
      exact hdevice
  | rotate token db auth_session new_hash now hcurrent hhash hsession hdevice hnew =>
      rw [← hhash] at hu ⊢
      exact hw.rotateSession hcurrent hu
  | revoke op db session_id now =>
      exact hw.revokeSession session_id now
  | revokeDevice principal device_id db ids now =>
      exact hw.revokeDeviceRows device_id ids now

/-- **No commit takes back what has been committed.** -/
theorem Effect.grows {sec : Security} {op : Op} {db db' : Db} (h : Effect sec op db db')
    (hu : db'.uniqueKeys) : Grows db db' := by
  cases h with
  | nothing =>
      exact Grows.refl db
  | purge op db p now =>
      exact grows_updateEnvelopes (keepsKeys_purged now) p db
  | acknowledge principal envelope_id db p now =>
      exact grows_updateEnvelopes (keepsKeys_acknowledged now) p db
  | send a =>
      exact grows_store a hu
  | advance a =>
      exact grows_advance a
  | openDirectChat db chat_id user_low_id user_high_id hpair =>
      exact grows_insertDirectChat chat_id user_low_id user_high_id db
  | register request db device auth_session huser hdevice hnew =>
      exact (grows_insertDevice device db).trans (grows_insertSession auth_session _)
  | login request db device_id name now auth_session hdevice hid hnew =>
      exact (grows_updateDevice (keepsDevice_named name now) device_id db).trans
        (grows_insertSession auth_session _)
  | rotate token db auth_session new_hash now hcurrent hhash hsession hdevice hnew =>
      exact grows_rotateSession _ _ _ new_hash now db
  | revoke op db session_id now =>
      exact grows_revokeSession session_id now db
  | revokeDevice principal device_id db ids now =>
      exact grows_revokeDeviceRows device_id ids now db

/-- Updates that keep the hashes and the history. -/
theorem Rotation.of_hashes {db db' : Db} (h : Rotation db)
    (hhistory : db'.tokenHistory = db.tokenHistory)
    (hsessions : ∀ s ∈ db'.sessions, ∃ s₀ ∈ db.sessions,
      s.refresh_token_hash = s₀.refresh_token_hash) : Rotation db' := by
  intro x hx s hs
  obtain ⟨s₀, hs₀, heq⟩ := hsessions s hs
  rw [hhistory] at hx
  rw [heq]
  exact h x hx s₀ hs₀

theorem Rotation.insertSession {db : Db} (h : Rotation db) {auth_session : AuthSession}
    (hnew : ¬HashKnown db auth_session.refresh_token_hash) :
    Rotation (insertSession auth_session db) := by
  intro x hx s hs
  rcases List.mem_append.mp hs with hs | hs
  · exact h x hx s hs
  · obtain rfl := List.mem_singleton.mp hs
    exact fun heq => hnew (Or.inr ⟨x, hx, heq⟩)

theorem Rotation.rotateSession {db : Db} (h : Rotation db) (hw : Wf db)
    {auth_session : AuthSession} {new_hash : String} {now : Instant}
    (hcurrent : auth_session ∈ db.sessions) (hnew : ¬HashKnown db new_hash) :
    Rotation (rotateSession auth_session.id auth_session.device_id
      auth_session.refresh_token_hash new_hash now db) := by
  intro x hx s hs
  obtain ⟨s₀, hs₀, rfl⟩ := List.mem_map.mp hs
  rcases List.mem_append.mp hx with hx | hx
  · split
    · exact fun heq => hnew (Or.inr ⟨x, hx, heq⟩)
    · exact h x hx s₀ hs₀
  · obtain rfl := List.mem_singleton.mp hx
    split
    · exact fun heq => hnew (Or.inl ⟨auth_session, hcurrent, heq⟩)
    · rename_i hne
      intro heq
      have := eq_of_key hw.unique.tokenHashes hcurrent hs₀ heq
      simp [this] at hne

/-- **A consumed token never becomes current again.** -/
theorem Effect.rotation {sec : Security} {op : Op} {db db' : Db} (h : Effect sec op db db')
    (hw : Wf db) (hd : sec.Distinct) (hr : Rotation db) : Rotation db' := by
  cases h with
  | nothing =>
      exact hr
  | purge op db p now =>
      exact hr
  | acknowledge principal envelope_id db p now =>
      exact hr
  | send a =>
      exact hr
  | advance a =>
      exact hr.of_hashes a.tables.tokenHistory (by
        rw [a.tables.sessions]
        exact fun s hs => ⟨s, hs, rfl⟩)
  | openDirectChat db chat_id user_low_id user_high_id hpair =>
      exact hr
  | register request db device auth_session huser hdevice hnew =>
      have hr' : Rotation (insertDevice device db) := hr
      exact hr'.insertSession (hnew hd)
  | login request db device_id name now auth_session hdevice hid hnew =>
      have hr' : Rotation (db.updateDevice device_id fun d =>
        { d with name := name, last_seen_at := now }) := hr
      exact hr'.insertSession (hnew hd)
  | rotate token db auth_session new_hash now hcurrent hhash hsession hdevice hnew =>
      rw [← hhash]
      exact hr.rotateSession hw hcurrent (hnew hd)
  | revoke op db session_id now =>
      refine hr.of_hashes rfl fun s hs => ?_
      obtain ⟨s₀, hs₀, rfl⟩ := List.mem_map.mp hs
      exact ⟨s₀, hs₀, by split <;> rfl⟩
  | revokeDevice principal device_id db ids now =>
      refine hr.of_hashes rfl fun s hs => ?_
      obtain ⟨s₀, hs₀, rfl⟩ := List.mem_map.mp hs
      exact ⟨s₀, hs₀, by split <;> rfl⟩

end Server
end SecureMessenger
