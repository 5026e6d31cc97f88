import SecureMessenger.Server.HandlerEquivalence
import SecureMessenger.Server.ReadService
import SecureMessenger.Lib.KeysetRuns

/-!
# Keyset pages of the services

`mailbox`, `sent_page` and the page of chat states are keyset pages: of the
envelopes of a device by their mailbox position, of the messages of a user by
their id, and of the chats of a user by their id.  Reading the mailbox purges
expired payloads on the way; the rows and their keys stay.
-/

namespace SecureMessenger
namespace Server

open Lib
open Lib.Keyset (Endpoint Distinct following beyond)

/-- What the pages rely on: the keys of the tables, the reference of an envelope
to its message, positions that count from 1, and identifiers with a text. -/
structure Keyed (db : Db) : Prop where
  unique : db.uniqueKeys
  envelope_message : ∀ e ∈ db.envelopes, e.message_id ∈ db.messages.map (·.id)
  seq_pos : ∀ e ∈ db.envelopes, 0 < e.mailbox_seq
  message_text : ∀ m ∈ db.messages, m.id ≠ ""
  chat_text : ∀ c ∈ db.chats, c.id ≠ ""

/-- A well-formed database whose identifiers have a text has the keys. -/
theorem Wf.keyed {db : Db} (h : Wf db) (hmessages : ∀ m ∈ db.messages, m.id ≠ "")
    (hchats : ∀ c ∈ db.chats, c.id ≠ "") : Keyed db := by
  constructor
  case unique => exact h.unique
  case envelope_message => exact h.envelope_message
  case seq_pos =>
    intro e he
    obtain ⟨b, hb, hdevice⟩ := List.mem_map.mp (h.envelope_mailbox e he)
    have hseq : e.mailbox_seq ∈ mailboxSeqs b.device_id db :=
      List.mem_map_of_mem (List.mem_filter.mpr ⟨he, decide_eq_true hdevice.symm⟩)
    exact (List.mem_range'_1.mp ((h.mailbox_seqs b hb).mem_iff.mp hseq)).1
  case message_text => exact hmessages
  case chat_text => exact hchats

/-- The payloads of some envelopes have been purged since. -/
def PurgedFrom (db db' : Db) : Prop :=
  ∃ f : Envelope → Envelope, (∀ e, f e = e ∨ ∃ now, f e = Db.purged now e) ∧
    db' = { db with envelopes := db.envelopes.map f }

/-! ## The rows -/

/-- The envelopes addressed to a device, with their messages. -/
def mailboxEntries (device_id : UUID) (db : Db) : List MailboxEntry :=
  (db.envelopes.filter fun e => decide (e.recipient_device_id = device_id)).flatMap fun e =>
    (db.messages.filter fun m => decide (m.id = e.message_id)).map fun m => ⟨e, m⟩

/-- The messages a user has sent to chats of his, or those of them that nobody
else has read. -/
def sentMessages (user_id : UUID) (unread_only : Bool) (db : Db) : List StoredMessage :=
  (db.messages.filter fun m => decide (m.sender_user_id = user_id) &&
    db.isMember m.chat_id user_id &&
    !(unread_only && db.peerHasRead user_id m)).map fun m => ⟨m, db.envelopesOf m.id⟩

/-- The chats of a user with the positions of their members. -/
def chatStates (user_id : UUID) (db : Db) : List ChatState :=
  (db.chats.filter fun c => db.isMember c.id user_id).map fun c =>
    chatState c (db.membersOf c.id) db.readStates

section Rows

variable {db : Db} (hk : Keyed db)

include hk

/-- An envelope has one message. -/
theorem Keyed.message {e : Envelope} (he : e ∈ db.envelopes) :
    ∃ m, (db.messages.filter fun m => decide (m.id = e.message_id)) = [m] := by
  obtain ⟨m, hm, hid⟩ := List.mem_map.mp (hk.envelope_message e he)
  refine ⟨m, ?_⟩
  rw [← hid]
  exact filter_key_of_mem hk.unique.messages hm

/-- No position of a mailbox is taken twice. -/
theorem Keyed.mailbox_seqs :
    (db.envelopes.map fun e => (e.recipient_device_id, e.mailbox_seq)).Nodup :=
  hk.unique.2.2.2.2.2.2.2.2.2.2.2.1

theorem Keyed.distinct_mailbox (device_id : UUID) :
    Distinct (·.envelope.mailbox_seq) (mailboxEntries device_id db) := by
  have hkeys : (mailboxEntries device_id db).map (·.envelope.mailbox_seq) =
      (db.envelopes.filter fun e => decide (e.recipient_device_id = device_id)).map
        (·.mailbox_seq) := by
    have hgeneral : ∀ l : List Envelope, (∀ e ∈ l, e ∈ db.envelopes) →
        (l.flatMap fun e => (db.messages.filter fun m => decide (m.id = e.message_id)).map
          fun m => (⟨e, m⟩ : MailboxEntry)).map (·.envelope.mailbox_seq) =
            l.map (·.mailbox_seq) := by
      intro l hl
      induction l with
      | nil => rfl
      | cons e rest ih =>
          obtain ⟨m, hm⟩ := hk.message (hl e List.mem_cons_self)
          rw [List.flatMap_cons, List.map_append, hm,
            ih fun e' he' => hl e' (List.mem_cons_of_mem _ he')]
          rfl
    exact hgeneral _ fun e he => (List.mem_filter.mp he).1
  unfold Distinct
  rw [hkeys]
  have hpairs : ((db.envelopes.filter fun e => decide (e.recipient_device_id = device_id)).map
      fun e => (e.recipient_device_id, e.mailbox_seq)).Nodup :=
    hk.mailbox_seqs.sublist (List.filter_sublist.map _)
  have hdevice : ((db.envelopes.filter fun e => decide (e.recipient_device_id = device_id)).map
      fun e => (e.recipient_device_id, e.mailbox_seq)) =
      ((db.envelopes.filter fun e => decide (e.recipient_device_id = device_id)).map
        (·.mailbox_seq)).map (Prod.mk device_id) := by
    rw [List.map_map]
    refine List.map_congr_left fun e he => ?_
    rw [Function.comp_apply, of_decide_eq_true (List.mem_filter.mp he).2]
  rw [hdevice] at hpairs
  exact hpairs.of_map _

theorem Keyed.distinct_sent (user_id : UUID) (unread_only : Bool) :
    Distinct (·.message.id) (sentMessages user_id unread_only db) := by
  unfold Distinct sentMessages
  rw [List.map_map]
  exact hk.unique.messages.sublist (List.filter_sublist.map _)

theorem Keyed.distinct_chats (user_id : UUID) :
    Distinct (·.chat_id) (chatStates user_id db) := by
  unfold Distinct chatStates
  rw [List.map_map]
  exact hk.unique.chats.sublist (List.filter_sublist.map _)

end Rows

section Purges

variable {db db' : Db}

theorem PurgedFrom.refl (db : Db) : PurgedFrom db db :=
  ⟨id, fun _ => Or.inl rfl, by simp⟩

theorem PurgedFrom.update (h : PurgedFrom db db') (p : Envelope → Bool) (now : Instant) :
    PurgedFrom db (db'.updateEnvelopes p (Db.purged now)) := by
  obtain ⟨f, hf, rfl⟩ := h
  refine ⟨fun e => if p (f e) then Db.purged now (f e) else f e, ?_, ?_⟩
  · intro e
    beta_reduce
    by_cases hp : p (f e) = true
    · right
      refine ⟨now, ?_⟩
      rw [if_pos hp]
      rcases hf e with he | ⟨now', he⟩ <;> rw [he]
      rfl
    · rw [if_neg hp]
      exact hf e
  · simp only [Db.updateEnvelopes, List.map_map]
    rfl

/-- What purging does to an envelope keeps its keys. -/
theorem keepsKeys_of_purges {f : Envelope → Envelope}
    (hf : ∀ e, f e = e ∨ ∃ now, f e = Db.purged now e) : KeepsKeys f := by
  constructor <;> intro e <;> rcases hf e with he | ⟨now, he⟩ <;> rw [he] <;> rfl

theorem PurgedFrom.keyed (h : PurgedFrom db db') (hk : Keyed db) : Keyed db' := by
  obtain ⟨f, hf, rfl⟩ := h
  have hkeeps := keepsKeys_of_purges hf
  have hunique : (db.updateEnvelopes (fun _ => true) f).uniqueKeys :=
    uniqueKeys_updateEnvelopes hk.unique hkeeps _
  constructor
  case unique => simpa [Db.updateEnvelopes] using hunique
  case envelope_message =>
    intro e he
    obtain ⟨e', he', rfl⟩ := List.mem_map.mp he
    rw [hkeeps.message_id]
    exact hk.envelope_message e' he'
  case seq_pos =>
    intro e he
    obtain ⟨e', he', rfl⟩ := List.mem_map.mp he
    rw [hkeeps.seq]
    exact hk.seq_pos e' he'
  case message_text => exact hk.message_text
  case chat_text => exact hk.chat_text

/-- Purging keeps the keys of a mailbox. -/
theorem PurgedFrom.mailbox_keys (h : PurgedFrom db db') (device_id : UUID) :
    (mailboxEntries device_id db').map (·.envelope.mailbox_seq) =
      (mailboxEntries device_id db).map (·.envelope.mailbox_seq) := by
  obtain ⟨f, hf, rfl⟩ := h
  have hkeeps := keepsKeys_of_purges hf
  have hfilter : (db.envelopes.map f).filter (fun e => decide (e.recipient_device_id = device_id)) =
      (db.envelopes.filter fun e => decide (e.recipient_device_id = device_id)).map f := by
    rw [List.filter_map]
    congr 1
    refine List.filter_congr fun e _ => ?_
    rw [Function.comp_apply, hkeeps.device]
  simp only [mailboxEntries, hfilter, List.map_flatMap, List.flatMap_map, List.map_map,
    hkeeps.message_id]
  refine List.flatMap_congr fun e _ => List.map_congr_left fun m _ => ?_
  exact hkeeps.seq e

end Purges

/-! ## The queries -/

section Queries

variable {db : Db} (hk : Keyed db)

/-- A condition on what a list is expanded from. -/
theorem filter_flatMap_of {α β : Type} {g : α → List β} {p : α → Bool} {q : β → Bool}
    (h : ∀ a, ∀ b ∈ g a, q b = p a) (l : List α) :
    (l.flatMap g).filter q = (l.filter p).flatMap g := by
  induction l with
  | nil => rfl
  | cons a rest ih =>
      rw [List.flatMap_cons, List.filter_append, ih]
      cases hp : p a with
      | true =>
          rw [List.filter_cons_of_pos hp, List.flatMap_cons]
          congr 1
          exact List.filter_eq_self.mpr fun b hb => (h a b hb).trans hp
      | false =>
          rw [List.filter_cons_of_neg (by simp [hp])]
          have hnone : (g a).filter q = [] :=
            List.filter_eq_nil_iff.mpr fun b hb => by simp [h a b hb, hp]
          rw [hnone, List.nil_append]

include hk

theorem Keyed.mailboxRows_eq (device_id : UUID) (after_seq limit : Nat) :
    db.mailboxRows device_id after_seq limit =
      (following (·.envelope.mailbox_seq) (some after_seq)
        (mailboxEntries device_id db)).take (limit + 1) := by
  unfold Db.mailboxRows
  congr 1
  refine Keyset.eq_following_of_le (hk.distinct_mailbox device_id) ?_ ?_
  · have hfilter : (mailboxEntries device_id db).filter
        (beyond (·.envelope.mailbox_seq) (some after_seq)) =
        (db.envelopes.filter fun e => decide (e.recipient_device_id = device_id ∧
          after_seq < e.mailbox_seq)).flatMap fun e =>
            (db.messages.filter fun m => decide (m.id = e.message_id)).map fun m => ⟨e, m⟩ := by
      unfold mailboxEntries
      rw [filter_flatMap_of (p := fun e => decide (after_seq < e.mailbox_seq)), List.filter_filter]
      · congr 1
        refine List.filter_congr fun e _ => ?_
        rw [Bool.and_comm, Bool.decide_and]
      · intro e entry hentry
        obtain ⟨m, -, rfl⟩ := List.mem_map.mp hentry
        rfl
    rw [hfilter]
    exact (List.perm_insertionSort _ _).flatMap_right _
  · have hsorted := List.pairwise_insertionSort
      (fun a b : Envelope => a.mailbox_seq ≤ b.mailbox_seq)
      (db.envelopes.filter fun e => decide (e.recipient_device_id = device_id ∧
        after_seq < e.mailbox_seq))
    refine List.pairwise_flatMap.mpr ⟨fun e _ => ?_, hsorted.imp fun hab x hx y hy => ?_⟩
    · refine List.pairwise_map.mpr (List.pairwise_of_forall fun _ _ => le_refl _)
    · obtain ⟨m, -, rfl⟩ := List.mem_map.mp hx
      obtain ⟨m', -, rfl⟩ := List.mem_map.mp hy
      exact hab

/-- Positions count from 1, so the walk from 0 begins before all of them. -/
theorem Keyed.following_zero (device_id : UUID) :
    following (·.envelope.mailbox_seq) (some 0) (mailboxEntries device_id db) =
      following (·.envelope.mailbox_seq) none (mailboxEntries device_id db) := by
  unfold following
  congr 1
  refine List.filter_congr fun entry hentry => ?_
  obtain ⟨e, he, hentry⟩ := List.mem_flatMap.mp hentry
  obtain ⟨m, -, rfl⟩ := List.mem_map.mp hentry
  exact decide_eq_true (hk.seq_pos e (List.mem_filter.mp he).1)

theorem Keyed.sentRows_eq (user_id : UUID) (after : Option UUID) (limit : Nat)
    (unread_only : Bool) :
    (db.sentRows user_id after limit unread_only).map
      (fun m => (⟨m, db.envelopesOf m.id⟩ : StoredMessage)) =
      (following (·.message.id) after (sentMessages user_id unread_only db)).take (limit + 1) := by
  unfold Db.sentRows
  rw [List.map_take]
  congr 1
  refine Keyset.eq_following_of_le (hk.distinct_sent user_id unread_only) ?_ ?_
  · refine ((List.perm_insertionSort _ _).map _).trans (List.Perm.of_eq ?_)
    unfold sentMessages
    rw [List.filter_map, List.filter_filter]
    congr 1
    refine List.filter_congr fun m _ => ?_
    cases after with
    | none => simp [beyond, Bool.and_assoc]
    | some id =>
        simp only [Option.all_some, beyond, Function.comp_apply]
        cases decide (id < m.id) <;> simp
  · refine List.pairwise_map.mpr ?_
    exact List.pairwise_insertionSort (fun a b : Message => a.id ≤ b.id) _

theorem Keyed.chatRows_eq (user_id : UUID) (after : Option UUID) (limit : Nat) :
    (db.chatRows user_id after limit).map (fun c => chatState c (db.membersOf c.id) db.readStates) =
      (following (·.chat_id) after (chatStates user_id db)).take (limit + 1) := by
  unfold Db.chatRows
  rw [List.map_take]
  congr 1
  refine Keyset.eq_following_of_le (hk.distinct_chats user_id) ?_ ?_
  · refine ((List.perm_insertionSort _ _).map _).trans (List.Perm.of_eq ?_)
    unfold chatStates
    rw [List.filter_map, List.filter_filter]
    congr 1
    refine List.filter_congr fun c _ => ?_
    cases after with
    | none => simp [beyond]
    | some id => simp [beyond, chatState, Bool.and_comm]
  · refine List.pairwise_map.mpr ?_
    exact List.pairwise_insertionSort (fun a b : Chat => a.id ≤ b.id) _

end Queries

/-! ## The endpoints -/

/-- `mailbox` from the start or after a position. -/
def mailboxApi (principal : Principal) (limit : Nat) :
    Endpoint Sql Sql.Answer PyError MailboxPage Nat MailboxEntry where
  read after := mailbox principal (after.getD 0) limit
  rows page := page.entries
  next page := some page.next_seq
  more page := page.has_more

/-- `sent_page`. -/
def sentApi (principal : Principal) (unread_only : Bool) (limit : Nat) :
    Endpoint Sql Sql.Answer PyError SentMessagesPage UUID StoredMessage where
  read after := sent_page principal after limit unread_only
  rows page := page.messages
  next page := page.next_message_id
  more page := page.has_more

/-- `ChatReadService.page`. -/
def chatStatesApi (principal : Principal) (limit : Nat) :
    Endpoint Sql Sql.Answer PyError ChatStatesPage UUID ChatState where
  read after := states_page principal after limit
  rows page := page.states
  next page := page.next_chat_id
  more page := page.has_more

/-- The database is `db`, up to purged payloads, and nobody else is at work. -/
def Kept (t : Tid) (db : Db) (w : World) : Prop :=
  ∃ db' past, Calm t db' past id w ∧ PurgedFrom db db'

/-- The database is `db`, and nobody else is at work. -/
def Still (t : Tid) (db : Db) (w : World) : Prop :=
  ∃ past, Calm t db past id w

section Endpoints

variable {sec : Security} {t : Tid} {db : Db} {principal : Principal} {limit : Nat}

theorem Keyed.mailbox_page (hk : Keyed db) (device_id : UUID) (after : Option Nat) :
    Keyset.Endpoint.PageOf (mailboxApi principal limit) (·.envelope.mailbox_seq) limit after
      (mailboxEntries device_id db)
      (mailboxPage (db.mailboxRows device_id (after.getD 0) limit) (after.getD 0) limit) := by
  have hfollowing : following (·.envelope.mailbox_seq) (some (after.getD 0))
      (mailboxEntries device_id db) =
        following (·.envelope.mailbox_seq) after (mailboxEntries device_id db) := by
    cases after with
    | none => exact hk.following_zero device_id
    | some a => rfl
  have hrows := hk.mailboxRows_eq device_id (after.getD 0) limit
  rw [hfollowing] at hrows
  constructor
  case rows =>
    show (db.mailboxRows device_id (after.getD 0) limit).take limit = _
    rw [hrows]
    rfl
  case more =>
    show decide ((db.mailboxRows device_id (after.getD 0) limit).length > limit) = _
    rw [hrows]
    rfl
  case next =>
    intro r hr
    have hr : ((db.mailboxRows device_id (after.getD 0) limit).take limit).getLast? = some r := hr
    simp only [mailboxApi, mailboxPage, hr, Option.map_some, Option.getD_some]

/-- Reading the mailbox alone. -/
theorem mailbox_serves (hk : Keyed db) :
    Keyset.Endpoint.Serves (mailboxApi principal limit) (quiet sec) t (·.envelope.mailbox_seq) limit
      (Kept t db) fun w => mailboxEntries principal.device_id w.db := by
  constructor
  case distinct =>
    rintro w ⟨db', past, hcalm, hpurged⟩
    rw [hcalm.db]
    exact (hpurged.keyed hk).distinct_mailbox _
  case serves =>
    rintro after w ⟨db', past, hcalm, hpurged⟩
    have hk' := hpurged.keyed hk
    show Alone sec t (mailbox principal (after.getD 0) limit) _ _ w
    unfold mailbox purge_expired_for_device
    refine Total.bind (alone_now fun now => ?_)
    refine Total.bind (alone_executeUpdate hcalm fun n q w₁ h₁ => ?_)
    refine Total.bind (alone_query h₁ ?_)
    have hstep := hpurged.update q now
    refine Total.bind (alone_commit h₁ (hstep.keyed hk).unique fun w₂ h₂ => .ret ?_)
    have hdb : w₂.db = db'.updateEnvelopes q (Db.purged now) := h₂.db
    refine ⟨⟨_, _, h₂, hstep⟩, ?_, ?_⟩
    · rw [hdb, hcalm.db, hstep.mailbox_keys, hpurged.mailbox_keys]
    · rw [hdb]
      exact (hstep.keyed hk).mailbox_page _ _

/-- Reading the sent messages alone. -/
theorem sent_serves (hk : Keyed db) (unread_only : Bool) :
    Keyset.Endpoint.Serves (sentApi principal unread_only limit) (quiet sec) t (·.message.id) limit
      (Still t db) fun w => sentMessages principal.user_id unread_only w.db := by
  constructor
  case distinct =>
    rintro w ⟨past, hcalm⟩
    rw [hcalm.db]
    exact hk.distinct_sent _ _
  case serves =>
    rintro after w ⟨past, hcalm⟩
    show Alone sec t (sent_page principal after limit unread_only) _ _ w
    unfold sent_page
    refine Total.bind (alone_query hcalm ?_)
    refine Total.bind (alone_query hcalm (.ret ?_))
    have hrows := hk.sentRows_eq principal.user_id after limit unread_only
    have hmessages : ((db.sentRows principal.user_id after limit unread_only).take limit).map
        (fun m => (⟨m, db.envelopesOf m.id⟩ : StoredMessage)) =
          (Keyset.page (·.message.id) limit after
            (sentMessages principal.user_id unread_only db)).rows := by
      rw [List.map_take, hrows]
      rfl
    have hlength := congrArg List.length hrows
    rw [List.length_map] at hlength
    refine ⟨⟨past, hcalm⟩, rfl, ?_⟩
    rw [hcalm.db]
    constructor
    case rows => exact hmessages
    case more =>
      show decide ((db.sentRows principal.user_id after limit unread_only).length > limit) = _
      rw [hlength]
      rfl
    case next =>
      intro r hr
      have hr : (((db.sentRows principal.user_id after limit unread_only).take limit).map
          (fun m => (⟨m, db.envelopesOf m.id⟩ : StoredMessage))).getLast? = some r := hr
      rw [List.getLast?_map] at hr
      obtain ⟨m, hm, rfl⟩ := Option.map_eq_some_iff.mp hr
      simp only [sentApi, id_eq, hm, Option.map_some, Option.some_or]

/-- Reading the chat states alone. -/
theorem chatStates_serves (hk : Keyed db) :
    Keyset.Endpoint.Serves (chatStatesApi principal limit) (quiet sec) t (·.chat_id) limit
      (Still t db) fun w => chatStates principal.user_id w.db := by
  constructor
  case distinct =>
    rintro w ⟨past, hcalm⟩
    rw [hcalm.db]
    exact hk.distinct_chats _
  case serves =>
    rintro after w ⟨past, hcalm⟩
    show Alone sec t (states_page principal after limit) _ _ w
    unfold states_page
    refine Total.bind (alone_query hcalm ?_)
    refine Total.bind (alone_query hcalm ?_)
    refine Total.bind (alone_query hcalm (.ret ?_))
    have hrows := hk.chatRows_eq principal.user_id after limit
    have hstates : ((db.chatRows principal.user_id after limit).take limit).map
        (fun c => chatState c (db.membersOf c.id) db.readStates) =
          (Keyset.page (·.chat_id) limit after (chatStates principal.user_id db)).rows := by
      rw [List.map_take, hrows]
      rfl
    have hlength := congrArg List.length hrows
    rw [List.length_map] at hlength
    refine ⟨⟨past, hcalm⟩, rfl, ?_⟩
    rw [hcalm.db]
    constructor
    case rows => exact hstates
    case more =>
      show decide ((db.chatRows principal.user_id after limit).length > limit) = _
      rw [hlength]
      rfl
    case next =>
      intro r hr
      have hr : (((db.chatRows principal.user_id after limit).take limit).map
          (fun c => chatState c (db.membersOf c.id) db.readStates)).getLast? = some r := hr
      rw [List.getLast?_map] at hr
      obtain ⟨c, hc, rfl⟩ := Option.map_eq_some_iff.mp hr
      simp only [chatStatesApi, id_eq, hc, Option.map_some, Option.some_or]
      rfl

end Endpoints

end Server
end SecureMessenger
