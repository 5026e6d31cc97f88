import SecureMessenger.Client.DeliveryEvidence
import SecureMessenger.Client.ScopeIsolation
import SecureMessenger.EndToEnd.Wire
import SecureMessenger.Server.Mailboxes

/-!
# Acceptances of messages the server has

The inbox of a sender records which of its commands have been accepted, and the
metadata of sent messages.  Its transactions keep this record true: what it
names are messages of the server, each under the command it was sent by.
-/

namespace SecureMessenger
namespace EndToEnd
namespace Acceptance

open Lib
open Client (Stored Database OutgoingCommand SentMessage InboxScope scopeKey recordKey)

/-- The snapshot is one of the message. -/
structure Describes (m : SentMessage) (message : Server.Message) : Prop where
  id : m.id = message.id
  chat : m.chatId = message.chat_id
  user : m.senderUserId = message.sender_user_id
  device : m.senderDeviceId = message.sender_device_id
  client : m.clientMessageId = message.client_message_id

/-- The snapshot is one of a message the server has. -/
def Genuine (server : Server.Db) (m : SentMessage) : Prop :=
  ∃ message ∈ server.messages, Describes m message

/-- The acceptance is one of the command in the row, sent by the device of its
scope. -/
structure Answers (r : Stored OutgoingCommand) (m : SentMessage) : Prop where
  client : m.clientMessageId = r.value.command.client_message_id
  chat : m.chatId = r.value.command.chat_id
  device : ∀ scope, r.scope = scopeKey scope → m.senderDeviceId = scope.deviceId

/-- The record of the inbox is true. -/
structure SentRows (server : Server.Db) (db : Database) : Prop where
  keyed : ∀ r ∈ db.outgoing, r.key = recordKey r.scope r.value.command.client_message_id
  indexed : ∀ r ∈ db.outgoing, r.message = r.value.accepted.map fun a => [r.scope, a.id]
  accepted : ∀ r ∈ db.outgoing, ∀ a, r.value.accepted = some a →
    Genuine server a ∧ Answers r a
  metadata : ∀ r ∈ db.sentMetadata, Genuine server r.value

section Record

variable {scope : InboxScope} {server server' : Server.Db} {db db' : Database}
  {m m' : SentMessage}

theorem Genuine.grow (h : Genuine server m) (hg : ∀ x ∈ server.messages, x ∈ server'.messages) :
    Genuine server' m := by
  obtain ⟨message, hmem, hm⟩ := h
  exact ⟨message, hg _ hmem, hm⟩

/-- Other envelopes, the same message. -/
theorem Genuine.same (h : Genuine server m) (hid : m'.id = m.id) (hchat : m'.chatId = m.chatId)
    (huser : m'.senderUserId = m.senderUserId) (hdevice : m'.senderDeviceId = m.senderDeviceId)
    (hclient : m'.clientMessageId = m.clientMessageId) : Genuine server m' := by
  obtain ⟨message, hmem, hm⟩ := h
  exact ⟨message, hmem, hid.trans hm.id, hchat.trans hm.chat, huser.trans hm.user,
    hdevice.trans hm.device, hclient.trans hm.client⟩

/-- Two snapshots of one message agree on where it belongs. -/
theorem Genuine.answers (hu : server.uniqueKeys) (h : Genuine server m) (h' : Genuine server m')
    (hid : m'.id = m.id) {r r' : Stored OutgoingCommand} (ha : Answers r m)
    (hscope : r'.scope = r.scope) (hcommand : r'.value.command = r.value.command) :
    Answers r' m' := by
  obtain ⟨message, hmem, hm⟩ := h
  obtain ⟨message', hmem', hm'⟩ := h'
  have hsame : message' = message := by
    refine List.inj_on_of_nodup_map hu.messages hmem' hmem ?_
    rw [← hm.id, ← hm'.id, hid]
  subst hsame
  refine ⟨?_, ?_, fun _ hs => ?_⟩
  · rw [hm'.client, ← hm.client, ha.client, hcommand]
  · rw [hm'.chat, ← hm.chat, ha.chat, hcommand]
  · rw [hm'.device, ← hm.device, ha.device _ (hscope.symm.trans hs)]

theorem SentRows.grow (h : SentRows server db)
    (hg : ∀ x ∈ server.messages, x ∈ server'.messages) : SentRows server' db :=
  ⟨h.keyed, h.indexed, fun r hr a ha => ⟨(h.accepted r hr a ha).1.grow hg,
    (h.accepted r hr a ha).2⟩, fun r hr => (h.metadata r hr).grow hg⟩

theorem SentRows.congr (h : SentRows server db) (hout : db'.outgoing = db.outgoing)
    (hmeta : db'.sentMetadata = db.sentMetadata) : SentRows server db' :=
  ⟨hout ▸ h.keyed, hout ▸ h.indexed, hout ▸ h.accepted, hmeta ▸ h.metadata⟩

/-- A row is written. -/
theorem SentRows.put (h : SentRows server db) {w : Stored OutgoingCommand}
    (hkey : w.key = recordKey w.scope w.value.command.client_message_id)
    (hindex : w.message = w.value.accepted.map fun a => [w.scope, a.id])
    (haccepted : ∀ a, w.value.accepted = some a → Genuine server a ∧ Answers w a)
    (hout : db'.outgoing = Store.put Stored.key w db.outgoing)
    (hmeta : ∀ r ∈ db'.sentMetadata, Genuine server r.value) :
    SentRows server db' := by
  refine ⟨fun r hr => ?_, fun r hr => ?_, fun r hr => ?_, hmeta⟩
  all_goals
    rw [hout] at hr
    rcases Store.mem_put hr with rfl | hr
  · exact hkey
  · exact h.keyed r hr
  · exact hindex
  · exact h.indexed r hr
  · exact haccepted
  · exact h.accepted r hr

theorem SentRows.row_at (h : SentRows server db) {id : String} {r : Stored OutgoingCommand}
    (hr : Client.outgoingAt scope id db = some r) : r ∈ db.outgoing ∧ r.scope = scopeKey scope ∧
      r.value.command.client_message_id = id := by
  obtain ⟨hmem, hkey⟩ := Store.get_some hr
  rw [h.keyed r hmem, Client.recordKey_inj] at hkey
  exact ⟨hmem, hkey⟩

theorem SentRows.row_by (h : SentRows server db) {id : String} {r : Stored OutgoingCommand}
    (hr : Client.outgoingByMessage scope id db = some r) : r ∈ db.outgoing ∧
      r.scope = scopeKey scope ∧ ∃ a, r.value.accepted = some a ∧ a.id = id := by
  have hmem := List.mem_of_find?_eq_some hr
  have hindex := List.find?_some hr
  rw [decide_eq_true_eq, h.indexed r hmem, Option.map_eq_some_iff] at hindex
  obtain ⟨a, ha, heq⟩ := hindex
  simp only [List.cons.injEq, and_true] at heq
  exact ⟨hmem, heq.1, a, ha, heq.2⟩

end Record

/-! ## The transactions -/

section Transactions

variable {scope : InboxScope} {server : Server.Db} {db db' : Database}

/-- A new acceptance is written over a row. -/
theorem SentRows.accept (h : SentRows server db) {r : Stored OutgoingCommand}
    (hr : r ∈ db.outgoing) {createdAt : Option String} {a : SentMessage}
    (hgenuine : Genuine server a)
    (hanswers : Answers (Client.withAccepted r createdAt a) a)
    (hout : db'.outgoing = Store.put Stored.key (Client.withAccepted r createdAt a) db.outgoing)
    (hmeta : ∀ r ∈ db'.sentMetadata, Genuine server r.value) : SentRows server db' := by
  refine h.put (w := Client.withAccepted r createdAt a) (h.keyed r hr) rfl (fun b hb => ?_) hout
    hmeta
  obtain rfl : a = b := Option.some.inj hb
  exact ⟨hgenuine, hanswers⟩

theorem SentRows.putOutgoing (h : SentRows server db) {command : Client.SendMessageRequest}
    {replaceRejected : Bool} {now : String} {value : OutgoingCommand}
    (hok : Client.putOutgoing scope command replaceRejected now db = .ok (value, db')) :
    SentRows server db' := by
  obtain ⟨_, -, hok⟩ := Client.ok_of_bind hok
  have hput : ∀ {createdAt : Option String} {db₁ : Database}, Client.putOutgoingRow
      (Client.indexedOutgoing (Client.record (scopeKey scope) command.client_message_id
        ⟨command, none, createdAt⟩)) db = .ok db₁ → SentRows server db₁ := by
    intro createdAt db₁ hput
    obtain rfl := Client.putOutgoingRow_ok hput
    exact h.put rfl rfl (fun a ha => by cases ha) rfl h.metadata
  cases hrow : Client.outgoingAt scope command.client_message_id db with
  | none =>
      simp only [hrow] at hok
      obtain ⟨db₁, hdb₁, hok⟩ := Client.ok_of_bind hok
      simp only [pure, Except.pure, Except.ok.injEq, Prod.mk.injEq] at hok
      exact hok.2 ▸ hput hdb₁
  | some existing =>
      simp only [hrow] at hok
      split_ifs at hok
      · cases hok
      · cases hok
      · cases hok
      · obtain ⟨db₁, hdb₁, hok⟩ := Client.ok_of_bind hok
        simp only [pure, Except.pure, Except.ok.injEq, Prod.mk.injEq] at hok
        exact hok.2 ▸ hput hdb₁
      · simp only [pure, Except.pure, Except.ok.injEq, Prod.mk.injEq] at hok
        exact hok.2 ▸ h

/-- The server has accepted a command. -/
theorem SentRows.acceptOutgoing (h : SentRows server db) {message : SentMessage}
    {value : OutgoingCommand} (hm : Genuine server message)
    (hok : Client.acceptOutgoing scope message db = .ok (value, db')) :
    SentRows server db' := by
  obtain ⟨_, -, hok⟩ := Client.ok_of_bind hok
  split_ifs at hok with hsender
  · cases hok
  · simp only [not_or, not_not] at hsender
    cases hrow : Client.outgoingAt scope message.clientMessageId db with
    | none => simp [hrow] at hok
    | some existing =>
        obtain ⟨hmem, hscope, hid⟩ := h.row_at hrow
        simp only [hrow] at hok
        split_ifs at hok with hchat
        · cases hok
        · obtain ⟨db₁, hput, hok⟩ := Client.ok_of_bind hok
          simp only [pure, Except.pure, Except.ok.injEq, Prod.mk.injEq] at hok
          obtain rfl := hok.2
          obtain rfl := Client.putOutgoingRow_ok hput
          let accepted : SentMessage :=
            { message with
              chatSeq := message.chatSeq.or
                (existing.value.accepted.bind fun a : SentMessage => a.chatSeq)
              envelopes := (Client.acceptEnvelopes scope existing.value.accepted message.envelopes
                db.receipts).1 }
          refine h.accept (a := accepted) hmem (hm.same rfl rfl rfl rfl rfl)
            ⟨hid.symm, (not_not.mp hchat).symm, fun other hother => ?_⟩ rfl h.metadata
          rw [Client.scopeKey_inj (hother.symm.trans hscope)]
          exact hsender.1

/-- A receipt changes envelopes only. -/
theorem SentRows.applyDeliveryReceipt (h : SentRows server db)
    {receipt : Client.MessageEnvelope} {value : Option OutgoingCommand}
    (hok : Client.applyDeliveryReceipt scope receipt db = .ok (value, db')) :
    SentRows server db' := by
  unfold Client.applyDeliveryReceipt at hok
  split_ifs at hok with hnone
  · cases hok
  · obtain ⟨_, -, hok⟩ := Client.ok_of_bind hok
    have h₁ : SentRows server (Client.applyReceiptToMetadata scope receipt db) := by
      unfold Client.applyReceiptToMetadata
      cases hmeta : Client.metadataAt scope receipt.message_id db with
      | none => exact h
      | some metadata =>
          refine ⟨h.keyed, h.indexed, h.accepted, fun r hr => ?_⟩
          rcases Store.mem_put hr with rfl | hr
          · exact (h.metadata metadata (Store.get_some hmeta).1).same rfl rfl rfl rfl rfl
          · exact h.metadata r hr
    simp only at hok
    generalize Client.applyReceiptToMetadata scope receipt db = db₁ at hok h₁
    split at hok
    · simp only [pure, Except.pure, Except.ok.injEq, Prod.mk.injEq] at hok
      rw [← hok.2]
      exact h₁.congr rfl rfl
    · rename_i entry hrow
      split at hok
      · simp only [pure, Except.pure, Except.ok.injEq, Prod.mk.injEq] at hok
        rw [← hok.2]
        exact h₁.congr rfl rfl
      · rename_i accepted haccepted
        split_ifs at hok with hsame
        · simp only [pure, Except.pure, Except.ok.injEq, Prod.mk.injEq] at hok
          rw [← hok.2]
          exact h₁
        · obtain ⟨db₂, hput, hok⟩ := Client.ok_of_bind hok
          simp only [pure, Except.pure, Except.ok.injEq, Prod.mk.injEq] at hok
          obtain rfl := hok.2
          obtain rfl := Client.putOutgoingRow_ok hput
          have hmem := (h₁.row_by hrow).1
          obtain ⟨hgenuine, hanswers⟩ := h₁.accepted entry hmem accepted haccepted
          exact h₁.accept
            (a := { accepted with
              envelopes := accepted.envelopes.map (Client.applyReceipt receipt) })
            hmem (hgenuine.same rfl rfl rfl rfl rfl)
            ⟨hanswers.client, hanswers.chat, hanswers.device⟩ rfl h₁.metadata

/-- What `mergeSentMetadata` does to the other tables. -/
theorem mergeSentMetadata_tables {message value : SentMessage}
    (h : Client.mergeSentMetadata scope message db = .ok (value, db')) :
    value.id = message.id ∧ db'.readStates = db.readStates ∧
      db'.sentMetadata = (Client.putMetadata scope value db).sentMetadata := by
  unfold Client.mergeSentMetadata at h
  obtain ⟨_, -, h⟩ := Client.ok_of_bind h
  split_ifs at h with hsender
  · cases h
  · simp only at h
    cases hrow : Client.outgoingByMessage scope message.id db with
    | none =>
        simp only [hrow, pure, Except.pure, Except.ok.injEq, Prod.mk.injEq] at h
        obtain ⟨rfl, rfl⟩ := h
        exact ⟨rfl, rfl, rfl⟩
    | some row =>
        simp only [hrow] at h
        obtain ⟨db₁, hrows, h⟩ := Client.ok_of_bind h
        simp only [pure, Except.pure, Except.ok.injEq, Prod.mk.injEq] at h
        obtain ⟨rfl, rfl⟩ := h
        rw [Client.putOutgoingRow_ok hrows]
        exact ⟨rfl, rfl, rfl⟩

/-- Metadata of a message is stored, and merged into its row if there is one. -/
theorem SentRows.mergeSentMetadata (h : SentRows server db) (hu : server.uniqueKeys)
    {message value : SentMessage} (hm : Genuine server message)
    (hok : Client.mergeSentMetadata scope message db = .ok (value, db')) :
    SentRows server db' ∧ Genuine server value := by
  obtain ⟨-, -, htable⟩ := mergeSentMetadata_tables hok
  obtain ⟨-, hvalue, hout⟩ := Client.mergeSentMetadata_ok hok
  have hgenuine : Genuine server value := by
    rw [hvalue]
    exact hm.same rfl rfl rfl rfl rfl
  have hmeta : ∀ r ∈ db'.sentMetadata, Genuine server r.value := by
    rw [htable]
    intro r hr
    rcases Store.mem_put hr with rfl | hr
    · exact hgenuine
    · exact h.metadata r hr
  refine ⟨?_, hgenuine⟩
  rcases hout with ⟨-, hout⟩ | ⟨row, hrow, hout⟩
  · exact ⟨hout ▸ h.keyed, hout ▸ h.indexed, hout ▸ h.accepted, hmeta⟩
  · obtain ⟨hmem, -, a, ha, hid⟩ := h.row_by hrow
    obtain ⟨hold, hanswers⟩ := h.accepted row hmem a ha
    have hsame : value.id = a.id := by
      rw [hvalue, hid]
    exact h.accept hmem hgenuine (hold.answers hu hgenuine hsame hanswers rfl rfl) hout hmeta

end Transactions

end Acceptance
end EndToEnd
end SecureMessenger
