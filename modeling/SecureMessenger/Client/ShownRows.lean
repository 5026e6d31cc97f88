import SecureMessenger.Client.Convergence
import SecureMessenger.Client.HistoryWalks
import SecureMessenger.Client.MessengerService

/-!
# Stored and decoded messages of one's own

The accepted rows of a device and what a receipt or the server's metadata do to
them; a page of the history as a snapshot of the rows, and what its messages are
made of.
-/

namespace SecureMessenger
namespace Client
namespace Shown

open Lib

section Rows

/-! ## The outgoing rows under the transactions -/

/-- `messageId` of the message that `decodeOutgoing` makes of a command. -/
def commandMessageId (scope : InboxScope) (outgoing : OutgoingCommand) : String :=
  (outgoing.accepted.map (·.id)).getD
    ("pending:" ++ scope.deviceId ++ ":" ++ outgoing.command.client_message_id)

/-- Rank of the status that an accepted copy is shown with. -/
def acceptedRank (accepted : SentMessage) : Nat :=
  statusRank (some (deliveryState (some accepted)).1.toMessageStatus)

theorem two_le_acceptedRank (accepted : SentMessage) : 2 ≤ acceptedRank accepted := by
  unfold acceptedRank deliveryState
  simp only
  split_ifs <;> decide

/-- An accepted copy of a row of the scope. -/
def OwnRow (scope : InboxScope) (db : Database) (r : Stored OutgoingCommand) (a : SentMessage) :
    Prop :=
  r ∈ db.outgoing ∧ r.scope = scopeKey scope ∧ r.value.accepted = some a

/-- The inbox of a device that the server sends none of its own messages.  A
message has one id, and one chat, which its copies and its command name. -/
structure OwnRows (chatOf : String → String) (scope : InboxScope) (db : Database) : Prop where
  store : HistoryStore db
  chats : ∀ r a, OwnRow scope db r a →
    a.chatId = chatOf a.id ∧ r.value.command.chat_id = chatOf a.id
  distinct : ∀ r a, OwnRow scope db r a → ∀ r' ∈ db.outgoing, r'.scope = scopeKey scope →
    commandMessageId scope r'.value = a.id → r' = r
  received : ∀ r a, OwnRow scope db r a → ∀ e ∈ db.envelopes, e.scope = scopeKey scope →
    e.value.message_id ≠ a.id

/-- A transaction has replaced the accepted copy `b` of a row by `a`. -/
structure Rewrites (scope : InboxScope) (r : Stored OutgoingCommand) (b a : SentMessage)
    (db db' : Database) : Prop where
  row : OwnRow scope db r b
  id_eq : a.id = b.id
  envelopes : db'.envelopes = db.envelopes
  outgoing : db'.outgoing = Store.put Stored.key (withAccepted r r.value.createdAt a) db.outgoing

variable {chatOf : String → String} {scope : InboxScope} {db db' : Database}

theorem Rewrites.mem_iff {r : Stored OutgoingCommand} {b a : SentMessage}
    (h : Rewrites scope r b a db db') (hstore : HistoryStore db) {x : Stored OutgoingCommand} :
    x ∈ db'.outgoing ↔
      x = withAccepted r r.value.createdAt a ∨ (x ∈ db.outgoing ∧ x.key ≠ r.key) := by
  rw [h.outgoing, Store.mem_put_iff hstore.outgoingOrdered]
  rfl

/-- The rows of a rewritten store: the new row, and the others as they were. -/
theorem Rewrites.ownRow {r : Stored OutgoingCommand} {b a : SentMessage}
    (h : Rewrites scope r b a db db') (hstore : HistoryStore db) {r' : Stored OutgoingCommand}
    {a' : SentMessage} (hr' : OwnRow scope db' r' a') :
    (r' = withAccepted r r.value.createdAt a ∧ a' = a) ∨ (OwnRow scope db r' a' ∧ r' ≠ r) := by
  rcases (h.mem_iff hstore).mp hr'.1 with rfl | ⟨hmem, hkey⟩
  · exact .inl ⟨rfl, (Option.some.inj hr'.2.2).symm⟩
  · exact .inr ⟨⟨hmem, hr'.2⟩, fun heq => hkey (heq ▸ rfl)⟩

theorem Rewrites.ownRows {r : Stored OutgoingCommand} {b a : SentMessage}
    (h : Rewrites scope r b a db db') (hdb : OwnRows chatOf scope db)
    (hchat : a.chatId = chatOf a.id) : OwnRows chatOf scope db' := by
  obtain ⟨hmem, hscope, hb⟩ := h.row
  have hstore := hdb.store
  have hid : commandMessageId scope r.value = b.id := by
    rw [commandMessageId, hb]
    rfl
  have hnew : commandMessageId scope (withAccepted r r.value.createdAt a).value = b.id := h.id_eq
  refine ⟨⟨?_, ?_, ?_, ?_, ?_, ?_⟩, ?_, ?_, ?_⟩
  · rw [h.envelopes]
    exact hstore.envelopesOrdered
  · rw [h.envelopes]
    exact hstore.envelopesKeyed
  · rw [h.envelopes]
    exact hstore.envelopesIndexed
  · rw [h.outgoing]
    exact Store.ordered_put hstore.outgoingOrdered
  · intro x hx
    rcases (h.mem_iff hstore).mp hx with rfl | ⟨hx, -⟩
    · exact hstore.outgoingKeyed r hmem
    · exact hstore.outgoingKeyed x hx
  · intro x hx
    rcases (h.mem_iff hstore).mp hx with rfl | ⟨hx, -⟩
    · exact indexedOutgoing_idem _
    · exact hstore.outgoingIndexed x hx
  · intro r' a' hr'
    rcases h.ownRow hstore hr' with ⟨rfl, rfl⟩ | ⟨hr', -⟩
    · exact ⟨hchat, h.id_eq ▸ (hdb.chats r b h.row).2⟩
    · exact hdb.chats r' a' hr'
  · intro r' a' hr' x hx hxscope hxid
    rcases h.ownRow hstore hr' with ⟨rfl, rfl⟩ | ⟨hr', hne⟩
    · rcases (h.mem_iff hstore).mp hx with rfl | ⟨hx, hkey⟩
      · rfl
      · obtain rfl := hdb.distinct r b h.row x hx hxscope (hxid.trans h.id_eq)
        exact absurd rfl hkey
    · rcases (h.mem_iff hstore).mp hx with rfl | ⟨hx, -⟩
      · exact absurd (hdb.distinct r' a' hr' r hmem hscope (hid.trans (hnew.symm.trans hxid))).symm
          hne
      · exact hdb.distinct r' a' hr' x hx hxscope hxid
  · intro r' a' hr' e he hescope
    rw [h.envelopes] at he
    rcases h.ownRow hstore hr' with ⟨rfl, rfl⟩ | ⟨hr', -⟩
    · rw [h.id_eq]
      exact hdb.received r b h.row e he hescope
    · exact hdb.received r' a' hr' e he hescope

theorem OwnRows.congr (h : OwnRows chatOf scope db) (henvelopes : db'.envelopes = db.envelopes)
    (hout : db'.outgoing = db.outgoing) : OwnRows chatOf scope db' := by
  obtain ⟨⟨h₁, h₂, h₃, h₄, h₅, h₆⟩, hchats, hdistinct, hreceived⟩ := h
  unfold OwnRow at hchats hdistinct hreceived
  rw [← henvelopes] at h₁ h₂ h₃ hreceived
  rw [← hout] at h₄ h₅ h₆ hchats hdistinct hreceived
  exact ⟨⟨h₁, h₂, h₃, h₄, h₅, h₆⟩, hchats, hdistinct, hreceived⟩

end Rows

section Pages

/-! ## The messages of a page -/

variable {scope : InboxScope} {chatId : String} {db db' : Database}

theorem readChatHistory_rows (h : HistoryStore db) {before : Option ChatHistoryCursor}
    {page : ChatHistoryPage}
    (hok : readChatHistory scope chatId (.integer 50) before db = .ok (page, db')) :
    db' = db ∧
      (∀ e ∈ page.envelopes, ∃ r ∈ db.envelopes, r.scope = scopeKey scope ∧
        r.value.chat_id = chatId ∧ r.value = e) ∧
      ∀ o ∈ page.outgoing, ∃ r ∈ db.outgoing, r.scope = scopeKey scope ∧
        r.value.command.chat_id = chatId ∧ r.value = o := by
  have hvalid : valid scope db = true := by
    have hlimit : ¬((JsNumber.integer 50).isSafeInteger = false ∨ (50 : ℤ) < 1) := by decide
    simp only [readChatHistory, if_neg hlimit] at hok
    obtain ⟨_, hvalidate, -⟩ := ok_of_bind hok
    unfold validate at hvalidate
    split_ifs at hvalidate with hv
    exact hv
  rw [readChatHistory_eq h hvalid (by decide) (by decide)] at hok
  obtain ⟨rfl, rfl⟩ := Prod.mk.inj (Except.ok.inj hok)
  refine ⟨rfl, fun e he => ?_, fun o ho => ?_⟩
  · obtain ⟨row, hrow, hleft⟩ := List.mem_filterMap.mp he
    obtain rfl := Sum.getLeft?_eq_some_iff.mp hleft
    rcases mem_chatRows.mp (Keyset.mem_page hrow).1 with
      ⟨r, hr, ⟨hscope, hchat⟩, heq⟩ | ⟨r, -, -, heq⟩
    · exact ⟨r, hr, hscope, hchat, Sum.inl.inj heq⟩
    · cases heq
  · obtain ⟨row, hrow, hright⟩ := List.mem_filterMap.mp ho
    obtain rfl := Sum.getRight?_eq_some_iff.mp hright
    rcases mem_chatRows.mp (Keyset.mem_page hrow).1 with
      ⟨r, -, -, heq⟩ | ⟨r, hr, ⟨hscope, hchat⟩, heq⟩
    · cases heq
    · exact ⟨r, hr, hscope, hchat, Sum.inr.inj heq⟩

variable {a : ServiceAnswers} {ref : ScopeRef}

/-- What the messages of a page are made of. -/
def OfPage (scope : InboxScope) (page : ChatHistoryPage) (m : DisplayMessage) : Prop :=
  (∃ e ∈ page.envelopes, m.messageId = e.message_id ∧ m.chatId = e.chat_id) ∨
    ∃ o ∈ page.outgoing, m.messageId = commandMessageId scope o ∧
      m.chatId = o.command.chat_id ∧
      ∀ b, o.accepted = some b → statusRank m.status.get = acceptedRank b

end Pages

end Shown
end Client
end SecureMessenger
