import SecureMessenger.Client.HistoryPages

/-!
# Walks through the chat history

A walk reads the history of a chat page by page, each page before the last row
of the one it follows.  Messages are sent, accepted, delivered and committed
again in between; a row that was there when the walk began keeps its place and
is returned once.
-/

namespace SecureMessenger
namespace Client

open Lib

/-- What the server says about messages and envelopes, whenever it is asked. -/
structure ServerFacts where
  /-- When a message was stored. -/
  created : String → String
  /-- The chat of an envelope. -/
  chat : String → String
  /-- When the message of an envelope was stored. -/
  sentAt : String → String

/-- The envelope is as the server has it. -/
def ServerFacts.Agrees (facts : ServerFacts) (envelope : MailboxEnvelope) : Prop :=
  envelope.chat_id = facts.chat envelope.id ∧
    envelope.message_created_at = facts.sentAt envelope.id

/-- The stored data come from the server. -/
structure ServerFacts.Hold (facts : ServerFacts) (db : Database) : Prop where
  outgoing : ∀ r ∈ db.outgoing, ∀ a, r.value.accepted = some a → a.createdAt = facts.created a.id
  envelopes : ∀ r ∈ db.envelopes, facts.Agrees r.value

/-- The data that are written come from the server. -/
def InboxStep.Consistent (facts : ServerFacts) (step : InboxStep) : Prop :=
  step.Agrees facts.created ∧
    ∀ scope cursor envelopes next, step = .commitPage scope cursor envelopes next →
      ∀ e ∈ envelopes, facts.Agrees e

/-- The write is about rows that are there. -/
def InboxStep.Revises (db : Database) (step : InboxStep) : Prop :=
  ¬ step.Inserts db ∧
    ∀ scope cursor envelopes next, step = .commitPage scope cursor envelopes next →
      ∀ e ∈ envelopes, (envelopeAt scope e.id db.envelopes).isSome

/-- One write. -/
def Writes (facts : ServerFacts) (db db' : Database) : Prop :=
  ∃ step : InboxStep, step.Consistent facts ∧ step.apply db = db'

/-- One write about rows that are there. -/
def Revision (facts : ServerFacts) (db db' : Database) : Prop :=
  ∃ step : InboxStep, step.Consistent facts ∧ step.Revises db ∧ step.apply db = db'

/-! ## The envelopes -/

/-- The envelopes as their writers leave them. -/
structure EnvelopeStore (facts : ServerFacts) (store : List (Stored MailboxEnvelope)) : Prop where
  ordered : Store.Ordered Stored.key store
  keyed : ∀ r ∈ store, r.key = recordKey r.scope r.value.id
  indexed : ∀ r ∈ store, indexedEnvelope r = r
  agrees : ∀ r ∈ store, facts.Agrees r.value

section Envelopes

variable {facts : ServerFacts} {scope : InboxScope} {store : List (Stored MailboxEnvelope)}

theorem EnvelopeStore.put (h : EnvelopeStore facts store) {e : MailboxEnvelope}
    (he : facts.Agrees e) : EnvelopeStore facts (storeEnvelope scope store e) := by
  unfold storeEnvelope
  split_ifs with hsame
  · exact h
  · refine ⟨Store.ordered_put h.ordered, fun r hr => ?_, fun r hr => ?_, fun r hr => ?_⟩
    all_goals rcases Store.mem_put hr with rfl | hr
    · rfl
    · exact h.keyed r hr
    · exact indexedEnvelope_idem _
    · exact h.indexed r hr
    · exact he
    · exact h.agrees r hr

/-- A commit keeps the keys. -/
theorem EnvelopeStore.key_storeEnvelope (h : EnvelopeStore facts store) (scope : InboxScope)
    (e : MailboxEnvelope) {r : Stored MailboxEnvelope} (hr : r ∈ store) :
    ∃ w ∈ storeEnvelope scope store e, w.key = r.key := by
  unfold storeEnvelope
  split_ifs with hsame
  · exact ⟨r, hr, rfl⟩
  · generalize hrow : indexedEnvelope _ = w
    by_cases hkey : r.key = w.key
    · exact ⟨w, Store.mem_put_self w _, hkey.symm⟩
    · exact ⟨r, (Store.mem_put_iff h.ordered).mpr (Or.inr ⟨hr, hkey⟩), rfl⟩

/-- A commit of a stored envelope adds no key. -/
theorem key_of_mem_storeEnvelope {e : MailboxEnvelope}
    (hstored : ∃ r ∈ store, r.key = recordKey (scopeKey scope) e.id) {w : Stored MailboxEnvelope}
    (hw : w ∈ storeEnvelope scope store e) : ∃ r ∈ store, r.key = w.key := by
  unfold storeEnvelope at hw
  split_ifs at hw with hsame
  · exact ⟨w, hw, rfl⟩
  · rcases Store.mem_put hw with rfl | hw
    · exact hstored
    · exact ⟨w, hw, rfl⟩

theorem EnvelopeStore.foldl (h : EnvelopeStore facts store) {es : List MailboxEnvelope}
    (hes : ∀ e ∈ es, facts.Agrees e) :
    EnvelopeStore facts (es.foldl (storeEnvelope scope) store) ∧
      ∀ r ∈ store, ∃ w ∈ es.foldl (storeEnvelope scope) store, w.key = r.key := by
  induction es generalizing store with
  | nil => exact ⟨h, fun r hr => ⟨r, hr, rfl⟩⟩
  | cons e rest ih =>
      obtain ⟨hstore, hkept⟩ := ih (h.put (hes e List.mem_cons_self))
        fun e' he' => hes e' (List.mem_cons_of_mem _ he')
      refine ⟨hstore, fun r hr => ?_⟩
      obtain ⟨w, hw, hkey⟩ := h.key_storeEnvelope scope e hr
      obtain ⟨v, hv, hkey'⟩ := hkept w hw
      exact ⟨v, hv, hkey'.trans hkey⟩

theorem EnvelopeStore.key_of_mem_foldl (h : EnvelopeStore facts store) {es : List MailboxEnvelope}
    (hes : ∀ e ∈ es, facts.Agrees e)
    (hstored : ∀ e ∈ es, ∃ r ∈ store, r.key = recordKey (scopeKey scope) e.id)
    {w : Stored MailboxEnvelope} (hw : w ∈ es.foldl (storeEnvelope scope) store) :
    ∃ r ∈ store, r.key = w.key := by
  induction es generalizing store with
  | nil => exact ⟨w, hw, rfl⟩
  | cons e rest ih =>
      have hfirst := hstored e List.mem_cons_self
      obtain ⟨v, hv, hkey⟩ := ih (h.put (hes e List.mem_cons_self))
        (fun e' he' => hes e' (List.mem_cons_of_mem _ he'))
        (fun e' he' => by
          obtain ⟨r, hr, hkey⟩ := hstored e' (List.mem_cons_of_mem _ he')
          obtain ⟨v, hv, hkey'⟩ := h.key_storeEnvelope scope e hr
          exact ⟨v, hv, hkey'.trans hkey⟩) hw
      obtain ⟨r, hr, hkey'⟩ := key_of_mem_storeEnvelope hfirst hv
      exact ⟨r, hr, hkey'.trans hkey⟩

end Envelopes

section Steps

variable {scope : InboxScope} {db db' : Database}

theorem envelopes_putOutgoing {command : SendMessageRequest} {replaceRejected : Bool}
    {now : String} {value : OutgoingCommand}
    (hok : putOutgoing scope command replaceRejected now db = .ok (value, db')) :
    db'.envelopes = db.envelopes := by
  obtain ⟨_, -, hok⟩ := ok_of_bind hok
  cases hrow : outgoingAt scope command.client_message_id db with
  | none =>
      simp only [hrow] at hok
      obtain ⟨db₁, hput, hok⟩ := ok_of_bind hok
      cases hok
      exact envelopes_putOutgoingRow hput
  | some existing =>
      simp only [hrow] at hok
      split_ifs at hok with hreplace haccepted _ hother
      · cases hok
      · cases hok
      · cases hok
      · obtain ⟨db₁, hput, hok⟩ := ok_of_bind hok
        cases hok
        exact envelopes_putOutgoingRow hput
      · cases hok
        rfl

theorem envelopes_acceptOutgoing {message : SentMessage} {value : OutgoingCommand}
    (hok : acceptOutgoing scope message db = .ok (value, db')) :
    db'.envelopes = db.envelopes := by
  obtain ⟨_, -, hok⟩ := ok_of_bind hok
  split_ifs at hok with hsender
  · cases hok
  · cases hrow : outgoingAt scope message.clientMessageId db with
    | none => simp [hrow] at hok
    | some existing =>
        simp only [hrow] at hok
        split_ifs at hok with hchat
        · cases hok
        · obtain ⟨db₁, hput, hok⟩ := ok_of_bind hok
          cases hok
          have henvelopes := envelopes_putOutgoingRow hput
          exact henvelopes

theorem envelopes_applyDeliveryReceipt {receipt : MessageEnvelope}
    {value : Option OutgoingCommand}
    (hok : applyDeliveryReceipt scope receipt db = .ok (value, db')) :
    db'.envelopes = db.envelopes := by
  unfold applyDeliveryReceipt at hok
  split_ifs at hok with hnone
  · cases hok
  · obtain ⟨_, -, hok⟩ := ok_of_bind hok
    have hmeta : (applyReceiptToMetadata scope receipt db).envelopes = db.envelopes := by
      unfold applyReceiptToMetadata
      cases metadataAt scope receipt.message_id db <;> rfl
    simp only at hok
    generalize applyReceiptToMetadata scope receipt db = db₁ at hok hmeta
    split at hok
    · cases hok
      exact hmeta
    · split at hok
      · cases hok
        exact hmeta
      · split_ifs at hok with hsame
        · cases hok
          exact hmeta
        · obtain ⟨db₂, hput, hok⟩ := ok_of_bind hok
          cases hok
          exact (envelopes_putOutgoingRow hput).trans hmeta

theorem envelopes_mergeSentMetadata {message value : SentMessage}
    (hok : mergeSentMetadata scope message db = .ok (value, db')) :
    db'.envelopes = db.envelopes := by
  obtain ⟨_, -, hok⟩ := ok_of_bind hok
  split_ifs at hok with hsender
  · cases hok
  · simp only at hok
    split at hok
    · cases hok
      rfl
    · obtain ⟨db₁, hput, hok⟩ := ok_of_bind hok
      cases hok
      have henvelopes := envelopes_putOutgoingRow hput
      exact henvelopes

/-- **What a write does to the envelopes.** -/
theorem envelopes_step (step : InboxStep) (db : Database) :
    (step.apply db).envelopes = db.envelopes ∨
      ∃ scope cursor es next, step = .commitPage scope cursor es next ∧
        (step.apply db).envelopes = es.foldl (storeEnvelope scope) db.envelopes := by
  cases step with
  | putOutgoing scope command replaceRejected now =>
      simp only [InboxStep.apply, afterTransaction]
      cases hok : putOutgoing scope command replaceRejected now db with
      | error x => exact Or.inl rfl
      | ok r => exact Or.inl (envelopes_putOutgoing hok)
  | acceptOutgoing scope message =>
      simp only [InboxStep.apply, afterTransaction]
      cases hok : acceptOutgoing scope message db with
      | error x => exact Or.inl rfl
      | ok r => exact Or.inl (envelopes_acceptOutgoing hok)
  | applyDeliveryReceipt scope receipt =>
      simp only [InboxStep.apply, afterTransaction]
      cases hok : applyDeliveryReceipt scope receipt db with
      | error x => exact Or.inl rfl
      | ok r => exact Or.inl (envelopes_applyDeliveryReceipt hok)
  | mergeSentMetadata scope message =>
      simp only [InboxStep.apply, afterTransaction]
      cases hok : mergeSentMetadata scope message db with
      | error x => exact Or.inl rfl
      | ok r => exact Or.inl (envelopes_mergeSentMetadata hok)
  | commitPage scope cursor es next =>
      simp only [InboxStep.apply, afterTransaction]
      cases hok : commitPage scope cursor es next db with
      | error x => exact Or.inl rfl
      | ok r =>
          cases next with
          | other => cases hok
          | integer next =>
              obtain ⟨cs, db'⟩ := r
              refine Or.inr ⟨scope, cursor, es, _, rfl, ?_⟩
              show db'.envelopes = _
              rw [(commitPage_ok hok).1.db_eq]
              rfl

end Steps

/-! ## Rows that stay where they are -/

/-- The inbox of a client that hears from one server. -/
structure Served (facts : ServerFacts) (db : Database) : Prop where
  store : HistoryStore db
  facts : facts.Hold db

section Served

variable {facts : ServerFacts} {scope : InboxScope} {chatId : String} {db db' : Database}

theorem Served.outgoing (h : Served facts db) : OutgoingStore facts.created db :=
  ⟨h.store.outgoingOrdered, h.store.outgoingKeyed, h.store.outgoingIndexed, h.facts.outgoing⟩

theorem Served.envelopes (h : Served facts db) : EnvelopeStore facts db.envelopes :=
  ⟨h.store.envelopesOrdered, h.store.envelopesKeyed, h.store.envelopesIndexed, h.facts.envelopes⟩

theorem Served.of_stores (hout : OutgoingStore facts.created db)
    (henv : EnvelopeStore facts db.envelopes) : Served facts db :=
  ⟨⟨henv.ordered, henv.keyed, henv.indexed, hout.ordered, hout.keyed, hout.indexed⟩,
    ⟨hout.agrees, henv.agrees⟩⟩

/-- Every write leaves such an inbox. -/
theorem Served.step (h : Served facts db) {step : InboxStep} (hstep : step.Consistent facts) :
    Served facts (step.apply db) := by
  refine .of_stores (h.outgoing.step hstep.1) ?_
  rcases envelopes_step step db with hsame | ⟨scope, cursor, es, next, hcommit, hes⟩
  · rw [hsame]
    exact h.envelopes
  · rw [hes]
    exact (h.envelopes.foldl (hstep.2 _ _ _ _ hcommit)).1

theorem mem_chatRows {row : HistoryRow} : row ∈ chatRows scope chatId db ↔
    (∃ r ∈ db.envelopes, (r.scope = scopeKey scope ∧ r.value.chat_id = chatId) ∧
      .inl r.value = row) ∨
    (∃ r ∈ db.outgoing, (r.scope = scopeKey scope ∧ r.value.command.chat_id = chatId) ∧
      .inr r.value = row) := by
  unfold chatRows storeRows
  simp only [List.mem_append, List.mem_map, List.mem_filter, decide_eq_true_eq, and_assoc]
  rfl

/-- A row that continues another one stands in its place. -/
theorem RowContinues.place_eq {r w : Stored OutgoingCommand} (h : RowContinues r w)
    (hr : indexedOutgoing r = r) (hw : indexedOutgoing w = w) :
    HistoryRow.place (.inr w.value) = HistoryRow.place (.inr r.value) := by
  have hhistory := h.history
  rw [history_outgoing hr, history_outgoing hw, Option.some.injEq] at hhistory
  exact (List.cons.inj (List.cons.inj hhistory).2).2

/-- Envelopes with the same key stand in the same place. -/
theorem EnvelopeStore.place_eq {store store' : List (Stored MailboxEnvelope)}
    (h : EnvelopeStore facts store) (h' : EnvelopeStore facts store') {r w : Stored MailboxEnvelope}
    (hr : r ∈ store) (hw : w ∈ store') (hkey : w.key = r.key) :
    w.scope = r.scope ∧ w.value.chat_id = r.value.chat_id ∧
      HistoryRow.place (.inl w.value) = HistoryRow.place (.inl r.value) := by
  rw [h.keyed r hr, h'.keyed w hw, recordKey_inj] at hkey
  obtain ⟨hscope, hid⟩ := hkey
  obtain ⟨hchat, hsent⟩ := h.agrees r hr
  obtain ⟨hchat', hsent'⟩ := h'.agrees w hw
  refine ⟨hscope, ?_, ?_⟩
  · rw [hchat, hchat', hid]
  · simp only [HistoryRow.place]
    rw [hsent, hsent', hid]

/-- **A row of the chat keeps its place.** -/
theorem Served.kept (h : Served facts db) {step : InboxStep} (hstep : step.Consistent facts)
    {row : HistoryRow} (hrow : row ∈ chatRows scope chatId db) :
    ∃ row' ∈ chatRows scope chatId (step.apply db), row'.place = row.place := by
  have h' := h.step hstep
  rcases mem_chatRows.mp hrow with ⟨r, hr, ⟨hscope, hchat⟩, rfl⟩ | ⟨r, hr, ⟨hscope, hchat⟩, rfl⟩
  · obtain ⟨w, hw, hkey⟩ : ∃ w ∈ (step.apply db).envelopes, w.key = r.key := by
      rcases envelopes_step step db with hsame | ⟨_, _, es, _, hcommit, hes⟩
      · exact ⟨r, hsame ▸ hr, rfl⟩
      · rw [hes]
        exact (h.envelopes.foldl (hstep.2 _ _ _ _ hcommit)).2 r hr
    obtain ⟨hs, hc, hplace⟩ := h.envelopes.place_eq h'.envelopes hr hw hkey
    exact ⟨_, mem_chatRows.mpr (Or.inl ⟨w, hw, ⟨hs.trans hscope, hc.trans hchat⟩, rfl⟩), hplace⟩
  · obtain ⟨w, hw, hcontinues, -⟩ := (h.outgoing.change step hstep.1).row_of_mem h.outgoing hr
    refine ⟨.inr w.value, mem_chatRows.mpr (Or.inr ⟨w, hw, ?_, rfl⟩), ?_⟩
    · exact ⟨hcontinues.scope.trans hscope, hcontinues.chat.trans hchat⟩
    · exact hcontinues.place_eq (h.outgoing.indexed r hr) (h'.outgoing.indexed w hw)

/-- A write about rows that are there adds none. -/
theorem Served.revised (h : Served facts db) {step : InboxStep} (hstep : step.Consistent facts)
    (hrevises : step.Revises db) {row' : HistoryRow}
    (hrow' : row' ∈ chatRows scope chatId (step.apply db)) :
    ∃ row ∈ chatRows scope chatId db, row.place = row'.place := by
  have h' := h.step hstep
  rcases mem_chatRows.mp hrow' with ⟨w, hw, ⟨hscope, hchat⟩, rfl⟩ | ⟨w, hw, ⟨hscope, hchat⟩, rfl⟩
  · obtain ⟨r, hr, hkey⟩ : ∃ r ∈ db.envelopes, r.key = w.key := by
      rcases envelopes_step step db with hsame | ⟨scope', _, es, _, hcommit, hes⟩
      · exact ⟨w, hsame ▸ hw, rfl⟩
      · rw [hes] at hw
        refine h.envelopes.key_of_mem_foldl (hstep.2 _ _ _ _ hcommit) (fun e he => ?_) hw
        obtain ⟨x, hx⟩ := Option.isSome_iff_exists.mp (hrevises.2 _ _ _ _ hcommit e he)
        obtain ⟨r, hr, -⟩ := Option.map_eq_some_iff.mp hx
        exact ⟨r, Store.get_some hr⟩
    obtain ⟨hs, hc, hplace⟩ := h'.envelopes.place_eq h.envelopes hw hr hkey
    exact ⟨_, mem_chatRows.mpr (Or.inl ⟨r, hr, ⟨hs.trans hscope, hc.trans hchat⟩, rfl⟩), hplace⟩
  · have hchange := h.outgoing.change step hstep.1
    obtain ⟨r, hr, hkey⟩ := (hchange.key_of_mem hw).resolve_right hrevises.1
    obtain ⟨v, hv, hcontinues, -⟩ := hchange.row_of_mem h.outgoing hr
    obtain rfl : v = w := h'.outgoing.eq_of_key hv hw (hcontinues.key.trans hkey)
    refine ⟨.inr r.value, mem_chatRows.mpr (Or.inr ⟨r, hr, ?_, rfl⟩), ?_⟩
    · exact ⟨hcontinues.scope.symm.trans hscope, hcontinues.chat.symm.trans hchat⟩
    · exact (hcontinues.place_eq (h.outgoing.indexed r hr) (h'.outgoing.indexed v hv)).symm

/-! ### Runs -/

/-- Any number of writes. -/
theorem Served.writes (h : Served facts db)
    (hwrites : Relation.ReflTransGen (Writes facts) db db') :
    Served facts db' ∧ ∀ scope chatId, ∀ row ∈ chatRows scope chatId db,
      ∃ row' ∈ chatRows scope chatId db', row'.place = row.place := by
  induction hwrites with
  | refl => exact ⟨h, fun _ _ row hrow => ⟨row, hrow, rfl⟩⟩
  | tail _ hwrite ih =>
      obtain ⟨step, hstep, rfl⟩ := hwrite
      refine ⟨ih.1.step hstep, fun scope chatId row hrow => ?_⟩
      obtain ⟨row₁, hrow₁, hplace₁⟩ := ih.2 scope chatId row hrow
      obtain ⟨row₂, hrow₂, hplace₂⟩ := ih.1.kept hstep hrow₁
      exact ⟨row₂, hrow₂, hplace₂.trans hplace₁⟩

theorem Revision.writes (h : Revision facts db db') : Writes facts db db' := by
  obtain ⟨step, hstep, -, hdb⟩ := h
  exact ⟨step, hstep, hdb⟩

/-- Any number of writes about rows that are there. -/
theorem Served.revisions (h : Served facts db)
    (hrevisions : Relation.ReflTransGen (Revision facts) db db') :
    Served facts db' ∧ ((chatRows scope chatId db').map rowPlace).Perm
      ((chatRows scope chatId db).map rowPlace) := by
  induction hrevisions with
  | refl => exact ⟨h, .refl _⟩
  | tail _ hrevision ih =>
      obtain ⟨step, hstep, hrevises, rfl⟩ := hrevision
      refine ⟨ih.1.step hstep, List.Perm.trans ?_ ih.2⟩
      refine (List.perm_ext_iff_of_nodup ((ih.1.step hstep).store.distinct scope chatId)
        (ih.1.store.distinct scope chatId)).mpr fun p => ?_
      simp only [List.mem_map]
      constructor
      · rintro ⟨row', hrow', rfl⟩
        obtain ⟨row, hrow, hplace⟩ := ih.1.revised hstep hrevises hrow'
        exact ⟨row, hrow, congrArg placeOf hplace⟩
      · rintro ⟨row, hrow, rfl⟩
        obtain ⟨row', hrow', hplace⟩ := ih.1.kept hstep hrow
        exact ⟨row', hrow', congrArg placeOf hplace⟩

end Served

/-! ## Walks -/

/-- Reads of page after page, each from the inbox as it is then, until there is
no next one. -/
inductive HistoryWalk (scope : InboxScope) (chatId : String) (limit : JsNumber) :
    Option ChatHistoryCursor → List Database → List ChatHistoryPage → Prop
  | last {before : Option ChatHistoryCursor} {db : Database} {page : ChatHistoryPage}
      (h : readChatHistory scope chatId limit before db = .ok (page, db))
      (hlast : page.nextBefore = none) : HistoryWalk scope chatId limit before [db] [page]
  | next {before : Option ChatHistoryCursor} {db : Database} {page : ChatHistoryPage}
      {cursor : ChatHistoryCursor} {dbs : List Database} {pages : List ChatHistoryPage}
      (h : readChatHistory scope chatId limit before db = .ok (page, db))
      (hnext : page.nextBefore = some cursor)
      (rest : HistoryWalk scope chatId limit (some cursor) dbs pages) :
      HistoryWalk scope chatId limit before (db :: dbs) (page :: pages)

/-- The page consists of these rows. -/
def PageOf (page : ChatHistoryPage) (rows : List HistoryRow) : Prop :=
  page.envelopes = rows.filterMap Sum.getLeft? ∧ page.outgoing = rows.filterMap Sum.getRight?

section Walks

variable {scope : InboxScope} {chatId : String} {limit : ℤ} {before : Option ChatHistoryCursor}
  {dbs : List Database} {pages : List ChatHistoryPage}

theorem pageOf_historyPage (page : Keyset.Page HistoryRow) :
    PageOf (historyPage page) page.rows :=
  ⟨rfl, rfl⟩

/-- There is no next page exactly when the table has no more rows. -/
theorem nextBefore_none {db : Database} (hlimit : 1 ≤ limit)
    (h : (historyPage (Keyset.page rowPlace limit.toNat (before.map cursorPlace)
      (chatRows scope chatId db))).nextBefore = none) :
    (Keyset.page rowPlace limit.toNat (before.map cursorPlace)
      (chatRows scope chatId db)).hasMore = false := by
  rw [Bool.eq_false_iff]
  intro hmore
  have hfull := Keyset.length_page_of_hasMore hmore
  simp only [historyPage, hmore, if_true, Option.map_eq_none_iff, List.getLast?_eq_none_iff] at h
  rw [h, List.length_nil] at hfull
  omega

/-- **A walk through the history is a keyset walk.** -/
theorem HistoryWalk.keyset (hlimit : 1 ≤ limit)
    (hsafe : (JsNumber.integer limit).isSafeInteger = true)
    (hwalk : HistoryWalk scope chatId (.integer limit) before dbs pages)
    (hdbs : ∀ db ∈ dbs, HistoryStore db ∧ valid scope db = true) :
    ∃ rows, List.Forall₂ PageOf pages rows ∧
      Keyset.Walk rowPlace limit.toNat (before.map cursorPlace) (dbs.map (chatRows scope chatId))
        rows := by
  induction hwalk with
  | @last before db page h hlast =>
      obtain ⟨hstore, hvalid⟩ := hdbs db (List.mem_singleton_self db)
      rw [readChatHistory_eq hstore hvalid hlimit hsafe, Except.ok.injEq, Prod.mk.injEq] at h
      obtain ⟨rfl, -⟩ := h
      exact ⟨_, .cons (pageOf_historyPage _) .nil, .last (nextBefore_none hlimit hlast)⟩
  | @next before db page cursor dbs pages h hnext rest ih =>
      obtain ⟨hstore, hvalid⟩ := hdbs db List.mem_cons_self
      rw [readChatHistory_eq hstore hvalid hlimit hsafe, Except.ok.injEq, Prod.mk.injEq] at h
      obtain ⟨rfl, -⟩ := h
      obtain ⟨rows, hpages, hrows⟩ := ih fun d hd => hdbs d (List.mem_cons_of_mem _ hd)
      refine ⟨_, .cons (pageOf_historyPage _) hpages, ?_⟩
      simp only [historyPage] at hnext
      split_ifs at hnext with hmore
      obtain ⟨row, hrow, rfl⟩ := Option.map_eq_some_iff.mp hnext
      rw [Option.map_some, cursorPlace_placeCursor] at hrows
      exact .next hmore hrow hrows

/-- Every keyset walk is a walk through the history. -/
theorem HistoryWalk.of_keyset (hlimit : 1 ≤ limit)
    (hsafe : (JsNumber.integer limit).isSafeInteger = true) {rows : List (List HistoryRow)}
    (hdbs : ∀ db ∈ dbs, HistoryStore db ∧ valid scope db = true)
    (hwalk : Keyset.Walk rowPlace limit.toNat (before.map cursorPlace)
      (dbs.map (chatRows scope chatId)) rows) :
    ∃ pages, HistoryWalk scope chatId (.integer limit) before dbs pages := by
  induction dbs generalizing before rows with
  | nil => cases hwalk
  | cons db dbs ih =>
      obtain ⟨hstore, hvalid⟩ := hdbs db List.mem_cons_self
      have hread : readChatHistory scope chatId (.integer limit) before db = _ :=
        readChatHistory_eq hstore hvalid hlimit hsafe before
      rw [List.map_cons] at hwalk
      generalize htables : dbs.map (chatRows scope chatId) = tables at hwalk
      cases hwalk with
      | last hmore =>
          obtain rfl := List.map_eq_nil_iff.mp htables
          refine ⟨_, .last hread ?_⟩
          simp [historyPage, hmore]
      | @next _ _ _ rows r hmore hr rest =>
          subst htables
          have hrest : Keyset.Walk rowPlace limit.toNat
              ((some (placeCursor r)).map cursorPlace) (dbs.map (chatRows scope chatId)) rows := by
            rw [Option.map_some, cursorPlace_placeCursor]
            exact rest
          obtain ⟨pages, hpages⟩ := ih (fun d hd => hdbs d (List.mem_cons_of_mem _ hd)) hrest
          refine ⟨_, .next hread ?_ hpages⟩
          simp [historyPage, hmore, hr]

/-- The rows stand from the last to the first. -/
def Descending (rows : List HistoryRow) : Prop :=
  rows.Pairwise fun a b => keyLt b.place a.place = true

theorem length_le_of_walk {tables rows : List (List HistoryRow)}
    (hwalk : Keyset.Walk rowPlace limit.toNat (before.map cursorPlace) tables rows)
    (hlimit : 1 ≤ limit) : ∀ p ∈ rows, (p.length : ℤ) ≤ limit := by
  intro p hp
  have hlength := hwalk.sizes.1 p hp
  omega

theorem descending_of_walk {tables rows : List (List HistoryRow)}
    (hwalk : Keyset.Walk rowPlace limit.toNat (before.map cursorPlace) tables rows)
    (hdistinct : ∀ table ∈ tables, Keyset.Distinct rowPlace table) : Descending rows.flatten :=
  (hwalk.sorted hdistinct).1.imp fun hab => placeOf_lt_placeOf.mp hab

/-- A place that stays occupied comes once. -/
theorem count_of_walk {tables rows : List (List HistoryRow)}
    (hwalk : Keyset.Walk rowPlace limit.toNat none tables rows)
    (hdistinct : ∀ table ∈ tables, Keyset.Distinct rowPlace table) {place : List String}
    (hplace : ∀ table ∈ tables, ∃ row ∈ table, HistoryRow.place row = place) :
    (rows.flatten.map HistoryRow.place).count place = 1 := by
  have hnodup : (rows.flatten.map HistoryRow.place).Nodup := by
    refine List.Nodup.of_map placeOf ?_
    rw [List.map_map]
    exact List.pairwise_map.mpr ((hwalk.sorted hdistinct).1.imp fun hab => hab.ne)
  obtain ⟨row, hrow, heq⟩ := hwalk.complete (k := placeOf place) hdistinct
    (fun table htable => by
      obtain ⟨row, hrow, rfl⟩ := hplace table htable
      exact ⟨row, hrow, rfl⟩)
    (fun a ha => nomatch ha)
  exact List.count_eq_one_of_mem hnodup (List.mem_map.mpr ⟨row, hrow, placeOf_injective heq⟩)

/-- The inbox at every read. -/
theorem served_reads {facts : ServerFacts} {read : Nat → Database} (h : Served facts (read 0))
    (hwrites : ∀ i, Relation.ReflTransGen (Writes facts) (read i) (read (i + 1))) (i : Nat) :
    Served facts (read i) ∧ ∀ scope chatId, ∀ row ∈ chatRows scope chatId (read 0),
      ∃ row' ∈ chatRows scope chatId (read i), row'.place = row.place := by
  induction i with
  | zero => exact ⟨h, fun _ _ row hrow => ⟨row, hrow, rfl⟩⟩
  | succ i ih =>
      obtain ⟨hserved, hkept⟩ := ih.1.writes (hwrites i)
      refine ⟨hserved, fun scope chatId row hrow => ?_⟩
      obtain ⟨row₁, hrow₁, hplace₁⟩ := ih.2 scope chatId row hrow
      obtain ⟨row₂, hrow₂, hplace₂⟩ := hkept scope chatId row₁ hrow₁
      exact ⟨row₂, hrow₂, hplace₂.trans hplace₁⟩

/-- **The history of a chat is read completely and without duplicates.**  A walk
through an inbox that stays as it is ends, and its pages are the rows of the
chat in descending order.  While rows are written, the walk returns only rows of
the chat, still in descending order, and every row that was there when it began
once; and it ends if no rows are added. -/
theorem chat_history_is_complete (hlimit : 1 ≤ limit)
    (hsafe : (JsNumber.integer limit).isSafeInteger = true) :
    (∀ db, HistoryStore db → valid scope db = true →
      (∃ n pages, HistoryWalk scope chatId (.integer limit) none (List.replicate n db) pages) ∧
      ∀ n pages, HistoryWalk scope chatId (.integer limit) none (List.replicate n db) pages →
        ∃ rows, List.Forall₂ PageOf pages rows ∧ (∀ p ∈ rows, (p.length : ℤ) ≤ limit) ∧
          Descending rows.flatten ∧ rows.flatten.Perm (chatRows scope chatId db)) ∧
    ∀ (facts : ServerFacts) (read : Nat → Database), Served facts (read 0) →
      (∀ i, valid scope (read i) = true) →
      (∀ i, Relation.ReflTransGen (Writes facts) (read i) (read (i + 1))) →
      (∀ n pages, HistoryWalk scope chatId (.integer limit) none ((List.range n).map read) pages →
        ∃ rows, List.Forall₂ PageOf pages rows ∧ (∀ p ∈ rows, (p.length : ℤ) ≤ limit) ∧
          Descending rows.flatten ∧
          (∀ row ∈ rows.flatten, ∃ i < n, row ∈ chatRows scope chatId (read i)) ∧
          ∀ row ∈ chatRows scope chatId (read 0),
            (rows.flatten.map HistoryRow.place).count row.place = 1) ∧
      ((∀ i, Relation.ReflTransGen (Revision facts) (read i) (read (i + 1))) →
        ∃ n pages, HistoryWalk scope chatId (.integer limit) none
          ((List.range n).map read) pages) := by
  have htoNat : 0 < limit.toNat := by omega
  constructor
  · intro db hstore hvalid
    have hdistinct := hstore.distinct scope chatId
    constructor
    · obtain ⟨n, rows, hwalk⟩ := Keyset.exists_walk hdistinct htoNat none
      rw [← List.map_replicate, ← Option.map_none (f := cursorPlace)] at hwalk
      exact ⟨n, HistoryWalk.of_keyset hlimit hsafe
        (fun d hd => List.eq_of_mem_replicate hd ▸ ⟨hstore, hvalid⟩) hwalk⟩
    · intro n pages hpages
      obtain ⟨rows, hrows, hwalk⟩ := hpages.keyset hlimit hsafe
        fun d hd => List.eq_of_mem_replicate hd ▸ ⟨hstore, hvalid⟩
      rw [List.map_replicate] at hwalk
      refine ⟨rows, hrows, length_le_of_walk hwalk hlimit, ?_, ?_⟩
      · exact descending_of_walk hwalk fun t ht => List.eq_of_mem_replicate ht ▸ hdistinct
      · rw [hwalk.flatten_eq hdistinct fun t ht => List.eq_of_mem_replicate ht]
        refine Keyset.following_perm.trans (List.Perm.of_eq (List.filter_eq_self.mpr ?_))
        exact fun row _ => Keyset.beyond_none
  · intro facts read hserved hvalid hwrites
    have hreads : ∀ i, Served facts (read i) := fun i => (served_reads hserved hwrites i).1
    have hdbs : ∀ n, ∀ db ∈ (List.range n).map read, HistoryStore db ∧ valid scope db = true := by
      intro n db hdb
      obtain ⟨i, -, rfl⟩ := List.mem_map.mp hdb
      exact ⟨(hreads i).store, hvalid i⟩
    constructor
    · intro n pages hpages
      obtain ⟨rows, hrows, hwalk⟩ := hpages.keyset hlimit hsafe (hdbs n)
      have htables : ∀ table ∈ ((List.range n).map read).map (chatRows scope chatId),
          ∃ i < n, table = chatRows scope chatId (read i) := by
        intro table htable
        rw [List.map_map] at htable
        obtain ⟨i, hi, rfl⟩ := List.mem_map.mp htable
        exact ⟨i, List.mem_range.mp hi, rfl⟩
      have hdistinct : ∀ table ∈ ((List.range n).map read).map (chatRows scope chatId),
          Keyset.Distinct rowPlace table := by
        intro table htable
        obtain ⟨i, -, rfl⟩ := htables table htable
        exact (hreads i).store.distinct scope chatId
      refine ⟨rows, hrows, length_le_of_walk hwalk hlimit, descending_of_walk hwalk hdistinct,
        fun row hrow => ?_, fun row hrow => ?_⟩
      · obtain ⟨table, htable, hmem⟩ := hwalk.sound row hrow
        obtain ⟨i, hi, rfl⟩ := htables table htable
        exact ⟨i, hi, hmem⟩
      · refine count_of_walk hwalk hdistinct fun table htable => ?_
        obtain ⟨i, -, rfl⟩ := htables table htable
        exact (served_reads hserved hwrites i).2 scope chatId row hrow
    · intro hrevisions
      obtain ⟨n, rows, hwalk⟩ := Keyset.exists_walk_of_keys htoNat
        (fun i => (hreads i).store.distinct scope chatId)
        (fun i => ((hreads i).revisions (hrevisions i)).2) none
      rw [← Function.comp_def, ← List.map_map, ← Option.map_none (f := cursorPlace)] at hwalk
      exact ⟨n, HistoryWalk.of_keyset hlimit hsafe (hdbs n) hwalk⟩

/-! ### A message that is accepted during the walk -/

/-- An envelope of the chat of the old command. -/
def earlierEnvelope : MailboxEnvelope where
  id := "e9"
  message_id := "m9"
  recipient_device_id := "a1000000-0000-4000-8000-000000000001"
  recipient_user_id := some "alice"
  mailbox_seq := .integer 1
  protocol_version := 0
  envelope_type := "PLAINTEXT"
  payload := some "aGk="
  created_at := "2026-01-01T00:00:00Z"
  expires_at := "2026-01-31T00:00:00Z"
  delivered_at := none
  payload_purged_at := none
  chat_id := "c1"
  chat_seq := some 1
  sender_user_id := "bob"
  sender_device_id := "bob-phone"
  client_message_id := "k9"
  message_created_at := "2026-01-01T00:00:00Z"

/-- A chat with a received message and an old command. -/
def chatInbox : Database :=
  { legacyInbox with
    envelopes := [indexedEnvelope (record (scopeKey sentScope) "e9" earlierEnvelope)] }

def chatFacts : ServerFacts :=
  ⟨sentOnce, fun _ => "c1", sentOnce⟩

theorem served_chatInbox : Served chatFacts chatInbox := by
  refine .of_stores ⟨List.pairwise_singleton _ _, ?_, ?_, ?_⟩
    ⟨List.pairwise_singleton _ _, ?_, ?_, ?_⟩
  all_goals
    intro r hr
    obtain rfl := List.mem_singleton.mp hr
  · rfl
  · rfl
  · exact fun a ha => nomatch ha
  · rfl
  · rfl
  · exact ⟨rfl, rfl⟩

/-- The command is accepted after the first page. -/
def readWhileAccepted : Nat → Database
  | 0 => chatInbox
  | _ + 1 => InboxStep.apply (.acceptOutgoing sentScope (sentSnapshot none)) chatInbox

theorem chat_history_is_complete_accepted :
    ∃ n pages rows, HistoryWalk sentScope "c1" (.integer 1) none
        ((List.range n).map readWhileAccepted) pages ∧
      List.Forall₂ PageOf pages rows ∧
      (rows.flatten.map HistoryRow.place).count ["", "outgoing:k1"] = 1 := by
  have hwrite : Revision chatFacts chatInbox (readWhileAccepted 1) := by
    refine ⟨.acceptOutgoing sentScope (sentSnapshot none), ⟨rfl, ?_⟩, ⟨?_, ?_⟩, rfl⟩
    · exact fun _ _ _ _ hcommit => nomatch hcommit
    · rintro ⟨_, _, _, _, hput, -⟩
      cases hput
    · exact fun _ _ _ _ hcommit => nomatch hcommit
  have hrevisions : ∀ i, Relation.ReflTransGen (Revision chatFacts) (readWhileAccepted i)
      (readWhileAccepted (i + 1)) := by
    intro i
    cases i with
    | zero => exact .single hwrite
    | succ i => exact .refl
  have hvalid : ∀ i, valid sentScope (readWhileAccepted i) = true := by
    intro i
    cases i with
    | zero => decide
    | succ i =>
        show valid sentScope (readWhileAccepted 1) = true
        decide
  have hwrites : ∀ i, Relation.ReflTransGen (Writes chatFacts) (readWhileAccepted i)
      (readWhileAccepted (i + 1)) :=
    fun i => (hrevisions i).lift id fun _ _ => Revision.writes
  obtain ⟨hwalks, hends⟩ := (@chat_history_is_complete sentScope "c1" 1 le_rfl (by decide)).2
    chatFacts readWhileAccepted served_chatInbox hvalid hwrites
  obtain ⟨n, pages, hpages⟩ := hends hrevisions
  obtain ⟨rows, hrows, -, -, -, honce⟩ := hwalks n pages hpages
  refine ⟨n, pages, rows, hpages, hrows, honce (.inr ⟨⟨"c1", "k1", []⟩, none, none⟩) ?_⟩
  exact mem_chatRows.mpr (Or.inr ⟨_, List.mem_singleton_self _, ⟨rfl, rfl⟩, rfl⟩)

end Walks

end Client
end SecureMessenger
