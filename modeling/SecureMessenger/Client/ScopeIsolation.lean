import SecureMessenger.Client.InboxOperations
import SecureMessenger.Client.IndexedQueues

/-!
# Scopes do not see each other

All scopes share the object stores; a record belongs to the scope its `scope`
field names.  Every operation writes only records of the scope it is called
with, because the keys it builds determine the scope: `scopeKey` and
`recordKey` are injective, and no record key is a scope key.

`Database.under` is the part of the inbox that belongs to a scope.  An
operation leaves this part alone for every other scope, and the reading
operations depend on nothing else.
-/

namespace SecureMessenger
namespace Client

open Lib

/-- The records that belong to a scope. -/
def ofScope {α : Type} (scope : InboxScope) (rows : List (Stored α)) : List (Stored α) :=
  rows.filter fun r => decide (r.scope = scopeKey scope)

/-- The part of the inbox that belongs to a scope. -/
def Database.under (scope : InboxScope) (db : Database) : Database where
  identity := db.identity
  envelopes := ofScope scope db.envelopes
  outgoing := ofScope scope db.outgoing
  chats := ofScope scope db.chats
  cursors := ofScope scope db.cursors
  receipts := ofScope scope db.receipts
  readStates := ofScope scope db.readStates
  sentMetadata := ofScope scope db.sentMetadata

/-- The key of a record is built from the scope it names: a cursor has the
scope key itself, all others a record key. -/
def Stored.Placed {α : Type} (r : Stored α) : Prop :=
  (∃ scope, r.scope = scopeKey scope ∧ r.key = r.scope) ∨ ∃ id, r.key = recordKey r.scope id

/-- A record whose key and index fields are those of the scope it names. -/
structure Stored.Local {α : Type} (r : Stored α) : Prop where
  placed : r.Placed
  pending : ∀ k, r.pending = some k → k = r.scope
  message : ∀ l, r.message = some l → l.head? = some r.scope
  history : ∀ l, r.history = some l → l.head? = some r.scope

/-- A property of all records. -/
structure Database.All (P : ∀ {α : Type}, Stored α → Prop) (db : Database) : Prop where
  envelopes : ∀ r ∈ db.envelopes, P r
  outgoing : ∀ r ∈ db.outgoing, P r
  chats : ∀ r ∈ db.chats, P r
  cursors : ∀ r ∈ db.cursors, P r
  receipts : ∀ r ∈ db.receipts, P r
  readStates : ∀ r ∈ db.readStates, P r
  sentMetadata : ∀ r ∈ db.sentMetadata, P r

section Keys

variable {scope scope' : InboxScope}

theorem scopeKey_inj (h : scopeKey scope = scopeKey scope') : scope = scope' := by
  have hlist := Json.stringify_injective h
  simp only [List.cons.injEq, and_true] at hlist
  obtain ⟨huser, hdevice, hgeneration⟩ := hlist
  cases scope
  cases scope'
  simp_all

/-- The keys of the records of a scope. -/
def Owns (scope : InboxScope) (key : String) : Prop :=
  key = scopeKey scope ∨ ∃ id, key = recordKey (scopeKey scope) id

theorem owns_recordKey (scope : InboxScope) (id : String) :
    Owns scope (recordKey (scopeKey scope) id) :=
  .inr ⟨id, rfl⟩

variable {α : Type} {r : Stored α}

/-- **The key determines the scope.** -/
theorem Stored.Placed.scope_eq (h : r.Placed) (hkey : Owns scope r.key) :
    r.scope = scopeKey scope := by
  rcases h with ⟨s, hs, hr⟩ | ⟨id, hr⟩
  · rcases hkey with hkey | ⟨id, hkey⟩
    · exact hr.symm.trans hkey
    · rw [hr, hs] at hkey
      exact absurd hkey.symm (recordKey_ne_scopeKey s _ _)
  · rcases hkey with hkey | ⟨id', hkey⟩
    · exact absurd (hr.symm.trans hkey) (recordKey_ne_scopeKey scope _ _)
    · exact (recordKey_inj.mp (hr.symm.trans hkey)).1

theorem Stored.Placed.owns (h : r.Placed) (hs : r.scope = scopeKey scope) : Owns scope r.key := by
  rcases h with ⟨s, -, hr⟩ | ⟨id, hr⟩
  · exact .inl (hr.trans hs)
  · exact .inr ⟨id, by rw [hr, hs]⟩

/-- Records without index fields. -/
def Stored.Plain (r : Stored α) : Prop :=
  r.Placed ∧ r.pending = none ∧ r.message = none ∧ r.history = none

theorem Stored.Plain.toLocal (h : r.Plain) : r.Local := by
  obtain ⟨hplaced, hpending, hmessage, hhistory⟩ := h
  exact ⟨hplaced, fun k hk => by simp [hpending] at hk, fun l hl => by simp [hmessage] at hl,
    fun l hl => by simp [hhistory] at hl⟩

theorem local_record (scope id : String) (value : α) : (record scope id value).Local :=
  Stored.Plain.toLocal ⟨.inr ⟨id, rfl⟩, rfl, rfl, rfl⟩

theorem local_cursor (scope : InboxScope) (value : α) :
    Stored.Local { key := scopeKey scope, scope := scopeKey scope, value := value } :=
  Stored.Plain.toLocal ⟨.inl ⟨scope, rfl, rfl⟩, rfl, rfl, rfl⟩

/-- `indexedRecord` copies the scope of the record into every index field. -/
theorem local_indexedEnvelope {r : Stored MailboxEnvelope} (h : r.Placed)
    (hmessage : r.message = none) : (indexedEnvelope r).Local := by
  refine ⟨h, fun k hk => ?_, fun l hl => ?_, fun l hl => ?_⟩
  · simp only [indexedEnvelope] at hk
    split_ifs at hk
    exact (Option.some.inj hk).symm
  · simp [indexedEnvelope, hmessage] at hl
  · exact Option.some.inj hl ▸ rfl

theorem local_indexedOutgoing {r : Stored OutgoingCommand} (h : r.Placed) :
    (indexedOutgoing r).Local := by
  refine ⟨h, fun k hk => ?_, fun l hl => ?_, fun l hl => ?_⟩
  · simp only [indexedOutgoing] at hk
    split at hk
    · exact (Option.some.inj hk).symm
    · split_ifs at hk
      exact (Option.some.inj hk).symm
  · obtain ⟨accepted, -, rfl⟩ := Option.map_eq_some_iff.mp hl
    rfl
  · exact Option.some.inj hl ▸ rfl

end Keys

/-! ### Steps that stay within a scope -/

/-- A change of a store that concerns one scope only. -/
structure Within {α : Type} (scope : InboxScope) (rows rows' : List (Stored α)) : Prop where
  all : ∀ r ∈ rows', r.Local
  others : ∀ scope', scope' ≠ scope → ofScope scope' rows' = ofScope scope' rows

section Within

variable {α : Type} {scope : InboxScope} {rows rows' rows'' : List (Stored α)}

theorem Within.refl (h : ∀ r ∈ rows, r.Local) : Within scope rows rows :=
  ⟨h, fun _ _ => rfl⟩

theorem Within.trans (h : Within scope rows rows') (h' : Within scope rows' rows'') :
    Within scope rows rows'' :=
  ⟨h'.all, fun s hs => (h'.others s hs).trans (h.others s hs)⟩

/-- Records of the scope are not records of another. -/
theorem not_ofScope {scope' : InboxScope} (hne : scope' ≠ scope) {r : Stored α}
    (h : r.scope = scopeKey scope) : decide (r.scope = scopeKey scope') = false := by
  rw [decide_eq_false_iff_not, h]
  exact fun he => hne (scopeKey_inj he).symm

theorem within_put {w : Stored α} (h : ∀ r ∈ rows, r.Local) (hw : w.Local)
    (hscope : w.scope = scopeKey scope) :
    Within scope rows (Store.put Stored.key w rows) := by
  refine ⟨fun r hr => ?_, fun scope' hne => ?_⟩
  · rcases Store.mem_put hr with rfl | hr
    · exact hw
    · exact h r hr
  · refine Store.filter_put (not_ofScope hne hscope) fun x hx hkey => ?_
    exact not_ofScope hne ((h x hx).placed.scope_eq (hkey ▸ hw.placed.owns hscope))

theorem within_delete {k : String} (h : ∀ r ∈ rows, r.Local) (hk : Owns scope k) :
    Within scope rows (Store.delete Stored.key k rows) := by
  refine ⟨fun r hr => h r (List.mem_filter.mp hr).1, fun scope' hne => ?_⟩
  refine Store.filter_delete fun x hx hkey => ?_
  exact not_ofScope hne ((h x hx).placed.scope_eq (hkey ▸ hk))

/-- A loop whose rounds stay within the scope. -/
theorem within_foldl {β : Type} {f : List (Stored α) → β → List (Stored α)}
    (hf : ∀ rows b, (∀ r ∈ rows, r.Local) → Within scope rows (f rows b)) (bs : List β) :
    ∀ {rows : List (Stored α)}, (∀ r ∈ rows, r.Local) → Within scope rows (bs.foldl f rows) := by
  induction bs with
  | nil =>
      intro rows h
      exact .refl h
  | cons b bs ih =>
      intro rows h
      have hstep := hf rows b h
      exact hstep.trans (ih hstep.all)

end Within

/-- All records of the inbox have the keys and index fields of their scopes. -/
abbrev Scoped (db : Database) : Prop := db.All Stored.Local

/-- A change of the inbox that concerns one scope only. -/
structure Confined (scope : InboxScope) (db db' : Database) : Prop where
  identity : db'.identity = db.identity
  envelopes : Within scope db.envelopes db'.envelopes
  outgoing : Within scope db.outgoing db'.outgoing
  chats : Within scope db.chats db'.chats
  cursors : Within scope db.cursors db'.cursors
  receipts : Within scope db.receipts db'.receipts
  readStates : Within scope db.readStates db'.readStates
  sentMetadata : Within scope db.sentMetadata db'.sentMetadata

section Confined

variable {scope : InboxScope} {db db' db'' : Database}

theorem Confined.refl (h : Scoped db) : Confined scope db db :=
  ⟨rfl, .refl h.envelopes, .refl h.outgoing, .refl h.chats, .refl h.cursors, .refl h.receipts,
    .refl h.readStates, .refl h.sentMetadata⟩

theorem Confined.trans (h : Confined scope db db') (h' : Confined scope db' db'') :
    Confined scope db db'' :=
  ⟨h'.identity.trans h.identity, h.envelopes.trans h'.envelopes, h.outgoing.trans h'.outgoing,
    h.chats.trans h'.chats, h.cursors.trans h'.cursors, h.receipts.trans h'.receipts,
    h.readStates.trans h'.readStates, h.sentMetadata.trans h'.sentMetadata⟩

theorem Confined.scoped (h : Confined scope db db') : Scoped db' :=
  ⟨h.envelopes.all, h.outgoing.all, h.chats.all, h.cursors.all, h.receipts.all,
    h.readStates.all, h.sentMetadata.all⟩

/-- The other scopes see nothing of it. -/
theorem Confined.under (h : Confined scope db db') {scope' : InboxScope} (hne : scope' ≠ scope) :
    db'.under scope' = db.under scope' := by
  unfold Database.under
  rw [h.identity, h.envelopes.others scope' hne, h.outgoing.others scope' hne,
    h.chats.others scope' hne, h.cursors.others scope' hne, h.receipts.others scope' hne,
    h.readStates.others scope' hne, h.sentMetadata.others scope' hne]

theorem Scoped.outgoingAt (h : Scoped db) {id : String} {row : Stored OutgoingCommand}
    (hrow : outgoingAt scope id db = some row) :
    row.Placed ∧ row.scope = scopeKey scope := by
  obtain ⟨hmem, hkey⟩ := Store.get_some hrow
  have hplaced := (h.outgoing row hmem).placed
  exact ⟨hplaced, hplaced.scope_eq (hkey ▸ owns_recordKey scope id)⟩

/-- The `message` index leads to records of the scope. -/
theorem Scoped.outgoingByMessage (h : Scoped db) {id : String} {row : Stored OutgoingCommand}
    (hrow : outgoingByMessage scope id db = some row) :
    row.Placed ∧ row.scope = scopeKey scope := by
  have hrecord := h.outgoing row (List.mem_of_find?_eq_some hrow)
  have hindex := List.find?_some hrow
  rw [decide_eq_true_eq] at hindex
  have hhead := hrecord.message _ hindex
  exact ⟨hrecord.placed, (Option.some.inj hhead).symm⟩

theorem confined_putOutgoingRow {entry : Stored OutgoingCommand} (h : Scoped db)
    (hput : putOutgoingRow (indexedOutgoing entry) db = .ok db') (hentry : entry.Placed)
    (hscope : entry.scope = scopeKey scope) : Confined scope db db' := by
  rw [putOutgoingRow_ok hput]
  exact { Confined.refl h with
    outgoing := within_put h.outgoing (local_indexedOutgoing hentry) hscope }

/-! ### The writing operations -/

theorem confined_putOutgoing {command : SendMessageRequest} {replaceRejected : Bool}
    {now : String} {r : OutgoingCommand} (h : Scoped db)
    (hrun : putOutgoing scope command replaceRejected now db = .ok (r, db')) :
    Confined scope db db' := by
  have hnew : ∀ value, (record (scopeKey scope) command.client_message_id value :
      Stored OutgoingCommand).Placed := fun value => (local_record _ _ _).placed
  obtain ⟨u, -, hrun⟩ := ok_of_bind hrun
  cases hrow : outgoingAt scope command.client_message_id db with
  | none =>
      simp only [hrow] at hrun
      obtain ⟨db₁, hput, hrun⟩ := ok_of_bind hrun
      cases hrun
      exact confined_putOutgoingRow h hput (hnew _) rfl
  | some existing =>
      simp only [hrow] at hrun
      split_ifs at hrun with hreplace haccepted hchat hsame
      · cases hrun
      · cases hrun
      · cases hrun
      · obtain ⟨db₁, hput, hrun⟩ := ok_of_bind hrun
        cases hrun
        exact confined_putOutgoingRow h hput (hnew _) rfl
      · cases hrun
        exact .refl h

theorem within_acceptEnvelopes (prior : Option SentMessage) (es : List MessageEnvelope) :
    ∀ {receipts : List (Stored MessageEnvelope)}, (∀ r ∈ receipts, r.Local) →
      Within scope receipts (acceptEnvelopes scope prior es receipts).2 := by
  induction es with
  | nil =>
      intro receipts h
      exact .refl h
  | cons e es ih =>
      intro receipts h
      have hdelete := within_delete h (owns_recordKey scope e.id)
      exact hdelete.trans (ih hdelete.all)

theorem confined_acceptOutgoing {message : SentMessage} {r : OutgoingCommand} (h : Scoped db)
    (hrun : acceptOutgoing scope message db = .ok (r, db')) : Confined scope db db' := by
  obtain ⟨u, -, hrun⟩ := ok_of_bind hrun
  split_ifs at hrun with hsender
  · cases hrun
  · cases hrow : outgoingAt scope message.clientMessageId db with
    | none => simp [hrow] at hrun
    | some row =>
        obtain ⟨hplaced, hscope⟩ := h.outgoingAt hrow
        simp only [hrow] at hrun
        split_ifs at hrun with hchat
        · cases hrun
        · obtain ⟨db₁, hput, hrun⟩ := ok_of_bind hrun
          cases hrun
          have hreceipts : Within scope db.receipts (acceptEnvelopes scope row.value.accepted
              message.envelopes db.receipts).2 :=
            within_acceptEnvelopes row.value.accepted message.envelopes h.receipts
          have hfirst : Confined scope db { db with
              receipts := (acceptEnvelopes scope row.value.accepted message.envelopes
                db.receipts).2 } :=
            { Confined.refl h with receipts := hreceipts }
          exact hfirst.trans (confined_putOutgoingRow hfirst.scoped hput hplaced hscope)

theorem confined_applyReceiptToMetadata {receipt : MessageEnvelope} (h : Scoped db) :
    Confined scope db (applyReceiptToMetadata scope receipt db) := by
  unfold applyReceiptToMetadata
  split
  · exact .refl h
  · rename_i row hrow
    obtain ⟨hmem, hkey⟩ := Store.get_some hrow
    have hrecord := h.sentMetadata row hmem
    exact { Confined.refl h with
      sentMetadata := within_put h.sentMetadata
        ⟨hrecord.placed, hrecord.pending, hrecord.message, hrecord.history⟩
        (hrecord.placed.scope_eq (hkey ▸ owns_recordKey scope _)) }

theorem confined_applyDeliveryReceipt {receipt : MessageEnvelope} {r : Option OutgoingCommand}
    (h : Scoped db) (hrun : applyDeliveryReceipt scope receipt db = .ok (r, db')) :
    Confined scope db db' := by
  unfold applyDeliveryReceipt at hrun
  split_ifs at hrun with hnone
  · cases hrun
  · obtain ⟨u, -, hrun⟩ := ok_of_bind hrun
    have hfirst : Confined scope db (applyReceiptToMetadata scope receipt db) :=
      confined_applyReceiptToMetadata h
    have hpark : Confined scope db
        (putReceipt scope receipt (applyReceiptToMetadata scope receipt db)) :=
      hfirst.trans { Confined.refl hfirst.scoped with
        receipts := within_put hfirst.scoped.receipts (local_record _ _ _) rfl }
    simp only at hrun
    split at hrun
    · cases hrun
      exact hpark
    · rename_i row hrow
      obtain ⟨hplaced, hscope⟩ := hfirst.scoped.outgoingByMessage hrow
      split at hrun
      · cases hrun
        exact hpark
      · split_ifs at hrun with hsame
        · cases hrun
          exact hfirst
        · obtain ⟨db₁, hput, hrun⟩ := ok_of_bind hrun
          cases hrun
          exact hfirst.trans (confined_putOutgoingRow hfirst.scoped hput hplaced hscope)

theorem confined_mergeSentMetadata {message r : SentMessage} (h : Scoped db)
    (hrun : mergeSentMetadata scope message db = .ok (r, db')) : Confined scope db db' := by
  obtain ⟨u, -, hrun⟩ := ok_of_bind hrun
  have hput : ∀ value, Confined scope db (putMetadata scope value db) := fun value =>
    { Confined.refl h with
      sentMetadata := within_put h.sentMetadata (local_record _ _ _) rfl }
  split_ifs at hrun with hsender
  · cases hrun
  · cases hrow : outgoingByMessage scope message.id db with
    | none =>
        simp only [hrow] at hrun
        cases hrun
        exact hput _
    | some row =>
        obtain ⟨hplaced, hscope⟩ := h.outgoingByMessage hrow
        simp only [hrow] at hrun
        obtain ⟨db₁, hrow', hrun⟩ := ok_of_bind hrun
        cases hrun
        exact (hput _).trans (confined_putOutgoingRow (hput _).scoped hrow' hplaced hscope)

theorem within_storeEnvelope {rows : List (Stored MailboxEnvelope)} (e : MailboxEnvelope)
    (h : ∀ r ∈ rows, r.Local) : Within scope rows (storeEnvelope scope rows e) := by
  unfold storeEnvelope
  split_ifs
  · exact .refl h
  · exact within_put h (local_indexedEnvelope (local_record _ _ _).placed rfl) rfl

theorem confined_commitPage {cursor : ℤ} {es r : List MailboxEnvelope} {next : JsNumber}
    (h : Scoped db) (hrun : commitPage scope cursor es next db = .ok (r, db')) :
    Confined scope db db' := by
  cases next with
  | other => cases hrun
  | integer next =>
      have hdb := (commitPage_ok hrun).1.db_eq
      rw [hdb]
      exact { Confined.refl h with
        envelopes := within_foldl (fun rows e hrows => within_storeEnvelope e hrows) es h.envelopes
        cursors := within_put h.cursors (local_cursor scope _) rfl }

theorem confined_updateReadState {chatId : String} {update : ChatReadState → ChatReadState}
    {r : ChatReadState} (h : Scoped db)
    (hrun : updateReadState scope chatId update db = .ok (r, db')) : Confined scope db db' := by
  obtain ⟨u, -, hrun⟩ := ok_of_bind hrun
  cases hrun
  exact { Confined.refl h with
    readStates := within_put h.readStates (local_record _ _ _) rfl }

theorem confined_saveChats {chats : List DirectChat} {r : Unit} (h : Scoped db)
    (hrun : saveChats scope chats db = .ok (r, db')) : Confined scope db db' := by
  obtain ⟨u, -, hrun⟩ := ok_of_bind hrun
  cases hrun
  exact { Confined.refl h with
    chats := within_foldl (fun rows chat hrows => within_put hrows (local_record _ _ _) rfl)
      chats h.chats }

/-- **Every write stays within its scope.** -/
theorem InboxWrite.confined (op : InboxWrite) {r : op.Reply} (h : Scoped db)
    (hrun : op.transaction scope db = .ok (r, db')) : Confined scope db db' := by
  cases op with
  | applyDeliveryReceipt receipt => exact confined_applyDeliveryReceipt h hrun
  | commitPage cursor es next => exact confined_commitPage h hrun
  | putOutgoing command replaceRejected now => exact confined_putOutgoing h hrun
  | acceptOutgoing message => exact confined_acceptOutgoing h hrun
  | mergeChatReadCursor cursor =>
      simp only [InboxWrite.transaction, Client.mergeChatReadCursor] at hrun
      split at hrun
      · cases hrun
      · split at hrun
        · cases hrun
        · exact confined_updateReadState h hrun
  | advanceLocalReadCursor chatId seq =>
      simp only [InboxWrite.transaction, Client.advanceLocalReadCursor] at hrun
      split at hrun
      · cases hrun
      · split_ifs at hrun
        exact confined_updateReadState h hrun
  | mergeSentMetadata message => exact confined_mergeSentMetadata h hrun
  | finishSequenceBackfill =>
      obtain ⟨u, -, hrun⟩ := ok_of_bind hrun
      cases hrun
      exact { Confined.refl h with
        cursors := within_put h.cursors (local_record _ _ _) rfl }
  | saveChats chats => exact confined_saveChats h hrun

end Confined

/-! ### The order of the history index -/

/-- The code units of one character. -/
def charUnits (c : Char) : List Nat :=
  if c.toNat < 65536 then [c.toNat]
  else [55296 + (c.toNat - 65536) / 1024, 56320 + (c.toNat - 65536) % 1024]

/-- No character is a surrogate. -/
theorem toNat_not_surrogate (c : Char) :
    (c.toNat < 55296 ∨ 57343 < c.toNat) ∧ c.toNat < 1114112 := by
  have h := c.valid
  rcases h with h | ⟨h, h'⟩
  · exact ⟨.inl h, by have : c.toNat < 55296 := h; omega⟩
  · exact ⟨.inr h, h'⟩

/-- Characters can be read back from their code units. -/
theorem charUnits_append_inj {c d : Char} {l l' : List Nat}
    (h : charUnits c ++ l = charUnits d ++ l') : c = d ∧ l = l' := by
  have hc := toNat_not_surrogate c
  have hd := toNat_not_surrogate d
  have hval : ∀ {c d : Char}, c.toNat = d.toNat → c = d := fun h => Char.toNat_inj.mp h
  unfold charUnits at h
  split_ifs at h with h₁ h₂ h₂
  · simp only [List.cons_append, List.nil_append, List.cons.injEq] at h
    exact ⟨hval h.1, h.2⟩
  · simp only [List.cons_append, List.nil_append, List.cons.injEq] at h
    omega
  · simp only [List.cons_append, List.nil_append, List.cons.injEq] at h
    omega
  · simp only [List.cons_append, List.nil_append, List.cons.injEq] at h
    exact ⟨hval (by omega), h.2.2⟩

theorem utf16Units_injective {a b : String} (h : utf16Units a = utf16Units b) : a = b := by
  have hlist : ∀ l l' : List Char, l.flatMap charUnits = l'.flatMap charUnits → l = l' := by
    intro l
    induction l with
    | nil =>
        intro l' h
        cases l' with
        | nil => rfl
        | cons d l' =>
            exfalso
            simp only [List.flatMap_nil, List.flatMap_cons, charUnits] at h
            split_ifs at h <;> simp at h
    | cons c l ih =>
        intro l' h
        cases l' with
        | nil =>
            exfalso
            simp only [List.flatMap_nil, List.flatMap_cons, charUnits] at h
            split_ifs at h <;> simp at h
        | cons d l' =>
            obtain ⟨rfl, hrest⟩ := charUnits_append_inj h
            rw [ih l' hrest]
  exact String.toList_inj.mp (hlist _ _ h)

/-- Keys in the range of a scope start with its key. -/
theorem head_of_inHistoryRange {key chatId : String} {before : Option ChatHistoryCursor}
    {history : List String} (h : inHistoryRange key chatId before history = true) :
    history.head? = some key := by
  unfold inHistoryRange at h
  rw [Bool.and_eq_true] at h
  obtain ⟨hlow, hhigh⟩ := h
  cases history with
  | nil => simp [keyLt] at hlow
  | cons a rest =>
      simp only [keyLt, List.map_cons, Bool.not_eq_true', decide_eq_false_iff_not,
        List.cons_lt_cons_iff, not_or] at hlow
      have hle : ¬ utf16Units key < utf16Units a := by
        intro hlt
        cases before with
        | none =>
            simp [keyLt, List.cons_lt_cons_iff, hlt] at hhigh
        | some cursor =>
            simp only [keyLt, List.map_cons, decide_eq_true_eq, List.cons_lt_cons_iff] at hhigh
            rcases hhigh with hgt | ⟨heq, -⟩
            · exact lt_asymm hlt hgt
            · exact lt_irrefl _ (heq ▸ hlt)
      have heq : utf16Units a = utf16Units key :=
        le_antisymm (not_lt.mp hle) (not_lt.mp hlow.1)
      exact congrArg some (utf16Units_injective heq)

/-! ### What a scope can read -/

/-- The outcome of a transaction without the inbox it leaves. -/
def outcome {α : Type} (tx : Transaction α) (db : Database) : Except JsError α :=
  (tx db).map Prod.fst

section Reads

variable {scope : InboxScope} {db db' : Database}

theorem ofScope_ofScope {α : Type} (rows : List (Stored α)) :
    ofScope scope (ofScope scope rows) = ofScope scope rows := by
  unfold ofScope
  rw [List.filter_filter]
  simp

theorem get_ofScope {α : Type} {rows : List (Stored α)} (h : ∀ r ∈ rows, r.Local) {key : String}
    (hkey : Owns scope key) :
    Store.get Stored.key key (ofScope scope rows) = Store.get Stored.key key rows := by
  refine Store.get_filter fun r hr hk => ?_
  rw [decide_eq_true_eq]
  exact (h r hr).placed.scope_eq (hk ▸ hkey)

theorem cursorAt_under (h : Scoped db) :
    cursorAt (scopeKey scope) (db.under scope) = cursorAt (scopeKey scope) db := by
  unfold cursorAt Database.under
  rw [get_ofScope h.cursors (.inl rfl)]

theorem pending_ofScope {α : Type} {rows : List (Stored α)} (h : ∀ r ∈ rows, r.Local) :
    (ofScope scope rows).filter (fun r => decide (r.pending = some (scopeKey scope))) =
      rows.filter fun r => decide (r.pending = some (scopeKey scope)) := by
  unfold ofScope
  rw [List.filter_filter]
  refine List.filter_congr fun r hr => ?_
  by_cases hp : r.pending = some (scopeKey scope)
  · simp [hp, (h r hr).pending _ hp]
  · simp [hp]

/-- The walk over the history index meets only records of the scope. -/
theorem history_ofScope {α : Type} {rows : List (Stored α)} (h : ∀ r ∈ rows, r.Local)
    (kind : α → MailboxEnvelope ⊕ OutgoingCommand) (chatId : String)
    (before : Option ChatHistoryCursor) :
    (historyIndex kind (ofScope scope rows)).filter
        (fun entry => inHistoryRange (scopeKey scope) chatId before entry.history) =
      (historyIndex kind rows).filter
        fun entry => inHistoryRange (scopeKey scope) chatId before entry.history := by
  induction rows with
  | nil => rfl
  | cons r rows ih =>
      have ih := ih fun x hx => h x (List.mem_cons_of_mem r hx)
      have hr := h r List.mem_cons_self
      unfold ofScope at ih ⊢
      by_cases hscope : r.scope = scopeKey scope
      · rw [List.filter_cons_of_pos (by simpa using hscope)]
        cases hhistory : r.history with
        | none => simpa [historyIndex, hhistory] using ih
        | some l =>
            simp only [historyIndex, List.filterMap_cons, hhistory, Option.map_some,
              List.filter_cons] at ih ⊢
            rw [ih]
      · rw [List.filter_cons_of_neg (by simpa using hscope), ih]
        cases hhistory : r.history with
        | none => simp [historyIndex, hhistory]
        | some l =>
            have hout : inHistoryRange (scopeKey scope) chatId before l = false := by
              rw [Bool.eq_false_iff]
              intro hin
              have hhead := head_of_inHistoryRange hin
              rw [hr.history l hhistory] at hhead
              exact hscope (Option.some.inj hhead)
            simp [historyIndex, hhistory, hout]

theorem readHistoryEntries_ofScope {α : Type} {rows : List (Stored α)}
    (h : ∀ r ∈ rows, r.Local) (kind : α → MailboxEnvelope ⊕ OutgoingCommand) (chatId : String)
    (before : Option ChatHistoryCursor) (count : Nat) :
    readHistoryEntries (historyIndex kind (ofScope scope rows))
        (inHistoryRange (scopeKey scope) chatId before) count =
      readHistoryEntries (historyIndex kind rows)
        (inHistoryRange (scopeKey scope) chatId before) count := by
  unfold readHistoryEntries
  rw [history_ofScope h]

theorem validate_under : validate scope (db.under scope) = validate scope db :=
  rfl

/-- A transaction that checks the scope and then reads. -/
def reading {α : Type} (scope : InboxScope) (f : Database → α) : Transaction α := fun db => do
  validate scope db
  return (f db, db)

theorem outcome_reading {α : Type} {f : Database → α} (hf : f (db.under scope) = f db) :
    outcome (reading scope f) (db.under scope) = outcome (reading scope f) db := by
  unfold outcome reading
  rw [validate_under, hf]
  cases validate scope db with
  | error x => rfl
  | ok u => rfl

/-- **What an operation reads belongs to its scope.** -/
theorem InboxRead.outcome_under (op : InboxRead) (h : Scoped db) :
    outcome (op.transaction scope) (db.under scope) = outcome (op.transaction scope) db := by
  cases op with
  | snapshot =>
      refine outcome_reading (f := fun db => InboxSnapshot.mk (cursorAt (scopeKey scope) db)
        (((ofScope scope db.envelopes).map Stored.value).mergeSort bySeq)
        ((ofScope scope db.outgoing).map Stored.value)
        ((ofScope scope db.chats).map Stored.value)) ?_
      simp only [cursorAt_under h]
      simp only [Database.under, ofScope_ofScope]
  | readMetadata =>
      refine outcome_reading (f := fun db => (cursorAt (scopeKey scope) db,
        (ofScope scope db.chats).map Stored.value)) ?_
      simp only [cursorAt_under h]
      simp only [Database.under, ofScope_ofScope]
  | readCursor =>
      exact outcome_reading (f := fun db => cursorAt (scopeKey scope) db) (cursorAt_under h)
  | getPendingAcknowledgments =>
      refine outcome_reading (f := fun db => (db.envelopes.filter fun r =>
        decide (r.pending = some (scopeKey scope))).map Stored.value) ?_
      simp only [Database.under, pending_ofScope h.envelopes]
  | getOutgoingToRecover =>
      refine outcome_reading (f := fun db => (db.outgoing.filter fun r =>
        decide (r.pending = some (scopeKey scope))).map Stored.value) ?_
      simp only [Database.under, pending_ofScope h.outgoing]
  | readChatHistory chatId limit before =>
      cases limit with
      | other => rfl
      | integer n =>
          have henvelopes := @readHistoryEntries_ofScope scope _ _ h.envelopes .inl
            chatId before (n.toNat + 1)
          have houtgoing := @readHistoryEntries_ofScope scope _ _ h.outgoing .inr
            chatId before (n.toNat + 1)
          simp only [InboxRead.transaction, Client.readChatHistory, outcome, Database.under,
            henvelopes, houtgoing]
          by_cases hbad : (JsNumber.integer n).isSafeInteger = false ∨ n < 1
          · simp only [if_pos hbad]
          · simp only [if_neg hbad]
            change Except.map Prod.fst (validate scope db >>= _) = _
            cases validate scope db with
            | error x => rfl
            | ok u => rfl
  | getOutgoing clientMessageId =>
      refine outcome_reading (f := fun db => (outgoingAt scope clientMessageId db).map
        Stored.value) ?_
      unfold outgoingAt Database.under
      rw [get_ofScope h.outgoing (owns_recordKey scope _)]
  | readChatReadStates =>
      refine outcome_reading (f := fun db => (ofScope scope db.readStates).map Stored.value) ?_
      simp only [Database.under, ofScope_ofScope]
  | getSentMetadata messageId =>
      refine outcome_reading (f := fun db => (metadataAt scope messageId db).map Stored.value) ?_
      unfold metadataAt Database.under
      rw [get_ofScope h.sentMetadata (owns_recordKey scope _)]
  | needsSequenceBackfill =>
      refine outcome_reading (f := fun db => (Store.get Stored.key
        (recordKey (scopeKey scope) backfillId) db.cursors).isNone) ?_
      unfold Database.under
      rw [get_ofScope h.cursors (owns_recordKey scope _)]

end Reads

/-! ### Refusals -/

section Refusals

variable {scope : InboxScope} {db db' : Database}

theorem valid_of_validate {u : Unit} (h : validate scope db = .ok u) : valid scope db = true := by
  unfold validate at h
  split_ifs at h with hvalid
  exact hvalid

/-- The stored identity is not the one of the scope. -/
def Mismatch (scope : InboxScope) (db : Database) : Prop :=
  ∀ stored, db.identity = some stored →
    stored.id ≠ scope.deviceId ∨ stored.generation ≠ scope.generation

theorem not_valid_of_mismatch (h : Mismatch scope db) : valid scope db = false := by
  unfold valid
  cases hid : identity db with
  | none => rfl
  | some stored =>
      have hstored : db.identity = some stored := (Option.filter_eq_some_iff.mp hid).1
      simp only [decide_eq_false_iff_not, not_and_or]
      exact h stored hstored

/-- An operation that reads goes through only under a matching scope. -/
theorem InboxRead.valid_of_ok (op : InboxRead) {r : op.Reply}
    (hrun : op.transaction scope db = .ok (r, db')) : valid scope db = true ∧ db' = db := by
  cases op with
  | readChatHistory chatId limit before =>
      cases limit with
      | other => cases hrun
      | integer n =>
          simp only [InboxRead.transaction, Client.readChatHistory] at hrun
          split at hrun
          · cases hrun
          · obtain ⟨u, hvalid, hrun⟩ := ok_of_bind hrun
            cases hrun
            exact ⟨valid_of_validate hvalid, rfl⟩
  | _ =>
      obtain ⟨u, hvalid, hrun⟩ := ok_of_bind hrun
      cases hrun
      exact ⟨valid_of_validate hvalid, rfl⟩

theorem valid_of_updateReadState {chatId : String} {update : ChatReadState → ChatReadState}
    {r : ChatReadState} (hrun : updateReadState scope chatId update db = .ok (r, db')) :
    valid scope db = true := by
  obtain ⟨u, hvalid, -⟩ := ok_of_bind hrun
  exact valid_of_validate hvalid

/-- An operation that writes goes through only under a matching scope. -/
theorem InboxWrite.valid_of_ok (op : InboxWrite) {r : op.Reply}
    (hrun : op.transaction scope db = .ok (r, db')) : valid scope db = true := by
  cases op with
  | applyDeliveryReceipt receipt =>
      simp only [InboxWrite.transaction, Client.applyDeliveryReceipt] at hrun
      split at hrun
      · cases hrun
      · obtain ⟨u, hvalid, -⟩ := ok_of_bind hrun
        exact valid_of_validate hvalid
  | commitPage cursor es next =>
      cases next with
      | other => cases hrun
      | integer next =>
          simp only [InboxWrite.transaction, Client.commitPage] at hrun
          split at hrun
          · cases hrun
          · obtain ⟨u, hvalid, -⟩ := ok_of_bind hrun
            exact valid_of_validate hvalid
  | mergeChatReadCursor cursor =>
      simp only [InboxWrite.transaction, Client.mergeChatReadCursor] at hrun
      split at hrun
      · cases hrun
      · split at hrun
        · cases hrun
        · exact valid_of_updateReadState hrun
  | advanceLocalReadCursor chatId seq =>
      simp only [InboxWrite.transaction, Client.advanceLocalReadCursor] at hrun
      split at hrun
      · cases hrun
      · split at hrun
        · cases hrun
        · exact valid_of_updateReadState hrun
  | _ =>
      obtain ⟨u, hvalid, -⟩ := ok_of_bind hrun
      exact valid_of_validate hvalid

end Refusals

/-! ### Stores the code can come to -/

/-- The records of an earlier version, built by `record`.  Only envelopes and
outgoing commands have index fields, which may be missing or outdated. -/
structure Written (old : Database) : Prop where
  envelopes : ∀ r ∈ old.envelopes, r.Placed ∧ r.message = none
  outgoing : ∀ r ∈ old.outgoing, r.Placed
  chats : ∀ r ∈ old.chats, r.Plain
  cursors : ∀ r ∈ old.cursors, r.Plain
  receipts : ∀ r ∈ old.receipts, r.Plain
  readStates : ∀ r ∈ old.readStates, r.Plain
  sentMetadata : ∀ r ∈ old.sentMetadata, r.Plain

/-- The stores that come of any operations of any instances under any scopes,
from an inbox without records or from the records of an earlier version. -/
inductive Stores : Database → Prop
  | empty (identity : Option DurableDeviceIdentity) : Stores { identity := identity }
  | upgraded {old db : Database} (hordered : Store.Ordered Stored.key old.outgoing)
      (hwritten : Written old) (h : migrateSchema old = .ok db) : Stores db
  | renewed {expected : Option String} {generation : String} {device : DeviceIdentity}
      {db db' : Database} {r : Except JsError Unit} (h : Stores db)
      (hs : Inbox.settles (write expected generation device) db r db') : Stores db'
  | written {scope : InboxScope} {op : InboxWrite} {db db' : Database}
      {r : Except JsError op.Reply} (h : Stores db)
      (hs : Inbox.settles (op.transaction scope) db r db') : Stores db'

theorem placed_migrateOutgoing (rows : List (Stored OutgoingCommand)) :
    ∀ {db db' : Database}, (∀ r ∈ rows, r.Placed) → (∀ r ∈ db.outgoing, r.Placed) →
      migrateOutgoing rows db = .ok db' →
      (∀ r ∈ db'.outgoing, r.Placed) ∧ db' = { db with outgoing := db'.outgoing } := by
  induction rows with
  | nil =>
      rintro db db' - hdb h
      cases h
      exact ⟨hdb, rfl⟩
  | cons row rows ih =>
      intro db db' hrows hdb h
      obtain ⟨db₁, hput, h⟩ := ok_of_bind h
      have hdb₁ := putOutgoingRow_ok hput
      have hplaced : ∀ r ∈ db₁.outgoing, r.Placed := by
        intro r hr
        rw [hdb₁] at hr
        rcases Store.mem_put hr with rfl | hr
        · exact hrows row List.mem_cons_self
        · exact hdb r hr
      obtain ⟨hall, heq⟩ := ih (fun r hr => hrows r (List.mem_cons_of_mem row hr)) hplaced h
      exact ⟨hall, by rw [heq, hdb₁]⟩

/-- The upgrade brings all index fields up to date. -/
theorem scoped_migrateSchema {old db : Database} (hwritten : Written old)
    (hordered : Store.Ordered Stored.key old.outgoing) (h : migrateSchema old = .ok db) :
    Scoped db := by
  have hindexed := indexed_migrateSchema hordered h
  unfold migrateSchema at h
  split_ifs at h with hunique
  obtain ⟨hplaced, heq⟩ := placed_migrateOutgoing old.outgoing hwritten.outgoing
    (by exact hwritten.outgoing) h
  refine ⟨?_, ?_, ?_, ?_, ?_, ?_, ?_⟩
  · intro r hr
    rw [heq] at hr
    obtain ⟨s, hs, rfl⟩ := List.mem_map.mp hr
    exact local_indexedEnvelope (hwritten.envelopes s hs).1 (hwritten.envelopes s hs).2
  · intro r hr
    rw [← hindexed.outgoing r hr]
    exact local_indexedOutgoing (hplaced r hr)
  · rw [heq]
    exact fun r hr => (hwritten.chats r hr).toLocal
  · rw [heq]
    exact fun r hr => (hwritten.cursors r hr).toLocal
  · rw [heq]
    exact fun r hr => (hwritten.receipts r hr).toLocal
  · rw [heq]
    exact fun r hr => (hwritten.readStates r hr).toLocal
  · rw [heq]
    exact fun r hr => (hwritten.sentMetadata r hr).toLocal

theorem scoped_empty (identity : Option DurableDeviceIdentity) :
    Scoped { identity := identity } := by
  constructor <;> simp

/-- `write` replaces everything or changes nothing. -/
theorem write_settles {expected : Option String} {generation : String} {device : DeviceIdentity}
    {db db' : Database} {r : Except JsError Unit}
    (h : Inbox.settles (write expected generation device) db r db') :
    ((∃ x, r = .error x) ∧ db' = db) ∨
      (r = .ok () ∧ (identity db).map (·.generation) = expected ∧
        db' = { identity := some ⟨device.id, device.name, generation⟩ }) := by
  rcases h with (⟨u, hrun, rfl⟩ | ⟨x, -, rfl, rfl⟩) | ⟨herror, rfl⟩
  · unfold write at hrun
    split_ifs at hrun with hgeneration
    cases hrun
    exact .inr ⟨rfl, not_not.mp hgeneration, rfl⟩
  · exact .inl ⟨⟨x, rfl⟩, rfl⟩
  · exact .inl ⟨herror, rfl⟩

/-- An operation either fails and changes nothing, or stays within its scope. -/
theorem InboxWrite.settles {scope : InboxScope} {op : InboxWrite} {db db' : Database}
    {r : Except JsError op.Reply} (hscoped : Scoped db)
    (h : Inbox.settles (op.transaction scope) db r db') :
    ((∃ x, r = .error x) ∧ db' = db) ∨
      ((∃ a, r = .ok a) ∧ valid scope db = true ∧ Confined scope db db') := by
  rcases h with (⟨a, hrun, rfl⟩ | ⟨x, -, rfl, rfl⟩) | ⟨herror, rfl⟩
  · exact .inr ⟨⟨a, rfl⟩, op.valid_of_ok hrun, op.confined hscoped hrun⟩
  · exact .inl ⟨⟨x, rfl⟩, rfl⟩
  · exact .inl ⟨herror, rfl⟩

theorem InboxRead.settles {scope : InboxScope} {op : InboxRead} {db db' : Database}
    {r : Except JsError op.Reply} (h : Inbox.settles (op.transaction scope) db r db') :
    db' = db ∧ ((∃ x, r = .error x) ∨ valid scope db = true) := by
  rcases h with (⟨a, hrun, rfl⟩ | ⟨x, -, rfl, rfl⟩) | ⟨herror, rfl⟩
  · obtain ⟨hvalid, rfl⟩ := op.valid_of_ok hrun
    exact ⟨rfl, .inr hvalid⟩
  · exact ⟨rfl, .inl ⟨x, rfl⟩⟩
  · exact ⟨rfl, .inl herror⟩

/-- All stores are in order. -/
theorem Stores.scoped {db : Database} (h : Stores db) : Scoped db := by
  induction h with
  | empty identity => exact scoped_empty identity
  | upgraded hordered hwritten h => exact scoped_migrateSchema hwritten hordered h
  | renewed h hs ih =>
      rcases write_settles hs with ⟨-, rfl⟩ | ⟨-, -, rfl⟩
      · exact ih
      · exact scoped_empty _
  | written h hs ih =>
      rcases InboxWrite.settles ih hs with ⟨-, rfl⟩ | ⟨-, -, hconfined⟩
      · exact ih
      · exact hconfined.scoped

/-- What an operation called with a scope does to the others. -/
structure Isolated {α : Type} (scope : InboxScope) (db : Database) (r : Except JsError α)
    (db' : Database) : Prop where
  /-- Under another identity or generation it fails. -/
  refused : Mismatch scope db → (∃ x, r = .error x) ∧ db' = db
  failed : ∀ x, r = .error x → db' = db
  under : ∀ other, other ≠ scope → db'.under other = db.under other
  reads : ∀ other, other ≠ scope → ∀ op : InboxRead,
    outcome (op.transaction other) db' = outcome (op.transaction other) db

/-- A change that stays within a scope changes nothing the others can read. -/
theorem Confined.reads {scope other : InboxScope} {db db' : Database} (h : Confined scope db db')
    (hscoped : Scoped db) (hne : other ≠ scope) (op : InboxRead) :
    outcome (op.transaction other) db' = outcome (op.transaction other) db := by
  rw [← op.outcome_under h.scoped, h.under hne, op.outcome_under hscoped]

theorem isolated_of_same {α : Type} {scope : InboxScope} {db : Database} {r : Except JsError α}
    (h : (∃ x, r = .error x) ∨ valid scope db = true) : Isolated scope db r db := by
  refine ⟨fun hmismatch => ?_, fun _ _ => rfl, fun _ _ => rfl, fun _ _ _ => rfl⟩
  rcases h with herror | hvalid
  · exact ⟨herror, rfl⟩
  · rw [not_valid_of_mismatch hmismatch] at hvalid
    cases hvalid

/-- **Main result.**  In every store the code can come to, an operation called
with a scope fails and changes nothing unless the stored identity and
generation are those of the scope, and it leaves alone everything that belongs
to another scope or can be read under it; `write` leaves no record behind or
changes nothing. -/
theorem inbox_isolates_scopes {db : Database} (h : Stores db) :
    (∀ (scope : InboxScope) (op : InboxWrite) (r : Except JsError op.Reply) (db' : Database),
      Inbox.settles (op.transaction scope) db r db' → Isolated scope db r db') ∧
    (∀ (scope : InboxScope) (op : InboxRead) (r : Except JsError op.Reply) (db' : Database),
      Inbox.settles (op.transaction scope) db r db' → Isolated scope db r db' ∧ db' = db) ∧
    (∀ (r : Except JsError (Option DurableDeviceIdentity)) (db' : Database),
      Inbox.settles read db r db' → db' = db) ∧
    (∀ (expected : Option String) (generation : String) (device : DeviceIdentity)
      (r : Except JsError Unit) (db' : Database),
      Inbox.settles (write expected generation device) db r db' →
        (∀ x, r = .error x → db' = db) ∧
        (r = .ok () → db' = { identity := some ⟨device.id, device.name, generation⟩ })) := by
  refine ⟨fun scope op r db' hs => ?_, fun scope op r db' hs => ?_, fun r db' hs => ?_,
    fun expected generation device r db' hs => ?_⟩
  · rcases op.settles h.scoped hs with ⟨herror, rfl⟩ | ⟨⟨a, rfl⟩, hvalid, hconfined⟩
    · exact isolated_of_same (.inl herror)
    · refine ⟨fun hmismatch => ?_, fun x hx => (by cases hx),
        fun other hne => hconfined.under hne,
        fun other hne read => hconfined.reads h.scoped hne read⟩
      rw [not_valid_of_mismatch hmismatch] at hvalid
      cases hvalid
  · obtain ⟨rfl, hr⟩ := op.settles hs
    exact ⟨isolated_of_same hr, rfl⟩
  · rcases hs with (⟨a, hrun, -⟩ | ⟨x, hrun, -⟩) | ⟨-, rfl⟩
    · cases hrun
      rfl
    · cases hrun
    · rfl
  · rcases write_settles hs with ⟨⟨x, rfl⟩, rfl⟩ | ⟨rfl, -, rfl⟩
    · exact ⟨fun _ _ => rfl, fun hr => by cases hr⟩
    · exact ⟨fun x hx => (by cases hx), fun _ => rfl⟩

section Shared

/-! Two users of one device: Ben has a command that has not been sent yet, Ann an
envelope whose payload is purged. -/

def annScope : InboxScope := ⟨"ann", "a1000000-0000-4000-8000-000000000001", "g1"⟩

def benScope : InboxScope := ⟨"ben", "a1000000-0000-4000-8000-000000000001", "g1"⟩

def sharedIdentity : DurableDeviceIdentity :=
  ⟨"a1000000-0000-4000-8000-000000000001", "Phone", "g1"⟩

def benRow : Stored OutgoingCommand :=
  indexedOutgoing (record (scopeKey benScope) "k1"
    ⟨⟨"c1", "k1", []⟩, none, some "2026-01-01T00:00:00Z"⟩)

def benInbox : Database where
  identity := some sharedIdentity
  outgoing := [benRow]

def annEnvelope : MailboxEnvelope :=
  { phoneEnvelope with recipient_device_id := annScope.deviceId }

def annTombstone : MailboxEnvelope :=
  { tombstone with recipient_device_id := annScope.deviceId }

/-- The inbox with the envelope. -/
def annInbox : Database :=
  putCursor (scopeKey annScope) 1
    { benInbox with envelopes := [annEnvelope].foldl (storeEnvelope annScope) [] }

/-- The inbox after the purge. -/
def purgedInbox : Database :=
  putCursor (scopeKey annScope) 1
    { annInbox with
      envelopes := [annTombstone].foldl (storeEnvelope annScope) annInbox.envelopes }

/-- A commit from the present cursor settles. -/
theorem settles_commitPage {scope : InboxScope} {cursor next : ℤ} {es : List MailboxEnvelope}
    {db : Database} (hvalid : valid scope db = true)
    (hcursor : cursorAt (scopeKey scope) db = cursor) (hle : cursor ≤ next)
    (hsafe : (JsNumber.integer next).isSafeInteger = true)
    (hrec : ∀ e ∈ es, e.recipient_device_id = scope.deviceId) :
    ∃ cs, Inbox.settles (InboxWrite.transaction scope (.commitPage cursor es (.integer next))) db
      (.ok cs) (putCursor (scopeKey scope) next
        { db with envelopes := es.foldl (storeEnvelope scope) db.envelopes }) := by
  obtain ⟨⟨cs, db'⟩, hok⟩ := commitPage_total hvalid hcursor hle hsafe hrec
  obtain rfl := (commitPage_ok hok).1.db_eq
  exact ⟨cs, .inl (.inl ⟨cs, hok, rfl⟩)⟩

theorem stores_annInbox : Stores annInbox := by
  have hempty : Stores { identity := some sharedIdentity } := .empty _
  have hput : Inbox.settles (InboxWrite.transaction benScope
      (.putOutgoing ⟨"c1", "k1", []⟩ false "2026-01-01T00:00:00Z"))
      { identity := some sharedIdentity } (.ok benRow.value) benInbox :=
    .inl (.inl ⟨_, rfl, rfl⟩)
  have hcursor : cursorAt (scopeKey annScope) benInbox = 0 := rfl
  obtain ⟨cs, hcommit⟩ := @settles_commitPage annScope 0 1 [annEnvelope] benInbox rfl hcursor
    zero_le_one rfl (by decide)
  exact .written (.written hempty hput) hcommit

/-- The purge of Ann's envelope changes nothing for Ben, an older generation is
refused, and a new one finds nothing. -/
theorem inbox_isolates_scopes_shared :
    ∃ cs, Inbox.settles (InboxWrite.transaction annScope
        (.commitPage 1 [annTombstone] (.integer 1))) annInbox (.ok cs) purgedInbox ∧
      purgedInbox.under benScope = annInbox.under benScope ∧
      outcome (InboxRead.transaction benScope (.getOutgoing "k1")) purgedInbox =
        .ok (some benRow.value) ∧
      (∀ r db', Inbox.settles (InboxWrite.transaction ⟨"ann", annScope.deviceId, "g0"⟩
          .finishSequenceBackfill) purgedInbox r db' → (∃ x, r = .error x) ∧ db' = purgedInbox) ∧
      ∀ db', Inbox.settles (write (some "g1") "g2" ⟨annScope.deviceId, "Phone"⟩) purgedInbox
        (.ok ()) db' → db' = { identity := some ⟨annScope.deviceId, "Phone", "g2"⟩ } := by
  have hcursor : cursorAt (scopeKey annScope) annInbox = 1 := cursorAt_putCursor _ _ _
  obtain ⟨cs, hpurge⟩ := @settles_commitPage annScope 1 1 [annTombstone] annInbox rfl hcursor
    le_rfl rfl (by decide)
  have hisolated := (inbox_isolates_scopes stores_annInbox).1 annScope
    (.commitPage 1 [annTombstone] (.integer 1)) (.ok cs) purgedInbox hpurge
  have hpurged : Stores purgedInbox := .written stores_annInbox hpurge
  have hbens : outcome (InboxRead.transaction benScope (.getOutgoing "k1")) annInbox =
      .ok (some benRow.value) := by
    have hvalid : valid benScope annInbox = true := rfl
    have hrow : outgoingAt benScope "k1" annInbox = some benRow := Store.get_put_self benRow []
    unfold outcome InboxRead.transaction getOutgoing
    simp only [validate_of_valid hvalid, hrow]
    rfl
  refine ⟨cs, hpurge, hisolated.under benScope (by decide),
    (hisolated.reads benScope (by decide) (.getOutgoing "k1")).trans hbens,
    fun r db' hs => ?_, fun db' hs => ?_⟩
  · have hold : Mismatch ⟨"ann", annScope.deviceId, "g0"⟩ purgedInbox := by
      intro stored hstored
      obtain rfl : sharedIdentity = stored := Option.some.inj hstored
      exact .inr (by decide)
    exact ((inbox_isolates_scopes hpurged).1 _ .finishSequenceBackfill r db' hs).refused hold
  · exact ((inbox_isolates_scopes hpurged).2.2.2 _ _ _ _ db' hs).2 rfl

end Shared

end Client
end SecureMessenger
