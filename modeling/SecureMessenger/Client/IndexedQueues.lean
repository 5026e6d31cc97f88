import SecureMessenger.Client.DeliveryEvidence

/-!
# The work queues behind the indexes

`getPendingAcknowledgments`, `getOutgoingToRecover` and the `message` lookup
read index fields.  These are copies of the record that `indexedRecord`
computes; nothing but the writers keeps them current.  `Indexed` says that all
of them are, `migrateSchema` establishes it on the records of an earlier
version, and every writer keeps it.
-/

namespace SecureMessenger
namespace Client

open Lib

/-- The rows respect a unique `message` index. -/
def uniqueMessages (rows : List (Stored OutgoingCommand)) : Prop :=
  ∀ r ∈ rows, ∀ s ∈ rows, r.message.isSome → r.message = s.message → r.key = s.key

instance (rows : List (Stored OutgoingCommand)) : Decidable (uniqueMessages rows) := by
  unfold uniqueMessages
  infer_instance

/-- The cursor loop of `migrateSchema` over the outgoing store.  Each update
goes through the unique index. -/
def migrateOutgoing : List (Stored OutgoingCommand) → Database → Except JsError Database
  | [], db => .ok db
  | entry :: rest, db => do
      let db' ← putOutgoingRow (indexedOutgoing entry) db
      migrateOutgoing rest db'

/-- `migrateSchema`.  The unique index exists or is created, so the upgrade is
aborted if the fields the old records already have break it. -/
def migrateSchema (db : Database) : Except JsError Database :=
  if uniqueMessages db.outgoing then
    migrateOutgoing db.outgoing { db with envelopes := db.envelopes.map indexedEnvelope }
  else .error (.error "ConstraintError")

/-- One write to the inbox. -/
inductive InboxStep
  | putOutgoing (scope : InboxScope) (command : SendMessageRequest)
      (replaceRejected : Bool) (now : String)
  | acceptOutgoing (scope : InboxScope) (message : SentMessage)
  | applyDeliveryReceipt (scope : InboxScope) (receipt : MessageEnvelope)
  | mergeSentMetadata (scope : InboxScope) (message : SentMessage)
  | commitPage (scope : InboxScope) (expectedCursor : ℤ)
      (envelopes : List MailboxEnvelope) (nextCursor : JsNumber)

/-- Apply one write; a failed transaction changes nothing. -/
def InboxStep.apply : InboxStep → Database → Database
  | .putOutgoing scope command replaceRejected now =>
      afterTransaction (Client.putOutgoing scope command replaceRejected now)
  | .acceptOutgoing scope message => afterTransaction (Client.acceptOutgoing scope message)
  | .applyDeliveryReceipt scope receipt =>
      afterTransaction (Client.applyDeliveryReceipt scope receipt)
  | .mergeSentMetadata scope message =>
      afterTransaction (Client.mergeSentMetadata scope message)
  | .commitPage scope expectedCursor envelopes nextCursor =>
      afterTransaction (Client.commitPage scope expectedCursor envelopes nextCursor)

/-- Apply a sequence of writes. -/
def applyWrites (steps : List InboxStep) (db : Database) : Database :=
  steps.foldl (fun db step => step.apply db) db

/-- An inbox as a session finds it: empty but for the device identity, or
upgraded from the records of an earlier version. -/
inductive Opened : Database → Prop
  | empty (identity : Option DurableDeviceIdentity) : Opened { identity := identity }
  | upgraded {old db : Database} (hordered : Store.Ordered Stored.key old.outgoing)
      (h : migrateSchema old = .ok db) : Opened db

/-- The envelope still has to be acknowledged. -/
def owesAcknowledgment (envelope : MailboxEnvelope) : Bool :=
  envelope.payload.isSome && envelope.delivered_at.isNone

/-- The outgoing command still has to be looked after: it is not accepted, its
acceptance has no envelopes, or one of them is undelivered. -/
def needsRecovery (outgoing : OutgoingCommand) : Bool :=
  match outgoing.accepted with
  | none => true
  | some accepted =>
      accepted.envelopes.isEmpty || accepted.envelopes.any fun item => item.delivered_at.isNone

/-- All index fields are current. -/
structure Indexed (db : Database) : Prop where
  ordered : Store.Ordered Stored.key db.outgoing
  envelopes : ∀ r ∈ db.envelopes, indexedEnvelope r = r
  outgoing : ∀ r ∈ db.outgoing, indexedOutgoing r = r
  unique : uniqueMessages db.outgoing

theorem indexedEnvelope_idem (r : Stored MailboxEnvelope) :
    indexedEnvelope (indexedEnvelope r) = indexedEnvelope r :=
  rfl

theorem indexedOutgoing_idem (r : Stored OutgoingCommand) :
    indexedOutgoing (indexedOutgoing r) = indexedOutgoing r :=
  rfl

variable {db db' : Database}

/-- A `put` that passes the unique index keeps it unique. -/
theorem uniqueMessages_putOutgoingRow {entry : Stored OutgoingCommand}
    (hunique : uniqueMessages db.outgoing) (h : putOutgoingRow entry db = .ok db') :
    uniqueMessages db'.outgoing := by
  have hout := congrArg Database.outgoing (putOutgoingRow_ok h)
  unfold putOutgoingRow at h
  split_ifs at h with hclash
  simp only [List.any_eq_true, decide_eq_true_eq, not_and, not_exists] at hclash
  rw [hout]
  intro r hr s hs hsome heq
  rcases Store.mem_put hr with hr' | hr'
  · rcases Store.mem_put hs with hs' | hs'
    · rw [hr', hs']
    · by_contra hne
      rw [hr'] at hsome heq hne
      exact hclash hsome s hs' (fun he => hne he.symm) heq.symm
  · rcases Store.mem_put hs with hs' | hs'
    · by_contra hne
      rw [hs'] at heq hne
      exact hclash (heq ▸ hsome) r hr' hne heq
    · exact hunique r hr' s hs' hsome heq

theorem envelopes_putOutgoingRow {entry : Stored OutgoingCommand}
    (h : putOutgoingRow entry db = .ok db') : db'.envelopes = db.envelopes := by
  rw [putOutgoingRow_ok h]

theorem ordered_putOutgoingRow {entry : Stored OutgoingCommand}
    (hordered : Store.Ordered Stored.key db.outgoing)
    (h : putOutgoingRow entry db = .ok db') : Store.Ordered Stored.key db'.outgoing := by
  rw [putOutgoingRow_ok h]
  exact Store.ordered_put hordered

/-- The cursor loop leaves no record behind. -/
theorem indexed_migrateOutgoing {rest : List (Stored OutgoingCommand)}
    (hordered : Store.Ordered Stored.key db.outgoing)
    (henvelopes : ∀ r ∈ db.envelopes, indexedEnvelope r = r)
    (houtgoing : ∀ r ∈ db.outgoing, indexedOutgoing r = r ∨ r ∈ rest)
    (hunique : uniqueMessages db.outgoing) (h : migrateOutgoing rest db = .ok db') :
    Indexed db' := by
  induction rest generalizing db with
  | nil =>
      obtain rfl := Except.ok.inj h
      exact ⟨hordered, henvelopes, by simpa using houtgoing, hunique⟩
  | cons entry rest ih =>
      obtain ⟨db₁, hput, h⟩ := ok_of_bind h
      refine ih (ordered_putOutgoingRow hordered hput) ?_ ?_
        (uniqueMessages_putOutgoingRow hunique hput) h
      · rw [envelopes_putOutgoingRow hput]
        exact henvelopes
      · rw [putOutgoingRow_ok hput]
        intro r hr
        rcases (Store.mem_put_iff hordered).mp hr with rfl | ⟨hr, hne⟩
        · exact Or.inl (indexedOutgoing_idem entry)
        · rcases houtgoing r hr with hindexed | hmem
          · exact Or.inl hindexed
          · rcases List.mem_cons.mp hmem with rfl | hmem
            · exact absurd rfl hne
            · exact Or.inr hmem

/-- An upgrade that succeeds makes every index field current. -/
theorem indexed_migrateSchema (hordered : Store.Ordered Stored.key db.outgoing)
    (h : migrateSchema db = .ok db') : Indexed db' := by
  unfold migrateSchema at h
  split_ifs at h with hunique
  refine indexed_migrateOutgoing ?_ ?_ ?_ ?_ h
  · exact hordered
  · intro r hr
    obtain ⟨s, -, rfl⟩ := List.mem_map.mp hr
    exact indexedEnvelope_idem s
  · exact fun r hr => Or.inr hr
  · exact hunique

theorem Opened.indexed (h : Opened db) : Indexed db := by
  cases h with
  | empty identity => exact ⟨List.Pairwise.nil, by simp, by simp, by simp [uniqueMessages]⟩
  | upgraded hordered h => exact indexed_migrateSchema hordered h

section Writers

variable {scope : InboxScope}

/-- Stores other than the two indexed ones do not matter. -/
theorem Indexed.congr (hdb : Indexed db) (henvelopes : db'.envelopes = db.envelopes)
    (houtgoing : db'.outgoing = db.outgoing) : Indexed db' :=
  ⟨houtgoing ▸ hdb.ordered, henvelopes ▸ hdb.envelopes, houtgoing ▸ hdb.outgoing,
    houtgoing ▸ hdb.unique⟩

/-- The writers of the outgoing store put rows that `indexedRecord` built. -/
theorem indexed_putOutgoingRow {entry : Stored OutgoingCommand} (hdb : Indexed db)
    (h : putOutgoingRow (indexedOutgoing entry) db = .ok db') : Indexed db' := by
  refine ⟨ordered_putOutgoingRow hdb.ordered h, ?_, ?_,
    uniqueMessages_putOutgoingRow hdb.unique h⟩
  · rw [envelopes_putOutgoingRow h]
    exact hdb.envelopes
  · rw [putOutgoingRow_ok h]
    intro r hr
    rcases Store.mem_put hr with rfl | hr
    · exact indexedOutgoing_idem entry
    · exact hdb.outgoing r hr

theorem indexed_putOutgoing {command : SendMessageRequest} {replaceRejected : Bool}
    {now : String} {value : OutgoingCommand} (hdb : Indexed db)
    (h : putOutgoing scope command replaceRejected now db = .ok (value, db')) :
    Indexed db' := by
  obtain ⟨_, -, h⟩ := ok_of_bind h
  cases hrow : outgoingAt scope command.client_message_id db with
  | none =>
      simp only [hrow] at h
      obtain ⟨db₁, hput, h⟩ := ok_of_bind h
      simp only [pure, Except.pure, Except.ok.injEq, Prod.mk.injEq] at h
      rw [← h.2]
      exact indexed_putOutgoingRow hdb hput
  | some existing =>
      simp only [hrow] at h
      split_ifs at h with hreplace haccepted hchat hsame
      · cases h
      · cases h
      · cases h
      · obtain ⟨db₁, hput, h⟩ := ok_of_bind h
        simp only [pure, Except.pure, Except.ok.injEq, Prod.mk.injEq] at h
        rw [← h.2]
        exact indexed_putOutgoingRow hdb hput
      · simp only [pure, Except.pure, Except.ok.injEq, Prod.mk.injEq] at h
        rw [← h.2]
        exact hdb

theorem indexed_acceptOutgoing {message : SentMessage} {value : OutgoingCommand}
    (hdb : Indexed db) (h : acceptOutgoing scope message db = .ok (value, db')) :
    Indexed db' := by
  obtain ⟨_, -, h⟩ := ok_of_bind h
  split_ifs at h with hsender
  · cases h
  · cases hrow : outgoingAt scope message.clientMessageId db with
    | none => simp [hrow] at h
    | some row =>
        simp only [hrow] at h
        split_ifs at h with hchat
        · cases h
        · obtain ⟨db₁, hput, h⟩ := ok_of_bind h
          simp only [pure, Except.pure, Except.ok.injEq, Prod.mk.injEq] at h
          rw [← h.2]
          refine indexed_putOutgoingRow ?_ hput
          exact hdb.congr rfl rfl

theorem indexed_applyDeliveryReceipt {receipt : MessageEnvelope}
    {value : Option OutgoingCommand} (hdb : Indexed db)
    (h : applyDeliveryReceipt scope receipt db = .ok (value, db')) : Indexed db' := by
  unfold applyDeliveryReceipt at h
  split_ifs at h with hnone
  · cases h
  · obtain ⟨_, -, h⟩ := ok_of_bind h
    have hmeta : Indexed (applyReceiptToMetadata scope receipt db) := by
      unfold applyReceiptToMetadata
      cases metadataAt scope receipt.message_id db with
      | none => exact hdb
      | some metadata => exact hdb.congr rfl rfl
    simp only at h
    -- from here on only the state after the metadata write matters
    generalize applyReceiptToMetadata scope receipt db = db₁ at h hmeta
    split at h
    · simp only [pure, Except.pure, Except.ok.injEq, Prod.mk.injEq] at h
      rw [← h.2]
      exact hmeta.congr rfl rfl
    · split at h
      · simp only [pure, Except.pure, Except.ok.injEq, Prod.mk.injEq] at h
        rw [← h.2]
        exact hmeta.congr rfl rfl
      · split_ifs at h with hsame
        · simp only [pure, Except.pure, Except.ok.injEq, Prod.mk.injEq] at h
          rw [← h.2]
          exact hmeta
        · obtain ⟨db₂, hput, h⟩ := ok_of_bind h
          simp only [pure, Except.pure, Except.ok.injEq, Prod.mk.injEq] at h
          rw [← h.2]
          exact indexed_putOutgoingRow hmeta hput

theorem indexed_mergeSentMetadata {message value : SentMessage} (hdb : Indexed db)
    (h : mergeSentMetadata scope message db = .ok (value, db')) : Indexed db' := by
  unfold mergeSentMetadata at h
  obtain ⟨_, -, h⟩ := ok_of_bind h
  split_ifs at h with hsender
  · cases h
  · simp only at h
    split at h
    · simp only [pure, Except.pure, Except.ok.injEq, Prod.mk.injEq] at h
      rw [← h.2]
      exact hdb.congr rfl rfl
    · obtain ⟨db₁, hput, h⟩ := ok_of_bind h
      simp only [pure, Except.pure, Except.ok.injEq, Prod.mk.injEq] at h
      rw [← h.2]
      refine indexed_putOutgoingRow ?_ hput
      exact hdb.congr rfl rfl

theorem indexed_foldl_storeEnvelope {es : List MailboxEnvelope}
    {store : List (Stored MailboxEnvelope)} (h : ∀ r ∈ store, indexedEnvelope r = r) :
    ∀ r ∈ es.foldl (storeEnvelope scope) store, indexedEnvelope r = r := by
  induction es generalizing store with
  | nil => exact h
  | cons e rest ih =>
      refine ih fun r hr => ?_
      by_cases hsame : Unchanged scope store e
      · rw [storeEnvelope_same hsame] at hr
        exact h r hr
      · rw [storeEnvelope_put hsame] at hr
        rcases Store.mem_put hr with rfl | hr
        · exact indexedEnvelope_idem _
        · exact h r hr

theorem indexed_commitPage {cursor : ℤ} {es cs : List MailboxEnvelope} {next : JsNumber}
    (hdb : Indexed db) (h : commitPage scope cursor es next db = .ok (cs, db')) :
    Indexed db' := by
  cases next with
  | other => cases h
  | integer next =>
      have hdb_eq := (commitPage_ok h).1.db_eq
      refine ⟨?_, ?_, ?_, ?_⟩
      · rw [hdb_eq]
        exact hdb.ordered
      · rw [hdb_eq]
        exact indexed_foldl_storeEnvelope hdb.envelopes
      · rw [hdb_eq]
        exact hdb.outgoing
      · rw [hdb_eq]
        exact hdb.unique

/-- No writer leaves an index field behind. -/
theorem Indexed.step (hdb : Indexed db) (step : InboxStep) : Indexed (step.apply db) := by
  cases step with
  | putOutgoing scope command replaceRejected now =>
      simp only [InboxStep.apply, afterTransaction]
      cases h : putOutgoing scope command replaceRejected now db with
      | error x => exact hdb
      | ok r => exact indexed_putOutgoing hdb h
  | acceptOutgoing scope message =>
      simp only [InboxStep.apply, afterTransaction]
      cases h : acceptOutgoing scope message db with
      | error x => exact hdb
      | ok r => exact indexed_acceptOutgoing hdb h
  | applyDeliveryReceipt scope receipt =>
      simp only [InboxStep.apply, afterTransaction]
      cases h : applyDeliveryReceipt scope receipt db with
      | error x => exact hdb
      | ok r => exact indexed_applyDeliveryReceipt hdb h
  | mergeSentMetadata scope message =>
      simp only [InboxStep.apply, afterTransaction]
      cases h : mergeSentMetadata scope message db with
      | error x => exact hdb
      | ok r => exact indexed_mergeSentMetadata hdb h
  | commitPage scope cursor es next =>
      simp only [InboxStep.apply, afterTransaction]
      cases h : commitPage scope cursor es next db with
      | error x => exact hdb
      | ok r => exact indexed_commitPage hdb h

theorem Indexed.steps (hdb : Indexed db) (steps : List InboxStep) :
    Indexed (applyWrites steps db) := by
  induction steps generalizing db with
  | nil => exact hdb
  | cons step rest ih => exact ih (hdb.step step)

end Writers

section Queues

variable {scope : InboxScope}

/-- The `pending` field of an envelope record. -/
theorem pending_envelope {r : Stored MailboxEnvelope} (h : indexedEnvelope r = r)
    {key : String} :
    r.pending = some key ↔ r.scope = key ∧ owesAcknowledgment r.value = true := by
  have hpending : r.pending = (indexedEnvelope r).pending := (congrArg Stored.pending h).symm
  rw [hpending]
  simp only [indexedEnvelope, owesAcknowledgment, Bool.and_eq_true, Option.isNone_iff_eq_none]
  split_ifs with howes
  · simp [howes.1, howes.2]
  · simp only [howes, and_false]

/-- The `pending` field of an outgoing row. -/
theorem pending_outgoing {r : Stored OutgoingCommand} (h : indexedOutgoing r = r)
    {key : String} :
    r.pending = some key ↔ r.scope = key ∧ needsRecovery r.value = true := by
  have hpending : r.pending = (indexedOutgoing r).pending := (congrArg Stored.pending h).symm
  rw [hpending]
  simp only [indexedOutgoing, needsRecovery]
  cases r.value.accepted with
  | none => simp
  | some accepted =>
      simp only [Bool.or_eq_true, List.isEmpty_iff]
      split_ifs with hneeds
      · simp only [hneeds, and_true, Option.some.injEq]
      · simp only [hneeds, and_false]

/-- A row stands in the `message` index under its scope and accepted id. -/
theorem message_outgoing {r : Stored OutgoingCommand} (h : indexedOutgoing r = r)
    {key id : String} :
    r.message = some [key, id] ↔ r.scope = key ∧ ∃ a ∈ r.value.accepted, a.id = id := by
  have hmessage : r.message = (indexedOutgoing r).message := (congrArg Stored.message h).symm
  rw [hmessage]
  simp only [indexedOutgoing, Option.map_eq_some_iff, List.cons.injEq, and_true]
  constructor
  · rintro ⟨a, ha, hscope, hid⟩
    exact ⟨hscope, a, ha, hid⟩
  · rintro ⟨hscope, a, ha, hid⟩
    exact ⟨a, ha, hscope, hid⟩

theorem snapshot_ok {snap : InboxSnapshot} (h : snapshot scope db = .ok (snap, db')) :
    validate scope db = .ok () ∧
      snap.envelopes = (storedEnvelopes scope db.envelopes).mergeSort bySeq ∧
      snap.outgoing =
        (db.outgoing.filter fun r => decide (r.scope = scopeKey scope)).map Stored.value := by
  obtain ⟨u, hvalid, h⟩ := ok_of_bind h
  simp only [pure, Except.pure, Except.ok.injEq, Prod.mk.injEq] at h
  rw [← h.1]
  exact ⟨hvalid, rfl, rfl⟩

/-- A filter on the index field is a filter on the scope and the value. -/
theorem filter_pending {α : Type} {rows : List (Stored α)} {key : String} {p : α → Bool}
    (h : ∀ r ∈ rows, r.pending = some key ↔ r.scope = key ∧ p r.value = true) :
    (rows.filter fun r => decide (r.pending = some key)).map Stored.value =
      ((rows.filter fun r => decide (r.scope = key)).map Stored.value).filter p := by
  rw [List.filter_map, List.filter_filter]
  congr 1
  refine List.filter_congr fun r hr => ?_
  simp [h r hr, Bool.and_comm]

theorem pendingAcknowledgments_eq (hdb : Indexed db) (hvalid : validate scope db = .ok ()) :
    getPendingAcknowledgments scope db =
      .ok ((storedEnvelopes scope db.envelopes).filter owesAcknowledgment, db) := by
  have hpending : ∀ r ∈ db.envelopes, r.pending = some (scopeKey scope) ↔
      r.scope = scopeKey scope ∧ owesAcknowledgment r.value = true :=
    fun r hr => pending_envelope (hdb.envelopes r hr)
  unfold getPendingAcknowledgments storedEnvelopes
  rw [hvalid, filter_pending hpending]
  rfl

theorem outgoingToRecover_eq (hdb : Indexed db) (hvalid : validate scope db = .ok ()) :
    getOutgoingToRecover scope db =
      .ok (((db.outgoing.filter fun r => decide (r.scope = scopeKey scope)).map
        Stored.value).filter needsRecovery, db) := by
  have hpending : ∀ r ∈ db.outgoing, r.pending = some (scopeKey scope) ↔
      r.scope = scopeKey scope ∧ needsRecovery r.value = true :=
    fun r hr => pending_outgoing (hdb.outgoing r hr)
  unfold getOutgoingToRecover
  rw [hvalid, filter_pending hpending]
  rfl

/-- The `message` lookup finds the row with the accepted id, and no other row
has it. -/
theorem outgoingByMessage_iff (hdb : Indexed db) {id : String}
    {row : Stored OutgoingCommand} :
    outgoingByMessage scope id db = some row ↔
      row ∈ db.outgoing ∧ row.scope = scopeKey scope ∧ ∃ a ∈ row.value.accepted, a.id = id := by
  constructor
  · intro h
    have hmem := List.mem_of_find?_eq_some h
    have hindex := List.find?_some h
    rw [decide_eq_true_eq] at hindex
    exact ⟨hmem, (message_outgoing (hdb.outgoing row hmem)).mp hindex⟩
  · rintro ⟨hmem, hrow⟩
    have hindex := (message_outgoing (hdb.outgoing row hmem)).mpr hrow
    cases hfind : outgoingByMessage scope id db with
    | none =>
        have := List.find?_eq_none.mp hfind row hmem
        simp [hindex] at this
    | some other =>
        have hother := List.mem_of_find?_eq_some hfind
        have hsame := List.find?_some hfind
        rw [decide_eq_true_eq] at hsame
        have hkey : other.key = row.key :=
          hdb.unique other hother row hmem (by simp [hsame]) (hsame.trans hindex.symm)
        have hget := Store.get_of_mem hdb.ordered hother
        rw [hkey, Store.get_of_mem hdb.ordered hmem] at hget
        exact hget.symm

/-- **Main result.**  After any writes the queues are the filters of the
snapshot, and the `message` index finds exactly the row with the accepted id. -/
theorem indexed_queues_are_filters (hopen : Opened db) (steps : List InboxStep)
    (scope : InboxScope) {snap : InboxSnapshot}
    (hsnap : snapshot scope (applyWrites steps db) = .ok (snap, applyWrites steps db)) :
    (∃ acks, getPendingAcknowledgments scope (applyWrites steps db) =
        .ok (acks, applyWrites steps db) ∧
      acks.Perm (snap.envelopes.filter owesAcknowledgment)) ∧
    getOutgoingToRecover scope (applyWrites steps db) =
      .ok (snap.outgoing.filter needsRecovery, applyWrites steps db) ∧
    ∀ (id : String) (row : Stored OutgoingCommand),
      outgoingByMessage scope id (applyWrites steps db) = some row ↔
        row ∈ (applyWrites steps db).outgoing ∧ row.scope = scopeKey scope ∧
          ∃ a ∈ row.value.accepted, a.id = id := by
  have hdb := hopen.indexed.steps steps
  obtain ⟨hvalid, henvelopes, houtgoing⟩ := snapshot_ok hsnap
  refine ⟨⟨_, pendingAcknowledgments_eq hdb hvalid, ?_⟩, ?_, ?_⟩
  · rw [henvelopes]
    exact ((List.mergeSort_perm _ _).filter _).symm
  · rw [houtgoing]
    exact outgoingToRecover_eq hdb hvalid
  · exact fun id row => outgoingByMessage_iff hdb

theorem getOutgoingToRecover_valid (h : valid scope db = true) :
    getOutgoingToRecover scope db = .ok ((db.outgoing.filter fun entry =>
      decide (entry.pending = some (scopeKey scope))).map Stored.value, db) := by
  unfold getOutgoingToRecover
  rw [validate_of_valid h]
  rfl

theorem snapshot_total (hvalid : valid scope db = true) :
    ∃ snap, snapshot scope db = .ok (snap, db) := by
  unfold snapshot validate
  rw [if_pos hvalid]
  exact ⟨_, rfl⟩

/-- Rows without an acceptance pass the unique index. -/
theorem migrateOutgoing_unaccepted {rows : List (Stored OutgoingCommand)}
    (h : ∀ r ∈ rows, r.value.accepted = none) :
    ∀ {db : Database}, migrateOutgoing rows db = .ok { db with
      outgoing := rows.foldl (fun rows r => Store.put Stored.key (indexedOutgoing r) rows)
        db.outgoing } := by
  induction rows with
  | nil => exact fun {_} => rfl
  | cons r rest ih =>
      intro db
      have hput : putOutgoingRow (indexedOutgoing r) db =
          .ok { db with outgoing := Store.put Stored.key (indexedOutgoing r) db.outgoing } := by
        refine if_neg ?_
        simp [indexedOutgoing, h r List.mem_cons_self]
      rw [migrateOutgoing, hput]
      exact ih fun s hs => h s (List.mem_cons_of_mem r hs)

section Upgrade

/-! A device whose inbox an earlier version has written: two commands and a
received envelope, without index fields. -/

def receivedEnvelope (id : String) (seq : ℤ) : MailboxEnvelope :=
  { phoneEnvelope with
    id := id
    recipient_device_id := sentScope.deviceId
    mailbox_seq := .integer seq }

/-- The envelope after its acknowledgment. -/
def settledEnvelope : MailboxEnvelope :=
  { receivedEnvelope "e7" 1 with
    payload := none
    delivered_at := some deliveryTime
    payload_purged_at := some deliveryTime }

def laterCommand : OutgoingCommand :=
  ⟨⟨"c1", "k2", []⟩, none, some "2026-01-01T00:00:00Z"⟩

def oldInbox : Database where
  identity := some ⟨"a1000000-0000-4000-8000-000000000001", "Phone", "g1"⟩
  envelopes := [record (scopeKey sentScope) "e7" (receivedEnvelope "e7" 1)]
  outgoing := [record (scopeKey sentScope) "k1" sentCommand,
    record (scopeKey sentScope) "k2" laterCommand]

/-- What the upgrade makes of it. -/
def upgradedInbox : Database :=
  { oldInbox with
    envelopes := oldInbox.envelopes.map indexedEnvelope
    outgoing := oldInbox.outgoing.foldl
      (fun rows r => Store.put Stored.key (indexedOutgoing r) rows) oldInbox.outgoing }

/-- A receipt of the envelope of `sentSnapshot`. -/
def sentReceipt : MessageEnvelope where
  id := "e1"
  message_id := "m1"
  recipient_device_id := "bob-phone"
  recipient_user_id := some "bob"
  mailbox_seq := .integer 1
  protocol_version := 0
  envelope_type := "plaintext-dev"
  payload := none
  created_at := "2026-01-01T00:00:00Z"
  expires_at := "2026-01-31T00:00:00Z"
  delivered_at := some deliveryTime
  payload_purged_at := none

/-- The first command has been accepted. -/
def acceptedInbox : Database :=
  InboxStep.apply (.acceptOutgoing sentScope (sentSnapshot none)) upgradedInbox

/-- The envelope has been acknowledged, and another one has arrived. -/
def arrivedInbox : Database :=
  putCursor (scopeKey sentScope) 2
    { acceptedInbox with
      envelopes := [settledEnvelope, receivedEnvelope "e8" 2].foldl
        (storeEnvelope sentScope) acceptedInbox.envelopes }

/-- The message has been delivered. -/
def deliveredInbox : Database :=
  InboxStep.apply (.applyDeliveryReceipt sentScope sentReceipt) arrivedInbox

def laterWrites : List InboxStep :=
  [.acceptOutgoing sentScope (sentSnapshot none),
    .commitPage sentScope 0 [settledEnvelope, receivedEnvelope "e8" 2] (.integer 2),
    .applyDeliveryReceipt sentScope sentReceipt]

theorem opened_upgradedInbox : Opened upgradedInbox := by
  have hordered : Store.Ordered Stored.key oldInbox.outgoing := by
    unfold Store.Ordered
    decide
  have hnew : ∀ r ∈ oldInbox.outgoing, r.value.accepted = none ∧ r.message = none := by
    intro r hr
    rcases List.mem_pair.mp hr with rfl | rfl
    · exact ⟨rfl, rfl⟩
    · exact ⟨rfl, rfl⟩
  have hunique : uniqueMessages oldInbox.outgoing := by
    intro r hr s _ hsome _
    simp [(hnew r hr).2] at hsome
  refine .upgraded hordered ?_
  unfold migrateSchema
  rw [if_pos hunique, migrateOutgoing_unaccepted fun r hr => (hnew r hr).1]
  rfl

theorem applyWrites_laterWrites : applyWrites laterWrites upgradedInbox = deliveredInbox := by
  have hvalid : valid sentScope acceptedInbox = true := by decide
  have hcursor : cursorAt (scopeKey sentScope) acceptedInbox = 0 := by decide
  have hdevice : ∀ e ∈ [settledEnvelope, receivedEnvelope "e8" 2],
      e.recipient_device_id = sentScope.deviceId := by decide
  obtain ⟨⟨cs, db⟩, hok⟩ := commitPage_total hvalid hcursor zero_le_two rfl hdevice
  have hdb : db = arrivedInbox := (commitPage_ok hok).1.db_eq
  have hcommit : InboxStep.apply (.commitPage sentScope 0 [settledEnvelope,
      receivedEnvelope "e8" 2] (.integer 2)) acceptedInbox = arrivedInbox := by
    rw [InboxStep.apply, afterTransaction, hok]
    exact hdb
  have hsteps : ∀ a b c : InboxStep, ∀ db,
      applyWrites [a, b, c] db = c.apply (b.apply (a.apply db)) := fun _ _ _ _ => rfl
  refine (hsteps _ _ _ _).trans ?_
  exact congrArg (InboxStep.apply (.applyDeliveryReceipt sentScope sentReceipt)) hcommit

/-- The queues, read from the indexes. -/
theorem queues_deliveredInbox :
    valid sentScope deliveredInbox = true ∧
    (deliveredInbox.envelopes.filter fun entry =>
      decide (entry.pending = some (scopeKey sentScope))).map (·.value.id) = ["e8"] ∧
    (deliveredInbox.outgoing.filter fun entry =>
      decide (entry.pending = some (scopeKey sentScope))).map
        (·.value.command.client_message_id) = ["k2"] ∧
    (outgoingByMessage sentScope "m1" deliveredInbox).map
      (·.value.command.client_message_id) = some "k1" := by
  decide

/-- The queues of an inbox that was upgraded and written to. -/
theorem indexed_queues_are_filters_upgraded :
    let db := applyWrites laterWrites upgradedInbox
    ∃ snap acks row, snapshot sentScope db = .ok (snap, db) ∧
      (getPendingAcknowledgments sentScope db = .ok (acks, db) ∧
        acks.Perm (snap.envelopes.filter owesAcknowledgment) ∧ acks.map (·.id) = ["e8"]) ∧
      (getOutgoingToRecover sentScope db = .ok (snap.outgoing.filter needsRecovery, db) ∧
        (snap.outgoing.filter needsRecovery).map (·.command.client_message_id) = ["k2"]) ∧
      (outgoingByMessage sentScope "m1" db = some row ∧
        row.value.command.client_message_id = "k1" ∧ ∃ a ∈ row.value.accepted, a.id = "m1") := by
  intro db
  have hdb : db = deliveredInbox := applyWrites_laterWrites
  obtain ⟨hvalid, henvelopes, houtgoing, hmessage⟩ := queues_deliveredInbox
  rw [← hdb] at hvalid henvelopes houtgoing hmessage
  obtain ⟨snap, hsnap⟩ := snapshot_total hvalid
  obtain ⟨⟨acks, hacks, hperm⟩, hrecover, hlookup⟩ :=
    indexed_queues_are_filters opened_upgradedInbox laterWrites sentScope hsnap
  obtain ⟨row, hrow, hcommand⟩ := Option.map_eq_some_iff.mp hmessage
  obtain ⟨-, -, haccepted⟩ := (hlookup "m1" row).mp hrow
  refine ⟨snap, acks, row, hsnap, ⟨hacks, hperm, ?_⟩, ⟨hrecover, ?_⟩, hrow, hcommand, haccepted⟩
  · have hread := (getPendingAcknowledgments_valid hvalid).symm.trans hacks
    rw [← (Prod.mk.inj (Except.ok.inj hread)).1, List.map_map]
    exact henvelopes
  · have hread := (getOutgoingToRecover_valid hvalid).symm.trans hrecover
    rw [← (Prod.mk.inj (Except.ok.inj hread)).1, List.map_map]
    exact houtgoing

end Upgrade

end Queues

end Client
end SecureMessenger
