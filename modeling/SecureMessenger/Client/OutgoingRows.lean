import SecureMessenger.Client.IndexedQueues
import SecureMessenger.Client.InboxOperations

/-!
# Outgoing rows

What the writes do to the rows of the outgoing store.  A row keeps the place in
the history that it has at its first write; rows of an earlier version have no
`createdAt`, and their place is that of their acceptance.  Its command is only
replaced while it is not accepted.
-/

namespace SecureMessenger
namespace Client

open Lib

/-- The outgoing store as its writers leave it; `created` says when the server
has stored a message. -/
structure OutgoingStore (created : String → String) (db : Database) : Prop where
  ordered : Store.Ordered Stored.key db.outgoing
  keyed : ∀ r ∈ db.outgoing, r.key = recordKey r.scope r.value.command.client_message_id
  indexed : ∀ r ∈ db.outgoing, indexedOutgoing r = r
  agrees : ∀ r ∈ db.outgoing, ∀ a, r.value.accepted = some a → a.createdAt = created a.id

/-- The snapshots of a message agree on when it was stored. -/
def InboxStep.Agrees (created : String → String) : InboxStep → Prop
  | .acceptOutgoing _ message | .mergeSentMetadata _ message =>
      message.createdAt = created message.id
  | _ => True

/-- What a row keeps while other writes follow. -/
structure RowContinues (r w : Stored OutgoingCommand) : Prop where
  key : w.key = r.key
  scope : w.scope = r.scope
  history : w.history = r.history
  chat : w.value.command.chat_id = r.value.command.chat_id
  command : r.value.accepted.isSome → w.value.command = r.value.command
  accepted : r.value.accepted.isSome → w.value.accepted.isSome

/-- A rejected command of the same chat has been replaced. -/
def InboxStep.Replaces (r w : Stored OutgoingCommand) (step : InboxStep) : Prop :=
  ∃ scope command now, step = .putOutgoing scope command true now ∧
    command.client_message_id = r.value.command.client_message_id ∧
    command.chat_id = r.value.command.chat_id ∧ r.value.accepted = none ∧
    w.value.command = command ∧ w.value.accepted = none

/-- The command has no row yet. -/
def InboxStep.Inserts (db : Database) (step : InboxStep) : Prop :=
  ∃ scope command replaceRejected now, step = .putOutgoing scope command replaceRejected now ∧
    outgoingAt scope command.client_message_id db = none

/-- What a write does to the outgoing rows: nothing, or it puts one row. -/
inductive RowChange (created : String → String) (step : InboxStep) (db db' : Database) : Prop
  | same (hout : db'.outgoing = db.outgoing)
  | row {w : Stored OutgoingCommand} (hout : db'.outgoing = Store.put Stored.key w db.outgoing)
      (hkey : w.key = recordKey w.scope w.value.command.client_message_id)
      (hindexed : indexedOutgoing w = w)
      (hagrees : ∀ a, w.value.accepted = some a → a.createdAt = created a.id)
      (hprior : ∀ r ∈ db.outgoing, r.key = w.key → RowContinues r w ∧
        (w.value.command ≠ r.value.command → step.Replaces r w))
      (hnew : (∀ r ∈ db.outgoing, r.key ≠ w.key) → step.Inserts db)

section Rows

variable {created : String → String} {db db' : Database} {scope : InboxScope}

theorem RowContinues.refl (r : Stored OutgoingCommand) : RowContinues r r :=
  ⟨rfl, rfl, rfl, rfl, fun _ => rfl, fun h => h⟩

theorem RowContinues.trans {r w v : Stored OutgoingCommand} (h : RowContinues r w)
    (h' : RowContinues w v) :
    RowContinues r v where
  key := h'.key.trans h.key
  scope := h'.scope.trans h.scope
  history := h'.history.trans h.history
  chat := h'.chat.trans h.chat
  command ha := (h'.command (h.accepted ha)).trans (h.command ha)
  accepted ha := h'.accepted (h.accepted ha)

/-- The place of a row in the history. -/
theorem history_outgoing {r : Stored OutgoingCommand} (h : indexedOutgoing r = r) :
    r.history = some [r.scope, r.value.command.chat_id,
      (r.value.createdAt.or (r.value.accepted.map (·.createdAt))).getD "",
      "outgoing:" ++ r.value.command.client_message_id] :=
  (congrArg Stored.history h).symm

namespace OutgoingStore

theorem congr (h : OutgoingStore created db) (hout : db'.outgoing = db.outgoing) :
    OutgoingStore created db' :=
  ⟨hout ▸ h.ordered, hout ▸ h.keyed, hout ▸ h.indexed, hout ▸ h.agrees⟩

theorem outgoingAt_some (h : OutgoingStore created db) {id : String} {r : Stored OutgoingCommand}
    (hr : outgoingAt scope id db = some r) :
    r ∈ db.outgoing ∧ r.scope = scopeKey scope ∧ r.value.command.client_message_id = id := by
  obtain ⟨hmem, hkey⟩ := Store.get_some hr
  rw [h.keyed r hmem, recordKey_inj] at hkey
  exact ⟨hmem, hkey⟩

theorem outgoingByMessage_some (h : OutgoingStore created db) {id : String}
    {r : Stored OutgoingCommand} (hr : outgoingByMessage scope id db = some r) :
    r ∈ db.outgoing ∧ ∃ a, r.value.accepted = some a ∧ a.id = id := by
  have hmem := List.mem_of_find?_eq_some hr
  have hindex := List.find?_some hr
  rw [decide_eq_true_eq, message_outgoing (h.indexed r hmem)] at hindex
  obtain ⟨-, a, ha, hid⟩ := hindex
  exact ⟨hmem, a, ha, hid⟩

/-- Rows with the same key are the same row. -/
theorem eq_of_key (h : OutgoingStore created db) {r r' : Stored OutgoingCommand}
    (hr : r ∈ db.outgoing) (hr' : r' ∈ db.outgoing) (hkey : r.key = r'.key) : r = r' := by
  have hget := Store.get_of_mem h.ordered hr
  rw [hkey, Store.get_of_mem h.ordered hr'] at hget
  exact (Option.some.inj hget).symm

end OutgoingStore

/-! ## The writes -/

/-- A new acceptance is written over a row. -/
theorem change_accepted (h : OutgoingStore created db) {step : InboxStep}
    {r : Stored OutgoingCommand} (hr : r ∈ db.outgoing) (createdAt : Option String)
    (a : SentMessage) (ha : a.createdAt = created a.id)
    (hcreated : (createdAt.or (some a.createdAt)).getD "" =
      (r.value.createdAt.or (r.value.accepted.map (·.createdAt))).getD "")
    (hout : db'.outgoing = Store.put Stored.key (withAccepted r createdAt a) db.outgoing) :
    RowChange created step db db' := by
  refine .row hout (h.keyed r hr) (indexedOutgoing_idem _) ?_ ?_ fun hnew => absurd rfl (hnew r hr)
  · intro b hb
    cases hb
    exact ha
  · intro r' hr' hkey
    obtain rfl : r' = r := h.eq_of_key hr' hr hkey
    refine ⟨⟨rfl, rfl, ?_, rfl, fun _ => rfl, fun _ => rfl⟩, fun hne => absurd rfl hne⟩
    rw [history_outgoing (h.indexed r' hr), ← hcreated]
    rfl

theorem change_putOutgoing (h : OutgoingStore created db) {command : SendMessageRequest}
    {replaceRejected : Bool} {now : String} {value : OutgoingCommand}
    (hok : putOutgoing scope command replaceRejected now db = .ok (value, db')) :
    RowChange created (.putOutgoing scope command replaceRejected now) db db' := by
  obtain ⟨_, -, hok⟩ := ok_of_bind hok
  cases hrow : outgoingAt scope command.client_message_id db with
  | none =>
      simp only [hrow] at hok
      obtain ⟨db₁, hput, hok⟩ := ok_of_bind hok
      simp only [pure, Except.pure, Except.ok.injEq, Prod.mk.injEq] at hok
      rw [← hok.2]
      refine .row (congrArg Database.outgoing (putOutgoingRow_ok hput)) rfl
        (indexedOutgoing_idem _) (fun a ha => nomatch ha) (fun r hr hkey => ?_)
        fun _ => ⟨scope, command, replaceRejected, now, rfl, hrow⟩
      exact absurd hkey (Store.get_none.mp hrow r hr)
  | some existing =>
      obtain ⟨hmem, hscope, hid⟩ := h.outgoingAt_some hrow
      simp only [hrow] at hok
      split_ifs at hok with hreplace haccepted _ hother
      · cases hok
      · cases hok
      · cases hok
      · obtain ⟨db₁, hput, hok⟩ := ok_of_bind hok
        simp only [pure, Except.pure, Except.ok.injEq, Prod.mk.injEq] at hok
        rw [← hok.2]
        have hnone : existing.value.accepted = none := by
          rw [← Option.not_isSome_iff_eq_none]
          exact haccepted
        have hsame : existing.key = recordKey (scopeKey scope) command.client_message_id := by
          rw [h.keyed existing hmem, hscope, hid]
        refine .row (congrArg Database.outgoing (putOutgoingRow_ok hput)) rfl
          (indexedOutgoing_idem _) (fun a ha => nomatch ha) (fun r hr hkey => ?_)
          fun hnew => absurd hsame (hnew existing hmem)
        obtain rfl : r = existing := h.eq_of_key hr hmem (hkey.trans hsame.symm)
        refine ⟨⟨hkey.symm, hscope.symm, ?_, (not_not.mp hother).symm, ?_, ?_⟩, fun _ => ?_⟩
        · rw [history_outgoing (h.indexed r hr), history_outgoing (indexedOutgoing_idem _), hnone,
            hscope, hid, not_not.mp hother]
          cases r.value.createdAt <;> rfl
        · intro hsome
          rw [hnone] at hsome
          cases hsome
        · intro hsome
          rw [hnone] at hsome
          cases hsome
        · subst hreplace
          exact ⟨scope, command, now, rfl, hid.symm, (not_not.mp hother).symm, hnone, rfl, rfl⟩
      · simp only [pure, Except.pure, Except.ok.injEq, Prod.mk.injEq] at hok
        rw [← hok.2]
        exact .same rfl

theorem change_acceptOutgoing (h : OutgoingStore created db) {message : SentMessage}
    {value : OutgoingCommand} (hcreated : message.createdAt = created message.id)
    (hok : acceptOutgoing scope message db = .ok (value, db')) :
    RowChange created (.acceptOutgoing scope message) db db' := by
  obtain ⟨_, -, hok⟩ := ok_of_bind hok
  split_ifs at hok with hsender
  · cases hok
  · cases hrow : outgoingAt scope message.clientMessageId db with
    | none => simp [hrow] at hok
    | some existing =>
        simp only [hrow] at hok
        split_ifs at hok with hchat
        · cases hok
        · obtain ⟨db₁, hput, hok⟩ := ok_of_bind hok
          simp only [pure, Except.pure, Except.ok.injEq, Prod.mk.injEq] at hok
          rw [← hok.2]
          let createdAt := (existing.value.createdAt.or
            (existing.value.accepted.map fun a : SentMessage => a.createdAt)).getD ""
          let accepted : SentMessage :=
            { message with
              chatSeq := message.chatSeq.or
                (existing.value.accepted.bind fun a : SentMessage => a.chatSeq)
              envelopes := (acceptEnvelopes scope existing.value.accepted message.envelopes
                db.receipts).1 }
          have hout : db₁.outgoing = Store.put Stored.key
              (withAccepted existing (some createdAt) accepted) db.outgoing :=
            congrArg Database.outgoing (putOutgoingRow_ok hput)
          exact change_accepted h (h.outgoingAt_some hrow).1 (some createdAt) accepted
            hcreated rfl hout

theorem change_applyDeliveryReceipt (h : OutgoingStore created db) {receipt : MessageEnvelope}
    {value : Option OutgoingCommand}
    (hok : applyDeliveryReceipt scope receipt db = .ok (value, db')) :
    RowChange created (.applyDeliveryReceipt scope receipt) db db' := by
  unfold applyDeliveryReceipt at hok
  split_ifs at hok with hnone
  · cases hok
  · obtain ⟨_, -, hok⟩ := ok_of_bind hok
    have hmeta : (applyReceiptToMetadata scope receipt db).outgoing = db.outgoing := by
      unfold applyReceiptToMetadata
      cases metadataAt scope receipt.message_id db <;> rfl
    simp only at hok
    -- from here on only the state after the metadata write matters
    have h₁ := h.congr hmeta
    generalize applyReceiptToMetadata scope receipt db = db₁ at hok hmeta h₁
    split at hok
    · simp only [pure, Except.pure, Except.ok.injEq, Prod.mk.injEq] at hok
      rw [← hok.2]
      exact .same hmeta
    · rename_i entry hrow
      split at hok
      · simp only [pure, Except.pure, Except.ok.injEq, Prod.mk.injEq] at hok
        rw [← hok.2]
        exact .same hmeta
      · rename_i accepted haccepted
        split_ifs at hok with hsame
        · simp only [pure, Except.pure, Except.ok.injEq, Prod.mk.injEq] at hok
          rw [← hok.2]
          exact .same hmeta
        · obtain ⟨db₂, hput, hok⟩ := ok_of_bind hok
          simp only [pure, Except.pure, Except.ok.injEq, Prod.mk.injEq] at hok
          rw [← hok.2]
          have hmem := (h₁.outgoingByMessage_some hrow).1
          refine change_accepted h (hmeta ▸ hmem) entry.value.createdAt
            { accepted with envelopes := accepted.envelopes.map (applyReceipt receipt) }
            (h₁.agrees entry hmem accepted haccepted) ?_ ?_
          · rw [haccepted]
            rfl
          · rw [putOutgoingRow_ok hput, ← hmeta]
            rfl

theorem change_mergeSentMetadata (h : OutgoingStore created db) {message value : SentMessage}
    (hcreated : message.createdAt = created message.id)
    (hok : mergeSentMetadata scope message db = .ok (value, db')) :
    RowChange created (.mergeSentMetadata scope message) db db' := by
  obtain ⟨-, hvalue, ⟨-, hout⟩ | ⟨row, hrow, hout⟩⟩ := mergeSentMetadata_ok hok
  · exact .same hout
  · obtain ⟨hmem, a, ha, hid⟩ := h.outgoingByMessage_some hrow
    refine change_accepted h hmem _ _ (hvalue ▸ hcreated) ?_ hout
    -- both snapshots are of the same message
    rw [ha, hvalue, Option.map_some, h.agrees row hmem a ha, hid]
    show (row.value.createdAt.or (some message.createdAt)).getD "" = _
    rw [hcreated]

/-- **What a write does to the outgoing rows.** -/
theorem OutgoingStore.change (h : OutgoingStore created db) (step : InboxStep)
    (hagrees : step.Agrees created) : RowChange created step db (step.apply db) := by
  cases step with
  | putOutgoing scope command replaceRejected now =>
      simp only [InboxStep.apply, afterTransaction]
      cases hok : putOutgoing scope command replaceRejected now db with
      | error x => exact .same rfl
      | ok r => exact change_putOutgoing h hok
  | acceptOutgoing scope message =>
      simp only [InboxStep.apply, afterTransaction]
      cases hok : acceptOutgoing scope message db with
      | error x => exact .same rfl
      | ok r => exact change_acceptOutgoing h hagrees hok
  | applyDeliveryReceipt scope receipt =>
      simp only [InboxStep.apply, afterTransaction]
      cases hok : applyDeliveryReceipt scope receipt db with
      | error x => exact .same rfl
      | ok r => exact change_applyDeliveryReceipt h hok
  | mergeSentMetadata scope message =>
      simp only [InboxStep.apply, afterTransaction]
      cases hok : mergeSentMetadata scope message db with
      | error x => exact .same rfl
      | ok r => exact change_mergeSentMetadata h hagrees hok
  | commitPage scope cursor es next =>
      simp only [InboxStep.apply, afterTransaction]
      cases hok : commitPage scope cursor es next db with
      | error x => exact .same rfl
      | ok r =>
          cases next with
          | other => cases hok
          | integer next =>
              obtain ⟨cs, db'⟩ := r
              have hout : db'.outgoing = db.outgoing := by
                rw [(commitPage_ok hok).1.db_eq]
                rfl
              exact .same hout

/-! ## Runs -/

theorem RowChange.store {step : InboxStep} (hc : RowChange created step db db')
    (h : OutgoingStore created db) : OutgoingStore created db' := by
  cases hc with
  | same hout => exact h.congr hout
  | @row w hout hkey hindexed hagrees hprior hnew =>
      refine ⟨?_, fun r hr => ?_, fun r hr => ?_, fun r hr => ?_⟩
      · rw [hout]
        exact Store.ordered_put h.ordered
      all_goals
        rw [hout] at hr
        rcases Store.mem_put hr with rfl | hr
      · exact hkey
      · exact h.keyed r hr
      · exact hindexed
      · exact h.indexed r hr
      · exact hagrees
      · exact h.agrees r hr

/-- **A row stays where it is**, and its command is only replaced when it was
rejected. -/
theorem RowChange.row_of_mem {step : InboxStep} (hc : RowChange created step db db')
    (h : OutgoingStore created db) {r : Stored OutgoingCommand} (hr : r ∈ db.outgoing) :
    ∃ w ∈ db'.outgoing, RowContinues r w ∧
      (w.value.command ≠ r.value.command → step.Replaces r w) := by
  cases hc with
  | same hout => exact ⟨r, hout ▸ hr, .refl r, fun hne => absurd rfl hne⟩
  | @row w hout hkey hindexed hagrees hprior hnew =>
      by_cases heq : r.key = w.key
      · exact ⟨w, hout ▸ Store.mem_put_self w _, hprior r hr heq⟩
      · refine ⟨r, ?_, .refl r, fun hne => absurd rfl hne⟩
        rw [hout, Store.mem_put_iff h.ordered]
        exact Or.inr ⟨hr, heq⟩

/-- Only the first write of a command adds a row. -/
theorem RowChange.key_of_mem {step : InboxStep} (hc : RowChange created step db db')
    {w : Stored OutgoingCommand} (hw : w ∈ db'.outgoing) :
    (∃ r ∈ db.outgoing, r.key = w.key) ∨ step.Inserts db := by
  cases hc with
  | same hout => exact Or.inl ⟨w, hout ▸ hw, rfl⟩
  | @row v hout hkey hindexed hagrees hprior hnew =>
      rw [hout] at hw
      rcases Store.mem_put hw with rfl | hw
      · by_cases hrow : ∃ r ∈ db.outgoing, r.key = w.key
        · exact Or.inl hrow
        · exact Or.inr (hnew fun r hr heq => hrow ⟨r, hr, heq⟩)
      · exact Or.inl ⟨w, hw, rfl⟩

theorem OutgoingStore.step (h : OutgoingStore created db) {step : InboxStep}
    (hagrees : step.Agrees created) : OutgoingStore created (step.apply db) :=
  (h.change step hagrees).store h

theorem OutgoingStore.steps (h : OutgoingStore created db) {steps : List InboxStep}
    (hagrees : ∀ step ∈ steps, step.Agrees created) :
    OutgoingStore created (applyWrites steps db) := by
  induction steps generalizing db with
  | nil => exact h
  | cons step rest ih =>
      exact ih (h.step (hagrees step List.mem_cons_self))
        fun s hs => hagrees s (List.mem_cons_of_mem _ hs)

/-- **A row stays where it is** during any writes. -/
theorem OutgoingStore.continues (h : OutgoingStore created db) {steps : List InboxStep}
    (hagrees : ∀ step ∈ steps, step.Agrees created) {r : Stored OutgoingCommand}
    (hr : r ∈ db.outgoing) : ∃ w ∈ (applyWrites steps db).outgoing, RowContinues r w := by
  induction steps generalizing db r with
  | nil => exact ⟨r, hr, .refl r⟩
  | cons step rest ih =>
      have hstep := hagrees step List.mem_cons_self
      obtain ⟨w, hw, hcontinues, -⟩ := (h.change step hstep).row_of_mem h hr
      obtain ⟨v, hv, hcontinues'⟩ := ih (h.step hstep)
        (fun s hs => hagrees s (List.mem_cons_of_mem _ hs)) hw
      exact ⟨v, hv, hcontinues.trans hcontinues'⟩

/-! ## Immutable rows -/

theorem OutgoingStore.opened (hopen : Opened db)
    (hkeyed : ∀ r ∈ db.outgoing, r.key = recordKey r.scope r.value.command.client_message_id)
    (hagrees : ∀ r ∈ db.outgoing, ∀ a, r.value.accepted = some a → a.createdAt = created a.id) :
    OutgoingStore created db :=
  ⟨hopen.indexed.ordered, hkeyed, hopen.indexed.outgoing, hagrees⟩

/-- The write ends in an exception. -/
def InboxStep.Throws (db : Database) : InboxStep → Prop
  | .putOutgoing scope command replaceRejected now =>
      ∃ x, Client.putOutgoing scope command replaceRejected now db = .error x
  | .acceptOutgoing scope message => ∃ x, Client.acceptOutgoing scope message db = .error x
  | .applyDeliveryReceipt scope receipt =>
      ∃ x, Client.applyDeliveryReceipt scope receipt db = .error x
  | .mergeSentMetadata scope message =>
      ∃ x, Client.mergeSentMetadata scope message db = .error x
  | .commitPage scope expectedCursor envelopes nextCursor =>
      ∃ x, Client.commitPage scope expectedCursor envelopes nextCursor db = .error x

theorem afterTransaction_error {α : Type} {tx : Transaction α}
    (h : ∃ x, tx db = .error x) : afterTransaction tx db = db := by
  obtain ⟨x, h⟩ := h
  simp only [afterTransaction, h]

theorem InboxStep.apply_of_throws {step : InboxStep} (h : step.Throws db) : step.apply db = db := by
  cases step <;> exact afterTransaction_error h

/-- A row with the `createdAt` that `putOutgoing` leaves on it. -/
def dated (r : Stored OutgoingCommand) : Stored OutgoingCommand :=
  { r with value := { r.value with createdAt := some (r.value.createdAt.getD "") } }

theorem dated_eq {r : Stored OutgoingCommand} (h : r.value.createdAt.isSome) : dated r = r := by
  obtain ⟨t, ht⟩ := Option.isSome_iff_exists.mp h
  obtain ⟨key, rowScope, value, pending, message, history⟩ := r
  obtain ⟨command, accepted, createdAt⟩ := value
  subst ht
  rfl

/-- The row that `putOutgoing` writes over a rejected row with its own command. -/
theorem indexedOutgoing_dated (h : OutgoingStore created db) {r : Stored OutgoingCommand}
    (hr : r ∈ db.outgoing) (hscope : r.scope = scopeKey scope) (hnone : r.value.accepted = none) :
    indexedOutgoing (record (scopeKey scope) r.value.command.client_message_id
      ⟨r.value.command, none, some (r.value.createdAt.getD "")⟩) = dated r := by
  have hkey := h.keyed r hr
  have hindexed := h.indexed r hr
  obtain ⟨key, rowScope, value, pending, message, history⟩ := r
  obtain ⟨command, accepted, createdAt⟩ := value
  simp only at hkey hscope hnone
  subst hkey hscope hnone
  simp only [indexedOutgoing, Stored.mk.injEq, true_and] at hindexed
  obtain ⟨hpending, hmessage, hhistory⟩ := hindexed
  subst hpending hmessage hhistory
  cases createdAt <;> rfl

/-- Writing the command of a row again leaves the row, or gives an old row that
has none the `createdAt` it is ordered by. -/
theorem putOutgoing_identical (h : OutgoingStore created db) {id : String}
    {r : Stored OutgoingCommand} (hr : outgoingAt scope id db = some r)
    (replaceRejected : Bool) (now : String) :
    afterTransaction (putOutgoing scope r.value.command replaceRejected now) db = db ∨
      (replaceRejected = true ∧ r.value.accepted = none ∧ r.value.createdAt = none ∧
        afterTransaction (putOutgoing scope r.value.command replaceRejected now) db =
          { db with outgoing := Store.put Stored.key (dated r) db.outgoing }) := by
  obtain ⟨hmem, hscope, hid⟩ := h.outgoingAt_some hr
  have hrow : outgoingAt scope r.value.command.client_message_id db = some r := hid ▸ hr
  unfold afterTransaction putOutgoing
  cases hvalid : validate scope db with
  | error x => exact Or.inl rfl
  | ok u =>
      cases replaceRejected with
      | false => simp [hrow, bind, Except.bind, pure, Except.pure]
      | true =>
          cases haccepted : r.value.accepted with
          | some a => simp [hrow, haccepted, bind, Except.bind, throw, throwThe,
              MonadExceptOf.throw]
          | none =>
              have hput : putOutgoingRow (dated r) db =
                  .ok { db with outgoing := Store.put Stored.key (dated r) db.outgoing } := by
                have hmessage : (dated r).message = none := by
                  rw [← indexedOutgoing_dated h hmem hscope haccepted]
                  rfl
                simp [putOutgoingRow, hmessage]
              simp only [hrow, haccepted, indexedOutgoing_dated h hmem hscope haccepted, hput, bind,
                Except.bind, pure, Except.pure, if_true, Option.isSome_none, ne_eq, not_true,
                if_false, Bool.false_eq_true]
              by_cases hdated : r.value.createdAt.isSome
              · left
                rw [dated_eq hdated, Store.put_of_mem h.ordered hmem]
              · right
                exact ⟨trivial, trivial, Option.not_isSome_iff_eq_none.mp hdated, trivial⟩

/-- A row that is found is found again after a write. -/
theorem OutgoingStore.found_step (h : OutgoingStore created db) {step : InboxStep}
    (hagrees : step.Agrees created) {id : String} {r : Stored OutgoingCommand}
    (hr : outgoingAt scope id db = some r) :
    ∃ w, outgoingAt scope id (step.apply db) = some w ∧ RowContinues r w ∧
      (w.value.command ≠ r.value.command → step.Replaces r w) := by
  obtain ⟨hmem, hkey⟩ := Store.get_some hr
  obtain ⟨w, hw, hcontinues, hreplaces⟩ := (h.change step hagrees).row_of_mem h hmem
  refine ⟨w, ?_, hcontinues, hreplaces⟩
  exact (Store.get_eq_some_iff (h.step hagrees).ordered).mpr ⟨hw, hcontinues.key.trans hkey⟩

/-- A row that is found is found again after any writes. -/
theorem OutgoingStore.found (h : OutgoingStore created db) {steps : List InboxStep}
    (hagrees : ∀ step ∈ steps, step.Agrees created) {id : String} {r : Stored OutgoingCommand}
    (hr : outgoingAt scope id db = some r) :
    ∃ w, outgoingAt scope id (applyWrites steps db) = some w ∧ RowContinues r w := by
  obtain ⟨hmem, hkey⟩ := Store.get_some hr
  obtain ⟨w, hw, hcontinues⟩ := h.continues hagrees hmem
  refine ⟨w, ?_, hcontinues⟩
  exact (Store.get_eq_some_iff (h.steps hagrees).ordered).mpr ⟨hw, hcontinues.key.trans hkey⟩

/-- **Outgoing rows are immutable where it matters.**  From any time of a run
on, the row of a command keeps its place in the history and its acceptance; a
write changes its command only to replace a rejected one, nothing when it puts
the same command again, except for the missing `createdAt` of an old row, and
nothing when it throws. -/
theorem outgoing_rows_are_immutable (hopen : Opened db)
    (hkeyed : ∀ r ∈ db.outgoing, r.key = recordKey r.scope r.value.command.client_message_id)
    (hagreed : ∀ r ∈ db.outgoing, ∀ a, r.value.accepted = some a → a.createdAt = created a.id)
    {done rest : List InboxStep} {step : InboxStep}
    (hagrees : ∀ s ∈ done ++ step :: rest, s.Agrees created) {id : String}
    {r : Stored OutgoingCommand} (hr : outgoingAt scope id (applyWrites done db) = some r) :
    (∃ w, outgoingAt scope id (applyWrites (done ++ step :: rest) db) = some w ∧
      w.history = r.history ∧ (r.value.accepted.isSome → w.value.accepted.isSome)) ∧
    (∃ w, outgoingAt scope id (step.apply (applyWrites done db)) = some w ∧
      (w.value.command ≠ r.value.command → step.Replaces r w)) ∧
    (∀ replaceRejected now,
      step = .putOutgoing scope r.value.command replaceRejected now →
        step.apply (applyWrites done db) = applyWrites done db ∨
        (replaceRejected = true ∧ r.value.accepted = none ∧ r.value.createdAt = none ∧
          step.apply (applyWrites done db) =
            { applyWrites done db with
              outgoing := Store.put Stored.key (dated r) (applyWrites done db).outgoing })) ∧
    (step.Throws (applyWrites done db) →
      step.apply (applyWrites done db) = applyWrites done db) := by
  have hdone : OutgoingStore created (applyWrites done db) :=
    (OutgoingStore.opened hopen hkeyed hagreed).steps
      fun s hs => hagrees s (List.mem_append_left _ hs)
  have hlater : ∀ s ∈ step :: rest, s.Agrees created :=
    fun s hs => hagrees s (List.mem_append_right _ hs)
  refine ⟨?_, ?_, ?_, InboxStep.apply_of_throws⟩
  · obtain ⟨w, hw, hcontinues⟩ := hdone.found hlater hr
    rw [applyWrites, List.foldl_append]
    exact ⟨w, hw, hcontinues.history, hcontinues.accepted⟩
  · obtain ⟨w, hw, -, hreplaces⟩ := hdone.found_step (hlater step List.mem_cons_self) hr
    exact ⟨w, hw, hreplaces⟩
  · rintro replaceRejected now rfl
    exact putOutgoing_identical hdone hr replaceRejected now

/-! ### An inbox with an old row -/

/-- A command stored before rows had a `createdAt`. -/
def legacyInbox : Database where
  identity := some ⟨"a1000000-0000-4000-8000-000000000001", "Phone", "g1"⟩
  outgoing := [indexedOutgoing (record (scopeKey sentScope) "k1" ⟨⟨"c1", "k1", []⟩, none, none⟩)]

theorem migrateSchema_legacyInbox : migrateSchema legacyInbox = .ok legacyInbox := by
  have hunique : uniqueMessages legacyInbox.outgoing := by
    intro r hr s hs _ _
    rw [List.mem_singleton.mp hr, List.mem_singleton.mp hs]
  have hrow : putOutgoingRow (indexedOutgoing (record (scopeKey sentScope) "k1"
      ⟨⟨"c1", "k1", []⟩, none, none⟩)) legacyInbox = .ok legacyInbox := by
    unfold putOutgoingRow
    rw [if_neg (by simp [indexedOutgoing, record])]
    have hself : Store.put Stored.key (indexedOutgoing (record (scopeKey sentScope) "k1"
        ⟨⟨"c1", "k1", []⟩, none, none⟩)) legacyInbox.outgoing = legacyInbox.outgoing :=
      Store.put_of_mem (List.pairwise_singleton _ _) (List.mem_singleton_self _)
    rw [hself]
  rw [migrateSchema, if_pos hunique]
  exact hrow

theorem opened_legacyInbox : Opened legacyInbox := by
  have hordered : Store.Ordered Stored.key legacyInbox.outgoing := List.pairwise_singleton _ _
  exact .upgraded hordered migrateSchema_legacyInbox

/-- The server stored every message at the same time. -/
def sentOnce (_ : String) : String :=
  "2026-01-01T00:00:00Z"

theorem outgoing_rows_are_immutable_legacy :
    ∃ r w, outgoingAt sentScope "k1"
        (applyWrites [.acceptOutgoing sentScope (sentSnapshot none)] legacyInbox) = some r ∧
      outgoingAt sentScope "k1" (applyWrites
        ([.acceptOutgoing sentScope (sentSnapshot none)] ++
          .putOutgoing sentScope ⟨"c1", "k1", []⟩ false "2026-01-02T00:00:00.000Z" ::
          [.mergeSentMetadata sentScope (sentSnapshot none)]) legacyInbox) = some w ∧
      w.history = r.history ∧ (r.value.accepted.isSome → w.value.accepted.isSome) := by
  obtain ⟨r, hr⟩ : ∃ r, outgoingAt sentScope "k1"
      (applyWrites [.acceptOutgoing sentScope (sentSnapshot none)] legacyInbox) = some r := by
    rw [← Option.isSome_iff_exists]
    decide
  have hkeyed : ∀ r ∈ legacyInbox.outgoing,
      r.key = recordKey r.scope r.value.command.client_message_id := by
    intro r hr
    rw [List.mem_singleton.mp hr]
    rfl
  have hagreed : ∀ r ∈ legacyInbox.outgoing, ∀ a, r.value.accepted = some a →
      a.createdAt = sentOnce a.id := by
    intro r hr a ha
    rw [List.mem_singleton.mp hr] at ha
    cases ha
  have hagrees : ∀ s ∈ [InboxStep.acceptOutgoing sentScope (sentSnapshot none)] ++
      .putOutgoing sentScope ⟨"c1", "k1", []⟩ false "2026-01-02T00:00:00.000Z" ::
        [.mergeSentMetadata sentScope (sentSnapshot none)], s.Agrees sentOnce := by
    simp [InboxStep.Agrees, sentSnapshot, sentOnce]
  obtain ⟨⟨w, hw, hhistory, haccepted⟩, -⟩ :=
    outgoing_rows_are_immutable opened_legacyInbox hkeyed hagreed hagrees hr
  exact ⟨r, w, hr, hw, hhistory, haccepted⟩

/-- The command of the old row is put again in place of the rejected one. -/
theorem putOutgoing_dates_legacy_row :
    Opened legacyInbox ∧
      (outgoingAt sentScope "k1" legacyInbox).map (·.value.command) = some ⟨"c1", "k1", []⟩ ∧
      ¬ InboxStep.Throws legacyInbox
        (.putOutgoing sentScope ⟨"c1", "k1", []⟩ true "2026-01-02T00:00:00.000Z") ∧
      outgoingAt sentScope "k1" (InboxStep.apply
          (.putOutgoing sentScope ⟨"c1", "k1", []⟩ true "2026-01-02T00:00:00.000Z") legacyInbox) ≠
        outgoingAt sentScope "k1" legacyInbox := by
  have hrow : (outgoingAt sentScope "k1" (InboxStep.apply
      (.putOutgoing sentScope ⟨"c1", "k1", []⟩ true "2026-01-02T00:00:00.000Z")
      legacyInbox)).map (·.value.createdAt) = some (some "") := by
    decide
  have hlegacy : (outgoingAt sentScope "k1" legacyInbox).map (·.value.createdAt) = some none := by
    decide
  have hne : outgoingAt sentScope "k1" (InboxStep.apply
      (.putOutgoing sentScope ⟨"c1", "k1", []⟩ true "2026-01-02T00:00:00.000Z") legacyInbox) ≠
      outgoingAt sentScope "k1" legacyInbox := by
    intro heq
    rw [heq, hlegacy] at hrow
    cases hrow
  refine ⟨opened_legacyInbox, by decide, ?_, hne⟩
  -- a transaction that throws would have left the row
  intro hthrows
  exact hne (congrArg (outgoingAt sentScope "k1") (InboxStep.apply_of_throws hthrows))

end Rows

end Client
end SecureMessenger
