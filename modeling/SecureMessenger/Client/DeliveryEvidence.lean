import SecureMessenger.Client.CommitPage

/-!
# Delivery evidence of outgoing commands

Evidence that an envelope was delivered lives in three stores: the accepted
copy of the outgoing command, the parked receipts and the sent metadata.
`acceptOutgoing`, `applyDeliveryReceipt` and `mergeSentMetadata` merge them.

The first two never lose evidence.  `mergeSentMetadata` looks at the accepted
copy only if the stored metadata has no entry for the envelope, so stored
metadata that is older than the accepted copy takes evidence back.  `Outdated`
names exactly that situation.
-/

namespace SecureMessenger
namespace Client

open Lib

/-- Identity of an envelope: what all snapshots of a message agree on. -/
structure Slot where
  id : String
  recipient_device_id : String
  recipient_user_id : Option String
deriving DecidableEq

/-- The slot of an envelope. -/
def slotOf (e : MessageEnvelope) : Slot :=
  ⟨e.id, e.recipient_device_id, e.recipient_user_id⟩

/-- The messages of a sender: the id behind each client message id of the
device, and the envelopes of each message, with distinct ids. -/
structure Catalogue where
  messageId : String → String
  slots : String → List Slot
  nodup : ∀ id, ((slots id).map Slot.id).Nodup

/-- One operation on the delivery evidence. -/
inductive EvidenceStep
  | acceptOutgoing (message : SentMessage)
  | applyDeliveryReceipt (receipt : MessageEnvelope)
  | mergeSentMetadata (message : SentMessage)

/-- The database after a transaction; a failed one changes nothing. -/
def afterTransaction {α : Type} (tx : Transaction α) (db : Database) : Database :=
  match tx db with
  | .ok (_, db') => db'
  | .error _ => db

section Steps

variable (scope : InboxScope)

/-- Apply one operation. -/
def EvidenceStep.apply : EvidenceStep → Database → Database
  | .acceptOutgoing message => afterTransaction (Client.acceptOutgoing scope message)
  | .applyDeliveryReceipt receipt =>
      afterTransaction (Client.applyDeliveryReceipt scope receipt)
  | .mergeSentMetadata message => afterTransaction (Client.mergeSentMetadata scope message)

/-- Apply a sequence of operations. -/
def applySteps (steps : List EvidenceStep) (db : Database) : Database :=
  steps.foldl (fun db step => step.apply scope db) db

/-- The accepted copy of command `c` stores envelope `e` as delivered. -/
def deliveredIn (c e : String) (db : Database) : Bool :=
  match outgoingAt scope c db with
  | none => false
  | some row =>
      match row.value.accepted with
      | none => false
      | some accepted =>
          accepted.envelopes.any fun x => decide (x.id = e) && x.delivered_at.isSome

/-- `deliveryState` of the row of command `c`. -/
def rowStatus (c : String) (db : Database) : Option DeliveryStatus :=
  (outgoingAt scope c db).map fun row => (deliveryState row.value.accepted).1

/-- The snapshot is one of a message of the catalogue. -/
structure Snapshot (cat : Catalogue) (message : SentMessage) : Prop where
  id_eq : message.senderDeviceId = scope.deviceId →
    message.id = cat.messageId message.clientMessageId
  slots_eq : message.envelopes.map slotOf = cat.slots message.id
  message_id : ∀ e ∈ message.envelopes, e.message_id = message.id

/-- All snapshots and receipts agree with the catalogue. -/
def EvidenceStep.Agrees (cat : Catalogue) : EvidenceStep → Prop
  | .acceptOutgoing message => Snapshot scope cat message
  | .applyDeliveryReceipt receipt => slotOf receipt ∈ cat.slots receipt.message_id
  | .mergeSentMetadata message => Snapshot scope cat message

/-- The parked receipt proves the delivery of `e`. -/
def parkedDelivery (e : MessageEnvelope) (db : Database) : Bool :=
  match receiptAt scope e.id db.receipts with
  | none => false
  | some receipt =>
      decide (receipt.message_id = e.message_id) &&
        decide (receipt.recipient_device_id = e.recipient_device_id) &&
        receipt.delivered_at.isSome

/-- `mergeSentMetadata` of `message` would take evidence back: for some
envelope the accepted copy has evidence, while the stored metadata has an
entry without it, and neither the snapshot nor a parked receipt brings it. -/
def Outdated (message : SentMessage) (db : Database) : Prop :=
  ∃ row ∈ outgoingByMessage scope message.id db,
    ∃ accepted ∈ row.value.accepted,
      ∃ stored ∈ metadataAt scope message.id db,
        ∃ e ∈ message.envelopes, ∃ x ∈ accepted.envelopes,
          x.id = e.id ∧ x.delivered_at.isSome ∧ e.delivered_at = none ∧
            (∃ y ∈ stored.value.envelopes.find? (fun item => decide (item.id = e.id)),
              y.delivered_at = none) ∧
            parkedDelivery scope e db = false

/-- The condition on one step. -/
def EvidenceStep.Current : EvidenceStep → Database → Prop
  | .mergeSentMetadata message, db => ¬Outdated scope message db
  | _, _ => True

/-- All steps of a run agree with the catalogue and meet the condition in the
state before them. -/
def CurrentRun (cat : Catalogue) : List EvidenceStep → Database → Prop
  | [], _ => True
  | step :: rest, db =>
      step.Agrees scope cat ∧ step.Current scope db ∧
        CurrentRun cat rest (step.apply scope db)

/-- The outgoing rows are well formed and their accepted copies are snapshots
of the catalogue. -/
structure Consistent (cat : Catalogue) (db : Database) : Prop where
  ordered : Store.Ordered Stored.key db.outgoing
  keyed : ∀ r ∈ db.outgoing, r.key = recordKey r.scope r.value.command.client_message_id
  indexed : ∀ r ∈ db.outgoing, r.message = r.value.accepted.map fun a => [r.scope, a.id]
  accepted : ∀ r ∈ db.outgoing, r.scope = scopeKey scope → ∀ a ∈ r.value.accepted,
    a.id = cat.messageId r.value.command.client_message_id ∧
      a.envelopes.map slotOf = cat.slots a.id ∧ a.senderUserId = scope.userId

end Steps

variable {scope : InboxScope} {cat : Catalogue}

section Lists

variable {es : List MessageEnvelope} {e x : MessageEnvelope}

/-- With distinct ids, `find` finds the envelope. -/
theorem find_of_mem (hnodup : (es.map (·.id)).Nodup) (hx : x ∈ es) :
    es.find? (fun item => decide (item.id = x.id)) = some x := by
  induction es with
  | nil => cases hx
  | cons y rest ih =>
      rw [List.map_cons, List.nodup_cons] at hnodup
      rcases List.mem_cons.mp hx with rfl | hx
      · simp
      · have hne : y.id ≠ x.id := by
          intro heq
          exact hnodup.1 (heq ▸ List.mem_map_of_mem hx)
        simpa [hne] using ih hnodup.2 hx

theorem map_slotOf_id (es : List MessageEnvelope) :
    (es.map slotOf).map Slot.id = es.map (·.id) := by
  simp [slotOf, Function.comp_def]

theorem nodup_of_slots {id : String} (h : es.map slotOf = cat.slots id) :
    (es.map (·.id)).Nodup := by
  rw [← map_slotOf_id, h]
  exact cat.nodup id

/-- Two copies of a message hold the same slots. -/
theorem exists_slot {fs : List MessageEnvelope} (h : es.map slotOf = fs.map slotOf)
    (hx : x ∈ es) : ∃ y ∈ fs, slotOf y = slotOf x := by
  have hmem : slotOf x ∈ fs.map slotOf := h ▸ List.mem_map_of_mem hx
  simpa using hmem

theorem delivered_mergeReceipt {receipt : Option MessageEnvelope}
    (h : e.delivered_at.isSome) : (mergeReceipt e receipt).delivered_at.isSome := by
  unfold mergeReceipt
  cases receipt with
  | none => exact h
  | some r =>
      simp only
      split_ifs
      · exact h
      · simp [Option.isSome_or, h]

theorem slotOf_mergeReceipt (e : MessageEnvelope) (receipt : Option MessageEnvelope) :
    slotOf (mergeReceipt e receipt) = slotOf e := by
  unfold mergeReceipt
  cases receipt with
  | none => rfl
  | some r =>
      simp only
      split_ifs <;> rfl

theorem delivered_applyReceipt {receipt : MessageEnvelope} (h : e.delivered_at.isSome) :
    (applyReceipt receipt e).delivered_at.isSome := by
  unfold applyReceipt
  split_ifs
  · exact delivered_mergeReceipt h
  · exact h

theorem slotOf_applyReceipt (receipt e : MessageEnvelope) :
    slotOf (applyReceipt receipt e) = slotOf e := by
  unfold applyReceipt
  split_ifs
  · exact slotOf_mergeReceipt e _
  · rfl

end Lists

section Accept

variable {prior : Option SentMessage} {receipts : List (Stored MessageEnvelope)}
  {es : List MessageEnvelope}

theorem slotOf_acceptEnvelopes :
    (acceptEnvelopes scope prior es receipts).1.map slotOf = es.map slotOf := by
  induction es generalizing receipts with
  | nil => rfl
  | cons e rest ih =>
      rw [acceptEnvelopes, List.map_cons, List.map_cons, ih, slotOf_mergeReceipt]
      rfl

/-- An acceptance keeps the evidence of the previous one. -/
theorem delivered_acceptEnvelopes {p : SentMessage} {e x : MessageEnvelope}
    (hp : prior = some p) (he : e ∈ es)
    (hx : p.envelopes.find? (fun item => decide (item.id = e.id)) = some x)
    (hd : x.delivered_at.isSome) :
    ∃ y ∈ (acceptEnvelopes scope prior es receipts).1, y.id = e.id ∧ y.delivered_at.isSome := by
  induction es generalizing receipts with
  | nil => cases he
  | cons e' rest ih =>
      rw [acceptEnvelopes]
      rcases List.mem_cons.mp he with rfl | he
      · refine ⟨_, List.mem_cons_self, ?_, delivered_mergeReceipt ?_⟩
        · exact congrArg Slot.id (slotOf_mergeReceipt _ _)
        · simp [mergeDeliveryMetadata, hp, hx, Option.isSome_or, hd]
      · obtain ⟨y, hy, hyid⟩ := @ih _ he
        exact ⟨y, List.mem_cons_of_mem _ hy, hyid⟩

end Accept

/-- The row `entry` with a new accepted copy. -/
def withAccepted (entry : Stored OutgoingCommand) (createdAt : Option String)
    (a : SentMessage) : Stored OutgoingCommand :=
  indexedOutgoing { entry with
    value := { entry.value with accepted := some a, createdAt := createdAt } }

/-- What an operation does to the outgoing rows: nothing, or it writes the
accepted copy of one row, with all the evidence of the previous copy. -/
inductive Advance (scope : InboxScope) (cat : Catalogue) (db db' : Database) : Prop
  | same (hout : db'.outgoing = db.outgoing)
  | row {entry : Stored OutgoingCommand} {createdAt : Option String} {a : SentMessage}
      (hmem : entry ∈ db.outgoing) (hscope : entry.scope = scopeKey scope)
      (hout : db'.outgoing = Store.put Stored.key (withAccepted entry createdAt a) db.outgoing)
      (hid : a.id = cat.messageId entry.value.command.client_message_id)
      (hslots : a.envelopes.map slotOf = cat.slots a.id)
      (hsender : a.senderUserId = scope.userId)
      (hkeep : ∀ b ∈ entry.value.accepted, ∀ x ∈ b.envelopes, x.delivered_at.isSome →
        ∃ y ∈ a.envelopes, y.id = x.id ∧ y.delivered_at.isSome)

section Operations

variable {db db' : Database}

theorem putOutgoingRow_ok {entry : Stored OutgoingCommand}
    (h : putOutgoingRow entry db = .ok db') :
    db' = { db with outgoing := Store.put Stored.key entry db.outgoing } := by
  unfold putOutgoingRow at h
  split_ifs at h
  exact (Except.ok.inj h).symm

theorem outgoingAt_some (hdb : Consistent scope cat db) {c : String}
    {row : Stored OutgoingCommand} (h : outgoingAt scope c db = some row) :
    row ∈ db.outgoing ∧ row.scope = scopeKey scope ∧
      row.value.command.client_message_id = c := by
  obtain ⟨hmem, hkey⟩ := Store.get_some h
  rw [hdb.keyed row hmem, recordKey_inj] at hkey
  exact ⟨hmem, hkey⟩

theorem outgoingByMessage_some (hdb : Consistent scope cat db) {id : String}
    {row : Stored OutgoingCommand} (h : outgoingByMessage scope id db = some row) :
    row ∈ db.outgoing ∧ row.scope = scopeKey scope ∧
      ∃ a ∈ row.value.accepted, a.id = id := by
  have hmem := List.mem_of_find?_eq_some h
  have hindex := List.find?_some h
  rw [decide_eq_true_eq, hdb.indexed row hmem, Option.map_eq_some_iff] at hindex
  obtain ⟨a, ha, heq⟩ := hindex
  simp only [List.cons.injEq, and_true] at heq
  exact ⟨hmem, heq.1, a, ha, heq.2⟩

theorem advance_acceptOutgoing (hdb : Consistent scope cat db) {message : SentMessage}
    {value : OutgoingCommand} (hm : Snapshot scope cat message)
    (h : acceptOutgoing scope message db = .ok (value, db')) :
    Advance scope cat db db' := by
  obtain ⟨_, -, h⟩ := ok_of_bind h
  split_ifs at h with hsender
  · cases h
  · simp only [not_or, not_not] at hsender
    cases hrow : outgoingAt scope message.clientMessageId db with
    | none => simp [hrow] at h
    | some row =>
        simp only [hrow] at h
        split_ifs at h with hchat
        · cases h
        · obtain ⟨db₁, hput, h⟩ := ok_of_bind h
          simp only [pure, Except.pure, Except.ok.injEq, Prod.mk.injEq] at h
          obtain ⟨hmem, hscope, hclient⟩ := outgoingAt_some hdb hrow
          have hid : message.id = cat.messageId row.value.command.client_message_id := by
            rw [hclient]
            exact hm.id_eq hsender.1
          have hout := putOutgoingRow_ok hput
          rw [h.2] at hout
          refine .row hmem hscope (congrArg Database.outgoing hout) hid ?_ hsender.2 ?_
          · rw [slotOf_acceptEnvelopes]
            exact hm.slots_eq
          · intro b hb x hx hd
            obtain ⟨hbid, hbslots, -⟩ := hdb.accepted row hmem hscope b hb
            have hsame : b.envelopes.map slotOf = message.envelopes.map slotOf := by
              rw [hbslots, hm.slots_eq, hbid, hid]
            obtain ⟨e, he, hslot⟩ := exists_slot hsame hx
            have hxe : e.id = x.id := congrArg Slot.id hslot
            have hfind := find_of_mem (nodup_of_slots hbslots) hx
            rw [← hxe] at hfind ⊢
            exact delivered_acceptEnvelopes hb he hfind hd

theorem advance_applyDeliveryReceipt (hdb : Consistent scope cat db)
    {receipt : MessageEnvelope} {value : Option OutgoingCommand}
    (h : applyDeliveryReceipt scope receipt db = .ok (value, db')) :
    Advance scope cat db db' := by
  unfold applyDeliveryReceipt at h
  split_ifs at h with hnone
  · cases h
  · obtain ⟨_, -, h⟩ := ok_of_bind h
    -- the metadata is written first and the outgoing rows are as they were
    have hmeta : (applyReceiptToMetadata scope receipt db).outgoing = db.outgoing := by
      unfold applyReceiptToMetadata
      cases metadataAt scope receipt.message_id db <;> rfl
    have hby : outgoingByMessage scope receipt.message_id
        (applyReceiptToMetadata scope receipt db) =
          outgoingByMessage scope receipt.message_id db := by
      unfold outgoingByMessage
      rw [hmeta]
    simp only [hby] at h
    cases hrow : outgoingByMessage scope receipt.message_id db with
    | none =>
        simp only [hrow, pure, Except.pure, Except.ok.injEq, Prod.mk.injEq] at h
        exact .same (by rw [← h.2]; exact hmeta)
    | some row =>
        obtain ⟨hmem, hscope, a, ha, -⟩ := outgoingByMessage_some hdb hrow
        rw [Option.mem_def] at ha
        obtain ⟨haid, haslots, hasender⟩ := hdb.accepted row hmem hscope a ha
        simp only [hrow, ha] at h
        split_ifs at h with hsame
        · simp only [pure, Except.pure, Except.ok.injEq, Prod.mk.injEq] at h
          exact .same (by rw [← h.2]; exact hmeta)
        · obtain ⟨db₁, hput, h⟩ := ok_of_bind h
          simp only [pure, Except.pure, Except.ok.injEq, Prod.mk.injEq] at h
          have hout := congrArg Database.outgoing (putOutgoingRow_ok hput)
          simp only [h.2, hmeta] at hout
          refine .row hmem hscope hout haid ?_ hasender ?_
          · rw [← haslots, List.map_map]
            exact List.map_congr_left fun x _ => slotOf_applyReceipt receipt x
          · intro b hb x hx hd
            obtain rfl : a = b := Option.some.inj (ha.symm.trans hb)
            refine ⟨_, List.mem_map_of_mem hx, ?_, delivered_applyReceipt hd⟩
            exact congrArg Slot.id (slotOf_applyReceipt receipt x)

theorem slotOf_mergeSentEnvelope (prior accepted : Option SentMessage)
    (receipts : List (Stored MessageEnvelope)) (e : MessageEnvelope) :
    slotOf (mergeSentEnvelope scope prior accepted receipts e) = slotOf e :=
  slotOf_mergeReceipt (mergeDeliveryMetadata e _) _

/-- When the merged envelope is delivered: the snapshot says so, or the stored
metadata does, or there is no stored metadata for it and the accepted copy
does, or a parked receipt does. -/
theorem delivered_mergeSentEnvelope {prior accepted : Option SentMessage}
    {e : MessageEnvelope} :
    (mergeSentEnvelope scope prior accepted db.receipts e).delivered_at.isSome ↔
      e.delivered_at.isSome ∨
      (∃ y ∈ (prior.bind fun m => m.envelopes.find? fun item => decide (item.id = e.id)).or
          (accepted.bind fun m => m.envelopes.find? fun item => decide (item.id = e.id)),
        y.delivered_at.isSome) ∨
      parkedDelivery scope e db = true := by
  unfold mergeSentEnvelope parkedDelivery mergeReceipt
  simp only
  generalize (prior.bind fun m => m.envelopes.find? fun item => decide (item.id = e.id)).or
    (accepted.bind fun m => m.envelopes.find? fun item => decide (item.id = e.id)) = previous
  cases receiptAt scope e.id db.receipts with
  | none => cases previous <;> simp [mergeDeliveryMetadata, Option.isSome_or]
  | some r =>
      by_cases hbad : r.message_id ≠ e.message_id ∨
          r.recipient_device_id ≠ e.recipient_device_id
      · have hno : ¬(r.message_id = e.message_id ∧
            r.recipient_device_id = e.recipient_device_id) := by tauto
        cases previous <;>
          simp [mergeDeliveryMetadata, Option.isSome_or, hbad, hno]
      · obtain ⟨h₁, h₂⟩ : r.message_id = e.message_id ∧
            r.recipient_device_id = e.recipient_device_id := by tauto
        cases previous <;>
          simp [mergeDeliveryMetadata, Option.isSome_or, h₁, h₂, or_assoc]

/-- Without outdated metadata the merged envelope keeps the evidence of the
accepted copy. -/
theorem delivered_of_not_outdated {message a : SentMessage} {row : Stored OutgoingCommand}
    {e x : MessageEnvelope} (hcur : ¬Outdated scope message db)
    (hrow : outgoingByMessage scope message.id db = some row)
    (ha : row.value.accepted = some a) (he : e ∈ message.envelopes) (hx : x ∈ a.envelopes)
    (hid : x.id = e.id) (hd : x.delivered_at.isSome)
    (hfind : a.envelopes.find? (fun item => decide (item.id = e.id)) = some x) :
    (mergeSentEnvelope scope ((metadataAt scope message.id db).map Stored.value)
      row.value.accepted db.receipts e).delivered_at.isSome := by
  rw [delivered_mergeSentEnvelope]
  by_contra hno
  simp only [not_or, Bool.not_eq_true, ha, Option.bind_some, hfind] at hno
  obtain ⟨hsnapshot, hprevious, hparked⟩ := hno
  cases hmeta : metadataAt scope message.id db with
  | none =>
      simp only [hmeta, Option.map_none, Option.bind_none, Option.none_or] at hprevious
      exact hprevious ⟨x, rfl, hd⟩
  | some stored =>
      simp only [hmeta, Option.map_some, Option.bind_some] at hprevious
      cases hy : stored.value.envelopes.find? (fun item => decide (item.id = e.id)) with
      | none =>
          simp only [hy, Option.none_or] at hprevious
          exact hprevious ⟨x, rfl, hd⟩
      | some y =>
          simp only [hy, Option.some_or] at hprevious
          have hyd : y.delivered_at = none := by
            by_contra hne
            exact hprevious ⟨y, rfl, Option.isSome_iff_ne_none.mpr hne⟩
          exact hcur ⟨row, hrow, a, ha, stored, hmeta, e, he, x, hx, hid, hd,
            by simpa using hsnapshot, ⟨y, hy, hyd⟩, hparked⟩

/-- Inversion of a successful `mergeSentMetadata`. -/
theorem mergeSentMetadata_ok {message value : SentMessage}
    (h : mergeSentMetadata scope message db = .ok (value, db')) :
    message.senderUserId = scope.userId ∧
      value = { message with
        envelopes := message.envelopes.map (mergeSentEnvelope scope
          ((metadataAt scope message.id db).map Stored.value)
          ((outgoingByMessage scope message.id db).bind (·.value.accepted)) db.receipts) } ∧
      ((outgoingByMessage scope message.id db = none ∧ db'.outgoing = db.outgoing) ∨
        ∃ row, outgoingByMessage scope message.id db = some row ∧
          db'.outgoing =
            Store.put Stored.key (withAccepted row row.value.createdAt value) db.outgoing) := by
  unfold mergeSentMetadata at h
  obtain ⟨_, -, h⟩ := ok_of_bind h
  split_ifs at h with hsender
  · cases h
  · refine ⟨not_not.mp hsender, ?_⟩
    simp only at h
    cases hrow : outgoingByMessage scope message.id db with
    | none =>
        simp only [hrow, pure, Except.pure, Except.ok.injEq, Prod.mk.injEq] at h
        refine ⟨h.1.symm, Or.inl ⟨rfl, ?_⟩⟩
        rw [← h.2]
        rfl
    | some row =>
        simp only [hrow] at h
        obtain ⟨db₁, hput, h⟩ := ok_of_bind h
        simp only [pure, Except.pure, Except.ok.injEq, Prod.mk.injEq] at h
        refine ⟨h.1.symm, Or.inr ⟨row, rfl, ?_⟩⟩
        rw [← h.2, putOutgoingRow_ok hput, ← h.1]
        rfl

theorem advance_mergeSentMetadata (hdb : Consistent scope cat db) {message value : SentMessage}
    (hm : Snapshot scope cat message) (hcur : ¬Outdated scope message db)
    (h : mergeSentMetadata scope message db = .ok (value, db')) :
    Advance scope cat db db' := by
  obtain ⟨hsender, hvalue, hout⟩ := mergeSentMetadata_ok h
  rcases hout with ⟨-, hout⟩ | ⟨row, hrow, hout⟩
  · exact .same hout
  · obtain ⟨hmem, hscope, a, ha, haid⟩ := outgoingByMessage_some hdb hrow
    rw [Option.mem_def] at ha
    obtain ⟨hid, hslots, -⟩ := hdb.accepted row hmem hscope a ha
    rw [hrow, Option.bind_some] at hvalue
    subst hvalue
    refine .row hmem hscope hout (haid ▸ hid) ?_ hsender ?_
    · simp only [List.map_map]
      rw [← hm.slots_eq]
      exact List.map_congr_left fun e _ => slotOf_mergeSentEnvelope _ _ _ e
    · intro b hb x hx hd
      obtain rfl : a = b := Option.some.inj (ha.symm.trans hb)
      have hsame : a.envelopes.map slotOf = message.envelopes.map slotOf := by
        rw [hslots, hm.slots_eq, haid]
      obtain ⟨e, he, hslot⟩ := exists_slot hsame hx
      have hxe : e.id = x.id := congrArg Slot.id hslot
      have hfind := find_of_mem (nodup_of_slots hslots) hx
      rw [← hxe] at hfind ⊢
      refine ⟨_, List.mem_map_of_mem he, ?_,
        delivered_of_not_outdated hcur hrow ha he hx hxe.symm hd hfind⟩
      exact congrArg Slot.id (slotOf_mergeSentEnvelope _ _ _ e)

/-- One step of a run that meets the condition. -/
theorem advance_step (hdb : Consistent scope cat db) {step : EvidenceStep}
    (hm : step.Agrees scope cat) (hcur : step.Current scope db) :
    Advance scope cat db (step.apply scope db) := by
  cases step with
  | acceptOutgoing message =>
      simp only [EvidenceStep.apply, afterTransaction]
      cases h : acceptOutgoing scope message db with
      | error x => exact .same rfl
      | ok r => exact advance_acceptOutgoing hdb hm h
  | applyDeliveryReceipt receipt =>
      simp only [EvidenceStep.apply, afterTransaction]
      cases h : applyDeliveryReceipt scope receipt db with
      | error x => exact .same rfl
      | ok r => exact advance_applyDeliveryReceipt hdb h
  | mergeSentMetadata message =>
      simp only [EvidenceStep.apply, afterTransaction]
      cases h : mergeSentMetadata scope message db with
      | error x => exact .same rfl
      | ok r => exact advance_mergeSentMetadata hdb hm hcur h

end Operations

section Advances

variable {db db' : Database}

theorem Advance.consistent (h : Advance scope cat db db') (hdb : Consistent scope cat db) :
    Consistent scope cat db' := by
  cases h with
  | same hout =>
      obtain ⟨h₁, h₂, h₃, h₄⟩ := hdb
      exact ⟨hout ▸ h₁, hout ▸ h₂, hout ▸ h₃, hout ▸ h₄⟩
  | @row entry createdAt a hmem hscope hout hid hslots hsender _ =>
      refine ⟨?_, ?_, ?_, ?_⟩
      · rw [hout]
        exact Store.ordered_put hdb.ordered
      · rw [hout]
        intro r hr
        rcases Store.mem_put hr with rfl | hr
        · exact hdb.keyed entry hmem
        · exact hdb.keyed r hr
      · rw [hout]
        intro r hr
        rcases Store.mem_put hr with rfl | hr
        · rfl
        · exact hdb.indexed r hr
      · rw [hout]
        intro r hr hrs
        rcases Store.mem_put hr with rfl | hr
        · rintro b hb
          obtain rfl := Option.some.inj hb
          exact ⟨hid, hslots, hsender⟩
        · exact hdb.accepted r hr hrs

/-- The accepted copy of a command after a step: the same slots with at least
the evidence of the copy before. -/
theorem Advance.outgoingAt (h : Advance scope cat db db') (hdb : Consistent scope cat db)
    {c : String} {row : Stored OutgoingCommand} {a : SentMessage}
    (hrow : outgoingAt scope c db = some row) (ha : row.value.accepted = some a) :
    ∃ row' a', Client.outgoingAt scope c db' = some row' ∧ row'.value.accepted = some a' ∧
      ∀ x ∈ a.envelopes, x.delivered_at.isSome →
        ∃ y ∈ a'.envelopes, y.id = x.id ∧ y.delivered_at.isSome := by
  have hself : ∀ x ∈ a.envelopes, x.delivered_at.isSome →
      ∃ y ∈ a.envelopes, y.id = x.id ∧ y.delivered_at.isSome :=
    fun x hx hd => ⟨x, hx, rfl, hd⟩
  cases h with
  | same hout =>
      refine ⟨row, a, ?_, ha, hself⟩
      rw [← hrow]
      unfold Client.outgoingAt
      rw [hout]
  | @row entry createdAt a' hmem hscope hout hid hslots hsender hkeep =>
      by_cases hkey : entry.key = recordKey (scopeKey scope) c
      · have hentry : row = entry := by
          have := Store.get_of_mem hdb.ordered hmem
          rw [hkey] at this
          exact Option.some.inj (hrow.symm.trans this)
        subst hentry
        refine ⟨withAccepted row createdAt a', a', ?_, rfl, hkeep a ha⟩
        unfold Client.outgoingAt
        rw [hout, ← hkey]
        exact Store.get_put_self (withAccepted row createdAt a') _
      · refine ⟨row, a, ?_, ha, hself⟩
        rw [← hrow]
        unfold Client.outgoingAt
        have hne : (withAccepted entry createdAt a').key ≠ recordKey (scopeKey scope) c := hkey
        rw [hout, Store.get_put_of_ne _ hne]

end Advances

section Runs

variable {db db' : Database} {c e : String}

theorem deliveredIn_iff :
    deliveredIn scope c e db = true ↔
      ∃ row a x, outgoingAt scope c db = some row ∧ row.value.accepted = some a ∧
        x ∈ a.envelopes ∧ x.id = e ∧ x.delivered_at.isSome := by
  unfold deliveredIn
  cases hrow : outgoingAt scope c db with
  | none => simp
  | some row =>
      cases ha : row.value.accepted with
      | none => simp [ha]
      | some a => simp [ha]

theorem rowStatus_delivered_iff :
    rowStatus scope c db = some .delivered ↔
      ∃ row a x, outgoingAt scope c db = some row ∧ row.value.accepted = some a ∧
        x ∈ a.envelopes ∧ x.recipient_user_id ≠ some a.senderUserId ∧
        x.delivered_at.isSome := by
  unfold rowStatus
  cases hrow : outgoingAt scope c db with
  | none => simp
  | some row =>
      cases ha : row.value.accepted with
      | none => simp [ha, deliveryState]
      | some a => simp [ha, deliveryState, Option.isSome_iff_ne_none]

theorem Advance.deliveredIn (h : Advance scope cat db db') (hdb : Consistent scope cat db)
    (hd : Client.deliveredIn scope c e db = true) :
    Client.deliveredIn scope c e db' = true := by
  obtain ⟨row, a, x, hrow, ha, hx, hxe, hxd⟩ := deliveredIn_iff.mp hd
  obtain ⟨row', a', hrow', ha', hkeep⟩ := h.outgoingAt hdb hrow ha
  obtain ⟨y, hy, hyx, hyd⟩ := hkeep x hx hxd
  exact deliveredIn_iff.mpr ⟨row', a', y, hrow', ha', hy, hyx.trans hxe, hyd⟩

theorem Advance.rowStatus (h : Advance scope cat db db') (hdb : Consistent scope cat db)
    (hd : Client.rowStatus scope c db = some .delivered) :
    Client.rowStatus scope c db' = some .delivered := by
  obtain ⟨row, a, x, hrow, ha, hx, hxu, hxd⟩ := rowStatus_delivered_iff.mp hd
  obtain ⟨row', a', hrow', ha', hkeep⟩ := h.outgoingAt hdb hrow ha
  obtain ⟨y, hy, hyx, hyd⟩ := hkeep x hx hxd
  refine rowStatus_delivered_iff.mpr ⟨row', a', y, hrow', ha', hy, ?_, hyd⟩
  -- both copies are of one message, so the slot of the envelope is the same
  obtain ⟨hmem, hscope, hc⟩ := outgoingAt_some hdb hrow
  obtain ⟨hid, hslots, hsender⟩ := hdb.accepted row hmem hscope a ha
  have hdb' := h.consistent hdb
  obtain ⟨hmem', hscope', hc'⟩ := outgoingAt_some hdb' hrow'
  obtain ⟨hid', hslots', hsender'⟩ := hdb'.accepted row' hmem' hscope' a' ha'
  have hsame : a.envelopes.map slotOf = a'.envelopes.map slotOf := by
    rw [hslots, hslots', hid, hid', hc, hc']
  obtain ⟨z, hz, hslot⟩ := exists_slot hsame hx
  have hzy : z = y := by
    have hz' := find_of_mem (nodup_of_slots hslots') hz
    have hy' := find_of_mem (nodup_of_slots hslots') hy
    have hzx : z.id = x.id := congrArg Slot.id hslot
    rw [hyx, ← hzx] at hy'
    exact Option.some.inj (hz'.symm.trans hy')
  subst hzy
  have huser : z.recipient_user_id = x.recipient_user_id :=
    congrArg Slot.recipient_user_id hslot
  rw [huser, hsender', ← hsender]
  exact hxu

/-- Any number of steps that meet the condition. -/
theorem CurrentRun.keeps {steps : List EvidenceStep} (hdb : Consistent scope cat db)
    (hrun : CurrentRun scope cat steps db) :
    (deliveredIn scope c e db = true →
        deliveredIn scope c e (applySteps scope steps db) = true) ∧
      (rowStatus scope c db = some .delivered →
        rowStatus scope c (applySteps scope steps db) = some .delivered) := by
  induction steps generalizing db with
  | nil => exact ⟨id, id⟩
  | cons step rest ih =>
      obtain ⟨hagree, hcur, hrest⟩ := hrun
      have hadv := advance_step hdb hagree hcur
      obtain ⟨h₁, h₂⟩ := ih (hadv.consistent hdb) hrest
      exact ⟨fun h => h₁ (hadv.deliveredIn hdb h), fun h => h₂ (hadv.rowStatus hdb h)⟩

theorem CurrentRun.append {steps rest : List EvidenceStep} (hdb : Consistent scope cat db)
    (hrun : CurrentRun scope cat (steps ++ rest) db) :
    Consistent scope cat (applySteps scope steps db) ∧
      CurrentRun scope cat rest (applySteps scope steps db) := by
  induction steps generalizing db with
  | nil => exact ⟨hdb, hrun⟩
  | cons step steps ih =>
      obtain ⟨hagree, hcur, hrest⟩ := hrun
      exact ih ((advance_step hdb hagree hcur).consistent hdb) hrest

/-- **Main result.**  In a run that never merges a snapshot over outdated
metadata, evidence present at some moment is present at every later one, and
no row falls back from `delivered`. -/
theorem delivery_evidence_never_regresses {before after : List EvidenceStep}
    (hdb : Consistent scope cat db)
    (hrun : CurrentRun scope cat (before ++ after) db) (c e : String) :
    (deliveredIn scope c e (applySteps scope before db) = true →
        deliveredIn scope c e (applySteps scope (before ++ after) db) = true) ∧
      (rowStatus scope c (applySteps scope before db) = some .delivered →
        rowStatus scope c (applySteps scope (before ++ after) db) = some .delivered) := by
  obtain ⟨hdb', hrun'⟩ := hrun.append hdb
  have happend : applySteps scope (before ++ after) db =
      applySteps scope after (applySteps scope before db) :=
    List.foldl_append
  rw [happend]
  exact hrun'.keeps hdb'

/-- The condition is exact: a merge over outdated metadata takes evidence
back. -/
theorem outdated_takes_back (hdb : Consistent scope cat db) {message value : SentMessage}
    (hm : Snapshot scope cat message) (hout : Outdated scope message db)
    (h : mergeSentMetadata scope message db = .ok (value, db')) :
    ∃ c e, deliveredIn scope c e db = true ∧ deliveredIn scope c e db' = false := by
  obtain ⟨row, hrow, a, ha, stored, hmeta, e, he, x, hx, hxe, hxd, hed, ⟨y, hy, hyd⟩, hpark⟩ :=
    hout
  rw [Option.mem_def] at hrow ha hmeta hy
  obtain ⟨hmem, hscope, -⟩ := outgoingByMessage_some hdb hrow
  have hkey := hdb.keyed row hmem
  rw [hscope] at hkey
  have hat : outgoingAt scope row.value.command.client_message_id db = some row := by
    unfold outgoingAt
    rw [← hkey]
    exact Store.get_of_mem hdb.ordered hmem
  refine ⟨row.value.command.client_message_id, e.id,
    deliveredIn_iff.mpr ⟨row, a, x, hat, ha, hx, hxe, hxd⟩, ?_⟩
  obtain ⟨-, hvalue, hrest⟩ := mergeSentMetadata_ok h
  rcases hrest with ⟨hnone, -⟩ | ⟨row₁, hrow₁, hput⟩
  · rw [hrow] at hnone
    cases hnone
  · obtain rfl : row = row₁ := Option.some.inj (hrow.symm.trans hrow₁)
    rw [← Bool.not_eq_true, deliveredIn_iff]
    rintro ⟨row', a', z, hrow', ha', hz, hze, hzd⟩
    have hself : outgoingAt scope row.value.command.client_message_id db' =
        some (withAccepted row row.value.createdAt value) := by
      unfold outgoingAt
      rw [hput, ← hkey]
      exact Store.get_put_self (withAccepted row row.value.createdAt value) _
    obtain rfl := Option.some.inj (hself.symm.trans hrow')
    obtain rfl := Option.some.inj (show some value = some a' from ha')
    rw [hvalue, List.mem_map] at hz
    obtain ⟨e', he', rfl⟩ := hz
    -- only the merged copy of `e` has its id, and that copy has no evidence
    have hid : e'.id = e.id :=
      (congrArg Slot.id (slotOf_mergeSentEnvelope _ _ _ e')).symm.trans hze
    have hee : e' = e := by
      have h₁ := find_of_mem (nodup_of_slots hm.slots_eq) he'
      have h₂ := find_of_mem (nodup_of_slots hm.slots_eq) he
      rw [hid] at h₁
      exact Option.some.inj (h₁.symm.trans h₂)
    subst hee
    rw [delivered_mergeSentEnvelope] at hzd
    simp [hed, hmeta, hy, hyd, hpark] at hzd

/-- A device with one stored command, whose message has one envelope. -/
def sentScope : InboxScope :=
  ⟨"alice", "a1000000-0000-4000-8000-000000000001", "g1"⟩

def sentCatalogue : Catalogue where
  messageId := fun _ => "m1"
  slots := fun _ => [⟨"e1", "bob-phone", some "bob"⟩]
  nodup := fun _ => by simp

/-- A snapshot of the message, before or after the delivery. -/
def sentSnapshot (delivered_at : Option Timestamp) : SentMessage where
  id := "m1"
  chatId := "c1"
  chatSeq := some 1
  senderUserId := "alice"
  senderDeviceId := "a1000000-0000-4000-8000-000000000001"
  clientMessageId := "k1"
  createdAt := "2026-01-01T00:00:00Z"
  envelopes := [
    { id := "e1"
      message_id := "m1"
      recipient_device_id := "bob-phone"
      recipient_user_id := some "bob"
      mailbox_seq := .integer 1
      protocol_version := 0
      envelope_type := "plaintext-dev"
      payload := none
      created_at := "2026-01-01T00:00:00Z"
      expires_at := "2026-01-31T00:00:00Z"
      delivered_at := delivered_at
      payload_purged_at := none }]

def deliveryTime : Timestamp :=
  ⟨"2026-01-01T00:00:05Z", by decide⟩

def sentCommand : OutgoingCommand :=
  ⟨⟨"c1", "k1", []⟩, none, some "2026-01-01T00:00:00Z"⟩

def sentInbox : Database where
  identity := some ⟨"a1000000-0000-4000-8000-000000000001", "Phone", "g1"⟩
  outgoing := [indexedOutgoing (record (scopeKey sentScope) "k1" sentCommand)]

theorem consistent_sentInbox : Consistent sentScope sentCatalogue sentInbox := by
  refine ⟨List.pairwise_singleton _ _, ?_, ?_, ?_⟩
  · intro r hr
    obtain rfl := List.mem_singleton.mp hr
    rfl
  · intro r hr
    obtain rfl := List.mem_singleton.mp hr
    rfl
  · intro r hr _ a ha
    obtain rfl := List.mem_singleton.mp hr
    cases ha

theorem snapshot_sentSnapshot (d : Option Timestamp) :
    Snapshot sentScope sentCatalogue (sentSnapshot d) :=
  ⟨fun _ => rfl, rfl, fun e he => by
    obtain rfl := List.mem_singleton.mp he
    rfl⟩

/-- A delivered acceptance between two copies of an older metadata page: the
second copy takes the evidence back. -/
theorem stale_metadata_takes_back :
    Consistent sentScope sentCatalogue sentInbox ∧
      (∀ step ∈ [EvidenceStep.mergeSentMetadata (sentSnapshot none),
          .acceptOutgoing (sentSnapshot (some deliveryTime)),
          .mergeSentMetadata (sentSnapshot none)], step.Agrees sentScope sentCatalogue) ∧
      deliveredIn sentScope "k1" "e1" (applySteps sentScope
        [.mergeSentMetadata (sentSnapshot none),
          .acceptOutgoing (sentSnapshot (some deliveryTime))] sentInbox) = true ∧
      rowStatus sentScope "k1" (applySteps sentScope
        [.mergeSentMetadata (sentSnapshot none),
          .acceptOutgoing (sentSnapshot (some deliveryTime))] sentInbox) =
            some .delivered ∧
      deliveredIn sentScope "k1" "e1" (applySteps sentScope
        [.mergeSentMetadata (sentSnapshot none),
          .acceptOutgoing (sentSnapshot (some deliveryTime)),
          .mergeSentMetadata (sentSnapshot none)] sentInbox) = false ∧
      rowStatus sentScope "k1" (applySteps sentScope
        [.mergeSentMetadata (sentSnapshot none),
          .acceptOutgoing (sentSnapshot (some deliveryTime)),
          .mergeSentMetadata (sentSnapshot none)] sentInbox) = some .accepted := by
  refine ⟨consistent_sentInbox, ?_, by decide, by decide +kernel,
    by decide, by decide +kernel⟩
  intro step hstep
  simp only [List.mem_cons, List.not_mem_nil, or_false] at hstep
  rcases hstep with rfl | rfl | rfl <;> exact snapshot_sentSnapshot _

/-- A run that meets the condition: the metadata page arrives once. -/
theorem currentRun_sent :
    CurrentRun sentScope sentCatalogue
      ([.acceptOutgoing (sentSnapshot (some deliveryTime))] ++
        [.mergeSentMetadata (sentSnapshot none)]) sentInbox := by
  refine ⟨snapshot_sentSnapshot _, trivial, snapshot_sentSnapshot _, ?_, trivial⟩
  rintro ⟨row, -, a, -, stored, hstored, -⟩
  rw [Option.mem_def] at hstored
  have hnone : metadataAt sentScope (sentSnapshot none).id
      ((EvidenceStep.acceptOutgoing (sentSnapshot (some deliveryTime))).apply
        sentScope sentInbox) = none := by
    decide
  rw [hnone] at hstored
  cases hstored

theorem delivery_evidence_never_regresses_sent :
    rowStatus sentScope "k1" (applySteps sentScope
      ([.acceptOutgoing (sentSnapshot (some deliveryTime))] ++
        [.mergeSentMetadata (sentSnapshot none)]) sentInbox) = some .delivered :=
  (delivery_evidence_never_regresses consistent_sentInbox currentRun_sent "k1" "e1").2
    (by decide)

end Runs

end Client
end SecureMessenger
