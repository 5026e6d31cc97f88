import SecureMessenger.Client.IndexedQueues
import Mathlib.Data.Set.Basic

/-!
# The order of receipts and acceptances

A delivery receipt may come before the acceptance of its message, between two
acceptances or after all of them.  What the inbox ends up with is the union of
all evidence.  The abstract state is whether some acceptance has come and the
set of envelope ids with evidence; `Shows` says how the database represents
it, and every receipt or acceptance adds to it.
-/

namespace SecureMessenger
namespace Client

open Lib

/-- What all snapshots and receipts of one message agree on: its ids and, for
each envelope, the id and the recipient device. -/
structure SentIdentity where
  messageId : String
  clientMessageId : String
  chatId : String
  targets : List (String × String)
  nodup : (targets.map Prod.fst).Nodup

/-- Id and recipient of an envelope. -/
def targetOf (e : MessageEnvelope) : String × String :=
  (e.id, e.recipient_device_id)

/-- A receipt with `delivered_at`, or an acceptance snapshot, of the message. -/
def EvidenceStep.About (scope : InboxScope) (sent : SentIdentity) : EvidenceStep → Prop
  | .acceptOutgoing message =>
      message.id = sent.messageId ∧ message.clientMessageId = sent.clientMessageId ∧
        message.chatId = sent.chatId ∧ message.senderUserId = scope.userId ∧
        message.senderDeviceId = scope.deviceId ∧
        (message.envelopes.map targetOf).Perm sent.targets ∧
        ∀ e ∈ message.envelopes, e.message_id = sent.messageId
  | .applyDeliveryReceipt receipt =>
      receipt.message_id = sent.messageId ∧ targetOf receipt ∈ sent.targets ∧
        receipt.delivered_at.isSome
  | .mergeSentMetadata _ => False

/-- The step is an acceptance. -/
def EvidenceStep.isAcceptance : EvidenceStep → Bool
  | .acceptOutgoing _ => true
  | _ => false

/-- The envelopes a step has evidence for. -/
def EvidenceStep.delivers : EvidenceStep → Set String
  | .acceptOutgoing message =>
      {id | ∃ e ∈ message.envelopes, e.id = id ∧ e.delivered_at.isSome}
  | .applyDeliveryReceipt receipt => {receipt.id}
  | .mergeSentMetadata _ => ∅

/-- The command is stored and not accepted, no other command is accepted as the
same message, and no receipt of the message is parked. -/
structure Unaccepted (scope : InboxScope) (sent : SentIdentity) (db : Database) : Prop where
  valid : valid scope db = true
  indexed : Indexed db
  stored : ∃ row, outgoingAt scope sent.clientMessageId db = some row ∧
    row.scope = scopeKey scope ∧ row.value.command.chat_id = sent.chatId ∧
    row.value.accepted = none
  free : ∀ row ∈ db.outgoing, row.scope = scopeKey scope →
    ∀ a ∈ row.value.accepted, a.id ≠ sent.messageId
  noReceipt : ∀ t ∈ sent.targets, receiptAt scope t.1 db.receipts = none

section Stores

variable {scope : InboxScope} {receipts : List (Stored MessageEnvelope)}

theorem receiptAt_delete (id id' : String) :
    receiptAt scope id (Store.delete Stored.key (recordKey (scopeKey scope) id') receipts) =
      if id = id' then none else receiptAt scope id receipts := by
  unfold receiptAt
  split_ifs with h
  · rw [h, Store.get_delete_self]
    rfl
  · have hne : recordKey (scopeKey scope) id ≠ recordKey (scopeKey scope) id' := by
      intro he
      exact h (recordKey_inj.mp he).2
    rw [Store.get_delete_of_ne _ hne]

theorem receiptAt_put (id : String) (receipt : MessageEnvelope) :
    receiptAt scope id
        (Store.put Stored.key (record (scopeKey scope) receipt.id receipt) receipts) =
      if receipt.id = id then some receipt else receiptAt scope id receipts := by
  unfold receiptAt
  rw [Store.get_put]
  have hkey : (record (scopeKey scope) receipt.id receipt).key =
      recordKey (scopeKey scope) id ↔ receipt.id = id :=
    recordKey_inj.trans (and_iff_right rfl)
  simp only [hkey]
  split_ifs
  · rfl
  · rfl

variable {prior : Option SentMessage} {es : List MessageEnvelope}

/-- The merged copy of one envelope in an acceptance. -/
def acceptEnvelope (scope : InboxScope) (prior : Option SentMessage)
    (receipts : List (Stored MessageEnvelope)) (e : MessageEnvelope) : MessageEnvelope :=
  mergeReceipt
    (mergeDeliveryMetadata e
      (prior.bind fun message => message.envelopes.find? fun item => decide (item.id = e.id)))
    (receiptAt scope e.id receipts)

theorem acceptEnvelopes_cons (e : MessageEnvelope) (rest : List MessageEnvelope) :
    acceptEnvelopes scope prior (e :: rest) receipts =
      (acceptEnvelope scope prior receipts e ::
        (acceptEnvelopes scope prior rest
          (Store.delete Stored.key (recordKey (scopeKey scope) e.id) receipts)).1,
        (acceptEnvelopes scope prior rest
          (Store.delete Stored.key (recordKey (scopeKey scope) e.id) receipts)).2) :=
  rfl

/-- With distinct ids the loop of `acceptOutgoing` treats each envelope on its
own. -/
theorem acceptEnvelopes_fst (hnodup : (es.map (·.id)).Nodup) :
    (acceptEnvelopes scope prior es receipts).1 =
      es.map (acceptEnvelope scope prior receipts) := by
  induction es generalizing receipts with
  | nil => rfl
  | cons e rest ih =>
      rw [List.map_cons, List.nodup_cons] at hnodup
      rw [acceptEnvelopes_cons, List.map_cons, ih hnodup.2]
      have hrest : rest.map (acceptEnvelope scope prior
          (Store.delete Stored.key (recordKey (scopeKey scope) e.id) receipts)) =
            rest.map (acceptEnvelope scope prior receipts) := by
        refine List.map_congr_left fun x hx => ?_
        have hne : x.id ≠ e.id := by
          intro he
          exact hnodup.1 (he ▸ List.mem_map_of_mem hx)
        unfold acceptEnvelope
        rw [receiptAt_delete, if_neg hne]
      rw [hrest]

/-- The loop consumes the receipts of the envelopes and no others. -/
theorem acceptEnvelopes_snd (id : String) :
    receiptAt scope id (acceptEnvelopes scope prior es receipts).2 =
      if id ∈ es.map (·.id) then none else receiptAt scope id receipts := by
  induction es generalizing receipts with
  | nil => rfl
  | cons e rest ih =>
      rw [acceptEnvelopes_cons, ih, receiptAt_delete, List.map_cons]
      by_cases he : id = e.id
      · simp [he]
      · simp [he]

theorem targetOf_acceptEnvelope (e : MessageEnvelope) :
    targetOf (acceptEnvelope scope prior receipts e) = targetOf e := by
  have hslot := slotOf_mergeReceipt (mergeDeliveryMetadata e
    (prior.bind fun message => message.envelopes.find? fun item => decide (item.id = e.id)))
    (receiptAt scope e.id receipts)
  exact Prod.ext (congrArg Slot.id hslot) (congrArg Slot.recipient_device_id hslot)

theorem message_id_mergeReceipt (e : MessageEnvelope) (receipt : Option MessageEnvelope) :
    (mergeReceipt e receipt).message_id = e.message_id := by
  unfold mergeReceipt
  cases receipt with
  | none => rfl
  | some r =>
      simp only
      split_ifs <;> rfl

/-- A receipt that fits proves the delivery; none changes nothing. -/
theorem delivered_mergeReceipt_iff {e : MessageEnvelope} {receipt : Option MessageEnvelope}
    (hfits : ∀ r, receipt = some r → r.message_id = e.message_id ∧
      r.recipient_device_id = e.recipient_device_id ∧ r.delivered_at.isSome) :
    (mergeReceipt e receipt).delivered_at.isSome ↔
      e.delivered_at.isSome ∨ receipt.isSome := by
  unfold mergeReceipt
  cases receipt with
  | none => simp
  | some r =>
      obtain ⟨hmessage, hdevice, hdelivered⟩ := hfits r rfl
      simp [hmessage, hdevice, Option.isSome_or, hdelivered]

theorem targetOf_applyReceipt (receipt e : MessageEnvelope) :
    targetOf (applyReceipt receipt e) = targetOf e := by
  have hslot := slotOf_applyReceipt receipt e
  exact Prod.ext (congrArg Slot.id hslot) (congrArg Slot.recipient_device_id hslot)

end Stores

section Targets

variable {sent : SentIdentity} {es : List MessageEnvelope} {e x : MessageEnvelope}

theorem nodup_of_targets (h : (es.map targetOf).Perm sent.targets) :
    (es.map (·.id)).Nodup := by
  have hperm : ((es.map targetOf).map Prod.fst).Perm (sent.targets.map Prod.fst) := h.map _
  rw [List.map_map] at hperm
  exact hperm.nodup_iff.mpr sent.nodup

theorem targetOf_mem (h : (es.map targetOf).Perm sent.targets) (he : e ∈ es) :
    targetOf e ∈ sent.targets :=
  h.mem_iff.mp (List.mem_map_of_mem he)

/-- A target is determined by the envelope id. -/
theorem target_unique {t u : String × String} (ht : t ∈ sent.targets) (hu : u ∈ sent.targets)
    (h : t.1 = u.1) : t = u :=
  List.inj_on_of_nodup_map sent.nodup ht hu h

theorem exists_of_target (h : (es.map targetOf).Perm sent.targets) {t : String × String}
    (ht : t ∈ sent.targets) : ∃ e ∈ es, targetOf e = t := by
  simpa using h.mem_iff.mpr ht

end Targets

section Shows

variable (scope : InboxScope) (sent : SentIdentity)

/-- Before the first acceptance: the evidence is in the parked receipts. -/
structure Waiting (evidence : Set String) (row : Stored OutgoingCommand) (db : Database) :
    Prop where
  unaccepted : row.value.accepted = none
  fits : ∀ t ∈ sent.targets, ∀ r, receiptAt scope t.1 db.receipts = some r →
    r.message_id = sent.messageId ∧ r.recipient_device_id = t.2 ∧ r.delivered_at.isSome
  parked : ∀ t ∈ sent.targets, (receiptAt scope t.1 db.receipts).isSome ↔ t.1 ∈ evidence

/-- After the first acceptance: the evidence is in the accepted copy. -/
structure Taken (evidence : Set String) (row : Stored OutgoingCommand) (a : SentMessage)
    (db : Database) : Prop where
  accepted : row.value.accepted = some a
  id : a.id = sent.messageId
  targets : (a.envelopes.map targetOf).Perm sent.targets
  message_id : ∀ x ∈ a.envelopes, x.message_id = sent.messageId
  marked : ∀ x ∈ a.envelopes, x.delivered_at.isSome ↔ x.id ∈ evidence
  consumed : ∀ t ∈ sent.targets, receiptAt scope t.1 db.receipts = none

/-- The database represents the abstract state. -/
structure Shows (accepted : Bool) (evidence : Set String) (db : Database) : Prop where
  valid : valid scope db = true
  indexed : Indexed db
  free : ∀ r ∈ db.outgoing, r.message = some [scopeKey scope, sent.messageId] →
    r.key = recordKey (scopeKey scope) sent.clientMessageId
  known : ∀ id ∈ evidence, id ∈ sent.targets.map Prod.fst
  stored : ∃ row, outgoingAt scope sent.clientMessageId db = some row ∧
    row.scope = scopeKey scope ∧ row.value.command.chat_id = sent.chatId ∧
    ((accepted = false ∧ Waiting scope sent evidence row db) ∨
      (accepted = true ∧ ∃ a, Taken scope sent evidence row a db))

end Shows

section Steps

variable {scope : InboxScope} {sent : SentIdentity} {evidence : Set String}
  {row : Stored OutgoingCommand} {a : SentMessage} {db db' : Database}

theorem Unaccepted.shows (h : Unaccepted scope sent db) : Shows scope sent false ∅ db := by
  obtain ⟨row, hrow, hscope, hchat, hnone⟩ := h.stored
  refine ⟨h.valid, h.indexed, ?_, by simp, row, hrow, hscope, hchat, Or.inl ⟨rfl, hnone, ?_, ?_⟩⟩
  · intro r hr hmessage
    obtain ⟨hrscope, b, hb, hid⟩ := (message_outgoing (h.indexed.outgoing r hr)).mp hmessage
    exact absurd hid (h.free r hr hrscope b hb)
  · intro t ht r hr
    rw [h.noReceipt t ht] at hr
    cases hr
  · intro t ht
    simp [h.noReceipt t ht]

/-- A `put` that no other row stands against. -/
theorem putOutgoingRow_total {entry : Stored OutgoingCommand}
    (h : ∀ other ∈ db.outgoing, other.message = entry.message → other.key = entry.key) :
    putOutgoingRow entry db =
      .ok { db with outgoing := Store.put Stored.key entry db.outgoing } := by
  unfold putOutgoingRow
  refine if_neg ?_
  rintro ⟨-, hany⟩
  obtain ⟨other, hmem, hclash⟩ := List.any_eq_true.mp hany
  rw [decide_eq_true_eq] at hclash
  exact hclash.1 (h other hmem hclash.2)

theorem outgoingAt_mem (h : outgoingAt scope sent.clientMessageId db = some row) :
    row ∈ db.outgoing ∧ row.key = recordKey (scopeKey scope) sent.clientMessageId :=
  Store.get_some h

/-- Evidence of an envelope in an acceptance: its own, what was parked, or what
the previous acceptance had. -/
theorem Waiting.delivered_acceptEnvelope (h : Waiting scope sent evidence row db)
    {e : MessageEnvelope} (ht : targetOf e ∈ sent.targets)
    (hm : e.message_id = sent.messageId) :
    (acceptEnvelope scope row.value.accepted db.receipts e).delivered_at.isSome ↔
      e.delivered_at.isSome ∨ e.id ∈ evidence := by
  have hfits : ∀ r, receiptAt scope e.id db.receipts = some r →
      r.message_id = e.message_id ∧ r.recipient_device_id = e.recipient_device_id ∧
        r.delivered_at.isSome := by
    intro r hr
    rw [hm]
    exact h.fits (targetOf e) ht r hr
  have hparked : (receiptAt scope e.id db.receipts).isSome ↔ e.id ∈ evidence :=
    h.parked (targetOf e) ht
  unfold acceptEnvelope
  rw [delivered_mergeReceipt_iff (e := mergeDeliveryMetadata e _) hfits, hparked,
    h.unaccepted]
  simp [mergeDeliveryMetadata]

theorem Taken.delivered_acceptEnvelope (h : Taken scope sent evidence row a db)
    {e : MessageEnvelope} (ht : targetOf e ∈ sent.targets) :
    (acceptEnvelope scope row.value.accepted db.receipts e).delivered_at.isSome ↔
      e.delivered_at.isSome ∨ e.id ∈ evidence := by
  have hnone : receiptAt scope e.id db.receipts = none := h.consumed (targetOf e) ht
  obtain ⟨x, hx, hxt⟩ := exists_of_target h.targets ht
  have hid : x.id = e.id := congrArg Prod.fst hxt
  have hfind := find_of_mem (nodup_of_targets h.targets) hx
  rw [hid] at hfind
  unfold acceptEnvelope
  rw [h.accepted, hnone, Option.bind_some, hfind, ← hid, ← h.marked x hx]
  simp [mergeReceipt, mergeDeliveryMetadata, Option.isSome_or]

/-- In both phases an acceptance sees all evidence so far. -/
theorem Shows.delivered_acceptEnvelope {accepted : Bool}
    (h : (accepted = false ∧ Waiting scope sent evidence row db) ∨
      (accepted = true ∧ ∃ a, Taken scope sent evidence row a db))
    {e : MessageEnvelope} (ht : targetOf e ∈ sent.targets)
    (hm : e.message_id = sent.messageId) :
    (acceptEnvelope scope row.value.accepted db.receipts e).delivered_at.isSome ↔
      e.delivered_at.isSome ∨ e.id ∈ evidence := by
  rcases h with ⟨-, hwaiting⟩ | ⟨-, a, htaken⟩
  · exact hwaiting.delivered_acceptEnvelope ht hm
  · exact htaken.delivered_acceptEnvelope ht

/-- The database with a new accepted copy of the command and the receipts of
an acceptance consumed. -/
def acceptedDb (row : Stored OutgoingCommand) (createdAt : Option String) (a : SentMessage)
    (receipts : List (Stored MessageEnvelope)) (db : Database) : Database :=
  { db with
    receipts := receipts
    outgoing := Store.put Stored.key (withAccepted row createdAt a) db.outgoing }

/-- Writing a copy with the right targets and evidence. -/
theorem Shows.write {accepted : Bool} (h : Shows scope sent accepted evidence db)
    (createdAt : Option String) (a : SentMessage) (receipts : List (Stored MessageEnvelope))
    (evidence' : Set String) (hrow : outgoingAt scope sent.clientMessageId db = some row)
    (hscope : row.scope = scopeKey scope) (hchat : row.value.command.chat_id = sent.chatId)
    (hknown : ∀ id ∈ evidence', id ∈ sent.targets.map Prod.fst)
    (hid : a.id = sent.messageId) (htargets : (a.envelopes.map targetOf).Perm sent.targets)
    (hmessage : ∀ x ∈ a.envelopes, x.message_id = sent.messageId)
    (hmarked : ∀ x ∈ a.envelopes, x.delivered_at.isSome ↔ x.id ∈ evidence')
    (hconsumed : ∀ t ∈ sent.targets, receiptAt scope t.1 receipts = none) :
    putOutgoingRow (withAccepted row createdAt a) { db with receipts := receipts } =
        .ok (acceptedDb row createdAt a receipts db) ∧
      Shows scope sent true evidence' (acceptedDb row createdAt a receipts db) := by
  obtain ⟨hmem, hkey⟩ := outgoingAt_mem hrow
  have hindex : (withAccepted row createdAt a).message =
      some [scopeKey scope, sent.messageId] := by
    rw [← hscope, ← hid]
    rfl
  have hput : putOutgoingRow (withAccepted row createdAt a) { db with receipts := receipts } =
      .ok (acceptedDb row createdAt a receipts db) := by
    refine putOutgoingRow_total fun other hother hsame => ?_
    rw [hindex] at hsame
    exact (h.free other hother hsame).trans hkey.symm
  refine ⟨hput, h.valid, ?_, ?_, hknown, withAccepted row createdAt a, ?_, hscope, hchat,
    Or.inr ⟨rfl, a, rfl, hid, htargets, hmessage, hmarked, hconsumed⟩⟩
  · refine indexed_putOutgoingRow ?_ hput
    exact h.indexed.congr rfl rfl
  · intro r hr hrmessage
    rcases Store.mem_put hr with hr' | hr'
    · rw [hr']
      exact hkey
    · exact h.free r hr' hrmessage
  · unfold outgoingAt acceptedDb
    rw [← hkey]
    exact Store.get_put_self (withAccepted row createdAt a) _

/-- The accepted copy an acceptance writes. -/
def acceptedCopy (scope : InboxScope) (row : Stored OutgoingCommand) (message : SentMessage)
    (db : Database) : SentMessage :=
  { message with
    chatSeq := message.chatSeq.or (row.value.accepted.bind (·.chatSeq))
    envelopes := (acceptEnvelopes scope row.value.accepted message.envelopes db.receipts).1 }

theorem acceptOutgoing_ok {message : SentMessage} (hvalid : valid scope db = true)
    (hdevice : message.senderDeviceId = scope.deviceId)
    (huser : message.senderUserId = scope.userId)
    (hrow : outgoingAt scope message.clientMessageId db = some row)
    (hchat : row.value.command.chat_id = message.chatId)
    (hput : putOutgoingRow
      (withAccepted row
        (some ((row.value.createdAt.or (row.value.accepted.map (·.createdAt))).getD ""))
        (acceptedCopy scope row message db))
      { db with
        receipts :=
          (acceptEnvelopes scope row.value.accepted message.envelopes db.receipts).2 } =
        .ok db') :
    ∃ value, acceptOutgoing scope message db = .ok (value, db') := by
  have hsender : ¬(message.senderDeviceId ≠ scope.deviceId ∨
      message.senderUserId ≠ scope.userId) := by
    simp [hdevice, huser]
  have hsame : ¬row.value.command.chat_id ≠ message.chatId := not_not.mpr hchat
  refine ⟨{ row.value with
    createdAt := some ((row.value.createdAt.or (row.value.accepted.map (·.createdAt))).getD "")
    accepted := some (acceptedCopy scope row message db) }, ?_⟩
  unfold acceptOutgoing
  rw [validate_of_valid hvalid]
  simp only [hrow, if_neg hsender, if_neg hsame]
  exact congrArg (· >>= fun db' => pure (_, db')) hput

/-- One acceptance. -/
theorem Shows.accept {accepted : Bool} (h : Shows scope sent accepted evidence db)
    {message : SentMessage} (hm : (EvidenceStep.acceptOutgoing message).About scope sent) :
    Shows scope sent true (evidence ∪ (EvidenceStep.acceptOutgoing message).delivers)
      ((EvidenceStep.acceptOutgoing message).apply scope db) := by
  obtain ⟨hid, hclient, hchatId, huser, hdevice, htargets, hmessage⟩ := hm
  obtain ⟨row, hrow, hscope, hchat, hphase⟩ := h.stored
  have hnodup := nodup_of_targets htargets
  have hcopies : (acceptedCopy scope row message db).envelopes =
      message.envelopes.map (acceptEnvelope scope row.value.accepted db.receipts) :=
    acceptEnvelopes_fst hnodup
  have hwrite := h.write
    (some ((row.value.createdAt.or (row.value.accepted.map (·.createdAt))).getD ""))
    (acceptedCopy scope row message db)
    (acceptEnvelopes scope row.value.accepted message.envelopes db.receipts).2
    (evidence ∪ (EvidenceStep.acceptOutgoing message).delivers) hrow hscope hchat ?_ hid ?_ ?_ ?_ ?_
  · rw [← hclient] at hrow
    obtain ⟨value, hok⟩ :=
      acceptOutgoing_ok h.valid hdevice huser hrow (hchat.trans hchatId.symm) hwrite.1
    have happly : (EvidenceStep.acceptOutgoing message).apply scope db = acceptedDb row
        (some ((row.value.createdAt.or (row.value.accepted.map (·.createdAt))).getD ""))
        (acceptedCopy scope row message db)
        (acceptEnvelopes scope row.value.accepted message.envelopes db.receipts).2 db := by
      simp only [EvidenceStep.apply, afterTransaction, hok]
    rw [happly]
    exact hwrite.2
  · -- evidence is about envelopes of the message only
    rintro id (hold | ⟨e, he, rfl, -⟩)
    · exact h.known id hold
    · exact List.mem_map_of_mem (targetOf_mem htargets he)
  · rw [hcopies, List.map_map]
    have htarget : targetOf ∘ acceptEnvelope scope row.value.accepted db.receipts = targetOf :=
      funext targetOf_acceptEnvelope
    rw [htarget]
    exact htargets
  · rw [hcopies]
    intro x hx
    obtain ⟨e, he, rfl⟩ := List.mem_map.mp hx
    exact (message_id_mergeReceipt _ _).trans (hmessage e he)
  · rw [hcopies]
    intro x hx
    obtain ⟨e, he, rfl⟩ := List.mem_map.mp hx
    have hxid : (acceptEnvelope scope row.value.accepted db.receipts e).id = e.id :=
      congrArg Prod.fst (targetOf_acceptEnvelope e)
    rw [Shows.delivered_acceptEnvelope hphase (targetOf_mem htargets he) (hmessage e he), hxid]
    constructor
    · rintro (hd | hold)
      · exact Or.inr ⟨e, he, rfl, hd⟩
      · exact Or.inl hold
    · rintro (hold | ⟨e', he', heid, hd⟩)
      · exact Or.inr hold
      · exact Or.inl (List.inj_on_of_nodup_map hnodup he' he heid ▸ hd)
  · intro t ht
    obtain ⟨e, he, rfl⟩ := exists_of_target htargets ht
    have hmem : (targetOf e).1 ∈ message.envelopes.map (·.id) := List.mem_map_of_mem he
    rw [acceptEnvelopes_snd, if_pos hmem]

/-- The metadata write of a receipt touches neither rows nor receipts. -/
theorem applyReceiptToMetadata_same (scope : InboxScope) (receipt : MessageEnvelope)
    (db : Database) :
    (applyReceiptToMetadata scope receipt db).outgoing = db.outgoing ∧
      (applyReceiptToMetadata scope receipt db).envelopes = db.envelopes ∧
      (applyReceiptToMetadata scope receipt db).receipts = db.receipts ∧
      (applyReceiptToMetadata scope receipt db).identity = db.identity := by
  unfold applyReceiptToMetadata
  cases metadataAt scope receipt.message_id db <;> exact ⟨rfl, rfl, rfl, rfl⟩

/-- `Shows` looks at the rows, the receipts and the identity. -/
theorem Shows.congr {accepted : Bool} (h : Shows scope sent accepted evidence db)
    (hout : db'.outgoing = db.outgoing) (henv : db'.envelopes = db.envelopes)
    (hreceipts : db'.receipts = db.receipts) (hidentity : db'.identity = db.identity) :
    Shows scope sent accepted evidence db' := by
  obtain ⟨row, hrow, hscope, hchat, hphase⟩ := h.stored
  refine ⟨?_, h.indexed.congr henv hout, hout ▸ h.free, h.known, row, ?_, hscope, hchat, ?_⟩
  · have hsame : Client.valid scope db' = Client.valid scope db := by
      unfold Client.valid identity
      rw [hidentity]
    rw [hsame]
    exact h.valid
  · unfold outgoingAt at hrow ⊢
    rw [hout]
    exact hrow
  · rcases hphase with ⟨haccepted, hnone, hfits, hparked⟩ | ⟨haccepted, a, ht⟩
    · exact Or.inl ⟨haccepted, hnone, hreceipts ▸ hfits, hreceipts ▸ hparked⟩
    · obtain ⟨h₁, h₂, h₃, h₄, h₅, h₆⟩ := ht
      exact Or.inr ⟨haccepted, a, h₁, h₂, h₃, h₄, h₅, hreceipts ▸ h₆⟩

variable {receipt : MessageEnvelope}

theorem applyDeliveryReceipt_missing (hvalid : valid scope db = true)
    (hdelivered : receipt.delivered_at.isSome)
    (hnone : outgoingByMessage scope receipt.message_id
      (applyReceiptToMetadata scope receipt db) = none) :
    applyDeliveryReceipt scope receipt db =
      .ok (none, putReceipt scope receipt (applyReceiptToMetadata scope receipt db)) := by
  have hset : ¬receipt.delivered_at = none := Option.isSome_iff_ne_none.mp hdelivered
  unfold applyDeliveryReceipt
  rw [validate_of_valid hvalid]
  simp only [if_neg hset, hnone]
  rfl

theorem applyDeliveryReceipt_same (hvalid : valid scope db = true)
    (hdelivered : receipt.delivered_at.isSome)
    (hrow : outgoingByMessage scope receipt.message_id
      (applyReceiptToMetadata scope receipt db) = some row)
    (ha : row.value.accepted = some a)
    (hsame : a.envelopes.map (applyReceipt receipt) = a.envelopes) :
    applyDeliveryReceipt scope receipt db =
      .ok (none, applyReceiptToMetadata scope receipt db) := by
  have hset : ¬receipt.delivered_at = none := Option.isSome_iff_ne_none.mp hdelivered
  unfold applyDeliveryReceipt
  rw [validate_of_valid hvalid]
  simp only [if_neg hset, hrow, ha, if_pos hsame]
  rfl

theorem applyDeliveryReceipt_changed (hvalid : valid scope db = true)
    (hdelivered : receipt.delivered_at.isSome)
    (hrow : outgoingByMessage scope receipt.message_id
      (applyReceiptToMetadata scope receipt db) = some row)
    (ha : row.value.accepted = some a)
    (hchanged : ¬a.envelopes.map (applyReceipt receipt) = a.envelopes)
    (hput : putOutgoingRow
      (withAccepted row row.value.createdAt
        { a with envelopes := a.envelopes.map (applyReceipt receipt) })
      (applyReceiptToMetadata scope receipt db) = .ok db') :
    ∃ value, applyDeliveryReceipt scope receipt db = .ok (value, db') := by
  have hset : ¬receipt.delivered_at = none := Option.isSome_iff_ne_none.mp hdelivered
  refine ⟨some { row.value with
    accepted := some { a with envelopes := a.envelopes.map (applyReceipt receipt) } }, ?_⟩
  unfold applyDeliveryReceipt
  rw [validate_of_valid hvalid]
  simp only [if_neg hset, hrow, ha, if_neg hchanged]
  exact congrArg (· >>= fun db' => pure (_, db')) hput

/-- A receipt marks its envelope in the accepted copy. -/
theorem Taken.delivered_applyReceipt (h : Taken scope sent evidence row a db)
    (hreceipt : (EvidenceStep.applyDeliveryReceipt receipt).About scope sent)
    {x : MessageEnvelope} (hx : x ∈ a.envelopes) :
    (applyReceipt receipt x).delivered_at.isSome ↔ x.id ∈ evidence ∪ {receipt.id} := by
  obtain ⟨hm, ht, hd⟩ := hreceipt
  rw [Set.mem_union, Set.mem_singleton_iff, ← h.marked x hx]
  unfold applyReceipt
  by_cases hid : x.id = receipt.id
  · have htarget : targetOf x = targetOf receipt :=
      target_unique (targetOf_mem h.targets hx) ht hid
    have hfits : ∀ r, some receipt = some r → r.message_id = x.message_id ∧
        r.recipient_device_id = x.recipient_device_id ∧ r.delivered_at.isSome := by
      rintro r ⟨rfl⟩
      exact ⟨hm.trans (h.message_id x hx).symm, (congrArg Prod.snd htarget).symm, hd⟩
    rw [if_pos hid, delivered_mergeReceipt_iff hfits]
    simp [hid]
  · rw [if_neg hid]
    simp [hid]

/-- The row of an accepted message is found through the index. -/
theorem Shows.found {accepted : Bool} (h : Shows scope sent accepted evidence db)
    (hrow : outgoingAt scope sent.clientMessageId db = some row)
    (hscope : row.scope = scopeKey scope) (ht : Taken scope sent evidence row a db) :
    outgoingByMessage scope sent.messageId db = some row :=
  (outgoingByMessage_iff h.indexed).mpr
    ⟨(outgoingAt_mem hrow).1, hscope, a, ht.accepted, ht.id⟩

/-- Before the first acceptance the index has no row for the message. -/
theorem Shows.notFound {accepted : Bool} (h : Shows scope sent accepted evidence db)
    (hrow : outgoingAt scope sent.clientMessageId db = some row)
    (hw : Waiting scope sent evidence row db) :
    outgoingByMessage scope sent.messageId db = none := by
  cases hfind : outgoingByMessage scope sent.messageId db with
  | none => rfl
  | some other =>
      obtain ⟨hmem, hother, b, hb, hbid⟩ := (outgoingByMessage_iff h.indexed).mp hfind
      have hindex := (message_outgoing (h.indexed.outgoing other hmem)).mpr
        ⟨hother, b, hb, hbid⟩
      have hkey := h.free other hmem hindex
      have hsame := Store.get_of_mem h.indexed.ordered hmem
      rw [hkey] at hsame
      obtain rfl : row = other := Option.some.inj (hrow.symm.trans hsame)
      rw [hw.unaccepted] at hb
      cases hb

/-- A receipt before the first acceptance is parked. -/
theorem Shows.park (h : Shows scope sent false evidence db)
    (hrow : outgoingAt scope sent.clientMessageId db = some row)
    (hscope : row.scope = scopeKey scope) (hchat : row.value.command.chat_id = sent.chatId)
    (hw : Waiting scope sent evidence row db)
    (hreceipt : (EvidenceStep.applyDeliveryReceipt receipt).About scope sent) :
    Shows scope sent false (evidence ∪ {receipt.id}) (putReceipt scope receipt db) := by
  obtain ⟨hm, ht, hd⟩ := hreceipt
  refine ⟨h.valid, h.indexed.congr rfl rfl, h.free, ?_, row, hrow, hscope, hchat,
    Or.inl ⟨rfl, hw.unaccepted, ?_, ?_⟩⟩
  · rintro id (hold | rfl)
    · exact h.known id hold
    · exact List.mem_map_of_mem ht
  · intro t htt r hr
    have hr' : (if receipt.id = t.1 then some receipt else receiptAt scope t.1 db.receipts) =
        some r := (receiptAt_put t.1 receipt).symm.trans hr
    split_ifs at hr' with hid
    · obtain rfl := Option.some.inj hr'
      obtain rfl : t = targetOf receipt := target_unique htt ht hid.symm
      exact ⟨hm, rfl, hd⟩
    · exact hw.fits t htt r hr'
  · intro t htt
    have hput : receiptAt scope t.1 (putReceipt scope receipt db).receipts =
        if receipt.id = t.1 then some receipt else receiptAt scope t.1 db.receipts :=
      receiptAt_put t.1 receipt
    rw [hput, Set.mem_union, Set.mem_singleton_iff, ← hw.parked t htt]
    split_ifs with hid
    · simp [hid]
    · simp [Ne.symm hid]

/-- One receipt. -/
theorem Shows.addReceipt {accepted : Bool} (h : Shows scope sent accepted evidence db)
    (hreceipt : (EvidenceStep.applyDeliveryReceipt receipt).About scope sent) :
    Shows scope sent accepted (evidence ∪ {receipt.id})
      ((EvidenceStep.applyDeliveryReceipt receipt).apply scope db) := by
  obtain ⟨hm, ht, hd⟩ := id hreceipt
  obtain ⟨hout, henv, hreceipts, hidentity⟩ :=
    applyReceiptToMetadata_same scope receipt db
  -- the metadata write comes first and does not show
  have h' := h.congr hout henv hreceipts hidentity
  simp only [EvidenceStep.apply, afterTransaction]
  obtain ⟨row, hrow, hscope, hchat, hphase⟩ := h'.stored
  rcases hphase with ⟨rfl, hw⟩ | ⟨rfl, a, htaken⟩
  · have hnone := h'.notFound hrow hw
    rw [← hm] at hnone
    rw [applyDeliveryReceipt_missing h.valid hd hnone]
    exact h'.park hrow hscope hchat hw hreceipt
  · have hfound := h'.found hrow hscope htaken
    rw [← hm] at hfound
    have hwrite := h'.write row.value.createdAt
      { a with envelopes := a.envelopes.map (applyReceipt receipt) }
      (applyReceiptToMetadata scope receipt db).receipts (evidence ∪ {receipt.id})
      hrow hscope hchat ?_ htaken.id ?_ ?_ ?_ htaken.consumed
    · by_cases hsame : a.envelopes.map (applyReceipt receipt) = a.envelopes
      · rw [applyDeliveryReceipt_same h.valid hd hfound htaken.accepted hsame]
        refine ⟨h'.valid, h'.indexed, h'.free, hwrite.2.known, row, hrow, hscope, hchat,
          Or.inr ⟨rfl, a, htaken.accepted, htaken.id, htaken.targets, htaken.message_id,
            ?_, htaken.consumed⟩⟩
        intro x hx
        have hself : applyReceipt receipt x = x :=
          List.map_inj_left.mp (hsame.trans (List.map_id _).symm) x hx
        rw [← htaken.delivered_applyReceipt hreceipt hx, hself]
      · obtain ⟨value, hok⟩ := applyDeliveryReceipt_changed h.valid hd hfound
          htaken.accepted hsame hwrite.1
        rw [hok]
        exact hwrite.2
    · rintro id (hold | rfl)
      · exact h'.known id hold
      · exact List.mem_map_of_mem ht
    · simp only [List.map_map]
      have htarget : targetOf ∘ applyReceipt receipt = targetOf :=
        funext (targetOf_applyReceipt receipt)
      rw [htarget]
      exact htaken.targets
    · intro x hx
      obtain ⟨e, he, rfl⟩ := List.mem_map.mp hx
      have hsame : (applyReceipt receipt e).message_id = e.message_id := by
        unfold applyReceipt
        split_ifs
        · exact message_id_mergeReceipt e _
        · rfl
      rw [hsame]
      exact htaken.message_id e he
    · intro x hx
      obtain ⟨e, he, rfl⟩ := List.mem_map.mp hx
      have hid : (applyReceipt receipt e).id = e.id :=
        congrArg Prod.fst (targetOf_applyReceipt receipt e)
      rw [htaken.delivered_applyReceipt hreceipt he, hid]

/-- Every receipt and every acceptance adds its evidence. -/
theorem Shows.step {accepted : Bool} (h : Shows scope sent accepted evidence db)
    {step : EvidenceStep} (hstep : step.About scope sent) :
    Shows scope sent (accepted || step.isAcceptance) (evidence ∪ step.delivers)
      (step.apply scope db) := by
  cases step with
  | acceptOutgoing message =>
      simp only [EvidenceStep.isAcceptance, Bool.or_true]
      exact h.accept hstep
  | applyDeliveryReceipt receipt =>
      simp only [EvidenceStep.isAcceptance, Bool.or_false]
      exact h.addReceipt hstep
  | mergeSentMetadata message => exact absurd hstep id

/-- What a sequence of steps adds. -/
theorem Shows.steps {accepted : Bool} {steps : List EvidenceStep}
    (h : Shows scope sent accepted evidence db) (hsteps : ∀ s ∈ steps, s.About scope sent) :
    Shows scope sent (accepted || steps.any EvidenceStep.isAcceptance)
      (evidence ∪ {id | ∃ s ∈ steps, id ∈ s.delivers}) (applySteps scope steps db) := by
  induction steps generalizing accepted evidence db with
  | nil => simpa [applySteps] using h
  | cons step rest ih =>
      have hrest := ih (h.step (hsteps step List.mem_cons_self))
        (fun s hs => hsteps s (List.mem_cons_of_mem _ hs))
      have hunion : evidence ∪ {id | ∃ s ∈ step :: rest, id ∈ s.delivers} =
          evidence ∪ step.delivers ∪ {id | ∃ s ∈ rest, id ∈ s.delivers} := by
        ext id
        simp [or_assoc]
      rw [List.any_cons, hunion, ← Bool.or_assoc]
      exact hrest

/-- The accepted copy shows exactly the evidence. -/
theorem Shows.deliveredIn (h : Shows scope sent true evidence db) (e : String) :
    Client.deliveredIn scope sent.clientMessageId e db = true ↔ e ∈ evidence := by
  obtain ⟨row, hrow, -, -, ⟨hfalse, -⟩ | ⟨-, a, ht⟩⟩ := h.stored
  · cases hfalse
  · rw [deliveredIn_iff]
    constructor
    · rintro ⟨row', a', x, hrow', ha', hx, rfl, hd⟩
      obtain rfl := Option.some.inj (hrow.symm.trans hrow')
      obtain rfl := Option.some.inj (ht.accepted.symm.trans ha')
      exact (ht.marked x hx).mp hd
    · intro he
      obtain ⟨t, htt, rfl⟩ := List.mem_map.mp (h.known e he)
      obtain ⟨x, hx, rfl⟩ := exists_of_target ht.targets htt
      exact ⟨row, a, x, hrow, ht.accepted, hx, rfl, (ht.marked x hx).mpr he⟩

/-- **Main result.**  Receipts and acceptances of one message commute: whatever
their order and repetition, the accepted copy marks exactly the envelopes that
some receipt or snapshot has evidence for, and no receipt stays parked. -/
theorem receipts_and_acceptances_commute (hstart : Unaccepted scope sent db)
    {steps : List EvidenceStep} (hsteps : ∀ s ∈ steps, s.About scope sent)
    (haccepted : ∃ s ∈ steps, s.isAcceptance = true) :
    (∃ row a, outgoingAt scope sent.clientMessageId (applySteps scope steps db) = some row ∧
        row.value.accepted = some a ∧ (a.envelopes.map targetOf).Perm sent.targets) ∧
      (∀ e, Client.deliveredIn scope sent.clientMessageId e (applySteps scope steps db) = true ↔
        ∃ s ∈ steps, e ∈ s.delivers) ∧
      (∀ steps' : List EvidenceStep, (∀ s, s ∈ steps' ↔ s ∈ steps) → ∀ e,
        Client.deliveredIn scope sent.clientMessageId e (applySteps scope steps' db) =
          Client.deliveredIn scope sent.clientMessageId e (applySteps scope steps db)) ∧
      ∀ t ∈ sent.targets, receiptAt scope t.1 (applySteps scope steps db).receipts = none := by
  have hshow : ∀ steps' : List EvidenceStep, (∀ s, s ∈ steps' ↔ s ∈ steps) →
      Shows scope sent true {id | ∃ s ∈ steps, id ∈ s.delivers}
        (applySteps scope steps' db) := by
    intro steps' hsame
    have hrun := hstart.shows.steps (fun s hs => hsteps s ((hsame s).mp hs))
    have hany : steps'.any EvidenceStep.isAcceptance = true := by
      obtain ⟨s, hs, hacc⟩ := haccepted
      exact List.any_eq_true.mpr ⟨s, (hsame s).mpr hs, hacc⟩
    rw [Bool.false_or, hany, Set.empty_union] at hrun
    simpa only [hsame] using hrun
  have hfinal := hshow steps (fun _ => Iff.rfl)
  refine ⟨?_, hfinal.deliveredIn, ?_, ?_⟩
  · obtain ⟨row, hrow, -, -, ⟨hfalse, -⟩ | ⟨-, a, ht⟩⟩ := hfinal.stored
    · cases hfalse
    · exact ⟨row, a, hrow, ht.accepted, ht.targets⟩
  · intro steps' hsame e
    rw [Bool.eq_iff_iff, (hshow steps' hsame).deliveredIn e, hfinal.deliveredIn e]
  · obtain ⟨row, hrow, -, -, ⟨hfalse, -⟩ | ⟨-, a, ht⟩⟩ := hfinal.stored
    · cases hfalse
    · exact ht.consumed

end Steps

/-- The message of `sentSnapshot`. -/
def sentIdentity : SentIdentity where
  messageId := "m1"
  clientMessageId := "k1"
  chatId := "c1"
  targets := [("e1", "bob-phone")]
  nodup := by simp

theorem unaccepted_sentInbox : Unaccepted sentScope sentIdentity sentInbox := by
  have hrow : outgoingAt sentScope sentIdentity.clientMessageId sentInbox =
      some (indexedOutgoing (record (scopeKey sentScope) "k1" sentCommand)) := by
    simp [outgoingAt, sentInbox, sentIdentity, Store.get, indexedOutgoing, record]
  refine ⟨by decide, ?_, ⟨_, hrow, rfl, rfl, rfl⟩, ?_, ?_⟩
  · refine ⟨List.pairwise_singleton _ _, fun r hr => (by cases hr), fun r hr => ?_,
      fun r hr s hs _ _ => ?_⟩
    · rw [List.mem_singleton.mp hr]
      rfl
    · rw [List.mem_singleton.mp hr, List.mem_singleton.mp hs]
  · intro row hrow _ a ha
    rw [List.mem_singleton.mp hrow] at ha
    cases ha
  · intro t _
    rfl

/-- A receipt before a stale acceptance. -/
theorem receipts_and_acceptances_commute_early :
    Client.deliveredIn sentScope "k1" "e1" (applySteps sentScope
      [.applyDeliveryReceipt sentReceipt, .acceptOutgoing (sentSnapshot none)] sentInbox) =
        true := by
  have hsteps : ∀ s ∈ [EvidenceStep.applyDeliveryReceipt sentReceipt,
      .acceptOutgoing (sentSnapshot none)], s.About sentScope sentIdentity := by
    intro s hs
    simp only [List.mem_cons, List.not_mem_nil, or_false] at hs
    rcases hs with rfl | rfl
    · exact ⟨rfl, List.mem_cons_self, rfl⟩
    · refine ⟨rfl, rfl, rfl, rfl, rfl, List.Perm.refl _, fun e he => ?_⟩
      rw [List.mem_singleton.mp he]
      rfl
  have hmain := receipts_and_acceptances_commute unaccepted_sentInbox hsteps
    ⟨_, List.mem_cons_of_mem _ List.mem_cons_self, rfl⟩
  exact (hmain.2.1 "e1").mpr ⟨_, List.mem_cons_self, rfl⟩

end Client
end SecureMessenger
