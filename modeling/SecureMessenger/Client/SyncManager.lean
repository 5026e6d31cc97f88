import SecureMessenger.Client.Calls

/-!
# SyncManager

The functions of `messaging/syncManager.ts`: mailbox paging, live ingestion,
the one-time sequence backfill and the acknowledgment of stored envelopes.
-/

namespace SecureMessenger
namespace Client

open Lib

/-- The `changes` map, in insertion order. -/
abbrev Changes := List MailboxEnvelope

/-- `changes.set(envelope.id, envelope)`. -/
def setChange (envelope : MailboxEnvelope) : Changes → Changes
  | [] => [envelope]
  | change :: changes =>
      if change.id = envelope.id then envelope :: changes
      else change :: setChange envelope changes

/-- `collect`. -/
def collect (changes : Changes) (envelopes : List MailboxEnvelope) : Changes :=
  envelopes.foldl (fun changes envelope => setChange envelope changes) changes

/-- `SyncChanges`. -/
structure SyncChanges where
  cursor : ℤ
  envelopes : List MailboxEnvelope

/-- `assertCurrent`. -/
def assertCurrent (scope : ScopeRef) : Async Unit := do
  if !(← isCurrent scope) then
    Prog.throw (.error "Mailbox session changed; sync stopped.")

/-- The loop of `validatePage`: the sequence reached after the envelopes. -/
def checkEnvelopes (deviceId : String) :
    ℤ → List MailboxEnvelope → Except JsError ℤ
  | expected, [] => .ok expected
  | expected, envelope :: rest =>
      if envelope.recipient_device_id ≠ deviceId
          ∨ envelope.mailbox_seq.isSafeInteger = false
          ∨ envelope.mailbox_seq ≠ .integer (expected + 1) then
        .error (.error "Mailbox sequence gap or invalid device; sync stopped.")
      else checkEnvelopes deviceId (expected + 1) rest

/-- `validatePage`. -/
def validatePage (scope : InboxScope) (cursor : ℤ) (page : MailboxPage) :
    Except JsError Unit := do
  let expected ← checkEnvelopes scope.deviceId cursor page.envelopes
  if page.nextSeq ≠ .integer expected ∨ (page.hasMore ∧ expected = cursor) then
    throw (.error "Mailbox cursor does not match the persisted page; sync stopped.")

/-- `validateReceipt`. -/
def validateReceipt (scope : InboxScope) (envelope : MailboxEnvelope)
    (receipt : MessageEnvelope) : Except JsError Unit :=
  if receipt.id ≠ envelope.id ∨ receipt.message_id ≠ envelope.message_id
      ∨ receipt.recipient_device_id ≠ scope.deviceId
      ∨ receipt.delivered_at = none then
    .error (.error "Invalid delivery receipt.")
  else .ok ()

/-- `{ ...envelope, ...receipt, payload: envelope.payload }`. -/
def acknowledgedEnvelope (envelope : MailboxEnvelope) (receipt : MessageEnvelope) :
    MailboxEnvelope :=
  { envelope with
    toMessageEnvelope := { receipt with payload := envelope.payload }
    properties := assignProperties envelope.properties messageProperties }

/-- One round of the loop of `acknowledgePending`. -/
def acknowledgeOne (scope : ScopeRef) (via : Transport)
    (envelope : MailboxEnvelope) (changes : Changes) : Async Changes := do
  if envelope.payload = none ∨ envelope.delivered_at ≠ none then
    return changes
  assertCurrent scope
  match ← Prog.attempt (awaitGateway (.acknowledgeEnvelope via envelope.id)) with
  | .error _ =>
      -- Delivery is already durable; the missing receipt is retried later.
      assertCurrent scope
      return changes
  | .ok receipt =>
      assertCurrent scope
      Prog.ofExcept (validateReceipt scope.scope envelope receipt)
      let cursor ← awaitInbox (readCursor scope.scope)
      match ← Prog.attempt (awaitInbox (commitPage scope.scope cursor
          [acknowledgedEnvelope envelope receipt] (.integer cursor))) with
      | .ok persisted => return collect changes persisted
      | .error _ =>
          assertCurrent scope
          return changes

/-- The loop of `acknowledgePending`. -/
def acknowledgeAll (scope : ScopeRef) (via : Transport) :
    List MailboxEnvelope → Changes → Async Changes
  | [], changes => return changes
  | envelope :: rest, changes => do
      let changes ← acknowledgeOne scope via envelope changes
      acknowledgeAll scope via rest changes

/-- `acknowledgePending`. -/
def acknowledgePending (scope : ScopeRef) (changes : Changes) : Async Changes := do
  let via ← transport
  let pending ← awaitInbox (getPendingAcknowledgments scope.scope)
  acknowledgeAll scope via pending changes

/-- The `while` loop of `backfillSequences`. -/
def backfillPages (scope : ScopeRef) (through : ℤ) (changes : Changes) : Async Changes :=
  Prog.iterate ((0 : ℤ), changes) fun (after, changes) => do
    if through ≤ after then
      return .inr changes
    assertCurrent scope
    let page ← awaitGateway (.getMailbox .http after 100)
    assertCurrent scope
    Prog.ofExcept (validatePage scope.scope after page)
    let cursor ← awaitInbox (readCursor scope.scope)
    -- `validatePage` has made sure that `nextSeq` is an integer
    match page.nextSeq with
    | .other => Prog.throw (.error "Invalid mailbox cursor")
    | .integer nextSeq =>
        let committed ← awaitInbox (commitPage scope.scope cursor page.envelopes
          (.integer (max cursor nextSeq)))
        let changes := collect changes committed
        if page.hasMore then return .inl (nextSeq, changes) else return .inr changes

/-- `backfillSequences`. -/
def backfillSequences (scope : ScopeRef) (changes : Changes) : Async Changes := do
  if !(← awaitInbox (needsSequenceBackfill scope.scope)) then
    return changes
  let through ← awaitInbox (readCursor scope.scope)
  let changes ← backfillPages scope through changes
  assertCurrent scope
  awaitInbox (finishSequenceBackfill scope.scope)
  return changes

/-- `pageMailbox`. -/
def pageMailbox (scope : ScopeRef) (changes : Changes) : Async Changes :=
  Prog.iterate changes fun changes => do
    assertCurrent scope
    let cursor ← awaitInbox (readCursor scope.scope)
    let via ← transport
    let page ← awaitGateway (.getMailbox via cursor 100)
    assertCurrent scope
    Prog.ofExcept (validatePage scope.scope cursor page)
    let committed ← awaitInbox (commitPage scope.scope cursor page.envelopes page.nextSeq)
    let changes ← acknowledgePending scope (collect changes committed)
    if page.hasMore then return .inl changes else return .inr changes

/-- `enqueue`: operations of one manager run one after the other. -/
def enqueue {α : Type} (operation : Async α) : Async α :=
  .eff .enqueue fun (place : Nat) =>
    .eff (.turn place) fun _ => do
      let result ← Prog.attempt operation
      Prog.eff (.leave place) fun _ => Prog.ofExcept result

/-- The queued operation of `synchronize`. -/
def synchronizeQueued (scope : ScopeRef) : Async SyncChanges := do
  let changes ← backfillSequences scope []
  let changes ← acknowledgePending scope changes
  let changes ← pageMailbox scope changes
  return ⟨← awaitInbox (readCursor scope.scope), changes⟩

/-- `synchronize`. -/
def synchronize : Async SyncChanges := do
  let scope ← currentScope
  enqueue (synchronizeQueued scope)

/-- The mailbox sequence of a live envelope, as `ingest` accepts it. -/
def liveSeq (scope : InboxScope) (envelope : MailboxEnvelope) : Except JsError ℤ :=
  if envelope.recipient_device_id ≠ scope.deviceId then
    .error (.error "Mailbox envelope belongs to a different device.")
  else
    match envelope.mailbox_seq with
    | .other => .error (.error "Invalid mailbox sequence.")
    | .integer seq =>
        if envelope.mailbox_seq.isSafeInteger = false ∨ seq < 1 then
          .error (.error "Invalid mailbox sequence.")
        else .ok seq

/-- The gap check at the head of `ingest`: page the mailbox when the live
envelope is ahead of the cursor, then read the cursor again. -/
def catchUp (scope : ScopeRef) (seq : ℤ) : Async (ℤ × Changes) := do
  let cursor ← awaitInbox (readCursor scope.scope)
  if cursor + 1 < seq then
    let changes ← pageMailbox scope []
    return (← awaitInbox (readCursor scope.scope), changes)
  return (cursor, [])

/-- The queued operation of `ingest`. -/
def ingestQueued (scope : ScopeRef) (envelope : MailboxEnvelope) : Async SyncChanges := do
  assertCurrent scope
  let seq ← Prog.ofExcept (liveSeq scope.scope envelope)
  let (cursor, changes) ← catchUp scope seq
  if cursor + 1 < seq then
    Prog.throw (.error "Mailbox sequence gap; sync stopped.")
  assertCurrent scope
  let committed ← awaitInbox (commitPage scope.scope cursor [envelope]
    (.integer (max cursor seq)))
  let changes ← acknowledgePending scope (collect changes committed)
  return ⟨← awaitInbox (readCursor scope.scope), changes⟩

/-- `ingest`. -/
def ingest (envelope : MailboxEnvelope) : Async SyncChanges := do
  let scope ← currentScope
  enqueue (ingestQueued scope envelope)

end Client
end SecureMessenger
