import SecureMessenger.Client.Runtime
import SecureMessenger.Lib.Dict
import SecureMessenger.Lib.Segment

/-!
# OutgoingManager

The functions of `messaging/outgoingManager.ts` and `publishOutgoing` of
`messaging/messengerService.ts`: sending, confirmation of what may have been
sent, recovery after a reconnect, late acceptances and delivery receipts.

The manager has a durable inbox and gateways with all their methods; its
subscription stays active.  The `changes` of a recovery are kept under the
number of the thread that runs it, which is also what `recovering` holds.

`trace`, `working`, `accepting` and `epochs` only record what happens.
-/

namespace SecureMessenger
namespace Client
namespace Outgoing

open Lib

/-- What the manager does that others can see, and how its recoveries go. -/
inductive Event
  /-- A transmission of the command begins (`sendCommand`). -/
  | sent (clientMessageId : String)
  /-- A transmission has ended; `changed` if it was rejected with
  `delivery_targets_changed`. -/
  | settled (clientMessageId : String) (changed : Bool)
  /-- A lookup of the command has returned `null`. -/
  | absent (clientMessageId : String)
  /-- `publishOutgoing` has finished with the command as accepted. -/
  | published (clientMessageId messageId : String)
  /-- The delivery handlers run. -/
  | delivery (update : MessageDeliveryUpdate)
  /-- `recoverOutgoing` has been called under the scope; it awaits a recovery. -/
  | called (caller : Tid) (scope : Option ScopeRef) (recovery : Tid)
  /-- A recovery begins under the scope. -/
  | recovers (recovery : Tid) (scope : ScopeRef)
  /-- The inbox has returned the commands to recover. -/
  | toRecover (scope : InboxScope) (commands : List OutgoingCommand)
  /-- The commands a recovery goes through. -/
  | listed (recovery : Tid) (commands : List OutgoingCommand) (readStates : List ChatReadState)
  /-- A recovery looks the command up. -/
  | looksUp (recovery : Tid) (clientMessageId : String)
  /-- A recovery skips the command, with these commands in flight. -/
  | skips (recovery : Tid) (clientMessageId : String) (inFlight : List String)

/-- The fields of the manager, the durable inbox and the scope of its
`SyncManager`. -/
structure Fields where
  db : Database
  /-- `SyncManager.current`. -/
  current : Option ScopeRef
  /-- `MessengerService.historyChats`. -/
  historyChats : Option (List String) := none
  /-- `MessengerService.outgoingHandlers` is not empty. -/
  outgoingHandlers : Bool := true
  recovering : Option Tid := none
  inFlight : List String := []
  pendingDeliveries : Dict String (ScopeRef × MessageDeliveryUpdate) := .empty
  /-- The `changes` of the recoveries. -/
  changes : Tid → Dict String OutgoingCommand := fun _ => .empty
  /-- Recoveries that have settled, with their outcomes. -/
  recoveries : List (Tid × Except JsError Unit) := []
  /-- The events so far, the latest first. -/
  trace : List Event := []
  /-- Which operations are working on which commands. -/
  working : List (Tid × String) := []
  /-- Which late acceptances are being handled. -/
  accepting : List (Tid × String) := []
  /-- How many scope objects there have been. -/
  epochs : Nat := 1

/-- What the manager awaits: transactions of the inbox, the gateways, the codec,
the back-off timer and a recovery that is already running. -/
inductive Promise
  | getOutgoing (scope : InboxScope) (clientMessageId : String)
  | putOutgoing (scope : InboxScope) (command : SendMessageRequest) (replaceRejected : Bool)
  | acceptOutgoing (scope : InboxScope) (message : SentMessage)
  | applyDeliveryReceipt (scope : InboxScope) (receipt : MessageEnvelope)
  | getSentMetadata (scope : InboxScope) (messageId : String)
  | mergeSentMetadata (scope : InboxScope) (message : SentMessage)
  | getOutgoingToRecover (scope : InboxScope)
  | readChatReadStates (scope : InboxScope)
  | getDestinationDevices (chatId : String)
  | sendMessage (command : SendMessageRequest)
  | findSentMessage (clientMessageId : String)
  | getSentMessages (after : Option String)
  | buildOutgoing (content : String) (destinationDevices : List DestinationDevice)
  | decodeIncoming (envelope : ClientEnvelope)
  | timer
  | recovery (recovery : Tid)

/-- What a promise resolves to. -/
def Promise.Reply : Promise → Type
  | .getOutgoing _ _ => Option OutgoingCommand
  | .putOutgoing _ _ _ => OutgoingCommand
  | .acceptOutgoing _ _ => OutgoingCommand
  | .applyDeliveryReceipt _ _ => Option OutgoingCommand
  | .getSentMetadata _ _ => Option SentMessage
  | .mergeSentMetadata _ _ => SentMessage
  | .getOutgoingToRecover _ => List OutgoingCommand
  | .readChatReadStates _ => List ChatReadState
  | .getDestinationDevices _ => List DestinationDevice
  | .sendMessage _ => SentMessage
  | .findSentMessage _ => Option SentMessage
  | .getSentMessages _ => SentMessagesPage
  | .buildOutgoing _ _ => List ClientEnvelope
  | .decodeIncoming _ => String
  | .timer => Unit
  | .recovery _ => Unit

/-- What some segments are about. -/
inductive Mark
  /-- `sendText` goes on to send a new message. -/
  | newMessage (clientMessageId : String)
  /-- `recoverCommand` looks whether the command is in flight. -/
  | takes (clientMessageId : String)
  /-- A recovery skips the command or takes it up. -/
  | takesNext (readStates : List ChatReadState) (outgoing : OutgoingCommand)
  /-- `recoverOutgoing` is called. -/
  | recoverOutgoing
  /-- `queueDelivery`. -/
  | queueDelivery (accepted : SentMessage)

/-- Segments and promises of the manager. -/
abbrev Call := Segmented Mark Fields Promise

/-- Answers of the calls. -/
abbrev Call.Answer : Call → Type :=
  Segmented.Answer JsError Promise.Reply

/-- Functions of the manager. -/
abbrev Async := Prog Call Call.Answer JsError

/-- `'Local message storage is not ready. Please sign in again.'`. -/
def notReady : JsError :=
  .error "Local message storage is not ready. Please sign in again."

/-- `'Message session changed.'`. -/
def sessionChanged : JsError :=
  .error "Message session changed."

/-- `isUnconfirmed`. -/
def isUnconfirmed : JsError → Bool
  | .error _ => false
  | .client _ code =>
      decide (code = .delivery_unconfirmed ∨ code = .network_error ∨ code = .server_error ∨
        code = .invalid_response)

/-- `isDeliveryTargetsChanged`. -/
def isDeliveryTargetsChanged : JsError → Bool
  | .error _ => false
  | .client _ code => decide (code = .delivery_targets_changed)

namespace Fields

/-- Record an event. -/
def log (event : Event) (s : Fields) : Fields :=
  { s with trace := event :: s.trace }

/-- `this.sync.scope() !== scope`, which throws without a scope. -/
def sameScope (scope : ScopeRef) (s : Fields) : Except JsError Bool :=
  match s.current with
  | none => .error notReady
  | some current => .ok (decide (current = scope))

/-- Throw unless the scope is still the current one. -/
def checkScope (scope : ScopeRef) (s : Fields) : Except JsError Unit :=
  match s.sameScope scope with
  | .error x => .error x
  | .ok true => .ok ()
  | .ok false => .error sessionChanged

/-- `publishDeliveries`. -/
def publishDeliveries (s : Fields) : Fields :=
  if s.inFlight ≠ [] ∨ s.recovering ≠ none then s
  else
    { s with
      pendingDeliveries := .empty
      trace := ((s.pendingDeliveries.values.filter fun entry =>
        decide (s.current = some entry.1)).map fun entry => .delivery entry.2).reverse ++ s.trace }

/-- `queueDelivery`. -/
def queueDelivery (scope : ScopeRef) (accepted : SentMessage) (s : Fields) : Fields :=
  let state := deliveryState (some accepted)
  { s with
    pendingDeliveries := s.pendingDeliveries.set accepted.id
      (scope, ⟨accepted.id, accepted.chatId, accepted.chatSeq, state.1, state.2⟩)
  }.publishDeliveries

/-- `this.inFlight.add(id)`. -/
def addInFlight (id : String) (s : Fields) : Fields :=
  { s with inFlight := if id ∈ s.inFlight then s.inFlight else s.inFlight ++ [id] }

/-- The `finally` blocks: `this.inFlight.delete(id)`, then the deliveries. -/
def release (id : String) (s : Fields) : Fields :=
  { s with inFlight := s.inFlight.filter fun other => decide (other ≠ id) }.publishDeliveries

/-- An operation takes up a command. -/
def begin (self : Tid) (id : String) (s : Fields) : Fields :=
  { s with working := (self, id) :: s.working }

/-- An operation is done with a command. -/
def finish (self : Tid) (id : String) (s : Fields) : Fields :=
  { s with working := s.working.filter fun entry => decide (entry ≠ (self, id)) }

/-- `changes.set(outgoing.command.client_message_id, outgoing)`. -/
def addChange (recovery : Tid) (outgoing : OutgoingCommand) (s : Fields) : Fields :=
  { s with
    changes := Function.update s.changes recovery
      ((s.changes recovery).set outgoing.command.client_message_id outgoing) }

/-- The end of `publishOutgoing`: the handlers have been called. -/
def publish (commands : List OutgoingCommand) (s : Fields) : Fields :=
  { s with
    trace := (commands.filterMap fun outgoing => outgoing.accepted.map fun accepted =>
      Event.published outgoing.command.client_message_id accepted.id).reverse ++ s.trace }

end Fields

/-- Await a promise. -/
def await (g : Promise) : Async g.Reply :=
  awaits g

/-- A segment that only reads. -/
def reads {α : Type} (f : Fields → Except JsError α) : Async α := do
  Prog.ofExcept (← segment none fun s => (f s, s))

/-- `this.sync.scope()`. -/
def scope : Async ScopeRef :=
  reads fun s => match s.current with
    | none => .error notReady
    | some current => .ok current

/-- `sendCommand`. -/
def sendCommand (command : SendMessageRequest) : Async SentMessage := do
  segment none fun s => ((), s.log (.sent command.client_message_id))
  await (.sendMessage command)

/-- The body of the `try` of one confirmation round. -/
def confirmOnce (command : SendMessageRequest) (scope : ScopeRef) : Async SentMessage := do
  let stored ← await (.getOutgoing scope.scope command.client_message_id)
  reads (·.checkScope scope)
  match stored.bind (·.accepted) with
  | some accepted => return accepted
  | none =>
      let found ← await (.findSentMessage command.client_message_id)
      reads (·.checkScope scope)
      match found with
      | some found => return found
      | none =>
          -- A late confirmation can commit while the lookup is in progress.
          let latest ← await (.getOutgoing scope.scope command.client_message_id)
          reads (·.checkScope scope)
          match latest.bind (·.accepted) with
          | some accepted => return accepted
          | none => sendCommand command

/-- The confirmation rounds of `sendAndConfirm`. -/
def confirm (command : SendMessageRequest) (scope : ScopeRef) : List Nat → Async SentMessage
  | [] => Prog.throw (.client
      "Message delivery is still unconfirmed. Retry to check its status." .delivery_unconfirmed)
  | attempt :: rest => do
      if attempt ≠ 0 then
        await .timer
      reads (·.checkScope scope)
      match ← Prog.attempt (confirmOnce command scope) with
      | .ok accepted => return accepted
      | .error x => if isUnconfirmed x then confirm command scope rest else Prog.throw x

/-- `sendAndConfirm`. -/
def sendAndConfirm (command : SendMessageRequest) (scope : ScopeRef) : Async SentMessage := do
  match ← Prog.attempt (sendCommand command) with
  | .ok accepted => return accepted
  | .error x => if isUnconfirmed x then confirm command scope [0, 1, 2] else Prog.throw x

/-- The loop of `publishOutgoing`; `false` if the scope has changed. -/
def decodeEach (scope : ScopeRef) : List OutgoingCommand → Async Bool
  | [] => return true
  | outgoing :: rest => do
      let shown ← segment none fun s =>
        (match s.historyChats with
          | none => true
          | some chats => decide (outgoing.command.chat_id ∈ chats), s)
      if shown then
        match outgoing.command.envelopes.head? with
        | none => decodeEach scope rest
        | some envelope =>
            let _ ← await (.decodeIncoming envelope)
            if ← reads (·.sameScope scope) then decodeEach scope rest else return false
      else decodeEach scope rest

/-- `publishOutgoing`. -/
def publishOutgoing (commands : List OutgoingCommand) (scope : ScopeRef) : Async Unit := do
  let handled ← segment none fun s => (s.outgoingHandlers && !commands.isEmpty, s)
  if handled then
    if ← reads (·.sameScope scope) then
      if ← decodeEach scope commands then
        segment none fun s => ((), s.publish commands)
  else segment none fun s => ((), s.publish commands)

/-- `outgoingChanged`; `changes` is the recovery that collects the change. -/
def outgoingChanged (outgoing : OutgoingCommand) (scope : ScopeRef) (changes : Option Tid) :
    Async Unit :=
  match changes with
  | some recovery => segment none fun s => ((), s.addChange recovery outgoing)
  | none => publishOutgoing [outgoing] scope

/-- The `try` of one attempt of `sendNewText`. -/
def sendOnce (scope : ScopeRef) (command : SendMessageRequest) (replaceRejected : Bool)
    (changes : Option Tid) : Async SentMessage := do
  segment none fun s => ((), s.addInFlight command.client_message_id)
  let outgoing ← await (.putOutgoing scope.scope command replaceRejected)
  outgoingChanged outgoing scope changes
  reads (·.checkScope scope)
  let accepted ← sendAndConfirm command scope
  let outgoing ← await (.acceptOutgoing scope.scope accepted)
  outgoingChanged outgoing scope changes
  return accepted

/-- The attempts of `sendNewText` that are left. -/
def sendAttempts (scope : ScopeRef) (chatId content id : String) (changes : Option Tid) :
    Nat → Bool → Async SentMessage
  | 0, _ => Prog.throw (.error "Message delivery failed.")
  | attempts + 1, replaceRejected => do
      let destinationDevices ← await (.getDestinationDevices chatId)
      if destinationDevices.all fun device => decide (device.userId = some scope.scope.userId) then
        Prog.throw (.client "This person has no available devices to receive messages. Try again after they register a device."
          .no_recipient_devices)
      let envelopes ← await (.buildOutgoing content destinationDevices)
      let result ← Prog.attempt (sendOnce scope ⟨chatId, id, envelopes⟩ replaceRejected changes)
      segment none fun s => ((), s.release id)
      match result with
      | .ok accepted => return accepted
      | .error x =>
          if isDeliveryTargetsChanged x && decide (attempts ≠ 0) then
            sendAttempts scope chatId content id changes attempts true
          else Prog.throw x

/-- `sendNewText`. -/
def sendNewText (chatId content id : String) (replaceRejected : Bool) (changes : Option Tid) :
    Async SentMessage := do
  sendAttempts (← scope) chatId content id changes 2 replaceRejected

/-- The `try` of `recoverCommand`, from the lookup on. -/
def confirmCommand (scope : ScopeRef) (outgoing : OutgoingCommand) (changes : Option Tid) :
    Async SentMessage := do
  let found ← await (.findSentMessage outgoing.command.client_message_id)
  reads (·.checkScope scope)
  let accepted ← match found with
    | some found => pure found
    | none =>
        match outgoing.accepted with
        -- A formerly accepted message must never become a new send.
        | some accepted => pure accepted
        | none => do
            let latest ← await (.getOutgoing scope.scope outgoing.command.client_message_id)
            reads (·.checkScope scope)
            match latest.bind (·.accepted) with
            | some accepted => pure accepted
            | none => sendAndConfirm outgoing.command scope
  let updated ← await (.acceptOutgoing scope.scope accepted)
  if updated.accepted ≠ outgoing.accepted then
    outgoingChanged updated scope changes
  return accepted

/-- The `catch` of `recoverCommand` for changed delivery targets. -/
def resend (scope : ScopeRef) (outgoing : OutgoingCommand) (changes : Option Tid) :
    Async SentMessage := do
  reads (·.checkScope scope)
  match outgoing.command.envelopes.head? with
  | none => Prog.throw (.error "Cannot read properties of undefined")
  | some envelope =>
      let content ← await (.decodeIncoming envelope)
      reads (·.checkScope scope)
      sendNewText outgoing.command.chat_id content outgoing.command.client_message_id true changes

/-- `recoverCommand` after it has put the command in flight. -/
def recoverTaken (self : Tid) (scope : ScopeRef) (outgoing : OutgoingCommand)
    (changes : Option Tid) : Async SentMessage := do
  let result ← match ← Prog.attempt (confirmCommand scope outgoing changes) with
    | .ok accepted => pure (.ok accepted)
    | .error x =>
        if outgoing.accepted.isNone && isDeliveryTargetsChanged x then
          Prog.attempt (resend scope outgoing changes)
        else pure (.error x)
  segment none fun s =>
    ((), (s.finish self outgoing.command.client_message_id).release
      outgoing.command.client_message_id)
  Prog.ofExcept result

/-- The head of `recoverCommand`: put the command in flight. -/
def Fields.take (self : Tid) (id : String) (s : Fields) : Except JsError ScopeRef × Fields :=
  match s.current with
  | none => (.error notReady, s)
  | some scope =>
      if id ∈ s.inFlight then
        (.error (.client "Message confirmation is already in progress." .delivery_unconfirmed), s)
      else (.ok scope, (s.begin self id).addInFlight id)

/-- `recoverCommand`. -/
def recoverCommand (self : Tid) (outgoing : OutgoingCommand) (changes : Option Tid) :
    Async SentMessage := do
  let scope ← Prog.ofExcept (← segment (some (.takes outgoing.command.client_message_id))
    (Fields.take self outgoing.command.client_message_id))
  recoverTaken self scope outgoing changes

/-- The end of `sendText`: a new message. -/
def sendNewMessage (self : Tid) (chatId content id : String) : Async SentMessage := do
  segment (some (.newMessage id)) fun s => ((), s.begin self id)
  let result ← Prog.attempt (sendNewText chatId content id false none)
  segment none fun s => ((), s.finish self id)
  Prog.ofExcept result

/-- `sendText`; `created` is what `createClientMessageId` returns. -/
def sendText (self : Tid) (chatId content : String) (clientMessageId : Option String)
    (created : String) : Async SentMessage := do
  let scope ← scope
  match clientMessageId with
  | none => sendNewMessage self chatId content created
  | some id =>
      -- an empty identifier is falsy
      if id = "" then
        sendNewMessage self chatId content id
      else
        let existing ← await (.getOutgoing scope.scope id)
        reads (·.checkScope scope)
        match existing with
        | some existing =>
            if existing.command.chat_id ≠ chatId then
              Prog.throw (.error "Outgoing command belongs to another chat.")
            recoverCommand self existing none
        | none => sendNewMessage self chatId content id

/-- `retryOutgoing`. -/
def retryOutgoing (self : Tid) (clientMessageId : String) : Async Unit := do
  let scope ← scope
  let outgoing ← await (.getOutgoing scope.scope clientMessageId)
  reads (·.checkScope scope)
  match outgoing with
  | none => return ()
  | some outgoing =>
      let _ ← recoverCommand self outgoing none
      return ()

/-- The rules by which a recovery skips a command. -/
def skipped (inFlight : List String) (readStates : List ChatReadState)
    (outgoing : OutgoingCommand) : Bool :=
  decide (outgoing.command.client_message_id ∈ inFlight) ||
    match outgoing.accepted with
    | none => false
    | some accepted =>
        (match accepted.chatSeq with
          | none => false
          | some seq => decide (seq ≠ 0) && decide ((seq : ℤ) ≤
              ((readStates.reverse.find? fun state =>
                decide (state.chatId = outgoing.command.chat_id)).map (·.peerLastReadSeq)).getD 0))
          || (!accepted.envelopes.isEmpty &&
              accepted.envelopes.all fun item => item.delivered_at.isSome)

/-- The head of one round of the recovery loop: skip the command, or put it in
flight and look it up. -/
def Fields.takeNext (self : Tid) (scope : ScopeRef) (readStates : List ChatReadState)
    (outgoing : OutgoingCommand) (s : Fields) : Except JsError Bool × Fields :=
  match s.checkScope scope with
  | .error x => (.error x, s)
  | .ok () =>
      if skipped s.inFlight readStates outgoing then
        (.ok false, s.log (.skips self outgoing.command.client_message_id s.inFlight))
      else
        (.ok true, ((s.begin self outgoing.command.client_message_id).addInFlight
          outgoing.command.client_message_id).log
            (.looksUp self outgoing.command.client_message_id))

/-- The loop of `recoverOutgoing`. -/
def recoverEach (self : Tid) (scope : ScopeRef) (readStates : List ChatReadState) :
    List OutgoingCommand → Async Unit
  | [] => return ()
  | outgoing :: rest => do
      if ← Prog.ofExcept (← segment (some (.takesNext readStates outgoing))
          (Fields.takeNext self scope readStates outgoing)) then
        match ← Prog.attempt (recoverTaken self scope outgoing (some self)) with
        | .ok _ => recoverEach self scope readStates rest
        | .error _ => do
            -- One unconfirmed command must not block other messages or inbox display.
            reads (·.checkScope scope)
            recoverEach self scope readStates rest
      else recoverEach self scope readStates rest

/-- The `operation` of `recoverOutgoing`. -/
def recovery (self : Tid) (scope : ScopeRef) : Async Unit := do
  let readStates ← await (.readChatReadStates scope.scope)
  let commands ← await (.getOutgoingToRecover scope.scope)
  segment none fun s => ((), s.log (.listed self commands readStates))
  recoverEach self scope readStates commands
  let changes ← segment none fun s => ((s.changes self).values, s)
  publishOutgoing changes scope

/-- The head of `recoverOutgoing`: join a running recovery or begin one. -/
def Fields.joinOrBegin (self : Tid) (s : Fields) : Except JsError (Tid ⊕ ScopeRef) × Fields :=
  match s.recovering with
  | some running => (.ok (.inl running), s.log (.called self s.current running))
  | none =>
      match s.current with
      | none => (.error notReady, s)
      | some scope =>
          (.ok (.inr scope),
            ({ s with recovering := some self }.log (.recovers self scope)).log
              (.called self s.current self))

/-- The `finally` of `recoverOutgoing`. -/
def Fields.endRecovery (self : Tid) (outcome : Except JsError Unit) (s : Fields) : Fields :=
  { s with
    recovering := none
    recoveries := (self, outcome) :: s.recoveries }.publishDeliveries

/-- `recoverOutgoing`. -/
def recoverOutgoing (self : Tid) : Async Unit := do
  match ← Prog.ofExcept (← segment (some .recoverOutgoing) (Fields.joinOrBegin self)) with
  | .inl running => await (.recovery running)
  | .inr scope =>
      let outcome ← Prog.attempt (recovery self scope)
      segment none fun s => ((), s.endRecovery self outcome)
      Prog.ofExcept outcome

/-- Queue the delivery of a merged message, if the scope is still the same. -/
def queueMerged (scope : ScopeRef) (accepted : SentMessage) (s : Fields) :
    Except JsError Unit × Fields :=
  match s.checkScope scope with
  | .error x => (.error x, s)
  | .ok () => (.ok (), s.queueDelivery scope accepted)

/-- The messages of a page of `recoverSentMetadata`. -/
def mergeEach (scope : ScopeRef) : List SentMessage → Async Unit
  | [] => return ()
  | message :: rest => do
      let accepted ← await (.mergeSentMetadata scope.scope message)
      Prog.ofExcept (← segment (some (.queueDelivery accepted)) (queueMerged scope accepted))
      mergeEach scope rest

/-- `recoverSentMetadata`. -/
def recoverSentMetadata (scope : ScopeRef) : Async Unit :=
  Prog.iterate (none : Option String) fun after => do
    let page ← await (.getSentMessages after)
    reads (·.checkScope scope)
    mergeEach scope page.messages
    if !page.hasMore then
      return .inr ()
    if page.nextMessageId = none ∨ page.nextMessageId = some "" ∨ page.nextMessageId = after then
      Prog.throw (.error "Sent metadata paging did not advance.")
    return .inl page.nextMessageId

/-- The last segment of `handleDeliveryReceipt`. -/
def queueAccepted (scope : ScopeRef) (accepted : SentMessage) (s : Fields) :
    Except JsError Unit × Fields :=
  match s.sameScope scope with
  | .error x => (.error x, s)
  | .ok true => (.ok (), s.queueDelivery scope accepted)
  | .ok false => (.ok (), s)

/-- The end of `handleDeliveryReceipt`. -/
def queueReceipt (scope : ScopeRef) (accepted : SentMessage) : Async Unit := do
  Prog.ofExcept (← segment (some (.queueDelivery accepted)) (queueAccepted scope accepted))

/-- `handleDeliveryReceipt`. -/
def handleDeliveryReceipt (receipt : MessageEnvelope) : Async Unit := do
  let scope ← scope
  let outgoing ← await (.applyDeliveryReceipt scope.scope receipt)
  if ← reads (·.sameScope scope) then
    match outgoing.bind (·.accepted) with
    | some accepted => queueReceipt scope accepted
    | none =>
        match ← await (.getSentMetadata scope.scope receipt.message_id) with
        | some accepted => queueReceipt scope accepted
        | none =>
            recoverSentMetadata scope
            match ← await (.getSentMetadata scope.scope receipt.message_id) with
            | some accepted => queueReceipt scope accepted
            | none => return ()

/-- A late acceptance of a command is being handled. -/
def Fields.beginAccepting (self : Tid) (id : String) (s : Fields) : Fields :=
  { s with accepting := (self, id) :: s.accepting }

/-- A late acceptance has been handled. -/
def Fields.endAccepting (self : Tid) (id : String) (s : Fields) : Fields :=
  { s with accepting := s.accepting.filter fun entry => decide (entry ≠ (self, id)) }

/-- The end of `handleAccepted`: store the acceptance and publish it. -/
def acceptLate (scope : ScopeRef) (message : SentMessage) : Async Unit := do
  let updated ← await (.acceptOutgoing scope.scope message)
  if ← reads (·.sameScope scope) then
    outgoingChanged updated scope none

/-- `handleAccepted`. -/
def handleAccepted (self : Tid) (message : SentMessage) : Async Unit := do
  let scope ← scope
  let outgoing ← await (.getOutgoing scope.scope message.clientMessageId)
  if ← reads (·.sameScope scope) then
    if outgoing.isSome then
      segment none fun s => ((), s.beginAccepting self message.clientMessageId)
      let result ← Prog.attempt (acceptLate scope message)
      segment none fun s => ((), s.endAccepting self message.clientMessageId)
      Prog.ofExcept result

/-! ### The manager as a concurrent system -/

/-- A transaction of the inbox runs, or is aborted from outside; what an
aborted transaction throws is no `ClientError`. -/
def Fields.stores {α : Type} (tx : Transaction α) (s : Fields) (r : Except JsError α)
    (s' : Fields) : Prop :=
  ∃ db, s' = { s with db := db } ∧
    (Inbox.runs tx s.db r db ∨ (db = s.db ∧ ∃ reason, r = .error (.error reason)))

/-- The transmission was rejected because the delivery targets have changed. -/
def targetsChanged {α : Type} : Except JsError α → Bool
  | .ok _ => false
  | .error x => isDeliveryTargetsChanged x

/-- How promises settle. -/
def settles : (g : Promise) → Fields → Except JsError g.Reply → Fields → Prop
  | .getOutgoing scope id, s, r, s' => s.stores (Client.getOutgoing scope id) r s'
  | .putOutgoing scope command replaceRejected, s, r, s' =>
      ∃ now, s.stores (Client.putOutgoing scope command replaceRejected now) r s'
  | .acceptOutgoing scope message, s, r, s' => s.stores (Client.acceptOutgoing scope message) r s'
  | .applyDeliveryReceipt scope receipt, s, r, s' =>
      s.stores (Client.applyDeliveryReceipt scope receipt) r s'
  | .getSentMetadata scope id, s, r, s' => s.stores (Client.getSentMetadata scope id) r s'
  | .mergeSentMetadata scope message, s, r, s' =>
      s.stores (Client.mergeSentMetadata scope message) r s'
  | .getOutgoingToRecover scope, s, (r : Except JsError (List OutgoingCommand)), s' =>
      ∃ s₁, s.stores (Client.getOutgoingToRecover scope) r s₁ ∧
        s' = match r with
          | .ok commands => s₁.log (.toRecover scope commands)
          | .error _ => s₁
  | .readChatReadStates scope, s, r, s' => s.stores (Client.readChatReadStates scope) r s'
  | .sendMessage command, s, r, s' =>
      s' = s.log (.settled command.client_message_id (targetsChanged r))
  | .findSentMessage id, s, (r : Except JsError (Option SentMessage)), s' =>
      s' = if r = .ok none then s.log (.absent id) else s
  | .getDestinationDevices _, s, _, s' => s' = s
  | .getSentMessages _, s, _, s' => s' = s
  | .buildOutgoing _ _, s, _, s' => s' = s
  | .decodeIncoming _, s, _, s' => s' = s
  | .timer, s, _, s' => s' = s
  | .recovery n, s, (r : Except JsError Unit), s' => (n, r) ∈ s.recoveries ∧ s' = s

/-- What is called on the manager and what reaches it. -/
inductive Op
  | sendText (chatId content : String) (clientMessageId : Option String) (created : String)
  | retryOutgoing (clientMessageId : String)
  | recoverOutgoing
  | accepted (message : SentMessage)
  | delivered (receipt : MessageEnvelope)

/-- The program of an operation. -/
def Op.prog (self : Tid) : Op → Async Unit
  | .sendText chatId content clientMessageId created => do
      let _ ← Outgoing.sendText self chatId content clientMessageId created
      return ()
  | .retryOutgoing clientMessageId => Outgoing.retryOutgoing self clientMessageId
  | .recoverOutgoing => Outgoing.recoverOutgoing self
  | .accepted message => handleAccepted self message
  | .delivered receipt => handleDeliveryReceipt receipt

/-- The manager within one session. -/
def manager : System Call Call.Answer JsError Fields Op where
  exec := Segmented.exec settles
  prog := fun self op => op.prog self
  start := fun _ _ s s' => s' = s
  stop := fun _ _ _ => False
  env := fun _ _ => False

/-- `activate` and `deactivate` replace the scope by a new object, or drop it. -/
def Fields.signs (s s' : Fields) : Prop :=
  s' = { s with current := none } ∨
    ∃ scope, s' = { s with current := some ⟨scope, s.epochs⟩, epochs := s.epochs + 1 }

/-- The manager while sessions come and go. -/
def sessions : System Call Call.Answer JsError Fields Op :=
  { manager with env := Fields.signs }

/-! ### The events of a step -/

/-- A step that adds events of a kind. -/
def Adds (P : Event → Prop) (s s' : Fields) : Prop :=
  ∃ new, s'.trace = new ++ s.trace ∧ ∀ event ∈ new, P event

section Events

variable {P : Event → Prop} {s s' s'' : Fields}

theorem Adds.of_trace (h : s'.trace = s.trace) : Adds P s s' :=
  ⟨[], h, fun _ hmem => by cases hmem⟩

theorem Adds.trans (h : Adds P s s') (h' : Adds P s' s'') : Adds P s s'' := by
  obtain ⟨new, ht, hnew⟩ := h
  obtain ⟨new', ht', hnew'⟩ := h'
  refine ⟨new' ++ new, by rw [ht', ht, List.append_assoc], fun event hmem => ?_⟩
  rcases List.mem_append.mp hmem with hmem | hmem
  · exact hnew' event hmem
  · exact hnew event hmem

theorem Adds.log {event : Event} (h : P event) (s : Fields) : Adds P s (s.log event) :=
  ⟨[event], rfl, fun e he => by rw [List.mem_singleton.mp he]; exact h⟩

theorem adds_publishDeliveries (h : ∀ update, P (.delivery update)) (s : Fields) :
    Adds P s s.publishDeliveries := by
  unfold Fields.publishDeliveries
  split
  · exact .of_trace rfl
  · refine ⟨_, rfl, fun event hmem => ?_⟩
    rw [List.mem_reverse] at hmem
    obtain ⟨entry, -, rfl⟩ := List.mem_map.mp hmem
    exact h _

theorem adds_publish (h : ∀ id messageId, P (.published id messageId))
    (commands : List OutgoingCommand) (s : Fields) : Adds P s (s.publish commands) := by
  refine ⟨_, rfl, fun event hmem => ?_⟩
  rw [List.mem_reverse] at hmem
  obtain ⟨outgoing, -, he⟩ := List.mem_filterMap.mp hmem
  obtain ⟨accepted, -, rfl⟩ := Option.map_eq_some_iff.mp he
  exact h _ _

@[simp] theorem publishDeliveries_recoveries (s : Fields) :
    s.publishDeliveries.recoveries = s.recoveries := by
  unfold Fields.publishDeliveries
  split
  · rfl
  · rfl

end Events

/-! ### The calls of the operations -/

/-- The command that a promise transmits or looks up. -/
def Promise.command : Promise → Option String
  | .sendMessage command => some command.client_message_id
  | .findSentMessage clientMessageId => some clientMessageId
  | _ => none

/-- What a property of calls must hold of, to hold of all calls that neither
take up a command, transmit it nor look it up. -/
structure CoversQuiet (P : Call → Prop) (t : Tid) : Prop where
  promise : ∀ g : Promise, g.command = none → P (.settle g)
  read : ∀ {α : Type} (f : Fields → α), P (.segment none fun s => (f s, s))
  publish : ∀ commands, P (.segment none fun s => ((), s.publish commands))
  addChange : ∀ n outgoing, P (.segment none fun s => ((), s.addChange n outgoing))
  merge : ∀ scope accepted,
    P (.segment (some (.queueDelivery accepted)) (queueMerged scope accepted))
  receipt : ∀ scope accepted,
    P (.segment (some (.queueDelivery accepted)) (queueAccepted scope accepted))
  beginAccepting : ∀ id, P (.segment none fun s => ((), s.beginAccepting t id))
  endAccepting : ∀ id, P (.segment none fun s => ((), s.endAccepting t id))

/-- What it must hold of, to hold of all calls of the manager but those that
begin and end a recovery. -/
structure Covers (P : Call → Prop) (t : Tid) : Prop where
  quiet : CoversQuiet P t
  commanded : ∀ g : Promise, g.command ≠ none → P (.settle g)
  log_sent : ∀ id, P (.segment none fun s => ((), s.log (.sent id)))
  addInFlight : ∀ id, P (.segment none fun s => ((), s.addInFlight id))
  release : ∀ id, P (.segment none fun s => ((), s.release id))
  newMessage : ∀ id, P (.segment (some (.newMessage id)) fun s => ((), s.begin t id))
  finish : ∀ id, P (.segment none fun s => ((), s.finish t id))
  finishTaken : ∀ id, P (.segment none fun s => ((), (s.finish t id).release id))
  take : ∀ id, P (.segment (some (.takes id)) (Fields.take t id))
  takeNext : ∀ scope readStates outgoing, P (.segment (some (.takesNext readStates outgoing))
    (Fields.takeNext t scope readStates outgoing))
  listed : ∀ commands readStates,
    P (.segment none fun s => ((), s.log (.listed t commands readStates)))

section Calls

variable {P : Call → Prop} {self : Tid}

theorem calls_ofExcept {α : Type} (r : Except JsError α) :
    Prog.Calls P (Prog.ofExcept r : Async α) := by
  cases r with
  | ok a => trivial
  | error x => trivial

section Quiet

variable (h : CoversQuiet P self)

include h

theorem CoversQuiet.await {g : Promise} (hg : g.command = none) : Prog.Calls P (await g) :=
  calls_awaits (h.promise g hg)

theorem CoversQuiet.reads {α : Type} (f : Fields → Except JsError α) : Prog.Calls P (reads f) :=
  .bind (calls_segment (h.read f)) calls_ofExcept

theorem CoversQuiet.decodeEach (scope : ScopeRef) (commands : List OutgoingCommand) :
    Prog.Calls P (decodeEach scope commands) := by
  induction commands with
  | nil => trivial
  | cons outgoing rest ih =>
      unfold Outgoing.decodeEach
      refine .bind (calls_segment (h.read _)) fun shown => ?_
      split
      · split
        · exact ih
        · refine .bind (h.await rfl) fun _ => .bind (h.reads _) fun same => ?_
          split
          · exact ih
          · trivial
      · exact ih

theorem CoversQuiet.publishOutgoing (commands : List OutgoingCommand) (scope : ScopeRef) :
    Prog.Calls P (publishOutgoing commands scope) := by
  unfold Outgoing.publishOutgoing
  refine .bind (calls_segment (h.read _)) fun handled => ?_
  split
  · refine .bind (h.reads _) fun same => ?_
    split
    · refine .bind (h.decodeEach scope commands) fun finished => ?_
      split
      · exact calls_segment (h.publish commands)
      · trivial
    · trivial
  · exact calls_segment (h.publish commands)

theorem CoversQuiet.outgoingChanged (outgoing : OutgoingCommand) (scope : ScopeRef)
    (changes : Option Tid) : Prog.Calls P (outgoingChanged outgoing scope changes) := by
  cases changes with
  | some n => exact calls_segment (h.addChange n outgoing)
  | none => exact h.publishOutgoing _ scope

theorem CoversQuiet.mergeEach (scope : ScopeRef) (messages : List SentMessage) :
    Prog.Calls P (mergeEach scope messages) := by
  induction messages with
  | nil => trivial
  | cons message rest ih =>
      exact .bind (h.await rfl) fun accepted => .bind (calls_segment (h.merge scope accepted))
        fun r => .bind (calls_ofExcept r) fun _ => ih

theorem CoversQuiet.recoverSentMetadata (scope : ScopeRef) :
    Prog.Calls P (recoverSentMetadata scope) := by
  refine ⟨fun after => ?_, fun r => calls_ofExcept r⟩
  refine .bind (h.await rfl) fun page => .bind (h.reads _) fun _ =>
    .bind (h.mergeEach scope _) fun _ => ?_
  split
  · trivial
  · split
    · trivial
    · trivial

theorem CoversQuiet.queueReceipt (scope : ScopeRef) (accepted : SentMessage) :
    Prog.Calls P (queueReceipt scope accepted) :=
  .bind (calls_segment (h.receipt scope accepted)) fun r => calls_ofExcept r

theorem CoversQuiet.handleDeliveryReceipt (receipt : MessageEnvelope) :
    Prog.Calls P (handleDeliveryReceipt receipt) := by
  unfold Outgoing.handleDeliveryReceipt
  refine .bind (h.reads _) fun scope => .bind (h.await rfl) fun outgoing =>
    .bind (h.reads _) fun same => ?_
  split
  · split
    · exact h.queueReceipt scope _
    · refine .bind (h.await rfl) fun metadata => ?_
      split
      · exact h.queueReceipt scope _
      · refine .bind (h.recoverSentMetadata scope) fun _ => .bind (h.await rfl) fun metadata => ?_
        split
        · exact h.queueReceipt scope _
        · trivial
  · trivial

theorem CoversQuiet.handleAccepted (message : SentMessage) :
    Prog.Calls P (handleAccepted self message) := by
  unfold Outgoing.handleAccepted acceptLate
  refine .bind (h.reads _) fun scope => .bind (h.await rfl) fun outgoing =>
    .bind (h.reads _) fun same => ?_
  split
  · split
    · refine .bind (calls_segment (h.beginAccepting _)) fun _ => .bind (.attempt ?_) fun r =>
        .bind (calls_segment (h.endAccepting _)) fun _ => calls_ofExcept r
      refine .bind (h.await rfl) fun updated => .bind (h.reads _) fun same => ?_
      split
      · exact h.outgoingChanged updated scope none
      · trivial
    · trivial
  · trivial

end Quiet

variable (h : Covers P self)

include h

theorem Covers.await (g : Promise) : Prog.Calls P (await g) := by
  by_cases hg : g.command = none
  · exact h.quiet.await hg
  · exact calls_awaits (h.commanded g hg)

theorem Covers.sendCommand (command : SendMessageRequest) : Prog.Calls P (sendCommand command) :=
  .bind (calls_segment (h.log_sent _)) fun _ => h.await _

theorem Covers.confirmOnce (command : SendMessageRequest) (scope : ScopeRef) :
    Prog.Calls P (confirmOnce command scope) := by
  unfold Outgoing.confirmOnce
  refine .bind (h.await _) fun stored => .bind (h.quiet.reads _) fun _ => ?_
  split
  · trivial
  · refine .bind (h.await _) fun found => .bind (h.quiet.reads _) fun _ => ?_
    split
    · trivial
    · refine .bind (h.await _) fun latest => .bind (h.quiet.reads _) fun _ => ?_
      split
      · trivial
      · exact h.sendCommand command

theorem Covers.confirm (command : SendMessageRequest) (scope : ScopeRef) (attempts : List Nat) :
    Prog.Calls P (confirm command scope attempts) := by
  induction attempts with
  | nil => trivial
  | cons attempt rest ih =>
      have hround : Prog.Calls P (do
          Outgoing.reads (·.checkScope scope)
          match ← Prog.attempt (Outgoing.confirmOnce command scope) with
          | .ok accepted => return accepted
          | .error x =>
              if isUnconfirmed x then Outgoing.confirm command scope rest else Prog.throw x :
          Async SentMessage) := by
        refine .bind (h.quiet.reads _) fun _ =>
          .bind (.attempt (h.confirmOnce command scope)) fun r => ?_
        rcases r with x | accepted
        · simp only
          split
          · exact ih
          · trivial
        · trivial
      unfold Outgoing.confirm
      split
      · exact .bind (h.await _) fun _ => hround
      · exact hround

theorem Covers.sendAndConfirm (command : SendMessageRequest) (scope : ScopeRef) :
    Prog.Calls P (sendAndConfirm command scope) := by
  unfold Outgoing.sendAndConfirm
  refine .bind (.attempt (h.sendCommand command)) fun r => ?_
  rcases r with x | accepted
  · simp only
    split
    · exact h.confirm command scope _
    · trivial
  · trivial

theorem Covers.sendOnce (scope : ScopeRef) (command : SendMessageRequest) (replaceRejected : Bool)
    (changes : Option Tid) : Prog.Calls P (sendOnce scope command replaceRejected changes) := by
  unfold Outgoing.sendOnce
  refine .bind (calls_segment (h.addInFlight _)) fun _ => .bind (h.await _) fun outgoing =>
    .bind (h.quiet.outgoingChanged outgoing scope changes) fun _ => .bind (h.quiet.reads _) fun _ =>
      .bind (h.sendAndConfirm command scope) fun accepted => .bind (h.await _) fun outgoing => ?_
  exact .bind (h.quiet.outgoingChanged outgoing scope changes) fun _ => trivial

theorem Covers.sendAttempts (scope : ScopeRef) (chatId content id : String) (changes : Option Tid)
    (attempts : Nat) (replaceRejected : Bool) :
    Prog.Calls P (sendAttempts scope chatId content id changes attempts replaceRejected) := by
  induction attempts generalizing replaceRejected with
  | zero => trivial
  | succ attempts ih =>
      unfold Outgoing.sendAttempts
      refine .bind (h.await _) fun destinationDevices => ?_
      split
      · trivial
      · refine .bind (h.await _) fun envelopes =>
          .bind (.attempt (h.sendOnce scope _ replaceRejected changes)) fun r =>
            .bind (calls_segment (h.release id)) fun _ => ?_
        rcases r with x | accepted
        · simp only
          split
          · exact ih true
          · trivial
        · trivial

theorem Covers.sendNewText (chatId content id : String) (replaceRejected : Bool)
    (changes : Option Tid) :
    Prog.Calls P (sendNewText chatId content id replaceRejected changes) :=
  .bind (h.quiet.reads _) fun scope =>
    h.sendAttempts scope chatId content id changes 2 replaceRejected

theorem Covers.confirmCommand (scope : ScopeRef) (outgoing : OutgoingCommand)
    (changes : Option Tid) : Prog.Calls P (confirmCommand scope outgoing changes) := by
  unfold Outgoing.confirmCommand
  have hend : ∀ accepted : SentMessage, Prog.Calls P (do
      let updated ← Outgoing.await (.acceptOutgoing scope.scope accepted)
      if updated.accepted ≠ outgoing.accepted then
        Outgoing.outgoingChanged updated scope changes
      return accepted : Async SentMessage) := by
    intro accepted
    refine .bind (h.await _) fun updated => ?_
    split
    · exact .bind (h.quiet.outgoingChanged _ scope changes) fun _ => trivial
    · trivial
  refine .bind (h.await _) fun found => .bind (h.quiet.reads _) fun _ => ?_
  split
  · exact hend _
  · split
    · exact hend _
    · refine .bind (h.await _) fun latest => .bind (h.quiet.reads _) fun _ => ?_
      split
      · exact hend _
      · exact .bind (h.sendAndConfirm _ scope) hend

theorem Covers.resend (scope : ScopeRef) (outgoing : OutgoingCommand) (changes : Option Tid) :
    Prog.Calls P (resend scope outgoing changes) := by
  unfold Outgoing.resend
  refine .bind (h.quiet.reads _) fun _ => ?_
  split
  · trivial
  · exact .bind (h.await _) fun content => .bind (h.quiet.reads _) fun _ =>
      h.sendNewText _ content _ true changes

theorem Covers.recoverTaken (scope : ScopeRef) (outgoing : OutgoingCommand)
    (changes : Option Tid) : Prog.Calls P (recoverTaken self scope outgoing changes) := by
  unfold Outgoing.recoverTaken
  have hend : ∀ r : Except JsError SentMessage, Prog.Calls P (do
      segment none fun s => ((), (s.finish self outgoing.command.client_message_id).release
        outgoing.command.client_message_id)
      Prog.ofExcept r : Async SentMessage) :=
    fun r => .bind (calls_segment (h.finishTaken _)) fun _ => calls_ofExcept r
  refine .bind (.attempt (h.confirmCommand scope outgoing changes)) fun r => ?_
  rcases r with x | accepted
  · simp only
    split
    · exact .bind (.attempt (h.resend scope outgoing changes)) hend
    · exact hend _
  · exact hend _

theorem Covers.recoverCommand (outgoing : OutgoingCommand) (changes : Option Tid) :
    Prog.Calls P (recoverCommand self outgoing changes) :=
  .bind (calls_segment (h.take _)) fun r => .bind (calls_ofExcept r) fun scope =>
    h.recoverTaken scope outgoing changes

theorem Covers.sendNewMessage (chatId content id : String) :
    Prog.Calls P (sendNewMessage self chatId content id) :=
  .bind (calls_segment (h.newMessage id)) fun _ =>
    .bind (.attempt (h.sendNewText chatId content id false none)) fun r =>
      .bind (calls_segment (h.finish id)) fun _ => calls_ofExcept r

theorem Covers.sendText (chatId content : String) (clientMessageId : Option String)
    (created : String) : Prog.Calls P (sendText self chatId content clientMessageId created) := by
  unfold Outgoing.sendText
  refine .bind (h.quiet.reads _) fun scope => ?_
  split
  · exact h.sendNewMessage chatId content created
  · split
    · exact h.sendNewMessage chatId content _
    · refine .bind (h.await _) fun existing => .bind (h.quiet.reads _) fun _ => ?_
      split
      · split
        · trivial
        · exact h.recoverCommand _ none
      · exact h.sendNewMessage chatId content _

theorem Covers.retryOutgoing (clientMessageId : String) :
    Prog.Calls P (retryOutgoing self clientMessageId) := by
  unfold Outgoing.retryOutgoing
  refine .bind (h.quiet.reads _) fun scope => .bind (h.await _) fun outgoing =>
    .bind (h.quiet.reads _) fun _ => ?_
  split
  · trivial
  · exact .bind (h.recoverCommand _ none) fun _ => trivial

end Calls

end Outgoing
end Client
end SecureMessenger
