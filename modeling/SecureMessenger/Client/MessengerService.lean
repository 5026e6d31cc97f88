import SecureMessenger.Client.ChatStore
import SecureMessenger.Client.SyncManager

/-!
# MessengerService

How `messengerService.ts` turns envelopes and commands into messages: the
mailbox, a page of the history and the live handler.  The calls that a function
awaits are settled by `ServiceAnswers`; a function is a computation in `Except`
over them.  `Promise.all` rejects as soon as one of its promises does, and a
loop of awaits does so at the first rejection.
-/

namespace SecureMessenger
namespace Client

open Lib

/-- `ReceivedMessage & Partial<DisplayMessage>`. -/
structure LoadedMessage extends DisplayMessage where
  envelopeId : Property String := .absent
  mailboxSeq : Property JsNumber := .absent
deriving DecidableEq

/-- The places after which `sync.scope()` is read again. -/
inductive ScopeRead
  | synchronize
  | recoverSentMetadata
  | reads
  | recoverOutgoing
  | ingest
  | readChatHistory
  | decoded
  | envelope (id : String)
  | outgoing (clientMessageId : String)
deriving DecidableEq

/-- What the sync manager, its inbox and the two other managers answer during
one call. -/
structure SyncAnswers where
  scope : Except JsError ScopeRef
  scopeAt : ScopeRead → Except JsError ScopeRef
  synchronize : Except JsError SyncChanges
  recoverSentMetadata : Except JsError Unit
  synchronizeReads : Except JsError Unit
  recoverOutgoing : Except JsError Unit
  ingest : Except JsError SyncChanges
  readChatHistory : String → Nat → Option ChatHistoryCursor → Except JsError ChatHistoryPage
  /-- `none` when the inbox has no `getSentMetadata`. -/
  getSentMetadata : Option (InboxScope → String → Except JsError (Option SentMessage))

/-- What everything awaited answers during one call. -/
structure ServiceAnswers where
  codec : ClientEnvelope → Except JsError String
  /-- `this.historyChats` when the envelope is looked at. -/
  historyChats : MailboxEnvelope → Option (List String)
  /-- The answers to successive calls of `api.getMailbox`. -/
  getMailbox : List (Except JsError MailboxPage)
  /-- Whether the subscription is active when `sync.scope()` is read. -/
  active : ScopeRead → Bool
  sync : Option SyncAnswers

/-- `if (this.sync.scope() !== scope) throw`. -/
def SyncAnswers.sameSession (sync : SyncAnswers) (scope : ScopeRef) (read : ScopeRead) :
    Except JsError Unit := do
  if (← sync.scopeAt read) ≠ scope then
    throw (.error "Message session changed.")

/-- An optional value as a property that is always present. -/
def Property.ofOption {α : Type} : Option α → Property α
  | none => .undefined
  | some a => .value a

/-- The argument of `codec.decodeIncoming` for an envelope. -/
def envelopeContent (envelope : MailboxEnvelope) : Option ClientEnvelope :=
  envelope.payload.map fun payload =>
    { recipient_device_id := envelope.recipient_device_id
      protocol_version := envelope.protocol_version
      envelope_type := envelope.envelope_type
      payload := payload }

/-- The argument of `codec.decodeIncoming` for a command. -/
def commandContent (outgoing : OutgoingCommand) : Option ClientEnvelope :=
  outgoing.command.envelopes.head?

/-- The message of an envelope that somebody else sent. -/
def receivedMessage (envelope : MailboxEnvelope) (content : String) : LoadedMessage where
  envelopeId := .value envelope.id
  historyId := .value ("envelope:" ++ envelope.id)
  messageId := envelope.message_id
  chatId := envelope.chat_id
  chatSeq := .ofOption envelope.chat_seq
  senderUserId := envelope.sender_user_id
  senderDeviceId := .value envelope.sender_device_id
  clientMessageId := .value envelope.client_message_id
  mailboxSeq := .value envelope.mailbox_seq
  content := content
  createdAt := envelope.message_created_at

/-- The delivery properties of a message of one's own.  Without metadata the
message has been accepted at least. -/
def LoadedMessage.withSent (message : LoadedMessage) (sent : Option SentMessage) : LoadedMessage :=
  { message with
    status := .value (if sent.isNone then .accepted else (deliveryState sent).1.toMessageStatus)
    deliveries := .ofOption (deliveryState sent).2 }

section Service

variable (a : ServiceAnswers)

/-- `this.sync!.inbox.getSentMetadata?.(scope, messageId)`. -/
def SyncAnswers.sentMetadata (sync : SyncAnswers) (scope : InboxScope) (messageId : String) :
    Except JsError (Option SentMessage) :=
  match sync.getSentMetadata with
  | none => .ok none
  | some getSentMetadata => getSentMetadata scope messageId

/-- `decodeEnvelope`. -/
def decodeEnvelope (envelope : MailboxEnvelope) : Except JsError (Option LoadedMessage) :=
  match envelopeContent envelope with
  | none => .ok none
  | some incoming => do
      let content ← a.codec incoming
      let message := receivedMessage envelope content
      match a.sync with
      | none => return some message
      | some sync =>
          let scope ← sync.scopeAt (.envelope envelope.id)
          if envelope.sender_user_id = scope.scope.userId then
            let sent ← sync.sentMetadata scope.scope envelope.message_id
            return some (message.withSent sent)
          else
            return some message

/-- `decodeOutgoing`. -/
def decodeOutgoing (outgoing : OutgoingCommand) : Except JsError (Option LoadedMessage) :=
  match commandContent outgoing, a.sync with
  | some incoming, some sync => do
      let scope ← sync.scopeAt (.outgoing outgoing.command.client_message_id)
      let content ← a.codec incoming
      return some
        { messageId := (outgoing.accepted.map (·.id)).getD
            ("pending:" ++ scope.scope.deviceId ++ ":" ++ outgoing.command.client_message_id)
          clientMessageId := .value outgoing.command.client_message_id
          senderDeviceId := .value scope.scope.deviceId
          historyId := .value ("outgoing:" ++ outgoing.command.client_message_id)
          chatId := outgoing.command.chat_id
          chatSeq := .ofOption (outgoing.accepted.bind (·.chatSeq))
          senderUserId := scope.scope.userId
          createdAt := (outgoing.createdAt.or (outgoing.accepted.map (·.createdAt))).getD ""
          content := content
          status := .value (deliveryState outgoing.accepted).1.toMessageStatus
          deliveries := .ofOption (deliveryState outgoing.accepted).2 }
  | _, _ => .ok none

/-- A loop that awaits a message of each element and keeps those that are
not null. -/
def decodeAll {α : Type} (decode : α → Except JsError (Option LoadedMessage)) :
    List α → Except JsError (List LoadedMessage)
  | [] => .ok []
  | x :: rest => do
      let message ← decode x
      let messages ← decodeAll decode rest
      return message.toList ++ messages

/-- `!this.historyChats || this.historyChats.has(envelope.chat_id)`. -/
def isVisible (envelope : MailboxEnvelope) : Bool :=
  match a.historyChats envelope with
  | none => true
  | some chats => decide (envelope.chat_id ∈ chats)

/-- `decodeSnapshot`, up to the fields of the result that repeat the snapshot. -/
def decodeSnapshot (envelopes : List MailboxEnvelope) (outgoing : List OutgoingCommand)
    (filter : Bool) : Except JsError (List LoadedMessage) := do
  let received ← decodeAll (decodeEnvelope a)
    (if filter then envelopes.filter (isVisible a) else envelopes)
  let sent ← decodeAll (decodeOutgoing a) outgoing
  return received ++ sent

/-- `MailboxLoadResult` of the service. -/
structure LoadResult where
  messages : List LoadedMessage
  envelopes : List MailboxEnvelope
  nextSeq : JsNumber
  tombstoneCount : Nat

/-- The number of envelopes without a payload. -/
def countTombstones (envelopes : List MailboxEnvelope) : Nat :=
  envelopes.countP fun envelope => envelope.payload.isNone

/-- `a <= b`. -/
def JsNumber.le : JsNumber → JsNumber → Bool
  | .integer x, .integer y => decide (x ≤ y)
  | _, _ => false

/-- The loop of `loadMailbox` without a sync manager; `none` while a page is
still awaited. -/
def loadPages : List (Except JsError MailboxPage) → JsNumber → List LoadedMessage →
    List MailboxEnvelope → Option (Except JsError LoadResult)
  | [], _, _, _ => none
  | .error e :: _, _, _, _ => some (.error e)
  | .ok page :: rest, cursor, messages, envelopes =>
      match decodeAll (decodeEnvelope a) page.envelopes with
      | .error e => some (.error e)
      | .ok decoded =>
          if !page.hasMore then
            some (.ok ⟨messages ++ decoded, envelopes ++ page.envelopes, page.nextSeq,
              countTombstones (envelopes ++ page.envelopes)⟩)
          else if page.nextSeq.le cursor then
            some (.error (.error "Mailbox paging did not advance."))
          else loadPages rest page.nextSeq (messages ++ decoded) (envelopes ++ page.envelopes)

/-- `loadMailbox` with a sync manager. -/
def loadSynchronized (sync : SyncAnswers) : Except JsError LoadResult := do
  let scope ← sync.scope
  let changes ← sync.synchronize
  sync.sameSession scope .synchronize
  sync.recoverSentMetadata
  sync.sameSession scope .recoverSentMetadata
  sync.synchronizeReads
  sync.sameSession scope .reads
  sync.recoverOutgoing
  sync.sameSession scope .recoverOutgoing
  let decoded ← decodeSnapshot a changes.envelopes [] true
  sync.sameSession scope .decoded
  return ⟨decoded, changes.envelopes, .integer changes.cursor, countTombstones changes.envelopes⟩

/-- `loadMailbox`. -/
def loadMailbox (afterSeq : JsNumber) : Option (Except JsError LoadResult) :=
  match a.sync with
  | some sync => some (loadSynchronized a sync)
  | none => loadPages a a.getMailbox afterSeq [] []

/-- `loadChatHistory`. -/
def loadChatHistory (chatId : String) (before : Option ChatHistoryCursor) :
    Except JsError (List LoadedMessage × Option ChatHistoryCursor) :=
  match a.sync with
  | none => .ok ([], none)
  | some sync => do
      let scope ← sync.scope
      let page ← sync.readChatHistory chatId 50 before
      sync.sameSession scope .readChatHistory
      let decoded ← decodeSnapshot a page.envelopes page.outgoing false
      sync.sameSession scope .decoded
      return (decoded, page.nextBefore)

/-- Calls of the handlers of `subscribe` and `onChatActivity`. -/
inductive LiveNotice
  | activity (chatIds : List String)
  | messages (messages : List LoadedMessage)
  | error (error : JsError)

/-- `reportError`. -/
def reportError (read : ScopeRead) (e : JsError) : List LiveNotice :=
  if a.active read then [.error e] else []

/-- The end of `handleIncomingEnvelope`: what is done with the messages. -/
def publishMessages (messages : List LoadedMessage) : List LiveNotice :=
  if a.active .decoded && !messages.isEmpty then [.messages messages] else []

/-- `handleIncomingEnvelope` once the envelope has been ingested. -/
def publishChanges (sync : SyncAnswers) (scope : ScopeRef) (envelopes : List MailboxEnvelope) :
    List LiveNotice :=
  let chatIds := (envelopes.map (·.chat_id)).eraseDups
  (if a.active .ingest && !chatIds.isEmpty then [.activity chatIds] else []) ++
    match decodeAll (decodeEnvelope a) (envelopes.filter (isVisible a)) with
    | .error e => reportError a .decoded e
    | .ok messages =>
        if !a.active .decoded then []
        else
          match sync.scopeAt .decoded with
          | .error e => reportError a .decoded e
          | .ok now => if now ≠ scope then [] else publishMessages a messages

/-- `handleIncomingEnvelope` with its `catch`. -/
def handleIncomingEnvelope (envelope : MailboxEnvelope) : List LiveNotice :=
  match a.sync with
  | none =>
      match decodeEnvelope a envelope with
      | .error e => reportError a .decoded e
      | .ok message => publishMessages a message.toList
  | some sync =>
      match sync.scope, sync.ingest with
      | .error e, _ => reportError a .ingest e
      | .ok _, .error e => reportError a .ingest e
      | .ok scope, .ok changes =>
          match sync.scopeAt .ingest with
          | .error e => reportError a .ingest e
          | .ok now => if now ≠ scope then [] else publishChanges a sync scope changes.envelopes

end Service

end Client
end SecureMessenger
