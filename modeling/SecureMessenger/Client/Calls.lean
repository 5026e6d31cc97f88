import SecureMessenger.Client.Inbox
import SecureMessenger.Lib.Prog

/-!
# What the client core awaits

The messaging core is a set of asynchronous functions over a durable inbox,
two gateways and in-memory fields.  `Call` lists their awaited operations and
the synchronous segments on shared memory; `Async` is the type of the
functions themselves.

A gateway call is two calls of the signature: the request leaves, and later
the promise settles.  Between the two anything else may happen.
-/

namespace SecureMessenger
namespace Client

open Lib

/-- A scope object of `SyncManager`.  The source compares scopes by object
identity; `epoch` is the identity of the object. -/
structure ScopeRef where
  scope : InboxScope
  epoch : Nat
deriving DecidableEq

/-- The gateway a call goes through. -/
inductive Transport
  | http
  | ws
deriving DecidableEq

/-- Gateway calls. -/
inductive Request
  | getMailbox (via : Transport) (afterSeq : ℤ) (limit : Nat)
  | acknowledgeEnvelope (via : Transport) (envelopeId : String)
  | sendMessage (via : Transport) (command : SendMessageRequest)
  | findSentMessage (clientMessageId : String)
  | getDestinationDevices (chatId : String)
  | getSentMessages (afterMessageId : Option String) (limit : Nat) (unreadOnly : Bool)
  | getChatStates (afterChatId : Option String) (limit : Nat)
  | advanceReadCursor (chatId : String) (lastReadSeq : ℤ)
deriving DecidableEq

/-- What a gateway call resolves to. -/
def Request.Reply : Request → Type
  | .getMailbox _ _ _ => MailboxPage
  | .acknowledgeEnvelope _ _ => MessageEnvelope
  | .sendMessage _ _ => SentMessage
  | .findSentMessage _ => Option SentMessage
  | .getDestinationDevices _ => List DestinationDevice
  | .getSentMessages _ _ _ => SentMessagesPage
  | .getChatStates _ _ => ChatStatesPage
  | .advanceReadCursor _ _ => ChatReadCursor

/-- `MessageDeliveryUpdate`. -/
structure MessageDeliveryUpdate where
  messageId : String
  chatId : String
  chatSeq : Option Nat
  status : DeliveryStatus
  deliveries : Option (List Delivery)
deriving DecidableEq

/-- A decoded incoming message (`ReceivedMessage`), as far as handlers and the
modelled code look at it. -/
structure ReceivedMessage where
  envelope : MailboxEnvelope
  content : String
deriving DecidableEq

/-- A decoded outgoing command (`decodeOutgoing`). -/
structure OutgoingMessage where
  command : OutgoingCommand
  content : String
deriving DecidableEq

/-- Calls of subscribed handlers. -/
inductive Notification
  /-- `onMessage`. -/
  | message (messages : List ReceivedMessage)
  /-- The caller of `loadMailbox` receives its result. -/
  | loaded (messages : List ReceivedMessage)
  | activity (chatIds : List String)
  | outgoing (messages : List OutgoingMessage)
  | delivery (update : MessageDeliveryUpdate)
  | readState (state : ChatReadState)
  | error (reason : JsError)
deriving DecidableEq

/-- In-memory fields of the managers of one client. -/
structure Memory where
  /-- `SyncManager.current`. -/
  current : Option ScopeRef := none
  /-- `MessengerService.historyChats`. -/
  historyChats : Option (List String) := none
  /-- `OutgoingManager.inFlight`. -/
  inFlight : List String := []
  /-- `OutgoingManager.recovering`: the number of the running recovery. -/
  recovering : Option Nat := none
  /-- Recoveries that have settled, with their outcomes. -/
  recovered : List (Nat × Except JsError Unit) := []
  /-- `OutgoingManager.pendingDeliveries`. -/
  pendingDeliveries : List (String × ScopeRef × MessageDeliveryUpdate) := []
  /-- `ReadCursorManager.states`. -/
  readStates : List ChatReadState := []
  /-- `ReadCursorManager.current`. -/
  readScope : Option ScopeRef := none
  /-- `ReadCursorManager.inFlight`. -/
  readInFlight : List String := []
  /-- `ReadCursorManager.stopped`. -/
  readStopped : Bool := false

/-- Awaited operations and synchronous segments of the client core. -/
inductive Call : Type 1
  /-- One transaction of the durable inbox. -/
  | inbox {α : Type} (tx : Transaction α)
  /-- A gateway request leaves. -/
  | request (g : Request)
  /-- The promise of a gateway call settles. -/
  | response (g : Request)
  /-- `realtime?.ready` together with the presence of the method. -/
  | transport
  /-- `SyncManager.enqueue`: take the next place in the chain. -/
  | enqueue
  /-- The chain has reached this place. -/
  | turn (place : Nat)
  /-- The operation at this place has settled. -/
  | leave (place : Nat)
  /-- A synchronous segment on the in-memory fields. -/
  | memory {α : Type} (f : Memory → α × Memory)
  /-- A recovery that is already running settles. -/
  | recovery (n : Nat)
  /-- The back-off timer fires. -/
  | sleep
  /-- `new Date().toISOString()`. -/
  | clock
  /-- `createClientMessageId()`. -/
  | freshId
  /-- Handlers run. -/
  | notify (n : Notification)

/-- Answers of the calls. -/
def Call.Answer : Call → Type
  | .inbox (α := α) _ => Except JsError α
  | .request _ => Unit
  | .response g => Except JsError g.Reply
  | .transport => Transport
  | .enqueue => Nat
  | .turn _ => Unit
  | .leave _ => Unit
  | .memory (α := α) _ => α
  | .recovery _ => Except JsError Unit
  | .sleep => Unit
  | .clock => String
  | .freshId => String
  | .notify _ => Unit

/-- Asynchronous functions of the client core. -/
abbrev Async := Prog Call Call.Answer JsError

/-- Await a transaction of the inbox. -/
def awaitInbox {α : Type} (tx : Transaction α) : Async α :=
  .eff (.inbox tx) fun (r : Except JsError α) => Prog.ofExcept r

/-- Await a gateway call. -/
def awaitGateway (g : Request) : Async g.Reply :=
  .eff (.request g) fun _ =>
    .eff (.response g) fun (r : Except JsError g.Reply) => Prog.ofExcept r

/-- A synchronous segment. -/
def sync {α : Type} (f : Memory → α × Memory) : Async α :=
  .eff (.memory f) fun (a : α) => .ret a

/-- The transport a call made now would use. -/
def transport : Async Transport :=
  .eff .transport fun (via : Transport) => .ret via

/-- `SyncManager.scope()`. -/
def currentScope : Async ScopeRef := do
  match ← sync (fun m => (m.current, m)) with
  | some scope => return scope
  | none => Prog.throw (.error "Local message storage is not ready. Please sign in again.")

/-- Is `scope` still the current one? -/
def isCurrent (scope : ScopeRef) : Async Bool :=
  sync fun m => (decide (m.current = some scope), m)

end Client
end SecureMessenger
