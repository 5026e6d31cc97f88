import SecureMessenger.Client.Inbox
import SecureMessenger.Lib.Dict
import Mathlib.Data.List.Sort

/-!
# Message lists

`messaging/messageState.ts`: merging updates into the list of displayed
messages of a chat.  Updates carry optional properties, and object spread
distinguishes a property that is absent from one that is present with the
value `undefined`.
-/

namespace SecureMessenger
namespace Client

open Lib

/-- An optional property of an object. -/
inductive Property (α : Type)
  | absent
  | undefined
  | value (a : α)
deriving DecidableEq

namespace Property

variable {α : Type}

/-- Reading the property. -/
def get : Property α → Option α
  | absent => none
  | undefined => none
  | value a => some a

/-- The property in `{ ...prior, ...incoming }`. -/
def spread (prior incoming : Property α) : Property α :=
  match incoming with
  | absent => prior
  | undefined => undefined
  | value a => value a

/-- `a[key] === b[key]` for every own property of `b`. -/
def agrees [DecidableEq α] (a b : Property α) : Bool :=
  match b with
  | absent => true
  | _ => decide (a.get = b.get)

end Property

/-- `DisplayMessage['status']`. -/
inductive MessageStatus
  | pending
  | accepted
  | delivered
  | read
deriving DecidableEq

/-- `rank`. -/
def MessageStatus.rank : MessageStatus → Nat
  | pending => 0
  | accepted => 1
  | delivered => 2
  | read => 3

/-- `DisplayMessage`. -/
structure DisplayMessage where
  messageId : String
  chatId : String
  senderUserId : String
  content : String
  createdAt : String
  chatSeq : Property Nat := .absent
  clientMessageId : Property String := .absent
  senderDeviceId : Property String := .absent
  historyId : Property String := .absent
  status : Property MessageStatus := .absent
  deliveries : Property (List Delivery) := .absent
deriving DecidableEq

/-- A string property that is present and not empty. -/
def truthy (p : Property String) : Bool :=
  isTruthy p.get

/-- `commandKey`. -/
def commandKey (message : DisplayMessage) : Option String :=
  if truthy message.clientMessageId && truthy message.senderDeviceId then
    some (Json.stringify [message.chatId, message.senderDeviceId.get.getD "",
      message.clientMessageId.get.getD ""])
  else none

/-- `equalMessages`. -/
def equalMessages (a b : DisplayMessage) : Bool :=
  decide (a.messageId = b.messageId) && decide (a.chatId = b.chatId)
    && decide (a.senderUserId = b.senderUserId) && decide (a.content = b.content)
    && decide (a.createdAt = b.createdAt) && a.chatSeq.agrees b.chatSeq
    && a.clientMessageId.agrees b.clientMessageId
    && a.senderDeviceId.agrees b.senderDeviceId && a.historyId.agrees b.historyId
    && a.status.agrees b.status && a.deliveries.agrees b.deliveries

/-- `selectStatus`. -/
def selectStatus (previous incoming : Option MessageStatus) : Option MessageStatus :=
  match incoming with
  | none => previous
  | some new =>
      match previous with
      | none => some new
      | some old => if new.rank < old.rank then some old else some new

/-- `historyId ?? commandKey ?? messageId`. -/
def sortKey (message : DisplayMessage) : String :=
  (message.historyId.get.or (commandKey message)).getD message.messageId

/-- `compareMessages(a, b) <= 0`. -/
def messageLe (a b : DisplayMessage) : Bool :=
  if utf16Units a.createdAt < utf16Units b.createdAt then true
  else if utf16Units b.createdAt < utf16Units a.createdAt then false
  else decide (¬utf16Units (sortKey b) < utf16Units (sortKey a))

/-- A message object; `ref` is its identity under `===`. -/
structure MessageObject where
  ref : Nat
  message : DisplayMessage

/-- The variables of the loop of `mergeMessages`; `next` is the identity of the
next object. -/
structure MergeState where
  messages : Dict String MessageObject
  commands : Dict String MessageObject
  changed : Bool
  next : Nat

/-- The object in the list that an update is about. -/
def priorOf (s : MergeState) (message : DisplayMessage) : Option MessageObject :=
  let command := (commandKey message).bind s.commands.get
  (s.messages.get message.messageId).or
    (if command.bind (·.message.status.get) = some .pending ∨
        message.status.get = some .pending
      then command else none)

/-- `{ ...prior, ...message }` with the creation time of `prior` and the
selected status. -/
def nextMessage (prior : Option DisplayMessage) (message : DisplayMessage) : DisplayMessage :=
  match prior with
  | none =>
      match selectStatus none message.status.get with
      | none => message
      | some status => { message with status := .value status }
  | some prior =>
      { message with
        createdAt := prior.createdAt
        chatSeq := prior.chatSeq.spread message.chatSeq
        clientMessageId := prior.clientMessageId.spread message.clientMessageId
        senderDeviceId := prior.senderDeviceId.spread message.senderDeviceId
        historyId := prior.historyId.spread message.historyId
        status :=
          match selectStatus prior.status.get message.status.get with
          | none => prior.status.spread message.status
          | some status => .value status
        deliveries := prior.deliveries.spread message.deliveries }

/-- `commands` without `prior`, if `prior` is what stands there. -/
def dropCommand (commands : Dict String MessageObject) (prior : MessageObject) :
    Dict String MessageObject :=
  match commandKey prior.message with
  | none => commands
  | some key =>
      if (commands.get key).any fun object => decide (object.ref = prior.ref)
      then commands.delete key else commands

/-- One round of the loop of `mergeMessages`. -/
def mergeStep (s : MergeState) (message : DisplayMessage) : MergeState :=
  let prior := priorOf s message
  if (prior.any fun object => object.message.status.get.any fun status =>
        decide (status ≠ .pending)) && decide (message.status.get = some .pending) then s
  else
    let next := nextMessage (prior.map MessageObject.message) message
    if prior.any fun object => equalMessages object.message next then s
    else
      let object : MessageObject := ⟨s.next, next⟩
      let messages :=
        match prior with
        | none => s.messages
        | some prior => s.messages.delete prior.message.messageId
      let commands :=
        match prior with
        | none => s.commands
        | some prior => dropCommand s.commands prior
      { messages := messages.set message.messageId object
        commands :=
          match commandKey message with
          | none => commands
          | some key => commands.set key object
        changed := true
        next := s.next + 1 }

/-- The message objects of a list. -/
def objectsOf (current : List DisplayMessage) : List MessageObject :=
  current.zipIdx.map fun p => ⟨p.2, p.1⟩

/-- The indexes before the loop. -/
def mergeStart (current : List DisplayMessage) : MergeState where
  messages := Dict.ofList ((objectsOf current).map fun object =>
    (object.message.messageId, object))
  commands := Dict.ofList ((objectsOf current).filterMap fun object =>
    (commandKey object.message).map fun key => (key, object))
  changed := false
  next := current.length

/-- `mergeMessages`. -/
def mergeMessages (current incoming : List DisplayMessage) : List DisplayMessage :=
  if incoming = [] then current
  else
    let s := incoming.foldl mergeStep (mergeStart current)
    if s.changed then
      (s.messages.values.map MessageObject.message).insertionSort (fun a b => messageLe a b)
    else current

/-- The updates of each chat, chats in the order of their first update. -/
def groupByChat (incoming : List DisplayMessage) : Dict String (List DisplayMessage) :=
  incoming.foldl (fun grouped message =>
    grouped.set message.chatId ((grouped.get message.chatId).getD [] ++ [message])) Dict.empty

/-- `mergeMessagesByChat`. -/
def mergeMessagesByChat (current : Dict String (List DisplayMessage))
    (incoming : List DisplayMessage) : Dict String (List DisplayMessage) :=
  (groupByChat incoming).entries.foldl (fun next group =>
    let previous := (current.get group.1).getD []
    let merged := mergeMessages previous group.2
    if merged = previous then next else next.set group.1 merged) current

end Client
end SecureMessenger
