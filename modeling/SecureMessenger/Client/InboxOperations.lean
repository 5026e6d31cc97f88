import SecureMessenger.Client.Runtime
import Mathlib.Data.List.Lex

/-!
# All operations of the durable inbox

The operations of `IndexedDBDurableInbox` that `Inbox` leaves out, and the type
of all operations that are called with a scope.  `readChatHistory` walks two
indexes from their ends; IndexedDB orders strings by their UTF-16 code units,
arrays element by element, and every array after every string.
-/

namespace SecureMessenger
namespace Client

open Lib

/-- `read`, up to the generation the instance remembers. -/
def read : Transaction (Option DurableDeviceIdentity) := fun db =>
  .ok (identity db, db)

/-- `write`: `expected` is the generation the instance has observed last,
`generation` the random new one. -/
def write (expected : Option String) (generation : String) (device : DeviceIdentity) :
    Transaction Unit := fun db =>
  if (identity db).map (·.generation) ≠ expected then
    .error (.client "Local device generation changed" .local_generation_changed)
  else .ok ((), { identity := some ⟨device.id, device.name, generation⟩ })

/-- `readMetadata`. -/
def readMetadata (scope : InboxScope) : Transaction (ℤ × List DirectChat) := fun db => do
  validate scope db
  let key := scopeKey scope
  let chats := (db.chats.filter fun entry => decide (entry.scope = key)).map Stored.value
  return ((cursorAt key db, chats), db)

/-- `advanceLocalReadCursor`. -/
def advanceLocalReadCursor (scope : InboxScope) (chatId : String) (seq : JsNumber) :
    Transaction ChatReadState := fun db =>
  match seq with
  | .other => .error (.error "Invalid read cursor")
  | .integer n =>
      if seq.isSafeInteger = false ∨ n < 1 then .error (.error "Invalid read cursor")
      else updateReadState scope chatId
        (fun state => { state with ownLocalReadSeq := max state.ownLocalReadSeq n }) db

/-- `saveChats`. -/
def saveChats (scope : InboxScope) (chats : List DirectChat) : Transaction Unit := fun db => do
  validate scope db
  let store := chats.foldl
    (fun store chat => Store.put Stored.key (record (scopeKey scope) chat.id chat) store) db.chats
  return ((), { db with chats := store })

/-! ### The history index -/

/-- `indexedDB.cmp(a, b) < 0` on arrays of strings. -/
def keyLt (a b : List String) : Bool :=
  decide (a.map utf16Units < b.map utf16Units)

/-- The keys in the range that `readChatHistory` reads.  Without a cursor its
upper bound has an array where the keys have a string. -/
def inHistoryRange (scope chatId : String) (before : Option ChatHistoryCursor)
    (history : List String) : Bool :=
  !keyLt history [scope, chatId] &&
    match before with
    | none => !keyLt [scope, chatId] (history.take 2)
    | some cursor => keyLt history [scope, chatId, cursor.createdAt, cursor.id]

/-- An entry of the history index. -/
structure HistoryEntry where
  history : List String
  key : String
  value : MailboxEnvelope ⊕ OutgoingCommand

/-- The order of a walk with `'prev'`: index keys from the end, equal ones by
their primary keys. -/
def HistoryEntry.comesBefore (a b : HistoryEntry) : Bool :=
  keyLt b.history a.history ||
    (!keyLt a.history b.history && !keyLt [a.key] [b.key])

/-- The history index of a store. -/
def historyIndex {α : Type} (kind : α → MailboxEnvelope ⊕ OutgoingCommand)
    (rows : List (Stored α)) : List HistoryEntry :=
  rows.filterMap fun row => row.history.map fun history => ⟨history, row.key, kind row.value⟩

/-- `readHistoryEntries`. -/
def readHistoryEntries (index : List HistoryEntry) (range : List String → Bool) (count : Nat) :
    List HistoryEntry :=
  ((index.filter fun entry => range entry.history).mergeSort HistoryEntry.comesBefore).take count

/-- `readChatHistory`. -/
def readChatHistory (scope : InboxScope) (chatId : String) (limit : JsNumber)
    (before : Option ChatHistoryCursor) : Transaction ChatHistoryPage := fun db =>
  match limit with
  | .other => .error (.error "Invalid history page size")
  | .integer n =>
      if limit.isSafeInteger = false ∨ n < 1 then .error (.error "Invalid history page size")
      else do
        validate scope db
        let range := inHistoryRange (scopeKey scope) chatId before
        let entries := (readHistoryEntries (historyIndex .inl db.envelopes) range (n.toNat + 1) ++
            readHistoryEntries (historyIndex .inr db.outgoing) range (n.toNat + 1)).mergeSort
          fun a b => !keyLt a.history b.history
        let page := entries.take n.toNat
        return (⟨page.filterMap fun entry => entry.value.getLeft?,
          page.filterMap fun entry => entry.value.getRight?,
          if n.toNat < entries.length then
            page.getLast?.map fun last => ⟨last.history.getD 2 "", last.history.getD 3 ""⟩
          else none⟩, db)

/-! ### Operations with a scope -/

/-- The operations that only read. -/
inductive InboxRead
  | snapshot
  | readMetadata
  | readCursor
  | getPendingAcknowledgments
  | getOutgoingToRecover
  | readChatHistory (chatId : String) (limit : JsNumber) (before : Option ChatHistoryCursor)
  | getOutgoing (clientMessageId : String)
  | readChatReadStates
  | getSentMetadata (messageId : String)
  | needsSequenceBackfill

/-- What they resolve to. -/
def InboxRead.Reply : InboxRead → Type
  | .snapshot => InboxSnapshot
  | .readMetadata => ℤ × List DirectChat
  | .readCursor => ℤ
  | .getPendingAcknowledgments => List MailboxEnvelope
  | .getOutgoingToRecover => List OutgoingCommand
  | .readChatHistory _ _ _ => ChatHistoryPage
  | .getOutgoing _ => Option OutgoingCommand
  | .readChatReadStates => List ChatReadState
  | .getSentMetadata _ => Option SentMessage
  | .needsSequenceBackfill => Bool

/-- Their transactions. -/
def InboxRead.transaction (scope : InboxScope) : (op : InboxRead) → Transaction op.Reply
  | .snapshot => Client.snapshot scope
  | .readMetadata => Client.readMetadata scope
  | .readCursor => Client.readCursor scope
  | .getPendingAcknowledgments => Client.getPendingAcknowledgments scope
  | .getOutgoingToRecover => Client.getOutgoingToRecover scope
  | .readChatHistory chatId limit before => Client.readChatHistory scope chatId limit before
  | .getOutgoing clientMessageId => Client.getOutgoing scope clientMessageId
  | .readChatReadStates => Client.readChatReadStates scope
  | .getSentMetadata messageId => Client.getSentMetadata scope messageId
  | .needsSequenceBackfill => Client.needsSequenceBackfill scope

/-- The operations that write. -/
inductive InboxWrite
  | applyDeliveryReceipt (receipt : MessageEnvelope)
  | commitPage (expectedCursor : ℤ) (envelopes : List MailboxEnvelope) (nextCursor : JsNumber)
  | putOutgoing (command : SendMessageRequest) (replaceRejected : Bool) (now : String)
  | acceptOutgoing (message : SentMessage)
  | mergeChatReadCursor (cursor : ChatReadCursor)
  | advanceLocalReadCursor (chatId : String) (seq : JsNumber)
  | mergeSentMetadata (message : SentMessage)
  | finishSequenceBackfill
  | saveChats (chats : List DirectChat)

/-- What they resolve to. -/
def InboxWrite.Reply : InboxWrite → Type
  | .applyDeliveryReceipt _ => Option OutgoingCommand
  | .commitPage _ _ _ => List MailboxEnvelope
  | .putOutgoing _ _ _ => OutgoingCommand
  | .acceptOutgoing _ => OutgoingCommand
  | .mergeChatReadCursor _ => ChatReadState
  | .advanceLocalReadCursor _ _ => ChatReadState
  | .mergeSentMetadata _ => SentMessage
  | .finishSequenceBackfill => Unit
  | .saveChats _ => Unit

/-- Their transactions. -/
def InboxWrite.transaction (scope : InboxScope) : (op : InboxWrite) → Transaction op.Reply
  | .applyDeliveryReceipt receipt => Client.applyDeliveryReceipt scope receipt
  | .commitPage expectedCursor envelopes nextCursor =>
      Client.commitPage scope expectedCursor envelopes nextCursor
  | .putOutgoing command replaceRejected now =>
      Client.putOutgoing scope command replaceRejected now
  | .acceptOutgoing message => Client.acceptOutgoing scope message
  | .mergeChatReadCursor cursor => Client.mergeChatReadCursor scope cursor
  | .advanceLocalReadCursor chatId seq => Client.advanceLocalReadCursor scope chatId seq
  | .mergeSentMetadata message => Client.mergeSentMetadata scope message
  | .finishSequenceBackfill => Client.finishSequenceBackfill scope
  | .saveChats chats => Client.saveChats scope chats

/-- What may come of calling an operation: its transaction runs to the end, or
is aborted at some point and rolled back. -/
def Inbox.settles {α : Type} (tx : Transaction α) (db : Database) (r : Except JsError α)
    (db' : Database) : Prop :=
  Inbox.runs tx db r db' ∨ Inbox.aborts db r db'

end Client
end SecureMessenger
