import SecureMessenger.Client.InboxOperations
import SecureMessenger.Client.Runtime
import SecureMessenger.Lib.Dict
import SecureMessenger.Lib.Segment

/-!
# ReadCursorManager

`messaging/readCursorManager.ts`: what a tab knows about how far chats have
been read, merged from the durable inbox, the gateway's pages, confirmations
and notifications.  Several tabs share the inbox; a tab has a manager of its
own.  The inbox and the gateways have all their methods, and there is a
scheduler.

`heard` and `reported` only record what happens.
-/

namespace SecureMessenger
namespace Client
namespace Reads

open Lib

/-- The fields of a manager, the scope of its `SyncManager` and the state of its
gateway. -/
structure Manager where
  states : Dict String ChatReadState := .empty
  current : Option ScopeRef := none
  /-- A timer is set (`cancel`). -/
  timer : Bool := false
  inFlight : List String := []
  stopped : Bool := false
  /-- `sync.current`. -/
  session : Option ScopeRef := none
  /-- `realtime.ready`. -/
  ready : Bool := false
  /-- The states the handlers have been called with, the latest first. -/
  heard : List ChatReadState := []

/-- The inbox and the tabs. -/
structure Memory where
  db : Database
  tabs : Nat → Manager
  /-- The cursors the server has reported. -/
  reported : List ChatReadCursor := []

/-- What the managers await. -/
inductive Promise
  | readChatReadStates (scope : InboxScope)
  | mergeChatReadCursor (scope : InboxScope) (cursor : ChatReadCursor)
  | advanceLocalReadCursor (scope : InboxScope) (chatId : String) (seq : JsNumber)
  | getChatStates (after : Option String)
  | advanceReadCursor (chatId : String) (lastReadSeq : ℤ)

/-- What a promise resolves to. -/
def Promise.Reply : Promise → Type
  | .readChatReadStates _ => List ChatReadState
  | .mergeChatReadCursor _ _ => ChatReadState
  | .advanceLocalReadCursor _ _ _ => ChatReadState
  | .getChatStates _ => ChatStatesPage
  | .advanceReadCursor _ _ => ChatReadCursor

/-- Segments of tabs and promises. -/
abbrev Call := Segmented Nat Memory Promise

/-- Answers of the calls. -/
abbrev Call.Answer : Call → Type :=
  Segmented.Answer JsError Promise.Reply

/-- Functions of a manager. -/
abbrev Async := Prog Call Call.Answer JsError

/-- `'Local message storage is not ready. Please sign in again.'`. -/
def notReady : JsError :=
  .error "Local message storage is not ready. Please sign in again."

namespace Manager

/-- `scope`: a new session starts with nothing. -/
def scope (m : Manager) : Except JsError ScopeRef × Manager :=
  match m.session with
  | none => (.error notReady, m)
  | some session =>
      if m.current = some session then (.ok session, m)
      else (.ok session,
        { m with timer := false, current := some session, states := .empty, inFlight := [] })

/-- `this.sync.scope() === scope`, which throws without a session. -/
def sameScope (scope : ScopeRef) (m : Manager) : Except JsError Bool :=
  match m.session with
  | none => .error notReady
  | some session => .ok (decide (session = scope))

/-- The state `publish` stores. -/
def merged (prior : Option ChatReadState) (incoming : ChatReadState) : ChatReadState :=
  { incoming with
    ownLocalReadSeq := max ((prior.map (·.ownLocalReadSeq)).getD 0) incoming.ownLocalReadSeq
    ownConfirmedReadSeq :=
      max ((prior.map (·.ownConfirmedReadSeq)).getD 0) incoming.ownConfirmedReadSeq
    peerLastReadSeq := max ((prior.map (·.peerLastReadSeq)).getD 0) incoming.peerLastReadSeq }

/-- `publish` within the scope. -/
def publish (incoming : ChatReadState) (m : Manager) : Manager :=
  let state := merged (m.states.get incoming.chatId) incoming
  { m with states := m.states.set state.chatId state, heard := state :: m.heard }

/-- `schedule`. -/
def schedule (m : Manager) : Manager :=
  if m.stopped ∨ m.timer then m else { m with timer := true }

/-- What comes after an await: nothing if the scope has changed. -/
def ifSame (scope : ScopeRef) (f : Manager → Manager) (m : Manager) :
    Except JsError Bool × Manager :=
  match m.sameScope scope with
  | .error x => (.error x, m)
  | .ok true => (.ok true, f m)
  | .ok false => (.ok false, m)

/-- The state is ahead of its confirmation, and no request is under way. -/
def mustFlush (m : Manager) (state : ChatReadState) : Bool :=
  decide (state.ownConfirmedReadSeq < state.ownLocalReadSeq ∧ state.chatId ∉ m.inFlight)

/-- The end of `flush`. -/
def finishFlush (retry : Bool) (m : Manager) : Manager :=
  if retry || m.states.values.any fun state =>
      decide (state.ownConfirmedReadSeq < state.ownLocalReadSeq)
  then m.schedule else m

end Manager

section Functions

variable (i : Nat)

/-- A segment of tab `i`. -/
def onTab {α : Type} (f : Manager → α × Manager) : Async α :=
  segment (some i) fun s =>
    ((f (s.tabs i)).1, { s with tabs := Function.update s.tabs i (f (s.tabs i)).2 })

/-- A segment that may throw. -/
def orThrow {α : Type} (f : Manager → Except JsError α × Manager) : Async α := do
  Prog.ofExcept (← onTab i f)

/-- Await a promise. -/
def await (g : Promise) : Async g.Reply :=
  awaits g

/-- `restore`. -/
def restore : Async Unit := do
  let scope ← orThrow i Manager.scope
  let states ← await (.readChatReadStates scope.scope)
  let _ ← orThrow i (Manager.ifSame scope fun m =>
    states.foldl (fun m state => m.publish state) m)

/-- `merge`. -/
def merge (cursor : ChatReadCursor) : Async Unit := do
  let scope ← orThrow i Manager.scope
  let state ← await (.mergeChatReadCursor scope.scope cursor)
  let _ ← orThrow i (Manager.ifSame scope (Manager.publish state))

/-- What `advance` decides before it awaits: the scope, unless the position is
known. -/
def startAdvance (chatId : String) (seq : ℤ) (m : Manager) :
    Except JsError (Option ScopeRef) × Manager :=
  match m.scope with
  | (.error x, m) => (.error x, m)
  | (.ok scope, m) =>
      (.ok (if seq ≤ ((m.states.get chatId).map (·.ownLocalReadSeq)).getD 0 then none
        else some scope), m)

/-- `advance`. -/
def advance (chatId : String) (seq : JsNumber) : Async Unit :=
  match seq with
  | .other => return ()
  | .integer n =>
      if seq.isSafeInteger = false ∨ n < 1 then return ()
      else do
        match ← orThrow i (startAdvance chatId n) with
        | none => return ()
        | some scope =>
            let state ← await (.advanceLocalReadCursor scope.scope chatId seq)
            let _ ← orThrow i (Manager.ifSame scope fun m => (m.publish state).schedule)

/-- How `flush` goes on from position `k` of the map. -/
inductive FlushStep
  | finished
  | skip
  | send (state : ChatReadState)

/-- The next round of the loop of `flush`. -/
def nextFlush (k : Nat) (retry : Bool) (m : Manager) : FlushStep × Manager :=
  match m.states.values.drop k with
  | [] => (.finished, m.finishFlush retry)
  | state :: _ =>
      if m.mustFlush state then
        (.send state, { m with inFlight := m.inFlight ++ [state.chatId] })
      else (.skip, m)

/-- The `finally` of a round. -/
def releaseFlush (scope : ScopeRef) (chatId : String) (m : Manager) : Unit × Manager :=
  ((), if m.current = some scope then
    { m with inFlight := m.inFlight.filter fun other => decide (other ≠ chatId) } else m)

/-- `cursor.lastReadSeq < seq`, of a number. -/
def below (n : JsNumber) (seq : ℤ) : Bool :=
  match n with
  | .integer z => decide (z < seq)
  | .other => false

/-- The `try` of a round; `false` if the scope has changed. -/
def confirmRead (scope : ScopeRef) (state : ChatReadState) : Async Bool := do
  let cursor ← await (.advanceReadCursor state.chatId state.ownLocalReadSeq)
  if ← orThrow i (Manager.ifSame scope id) then
    if cursor.chatId ≠ state.chatId ∨ cursor.userId ≠ scope.scope.userId ∨
        below cursor.lastReadSeq state.ownLocalReadSeq then
      Prog.throw (.error "Invalid read confirmation")
    merge i cursor
    return true
  else return false

/-- A round of `flush`: `none` if the scope has changed, otherwise whether to
try again later. -/
def flushRound (scope : ScopeRef) (state : ChatReadState) : Async (Option Bool) := do
  let outcome ← Prog.attempt (do
    match ← Prog.attempt (confirmRead i scope state) with
    | .ok true => return some false
    | .ok false => return none
    | .error _ =>
        if ← orThrow i (Manager.ifSame scope id) then return some true else return none)
  onTab i (releaseFlush scope state.chatId)
  Prog.ofExcept outcome

/-- What `flush` decides at its start. -/
def startFlush (m : Manager) : Except JsError (Option ScopeRef) × Manager :=
  if m.stopped ∨ m.ready = false then (.ok none, m)
  else
    match m.scope with
    | (.error x, m) => (.error x, m)
    | (.ok scope, m) => (.ok (some scope), m)

/-- `flush`. -/
def flush : Async Unit := do
  match ← orThrow i startFlush with
  | none => return ()
  | some scope =>
      Prog.iterate ((0, false) : Nat × Bool) fun (k, retry) => do
        match ← onTab i (nextFlush k retry) with
        | .finished => return .inr ()
        | .skip => return .inl (k + 1, retry)
        | .send state =>
            match ← flushRound i scope state with
            | none => return .inr ()
            | some again => return .inl (k + 1, retry || again)

/-- Merge the cursors of one chat; `false` if the scope has changed. -/
def mergeCursors (scope : ScopeRef) (chatId : String) : List ChatReadCursor → Async Bool
  | [] => return true
  | cursor :: rest => do
      if cursor.chatId ≠ chatId then
        Prog.throw (.error "Invalid chat read state")
      merge i cursor
      if ← orThrow i (Manager.ifSame scope id) then mergeCursors scope chatId rest
      else return false

/-- Merge the states of a page. -/
def mergeStates (scope : ScopeRef) : List ChatStatesEntry → Async Bool
  | [] => return true
  | state :: rest => do
      if ← mergeCursors i scope state.chatId state.readStates then mergeStates scope rest
      else return false

/-- The loop of `synchronize`; `false` if the scope has changed. -/
def readPages (scope : ScopeRef) : Async Bool :=
  Prog.iterate (none : Option String) fun after => do
    let page ← await (.getChatStates after)
    if ← orThrow i (Manager.ifSame scope id) then
      if ← mergeStates i scope page.states then
        if !page.hasMore then
          return .inr true
        if page.nextChatId = none ∨ page.nextChatId = some "" ∨ page.nextChatId = after then
          Prog.throw (.error "Chat state paging did not advance")
        return .inl page.nextChatId
      else return .inr false
    else return .inr false

/-- `synchronize`. -/
def synchronize : Async Unit := do
  let scope ← orThrow i Manager.scope
  restore i
  if ← orThrow i (Manager.ifSame scope id) then
    if ← readPages i scope then
      flush i

end Functions

end Reads
end Client
end SecureMessenger
