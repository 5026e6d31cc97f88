import SecureMessenger.Client.Calls
import SecureMessenger.Client.MessageState
import SecureMessenger.Client.SessionStore

/-!
# The chat store

`chats/chatStore.ts`: the chats, the selected chat and the messages that the
client shows.  Every `start` opens a new run, an object that all functions
started meanwhile keep a reference to; `run === current` tells them whether
their run is still the one in place.

What a function of a run can see is a `ChatView`: the store, the object of its
run and whether that run is the current one.  A segment of a run is a function
on views.  Promises whose result nobody awaits are tasks: they are started by a
segment and settle on their own.

The memory keeps a list of the calls made to the gateway, the messenger and the
preferences.  The code never reads it.
-/

namespace SecureMessenger
namespace Client

open Lib

/-- `ChatHistoryState`; the default is `emptyHistory()`. -/
structure ChatHistoryState where
  loading : Bool := false
  error : Option String := none
  loaded : Bool := false
  hasPrevious : Bool := false
  cursor : Option ChatHistoryCursor := none
deriving DecidableEq

/-- `MAX_CACHED_CHATS`. -/
def maxCachedChats : Nat := 3

/-- The data of `ChatState`; the default is `initialState()`. -/
structure ChatState where
  userId : Option String := none
  chats : List DirectChat := []
  selectedChat : Option DirectChat := none
  loadingChats : Bool := true
  loadingChatId : Option String := none
  chatsError : Option String := none
  search : String := ""
  searchResults : Option (List User) := none
  searching : Bool := false
  searchError : Option String := none
  openingUserId : Option String := none
  messagesByChat : Dict String (List DisplayMessage) := Dict.empty
  readStatesByChat : Dict String ChatReadState := Dict.empty
  historyByChat : Dict String ChatHistoryState := Dict.empty
  loadingMailbox : Bool := true
  mailboxError : Option String := none
  sending : Bool := false
  sendError : Option String := none

/-- `ChatRun`; the default is `createChatRun(userId)`. -/
structure ChatRun where
  userId : String
  selection : Nat := 0
  searchRequest : Nat := 0
  loadingMailbox : Bool := false
  reloadRequested : Bool := false
  /-- The request objects by chat. -/
  historyRequests : Dict String Nat := Dict.empty
  recentChats : List String := []
  discoveredChats : List String := []
  /-- Requests of finished `loadHistory` promises. -/
  finishedHistories : List Nat := []

/-- Which optional methods the messenger has. -/
structure MessengerMethods where
  restoreMetadata : Bool
  loadChatHistory : Bool
  setHistoryChats : Bool
  cacheChats : Bool
  retryOutgoing : Bool
  advanceReadCursor : Bool

/-- `MailboxLoadResult`, as far as the chat store reads it. -/
structure MailboxLoadResult where
  messages : List DisplayMessage
  envelopes : List MailboxEnvelope

/-- Asynchronous calls of the chat store. -/
inductive ChatRequest
  | getChat (chatId : String)
  | getChats
  | searchUsers (search : String)
  | createDirectChat (userId : String)
  | loadMailbox
  | restoreMetadata
  | loadChatHistory (chatId : String) (before : Option ChatHistoryCursor)
  | cacheChats (chats : List DirectChat)
  | sendText (chatId content : String)
  | retryOutgoing (clientMessageId : String)
  | advanceReadCursor (chatId : String) (lastReadSeq : ℤ)
  | preferencesRestore (userId : String) (chats : List DirectChat)
  | preferencesSelect (userId : String) (chatId : Option String)

/-- What a call resolves to. -/
def ChatRequest.Reply : ChatRequest → Type
  | .getChat _ => DirectChat
  | .getChats => List DirectChat
  | .searchUsers _ => List User
  | .createDirectChat _ => DirectChat
  | .loadMailbox => MailboxLoadResult
  | .restoreMetadata => MailboxLoadResult × List DirectChat
  | .loadChatHistory _ _ => List DisplayMessage × Option ChatHistoryCursor
  | .cacheChats _ => Unit
  | .sendText _ _ => SentMessage
  | .retryOutgoing _ => Unit
  | .advanceReadCursor _ _ => Unit
  | .preferencesRestore _ _ => Option DirectChat
  | .preferencesSelect _ _ => Unit

/-- Calls the chat store has made. -/
inductive ChatEffect
  | request (g : ChatRequest)
  | setHistoryChats (chatIds : List String)

/-- A `loadHistory` that has sent its request. -/
structure HistoryLoad where
  chatId : String
  /-- The history state at the beginning. -/
  history : ChatHistoryState
  before : Option ChatHistoryCursor
  request : Nat

/-- Promises that are not awaited by the function that made them. -/
inductive ChatTask
  /-- `getChat(chatId)` in `receive`. -/
  | discover (chatId : String)
  /-- `cacheChats([chat])` in `receive`. -/
  | cached (chat : DirectChat)
  | loadMailbox
  | loadChats (selection : Nat)
  /-- `historyLoad` in `selectChat`. -/
  | loadHistory (load : HistoryLoad)
  | advanceReadCursor (chatId : String) (lastReadSeq : ℤ)

/-- What a function of a run sees. -/
structure ChatView where
  /-- `run === current`. -/
  current : Bool
  state : ChatState
  run : ChatRun
  /-- Tasks of this run that have not been taken up yet. -/
  tasks : List ChatTask
  effects : List ChatEffect
  /-- The identity of the next request object. -/
  fresh : Nat

/-- The variables of `createChatStore`. -/
structure ChatMemory where
  state : ChatState := {}
  /-- `run`, by its number. -/
  run : Option Nat := none
  /-- The run objects. -/
  runs : Nat → ChatRun := fun _ => { userId := "" }
  /-- The tasks of each run. -/
  tasks : Nat → List ChatTask := fun _ => []
  effects : List ChatEffect := []
  fresh : Nat := 0
  /-- The number of the next run; no run has the number 0. -/
  nextRun : Nat := 1

/-- The view of run `r`. -/
def ChatMemory.view (r : Nat) (m : ChatMemory) : ChatView where
  current := decide (m.run = some r)
  state := m.state
  run := m.runs r
  tasks := m.tasks r
  effects := m.effects
  fresh := m.fresh

/-- Write a view of run `r` back. -/
def ChatMemory.put (r : Nat) (v : ChatView) (m : ChatMemory) : ChatMemory :=
  { m with
    state := v.state
    runs := Function.update m.runs r v.run
    tasks := Function.update m.tasks r v.tasks
    effects := v.effects
    fresh := v.fresh }

/-- A segment of run `r`. -/
def ChatMemory.onRun {α : Type} (r : Nat) (f : ChatView → α × ChatView) (m : ChatMemory) :
    α × ChatMemory :=
  ((f (m.view r)).1, m.put r (f (m.view r)).2)

/-- The first segment of a method: it does nothing without a run, else it
continues as a segment of the current run. -/
def ChatMemory.inRun {α : Type} (f : ChatView → α × ChatView) (m : ChatMemory) :
    Option (Nat × α) × ChatMemory :=
  match m.run with
  | none => (none, m)
  | some r => (some (r, (m.onRun r f).1), (m.onRun r f).2)

/-- What the chat store awaits. -/
inductive ChatPromise
  | response (g : ChatRequest)
  /-- The `loadHistory` of run `r` with this request is finished. -/
  | finished (r : Nat) (request : Nat)

/-- What a promise resolves to. -/
def ChatPromise.Reply : ChatPromise → Type
  | .response g => g.Reply
  | .finished _ _ => Unit

/-- Segments and promises of the chat store. -/
abbrev ChatCall := Segmented Nat ChatMemory ChatPromise

/-- Answers of the calls. -/
abbrev ChatCall.Answer : ChatCall → Type :=
  Segmented.Answer JsError ChatPromise.Reply

/-- Functions of the chat store. -/
abbrev ChatProg := Prog ChatCall ChatCall.Answer JsError

/-- Continue run `r`. -/
def onRun {α : Type} (r : Nat) (f : ChatView → α × ChatView) : ChatProg α :=
  segment (some r) (ChatMemory.onRun r f)

/-- Continue run `r` with a segment that returns nothing. -/
def doRun (r : Nat) (f : ChatView → ChatView) : ChatProg Unit :=
  onRun r fun v => ((), f v)

/-- Await a call that has been made. -/
def response (g : ChatRequest) : ChatProg g.Reply :=
  awaits (ChatPromise.response g)

namespace ChatView

/-- `set`. -/
def set (f : ChatState → ChatState) (v : ChatView) : ChatView :=
  { v with state := f v.state }

/-- Change the run object. -/
def modify (f : ChatRun → ChatRun) (v : ChatView) : ChatView :=
  { v with run := f v.run }

/-- Make a call. -/
def call (g : ChatRequest) (v : ChatView) : ChatView :=
  { v with effects := .request g :: v.effects }

/-- Leave a promise to itself. -/
def spawn (task : ChatTask) (v : ChatView) : ChatView :=
  { v with tasks := v.tasks ++ [task] }

/-- `if (run === current) ...`. -/
def ifCurrent (f : ChatView → ChatView) (v : ChatView) : ChatView :=
  if v.current then f v else v

end ChatView

open ChatView

/-- `upsertChat`. -/
def upsertChat (chats : List DirectChat) (chat : DirectChat) : List DirectChat :=
  match chats.findIdx? (fun candidate => decide (candidate.id = chat.id)) with
  | none => chat :: chats
  | some i => chats.set i chat

section Functions

variable (has : MessengerMethods)

/-- `receive` starts `getChat` for a chat that has not been discovered. -/
def discover (v : ChatView) (chatId : String) : ChatView :=
  if chatId ∈ v.run.discoveredChats then v
  else
    ((v.modify fun run => { run with discoveredChats := run.discoveredChats ++ [chatId] }).call
      (.getChat chatId)).spawn (.discover chatId)

/-- `receive`. -/
def receive (messages : List DisplayMessage) (chatIds : List String) (v : ChatView) : ChatView :=
  if v.current then
    chatIds.foldl discover (v.set fun state =>
      { state with
        messagesByChat := mergeMessagesByChat state.messagesByChat
          (if has.loadChatHistory
            then messages.filter fun message => state.historyByChat.has message.chatId
            else messages) })
  else v

/-- `receive` with its default for `chatIds`. -/
def receiveMessages (messages : List DisplayMessage) (v : ChatView) : ChatView :=
  receive has messages (messages.map DisplayMessage.chatId) v

/-- The promise of `getChat` in `receive`. -/
def awaitDiscovered (r : Nat) (chatId : String) : ChatProg Unit := do
  match ← Prog.attempt (response (.getChat chatId)) with
  | .ok chat =>
      doRun r (ifCurrent fun v =>
        let v := v.set fun state => { state with chats := upsertChat state.chats chat }
        if has.cacheChats then (v.call (.cacheChats [chat])).spawn (.cached chat) else v)
  | .error error =>
      doRun r fun v =>
        ifCurrent (ChatView.set fun state => { state with chatsError := some (errorMessage error) })
          (v.modify fun run =>
            { run with
              discoveredChats := run.discoveredChats.filter fun id => decide (id ≠ chatId) })

/-- The promise of `cacheChats` in `receive`. -/
def awaitCached (r : Nat) (chat : DirectChat) : ChatProg Unit := do
  match ← Prog.attempt (response (.cacheChats [chat])) with
  | .ok _ => return
  | .error error =>
      doRun r (ifCurrent (ChatView.set fun state =>
        { state with chatsError := some (errorMessage error) }))

/-- `retainHistory`. -/
def retainHistory (chatId : String) (v : ChatView) : ChatView :=
  if has.loadChatHistory then
    let retained := (chatId :: v.run.recentChats.filter fun id => decide (id ≠ chatId)).take
      maxCachedChats
    let v := v.modify fun run =>
      { run with
        recentChats := retained
        historyRequests := run.historyRequests.filterKeys fun id => decide (id ∈ retained) }
    let v := v.set fun state =>
      { state with
        messagesByChat := state.messagesByChat.filterKeys fun id => decide (id ∈ retained)
        historyByChat := state.historyByChat.filterKeys fun id => decide (id ∈ retained) }
    if has.setHistoryChats then { v with effects := .setHistoryChats retained :: v.effects } else v
  else v

/-- `loadHistory` up to its `await`. -/
def beginHistory (chatId : String) (previous : Bool) (v : ChatView) :
    Option HistoryLoad × ChatView :=
  if !v.current || !has.loadChatHistory then (none, v)
  else
    let history := (v.state.historyByChat.get chatId).getD {}
    if history.loading || (if previous then !history.hasPrevious else history.loaded) then (none, v)
    else
      let load : HistoryLoad :=
        { chatId := chatId
          history := history
          before := if previous then history.cursor else none
          request := v.fresh }
      let v := { v with fresh := v.fresh + 1 }.modify fun run =>
        { run with historyRequests := run.historyRequests.set chatId load.request }
      let v := v.set fun state =>
        { state with
          historyByChat := state.historyByChat.set chatId
            { history with loading := true, error := none } }
      (some load, v.call (.loadChatHistory chatId load.before))

/-- `isCurrent` of `loadHistory`. -/
def HistoryLoad.isCurrent (load : HistoryLoad) (v : ChatView) : Bool :=
  v.current && decide (v.run.historyRequests.get load.chatId = some load.request)

/-- What `loadHistory` does with the answer. -/
def finishHistory (load : HistoryLoad)
    (answer : Except JsError (List DisplayMessage × Option ChatHistoryCursor)) (v : ChatView) :
    ChatView :=
  let v :=
    if load.isCurrent v then
      let v :=
        match answer with
        | .ok (messages, nextBefore) =>
            v.set fun state =>
              { state with
                messagesByChat := mergeMessagesByChat state.messagesByChat messages
                historyByChat := state.historyByChat.set load.chatId
                  { loading := false
                    error := none
                    loaded := true
                    hasPrevious := nextBefore.isSome
                    cursor := nextBefore } }
        | .error error =>
            v.set fun state =>
              { state with
                historyByChat := state.historyByChat.set load.chatId
                  { load.history with loading := false, error := some (errorMessage error) } }
      v.modify fun run => { run with historyRequests := run.historyRequests.delete load.chatId }
    else v
  v.modify fun run => { run with finishedHistories := load.request :: run.finishedHistories }

/-- `loadHistory` from its `await` on. -/
def awaitHistory (r : Nat) (load : HistoryLoad) : ChatProg Unit := do
  let answer ← Prog.attempt (response (.loadChatHistory load.chatId load.before))
  doRun r (finishHistory load answer)

/-- `loadMailbox` up to its `await`. -/
def beginMailbox : ChatView → ChatView :=
  ifCurrent fun v =>
    if v.run.loadingMailbox then v.modify fun run => { run with reloadRequested := true }
    else
      (((v.modify fun run => { run with loadingMailbox := true }).set fun state =>
        { state with loadingMailbox := true }).call .loadMailbox).spawn .loadMailbox

/-- The `finally` of `loadMailbox`. -/
def finishMailbox (v : ChatView) : ChatView :=
  ifCurrent
    (fun v =>
      let v := v.set fun state => { state with loadingMailbox := false }
      if v.run.reloadRequested then
        beginMailbox (v.modify fun run => { run with reloadRequested := false })
      else v)
    (v.modify fun run => { run with loadingMailbox := false })

/-- The chats of a mailbox result, each once. -/
def MailboxLoadResult.chatIds (result : MailboxLoadResult) : List String :=
  (result.messages.map DisplayMessage.chatId ++
    result.envelopes.map MailboxEnvelope.chat_id).reverse.dedup.reverse

/-- `loadMailbox` from its `await` on. -/
def awaitMailbox (r : Nat) : ChatProg Unit := do
  match ← Prog.attempt (response .loadMailbox) with
  | .ok result =>
      doRun r fun v => finishMailbox (ifCurrent
        (ChatView.set fun state => { state with mailboxError := none })
        (receive has result.messages result.chatIds v))
  | .error error =>
      doRun r fun v => finishMailbox (ifCurrent
        (ChatView.set fun state => { state with mailboxError := some (errorMessage error) }) v)

/-- A `selectChat` that has started its first calls. -/
structure Selecting where
  chatId : String
  userId : String
  selection : Nat
  /-- `historyLoad`, when there is something to wait for. -/
  historyLoad : Option Nat

/-- `isCurrent` of `selectChat` and `openDirectChat`. -/
def isSelection (selection : Nat) (v : ChatView) : Bool :=
  v.current && decide (selection = v.run.selection)

/-- `selectChat` up to its first `await`. -/
def beginSelect (chat : DirectChat) (v : ChatView) : Selecting × ChatView :=
  let v := v.modify fun run => { run with selection := run.selection + 1 }
  let selection := v.run.selection
  let v := v.set fun state =>
    { state with
      selectedChat := some chat
      loadingChatId := some chat.id
      chatsError := none
      sendError := none }
  let (load, v) := beginHistory has chat.id false (retainHistory has chat.id v)
  let v :=
    match load with
    | none => v
    | some load => v.spawn (.loadHistory load)
  let v := v.call (.preferencesSelect v.run.userId (some chat.id))
  (⟨chat.id, v.run.userId, selection, load.map HistoryLoad.request⟩, v)

/-- The `try` of `selectChat`. -/
def selectFreshChat (r : Nat) (s : Selecting) : ChatProg Unit := do
  response (.preferencesSelect s.userId (some s.chatId))
  if ← onRun r fun v =>
      if isSelection s.selection v then (true, v.call (.getChat s.chatId)) else (false, v) then
    let freshChat ← response (.getChat s.chatId)
    doRun r fun v =>
      if isSelection s.selection v then
        v.set fun state =>
          { state with
            selectedChat := some freshChat
            chats := upsertChat state.chats freshChat }
      else v

/-- The `catch` of `selectChat`. -/
def deselectChat (r : Nat) (s : Selecting) (error : JsError) : ChatProg Unit := do
  if ← onRun r fun v =>
      if isSelection s.selection v then
        (true, (v.set fun state =>
          { state with
            selectedChat := none
            chatsError := some (errorMessage error) }).call (.preferencesSelect s.userId none))
      else (false, v) then
    match ← Prog.attempt (response (.preferencesSelect s.userId none)) with
    | .ok _ => return
    | .error storageError =>
        doRun r fun v =>
          if isSelection s.selection v then
            v.set fun state => { state with chatsError := some (errorMessage storageError) }
          else v

/-- The `finally` of `selectChat`. -/
def finishSelect (r : Nat) (s : Selecting) : ChatProg Unit := do
  match s.historyLoad with
  | none => pure ()
  | some request => awaits (ChatPromise.finished r request)
  doRun r fun v =>
    if isSelection s.selection v then v.set fun state => { state with loadingChatId := none } else v

/-- `selectChat` from its first `await` on. -/
def awaitSelect (r : Nat) (s : Selecting) : ChatProg Unit := do
  match ← Prog.attempt (selectFreshChat r s) with
  | .ok _ => finishSelect r s
  | .error error =>
      deselectChat r s error
      finishSelect r s

/-- `loadChats` up to its first `await`. -/
def beginChats (v : ChatView) : ChatView :=
  (v.call .getChats).spawn (.loadChats v.run.selection)

/-- `loadChats` selects the last chat. -/
def restoreLastChat (r selection : Nat) (chats : List DirectChat) : ChatProg Unit := do
  match ← onRun r fun v =>
      if isSelection selection v then
        (some v.run.userId, v.call (.preferencesRestore v.run.userId chats))
      else (none, v) with
  | none => return
  | some userId =>
      let lastChat : Option DirectChat ← response (.preferencesRestore userId chats)
      match lastChat with
      | none => return
      | some chat =>
          match ← onRun r fun v =>
              if isSelection selection v then
                let (s, v) := beginSelect has chat v
                (some s, v)
              else (none, v) with
          | none => return
          | some s => awaitSelect r s

/-- The `try` of `loadChats`. -/
def loadChatList (r selection : Nat) : ChatProg Unit := do
  let chats ← response .getChats
  if ← onRun r fun v =>
      if v.current then
        let v := v.set fun state =>
          { state with
            chats := state.chats.foldl upsertChat chats
            loadingChats := false }
        (true, if has.cacheChats then v.call (.cacheChats chats) else v)
      else (false, v) then
    if has.cacheChats then
      response (.cacheChats chats)
      restoreLastChat has r selection chats
    else restoreLastChat has r selection chats

/-- `loadChats` from its first `await` on. -/
def awaitChats (r selection : Nat) : ChatProg Unit := do
  match ← Prog.attempt (loadChatList has r selection) with
  | .ok _ => pure ()
  | .error error =>
      doRun r fun v =>
        if isSelection selection v then
          v.set fun state => { state with chatsError := some (errorMessage error) }
        else v
  doRun r (ifCurrent (ChatView.set fun state => { state with loadingChats := false }))

/-- `restoreLocalState` with the chat that was selected last. -/
def restoreSelection (r : Nat) (selectedChat : Option DirectChat) : ChatProg Unit := do
  match ← onRun r fun v =>
      if v.current && decide (v.run.selection = 0) then
        let v := v.set fun state => { state with selectedChat := selectedChat }
        match selectedChat with
        | none => (none, v)
        | some chat => beginHistory has chat.id false (retainHistory has chat.id v)
      else (none, v) with
  | none => return
  | some load => awaitHistory r load

/-- The `try` of `restoreLocalState`. -/
def restoreMetadata (r : Nat) : ChatProg Unit := do
  let (result, chats) ← response .restoreMetadata
  match ← onRun r fun v =>
      if v.current then
        let v := (v.set fun state =>
          { state with
            chats := state.chats.foldl upsertChat chats
            messagesByChat := mergeMessagesByChat state.messagesByChat result.messages }).modify
          fun run =>
            { run with
              discoveredChats := chats.foldl (fun ids chat =>
                if chat.id ∈ ids then ids else ids ++ [chat.id]) run.discoveredChats }
        (some v.run.userId,
          if chats = [] then v else v.call (.preferencesRestore v.run.userId chats))
      else (none, v) with
  | none => return
  | some userId =>
      if chats = [] then restoreSelection has r none
      else
        let selectedChat : Option DirectChat ← response (.preferencesRestore userId chats)
        restoreSelection has r selectedChat

/-- `restoreLocalState` from its first `await` on. -/
def awaitLocalState (r : Nat) : ChatProg Unit := do
  match ← Prog.attempt (restoreMetadata has r) with
  | .ok _ => return
  | .error error =>
      doRun r (ifCurrent (ChatView.set fun state =>
        { state with mailboxError := some (errorMessage error) }))

/-- `dispose`. -/
def dispose (m : ChatMemory) : ChatMemory :=
  { m with
    run := none
    effects := if has.setHistoryChats then .setHistoryChats [] :: m.effects else m.effects
    state := {} }

/-- `loadChats` and `loadMailbox` of `start`. -/
def loadRemote (v : ChatView) : ChatView :=
  beginMailbox (beginChats v)

/-- `start` up to its first `await`: the number of the new run. -/
def beginStart (userId : String) (m : ChatMemory) : Nat × ChatMemory :=
  let m := dispose has m
  let r := m.nextRun
  let m : ChatMemory :=
    { m with
      run := some r
      runs := Function.update m.runs r { userId := userId }
      tasks := Function.update m.tasks r []
      nextRun := r + 1
      state := { m.state with userId := some userId }
      effects := if has.setHistoryChats then .setHistoryChats [] :: m.effects else m.effects }
  (r, (m.onRun r fun v =>
    ((), if has.restoreMetadata then v.call .restoreMetadata else loadRemote v)).2)

/-- `start`. -/
def start (userId : String) : ChatProg Unit := do
  let r ← segment none (beginStart has userId)
  if has.restoreMetadata then
    awaitLocalState has r
    doRun r (ifCurrent loadRemote)

/-- A method that does nothing without a run. -/
def method {α : Type} (f : ChatView → α × ChatView) (rest : Nat → α → ChatProg Unit) :
    ChatProg Unit := do
  match ← segment none (ChatMemory.inRun f) with
  | none => return
  | some (r, a) => rest r a

/-- `selectChat`. -/
def selectChat (chat : DirectChat) : ChatProg Unit :=
  method (beginSelect has chat) awaitSelect

/-- `findPeople`. -/
def findPeople : ChatProg Unit :=
  method
    (fun v =>
      let v := (v.modify fun run => { run with searchRequest := run.searchRequest + 1 }).set
        fun state => { state with searching := true, searchError := none }
      let search := trim v.state.search
      ((v.run.searchRequest, search), v.call (.searchUsers search)))
    fun r (request, search) => do
      let answer ← Prog.attempt (response (.searchUsers search))
      doRun r fun v =>
        if v.current && decide (request = v.run.searchRequest) then
          match answer with
          | .ok searchResults =>
              v.set fun state =>
                { state with searchResults := some searchResults, searching := false }
          | .error error =>
              v.set fun state =>
                { state with
                  searchResults := none
                  searchError := some (errorMessage error)
                  searching := false }
        else v

/-- `openDirectChat` when the chat is there, up to the next `await`. -/
def openChat (selection : Nat) (chat : DirectChat) (v : ChatView) :
    (Bool × Option HistoryLoad) × ChatView :=
  if v.current then
    let v := v.set fun state => { state with chats := upsertChat state.chats chat }
    if isSelection selection v then
      let v := (v.modify fun run => { run with searchRequest := run.searchRequest + 1 }).set
        fun state =>
          { state with
            selectedChat := some chat
            chatsError := none
            sendError := none
            search := ""
            searchResults := none
            searching := false }
      let (load, v) := beginHistory has chat.id false (retainHistory has chat.id v)
      ((true, load), v)
    else ((false, none), v)
  else ((false, none), v)

/-- `openDirectChat` stores the selection. -/
def rememberChat (r selection : Nat) (chatId : String) : ChatProg Unit := do
  match ← onRun r fun v =>
      if isSelection selection v then
        (some v.run.userId, v.call (.preferencesSelect v.run.userId (some chatId)))
      else (none, v) with
  | none => return
  | some userId => response (.preferencesSelect userId (some chatId))

/-- The `try` of `openDirectChat`. -/
def openCreatedChat (r selection : Nat) (userId : String) : ChatProg Unit := do
  let chat ← response (.createDirectChat userId)
  let (selected, load) ← onRun r (openChat has selection chat)
  if selected then
    match load with
    | none => rememberChat r selection chat.id
    | some load =>
        awaitHistory r load
        rememberChat r selection chat.id

/-- `openDirectChat`. -/
def openDirectChat (userId : String) : ChatProg Unit :=
  method
    (fun v =>
      if v.state.openingUserId.any fun id => decide (id ≠ "") then (none, v)
      else
        let v := (v.modify fun run => { run with selection := run.selection + 1 }).set fun state =>
          { state with openingUserId := some userId, loadingChatId := none, searchError := none }
        (some v.run.selection, v.call (.createDirectChat userId)))
    fun r selection => do
      match selection with
      | none => return
      | some selection =>
          match ← Prog.attempt (openCreatedChat has r selection userId) with
          | .ok _ => pure ()
          | .error error =>
              doRun r fun v =>
                if isSelection selection v then
                  v.set fun state => { state with searchError := some (errorMessage error) }
                else v
          doRun r (ifCurrent (ChatView.set fun state => { state with openingUserId := none }))

/-- `reportVisibleMessages`; the promise of `advanceReadCursor` is a task. -/
def reportVisibleMessages (chatId : String) (lastReadSeq : JsNumber) : ChatProg Unit :=
  method
    (fun v =>
      match lastReadSeq with
      | .other => ((), v)
      | .integer seq =>
          if decide (v.state.selectedChat.map DirectChat.id = some chatId)
              && lastReadSeq.isSafeInteger && decide (1 ≤ seq)
              && (((v.state.messagesByChat.get chatId).getD []).any fun message =>
                decide (message.chatSeq.get.map Int.ofNat = some seq)
                  && decide (message.senderUserId ≠ v.run.userId))
              && has.advanceReadCursor then
            ((), (v.call (.advanceReadCursor chatId seq)).spawn (.advanceReadCursor chatId seq))
          else ((), v))
    fun _ _ => return

/-- The promise of `advanceReadCursor`. -/
def awaitReadCursor (r : Nat) (chatId : String) (lastReadSeq : ℤ) : ChatProg Unit := do
  match ← Prog.attempt (response (.advanceReadCursor chatId lastReadSeq)) with
  | .ok _ => return
  | .error error =>
      doRun r (ifCurrent (ChatView.set fun state =>
        { state with mailboxError := some (errorMessage error) }))

/-- `loadPreviousMessages`. -/
def loadPreviousMessages : ChatProg Unit :=
  method
    (fun v =>
      match v.state.selectedChat.map DirectChat.id with
      | none => (none, v)
      | some chatId =>
          if chatId = "" then (none, v)
          else
            beginHistory has chatId
              ((v.state.historyByChat.get chatId).any ChatHistoryState.loaded) v)
    fun r load => do
      match load with
      | none => return
      | some load => awaitHistory r load

/-- `retryMessage`. -/
def retryMessage (clientMessageId : String) : ChatProg Unit :=
  method
    (fun v =>
      let v := v.set fun state => { state with sendError := none }
      ((), if has.retryOutgoing then v.call (.retryOutgoing clientMessageId) else v))
    fun r _ => do
      if has.retryOutgoing then
        match ← Prog.attempt (response (.retryOutgoing clientMessageId)) with
        | .ok _ => return
        | .error error =>
            doRun r (ifCurrent (ChatView.set fun state =>
              { state with sendError := some (errorMessage error) }))

/-- The message that `sendText` shows when the command is accepted. -/
def acceptedMessage (content : String) (accepted : SentMessage) : DisplayMessage where
  messageId := accepted.id
  chatId := accepted.chatId
  chatSeq :=
    match accepted.chatSeq with
    | none => .undefined
    | some seq => .value seq
  senderUserId := accepted.senderUserId
  content := content
  createdAt := accepted.createdAt
  clientMessageId := .value accepted.clientMessageId
  senderDeviceId := .value accepted.senderDeviceId
  status := .value .accepted

/-- `sendText`. -/
def sendText (content : String) : ChatProg Unit :=
  method
    (fun v =>
      match v.state.selectedChat with
      | none => (none, v)
      | some chat =>
          if decide (trim content = "") || v.state.sending then (none, v)
          else
            (some (chat.id, v.run.selection),
              (v.set fun state => { state with sending := true, sendError := none }).call
                (.sendText chat.id content)))
    fun r step => do
      match step with
      | none => return
      | some (chatId, selection) =>
          match ← Prog.attempt (response (.sendText chatId content)) with
          | .ok accepted =>
              doRun r (ifCurrent fun v =>
                (receiveMessages has [acceptedMessage content accepted] v).set fun state =>
                  { state with sending := false })
          | .error error =>
              doRun r fun v =>
                ifCurrent (ChatView.set fun state => { state with sending := false })
                  (if isSelection selection v then
                    v.set fun state => { state with sendError := some (errorMessage error) }
                  else v)

/-- `DeliveryStatus` as a status of a displayed message. -/
def DeliveryStatus.toMessageStatus : DeliveryStatus → MessageStatus
  | .pending => .pending
  | .accepted => .accepted
  | .delivered => .delivered

/-- `{ ...message, ...update }`. -/
def withDelivery (message : DisplayMessage) (update : MessageDeliveryUpdate) : DisplayMessage :=
  { message with
    messageId := update.messageId
    chatId := update.chatId
    chatSeq :=
      match update.chatSeq with
      | none => .undefined
      | some seq => .value seq
    status := .value update.status.toMessageStatus
    deliveries :=
      match update.deliveries with
      | none => message.deliveries
      | some deliveries => .value deliveries }

/-- What the messenger tells its subscribers. -/
inductive ChatEvent
  | readState (incoming : ChatReadState)
  | messages (messages : List DisplayMessage)
  | error (error : JsError)
  | activity (chatIds : List String)
  | outgoing (messages : List DisplayMessage)
  | delivery (update : MessageDeliveryUpdate)
  | ready

/-- The handlers of `subscribeToMessenger`. -/
def ChatEvent.handle : ChatEvent → ChatView → ChatView
  | .readState incoming, v =>
      ifCurrent (ChatView.set fun state =>
        let prior := state.readStatesByChat.get incoming.chatId
        { state with
          readStatesByChat := state.readStatesByChat.set incoming.chatId
            { incoming with
              ownLocalReadSeq :=
                max ((prior.map ChatReadState.ownLocalReadSeq).getD 0) incoming.ownLocalReadSeq
              ownConfirmedReadSeq :=
                max ((prior.map ChatReadState.ownConfirmedReadSeq).getD 0)
                  incoming.ownConfirmedReadSeq
              peerLastReadSeq :=
                max ((prior.map ChatReadState.peerLastReadSeq).getD 0)
                  incoming.peerLastReadSeq } }) v
  | .messages received, v => receiveMessages has received v
  | .error reason, v =>
      ifCurrent (ChatView.set fun state =>
        { state with mailboxError := some (errorMessage reason) }) v
  | .activity chatIds, v => receive has [] chatIds v
  | .outgoing sent, v => receiveMessages has sent v
  | .delivery update, v =>
      ifCurrent (fun v =>
        match ((v.state.messagesByChat.get update.chatId).getD []).find?
            (fun item => decide (item.messageId = update.messageId)) with
        | none => v
        | some message => receiveMessages has [withDelivery message update] v) v
  | .ready, v => beginMailbox v

/-- The rest of a promise that nobody awaits. -/
def ChatTask.prog (r : Nat) : ChatTask → ChatProg Unit
  | .discover chatId => awaitDiscovered has r chatId
  | .cached chat => awaitCached r chat
  | .loadMailbox => awaitMailbox has r
  | .loadChats selection => awaitChats has r selection
  | .loadHistory load => awaitHistory r load
  | .advanceReadCursor chatId lastReadSeq => awaitReadCursor r chatId lastReadSeq

/-- What can begin at any time. -/
inductive ChatOp
  | start (userId : String)
  | dispose
  | selectChat (chat : DirectChat)
  | setSearch (search : String)
  | findPeople
  | openDirectChat (userId : String)
  | reportVisibleMessages (chatId : String) (lastReadSeq : JsNumber)
  | loadPreviousMessages
  | retryMessage (clientMessageId : String)
  | sendText (content : String)
  /-- A handler of run `r` is called. -/
  | event (r : Nat) (event : ChatEvent)
  /-- A task of run `r` is taken up. -/
  | task (r : Nat) (task : ChatTask)

/-- The program of a call. -/
def ChatOp.prog (_ : Tid) : ChatOp → ChatProg Unit
  | .start userId => Client.start has userId
  | .dispose => segment none fun m => ((), Client.dispose has m)
  | .selectChat chat => Client.selectChat has chat
  | .setSearch search =>
      segment none fun m => ((), { m with state := { m.state with search := search } })
  | .findPeople => Client.findPeople
  | .openDirectChat userId => Client.openDirectChat has userId
  | .reportVisibleMessages chatId lastReadSeq =>
      Client.reportVisibleMessages has chatId lastReadSeq
  | .loadPreviousMessages => Client.loadPreviousMessages has
  | .retryMessage clientMessageId => Client.retryMessage has clientMessageId
  | .sendText content => Client.sendText has content
  | .event r e => doRun r (e.handle has)
  | .task r rest => rest.prog has r

/-- Calls settle in any order with any outcome; `historyLoad` settles when its
load is finished. -/
def ChatPromise.settles :
    (g : ChatPromise) → ChatMemory → Except JsError g.Reply → ChatMemory → Prop
  | .response _, m, _, m' => m' = m
  | .finished r request, m, answer, m' =>
      request ∈ (m.runs r).finishedHistories ∧ answer = .ok () ∧ m' = m

/-- The chat store.  Handlers of superseded runs may still be called, and a task
may be taken up whenever it is there. -/
def chatSystem : System ChatCall ChatCall.Answer JsError ChatMemory ChatOp where
  exec := Segmented.exec ChatPromise.settles
  prog t op := op.prog has t
  start _ op m m' :=
    match op with
    | .event r _ => 0 < r ∧ r < m.nextRun ∧ m' = m
    | .task r task => 0 < r ∧ r < m.nextRun ∧ ∃ before after,
        m.tasks r = before ++ task :: after ∧
          m' = { m with tasks := Function.update m.tasks r (before ++ after) }
    | _ => m' = m
  stop _ _ _ := False
  env _ _ := False

end Functions

end Client
end SecureMessenger
