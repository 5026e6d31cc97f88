import SecureMessenger.Client.OutgoingManager
import SecureMessenger.Client.ShownRanks
import SecureMessenger.Client.ShownRows
import SecureMessenger.Lib.Parts

/-!
# Displayed and stored statuses

The chat store loads pages of the history while the manager handles delivery
receipts.  A page is a snapshot of the inbox, taken before its messages are
decoded; an update reaches the messages that are shown at that moment and no
others.  `Inv` says that every row has been caught up with, or that a thread is
still to queue an update that is as new; this module proves it step by step.

`held` and `owed` only record what is under way.
-/

namespace SecureMessenger
namespace Client
namespace Shown

open Lib

/-- The chat store, the fields of the manager and what is under way. -/
structure Memory where
  view : ChatView
  manager : Outgoing.Fields
  /-- The pages that have been read and not shown yet, by the thread that loads
  them. -/
  held : Tid → Option (HistoryLoad × ChatHistoryPage) := fun _ => none
  /-- The accepted copies whose updates a thread is still to queue. -/
  owed : Tid → Option SentMessage := fun _ => none

/-- What is awaited: a page of the history, the decoding of its messages and
what the manager awaits. -/
inductive Promise
  | readChatHistory (self : Tid) (scope : InboxScope) (load : HistoryLoad)
  | decodeSnapshot (page : ChatHistoryPage)
  | manager (self : Tid) (g : Outgoing.Promise)

/-- What a promise resolves to. -/
def Promise.Reply : Promise → Type
  | .readChatHistory _ _ _ => ChatHistoryPage
  | .decodeSnapshot _ => List LoadedMessage
  | .manager _ g => g.Reply

/-- Segments and promises. -/
abbrev Call := Segmented Outgoing.Mark Memory Promise

/-- Answers of the calls. -/
abbrev Call.Answer : Call → Type :=
  Segmented.Answer JsError Promise.Reply

/-- Functions of the store. -/
abbrev Async := Prog Call Call.Answer JsError

/-- A page has been read. -/
def Memory.hold (self : Tid) (load : HistoryLoad) (manager : Outgoing.Fields)
    (r : Except JsError ChatHistoryPage) (m : Memory) : Memory :=
  { m with
    manager := manager
    held := match r with
      | .ok page => Function.update m.held self (some (load, page))
      | .error _ => m.held }

/-- The manager has gone on; it may have written an accepted copy. -/
def Memory.owe (self : Tid) (manager : Outgoing.Fields) (accepted : Option SentMessage)
    (m : Memory) : Memory :=
  { m with
    manager := manager
    owed := match accepted with
      | none => m.owed
      | some accepted => Function.update m.owed self (some accepted) }

/-- The end of `loadHistory`. -/
def Memory.finish (self : Tid) (load : HistoryLoad)
    (answer : Except JsError (List DisplayMessage × Option ChatHistoryCursor)) (m : Memory) :
    Memory :=
  { m with
    view := finishHistory load answer m.view
    held := Function.update m.held self none }

section System

variable (has : MessengerMethods) (chatOf : String → String)

/-- The updates that a segment of the manager hands to the delivery handlers. -/
def emitted (s s' : Outgoing.Fields) : List MessageDeliveryUpdate :=
  (s'.trace.take (s'.trace.length - s.trace.length)).reverse.filterMap fun event =>
    match event with
    | .delivery update => some update
    | _ => none

/-- A segment of the manager; the chat store handles the updates at once. -/
def within {α : Type} (self : Tid) (mark : Option Outgoing.Mark)
    (f : Outgoing.Fields → α × Outgoing.Fields) (m : Memory) : α × Memory :=
  ((f m.manager).1,
    { m with
      manager := (f m.manager).2
      view := (emitted m.manager (f m.manager).2).foldl
        (fun v update => (ChatEvent.delivery update).handle has v) m.view
      owed := match mark with
        | some (.queueDelivery _) => Function.update m.owed self none
        | _ => m.owed })

/-- A call of the manager. -/
def call (self : Tid) : Outgoing.Call → Call
  | .segment mark f => .segment mark (within has self mark f)
  | .settle g => .settle (.manager self g)

/-- Its answer. -/
def answer (self : Tid) : ∀ e : Outgoing.Call, (call has self e).Answer → e.Answer
  | .segment _ _, a => a
  | .settle _, r => r

/-- A function of the manager. -/
def ofManager {α : Type} (self : Tid) (p : Outgoing.Async α) : Async α :=
  p.lift (call has self) (answer has self)

/-- `loadChatHistory`. -/
def loadChatHistory (self : Tid) (load : HistoryLoad) :
    Async (List DisplayMessage × Option ChatHistoryCursor) := do
  let scope ← ofManager has self Outgoing.scope
  let page ← awaits (Promise.readChatHistory self scope.scope load)
  ofManager has self (Outgoing.reads (·.checkScope scope))
  let decoded ← awaits (Promise.decodeSnapshot page)
  ofManager has self (Outgoing.reads (·.checkScope scope))
  return (decoded.map LoadedMessage.toDisplayMessage, page.nextBefore)

/-- `loadHistory`; `begin` is what is done up to its `await`. -/
def loadHistory (self : Tid) (begin : ChatView → Option HistoryLoad × ChatView) : Async Unit := do
  match ← segment none fun m => ((begin m.view).1, { m with view := (begin m.view).2 }) with
  | none => return ()
  | some load =>
      let answer ← Prog.attempt (loadChatHistory has self load)
      segment none fun m => ((), m.finish self load answer)

/-- The accepted copy that a transaction has written and returned. -/
def written : (g : Outgoing.Promise) → Except JsError g.Reply → Option SentMessage
  | .applyDeliveryReceipt _ _, (r : Except JsError (Option OutgoingCommand)) =>
      r.toOption.bind fun outgoing => outgoing.bind (·.accepted)
  | .mergeSentMetadata _ _, (r : Except JsError SentMessage) => r.toOption
  | _, _ => none

/-- The server names the chat of each message. -/
def Named : (g : Outgoing.Promise) → Except JsError g.Reply → Prop
  | .getSentMessages _, (r : Except JsError SentMessagesPage) =>
      ∀ page, r = .ok page → ∀ message ∈ page.messages, message.chatId = chatOf message.id
  | _, _ => True

/-- How promises settle. -/
def settles : (g : Promise) → Memory → Except JsError g.Reply → Memory → Prop
  | .readChatHistory self scope load, m, r, m' =>
      ∃ manager, m.manager.stores
          (readChatHistory scope load.chatId (.integer 50) load.before) r manager ∧
        m' = m.hold self load manager r
  | .decodeSnapshot page, m, r, m' =>
      m' = m ∧ ∃ (a : ServiceAnswers) (sync : SyncAnswers), a.sync = some sync ∧
        (∀ read ref, m.manager.current = some ref → sync.scopeAt read = .ok ref) ∧
        r = decodeSnapshot a page.envelopes page.outgoing false
  | .manager self g, m, r, m' =>
      ∃ manager, Outgoing.settles g m.manager r manager ∧ Named chatOf g r ∧
        m' = m.owe self manager (written g r)

/-- What happens to the store and the manager. -/
inductive Op
  /-- A chat is selected. -/
  | selectChat (chatId : String)
  /-- A page of a chat is loaded. -/
  | loadHistory (chatId : String) (previous : Bool)
  /-- A delivery receipt arrives. -/
  | delivered (receipt : MessageEnvelope)

/-- The program of an operation. -/
def Op.prog (self : Tid) : Op → Async Unit
  | .selectChat chatId =>
      Shown.loadHistory has self fun v => beginHistory has chatId false (retainHistory has chatId v)
  | .loadHistory chatId previous =>
      Shown.loadHistory has self (beginHistory has chatId previous)
  | .delivered receipt => ofManager has self (Outgoing.handleDeliveryReceipt receipt)

/-- The chat store beside the manager, within one run and one session. -/
def session : System Call Call.Answer JsError Memory Op where
  exec := Segmented.exec (settles chatOf)
  prog := fun self op => op.prog has self
  start := fun _ _ m m' => m' = m
  stop := fun _ _ _ => False
  env := fun _ _ => False

end System

section Invariant

/-- A page shows no older copy of the message. -/
def PageFrom (a : SentMessage) (page : ChatHistoryPage) : Prop :=
  ∀ o ∈ page.outgoing, ∀ b, o.accepted = some b → b.id = a.id → acceptedRank a ≤ acceptedRank b

/-- The message of the copy is shown; or, unless the stored row is newer than the
copy, no page that is being loaded shows an older copy than the row. -/
def Timely (scope : InboxScope) (m : Memory) (accepted : SentMessage) : Prop :=
  IsListed accepted.id (m.view.shown accepted.chatId) ∨
    ∀ r a, OwnRow scope m.manager.db r a → a.id = accepted.id →
      acceptedRank a ≤ acceptedRank accepted →
      ∀ t load page, m.held t = some (load, page) → load.isCurrent m.view = true →
        PageFrom a page

/-- Updates are queued in time. -/
def InTime (scope : InboxScope) (_ : Tid) : (e : Call) → Memory → e.Answer → Prop
  | .segment (some (.queueDelivery accepted)) _, m, _ => Timely scope m accepted
  | _, _, _ => True

/-- The message is shown with the status of the copy, and the pages that are
being loaded do not change that. -/
structure CaughtUp (m : Memory) (a : SentMessage) : Prop where
  shown : ∀ c, ∀ x ∈ m.view.shown c, RankFrom a.id (acceptedRank a) x
  held : ∀ t load page, m.held t = some (load, page) → load.isCurrent m.view = true →
    IsListed a.id (m.view.shown load.chatId) ∨ PageFrom a page

/-- A page of one chat, with no envelopes of the device's own messages. -/
structure Snapshot (chatOf : String → String) (scope : InboxScope) (db : Database)
    (load : HistoryLoad) (page : ChatHistoryPage) : Prop where
  envelopes : ∀ e ∈ page.envelopes, e.chat_id = load.chatId
  outgoing : ∀ o ∈ page.outgoing, o.command.chat_id = load.chatId
  received : ∀ r a, OwnRow scope db r a → ∀ e ∈ page.envelopes, e.message_id ≠ a.id
  sent : ∀ r a, OwnRow scope db r a → ∀ o ∈ page.outgoing, commandMessageId scope o = a.id →
    (∃ b, o.accepted = some b) ∧ load.chatId = chatOf a.id

/-- What holds in every state of a session. -/
structure Inv (chatOf : String → String) (ref : ScopeRef) (m : Memory) : Prop where
  current : m.manager.current = some ref
  inFlight : m.manager.inFlight = []
  recovering : m.manager.recovering = none
  pendingDeliveries : m.manager.pendingDeliveries = .empty
  tidy : Tidy m.view
  rows : OwnRows chatOf ref.scope m.manager.db
  held : ∀ t load page, m.held t = some (load, page) →
    load.request < m.view.fresh ∧ Snapshot chatOf ref.scope m.manager.db load page
  placed : ∀ r a, OwnRow ref.scope m.manager.db r a → ∀ c, ∀ x ∈ m.view.shown c,
    x.messageId = a.id → c = chatOf a.id ∧ 2 ≤ statusRank x.status.get
  statuses : ∀ r a, OwnRow ref.scope m.manager.db r a →
    CaughtUp m a ∨ ∃ t b, m.owed t = some b ∧ b.id = a.id ∧ acceptedRank a ≤ acceptedRank b

variable {chatOf : String → String} {ref : ScopeRef} {scope : InboxScope} {db db' : Database}
  {load : HistoryLoad} {page : ChatHistoryPage} {m m' : Memory} {a : SentMessage} {t : Tid}

theorem commandMessageId_accepted {o : OutgoingCommand} (h : o.accepted = some a) :
    commandMessageId scope o = a.id := by
  rw [commandMessageId, h]
  rfl

/-- The page shows a row of one's own as it is stored. -/
theorem accepted_of_read (hrows : OwnRows chatOf scope db) {r : Stored OutgoingCommand}
    (hr : OwnRow scope db r a) {before : Option ChatHistoryCursor} {chatId : String}
    (hok : readChatHistory scope chatId (.integer 50) before db = .ok (page, db'))
    {o : OutgoingCommand} (ho : o ∈ page.outgoing) (hid : commandMessageId scope o = a.id) :
    o = r.value ∧ chatId = chatOf a.id := by
  obtain ⟨-, -, hsent⟩ := readChatHistory_rows hrows.store hok
  obtain ⟨r', hr', hscope, hchat, rfl⟩ := hsent o ho
  obtain rfl := hrows.distinct r a hr r' hr' hscope hid
  exact ⟨rfl, hchat.symm.trans (hrows.chats r' a hr).2⟩

theorem snapshot_of_read (hrows : OwnRows chatOf scope db)
    (hok : readChatHistory scope load.chatId (.integer 50) load.before db = .ok (page, db')) :
    Snapshot chatOf scope db load page := by
  obtain ⟨-, hreceived, hsent⟩ := readChatHistory_rows hrows.store hok
  refine ⟨fun e he => ?_, fun o ho => ?_, fun r a hr e he => ?_, fun r a hr o ho hid => ?_⟩
  · obtain ⟨r, -, -, hchat, rfl⟩ := hreceived e he
    exact hchat
  · obtain ⟨r, -, -, hchat, rfl⟩ := hsent o ho
    exact hchat
  · obtain ⟨r', hr', hscope, -, rfl⟩ := hreceived e he
    exact hrows.received r a hr r' hr' hscope
  · obtain ⟨rfl, hchat⟩ := accepted_of_read hrows hr hok ho hid
    exact ⟨⟨a, hr.2.2⟩, hchat⟩

theorem Snapshot.mono (h : Snapshot chatOf scope db load page)
    (hids : ∀ r' a', OwnRow scope db' r' a' → ∃ r a, OwnRow scope db r a ∧ a.id = a'.id) :
    Snapshot chatOf scope db' load page := by
  refine ⟨h.envelopes, h.outgoing, fun r' a' hr' => ?_, fun r' a' hr' => ?_⟩
  · obtain ⟨r, a, hr, hid⟩ := hids r' a' hr'
    exact hid ▸ h.received r a hr
  · obtain ⟨r, a, hr, hid⟩ := hids r' a' hr'
    exact hid ▸ h.sent r a hr

/-- A message of the page that is one's own is a copy on the page. -/
theorem Snapshot.own (h : Snapshot chatOf scope db load page) {r : Stored OutgoingCommand}
    (hr : OwnRow scope db r a) {x : DisplayMessage} (hx : OfPage scope page x)
    (hid : x.messageId = a.id) :
    load.chatId = chatOf a.id ∧ ∃ o ∈ page.outgoing, ∃ b, o.accepted = some b ∧ b.id = a.id ∧
      statusRank x.status.get = acceptedRank b := by
  rcases hx with ⟨e, he, hmessage, -⟩ | ⟨o, ho, hmessage, -, hstatus⟩
  · exact absurd (hmessage.symm.trans hid) (h.received r a hr e he)
  · obtain ⟨⟨b, hb⟩, hchat⟩ := h.sent r a hr o ho (hmessage.symm.trans hid)
    exact ⟨hchat, o, ho, b, hb, (commandMessageId_accepted hb).symm.trans
      (hmessage.symm.trans hid), hstatus b hb⟩

theorem Snapshot.chatId (h : Snapshot chatOf scope db load page) {x : DisplayMessage}
    (hx : OfPage scope page x) : x.chatId = load.chatId := by
  rcases hx with ⟨e, he, -, hchat⟩ | ⟨o, ho, -, hchat, -⟩
  · exact hchat.trans (h.envelopes e he)
  · exact hchat.trans (h.outgoing o ho)

/-- Loads under way are of the view before. -/
def Continue (m m' : Memory) : Prop :=
  ∀ t load page, m'.held t = some (load, page) →
    m.held t = some (load, page) ∧ (load.isCurrent m'.view = true → load.isCurrent m.view = true)

/-- The lists of some chats are dropped, with their loads. -/
structure Drops (m m' : Memory) : Prop where
  manager : m'.manager = m.manager
  owed : m'.owed = m.owed
  fresh : m.view.fresh ≤ m'.view.fresh
  tidy : Tidy m.view → Tidy m'.view
  loads : Continue m m'
  shown : ∀ c, m'.view.shown c = m.view.shown c ∨
    (m'.view.shown c = [] ∧ m'.view.run.historyRequests.get c = none)

theorem Drops.mem (h : Drops m m') {c : String} {x : DisplayMessage} (hx : x ∈ m'.view.shown c) :
    x ∈ m.view.shown c := by
  rcases h.shown c with heq | ⟨heq, -⟩
  · exact heq ▸ hx
  · rw [heq] at hx
    cases hx

theorem Drops.caughtUp (h : Drops m m') (hup : CaughtUp m a) : CaughtUp m' a := by
  refine ⟨fun c x hx => hup.shown c x (h.mem hx), fun t load page hheld hcurrent => ?_⟩
  obtain ⟨hold, hbefore⟩ := h.loads t load page hheld
  refine (hup.held t load page hold (hbefore hcurrent)).imp_left fun hlisted => ?_
  rcases h.shown load.chatId with heq | ⟨-, hnone⟩
  · rw [heq]
    exact hlisted
  · unfold HistoryLoad.isCurrent at hcurrent
    rw [hnone] at hcurrent
    simp at hcurrent

theorem Inv.drops (h : Inv chatOf ref m) (hd : Drops m m') : Inv chatOf ref m' := by
  obtain ⟨hcurrent, hfree, hrecovering, hqueue, htidy, hrows, hheld, hplaced, hstatuses⟩ := h
  rw [← hd.manager] at hcurrent hfree hrecovering hqueue hrows hheld hplaced hstatuses
  rw [← hd.owed] at hstatuses
  refine ⟨hcurrent, hfree, hrecovering, hqueue, hd.tidy htidy, hrows, fun t load page h => ?_,
    fun r a hr c x hx => hplaced r a hr c x (hd.mem hx), fun r a hr => ?_⟩
  · obtain ⟨hfresh, hsnapshot⟩ := hheld t load page (hd.loads t load page h).1
    exact ⟨hfresh.trans_le hd.fresh, hsnapshot⟩
  · exact (hstatuses r a hr).imp_left hd.caughtUp

/-- Messages are merged into the lists. -/
structure Merges (chatOf : String → String) (scope : InboxScope)
    (incoming : String → List DisplayMessage) (m m' : Memory) : Prop where
  tidy : Tidy m'.view
  fresh : m'.view.fresh = m.view.fresh
  loads : Continue m m'
  shown : ∀ c, m'.view.shown c = mergeMessages (m.view.shown c) (incoming c)
  own : ∀ r a, OwnRow scope m.manager.db r a → ∀ c, ∀ u ∈ incoming c, u.messageId = a.id →
    c = chatOf a.id ∧ 2 ≤ statusRank u.status.get

variable {incoming : String → List DisplayMessage}

theorem Merges.placed (h : Merges chatOf ref.scope incoming m m') (hinv : Inv chatOf ref m)
    {r : Stored OutgoingCommand} (hr : OwnRow ref.scope m.manager.db r a) {c : String}
    {x : DisplayMessage} (hx : x ∈ m'.view.shown c) (hid : x.messageId = a.id) :
    c = chatOf a.id ∧ 2 ≤ statusRank x.status.get := by
  rw [h.shown c] at hx
  constructor
  · rcases id_mergeMessages (hinv.tidy.nodup c) hx with ⟨x', hx', hid'⟩ | ⟨u, hu, hid'⟩
    · exact (hinv.placed r a hr c x' hx' (hid'.trans hid)).1
    · exact (h.own r a hr c u hu (hid'.trans hid)).1
  · exact rankFrom_mergeMessages (hinv.tidy.nodup c) le_rfl
      (fun x' hx' hid' => (hinv.placed r a hr c x' hx' hid').2)
      (.inl fun u hu hid' => (h.own r a hr c u hu hid').2) x hx hid

/-- A message that is shown remains shown. -/
theorem Merges.listed (h : Merges chatOf ref.scope incoming m m') (hinv : Inv chatOf ref m)
    {r : Stored OutgoingCommand} (hr : OwnRow ref.scope m.manager.db r a) {c : String}
    (hlisted : IsListed a.id (m.view.shown c)) : IsListed a.id (m'.view.shown c) := by
  rw [h.shown c]
  exact isListed_mergeMessages (hinv.tidy.nodup c) le_rfl
    (fun x hx hid => (hinv.placed r a hr c x hx hid).2) hlisted

theorem Merges.caughtUp (h : Merges chatOf ref.scope incoming m m') (hinv : Inv chatOf ref m)
    {r : Stored OutgoingCommand} (hr : OwnRow ref.scope m.manager.db r a) (hup : CaughtUp m a)
    (hin : ∀ c, (∀ u ∈ incoming c, RankFrom a.id (acceptedRank a) u) ∨
      IsListed a.id (m.view.shown c)) : CaughtUp m' a := by
  refine ⟨fun c => ?_, fun t load page hheld hcurrent => ?_⟩
  · rw [h.shown c]
    exact rankFrom_mergeMessages (hinv.tidy.nodup c) (two_le_acceptedRank a) (hup.shown c) (hin c)
  · obtain ⟨hold, hbefore⟩ := h.loads t load page hheld
    exact (hup.held t load page hold (hbefore hcurrent)).imp_left (h.listed hinv hr)

theorem Merges.inv (h : Merges chatOf ref.scope incoming m m') (hinv : Inv chatOf ref m)
    (trace : List Outgoing.Event) (hmanager : m'.manager = { m.manager with trace := trace })
    (hstatuses : ∀ r a, OwnRow ref.scope m.manager.db r a → CaughtUp m' a ∨
      ∃ t b, m'.owed t = some b ∧ b.id = a.id ∧ acceptedRank a ≤ acceptedRank b) :
    Inv chatOf ref m' := by
  have hdb : m'.manager.db = m.manager.db := by rw [hmanager]
  refine ⟨?_, ?_, ?_, ?_, h.tidy, ?_, fun t load page hheld => ?_, ?_, ?_⟩
  · rw [hmanager]
    exact hinv.current
  · rw [hmanager]
    exact hinv.inFlight
  · rw [hmanager]
    exact hinv.recovering
  · rw [hmanager]
    exact hinv.pendingDeliveries
  · rw [hdb]
    exact hinv.rows
  · rw [hdb, h.fresh]
    exact hinv.held t load page (h.loads t load page hheld).1
  · rw [hdb]
    exact fun r a hr c x hx hid => h.placed hinv hr hx hid
  · rw [hdb]
    exact hstatuses

end Invariant

section Steps

/-! ### The steps -/

variable {chatOf : String → String} {ref : ScopeRef} {load : HistoryLoad} {m m' : Memory}
  {t : Tid}

/-- A page is read. -/
theorem Inv.hold (h : Inv chatOf ref m) (hload : load.request < m.view.fresh)
    {page : ChatHistoryPage} {db : Database}
    (hok : readChatHistory ref.scope load.chatId (.integer 50) load.before m.manager.db =
      .ok (page, db)) :
    Inv chatOf ref (m.hold t load m.manager (.ok page)) := by
  have hheld : ∀ u load' page', (m.hold t load m.manager (.ok page)).held u = some (load', page') →
      (u = t ∧ load' = load ∧ page' = page) ∨ m.held u = some (load', page') := by
    intro u load' page' hu
    have hu : Function.update m.held t (some (load, page)) u = some (load', page') := hu
    by_cases hut : u = t
    · rw [hut, Function.update_self] at hu
      obtain ⟨rfl, rfl⟩ := Prod.mk.inj (Option.some.inj hu)
      exact .inl ⟨hut, rfl, rfl⟩
    · rw [Function.update_of_ne hut] at hu
      exact .inr hu
  refine ⟨h.current, h.inFlight, h.recovering, h.pendingDeliveries, h.tidy, h.rows,
    fun u load' page' hu => ?_, h.placed, fun r a hr => (h.statuses r a hr).imp_left fun hup => ?_⟩
  · rcases hheld u load' page' hu with ⟨-, rfl, rfl⟩ | hu
    · exact ⟨hload, snapshot_of_read h.rows hok⟩
    · exact h.held u load' page' hu
  · refine ⟨hup.shown, fun u load' page' hu hcurrent => ?_⟩
    rcases hheld u load' page' hu with ⟨-, rfl, rfl⟩ | hu
    · refine .inr fun o ho b hb hid => ?_
      obtain ⟨rfl, -⟩ := accepted_of_read h.rows hr hok ho
        ((commandMessageId_accepted hb).trans hid)
      rw [Option.some.inj (hr.2.2.symm.trans hb)]
    · exact hup.held u load' page' hu hcurrent

/-- `loadHistory` ends. -/
theorem Inv.finish (h : Inv chatOf ref m)
    {answer : Except JsError (List DisplayMessage × Option ChatHistoryCursor)}
    (hanswer : ∀ messages next, answer = .ok (messages, next) → ∃ page,
      m.held t = some (load, page) ∧ ∀ x ∈ messages, OfPage ref.scope page x) :
    Inv chatOf ref (m.finish t load answer) := by
  have hheld : ∀ u load' page', (m.finish t load answer).held u = some (load', page') →
      m.held u = some (load', page') := by
    intro u load' page' hu
    have hu : Function.update m.held t none u = some (load', page') := hu
    by_cases hut : u = t
    · rw [hut, Function.update_self] at hu
      cases hu
    · rw [Function.update_of_ne hut] at hu
      exact hu
  have hchat : ∀ messages next, answer = .ok (messages, next) →
      ∀ x ∈ messages, x.chatId = load.chatId := by
    intro messages next heq x hx
    obtain ⟨page, hpage, hof⟩ := hanswer messages next heq
    exact (h.held t load page hpage).2.chatId (hof x hx)
  cases hcurrent : load.isCurrent m.view with
  | false =>
      have hview : (m.finish t load answer).view = _ := finishHistory_superseded hcurrent answer
      refine h.drops ⟨rfl, rfl, ?_, ?_, fun u load' page' hu => ⟨hheld u load' page' hu, ?_⟩, ?_⟩
      · rw [hview]
        exact le_rfl
      · exact fun htidy => htidy.finish hchat
      · rw [hview]
        exact id
      · rw [hview]
        exact fun c => .inl rfl
  | true =>
      obtain ⟨history, messages, -, hmessages, heq⟩ := finishHistory_current hcurrent answer
      have hview : (m.finish t load answer).view = _ := heq
      have hmerges : Merges chatOf ref.scope (fun c => messagesOf c messages) m
          (m.finish t load answer) := by
        refine ⟨h.tidy.finish hchat, ?_, fun u load' page' hu => ⟨hheld u load' page' hu, ?_⟩,
          fun c => ?_, fun r a hr c u hu hid => ?_⟩
        · rw [hview]
        · rw [hview]
          unfold HistoryLoad.isCurrent
          simp only [Dict.get_delete]
          split_ifs
          · simp
          · exact id
        · rw [hview]
          exact getD_mergeMessagesByChat messages
        · obtain ⟨hu, hc⟩ := List.mem_filter.mp hu
          rcases hmessages with rfl | ⟨next, hok⟩
          · cases hu
          · obtain ⟨page, hpage, hof⟩ := hanswer messages next hok
            have hsnapshot := (h.held t load page hpage).2
            obtain ⟨hplace, o, -, b, -, -, hrank⟩ := hsnapshot.own hr (hof u hu) hid
            exact ⟨((of_decide_eq_true hc).symm.trans (hsnapshot.chatId (hof u hu))).trans hplace,
              hrank ▸ two_le_acceptedRank b⟩
      refine hmerges.inv h m.manager.trace rfl fun r a hr =>
        (h.statuses r a hr).imp_left fun hup => hmerges.caughtUp h hr hup fun c => ?_
      rcases hmessages with rfl | ⟨next, hok⟩
      · exact .inl fun u hu => by cases hu
      · obtain ⟨page, hpage, hof⟩ := hanswer messages next hok
        have hsnapshot := (h.held t load page hpage).2
        by_cases hc : c = load.chatId
        · subst hc
          rcases hup.held t load page hpage hcurrent with hlisted | hpages
          · exact .inr hlisted
          · refine .inl fun u hu hid => ?_
            obtain ⟨-, o, ho, b, hb, hb', hrank⟩ := hsnapshot.own hr
              (hof u (List.mem_filter.mp hu).1) hid
            exact (hpages o ho b hb hb').trans hrank.ge
        · refine .inl fun u hu => absurd ?_ hc
          obtain ⟨hu, hchat'⟩ := List.mem_filter.mp hu
          exact (of_decide_eq_true hchat').symm.trans (hsnapshot.chatId (hof u hu))

/-- A transaction has left the rows alone, or rewritten one and returned the
copy. -/
def Wrote (chatOf : String → String) (scope : InboxScope) (db db' : Database)
    (accepted : Option SentMessage) : Prop :=
  (db'.envelopes = db.envelopes ∧ db'.outgoing = db.outgoing) ∨
    ∃ r b a, Rewrites scope r b a db db' ∧ a.chatId = chatOf a.id ∧ accepted = some a

theorem Wrote.ownRow {scope : InboxScope} {db db' : Database} {accepted : Option SentMessage}
    (h : Wrote chatOf scope db db' accepted) (hdb : HistoryStore db) {r : Stored OutgoingCommand}
    {a : SentMessage} (hr : OwnRow scope db' r a) :
    OwnRow scope db r a ∨ (accepted = some a ∧ ∃ r' b, OwnRow scope db r' b ∧ b.id = a.id) := by
  rcases h with ⟨-, hout⟩ | ⟨r', b, a', hrewrites, -, rfl⟩
  · unfold OwnRow at hr ⊢
    rw [← hout]
    exact .inl hr
  · rcases hrewrites.ownRow hdb hr with ⟨rfl, rfl⟩ | ⟨hr, -⟩
    · exact .inr ⟨rfl, r', b, hrewrites.row, hrewrites.id_eq.symm⟩
    · exact .inl hr

theorem owed_owe {accepted : Option SentMessage} {manager : Outgoing.Fields} {u : Tid}
    {b : SentMessage} (hfree : m.owed t = none) (hu : m.owed u = some b) :
    (m.owe t manager accepted).owed u = some b := by
  have hut : u ≠ t := by
    rintro rfl
    rw [hfree] at hu
    cases hu
  cases accepted with
  | none => exact hu
  | some accepted => exact (Function.update_of_ne hut _ _).trans hu

/-- A transaction of the manager commits. -/
theorem Inv.owe (h : Inv chatOf ref m) (hfree : m.owed t = none) {db : Database}
    {accepted : Option SentMessage}
    (hwrote : Wrote chatOf ref.scope m.manager.db db accepted) :
    Inv chatOf ref (m.owe t { m.manager with db := db } accepted) := by
  have hids : ∀ r' a', OwnRow ref.scope db r' a' →
      ∃ r a, OwnRow ref.scope m.manager.db r a ∧ a.id = a'.id := by
    intro r' a' hr'
    rcases hwrote.ownRow h.rows.store hr' with hr | ⟨-, r, b, hr, hid⟩
    · exact ⟨r', a', hr, rfl⟩
    · exact ⟨r, b, hr, hid⟩
  refine ⟨h.current, h.inFlight, h.recovering, h.pendingDeliveries, h.tidy, ?_,
    fun u load' page' hu => ?_, fun r' a' hr' => ?_, fun r a hr => ?_⟩
  · rcases hwrote with ⟨henvelopes, hout⟩ | ⟨r, b, a, hrewrites, hchat, -⟩
    · exact h.rows.congr henvelopes hout
    · exact hrewrites.ownRows h.rows hchat
  · obtain ⟨hfresh, hsnapshot⟩ := h.held u load' page' hu
    exact ⟨hfresh, hsnapshot.mono hids⟩
  · obtain ⟨r, a, hr, hid⟩ := hids r' a' hr'
    exact hid ▸ h.placed r a hr
  · rcases hwrote.ownRow h.rows.store hr with hr | ⟨rfl, -⟩
    · rcases h.statuses r a hr with hup | ⟨u, b, hu, hid, hrank⟩
      · exact .inl ⟨hup.shown, hup.held⟩
      · exact .inr ⟨u, b, owed_owe hfree hu, hid, hrank⟩
    · exact .inr ⟨t, a, Function.update_self .., rfl, le_rfl⟩

/-- The update that tells the delivery handlers of a copy. -/
def deliveryUpdate (accepted : SentMessage) : MessageDeliveryUpdate :=
  ⟨accepted.id, accepted.chatId, accepted.chatSeq, (deliveryState (some accepted)).1,
    (deliveryState (some accepted)).2⟩

/-- Nothing keeps an update of the session from the handlers. -/
theorem Inv.queueDelivery (h : Inv chatOf ref m) (accepted : SentMessage) :
    m.manager.queueDelivery ref accepted =
      m.manager.log (.delivery (deliveryUpdate accepted)) := by
  obtain ⟨hcurrent, hfree, hrecovering, hqueue, -, -, -, -, -⟩ := h
  revert hcurrent hfree hrecovering hqueue
  cases m.manager
  rintro rfl rfl rfl rfl
  have hvalues (update : MessageDeliveryUpdate) :
      (Dict.empty.set accepted.id (ref, update)).values = [(ref, update)] := rfl
  unfold Outgoing.Fields.queueDelivery Outgoing.Fields.publishDeliveries
  simp [hvalues, Outgoing.Fields.log, deliveryUpdate]

/-- The chat store has handled the update of a copy. -/
def Memory.emit (has : MessengerMethods) (self : Tid) (accepted : SentMessage) (m : Memory) :
    Memory :=
  { m with
    manager := m.manager.log (.delivery (deliveryUpdate accepted))
    view := (ChatEvent.delivery (deliveryUpdate accepted)).handle has m.view
    owed := Function.update m.owed self none }

/-- A manager step that emits an update leaves the loads alone. -/
theorem continue_emit {has : MessengerMethods} (hload : has.loadChatHistory = true)
    (htidy : Tidy m.view) (accepted : SentMessage) : Continue m (m.emit has t accepted) := by
  intro u load' page' hu
  refine ⟨hu, fun hcurrent => ?_⟩
  have hrequests := (mild_handle (v := m.view) hload (.delivery (deliveryUpdate accepted))).requests
  unfold HistoryLoad.isCurrent at hcurrent ⊢
  rw [Bool.and_eq_true] at hcurrent ⊢
  exact ⟨htidy.current, hrequests ▸ hcurrent.2⟩

/-- The update of a message that is shown is merged into its list. -/
theorem merges_emit {has : MessengerMethods} (hload : has.loadChatHistory = true)
    (h : Inv chatOf ref m) {accepted : SentMessage}
    (hlisted : IsListed accepted.id (m.view.shown accepted.chatId)) :
    ∃ u, u.messageId = accepted.id ∧ statusRank u.status.get = acceptedRank accepted ∧
      Merges chatOf ref.scope (fun c => if c = accepted.chatId then [u] else []) m
        (m.emit has t accepted) := by
  obtain ⟨htidy, hothers, u, hid, hstatus, hshown⟩ :=
    handle_shown (u := deliveryUpdate accepted) hload h.tidy hlisted
  have hrank : statusRank u.status.get = acceptedRank accepted := by
    rw [hstatus]
    rfl
  refine ⟨u, hid, hrank, htidy, ?_, continue_emit hload h.tidy accepted, fun c => ?_,
    fun r a hr c u' hu' hid' => ?_⟩
  · exact (mild_handle (v := m.view) hload _).fresh
  · by_cases hc : c = accepted.chatId
    · rw [if_pos hc, hc]
      exact hshown
    · rw [if_neg hc, mergeMessages_nil]
      exact hothers c hc
  · by_cases hc : c = accepted.chatId
    · rw [if_pos hc, List.mem_singleton] at hu'
      subst hc hu'
      obtain ⟨x, hx, hxid⟩ := hlisted
      exact ⟨(h.placed r a hr _ x hx (hxid.trans (hid.symm.trans hid'))).1,
        hrank ▸ two_le_acceptedRank accepted⟩
    · rw [if_neg hc] at hu'
      cases hu'

/-- The row of the copy has caught up with the update that is emitted. -/
theorem caughtUp_emit {has : MessengerMethods} (hload : has.loadChatHistory = true)
    (h : Inv chatOf ref m) {accepted : SentMessage} (hchat : accepted.chatId = chatOf accepted.id)
    (htimely : Timely ref.scope m accepted) {r : Stored OutgoingCommand} {a : SentMessage}
    (hr : OwnRow ref.scope m.manager.db r a) (hid : accepted.id = a.id)
    (hrank : acceptedRank a ≤ acceptedRank accepted) : CaughtUp (m.emit has t accepted) a := by
  have hplace : ∀ c, IsListed a.id (m.view.shown c) → c = accepted.chatId := by
    rintro c ⟨x, hx, hxid⟩
    rw [hchat, hid]
    exact (h.placed r a hr c x hx hxid).1
  by_cases hlisted : IsListed accepted.id (m.view.shown accepted.chatId)
  · obtain ⟨u, hu, hstatus, hmerges⟩ := merges_emit (t := t) hload h hlisted
    refine ⟨fun c x hx => ?_, fun u' load' page' hheld hcurrent => ?_⟩
    · rw [hmerges.shown c] at hx
      by_cases hc : c = accepted.chatId
      · rw [if_pos hc] at hx
        rw [← hid, ← hu]
        exact rankFrom_mergeMessages_one (h.tidy.nodup c) (two_le_acceptedRank a)
          (hrank.trans hstatus.ge) x hx
      · rw [if_neg hc, mergeMessages_nil] at hx
        exact fun hxid => absurd (hplace c ⟨x, hx, hxid⟩) hc
    · by_cases hc : load'.chatId = accepted.chatId
      · exact .inl (hmerges.listed h hr (hc ▸ hid ▸ hlisted))
      · refine .inr fun o ho b hb hbid => absurd ?_ hc
        have hsnapshot := (h.held u' load' page' hheld).2
        rw [hchat, hid]
        exact (hsnapshot.sent r a hr o ho ((commandMessageId_accepted hb).trans hbid)).2
  · have hview : (m.emit has t accepted).view = m.view := handle_dropped hlisted
    refine ⟨fun c x hx hxid => ?_, fun u' load' page' hheld hcurrent => .inr ?_⟩
    · rw [hview] at hx
      exact absurd (hplace c ⟨x, hx, hxid⟩ ▸ hid ▸ ⟨x, hx, hxid⟩) hlisted
    · rw [hview] at hcurrent
      exact htimely.resolve_left hlisted r a hr hid.symm hrank u' load' page' hheld hcurrent

/-- An update is emitted in time. -/
theorem Inv.emit {has : MessengerMethods} (hload : has.loadChatHistory = true)
    (h : Inv chatOf ref m) {accepted : SentMessage}
    (howed : ∀ b, m.owed t = some b → b = accepted ∧ accepted.chatId = chatOf accepted.id)
    (htimely : Timely ref.scope m accepted) : Inv chatOf ref (m.emit has t accepted) := by
  have hstatuses : ∀ r a, OwnRow ref.scope m.manager.db r a →
      (CaughtUp m a → CaughtUp (m.emit has t accepted) a) →
      CaughtUp (m.emit has t accepted) a ∨ ∃ u b, (m.emit has t accepted).owed u = some b ∧
        b.id = a.id ∧ acceptedRank a ≤ acceptedRank b := by
    intro r a hr hkept
    rcases h.statuses r a hr with hup | ⟨u, b, hu, hid, hrank⟩
    · exact .inl (hkept hup)
    · by_cases hut : u = t
      · subst hut
        obtain ⟨rfl, hchat⟩ := howed b hu
        exact .inl (caughtUp_emit hload h hchat htimely hr hid hrank)
      · exact .inr ⟨u, b, (Function.update_of_ne hut _ _).trans hu, hid, hrank⟩
  by_cases hlisted : IsListed accepted.id (m.view.shown accepted.chatId)
  · obtain ⟨u, hu, hstatus, hmerges⟩ := merges_emit (t := t) hload h hlisted
    refine hmerges.inv h _ rfl fun r a hr => hstatuses r a hr fun hup =>
      hmerges.caughtUp h hr hup fun c => ?_
    by_cases hc : c = accepted.chatId
    · by_cases hid : a.id = accepted.id
      · exact .inr (hid ▸ hc ▸ hlisted)
      · rw [if_pos hc]
        refine .inl fun u' hu' hid' => absurd ?_ hid
        rw [List.mem_singleton.mp hu'] at hid'
        exact hid'.symm.trans hu
    · rw [if_neg hc]
      exact .inl fun u' hu' => by cases hu'
  · have hview : (m.emit has t accepted).view = m.view := handle_dropped hlisted
    refine ⟨h.current, h.inFlight, h.recovering, h.pendingDeliveries, ?_, h.rows, ?_, ?_,
      fun r a hr => hstatuses r a hr fun hup => ⟨?_, ?_⟩⟩
    · rw [hview]
      exact h.tidy
    · rw [hview]
      exact h.held
    · rw [hview]
      exact h.placed
    · rw [hview]
      exact hup.shown
    · rw [hview]
      exact hup.held

end Steps

end Shown
end Client
end SecureMessenger
