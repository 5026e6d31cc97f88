import SecureMessenger.Client.OutgoingManager
import SecureMessenger.Client.ReadRuns
import SecureMessenger.EndToEnd.Wire
import SecureMessenger.Lib.Parts
import SecureMessenger.Server.ChatMembers

/-!
# Recovery against the running server

After `synchronize`, `loadMailbox` first fetches the metadata of the messages
that nobody else has read, and then the read cursors.  This file runs these two
walks against a server that goes on taking requests.  The server is given by a
run; a response of it is the result of a request that has arrived since the
client asked and has been answered by now.  Notifications, timers and other
functions of the read cursors may run in between, and requests may fail.
-/

namespace SecureMessenger
namespace EndToEnd
namespace Recovery

open Lib
open Lib.Discipline
open Client (JsError ScopeRef Inbox.runs)

/-- Calls of the two managers. -/
abbrev Call := Client.Outgoing.Call ⊕ Client.Reads.Call

/-- Answers of the calls. -/
abbrev Answer : Call → Type
  | .inl c => Client.Outgoing.Call.Answer c
  | .inr c => Client.Reads.Call.Answer c

/-- Functions of the two managers. -/
abbrev Async := Prog Call Answer JsError

/-- A function of `OutgoingManager`. -/
def ofOutgoing {α : Type} (p : Client.Outgoing.Async α) : Async α :=
  p.lift Sum.inl fun _ r => r

/-- A function of `ReadCursorManager`. -/
def ofReads {α : Type} (p : Client.Reads.Async α) : Async α :=
  p.lift Sum.inr fun _ r => r

/-- The device, and how far the server has come.  `merged`, `asked` and
`fetched` only record what happens. -/
structure Memory where
  /-- The moment of the run of the server. -/
  now : Nat := 0
  fields : Client.Outgoing.Fields
  tabs : Nat → Client.Reads.Manager
  reported : List Client.ChatReadCursor := []
  /-- What `mergeSentMetadata` has committed for a thread. -/
  merged : Tid → List Client.SentMessage := fun _ => []
  /-- When the thread went on last after awaiting something. -/
  asked : Tid → Nat := fun _ => 0
  /-- The database when the request for the first page of metadata arrived. -/
  fetched : Tid → Option Server.Db := fun _ => none

namespace Memory

variable (s : Memory)

/-- What `ReadCursorManager` works on. -/
def reads : Client.Reads.Memory :=
  ⟨s.fields.db, s.tabs, s.reported⟩

/-- `ReadCursorManager` has been at work. -/
def withReads (m : Client.Reads.Memory) : Memory :=
  { s with fields := { s.fields with db := m.db }, tabs := m.tabs, reported := m.reported }

/-- The thread goes on. -/
def goesOn (t : Tid) : Memory :=
  { s with asked := Function.update s.asked t s.now }

/-- A page of metadata has arrived. -/
def fetch (t : Tid) (began : Server.Db) : Memory :=
  { s with fetched := Function.update s.fetched t (some ((s.fetched t).getD began)) }

/-- A message has been merged. -/
def merge (t : Tid) (message : Client.SentMessage) : Memory :=
  { s with merged := Function.update s.merged t (message :: s.merged t) }

end Memory

section System

variable {sec : Server.Security} {init : Server.World → Prop}
  (T : Timeline (Server.serverSystem sec) init) (iso : Server.Instant → Client.Timestamp)
  (principal : Server.Principal) (ref : ScopeRef)

/-- The server at a moment of its run. -/
def world (n : Nat) : Server.World :=
  (T.pool n).shared

/-- A request that arrived after the moment `m`, in the state `began`, has been
answered by the moment `n`. -/
def Responds (m n : Nat) (op : Server.Op) (r : Server.Result) (began : Server.Db) : Prop :=
  ∃ u, (world T m).op u = none ∧ (world T n).op u = some op ∧
    (world T n).outcome u = some (.ok r) ∧ (world T n).began u = began

/-- What follows when a promise of `OutgoingManager` settles: the pages of
`getSentMessages(after, 100, true)` come from the server. -/
def Noted (t : Tid) (s : Memory) : (g : Client.Outgoing.Promise) → Except JsError g.Reply →
    Memory → Memory → Prop
  | .getSentMessages after, .ok page, s₁, s' => ∃ p began,
      Responds T (s.asked t) s.now (.sentPage principal after 100 true) (.sentMessages p) began ∧
        page = sentMessagesPage iso p ∧ s' = s₁.fetch t began
  | .mergeSentMetadata _ message, .ok _, s₁, s' => s' = s₁.merge t message
  | _, _, s₁, s' => s' = s₁

/-- Calls of `OutgoingManager`. -/
def execOutgoing (t : Tid) :
    (c : Client.Outgoing.Call) → Memory → Client.Outgoing.Call.Answer c → Memory → Prop
  | .segment _ f, s, a, s' => a = (f s.fields).1 ∧ s' = { s with fields := (f s.fields).2 }
  | .settle g, s, (r : Except JsError g.Reply), s' =>
      ∃ fields, Client.Outgoing.settles g s.fields r fields ∧
        Noted T iso principal t s g r ({ s with fields := fields }.goesOn t) s'

/-- The pages of `getChatStates(after, 100)` come from the server. -/
def Served (t : Tid) (s : Memory) : (g : Client.Reads.Promise) → Except JsError g.Reply → Prop
  | .getChatStates after, .ok page => ∃ p began,
      Responds T (s.asked t) s.now (.chatStates principal after 100) (.chatStates p) began ∧
        page = chatStatesPage iso p
  | _, _ => True

/-- Calls of `ReadCursorManager`. -/
def execReads (t : Tid) :
    (c : Client.Reads.Call) → Memory → Client.Reads.Call.Answer c → Memory → Prop
  | .segment _ f, s, a, s' => a = (f s.reads).1 ∧ s' = s.withReads (f s.reads).2
  | .settle g, s, (r : Except JsError g.Reply), s' =>
      Served T iso principal t s g r ∧
        ∃ m, Client.Reads.Promise.settles g s.reads r m ∧ s' = (s.withReads m).goesOn t

/-- What runs on the device. -/
inductive Op
  /-- The part of `loadMailbox` that recovers metadata and read cursors. -/
  | loadMailbox
  /-- The functions of `ReadCursorManager`, called from elsewhere. -/
  | reads (op : Client.Reads.Op)

/-- The steps of `loadMailbox` between `sync.synchronize` and
`recoverOutgoing`; its tab is the first one. -/
def loadMailbox : Async Unit := do
  ofOutgoing (Client.Outgoing.recoverSentMetadata ref)
  ofOutgoing (Client.Outgoing.reads (·.checkScope ref))
  ofReads (Client.Reads.synchronize 0)
  ofOutgoing (Client.Outgoing.reads (·.checkScope ref))

/-- What is not a step of a function. -/
inductive Env (s : Memory) : Memory → Prop
  /-- The server goes on. -/
  | server : Env s { s with now := s.now + 1 }
  /-- Timers, `start`, `stop` and the socket. -/
  | tab (i : Nat) {timer stopped ready : Bool} :
      Env s { s with tabs := Function.update s.tabs i { s.tabs i with
        timer := timer, stopped := stopped, ready := ready } }

/-- The device within one session. -/
def system : System Call Answer JsError Memory Op where
  exec t
    | .inl c => execOutgoing T iso principal t c
    | .inr c => execReads T iso principal t c
  prog _
    | .loadMailbox => loadMailbox ref
    | .reads op => ofReads op.prog
  start t op s s' :=
    match op with
    | .loadMailbox => s' = s.goesOn t
    | .reads op => ∃ m, (Client.Reads.readSystem ref.scope).start t op s.reads m ∧
        s' = (s.withReads m).goesOn t
  stop _ _ _ := False
  env := Env

/-- Nothing has been called yet; earlier sessions have left an inbox. -/
structure Memory.Initial (s : Memory) : Prop where
  now : s.now = 0
  rows : Client.Reads.ReadRows s.fields.db
  current : s.fields.current = some ref
  session : ∀ i, (s.tabs i).session = some ref
  asked : ∀ t, s.asked t = 0
  merged : ∀ t, s.merged t = []
  fetched : ∀ t, s.fetched t = none

end System

end Recovery
end EndToEnd
end SecureMessenger
