import SecureMessenger.Client.Prefix
import SecureMessenger.EndToEnd.Pages
import SecureMessenger.Server.Mailboxes

/-!
# One device on the line

One tab of a device synchronizes and takes in live envelopes, while the server
commits transactions of any kind.  The server answers a request for a page from
a state between the one in which the request left and the present one, and
publishes an envelope only after it is committed.  Acknowledgments may fail;
pages and transactions of the inbox do not.

`asked`, `began`, `op` and `place` only record what has happened.
-/

namespace SecureMessenger
namespace EndToEnd

open Lib
open Client (ScopeRef Call Request JsError JsNumber Inbox.runs Rows envelopeAt cursorAt scopeKey)

/-- What the tab is asked to do. -/
inductive LineOp
  | synchronize
  | ingest (envelope : Client.MailboxEnvelope)

def LineOp.prog : LineOp → Client.Async Unit
  | .synchronize => do
      let _ ← Client.synchronize
      return ()
  | .ingest envelope => do
      let _ ← Client.ingest envelope
      return ()

/-- The server, the device and the record of the run. -/
structure Line where
  server : Server.Db
  inbox : Client.Database
  tab : Client.Tab
  /-- The server when the last request of a thread left. -/
  asked : Tid → Server.Db
  /-- The server when the operation of a thread was called. -/
  began : Tid → Server.Db
  op : Tid → Option LineOp
  /-- The place of a thread in the promise chain. -/
  place : Tid → Option Nat

/-- A state the server may have answered from, if it has come from the first to
the last one. -/
structure Between (first db last : Server.Db) : Prop where
  wf : Server.Wf db
  since : Server.Follows first db
  upTo : Server.Follows db last

section System

variable (ref : ScopeRef) (iso : Server.Instant → Client.Timestamp)

/-- How the promise of a gateway call settles. -/
def Line.replies (t : Tid) (s : Line) : (g : Request) → Except JsError g.Reply → Prop
  | .getMailbox _ after limit, r => ∃ db, Between (s.asked t) db s.server ∧
      r = .ok (servedPage iso ref.scope.deviceId after.toNat limit db)
  | .acknowledgeEnvelope _ id, r => ∀ receipt, r = .ok receipt →
      ∃ db row now, Between (s.asked t) db s.server ∧ row ∈ db.envelopes ∧ row.id = id ∧
        row.recipient_device_id = ref.scope.deviceId ∧
          receipt = messageEnvelope iso (Server.Db.acknowledged now row)
  | .sendMessage _ _, _ => True
  | .findSentMessage _, _ => True
  | .getDestinationDevices _, _ => True
  | .getSentMessages _ _ _, _ => True
  | .getChatStates _ _, _ => True
  | .advanceReadCursor _ _, _ => True

/-- The calls of a thread. -/
def Line.exec (t : Tid) : (c : Call) → Line → c.Answer → Line → Prop
  | .inbox tx, s, r, s' => ∃ db, Inbox.runs tx s.inbox r db ∧ s' = { s with inbox := db }
  | .request _, s, _, s' => s' = { s with asked := Function.update s.asked t s.server }
  | .response g, s, r, s' => s' = s ∧ s.replies ref iso t g r
  | .notify _, s, _, s' => s' = s
  | .enqueue, s, (place : Nat), s' =>
      ∃ l, Client.Tab.exec .enqueue s.tab place l ∧
        s' = { s with tab := l, place := Function.update s.place t (some place) }
  | .leave place, s, r, s' =>
      ∃ l, Client.Tab.exec (.leave place) s.tab r l ∧
        s' = { s with tab := l, place := Function.update s.place t none }
  | c, s, r, s' => ∃ l, Client.Tab.exec c s.tab r l ∧ s' = { s with tab := l }

/-- An operation is called. -/
def Line.call (s : Line) (t : Tid) (op : LineOp) : Line :=
  { s with
    op := Function.update s.op t (some op)
    began := Function.update s.began t s.server }

/-- A live event about an envelope the server has committed. -/
def Line.Published (s : Line) (e : Client.MailboxEnvelope) : Prop :=
  ∃ db entry, Server.Wf db ∧ Server.Follows db s.server ∧
    EntryOf db ref.scope.deviceId entry ∧ e = mailboxEnvelope iso entry

/-- A transaction of the server commits.  The sequences of the mailbox are safe
integers. -/
def Line.commits (s s' : Line) : Prop :=
  ∃ sec op db, Server.Effect sec op s.server db ∧ db.uniqueKeys ∧
    (Server.lastSeq ref.scope.deviceId db : ℤ) ≤ JsNumber.maxSafeInteger ∧
      s' = { s with server := db }

/-- The device and the server as one system.  Live events may come in any
order, repeatedly or not at all. -/
def lineSystem : System Call Call.Answer JsError Line LineOp where
  exec := Line.exec ref iso
  prog := fun _ op => op.prog
  start := fun t op s s' => s' = s.call t op ∧
    match op with
    | .synchronize => True
    | .ingest envelope => s.Published ref iso envelope
  stop := fun _ _ _ => False
  env := Line.commits ref

end System

/-- An envelope of the device says what its row says, whatever version of the
row it comes from. -/
structure Agrees (x : Client.MailboxEnvelope) (entry : Server.MailboxEntry) : Prop where
  id : x.id = entry.envelope.id
  message_id : x.message_id = entry.envelope.message_id
  device : x.recipient_device_id = entry.envelope.recipient_device_id
  seq : x.mailbox_seq = .integer entry.envelope.mailbox_seq
  chat_id : x.chat_id = entry.message.chat_id

/-- The envelope is the copy of a row of the device. -/
def Mirrors (d : Server.UUID) (db : Server.Db) (x : Client.MailboxEnvelope) : Prop :=
  ∃ entry, EntryOf db d entry ∧ Agrees x entry

/-- The cursor of the device. -/
def Line.cursor (ref : ScopeRef) (s : Line) : ℤ :=
  cursorAt (scopeKey ref.scope) s.inbox

/-- What the inbox has of the mailbox: copies of rows of the server, among them
one for each sequence up to the cursor, which is not ahead of the server. -/
structure InStep (ref : ScopeRef) (server : Server.Db) (inbox : Client.Database) : Prop where
  rows : Rows inbox.envelopes
  stored : ∀ id x, envelopeAt ref.scope id inbox.envelopes = some x →
    Mirrors ref.scope.deviceId server x
  nonneg : 0 ≤ cursorAt (scopeKey ref.scope) inbox
  behind : cursorAt (scopeKey ref.scope) inbox ≤ Server.lastSeq ref.scope.deviceId server
  complete : ∀ k : ℤ, 1 ≤ k → k ≤ cursorAt (scopeKey ref.scope) inbox →
    ∃ id x, envelopeAt ref.scope id inbox.envelopes = some x ∧ x.mailbox_seq = .integer k

/-- Nothing has been called yet; earlier sessions have left an inbox. -/
structure Line.Initial (ref : ScopeRef) (s : Line) : Prop where
  wf : Server.Wf s.server
  mailbox : Server.HasMailbox ref.scope.deviceId s.server
  safe : (Server.lastSeq ref.scope.deviceId s.server : ℤ) ≤ JsNumber.maxSafeInteger
  valid : Client.valid ref.scope s.inbox = true
  inStep : InStep ref s.server s.inbox
  current : s.tab.memory.current = some ref
  chain : s.tab.chain = {}
  asked : ∀ t, s.asked t = s.server
  began : ∀ t, s.began t = s.server
  op : ∀ t, s.op t = none
  place : ∀ t, s.place t = none

end EndToEnd
end SecureMessenger
