import SecureMessenger.Server.ReadService
import SecureMessenger.Server.DirectChatService
import SecureMessenger.Server.AuthService
import SecureMessenger.Lib.Discipline

/-!
# Concurrent requests

The requests of the server run as threads of one pool over one database.
Each thread has one session: the writes of its transaction, which the others
do not see, and the row locks it holds until the transaction ends.  Locks
behave as in PostgreSQL: a share lock excludes update locks of others, an
update lock excludes all.

A commit applies the writes of the transaction to the committed rows, if no
unique key is violated.  Waiting for a lock, a flush and a commit may fail (a
deadlock, a lost connection); a transaction that has not committed leaves no
trace.

`history`, `op`, `began`, `outcome`, `published`, `issued`, `drawn` and `uuids`
only record what has happened.
-/

namespace SecureMessenger
namespace Server

open Lib

/-- The requests. -/
inductive Op
  | send (principal : Principal) (request : SendMessageRequest)
  | lookup (principal : Principal) (client_message_id : UUID)
  | acknowledge (principal : Principal) (envelope_id : UUID)
  | destinationDevices (principal : Principal) (chat_id : UUID)
  | mailbox (principal : Principal) (after_seq limit : Nat)
  | purgeExpiredBatch (batch_size : Nat) (now : Option Instant)
  | login (request : LoginRequest)
  | refresh (refresh_token : String)
  | logout (refresh_token : String)
  | revokeDevice (principal : Principal) (device_id : UUID)
  | authenticate (claims : AccessTokenClaims)
  | advance (principal : Principal) (chat_id : UUID) (last_read_seq : Int)
  | openDirectChat (requester_id target_user_id : Uuid)
  | sentPage (principal : Principal) (after_message_id : Option UUID) (limit : Nat)
      (unread_only : Bool)
  | chatStates (principal : Principal) (after_chat_id : Option UUID) (limit : Nat)
deriving DecidableEq

section Programs

variable (sec : Security)

/-- The service function of a request. -/
def Op.body : Op → Session Result
  | .send principal request => do return .stored (← Server.send principal request)
  | .lookup principal id => do return .found (← Server.lookup principal id)
  | .acknowledge principal id => do return .envelope (← Server.acknowledge principal id)
  | .destinationDevices principal chat_id => do
      return .devices (← Server.destination_devices principal chat_id)
  | .mailbox principal after_seq limit => do
      return .page (← Server.mailbox principal after_seq limit)
  | .purgeExpiredBatch batch_size now => do
      return .count (← Server.purge_expired_batch batch_size now)
  | .login request => do return .tokens (← Server.login sec request)
  | .refresh token => do return .tokens (← Server.refresh sec token)
  | .logout token => do
      Server.logout sec token
      return .done
  | .revokeDevice principal device_id => do
      Server.revoke_device principal device_id
      return .done
  | .authenticate claims => do
      return .principal (← Server.authenticate_access_token claims)
  | .advance principal chat_id last_read_seq => do
      return .readState (← Server.advance principal chat_id last_read_seq)
  | .openDirectChat requester_id target_user_id => do
      return .chat (← Server.open_direct_chat requester_id target_user_id)
  | .sentPage principal after limit unread_only => do
      return .sentMessages (← Server.sent_page principal after limit unread_only)
  | .chatStates principal after limit => do
      return .chatStates (← Server.states_page principal after limit)

/-- A request: the service function, then the session is closed, which rolls
an open transaction back. -/
def Op.prog (op : Op) : Session Unit := do
  let outcome ← Prog.attempt (op.body sec)
  rollback
  Prog.eff (.finish outcome) fun _ => .ret ()

end Programs

/-- A committed transaction. -/
structure Commit where
  tid : Tid
  before : Db
  after : Db

/-- The database, the open transactions and the record of the run. -/
structure World where
  db : Db
  /-- The locks each transaction holds. -/
  held : Tid → Resource → Option LockMode
  /-- The writes of each open transaction. -/
  pending : Tid → Db → Db
  /-- The committed transactions, the latest first. -/
  history : List Commit
  op : Tid → Option Op
  /-- The database when the request arrived. -/
  began : Tid → Db
  outcome : Tid → Option (Except PyError Result)
  /-- The devices each request has published an event to. -/
  published : Tid → List UUID
  /-- The refresh tokens generated so far. -/
  issued : List String
  /-- The refresh tokens each request has generated. -/
  drawn : Tid → List String
  /-- The random identifiers generated so far. -/
  uuids : List UUID

namespace World

/-- Nobody else's lock on `r` excludes the mode. -/
def free (w : World) (t : Tid) (r : Resource) (mode : LockMode) : Prop :=
  ∀ u, u ≠ t → w.held u r ≠ some .update ∧ (mode = .update → w.held u r = none)

/-- Take a lock; an update lock is never weakened. -/
def grant (w : World) (t : Tid) (r : Resource) (mode : LockMode) : World :=
  { w with
    held := Function.update w.held t (Function.update (w.held t) r
      (some (if w.held t r = some .update then .update else mode))) }

/-- The open transaction of a thread is gone. -/
def close (w : World) (t : Tid) : World :=
  { w with
    held := Function.update w.held t fun _ => none
    pending := Function.update w.pending t id }

/-- The transaction of a thread has committed. -/
def commit (w : World) (t : Tid) : World :=
  { w.close t with
    db := w.pending t w.db
    history := ⟨t, w.db, w.pending t w.db⟩ :: w.history }

/-- Take update locks on envelopes nobody holds. -/
def grantFree (w : World) (t : Tid) (ids : List UUID) : World :=
  ids.foldl (fun w id => w.grant t (.envelope id) .update) w

/-- A request has arrived. -/
def arrive (w : World) (t : Tid) (op : Op) : World :=
  { w with
    op := Function.update w.op t (some op)
    began := Function.update w.began t w.db }

/-- A request has generated a refresh token. -/
def draw (w : World) (t : Tid) (token : String) : World :=
  { w with
    issued := token :: w.issued
    drawn := Function.update w.drawn t (token :: w.drawn t) }

/-- A request has published an event. -/
def publish (w : World) (t : Tid) (device_id : UUID) : World :=
  { w with published := Function.update w.published t (device_id :: w.published t) }

/-- The calls of a session. -/
def exec (sec : Security) (t : Tid) : (c : Sql) → World → c.Answer → World → Prop
  | .query f, w, a, w' => a = f (w.pending t w.db) ∧ w' = w
  | .lock r mode, w, a, w' =>
      (a = .ok () ∧ w.free t r mode ∧ w' = w.grant t r mode) ∨
        (a = .error .database ∧ w' = w)
  | .lockFree f, w, (ids : List UUID), w' =>
      ∃ locked : UUID → Bool,
        (∀ id, locked id = false → w.free t (.envelope id) .update) ∧
          ids = f locked (w.pending t w.db) ∧ (∀ id ∈ ids, locked id = false) ∧
          w' = w.grantFree t ids
  | .write f, w, _, w' =>
      w' = { w with pending := Function.update w.pending t (f ∘ w.pending t) }
  | .flush, w, a, w' =>
      w' = w ∧ ((a = .ok () ∧ (w.pending t w.db).uniqueKeys) ∨
        (a = .error .integrity ∧ ¬(w.pending t w.db).uniqueKeys) ∨ a = .error .database)
  | .commit, w, a, w' =>
      (a = .ok () ∧ (w.pending t w.db).uniqueKeys ∧ w' = w.commit t) ∨
        (a = .error .integrity ∧ ¬(w.pending t w.db).uniqueKeys ∧ w' = w) ∨
        (a = .error .database ∧ w' = w)
  | .rollback, w, _, w' => w' = w.close t
  | .now, w, _, w' => w' = w
  | .uuid4, w, (id : UUID), w' => w' = { w with uuids := id :: w.uuids }
  | .token, w, (token : String), w' =>
      token ∈ sec.tokens ∧ token ∉ w.issued ∧ w' = w.draw t token
  | .publish device_id, w, _, w' => w' = w.publish t device_id
  | .finish o, w, _, w' =>
      w' = { w with outcome := Function.update w.outcome t (some o) }

end World

/-- The server as a concurrent system.  A request that is stopped (its process
dies, its connection breaks) loses its open transaction. -/
def serverSystem (sec : Security) : System Sql Sql.Answer PyError World Op where
  exec := World.exec sec
  prog := fun _ op => op.prog sec
  start := fun t op w w' => w' = w.arrive t op
  stop := fun t w w' => w' = w.close t
  env := fun _ _ => False

end Server
end SecureMessenger
