import SecureMessenger.Server.Models
import SecureMessenger.Lib.Prog

/-!
# Database sessions

The services talk to PostgreSQL through one session per request.  `Sql` lists
the calls of a session, `Session` is the type of the service functions.

A statement that reads for update is three calls: it selects rows in its
snapshot, waits for their locks, and reads the rows again, keeping those that
still satisfy the condition.  An `UPDATE` takes the locks of its rows in the
same way before it writes.
-/

namespace SecureMessenger
namespace Server

open Lib

/-- What a row lock protects. -/
inductive Resource
  | chat (id : UUID)
  | user (id : UUID)
  | mailbox (device_id : UUID)
  | envelope (id : UUID)
  | session (id : UUID)
  | device (id : UUID)
deriving DecidableEq

/-- `FOR SHARE` or `FOR UPDATE`. -/
inductive LockMode
  | share
  | update
deriving DecidableEq

/-- Exceptions the services raise or pass on. -/
inductive PyError
  | integrity
  | database
  | chatNotFound
  | invalidReadPosition
  | selfChat
  | targetUserNotFound
  | duplicateDestination
  | invalidEnvelope (reason : String)
  | deliveryTargetsChanged
  | envelopeNotFound
  | mailboxInvariant (reason : String)
  | invalidCredentials
  | refreshTokenReuse
  | forbidden (reason : String)
  | conflict (reason : String)
  | notFound
  | unauthorized
  | valueError (reason : String)
deriving DecidableEq

/-- `IssuedTokens`, with the claims of the access token. -/
structure IssuedTokens where
  user_id : UUID
  device_id : UUID
  session_id : UUID
  refresh_token : String
  refresh_expires_at : Instant
deriving DecidableEq

/-- What a request returns. -/
inductive Result
  | stored (message : StoredMessage)
  | found (message : Option StoredMessage)
  | envelope (envelope : Envelope)
  | page (page : MailboxPage)
  | devices (devices : List Device)
  | readState (state : ReadState)
  | chat (view : DirectChatView)
  | sentMessages (page : SentMessagesPage)
  | chatStates (page : ChatStatesPage)
  | count (n : Nat)
  | tokens (tokens : IssuedTokens)
  | principal (principal : Principal)
  | done
deriving DecidableEq

/-- Calls of a session. -/
inductive Sql : Type 1
  /-- A `SELECT`: committed rows and the writes of this transaction. -/
  | query {α : Type} (f : Db → α)
  /-- Wait for a row lock. -/
  | lock (r : Resource) (mode : LockMode)
  /-- `FOR UPDATE SKIP LOCKED`: lock the selected rows nobody holds. -/
  | lockFree (f : (UUID → Bool) → Db → List UUID)
  /-- Write rows. -/
  | write (f : Db → Db)
  | flush
  | commit
  | rollback
  /-- `datetime.now(UTC)`. -/
  | now
  /-- `uuid.uuid4()`. -/
  | uuid4
  /-- `generate_refresh_token()`. -/
  | token
  /-- `publish_event` to a device. -/
  | publish (device_id : UUID)
  /-- The request has ended. -/
  | finish (outcome : Except PyError Result)

/-- Answers of the calls. -/
def Sql.Answer : Sql → Type
  | .query (α := α) _ => α
  | .lock _ _ => Except PyError Unit
  | .lockFree _ => List UUID
  | .write _ => Unit
  | .flush => Except PyError Unit
  | .commit => Except PyError Unit
  | .rollback => Unit
  | .now => Instant
  | .uuid4 => UUID
  | .token => String
  | .publish _ => Unit
  | .finish _ => Unit

/-- Functions that use a session. -/
abbrev Session := Prog Sql Sql.Answer PyError

def query {α : Type} (f : Db → α) : Session α :=
  .eff (.query f) fun (a : α) => .ret a

def lock (r : Resource) (mode : LockMode) : Session Unit :=
  .eff (.lock r mode) fun (a : Except PyError Unit) => Prog.ofExcept a

def write (f : Db → Db) : Session Unit :=
  .eff (.write f) fun _ => .ret ()

def flush : Session Unit :=
  .eff .flush fun (a : Except PyError Unit) => Prog.ofExcept a

def commit : Session Unit :=
  .eff .commit fun (a : Except PyError Unit) => Prog.ofExcept a

def rollback : Session Unit :=
  .eff .rollback fun _ => .ret ()

def utcNow : Session Instant :=
  .eff .now fun (t : Instant) => .ret t

def uuid4 : Session UUID :=
  .eff .uuid4 fun (id : UUID) => .ret id

def generate_refresh_token : Session String :=
  .eff .token fun (token : String) => .ret token

/-- Take several locks, one after the other. -/
def lockAll (mode : LockMode) : List Resource → Session Unit
  | [] => return ()
  | r :: rest => do
      lock r mode
      lockAll mode rest

/-- `SELECT ... FOR UPDATE` (or `FOR SHARE`) of at most one row: the row is
selected, locked and, if it still satisfies the condition, read again. -/
def selectLocked {α : Type} (key : α → Resource) (mode : LockMode)
    (f : Db → Option α) : Session (Option α) := do
  match ← query f with
  | none => return none
  | some row =>
      lock (key row) mode
      query fun db => (f db).filter fun row' => decide (key row' = key row)

/-- `UPDATE message_envelopes SET f WHERE p`; the number of rows. -/
def executeUpdate (p : Envelope → Bool) (f : Envelope → Envelope) : Session Nat := do
  let ids ← query fun db => (db.envelopes.filter p).map (·.id)
  lockAll .update (ids.map .envelope)
  let count ← query fun db => (db.envelopes.filter fun e => decide (e.id ∈ ids) && p e).length
  write (Db.updateEnvelopes (fun e => decide (e.id ∈ ids) && p e) f)
  return count

end Server
end SecureMessenger
