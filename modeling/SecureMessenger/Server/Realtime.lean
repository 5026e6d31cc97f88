import SecureMessenger.Lib.Segment
import SecureMessenger.Server.Models

/-!
# Connections

`backend/app/realtime`: the registry of connections (`events.py`), the endpoint
of a socket (`router.py`) and the deliveries of published events
(`redis_events.py`, `notifications.py`), as the tasks of one process.

A socket is named by the task of its endpoint, and `Connection` is named by its
socket, of which there is one.  `trace` only records what has happened; the
latest entry stands first.  What a JSON object holds is left to the type `J`.
-/

namespace SecureMessenger
namespace Server
namespace Realtime

open Lib

/-! ## Exceptions -/

/-- The contexts that cancel what runs in them. -/
inductive Scope
  /-- `asyncio.timeout(CLOSE_TIMEOUT_SECONDS)` -/
  | close
  /-- `asyncio.timeout(DELIVERY_TIMEOUT_SECONDS)` -/
  | delivery
  /-- `asyncio.wait_for(..., timeout=5)` of `publish_event` -/
  | publish
deriving DecidableEq

/-- What an awaited call raises. -/
inductive Exc
  /-- `HTTPException` -/
  | http
  /-- `WebSocketDisconnect` -/
  | disconnect
  | os
  | runtime
  | timeout
  | value
  | other
  /-- `CancelledError`, which is no `Exception`; of a context, or of the task. -/
  | cancelled (scope : Option Scope)
deriving DecidableEq

/-- `except Exception`. -/
def Exc.isException : Exc → Bool
  | .cancelled _ => false
  | _ => true

/-- `except (OSError, RuntimeError, TimeoutError)`; a `TimeoutError` is an
`OSError`. -/
def Exc.isTransport : Exc → Bool
  | .os | .runtime | .timeout => true
  | _ => false

/-! ## The state -/

abbrev SocketId := Tid

/-- `Connection`; the token is that of its `authorize`. -/
structure Connection where
  websocket : SocketId
  token : String
deriving DecidableEq

/-- What a socket is given. -/
inductive Frame (J : Type)
  | authOk
  | invalidEvent
  | response (reply : J)
  | event (event : J)
  | close (code : Nat)

/-- What has happened, and by which task. -/
inductive Entry (J : Type)
  /-- The session of the token begins or ends. -/
  | changed (token : String) (live : Bool)
  | received (t : Tid) (event : J)
  /-- `authenticate_access_token` has returned. -/
  | authenticated (t : Tid) (token : String) (principal : Principal)
  | registered (t : Tid) (device_id : UUID) (c : Connection)
  | unregistered (t : Tid) (device_id : UUID) (c : Connection)
  /-- `deliver` has found the connection. -/
  | delivering (t : Tid) (device_id : UUID) (event : J) (c : Connection)
  /-- `is_current` holds. -/
  | current (t : Tid) (device_id : UUID) (c : Connection)
  | handling (t : Tid) (principal : Principal) (event : J)
  | handled (t : Tid) (reply : J)
  /-- A frame is being written. -/
  | begins (t : Tid) (socket : SocketId) (frame : Frame J)
  | ends (t : Tid) (socket : SocketId)

/-- What the tasks share. -/
structure Hub (J : Type) where
  /-- `ConnectionRegistry._connections`. -/
  connections : UUID → Option Connection := fun _ => none
  /-- Who holds `Connection.lock`. -/
  locks : SocketId → Option Tid := fun _ => none
  /-- `RedisEventBus._deliveries`. -/
  deliveries : List Tid := []
  /-- The sessions that `authenticate_access_token` accepts. -/
  live : String → Bool := fun _ => false
  trace : List (Entry J) := []

namespace Hub

variable {J : Type}

def log (e : Entry J) (s : Hub J) : Hub J :=
  { s with trace := e :: s.trace }

/-- `is_current`. -/
def is_current (device_id : UUID) (c : Connection) (s : Hub J) : Bool :=
  decide (s.connections device_id = some c)

/-- The beginning of `register`, up to the await: the previous connection. -/
def register (t : Tid) (device_id : UUID) (c : Connection) (s : Hub J) :
    Option Connection × Hub J :=
  (s.connections device_id,
    { s with connections := Function.update s.connections device_id (some c) }
      |>.log (.registered t device_id c))

/-- `unregister`. -/
def unregister (t : Tid) (device_id : UUID) (c : Connection) (s : Hub J) : Hub J :=
  if s.is_current device_id c then
    { s with connections := Function.update s.connections device_id none }
      |>.log (.unregistered t device_id c)
  else s

/-- A check of `is_current`. -/
def check (t : Tid) (device_id : UUID) (c : Connection) (s : Hub J) : Bool × Hub J :=
  if s.is_current device_id c then (true, s.log (.current t device_id c)) else (false, s)

/-- The beginning of `deliver`, up to the await. -/
def find (t : Tid) (device_id : UUID) (event : J) (s : Hub J) : Option Connection × Hub J :=
  match s.connections device_id with
  | none => (none, s)
  | some c => (some c, s.log (.delivering t device_id event c))

/-- The end of `async with self.lock`. -/
def release (c : SocketId) (s : Hub J) : Hub J :=
  { s with locks := Function.update s.locks c none }

/-- `MAX_PENDING_DELIVERIES`. -/
def MAX_PENDING_DELIVERIES : Nat := 256

/-- `_dispatch` of an event that is well formed; `none` if it is dropped. -/
def dispatch (t : Tid) (device_id : UUID) (s : Hub J) : Option (Hub J) :=
  if (s.connections device_id).isNone then none
  else if s.deliveries.length ≥ MAX_PENDING_DELIVERIES then none
  else some { s with deliveries := t :: s.deliveries }

/-- `_deliveries.discard`. -/
def discard (t : Tid) (s : Hub J) : Hub J :=
  { s with deliveries := s.deliveries.filter fun u => decide (u ≠ t) }

end Hub

/-! ## Awaited calls -/

/-- The awaited calls of the task `t`. -/
inductive Await (J : Type)
  | accept (t : Tid)
  /-- `websocket.close` without a `Connection`. -/
  | shut (t : Tid) (code : Nat)
  | receive (t : Tid)
  | authenticate (t : Tid) (token : String)
  /-- Wait for `Connection.lock`. -/
  | acquire (t : Tid) (c : SocketId)
  /-- `send_json` or `close` of a socket. -/
  | write (t : Tid) (c : SocketId) (frame : Frame J)
  | handle (t : Tid) (principal : Principal) (event : J)

def Await.Reply {J : Type} : Await J → Type
  | .receive _ => J
  | .authenticate _ _ => Principal
  | .handle _ _ _ => J
  | _ => Unit

section Semantics

variable {J : Type} (claims : String → Option Principal)

/-- How the calls settle.  Each may raise anything, waiting for a lock only a
`CancelledError`. -/
inductive Settles :
    (g : Await J) → Hub J → Except Exc g.Reply → Hub J → Prop
  | raises {g : Await J} {s : Hub J} (x : Exc)
      (hg : (∃ t c, g = .acquire t c) → x.isException = false) : Settles g s (.error x) s
  | accept {t : Tid} {s : Hub J} : Settles (.accept t) s (.ok ()) s
  | shut {t : Tid} {code : Nat} {s : Hub J} : Settles (.shut t code) s (.ok ()) s
  | receive {t : Tid} {s : Hub J} (event : J) :
      Settles (.receive t) s (.ok event) (s.log (.received t event))
  | authenticate {t : Tid} {token : String} {s : Hub J} {principal : Principal}
      (hclaims : claims token = some principal) (hlive : s.live token = true) :
      Settles (.authenticate t token) s (.ok principal)
        (s.log (.authenticated t token principal))
  | acquire {t : Tid} {c : SocketId} {s : Hub J} (hfree : s.locks c = none) :
      Settles (.acquire t c) s (.ok ()) { s with locks := Function.update s.locks c (some t) }
  | write {t : Tid} {c : SocketId} {frame : Frame J} {s : Hub J} :
      Settles (.write t c frame) s (.ok ()) s
  | handle {t : Tid} {principal : Principal} {event : J} {s : Hub J} (reply : J) :
      Settles (.handle t principal event) s (.ok reply) (s.log (.handled t reply))

end Semantics

/-- The calls of a task. -/
abbrev Call (J : Type) := Segmented Unit (Hub J) (Await J)

/-- Answers of the calls. -/
abbrev Call.Answer {J : Type} : Call J → Type := Segmented.Answer Exc Await.Reply

/-- `async` functions. -/
abbrev Task (J : Type) := Prog (Call J) Call.Answer Exc

section Tasks

variable {J : Type}

/-- What runs between two awaits. -/
def step {α : Type} (f : Hub J → α × Hub J) : Task J α :=
  segment none f

/-- A step without a result. -/
def modify (f : Hub J → Hub J) : Task J Unit :=
  step fun s => ((), f s)

/-- `websocket.accept`. -/
def accept (t : Tid) : Task J Unit :=
  awaits (Await.accept t)

/-- `websocket.close` without a `Connection`. -/
def shut (t : Tid) (code : Nat) : Task J Unit :=
  awaits (Await.shut t code)

/-- `receive_event`. -/
def receive_event (t : Tid) : Task J J :=
  awaits (Await.receive t)

/-- `authenticate_access_token`. -/
def authenticate_access_token (t : Tid) (access_token : String) : Task J Principal :=
  awaits (Await.authenticate t access_token)

/-- `Lock.acquire`. -/
def acquire (t : Tid) (c : SocketId) : Task J Unit :=
  awaits (Await.acquire t c)

/-- `websocket.send_json` and `websocket.close`. -/
def write (t : Tid) (c : SocketId) (frame : Frame J) : Task J Unit :=
  awaits (Await.write t c frame)

/-- `handle_command`. -/
def handle_command (t : Tid) (principal : Principal) (event : J) : Task J J :=
  awaits (Await.handle t principal event)

/-- `async with asyncio.timeout(...)` and `asyncio.wait_for`. -/
def timeout {α : Type} (scope : Scope) (body : Task J α) : Task J α := do
  match ← Prog.attempt body with
  | .error (.cancelled (some scope')) =>
      Prog.throw (if scope' = scope then .timeout else .cancelled (some scope'))
  | outcome => Prog.ofExcept outcome

/-- `try: ... except: pass`. -/
def suppress (caught : Exc → Bool) (body : Task J Unit) : Task J Unit := do
  match ← Prog.attempt body with
  | .error x => if caught x then return () else Prog.throw x
  | .ok () => return ()

/-! ## Connections -/

/-- `async with self.lock: await ...`. -/
def locked (t : Tid) (c : SocketId) (frame : Frame J) : Task J Unit := do
  acquire t c
  modify (·.log (.begins t c frame))
  let outcome ← Prog.attempt (write t c frame)
  modify fun s => (s.log (.ends t c)).release c
  Prog.ofExcept outcome

/-- `Connection.send`. -/
def send (t : Tid) (c : Connection) (frame : Frame J) : Task J Unit :=
  locked t c.websocket frame

/-- `Connection.close`. -/
def close (t : Tid) (c : Connection) (code : Nat) : Task J Unit :=
  timeout .close (locked t c.websocket (.close code))

/-- `authorize`. -/
def authorize (t : Tid) (c : Connection) : Task J Unit := do
  let _ ← authenticate_access_token t c.token
  return ()

/-- `ConnectionRegistry.register`. -/
def register (t : Tid) (device_id : UUID) (c : Connection) : Task J Unit := do
  match ← step (Hub.register t device_id c) with
  | none => return ()
  | some previous => suppress Exc.isException (close t previous 4001)

/-- The `try` of `deliver`. -/
def release_envelope (t : Tid) (device_id : UUID) (event : J) (c : Connection) :
    Task J Unit := do
  authorize t c
  if ← step (Hub.check t device_id c) then
    send t c (.event event)

/-- `ConnectionRegistry.deliver`. -/
def deliver (t : Tid) (device_id : UUID) (event : J) : Task J Unit := do
  match ← step (Hub.find t device_id event) with
  | none => return ()
  | some c =>
      match ← Prog.attempt (release_envelope t device_id event c) with
      | .ok () => return ()
      | .error x =>
          if x.isException then do
            modify (Hub.unregister t device_id c)
            suppress Exc.isException (close t c 4401)
          else Prog.throw x

/-- `publish_event` with an `InMemoryEventBus`. -/
def publish_event (t : Tid) (device_id : UUID) (event : J) : Task J Unit :=
  suppress Exc.isException (timeout .publish (deliver t device_id event))

/-- `RedisEventBus._deliver`, and the callback when the task is done. -/
def _deliver (t : Tid) (device_id : UUID) (event : J) : Task J Unit := do
  let outcome ← Prog.attempt (suppress (fun x => decide (x = .timeout))
    (timeout .delivery (deliver t device_id event)))
  modify (Hub.discard t)
  Prog.ofExcept outcome

/-! ## The endpoint -/

variable (token : J → Option String)

/-- The first frame: `AuthEvent` and its principal. -/
def authenticate (t : Tid) : Task J (String × Principal) := do
  let event ← receive_event t
  match token event with
  | none => Prog.throw .value
  | some access_token => do
      let principal ← authenticate_access_token t access_token
      return (access_token, principal)

/-- The end of a round, after a frame with an event; `false` ends the loop. -/
def answer (t : Tid) (device_id : UUID) (c : Connection) (event : J) : Task J Bool := do
  if ← step (Hub.check t device_id c) then
    let current ← authenticate_access_token t c.token
    modify (·.log (.handling t current event))
    let response ← handle_command t current event
    send t c (.response response)
    return true
  else return false

/-- One round of `while registry.is_current(...)`. -/
def round (t : Tid) (device_id : UUID) (c : Connection) : Task J Bool := do
  if ← step (Hub.check t device_id c) then
    match ← Prog.attempt (receive_event t) with
    | .error .timeout => do
        authorize t c
        return true
    | .error .value => do
        authorize t c
        send t c .invalidEvent
        return true
    | .error x => Prog.throw x
    | .ok event => answer t device_id c event
  else return false

/-- The loop. -/
def serve (t : Tid) (device_id : UUID) (c : Connection) : Task J Unit :=
  Prog.iterate () fun _ => do
    if ← round t device_id c then return .inl () else return .inr ()

/-- The `except` clauses of `websocket_endpoint`. -/
def rescued (t : Tid) (connection : Option Connection) : Exc → Task J Unit
  | .http =>
      match connection with
      | none => return ()
      | some c => suppress Exc.isTransport (close t c 4401)
  | .disconnect | .os | .runtime | .timeout => return ()
  | x => Prog.throw x

/-- The rest of `websocket_endpoint` once there is a connection. -/
def connected (t : Tid) (device_id : UUID) (c : Connection) : Task J Unit := do
  let outcome ← Prog.attempt do
    match ← Prog.attempt (do
        register t device_id c
        send t c .authOk
        serve t device_id c) with
    | .ok () => return ()
    | .error x => rescued t (some c) x
  -- `finally`
  modify (Hub.unregister t device_id c)
  Prog.ofExcept outcome

/-- The exceptions that `authenticate` may raise for a bad credential. -/
def Exc.isRefusal : Exc → Bool
  | .value | .http | .timeout => true
  | _ => false

/-- `websocket_endpoint`. -/
def websocket_endpoint (t : Tid) (origin_allowed : Bool) : Task J Unit :=
  if origin_allowed then do
    accept t
    match ← Prog.attempt (authenticate token t) with
    | .ok (access_token, principal) => connected t principal.device_id ⟨t, access_token⟩
    | .error x =>
        if x.isRefusal then
          match ← Prog.attempt (shut t 4401) with
          | .ok () => return ()
          | .error x => rescued t none x
        else rescued t none x
  else shut t 4403

end Tasks

/-! ## The process -/

section System

variable {J : Type}

/-- What a task runs. -/
inductive Op (J : Type)
  | websocket_endpoint (origin_allowed : Bool)
  | publish_event (device_id : UUID) (event : J)
  | _deliver (device_id : UUID) (event : J)

/-- A delivery is a task that `_dispatch` has created. -/
def Op.Starts (t : Tid) : Op J → Hub J → Hub J → Prop
  | ._deliver device_id _, s, s' => s.dispatch t device_id = some s'
  | _, s, s' => s' = s

/-- The body of a task. -/
def Op.task (token : J → Option String) (t : Tid) : Op J → Task J Unit
  | .websocket_endpoint origin_allowed => Realtime.websocket_endpoint token t origin_allowed
  | .publish_event device_id event => Realtime.publish_event t device_id event
  | ._deliver device_id event => Realtime._deliver t device_id event

/-- A session begins or ends. -/
def Hub.Changes (s s' : Hub J) : Prop :=
  ∃ access_token live, s' =
    { s with live := Function.update s.live access_token live }.log (.changed access_token live)

/-- The tasks of a process. -/
def process (claims : String → Option Principal) (token : J → Option String) :
    System (Call J) Call.Answer Exc (Hub J) (Op J) where
  exec := Segmented.exec (Settles claims)
  prog := Op.task token
  start := fun t op => op.Starts t
  stop := fun _ _ _ => False
  env := Hub.Changes

end System

end Realtime
end Server
end SecureMessenger
