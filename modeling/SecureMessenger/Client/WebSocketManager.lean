import SecureMessenger.Client.Contracts
import SecureMessenger.Lib.Dict
import Mathlib.Logic.Function.Basic
import Mathlib.Logic.Relation

/-!
# The WebSocket manager

`web/src/shared/api/webSocketManager.ts`: one connection at a time, the
requests that wait for their reply on it, and the sends whose confirmation has
timed out.

Each event runs one function of the source to its end.  Handlers are called
last in theirs, so what a handler does is a further event.  A promise is named
by the request identifier that its call draws.  `trace` only records what has
happened.
-/

namespace SecureMessenger
namespace Client
namespace Socket

open Lib

/-! ## Requests and frames -/

/-- The maps `pending`, `pendingAck`, `pendingRead` and `pendingSync`. -/
inductive Kind
  | send
  | ack
  | read
  | sync
deriving DecidableEq

/-- The four requests, as the arguments of the methods. -/
inductive Command
  | sendMessage (command : SendMessageRequest)
  | acknowledgeEnvelope (envelopeId : String)
  | advanceReadCursor (chatId : String) (lastReadSeq : JsNumber)
  | getMailbox (afterSeq : JsNumber) (limit : Nat)
deriving DecidableEq

/-- The map a request waits in. -/
def Command.kind : Command → Kind
  | .sendMessage _ => .send
  | .acknowledgeEnvelope _ => .ack
  | .advanceReadCursor _ _ => .read
  | .getMailbox _ _ => .sync

/-- What a promise resolves to. -/
inductive Reply
  | message (data : SentMessage)
  | envelope (data : MessageEnvelope)
  | cursor (data : ChatReadCursor)
  | page (data : MailboxPage)
deriving DecidableEq

/-- What `mapServerEvent` returns. -/
inductive ServerEvent
  | authOk
  | chatReadUpdated (request_id : Option String) (data : ChatReadCursor)
  | messageNew (data : MailboxEnvelope)
  | messageDelivered (request_id : Option String) (data : MessageEnvelope)
  | syncResponse (request_id : String) (data : MailboxPage)
  | messageAccepted (request_id : String) (data : SentMessage)
  | error (request_id : Option String) (message : String) (status : ℤ) (code : String)
deriving DecidableEq

/-- `ApiError`. -/
structure SocketError where
  message : String
  status : ℤ
  serverCode : Option String
  code : ClientErrorCode
deriving DecidableEq

/-- `applicationCode`. -/
def applicationCode (status : ℤ) (message : String) (serverCode : Option String) :
    ClientErrorCode :=
  if status = 0 then .network_error
  else if status = 401 then .session_expired
  else if status = 403 ∧ message = "device is revoked" then .device_revoked
  else if status = 409 ∧ serverCode = some "delivery_targets_changed" then
    .delivery_targets_changed
  else if status = 403 then .forbidden
  else if status = 404 then .not_found
  else if status = 409 then .conflict
  else if status = 422 then .validation_error
  else if status ≥ 500 then .server_error
  else .request_failed

/-- The constructor of `ApiError`. -/
def apiError (message : String) (status : ℤ) (serverCode : Option String := none)
    (code : Option ClientErrorCode := none) : SocketError :=
  ⟨message, status, serverCode, code.getD (applicationCode status message serverCode)⟩

/-- `timeoutError` of each request. -/
def timeoutError : Kind → SocketError
  | .send => apiError "Message confirmation timed out. Delivery is unconfirmed." 0 none
      (some .delivery_unconfirmed)
  | .ack => apiError "Delivery acknowledgment timed out." 0
  | .read => apiError "Read confirmation timed out." 0
  | .sync => apiError "Mailbox sync timed out. Reconnect to try again." 0

/-- `connectionLostError` of each request. -/
def connectionLostError : Kind → SocketError
  | .send => apiError "Connection lost. Message delivery is unconfirmed." 0 none
      (some .delivery_unconfirmed)
  | .ack => apiError "Connection lost during delivery acknowledgment." 0
  | .read => apiError "Connection lost during read confirmation." 0
  | .sync => apiError "Connection lost during mailbox sync." 0

/-- The sets of handlers. -/
inductive Channel
  | message
  | delivered
  | accepted
  | read
  | ready
deriving DecidableEq

/-- An element of `unconfirmed`. -/
structure Unconfirmed where
  chatId : String
  clientMessageId : String
deriving DecidableEq

/-! ## The state -/

abbrev SocketId := Nat

abbrev TimerId := Nat

abbrev HandlerId := Nat

/-- What a timer does when it expires. -/
inductive Timer
  | request (command : Command) (requestId : String)
  | auth (socket : SocketId) (generation : Nat)
  | reconnect (refresh : Bool)

/-- A `connect` that awaits the access token. -/
structure Connect where
  generation : Nat
  refresh : Bool
deriving DecidableEq

/-- How a promise has settled. -/
inductive Settlement
  | resolved (reply : Reply)
  | rejected (error : SocketError)
deriving DecidableEq

/-- What a handler is called with. -/
inductive Payload
  | ready
  | envelope (data : MailboxEnvelope)
  | delivered (data : MessageEnvelope)
  | accepted (data : SentMessage)
  | cursor (data : ChatReadCursor)
deriving DecidableEq

/-- What has happened. -/
inductive Entry
  /-- A method has been called. -/
  | requested (requestId : String) (command : Command)
  | sent (requestId : String) (command : Command) (socket : SocketId)
  | authenticate (socket : SocketId)
  | closing (socket : SocketId) (code : Nat)
  /-- A frame has arrived; `none` could not be mapped. -/
  | received (socket : SocketId) (frame : Option ServerEvent)
  /-- The timer of a request has expired. -/
  | timedOut (requestId : String)
  | settled (requestId : String) (settlement : Settlement)
  /-- The handlers of a late acceptance are run. -/
  | accepted (requestId : String) (data : SentMessage)
  | called (channel : Channel) (handler : HandlerId) (payload : Payload)
deriving DecidableEq

/-- The fields of `WebSocketManager`, the timers and the sockets. -/
structure Manager where
  socket : Option SocketId := none
  active : Bool := false
  authenticated : Bool := false
  generation : Nat := 0
  retries : Nat := 0
  reconnectTimer : Option TimerId := none
  authTimer : Option TimerId := none
  /-- `unsubscribeSession` is set. -/
  subscribed : Bool := false
  handlers : Channel → List HandlerId := fun _ => []
  unconfirmed : Dict String Unconfirmed := .empty
  pending : Kind → Dict String TimerId := fun _ => .empty
  /-- The timers that have been set and neither cleared nor run. -/
  timers : TimerId → Option Timer := fun _ => none
  nextTimer : TimerId := 0
  /-- The generation that the handlers of a socket remember. -/
  sockets : SocketId → Option Nat := fun _ => none
  nextSocket : SocketId := 0
  readyState : SocketId → Nat := fun _ => 0
  connects : List Connect := []
  /-- The latest entry first. -/
  trace : List Entry := []

namespace Manager

def log (e : Entry) (m : Manager) : Manager :=
  { m with trace := e :: m.trace }

/-- `window.setTimeout`; the new timer is `m.nextTimer`. -/
def setTimeout (timer : Timer) (m : Manager) : Manager :=
  { m with
    timers := Function.update m.timers m.nextTimer (some timer)
    nextTimer := m.nextTimer + 1 }

/-- `window.clearTimeout`. -/
def clearTimeout (timer : TimerId) (m : Manager) : Manager :=
  { m with timers := Function.update m.timers timer none }

/-- A promise is resolved or rejected. -/
def settle (requestId : String) (settlement : Settlement) (m : Manager) : Manager :=
  m.log (.settled requestId settlement)

/-- Run the handlers of a channel. -/
def call (channel : Channel) (payload : Payload) (m : Manager) : Manager :=
  { m with
    trace := (m.handlers channel).foldl
      (fun trace handler => .called channel handler payload :: trace) m.trace }

/-- `ready`. -/
def ready (m : Manager) : Bool :=
  m.authenticated && match m.socket with
    | some socket => decide (m.readyState socket = 1)
    | none => false

/-- `onMessage`, `onReady` and their like. -/
def subscribe (channel : Channel) (handler : HandlerId) (m : Manager) : Manager :=
  { m with
    handlers := Function.update m.handlers channel
      (if handler ∈ m.handlers channel then m.handlers channel
        else m.handlers channel ++ [handler]) }

/-- The function these return. -/
def unsubscribe (channel : Channel) (handler : HandlerId) (m : Manager) : Manager :=
  { m with
    handlers := Function.update m.handlers channel
      ((m.handlers channel).filter fun h => decide (h ≠ handler)) }

/-! ## Pending requests -/

/-- `takePending`, without the promise: the request is gone, with its timer. -/
def remove (kind : Kind) (requestId : String) (timer : TimerId) (m : Manager) : Manager :=
  { m with pending := Function.update m.pending kind ((m.pending kind).delete requestId) }
    |>.clearTimeout timer

/-- `takePending(requests, requestId)?.resolve(...)` or `.reject(...)`; `none` if
there is no such request. -/
def take (kind : Kind) (requestId : Option String) (settlement : Settlement) (m : Manager) :
    Option Manager :=
  match requestId with
  | none => none
  | some id =>
      if id = "" then none
      else ((m.pending kind).get id).map fun timer => (m.remove kind id timer).settle id settlement

/-- `onTimeout` of `sendMessage`. -/
def onTimeout (command : Command) (requestId : String) (m : Manager) : Manager :=
  match command with
  | .sendMessage command =>
      let unconfirmed := m.unconfirmed.set requestId ⟨command.chat_id, command.client_message_id⟩
      { m with
        unconfirmed :=
          if unconfirmed.entries.length > 256 then
            match unconfirmed.entries with
            | [] => unconfirmed
            | (oldest, _) :: _ => unconfirmed.delete oldest
          else unconfirmed }
  | _ => m

/-- `request`; `throws` says whether `socket.send` throws. -/
def request (command : Command) (requestId : String) (throws : Bool) (m : Manager) : Manager :=
  let m := m.log (.requested requestId command)
  if !m.ready then
    m.settle requestId (.rejected (apiError "Real-time connection is unavailable." 0))
  else
    let timer := m.nextTimer
    let m := m.setTimeout (.request command requestId)
    let m := { m with
      pending := Function.update m.pending command.kind
        ((m.pending command.kind).set requestId timer) }
    if throws then
      (m.take command.kind (some requestId)
        (.rejected (connectionLostError command.kind))).getD m
    else
      match m.socket with
      | some socket => m.log (.sent requestId command socket)
      | none => m

/-- One loop of `rejectPending`: clear the timer of each request and reject its
promise, then clear the map. -/
def rejectAll (kind : Kind) (m : Manager) : Manager :=
  { m with
    timers := (m.pending kind).entries.foldl
      (fun timers p => Function.update timers p.2 none) m.timers
    trace := (m.pending kind).entries.foldl
      (fun trace p => .settled p.1 (.rejected (connectionLostError kind)) :: trace) m.trace
    pending := Function.update m.pending kind .empty }

/-- `rejectPending`. -/
def rejectPending (m : Manager) : Manager :=
  { m with unconfirmed := .empty }
    |>.rejectAll .read |>.rejectAll .ack |>.rejectAll .sync |>.rejectAll .send

/-! ## The connection -/

/-- The timers without the one that a field names. -/
def cleared (timer : Option TimerId) (timers : TimerId → Option Timer) :
    TimerId → Option Timer :=
  match timer with
  | some timer => Function.update timers timer none
  | none => timers

/-- `clearAuthTimer`. -/
def clearAuthTimer (m : Manager) : Manager :=
  { m with
    timers := cleared m.authTimer m.timers
    authTimer := none }

/-- The beginning of `connect`, up to the await. -/
def connect (refresh : Bool) (m : Manager) : Manager :=
  { m with
    generation := m.generation + 1
    connects := m.connects ++ [⟨m.generation + 1, refresh⟩] }

/-- `start`. -/
def start (m : Manager) : Manager :=
  if m.active then m
  else connect false { m with active := true, subscribed := true }

/-- `stop` clears `reconnectTimer`. -/
def clearReconnectTimer (m : Manager) : Manager :=
  { m with
    timers := cleared m.reconnectTimer m.timers
    reconnectTimer := none }

/-- `stop`. -/
def stop (m : Manager) : Manager :=
  let m := { m with
    active := false
    generation := m.generation + 1
    authenticated := false
    retries := 0 }
  let m := m.clearReconnectTimer.clearAuthTimer
  let socket := m.socket
  let m := { m with subscribed := false, socket := none }
  let m := match socket with
    | some socket => m.log (.closing socket 1000)
    | none => m
  m.rejectPending

/-- `scheduleReconnect`; the delay only decides when the timer expires. -/
def scheduleReconnect (refresh : Bool) (m : Manager) : Manager :=
  let timer := m.nextTimer
  { m.setTimeout (.reconnect refresh) with
    retries := m.retries + 1
    reconnectTimer := some timer }

/-- `current()` of a socket. -/
def current (socket : SocketId) (m : Manager) : Bool :=
  m.active && decide (m.sockets socket = some m.generation) && decide (m.socket = some socket)

/-- The rest of `connect` after `getAccessToken` has resolved. -/
def connected (c : Connect) (m : Manager) : Manager :=
  if m.active = false ∨ c.generation ≠ m.generation then m
  else
    let socket := m.nextSocket
    let timer := m.nextTimer
    { m.setTimeout (.auth socket c.generation) with
      socket := some socket
      sockets := Function.update m.sockets socket (some c.generation)
      nextSocket := m.nextSocket + 1
      authTimer := some timer }

/-- The `catch` of `connect`; `status` is that of an `ApiError`. -/
def connectFailed (c : Connect) (status : Option ℤ) (m : Manager) : Manager :=
  if m.active = false ∨ c.generation ≠ m.generation then m
  else
    match status with
    | some status =>
        if 400 ≤ status ∧ status < 500 then m.stop else m.scheduleReconnect c.refresh
    | none => m.scheduleReconnect c.refresh

/-- `onopen`. -/
def onopen (socket : SocketId) (m : Manager) : Manager :=
  if m.current socket then m.log (.authenticate socket) else m

/-- `onclose`. -/
def onclose (socket : SocketId) (code : Nat) (m : Manager) : Manager :=
  if !m.current socket then m
  else
    let m := { m with socket := none, authenticated := false }
    let m := m.clearAuthTimer.rejectPending
    if code ∈ [4001, 4403, 1008] then m.stop else m.scheduleReconnect (decide (code = 4401))

/-! ## Frames -/

/-- The first of the promises with this request identifier, in the order of the
maps that the frame names. -/
def takeFirst (requestId : Option String) (settlement : Settlement) (m : Manager) :
    List Kind → Option Manager
  | [] => none
  | kind :: kinds => (m.take kind requestId settlement).or (m.takeFirst requestId settlement kinds)

/-- A late acceptance, if it is one of a send that has timed out. -/
def lateAcceptance (requestId : String) (data : SentMessage) (m : Manager) : Manager :=
  match m.unconfirmed.get requestId with
  | none => m
  | some command =>
      if command.clientMessageId ≠ data.clientMessageId ∨ command.chatId ≠ data.chatId then m
      else
        { m with unconfirmed := m.unconfirmed.delete requestId }
          |>.log (.accepted requestId data) |>.call .accepted (.accepted data)

/-- `handleFrame`. -/
def handleFrame (frame : ServerEvent) (m : Manager) : Manager :=
  match frame with
  | .authOk =>
      if m.authenticated then m
      else { m.clearAuthTimer with authenticated := true, retries := 0 } |>.call .ready .ready
  | _ =>
      if !m.authenticated then m
      else
        match frame with
        | .authOk => m
        | .chatReadUpdated requestId data =>
            if isTruthy requestId then
              (m.take .read requestId (.resolved (.cursor data))).getD m
            else m.call .read (.cursor data)
        | .messageNew data => m.call .message (.envelope data)
        | .messageDelivered requestId data =>
            if isTruthy requestId then
              (m.take .ack requestId (.resolved (.envelope data))).getD m
            else m.call .delivered (.delivered data)
        | .syncResponse requestId data =>
            (m.take .sync (some requestId) (.resolved (.page data))).getD m
        | .messageAccepted requestId data =>
            match m.take .send (some requestId) (.resolved (.message data)) with
            | some m' => m'
            | none => m.lateAcceptance requestId data
        | .error requestId message status code =>
            (m.takeFirst requestId (.rejected (apiError message status (some code)))
              [.read, .ack, .sync, .send]).getD m

/-- `onmessage`. -/
def onmessage (socket : SocketId) (frame : Option ServerEvent) (m : Manager) : Manager :=
  let m := m.log (.received socket frame)
  if !m.current socket then m
  else
    match frame with
    | none => m
    | some frame => m.handleFrame frame

/-! ## Timers -/

/-- A timer expires. -/
def expire (timer : TimerId) (m : Manager) : Manager :=
  match m.timers timer with
  | none => m
  | some callback =>
      let m := m.clearTimeout timer
      match callback with
      | .request command requestId =>
          let m := m.log (.timedOut requestId)
          let m := m.onTimeout command requestId
          (m.take command.kind (some requestId) (.rejected (timeoutError command.kind))).getD m
      | .auth socket generation =>
          if m.active && decide (generation = m.generation) && decide (m.socket = some socket) then
            m.log (.closing socket 4000)
          else m
      | .reconnect refresh =>
          let m := { m with reconnectTimer := none }
          if m.active then m.connect refresh else m

end Manager

/-! ## Events -/

/-- What can happen to the manager. -/
inductive Event
  | start
  | stop
  /-- The session is cleared. -/
  | sessionCleared
  | subscribe (channel : Channel) (handler : HandlerId)
  | unsubscribe (channel : Channel) (handler : HandlerId)
  | request (command : Command) (requestId : String) (throws : Bool)
  /-- A `connect` has its token and its socket. -/
  | connected (c : Connect)
  /-- A `connect` fails. -/
  | connectFailed (c : Connect) (status : Option ℤ)
  | readyState (socket : SocketId) (state : Nat)
  | onopen (socket : SocketId)
  | onmessage (socket : SocketId) (frame : Option ServerEvent)
  | onclose (socket : SocketId) (code : Nat)
  | expire (timer : TimerId)

/-- The identifier of a request is new, and only what exists can have an
event. -/
def Event.Enabled (m : Manager) : Event → Prop
  | .request _ requestId _ => requestId ≠ "" ∧ ∀ command, .requested requestId command ∉ m.trace
  | .connected c | .connectFailed c _ => c ∈ m.connects
  | .onopen socket | .onmessage socket _ | .onclose socket _ => m.sockets socket ≠ none
  | .expire timer => m.timers timer ≠ none
  | _ => True

/-- The function that an event runs. -/
def Event.run : Event → Manager → Manager
  | .start, m => m.start
  | .stop, m => m.stop
  | .sessionCleared, m => if m.subscribed then m.stop else m
  | .subscribe channel handler, m => m.subscribe channel handler
  | .unsubscribe channel handler, m => m.unsubscribe channel handler
  | .request command requestId throws, m => m.request command requestId throws
  | .connected c, m => { m with connects := m.connects.erase c } |>.connected c
  | .connectFailed c status, m =>
      { m with connects := m.connects.erase c } |>.connectFailed c status
  | .readyState socket state, m =>
      { m with readyState := Function.update m.readyState socket state }
  | .onopen socket, m => m.onopen socket
  | .onmessage socket frame, m => m.onmessage socket frame
  | .onclose socket code, m => m.onclose socket code
  | .expire timer, m => m.expire timer

/-- One event. -/
inductive Step : Manager → Manager → Prop
  | event {m : Manager} (e : Event) (h : e.Enabled m) : Step m (e.run m)

/-- The states of a manager. -/
def Reachable (m : Manager) : Prop :=
  Relation.ReflTransGen Step {} m

end Socket
end Client
end SecureMessenger
