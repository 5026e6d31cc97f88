import SecureMessenger.Server.World

/-!
# HTTP routes and WebSocket handlers

The three commands that a client can give on either surface: send a message,
confirm a delivery, read a page of the mailbox.  Both surfaces validate with a
schema of their own, call the same service, and describe its exceptions;
any other exception is passed on.
-/

namespace SecureMessenger
namespace Server

open Lib

/-- `MessageErrorDescription`. -/
structure MessageErrorDescription where
  code : String
  message : String
  status : Nat
deriving DecidableEq

/-- `describe_message_error`; `none` is the `TypeError`. -/
def describe_message_error : PyError → Option MessageErrorDescription
  | .chatNotFound => some ⟨"message_rejected", "chat not found", 404⟩
  | .envelopeNotFound => some ⟨"envelope_not_found", "envelope not found", 404⟩
  | .duplicateDestination => some ⟨"message_rejected", "duplicate recipient device", 422⟩
  | .invalidEnvelope reason => some ⟨"message_rejected", reason, 422⟩
  | .deliveryTargetsChanged => some ⟨"delivery_targets_changed",
      "Destination devices changed; refresh and retry.", 409⟩
  | _ => none

/-- The exceptions that `handle_send` and `send_message` catch. -/
def sendErrors : PyError → Bool
  | .chatNotFound | .duplicateDestination | .invalidEnvelope _ | .deliveryTargetsChanged => true
  | _ => false

/-- The exceptions that `handle_delivery` and `acknowledge_delivery` catch. -/
def deliveryErrors : PyError → Bool
  | .envelopeNotFound => true
  | _ => false

/-- `try: ... except caught as exc: ...`, where the handler describes the
exception. -/
def describing {ρ : Type} (caught : PyError → Bool) (body : Session Result) (ok : Result → ρ)
    (rejected : MessageErrorDescription → ρ) : Session ρ := do
  match ← Prog.attempt body with
  | .ok r => return ok r
  | .error x =>
      match if caught x then describe_message_error x else none with
      | some description => return rejected description
      | none => Prog.throw x

/-- The driver refuses a parameter that no `BIGINT` holds. -/
def bind_bigint (n : Nat) : Session Unit :=
  if n < 2 ^ 63 then return () else Prog.throw .database

/-- `MessageService.mailbox`, with the parameter of its query as the driver
binds it. -/
def bound_mailbox (principal : Principal) (after_seq limit : Nat) : Session MailboxPage := do
  let now ← utcNow
  let _ ← purge_expired_for_device principal.device_id now
  bind_bigint after_seq
  let rows ← query (Db.mailboxRows principal.device_id after_seq limit)
  commit
  return mailboxPage rows after_seq limit

/-! ## Schemas -/

/-- `SendMessageRequest`: `min_length=1`. -/
def SendMessageRequest.valid (request : SendMessageRequest) : Bool :=
  !request.envelopes.isEmpty

/-- `SyncRequest`. -/
def syncRequestValid (after_seq limit : Nat) : Bool :=
  decide (after_seq ≤ 2 ^ 63 - 1 ∧ 1 ≤ limit ∧ limit ≤ 100)

/-- The query parameters of `read_mailbox`. -/
def mailboxQueryValid (limit : Nat) : Bool :=
  decide (1 ≤ limit ∧ limit ≤ 100)

/-! ## WebSocket -/

/-- `request_id`: `min_length=1, max_length=128`. -/
abbrev RequestId := {s : String // 1 ≤ s.length ∧ s.length ≤ 128}

/-- An event that the server sends. -/
inductive Event
  | response (type : String) (request_id : RequestId) (data : Result)
  | error (code message : String) (status : Nat) (request_id : RequestId)

/-- `message_error_event`. -/
def message_error_event (request_id : RequestId) (description : MessageErrorDescription) : Event :=
  .error description.code description.message description.status request_id

/-- `handle_sync`. -/
def handle_sync (request_id : RequestId) (principal : Principal) (after_seq limit : Nat) :
    Session Event :=
  if syncRequestValid after_seq limit then do
    let page ← bound_mailbox principal after_seq limit
    return .response "sync.response" request_id (.page page)
  else return .error "invalid_event" "Invalid sync.request data." 422 request_id

/-- `handle_delivery`. -/
def handle_delivery (request_id : RequestId) (principal : Principal) (envelope_id : UUID) :
    Session Event :=
  describing deliveryErrors (do return .envelope (← acknowledge principal envelope_id))
    (.response "message.delivered" request_id) (message_error_event request_id)

/-- `handle_send`. -/
def handle_send (request_id : RequestId) (principal : Principal) (request : SendMessageRequest) :
    Session Event :=
  if request.valid then
    describing sendErrors (do return .stored (← send principal request))
      (.response "message.accepted" request_id) (message_error_event request_id)
  else return .error "invalid_event" "Invalid message.send data." 422 request_id

/-! ## HTTP -/

/-- The `detail` of an error. -/
inductive Detail
  | text (message : String)
  | coded (code message : String)
  | validation

/-- The answer of a route. -/
inductive HttpResponse
  | response (status : Nat) (body : Result)
  | error (status : Nat) (detail : Detail)

/-- `message_http_error`. -/
def message_http_error (description : MessageErrorDescription) : HttpResponse :=
  .error description.status (if description.code = "delivery_targets_changed" then
    .coded description.code description.message else .text description.message)

/-- `acknowledge_delivery`. -/
def acknowledge_delivery (principal : Principal) (envelope_id : UUID) : Session HttpResponse :=
  describing deliveryErrors (do return .envelope (← acknowledge principal envelope_id))
    (.response 200) message_http_error

/-- `send_message`. -/
def send_message (principal : Principal) (request : SendMessageRequest) : Session HttpResponse :=
  if request.valid then
    describing sendErrors (do return .stored (← send principal request))
      (.response 201) message_http_error
  else return .error 422 .validation

/-- `read_mailbox`. -/
def read_mailbox (principal : Principal) (after_seq limit : Nat) : Session HttpResponse :=
  if mailboxQueryValid limit then do
    let page ← bound_mailbox principal after_seq limit
    return .response 200 (.page page)
  else return .error 422 .validation

/-! ## Commands on either surface -/

/-- A command with its parameters. -/
inductive Command
  | send (request : SendMessageRequest)
  | delivery (envelope_id : UUID)
  | mailbox (after_seq limit : Nat)
deriving DecidableEq

/-- What the two surfaces have in common: the data, or the status of a client
error. -/
inductive Reply
  | success (data : Result)
  | rejected (status : Nat)
deriving DecidableEq

def Event.reply : Event → Reply
  | .response _ _ data => .success data
  | .error _ _ status _ => .rejected status

def HttpResponse.reply : HttpResponse → Reply
  | .response _ body => .success body
  | .error status _ => .rejected status

/-- The WebSocket handler of a command. -/
def Command.webSocket (request_id : RequestId) (principal : Principal) :
    Command → Session Event
  | .send request => handle_send request_id principal request
  | .delivery envelope_id => handle_delivery request_id principal envelope_id
  | .mailbox after_seq limit => handle_sync request_id principal after_seq limit

/-- The HTTP route of a command. -/
def Command.http (principal : Principal) : Command → Session HttpResponse
  | .send request => send_message principal request
  | .delivery envelope_id => acknowledge_delivery principal envelope_id
  | .mailbox after_seq limit => read_mailbox principal after_seq limit

end Server
end SecureMessenger
