import SecureMessenger.Lib.Outcomes
import SecureMessenger.Server.Handlers
import SecureMessenger.Server.ReadService

/-!
# Commands over a socket

`handle_chat_read` and `handle_command` of `realtime/handlers.py`.  Whatever the
database answers, a command is answered by the response of its own kind or by an
error, and either carries the id of the request.
-/

namespace SecureMessenger
namespace Server

open Lib

/-- `ChatReadRequest`: at most `2 ** 53 - 1`. -/
def chatReadRequestValid (last_read_seq : Int) : Bool :=
  decide (0 ≤ last_read_seq ∧ last_read_seq ≤ 9007199254740991)

/-- `handle_chat_read`. -/
def handle_chat_read (request_id : RequestId) (principal : Principal) (chat_id : UUID)
    (last_read_seq : Int) : Session Event :=
  if chatReadRequestValid last_read_seq then do
    match ← Prog.attempt (advance principal chat_id last_read_seq) with
    | .ok saved => return .response "chat.read.updated" request_id (.readState saved)
    | .error .invalidReadPosition =>
        return .error "invalid_read_position" "Position does not exist in this chat." 422
          request_id
    | .error x =>
        match if x = .chatNotFound then describe_message_error x else none with
        | some description => return message_error_event request_id description
        | none => Prog.throw x
  else return .error "invalid_event" "Invalid chat.read data." 422 request_id

/-- A frame that `handle_command` understands, and the others. -/
inductive SocketCommand
  | chatRead (chat_id : UUID) (last_read_seq : Int)
  | sync (after_seq limit : Nat)
  | delivery (envelope_id : UUID)
  | send (request : SendMessageRequest)
  | unsupported

/-- `handle_command`. -/
def handle_command (request_id : RequestId) (principal : Principal) :
    SocketCommand → Session Event
  | .chatRead chat_id last_read_seq => handle_chat_read request_id principal chat_id last_read_seq
  | .sync after_seq limit => handle_sync request_id principal after_seq limit
  | .delivery envelope_id => handle_delivery request_id principal envelope_id
  | .send request => handle_send request_id principal request
  | .unsupported =>
      return .error "unsupported_event" "Event is not supported in this version." 400 request_id

/-- The response that belongs to a command. -/
inductive Answers (request_id : RequestId) : SocketCommand → Event → Prop
  | chatRead {chat_id : UUID} {last_read_seq : Int} {state : ReadState} :
      Answers request_id (.chatRead chat_id last_read_seq)
        (.response "chat.read.updated" request_id (.readState state))
  | sync {after_seq limit : Nat} {page : MailboxPage} :
      Answers request_id (.sync after_seq limit)
        (.response "sync.response" request_id (.page page))
  | delivery {envelope_id : UUID} {envelope : Envelope} :
      Answers request_id (.delivery envelope_id)
        (.response "message.delivered" request_id (.envelope envelope))
  | send {request : SendMessageRequest} {stored : StoredMessage} :
      Answers request_id (.send request)
        (.response "message.accepted" request_id (.stored stored))
  | error {command : SocketCommand} {code message : String} {status : Nat}
      (h : 400 ≤ status ∧ status < 500) :
      Answers request_id command (.error code message status request_id)

/-- Nothing is assumed about the answers of the database. -/
abbrev AnyAnswer : (e : Sql) → e.Answer → Prop :=
  fun _ _ => True

/-- Every outcome that is no exception satisfies `Q`. -/
def Returns {ρ : Type} (p : Session ρ) (Q : ρ → Prop) : Prop :=
  Prog.Ensures AnyAnswer p fun o => ∀ r, o = .ok r → Q r

/-- The next call is answered in this way. -/
theorem yields_answered {α : Type} {e : Sql} {k : e.Answer → Session α} {n : Nat}
    {o : Except PyError α} (r : e.Answer) (h : Prog.Yields AnyAnswer n (k r) o) :
    Prog.Yields AnyAnswer (n + 1) (.eff e k) o :=
  .eff trivial h

namespace Returns

variable {ρ α : Type} {P : α → Prop} {Q : ρ → Prop}

theorem pure {r : ρ} (h : Q r) : Returns (Pure.pure r) Q :=
  Prog.Ensures.ret fun _ hr => Except.ok.inj hr ▸ h

theorem throw {x : PyError} : Returns (Prog.throw x) Q :=
  Prog.Ensures.throw fun _ hr => by cases hr

theorem any {p : Session α} : Returns p fun _ => True :=
  fun _ _ _ _ _ => trivial

theorem mono {p : Session α} {P' : α → Prop} (h : Returns p P) (himp : ∀ a, P a → P' a) :
    Returns p P' :=
  Prog.Ensures.mono h fun _ ho a ha => himp a (ho a ha)

theorem bind {p : Session α} {f : α → Session ρ} (hf : ∀ a, Returns (f a) Q) :
    Returns (p >>= f) Q := by
  refine Prog.Ensures.then (fun _ o _ x hx r hr => ?_) hf
  cases hr

theorem attempt {p : Session α} {f : Except PyError α → Session ρ} (hp : Returns p P)
    (hok : ∀ a, P a → Returns (f (.ok a)) Q) (herror : ∀ x, Returns (f (.error x)) Q) :
    Returns (Prog.attempt p >>= f) Q := by
  refine Prog.Ensures.bind (Prog.Ensures.attempt (Prog.Ensures.mono hp fun o ho => ?_))
  cases o with
  | ok a => exact hok a (ho a rfl)
  | error x => exact herror x

end Returns

section Replies

variable {request_id : RequestId} {principal : Principal}

/-- A description is one of a client error. -/
theorem describe_message_error_status {x : PyError} {description : MessageErrorDescription}
    (h : describe_message_error x = some description) :
    400 ≤ description.status ∧ description.status < 500 := by
  unfold describe_message_error at h
  split at h <;> first | (obtain rfl := Option.some.inj h; simp only; omega) | cases h

theorem answers_described {command : SocketCommand} {x : PyError} {caught : Prop} [Decidable caught]
    {description : MessageErrorDescription}
    (h : (if caught then describe_message_error x else none) = some description) :
    Answers request_id command (message_error_event request_id description) := by
  split_ifs at h
  exact .error (describe_message_error_status h)

theorem returns_describing {command : SocketCommand} {caught : PyError → Bool}
    {body : Session Result} {ok : Result → Event}
    (hbody : Returns body fun r => Answers request_id command (ok r)) :
    Returns (describing caught body ok (message_error_event request_id))
      (Answers request_id command) := by
  refine Returns.attempt hbody (fun r hr => .pure hr) fun x => ?_
  dsimp only
  split
  · rename_i description hdescription
    exact .pure (answers_described hdescription)
  · exact .throw

theorem returns_handle_chat_read {chat_id : UUID} {last_read_seq : Int} :
    Returns (handle_chat_read request_id principal chat_id last_read_seq)
      (Answers request_id (.chatRead chat_id last_read_seq)) := by
  unfold handle_chat_read
  split_ifs
  · refine Returns.attempt .any (fun saved _ => .pure .chatRead) fun x => ?_
    split
    · rename_i heq
      cases heq
    · exact .pure (.error (by omega))
    · split
      · rename_i description hdescription
        exact .pure (answers_described hdescription)
      · exact .throw
  · exact .pure (.error (by omega))

theorem returns_handle_sync {after_seq limit : Nat} :
    Returns (handle_sync request_id principal after_seq limit)
      (Answers request_id (.sync after_seq limit)) := by
  unfold handle_sync
  split_ifs
  · exact .bind fun page => .pure .sync
  · exact .pure (.error (by omega))

theorem returns_handle_delivery {envelope_id : UUID} :
    Returns (handle_delivery request_id principal envelope_id)
      (Answers request_id (.delivery envelope_id)) :=
  returns_describing (.bind fun _ => .pure .delivery)

theorem returns_handle_send {request : SendMessageRequest} :
    Returns (handle_send request_id principal request)
      (Answers request_id (.send request)) := by
  unfold handle_send
  split_ifs
  · exact returns_describing (.bind fun _ => .pure .send)
  · exact .pure (.error (by omega))

/-- **Every reply belongs to its request.** -/
theorem returns_handle_command (command : SocketCommand) :
    Returns (handle_command request_id principal command) (Answers request_id command) := by
  cases command with
  | chatRead chat_id last_read_seq => exact returns_handle_chat_read
  | sync after_seq limit => exact returns_handle_sync
  | delivery envelope_id => exact returns_handle_delivery
  | send request => exact returns_handle_send
  | unsupported => exact .pure (.error (by omega))

end Replies

end Server
end SecureMessenger
