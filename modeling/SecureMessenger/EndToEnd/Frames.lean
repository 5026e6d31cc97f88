import SecureMessenger.Client.MessageOrder
import SecureMessenger.Client.SocketRequests
import SecureMessenger.EndToEnd.JsonWire
import SecureMessenger.Server.Alone
import SecureMessenger.Server.SocketCommands

/-!
# Frames

Every event that the server sends over a socket, as the JSON of its frame, and
what `mapServerEvent` makes of it.
-/

namespace SecureMessenger
namespace EndToEnd

open Lib
open Lib.Iso8601 (UtcTime)
open Lib.JsonValue (entry)
open Client.Mappers
open Client (JsNumber isTruthy)
open Client.Socket (ServerEvent)
open Server (RequestId)

/-- `request_id`, where it is given. -/
def requestField : Option RequestId → Fields
  | none => []
  | some id => [("request_id", .string id)]

/-- The events of the handlers and of the publications. -/
inductive Frame
  | authOk
  | syncResponse (request_id : RequestId) (page : Server.MailboxPage)
  | messageAccepted (request_id : RequestId) (stored : Server.StoredMessage)
  | messageDelivered (request_id : Option RequestId) (envelope : Server.Envelope)
  | chatReadUpdated (request_id : Option RequestId) (state : Server.ReadState)
  | messageNew (entry : Server.MailboxEntry)
  | error (code message : String) (status : Nat) (request_id : Option RequestId)

namespace Frame

/-- What `send_json` is given. -/
def fields (iso : Server.Instant → Client.Timestamp) : Frame → Fields
  | authOk => [("type", .string "auth.ok")]
  | syncResponse id page => [("type", .string "sync.response"), ("request_id", .string id),
      ("data", mailbox_response iso page)]
  | messageAccepted id stored => [("type", .string "message.accepted"),
      ("request_id", .string id), ("data", message_response iso true stored)]
  | messageDelivered id envelope => ("type", .string "message.delivered") :: (requestField id ++
      [("data", envelope_response iso true envelope)])
  | chatReadUpdated id state => ("type", .string "chat.read.updated") :: (requestField id ++
      [("data", read_state_response iso state)])
  | messageNew entry => [("type", .string "message.new"),
      ("data", mailbox_envelope_response iso entry)]
  | error code message status id => [("type", .string "error"),
      ("error", .object [("code", .string code), ("message", .string message),
        ("status", jsonNumber status)])] ++ requestField id

def type : Frame → String
  | authOk => "auth.ok"
  | syncResponse _ _ => "sync.response"
  | messageAccepted _ _ => "message.accepted"
  | messageDelivered _ _ => "message.delivered"
  | chatReadUpdated _ _ => "chat.read.updated"
  | messageNew _ => "message.new"
  | error _ _ _ _ => "error"

theorem entry_type (iso : Server.Instant → Client.Timestamp) (f : Frame) :
    entry "type" (f.fields iso) = some (.string f.type) := by
  cases f with
  | messageDelivered id envelope => cases id <;> rfl
  | chatReadUpdated id state => cases id <;> rfl
  | error code message status id => cases id <;> rfl
  | _ => rfl

/-- The numbers of the frame are safe integers. -/
def Safe : Frame → Prop
  | authOk => True
  | syncResponse _ page => SafePage page
  | messageAccepted _ stored => SafeStored stored
  | messageDelivered _ envelope => SafeEnvelope envelope
  | chatReadUpdated _ state => SafeReadState state
  | messageNew entry => SafeEntry entry
  | error _ _ status _ => SafeNat status

/-- The event at the client. -/
def event (iso : Server.Instant → Client.Timestamp) : Frame → ServerEvent
  | authOk => .authOk
  | syncResponse id page => .syncResponse id (mailboxPage iso page)
  | messageAccepted id stored => .messageAccepted id (arrivedMessage iso true stored)
  | messageDelivered id envelope =>
      .messageDelivered (id.map Subtype.val) (arrivedEnvelope iso true envelope)
  | chatReadUpdated id state => .chatReadUpdated (id.map Subtype.val) (chatReadCursor iso state)
  | messageNew entry => .messageNew (mailboxEnvelope iso entry)
  | error code message status id => .error (id.map Subtype.val) message status code

end Frame

section Arrival

variable {parses : String → Bool} {iso : Server.Instant → Client.Timestamp} {f : Frame}

theorem isServerEvent_frame (hiso : ∀ t, isTimestamp parses (iso t).text = true) (h : f.Safe) :
    IsServerEvent parses (some (.object (f.fields iso))) (f.event iso) := by
  refine ⟨_, rfl, ?_⟩
  cases f with
  | authOk => exact ⟨"auth.ok", rfl, rfl⟩
  | syncResponse id page =>
      exact ⟨"sync.response", rfl, rfl, rfl, isMailboxPage_response hiso h⟩
  | messageAccepted id stored =>
      exact ⟨"message.accepted", rfl, rfl, rfl, isSentMessage_response hiso h⟩
  | messageDelivered id envelope =>
      cases id with
      | none => exact ⟨"message.delivered", rfl, rfl, rfl, isEnvelope_response hiso h⟩
      | some id => exact ⟨"message.delivered", rfl, rfl, rfl, isEnvelope_response hiso h⟩
  | chatReadUpdated id state =>
      cases id with
      | none => exact ⟨"chat.read.updated", rfl, rfl, rfl, isReadCursor_response hiso h⟩
      | some id => exact ⟨"chat.read.updated", rfl, rfl, rfl, isReadCursor_response hiso h⟩
  | messageNew entry => exact ⟨"message.new", rfl, rfl, isMailboxEnvelope_response hiso h⟩
  | error code message status id =>
      cases id with
      | none => exact ⟨"error", rfl, rfl, rfl, _, rfl, rfl, rfl, status, rfl, rfl, h⟩
      | some id => exact ⟨"error", rfl, rfl, rfl, _, rfl, rfl, rfl, status, rfl, rfl, h⟩

theorem isServerEvent_safe {e : ServerEvent}
    (h : IsServerEvent parses (some (.object (f.fields iso))) e) : f.Safe := by
  obtain ⟨dto, hdto, type, htype, hof⟩ := h
  obtain rfl := JsonValue.object.inj (Option.some.inj hdto)
  obtain rfl := JsonValue.string.inj (Option.some.inj ((f.entry_type iso).symm.trans htype))
  cases f with
  | authOk => trivial
  | syncResponse id page =>
      cases e <;> simp only [EventOf, Frame.type, String.reduceEq, false_and] at hof
      exact isMailboxPage_safe hof.2.2
  | messageAccepted id stored =>
      cases e <;> simp only [EventOf, Frame.type, String.reduceEq, false_and] at hof
      exact isSentMessage_safe hof.2.2
  | messageDelivered id envelope =>
      cases e <;> simp only [EventOf, Frame.type, String.reduceEq, false_and] at hof
      cases id <;> exact isEnvelope_safe hof.2.2
  | chatReadUpdated id state =>
      cases e <;> simp only [EventOf, Frame.type, String.reduceEq, false_and] at hof
      cases id <;> exact isReadCursor_safe hof.2.2
  | messageNew entry =>
      cases e <;> simp only [EventOf, Frame.type, String.reduceEq, false_and] at hof
      exact isMailboxEnvelope_safe hof.2
  | error code message status id =>
      cases e <;> simp only [EventOf, Frame.type, String.reduceEq, false_and] at hof
      obtain ⟨-, -, error, herror, -, -, n, -, hn⟩ := hof
      obtain rfl : [("code", .string code), ("message", .string message),
          ("status", jsonNumber status)] = error := by
        cases id <;> exact JsonValue.object.inj (Option.some.inj herror)
      exact (isInteger_jsonNumber.mp hn).1

end Arrival

/-! ## Texts of timestamps -/

section Texts

/-- A `datetime` as the models of the responses write it. -/
def isoText (civil : Server.Instant → UtcTime) (t : Server.Instant) : Client.Timestamp where
  text := (civil t).text
  nonempty := timestampPattern_nonempty (timestampPattern_text (civil t))

variable {parses : String → Bool} (hparses : ∀ t : UtcTime, parses t.text = true)
  (civil : Server.Instant → UtcTime)

include hparses

theorem isTimestamp_isoText (t : Server.Instant) :
    isTimestamp parses (isoText civil t).text = true :=
  (Bool.and_eq_true _ _).mpr ⟨timestampPattern_text (civil t), hparses (civil t)⟩

/-- What the gateway makes of a frame. -/
theorem mapServerEvent_frame (f : Frame) (e : ServerEvent) :
    mapServerEvent parses (some (.object (f.fields (isoText civil)))) = .ok e ↔
      f.Safe ∧ e = f.event (isoText civil) :=
  reads_mapServerEvent.exactly (isServerEvent_frame (isTimestamp_isoText hparses civil))
    fun _ => isServerEvent_safe

/-- **Every response and every frame of the server arrives as it was meant**, or is rejected
because a number of it is no safe integer. -/
theorem responses_arrive :
    (∀ page x, mapMailboxPage parses (some (mailbox_response (isoText civil) page)) = .ok x ↔
      SafePage page ∧ x = mailboxPage (isoText civil) page) ∧
    (∀ page x,
      mapSentMessagesPage parses (some (sent_messages_response (isoText civil) page)) = .ok x ↔
        (∀ stored ∈ page.messages, SafeStored stored) ∧
          x = sentMessagesPage (isoText civil) page) ∧
    (∀ page x,
      mapChatStatesPage parses (some (chat_states_response (isoText civil) page)) = .ok x ↔
        (∀ state ∈ page.states, SafeChatState state) ∧ x = chatStatesPage (isoText civil) page) ∧
    (∀ stored x,
      mapSentMessage parses (some (message_response (isoText civil) true stored)) = .ok x ↔
        SafeStored stored ∧ x = arrivedMessage (isoText civil) true stored) ∧
    (∀ envelope x,
      mapMessageEnvelope parses (some (envelope_response (isoText civil) true envelope)) = .ok x ↔
        SafeEnvelope envelope ∧ x = messageEnvelope (isoText civil) envelope) ∧
    ∀ (f : Frame) (e : ServerEvent),
      mapServerEvent parses (some (.object (f.fields (isoText civil)))) = .ok e ↔
        f.Safe ∧ e = f.event (isoText civil) := by
  have hiso := isTimestamp_isoText hparses civil
  exact ⟨
    fun _ _ => reads_mapMailboxPage.exactly (isMailboxPage_response hiso)
      fun _ => isMailboxPage_safe,
    fun _ _ => reads_mapSentMessagesPage.exactly (isSentMessagesPage_response hiso)
      fun _ => isSentMessagesPage_safe,
    fun _ _ => reads_mapChatStatesPage.exactly (isChatStatesPage_response hiso)
      fun _ => isChatStatesPage_safe,
    fun _ _ => reads_mapSentMessage.exactly (isSentMessage_response hiso)
      fun _ => isSentMessage_safe,
    fun _ _ => reads_mapMessageEnvelope.exactly (isEnvelope_response hiso)
      fun _ => isEnvelope_safe,
    mapServerEvent_frame hparses civil⟩

end Texts

/-- A page whose only envelope was delivered and purged. -/
theorem responses_arrive_purged :
    let text := isoText fun _ => Client.tenOClock .omitted
    let page : Server.MailboxPage := ⟨[⟨⟨"e", "m", "phone", "bob", 1, 0, "PLAINTEXT", none, 5, 9,
      some 6, some 7⟩, ⟨"m", "c", "alice", "laptop", "x", 5, 1⟩⟩], 1, false⟩
    mapMailboxPage (fun _ => true) (some (mailbox_response text page)) =
      .ok (mailboxPage text page) := by
  intro text page
  have harrive := @responses_arrive (fun _ => true) (fun _ => rfl)
    (fun _ => Client.tenOClock .omitted)
  refine (harrive.1 page _).mpr ⟨⟨fun e he => ?_, ?_⟩, rfl⟩
  · obtain rfl := List.mem_singleton.mp he
    simp only [SafeEntry, SafeEnvelope, SafeMessage, SafeNat, JsNumber.maxSafeInteger]
    omega
  · simp only [SafeNat, JsNumber.maxSafeInteger, page]
    omega

/-! ## Replies -/

section Replies

open Server (SocketCommand)
open Client.Socket (Kind Manager Settlement apiError)

/-- The data of a response. -/
def resultJson (iso : Server.Instant → Client.Timestamp) : Server.Result → Json
  | .page page => mailbox_response iso page
  | .stored stored => message_response iso true stored
  | .envelope envelope => envelope_response iso true envelope
  | .readState state => read_state_response iso state
  | _ => .null

/-- The frame of an event that a handler returns. -/
def eventFields (iso : Server.Instant → Client.Timestamp) : Server.Event → Fields
  | .response type id data => [("type", .string type), ("request_id", .string id),
      ("data", resultJson iso data)]
  | .error code message status id => [("type", .string "error"),
      ("error", .object [("code", .string code), ("message", .string message),
        ("status", jsonNumber status)]), ("request_id", .string id)]

/-- The numbers of the event are safe integers. -/
def SafeEvent : Server.Event → Prop
  | .response _ _ (.page page) => SafePage page
  | .response _ _ (.stored stored) => SafeStored stored
  | .response _ _ (.envelope envelope) => SafeEnvelope envelope
  | .response _ _ (.readState state) => SafeReadState state
  | _ => True

/-- How the promise of a request settles by the event. -/
def settlementOf (iso : Server.Instant → Client.Timestamp) : Server.Event → Option Settlement
  | .response _ _ (.page page) => some (.resolved (.page (mailboxPage iso page)))
  | .response _ _ (.stored stored) =>
      some (.resolved (.message (arrivedMessage iso true stored)))
  | .response _ _ (.envelope envelope) =>
      some (.resolved (.envelope (messageEnvelope iso envelope)))
  | .response _ _ (.readState state) => some (.resolved (.cursor (chatReadCursor iso state)))
  | .error code message status _ => some (.rejected (apiError message status (some code)))
  | _ => none

/-- The map that a command waits in at the client. -/
def commandKind : SocketCommand → Option Kind
  | .chatRead _ _ => some .read
  | .sync _ _ => some .sync
  | .delivery _ => some .ack
  | .send _ => some .send
  | .unsupported => none

section Settle

variable {m : Manager} {s : Client.Socket.SocketId} {k : Kind} {id : RequestId}
  {t : Client.Socket.TimerId}

/-- An error finds the request in the map it waits in. -/
theorem takeFirst_of_get (hunique : ∀ k' t', (m.pending k').get id.val = some t' → k' = k)
    (hid : id.val ≠ "") (hp : (m.pending k).get id.val = some t) (settlement : Settlement)
    {kinds : List Kind} (hk : k ∈ kinds) :
    m.takeFirst (some id.val) settlement kinds =
      some ((m.remove k id.val t).settle id.val settlement) := by
  induction kinds with
  | nil => cases hk
  | cons k' kinds ih =>
      rw [Manager.takeFirst]
      by_cases heq : k' = k
      · subst heq
        rw [Client.Socket.take_of_get hid hp, Option.some_or]
      · have hnone : m.take k' (some id.val) settlement = none := by
          cases htake : m.take k' (some id.val) settlement with
          | none => rfl
          | some m' =>
              obtain ⟨id', t', hid', hp', -⟩ := Client.Socket.take_eq_some htake
              obtain rfl := Option.some.inj hid'
              exact absurd (hunique k' t' hp') heq
        rw [hnone, Option.none_or]
        exact ih ((List.mem_cons.mp hk).resolve_left (Ne.symm heq))

/-- The request is settled by this frame, and no longer waits. -/
def Settled (m : Manager) (s : Client.Socket.SocketId) (id : RequestId) (k : Kind)
    (settlement : Settlement) (e : ServerEvent) : Prop :=
  (m.onmessage s (some e)).trace =
      .settled id settlement :: .received s (some e) :: m.trace ∧
    ((m.onmessage s (some e)).pending k).get id = none

/-- A reply in the map of its command settles the promise. -/
theorem settled_of_take {settlement : Settlement} {e : ServerEvent}
    (hcurrent : m.current s = true) (t : Client.Socket.TimerId)
    (h : (m.log (.received s (some e))).handleFrame e =
      ((m.log (.received s (some e))).remove k id t).settle id settlement) :
    Settled m s id k settlement e := by
  have honmessage : m.onmessage s (some e) =
      ((m.log (.received s (some e))).remove k id t).settle id settlement := by
    have hcurrent' : (m.log (.received s (some e))).current s = true := hcurrent
    unfold Manager.onmessage
    dsimp only
    rw [hcurrent']
    exact h
  unfold Settled
  rw [honmessage]
  refine ⟨rfl, ?_⟩
  simp only [Manager.settle, Manager.log, Manager.remove, Manager.clearTimeout,
    Function.update_self, Dict.get_delete, if_true]

end Settle

/-- The reply to a request: it is rejected for its numbers, or settles the request. -/
def Replied (parses : String → Bool) (iso : Server.Instant → Client.Timestamp) (m : Manager)
    (s : Client.Socket.SocketId) (id : RequestId) (k : Kind) (ev : Server.Event) : Prop :=
  ¬SafeEvent ev ∧ (∃ x, mapServerEvent parses (some (.object (eventFields iso ev))) = .error x) ∨
    SafeEvent ev ∧ ∃ e settlement,
      mapServerEvent parses (some (.object (eventFields iso ev))) = .ok e ∧
        settlementOf iso ev = some settlement ∧ Settled m s id k settlement e

section Replied

variable {parses : String → Bool} (hparses : ∀ t : UtcTime, parses t.text = true)
  {civil : Server.Instant → UtcTime} {m : Manager} {s : Client.Socket.SocketId} {id : RequestId}
  {k : Kind} {ev : Server.Event}

include hparses

theorem replied_of_frame {f : Frame} {settlement : Settlement}
    (hfields : eventFields (isoText civil) ev = f.fields (isoText civil))
    (hsafe : SafeEvent ev ↔ f.Safe) (hset : settlementOf (isoText civil) ev = some settlement)
    (hsettled : Settled m s id k settlement (f.event (isoText civil))) :
    Replied parses (isoText civil) m s id k ev := by
  unfold Replied
  rw [hfields, hsafe]
  by_cases h : f.Safe
  · exact .inr ⟨h, _, settlement, (mapServerEvent_frame hparses civil f _).mpr ⟨h, rfl⟩, hset,
      hsettled⟩
  · refine .inl ⟨h, ?_⟩
    cases hmap : mapServerEvent parses (some (.object (f.fields (isoText civil)))) with
    | error x => exact ⟨x, rfl⟩
    | ok e => exact absurd ((mapServerEvent_frame hparses civil f e).mp hmap).1 h

end Replied

/-- **Whatever a handler returns settles the request that it answers**, if its numbers are safe
integers; otherwise the frame is rejected. -/
theorem replies_settle {parses : String → Bool} (hparses : ∀ t : UtcTime, parses t.text = true)
    (civil : Server.Instant → UtcTime) {m : Manager} (h : Client.Socket.Reachable m)
    {s : Client.Socket.SocketId} (hcurrent : m.current s = true) {k : Kind} {id : RequestId}
    {t : Client.Socket.TimerId} (hp : (m.pending k).get id = some t) {command : SocketCommand}
    (hk : commandKind command = some k) (principal : Server.Principal) :
    Server.Returns (Server.handle_command id principal command)
      (Replied parses (isoText civil) m s id k) := by
  refine (Server.returns_handle_command command).mono fun ev hanswers => ?_
  obtain ⟨hauth, hid, -⟩ := h.inv.pending k id t hp
  have htake (settlement : Settlement) (e : ServerEvent) :
      (m.log (.received s (some e))).take k (some id.val) settlement =
        some (((m.log (.received s (some e))).remove k id t).settle id settlement) :=
    Client.Socket.take_of_get (m := m.log _) hid hp settlement
  have hlog (e : ServerEvent) : (m.log (.received s (some e))).authenticated = true := hauth
  have htruthy : isTruthy (some id.val) = true := decide_eq_true hid
  cases hanswers with
  | @chatRead chat_id last_read_seq state =>
      obtain rfl := Option.some.inj hk
      refine replied_of_frame hparses (f := .chatReadUpdated (some id) state) rfl Iff.rfl rfl
        (settled_of_take hcurrent t ?_)
      unfold Manager.handleFrame
      simp only [Frame.event, Option.map_some, hlog, htruthy, htake,
        Bool.not_true, Bool.false_eq_true, if_false, if_true, Option.getD_some]
  | @sync after_seq limit page =>
      obtain rfl := Option.some.inj hk
      refine replied_of_frame hparses (f := .syncResponse id page) rfl Iff.rfl rfl
        (settled_of_take hcurrent t ?_)
      unfold Manager.handleFrame
      simp only [Frame.event, hlog, htake, Bool.not_true, Bool.false_eq_true,
        if_false, Option.getD_some]
  | @delivery envelope_id envelope =>
      obtain rfl := Option.some.inj hk
      refine replied_of_frame hparses (f := .messageDelivered (some id) envelope) rfl Iff.rfl rfl
        (settled_of_take hcurrent t ?_)
      unfold Manager.handleFrame
      simp only [Frame.event, Option.map_some, hlog, htruthy, htake,
        Bool.not_true, Bool.false_eq_true, if_false, if_true, Option.getD_some]
      rfl
  | @send request stored =>
      obtain rfl := Option.some.inj hk
      refine replied_of_frame hparses (f := .messageAccepted id stored) rfl Iff.rfl rfl
        (settled_of_take hcurrent t ?_)
      unfold Manager.handleFrame
      simp only [Frame.event, hlog, htake, Bool.not_true, Bool.false_eq_true,
        if_false]
  | @error _ code message status hstatus =>
      have hsafe : SafeNat status := by
        unfold SafeNat JsNumber.maxSafeInteger
        omega
      refine replied_of_frame hparses (f := .error code message status (some id)) rfl
        ⟨fun _ => hsafe, fun _ => trivial⟩ rfl (settled_of_take hcurrent t ?_)
      have hkinds : k ∈ [Kind.read, .ack, .sync, .send] := by
        cases k <;> decide
      have hfirst := takeFirst_of_get (m := m.log (.received s (some (Frame.event (isoText civil)
        (.error code message status (some id)))))) (fun k' t' hp' => h.inv.pending_unique hp' hp)
        hid hp (.rejected (apiError message status (some code))) hkinds
      simp only [Frame.event, Option.map_some] at hfirst ⊢
      unfold Manager.handleFrame
      simp only [hlog, Bool.not_true, Bool.false_eq_true, if_false, hfirst,
        Option.getD_some]

section Hello

open Server.Example (alice hello)

def helloStored : Server.StoredMessage :=
  ⟨⟨"m1", "chat", "alice", "phone-a", "message-1", 1, 0⟩,
    [⟨"e1", "m1", "phone-b", "bob", 1, 0, "PLAINTEXT", Base64.b64decode "aGVsbG8=", 0,
      Server.PAYLOAD_RETENTION, none, none⟩]⟩

def helloAccepted : Server.Event :=
  .response "message.accepted" ⟨"r", by decide⟩ (.stored helloStored)

/-- The handler accepts the message. -/
theorem yields_helloAccepted : Prog.Yields Server.AnyAnswer 23
    (Server.handle_command ⟨"r", by decide⟩ alice (.send hello)) (.ok helloAccepted) := by
  refine Server.yields_answered (none : Option Server.Message) ?_
  refine Server.yields_answered (some "bob") ?_
  -- the locks of the chat, the users and the mailbox
  refine Server.yields_answered (some (⟨"chat", 0, "DIRECT"⟩ : Server.Chat))
    (Server.yields_answered (.ok ()) ?_)
  refine Server.yields_answered (some (⟨"chat", 0, "DIRECT"⟩ : Server.Chat)) ?_
  refine Server.yields_answered (none : Option Server.Message) ?_
  refine Server.yields_answered (some (⟨"alice", "alice", "secret", "active"⟩ : Server.User))
    (Server.yields_answered (.ok ()) ?_)
  refine Server.yields_answered (some (⟨"alice", "alice", "secret", "active"⟩ : Server.User)) ?_
  refine Server.yields_answered (some (⟨"bob", "bob", "secret", "active"⟩ : Server.User))
    (Server.yields_answered (.ok ()) ?_)
  refine Server.yields_answered (some (⟨"bob", "bob", "secret", "active"⟩ : Server.User)) ?_
  refine Server.yields_answered [(⟨"phone-b", "bob", "phone", 0, 0, none⟩ : Server.Device)] ?_
  refine Server.yields_answered [(⟨"phone-a", "alice", "phone", 0, 0, none⟩ : Server.Device)] ?_
  refine Server.yields_answered ["phone-b"] (Server.yields_answered (.ok ()) ?_)
  refine Server.yields_answered [(⟨"phone-b", 0⟩ : Server.DeviceMailbox)] ?_
  refine Server.yields_answered (0 : Server.Instant) ?_
  refine Server.yields_answered "m1" (Server.yields_answered "e1" ?_)
  -- the rows are written, committed and published
  refine Server.yields_answered () (Server.yields_answered (.ok ()) ?_)
  exact Server.yields_answered () .ret

/-- A send that waits for its reply is settled by the message. -/
theorem replies_settle_send :
    let m := Client.Socket.run {} [.start, .connected ⟨1, false⟩, .readyState 0 1,
      .onmessage 0 (some .authOk), .request (.sendMessage
        ⟨"chat", "message-1", [⟨"phone-b", 0, "PLAINTEXT", "aGVsbG8="⟩]⟩) "r" false]
    let iso := isoText fun _ => Client.tenOClock .omitted
    ∃ e, mapServerEvent (fun _ => true) (some (.object (eventFields iso helloAccepted))) = .ok e ∧
      Settled m 0 ⟨"r", by decide⟩ .send (.resolved (.message
        (arrivedMessage iso true helloStored)))
        e := by
  intro m iso
  have henabled : Client.Socket.Enabled {} [.start, .connected ⟨1, false⟩, .readyState 0 1,
      .onmessage 0 (some .authOk), .request (.sendMessage
        ⟨"chat", "message-1", [⟨"phone-b", 0, "PLAINTEXT", "aGVsbG8="⟩]⟩) "r" false] := by
    have hfresh : ∀ command, .requested "r" command ∉
        [Client.Socket.Entry.received 0 (some .authOk)] := by
      intro command hmem
      have heq := List.mem_singleton.mp hmem
      cases heq
    exact ⟨trivial, List.mem_singleton.mpr rfl, trivial, Option.some_ne_none 1,
      ⟨by decide, hfresh⟩, trivial⟩
  have hreplied : Replied (fun _ => true) iso m 0 ⟨"r", by decide⟩ .send helloAccepted :=
    replies_settle (fun _ => rfl) (fun _ => Client.tenOClock .omitted)
      (Client.Socket.Reachable.run .refl henabled) (by decide) (t := 1)
      (by decide) rfl alice _ _ yields_helloAccepted _ rfl
  have hsmall : ∀ n ≤ 1, SafeNat n := by
    intro n hn
    unfold SafeNat JsNumber.maxSafeInteger
    omega
  have hsafe : SafeEvent helloAccepted := by
    refine ⟨⟨hsmall 1 le_rfl, Nat.zero_lt_one⟩, fun e he => ?_⟩
    obtain rfl := List.mem_singleton.mp he
    exact ⟨hsmall 1 le_rfl, hsmall 0 (Nat.zero_le 1)⟩
  rcases hreplied with ⟨hexceeds, -⟩ | ⟨-, e, settlement, hmap, hsettlement, hsettled⟩
  · exact absurd hsafe hexceeds
  · obtain rfl := Option.some.inj hsettlement
    exact ⟨e, hmap, hsettled⟩

end Hello

end Replies

end EndToEnd
end SecureMessenger
