import SecureMessenger.Client.Mappers
import SecureMessenger.Lib.Iso8601

/-!
# What the mappers accept

For each mapper the relation between a JSON value and the record that is made of
it: the mapper accepts exactly the related values.  A rejection names one of a
fixed set of fields, whatever the value holds.
-/

namespace SecureMessenger
namespace Client
namespace Mappers

open Lib
open JsonValue (entry)
open Lib.Iso8601 (UtcTime digits mem_digits length_digits)
open Socket (ServerEvent)

section Relations

/-- The value is this text. -/
def IsString (v : Option Json) (s : String) : Prop :=
  v = some (.string s)

/-- The value is this number, which is safe. -/
def IsInteger (v : Option Json) (n : Nat) : Prop :=
  v = some (.number (.integer n)) ∧ (n : ℤ) ≤ JsNumber.maxSafeInteger

/-- The value is this number, which is safe and not zero. -/
def IsPositive (v : Option Json) (n : Nat) : Prop :=
  IsInteger v n ∧ 0 < n

def IsBoolean (v : Option Json) (b : Bool) : Prop :=
  v = some (.bool b)

/-- The value is `null` if there is nothing, and otherwise related. -/
def OrNull {α : Type} (P : Option Json → α → Prop) (v : Option Json) : Option α → Prop
  | none => v = some .null
  | some a => P v a

/-- The value is missing if there is nothing, and otherwise related. -/
def OrMissing {α : Type} (P : Option Json → α → Prop) (v : Option Json) : Option α → Prop
  | none => v = none
  | some a => P v a

/-- The value is an array of related values. -/
def IsList {α : Type} (P : Option Json → α → Prop) (v : Option Json) (l : List α) : Prop :=
  ∃ items, v = some (.array items) ∧ List.Forall₂ (fun w a => P (some w) a) items l

/-- The value is an object with related entries. -/
def IsObject {α : Type} (P : Fields → α → Prop) (v : Option Json) (a : α) : Prop :=
  ∃ dto, v = some (.object dto) ∧ P dto a

variable (parses : String → Bool)

/-- The value is the text of a timestamp. -/
def IsTime (v : Option Json) (text : String) : Prop :=
  v = some (.string text) ∧ isTimestamp parses text = true

def IsTimestamp (v : Option Json) (t : Timestamp) : Prop :=
  IsTime parses v t.text

end Relations

section Primitives

variable {field : String} {v : Option Json} {parses : String → Bool}

theorem object_iff {dto : Fields} : object v = .ok dto ↔ v = some (.object dto) := by
  unfold object
  split
  · rename_i dto'
    rw [Except.ok.injEq, Option.some.injEq, JsonValue.object.injEq]
  · rename_i hno
    constructor
    · intro h
      cases h
    · rintro rfl
      exact absurd rfl (hno dto)

theorem reads_string : Reads (string field) IsString := by
  intro v s
  unfold string IsString
  split
  · rw [Except.ok.injEq, Option.some.injEq, JsonValue.string.injEq]
  · rename_i hno
    constructor
    · intro h
      cases h
    · rintro rfl
      exact absurd rfl (hno s)

theorem reads_integer : Reads (integer field) IsInteger := by
  intro v n
  unfold integer IsInteger
  split
  · rename_i z
    have hsafe : JsNumber.isSafeInteger (.integer z) = true ↔
        -JsNumber.maxSafeInteger ≤ z ∧ z ≤ JsNumber.maxSafeInteger := decide_eq_true_iff
    split
    · rename_i hz
      rw [hsafe] at hz
      rw [Except.ok.injEq, Option.some.injEq, JsonValue.number.injEq, JsNumber.integer.injEq]
      omega
    · rename_i hz
      rw [hsafe] at hz
      rw [Option.some.injEq, JsonValue.number.injEq, JsNumber.integer.injEq]
      unfold JsNumber.maxSafeInteger at hz ⊢
      constructor
      · intro h
        cases h
      · omega
  · rename_i hno
    constructor
    · intro h
      cases h
    · rintro ⟨rfl, -⟩
      exact absurd rfl (hno n)

theorem reads_positiveInteger : Reads (positiveInteger field) IsPositive := by
  intro v n
  unfold positiveInteger
  rw [ok_bind_iff]
  constructor
  · rintro ⟨m, hm, h⟩
    split_ifs at h with hpos
    · obtain rfl := Except.ok.inj h
      exact ⟨(reads_integer v _).mp hm, hpos⟩
    · cases h
  · rintro ⟨hint, hpos⟩
    refine ⟨n, (reads_integer v n).mpr hint, ?_⟩
    rw [if_pos hpos]
    rfl

theorem reads_boolean : Reads (boolean field) IsBoolean := by
  intro v b
  unfold boolean IsBoolean
  split
  · rw [Except.ok.injEq, Option.some.injEq, JsonValue.bool.injEq]
  · rename_i hno
    constructor
    · intro h
      cases h
    · rintro rfl
      exact absurd rfl (hno b)

theorem reads_timestamp : Reads (timestamp parses field) (IsTimestamp parses) := by
  intro v t
  unfold timestamp
  rw [ok_bind_iff]
  constructor
  · rintro ⟨text, htext, h⟩
    split_ifs at h with hok
    · obtain rfl := Except.ok.inj h
      exact ⟨(reads_string v text).mp htext, hok⟩
    · cases h
  · rintro ⟨hv, hok⟩
    refine ⟨t.text, (reads_string v _).mpr hv, ?_⟩
    rw [dif_pos hok]
    rfl

variable {α : Type} {read : Option Json → Except JsError α} {P : Option Json → α → Prop}

theorem reads_nullable (h : Reads read P) (hnull : ∀ a, ¬P (some .null) a) :
    Reads (nullable read) (OrNull P) := by
  intro v o
  unfold Mappers.nullable
  split
  · cases o with
    | none => exact ⟨fun _ => rfl, fun _ => rfl⟩
    | some a =>
        constructor
        · intro h
          cases h
        · exact fun h => absurd h (hnull a)
  · rename_i hno
    rw [ok_bind_iff]
    constructor
    · rintro ⟨a, ha, h'⟩
      obtain rfl := Except.ok.inj h'
      exact (h v a).mp ha
    · cases o with
      | none => exact fun hv => absurd hv hno
      | some a => exact fun ha => ⟨a, (h v a).mpr ha, rfl⟩

theorem reads_optional (h : Reads read P) (hnone : ∀ a, ¬P none a) :
    Reads (optional read) (OrMissing P) := by
  intro v o
  unfold Mappers.optional
  split
  · cases o with
    | none => exact ⟨fun _ => rfl, fun _ => rfl⟩
    | some a =>
        constructor
        · intro h
          cases h
        · exact fun h => absurd h (hnone a)
  · rename_i hno
    rw [ok_bind_iff]
    constructor
    · rintro ⟨a, ha, h'⟩
      obtain rfl := Except.ok.inj h'
      exact (h v a).mp ha
    · cases o with
      | none => exact fun hv => absurd hv hno
      | some a => exact fun ha => ⟨a, (h v a).mpr ha, rfl⟩

theorem reads_mapList (h : Reads read P) : Reads (mapList read) (IsList P) := by
  intro v l
  have hitems : (fun (w : Json) a => read (some w) = .ok a) = fun w a => P (some w) a := by
    funext w a
    exact propext (h (some w) a)
  unfold Mappers.mapList IsList
  split
  · rename_i items
    rw [ok_mapM_iff, hitems]
    constructor
    · exact fun hall => ⟨items, rfl, hall⟩
    · rintro ⟨items', heq, hall⟩
      obtain rfl := JsonValue.array.inj (Option.some.inj heq)
      exact hall
  · rename_i hno
    constructor
    · intro h
      cases h
    · rintro ⟨items, rfl, -⟩
      exact absurd rfl (hno items)

theorem reads_nullableString : Reads (nullable (string field)) (OrNull IsString) :=
  reads_nullable reads_string fun _ h => by cases h

theorem reads_nullableTimestamp :
    Reads (nullable (timestamp parses field)) (OrNull (IsTimestamp parses)) :=
  reads_nullable reads_timestamp fun _ h => by cases h.1

theorem reads_optionalString : Reads (optional (string field)) (OrMissing IsString) :=
  reads_optional reads_string fun _ h => by cases h

/-- A reading of the entries of an object. -/
theorem reads_object {read : Fields → Except JsError α} {P : Fields → α → Prop}
    (h : ∀ dto a, read dto = .ok a ↔ P dto a) :
    Reads (fun v => object v >>= read) (IsObject P) := by
  intro v a
  simp only [ok_bind_iff, object_iff, h]
  exact Iff.rfl

end Primitives

/-! ## Records -/

section Records

variable (parses : String → Bool)

/-- The entries of an envelope. -/
structure EnvelopeEntries (dto : Fields) (x : MessageEnvelope) : Prop where
  id : IsString (entry "id" dto) x.id
  message_id : IsString (entry "message_id" dto) x.message_id
  recipient_device_id : IsString (entry "recipient_device_id" dto) x.recipient_device_id
  recipient_user_id : ∃ id, x.recipient_user_id = some id ∧
    IsString (entry "recipient_user_id" dto) id
  mailbox_seq : ∃ n : Nat, x.mailbox_seq = .integer n ∧ IsInteger (entry "mailbox_seq" dto) n
  protocol_version : IsInteger (entry "protocol_version" dto) x.protocol_version
  envelope_type : IsString (entry "envelope_type" dto) x.envelope_type
  payload : OrNull IsString (entry "payload" dto) x.payload
  created_at : IsTime parses (entry "created_at" dto) x.created_at
  expires_at : IsTime parses (entry "expires_at" dto) x.expires_at
  delivered_at : OrNull (IsTimestamp parses) (entry "delivered_at" dto) x.delivered_at
  payload_purged_at :
    OrNull (IsTimestamp parses) (entry "payload_purged_at" dto) x.payload_purged_at

abbrev IsEnvelope : Option Json → MessageEnvelope → Prop :=
  IsObject (EnvelopeEntries parses)

/-- The entries of a message that its sender gets to see. -/
structure SentEntries (raw : Fields) (x : SentMessage) : Prop where
  id : IsString (entry "id" raw) x.id
  chat_id : IsString (entry "chat_id" raw) x.chatId
  chat_seq : ∃ n, x.chatSeq = some n ∧ IsPositive (entry "chat_seq" raw) n
  sender_user_id : IsString (entry "sender_user_id" raw) x.senderUserId
  sender_device_id : IsString (entry "sender_device_id" raw) x.senderDeviceId
  client_message_id : IsString (entry "client_message_id" raw) x.clientMessageId
  created_at : IsTime parses (entry "created_at" raw) x.createdAt
  envelopes : IsList (IsEnvelope parses) (entry "envelopes" raw) x.envelopes

abbrev IsSentMessage : Option Json → SentMessage → Prop :=
  IsObject (SentEntries parses)

/-- The entries of an envelope in a mailbox. -/
structure MailboxEntries (dto : Fields) (x : MailboxEnvelope) : Prop where
  envelope : EnvelopeEntries parses dto x.toMessageEnvelope
  chat_id : IsString (entry "chat_id" dto) x.chat_id
  chat_seq : ∃ n, x.chat_seq = some n ∧ IsPositive (entry "chat_seq" dto) n
  sender_user_id : IsString (entry "sender_user_id" dto) x.sender_user_id
  sender_device_id : IsString (entry "sender_device_id" dto) x.sender_device_id
  client_message_id : IsString (entry "client_message_id" dto) x.client_message_id
  message_created_at : IsTime parses (entry "message_created_at" dto) x.message_created_at
  properties : x.properties = mailboxProperties

abbrev IsMailboxEnvelope : Option Json → MailboxEnvelope → Prop :=
  IsObject (MailboxEntries parses)

/-- The entries of a page of a mailbox. -/
structure PageEntries (raw : Fields) (x : MailboxPage) : Prop where
  envelopes : IsList (IsMailboxEnvelope parses) (entry "envelopes" raw) x.envelopes
  next_seq : ∃ n : Nat, x.nextSeq = .integer n ∧ IsInteger (entry "next_seq" raw) n
  has_more : IsBoolean (entry "has_more" raw) x.hasMore

abbrev IsMailboxPage : Option Json → MailboxPage → Prop :=
  IsObject (PageEntries parses)

/-- The entries of a read cursor. -/
structure CursorEntries (dto : Fields) (x : ChatReadCursor) : Prop where
  chat_id : IsString (entry "chat_id" dto) x.chatId
  user_id : IsString (entry "user_id" dto) x.userId
  last_read_seq : ∃ n : Nat, x.lastReadSeq = .integer n ∧ IsInteger (entry "last_read_seq" dto) n
  updated_at : OrNull (IsTimestamp parses) (entry "updated_at" dto) x.updatedAt

abbrev IsReadCursor : Option Json → ChatReadCursor → Prop :=
  IsObject (CursorEntries parses)

/-- The entries of the state of a chat. -/
structure StateEntries (state : Fields) (x : ChatStatesEntry) : Prop where
  chat_id : IsString (entry "chat_id" state) x.chatId
  last_message_seq : IsInteger (entry "last_message_seq" state) x.lastMessageSeq
  read_states : IsList (IsReadCursor parses) (entry "read_states" state) x.readStates

/-- The entries of a page of chat states. -/
structure StatesPageEntries (dto : Fields) (x : ChatStatesPage) : Prop where
  states : IsList (IsObject (StateEntries parses)) (entry "states" dto) x.states
  next_chat_id : OrNull IsString (entry "next_chat_id" dto) x.nextChatId
  has_more : IsBoolean (entry "has_more" dto) x.hasMore

abbrev IsChatStatesPage : Option Json → ChatStatesPage → Prop :=
  IsObject (StatesPageEntries parses)

/-- The entries of a page of sent messages. -/
structure SentPageEntries (dto : Fields) (x : SentMessagesPage) : Prop where
  messages : IsList (IsSentMessage parses) (entry "messages" dto) x.messages
  next_message_id : OrNull IsString (entry "next_message_id" dto) x.nextMessageId
  has_more : IsBoolean (entry "has_more" dto) x.hasMore

abbrev IsSentMessagesPage : Option Json → SentMessagesPage → Prop :=
  IsObject (SentPageEntries parses)

variable {parses}

theorem reads_mapMessageEnvelope : Reads (mapMessageEnvelope parses) (IsEnvelope parses) := by
  refine reads_object fun dto x => ?_
  simp only [ok_bind_iff, reads_string _ _, reads_integer _ _, reads_nullableString _ _,
    reads_timestamp _ _, reads_nullableTimestamp _ _]
  constructor
  · rintro ⟨id, hid, message_id, hmessage, device, hdevice, user, huser, seq, hseq, version,
      hversion, type, htype, payload, hpayload, created, hcreated, expires, hexpires, delivered,
      hdelivered, purged, hpurged, h⟩
    obtain rfl := Except.ok.inj h
    exact ⟨hid, hmessage, hdevice, ⟨user, rfl, huser⟩, ⟨seq, rfl, hseq⟩, hversion, htype, hpayload,
      hcreated, hexpires, hdelivered, hpurged⟩
  · intro h
    obtain ⟨user, hx, huser⟩ := h.recipient_user_id
    obtain ⟨seq, hy, hseq⟩ := h.mailbox_seq
    refine ⟨_, h.id, _, h.message_id, _, h.recipient_device_id, user, huser, seq, hseq, _,
      h.protocol_version, _, h.envelope_type, _, h.payload,
      ⟨x.created_at, isTimestamp_nonempty parses h.created_at.2⟩, h.created_at,
      ⟨x.expires_at, isTimestamp_nonempty parses h.expires_at.2⟩, h.expires_at, _, h.delivered_at,
      _, h.payload_purged_at, ?_⟩
    rw [← hx, ← hy]
    rfl

theorem reads_mapSentMessage : Reads (mapSentMessage parses) (IsSentMessage parses) := by
  refine reads_object fun raw x => ?_
  simp only [ok_bind_iff, reads_string _ _, reads_positiveInteger _ _, reads_timestamp _ _,
    reads_mapList reads_mapMessageEnvelope _ _]
  constructor
  · rintro ⟨id, hid, chat, hchat, seq, hseq, user, huser, device, hdevice, client, hclient, created,
      hcreated, envelopes, henvelopes, h⟩
    obtain rfl := Except.ok.inj h
    exact ⟨hid, hchat, ⟨seq, rfl, hseq⟩, huser, hdevice, hclient, hcreated, henvelopes⟩
  · intro h
    obtain ⟨seq, hx, hseq⟩ := h.chat_seq
    refine ⟨_, h.id, _, h.chat_id, seq, hseq, _, h.sender_user_id, _, h.sender_device_id, _,
      h.client_message_id, ⟨x.createdAt, isTimestamp_nonempty parses h.created_at.2⟩, h.created_at,
      _, h.envelopes, ?_⟩
    rw [← hx]
    rfl

theorem reads_mapMailboxEnvelope :
    Reads (mapMailboxEnvelope parses) (IsMailboxEnvelope parses) := by
  refine reads_object fun dto x => ?_
  simp only [ok_bind_iff, reads_string _ _, reads_positiveInteger _ _, reads_timestamp _ _,
    reads_mapMessageEnvelope _ _]
  constructor
  · rintro ⟨envelope, ⟨dto', hdto, henvelope⟩, chat, hchat, seq, hseq, user, huser, device, hdevice,
      client, hclient, created, hcreated, h⟩
    obtain rfl := JsonValue.object.inj (Option.some.inj hdto)
    obtain rfl := Except.ok.inj h
    exact ⟨henvelope, hchat, ⟨seq, rfl, hseq⟩, huser, hdevice, hclient, hcreated, rfl⟩
  · intro h
    obtain ⟨seq, hx, hseq⟩ := h.chat_seq
    refine ⟨_, ⟨dto, rfl, h.envelope⟩, _, h.chat_id, seq, hseq, _, h.sender_user_id, _,
      h.sender_device_id, _, h.client_message_id,
      ⟨x.message_created_at, isTimestamp_nonempty parses h.message_created_at.2⟩,
      h.message_created_at, ?_⟩
    rw [← hx, ← h.properties]
    rfl

theorem reads_mapMailboxPage : Reads (mapMailboxPage parses) (IsMailboxPage parses) := by
  refine reads_object fun raw x => ?_
  simp only [ok_bind_iff, reads_integer _ _, reads_boolean _ _,
    reads_mapList reads_mapMailboxEnvelope _ _]
  constructor
  · rintro ⟨envelopes, henvelopes, next, hnext, more, hmore, h⟩
    obtain rfl := Except.ok.inj h
    exact ⟨henvelopes, ⟨next, rfl, hnext⟩, hmore⟩
  · intro h
    obtain ⟨next, hx, hnext⟩ := h.next_seq
    refine ⟨_, h.envelopes, next, hnext, _, h.has_more, ?_⟩
    rw [← hx]
    rfl

theorem reads_mapChatReadCursor : Reads (mapChatReadCursor parses) (IsReadCursor parses) := by
  refine reads_object fun dto x => ?_
  simp only [ok_bind_iff, reads_string _ _, reads_integer _ _, reads_nullableTimestamp _ _]
  constructor
  · rintro ⟨chat, hchat, user, huser, seq, hseq, updated, hupdated, h⟩
    obtain rfl := Except.ok.inj h
    exact ⟨hchat, huser, ⟨seq, rfl, hseq⟩, hupdated⟩
  · intro h
    obtain ⟨seq, hx, hseq⟩ := h.last_read_seq
    refine ⟨_, h.chat_id, _, h.user_id, seq, hseq, _, h.updated_at, ?_⟩
    rw [← hx]
    rfl

theorem reads_mapChatState :
    Reads (mapChatState parses) (IsObject (StateEntries parses)) := by
  refine reads_object fun state x => ?_
  simp only [ok_bind_iff, reads_string _ _, reads_integer _ _,
    reads_mapList reads_mapChatReadCursor _ _]
  constructor
  · rintro ⟨chat, hchat, seq, hseq, states, hstates, h⟩
    obtain rfl := Except.ok.inj h
    exact ⟨hchat, hseq, hstates⟩
  · exact fun h => ⟨_, h.chat_id, _, h.last_message_seq, _, h.read_states, rfl⟩

theorem reads_mapChatStatesPage :
    Reads (mapChatStatesPage parses) (IsChatStatesPage parses) := by
  refine reads_object fun dto x => ?_
  simp only [ok_bind_iff, reads_nullableString _ _, reads_boolean _ _,
    reads_mapList reads_mapChatState _ _]
  constructor
  · rintro ⟨states, hstates, next, hnext, more, hmore, h⟩
    obtain rfl := Except.ok.inj h
    exact ⟨hstates, hnext, hmore⟩
  · exact fun h => ⟨_, h.states, _, h.next_chat_id, _, h.has_more, rfl⟩

theorem reads_mapSentMessagesPage :
    Reads (mapSentMessagesPage parses) (IsSentMessagesPage parses) := by
  refine reads_object fun dto x => ?_
  simp only [ok_bind_iff, reads_nullableString _ _, reads_boolean _ _,
    reads_mapList reads_mapSentMessage _ _]
  constructor
  · rintro ⟨messages, hmessages, next, hnext, more, hmore, h⟩
    obtain rfl := Except.ok.inj h
    exact ⟨hmessages, hnext, hmore⟩
  · exact fun h => ⟨_, h.messages, _, h.next_message_id, _, h.has_more, rfl⟩

end Records

/-! ## Events -/

section Events

variable (parses : String → Bool)

/-- The entries of an event of this type. -/
def EventOf (type : String) (dto : Fields) : ServerEvent → Prop
  | .authOk => type = "auth.ok"
  | .chatReadUpdated request_id data => type = "chat.read.updated" ∧
      OrMissing IsString (entry "request_id" dto) request_id ∧
        IsReadCursor parses (entry "data" dto) data
  | .messageNew data => type = "message.new" ∧ IsMailboxEnvelope parses (entry "data" dto) data
  | .messageDelivered request_id data => type = "message.delivered" ∧
      OrMissing IsString (entry "request_id" dto) request_id ∧
        IsEnvelope parses (entry "data" dto) data
  | .syncResponse request_id data => type = "sync.response" ∧
      IsString (entry "request_id" dto) request_id ∧ IsMailboxPage parses (entry "data" dto) data
  | .messageAccepted request_id data => type = "message.accepted" ∧
      IsString (entry "request_id" dto) request_id ∧ IsSentMessage parses (entry "data" dto) data
  | .error request_id message status code => type = "error" ∧
      OrMissing IsString (entry "request_id" dto) request_id ∧
        ∃ error, entry "error" dto = some (.object error) ∧ IsString (entry "code" error) code ∧
          IsString (entry "message" error) message ∧
          ∃ n : Nat, status = n ∧ IsInteger (entry "status" error) n

/-- The entries of an event. -/
def EventEntries (dto : Fields) (event : ServerEvent) : Prop :=
  ∃ type, IsString (entry "type" dto) type ∧ EventOf parses type dto event

abbrev IsServerEvent : Option Json → ServerEvent → Prop :=
  IsObject (EventEntries parses)

variable {parses} {dto : Fields} {type : String} {event : ServerEvent}

theorem mapEventError_iff : mapEventError dto = .ok event ↔
    ∃ request_id message status code, event = .error request_id message status code ∧
      OrMissing IsString (entry "request_id" dto) request_id ∧
        ∃ error, entry "error" dto = some (.object error) ∧ IsString (entry "code" error) code ∧
          IsString (entry "message" error) message ∧
          ∃ n : Nat, status = n ∧ IsInteger (entry "status" error) n := by
  unfold mapEventError
  simp only [ok_bind_iff, object_iff, reads_string _ _, reads_integer _ _,
    reads_optionalString _ _]
  constructor
  · rintro ⟨error, herror, id, hid, code, hcode, message, hmessage, n, hn, h⟩
    exact ⟨id, message, n, code, (Except.ok.inj h).symm, hid, error, herror, hcode, hmessage,
      n, rfl,
      hn⟩
  · rintro ⟨id, message, status, code, rfl, hid, error, herror, hcode, hmessage, n, rfl, hn⟩
    exact ⟨error, herror, id, hid, code, hcode, message, hmessage, n, hn, rfl⟩

theorem mapEventOf_ok (h : mapEventOf parses dto type = .ok event) :
    EventOf parses type dto event := by
  unfold mapEventOf at h
  split_ifs at h with hread hauth hnew hdelivered haccepted hsync herror
  · simp only [ok_bind_iff, reads_optionalString _ _, reads_mapChatReadCursor _ _] at h
    obtain ⟨id, hid, data, hdata, h⟩ := h
    obtain rfl := Except.ok.inj h
    exact ⟨hread, hid, hdata⟩
  · obtain rfl := Except.ok.inj h
    exact hauth
  · simp only [ok_bind_iff, reads_mapMailboxEnvelope _ _] at h
    obtain ⟨data, hdata, h⟩ := h
    obtain rfl := Except.ok.inj h
    exact ⟨hnew, hdata⟩
  · simp only [ok_bind_iff, reads_optionalString _ _, reads_mapMessageEnvelope _ _] at h
    obtain ⟨id, hid, data, hdata, h⟩ := h
    obtain rfl := Except.ok.inj h
    exact ⟨hdelivered, hid, hdata⟩
  · simp only [ok_bind_iff, reads_string _ _, reads_mapSentMessage _ _] at h
    obtain ⟨id, hid, data, hdata, h⟩ := h
    obtain rfl := Except.ok.inj h
    exact ⟨haccepted, hid, hdata⟩
  · simp only [ok_bind_iff, reads_string _ _, reads_mapMailboxPage _ _] at h
    obtain ⟨id, hid, data, hdata, h⟩ := h
    obtain rfl := Except.ok.inj h
    exact ⟨hsync, hid, hdata⟩
  · obtain ⟨id, message, status, code, rfl, hrest⟩ := mapEventError_iff.mp h
    exact ⟨herror, hrest⟩
  · cases h

theorem mapEventOf_of (h : EventOf parses type dto event) :
    mapEventOf parses dto type = .ok event := by
  unfold mapEventOf
  cases event with
  | authOk =>
      obtain rfl := h
      rfl
  | chatReadUpdated request_id data =>
      obtain ⟨rfl, hid, hdata⟩ := h
      rw [if_pos rfl]
      simp only [ok_bind_iff, reads_optionalString _ _, reads_mapChatReadCursor _ _]
      exact ⟨_, hid, _, hdata, rfl⟩
  | messageNew data =>
      obtain ⟨rfl, hdata⟩ := h
      simp only [String.reduceEq, if_false, if_true, ok_bind_iff, reads_mapMailboxEnvelope _ _]
      exact ⟨_, hdata, rfl⟩
  | messageDelivered request_id data =>
      obtain ⟨rfl, hid, hdata⟩ := h
      simp only [String.reduceEq, if_false, if_true, ok_bind_iff, reads_optionalString _ _,
        reads_mapMessageEnvelope _ _]
      exact ⟨_, hid, _, hdata, rfl⟩
  | syncResponse request_id data =>
      obtain ⟨rfl, hid, hdata⟩ := h
      simp only [String.reduceEq, if_false, if_true, ok_bind_iff, reads_string _ _,
        reads_mapMailboxPage _ _]
      exact ⟨_, hid, _, hdata, rfl⟩
  | messageAccepted request_id data =>
      obtain ⟨rfl, hid, hdata⟩ := h
      simp only [String.reduceEq, if_false, if_true, ok_bind_iff, reads_string _ _,
        reads_mapSentMessage _ _]
      exact ⟨_, hid, _, hdata, rfl⟩
  | error request_id message status code =>
      obtain ⟨rfl, hrest⟩ := h
      simp only [String.reduceEq, if_false, if_true]
      exact mapEventError_iff.mpr ⟨_, _, _, _, rfl, hrest⟩

/-- **The gateway accepts exactly the well-formed events.** -/
theorem reads_mapServerEvent : Reads (mapServerEvent parses) (IsServerEvent parses) := by
  refine reads_object fun dto event => ?_
  unfold EventEntries IsString
  split
  · rename_i type htype
    rw [htype]
    constructor
    · exact fun h => ⟨type, rfl, mapEventOf_ok h⟩
    · rintro ⟨type', heq, h⟩
      obtain rfl := JsonValue.string.inj (Option.some.inj heq)
      exact mapEventOf_of h
  · rename_i hno
    constructor
    · intro h
      cases h
    · rintro ⟨type, htype, -⟩
      exact absurd htype (hno type)

end Events

/-! ## Timestamps -/

section Timestamps

/-- The characters with these codes. -/
def chars (codes : List Nat) : List Char :=
  codes.map Char.ofNat

theorem isDigit_ofNat {c : Nat} (h : 48 ≤ c ∧ c < 58) : (Char.ofNat c).isDigit = true := by
  have hall : ∀ c < 58, 48 ≤ c → (Char.ofNat c).isDigit = true := by
    decide
  exact hall c h.2 h.1

theorem isDigit_of_mem {width n : Nat} {c : Char} (h : c ∈ chars (digits width n)) :
    c.isDigit = true := by
  obtain ⟨code, hcode, rfl⟩ := List.mem_map.mp h
  exact isDigit_ofNat (mem_digits hcode)

theorem matchPattern_digits {pattern rest : List Char} : ∀ {text : List Char},
    (∀ c ∈ text, c.isDigit = true) →
      matchPattern (List.replicate text.length '9' ++ pattern) (text ++ rest) =
        matchPattern pattern rest := by
  intro text h
  induction text with
  | nil => rfl
  | cons c text ih =>
      have hc := h c List.mem_cons_self
      have ih := ih fun d hd => h d (List.mem_cons_of_mem c hd)
      rw [List.length_cons, List.replicate_succ, List.cons_append, List.cons_append, matchPattern,
        if_pos rfl, if_pos hc, ih]

theorem matchPattern_number (width n : Nat) (pattern rest : List Char) :
    matchPattern (List.replicate width '9' ++ pattern) (chars (digits width n) ++ rest) =
      matchPattern pattern rest := by
  have hlen : (chars (digits width n)).length = width :=
    (List.length_map _).trans (length_digits width n)
  have h := @matchPattern_digits pattern rest (chars (digits width n)) fun c hc => isDigit_of_mem hc
  rwa [hlen] at h

theorem matchPattern_separator (p : Char) (hp : p ≠ '9') (pattern rest : List Char) :
    matchPattern (p :: pattern) (p :: rest) = matchPattern pattern rest := by
  rw [matchPattern, if_neg hp, decide_eq_true rfl, if_pos rfl]

theorem chars_append (xs ys : List Nat) : chars (xs ++ ys) = chars xs ++ chars ys :=
  List.map_append

theorem chars_cons (x : Nat) (xs : List Nat) : chars (x :: xs) = Char.ofNat x :: chars xs :=
  rfl

theorem matchPattern_civil (t : Iso8601.CivilTime) (rest : List Char) :
    matchPattern "9999-99-99T99:99:99".toList (chars t.codes ++ rest) = some rest := by
  have hpattern : "9999-99-99T99:99:99".toList =
      List.replicate 4 '9' ++ '-' :: (List.replicate 2 '9' ++ '-' :: (List.replicate 2 '9' ++
        'T' :: (List.replicate 2 '9' ++ ':' :: (List.replicate 2 '9' ++
          ':' :: (List.replicate 2 '9' ++ []))))) := rfl
  have hminus : Char.ofNat 45 = '-' := rfl
  have hT : Char.ofNat 84 = 'T' := rfl
  have hcolon : Char.ofNat 58 = ':' := rfl
  simp only [hpattern, Iso8601.CivilTime.codes, chars_append, chars_cons, hminus, hT, hcolon,
    List.append_assoc, List.cons_append]
  have hyear : '-' ≠ '9' := by decide
  have htime : 'T' ≠ '9' := by decide
  have hminute : ':' ≠ '9' := by decide
  rw [matchPattern_number, matchPattern_separator '-' hyear, matchPattern_number,
    matchPattern_separator '-' hyear, matchPattern_number, matchPattern_separator 'T' htime,
    matchPattern_number, matchPattern_separator ':' hminute, matchPattern_number,
    matchPattern_separator ':' hminute, matchPattern_number]
  rfl

theorem matchFraction_codes (f : Iso8601.Fraction) :
    matchFraction (chars f.codes ++ ['Z']) = true := by
  have hdigits (width n : Nat) :
      matchFraction ('.' :: (chars (digits (width + 1) n) ++ ['Z'])) = true := by
    have hall : ∀ c ∈ chars (digits (width + 1) n), c.isDigit = true :=
      fun c hc => isDigit_of_mem hc
    have hlen : (chars (digits (width + 1) n)).length = width + 1 :=
      (List.length_map _).trans (length_digits _ n)
    cases hc : chars (digits (width + 1) n) with
    | nil =>
        rw [hc] at hlen
        cases hlen
    | cons c text =>
        rw [hc] at hall
        rw [List.cons_append, matchFraction, hall c List.mem_cons_self, Bool.true_and,
          List.dropWhile_append_of_pos fun d hd => hall d (List.mem_cons_of_mem c hd)]
        rfl
  cases f with
  | omitted => rfl
  | millis n _ => exact hdigits 2 n
  | micros n _ => exact hdigits 5 n

/-- The texts that ISO 8601 gives to UTC timestamps have the form that the gateway expects. -/
theorem timestampPattern_text (t : UtcTime) : timestampPattern t.text = true := by
  have htext : t.text.toList = chars t.civil.codes ++ (chars t.fraction.codes ++ ['Z']) := by
    rw [UtcTime.text, String.toList_ofList, UtcTime.codes, UtcTime.stem, ← List.append_assoc,
      ← chars_append, ← chars, chars_append]
    rfl
  unfold timestampPattern
  rw [htext, matchPattern_civil]
  exact matchFraction_codes t.fraction

end Timestamps
/-! ## Rejections -/

section Rejections

/-- What an error can name. -/
def fieldNames : List String :=
  ["object", "array", "event type", "type", "id", "message_id", "recipient_device_id",
    "recipient_user_id", "mailbox_seq", "protocol_version", "envelope_type", "payload",
    "created_at", "expires_at", "delivered_at", "payload_purged_at", "chat_id", "chat_seq",
    "sender_user_id", "sender_device_id", "client_message_id", "message_created_at", "next_seq",
    "has_more", "user_id", "last_read_seq", "updated_at", "last_message_seq", "next_chat_id",
    "next_message_id", "username", "status", "request_id", "code", "message"]

/-- The error reports a field only. -/
def NamesField (e : JsError) : Prop :=
  ∃ field ∈ fieldNames, e = .error ("Invalid server response: " ++ field ++ ".")

variable {α : Type} {field : String} {parses : String → Bool}

theorem rejects_invalid (h : field ∈ fieldNames) :
    Rejects NamesField (invalid field : Except JsError α) := by
  intro e he
  exact ⟨field, h, (Except.error.inj he).symm⟩

theorem rejects_object (v : Option Json) : Rejects NamesField (object v) := by
  unfold object
  split
  · exact .ok _
  · exact rejects_invalid (by decide)

theorem rejects_string (h : field ∈ fieldNames) (v : Option Json) :
    Rejects NamesField (string field v) := by
  unfold string
  split
  · exact .ok _
  · exact rejects_invalid h

theorem rejects_integer (h : field ∈ fieldNames) (v : Option Json) :
    Rejects NamesField (integer field v) := by
  unfold integer
  split
  · split_ifs
    · exact .ok _
    · exact rejects_invalid h
  · exact rejects_invalid h

theorem rejects_positiveInteger (h : field ∈ fieldNames) (v : Option Json) :
    Rejects NamesField (positiveInteger field v) := by
  refine .bind (rejects_integer h v) fun n => ?_
  split_ifs
  · exact .ok _
  · exact rejects_invalid h

theorem rejects_boolean (h : field ∈ fieldNames) (v : Option Json) :
    Rejects NamesField (boolean field v) := by
  unfold boolean
  split
  · exact .ok _
  · exact rejects_invalid h

theorem rejects_timestamp (h : field ∈ fieldNames) (v : Option Json) :
    Rejects NamesField (timestamp parses field v) := by
  refine .bind (rejects_string h v) fun text => ?_
  split_ifs
  · exact .ok _
  · exact rejects_invalid h

theorem rejects_nullable {read : Option Json → Except JsError α}
    (h : ∀ v, Rejects NamesField (read v)) (v : Option Json) :
    Rejects NamesField (nullable read v) := by
  unfold Mappers.nullable
  split
  · exact .ok _
  · exact .bind (h v) fun a => .ok _

theorem rejects_optional {read : Option Json → Except JsError α}
    (h : ∀ v, Rejects NamesField (read v)) (v : Option Json) :
    Rejects NamesField (optional read v) := by
  unfold Mappers.optional
  split
  · exact .ok _
  · exact .bind (h v) fun a => .ok _

theorem rejects_mapList {map : Option Json → Except JsError α}
    (h : ∀ v, Rejects NamesField (map v)) (v : Option Json) :
    Rejects NamesField (mapList map v) := by
  unfold Mappers.mapList
  split
  · intro e he
    obtain ⟨item, -, hitem⟩ := error_mapM he
    exact h (some item) e hitem
  · exact rejects_invalid (by decide)

theorem rejects_mapMessageEnvelope (v : Option Json) :
    Rejects NamesField (mapMessageEnvelope parses v) :=
  .bind (rejects_object v) fun _ => .bind (rejects_string (by decide) _) fun _ =>
    .bind (rejects_string (by decide) _) fun _ => .bind (rejects_string (by decide) _) fun _ =>
    .bind (rejects_string (by decide) _) fun _ => .bind (rejects_integer (by decide) _) fun _ =>
    .bind (rejects_integer (by decide) _) fun _ => .bind (rejects_string (by decide) _) fun _ =>
    .bind (rejects_nullable (rejects_string (by decide)) _) fun _ =>
    .bind (rejects_timestamp (by decide) _) fun _ =>
    .bind (rejects_timestamp (by decide) _) fun _ =>
    .bind (rejects_nullable (rejects_timestamp (by decide)) _) fun _ =>
    .bind (rejects_nullable (rejects_timestamp (by decide)) _) fun _ => .ok _

theorem rejects_mapSentMessage (v : Option Json) :
    Rejects NamesField (mapSentMessage parses v) :=
  .bind (rejects_object v) fun _ => .bind (rejects_string (by decide) _) fun _ =>
    .bind (rejects_string (by decide) _) fun _ =>
    .bind (rejects_positiveInteger (by decide) _) fun _ =>
    .bind (rejects_string (by decide) _) fun _ => .bind (rejects_string (by decide) _) fun _ =>
    .bind (rejects_string (by decide) _) fun _ => .bind (rejects_timestamp (by decide) _) fun _ =>
    .bind (rejects_mapList rejects_mapMessageEnvelope _) fun _ => .ok _

theorem rejects_mapMailboxEnvelope (v : Option Json) :
    Rejects NamesField (mapMailboxEnvelope parses v) :=
  .bind (rejects_object v) fun _ => .bind (rejects_mapMessageEnvelope _) fun _ =>
    .bind (rejects_string (by decide) _) fun _ =>
    .bind (rejects_positiveInteger (by decide) _) fun _ =>
    .bind (rejects_string (by decide) _) fun _ => .bind (rejects_string (by decide) _) fun _ =>
    .bind (rejects_string (by decide) _) fun _ =>
    .bind (rejects_timestamp (by decide) _) fun _ => .ok _

theorem rejects_mapMailboxPage (v : Option Json) :
    Rejects NamesField (mapMailboxPage parses v) :=
  .bind (rejects_object v) fun _ => .bind (rejects_mapList rejects_mapMailboxEnvelope _) fun _ =>
    .bind (rejects_integer (by decide) _) fun _ =>
    .bind (rejects_boolean (by decide) _) fun _ => .ok _

theorem rejects_mapChatReadCursor (v : Option Json) :
    Rejects NamesField (mapChatReadCursor parses v) :=
  .bind (rejects_object v) fun _ => .bind (rejects_string (by decide) _) fun _ =>
    .bind (rejects_string (by decide) _) fun _ => .bind (rejects_integer (by decide) _) fun _ =>
    .bind (rejects_nullable (rejects_timestamp (by decide)) _) fun _ => .ok _

theorem rejects_mapChatState (v : Option Json) : Rejects NamesField (mapChatState parses v) :=
  .bind (rejects_object v) fun _ => .bind (rejects_string (by decide) _) fun _ =>
    .bind (rejects_integer (by decide) _) fun _ =>
    .bind (rejects_mapList rejects_mapChatReadCursor _) fun _ => .ok _

theorem rejects_mapChatStatesPage (v : Option Json) :
    Rejects NamesField (mapChatStatesPage parses v) :=
  .bind (rejects_object v) fun _ => .bind (rejects_mapList rejects_mapChatState _) fun _ =>
    .bind (rejects_nullable (rejects_string (by decide)) _) fun _ =>
    .bind (rejects_boolean (by decide) _) fun _ => .ok _

theorem rejects_mapSentMessagesPage (v : Option Json) :
    Rejects NamesField (mapSentMessagesPage parses v) :=
  .bind (rejects_object v) fun _ => .bind (rejects_mapList rejects_mapSentMessage _) fun _ =>
    .bind (rejects_nullable (rejects_string (by decide)) _) fun _ =>
    .bind (rejects_boolean (by decide) _) fun _ => .ok _

theorem rejects_mapUser (v : Option Json) : Rejects NamesField (mapUser parses v) :=
  .bind (rejects_object v) fun _ => .bind (rejects_string (by decide) _) fun _ =>
    .bind (rejects_string (by decide) _) fun _ => .bind (rejects_string (by decide) _) fun _ =>
    .bind (rejects_timestamp (by decide) _) fun _ => .ok _

theorem rejects_directType (v : Option Json) : Rejects NamesField (directType v) := by
  unfold directType
  split
  · split_ifs
    · exact .ok _
    · exact rejects_invalid (by decide)
  · exact rejects_invalid (by decide)

theorem rejects_mapDirectChat (v : Option Json) : Rejects NamesField (mapDirectChat parses v) :=
  .bind (rejects_object v) fun _ => .bind (rejects_directType _) fun _ =>
    .bind (rejects_string (by decide) _) fun _ => .bind (rejects_timestamp (by decide) _) fun _ =>
    .bind (rejects_mapUser _) fun _ => .ok _

theorem rejects_mapDestinationDevice (v : Option Json) :
    Rejects NamesField (mapDestinationDevice v) :=
  .bind (rejects_object v) fun _ => .bind (rejects_string (by decide) _) fun _ =>
    .bind (rejects_integer (by decide) _) fun _ =>
    .bind (rejects_string (by decide) _) fun _ => .ok _

theorem rejects_mapEventError (dto : Fields) : Rejects NamesField (mapEventError dto) :=
  .bind (rejects_object _) fun _ =>
    .bind (rejects_optional (rejects_string (by decide)) _) fun _ =>
    .bind (rejects_string (by decide) _) fun _ => .bind (rejects_string (by decide) _) fun _ =>
    .bind (rejects_integer (by decide) _) fun _ => .ok _

theorem rejects_mapEventOf (dto : Fields) (type : String) :
    Rejects NamesField (mapEventOf parses dto type) := by
  have hoptional (v : Option Json) :
      Rejects NamesField (optional (string "request_id") v) :=
    rejects_optional (rejects_string (by decide)) v
  have hstring (v : Option Json) : Rejects NamesField (string "request_id" v) :=
    rejects_string (by decide) v
  unfold mapEventOf
  split_ifs
  · exact .bind (hoptional _) fun _ => .bind (rejects_mapChatReadCursor _) fun _ => .ok _
  · exact .ok _
  · exact .bind (rejects_mapMailboxEnvelope _) fun _ => .ok _
  · exact .bind (hoptional _) fun _ => .bind (rejects_mapMessageEnvelope _) fun _ => .ok _
  · exact .bind (hstring _) fun _ => .bind (rejects_mapSentMessage _) fun _ => .ok _
  · exact .bind (hstring _) fun _ => .bind (rejects_mapMailboxPage _) fun _ => .ok _
  · exact rejects_mapEventError dto
  · exact rejects_invalid (by decide)

theorem rejects_mapServerEvent (v : Option Json) :
    Rejects NamesField (mapServerEvent parses v) := by
  refine .bind (rejects_object v) fun dto => ?_
  split
  · exact rejects_mapEventOf _ _
  · exact rejects_invalid (by decide)

/-- An error of the gateway reports a field and nothing else of what was received. -/
theorem rejections_name_fields (parses : String → Bool) (v : Option Json) :
    Rejects NamesField (mapServerEvent parses v) ∧ Rejects NamesField (mapMailboxPage parses v) ∧
      Rejects NamesField (mapSentMessagesPage parses v) ∧
      Rejects NamesField (mapChatStatesPage parses v) ∧
      Rejects NamesField (mapSentMessage parses v) ∧
      Rejects NamesField (mapMessageEnvelope parses v) ∧
      Rejects NamesField (mapChatReadCursor parses v) ∧
      Rejects NamesField (mapList (mapDirectChat parses) v) ∧
      Rejects NamesField (mapList mapDestinationDevice v) :=
  ⟨rejects_mapServerEvent v, rejects_mapMailboxPage v, rejects_mapSentMessagesPage v,
    rejects_mapChatStatesPage v, rejects_mapSentMessage v, rejects_mapMessageEnvelope v,
    rejects_mapChatReadCursor v, rejects_mapList rejects_mapDirectChat v,
    rejects_mapList rejects_mapDestinationDevice v⟩

end Rejections

end Mappers
end Client
end SecureMessenger
