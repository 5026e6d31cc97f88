import SecureMessenger.Client.MapperContracts
import SecureMessenger.EndToEnd.Wire
import SecureMessenger.Lib.Outcomes
import SecureMessenger.Server.Handlers

/-!
# The JSON between server and client

`messages/responses.py`, `chats/responses.py` and the events of `realtime`, as
the JSON they become, and what the mappers of the client make of it: a response
arrives as the records of `Wire`, if its numbers are safe integers, and is
rejected otherwise.
-/

namespace SecureMessenger
namespace EndToEnd

open Lib
open Lib.Base64 (b64encode)
open Lib.JsonValue (entry entry_of_mem)
open Client.Mappers
open Client (JsNumber)

/-! ## The responses -/

section Responses

variable (iso : Server.Instant → Client.Timestamp)

/-- A number. -/
def jsonNumber (z : ℤ) : Json :=
  .number (.integer z)

/-- A `datetime`. -/
def jsonTime (t : Server.Instant) : Json :=
  .string (iso t).text

/-- An optional value. -/
def jsonOption {α : Type} (json : α → Json) : Option α → Json
  | none => .null
  | some a => json a

/-- The fields of `EnvelopeResponse`. -/
def envelopeFields (include_payload : Bool) (e : Server.Envelope) : Fields :=
  [("id", .string e.id),
    ("message_id", .string e.message_id),
    ("recipient_device_id", .string e.recipient_device_id),
    ("recipient_user_id", .string e.recipient_user_id),
    ("mailbox_seq", jsonNumber e.mailbox_seq),
    ("protocol_version", jsonNumber e.protocol_version),
    ("envelope_type", .string e.envelope_type),
    ("payload", jsonOption (fun b => .string (b64encode b))
      (if include_payload then e.payload else none)),
    ("created_at", jsonTime iso e.created_at),
    ("expires_at", jsonTime iso e.expires_at),
    ("delivered_at", jsonOption (jsonTime iso) e.delivered_at),
    ("payload_purged_at", jsonOption (jsonTime iso) e.payload_purged_at)]

/-- `envelope_response`. -/
def envelope_response (include_payload : Bool) (e : Server.Envelope) : Json :=
  .object (envelopeFields iso include_payload e)

/-- The fields of `MessageResponse`. -/
def messageFields (include_payload : Bool) (stored : Server.StoredMessage) : Fields :=
  [("id", .string stored.message.id),
    ("chat_id", .string stored.message.chat_id),
    ("chat_seq", jsonNumber stored.message.chat_seq),
    ("sender_user_id", .string stored.message.sender_user_id),
    ("sender_device_id", .string stored.message.sender_device_id),
    ("client_message_id", .string stored.message.client_message_id),
    ("created_at", jsonTime iso stored.message.created_at),
    ("envelopes", .array (stored.envelopes.map (envelope_response iso include_payload)))]

/-- `message_response`. -/
def message_response (include_payload : Bool) (stored : Server.StoredMessage) : Json :=
  .object (messageFields iso include_payload stored)

/-- `sent_message_response`. -/
def sent_message_response (stored : Server.StoredMessage) : Json :=
  message_response iso false stored

/-- The fields of `SentMessagesPageResponse`. -/
def sentPageFields (page : Server.SentMessagesPage) : Fields :=
  [("messages", .array (page.messages.map (sent_message_response iso))),
    ("next_message_id", jsonOption .string page.next_message_id),
    ("has_more", .bool page.has_more)]

/-- `sent_messages_response`. -/
def sent_messages_response (page : Server.SentMessagesPage) : Json :=
  .object (sentPageFields iso page)

/-- The fields that `MailboxEnvelopeResponse` adds. -/
def mailboxFields (m : Server.Message) : Fields :=
  [("chat_id", .string m.chat_id),
    ("chat_seq", jsonNumber m.chat_seq),
    ("sender_user_id", .string m.sender_user_id),
    ("sender_device_id", .string m.sender_device_id),
    ("client_message_id", .string m.client_message_id),
    ("message_created_at", jsonTime iso m.created_at)]

/-- `mailbox_envelope_response`. -/
def mailbox_envelope_response (e : Server.MailboxEntry) : Json :=
  .object (envelopeFields iso true e.envelope ++ mailboxFields iso e.message)

/-- The fields of `MailboxPageResponse`. -/
def pageFields (page : Server.MailboxPage) : Fields :=
  [("envelopes", .array (page.entries.map (mailbox_envelope_response iso))),
    ("next_seq", jsonNumber page.next_seq),
    ("has_more", .bool page.has_more)]

/-- `mailbox_response`. -/
def mailbox_response (page : Server.MailboxPage) : Json :=
  .object (pageFields iso page)

/-- The fields of `ReadStateResponse`. -/
def readStateFields (state : Server.ReadState) : Fields :=
  [("chat_id", .string state.chat_id),
    ("user_id", .string state.user_id),
    ("last_read_seq", jsonNumber state.last_read_seq),
    ("updated_at", jsonOption (jsonTime iso) state.updated_at)]

/-- `read_state_response`. -/
def read_state_response (state : Server.ReadState) : Json :=
  .object (readStateFields iso state)

/-- The fields of `ChatStateResponse`. -/
def chatStateFields (state : Server.ChatState) : Fields :=
  [("chat_id", .string state.chat_id),
    ("last_message_seq", jsonNumber state.last_message_seq),
    ("read_states", .array (state.read_states.map (read_state_response iso)))]

/-- The chats of `chat_states_response`. -/
def chat_state_response (state : Server.ChatState) : Json :=
  .object (chatStateFields iso state)

/-- The fields of `ChatStatesPageResponse`. -/
def statesPageFields (page : Server.ChatStatesPage) : Fields :=
  [("states", .array (page.states.map (chat_state_response iso))),
    ("next_chat_id", jsonOption .string page.next_chat_id),
    ("has_more", .bool page.has_more)]

/-- `chat_states_response`. -/
def chat_states_response (page : Server.ChatStatesPage) : Json :=
  .object (statesPageFields iso page)

end Responses

/-! ## Safe numbers -/

section Safe

/-- The number is a safe integer for JavaScript. -/
def SafeNat (n : Nat) : Prop :=
  (n : ℤ) ≤ JsNumber.maxSafeInteger

def SafeEnvelope (e : Server.Envelope) : Prop :=
  SafeNat e.mailbox_seq ∧ SafeNat e.protocol_version

def SafeMessage (m : Server.Message) : Prop :=
  SafeNat m.chat_seq ∧ 0 < m.chat_seq

def SafeStored (stored : Server.StoredMessage) : Prop :=
  SafeMessage stored.message ∧ ∀ e ∈ stored.envelopes, SafeEnvelope e

def SafeEntry (e : Server.MailboxEntry) : Prop :=
  SafeEnvelope e.envelope ∧ SafeMessage e.message

def SafePage (page : Server.MailboxPage) : Prop :=
  (∀ e ∈ page.entries, SafeEntry e) ∧ SafeNat page.next_seq

def SafeReadState (state : Server.ReadState) : Prop :=
  0 ≤ state.last_read_seq ∧ state.last_read_seq ≤ JsNumber.maxSafeInteger

def SafeChatState (state : Server.ChatState) : Prop :=
  SafeNat state.last_message_seq ∧ ∀ r ∈ state.read_states, SafeReadState r

end Safe

/-! ## Arrival -/

section Arrival

variable {parses : String → Bool} {iso : Server.Instant → Client.Timestamp}

section Parts

variable {α β : Type} {P : Option Json → β → Prop} {json : α → Json} {wire : α → β}

theorem isList_map {l : List α} (h : ∀ a ∈ l, P (some (json a)) (wire a)) :
    IsList P (some (.array (l.map json))) (l.map wire) := by
  refine ⟨_, rfl, ?_⟩
  rw [List.forall₂_map_left_iff, List.forall₂_map_right_iff]
  exact List.forall₂_same.mpr h

theorem isList_all {safe : α → Prop} (h : ∀ a b, P (some (json a)) b → safe a) {l : List α}
    {bs : List β} (hl : IsList P (some (.array (l.map json))) bs) : ∀ a ∈ l, safe a := by
  obtain ⟨items, heq, hall⟩ := hl
  obtain rfl := JsonValue.array.inj (Option.some.inj heq)
  rw [List.forall₂_map_left_iff] at hall
  exact ((List.forall₂_and_left _ _).mp (hall.imp fun a b hab => ⟨h a b hab, hab⟩)).1

theorem isInteger_jsonNumber {n m : Nat} :
    IsInteger (some (jsonNumber n)) m ↔ SafeNat n ∧ m = n := by
  unfold IsInteger SafeNat jsonNumber
  rw [Option.some.injEq, JsonValue.number.injEq, JsNumber.integer.injEq]
  omega

theorem isPositive_jsonNumber {n m : Nat} :
    IsPositive (some (jsonNumber n)) m ↔ (SafeNat n ∧ 0 < n) ∧ m = n := by
  unfold IsPositive
  rw [isInteger_jsonNumber]
  constructor
  · rintro ⟨⟨h, rfl⟩, hpos⟩
    exact ⟨⟨h, hpos⟩, rfl⟩
  · rintro ⟨⟨h, hpos⟩, rfl⟩
    exact ⟨⟨h, rfl⟩, hpos⟩

theorem orNull_string {o : Option String} :
    OrNull IsString (some (jsonOption .string o)) o := by
  cases o with
  | none => rfl
  | some s => rfl

theorem orNull_time (hiso : ∀ t, isTimestamp parses (iso t).text = true)
    {o : Option Server.Instant} :
    OrNull (IsTimestamp parses) (some (jsonOption (jsonTime iso) o)) (o.map iso) := by
  cases o with
  | none => rfl
  | some t => exact ⟨rfl, hiso t⟩

end Parts

/-- The object has these entries. -/
def Holds (fields dto : Fields) : Prop :=
  ∀ p ∈ fields, entry p.1 dto = some p.2

theorem holds_of_nodup {fields dto : Fields} (hnodup : (dto.map Prod.fst).Nodup)
    (hsub : fields ⊆ dto) : Holds fields dto :=
  fun _ h => entry_of_mem hnodup (hsub h)

/-- What `mapMessageEnvelope` makes of an envelope. -/
def arrivedEnvelope (iso : Server.Instant → Client.Timestamp) (include_payload : Bool)
    (e : Server.Envelope) : Client.MessageEnvelope :=
  { messageEnvelope iso e with
    payload := (if include_payload then e.payload else none).map b64encode }

theorem envelopeEntries (hiso : ∀ t, isTimestamp parses (iso t).text = true) {b : Bool}
    {e : Server.Envelope} {dto : Fields} (h : Holds (envelopeFields iso b e) dto)
    (hsafe : SafeEnvelope e) : EnvelopeEntries parses dto (arrivedEnvelope iso b e) := by
  simp only [Holds, envelopeFields, List.forall_mem_cons] at h
  obtain ⟨id, message_id, device, user, seq, version, type, payload, created, expires, delivered,
    purged, -⟩ := h
  constructor
  case id => exact id
  case message_id => exact message_id
  case recipient_device_id => exact device
  case recipient_user_id => exact ⟨_, rfl, user⟩
  case mailbox_seq => exact ⟨_, rfl, seq.symm ▸ isInteger_jsonNumber.mpr ⟨hsafe.1, rfl⟩⟩
  case protocol_version => exact version.symm ▸ isInteger_jsonNumber.mpr ⟨hsafe.2, rfl⟩
  case envelope_type => exact type
  case payload =>
    rw [payload]
    unfold arrivedEnvelope
    dsimp only
    cases (if b then e.payload else none) with
    | none => rfl
    | some bytes => rfl
  case created_at => exact ⟨created, hiso _⟩
  case expires_at => exact ⟨expires, hiso _⟩
  case delivered_at => exact delivered.symm ▸ orNull_time hiso
  case payload_purged_at => exact purged.symm ▸ orNull_time hiso

theorem envelopeEntries_safe {b : Bool} {e : Server.Envelope} {dto : Fields}
    {x : Client.MessageEnvelope} (h : Holds (envelopeFields iso b e) dto)
    (hx : EnvelopeEntries parses dto x) : SafeEnvelope e := by
  simp only [Holds, envelopeFields, List.forall_mem_cons] at h
  obtain ⟨-, -, -, -, seq, version, -⟩ := h
  obtain ⟨n, -, hn⟩ := hx.mailbox_seq
  have hversion := hx.protocol_version
  rw [seq, isInteger_jsonNumber] at hn
  rw [version, isInteger_jsonNumber] at hversion
  exact ⟨hn.1, hversion.1⟩

theorem holds_self {fields : Fields} (hnodup : (fields.map Prod.fst).Nodup) :
    Holds fields fields :=
  holds_of_nodup hnodup fun _ h => h

theorem holds_object {fields dto dto' : Fields}
    (h : some (JsonValue.object dto) = some (JsonValue.object dto')) (hholds : Holds fields dto) :
    Holds fields dto' :=
  JsonValue.object.inj (Option.some.inj h) ▸ hholds

theorem holds_envelope {b : Bool} {e : Server.Envelope} :
    Holds (envelopeFields iso b e) (envelopeFields iso b e) := by
  refine holds_self ?_
  simp only [envelopeFields, List.map_cons, List.map_nil]
  decide

theorem holds_message {b : Bool} {stored : Server.StoredMessage} :
    Holds (messageFields iso b stored) (messageFields iso b stored) := by
  refine holds_self ?_
  simp only [messageFields, List.map_cons, List.map_nil]
  decide

theorem holds_entry {e : Server.MailboxEntry} :
    Holds (envelopeFields iso true e.envelope)
        (envelopeFields iso true e.envelope ++ mailboxFields iso e.message) ∧
      Holds (mailboxFields iso e.message)
        (envelopeFields iso true e.envelope ++ mailboxFields iso e.message) := by
  have hnodup : ((envelopeFields iso true e.envelope ++
      mailboxFields iso e.message).map Prod.fst).Nodup := by
    simp only [envelopeFields, mailboxFields, List.cons_append, List.nil_append, List.map_cons,
      List.map_nil]
    decide
  exact ⟨holds_of_nodup hnodup (List.subset_append_left _ _),
    holds_of_nodup hnodup (List.subset_append_right _ _)⟩

theorem holds_page {page : Server.MailboxPage} :
    Holds (pageFields iso page) (pageFields iso page) := by
  refine holds_self ?_
  simp only [pageFields, List.map_cons, List.map_nil]
  decide

theorem holds_readState {state : Server.ReadState} :
    Holds (readStateFields iso state) (readStateFields iso state) := by
  refine holds_self ?_
  simp only [readStateFields, List.map_cons, List.map_nil]
  decide

theorem holds_chatState {state : Server.ChatState} :
    Holds (chatStateFields iso state) (chatStateFields iso state) := by
  refine holds_self ?_
  simp only [chatStateFields, List.map_cons, List.map_nil]
  decide

theorem holds_statesPage {page : Server.ChatStatesPage} :
    Holds (statesPageFields iso page) (statesPageFields iso page) := by
  refine holds_self ?_
  simp only [statesPageFields, List.map_cons, List.map_nil]
  decide

theorem holds_sentPage {page : Server.SentMessagesPage} :
    Holds (sentPageFields iso page) (sentPageFields iso page) := by
  refine holds_self ?_
  simp only [sentPageFields, List.map_cons, List.map_nil]
  decide

section Responses

variable (hiso : ∀ t, isTimestamp parses (iso t).text = true)

include hiso

theorem isEnvelope_response {b : Bool} {e : Server.Envelope} (hsafe : SafeEnvelope e) :
    IsEnvelope parses (some (envelope_response iso b e)) (arrivedEnvelope iso b e) :=
  ⟨_, rfl, envelopeEntries hiso holds_envelope hsafe⟩

omit hiso in
theorem isEnvelope_safe {b : Bool} {e : Server.Envelope} {x : Client.MessageEnvelope}
    (h : IsEnvelope parses (some (envelope_response iso b e)) x) : SafeEnvelope e := by
  obtain ⟨dto, hdto, hx⟩ := h
  obtain rfl := JsonValue.object.inj (Option.some.inj hdto)
  exact envelopeEntries_safe holds_envelope hx

/-- What `mapSentMessage` makes of a message. -/
def arrivedMessage (iso : Server.Instant → Client.Timestamp) (include_payload : Bool)
    (stored : Server.StoredMessage) : Client.SentMessage :=
  { sentMessage iso stored with
    envelopes := stored.envelopes.map (arrivedEnvelope iso include_payload) }

theorem isSentMessage_response {b : Bool} {stored : Server.StoredMessage}
    (hsafe : SafeStored stored) :
    IsSentMessage parses (some (message_response iso b stored)) (arrivedMessage iso b stored) := by
  have hall := @holds_message iso b stored
  simp only [Holds, messageFields, List.forall_mem_cons] at hall
  obtain ⟨id, chat, seq, user, device, client, created, envelopes, -⟩ := hall
  exact ⟨_, rfl, id, chat, ⟨_, rfl, seq.symm ▸ isPositive_jsonNumber.mpr ⟨hsafe.1, rfl⟩⟩, user,
    device, client, ⟨created, hiso _⟩,
    envelopes.symm ▸ isList_map fun e he => isEnvelope_response hiso (hsafe.2 e he)⟩

omit hiso in
theorem isSentMessage_safe {b : Bool} {stored : Server.StoredMessage} {x : Client.SentMessage}
    (h : IsSentMessage parses (some (message_response iso b stored)) x) : SafeStored stored := by
  obtain ⟨dto, hdto, hx⟩ := h
  have hall := holds_object hdto (@holds_message iso b stored)
  simp only [Holds, messageFields, List.forall_mem_cons] at hall
  obtain ⟨-, -, seq, -, -, -, -, envelopes, -⟩ := hall
  obtain ⟨n, -, hn⟩ := hx.chat_seq
  have henvelopes := hx.envelopes
  rw [seq, isPositive_jsonNumber] at hn
  rw [envelopes] at henvelopes
  exact ⟨hn.1, isList_all (fun _ _ => isEnvelope_safe) henvelopes⟩

theorem isMailboxEnvelope_response {e : Server.MailboxEntry} (hsafe : SafeEntry e) :
    IsMailboxEnvelope parses (some (mailbox_envelope_response iso e)) (mailboxEnvelope iso e) := by
  obtain ⟨henvelope, hmailbox⟩ := @holds_entry iso e
  have hentries := envelopeEntries hiso henvelope hsafe.1
  simp only [Holds, mailboxFields, List.forall_mem_cons] at hmailbox
  obtain ⟨chat, seq, user, device, client, created, -⟩ := hmailbox
  exact ⟨_, rfl, hentries, chat, ⟨_, rfl, seq.symm ▸ isPositive_jsonNumber.mpr ⟨hsafe.2, rfl⟩⟩,
    user, device, client, ⟨created, hiso _⟩, rfl⟩

omit hiso in
theorem isMailboxEnvelope_safe {e : Server.MailboxEntry} {x : Client.MailboxEnvelope}
    (h : IsMailboxEnvelope parses (some (mailbox_envelope_response iso e)) x) : SafeEntry e := by
  obtain ⟨dto, hdto, hx⟩ := h
  have henvelope := holds_object hdto (@holds_entry iso e).1
  have hmailbox := holds_object hdto (@holds_entry iso e).2
  simp only [Holds, mailboxFields, List.forall_mem_cons] at hmailbox
  obtain ⟨-, seq, -⟩ := hmailbox
  obtain ⟨n, -, hn⟩ := hx.chat_seq
  rw [seq, isPositive_jsonNumber] at hn
  exact ⟨envelopeEntries_safe henvelope hx.envelope, hn.1⟩

theorem isMailboxPage_response {page : Server.MailboxPage} (hsafe : SafePage page) :
    IsMailboxPage parses (some (mailbox_response iso page)) (mailboxPage iso page) := by
  have hall := @holds_page iso page
  simp only [Holds, pageFields, List.forall_mem_cons] at hall
  obtain ⟨envelopes, next, more, -⟩ := hall
  exact ⟨_, rfl,
    envelopes.symm ▸ isList_map fun e he => isMailboxEnvelope_response hiso (hsafe.1 e he),
    ⟨_, rfl, next.symm ▸ isInteger_jsonNumber.mpr ⟨hsafe.2, rfl⟩⟩, more⟩

omit hiso in
theorem isMailboxPage_safe {page : Server.MailboxPage} {x : Client.MailboxPage}
    (h : IsMailboxPage parses (some (mailbox_response iso page)) x) : SafePage page := by
  obtain ⟨dto, hdto, hx⟩ := h
  have hall := holds_object hdto (@holds_page iso page)
  simp only [Holds, pageFields, List.forall_mem_cons] at hall
  obtain ⟨envelopes, next, -⟩ := hall
  obtain ⟨n, -, hn⟩ := hx.next_seq
  have henvelopes := hx.envelopes
  rw [next, isInteger_jsonNumber] at hn
  rw [envelopes] at henvelopes
  exact ⟨isList_all (fun _ _ => isMailboxEnvelope_safe) henvelopes, hn.1⟩

theorem isReadCursor_response {state : Server.ReadState} (hsafe : SafeReadState state) :
    IsReadCursor parses (some (read_state_response iso state)) (chatReadCursor iso state) := by
  have hall := @holds_readState iso state
  simp only [Holds, readStateFields, List.forall_mem_cons] at hall
  obtain ⟨chat, user, seq, updated, -⟩ := hall
  have hseq : state.last_read_seq = (state.last_read_seq.toNat : ℤ) := by
    have := hsafe.1
    omega
  refine ⟨_, rfl, chat, user, ⟨state.last_read_seq.toNat, ?_, ?_⟩, updated.symm ▸ orNull_time hiso⟩
  · exact congrArg JsNumber.integer hseq
  · exact ⟨seq.trans (congrArg (fun z => some (jsonNumber z)) hseq), hseq ▸ hsafe.2⟩

omit hiso in
theorem isReadCursor_safe {state : Server.ReadState} {x : Client.ChatReadCursor}
    (h : IsReadCursor parses (some (read_state_response iso state)) x) : SafeReadState state := by
  obtain ⟨dto, hdto, hx⟩ := h
  have hall := holds_object hdto (@holds_readState iso state)
  simp only [Holds, readStateFields, List.forall_mem_cons] at hall
  obtain ⟨-, -, seq, -⟩ := hall
  obtain ⟨n, -, hn⟩ := hx.last_read_seq
  rw [seq] at hn
  obtain ⟨heq, hle⟩ := hn
  have heq' := JsNumber.integer.inj (JsonValue.number.inj (Option.some.inj heq))
  unfold SafeReadState
  omega

theorem isChatState_response {state : Server.ChatState} (hsafe : SafeChatState state) :
    IsObject (StateEntries parses) (some (chat_state_response iso state))
      ⟨state.chat_id, state.last_message_seq, state.read_states.map (chatReadCursor iso)⟩ := by
  have hall := @holds_chatState iso state
  simp only [Holds, chatStateFields, List.forall_mem_cons] at hall
  obtain ⟨chat, seq, states, -⟩ := hall
  exact ⟨_, rfl, chat, seq.symm ▸ isInteger_jsonNumber.mpr ⟨hsafe.1, rfl⟩,
    states.symm ▸ isList_map fun r hr => isReadCursor_response hiso (hsafe.2 r hr)⟩

omit hiso in
theorem isChatState_safe {state : Server.ChatState} {x : Client.ChatStatesEntry}
    (h : IsObject (StateEntries parses) (some (chat_state_response iso state)) x) :
    SafeChatState state := by
  obtain ⟨dto, hdto, hx⟩ := h
  have hall := holds_object hdto (@holds_chatState iso state)
  simp only [Holds, chatStateFields, List.forall_mem_cons] at hall
  obtain ⟨-, seq, states, -⟩ := hall
  have hseq := hx.last_message_seq
  have hstates := hx.read_states
  rw [seq, isInteger_jsonNumber] at hseq
  rw [states] at hstates
  exact ⟨hseq.1, isList_all (fun _ _ => isReadCursor_safe) hstates⟩

theorem isChatStatesPage_response {page : Server.ChatStatesPage}
    (hsafe : ∀ state ∈ page.states, SafeChatState state) :
    IsChatStatesPage parses (some (chat_states_response iso page)) (chatStatesPage iso page) := by
  have hall := @holds_statesPage iso page
  simp only [Holds, statesPageFields, List.forall_mem_cons] at hall
  obtain ⟨states, next, more, -⟩ := hall
  exact ⟨_, rfl, states.symm ▸ isList_map fun s hs => isChatState_response hiso (hsafe s hs),
    next.symm ▸ orNull_string, more⟩

omit hiso in
theorem isChatStatesPage_safe {page : Server.ChatStatesPage} {x : Client.ChatStatesPage}
    (h : IsChatStatesPage parses (some (chat_states_response iso page)) x) :
    ∀ state ∈ page.states, SafeChatState state := by
  obtain ⟨dto, hdto, hx⟩ := h
  have hall := holds_object hdto (@holds_statesPage iso page)
  simp only [Holds, statesPageFields, List.forall_mem_cons] at hall
  obtain ⟨states, -⟩ := hall
  have hstates := hx.states
  rw [states] at hstates
  exact isList_all (fun _ _ => isChatState_safe) hstates

theorem isSentMessagesPage_response {page : Server.SentMessagesPage}
    (hsafe : ∀ stored ∈ page.messages, SafeStored stored) :
    IsSentMessagesPage parses (some (sent_messages_response iso page))
      (sentMessagesPage iso page) := by
  have hall := @holds_sentPage iso page
  simp only [Holds, sentPageFields, List.forall_mem_cons] at hall
  obtain ⟨messages, next, more, -⟩ := hall
  exact ⟨_, rfl, messages.symm ▸ isList_map fun s hs => isSentMessage_response hiso (hsafe s hs),
    next.symm ▸ orNull_string, more⟩

omit hiso in
theorem isSentMessagesPage_safe {page : Server.SentMessagesPage} {x : Client.SentMessagesPage}
    (h : IsSentMessagesPage parses (some (sent_messages_response iso page)) x) :
    ∀ stored ∈ page.messages, SafeStored stored := by
  obtain ⟨dto, hdto, hx⟩ := h
  have hall := holds_object hdto (@holds_sentPage iso page)
  simp only [Holds, sentPageFields, List.forall_mem_cons] at hall
  obtain ⟨messages, -⟩ := hall
  have hmessages := hx.messages
  rw [messages] at hmessages
  exact isList_all (fun _ _ => isSentMessage_safe) hmessages

end Responses

end Arrival

end EndToEnd
end SecureMessenger
