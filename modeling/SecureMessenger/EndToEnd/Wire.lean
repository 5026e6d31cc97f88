import SecureMessenger.Client.Contracts
import SecureMessenger.Server.MessageService

/-!
# Between server and client

`messages/responses.py` turns rows into responses, and `mappers.ts` turns the
received JSON back into client records.  The composition of the two is a
function from rows to client records.  How a `datetime` is written is left to
the parameter `iso`.
-/

namespace SecureMessenger
namespace EndToEnd

open Lib.Base64 (Bytes b64encode)

variable (iso : Server.Instant → Client.Timestamp)

/-- `envelope_response`, then `mapMessageEnvelope`. -/
def messageEnvelope (e : Server.Envelope) : Client.MessageEnvelope where
  id := e.id
  message_id := e.message_id
  recipient_device_id := e.recipient_device_id
  recipient_user_id := some e.recipient_user_id
  mailbox_seq := .integer e.mailbox_seq
  protocol_version := e.protocol_version
  envelope_type := e.envelope_type
  payload := e.payload.map b64encode
  created_at := (iso e.created_at).text
  expires_at := (iso e.expires_at).text
  delivered_at := e.delivered_at.map iso
  payload_purged_at := e.payload_purged_at.map iso

/-- `mailbox_envelope_response`, then `mapMailboxEnvelope`. -/
def mailboxEnvelope (entry : Server.MailboxEntry) : Client.MailboxEnvelope where
  toMessageEnvelope := messageEnvelope iso entry.envelope
  chat_id := entry.message.chat_id
  chat_seq := some entry.message.chat_seq
  sender_user_id := entry.message.sender_user_id
  sender_device_id := entry.message.sender_device_id
  client_message_id := entry.message.client_message_id
  message_created_at := (iso entry.message.created_at).text

/-- `mailbox_response`, then `mapMailboxPage`. -/
def mailboxPage (page : Server.MailboxPage) : Client.MailboxPage where
  envelopes := page.entries.map (mailboxEnvelope iso)
  nextSeq := .integer page.next_seq
  hasMore := page.has_more

/-- `sent_message_response`, then `mapSentMessage`; the payloads are left
out. -/
def sentMessage (stored : Server.StoredMessage) : Client.SentMessage where
  id := stored.message.id
  chatId := stored.message.chat_id
  chatSeq := some stored.message.chat_seq
  senderUserId := stored.message.sender_user_id
  senderDeviceId := stored.message.sender_device_id
  clientMessageId := stored.message.client_message_id
  createdAt := (iso stored.message.created_at).text
  envelopes := stored.envelopes.map fun e => { messageEnvelope iso e with payload := none }

/-- `sent_messages_response`, then `mapSentMessagesPage`. -/
def sentMessagesPage (page : Server.SentMessagesPage) : Client.SentMessagesPage where
  messages := page.messages.map (sentMessage iso)
  nextMessageId := page.next_message_id
  hasMore := page.has_more

/-- `read_state_response`, then `mapChatReadCursor`. -/
def chatReadCursor (state : Server.ReadState) : Client.ChatReadCursor where
  chatId := state.chat_id
  userId := state.user_id
  lastReadSeq := .integer state.last_read_seq
  updatedAt := state.updated_at.map iso

/-- `chat_states_response`, then `mapChatStatesPage`. -/
def chatStatesPage (page : Server.ChatStatesPage) : Client.ChatStatesPage where
  states := page.states.map fun state =>
    ⟨state.chat_id, state.last_message_seq, state.read_states.map (chatReadCursor iso)⟩
  nextChatId := page.next_chat_id
  hasMore := page.has_more

end EndToEnd
end SecureMessenger
