import SecureMessenger.EndToEnd.Sender

/-!
# What has been sent is received

One device has a command recorded as accepted, and other devices synchronize
with the same server afterwards.  The message is on the server, it is the only
one of the command for good, and every device it was addressed to has it.
-/

namespace SecureMessenger
namespace EndToEnd
namespace Acceptance

open Lib
open Client (JsError JsNumber ScopeRef SentMessage OutgoingCommand Stored cursorAt envelopeAt
  scopeKey phoneScope)
open Recovery (world)

section Reception

variable {sec : Server.Security}
  {T : Timeline (Server.serverSystem sec) (Server.World.Initial sec)}
  {iso : Server.Instant → Client.Timestamp} {principal : Server.Principal} {ref : ScopeRef}
  {m n : Nat} {t : Tid} {q : Pool Client.Call Client.Call.Answer JsError Device}

/-- What a device knows once it has synchronized: it has a copy of every
envelope that was there when it began. -/
theorem mirrors_of_synchronized (hprincipal : principal.device_id = ref.scope.deviceId)
    (hsafe : ∀ n, (Server.lastSeq ref.scope.deviceId (world T n).db : ℤ) ≤
      JsNumber.maxSafeInteger)
    (hq : System.Reachable (deviceSystem T iso principal ref) (Device.Initial T ref) q)
    (ht : q.threads t = some (.ret ())) (hop : q.shared.op t = some .synchronize)
    {e : Server.Envelope} (he : e ∈ (world T m).db.envelopes)
    (hdevice : e.recipient_device_id = ref.scope.deviceId) (hm : m ≤ q.shared.began t) :
    ∃ x, envelopeAt ref.scope x.id q.shared.inbox.envelopes = some x ∧
      x.mailbox_seq = .integer e.mailbox_seq ∧
      Mirrors ref.scope.deviceId (world T q.shared.now).db x := by
  have hholds := holds_line ((served T iso principal hprincipal hsafe).reachable hq).2
  have hstep : InStep ref (world T q.shared.now).db q.shared.inbox := hholds.inv.inStep
  have hdone : (q.shared.line T).Done ref t := hholds.safe t _ ht
  have hcaught : (Server.lastSeq ref.scope.deviceId (world T (q.shared.began t)).db : ℤ) ≤
      cursorAt (scopeKey ref.scope) q.shared.inbox := hdone.2 hop
  obtain ⟨e', he', hs⟩ := (served_grows T hm).follows.envelopes e he
  have hbounds := Server.seq_bounds (served_reporting T (q.shared.began t)).inv.wf he'
    (hs.device.trans hdevice)
  rw [hs.seq] at hbounds
  obtain ⟨id, x, hx, hseq⟩ := hstep.complete (e.mailbox_seq : ℤ) (by omega) (by omega)
  obtain rfl := Client.envelopeAt_id hstep.rows hx
  exact ⟨x, hx, hseq, hstep.stored x.id x hx⟩

/-- Two rows of one mailbox with one number are one row, whenever they are
looked at. -/
theorem sameEnvelope_of_seq {e e' : Server.Envelope} (he : e ∈ (world T m).db.envelopes)
    (he' : e' ∈ (world T n).db.envelopes)
    (hdevice : e'.recipient_device_id = e.recipient_device_id)
    (hseq : e'.mailbox_seq = e.mailbox_seq) : Server.SameEnvelope e e' := by
  obtain ⟨f, hf, hs⟩ := (served_grows T (le_max_left m n)).follows.envelopes e he
  obtain ⟨f', hf', hs'⟩ := (served_grows T (le_max_right m n)).follows.envelopes e' he'
  have hunique := (served_reporting T (max m n)).inv.wf.unique
  have hseqs : ((world T (max m n)).db.envelopes.map
      fun e => (e.recipient_device_id, e.mailbox_seq)).Nodup := hunique.2.2.2.2.2.2.2.2.2.2.2.1
  have hsame : f' = f := by
    refine eq_of_key hseqs hf' hf (Prod.ext ?_ ?_)
    · exact hs'.device.trans (hdevice.trans hs.device.symm)
    · exact hs'.seq.trans (hseq.trans hs.seq.symm)
  subst hsame
  exact ⟨hs'.id.symm.trans hs.id, hs'.message_id.symm.trans hs.message_id, hdevice, hseq⟩

/-- There is one message with an identifier, whenever it is looked at. -/
theorem sameMessage_of_id {x y : Server.Message} (hx : x ∈ (world T m).db.messages)
    (hy : y ∈ (world T n).db.messages) (hid : y.id = x.id) : y = x := by
  refine eq_of_key (served_reporting T (max m n)).inv.wf.unique.messages
    (world_messages T (le_max_right m n) y hy) (world_messages T (le_max_left m n) x hx) hid

/-- A command is carried out by one message. -/
theorem sameMessage_of_command {x y : Server.Message} (hx : x ∈ (world T m).db.messages)
    (hy : y ∈ (world T n).db.messages) (hdevice : y.sender_device_id = x.sender_device_id)
    (hclient : y.client_message_id = x.client_message_id) : y = x := by
  refine eq_of_key (served_reporting T (max m n)).inv.wf.unique.clientMessages
    (world_messages T (le_max_right m n) y hy) (world_messages T (le_max_left m n) x hx) ?_
  exact Prod.ext hdevice hclient

/-- The copy a device has of an envelope of the message. -/
structure Received (x : Client.MailboxEnvelope) (e : Server.Envelope)
    (message : Server.Message) : Prop where
  id : x.id = e.id
  message_id : x.message_id = message.id
  chat_id : x.chat_id = message.chat_id
  device : x.recipient_device_id = e.recipient_device_id
  seq : x.mailbox_seq = .integer e.mailbox_seq

/-- **What is recorded as sent is received.**  In every run of a sender next to
every run of the server, a command with an acceptance is on the server as one
message, there is never another one for it, and every device it is addressed to
has the envelope once a synchronization that began later has ended. -/
theorem what_is_recorded_as_sent_is_received
    {p : Pool Client.Outgoing.Call Client.Outgoing.Call.Answer JsError Sender}
    (hp : System.Reachable (senderSystem T iso) (Sender.Initial T) p)
    {r : Stored OutgoingCommand} (hr : r ∈ p.shared.fields.db.outgoing) {a : SentMessage}
    (ha : r.value.accepted = some a) :
    ∃ message ∈ (world T p.shared.now).db.messages,
      (message.id = a.id ∧ message.chat_id = r.value.command.chat_id ∧
        message.client_message_id = r.value.command.client_message_id ∧
        ∀ scope, r.scope = scopeKey scope → message.sender_device_id = scope.deviceId) ∧
      (∀ n, ∀ other ∈ (world T n).db.messages,
        other.sender_device_id = message.sender_device_id →
          other.client_message_id = message.client_message_id → other = message) ∧
      ∀ e ∈ (world T p.shared.now).db.envelopes, e.message_id = message.id →
        ∀ (principal : Server.Principal) (ref : ScopeRef),
          principal.device_id = ref.scope.deviceId →
          e.recipient_device_id = ref.scope.deviceId →
          (∀ n, (Server.lastSeq ref.scope.deviceId (world T n).db : ℤ) ≤
            JsNumber.maxSafeInteger) →
          ∀ q, System.Reachable (deviceSystem T iso principal ref) (Device.Initial T ref) q →
            ∀ t, q.threads t = some (.ret ()) → q.shared.op t = some .synchronize →
              p.shared.now ≤ q.shared.began t →
                ∃ x, envelopeAt ref.scope x.id q.shared.inbox.envelopes = some x ∧
                  Received x e message := by
  obtain ⟨⟨message, hmem, hdescribes⟩, hanswers⟩ := (reachable_sentRows hp).accepted r hr a ha
  refine ⟨message, hmem, ⟨hdescribes.id.symm, ?_, ?_, fun scope hscope => ?_⟩,
    fun n other hother hdevice hclient => sameMessage_of_command hmem hother hdevice hclient, ?_⟩
  · rw [← hdescribes.chat]
    exact hanswers.chat
  · rw [← hdescribes.client]
    exact hanswers.client
  · rw [← hdescribes.device]
    exact hanswers.device scope hscope
  · intro e he hmessage principal ref hprincipal hdevice hsafe q hq t ht hop hbegan
    obtain ⟨x, hx, hseq, entry, hentry, hagrees⟩ :=
      mirrors_of_synchronized hprincipal hsafe hq ht hop he hdevice hbegan
    have hnumber : entry.envelope.mailbox_seq = e.mailbox_seq := by
      rw [hagrees.seq] at hseq
      simpa using hseq
    have hsame := sameEnvelope_of_seq he hentry.envelope (hentry.device.trans hdevice.symm) hnumber
    have hid : entry.message = message := by
      refine sameMessage_of_id hmem hentry.message ?_
      rw [hentry.message_id, hsame.message_id, hmessage]
    refine ⟨x, hx, hagrees.id.trans hsame.id, ?_, ?_, ?_, hseq⟩
    · rw [hagrees.message_id, hsame.message_id, hmessage]
    · rw [hagrees.chat_id, hid]
    · rw [hagrees.device, hsame.device]

end Reception

section FirstMessage

/-! A message from a laptop to the phone. -/

open Server.Example (plainSecurity)
open Recovery (Responds)

def bob : Server.Principal :=
  ⟨"bob", laptopScope.deviceId, "session"⟩

def firstCommand : Client.SendMessageRequest :=
  ⟨"c1", "k1", [⟨phoneScope.deviceId, 0, "PLAINTEXT", "aGk="⟩]⟩

def firstRequest : Server.SendMessageRequest :=
  ⟨"c1", "k1", [⟨phoneScope.deviceId, 0, "PLAINTEXT", "aGk="⟩]⟩

/-- The server before the message. -/
def quietServer : Server.Db :=
  { firstServer with
    mailboxes := [⟨phoneScope.deviceId, 0⟩, ⟨laptopScope.deviceId, 0⟩]
    chats := [⟨"c1", 0, "DIRECT"⟩]
    messages := []
    envelopes := [] }

def quietWorld : Server.World :=
  { firstWorld with
    db := quietServer
    began := fun _ => quietServer }

theorem quietWorld_initial : Server.World.Initial plainSecurity quietWorld := by
  refine ⟨?_, fun _ => ?_, ?_, fun _ _ => trivial, rfl,
    fun _ => ⟨rfl, rfl, rfl, rfl, rfl, rfl, rfl⟩⟩
  · constructor <;> decide
  · unfold Server.Rotation
    decide
  · rintro h (⟨s, hs, -⟩ | ⟨x, hx, -⟩)
    · cases hs
    · cases hx

/-- The server takes the send. -/
theorem send_reaches :
    ∃ p, System.Reaches (Server.serverSystem plainSecurity) (System.idle quietWorld) p ∧
      p.shared.db = firstServer ∧ p.shared.pending 1 = id ∧ p.threads 1 = none ∧
      p.shared.op = Function.update quietWorld.op 0 (some (.send bob firstRequest)) ∧
      p.shared.outcome 0 = some (.ok (.stored ⟨firstMessage, [firstEnvelope]⟩)) ∧
      p.shared.began 0 = quietServer := by
  have hnew : none = quietServer.messageByClientId laptopScope.deviceId "k1" := by decide
  have hother : some "alice" = quietServer.otherUserId "bob" "c1" := by decide
  have hchat : some ⟨"c1", 0, "DIRECT"⟩ = quietServer.chatFor "bob" "c1" := by decide
  have halice : some ⟨"alice", "alice", "secret", "active"⟩ = quietServer.userById "alice" := by
    decide
  have hbob : some ⟨"bob", "bob", "secret", "active"⟩ = quietServer.userById "bob" := by
    decide
  have hphones : [⟨phoneScope.deviceId, "alice", "phone", 0, 0, none⟩] =
      quietServer.activeDevices "alice" := by decide
  have hlaptops : [⟨laptopScope.deviceId, "bob", "laptop", 0, 0, none⟩] =
      quietServer.activeDevices "bob" := by decide
  have hids : [phoneScope.deviceId] =
      (quietServer.mailboxesOf [phoneScope.deviceId]).map (·.device_id) := by decide
  have hmailboxes : [⟨phoneScope.deviceId, 0⟩] =
      (quietServer.mailboxesOf [phoneScope.deviceId]).filter fun mailbox =>
        decide (mailbox.device_id ∈ [phoneScope.deviceId]) := by decide
  have hcalm : Server.Calm 0 quietServer [] id
      (quietWorld.arrive 0 (.send bob firstRequest)) := quietWorld_initial.calm
  have h : System.Reaches (Server.serverSystem plainSecurity) (System.idle quietWorld)
      (System.idle quietWorld) := Relation.ReflTransGen.refl
  have h := h.starts 0 (.send bob firstRequest) rfl rfl
  have h := h.acts 0 rfl (none : Option Server.Message) ⟨hnew, rfl⟩
  have h := h.acts 0 rfl (some "alice") ⟨hother, rfl⟩
  -- the chat is locked
  have h := h.acts 0 rfl _ ⟨hchat, rfl⟩
  have h := h.acts 0 rfl (.ok ()) (.inl ⟨rfl, hcalm.isFree _ _, rfl⟩)
  have hcalm := hcalm.grant (.chat "c1") .update
  have h := h.acts 0 rfl (some ⟨"c1", 0, "DIRECT"⟩)
    ⟨(by decide : _ = (quietServer.chatFor "bob" "c1").filter _), rfl⟩
  have h := h.acts 0 rfl (none : Option Server.Message) ⟨hnew, rfl⟩
  -- the users are locked
  have h := h.acts 0 rfl _ ⟨halice, rfl⟩
  have h := h.acts 0 rfl (.ok ()) (.inl ⟨rfl, hcalm.isFree _ _, rfl⟩)
  have hcalm := hcalm.grant (.user "alice") .share
  have h := h.acts 0 rfl (some ⟨"alice", "alice", "secret", "active"⟩)
    ⟨(by decide : _ = (quietServer.userById "alice").filter _), rfl⟩
  have h := h.acts 0 rfl _ ⟨hbob, rfl⟩
  have h := h.acts 0 rfl (.ok ()) (.inl ⟨rfl, hcalm.isFree _ _, rfl⟩)
  have hcalm := hcalm.grant (.user "bob") .share
  have h := h.acts 0 rfl (some ⟨"bob", "bob", "secret", "active"⟩)
    ⟨(by decide : _ = (quietServer.userById "bob").filter _), rfl⟩
  have h := h.acts 0 rfl _ ⟨hphones, rfl⟩
  have h := h.acts 0 rfl _ ⟨hlaptops, rfl⟩
  -- the mailbox of the phone is locked
  have h := h.acts 0 rfl _ ⟨hids, rfl⟩
  have h := h.acts 0 rfl (.ok ()) (.inl ⟨rfl, hcalm.isFree _ _, rfl⟩)
  have h := h.acts 0 rfl _ ⟨hmailboxes, rfl⟩
  have h := h.acts 0 rfl (0 : Server.Instant) rfl
  have h := h.acts 0 rfl ("m1" : Server.UUID) rfl
  have h := h.acts 0 rfl ("e1" : Server.UUID) rfl
  have h := h.acts 0 rfl () rfl
  have h := h.acts 0 rfl (.ok ()) (.inl ⟨rfl, firstLine_initial.wf.unique, rfl⟩)
  have h := h.acts 0 rfl () rfl
  have h := h.acts 0 rfl () rfl
  have h := h.acts 0 rfl () rfl
  exact ⟨_, h, rfl, rfl, rfl, rfl, rfl, rfl⟩

/-- The server takes the send, then answers the phone and rests. -/
theorem exists_sent :
    ∃ (T : Timeline (Server.serverSystem plainSecurity) (Server.World.Initial plainSecurity))
      (m n : Nat), m ≤ n ∧ Server.HasMailbox phoneScope.deviceId (world T 0).db ∧
      Responds T 0 m (.send bob firstRequest)
        (.stored ⟨firstMessage, [firstEnvelope]⟩) quietServer ∧
      (world T m).db = firstServer ∧
      Responds T m n (.mailbox phone 0 100) (.page firstPage) firstServer ∧
      ∀ k, Server.lastSeq phoneScope.deviceId (world T k).db ≤ 1 := by
  have hidle : System.Reachable (Server.serverSystem plainSecurity)
      (Server.World.Initial plainSecurity) (System.idle quietWorld) := .idle quietWorld_initial
  obtain ⟨p, h, hdb, hpending, ht, hop, hout, hbegan⟩ := send_reaches
  obtain ⟨T, m, -, hfirst, hm⟩ := (Timeline.resting hidle).exists_onto 0 h
  obtain ⟨p', h', hdb', hop', hout', hbegan'⟩ := firstPage_reaches hdb hpending ht
  rw [← hm] at h'
  obtain ⟨T', n, hmn, hsame, hn⟩ := T.exists_onto m h'
  have hw₀ : world T' 0 = quietWorld := by
    unfold world
    rw [hsame 0 (Nat.zero_le m), hfirst 0 le_rfl]
    rfl
  have hwm : world T' m = p.shared :=
    congrArg (·.shared) ((hsame m le_rfl).trans hm)
  have hwn : world T' n = p'.shared := congrArg (·.shared) hn
  -- what the run is like until the page has been answered
  have hupto {k : Nat} (hk : k ≤ n) : world (T'.stopAt n) k = world T' k :=
    congrArg (world T') (Nat.min_eq_left hk)
  have hmailbox : Server.HasMailbox phoneScope.deviceId quietServer := List.mem_cons_self
  refine ⟨T'.stopAt n, m, n, hmn, ?_, ⟨0, ?_, ?_, ?_, ?_⟩, ?_, ⟨1, ?_, ?_, ?_, ?_⟩,
    lastSeq_le_one ?_ ?_⟩
  · rw [hupto (Nat.zero_le n), hw₀]
    exact hmailbox
  · rw [hupto (Nat.zero_le n), hw₀]
    rfl
  · rw [hupto hmn, hwm, hop]
    rfl
  · rw [hupto hmn, hwm, hout]
  · rw [hupto hmn, hwm, hbegan]
  · rw [hupto hmn, hwm, hdb]
  · rw [hupto hmn, hwm, hop]
    rfl
  · rw [hupto le_rfl, hwn, hop']
  · rw [hupto le_rfl, hwn, hout']
  · rw [hupto le_rfl, hwn, hbegan']
  · rw [hw₀]
    exact hmailbox
  · rw [hwn, hdb']

/-- The inbox of the laptop before the message. -/
def quietInbox : Client.Database :=
  { identity := some ⟨laptopScope.deviceId, "laptop", "g1"⟩ }

def laptopRef : ScopeRef :=
  ⟨laptopScope, 0⟩

def laptop : Sender where
  fields := { db := quietInbox, current := some laptopRef }

/-- What the laptop is told of the message. -/
def firstAccepted : SentMessage :=
  arrivedMessage newYear true ⟨firstMessage, [firstEnvelope]⟩

/-- The row of the command. -/
def firstRow (accepted : Option SentMessage) : Stored OutgoingCommand :=
  Client.indexedOutgoing (Client.record (scopeKey laptopScope) "k1"
    ⟨firstCommand, accepted, some "2026-01-01T00:00:00Z"⟩)

def sentInbox : Client.Database :=
  { quietInbox with outgoing := [firstRow none] }

def acceptedInbox : Client.Database :=
  { quietInbox with
    outgoing := Store.put Stored.key (firstRow (some firstAccepted)) sentInbox.outgoing }

theorem putOutgoing_first : Client.putOutgoing laptopScope firstCommand false
    "2026-01-01T00:00:00Z" quietInbox = .ok ((firstRow none).value, sentInbox) :=
  rfl

theorem acceptOutgoing_first : Client.acceptOutgoing laptopScope firstAccepted sentInbox =
    .ok ((firstRow (some firstAccepted)).value, acceptedInbox) := by
  have hvalid : Client.valid laptopScope sentInbox = true := rfl
  have hrow : Client.outgoingAt laptopScope firstAccepted.clientMessageId sentInbox =
      some (firstRow none) := Store.get_put_self (firstRow none) []
  have hsender : ¬(firstAccepted.senderDeviceId ≠ laptopScope.deviceId ∨
      firstAccepted.senderUserId ≠ laptopScope.userId) := by
    rintro (h | h)
    · exact h rfl
    · exact h rfl
  have hput : Client.putOutgoingRow (firstRow (some firstAccepted)) sentInbox =
      .ok acceptedInbox := by
    refine Client.putOutgoingRow_total fun other hother _ => ?_
    rw [List.mem_singleton.mp hother]
    rfl
  unfold Client.acceptOutgoing
  rw [Client.validate_of_valid hvalid]
  simp only [hrow, if_neg hsender]
  exact congrArg (· >>= fun db' => pure (_, db')) hput

theorem sentRows_quietInbox (server : Server.Db) : SentRows server quietInbox := by
  refine ⟨fun r hr => ?_, fun r hr => ?_, fun r hr => ?_, fun r hr => ?_⟩
  all_goals cases hr

variable {T : Timeline (Server.serverSystem plainSecurity) (Server.World.Initial plainSecurity)}

/-- The server goes on for a while. -/
theorem sender_waits
    {p : Pool Client.Outgoing.Call Client.Outgoing.Call.Answer JsError Sender}
    (hp : System.Reachable (senderSystem T newYear) (Sender.Initial T) p) (k : Nat) :
    System.Reachable (senderSystem T newYear) (Sender.Initial T)
      ⟨{ p.shared with now := p.shared.now + k }, p.threads⟩ := by
  induction k with
  | zero => exact hp
  | succ k ih => exact ih.step (.env .server)

/-- The laptop sends the message and stores its acceptance. -/
theorem reachable_sent {m : Nat} (hresponds : Responds T 0 m
      (.send bob firstRequest) (.stored ⟨firstMessage, [firstEnvelope]⟩)
      quietServer) :
    ∃ p : Pool Client.Outgoing.Call Client.Outgoing.Call.Answer JsError Sender,
      System.Reachable (senderSystem T newYear) (Sender.Initial T) p ∧
        p.threads 0 = some (.ret ()) ∧ p.shared.now = m ∧
          firstRow (some firstAccepted) ∈ p.shared.fields.db.outgoing := by
  have h : System.Reachable (senderSystem T newYear) (Sender.Initial T)
      (System.idle laptop) := .idle ⟨rfl, fun _ => rfl, sentRows_quietInbox _⟩
  have h := h.starts 0 (.sendText "c1" "hi" none "k1") rfl ⟨rfl, trivial⟩
  have h := h.acts 0 rfl (.ok laptopRef) ⟨rfl, rfl⟩
  have h := h.acts 0 rfl () ⟨rfl, rfl⟩
  have h := h.acts 0 rfl (.ok laptopRef) ⟨rfl, rfl⟩
  have h := h.acts 0 rfl (.ok [⟨phoneScope.deviceId, 0, some "alice"⟩])
    ⟨_, rfl, fun _ _ => trivial, rfl⟩
  have h := h.acts 0 rfl (.ok firstCommand.envelopes) ⟨_, rfl, fun _ _ => trivial, rfl⟩
  have h := h.acts 0 rfl () ⟨rfl, rfl⟩
  have h := h.acts 0 rfl (.ok (firstRow none).value)
    ⟨_, ⟨_, sentInbox, rfl, .inl (.inl ⟨_, putOutgoing_first, rfl⟩)⟩, fun _ _ => trivial, rfl⟩
  -- the command is shown before it is transmitted
  have h := h.acts 0 rfl true ⟨rfl, rfl⟩
  have h := h.acts 0 rfl (.ok true) ⟨rfl, rfl⟩
  have h := h.acts 0 rfl true ⟨rfl, rfl⟩
  have h := h.acts 0 rfl (.ok "hi") ⟨_, rfl, fun _ _ => trivial, rfl⟩
  have h := h.acts 0 rfl (.ok true) ⟨rfl, rfl⟩
  have h := h.acts 0 rfl () ⟨rfl, rfl⟩
  have h := h.acts 0 rfl (.ok ()) ⟨rfl, rfl⟩
  have h := h.acts 0 rfl () ⟨rfl, rfl⟩
  have h := sender_waits h m
  have haccepts : Accepts T newYear 0 (0 + m) (sendRequest firstCommand) firstAccepted :=
    ⟨bob, ⟨firstMessage, [firstEnvelope]⟩, quietServer, (Nat.zero_add m).symm ▸ hresponds, rfl⟩
  have h := h.acts 0 rfl (.ok firstAccepted)
    ⟨_, rfl, fun a ha => Except.ok.inj ha ▸ haccepts, rfl⟩
  have h := h.acts 0 rfl (.ok (firstRow (some firstAccepted)).value)
    ⟨_, ⟨acceptedInbox, rfl, .inl (.inl ⟨_, acceptOutgoing_first, rfl⟩)⟩,
      fun _ _ => trivial, rfl⟩
  -- it is shown again as accepted
  have h := h.acts 0 rfl true ⟨rfl, rfl⟩
  have h := h.acts 0 rfl (.ok true) ⟨rfl, rfl⟩
  have h := h.acts 0 rfl true ⟨rfl, rfl⟩
  have h := h.acts 0 rfl (.ok "hi") ⟨_, rfl, fun _ _ => trivial, rfl⟩
  have h := h.acts 0 rfl (.ok true) ⟨rfl, rfl⟩
  have h := h.acts 0 rfl () ⟨rfl, rfl⟩
  have h := h.acts 0 rfl () ⟨rfl, rfl⟩
  have h := h.acts 0 rfl () ⟨rfl, rfl⟩
  exact ⟨_, h, rfl, Nat.zero_add m, Store.mem_put_self _ _⟩

/-- The phone receives the message that the laptop has sent. -/
theorem what_is_recorded_as_sent_is_received_first :
    ∃ (T : Timeline (Server.serverSystem plainSecurity) (Server.World.Initial plainSecurity))
        (p : Pool Client.Outgoing.Call Client.Outgoing.Call.Answer JsError Sender)
        (q : Pool Client.Call Client.Call.Answer JsError Device) (x : Client.MailboxEnvelope),
      System.Reachable (senderSystem T newYear) (Sender.Initial T) p ∧
        p.threads 0 = some (.ret ()) ∧
        firstRow (some firstAccepted) ∈ p.shared.fields.db.outgoing ∧
        envelopeAt phoneScope x.id q.shared.inbox.envelopes = some x ∧
          Received x firstEnvelope firstMessage := by
  obtain ⟨T, m, n, hmn, hmailbox, hsent, hdb, hresponds, hlast⟩ := exists_sent
  obtain ⟨p, hp, hdone, hnow, hrow⟩ := reachable_sent hsent
  obtain ⟨q, hq, hret, hop, hbegan⟩ := reachable_caughtUp hmailbox hmn hresponds
  have hsafe : ∀ n, (Server.lastSeq phoneScope.deviceId (world T n).db : ℤ) ≤
      JsNumber.maxSafeInteger := by
    intro n
    have hn := hlast n
    have hmax : (1 : ℤ) ≤ JsNumber.maxSafeInteger := by decide
    omega
  have hworld : (world T p.shared.now).db = firstServer := hnow ▸ hdb
  obtain ⟨message, hmem, -, -, hreceived⟩ :=
    what_is_recorded_as_sent_is_received hp hrow (a := firstAccepted) rfl
  have hmessage : message = firstMessage := by
    rw [hworld] at hmem
    exact List.mem_singleton.mp hmem
  subst hmessage
  have henvelope : firstEnvelope ∈ (world T p.shared.now).db.envelopes := by
    rw [hworld]
    exact List.mem_cons_self
  obtain ⟨x, hx, hrest⟩ := hreceived firstEnvelope henvelope rfl phone phoneRef rfl rfl hsafe q hq 0
    hret hop (hnow.trans hbegan.symm).le
  exact ⟨T, p, q, x, hp, hdone, hrow, hx, hrest⟩

end FirstMessage

end Acceptance
end EndToEnd
end SecureMessenger
