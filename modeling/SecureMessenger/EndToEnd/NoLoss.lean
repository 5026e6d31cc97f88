import SecureMessenger.Client.Prefix
import SecureMessenger.EndToEnd.Wire

/-!
# No acknowledged message is lost

The server forgets the payload of an envelope when the device acknowledges
it.  This file runs the server's transactions against the tabs of one device,
with lost and repeated requests and responses, live envelopes in any order and
crashes at any point, and shows that an acknowledged envelope is in the inbox
of the device with the payload that was sent.
-/

namespace SecureMessenger
namespace EndToEnd

open Lib
open Lib.Base64 (Bytes b64encode)
open Lib.Discipline
open Client (InboxScope Tabs SyncOp Call Request JsError SyncContract Inbox.runs Inbox.aborts
  envelopeAt Rows phoneScope emptyInbox)

/-- The server, the tabs of the device and what is under way between them. -/
structure Delivery where
  server : Server.Db
  tabs : Tabs
  /-- Every version of an envelope row the server has committed. -/
  versions : List Server.Envelope
  /-- The payload with which an envelope was stored by `send`. -/
  original : String → Option Bytes
  /-- Acknowledgments that have left the device. -/
  requested : List String

/-- A transaction that stores new envelopes has committed. -/
def Delivery.afterSend (s : Delivery) (db : Server.Db) (envelopes : List Server.Envelope) :
    Delivery :=
  { s with
    server := db
    versions := db.envelopes ++ s.versions
    original := fun id =>
      match envelopes.find? fun e => decide (e.id = id) with
      | some e => e.payload
      | none => s.original id }

/-- A transaction that updates envelopes in place has committed. -/
def Delivery.afterUpdate (s : Delivery) (db : Server.Db) : Delivery :=
  { s with server := db, versions := db.envelopes ++ s.versions }

section System

variable (scope : InboxScope) (iso : Server.Instant → Client.Timestamp)
  (tabOf : Tid → Nat)

/-- The envelope is a response of the server about some version of a row. -/
def Serves (s : Delivery) (e : Client.MailboxEnvelope) : Prop :=
  ∃ row ∈ s.versions, ∃ message, e = mailboxEnvelope iso ⟨row, message⟩

/-- What the gateway may answer: pages of served envelopes, any receipt. -/
def Answers (s : Delivery) : (g : Request) → g.Reply → Prop
  | .getMailbox _ _ _, page => ∀ e ∈ page.envelopes, Serves iso s e
  | .acknowledgeEnvelope _ _, receipt => ∃ row ∈ s.versions, receipt = messageEnvelope iso row
  | .sendMessage _ _, _ => True
  | .findSentMessage _, _ => True
  | .getDestinationDevices _, _ => True
  | .getSentMessages _ _ _, _ => True
  | .getChatStates _ _, _ => True
  | .advanceReadCursor _ _, _ => True

/-- What leaves with a request. -/
def requests : Request → List String → List String
  | .acknowledgeEnvelope _ id, requested => id :: requested
  | _, requested => requested

/-- The calls of a thread of tab `tabOf t`. -/
def Delivery.exec (t : Tid) : (c : Call) → Delivery → c.Answer → Delivery → Prop
  | .inbox tx, s, r, s' =>
      ∃ db, (Client.Inbox.runs tx s.tabs.inbox r db ∨ Client.Inbox.aborts s.tabs.inbox r db) ∧
        s' = { s with tabs := { s.tabs with inbox := db } }
  | .request g, s, _, s' => s' = { s with requested := requests g s.requested }
  | .response g, s, r, s' => s' = s ∧ ∀ a, r = .ok a → Answers iso s g a
  | .notify _, s, _, s' => s' = s
  | c, s, r, s' =>
      ∃ l, Client.Tab.exec c (s.tabs.tab (tabOf t)) r l ∧
        s' = { s with tabs := { s.tabs with
          tab := Function.update s.tabs.tab (tabOf t) l } }

/-- A committed transaction of the server, or a tab that signs in or out. -/
inductive Delivery.Env (s : Delivery) : Delivery → Prop
  /-- `MessageService.send` stores a message and its envelopes. -/
  | send {chat : Server.Chat} {message : Server.Message}
      {mailboxes : List Server.DeviceMailbox} {envelopes : List Server.Envelope}
      {payload : Server.Envelope → Bytes} {db : Server.Db}
      (hnew : ∀ e ∈ envelopes, e.payload = some (payload e) ∧ e.delivered_at = none)
      (hdb : db = Server.storeMessage chat message mailboxes envelopes s.server)
      (hunique : db.uniqueKeys) :
      Env s (s.afterSend db envelopes)
  /-- An expiry purge, of any kind. -/
  | purge {p : Server.Envelope → Bool} {now : Server.Instant} {db : Server.Db}
      (hdb : db = s.server.updateEnvelopes (fun e => p e && Server.Db.expired now e)
        (Server.Db.purged now)) :
      Env s (s.afterUpdate db)
  /-- The server executes an acknowledgment of the device that has left it, or
  an acknowledgment of another device. -/
  | acknowledge {device_id envelope_id : String} {now : Server.Instant} {db : Server.Db}
      (hrequested : device_id = scope.deviceId → envelope_id ∈ s.requested)
      (hdb : db = s.server.updateEnvelopes
        (fun e => decide (e.id = envelope_id ∧ e.recipient_device_id = device_id))
        (Server.Db.acknowledged now)) :
      Env s (s.afterUpdate db)
  /-- A tab signs in or out. -/
  | signs {tabs : Tabs} (h : Client.Tabs.signs scope s.tabs tabs) :
      Env s { s with tabs := tabs }

/-- The device and the server as one system. -/
def deliverySystem : System Call Call.Answer JsError Delivery SyncOp where
  exec := Delivery.exec iso tabOf
  prog := fun _ op => op.prog
  start := fun _ op s s' => s' = s ∧
    match op with
    | .ingest envelope => Serves iso s envelope
    | _ => True
  stop := fun _ s s' => s' = s
  env := Delivery.Env scope

/-- A run starts with an empty mailbox and an inbox without envelopes of the
scope. -/
structure Delivery.Initial (s : Delivery) : Prop where
  server : s.server.envelopes = []
  versions : s.versions = []
  requested : s.requested = []
  original : ∀ id, s.original id = none
  rows : Rows s.tabs.inbox.envelopes
  stored : ∀ id, envelopeAt scope id s.tabs.inbox.envelopes = none
  tabs : ∀ i ref, (s.tabs.tab i).memory.current = some ref → ref.scope = scope

end System

section Invariant

variable (scope : InboxScope)

/-- The payload is the one sent, or none. -/
def Genuine (s : Delivery) (id : String) (payload : Option String) : Prop :=
  payload = none ∨ ∃ b, s.original id = some b ∧ payload = some (b64encode b)

/-- The inbox holds the envelope with a payload. -/
def HasPayload (s : Delivery) (id : String) : Prop :=
  ∃ x, envelopeAt scope id s.tabs.inbox.envelopes = some x ∧ x.payload ≠ none

/-- The row still has the payload it was sent with, or none. -/
def Known (s : Delivery) (row : Server.Envelope) : Prop :=
  ∃ b, s.original row.id = some b ∧ (row.payload = none ∨ row.payload = some b)

/-- The invariant of the system. -/
structure Delivery.Inv (s : Delivery) : Prop where
  rows : Rows s.tabs.inbox.envelopes
  stored : ∀ id x, envelopeAt scope id s.tabs.inbox.envelopes = some x →
    Genuine s id x.payload
  versions : ∀ v ∈ s.versions, Known s v
  current : ∀ e ∈ s.server.envelopes, Known s e
  origin : ∀ id b, s.original id = some b → ∃ e ∈ s.server.envelopes, e.id = id
  requested : ∀ id ∈ s.requested, HasPayload scope s id
  delivered : ∀ e ∈ s.server.envelopes, e.recipient_device_id = scope.deviceId →
    e.delivered_at ≠ none → e.id ∈ s.requested
  tabs : ∀ i ref, (s.tabs.tab i).memory.current = some ref → ref.scope = scope

/-- What only grows: the sent payloads, the stored payloads, the versions. -/
structure Delivery.Grows (s s' : Delivery) : Prop where
  original : ∀ id b, s.original id = some b → s'.original id = some b
  payload : ∀ id, HasPayload scope s id → HasPayload scope s' id
  versions : ∀ v ∈ s.versions, v ∈ s'.versions

def deliveryDiscipline : Discipline Delivery where
  inv := Delivery.Inv scope
  grow := Delivery.Grows scope
  own := fun _ _ _ => True
  grow_refl := fun _ => ⟨fun _ _ h => h, fun _ h => h, fun _ h => h⟩
  grow_trans := fun h₁ h₂ => ⟨fun id b h => h₂.original id b (h₁.original id b h),
    fun id h => h₂.payload id (h₁.payload id h), fun v h => h₂.versions v (h₁.versions v h)⟩
  own_refl := fun _ _ => trivial
  own_trans := fun _ _ => trivial

end Invariant

variable {scope : InboxScope} {iso : Server.Instant → Client.Timestamp} {tabOf : Tid → Nat}

theorem Genuine.grow {s s' : Delivery} {id : String} {payload : Option String}
    (h : Genuine s id payload) (hg : Delivery.Grows scope s s') : Genuine s' id payload := by
  rcases h with h | ⟨b, hb, h⟩
  · exact Or.inl h
  · exact Or.inr ⟨b, hg.original id b hb, h⟩

theorem Delivery.Inv.serves {s : Delivery} {e : Client.MailboxEnvelope}
    (h : Delivery.Inv scope s) (he : Serves iso s e) : Genuine s e.id e.payload := by
  obtain ⟨row, hrow, message, rfl⟩ := he
  obtain ⟨b, hb, hp⟩ := h.versions row hrow
  rcases hp with hp | hp
  · left
    simp [mailboxEnvelope, messageEnvelope, hp]
  · right
    exact ⟨b, hb, by simp [mailboxEnvelope, messageEnvelope, hp]⟩

theorem Delivery.Initial.inv {s : Delivery} (h : Delivery.Initial scope s) :
    Delivery.Inv scope s where
  rows := h.rows
  stored := by
    intro id x hx
    simp [h.stored] at hx
  versions := by simp [h.versions]
  current := by simp [h.server]
  origin := by simp [h.original]
  requested := by simp [h.requested]
  delivered := by simp [h.server]
  tabs := h.tabs

section Steps

variable {s : Delivery} {t : Tid}

/-- A step that changes only the memory of tabs. -/
theorem keeps_tabs (hi : Delivery.Inv scope s) {tab : Nat → Client.Tab}
    (htab : ∀ i ref, (tab i).memory.current = some ref → ref.scope = scope) :
    (deliveryDiscipline scope).Keeps t s { s with tabs := { s.tabs with tab := tab } } where
  inv := ⟨hi.rows, hi.stored, hi.versions, hi.current, hi.origin, hi.requested,
    hi.delivered, htab⟩
  grow := ⟨fun _ _ h => h, fun _ h => h, fun _ h => h⟩
  own := fun _ _ => trivial

theorem current_update (hi : Delivery.Inv scope s) {i : Nat} {l : Client.Tab}
    (hl : ∀ ref, l.memory.current = some ref → ref.scope = scope) :
    ∀ j ref, (Function.update s.tabs.tab i l j).memory.current = some ref →
      ref.scope = scope := by
  intro j ref hj
  by_cases hji : j = i
  · subst hji
    simp only [Function.update_self] at hj
    exact hl ref hj
  · simp only [Function.update_of_ne hji] at hj
    exact hi.tabs j ref hj

/-- A step that changes the inbox, with genuine payloads and without losing
one. -/
theorem keeps_database (hi : Delivery.Inv scope s) {db : Client.Database}
    (hrows : Rows db.envelopes)
    (hstored : ∀ id x, envelopeAt scope id db.envelopes = some x → Genuine s id x.payload)
    (hpayload : ∀ id, HasPayload scope s id →
      ∃ x, envelopeAt scope id db.envelopes = some x ∧ x.payload ≠ none) :
    (deliveryDiscipline scope).Keeps t s { s with tabs := { s.tabs with inbox := db } } where
  inv := ⟨hrows, hstored, hi.versions, hi.current, hi.origin,
    fun id hid => hpayload id (hi.requested id hid), hi.delivered, hi.tabs⟩
  grow := ⟨fun _ _ h => h, hpayload, fun _ h => h⟩
  own := fun _ _ => trivial

/-- A transaction that leaves the envelopes alone. -/
theorem keeps_reading {α : Type} {tx : Client.Transaction α} {r : Except JsError α}
    {s' : Delivery} (hi : Delivery.Inv scope s)
    (htx : ∀ a db, tx s.tabs.inbox = .ok (a, db) → db.envelopes = s.tabs.inbox.envelopes)
    (hx : Delivery.exec iso tabOf t (.inbox tx) s r s') :
    (deliveryDiscipline scope).Keeps t s s' := by
  obtain ⟨db, hrun, rfl⟩ := hx
  have hsame : db.envelopes = s.tabs.inbox.envelopes := by
    rcases hrun with (⟨a, ha, -⟩ | ⟨x, -, -, rfl⟩) | ⟨-, rfl⟩
    · exact htx a db ha
    · rfl
    · rfl
  refine keeps_database hi ?_ ?_ ?_
  · rw [hsame]
    exact hi.rows
  · rw [hsame]
    exact hi.stored
  · rw [hsame]
    exact fun id h => h

theorem payload_mergeEnvelope (existing : Option Client.MailboxEnvelope)
    (e : Client.MailboxEnvelope) (l : List Client.EnvelopeProperty) :
    ((Client.mergeEnvelope existing e).arrange l).payload =
      e.payload.or (existing.bind (·.payload)) :=
  rfl

/-- Committing genuine envelopes. -/
theorem keeps_committing {cursor next : ℤ} {es : List Client.MailboxEnvelope}
    {r : Except JsError (List Client.MailboxEnvelope)} {s' : Delivery}
    (hi : Delivery.Inv scope s) (hes : ∀ e ∈ es, Genuine s e.id e.payload)
    (hx : Delivery.exec iso tabOf t
      (.inbox (Client.commitPage scope cursor es (.integer next))) s r s') :
    (deliveryDiscipline scope).Keeps t s s' := by
  obtain ⟨db, hrun, rfl⟩ := hx
  rcases hrun with (⟨cs, hok, -⟩ | ⟨x, -, -, rfl⟩) | ⟨-, rfl⟩
  · obtain ⟨hc, -⟩ := Client.commitPage_ok hok
    have hrows : Rows db.envelopes := by
      rw [hc.envelopes']
      exact Client.rows_foldl hi.rows
    refine keeps_database hi hrows ?_ ?_
    · rw [hc.envelopes']
      refine Client.envelopeAt_foldl_forall (fun id e => Genuine s id e.payload) hi.stored ?_
      intro e he existing l hexisting
      rw [payload_mergeEnvelope]
      cases hp : e.payload with
      | some text =>
          rw [Option.some_or, ← hp]
          exact hes e he
      | none =>
          cases existing with
          | none => exact Or.inl rfl
          | some y => exact hexisting y rfl
    · rintro id ⟨x, hx, hne⟩
      rw [hc.envelopes']
      refine Client.envelopeAt_foldl_keeps ⟨x, hx, hne⟩ fun e _ y _ _ hy => ?_
      rw [payload_mergeEnvelope]
      cases he : e.payload with
      | some text => simp
      | none => simpa using hy
  · exact keeps_database hi hi.rows hi.stored fun id h => h
  · exact keeps_database hi hi.rows hi.stored fun id h => h

end Steps

section Server

variable {s : Delivery} {t : Tid}

/-- A transaction of the server that changes rows in place and brings no new
payload. -/
theorem keeps_update (hi : Delivery.Inv scope s) {f : Server.Envelope → Server.Envelope}
    (hid : ∀ e, (f e).id = e.id)
    (hdevice : ∀ e, (f e).recipient_device_id = e.recipient_device_id)
    (hpayload : ∀ e, (f e).payload = none ∨ (f e).payload = e.payload)
    (hdelivered : ∀ e ∈ s.server.envelopes, e.recipient_device_id = scope.deviceId →
      (f e).delivered_at ≠ none → e.delivered_at ≠ none ∨ e.id ∈ s.requested)
    {db : Server.Db} (hdb : db.envelopes = s.server.envelopes.map f) :
    (deliveryDiscipline scope).Keeps t s (s.afterUpdate db) := by
  have hknown : ∀ e ∈ db.envelopes, Known s e := by
    intro e he
    rw [hdb, List.mem_map] at he
    obtain ⟨e', he', rfl⟩ := he
    obtain ⟨b, hb, hp⟩ := hi.current e' he'
    refine ⟨b, by rw [hid]; exact hb, ?_⟩
    rcases hpayload e' with h | h
    · exact Or.inl h
    · rw [h]
      exact hp
  constructor
  · refine ⟨hi.rows, hi.stored, ?_, hknown, ?_, hi.requested, ?_, hi.tabs⟩
    · intro v hv
      rcases List.mem_append.mp hv with hv | hv
      · exact hknown v hv
      · exact hi.versions v hv
    · intro id b hb
      obtain ⟨e, he, rfl⟩ := hi.origin id b hb
      refine ⟨f e, ?_, hid e⟩
      simp only [Delivery.afterUpdate, hdb]
      exact List.mem_map_of_mem he
    · intro e he hdev hdel
      simp only [Delivery.afterUpdate, hdb, List.mem_map] at he
      obtain ⟨e', he', rfl⟩ := he
      rw [hdevice] at hdev
      rw [hid]
      rcases hdelivered e' he' hdev hdel with h | h
      · exact hi.delivered e' he' hdev h
      · exact h
  · exact ⟨fun _ _ h => h, fun _ h => h, fun v hv => List.mem_append_right _ hv⟩
  · exact fun _ _ => trivial

/-- A send brings new rows with new ids. -/
theorem keeps_send (hi : Delivery.Inv scope s) {envelopes : List Server.Envelope}
    {payload : Server.Envelope → Bytes} {db : Server.Db}
    (hnew : ∀ e ∈ envelopes, e.payload = some (payload e) ∧ e.delivered_at = none)
    (hdb : db.envelopes = s.server.envelopes ++ envelopes)
    (hunique : (db.envelopes.map (·.id)).Nodup) :
    (deliveryDiscipline scope).Keeps t s (s.afterSend db envelopes) := by
  rw [hdb, List.map_append, List.nodup_append] at hunique
  obtain ⟨-, hnodup, hdisjoint⟩ := hunique
  -- ids that have a payload already are not among the new ones
  have hold : ∀ id b, s.original id = some b →
      envelopes.find? (fun e => decide (e.id = id)) = none := by
    intro id b hb
    obtain ⟨e, he, rfl⟩ := hi.origin id b hb
    rw [List.find?_eq_none]
    intro e' he' hid
    exact hdisjoint e.id (List.mem_map_of_mem he) e'.id (List.mem_map_of_mem he')
      (of_decide_eq_true hid).symm
  have hfind : ∀ e ∈ envelopes, envelopes.find? (fun e' => decide (e'.id = e.id)) = some e := by
    intro e he
    cases hf : envelopes.find? (fun e' => decide (e'.id = e.id)) with
    | none =>
        rw [List.find?_eq_none] at hf
        simp at hf
        exact absurd rfl (hf e he)
    | some e' =>
        have hmem := List.mem_of_find?_eq_some hf
        have hid : e'.id = e.id := by simpa using List.find?_some hf
        rw [List.inj_on_of_nodup_map hnodup hmem he hid]
  have hgrow : Delivery.Grows scope s (s.afterSend db envelopes) := by
    refine ⟨fun id b hb => ?_, fun _ h => h, fun v hv => List.mem_append_right _ hv⟩
    simp only [Delivery.afterSend, hold id b hb]
    exact hb
  have hknown : ∀ v, Known s v → Known (s.afterSend db envelopes) v :=
    fun v ⟨b, hb, hp⟩ => ⟨b, hgrow.original v.id b hb, hp⟩
  have hcurrent : ∀ e ∈ db.envelopes, Known (s.afterSend db envelopes) e := by
    intro e he
    rw [hdb] at he
    rcases List.mem_append.mp he with he | he
    · exact hknown e (hi.current e he)
    · exact ⟨payload e, by simp only [Delivery.afterSend, hfind e he]; exact (hnew e he).1,
        Or.inr (hnew e he).1⟩
  constructor
  · refine ⟨hi.rows, fun id x hx => (hi.stored id x hx).grow hgrow, ?_, hcurrent, ?_,
      hi.requested, ?_, hi.tabs⟩
    · intro v hv
      rcases List.mem_append.mp hv with hv | hv
      · exact hcurrent v hv
      · exact hknown v (hi.versions v hv)
    · intro id b hb
      simp only [Delivery.afterSend] at hb ⊢
      rw [hdb]
      cases hf : envelopes.find? (fun e => decide (e.id = id)) with
      | none =>
          rw [hf] at hb
          obtain ⟨e, he, hid⟩ := hi.origin id b hb
          exact ⟨e, List.mem_append_left _ he, hid⟩
      | some e =>
          exact ⟨e, List.mem_append_right _ (List.mem_of_find?_eq_some hf),
            by simpa using List.find?_some hf⟩
    · intro e he hdev hdel
      simp only [Delivery.afterSend, hdb] at he
      rcases List.mem_append.mp he with he | he
      · exact hi.delivered e he hdev hdel
      · exact absurd (hnew e he).2 hdel
  · exact hgrow
  · exact fun _ _ => trivial

theorem keeps_env {s' : Delivery} (hi : Delivery.Inv scope s) (h : Delivery.Env scope s s') :
    (deliveryDiscipline scope).Keeps t s s' := by
  cases h with
  | send hnew hdb hunique =>
      exact keeps_send hi hnew (by rw [hdb]; rfl) hunique.envelopes
  | @purge p now db hdb =>
      refine keeps_update hi ?_ ?_ ?_ ?_ (by rw [hdb]; rfl)
      · intro e
        split_ifs <;> rfl
      · intro e
        split_ifs <;> rfl
      · intro e
        split_ifs
        · exact Or.inl rfl
        · exact Or.inr rfl
      · intro e _ _ hdel
        split_ifs at hdel <;> exact Or.inl hdel
  | @acknowledge device_id envelope_id now db hrequested hdb =>
      refine keeps_update hi ?_ ?_ ?_ ?_ (by rw [hdb]; rfl)
      · intro e
        split_ifs <;> rfl
      · intro e
        split_ifs <;> rfl
      · intro e
        split_ifs
        · exact Or.inl rfl
        · exact Or.inr rfl
      · intro e _ hdev hdel
        split_ifs at hdel with hmatch
        · obtain ⟨rfl, rfl⟩ := of_decide_eq_true hmatch
          exact Or.inr (hrequested hdev)
        · exact Or.inl hdel
  | signs h =>
      obtain ⟨i, ref, href, rfl⟩ := h
      exact keeps_tabs hi (current_update hi fun r hr => href r hr)

end Server

section Operations

variable {s : Delivery} {t : Tid}

/-- The calls of `SyncManager` on the device. -/
def deliveryContract (t : Tid) (ref : Client.ScopeRef) (href : ref.scope = scope) :
    SyncContract (deliveryDiscipline scope) (Delivery.exec iso tabOf) t ref where
  Served := fun e s => Serves iso s e
  Kept := fun e s => Genuine s e.id e.payload ∧ (e.payload ≠ none → HasPayload scope s e.id)
  Answered := fun _ _ _ => True
  Reached := fun _ _ => True
  At := fun _ _ => True
  Tracked := fun _ _ => True
  Failed := fun _ => True
  Covers := fun _ _ => True
  LackAfter := fun _ _ => True
  LackUpTo := fun _ _ => True
  Asked := fun _ _ _ => True
  Calm := fun _ _ => True
  served_grow := by
    rintro e s s' ⟨row, hrow, hmessage⟩ hg
    exact ⟨row, hg.versions row hrow, hmessage⟩
  kept_grow := fun h hg => ⟨h.1.grow hg, fun hne => hg.payload _ (h.2 hne)⟩
  answered_grow := fun _ _ => trivial
  reached_grow := fun _ _ => trivial
  lackAfter_grow := fun _ _ => trivial
  lackUpTo_grow := fun _ _ => trivial
  lackAfter_zero := fun _ => trivial
  calm_drift := fun _ => trivial
  calm_trans := fun _ _ => trivial
  at_calm := fun _ _ => trivial
  tracked_calm := fun _ _ => trivial
  failed_calm := fun _ _ => trivial
  asked_drift := fun _ _ => trivial
  reached_le := fun _ _ _ => trivial
  reached_zero := fun _ => trivial
  on_current := by
    rintro s b s' hi ⟨l, ⟨-, rfl⟩, rfl⟩
    exact ⟨keeps_tabs hi (current_update hi (hi.tabs _)), trivial, fun _ => trivial⟩
  on_transport := by
    rintro s via s' hi ⟨l, rfl, rfl⟩
    exact ⟨keeps_tabs hi (current_update hi (hi.tabs _)), trivial⟩
  on_cursor := by
    intro ch s r s' hi _ hx
    refine ⟨keeps_reading hi (fun a db ha => ?_) hx, trivial,
      fun _ _ => ⟨trivial, trivial, trivial⟩, fun _ _ => trivial⟩
    rw [(Client.readCursor_ok ha).2]
  on_pending := by
    subst href
    intro s r s' hi hx
    refine ⟨keeps_reading hi (fun a db ha => ?_) hx, trivial, fun es hr e he => ?_,
      fun _ _ => trivial⟩
    · rw [(Client.getPendingAcknowledgments_ok hi.rows ha).1]
    · obtain ⟨db, hrun, rfl⟩ := hx
      rcases hrun with (⟨a, ha, rfl⟩ | ⟨x, -, rfl, -⟩) | ⟨⟨x, rfl⟩, -⟩
      · obtain ⟨rfl, hmem⟩ := Client.getPendingAcknowledgments_ok hi.rows ha
        obtain rfl := Except.ok.inj hr
        exact ⟨hi.stored e.id e (hmem e he), fun hne => ⟨e, hmem e he, hne⟩⟩
      · cases hr
      · cases hr
  on_needs := by
    intro s r s' hi hx
    refine ⟨keeps_reading hi (fun a db ha => ?_) hx, trivial, fun _ _ => trivial⟩
    rw [Client.needsSequenceBackfill_ok ha]
  on_finish := by
    intro a b s r s' hi _ _ _ hx
    refine ⟨keeps_reading hi (fun a db ha => ?_) hx, trivial, fun _ _ => trivial⟩
    exact (Client.finishSequenceBackfill_ok ha).2.1
  on_mailbox_request := by
    rintro s via after es r s' hi - - rfl
    exact ⟨Keeps.refl hi, trivial, trivial⟩
  on_mailbox := by
    rintro s via after es r s' hi - - ⟨rfl, hr⟩
    refine ⟨Keeps.refl hi, trivial, fun page hpage => ⟨hr page hpage, ?_, ?_⟩, ?_⟩
    · exact fun _ _ => trivial
    · exact ⟨fun _ _ _ _ _ _ _ => trivial, fun _ _ _ => trivial⟩
    · exact fun _ _ => trivial
  on_ack_request := by
    rintro s via e r s' hi hkept hpayload - rfl
    refine ⟨⟨⟨hi.rows, hi.stored, hi.versions, hi.current, hi.origin, ?_, ?_, hi.tabs⟩,
      ⟨fun _ _ h => h, fun _ h => h, fun _ h => h⟩, fun _ _ => trivial⟩, trivial⟩
    · -- the request leaves only after the payload is in the inbox
      intro id hid
      rcases List.mem_cons.mp hid with rfl | hid
      · exact hkept.2 hpayload
      · exact hi.requested id hid
    · intro e' he' hdev hdel
      exact List.mem_cons_of_mem _ (hi.delivered e' he' hdev hdel)
  on_ack := by
    rintro s via e r s' hi - ⟨rfl, -⟩
    exact ⟨Keeps.refl hi, trivial, fun _ _ => ⟨trivial, fun _ _ => trivial⟩⟩
  on_commit := by
    subst href
    intro ch s cursor es next r s' hi _ _ hcommit hx
    have hes : ∀ e ∈ es, Genuine s e.id e.payload := by
      cases hcommit with
      | page _ _ hserved => exact fun e he => hi.serves (hserved e he)
      | live _ _ hserved =>
          intro e he
          obtain rfl := List.mem_singleton.mp he
          exact hi.serves hserved
      | @receipt _ envelope receipt hkept _ hvalid =>
          intro e he
          obtain rfl := List.mem_singleton.mp he
          have hid := (Client.validateReceipt_ok hvalid).1
          simp only [Client.acknowledgedEnvelope, hid]
          exact hkept.1
    exact ⟨keeps_committing hi hes hx,
      fun _ _ => ⟨trivial, trivial, trivial, fun _ _ _ => trivial⟩,
      fun _ _ => ⟨trivial, trivial⟩⟩
  on_fill := fun _ _ _ _ _ _ _ => trivial
  on_gap := fun _ _ _ _ _ => trivial

theorem deliveryCalls :
    Client.TabCalls (deliveryDiscipline scope) (Delivery.exec iso tabOf) t scope where
  on_scope := by
    rintro s ref s' hi ⟨l, ⟨rfl, rfl⟩, rfl⟩
    exact ⟨keeps_tabs hi (current_update hi (hi.tabs _)), fun r hr => hi.tabs _ r hr⟩
  on_enqueue := by
    rintro s place s' hi ⟨l, ⟨-, rfl⟩, rfl⟩
    exact keeps_tabs hi (current_update hi (hi.tabs _))
  on_turn := by
    rintro s place u s' hi ⟨l, ⟨-, rfl⟩, rfl⟩
    exact keeps_tabs hi (current_update hi (hi.tabs _))
  on_leave := by
    rintro s place u s' hi ⟨l, rfl, rfl⟩
    exact keeps_tabs hi (current_update hi (hi.tabs _))

theorem delivery_respected :
    (deliveryDiscipline scope).Respected (deliverySystem scope iso tabOf) where
  start := by
    rintro t op s s' hi - ⟨rfl, hop⟩
    refine ⟨Keeps.refl hi, deliveryCalls.safe_operation (deliveryContract t)
      (fun _ _ _ => trivial) (fun _ _ _ => trivial) op ?_⟩
    rintro e rfl _ _
    exact hop
  stop := by
    rintro t s s' hi rfl
    exact ⟨Keeps.refl hi, trivial⟩
  env := fun _ _ hi h _ => ⟨keeps_env hi h, trivial⟩

/-- **Main result.**  In every reachable state, every envelope of the device
that the server has marked delivered is in the inbox with the payload `send`
stored for it. -/
theorem acknowledged_message_is_kept {p : Pool Call Call.Answer JsError Delivery}
    (hp : System.Reachable (deliverySystem scope iso tabOf) (Delivery.Initial scope) p) :
    ∀ e ∈ p.shared.server.envelopes, e.recipient_device_id = scope.deviceId →
      e.delivered_at ≠ none →
      ∃ x b, envelopeAt scope e.id p.shared.tabs.inbox.envelopes = some x ∧
        p.shared.original e.id = some b ∧ x.payload = some (b64encode b) := by
  intro e he hdev hdel
  have hi := (Discipline.sound delivery_respected (fun _ h => ⟨h.inv, fun _ => trivial⟩) hp).inv
  obtain ⟨x, hx, hne⟩ := hi.requested e.id (hi.delivered e he hdev hdel)
  rcases hi.stored e.id x hx with h | ⟨b, hb, h⟩
  · exact absurd h hne
  · exact ⟨x, b, hx, hb, h⟩

section FirstMessage

/-! One device, and the first message it receives. -/

def newYear (_ : Server.Instant) : Client.Timestamp :=
  ⟨"2026-01-01T00:00:00Z", by decide⟩

def firstChat : Server.Chat :=
  { id := "c1" }

/-- The inbox of the device that sends it. -/
def laptopScope : Client.InboxScope :=
  ⟨"bob", "3c5d7a40-8c1e-4f6b-9b1d-2f7a5c9e0b22", "g1"⟩

def firstMessage : Server.Message :=
  ⟨"m1", "c1", "bob", laptopScope.deviceId, "k1", 1, 0⟩

def firstEnvelope : Server.Envelope :=
  ⟨"e1", "m1", phoneScope.deviceId, "alice", 1, 0, "PLAINTEXT",
    some [⟨104, by decide⟩, ⟨105, by decide⟩], 0, Server.PAYLOAD_RETENTION, none, none⟩

def firstLive : Client.MailboxEnvelope :=
  mailboxEnvelope newYear ⟨firstEnvelope, firstMessage⟩

/-- The server has no messages, and the tabs of the device are signed in. -/
def firstDelivery : Delivery where
  server := {}
  tabs := ⟨emptyInbox, fun _ => { memory := { current := some ⟨phoneScope, 0⟩ } }⟩
  versions := []
  original := fun _ => none
  requested := []

/-- The inbox after the envelope has been committed. -/
def firstInbox : Client.Database :=
  Client.putCursor (Client.scopeKey phoneScope) 1
    { emptyInbox with envelopes := [firstLive].foldl (Client.storeEnvelope phoneScope) [] }

theorem firstDelivery_initial : Delivery.Initial phoneScope firstDelivery where
  server := rfl
  versions := rfl
  requested := rfl
  original := fun _ => rfl
  rows := Client.rows_nil
  stored := fun _ => rfl
  tabs := by
    rintro i ref h
    obtain rfl := Option.some.inj h
    rfl

theorem commitPage_firstLive :
    ∃ cs, Client.commitPage phoneScope 0 [firstLive] (.integer 1) emptyInbox =
      .ok (cs, firstInbox) := by
  have hcursor : Client.cursorAt (Client.scopeKey phoneScope) emptyInbox = 0 := rfl
  have hdevice : ∀ e ∈ [firstLive], e.recipient_device_id = phoneScope.deviceId := by
    decide
  obtain ⟨⟨cs, db⟩, h⟩ := Client.commitPage_total Client.valid_emptyInbox hcursor
    (zero_le_one' ℤ) rfl hdevice
  have hdb := (Client.commitPage_ok h).1.db_eq
  refine ⟨cs, ?_⟩
  rw [h, hdb]
  rfl

theorem getPendingAcknowledgments_firstInbox :
    Client.getPendingAcknowledgments phoneScope firstInbox = .ok ([firstLive], firstInbox) := by
  have hvalid : Client.valid phoneScope firstInbox = true := by decide
  unfold Client.getPendingAcknowledgments Client.validate
  rw [hvalid]
  rfl

/-- The message is sent, published and committed, and the server executes its
acknowledgment. -/
theorem reachable_acknowledged :
    ∃ p : Pool Call Call.Answer JsError Delivery,
      System.Reachable (deliverySystem phoneScope newYear id) (Delivery.Initial phoneScope) p ∧
        ∃ e ∈ p.shared.server.envelopes, e.id = "e1" ∧
          e.recipient_device_id = phoneScope.deviceId ∧ e.delivered_at ≠ none := by
  have h : System.Reachable (deliverySystem phoneScope newYear id)
      (Delivery.Initial phoneScope) (System.idle firstDelivery) := .idle firstDelivery_initial
  have hsent : Delivery.Env phoneScope firstDelivery (firstDelivery.afterSend
      (Server.storeMessage firstChat firstMessage [] [firstEnvelope] firstDelivery.server)
      [firstEnvelope]) := by
    refine @Delivery.Env.send phoneScope firstDelivery firstChat firstMessage [] [firstEnvelope]
      (fun _ => [104, 105]) _ ?_ rfl (by decide)
    intro e he
    obtain rfl := List.mem_singleton.mp he
    exact ⟨rfl, rfl⟩
  have h := h.step (.env hsent)
  have h := h.starts 0 (.ingest firstLive) rfl ⟨rfl, firstEnvelope, by decide, firstMessage, rfl⟩
  have h := h.acts 0 rfl (some ⟨phoneScope, 0⟩) ⟨_, ⟨rfl, rfl⟩, rfl⟩
  have h := h.acts 0 rfl (0 : Nat) ⟨_, ⟨rfl, rfl⟩, rfl⟩
  have h := h.acts 0 rfl () ⟨_, ⟨fun q hq => absurd hq (Nat.not_lt_zero q), rfl⟩, rfl⟩
  have h := h.acts 0 rfl true ⟨_, ⟨rfl, rfl⟩, rfl⟩
  have h := h.acts 0 rfl (.ok 0) ⟨_, .inl (.inl ⟨_, Client.readCursor_emptyInbox, rfl⟩), rfl⟩
  have h := h.acts 0 rfl true ⟨_, ⟨rfl, rfl⟩, rfl⟩
  obtain ⟨cs, hcommit⟩ := commitPage_firstLive
  have h := h.acts 0 rfl (.ok cs) ⟨_, .inl (.inl ⟨_, hcommit, rfl⟩), rfl⟩
  have h := h.acts 0 rfl Client.Transport.http ⟨_, rfl, rfl⟩
  have h := h.acts 0 rfl (.ok [firstLive])
    ⟨_, .inl (.inl ⟨_, getPendingAcknowledgments_firstInbox, rfl⟩), rfl⟩
  have h := h.acts 0 rfl true ⟨_, ⟨rfl, rfl⟩, rfl⟩
  have h := h.acts 0 rfl () rfl
  -- the acknowledgment has left the device
  have h := h.step (.env (@Delivery.Env.acknowledge _ _ phoneScope.deviceId "e1" 1 _
    (fun _ => List.mem_cons_self) rfl))
  exact ⟨_, h, _, List.mem_cons_self, rfl, rfl, by decide⟩

theorem acknowledged_message_is_kept_first :
    ∃ p : Pool Call Call.Answer JsError Delivery,
      System.Reachable (deliverySystem phoneScope newYear id) (Delivery.Initial phoneScope) p ∧
        ∃ x b, envelopeAt phoneScope "e1" p.shared.tabs.inbox.envelopes = some x ∧
          p.shared.original "e1" = some b ∧ x.payload = some (b64encode b) := by
  obtain ⟨p, hp, e, he, hid, hdevice, hdelivered⟩ := reachable_acknowledged
  refine ⟨p, hp, ?_⟩
  rw [← hid]
  exact acknowledged_message_is_kept hp e he hdevice hdelivered

end FirstMessage

end Operations

end EndToEnd
end SecureMessenger
