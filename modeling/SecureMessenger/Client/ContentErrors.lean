import SecureMessenger.Client.MessageCodec
import SecureMessenger.Client.MessengerService

/-!
# Content that cannot be decoded

What becomes of the other messages when the codec rejects the payload of one.
A loop over the rows of a page, and the live handler over a batch, give the
caller all the decodable messages exactly when the codec decodes every payload
or none.
-/

namespace SecureMessenger
namespace Client

open Lib

section Loop

variable {α : Type} (codec : ClientEnvelope → Except JsError String)
variable (content : α → Option ClientEnvelope)
variable (decode : α → Except JsError (Option LoadedMessage))

/-- The codec decodes the payload of the row. -/
def Decodable (x : α) : Prop :=
  ∃ c text, content x = some c ∧ codec c = .ok text

/-- The row has a payload which the codec does not decode. -/
def Undecodable (x : α) : Prop :=
  ∃ c e, content x = some c ∧ codec c = .error e

/-- No row is undecodable, or none is decodable. -/
def AllOrNone (rows : List α) : Prop :=
  (∀ x ∈ rows, ¬Undecodable codec content x) ∨ ∀ x ∈ rows, ¬Decodable codec content x

/-- The messages given to the caller include one for each decodable row. -/
def Contained (rows : List α) (given : List LoadedMessage) : Prop :=
  ∀ x ∈ rows, Decodable codec content x → ∃ m ∈ given, decode x = .ok (some m)

/-- A row decodes as its payload does. -/
def Follows (x : α) : Prop :=
  match content x with
  | none => decode x = .ok none
  | some c =>
      match codec c with
      | .ok _ => ∃ m, decode x = .ok (some m)
      | .error e => decode x = .error e

/-- The messages of a result; a failed call gives none. -/
def given (result : Except JsError (List LoadedMessage)) : List LoadedMessage :=
  match result with
  | .ok messages => messages
  | .error _ => []

variable {codec content decode}

theorem Follows.of_decodable {x : α} (h : Follows codec content decode x)
    (hx : Decodable codec content x) : ∃ m, decode x = .ok (some m) := by
  obtain ⟨c, text, hc, ht⟩ := hx
  simpa only [Follows, hc, ht] using h

theorem Follows.of_undecodable {x : α} (h : Follows codec content decode x)
    (hx : Undecodable codec content x) : ∃ e, decode x = .error e := by
  obtain ⟨c, e, hc, he⟩ := hx
  simp only [Follows, hc, he] at h
  exact ⟨e, h⟩

theorem Follows.not_error {x : α} (h : Follows codec content decode x)
    (hx : ¬Undecodable codec content x) : ∃ o, decode x = .ok o := by
  cases hc : content x with
  | none => exact ⟨none, by simpa only [Follows, hc] using h⟩
  | some c =>
      cases ht : codec c with
      | ok text =>
          obtain ⟨m, hm⟩ := h.of_decodable ⟨c, text, hc, ht⟩
          exact ⟨some m, hm⟩
      | error e => exact absurd ⟨c, e, hc, ht⟩ hx

/-- A loop in which every row decodes keeps every message. -/
theorem decodeAll_ok :
    ∀ {rows : List α}, (∀ x ∈ rows, ∃ o, decode x = .ok o) →
      ∃ messages, decodeAll decode rows = .ok messages ∧
        ∀ x ∈ rows, ∀ m, decode x = .ok (some m) → m ∈ messages
  | [], _ => ⟨[], rfl, by simp⟩
  | x :: rest, h => by
      obtain ⟨o, ho⟩ := h x List.mem_cons_self
      have hrest : ∀ y ∈ rest, ∃ o, decode y = .ok o := fun y hy => h y (List.mem_cons_of_mem _ hy)
      obtain ⟨messages, hm, hall⟩ := decodeAll_ok hrest
      have heq : decodeAll decode (x :: rest) = .ok (o.toList ++ messages) := by
        simp only [decodeAll, ho, hm]
        rfl
      refine ⟨o.toList ++ messages, heq, ?_⟩
      intro y hy m hdec
      rcases List.mem_cons.mp hy with rfl | hy
      · rw [ho] at hdec
        cases hdec
        simp
      · exact List.mem_append_right _ (hall y hy m hdec)

/-- A loop with a row that fails gives nothing. -/
theorem decodeAll_error {x : α} {e : JsError} (hx : decode x = .error e) :
    ∀ {rows : List α}, x ∈ rows → ∃ e', decodeAll decode rows = .error e'
  | y :: rest, hmem => by
      cases hy : decode y with
      | error e' => exact ⟨e', by simp only [decodeAll, hy]; rfl⟩
      | ok o =>
          have hrest : x ∈ rest := by
            rcases List.mem_cons.mp hmem with rfl | hrest
            · rw [hy] at hx
              cases hx
            · exact hrest
          obtain ⟨e', he'⟩ := decodeAll_error hx hrest
          exact ⟨e', by simp only [decodeAll, hy, he']; rfl⟩

theorem decodeAll_append (xs ys : List α) :
    decodeAll decode (xs ++ ys) = (do
      let first ← decodeAll decode xs
      let second ← decodeAll decode ys
      return first ++ second) := by
  induction xs with
  | nil =>
      cases h : decodeAll decode ys <;> simp only [List.nil_append, h] <;> rfl
  | cons x rest ih =>
      cases hx : decode x with
      | error e => simp only [List.cons_append, decodeAll, hx]; rfl
      | ok o =>
          cases hr : decodeAll decode rest with
          | error e =>
              simp only [List.cons_append, decodeAll, hx, ih, hr]
              rfl
          | ok first =>
              cases hs : decodeAll decode ys with
              | error e =>
                  simp only [List.cons_append, decodeAll, hx, ih, hr, hs]
                  rfl
              | ok second =>
                  simp only [List.cons_append, decodeAll, hx, ih, hr, hs]
                  simp [bind, Except.bind, pure, Except.pure]

/-- **What a loop gives.**  It keeps the decodable messages exactly when the
codec decodes all the payloads or none of them. -/
theorem contained_given_iff {rows : List α} (h : ∀ x ∈ rows, Follows codec content decode x) :
    Contained codec content decode rows (given (decodeAll decode rows)) ↔
      AllOrNone codec content rows := by
  constructor
  · intro hcon
    by_cases hbad : ∃ x ∈ rows, Undecodable codec content x
    · obtain ⟨x, hx, hun⟩ := hbad
      obtain ⟨e, he⟩ := (h x hx).of_undecodable hun
      obtain ⟨e', he'⟩ := decodeAll_error he hx
      right
      intro y hy hdec
      obtain ⟨m, hm, _⟩ := hcon y hy hdec
      simp [given, he'] at hm
    · left
      intro x hx hun
      exact hbad ⟨x, hx, hun⟩
  · rintro (hall | hnone)
    · obtain ⟨messages, hm, hmem⟩ :=
        decodeAll_ok fun x hx => (h x hx).not_error (hall x hx)
      intro x hx hdec
      obtain ⟨m, hxm⟩ := (h x hx).of_decodable hdec
      exact ⟨m, by simpa only [given, hm] using hmem x hx m hxm, hxm⟩
    · intro x hx hdec
      exact absurd hdec (hnone x hx)

/-- One decodable and one undecodable row: a message is missing. -/
theorem not_contained_given {rows : List α} (h : ∀ x ∈ rows, Follows codec content decode x)
    {x y : α} (hx : x ∈ rows) (hdec : Decodable codec content x)
    (hy : y ∈ rows) (hun : Undecodable codec content y) :
    ¬ Contained codec content decode rows (given (decodeAll decode rows)) := by
  intro hcon
  rcases (contained_given_iff h).mp hcon with hall | hnone
  · exact hall y hy hun
  · exact hnone x hx hdec

end Loop

section Service

variable {a : ServiceAnswers} {sync : SyncAnswers} {scope : ScopeRef}

/-- The calls of the sync manager answer within one session, and the inbox
reads succeed. -/
structure OneSession (a : ServiceAnswers) (sync : SyncAnswers) (scope : ScopeRef) : Prop where
  manager : a.sync = some sync
  started : sync.scope = .ok scope
  scopeAt : ∀ read, sync.scopeAt read = .ok scope
  metadata : ∀ id, ∃ sent, sync.sentMetadata scope.scope id = .ok sent
  active : ∀ read, a.active read = true

theorem OneSession.sameSession (h : OneSession a sync scope) (read : ScopeRead) :
    sync.sameSession scope read = .ok () := by
  simp only [SyncAnswers.sameSession, h.scopeAt]
  simp [bind, Except.bind, pure, Except.pure]

theorem OneSession.follows_envelope (h : OneSession a sync scope) (envelope : MailboxEnvelope) :
    Follows a.codec envelopeContent (decodeEnvelope a) envelope := by
  unfold Follows decodeEnvelope
  cases envelopeContent envelope with
  | none => rfl
  | some c =>
      obtain ⟨sent, hsent⟩ := h.metadata envelope.message_id
      cases ht : a.codec c with
      | error e => simp only [ht]; rfl
      | ok text =>
          simp only [ht, h.manager, h.scopeAt, bind, Except.bind]
          split
          · rw [hsent]
            exact ⟨_, rfl⟩
          · exact ⟨_, rfl⟩

theorem OneSession.follows_outgoing (h : OneSession a sync scope) (outgoing : OutgoingCommand) :
    Follows a.codec commandContent (decodeOutgoing a) outgoing := by
  unfold Follows decodeOutgoing
  cases commandContent outgoing with
  | none => rfl
  | some c =>
      simp only [h.manager, h.scopeAt, bind, Except.bind]
      cases a.codec c with
      | error e => rfl
      | ok text => exact ⟨_, rfl⟩

/-- Without a sync manager every envelope decodes as its payload does. -/
theorem follows_of_no_sync (h : a.sync = none) (envelope : MailboxEnvelope) :
    Follows a.codec envelopeContent (decodeEnvelope a) envelope := by
  unfold Follows decodeEnvelope
  cases envelopeContent envelope with
  | none => rfl
  | some c =>
      cases ht : a.codec c with
      | error e => simp only [ht]; rfl
      | ok text =>
          simp only [ht, h]
          exact ⟨_, rfl⟩

/-- The rows of a page of the history. -/
def historyRows (page : ChatHistoryPage) : List (MailboxEnvelope ⊕ OutgoingCommand) :=
  page.envelopes.map .inl ++ page.outgoing.map .inr

def rowContent : MailboxEnvelope ⊕ OutgoingCommand → Option ClientEnvelope :=
  Sum.elim envelopeContent commandContent

def decodeRow (a : ServiceAnswers) :
    MailboxEnvelope ⊕ OutgoingCommand → Except JsError (Option LoadedMessage) :=
  Sum.elim (decodeEnvelope a) (decodeOutgoing a)

theorem decodeAll_map {α β : Type} (f : β → α)
    (decode : α → Except JsError (Option LoadedMessage)) (xs : List β) :
    decodeAll decode (xs.map f) = decodeAll (decode ∘ f) xs := by
  induction xs with
  | nil => rfl
  | cons x rest ih => simp only [List.map_cons, decodeAll, Function.comp_apply, ih]

/-- The two loops of `decodeSnapshot` are one over the rows. -/
theorem decodeSnapshot_rows (page : ChatHistoryPage) :
    decodeSnapshot a page.envelopes page.outgoing false =
      decodeAll (decodeRow a) (historyRows page) := by
  rw [historyRows, decodeAll_append, decodeAll_map, decodeAll_map]
  rfl

theorem decodeSnapshot_visible (envelopes : List MailboxEnvelope) :
    decodeSnapshot a envelopes [] true =
      decodeAll (decodeEnvelope a) (envelopes.filter (isVisible a)) := by
  cases h : decodeAll (decodeEnvelope a) (envelopes.filter (isVisible a)) with
  | error e => simp only [decodeSnapshot, if_pos, h]; rfl
  | ok messages =>
      simp only [decodeSnapshot, if_pos, h, decodeAll]
      simp [bind, Except.bind, pure, Except.pure]

theorem loadChatHistory_given (h : OneSession a sync scope) {chatId : String}
    {before : Option ChatHistoryCursor} {page : ChatHistoryPage}
    (hpage : sync.readChatHistory chatId 50 before = .ok page) :
    given ((loadChatHistory a chatId before).map (·.1)) =
      given (decodeAll (decodeRow a) (historyRows page)) := by
  rw [← decodeSnapshot_rows]
  simp only [loadChatHistory, h.manager, h.started, hpage, h.sameSession, bind, Except.bind]
  cases decodeSnapshot a page.envelopes page.outgoing false with
  | error e => rfl
  | ok messages => rfl

/-- The calls that `loadMailbox` awaits before it decodes succeed. -/
structure Synchronized (sync : SyncAnswers) (changes : SyncChanges) : Prop where
  synchronize : sync.synchronize = .ok changes
  recoverSentMetadata : sync.recoverSentMetadata = .ok ()
  synchronizeReads : sync.synchronizeReads = .ok ()
  recoverOutgoing : sync.recoverOutgoing = .ok ()

theorem loadSynchronized_given (h : OneSession a sync scope) {changes : SyncChanges}
    (hs : Synchronized sync changes) :
    given ((loadSynchronized a sync).map (·.messages)) =
      given (decodeAll (decodeEnvelope a) (changes.envelopes.filter (isVisible a))) := by
  rw [← decodeSnapshot_visible]
  simp only [loadSynchronized, h.started, hs.synchronize, hs.recoverSentMetadata,
    hs.synchronizeReads, hs.recoverOutgoing, h.sameSession, bind, Except.bind]
  cases decodeSnapshot a changes.envelopes [] true with
  | error e => rfl
  | ok messages => rfl

/-- The answers lead from the cursor to a last page; the envelopes are those of
all the pages. -/
inductive PagesTo : List (Except JsError MailboxPage) → JsNumber → List MailboxEnvelope → Prop
  | last {page : MailboxPage} {rest : List (Except JsError MailboxPage)} {cursor : JsNumber}
      (h : page.hasMore = false) : PagesTo (.ok page :: rest) cursor page.envelopes
  | next {page : MailboxPage} {rest : List (Except JsError MailboxPage)} {cursor : JsNumber}
      {envelopes : List MailboxEnvelope} (h : page.hasMore = true)
      (hlt : page.nextSeq.le cursor = false) (hrest : PagesTo rest page.nextSeq envelopes) :
      PagesTo (.ok page :: rest) cursor (page.envelopes ++ envelopes)

/-- The pages are decoded as one list would be. -/
theorem loadPages_eq {pages : List (Except JsError MailboxPage)} {cursor : JsNumber}
    {envelopes : List MailboxEnvelope} (h : PagesTo pages cursor envelopes)
    (messages : List LoadedMessage) (before : List MailboxEnvelope) :
    ∃ result, loadPages a pages cursor messages before = some result ∧
      result.map (·.messages) =
        (decodeAll (decodeEnvelope a) envelopes).map fun decoded => messages ++ decoded := by
  induction h generalizing messages before with
  | @last page rest cursor hmore =>
      cases hd : decodeAll (decodeEnvelope a) page.envelopes with
      | error e => exact ⟨.error e, by simp only [loadPages, hd], rfl⟩
      | ok decoded =>
          exact ⟨_, by simp only [loadPages, hd, hmore, Bool.not_false, if_true]; rfl, rfl⟩
  | @next page rest cursor envelopes hmore hlt _ ih =>
      rw [decodeAll_append]
      cases hd : decodeAll (decodeEnvelope a) page.envelopes with
      | error e => exact ⟨.error e, by simp only [loadPages, hd], rfl⟩
      | ok decoded =>
          obtain ⟨result, hres, hmap⟩ := ih (messages ++ decoded) (before ++ page.envelopes)
          refine ⟨result, ?_, ?_⟩
          · simp only [loadPages, hd, hmore, hlt, Bool.not_true, Bool.false_eq_true, if_false]
            exact hres
          · rw [hmap]
            simp only [bind, Except.bind]
            cases decodeAll (decodeEnvelope a) envelopes with
            | error e => rfl
            | ok rest => simp [Except.map, pure, Except.pure]

/-- The messages that the handler of `subscribe` is called with. -/
def noticed (notices : List LiveNotice) : List LoadedMessage :=
  notices.flatMap fun
    | .messages messages => messages
    | .activity _ => []
    | .error _ => []

theorem noticed_publishMessages (h : ∀ read, a.active read = true) (messages : List LoadedMessage) :
    noticed (publishMessages a messages) = messages := by
  cases messages with
  | nil => simp [publishMessages, noticed]
  | cons m rest => simp [publishMessages, noticed, h]

theorem noticed_live (h : OneSession a sync scope) {changes : SyncChanges}
    (hi : sync.ingest = .ok changes) (envelope : MailboxEnvelope) :
    noticed (handleIncomingEnvelope a envelope) =
      given (decodeAll (decodeEnvelope a) (changes.envelopes.filter (isVisible a))) := by
  have hactivity (b : Bool) (ids : List String) :
      noticed (if b then [.activity ids] else []) = [] := by
    cases b <;> rfl
  have happ (xs ys : List LiveNotice) : noticed (xs ++ ys) = noticed xs ++ noticed ys := by
    simp [noticed]
  simp only [handleIncomingEnvelope, h.manager, h.started, hi, h.scopeAt, ne_eq, not_true_eq_false,
    if_false, publishChanges, happ, hactivity, List.nil_append]
  cases decodeAll (decodeEnvelope a) (changes.envelopes.filter (isVisible a)) with
  | error e => simp [reportError, h.active, noticed, given]
  | ok messages =>
      simp only [h.active, Bool.not_true, Bool.false_eq_true, if_false]
      exact noticed_publishMessages h.active messages

/-- **What the service gives.**  A page of the history, a load of the mailbox
(with a sync manager and without) and a live batch give the caller all their
decodable messages exactly when the codec decodes every payload or none; an
envelope that is handled without a sync manager stands for itself. -/
theorem decodable_messages_are_delivered_iff (a : ServiceAnswers) :
    (∀ sync scope, OneSession a sync scope → ∀ chatId before page,
      sync.readChatHistory chatId 50 before = .ok page →
      (Contained a.codec rowContent (decodeRow a) (historyRows page)
          (given ((loadChatHistory a chatId before).map (·.1))) ↔
        AllOrNone a.codec rowContent (historyRows page))) ∧
    (∀ sync scope, OneSession a sync scope → ∀ changes, Synchronized sync changes →
      ∀ afterSeq, ∃ result, loadMailbox a afterSeq = some result ∧
        (Contained a.codec envelopeContent (decodeEnvelope a)
            (changes.envelopes.filter (isVisible a)) (given (result.map (·.messages))) ↔
          AllOrNone a.codec envelopeContent (changes.envelopes.filter (isVisible a)))) ∧
    (a.sync = none → ∀ afterSeq envelopes, PagesTo a.getMailbox afterSeq envelopes →
      ∃ result, loadMailbox a afterSeq = some result ∧
        (Contained a.codec envelopeContent (decodeEnvelope a) envelopes
            (given (result.map (·.messages))) ↔
          AllOrNone a.codec envelopeContent envelopes)) ∧
    (∀ sync scope, OneSession a sync scope → ∀ envelope changes, sync.ingest = .ok changes →
      (Contained a.codec envelopeContent (decodeEnvelope a)
          (changes.envelopes.filter (isVisible a)) (noticed (handleIncomingEnvelope a envelope)) ↔
        AllOrNone a.codec envelopeContent (changes.envelopes.filter (isVisible a)))) ∧
    (a.sync = none → (∀ read, a.active read = true) → ∀ envelope,
      Contained a.codec envelopeContent (decodeEnvelope a) [envelope]
        (noticed (handleIncomingEnvelope a envelope))) := by
  refine ⟨?history, ?synchronized, ?pages, ?live, ?single⟩
  case history =>
    intro sync scope h chatId before page hpage
    rw [loadChatHistory_given h hpage]
    apply contained_given_iff
    rintro (envelope | outgoing) _
    · exact h.follows_envelope envelope
    · exact h.follows_outgoing outgoing
  case synchronized =>
    intro sync scope h changes hs afterSeq
    have hload : loadMailbox a afterSeq = some (loadSynchronized a sync) := by
      simp only [loadMailbox, h.manager]
    refine ⟨_, hload, ?_⟩
    rw [loadSynchronized_given h hs]
    exact contained_given_iff fun envelope _ => h.follows_envelope envelope
  case pages =>
    intro hsync afterSeq envelopes hpages
    obtain ⟨result, hres, hmap⟩ := loadPages_eq (a := a) hpages [] []
    have hload : loadMailbox a afterSeq = some result := by
      simpa only [loadMailbox, hsync] using hres
    refine ⟨result, hload, ?_⟩
    have hgiven : given (result.map (·.messages)) =
        given (decodeAll (decodeEnvelope a) envelopes) := by
      rw [hmap]
      cases decodeAll (decodeEnvelope a) envelopes <;> rfl
    rw [hgiven]
    exact contained_given_iff fun envelope _ => follows_of_no_sync hsync envelope
  case live =>
    intro sync scope h envelope changes hi
    rw [noticed_live h hi envelope]
    exact contained_given_iff fun envelope _ => h.follows_envelope envelope
  case single =>
    intro hsync hactive envelope x hx hdec
    obtain rfl := List.mem_singleton.mp hx
    obtain ⟨m, hm⟩ := (follows_of_no_sync hsync x).of_decodable hdec
    refine ⟨m, ?_, hm⟩
    simp only [handleIncomingEnvelope, hsync, hm, Option.toList, noticed_publishMessages hactive]
    exact List.mem_singleton.mpr rfl

end Service

section Example

/-- An envelope with a given payload, as the server may have stored it. -/
def bobEnvelope (seq : Nat) (payload : String) : MailboxEnvelope where
  id := "e" ++ toString seq
  message_id := "m" ++ toString seq
  recipient_device_id := "alice-phone"
  recipient_user_id := some "alice"
  mailbox_seq := .integer seq
  protocol_version := 0
  envelope_type := "PLAINTEXT"
  payload := some payload
  created_at := "2026-01-01T00:00:00Z"
  expires_at := "2026-01-31T00:00:00Z"
  delivered_at := none
  payload_purged_at := none
  chat_id := "c1"
  chat_seq := some seq
  sender_user_id := "bob"
  sender_device_id := "bob-phone"
  client_message_id := "k" ++ toString seq
  message_created_at := "2026-01-01T00:00:00Z"

def aliceSession : ScopeRef := ⟨⟨"alice", "alice-phone", "g1"⟩, 0⟩

/-- The answers of an inbox that has taken in two envelopes. -/
def inboxOf (envelopes : List MailboxEnvelope) : SyncAnswers where
  scope := .ok aliceSession
  scopeAt _ := .ok aliceSession
  synchronize := .ok ⟨2, envelopes⟩
  recoverSentMetadata := .ok ()
  synchronizeReads := .ok ()
  recoverOutgoing := .ok ()
  ingest := .ok ⟨2, envelopes⟩
  readChatHistory _ _ _ := .ok ⟨envelopes, [], none⟩
  getSentMetadata := none

def answersOf (envelopes : List MailboxEnvelope) : ServiceAnswers where
  codec := decodeIncoming browserTextEncoding
  historyChats _ := none
  getMailbox := []
  active _ := true
  sync := some (inboxOf envelopes)

theorem oneSession_answersOf (envelopes : List MailboxEnvelope) :
    OneSession (answersOf envelopes) (inboxOf envelopes) aliceSession where
  manager := rfl
  started := rfl
  scopeAt _ := rfl
  metadata _ := ⟨none, rfl⟩
  active _ := rfl

/-- Two readable messages are both given. -/
theorem decodable_messages_are_delivered_two :
    Contained (answersOf [bobEnvelope 1 "aGk=", bobEnvelope 2 "eW8="]).codec rowContent
      (decodeRow (answersOf [bobEnvelope 1 "aGk=", bobEnvelope 2 "eW8="]))
      (historyRows ⟨[bobEnvelope 1 "aGk=", bobEnvelope 2 "eW8="], [], none⟩)
      (given ((loadChatHistory (answersOf [bobEnvelope 1 "aGk=", bobEnvelope 2 "eW8="])
        "c1" none).map (·.1))) := by
  refine ((decodable_messages_are_delivered_iff _).1 _ _ (oneSession_answersOf _) "c1" none _
    rfl).mpr (Or.inl ?_)
  have hfirst : decodeIncoming browserTextEncoding ⟨"alice-phone", 0, "PLAINTEXT", "aGk="⟩ =
      .ok "hi" := by decide
  have hsecond : decodeIncoming browserTextEncoding ⟨"alice-phone", 0, "PLAINTEXT", "eW8="⟩ =
      .ok "yo" := by decide
  intro row hrow
  simp only [historyRows, List.map_cons, List.map_nil, List.append_nil, List.mem_cons,
    List.not_mem_nil, or_false] at hrow
  rintro ⟨c, e, hc, he⟩
  rcases hrow with rfl | rfl
  · obtain rfl : _ = c := Option.some.inj hc
    exact absurd (hfirst.symm.trans he) (by simp)
  · obtain rfl : _ = c := Option.some.inj hc
    exact absurd (hsecond.symm.trans he) (by simp)

/-- One payload that is not valid UTF-8 keeps the message before it from the
history, the mailbox and the live handler. -/
theorem undecodable_payload_hides_the_batch :
    let envelopes := [bobEnvelope 1 "aGk=", bobEnvelope 2 "/w=="]
    let a := answersOf envelopes
    ¬ Contained a.codec rowContent (decodeRow a) (historyRows ⟨envelopes, [], none⟩)
        (given ((loadChatHistory a "c1" none).map (·.1))) ∧
      (∃ result, loadMailbox a (.integer 0) = some result ∧
        ¬ Contained a.codec envelopeContent (decodeEnvelope a) envelopes
          (given (result.map (·.messages)))) ∧
      ¬ Contained a.codec envelopeContent (decodeEnvelope a) envelopes
        (noticed (handleIncomingEnvelope a (bobEnvelope 2 "/w=="))) := by
  intro envelopes a
  have hgood : decodeIncoming browserTextEncoding ⟨"alice-phone", 0, "PLAINTEXT", "aGk="⟩ =
      .ok "hi" := by decide
  have hbad : decodeIncoming browserTextEncoding ⟨"alice-phone", 0, "PLAINTEXT", "/w=="⟩ =
      .error (.error "The message payload is not valid UTF-8 plaintext.") := by decide
  have hh := oneSession_answersOf envelopes
  have hdec : Decodable a.codec envelopeContent (bobEnvelope 1 "aGk=") := ⟨_, _, rfl, hgood⟩
  have hun : Undecodable a.codec envelopeContent (bobEnvelope 2 "/w==") := ⟨_, _, rfl, hbad⟩
  have hlost : ¬ Contained a.codec envelopeContent (decodeEnvelope a) envelopes
      (given (decodeAll (decodeEnvelope a) envelopes)) :=
    not_contained_given (fun envelope _ => hh.follows_envelope envelope)
      (by simp [envelopes]) hdec (by simp [envelopes]) hun
  refine ⟨?history, ⟨loadSynchronized a (inboxOf envelopes), rfl, ?mailbox⟩, ?live⟩
  case history =>
    rw [loadChatHistory_given hh rfl]
    refine not_contained_given (x := .inl (bobEnvelope 1 "aGk="))
      (y := .inl (bobEnvelope 2 "/w==")) ?_ (by simp [historyRows, envelopes]) hdec
      (by simp [historyRows, envelopes]) hun
    rintro (envelope | outgoing) _
    · exact hh.follows_envelope envelope
    · exact hh.follows_outgoing outgoing
  case mailbox =>
    have hs : Synchronized (inboxOf envelopes) ⟨2, envelopes⟩ := ⟨rfl, rfl, rfl, rfl⟩
    rw [loadSynchronized_given hh hs]
    exact hlost
  case live =>
    have hi : (inboxOf envelopes).ingest = .ok ⟨2, envelopes⟩ := rfl
    rw [noticed_live hh hi]
    exact hlost

end Example

end Client
end SecureMessenger
