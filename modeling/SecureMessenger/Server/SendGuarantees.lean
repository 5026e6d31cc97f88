import SecureMessenger.Server.Alone

/-!
# Guarantees of sending

What holds of the committed rows in every reachable state of the server,
whatever requests run concurrently: sequences without gaps, and at most one
message per client command.
-/

namespace SecureMessenger
namespace Server

open Lib

section Guarantees

variable {sec : Security} {p : Pool Sql Sql.Answer PyError World}

/-- The commits of the run are all the changes of the database, in order. -/
structure Recorded (w : World) : Prop where
  chain : w.history.IsChain fun c c' => c'.after = c.before
  last : ∀ c ∈ w.history.head?, c.after = w.db

/-- **Main result.**  In every reachable state the mailbox sequences of each
device are `1, ..., last_seq` and the sequences of each chat are
`1, ..., last_message_seq`, each once; and a send that has raised has committed
nothing. -/
theorem sequences_are_gap_free
    (hp : System.Reachable (serverSystem sec) (World.Initial sec) p) :
    (∀ b ∈ p.shared.db.mailboxes,
      (mailboxSeqs b.device_id p.shared.db).Perm (List.range' 1 b.last_seq)) ∧
    (∀ e ∈ p.shared.db.envelopes, ∃ b ∈ p.shared.db.mailboxes,
      b.device_id = e.recipient_device_id) ∧
    (∀ c ∈ p.shared.db.chats,
      (chatSeqs c.id p.shared.db).Perm (List.range' 1 c.last_message_seq)) ∧
    (∀ m ∈ p.shared.db.messages, ∃ c ∈ p.shared.db.chats, c.id = m.chat_id) ∧
    Recorded p.shared ∧
    ∀ t principal request x, p.shared.op t = some (.send principal request) →
      p.shared.outcome t = some (.error x) → ∀ c ∈ p.shared.history, c.tid ≠ t := by
  have hi := reachable_inv hp
  refine ⟨hi.wf.mailbox_seqs, fun e he => ?_, hi.wf.chat_seqs, fun m hm => ?_,
    ⟨hi.chain, hi.last⟩, ?_⟩
  · obtain ⟨b, hb, hid⟩ := List.mem_map.mp (hi.wf.envelope_mailbox e he)
    exact ⟨b, hb, hid⟩
  · obtain ⟨c, hc, hid⟩ := List.mem_map.mp (hi.wf.message_chat m hm)
    exact ⟨c, hc, hid⟩
  · intro t principal request x hop hout c hc htid
    obtain ⟨op, hop', hresult⟩ := hi.outcomes t _ hout
    rw [hop, Option.some.injEq] at hop'
    subst hop'
    have hnone : commitsOf t p.shared = [] := hresult
    have hmem : c ∈ commitsOf t p.shared :=
      List.mem_filter.mpr ⟨hc, decide_eq_true htid⟩
    rw [hnone] at hmem
    cases hmem

/-- After Alice has said hello. -/
theorem sequences_are_gap_free_hello :
    ∃ p, System.Reachable (serverSystem Example.plainSecurity)
        (World.Initial Example.plainSecurity) p ∧ p.shared.db.messages.length = 1 ∧
      ∀ b ∈ p.shared.db.mailboxes,
        (mailboxSeqs b.device_id p.shared.db).Perm (List.range' 1 b.last_seq) := by
  obtain ⟨p, hp, -, a, hdb, -⟩ := Example.hello_runs
  refine ⟨p, hp, ?_, (sequences_are_gap_free hp).1⟩
  rw [hdb, store_messages]
  rfl

/-! ## One message per client command -/

/-- The request of device `d` for the client message `k` has answered with the
stored message. -/
def Replied (w : World) (t : Tid) (device_id client_message_id : UUID) (m : StoredMessage) : Prop :=
  (∃ principal request, w.op t = some (.send principal request) ∧
    principal.device_id = device_id ∧ request.client_message_id = client_message_id ∧
    w.outcome t = some (.ok (.stored m))) ∨
  ∃ principal, w.op t = some (.lookup principal client_message_id) ∧
    principal.device_id = device_id ∧ w.outcome t = some (.ok (.found (some m)))

/-- The commit belongs to a send of device `d` for the client message `k`. -/
def Sends (w : World) (device_id client_message_id : UUID) (c : Commit) : Prop :=
  ∃ principal request, w.op c.tid = some (.send principal request) ∧
    principal.device_id = device_id ∧ request.client_message_id = client_message_id

/-- The commit has changed a sequence counter. -/
def Counts (c : Commit) : Prop :=
  c.after.chats ≠ c.before.chats ∨ c.after.mailboxes ≠ c.before.mailboxes

/-- The commit has created the message. -/
def Creates (device_id client_message_id : UUID) (c : Commit) : Prop :=
  c.before.messageByClientId device_id client_message_id = none ∧
    ∃ m, c.after.messageByClientId device_id client_message_id = some m ∧
      c.after.messages = c.before.messages ++ [m]

theorem Replied.returned {w : World} (hi : Inv sec w) {t : Tid} {device_id client_id : UUID}
    {m : StoredMessage} (h : Replied w t device_id client_id m) :
    Returned device_id client_id m w.db := by
  rcases h with ⟨principal, request, hop, rfl, rfl, hout⟩ | ⟨principal, hop, rfl, hout⟩
  all_goals
    obtain ⟨op, hop', hresult⟩ := hi.outcomes t _ hout
    rw [hop, Option.some.injEq] at hop'
    subst hop'
    exact hresult

/-- One row per device and client message. -/
theorem message_unique {db : Db} (hu : db.uniqueKeys) {m m' : Message} (hm : m ∈ db.messages)
    (hm' : m' ∈ db.messages) (hd : m.sender_device_id = m'.sender_device_id)
    (hk : m.client_message_id = m'.client_message_id) : m = m' :=
  eq_of_key hu.clientMessages hm hm' (by rw [hd, hk])

/-- A stored message is found by its client identifier. -/
theorem messageByClientId_of_mem {db : Db} (hu : db.uniqueKeys) {m : Message}
    (hm : m ∈ db.messages) :
    db.messageByClientId m.sender_device_id m.client_message_id = some m := by
  cases h : db.messageByClientId m.sender_device_id m.client_message_id with
  | none =>
      have := List.find?_eq_none.mp h m hm
      simp at this
  | some m' =>
      have hkey := List.find?_some h
      simp only [decide_eq_true_eq] at hkey
      rw [message_unique hu (List.mem_of_find?_eq_some h) hm hkey.1 hkey.2]

/-- A send changes a counter only when it stores its message. -/
theorem creates_of_counts {w : World} (hi : Inv sec w) {device_id client_id : UUID} {c : Commit}
    (hc : c ∈ w.history) (hs : Sends w device_id client_id c) (hcount : Counts c) :
    Creates device_id client_id c := by
  obtain ⟨principal, request, hop, rfl, rfl⟩ := hs
  obtain ⟨op, hop', heffect, hwf, hwf', -, -⟩ := hi.commits c hc
  rw [hop, Option.some.injEq] at hop'
  subst hop'
  obtain ⟨t, before, after⟩ := c
  dsimp only at heffect hcount hwf hwf' ⊢
  cases heffect with
  | nothing =>
      rcases hcount with h | h
      · exact absurd rfl h
      · exact absurd rfl h
  | purge op db q now =>
      rcases hcount with h | h
      · exact absurd rfl h
      · exact absurd rfl h
  | revoke op db session_id now =>
      rcases hcount with h | h
      · exact absurd rfl h
      · exact absurd rfl h
  | send a =>
      obtain ⟨id, now, hm⟩ := a.message_eq
      have hmem : a.message ∈ a.store.messages := by simp [store_messages]
      have hfound := messageByClientId_of_mem hwf'.unique hmem
      have hdev : a.message.sender_device_id = principal.device_id := by rw [hm]; rfl
      have hkey : a.message.client_message_id = request.client_message_id := by rw [hm]; rfl
      rw [hdev, hkey] at hfound
      refine ⟨?_, a.message, hfound, store_messages a⟩
      cases hold : before.messageByClientId principal.device_id request.client_message_id with
      | none =>
          rfl
      | some m' =>
          -- two rows with one key cannot have been committed
          exfalso
          have hkey' := List.find?_some hold
          simp only [decide_eq_true_eq] at hkey'
          have hn := hwf'.unique.clientMessages
          rw [store_messages, List.map_append, List.nodup_append] at hn
          refine hn.2.2 _ (List.mem_map_of_mem (List.mem_of_find?_eq_some hold))
            (a.message.sender_device_id, a.message.client_message_id) (by simp) ?_
          rw [hkey'.1, hkey'.2, hdev, hkey]

/-- No two commits create one message. -/
theorem creates_once {w : World} (hi : Inv sec w) {device_id client_id : UUID} {c c' : Commit}
    (hc : c ∈ w.history) (hc' : c' ∈ w.history) (h : Creates device_id client_id c)
    (h' : Creates device_id client_id c') : c.tid = c'.tid := by
  -- a message once stored is in all later states
  have later : ∀ {a b : Commit}, Grows b.after a.before → Creates device_id client_id a →
      Creates device_id client_id b → False := by
    rintro a b hg ⟨hnone, -⟩ ⟨-, m, hm, -⟩
    have hkey := List.find?_some hm
    simp only [decide_eq_true_eq] at hkey
    have := List.find?_eq_none.mp hnone m (hg.messages m (List.mem_of_find?_eq_some hm))
    simp [hkey.1, hkey.2] at this
  have hpair : w.history.Pairwise fun a b =>
      Creates device_id client_id a → Creates device_id client_id b → a.tid = b.tid :=
    hi.order.imp fun hg ha hb => (later hg ha hb).elim
  have hflip : w.history.Pairwise (flip fun a b =>
      Creates device_id client_id a → Creates device_id client_id b → a.tid = b.tid) :=
    hi.order.imp fun hg ha hb => (later hg hb ha).elim
  exact hpair.forall_of_forall_of_flip (fun _ _ _ _ => rfl) hflip hc hc' h h'

/-- **Main result.**  At most one message per device and client identifier is
ever stored; every send and every lookup answers with it and its envelopes;
and of the sends only the one that created it has changed a counter. -/
theorem one_message_per_command
    (hp : System.Reachable (serverSystem sec) (World.Initial sec) p)
    (device_id client_message_id : UUID) :
    (∀ m ∈ p.shared.db.messages, ∀ m' ∈ p.shared.db.messages,
      m.sender_device_id = device_id → m.client_message_id = client_message_id →
      m'.sender_device_id = device_id → m'.client_message_id = client_message_id → m = m') ∧
    (∀ t r, Replied p.shared t device_id client_message_id r →
      p.shared.db.messageByClientId device_id client_message_id = some r.message ∧
      (r.envelopes.map (·.id)).Perm (envelopeIds r.message.id p.shared.db)) ∧
    (∀ t t' r r', Replied p.shared t device_id client_message_id r →
      Replied p.shared t' device_id client_message_id r' →
      r.message.id = r'.message.id ∧ (r.envelopes.map (·.id)).Perm (r'.envelopes.map (·.id))) ∧
    (∀ c ∈ p.shared.history, Sends p.shared device_id client_message_id c → Counts c →
      Creates device_id client_message_id c) ∧
    ∀ c ∈ p.shared.history, ∀ c' ∈ p.shared.history, Creates device_id client_message_id c →
      Creates device_id client_message_id c' → c.tid = c'.tid := by
  have hi := reachable_inv hp
  have hreply : ∀ t r, Replied p.shared t device_id client_message_id r →
      p.shared.db.messageByClientId device_id client_message_id = some r.message ∧
      (r.envelopes.map (·.id)).Perm (envelopeIds r.message.id p.shared.db) := by
    intro t r h
    have hret := h.returned hi
    refine ⟨?_, hret.envelopes⟩
    have := messageByClientId_of_mem hi.wf.unique hret.message
    rw [hret.device, hret.client_id] at this
    exact this
  refine ⟨?_, hreply, ?_, ?_, ?_⟩
  · intro m hm m' hm' hd hk hd' hk'
    exact message_unique hi.wf.unique hm hm' (hd.trans hd'.symm) (hk.trans hk'.symm)
  · intro t t' r r' h h'
    obtain ⟨hm, he⟩ := hreply t r h
    obtain ⟨hm', he'⟩ := hreply t' r' h'
    rw [hm, Option.some.injEq] at hm'
    rw [← hm'] at he' ⊢
    exact ⟨rfl, he.trans he'.symm⟩
  · intro c hc hs hcount
    exact creates_of_counts hi hc hs hcount
  · intro c hc c' hc' h h'
    exact creates_once hi hc hc' h h'

theorem one_message_per_command_hello :
    ∃ p r, System.Reachable (serverSystem Example.plainSecurity)
        (World.Initial Example.plainSecurity) p ∧
      Replied p.shared 0 "phone-a" "message-1" r ∧
      p.shared.db.messageByClientId "phone-a" "message-1" = some r.message := by
  obtain ⟨p, hp, hop, a, -, hout, -⟩ := Example.hello_runs
  have hreplied : Replied p.shared 0 "phone-a" "message-1" ⟨a.message, a.envelopes⟩ :=
    Or.inl ⟨_, _, hop, rfl, rfl, hout⟩
  exact ⟨p, _, hp, hreplied, ((one_message_per_command hp _ _).2.1 _ _ hreplied).1⟩

end Guarantees

end Server
end SecureMessenger
