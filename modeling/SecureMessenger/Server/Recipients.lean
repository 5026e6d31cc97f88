import SecureMessenger.Server.Alone

/-!
# Exact recipients

At the instant a send commits, its envelopes go to the active devices of both
members of the chat except the sending one.  A send that runs alone on a fixed
state is accepted exactly when the client has supplied the devices that
`destination_devices` returns.
-/

namespace SecureMessenger
namespace Server

open Lib

/-- The message `m` and its envelopes have gone to the active devices of both
members of the chat, except the sending one. -/
structure Addressed (principal : Principal) (request : SendMessageRequest) (m : Message)
    (envelopes : List Envelope) (other_user_id : UUID) (db : Db) : Prop where
  other : db.otherUserId principal.user_id request.chat_id = some other_user_id
  sender : m.sender_user_id = principal.user_id ∧ m.sender_device_id = principal.device_id
  sender_active : Active db principal.user_id principal.device_id
  peer_active : ∃ id, Active db other_user_id id
  message_id : ∀ e ∈ envelopes, e.message_id = m.id
  devices : ∀ id, id ∈ envelopes.map (·.recipient_device_id) ↔
    id ≠ principal.device_id ∧ (Active db other_user_id id ∨ Active db principal.user_id id)
  nodup : (envelopes.map (·.recipient_device_id)).Nodup
  owner : ∀ e ∈ envelopes, ∃ d ∈ db.devices,
    d.id = e.recipient_device_id ∧ d.user_id = e.recipient_user_id

theorem Accepted.addressed {principal : Principal} {request : SendMessageRequest} {db : Db}
    (a : Accepted principal request db) (hu : a.store.uniqueKeys) :
    Addressed principal request a.message a.envelopes a.other_user_id a.store where
  other := (grows_store a hu).others _ _ _ a.other
  sender := by
    obtain ⟨id, now, hm⟩ := a.message_eq
    rw [hm]
    exact ⟨rfl, rfl⟩
  sender_active := a.sender_active
  peer_active := a.peer_active
  message_id := by
    intro e he
    obtain ⟨b, -, hc⟩ := created_of_mem a.created he
    exact hc.message_id
  devices := by
    intro id
    rw [created_devices a.created, a.mailbox_ids]
    constructor
    · intro hmem
      obtain ⟨⟨id', user_id⟩, hx, rfl⟩ := List.mem_map.mp hmem
      obtain ⟨hne, rfl | rfl, hact⟩ := (a.recipients id' user_id).mp hx
      · exact ⟨hne, Or.inl hact⟩
      · exact ⟨hne, Or.inr hact⟩
    · rintro ⟨hne, hact | hact⟩
      · exact List.mem_map.mpr ⟨(id, _), (a.recipients id _).mpr ⟨hne, Or.inl rfl, hact⟩, rfl⟩
      · exact List.mem_map.mpr ⟨(id, _), (a.recipients id _).mpr ⟨hne, Or.inr rfl, hact⟩, rfl⟩
  nodup := by
    rw [created_devices a.created]
    exact a.mailboxes_nodup
  owner := by
    intro e he
    obtain ⟨b, -, hc⟩ := created_of_mem a.created he
    obtain ⟨-, -, -, d, hd, hid, huser, -⟩ := (a.recipients _ _).mp hc.user
    exact ⟨d, hd, hid.trans hc.device.symm, huser⟩

section Guarantees

variable {sec : Security} {p : Pool Sql Sql.Answer PyError World}

/-- A commit that changes the messages is the commit of a send. -/
theorem addressed_of_commit {w : World} (hi : Inv sec w) {c : Commit} (hc : c ∈ w.history)
    (hchange : c.after.messages ≠ c.before.messages) :
    ∃ principal request m envelopes other_user_id,
      w.op c.tid = some (.send principal request) ∧
      c.after.messages = c.before.messages ++ [m] ∧
      c.after.envelopes = c.before.envelopes ++ envelopes ∧
      Addressed principal request m envelopes other_user_id c.after := by
  obtain ⟨op, hop, heffect, hwf, hwf', -, -⟩ := hi.commits c hc
  obtain ⟨t, before, after⟩ := c
  dsimp only at heffect hchange hwf hwf' hop ⊢
  cases heffect with
  | send a =>
      exact ⟨_, _, a.message, a.envelopes, a.other_user_id, hop, store_messages a,
        store_envelopes a, a.addressed hwf'.unique⟩
  | advance a =>
      exact absurd a.tables.messages hchange
  | _ =>
      exact absurd rfl hchange

/-- **Main result.**  At the instant a message is committed its sender is
active, its peer has an active device, and its envelopes go to the active
devices of both members except the sending one, each once and with its owner.
On a fixed state a new valid send is accepted if and only if the devices it
supplies are those `destination_devices` returns; it is refused with
`DeliveryTargetsChangedError` otherwise, and no row changes. -/
theorem recipients_are_exact
    (hp : System.Reachable (serverSystem sec) (World.Initial sec) p) :
    (∀ c ∈ p.shared.history, c.after.messages ≠ c.before.messages →
      ∃ principal request m envelopes other_user_id,
        p.shared.op c.tid = some (.send principal request) ∧
        c.after.messages = c.before.messages ++ [m] ∧
        c.after.envelopes = c.before.envelopes ++ envelopes ∧
        Addressed principal request m envelopes other_user_id c.after) ∧
    ∀ t w principal request other_user_id supplied, Wf w.db → Calm t w.db w.history id w →
      w.db.otherUserId principal.user_id request.chat_id = some other_user_id →
      validate_envelopes [] request.envelopes = .ok supplied →
      w.db.messageByClientId principal.device_id request.client_message_id = none →
      Active w.db principal.user_id principal.device_id →
      (∃ id, Active w.db other_user_id id) →
      ∃ devices : List Device,
        Alone sec t (destination_devices principal request.chat_id)
          (fun found w' => found = devices ∧ w' = w) (fun _ _ => False) w ∧
        Alone sec t (send principal request)
          (fun r w' =>
            (∀ id, id ∈ supplied.map (·.request.recipient_device_id) ↔
              id ∈ devices.map (·.id)) ∧
            w'.db.messages = w.db.messages ++ [r.message] ∧
            w'.db.envelopes = w.db.envelopes ++ r.envelopes ∧
            Addressed principal request r.message r.envelopes other_user_id w'.db)
          (fun x w' =>
            (¬∀ id, id ∈ supplied.map (·.request.recipient_device_id) ↔
              id ∈ devices.map (·.id)) ∧
            x = .deliveryTargetsChanged ∧ w'.db = w.db) w := by
  refine ⟨fun c hc => addressed_of_commit (reachable_inv hp) hc, ?_⟩
  intro t w principal request other_user_id supplied hw h hother hvalid hnew hsender hpeer
  refine ⟨destinations principal other_user_id w.db,
    alone_destination_devices h hother ⟨rfl, rfl⟩, ?_⟩
  refine alone_send h hw hother hvalid hnew hsender hpeer ?_ ?_
  · intro hsame a w' hu hdb _
    have ho : a.other_user_id = other_user_id := by
      have := a.other
      rw [hother, Option.some.injEq] at this
      exact this.symm
    rw [hdb]
    refine ⟨hsame, store_messages a, store_envelopes a, ?_⟩
    rw [← ho]
    exact a.addressed hu
  · intro hdiff w' hdb
    exact ⟨hdiff, rfl, hdb⟩

/-- Alice has said hello to the only device of Bob. -/
theorem recipients_are_exact_hello :
    ∃ p c, System.Reachable (serverSystem Example.plainSecurity)
        (World.Initial Example.plainSecurity) p ∧ c ∈ p.shared.history ∧
      c.after.messages ≠ c.before.messages ∧
      ∃ principal request m envelopes other_user_id,
        p.shared.op c.tid = some (.send principal request) ∧
        c.after.messages = c.before.messages ++ [m] ∧
        c.after.envelopes = c.before.envelopes ++ envelopes ∧
        Addressed principal request m envelopes other_user_id c.after := by
  obtain ⟨p, hp, -, a, -, -, hhist⟩ := Example.hello_runs
  have hmem : ⟨0, Example.smallDb, a.store⟩ ∈ p.shared.history := by simp [hhist]
  have hne : a.store.messages ≠ Example.smallDb.messages := by simp [store_messages]
  exact ⟨p, _, hp, hmem, hne, (recipients_are_exact hp).1 _ hmem hne⟩

end Guarantees

end Server
end SecureMessenger
