import SecureMessenger.Server.Alone
import SecureMessenger.Server.Handlers

/-!
# The two surfaces agree

A command has the same effect on either surface, and the same data or the same
client error, unless it reads the mailbox after a position that no `BIGINT`
holds: the WebSocket schema refuses that position, the HTTP query does not.
-/

namespace SecureMessenger
namespace Server

open Lib

/-- What holds of the rows of every database: the keys, references and
counters, and the reference of a pair to its users. -/
structure Stored (db : Db) : Prop where
  wf : Wf db
  pair_users : ∀ p ∈ db.pairs,
    p.user_low_id ∈ db.users.map (·.id) ∧ p.user_high_id ∈ db.users.map (·.id)

/-! ## The services, left alone -/

section Services

variable {sec : Security} {t : Tid} {db : Db} {past : List Commit} {f : Db → Db} {w : World}
  {principal : Principal}

theorem alone_executeUpdate (h : Calm t db past f w) {p : Envelope → Bool}
    {g : Envelope → Envelope} {Q : Nat → World → Prop} {Z : PyError → World → Prop}
    (hQ : ∀ n q w', Calm t db past (Db.updateEnvelopes q g ∘ f) w' → Q n w') :
    Alone sec t (executeUpdate p g) Q Z w := by
  unfold executeUpdate
  refine Total.bind (alone_query h ?_)
  refine Total.bind (alone_lockAll _ h fun w₁ h₁ _ => ?_)
  refine Total.bind (alone_query h₁ ?_)
  refine Total.bind (alone_write h₁ fun w₂ h₂ => ?_)
  exact .ret (hQ _ _ w₂ h₂)

/-- A page of the mailbox is read. -/
theorem alone_bound_mailbox (h : Calm t db past id w) (hu : db.uniqueKeys) {after_seq limit : Nat}
    (hseq : after_seq < 2 ^ 63) {Z : PyError → World → Prop} :
    Alone sec t (bound_mailbox principal after_seq limit) (fun _ _ => True) Z w := by
  unfold bound_mailbox
  refine Total.bind (alone_now fun now => ?_)
  refine Total.bind (alone_executeUpdate h fun n q w₁ h₁ => ?_)
  unfold bind_bigint
  rw [if_pos hseq]
  refine Total.bind (.ret ?_)
  refine Total.bind (alone_query h₁ ?_)
  refine Total.bind (alone_commit h₁ ?_ fun w₂ h₂ => .ret trivial)
  exact uniqueKeys_updateEnvelopes hu (keepsKeys_purged now) q

/-- The query of the mailbox fails on a position that no `BIGINT` holds. -/
theorem alone_bound_mailbox_fails (h : Calm t db past id w) {after_seq limit : Nat}
    (hseq : 2 ^ 63 ≤ after_seq) :
    Alone sec t (bound_mailbox principal after_seq limit) (fun _ _ => False)
      (fun x _ => x = .database) w := by
  unfold bound_mailbox
  refine Total.bind (alone_now fun now => ?_)
  refine Total.bind (alone_executeUpdate h fun n q w₁ h₁ => ?_)
  unfold bind_bigint
  rw [if_neg (by omega)]
  exact .throw rfl

/-- A delivery is confirmed, or there is no such envelope. -/
theorem alone_acknowledge (h : Calm t db past id w) (hw : Wf db) {envelope_id : UUID} :
    Alone sec t (acknowledge principal envelope_id) (fun _ _ => True)
      (fun x w' => x = .envelopeNotFound ∧ w'.db = db) w := by
  unfold acknowledge acknowledge_envelope
  refine Total.bind (alone_now fun now => Total.bind ?_)
  cases henvelope : db.envelopeFor principal.device_id envelope_id with
  | none =>
      refine Total.bind (alone_selectLocked_none h henvelope ?_)
      exact .ret (.throw ⟨rfl, h.db⟩)
  | some envelope =>
      refine Total.bind (alone_selectLocked h henvelope fun w₁ h₁ _ => ?_)
      refine Total.bind (alone_write h₁ fun w₂ h₂ => ?_)
      refine Total.bind (alone_query h₂ ?_)
      -- the message of an envelope is stored
      have hmem := hw.envelope_message envelope (List.mem_of_find?_eq_some henvelope)
      obtain ⟨m, hm, hid⟩ := List.mem_map.mp hmem
      have hfound : (db.messages.find? fun m => decide (m.id = envelope.message_id)).isSome := by
        rw [List.find?_isSome]
        exact ⟨m, hm, decide_eq_true hid⟩
      obtain ⟨m', hm'⟩ := Option.isSome_iff_exists.mp hfound
      simp only [Function.comp_apply, id_eq, Db.updateEnvelopes, hm', Option.map_some]
      refine .ret (Total.bind (alone_query h₂ ?_))
      refine Total.bind (alone_commit h₂ ?_ fun w₃ h₃ => ?_)
      · exact uniqueKeys_updateEnvelopes hw.unique (keepsKeys_acknowledged now) _
      · exact Total.bind (alone_publishAll _ h₃ fun w₄ _ => .ret trivial)

theorem alone_get_message (h : Calm t db past f w) {device_id client_id : UUID}
    {Q : Option StoredMessage → World → Prop} {Z : PyError → World → Prop}
    (hnone : (f db).messageByClientId device_id client_id = none → Q none w)
    (hsome : ∀ m, (f db).messageByClientId device_id client_id = some m →
      Q (some ⟨m, (f db).envelopesOf m.id⟩) w) :
    Alone sec t (get_message_by_client_id device_id client_id) Q Z w := by
  unfold get_message_by_client_id
  refine Total.bind (alone_query h ?_)
  cases hm : (f db).messageByClientId device_id client_id with
  | none =>
      exact .ret (hnone hm)
  | some m =>
      exact Total.bind (alone_query h (.ret (hsome m hm)))

/-- A message that was stored is found again. -/
theorem alone_lookup (h : Calm t db past id w) (hu : db.uniqueKeys) {client_id : UUID}
    {Q : Option StoredMessage → World → Prop} {Z : PyError → World → Prop}
    (hnone : db.messageByClientId principal.device_id client_id = none → Q none w)
    (hsome : ∀ m w', Q (some m) w') :
    Alone sec t (lookup principal client_id) Q Z w := by
  unfold lookup
  refine Total.bind (alone_get_message h (fun hm => .ret (hnone hm)) fun m hm => ?_)
  refine Total.bind (alone_now fun now => ?_)
  refine Total.bind (alone_executeUpdate h fun n q w₁ h₁ => ?_)
  refine Total.bind (alone_commit h₁ ?_ fun w₂ h₂ => ?_)
  · exact uniqueKeys_updateEnvelopes hu (keepsKeys_purged now) q
  · refine Total.bind (alone_get_message h₂ (fun hlost => ?_) fun m' _ => .ret (hsome _ w₂))
    exact absurd (hm.symm.trans hlost) (Option.some_ne_none m)

/-- Without an active sender and an active peer the destinations have
changed. -/
theorem alone_lock_destinations_refused (h : Calm t db past id w) {other_user_id : UUID}
    {supplied : List UUID}
    (husers : ∀ user_id ∈ sortedPair other_user_id principal.user_id,
      ∃ u, db.userById user_id = some u)
    (hrefused : ¬(Active db principal.user_id principal.device_id ∧
      ∃ id, Active db other_user_id id))
    {Q : List DeviceMailbox × List (UUID × UUID) → World → Prop} {Z : PyError → World → Prop}
    (hZ : ∀ w', Calm t db past id w' → Z .deliveryTargetsChanged w') :
    Alone sec t (lock_destination_mailboxes principal other_user_id supplied) Q Z w := by
  unfold lock_destination_mailboxes
  refine Total.bind (alone_lock_device_sets _ h husers fun w₁ h₁ _ => ?_)
  refine Total.bind (alone_query h₁ ?_)
  cases hdevices : Db.activeDevices other_user_id (id db) with
  | nil =>
      exact .throw (hZ w₁ h₁)
  | cons d rest =>
      have hpeer : ∃ id, Active db other_user_id id := by
        refine ⟨d.id, active_iff.mpr ⟨d, ?_, rfl⟩⟩
        rw [show db.activeDevices other_user_id = d :: rest from hdevices]
        exact List.mem_cons_self
      have hsender : ((Db.activeDevices principal.user_id (id db)).any fun d =>
          decide (d.id = principal.device_id)) = false := by
        refine Bool.eq_false_iff.mpr fun hany => hrefused ⟨?_, hpeer⟩
        obtain ⟨d', hd', hid⟩ := List.any_eq_true.mp hany
        exact active_iff.mpr ⟨d', hd', of_decide_eq_true hid⟩
      refine Total.bind (alone_query h₁ ?_)
      rw [hsender]
      exact .throw (hZ w₁ h₁)

/-- The exceptions of the validation. -/
theorem validate_envelopes_error {x : PyError} (envelopes : List ClientEnvelopeRequest) :
    ∀ supplied, validate_envelopes supplied envelopes = .error x → sendErrors x = true := by
  induction envelopes with
  | nil =>
      intro supplied h
      cases h
  | cons envelope rest ih =>
      intro supplied h
      unfold validate_envelopes at h
      split at h
      · cases h
        rfl
      · split at h
        · rename_i x' hx
          cases h
          unfold validate_envelope at hx
          repeat' split at hx
          all_goals
            cases hx
            try rfl
        · exact ih _ h

/-- The users of a pair are stored. -/
theorem userById_of_otherUserId (hs : Stored db) {chat_id other_user_id : UUID}
    (h : db.otherUserId principal.user_id chat_id = some other_user_id) :
    ∀ user_id ∈ sortedPair other_user_id principal.user_id,
      ∃ u, db.userById user_id = some u := by
  have hfound : ∀ user_id ∈ db.users.map (·.id), ∃ u, db.userById user_id = some u := by
    intro user_id hmem
    obtain ⟨u, hu, hid⟩ := List.mem_map.mp hmem
    rw [← Option.isSome_iff_exists]
    unfold Db.userById
    rw [List.find?_isSome]
    exact ⟨u, hu, decide_eq_true hid⟩
  obtain ⟨pair, hpair, rfl⟩ := Option.map_eq_some_iff.mp h
  obtain ⟨hlow, hhigh⟩ := hs.pair_users pair (List.mem_of_find?_eq_some hpair)
  have hkey := List.find?_some hpair
  simp only [Bool.and_eq_true, decide_eq_true_eq] at hkey
  obtain ⟨⟨-, hmember⟩, -⟩ := hkey
  intro user_id hmem
  refine hfound user_id ?_
  rcases mem_sortedPair.mp hmem with rfl | rfl
  · split
    · exact hhigh
    · exact hlow
  · rcases hmember with heq | heq
    · exact heq ▸ hlow
    · exact heq ▸ hhigh

/-- A message is stored, or refused without a trace. -/
theorem alone_send_settles (h : Calm t db past id w) (hs : Stored db)
    {request : SendMessageRequest} :
    Alone sec t (send principal request) (fun _ _ => True)
      (fun x w' => sendErrors x = true ∧ w'.db = db) w := by
  have hunique := hs.wf.unique
  cases hother : db.otherUserId principal.user_id request.chat_id with
  | none =>
      unfold send
      refine Total.bind (alone_lookup h hunique (fun _ => ?_) fun m w₁ => .ret trivial)
      refine Total.bind (alone_query h ?_)
      rw [show Db.otherUserId principal.user_id request.chat_id (id db) = none from hother]
      exact .throw ⟨rfl, h.db⟩
  | some other_user_id =>
      cases hvalid : validate_envelopes [] request.envelopes with
      | error x =>
          unfold send
          refine Total.bind (alone_lookup h hunique (fun _ => ?_) fun m w₁ => .ret trivial)
          refine Total.bind (alone_query h ?_)
          rw [show Db.otherUserId principal.user_id request.chat_id (id db) =
            some other_user_id from hother, hvalid]
          exact Total.bind (.throw ⟨validate_envelopes_error _ [] hvalid, h.db⟩)
      | ok supplied =>
          cases hnew : db.messageByClientId principal.device_id request.client_message_id with
          | some m =>
              unfold send
              refine Total.bind (alone_lookup h hunique (fun hnone => ?_) fun m w₁ => .ret trivial)
              exact absurd (hnew.symm.trans hnone) (Option.some_ne_none m)
          | none =>
              by_cases hactive : Active db principal.user_id principal.device_id ∧
                  ∃ id, Active db other_user_id id
              · exact alone_send h hs.wf hother hvalid hnew hactive.1 hactive.2
                  (fun _ _ _ _ _ _ => trivial) fun _ w' hdb => ⟨rfl, hdb⟩
              · obtain ⟨chat, hchat⟩ := chatFor_of_otherUserId hother
                unfold send
                refine Total.bind (alone_lookup h hunique (fun _ => ?_) fun m w₁ => .ret trivial)
                refine Total.bind (alone_query h ?_)
                rw [show Db.otherUserId principal.user_id request.chat_id (id db) =
                  some other_user_id from hother, hvalid]
                refine Total.bind (.ret ?_)
                refine Total.bind (alone_selectLocked h hchat fun w₁ h₁ _ => ?_)
                refine Total.bind (alone_get_message_by_client_id h₁ hnew ?_)
                exact Total.bind (alone_lock_destinations_refused h₁
                  (userById_of_otherUserId hs hother) hactive fun w₂ h₂ => ⟨rfl, h₂.db⟩)

end Services

/-! ## One command on two surfaces -/

/-- The WebSocket handler, up to the form of its answer. -/
def Command.onWebSocket (request_id : RequestId) (principal : Principal) (c : Command) :
    Session Reply := do
  return (← c.webSocket request_id principal).reply

/-- The HTTP route, up to the form of its answer. -/
def Command.onHttp (principal : Principal) (c : Command) : Session Reply := do
  return (← c.http principal).reply

/-- The reply is data, or a client error that has left the rows as they
were. -/
def Settled (db : Db) : Reply → World → Prop
  | .success _, _ => True
  | .rejected status, w' => 400 ≤ status ∧ status < 500 ∧ w'.db = db

/-- On every database, while nobody else uses the server, both surfaces end,
they have the same replies with the same rows, and each reply settles the
command. -/
def Command.Equivalent (sec : Security) (principal : Principal) (c : Command) : Prop :=
  ∀ (request_id : RequestId) (t : Tid) (w : World), Stored w.db → Calm t w.db w.history id w →
    (∃ o w', Evaluates (quiet sec) t (c.onWebSocket request_id principal) w o w') ∧
    ∀ o w',
      (Evaluates (quiet sec) t (c.onWebSocket request_id principal) w o w' ↔
        Evaluates (quiet sec) t (c.onHttp principal) w o w') ∧
      (Evaluates (quiet sec) t (c.onWebSocket request_id principal) w o w' →
        ∃ reply, o = .ok reply ∧ Settled w.db reply w')

/-- The position fits into a `BIGINT`, or is not used. -/
def Command.Representable (c : Command) : Prop :=
  ¬∃ after_seq limit, c = .mailbox after_seq limit ∧ 2 ^ 63 ≤ after_seq ∧ 1 ≤ limit ∧ limit ≤ 100

section Equivalence

variable {sec : Security} {t : Tid} {db : Db} {w : World} {principal : Principal}
  {request_id : RequestId}

theorem describing_bind {ρ : Type} (caught : PyError → Bool) (body : Session Result)
    (ok : Result → ρ) (rejected : MessageErrorDescription → ρ) (g : ρ → Reply) :
    (do return g (← describing caught body ok rejected)) =
      describing caught body (fun r => g (ok r)) fun d => g (rejected d) := by
  unfold describing
  show (Prog.attempt body >>= _) >>= _ = _
  rw [Prog.bind_assoc]
  congr 1
  funext r
  cases r with
  | ok r =>
      rfl
  | error x =>
      dsimp only
      cases (if caught x then describe_message_error x else none) with
      | none => rfl
      | some d => rfl

/-- **The two surfaces run the same program**, if the position fits. -/
theorem Command.onWebSocket_eq {c : Command} (h : c.Representable) :
    c.onWebSocket request_id principal = c.onHttp principal := by
  cases c with
  | send request =>
      unfold Command.onWebSocket Command.onHttp Command.webSocket Command.http handle_send
        send_message
      dsimp only
      split
      · rw [describing_bind, describing_bind]
        rfl
      · rfl
  | delivery envelope_id =>
      unfold Command.onWebSocket Command.onHttp Command.webSocket Command.http handle_delivery
        acknowledge_delivery
      dsimp only
      rw [describing_bind, describing_bind]
      rfl
  | mailbox after_seq limit =>
      unfold Command.onWebSocket Command.onHttp Command.webSocket Command.http handle_sync
        read_mailbox
      dsimp only
      by_cases hlimit : 1 ≤ limit ∧ limit ≤ 100
      · have hseq : after_seq ≤ 2 ^ 63 - 1 := by
          by_contra hbig
          exact h ⟨after_seq, limit, rfl, by omega, hlimit⟩
        have hsync : syncRequestValid after_seq limit = true := decide_eq_true ⟨hseq, hlimit⟩
        have hquery : mailboxQueryValid limit = true := decide_eq_true hlimit
        rw [if_pos hsync, if_pos hquery]
        show (_ >>= _) >>= _ = (_ >>= _) >>= _
        rw [Prog.bind_assoc, Prog.bind_assoc]
        rfl
      · have hsync : ¬syncRequestValid after_seq limit = true :=
          fun hv => hlimit (of_decide_eq_true hv).2
        have hquery : ¬mailboxQueryValid limit = true := fun hv => hlimit (of_decide_eq_true hv)
        rw [if_neg hsync, if_neg hquery]
        rfl

/-- Every exception that a handler catches has a description. -/
theorem described {caught : PyError → Bool}
    (hcaught : caught = sendErrors ∨ caught = deliveryErrors)
    {x : PyError} (hx : caught x = true) :
    ∃ d, describe_message_error x = some d ∧ 400 ≤ d.status ∧ d.status < 500 := by
  rcases hcaught with rfl | rfl
  · cases x with
    | chatNotFound | duplicateDestination | invalidEnvelope | deliveryTargetsChanged =>
        simp [describe_message_error]
    | _ =>
        cases hx
  · cases x with
    | envelopeNotFound =>
        simp [describe_message_error]
    | _ =>
        cases hx

theorem alone_describing {caught : PyError → Bool} {body : Session Result}
    (hcaught : caught = sendErrors ∨ caught = deliveryErrors)
    (h : Alone sec t body (fun _ _ => True) (fun x w' => caught x = true ∧ w'.db = db) w) :
    Alone sec t (describing caught body .success fun d => .rejected d.status) (Settled db)
      (fun _ _ => False) w := by
  unfold describing
  refine Total.bind (Total.attempt h (fun r w₁ _ => .ret trivial) ?_)
  rintro x w₁ ⟨hx, hdb⟩
  obtain ⟨d, hd, hlow, hhigh⟩ := described hcaught hx
  dsimp only
  rw [if_pos hx, hd]
  exact .ret ⟨hlow, hhigh, hdb⟩

/-- The route settles the command. -/
theorem Command.alone_onHttp {c : Command} (hc : c.Representable) (hs : Stored w.db)
    (h : Calm t w.db w.history id w) :
    Alone sec t (c.onHttp principal) (Settled w.db) (fun _ _ => False) w := by
  cases c with
  | send request =>
      unfold Command.onHttp Command.http send_message
      dsimp only
      split
      · rw [describing_bind]
        refine alone_describing (Or.inl rfl) (Total.bind ?_)
        exact Total.mono (alone_send_settles h hs) (fun _ _ _ => .ret trivial) fun _ _ hx => hx
      · exact .ret ⟨by decide, by decide, rfl⟩
  | delivery envelope_id =>
      unfold Command.onHttp Command.http acknowledge_delivery
      dsimp only
      rw [describing_bind]
      refine alone_describing (Or.inr rfl) (Total.bind ?_)
      refine Total.mono (alone_acknowledge h hs.wf) (fun _ _ _ => .ret trivial) ?_
      rintro x w₁ ⟨rfl, hdb⟩
      exact ⟨rfl, hdb⟩
  | mailbox after_seq limit =>
      unfold Command.onHttp Command.http read_mailbox
      dsimp only
      split
      · rename_i hlimit
        have hseq : after_seq < 2 ^ 63 := by
          by_contra hbig
          exact hc ⟨after_seq, limit, rfl, by omega, of_decide_eq_true hlimit⟩
        refine Total.bind (Total.bind ?_)
        exact Total.mono (alone_bound_mailbox h hs.wf.unique hseq)
          (fun _ _ _ => .ret (.ret trivial)) fun _ _ hx => hx
      · exact .ret ⟨by decide, by decide, rfl⟩

/-- The route ends in an unhandled exception if the position does not fit. -/
theorem Command.alone_onHttp_fails {after_seq limit : Nat} (h : Calm t w.db w.history id w)
    (hseq : 2 ^ 63 ≤ after_seq) (hlimit : 1 ≤ limit ∧ limit ≤ 100) :
    Alone sec t (Command.onHttp principal (.mailbox after_seq limit)) (fun _ _ => False)
      (fun x _ => x = .database) w := by
  unfold Command.onHttp Command.http read_mailbox
  dsimp only
  have hquery : mailboxQueryValid limit = true := decide_eq_true hlimit
  rw [if_pos hquery]
  refine Total.bind (Total.bind ?_)
  exact Total.mono (alone_bound_mailbox_fails h hseq) (fun _ _ hfalse => hfalse.elim)
    fun _ _ hx => hx

end Equivalence

namespace Example

theorem smallDb_stored : Stored smallDb where
  wf := smallDb_wf
  pair_users := by decide

/-- A server with two users, where a request has arrived. -/
def calmWorld : World :=
  smallWorld.arrive 0 (.mailbox alice 0 1)

theorem calmWorld_calm : Calm 0 calmWorld.db calmWorld.history id calmWorld :=
  smallWorld_initial.calm

end Example

/-- **Main result.**  The two surfaces agree on a command if and only if it
does not read the mailbox, with a valid limit, after a position of `2^63` or
more. -/
theorem surfaces_agree (sec : Security) (principal : Principal) (c : Command) :
    c.Equivalent sec principal ↔ c.Representable := by
  constructor
  · rintro h ⟨after_seq, limit, rfl, hseq, hlimit⟩
    have hfails : Alone sec 0 (Command.onHttp principal (.mailbox after_seq limit))
        (fun _ _ => False) (fun x _ => x = .database) Example.calmWorld :=
      Command.alone_onHttp_fails Example.calmWorld_calm hseq hlimit
    obtain ⟨o, w', hend⟩ := hfails.evaluates fun _ => rfl
    obtain ⟨-, hagree⟩ := h ⟨"r", by decide⟩ 0 Example.calmWorld Example.smallDb_stored
      Example.calmWorld_calm
    obtain ⟨hsame, hsettles⟩ := hagree o w'
    obtain ⟨reply, rfl, -⟩ := hsettles (hsame.mpr hend)
    exact (Total.post hend hfails fun _ => rfl).1 reply rfl
  · intro hc request_id t w hs h
    have hsettles : Alone sec t (c.onHttp principal) (Settled w.db) (fun _ _ => False) w :=
      Command.alone_onHttp hc hs h
    rw [Command.onWebSocket_eq hc]
    refine ⟨hsettles.evaluates fun _ => rfl, fun o w' => ⟨Iff.rfl, fun hend => ?_⟩⟩
    obtain ⟨hok, herror⟩ := Total.post hend hsettles fun _ => rfl
    cases o with
    | ok reply => exact ⟨reply, rfl, hok reply rfl⟩
    | error x => exact (herror x rfl).elim

/-- Alice's position does not fit: her event is refused with 422, her query ends
in an exception of the driver. -/
theorem surfaces_disagree :
    (∃ w', Evaluates (quiet Example.plainSecurity) 0
      (Command.onWebSocket ⟨"r", by decide⟩ Example.alice (.mailbox (2 ^ 63) 1))
      Example.calmWorld (.ok (.rejected 422)) w') ∧
    (∃ w', Evaluates (quiet Example.plainSecurity) 0
      (Command.onHttp Example.alice (.mailbox (2 ^ 63) 1)) Example.calmWorld
      (.error .database) w') ∧
    ¬∀ sec principal c, Command.Equivalent sec principal c := by
  have hrejected : Evaluates (quiet Example.plainSecurity) 0
      (Command.onWebSocket ⟨"r", by decide⟩ Example.alice (.mailbox (2 ^ 63) 1))
      Example.calmWorld (.ok (.rejected 422)) Example.calmWorld :=
    .ret
  have hfails : Alone Example.plainSecurity 0 (Command.onHttp Example.alice
      (.mailbox (2 ^ 63) 1)) (fun _ _ => False) (fun x _ => x = .database) Example.calmWorld :=
    Command.alone_onHttp_fails Example.calmWorld_calm (le_refl _) (by decide)
  obtain ⟨o, w', hend⟩ := hfails.evaluates fun _ => rfl
  obtain ⟨hok, herror⟩ := Total.post hend hfails fun _ => rfl
  refine ⟨⟨_, hrejected⟩, ?_, fun hall => ?_⟩
  · cases o with
    | ok reply => exact (hok reply rfl).elim
    | error x => exact ⟨w', herror x rfl ▸ hend⟩
  · obtain ⟨-, hagree⟩ := hall Example.plainSecurity Example.alice (.mailbox (2 ^ 63) 1)
      ⟨"r", by decide⟩ 0 Example.calmWorld Example.smallDb_stored Example.calmWorld_calm
    obtain ⟨hsame, hsettles⟩ := hagree o w'
    obtain ⟨reply, rfl, -⟩ := hsettles (hsame.mpr hend)
    exact hok reply rfl

end Server
end SecureMessenger
