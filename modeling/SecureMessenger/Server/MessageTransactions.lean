import SecureMessenger.Server.Locking

/-!
# The transactions of MessageService

Each function of the message service keeps the locking discipline; a send
commits only an accepted message, and whatever it or a lookup returns is the
message in the database.
-/

namespace SecureMessenger
namespace Server

open Lib
open Lib.Discipline

/-- Rows that are not touched are the same. -/
theorem same_of_tables {db db' : Db} (hchats : db'.chats = db.chats)
    (hmailboxes : db'.mailboxes = db.mailboxes) (husers : db'.users = db.users)
    (hdevices : db'.devices = db.devices) (hsessions : db'.sessions = db.sessions)
    (hreads : db'.readStates = db.readStates) (r : Resource) : Same r db db' := by
  cases r with
  | chat id =>
      refine ⟨fun c hc => ?_, fun user_id => ?_⟩
      · rw [hchats]
        exact hc
      · unfold Db.readState
        rw [hreads]
  | user id =>
      simp [Same, Active, SessionOf, Db.activeUser, husers, hdevices, hsessions]
  | mailbox id =>
      intro b hb
      rw [hmailboxes]
      exact hb
  | session id =>
      intro s hs
      rw [hsessions]
      refine ⟨hs, fun _ hd => ?_⟩
      unfold DeviceRevoked at hd ⊢
      rw [hdevices]
      exact hd
  | envelope id =>
      trivial
  | device id =>
      trivial

theorem same_updateEnvelopes (p : Envelope → Bool) (f : Envelope → Envelope) (db : Db)
    (r : Resource) : Same r db (db.updateEnvelopes p f) := by
  apply same_of_tables <;> rfl

/-- A send changes only the chat and the mailboxes it has locked. -/
theorem same_store {principal : Principal} {request : SendMessageRequest} {db : Db}
    (a : Accepted principal request db) {r : Resource} (hchat : r ≠ .chat a.chat.id)
    (hmailboxes : ∀ b ∈ a.mailboxes, r ≠ .mailbox b.device_id) : Same r db a.store := by
  cases r with
  | chat id =>
      refine ⟨fun c hc => ?_, fun user_id => rfl⟩
      rw [store_chats, row_map (bumpChat_id a.chat), hc]
      have hne : c.id ≠ a.chat.id := by
        rw [row_key hc]
        exact fun h => hchat (by rw [h])
      simp [bumpChat, hne]
  | user id =>
      exact ⟨fun _ => Iff.rfl, fun _ => Iff.rfl⟩
  | mailbox id =>
      intro b hb
      rw [store_mailboxes, row_map (bumpMailbox_id a.mailboxes), hb]
      have hnone : row (·.device_id) b.device_id a.mailboxes = none := by
        refine List.find?_eq_none.mpr fun b' hb' => ?_
        simp only [decide_eq_true_eq]
        intro heq
        exact hmailboxes b' hb' (by rw [heq, row_key hb])
      simp [bumpMailbox, hnone]
  | session id =>
      exact fun s hs => ⟨hs, fun _ hd => hd⟩
  | envelope id =>
      trivial
  | device id =>
      trivial

/-- The request has begun and has no uncommitted writes. -/
structure Begun (sec : Security) (t : Tid) (op : Op) (w : World) : Prop where
  inv : Inv sec w
  op : w.op t = some op
  outcome : w.outcome t = none
  pending : w.pending t = id
  began : Grows (w.began t) w.db

/-- The request has ended with the outcome. -/
structure Ended (sec : Security) (t : Tid) (op : Op) (o : Except PyError Result)
    (w : World) : Prop where
  inv : Inv sec w
  result : Outcome sec (commitsOf t w) (w.published t) (w.began t) w.db op o
  op : w.op t = some op
  outcome : w.outcome t = none

section Transactions

variable {sec : Security} {t : Tid} {op : Op} {w : World}

theorem Begun.since {w' : World} (h : Begun sec t op w) (hs : Since sec t w w')
    (hp : w'.pending t = w.pending t) : Begun sec t op w' :=
  ⟨hs.inv, hs.op.trans h.op, hs.outcome.trans h.outcome, hp.trans h.pending, by
    rw [hs.began]
    exact h.began.trans hs.grow.db⟩

/-- After a commit the next transaction begins. -/
theorem Begun.commit (h : Begun sec t op w) {w' : World} (hs : Since sec t w w')
    (hi : Inv sec (w'.commit t)) (hg : Grows w'.db (w'.pending t w'.db)) :
    Begun sec t op (w'.commit t) := by
  refine ⟨hi, hs.op.trans h.op, hs.outcome.trans h.outcome, by simp [World.commit, World.close], ?_⟩
  show Grows (w'.began t) (w'.pending t w'.db)
  rw [hs.began]
  exact (h.began.trans hs.grow.db).trans hg

/-- A rolled back transaction leaves nothing. -/
theorem Begun.close (h : Begun sec t op w) {w' : World} (hs : Since sec t w w') :
    Begun sec t op (w'.close t) := by
  refine ⟨(localStep_close w').inv hs.inv, hs.op.trans h.op, hs.outcome.trans h.outcome,
    by simp [World.close], ?_⟩
  show Grows (w'.began t) w'.db
  rw [hs.began]
  exact h.began.trans hs.grow.db

/-- An update of envelopes, with the locks it takes. -/
theorem safe_executeUpdate {p : Envelope → Bool} {f : Envelope → Envelope}
    {Q : Nat → World → Prop} {Z : PyError → World → Prop}
    (h : ∀ n q w', (∀ e, q e = true → p e = true) → Since sec t w w' →
      w'.pending t = Db.updateEnvelopes q f ∘ w.pending t → Q n w')
    (hz : ∀ w', Since sec t w w' → Z .database w') : Tx sec t (executeUpdate p f) Q Z w := by
  unfold executeUpdate
  refine Safe.bind (safe_query fun w₁ hs₁ hp₁ => ?_)
  refine Safe.bind (safe_lockAll _ hs₁.inv (fun w₂ hs₂ hp₂ _ => ?_)
    fun w₂ hs₂ => hz w₂ (hs₁.trans hs₂))
  refine Safe.bind (safe_query fun w₃ hs₃ hp₃ => ?_)
  refine Safe.bind (safe_write fun w₄ hs₄ hp₄ => ?_)
  have hp : w₃.pending t = w.pending t := (hp₃.trans hp₂).trans hp₁
  rw [hp] at hp₄
  exact h _ _ w₄ (fun e he => (Bool.and_eq_true_iff.mp he).2)
    (((hs₁.trans hs₂).trans hs₃).trans hs₄) hp₄

/-- A transaction that has only purged envelopes may commit. -/
theorem committable_purge (hop : w.op t = some op) (hout : w.outcome t = none)
    (hpurge : op.purges = true)
    {q : Envelope → Bool} {now : Instant} (hq : ∀ e, q e = true → Db.expired now e = true)
    (hp : w.pending t = Db.updateEnvelopes q (Db.purged now)) : Committable sec t w := by
  refine ⟨⟨op, hop, ?_⟩, fun r _ => ?_, fun h hk => ?_, hout⟩
  · rw [hp]
    exact Effect.purge op w.db q now hpurge hq
  · rw [hp]
    exact same_updateEnvelopes _ _ _ r
  · rw [hp] at hk
    exact Or.inl hk

/-- A transaction without writes may commit. -/
theorem committable_nothing (hop : w.op t = some op) (hout : w.outcome t = none)
    (hp : w.pending t = id) : Committable sec t w := by
  refine ⟨⟨op, hop, ?_⟩, fun r _ => ?_, fun h hk => ?_, hout⟩
  · rw [hp]
    exact Effect.nothing op w.db
  · rw [hp]
    exact Same.refl r _
  · rw [hp] at hk
    exact Or.inl hk

theorem envelopesOf_ids (message_id : UUID) (db : Db) :
    ((db.envelopesOf message_id).map (·.id)).Perm (envelopeIds message_id db) :=
  (List.perm_insertionSort _ _).map _

/-- The message found by its client identifier is returned with its
envelopes. -/
theorem safe_get_message_by_client_id {device_id client_id : UUID} (hp : w.pending t = id)
    {Q : Option StoredMessage → World → Prop} {Z : PyError → World → Prop}
    (hnone : ∀ w', Since sec t w w' → w'.pending t = w.pending t →
      w'.db.messageByClientId device_id client_id = none → Q none w')
    (hsome : ∀ m w', Since sec t w w' → w'.pending t = w.pending t →
      Returned device_id client_id m w'.db → Q (some m) w') :
    Tx sec t (get_message_by_client_id device_id client_id) Q Z w := by
  unfold get_message_by_client_id
  refine Safe.bind (safe_query fun w₁ hs₁ hp₁ => ?_)
  have hp₁' : w₁.pending t = id := hp₁.trans hp
  rw [hp₁']
  cases hm : w₁.db.messageByClientId device_id client_id with
  | none =>
      have : Db.messageByClientId device_id client_id (id w₁.db) = none := hm
      rw [this]
      exact hnone w₁ hs₁ hp₁ hm
  | some m =>
      have : Db.messageByClientId device_id client_id (id w₁.db) = some m := hm
      rw [this]
      refine Safe.bind (safe_query fun w₂ hs₂ hp₂ => ?_)
      refine hsome _ w₂ (hs₁.trans hs₂) (hp₂.trans hp₁) ?_
      have hkey := List.find?_some hm
      simp only [decide_eq_true_eq] at hkey
      refine ⟨hs₂.grow.db.messages m (List.mem_of_find?_eq_some hm), hkey.1, hkey.2, ?_⟩
      rw [hp₂, hp₁']
      exact envelopesOf_ids m.id w₂.db

theorem Returned.found {device_id client_id : UUID} {m : StoredMessage} {db : Db}
    (h : Returned device_id client_id m db) : db.messageByClientId device_id client_id ≠ none := by
  intro hnone
  have := List.find?_eq_none.mp hnone m.message h.message
  simp [h.device, h.client_id] at this

/-- The effect of a purge that has been committed. -/
theorem grows_purge {q : Envelope → Bool} {now : Instant}
    (hp : w.pending t = Db.updateEnvelopes q (Db.purged now)) :
    Grows w.db (w.pending t w.db) := by
  rw [hp]
  exact grows_updateEnvelopes (keepsKeys_purged now) q w.db

/-- `lookup`: nothing is written if nothing is found, and what is found is
returned. -/
theorem safe_lookup (hb : Begun sec t op w)
    (hpurge : op.purges = true)
    (principal : Principal) (client_id : UUID)
    {Q : Option StoredMessage → World → Prop} {Z : PyError → World → Prop}
    (hnone : ∀ w', Since sec t w w' → w'.pending t = w.pending t → Q none w')
    (hsome : ∀ m w', Begun sec t op w' → Returned principal.device_id client_id m w'.db →
      Q (some m) w')
    (hz : ∀ x w', Since sec t w w' → Z x w') :
    Tx sec t (lookup principal client_id) Q Z w := by
  unfold lookup
  refine Safe.bind (safe_get_message_by_client_id hb.pending
    (fun w₁ hs₁ hp₁ _ => hnone w₁ hs₁ hp₁) fun m w₁ hs₁ hp₁ hm => ?_)
  refine Safe.bind (safe_now fun now w₂ hs₂ hp₂ => ?_)
  refine Safe.bind (safe_executeUpdate (fun n q w₃ hq hs₃ hp₃ => ?_)
    fun w₃ hs₃ => hz _ w₃ ((hs₁.trans hs₂).trans hs₃))
  have hs := (hs₁.trans hs₂).trans hs₃
  have hexpired := fun e he => (Bool.and_eq_true_iff.mp (hq e he)).2
  have hpend : w₃.pending t = Db.updateEnvelopes q (Db.purged now) := by
    rw [hp₃, hp₂, hp₁, hb.pending]
    rfl
  refine Safe.bind (safe_commit (fun w₄ hs₄ hp₄ hu => ?_) (fun w₄ hs₄ hp₄ hu hi => ?_)
    (fun w₄ hs₄ _ _ => hz _ w₄ (hs.trans hs₄)) fun w₄ hs₄ => hz _ w₄ (hs.trans hs₄))
  · exact committable_purge ((hs.trans hs₄).op.trans hb.op)
      ((hs.trans hs₄).outcome.trans hb.outcome) hpurge hexpired (hp₄.trans hpend)
  · have hg := grows_purge (hp₄.trans hpend)
    have hb' := hb.commit (hs.trans hs₄) hi hg
    -- the message is still there after the commit
    have hkept : Returned principal.device_id client_id m (w₄.commit t).db :=
      (hm.grow ((hs₂.trans hs₃).trans hs₄).grow.db).grow hg
    refine Safe.bind (safe_get_message_by_client_id hb'.pending (fun w₅ hs₅ _ hlost => ?_)
      fun m' w₅ hs₅ hp₅ hm' => ?_)
    · exact absurd hlost (hkept.grow hs₅.grow.db).found
    · exact hsome m' w₅ (hb'.since hs₅ hp₅) hm'

/-- The event may be published: an advance tells of its commit. -/
def MayPublish (t : Tid) (w : World) (device_id : UUID) : Prop :=
  ∀ principal chat_id last_read_seq, w.op t = some (.advance principal chat_id last_read_seq) →
    ∃ c ∈ commitsOf t w, Raised principal.user_id chat_id c ∧
      Informed (w.began t) principal.user_id chat_id device_id c

theorem MayPublish.since {w w' : World} {device_id : UUID} (h : MayPublish t w device_id)
    (hs : Since sec t w w') : MayPublish t w' device_id := by
  unfold MayPublish
  rw [hs.op, hs.began, hs.commits]
  exact h

theorem keeps_publish {w : World} (hi : Inv sec w) (hout : w.outcome t = none) {device_id : UUID}
    (hmay : MayPublish t w device_id) :
    (serverDiscipline sec).Keeps t w (w.publish t device_id) := by
  refine ⟨⟨hi.wf, hi.locks, hi.commits, hi.order, hi.chain, hi.last, ?_, ?_, hi.rotation,
    hi.known, hi.issued, hi.drawn, hi.owner⟩,
    ⟨Grows.refl _, ⟨[], rfl, fun _ h => by cases h⟩, fun _ _ h => ⟨h, rfl⟩, ?_⟩, fun u hu => ?_⟩
  · intro u o ho
    have hne : u ≠ t := by
      rintro rfl
      have : w.outcome u = some o := ho
      rw [hout] at this
      cases this
    obtain ⟨op, hop, hres⟩ := hi.outcomes u o ho
    refine ⟨op, hop, ?_⟩
    show Outcome sec (commitsOf u w) (Function.update w.published t _ u) (w.began u) w.db op o
    rw [Function.update_of_ne hne]
    exact hres
  · intro u principal chat_id last_read_seq hop d hd
    by_cases hut : u = t
    · subst hut
      simp only [World.publish, Function.update_self] at hd
      rcases List.mem_cons.mp hd with rfl | hd
      · exact hmay principal chat_id last_read_seq hop
      · exact hi.published u principal chat_id last_read_seq hop d hd
    · simp only [World.publish, Function.update_of_ne hut] at hd
      exact hi.published u principal chat_id last_read_seq hop d hd
  · intro u op hnone hop
    have : w.op u = some op := hop
    rw [hnone] at this
    cases this
  · exact ⟨rfl, rfl, rfl, rfl, rfl, by simp [World.publish, hu], rfl, rfl,
      fun r _ => Same.refl r _, fun _ _ _ h => h⟩

theorem since_publish {w : World} (hi : Inv sec w) (hout : w.outcome t = none) {device_id : UUID}
    (hmay : MayPublish t w device_id) : Since sec t w (w.publish t device_id) := by
  have hk := keeps_publish hi hout hmay
  refine ⟨hk.inv, hk.grow, rfl, rfl, rfl, rfl, fun _ h => h, fun _ h => h,
    fun r _ => Same.refl r _, fun d hd => ?_, fun _ h => h, fun _ _ _ h => h⟩
  simp [World.publish, hd]

/-- Every device of the list is published to. -/
theorem safe_publishAll (ids : List UUID) :
    ∀ {w : World} {Q : Unit → World → Prop} {Z : PyError → World → Prop}, Inv sec w →
      w.outcome t = none → (∀ d ∈ ids, MayPublish t w d) →
      (∀ w', Since sec t w w' → w'.pending t = w.pending t → (∀ d ∈ ids, d ∈ w'.published t) →
        Q () w') →
      Tx sec t (publishAll ids) Q Z w := by
  induction ids with
  | nil =>
      intro w Q Z hi _ _ h
      exact h w (Since.refl hi) rfl (fun d hd => by cases hd)
  | cons id ids ih =>
      intro w Q Z _ hout hmay h w₁ hd a w₂ hx
      have hx : w₂ = w₁.publish t id := hx
      subst hx
      have hs := Since.of_drift hd
      have hout₁ := hs.outcome.trans hout
      have hmay₁ := (hmay id List.mem_cons_self).since hs
      have hpub := since_publish hd.inv hout₁ hmay₁
      refine ⟨keeps_publish hd.inv hout₁ hmay₁, ih hpub.inv (hpub.outcome.trans hout₁)
        (fun d hd' => (hmay d (List.mem_cons_of_mem _ hd')).since (hs.trans hpub))
        fun w₃ hs₃ hp₃ hall => ?_⟩
      refine h w₃ ((hs.trans hpub).trans hs₃) (hp₃.trans hd.own.pending) fun d hd' => ?_
      rcases List.mem_cons.mp hd' with rfl | hd'
      · exact hs₃.published _ (by simp [World.publish])
      · exact hall d hd'

/-- Only advances have to account for what they publish. -/
theorem mayPublish_of_op {w : World} {op : Op} (hop : w.op t = some op)
    (hne : ∀ principal chat_id last_read_seq, op ≠ .advance principal chat_id last_read_seq)
    (device_id : UUID) : MayPublish t w device_id := by
  intro principal chat_id last_read_seq h
  rw [hop, Option.some.injEq] at h
  exact absurd h (hne principal chat_id last_read_seq)

/-- `SKIP LOCKED` takes free locks only. -/
theorem grantFree_spec (ids : List UUID) :
    ∀ {w : World}, Inv sec w → (∀ id ∈ ids, w.free t (.envelope id) .update) →
      (serverDiscipline sec).Keeps t w (w.grantFree t ids) ∧ Since sec t w (w.grantFree t ids) ∧
        (w.grantFree t ids).pending t = w.pending t := by
  induction ids with
  | nil =>
      intro w hi _
      exact ⟨Keeps.refl hi, Since.refl hi, rfl⟩
  | cons id ids ih =>
      intro w hi hf
      have hfree := hf id List.mem_cons_self
      have hs := since_grant hi hfree
      obtain ⟨hk, hs', hp⟩ := ih (w := w.grant t (.envelope id) .update) hs.inv
        fun id' hid' u hu => by
          have := hf id' (List.mem_cons_of_mem _ hid') u hu
          simpa [World.grant, hu] using this
      refine ⟨⟨hk.inv, hs.grow.trans hk.grow, fun u hu => ?_⟩, hs.trans hs', hp⟩
      exact ((localStep_grant hi hfree).own hu).trans (hk.own u hu)

theorem safe_lockFree {f : (UUID → Bool) → Db → List UUID} {Q : List UUID → World → Prop}
    {Z : PyError → World → Prop}
    (h : ∀ ids w', Since sec t w w' → w'.pending t = w.pending t → Q ids w') :
    Tx sec t (Prog.eff (.lockFree f) fun (ids : List UUID) => .ret ids) Q Z w := by
  intro w₁ hd ids w₂ hx
  obtain ⟨locked, hfree, -, hids, rfl⟩ := hx
  obtain ⟨hk, hs, hp⟩ := @grantFree_spec sec t ids w₁ hd.inv
    fun id hid => hfree id (hids id hid)
  exact ⟨hk, h ids _ ((Since.of_drift hd).trans hs) (hp.trans hd.own.pending)⟩

/-- A request about whose outcome nothing is claimed. -/
theorem Begun.ended {o : Except PyError Result} (hb : Begun sec t op w) {w' : World}
    (hs : Since sec t w w') (ho : ∀ own told began db, Outcome sec own told began db op o) :
    Ended sec t op o w' :=
  ⟨hs.inv, ho _ _ _ _, hs.op.trans hb.op, hs.outcome.trans hb.outcome⟩

theorem committable_acknowledge {principal : Principal} {envelope_id : UUID}
    (hop : w.op t = some (.acknowledge principal envelope_id)) (hout : w.outcome t = none)
    {q : Envelope → Bool} {now : Instant}
    (hq : ∀ e, q e = true → e.id = envelope_id ∧ e.recipient_device_id = principal.device_id)
    (hp : w.pending t = Db.updateEnvelopes q (Db.acknowledged now)) : Committable sec t w := by
  refine ⟨⟨_, hop, ?_⟩, fun r _ => ?_, fun h hk => ?_, hout⟩
  · rw [hp]
    exact Effect.acknowledge principal envelope_id w.db q now hq
  · rw [hp]
    exact same_updateEnvelopes _ _ _ r
  · rw [hp] at hk
    exact Or.inl hk

theorem safe_acknowledge {principal : Principal} {envelope_id : UUID}
    (hb : Begun sec t (.acknowledge principal envelope_id) w) :
    Tx sec t (acknowledge principal envelope_id)
      (fun r w' => Ended sec t (.acknowledge principal envelope_id) (.ok (.envelope r)) w')
      (fun x w' => Ended sec t (.acknowledge principal envelope_id) (.error x) w') w := by
  have hz : ∀ x w', Since sec t w w' →
      Ended sec t (.acknowledge principal envelope_id) (.error x) w' :=
    fun x w' hs => hb.ended hs fun _ _ _ _ => trivial
  unfold acknowledge acknowledge_envelope
  refine Safe.bind (safe_now fun now w₁ hs₁ hp₁ => ?_)
  refine Safe.bind (Safe.bind (safe_selectLocked (fun w₂ hs₂ _ _ => ?_)
    (fun e w₂ hs₂ hp₂ _ _ => ?_) fun w₂ hs₂ => hz _ w₂ (hs₁.trans hs₂)))
  · exact hz _ w₂ (hs₁.trans hs₂)
  · refine Safe.bind (safe_write fun w₃ hs₃ hp₃ => ?_)
    refine Safe.bind (safe_query fun w₄ hs₄ hp₄ => ?_)
    have hs := ((hs₁.trans hs₂).trans hs₃).trans hs₄
    have hpend : w₄.pending t = Db.updateEnvelopes
        (fun e => decide (e.id = envelope_id ∧ e.recipient_device_id = principal.device_id))
        (Db.acknowledged now) := by
      rw [hp₄, hp₃, hp₂, hp₁, hb.pending]
      rfl
    split
    · exact hz _ w₄ hs
    · refine Safe.bind (safe_query fun w₅ hs₅ hp₅ => ?_)
      have hs' := hs.trans hs₅
      refine Safe.bind (safe_commit (fun w₆ hs₆ hp₆ hu => ?_) (fun w₆ hs₆ hp₆ hu hi => ?_)
        (fun w₆ hs₆ _ _ => hz _ w₆ (hs'.trans hs₆)) fun w₆ hs₆ => hz _ w₆ (hs'.trans hs₆))
      · exact committable_acknowledge ((hs'.trans hs₆).op.trans hb.op)
          ((hs'.trans hs₆).outcome.trans hb.outcome) (fun e he => of_decide_eq_true he)
          ((hp₆.trans hp₅).trans hpend)
      · have hop := (hs'.trans hs₆).op.trans hb.op
        refine Safe.bind (safe_publishAll _ hi ((hs'.trans hs₆).outcome.trans hb.outcome)
          (fun d _ => mayPublish_of_op (w := w₆.commit t) hop (by simp) d) fun w₇ hs₇ _ _ => ?_)
        exact ⟨hs₇.inv, trivial, (hs₇.op.trans (hs'.trans hs₆).op).trans hb.op,
          (hs₇.outcome.trans (hs'.trans hs₆).outcome).trans hb.outcome⟩

theorem safe_destination_devices {principal : Principal} {chat_id : UUID}
    (hb : Begun sec t (.destinationDevices principal chat_id) w) :
    Tx sec t (destination_devices principal chat_id)
      (fun r w' => Ended sec t (.destinationDevices principal chat_id) (.ok (.devices r)) w')
      (fun x w' => Ended sec t (.destinationDevices principal chat_id) (.error x) w') w := by
  unfold destination_devices
  refine Safe.bind (safe_query fun w₁ hs₁ _ => ?_)
  split
  · exact hb.ended hs₁ fun _ _ _ _ => trivial
  · refine Safe.bind (safe_query fun w₂ hs₂ _ => ?_)
    refine Safe.bind (safe_query fun w₃ hs₃ _ => ?_)
    exact hb.ended ((hs₁.trans hs₂).trans hs₃) fun _ _ _ _ => trivial

/-- The last commit of a request about whose outcome nothing is claimed. -/
theorem safe_commit_last (hb : Begun sec t op w) {w₀ : World} (hs₀ : Since sec t w w₀)
    (hc : ∀ w₁, Since sec t w₀ w₁ → w₁.op t = some op → w₁.outcome t = none →
      w₁.pending t = w₀.pending t → Committable sec t w₁)
    (ho : ∀ o own told began db, Outcome sec own told began db op o) {o : Except PyError Result} :
    Tx sec t Server.commit (fun _ w' => Ended sec t op o w')
      (fun x w' => Ended sec t op (.error x) w') w₀ := by
  refine safe_commit (fun w₁ hs₁ hp₁ _ => ?_) (fun w₁ hs₁ hp₁ _ hi => ?_)
    (fun w₁ hs₁ _ _ => hb.ended (hs₀.trans hs₁) (ho _))
    fun w₁ hs₁ => hb.ended (hs₀.trans hs₁) (ho _)
  · exact hc w₁ hs₁ ((hs₀.trans hs₁).op.trans hb.op)
      ((hs₀.trans hs₁).outcome.trans hb.outcome) hp₁
  · exact ⟨hi, ho _ _ _ _ _, (hs₀.trans hs₁).op.trans hb.op,
      (hs₀.trans hs₁).outcome.trans hb.outcome⟩

theorem safe_mailbox {principal : Principal} {after_seq limit : Nat}
    (hb : Begun sec t (.mailbox principal after_seq limit) w) :
    Tx sec t (mailbox principal after_seq limit)
      (fun r w' => Ended sec t (.mailbox principal after_seq limit) (.ok (.page r)) w')
      (fun x w' => Ended sec t (.mailbox principal after_seq limit) (.error x) w') w := by
  unfold mailbox purge_expired_for_device
  refine Safe.bind (safe_now fun now w₁ hs₁ hp₁ => ?_)
  refine Safe.bind (safe_executeUpdate (fun n q w₂ hq hs₂ hp₂ => ?_)
    fun w₂ hs₂ => hb.ended (hs₁.trans hs₂) fun _ _ _ _ => trivial)
  refine Safe.bind (safe_query fun w₃ hs₃ hp₃ => ?_)
  have hpend : w₃.pending t = Db.updateEnvelopes q (Db.purged now) := by
    rw [hp₃, hp₂, hp₁, hb.pending]
    rfl
  have hexpired := fun e he => (Bool.and_eq_true_iff.mp (hq e he)).2
  exact Safe.bind (safe_commit_last hb ((hs₁.trans hs₂).trans hs₃)
    (fun _ _ hop hout hp => committable_purge hop hout rfl hexpired (hp.trans hpend))
    fun _ _ _ _ _ => trivial)

theorem safe_purge_expired_batch {batch_size : Nat} {now : Option Instant}
    (hb : Begun sec t (.purgeExpiredBatch batch_size now) w) :
    Tx sec t (purge_expired_batch batch_size now)
      (fun r w' => Ended sec t (.purgeExpiredBatch batch_size now) (.ok (.count r)) w')
      (fun x w' => Ended sec t (.purgeExpiredBatch batch_size now) (.error x) w') w := by
  unfold purge_expired_batch
  split
  · exact hb.ended (Since.refl hb.inv) fun _ _ _ _ => trivial
  · refine Safe.bind (safe_now fun clock w₁ hs₁ hp₁ => ?_)
    refine Safe.bind (safe_lockFree fun ids w₂ hs₂ hp₂ => ?_)
    split
    · have hpend : w₂.pending t = id := (hp₂.trans hp₁).trans hb.pending
      rw [Prog.pure_eq, Prog.ret_bind]
      exact Safe.bind (safe_commit_last hb (hs₁.trans hs₂)
        (fun _ _ hop hout hp => committable_nothing hop hout (hp.trans hpend))
        fun _ _ _ _ _ => trivial)
    · refine Safe.bind (safe_executeUpdate (fun n q w₃ hq hs₃ hp₃ => ?_)
        fun w₃ hs₃ => hb.ended ((hs₁.trans hs₂).trans hs₃) fun _ _ _ _ => trivial)
      have hpend : w₃.pending t = Db.updateEnvelopes q (Db.purged (now.getD clock)) := by
        rw [hp₃, hp₂, hp₁, hb.pending]
        rfl
      have hexpired := fun e he => (Bool.and_eq_true_iff.mp (hq e he)).2
      exact Safe.bind (safe_commit_last hb ((hs₁.trans hs₂).trans hs₃)
        (fun _ _ hop hout hp => committable_purge hop hout rfl hexpired (hp.trans hpend))
        fun _ _ _ _ _ => trivial)

/-! ## Sending -/

theorem mem_activeDevices {user_id : UUID} {db : Db} {d : Device} :
    d ∈ db.activeDevices user_id ↔
      d ∈ db.devices ∧ d.user_id = user_id ∧ d.revoked_at = none ∧
        db.activeUser user_id = true := by
  simp only [Db.activeDevices, List.mem_insertionSort, List.mem_filter, Bool.and_eq_true,
    decide_eq_true_eq]
  tauto

theorem active_iff {user_id id : UUID} {db : Db} :
    Active db user_id id ↔ ∃ d ∈ db.activeDevices user_id, d.id = id := by
  constructor
  · rintro ⟨huser, d, hd, hid, hu, hr⟩
    exact ⟨d, mem_activeDevices.mpr ⟨hd, hu, hr, huser⟩, hid⟩
  · rintro ⟨d, hd, hid⟩
    obtain ⟨hd, hu, hr, huser⟩ := mem_activeDevices.mp hd
    exact ⟨huser, d, hd, hid, hu, hr⟩

/-- The pairs `device_users` is made of. -/
theorem mem_recipients {sender : UUID} {user_a user_b : UUID} {db db' : Db} {id user_id : UUID} :
    (id, user_id) ∈ (recipient_devices sender
        (db.activeDevices user_a ++ db'.activeDevices user_b)).map (fun d => (d.id, d.user_id)) ↔
      id ≠ sender ∧ ((user_id = user_a ∧ Active db user_a id) ∨
        (user_id = user_b ∧ Active db' user_b id)) := by
  simp only [recipient_devices, List.mem_map, List.mem_insertionSort, List.mem_filter,
    List.mem_append, decide_eq_true_eq, Prod.mk.injEq, active_iff]
  constructor
  · rintro ⟨d, ⟨hd | hd, hne⟩, rfl, rfl⟩
    · exact ⟨hne, Or.inl ⟨(mem_activeDevices.mp hd).2.1, d, hd, rfl⟩⟩
    · exact ⟨hne, Or.inr ⟨(mem_activeDevices.mp hd).2.1, d, hd, rfl⟩⟩
  · rintro ⟨hne, ⟨rfl, d, hd, rfl⟩ | ⟨rfl, d, hd, rfl⟩⟩
    · exact ⟨d, ⟨Or.inl hd, hne⟩, rfl, (mem_activeDevices.mp hd).2.1⟩
    · exact ⟨d, ⟨Or.inr hd, hne⟩, rfl, (mem_activeDevices.mp hd).2.1⟩

theorem sameSet_iff {xs ys : List UUID} : sameSet xs ys = true ↔ ∀ x, x ∈ xs ↔ x ∈ ys := by
  simp only [sameSet, Bool.and_eq_true, List.all_eq_true, decide_eq_true_eq]
  constructor
  · rintro ⟨h, h'⟩ x
    exact ⟨h x, h' x⟩
  · intro h
    exact ⟨fun x => (h x).mp, fun x => (h x).mpr⟩

theorem mem_mailboxesOf {ids : List UUID} {db : Db} {b : DeviceMailbox} :
    b ∈ db.mailboxesOf ids ↔ b ∈ db.mailboxes ∧ b.device_id ∈ ids := by
  simp [Db.mailboxesOf]

theorem nodup_mailboxesOf {db : Db} (h : db.uniqueKeys) (ids : List UUID) :
    ((db.mailboxesOf ids).map (·.device_id)).Nodup := by
  have hperm : (db.mailboxesOf ids).Perm
      (db.mailboxes.filter fun m => decide (m.device_id ∈ ids)) :=
    List.perm_insertionSort _ _
  rw [(hperm.map _).nodup_iff]
  exact h.mailboxes.sublist (List.filter_sublist.map _)

theorem chatFor_row {db : Db} (h : db.uniqueKeys) {user_id chat_id : UUID} {c : Chat}
    (hc : db.chatFor user_id chat_id = some c) : row (·.id) chat_id db.chats = some c := by
  have hkey := List.find?_some hc
  simp only [Bool.and_eq_true, decide_eq_true_eq] at hkey
  have hrow : row (fun c : Chat => c.id) c.id db.chats = some c :=
    row_of_mem h.chats (List.mem_of_find?_eq_some hc)
  rw [hkey.1.1] at hrow
  exact hrow

/-- The two users are locked, in whatever order. -/
theorem safe_lock_device_sets {Z : PyError → World → Prop} (users : List UUID) :
    ∀ {w : World} {Q : Unit → World → Prop}, Inv sec w → w.pending t = id →
      (∀ w', Since sec t w w' → w'.pending t = w.pending t →
        (∀ u ∈ users, Holding w' t (.user u) .share) → Q () w') →
      (∀ x w', Since sec t w w' → Z x w') → Tx sec t (lock_device_sets users) Q Z w := by
  induction users with
  | nil =>
      intro w Q hi _ h _
      exact h w (Since.refl hi) rfl (fun u hu => by cases hu)
  | cons user_id users ih =>
      intro w Q hi hid h hz
      unfold lock_device_sets lock_device_set
      refine Safe.bind (Safe.bind (safe_selectLocked (fun w₁ hs₁ _ _ => ?_)
        (fun u w₁ hs₁ hp₁ hh hu => ?_) fun w₁ hs₁ => hz _ w₁ hs₁))
      · exact hz _ w₁ hs₁
      · rw [hp₁, hid] at hu
        have hkey : u.id = user_id := row_key hu
        refine ih hs₁.inv (hp₁.trans hid) (fun w₂ hs₂ hp₂ hrest => ?_)
          fun x w₂ hs₂ => hz x w₂ (hs₁.trans hs₂)
        refine h w₂ (hs₁.trans hs₂) (hp₂.trans hp₁) fun u' hu' => ?_
        rcases List.mem_cons.mp hu' with rfl | hu'
        · rw [← hkey]
          exact hs₂.holding hh
        · exact hrest u' hu'

/-- The mailboxes read are locked and current. -/
theorem safe_lock_mailboxes {ids : List UUID} (hid : w.pending t = id)
    {Q : List DeviceMailbox → World → Prop} {Z : PyError → World → Prop}
    (h : ∀ mailboxes w', Since sec t w w' → w'.pending t = w.pending t →
      (∀ b ∈ mailboxes, Holding w' t (.mailbox b.device_id) .update ∧
        row (·.device_id) b.device_id w'.db.mailboxes = some b) →
      (mailboxes.map (·.device_id)).Nodup → Q mailboxes w')
    (hz : ∀ w', Since sec t w w' → Z .database w') :
    Tx sec t (lock_mailboxes ids) Q Z w := by
  unfold lock_mailboxes
  refine Safe.bind (safe_query fun w₁ hs₁ hp₁ => ?_)
  refine Safe.bind (safe_lockAll _ hs₁.inv (fun w₂ hs₂ hp₂ hlocked => ?_)
    fun w₂ hs₂ => hz w₂ (hs₁.trans hs₂))
  refine safe_query fun w₃ hs₃ hp₃ => ?_
  have hp : w₃.pending t = w.pending t := (hp₃.trans hp₂).trans hp₁
  refine h _ w₃ ((hs₁.trans hs₂).trans hs₃) hp ?_ ?_
  · intro b hb
    rw [hp, hid] at hb
    obtain ⟨hb, hmem⟩ := List.mem_filter.mp hb
    simp only [decide_eq_true_eq] at hmem
    constructor
    · exact hs₃.holding (hlocked _ (List.mem_map_of_mem hmem))
    · exact row_of_mem hs₃.inv.wf.unique.mailboxes (mem_mailboxesOf.mp hb).1
  · rw [hp, hid]
    exact (nodup_mailboxesOf hs₃.inv.wf.unique ids).sublist (List.filter_sublist.map _)

theorem safe_create_envelopes {message : Message} {supplied : List Supplied}
    {users : List (UUID × UUID)} {Z : PyError → World → Prop} (mailboxes : List DeviceMailbox) :
    ∀ {w : World} {Q : List Envelope → World → Prop}, Inv sec w →
      (∀ envelopes w', Since sec t w w' → w'.pending t = w.pending t →
        List.Forall₂ (Created message users) mailboxes envelopes → Q envelopes w') →
      (∀ x w', Since sec t w w' → Z x w') →
      Tx sec t (create_envelopes message supplied users mailboxes) Q Z w := by
  induction mailboxes with
  | nil =>
      intro w Q hi h _
      exact h [] w (Since.refl hi) rfl .nil
  | cons b mailboxes ih =>
      intro w Q hi h hz
      unfold create_envelopes
      split
      · rename_i s user_id hs hu
        refine Safe.bind (safe_uuid4 fun id w₁ hs₁ hp₁ => ?_)
        refine Safe.bind (ih hs₁.inv (fun envelopes w₂ hs₂ hp₂ hall => ?_)
          fun x w₂ hs₂ => hz x w₂ (hs₁.trans hs₂))
        refine h _ w₂ (hs₁.trans hs₂) (hp₂.trans hp₁)
          (.cons ⟨rfl, rfl, ?_, rfl, rfl, rfl, rfl⟩ hall)
        obtain ⟨l₁, l₂, heq, -⟩ := List.lookup_eq_some_iff.mp hu
        rw [heq]
        simp [newEnvelope]
      · exact hz _ w (Since.refl hi)

/-- What `_lock_destination_mailboxes` has established, under its locks. -/
structure Destinations (t : Tid) (principal : Principal) (other_user_id : UUID)
    (mailboxes : List DeviceMailbox) (device_users : List (UUID × UUID)) (w : World) : Prop where
  other_locked : Holding w t (.user other_user_id) .share
  own_locked : Holding w t (.user principal.user_id) .share
  sender_active : Active w.db principal.user_id principal.device_id
  peer_active : ∃ id, Active w.db other_user_id id
  recipients : ∀ id user_id, (id, user_id) ∈ device_users ↔
    id ≠ principal.device_id ∧ (user_id = other_user_id ∨ user_id = principal.user_id) ∧
      Active w.db user_id id
  mailboxes_locked : ∀ b ∈ mailboxes, Holding w t (.mailbox b.device_id) .update
  mailbox_rows : ∀ b ∈ mailboxes, row (·.device_id) b.device_id w.db.mailboxes = some b
  mailboxes_nodup : (mailboxes.map (·.device_id)).Nodup
  mailbox_ids : ∀ id, id ∈ mailboxes.map (·.device_id) ↔ id ∈ device_users.map (·.1)

theorem Since.active {w' : World} (hs : Since sec t w w') {user_id : UUID}
    (hh : Holding w t (.user user_id) .share) (id : UUID) :
    Active w'.db user_id id ↔ Active w.db user_id id :=
  (hs.same _ hh.ne_none).1 id

/-- The locks keep it true. -/
theorem Destinations.since {principal : Principal} {other_user_id : UUID}
    {mailboxes : List DeviceMailbox} {device_users : List (UUID × UUID)} {w' : World}
    (h : Destinations t principal other_user_id mailboxes device_users w)
    (hs : Since sec t w w') :
    Destinations t principal other_user_id mailboxes device_users w' where
  other_locked := hs.holding h.other_locked
  own_locked := hs.holding h.own_locked
  sender_active := (hs.active h.own_locked _).mpr h.sender_active
  peer_active := by
    obtain ⟨id, hid⟩ := h.peer_active
    exact ⟨id, (hs.active h.other_locked id).mpr hid⟩
  recipients := by
    intro id user_id
    rw [h.recipients id user_id]
    refine and_congr_right fun _ => and_congr_right fun hu => ?_
    rcases hu with rfl | rfl
    · exact (hs.active h.other_locked id).symm
    · exact (hs.active h.own_locked id).symm
  mailboxes_locked := fun b hb => hs.holding (h.mailboxes_locked b hb)
  mailbox_rows := fun b hb =>
    hs.same _ (h.mailboxes_locked b hb).ne_none b (h.mailbox_rows b hb)
  mailboxes_nodup := h.mailboxes_nodup
  mailbox_ids := h.mailbox_ids

theorem safe_lock_destination_mailboxes (hi : Inv sec w) (hid : w.pending t = id)
    {principal : Principal} {other_user_id : UUID} {supplied : List UUID}
    {Q : List DeviceMailbox × List (UUID × UUID) → World → Prop} {Z : PyError → World → Prop}
    (h : ∀ mailboxes device_users w', Since sec t w w' → w'.pending t = w.pending t →
      Destinations t principal other_user_id mailboxes device_users w' →
      Q (mailboxes, device_users) w')
    (hz : ∀ x w', Since sec t w w' → Z x w') :
    Tx sec t (lock_destination_mailboxes principal other_user_id supplied) Q Z w := by
  unfold lock_destination_mailboxes
  refine Safe.bind (safe_lock_device_sets _ hi hid (fun w₁ hs₁ hp₁ hlocked => ?_) hz)
  have hother := hlocked other_user_id (mem_sortedPair.mpr (Or.inl rfl))
  have hown := hlocked principal.user_id (mem_sortedPair.mpr (Or.inr rfl))
  refine Safe.bind (safe_query fun w₂ hs₂ hp₂ => ?_)
  have hid₂ : w₂.pending t = id := (hp₂.trans hp₁).trans hid
  rw [hid₂]
  split
  · exact hz _ w₂ (hs₁.trans hs₂)
  rename_i heligible
  refine Safe.bind (safe_query fun w₃ hs₃ hp₃ => ?_)
  have hid₃ : w₃.pending t = id := hp₃.trans hid₂
  rw [hid₃]
  have hs := (hs₁.trans hs₂).trans hs₃
  split
  · exact hz _ w₃ hs
  rename_i hsender
  dsimp only [id]
  split
  · exact hz _ w₃ hs
  refine Safe.bind (safe_lock_mailboxes hid₃ (fun mailboxes w₄ hs₄ hp₄ hrows hnodup => ?_)
    fun w₄ hs₄ => hz _ w₄ (hs.trans hs₄))
  split
  · exact hz _ w₄ (hs.trans hs₄)
  rename_i hsame
  simp only [Bool.not_eq_true, Bool.not_eq_false'] at hsame
  -- the sets read at `w₂` and `w₃` are those of `w₄`
  have hactive₂ : ∀ id, Active w₄.db other_user_id id ↔ Active w₂.db other_user_id id :=
    (hs₃.trans hs₄).active (hs₂.holding hother)
  have hactive₃ : ∀ id, Active w₄.db principal.user_id id ↔ Active w₃.db principal.user_id id :=
    hs₄.active ((hs₂.trans hs₃).holding hown)
  refine h _ _ w₄ (hs.trans hs₄) (hp₄.trans (hid₃.trans hid.symm)) ?_
  refine ⟨((hs₂.trans hs₃).trans hs₄).holding hother, ((hs₂.trans hs₃).trans hs₄).holding hown,
    ?_, ?_, ?_, fun b hb => (hrows b hb).1, fun b hb => (hrows b hb).2, hnodup,
    sameSet_iff.mp hsame⟩
  · rw [hactive₃, active_iff]
    simpa using hsender
  · cases hlist : w₂.db.activeDevices other_user_id with
    | nil =>
        simp [hlist] at heligible
    | cons d rest =>
        refine ⟨d.id, (hactive₂ d.id).mpr (active_iff.mpr ⟨d, ?_, rfl⟩)⟩
        rw [hlist]
        exact List.mem_cons_self
  · intro id user_id
    rw [mem_recipients]
    refine and_congr_right fun _ => ?_
    constructor
    · rintro (⟨rfl, ha⟩ | ⟨rfl, ha⟩)
      · exact ⟨Or.inl rfl, (hactive₂ id).mpr ha⟩
      · exact ⟨Or.inr rfl, (hactive₃ id).mpr ha⟩
    · rintro ⟨rfl | rfl, ha⟩
      · exact Or.inl ⟨rfl, (hactive₂ id).mp ha⟩
      · exact Or.inr ⟨rfl, (hactive₃ id).mp ha⟩

/-- What a send has read is accepted at any later moment of its transaction. -/
def Destinations.accepted {principal : Principal} {request : SendMessageRequest}
    {other_user_id id : UUID} {now : Instant} {chat : Chat} {mailboxes : List DeviceMailbox}
    {device_users : List (UUID × UUID)} {envelopes : List Envelope}
    (h : Destinations t principal other_user_id mailboxes device_users w)
    (hother : w.db.otherUserId principal.user_id request.chat_id = some other_user_id)
    (hchat : row (·.id) request.chat_id w.db.chats = some chat)
    (hcreated : List.Forall₂ (Created (newMessage id principal request chat now) device_users)
      mailboxes envelopes) : Accepted principal request w.db where
  other_user_id := other_user_id
  chat := chat
  mailboxes := mailboxes
  device_users := device_users
  message := newMessage id principal request chat now
  envelopes := envelopes
  other := hother
  chat_row := hchat
  sender_active := h.sender_active
  peer_active := h.peer_active
  recipients := h.recipients
  mailbox_rows := h.mailbox_rows
  mailboxes_nodup := h.mailboxes_nodup
  mailbox_ids := h.mailbox_ids
  created := hcreated
  message_eq := ⟨id, now, rfl⟩

/-- The message a send has stored is the one it returns. -/
theorem Accepted.returned {principal : Principal} {request : SendMessageRequest} {db : Db}
    (hw : Wf db) (a : Accepted principal request db) (hu : a.store.uniqueKeys) :
    Returned principal.device_id request.client_message_id ⟨a.message, a.envelopes⟩ a.store := by
  obtain ⟨id, now, hm⟩ := a.message_eq
  refine ⟨by simp [store_messages], by rw [hm]; rfl, by rw [hm]; rfl, ?_⟩
  have hnew : a.message.id ∉ db.messages.map (·.id) := by
    have hn := hu.messages
    rw [store_messages, List.map_append, List.nodup_append] at hn
    exact fun hmem => hn.2.2 _ hmem a.message.id (by simp) rfl
  have hold : (db.envelopes.filter fun e => decide (e.message_id = a.message.id)) = [] := by
    refine List.filter_eq_nil_iff.mpr fun e he => ?_
    simp only [decide_eq_true_eq]
    intro heq
    exact hnew (heq ▸ hw.envelope_message e he)
  have hall : (a.envelopes.filter fun e => decide (e.message_id = a.message.id)) = a.envelopes := by
    refine List.filter_eq_self.mpr fun e he => ?_
    obtain ⟨b, -, hc⟩ := created_of_mem a.created he
    simp [hc.message_id]
  unfold envelopeIds
  rw [store_envelopes, List.filter_append, hold, hall]
  exact List.Perm.refl _

theorem committable_store {principal : Principal} {request : SendMessageRequest}
    (hop : w.op t = some (.send principal request)) (hout : w.outcome t = none)
    (a : Accepted principal request w.db) (hp : w.pending t w.db = a.store)
    (hchat : Holding w t (.chat a.chat.id) .update)
    (hmailboxes : ∀ b ∈ a.mailboxes, Holding w t (.mailbox b.device_id) .update) :
    Committable sec t w := by
  refine ⟨⟨_, hop, ?_⟩, fun r hr => ?_, fun h hk => ?_, hout⟩
  · rw [hp]
    exact Effect.send a
  · rw [hp]
    refine same_store a ?_ ?_
    · rintro rfl
      exact hr hchat
    · rintro b hb rfl
      exact hr (hmailboxes b hb)
  · rw [hp] at hk
    exact Or.inl hk

theorem safe_storeAndPublish {principal : Principal} {request : SendMessageRequest}
    (hb : Begun sec t (.send principal request) w) {other_user_id id : UUID} {now : Instant}
    {chat : Chat} {mailboxes : List DeviceMailbox} {device_users : List (UUID × UUID)}
    {envelopes : List Envelope}
    (hdest : Destinations t principal other_user_id mailboxes device_users w)
    (hother : w.db.otherUserId principal.user_id request.chat_id = some other_user_id)
    (hchat : row (·.id) request.chat_id w.db.chats = some chat)
    (hlocked : Holding w t (.chat chat.id) .update)
    (hcreated : List.Forall₂ (Created (newMessage id principal request chat now) device_users)
      mailboxes envelopes)
    {Q : StoredMessage → World → Prop} {Z : PyError → World → Prop}
    (h : ∀ m w', Begun sec t (.send principal request) w' →
      Returned principal.device_id request.client_message_id m w'.db → Q m w')
    (hz : ∀ x w', Inv sec w' → w'.op t = w.op t → w'.outcome t = w.outcome t →
      commitsOf t w' = commitsOf t w → Z x w') :
    Tx sec t (storeAndPublish principal request chat (newMessage id principal request chat now)
      mailboxes envelopes) Q Z w := by
  have accept : ∀ w', Since sec t w w' → ∃ a : Accepted principal request w'.db,
      a.store = storeMessage chat (newMessage id principal request chat now) mailboxes
        envelopes w'.db ∧ a.chat = chat ∧ a.mailboxes = mailboxes ∧
      a.message = newMessage id principal request chat now ∧ a.envelopes = envelopes := by
    intro w' hs
    have hrow : row (·.id) request.chat_id w'.db.chats = some chat := by
      have hkey : chat.id = request.chat_id := row_key hchat
      have := (hs.same _ hlocked.ne_none).1 chat
      rw [hkey] at this
      exact this hchat
    exact ⟨(hdest.since hs).accepted (hs.grow.db.others _ _ _ hother) hrow hcreated,
      rfl, rfl, rfl, rfl, rfl⟩
  unfold storeAndPublish
  refine Safe.bind (safe_write fun w₁ hs₁ hp₁ => ?_)
  have hpend : w₁.pending t = storeMessage chat (newMessage id principal request chat now)
      mailboxes envelopes := by
    rw [hp₁, hb.pending]
    rfl
  refine Safe.bind (Safe.attempt (safe_commit (fun w₂ hs₂ hp₂ hu => ?_)
    (fun w₂ hs₂ hp₂ hu hi => ?_) (fun w₂ hs₂ hp₂ hu => ?_) fun w₂ hs₂ => ?_))
  · have hs := hs₁.trans hs₂
    obtain ⟨a, hstore, hac, hamb, -, -⟩ := accept w₂ hs
    refine committable_store (hs.op.trans hb.op) (hs.outcome.trans hb.outcome) a ?_ ?_ ?_
    · rw [hp₂, hpend, hstore]
    · rw [hac]
      exact hs.holding hlocked
    · rw [hamb]
      exact (hdest.since hs).mailboxes_locked
  · have hs := hs₁.trans hs₂
    obtain ⟨a, hstore, -, -, ham, hae⟩ := accept w₂ hs
    have hafter : w₂.pending t w₂.db = a.store := by rw [hp₂, hpend, hstore]
    have hret := a.returned hs.inv.wf (hafter ▸ hu)
    rw [ham, hae] at hret
    have hb' := hb.commit hs hi (by rw [hafter]; exact grows_store a (hafter ▸ hu))
    refine Safe.bind (safe_publishAll _ hi hb'.outcome
      (fun d _ => mayPublish_of_op hb'.op (by simp) d) fun w₃ hs₃ hp₃ _ => ?_)
    refine h _ w₃ (hb'.since hs₃ hp₃) ((?_ : Returned _ _ _ (w₂.commit t).db).grow hs₃.grow.db)
    show Returned _ _ _ (w₂.pending t w₂.db)
    rw [hafter]
    exact hret
  · -- the unique key was violated: another send has stored the message
    have hs := hs₁.trans hs₂
    refine Safe.bind (safe_rollback fun w₃ hs₃ => ?_)
    have hb' := hb.close (hs.trans hs₃)
    refine Safe.bind (safe_get_message_by_client_id hb'.pending (fun w₄ hs₄ hp₄ _ => ?_)
      fun m w₄ hs₄ hp₄ hm => ?_)
    · exact hz _ w₄ hs₄.inv (hs₄.op.trans (hs.trans hs₃).op)
        (hs₄.outcome.trans (hs.trans hs₃).outcome)
        (hs₄.commits.trans (hs.trans hs₃).commits)
    · exact h m w₄ (hb'.since hs₄ hp₄) hm
  · have hs := hs₁.trans hs₂
    exact hz _ w₂ hs.inv hs.op hs.outcome hs.commits

theorem safe_sendLocked {principal : Principal} {request : SendMessageRequest}
    (hb : Begun sec t (.send principal request) w) {other_user_id : UUID}
    {supplied : List Supplied} {chat : Chat}
    (hother : w.db.otherUserId principal.user_id request.chat_id = some other_user_id)
    (hchat : row (·.id) request.chat_id w.db.chats = some chat)
    (hlocked : Holding w t (.chat chat.id) .update)
    {Q : StoredMessage → World → Prop} {Z : PyError → World → Prop}
    (h : ∀ m w', Begun sec t (.send principal request) w' →
      Returned principal.device_id request.client_message_id m w'.db → Q m w')
    (hz : ∀ x w', Inv sec w' → w'.op t = w.op t → w'.outcome t = w.outcome t →
      commitsOf t w' = commitsOf t w → Z x w') :
    Tx sec t (sendLocked principal request other_user_id supplied chat) Q Z w := by
  have hz' : ∀ x w', Since sec t w w' → Z x w' :=
    fun x w' hs => hz x w' hs.inv hs.op hs.outcome hs.commits
  unfold sendLocked
  refine Safe.bind (safe_get_message_by_client_id hb.pending (fun w₁ hs₁ hp₁ _ => ?_)
    fun m w₁ hs₁ hp₁ hm => ?_)
  · refine Safe.bind (safe_lock_destination_mailboxes hs₁.inv (hp₁.trans hb.pending)
      (fun mailboxes device_users w₂ hs₂ hp₂ hdest => ?_)
      fun x w₂ hs₂ => hz' x w₂ (hs₁.trans hs₂))
    refine Safe.bind (safe_now fun now w₃ hs₃ hp₃ => ?_)
    refine Safe.bind (safe_uuid4 fun id w₄ hs₄ hp₄ => ?_)
    have hs₂' := ((hs₁.trans hs₂).trans hs₃).trans hs₄
    refine Safe.bind (safe_create_envelopes mailboxes hs₄.inv
      (fun envelopes w₅ hs₅ hp₅ hcreated => ?_) fun x w₅ hs₅ => hz' x w₅ (hs₂'.trans hs₅))
    have hs := hs₂'.trans hs₅
    have hp : w₅.pending t = w.pending t :=
      (((hp₅.trans hp₄).trans hp₃).trans hp₂).trans hp₁
    have hrow : row (·.id) request.chat_id w₅.db.chats = some chat := by
      have hkey : chat.id = request.chat_id := row_key hchat
      have := (hs.same _ hlocked.ne_none).1 chat
      rw [hkey] at this
      exact this hchat
    refine safe_storeAndPublish (hb.since hs hp)
      (hdest.since ((hs₃.trans hs₄).trans hs₅)) (hs.grow.db.others _ _ _ hother)
      hrow (hs.holding hlocked) hcreated h fun x w' hi' hop hout hcommits => ?_
    exact hz x w' hi' (hop.trans hs.op) (hout.trans hs.outcome) (hcommits.trans hs.commits)
  · refine Safe.bind (safe_commit (fun w₂ hs₂ hp₂ _ => ?_) (fun w₂ hs₂ hp₂ _ hi => ?_)
      (fun w₂ hs₂ _ _ => hz' _ w₂ (hs₁.trans hs₂)) fun w₂ hs₂ => hz' _ w₂ (hs₁.trans hs₂))
    · exact committable_nothing ((hs₁.trans hs₂).op.trans hb.op)
        ((hs₁.trans hs₂).outcome.trans hb.outcome) ((hp₂.trans hp₁).trans hb.pending)
    · have hid : w₂.pending t = id := (hp₂.trans hp₁).trans hb.pending
      have hg : Grows w₂.db (w₂.pending t w₂.db) := by
        rw [hid]
        exact Grows.refl _
      exact h m _ (hb.commit (hs₁.trans hs₂) hi hg) ((hm.grow hs₂.grow.db).grow hg)

theorem safe_send {principal : Principal} {request : SendMessageRequest}
    (hb : Begun sec t (.send principal request) w) (hnew : commitsOf t w = []) :
    Tx sec t (send principal request)
      (fun r w' => Ended sec t (.send principal request) (.ok (.stored r)) w')
      (fun x w' => Ended sec t (.send principal request) (.error x) w') w := by
  have h : ∀ m w', Begun sec t (.send principal request) w' →
      Returned principal.device_id request.client_message_id m w'.db →
      Ended sec t (.send principal request) (.ok (.stored m)) w' :=
    fun m w' hb' hm => ⟨hb'.inv, hm, hb'.op, hb'.outcome⟩
  have hz : ∀ x w', Since sec t w w' → Ended sec t (.send principal request) (.error x) w' :=
    fun x w' hs => ⟨hs.inv, hs.commits.trans hnew, hs.op.trans hb.op, hs.outcome.trans hb.outcome⟩
  unfold send
  refine Safe.bind (safe_lookup hb rfl principal request.client_message_id
    (fun w₁ hs₁ hp₁ => ?_) h hz)
  refine Safe.bind (safe_query fun w₂ hs₂ hp₂ => ?_)
  have hid₂ : w₂.pending t = id := (hp₂.trans hp₁).trans hb.pending
  rw [hid₂]
  split
  · exact hz _ w₂ (hs₁.trans hs₂)
  rename_i other_user_id hother
  cases validate_envelopes [] request.envelopes with
  | error x =>
      exact hz x w₂ (hs₁.trans hs₂)
  | ok supplied =>
      refine Safe.bind (α := List Supplied) ?_
      refine Safe.bind (safe_selectLocked (fun w₃ hs₃ _ _ => ?_) (fun chat w₃ hs₃ hp₃ hh hc => ?_)
        fun w₃ hs₃ => hz _ w₃ ((hs₁.trans hs₂).trans hs₃))
      · exact hz _ w₃ ((hs₁.trans hs₂).trans hs₃)
      · have hs := (hs₁.trans hs₂).trans hs₃
        rw [hp₃, hid₂] at hc
        refine safe_sendLocked (hb.since hs ((hp₃.trans hp₂).trans hp₁))
          (hs₃.grow.db.others _ _ _ hother)
          (chatFor_row hs₃.inv.wf.unique hc) hh h fun x w' hi' hop hout hcommits => ?_
        exact ⟨hi', hcommits.trans (hs.commits.trans hnew), (hop.trans hs.op).trans hb.op,
          (hout.trans hs.outcome).trans hb.outcome⟩

theorem safe_lookup_request {principal : Principal} {client_message_id : UUID}
    (hb : Begun sec t (.lookup principal client_message_id) w) :
    Tx sec t (lookup principal client_message_id)
      (fun r w' => Ended sec t (.lookup principal client_message_id) (.ok (.found r)) w')
      (fun x w' => Ended sec t (.lookup principal client_message_id) (.error x) w') w :=
  safe_lookup hb rfl principal client_message_id
    (fun _ hs _ => hb.ended hs fun _ _ _ _ => trivial)
    (fun _ _ hb' hm => ⟨hb'.inv, hm, hb'.op, hb'.outcome⟩)
    (fun _ _ hs => hb.ended hs fun _ _ _ _ => trivial)

theorem safe_sent_page {principal : Principal} {after_message_id : Option UUID} {limit : Nat}
    {unread_only : Bool}
    (hb : Begun sec t (.sentPage principal after_message_id limit unread_only) w) :
    Tx sec t (sent_page principal after_message_id limit unread_only)
      (fun r w' => Ended sec t (.sentPage principal after_message_id limit unread_only)
        (.ok (.sentMessages r)) w')
      (fun x w' => Ended sec t (.sentPage principal after_message_id limit unread_only)
        (.error x) w') w := by
  unfold sent_page
  refine Safe.bind (safe_query fun w₁ hs₁ hp₁ => ?_)
  refine Safe.bind (safe_query fun w₂ hs₂ hp₂ => ?_)
  have hs := hs₁.trans hs₂
  have hid : w₁.pending t = id := hp₁.trans hb.pending
  rw [hid]
  refine ⟨hs.inv, ⟨_, w₁.db, rfl, ?_, hs₂.grow.db, hs₁.inv.wf, ?_, rfl, rfl⟩,
    hs.op.trans hb.op, hs.outcome.trans hb.outcome⟩
  · rw [hs.began]
    exact hb.began.trans hs₁.grow.db
  · rw [List.map_map]
    exact List.map_id _

end Transactions

end Server
end SecureMessenger
