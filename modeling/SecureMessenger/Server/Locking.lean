import SecureMessenger.Server.Effects

/-!
# Row locks

`Same r` says that the rows lock `r` protects are unchanged.  The discipline
of the server is two-phase locking: a transaction commits changes only to rows
it has locked for update, so whatever another transaction has read under a
lock stays true until that one ends.

`Since t w w'` collects what thread `t` knows while its transaction is open:
the rows it has locked are the same in `w'` as in `w`.
-/

namespace SecureMessenger
namespace Server

open Lib
open Lib.Discipline

/-- The rows that the lock protects have not changed. -/
def Same : Resource → Db → Db → Prop
  | .chat id, db, db' =>
      (∀ c, row (·.id) id db.chats = some c → row (·.id) id db'.chats = some c) ∧
        ∀ user_id, db'.readState id user_id = db.readState id user_id
  | .user id, db, db' =>
      (∀ d, Active db' id d ↔ Active db id d) ∧ ∀ s, SessionOf db' id s ↔ SessionOf db id s
  | .mailbox id, db, db' => ∀ b, row (·.device_id) id db.mailboxes = some b →
      row (·.device_id) id db'.mailboxes = some b
  | .session id, db, db' => ∀ s, row (·.id) id db.sessions = some s →
      row (·.id) id db'.sessions = some s ∧
        (s.revoked_at = none → ¬DeviceRevoked db s.device_id → ¬DeviceRevoked db' s.device_id)
  | .envelope _, _, _ => True
  | .device _, _, _ => True

theorem Same.refl (r : Resource) (db : Db) : Same r db db := by
  cases r with
  | chat id =>
      exact ⟨fun _ h => h, fun _ => rfl⟩
  | user id =>
      exact ⟨fun _ => Iff.rfl, fun _ => Iff.rfl⟩
  | mailbox id =>
      exact fun _ h => h
  | session id =>
      exact fun _ h => ⟨h, fun _ h' => h'⟩
  | envelope id =>
      trivial
  | device id =>
      trivial

theorem Same.trans {r : Resource} {db₁ db₂ db₃ : Db} (h : Same r db₁ db₂)
    (h' : Same r db₂ db₃) : Same r db₁ db₃ := by
  cases r with
  | chat id =>
      exact ⟨fun c hc => h'.1 c (h.1 c hc), fun user_id => (h'.2 user_id).trans (h.2 user_id)⟩
  | user id =>
      exact ⟨fun d => (h'.1 d).trans (h.1 d), fun s => (h'.2 s).trans (h.2 s)⟩
  | mailbox id =>
      exact fun b hb => h' b (h b hb)
  | session id =>
      intro s hs
      obtain ⟨hs₂, hd₂⟩ := h s hs
      obtain ⟨hs₃, hd₃⟩ := h' s hs₂
      exact ⟨hs₃, fun hr hd => hd₃ hr (hd₂ hr hd)⟩
  | envelope id =>
      trivial
  | device id =>
      trivial

/-- The commits of a request. -/
def commitsOf (t : Tid) (w : World) : List Commit :=
  w.history.filter fun c => decide (c.tid = t)

/-- The stored message is the one in the database, with its envelopes. -/
structure Returned (device_id client_message_id : UUID) (m : StoredMessage) (db : Db) : Prop where
  message : m.message ∈ db.messages
  device : m.message.sender_device_id = device_id
  client_id : m.message.client_message_id = client_message_id
  envelopes : (m.envelopes.map (·.id)).Perm (envelopeIds m.message.id db)

theorem Returned.grow {device_id id : UUID} {m : StoredMessage} {db db' : Db}
    (h : Returned device_id id m db) (hg : Grows db db') : Returned device_id id m db' := by
  refine ⟨hg.messages _ h.message, h.device, h.client_id, ?_⟩
  rw [hg.envelopes _ h.message]
  exact h.envelopes

section Discipline

variable (sec : Security)

/-- The commit exchanged the token for the tokens returned. -/
structure Rotated (refresh_token : String) (tokens : IssuedTokens) (c : Commit) : Prop where
  current : ∃ s ∈ c.before.sessions, s.id = tokens.session_id ∧
    s.refresh_token_hash = sec.hash_refresh_token refresh_token
  active : ¬Revoked c.before tokens.session_id
  consumed : Consumed c.after (sec.hash_refresh_token refresh_token) tokens.session_id

/-- The commit raised the position of the user in the chat. -/
def Raised (user_id chat_id : UUID) (c : Commit) : Prop :=
  c.before.lastReadSeq chat_id user_id < c.after.lastReadSeq chat_id user_id

/-- The device belongs to one of the two users of the chat and was active
before the commit. -/
def Informed (began : Db) (user_id chat_id device_id : UUID) (c : Commit) : Prop :=
  ∃ db, Grows began db ∧ Grows db c.before ∧ ∃ d user_id',
    d ∈ db.activeDevices user_id' ∧ d.id = device_id ∧
      (user_id' = user_id ∨ c.before.otherUserId user_id chat_id = some user_id')

/-- An advance has been confirmed: the position it returns, and whom it has
told. -/
structure Confirmed (own : List Commit) (published : List UUID) (began db : Db)
    (user_id chat_id : UUID) (last_read_seq : Int) (state : ReadState) : Prop where
  chat : state.chat_id = chat_id
  user : state.user_id = user_id
  requested : last_read_seq ≤ state.last_read_seq
  stored : state.last_read_seq ≤ db.lastReadSeq chat_id user_id
  informed : ∀ c ∈ own, Raised user_id chat_id c → ∀ other_user_id,
    c.before.otherUserId user_id chat_id = some other_user_id →
      ∃ db₁ db₂, Grows began db₁ ∧ Grows db₁ db₂ ∧ Grows db₂ c.before ∧
        (∀ d ∈ db₁.activeDevices user_id, d.id ∈ published) ∧
        ∀ d ∈ db₂.activeDevices other_user_id, d.id ∈ published

/-- The page is what the query finds in the database. -/
structure SentFrom (user_id : UUID) (after_message_id : Option UUID) (limit : Nat)
    (unread_only : Bool) (page : SentMessagesPage) (db : Db) : Prop where
  messages : page.messages.map (·.message) =
    (db.sentRows user_id after_message_id limit unread_only).take limit
  next : page.next_message_id =
    (((db.sentRows user_id after_message_id limit unread_only).take limit).getLast?.map (·.id)).or
      after_message_id
  more : page.has_more =
    decide ((db.sentRows user_id after_message_id limit unread_only).length > limit)

/-- The chats of the page are those of the query, with the members and the
positions of later moments. -/
structure StatesFrom (user_id : UUID) (after_chat_id : Option UUID) (limit : Nat)
    (page : ChatStatesPage) (db₀ db₁ db₂ : Db) : Prop where
  states : page.states = ((db₀.chatRows user_id after_chat_id limit).take limit).map fun c =>
    chatState c (db₁.membersOf c.id) db₂.readStates
  next : page.next_chat_id =
    (((db₀.chatRows user_id after_chat_id limit).take limit).getLast?.map (·.id)).or after_chat_id
  more : page.has_more = decide ((db₀.chatRows user_id after_chat_id limit).length > limit)

/-- The view is that of the chat of the pair. -/
def ChatOfPair (requester_id target_user_id : Uuid) (view : DirectChatView) (db : Db) : Prop :=
  ∃ p ∈ db.pairs, p.chat_id = view.chat.id ∧
    canonical_user_pair requester_id target_user_id = .ok (p.user_low_id, p.user_high_id)

/-- What the outcome of a request says about its commits, the devices it has
published to, the database when it began and the database since it ended. -/
def Outcome (own : List Commit) (published : List UUID) (began db : Db) :
    Op → Except PyError Result → Prop
  | .send _ _, .error _ => own = []
  | .send principal request, .ok (.stored m) =>
      Returned principal.device_id request.client_message_id m db
  | .lookup principal client_message_id, .ok (.found (some m)) =>
      Returned principal.device_id client_message_id m db
  | .refresh token, o =>
      (∀ tokens, o = .ok (.tokens tokens) → ∃ c ∈ own, Rotated sec token tokens c) ∧
        (sec.Distinct → o ≠ .error .database →
          ∀ id, Consumed began (sec.hash_refresh_token token) id → SessionRevoked db id)
  | .logout token, o =>
      sec.Distinct → o ≠ .error .database →
        ∀ id, Consumed began (sec.hash_refresh_token token) id → SessionRevoked db id
  | .authenticate claims, .ok (.principal _) =>
      ∃ db₀, Grows began db₀ ∧ ¬Revoked db₀ claims.session_id
  | .advance _ _ _, .error _ => own = []
  | .advance principal chat_id last_read_seq, .ok r =>
      ∃ state, r = .readState state ∧
        Confirmed own published began db principal.user_id chat_id last_read_seq state
  | .openDirectChat requester_id target_user_id, o =>
      (requester_id = target_user_id → own = [] ∧ o = .error .selfChat) ∧
        ∀ r, o = .ok r → ∃ view, r = .chat view ∧ ChatOfPair requester_id target_user_id view db
  | .sentPage principal after limit unread_only, .ok r =>
      ∃ page db₀, r = .sentMessages page ∧ Grows began db₀ ∧ Grows db₀ db ∧ Wf db₀ ∧
        SentFrom principal.user_id after limit unread_only page db₀
  | .chatStates principal after limit, .ok r =>
      ∃ page db₀ db₁ db₂, r = .chatStates page ∧ Grows began db₀ ∧ Grows db₀ db₁ ∧
        Grows db₁ db₂ ∧ Grows db₂ db ∧ Wf db₀ ∧ Wf db₂ ∧
        StatesFrom principal.user_id after limit page db₀ db₁ db₂
  | _, _ => True

theorem Outcome.grow {sec : Security} {own : List Commit} {published : List UUID}
    {began db db' : Db} {op : Op} {o : Except PyError Result}
    (h : Outcome sec own published began db op o) (hg : Grows db db') :
    Outcome sec own published began db' op o := by
  unfold Outcome at h ⊢
  split
  · exact h
  · exact Returned.grow h hg
  · exact Returned.grow h hg
  · exact ⟨h.1, fun hd ho id hc => hg.sessionRevoked (h.2 hd ho id hc)⟩
  · exact fun hd ho id hc => hg.sessionRevoked (h hd ho id hc)
  · exact h
  · exact h
  · obtain ⟨state, hr, hc⟩ := h
    exact ⟨state, hr, { hc with stored := hc.stored.trans (hg.reads _ _) }⟩
  · refine ⟨h.1, fun r hr => ?_⟩
    obtain ⟨view, rfl, p, hp, hpair⟩ := h.2 r hr
    exact ⟨view, rfl, p, hg.pairs p hp, hpair⟩
  · obtain ⟨page, db₀, hr, h₀, h₁, hrest⟩ := h
    exact ⟨page, db₀, hr, h₀, h₁.trans hg, hrest⟩
  · obtain ⟨page, db₀, db₁, db₂, hr, h₀, h₁, h₂, h₃, hrest⟩ := h
    exact ⟨page, db₀, db₁, db₂, hr, h₀, h₁, h₂, h₃.trans hg, hrest⟩
  · trivial

/-- More may be published. -/
theorem Outcome.tell {sec : Security} {own : List Commit} {published published' : List UUID}
    {began db : Db} {op : Op} {o : Except PyError Result}
    (h : Outcome sec own published began db op o) (hp : ∀ d ∈ published, d ∈ published') :
    Outcome sec own published' began db op o := by
  unfold Outcome at h ⊢
  split
  · exact h
  · exact h
  · exact h
  · exact h
  · exact h
  · exact h
  · exact h
  · obtain ⟨state, hr, hc⟩ := h
    refine ⟨state, hr, { hc with informed := fun c hmem hraised other hother => ?_ }⟩
    obtain ⟨db₁, db₂, h₁, h₂, h₃, hown, hpeer⟩ := hc.informed c hmem hraised other hother
    exact ⟨db₁, db₂, h₁, h₂, h₃, fun d hd => hp _ (hown d hd), fun d hd => hp _ (hpeer d hd)⟩
  · exact h
  · exact h
  · exact h
  · trivial

/-- The invariant of the server. -/
structure Inv (w : World) : Prop where
  wf : Wf w.db
  locks : ∀ t u r, t ≠ u → w.held t r = some .update → w.held u r = none
  commits : ∀ c ∈ w.history, ∃ op, w.op c.tid = some op ∧ Effect sec op c.before c.after ∧
    Wf c.before ∧ Wf c.after ∧ (sec.Distinct → Rotation c.before) ∧ Grows c.after w.db
  order : w.history.Pairwise fun c c' => Grows c'.after c.before
  chain : w.history.IsChain fun c c' => c'.after = c.before
  last : ∀ c ∈ w.history.head?, c.after = w.db
  outcomes : ∀ t o, w.outcome t = some o → ∃ op, w.op t = some op ∧
    Outcome sec (commitsOf t w) (w.published t) (w.began t) w.db op o
  published : ∀ t principal chat_id last_read_seq,
    w.op t = some (.advance principal chat_id last_read_seq) → ∀ d ∈ w.published t,
      ∃ c ∈ commitsOf t w, Raised principal.user_id chat_id c ∧
        Informed (w.began t) principal.user_id chat_id d c
  rotation : sec.Distinct → Rotation w.db
  known : ∀ h, HashKnown w.db h → ∃ token ∈ w.issued, sec.hash_refresh_token token = h
  issued : ∀ token ∈ w.issued, token ∈ sec.tokens
  drawn : ∀ t, ∀ token ∈ w.drawn t, token ∈ w.issued
  owner : ∀ t u token, token ∈ w.drawn t → token ∈ w.drawn u → t = u

/-- What every step respects. -/
structure World.Grows (w w' : World) : Prop where
  db : Server.Grows w.db w'.db
  history : ∃ new, w'.history = new ++ w.history ∧ ∀ c ∈ new, Server.Grows w.db c.before
  started : ∀ t op, w.op t = some op → w'.op t = some op ∧ w'.began t = w.began t
  starts : ∀ t op, w.op t = none → w'.op t = some op → Server.Grows w.db (w'.began t)

/-- What the steps of other threads leave to thread `t`. -/
structure World.Own (t : Tid) (w w' : World) : Prop where
  held : w'.held t = w.held t
  pending : w'.pending t = w.pending t
  op : w'.op t = w.op t
  began : w'.began t = w.began t
  outcome : w'.outcome t = w.outcome t
  published : w'.published t = w.published t
  drawn : w'.drawn t = w.drawn t
  commits : commitsOf t w' = commitsOf t w
  same : ∀ r, w.held t r ≠ none → Same r w.db w'.db
  fresh : sec.Distinct → ∀ token ∈ w.drawn t,
    HashKnown w'.db (sec.hash_refresh_token token) → HashKnown w.db (sec.hash_refresh_token token)

/-- The thread has not been started. -/
structure World.Idle (t : Tid) (w : World) : Prop where
  held : w.held t = fun _ => none
  pending : w.pending t = id
  op : w.op t = none
  outcome : w.outcome t = none
  published : w.published t = []
  drawn : w.drawn t = []
  commits : commitsOf t w = []

theorem World.Grows.refl (w : World) : World.Grows w w :=
  ⟨Server.Grows.refl _, ⟨[], rfl, fun _ h => by cases h⟩, fun _ _ h => ⟨h, rfl⟩,
    fun _ _ h h' => by rw [h] at h'; cases h'⟩

theorem World.Grows.trans {w₁ w₂ w₃ : World} (h : World.Grows w₁ w₂) (h' : World.Grows w₂ w₃) :
    World.Grows w₁ w₃ := by
  constructor
  · exact h.db.trans h'.db
  · obtain ⟨new, he, hn⟩ := h.history
    obtain ⟨new', he', hn'⟩ := h'.history
    refine ⟨new' ++ new, by rw [he', he, List.append_assoc], fun c hc => ?_⟩
    rcases List.mem_append.mp hc with hc | hc
    · exact h.db.trans (hn' c hc)
    · exact hn c hc
  · intro t op hop
    obtain ⟨hop₂, hb₂⟩ := h.started t op hop
    obtain ⟨hop₃, hb₃⟩ := h'.started t op hop₂
    exact ⟨hop₃, hb₃.trans hb₂⟩
  · intro t op hnone hop₃
    cases hop₂ : w₂.op t with
    | none =>
        exact h.db.trans (h'.starts t op hop₂ hop₃)
    | some op₂ =>
        rw [(h'.started t op₂ hop₂).2]
        exact h.starts t op₂ hnone hop₂

variable {sec} in
theorem World.Own.trans {t : Tid} {w₁ w₂ w₃ : World} (h : World.Own sec t w₁ w₂)
    (h' : World.Own sec t w₂ w₃) : World.Own sec t w₁ w₃ where
  held := h'.held.trans h.held
  pending := h'.pending.trans h.pending
  op := h'.op.trans h.op
  began := h'.began.trans h.began
  outcome := h'.outcome.trans h.outcome
  published := h'.published.trans h.published
  drawn := h'.drawn.trans h.drawn
  commits := h'.commits.trans h.commits
  same := fun r hr => (h.same r hr).trans (h'.same r (by rw [h.held]; exact hr))
  fresh := fun hd token ht hk =>
    h.fresh hd token ht (h'.fresh hd token (by rw [h.drawn]; exact ht) hk)

theorem World.Own.refl (t : Tid) (w : World) : World.Own sec t w w :=
  ⟨rfl, rfl, rfl, rfl, rfl, rfl, rfl, rfl, fun r _ => Same.refl r _, fun _ _ _ h => h⟩

/-- Two-phase locking as a discipline. -/
def serverDiscipline : Discipline World where
  inv := Inv sec
  grow := World.Grows
  own := World.Own sec
  idle := World.Idle
  grow_refl := World.Grows.refl
  grow_trans := World.Grows.trans
  own_refl := World.Own.refl sec
  own_trans := World.Own.trans
  idle_drift := fun h _ ho =>
    ⟨ho.held.trans h.held, ho.pending.trans h.pending, ho.op.trans h.op,
      ho.outcome.trans h.outcome, ho.published.trans h.published, ho.drawn.trans h.drawn,
      ho.commits.trans h.commits⟩

end Discipline

section Steps

variable {sec : Security} {t : Tid}

theorem commitsOf_congr {w w' : World} (h : w'.history = w.history) (t : Tid) :
    commitsOf t w' = commitsOf t w := by
  unfold commitsOf
  rw [h]

/-- A step that changes only the locks and the writes of its own thread. -/
structure LocalStep (t : Tid) (w w' : World) : Prop where
  db : w'.db = w.db
  history : w'.history = w.history
  op : w'.op = w.op
  began : w'.began = w.began
  outcome : w'.outcome = w.outcome
  published : w'.published = w.published
  issued : w'.issued = w.issued
  drawn : w'.drawn = w.drawn
  held : ∀ u, u ≠ t → w'.held u = w.held u
  pending : ∀ u, u ≠ t → w'.pending u = w.pending u
  free : ∀ u r, u ≠ t → (w'.held t r = some .update → w.held u r = none) ∧
    (w.held u r = some .update → w'.held t r = none)

theorem LocalStep.inv {w w' : World} (h : LocalStep t w w') (hi : Inv sec w) : Inv sec w' where
  wf := by
    rw [h.db]
    exact hi.wf
  locks := by
    intro u v r huv hu
    by_cases hut : u = t
    · subst hut
      rw [h.held v (Ne.symm huv)]
      exact (h.free v r (Ne.symm huv)).1 hu
    · rw [h.held u hut] at hu
      by_cases hvt : v = t
      · subst hvt
        exact (h.free u r hut).2 hu
      · rw [h.held v hvt]
        exact hi.locks u v r huv hu
  commits := by
    rw [h.history, h.op, h.db]
    exact hi.commits
  order := by
    rw [h.history]
    exact hi.order
  chain := by
    rw [h.history]
    exact hi.chain
  last := by
    rw [h.history, h.db]
    exact hi.last
  outcomes := by
    intro u o ho
    rw [h.outcome] at ho
    rw [h.op, h.began, h.db, h.published, commitsOf_congr h.history]
    exact hi.outcomes u o ho
  published := by
    intro u principal chat_id last_read_seq
    rw [h.op, h.began, h.published, commitsOf_congr h.history]
    exact hi.published u principal chat_id last_read_seq
  rotation := by
    rw [h.db]
    exact hi.rotation
  known := by
    rw [h.db, h.issued]
    exact hi.known
  issued := by
    rw [h.issued]
    exact hi.issued
  drawn := by
    rw [h.drawn, h.issued]
    exact hi.drawn
  owner := by
    rw [h.drawn]
    exact hi.owner

theorem LocalStep.grows {w w' : World} (h : LocalStep t w w') : World.Grows w w' := by
  constructor
  · rw [h.db]
    exact Grows.refl _
  · exact ⟨[], by simp [h.history], fun _ hc => by cases hc⟩
  · intro u op hop
    rw [h.op, h.began]
    exact ⟨hop, rfl⟩
  · intro u op hnone hop
    rw [h.op, hnone] at hop
    cases hop

theorem LocalStep.own {w w' : World} (h : LocalStep t w w') {u : Tid} (hu : u ≠ t) :
    World.Own sec u w w' where
  held := h.held u hu
  pending := h.pending u hu
  op := by rw [h.op]
  began := by rw [h.began]
  outcome := by rw [h.outcome]
  published := by rw [h.published]
  drawn := by rw [h.drawn]
  commits := commitsOf_congr h.history u
  same := by
    intro r _
    rw [h.db]
    exact Same.refl r _
  fresh := by
    intro _ token _ hk
    rw [h.db] at hk
    exact hk

theorem LocalStep.keeps {w w' : World} (h : LocalStep t w w') (hi : Inv sec w) :
    (serverDiscipline sec).Keeps t w w' :=
  ⟨h.inv hi, h.grows, fun _ hu => h.own hu⟩

theorem localStep_grant {w : World} (hi : Inv sec w) {r : Resource} {mode : LockMode}
    (hf : w.free t r mode) : LocalStep t w (w.grant t r mode) := by
  refine ⟨rfl, rfl, rfl, rfl, rfl, rfl, rfl, rfl, fun u hu => by simp [World.grant, hu],
    fun u hu => rfl, fun u r' hu => ?_⟩
  by_cases hr : r' = r
  · subst hr
    obtain ⟨hne, hfree⟩ := hf u hu
    constructor
    · intro hupd
      by_cases hold : w.held t r' = some .update
      · exact hi.locks t u r' (Ne.symm hu) hold
      · simp only [World.grant, Function.update_self, hold, if_false, Option.some.injEq] at hupd
        exact hfree hupd
    · exact fun h => absurd h hne
  · simp only [World.grant, Function.update_self, Function.update_of_ne hr]
    exact ⟨hi.locks t u r' (Ne.symm hu), hi.locks u t r' hu⟩

theorem localStep_close (w : World) : LocalStep t w (w.close t) := by
  refine ⟨rfl, rfl, rfl, rfl, rfl, rfl, rfl, rfl, fun u hu => by simp [World.close, hu],
    fun u hu => by simp [World.close, hu], fun u r hu => ?_⟩
  simp [World.close]

theorem localStep_pending {w : World} (hi : Inv sec w) (f : Db → Db) :
    LocalStep t w { w with pending := Function.update w.pending t f } :=
  ⟨rfl, rfl, rfl, rfl, rfl, rfl, rfl, rfl, fun _ _ => rfl,
    fun u hu => by simp [hu],
    fun u r hu => ⟨hi.locks t u r (Ne.symm hu), hi.locks u t r hu⟩⟩

theorem localStep_uuids {w : World} (hi : Inv sec w) (ids : List UUID) :
    LocalStep t w { w with uuids := ids } :=
  ⟨rfl, rfl, rfl, rfl, rfl, rfl, rfl, rfl, fun _ _ => rfl, fun _ _ => rfl,
    fun u r hu => ⟨hi.locks t u r (Ne.symm hu), hi.locks u t r hu⟩⟩

/-- A fresh token is nowhere in the database yet. -/
theorem fresh_token (hinj : sec.Distinct) {w : World} (hi : Inv sec w) {token : String}
    (hmem : token ∈ sec.tokens) (hnew : token ∉ w.issued) :
    ¬HashKnown w.db (sec.hash_refresh_token token) := by
  intro hk
  obtain ⟨token', hissued, heq⟩ := hi.known _ hk
  have := hinj (hi.issued token' hissued) hmem heq
  subst this
  exact hnew hissued

theorem keeps_draw {w : World} (hi : Inv sec w) {token : String} (hmem : token ∈ sec.tokens)
    (hnew : token ∉ w.issued) : (serverDiscipline sec).Keeps t w (w.draw t token) := by
  refine ⟨⟨hi.wf, hi.locks, hi.commits, hi.order, hi.chain, hi.last, hi.outcomes, hi.published,
    hi.rotation, ?_, ?_, ?_, ?_⟩,
    ⟨Grows.refl _, ⟨[], rfl, fun _ h => by cases h⟩, fun _ _ h => ⟨h, rfl⟩, ?_⟩, fun u hu => ?_⟩
  · intro h hk
    obtain ⟨token', hissued, heq⟩ := hi.known h hk
    exact ⟨token', List.mem_cons_of_mem _ hissued, heq⟩
  · intro token' h
    rcases List.mem_cons.mp h with rfl | h
    · exact hmem
    · exact hi.issued token' h
  · intro u token' h
    by_cases hut : u = t
    · subst hut
      simp only [World.draw, Function.update_self, List.mem_cons] at h
      rcases h with rfl | h
      · exact List.mem_cons_self
      · exact List.mem_cons_of_mem _ (hi.drawn u token' h)
    · simp only [World.draw, Function.update_of_ne hut] at h
      exact List.mem_cons_of_mem _ (hi.drawn u token' h)
  · -- only `t` owns the new token
    have old : ∀ u token', token' ∈ (w.draw t token).drawn u →
        token' ∈ w.drawn u ∨ (token' = token ∧ u = t) := by
      intro u token' h
      by_cases hut : u = t
      · subst hut
        simp only [World.draw, Function.update_self, List.mem_cons] at h
        rcases h with rfl | h
        · exact Or.inr ⟨rfl, rfl⟩
        · exact Or.inl h
      · simp only [World.draw, Function.update_of_ne hut] at h
        exact Or.inl h
    intro u v token' hu hv
    rcases old u token' hu with hu' | ⟨rfl, rfl⟩
    · rcases old v token' hv with hv' | ⟨rfl, rfl⟩
      · exact hi.owner u v token' hu' hv'
      · exact absurd (hi.drawn u _ hu') hnew
    · rcases old v _ hv with hv' | ⟨-, rfl⟩
      · exact absurd (hi.drawn v _ hv') hnew
      · rfl
  · intro u op hnone hop
    simp only [World.draw] at hop
    rw [hnone] at hop
    cases hop
  · exact ⟨rfl, rfl, rfl, rfl, rfl, rfl, by simp [World.draw, hu], rfl, fun r _ => Same.refl r _,
      fun _ _ _ h => h⟩

/-- What a transaction must satisfy when it commits: it has one of the effects
of its request, and it has changed only rows it has locked for update. -/
structure Committable (sec : Security) (t : Tid) (w : World) : Prop where
  effect : ∃ op, w.op t = some op ∧ Effect sec op w.db (w.pending t w.db)
  isolated : ∀ r, w.held t r ≠ some .update → Same r w.db (w.pending t w.db)
  hashes : ∀ h, HashKnown (w.pending t w.db) h →
    HashKnown w.db h ∨ ∃ token ∈ w.drawn t, sec.hash_refresh_token token = h
  outcome : w.outcome t = none

theorem commitsOf_commit_self (w : World) :
    commitsOf t (w.commit t) = ⟨t, w.db, w.pending t w.db⟩ :: commitsOf t w := by
  simp [commitsOf, World.commit]

theorem commitsOf_commit_of_ne (w : World) {u : Tid} (hu : u ≠ t) :
    commitsOf u (w.commit t) = commitsOf u w := by
  simp [commitsOf, World.commit, Ne.symm hu]

/-- **Two-phase locking.**  A committable transaction disturbs no other. -/
theorem keeps_commit {w : World} (hi : Inv sec w) (hc : Committable sec t w)
    (hu : (w.pending t w.db).uniqueKeys) :
    (serverDiscipline sec).Keeps t w (w.commit t) := by
  obtain ⟨op, hop, heffect⟩ := hc.effect
  have hgrows : Grows w.db (w.pending t w.db) := heffect.grows hu
  have hwf : Wf (w.pending t w.db) := heffect.wf hi.wf hu
  have hclose := (localStep_close (t := t) w).inv hi
  refine ⟨⟨hwf, hclose.locks, ?_, ?_, ?_, ?_, ?_, ?_, ?_, ?_, hi.issued, hi.drawn, hi.owner⟩, ?_,
    fun u hut => ?_⟩
  · intro c hmem
    rcases List.mem_cons.mp hmem with rfl | hmem
    · exact ⟨op, hop, heffect, hi.wf, hwf, hi.rotation, Grows.refl _⟩
    · obtain ⟨op', hop', he, hwb, hwa, hrot, hg⟩ := hi.commits c hmem
      exact ⟨op', hop', he, hwb, hwa, hrot, hg.trans hgrows⟩
  · refine List.pairwise_cons.mpr ⟨fun c hmem => ?_, hi.order⟩
    obtain ⟨-, -, -, -, -, -, hg⟩ := hi.commits c hmem
    exact hg
  · exact List.isChain_cons.mpr ⟨hi.last, hi.chain⟩
  · intro c hmem
    simp only [World.commit, List.head?_cons, Option.mem_def, Option.some.injEq] at hmem
    rw [← hmem]
    rfl
  · intro u o ho
    have hut : u ≠ t := by
      rintro rfl
      have : w.outcome u = some o := ho
      rw [hc.outcome] at this
      cases this
    obtain ⟨op', hop', hout⟩ := hi.outcomes u o ho
    refine ⟨op', hop', ?_⟩
    rw [commitsOf_commit_of_ne w hut]
    exact hout.grow hgrows
  · intro u principal chat_id last_read_seq hop' d hd
    obtain ⟨c, hmem, hraised⟩ := hi.published u principal chat_id last_read_seq hop' d hd
    refine ⟨c, ?_, hraised⟩
    by_cases hut : u = t
    · subst hut
      rw [commitsOf_commit_self]
      exact List.mem_cons_of_mem _ hmem
    · rw [commitsOf_commit_of_ne w hut]
      exact hmem
  · exact fun hd => heffect.rotation hi.wf hd (hi.rotation hd)
  · intro h hk
    rcases hc.hashes h hk with hk | ⟨token, hdrawn, heq⟩
    · exact hi.known h hk
    · exact ⟨token, hi.drawn t token hdrawn, heq⟩
  · exact ⟨hgrows, ⟨[⟨t, w.db, w.pending t w.db⟩], rfl, fun c hmem => by
      rw [List.mem_singleton.mp hmem]
      exact Grows.refl _⟩, fun _ _ h => ⟨h, rfl⟩, fun u op' hnone hop' => by
      have : w.op u = some op' := hop'
      rw [hnone] at this
      cases this⟩
  · refine ⟨by simp [World.commit, World.close, hut], by simp [World.commit, World.close, hut],
      rfl, rfl, rfl, rfl, rfl, commitsOf_commit_of_ne w hut, fun r hr => ?_,
      fun hinj token htok hk => ?_⟩
    · refine hc.isolated r fun hupd => ?_
      exact hr (hi.locks t u r (Ne.symm hut) hupd)
    · rcases hc.hashes _ hk with hk | ⟨token', hdrawn, heq⟩
      · exact hk
      · -- the other thread's token is another token
        have hmem := hi.issued _ (hi.drawn t token' hdrawn)
        have hmem' := hi.issued _ (hi.drawn u token htok)
        have := hinj hmem hmem' heq
        subst this
        exact absurd (hi.owner t u token' hdrawn htok) (Ne.symm hut)

end Steps

/-! ## The open transaction of a thread -/

/-- What thread `t` knows in `w'` of an earlier moment `w` of its open
transaction. -/
structure Since (sec : Security) (t : Tid) (w w' : World) : Prop where
  inv : Inv sec w'
  grow : World.Grows w w'
  op : w'.op t = w.op t
  began : w'.began t = w.began t
  outcome : w'.outcome t = w.outcome t
  commits : commitsOf t w' = commitsOf t w
  held : ∀ r, w.held t r ≠ none → w'.held t r ≠ none
  update : ∀ r, w.held t r = some .update → w'.held t r = some .update
  same : ∀ r, w.held t r ≠ none → Same r w.db w'.db
  published : ∀ d ∈ w.published t, d ∈ w'.published t
  drawn : ∀ token ∈ w.drawn t, token ∈ w'.drawn t
  fresh : sec.Distinct → ∀ token ∈ w.drawn t,
    HashKnown w'.db (sec.hash_refresh_token token) → HashKnown w.db (sec.hash_refresh_token token)

/-- Safe programs of the server. -/
abbrev Tx (sec : Security) (t : Tid) {α : Type} (p : Session α) (Q : α → World → Prop)
    (Z : PyError → World → Prop) (w : World) : Prop :=
  (serverDiscipline sec).Safe (World.exec sec) t p Q Z w

section Calls

variable {sec : Security} {t : Tid}

theorem Since.refl {w : World} (hi : Inv sec w) : Since sec t w w :=
  ⟨hi, World.Grows.refl w, rfl, rfl, rfl, rfl, fun _ h => h, fun _ h => h,
    fun r _ => Same.refl r _, fun _ h => h, fun _ h => h, fun _ _ _ h => h⟩

theorem Since.trans {w₁ w₂ w₃ : World} (h : Since sec t w₁ w₂) (h' : Since sec t w₂ w₃) :
    Since sec t w₁ w₃ where
  inv := h'.inv
  grow := h.grow.trans h'.grow
  op := h'.op.trans h.op
  began := h'.began.trans h.began
  outcome := h'.outcome.trans h.outcome
  commits := h'.commits.trans h.commits
  held := fun r hr => h'.held r (h.held r hr)
  update := fun r hr => h'.update r (h.update r hr)
  same := fun r hr => (h.same r hr).trans (h'.same r (h.held r hr))
  published := fun d hd => h'.published d (h.published d hd)
  drawn := fun token ht => h'.drawn token (h.drawn token ht)
  fresh := fun hd token ht hk => h.fresh hd token ht (h'.fresh hd token (h.drawn token ht) hk)

theorem Since.of_drift {w w' : World} (h : (serverDiscipline sec).Drift t w w') :
    Since sec t w w' where
  inv := h.inv
  grow := h.grow
  op := h.own.op
  began := h.own.began
  outcome := h.own.outcome
  commits := h.own.commits
  held := fun r hr => by rw [h.own.held]; exact hr
  update := fun r hr => by rw [h.own.held]; exact hr
  same := h.own.same
  published := fun d hd => by rw [h.own.published]; exact hd
  drawn := fun token ht => by rw [h.own.drawn]; exact ht
  fresh := h.own.fresh

/-- A local step that keeps the locks. -/
theorem LocalStep.since {w w' : World} (h : LocalStep t w w') (hi : Inv sec w)
    (hheld : ∀ r, w.held t r ≠ none → w'.held t r ≠ none)
    (hupdate : ∀ r, w.held t r = some .update → w'.held t r = some .update) :
    Since sec t w w' where
  inv := h.inv hi
  grow := h.grows
  op := by rw [h.op]
  began := by rw [h.began]
  outcome := by rw [h.outcome]
  commits := commitsOf_congr h.history t
  held := hheld
  update := hupdate
  same := by
    intro r _
    rw [h.db]
    exact Same.refl r _
  published := by
    intro d hd
    rw [h.published]
    exact hd
  drawn := by
    intro token ht
    rw [h.drawn]
    exact ht
  fresh := by
    intro _ token _ hk
    rw [h.db] at hk
    exact hk

/-- The thread holds the lock in the mode, or in a stronger one. -/
def Holding (w : World) (t : Tid) (r : Resource) : LockMode → Prop
  | .share => w.held t r ≠ none
  | .update => w.held t r = some .update

theorem Since.holding {w w' : World} (h : Since sec t w w') {r : Resource} {mode : LockMode}
    (hh : Holding w t r mode) : Holding w' t r mode := by
  cases mode with
  | share =>
      exact h.held r hh
  | update =>
      exact h.update r hh

theorem Holding.ne_none {w : World} {r : Resource} {mode : LockMode}
    (h : Holding w t r mode) : w.held t r ≠ none := by
  cases mode with
  | share =>
      exact h
  | update =>
      have hr : w.held t r = some .update := h
      rw [hr]
      simp

theorem holding_grant (w : World) (r : Resource) (mode : LockMode) :
    Holding (w.grant t r mode) t r mode := by
  cases mode with
  | share =>
      simp [Holding, World.grant]
  | update =>
      simp [Holding, World.grant]

theorem since_grant {w : World} (hi : Inv sec w) {r : Resource} {mode : LockMode}
    (hf : w.free t r mode) : Since sec t w (w.grant t r mode) := by
  refine (localStep_grant hi hf).since hi (fun r' hr' => ?_) (fun r' hr' => ?_)
  · by_cases hr : r' = r
    · subst hr
      simp [World.grant]
    · simpa [World.grant, hr] using hr'
  · by_cases hr : r' = r
    · subst hr
      simp [World.grant, hr']
    · simpa [World.grant, hr] using hr'

theorem since_draw {w : World} (hi : Inv sec w) {token : String} (hmem : token ∈ sec.tokens)
    (hnew : token ∉ w.issued) :
    Since sec t w (w.draw t token) ∧ token ∈ (w.draw t token).drawn t ∧
      (sec.Distinct → ¬HashKnown (w.draw t token).db (sec.hash_refresh_token token)) := by
  have hk := keeps_draw (t := t) hi hmem hnew
  refine ⟨⟨hk.inv, hk.grow, rfl, rfl, rfl, rfl, fun _ h => h, fun _ h => h,
    fun r _ => Same.refl r _, fun _ h => h, fun token' h => ?_, fun _ _ _ h => h⟩, ?_,
    fun hinj => fresh_token hinj hi hmem hnew⟩
  · simp [World.draw, h]
  · simp [World.draw]

variable {α : Type} {w : World}

theorem safe_query {f : Db → α} {Q : α → World → Prop} {Z : PyError → World → Prop}
    (h : ∀ w', Since sec t w w' → w'.pending t = w.pending t → Q (f (w'.pending t w'.db)) w') :
    Tx sec t (query f) Q Z w := by
  intro w₁ hd a w₂ hx
  obtain ⟨rfl, rfl⟩ := hx
  exact ⟨Keeps.refl hd.inv, h w₂ (Since.of_drift hd) hd.own.pending⟩

theorem safe_lock {r : Resource} {mode : LockMode} {Q : Unit → World → Prop}
    {Z : PyError → World → Prop}
    (h : ∀ w', Since sec t w w' → w'.pending t = w.pending t → Holding w' t r mode → Q () w')
    (hz : ∀ w', Since sec t w w' → Z .database w') : Tx sec t (lock r mode) Q Z w := by
  intro w₁ hd a w₂ hx
  rcases hx with ⟨rfl, hf, rfl⟩ | ⟨rfl, rfl⟩
  · exact ⟨(localStep_grant hd.inv hf).keeps hd.inv,
      h _ ((Since.of_drift hd).trans (since_grant hd.inv hf)) hd.own.pending (holding_grant _ _ _)⟩
  · exact ⟨Keeps.refl hd.inv, hz w₂ (Since.of_drift hd)⟩

theorem safe_lockAll {mode : LockMode} {Z : PyError → World → Prop} (rs : List Resource) :
    ∀ {w : World} {Q : Unit → World → Prop}, Inv sec w →
      (∀ w', Since sec t w w' → w'.pending t = w.pending t →
        (∀ r ∈ rs, Holding w' t r mode) → Q () w') →
      (∀ w', Since sec t w w' → Z .database w') → Tx sec t (lockAll mode rs) Q Z w := by
  induction rs with
  | nil =>
      intro w Q hi h _
      exact h w (Since.refl hi) rfl (fun r hr => by cases hr)
  | cons r rs ih =>
      intro w Q _ h hz
      refine Safe.bind (safe_lock (fun w₁ hs₁ hp₁ hh => ?_) hz)
      refine ih hs₁.inv (fun w₂ hs₂ hp₂ hrest => ?_) (fun w₂ hs₂ => hz w₂ (hs₁.trans hs₂))
      refine h w₂ (hs₁.trans hs₂) (hp₂.trans hp₁) (fun r' hr' => ?_)
      rcases List.mem_cons.mp hr' with rfl | hr'
      · exact hs₂.holding hh
      · exact hrest r' hr'

theorem safe_write {f : Db → Db} {Q : Unit → World → Prop} {Z : PyError → World → Prop}
    (h : ∀ w', Since sec t w w' → w'.pending t = f ∘ w.pending t → Q () w') :
    Tx sec t (write f) Q Z w := by
  intro w₁ hd a w₂ hx
  have hx : w₂ = { w₁ with pending := Function.update w₁.pending t (f ∘ w₁.pending t) } := hx
  subst hx
  have hl := localStep_pending (t := t) hd.inv (f ∘ w₁.pending t)
  refine ⟨hl.keeps hd.inv, h _ ((Since.of_drift hd).trans
    (hl.since hd.inv (fun _ hr => hr) (fun _ hr => hr))) ?_⟩
  have hp : w₁.pending t = w.pending t := hd.own.pending
  simp [hp]

theorem safe_now {Q : Instant → World → Prop} {Z : PyError → World → Prop}
    (h : ∀ now w', Since sec t w w' → w'.pending t = w.pending t → Q now w') :
    Tx sec t utcNow Q Z w := by
  intro w₁ hd a w₂ hx
  have hx : w₂ = w₁ := hx
  subst hx
  exact ⟨Keeps.refl hd.inv, h a w₂ (Since.of_drift hd) hd.own.pending⟩

theorem safe_uuid4 {Q : UUID → World → Prop} {Z : PyError → World → Prop}
    (h : ∀ id w', Since sec t w w' → w'.pending t = w.pending t → Q id w') :
    Tx sec t uuid4 Q Z w := by
  intro w₁ hd id w₂ hx
  have hx : w₂ = { w₁ with uuids := id :: w₁.uuids } := hx
  subst hx
  have hl := localStep_uuids (t := t) hd.inv (id :: w₁.uuids)
  exact ⟨hl.keeps hd.inv, h id _ ((Since.of_drift hd).trans
    (hl.since hd.inv (fun _ hr => hr) (fun _ hr => hr))) hd.own.pending⟩

theorem safe_token {Q : String → World → Prop} {Z : PyError → World → Prop}
    (h : ∀ token w', Since sec t w w' → w'.pending t = w.pending t → token ∈ w'.drawn t →
      (sec.Distinct → ¬HashKnown w'.db (sec.hash_refresh_token token)) → Q token w') :
    Tx sec t generate_refresh_token Q Z w := by
  intro w₁ hd token w₂ hx
  obtain ⟨hmem, hnew, rfl⟩ := hx
  obtain ⟨hs, hdrawn, hfresh⟩ := since_draw (t := t) hd.inv hmem hnew
  exact ⟨keeps_draw hd.inv hmem hnew,
    h token _ ((Since.of_drift hd).trans hs) hd.own.pending hdrawn hfresh⟩

theorem safe_flush {Q : Unit → World → Prop} {Z : PyError → World → Prop}
    (h : ∀ w', Since sec t w w' → w'.pending t = w.pending t →
      (w'.pending t w'.db).uniqueKeys → Q () w')
    (hint : ∀ w', Since sec t w w' → Z .integrity w')
    (hz : ∀ w', Since sec t w w' → Z .database w') : Tx sec t flush Q Z w := by
  intro w₁ hd a w₂ hx
  obtain ⟨rfl, hx⟩ := hx
  have hs := Since.of_drift hd
  rcases hx with ⟨rfl, hu⟩ | ⟨rfl, -⟩ | rfl
  · exact ⟨Keeps.refl hd.inv, h w₂ hs hd.own.pending hu⟩
  · exact ⟨Keeps.refl hd.inv, hint w₂ hs⟩
  · exact ⟨Keeps.refl hd.inv, hz w₂ hs⟩

theorem safe_rollback {Q : Unit → World → Prop} {Z : PyError → World → Prop}
    (h : ∀ w', Since sec t w w' → Q () (w'.close t)) : Tx sec t rollback Q Z w := by
  intro w₁ hd a w₂ hx
  have hx : w₂ = w₁.close t := hx
  subst hx
  exact ⟨(localStep_close w₁).keeps hd.inv, h w₁ (Since.of_drift hd)⟩

theorem safe_commit {Q : Unit → World → Prop} {Z : PyError → World → Prop}
    (hc : ∀ w', Since sec t w w' → w'.pending t = w.pending t →
      (w'.pending t w'.db).uniqueKeys → Committable sec t w')
    (h : ∀ w', Since sec t w w' → w'.pending t = w.pending t →
      (w'.pending t w'.db).uniqueKeys → Inv sec (w'.commit t) → Q () (w'.commit t))
    (hint : ∀ w', Since sec t w w' → w'.pending t = w.pending t →
      ¬(w'.pending t w'.db).uniqueKeys → Z .integrity w')
    (hz : ∀ w', Since sec t w w' → Z .database w') : Tx sec t commit Q Z w := by
  intro w₁ hd a w₂ hx
  have hs := Since.of_drift hd
  have hp : w₁.pending t = w.pending t := hd.own.pending
  rcases hx with ⟨rfl, hu, rfl⟩ | ⟨rfl, hu, rfl⟩ | ⟨rfl, rfl⟩
  · have hk := keeps_commit hd.inv (hc w₁ hs hp hu) hu
    exact ⟨hk, h w₁ hs hp hu hk.inv⟩
  · exact ⟨Keeps.refl hd.inv, hint w₂ hs hp hu⟩
  · exact ⟨Keeps.refl hd.inv, hz w₂ hs⟩

/-- `SELECT ... FOR UPDATE`: the row found is locked and current; a row that
cannot vanish is found. -/
theorem safe_selectLocked {key : α → Resource} {mode : LockMode} {f : Db → Option α}
    {Q : Option α → World → Prop} {Z : PyError → World → Prop}
    (hnone : ∀ w', Since sec t w w' → w'.pending t = w.pending t →
      (¬∃ r, ∀ w₁, Since sec t w w₁ → w₁.pending t = w.pending t →
        (f (w₁.pending t w₁.db)).map key = some r) → Q none w')
    (hsome : ∀ a w', Since sec t w w' → w'.pending t = w.pending t →
      Holding w' t (key a) mode → f (w'.pending t w'.db) = some a → Q (some a) w')
    (hz : ∀ w', Since sec t w w' → Z .database w') :
    Tx sec t (selectLocked key mode f) Q Z w := by
  unfold selectLocked
  refine Safe.bind (safe_query fun w₁ hs₁ hp₁ => ?_)
  cases hf₁ : f (w₁.pending t w₁.db) with
  | none =>
      refine hnone w₁ hs₁ hp₁ ?_
      rintro ⟨r, hr⟩
      have := hr w₁ hs₁ hp₁
      rw [hf₁] at this
      cases this
  | some a =>
      refine Safe.bind (safe_lock (fun w₂ hs₂ hp₂ hh => ?_) fun w₂ hs₂ => hz w₂ (hs₁.trans hs₂))
      refine safe_query fun w₃ hs₃ hp₃ => ?_
      have hs := (hs₁.trans hs₂).trans hs₃
      have hp := (hp₃.trans hp₂).trans hp₁
      cases hf₃ : (f (w₃.pending t w₃.db)).filter fun a' => decide (key a' = key a) with
      | none =>
          refine hnone w₃ hs hp ?_
          rintro ⟨r, hr⟩
          have h₁ := hr w₁ hs₁ hp₁
          have h₃ := hr w₃ hs hp
          rw [hf₁] at h₁
          obtain ⟨a', ha', hk'⟩ := Option.map_eq_some_iff.mp h₃
          rw [ha'] at hf₃
          simp only [Option.map_some, Option.some.injEq] at h₁
          simp [hk', h₁] at hf₃
      | some a' =>
          obtain ⟨ha', hk⟩ := Option.filter_eq_some_iff.mp hf₃
          refine hsome a' w₃ hs hp ?_ ha'
          rw [of_decide_eq_true hk]
          exact hs₃.holding hh

end Calls

end Server
end SecureMessenger
