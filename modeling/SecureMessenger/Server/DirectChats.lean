import SecureMessenger.Server.Alone
import Mathlib.Data.Sym.Sym2

/-!
# One direct chat for each pair

Whoever opens a direct chat first, and whichever of the two asks, a pair of
users has one chat; its members are the two users, and no chat or membership
is left behind by a request that lost the race.
-/

namespace SecureMessenger
namespace Server

open Lib

section Canonical

variable {first second first' second' : Uuid} {low high : UUID}

/-- The pair is ordered as the database compares it. -/
theorem canonical_user_pair_ordered (h : canonical_user_pair first second = .ok (low, high)) :
    low < high ∧ s(low, high) = s(first.1, second.1) := by
  unfold canonical_user_pair at h
  split at h
  · cases h
  · rename_i hne
    split at h
    · rename_i hlt
      cases h
      exact ⟨(Lib.Uuid.toInt_lt_iff first.2 second.2).mp hlt, rfl⟩
    · rename_i hle
      cases h
      refine ⟨(Lib.Uuid.toInt_lt_iff second.2 first.2).mp ?_, Sym2.eq_swap⟩
      have hdiff : Lib.Uuid.toInt second ≠ Lib.Uuid.toInt first := fun heq =>
        hne (Subtype.ext (Lib.Uuid.toInt_inj first.2 second.2 heq.symm))
      omega

/-- Two ordered pairs of the same users are equal. -/
theorem ordered_pair_unique {low high low' high' : UUID} (h : low < high) (h' : low' < high')
    (heq : s(low, high) = s(low', high')) : low = low' ∧ high = high' := by
  rcases Sym2.eq_iff.mp heq with hsame | ⟨rfl, rfl⟩
  · exact hsame
  · exact absurd (h.trans h') (lt_irrefl _)

end Canonical

/-- Every chat is the direct chat of a pair, and its members are the users of
the pair. -/
structure DirectChats (db : Db) : Prop where
  ordered : ∀ p ∈ db.pairs, p.user_low_id < p.user_high_id
  direct : ∀ c ∈ db.chats, c.type = "DIRECT"
  pair : ∀ c ∈ db.chats, ∃ p ∈ db.pairs, p.chat_id = c.id
  pair_chat : ∀ p ∈ db.pairs, p.chat_id ∈ db.chats.map (·.id)
  member_chat : ∀ m ∈ db.members, m.chat_id ∈ db.chats.map (·.id)
  members : ∀ p ∈ db.pairs, ∀ user_id, ⟨p.chat_id, user_id⟩ ∈ db.members ↔
    user_id = p.user_low_id ∨ user_id = p.user_high_id

theorem DirectChats.of_eq {db db' : Db} (h : DirectChats db) (hpairs : db'.pairs = db.pairs)
    (hchats : db'.chats = db.chats) (hmembers : db'.members = db.members) : DirectChats db' := by
  obtain ⟨ordered, direct, pair, pair_chat, member_chat, members⟩ := h
  constructor <;> simp only [hpairs, hchats, hmembers] <;> assumption

theorem DirectChats.store {principal : Principal} {request : SendMessageRequest} {db : Db}
    (h : DirectChats db) (a : Accepted principal request db) : DirectChats a.store where
  ordered := h.ordered
  direct := by
    intro c' hc'
    obtain ⟨c, hc, rfl⟩ := List.mem_map.mp (store_chats a ▸ hc')
    rw [bumpChat_type]
    exact h.direct c hc
  pair := by
    intro c' hc'
    obtain ⟨c, hc, rfl⟩ := List.mem_map.mp (store_chats a ▸ hc')
    rw [bumpChat_id]
    exact h.pair c hc
  pair_chat := by
    rw [store_chats, map_key_map (bumpChat_id a.chat)]
    exact h.pair_chat
  member_chat := by
    rw [store_chats, map_key_map (bumpChat_id a.chat)]
    exact h.member_chat
  members := h.members

theorem DirectChats.insertDirectChat {requester_id target_user_id : Uuid}
    {chat_id low high : UUID} {db : Db} (h : DirectChats db)
    (hpair : canonical_user_pair requester_id target_user_id = .ok (low, high))
    (hu : (insertDirectChat chat_id low high db).uniqueKeys) :
    DirectChats (insertDirectChat chat_id low high db) where
  ordered := by
    intro p hp
    rcases List.mem_append.mp hp with hp | hp
    · exact h.ordered p hp
    · obtain rfl := List.mem_singleton.mp hp
      exact (canonical_user_pair_ordered hpair).1
  direct := by
    intro c hc
    rcases List.mem_append.mp hc with hc | hc
    · exact h.direct c hc
    · obtain rfl := List.mem_singleton.mp hc
      rfl
  pair := by
    intro c hc
    rcases List.mem_append.mp hc with hc | hc
    · obtain ⟨p, hp, hid⟩ := h.pair c hc
      exact ⟨p, List.mem_append_left _ hp, hid⟩
    · obtain rfl := List.mem_singleton.mp hc
      exact ⟨⟨chat_id, low, high⟩, List.mem_append_right _ (List.mem_singleton_self _), rfl⟩
  pair_chat := by
    intro p hp
    rw [chatIds_insertDirectChat]
    rcases List.mem_append.mp hp with hp | hp
    · exact List.mem_append_left _ (h.pair_chat p hp)
    · obtain rfl := List.mem_singleton.mp hp
      exact List.mem_append_right _ (List.mem_singleton_self _)
  member_chat := by
    intro m hm
    rw [chatIds_insertDirectChat]
    rcases List.mem_append.mp hm with hm | hm
    · exact List.mem_append_left _ (h.member_chat m hm)
    · refine List.mem_append_right _ ?_
      simp only [List.mem_cons, List.not_mem_nil, or_false] at hm
      rcases hm with rfl | rfl
      · exact List.mem_singleton_self _
      · exact List.mem_singleton_self _
  members := by
    intro p hp user_id
    have hfresh := chat_fresh hu
    show _ ∈ db.members ++ [_, _] ↔ _
    rw [List.mem_append]
    rcases List.mem_append.mp hp with hp | hp
    · -- the new rows are those of another chat
      have hne : p.chat_id ≠ chat_id := by
        rintro rfl
        exact hfresh (h.pair_chat p hp)
      simp [h.members p hp, hne]
    · obtain rfl := List.mem_singleton.mp hp
      have hnone : ⟨chat_id, user_id⟩ ∉ db.members := fun hm => hfresh (h.member_chat _ hm)
      simp [hnone]

/-- **Every transaction keeps the chats direct.** -/
theorem Effect.directChats {sec : Security} {op : Op} {db db' : Db} (h : Effect sec op db db')
    (hu : db'.uniqueKeys) (hd : DirectChats db) : DirectChats db' := by
  cases h with
  | send a =>
      exact hd.store a
  | advance a =>
      exact hd.of_eq a.tables.pairs a.tables.chats a.tables.members
  | openDirectChat db chat_id low high hpair =>
      exact hd.insertDirectChat hpair hu
  | _ =>
      exact hd.of_eq rfl rfl rfl

section Chats

variable {db : Db}

/-- A pair of users has at most one chat. -/
theorem DirectChats.pair_unique (h : DirectChats db) (hu : db.uniqueKeys) {p p' : DirectChatPair}
    (hp : p ∈ db.pairs) (hp' : p' ∈ db.pairs)
    (hsame : s(p.user_low_id, p.user_high_id) = s(p'.user_low_id, p'.user_high_id)) : p = p' := by
  obtain ⟨hlow, hhigh⟩ := ordered_pair_unique (h.ordered p hp) (h.ordered p' hp') hsame
  exact eq_of_key hu.pairUsers hp hp' (by rw [hlow, hhigh])

/-- The rows of a chat are those of its two members. -/
theorem DirectChats.member_rows (h : DirectChats db) (hu : db.uniqueKeys) {p : DirectChatPair}
    (hp : p ∈ db.pairs) :
    (db.members.filter fun m => decide (m.chat_id = p.chat_id)).Perm
      [⟨p.chat_id, p.user_low_id⟩, ⟨p.chat_id, p.user_high_id⟩] := by
  have hnodup : (db.members.filter fun m => decide (m.chat_id = p.chat_id)).Nodup :=
    (List.Nodup.of_map _ hu.members).sublist List.filter_sublist
  have hne : (⟨p.chat_id, p.user_low_id⟩ : ChatMember) ≠ ⟨p.chat_id, p.user_high_id⟩ := by
    intro heq
    exact (h.ordered p hp).ne (congrArg ChatMember.user_id heq)
  refine (List.perm_ext_iff_of_nodup hnodup (by simpa using hne)).mpr fun m => ?_
  obtain ⟨chat_id, user_id⟩ := m
  simp only [List.mem_filter, decide_eq_true_eq, List.mem_cons, ChatMember.mk.injEq,
    List.not_mem_nil, or_false]
  constructor
  · rintro ⟨hm, rfl⟩
    exact ((h.members p hp user_id).mp hm).imp (fun h => ⟨rfl, h⟩) fun h => ⟨rfl, h⟩
  · rintro (⟨rfl, rfl⟩ | ⟨rfl, rfl⟩)
    · exact ⟨(h.members p hp _).mpr (Or.inl rfl), rfl⟩
    · exact ⟨(h.members p hp _).mpr (Or.inr rfl), rfl⟩

/-- The other user of the pair, for its two users and nobody else. -/
def otherEndpoint (p : DirectChatPair) (requester_id : UUID) : Option UUID :=
  if requester_id = p.user_low_id then some p.user_high_id
  else if requester_id = p.user_high_id then some p.user_low_id
  else none

theorem DirectChats.otherUserId_eq (h : DirectChats db) (hu : db.uniqueKeys)
    {p : DirectChatPair} (hp : p ∈ db.pairs) (requester_id : UUID) :
    db.otherUserId requester_id p.chat_id = otherEndpoint p requester_id := by
  obtain ⟨c, hc, hid⟩ := List.mem_map.mp (h.pair_chat p hp)
  have hany : (db.chats.any fun c => decide (c.id = p.chat_id ∧ c.type = "DIRECT")) = true :=
    List.any_eq_true.mpr ⟨c, hc, decide_eq_true ⟨hid, h.direct c hc⟩⟩
  have hunique : ∀ q ∈ db.pairs, q.chat_id = p.chat_id → q = p :=
    fun q hq heq => eq_of_key hu.2.2.2.2.2.1 hq hp heq
  unfold Db.otherUserId Db.directPair otherEndpoint
  rw [hany]
  simp only [Bool.and_true]
  cases hfind : db.pairs.find? fun q => decide (q.chat_id = p.chat_id ∧
      (q.user_low_id = requester_id ∨ q.user_high_id = requester_id)) with
  | none =>
      have hnot := List.find?_eq_none.mp hfind p hp
      simp only [decide_eq_true_eq, not_and, not_or] at hnot
      obtain ⟨hlow, hhigh⟩ := hnot trivial
      rw [if_neg (Ne.symm hlow), if_neg (Ne.symm hhigh)]
      rfl
  | some q =>
      have hkey := List.find?_some hfind
      simp only [decide_eq_true_eq] at hkey
      obtain rfl := hunique q (List.mem_of_find?_eq_some hfind) hkey.1
      by_cases hlow : q.user_low_id = requester_id
      · simp [hlow]
      · have hhigh := hkey.2.resolve_left hlow
        simp [hlow, Ne.symm hlow, hhigh]

end Chats

section Runs

variable {sec : Security} {p : Pool Sql Sql.Answer PyError World}

/-- The request for a direct chat has returned the view. -/
def World.Opened (w : World) (t : Tid) (requester_id target_user_id : Uuid)
    (view : DirectChatView) : Prop :=
  w.op t = some (.openDirectChat requester_id target_user_id) ∧
    w.outcome t = some (.ok (.chat view))

/-- **Main result.**  Along every run from a database of direct chats, whatever
requests run beside each other: two users have at most one pair; every chat
has exactly one pair and exactly the two membership rows of that pair, and
there are no others; all requests for the same two users that succeed return
the same chat; a request for oneself commits no change and fails; and the other
user of a chat is the other endpoint, for its endpoints only. -/
theorem one_direct_chat_per_pair
    (hp : System.Reachable (serverSystem sec)
      (fun w => World.Initial sec w ∧ DirectChats w.db) p) :
    (∀ q ∈ p.shared.db.pairs, ∀ q' ∈ p.shared.db.pairs,
      s(q.user_low_id, q.user_high_id) = s(q'.user_low_id, q'.user_high_id) → q = q') ∧
    (∀ c ∈ p.shared.db.chats, ∃! q, q ∈ p.shared.db.pairs ∧ q.chat_id = c.id) ∧
    (∀ q ∈ p.shared.db.pairs, q.chat_id ∈ p.shared.db.chats.map (·.id) ∧
      (p.shared.db.members.filter fun m => decide (m.chat_id = q.chat_id)).Perm
        [⟨q.chat_id, q.user_low_id⟩, ⟨q.chat_id, q.user_high_id⟩] ∧
      ∀ requester_id, p.shared.db.otherUserId requester_id q.chat_id =
        otherEndpoint q requester_id) ∧
    (∀ m ∈ p.shared.db.members, ∃ q ∈ p.shared.db.pairs, m.chat_id = q.chat_id) ∧
    (∀ t t' requester_id target_user_id requester_id' target_user_id' view view',
      s(requester_id, target_user_id) = s(requester_id', target_user_id') →
      p.shared.Opened t requester_id target_user_id view →
      p.shared.Opened t' requester_id' target_user_id' view' → view.chat.id = view'.chat.id) ∧
    ∀ t user_id, p.shared.op t = some (.openDirectChat user_id user_id) →
      (∀ c ∈ commitsOf t p.shared, c.after = c.before) ∧
      ∀ o, p.shared.outcome t = some o → commitsOf t p.shared = [] ∧ o = .error .selfChat := by
  have hreach : System.Reachable (serverSystem sec) (World.Initial sec) p := by
    obtain ⟨w, hw, h⟩ := hp
    exact ⟨w, hw.1, h⟩
  have hinv := reachable_inv hreach
  have hu := hinv.wf.unique
  have hd : DirectChats p.shared.db :=
    (reachable_committed (fun he _ hw' h => he.directChats hw'.unique h) hp).1
  have hopened : ∀ {t requester_id target_user_id view},
      p.shared.Opened t requester_id target_user_id view →
        ChatOfPair requester_id target_user_id view p.shared.db := by
    rintro t requester_id target_user_id view ⟨hop, hout⟩
    obtain ⟨op, hop', hres⟩ := hinv.outcomes t _ hout
    rw [hop, Option.some.injEq] at hop'
    subst hop'
    obtain ⟨view', heq, hchat⟩ := hres.2 _ rfl
    obtain rfl := Result.chat.inj heq
    exact hchat
  refine ⟨fun q hq q' hq' hsame => hd.pair_unique hu hq hq' hsame, fun c hc => ?_,
    fun q hq => ⟨hd.pair_chat q hq, hd.member_rows hu hq, hd.otherUserId_eq hu hq⟩,
    fun m hm => ?_, ?_, fun t user_id hop => ⟨fun c hc => ?_, fun o hout => ?_⟩⟩
  · obtain ⟨q, hq, hid⟩ := hd.pair c hc
    refine ⟨q, ⟨hq, hid⟩, ?_⟩
    rintro q' ⟨hq', hid'⟩
    exact eq_of_key hu.2.2.2.2.2.1 hq' hq (hid'.trans hid.symm)
  · obtain ⟨c, hc, hid⟩ := List.mem_map.mp (hd.member_chat m hm)
    obtain ⟨q, hq, hid'⟩ := hd.pair c hc
    exact ⟨q, hq, (hid'.trans hid).symm⟩
  · intro t t' requester_id target_user_id requester_id' target_user_id' view view' hsame h h'
    obtain ⟨q, hq, hid, hpair⟩ := hopened h
    obtain ⟨q', hq', hid', hpair'⟩ := hopened h'
    have husers : s(q.user_low_id, q.user_high_id) = s(q'.user_low_id, q'.user_high_id) := by
      rw [(canonical_user_pair_ordered hpair).2, (canonical_user_pair_ordered hpair').2]
      simpa using congrArg (Sym2.map Subtype.val) hsame
    rw [← hid, ← hid', hd.pair_unique hu hq hq' husers]
  · obtain ⟨hmem, htid⟩ := List.mem_filter.mp hc
    obtain ⟨op, hop', heffect, -⟩ := hinv.commits c hmem
    rw [of_decide_eq_true htid, hop, Option.some.injEq] at hop'
    subst hop'
    obtain ⟨tid, before, after⟩ := c
    dsimp only at heffect ⊢
    cases heffect with
    | nothing => rfl
    | purge _ _ _ _ hop => cases hop
    | revoke _ _ _ _ hop => cases hop
    | openDirectChat _ _ _ _ hpair =>
        rw [canonical_user_pair_self] at hpair
        cases hpair
  · obtain ⟨op, hop', hres⟩ := hinv.outcomes t o hout
    rw [hop, Option.some.injEq] at hop'
    subst hop'
    exact hres.1 rfl

end Runs

/-! ## Alice opens a chat with Bob -/

namespace Example

def aliceId : Uuid := ⟨"00000000-0000-0000-0000-00000000000a", by decide⟩

def bobId : Uuid := ⟨"00000000-0000-0000-0000-00000000000b", by decide⟩

def usersDb : Db where
  users := [⟨aliceId, "alice", "secret", "active"⟩, ⟨bobId, "bob", "secret", "active"⟩]

def usersWorld : World :=
  { smallWorld with
    db := usersDb
    began := fun _ => usersDb }

theorem usersWorld_initial : World.Initial plainSecurity usersWorld where
  wf := by constructor <;> decide
  rotation := fun _ => by
    unfold Rotation
    decide
  known := by
    rintro h (⟨s, hs, rfl⟩ | ⟨x, hx, rfl⟩)
    · cases hs
    · cases hx
  issued := fun _ _ => trivial
  history := rfl
  idle := fun _ => ⟨rfl, rfl, rfl, rfl, rfl, rfl, rfl⟩

theorem usersDb_directChats : DirectChats usersDb := by
  constructor <;> simp [usersDb]

theorem uniqueKeys_insertDirectChat (chat_id : UUID) :
    (insertChat chat_id usersDb).uniqueKeys ∧
      (insertMembers chat_id aliceId bobId (insertChat chat_id usersDb)).uniqueKeys ∧
      (insertDirectChat chat_id aliceId bobId usersDb).uniqueKeys := by
  have husers : usersDb.uniqueKeys := usersWorld_initial.wf.unique
  have hne : aliceId.1 ≠ bobId.1 := by decide
  simp only [Db.uniqueKeys] at husers ⊢
  obtain ⟨h₁, h₂, h₃, h₄, -, -, h₇, h₈, h₉, h₁₀, h₁₁, h₁₂, h₁₃, h₁₄, h₁₅, -, -, h₁₈⟩ := husers
  refine ⟨⟨h₁, h₂, h₃, h₄, ?_, ?_, h₇, h₈, h₉, h₁₀, h₁₁, h₁₂, h₁₃, h₁₄, h₁₅, ?_, ?_, h₁₈⟩,
    ⟨h₁, h₂, h₃, h₄, ?_, ?_, h₇, h₈, h₉, h₁₀, h₁₁, h₁₂, h₁₃, h₁₄, h₁₅, ?_, ?_, h₁₈⟩,
    ⟨h₁, h₂, h₃, h₄, ?_, ?_, h₇, h₈, h₉, h₁₀, h₁₁, h₁₂, h₁₃, h₁₄, h₁₅, ?_, ?_, h₁₈⟩⟩
  all_goals simp [insertDirectChat, insertPair, insertMembers, insertChat, usersDb, hne]

theorem alone_create_direct_chat {w : World} (h : Calm 0 usersDb [] id w) (chat_id : UUID) :
    Alone plainSecurity 0 (create_direct_chat chat_id aliceId bobId)
      (fun _ w' => ∃ past, Calm 0 (insertDirectChat chat_id aliceId bobId usersDb) past id w')
      (fun _ _ => False) w := by
  obtain ⟨hchat, hmembers, hpair⟩ := uniqueKeys_insertDirectChat chat_id
  unfold create_direct_chat
  refine Total.bind (alone_write h fun w₁ h₁ => ?_)
  refine Total.bind (alone_flush h₁ hchat ?_)
  refine Total.bind (alone_write h₁ fun w₂ h₂ => ?_)
  refine Total.bind (alone_flush h₂ hmembers ?_)
  refine Total.bind (alone_write h₂ fun w₃ h₃ => ?_)
  exact alone_commit h₃ hpair fun w₄ h₄ => ⟨_, h₄⟩

/-- A chat with Bob that has been inserted is found. -/
theorem directChat_insertDirectChat (chat_id : UUID) :
    Db.directChat aliceId chat_id (insertDirectChat chat_id aliceId bobId usersDb) =
      some ⟨⟨chat_id, 0, "DIRECT"⟩, ⟨bobId, "bob", "secret", "active"⟩⟩ := by
  have hne : aliceId.1 ≠ bobId.1 := by decide
  simp [Db.directChat, Db.otherUserId, Db.directPair, insertDirectChat, insertPair, insertMembers,
    insertChat, usersDb, hne]

theorem alone_openNewChat {w : World} (h : Calm 0 usersDb [] id w) :
    Alone plainSecurity 0 (openNewChat aliceId aliceId bobId) (fun _ _ => True)
      (fun _ _ => False) w := by
  unfold openNewChat
  refine Total.bind (alone_uuid4 h fun chat_id w₁ h₁ _ _ _ _ => ?_)
  refine Total.bind (Total.attempt (alone_create_direct_chat h₁ chat_id) ?_ ?_)
  · rintro _ w₂ ⟨past, h₂⟩
    refine Total.bind (alone_query h₂ ?_)
    rw [id_eq, directChat_insertDirectChat]
    exact .ret trivial
  · exact fun _ _ hfalse => hfalse.elim

/-- The chat is opened. -/
theorem open_reaches : ∃ p view, System.Reaches (serverSystem plainSecurity)
    (System.idle usersWorld) p ∧ p.shared.Opened 0 aliceId bobId view := by
  have hpair : canonical_user_pair aliceId bobId = .ok (aliceId.1, bobId.1) := by decide
  have hactive : Db.activeUser bobId usersDb = true := by decide
  have hnew : Db.pairChatId aliceId bobId usersDb = none := by decide
  have hrun : Alone plainSecurity 0 (Op.body plainSecurity (.openDirectChat aliceId bobId))
      (fun r _ => ∃ view, r = .chat view) (fun _ _ => False)
      (usersWorld.arrive 0 (.openDirectChat aliceId bobId)) := by
    have h : Calm 0 usersDb [] id (usersWorld.arrive 0 (.openDirectChat aliceId bobId)) :=
      usersWorld_initial.calm
    refine Total.bind (Total.mono (Q := fun _ _ => True) ?_ (fun view _ _ => .ret ⟨view, rfl⟩)
      fun _ _ hfalse => hfalse)
    unfold open_direct_chat
    rw [hpair]
    refine Total.bind (.ret (Total.bind (alone_query h ?_)))
    rw [id_eq, hactive]
    refine Total.bind (alone_query h ?_)
    rw [id_eq, hnew]
    exact alone_openNewChat h
  obtain ⟨p, hp, hop, -, o, w₁, hout, -, -, hend⟩ := request_runs usersWorld_initial hrun
  cases o with
  | error x =>
      exact hend.elim
  | ok r =>
      obtain ⟨view, rfl⟩ := hend
      exact ⟨p, view, hp, hop, hout⟩

end Example

theorem one_direct_chat_per_pair_opened :
    ∃ p view, System.Reaches (serverSystem Example.plainSecurity)
        (System.idle Example.usersWorld) p ∧
      p.shared.Opened 0 Example.aliceId Example.bobId view ∧
      ∀ q ∈ p.shared.db.pairs, ∀ q' ∈ p.shared.db.pairs,
        s(q.user_low_id, q.user_high_id) = s(q'.user_low_id, q'.user_high_id) → q = q' := by
  obtain ⟨p, view, hp, hopened⟩ := Example.open_reaches
  obtain ⟨hunique, -⟩ := one_direct_chat_per_pair
    ⟨Example.usersWorld, ⟨Example.usersWorld_initial, Example.usersDb_directChats⟩, hp⟩
  exact ⟨p, view, hp, hopened, hunique⟩

end Server
end SecureMessenger
