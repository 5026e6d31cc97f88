import SecureMessenger.Server.Alone
import Mathlib.Order.Bounds.Basic

/-!
# Read cursors

The stored position of a user in a chat only grows, stays within the chat and
names one of its messages.  It is the largest position that an advance has
asked for, and the other devices hear of exactly the advances that raise it.
-/

namespace SecureMessenger
namespace Server

open Lib

/-- Every stored position belongs to a chat, lies within it and is that of one
of its messages. -/
structure InRange (db : Db) : Prop where
  chat : ∀ r ∈ db.readStates, r.chat_id ∈ db.chats.map (·.id)
  bounds : ∀ c ∈ db.chats, ∀ user_id,
    0 ≤ db.lastReadSeq c.id user_id ∧ db.lastReadSeq c.id user_id ≤ c.last_message_seq
  named : ∀ c ∈ db.chats, ∀ user_id, 0 < db.lastReadSeq c.id user_id →
    ∃ m ∈ db.messages, m.chat_id = c.id ∧ (m.chat_seq : Int) = db.lastReadSeq c.id user_id

theorem InRange.of_eq {db db' : Db} (h : InRange db) (hchats : db'.chats = db.chats)
    (hmessages : db'.messages = db.messages) (hreads : db'.readStates = db.readStates) :
    InRange db' := by
  constructor
  · rw [hreads, hchats]
    exact h.chat
  · unfold Db.lastReadSeq Db.readState
    rw [hchats, hreads]
    exact h.bounds
  · unfold Db.lastReadSeq Db.readState
    rw [hchats, hmessages, hreads]
    exact h.named

theorem InRange.store {principal : Principal} {request : SendMessageRequest} {db : Db}
    (h : InRange db) (hw : Wf db) (a : Accepted principal request db) : InRange a.store where
  chat := by
    intro r hr
    rw [store_chats, map_key_map (bumpChat_id a.chat)]
    exact h.chat r hr
  bounds := by
    intro c' hc' user_id
    rw [store_chats] at hc'
    obtain ⟨c, hc, rfl⟩ := List.mem_map.mp hc'
    rw [bumpChat_id]
    obtain ⟨hlow, hhigh⟩ := h.bounds c hc user_id
    refine ⟨hlow, hhigh.trans ?_⟩
    unfold bumpChat
    split
    · rename_i hid
      have heq : a.chat = c := eq_of_key hw.unique.chats (row_mem a.chat_row) hc hid.symm
      subst heq
      show (a.chat.last_message_seq : Int) ≤ ((a.chat.last_message_seq + 1 : Nat) : Int)
      omega
    · exact le_refl _
  named := by
    intro c' hc' user_id
    rw [store_chats] at hc'
    obtain ⟨c, hc, rfl⟩ := List.mem_map.mp hc'
    rw [bumpChat_id]
    intro hpos
    obtain ⟨m, hm, hkey⟩ := h.named c hc user_id hpos
    exact ⟨m, List.mem_append_left _ hm, hkey⟩

section Advance

variable {principal : Principal} {chat_id : UUID} {last_read_seq : Int} {db : Db}

/-- The chat of the position is the one that was locked. -/
theorem Advanced.chat_eq (a : Advanced principal chat_id last_read_seq db) (hw : Wf db) {c : Chat}
    (hc : c ∈ db.chats) (hid : c.id = chat_id) : c = a.chat :=
  eq_of_key hw.unique.chats hc (row_mem a.chat_row) (hid.trans (row_key a.chat_row).symm)

theorem InRange.advance (h : InRange db) (hw : Wf db)
    (a : Advanced principal chat_id last_read_seq db) : InRange a.store where
  chat := by
    rw [a.tables.chats]
    unfold Advanced.store storeReadState
    intro r hr
    split at hr
    · rcases List.mem_append.mp hr with hr | hr
      · exact h.chat r hr
      · obtain rfl := List.mem_singleton.mp hr
        exact List.mem_map.mpr ⟨a.chat, row_mem a.chat_row, row_key a.chat_row⟩
    · obtain ⟨r₀, hr₀, rfl⟩ := List.mem_map.mp hr
      split
      · exact h.chat r₀ hr₀
      · exact h.chat r₀ hr₀
  bounds := by
    intro c hc user_id
    rw [a.tables.chats] at hc
    rw [lastReadSeq_advanced]
    split
    · rename_i hkey
      rw [a.chat_eq hw hc hkey.1]
      exact ⟨a.low, a.high⟩
    · exact h.bounds c hc user_id
  named := by
    intro c hc user_id
    rw [a.tables.chats] at hc
    rw [a.tables.messages, lastReadSeq_advanced]
    split
    · rename_i hkey
      intro hpos
      obtain ⟨m, hm, hseq⟩ := List.any_eq_true.mp (a.position hpos.ne')
      rw [hkey.1]
      exact ⟨m, hm, of_decide_eq_true hseq⟩
    · exact h.named c hc user_id

end Advance

/-- Nothing is read of a new chat. -/
theorem InRange.insertDirectChat {chat_id user_low_id user_high_id : UUID} {db : Db}
    (h : InRange db) (hu : (insertDirectChat chat_id user_low_id user_high_id db).uniqueKeys) :
    InRange (insertDirectChat chat_id user_low_id user_high_id db) := by
  have hzero : ∀ user_id, db.lastReadSeq chat_id user_id = 0 := by
    intro user_id
    unfold Db.lastReadSeq
    cases hstate : db.readState chat_id user_id with
    | none => rfl
    | some r =>
        have hkey := List.find?_some hstate
        simp only [decide_eq_true_eq] at hkey
        have hmem := h.chat r (List.mem_of_find?_eq_some hstate)
        rw [hkey.1] at hmem
        exact absurd hmem (chat_fresh hu)
  refine ⟨fun r hr => ?_, fun c hc user_id => ?_, fun c hc user_id => ?_⟩
  · rw [chatIds_insertDirectChat]
    exact List.mem_append_left _ (h.chat r hr)
  · rcases List.mem_append.mp hc with hc | hc
    · exact h.bounds c hc user_id
    · obtain rfl := List.mem_singleton.mp hc
      show 0 ≤ db.lastReadSeq chat_id user_id ∧ db.lastReadSeq chat_id user_id ≤ ((0 : Nat) : Int)
      rw [hzero]
      exact ⟨le_refl _, le_refl _⟩
  · rcases List.mem_append.mp hc with hc | hc
    · exact h.named c hc user_id
    · obtain rfl := List.mem_singleton.mp hc
      intro hpos
      have hpos : 0 < db.lastReadSeq chat_id user_id := hpos
      rw [hzero] at hpos
      exact absurd hpos (lt_irrefl _)

/-- **Every transaction keeps the positions in range.** -/
theorem Effect.inRange {sec : Security} {op : Op} {db db' : Db} (h : Effect sec op db db')
    (hw : Wf db) (hu : db'.uniqueKeys) (hr : InRange db) : InRange db' := by
  cases h with
  | send a =>
      exact hr.store hw a
  | advance a =>
      exact hr.advance hw a
  | openDirectChat =>
      exact hr.insertDirectChat hu
  | _ =>
      exact hr.of_eq rfl rfl rfl

/-- **Only an advance of the user moves a position**, and to the one it asks
for. -/
theorem Effect.lastReadSeq {sec : Security} {op : Op} {db db' : Db} (h : Effect sec op db db')
    (chat_id user_id : UUID) :
    db'.lastReadSeq chat_id user_id = db.lastReadSeq chat_id user_id ∨
      ∃ principal last_read_seq, op = .advance principal chat_id last_read_seq ∧
        principal.user_id = user_id ∧ db'.lastReadSeq chat_id user_id = last_read_seq := by
  cases h with
  | @advance principal chat_id' last_read_seq _ a =>
      rw [lastReadSeq_advanced]
      split
      · rename_i hkey
        obtain ⟨rfl, rfl⟩ := hkey
        exact Or.inr ⟨principal, last_read_seq, rfl, rfl, rfl⟩
      · exact Or.inl rfl
  | _ =>
      exact Or.inl rfl

section Runs

variable {sec : Security} {w₀ : World} {p p' : Pool Sql Sql.Answer PyError World}

/-- The positions asked for by the advances that have arrived and have not
failed. -/
def World.asked (w : World) (chat_id user_id : UUID) : Set Int :=
  {n | ∃ t principal, w.op t = some (.advance principal chat_id n) ∧
    principal.user_id = user_id ∧ ∀ x, w.outcome t ≠ some (.error x)}

/-- The positions asked for by the advances that have succeeded. -/
def World.confirmed (w : World) (chat_id user_id : UUID) : Set Int :=
  {n | ∃ t principal r, w.op t = some (.advance principal chat_id n) ∧
    principal.user_id = user_id ∧ w.outcome t = some (.ok r)}

theorem confirmed_le (hi : Inv sec p.shared) {chat_id user_id : UUID} {n : Int}
    (hn : n ∈ p.shared.confirmed chat_id user_id) :
    n ≤ p.shared.db.lastReadSeq chat_id user_id := by
  obtain ⟨t, principal, r, hop, rfl, hout⟩ := hn
  obtain ⟨op, hop', hres⟩ := hi.outcomes t _ hout
  rw [hop, Option.some.injEq] at hop'
  subst hop'
  obtain ⟨state, -, hc⟩ := hres
  exact hc.requested.trans hc.stored

/-- The stored position is the initial one or that of a committed advance. -/
theorem lastReadSeq_committed (h₀ : World.Initial sec w₀)
    (hp : System.Reaches (serverSystem sec) (System.idle w₀) p) (chat_id user_id : UUID) :
    p.shared.db.lastReadSeq chat_id user_id = w₀.db.lastReadSeq chat_id user_id ∨
      ∃ c ∈ p.shared.history, ∃ principal, principal.user_id = user_id ∧
        p.shared.op c.tid =
          some (.advance principal chat_id (p.shared.db.lastReadSeq chat_id user_id)) := by
  have hreach : System.Reachable (serverSystem sec) (fun w => w = w₀) p := ⟨w₀, rfl, hp⟩
  refine hreach.induct (P := fun p =>
    p.shared.db.lastReadSeq chat_id user_id = w₀.db.lastReadSeq chat_id user_id ∨
      ∃ c ∈ p.shared.history, ∃ principal, principal.user_id = user_id ∧
        p.shared.op c.tid =
          some (.advance principal chat_id (p.shared.db.lastReadSeq chat_id user_id)))
    (fun w hw => ?_) fun p p' m hr ih hs => ?_
  · left
    rw [← hw]
    rfl
  · have hr₁ : System.Reachable (serverSystem sec) (World.Initial sec) p := by
      obtain ⟨w, rfl, h⟩ := hr
      exact ⟨w, h₀, h⟩
    have hr₂ := hr₁.step hs
    have hgrows := reaches_grows hr₁ (.single ⟨m, hs⟩)
    have old : p'.shared.db.lastReadSeq chat_id user_id =
        p.shared.db.lastReadSeq chat_id user_id →
        p'.shared.db.lastReadSeq chat_id user_id = w₀.db.lastReadSeq chat_id user_id ∨
          ∃ c ∈ p'.shared.history, ∃ principal, principal.user_id = user_id ∧
            p'.shared.op c.tid =
              some (.advance principal chat_id (p'.shared.db.lastReadSeq chat_id user_id)) := by
      intro hsame
      rw [hsame]
      refine ih.imp id ?_
      rintro ⟨c, hc, principal, huser, hop⟩
      obtain ⟨new, hnew, -⟩ := hgrows.history
      exact ⟨c, hnew ▸ List.mem_append_right _ hc, principal, huser, (hgrows.started _ _ hop).1⟩
    rcases step_commits hs with ⟨hdb, -⟩ | ⟨t, hhistory⟩
    · exact old (by rw [hdb])
    · have hlast : (⟨t, p.shared.db, p'.shared.db⟩ : Commit) ∈ p'.shared.history :=
        hhistory ▸ List.mem_cons_self
      obtain ⟨op, hop, heffect, -⟩ := (reachable_inv hr₂).commits _ hlast
      rcases heffect.lastReadSeq chat_id user_id with hsame | ⟨principal, n, rfl, huser, hn⟩
      · exact old hsame
      · right
        rw [hn]
        exact ⟨_, hlast, principal, huser, hop⟩

/-- An advance that has committed does not fail: nothing that follows its
commit raises. -/
theorem committed_not_failed (hi : Inv sec p.shared) {c : Commit} (hc : c ∈ p.shared.history)
    {principal : Principal} {chat_id : UUID} {n : Int}
    (hop : p.shared.op c.tid = some (.advance principal chat_id n)) (x : PyError) :
    p.shared.outcome c.tid ≠ some (.error x) := by
  intro hout
  obtain ⟨op, hop', hresult⟩ := hi.outcomes _ _ hout
  rw [hop, Option.some.injEq] at hop'
  subst hop'
  have hnone : commitsOf c.tid p.shared = [] := hresult
  have hown : c ∈ commitsOf c.tid p.shared := List.mem_filter.mpr ⟨hc, decide_eq_true rfl⟩
  rw [hnone] at hown
  cases hown

theorem lastReadSeq_attained (h₀ : World.Initial sec w₀)
    (hp : System.Reaches (serverSystem sec) (System.idle w₀) p) (chat_id user_id : UUID) :
    p.shared.db.lastReadSeq chat_id user_id ∈
      insert (w₀.db.lastReadSeq chat_id user_id) (p.shared.asked chat_id user_id) := by
  have hinv := reachable_inv ⟨w₀, h₀, hp⟩
  rcases lastReadSeq_committed h₀ hp chat_id user_id with h | ⟨c, hc, principal, huser, hop⟩
  · exact Or.inl h
  · exact Or.inr ⟨c.tid, principal, hop, huser, committed_not_failed hinv hc hop⟩

/-- Whom an advance tells: only of a raise, only devices of the two users; and
when it has succeeded, all devices it found active. -/
structure Tells (w : World) (t : Tid) (user_id chat_id : UUID) : Prop where
  justified : ∀ d ∈ w.published t, ∃ c ∈ commitsOf t w, Raised user_id chat_id c ∧
    Informed (w.began t) user_id chat_id d c
  complete : ∀ r, w.outcome t = some (.ok r) → ∀ c ∈ commitsOf t w, Raised user_id chat_id c →
    ∀ other_user_id, c.before.otherUserId user_id chat_id = some other_user_id →
      ∃ db₁ db₂, Grows (w.began t) db₁ ∧ Grows db₁ db₂ ∧ Grows db₂ c.before ∧
        (∀ d ∈ db₁.activeDevices user_id, d.id ∈ w.published t) ∧
        ∀ d ∈ db₂.activeDevices other_user_id, d.id ∈ w.published t

/-! ## An advance that is left alone -/

theorem uniqueKeys_storeReadState {db : Db} (h : db.uniqueKeys) (chat_id user_id : UUID)
    (last_read_seq : Int) (now : Instant) :
    (storeReadState (db.readState chat_id user_id) chat_id user_id last_read_seq now
      db).uniqueKeys := by
  have hkeys : ((storeReadState (db.readState chat_id user_id) chat_id user_id last_read_seq now
      db).readStates.map fun r => (r.chat_id, r.user_id)).Nodup := by
    cases hstate : db.readState chat_id user_id with
    | none =>
        simp only [storeReadState, List.map_append, List.map_cons, List.map_nil]
        refine List.nodup_append.mpr ⟨h.readStates, List.nodup_singleton _, fun k hk k' hk' => ?_⟩
        obtain ⟨r, hr, rfl⟩ := List.mem_map.mp hk
        rw [List.mem_singleton.mp hk']
        intro heq
        have hne := List.find?_eq_none.mp hstate r hr
        simp_all
    | some s =>
        have hmap : (storeReadState (some s) chat_id user_id last_read_seq now db).readStates.map
            (fun r => (r.chat_id, r.user_id)) =
              db.readStates.map fun r => (r.chat_id, r.user_id) := by
          refine map_key_map (fun r => ?_) db.readStates
          split <;> rfl
        rw [hmap]
        exact h.readStates
  have ht := untouched_storeReadState (db.readState chat_id user_id) chat_id user_id
    last_read_seq now db
  unfold Db.uniqueKeys at h ⊢
  rw [ht.users, ht.devices, ht.mailboxes, ht.chats, ht.pairs, ht.messages, ht.envelopes,
    ht.sessions, ht.tokenHistory, ht.members]
  obtain ⟨u₁, u₂, u₃, u₄, u₅, u₆, u₇, u₈, u₉, u₁₀, u₁₁, u₁₂, u₁₃, u₁₄, u₁₅, u₁₆, u₁₇, -⟩ := h
  exact ⟨u₁, u₂, u₃, u₄, u₅, u₆, u₇, u₈, u₉, u₁₀, u₁₁, u₁₂, u₁₃, u₁₄, u₁₅, u₁₆, u₁₇, hkeys⟩

section Alone

variable {t : Tid} {db : Db} {w : World} {principal : Principal} {chat_id : UUID}
  {last_read_seq : Int}

/-- A position of the chat is stored, if it is above the stored one. -/
theorem alone_advance (h : Calm t db [] id w) (hw : Wf db) {other_user_id : UUID} {chat : Chat}
    (hother : db.otherUserId principal.user_id chat_id = some other_user_id)
    (hchat : db.chatFor principal.user_id chat_id = some chat)
    (hlow : 0 < last_read_seq) (hhigh : last_read_seq ≤ chat.last_message_seq)
    (hknown : db.chatPositionExists chat_id last_read_seq = true)
    (hraises : db.lastReadSeq chat_id principal.user_id < last_read_seq) :
    Alone sec t (advance principal chat_id last_read_seq)
      (fun r w' => r.last_read_seq = last_read_seq ∧
        ∃ a : Advanced principal chat_id last_read_seq db, w'.db = a.store)
      (fun _ _ => False) w := by
  unfold advance
  refine Total.bind (alone_query h ?_)
  have hother' : Db.otherUserId principal.user_id chat_id (id db) = some other_user_id := hother
  rw [hother']
  refine Total.bind (alone_selectLocked h hchat fun w₁ h₁ _ => ?_)
  have hrow := chatFor_row hw.unique hchat
  have hrange : ¬(last_read_seq < 0 ∨ (chat.last_message_seq : Int) < last_read_seq) := by
    omega
  show Alone sec t (advanceLocked principal chat_id last_read_seq other_user_id chat) _ _ _
  unfold advanceLocked position_known
  rw [if_neg hrange, if_neg hlow.ne']
  refine Total.bind (alone_query h₁ ?_)
  have hknown' : Db.chatPositionExists chat_id last_read_seq (id db) = true := hknown
  rw [hknown']
  refine Total.bind (alone_query h₁ ?_)
  unfold saveReadState
  rw [if_pos (show ((Db.readState chat_id principal.user_id (id db)).map
    (·.last_read_seq)).getD 0 < last_read_seq from hraises)]
  refine Total.bind (alone_now fun now => ?_)
  refine Total.bind (alone_write h₁ fun w₂ h₂ => ?_)
  have hu := uniqueKeys_storeReadState hw.unique chat_id principal.user_id last_read_seq now
  refine Total.bind (alone_flush h₂ hu ?_)
  unfold notified_devices notified_devices notified_devices
  refine Total.bind (Total.bind (alone_query h₂ ?_))
  refine Total.bind (Total.bind (alone_query h₂ ?_))
  refine .ret (.ret (Total.bind (alone_commit h₂ hu fun w₃ h₃ => ?_)))
  refine Total.bind (alone_publishAll _ h₃ fun w₄ h₄ => .ret ⟨rfl, ?_⟩)
  let a : Advanced principal chat_id last_read_seq db :=
    ⟨other_user_id, chat, now, hother, hrow, hlow.le, hhigh, fun _ => hknown, hraises⟩
  exact ⟨a, h₄.db⟩

end Alone

/-- **Main result.**  Along every run from a database whose positions are in
range, whatever requests run beside each other: the positions stay in range
and never decrease; a stored position is at least the one of every advance
that has succeeded, and the largest of them once all that have not failed have
succeeded; an advance that succeeds returns at least the position it asked for;
and an advance publishes if and only if it has raised the stored position. -/
theorem read_cursors_converge (h₀ : World.Initial sec w₀) (hr : InRange w₀.db)
    (hp : System.Reaches (serverSystem sec) (System.idle w₀) p) :
    InRange p.shared.db ∧
    (∀ p', System.Reaches (serverSystem sec) p p' → ∀ chat_id user_id,
      p.shared.db.lastReadSeq chat_id user_id ≤ p'.shared.db.lastReadSeq chat_id user_id) ∧
    (∀ chat_id user_id,
      (∀ n ∈ p.shared.confirmed chat_id user_id, n ≤ p.shared.db.lastReadSeq chat_id user_id) ∧
      p.shared.db.lastReadSeq chat_id user_id ∈
        insert (w₀.db.lastReadSeq chat_id user_id) (p.shared.asked chat_id user_id) ∧
      (p.shared.asked chat_id user_id ⊆ p.shared.confirmed chat_id user_id →
        IsGreatest (insert (w₀.db.lastReadSeq chat_id user_id)
          (p.shared.confirmed chat_id user_id)) (p.shared.db.lastReadSeq chat_id user_id))) ∧
    ∀ t principal chat_id n, p.shared.op t = some (.advance principal chat_id n) →
      (∀ r, p.shared.outcome t = some (.ok r) →
        ∃ state, r = .readState state ∧ n ≤ state.last_read_seq) ∧
      Tells p.shared t principal.user_id chat_id := by
  have hreach : System.Reachable (serverSystem sec) (World.Initial sec) p := ⟨w₀, h₀, hp⟩
  have hinv := reachable_inv hreach
  have hrange : InRange p.shared.db :=
    (reachable_committed (fun he hw hw' h => he.inRange hw hw'.unique h) ⟨w₀, ⟨h₀, hr⟩, hp⟩).1
  refine ⟨hrange, fun p' h chat_id user_id => ?_, fun chat_id user_id => ?_,
    fun t principal chat_id n hop => ⟨fun r hout => ?_, ?_, ?_⟩⟩
  · exact (reaches_grows hreach h).db.reads chat_id user_id
  · have hupper : ∀ n ∈ p.shared.confirmed chat_id user_id,
        n ≤ p.shared.db.lastReadSeq chat_id user_id := fun n hn => confirmed_le hinv hn
    have hattained := lastReadSeq_attained h₀ hp chat_id user_id
    refine ⟨hupper, hattained, fun hall => ⟨?_, ?_⟩⟩
    · exact hattained.imp id fun h => hall h
    · rintro n (rfl | hn)
      · exact (reaches_grows ⟨w₀, h₀, .refl⟩ hp).db.reads chat_id user_id
      · exact hupper n hn
  · obtain ⟨op, hop', hres⟩ := hinv.outcomes t _ hout
    rw [hop, Option.some.injEq] at hop'
    subst hop'
    obtain ⟨state, rfl, hc⟩ := hres
    exact ⟨state, rfl, hc.requested⟩
  · exact hinv.published t principal chat_id n hop
  · intro r hout
    obtain ⟨op, hop', hres⟩ := hinv.outcomes t _ hout
    rw [hop, Option.some.injEq] at hop'
    subst hop'
    obtain ⟨state, -, hc⟩ := hres
    exact hc.informed

end Runs

/-! ## Bob reads a message -/

namespace Example

def readDb : Db :=
  { smallDb with
    chats := [⟨"chat", 1, "DIRECT"⟩]
    messages := [⟨"m", "chat", "alice", "phone-a", "message-1", 1, 0⟩] }

def readWorld : World :=
  { smallWorld with
    db := readDb
    began := fun _ => readDb }

def bob : Principal := ⟨"bob", "phone-b", "session-b"⟩

theorem readWorld_initial : World.Initial plainSecurity readWorld where
  wf := by constructor <;> decide
  rotation := smallWorld_initial.rotation
  known := smallWorld_initial.known
  issued := fun _ _ => trivial
  history := rfl
  idle := fun _ => ⟨rfl, rfl, rfl, rfl, rfl, rfl, rfl⟩

theorem readDb_inRange : InRange readDb := by
  have hzero : ∀ user_id, readDb.lastReadSeq "chat" user_id = 0 := fun _ => rfl
  refine ⟨fun r hr => ?_, fun c hc user_id => ?_, fun c hc user_id hpos => ?_⟩
  · cases hr
  · obtain rfl := List.mem_singleton.mp hc
    rw [hzero]
    exact ⟨le_refl _, by decide⟩
  · obtain rfl := List.mem_singleton.mp hc
    rw [hzero] at hpos
    exact absurd hpos (lt_irrefl _)

/-- Bob reads the message. -/
theorem read_reaches : ∃ p, System.Reaches (serverSystem plainSecurity)
    (System.idle readWorld) p ∧ p.shared.op 0 = some (.advance bob "chat" 1) ∧
      (∃ state, p.shared.outcome 0 = some (.ok (.readState state))) ∧
        p.shared.db.lastReadSeq "chat" "bob" = 1 := by
  have hrun : Alone plainSecurity 0 (Op.body plainSecurity (.advance bob "chat" 1))
      (fun r w' => (∃ state, r = .readState state) ∧ w'.db.lastReadSeq "chat" "bob" = 1)
      (fun _ _ => False) (readWorld.arrive 0 (.advance bob "chat" 1)) := by
    have hother : readDb.otherUserId bob.user_id "chat" = some "alice" := by decide
    have hchat : readDb.chatFor bob.user_id "chat" = some ⟨"chat", 1, "DIRECT"⟩ := by
      decide
    refine Total.bind (Total.mono (alone_advance readWorld_initial.calm readWorld_initial.wf hother
      hchat Int.one_pos (le_refl _) (by decide) (by decide +kernel)) ?_ ?_)
    · rintro r w' ⟨-, a, hdb⟩
      refine .ret ⟨⟨_, rfl⟩, ?_⟩
      rw [hdb, lastReadSeq_advanced, if_pos ⟨rfl, rfl⟩]
    · exact fun _ _ h => h
  obtain ⟨p, hp, hop, -, o, w₁, hout, hdb, -, hend⟩ := request_runs readWorld_initial hrun
  refine ⟨p, hp, hop, ?_⟩
  cases o with
  | error x =>
      exact hend.elim
  | ok r =>
      obtain ⟨⟨state, rfl⟩, hseq⟩ := hend
      exact ⟨⟨state, hout⟩, hdb ▸ hseq⟩

end Example

theorem read_cursors_converge_read :
    ∃ p state, System.Reaches (serverSystem Example.plainSecurity)
        (System.idle Example.readWorld) p ∧
      p.shared.outcome 0 = some (.ok (.readState state)) ∧ 1 ≤ state.last_read_seq ∧
      (1 : Int) ∈ p.shared.confirmed "chat" "bob" ∧
      p.shared.db.lastReadSeq "chat" "bob" = 1 ∧ InRange p.shared.db := by
  obtain ⟨p, hp, hop, ⟨state, hout⟩, hseq⟩ := Example.read_reaches
  obtain ⟨hrange, -, -, hcalls⟩ :=
    read_cursors_converge Example.readWorld_initial Example.readDb_inRange hp
  obtain ⟨state', heq, hle⟩ := (hcalls 0 _ _ _ hop).1 _ hout
  obtain rfl := Result.readState.inj heq
  exact ⟨p, state, hp, hout, hle, ⟨0, Example.bob, _, hop, rfl, hout⟩, hseq, hrange⟩

end Server
end SecureMessenger
