import SecureMessenger.Lib.Keyset
import SecureMessenger.Server.Requests

/-!
# Members of a chat

Whoever has sent a message to a chat or has read it is one of its members, so
the pages of sent messages and of chat states do not pass anything over: what
lies beyond the cursor of a request is on its page, or beyond the cursor of the
next one, and a message that is left out because it has been read shows in the
position of the member who has read it.
-/

namespace SecureMessenger
namespace Server

open Lib

/-- Users of a chat are its members: those of its pair, the senders of its
messages and its readers. -/
structure Enrolled (db : Db) : Prop where
  low : ∀ p ∈ db.pairs, ⟨p.chat_id, p.user_low_id⟩ ∈ db.members
  high : ∀ p ∈ db.pairs, ⟨p.chat_id, p.user_high_id⟩ ∈ db.members
  senders : ∀ m ∈ db.messages, ⟨m.chat_id, m.sender_user_id⟩ ∈ db.members
  readers : ∀ r ∈ db.readStates, ⟨r.chat_id, r.user_id⟩ ∈ db.members

section Transactions

variable {db db' : Db} {principal : Principal} {chat_id : UUID} {last_read_seq : Int}

theorem Enrolled.of_eq (h : Enrolled db) (hpairs : db'.pairs = db.pairs)
    (hmessages : db'.messages = db.messages) (hreads : db'.readStates = db.readStates)
    (hmembers : db'.members = db.members) : Enrolled db' := by
  obtain ⟨low, high, senders, readers⟩ := h
  constructor
  · rw [hpairs, hmembers]
    exact low
  · rw [hpairs, hmembers]
    exact high
  · rw [hmessages, hmembers]
    exact senders
  · rw [hreads, hmembers]
    exact readers

/-- Who has another user in a chat is a member of it. -/
theorem Enrolled.member (h : Enrolled db) {user_id other_user_id : UUID}
    (hother : db.otherUserId user_id chat_id = some other_user_id) :
    ⟨chat_id, user_id⟩ ∈ db.members := by
  obtain ⟨p, hp, -⟩ := Option.map_eq_some_iff.mp hother
  have hmem : p ∈ db.pairs := List.mem_of_find?_eq_some hp
  have hkey := List.find?_some hp
  rw [Bool.and_eq_true, decide_eq_true_eq] at hkey
  obtain ⟨⟨rfl, huser⟩, -⟩ := hkey
  rcases huser with rfl | rfl
  · exact h.low p hmem
  · exact h.high p hmem

theorem Enrolled.store {request : SendMessageRequest} (h : Enrolled db)
    (a : Accepted principal request db) : Enrolled a.store where
  low := h.low
  high := h.high
  senders := by
    intro m hm
    rcases List.mem_append.mp (store_messages a ▸ hm) with hm | hm
    · exact h.senders m hm
    · obtain rfl := List.mem_singleton.mp hm
      obtain ⟨id, now, hmessage⟩ := a.message_eq
      rw [hmessage]
      exact h.member a.other
  readers := h.readers

theorem Enrolled.advance (h : Enrolled db) (a : Advanced principal chat_id last_read_seq db) :
    Enrolled a.store where
  low := by
    rw [a.tables.pairs, a.tables.members]
    exact h.low
  high := by
    rw [a.tables.pairs, a.tables.members]
    exact h.high
  senders := by
    rw [a.tables.messages, a.tables.members]
    exact h.senders
  readers := by
    rw [a.tables.members]
    unfold Advanced.store storeReadState
    intro r hr
    split at hr
    · rcases List.mem_append.mp hr with hr | hr
      · exact h.readers r hr
      · obtain rfl := List.mem_singleton.mp hr
        exact h.member a.other
    · obtain ⟨r₀, hr₀, rfl⟩ := List.mem_map.mp hr
      split
      · exact h.readers r₀ hr₀
      · exact h.readers r₀ hr₀

theorem Enrolled.insertDirectChat (h : Enrolled db) (low high : UUID) :
    Enrolled (insertDirectChat chat_id low high db) where
  low := by
    intro p hp
    rcases List.mem_append.mp hp with hp | hp
    · exact List.mem_append_left _ (h.low p hp)
    · obtain rfl := List.mem_singleton.mp hp
      exact List.mem_append_right _ List.mem_cons_self
  high := by
    intro p hp
    rcases List.mem_append.mp hp with hp | hp
    · exact List.mem_append_left _ (h.high p hp)
    · obtain rfl := List.mem_singleton.mp hp
      exact List.mem_append_right _ (List.mem_cons_of_mem _ List.mem_cons_self)
  senders := fun m hm => List.mem_append_left _ (h.senders m hm)
  readers := fun r hr => List.mem_append_left _ (h.readers r hr)

/-- **Every transaction keeps the users enrolled.** -/
theorem Effect.enrolled {sec : Security} {op : Op} (h : Effect sec op db db')
    (he : Enrolled db) : Enrolled db' := by
  cases h with
  | send a => exact he.store a
  | advance a => exact he.advance a
  | openDirectChat db chat_id low high hpair => exact he.insertDirectChat low high
  | _ => exact he.of_eq rfl rfl rfl rfl

end Transactions

section Began

variable {sec : Security} {p p' : Pool Sql Sql.Answer PyError World}

theorem began_grantFree (t : Tid) (ids : List UUID) : ∀ w : World,
    (w.grantFree t ids).op = w.op ∧ (w.grantFree t ids).began = w.began := by
  induction ids with
  | nil => exact fun w => ⟨rfl, rfl⟩
  | cons id ids ih => exact fun w => ih (w.grant t (.envelope id) .update)

/-- A call is no arrival. -/
theorem exec_began {t : Tid} {c : Sql} {w w' : World} {a : c.Answer}
    (h : World.exec sec t c w a w') : w'.op = w.op ∧ w'.began = w.began := by
  cases c with
  | query f =>
      obtain ⟨-, rfl⟩ := h
      exact ⟨rfl, rfl⟩
  | lock r mode =>
      rcases h with ⟨-, -, rfl⟩ | ⟨-, rfl⟩
      · exact ⟨rfl, rfl⟩
      · exact ⟨rfl, rfl⟩
  | lockFree f =>
      obtain ⟨locked, -, -, -, rfl⟩ := h
      exact began_grantFree t _ w
  | commit =>
      rcases h with ⟨-, -, rfl⟩ | ⟨-, -, rfl⟩ | ⟨-, rfl⟩
      · exact ⟨rfl, rfl⟩
      · exact ⟨rfl, rfl⟩
      · exact ⟨rfl, rfl⟩
  | flush =>
      obtain ⟨rfl, -⟩ := h
      exact ⟨rfl, rfl⟩
  | token =>
      obtain ⟨-, -, rfl⟩ := h
      exact ⟨rfl, rfl⟩
  | write f =>
      obtain rfl := h
      exact ⟨rfl, rfl⟩
  | rollback =>
      obtain rfl := h
      exact ⟨rfl, rfl⟩
  | now =>
      obtain rfl := h
      exact ⟨rfl, rfl⟩
  | uuid4 =>
      obtain rfl := h
      exact ⟨rfl, rfl⟩
  | publish id =>
      obtain rfl := h
      exact ⟨rfl, rfl⟩
  | finish o =>
      obtain rfl := h
      exact ⟨rfl, rfl⟩

/-- A request begins in the state in which it arrives. -/
theorem step_began {m : Move Op} (h : System.Step (serverSystem sec) m p p') (t : Tid) :
    (p'.shared.op t = p.shared.op t ∧ p'.shared.began t = p.shared.began t) ∨
      p'.shared.began t = p.shared.db := by
  cases h with
  | act ht hx =>
      obtain ⟨hop, hbegan⟩ := exec_began hx
      exact .inl ⟨congrFun hop t, congrFun hbegan t⟩
  | unfold ht => exact .inl ⟨rfl, rfl⟩
  | start ht hs =>
      rename_i t' op w'
      have hs : w' = p.shared.arrive t' op := hs
      subst hs
      by_cases heq : t = t'
      · subst heq
        exact .inr (Function.update_self _ _ _)
      · exact .inl ⟨Function.update_of_ne heq _ _, Function.update_of_ne heq _ _⟩
  | stop ht hs =>
      obtain rfl := hs
      exact .inl ⟨rfl, rfl⟩
  | env hs => exact hs.elim

/-- What every transaction preserves holds in the states in which requests
arrive. -/
theorem reachable_began {P : Db → Prop}
    (hP : ∀ {op db db'}, Effect sec op db db' → Wf db → Wf db' → P db → P db')
    (hp : System.Reachable (serverSystem sec) (fun w => World.Initial sec w ∧ P w.db) p) (t : Tid) :
    p.shared.op t ≠ none → P (p.shared.began t) := by
  refine hp.induct (P := fun p => p.shared.op t ≠ none → P (p.shared.began t)) (fun w hw hop => ?_)
    fun p p' m hr ih hs hop => ?_
  · exact absurd (hw.1.idle t).op hop
  · rcases step_began hs t with ⟨hsame, hbegan⟩ | harrived
    · rw [hbegan]
      exact ih (hsame ▸ hop)
    · rw [harrived]
      exact (reachable_committed hP hr).1

end Began

/-! ## Pages -/

/-- Somebody else has read the message. -/
def ReadByPeer (user_id : UUID) (m : Message) (db : Db) : Prop :=
  ∃ other_user_id, other_user_id ≠ user_id ∧
    (m.chat_seq : Int) ≤ db.lastReadSeq m.chat_id other_user_id

section Pages

variable {db db' db₀ db₁ db₂ : Db} {user_id : UUID} {limit : Nat} {after : Option UUID}

theorem ReadByPeer.grow {m : Message} (h : ReadByPeer user_id m db) (hg : Grows db db') :
    ReadByPeer user_id m db' := by
  obtain ⟨other, hother, hle⟩ := h
  exact ⟨other, hother, hle.trans (hg.reads _ _)⟩

/-- What the filter leaves out has been read. -/
theorem readByPeer_of_peerHasRead (hu : db.uniqueKeys) {m : Message}
    (h : db.peerHasRead user_id m = true) : ReadByPeer user_id m db := by
  obtain ⟨r, hr, hkey⟩ := List.any_eq_true.mp h
  obtain ⟨hchat, huser, hle⟩ := of_decide_eq_true hkey
  refine ⟨r.user_id, huser, ?_⟩
  have hstate : db.readState m.chat_id r.user_id = some r := by
    unfold Db.readState
    cases hfind : db.readStates.find? fun r' =>
        decide (r'.chat_id = m.chat_id ∧ r'.user_id = r.user_id) with
    | none =>
        have hnone := List.find?_eq_none.mp hfind r hr
        exact absurd (decide_eq_true ⟨hchat, rfl⟩) hnone
    | some r' =>
        have hfound := List.find?_some hfind
        have hkey' : r'.chat_id = m.chat_id ∧ r'.user_id = r.user_id := of_decide_eq_true hfound
        have hreads : (db.readStates.map fun r => (r.chat_id, r.user_id)).Nodup :=
          hu.2.2.2.2.2.2.2.2.2.2.2.2.2.2.2.2.2
        rw [eq_of_key hreads (List.mem_of_find?_eq_some hfind) hr
          (by rw [hkey'.1, hkey'.2, hchat])]
  unfold Db.lastReadSeq
  rw [hstate]
  exact hle

/-- The rows that the page of sent messages is taken from. -/
def sendersRows (user_id : UUID) (unread_only : Bool) (db : Db) : List Message :=
  db.messages.filter fun m => decide (m.sender_user_id = user_id) &&
    db.isMember m.chat_id user_id && !(unread_only && db.peerHasRead user_id m)

theorem sentRows_eq_following (unread_only : Bool) : db.sentRows user_id after limit unread_only =
    (Keyset.following (·.id) after (sendersRows user_id unread_only db)).take (limit + 1) := by
  unfold Db.sentRows Keyset.following sendersRows
  rw [List.filter_filter]
  congr 2
  refine List.filter_congr fun m _ => ?_
  cases after with
  | none => simp [Keyset.beyond]
  | some id =>
      simp only [Option.all_some, Keyset.beyond]
      cases decide (id < m.id) <;> simp

theorem chatRows_eq_following : db.chatRows user_id after limit =
    (Keyset.following (·.id) after (db.chats.filter fun c => db.isMember c.id user_id)).take
      (limit + 1) := by
  unfold Db.chatRows Keyset.following
  rw [List.filter_filter]
  congr 2
  refine List.filter_congr fun c _ => ?_
  cases after with
  | none => simp [Keyset.beyond]
  | some id =>
      simp only [Option.all_some, Keyset.beyond]
      cases decide (id < c.id) <;> simp

theorem isMember_of_mem {chat_id : UUID} (h : ⟨chat_id, user_id⟩ ∈ db.members) :
    db.isMember chat_id user_id = true :=
  List.any_eq_true.mpr ⟨_, h, decide_eq_true ⟨rfl, rfl⟩⟩

/-- Where a page of rows with different keys leads on to. -/
theorem beyond_next {ρ : Type} {key : ρ → UUID} {rows : List ρ} {r : ρ}
    (hbeyond : Keyset.beyond key after r = true)
    (h : ∀ r', (Keyset.page key limit after rows).rows.getLast? = some r' →
      Keyset.beyond key (some (key r')) r = true) {next : UUID}
    (hnext : (((Keyset.page key limit after rows).rows.getLast?.map key).or after) = some next) :
    Keyset.beyond key (some next) r = true := by
  cases hlast : (Keyset.page key limit after rows).rows.getLast? with
  | none =>
      rw [hlast] at hnext
      have hafter : after = some next := hnext
      rw [← hafter]
      exact hbeyond
  | some r' =>
      rw [hlast] at hnext
      have hkey : key r' = next := Option.some.inj hnext
      rw [← hkey]
      exact h r' hlast

/-- **The page of sent messages passes nothing over** that nobody else has
read. -/
theorem SentFrom.covers {page : SentMessagesPage}
    (h : SentFrom user_id after limit true page db) (hw : Wf db) {m : Message}
    (hm : m ∈ db.messages) (hsender : m.sender_user_id = user_id)
    (hmember : ⟨m.chat_id, user_id⟩ ∈ db.members)
    (hbeyond : Keyset.beyond (·.id) after m = true) :
    m ∈ page.messages.map (·.message) ∨ ReadByPeer user_id m db ∨
      (page.has_more = true ∧ ∀ next, page.next_message_id = some next →
        Keyset.beyond (·.id) (some next) m = true) := by
  have hrows : (db.sentRows user_id after limit true).take limit =
      (Keyset.page (·.id) limit after (sendersRows user_id true db)).rows := by
    rw [sentRows_eq_following]
    rfl
  cases hread : db.peerHasRead user_id m with
  | true => exact .inr (.inl (readByPeer_of_peerHasRead hw.unique hread))
  | false =>
      have hmem : m ∈ sendersRows user_id true db := by
        refine List.mem_filter.mpr ⟨hm, ?_⟩
        simp [hsender, isMember_of_mem hmember, hread]
      have hdistinct : Keyset.Distinct (·.id) (sendersRows user_id true db) :=
        hw.unique.messages.sublist (List.filter_sublist.map _)
      rcases Keyset.mem_page_or_beyond limit hdistinct hmem hbeyond with
        hpage | ⟨hmore, hlast⟩
      · left
        rw [h.messages, hrows]
        exact hpage
      · refine .inr (.inr ⟨?_, fun next hnext => ?_⟩)
        · rw [h.more, sentRows_eq_following]
          exact hmore
        · refine beyond_next hbeyond hlast ?_
          rw [← hrows, ← h.next]
          exact hnext

/-- **The page of chat states passes no chat over.** -/
theorem StatesFrom.covers {page : ChatStatesPage}
    (h : StatesFrom user_id after limit page db₀ db₁ db₂) (hw : Wf db₀) {c : Chat}
    (hc : c ∈ db₀.chats) (hmember : ⟨c.id, user_id⟩ ∈ db₀.members)
    (hbeyond : Keyset.beyond (·.id) after c = true) :
    chatState c (db₁.membersOf c.id) db₂.readStates ∈ page.states ∨
      (page.has_more = true ∧ ∀ next, page.next_chat_id = some next →
        Keyset.beyond (·.id) (some next) c = true) := by
  have hrows : (db₀.chatRows user_id after limit).take limit = (Keyset.page (·.id) limit after
      (db₀.chats.filter fun c => db₀.isMember c.id user_id)).rows := by
    rw [chatRows_eq_following]
    rfl
  have hmem : c ∈ db₀.chats.filter fun c => db₀.isMember c.id user_id :=
    List.mem_filter.mpr ⟨hc, isMember_of_mem hmember⟩
  have hdistinct : Keyset.Distinct (·.id) (db₀.chats.filter fun c => db₀.isMember c.id user_id) :=
    hw.unique.chats.sublist (List.filter_sublist.map _)
  rcases Keyset.mem_page_or_beyond limit hdistinct hmem hbeyond with
    hpage | ⟨hmore, hlast⟩
  · left
    rw [h.states, hrows]
    exact List.mem_map.mpr ⟨c, hpage, rfl⟩
  · refine .inr ⟨?_, fun next hnext => ?_⟩
    · rw [h.more, chatRows_eq_following]
      exact hmore
    · refine beyond_next hbeyond hlast ?_
      rw [← hrows, ← h.next]
      exact hnext

/-- A state reports the position of each member. -/
theorem mem_chatState {c : Chat} {other_user_id : UUID}
    (h : ⟨c.id, other_user_id⟩ ∈ db₁.members) :
    ∃ cursor ∈ (chatState c (db₁.membersOf c.id) db₂.readStates).read_states,
      cursor.chat_id = c.id ∧ cursor.user_id = other_user_id ∧
        cursor.last_read_seq = db₂.lastReadSeq c.id other_user_id := by
  have hmem : (⟨c.id, other_user_id⟩ : ChatMember) ∈ db₁.membersOf c.id :=
    (List.mem_insertionSort _).mpr (List.mem_filter.mpr ⟨h, decide_eq_true rfl⟩)
  exact ⟨_, List.mem_map.mpr ⟨_, hmem, rfl⟩, rfl, rfl, rfl⟩

/-- A reader of a message is a member of its chat. -/
theorem Enrolled.reader (h : Enrolled db) {chat_id other_user_id : UUID}
    (hpos : 0 < db.lastReadSeq chat_id other_user_id) : ⟨chat_id, other_user_id⟩ ∈ db.members := by
  unfold Db.lastReadSeq at hpos
  cases hstate : db.readState chat_id other_user_id with
  | none =>
      rw [hstate] at hpos
      exact absurd hpos (lt_irrefl 0)
  | some r =>
      have hmem : r ∈ db.readStates := List.mem_of_find?_eq_some hstate
      have hfound := List.find?_some hstate
      have hkey : r.chat_id = chat_id ∧ r.user_id = other_user_id := of_decide_eq_true hfound
      rw [← hkey.1, ← hkey.2]
      exact h.readers r hmem

end Pages

end Server
end SecureMessenger
