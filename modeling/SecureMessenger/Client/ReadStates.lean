import SecureMessenger.Client.CommitPage
import SecureMessenger.Client.ReadCursorManager

/-!
# Read states

The three counters of a chat are merged by maximum, in the durable inbox and
again in the manager of each tab.  `AtMost` compares states by their counters;
`Supported` says that the server has reported what a state counts as confirmed
or as read by the other user.
-/

namespace SecureMessenger
namespace Client
namespace Reads

open Lib

/-- The counters of the first state are at most those of the second. -/
structure AtMost (a b : ChatReadState) : Prop where
  own_local : a.ownLocalReadSeq ≤ b.ownLocalReadSeq
  own_confirmed : a.ownConfirmedReadSeq ≤ b.ownConfirmedReadSeq
  peer : a.peerLastReadSeq ≤ b.peerLastReadSeq

/-- The server has reported a cursor of this chat, of the user or of another
one, that is at least `n`; `0` needs no report. -/
def ReportedAt (reported : List ChatReadCursor) (chatId : String) (user : String → Prop) (n : ℤ) :
    Prop :=
  n = 0 ∨ ∃ cursor ∈ reported, cursor.chatId = chatId ∧ user cursor.userId ∧
    ∃ seq, cursor.lastReadSeq = .integer seq ∧ n ≤ seq

/-- The state counts nothing as confirmed that is not read locally or that the
server has not reported. -/
structure Supported (reported : List ChatReadCursor) (scope : InboxScope) (chatId : String)
    (state : ChatReadState) : Prop where
  confirmed_nonneg : 0 ≤ state.ownConfirmedReadSeq
  peer_nonneg : 0 ≤ state.peerLastReadSeq
  confirmed_le : state.ownConfirmedReadSeq ≤ state.ownLocalReadSeq
  confirmed : ReportedAt reported chatId (fun user => user = scope.userId) state.ownConfirmedReadSeq
  peer : ReportedAt reported chatId (fun user => user ≠ scope.userId) state.peerLastReadSeq

/-- The representation of the `readStates` store. -/
structure ReadRows (db : Database) : Prop where
  ordered : Store.Ordered Stored.key db.readStates
  keyed : ∀ entry ∈ db.readStates, entry.key = recordKey entry.scope entry.value.chatId

/-- The stored state of a chat; all counters are `0` if there is none. -/
def readStateAt (scope : InboxScope) (chatId : String) (db : Database) : ChatReadState :=
  ((Store.get Stored.key (recordKey (scopeKey scope) chatId) db.readStates).map
    Stored.value).getD ⟨chatId, 0, 0, 0⟩

section States

variable {scope : InboxScope} {chatId : String} {a b c : ChatReadState}
  {reported reported' : List ChatReadCursor}

theorem AtMost.refl (a : ChatReadState) : AtMost a a :=
  ⟨le_rfl, le_rfl, le_rfl⟩

theorem AtMost.trans (h : AtMost a b) (h' : AtMost b c) : AtMost a c :=
  ⟨h.own_local.trans h'.own_local, h.own_confirmed.trans h'.own_confirmed, h.peer.trans h'.peer⟩

theorem ReportedAt.mono {user : String → Prop} {n : ℤ} (h : ReportedAt reported chatId user n)
    (hsub : reported ⊆ reported') : ReportedAt reported' chatId user n := by
  rcases h with rfl | ⟨cursor, hcursor, hrest⟩
  · exact Or.inl rfl
  · exact Or.inr ⟨cursor, hsub hcursor, hrest⟩

theorem ReportedAt.max {user : String → Prop} {n seq : ℤ} {cursor : ChatReadCursor}
    (h : ReportedAt reported cursor.chatId user n) (hcursor : cursor ∈ reported)
    (huser : user cursor.userId) (hseq : cursor.lastReadSeq = .integer seq) :
    ReportedAt reported cursor.chatId user (Max.max n seq) := by
  rcases max_choice n seq with hmax | hmax
  · rw [hmax]
    exact h
  · rw [hmax]
    exact Or.inr ⟨cursor, hcursor, rfl, huser, seq, hseq, le_rfl⟩

/-- What is at most a reported position has been reached too. -/
theorem ReportedAt.le {user : String → Prop} {n k : ℤ} (h : ReportedAt reported chatId user n)
    (hk : 0 ≤ k) (hle : k ≤ n) : ReportedAt reported chatId user k := by
  rcases h with rfl | ⟨cursor, hcursor, hchat, huser, seq, hseq, hn⟩
  · exact Or.inl (le_antisymm hle hk)
  · exact Or.inr ⟨cursor, hcursor, hchat, huser, seq, hseq, hle.trans hn⟩

theorem Supported.mono (h : Supported reported scope chatId a) (hsub : reported ⊆ reported') :
    Supported reported' scope chatId a :=
  ⟨h.confirmed_nonneg, h.peer_nonneg, h.confirmed_le, h.confirmed.mono hsub, h.peer.mono hsub⟩

theorem supported_zero : Supported reported scope chatId ⟨chatId, 0, 0, 0⟩ :=
  ⟨le_rfl, le_rfl, le_rfl, Or.inl rfl, Or.inl rfl⟩

/-- `mergeChatReadCursor` on a state. -/
def mergedCursor (scope : InboxScope) (cursor : ChatReadCursor) (seq : ℤ) (state : ChatReadState) :
    ChatReadState :=
  if cursor.userId = scope.userId then
    { state with
      ownLocalReadSeq := max state.ownLocalReadSeq seq
      ownConfirmedReadSeq := max state.ownConfirmedReadSeq seq }
  else { state with peerLastReadSeq := max state.peerLastReadSeq seq }

theorem atMost_mergedCursor (cursor : ChatReadCursor) (seq : ℤ) :
    AtMost a (mergedCursor scope cursor seq a) := by
  unfold mergedCursor
  split_ifs
  · exact ⟨le_max_left _ _, le_max_left _ _, le_rfl⟩
  · exact ⟨le_rfl, le_rfl, le_max_left _ _⟩

theorem mergedCursor_chatId (cursor : ChatReadCursor) (seq : ℤ) :
    (mergedCursor scope cursor seq a).chatId = a.chatId := by
  unfold mergedCursor
  split_ifs
  · rfl
  · rfl

/-- A reported cursor may be merged. -/
theorem Supported.mergedCursor {cursor : ChatReadCursor} {seq : ℤ}
    (h : Supported reported scope cursor.chatId a) (hcursor : cursor ∈ reported)
    (hseq : cursor.lastReadSeq = .integer seq) :
    Supported reported scope cursor.chatId (mergedCursor scope cursor seq a) := by
  unfold Reads.mergedCursor
  split_ifs with huser
  · constructor
    case confirmed_nonneg => exact h.confirmed_nonneg.trans (le_max_left _ _)
    case peer_nonneg => exact h.peer_nonneg
    case confirmed_le => exact max_le_max h.confirmed_le le_rfl
    case confirmed => exact h.confirmed.max hcursor huser hseq
    case peer => exact h.peer
  · constructor
    case confirmed_nonneg => exact h.confirmed_nonneg
    case peer_nonneg => exact h.peer_nonneg.trans (le_max_left _ _)
    case confirmed_le => exact h.confirmed_le
    case confirmed => exact h.confirmed
    case peer => exact h.peer.max hcursor huser hseq

/-- `advanceLocalReadCursor` on a state. -/
def advancedLocal (seq : ℤ) (state : ChatReadState) : ChatReadState :=
  { state with ownLocalReadSeq := max state.ownLocalReadSeq seq }

theorem atMost_advancedLocal (seq : ℤ) : AtMost a (advancedLocal seq a) :=
  ⟨le_max_left _ _, le_rfl, le_rfl⟩

theorem Supported.advancedLocal (h : Supported reported scope chatId a) (seq : ℤ) :
    Supported reported scope chatId (advancedLocal seq a) :=
  ⟨h.confirmed_nonneg, h.peer_nonneg, h.confirmed_le.trans (le_max_left _ _), h.confirmed, h.peer⟩

end States

section Transactions

variable {scope : InboxScope} {chatId : String} {db db' : Database}

theorem chatId_readStateAt (h : ReadRows db) : (readStateAt scope chatId db).chatId = chatId := by
  unfold readStateAt
  cases hget : Store.get Stored.key (recordKey (scopeKey scope) chatId) db.readStates with
  | none => rfl
  | some entry =>
      obtain ⟨hmem, hkey⟩ := Store.get_some hget
      have hrecord := (h.keyed entry hmem).symm.trans hkey
      exact (recordKey_inj.mp hrecord).2

/-- A transaction that has updated the state of one chat. -/
structure Updated (scope : InboxScope) (chatId : String) (update : ChatReadState → ChatReadState)
    (db db' : Database) (state : ChatReadState) : Prop where
  rows : ReadRows db'
  state_eq : state = update (readStateAt scope chatId db)
  stored : readStateAt scope chatId db' = state
  others : ∀ c, c ≠ chatId → readStateAt scope c db' = readStateAt scope c db

theorem updateReadState_ok {update : ChatReadState → ChatReadState} {state : ChatReadState}
    (hupdate : ∀ a, (update a).chatId = a.chatId) (hrows : ReadRows db)
    (h : updateReadState scope chatId update db = .ok (state, db')) :
    Updated scope chatId update db db' state := by
  obtain ⟨-, -, h⟩ := ok_of_bind h
  obtain ⟨rfl, rfl⟩ := Prod.mk.inj (Except.ok.inj h)
  have hchat : (update (readStateAt scope chatId db)).chatId = chatId :=
    (hupdate _).trans (chatId_readStateAt hrows)
  constructor
  case rows =>
    refine ⟨Store.ordered_put hrows.ordered, fun entry hentry => ?_⟩
    rcases Store.mem_put hentry with rfl | hold
    · exact congrArg (recordKey (scopeKey scope)) hchat.symm
    · exact hrows.keyed entry hold
  case state_eq => rfl
  case stored =>
    unfold readStateAt
    rw [show recordKey (scopeKey scope) chatId = Stored.key (record (scopeKey scope) chatId
      (update (readStateAt scope chatId db))) from rfl]
    exact congrArg (fun x => (Option.map Stored.value x).getD _) (Store.get_put_self _ _)
  case others =>
    intro c hc
    unfold readStateAt
    have hne : Stored.key (record (scopeKey scope) chatId (update (readStateAt scope chatId db))) ≠
        recordKey (scopeKey scope) c := fun heq => hc (recordKey_inj.mp heq).2.symm
    exact congrArg (fun x => (Option.map Stored.value x).getD _) (Store.get_put_of_ne _ hne)

/-- An update that raises the counters raises them whichever scope one looks
at. -/
theorem atMost_updateReadState {scope' : InboxScope} {update : ChatReadState → ChatReadState}
    {state : ChatReadState} (hupdate : ∀ a, AtMost a (update a))
    (h : updateReadState scope' chatId update db = .ok (state, db')) (c : String) :
    AtMost (readStateAt scope c db) (readStateAt scope c db') := by
  have hreads : db'.readStates = Store.put Stored.key (record (scopeKey scope') chatId
      (update (readStateAt scope' chatId db))) db.readStates := by
    obtain ⟨-, -, h⟩ := ok_of_bind h
    obtain ⟨-, rfl⟩ := Prod.mk.inj (Except.ok.inj h)
    rfl
  by_cases hkey : recordKey (scopeKey scope') chatId = recordKey (scopeKey scope) c
  · obtain ⟨hscope, rfl⟩ := recordKey_inj.mp hkey
    have hprior : readStateAt scope' chatId db = readStateAt scope chatId db := by
      unfold readStateAt
      rw [hscope]
    have hafter : readStateAt scope chatId db' = update (readStateAt scope' chatId db) := by
      generalize update (readStateAt scope' chatId db) = value at hreads
      unfold readStateAt
      have hput : recordKey (scopeKey scope') chatId =
          Stored.key (record (scopeKey scope') chatId value) := rfl
      rw [hreads, ← hkey, hput, Store.get_put_self]
      rfl
    rw [hafter, ← hprior]
    exact hupdate _
  · have hsame : readStateAt scope c db' = readStateAt scope c db := by
      generalize update (readStateAt scope' chatId db) = value at hreads
      unfold readStateAt
      rw [hreads, Store.get_put_of_ne]
      exact hkey
    rw [hsame]
    exact AtMost.refl _

theorem mergeChatReadCursor_updates {cursor : ChatReadCursor} {state : ChatReadState}
    (h : Client.mergeChatReadCursor scope cursor db = .ok (state, db')) :
    ∃ seq, cursor.lastReadSeq = .integer seq ∧
      updateReadState scope cursor.chatId (mergedCursor scope cursor seq) db =
        .ok (state, db') := by
  unfold Client.mergeChatReadCursor at h
  cases hseq : cursor.lastReadSeq with
  | other =>
      rw [hseq] at h
      cases h
  | integer seq =>
      rw [hseq] at h
      by_cases hbad : (JsNumber.integer seq).isSafeInteger = false ∨ seq < 0
      · exact absurd ((if_pos hbad).symm.trans h) nofun
      · exact ⟨seq, rfl, (if_neg hbad).symm.trans h⟩

theorem mergeChatReadCursor_ok {cursor : ChatReadCursor} {state : ChatReadState}
    (hrows : ReadRows db) (h : Client.mergeChatReadCursor scope cursor db = .ok (state, db')) :
    ∃ seq, cursor.lastReadSeq = .integer seq ∧
      Updated scope cursor.chatId (mergedCursor scope cursor seq) db db' state := by
  obtain ⟨seq, hseq, hupdate⟩ := mergeChatReadCursor_updates h
  exact ⟨seq, hseq, updateReadState_ok (fun a => mergedCursor_chatId cursor seq) hrows hupdate⟩

theorem advanceLocalReadCursor_updates {seq : JsNumber} {state : ChatReadState}
    (h : Client.advanceLocalReadCursor scope chatId seq db = .ok (state, db')) :
    ∃ n, updateReadState scope chatId (advancedLocal n) db = .ok (state, db') := by
  unfold Client.advanceLocalReadCursor at h
  cases seq with
  | other => cases h
  | integer n =>
      dsimp only at h
      split_ifs at h
      exact ⟨n, h⟩

theorem advanceLocalReadCursor_ok {seq : JsNumber} {state : ChatReadState} (hrows : ReadRows db)
    (h : Client.advanceLocalReadCursor scope chatId seq db = .ok (state, db')) :
    ∃ n, Updated scope chatId (advancedLocal n) db db' state := by
  obtain ⟨n, hupdate⟩ := advanceLocalReadCursor_updates h
  exact ⟨n, updateReadState_ok (fun a => rfl) hrows hupdate⟩

/-- `readChatReadStates` returns stored states. -/
theorem readChatReadStates_ok {states : List ChatReadState} (hrows : ReadRows db)
    (h : Client.readChatReadStates scope db = .ok (states, db')) :
    db' = db ∧ ∀ state ∈ states, readStateAt scope state.chatId db = state := by
  obtain ⟨-, -, h⟩ := ok_of_bind h
  obtain ⟨rfl, rfl⟩ := Prod.mk.inj (Except.ok.inj h)
  refine ⟨rfl, fun state hstate => ?_⟩
  obtain ⟨entry, hentry, rfl⟩ := List.mem_map.mp hstate
  obtain ⟨hmem, hscope⟩ := List.mem_filter.mp hentry
  have hkey := hrows.keyed entry hmem
  rw [of_decide_eq_true hscope] at hkey
  unfold readStateAt
  rw [← hkey, Store.get_of_mem hrows.ordered hmem]
  rfl

end Transactions

end Reads
end Client
end SecureMessenger
