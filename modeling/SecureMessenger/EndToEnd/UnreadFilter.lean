import SecureMessenger.Client.DeliveryEvidence
import SecureMessenger.EndToEnd.NoLoss
import SecureMessenger.EndToEnd.RecoveryWalks
import SecureMessenger.EndToEnd.SentRows
import SecureMessenger.Server.ReadCursors

/-!
# The unread filter loses no status

A message that the walk over the metadata does not return has been read by
somebody else when its page is fetched.  Positions only grow, so the walk over
the chat states, which begins later, finds a position beyond it and merges it
into the inbox.
-/

namespace SecureMessenger
namespace EndToEnd
namespace Recovery

open Lib
open Lib.Discipline
open Client (JsError ScopeRef metadataAt phoneScope emptyInbox)
open Client.Reads (AtMost readStateAt ReadRows)

/-! ## The inbox -/

section Inbox

variable {scope : Client.InboxScope} {db db' : Client.Database}

theorem metadataAt_congr (h : db'.sentMetadata = db.sentMetadata) (id : String) :
    metadataAt scope id db' = metadataAt scope id db := by
  unfold metadataAt
  rw [h]

/-- Metadata that is stored is found, and what was found is found still. -/
theorem metadataAt_putMetadata (v : Client.SentMessage) :
    (metadataAt scope v.id (Client.putMetadata scope v db)).isSome ∧
      ∀ id, (metadataAt scope id db).isSome →
        (metadataAt scope id (Client.putMetadata scope v db)).isSome := by
  have hkey : Client.Stored.key (Client.record (Client.scopeKey scope) v.id v) =
      Client.recordKey (Client.scopeKey scope) v.id := rfl
  have hself : (metadataAt scope v.id (Client.putMetadata scope v db)).isSome := by
    unfold metadataAt Client.putMetadata
    rw [← hkey, Store.get_put_self]
    rfl
  refine ⟨hself, fun id hid => ?_⟩
  by_cases heq : v.id = id
  · exact heq ▸ hself
  · unfold metadataAt Client.putMetadata
    rw [Store.get_put_of_ne]
    · exact hid
    · rw [hkey]
      exact fun hrecord => heq (Client.recordKey_inj.mp hrecord).2

/-- `mergeSentMetadata` stores the message and leaves the read states alone. -/
theorem mergeSentMetadata_stores {message value : Client.SentMessage}
    (h : Client.mergeSentMetadata scope message db = .ok (value, db')) :
    db'.readStates = db.readStates ∧ (metadataAt scope message.id db').isSome ∧
      ∀ id, (metadataAt scope id db).isSome → (metadataAt scope id db').isSome := by
  obtain ⟨hvalue, hreads, hmetadata⟩ := Acceptance.mergeSentMetadata_tables h
  obtain ⟨hself, hold⟩ := @metadataAt_putMetadata scope db value
  refine ⟨hreads, ?_, fun id hid => ?_⟩
  · rw [metadataAt_congr hmetadata, ← hvalue]
    exact hself
  · rw [metadataAt_congr hmetadata]
    exact hold id hid

/-- The transactions on read states leave the metadata alone. -/
theorem updateReadState_metadata {chatId : String}
    {update : Client.ChatReadState → Client.ChatReadState} {state : Client.ChatReadState}
    (h : Client.updateReadState scope chatId update db = .ok (state, db')) :
    db'.sentMetadata = db.sentMetadata := by
  obtain ⟨-, -, h⟩ := Client.ok_of_bind h
  obtain ⟨-, rfl⟩ := Prod.mk.inj (Except.ok.inj h)
  rfl

end Inbox

/-! ## The server -/

section Server

/-- The metadata is that of the message, its position included. -/
structure Reports (message : Server.Message) (sent : Client.SentMessage) : Prop
    extends Acceptance.Describes sent message where
  chat_seq : sent.chatSeq = some message.chat_seq

theorem reports_sentMessage (iso : Server.Instant → Client.Timestamp)
    (stored : Server.StoredMessage) : Reports stored.message (sentMessage iso stored) :=
  ⟨⟨rfl, rfl, rfl, rfl, rfl⟩, rfl⟩

/-- A server on a well-formed database whose users are enrolled. -/
def Ready (sec : Server.Security) (w : Server.World) : Prop :=
  Server.World.Initial sec w ∧ Server.Enrolled w.db

variable {sec : Server.Security} (T : Timeline (Server.serverSystem sec) (Ready sec))
  {iso : Server.Instant → Client.Timestamp} {principal : Server.Principal} {m n : Nat}
  {began : Server.Db}

theorem world_inv (n : Nat) : Server.Inv sec (world T n) := by
  obtain ⟨w, hw, hreaches⟩ := T.reachable n
  exact Server.reachable_inv ⟨w, hw.1, hreaches⟩

theorem world_grows (h : m ≤ n) : Server.World.Grows (world T m) (world T n) := by
  obtain ⟨w, hw, hreaches⟩ := T.reachable m
  exact Server.reaches_grows ⟨w, hw.1, hreaches⟩ (T.reaches h)

variable {T}

/-- What is known of the state in which an answered request arrived. -/
structure Arrived (m n : Nat) (op : Server.Op) (r : Server.Result) (began : Server.Db) : Prop where
  wf : Server.Wf began
  enrolled : Server.Enrolled began
  since : Server.Grows (world T m).db began
  outcome : ∃ own published, Server.Outcome sec own published began (world T n).db op (.ok r)

theorem Responds.arrived (h : m ≤ n) {op : Server.Op} {r : Server.Result}
    (hr : Responds T m n op r began) : @Arrived sec T m n op r began := by
  obtain ⟨u, hnone, hop, houtcome, rfl⟩ := hr
  have hcommitted : Server.Wf ((world T n).began u) ∧ Server.Enrolled ((world T n).began u) := by
    have hreachable : System.Reachable (Server.serverSystem sec) (fun w =>
        Server.World.Initial sec w ∧ Server.Wf w.db ∧ Server.Enrolled w.db) (T.pool n) := by
      obtain ⟨w, hw, hreaches⟩ := T.reachable n
      exact ⟨w, ⟨hw.1, hw.1.wf, hw.2⟩, hreaches⟩
    refine Server.reachable_began (P := fun db => Server.Wf db ∧ Server.Enrolled db)
      (fun heffect _ hw' he => ⟨hw', heffect.enrolled he.2⟩) hreachable u ?_
    have hsome : (T.pool n).shared.op u = some op := hop
    rw [hsome]
    exact Option.some_ne_none op
  obtain ⟨op', hop', hresult⟩ := (world_inv T n).outcomes u _ houtcome
  obtain rfl : op = op' := Option.some.inj (hop.symm.trans hop')
  exact ⟨hcommitted.1, hcommitted.2, (world_grows T h).starts u op hnone hop, _, _, hresult⟩

/-- Positions count from 1. -/
theorem chat_seq_pos {db : Server.Db} (hw : Server.Wf db) {message : Server.Message}
    (hm : message ∈ db.messages) : 0 < (message.chat_seq : Int) := by
  obtain ⟨c, hc, hid⟩ := List.mem_map.mp (hw.message_chat message hm)
  have hseq : message.chat_seq ∈ Server.chatSeqs c.id db :=
    List.mem_map.mpr ⟨message, List.mem_filter.mpr ⟨hm, decide_eq_true hid.symm⟩, rfl⟩
  have hpos := (List.mem_range'_1.mp ((hw.chat_seqs c hc).mem_iff.mp hseq)).1
  omega

variable (iso) in
/-- **A page of metadata**: a message beyond its cursor is on it, has been read
by somebody else, or lies beyond the cursor of the next page. -/
theorem sentPage_covers (hmn : m ≤ n) {after : Option String} {p : Server.SentMessagesPage}
    (hr : Responds T m n (.sentPage principal after 100 true) (.sentMessages p) began)
    {message : Server.Message} (hm : message ∈ began.messages)
    (hsender : message.sender_user_id = principal.user_id)
    (hbeyond : Keyset.beyond (·.id) after message = true) :
    (∃ sent ∈ (sentMessagesPage iso p).messages, Reports message sent) ∨
      Server.ReadByPeer principal.user_id message (world T n).db ∨
      ((sentMessagesPage iso p).hasMore = true ∧
        ∀ next, (sentMessagesPage iso p).nextMessageId = some next →
          Keyset.beyond (·.id) (some next) message = true) := by
  have ha := hr.arrived hmn
  obtain ⟨own, published, page, db₀, hpage, h₀, h₁, hw, hfrom⟩ := ha.outcome
  obtain rfl : p = page := by injection hpage
  have hmember : ⟨message.chat_id, principal.user_id⟩ ∈ db₀.members := by
    rw [← hsender]
    exact h₀.members _ (ha.enrolled.senders message hm)
  rcases hfrom.covers hw (h₀.messages message hm) hsender hmember hbeyond with
    hmem | hread | hnext
  · left
    obtain ⟨stored, hstored, hmessage⟩ := List.mem_map.mp hmem
    refine ⟨sentMessage iso stored, List.mem_map.mpr ⟨stored, hstored, rfl⟩, ?_⟩
    rw [← hmessage]
    exact reports_sentMessage iso stored
  · exact .inr (.inl (hread.grow h₁))
  · exact .inr (.inr hnext)

/-- **A page of chat states**: the chat of a message that somebody else has
read is on it with a position beyond the message, or lies beyond the cursor of
the next page. -/
theorem chatStates_covers (hmn : m ≤ n) {after : Option String} {p : Server.ChatStatesPage}
    (hr : Responds T m n (.chatStates principal after 100) (.chatStates p) began)
    {message : Server.Message} (hm : message ∈ (world T m).db.messages)
    (hsender : message.sender_user_id = principal.user_id)
    (hread : Server.ReadByPeer principal.user_id message (world T m).db)
    (hbeyond : Keyset.beyond (·.chat_id) after message = true) :
    (∃ state ∈ (chatStatesPage iso p).states, ∃ cursor ∈ state.readStates,
      cursor.chatId = message.chat_id ∧ cursor.userId ≠ principal.user_id ∧
        ∃ seq, cursor.lastReadSeq = .integer seq ∧ (message.chat_seq : Int) ≤ seq) ∨
      ((chatStatesPage iso p).hasMore = true ∧
        ∀ next, (chatStatesPage iso p).nextChatId = some next →
          Keyset.beyond (·.chat_id) (some next) message = true) := by
  have ha := hr.arrived hmn
  obtain ⟨own, published, page, db₀, db₁, db₂, hpage, h₀, h₁, h₂, -, hw₀, -, hfrom⟩ := ha.outcome
  obtain rfl : p = page := by injection hpage
  have hmb : message ∈ began.messages := ha.since.messages message hm
  obtain ⟨other, hother, hle⟩ := hread.grow ha.since
  have hreader : ⟨message.chat_id, other⟩ ∈ db₁.members := by
    refine h₁.members _ (h₀.members _ (ha.enrolled.reader ?_))
    exact (chat_seq_pos ha.wf hmb).trans_le hle
  have hmember : ⟨message.chat_id, principal.user_id⟩ ∈ db₀.members := by
    rw [← hsender]
    exact h₀.members _ (ha.enrolled.senders message hmb)
  obtain ⟨c₀, hc₀, hid₀⟩ := List.mem_map.mp (ha.wf.message_chat message hmb)
  obtain ⟨c, hc, hid, -⟩ := h₀.chats c₀ hc₀
  have hchat : c.id = message.chat_id := hid.trans hid₀
  have hbeyond' : Keyset.beyond (·.id) after c = true := by
    cases after with
    | none => rfl
    | some id =>
        rw [Keyset.beyond_some] at hbeyond ⊢
        rw [hchat]
        exact hbeyond
  rw [← hchat] at hmember hreader
  rcases hfrom.covers hw₀ hc hmember hbeyond' with hmem | ⟨hmore, hnext⟩
  · left
    obtain ⟨cursor, hcursor, hcchat, huser, hseq⟩ := @Server.mem_chatState db₁ db₂ c other hreader
    refine ⟨_, List.mem_map.mpr ⟨_, hmem, rfl⟩, chatReadCursor iso cursor,
      List.mem_map.mpr ⟨cursor, hcursor, rfl⟩, hcchat.trans hchat, ?_, cursor.last_read_seq,
      rfl, ?_⟩
    · have hsame : (chatReadCursor iso cursor).userId = other := huser
      rw [hsame]
      exact hother
    · rw [hseq, hchat]
      exact hle.trans (((h₀.trans h₁).trans h₂).reads _ _)
  · refine .inr ⟨hmore, fun next hlast => ?_⟩
    have hbeyond'' := hnext next hlast
    rw [Keyset.beyond_some] at hbeyond'' ⊢
    rw [← hchat]
    exact hbeyond''

end Server

/-! ## The discipline -/

section Runs

variable {sec : Server.Security} (T : Timeline (Server.serverSystem sec) (Ready sec))
  (principal : Server.Principal) (ref : ScopeRef)

/-- What holds in every reachable state. -/
structure Inv (s : Memory) : Prop where
  rows : ReadRows s.fields.db
  current : s.fields.current = some ref
  session : ∀ i, (s.tabs i).session = some ref
  asked : ∀ t, s.asked t ≤ s.now
  fetched : ∀ t db, s.fetched t = some db → Server.Grows db (world T (s.asked t)).db
  stored : ∀ t, ∀ sent ∈ s.merged t, (metadataAt ref.scope sent.id s.fields.db).isSome

/-- What no step undoes. -/
structure Grows (s s' : Memory) : Prop where
  now : s.now ≤ s'.now
  asked : ∀ t, s.asked t ≤ s'.asked t
  read : ∀ c, AtMost (readStateAt ref.scope c s.fields.db) (readStateAt ref.scope c s'.fields.db)
  fetched : ∀ t db, s.fetched t = some db → s'.fetched t = some db
  merged : ∀ t, s.merged t ⊆ s'.merged t

/-- The message has been merged for the thread. -/
def Merged (t : Tid) (message : Server.Message) (s : Memory) : Prop :=
  ∃ sent ∈ s.merged t, Reports message sent

/-- The inbox counts the message as read by the other user. -/
def PeerPast (message : Server.Message) (s : Memory) : Prop :=
  (message.chat_seq : ℤ) ≤ (readStateAt ref.scope message.chat_id s.fields.db).peerLastReadSeq

/-- Of the messages the user had sent, none has been lost: each has been merged
or is counted as read. -/
def Covered (t : Tid) (db : Server.Db) (s : Memory) : Prop :=
  ∀ message ∈ db.messages, message.sender_user_id = principal.user_id →
    Merged t message s ∨ PeerPast ref message s

variable {ref} {s s' s'' : Memory} {t : Tid}

theorem Grows.refl (s : Memory) : Grows ref s s :=
  ⟨le_rfl, fun _ => le_rfl, fun _ => AtMost.refl _, fun _ _ h => h, fun _ => List.Subset.refl _⟩

theorem Grows.trans (h : Grows ref s s') (h' : Grows ref s' s'') : Grows ref s s'' :=
  ⟨h.now.trans h'.now, fun t => (h.asked t).trans (h'.asked t),
    fun c => (h.read c).trans (h'.read c), fun t db hdb => h'.fetched t db (h.fetched t db hdb),
    fun t => List.Subset.trans (h.merged t) (h'.merged t)⟩

theorem Merged.grow {message : Server.Message} (h : Merged t message s) (hg : Grows ref s s') :
    Merged t message s' := by
  obtain ⟨sent, hsent, hid⟩ := h
  exact ⟨sent, hg.merged t hsent, hid⟩

theorem PeerPast.grow {message : Server.Message} (h : PeerPast ref message s)
    (hg : Grows ref s s') : PeerPast ref message s' :=
  h.trans (hg.read message.chat_id).peer

variable (ref)

/-- The discipline of the recovery: the record of a thread is its own. -/
def discipline : Discipline Memory where
  inv := Inv T ref
  grow := Grows ref
  own t s s' := s'.fetched t = s.fetched t
  idle t s := s.fetched t = none
  done t s := ∀ db, s.fetched t = some db → Covered principal ref t db s
  grow_refl := Grows.refl
  grow_trans := Grows.trans
  own_refl _ _ := rfl
  own_trans h h' := h'.trans h
  idle_drift h _ hown := hown.trans h
  done_drift h hgrow hown := by
    intro db hdb message hm hsender
    rw [hown] at hdb
    exact (h db hdb message hm hsender).imp (fun hm => hm.grow hgrow) fun hp => hp.grow hgrow

variable {T principal ref}

/-- A step that leaves the sessions and the record of the pages alone. -/
theorem keeps_of (hinv : Inv T ref s) (hrows : ReadRows s'.fields.db)
    (hcurrent : s'.fields.current = s.fields.current)
    (hsession : ∀ i, (s'.tabs i).session = (s.tabs i).session)
    (hread : ∀ c, AtMost (readStateAt ref.scope c s.fields.db)
      (readStateAt ref.scope c s'.fields.db))
    (hstored : ∀ id, (metadataAt ref.scope id s.fields.db).isSome →
      (metadataAt ref.scope id s'.fields.db).isSome)
    (hnow : s'.now = s.now) (hasked : s'.asked = s.asked ∨ s'.asked = (s.goesOn t).asked)
    (hmerged : s'.merged = s.merged) (hfetched : s'.fetched = s.fetched) :
    (discipline T principal ref).Keeps t s s' := by
  have hasked' : ∀ u, s.asked u ≤ s'.asked u ∧ s'.asked u ≤ s'.now := by
    intro u
    rw [hnow]
    rcases hasked with h | h
    · rw [h]
      exact ⟨le_rfl, hinv.asked u⟩
    · rw [h]
      unfold Memory.goesOn
      by_cases hu : u = t
      · subst hu
        simp only [Function.update_self]
        exact ⟨hinv.asked u, le_rfl⟩
      · simp only [Function.update_of_ne hu]
        exact ⟨le_rfl, hinv.asked u⟩
  refine ⟨?_, ⟨hnow.ge, fun u => (hasked' u).1, hread, fun u db hdb => ?_, fun u => ?_⟩,
    fun u _ => congrFun hfetched u⟩
  · constructor
    case rows => exact hrows
    case current => exact hcurrent.trans hinv.current
    case session => exact fun i => (hsession i).trans (hinv.session i)
    case asked => exact fun u => (hasked' u).2
    case fetched =>
      intro u db hdb
      rw [hfetched] at hdb
      exact (hinv.fetched u db hdb).trans (world_grows T (hasked' u).1).db
    case stored =>
      intro u sent hsent
      rw [hmerged] at hsent
      exact hstored _ (hinv.stored u sent hsent)
  · rw [hfetched]
    exact hdb
  · rw [hmerged]
    exact List.Subset.refl _

/-- A page of metadata has been noted. -/
theorem keeps_fetch (hinv : Inv T ref s) {began : Server.Db}
    (hbegan : Server.Grows began (world T (s.asked t)).db) :
    (discipline T principal ref).Keeps t s (s.fetch t began) := by
  have hothers : ∀ u, u ≠ t → (s.fetch t began).fetched u = s.fetched u :=
    fun u hu => Function.update_of_ne hu _ _
  have hself : (s.fetch t began).fetched t = some ((s.fetched t).getD began) :=
    Function.update_self _ _ _
  refine ⟨?_, ⟨le_rfl, fun _ => le_rfl, fun _ => AtMost.refl _, fun u db hdb => ?_,
    fun _ => List.Subset.refl _⟩, hothers⟩
  · refine ⟨hinv.rows, hinv.current, hinv.session, hinv.asked, fun u db hdb => ?_, hinv.stored⟩
    by_cases hu : u = t
    · subst hu
      rw [hself] at hdb
      obtain rfl := Option.some.inj hdb
      cases hfetched : s.fetched u with
      | none => exact hbegan
      | some db => exact hinv.fetched u db hfetched
    · rw [hothers u hu] at hdb
      exact hinv.fetched u db hdb
  · by_cases hu : u = t
    · subst hu
      rw [hself, hdb]
      rfl
    · rw [hothers u hu]
      exact hdb

/-- A message has been merged. -/
theorem keeps_merge (hinv : Inv T ref s) {message : Client.SentMessage}
    (hmessage : (metadataAt ref.scope message.id s.fields.db).isSome) :
    (discipline T principal ref).Keeps t s (s.merge t message) := by
  have hself : (s.merge t message).merged t = message :: s.merged t := Function.update_self _ _ _
  have hothers : ∀ u, u ≠ t → (s.merge t message).merged u = s.merged u :=
    fun u hu => Function.update_of_ne hu _ _
  refine ⟨?_, ⟨le_rfl, fun _ => le_rfl, fun _ => AtMost.refl _, fun _ _ h => h, fun u => ?_⟩,
    fun _ _ => rfl⟩
  · refine ⟨hinv.rows, hinv.current, hinv.session, hinv.asked, hinv.fetched, fun u sent hsent => ?_⟩
    by_cases hu : u = t
    · subst hu
      rw [hself] at hsent
      rcases List.mem_cons.mp hsent with rfl | hsent
      · exact hmessage
      · exact hinv.stored u sent hsent
    · rw [hothers u hu] at hsent
      exact hinv.stored u sent hsent
  · by_cases hu : u = t
    · subst hu
      rw [hself]
      exact List.subset_cons_self _ _
    · rw [hothers u hu]
      exact List.Subset.refl _

/-! ## The walk over the metadata -/

section Metadata

variable (iso : Server.Instant → Client.Timestamp) {K J : Memory → Prop} {α : Type}

variable (T principal ref t) in
/-- A thread that knows `K` may run the function of `OutgoingManager`. -/
abbrev Sending (K : Memory → Prop) (p : Client.Outgoing.Async α) (Q : α → Memory → Prop) : Prop :=
  Triple (discipline T principal ref) (execOutgoing T iso principal) t K p Q fun _ _ => True

variable {iso}

theorem sending_await {g : Client.Outgoing.Promise} {Q : g.Reply → Memory → Prop}
    (hK : Persists (discipline T principal ref) t K)
    (hg : ∀ s (r : Except JsError g.Reply) s', Inv T ref s → K s →
      execOutgoing T iso principal t (.settle g) s r s' →
        (discipline T principal ref).Keeps t s s' ∧ ∀ a, r = .ok a → Q a s') :
    Sending T principal ref t iso K (Client.Outgoing.await g) Q :=
  Triple.eff (J := fun (r : Except JsError g.Reply) s => ∀ a, r = .ok a → Q a s) hK
    (fun s r s' hinv hk hx => hg s r s' hinv hk hx)
    fun _ => Triple.ofExcept (fun a ha _ h => h a ha) fun _ _ _ _ => trivial

/-- The scope has not changed. -/
theorem sending_checkScope (hK : Lasting (discipline T principal ref) K) :
    Sending T principal ref t iso K (Client.Outgoing.reads (·.checkScope ref)) fun _ s => K s := by
  have hsegment : Sending T principal ref t iso K
      (segment none fun fields => (fields.checkScope ref, fields)) fun _ s => K s := by
    refine Triple.eff (J := fun _ s => K s) hK.persists ?_ fun r => Triple.pure fun _ h => h
    rintro s a s' hinv hk ⟨-, rfl⟩
    exact ⟨Keeps.refl hinv, hk⟩
  exact hsegment.bind fun r => Triple.ofExcept (fun _ _ _ h => h) fun _ _ _ _ => trivial

/-- Queueing the status of a merged message. -/
theorem sending_queueMerged (hK : Lasting (discipline T principal ref) K)
    (accepted : Client.SentMessage) :
    Sending T principal ref t iso K (do
      Prog.ofExcept (← segment (some (.queueDelivery accepted))
        (Client.Outgoing.queueMerged ref accepted))) fun _ s => K s := by
  have hsegment : Sending T principal ref t iso K (segment (some (.queueDelivery accepted))
      (Client.Outgoing.queueMerged ref accepted)) fun _ s => K s := by
    refine Triple.eff (J := fun _ s => K s) hK.persists ?_ fun r => Triple.pure fun _ h => h
    rintro s a s' hinv hk ⟨-, rfl⟩
    have hfields : (Client.Outgoing.queueMerged ref accepted s.fields).2.db = s.fields.db ∧
        (Client.Outgoing.queueMerged ref accepted s.fields).2.current = s.fields.current := by
      unfold Client.Outgoing.queueMerged
      cases s.fields.checkScope ref with
      | error x => exact ⟨rfl, rfl⟩
      | ok u =>
          simp only [Client.Outgoing.Fields.queueDelivery, Client.Outgoing.Fields.publishDeliveries]
          split_ifs
          · exact ⟨rfl, rfl⟩
          · exact ⟨rfl, rfl⟩
    have hkeeps : (discipline T principal ref).Keeps t s
        { s with fields := (Client.Outgoing.queueMerged ref accepted s.fields).2 } := by
      refine keeps_of hinv ?_ hfields.2 (fun _ => rfl) (fun c => ?_) (fun id h => ?_) rfl
        (.inl rfl) rfl rfl
      · exact hfields.1 ▸ hinv.rows
      · simp only [hfields.1]
        exact AtMost.refl _
      · simp only [hfields.1]
        exact h
    exact ⟨hkeeps, hK _ _ hk hkeeps.grow⟩
  exact hsegment.bind fun r => Triple.ofExcept (fun _ _ _ h => h) fun _ _ _ _ => trivial

/-- A transaction has been aborted, or has failed. -/
theorem keeps_goesOn (hinv : Inv T ref s) :
    (discipline T principal ref).Keeps t s (s.goesOn t) :=
  keeps_of hinv hinv.rows rfl (fun _ => rfl) (fun _ => AtMost.refl _) (fun _ h => h) rfl
    (.inr rfl) rfl rfl

theorem lasting_merged {messages : List Client.SentMessage} :
    Lasting (discipline T principal ref) fun s => messages ⊆ s.merged t :=
  fun _ _ hs hg => List.Subset.trans hs (hg.merged t)

/-- Merging a message. -/
theorem sending_mergeSentMetadata (message : Client.SentMessage) :
    Sending T principal ref t iso (fun _ => True)
      (Client.Outgoing.await (.mergeSentMetadata ref.scope message))
      fun _ s => [message] ⊆ s.merged t := by
  refine sending_await lasting_true.persists ?_
  rintro s r s' hinv - ⟨fields, ⟨db, rfl, hrun⟩, hnoted⟩
  rcases hrun with (⟨value, hok, rfl⟩ | ⟨x, -, rfl, rfl⟩) | ⟨rfl, ⟨reason, rfl⟩⟩
  · obtain ⟨hreads, hself, hold⟩ := mergeSentMetadata_stores hok
    have hstates : ∀ c, readStateAt ref.scope c db = readStateAt ref.scope c s.fields.db := by
      intro c
      unfold readStateAt
      rw [hreads]
    have hkeeps : (discipline T principal ref).Keeps t s
        ({ s with fields := { s.fields with db := db } }.goesOn t) := by
      refine keeps_of hinv ⟨?_, ?_⟩ rfl (fun _ => rfl) (fun c => ?_) hold rfl (.inr rfl) rfl rfl
      · show Store.Ordered _ db.readStates
        rw [hreads]
        exact hinv.rows.ordered
      · show ∀ entry ∈ db.readStates, _
        rw [hreads]
        exact hinv.rows.keyed
      · show AtMost _ (readStateAt ref.scope c db)
        rw [hstates c]
        exact AtMost.refl _
    obtain rfl := hnoted
    refine ⟨hkeeps.trans (keeps_merge hkeeps.inv hself), fun a _ => ?_⟩
    have hmerged : ∀ s₁ : Memory, (s₁.merge t message).merged t = message :: s₁.merged t :=
      fun s₁ => Function.update_self _ _ _
    rw [hmerged]
    exact List.cons_subset_cons _ (List.nil_subset _)
  · obtain rfl := hnoted
    exact ⟨keeps_goesOn hinv, fun a ha => by cases ha⟩
  · obtain rfl := hnoted
    exact ⟨keeps_goesOn hinv, fun a ha => by cases ha⟩

/-- The messages of a page have been merged. -/
theorem sending_mergeEach (messages : List Client.SentMessage) :
    Sending T principal ref t iso (fun _ => True) (Client.Outgoing.mergeEach ref messages)
      fun _ s => messages ⊆ s.merged t := by
  induction messages with
  | nil => exact Triple.pure fun _ _ => List.nil_subset _
  | cons message rest ih =>
      refine (sending_mergeSentMetadata message).bind fun accepted => ?_
      refine (sending_queueMerged lasting_merged accepted).bind fun _ => ?_
      have hrest : Sending T principal ref t iso (fun s => True ∧ [message] ⊆ s.merged t)
          (Client.Outgoing.mergeEach ref rest)
          fun _ s => rest ⊆ s.merged t ∧ [message] ⊆ s.merged t :=
        (ih.frame lasting_merged).post (fun _ _ h => h) fun _ _ _ => trivial
      refine (hrest.mono fun s h => ⟨trivial, h⟩).post (fun _ s h => ?_) fun _ _ _ => trivial
      exact List.cons_subset.mpr ⟨h.2 List.mem_cons_self, h.1⟩

variable (T principal t)

/-- Somebody else had read the message when the thread went on last. -/
def ReadThen (message : Server.Message) (s : Memory) : Prop :=
  Server.ReadByPeer principal.user_id message (world T (s.asked t)).db

/-- What is known of the messages the user had sent. -/
def Known (P : Server.Message → Prop) (s : Memory) : Prop :=
  ∃ db, s.fetched t = some db ∧ ∀ message ∈ db.messages,
    message.sender_user_id = principal.user_id →
      Merged t message s ∨ ReadThen T principal t message s ∨ P message

variable {T principal t}

theorem ReadThen.grow {message : Server.Message} (h : ReadThen T principal t message s)
    (hg : Grows ref s s') : ReadThen T principal t message s' :=
  Server.ReadByPeer.grow h (world_grows T (hg.asked t)).db

theorem lasting_known {P : Server.Message → Prop} :
    Lasting (discipline T principal ref) (Known T principal t P) := by
  rintro s s' ⟨db, hdb, hall⟩ hg
  refine ⟨db, hg.fetched t db hdb, fun message hm hsender => ?_⟩
  exact (hall message hm hsender).imp (fun h => h.grow hg) (Or.imp_left fun h => h.grow hg)

variable (T principal t)

/-- Where the walk over the metadata stands: at its beginning, or what is left
of the messages lies beyond the cursor. -/
def Walking (after : Option String) (s : Memory) : Prop :=
  (after = none ∧ s.fetched t = none) ∨
    Known T principal t (fun message => Keyset.beyond (·.id) after message = true) s

/-- What a page of metadata leaves open. -/
def Open (page : Client.SentMessagesPage) (message : Server.Message) : Prop :=
  (∃ sent ∈ page.messages, Reports message sent) ∨
    (page.hasMore = true ∧ ∀ next, page.nextMessageId = some next →
      Keyset.beyond (·.id) (some next) message = true)

variable {T principal t}

theorem persists_walking (after : Option String) :
    Persists (discipline T principal ref) t (Walking T principal t after) := by
  rintro s s' (⟨hafter, hnone⟩ | hknown) hd
  · exact .inl ⟨hafter, hd.own.trans hnone⟩
  · exact .inr (lasting_known s s' hknown hd.grow)

/-- **A page of metadata arrives.** -/
theorem sending_getSentMessages (after : Option String) :
    Sending T principal ref t iso (Walking T principal t after)
      (Client.Outgoing.await (.getSentMessages after))
      fun page s => Known T principal t (Open page) s := by
  refine sending_await (persists_walking after) ?_
  rintro s r s' hinv hwalking ⟨fields, hfields, hnoted⟩
  obtain rfl : fields = s.fields := hfields
  have hkeeps : (discipline T principal ref).Keeps t s (s.goesOn t) := keeps_goesOn hinv
  cases r with
  | error x =>
      obtain rfl := hnoted
      exact ⟨hkeeps, fun page hpage => by cases hpage⟩
  | ok page =>
      obtain ⟨p, began, hresponds, hpage, rfl⟩ := hnoted
      have harrived := hresponds.arrived (hinv.asked t)
      have hnow : (s.goesOn t).asked t = s.now := Function.update_self _ _ _
      have hbegan : Server.Grows began (world T ((s.goesOn t).asked t)).db := by
        obtain ⟨own, published, p', db₀, -, h₀, h₁, -⟩ := harrived.outcome
        rw [hnow]
        exact h₀.trans h₁
      have hkeeps' := hkeeps.trans (keeps_fetch hkeeps.inv hbegan)
      refine ⟨hkeeps', fun page' hpage' => ?_⟩
      obtain rfl := Except.ok.inj hpage'
      have hread : ∀ {message : Server.Message},
          Server.ReadByPeer principal.user_id message (world T s.now).db →
            ReadThen T principal t message ((s.goesOn t).fetch t began) := by
        intro message h
        show Server.ReadByPeer principal.user_id message (world T ((s.goesOn t).asked t)).db
        rw [hnow]
        exact h
      -- what the page says of a message beyond its cursor
      have hcovers : ∀ message ∈ began.messages, message.sender_user_id = principal.user_id →
          Keyset.beyond (·.id) after message = true →
            ReadThen T principal t message ((s.goesOn t).fetch t began) ∨
              Open page message := by
        intro message hm hsender hbeyond
        rcases sentPage_covers iso (hinv.asked t) hresponds hm hsender hbeyond with
          hmem | hpeer | hnext
        · exact .inr (.inl (hpage ▸ hmem))
        · exact .inl (hread hpeer)
        · exact .inr (.inr (hpage ▸ hnext))
      rcases hwalking with ⟨rfl, hnone⟩ | ⟨db, hdb, hall⟩
      · refine ⟨began, ?_, fun message hm hsender => .inr (hcovers message hm hsender rfl)⟩
        have hself : ((s.goesOn t).fetch t began).fetched t = some ((s.fetched t).getD began) :=
          Function.update_self _ _ _
        rw [hself, hnone]
        rfl
      · refine ⟨db, hkeeps'.grow.fetched t db hdb, fun message hm hsender => ?_⟩
        rcases hall message hm hsender with hmerged | hthen | hbeyond
        · exact .inl (hmerged.grow hkeeps'.grow)
        · exact .inr (.inl (hthen.grow hkeeps'.grow))
        · refine .inr (hcovers message ?_ hsender hbeyond)
          exact harrived.since.messages _ ((hinv.fetched t db hdb).messages message hm)

/-- **The walk over the metadata** leaves open only messages that somebody else
had read. -/
theorem sending_recoverSentMetadata :
    Sending T principal ref t iso (fun s => s.fetched t = none)
      (Client.Outgoing.recoverSentMetadata ref)
      fun _ s => Known T principal t (fun _ => False) s := by
  refine Triple.iterate (Walking T principal t) persists_walking (fun s h => .inl ⟨rfl, h⟩)
    fun after => ?_
  refine (sending_getSentMessages after).bind fun page => ?_
  refine (sending_checkScope lasting_known).bind fun _ => ?_
  have hmerge : Sending T principal ref t iso
      (fun s => True ∧ Known T principal t (Open page) s)
      (Client.Outgoing.mergeEach ref page.messages)
      fun _ s => page.messages ⊆ s.merged t ∧ Known T principal t (Open page) s :=
    ((sending_mergeEach page.messages).frame lasting_known).post (fun _ _ h => h)
      fun _ _ _ => trivial
  refine (hmerge.mono fun s h => ⟨trivial, h⟩).bind fun _ => ?_
  -- the messages of the page are merged by now
  have hleft : ∀ {P : Server.Message → Prop} {s : Memory},
      page.messages ⊆ s.merged t ∧ Known T principal t (Open page) s →
        (∀ message, page.hasMore = true → (∀ next, page.nextMessageId = some next →
          Keyset.beyond (·.id) (some next) message = true) → P message) →
          Known T principal t P s := by
    rintro P s ⟨hmerged, db, hdb, hall⟩ hP
    refine ⟨db, hdb, fun message hm hsender => ?_⟩
    rcases hall message hm hsender with hmem | hthen | ⟨sent, hsent, hid⟩ | ⟨hmore, hnext⟩
    · exact .inl hmem
    · exact .inr (.inl hthen)
    · exact .inl ⟨sent, hmerged hsent, hid⟩
    · exact .inr (.inr (hP message hmore hnext))
  split
  · rename_i hlast
    refine Triple.pure fun s h => ⟨fun _ hr => ?_, fun _ _ => hleft h fun message hmore => ?_⟩
    · cases hr
    · rw [hmore] at hlast
      cases hlast
  · split
    · exact Triple.throw fun _ _ => trivial
    · rename_i hnext
      refine Triple.pure fun s h => ⟨fun after' hr => ?_, fun _ hr => ?_⟩
      · obtain rfl := Sum.inl.inj hr
        refine .inr (hleft h fun message _ hbeyond => ?_)
        cases hid : page.nextMessageId with
        | none => exact absurd (.inl hid) hnext
        | some next => exact hbeyond next hid
      · cases hr

end Metadata

/-! ## The walk over the chat states -/

section Positions

open Client.Reads (Manager onTab orThrow)

variable (iso : Server.Instant → Client.Timestamp) {K : Memory → Prop} {α : Type} {i : Nat}

variable (T principal ref t) in
/-- A thread that knows `K` may run the function of `ReadCursorManager`. -/
abbrev Positioning (K : Memory → Prop) (p : Client.Reads.Async α) (Q : α → Memory → Prop) : Prop :=
  Triple (discipline T principal ref) (execReads T iso principal) t K p Q fun _ _ => True

variable {iso}

/-- What promises on the inbox leave as it is. -/
theorem settles_inbox {g : Client.Reads.Promise} {m m' : Client.Reads.Memory}
    {r : Except JsError g.Reply} (hrows : ReadRows m.db)
    (h : Client.Reads.Promise.settles g m r m') :
    m'.tabs = m.tabs ∧ ReadRows m'.db ∧
      (∀ c, AtMost (readStateAt ref.scope c m.db) (readStateAt ref.scope c m'.db)) ∧
        ∀ id, metadataAt ref.scope id m'.db = metadataAt ref.scope id m.db := by
  have hsame : ∀ db, db = m.db → ReadRows db ∧
      (∀ c, AtMost (readStateAt ref.scope c m.db) (readStateAt ref.scope c db)) ∧
        ∀ id, metadataAt ref.scope id db = metadataAt ref.scope id m.db := by
    rintro db rfl
    exact ⟨hrows, fun c => AtMost.refl _, fun id => rfl⟩
  cases g with
  | readChatReadStates scope =>
      obtain ⟨db, hrun, rfl⟩ := h
      rcases Client.Reads.inbox_cases hrun with ⟨states, hok, rfl⟩ | ⟨-, hdb⟩
      · exact ⟨rfl, hsame _ (Client.Reads.readChatReadStates_ok hrows hok).1⟩
      · exact ⟨rfl, hsame _ hdb⟩
  | mergeChatReadCursor scope cursor =>
      obtain ⟨db, hrun, rfl⟩ := h
      rcases Client.Reads.inbox_cases hrun with ⟨state, hok, rfl⟩ | ⟨-, hdb⟩
      · obtain ⟨seq, -, hupdate⟩ := Client.Reads.mergeChatReadCursor_updates hok
        exact ⟨rfl, (Client.Reads.updateReadState_ok
          (fun a => Client.Reads.mergedCursor_chatId cursor seq) hrows hupdate).rows,
          Client.Reads.atMost_updateReadState
            (fun a => Client.Reads.atMost_mergedCursor cursor seq) hupdate,
          metadataAt_congr (updateReadState_metadata hupdate)⟩
      · exact ⟨rfl, hsame _ hdb⟩
  | advanceLocalReadCursor scope chatId seq =>
      obtain ⟨db, hrun, rfl⟩ := h
      rcases Client.Reads.inbox_cases hrun with ⟨state, hok, rfl⟩ | ⟨-, hdb⟩
      · obtain ⟨n, hupdate⟩ := Client.Reads.advanceLocalReadCursor_updates hok
        have hchat : ∀ a, (Client.Reads.advancedLocal n a).chatId = a.chatId := fun _ => rfl
        exact ⟨rfl, (Client.Reads.updateReadState_ok hchat hrows hupdate).rows,
          Client.Reads.atMost_updateReadState (fun a => Client.Reads.atMost_advancedLocal n)
            hupdate,
          metadataAt_congr (updateReadState_metadata hupdate)⟩
      · exact ⟨rfl, hsame _ hdb⟩
  | getChatStates after =>
      obtain rfl := h
      exact ⟨rfl, hsame _ rfl⟩
  | advanceReadCursor chatId seq =>
      obtain rfl := h
      exact ⟨rfl, hsame _ rfl⟩

/-- A call that leaves the sessions alone. -/
def Mild : Client.Reads.Call → Prop
  | .segment (α := α) _ f => ∃ (i : Nat) (g : Manager → α × Manager),
      f = (fun m => ((g (m.tabs i)).1,
          { m with tabs := Function.update m.tabs i (g (m.tabs i)).2 })) ∧
        ∀ m, (g m).2.session = m.session
  | .settle _ => True

theorem keeps_mild {c : Client.Reads.Call} {a : c.Answer} (hinv : Inv T ref s)
    (hx : execReads T iso principal t c s a s') (hc : Mild c) :
    (discipline T principal ref).Keeps t s s' ∧ s'.fetched = s.fetched := by
  cases c with
  | segment activity f =>
      obtain ⟨i, g, rfl, hg⟩ := hc
      obtain ⟨-, rfl⟩ := hx
      refine ⟨keeps_of hinv hinv.rows rfl (fun j => ?_) (fun _ => AtMost.refl _) (fun _ h => h) rfl
        (.inl rfl) rfl rfl, rfl⟩
      by_cases hj : j = i
      · subst hj
        exact (congrArg Manager.session (Function.update_self _ _ _)).trans (hg _)
      · exact congrArg Manager.session (Function.update_of_ne hj _ _)
  | settle g =>
      obtain ⟨-, m, hm, rfl⟩ := hx
      obtain ⟨htabs, hrows, hread, hstored⟩ := @settles_inbox ref g s.reads m a hinv.rows hm
      refine ⟨keeps_of hinv hrows rfl (fun j => ?_) hread
        (fun id h => ?_) rfl (.inr rfl) rfl rfl, rfl⟩
      · exact congrArg (fun tabs => (tabs j).session) htabs
      · exact (congrArg Option.isSome (hstored id)).trans h

/-- A program with only such calls keeps what lasts. -/
theorem positioning_mild {p : Client.Reads.Async α} (hK : Lasting (discipline T principal ref) K)
    (hp : Prog.Calls Mild p) : Positioning T principal ref t iso K p fun _ => K := by
  refine (Triple.calls hK.persists (fun e s r s' he hinv hk hx => ?_) hp).post (fun _ _ h => h)
    fun _ _ _ => trivial
  obtain ⟨hkeeps, -⟩ := keeps_mild hinv hx he
  exact ⟨hkeeps, hK _ _ hk hkeeps.grow⟩

theorem mild_onTab {f : Manager → α × Manager} (hf : ∀ m, (f m).2.session = m.session) :
    Prog.Calls Mild (onTab i f) :=
  calls_segment ⟨i, f, rfl, hf⟩

theorem mild_orThrow {f : Manager → Except JsError α × Manager}
    (hf : ∀ m, (f m).2.session = m.session) : Prog.Calls Mild (orThrow i f) := by
  refine .bind (mild_onTab hf) fun r => ?_
  cases r with
  | ok a => trivial
  | error x => trivial

theorem mild_await (g : Client.Reads.Promise) : Prog.Calls Mild (Client.Reads.await g) :=
  calls_awaits trivial

theorem session_scope (m : Manager) : m.scope.2.session = m.session := by
  unfold Manager.scope
  cases hsession : m.session with
  | none => exact hsession
  | some session =>
      dsimp only
      split_ifs
      · exact hsession
      · rfl

theorem session_ifSame {f : Manager → Manager} (hf : ∀ m, (f m).session = m.session)
    (m : Manager) : (m.ifSame ref f).2.session = m.session := by
  unfold Manager.ifSame
  cases m.sameScope ref with
  | error x => rfl
  | ok same =>
      cases same with
      | true => exact hf m
      | false => rfl

theorem session_schedule (m : Manager) : m.schedule.session = m.session := by
  unfold Manager.schedule
  split_ifs
  · rfl
  · rfl

theorem session_publishAll (states : List Client.ChatReadState) : ∀ m : Manager,
    (states.foldl (fun m state => m.publish state) m).session = m.session := by
  induction states with
  | nil => exact fun _ => rfl
  | cons state rest ih => exact fun m => ih (m.publish state)

theorem mild_restore : Prog.Calls Mild (Client.Reads.restore i) :=
  .bind (mild_orThrow session_scope) fun _ => .bind (mild_await _) fun states =>
    .bind (mild_orThrow (session_ifSame (session_publishAll states))) fun _ => trivial

theorem mild_merge (cursor : Client.ChatReadCursor) :
    Prog.Calls Mild (Client.Reads.merge i cursor) :=
  .bind (mild_orThrow session_scope) fun _ => .bind (mild_await _) fun _ =>
    .bind (mild_orThrow (session_ifSame fun _ => rfl)) fun _ => trivial

theorem mild_advance (chatId : String) (seq : Client.JsNumber) :
    Prog.Calls Mild (Client.Reads.advance i chatId seq) := by
  have hstart : ∀ n m, (Client.Reads.startAdvance chatId n m).2.session = m.session := by
    intro n m
    have hscope := session_scope m
    unfold Client.Reads.startAdvance
    rcases hm : m.scope with ⟨r, m'⟩
    rw [hm] at hscope
    cases r with
    | error x => exact hscope
    | ok ref => exact hscope
  unfold Client.Reads.advance
  cases seq with
  | other => trivial
  | integer n =>
      dsimp only
      split_ifs
      · trivial
      · refine .bind (mild_orThrow (hstart n)) fun start => ?_
        cases start with
        | none => trivial
        | some scope =>
            exact .bind (mild_await _) fun state =>
              .bind (mild_orThrow (session_ifSame fun m => session_schedule _)) fun _ => trivial

theorem mild_flush : Prog.Calls Mild (Client.Reads.flush i) := by
  have hsame : ∀ scope, Prog.Calls Mild (orThrow i (Manager.ifSame scope id)) :=
    fun scope => mild_orThrow (session_ifSame fun _ => rfl)
  have hconfirm : ∀ scope state, Prog.Calls Mild (Client.Reads.confirmRead i scope state) := by
    intro scope state
    refine .bind (mild_await _) fun cursor => .bind (hsame scope) fun same => ?_
    split
    · split
      · trivial
      · exact .bind (mild_merge _) fun _ => trivial
    · trivial
  have hround : ∀ scope state, Prog.Calls Mild (Client.Reads.flushRound i scope state) := by
    intro scope state
    refine .bind (.attempt (.bind (.attempt (hconfirm scope state)) fun r => ?_)) fun outcome =>
      .bind (mild_onTab fun m => ?_) fun _ => ?_
    · rcases r with x | (_ | _)
      · refine .bind (hsame scope) fun same => ?_
        split
        · trivial
        · trivial
      · trivial
      · trivial
    · unfold Client.Reads.releaseFlush
      dsimp only
      split_ifs
      · rfl
      · rfl
    · cases outcome with
      | ok _ => trivial
      | error _ => trivial
  have hstart : ∀ m : Manager, (Client.Reads.startFlush m).2.session = m.session := by
    intro m
    have hscope := session_scope m
    unfold Client.Reads.startFlush
    split_ifs
    · rfl
    · rcases hm : m.scope with ⟨r, m'⟩
      rw [hm] at hscope
      cases r with
      | error x => exact hscope
      | ok ref => exact hscope
  have hnext : ∀ k retry (m : Manager), (Client.Reads.nextFlush k retry m).2.session =
      m.session := by
    intro k retry m
    unfold Client.Reads.nextFlush
    split
    · unfold Manager.finishFlush
      split_ifs
      · exact session_schedule m
      · rfl
    · split_ifs
      · rfl
      · rfl
  refine .bind (mild_orThrow hstart) fun start => ?_
  cases start with
  | none => trivial
  | some scope =>
      refine ⟨fun ⟨k, retry⟩ => ?_, fun r => ?_⟩
      · refine .bind (mild_onTab (hnext k retry)) fun step => ?_
        cases step with
        | finished => trivial
        | skip => trivial
        | send state =>
            refine .bind (hround scope state) fun again => ?_
            cases again with
            | none => trivial
            | some again => trivial
      · cases r with
        | ok _ => trivial
        | error _ => trivial

/-- A segment of a tab that leaves its session alone. -/
theorem positioning_orThrow {f : Manager → Except JsError α × Manager} {Q : α → Prop}
    (hK : Lasting (discipline T principal ref) K) (hf : ∀ m, (f m).2.session = m.session)
    (hQ : ∀ m : Manager, m.session = some ref → ∀ a, (f m).1 = .ok a → Q a) :
    Positioning T principal ref t iso K (orThrow i f) fun a s => Q a ∧ K s := by
  have hsegment : Positioning T principal ref t iso K (onTab i f)
      fun r s => (∀ a, r = .ok a → Q a) ∧ K s := by
    refine Triple.eff (J := fun r s => (∀ a, r = .ok a → Q a) ∧ K s) hK.persists ?_
      fun r => Triple.pure fun _ h => h
    intro s r s' hinv hk hx
    have hkeeps := (keeps_mild hinv hx ⟨i, f, rfl, hf⟩).1
    obtain ⟨rfl, -⟩ := hx
    exact ⟨hkeeps, hQ _ (hinv.session i), hK _ _ hk hkeeps.grow⟩
  exact hsegment.bind fun r => Triple.ofExcept (fun a ha _ h => ⟨h.1 a ha, h.2⟩)
    fun _ _ _ _ => trivial

/-- There is one session. -/
theorem positioning_scope (hK : Lasting (discipline T principal ref) K) :
    Positioning T principal ref t iso K (orThrow i Manager.scope)
      fun ref' s => ref' = ref ∧ K s := by
  refine positioning_orThrow hK session_scope fun m hm ref' hok => ?_
  unfold Manager.scope at hok
  rw [hm] at hok
  dsimp only at hok
  split_ifs at hok
  · exact (Except.ok.inj hok).symm
  · exact (Except.ok.inj hok).symm

theorem positioning_ifSame {f : Manager → Manager} (hf : ∀ m, (f m).session = m.session)
    (hK : Lasting (discipline T principal ref) K) :
    Positioning T principal ref t iso K (orThrow i (Manager.ifSame ref f))
      fun same s => same = true ∧ K s := by
  refine positioning_orThrow hK (session_ifSame hf) fun m hm same hok => ?_
  have hsame : m.sameScope ref = .ok true := by
    unfold Manager.sameScope
    rw [hm]
    exact congrArg Except.ok (decide_eq_true rfl)
  unfold Manager.ifSame at hok
  rw [hsame] at hok
  exact (Except.ok.inj hok).symm

/-- The inbox counts what the cursor of another user says as read. -/
def Noticed (ref : ScopeRef) (cursor : Client.ChatReadCursor) (s : Memory) : Prop :=
  cursor.userId ≠ ref.scope.userId → ∀ seq, cursor.lastReadSeq = .integer seq →
    seq ≤ (readStateAt ref.scope cursor.chatId s.fields.db).peerLastReadSeq

theorem lasting_noticed {cursors : List Client.ChatReadCursor} :
    Lasting (discipline T principal ref) fun s => ∀ cursor ∈ cursors, Noticed ref cursor s :=
  fun _ _ hs hg cursor hcursor huser seq hseq =>
    (hs cursor hcursor huser seq hseq).trans (hg.read cursor.chatId).peer

/-- **A cursor is merged.** -/
theorem positioning_merge (cursor : Client.ChatReadCursor) :
    Positioning T principal ref t iso (fun _ => True) (Client.Reads.merge i cursor)
      fun _ s => ∀ c ∈ [cursor], Noticed ref c s := by
  refine (positioning_scope lasting_true).bind fun ref' => ?_
  have hmerge : Positioning T principal ref t iso (fun _ => ref' = ref ∧ True)
      (Client.Reads.await (.mergeChatReadCursor ref'.scope cursor))
      fun (_ : Client.ChatReadState) s => ∀ c ∈ [cursor], Noticed ref c s := by
    refine Triple.eff (J := fun (r : Except JsError Client.ChatReadState) s =>
      ∀ a, r = .ok a → ∀ c ∈ [cursor], Noticed ref c s) (fun _ _ h _ => h) ?_
      fun _ => Triple.ofExcept (fun a ha _ h => h a ha) fun _ _ _ _ => trivial
    rintro s (r : Except JsError Client.ChatReadState) s' hinv ⟨rfl, -⟩ hx
    refine ⟨(keeps_mild hinv hx trivial).1, fun a ha c hc huser seq hseq => ?_⟩
    obtain ⟨-, m, ⟨db, hrun, rfl⟩, rfl⟩ := hx
    obtain rfl := List.mem_singleton.mp hc
    rcases Client.Reads.inbox_cases hrun with ⟨state, hok, -⟩ | ⟨⟨x, hx⟩, -⟩
    · obtain ⟨seq', hseq', hupdated⟩ := Client.Reads.mergeChatReadCursor_ok hinv.rows hok
      obtain rfl : seq' = seq := by
        rw [hseq'] at hseq
        injection hseq
      show seq' ≤ (readStateAt ref'.scope c.chatId db).peerLastReadSeq
      rw [hupdated.stored, hupdated.state_eq]
      unfold Client.Reads.mergedCursor
      rw [if_neg huser]
      exact le_max_right _ _
    · rw [ha] at hx
      cases hx
  refine hmerge.bind fun state => ?_
  refine positioning_mild lasting_noticed (.bind (mild_orThrow (session_ifSame fun _ => rfl)) ?_)
  exact fun _ => trivial

theorem positioning_mergeCursors (chatId : String) (cursors : List Client.ChatReadCursor) :
    Positioning T principal ref t iso (fun _ => True)
      (Client.Reads.mergeCursors i ref chatId cursors)
      fun same s => same = true ∧ ∀ cursor ∈ cursors, Noticed ref cursor s := by
  induction cursors with
  | nil => exact Triple.pure fun _ _ => ⟨rfl, fun _ h => by cases h⟩
  | cons cursor rest ih =>
      unfold Client.Reads.mergeCursors
      split
      · exact Triple.throw fun _ _ => trivial
      · refine (positioning_merge cursor).bind fun _ => ?_
        refine (positioning_ifSame (fun _ => rfl) lasting_noticed).bind fun same => ?_
        cases same with
        | false => exact Triple.pure fun s h => absurd h.1 Bool.false_ne_true
        | true =>
            have hrest : Positioning T principal ref t iso
                (fun s => True ∧ ∀ c ∈ [cursor], Noticed ref c s)
                (Client.Reads.mergeCursors i ref chatId rest)
                fun same s => (same = true ∧ ∀ c ∈ rest, Noticed ref c s) ∧
                  ∀ c ∈ [cursor], Noticed ref c s :=
              (ih.frame lasting_noticed).post (fun _ _ h => h) fun _ _ _ => trivial
            refine (hrest.mono fun s h => ⟨trivial, h.2⟩).post (fun same s h => ⟨h.1.1, ?_⟩)
              fun _ _ _ => trivial
            intro c hc
            rcases List.mem_cons.mp hc with rfl | hc
            · exact h.2 c List.mem_cons_self
            · exact h.1.2 c hc

theorem positioning_mergeStates (states : List Client.ChatStatesEntry) :
    Positioning T principal ref t iso (fun _ => True) (Client.Reads.mergeStates i ref states)
      fun same s => same = true ∧
        ∀ cursor ∈ states.flatMap Client.ChatStatesEntry.readStates, Noticed ref cursor s := by
  induction states with
  | nil => exact Triple.pure fun _ _ => ⟨rfl, fun _ h => by cases h⟩
  | cons state rest ih =>
      refine (positioning_mergeCursors state.chatId state.readStates).bind fun same => ?_
      cases same with
      | false => exact Triple.pure fun s h => absurd h.1 Bool.false_ne_true
      | true =>
          have hrest : Positioning T principal ref t iso
              (fun s => True ∧ ∀ c ∈ state.readStates, Noticed ref c s)
              (Client.Reads.mergeStates i ref rest)
              fun same s => (same = true ∧
                ∀ c ∈ rest.flatMap Client.ChatStatesEntry.readStates, Noticed ref c s) ∧
                  ∀ c ∈ state.readStates, Noticed ref c s :=
            (ih.frame lasting_noticed).post (fun _ _ h => h) fun _ _ _ => trivial
          refine (hrest.mono fun s h => ⟨trivial, h.2⟩).post (fun same s h => ⟨h.1.1, ?_⟩)
            fun _ _ _ => trivial
          intro c hc
          rcases List.mem_append.mp (List.flatMap_cons ▸ hc) with hc | hc
          · exact h.2 c hc
          · exact h.1.2 c hc

variable (T principal ref t)

/-- What is known of the messages the user had sent, once their metadata has
been fetched. -/
def Settled (P : Server.Message → Prop) (s : Memory) : Prop :=
  ∃ db, s.fetched t = some db ∧ ∀ message ∈ db.messages,
    message.sender_user_id = principal.user_id →
      Merged t message s ∨ PeerPast ref message s ∨
        (ReadThen T principal t message s ∧ P message)

/-- What a page of chat states leaves open. -/
def Reported (page : Client.ChatStatesPage) (message : Server.Message) : Prop :=
  (∃ state ∈ page.states, ∃ cursor ∈ state.readStates,
    cursor.chatId = message.chat_id ∧ cursor.userId ≠ principal.user_id ∧
      ∃ seq, cursor.lastReadSeq = .integer seq ∧ (message.chat_seq : Int) ≤ seq) ∨
    (page.hasMore = true ∧ ∀ next, page.nextChatId = some next →
      Keyset.beyond (·.chat_id) (some next) message = true)

variable {T principal ref t}

theorem lasting_settled {P : Server.Message → Prop} :
    Lasting (discipline T principal ref) (Settled T principal ref t P) := by
  rintro s s' ⟨db, hdb, hall⟩ hg
  refine ⟨db, hg.fetched t db hdb, fun message hm hsender => ?_⟩
  rcases hall message hm hsender with hmerged | hpast | ⟨hthen, hP⟩
  · exact .inl (hmerged.grow hg)
  · exact .inr (.inl (hpast.grow hg))
  · exact .inr (.inr ⟨hthen.grow hg, hP⟩)

/-- **A page of chat states arrives.** -/
theorem positioning_getChatStates (after : Option String) :
    Positioning T principal ref t iso
      (Settled T principal ref t fun message => Keyset.beyond (·.chat_id) after message = true)
      (Client.Reads.await (.getChatStates after))
      fun page s => Settled T principal ref t (Reported principal page) s := by
  refine Triple.eff (J := fun (r : Except JsError Client.ChatStatesPage) s =>
    ∀ page, r = .ok page → Settled T principal ref t (Reported principal page) s)
    lasting_settled.persists ?_ fun _ => Triple.ofExcept (fun a ha _ h => h a ha)
      fun _ _ _ _ => trivial
  rintro s (r : Except JsError Client.ChatStatesPage) s' hinv ⟨db, hdb, hall⟩ hx
  have hkeeps := (keeps_mild hinv hx trivial).1
  refine ⟨hkeeps, fun page hpage => ?_⟩
  subst hpage
  obtain ⟨⟨p, began, hresponds, rfl⟩, -⟩ := hx
  refine ⟨db, hkeeps.grow.fetched t db hdb, fun message hm hsender => ?_⟩
  rcases hall message hm hsender with hmerged | hpast | ⟨hthen, hbeyond⟩
  · exact .inl (hmerged.grow hkeeps.grow)
  · exact .inr (.inl (hpast.grow hkeeps.grow))
  · refine .inr (.inr ⟨hthen.grow hkeeps.grow, ?_⟩)
    have hmem := (hinv.fetched t db hdb).messages message hm
    exact chatStates_covers (hinv.asked t) hresponds hmem hsender hthen hbeyond

/-- **The walk over the chat states** leaves nothing open. -/
theorem positioning_readPages (huser : principal.user_id = ref.scope.userId) :
    Positioning T principal ref t iso (Known T principal t fun _ => False)
      (Client.Reads.readPages i ref)
      fun same s => same = true ∧ Settled T principal ref t (fun _ => False) s := by
  refine Triple.iterate (fun after => Settled T principal ref t
    fun message => Keyset.beyond (·.chat_id) after message = true)
    (fun _ => lasting_settled.persists) ?_ fun after => ?_
  · rintro s ⟨db, hdb, hall⟩
    refine ⟨db, hdb, fun message hm hsender => ?_⟩
    rcases hall message hm hsender with hmerged | hthen | hfalse
    · exact .inl hmerged
    · exact .inr (.inr ⟨hthen, rfl⟩)
    · exact hfalse.elim
  refine (positioning_getChatStates after).bind fun page => ?_
  refine (positioning_ifSame (fun _ => rfl) lasting_settled).bind fun same => ?_
  cases same with
  | false => exact Triple.pure fun s h => absurd h.1 Bool.false_ne_true
  | true =>
      have hmerge : Positioning T principal ref t iso
          (fun s => True ∧ Settled T principal ref t (Reported principal page) s)
          (Client.Reads.mergeStates i ref page.states)
          fun same s => (same = true ∧
            ∀ c ∈ page.states.flatMap Client.ChatStatesEntry.readStates, Noticed ref c s) ∧
              Settled T principal ref t (Reported principal page) s :=
        ((positioning_mergeStates page.states).frame lasting_settled).post (fun _ _ h => h)
          fun _ _ _ => trivial
      refine (hmerge.mono fun s h => ⟨trivial, h.2⟩).bind fun same => ?_
      cases same with
      | false => exact Triple.pure fun s h => absurd h.1.1 Bool.false_ne_true
      | true =>
          -- the cursors of the page are merged by now
          have hleft : ∀ {P : Server.Message → Prop} {s : Memory},
              (∀ c ∈ page.states.flatMap Client.ChatStatesEntry.readStates, Noticed ref c s) →
              Settled T principal ref t (Reported principal page) s →
              (∀ message, page.hasMore = true → (∀ next, page.nextChatId = some next →
                Keyset.beyond (·.chat_id) (some next) message = true) → P message) →
                Settled T principal ref t P s := by
            rintro P s hnoticed ⟨db, hdb, hall⟩ hP
            refine ⟨db, hdb, fun message hm hsender => ?_⟩
            rcases hall message hm hsender with hmerged | hpast | ⟨hthen, hreported | hnext⟩
            · exact .inl hmerged
            · exact .inr (.inl hpast)
            · obtain ⟨state, hstate, cursor, hcursor, hchat, hother, seq, hseq, hle⟩ := hreported
              have hmem := List.mem_flatMap.mpr ⟨state, hstate, hcursor⟩
              have hpeer := hnoticed cursor hmem (huser ▸ hother) seq hseq
              rw [hchat] at hpeer
              exact .inr (.inl (hle.trans hpeer))
            · exact .inr (.inr ⟨hthen, hP message hnext.1 hnext.2⟩)
          simp only [if_true]
          split
          · rename_i hlast
            refine Triple.pure fun s h => ⟨fun _ hr => ?_, fun b hr => ?_⟩
            · cases hr
            · obtain rfl := Sum.inr.inj hr
              refine ⟨rfl, hleft h.1.2 h.2 fun message hmore => ?_⟩
              rw [hmore] at hlast
              cases hlast
          · split
            · exact Triple.throw fun _ _ => trivial
            · rename_i hnext
              refine Triple.pure fun s h => ⟨fun after' hr => ?_, fun _ hr => ?_⟩
              · obtain rfl := Sum.inl.inj hr
                refine hleft h.1.2 h.2 fun message _ hbeyond => ?_
                cases hid : page.nextChatId with
                | none => exact absurd (.inl hid) hnext
                | some next => exact hbeyond next hid
              · cases hr

theorem positioning_synchronize (huser : principal.user_id = ref.scope.userId) :
    Positioning T principal ref t iso (Known T principal t fun _ => False)
      (Client.Reads.synchronize i) fun _ s => Settled T principal ref t (fun _ => False) s := by
  refine (positioning_scope lasting_known).bind fun ref' => ?_
  by_cases href : ref' = ref
  · subst href
    refine Triple.mono (K := Known T principal t fun _ => False) ?_ fun s h => h.2
    refine (positioning_mild lasting_known mild_restore).bind fun _ => ?_
    refine (positioning_ifSame (fun _ => rfl) lasting_known).bind fun same => ?_
    cases same with
    | false => exact Triple.pure fun s h => absurd h.1 Bool.false_ne_true
    | true =>
        refine ((positioning_readPages huser).mono fun s h => h.2).bind fun same => ?_
        cases same with
        | false => exact Triple.pure fun s h => absurd h.1 Bool.false_ne_true
        | true => exact (positioning_mild lasting_settled mild_flush).mono fun s h => h.2
  · intro s hinv h
    exact absurd h.1 href

end Positions

/-! ## Every run -/

variable {iso : Server.Instant → Client.Timestamp}

theorem mild_mergeCursors (scope : ScopeRef) (i : Nat) (chatId : String)
    (cursors : List Client.ChatReadCursor) :
    Prog.Calls Mild (Client.Reads.mergeCursors i scope chatId cursors) := by
  induction cursors with
  | nil => trivial
  | cons cursor rest ih =>
      unfold Client.Reads.mergeCursors
      split
      · trivial
      · refine .bind (mild_merge cursor) fun _ =>
          .bind (mild_orThrow (session_ifSame fun _ => rfl)) fun same => ?_
        split
        · exact ih
        · trivial

theorem mild_mergeStates (scope : ScopeRef) (i : Nat) (states : List Client.ChatStatesEntry) :
    Prog.Calls Mild (Client.Reads.mergeStates i scope states) := by
  induction states with
  | nil => trivial
  | cons state rest ih =>
      refine .bind (mild_mergeCursors scope i state.chatId state.readStates) fun same => ?_
      split
      · exact ih
      · trivial

theorem mild_readPages (scope : ScopeRef) (i : Nat) :
    Prog.Calls Mild (Client.Reads.readPages i scope) := by
  refine ⟨fun after => ?_, fun r => ?_⟩
  · refine .bind (mild_await _) fun page =>
      .bind (mild_orThrow (session_ifSame fun _ => rfl)) fun same => ?_
    split
    · refine .bind (mild_mergeStates scope i page.states) fun same => ?_
      split
      · split
        · trivial
        · split
          · trivial
          · trivial
      · trivial
    · trivial
  · cases r with
    | ok _ => trivial
    | error _ => trivial

theorem mild_op (op : Client.Reads.Op) : Prog.Calls Mild op.prog := by
  cases op with
  | merge i cursor => exact mild_merge cursor
  | advance i chatId seq => exact mild_advance chatId seq
  | restore i => exact mild_restore
  | synchronize i =>
      refine .bind (mild_orThrow session_scope) fun scope => .bind mild_restore fun _ =>
        .bind (mild_orThrow (session_ifSame fun _ => rfl)) fun same => ?_
      split
      · refine .bind (mild_readPages scope i) fun same => ?_
        split
        · exact mild_flush
        · trivial
      · trivial
  | flush i => exact mild_flush

/-- The part of `loadMailbox` loses no message. -/
theorem triple_loadMailbox (huser : principal.user_id = ref.scope.userId) :
    Triple (discipline T principal ref) (system T iso principal ref).exec t
      (fun s => s.fetched t = none) (loadMailbox ref)
      (fun _ s => Settled T principal ref t (fun _ => False) s) fun _ _ => True := by
  have hmetadata : Triple (discipline T principal ref) (system T iso principal ref).exec t
      (fun s => s.fetched t = none) (ofOutgoing (Client.Outgoing.recoverSentMetadata ref))
      (fun _ s => Known T principal t (fun _ => False) s) fun _ _ => True :=
    Triple.lift sending_recoverSentMetadata fun _ _ _ _ h => h
  have hcheck : ∀ K, Lasting (discipline T principal ref) K →
      Triple (discipline T principal ref) (system T iso principal ref).exec t K
        (ofOutgoing (Client.Outgoing.reads (·.checkScope ref))) (fun _ s => K s)
        fun _ _ => True :=
    fun K hK => Triple.lift (sending_checkScope hK) fun _ _ _ _ h => h
  have hpositions : Triple (discipline T principal ref) (system T iso principal ref).exec t
      (Known T principal t fun _ => False) (ofReads (Client.Reads.synchronize 0))
      (fun _ s => Settled T principal ref t (fun _ => False) s) fun _ _ => True :=
    Triple.lift (positioning_synchronize huser) fun _ _ _ _ h => h
  exact hmetadata.bind fun _ => (hcheck _ lasting_known).bind fun _ =>
    hpositions.bind fun _ => hcheck _ lasting_settled

/-- The server goes on. -/
theorem keeps_now (hinv : Inv T ref s) :
    (discipline T principal ref).Keeps t s { s with now := s.now + 1 } :=
  ⟨⟨hinv.rows, hinv.current, hinv.session, fun u => (hinv.asked u).trans (Nat.le_succ _),
      hinv.fetched, hinv.stored⟩,
    ⟨Nat.le_succ _, fun _ => le_rfl, fun _ => AtMost.refl _, fun _ _ h => h,
      fun _ => List.Subset.refl _⟩, fun _ _ => rfl⟩

theorem keeps_env (hinv : Inv T ref s) (h : Env s s') :
    (discipline T principal ref).Keeps t s s' ∧ s'.fetched t = s.fetched t := by
  cases h with
  | server => exact ⟨keeps_now hinv, rfl⟩
  | tab i =>
      refine ⟨keeps_of hinv hinv.rows rfl (fun j => ?_) (fun _ => AtMost.refl _) (fun _ h => h) rfl
        (.inl rfl) rfl rfl, rfl⟩
      by_cases hj : j = i
      · subst hj
        simp only [Function.update_self]
      · exact congrArg Client.Reads.Manager.session (Function.update_of_ne hj _ _)

theorem respected (huser : principal.user_id = ref.scope.userId) :
    (discipline T principal ref).Respected (system T iso principal ref) where
  start t op s s' hinv hidle hst := by
    cases op with
    | loadMailbox =>
        obtain rfl := hst
        have hkeeps : (discipline T principal ref).Keeps t s (s.goesOn t) := keeps_goesOn hinv
        refine ⟨hkeeps, (triple_loadMailbox huser).ends ?_
          (fun _ _ _ _ => trivial) hkeeps.inv hidle⟩
        rintro s₁ - ⟨db, hdb, hall⟩ db' hdb' message hm hsender
        obtain rfl := Option.some.inj (hdb.symm.trans hdb')
        exact (hall message hm hsender).imp_right fun h => h.resolve_right fun hfalse => hfalse.2
    | reads op =>
        obtain ⟨m, hm, rfl⟩ := hst
        have hkeeps : (discipline T principal ref).Keeps t s ((s.withReads m).goesOn t) := by
          cases op with
          | merge i cursor =>
              obtain rfl := hm
              exact keeps_of hinv hinv.rows rfl (fun _ => rfl) (fun _ => AtMost.refl _)
                (fun _ h => h) rfl (.inr rfl) rfl rfl
          | advance i chatId seq =>
              obtain rfl := hm
              exact keeps_goesOn hinv
          | restore i =>
              obtain rfl := hm
              exact keeps_goesOn hinv
          | synchronize i =>
              obtain rfl := hm
              exact keeps_goesOn hinv
          | flush i =>
              obtain rfl := hm
              exact keeps_goesOn hinv
        have hnone : Persists (discipline T principal ref) t fun s => s.fetched t = none :=
          fun _ _ h hd => hd.own.trans h
        have htriple : Triple (discipline T principal ref) (system T iso principal ref).exec t
            (fun s => s.fetched t = none) (ofReads op.prog) (fun _ s => s.fetched t = none)
            fun _ s => s.fetched t = none := by
          have hinner : Triple (discipline T principal ref) (execReads T iso principal) t
              (fun s => s.fetched t = none) op.prog (fun _ s => s.fetched t = none)
              fun _ s => s.fetched t = none := by
            refine Triple.calls hnone (fun e s r s' he hinv hk hx => ?_) (mild_op op)
            obtain ⟨hkeeps, hfetched⟩ := keeps_mild hinv hx he
            exact ⟨hkeeps, (congrFun hfetched t).trans hk⟩
          exact Triple.lift hinner fun _ _ _ _ h => h
        refine ⟨hkeeps, htriple.ends ?_ (fun _ _ _ _ => trivial) hkeeps.inv hidle⟩
        rintro s₁ - hnone₁ db hdb
        rw [hnone₁] at hdb
        cases hdb
  stop t s s' hinv hst := hst.elim
  env s s' hinv h t := keeps_env hinv h

theorem Memory.Initial.inv (h : s.Initial ref) :
    (discipline T principal ref).inv s ∧ ∀ t, (discipline T principal ref).idle t s := by
  refine ⟨⟨h.rows, h.current, h.session, fun t => ?_, fun t db hdb => ?_, fun t sent hsent => ?_⟩,
    h.fetched⟩
  · rw [h.asked t]
    exact Nat.zero_le _
  · rw [h.fetched t] at hdb
    cases hdb
  · rw [h.merged t] at hsent
    cases hsent

/-- Both walks of the thread have come to their end. -/
theorem covered_of_done (huser : principal.user_id = ref.scope.userId)
    {p : Pool Call Answer JsError Memory}
    (hp : System.Reachable (system T iso principal ref) (Memory.Initial ref) p)
    (hdone : p.threads t = some (.ret ())) {db : Server.Db}
    (hdb : p.shared.fetched t = some db) : Covered principal ref t db p.shared :=
  (sound (respected huser) (fun _ h => h.inv) hp).safe t _ hdone db hdb

/-- **Main result.**  Whatever the server has done in the meantime, and whatever
else ran on the device: once both walks have come to their end, each message the
user had sent when the first page of metadata was requested has been merged, or
the inbox counts it as read by the other user. -/
theorem sent_messages_are_merged_or_read (T : Timeline (Server.serverSystem sec) (Ready sec))
    (iso : Server.Instant → Client.Timestamp) (huser : principal.user_id = ref.scope.userId)
    {p : Pool Call Answer JsError Memory}
    (hp : System.Reachable (system T iso principal ref) (Memory.Initial ref) p)
    (hdone : p.threads t = some (.ret ())) {db : Server.Db}
    (hdb : p.shared.fetched t = some db) :
    ∀ message ∈ db.messages, message.sender_user_id = principal.user_id →
      (∃ sent ∈ p.shared.merged t, sent.id = message.id) ∨
        (message.chat_seq : ℤ) ≤
          (readStateAt ref.scope message.chat_id p.shared.fields.db).peerLastReadSeq := by
  intro message hmessage hsender
  rcases covered_of_done huser hp hdone hdb message hmessage hsender with
    ⟨sent, hsent, hreports⟩ | hread
  · exact .inl ⟨sent, hsent, hreports.id⟩
  · exact .inr hread

/-- **The unread filter loses no sent status.**  What has been merged is what
the server says of the message, and the inbox keeps metadata of it. -/
theorem unread_filter_loses_no_status (T : Timeline (Server.serverSystem sec) (Ready sec))
    (iso : Server.Instant → Client.Timestamp) (huser : principal.user_id = ref.scope.userId)
    {p : Pool Call Answer JsError Memory}
    (hp : System.Reachable (system T iso principal ref) (Memory.Initial ref) p)
    (hdone : p.threads t = some (.ret ())) {db : Server.Db} (hdb : p.shared.fetched t = some db)
    {message : Server.Message} (hmessage : message ∈ db.messages)
    (hsender : message.sender_user_id = principal.user_id) :
    (∃ sent ∈ p.shared.merged t, Reports message sent ∧
        (metadataAt ref.scope message.id p.shared.fields.db).isSome) ∨
      (message.chat_seq : ℤ) ≤
        (readStateAt ref.scope message.chat_id p.shared.fields.db).peerLastReadSeq := by
  have hholds := sound (respected huser) (fun _ h => h.inv) hp
  rcases covered_of_done huser hp hdone hdb message hmessage hsender with
    ⟨sent, hsent, hreports⟩ | hread
  · exact .inl ⟨sent, hsent, hreports, hreports.id ▸ hholds.inv.stored t sent hsent⟩
  · exact .inr hread

end Runs

section Seen

/-! ## A message that has been read -/

open Server.Example (plainSecurity alice readDb readWorld)

def seenDb : Server.Db :=
  { readDb with readStates := [⟨"chat", "bob", 1, 0⟩] }

def seenWorld : Server.World :=
  { readWorld with
    db := seenDb
    began := fun _ => seenDb }

def seenPage : Server.ChatStatesPage :=
  ⟨[⟨"chat", 1, [⟨"chat", "alice", 0, none⟩, ⟨"chat", "bob", 1, some 0⟩]⟩], some "chat", false⟩

theorem seenWorld_ready : Ready plainSecurity seenWorld := by
  refine ⟨⟨?_, Server.Example.readWorld_initial.rotation, Server.Example.readWorld_initial.known,
    fun _ _ => trivial, rfl, fun _ => ⟨rfl, rfl, rfl, rfl, rfl, rfl, rfl⟩⟩, ?_⟩
  · constructor <;> decide
  · constructor <;> decide

theorem sentRows_seen : seenDb.sentRows "alice" none 100 true = [] := by decide

theorem chatRows_seen : seenDb.chatRows "alice" none 100 = [⟨"chat", 1, "DIRECT"⟩] := by
  decide

theorem membersOf_seen : seenDb.membersOf "chat" = [⟨"chat", "alice"⟩, ⟨"chat", "bob"⟩] := by
  decide

theorem chatState_seen :
    Server.chatState ⟨"chat", 1, "DIRECT"⟩ (seenDb.membersOf "chat") seenDb.readStates =
      ⟨"chat", 1, [⟨"chat", "alice", 0, none⟩, ⟨"chat", "bob", 1, some 0⟩]⟩ := by
  rw [membersOf_seen]
  rfl

theorem exists_seen : ∃ (T : Timeline (Server.serverSystem plainSecurity) (Ready plainSecurity))
    (m n : Nat), m ≤ n ∧
      Responds T 0 m (.sentPage alice none 100 true) (.sentMessages ⟨[], none, false⟩) seenDb ∧
      Responds T m n (.chatStates alice none 100) (.chatStates seenPage) seenDb := by
  have hidle : System.Reachable (Server.serverSystem plainSecurity) (Ready plainSecurity)
      (System.idle seenWorld) := .idle seenWorld_ready
  have h : System.Reaches (Server.serverSystem plainSecurity) (System.idle seenWorld)
      (System.idle seenWorld) := Relation.ReflTransGen.refl
  have h := h.starts 0 (.sentPage alice none 100 true) rfl rfl
  have h := h.acts 0 rfl [] ⟨sentRows_seen.symm, rfl⟩
  have h := h.acts 0 rfl [] ⟨rfl, rfl⟩
  have h := h.acts 0 rfl () rfl
  have h := h.acts 0 rfl () rfl
  obtain ⟨T, m, -, hfirst, hm⟩ := (Timeline.resting hidle).exists_onto 0 h
  have h : System.Reaches (Server.serverSystem plainSecurity) (T.pool m) (T.pool m) :=
    Relation.ReflTransGen.refl
  rw [hm] at h
  have h := h.starts 1 (.chatStates alice none 100) rfl rfl
  have h := h.acts 1 rfl [⟨"chat", 1, "DIRECT"⟩] ⟨chatRows_seen.symm, rfl⟩
  have h := h.acts 1 rfl (fun chat_id => seenDb.membersOf chat_id) ⟨rfl, rfl⟩
  have h := h.acts 1 rfl seenDb.readStates ⟨rfl, rfl⟩
  have h := h.acts 1 rfl () rfl
  have h := h.acts 1 rfl () rfl
  rw [← hm] at h
  obtain ⟨T', n, hmn, hsame, hn⟩ := T.exists_onto m h
  have hw₀ : world T' 0 = seenWorld := by
    unfold world
    rw [hsame 0 (Nat.zero_le m), hfirst 0 le_rfl]
    rfl
  refine ⟨T', m, n, hmn, ⟨0, ?_, ?_, ?_, ?_⟩, ⟨1, ?_, ?_, ?_, ?_⟩⟩
  · rw [hw₀]
    rfl
  · unfold world
    rw [hsame m le_rfl, hm]
    rfl
  · unfold world
    rw [hsame m le_rfl, hm]
    rfl
  · unfold world
    rw [hsame m le_rfl, hm]
    rfl
  · unfold world
    rw [hsame m le_rfl, hm]
    rfl
  · unfold world
    rw [hn]
    rfl
  · unfold world
    rw [hn]
    exact congrArg (fun state => (some (.ok (.chatStates ⟨[state], some "chat", false⟩)) :
      Option (Except Server.PyError Server.Result))) chatState_seen
  · unfold world
    rw [hn]
    exact congrArg (fun p : Pool Server.Sql Server.Sql.Answer Server.PyError Server.World =>
      p.shared.db) hm

/-- A cursor of the server can be merged. -/
theorem exists_merged {scope : Client.InboxScope} {db : Client.Database}
    (hvalid : Client.valid scope db = true) (cursor : Client.ChatReadCursor) {seq : ℤ}
    (hseq : cursor.lastReadSeq = .integer seq) (hsafe : cursor.lastReadSeq.isSafeInteger = true)
    (hpos : 0 ≤ seq) :
    ∃ state db', Client.mergeChatReadCursor scope cursor db = .ok (state, db') ∧
      Client.valid scope db' = true := by
  have hin : ¬(Client.JsNumber.isSafeInteger (.integer seq) = false ∨ seq < 0) := by
    rw [← hseq, hsafe]
    rintro (h | h)
    · cases h
    · omega
  unfold Client.mergeChatReadCursor
  rw [hseq]
  dsimp only
  rw [if_neg hin]
  unfold Client.updateReadState Client.validate
  rw [hvalid]
  exact ⟨_, _, rfl, hvalid⟩

def phone : Memory where
  fields := { db := emptyInbox, current := some ⟨phoneScope, 0⟩ }
  tabs := fun _ => { session := some ⟨phoneScope, 0⟩ }

theorem phone_initial : phone.Initial ⟨phoneScope, 0⟩ where
  now := rfl
  rows := ⟨List.Pairwise.nil, fun entry hentry => by cases hentry⟩
  current := rfl
  session := fun _ => rfl
  asked := fun _ => rfl
  merged := fun _ => rfl
  fetched := fun _ => rfl

theorem readChatReadStates_emptyInbox :
    Client.readChatReadStates phoneScope emptyInbox = .ok ([], emptyInbox) := by
  have hvalid : Client.valid phoneScope emptyInbox = true := by decide
  unfold Client.readChatReadStates Client.validate
  rw [hvalid]
  rfl

/-- The server goes on for a while. -/
theorem reachable_waits {sec : Server.Security}
    {T : Timeline (Server.serverSystem sec) (Ready sec)} {iso : Server.Instant → Client.Timestamp}
    {principal : Server.Principal} {ref : ScopeRef} {init : Memory → Prop}
    {p : Pool Call Answer JsError Memory}
    (hp : System.Reachable (system T iso principal ref) init p) (k : Nat) :
    System.Reachable (system T iso principal ref) init
      ⟨{ p.shared with now := p.shared.now + k }, p.threads⟩ := by
  induction k with
  | zero => exact hp
  | succ k ih => exact ih.step (.env .server)

/-- What is left of `loadMailbox` when the positions are about to be fetched. -/
def positionsLeft (ref : ScopeRef) : Async Unit := do
  ofReads (do
    if ← Client.Reads.readPages 0 ref then
      Client.Reads.flush 0)
  ofOutgoing (Client.Outgoing.reads (·.checkScope ref))

/-- The phone after the walk over the metadata. -/
def walked (m : Nat) (tabs : Nat → Client.Reads.Manager) (asked : Tid → Nat)
    (fetched : Tid → Option Server.Db) : Memory where
  now := m
  fields := phone.fields
  tabs := Function.update tabs 0
    { current := some ⟨phoneScope, 0⟩, session := some ⟨phoneScope, 0⟩ }
  asked := Function.update asked 0 m
  fetched := Function.update fetched 0 (some seenDb)

/-- The walk over the metadata comes to its end. -/
theorem reachable_walked {T : Timeline (Server.serverSystem plainSecurity) (Ready plainSecurity)}
    {m : Nat} (hsent : Responds T 0 m (.sentPage alice none 100 true)
      (.sentMessages ⟨[], none, false⟩) seenDb) :
    ∃ tabs asked fetched threads, System.Reachable (system T newYear alice ⟨phoneScope, 0⟩)
      (Memory.Initial ⟨phoneScope, 0⟩) ⟨walked m tabs asked fetched, threads⟩ ∧
        threads 0 = some (positionsLeft ⟨phoneScope, 0⟩) := by
  have h : System.Reachable (system T newYear alice ⟨phoneScope, 0⟩)
      (Memory.Initial ⟨phoneScope, 0⟩) (System.idle phone) := .idle phone_initial
  have h := h.starts 0 .loadMailbox rfl rfl
  have h := reachable_waits h m
  have h := h.step (.unfold (t := 0) rfl)
  rw [← Nat.zero_add m] at hsent
  have h := h.acts 0 rfl (.ok (sentMessagesPage newYear ⟨[], none, false⟩))
    ⟨_, rfl, ⟨[], none, false⟩, seenDb, hsent, rfl, rfl⟩
  have h := h.acts 0 rfl (.ok ()) ⟨rfl, rfl⟩
  have h := h.acts 0 rfl (.ok ()) ⟨rfl, rfl⟩
  have h := h.acts 0 rfl (.ok ⟨phoneScope, 0⟩) ⟨rfl, rfl⟩
  have h := h.acts 0 rfl (.ok ⟨phoneScope, 0⟩) ⟨rfl, rfl⟩
  have h := h.acts 0 rfl (.ok []) ⟨trivial, _,
    ⟨_, .inl (.inl ⟨_, readChatReadStates_emptyInbox, rfl⟩), rfl⟩, rfl⟩
  have h := h.acts 0 rfl (.ok true) ⟨rfl, rfl⟩
  have h := h.acts 0 rfl (.ok true) ⟨rfl, rfl⟩
  rw [← Nat.zero_add m]
  exact ⟨_, _, _, _, h, rfl⟩

/-- Both walks come to their end. -/
theorem reachable_recovered :
    ∃ (T : Timeline (Server.serverSystem plainSecurity) (Ready plainSecurity))
      (p : Pool Call Answer JsError Memory),
      System.Reachable (system T newYear alice ⟨phoneScope, 0⟩) (Memory.Initial ⟨phoneScope, 0⟩) p ∧
        p.threads 0 = some (.ret ()) ∧ p.shared.fetched 0 = some seenDb ∧
        p.shared.merged 0 = [] := by
  obtain ⟨T, m, n, hmn, hsent, hstates⟩ := exists_seen
  obtain ⟨d, rfl⟩ : ∃ d, n = m + d := ⟨n - m, by omega⟩
  obtain ⟨tabs, asked, fetched, threads, h, hthread⟩ := reachable_walked hsent
  have hvalid : Client.valid phoneScope emptyInbox = true := by decide
  have h := h.step (.unfold (t := 0) hthread)
  have h := reachable_waits h d
  have h := h.acts 0 rfl (.ok (chatStatesPage newYear seenPage))
    ⟨⟨seenPage, seenDb, hstates, rfl⟩, _, rfl, rfl⟩
  have h := h.acts 0 rfl (.ok true) ⟨rfl, rfl⟩
  have h := h.acts 0 rfl (.ok ⟨phoneScope, 0⟩) ⟨rfl, rfl⟩
  obtain ⟨own, db₁, hown, hvalid₁⟩ := exists_merged hvalid
    (chatReadCursor newYear ⟨"chat", "alice", 0, none⟩) rfl (by decide) le_rfl
  have h := h.acts 0 rfl (.ok own) ⟨trivial, _, ⟨_, .inl (.inl ⟨_, hown, rfl⟩), rfl⟩, rfl⟩
  have h := h.acts 0 rfl (.ok true) ⟨rfl, rfl⟩
  have h := h.acts 0 rfl (.ok true) ⟨rfl, rfl⟩
  have h := h.acts 0 rfl (.ok ⟨phoneScope, 0⟩) ⟨rfl, rfl⟩
  obtain ⟨peer, db₂, hpeer, -⟩ := exists_merged hvalid₁
    (chatReadCursor newYear ⟨"chat", "bob", 1, some 0⟩) rfl (by decide) zero_le_one
  have h := h.acts 0 rfl (.ok peer) ⟨trivial, _, ⟨_, .inl (.inl ⟨_, hpeer, rfl⟩), rfl⟩, rfl⟩
  have h := h.acts 0 rfl (.ok true) ⟨rfl, rfl⟩
  have h := h.acts 0 rfl (.ok true) ⟨rfl, rfl⟩
  have h := h.acts 0 rfl (.ok none) ⟨rfl, rfl⟩
  have h := h.acts 0 rfl (.ok ()) ⟨rfl, rfl⟩
  exact ⟨T, _, h, rfl, rfl, rfl⟩

theorem sent_messages_are_merged_or_read_seen :
    ∃ (T : Timeline (Server.serverSystem plainSecurity) (Ready plainSecurity))
      (p : Pool Call Answer JsError Memory),
      System.Reachable (system T newYear alice ⟨phoneScope, 0⟩) (Memory.Initial ⟨phoneScope, 0⟩) p ∧
        p.threads 0 = some (.ret ()) ∧ p.shared.fetched 0 = some seenDb ∧
        ∀ message ∈ seenDb.messages, message.sender_user_id = "alice" →
          (∃ sent ∈ p.shared.merged 0, sent.id = message.id) ∨ (message.chat_seq : ℤ) ≤
            (readStateAt phoneScope message.chat_id p.shared.fields.db).peerLastReadSeq := by
  obtain ⟨T, p, hp, hdone, hfetched, -⟩ := reachable_recovered
  exact ⟨T, p, hp, hdone, hfetched,
    sent_messages_are_merged_or_read T newYear rfl hp hdone hfetched⟩

theorem unread_filter_loses_no_status_seen :
    ∃ (T : Timeline (Server.serverSystem plainSecurity) (Ready plainSecurity))
      (p : Pool Call Answer JsError Memory),
      System.Reachable (system T newYear alice ⟨phoneScope, 0⟩) (Memory.Initial ⟨phoneScope, 0⟩) p ∧
        p.threads 0 = some (.ret ()) ∧ p.shared.fetched 0 = some seenDb ∧
        1 ≤ (readStateAt phoneScope "chat" p.shared.fields.db).peerLastReadSeq := by
  obtain ⟨T, p, hp, hdone, hfetched, hmerged⟩ := reachable_recovered
  refine ⟨T, p, hp, hdone, hfetched, ?_⟩
  have hmessage : ⟨"m", "chat", "alice", "phone-a", "message-1", 1, 0⟩ ∈ seenDb.messages :=
    List.mem_cons_self
  rcases unread_filter_loses_no_status T newYear rfl hp hdone hfetched hmessage rfl with
    ⟨sent, hsent, -⟩ | hread
  · rw [hmerged] at hsent
    cases hsent
  · exact hread

end Seen

end Recovery
end EndToEnd
end SecureMessenger
