import SecureMessenger.Client.ReadStates
import SecureMessenger.Lib.Triples

/-!
# Read states over whole runs

Several tabs of one inbox scope advance, merge, restore, synchronize and flush
read states.  Notifications and confirmations may be lost, repeated, out of date
and out of order; a transaction may be aborted.  A tab keeps the scope object
it has signed in with.
-/

namespace SecureMessenger
namespace Client
namespace Reads

open Lib
open Lib.Discipline

/-- The cursors of a page. -/
def pageCursors : Except JsError ChatStatesPage → List ChatReadCursor
  | .ok page => page.states.flatMap ChatStatesEntry.readStates
  | .error _ => []

/-- The cursor of a confirmation. -/
def confirmedCursor : Except JsError ChatReadCursor → List ChatReadCursor
  | .ok cursor => [cursor]
  | .error _ => []

/-- How promises settle: transactions run or are aborted, and the server may
answer anything. -/
def Promise.settles : (g : Promise) → Memory → Except JsError g.Reply → Memory → Prop
  | .readChatReadStates scope, s, r, s' =>
      ∃ db, (Inbox.runs (Client.readChatReadStates scope) s.db r db ∨ Inbox.aborts s.db r db) ∧
        s' = { s with db := db }
  | .mergeChatReadCursor scope cursor, s, r, s' =>
      ∃ db, (Inbox.runs (Client.mergeChatReadCursor scope cursor) s.db r db ∨
        Inbox.aborts s.db r db) ∧ s' = { s with db := db }
  | .advanceLocalReadCursor scope chatId seq, s, r, s' =>
      ∃ db, (Inbox.runs (Client.advanceLocalReadCursor scope chatId seq) s.db r db ∨
        Inbox.aborts s.db r db) ∧ s' = { s with db := db }
  | .getChatStates _, s, r, s' => s' = { s with reported := pageCursors r ++ s.reported }
  | .advanceReadCursor _ _, s, r, s' => s' = { s with reported := confirmedCursor r ++ s.reported }

/-- What can begin at any time in tab `i`. -/
inductive Op
  | advance (i : Nat) (chatId : String) (seq : JsNumber)
  /-- A notification arrives. -/
  | merge (i : Nat) (cursor : ChatReadCursor)
  | restore (i : Nat)
  | synchronize (i : Nat)
  /-- A timer fires, or a socket is ready. -/
  | flush (i : Nat)

/-- The program of a call. -/
def Op.prog : Op → Async Unit
  | .advance i chatId seq => Reads.advance i chatId seq
  | .merge i cursor => Reads.merge i cursor
  | .restore i => Reads.restore i
  | .synchronize i => Reads.synchronize i
  | .flush i => Reads.flush i

/-- What is not a step of a manager. -/
inductive Env (scope : InboxScope) (s : Memory) : Memory → Prop
  /-- Timers, `start`, `stop`, the socket, and signing in and out. -/
  | tab (i : Nat) {timer stopped ready : Bool} {session : Option ScopeRef}
      (hsession : ∀ ref, session = some ref → ref.scope = scope ∧
        ∀ ref', (s.tabs i).current = some ref' → ref' = ref) :
      Env scope s { s with tabs := Function.update s.tabs i { s.tabs i with
        timer := timer, stopped := stopped, ready := ready, session := session } }
  /-- A transaction on the other stores of the inbox. -/
  | inbox {db : Database} (h : db.readStates = s.db.readStates) : Env scope s { s with db := db }

/-- The managers of one inbox scope. -/
def readSystem (scope : InboxScope) : System Call Call.Answer JsError Memory Op where
  exec := Segmented.exec Promise.settles
  prog _ op := op.prog
  start _ op s s' :=
    match op with
    | .merge _ cursor => s' = { s with reported := cursor :: s.reported }
    | _ => s' = s
  stop _ s s' := s' = s
  env := Env scope

/-- Tabs that have not read anything yet, over an inbox that earlier sessions
have left. -/
structure Memory.Initial (scope : InboxScope) (s : Memory) : Prop where
  rows : ReadRows s.db
  supported : ∀ c, Supported s.reported scope c (readStateAt scope c s.db)
  session : ∀ i ref, (s.tabs i).session = some ref → ref.scope = scope
  current : ∀ i, (s.tabs i).current = none
  states : ∀ i, (s.tabs i).states = .empty
  heard : ∀ i, (s.tabs i).heard = []

/-- A manager knows no more than the inbox, and its handlers have heard no more
than it knows, in this order. -/
structure TabOk (scope : InboxScope) (db : Database) (m : Manager) : Prop where
  session : ∀ ref, m.session = some ref → ref.scope = scope ∧
    ∀ ref', m.current = some ref' → ref' = ref
  current : ∀ ref, m.current = some ref → ref.scope = scope
  unused : m.current = none → m.states = .empty
  stored : ∀ c a, m.states.get c = some a → AtMost a (readStateAt scope c db)
  signed : ∀ c a, m.states.get c = some a →
    0 ≤ a.ownConfirmedReadSeq ∧ 0 ≤ a.peerLastReadSeq ∧
      a.ownConfirmedReadSeq ≤ a.ownLocalReadSeq
  known : ∀ a ∈ m.heard, ∃ b, m.states.get a.chatId = some b ∧ AtMost a b
  ordered : m.heard.Pairwise fun newer older => newer.chatId = older.chatId → AtMost older newer

/-- What no step of a manager undoes. -/
structure TabGrows (m m' : Manager) : Prop where
  current : ∀ ref, m.current = some ref → m'.current = some ref
  states : ∀ c a, m.states.get c = some a → ∃ b, m'.states.get c = some b ∧ AtMost a b

/-- What holds in every reachable state. -/
structure ReadInv (scope : InboxScope) (s : Memory) : Prop where
  rows : ReadRows s.db
  supported : ∀ c, Supported s.reported scope c (readStateAt scope c s.db)
  tabs : ∀ i, TabOk scope s.db (s.tabs i)

/-- What no step undoes. -/
structure ReadGrows (scope : InboxScope) (s s' : Memory) : Prop where
  stored : ∀ c, AtMost (readStateAt scope c s.db) (readStateAt scope c s'.db)
  reported : s.reported ⊆ s'.reported
  tabs : ∀ i, TabGrows (s.tabs i) (s'.tabs i)

section Growth

variable {scope : InboxScope} {m m' m'' : Manager} {s s' s'' : Memory} {db db' : Database}

theorem TabGrows.refl (m : Manager) : TabGrows m m :=
  ⟨fun _ h => h, fun _ a h => ⟨a, h, AtMost.refl a⟩⟩

theorem TabGrows.trans (h : TabGrows m m') (h' : TabGrows m' m'') : TabGrows m m'' := by
  refine ⟨fun ref href => h'.current ref (h.current ref href), fun c a ha => ?_⟩
  obtain ⟨b, hb, hab⟩ := h.states c a ha
  obtain ⟨b', hb', hbb'⟩ := h'.states c b hb
  exact ⟨b', hb', hab.trans hbb'⟩

theorem ReadGrows.refl (s : Memory) : ReadGrows scope s s :=
  ⟨fun c => AtMost.refl _, List.Subset.refl _, fun i => TabGrows.refl _⟩

theorem ReadGrows.trans (h : ReadGrows scope s s') (h' : ReadGrows scope s' s'') :
    ReadGrows scope s s'' :=
  ⟨fun c => (h.stored c).trans (h'.stored c), List.Subset.trans h.reported h'.reported,
    fun i => (h.tabs i).trans (h'.tabs i)⟩

/-- The discipline of the read states. -/
def readDiscipline (scope : InboxScope) : Discipline Memory where
  inv := ReadInv scope
  grow := ReadGrows scope
  own _ _ _ := True
  grow_refl := ReadGrows.refl
  grow_trans := ReadGrows.trans
  own_refl _ _ := trivial
  own_trans _ _ := trivial

/-- A fuller inbox suits a manager as well. -/
theorem TabOk.mono (h : TabOk scope db m)
    (hgrows : ∀ c, AtMost (readStateAt scope c db) (readStateAt scope c db')) :
    TabOk scope db' m :=
  { h with stored := fun c a ha => (h.stored c a ha).trans (hgrows c) }

/-- The fields that count are the same. -/
theorem TabOk.of_fields (h : TabOk scope db m) (hsession : m'.session = m.session)
    (hcurrent : m'.current = m.current) (hstates : m'.states = m.states)
    (hheard : m'.heard = m.heard) : TabOk scope db m' ∧ TabGrows m m' := by
  refine ⟨?_, ?_, ?_⟩
  · constructor
    case session =>
      rw [hsession, hcurrent]
      exact h.session
    case current =>
      rw [hcurrent]
      exact h.current
    case unused =>
      rw [hcurrent, hstates]
      exact h.unused
    case stored =>
      rw [hstates]
      exact h.stored
    case signed =>
      rw [hstates]
      exact h.signed
    case known =>
      rw [hheard, hstates]
      exact h.known
    case ordered =>
      rw [hheard]
      exact h.ordered
  · exact fun ref href => hcurrent.trans href
  · exact fun c a ha => ⟨a, by rw [hstates, ha], AtMost.refl a⟩

/-- `scope` clears the map only if nothing has been read. -/
theorem TabOk.afterScope (h : TabOk scope db m) :
    TabOk scope db m.scope.2 ∧ TabGrows m m.scope.2 ∧
      ∀ ref, m.scope.1 = .ok ref → m.scope.2.current = some ref ∧ ref.scope = scope := by
  unfold Manager.scope
  cases hsession : m.session with
  | none => exact ⟨h, TabGrows.refl m, fun ref href => by cases href⟩
  | some session =>
      obtain ⟨hscope, hsame⟩ := h.session session hsession
      dsimp only
      split_ifs with hcurrent
      · refine ⟨h, TabGrows.refl m, fun ref href => ?_⟩
        obtain rfl := Except.ok.inj href
        exact ⟨hcurrent, hscope⟩
      · -- another scope object would have been the current one
        have hnone : m.current = none := by
          cases hcur : m.current with
          | none => rfl
          | some ref => exact absurd (hcur.trans (congrArg some (hsame ref hcur))) hcurrent
        have hempty := h.unused hnone
        refine ⟨?_, ⟨fun ref href => ?_, fun c a ha => ?_⟩, fun ref href => ?_⟩
        · constructor
          case session =>
            intro ref href
            obtain rfl := Option.some.inj href
            exact ⟨hscope, fun ref' href' => (Option.some.inj href').symm⟩
          case current =>
            intro ref href
            obtain rfl := Option.some.inj href
            exact hscope
          case unused => exact fun hc => by cases hc
          case stored => exact fun c a ha => by cases ha
          case signed => exact fun c a ha => by cases ha
          case known =>
            intro a ha
            obtain ⟨b, hb, -⟩ := h.known a ha
            rw [hempty] at hb
            cases hb
          case ordered => exact h.ordered
        · rw [hnone] at href
          cases href
        · rw [hempty] at ha
          cases ha
        · obtain rfl := Except.ok.inj href
          exact ⟨rfl, hscope⟩

/-- A state that is not ahead of the inbox may be published. -/
theorem TabOk.afterPublish (h : TabOk scope db m) {a : ChatReadState} {ref : ScopeRef}
    (hcurrent : m.current = some ref) (hstored : AtMost a (readStateAt scope a.chatId db))
    (hle : a.ownConfirmedReadSeq ≤ a.ownLocalReadSeq)
    (hsigned : 0 ≤ (readStateAt scope a.chatId db).ownConfirmedReadSeq ∧
      0 ≤ (readStateAt scope a.chatId db).peerLastReadSeq ∧
      (readStateAt scope a.chatId db).ownConfirmedReadSeq ≤
        (readStateAt scope a.chatId db).ownLocalReadSeq) :
    TabOk scope db (m.publish a) ∧ TabGrows m (m.publish a) := by
  obtain ⟨hpos, hpeer, hconfirmed⟩ := hsigned
  -- the counters of the state before, `0` if there is none
  obtain ⟨x, y, z, hmerged, hx, hy, hz, hyx, hy0, hz0, hprior⟩ : ∃ x y z,
      Manager.merged (m.states.get a.chatId) a =
        ⟨a.chatId, max x a.ownLocalReadSeq, max y a.ownConfirmedReadSeq, max z a.peerLastReadSeq⟩ ∧
      x ≤ (readStateAt scope a.chatId db).ownLocalReadSeq ∧
      y ≤ (readStateAt scope a.chatId db).ownConfirmedReadSeq ∧
      z ≤ (readStateAt scope a.chatId db).peerLastReadSeq ∧ y ≤ x ∧ 0 ≤ y ∧ 0 ≤ z ∧
      ∀ b, m.states.get a.chatId = some b → AtMost b ⟨a.chatId, x, y, z⟩ := by
    cases hget : m.states.get a.chatId with
    | none =>
        exact ⟨0, 0, 0, rfl, hpos.trans hconfirmed, hpos, hpeer, le_rfl, le_rfl, le_rfl,
          fun b hb => by cases hb⟩
    | some b =>
        have hb := h.stored a.chatId b hget
        obtain ⟨hb0, hbp, hbl⟩ := h.signed a.chatId b hget
        refine ⟨_, _, _, rfl, hb.own_local, hb.own_confirmed, hb.peer, hbl, hb0, hbp,
          fun b' hb' => ?_⟩
        obtain rfl := Option.some.inj hb'
        exact ⟨le_rfl, le_rfl, le_rfl⟩
  have hgrows : ∀ b, m.states.get a.chatId = some b →
      AtMost b (Manager.merged (m.states.get a.chatId) a) := by
    intro b hb
    rw [hmerged]
    exact (hprior b hb).trans ⟨le_max_left _ _, le_max_left _ _, le_max_left _ _⟩
  have hget : ∀ c, (m.publish a).states.get c =
      if a.chatId = c then some (Manager.merged (m.states.get a.chatId) a) else m.states.get c :=
    fun c => Dict.get_set
  have hknown : ∀ c b, m.states.get c = some b →
      ∃ b', (m.publish a).states.get c = some b' ∧ AtMost b b' := by
    intro c b hb
    rw [hget c]
    split_ifs with hc
    · subst hc
      exact ⟨_, rfl, hgrows b hb⟩
    · exact ⟨b, hb, AtMost.refl b⟩
  refine ⟨?_, fun _ href => href, hknown⟩
  constructor
  case session => exact h.session
  case current => exact h.current
  case unused =>
    intro hc
    have hnone : some ref = none := hcurrent.symm.trans hc
    cases hnone
  case stored =>
    intro c b hb
    rw [hget c] at hb
    split_ifs at hb with hc
    · subst hc
      obtain rfl := Option.some.inj hb
      rw [hmerged]
      exact ⟨max_le hx hstored.own_local, max_le hy hstored.own_confirmed, max_le hz hstored.peer⟩
    · exact h.stored c b hb
  case signed =>
    intro c b hb
    rw [hget c] at hb
    split_ifs at hb with hc
    · obtain rfl := Option.some.inj hb
      rw [hmerged]
      exact ⟨hy0.trans (le_max_left _ _), hz0.trans (le_max_left _ _), max_le_max hyx hle⟩
    · exact h.signed c b hb
  case known =>
    intro b hb
    rcases List.mem_cons.mp hb with rfl | hb
    · refine ⟨_, ?_, AtMost.refl _⟩
      rw [hget]
      exact if_pos rfl
    · obtain ⟨b', hb', hle'⟩ := h.known b hb
      obtain ⟨b'', hb'', hle''⟩ := hknown _ b' hb'
      exact ⟨b'', hb'', hle'.trans hle''⟩
  case ordered =>
    refine List.pairwise_cons.mpr ⟨fun b hb hsame => ?_, h.ordered⟩
    obtain ⟨b', hb', hle'⟩ := h.known b hb
    have hchat : a.chatId = b.chatId := hsame
    rw [← hchat] at hb'
    exact hle'.trans (hgrows b' hb')

end Growth

section Steps

variable {scope : InboxScope} {s : Memory} {t : Tid} {i : Nat}

theorem keeps_tab (hinv : ReadInv scope s) {m : Manager}
    (h : TabOk scope s.db m ∧ TabGrows (s.tabs i) m) :
    (readDiscipline scope).Keeps t s { s with tabs := Function.update s.tabs i m } := by
  refine ⟨⟨hinv.rows, hinv.supported, fun j => ?_⟩, ⟨fun c => AtMost.refl _,
    List.Subset.refl _, fun j => ?_⟩, fun _ _ => trivial⟩
  · by_cases hj : j = i
    · subst hj
      simp only [Function.update_self]
      exact h.1
    · simp only [Function.update_of_ne hj]
      exact hinv.tabs j
  · by_cases hj : j = i
    · subst hj
      simp only [Function.update_self]
      exact h.2
    · simp only [Function.update_of_ne hj]
      exact TabGrows.refl _

theorem keeps_db (hinv : ReadInv scope s) {db : Database} (hrows : ReadRows db)
    (hgrows : ∀ c, AtMost (readStateAt scope c s.db) (readStateAt scope c db))
    (hsupported : ∀ c, Supported s.reported scope c (readStateAt scope c db)) :
    (readDiscipline scope).Keeps t s { s with db := db } :=
  ⟨⟨hrows, hsupported, fun j => (hinv.tabs j).mono hgrows⟩,
    ⟨hgrows, List.Subset.refl _, fun _ => TabGrows.refl _⟩, fun _ _ => trivial⟩

theorem keeps_reported (hinv : ReadInv scope s) (cursors : List ChatReadCursor) :
    (readDiscipline scope).Keeps t s { s with reported := cursors ++ s.reported } :=
  ⟨⟨hinv.rows, fun c => (hinv.supported c).mono (List.subset_append_right _ _), hinv.tabs⟩,
    ⟨fun c => AtMost.refl _, List.subset_append_right _ _, fun _ => TabGrows.refl _⟩,
    fun _ _ => trivial⟩

/-- Updating the state of one chat. -/
theorem keeps_updated (hinv : ReadInv scope s) {chatId : String}
    {update : ChatReadState → ChatReadState} {db : Database} {state : ChatReadState}
    (h : Updated scope chatId update s.db db state) (hgrows : ∀ a, AtMost a (update a))
    (hsupported : ∀ a, Supported s.reported scope chatId a →
      Supported s.reported scope chatId (update a)) :
    (readDiscipline scope).Keeps t s { s with db := db } := by
  refine keeps_db hinv h.rows (fun c => ?_) fun c => ?_
  · by_cases hc : c = chatId
    · subst hc
      rw [h.stored, h.state_eq]
      exact hgrows _
    · rw [h.others c hc]
      exact AtMost.refl _
  · by_cases hc : c = chatId
    · subst hc
      rw [h.stored, h.state_eq]
      exact hsupported _ (hinv.supported c)
    · rw [h.others c hc]
      exact hinv.supported c

/-- The tab is in the scope. -/
def In (scope : InboxScope) (i : Nat) (ref : ScopeRef) (s : Memory) : Prop :=
  (s.tabs i).current = some ref ∧ ref.scope = scope

/-- The inbox has returned the state. -/
def Answered (scope : InboxScope) (a : ChatReadState) (s : Memory) : Prop :=
  AtMost a (readStateAt scope a.chatId s.db) ∧ a.ownConfirmedReadSeq ≤ a.ownLocalReadSeq

variable {K J : Memory → Prop}

theorem lasting_in {ref : ScopeRef} : Lasting (readDiscipline scope) (In scope i ref) :=
  fun _ _ hs hg => ⟨(hg.tabs i).current ref hs.1, hs.2⟩

theorem lasting_answered {states : List ChatReadState} :
    Lasting (readDiscipline scope) fun s => ∀ a ∈ states, Answered scope a s :=
  fun _ _ hs hg a ha => ⟨(hs a ha).1.trans (hg.stored _), (hs a ha).2⟩

theorem lasting_reported {cursors : List ChatReadCursor} :
    Lasting (readDiscipline scope) fun s => ∀ cursor ∈ cursors, cursor ∈ s.reported :=
  fun _ _ hs hg cursor hcursor => hg.reported (hs cursor hcursor)

theorem answered_updated (hinv : ReadInv scope s) {chatId : String}
    {update : ChatReadState → ChatReadState} {db : Database} {state : ChatReadState}
    (h : Updated scope chatId update s.db db state) (hchat : ∀ a, (update a).chatId = a.chatId)
    (hle : ∀ a, a.ownConfirmedReadSeq ≤ a.ownLocalReadSeq →
      (update a).ownConfirmedReadSeq ≤ (update a).ownLocalReadSeq) :
    Answered scope state { s with db := db } := by
  have hid : state.chatId = chatId := by
    rw [h.state_eq, hchat]
    exact chatId_readStateAt hinv.rows
  refine ⟨?_, ?_⟩
  · rw [hid]
    exact h.stored ▸ AtMost.refl _
  · rw [h.state_eq]
    exact hle _ (hinv.supported chatId).confirmed_le

/-- Publishing what the inbox has returned. -/
theorem publish_answered {m : Manager} {ref : ScopeRef} (hinv : ReadInv scope s)
    (hm : TabOk scope s.db m) (hcurrent : m.current = some ref) {a : ChatReadState}
    (ha : Answered scope a s) : TabOk scope s.db (m.publish a) ∧ TabGrows m (m.publish a) := by
  have h := hinv.supported a.chatId
  exact hm.afterPublish hcurrent ha.1 ha.2 ⟨h.confirmed_nonneg, h.peer_nonneg, h.confirmed_le⟩

theorem publishAll_answered {ref : ScopeRef} (hinv : ReadInv scope s)
    {states : List ChatReadState} : ∀ {m : Manager}, TabOk scope s.db m →
      m.current = some ref → (∀ a ∈ states, Answered scope a s) →
      TabOk scope s.db (states.foldl (fun m state => m.publish state) m) ∧
        TabGrows m (states.foldl (fun m state => m.publish state) m) := by
  induction states with
  | nil => exact fun hm _ _ => ⟨hm, TabGrows.refl _⟩
  | cons a rest ih =>
      intro m hm hcurrent hstates
      obtain ⟨hok, hgrows⟩ := publish_answered hinv hm hcurrent (hstates a List.mem_cons_self)
      obtain ⟨hok', hgrows'⟩ := ih hok (hgrows.current ref hcurrent) fun b hb =>
        hstates b (List.mem_cons_of_mem _ hb)
      exact ⟨hok', hgrows.trans hgrows'⟩

theorem TabOk.afterSchedule {db : Database} {m : Manager} (h : TabOk scope db m) :
    TabOk scope db m.schedule ∧ TabGrows m m.schedule := by
  unfold Manager.schedule
  split_ifs
  · exact ⟨h, TabGrows.refl m⟩
  · exact h.of_fields rfl rfl rfl rfl

theorem TabOk.afterIfSame {db : Database} {m : Manager} {ref : ScopeRef} {f : Manager → Manager}
    (h : TabOk scope db m) (hf : TabOk scope db (f m) ∧ TabGrows m (f m)) :
    TabOk scope db (m.ifSame ref f).2 ∧ TabGrows m (m.ifSame ref f).2 := by
  unfold Manager.ifSame
  cases m.sameScope ref with
  | error x => exact ⟨h, TabGrows.refl m⟩
  | ok same =>
      cases same with
      | true => exact hf
      | false => exact ⟨h, TabGrows.refl m⟩

end Steps

section Programs

variable {scope : InboxScope} {t : Tid} {i : Nat} {K : Memory → Prop} {α : Type}

/-- A thread that knows `K` may run the program. -/
def Reading (scope : InboxScope) (t : Tid) {α : Type} (K : Memory → Prop) (p : Async α)
    (Q : α → Memory → Prop) : Prop :=
  Triple (readDiscipline scope) (Segmented.exec Promise.settles) t K p Q fun _ _ => True

theorem reading_onTab {f : Manager → α × Manager} {Q : α → Memory → Prop}
    (hK : Lasting (readDiscipline scope) K)
    (hf : ∀ s, ReadInv scope s → K s →
      TabOk scope s.db (f (s.tabs i)).2 ∧ TabGrows (s.tabs i) (f (s.tabs i)).2)
    (hQ : ∀ s, ReadInv scope s → K s →
      Q (f (s.tabs i)).1 { s with tabs := Function.update s.tabs i (f (s.tabs i)).2 }) :
    Reading scope t K (onTab i f) fun a s => K s ∧ Q a s := by
  refine Triple.segment hK.persists fun s hinv hk => ?_
  have hkeeps : (readDiscipline scope).Keeps t s
      { s with tabs := Function.update s.tabs i (f (s.tabs i)).2 } :=
    keeps_tab hinv (hf s hinv hk)
  exact ⟨hkeeps, hK _ _ hk hkeeps.grow, hQ s hinv hk⟩

theorem reading_orThrow {f : Manager → Except JsError α × Manager} {Q : α → Memory → Prop}
    (hK : Lasting (readDiscipline scope) K)
    (hf : ∀ s, ReadInv scope s → K s →
      TabOk scope s.db (f (s.tabs i)).2 ∧ TabGrows (s.tabs i) (f (s.tabs i)).2)
    (hQ : ∀ s, ReadInv scope s → K s → ∀ a, (f (s.tabs i)).1 = .ok a →
      Q a { s with tabs := Function.update s.tabs i (f (s.tabs i)).2 }) :
    Reading scope t K (orThrow i f) fun a s => K s ∧ Q a s := by
  have hsegment : Reading scope t K (onTab i f) fun r s => K s ∧ ∀ a, r = .ok a → Q a s :=
    reading_onTab hK hf hQ
  exact hsegment.bind fun r => Triple.ofExcept (fun a ha s h => ⟨h.1, h.2 a ha⟩)
    fun _ _ _ _ => trivial

theorem reading_await {g : Promise} {Q : g.Reply → Memory → Prop}
    (hK : Lasting (readDiscipline scope) K)
    (hg : ∀ s r s', ReadInv scope s → K s → g.settles s r s' →
      (readDiscipline scope).Keeps t s s' ∧ ∀ a, r = .ok a → Q a s') :
    Reading scope t K (await g) fun a s => K s ∧ Q a s := by
  refine Triple.awaits hK.persists fun s r s' hinv hk hsettles => ?_
  obtain ⟨hkeeps, hq⟩ := hg s r s' hinv hk hsettles
  exact ⟨hkeeps, fun a ha => ⟨hK _ _ hk hkeeps.grow, hq a ha⟩, fun _ _ => trivial⟩

theorem Reading.frame {p : Async α} {Q : α → Memory → Prop} {J : Memory → Prop}
    (h : Reading scope t K p Q) (hJ : Lasting (readDiscipline scope) J) :
    Reading scope t (fun s => K s ∧ J s) p fun a s => Q a s ∧ J s :=
  (Triple.frame (D := readDiscipline scope) hJ h).post (fun _ _ h => h) fun _ _ _ => trivial

/-- The tab takes up the session. -/
theorem reading_scope :
    Reading scope t (fun _ => True) (orThrow i Manager.scope) fun ref => In scope i ref := by
  have h : Reading scope t (fun _ => True) (orThrow i Manager.scope) fun ref s =>
      True ∧ In scope i ref s := by
    refine reading_orThrow lasting_true (fun s hinv _ => ?_) fun s hinv _ ref href => ?_
    · obtain ⟨hok, hgrows, -⟩ := (hinv.tabs i).afterScope
      exact ⟨hok, hgrows⟩
    · obtain ⟨hcurrent, hscope⟩ := (hinv.tabs i).afterScope.2.2 ref href
      refine ⟨?_, hscope⟩
      simp only [Function.update_self]
      exact hcurrent
  exact h.post (fun _ _ h => h.2) fun _ _ h => h

/-- Nothing happens, or the rest of a function goes on. -/
theorem reading_same (hK : Lasting (readDiscipline scope) K) (ref : ScopeRef) :
    Reading scope t K (orThrow i (Manager.ifSame ref id)) fun _ s => K s := by
  have h : Reading scope t K (orThrow i (Manager.ifSame ref id)) fun _ s => K s ∧ True := by
    refine reading_orThrow hK (fun s hinv _ => ?_) fun _ _ _ _ _ => trivial
    exact (hinv.tabs i).afterIfSame ⟨hinv.tabs i, TabGrows.refl _⟩
  exact h.post (fun _ _ h => h.1) fun _ _ h => h

/-- A transaction of the inbox has run, or nothing has happened. -/
theorem inbox_cases {tx : Transaction α} {db db' : Database} {r : Except JsError α}
    (h : Inbox.runs tx db r db' ∨ Inbox.aborts db r db') :
    (∃ a, tx db = .ok (a, db') ∧ r = .ok a) ∨ (∃ x, r = .error x) ∧ db' = db := by
  rcases h with (hok | ⟨x, -, hr, hdb⟩) | ⟨hr, hdb⟩
  · exact Or.inl hok
  · exact Or.inr ⟨⟨x, hr⟩, hdb⟩
  · exact Or.inr ⟨hr, hdb⟩

theorem reading_restore : Reading scope t (fun _ => True) (restore i) fun _ _ => True := by
  refine reading_scope.bind fun ref => ?_
  have hread : Reading scope t (In scope i ref) (await (.readChatReadStates ref.scope))
      fun (states : List ChatReadState) s =>
        In scope i ref s ∧ ∀ a ∈ states, Answered scope a s := by
    refine reading_await lasting_in ?_
    rintro s r s' hinv hin ⟨db, hrun, rfl⟩
    rcases inbox_cases hrun with ⟨states, hok, rfl⟩ | ⟨⟨x, rfl⟩, rfl⟩
    · rw [hin.2] at hok
      obtain ⟨rfl, hstates⟩ := readChatReadStates_ok hinv.rows hok
      refine ⟨Keeps.refl hinv, fun states' heq a ha => ?_⟩
      obtain rfl := Except.ok.inj heq
      have hstored : readStateAt scope a.chatId s.db = a := hstates a ha
      have hsupported := hinv.supported a.chatId
      rw [hstored] at hsupported
      refine ⟨?_, hsupported.confirmed_le⟩
      change AtMost a (readStateAt scope a.chatId s.db)
      rw [hstored]
      exact AtMost.refl a
    · exact ⟨Keeps.refl hinv, fun states' heq => by cases heq⟩
  refine hread.bind fun (states : List ChatReadState) => ?_
  have hpublish : Reading scope t (fun s => In scope i ref s ∧ ∀ a ∈ states, Answered scope a s)
      (orThrow i (Manager.ifSame ref fun m => states.foldl (fun m state => m.publish state) m))
      fun _ s => (In scope i ref s ∧ ∀ a ∈ states, Answered scope a s) ∧ True := by
    refine reading_orThrow (lasting_in.and lasting_answered) (fun s hinv h => ?_)
      fun _ _ _ _ _ => trivial
    exact (hinv.tabs i).afterIfSame (publishAll_answered hinv (hinv.tabs i) h.1.1 h.2)
  exact hpublish.bind fun _ => Triple.pure fun _ _ => trivial

theorem answered_one {a : ChatReadState} {s : Memory} (h : Answered scope a s) :
    ∀ b ∈ [a], Answered scope b s := by
  intro b hb
  obtain rfl := List.mem_singleton.mp hb
  exact h

/-- Publishing the state that a transaction has returned, and what follows. -/
theorem reading_publish {ref : ScopeRef} {a : ChatReadState} {f : Manager → Manager}
    (hf : ∀ db m, TabOk scope db m → TabOk scope db (f m) ∧ TabGrows m (f m)) :
    Reading scope t (fun s => In scope i ref s ∧ ∀ b ∈ [a], Answered scope b s)
      (orThrow i (Manager.ifSame ref fun m => f (m.publish a))) fun _ _ => True := by
  have h : Reading scope t (fun s => In scope i ref s ∧ ∀ b ∈ [a], Answered scope b s)
      (orThrow i (Manager.ifSame ref fun m => f (m.publish a))) fun _ s =>
        (In scope i ref s ∧ ∀ b ∈ [a], Answered scope b s) ∧ True := by
    refine reading_orThrow (lasting_in.and lasting_answered) (fun s hinv h => ?_)
      fun _ _ _ _ _ => trivial
    obtain ⟨hok, hgrows⟩ := publish_answered hinv (hinv.tabs i) h.1.1 (h.2 a List.mem_cons_self)
    obtain ⟨hok', hgrows'⟩ := hf s.db _ hok
    exact (hinv.tabs i).afterIfSame ⟨hok', hgrows.trans hgrows'⟩
  exact h.post (fun _ _ _ => trivial) fun _ _ h => h

/-- A reported cursor is merged. -/
theorem reading_merge (cursor : ChatReadCursor) :
    Reading scope t (fun s => ∀ c ∈ [cursor], c ∈ s.reported) (merge i cursor)
      fun _ _ => True := by
  refine Triple.mono (K := fun s => True ∧ ∀ c ∈ [cursor], c ∈ s.reported) ?_
    fun s hs => ⟨trivial, hs⟩
  refine (reading_scope.frame lasting_reported).bind fun ref => ?_
  have hmerge : Reading scope t (fun s => In scope i ref s ∧ ∀ c ∈ [cursor], c ∈ s.reported)
      (await (.mergeChatReadCursor ref.scope cursor)) fun (a : ChatReadState) s =>
        (In scope i ref s ∧ ∀ c ∈ [cursor], c ∈ s.reported) ∧ ∀ b ∈ [a], Answered scope b s := by
    refine reading_await (lasting_in.and lasting_reported) ?_
    rintro s r s' hinv ⟨hin, hreported⟩ ⟨db, hrun, rfl⟩
    rcases inbox_cases hrun with ⟨a, hok, rfl⟩ | ⟨⟨x, rfl⟩, rfl⟩
    · rw [hin.2] at hok
      obtain ⟨seq, hseq, hupdated⟩ := mergeChatReadCursor_ok hinv.rows hok
      refine ⟨keeps_updated hinv hupdated (fun a => atMost_mergedCursor cursor seq) fun b hb =>
        hb.mergedCursor (hreported cursor List.mem_cons_self) hseq, fun a' heq => ?_⟩
      obtain rfl := Except.ok.inj heq
      refine answered_one (answered_updated hinv hupdated
        (fun b => mergedCursor_chatId cursor seq) fun b hb => ?_)
      unfold mergedCursor
      split_ifs
      · exact max_le_max hb le_rfl
      · exact hb
    · exact ⟨Keeps.refl hinv, fun a heq => by cases heq⟩
  refine hmerge.bind fun a => ?_
  refine Triple.mono (K := fun s => In scope i ref s ∧ ∀ b ∈ [a], Answered scope b s) ?_
    fun s h => ⟨h.1.1, h.2⟩
  have hpublish : Reading scope t (fun s => In scope i ref s ∧ ∀ b ∈ [a], Answered scope b s)
      (orThrow i (Manager.ifSame ref fun m => m.publish a)) fun _ _ => True :=
    reading_publish (f := id) fun db m hm => ⟨hm, TabGrows.refl m⟩
  exact hpublish.bind fun _ => Triple.pure fun _ _ => trivial

theorem reading_advance (chatId : String) (seq : JsNumber) :
    Reading scope t (fun _ => True) (advance i chatId seq) fun _ _ => True := by
  unfold advance
  cases seq with
  | other => exact Triple.pure fun _ _ => trivial
  | integer n =>
      dsimp only
      split_ifs
      · exact Triple.pure fun _ _ => trivial
      · have hstart : Reading scope t (fun _ => True) (orThrow i (startAdvance chatId n))
            fun start s => True ∧ ∀ ref, start = some ref → In scope i ref s := by
          refine reading_orThrow lasting_true (fun s hinv _ => ?_) fun s hinv _ start hok => ?_
          · obtain ⟨hok, hgrows, -⟩ := (hinv.tabs i).afterScope
            unfold startAdvance
            rcases hscope : (s.tabs i).scope with ⟨r, m⟩
            rw [hscope] at hok hgrows
            cases r with
            | error x => exact ⟨hok, hgrows⟩
            | ok ref => exact ⟨hok, hgrows⟩
          · intro ref href
            subst href
            have hin := (hinv.tabs i).afterScope.2.2 ref
            revert hok
            unfold startAdvance
            rcases hscope : (s.tabs i).scope with ⟨r, m⟩
            rw [hscope] at hin
            cases r with
            | error x => exact fun hok => by cases hok
            | ok ref' =>
                dsimp only
                intro hok
                have hsome := Except.ok.inj hok
                split_ifs at hsome
                obtain rfl := Option.some.inj hsome
                obtain ⟨hcurrent, href⟩ := hin rfl
                refine ⟨?_, href⟩
                simp only [Function.update_self]
                exact hcurrent
        refine hstart.bind fun start => ?_
        cases start with
        | none => exact Triple.pure fun _ _ => trivial
        | some ref =>
            refine Triple.mono (K := In scope i ref) ?_ fun s h => h.2 ref rfl
            have hadvance : Reading scope t (In scope i ref)
                (await (.advanceLocalReadCursor ref.scope chatId (.integer n)))
                fun (a : ChatReadState) s => In scope i ref s ∧ ∀ b ∈ [a], Answered scope b s := by
              refine reading_await lasting_in ?_
              rintro s r s' hinv hin ⟨db, hrun, rfl⟩
              rcases inbox_cases hrun with ⟨a, hok, rfl⟩ | ⟨⟨x, rfl⟩, rfl⟩
              · rw [hin.2] at hok
                obtain ⟨k, hupdated⟩ := advanceLocalReadCursor_ok hinv.rows hok
                refine ⟨keeps_updated hinv hupdated (fun a => atMost_advancedLocal k)
                  fun b hb => hb.advancedLocal k, fun a' heq => ?_⟩
                obtain rfl := Except.ok.inj heq
                exact answered_one (answered_updated hinv hupdated (fun b => rfl)
                  fun b hb => hb.trans (le_max_left _ _))
              · exact ⟨Keeps.refl hinv, fun a heq => by cases heq⟩
            refine hadvance.bind fun a => ?_
            have hpublish : Reading scope t
                (fun s => In scope i ref s ∧ ∀ b ∈ [a], Answered scope b s)
                (orThrow i (Manager.ifSame ref fun m => (m.publish a).schedule))
                fun _ _ => True :=
              reading_publish (f := Manager.schedule) fun db m hm => hm.afterSchedule
            exact hpublish.bind fun _ => Triple.pure fun _ _ => trivial

/-- A round of `flush`; the confirmation has been reported when it arrives. -/
theorem reading_flushRound (ref : ScopeRef) (state : ChatReadState) :
    Reading scope t (fun _ => True) (flushRound i ref state) fun _ _ => True := by
  have hconfirm : Reading scope t (fun _ => True) (confirmRead i ref state) fun _ _ => True := by
    have hcursor : Reading scope t (fun _ => True)
        (await (.advanceReadCursor state.chatId state.ownLocalReadSeq))
        fun (cursor : ChatReadCursor) s => True ∧ ∀ c ∈ [cursor], c ∈ s.reported := by
      refine reading_await lasting_true ?_
      rintro s r s' hinv - rfl
      refine ⟨keeps_reported hinv _, fun cursor heq c hc => ?_⟩
      subst heq
      obtain rfl := List.mem_singleton.mp hc
      exact List.mem_append_left _ List.mem_cons_self
    refine hcursor.bind fun (cursor : ChatReadCursor) => ?_
    refine Triple.mono (K := fun s => ∀ c ∈ [cursor], c ∈ s.reported) ?_ fun s h => h.2
    refine (reading_same lasting_reported ref).bind fun same => ?_
    cases same with
    | false => exact Triple.pure fun _ _ => trivial
    | true =>
        simp only [if_true]
        split_ifs
        · exact Triple.throw fun _ _ => trivial
        · exact (reading_merge cursor).bind fun _ => Triple.pure fun _ _ => trivial
  have hattempt : Reading scope t (fun _ => True) (Prog.attempt (confirmRead i ref state))
      fun _ _ => True := hconfirm.attempt (fun _ _ _ => trivial) fun _ _ _ => trivial
  -- the `try` around it, with its handler
  refine Triple.bind (Q := fun _ _ => True) (Triple.attempt (Q := fun _ _ => True)
    (Z := fun _ _ => True) (hattempt.bind fun r => ?_) (fun _ _ _ => trivial)
    fun _ _ _ => trivial) fun outcome => ?_
  · rcases r with x | same
    · refine (reading_same lasting_true ref).bind fun same => ?_
      cases same with
      | true => exact Triple.pure fun _ _ => trivial
      | false => exact Triple.pure fun _ _ => trivial
    · cases same with
      | true => exact Triple.pure fun _ _ => trivial
      | false => exact Triple.pure fun _ _ => trivial
  · have hrelease : Reading scope t (fun _ => True) (onTab i (releaseFlush ref state.chatId))
        fun _ _ => True ∧ True := by
      refine reading_onTab lasting_true (fun s hinv _ => ?_) fun _ _ _ => trivial
      unfold releaseFlush
      dsimp only
      split_ifs
      · exact (hinv.tabs i).of_fields rfl rfl rfl rfl
      · exact ⟨hinv.tabs i, TabGrows.refl _⟩
    exact (hrelease.mono fun _ _ => trivial).bind fun _ =>
      Triple.ofExcept (fun _ _ _ _ => trivial) fun _ _ _ _ => trivial

theorem reading_flush : Reading scope t (fun _ => True) (flush i) fun _ _ => True := by
  have hstart : Reading scope t (fun _ => True) (orThrow i startFlush) fun _ _ => True ∧ True := by
    refine reading_orThrow lasting_true (fun s hinv _ => ?_) fun _ _ _ _ _ => trivial
    obtain ⟨hok, hgrows, -⟩ := (hinv.tabs i).afterScope
    unfold startFlush
    split_ifs
    · exact ⟨hinv.tabs i, TabGrows.refl _⟩
    · rcases hscope : (s.tabs i).scope with ⟨r, m⟩
      rw [hscope] at hok hgrows
      cases r with
      | error x => exact ⟨hok, hgrows⟩
      | ok ref => exact ⟨hok, hgrows⟩
  refine hstart.bind fun start => ?_
  cases start with
  | none => exact Triple.pure fun _ _ => trivial
  | some ref =>
      refine Triple.iterate (fun _ _ => True) (fun _ => lasting_true.persists)
        (fun _ _ => trivial) ?_
      rintro ⟨k, retry⟩
      have hnext : Reading scope t (fun _ => True) (onTab i (nextFlush k retry))
          fun _ _ => True ∧ True := by
        refine reading_onTab lasting_true (fun s hinv _ => ?_) fun _ _ _ => trivial
        unfold nextFlush
        cases (s.tabs i).states.values.drop k with
        | nil =>
            unfold Manager.finishFlush
            dsimp only
            split_ifs
            · exact (hinv.tabs i).afterSchedule
            · exact ⟨hinv.tabs i, TabGrows.refl _⟩
        | cons state rest =>
            dsimp only
            split_ifs
            · exact (hinv.tabs i).of_fields rfl rfl rfl rfl
            · exact ⟨hinv.tabs i, TabGrows.refl _⟩
      refine hnext.bind fun step => ?_
      cases step with
      | finished => exact Triple.pure fun _ _ => ⟨fun _ _ => trivial, fun _ _ => trivial⟩
      | skip => exact Triple.pure fun _ _ => ⟨fun _ _ => trivial, fun _ _ => trivial⟩
      | send state =>
          have hround : Reading scope t (fun _ => True) (flushRound i ref state)
              fun _ _ => True := reading_flushRound ref state
          refine Triple.bind (hround.mono fun _ _ => trivial) fun again => ?_
          cases again with
          | none => exact Triple.pure fun _ _ => ⟨fun _ _ => trivial, fun _ _ => trivial⟩
          | some again => exact Triple.pure fun _ _ => ⟨fun _ _ => trivial, fun _ _ => trivial⟩

/-- Merging reported cursors of one chat. -/
theorem reading_mergeCursors (ref : ScopeRef) (chatId : String) (cursors : List ChatReadCursor) :
    Reading scope t (fun s => ∀ c ∈ cursors, c ∈ s.reported) (mergeCursors i ref chatId cursors)
      fun _ _ => True := by
  induction cursors with
  | nil => exact Triple.pure fun _ _ => trivial
  | cons cursor rest ih =>
      unfold mergeCursors
      split_ifs
      · exact Triple.throw fun _ _ => trivial
      · have hmerge : Reading scope t
            (fun s => (∀ c ∈ [cursor], c ∈ s.reported) ∧ ∀ c ∈ rest, c ∈ s.reported)
            (merge i cursor) fun _ s => True ∧ ∀ c ∈ rest, c ∈ s.reported :=
          (reading_merge cursor).frame lasting_reported
        have hrest : Reading scope t (fun s => True ∧ ∀ c ∈ rest, c ∈ s.reported)
            (do if ← orThrow i (Manager.ifSame ref id) then mergeCursors i ref chatId rest
                else return false) fun _ _ => True := by
          refine Triple.mono (K := fun s => ∀ c ∈ rest, c ∈ s.reported) ?_ fun s h => h.2
          refine (reading_same lasting_reported ref).bind fun same => ?_
          cases same with
          | true => exact ih
          | false => exact Triple.pure fun _ _ => trivial
        refine Triple.mono (hmerge.bind fun _ => hrest) fun s h => ⟨fun c hc => ?_, fun c hc => ?_⟩
        · obtain rfl := List.mem_singleton.mp hc
          exact h _ List.mem_cons_self
        · exact h c (List.mem_cons_of_mem _ hc)

theorem reading_mergeStates (ref : ScopeRef) (states : List ChatStatesEntry) :
    Reading scope t (fun s => ∀ c ∈ states.flatMap ChatStatesEntry.readStates, c ∈ s.reported)
      (mergeStates i ref states) fun _ _ => True := by
  induction states with
  | nil => exact Triple.pure fun _ _ => trivial
  | cons state rest ih =>
      have hstate : Reading scope t
          (fun s => (∀ c ∈ state.readStates, c ∈ s.reported) ∧
            ∀ c ∈ rest.flatMap ChatStatesEntry.readStates, c ∈ s.reported)
          (mergeCursors i ref state.chatId state.readStates)
          fun _ s => True ∧ ∀ c ∈ rest.flatMap ChatStatesEntry.readStates, c ∈ s.reported :=
        (reading_mergeCursors ref state.chatId state.readStates).frame lasting_reported
      have hboth : Reading scope t
          (fun s => (∀ c ∈ state.readStates, c ∈ s.reported) ∧
            ∀ c ∈ rest.flatMap ChatStatesEntry.readStates, c ∈ s.reported)
          (mergeStates i ref (state :: rest)) fun _ _ => True := by
        refine hstate.bind fun same => ?_
        cases same with
        | true => exact Triple.mono ih fun s h => h.2
        | false => exact Triple.pure fun _ _ => trivial
      refine Triple.mono hboth fun s h => ⟨fun c hc => ?_, fun c hc => ?_⟩
      · exact h c (List.mem_flatMap.mpr ⟨state, List.mem_cons_self, hc⟩)
      · obtain ⟨entry, hentry, hc⟩ := List.mem_flatMap.mp hc
        exact h c (List.mem_flatMap.mpr ⟨entry, List.mem_cons_of_mem _ hentry, hc⟩)

/-- The pages of `synchronize`; their cursors have been reported. -/
theorem reading_readPages (ref : ScopeRef) :
    Reading scope t (fun _ => True) (readPages i ref) fun _ _ => True := by
  refine Triple.iterate (fun _ _ => True) (fun _ => lasting_true.persists) (fun _ _ => trivial) ?_
  intro after
  have hpage : Reading scope t (fun _ => True) (await (.getChatStates after))
      fun (page : ChatStatesPage) s => True ∧
        ∀ c ∈ page.states.flatMap ChatStatesEntry.readStates, c ∈ s.reported := by
    refine reading_await lasting_true ?_
    rintro s r s' hinv - rfl
    refine ⟨keeps_reported hinv _, fun page heq c hc => ?_⟩
    subst heq
    exact List.mem_append_left _ hc
  refine Triple.bind hpage fun (page : ChatStatesPage) => ?_
  refine Triple.mono (K := fun s =>
    ∀ c ∈ page.states.flatMap ChatStatesEntry.readStates, c ∈ s.reported) ?_ fun s h => h.2
  refine Triple.bind (reading_same lasting_reported ref) fun same => ?_
  cases same with
  | false => exact Triple.pure fun _ _ => ⟨fun _ _ => trivial, fun _ _ => trivial⟩
  | true =>
      refine Triple.bind (reading_mergeStates ref page.states) fun again => ?_
      cases again with
      | false => exact Triple.pure fun _ _ => ⟨fun _ _ => trivial, fun _ _ => trivial⟩
      | true =>
          simp only [if_true]
          split_ifs
          · exact Triple.pure fun _ _ => ⟨fun _ _ => trivial, fun _ _ => trivial⟩
          · exact Triple.throw fun _ _ => trivial
          · exact Triple.pure fun _ _ => ⟨fun _ _ => trivial, fun _ _ => trivial⟩

theorem reading_synchronize :
    Reading scope t (fun _ => True) (synchronize i) fun _ _ => True := by
  refine reading_scope.bind fun ref => ?_
  refine Triple.mono (K := fun _ => True) ?_ fun _ _ => trivial
  refine reading_restore.bind fun _ => ?_
  refine (reading_same lasting_true ref).bind fun same => ?_
  cases same with
  | false => exact Triple.pure fun _ _ => trivial
  | true =>
      refine (reading_readPages ref).bind fun complete => ?_
      cases complete with
      | false => exact Triple.pure fun _ _ => trivial
      | true => exact reading_flush

end Programs

section Runs

variable {scope : InboxScope}

theorem keeps_env {s s' : Memory} (hinv : ReadInv scope s) (h : Env scope s s') (t : Tid) :
    (readDiscipline scope).Keeps t s s' := by
  cases h with
  | tab i hsession =>
      refine keeps_tab hinv ⟨?_, fun _ h => h, fun _ a h => ⟨a, h, AtMost.refl a⟩⟩
      exact { hinv.tabs i with session := hsession }
  | inbox hsame =>
      rename_i db
      have hstates : ∀ c, readStateAt scope c db = readStateAt scope c s.db := by
        intro c
        unfold readStateAt
        rw [hsame]
      refine keeps_db hinv ⟨?_, ?_⟩ (fun c => ?_) fun c => ?_
      · rw [hsame]
        exact hinv.rows.ordered
      · rw [hsame]
        exact hinv.rows.keyed
      · rw [hstates c]
        exact AtMost.refl _
      · rw [hstates c]
        exact hinv.supported c

theorem reading_respected : (readDiscipline scope).Respected (readSystem scope) where
  start t op s s' hinv _ hst := by
    have hends : ∀ {K : Memory → Prop} {p : Async Unit}, Reading scope t K p (fun _ _ => True) →
        ∀ s, ReadInv scope s → K s → (readDiscipline scope).Ends (readSystem scope) t p s := by
      intro K p h s hinv hk
      have htriple : Triple (readDiscipline scope) (readSystem scope).exec t K p (fun _ _ => True)
          fun _ _ => True := h
      exact htriple.ends (fun _ _ _ => trivial) (fun _ _ _ _ => trivial) hinv hk
    cases op with
    | merge i cursor =>
        obtain rfl := hst
        have hkeeps : (readDiscipline scope).Keeps t s
            { s with reported := [cursor] ++ s.reported } := keeps_reported hinv [cursor]
        refine ⟨hkeeps, hends (reading_merge cursor) _ hkeeps.inv fun c hc => ?_⟩
        obtain rfl := List.mem_singleton.mp hc
        exact List.mem_cons_self
    | advance i chatId seq =>
        obtain rfl := hst
        exact ⟨Keeps.refl hinv, hends (reading_advance chatId seq) _ hinv trivial⟩
    | restore i =>
        obtain rfl := hst
        exact ⟨Keeps.refl hinv, hends reading_restore _ hinv trivial⟩
    | synchronize i =>
        obtain rfl := hst
        exact ⟨Keeps.refl hinv, hends reading_synchronize _ hinv trivial⟩
    | flush i =>
        obtain rfl := hst
        exact ⟨Keeps.refl hinv, hends reading_flush _ hinv trivial⟩
  stop t s s' hinv hst := by
    obtain rfl := hst
    exact ⟨Keeps.refl hinv, trivial⟩
  env s s' hinv h t := ⟨keeps_env hinv h t, trivial⟩

theorem Memory.Initial.inv {s : Memory} (h : s.Initial scope) :
    (readDiscipline scope).inv s ∧ ∀ t, (readDiscipline scope).idle t s := by
  refine ⟨⟨h.rows, h.supported, fun i => ?_⟩, fun _ => trivial⟩
  constructor
  case session =>
    intro ref href
    refine ⟨h.session i ref href, fun ref' href' => ?_⟩
    rw [h.current i] at href'
    cases href'
  case current =>
    intro ref href
    rw [h.current i] at href
    cases href
  case unused => exact fun _ => h.states i
  case stored =>
    intro c a ha
    rw [h.states i] at ha
    cases ha
  case signed =>
    intro c a ha
    rw [h.states i] at ha
    cases ha
  case known =>
    intro a ha
    rw [h.heard i] at ha
    cases ha
  case ordered =>
    rw [h.heard i]
    exact List.Pairwise.nil

/-- Main result.  From any reachable state on, no counter of the inbox or of a
manager decreases.  What counts as confirmed has been read locally and has been
reported for the user, and what counts as read by the other user has been
reported for somebody else; a manager knows no more than the inbox; and its
handlers hear of no counter of a chat that decreases. -/
theorem read_states_never_regress (scope : InboxScope)
    (p p' : Pool Call Call.Answer JsError Memory)
    (hp : System.Reachable (readSystem scope) (Memory.Initial scope) p)
    (hr : System.Reaches (readSystem scope) p p') :
    (∀ c, AtMost (readStateAt scope c p.shared.db) (readStateAt scope c p'.shared.db)) ∧
      (∀ i c a, (p.shared.tabs i).states.get c = some a →
        ∃ b, (p'.shared.tabs i).states.get c = some b ∧ AtMost a b) ∧
      (∀ c, Supported p'.shared.reported scope c (readStateAt scope c p'.shared.db)) ∧
      (∀ i c a, (p'.shared.tabs i).states.get c = some a →
        Supported p'.shared.reported scope c a ∧ AtMost a (readStateAt scope c p'.shared.db)) ∧
      ∀ i, (p'.shared.tabs i).heard.Pairwise fun newer older =>
        newer.chatId = older.chatId → AtMost older newer := by
  have hgrows : ReadGrows scope p.shared p'.shared :=
    grows reading_respected (fun _ h => h.inv) hp hr
  have hinv : ReadInv scope p'.shared :=
    (sound reading_respected (fun _ h => h.inv) (hp.trans hr)).inv
  refine ⟨hgrows.stored, fun i => (hgrows.tabs i).states, hinv.supported, fun i c a ha => ?_,
    fun i => (hinv.tabs i).ordered⟩
  have hstored := (hinv.tabs i).stored c a ha
  obtain ⟨hconfirmed, hpeer, hle⟩ := (hinv.tabs i).signed c a ha
  have hsupported := hinv.supported c
  exact ⟨⟨hconfirmed, hpeer, hle, hsupported.confirmed.le hconfirmed hstored.own_confirmed,
    hsupported.peer.le hpeer hstored.peer⟩, hstored⟩

/-- A tab of the scope that is signed in, and a chat in which the user has read
five messages on another device. -/
def signedIn : Memory where
  db := emptyInbox
  tabs := fun _ => { session := some ⟨phoneScope, 0⟩ }

def fiveRead : ChatReadCursor :=
  ⟨"c1", "alice", .integer 5, none⟩

theorem signedIn_initial : signedIn.Initial phoneScope where
  rows := ⟨List.Pairwise.nil, by simp [signedIn, emptyInbox]⟩
  supported := fun _ => supported_zero
  session := by
    rintro i ref href
    obtain rfl := Option.some.inj href
    rfl
  current := fun _ => rfl
  states := fun _ => rfl
  heard := fun _ => rfl

theorem mergeChatReadCursor_fiveRead :
    ∃ db, Client.mergeChatReadCursor phoneScope fiveRead signedIn.db =
      .ok (⟨"c1", 5, 5, 0⟩, db) := by
  have hvalid : Client.valid phoneScope signedIn.db = true := valid_emptyInbox
  unfold Client.mergeChatReadCursor updateReadState Client.validate
  rw [hvalid]
  exact ⟨_, rfl⟩

/-- The notification has been merged and published. -/
theorem reachable_published :
    ∃ p, System.Reachable (readSystem phoneScope) (Memory.Initial phoneScope) p ∧
      (p.shared.tabs 0).states.get "c1" = some ⟨"c1", 5, 5, 0⟩ := by
  obtain ⟨db, hmerge⟩ := mergeChatReadCursor_fiveRead
  have h : System.Reachable (readSystem phoneScope) (Memory.Initial phoneScope)
      (System.idle signedIn) := .idle signedIn_initial
  have h := h.starts 0 (.merge 0 fiveRead) rfl rfl
  have h := h.acts 0 rfl (.ok ⟨phoneScope, 0⟩) ⟨rfl, rfl⟩
  have h := h.acts 0 rfl (.ok ⟨"c1", 5, 5, 0⟩) ⟨_, .inl (.inl ⟨_, hmerge, rfl⟩), rfl⟩
  have h := h.acts 0 rfl (.ok true) ⟨rfl, rfl⟩
  exact ⟨_, h, rfl⟩

theorem read_states_never_regress_published :
    ∃ p, System.Reachable (readSystem phoneScope) (Memory.Initial phoneScope) p ∧
      ∀ p', System.Reaches (readSystem phoneScope) p p' →
        ∃ b, (p'.shared.tabs 0).states.get "c1" = some b ∧ 5 ≤ b.ownConfirmedReadSeq ∧
          b.ownConfirmedReadSeq ≤
            (readStateAt phoneScope "c1" p'.shared.db).ownConfirmedReadSeq := by
  obtain ⟨p, hp, hget⟩ := reachable_published
  refine ⟨p, hp, fun p' hr => ?_⟩
  obtain ⟨-, hstates, -, hknown, -⟩ := read_states_never_regress phoneScope p p' hp hr
  obtain ⟨b, hb, hle⟩ := hstates 0 "c1" _ hget
  exact ⟨b, hb, hle.own_confirmed, (hknown 0 "c1" b hb).2.own_confirmed⟩

end Runs

end Reads
end Client
end SecureMessenger
