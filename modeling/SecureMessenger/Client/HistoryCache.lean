import SecureMessenger.Client.ChatStore

/-!
# The history cache

The chat store keeps the messages of the chats opened last.  `Cached` says what
holds of a current run between two of its segments; a segment either leaves the
cache alone (`Mild`), up to messages of cached chats, or opens a chat, begins to
load a page or takes one in.
-/

namespace SecureMessenger
namespace Client

open Lib

/-- The chats last passed to `setHistoryChats`. -/
def lastHistoryChats (effects : List ChatEffect) : Option (List String) :=
  effects.findSome? fun effect =>
    match effect with
    | .setHistoryChats chatIds => some chatIds
    | .request _ => none

/-- The cached messages and histories of a current run. -/
structure Kept (has : MessengerMethods) (v : ChatView) : Prop where
  messages : ∀ c, v.state.messagesByChat.has c = true → v.state.historyByChat.has c = true
  history : ∀ c, v.state.historyByChat.has c = true → c ∈ v.run.recentChats
  bounded : v.run.recentChats.length ≤ maxCachedChats
  loading : ∀ c, (∃ h, v.state.historyByChat.get c = some h ∧ h.loading = true) ↔
    v.run.historyRequests.has c = true
  pending : ∀ c q, v.run.historyRequests.get c = some q →
    q < v.fresh ∧ q ∉ v.run.finishedHistories
  finished : ∀ q ∈ v.run.finishedHistories, q < v.fresh
  told : has.setHistoryChats = true → lastHistoryChats v.effects = some v.run.recentChats

/-- The cache of a current run: the selected chat is the one opened last. -/
structure Cached (has : MessengerMethods) (v : ChatView) : Prop where
  kept : Kept has v
  selected : ∀ chat, v.state.selectedChat = some chat → v.run.recentChats.head? = some chat.id

/-- The request of the load has been made, for its chat only. -/
structure LoadOk (load : HistoryLoad) (v : ChatView) : Prop where
  made : load.request < v.fresh
  only : ∀ c, v.run.historyRequests.get c = some load.request → c = load.chatId

/-- The segment leaves the cache alone, up to messages of cached chats. -/
structure Mild (v v' : ChatView) : Prop where
  fresh : v'.fresh = v.fresh
  selection : v.run.selection ≤ v'.run.selection
  recent : v'.run.recentChats = v.run.recentChats
  requests : v'.run.historyRequests = v.run.historyRequests
  finished : v'.run.finishedHistories = v.run.finishedHistories
  selected : v'.state.selectedChat = v.state.selectedChat ∨ v'.state.selectedChat = none
  history : v'.state.historyByChat = v.state.historyByChat
  messages : ∀ c, v'.state.messagesByChat.has c = true →
    v.state.messagesByChat.has c = true ∨ v.state.historyByChat.has c = true
  loads : ∀ load, ChatTask.loadHistory load ∈ v'.tasks → ChatTask.loadHistory load ∈ v.tasks
  told : lastHistoryChats v'.effects = lastHistoryChats v.effects

section Mild

variable {has : MessengerMethods} {v v' v'' : ChatView}

theorem Mild.refl (v : ChatView) : Mild v v :=
  ⟨rfl, le_rfl, rfl, rfl, rfl, Or.inl rfl, rfl, fun _ h => Or.inl h, fun _ h => h, rfl⟩

theorem Mild.trans (h : Mild v v') (h' : Mild v' v'') : Mild v v'' := by
  constructor
  case fresh => exact h'.fresh.trans h.fresh
  case selection => exact h.selection.trans h'.selection
  case recent => exact h'.recent.trans h.recent
  case requests => exact h'.requests.trans h.requests
  case finished => exact h'.finished.trans h.finished
  case selected =>
    rcases h'.selected with hsame | hnone
    · rw [hsame]
      exact h.selected
    · exact Or.inr hnone
  case history => exact h'.history.trans h.history
  case messages =>
    intro c hc
    rcases h'.messages c hc with hm | hh
    · exact h.messages c hm
    · exact Or.inr (h.history ▸ hh)
  case loads => exact fun load hl => h.loads load (h'.loads load hl)
  case told => exact h'.told.trans h.told

theorem Mild.kept (h : Mild v v') (hk : Kept has v) : Kept has v' := by
  constructor
  case messages =>
    intro c hmem
    rw [h.history]
    rcases h.messages c hmem with hm | hh
    · exact hk.messages c hm
    · exact hh
  case history =>
    intro c hmem
    rw [h.recent]
    exact hk.history c (h.history ▸ hmem)
  case bounded =>
    rw [h.recent]
    exact hk.bounded
  case loading =>
    intro c
    rw [h.history, h.requests]
    exact hk.loading c
  case pending =>
    intro c q hq
    rw [h.fresh, h.finished]
    exact hk.pending c q (h.requests ▸ hq)
  case finished =>
    rw [h.fresh, h.finished]
    exact hk.finished
  case told =>
    intro hset
    rw [h.told, h.recent]
    exact hk.told hset

theorem Mild.cached (h : Mild v v') (hc : Cached has v) : Cached has v' := by
  refine ⟨h.kept hc.kept, fun chat hchat => ?_⟩
  rw [h.recent]
  rcases h.selected with hsame | hnone
  · exact hc.selected chat (hsame ▸ hchat)
  · rw [hnone] at hchat
    cases hchat

/-- The segment sets messages of cached chats. -/
theorem mild_setMessages {f : ChatState → ChatState}
    (hselected : (f v.state).selectedChat = v.state.selectedChat ∨ (f v.state).selectedChat = none)
    (hhistory : (f v.state).historyByChat = v.state.historyByChat)
    (hmessages : ∀ c, (f v.state).messagesByChat.has c = true →
      v.state.messagesByChat.has c = true ∨ v.state.historyByChat.has c = true) :
    Mild v (v.set f) :=
  ⟨rfl, le_rfl, rfl, rfl, rfl, hselected, hhistory, hmessages, fun _ h => h, rfl⟩

/-- The segment sets fields that are not part of the cache. -/
theorem mild_set {f : ChatState → ChatState}
    (hselected : (f v.state).selectedChat = v.state.selectedChat ∨ (f v.state).selectedChat = none)
    (hhistory : (f v.state).historyByChat = v.state.historyByChat)
    (hmessages : (f v.state).messagesByChat = v.state.messagesByChat) : Mild v (v.set f) :=
  mild_setMessages hselected hhistory fun _ hc => Or.inl (hmessages ▸ hc)

theorem mild_modify {f : ChatRun → ChatRun} (hselection : v.run.selection ≤ (f v.run).selection)
    (hrecent : (f v.run).recentChats = v.run.recentChats)
    (hrequests : (f v.run).historyRequests = v.run.historyRequests)
    (hfinished : (f v.run).finishedHistories = v.run.finishedHistories) : Mild v (v.modify f) :=
  ⟨rfl, hselection, hrecent, hrequests, hfinished, Or.inl rfl, rfl, fun _ h => Or.inl h,
    fun _ h => h, rfl⟩

theorem mild_call (g : ChatRequest) : Mild v (v.call g) :=
  ⟨rfl, le_rfl, rfl, rfl, rfl, Or.inl rfl, rfl, fun _ h => Or.inl h, fun _ h => h, rfl⟩

theorem mild_spawn {task : ChatTask} (htask : ∀ load, task ≠ .loadHistory load) :
    Mild v (v.spawn task) := by
  refine ⟨rfl, le_rfl, rfl, rfl, rfl, Or.inl rfl, rfl, fun _ h => Or.inl h, fun load hl => ?_, rfl⟩
  rcases List.mem_append.mp hl with hl | hl
  · exact hl
  · exact absurd (List.mem_singleton.mp hl).symm (htask load)

theorem mild_ifCurrent {f : ChatView → ChatView} (hf : Mild v (f v)) :
    Mild v (ChatView.ifCurrent f v) := by
  unfold ChatView.ifCurrent
  split_ifs
  · exact hf
  · exact Mild.refl v

theorem mild_ite {f : ChatView → ChatView} {p : Prop} [Decidable p] (hf : Mild v (f v)) :
    Mild v (if p then f v else v) := by
  split_ifs
  · exact hf
  · exact Mild.refl v

/-- The chats of merged messages. -/
theorem has_mergeMessagesByChat {current : Dict String (List DisplayMessage)}
    {incoming : List DisplayMessage} {c : String}
    (h : (mergeMessagesByChat current incoming).has c = true) :
    current.has c = true ∨ ∃ m ∈ incoming, m.chatId = c := by
  have hgroups : ∀ (ms : List DisplayMessage) (d : Dict String (List DisplayMessage)),
      (ms.foldl (fun grouped message =>
        grouped.set message.chatId ((grouped.get message.chatId).getD [] ++ [message])) d).has c =
          true → d.has c = true ∨ ∃ m ∈ ms, m.chatId = c := by
    intro ms
    induction ms with
    | nil => exact fun d hd => Or.inl hd
    | cons m rest ih =>
        intro d hd
        rcases ih _ hd with hset | ⟨m', hm', hc⟩
        · rcases Dict.has_set.mp hset with hc | hold
          · exact Or.inr ⟨m, List.mem_cons_self, hc⟩
          · exact Or.inl hold
        · exact Or.inr ⟨m', List.mem_cons_of_mem _ hm', hc⟩
  have hfold : ∀ (groups : List (String × List DisplayMessage))
      (next : Dict String (List DisplayMessage)),
      (groups.foldl (fun next group =>
        let previous := (current.get group.1).getD []
        let merged := mergeMessages previous group.2
        if merged = previous then next else next.set group.1 merged) next).has c = true →
          next.has c = true ∨ ∃ group ∈ groups, group.1 = c := by
    intro groups
    induction groups with
    | nil => exact fun next hn => Or.inl hn
    | cons group rest ih =>
        intro next hn
        rcases ih _ hn with hnext | ⟨g, hg, hc⟩
        · dsimp only at hnext
          split_ifs at hnext
          · exact Or.inl hnext
          · rcases Dict.has_set.mp hnext with hc | hold
            · exact Or.inr ⟨group, List.mem_cons_self, hc⟩
            · exact Or.inl hold
        · exact Or.inr ⟨g, List.mem_cons_of_mem _ hg, hc⟩
  rcases hfold _ current h with hcurrent | ⟨⟨c', group⟩, hgroup, rfl⟩
  · exact Or.inl hcurrent
  · have hin : (groupByChat incoming).has c' = true :=
      Dict.has_iff.mpr ⟨group, Dict.get_eq_some_iff.mpr hgroup⟩
    rcases hgroups incoming Dict.empty hin with hnone | hmem
    · cases hnone
    · exact Or.inr hmem

theorem mild_discover (chatId : String) : Mild v (discover v chatId) := by
  unfold discover
  split_ifs
  · exact Mild.refl v
  · exact ((mild_modify le_rfl rfl rfl rfl).trans (mild_call _)).trans
      (mild_spawn fun load h => by cases h)

/-- Messages are received for cached chats only. -/
theorem mild_receive (hload : has.loadChatHistory = true) (messages : List DisplayMessage)
    (chatIds : List String) : Mild v (receive has messages chatIds v) := by
  unfold receive
  split_ifs with hcurrent
  · have hdiscover : ∀ (ids : List String) (v : ChatView), Mild v (ids.foldl discover v) := by
      intro ids
      induction ids with
      | nil => exact Mild.refl
      | cons id rest ih => exact fun v => (mild_discover id).trans (ih _)
    refine (mild_setMessages (Or.inl rfl) rfl fun c hc => ?_).trans (hdiscover chatIds _)
    have hc : (mergeMessagesByChat v.state.messagesByChat
        (messages.filter fun message =>
          v.state.historyByChat.has message.chatId)).has c = true := by
      simpa [hload] using hc
    rcases has_mergeMessagesByChat hc with hm | ⟨m, hm, rfl⟩
    · exact Or.inl hm
    · exact Or.inr (List.mem_filter.mp hm).2
  · exact Mild.refl v

theorem mild_beginMailbox : Mild v (beginMailbox v) := by
  refine mild_ifCurrent ?_
  split_ifs
  · exact mild_modify le_rfl rfl rfl rfl
  · exact (((mild_modify le_rfl rfl rfl rfl).trans (mild_set (Or.inl rfl) rfl rfl)).trans
      (mild_call _)).trans (mild_spawn fun load h => by cases h)

theorem mild_finishMailbox : Mild v (finishMailbox v) := by
  unfold finishMailbox
  refine Mild.trans (mild_modify le_rfl rfl rfl rfl) (mild_ifCurrent ?_)
  dsimp only
  split_ifs
  · exact ((mild_set (Or.inl rfl) rfl rfl).trans (mild_modify le_rfl rfl rfl rfl)).trans
      mild_beginMailbox
  · exact mild_set (Or.inl rfl) rfl rfl

theorem mild_handle (hload : has.loadChatHistory = true) (e : ChatEvent) :
    Mild v (e.handle has v) := by
  cases e with
  | readState incoming => exact mild_ifCurrent (mild_set (Or.inl rfl) rfl rfl)
  | messages received => exact mild_receive hload _ _
  | error reason => exact mild_ifCurrent (mild_set (Or.inl rfl) rfl rfl)
  | activity chatIds => exact mild_receive hload _ _
  | outgoing sent => exact mild_receive hload _ _
  | delivery update =>
      rw [ChatEvent.handle]
      refine mild_ifCurrent ?_
      split
      · exact Mild.refl v
      · exact mild_receive hload _ _
  | ready => exact mild_beginMailbox

end Mild

section Cache

variable {has : MessengerMethods} {v : ChatView}

theorem mem_recent_of_request (hk : Kept has v) {c : String} {q : Nat}
    (hq : v.run.historyRequests.get c = some q) : c ∈ v.run.recentChats := by
  obtain ⟨h, hget, -⟩ := (hk.loading c).mpr (Dict.has_iff.mpr ⟨q, hq⟩)
  exact hk.history c (Dict.has_iff.mpr ⟨h, hget⟩)

/-- Retaining a chat keeps the cache and puts the chat first. -/
theorem Kept.retain (hload : has.loadChatHistory = true) (hk : Kept has v) (chatId : String) :
    Kept has (retainHistory has chatId v) ∧
      (retainHistory has chatId v).run.recentChats.head? = some chatId := by
  have hview : retainHistory has chatId v =
      { v with
        run := { v.run with
          recentChats := (chatId :: v.run.recentChats.filter fun id =>
            decide (id ≠ chatId)).take maxCachedChats
          historyRequests := v.run.historyRequests.filterKeys fun id => decide (id ∈
            (chatId :: v.run.recentChats.filter fun id => decide (id ≠ chatId)).take
              maxCachedChats) }
        state := { v.state with
          messagesByChat := v.state.messagesByChat.filterKeys fun id => decide (id ∈
            (chatId :: v.run.recentChats.filter fun id => decide (id ≠ chatId)).take
              maxCachedChats)
          historyByChat := v.state.historyByChat.filterKeys fun id => decide (id ∈
            (chatId :: v.run.recentChats.filter fun id => decide (id ≠ chatId)).take
              maxCachedChats) }
        effects :=
          if has.setHistoryChats then
            .setHistoryChats ((chatId :: v.run.recentChats.filter fun id =>
              decide (id ≠ chatId)).take maxCachedChats) :: v.effects
          else v.effects } := by
    unfold retainHistory
    simp only [hload, if_true]
    split_ifs
    · rfl
    · rfl
  rw [hview]
  generalize hret : (chatId :: v.run.recentChats.filter fun id => decide (id ≠ chatId)).take
    maxCachedChats = retained
  have hhead : retained.head? = some chatId := by
    rw [← hret]
    rfl
  refine ⟨?_, hhead⟩
  constructor
  case messages =>
    intro c hc
    obtain ⟨hmem, hold⟩ := Dict.has_filterKeys.mp hc
    exact Dict.has_filterKeys.mpr ⟨hmem, hk.messages c hold⟩
  case history =>
    intro c hc
    exact of_decide_eq_true (Dict.has_filterKeys.mp hc).1
  case bounded =>
    rw [← hret]
    exact List.length_take_le _ _
  case loading =>
    intro c
    rw [Dict.has_filterKeys, ← hk.loading c]
    simp only [Dict.get_filterKeys]
    by_cases hc : c ∈ retained
    · simp [hc]
    · simp [hc]
  case pending =>
    intro c q hq
    refine hk.pending c q ?_
    rw [Dict.get_filterKeys] at hq
    split_ifs at hq
    exact hq
  case finished => exact hk.finished
  case told =>
    intro hset
    simp only [hset, if_true]
    rfl

theorem retainHistory_fields (chatId : String) :
    (retainHistory has chatId v).fresh = v.fresh ∧
      (retainHistory has chatId v).current = v.current ∧
      (retainHistory has chatId v).run.selection = v.run.selection ∧
      (retainHistory has chatId v).state.selectedChat = v.state.selectedChat ∧
      (retainHistory has chatId v).tasks = v.tasks ∧
      ∀ c q, (retainHistory has chatId v).run.historyRequests.get c = some q →
        v.run.historyRequests.get c = some q := by
  have hfilter : ∀ (keep : String → Bool) c q,
      (v.run.historyRequests.filterKeys keep).get c = some q →
        v.run.historyRequests.get c = some q := by
    intro keep c q hq
    rw [Dict.get_filterKeys] at hq
    split_ifs at hq
    exact hq
  unfold retainHistory
  simp only
  split_ifs
  · exact ⟨rfl, rfl, rfl, rfl, rfl, hfilter _⟩
  · exact ⟨rfl, rfl, rfl, rfl, rfl, hfilter _⟩
  · exact ⟨rfl, rfl, rfl, rfl, rfl, fun _ _ hq => hq⟩

/-- `loadHistory` does nothing, or it makes a request and marks the chat. -/
theorem beginHistory_cases (has : MessengerMethods) (v : ChatView) (chatId : String)
    (previous : Bool) :
    beginHistory has chatId previous v = (none, v) ∨
      ∃ (load : HistoryLoad) (h : ChatHistoryState), load.chatId = chatId ∧
        load.request = v.fresh ∧ h.loading = true ∧
        beginHistory has chatId previous v = (some load,
          { v with
            fresh := v.fresh + 1
            run := { v.run with
              historyRequests := v.run.historyRequests.set chatId v.fresh }
            state := { v.state with
              historyByChat := v.state.historyByChat.set chatId h }
            effects := .request (.loadChatHistory chatId load.before) :: v.effects }) := by
  unfold beginHistory
  simp only
  by_cases hstale : (!v.current || !has.loadChatHistory) = true
  · exact Or.inl (if_pos hstale)
  · rw [if_neg hstale]
    by_cases hskip : (((v.state.historyByChat.get chatId).getD {}).loading ||
        (if previous then !((v.state.historyByChat.get chatId).getD {}).hasPrevious
          else ((v.state.historyByChat.get chatId).getD {}).loaded)) = true
    · exact Or.inl (if_pos hskip)
    · rw [if_neg hskip]
      exact Or.inr ⟨_, _, rfl, rfl, rfl, rfl⟩

/-- Beginning to load a page of a retained chat keeps the cache. -/
theorem Kept.begin (hk : Kept has v) {chatId : String} (hmem : chatId ∈ v.run.recentChats)
    (previous : Bool) :
    Kept has (beginHistory has chatId previous v).2 ∧
      ∀ load, (beginHistory has chatId previous v).1 = some load →
        LoadOk load (beginHistory has chatId previous v).2 := by
  rcases beginHistory_cases has v chatId previous with heq |
    ⟨load, h, hchat, hrequest, hloading, heq⟩
  · rw [heq]
    exact ⟨hk, fun load hl => by cases hl⟩
  · rw [heq]
    refine ⟨?_, fun load' hl => ?_⟩
    · constructor
      case messages => exact fun c hc => Dict.has_set.mpr (Or.inr (hk.messages c hc))
      case history =>
        intro c hc
        rcases Dict.has_set.mp hc with rfl | hold
        · exact hmem
        · exact hk.history c hold
      case bounded => exact hk.bounded
      case loading =>
        intro c
        rw [Dict.has_set, ← hk.loading c]
        simp only [Dict.get_set]
        split_ifs with hc
        · simp [hc, hloading]
        · simp [hc]
      case pending =>
        intro c q hq
        simp only [Dict.get_set] at hq
        split_ifs at hq
        · obtain rfl := Option.some.inj hq
          exact ⟨Nat.lt_succ_self _, fun hfin => Nat.lt_irrefl _ (hk.finished _ hfin)⟩
        · obtain ⟨hlt, hnot⟩ := hk.pending c q hq
          exact ⟨Nat.lt_succ_of_lt hlt, hnot⟩
      case finished => exact fun q hq => Nat.lt_succ_of_lt (hk.finished q hq)
      case told => exact hk.told
    · obtain rfl := Option.some.inj hl
      rw [← hchat] at hmem
      refine ⟨hrequest ▸ Nat.lt_succ_self _, fun c hc => ?_⟩
      simp only [Dict.get_set, hrequest] at hc
      split_ifs at hc with heq
      · exact heq.symm.trans hchat.symm
      · exact absurd (hk.pending c _ hc).1 (Nat.lt_irrefl _)

theorem beginHistory_fields (chatId : String) (previous : Bool) :
    v.fresh ≤ (beginHistory has chatId previous v).2.fresh ∧
      (beginHistory has chatId previous v).2.run.recentChats = v.run.recentChats ∧
      (beginHistory has chatId previous v).2.run.selection = v.run.selection ∧
      (beginHistory has chatId previous v).2.state.selectedChat = v.state.selectedChat ∧
      (beginHistory has chatId previous v).2.tasks = v.tasks ∧
      ∀ c q, q < v.fresh →
        (beginHistory has chatId previous v).2.run.historyRequests.get c = some q →
          v.run.historyRequests.get c = some q := by
  rcases beginHistory_cases has v chatId previous with heq |
    ⟨load, h, -, -, -, heq⟩
  · rw [heq]
    exact ⟨le_rfl, rfl, rfl, rfl, rfl, fun _ _ _ hq => hq⟩
  · rw [heq]
    refine ⟨Nat.le_succ _, rfl, rfl, rfl, rfl, fun c q hlt hq => ?_⟩
    simp only [Dict.get_set] at hq
    split_ifs at hq
    · obtain rfl := Option.some.inj hq
      exact absurd hlt (Nat.lt_irrefl _)
    · exact hq

/-- What `loadHistory` does with the answer while it is the current load. -/
theorem finishHistory_current {load : HistoryLoad} (h : load.isCurrent v = true)
    (answer : Except JsError (List DisplayMessage × Option ChatHistoryCursor)) :
    ∃ (history : ChatHistoryState) (messages : List DisplayMessage),
      history.loading = false ∧ (messages = [] ∨ ∃ next, answer = .ok (messages, next)) ∧
      finishHistory load answer v =
        { v with
          state := { v.state with
            messagesByChat := mergeMessagesByChat v.state.messagesByChat messages
            historyByChat := v.state.historyByChat.set load.chatId history }
          run := { v.run with
            historyRequests := v.run.historyRequests.delete load.chatId
            finishedHistories := load.request :: v.run.finishedHistories } } := by
  unfold finishHistory
  simp only [h, if_true]
  cases answer with
  | ok page => exact ⟨_, page.1, rfl, .inr ⟨page.2, rfl⟩, rfl⟩
  | error x => exact ⟨_, [], rfl, .inl rfl, rfl⟩

/-- Any other load is only finished. -/
theorem finishHistory_superseded {load : HistoryLoad} (h : load.isCurrent v = false)
    (answer : Except JsError (List DisplayMessage × Option ChatHistoryCursor)) :
    finishHistory load answer v = v.modify fun run =>
      { run with finishedHistories := load.request :: run.finishedHistories } := by
  unfold finishHistory
  simp only [h]
  rfl

/-- Taking in a page of messages of its chat keeps the cache. -/
theorem Cached.finish (hc : Cached has v) (hcurrent : v.current = true) {load : HistoryLoad}
    (hl : LoadOk load v)
    {answer : Except JsError (List DisplayMessage × Option ChatHistoryCursor)}
    (hpage : ∀ messages next, answer = .ok (messages, next) →
      ∀ m ∈ messages, m.chatId = load.chatId) :
    Cached has (finishHistory load answer v) := by
  have hk := hc.kept
  by_cases hcur : v.run.historyRequests.get load.chatId = some load.request
  · have hmem := mem_recent_of_request hk hcur
    have hisCurrent : load.isCurrent v = true := by
      simp [HistoryLoad.isCurrent, hcurrent, hcur]
    obtain ⟨h, messages, hloading, hanswer, heq⟩ := finishHistory_current hisCurrent answer
    have hmessages : ∀ m ∈ messages, m.chatId = load.chatId := by
      rcases hanswer with rfl | ⟨next, hanswer⟩
      · simp
      · exact hpage _ _ hanswer
    rw [heq]
    refine ⟨?_, hc.selected⟩
    constructor
    case messages =>
      intro c hmem'
      refine Dict.has_set.mpr ?_
      rcases has_mergeMessagesByChat hmem' with hold | ⟨m, hm, rfl⟩
      · exact Or.inr (hk.messages c hold)
      · exact Or.inl (hmessages m hm).symm
    case history =>
      intro c hhas
      rcases Dict.has_set.mp hhas with rfl | hold
      · exact hmem
      · exact hk.history c hold
    case bounded => exact hk.bounded
    case loading =>
      intro c
      rw [Dict.has_delete, ← hk.loading c]
      simp only [Dict.get_set]
      split_ifs with hne
      · simp [hne, hloading]
      · simp [hne]
    case pending =>
      intro c q hq
      simp only [Dict.get_delete] at hq
      split_ifs at hq with hne
      obtain ⟨hlt, hnot⟩ := hk.pending c q hq
      refine ⟨hlt, fun hfin => ?_⟩
      rcases List.mem_cons.mp hfin with rfl | hfin
      · exact hne (hl.only c hq).symm
      · exact hnot hfin
    case finished =>
      intro q hq
      rcases List.mem_cons.mp hq with rfl | hq
      · exact hl.made
      · exact hk.finished q hq
    case told => exact hk.told
  · have hisCurrent : load.isCurrent v = false := by
      simp [HistoryLoad.isCurrent, hcur]
    have heq := finishHistory_superseded hisCurrent answer
    rw [heq]
    refine ⟨?_, hc.selected⟩
    constructor
    case messages => exact hk.messages
    case history => exact hk.history
    case bounded => exact hk.bounded
    case loading => exact hk.loading
    case pending =>
      intro c q hq
      obtain ⟨hlt, hnot⟩ := hk.pending c q hq
      refine ⟨hlt, fun hfin => ?_⟩
      rcases List.mem_cons.mp hfin with rfl | hfin
      · exact hcur (hl.only c hq ▸ hq)
      · exact hnot hfin
    case finished =>
      intro q hq
      rcases List.mem_cons.mp hq with rfl | hq
      · exact hl.made
      · exact hk.finished q hq
    case told => exact hk.told

/-- The cache is in these fields. -/
theorem Kept.of_fields {v' : ChatView} (hk : Kept has v)
    (hmessages : v'.state.messagesByChat = v.state.messagesByChat)
    (hhistory : v'.state.historyByChat = v.state.historyByChat)
    (hrecent : v'.run.recentChats = v.run.recentChats)
    (hrequests : v'.run.historyRequests = v.run.historyRequests)
    (hfinished : v'.run.finishedHistories = v.run.finishedHistories)
    (hfresh : v'.fresh = v.fresh)
    (htold : lastHistoryChats v'.effects = lastHistoryChats v.effects) : Kept has v' := by
  constructor
  case messages =>
    rw [hmessages, hhistory]
    exact hk.messages
  case history =>
    rw [hhistory, hrecent]
    exact hk.history
  case bounded =>
    rw [hrecent]
    exact hk.bounded
  case loading =>
    rw [hhistory, hrequests]
    exact hk.loading
  case pending =>
    rw [hrequests, hfresh, hfinished]
    exact hk.pending
  case finished =>
    rw [hfinished, hfresh]
    exact hk.finished
  case told =>
    rw [htold, hrecent]
    exact hk.told

/-- A chat has been opened: it is the first of the chats opened last, and its
history may have begun to load. -/
structure OpensChat (has : MessengerMethods) (chatId : String) (v : ChatView)
    (opened : Option HistoryLoad × ChatView) : Prop where
  kept : Kept has opened.2
  head : opened.2.run.recentChats.head? = some chatId
  fresh : v.fresh ≤ opened.2.fresh
  selection : opened.2.run.selection = v.run.selection
  selected : opened.2.state.selectedChat = v.state.selectedChat
  tasks : opened.2.tasks = v.tasks
  requests : ∀ c q, q < v.fresh → opened.2.run.historyRequests.get c = some q →
    v.run.historyRequests.get c = some q
  load : ∀ load, opened.1 = some load → LoadOk load opened.2

/-- `retainHistory` and `loadHistory`. -/
theorem opensChat (hload : has.loadChatHistory = true) (hk : Kept has v) (chatId : String) :
    OpensChat has chatId v (beginHistory has chatId false (retainHistory has chatId v)) := by
  obtain ⟨hkept, hhead⟩ := hk.retain hload chatId
  obtain ⟨hbegun, hloads⟩ := hkept.begin (List.mem_of_mem_head? hhead) false
  obtain ⟨hfresh, -, hselection, hselected, htasks, hrequests⟩ :=
    @retainHistory_fields has v chatId
  obtain ⟨hfresh', hrecent', hselection', hselected', htasks', hrequests'⟩ :=
    @beginHistory_fields has (retainHistory has chatId v) chatId false
  constructor
  case kept => exact hbegun
  case head =>
    rw [hrecent']
    exact hhead
  case fresh => exact hfresh.ge.trans hfresh'
  case selection => exact hselection'.trans hselection
  case selected => exact hselected'.trans hselected
  case tasks => exact htasks'.trans htasks
  case requests =>
    intro c q hq hget
    exact hrequests c q (hrequests' c q (hfresh.symm ▸ hq) hget)
  case load => exact hloads

/-- `selectChat` takes the next number and opens the chat. -/
theorem beginSelect_opens (hload : has.loadChatHistory = true) (hk : Kept has v)
    (chat : DirectChat) :
    Cached has (beginSelect has chat v).2 ∧
      (beginSelect has chat v).2.run.recentChats.head? = some chat.id ∧
      v.fresh ≤ (beginSelect has chat v).2.fresh ∧
      (beginSelect has chat v).2.run.selection = v.run.selection + 1 ∧
      (beginSelect has chat v).1.selection = v.run.selection + 1 ∧
      (beginSelect has chat v).1.chatId = chat.id ∧
      (∀ load, ChatTask.loadHistory load ∈ (beginSelect has chat v).2.tasks →
        ChatTask.loadHistory load ∈ v.tasks ∨ LoadOk load (beginSelect has chat v).2) ∧
      ∀ c q, q < v.fresh →
        (beginSelect has chat v).2.run.historyRequests.get c = some q →
          v.run.historyRequests.get c = some q := by
  have hbefore : Kept has ((v.modify fun run =>
      { run with selection := run.selection + 1 }).set fun state =>
        { state with
          selectedChat := some chat
          loadingChatId := some chat.id
          chatsError := none
          sendError := none }) :=
    hk.of_fields rfl rfl rfl rfl rfl rfl rfl
  have hopens := opensChat hload hbefore chat.id
  unfold beginSelect
  simp only
  revert hopens
  generalize beginHistory has chat.id false (retainHistory has chat.id ((v.modify fun run =>
      { run with selection := run.selection + 1 }).set fun state =>
        { state with
          selectedChat := some chat
          loadingChatId := some chat.id
          chatsError := none
          sendError := none })) = opened
  intro hopens
  obtain ⟨load, v'⟩ := opened
  have hselected : ∀ chat', v'.state.selectedChat = some chat' →
      v'.run.recentChats.head? = some chat'.id := by
    intro chat' hchat'
    have hsame := hopens.selected.symm.trans hchat'
    obtain rfl : chat = chat' := Option.some.inj hsame
    exact hopens.head
  cases load with
  | none =>
      exact ⟨⟨hopens.kept.of_fields rfl rfl rfl rfl rfl rfl rfl, hselected⟩, hopens.head,
        hopens.fresh, hopens.selection, rfl, trivial,
        fun load hl => Or.inl (hopens.tasks ▸ hl), hopens.requests⟩
  | some load =>
      refine ⟨⟨hopens.kept.of_fields rfl rfl rfl rfl rfl rfl rfl, hselected⟩, hopens.head,
        hopens.fresh, hopens.selection, rfl, trivial, fun load' hl => ?_, hopens.requests⟩
      rcases List.mem_append.mp hl with hl | hl
      · exact Or.inl (hopens.tasks ▸ hl)
      · have heq := List.mem_singleton.mp hl
        obtain rfl : load' = load := by
          cases heq
          rfl
        have hok := hopens.load load' rfl
        exact Or.inr ⟨hok.made, hok.only⟩

theorem finishHistory_fields (load : HistoryLoad)
    (answer : Except JsError (List DisplayMessage × Option ChatHistoryCursor)) :
    (finishHistory load answer v).fresh = v.fresh ∧
      (finishHistory load answer v).run.recentChats = v.run.recentChats ∧
      (finishHistory load answer v).run.selection = v.run.selection ∧
      (finishHistory load answer v).tasks = v.tasks ∧
      ∀ c q, (finishHistory load answer v).run.historyRequests.get c = some q →
        v.run.historyRequests.get c = some q := by
  have hdelete : ∀ c q, (v.run.historyRequests.delete load.chatId).get c = some q →
      v.run.historyRequests.get c = some q := by
    intro c q hq
    rw [Dict.get_delete] at hq
    split_ifs at hq
    exact hq
  unfold finishHistory
  cases load.isCurrent v with
  | false => exact ⟨rfl, rfl, rfl, rfl, fun _ _ hq => hq⟩
  | true =>
      cases answer with
      | ok page => exact ⟨rfl, rfl, rfl, rfl, hdelete⟩
      | error x => exact ⟨rfl, rfl, rfl, rfl, hdelete⟩

end Cache

end Client
end SecureMessenger
