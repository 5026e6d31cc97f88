import SecureMessenger.Client.HistoryRuns

/-!
# The methods and the history cache

The first segment of a method runs in the current run; what follows continues
that run.  So each call of the chat store keeps the discipline of the cache, and
its invariant holds in every reachable state.
-/

namespace SecureMessenger
namespace Client

open Lib
open Lib.Discipline

section Methods

variable {has : MessengerMethods} {w : Watched} {t : Tid} {r : Nat}

/-- What a thread knows at its start lets it run the program. -/
theorem Along.ends {K : Watched → Prop} {p : ChatProg Unit} {Q : Unit → Watched → Prop}
    (h : Along has t r K p Q) (hinv : HistoryInv has w) (hk : K w) :
    (historyDiscipline has).Ends (watchedSystem has) t p w :=
  (h w hinv hk).mono (fun _ _ _ => trivial) fun _ _ _ => trivial

/-- A program whose first segment, on the whole memory, keeps the cache. -/
theorem ends_segment {α : Type} {f : ChatMemory → α × ChatMemory} {rest : α → ChatProg Unit}
    (hf : ∀ w, HistoryInv has w → (historyDiscipline has).Keeps t w (w.after t (f w.memory).2) ∧
      (historyDiscipline has).Ends (watchedSystem has) t (rest (f w.memory).1)
        (w.after t (f w.memory).2)) :
    (historyDiscipline has).Ends (watchedSystem has) t (segment none f >>= rest) w := by
  rintro w₁ hd a w₂ ⟨⟨rfl, hmemory⟩, hw₂⟩
  have hmemory' : w₂.memory = (f w₁.memory).2 := hmemory
  rw [hmemory'] at hw₂
  subst hw₂
  exact hf w₁ hd.inv

theorem ends_loneSegment {f : ChatMemory → Unit × ChatMemory}
    (hf : ∀ w, HistoryInv has w → (historyDiscipline has).Keeps t w (w.after t (f w.memory).2)) :
    (historyDiscipline has).Ends (watchedSystem has) t (segment none f) w := by
  have hsegment : (historyDiscipline has).Ends (watchedSystem has) t
      (segment none f >>= fun _ => pure ()) w :=
    ends_segment fun w hinv => ⟨hf w hinv, trivial⟩
  exact hsegment

/-- A method: what its first segment does in the current run, and what follows
there. -/
theorem ends_method {α : Type} {f : ChatView → α × ChatView} {rest : Nat → α → ChatProg Unit}
    (Q : Nat → α → Watched → Prop)
    (hm : ∀ w r, HistoryInv has w → w.memory.run = some r →
      Moves has (w.maker r (w.memory.runs r).selection = some t) (w.memory.view r)
          (f (w.memory.view r)).2 ∧
        Q r (f (w.memory.view r)).1 (w.after t (w.memory.put r (f (w.memory.view r)).2)))
    (hrest : ∀ r a, Along has t r (Q r a) (rest r a) fun _ => Begun r) :
    (historyDiscipline has).Ends (watchedSystem has) t (method f rest) w := by
  refine ends_segment fun w hinv => ?_
  unfold ChatMemory.inRun
  cases hrun : w.memory.run with
  | none =>
      simp only [after_self]
      exact ⟨Keeps.refl hinv, trivial⟩
  | some r =>
      obtain ⟨hmoves, hq⟩ := hm w r hinv hrun
      have hkeeps : (historyDiscipline has).Keeps t w
          (w.after t (w.memory.put r (f (w.memory.view r)).2)) :=
        keeps_put hinv (hinv.opened.2 r hrun) hmoves fun hne => absurd hrun hne
      exact ⟨hkeeps, (hrest r _).ends hkeeps.inv hq⟩

/-- A method that leaves the cache alone. -/
theorem ends_quietMethod {α : Type} {f : ChatView → α × ChatView} {rest : Nat → α → ChatProg Unit}
    (hm : ∀ v, Mild v (f v).2) (hrest : ∀ r a, Prog.Calls (Sparing r) (rest r a)) :
    (historyDiscipline has).Ends (watchedSystem has) t (method f rest) w :=
  ends_method (fun r _ => Begun r)
    (fun w r hinv hrun => ⟨(hm _).moves, hinv.opened.2 r hrun⟩)
    fun r a => Along.quiet (hrest r a)

theorem ends_selectChat (hload : has.loadChatHistory = true) (chat : DirectChat) :
    (historyDiscipline has).Ends (watchedSystem has) t (Client.selectChat has chat) w := by
  refine ends_method (fun r s => Chose t r s.selection s.chatId) (fun w r hinv hrun => ?_)
    fun r s => along_awaitSelect s
  have hk := (hinv.cached r hrun).kept
  exact ⟨moves_beginSelect hload hk chat, chose_beginSelect hload hk (hinv.opened.2 r hrun) chat⟩

theorem ends_findPeople :
    (historyDiscipline has).Ends (watchedSystem has) t Client.findPeople w := by
  refine ends_quietMethod (fun v => ?_) fun r step => ?_
  · exact ((mild_modify le_rfl rfl rfl rfl).trans (mild_set (Or.inl rfl) rfl rfl)).trans
      (mild_call _)
  · refine (quiet_response _).attempt.bind fun answer => ?_
    refine quiet_doRun (tame_of_stale fun v hv => by simp [hv]) fun v => ?_
    split_ifs
    · cases answer with
      | ok searchResults => exact mild_set (Or.inl rfl) rfl rfl
      | error x => exact mild_set (Or.inl rfl) rfl rfl
    · exact Mild.refl v

/-- `openDirectChat` takes a number first and opens the chat when it has been
created. -/
theorem ends_openDirectChat (hload : has.loadChatHistory = true) (userId : String) :
    (historyDiscipline has).Ends (watchedSystem has) t (Client.openDirectChat has userId) w := by
  refine ends_method (fun r selection w => Begun r w ∧ ∀ n, selection = some n → Took t r n w)
    (fun w r hinv hrun => ?_) fun r selection => ?_
  · have hopen : Begun r w := hinv.opened.2 r hrun
    split_ifs with hbusy
    · exact ⟨(Mild.refl _).moves, hopen, fun n hn => by cases hn⟩
    · refine ⟨Mild.moves ?_, hopen, fun n hn => ?_⟩
      · refine (Mild.trans ?_ (mild_set (Or.inl rfl) rfl rfl)).trans (mild_call _)
        exact mild_modify (Nat.le_succ _) rfl rfl rfl
      · obtain rfl := Option.some.inj hn
        exact took_after hopen rfl
  · cases selection with
    | none => exact Triple.pure fun w h => h.1
    | some n =>
        have hlast : Prog.Calls (Sparing r) (doRun r (ChatView.ifCurrent (ChatView.set fun state =>
            { state with openingUserId := none }))) :=
          quiet_doRun tame_ifCurrent fun v => mild_ifCurrent (mild_set (Or.inl rfl) rfl rfl)
        refine ((along_openCreatedChat hload n userId).attempt.mono fun w h =>
          h.2 n rfl).bind fun answer => ?_
        cases answer with
        | ok _ => exact Along.quiet hlast
        | error x =>
            refine Along.quiet (Prog.Calls.bind (quiet_doRun tame_isSelection fun v => ?_)
              fun _ => hlast)
            exact mild_ite (mild_set (Or.inl rfl) rfl rfl)

theorem ends_reportVisibleMessages (chatId : String) (lastReadSeq : JsNumber) :
    (historyDiscipline has).Ends (watchedSystem has) t
      (Client.reportVisibleMessages has chatId lastReadSeq) w := by
  refine ends_quietMethod (fun v => ?_) fun _ _ => trivial
  cases lastReadSeq with
  | other => exact Mild.refl v
  | integer seq =>
      dsimp only
      split_ifs
      · exact (mild_call _).trans (mild_spawn fun load h => by cases h)
      · exact Mild.refl v

/-- `loadPreviousMessages` loads for the selected chat, which is cached. -/
theorem ends_loadPreviousMessages :
    (historyDiscipline has).Ends (watchedSystem has) t (Client.loadPreviousMessages has) w := by
  refine ends_method (fun r load w => Begun r w ∧ ∀ load', load = some load' → Made r load' w)
    (fun w r hinv hrun => ?_) fun r load => ?_
  · have hopen : Begun r w := hinv.opened.2 r hrun
    have hcached := hinv.cached r hrun
    cases hselected : (w.memory.view r).state.selectedChat with
    | none =>
        simp only [Option.map_none]
        exact ⟨(Mild.refl _).moves, hopen, fun load' hl => by cases hl⟩
    | some chat =>
        simp only [Option.map_some]
        split_ifs with hempty
        · exact ⟨(Mild.refl _).moves, hopen, fun load' hl => by cases hl⟩
        · have hmem := List.mem_of_mem_head? (hcached.selected chat hselected)
          obtain ⟨hkept, hloads⟩ := hcached.kept.begin hmem
            (((w.memory.view r).state.historyByChat.get chat.id).any ChatHistoryState.loaded)
          obtain ⟨hfresh, hrecent, hselection, hchat, htasks, hrequests⟩ :=
            @beginHistory_fields has (w.memory.view r) chat.id
              (((w.memory.view r).state.historyByChat.get chat.id).any ChatHistoryState.loaded)
          refine ⟨?_, hopen, fun load' hl => made_after hopen (hloads load' hl)⟩
          constructor
          case cached =>
            refine fun _ _ => ⟨hkept, fun chat' hchat' => ?_⟩
            rw [hrecent]
            exact hcached.selected chat' (hchat ▸ hchat')
          case fresh => exact hfresh
          case selection => exact hselection.ge
          case requests => exact hrequests
          case loads => exact fun load hl => Or.inl (htasks ▸ hl)
          case recent => exact fun _ => Or.inl hrecent
  · cases load with
    | none => exact Triple.pure fun w h => h.1
    | some load => exact (along_awaitHistory load).mono fun w h => h.2 load rfl

theorem ends_retryMessage (clientMessageId : String) :
    (historyDiscipline has).Ends (watchedSystem has) t
      (Client.retryMessage has clientMessageId) w := by
  refine ends_quietMethod (fun v => ?_) fun r _ => ?_
  · dsimp only
    split_ifs
    · refine Mild.trans ?_ (mild_call _)
      exact mild_set (Or.inl rfl) rfl rfl
    · exact mild_set (Or.inl rfl) rfl rfl
  · split_ifs
    · refine (quiet_response _).attempt.bind fun answer => ?_
      cases answer with
      | ok _ => trivial
      | error x =>
          exact quiet_doRun tame_ifCurrent fun v => mild_ifCurrent (mild_set (Or.inl rfl) rfl rfl)
    · trivial

theorem ends_sendText (hload : has.loadChatHistory = true) (content : String) :
    (historyDiscipline has).Ends (watchedSystem has) t (Client.sendText has content) w := by
  refine ends_quietMethod (fun v => ?_) fun r step => ?_
  · cases v.state.selectedChat with
    | none => exact Mild.refl v
    | some chat =>
        dsimp only
        split_ifs
        · exact Mild.refl v
        · refine Mild.trans ?_ (mild_call _)
          exact mild_set (Or.inl rfl) rfl rfl
  · cases step with
    | none => trivial
    | some step =>
        refine (quiet_response _).attempt.bind fun answer => ?_
        cases answer with
        | ok accepted =>
            refine quiet_doRun tame_ifCurrent fun v => mild_ifCurrent ?_
            exact (mild_receive hload _ _).trans (mild_set (Or.inl rfl) rfl rfl)
        | error x =>
            refine quiet_doRun (Tame.comp tame_ifCurrent tame_isSelection) fun v => ?_
            refine Mild.trans (mild_ite (mild_set (Or.inl rfl) rfl rfl)) (mild_ifCurrent ?_)
            exact mild_set (Or.inl rfl) rfl rfl

theorem mild_loadRemote (v : ChatView) : Mild v (loadRemote v) := by
  refine Mild.trans ?_ mild_beginMailbox
  exact (mild_call _).trans (mild_spawn fun load h => by cases h)

/-- The cache of a new run is empty. -/
theorem cached_empty (has : MessengerMethods) {v : ChatView}
    (hmessages : v.state.messagesByChat = Dict.empty)
    (hhistory : v.state.historyByChat = Dict.empty)
    (hselected : v.state.selectedChat = none) {userId : String}
    (hrun : v.run = { userId := userId })
    (htold : has.setHistoryChats = true → lastHistoryChats v.effects = some []) :
    Cached has v := by
  refine ⟨?_, fun chat hchat => ?_⟩
  · constructor
    case messages =>
      intro c hc
      rw [hmessages, Dict.has_empty] at hc
      cases hc
    case history =>
      intro c hc
      rw [hhistory, Dict.has_empty] at hc
      cases hc
    case bounded =>
      rw [hrun]
      exact Nat.zero_le _
    case loading =>
      intro c
      rw [hhistory, hrun, Dict.has_empty]
      simp
    case pending =>
      intro c q hq
      rw [hrun, Dict.get_empty] at hq
      cases hq
    case finished =>
      intro q hq
      rw [hrun] at hq
      cases hq
    case told =>
      intro hset
      rw [hrun]
      exact htold hset
  · rw [hselected] at hchat
    cases hchat

/-- The store after `start` has opened a run, before anything is loaded. -/
def openedRun (has : MessengerMethods) (userId : String) (m : ChatMemory) : ChatMemory :=
  { dispose has m with
    run := some m.nextRun
    runs := Function.update m.runs m.nextRun { userId := userId }
    tasks := Function.update m.tasks m.nextRun []
    nextRun := m.nextRun + 1
    state := { userId := some userId }
    effects :=
      if has.setHistoryChats then .setHistoryChats [] :: (dispose has m).effects
      else (dispose has m).effects }

theorem beginStart_put (has : MessengerMethods) (userId : String) (m : ChatMemory) :
    ∃ v, Mild ((openedRun has userId m).view m.nextRun) v ∧
      (beginStart has userId m).2 = (openedRun has userId m).put m.nextRun v := by
  let v := (openedRun has userId m).view m.nextRun
  refine ⟨if has.restoreMetadata then v.call .restoreMetadata else loadRemote v, ?_, rfl⟩
  split_ifs
  · exact mild_call _
  · exact mild_loadRemote v

/-- `start` opens a run with an empty cache. -/
theorem keeps_beginStart (hinv : HistoryInv has w) (userId : String) :
    (historyDiscipline has).Keeps t w (w.after t (beginStart has userId w.memory).2) := by
  obtain ⟨v, hmild, heq⟩ := beginStart_put has userId w.memory
  rw [heq]
  have hempty : Cached has ((openedRun has userId w.memory).view w.memory.nextRun) := by
    refine @cached_empty has _ rfl rfl rfl userId ?_ fun hset => ?_
    · simp [ChatMemory.view, openedRun]
    · simp [ChatMemory.view, openedRun, hset, lastHistoryChats]
  have hother : ∀ r, r ≠ w.memory.nextRun →
      ((openedRun has userId w.memory).put w.memory.nextRun v).runs r = w.memory.runs r ∧
        ((openedRun has userId w.memory).put w.memory.nextRun v).tasks r = w.memory.tasks r := by
    intro r hne
    simp [ChatMemory.put, openedRun, Function.update_of_ne hne]
  apply keeps_of_runs hinv
  case hopened =>
    refine ⟨Nat.succ_pos _, fun r hr => ?_⟩
    obtain rfl := Option.some.inj hr
    exact Nat.lt_succ_self _
  case hgrows =>
    refine ⟨Nat.le_succ _, fun r hlt hr => ?_⟩
    obtain rfl := Option.some.inj hr
    exact absurd hlt (lt_irrefl _)
  case hfresh => exact hmild.fresh.ge
  case hruns =>
    intro r hr
    change r < w.memory.nextRun ∨ w.memory.nextRun + 1 ≤ r at hr
    exact (hother r (by omega)).1
  case hcached =>
    intro r hr
    obtain rfl := Option.some.inj hr
    rw [view_put_self]
    exact (hmild.cached hempty).of_current _
  case htasks =>
    intro r load hr htask
    change r < w.memory.nextRun + 1 at hr
    by_cases hne : r = w.memory.nextRun
    · -- nothing has been spawned yet that loads a page
      subst hne
      have htask' : ChatTask.loadHistory load ∈ v.tasks := by
        have htasks : ((openedRun has userId w.memory).put w.memory.nextRun v).tasks
            w.memory.nextRun = v.tasks := Function.update_self _ _ _
        rw [← htasks]
        exact htask
      have hnone := hmild.loads load htask'
      simp [ChatMemory.view, openedRun] at hnone
    · rw [(hother r hne).2] at htask
      exact Or.inl ⟨by omega, htask⟩

theorem ends_start (hload : has.loadChatHistory = true) (userId : String) :
    (historyDiscipline has).Ends (watchedSystem has) t (Client.start has userId) w := by
  refine ends_segment fun w hinv => ?_
  have hkeeps := keeps_beginStart (t := t) hinv userId
  have hopen : Begun w.memory.nextRun (w.after t (beginStart has userId w.memory).2) :=
    Nat.lt_succ_self _
  refine ⟨hkeeps, ?_⟩
  change (historyDiscipline has).Ends (watchedSystem has) t
    (if has.restoreMetadata then do
        awaitLocalState has w.memory.nextRun
        doRun w.memory.nextRun (ChatView.ifCurrent loadRemote)
      else pure ()) _
  split_ifs
  · have hrest : Along has t w.memory.nextRun (Begun w.memory.nextRun)
        (do
          awaitLocalState has w.memory.nextRun
          doRun w.memory.nextRun (ChatView.ifCurrent loadRemote))
        fun _ => Begun w.memory.nextRun :=
      (along_awaitLocalState hload).bind fun _ =>
        Along.quiet (quiet_doRun tame_ifCurrent fun v => mild_ifCurrent (mild_loadRemote v))
    exact hrest.ends hkeeps.inv hopen
  · trivial

theorem ends_dispose :
    (historyDiscipline has).Ends (watchedSystem has) t
      (segment none fun m => ((), Client.dispose has m)) w := by
  refine ends_loneSegment fun w hinv => ?_
  apply keeps_of_runs hinv
  case hopened => exact ⟨hinv.opened.1, fun r hr => by cases hr⟩
  case hgrows => exact ⟨le_rfl, fun r _ hr => by cases hr⟩
  case hfresh => exact le_rfl
  case hruns => exact fun r _ => rfl
  case hcached => exact fun r hr => by cases hr
  case htasks => exact fun r load hr htask => Or.inl ⟨hr, htask⟩

theorem ends_setSearch (search : String) :
    (historyDiscipline has).Ends (watchedSystem has) t
      (segment none fun m => ((), { m with state := { m.state with search := search } })) w := by
  refine ends_loneSegment fun w hinv => ?_
  apply keeps_of_runs hinv
  case hopened => exact hinv.opened
  case hgrows => exact RunGrows.refl _
  case hfresh => exact le_rfl
  case hruns => exact fun r _ => rfl
  case hcached =>
    intro r hr
    have hmild : Mild (w.memory.view r) ((w.memory.view r).set fun state =>
        { state with search := search }) := mild_set (Or.inl rfl) rfl rfl
    exact hmild.cached (hinv.cached r hr)
  case htasks => exact fun r load hr htask => Or.inl ⟨hr, htask⟩

/-- Taking up a task of a run that has been opened. -/
theorem keeps_take (hinv : HistoryInv has w) {before after : List ChatTask} {task : ChatTask}
    (htasks : w.memory.tasks r = before ++ task :: after) :
    (historyDiscipline has).Keeps t w (w.after t { w.memory with
      tasks := Function.update w.memory.tasks r (before ++ after) }) := by
  have hsub : ∀ r' x, x ∈ Function.update w.memory.tasks r (before ++ after) r' →
      x ∈ w.memory.tasks r' := by
    intro r' x hx
    by_cases hne : r' = r
    · subst hne
      rw [Function.update_self] at hx
      rw [htasks]
      simp only [List.mem_append, List.mem_cons] at hx ⊢
      tauto
    · rwa [Function.update_of_ne hne] at hx
  apply keeps_of_runs hinv
  case hopened => exact hinv.opened
  case hgrows => exact RunGrows.refl _
  case hfresh => exact le_rfl
  case hruns => exact fun r _ => rfl
  case hcached =>
    intro r' hr'
    have hc := hinv.cached r' hr'
    exact ⟨hc.kept.of_fields rfl rfl rfl rfl rfl rfl rfl, hc.selected⟩
  case htasks => exact fun r' load hr' htask => Or.inl ⟨hr', hsub r' _ htask⟩

theorem ends_prog (hload : has.loadChatHistory = true) (op : ChatOp) {m : ChatMemory}
    (hinv : HistoryInv has w) (hst : (cacheSystem has).start t op m w.memory)
    (hload' : ∀ r load, op = .task r (.loadHistory load) → Made r load w) :
    (historyDiscipline has).Ends (watchedSystem has) t (op.prog has t) w := by
  cases op with
  | start userId => exact ends_start hload userId
  | dispose => exact ends_dispose
  | selectChat chat => exact ends_selectChat hload chat
  | setSearch search => exact ends_setSearch search
  | findPeople => exact ends_findPeople
  | openDirectChat userId => exact ends_openDirectChat hload userId
  | reportVisibleMessages chatId lastReadSeq => exact ends_reportVisibleMessages chatId lastReadSeq
  | loadPreviousMessages => exact ends_loadPreviousMessages
  | retryMessage clientMessageId => exact ends_retryMessage clientMessageId
  | sendText content => exact ends_sendText hload content
  | event r e =>
      obtain ⟨-, hlt, hsame⟩ := hst
      have hopen : Begun r w := by
        change r < w.memory.nextRun
        rw [hsame]
        exact hlt
      exact (Along.quiet (quiet_doRun (tame_handle e) fun v => mild_handle hload e)).ends hinv hopen
  | task r task =>
      obtain ⟨-, hlt, before, after, -, hsame⟩ := hst
      have hopen : Begun r w := by
        change r < w.memory.nextRun
        rw [hsame]
        exact hlt
      exact (along_task hload task).ends hinv ⟨hopen, fun load hl => hload' r load (hl ▸ rfl)⟩

/-- The watched chat store keeps the discipline. -/
theorem history_respected (hload : has.loadChatHistory = true) :
    (historyDiscipline has).Respected (watchedSystem has) where
  stop t s s' _ hst := by cases hst
  env s s' _ hst := by cases hst
  start t op w w' hinv _ hst := by
    obtain ⟨hstart, hmaker⟩ := hst
    -- no number is taken, and at most a task has been removed
    have hw' : ∀ m, w'.memory = m → m.runs = w.memory.runs → w' = w.after t m := by
      intro m hmemory hruns
      obtain ⟨memory, maker⟩ := w'
      subst hmemory
      simp only [Watched.after, Watched.mk.injEq, true_and]
      rw [hruns]
      funext r n
      exact (congrFun (congrFun hmaker r) n).trans
        (if_neg fun h => absurd (h.1.trans_le h.2) (lt_irrefl _)).symm
    have hkeeps : (historyDiscipline has).Keeps t w w' ∧
        ∀ r load, op = .task r (.loadHistory load) → Made r load w' := by
      cases op with
      | task r task =>
          obtain ⟨-, hlt, before, after, htasks, hsame⟩ := hstart
          rw [hw' _ hsame rfl]
          have hkeeps := keeps_take (t := t) hinv htasks
          refine ⟨hkeeps, fun r' load heq => ?_⟩
          cases heq
          have hmem : ChatTask.loadHistory load ∈ w.memory.tasks r := by
            rw [htasks]
            simp
          exact ⟨hlt, (hinv.tasks r load hlt hmem).grows hlt hkeeps.grow⟩
      | event r e =>
          obtain ⟨-, -, hsame⟩ := hstart
          rw [hw' _ hsame rfl, after_self]
          exact ⟨Keeps.refl hinv, fun r load h => by cases h⟩
      | _ =>
          have hsame : w'.memory = w.memory := hstart
          rw [hw' _ hsame rfl, after_self]
          exact ⟨Keeps.refl hinv, fun r load h => by cases h⟩
    exact ⟨hkeeps.1, ends_prog hload op hkeeps.1.inv hstart hkeeps.2⟩

end Methods

section Runs

variable {has : MessengerMethods} {p p' : Pool ChatCall ChatCall.Answer JsError ChatMemory}

/-- A fresh store, in which nobody has taken a number. -/
def Watched.Fresh (w : Watched) : Prop :=
  w.memory.Fresh ∧ w.maker = fun _ _ => none

theorem historyInv_fresh (w : Watched) (h : w.Fresh) :
    (historyDiscipline has).inv w ∧ ∀ t, (historyDiscipline has).idle t w := by
  obtain ⟨memory, maker⟩ := w
  obtain ⟨hmemory, hmaker⟩ := h
  obtain rfl : memory = {} := hmemory
  obtain rfl : maker = fun _ _ => none := hmaker
  refine ⟨?_, fun t => trivial⟩
  constructor
  case opened => exact ⟨Nat.one_pos, fun r hr => by cases hr⟩
  case cached => exact fun r hr => by cases hr
  case tasks => exact fun r load _ hl => by cases hl
  case makers => exact fun r n t h => by cases h

/-- Every reachable state has been watched. -/
theorem reachable_watched (hload : has.loadChatHistory = true)
    (hp : System.Reachable (cacheSystem has) ChatMemory.Fresh p) :
    ∃ q, System.Reachable (watchedSystem has) Watched.Fresh q ∧
      q.forget Watched.memory = p ∧ HistoryInv has q.shared := by
  have hinit : ∀ m : ChatMemory, m.Fresh → ∃ w : Watched, w.Fresh ∧ w.memory = m :=
    fun m hm => ⟨⟨m, fun _ _ => none⟩, ⟨hm, rfl⟩, rfl⟩
  obtain ⟨q, hq, hforget⟩ := (ghost_watched has).reachable hinit hp
  exact ⟨q, hq, hforget, (sound (history_respected hload) historyInv_fresh hq).inv⟩

/-- Between any two states of a run the store has grown. -/
theorem history_grows (hload : has.loadChatHistory = true)
    (hp : System.Reachable (cacheSystem has) ChatMemory.Fresh p)
    (hr : System.Reaches (cacheSystem has) p p') :
    ∃ w w', w.memory = p.shared ∧ w'.memory = p'.shared ∧ HistoryInv has w ∧
      HistoryGrows w w' := by
  obtain ⟨q, hq, hforget, hinv⟩ := reachable_watched hload hp
  obtain ⟨q', hreach, hforget'⟩ := (ghost_watched has).reaches hforget hr
  refine ⟨q.shared, q'.shared, ?_, ?_, hinv, ?_⟩
  · rw [← hforget]
    rfl
  · rw [← hforget']
    rfl
  · exact grows (history_respected hload) historyInv_fresh hq hreach

/-- A load that is not the current one of its chat shows nothing. -/
theorem finishHistory_stale {v : ChatView} {load : HistoryLoad} (h : load.isCurrent v = false)
    (answer : Except JsError (List DisplayMessage × Option ChatHistoryCursor)) :
    (finishHistory load answer v).state = v.state := by
  unfold finishHistory
  rw [h]
  rfl

/-- Main result.  With a messenger that loads histories, in every reachable
state of a run: the chats with messages have a history, those with a history are
among the chats opened last, which are at most three and are what
`setHistoryChats` was last told; the selected chat is the first of them; a chat
is loading exactly when it has a current request that is not finished.  And a
page that has been requested for a chat that is not among them now is never
shown, whatever happens until it arrives. -/
theorem history_cache_is_bounded (has : MessengerMethods) (hload : has.loadChatHistory = true)
    (p : Pool ChatCall ChatCall.Answer JsError ChatMemory)
    (hp : System.Reachable (cacheSystem has) ChatMemory.Fresh p) (r : Nat)
    (hr : p.shared.run = some r) :
    (∀ c, p.shared.state.messagesByChat.has c = true →
        p.shared.state.historyByChat.has c = true) ∧
      (∀ c, p.shared.state.historyByChat.has c = true → c ∈ (p.shared.runs r).recentChats) ∧
      (p.shared.runs r).recentChats.length ≤ 3 ∧
      (has.setHistoryChats = true →
        lastHistoryChats p.shared.effects = some (p.shared.runs r).recentChats) ∧
      (∀ chat, p.shared.state.selectedChat = some chat →
        (p.shared.runs r).recentChats.head? = some chat.id) ∧
      (∀ c, (∃ h, p.shared.state.historyByChat.get c = some h ∧ h.loading = true) ↔
        ∃ q, (p.shared.runs r).historyRequests.get c = some q ∧ q < p.shared.fresh ∧
          q ∉ (p.shared.runs r).finishedHistories) ∧
      ∀ load : HistoryLoad, load.request < p.shared.fresh →
        load.chatId ∉ (p.shared.runs r).recentChats →
        ∀ p', System.Reaches (cacheSystem has) p p' →
        ∀ answer, (finishHistory load answer (p'.shared.view r)).state = p'.shared.state := by
  obtain ⟨q, -, hforget, hinv⟩ := reachable_watched hload hp
  have hmemory : q.shared.memory = p.shared := congrArg Pool.shared hforget
  have hcached : Cached has (p.shared.view r) := hmemory ▸ hinv.cached r (hmemory.symm ▸ hr)
  have hk := hcached.kept
  refine ⟨hk.messages, hk.history, hk.bounded, hk.told, hcached.selected, fun c => ?_, ?_⟩
  · refine (hk.loading c).trans ?_
    rw [Dict.has_iff]
    constructor
    · rintro ⟨request, hrequest⟩
      exact ⟨request, hrequest, hk.pending c request hrequest⟩
    · rintro ⟨request, hrequest, -⟩
      exact ⟨request, hrequest⟩
  · intro load hmade hevicted p' hreach answer
    refine finishHistory_stale ?_ answer
    obtain ⟨w, w', hw, hw', hinv', hgrows⟩ := history_grows hload hp hreach
    by_contra hcurrent
    -- the request was that of the chat when the chat was not among those opened last
    have hrequest : (p'.shared.runs r).historyRequests.get load.chatId = some load.request := by
      have hboth := (Bool.and_eq_true _ _).mp (Bool.of_not_eq_false hcurrent)
      exact of_decide_eq_true hboth.2
    rw [← hw] at hmade hr
    rw [← hw'] at hrequest
    have hold := hgrows.requests r load.chatId load.request (hinv'.opened.2 r hr) hmade hrequest
    rw [hw] at hold
    exact hevicted (mem_recent_of_request hk hold)

/-- A chat with this id. -/
def chatOf (id : String) : DirectChat :=
  ⟨id, "2026-01-01T00:00:00Z", ⟨id, id, "active", "2026-01-01T00:00:00Z"⟩⟩

/-- Four chats have been opened, and the page of the first is still missing. -/
theorem reachable_evicted :
    ∃ p, System.Reachable (cacheSystem allMethods) ChatMemory.Fresh p ∧
      p.shared.run = some 1 ∧ (p.shared.runs 1).recentChats = ["d", "c", "b"] ∧
      p.shared.fresh = 4 := by
  have h : System.Reachable (cacheSystem allMethods) ChatMemory.Fresh (System.idle {}) := .idle rfl
  have h := h.starts 0 (.start "alice") rfl rfl
  have h := h.acts 0 rfl _ ⟨rfl, rfl⟩
  have h := h.starts 1 (.selectChat (chatOf "a")) rfl rfl
  have h := h.acts 1 rfl _ ⟨rfl, rfl⟩
  have h := h.starts 2 (.selectChat (chatOf "b")) rfl rfl
  have h := h.acts 2 rfl _ ⟨rfl, rfl⟩
  have h := h.starts 3 (.selectChat (chatOf "c")) rfl rfl
  have h := h.acts 3 rfl _ ⟨rfl, rfl⟩
  have h := h.starts 4 (.selectChat (chatOf "d")) rfl rfl
  have h := h.acts 4 rfl _ ⟨rfl, rfl⟩
  exact ⟨_, h, rfl, rfl, rfl⟩

/-- The page of the chat that has been evicted is not shown, also when the chat
is opened again. -/
theorem history_cache_is_bounded_evicted :
    ∃ p, System.Reachable (cacheSystem allMethods) ChatMemory.Fresh p ∧
      p.shared.run = some 1 ∧ (p.shared.runs 1).recentChats = ["d", "c", "b"] ∧
      lastHistoryChats p.shared.effects = some ["d", "c", "b"] ∧
      ∀ p', System.Reaches (cacheSystem allMethods) p p' → ∀ answer,
        (finishHistory ⟨"a", {}, none, 0⟩ answer (p'.shared.view 1)).state = p'.shared.state := by
  obtain ⟨p, hp, hrun, hrecent, hfresh⟩ := reachable_evicted
  obtain ⟨-, -, -, htold, -, -, hevicted⟩ := history_cache_is_bounded allMethods rfl p hp 1 hrun
  refine ⟨p, hp, hrun, hrecent, hrecent ▸ htold rfl, fun p' hreach answer => ?_⟩
  refine hevicted ⟨"a", {}, none, 0⟩ ?_ ?_ p' hreach answer
  · rw [hfresh]
    decide
  · rw [hrecent]
    decide

end Runs

end Client
end SecureMessenger
