import SecureMessenger.Client.HistoryCache
import SecureMessenger.Client.ChatRuns
import SecureMessenger.Lib.Triples
import SecureMessenger.Lib.Ghost

/-!
# The history cache over whole runs

Any number of calls, handlers and tasks interleave.  Each opening of a chat
takes a selection number, and only the function that took it retains a chat
under this number; so a function that still has its number finds its chat in
the first place.  Who took which number is ghost state: the system is watched,
and no step depends on it.
-/

namespace SecureMessenger
namespace Client

open Lib
open Lib.Discipline

/-- What the chat store is promised by the messenger and the gateway: pages have
messages of the chat asked for, `getChat` returns the chat asked for, and
`restoreMetadata` returns no messages. -/
def AnswersTo : (g : ChatPromise) → Except JsError g.Reply → Prop
  | .response (.loadChatHistory chatId _), answer =>
      ∀ messages next, answer = .ok (messages, next) → ∀ m ∈ messages, m.chatId = chatId
  | .response (.getChat chatId), answer =>
      ∀ chat : DirectChat, answer = .ok chat → chat.id = chatId
  | .response .restoreMetadata, answer =>
      ∀ (result : MailboxLoadResult) (chats : List DirectChat),
        answer = .ok (result, chats) → result.messages = []
  | _, _ => True

/-- The chat store with such a messenger and gateway. -/
def cacheSystem (has : MessengerMethods) :
    System ChatCall ChatCall.Answer JsError ChatMemory ChatOp :=
  { chatSystem has with
    exec := Segmented.exec fun g m answer m' => g.settles m answer m' ∧ AnswersTo g answer }

/-- A memory, and the thread that took each selection number of each run. -/
structure Watched where
  memory : ChatMemory
  maker : Nat → Nat → Option Tid

/-- Thread `t` took the numbers that are new. -/
def Watched.after (w : Watched) (t : Tid) (m : ChatMemory) : Watched :=
  ⟨m, fun r n =>
    if (w.memory.runs r).selection < n ∧ n ≤ (m.runs r).selection then some t else w.maker r n⟩

/-- The watched chat store. -/
def watchedSystem (has : MessengerMethods) :
    System ChatCall ChatCall.Answer JsError Watched ChatOp where
  exec t e w a w' := (cacheSystem has).exec t e w.memory a w'.memory ∧ w' = w.after t w'.memory
  prog := (cacheSystem has).prog
  start t op w w' := (cacheSystem has).start t op w.memory w'.memory ∧ w'.maker = w.maker
  stop _ _ _ := False
  env _ _ := False

theorem ghost_watched (has : MessengerMethods) :
    Ghost (cacheSystem has) (watchedSystem has) Watched.memory where
  prog := rfl
  exec {t e w r s'} hx := ⟨w.after t s', ⟨hx, rfl⟩, rfl⟩
  start {t op w s'} hst := ⟨⟨s', w.maker⟩, ⟨hst, rfl⟩, rfl⟩
  stop hst := by cases hst
  env hst := by cases hst

section Invariant

variable {has : MessengerMethods} {w w' : Watched} {m : ChatMemory} {r : Nat} {t : Tid}

/-- What holds of the watched store in every reachable state. -/
structure HistoryInv (has : MessengerMethods) (w : Watched) : Prop where
  opened : RunOk w.memory
  cached : ∀ r, w.memory.run = some r → Cached has (w.memory.view r)
  tasks : ∀ r load, r < w.memory.nextRun → ChatTask.loadHistory load ∈ w.memory.tasks r →
    LoadOk load (w.memory.view r)
  makers : ∀ r n t, w.maker r n = some t →
    r < w.memory.nextRun ∧ 0 < n ∧ n ≤ (w.memory.runs r).selection

/-- What no step undoes. -/
structure HistoryGrows (w w' : Watched) : Prop where
  fresh : w.memory.fresh ≤ w'.memory.fresh
  runs : RunGrows w.memory w'.memory
  selection : ∀ r, r < w.memory.nextRun →
    (w.memory.runs r).selection ≤ (w'.memory.runs r).selection
  requests : ∀ r c q, r < w.memory.nextRun → q < w.memory.fresh →
    (w'.memory.runs r).historyRequests.get c = some q →
      (w.memory.runs r).historyRequests.get c = some q
  makers : ∀ r n t, w.maker r n = some t → w'.maker r n = some t

/-- What other threads leave to the thread that took a number: as long as the
number is in place the chats opened last are the same. -/
def HistoryOwn (t : Tid) (w w' : Watched) : Prop :=
  ∀ r n, w.maker r n = some t → w'.maker r n = some t ∧
    ((w'.memory.runs r).selection = n → (w.memory.runs r).selection = n ∧
      (w'.memory.runs r).recentChats = (w.memory.runs r).recentChats)

theorem HistoryGrows.refl (w : Watched) : HistoryGrows w w :=
  ⟨le_rfl, RunGrows.refl _, fun _ _ => le_rfl, fun _ _ _ _ _ h => h, fun _ _ _ h => h⟩

theorem HistoryGrows.trans {w'' : Watched} (h : HistoryGrows w w') (h' : HistoryGrows w' w'') :
    HistoryGrows w w'' := by
  constructor
  case fresh => exact h.fresh.trans h'.fresh
  case runs => exact h.runs.trans h'.runs
  case selection =>
    exact fun r hr => (h.selection r hr).trans (h'.selection r (hr.trans_le h.runs.1))
  case requests =>
    intro r c q hr hq hget
    exact h.requests r c q hr hq
      (h'.requests r c q (hr.trans_le h.runs.1) (hq.trans_le h.fresh) hget)
  case makers => exact fun r n t ht => h'.makers r n t (h.makers r n t ht)

theorem HistoryOwn.trans {w'' : Watched} (h : HistoryOwn t w w') (h' : HistoryOwn t w' w'') :
    HistoryOwn t w w'' := by
  intro r n hn
  obtain ⟨hmaker, hsame⟩ := h r n hn
  obtain ⟨hmaker', hsame'⟩ := h' r n hmaker
  refine ⟨hmaker', fun hsel => ?_⟩
  obtain ⟨hsel', hrecent'⟩ := hsame' hsel
  obtain ⟨hsel, hrecent⟩ := hsame hsel'
  exact ⟨hsel, hrecent'.trans hrecent⟩

/-- The discipline of the history cache. -/
def historyDiscipline (has : MessengerMethods) : Discipline Watched where
  inv := HistoryInv has
  grow := HistoryGrows
  own := HistoryOwn
  grow_refl := HistoryGrows.refl
  grow_trans := HistoryGrows.trans
  own_refl _ _ _ _ h := ⟨h, fun hsel => ⟨hsel, rfl⟩⟩
  own_trans := HistoryOwn.trans

theorem after_self (w : Watched) (t : Tid) : w.after t w.memory = w := by
  unfold Watched.after
  obtain ⟨memory, maker⟩ := w
  simp only [Watched.mk.injEq, true_and]
  funext r n
  rw [if_neg fun h => absurd (h.1.trans_le h.2) (lt_irrefl _)]

theorem view_put_self {v : ChatView} :
    (m.put r v).view r = { v with current := decide (m.run = some r) } := by
  unfold ChatMemory.view ChatMemory.put
  simp only [Function.update_self]

theorem view_put_ne {v : ChatView} {r' : Nat} (h : r' ≠ r) :
    (m.put r v).view r' =
      { m.view r' with state := v.state, effects := v.effects, fresh := v.fresh } := by
  unfold ChatMemory.view ChatMemory.put
  simp only [Function.update_of_ne h]

theorem Cached.of_current {v : ChatView} (h : Cached has v) (b : Bool) :
    Cached has { v with current := b } :=
  ⟨⟨h.kept.messages, h.kept.history, h.kept.bounded, h.kept.loading, h.kept.pending,
    h.kept.finished, h.kept.told⟩, h.selected⟩

/-- What a segment of a run may do to what it sees.  `owned` says that the
selection number in place is that of the thread. -/
structure Moves (has : MessengerMethods) (owned : Prop) (v v' : ChatView) : Prop where
  cached : v.current = true → Cached has v → Cached has v'
  fresh : v.fresh ≤ v'.fresh
  selection : v.run.selection ≤ v'.run.selection
  requests : ∀ c q, q < v.fresh → v'.run.historyRequests.get c = some q →
    v.run.historyRequests.get c = some q
  loads : ∀ load, ChatTask.loadHistory load ∈ v'.tasks →
    ChatTask.loadHistory load ∈ v.tasks ∨ LoadOk load v'
  recent : v'.run.selection = v.run.selection →
    v'.run.recentChats = v.run.recentChats ∨ v.run.selection = 0 ∨ owned

theorem Mild.moves {owned : Prop} {v v' : ChatView} (h : Mild v v') : Moves has owned v v' where
  cached _ hc := h.cached hc
  fresh := h.fresh.ge
  selection := h.selection
  requests _ _ _ hq := h.requests ▸ hq
  loads load hl := Or.inl (h.loads load hl)
  recent _ := Or.inl h.recent

theorem LoadOk.grows {load : HistoryLoad} (h : LoadOk load (w.memory.view r))
    (hr : r < w.memory.nextRun) (hg : HistoryGrows w w') : LoadOk load (w'.memory.view r) :=
  ⟨h.made.trans_le hg.fresh, fun c hc => h.only c (hg.requests r c _ hr h.made hc)⟩

/-- A segment of run `r` keeps the discipline. -/
theorem keeps_put {v : ChatView} (hinv : HistoryInv has w) (hr : r < w.memory.nextRun)
    (hmoves : Moves has (w.maker r (w.memory.runs r).selection = some t) (w.memory.view r) v)
    (hstale : w.memory.run ≠ some r → ∃ run, v = { w.memory.view r with run := run }) :
    (historyDiscipline has).Keeps t w (w.after t (w.memory.put r v)) := by
  have hruns : ∀ r', r' ≠ r → (w.memory.put r v).runs r' = w.memory.runs r' :=
    fun r' hne => Function.update_of_ne hne _ _
  have hrun : (w.memory.put r v).runs r = v.run := Function.update_self _ _ _
  have hselection : ∀ r', (w.memory.runs r').selection ≤
      ((w.memory.put r v).runs r').selection := by
    intro r'
    by_cases hne : r' = r
    · subst hne
      rw [hrun]
      exact hmoves.selection
    · rw [hruns r' hne]
  have hmakers : ∀ r' n u, w.maker r' n = some u →
      (w.after t (w.memory.put r v)).maker r' n = some u := by
    intro r' n u hu
    have hn := (hinv.makers r' n u hu).2.2
    have hnot : ¬((w.memory.runs r').selection < n ∧
        n ≤ ((w.memory.put r v).runs r').selection) := fun h => by omega
    exact (if_neg hnot).trans hu
  have hgrow : HistoryGrows w (w.after t (w.memory.put r v)) := by
    constructor
    case fresh => exact hmoves.fresh
    case runs => exact ⟨le_rfl, fun _ _ h => h⟩
    case selection => exact fun r' _ => hselection r'
    case requests =>
      intro r' c q _ hq hget
      change ((w.memory.put r v).runs r').historyRequests.get c = some q at hget
      by_cases hne : r' = r
      · subst hne
        rw [hrun] at hget
        exact hmoves.requests c q hq hget
      · rw [hruns r' hne] at hget
        exact hget
    case makers => exact hmakers
  refine ⟨⟨hinv.opened, ?_, ?_, ?_⟩, hgrow, ?_⟩
  · -- the cache of the current run
    intro r' hr'
    change Cached has ((w.memory.put r v).view r')
    by_cases hne : r' = r
    · subst hne
      rw [view_put_self]
      have hcurrent : (w.memory.view r').current = true := decide_eq_true hr'
      exact (hmoves.cached hcurrent (hinv.cached r' hr')).of_current _
    · have hother : w.memory.run ≠ some r := fun h => hne (Option.some.inj (hr'.symm.trans h))
      obtain ⟨run, rfl⟩ := hstale hother
      rw [view_put_ne hne]
      exact hinv.cached r' hr'
  · intro r' load hr' hload
    by_cases hne : r' = r
    · subst hne
      have hload' : ChatTask.loadHistory load ∈ v.tasks := by
        have htasks : (w.memory.put r' v).tasks r' = v.tasks := Function.update_self _ _ _
        rw [← htasks]
        exact hload
      rcases hmoves.loads load hload' with hold | hnew
      · exact (hinv.tasks r' load hr' hold).grows hr' hgrow
      · change LoadOk load ((w.memory.put r' v).view r')
        rw [view_put_self]
        exact ⟨hnew.made, hnew.only⟩
    · have hload' : ChatTask.loadHistory load ∈ w.memory.tasks r' := by
        have htasks : (w.memory.put r v).tasks r' = w.memory.tasks r' :=
          Function.update_of_ne hne _ _
        rw [← htasks]
        exact hload
      exact (hinv.tasks r' load hr' hload').grows hr' hgrow
  · intro r' n u hu
    change (if (w.memory.runs r').selection < n ∧ n ≤ ((w.memory.put r v).runs r').selection
      then some t else w.maker r' n) = some u at hu
    split_ifs at hu with hnew
    · have hr' : r' = r := by
        by_contra hne
        rw [hruns r' hne] at hnew
        omega
      exact ⟨hr' ▸ hr, by omega, hnew.2⟩
    · obtain ⟨hlt, hpos, hle⟩ := hinv.makers r' n u hu
      exact ⟨hlt, hpos, hle.trans (hselection r')⟩
  · intro u hut r' n hu
    refine ⟨hmakers r' n u hu, fun hsel => ?_⟩
    change ((w.memory.put r v).runs r').selection = n at hsel
    change (w.memory.runs r').selection = n ∧
      ((w.memory.put r v).runs r').recentChats = (w.memory.runs r').recentChats
    obtain ⟨-, hpos, hle⟩ := hinv.makers r' n u hu
    by_cases hne : r' = r
    · subst hne
      rw [hrun] at hsel ⊢
      have hold : (w.memory.runs r').selection = n := by
        have := hmoves.selection
        change (w.memory.runs r').selection ≤ v.run.selection at this
        omega
      refine ⟨hold, ?_⟩
      rcases hmoves.recent (hsel.trans hold.symm) with hsame | hzero | howned
      · exact hsame
      · change (w.memory.runs r').selection = 0 at hzero
        omega
      · rw [hold, hu] at howned
        exact absurd (Option.some.inj howned) hut
    · rw [hruns r' hne] at hsel ⊢
      exact ⟨hsel, rfl⟩

/-- A step that opens a run or closes the current one, or changes no run
object. -/
theorem keeps_of_runs (hinv : HistoryInv has w) (hopened : RunOk m)
    (hgrows : RunGrows w.memory m) (hfresh : w.memory.fresh ≤ m.fresh)
    (hruns : ∀ r, r < w.memory.nextRun ∨ m.nextRun ≤ r → m.runs r = w.memory.runs r)
    (hcached : ∀ r, m.run = some r → Cached has (m.view r))
    (htasks : ∀ r load, r < m.nextRun → ChatTask.loadHistory load ∈ m.tasks r →
      (r < w.memory.nextRun ∧ ChatTask.loadHistory load ∈ w.memory.tasks r) ∨
        LoadOk load (m.view r)) :
    (historyDiscipline has).Keeps t w (w.after t m) := by
  have hmakers : ∀ r' n u, w.maker r' n = some u → (w.after t m).maker r' n = some u := by
    intro r' n u hu
    obtain ⟨hlt, -, hn⟩ := hinv.makers r' n u hu
    have hsame := hruns r' (Or.inl hlt)
    have hnot : ¬((w.memory.runs r').selection < n ∧ n ≤ (m.runs r').selection) :=
      fun h => by omega
    exact (if_neg hnot).trans hu
  have hgrow : HistoryGrows w (w.after t m) := by
    constructor
    case fresh => exact hfresh
    case runs => exact hgrows
    case selection =>
      intro r' hr'
      exact (congrArg ChatRun.selection (hruns r' (Or.inl hr'))).ge
    case requests =>
      intro r' c q hr' _ hget
      have hsame := hruns r' (Or.inl hr')
      change (m.runs r').historyRequests.get c = some q at hget
      rw [hsame] at hget
      exact hget
    case makers => exact hmakers
  refine ⟨⟨hopened, hcached, ?_, ?_⟩, hgrow, ?_⟩
  · intro r' load hr' hload
    rcases htasks r' load hr' hload with ⟨hlt, hold⟩ | hnew
    · exact (hinv.tasks r' load hlt hold).grows hlt hgrow
    · exact hnew
  · intro r' n u hu
    change (if (w.memory.runs r').selection < n ∧ n ≤ (m.runs r').selection
      then some t else w.maker r' n) = some u at hu
    split_ifs at hu with hnew
    · have hr' : r' < m.nextRun := by
        by_contra hge
        have hsame := hruns r' (Or.inr (Nat.le_of_not_lt hge))
        rw [hsame] at hnew
        omega
      exact ⟨hr', by omega, hnew.2⟩
    · obtain ⟨hlt, hpos, hle⟩ := hinv.makers r' n u hu
      refine ⟨hlt.trans_le hgrows.1, hpos, ?_⟩
      change n ≤ (m.runs r').selection
      rw [hruns r' (Or.inl hlt)]
      exact hle
  · intro u _ r' n hu
    obtain ⟨hlt, -, -⟩ := hinv.makers r' n u hu
    refine ⟨hmakers r' n u hu, fun hsel => ?_⟩
    change (m.runs r').selection = n at hsel
    change (w.memory.runs r').selection = n ∧
      (m.runs r').recentChats = (w.memory.runs r').recentChats
    rw [hruns r' (Or.inl hlt)] at hsel ⊢
    exact ⟨hsel, rfl⟩

end Invariant

section Sparing

variable {has : MessengerMethods} {r : Nat}

/-- The call is a segment of run `r` that leaves the cache alone, or awaits. -/
def Sparing (r : Nat) : ChatCall → Prop
  | .segment (α := α) _ f =>
      ∃ g : ChatView → α × ChatView, f = ChatMemory.onRun r g ∧ Harmless g ∧
        ∀ v, Mild v (g v).2
  | .settle _ => True

theorem quiet_onRun {α : Type} {f : ChatView → α × ChatView} (hf : Harmless f)
    (hm : ∀ v, Mild v (f v).2) : Prog.Calls (Sparing r) (onRun r f) :=
  calls_segment ⟨f, rfl, hf, hm⟩

theorem quiet_doRun {f : ChatView → ChatView} (hf : Tame f) (hm : ∀ v, Mild v (f v)) :
    Prog.Calls (Sparing r) (doRun r f) :=
  quiet_onRun (fun v hv => hf v hv) hm

theorem quiet_response (g : ChatRequest) : Prog.Calls (Sparing r) (response g) :=
  calls_awaits trivial

theorem quiet_awaitDiscovered (chatId : String) :
    Prog.Calls (Sparing r) (awaitDiscovered has r chatId) := by
  refine (quiet_response _).attempt.bind fun answer => ?_
  cases answer with
  | ok chat =>
      refine quiet_doRun tame_ifCurrent fun v => mild_ifCurrent ?_
      dsimp only
      split_ifs
      · exact ((mild_set (Or.inl rfl) rfl rfl).trans (mild_call _)).trans
          (mild_spawn fun load h => by cases h)
      · exact mild_set (Or.inl rfl) rfl rfl
  | error x =>
      refine quiet_doRun (Tame.comp tame_ifCurrent tame_modify) fun v => ?_
      refine Mild.trans (mild_modify ?_ ?_ ?_ ?_) (mild_ifCurrent (mild_set ?_ ?_ ?_))
      · exact le_rfl
      · rfl
      · rfl
      · rfl
      · exact Or.inl rfl
      · rfl
      · rfl

theorem quiet_awaitCached (chat : DirectChat) : Prog.Calls (Sparing r) (awaitCached r chat) := by
  refine (quiet_response _).attempt.bind fun answer => ?_
  cases answer with
  | ok _ => trivial
  | error x =>
      exact quiet_doRun tame_ifCurrent fun v => mild_ifCurrent (mild_set (Or.inl rfl) rfl rfl)

theorem quiet_awaitMailbox (hload : has.loadChatHistory = true) :
    Prog.Calls (Sparing r) (awaitMailbox has r) := by
  refine (quiet_response _).attempt.bind fun answer => ?_
  cases answer with
  | ok result =>
      refine quiet_doRun
        (Tame.comp tame_finishMailbox (Tame.comp tame_ifCurrent (tame_receive _ _))) fun v => ?_
      refine Mild.trans ?_ mild_finishMailbox
      refine Mild.trans (mild_receive hload _ _) (mild_ifCurrent ?_)
      exact mild_set (Or.inl rfl) rfl rfl
  | error x =>
      refine quiet_doRun (Tame.comp tame_finishMailbox tame_ifCurrent) fun v => ?_
      refine Mild.trans (mild_ifCurrent ?_) mild_finishMailbox
      exact mild_set (Or.inl rfl) rfl rfl

theorem quiet_deselectChat (s : Selecting) (error : JsError) :
    Prog.Calls (Sparing r) (deselectChat r s error) := by
  refine (quiet_onRun harmless_isSelection fun v => ?_).bind fun go => ?_
  · split_ifs
    · exact (mild_set (Or.inr rfl) rfl rfl).trans (mild_call _)
    · exact Mild.refl v
  · cases go with
    | false => trivial
    | true =>
        refine (quiet_response _).attempt.bind fun answer => ?_
        cases answer with
        | ok _ => trivial
        | error x =>
            exact quiet_doRun tame_isSelection fun v =>
              mild_ite (mild_set (Or.inl rfl) rfl rfl)

theorem quiet_finishSelect (s : Selecting) : Prog.Calls (Sparing r) (finishSelect r s) := by
  have hlast : Prog.Calls (Sparing r) (doRun r fun v =>
      if isSelection s.selection v then v.set fun state => { state with loadingChatId := none }
      else v) :=
    quiet_doRun tame_isSelection fun v => mild_ite (mild_set (Or.inl rfl) rfl rfl)
  unfold finishSelect
  cases s.historyLoad with
  | none => exact hlast
  | some request => exact Prog.Calls.bind (calls_awaits trivial) fun _ => hlast

theorem quiet_rememberChat (selection : Nat) (chatId : String) :
    Prog.Calls (Sparing r) (rememberChat r selection chatId) := by
  refine (quiet_onRun harmless_isSelection fun v => ?_).bind fun userId => ?_
  · split_ifs
    · exact mild_call _
    · exact Mild.refl v
  · cases userId with
    | none => trivial
    | some userId => exact quiet_response _

theorem quiet_awaitReadCursor (chatId : String) (lastReadSeq : ℤ) :
    Prog.Calls (Sparing r) (awaitReadCursor r chatId lastReadSeq) := by
  refine (quiet_response _).attempt.bind fun answer => ?_
  cases answer with
  | ok _ => trivial
  | error x =>
      exact quiet_doRun tame_ifCurrent fun v => mild_ifCurrent (mild_set (Or.inl rfl) rfl rfl)

end Sparing

section Threads

variable {has : MessengerMethods} {t : Tid} {r : Nat}

/-- The run has been opened. -/
def Begun (r : Nat) (w : Watched) : Prop :=
  r < w.memory.nextRun

/-- A thread that knows `K` may run the program, and knows `Q` at the end. -/
abbrev Along (has : MessengerMethods) (t : Tid) (r : Nat) {α : Type} (K : Watched → Prop)
    (p : ChatProg α) (Q : α → Watched → Prop) : Prop :=
  Triple (historyDiscipline has) (watchedSystem has).exec t K p Q fun _ => Begun r

theorem persists_opened : Persists (historyDiscipline has) t (Begun r) :=
  fun _ _ h hd => h.trans_le hd.grow.runs.1

namespace Along

variable {α : Type} {K : Watched → Prop} {p : ChatProg α} {Q : α → Watched → Prop}

theorem attempt (hp : Along has t r K p Q) :
    Along has t r K (Prog.attempt p) fun answer w =>
      match answer with
      | .ok a => Q a w
      | .error _ => Begun r w :=
  Triple.attempt hp (fun _ _ h => h) fun _ _ h => h

/-- Awaiting an answer. -/
theorem response (hK : Persists (historyDiscipline has) t K)
    (hopen : ∀ w, K w → Begun r w) (g : ChatRequest) :
    Along has t r K (Client.response g) fun a w =>
      K w ∧ AnswersTo (.response g) (.ok a) := by
  rintro w - hk w₁ hd answer w₂ ⟨⟨hsettle, hanswer⟩, hw₂⟩
  have hmemory : w₂.memory = w₁.memory := hsettle
  rw [hmemory, after_self] at hw₂
  subst hw₂
  have hk₁ := hK w w₂ hk hd
  refine ⟨Keeps.refl hd.inv, ?_⟩
  cases answer with
  | ok a => exact ⟨hd.inv, hk₁, hanswer⟩
  | error x => exact ⟨hd.inv, hopen _ hk₁⟩

/-- A segment of the run. -/
theorem onRun {f : ChatView → α × ChatView} (hK : Persists (historyDiscipline has) t K)
    (hopen : ∀ w, K w → Begun r w) (hf : Harmless f)
    (hm : ∀ w, HistoryInv has w → K w →
      Moves has (w.maker r (w.memory.runs r).selection = some t) (w.memory.view r)
        (f (w.memory.view r)).2)
    (hQ : ∀ w, HistoryInv has w → K w →
      Q (f (w.memory.view r)).1 (w.after t (w.memory.put r (f (w.memory.view r)).2))) :
    Along has t r K (Client.onRun r f) Q := by
  rintro w - hk w₁ hd a w₂ ⟨⟨rfl, hmemory⟩, hw₂⟩
  have hk₁ := hK w w₁ hk hd
  have hmemory' : w₂.memory = w₁.memory.put r (f (w₁.memory.view r)).2 := hmemory
  rw [hmemory'] at hw₂
  subst hw₂
  have hstale : w₁.memory.run ≠ some r →
      ∃ run, (f (w₁.memory.view r)).2 = { w₁.memory.view r with run := run } :=
    fun hne => hf _ (decide_eq_false hne)
  have hkeeps := keeps_put hd.inv (hopen _ hk₁) (hm w₁ hd.inv hk₁) hstale
  exact ⟨hkeeps, hkeeps.inv, hQ w₁ hd.inv hk₁⟩

theorem doRun {f : ChatView → ChatView} (hK : Persists (historyDiscipline has) t K)
    (hopen : ∀ w, K w → Begun r w) (hf : Tame f)
    (hm : ∀ w, HistoryInv has w → K w →
      Moves has (w.maker r (w.memory.runs r).selection = some t) (w.memory.view r)
        (f (w.memory.view r))) :
    Along has t r K (Client.doRun r f) fun _ => Begun r :=
  onRun hK hopen (fun v hv => hf v hv) hm fun w _ hk => hopen w hk

/-- A program that leaves the cache alone. -/
theorem quiet (hp : Prog.Calls (Sparing r) p) :
    Along has t r (Begun r) p fun _ => Begun r := by
  intro w hinv hk
  have hK : ∀ w w', Begun r w → (historyDiscipline has).Drift t w w' → Begun r w' :=
    persists_opened
  have hcall : ∀ (e : ChatCall) w (a : e.Answer) w', Sparing r e → HistoryInv has w →
      Begun r w → (watchedSystem has).exec t e w a w' →
        (historyDiscipline has).Keeps t w w' ∧ Begun r w' := by
    intro e w a w' he hinv hk hx
    cases e with
    | segment activity f =>
        obtain ⟨g, rfl, hg, hmild⟩ := he
        obtain ⟨⟨rfl, hmemory⟩, hw'⟩ := hx
        have hmemory' : w'.memory = w.memory.put r (g (w.memory.view r)).2 := hmemory
        rw [hmemory'] at hw'
        subst hw'
        have hkeeps : (historyDiscipline has).Keeps t w
            (w.after t (w.memory.put r (g (w.memory.view r)).2)) :=
          keeps_put hinv hk (hmild _).moves fun hne => hg _ (decide_eq_false hne)
        exact ⟨hkeeps, hk.trans_le hkeeps.grow.runs.1⟩
    | settle g =>
        obtain ⟨⟨hsettle, -⟩, hw'⟩ := hx
        have hmemory : w'.memory = w.memory := by
          cases g with
          | response g => exact hsettle
          | finished r' request => exact hsettle.2.2
        rw [hmemory, after_self] at hw'
        subst hw'
        exact ⟨Keeps.refl hinv, hk⟩
  exact (Safe.of_calls hK hcall hp hk hinv).mono (fun _ _ h => ⟨h.2, h.1⟩)
    fun _ _ h => ⟨h.2, h.1⟩

end Along

/-- The thread has the load of run `r`. -/
def Made (r : Nat) (load : HistoryLoad) (w : Watched) : Prop :=
  Begun r w ∧ LoadOk load (w.memory.view r)

/-- The thread took the number. -/
def Took (t : Tid) (r n : Nat) (w : Watched) : Prop :=
  Begun r w ∧ w.maker r n = some t

/-- The thread took the number and opened the chat under it. -/
def Chose (t : Tid) (r n : Nat) (chatId : String) (w : Watched) : Prop :=
  Took t r n w ∧
    ((w.memory.runs r).selection = n → (w.memory.runs r).recentChats.head? = some chatId)

theorem persists_made {load : HistoryLoad} : Persists (historyDiscipline has) t (Made r load) :=
  fun w w' h hd => ⟨persists_opened w w' h.1 hd, h.2.grows h.1 hd.grow⟩

theorem persists_took {n : Nat} : Persists (historyDiscipline has) t (Took t r n) :=
  fun w w' h hd => ⟨persists_opened w w' h.1 hd, hd.grow.makers _ _ _ h.2⟩

theorem persists_chose {n : Nat} {chatId : String} :
    Persists (historyDiscipline has) t (Chose t r n chatId) := by
  intro w w' h hd
  refine ⟨persists_took w w' h.1 hd, fun hsel => ?_⟩
  obtain ⟨-, hsame⟩ := hd.own r n h.1.2
  obtain ⟨hsel', hrecent⟩ := hsame hsel
  rw [hrecent]
  exact h.2 hsel'

variable {w : Watched}

theorem made_after {load : HistoryLoad} {v : ChatView} (h : Begun r w) (hl : LoadOk load v) :
    Made r load (w.after t (w.memory.put r v)) := by
  refine ⟨h, ?_⟩
  change LoadOk load ((w.memory.put r v).view r)
  rw [view_put_self]
  exact ⟨hl.made, hl.only⟩

/-- A new number belongs to the thread that took it. -/
theorem took_after {v : ChatView} (h : Begun r w)
    (hnew : v.run.selection = (w.memory.runs r).selection + 1) :
    Took t r v.run.selection (w.after t (w.memory.put r v)) := by
  refine ⟨h, ?_⟩
  have hrun : (w.memory.put r v).runs r = v.run := Function.update_self _ _ _
  refine if_pos ⟨by omega, ?_⟩
  rw [hrun]

theorem chose_after {v : ChatView} {chatId : String} (h : Begun r w)
    (hnew : v.run.selection = (w.memory.runs r).selection + 1)
    (hhead : v.run.recentChats.head? = some chatId) :
    Chose t r v.run.selection chatId (w.after t (w.memory.put r v)) := by
  refine ⟨took_after h hnew, fun _ => ?_⟩
  have hrun : (w.memory.put r v).runs r = v.run := Function.update_self _ _ _
  change ((w.memory.put r v).runs r).recentChats.head? = some chatId
  rw [hrun]
  exact hhead

/-- Leaving the cache alone leaves the chat of a number in its place. -/
theorem Chose.mild {n : Nat} {chatId : String} (hinv : HistoryInv has w)
    (h : Chose t r n chatId w) {v : ChatView} (hm : Mild (w.memory.view r) v) :
    Chose t r n chatId (w.after t (w.memory.put r v)) := by
  obtain ⟨⟨hopen, hmaker⟩, hhead⟩ := h
  obtain ⟨-, hpos, hle⟩ := hinv.makers r n t hmaker
  have hrun : (w.memory.put r v).runs r = v.run := Function.update_self _ _ _
  have hsel : (w.memory.runs r).selection ≤ v.run.selection := hm.selection
  refine ⟨⟨hopen, ?_⟩, fun hn => ?_⟩
  · exact (if_neg fun hnew => by omega).trans hmaker
  · change ((w.memory.put r v).runs r).selection = n at hn
    change ((w.memory.put r v).runs r).recentChats.head? = some chatId
    rw [hrun] at hn ⊢
    have hrecent : v.run.recentChats = (w.memory.runs r).recentChats := hm.recent
    rw [hrecent]
    exact hhead (by omega)

end Threads

section Functions

variable {has : MessengerMethods} {t : Tid} {r : Nat}

/-- Awaiting an answer and its failure. -/
theorem along_attempt_response {K : Watched → Prop}
    (hK : Persists (historyDiscipline has) t K) (g : ChatRequest) :
    Along has t r K (Prog.attempt (response g)) fun answer w =>
      K w ∧ AnswersTo (.response g) answer := by
  rintro w - hk w₁ hd answer w₂ ⟨⟨hsettle, hanswer⟩, hw₂⟩
  have hmemory : w₂.memory = w₁.memory := hsettle
  rw [hmemory, after_self] at hw₂
  subst hw₂
  have hk₁ := hK w w₂ hk hd
  refine ⟨Keeps.refl hd.inv, ?_⟩
  cases answer with
  | ok a => exact ⟨hd.inv, hk₁, hanswer⟩
  | error x => exact ⟨hd.inv, hk₁, hanswer⟩

theorem moves_finishHistory {owned : Prop} {load : HistoryLoad} {v : ChatView}
    {answer : Except JsError (List DisplayMessage × Option ChatHistoryCursor)}
    (hl : LoadOk load v) (hanswer : AnswersTo (.response (.loadChatHistory load.chatId load.before))
      answer) : Moves has owned v (finishHistory load answer v) := by
  obtain ⟨hfresh, hrecent, hselection, htasks, hrequests⟩ :=
    @finishHistory_fields v load answer
  constructor
  case cached => exact fun hcurrent hc => hc.finish hcurrent hl hanswer
  case fresh => exact hfresh.ge
  case selection => exact hselection.ge
  case requests => exact fun c q _ hq => hrequests c q hq
  case loads => exact fun load hload => Or.inl (htasks ▸ hload)
  case recent => exact fun _ => Or.inl hrecent

theorem along_awaitHistory (load : HistoryLoad) :
    Along has t r (Made r load) (awaitHistory r load) fun _ => Begun r := by
  refine (along_attempt_response persists_made _).bind fun answer => ?_
  refine Along.doRun (K := fun w => Made r load w ∧
    AnswersTo (.response (.loadChatHistory load.chatId load.before)) answer) ?_
    (fun w h => h.1.1) (tame_finishHistory load answer)
    fun w _ h => moves_finishHistory h.1.2 h.2
  exact fun w w' h hd => ⟨persists_made w w' h.1 hd, h.2⟩

/-- Showing the chat that was opened under the number in place. -/
theorem along_selectFreshChat (s : Selecting) :
    Along has t r (Chose t r s.selection s.chatId) (selectFreshChat r s) fun _ => Begun r := by
  have hopen : ∀ w, Chose t r s.selection s.chatId w → Begun r w := fun w h => h.1.1
  refine (Along.response persists_chose hopen _).bind fun _ => ?_
  refine Triple.mono (K := Chose t r s.selection s.chatId) ?_ fun w h => h.1
  refine Triple.bind (Q := fun _ => Chose t r s.selection s.chatId) ?_ fun go => ?_
  · have hmild : ∀ v : ChatView, Mild v (if isSelection s.selection v then
        (true, v.call (.getChat s.chatId)) else (false, v)).2 := by
      intro v
      split_ifs
      · exact mild_call _
      · exact Mild.refl v
    exact Along.onRun persists_chose hopen harmless_isSelection (fun w _ _ => (hmild _).moves)
      fun w hinv h => h.mild hinv (hmild _)
  · cases go with
    | false => exact Triple.pure hopen
    | true =>
        refine (Along.response persists_chose hopen _).bind fun freshChat => ?_
        refine Along.doRun (K := fun w => Chose t r s.selection s.chatId w ∧
          AnswersTo (.response (.getChat s.chatId)) (.ok freshChat)) ?_ (fun w h => hopen w h.1)
          tame_isSelection fun w _ h => ?_
        · exact fun w w' h hd => ⟨persists_chose w w' h.1 hd, h.2⟩
        · have hid : freshChat.id = s.chatId := h.2 freshChat rfl
          split_ifs with hsel
          · have hnumber : (w.memory.runs r).selection = s.selection := by
              unfold isSelection at hsel
              rw [Bool.and_eq_true, decide_eq_true_eq] at hsel
              exact hsel.2.symm
            constructor
            case cached =>
              intro _ hc
              refine ⟨hc.kept.of_fields rfl rfl rfl rfl rfl rfl rfl, fun chat hchat => ?_⟩
              obtain rfl : freshChat = chat := Option.some.inj hchat
              rw [hid]
              exact h.1.2 hnumber
            case fresh => exact le_rfl
            case selection => exact le_rfl
            case requests => exact fun _ _ _ hq => hq
            case loads => exact fun _ hl => Or.inl hl
            case recent => exact fun _ => Or.inl rfl
          · exact (Mild.refl _).moves

theorem along_awaitSelect (s : Selecting) :
    Along has t r (Chose t r s.selection s.chatId) (awaitSelect r s) fun _ => Begun r := by
  refine (along_selectFreshChat s).attempt.bind fun answer => ?_
  cases answer with
  | ok _ => exact Along.quiet (quiet_finishSelect s)
  | error x =>
      exact (Along.quiet (quiet_deselectChat s x)).bind fun _ =>
        Along.quiet (quiet_finishSelect s)

theorem moves_beginSelect {owned : Prop} (hload : has.loadChatHistory = true) {v : ChatView}
    (hk : Kept has v) (chat : DirectChat) : Moves has owned v (beginSelect has chat v).2 := by
  obtain ⟨hcached, -, hfresh, hselection, -, -, hloads, hrequests⟩ :=
    beginSelect_opens hload hk chat
  constructor
  case cached => exact fun _ _ => hcached
  case fresh => exact hfresh
  case selection => omega
  case requests => exact hrequests
  case loads => exact hloads
  case recent => exact fun h => by omega

/-- After `selectChat` has opened a chat, the thread has its number. -/
theorem chose_beginSelect (hload : has.loadChatHistory = true) {w : Watched}
    (hk : Kept has (w.memory.view r)) (hopen : Begun r w) (chat : DirectChat) :
    Chose t r (beginSelect has chat (w.memory.view r)).1.selection
      (beginSelect has chat (w.memory.view r)).1.chatId
      (w.after t (w.memory.put r (beginSelect has chat (w.memory.view r)).2)) := by
  obtain ⟨-, hhead, -, hselection, hnumber, hchat, -, -⟩ := beginSelect_opens hload hk chat
  rw [hnumber, hchat, ← hselection]
  exact chose_after hopen hselection hhead

theorem along_restoreLastChat (hload : has.loadChatHistory = true) (selection : Nat)
    (chats : List DirectChat) :
    Along has t r (Begun r) (restoreLastChat has r selection chats) fun _ => Begun r := by
  refine Triple.bind (Q := fun _ => Begun r) (Along.quiet (quiet_onRun harmless_isSelection
    fun v => ?_)) fun userId => ?_
  · split_ifs
    · exact mild_call _
    · exact Mild.refl v
  · cases userId with
    | none => exact Triple.pure fun _ h => h
    | some userId =>
        refine Triple.bind (Q := fun _ => Begun r) (Along.quiet (quiet_response _))
          fun lastChat => ?_
        cases lastChat with
        | none => exact Triple.pure fun _ h => h
        | some chat =>
            refine Triple.bind (Q := fun s w => Begun r w ∧
              ∀ s', s = some s' → Chose t r s'.selection s'.chatId w) ?_ fun s => ?_
            · refine Along.onRun persists_opened (fun _ h => h) harmless_isSelection ?_ ?_
              · intro w hinv _
                split_ifs with hsel
                · have hcurrent : w.memory.run = some r := by
                    unfold isSelection at hsel
                    rw [Bool.and_eq_true] at hsel
                    exact of_decide_eq_true hsel.1
                  exact moves_beginSelect hload (hinv.cached r hcurrent).kept chat
                · exact (Mild.refl _).moves
              · intro w hinv hopen
                split_ifs with hsel
                · have hcurrent : w.memory.run = some r := by
                    unfold isSelection at hsel
                    rw [Bool.and_eq_true] at hsel
                    exact of_decide_eq_true hsel.1
                  refine ⟨hopen, fun s' hs' => ?_⟩
                  obtain rfl := Option.some.inj hs'
                  exact chose_beginSelect hload (hinv.cached r hcurrent).kept hopen chat
                · exact ⟨hopen, fun s' hs' => by cases hs'⟩
            · cases s with
              | none => exact Triple.pure fun _ h => h.1
              | some s => exact (along_awaitSelect s).mono fun w h => h.2 s rfl

theorem along_loadChatList (hload : has.loadChatHistory = true) (selection : Nat) :
    Along has t r (Begun r) (loadChatList has r selection) fun _ => Begun r := by
  refine Triple.bind (Q := fun _ => Begun r) (Along.quiet (quiet_response _)) fun chats => ?_
  refine Triple.bind (Q := fun _ => Begun r) (Along.quiet (quiet_onRun harmless_current
    fun v => ?_)) fun go => ?_
  · dsimp only
    split_ifs
    · refine Mild.trans ?_ (mild_call _)
      exact mild_set (Or.inl rfl) rfl rfl
    · dsimp only
      exact mild_set (Or.inl rfl) rfl rfl
    · exact Mild.refl v
  · cases go with
    | false => exact Triple.pure fun _ h => h
    | true =>
        cases has.cacheChats with
        | false => exact along_restoreLastChat hload selection chats
        | true =>
            refine Triple.bind (Q := fun _ => Begun r) (Along.quiet (quiet_response _)) fun _ => ?_
            exact along_restoreLastChat hload selection chats

theorem along_awaitChats (hload : has.loadChatHistory = true) (selection : Nat) :
    Along has t r (Begun r) (awaitChats has r selection) fun _ => Begun r := by
  have hlast : Prog.Calls (Sparing r) (doRun r (ChatView.ifCurrent (ChatView.set fun state =>
      { state with loadingChats := false }))) :=
    quiet_doRun tame_ifCurrent fun v => mild_ifCurrent (mild_set (Or.inl rfl) rfl rfl)
  refine (along_loadChatList hload selection).attempt.bind fun answer => ?_
  cases answer with
  | ok _ => exact Along.quiet hlast
  | error x =>
      refine Along.quiet (Prog.Calls.bind (quiet_doRun tame_isSelection fun v => ?_)
        fun _ => hlast)
      exact mild_ite (mild_set (Or.inl rfl) rfl rfl)

/-- `restoreLocalState` opens the chat that was selected last, as long as no
number has been taken. -/
theorem along_restoreSelection (hload : has.loadChatHistory = true)
    (selectedChat : Option DirectChat) :
    Along has t r (Begun r) (restoreSelection has r selectedChat) fun _ => Begun r := by
  -- what the segment does to the view of the current run
  have hopens : ∀ (v : ChatView) (chat : DirectChat), Kept has v → v.run.selection = 0 →
      Moves has False v (beginHistory has chat.id false (retainHistory has chat.id
        (v.set fun state => { state with selectedChat := some chat }))).2 ∧
      ∀ load, (beginHistory has chat.id false (retainHistory has chat.id
        (v.set fun state => { state with selectedChat := some chat }))).1 = some load →
        LoadOk load (beginHistory has chat.id false (retainHistory has chat.id
          (v.set fun state => { state with selectedChat := some chat }))).2 := by
    intro v chat hk hzero
    have hset : Kept has (v.set fun state => { state with selectedChat := some chat }) :=
      hk.of_fields rfl rfl rfl rfl rfl rfl rfl
    have h := opensChat hload hset chat.id
    refine ⟨?_, h.load⟩
    constructor
    case cached =>
      refine fun _ _ => ⟨h.kept, fun chat' hchat' => ?_⟩
      have hsame := h.selected.symm.trans hchat'
      obtain rfl : chat = chat' := Option.some.inj hsame
      exact h.head
    case fresh => exact h.fresh
    case selection => exact h.selection.ge
    case requests => exact h.requests
    case loads => exact fun load hl => Or.inl (h.tasks ▸ hl)
    case recent => exact fun _ => Or.inr (Or.inl hzero)
  refine Triple.bind (Q := fun load w => Begun r w ∧
    ∀ load', load = some load' → Made r load' w) ?_ fun load => ?_
  · refine Along.onRun persists_opened (fun _ h => h)
      (harmless_of_stale fun v hv => by simp [hv]) ?_ ?_
    · intro w hinv _
      split_ifs with hsel
      · rw [Bool.and_eq_true, decide_eq_true_eq] at hsel
        have hcurrent : w.memory.run = some r := of_decide_eq_true hsel.1
        cases selectedChat with
        | none =>
            dsimp only
            exact (mild_set (Or.inr rfl) rfl rfl).moves
        | some chat =>
            have hmoves := (hopens (w.memory.view r) chat (hinv.cached r hcurrent).kept hsel.2).1
            exact { hmoves with
              recent := fun h => (hmoves.recent h).imp_right (Or.imp_right nofun) }
      · exact (Mild.refl _).moves
    · intro w hinv hopen
      split_ifs with hsel
      · rw [Bool.and_eq_true, decide_eq_true_eq] at hsel
        have hcurrent : w.memory.run = some r := of_decide_eq_true hsel.1
        cases selectedChat with
        | none => exact ⟨hopen, fun load' hl => by cases hl⟩
        | some chat =>
            refine ⟨hopen, fun load' hl => made_after hopen ?_⟩
            exact (hopens (w.memory.view r) chat (hinv.cached r hcurrent).kept hsel.2).2 load' hl
      · exact ⟨hopen, fun load' hl => by cases hl⟩
  · cases load with
    | none => exact Triple.pure fun _ h => h.1
    | some load => exact (along_awaitHistory load).mono fun w h => h.2 load rfl

theorem along_restoreMetadata (hload : has.loadChatHistory = true) :
    Along has t r (Begun r) (restoreMetadata has r) fun _ => Begun r := by
  refine (Along.response persists_opened (fun _ h => h) _).bind fun answer => ?_
  refine Triple.bind (Q := fun _ => Begun r) ?_ fun userId => ?_
  · refine Along.onRun ?_ (fun _ h => h.1) harmless_current ?_ fun w _ h => h.1
    · exact fun w w' h hd => ⟨persists_opened w w' h.1 hd, h.2⟩
    · intro w _ h
      have hnone : answer.1.messages = [] := h.2 answer.1 answer.2 rfl
      dsimp only
      have hset : Mild (w.memory.view r) (((w.memory.view r).set fun state =>
          { state with
            chats := state.chats.foldl upsertChat answer.2
            messagesByChat :=
              mergeMessagesByChat state.messagesByChat answer.1.messages }).modify fun run =>
          { run with
            discoveredChats := answer.2.foldl (fun ids chat =>
              if chat.id ∈ ids then ids else ids ++ [chat.id]) run.discoveredChats }) := by
        refine Mild.trans (mild_set (Or.inl rfl) rfl ?_) (mild_modify le_rfl rfl rfl rfl)
        rw [hnone]
        rfl
      split_ifs
      · exact hset.moves
      · exact (hset.trans (mild_call _)).moves
      · exact (Mild.refl _).moves
  · cases userId with
    | none => exact Triple.pure fun _ h => h
    | some userId =>
        by_cases hchats : answer.2 = []
        · simp only [hchats, if_true]
          exact along_restoreSelection hload none
        · simp only [hchats, if_false]
          exact Triple.bind (Along.quiet (quiet_response _)) fun chat =>
            along_restoreSelection hload chat

theorem along_awaitLocalState (hload : has.loadChatHistory = true) :
    Along has t r (Begun r) (awaitLocalState has r) fun _ => Begun r := by
  refine (along_restoreMetadata hload).attempt.bind fun answer => ?_
  cases answer with
  | ok _ => exact Triple.pure fun _ h => h
  | error x =>
      exact Along.quiet (quiet_doRun tame_ifCurrent fun v =>
        mild_ifCurrent (mild_set (Or.inl rfl) rfl rfl))

/-- `openDirectChat` opens the chat as long as its number is in place. -/
theorem along_openCreatedChat (hload : has.loadChatHistory = true) (selection : Nat)
    (userId : String) :
    Along has t r (Took t r selection) (openCreatedChat has r selection userId)
      fun _ => Begun r := by
  refine (Along.response persists_took (fun _ h => h.1) _).bind fun chat => ?_
  refine Triple.mono (K := Took t r selection) ?_ fun w h => h.1
  -- what the segment does to the view of the current run
  have hopens : ∀ (v : ChatView) (owned : Prop), Kept has v →
      (v.run.selection = selection → owned) →
      v.current = true →
      Moves has owned v (openChat has selection chat v).2 ∧
      ∀ load, (openChat has selection chat v).1.2 = some load →
        LoadOk load (openChat has selection chat v).2 := by
    intro v owned hk howned hcurrent
    unfold openChat
    rw [if_pos hcurrent]
    dsimp only
    split_ifs with hsel
    · have hnumber : v.run.selection = selection := by
        unfold isSelection at hsel
        rw [Bool.and_eq_true, decide_eq_true_eq] at hsel
        exact hsel.2.symm
      have hset : Kept has (((v.set fun state =>
          { state with chats := upsertChat state.chats chat }).modify fun run =>
            { run with searchRequest := run.searchRequest + 1 }).set fun state =>
          { state with
            selectedChat := some chat
            chatsError := none
            sendError := none
            search := ""
            searchResults := none
            searching := false }) :=
        hk.of_fields rfl rfl rfl rfl rfl rfl rfl
      have h := opensChat hload hset chat.id
      refine ⟨?_, h.load⟩
      constructor
      case cached =>
        refine fun _ _ => ⟨h.kept, fun chat' hchat' => ?_⟩
        have hsame := h.selected.symm.trans hchat'
        obtain rfl : chat = chat' := Option.some.inj hsame
        exact h.head
      case fresh => exact h.fresh
      case selection => exact h.selection.ge
      case requests => exact h.requests
      case loads => exact fun load hl => Or.inl (h.tasks ▸ hl)
      case recent => exact fun _ => Or.inr (Or.inr (howned hnumber))
    · refine ⟨Mild.moves ?_, fun load hl => by cases hl⟩
      dsimp only
      exact mild_set (Or.inl rfl) rfl rfl
  have hstale : ∀ v : ChatView, v.current = false → openChat has selection chat v =
      ((false, none), v) := fun v hv => by simp [openChat, hv]
  refine Triple.bind (Q := fun step w => Begun r w ∧
    ∀ load', step.2 = some load' → Made r load' w) ?_ fun step => ?_
  · refine Along.onRun persists_took (fun _ h => h.1)
      (harmless_of_stale fun v hv => by rw [hstale v hv]) ?_ ?_
    · intro w hinv h
      cases hcurrent : (w.memory.view r).current with
      | false =>
          rw [hstale _ hcurrent]
          exact (Mild.refl _).moves
      | true =>
          refine (hopens _ _ (hinv.cached r (of_decide_eq_true hcurrent)).kept ?_ hcurrent).1
          intro hnumber
          change (w.memory.runs r).selection = selection at hnumber
          rw [hnumber]
          exact h.2
    · intro w hinv h
      refine ⟨h.1, fun load' hl => made_after h.1 ?_⟩
      cases hcurrent : (w.memory.view r).current with
      | false =>
          rw [hstale _ hcurrent] at hl
          cases hl
      | true =>
          exact (hopens _ True (hinv.cached r (of_decide_eq_true hcurrent)).kept
            (fun _ => trivial) hcurrent).2 load' hl
  · obtain ⟨selected, load⟩ := step
    cases selected with
    | false => exact Triple.pure fun _ h => h.1
    | true =>
        cases load with
        | none => exact (Along.quiet (quiet_rememberChat selection chat.id)).mono fun w h => h.1
        | some load =>
            refine Triple.bind ((along_awaitHistory load).mono fun w h => h.2 load rfl) fun _ => ?_
            exact Along.quiet (quiet_rememberChat selection chat.id)

theorem along_task (hload : has.loadChatHistory = true) (task : ChatTask) :
    Along has t r (fun w => Begun r w ∧ ∀ load, task = .loadHistory load → Made r load w)
      (task.prog has r) fun _ => Begun r := by
  cases task with
  | discover chatId =>
      exact (Along.quiet (quiet_awaitDiscovered chatId)).mono fun w h => h.1
  | cached chat => exact (Along.quiet (quiet_awaitCached chat)).mono fun w h => h.1
  | loadMailbox => exact (Along.quiet (quiet_awaitMailbox hload)).mono fun w h => h.1
  | loadChats selection => exact (along_awaitChats hload selection).mono fun w h => h.1
  | loadHistory load => exact (along_awaitHistory load).mono fun w h => h.2 load rfl
  | advanceReadCursor chatId lastReadSeq =>
      exact (Along.quiet (quiet_awaitReadCursor chatId lastReadSeq)).mono fun w h => h.1

end Functions

end Client
end SecureMessenger
