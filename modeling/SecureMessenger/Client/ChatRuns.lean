import SecureMessenger.Client.ChatStore

/-!
# Superseded runs of the chat store

A function of a run keeps a reference to its run object.  Once another run is
in place, all it changes is that object, which no function of another run
reads.  So neither the store nor the calls made depend on how the calls of
superseded runs settle.
-/

namespace SecureMessenger
namespace Client

open Lib

/-- The function changes at most the run object once its run is superseded. -/
def Harmless {α : Type} (f : ChatView → α × ChatView) : Prop :=
  ∀ v, v.current = false → ∃ run, (f v).2 = { v with run := run }

/-- `Harmless` for functions that return nothing. -/
def Tame (f : ChatView → ChatView) : Prop :=
  ∀ v, v.current = false → ∃ run, f v = { v with run := run }

/-- The call continues run `r`, harmlessly. -/
def OfRun (r : Nat) : ChatCall → Prop
  | .segment (α := α) activity f =>
      activity = some r ∧ ∃ g : ChatView → α × ChatView, f = ChatMemory.onRun r g ∧ Harmless g
  | .settle (.finished r' _) => r' = r
  | .settle (.response _) => True

section Views

theorem tame_of_stale {f : ChatView → ChatView} (h : ∀ v, v.current = false → f v = v) : Tame f :=
  fun v hv => ⟨v.run, h v hv⟩

theorem harmless_of_stale {α : Type} {f : ChatView → α × ChatView}
    (h : ∀ v, v.current = false → (f v).2 = v) : Harmless f :=
  fun v hv => ⟨v.run, h v hv⟩

theorem tame_ifCurrent {f : ChatView → ChatView} : Tame (ChatView.ifCurrent f) :=
  tame_of_stale fun v hv => by simp [ChatView.ifCurrent, hv]

theorem tame_modify {f : ChatRun → ChatRun} : Tame (ChatView.modify f) :=
  fun v _ => ⟨f v.run, rfl⟩

theorem Tame.comp {f g : ChatView → ChatView} (hf : Tame f) (hg : Tame g) :
    Tame fun v => f (g v) := by
  intro v hv
  obtain ⟨run, hrun⟩ := hg v hv
  have hcurrent : (g v).current = false := by
    rw [hrun]
    exact hv
  obtain ⟨run', hrun'⟩ := hf (g v) hcurrent
  refine ⟨run', hrun'.trans ?_⟩
  rw [hrun]

/-- A function that only acts when its selection is current. -/
theorem harmless_isSelection {α : Type} {selection : Nat} {f : ChatView → α × ChatView} {a : α} :
    Harmless fun v => if isSelection selection v then f v else (a, v) :=
  harmless_of_stale fun v hv => by simp [isSelection, hv]

theorem tame_isSelection {selection : Nat} {f : ChatView → ChatView} :
    Tame fun v => if isSelection selection v then f v else v :=
  tame_of_stale fun v hv => by simp [isSelection, hv]

theorem harmless_current {α : Type} {f : ChatView → α × ChatView} {a : α} :
    Harmless fun v => if v.current then f v else (a, v) :=
  harmless_of_stale fun v hv => by simp [hv]

theorem tame_receive {has : MessengerMethods} (messages : List DisplayMessage)
    (chatIds : List String) : Tame (receive has messages chatIds) :=
  tame_of_stale fun v hv => by simp [receive, hv]

theorem tame_finishHistory (load : HistoryLoad)
    (answer : Except JsError (List DisplayMessage × Option ChatHistoryCursor)) :
    Tame (finishHistory load answer) := by
  intro v hv
  have hstale : load.isCurrent v = false := by simp [HistoryLoad.isCurrent, hv]
  unfold finishHistory
  simp only [hstale]
  exact tame_modify v hv

theorem tame_beginMailbox : Tame beginMailbox :=
  tame_ifCurrent

theorem tame_finishMailbox : Tame finishMailbox := by
  unfold finishMailbox
  exact Tame.comp tame_ifCurrent tame_modify

theorem tame_handle {has : MessengerMethods} (e : ChatEvent) : Tame (e.handle has) := by
  cases e with
  | readState incoming => exact tame_ifCurrent
  | messages received => exact tame_receive _ _
  | error reason => exact tame_ifCurrent
  | activity chatIds => exact tame_receive _ _
  | outgoing sent => exact tame_receive _ _
  | delivery update => exact tame_ifCurrent
  | ready => exact tame_beginMailbox

end Views

section Programs

variable {has : MessengerMethods} {r : Nat}

theorem ofRun_onRun {α : Type} {f : ChatView → α × ChatView} (hf : Harmless f) :
    Prog.Calls (OfRun r) (onRun r f) :=
  calls_segment ⟨rfl, f, rfl, hf⟩

theorem ofRun_doRun {f : ChatView → ChatView} (hf : Tame f) :
    Prog.Calls (OfRun r) (doRun r f) :=
  ofRun_onRun fun v hv => hf v hv

theorem ofRun_response (g : ChatRequest) : Prog.Calls (OfRun r) (response g) :=
  calls_awaits trivial

theorem ofRun_awaitDiscovered (chatId : String) :
    Prog.Calls (OfRun r) (awaitDiscovered has r chatId) := by
  refine (ofRun_response _).attempt.bind fun answer => ?_
  cases answer with
  | ok chat => exact ofRun_doRun tame_ifCurrent
  | error x => exact ofRun_doRun (Tame.comp tame_ifCurrent tame_modify)

theorem ofRun_awaitCached (chat : DirectChat) : Prog.Calls (OfRun r) (awaitCached r chat) := by
  refine (ofRun_response _).attempt.bind fun answer => ?_
  cases answer with
  | ok _ => trivial
  | error x => exact ofRun_doRun tame_ifCurrent

theorem ofRun_awaitHistory (load : HistoryLoad) : Prog.Calls (OfRun r) (awaitHistory r load) :=
  (ofRun_response _).attempt.bind fun answer => ofRun_doRun (tame_finishHistory load answer)

theorem ofRun_awaitMailbox : Prog.Calls (OfRun r) (awaitMailbox has r) := by
  refine (ofRun_response _).attempt.bind fun answer => ?_
  cases answer with
  | ok result =>
      exact ofRun_doRun (Tame.comp tame_finishMailbox (Tame.comp tame_ifCurrent (tame_receive _ _)))
  | error x => exact ofRun_doRun (Tame.comp tame_finishMailbox tame_ifCurrent)

theorem ofRun_selectFreshChat (s : Selecting) : Prog.Calls (OfRun r) (selectFreshChat r s) := by
  refine (ofRun_response _).bind fun _ => ?_
  refine (ofRun_onRun harmless_isSelection).bind fun go => ?_
  cases go with
  | false => trivial
  | true => exact (ofRun_response _).bind fun freshChat => ofRun_doRun tame_isSelection

theorem ofRun_deselectChat (s : Selecting) (error : JsError) :
    Prog.Calls (OfRun r) (deselectChat r s error) := by
  refine (ofRun_onRun harmless_isSelection).bind fun go => ?_
  cases go with
  | false => trivial
  | true =>
      refine (ofRun_response _).attempt.bind fun answer => ?_
      cases answer with
      | ok _ => trivial
      | error x => exact ofRun_doRun tame_isSelection

theorem ofRun_finishSelect (s : Selecting) : Prog.Calls (OfRun r) (finishSelect r s) := by
  unfold finishSelect
  cases s.historyLoad with
  | none => exact ofRun_doRun tame_isSelection
  | some request =>
      exact Prog.Calls.bind (calls_awaits rfl) fun _ => ofRun_doRun tame_isSelection

theorem ofRun_awaitSelect (s : Selecting) : Prog.Calls (OfRun r) (awaitSelect r s) := by
  refine (ofRun_selectFreshChat s).attempt.bind fun answer => ?_
  cases answer with
  | ok _ => exact ofRun_finishSelect s
  | error x => exact (ofRun_deselectChat s x).bind fun _ => ofRun_finishSelect s

theorem ofRun_restoreLastChat (selection : Nat) (chats : List DirectChat) :
    Prog.Calls (OfRun r) (restoreLastChat has r selection chats) := by
  refine (ofRun_onRun harmless_isSelection).bind fun userId => ?_
  cases userId with
  | none => trivial
  | some userId =>
      refine Prog.Calls.bind (ofRun_response _) fun lastChat => ?_
      cases lastChat with
      | none => trivial
      | some chat =>
          refine (ofRun_onRun harmless_isSelection).bind fun s => ?_
          cases s with
          | none => trivial
          | some s => exact ofRun_awaitSelect s

theorem ofRun_loadChatList (selection : Nat) :
    Prog.Calls (OfRun r) (loadChatList has r selection) := by
  refine (ofRun_response _).bind fun chats => ?_
  refine (ofRun_onRun harmless_current).bind fun go => ?_
  cases go with
  | false => trivial
  | true =>
      cases has.cacheChats with
      | false => exact ofRun_restoreLastChat selection chats
      | true => exact (ofRun_response _).bind fun _ => ofRun_restoreLastChat selection chats

theorem ofRun_awaitChats (selection : Nat) :
    Prog.Calls (OfRun r) (awaitChats has r selection) := by
  refine (ofRun_loadChatList selection).attempt.bind fun answer => ?_
  cases answer with
  | ok _ => exact ofRun_doRun tame_ifCurrent
  | error x => exact (ofRun_doRun tame_isSelection).bind fun _ => ofRun_doRun tame_ifCurrent

theorem ofRun_restoreSelection (selectedChat : Option DirectChat) :
    Prog.Calls (OfRun r) (restoreSelection has r selectedChat) := by
  refine (ofRun_onRun (harmless_of_stale fun v hv => by simp [hv])).bind fun load => ?_
  cases load with
  | none => trivial
  | some load => exact ofRun_awaitHistory load

theorem ofRun_restoreMetadata : Prog.Calls (OfRun r) (restoreMetadata has r) := by
  refine (ofRun_response _).bind fun answer => ?_
  refine (ofRun_onRun harmless_current).bind fun userId => ?_
  cases userId with
  | none => trivial
  | some userId =>
      by_cases hchats : answer.2 = []
      · simp only [hchats, if_true]
        exact ofRun_restoreSelection none
      · simp only [hchats, if_false]
        exact Prog.Calls.bind (ofRun_response _) fun chat => ofRun_restoreSelection chat

theorem ofRun_awaitLocalState : Prog.Calls (OfRun r) (awaitLocalState has r) := by
  refine ofRun_restoreMetadata.attempt.bind fun answer => ?_
  cases answer with
  | ok _ => trivial
  | error x => exact ofRun_doRun tame_ifCurrent

theorem ofRun_rememberChat (selection : Nat) (chatId : String) :
    Prog.Calls (OfRun r) (rememberChat r selection chatId) := by
  refine (ofRun_onRun harmless_isSelection).bind fun userId => ?_
  cases userId with
  | none => trivial
  | some userId => exact ofRun_response _

theorem ofRun_openCreatedChat (selection : Nat) (userId : String) :
    Prog.Calls (OfRun r) (openCreatedChat has r selection userId) := by
  refine (ofRun_response _).bind fun chat => ?_
  have hopen : Harmless (openChat has selection chat) :=
    harmless_of_stale fun v hv => by simp [openChat, hv]
  refine (ofRun_onRun hopen).bind fun step => ?_
  obtain ⟨selected, load⟩ := step
  cases selected with
  | false => trivial
  | true =>
      cases load with
      | none => exact ofRun_rememberChat selection chat.id
      | some load =>
          exact (ofRun_awaitHistory load).bind fun _ => ofRun_rememberChat selection chat.id

theorem ofRun_awaitReadCursor (chatId : String) (lastReadSeq : ℤ) :
    Prog.Calls (OfRun r) (awaitReadCursor r chatId lastReadSeq) := by
  refine (ofRun_response _).attempt.bind fun answer => ?_
  cases answer with
  | ok _ => trivial
  | error x => exact ofRun_doRun tame_ifCurrent

theorem ofRun_task (task : ChatTask) : Prog.Calls (OfRun r) (task.prog has r) := by
  cases task with
  | discover chatId => exact ofRun_awaitDiscovered chatId
  | cached chat => exact ofRun_awaitCached chat
  | loadMailbox => exact ofRun_awaitMailbox
  | loadChats selection => exact ofRun_awaitChats selection
  | loadHistory load => exact ofRun_awaitHistory load
  | advanceReadCursor chatId lastReadSeq => exact ofRun_awaitReadCursor chatId lastReadSeq

end Programs

section Memories

variable {m m' : ChatMemory} {r : Nat}

/-- Memories that differ at most in the objects of superseded runs. -/
structure SameRun (m m' : ChatMemory) : Prop where
  state : m.state = m'.state
  run : m.run = m'.run
  tasks : m.tasks = m'.tasks
  effects : m.effects = m'.effects
  fresh : m.fresh = m'.fresh
  nextRun : m.nextRun = m'.nextRun
  object : ∀ r, m.run = some r → m.runs r = m'.runs r

theorem SameRun.refl (m : ChatMemory) : SameRun m m :=
  ⟨rfl, rfl, rfl, rfl, rfl, rfl, fun _ _ => rfl⟩

/-- The current run is one of those that have been opened. -/
def RunOk (m : ChatMemory) : Prop :=
  0 < m.nextRun ∧ ∀ r, m.run = some r → r < m.nextRun

/-- A run that is not the current one never becomes it. -/
def RunGrows (m m' : ChatMemory) : Prop :=
  m.nextRun ≤ m'.nextRun ∧ ∀ r, r < m.nextRun → m'.run = some r → m.run = some r

theorem RunGrows.refl (m : ChatMemory) : RunGrows m m :=
  ⟨le_rfl, fun _ _ h => h⟩

theorem RunGrows.trans {m'' : ChatMemory} (h : RunGrows m m') (h' : RunGrows m' m'') :
    RunGrows m m'' :=
  ⟨h.1.trans h'.1, fun r hr hrun => h.2 r hr (h'.2 r (hr.trans_le h.1) hrun)⟩

theorem SameRun.view (h : SameRun m m') (hr : m.run = some r) : m.view r = m'.view r := by
  simp [ChatMemory.view, h.state, h.tasks, h.effects, h.fresh, h.object r hr, h.run]

/-- A segment of the current run sees and does the same. -/
theorem SameRun.onRun {α : Type} (h : SameRun m m') (hr : m.run = some r)
    (f : ChatView → α × ChatView) :
    (m.onRun r f).1 = (m'.onRun r f).1 ∧ SameRun (m.onRun r f).2 (m'.onRun r f).2 := by
  have hview := h.view hr
  refine ⟨by simp only [ChatMemory.onRun, hview], ?_⟩
  simp only [ChatMemory.onRun, hview, ChatMemory.put]
  refine ⟨rfl, h.run, by rw [h.tasks], rfl, rfl, h.nextRun, fun r' hr' => ?_⟩
  obtain rfl : r = r' := by simpa using hr.symm.trans hr'
  simp

/-- A harmless segment of a superseded run changes its run object only. -/
theorem onRun_stale {α : Type} {f : ChatView → α × ChatView} (hf : Harmless f)
    (hr : m.run ≠ some r) :
    ∃ run, (m.onRun r f).2 = { m with runs := Function.update m.runs r run } := by
  obtain ⟨run, hrun⟩ := hf (m.view r) (by simp [ChatMemory.view, hr])
  refine ⟨run, ?_⟩
  simp only [ChatMemory.onRun, ChatMemory.put, hrun]
  simp [ChatMemory.view]

theorem SameRun.stale (h : SameRun m m') (hr : m.run ≠ some r) (run : ChatRun) :
    SameRun { m with runs := Function.update m.runs r run } m' := by
  refine ⟨h.state, h.run, h.tasks, h.effects, h.fresh, h.nextRun, fun r' hr' => ?_⟩
  have hne : r' ≠ r := fun he => hr (he ▸ hr')
  simp only [Function.update_of_ne hne]
  exact h.object r' hr'

end Memories

section Threads

variable {has : MessengerMethods} {m m' : ChatMemory}

/-- The call continues run `r`. -/
def Continues (r : Nat) : ChatCall → Prop
  | .segment activity _ => activity = some r
  | .settle _ => True

theorem OfRun.continues {r : Nat} (c : ChatCall) (h : OfRun r c) : Continues r c := by
  cases c with
  | segment activity f => exact h.1
  | settle g => trivial

/-- What the first segment of a method does. -/
structure Begins {α : Type} (f : ChatMemory → α × ChatMemory) (k : α → ChatProg Unit) : Prop where
  same : ∀ m m', SameRun m m' → (f m).1 = (f m').1 ∧ SameRun (f m).2 (f m').2
  owned : ∀ m, RunOk m → ∃ r, r < (f m).2.nextRun ∧ Prog.Calls (OfRun r) (k (f m).1)
  ok : ∀ m, RunOk m → RunOk (f m).2
  grows : ∀ m, RunOk m → RunGrows m (f m).2

/-- The program is a method that has not begun. -/
def Unbegun (q : ChatProg Unit) : Prop :=
  ∃ (α : Type) (f : ChatMemory → α × ChatMemory) (k : α → ChatProg Unit),
    q = .eff (.segment none f) k ∧ Begins f k

theorem unbegun_method {α : Type} {f : ChatView → α × ChatView} {rest : Nat → α → ChatProg Unit}
    (hrest : ∀ r a, Prog.Calls (OfRun r) (rest r a)) : Unbegun (method f rest) := by
  refine ⟨_, ChatMemory.inRun f, _, rfl, ?_, ?_, ?_, ?_⟩
  · intro m m' h
    unfold ChatMemory.inRun
    rw [← h.run]
    cases hrun : m.run with
    | none => exact ⟨rfl, h⟩
    | some r =>
        obtain ⟨hvalue, hsame⟩ := h.onRun hrun f
        exact ⟨congrArg (fun a => some (r, a)) hvalue, hsame⟩
  · intro m hm
    unfold ChatMemory.inRun
    cases hrun : m.run with
    | none => exact ⟨0, hm.1, trivial⟩
    | some r => exact ⟨r, hm.2 r hrun, hrest r _⟩
  · intro m hm
    unfold ChatMemory.inRun
    cases hrun : m.run with
    | none => exact hm
    | some r => exact hm
  · intro m hm
    unfold ChatMemory.inRun
    cases hrun : m.run with
    | none => exact RunGrows.refl m
    | some r => exact RunGrows.refl m

theorem SameRun.dispose (h : SameRun m m') :
    SameRun (Client.dispose has m) (Client.dispose has m') := by
  refine ⟨rfl, rfl, h.tasks, ?_, h.fresh, h.nextRun, fun r hr => ?_⟩
  · simp [Client.dispose, h.effects]
  · cases hr

theorem unbegun_dispose :
    Unbegun (segment none fun m => ((), Client.dispose has m)) := by
  refine ⟨_, _, _, rfl, fun m m' h => ⟨rfl, h.dispose⟩, fun m hm => ⟨0, hm.1, trivial⟩,
    fun m hm => ⟨hm.1, fun r hr => ?_⟩, fun m _ => ⟨le_rfl, fun r _ hr => ?_⟩⟩
  · cases hr
  · cases hr

theorem unbegun_setSearch (search : String) :
    Unbegun (segment none
      fun m => ((), { m with state := { m.state with search := search } })) := by
  refine ⟨_, _, _, rfl, fun m m' h => ⟨rfl, ?_⟩, fun m hm => ⟨0, hm.1, trivial⟩,
    fun m hm => hm, fun m _ => RunGrows.refl m⟩
  exact ⟨by rw [h.state], h.run, h.tasks, h.effects, h.fresh, h.nextRun, h.object⟩

/-- The new run of `start`, before anything is loaded. -/
theorem SameRun.opened (h : SameRun m m') (userId : String) (state : ChatState)
    (effects : List ChatEffect) :
    SameRun
      { m with
        run := some m.nextRun
        runs := Function.update m.runs m.nextRun { userId := userId }
        tasks := Function.update m.tasks m.nextRun []
        nextRun := m.nextRun + 1
        state := state
        effects := effects }
      { m' with
        run := some m'.nextRun
        runs := Function.update m'.runs m'.nextRun { userId := userId }
        tasks := Function.update m'.tasks m'.nextRun []
        nextRun := m'.nextRun + 1
        state := state
        effects := effects } := by
  refine ⟨rfl, by simp [h.nextRun], by simp [h.tasks, h.nextRun], rfl, h.fresh,
    by simp [h.nextRun], fun r hr => ?_⟩
  obtain rfl : m.nextRun = r := by simpa using hr
  simp [h.nextRun]

theorem unbegun_start (userId : String) : Unbegun (Client.start has userId) := by
  refine ⟨_, beginStart has userId, _, rfl, fun m m' h => ?_, fun m hm => ?_, fun m hm => ?_,
    fun m hm => ?_⟩
  · have hdispose : SameRun (Client.dispose has m) (Client.dispose has m') := h.dispose
    have hopened := hdispose.opened userId
      { (Client.dispose has m).state with userId := some userId }
      (if has.setHistoryChats then .setHistoryChats [] :: (Client.dispose has m).effects
        else (Client.dispose has m).effects)
    refine ⟨hdispose.nextRun, ?_⟩
    have hsame := (hopened.onRun rfl fun v =>
      ((), if has.restoreMetadata then v.call .restoreMetadata else loadRemote v)).2
    unfold beginStart
    simp only [hdispose.nextRun, hdispose.effects] at hsame ⊢
    exact hsame
  · refine ⟨m.nextRun, Nat.lt_succ_self _, ?_⟩
    have hrest : ∀ r, Prog.Calls (OfRun r)
        (if has.restoreMetadata then do
            awaitLocalState has r
            doRun r (ChatView.ifCurrent loadRemote)
          else pure () : ChatProg Unit) := by
      intro r
      split_ifs
      · exact ofRun_awaitLocalState.bind fun _ => ofRun_doRun tame_ifCurrent
      · trivial
    exact hrest m.nextRun
  · refine ⟨Nat.succ_pos _, fun r hr => ?_⟩
    obtain rfl : m.nextRun = r := by
      simpa [beginStart, ChatMemory.onRun, ChatMemory.put, Client.dispose] using hr
    exact Nat.lt_succ_self _
  · refine ⟨Nat.le_succ _, fun r hlt hr => ?_⟩
    obtain rfl : m.nextRun = r := by
      simpa [beginStart, ChatMemory.onRun, ChatMemory.put, Client.dispose] using hr
    exact absurd hlt (lt_irrefl _)

/-- Every call from outside is a method that has not begun, or continues a run
that has been opened. -/
theorem prog_owned (t : Tid) (op : ChatOp) (m m' : ChatMemory)
    (hs : (chatSystem has).start t op m m') :
    Unbegun (op.prog has t) ∨ ∃ r, r < m.nextRun ∧ Prog.Calls (OfRun r) (op.prog has t) := by
  cases op with
  | start userId => exact .inl (unbegun_start userId)
  | dispose => exact .inl unbegun_dispose
  | selectChat chat => exact .inl (unbegun_method fun r s => ofRun_awaitSelect s)
  | setSearch search => exact .inl (unbegun_setSearch search)
  | findPeople =>
      refine .inl (unbegun_method fun r step => ?_)
      refine (ofRun_response _).attempt.bind fun answer => ofRun_doRun ?_
      exact tame_of_stale fun v hv => by simp [hv]
  | openDirectChat userId =>
      refine .inl (unbegun_method fun r selection => ?_)
      cases selection with
      | none => trivial
      | some selection =>
          refine (ofRun_openCreatedChat selection userId).attempt.bind fun answer => ?_
          cases answer with
          | ok _ => exact ofRun_doRun tame_ifCurrent
          | error x => exact (ofRun_doRun tame_isSelection).bind fun _ => ofRun_doRun tame_ifCurrent
  | reportVisibleMessages chatId lastReadSeq => exact .inl (unbegun_method fun _ _ => trivial)
  | loadPreviousMessages =>
      refine .inl (unbegun_method fun r load => ?_)
      cases load with
      | none => trivial
      | some load => exact ofRun_awaitHistory load
  | retryMessage clientMessageId =>
      refine .inl (unbegun_method fun r _ => ?_)
      split_ifs
      · refine (ofRun_response _).attempt.bind fun answer => ?_
        cases answer with
        | ok _ => trivial
        | error x => exact ofRun_doRun tame_ifCurrent
      · trivial
  | sendText content =>
      refine .inl (unbegun_method fun r step => ?_)
      cases step with
      | none => trivial
      | some step =>
          refine (ofRun_response _).attempt.bind fun answer => ?_
          cases answer with
          | ok accepted => exact ofRun_doRun tame_ifCurrent
          | error x => exact ofRun_doRun (Tame.comp tame_ifCurrent tame_isSelection)
  | event r e => exact .inr ⟨r, hs.2.1, ofRun_doRun (tame_handle e)⟩
  | task r rest => exact .inr ⟨r, hs.2.1, ofRun_task rest⟩

end Threads

section Pools

variable {has : MessengerMethods} {p p' q q' : Pool ChatCall ChatCall.Answer JsError ChatMemory}
  {t : Tid}

/-- The invariant of the pools: every thread has not begun or continues one
run. -/
structure ChatInv (has : MessengerMethods)
    (p : Pool ChatCall ChatCall.Answer JsError ChatMemory) : Prop where
  ok : RunOk p.shared
  threads : ∀ t a, p.threads t = some a →
    Unbegun a ∨ ∃ r, r < p.shared.nextRun ∧ Prog.Calls (OfRun r) a
  outside : ∀ t a, p.threads t = some a → Unbegun a → ∃ op : ChatOp, a = op.prog has t

/-- What a call of a thread does. -/
theorem exec_cases {e : ChatCall} {k : e.Answer → ChatProg Unit} {m m' : ChatMemory}
    {a : e.Answer} (hm : RunOk m)
    (howned : Unbegun (.eff e k) ∨ ∃ r, r < m.nextRun ∧ Prog.Calls (OfRun r) (.eff e k))
    (hx : (chatSystem has).exec t e m a m') :
    RunOk m' ∧ RunGrows m m' ∧ ∃ r, r < m'.nextRun ∧ Prog.Calls (OfRun r) (k a) := by
  rcases howned with ⟨β, f, k', heq, hbegins⟩ | ⟨r, hr, hcalls⟩
  · cases heq
    obtain ⟨rfl, rfl⟩ := hx
    exact ⟨hbegins.ok m hm, hbegins.grows m hm, hbegins.owned m hm⟩
  · have hrest := hcalls.2 a
    cases e with
    | segment activity f =>
        obtain ⟨-, g, rfl, -⟩ := hcalls.1
        obtain ⟨-, rfl⟩ := hx
        exact ⟨hm, RunGrows.refl m, r, hr, hrest⟩
    | settle g =>
        cases g with
        | response g =>
            obtain rfl : m' = m := hx
            exact ⟨hm, RunGrows.refl m', r, hr, hrest⟩
        | finished r' request =>
            obtain ⟨-, -, rfl⟩ := hx
            exact ⟨hm, RunGrows.refl m', r, hr, hrest⟩

/-- One thread has moved on. -/
theorem ChatInv.update (h : ChatInv has p) {m' : ChatMemory} {a : ChatProg Unit} (hok : RunOk m')
    (hgrows : RunGrows p.shared m')
    (ha : (∃ op : ChatOp, a = op.prog has t ∧ Unbegun a) ∨
      ∃ r, r < m'.nextRun ∧ Prog.Calls (OfRun r) a) :
    ChatInv has ⟨m', Function.update p.threads t (some a)⟩ := by
  refine ⟨hok, fun u b hu => ?_, fun u b hu hb => ?_⟩
  · by_cases hut : u = t
    · subst hut
      simp only [Function.update_self, Option.some.injEq] at hu
      rw [← hu]
      exact ha.imp_left fun ⟨_, _, hunbegun⟩ => hunbegun
    · simp only [Function.update_of_ne hut] at hu
      rcases h.threads u b hu with hb | ⟨r, hr, hb⟩
      · exact .inl hb
      · exact .inr ⟨r, hr.trans_le hgrows.1, hb⟩
  · by_cases hut : u = t
    · subst hut
      simp only [Function.update_self, Option.some.injEq] at hu
      subst hu
      rcases ha with ⟨op, hop, -⟩ | ⟨r, -, hcalls⟩
      · exact ⟨op, hop⟩
      · obtain ⟨_, _, _, rfl, -⟩ := hb
        cases hcalls.1.1
    · simp only [Function.update_of_ne hut] at hu
      exact h.outside u b hu hb

theorem start_grows {op : ChatOp} {m m' : ChatMemory} (hs : (chatSystem has).start t op m m') :
    m'.run = m.run ∧ m'.nextRun = m.nextRun := by
  cases op with
  | event r e =>
      obtain ⟨-, -, rfl⟩ := hs
      exact ⟨rfl, rfl⟩
  | task r rest =>
      obtain ⟨-, -, _, _, -, rfl⟩ := hs
      exact ⟨rfl, rfl⟩
  | _ =>
      obtain rfl : m' = m := hs
      exact ⟨rfl, rfl⟩

theorem ChatInv.step (h : ChatInv has p) (hs : System.Next (chatSystem has) p p') :
    ChatInv has p' ∧ RunGrows p.shared p'.shared := by
  obtain ⟨move, hs⟩ := hs
  cases hs with
  | act ht hx =>
      obtain ⟨hok, hgrows, howned⟩ := exec_cases h.ok (h.threads _ _ ht) hx
      exact ⟨h.update hok hgrows (.inr howned), hgrows⟩
  | unfold ht =>
      refine ⟨h.update h.ok (RunGrows.refl _) ?_, RunGrows.refl _⟩
      rcases h.threads _ _ ht with ⟨_, _, _, heq, -⟩ | ⟨r, hr, hcalls⟩
      · cases heq
      · exact .inr ⟨r, hr, Prog.Calls.unroll hcalls⟩
  | start ht hst =>
      rename_i u op m'
      obtain ⟨hrun, hnext⟩ := start_grows hst
      have hgrows : RunGrows p.shared m' := ⟨hnext.ge, fun r _ hr => hrun ▸ hr⟩
      have hok : RunOk m' := ⟨hnext ▸ h.ok.1, fun r hr => hnext ▸ h.ok.2 r (hrun ▸ hr)⟩
      refine ⟨h.update hok hgrows ?_, hgrows⟩
      rw [hnext]
      exact (prog_owned _ _ _ _ hst).imp_left fun hunbegun => ⟨op, rfl, hunbegun⟩
  | stop ht hst => cases hst
  | env hst => cases hst

theorem ChatInv.reaches (h : ChatInv has p) (hr : System.Reaches (chatSystem has) p p') :
    ChatInv has p' ∧ RunGrows p.shared p'.shared := by
  induction hr with
  | refl => exact ⟨h, RunGrows.refl _⟩
  | tail _ hn ih =>
      obtain ⟨hinv, hgrows⟩ := ih.1.step hn
      exact ⟨hinv, ih.2.trans hgrows⟩

/-- The store right after `createChatStore`. -/
def ChatMemory.Fresh (m : ChatMemory) : Prop :=
  m = {}

theorem chatInv (hp : System.Reachable (chatSystem has) ChatMemory.Fresh p) : ChatInv has p := by
  obtain ⟨m, rfl, hr⟩ := hp
  refine (ChatInv.reaches ⟨⟨Nat.one_pos, fun r hr => ?_⟩, fun t a ht => ?_,
    fun t a ht => ?_⟩ hr).1
  · cases hr
  · cases ht
  · cases ht

/-- The program continues a run that is not the current one. -/
def Superseded (m : ChatMemory) (a : ChatProg Unit) : Prop :=
  ∃ r, r < m.nextRun ∧ m.run ≠ some r ∧ Prog.Calls (Continues r) a

theorem Superseded.grows {m m' : ChatMemory} {a : ChatProg Unit} (h : Superseded m a)
    (hgrows : RunGrows m m') : Superseded m' a := by
  obtain ⟨r, hr, hrun, ha⟩ := h
  exact ⟨r, hr.trans_le hgrows.1, fun he => hrun (hgrows.2 r hr he), ha⟩

/-- Pools that differ at most in superseded runs: in their objects and in what
their threads have been answered so far. -/
structure SamePool (p q : Pool ChatCall ChatCall.Answer JsError ChatMemory) : Prop where
  shared : SameRun p.shared q.shared
  threads : ∀ t, p.threads t = q.threads t ∨
    ∃ a b, p.threads t = some a ∧ q.threads t = some b ∧
      Superseded p.shared a ∧ Superseded p.shared b

/-- What the store shows and which calls have been made. -/
def chatObs (p : Pool ChatCall ChatCall.Answer JsError ChatMemory) :
    ChatState × List ChatEffect :=
  (p.shared.state, p.shared.effects)

/-- A thread of a superseded run moves on in one of the pools. -/
theorem SamePool.left (h : SamePool p q) {m' : ChatMemory} {a b : ChatProg Unit}
    (hshared : SameRun m' q.shared) (hgrows : RunGrows p.shared m') (hb : q.threads t = some b)
    (hsa : Superseded m' a) (hsb : Superseded m' b) :
    SamePool ⟨m', Function.update p.threads t (some a)⟩ q := by
  refine ⟨hshared, fun u => ?_⟩
  by_cases hut : u = t
  · subst hut
    exact .inr ⟨a, b, by simp, hb, hsa, hsb⟩
  · simp only [Function.update_of_ne hut]
    rcases h.threads u with heq | ⟨a', b', ha', hb', hsa', hsb'⟩
    · exact .inl heq
    · exact .inr ⟨a', b', ha', hb', hsa'.grows hgrows, hsb'.grows hgrows⟩

/-- A thread moves on in both pools. -/
theorem SamePool.both (h : SamePool p q) {m m' : ChatMemory} {a : ChatProg Unit}
    (hshared : SameRun m m') (hgrows : RunGrows p.shared m) :
    SamePool ⟨m, Function.update p.threads t (some a)⟩
      ⟨m', Function.update q.threads t (some a)⟩ := by
  refine ⟨hshared, fun u => ?_⟩
  by_cases hut : u = t
  · subst hut
    exact .inl (by simp)
  · simp only [Function.update_of_ne hut]
    rcases h.threads u with heq | ⟨a', b', ha', hb', hsa', hsb'⟩
    · exact .inl heq
    · exact .inr ⟨a', b', ha', hb', hsa'.grows hgrows, hsb'.grows hgrows⟩

/-- A call of a superseded run. -/
theorem exec_superseded {e : ChatCall} {k : e.Answer → ChatProg Unit} {m m' n : ChatMemory}
    {a : e.Answer} {r : Nat}
    (howned : Unbegun (.eff e k) ∨ ∃ r, r < m.nextRun ∧ Prog.Calls (OfRun r) (.eff e k))
    (hr : Prog.Calls (Continues r) (.eff e k)) (hrun : m.run ≠ some r)
    (hx : (chatSystem has).exec t e m a m') (hn : SameRun m n) : SameRun m' n := by
  cases e with
  | segment activity f =>
      obtain rfl : activity = some r := hr.1
      rcases howned with ⟨_, _, _, heq, -⟩ | ⟨r', -, hcalls⟩
      · cases heq
      · obtain ⟨heq, g, rfl, hg⟩ := hcalls.1
        obtain rfl : r = r' := Option.some.inj heq
        obtain ⟨-, rfl⟩ := hx
        obtain ⟨run, hstale⟩ := onRun_stale hg hrun
        rw [hstale]
        exact hn.stale hrun run
  | settle g =>
      cases g with
      | response g =>
          obtain rfl : m' = m := hx
          exact hn
      | finished r' request =>
          obtain ⟨-, -, rfl⟩ := hx
          exact hn

/-- A call of the current run has the same outcome in the other pool. -/
theorem exec_current {e : ChatCall} {k : e.Answer → ChatProg Unit} {m m' n : ChatMemory}
    {a : e.Answer} {r : Nat} (hcalls : Prog.Calls (OfRun r) (.eff e k)) (hrun : m.run = some r)
    (hx : (chatSystem has).exec t e m a m') (hn : SameRun m n) :
    ∃ n', (chatSystem has).exec t e n a n' ∧ SameRun m' n' := by
  cases e with
  | segment activity f =>
      obtain ⟨-, g, rfl, -⟩ := hcalls.1
      obtain ⟨rfl, rfl⟩ := hx
      obtain ⟨hvalue, hsame⟩ := hn.onRun hrun g
      exact ⟨_, ⟨hvalue, rfl⟩, hsame⟩
  | settle g =>
      cases g with
      | response g =>
          obtain rfl : m' = m := hx
          exact ⟨n, rfl, hn⟩
      | finished r' request =>
          obtain rfl : r' = r := hcalls.1
          obtain ⟨hmem, ha, rfl⟩ := hx
          rw [hn.object r' hrun] at hmem
          exact ⟨n, ⟨hmem, ha, rfl⟩, hn⟩

theorem sim_act (hp : ChatInv has p) (h : SamePool p q) {e : ChatCall}
    {k : e.Answer → ChatProg Unit} {a : e.Answer} {m' : ChatMemory}
    (ht : p.threads t = some (.eff e k)) (hx : (chatSystem has).exec t e p.shared a m') :
    SamePool ⟨m', Function.update p.threads t (some (k a))⟩ q ∨
      ∃ q', System.Next (chatSystem has) q q' ∧
        SamePool ⟨m', Function.update p.threads t (some (k a))⟩ q' := by
  have howned := hp.threads t _ ht
  obtain ⟨-, hgrows, -⟩ := exec_cases hp.ok howned hx
  rcases h.threads t with heq | ⟨a₀, b, ha, hb, ⟨r, hr, hrun, hcont⟩, hsb⟩
  · have htq : q.threads t = some (.eff e k) := heq.symm.trans ht
    rcases howned with ⟨β, f, k', hprog, hbegins⟩ | ⟨r, hr, hcalls⟩
    · cases hprog
      obtain ⟨rfl, rfl⟩ := hx
      obtain ⟨hvalue, hsame⟩ := hbegins.same _ _ h.shared
      exact .inr ⟨_, ⟨_, .act htq ⟨hvalue, rfl⟩⟩, h.both hsame hgrows⟩
    · by_cases hrun : p.shared.run = some r
      · obtain ⟨n', hx', hsame⟩ := exec_current hcalls hrun hx h.shared
        exact .inr ⟨_, ⟨_, .act htq hx'⟩, h.both hsame hgrows⟩
      · have hcont : Prog.Calls (Continues r) (.eff e k) := hcalls.mono OfRun.continues
        have hstale : Superseded p.shared (.eff e k) := ⟨r, hr, hrun, hcont⟩
        have hstale' : Superseded p.shared (k a) := ⟨r, hr, hrun, hcont.2 a⟩
        refine .inl (h.left ?_ hgrows htq (hstale'.grows hgrows) (hstale.grows hgrows))
        exact exec_superseded (.inr ⟨r, hr, hcalls⟩) hcont hrun hx h.shared
  · rw [ht, Option.some.injEq] at ha
    subst ha
    have hstale : Superseded p.shared (k a) := ⟨r, hr, hrun, hcont.2 a⟩
    refine .inl (h.left ?_ hgrows hb (hstale.grows hgrows) (hsb.grows hgrows))
    exact exec_superseded howned hcont hrun hx h.shared

/-- Starting the same in both pools. -/
theorem start_same {op : ChatOp} {m m' n : ChatMemory} (hs : (chatSystem has).start t op m m')
    (hn : SameRun m n) : ∃ n', (chatSystem has).start t op n n' ∧ SameRun m' n' := by
  cases op with
  | event r e =>
      obtain ⟨hpos, hlt, rfl⟩ := hs
      exact ⟨n, ⟨hpos, hn.nextRun ▸ hlt, rfl⟩, hn⟩
  | task r rest =>
      obtain ⟨hpos, hlt, before, after, htasks, rfl⟩ := hs
      refine ⟨_, ⟨hpos, hn.nextRun ▸ hlt, before, after, hn.tasks ▸ htasks, rfl⟩, ?_⟩
      exact ⟨hn.state, hn.run, by simp only [hn.tasks], hn.effects, hn.fresh, hn.nextRun, hn.object⟩
  | _ =>
      obtain rfl : m' = m := hs
      exact ⟨n, rfl, hn⟩

theorem sim_step (hp : ChatInv has p) (h : SamePool p q) (hs : System.Next (chatSystem has) p p') :
    SamePool p' q ∨ ∃ q', System.Next (chatSystem has) q q' ∧ SamePool p' q' := by
  obtain ⟨move, hs⟩ := hs
  cases hs with
  | act ht hx => exact sim_act hp h ht hx
  | unfold ht =>
      rename_i u σ β l body k
      rcases h.threads u with heq | ⟨a₀, b, ha, hb, ⟨r, hr, hrun, hcont⟩, hsb⟩
      · exact .inr ⟨_, ⟨_, .unfold (heq.symm.trans ht)⟩, h.both h.shared (RunGrows.refl _)⟩
      · rw [ht, Option.some.injEq] at ha
        subst ha
        exact .inl (h.left h.shared (RunGrows.refl _) hb
          ⟨r, hr, hrun, Prog.Calls.unroll hcont⟩ hsb)
  | start ht hst =>
      obtain ⟨hrun, hnext⟩ := start_grows hst
      obtain ⟨n', hst', hsame⟩ := start_same hst h.shared
      rcases h.threads _ with heq | ⟨a₀, b, ha, -⟩
      · exact .inr ⟨_, ⟨_, .start (heq.symm.trans ht) hst'⟩,
          h.both hsame ⟨hnext.ge, fun r _ hr => hrun ▸ hr⟩⟩
      · rw [ht] at ha
        cases ha
  | stop ht hst => cases hst
  | env hst => cases hst

/-- A call of a superseded run shows nothing. -/
theorem obs_change (hp : ChatInv has p) (hs : System.Step (chatSystem has) (.act t) p p')
    (hne : chatObs p' ≠ chatObs p) :
    (∃ (α : Type) (f : ChatMemory → α × ChatMemory) (k : α → ChatProg Unit) (op : ChatOp),
      p.threads t = some (.eff (.segment none f) k) ∧
        .eff (.segment none f) k = op.prog has t) ∨
      ∃ (r : Nat) (α : Type) (f : ChatMemory → α × ChatMemory) (k : α → ChatProg Unit),
        p.threads t = some (.eff (.segment (some r) f) k) ∧ p.shared.run = some r := by
  cases hs with
  | act ht hx =>
      rename_i e k a m'
      have howned := hp.threads t _ ht
      rcases howned with hunbegun | ⟨r, hr, hcalls⟩
      · obtain ⟨op, hop⟩ := hp.outside t _ ht hunbegun
        obtain ⟨α, f, k', heq, -⟩ := hunbegun
        exact .inl ⟨α, f, k', op, ht.trans (congrArg some heq), heq.symm.trans hop⟩
      · have hcont : Prog.Calls (Continues r) (.eff e k) := hcalls.mono OfRun.continues
        by_cases hrun : p.shared.run = some r
        · cases e with
          | segment activity f =>
              obtain rfl : activity = some r := hcont.1
              exact .inr ⟨r, _, f, k, ht, hrun⟩
          | settle g =>
              cases g with
              | response g =>
                  obtain rfl : m' = p.shared := hx
                  exact absurd rfl hne
              | finished r' request =>
                  obtain ⟨-, -, rfl⟩ := hx
                  exact absurd rfl hne
        · have hsame := exec_superseded (.inr ⟨r, hr, hcalls⟩) hcont hrun hx
            (SameRun.refl p.shared)
          exact absurd (Prod.ext hsame.state hsame.effects) hne

/-- Main result.  After a run has been superseded nothing it still awaits
changes the store or makes a call: what does so later is the first segment of a
method called from outside or a segment of a current run that was current
before or has been opened since.  And pools that differ only in superseded runs
show the same states and calls, whatever the calls of these runs return. -/
theorem superseded_runs_show_nothing (has : MessengerMethods)
    (p : Pool ChatCall ChatCall.Answer JsError ChatMemory)
    (hp : System.Reachable (chatSystem has) ChatMemory.Fresh p) :
    (∀ p' p'' t, System.Reaches (chatSystem has) p p' →
      System.Step (chatSystem has) (.act t) p' p'' → chatObs p'' ≠ chatObs p' →
      (∃ (α : Type) (f : ChatMemory → α × ChatMemory) (k : α → ChatProg Unit) (op : ChatOp),
        p'.threads t = some (.eff (.segment none f) k) ∧
          .eff (.segment none f) k = op.prog has t) ∨
        ∃ (r : Nat) (α : Type) (f : ChatMemory → α × ChatMemory) (k : α → ChatProg Unit),
          p'.threads t = some (.eff (.segment (some r) f) k) ∧ p'.shared.run = some r ∧
            (r < p.shared.nextRun → p.shared.run = some r)) ∧
    ∀ q, System.Reachable (chatSystem has) ChatMemory.Fresh q → SamePool p q →
      ∀ l p', System.Shows (chatSystem has) chatObs p l p' →
        ∃ q', System.Shows (chatSystem has) chatObs q l q' ∧ SamePool p' q' := by
  have hinv := chatInv hp
  constructor
  · intro p' p'' t hreach hs hne
    obtain ⟨hinv', hgrows⟩ := hinv.reaches hreach
    rcases obs_change hinv' hs hne with hmethod | ⟨r, α, f, k, ht, hrun⟩
    · exact .inl hmethod
    · exact .inr ⟨r, α, f, k, ht, hrun, fun hr => hgrows.2 r hr hrun⟩
  · intro q hq hsame l p' hshows
    have hsim := System.Shows.simulate (B := fun p q => ChatInv has p ∧ SamePool p q)
      (fun p q h => Prod.ext h.2.shared.state h.2.shared.effects)
      (fun p q p' h hs => ?_) hshows q ⟨hinv, hsame⟩
    · obtain ⟨q', hshows', -, hsame'⟩ := hsim
      exact ⟨q', hshows', hsame'⟩
    · have hinv' := (h.1.step hs).1
      rcases sim_step h.1 h.2 hs with hstay | ⟨q', hs', hmove⟩
      · exact .inl ⟨hinv', hstay⟩
      · exact .inr ⟨q', hs', hinv', hmove⟩

/-- A messenger with all its methods. -/
def allMethods : MessengerMethods :=
  ⟨true, true, true, true, true, true⟩

/-- A second session starts while the first is still restoring; in the second
pool the call of the first session has failed meanwhile. -/
theorem reachable_restarted :
    ∃ p q, System.Reachable (chatSystem allMethods) ChatMemory.Fresh p ∧
      System.Reachable (chatSystem allMethods) ChatMemory.Fresh q ∧
      p.shared.run = some 2 ∧ SamePool p q := by
  have h : System.Reachable (chatSystem allMethods) ChatMemory.Fresh (System.idle {}) := .idle rfl
  have h := h.starts 0 (.start "alice") rfl rfl
  have h := h.acts 0 rfl _ ⟨rfl, rfl⟩
  have h := h.starts 1 (.start "bob") rfl rfl
  have h := h.acts 1 rfl _ ⟨rfl, rfl⟩
  have hlate := h.acts 0 rfl (.error (.error "offline")) rfl
  refine ⟨_, _, h, hlate, rfl, SameRun.refl _, fun t => ?_⟩
  by_cases ht : t = 0
  · subst ht
    have hold : Prog.Calls (Continues 1)
        (do
          awaitLocalState allMethods 1
          doRun 1 (ChatView.ifCurrent loadRemote) : ChatProg Unit) :=
      Prog.Calls.mono OfRun.continues
        (ofRun_awaitLocalState.bind fun _ => ofRun_doRun tame_ifCurrent)
    refine .inr ⟨_, _, rfl, rfl, ⟨1, by decide, by decide, hold⟩, ⟨1, by decide, by decide, ?_⟩⟩
    exact hold.2 (.error (.error "offline"))
  · exact .inl (Function.update_of_ne ht _ _).symm

theorem superseded_runs_show_nothing_restarted :
    ∃ p q, System.Reachable (chatSystem allMethods) ChatMemory.Fresh p ∧
      p.shared.run = some 2 ∧ SamePool p q ∧
      ∀ l p', System.Shows (chatSystem allMethods) chatObs p l p' →
        ∃ q', System.Shows (chatSystem allMethods) chatObs q l q' ∧ SamePool p' q' := by
  obtain ⟨p, q, hp, hq, hrun, hsame⟩ := reachable_restarted
  exact ⟨p, q, hp, hrun, hsame, (superseded_runs_show_nothing allMethods p hp).2 q hq hsame⟩

end Pools

end Client
end SecureMessenger
