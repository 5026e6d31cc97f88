import SecureMessenger.Client.OutgoingManager
import SecureMessenger.Lib.Discipline

/-!
# Recoveries and scopes

`recoverOutgoing` joins whatever recovery is running.  As long as it is only
called while no recovery of another scope is running, a call awaits a recovery
of its own scope, and a recovery that succeeds has looked up every command
that its skip rules do not exclude.
-/

namespace SecureMessenger
namespace Client
namespace Outgoing

open Lib
open Lib.Discipline

/-- A manager that has just been constructed. -/
structure Fields.New (s : Fields) : Prop where
  recovering : s.recovering = none
  inFlight : s.inFlight = []
  pendingDeliveries : s.pendingDeliveries = .empty
  recoveries : s.recoveries = []
  trace : s.trace = []
  working : s.working = []
  accepting : s.accepting = []

/-- When `recoverOutgoing` is called, no recovery begun under another scope is
running. -/
def JoinsOwn (_ : Tid) : (e : Call) → Fields → e.Answer → Prop
  | .segment (some .recoverOutgoing) _, s, _ =>
      ∀ n scope, s.recovering = some n → s.current = some scope → .recovers n scope ∈ s.trace
  | _, _, _ => True

/-- A recovery has looked the command up, or one of its rules excludes it. -/
def Handled (n : Tid) (readStates : List ChatReadState) (outgoing : OutgoingCommand)
    (s : Fields) : Prop :=
  .looksUp n outgoing.command.client_message_id ∈ s.trace ∨
    ∃ inFlight, .skips n outgoing.command.client_message_id inFlight ∈ s.trace ∧
      skipped inFlight readStates outgoing = true

/-- A recovery has been through the commands the inbox returned for the scope. -/
def Recovered (n : Tid) (scope : ScopeRef) (s : Fields) : Prop :=
  ∃ commands readStates, .toRecover scope.scope commands ∈ s.trace ∧
    .listed n commands readStates ∈ s.trace ∧
    ∀ outgoing ∈ commands, Handled n readStates outgoing s

/-- What holds in every state. -/
structure ScopeInv (s : Fields) : Prop where
  called : ∀ t scope n, .called t (some scope) n ∈ s.trace → .recovers n scope ∈ s.trace
  once : ∀ n scope scope', .recovers n scope ∈ s.trace → .recovers n scope' ∈ s.trace →
    scope = scope'
  recovered : ∀ n, (n, .ok ()) ∈ s.recoveries →
    ∃ scope, .recovers n scope ∈ s.trace ∧ Recovered n scope s

/-- Events by which a thread calls for a recovery or begins one. -/
def Event.Of (t : Tid) : Event → Prop
  | .called caller _ _ => caller = t
  | .recovers recovery _ => recovery = t
  | _ => False

/-- The recovery a call awaits has settled in this way. -/
def Settled (t : Tid) (outcome : Except JsError Unit → Prop) (s : Fields) : Prop :=
  ∀ scope n, .called t scope n ∈ s.trace → ∃ r, outcome r ∧ (n, r) ∈ s.recoveries

/-- The trace only gets longer; a thread calls and begins its recoveries itself;
a call ends as the recovery ended that it awaits. -/
def scopeDiscipline : Discipline Fields where
  inv := ScopeInv
  grow := fun s s' => s.trace <:+ s'.trace ∧ s.recoveries <:+ s'.recoveries
  own := fun t s s' => ∀ event : Event, event.Of t → event ∈ s'.trace → event ∈ s.trace
  idle := fun t s => ∀ event : Event, event.Of t → event ∉ s.trace
  done := fun t s => Settled t (· = .ok ()) s
  failed := fun t s => Settled t (· ≠ .ok ()) s
  grow_refl := fun s => ⟨List.suffix_refl s.trace, List.suffix_refl s.recoveries⟩
  grow_trans := fun h h' => ⟨h.1.trans h'.1, h.2.trans h'.2⟩
  own_refl := fun _ _ _ _ h => h
  own_trans := fun h h' event ht hs => h event ht (h' event ht hs)
  idle_drift := fun h _ ho event ht hs => h event ht (ho event ht hs)
  done_drift := fun h hg ho scope n hs =>
    let ⟨r, hr, hmem⟩ := h scope n (ho _ rfl hs)
    ⟨r, hr, hg.2.subset hmem⟩
  failed_drift := fun h hg ho scope n hs =>
    let ⟨r, hr, hmem⟩ := h scope n (ho _ rfl hs)
    ⟨r, hr, hg.2.subset hmem⟩

section Facts

variable {n : Tid} {s s' : Fields}

theorem Handled.grow {readStates : List ChatReadState} {outgoing : OutgoingCommand}
    (h : Handled n readStates outgoing s) (hg : s.trace <:+ s'.trace) :
    Handled n readStates outgoing s' := by
  rcases h with h | ⟨inFlight, h, hs⟩
  · exact .inl (hg.subset h)
  · exact .inr ⟨inFlight, hg.subset h, hs⟩

theorem Recovered.grow {scope : ScopeRef} (h : Recovered n scope s)
    (hg : s.trace <:+ s'.trace) : Recovered n scope s' := by
  obtain ⟨commands, readStates, hto, hlisted, hall⟩ := h
  exact ⟨commands, readStates, hg.subset hto, hg.subset hlisted, fun c hc => (hall c hc).grow hg⟩

end Facts

/-- Events that say nothing about who calls and begins recoveries. -/
def Event.Ordinary : Event → Prop
  | .called _ _ _ => False
  | .recovers _ _ => False
  | _ => True

/-- A step that adds ordinary events and settles no recovery. -/
def Ordinary (s s' : Fields) : Prop :=
  s'.recoveries = s.recoveries ∧ Adds Event.Ordinary s s'

section Steps

variable {s s' s'' : Fields}

theorem Ordinary.of_trace (hr : s'.recoveries = s.recoveries) (ht : s'.trace = s.trace) :
    Ordinary s s' :=
  ⟨hr, .of_trace ht⟩

theorem Ordinary.refl (s : Fields) : Ordinary s s :=
  .of_trace rfl rfl

theorem Ordinary.trans (h : Ordinary s s') (h' : Ordinary s' s'') : Ordinary s s'' :=
  ⟨h'.1.trans h.1, h.2.trans h'.2⟩

theorem Ordinary.log {event : Event} (h : event.Ordinary) (s : Fields) : Ordinary s (s.log event) :=
  ⟨rfl, .log h s⟩

theorem ordinary_publishDeliveries (s : Fields) : Ordinary s s.publishDeliveries :=
  ⟨publishDeliveries_recoveries s, adds_publishDeliveries (fun _ => trivial) s⟩

theorem ordinary_queueDelivery (scope : ScopeRef) (accepted : SentMessage) (s : Fields) :
    Ordinary s (s.queueDelivery scope accepted) :=
  Ordinary.trans (.of_trace rfl rfl) (ordinary_publishDeliveries _)

theorem ordinary_release (id : String) (s : Fields) : Ordinary s (s.release id) :=
  Ordinary.trans (.of_trace rfl rfl) (ordinary_publishDeliveries _)

theorem ordinary_publish (commands : List OutgoingCommand) (s : Fields) :
    Ordinary s (s.publish commands) :=
  ⟨rfl, adds_publish (fun _ _ => trivial) commands s⟩

theorem ordinary_take (t : Tid) (id : String) (s : Fields) : Ordinary s (s.take t id).2 := by
  unfold Fields.take
  split
  · exact .refl s
  · split
    · exact .refl s
    · exact .of_trace rfl rfl

theorem ordinary_takeNext (t : Tid) (scope : ScopeRef) (readStates : List ChatReadState)
    (outgoing : OutgoingCommand) (s : Fields) :
    Ordinary s (s.takeNext t scope readStates outgoing).2 := by
  unfold Fields.takeNext
  split
  · exact .refl s
  · split
    · exact Ordinary.log (by trivial) s
    · exact Ordinary.trans (.of_trace rfl rfl) (Ordinary.log (by trivial) _)

theorem ordinary_stores {α : Type} {tx : Transaction α} {r : Except JsError α}
    (h : s.stores tx r s') : Ordinary s s' := by
  obtain ⟨db, rfl, -⟩ := h
  exact .of_trace rfl rfl

/-- No promise tells of recoveries. -/
theorem ordinary_settles {g : Promise} {r : Except JsError g.Reply} (h : settles g s r s') :
    Ordinary s s' := by
  cases g with
  | getOutgoing scope id => exact ordinary_stores h
  | putOutgoing scope command replaceRejected =>
      obtain ⟨now, h⟩ := h
      exact ordinary_stores h
  | acceptOutgoing scope message => exact ordinary_stores h
  | applyDeliveryReceipt scope receipt => exact ordinary_stores h
  | getSentMetadata scope id => exact ordinary_stores h
  | mergeSentMetadata scope message => exact ordinary_stores h
  | getOutgoingToRecover scope =>
      obtain ⟨s₁, h, rfl⟩ := h
      refine (ordinary_stores h).trans ?_
      cases r with
      | ok commands => exact Ordinary.log (by trivial) s₁
      | error x => exact .refl s₁
  | readChatReadStates scope => exact ordinary_stores h
  | sendMessage command =>
      obtain rfl := h
      exact Ordinary.log (by trivial) s
  | findSentMessage id =>
      obtain rfl := h
      split
      · exact Ordinary.log (by trivial) s
      · exact .refl s
  | recovery n => exact h.2 ▸ .refl s
  | getDestinationDevices chatId => exact h ▸ .refl s
  | getSentMessages after => exact h ▸ .refl s
  | buildOutgoing content devices => exact h ▸ .refl s
  | decodeIncoming envelope => exact h ▸ .refl s
  | timer => exact h ▸ .refl s

end Steps

/-- A call whose steps are ordinary. -/
def OrdinaryCall (e : Call) : Prop :=
  ∀ t s r s', Segmented.exec settles t e s r s' → Ordinary s s'

theorem ordinaryCall_segment {α : Type} {mark : Option Mark} {f : Fields → α × Fields}
    (h : ∀ s, Ordinary s (f s).2) : OrdinaryCall (.segment mark f) := by
  rintro t s r s' ⟨-, rfl⟩
  exact h s

theorem coversQuiet_ordinaryCall (t : Tid) : CoversQuiet OrdinaryCall t where
  promise := fun g _ _ _ _ _ h => ordinary_settles h
  read := fun f => ordinaryCall_segment fun s => .refl s
  publish := fun commands => ordinaryCall_segment fun s => ordinary_publish commands s
  addChange := fun n outgoing => ordinaryCall_segment fun s => .of_trace rfl rfl
  merge := fun scope accepted => ordinaryCall_segment fun s => by
    unfold queueMerged
    split
    · exact .refl s
    · exact ordinary_queueDelivery scope accepted s
  receipt := fun scope accepted => ordinaryCall_segment fun s => by
    unfold queueAccepted
    split
    · exact .refl s
    · exact ordinary_queueDelivery scope accepted s
    · exact .refl s
  beginAccepting := fun id => ordinaryCall_segment fun s => .of_trace rfl rfl
  endAccepting := fun id => ordinaryCall_segment fun s => .of_trace rfl rfl

/-- All calls but those that begin and end a recovery are ordinary. -/
theorem covers_ordinaryCall (t : Tid) : Covers OrdinaryCall t where
  quiet := coversQuiet_ordinaryCall t
  commanded := fun g _ _ _ _ _ h => ordinary_settles h
  log_sent := fun id => ordinaryCall_segment fun s => Ordinary.log (by trivial) s
  addInFlight := fun id => ordinaryCall_segment fun s => .of_trace rfl rfl
  release := fun id => ordinaryCall_segment fun s => ordinary_release id s
  newMessage := fun id => ordinaryCall_segment fun s => .of_trace rfl rfl
  finish := fun id => ordinaryCall_segment fun s => .of_trace rfl rfl
  finishTaken := fun id => ordinaryCall_segment fun s =>
    Ordinary.trans (.of_trace rfl rfl) (ordinary_release id _)
  take := fun id => ordinaryCall_segment fun s => ordinary_take t id s
  takeNext := fun scope readStates outgoing => ordinaryCall_segment fun s =>
    ordinary_takeNext t scope readStates outgoing s
  listed := fun commands readStates => ordinaryCall_segment fun s => Ordinary.log (by trivial) s

section Kept

variable {s s' : Fields}

theorem Ordinary.grow (h : Ordinary s s') : scopeDiscipline.grow s s' := by
  obtain ⟨hr, new, ht, -⟩ := h
  exact ⟨⟨new, ht.symm⟩, hr ▸ List.suffix_refl _⟩

/-- An ordinary step is nobody's call and begins nobody's recovery. -/
theorem Ordinary.own (h : Ordinary s s') (t : Tid) : scopeDiscipline.own t s s' := by
  obtain ⟨-, new, ht, hnew⟩ := h
  intro event hof hmem
  rw [ht] at hmem
  rcases List.mem_append.mp hmem with hmem | hmem
  · have hordinary := hnew event hmem
    cases event <;> first | exact hof.elim | exact hordinary.elim
  · exact hmem

/-- An ordinary step keeps what holds of recoveries. -/
theorem Ordinary.keeps (h : Ordinary s s') (hi : ScopeInv s) (t : Tid) :
    scopeDiscipline.Keeps t s s' := by
  have hg := h.grow
  refine ⟨⟨?_, ?_, ?_⟩, hg, fun u _ => h.own u⟩
  · intro u scope n hmem
    exact hg.1.subset (hi.called u scope n (h.own u _ rfl hmem))
  · intro n scope scope' hs hs'
    exact hi.once n scope scope' (h.own n _ rfl hs) (h.own n _ rfl hs')
  · intro n hn
    rw [h.1] at hn
    obtain ⟨scope, hbegun, hall⟩ := hi.recovered n hn
    exact ⟨scope, hg.1.subset hbegun, hall.grow hg.1⟩

end Kept

/-- What neither the other threads nor ordinary steps undo. -/
def Lasting (t : Tid) (K : Fields → Prop) : Prop :=
  ∀ s s', K s → scopeDiscipline.grow s s' → scopeDiscipline.own t s s' → K s'

section Safety

variable {t : Tid}

/-- How calls run while sessions come and go, under the condition. -/
abbrev execJoined : Tid → (e : Call) → Fields → e.Answer → Fields → Prop :=
  (sessions.restrict JoinsOwn).exec

theorem Lasting.and {K L : Fields → Prop} (hK : Lasting t K) (hL : Lasting t L) :
    Lasting t fun s => K s ∧ L s :=
  fun s s' hs hg ho => ⟨hK s s' hs.1 hg ho, hL s s' hs.2 hg ho⟩

theorem lasting_mem (event : Event) : Lasting t fun s => event ∈ s.trace :=
  fun _ _ hs hg _ => hg.1.subset hs

theorem lasting_handled (n : Tid) (readStates : List ChatReadState) (outgoing : OutgoingCommand) :
    Lasting t (Handled n readStates outgoing) :=
  fun _ _ hs hg _ => hs.grow hg.1

theorem lasting_recovered (n : Tid) (scope : ScopeRef) : Lasting t (Recovered n scope) :=
  fun _ _ hs hg _ => hs.grow hg.1

/-- The thread awaits recovery `n` and no other. -/
def Awaits (t n : Tid) (s : Fields) : Prop :=
  ∀ scope m, .called t scope m ∈ s.trace → m = n

theorem lasting_awaits (n : Tid) : Lasting t (Awaits t n) :=
  fun _ _ hs _ ho scope m hmem => hs scope m (ho _ rfl hmem)

theorem lasting_idle : Lasting t (scopeDiscipline.idle t) :=
  fun _ _ hs hg ho => scopeDiscipline.idle_drift hs hg ho

/-- Ordinary programs keep what is lasting. -/
theorem safe_of_calls {K : Fields → Prop} (hK : Lasting t K)
    {α : Type} {p : Async α} (hp : Prog.Calls OrdinaryCall p) {s : Fields} (h : K s)
    (hi : ScopeInv s) :
    scopeDiscipline.Safe execJoined t p (fun _ s' => K s' ∧ ScopeInv s')
      (fun _ s' => K s' ∧ ScopeInv s') s := by
  refine Safe.of_calls (fun s s' hs hd => hK s s' hs hd.grow hd.own) ?_ hp h hi
  rintro e s r s' he hi hs ⟨hx, -⟩
  have hstep := he t s r s' hx
  exact ⟨hstep.keeps hi t, hK s s' hs hstep.grow (hstep.own t)⟩

/-- One ordinary segment whose effect on the trace matters. -/
theorem safe_segment {α : Type} {f : Fields → α × Fields} {Q : α → Fields → Prop}
    {Z : JsError → Fields → Prop} (hf : ∀ s, Ordinary s (f s).2) {s : Fields}
    (hQ : ∀ s₁, scopeDiscipline.Drift t s s₁ → ScopeInv (f s₁).2 → Q (f s₁).1 (f s₁).2) :
    scopeDiscipline.Safe execJoined t (segment none f : Async α) Q Z s := by
  rintro s₁ hd r s₂ ⟨⟨rfl, rfl⟩, -⟩
  have hkeeps := (hf s₁).keeps hd.inv t
  exact ⟨hkeeps, hQ s₁ hd hkeeps.inv⟩

/-- **The loop looks up every command it does not skip.** -/
theorem safe_recoverEach (scope : ScopeRef) (readStates : List ChatReadState)
    (commands : List OutgoingCommand) {K : Fields → Prop} (hK : Lasting t K) {s : Fields}
    (h : K s) (hi : ScopeInv s) :
    scopeDiscipline.Safe execJoined t (recoverEach t scope readStates commands)
      (fun _ s' => (K s' ∧ ∀ c ∈ commands, Handled t readStates c s') ∧ ScopeInv s')
      (fun _ s' => K s' ∧ ScopeInv s') s := by
  induction commands generalizing K s with
  | nil => exact ⟨⟨h, fun c hc => by cases hc⟩, hi⟩
  | cons outgoing rest ih =>
      -- from here on the head counts as handled
      have hhead := hK.and (lasting_handled (t := t) t readStates outgoing)
      have hrest : ∀ s, (K s ∧ Handled t readStates outgoing s) → ScopeInv s →
          scopeDiscipline.Safe execJoined t (recoverEach t scope readStates rest)
            (fun _ s' => (K s' ∧ ∀ c ∈ outgoing :: rest, Handled t readStates c s') ∧ ScopeInv s')
            (fun _ s' => K s' ∧ ScopeInv s') s := by
        intro s hs hi
        refine Safe.mono (ih hhead hs hi) ?_ ?_
        · rintro _ s' ⟨⟨⟨hk, hdone⟩, hall⟩, hi'⟩
          refine ⟨⟨hk, fun c hc => ?_⟩, hi'⟩
          rcases List.mem_cons.mp hc with rfl | hc
          · exact hdone
          · exact hall c hc
        · rintro _ s' ⟨hs', hi'⟩
          exact ⟨hs'.1, hi'⟩
      unfold recoverEach
      refine Safe.bind (safe_segment (ordinary_takeNext t scope readStates outgoing) ?_)
      intro s₁ hd hi₂
      have hstep := ordinary_takeNext t scope readStates outgoing s₁
      have hk : K ((s₁.takeNext t scope readStates outgoing).2) :=
        hK _ _ (hK s s₁ h hd.grow hd.own) hstep.grow (hstep.own t)
      unfold Fields.takeNext at hk hi₂ ⊢
      split
      · rename_i hc
        rw [hc] at hk hi₂
        exact ⟨hk, hi₂⟩
      · rename_i hc
        rw [hc] at hk hi₂
        simp only at hk hi₂ ⊢
        split
        · rename_i hskip
          rw [if_pos hskip] at hk hi₂
          exact hrest _ ⟨hk, .inr ⟨s₁.inFlight, List.mem_cons_self, hskip⟩⟩ hi₂
        · rename_i hskip
          rw [if_neg hskip] at hk hi₂
          change scopeDiscipline.Safe execJoined t
            (Prog.attempt (recoverTaken t scope outgoing (some t)) >>= fun _ => _) _ _ _
          refine Safe.bind (Safe.attempt (Safe.mono (safe_of_calls hhead
            ((covers_ordinaryCall t).recoverTaken scope outgoing _)
            ⟨hk, .inl List.mem_cons_self⟩ hi₂) ?_ ?_))
          · rintro accepted s' ⟨hs', hi'⟩
            exact hrest s' hs' hi'
          · rintro x s' ⟨hs', hi'⟩
            refine Safe.bind (Safe.mono (safe_of_calls hhead
              ((coversQuiet_ordinaryCall t).reads _) hs' hi') ?_ ?_)
            · rintro _ s'' ⟨hs'', hi''⟩
              exact hrest s'' hs'' hi''
            · rintro _ s'' ⟨hs'', hi''⟩
              exact ⟨hs''.1, hi''⟩

/-- What the inbox answers when asked for the commands to recover. -/
theorem safe_getOutgoingToRecover (scope : InboxScope) {K : Fields → Prop} (hK : Lasting t K)
    {s : Fields} (h : K s) :
    scopeDiscipline.Safe execJoined t (await (.getOutgoingToRecover scope))
      (fun (commands : List OutgoingCommand) s' =>
        (K s' ∧ .toRecover scope commands ∈ s'.trace) ∧ ScopeInv s')
      (fun _ s' => K s' ∧ ScopeInv s') s := by
  rintro s₁ hd r s₂ ⟨hx, -⟩
  have hx : settles (.getOutgoingToRecover scope) s₁ r s₂ := hx
  have hstep := ordinary_settles hx
  have hkeeps := hstep.keeps hd.inv t
  have hk : K s₂ := hK _ _ (hK s s₁ h hd.grow hd.own) hstep.grow (hstep.own t)
  refine ⟨hkeeps, ?_⟩
  obtain ⟨s', hstores, rfl⟩ := hx
  cases r with
  | ok commands => exact ⟨⟨hk, List.mem_cons_self⟩, hkeeps.inv⟩
  | error x => exact ⟨hk, hkeeps.inv⟩

/-- A recovery that succeeds has been through all commands of its scope. -/
theorem safe_recovery (scope : ScopeRef) {K : Fields → Prop} (hK : Lasting t K) {s : Fields}
    (h : K s) (hi : ScopeInv s) :
    scopeDiscipline.Safe execJoined t (recovery t scope)
      (fun _ s' => (K s' ∧ Recovered t scope s') ∧ ScopeInv s')
      (fun _ s' => K s' ∧ ScopeInv s') s := by
  unfold recovery
  refine Safe.bind (Safe.mono (safe_of_calls hK ((covers_ordinaryCall t).await _) h hi) ?_
    fun _ _ hs => hs)
  rintro readStates s₁ ⟨h₁, hi₁⟩
  refine Safe.bind (Safe.mono (safe_getOutgoingToRecover scope.scope hK h₁) ?_ fun _ _ hs => hs)
  rintro commands s₂ ⟨h₂, hi₂⟩
  have hto := hK.and (lasting_mem (t := t) (.toRecover scope.scope commands))
  refine Safe.bind (safe_segment (fun s => Ordinary.log (by trivial) s) ?_)
  intro s₃ hd₃ hi₄
  have hlog : Ordinary s₃ (s₃.log (.listed t commands readStates)) := Ordinary.log (by trivial) s₃
  have h₄ := hto _ _ (hto _ _ h₂ hd₃.grow hd₃.own) hlog.grow (hlog.own t)
  refine Safe.bind (Safe.mono (safe_recoverEach scope readStates commands
    (hto.and (lasting_mem (.listed t commands readStates))) ⟨h₄, .head _⟩ hi₄) ?_ ?_)
  · rintro _ s₅ ⟨⟨⟨⟨h₅, hto₅⟩, hlisted₅⟩, hall⟩, hi₅⟩
    refine Safe.mono (safe_of_calls (hK.and (lasting_recovered t scope))
      (p := do
        let changes ← segment none fun s => ((s.changes t).values, s)
        publishOutgoing changes scope)
      (.bind (calls_segment ((coversQuiet_ordinaryCall t).read _)) fun changes =>
        (coversQuiet_ordinaryCall t).publishOutgoing changes scope)
      ⟨h₅, commands, readStates, hto₅, hlisted₅, hall⟩ hi₅) ?_ ?_
    · exact fun _ _ hs => hs
    · exact fun _ s' hs => ⟨hs.1.1, hs.2⟩
  · rintro _ s₅ ⟨hs₅, hi₅⟩
    exact ⟨hs₅.1.1, hi₅⟩

/-- Which recovery a call awaits from here on. -/
def Target (t : Tid) (s : Fields) : Except JsError (Tid ⊕ ScopeRef) → Prop
  | .error _ => scopeDiscipline.idle t s
  | .ok (.inl running) => Awaits t running s
  | .ok (.inr scope) => Awaits t t s ∧ .recovers t scope ∈ s.trace

/-- The segment that joins a recovery. -/
theorem keeps_join {running : Tid} {s : Fields} (hi : ScopeInv s)
    (hidle : scopeDiscipline.idle t s)
    (hjoins : ∀ scope, s.current = some scope → .recovers running scope ∈ s.trace) :
    scopeDiscipline.Keeps t s (s.log (.called t s.current running)) ∧
      Awaits t running (s.log (.called t s.current running)) := by
  have hg : scopeDiscipline.grow s (s.log (.called t s.current running)) :=
    ⟨List.suffix_cons _ _, List.suffix_refl _⟩
  have hrecovers : ∀ n scope, .recovers n scope ∈ (s.log (.called t s.current running)).trace →
      .recovers n scope ∈ s.trace := by
    intro n scope hmem
    simpa [Fields.log] using hmem
  refine ⟨⟨⟨?_, ?_, ?_⟩, hg, ?_⟩, ?_⟩
  · intro u scope n hmem
    rcases List.mem_cons.mp hmem with he | hmem
    · simp only [Event.called.injEq] at he
      obtain ⟨-, hcurrent, rfl⟩ := he
      exact .tail _ (hjoins scope hcurrent.symm)
    · exact .tail _ (hi.called u scope n hmem)
  · intro n scope scope' h h'
    exact hi.once n scope scope' (hrecovers n scope h) (hrecovers n scope' h')
  · intro n hn
    obtain ⟨scope, hbegun, hall⟩ := hi.recovered n hn
    exact ⟨scope, .tail _ hbegun, hall.grow hg.1⟩
  · intro u hu event hof hmem
    rcases List.mem_cons.mp hmem with rfl | hmem
    · exact absurd (Eq.symm hof) hu
    · exact hmem
  · intro scope m hmem
    rcases List.mem_cons.mp hmem with he | hmem
    · cases he
      rfl
    · exact absurd hmem (hidle _ rfl)

/-- The segment that begins a recovery. -/
theorem keeps_begin {current : ScopeRef} {s : Fields} (hi : ScopeInv s)
    (hidle : scopeDiscipline.idle t s) :
    let s' := ({ s with recovering := some t }.log (.recovers t current)).log
      (.called t (some current) t)
    scopeDiscipline.Keeps t s s' ∧ Awaits t t s' ∧ .recovers t current ∈ s'.trace := by
  intro s'
  have hg : scopeDiscipline.grow s s' :=
    ⟨(List.suffix_cons _ _).trans (List.suffix_cons _ _), List.suffix_refl _⟩
  have hnew : ∀ event, event ∈ s'.trace →
      event = .called t (some current) t ∨ event = .recovers t current ∨ event ∈ s.trace := by
    intro event hmem
    simpa [s', Fields.log] using hmem
  have hrecovers : ∀ n scope, .recovers n scope ∈ s'.trace →
      (n = t ∧ scope = current) ∨ .recovers n scope ∈ s.trace := by
    intro n scope hmem
    rcases hnew _ hmem with he | he | hmem
    · cases he
    · cases he
      exact .inl ⟨rfl, rfl⟩
    · exact .inr hmem
  refine ⟨⟨⟨?_, ?_, ?_⟩, hg, ?_⟩, ?_, .tail _ (.head _)⟩
  · intro u scope n hmem
    rcases hnew _ hmem with he | he | hmem
    · cases he
      exact .tail _ (.head _)
    · cases he
    · exact hg.1.subset (hi.called u scope n hmem)
  · intro n scope scope' h h'
    rcases hrecovers n scope h with ⟨rfl, rfl⟩ | h₀
    · rcases hrecovers n scope' h' with ⟨-, rfl⟩ | h₀'
      · rfl
      · exact absurd h₀' (hidle _ rfl)
    · rcases hrecovers n scope' h' with ⟨rfl, rfl⟩ | h₀'
      · exact absurd h₀ (hidle _ rfl)
      · exact hi.once n scope scope' h₀ h₀'
  · intro n hn
    obtain ⟨scope, hbegun, hall⟩ := hi.recovered n hn
    exact ⟨scope, hg.1.subset hbegun, hall.grow hg.1⟩
  · intro u hu event hof hmem
    rcases hnew _ hmem with rfl | rfl | hmem
    · exact absurd (Eq.symm hof) hu
    · exact absurd (Eq.symm hof) hu
    · exact hmem
  · intro scope m hmem
    rcases hnew _ hmem with he | he | hmem
    · cases he
      rfl
    · cases he
    · exact absurd hmem (hidle _ rfl)

/-- The segment that joins a recovery or begins one. -/
theorem keeps_joinOrBegin {s : Fields} (hi : ScopeInv s) (hidle : scopeDiscipline.idle t s)
    (hjoins : ∀ n scope, s.recovering = some n → s.current = some scope →
      .recovers n scope ∈ s.trace) :
    scopeDiscipline.Keeps t s (s.joinOrBegin t).2 ∧
      Target t (s.joinOrBegin t).2 (s.joinOrBegin t).1 := by
  unfold Fields.joinOrBegin
  cases hrec : s.recovering with
  | some running => exact keeps_join hi hidle fun scope hc => hjoins running scope hrec hc
  | none =>
      have hbegin := fun current => @keeps_begin _ current _ hi hidle
      obtain ⟨db, current⟩ := s
      simp only at hrec hbegin ⊢
      cases current with
      | none => exact ⟨Keeps.refl hi, hidle⟩
      | some current => exact hbegin current

/-- The segment that ends a recovery. -/
theorem keeps_endRecovery {outcome : Except JsError Unit} {s : Fields} (hi : ScopeInv s)
    (hdone : outcome = .ok () → ∃ scope, .recovers t scope ∈ s.trace ∧ Recovered t scope s)
    (hawaits : Awaits t t s) :
    scopeDiscipline.Keeps t s (s.endRecovery t outcome) ∧
      Settled t (· = outcome) (s.endRecovery t outcome) := by
  have hstep : ScopeInv { s with
      recovering := none
      recoveries := (t, outcome) :: s.recoveries } := by
    refine ⟨hi.called, hi.once, fun n hn => ?_⟩
    rcases List.mem_cons.mp hn with he | hn
    · cases he
      exact hdone rfl
    · exact hi.recovered n hn
  have hpublish := ordinary_publishDeliveries { s with
      recovering := none
      recoveries := (t, outcome) :: s.recoveries }
  have hkeeps := hpublish.keeps hstep t
  refine ⟨⟨hkeeps.inv, ?_, hkeeps.own⟩, ?_⟩
  · exact ⟨hkeeps.grow.1, (List.suffix_cons _ _).trans hkeeps.grow.2⟩
  · intro scope n hmem
    obtain rfl := hawaits scope n (hpublish.own t _ rfl hmem)
    exact ⟨outcome, rfl, hkeeps.grow.2.subset List.mem_cons_self⟩

/-- The settled recovery of a call that awaits it. -/
theorem settled_of_awaits {n : Tid} {r : Except JsError Unit} {P : Except JsError Unit → Prop}
    {s : Fields} (h : Awaits t n s) (hr : (n, r) ∈ s.recoveries) (hP : P r) : Settled t P s := by
  intro scope m hmem
  obtain rfl := h scope m hmem
  exact ⟨r, hP, hr⟩

theorem settled_of_idle {P : Except JsError Unit → Prop} {s : Fields}
    (h : scopeDiscipline.idle t s) : Settled t P s :=
  fun _ _ hmem => absurd hmem (h _ rfl)

/-- `recoverOutgoing` respects the discipline. -/
theorem safe_recoverOutgoing {s : Fields} (hidle : scopeDiscipline.idle t s) :
    scopeDiscipline.Safe execJoined t (recoverOutgoing t) (fun _ s' => scopeDiscipline.done t s')
      (fun _ s' => scopeDiscipline.failed t s') s := by
  unfold recoverOutgoing
  refine Safe.bind ?_
  rintro s₁ hd r s₂ ⟨⟨rfl, rfl⟩, hok⟩
  obtain ⟨hkeeps, htarget⟩ := keeps_joinOrBegin hd.inv (scopeDiscipline.idle_drift hidle hd.grow
    hd.own) hok
  refine ⟨hkeeps, ?_⟩
  change scopeDiscipline.Safe execJoined t (Prog.ofExcept (s₁.joinOrBegin t).1 >>= _) _ _ _
  cases hr : (s₁.joinOrBegin t).1 with
  | error x =>
      rw [hr] at htarget
      exact settled_of_idle htarget
  | ok decision =>
      rw [hr] at htarget
      cases decision with
      | inl running =>
          rintro s₃ hd₃ r s₄ ⟨hx, -⟩
          obtain ⟨hmem, rfl⟩ : (running, r) ∈ s₃.recoveries ∧ s₄ = s₃ := hx
          have hawaits := lasting_awaits running _ _ htarget hd₃.grow hd₃.own
          refine ⟨Keeps.refl hd₃.inv, ?_⟩
          cases r with
          | ok u => exact settled_of_awaits hawaits hmem rfl
          | error x => exact settled_of_awaits hawaits hmem fun hx => by cases hx
      | inr scope =>
          change scopeDiscipline.Safe execJoined t
            (Prog.attempt (recovery t scope) >>= fun _ => _) _ _ _
          have hlasting := (lasting_awaits (t := t) t).and (lasting_mem (.recovers t scope))
          have hend : ∀ (outcome : Except JsError Unit) (s : Fields),
              Awaits t t s ∧ .recovers t scope ∈ s.trace →
              (outcome = .ok () → Recovered t scope s) →
              scopeDiscipline.Safe execJoined t (do
                segment none fun s => ((), s.endRecovery t outcome)
                Prog.ofExcept outcome : Async Unit) (fun _ s' => scopeDiscipline.done t s')
                (fun _ s' => scopeDiscipline.failed t s') s := by
            rintro outcome s h hall s₃ hd₃ r₃ s₄ ⟨⟨rfl, rfl⟩, -⟩
            obtain ⟨hawaits, hbegun⟩ := hlasting _ _ h hd₃.grow hd₃.own
            obtain ⟨hkeeps, hsettled⟩ := keeps_endRecovery hd₃.inv (fun ho =>
              ⟨scope, hbegun, (hall ho).grow hd₃.grow.1⟩) hawaits
            refine ⟨hkeeps, ?_⟩
            cases outcome with
            | ok u => exact hsettled
            | error x =>
                intro called n hmem
                obtain ⟨r, rfl, hr⟩ := hsettled called n hmem
                exact ⟨_, by simp, hr⟩
          refine Safe.bind (Safe.attempt (Safe.mono
            (safe_recovery scope hlasting htarget hkeeps.inv) ?_ ?_))
          · rintro _ s' ⟨⟨h', hall'⟩, -⟩
            exact hend (.ok ()) s' h' fun _ => hall'
          · rintro x s' ⟨h', -⟩
            exact hend (.error x) s' h' fun hx => by cases hx

/-- An operation that calls for no recovery. -/
theorem ends_ordinary {p : Async Unit} (hp : Prog.Calls OrdinaryCall p) {s : Fields}
    (hi : ScopeInv s) (hidle : scopeDiscipline.idle t s) :
    scopeDiscipline.Ends (sessions.restrict JoinsOwn) t p s := by
  refine Safe.mono (safe_of_calls lasting_idle hp hidle hi) ?_ ?_
  · exact fun _ _ hs => settled_of_idle hs.1
  · exact fun _ _ hs => settled_of_idle hs.1

end Safety

theorem ends_prog (t : Tid) (op : Op) {s : Fields} (hi : ScopeInv s)
    (hidle : scopeDiscipline.idle t s) :
    scopeDiscipline.Ends (sessions.restrict JoinsOwn) t (op.prog t) s := by
  cases op with
  | sendText chatId content clientMessageId created =>
      exact ends_ordinary (.bind (f := fun _ => Prog.ret ())
        ((covers_ordinaryCall t).sendText _ _ _ _) fun _ => trivial) hi hidle
  | retryOutgoing clientMessageId =>
      exact ends_ordinary ((covers_ordinaryCall t).retryOutgoing clientMessageId) hi hidle
  | recoverOutgoing => exact safe_recoverOutgoing hidle
  | accepted message =>
      exact ends_ordinary ((coversQuiet_ordinaryCall t).handleAccepted message) hi hidle
  | delivered receipt =>
      exact ends_ordinary ((coversQuiet_ordinaryCall t).handleDeliveryReceipt receipt) hi hidle

theorem ordinary_signs {s s' : Fields} (h : s.signs s') : Ordinary s s' := by
  rcases h with rfl | ⟨scope, rfl⟩
  · exact .of_trace rfl rfl
  · exact .of_trace rfl rfl

/-- The manager keeps the discipline while sessions come and go. -/
theorem scopes_respected : scopeDiscipline.Respected (sessions.restrict JoinsOwn) where
  start := by
    rintro t op s s' hi hidle rfl
    exact ⟨Keeps.refl hi, ends_prog t op hi hidle⟩
  stop := fun _ _ _ _ h => h.elim
  env := fun s s' hi h t => ⟨(ordinary_signs h).keeps hi t, (ordinary_signs h).own t⟩

theorem Fields.New.scopeInv {s : Fields} (h : s.New) :
    ScopeInv s ∧ ∀ t, scopeDiscipline.idle t s := by
  refine ⟨⟨?_, ?_, ?_⟩, ?_⟩
  · intro t scope n hmem
    rw [h.trace] at hmem
    cases hmem
  · intro n scope scope' hmem
    rw [h.trace] at hmem
    cases hmem
  · intro n hn
    rw [h.recoveries] at hn
    cases hn
  · intro t event _ hmem
    rw [h.trace] at hmem
    cases hmem

/-- **Main result.**  As long as `recoverOutgoing` is only called while no
recovery of another scope is running, a call made under a scope awaits a
recovery of that scope; it resolves or rejects as that recovery did; and a
recovery that succeeded has looked up every command the inbox returned for the
scope that its rules do not skip. -/
theorem recoveries_keep_their_scope {p : Pool Call Call.Answer JsError Fields}
    (hp : System.Reachable (sessions.restrict JoinsOwn) Fields.New p) {t n : Tid}
    {scope : ScopeRef} (h : .called t (some scope) n ∈ p.shared.trace) :
    (∀ scope', .recovers n scope' ∈ p.shared.trace ↔ scope' = scope) ∧
      ((n, .ok ()) ∈ p.shared.recoveries → Recovered n scope p.shared) ∧
      (p.threads t = some (.ret ()) → (n, .ok ()) ∈ p.shared.recoveries) ∧
      (∀ x, p.threads t = some (.throw x) →
        ∃ r, r ≠ .ok () ∧ (n, r) ∈ p.shared.recoveries) := by
  have hholds := sound scopes_respected (fun s hs => hs.scopeInv) hp
  have hbegun := hholds.inv.called t scope n h
  refine ⟨fun scope' => ⟨fun h' => ?_, fun h' => ?_⟩, fun hok => ?_, fun hret => ?_,
    fun x hthrow => ?_⟩
  · exact hholds.inv.once n scope' scope h' hbegun
  · exact h' ▸ hbegun
  · obtain ⟨scope', hbegun', hall⟩ := hholds.inv.recovered n hok
    exact hholds.inv.once n scope' scope hbegun' hbegun ▸ hall
  · obtain ⟨r, rfl, hr⟩ := hholds.safe t _ hret (some scope) n h
    exact hr
  · exact hholds.safe t _ hthrow (some scope) n h

/-- The scopes of two sessions of one device. -/
def firstScope : ScopeRef := ⟨⟨"alice", "a1000000-0000-4000-8000-000000000001", "g1"⟩, 0⟩

def secondScope : ScopeRef := ⟨⟨"alice", "a1000000-0000-4000-8000-000000000001", "g2"⟩, 1⟩

/-- A command without envelopes that has not been accepted. -/
def unsentCommand : OutgoingCommand := ⟨⟨"c1", "k1", []⟩, none, none⟩

/-- An inbox with one command of the second session to recover. -/
def unsentInbox : Database where
  identity := some ⟨"a1000000-0000-4000-8000-000000000001", "Phone", "g2"⟩
  outgoing := [{ record (scopeKey secondScope.scope) "k1" unsentCommand with
    pending := some (scopeKey secondScope.scope) }]

/-- A manager of the first session. -/
def firstSession : Fields := { db := unsentInbox, current := some firstScope }

theorem validate_unsentInbox : validate secondScope.scope unsentInbox = .ok () :=
  if_pos (by decide)

theorem toRecover_unsentInbox :
    Client.getOutgoingToRecover secondScope.scope unsentInbox =
      .ok ([unsentCommand], unsentInbox) := by
  unfold getOutgoingToRecover
  rw [validate_unsentInbox]
  simp [unsentInbox, record]

theorem readStates_unsentInbox :
    Client.readChatReadStates secondScope.scope unsentInbox = .ok ([], unsentInbox) := by
  unfold readChatReadStates
  rw [validate_unsentInbox]
  rfl

/-- After a change of the session a recovery runs through; the lookup of its
command fails. -/
theorem reachable_recovered :
    ∃ p, System.Reachable (sessions.restrict JoinsOwn) Fields.New p ∧
      .called 0 (some secondScope) 0 ∈ p.shared.trace ∧ p.threads 0 = some (.ret ()) := by
  have h : System.Reachable (sessions.restrict JoinsOwn) Fields.New (System.idle firstSession) :=
    System.Reachable.idle ⟨rfl, rfl, rfl, rfl, rfl, rfl, rfl⟩
  have h := h.step (m := .env) (.env (Or.inr ⟨secondScope.scope, rfl⟩))
  have h := h.starts 0 .recoverOutgoing rfl rfl
  have h := h.acts 0 rfl _ ⟨⟨rfl, rfl⟩, fun n scope h => by cases h⟩
  have h := h.acts 0 rfl (.ok [])
    ⟨⟨unsentInbox, rfl, .inl (.inl ⟨[], readStates_unsentInbox, rfl⟩)⟩, trivial⟩
  have h := h.acts 0 rfl (.ok [unsentCommand])
    ⟨⟨_, ⟨unsentInbox, rfl, .inl (.inl ⟨[unsentCommand], toRecover_unsentInbox, rfl⟩)⟩, rfl⟩,
      trivial⟩
  have h := h.acts 0 rfl _ ⟨⟨rfl, rfl⟩, trivial⟩
  have h := h.acts 0 rfl _ ⟨⟨rfl, rfl⟩, trivial⟩
  have h := h.acts 0 rfl (.error (.error "Network error.")) ⟨rfl, trivial⟩
  have h := h.acts 0 rfl _ ⟨⟨rfl, rfl⟩, trivial⟩
  have h := h.acts 0 rfl _ ⟨⟨rfl, rfl⟩, trivial⟩
  have h := h.acts 0 rfl _ ⟨⟨rfl, rfl⟩, trivial⟩
  have h := h.acts 0 rfl _ ⟨⟨rfl, rfl⟩, trivial⟩
  have h := h.acts 0 rfl _ ⟨⟨rfl, rfl⟩, trivial⟩
  have h := h.acts 0 rfl _ ⟨⟨rfl, rfl⟩, trivial⟩
  exact ⟨_, h, .tail _ (.tail _ (.tail _ (.head _))), rfl⟩

theorem recoveries_keep_their_scope_recovered :
    ∃ p, System.Reachable (sessions.restrict JoinsOwn) Fields.New p ∧
      .called 0 (some secondScope) 0 ∈ p.shared.trace ∧ Recovered 0 secondScope p.shared := by
  obtain ⟨p, hp, hcalled, hret⟩ := reachable_recovered
  obtain ⟨-, hrecovered, hresolved, -⟩ := recoveries_keep_their_scope hp hcalled
  exact ⟨p, hp, hcalled, hrecovered (hresolved hret)⟩

/-- A call made under the second scope joins the recovery of the first, and
rejects when that recovery does. -/
theorem recovery_joins_another_scope :
    ∃ p, System.Reachable sessions Fields.New p ∧
      .called 1 (some secondScope) 0 ∈ p.shared.trace ∧
      .recovers 0 firstScope ∈ p.shared.trace ∧
      (∃ x, p.threads 1 = some (.throw x)) ∧
      ∀ n, .recovers n secondScope ∉ p.shared.trace := by
  have h : System.Reachable sessions Fields.New (System.idle firstSession) :=
    System.Reachable.idle ⟨rfl, rfl, rfl, rfl, rfl, rfl, rfl⟩
  have h := h.starts 0 .recoverOutgoing rfl rfl
  have h := h.acts 0 rfl _ ⟨rfl, rfl⟩
  have h := h.step (m := .env) (.env (Or.inr ⟨secondScope.scope, rfl⟩))
  have h := h.starts 1 .recoverOutgoing rfl rfl
  have h := h.acts 1 rfl _ ⟨rfl, rfl⟩
  have h := h.acts 0 rfl (.error (.error "AbortError"))
    ⟨unsentInbox, rfl, .inr ⟨rfl, "AbortError", rfl⟩⟩
  have h := h.acts 0 rfl _ ⟨rfl, rfl⟩
  have h := h.acts 1 rfl (.error (.error "AbortError")) ⟨.head _, rfl⟩
  refine ⟨_, h, .head _, .tail _ (.tail _ (.head _)), ⟨_, rfl⟩, ?_⟩
  intro n hmem
  have hmem : Event.recovers n secondScope ∈ [Event.called 1 (some secondScope) 0,
    .called 0 (some firstScope) 0, .recovers 0 firstScope] := hmem
  simp [secondScope, firstScope] at hmem

end Outgoing
end Client
end SecureMessenger
