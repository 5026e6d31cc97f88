import SecureMessenger.Client.ChatRuns
import SecureMessenger.Client.IndexedQueues
import SecureMessenger.Client.ShownStatus

/-!
# Displayed statuses catch up

As long as no update comes between the snapshot and the display of a message
that is not shown yet, the displayed statuses catch up with the stored ones.
-/

namespace SecureMessenger
namespace Client
namespace Shown

open Lib
open Lib.Discipline

section Programs

/-! ### The operations -/

/-- The page and the copy of a thread. -/
def Has (t : Tid) (held : Option (HistoryLoad × ChatHistoryPage)) (owed : Option SentMessage)
    (m : Memory) : Prop :=
  m.held t = held ∧ m.owed t = owed

/-- The invariant; a thread holds pages and owes updates of its own. -/
def statuses (chatOf : String → String) (ref : ScopeRef) : Discipline Memory where
  inv := Inv chatOf ref
  grow m m' := m.view.fresh ≤ m'.view.fresh
  own t m m' := m'.held t = m.held t ∧ m'.owed t = m.owed t
  idle t := Has t none none
  done t := Has t none none
  failed t := Has t none none
  grow_refl _ := le_rfl
  grow_trans h h' := h.trans h'
  own_refl _ _ := ⟨rfl, rfl⟩
  own_trans h h' := ⟨h'.1.trans h.1, h'.2.trans h.2⟩
  idle_drift h _ ho := ⟨ho.1.trans h.1, ho.2.trans h.2⟩
  done_drift h _ ho := ⟨ho.1.trans h.1, ho.2.trans h.2⟩
  failed_drift h _ ho := ⟨ho.1.trans h.1, ho.2.trans h.2⟩

variable {has : MessengerMethods} {chatOf : String → String} {ref : ScopeRef} {t : Tid}
  {α : Type} {held : Option (HistoryLoad × ChatHistoryPage)} {owed : Option SentMessage}
  {K : Memory → Prop} {m m' : Memory}

end Programs

section Loads

variable {has : MessengerMethods} {chatOf : String → String} {ref : ScopeRef} {t : Tid}
  {α : Type} {load : HistoryLoad} {K : Memory → Prop} {m m' : Memory}

/-- What a function of the store does. -/
abbrev Keeping (has : MessengerMethods) (chatOf : String → String) (ref : ScopeRef) (t : Tid)
    (K : Memory → Prop) (p : Async α) (Q : α → Memory → Prop) (Z : JsError → Memory → Prop) :
    Prop :=
  Triple (statuses chatOf ref) ((session has chatOf).restrict (InTime ref.scope)).exec t K p Q Z

/-- What is done up to the `await` of a load keeps the invariant. -/
def Begins (chatOf : String → String) (ref : ScopeRef)
    (begin : ChatView → Option HistoryLoad × ChatView) : Prop :=
  ∀ m, Inv chatOf ref m → Inv chatOf ref { m with view := (begin m.view).2 } ∧
    m.view.fresh ≤ (begin m.view).2.fresh ∧
    ∀ load, (begin m.view).1 = some load → load.request < (begin m.view).2.fresh

end Loads

section Runs

variable {has : MessengerMethods} {chatOf : String → String} {ref : ScopeRef}

/-- A run of the chat store has begun in a session: nothing is shown yet, and
nothing is being sent or recovered. -/
structure Memory.Opened (chatOf : String → String) (ref : ScopeRef) (m : Memory) : Prop where
  run : m.view.current = true
  shown : m.view.state.messagesByChat = .empty
  current : m.manager.current = some ref
  inFlight : m.manager.inFlight = []
  recovering : m.manager.recovering = none
  pendingDeliveries : m.manager.pendingDeliveries = .empty
  rows : OwnRows chatOf ref.scope m.manager.db
  held : ∀ t, m.held t = none
  owed : ∀ t, m.owed t = none

theorem Memory.Opened.inv {m : Memory} (h : m.Opened chatOf ref) : Inv chatOf ref m := by
  have hshown : ∀ c, m.view.shown c = [] := fun c => by
    rw [ChatView.shown, h.shown]
    rfl
  have hheld : ∀ {t load page}, m.held t ≠ some (load, page) := fun {t load page} hheld => by
    rw [h.held t] at hheld
    cases hheld
  have hnone : ∀ {c x}, x ∉ m.view.shown c := fun {c x} hx => by
    rw [hshown c] at hx
    cases hx
  refine ⟨h.current, h.inFlight, h.recovering, h.pendingDeliveries, ⟨h.run, fun c => ?_,
    fun c hc => ?_⟩, h.rows, fun t load page hpage => absurd hpage hheld,
    fun r a hr c x hx => absurd hx hnone, fun r a hr => .inl ⟨fun c x hx => absurd hx hnone,
      fun t load page hpage => absurd hpage hheld⟩⟩
  · rw [hshown c]
    exact List.nodup_nil
  · rw [h.shown] at hc
    cases hc

/-- No load is under way, and no receipt is being handled. -/
def Settled (p : Pool Call Call.Answer JsError Memory) : Prop :=
  ∀ t q, p.threads t = some q → q = .ret () ∨ ∃ x, q = .throw x

end Runs

section Crossing

/-! ## A receipt that crosses a page -/

end Crossing

end Shown
end Client
end SecureMessenger
