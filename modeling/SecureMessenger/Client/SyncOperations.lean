import SecureMessenger.Client.SyncContract

/-!
# The operations of SyncManager

What a tab can be asked to do with its inbox, and that each operation is safe
wherever its calls provide what `SyncContract` and `TabCalls` say.
-/

namespace SecureMessenger
namespace Client

open Lib
open Lib.Discipline

/-- What a tab can be asked to do. -/
inductive SyncOp
  | synchronize
  | ingest (envelope : MailboxEnvelope)
  | acknowledgePending

/-- The program of an operation. -/
def SyncOp.prog : SyncOp → Async Unit
  | .synchronize => do
      let _ ← Client.synchronize
      return ()
  | .ingest envelope => do
      let _ ← Client.ingest envelope
      return ()
  | .acknowledgePending => do
      let scope ← currentScope
      let _ ← Client.acknowledgePending scope []
      return ()

/-- What the calls around an operation provide: they keep the discipline, and
the tab is in the scope if it is signed in. -/
structure TabCalls {S : Type} (D : Discipline S)
    (exec : Tid → (c : Call) → S → c.Answer → S → Prop) (t : Tid) (scope : InboxScope) :
    Prop where
  on_scope : ∀ {s ref s'}, D.inv s → exec t (.memory fun m => (m.current, m)) s ref s' →
    D.Keeps t s s' ∧ ∀ r, ref = some r → r.scope = scope
  on_enqueue : ∀ {s place s'}, D.inv s → exec t .enqueue s place s' → D.Keeps t s s'
  on_turn : ∀ {s place u s'}, D.inv s → exec t (.turn place) s u s' → D.Keeps t s s'
  on_leave : ∀ {s place u s'}, D.inv s → exec t (.leave place) s u s' → D.Keeps t s s'

namespace TabCalls

variable {S : Type} {D : Discipline S} {exec : Tid → (c : Call) → S → c.Answer → S → Prop}
  {t : Tid} {scope : InboxScope}

theorem safe_currentScope (T : TabCalls D exec t scope) {α : Type} {f : ScopeRef → Async α}
    {Q : α → S → Prop} {s : S}
    (hf : ∀ ref s', ref.scope = scope → D.grow s s' → D.inv s' →
      D.Safe exec t (f ref) Q (fun _ _ => True) s') :
    D.Safe exec t (currentScope >>= f) Q (fun _ _ => True) s := by
  intro s₁ hd cur s₂ hx
  obtain ⟨hk, hcur⟩ := T.on_scope hd.inv hx
  refine ⟨hk, ?_⟩
  cases cur with
  | none => trivial
  | some ref => exact hf ref s₂ (hcur ref rfl) (D.grow_trans hd.grow hk.grow) hk.inv

theorem safe_enqueue (T : TabCalls D exec t scope) {α : Type} {op : Async α} {s : S}
    (hop : ∀ s', D.grow s s' → D.inv s' →
      D.Safe exec t op (fun _ _ => True) (fun _ _ => True) s') :
    D.Safe exec t (enqueue op) (fun _ _ => True) (fun _ _ => True) s := by
  intro s₁ hd place s₂ hx
  have hk := T.on_enqueue hd.inv hx
  refine ⟨hk, ?_⟩
  intro s₃ hd₃ u s₄ hx₃
  have hk₃ := T.on_turn hd₃.inv hx₃
  have hgrow : D.grow s s₄ :=
    D.grow_trans (D.grow_trans hd.grow hk.grow) (D.grow_trans hd₃.grow hk₃.grow)
  refine ⟨hk₃, Safe.bind (Safe.attempt ((hop s₄ hgrow hk₃.inv).mono ?_ ?_))⟩
  · intro a s₅ _ s₆ hd₆ u' s₇ hx₆
    exact ⟨T.on_leave hd₆.inv hx₆, trivial⟩
  · intro x s₅ _ s₆ hd₆ u' s₇ hx₆
    exact ⟨T.on_leave hd₆.inv hx₆, trivial⟩

/-- **Each operation keeps the discipline.** -/
theorem safe_operation (T : TabCalls D exec t scope)
    (C : ∀ ref : ScopeRef, ref.scope = scope → SyncContract D exec t ref)
    (htracked : ∀ ref href s, (C ref href).Tracked [] s)
    (hfailed : ∀ ref href s, (C ref href).Failed s) {s : S} (op : SyncOp)
    (hop : ∀ e, op = .ingest e → ∀ ref href, (C ref href).Served e s) :
    D.Safe exec t op.prog (fun _ _ => True) (fun _ _ => True) s := by
  cases op with
  | synchronize =>
      refine Safe.andThen (Q := fun _ _ => True) ?_ fun _ _ _ => trivial
      refine T.safe_currentScope fun ref s₁ href _ _ => T.safe_enqueue fun s₂ _ _ => ?_
      exact ((C ref href).safe_synchronizeQueued (htracked ref href s₂)).mono
        (fun _ _ _ => trivial) (fun _ _ _ => trivial)
  | ingest envelope =>
      refine Safe.andThen (Q := fun _ _ => True) ?_ fun _ _ _ => trivial
      refine T.safe_currentScope fun ref s₁ href hg₁ _ => T.safe_enqueue fun s₂ hg₂ _ => ?_
      have hserved : (C ref href).Served envelope s₂ :=
        (C ref href).served_grow (hop envelope rfl ref href) (D.grow_trans hg₁ hg₂)
      exact ((C ref href).safe_ingestQueued (htracked ref href s₂) hserved
        fun _ _ => hfailed ref href s₂).mono (fun _ _ _ => trivial) (fun _ _ _ => trivial)
  | acknowledgePending =>
      refine T.safe_currentScope fun ref s₁ href _ _ => ?_
      refine Safe.andThen (Q := fun _ _ => True) ?_ fun _ _ _ => trivial
      exact ((C ref href).safe_acknowledgePending (M := fun _ => False) (htracked ref href s₁)
        (by simp)).mono (fun _ _ _ => trivial) (fun _ _ _ => trivial)

end TabCalls

end Client
end SecureMessenger
