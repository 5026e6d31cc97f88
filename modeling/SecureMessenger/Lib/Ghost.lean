import SecureMessenger.Lib.Pool

/-!
# Ghost state

A system may be watched: its state is extended by something that records what
happens and that no step depends on.  Then each run is the run of a watched
system, and what holds of the watched runs holds of the runs.
-/

namespace SecureMessenger
namespace Lib

universe u

variable {E : Type u} {R : E → Type} {X S W Op : Type}

/-- The pool without the ghost state. -/
def Pool.forget (forget : W → S) (q : Pool E R X W) : Pool E R X S :=
  ⟨forget q.shared, q.threads⟩

/-- Each step of the system is a step of the watched one. -/
structure Ghost (sys : System E R X S Op) (watched : System E R X W Op) (forget : W → S) :
    Prop where
  prog : watched.prog = sys.prog
  exec : ∀ {t e w r s'}, sys.exec t e (forget w) r s' →
    ∃ w', watched.exec t e w r w' ∧ forget w' = s'
  start : ∀ {t op w s'}, sys.start t op (forget w) s' →
    ∃ w', watched.start t op w w' ∧ forget w' = s'
  stop : ∀ {t w s'}, sys.stop t (forget w) s' → ∃ w', watched.stop t w w' ∧ forget w' = s'
  env : ∀ {w s'}, sys.env (forget w) s' → ∃ w', watched.env w w' ∧ forget w' = s'

namespace Ghost

variable {sys : System E R X S Op} {watched : System E R X W Op} {forget : W → S}
  {p p' : Pool E R X S} {q : Pool E R X W} {m : Move Op}

theorem step (h : Ghost sys watched forget) (hq : q.forget forget = p)
    (hs : System.Step sys m p p') :
    ∃ q', System.Step watched m q q' ∧ q'.forget forget = p' := by
  subst hq
  cases hs with
  | act ht hx =>
      obtain ⟨w', hx', rfl⟩ := h.exec hx
      exact ⟨_, .act ht hx', rfl⟩
  | unfold ht => exact ⟨_, .unfold ht, rfl⟩
  | start ht hst =>
      obtain ⟨w', hst', rfl⟩ := h.start hst
      exact ⟨_, .start ht hst', by rw [h.prog]; rfl⟩
  | stop ht hst =>
      obtain ⟨w', hst', rfl⟩ := h.stop hst
      exact ⟨_, .stop ht hst', rfl⟩
  | env hst =>
      obtain ⟨w', hst', rfl⟩ := h.env hst
      exact ⟨_, .env hst', rfl⟩

theorem reaches (h : Ghost sys watched forget) (hq : q.forget forget = p)
    (hr : System.Reaches sys p p') :
    ∃ q', System.Reaches watched q q' ∧ q'.forget forget = p' := by
  induction hr with
  | refl => exact ⟨q, .refl, hq⟩
  | tail _ hn ih =>
      obtain ⟨m, hm⟩ := hn
      obtain ⟨q₁, hr₁, hq₁⟩ := ih
      obtain ⟨q₂, hs₂, hq₂⟩ := h.step hq₁ hm
      exact ⟨q₂, hr₁.tail ⟨m, hs₂⟩, hq₂⟩

/-- **Ghost state can be added.** -/
theorem reachable (h : Ghost sys watched forget) {init : S → Prop} {init' : W → Prop}
    (hinit : ∀ s, init s → ∃ w, init' w ∧ forget w = s) (hp : System.Reachable sys init p) :
    ∃ q, System.Reachable watched init' q ∧ q.forget forget = p := by
  obtain ⟨s, hs, hr⟩ := hp
  obtain ⟨w, hw, rfl⟩ := hinit s hs
  obtain ⟨q, hr', hq⟩ := h.reaches (q := System.idle w) rfl hr
  exact ⟨q, ⟨w, hw, hr'⟩, hq⟩

end Ghost

end Lib
end SecureMessenger
