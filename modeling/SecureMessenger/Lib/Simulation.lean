import SecureMessenger.Lib.Halting

/-!
# Simulations

One system simulates another if it can follow each of its steps, seen through
`view`; the environment may also move the first without moving the second.
Threads run the same programs, so what holds of all runs of the second system
holds of all runs of the first.
-/

namespace SecureMessenger
namespace Lib

universe u

variable {E : Type u} {R : E → Type} {X S S' Op : Type}

/-- Each step of `sys` is a step of `sys'`. -/
structure Simulation (sys : System E R X S Op) (init : S → Prop) (sys' : System E R X S' Op)
    (init' : S' → Prop) where
  view : S → S'
  /-- What holds in every reachable state of `sys`. -/
  inv : S → Prop
  first : ∀ s, init s → inv s ∧ init' (view s)
  prog : ∀ t op, sys'.prog t op = sys.prog t op
  exec : ∀ t e s r s', inv s → sys.exec t e s r s' → inv s' ∧ sys'.exec t e (view s) r (view s')
  start : ∀ t op s s', inv s → sys.start t op s s' → inv s' ∧ sys'.start t op (view s) (view s')
  stop : ∀ t s s', inv s → sys.stop t s s' → inv s' ∧ sys'.stop t (view s) (view s')
  env : ∀ s s', inv s → sys.env s s' → inv s' ∧
    (view s' = view s ∨ sys'.env (view s) (view s'))

namespace Simulation

variable {sys : System E R X S Op} {init : S → Prop} {sys' : System E R X S' Op}
  {init' : S' → Prop} (sim : Simulation sys init sys' init')

/-- A pool of the first system as one of the second. -/
def pool (p : Pool E R X S) : Pool E R X S' :=
  ⟨sim.view p.shared, p.threads⟩

/-- A step is followed by the same step, except that the environment may rest. -/
theorem step {p p' : Pool E R X S} {m : Move Op} (hinv : sim.inv p.shared)
    (h : System.Step sys m p p') : sim.inv p'.shared ∧
      (sim.pool p' = sim.pool p ∧ m = .env ∨ System.Step sys' m (sim.pool p) (sim.pool p')) := by
  cases h with
  | act ht hx =>
      obtain ⟨hinv', hx'⟩ := sim.exec _ _ _ _ _ hinv hx
      exact ⟨hinv', .inr (.act ht hx')⟩
  | unfold ht => exact ⟨hinv, .inr (.unfold ht)⟩
  | @start _ t op s' ht hs =>
      obtain ⟨hinv', hs'⟩ := sim.start _ _ _ _ hinv hs
      have hstep : System.Step sys' (.start t op) (sim.pool p)
          ⟨sim.view s', Function.update p.threads t (some (sys'.prog t op))⟩ := .start ht hs'
      rw [sim.prog] at hstep
      exact ⟨hinv', .inr hstep⟩
  | stop ht hs =>
      obtain ⟨hinv', hs'⟩ := sim.stop _ _ _ hinv hs
      exact ⟨hinv', .inr (.stop ht hs')⟩
  | env hs =>
      obtain ⟨hinv', hview | hs'⟩ := sim.env _ _ hinv hs
      · refine ⟨hinv', .inl ⟨?_, rfl⟩⟩
        simp only [pool, hview]
      · exact ⟨hinv', .inr (.env hs')⟩

theorem reachable {p : Pool E R X S} (hp : System.Reachable sys init p) :
    sim.inv p.shared ∧ System.Reachable sys' init' (sim.pool p) := by
  refine hp.induct (P := fun p => sim.inv p.shared ∧ System.Reachable sys' init' (sim.pool p))
    (fun s hs => ?_) fun p p' m _ ih hs => ?_
  · obtain ⟨hinv, hfirst⟩ := sim.first s hs
    exact ⟨hinv, System.Reachable.idle hfirst⟩
  · obtain ⟨hinv, ⟨hrest, -⟩ | hstep⟩ := sim.step ih.1 hs
    · rw [hrest]
      exact ⟨hinv, ih.2⟩
    · exact ⟨hinv, ih.2.step hstep⟩

/-- A run of the first system as one of the second. -/
def timeline (T : Timeline sys init) : Timeline sys' init' where
  pool n := sim.pool (T.pool n)
  first := (sim.reachable T.first).2
  next n := by
    rcases T.next n with hrest | ⟨m, hs⟩
    · rw [hrest]
      exact .inl rfl
    · obtain ⟨-, ⟨hrest, -⟩ | hstep⟩ := sim.step (sim.reachable (T.reachable n)).1 hs
      · exact .inl hrest
      · exact .inr ⟨m, hstep⟩

/-- The threads act in the second run when they act in the first. -/
theorem acts (T : Timeline sys init) {t : Tid} {n : Nat} (h : T.Acts t n) :
    (sim.timeline T).Acts t n := by
  obtain ⟨m, hm, hs⟩ := h
  obtain ⟨-, ⟨-, henv⟩ | hstep⟩ := sim.step (sim.reachable (T.reachable n)).1 hs
  · rcases hm with rfl | rfl <;> cases henv
  · exact ⟨m, hm, hstep⟩

end Simulation

end Lib
end SecureMessenger
