import SecureMessenger.Lib.Prog
import Mathlib.Logic.Relation

/-!
# Pools of concurrent threads

A `System` gives the calls of `Prog` a meaning on a shared state and lists the
operations a new thread may run.  A `Pool` is a shared state together with the
threads that have been started.  One `Step` lets one thread perform one call
(or unfold one loop), starts a thread, stops one for good, or lets the
environment move the shared state.  Thread identifiers are never reused.
-/

namespace SecureMessenger
namespace Lib

universe u

/-- Thread identifiers. -/
abbrev Tid := Nat

/-- The meaning of the calls `E` on shared states `S`, and the operations
`Op` that threads run. -/
structure System (E : Type u) (R : E → Type) (X S Op : Type) where
  /-- `exec t e s r s'`: in state `s` thread `t` may perform call `e`, get the
  answer `r` and leave `s'`. -/
  exec : Tid → (e : E) → S → R e → S → Prop
  /-- The program of an operation. -/
  prog : Tid → Op → Prog E R X Unit
  /-- What starting an operation on a fresh thread does to the state. -/
  start : Tid → Op → S → S → Prop
  /-- What stopping a thread (a crash, a lost connection) does to the state. -/
  stop : Tid → S → S → Prop
  /-- Moves that belong to no thread. -/
  env : S → S → Prop

/-- A shared state and the threads started so far. -/
structure Pool (E : Type u) (R : E → Type) (X S : Type) where
  shared : S
  threads : Tid → Option (Prog E R X Unit)

/-- What a step is. -/
inductive Move (Op : Type)
  | act (t : Tid)
  | unfold (t : Tid)
  | start (t : Tid) (op : Op)
  | stop (t : Tid)
  | env

namespace System

variable {E : Type u} {R : E → Type} {X S Op : Type}

/-- A state in which nothing has been started yet. -/
def idle (s : S) : Pool E R X S :=
  ⟨s, fun _ => none⟩

/-- One step of the pool. -/
inductive Step (sys : System E R X S Op) :
    Move Op → Pool E R X S → Pool E R X S → Prop
  | act {p : Pool E R X S} {t : Tid} {e : E} {k : R e → Prog E R X Unit}
      {r : R e} {s' : S}
      (ht : p.threads t = some (.eff e k))
      (hx : sys.exec t e p.shared r s') :
      Step sys (.act t) p ⟨s', Function.update p.threads t (some (k r))⟩
  | unfold {p : Pool E R X S} {t : Tid} {σ β : Type} {l : σ}
      {body : σ → Prog E R X (σ ⊕ β)} {k : Except X β → Prog E R X Unit}
      (ht : p.threads t = some (.loop l body k)) :
      Step sys (.unfold t) p
        ⟨p.shared, Function.update p.threads t (some (.unroll l body k))⟩
  | start {p : Pool E R X S} {t : Tid} {op : Op} {s' : S}
      (ht : p.threads t = none)
      (hs : sys.start t op p.shared s') :
      Step sys (.start t op) p
        ⟨s', Function.update p.threads t (some (sys.prog t op))⟩
  | stop {p : Pool E R X S} {t : Tid} {q : Prog E R X Unit} {s' : S}
      (ht : p.threads t = some q)
      (hs : sys.stop t p.shared s') :
      Step sys (.stop t) p ⟨s', Function.update p.threads t (some (.ret ()))⟩
  | env {p : Pool E R X S} {s' : S}
      (hs : sys.env p.shared s') :
      Step sys .env p ⟨s', p.threads⟩

/-- Some step. -/
def Next (sys : System E R X S Op) (p p' : Pool E R X S) : Prop :=
  ∃ m, Step sys m p p'

/-- `p'` is reached from `p` by finitely many steps. -/
def Reaches (sys : System E R X S Op) : Pool E R X S → Pool E R X S → Prop :=
  Relation.ReflTransGen (Next sys)

/-- Pools reached from an idle pool whose state satisfies `init`. -/
def Reachable (sys : System E R X S Op) (init : S → Prop)
    (p : Pool E R X S) : Prop :=
  ∃ s, init s ∧ Reaches sys (idle s) p

theorem Reaches.step {sys : System E R X S Op} {p p' p'' : Pool E R X S} {m : Move Op}
    (hp : Reaches sys p p') (h : Step sys m p' p'') : Reaches sys p p'' :=
  Relation.ReflTransGen.tail hp ⟨m, h⟩

/-- Start an operation. -/
theorem Reaches.starts {sys : System E R X S Op} {p₀ p : Pool E R X S} (hp : Reaches sys p₀ p)
    (t : Tid) (op : Op) {s' : S} (ht : p.threads t = none) (hs : sys.start t op p.shared s') :
    Reaches sys p₀ ⟨s', Function.update p.threads t (some (sys.prog t op))⟩ :=
  hp.step (.start ht hs)

/-- Let a thread perform its next call with a given answer. -/
theorem Reaches.acts {sys : System E R X S Op} {p₀ p : Pool E R X S} (hp : Reaches sys p₀ p)
    (t : Tid) {e : E} {k : R e → Prog E R X Unit} (ht : p.threads t = some (.eff e k)) (r : R e)
    {s' : S} (hx : sys.exec t e p.shared r s') :
    Reaches sys p₀ ⟨s', Function.update p.threads t (some (k r))⟩ :=
  hp.step (.act ht hx)

theorem Reachable.idle {sys : System E R X S Op} {init : S → Prop} {s : S}
    (hs : init s) : Reachable sys init (System.idle s) :=
  ⟨s, hs, Relation.ReflTransGen.refl⟩

theorem Reachable.step {sys : System E R X S Op} {init : S → Prop}
    {p p' : Pool E R X S} {m : Move Op}
    (hp : Reachable sys init p) (h : Step sys m p p') :
    Reachable sys init p' := by
  obtain ⟨s, hs, hr⟩ := hp
  exact ⟨s, hs, hr.tail ⟨m, h⟩⟩

/-- Start an operation. -/
theorem Reachable.starts {sys : System E R X S Op} {init : S → Prop}
    {p : Pool E R X S} (hp : Reachable sys init p) (t : Tid) (op : Op) {s' : S}
    (ht : p.threads t = none) (hs : sys.start t op p.shared s') :
    Reachable sys init ⟨s', Function.update p.threads t (some (sys.prog t op))⟩ :=
  hp.step (.start ht hs)

/-- Let a thread perform its next call with a given answer. -/
theorem Reachable.acts {sys : System E R X S Op} {init : S → Prop}
    {p : Pool E R X S} (hp : Reachable sys init p) (t : Tid) {e : E}
    {k : R e → Prog E R X Unit} (ht : p.threads t = some (.eff e k)) (r : R e) {s' : S}
    (hx : sys.exec t e p.shared r s') :
    Reachable sys init ⟨s', Function.update p.threads t (some (k r))⟩ :=
  hp.step (.act ht hx)

theorem Reachable.trans {sys : System E R X S Op} {init : S → Prop}
    {p p' : Pool E R X S}
    (hp : Reachable sys init p) (h : Reaches sys p p') :
    Reachable sys init p' := by
  obtain ⟨s, hs, hr⟩ := hp
  exact ⟨s, hs, Relation.ReflTransGen.trans hr h⟩

/-- The runs from a reachable pool begin there. -/
theorem Reachable.onward {sys : System E R X S Op} {init : S → Prop} {p : Pool E R X S}
    (_ : Reachable sys init p) : Reaches sys p p :=
  Relation.ReflTransGen.refl

/-- Induction over the pools a system can reach. -/
theorem Reachable.induct {sys : System E R X S Op} {init : S → Prop}
    {P : Pool E R X S → Prop}
    (h0 : ∀ s, init s → P (System.idle s))
    (hstep : ∀ p p' m, Reachable sys init p → P p → Step sys m p p' → P p')
    {p : Pool E R X S} (hp : Reachable sys init p) : P p := by
  obtain ⟨s, hs, hr⟩ := hp
  induction hr with
  | refl => exact h0 s hs
  | tail hr' hn ih =>
      obtain ⟨m, hm⟩ := hn
      exact hstep _ _ m ⟨s, hs, hr'⟩ ih hm

/-- If after its first call every operation makes only calls `P`, a thread is
at the beginning of its operation or makes only calls `P`. -/
theorem Reachable.begun {sys : System E R X S Op} {init : S → Prop} {P : E → Prop}
    (hprog : ∀ t op, ∃ e k, sys.prog t op = .eff e k ∧ ∀ r, Prog.Calls P (k r))
    {p : Pool E R X S} (hp : Reachable sys init p) :
    ∀ t q, p.threads t = some q → (∃ op, q = sys.prog t op) ∨ Prog.Calls P q := by
  have hupdate : ∀ {p : Pool E R X S} {s' : S} {t : Tid} {q' : Prog E R X Unit},
      (∀ u q, p.threads u = some q → (∃ op, q = sys.prog u op) ∨ Prog.Calls P q) →
      (∃ op, q' = sys.prog t op) ∨ Prog.Calls P q' →
      ∀ u q, (⟨s', Function.update p.threads t (some q')⟩ : Pool E R X S).threads u = some q →
        (∃ op, q = sys.prog u op) ∨ Prog.Calls P q := by
    intro p s' t q' h hq' u q hu
    by_cases hut : u = t
    · subst hut
      simp only [Function.update_self, Option.some.injEq] at hu
      rw [← hu]
      exact hq'
    · simp only [Function.update_of_ne hut] at hu
      exact h u q hu
  refine hp.induct
    (P := fun p => ∀ t q, p.threads t = some q → (∃ op, q = sys.prog t op) ∨ Prog.Calls P q) ?_ ?_
  · intro s _ t q ht
    cases ht
  · intro p p' m _ ih hs
    cases hs with
    | act ht hx =>
        refine hupdate ih (.inr ?_)
        rcases ih _ _ ht with ⟨op, hop⟩ | hcalls
        · obtain ⟨e, k, hprog, hk⟩ := hprog _ op
          rw [hprog] at hop
          cases hop
          exact hk _
        · exact hcalls.2 _
    | unfold ht =>
        refine hupdate ih (.inr ?_)
        rcases ih _ _ ht with ⟨op, hop⟩ | hcalls
        · obtain ⟨e, k, hprog, hk⟩ := hprog _ op
          rw [hprog] at hop
          cases hop
        · exact Prog.Calls.unroll hcalls
    | start ht hst => exact hupdate ih (.inl ⟨_, rfl⟩)
    | stop ht hst => exact hupdate ih (.inr trivial)
    | env hst => exact ih

/-- An invariant that all calls of all operations keep. -/
theorem Reachable.invariant {sys : System E R X S Op} {init : S → Prop} {P : E → Prop}
    {I : S → Prop} (hprog : ∀ t op, Prog.Calls P (sys.prog t op)) (h0 : ∀ s, init s → I s)
    (hexec : ∀ t e s r s', P e → I s → sys.exec t e s r s' → I s')
    (hstart : ∀ t op s s', I s → sys.start t op s s' → I s')
    (hstop : ∀ t s s', I s → sys.stop t s s' → I s')
    (henv : ∀ s s', I s → sys.env s s' → I s')
    {p : Pool E R X S} (hp : Reachable sys init p) :
    I p.shared ∧ ∀ t q, p.threads t = some q → Prog.Calls P q := by
  have hupdate : ∀ {p : Pool E R X S} {s' : S} {t : Tid} {q' : Prog E R X Unit},
      (∀ u q, p.threads u = some q → Prog.Calls P q) → Prog.Calls P q' →
      ∀ u q, (⟨s', Function.update p.threads t (some q')⟩ : Pool E R X S).threads u = some q →
        Prog.Calls P q := by
    intro p s' t q' h hq' u q hu
    by_cases hut : u = t
    · subst hut
      simp only [Function.update_self, Option.some.injEq] at hu
      rw [← hu]
      exact hq'
    · simp only [Function.update_of_ne hut] at hu
      exact h u q hu
  refine hp.induct
    (P := fun p => I p.shared ∧ ∀ t q, p.threads t = some q → Prog.Calls P q) ?_ ?_
  · intro s hs
    refine ⟨h0 s hs, fun t q ht => ?_⟩
    cases ht
  · intro p p' m _ ih hs
    cases hs with
    | act ht hx =>
        have hcalls := ih.2 _ _ ht
        exact ⟨hexec _ _ _ _ _ hcalls.1 ih.1 hx, hupdate ih.2 (hcalls.2 _)⟩
    | unfold ht => exact ⟨ih.1, hupdate ih.2 (Prog.Calls.unroll (ih.2 _ _ ht))⟩
    | start ht hst => exact ⟨hstart _ _ _ _ ih.1 hst, hupdate ih.2 (hprog _ _)⟩
    | stop ht hst => exact ⟨hstop _ _ _ ih.1 hst, hupdate ih.2 trivial⟩
    | env hst => exact ⟨henv _ _ ih.1 hst, ih.2⟩

/-- Runs with what an observer sees: the observations after the steps that
change them. -/
inductive Shows {O : Type*} (sys : System E R X S Op) (obs : Pool E R X S → O) :
    Pool E R X S → List O → Pool E R X S → Prop
  | refl (p : Pool E R X S) : Shows sys obs p [] p
  | silent {p p' p'' : Pool E R X S} {l : List O} (hs : Next sys p p')
      (ho : obs p' = obs p) (h : Shows sys obs p' l p'') : Shows sys obs p l p''
  | shown {p p' p'' : Pool E R X S} {l : List O} (hs : Next sys p p')
      (ho : obs p' ≠ obs p) (h : Shows sys obs p' l p'') : Shows sys obs p (obs p' :: l) p''

/-- A simulation in which the right side may stay where it is shows the
observer the same. -/
theorem Shows.simulate {O : Type*} {sys : System E R X S Op} {obs : Pool E R X S → O}
    {B : Pool E R X S → Pool E R X S → Prop} (hobs : ∀ p q, B p q → obs p = obs q)
    (hstep : ∀ p q p', B p q → Next sys p p' →
      B p' q ∨ ∃ q', Next sys q q' ∧ B p' q')
    {p p' : Pool E R X S} {l : List O} (h : Shows sys obs p l p') :
    ∀ q, B p q → ∃ q', Shows sys obs q l q' ∧ B p' q' := by
  induction h with
  | refl p =>
      intro q hq
      exact ⟨q, .refl q, hq⟩
  | silent hs ho _ ih =>
      intro q hq
      rcases hstep _ q _ hq hs with hsim | ⟨q₁, hs₁, hsim⟩
      · exact ih q hsim
      · obtain ⟨q', hshow, hq'⟩ := ih q₁ hsim
        have ho₁ : obs q₁ = obs q := by
          rw [← hobs _ _ hsim, ← hobs _ _ hq, ho]
        exact ⟨q', .silent hs₁ ho₁ hshow, hq'⟩
  | shown hs ho _ ih =>
      intro q hq
      rcases hstep _ q _ hq hs with hsim | ⟨q₁, hs₁, hsim⟩
      · exact absurd ((hobs _ _ hsim).trans (hobs _ _ hq).symm) ho
      · obtain ⟨q', hshow, hq'⟩ := ih q₁ hsim
        have ho₁ : obs q₁ ≠ obs q := by
          rw [← hobs _ _ hsim, ← hobs _ _ hq]
          exact ho
        rw [hobs _ _ hsim]
        exact ⟨q', .shown hs₁ ho₁ hshow, hq'⟩

/-- The system whose calls are further limited by `ok`; its runs are the runs
of `sys` all of whose calls meet the condition `ok` before they happen. -/
def restrict (sys : System E R X S Op)
    (ok : Tid → (e : E) → S → R e → Prop) : System E R X S Op :=
  { sys with exec := fun t e s r s' => sys.exec t e s r s' ∧ ok t e s r }

end System

end Lib
end SecureMessenger
