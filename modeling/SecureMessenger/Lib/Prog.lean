import Mathlib.Logic.Function.Basic

/-!
# Programs with awaited calls

A thread of an asynchronous program is a tree.  An `eff` node performs one
call of a signature `E` and resumes with the call's answer; between two such
nodes the thread runs without interruption.  A `loop` node is a `while` loop:
its body returns either the next value of the loop variables or the result of
the loop, and an exception that leaves the body is handed to the
continuation.

Loops are nodes and not fuel-bounded unfoldings, so an unbounded loop of a
source program is embedded as it is.
-/

namespace SecureMessenger
namespace Lib

universe u

/-- Programs over the calls `E` (call `e` answers with a value of `R e`) that
may throw an `X`. -/
inductive Prog (E : Type u) (R : E → Type) (X : Type) :
    Type → Type (max 1 u)
  | ret {α : Type} (a : α) : Prog E R X α
  | throw {α : Type} (x : X) : Prog E R X α
  | eff {α : Type} (e : E) (k : R e → Prog E R X α) : Prog E R X α
  | loop {α σ β : Type} (l : σ)
      (body : σ → Prog E R X (σ ⊕ β))
      (k : Except X β → Prog E R X α) : Prog E R X α

namespace Prog

variable {E : Type u} {R : E → Type} {X : Type}

/-- Sequencing. -/
def bind {α β : Type} :
    Prog E R X α → (α → Prog E R X β) → Prog E R X β
  | ret a, f => f a
  | throw x, _ => throw x
  | eff e k, f => eff e (fun r => bind (k r) f)
  | loop l body k, f => loop l body (fun b => bind (k b) f)

instance : Monad (Prog E R X) where
  pure := ret
  bind := bind

@[simp] theorem pure_eq {α : Type} (a : α) :
    (pure a : Prog E R X α) = ret a := rfl

@[simp] theorem ret_bind {α β : Type} (a : α) (f : α → Prog E R X β) :
    ret a >>= f = f a := rfl

@[simp] theorem throw_bind {α β : Type} (x : X) (f : α → Prog E R X β) :
    (throw x : Prog E R X α) >>= f = throw x := rfl

@[simp] theorem eff_bind {α β : Type} (e : E) (k : R e → Prog E R X α)
    (f : α → Prog E R X β) :
    eff e k >>= f = eff e (fun r => k r >>= f) := rfl

@[simp] theorem loop_bind {α β σ γ : Type} (l : σ)
    (body : σ → Prog E R X (σ ⊕ γ)) (k : Except X γ → Prog E R X α)
    (f : α → Prog E R X β) :
    loop l body k >>= f = loop l body (fun b => k b >>= f) := rfl

theorem bind_assoc {α β γ : Type} (p : Prog E R X α) (f : α → Prog E R X β)
    (g : β → Prog E R X γ) : (p >>= f) >>= g = p >>= fun a => f a >>= g := by
  induction p with
  | ret a => rfl
  | throw x => rfl
  | eff e k ih =>
      simp only [eff_bind]
      congr 1
      funext r
      exact ih r f
  | loop l body k _ ih =>
      simp only [loop_bind]
      congr 1
      funext b
      exact ih b f

/-- Continue a finished computation, or rethrow. -/
def ofExcept {α : Type} : Except X α → Prog E R X α
  | .ok a => ret a
  | .error x => throw x

/-- Run a program and hand its outcome to the continuation; this is the
`try` of `try`/`catch`/`finally`. -/
def attempt {α : Type} : Prog E R X α → Prog E R X (Except X α)
  | ret a => ret (.ok a)
  | throw x => ret (.error x)
  | eff e k => eff e (fun r => attempt (k r))
  | loop l body k => loop l body (fun b => attempt (k b))

/-- `while`: run `body` until it returns a result. -/
def iterate {σ β : Type} (l : σ) (body : σ → Prog E R X (σ ⊕ β)) :
    Prog E R X β :=
  loop l body ofExcept

/-- One unfolding of a loop. -/
def unroll {α σ β : Type} (l : σ) (body : σ → Prog E R X (σ ⊕ β))
    (k : Except X β → Prog E R X α) : Prog E R X α :=
  attempt (body l) >>= fun r =>
    match r with
    | .ok (.inl l') => loop l' body k
    | .ok (.inr b) => k (.ok b)
    | .error x => k (.error x)

/-- Unfolding a loop commutes with what follows it. -/
theorem unroll_bind {α β σ γ : Type} (l : σ) (body : σ → Prog E R X (σ ⊕ γ))
    (k : Except X γ → Prog E R X α) (f : α → Prog E R X β) :
    unroll l body k >>= f = unroll l body (fun b => k b >>= f) := by
  unfold unroll
  rw [bind_assoc]
  congr 1
  funext r
  rcases r with x | (l' | b) <;> rfl

/-- What follows an `attempt` may be attempted by itself. -/
theorem attempt_attempt_bind {α β : Type} (p : Prog E R X α)
    (f : Except X α → Prog E R X β) :
    attempt (attempt p >>= f) = attempt p >>= fun r => attempt (f r) := by
  induction p with
  | ret a => rfl
  | throw x => rfl
  | eff e k ih =>
      simp only [attempt, eff_bind]
      congr 1
      funext r
      exact ih r f
  | loop l body k _ ih =>
      simp only [attempt, loop_bind]
      congr 1
      funext b
      exact ih b f

theorem attempt_unroll {α σ β : Type} (l : σ) (body : σ → Prog E R X (σ ⊕ β))
    (k : Except X β → Prog E R X α) :
    attempt (unroll l body k) = unroll l body (fun b => attempt (k b)) := by
  unfold unroll
  rw [attempt_attempt_bind]
  congr 1
  funext r
  rcases r with x | (l' | b) <;> rfl

/-- Every call the program can make satisfies `P`. -/
def Calls (P : E → Prop) : {α : Type} → Prog E R X α → Prop
  | _, ret _ => True
  | _, throw _ => True
  | _, eff e k => P e ∧ ∀ r, Calls P (k r)
  | _, loop _ body k => (∀ l, Calls P (body l)) ∧ ∀ b, Calls P (k b)

theorem Calls.bind {P : E → Prop} {α β : Type} {p : Prog E R X α}
    {f : α → Prog E R X β} (hp : Calls P p) (hf : ∀ a, Calls P (f a)) :
    Calls P (p >>= f) := by
  induction p with
  | ret a => exact hf a
  | throw x => trivial
  | eff e k ih => exact ⟨hp.1, fun r => ih r (hp.2 r) hf⟩
  | loop l body k _ ih => exact ⟨hp.1, fun b => ih b (hp.2 b) hf⟩

theorem Calls.attempt {P : E → Prop} {α : Type} {p : Prog E R X α}
    (hp : Calls P p) : Calls P (attempt p) := by
  induction p with
  | ret a => trivial
  | throw x => trivial
  | eff e k ih => exact ⟨hp.1, fun r => ih r (hp.2 r)⟩
  | loop l body k _ ih => exact ⟨hp.1, fun b => ih b (hp.2 b)⟩

theorem Calls.unroll {P : E → Prop} {α σ β : Type} {l : σ}
    {body : σ → Prog E R X (σ ⊕ β)} {k : Except X β → Prog E R X α}
    (h : Calls P (loop l body k)) : Calls P (unroll l body k) := by
  refine Calls.bind (Calls.attempt (h.1 l)) fun r => ?_
  rcases r with x | (l' | b)
  · exact h.2 (.error x)
  · exact h
  · exact h.2 (.ok b)

/-- Nothing is said of the calls. -/
theorem Calls.any {α : Type} (p : Prog E R X α) : Calls (fun _ => True) p := by
  induction p with
  | ret a => trivial
  | throw x => trivial
  | eff e k ih => exact ⟨trivial, ih⟩
  | loop l body k ihb ihk => exact ⟨ihb, ihk⟩

theorem Calls.mono {P P' : E → Prop} (hP : ∀ e, P e → P' e) {α : Type} {p : Prog E R X α}
    (hp : Calls P p) : Calls P' p := by
  induction p with
  | ret a => trivial
  | throw x => trivial
  | eff e k ih => exact ⟨hP e hp.1, fun r => ih r (hp.2 r)⟩
  | loop l body k ihb ihk => exact ⟨fun l => ihb l (hp.1 l), fun b => ihk b (hp.2 b)⟩

end Prog

end Lib
end SecureMessenger
