import SecureMessenger.Lib.Pool

/-!
# Segments and promises

An asynchronous function over a memory `M` alternates between segments, which
run without interruption, and awaited promises `G`, which settle some time
later.  A segment may name the activity of type `A` it continues (a session, a
run, a request), so that one can speak of what an activity does after it has
been superseded.
-/

namespace SecureMessenger
namespace Lib

/-- The calls of an asynchronous function. -/
inductive Segmented (A M G : Type) : Type 1
  | segment {α : Type} (activity : Option A) (f : M → α × M)
  | settle (g : G)

/-- Answers of the calls; a promise may be rejected with an `X`. -/
def Segmented.Answer {A M G : Type} (X : Type) (Reply : G → Type) : Segmented A M G → Type
  | .segment (α := α) _ _ => α
  | .settle g => Except X (Reply g)

/-- Segments run as they are; `settles` says how promises settle. -/
def Segmented.exec {A M G X : Type} {Reply : G → Type}
    (settles : (g : G) → M → Except X (Reply g) → M → Prop) (_ : Tid) :
    (c : Segmented A M G) → M → c.Answer X Reply → M → Prop
  | .segment _ f, m, a, m' => a = (f m).1 ∧ m' = (f m).2
  | .settle g, m, r, m' => settles g m r m'

section Programs

variable {A M G X : Type} {Reply : G → Type}

/-- A segment. -/
def segment {α : Type} (activity : Option A) (f : M → α × M) :
    Prog (Segmented A M G) (Segmented.Answer X Reply) X α :=
  .eff (.segment activity f) fun (a : α) => .ret a

/-- Await a promise. -/
def awaits (g : G) : Prog (Segmented A M G) (Segmented.Answer X Reply) X (Reply g) :=
  .eff (.settle g) fun (r : Except X (Reply g)) => Prog.ofExcept r

theorem calls_segment {P : Segmented A M G → Prop} {α : Type} {activity : Option A}
    {f : M → α × M} (h : P (.segment activity f)) :
    Prog.Calls P (segment activity f : Prog (Segmented A M G) (Segmented.Answer X Reply) X α) :=
  ⟨h, fun _ => trivial⟩

theorem calls_awaits {P : Segmented A M G → Prop} {g : G} (h : P (.settle g)) :
    Prog.Calls P (awaits g : Prog (Segmented A M G) (Segmented.Answer X Reply) X (Reply g)) := by
  refine ⟨h, fun r => ?_⟩
  cases r with
  | ok a => trivial
  | error x => trivial

end Programs

end Lib
end SecureMessenger
