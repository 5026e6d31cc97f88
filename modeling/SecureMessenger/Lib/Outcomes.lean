import SecureMessenger.Lib.Prog

/-!
# What a program can come to

`Ensures A p Q` says that every outcome of `p` satisfies `Q`, if each call is
answered as `A` allows.  Nothing is said about a memory: between two calls it
may have become anything.
-/

namespace SecureMessenger
namespace Lib

universe u

variable {E : Type u} {R : E → Type} {X : Type}

namespace Prog

/-- The program ends with this outcome after `n` calls and unfoldings of
loops. -/
inductive Yields (A : (e : E) → R e → Prop) :
    {α : Type} → Nat → Prog E R X α → Except X α → Prop
  | ret {α : Type} {a : α} : Yields A 0 (.ret a) (.ok a)
  | throw {α : Type} {x : X} : Yields A 0 (.throw (α := α) x) (.error x)
  | eff {α : Type} {e : E} {k : R e → Prog E R X α} {n : Nat} {r : R e} {o : Except X α}
      (hr : A e r) (h : Yields A n (k r) o) : Yields A (n + 1) (.eff e k) o
  | loop {α σ β : Type} {l : σ} {body : σ → Prog E R X (σ ⊕ β)} {k : Except X β → Prog E R X α}
      {n : Nat} {o : Except X α} (h : Yields A n (.unroll l body k) o) :
      Yields A (n + 1) (.loop l body k) o

variable {A : (e : E) → R e → Prop}

/-- A sequence ends with its second part, or as its first part throws. -/
theorem Yields.bind {α β : Type} {f : α → Prog E R X β} {o : Except X β} {n : Nat} :
    ∀ {p : Prog E R X α}, Yields A n (p >>= f) o →
      (∃ a m k, m + k = n ∧ Yields A m p (.ok a) ∧ Yields A k (f a) o) ∨
        ∃ x, Yields A n p (.error x) ∧ o = .error x := by
  induction n using Nat.strongRecOn with
  | ind n ih =>
      intro p h
      cases p with
      | ret a =>
          exact Or.inl ⟨a, 0, n, Nat.zero_add n, .ret, h⟩
      | throw x =>
          cases h
          exact Or.inr ⟨x, .throw, rfl⟩
      | eff e k =>
          cases h with
          | eff hr h =>
              rcases ih _ (Nat.lt_succ_self _) h with ⟨a, m, j, hsum, hp, hf⟩ | ⟨x, hp, ho⟩
              · exact Or.inl ⟨a, m + 1, j, by omega, .eff hr hp, hf⟩
              · exact Or.inr ⟨x, .eff hr hp, ho⟩
      | loop l body k =>
          cases h with
          | loop h =>
              have h' := (unroll_bind l body k f).symm ▸ h
              rcases ih _ (Nat.lt_succ_self _) h' with ⟨a, m, j, hsum, hp, hf⟩ | ⟨x, hp, ho⟩
              · exact Or.inl ⟨a, m + 1, j, by omega, .loop hp, hf⟩
              · exact Or.inr ⟨x, .loop hp, ho⟩

/-- `try` ends whenever its program does, with the outcome as its result. -/
theorem Yields.attempt {α : Type} {o : Except X (Except X α)} {n : Nat} :
    ∀ {p : Prog E R X α}, Yields A n (Prog.attempt p) o → ∃ r, o = .ok r ∧ Yields A n p r := by
  induction n using Nat.strongRecOn with
  | ind n ih =>
      intro p h
      cases p with
      | ret a =>
          cases h
          exact ⟨_, rfl, .ret⟩
      | throw x =>
          cases h
          exact ⟨_, rfl, .throw⟩
      | eff e k =>
          cases h with
          | eff hr h =>
              obtain ⟨r, ho, hp⟩ := ih _ (Nat.lt_succ_self _) h
              exact ⟨r, ho, .eff hr hp⟩
      | loop l body k =>
          cases h with
          | loop h =>
              have h' := (attempt_unroll l body k).symm ▸ h
              obtain ⟨r, ho, hp⟩ := ih _ (Nat.lt_succ_self _) h'
              exact ⟨r, ho, .loop hp⟩

/-- Every outcome of the program satisfies `Q`. -/
def Ensures (A : (e : E) → R e → Prop) {α : Type} (p : Prog E R X α) (Q : Except X α → Prop) :
    Prop :=
  ∀ n o, Yields A n p o → Q o

variable {α β σ : Type}

theorem Ensures.ret {a : α} {Q : Except X α → Prop} (h : Q (.ok a)) :
    Ensures A (.ret a : Prog E R X α) Q := by
  intro n o ho
  cases ho
  exact h

theorem Ensures.throw {x : X} {Q : Except X α → Prop} (h : Q (.error x)) :
    Ensures A (.throw x : Prog E R X α) Q := by
  intro n o ho
  cases ho
  exact h

theorem Ensures.eff {e : E} {k : R e → Prog E R X α} {Q : Except X α → Prop}
    (h : ∀ r, A e r → Ensures A (k r) Q) : Ensures A (.eff e k) Q := by
  intro n o ho
  cases ho with
  | eff hr ho => exact h _ hr _ o ho

theorem Ensures.mono {p : Prog E R X α} {Q Q' : Except X α → Prop} (h : Ensures A p Q)
    (hQ : ∀ o, Q o → Q' o) : Ensures A p Q' :=
  fun n o ho => hQ o (h n o ho)

/-- Sequencing. -/
theorem Ensures.bind {p : Prog E R X α} {f : α → Prog E R X β} {Q : Except X β → Prop}
    (h : Ensures A p fun o => match o with
      | .ok a => Ensures A (f a) Q
      | .error x => Q (.error x)) : Ensures A (p >>= f) Q := by
  intro n o ho
  rcases ho.bind with ⟨a, m, k, -, hp, hf⟩ | ⟨x, hp, rfl⟩
  · exact h m _ hp k o hf
  · exact h n _ hp

/-- Sequencing after a first part about which nothing need be known. -/
theorem Ensures.then {p : Prog E R X α} {f : α → Prog E R X β} {Q : Except X β → Prop}
    (h : Ensures A p fun o => ∀ x, o = .error x → Q (.error x)) (hf : ∀ a, Ensures A (f a) Q) :
    Ensures A (p >>= f) Q := by
  refine Ensures.bind (h.mono fun o ho => ?_)
  cases o with
  | ok a => exact hf a
  | error x => exact ho x rfl

theorem Ensures.attempt {p : Prog E R X α} {Q : Except X (Except X α) → Prop}
    (h : Ensures A p fun r => Q (.ok r)) : Ensures A (Prog.attempt p) Q := by
  intro n o ho
  obtain ⟨r, rfl, hp⟩ := ho.attempt
  exact h n r hp

theorem Ensures.ofExcept {r : Except X α} {Q : Except X α → Prop} (h : Q r) :
    Ensures A (Prog.ofExcept r : Prog E R X α) Q := by
  cases r with
  | ok a => exact .ret h
  | error x => exact .throw h

/-- A `while` loop with the invariant `J`. -/
theorem Ensures.iterate (J : σ → Prop) {body : σ → Prog E R X (σ ⊕ β)} {Q : Except X β → Prop}
    (hbody : ∀ l, J l → Ensures A (body l) fun o => match o with
      | .ok (.inl l') => J l'
      | .ok (.inr b) => Q (.ok b)
      | .error x => Q (.error x))
    {l : σ} (hl : J l) : Ensures A (Prog.iterate l body) Q := by
  intro n
  induction n using Nat.strongRecOn generalizing l with
  | ind n ih =>
      intro o ho
      cases ho with
      | loop ho =>
          rcases Yields.bind ho with ⟨r, m, k, hsum, hr, hk⟩ | ⟨x, hx, -⟩
          · obtain ⟨r', heq, hround⟩ := hr.attempt
            obtain rfl := Except.ok.inj heq
            have hpost := hbody l hl m _ hround
            rcases r with x | (l' | b)
            · cases hk
              exact hpost
            · exact ih k (by omega) hpost o hk
            · cases hk
              exact hpost
          · obtain ⟨r, heq, -⟩ := hx.attempt
            cases heq

end Prog

end Lib
end SecureMessenger
