import SecureMessenger.Lib.Discipline

/-!
# Termination of one thread

`Total rely t p Q Z s` says that thread `t`, about to run `p` in state `s`,
comes to an end whatever the others do within `rely`: it always finds a call
it can perform, performs finitely many, returns only with `Q` and throws only
with `Z`.

A `while` loop ends if each round that does not end it lowers a measure.
-/

namespace SecureMessenger
namespace Lib

universe u

variable {E : Type u} {R : E → Type} {X S Op : Type}

/-- Total correctness of a program that runs on thread `t`. -/
inductive Total (exec : Tid → (e : E) → S → R e → S → Prop) (rely : S → S → Prop) (t : Tid) :
    {α : Type} → Prog E R X α → (α → S → Prop) → (X → S → Prop) → S → Prop
  | ret {α : Type} {a : α} {Q : α → S → Prop} {Z : X → S → Prop} {s : S}
      (h : Q a s) : Total exec rely t (.ret a) Q Z s
  | throw {α : Type} {x : X} {Q : α → S → Prop} {Z : X → S → Prop} {s : S}
      (h : Z x s) : Total exec rely t (.throw x) Q Z s
  | eff {α : Type} {e : E} {k : R e → Prog E R X α} {Q : α → S → Prop} {Z : X → S → Prop} {s : S}
      (henabled : ∀ s₁, rely s s₁ → ∃ r s₂, exec t e s₁ r s₂)
      (h : ∀ s₁ r s₂, rely s s₁ → exec t e s₁ r s₂ → Total exec rely t (k r) Q Z s₂) :
      Total exec rely t (.eff e k) Q Z s
  | loop {α σ β : Type} {l : σ} {body : σ → Prog E R X (σ ⊕ β)}
      {k : Except X β → Prog E R X α} {Q : α → S → Prop} {Z : X → S → Prop} {s : S}
      (h : ∀ s₁, rely s s₁ → Total exec rely t (.unroll l body k) Q Z s₁) :
      Total exec rely t (.loop l body k) Q Z s

namespace Total

variable {exec : Tid → (e : E) → S → R e → S → Prop} {rely : S → S → Prop} {t : Tid}

/-- Consequence. -/
theorem mono {α : Type} {p : Prog E R X α} {Q : α → S → Prop} {Z : X → S → Prop} {s : S}
    (h : Total exec rely t p Q Z s) :
    ∀ {Q' : α → S → Prop} {Z' : X → S → Prop},
      (∀ a s', Q a s' → Q' a s') → (∀ x s', Z x s' → Z' x s') →
      Total exec rely t p Q' Z' s := by
  induction h with
  | ret h =>
      intro Q' Z' hQ _
      exact .ret (hQ _ _ h)
  | throw h =>
      intro Q' Z' _ hZ
      exact .throw (hZ _ _ h)
  | eff henabled _ ih =>
      intro Q' Z' hQ hZ
      exact .eff henabled fun s₁ r s₂ hr hx => ih s₁ r s₂ hr hx hQ hZ
  | loop _ ih =>
      intro Q' Z' hQ hZ
      exact .loop fun s₁ hr => ih s₁ hr hQ hZ

/-- Sequencing from the postcondition of the first part. -/
theorem andThen {α β : Type} {p : Prog E R X α} {f : α → Prog E R X β}
    {Q : β → S → Prop} {Q₁ : α → S → Prop} {Z : X → S → Prop} {s : S}
    (h : Total exec rely t p Q₁ Z s)
    (hf : ∀ a s', Q₁ a s' → Total exec rely t (f a) Q Z s') :
    Total exec rely t (p >>= f) Q Z s := by
  induction h with
  | ret h =>
      exact hf _ _ h
  | throw h =>
      exact .throw h
  | eff henabled _ ih =>
      exact .eff henabled fun s₁ r s₂ hr hx => ih s₁ r s₂ hr hx hf
  | loop _ ih =>
      refine .loop fun s₁ hr => ?_
      have h := ih s₁ hr hf
      rw [Prog.unroll_bind] at h
      exact h

/-- Sequencing. -/
theorem bind {α β : Type} {p : Prog E R X α} {f : α → Prog E R X β}
    {Q : β → S → Prop} {Z : X → S → Prop} {s : S}
    (h : Total exec rely t p (fun a s' => Total exec rely t (f a) Q Z s') Z s) :
    Total exec rely t (p >>= f) Q Z s :=
  h.andThen fun _ _ h' => h'

/-- `try`. -/
theorem attempt {α : Type} {p : Prog E R X α} {Q₁ : α → S → Prop} {Z₁ : X → S → Prop}
    {Q : Except X α → S → Prop} {Z : X → S → Prop} {s : S}
    (h : Total exec rely t p Q₁ Z₁ s) (hok : ∀ a s', Q₁ a s' → Q (.ok a) s')
    (herror : ∀ x s', Z₁ x s' → Q (.error x) s') :
    Total exec rely t (Prog.attempt p) Q Z s := by
  induction h with
  | ret h =>
      exact .ret (hok _ _ h)
  | throw h =>
      exact .ret (herror _ _ h)
  | eff henabled _ ih =>
      exact .eff henabled fun s₁ r s₂ hr hx => ih s₁ r s₂ hr hx hok herror
  | loop _ ih =>
      refine .loop fun s₁ hr => ?_
      have h := ih s₁ hr hok herror
      rw [Prog.attempt_unroll] at h
      exact h

/-- A `while` loop with the invariant `J` and the measure `μ`. -/
theorem iterate {σ β : Type} (J : σ → S → Prop) (μ : σ → S → Nat)
    {body : σ → Prog E R X (σ ⊕ β)} {Q : β → S → Prop} {Z : X → S → Prop}
    (hstable : ∀ l s s₁, J l s → rely s s₁ → J l s₁ ∧ μ l s₁ ≤ μ l s)
    (hbody : ∀ l s, J l s → Total exec rely t (body l)
      (fun r s' => Sum.elim (fun l' => J l' s' ∧ μ l' s' < μ l s) (fun b => Q b s') r) Z s)
    {l : σ} {s : S} (hl : J l s) : Total exec rely t (Prog.iterate l body) Q Z s := by
  induction hn : μ l s using Nat.strongRecOn generalizing l s with
  | ind n ih =>
      refine .loop fun s₁ hr => ?_
      obtain ⟨hJ, hle⟩ := hstable l s s₁ hl hr
      refine andThen (attempt (hbody l s₁ hJ) (Q := fun (r : Except X (σ ⊕ β)) s' =>
        (∀ l', r = .ok (.inl l') → J l' s' ∧ μ l' s' < μ l s₁) ∧
          (∀ b, r = .ok (.inr b) → Q b s') ∧ ∀ x, r = .error x → Z x s') ?_ ?_) ?_
      · rintro (l' | b) s' h
        · simpa using h
        · simpa using h
      · intro x s' h
        simpa using h
      · rintro (x | (l' | b)) s' ⟨hagain, hend, hfail⟩
        · exact .throw (hfail x rfl)
        · obtain ⟨hJ', hlt⟩ := hagain l' rfl
          exact ih _ (by omega) hJ' rfl
        · exact .ret (hend b rfl)

/-- One step of a program alone, after the others have moved within `rely`. -/
inductive Moves (exec : Tid → (e : E) → S → R e → S → Prop) (rely : S → S → Prop) (t : Tid)
    {α : Type} : Prog E R X α × S → Prog E R X α × S → Prop
  | act {e : E} {k : R e → Prog E R X α} {s s₁ s₂ : S} {r : R e} (hr : rely s s₁)
      (hx : exec t e s₁ r s₂) : Moves exec rely t (.eff e k, s) (k r, s₂)
  | unfold {σ β : Type} {l : σ} {body : σ → Prog E R X (σ ⊕ β)}
      {k : Except X β → Prog E R X α} {s s₁ : S} (hr : rely s s₁) :
      Moves exec rely t (.loop l body k, s) (.unroll l body k, s₁)

/-- The steps of a totally correct program are well founded. -/
theorem acc {α : Type} {p : Prog E R X α} {Q : α → S → Prop} {Z : X → S → Prop} {s : S}
    (h : Total exec rely t p Q Z s) : Acc (fun b a => Moves exec rely t a b) (p, s) := by
  induction h with
  | ret h =>
      refine Acc.intro _ fun b hb => ?_
      cases hb
  | throw h =>
      refine Acc.intro _ fun b hb => ?_
      cases hb
  | eff _ _ ih =>
      refine Acc.intro _ fun b hb => ?_
      cases hb with
      | act hr hx => exact ih _ _ _ hr hx
  | loop _ ih =>
      refine Acc.intro _ fun b hb => ?_
      cases hb with
      | unfold hr => exact ih _ hr

end Total

/-- The program runs on thread `t` from the first state to the second and ends
so, while nobody else moves. -/
inductive Evaluates (exec : Tid → (e : E) → S → R e → S → Prop) (t : Tid) {α : Type} :
    Prog E R X α → S → Except X α → S → Prop
  | ret {a : α} {s : S} : Evaluates exec t (.ret a) s (.ok a) s
  | throw {x : X} {s : S} : Evaluates exec t (.throw x) s (.error x) s
  | eff {e : E} {k : R e → Prog E R X α} {s s' s'' : S} {r : R e} {o : Except X α}
      (hx : exec t e s r s') (h : Evaluates exec t (k r) s' o s'') :
      Evaluates exec t (.eff e k) s o s''
  | loop {σ β : Type} {l : σ} {body : σ → Prog E R X (σ ⊕ β)} {k : Except X β → Prog E R X α}
      {s s' : S} {o : Except X α} (h : Evaluates exec t (.unroll l body k) s o s') :
      Evaluates exec t (.loop l body k) s o s'

namespace Total

variable {exec : Tid → (e : E) → S → R e → S → Prop} {rely : S → S → Prop} {t : Tid}

/-- A totally correct program ends. -/
theorem evaluates {α : Type} {p : Prog E R X α} {Q : α → S → Prop} {Z : X → S → Prop} {s : S}
    (h : Total exec rely t p Q Z s) (hrely : ∀ s, rely s s) :
    ∃ o s', Evaluates exec t p s o s' := by
  induction h with
  | ret h =>
      exact ⟨_, _, .ret⟩
  | throw h =>
      exact ⟨_, _, .throw⟩
  | eff henabled _ ih =>
      obtain ⟨r, s', hx⟩ := henabled _ (hrely _)
      obtain ⟨o, s'', hend⟩ := ih _ r s' (hrely _) hx
      exact ⟨o, s'', .eff hx hend⟩
  | loop _ ih =>
      obtain ⟨o, s', hend⟩ := ih _ (hrely _)
      exact ⟨o, s', .loop hend⟩

/-- A totally correct program ends as stated. -/
theorem post {α : Type} {p : Prog E R X α} {Q : α → S → Prop} {Z : X → S → Prop} {s s' : S}
    {o : Except X α} (hend : Evaluates exec t p s o s') :
    Total exec rely t p Q Z s → (∀ s, rely s s) →
      (∀ a, o = .ok a → Q a s') ∧ ∀ x, o = .error x → Z x s' := by
  induction hend with
  | ret =>
      intro h _
      cases h with
      | ret h => exact ⟨fun a heq => Except.ok.inj heq ▸ h, fun x heq => (nomatch heq)⟩
  | throw =>
      intro h _
      cases h with
      | throw h => exact ⟨fun a heq => (nomatch heq), fun x heq => Except.error.inj heq ▸ h⟩
  | eff hx _ ih =>
      intro h hrely
      cases h with
      | eff _ h => exact ih (h _ _ _ (hrely _) hx) hrely
  | loop _ ih =>
      intro h hrely
      cases h with
      | loop h => exact ih (h _ (hrely _)) hrely

end Total

/-- Thread `t` takes a step after the others have moved within `rely`. -/
def System.Turn (sys : System E R X S Op) (rely : S → S → Prop) (t : Tid)
    (p p' : Pool E R X S) : Prop :=
  ∃ p₁ m, rely p.shared p₁.shared ∧ p₁.threads t = p.threads t ∧
    (m = .act t ∨ m = .unfold t) ∧ System.Step sys m p₁ p'

section Turns

variable {sys : System E R X S Op} {rely : S → S → Prop} {t : Tid}
  {Q : Unit → S → Prop} {Z : X → S → Prop}

/-- A turn of `t` is a step of its program. -/
theorem System.Turn.moves {p p' : Pool E R X S} {q : Prog E R X Unit}
    (hq : p.threads t = some q) (h : System.Turn sys rely t p p') :
    ∃ q', p'.threads t = some q' ∧
      Total.Moves sys.exec rely t (q, p.shared) (q', p'.shared) := by
  obtain ⟨p₁, m, hr, ht, hm, hs⟩ := h
  rw [hq] at ht
  rcases hm with rfl | rfl
  · cases hs with
    | act ht' hx =>
        rw [ht', Option.some.injEq] at ht
        rw [← ht]
        exact ⟨_, by simp, .act hr hx⟩
  · cases hs with
    | unfold ht' =>
        rw [ht', Option.some.injEq] at ht
        rw [← ht]
        exact ⟨_, by simp, .unfold hr⟩

/-- A thread that nobody disturbs runs to its end. -/
theorem Total.completes {exec : Tid → (e : E) → S → R e → S → Prop}
    (hexec : ∀ {e s r s'}, exec t e s r s' → sys.exec t e s r s') (hrely : ∀ s, rely s s)
    {p : Pool E R X S} {q : Prog E R X Unit} (hq : p.threads t = some q)
    (h : Total exec rely t q Q Z p.shared) :
    ∃ p', System.Reaches sys p p' ∧
      ((p'.threads t = some (.ret ()) ∧ Q () p'.shared) ∨
        ∃ x, p'.threads t = some (.throw x) ∧ Z x p'.shared) := by
  have hacc := h.acc
  generalize hc : (q, p.shared) = c at hacc
  induction hacc generalizing p q with
  | intro c _ ih =>
      subst hc
      cases h with
      | ret h =>
          exact ⟨p, .refl, Or.inl ⟨hq, h⟩⟩
      | throw h =>
          exact ⟨p, .refl, Or.inr ⟨_, hq, h⟩⟩
      | @eff e k _ _ _ henabled h =>
          obtain ⟨r, s', hx⟩ := henabled _ (hrely _)
          obtain ⟨p', hr, hend⟩ := ih _ (.act (hrely _) hx)
            (p := ⟨s', Function.update p.threads t (some (k r))⟩) (by simp)
            (h _ _ _ (hrely _) hx) rfl
          exact ⟨p', hr.head ⟨_, .act hq (hexec hx)⟩, hend⟩
      | @loop _ _ l body k _ _ _ h =>
          obtain ⟨p', hr, hend⟩ := ih _ (.unfold (hrely _))
            (p := ⟨p.shared, Function.update p.threads t (some (.unroll l body k))⟩) (by simp)
            (h _ (hrely _)) rfl
          exact ⟨p', hr.head ⟨_, .unfold hq⟩, hend⟩

end Turns

end Lib
end SecureMessenger
