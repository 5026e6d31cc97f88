import SecureMessenger.Lib.Pool

/-!
# Rely-guarantee reasoning for thread pools

A `Discipline` for a system consists of

* `inv`: an invariant of the shared state;
* `grow`: a preorder that every step respects, whoever takes it;
* `own t`: a preorder that every step of *another* thread respects; it says
  what thread `t` may rely on beyond `grow`;
* `idle t`, `done t`, `failed t`: what holds of thread `t` before it has been
  started, after it has returned and after it has thrown.

`Safe t p Q X s` says that thread `t`, about to run `p` in state `s`, keeps
the discipline whatever the others do in the meantime, ends with `Q` and
throws only with `X`.  The rules below decompose `Safe` along the program;
`Discipline.sound` turns safe programs into an invariant of every reachable
pool.
-/

namespace SecureMessenger
namespace Lib

universe u

variable {E : Type u} {R : E → Type} {X S Op : Type}

/-- An invariant and the two preorders of a rely-guarantee proof. -/
structure Discipline (S : Type) where
  inv : S → Prop
  grow : S → S → Prop
  own : Tid → S → S → Prop
  idle : Tid → S → Prop := fun _ _ => True
  done : Tid → S → Prop := fun _ _ => True
  failed : Tid → S → Prop := fun _ _ => True
  grow_refl : ∀ s, grow s s
  grow_trans : ∀ {s₁ s₂ s₃}, grow s₁ s₂ → grow s₂ s₃ → grow s₁ s₃
  own_refl : ∀ t s, own t s s
  own_trans : ∀ {t s₁ s₂ s₃}, own t s₁ s₂ → own t s₂ s₃ → own t s₁ s₃
  idle_drift : ∀ {t s s'}, idle t s → grow s s' → own t s s' → idle t s' := by
    intros; trivial
  done_drift : ∀ {t s s'}, done t s → grow s s' → own t s s' → done t s' := by
    intros; trivial
  failed_drift : ∀ {t s s'}, failed t s → grow s s' → own t s s' → failed t s' := by
    intros; trivial

namespace Discipline

/-- What happened to the state between two moments at which thread `t` ran. -/
structure Drift (D : Discipline S) (t : Tid) (s s' : S) : Prop where
  grow : D.grow s s'
  own : D.own t s s'
  inv : D.inv s'

/-- What a step of thread `t` has to respect. -/
structure Keeps (D : Discipline S) (t : Tid) (s s' : S) : Prop where
  inv : D.inv s'
  grow : D.grow s s'
  own : ∀ u, u ≠ t → D.own u s s'

theorem Drift.refl {D : Discipline S} {t : Tid} {s : S} (h : D.inv s) :
    D.Drift t s s :=
  ⟨D.grow_refl s, D.own_refl t s, h⟩

theorem Drift.trans {D : Discipline S} {t : Tid} {s₁ s₂ s₃ : S}
    (h₁ : D.Drift t s₁ s₂) (h₂ : D.Drift t s₂ s₃) : D.Drift t s₁ s₃ :=
  ⟨D.grow_trans h₁.grow h₂.grow, D.own_trans h₁.own h₂.own, h₂.inv⟩

theorem Keeps.refl {D : Discipline S} {t : Tid} {s : S} (h : D.inv s) :
    D.Keeps t s s :=
  ⟨h, D.grow_refl s, fun u _ => D.own_refl u s⟩

theorem Keeps.drift {D : Discipline S} {t u : Tid} {s s' : S}
    (h : D.Keeps t s s') (hu : u ≠ t) : D.Drift u s s' :=
  ⟨h.grow, h.own u hu, h.inv⟩

/-- A family of assertions that other threads cannot falsify. -/
def Stable (D : Discipline S) (t : Tid) {σ : Type} (J : σ → S → Prop) : Prop :=
  ∀ l s s', J l s → D.Drift t s s' → J l s'

variable (exec : Tid → (e : E) → S → R e → S → Prop)

/-- Thread `t`, about to run the program in state `s`, keeps the discipline,
returns only with `Q` and throws only with `Z`. -/
def Safe (D : Discipline S) (t : Tid) :
    {α : Type} → Prog E R X α →
      (α → S → Prop) → (X → S → Prop) → S → Prop
  | _, .ret a, Q, _, s => Q a s
  | _, .throw x, _, Z, s => Z x s
  | _, .eff e k, Q, Z, s =>
      ∀ s₁, D.Drift t s s₁ →
        ∀ r s₂, exec t e s₁ r s₂ →
          D.Keeps t s₁ s₂ ∧ Safe D t (k r) Q Z s₂
  | _, .loop (σ := σ) l body k, Q, Z, s =>
      ∃ J : σ → S → Prop, D.Stable t J ∧ J l s ∧
        ∀ l' s', J l' s' → D.inv s' →
          Safe D t (body l')
            (fun r s'' =>
              match r with
              | .inl l'' => J l'' s''
              | .inr b => Safe D t (k (.ok b)) Q Z s'')
            (fun x s'' => Safe D t (k (.error x)) Q Z s'')
            s'

variable {exec} {D : Discipline S} {t : Tid}

/-- Consequence: weaker postconditions. -/
theorem Safe.mono {α : Type} {p : Prog E R X α} :
    ∀ {Q Q' : α → S → Prop} {Z Z' : X → S → Prop} {s : S},
      D.Safe exec t p Q Z s →
      (∀ a s', Q a s' → Q' a s') →
      (∀ x s', Z x s' → Z' x s') →
      D.Safe exec t p Q' Z' s := by
  induction p with
  | ret a =>
      intro Q Q' Z Z' s h hQ _
      exact hQ a s h
  | throw x =>
      intro Q Q' Z Z' s h _ hZ
      exact hZ x s h
  | eff e k ih =>
      intro Q Q' Z Z' s h hQ hZ s₁ hd r s₂ hx
      obtain ⟨hk, hs⟩ := h s₁ hd r s₂ hx
      exact ⟨hk, ih r hs hQ hZ⟩
  | loop l body k ihb ihk =>
      intro Q Q' Z Z' s h hQ hZ
      obtain ⟨J, hstable, hl, hbody⟩ := h
      refine ⟨J, hstable, hl, fun l' s' hJ hi => ?_⟩
      refine ihb l' (hbody l' s' hJ hi) ?_ ?_
      · rintro (l'' | b) s'' h''
        · exact h''
        · exact ihk (.ok b) h'' hQ hZ
      · intro x s'' h''
        exact ihk (.error x) h'' hQ hZ

/-- Sequencing. -/
theorem Safe.bind {α β : Type} {p : Prog E R X α} {f : α → Prog E R X β}
    {Q : β → S → Prop} {Z : X → S → Prop} :
    ∀ {s : S},
      D.Safe exec t p (fun a s' => D.Safe exec t (f a) Q Z s') Z s →
      D.Safe exec t (p >>= f) Q Z s := by
  induction p with
  | ret a =>
      intro s h
      exact h
  | throw x =>
      intro s h
      exact h
  | eff e k ih =>
      intro s h s₁ hd r s₂ hx
      obtain ⟨hk, hs⟩ := h s₁ hd r s₂ hx
      exact ⟨hk, ih r hs⟩
  | loop l body k _ ihk =>
      intro s h
      obtain ⟨J, hstable, hl, hbody⟩ := h
      refine ⟨J, hstable, hl, fun l' s' hJ hi => ?_⟩
      refine Safe.mono (hbody l' s' hJ hi) ?_ ?_
      · rintro (l'' | b) s'' h''
        · exact h''
        · exact ihk (.ok b) h''
      · intro x s'' h''
        exact ihk (.error x) h''

/-- Sequencing from the postcondition of the first part. -/
theorem Safe.andThen {α β : Type} {p : Prog E R X α} {f : α → Prog E R X β}
    {Q : α → S → Prop} {Q' : β → S → Prop} {Z : X → S → Prop} {s : S}
    (h : D.Safe exec t p Q Z s)
    (hf : ∀ a s', Q a s' → D.Safe exec t (f a) Q' Z s') :
    D.Safe exec t (p >>= f) Q' Z s :=
  Safe.bind (h.mono hf (fun _ _ hz => hz))

/-- `try`: the outcome of the program becomes its result. -/
theorem Safe.attempt {α : Type} {p : Prog E R X α}
    {Q : Except X α → S → Prop} {Z : X → S → Prop} :
    ∀ {s : S},
      D.Safe exec t p (fun a s' => Q (.ok a) s') (fun x s' => Q (.error x) s') s →
      D.Safe exec t (Prog.attempt p) Q Z s := by
  induction p with
  | ret a =>
      intro s h
      exact h
  | throw x =>
      intro s h
      exact h
  | eff e k ih =>
      intro s h s₁ hd r s₂ hx
      obtain ⟨hk, hs⟩ := h s₁ hd r s₂ hx
      exact ⟨hk, ih r hs⟩
  | loop l body k _ ihk =>
      intro s h
      obtain ⟨J, hstable, hl, hbody⟩ := h
      refine ⟨J, hstable, hl, fun l' s' hJ hi => ?_⟩
      refine Safe.mono (hbody l' s' hJ hi) ?_ ?_
      · rintro (l'' | b) s'' h''
        · exact h''
        · exact ihk (.ok b) h''
      · intro x s'' h''
        exact ihk (.error x) h''

/-- A `while` loop with the loop invariant `J`. -/
theorem Safe.iterate {σ β : Type} (J : σ → S → Prop) {l : σ}
    {body : σ → Prog E R X (σ ⊕ β)}
    {Q : β → S → Prop} {Z : X → S → Prop} {s : S}
    (hstable : D.Stable t J) (hl : J l s)
    (hbody : ∀ l' s', J l' s' → D.inv s' →
      D.Safe exec t (body l')
        (fun r s'' =>
          match r with
          | .inl l'' => J l'' s''
          | .inr b => Q b s'')
        Z s') :
    D.Safe exec t (Prog.iterate l body) Q Z s :=
  ⟨J, hstable, hl, fun l' s' hJ hi =>
    Safe.mono (hbody l' s' hJ hi)
      (fun r _ h => by
        rcases r with l'' | b
        · exact h
        · exact h)
      (fun _ _ h => h)⟩

/-- A program that only makes calls `P`, none of which disturbs `K`. -/
theorem Safe.of_calls {P : E → Prop} {K : S → Prop}
    (hK : ∀ s s', K s → D.Drift t s s' → K s')
    (hP : ∀ e s r s', P e → D.inv s → K s → exec t e s r s' →
      D.Keeps t s s' ∧ K s')
    {α : Type} {p : Prog E R X α} (hp : Prog.Calls P p) :
    ∀ {s : S}, K s → D.inv s →
      D.Safe exec t p (fun _ s' => K s' ∧ D.inv s') (fun _ s' => K s' ∧ D.inv s') s := by
  induction p with
  | ret a =>
      intro s h hi
      exact ⟨h, hi⟩
  | throw x =>
      intro s h hi
      exact ⟨h, hi⟩
  | eff e k ih =>
      intro s h _ s₁ hd r s₂ hx
      obtain ⟨hk, h₂⟩ := hP e s₁ r s₂ hp.1 hd.inv (hK _ _ h hd) hx
      exact ⟨hk, ih r (hp.2 r) h₂ hk.inv⟩
  | loop l body k ihb ihk =>
      intro s h _
      refine ⟨fun _ => K, fun _ s s' hs hd => hK s s' hs hd, h, fun l' s' hJ hi => ?_⟩
      refine Safe.mono (ihb l' (hp.1 l') hJ hi) ?_ ?_
      · rintro (l'' | b) s'' ⟨h₂, hi₂⟩
        · exact h₂
        · exact ihk (.ok b) (hp.2 _) h₂ hi₂
      · rintro x s'' ⟨h₂, hi₂⟩
        exact ihk (.error x) (hp.2 _) h₂ hi₂

/-- What the growth of the state keeps holds at the end. -/
theorem Safe.frame {K : S → Prop} (hK : ∀ s s', K s → D.grow s s' → K s') {α : Type}
    {p : Prog E R X α} :
    ∀ {Q : α → S → Prop} {Z : X → S → Prop} {s : S}, D.Safe exec t p Q Z s → K s →
      D.Safe exec t p (fun a s' => Q a s' ∧ K s') (fun x s' => Z x s' ∧ K s') s := by
  induction p with
  | ret a =>
      intro Q Z s h hs
      exact ⟨h, hs⟩
  | throw x =>
      intro Q Z s h hs
      exact ⟨h, hs⟩
  | eff e k ih =>
      intro Q Z s h hs s₁ hd r s₂ hx
      obtain ⟨hk, hsafe⟩ := h s₁ hd r s₂ hx
      exact ⟨hk, ih r hsafe (hK _ _ (hK _ _ hs hd.grow) hk.grow)⟩
  | loop l body k ihb ihk =>
      intro Q Z s h hs
      obtain ⟨J, hstable, hl, hbody⟩ := h
      refine ⟨fun l s => J l s ∧ K s, ?_, ⟨hl, hs⟩, fun l' s' hJ hi => ?_⟩
      · exact fun l s s' hJ hd => ⟨hstable l s s' hJ.1 hd, hK _ _ hJ.2 hd.grow⟩
      · refine Safe.mono (ihb l' (hbody l' s' hJ.1 hi) hJ.2) ?_ ?_
        · rintro (l'' | b) s'' ⟨h₂, hs₂⟩
          · exact ⟨h₂, hs₂⟩
          · exact ihk (.ok b) h₂ hs₂
        · rintro x s'' ⟨h₂, hs₂⟩
          exact ihk (.error x) h₂ hs₂

/-- A discipline `D'` that asks more than `D`: what the calls `P` of a thread do
to suit `D` suits `D'` as well, as long as `K` holds, which nobody takes from
the thread. -/
structure Stricter (exec : Tid → (e : E) → S → R e → S → Prop) (D D' : Discipline S) (t : Tid)
    (P : E → Prop) (K : S → Prop) : Prop where
  inv : ∀ s, D'.inv s → D.inv s
  drift : ∀ s s', D'.Drift t s s' → D.Drift t s s'
  stable : ∀ s s', K s → D'.Drift t s s' → K s'
  keeps : ∀ e s r s', P e → D'.inv s → K s → exec t e s r s' → D.Keeps t s s' →
    D'.Keeps t s s' ∧ K s'

/-- What is safe under a discipline is safe under a stricter one. -/
theorem Safe.stricter {D' : Discipline S} {P : E → Prop} {K : S → Prop}
    (h : Stricter exec D D' t P K) {α : Type} {p : Prog E R X α} :
    ∀ {Q : α → S → Prop} {Z : X → S → Prop} {s : S}, Prog.Calls P p → D.Safe exec t p Q Z s →
      K s → D'.Safe exec t p (fun a s' => Q a s' ∧ K s') (fun x s' => Z x s' ∧ K s') s := by
  induction p with
  | ret a =>
      intro Q Z s _ hsafe hs
      exact ⟨hsafe, hs⟩
  | throw x =>
      intro Q Z s _ hsafe hs
      exact ⟨hsafe, hs⟩
  | eff e k ih =>
      intro Q Z s hp hsafe hs s₁ hd r s₂ hx
      obtain ⟨hkeeps, hrest⟩ := hsafe s₁ (h.drift _ _ hd) r s₂ hx
      obtain ⟨hkeeps', hs₂⟩ := h.keeps e s₁ r s₂ hp.1 hd.inv (h.stable _ _ hs hd) hx hkeeps
      exact ⟨hkeeps', ih r (hp.2 r) hrest hs₂⟩
  | loop l body k ihb ihk =>
      intro Q Z s hp hsafe hs
      obtain ⟨J, hstable, hl, hbody⟩ := hsafe
      refine ⟨fun l s => J l s ∧ K s, ?_, ⟨hl, hs⟩, fun l' s' hJ hi => ?_⟩
      · exact fun l s s' hJ hd => ⟨hstable l s s' hJ.1 (h.drift _ _ hd), h.stable _ _ hJ.2 hd⟩
      · refine Safe.mono (ihb l' (hp.1 l') (hbody l' s' hJ.1 (h.inv _ hi)) hJ.2) ?_ ?_
        · rintro (l'' | b) s'' ⟨h₂, hs₂⟩
          · exact ⟨h₂, hs₂⟩
          · exact ihk (.ok b) (hp.2 _) h₂ hs₂
        · rintro x s'' ⟨h₂, hs₂⟩
          exact ihk (.error x) (hp.2 _) h₂ hs₂

/-- Other threads cannot make a safe program unsafe. -/
theorem Safe.drift {α : Type} {p : Prog E R X α}
    {Q : α → S → Prop} {Z : X → S → Prop} {s s' : S}
    (hQ : ∀ a s s', Q a s → D.Drift t s s' → Q a s')
    (hZ : ∀ x s s', Z x s → D.Drift t s s' → Z x s')
    (h : D.Safe exec t p Q Z s) (hd : D.Drift t s s') :
    D.Safe exec t p Q Z s' := by
  cases p with
  | ret a => exact hQ a s s' h hd
  | throw x => exact hZ x s s' h hd
  | eff e k =>
      intro s₁ hd₁ r s₂ hx
      exact h s₁ (hd.trans hd₁) r s₂ hx
  | loop l body k =>
      obtain ⟨J, hstable, hl, hbody⟩ := h
      exact ⟨J, hstable, hstable l s s' hl hd, hbody⟩

/-- Unfolding a loop keeps it safe. -/
theorem Safe.unroll {α σ β : Type} {l : σ}
    {body : σ → Prog E R X (σ ⊕ β)} {k : Except X β → Prog E R X α}
    {Q : α → S → Prop} {Z : X → S → Prop} {s : S} (hi : D.inv s)
    (h : D.Safe exec t (.loop l body k) Q Z s) :
    D.Safe exec t (.unroll l body k) Q Z s := by
  obtain ⟨J, hstable, hl, hbody⟩ := h
  refine Safe.bind (Safe.attempt (Safe.mono (hbody l s hl hi) ?_ ?_))
  · rintro (l'' | b) s'' h''
    · exact ⟨J, hstable, h'', hbody⟩
    · exact h''
  · intro x s'' h''
    exact h''

/-- The thread runs the program to an end that suits the discipline. -/
def Ends (D : Discipline S) (sys : System E R X S Op) (t : Tid)
    (q : Prog E R X Unit) (s : S) : Prop :=
  D.Safe sys.exec t q (fun _ s' => D.done t s') (fun _ s' => D.failed t s') s

/-- A system keeps the discipline if its operations are safe and starting,
stopping and the environment respect it. -/
structure Respected (D : Discipline S) (sys : System E R X S Op) : Prop where
  start : ∀ t op s s', D.inv s → D.idle t s → sys.start t op s s' →
    D.Keeps t s s' ∧ D.Ends sys t (sys.prog t op) s'
  stop : ∀ t s s', D.inv s → sys.stop t s s' → D.Keeps t s s' ∧ D.done t s'
  env : ∀ s s', D.inv s → sys.env s s' → ∀ t, D.Keeps t s s' ∧ D.own t s s'

/-- The state of a pool satisfies the invariant, its threads are safe, and
what has not been started is idle. -/
structure Holds (D : Discipline S) (sys : System E R X S Op)
    (p : Pool E R X S) : Prop where
  inv : D.inv p.shared
  idle : ∀ t, p.threads t = none → D.idle t p.shared
  safe : ∀ t q, p.threads t = some q → D.Ends sys t q p.shared

theorem Ends.drift {sys : System E R X S Op} {q : Prog E R X Unit}
    {t : Tid} {s s' : S} (h : D.Ends sys t q s) (hd : D.Drift t s s') :
    D.Ends sys t q s' :=
  Safe.drift (fun _ _ _ hq hd' => D.done_drift hq hd'.grow hd'.own)
    (fun _ _ _ hz hd' => D.failed_drift hz hd'.grow hd'.own) h hd

/-- The threads of a pool after one of them, `t`, has moved on to `q'`. -/
theorem Holds.update {sys : System E R X S Op} {p : Pool E R X S} {t : Tid}
    {q' : Prog E R X Unit} {s' : S}
    (h : D.Holds sys p) (hk : D.Keeps t p.shared s') (hq : D.Ends sys t q' s') :
    D.Holds sys ⟨s', Function.update p.threads t (some q')⟩ := by
  refine ⟨hk.inv, fun u hu => ?_, fun u q hu => ?_⟩
  · by_cases hut : u = t
    · subst hut
      simp at hu
    · simp only [Function.update_of_ne hut] at hu
      exact D.idle_drift (h.idle u hu) hk.grow (hk.own u hut)
  · by_cases hut : u = t
    · subst hut
      simp only [Function.update_self, Option.some.injEq] at hu
      rw [← hu]
      exact hq
    · simp only [Function.update_of_ne hut] at hu
      exact (h.safe u q hu).drift (hk.drift hut)

/-- One step of a respected system: the discipline holds again, and the state
has grown. -/
theorem Holds.step {sys : System E R X S Op} {p p' : Pool E R X S}
    {m : Move Op} (hr : D.Respected sys) (h : D.Holds sys p)
    (hs : System.Step sys m p p') :
    D.Holds sys p' ∧ D.grow p.shared p'.shared := by
  cases hs with
  | act ht hx =>
      obtain ⟨hk, hq⟩ := h.safe _ _ ht _ (Drift.refl h.inv) _ _ hx
      exact ⟨h.update hk hq, hk.grow⟩
  | unfold ht =>
      exact ⟨h.update (Keeps.refl h.inv) (Safe.unroll h.inv (h.safe _ _ ht)), D.grow_refl _⟩
  | start ht hst =>
      obtain ⟨hk, hq⟩ := hr.start _ _ _ _ h.inv (h.idle _ ht) hst
      exact ⟨h.update hk hq, hk.grow⟩
  | stop ht hst =>
      obtain ⟨hk, hq⟩ := hr.stop _ _ _ h.inv hst
      exact ⟨h.update hk hq, hk.grow⟩
  | env hst =>
      have hk := hr.env _ _ h.inv hst
      refine ⟨⟨(hk 0).1.inv, fun u hu => ?_, fun u q hu => ?_⟩, (hk 0).1.grow⟩
      · exact D.idle_drift (h.idle u hu) (hk u).1.grow (hk u).2
      · exact (h.safe u q hu).drift ⟨(hk u).1.grow, (hk u).2, (hk u).1.inv⟩

/-- **Soundness.**  Every reachable pool of a respected system satisfies the
invariant, and its threads are safe. -/
theorem sound {sys : System E R X S Op} {init : S → Prop}
    (hr : D.Respected sys) (h0 : ∀ s, init s → D.inv s ∧ ∀ t, D.idle t s)
    {p : Pool E R X S} (hp : System.Reachable sys init p) : D.Holds sys p := by
  refine hp.induct (P := fun p => D.Holds sys p) ?_ ?_
  · intro s hs
    exact ⟨(h0 s hs).1, fun t _ => (h0 s hs).2 t, fun t q ht => by simp [System.idle] at ht⟩
  · intro p p' m _ ih hs
    exact (ih.step hr hs).1

/-- The state grows along every run. -/
theorem grows {sys : System E R X S Op} {init : S → Prop}
    (hr : D.Respected sys) (h0 : ∀ s, init s → D.inv s ∧ ∀ t, D.idle t s)
    {p p' : Pool E R X S} (hp : System.Reachable sys init p)
    (h : System.Reaches sys p p') : D.grow p.shared p'.shared := by
  induction h with
  | refl => exact D.grow_refl _
  | tail hab hn ih =>
      obtain ⟨m, hm⟩ := hn
      exact D.grow_trans ih ((sound hr h0 (hp.trans hab)).step hr hm).2

end Discipline

end Lib
end SecureMessenger
