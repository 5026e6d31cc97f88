import SecureMessenger.Lib.Discipline
import SecureMessenger.Lib.Segment

/-!
# Triples

What a thread knows may be stated without the drift of the others: a triple
says that a thread that knows `K` may run a program, knows `Q` when it returns
and `Z` when it throws.  The rules keep the invariant of the discipline, and ask
at each call that what is known is not made false by other threads.
-/

namespace SecureMessenger
namespace Lib
namespace Discipline

universe u

variable {E : Type u} {R : E → Type} {X S Op : Type}

/-- Other threads cannot make `K` false. -/
def Persists (D : Discipline S) (t : Tid) (K : S → Prop) : Prop :=
  ∀ s s', K s → D.Drift t s s' → K s'

/-- A thread that knows `K` may run the program. -/
def Triple (D : Discipline S) (exec : Tid → (e : E) → S → R e → S → Prop) (t : Tid) {α : Type}
    (K : S → Prop) (p : Prog E R X α) (Q : α → S → Prop) (Z : X → S → Prop) : Prop :=
  ∀ s, D.inv s → K s →
    D.Safe exec t p (fun a s' => D.inv s' ∧ Q a s') (fun x s' => D.inv s' ∧ Z x s') s

variable {D : Discipline S} {exec : Tid → (e : E) → S → R e → S → Prop} {t : Tid}
  {α β σ : Type} {K K' : S → Prop} {p : Prog E R X α} {f : α → Prog E R X β}
  {Q Q' : α → S → Prop} {Q₁ : β → S → Prop} {Z Z' : X → S → Prop}

/-- What the growth of the state keeps. -/
def Lasting (D : Discipline S) (K : S → Prop) : Prop :=
  ∀ s s', K s → D.grow s s' → K s'

theorem Lasting.persists (h : Lasting D K) : Persists D t K :=
  fun s s' hs hd => h s s' hs hd.grow

theorem Lasting.and (h : Lasting D K) (h' : Lasting D K') : Lasting D fun s => K s ∧ K' s :=
  fun s s' hs hg => ⟨h s s' hs.1 hg, h' s s' hs.2 hg⟩

theorem lasting_true : Lasting D fun _ => True :=
  fun _ _ _ _ => trivial

theorem Keeps.trans {s₁ s₂ s₃ : S} (h : D.Keeps t s₁ s₂) (h' : D.Keeps t s₂ s₃) :
    D.Keeps t s₁ s₃ :=
  ⟨h'.inv, D.grow_trans h.grow h'.grow, fun u hu => D.own_trans (h.own u hu) (h'.own u hu)⟩

namespace Triple

theorem pure {a : α} (h : ∀ s, K s → Q a s) : Triple D exec t K (Pure.pure a) Q Z :=
  fun s hinv hk => ⟨hinv, h s hk⟩

theorem throw {x : X} (h : ∀ s, K s → Z x s) : Triple D exec t K (Prog.throw x) Q Z :=
  fun s hinv hk => ⟨hinv, h s hk⟩

theorem ofExcept {r : Except X α} (hok : ∀ a, r = .ok a → ∀ s, K s → Q a s)
    (herror : ∀ x, r = .error x → ∀ s, K s → Z x s) :
    Triple D exec t K (Prog.ofExcept r) Q Z := by
  cases r with
  | ok a => exact pure (hok a rfl)
  | error x => exact throw (herror x rfl)

theorem mono (h : Triple D exec t K p Q Z) (hk : ∀ s, K' s → K s) :
    Triple D exec t K' p Q Z :=
  fun s hinv hs => h s hinv (hk s hs)

theorem post (h : Triple D exec t K p Q Z) (hq : ∀ a s, Q a s → Q' a s)
    (hz : ∀ x s, Z x s → Z' x s) : Triple D exec t K p Q' Z' :=
  fun s hinv hs => (h s hinv hs).mono (fun a s' h' => ⟨h'.1, hq a s' h'.2⟩)
    fun x s' h' => ⟨h'.1, hz x s' h'.2⟩

theorem bind (hp : Triple D exec t K p Q Z) (hf : ∀ a, Triple D exec t (Q a) (f a) Q₁ Z) :
    Triple D exec t K (p >>= f) Q₁ Z :=
  fun s hinv hs => (hp s hinv hs).andThen fun a s' h => hf a s' h.1 h.2

theorem attempt {W : Except X α → S → Prop} (hp : Triple D exec t K p Q Z)
    (hok : ∀ a s, Q a s → W (.ok a) s) (herror : ∀ x s, Z x s → W (.error x) s) :
    Triple D exec t K (Prog.attempt p) W Z' :=
  fun s hinv hs => Safe.attempt ((hp s hinv hs).mono (fun a s' h => ⟨h.1, hok a s' h.2⟩)
    fun x s' h => ⟨h.1, herror x s' h.2⟩)

/-- A `while` loop with the invariant `J`. -/
theorem iterate (J : σ → S → Prop) {body : σ → Prog E R X (σ ⊕ β)} {l : σ}
    (hJ : ∀ l, Persists D t (J l)) (hl : ∀ s, K s → J l s)
    (hbody : ∀ l, Triple D exec t (J l) (body l)
      (fun r s => (∀ l', r = .inl l' → J l' s) ∧ ∀ b, r = .inr b → Q₁ b s) Z) :
    Triple D exec t K (Prog.iterate l body) Q₁ Z := by
  intro s hinv hs
  refine Safe.iterate J (fun l s s' h hd => hJ l s s' h hd) (hl s hs) fun l' s' h hinv' => ?_
  refine (hbody l' s' hinv' h).mono ?_ fun x s'' hx => hx
  rintro (l'' | b) s'' ⟨hinv'', hagain, hend⟩
  · exact hagain l'' rfl
  · exact ⟨hinv'', hend b rfl⟩

/-- A call, and what follows. -/
theorem eff {e : E} {k : R e → Prog E R X α} {J : R e → S → Prop} (hK : Persists D t K)
    (he : ∀ s r s', D.inv s → K s → exec t e s r s' → D.Keeps t s s' ∧ J r s')
    (hk : ∀ r, Triple D exec t (J r) (k r) Q Z) : Triple D exec t K (.eff e k) Q Z := by
  intro s _ hs s₁ hd r s₂ hx
  obtain ⟨hkeeps, hJ⟩ := he s₁ r s₂ hd.inv (hK s s₁ hs hd) hx
  exact ⟨hkeeps, hk r s₂ hkeeps.inv hJ⟩

/-- A program that only makes calls `P`, none of which disturbs `K`. -/
theorem calls {P : E → Prop} (hK : Persists D t K)
    (hP : ∀ e s r s', P e → D.inv s → K s → exec t e s r s' → D.Keeps t s s' ∧ K s')
    (hp : Prog.Calls P p) : Triple D exec t K p (fun _ => K) fun _ => K :=
  fun _ hinv hs => (Safe.of_calls hK hP hp hs hinv).mono (fun _ _ h => ⟨h.2, h.1⟩)
    fun _ _ h => ⟨h.2, h.1⟩

/-- What lasts is known at the end as well. -/
theorem frame {J : S → Prop} (hJ : Lasting D J)
    (h : Triple D exec t K p Q Z) :
    Triple D exec t (fun s => K s ∧ J s) p (fun a s => Q a s ∧ J s) fun x s => Z x s ∧ J s :=
  fun s hinv hs => (Safe.frame hJ (h s hinv hs.1) hs.2).mono
    (fun _ _ h' => ⟨h'.1.1, h'.1.2, h'.2⟩) fun _ _ h' => ⟨h'.1.1, h'.1.2, h'.2⟩

/-- What a thread knows when it starts lets it run to an end. -/
theorem ends {sys : System E R X S Op} {q : Prog E R X Unit} {Q : Unit → S → Prop}
    (h : Triple D sys.exec t K q Q Z) (hdone : ∀ s, D.inv s → Q () s → D.done t s)
    (hfailed : ∀ x s, D.inv s → Z x s → D.failed t s) {s : S} (hinv : D.inv s) (hs : K s) :
    D.Ends sys t q s :=
  (h s hinv hs).mono (fun _ s' h' => hdone s' h'.1 h'.2) fun x s' h' => hfailed x s' h'.1 h'.2

end Triple

section Segments

variable {A M G : Type} {Reply : G → Type} {D : Discipline M} {t : Tid} {K : M → Prop}
  {settles : (g : G) → M → Except X (Reply g) → M → Prop}

/-- A segment. -/
theorem Triple.segment {α : Type} {activity : Option A} {f : M → α × M} {Q : α → M → Prop}
    {Z : X → M → Prop} (hK : Persists D t K)
    (hf : ∀ s, D.inv s → K s → D.Keeps t s (f s).2 ∧ Q (f s).1 (f s).2) :
    Triple D (Segmented.exec settles) t K (Lib.segment activity f) Q Z := by
  refine Triple.eff hK (J := Q) ?_ fun a => Triple.pure fun _ h => h
  rintro s a s' hinv hs ⟨rfl, rfl⟩
  exact hf s hinv hs

/-- Awaiting a promise. -/
theorem Triple.awaits {g : G} {Q : Reply g → M → Prop} {Z : X → M → Prop} (hK : Persists D t K)
    (hg : ∀ s r s', D.inv s → K s → settles g s r s' →
      D.Keeps t s s' ∧ (∀ a, r = .ok a → Q a s') ∧ ∀ x, r = .error x → Z x s') :
    Triple D (Segmented.exec (A := A) settles) t K (Lib.awaits g) Q Z :=
  Triple.eff hK (J := fun r s => (∀ a, r = .ok a → Q a s) ∧ ∀ x, r = .error x → Z x s) hg
    fun _ => Triple.ofExcept (fun a ha _ h => h.1 a ha) fun x hx _ h => h.2 x hx

end Segments

end Discipline
end Lib
end SecureMessenger
