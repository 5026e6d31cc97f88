import SecureMessenger.Lib.Triples

/-!
# Evidence

A program that only passes on what it has been told can be checked without
speaking of states.  A state vouches for some things of a type `F`, and when it
grows it vouches for them still.  A thread with evidence for the things in a
list may run a program, which returns with evidence for further things.
-/

namespace SecureMessenger
namespace Lib
namespace Discipline

universe u

section Evidence

variable {E : Type u} {R : E → Type} {X S F Op : Type}

/-- What states vouch for, and keep vouching for. -/
structure Evidence (D : Discipline S) (F : Type) where
  vouches : F → S → Prop
  lasting : ∀ x, Lasting D (vouches x)

/-- The state vouches for everything in the list. -/
def Evidence.all {D : Discipline S} (V : Evidence D F) (l : List F) (s : S) : Prop :=
  ∀ x ∈ l, V.vouches x s

/-- What is known of the outcome of a program. -/
def onReturn {α : Type} (Q : α → List F) : Except X α → List F
  | .ok a => Q a
  | .error _ => []

/-- A thread with evidence for the things in the list may run the program. -/
def Informed {D : Discipline S} (V : Evidence D F)
    (exec : Tid → (e : E) → S → R e → S → Prop) (t : Tid) {α : Type}
    (l : List F) (p : Prog E R X α) (Q : α → List F) : Prop :=
  Triple D exec t (V.all l) p (fun a => V.all (Q a)) fun _ _ => True

variable {D : Discipline S} {V : Evidence D F}
  {exec : Tid → (e : E) → S → R e → S → Prop} {t : Tid} {α β σ : Type} {l l' : List F}
  {p : Prog E R X α} {f : α → Prog E R X β} {Q : α → List F} {Q₁ : β → List F}

theorem Evidence.all_lasting (V : Evidence D F) (l : List F) : Lasting D (V.all l) :=
  fun s s' h hg x hx => V.lasting x s s' (h x hx) hg

theorem Evidence.all_mono {s : S} (h : V.all l s) (hl : l' ⊆ l) : V.all l' s :=
  fun x hx => h x (hl hx)

theorem Evidence.all_nil {s : S} : V.all [] s :=
  fun x hx => by cases hx

namespace Informed

theorem mono (h : Informed V exec t l p Q) (hl : l ⊆ l') : Informed V exec t l' p Q :=
  Triple.mono h fun _ hs => Evidence.all_mono hs hl

theorem pure {a : α} (h : Q a ⊆ l) : Informed V exec t l (Pure.pure a : Prog E R X α) Q :=
  Triple.pure fun _ hs => Evidence.all_mono hs h

theorem throw {x : X} : Informed V exec t l (Prog.throw x : Prog E R X α) Q :=
  Triple.throw fun _ _ => trivial

theorem ofExcept {r : Except X α} (h : onReturn Q r ⊆ l) :
    Informed V exec t l (Prog.ofExcept r : Prog E R X α) Q := by
  cases r with
  | ok a => exact pure h
  | error x => exact throw

/-- Nothing more is learnt from an outcome that is handed on. -/
theorem handOn {r : Except X α} :
    Informed V exec t l (Prog.ofExcept r : Prog E R X α) fun _ => [] := by
  cases r with
  | ok a => exact pure (List.nil_subset l)
  | error x => exact throw

/-- What the first part has been told is at hand in the second. -/
theorem bind (hp : Informed V exec t l p Q)
    (hf : ∀ a, Informed V exec t (Q a ++ l) (f a) Q₁) : Informed V exec t l (p >>= f) Q₁ := by
  have hframe : Triple D exec t (fun s => V.all l s ∧ V.all l s) p
      (fun a s => V.all (Q a) s ∧ V.all l s) fun _ _ => True :=
    (Triple.frame (V.all_lasting l) hp).post (fun _ _ h => h) fun _ _ _ => trivial
  refine Triple.bind (hframe.mono fun s hs => ⟨hs, hs⟩) fun a =>
    Triple.mono (hf a) fun s hs x hx => ?_
  rcases List.mem_append.mp hx with hx | hx
  · exact hs.1 x hx
  · exact hs.2 x hx

/-- The same, without what the first part returns with. -/
theorem andThen (hp : Informed V exec t l p Q) (hf : ∀ a, Informed V exec t l (f a) Q₁) :
    Informed V exec t l (p >>= f) Q₁ :=
  hp.bind fun a => (hf a).mono (List.subset_append_right _ _)

theorem attempt (hp : Informed V exec t l p Q) :
    Informed V exec t l (Prog.attempt p) (onReturn Q) :=
  Triple.attempt hp (fun _ _ h => h) fun _ _ _ => Evidence.all_nil

/-- A `while` loop that needs the same evidence in every round. -/
theorem iterate {body : σ → Prog E R X (σ ⊕ β)} {x : σ}
    (hbody : ∀ x, Informed V exec t l (body x) fun r => (r.getRight?.map Q₁).getD []) :
    Informed V exec t l (Prog.iterate x body) Q₁ := by
  refine Triple.iterate (fun _ => V.all l) (fun _ => (V.all_lasting l).persists) (fun _ h => h)
    fun x => ?_
  have hframe : Triple D exec t (fun s => V.all l s ∧ V.all l s) (body x)
      (fun r s => V.all ((r.getRight?.map Q₁).getD []) s ∧ V.all l s) fun _ _ => True :=
    (Triple.frame (V.all_lasting l) (hbody x)).post (fun _ _ h => h) fun _ _ _ => trivial
  refine (hframe.mono fun s hs => ⟨hs, hs⟩).post (fun r s h => ⟨fun x' _ => h.2, fun b hb => ?_⟩)
    fun _ _ _ => trivial
  subst hb
  exact h.1

/-- A thread that starts with its evidence runs to an end. -/
theorem ends {sys : System E R X S Op} {q : Prog E R X Unit} {Q : Unit → List F}
    (h : Informed V sys.exec t l q Q) (hdone : ∀ s, D.inv s → D.done t s)
    (hfailed : ∀ s, D.inv s → D.failed t s) {s : S} (hinv : D.inv s) (hs : V.all l s) :
    D.Ends sys t q s :=
  Triple.ends h (fun s hs _ => hdone s hs) (fun _ s hs _ => hfailed s hs) hinv hs

end Informed

end Evidence

end Discipline
end Lib
end SecureMessenger
