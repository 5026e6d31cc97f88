import SecureMessenger.Lib.Triples

/-!
# Systems made of parts

Of two systems that run side by side, one may be given by a run of it, which
the other can only watch: what holds of every run then holds of every
interleaving.  A program of one part is a program of the whole, whose calls are
among those of the whole.
-/

namespace SecureMessenger
namespace Lib

universe u v

section Timelines

variable {E : Type u} {R : E → Type} {X S Op : Type}

/-- A run of a system, moment by moment; it may rest. -/
structure Timeline (sys : System E R X S Op) (init : S → Prop) where
  pool : Nat → Pool E R X S
  first : System.Reachable sys init (pool 0)
  next : ∀ n, pool (n + 1) = pool n ∨ System.Next sys (pool n) (pool (n + 1))

namespace Timeline

variable {sys : System E R X S Op} {init : S → Prop} (T : Timeline sys init)

theorem reaches {m n : Nat} (h : m ≤ n) : System.Reaches sys (T.pool m) (T.pool n) := by
  induction h with
  | refl => exact Relation.ReflTransGen.refl
  | @step n _ ih =>
      rcases T.next n with hrest | hstep
      · rw [hrest]
        exact ih
      · exact ih.tail hstep

theorem reachable (n : Nat) : System.Reachable sys init (T.pool n) :=
  T.first.trans (T.reaches (Nat.zero_le n))

/-- The run that rests. -/
def resting {p : Pool E R X S} (hp : System.Reachable sys init p) : Timeline sys init where
  pool _ := p
  first := hp
  next _ := .inl rfl

/-- From some moment on nothing happens any more. -/
def stopAt (m : Nat) : Timeline sys init where
  pool n := T.pool (min n m)
  first := by
    rw [Nat.zero_min]
    exact T.first
  next n := by
    rcases Nat.lt_or_ge n m with hlt | hge
    · rw [Nat.min_eq_left (Nat.le_of_lt hlt), Nat.min_eq_left hlt]
      exact T.next n
    · rw [Nat.min_eq_right hge, Nat.min_eq_right (Nat.le_succ_of_le hge)]
      exact .inl rfl

/-- From some moment on, one step further and no more. -/
def goingOn (n : Nat) {p : Pool E R X S} (h : System.Next sys (T.pool n) p) :
    Timeline sys init where
  pool k := if k ≤ n then T.pool k else p
  first := by
    rw [if_pos (Nat.zero_le n)]
    exact T.first
  next k := by
    rcases Nat.lt_trichotomy k n with hlt | rfl | hgt
    · have hsucc : k + 1 ≤ n := hlt
      rw [if_pos hsucc, if_pos (Nat.le_of_lt hlt)]
      exact T.next k
    · rw [if_neg (Nat.not_succ_le_self k), if_pos (Nat.le_refl k)]
      exact .inr h
    · rw [if_neg (by omega), if_neg (by omega)]
      exact .inl rfl

/-- A run can go on from any of its moments to whatever is reached from there. -/
theorem exists_onto (n : Nat) {p : Pool E R X S} (h : System.Reaches sys (T.pool n) p) :
    ∃ (T' : Timeline sys init) (m : Nat), n ≤ m ∧ (∀ k ≤ n, T'.pool k = T.pool k) ∧
      T'.pool m = p := by
  induction h with
  | refl => exact ⟨T, n, Nat.le_refl n, fun _ _ => rfl, rfl⟩
  | @tail q r _ hnext ih =>
      obtain ⟨T', m, hnm, hsame, hm⟩ := ih
      rw [← hm] at hnext
      refine ⟨T'.goingOn m hnext, m + 1, Nat.le_succ_of_le hnm, fun k hk => ?_, ?_⟩
      · exact (if_pos (Nat.le_trans hk hnm)).trans (hsame k hk)
      · exact if_neg (Nat.not_succ_le_self m)

end Timeline

end Timelines

section Programs

variable {E : Type u} {R : E → Type} {E' : Type v} {R' : E' → Type} {X S : Type}

/-- A program of a part, as one of the whole. -/
def Prog.lift (call : E → E') (answer : ∀ e, R' (call e) → R e) :
    {α : Type} → Prog E R X α → Prog E' R' X α
  | _, .ret a => .ret a
  | _, .throw x => .throw x
  | _, .eff e k => .eff (call e) fun r => lift call answer (k (answer e r))
  | _, .loop l body k =>
      .loop l (fun l => lift call answer (body l)) fun b => lift call answer (k b)

variable {call : E → E'} {answer : ∀ e, R' (call e) → R e} {D : Discipline S} {t : Tid}
  {exec : Tid → (e : E) → S → R e → S → Prop} {exec' : Tid → (e : E') → S → R' e → S → Prop}

/-- What is safe for a part is safe for the whole, if the calls of the part do
there what they do in the part. -/
theorem Discipline.Safe.lift
    (hexec : ∀ e s r s', exec' t (call e) s r s' → exec t e s (answer e r) s') {α : Type}
    {p : Prog E R X α} : ∀ {Q : α → S → Prop} {Z : X → S → Prop} {s : S},
      D.Safe exec t p Q Z s → D.Safe exec' t (p.lift call answer) Q Z s := by
  induction p with
  | ret a =>
      intro Q Z s h
      exact h
  | throw x =>
      intro Q Z s h
      exact h
  | eff e k ih =>
      intro Q Z s h s₁ hd r s₂ hx
      obtain ⟨hkeeps, hsafe⟩ := h s₁ hd (answer e r) s₂ (hexec e s₁ r s₂ hx)
      exact ⟨hkeeps, ih _ hsafe⟩
  | loop l body k ihb ihk =>
      intro Q Z s h
      obtain ⟨J, hstable, hl, hbody⟩ := h
      refine ⟨J, hstable, hl, fun l' s' hJ hinv => ?_⟩
      refine (ihb l' (hbody l' s' hJ hinv)).mono ?_ ?_
      · rintro (l'' | b) s'' h''
        · exact h''
        · exact ihk (.ok b) h''
      · intro x s'' h''
        exact ihk (.error x) h''

theorem Discipline.Triple.lift {α : Type} {p : Prog E R X α} {K : S → Prop} {Q : α → S → Prop}
    {Z : X → S → Prop} (h : Discipline.Triple D exec t K p Q Z)
    (hexec : ∀ e s r s', exec' t (call e) s r s' → exec t e s (answer e r) s') :
    Discipline.Triple D exec' t K (p.lift call answer) Q Z :=
  fun s hinv hk => (h s hinv hk).lift hexec

end Programs

end Lib
end SecureMessenger
