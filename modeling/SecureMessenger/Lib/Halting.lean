import SecureMessenger.Lib.Parts
import SecureMessenger.Lib.Total
import Mathlib.Data.Nat.Find

/-!
# Threads that come to rest

A totally correct program comes to rest in every run: from some moment on its
thread takes no step, whatever the others go on doing.  To show this the calls
may be taken more loosely than they are, for instance as never waiting.  In a
fair run it rests only where it cannot go on for ever.
-/

namespace SecureMessenger
namespace Lib

universe u

variable {E : Type u} {R : E → Type} {X S Op : Type} {sys : System E R X S Op} {init : S → Prop}
  {exec : Tid → (e : E) → S → R e → S → Prop} {rely : S → S → Prop} {t : Tid}

/-- The program is totally correct wherever the others have moved. -/
theorem Total.drift {α : Type} {p : Prog E R X α} {Q : α → S → Prop} {Z : X → S → Prop} {s s' : S}
    (h : Total exec rely t p Q Z s) (htrans : ∀ {s₁ s₂ s₃}, rely s₁ s₂ → rely s₂ s₃ → rely s₁ s₃)
    (hQ : ∀ a s s', Q a s → rely s s' → Q a s') (hZ : ∀ x s s', Z x s → rely s s' → Z x s')
    (hr : rely s s') : Total exec rely t p Q Z s' := by
  cases h with
  | ret h => exact .ret (hQ _ _ _ h hr)
  | throw h => exact .throw (hZ _ _ _ h hr)
  | eff henabled h =>
      exact .eff (fun s₁ hr₁ => henabled s₁ (htrans hr hr₁)) fun s₁ r s₂ hr₁ hx =>
        h s₁ r s₂ (htrans hr hr₁) hx
  | loop h => exact .loop fun s₁ hr₁ => h s₁ (htrans hr hr₁)

/-- The program comes to an end in one way or another. -/
abbrev Halts (exec : Tid → (e : E) → S → R e → S → Prop) (rely : S → S → Prop) (t : Tid) {α : Type}
    (p : Prog E R X α) (s : S) : Prop :=
  Total exec rely t p (fun _ _ => True) (fun _ _ => True) s

/-- What a system and a loose reading of its calls must have in common. -/
structure Loose (sys : System E R X S Op) (init : S → Prop)
    (exec : Tid → (e : E) → S → R e → S → Prop) (rely : S → S → Prop) : Prop where
  calls : ∀ {t e s r s'}, sys.exec t e s r s' → exec t e s r s'
  refl : ∀ s, rely s s
  trans : ∀ {s₁ s₂ s₃}, rely s₁ s₂ → rely s₂ s₃ → rely s₁ s₃
  step : ∀ {p p' : Pool E R X S}, System.Reachable sys init p → System.Next sys p p' →
    rely p.shared p'.shared
  halts : ∀ {p : Pool E R X S} {t op s'}, System.Reachable sys init p →
    sys.start t op p.shared s' → Halts exec rely t (sys.prog t op) s'

/-- Every thread of a reachable pool has a program that comes to an end. -/
theorem Loose.threads (L : Loose sys init exec rely) {p : Pool E R X S}
    (hp : System.Reachable sys init p) :
    ∀ t q, p.threads t = some q → Halts exec rely t q p.shared := by
  refine hp.induct (P := fun p => ∀ t q, p.threads t = some q → Halts exec rely t q p.shared) ?_ ?_
  · intro s _ t q ht
    cases ht
  · intro p p' m hp ih hs
    have hr := L.step hp ⟨m, hs⟩
    have hdrift : ∀ u q, p.threads u = some q → Halts exec rely u q p'.shared := fun u q hu =>
      (ih u q hu).drift L.trans (fun _ _ _ _ _ => trivial) (fun _ _ _ _ _ => trivial) hr
    have hupdate : ∀ {t : Tid} {q' : Prog E R X Unit}, Halts exec rely t q' p'.shared →
        ∀ u q, Function.update p.threads t (some q') u = some q →
          Halts exec rely u q p'.shared := by
      intro t q' hq' u q hu
      by_cases hut : u = t
      · subst hut
        simp only [Function.update_self, Option.some.injEq] at hu
        rw [← hu]
        exact hq'
      · simp only [Function.update_of_ne hut] at hu
        exact hdrift u q hu
    cases hs with
    | act ht hx =>
        refine hupdate ?_
        cases ih _ _ ht with
        | eff _ h => exact h _ _ _ (L.refl _) (L.calls hx)
    | unfold ht =>
        refine hupdate ?_
        cases ih _ _ ht with
        | loop h => exact h _ (L.refl _)
    | start ht hst => exact hupdate (L.halts hp hst)
    | stop ht hst => exact hupdate (.ret trivial)
    | env hst => exact hdrift

/-- The thread takes a step at this moment of the run. -/
def Timeline.Acts (T : Timeline sys init) (t : Tid) (n : Nat) : Prop :=
  ∃ m, (m = .act t ∨ m = .unfold t) ∧ System.Step sys m (T.pool n) (T.pool (n + 1))

/-- While it takes no step, the program of a thread stays as it is. -/
theorem Timeline.stays (T : Timeline sys init) {q : Prog E R X Unit} {m n : Nat} (hmn : m ≤ n)
    (hstop : ∀ t s s', ¬sys.stop t s s') (hq : (T.pool m).threads t = some q)
    (hrest : ∀ k, m ≤ k → k < n → ¬T.Acts t k) : (T.pool n).threads t = some q := by
  induction hmn with
  | refl => exact hq
  | @step n hmn ih =>
      have hn := ih fun k h₁ h₂ => hrest k h₁ (Nat.lt_succ_of_lt h₂)
      rcases T.next n with h | ⟨m', hs⟩
      · rw [h]
        exact hn
      · have hno := hrest n hmn (Nat.lt_succ_self n)
        generalize hp : T.pool n = p at hs hn
        generalize hp' : T.pool (n + 1) = p' at hs ⊢
        have hacts : ∀ m'', m'' = .act t ∨ m'' = .unfold t → ¬System.Step sys m'' p p' :=
          fun m'' hm hstep => hno ⟨m'', hm, by rw [hp, hp']; exact hstep⟩
        have hother : ∀ u (q' : Prog E R X Unit), u ≠ t →
            Function.update p.threads u (some q') t = some q := fun u q' hut => by
          rw [Function.update_of_ne (Ne.symm hut)]
          exact hn
        cases hs with
        | act ht hx =>
            refine hother _ _ ?_
            rintro rfl
            exact hacts _ (.inl rfl) (.act ht hx)
        | unfold ht =>
            refine hother _ _ ?_
            rintro rfl
            exact hacts _ (.inr rfl) (.unfold ht)
        | start ht hst =>
            refine hother _ _ ?_
            rintro rfl
            rw [hn] at ht
            cases ht
        | stop ht hst => exact absurd hst (hstop _ _ _)
        | env hst => exact hn

/-- **Every thread comes to rest.** -/
theorem Loose.rests (L : Loose sys init exec rely) (hstop : ∀ t s s', ¬sys.stop t s s')
    (T : Timeline sys init) (t : Tid) : ∃ N, ∀ n, N ≤ n → ¬T.Acts t n := by
  have hfrom : ∀ m q, (T.pool m).threads t = some q → ∃ N, ∀ n, N ≤ n → ¬T.Acts t n := by
    intro m q hq
    have hacc := (L.threads (T.reachable m) t q hq).acc
    generalize hc : (q, (T.pool m).shared) = c at hacc
    induction hacc generalizing m q with
    | intro c _ ih =>
        subst hc
        by_cases hact : ∃ n, m ≤ n ∧ T.Acts t n
        · -- the next step of the thread
          classical
          obtain ⟨hmn, hn⟩ := Nat.find_spec hact
          have hstays := T.stays hmn hstop hq fun k h₁ h₂ hk =>
            Nat.find_min hact h₂ ⟨h₁, hk⟩
          have hrely : rely (T.pool m).shared (T.pool (Nat.find hact)).shared := by
            have hsteps : ∀ n, m ≤ n → rely (T.pool m).shared (T.pool n).shared := by
              intro n hle
              induction hle with
              | refl => exact L.refl _
              | @step n _ ih' =>
                  rcases T.next n with h | h
                  · rw [h]
                    exact ih'
                  · exact L.trans ih' (L.step (T.reachable n) h)
            exact hsteps _ hmn
          obtain ⟨m', hm', hs⟩ := hn
          generalize hk : Nat.find hact = k at hs hstays hrely
          have hturn : System.Turn { sys with exec := exec } rely t
              ⟨(T.pool m).shared, (T.pool k).threads⟩ (T.pool (k + 1)) := by
            refine ⟨T.pool k, m', hrely, rfl, hm', ?_⟩
            generalize T.pool k = p at hs ⊢
            generalize T.pool (k + 1) = p' at hs ⊢
            rcases hm' with rfl | rfl
            · cases hs with
              | act ht hx => exact .act ht (L.calls hx)
            · cases hs with
              | unfold ht => exact .unfold ht
          obtain ⟨q', hq', hmoves⟩ := System.Turn.moves
            (p := ⟨(T.pool m).shared, (T.pool k).threads⟩) hstays hturn
          exact ih _ hmoves (k + 1) q' hq' rfl
        · exact ⟨m, fun n hn h => hact ⟨n, hn, h⟩⟩
  by_cases h : ∃ m q, (T.pool m).threads t = some q
  · obtain ⟨m, q, hq⟩ := h
    exact hfrom m q hq
  · refine ⟨0, fun n _ hn => ?_⟩
    obtain ⟨m, hm, hs⟩ := hn
    have hnone : ∀ q, (T.pool n).threads t ≠ some q := fun q hq => h ⟨n, q, hq⟩
    generalize T.pool n = p at hs hnone
    generalize T.pool (n + 1) = p' at hs
    rcases hm with rfl | rfl
    · cases hs with
      | act ht hx => exact hnone _ ht
    · cases hs with
      | unfold ht => exact hnone _ ht

/-! ## Fair runs -/

/-- The thread can take a step. -/
def System.Enabled (sys : System E R X S Op) (p : Pool E R X S) (t : Tid) : Prop :=
  ∃ m p', (m = .act t ∨ m = .unfold t) ∧ System.Step sys m p p'

theorem System.Enabled.running {p : Pool E R X S} (h : System.Enabled sys p t) :
    ∃ q, p.threads t = some q ∧ q ≠ .ret () := by
  obtain ⟨m, p', rfl | rfl, hs⟩ := h
  · cases hs with
    | act ht hx => exact ⟨_, ht, fun heq => by cases heq⟩
  · cases hs with
    | unfold ht => exact ⟨_, ht, fun heq => by cases heq⟩

/-- A thread that can go on at every moment goes on at some moment. -/
def Timeline.Fair (T : Timeline sys init) : Prop :=
  ∀ t n, (∀ m, n ≤ m → System.Enabled sys (T.pool m) t) → ∃ m, n ≤ m ∧ T.Acts t m

/-- A thread that has been started is there for ever. -/
theorem Timeline.present (T : Timeline sys init) {q : Prog E R X Unit} {m n : Nat} (hmn : m ≤ n)
    (hq : (T.pool m).threads t = some q) : ∃ q', (T.pool n).threads t = some q' := by
  induction hmn with
  | refl => exact ⟨q, hq⟩
  | @step n _ ih =>
      obtain ⟨q', hq'⟩ := ih
      rcases T.next n with h | ⟨m', hs⟩
      · exact ⟨q', by rw [h, hq']⟩
      · generalize T.pool n = p at hs hq'
        generalize T.pool (n + 1) = p' at hs ⊢
        have hupdate : ∀ u (r : Prog E R X Unit),
            ∃ q'', Function.update p.threads u (some r) t = some q'' := by
          intro u r
          by_cases hut : t = u
          · subst hut
            exact ⟨r, Function.update_self ..⟩
          · exact ⟨q', by rw [Function.update_of_ne hut, hq']⟩
        cases hs with
        | act ht hx => exact hupdate _ _
        | unfold ht => exact hupdate _ _
        | start ht hst => exact hupdate _ _
        | stop ht hst => exact hupdate _ _
        | env hst => exact ⟨q', hq'⟩

/-- In a fair run a thread comes to rest where it cannot go on for ever. -/
theorem Loose.rests_unable (L : Loose sys init exec rely) (hstop : ∀ t s s', ¬sys.stop t s s')
    (T : Timeline sys init) (hT : T.Fair) (t : Tid) (n : Nat) :
    ∃ m, n ≤ m ∧ (∀ k, m ≤ k → ¬T.Acts t k) ∧
      ¬∀ k, m ≤ k → System.Enabled sys (T.pool k) t := by
  obtain ⟨N, hN⟩ := L.rests hstop T t
  have hrest : ∀ k, max n N ≤ k → ¬T.Acts t k := fun k hk =>
    hN k (le_trans (le_max_right n N) hk)
  refine ⟨max n N, le_max_left n N, hrest, fun hall => ?_⟩
  obtain ⟨k, hk, hacts⟩ := hT t _ hall
  exact hrest k hk hacts

end Lib
end SecureMessenger
