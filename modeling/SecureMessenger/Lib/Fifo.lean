import SecureMessenger.Lib.Pool

/-!
# Chains of operations

A service that hangs each operation on the promise of the one before lets one
operation run at a time, in the order of the calls.  Whatever the operations
await, what has come of them is what would have come of running them one after
the other, each by itself.
-/

namespace SecureMessenger
namespace Lib

universe u

/-! ## One operation after the other -/

/-- The steps lead from one state to the other, one after the other. -/
def Sequence {α S : Type} (step : α → S → S → Prop) : List α → S → S → Prop
  | [], s, s' => s' = s
  | a :: l, s, s' => ∃ s₁, step a s s₁ ∧ Sequence step l s₁ s'

section Sequence

variable {α S : Type} {step step' : α → S → S → Prop} {l l' : List α} {a : α} {s s' : S}

theorem sequence_append :
    Sequence step (l ++ l') s s' ↔ ∃ s₁, Sequence step l s s₁ ∧ Sequence step l' s₁ s' := by
  induction l generalizing s with
  | nil => simp [Sequence]
  | cons a l ih =>
      simp only [List.cons_append, Sequence, ih]
      constructor
      · rintro ⟨s₁, ha, s₂, hl, hl'⟩
        exact ⟨s₂, ⟨s₁, ha, hl⟩, hl'⟩
      · rintro ⟨s₂, ⟨s₁, ha, hl⟩, hl'⟩
        exact ⟨s₁, ha, s₂, hl, hl'⟩

theorem Sequence.snoc {s₁ : S} (h : Sequence step l s s₁) (ha : step a s₁ s') :
    Sequence step (l ++ [a]) s s' :=
  sequence_append.mpr ⟨s₁, h, s', ha, rfl⟩

theorem Sequence.mono (h : Sequence step l s s')
    (hstep : ∀ a ∈ l, ∀ s s', step a s s' → step' a s s') : Sequence step' l s s' := by
  induction l generalizing s with
  | nil => exact h
  | cons a l ih =>
      obtain ⟨s₁, ha, hl⟩ := h
      exact ⟨s₁, hstep a List.mem_cons_self _ _ ha,
        ih hl fun b hb => hstep b (List.mem_cons_of_mem a hb)⟩

/-- What every step keeps holds at the end. -/
theorem Sequence.keeps {P : S → Prop} (h : Sequence step l s s') (hs : P s)
    (hstep : ∀ a ∈ l, ∀ s s', step a s s' → P s → P s') : P s' := by
  induction l generalizing s with
  | nil =>
      obtain rfl : s' = s := h
      exact hs
  | cons a l ih =>
      obtain ⟨s₁, ha, hl⟩ := h
      exact ih hl (hstep a List.mem_cons_self _ _ ha hs) fun b hb =>
        hstep b (List.mem_cons_of_mem a hb)

end Sequence

/-! ## Chained operations -/

/-- The calls of an operation, and its place in the chain. -/
inductive Chained (E : Type u) (X V : Type) : Type u
  | call (e : E)
  /-- The earlier operations have settled. -/
  | turn
  /-- The promise of the operation settles. -/
  | settle (outcome : Except X V)

/-- What a call answers. -/
def Chained.Answer {E : Type u} {X V : Type} (R : E → Type) : Chained E X V → Type
  | .call e => R e
  | .turn => Unit
  | .settle _ => Unit

/-- A call of the operation itself. -/
def Chained.Own {E : Type u} {X V : Type} : Chained E X V → Prop
  | .call _ => True
  | _ => False

section Chains

variable {E : Type u} {R : E → Type} {X V S Op : Type}

/-- Operations. -/
abbrev Chaining (R : E → Type) (X V : Type) :=
  Prog (Chained E X V) (Chained.Answer R) X

/-- Make a call. -/
def chainedCall (e : E) : Chaining R X V (R e) :=
  .eff (.call e) fun (r : R e) => .ret r

/-- What an operation does if nobody else is at work. -/
inductive Alone (exec : (e : E) → S → R e → S → Prop) :
    {α : Type} → Chaining R X V α → S → Except X α → S → Prop
  | ret {α : Type} (a : α) (s : S) : Alone exec (.ret a) s (.ok a) s
  | throw {α : Type} (x : X) (s : S) : Alone exec (α := α) (.throw x) s (.error x) s
  | call {α : Type} {e : E} {k : R e → Chaining R X V α} {s s₁ s' : S} {r : R e}
      {o : Except X α} (hx : exec e s r s₁) (hk : Alone exec (k r) s₁ o s') :
      Alone exec (.eff (.call e) k) s o s'
  | loop {α σ β : Type} {l : σ} {body : σ → Chaining R X V (σ ⊕ β)}
      {k : Except X β → Chaining R X V α} {s s' : S} {o : Except X α}
      (h : Alone exec (.unroll l body k) s o s') : Alone exec (.loop l body k) s o s'

theorem alone_call {exec : (e : E) → S → R e → S → Prop} {α : Type} {e : E}
    {k : R e → Chaining R X V α} {s s' : S} {o : Except X α}
    (h : Alone exec (.eff (.call e) k) s o s') :
    ∃ r s₁, exec e s r s₁ ∧ Alone exec (k r) s₁ o s' := by
  cases h with
  | call hx hk => exact ⟨_, _, hx, hk⟩

theorem alone_ret {exec : (e : E) → S → R e → S → Prop} {α : Type} {a : α} {s s' : S}
    {o : Except X α} (h : Alone exec (.ret a : Chaining R X V α) s o s') :
    o = .ok a ∧ s' = s := by
  cases h with
  | ret => exact ⟨rfl, rfl⟩

theorem alone_throw {exec : (e : E) → S → R e → S → Prop} {α : Type} {x : X} {s s' : S}
    {o : Except X α} (h : Alone exec (.throw x : Chaining R X V α) s o s') :
    o = .error x ∧ s' = s := by
  cases h with
  | throw => exact ⟨rfl, rfl⟩

/-- The rest of an operation, and its end. -/
def finishing (p : Chaining R X V V) : Chaining R X V Unit :=
  Prog.attempt p >>= fun outcome => .eff (.settle outcome) fun _ => .ret ()

/-- An operation in the chain. -/
def chained (p : Chaining R X V V) : Chaining R X V Unit :=
  .eff .turn fun _ => finishing p

/-- The state that the operations share, and the chain.  `op`, `called`,
`finished`, `committed` and `running` only record what happens. -/
structure Chain (S Op X V : Type) where
  store : S
  /-- The operations that have not settled, in order. -/
  pending : List Tid := []
  op : Tid → Option Op := fun _ => none
  called : List Tid := []
  /-- The operations that have settled, and how. -/
  finished : List (Tid × Except X V) := []
  /-- The state when an operation settled last. -/
  committed : S
  running : Option Tid := none

/-- Nothing has been called yet. -/
def Chain.fresh (s₀ : S) : Chain S Op X V :=
  { store := s₀, committed := s₀ }

variable (exec : (e : E) → S → R e → S → Prop) (operation : Op → Chaining R X V V)

/-- What the calls do. -/
def Chain.perform (t : Tid) :
    (c : Chained E X V) → Chain S Op X V → Chained.Answer R c → Chain S Op X V → Prop
  | .call e, s, r, s' => ∃ store, exec e s.store r store ∧ s' = { s with store := store }
  | .turn, s, _, s' => s.pending.head? = some t ∧ s' = { s with running := some t }
  | .settle outcome, s, _, s' => s' = { s with
      pending := s.pending.erase t
      finished := s.finished ++ [(t, outcome)]
      committed := s.store
      running := none }

/-- The service: operations may be called at any time. -/
def chain : System (Chained E X V) (Chained.Answer R) X (Chain S Op X V) Op where
  exec := Chain.perform exec
  prog := fun _ op => chained (operation op)
  start := fun t op s s' => s' = { s with
    pending := s.pending ++ [t]
    op := Function.update s.op t (some op)
    called := s.called ++ [t] }
  stop := fun _ _ _ => False
  env := fun _ _ => False

/-- The operation, by itself, leads from one state to the other with this
outcome. -/
def Took (ops : Tid → Option Op) (entry : Tid × Except X V) (s s' : S) : Prop :=
  ∃ op, ops entry.1 = some op ∧ Alone exec (operation op) s entry.2 s'

/-- Where a thread stands. -/
inductive Chain.Stage (s : Chain S Op X V) (t : Tid) : Chaining R X V Unit → Prop
  | waiting {op : Op} (hop : s.op t = some op) (hmem : t ∈ s.pending)
      (hrunning : s.running ≠ some t) : Stage s t (chained (operation op))
  | running {op : Op} {p : Chaining R X V V} (hop : s.op t = some op)
      (hrunning : s.running = some t) (hown : Prog.Calls Chained.Own p)
      (halone : ∀ o s', Alone exec p s.store o s' → Alone exec (operation op) s.committed o s') :
      Stage s t (finishing p)
  | done : Stage s t (.ret ())

/-- What holds in every reachable state. -/
structure Orderly (s₀ : S) (p : Pool (Chained E X V) (Chained.Answer R) X (Chain S Op X V)) :
    Prop where
  called : p.shared.called = p.shared.finished.map Prod.fst ++ p.shared.pending
  nodup : p.shared.called.Nodup
  unstarted : ∀ t, p.threads t = none → t ∉ p.shared.called
  sequence : Sequence (Took exec operation p.shared.op) p.shared.finished s₀ p.shared.committed
  rest : p.shared.running = none → p.shared.store = p.shared.committed
  first : ∀ t, p.shared.running = some t → p.shared.pending.head? = some t
  stage : ∀ t q, p.threads t = some q → p.shared.Stage exec operation t q

variable {exec operation} {s₀ : S}
  {p : Pool (Chained E X V) (Chained.Answer R) X (Chain S Op X V)}

theorem finishing_unroll {σ β : Type} (l : σ) (body : σ → Chaining R X V (σ ⊕ β))
    (k : Except X β → Chaining R X V V) :
    finishing (.unroll l body k) = .unroll l body fun b => finishing (k b) := by
  unfold finishing
  rw [Prog.attempt_unroll, Prog.unroll_bind]

/-- One step of a thread: the stages of the others are kept. -/
theorem stage_update {s s' : Chain S Op X V} {threads : Tid → Option (Chaining R X V Unit)}
    {t : Tid} {q' : Chaining R X V Unit}
    (h : ∀ u q, threads u = some q → s.Stage exec operation u q)
    (hothers : ∀ u q, u ≠ t → s.Stage exec operation u q → s'.Stage exec operation u q)
    (hq' : s'.Stage exec operation t q') (u : Tid) (q : Chaining R X V Unit)
    (hu : Function.update threads t (some q') u = some q) : s'.Stage exec operation u q := by
  by_cases hut : u = t
  · subst hut
    simp only [Function.update_self, Option.some.injEq] at hu
    exact hu ▸ hq'
  · simp only [Function.update_of_ne hut] at hu
    exact hothers u q hut (h u q hu)

theorem unstarted_update {called : List Tid} {threads : Tid → Option (Chaining R X V Unit)}
    {t : Tid} {q' : Chaining R X V Unit} (h : ∀ u, threads u = none → u ∉ called) (u : Tid)
    (hu : Function.update threads t (some q') u = none) : u ∉ called := by
  by_cases hut : u = t
  · subst hut
    simp at hu
  · simp only [Function.update_of_ne hut] at hu
    exact h u hu

/-- Another thread than the one whose turn it is can only be waiting or done. -/
theorem stage_others {s s' : Chain S Op X V} {t u : Tid} {q : Chaining R X V Unit}
    (hrunning : s.running = some t) (hut : u ≠ t) (hu : s.Stage exec operation u q)
    (hop : s'.op = s.op) (hpending : u ∈ s.pending → u ∈ s'.pending)
    (hrunning' : s'.running ≠ some u) : s'.Stage exec operation u q := by
  cases hu with
  | waiting hop' hmem hne => exact .waiting (hop ▸ hop') (hpending hmem) hrunning'
  | running hop' hrun hown halone =>
      rw [hrunning] at hrun
      exact absurd (Option.some.inj hrun).symm hut
  | done => exact .done

/-- The turn of an operation has come. -/
theorem Orderly.turn (h : Orderly exec operation s₀ p) {t : Tid} {op : Op}
    (hcalls : Prog.Calls Chained.Own (operation op)) (hop : p.shared.op t = some op)
    (hfirst : p.shared.pending.head? = some t) (hrunning : p.shared.running ≠ some t) :
    Orderly exec operation s₀ ⟨{ p.shared with running := some t },
      Function.update p.threads t (some (finishing (operation op)))⟩ := by
  have hnone : p.shared.running = none := by
    cases hrun : p.shared.running with
    | none => rfl
    | some u =>
        have hu := h.first u hrun
        rw [hfirst, Option.some.injEq] at hu
        exact absurd (hu ▸ hrun) hrunning
  refine ⟨h.called, h.nodup, unstarted_update h.unstarted, h.sequence, fun hrest => ?_,
    fun u hu => ?_, stage_update h.stage (fun u q hut hu => ?_) ?_⟩
  · cases hrest
  · obtain rfl : t = u := Option.some.inj hu
    exact hfirst
  · cases hu with
    | waiting hop hmem hne => exact .waiting hop hmem fun heq => hut (Option.some.inj heq).symm
    | running hop hrun hown halone =>
        rw [hnone] at hrun
        cases hrun
    | done => exact .done
  · refine .running hop rfl hcalls fun o s₁ halone => ?_
    rw [← h.rest hnone]
    exact halone

/-- An operation settles. -/
theorem Orderly.settle (h : Orderly exec operation s₀ p) {t : Tid} {op : Op}
    {outcome : Except X V} (hop : p.shared.op t = some op) (hrunning : p.shared.running = some t)
    (halone : Alone exec (operation op) p.shared.committed outcome p.shared.store) :
    Orderly exec operation s₀ ⟨{ p.shared with
      pending := p.shared.pending.erase t
      finished := p.shared.finished ++ [(t, outcome)]
      committed := p.shared.store
      running := none }, Function.update p.threads t (some (.ret ()))⟩ := by
  have hpending : p.shared.pending = t :: p.shared.pending.erase t := by
    cases hlist : p.shared.pending with
    | nil =>
        have hfirst := h.first t hrunning
        rw [hlist] at hfirst
        cases hfirst
    | cons u rest =>
        have hfirst := h.first t hrunning
        rw [hlist] at hfirst
        obtain rfl : u = t := Option.some.inj hfirst
        simp
  refine ⟨?_, h.nodup, unstarted_update h.unstarted, h.sequence.snoc ⟨op, hop, halone⟩,
    fun _ => rfl, fun u hu => ?_, stage_update h.stage (fun u q hut hu => ?_) .done⟩
  · rw [h.called]
    simp only [List.map_append, List.map_cons, List.map_nil, List.append_assoc]
    rw [List.singleton_append, ← hpending]
  · cases hu
  · refine stage_others hrunning hut hu rfl (fun hmem => ?_) fun heq => ?_
    · exact (List.mem_erase_of_ne hut).mpr hmem
    · cases heq

/-- The operation whose turn it is goes on. -/
theorem Orderly.goesOn (h : Orderly exec operation s₀ p) {t : Tid} {op : Op} {store : S}
    {q : Chaining R X V V} (hop : p.shared.op t = some op) (hrunning : p.shared.running = some t)
    (hown : Prog.Calls Chained.Own q)
    (halone : ∀ o s', Alone exec q store o s' → Alone exec (operation op) p.shared.committed o s') :
    Orderly exec operation s₀ ⟨{ p.shared with store := store },
      Function.update p.threads t (some (finishing q))⟩ := by
  refine ⟨h.called, h.nodup, unstarted_update h.unstarted, h.sequence, fun hrest => ?_, h.first,
    stage_update h.stage (fun u q hut hu => ?_) (.running hop hrunning hown halone)⟩
  · have hrest' : p.shared.running = none := hrest
    rw [hrunning] at hrest'
    cases hrest'
  · refine stage_others hrunning hut hu rfl (fun hmem => hmem) fun heq => ?_
    have heq' : p.shared.running = some u := heq
    rw [hrunning] at heq'
    exact hut (Option.some.inj heq').symm

/-- An operation is called. -/
theorem Orderly.start (h : Orderly exec operation s₀ p) {t : Tid} {op : Op}
    (ht : p.threads t = none) :
    Orderly exec operation s₀ ⟨{ p.shared with
      pending := p.shared.pending ++ [t]
      op := Function.update p.shared.op t (some op)
      called := p.shared.called ++ [t] },
      Function.update p.threads t (some (chained (operation op)))⟩ := by
  have hnew := h.unstarted t ht
  have hfinished : ∀ entry ∈ p.shared.finished, entry.1 ≠ t := by
    rintro entry hmem rfl
    refine hnew ?_
    rw [h.called]
    exact List.mem_append_left _ (List.mem_map_of_mem hmem)
  have hnot : p.shared.running ≠ some t := by
    intro hrun
    refine hnew ?_
    rw [h.called]
    exact List.mem_append_right _ (List.mem_of_head? (h.first t hrun))
  refine ⟨?_, ?_, fun u hu hmem => ?_, ?_, h.rest, fun u hu => ?_,
    stage_update h.stage (fun u q hut hu => ?_) ?_⟩
  · rw [h.called, List.append_assoc]
  · refine List.nodup_append.mpr ⟨h.nodup, by simp, ?_⟩
    rintro u hu v hv rfl
    obtain rfl := List.mem_singleton.mp hv
    exact hnew hu
  · by_cases hut : u = t
    · subst hut
      simp at hu
    · simp only [Function.update_of_ne hut] at hu
      rcases List.mem_append.mp hmem with hmem | hmem
      · exact h.unstarted u hu hmem
      · exact hut (List.mem_singleton.mp hmem)
  · refine h.sequence.mono fun entry hmem s s' hstep => ?_
    obtain ⟨op', hop', halone⟩ := hstep
    exact ⟨op', (Function.update_of_ne (hfinished entry hmem) _ _).trans hop', halone⟩
  · show (p.shared.pending ++ [t]).head? = some u
    rw [List.head?_append, h.first u hu]
    rfl
  · cases hu with
    | waiting hop hmem hne =>
        exact .waiting ((Function.update_of_ne hut _ _).trans hop) (List.mem_append_left _ hmem) hne
    | running hop hrun hown halone =>
        exact .running ((Function.update_of_ne hut _ _).trans hop) hrun hown halone
    | done => exact .done
  · exact .waiting (Function.update_self _ _ _)
      (List.mem_append_right _ List.mem_cons_self) hnot

/-- A thread makes its next call. -/
theorem Orderly.act (h : Orderly exec operation s₀ p)
    (hcalls : ∀ op, Prog.Calls Chained.Own (operation op)) {t : Tid} {c : Chained E X V}
    {k : Chained.Answer R c → Chaining R X V Unit} {r : Chained.Answer R c}
    {s' : Chain S Op X V} (ht : p.threads t = some (.eff c k))
    (hx : Chain.perform exec t c p.shared r s') :
    Orderly exec operation s₀ ⟨s', Function.update p.threads t (some (k r))⟩ := by
  have hstage := h.stage t _ ht
  generalize hq : (Prog.eff c k : Chaining R X V Unit) = q at hstage
  cases hstage with
  | @waiting op hop hmem hrunning =>
      cases hq
      obtain ⟨hfirst, rfl⟩ := hx
      exact h.turn (hcalls op) hop hfirst hrunning
  | @running op q₀ hop hrunning hown halone =>
      cases q₀ with
      | ret a =>
          cases hq
          obtain rfl : s' = _ := hx
          exact h.settle hop hrunning (halone _ _ (.ret a _))
      | throw x =>
          cases hq
          obtain rfl : s' = _ := hx
          exact h.settle hop hrunning (halone _ _ (.throw x _))
      | loop l body k' => cases hq
      | eff c' k' =>
          cases c' with
          | call e =>
              cases hq
              obtain ⟨store, hstep, rfl⟩ := hx
              exact h.goesOn hop hrunning (hown.2 r) fun o s₁ hrest =>
                halone o s₁ (.call hstep hrest)
          | turn => exact hown.1.elim
          | settle outcome => exact hown.1.elim
  | done => cases hq

/-- A thread begins a round of a loop. -/
theorem Orderly.unfold (h : Orderly exec operation s₀ p) {t : Tid} {σ β : Type} {l : σ}
    {body : σ → Chaining R X V (σ ⊕ β)} {k : Except X β → Chaining R X V Unit}
    (ht : p.threads t = some (.loop l body k)) :
    Orderly exec operation s₀
      ⟨p.shared, Function.update p.threads t (some (.unroll l body k))⟩ := by
  have hstage := h.stage t _ ht
  generalize hq : (Prog.loop l body k : Chaining R X V Unit) = q at hstage
  cases hstage with
  | waiting hop hmem hrunning => cases hq
  | @running op q₀ hop hrunning hown halone =>
      cases q₀ with
      | ret a => cases hq
      | throw x => cases hq
      | eff c k' => cases hq
      | loop l' body' k' =>
          cases hq
          have hgoes := h.goesOn (q := .unroll l body k') hop hrunning hown.unroll
            fun o s₁ hrest => halone o s₁ (.loop hrest)
          rw [finishing_unroll] at hgoes
          exact hgoes
  | done => cases hq

theorem orderly_fresh : Orderly exec operation s₀ (System.idle (Chain.fresh s₀)) :=
  { called := rfl
    nodup := List.nodup_nil
    unstarted := fun _ _ hmem => List.not_mem_nil hmem
    sequence := rfl
    rest := fun _ => rfl
    first := fun _ hrun => by cases hrun
    stage := fun _ _ hthread => by cases hthread }

/-- **The operations take effect one after the other, in the order in which
they have been called.** -/
theorem reachable_orderly (hcalls : ∀ op, Prog.Calls Chained.Own (operation op))
    (hp : System.Reachable (chain exec operation) (· = Chain.fresh s₀) p) :
    Orderly exec operation s₀ p := by
  refine hp.induct (P := Orderly exec operation s₀) ?_ ?_
  · rintro s rfl
    exact orderly_fresh
  · intro p p' m _ h hs
    cases hs with
    | act ht hx => exact h.act hcalls ht hx
    | unfold ht => exact h.unfold ht
    | start ht hst =>
        obtain rfl : _ = _ := hst
        exact h.start ht
    | stop ht hst => exact hst.elim
    | env hst => exact hst.elim

end Chains

end Lib
end SecureMessenger
