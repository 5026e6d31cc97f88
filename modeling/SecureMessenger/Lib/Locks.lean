import Mathlib.Data.List.Basic
import Mathlib.Logic.Relation
import Mathlib.Order.Basic

/-!
# Transactions that wait for locks

An operation takes the locks of its `plan` one after the other and keeps them
until its transaction finishes, by commit or rollback, which may happen at any
point.  A lock is granted when nobody else holds a lock that conflicts with
it; until then the transaction waits.

A deadlock is a cycle of transactions each of which waits for the next.  If
the locks have ranks and every transaction that is part of a chain of waits
waits for a lock above all those it holds, there is none.
-/

namespace SecureMessenger
namespace Lib
namespace Locks

/-- The locks `L` that operations take, in their order. -/
structure Protocol (Op L : Type*) where
  plan : Op → List L
  conflicts : L → L → Prop
  symm : ∀ l l', conflicts l l' → conflicts l' l

/-- A running transaction: its operation and how many locks it has. -/
structure Tx (Op : Type*) where
  op : Op
  taken : Nat

/-- What a step does. -/
inductive Move (T Op : Type*)
  | start (t : T) (op : Op)
  | acquire (t : T)
  | finish (t : T)

variable {T Op L : Type*} [DecidableEq T] (P : Protocol Op L)

/-- The running transactions. -/
abbrev State (T Op : Type*) := T → Option (Tx Op)

namespace Protocol

/-- The locks a transaction holds. -/
def held (x : Tx Op) : List L :=
  (P.plan x.op).take x.taken

/-- The lock a transaction takes next. -/
def next (x : Tx Op) : Option L :=
  (P.plan x.op)[x.taken]?

/-- Transaction `t` waits for `u`. -/
def WaitsFor (s : State T Op) (t u : T) : Prop :=
  t ≠ u ∧ ∃ x y l l', s t = some x ∧ s u = some y ∧ P.next x = some l ∧ l' ∈ P.held y ∧
    P.conflicts l l'

/-- A cycle of transactions each waiting for the next. -/
def Deadlock (s : State T Op) : Prop :=
  ∃ t, Relation.TransGen (P.WaitsFor s) t t

/-- One step. -/
inductive Step : Move T Op → State T Op → State T Op → Prop
  | start {s : State T Op} {t : T} {op : Op} (ht : s t = none) :
      Step (.start t op) s (Function.update s t (some ⟨op, 0⟩))
  | acquire {s : State T Op} {t : T} {x : Tx Op} {l : L} (ht : s t = some x)
      (hl : P.next x = some l)
      (hfree : ∀ u y, u ≠ t → s u = some y → ∀ l' ∈ P.held y, ¬P.conflicts l l') :
      Step (.acquire t) s (Function.update s t (some ⟨x.op, x.taken + 1⟩))
  | finish {s : State T Op} {t : T} {x : Tx Op} (ht : s t = some x) :
      Step (.finish t) s (Function.update s t none)

/-- The states of the runs all of whose steps meet the condition `ok` in the
state before them. -/
inductive Reachable (ok : State T Op → Move T Op → Prop) : State T Op → Prop
  | idle : Reachable ok fun _ => none
  | step {s s' : State T Op} {m : Move T Op} (hs : Reachable ok s) (hok : ok s m)
      (h : P.Step m s s') : Reachable ok s'

variable {P}

theorem held_succ {x : Tx Op} {l : L} (hl : P.next x = some l) :
    P.held ⟨x.op, x.taken + 1⟩ = P.held x ++ [l] := by
  unfold held
  unfold next at hl
  rw [List.take_add_one, hl]
  rfl

/-- What a transaction holds comes from its plan. -/
theorem mem_plan_of_held {x : Tx Op} {l : L} (hl : l ∈ P.held x) : l ∈ P.plan x.op :=
  List.mem_of_mem_take hl

/-- **Locks of different transactions do not conflict.** -/
theorem Reachable.compatible {ok : State T Op → Move T Op → Prop} {s : State T Op}
    (hs : P.Reachable ok s) {t u : T} {x y : Tx Op} (htu : t ≠ u) (ht : s t = some x)
    (hu : s u = some y) {l l' : L} (hl : l ∈ P.held x) (hl' : l' ∈ P.held y) :
    ¬P.conflicts l l' := by
  induction hs generalizing t u x y l l' with
  | idle => cases ht
  | step hs hok h ih =>
      cases h with
      | @start _ v op hv =>
          by_cases htv : t = v
          · subst htv
            rw [Function.update_self] at ht
            cases ht
            simp [held] at hl
          · rw [Function.update_of_ne htv] at ht
            by_cases huv : u = v
            · subst huv
              rw [Function.update_self] at hu
              cases hu
              simp [held] at hl'
            · rw [Function.update_of_ne huv] at hu
              exact ih htu ht hu hl hl'
      | @acquire _ v z m hv hm hfree =>
          by_cases htv : t = v
          · subst htv
            rw [Function.update_self] at ht
            rw [Function.update_of_ne (Ne.symm htu)] at hu
            cases ht
            rw [held_succ hm] at hl
            rcases List.mem_append.mp hl with hl | hl
            · exact ih htu hv hu hl hl'
            · obtain rfl := List.mem_singleton.mp hl
              exact hfree u y (Ne.symm htu) hu l' hl'
          · rw [Function.update_of_ne htv] at ht
            by_cases huv : u = v
            · subst huv
              rw [Function.update_self] at hu
              cases hu
              rw [held_succ hm] at hl'
              rcases List.mem_append.mp hl' with hl' | hl'
              · exact ih htu ht hv hl hl'
              · obtain rfl := List.mem_singleton.mp hl'
                exact fun hc => hfree t x htu ht l hl (P.symm _ _ hc)
            · rw [Function.update_of_ne huv] at hu
              exact ih htu ht hu hl hl'
      | @finish _ v z hv =>
          by_cases htv : t = v
          · subst htv
            rw [Function.update_self] at ht
            cases ht
          · rw [Function.update_of_ne htv] at ht
            by_cases huv : u = v
            · subst huv
              rw [Function.update_self] at hu
              cases hu
            · rw [Function.update_of_ne huv] at hu
              exact ih htu ht hu hl hl'

variable (P)

/-- A lock whose conflicts are among those of a lock already held. -/
def Covered (held : List L) (l : L) : Prop :=
  ∃ l₀ ∈ held, ∀ l', P.conflicts l l' → P.conflicts l₀ l'

/-- A lock that conflicts with no lock any operation takes. -/
def Unopposed (l : L) : Prop :=
  ∀ op, ∀ l' ∈ P.plan op, ¬P.conflicts l l'

/-- Each lock of the list, taken after those of `held`, is covered, unopposed
or above all opposed ones before it. -/
def Ordered {α : Type*} [LT α] (rank : L → α) : List L → List L → Prop
  | _, [] => True
  | held, l :: rest =>
      (P.Covered held l ∨ P.Unopposed l ∨ ∀ l' ∈ held, P.Unopposed l' ∨ rank l' < rank l) ∧
        Ordered rank (held ++ [l]) rest

variable {P}

/-- Nobody waits for a covered lock. -/
theorem Reachable.not_waitsFor_of_covered {ok : State T Op → Move T Op → Prop} {s : State T Op}
    (hs : P.Reachable ok s) {t u : T} {x : Tx Op} (ht : s t = some x)
    (hx : ∀ l, P.next x = some l → P.Covered (P.held x) l) : ¬P.WaitsFor s t u := by
  rintro ⟨htu, x', y, l, l', ht', hu, hl, hl', hc⟩
  rw [ht] at ht'
  cases ht'
  obtain ⟨l₀, hl₀, hcover⟩ := hx l hl
  exact hs.compatible htu ht hu hl₀ hl' (hcover l' hc)

section Ordered

variable {α : Type*} [LT α] {rank : L → α}

theorem Ordered.append {held xs ys : List L} (hx : P.Ordered rank held xs)
    (hy : P.Ordered rank (held ++ xs) ys) : P.Ordered rank held (xs ++ ys) := by
  induction xs generalizing held with
  | nil =>
      rw [List.append_nil] at hy
      exact hy
  | cons l xs ih =>
      refine ⟨hx.1, ih hx.2 ?_⟩
      rw [List.append_assoc]
      exact hy

/-- A list of locks that are covered from the start or unopposed. -/
theorem Ordered.of_covered {held xs : List L}
    (h : ∀ l ∈ xs, P.Covered held l ∨ P.Unopposed l) : P.Ordered rank held xs := by
  induction xs generalizing held with
  | nil => trivial
  | cons l xs ih =>
      constructor
      · rcases h l List.mem_cons_self with hl | hl
        · exact .inl hl
        · exact .inr (.inl hl)
      · refine ih fun m hm => ?_
        rcases h m (List.mem_cons_of_mem l hm) with ⟨l₀, hl₀, hc⟩ | hm
        · exact .inl ⟨l₀, List.mem_append_left _ hl₀, hc⟩
        · exact .inr hm

/-- A list of locks sorted by rank, above those already held. -/
theorem Ordered.of_pairwise {held xs : List L} (hheld : ∀ l ∈ held, ∀ m ∈ xs, rank l < rank m)
    (hxs : xs.Pairwise fun l m => l = m ∨ rank l < rank m) : P.Ordered rank held xs := by
  suffices h : ∀ done : List L, (∀ l ∈ done, ∀ m ∈ xs, l = m ∨ rank l < rank m) →
      P.Ordered rank (held ++ done) xs by
    have := h [] (fun l hl => by cases hl)
    rwa [List.append_nil] at this
  induction xs with
  | nil => exact fun _ _ => trivial
  | cons l xs ih =>
      intro done hdone
      constructor
      · -- a lock taken twice is covered by the first time
        by_cases hmem : l ∈ done
        · exact .inl ⟨l, List.mem_append_right _ hmem, fun _ hc => hc⟩
        · refine .inr (.inr fun m hm => .inr ?_)
          rcases List.mem_append.mp hm with hm | hm
          · exact hheld m hm l List.mem_cons_self
          · rcases hdone m hm l List.mem_cons_self with rfl | hlt
            · exact absurd hm hmem
            · exact hlt
      · rw [List.append_assoc]
        refine ih (fun l' hl' m hm => hheld l' hl' m (List.mem_cons_of_mem l hm))
          (List.Pairwise.of_cons hxs) (done ++ [l]) fun l' hl' m hm => ?_
        rcases List.mem_append.mp hl' with hl' | hl'
        · exact hdone l' hl' m (List.mem_cons_of_mem l hm)
        · obtain rfl := List.mem_singleton.mp hl'
          exact List.rel_of_pairwise_cons hxs hm

/-- What an ordered plan says about the lock at position `i`. -/
theorem Ordered.getElem? {held xs : List L} (h : P.Ordered rank held xs) {i : Nat} {l : L}
    (hl : xs[i]? = some l) :
    P.Covered (held ++ xs.take i) l ∨ P.Unopposed l ∨
      ∀ l' ∈ held ++ xs.take i, P.Unopposed l' ∨ rank l' < rank l := by
  induction xs generalizing held i with
  | nil => simp at hl
  | cons m xs ih =>
      cases i with
      | zero =>
          simp only [List.getElem?_cons_zero, Option.some.injEq] at hl
          subst hl
          simpa using h.1
      | succ i =>
          have := ih h.2 (by simpa using hl)
          simpa using this

end Ordered

omit [DecidableEq T] in
/-- **Ranked locks do not deadlock.**  It is enough that the transactions in
the middle of a chain of waits wait for a lock above the contended ones they
hold. -/
theorem not_deadlock_of_rank {α : Type*} [Preorder α] (rank : L → α) {s : State T Op}
    (hrank : ∀ l l', P.conflicts l l' → rank l = rank l')
    (hup : ∀ u v w y l l', P.WaitsFor s u v → P.WaitsFor s v w → s u = some y →
      P.next y = some l → l' ∈ P.held y → ¬P.Unopposed l' → rank l' < rank l) :
    ¬P.Deadlock s := by
  rintro ⟨t, hcycle⟩
  -- along a chain the rank of the awaited lock rises
  have hchain : ∀ {u : T}, Relation.TransGen (P.WaitsFor s) t u → ∀ v w, P.WaitsFor s u v →
      P.WaitsFor s v w → ∀ x y l m, s t = some x → P.next x = some l → s u = some y →
      P.next y = some m → rank l < rank m := by
    have hedge : ∀ {a b : T}, P.WaitsFor s a b → ∀ v w, P.WaitsFor s b v → P.WaitsFor s v w →
        ∀ x y l m, s a = some x → P.next x = some l → s b = some y → P.next y = some m →
        rank l < rank m := by
      rintro a b ⟨hab, x', y', l', l₁, ha', hb', hl', hl₁, hc⟩ v w hbv hvw x y l m ha hl hb hm
      have hxx : x = x' := by
        rw [ha] at ha'
        exact Option.some.inj ha'
      have hyy : y = y' := by
        rw [hb] at hb'
        exact Option.some.inj hb'
      subst hxx hyy
      have hll : l = l' := by
        rw [hl] at hl'
        exact Option.some.inj hl'
      subst hll
      rw [hrank l l₁ hc]
      refine hup b v w y m l₁ hbv hvw hb hm hl₁ fun hun => ?_
      exact hun x.op l (List.mem_of_getElem? hl) (P.symm _ _ hc)
    intro u hu
    induction hu with
    | single hw => exact hedge hw
    | @tail b c htb hbc ih =>
        intro v w hcv hvw x y l m ht hl hc hm
        obtain ⟨-, z, -, k, -, hb, -, hk, -⟩ := id hbc
        have hlow := ih c v hbc hcv x z l k ht hl hb hk
        exact lt_trans hlow (hedge hbc v w hcv hvw z y k m hb hk hc hm)
  obtain ⟨u, htu, huv⟩ := Relation.TransGen.head'_iff.mp hcycle
  have hnext : ∃ v, P.WaitsFor s u v := by
    rcases Relation.ReflTransGen.cases_head huv with rfl | ⟨v, hv, -⟩
    · exact ⟨u, htu⟩
    · exact ⟨v, hv⟩
  obtain ⟨v, hv⟩ := hnext
  obtain ⟨-, x, -, l, -, ht, -, hl, -⟩ := id htu
  exact lt_irrefl _ (hchain hcycle u v htu hv x x l l ht hl ht hl)

end Protocol

end Locks
end Lib
end SecureMessenger
