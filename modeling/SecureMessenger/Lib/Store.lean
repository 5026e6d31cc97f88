import Mathlib.Order.Defs.LinearOrder
import Mathlib.Data.List.Sort
import Mathlib.Data.List.Perm.Basic

/-!
# Object stores

An object store keeps its records in the order of their primary keys, at most
one record per key.  `put` inserts a record or replaces the one with the same
key.  `Ordered` is the representation invariant; it is what an index scan
relies on, while `get` after `put` needs no invariant.
-/

namespace SecureMessenger
namespace Lib
namespace Store

universe u v

variable {K : Type u} {V : Type v} [LinearOrder K] (key : V → K)

/-- The record with primary key `k`. -/
def get (k : K) (s : List V) : Option V :=
  s.find? (fun w => decide (key w = k))

/-- Insert a record, or replace the record with the same primary key. -/
def put (w : V) : List V → List V
  | [] => [w]
  | x :: s =>
      if key w < key x then w :: x :: s
      else if key w = key x then w :: s
      else x :: put w s

/-- Remove the record with primary key `k`. -/
def delete (k : K) (s : List V) : List V :=
  s.filter (fun w => decide (key w ≠ k))

/-- Records stand in strictly increasing key order. -/
def Ordered (s : List V) : Prop :=
  s.Pairwise (fun a b => key a < key b)

variable {key}

@[simp] theorem get_nil (k : K) : get key k [] = none := rfl

theorem get_some {k : K} {s : List V} {w : V} (h : get key k s = some w) :
    w ∈ s ∧ key w = k := by
  refine ⟨List.mem_of_find?_eq_some h, ?_⟩
  simpa using List.find?_some h

theorem get_none {k : K} {s : List V} :
    get key k s = none ↔ ∀ w ∈ s, key w ≠ k := by
  simp [get, List.find?_eq_none]

theorem get_put_self (w : V) (s : List V) :
    get key (key w) (put key w s) = some w := by
  induction s with
  | nil => simp [put, get]
  | cons x s ih =>
      unfold put
      split_ifs with h₁ h₂
      · simp [get]
      · simp [get]
      · have hne : key x ≠ key w := fun he => h₂ he.symm
        simpa [get, hne] using ih

theorem get_put_of_ne {k : K} {w : V} (s : List V) (h : key w ≠ k) :
    get key k (put key w s) = get key k s := by
  induction s with
  | nil => simp [put, get, h]
  | cons x s ih =>
      unfold put
      split_ifs with h₁ h₂
      · simp [get, h]
      · have hx : key x ≠ k := fun he => h (h₂.trans he)
        simp [get, h, hx]
      · by_cases hx : key x = k
        · simp [get, hx]
        · simpa [get, hx] using ih

theorem get_put (k : K) (w : V) (s : List V) :
    get key k (put key w s) = if key w = k then some w else get key k s := by
  split_ifs with h
  · subst h
    exact get_put_self w s
  · exact get_put_of_ne s h

theorem get_delete_self (k : K) (s : List V) :
    get key k (delete key k s) = none := by
  simp [get_none, delete]

theorem get_delete_of_ne {k k' : K} (s : List V) (h : k' ≠ k) :
    get key k' (delete key k s) = get key k' s := by
  unfold get delete
  rw [List.find?_filter]
  congr 1
  funext w
  by_cases hw : key w = k'
  · simp [hw, h]
  · simp [hw]

theorem mem_put {w x : V} {s : List V} (h : x ∈ put key w s) :
    x = w ∨ x ∈ s := by
  induction s with
  | nil => simpa [put] using h
  | cons y s ih =>
      unfold put at h
      split_ifs at h with h₁ h₂
      · exact List.mem_cons.mp h
      · rcases List.mem_cons.mp h with rfl | h
        · exact Or.inl rfl
        · exact Or.inr (List.mem_cons_of_mem _ h)
      · rcases List.mem_cons.mp h with rfl | h
        · exact Or.inr List.mem_cons_self
        · rcases ih h with rfl | h
          · exact Or.inl rfl
          · exact Or.inr (List.mem_cons_of_mem _ h)

theorem mem_put_self (w : V) (s : List V) : w ∈ put key w s :=
  (get_some (get_put_self w s)).1

theorem ordered_put {w : V} {s : List V} (h : Ordered key s) :
    Ordered key (put key w s) := by
  induction s with
  | nil => simp [put, Ordered]
  | cons x s ih =>
      obtain ⟨hx, hs⟩ := List.pairwise_cons.mp h
      unfold put
      split_ifs with h₁ h₂
      · refine List.pairwise_cons.mpr ⟨fun y hy => ?_, h⟩
        rcases List.mem_cons.mp hy with rfl | hy
        · exact h₁
        · exact h₁.trans (hx y hy)
      · refine List.pairwise_cons.mpr ⟨fun y hy => ?_, hs⟩
        rw [h₂]
        exact hx y hy
      · refine List.pairwise_cons.mpr ⟨fun y hy => ?_, ih hs⟩
        rcases mem_put hy with rfl | hy
        · exact lt_of_le_of_ne (not_lt.mp h₁) (fun he => h₂ he.symm)
        · exact hx y hy

/-- A part of the store that the new record and the one it replaces are not in
stays as it is. -/
theorem filter_put {p : V → Bool} {w : V} {s : List V} (hw : p w = false)
    (hs : ∀ x ∈ s, key x = key w → p x = false) : (put key w s).filter p = s.filter p := by
  induction s with
  | nil => simp [put, hw]
  | cons x s ih =>
      have hx := hs x List.mem_cons_self
      have ih := ih fun y hy => hs y (List.mem_cons_of_mem x hy)
      simp only [put]
      split_ifs with hlt heq
      · simp [hw]
      · simp [hw, hx heq.symm]
      · simp [List.filter_cons, ih]

/-- A part of the store that the deleted record is not in stays as it is. -/
theorem filter_delete {p : V → Bool} {k : K} {s : List V}
    (hs : ∀ x ∈ s, key x = k → p x = false) : (delete key k s).filter p = s.filter p := by
  unfold delete
  rw [List.filter_filter]
  refine List.filter_congr fun x hx => ?_
  by_cases hk : key x = k
  · simp [hs x hx hk]
  · simp [hk]

/-- A part of the store that holds the record is enough to find it. -/
theorem get_filter {p : V → Bool} {k : K} {s : List V}
    (hs : ∀ x ∈ s, key x = k → p x = true) : get key k (s.filter p) = get key k s := by
  induction s with
  | nil => rfl
  | cons x s ih =>
      have hx := hs x List.mem_cons_self
      have ih := ih fun y hy => hs y (List.mem_cons_of_mem x hy)
      unfold get at ih ⊢
      by_cases hk : key x = k
      · simp [hx hk, hk]
      · by_cases hp : p x = true
        · simp [hp, hk, ih]
        · simp [hp, hk, ih]

/-- In an ordered store `get` finds every record. -/
theorem get_of_mem {w : V} {s : List V} (h : Ordered key s) (hw : w ∈ s) :
    get key (key w) s = some w := by
  induction s with
  | nil => cases hw
  | cons x s ih =>
      obtain ⟨hx, hs⟩ := List.pairwise_cons.mp h
      rcases List.mem_cons.mp hw with rfl | hw
      · simp [get]
      · have hne : key x ≠ key w := (hx w hw).ne
        simpa [get, hne] using ih hs hw

theorem get_eq_some_iff {k : K} {w : V} {s : List V} (h : Ordered key s) :
    get key k s = some w ↔ w ∈ s ∧ key w = k := by
  constructor
  · exact get_some
  · rintro ⟨hw, rfl⟩
    exact get_of_mem h hw

theorem mem_put_iff {w x : V} {s : List V} (h : Ordered key s) :
    x ∈ put key w s ↔ x = w ∨ (x ∈ s ∧ key x ≠ key w) := by
  rw [← and_iff_left (a := x ∈ put key w s) rfl,
    ← get_eq_some_iff (k := key x) (ordered_put h), get_put]
  split_ifs with hk
  · constructor
    · intro he
      exact Or.inl (Option.some.inj he).symm
    · rintro (rfl | ⟨_, hne⟩)
      · rfl
      · exact absurd hk.symm hne
  · rw [get_eq_some_iff h]
    constructor
    · rintro ⟨hx, _⟩
      exact Or.inr ⟨hx, fun he => hk he.symm⟩
    · rintro (rfl | ⟨hx, _⟩)
      · exact absurd rfl hk
      · exact ⟨hx, rfl⟩

/-- Writing a record that is there already changes nothing. -/
theorem put_of_mem {w : V} {s : List V} (h : Ordered key s) (hw : w ∈ s) :
    put key w s = s := by
  induction s with
  | nil => cases hw
  | cons x s ih =>
      obtain ⟨hx, hs⟩ := List.pairwise_cons.mp h
      rcases List.mem_cons.mp hw with rfl | hw
      · simp [put]
      · have hlt := hx w hw
        simp [put, hlt.not_gt, hlt.ne', ih hs hw]

@[simp] theorem put_put (w : V) (s : List V) : put key w (put key w s) = put key w s := by
  induction s with
  | nil => simp [put]
  | cons x s ih =>
      simp only [put]
      split_ifs with hlt heq
      · simp [put]
      · simp [put]
      · simp [put, hlt, heq, ih]

end Store
end Lib
end SecureMessenger
