import Mathlib.Data.List.Nodup
import Mathlib.Data.List.Perm.Basic
import Mathlib.Data.List.Range

/-!
# Tables with keys and counters

A table is a list of rows; a key is a column without duplicates.  The lemmas
say how a lookup by key behaves under an update that keeps the key and under
an insert.

`Counted l n` says that the numbers in `l` are `1, ..., n`, each once: what a
counter with the value `n` has handed out.
-/

namespace SecureMessenger
namespace Lib

section Rows

variable {α κ : Type} [DecidableEq κ] {key : α → κ}

/-- The first row with the key. -/
def row (key : α → κ) (k : κ) (l : List α) : Option α :=
  l.find? fun a => decide (key a = k)

theorem row_mem {k : κ} {l : List α} {a : α} (h : row key k l = some a) : a ∈ l :=
  List.mem_of_find?_eq_some h

theorem row_key {k : κ} {l : List α} {a : α} (h : row key k l = some a) : key a = k := by
  have := List.find?_some h
  simpa using this

/-- Updates that keep the key commute with the lookup. -/
theorem row_map {f : α → α} (hf : ∀ a, key (f a) = key a) (k : κ) (l : List α) :
    row key k (l.map f) = (row key k l).map f := by
  induction l with
  | nil =>
      rfl
  | cons a l ih =>
      unfold row at ih ⊢
      by_cases ha : key a = k
      · simp [hf, ha]
      · simp only [List.map_cons, List.find?_cons, hf, ha, decide_false]
        exact ih

/-- Inserts do not hide a row. -/
theorem row_append {k : κ} {l : List α} {a : α} (h : row key k l = some a) (l' : List α) :
    row key k (l ++ l') = some a := by
  unfold row at h ⊢
  rw [List.find?_append, h]
  rfl

omit [DecidableEq κ] in
/-- Two rows with one key are one row. -/
theorem eq_of_key {l : List α} (hn : (l.map key).Nodup) {a b : α} (ha : a ∈ l) (hb : b ∈ l)
    (h : key a = key b) : a = b :=
  List.inj_on_of_nodup_map hn ha hb h

theorem row_of_mem {l : List α} (hn : (l.map key).Nodup) {a : α} (ha : a ∈ l) :
    row key (key a) l = some a := by
  have hsome : (row key (key a) l).isSome := by
    unfold row
    simp only [List.find?_isSome, decide_eq_true_eq]
    exact ⟨a, ha, rfl⟩
  obtain ⟨b, hb⟩ := Option.isSome_iff_exists.mp hsome
  rw [hb, eq_of_key hn (row_mem hb) ha (row_key hb)]

/-- Selecting by a key. -/
theorem filter_key_of_mem {l : List α} (hn : (l.map key).Nodup) {a : α} (ha : a ∈ l) :
    (l.filter fun b => decide (key b = key a)) = [a] := by
  induction l with
  | nil =>
      cases ha
  | cons b rest ih =>
      rw [List.map_cons, List.nodup_cons] at hn
      by_cases hb : key b = key a
      · obtain rfl : b = a := eq_of_key (l := b :: rest) (List.nodup_cons.mpr hn)
          List.mem_cons_self ha hb
        have hrest : (rest.filter fun c => decide (key c = key b)) = [] := by
          refine List.filter_eq_nil_iff.mpr fun c hc hk => hn.1 ?_
          rw [← of_decide_eq_true hk]
          exact List.mem_map_of_mem hc
        rw [List.filter_cons_of_pos (by simp), hrest]
      · rw [List.filter_cons_of_neg (by simpa using hb)]
        rcases List.mem_cons.mp ha with rfl | ha
        · exact absurd rfl hb
        · exact ih hn.2 ha

/-- The keys of an updated table. -/
theorem map_key_map {β : Type} {f : α → α} {col : α → β} (hf : ∀ a, col (f a) = col a)
    (l : List α) : (l.map f).map col = l.map col := by
  rw [List.map_map]
  exact List.map_congr_left fun a _ => hf a

/-- Selecting by a column that an update keeps. -/
theorem filter_map_key {f : α → α} {p : α → Bool} (hf : ∀ a, p (f a) = p a) (l : List α) :
    (l.map f).filter p = (l.filter p).map f := by
  rw [List.filter_map]
  congr 1
  exact List.filter_congr fun a _ => hf a

end Rows

/-- The numbers are `1, ..., n`, each once. -/
def Counted (l : List Nat) (n : Nat) : Prop :=
  l.Perm (List.range' 1 n)

instance (l : List Nat) (n : Nat) : Decidable (Counted l n) :=
  inferInstanceAs (Decidable (l.Perm _))

theorem counted_nil : Counted [] 0 :=
  List.Perm.refl _

/-- The counter hands out its next number. -/
theorem Counted.snoc {l : List Nat} {n : Nat} (h : Counted l n) :
    Counted (l ++ [n + 1]) (n + 1) := by
  have hr : List.range' 1 (n + 1) = List.range' 1 n ++ [n + 1] := by
    rw [List.range'_concat]
    simp [Nat.add_comm]
  unfold Counted
  rw [hr]
  exact List.Perm.append_right _ h

theorem Counted.mem {l : List Nat} {n : Nat} (h : Counted l n) (k : Nat) :
    k ∈ l ↔ 1 ≤ k ∧ k ≤ n := by
  rw [h.mem_iff, List.mem_range'_1]
  omega

end Lib
end SecureMessenger
