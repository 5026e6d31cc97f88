import SecureMessenger.Lib.Table
import Mathlib.Data.List.Sort
import Mathlib.Data.List.Dedup

/-!
# Numbering rows

Three statements of a relational database on lists of rows: numbering the rows
of each partition in order, the largest value of each group, and an update
from the rows of another relation.

If no two rows of a partition are equal in the order, the numbers of a
partition are `1, ..., n`, in order, and `n` is the largest of the group.
-/

namespace SecureMessenger
namespace Lib

section RowNumber

variable {α κ β : Type} [DecidableEq κ] [LinearOrder β]

/-- The rows of one partition, in order. -/
def partitionRows (part : α → κ) (order : α → β) (k : κ) (rows : List α) : List α :=
  (rows.filter fun a => decide (part a = k)).insertionSort fun a b => order a ≤ order b

/-- `row_number() OVER (PARTITION BY part ORDER BY order)`, with each row. -/
def rowNumber (part : α → κ) (order : α → β) (rows : List α) : List (α × Nat) :=
  (rows.map part).dedup.flatMap fun k => (partitionRows part order k rows).zipIdx 1

variable {part : α → κ} {order : α → β} {k : κ} {rows : List α} {a b : α} {m n : Nat}

theorem mem_partitionRows : a ∈ partitionRows part order k rows ↔ a ∈ rows ∧ part a = k := by
  simp [partitionRows]

theorem partitionRows_perm (part : α → κ) (order : α → β) (k : κ) (rows : List α) :
    (partitionRows part order k rows).Perm (rows.filter fun a => decide (part a = k)) :=
  List.perm_insertionSort _ _

theorem partitionRows_nodup (h : rows.Nodup) : (partitionRows part order k rows).Nodup :=
  (partitionRows_perm part order k rows).nodup_iff.mpr (h.filter _)

/-- A numbered row is in the numbered partition of its own. -/
theorem mem_rowNumber :
    (a, n) ∈ rowNumber part order rows ↔
      (a, n) ∈ (partitionRows part order (part a) rows).zipIdx 1 := by
  unfold rowNumber
  rw [List.mem_flatMap]
  constructor
  · rintro ⟨k, -, h⟩
    obtain ⟨-, rfl⟩ := mem_partitionRows.mp (List.fst_mem_of_mem_zipIdx h)
    exact h
  · intro h
    obtain ⟨ha, -⟩ := mem_partitionRows.mp (List.fst_mem_of_mem_zipIdx h)
    exact ⟨part a, List.mem_dedup.mpr (List.mem_map_of_mem ha), h⟩

theorem mem_of_mem_rowNumber (h : (a, n) ∈ rowNumber part order rows) : a ∈ rows :=
  (mem_partitionRows.mp (List.fst_mem_of_mem_zipIdx (mem_rowNumber.mp h))).1

/-- Every row has a number. -/
theorem exists_rowNumber (h : a ∈ rows) : ∃ n, (a, n) ∈ rowNumber part order rows := by
  have hmem : a ∈ ((partitionRows part order (part a) rows).zipIdx 1).map Prod.fst := by
    rw [List.zipIdx_map_fst]
    exact mem_partitionRows.mpr ⟨h, rfl⟩
  obtain ⟨⟨a', n⟩, hn, rfl⟩ := List.mem_map.mp hmem
  exact ⟨n, mem_rowNumber.mpr hn⟩

/-- A row has one number. -/
theorem rowNumber_unique (h : rows.Nodup) (hm : (a, m) ∈ rowNumber part order rows)
    (hn : (a, n) ∈ rowNumber part order rows) : m = n := by
  have hm := List.mem_zipIdx (mem_rowNumber.mp hm)
  have hn := List.mem_zipIdx (mem_rowNumber.mp hn)
  have heq := (partitionRows_nodup h).getElem_inj_iff.mp (hm.2.2.symm.trans hn.2.2)
  omega

/-- A smaller number is earlier in the order. -/
theorem le_of_rowNumber_lt (hm : (a, m) ∈ rowNumber part order rows)
    (hn : (b, n) ∈ rowNumber part order rows) (hpart : part a = part b) (hlt : m < n) :
    order a ≤ order b := by
  have hsorted : (partitionRows part order (part b) rows).Pairwise fun a b => order a ≤ order b :=
    List.pairwise_insertionSort _ _
  have hm := mem_rowNumber.mp hm
  rw [hpart] at hm
  obtain ⟨hpos, hm', ha⟩ := List.mem_zipIdx hm
  obtain ⟨-, hn', hb⟩ := List.mem_zipIdx (mem_rowNumber.mp hn)
  have hle := List.pairwise_iff_getElem.mp hsorted (m - 1) (n - 1) (by omega) (by omega) (by omega)
  rwa [← ha, ← hb] at hle

/-- The numbers follow the order. -/
theorem rowNumber_lt (h : rows.Nodup) (hinj : ∀ a ∈ rows, ∀ b ∈ rows, order a = order b → a = b)
    (hm : (a, m) ∈ rowNumber part order rows) (hn : (b, n) ∈ rowNumber part order rows)
    (hpart : part a = part b) : m < n ↔ order a < order b := by
  have hdiff : order a = order b → m = n := by
    intro heq
    obtain rfl := hinj a (mem_of_mem_rowNumber hm) b (mem_of_mem_rowNumber hn) heq
    exact rowNumber_unique h hm hn
  constructor
  · intro hlt
    have hne : order a ≠ order b := fun heq => hlt.ne (hdiff heq)
    exact lt_of_le_of_ne (le_of_rowNumber_lt hm hn hpart hlt) hne
  · intro hlt
    rcases lt_trichotomy m n with hmn | rfl | hnm
    · exact hmn
    · have hm := mem_rowNumber.mp hm
      rw [hpart] at hm
      obtain ⟨-, -, ha⟩ := List.mem_zipIdx hm
      obtain ⟨-, -, hb⟩ := List.mem_zipIdx (mem_rowNumber.mp hn)
      exact absurd (ha.trans hb.symm ▸ hlt) (lt_irrefl _)
    · exact absurd (le_of_rowNumber_lt hn hm hpart.symm hnm) hlt.not_ge

theorem rowNumber_pos (h : (a, n) ∈ rowNumber part order rows) : 0 < n :=
  (List.mem_zipIdx (mem_rowNumber.mp h)).1

/-- Rows of one partition with one number are one row. -/
theorem rowNumber_inj (h : rows.Nodup) (hinj : ∀ a ∈ rows, ∀ b ∈ rows, order a = order b → a = b)
    (hm : (a, n) ∈ rowNumber part order rows) (hn : (b, n) ∈ rowNumber part order rows)
    (hpart : part a = part b) : a = b := by
  refine hinj a (mem_of_mem_rowNumber hm) b (mem_of_mem_rowNumber hn) ?_
  rcases lt_trichotomy (order a) (order b) with hlt | heq | hlt
  · exact absurd ((rowNumber_lt h hinj hm hn hpart).mpr hlt) (lt_irrefl _)
  · exact heq
  · exact absurd ((rowNumber_lt h hinj hn hm hpart.symm).mpr hlt) (lt_irrefl _)

/-- Columns that the numbering does not read make no difference. -/
theorem rowNumber_map {γ : Type} (f : γ → α) (rows : List γ) :
    rowNumber part order (rows.map f) =
      (rowNumber (fun c => part (f c)) (fun c => order (f c)) rows).map fun x => (f x.1, x.2) := by
  have hpartition : ∀ k, partitionRows part order k (rows.map f) =
      (partitionRows (fun c => part (f c)) (fun c => order (f c)) k rows).map f := by
    intro k
    unfold partitionRows
    rw [List.filter_map]
    exact (List.map_insertionSort _ _ f _ fun _ _ _ _ => Iff.rfl).symm
  unfold rowNumber
  rw [List.map_map, List.map_flatMap]
  refine List.flatMap_congr fun k _ => ?_
  rw [hpartition, List.zipIdx_map]
  rfl

/-- The numbers of a partition are `1, ..., n`. -/
theorem counted_rowNumber (h : rows.Nodup) {number : α → Nat}
    (hnumber : ∀ a ∈ rows, (a, number a) ∈ rowNumber part order rows) (k : κ) :
    Counted ((rows.filter fun a => decide (part a = k)).map number)
      (rows.filter fun a => decide (part a = k)).length := by
  have hperm := partitionRows_perm part order k rows
  have hzip : (partitionRows part order k rows).map number =
      List.range' 1 (partitionRows part order k rows).length := by
    rw [← List.zipIdx_map_snd]
    nth_rewrite 1 [← List.zipIdx_map_fst 1 (partitionRows part order k rows)]
    rw [List.map_map]
    refine List.map_congr_left fun x hx => ?_
    obtain ⟨a, n⟩ := x
    obtain ⟨ha, rfl⟩ := mem_partitionRows.mp (List.fst_mem_of_mem_zipIdx hx)
    exact rowNumber_unique h (hnumber a ha) (mem_rowNumber.mpr hx)
  unfold Counted
  rw [← hperm.length_eq, ← hzip]
  exact (hperm.map number).symm

end RowNumber

/-! ## The largest value of each group -/

section GroupMax

variable {α κ : Type} [DecidableEq κ]

/-- `SELECT key, max(value) ... GROUP BY key`; `none` is NULL. -/
def groupMax (key : α → κ) (value : α → Option Nat) (rows : List α) : List (κ × Option Nat) :=
  (rows.map key).dedup.map fun k =>
    (k, ((rows.filter fun a => decide (key a = k)).filterMap value).max?)

theorem groupMax_map {γ : Type} {key : α → κ} {value : α → Option Nat} (f : γ → α)
    (rows : List γ) : groupMax key value (rows.map f) =
      groupMax (fun c => key (f c)) (fun c => value (f c)) rows := by
  unfold groupMax
  rw [List.map_map]
  refine List.map_congr_left fun k _ => ?_
  rw [List.filter_map, List.filterMap_map]
  rfl

/-- Every group has a row. -/
theorem exists_groupMax {key : α → κ} {value : α → Option Nat} {rows : List α} {a : α}
    (h : a ∈ rows) : ∃ x, (key a, x) ∈ groupMax key value rows :=
  ⟨_, List.mem_map.mpr ⟨key a, List.mem_dedup.mpr (List.mem_map_of_mem h), rfl⟩⟩

/-- The largest number that a counter has handed out is its value. -/
theorem Counted.max? {l : List Nat} {n : Nat} (h : Counted l n) (hpos : 0 < n) :
    l.max? = some n := by
  refine List.max?_eq_some_iff.mpr ⟨(h.mem n).mpr ⟨hpos, le_refl n⟩, fun k hk => ?_⟩
  exact ((h.mem k).mp hk).2

/-- The largest value of a group that has been counted. -/
theorem groupMax_counted {key : α → κ} {value : α → Option Nat} {rows : List α} {number : α → Nat}
    (hvalue : ∀ a ∈ rows, value a = some (number a)) {k : κ} {x : Option Nat}
    (h : (k, x) ∈ groupMax key value rows)
    (hcount : Counted ((rows.filter fun a => decide (key a = k)).map number)
      (rows.filter fun a => decide (key a = k)).length) :
    x = some (rows.filter fun a => decide (key a = k)).length := by
  obtain ⟨k', hk, heq⟩ := List.mem_map.mp h
  obtain ⟨rfl, rfl⟩ := Prod.mk.inj heq
  have hvalues : (rows.filter fun a => decide (key a = k')).filterMap value =
      (rows.filter fun a => decide (key a = k')).map number := by
    rw [← List.filterMap_eq_map']
    exact List.filterMap_congr fun a ha => hvalue a (List.mem_of_mem_filter ha)
  obtain ⟨a, ha, hka⟩ := List.mem_map.mp (List.mem_dedup.mp hk)
  have hpos : 0 < (rows.filter fun a => decide (key a = k')).length :=
    List.length_pos_of_mem (List.mem_filter.mpr ⟨ha, decide_eq_true hka⟩)
  rw [hvalues]
  exact hcount.max? hpos

end GroupMax

/-! ## Updates from another relation -/

section UpdateFrom

variable {α σ : Type}

/-- `UPDATE rows SET ... FROM source WHERE on`: rows without a match stay. -/
def updateFrom (on : α → σ → Bool) (set : σ → α → α) (source : List σ) (rows : List α) : List α :=
  rows.map fun a =>
    match source.find? (on a) with
    | some s => set s a
    | none => a

/-- Rows that match agree on the result, a row without a match has it already. -/
theorem updateFrom_eq {on : α → σ → Bool} {set : σ → α → α} {source : List σ} {rows : List α}
    {f : α → α} (hset : ∀ a ∈ rows, ∀ s ∈ source, on a s = true → set s a = f a)
    (hstay : ∀ a ∈ rows, (∀ s ∈ source, on a s = false) → f a = a) :
    updateFrom on set source rows = rows.map f := by
  refine List.map_congr_left fun a ha => ?_
  cases hfind : source.find? (on a) with
  | none =>
      refine (hstay a ha fun s hs => ?_).symm
      simpa using List.find?_eq_none.mp hfind s hs
  | some s =>
      exact hset a ha s (List.mem_of_find?_eq_some hfind) (List.find?_some hfind)

end UpdateFrom

end Lib
end SecureMessenger
