import Mathlib.Data.List.Nodup
import Mathlib.Data.List.Basic

/-!
# Dictionaries in insertion order

A dictionary keeps its entries in the order in which their keys were first
set.  Setting a present key replaces its value in place, deleting a key and
setting it again moves it to the end.
-/

namespace SecureMessenger
namespace Lib

universe u v

/-- A dictionary: entries with distinct keys. -/
structure Dict (K : Type u) (V : Type v) where
  entries : List (K × V)
  nodup : (entries.map Prod.fst).Nodup

namespace Dict

variable {K : Type u} {V : Type v} [DecidableEq K]

/-- Set a key in a list of entries. -/
def setEntries (k : K) (v : V) : List (K × V) → List (K × V)
  | [] => [(k, v)]
  | p :: rest => if p.1 = k then (k, v) :: rest else p :: setEntries k v rest

theorem mem_keys_setEntries (k : K) (v : V) (es : List (K × V)) (k' : K) :
    k' ∈ (setEntries k v es).map Prod.fst ↔ k' = k ∨ k' ∈ es.map Prod.fst := by
  induction es with
  | nil => simp [setEntries]
  | cons p rest ih =>
      unfold setEntries
      split_ifs with h
      · simp [h]
      · rw [List.map_cons, List.mem_cons, ih, List.map_cons, List.mem_cons]
        tauto

theorem nodup_setEntries (k : K) (v : V) {es : List (K × V)}
    (h : (es.map Prod.fst).Nodup) : ((setEntries k v es).map Prod.fst).Nodup := by
  induction es with
  | nil => simp [setEntries]
  | cons p rest ih =>
      rw [List.map_cons, List.nodup_cons] at h
      unfold setEntries
      split_ifs with hk
      · rw [List.map_cons, List.nodup_cons]
        exact ⟨hk ▸ h.1, h.2⟩
      · rw [List.map_cons, List.nodup_cons, mem_keys_setEntries]
        refine ⟨?_, ih h.2⟩
        rintro (he | hmem)
        · exact hk he
        · exact h.1 hmem

/-- The empty dictionary. -/
def empty : Dict K V :=
  ⟨[], List.nodup_nil⟩

/-- The value of a key. -/
def get (d : Dict K V) (k : K) : Option V :=
  (d.entries.find? fun p => decide (p.1 = k)).map Prod.snd

/-- Set a key. -/
def set (d : Dict K V) (k : K) (v : V) : Dict K V :=
  ⟨setEntries k v d.entries, nodup_setEntries k v d.nodup⟩

/-- Delete a key. -/
def delete (d : Dict K V) (k : K) : Dict K V :=
  ⟨d.entries.filter fun p => decide (p.1 ≠ k),
    d.nodup.sublist (List.filter_sublist.map _)⟩

/-- Is the key present? -/
def has (d : Dict K V) (k : K) : Bool :=
  (d.get k).isSome

/-- Keep the entries whose keys satisfy `q`. -/
def filterKeys (q : K → Bool) (d : Dict K V) : Dict K V :=
  ⟨d.entries.filter fun p => q p.1, d.nodup.sublist (List.filter_sublist.map _)⟩

/-- The values, in order. -/
def values (d : Dict K V) : List V :=
  d.entries.map Prod.snd

/-- The dictionary of a list of entries; later entries win. -/
def ofList (es : List (K × V)) : Dict K V :=
  es.foldl (fun d p => d.set p.1 p.2) empty

variable {d : Dict K V} {k k' : K} {v w : V}

theorem get_eq_some_iff : d.get k = some v ↔ (k, v) ∈ d.entries := by
  unfold get
  rw [Option.map_eq_some_iff]
  constructor
  · rintro ⟨p, hp, rfl⟩
    have hkey : p.1 = k := by simpa using List.find?_some hp
    rw [← hkey]
    exact List.mem_of_find?_eq_some hp
  · intro hmem
    cases hfind : d.entries.find? fun p => decide (p.1 = k) with
    | none =>
        have hno := List.find?_eq_none.mp hfind (k, v) hmem
        simp at hno
    | some p =>
        have hkey : p.1 = k := by simpa using List.find?_some hfind
        have hp := List.mem_of_find?_eq_some hfind
        have heq : p = (k, v) := List.inj_on_of_nodup_map d.nodup hp hmem hkey
        exact ⟨p, rfl, congrArg Prod.snd heq⟩

theorem mem_values : v ∈ d.values ↔ ∃ k, d.get k = some v := by
  simp only [get_eq_some_iff, values, List.mem_map]
  constructor
  · rintro ⟨⟨k, w⟩, hmem, rfl⟩
    exact ⟨k, hmem⟩
  · rintro ⟨k, hmem⟩
    exact ⟨(k, v), hmem, rfl⟩

@[simp] theorem get_empty (k : K) : (empty : Dict K V).get k = none :=
  rfl

theorem find_setEntries (k k' : K) (v : V) (es : List (K × V)) :
    ((setEntries k v es).find? fun p => decide (p.1 = k')).map Prod.snd =
      if k = k' then some v else (es.find? fun p => decide (p.1 = k')).map Prod.snd := by
  induction es with
  | nil =>
      by_cases h : k = k'
      · simp [setEntries, h]
      · simp [setEntries, h]
  | cons p rest ih =>
      unfold setEntries
      by_cases hp : p.1 = k
      · by_cases h : k = k'
        · simp [hp, h]
        · simp [hp, h]
      · by_cases hk' : p.1 = k'
        · have hne : k ≠ k' := fun he => hp (hk'.trans he.symm)
          rw [if_neg hp, if_neg hne, List.find?_cons_of_pos (by simpa using hk'),
            List.find?_cons_of_pos (by simpa using hk')]
        · simpa [hp, hk'] using ih

theorem get_set : (d.set k v).get k' = if k = k' then some v else d.get k' :=
  find_setEntries k k' v d.entries

theorem get_set_self : (d.set k v).get k = some v := by
  rw [get_set, if_pos rfl]

theorem get_delete : (d.delete k).get k' = if k = k' then none else d.get k' := by
  unfold get delete
  rw [List.find?_filter]
  split_ifs with h
  · rw [Option.map_eq_none_iff, List.find?_eq_none]
    intro p _
    simp [h]
  · congr 2
    funext p
    by_cases hp : p.1 = k'
    · simp [hp, Ne.symm h]
    · simp [hp]

theorem get_filterKeys {q : K → Bool} :
    (d.filterKeys q).get k = if q k then d.get k else none := by
  unfold get filterKeys
  rw [List.find?_filter]
  split_ifs with h
  · congr 2
    funext p
    by_cases hp : p.1 = k
    · simp [hp, h]
    · simp [hp]
  · rw [Option.map_eq_none_iff, List.find?_eq_none]
    intro p _
    by_cases hp : p.1 = k
    · simp [hp, h]
    · simp [hp]

theorem has_iff : d.has k = true ↔ ∃ v, d.get k = some v := by
  unfold has
  rw [Option.isSome_iff_exists]

@[simp] theorem has_empty (k : K) : (empty : Dict K V).has k = false :=
  rfl

theorem has_set : (d.set k v).has k' = true ↔ k = k' ∨ d.has k' = true := by
  unfold has
  rw [get_set]
  split_ifs with h
  · simp [h]
  · simp [h]

theorem has_filterKeys {q : K → Bool} :
    (d.filterKeys q).has k = true ↔ q k = true ∧ d.has k = true := by
  unfold has
  rw [get_filterKeys]
  split_ifs with h
  · simp [h]
  · simp [h]

theorem has_delete : (d.delete k).has k' = true ↔ k ≠ k' ∧ d.has k' = true := by
  unfold has
  rw [get_delete]
  split_ifs with h
  · simp [h]
  · simp [h]

omit [DecidableEq K] in
theorem eq_empty (h : d.entries = []) : d = empty := by
  obtain ⟨entries, nodup⟩ := d
  obtain rfl : entries = [] := h
  rfl

/-- The first entry is deleted. -/
theorem entries_delete_head {rest : List (K × V)} (h : d.entries = (k, v) :: rest) :
    (d.delete k).entries = rest := by
  have hnodup := d.nodup
  rw [h, List.map_cons, List.nodup_cons] at hnodup
  unfold delete
  dsimp only
  rw [h, List.filter_cons_of_neg (by simp), List.filter_eq_self]
  intro p hp
  have hmem : p.1 ∈ rest.map Prod.fst := List.mem_map_of_mem hp
  exact decide_eq_true fun heq => hnodup.1 (heq ▸ hmem)

/-- A new key is set and deleted. -/
theorem delete_set (h : d.get k = none) : (d.set k v).delete k = d := by
  have hkeys : ∀ es : List (K × V), (∀ p ∈ es, p.1 ≠ k) →
      (setEntries k v es).filter (fun p => decide (p.1 ≠ k)) = es := by
    intro es
    induction es with
    | nil => simp [setEntries]
    | cons p rest ih =>
        intro hne
        have hp := hne p List.mem_cons_self
        rw [setEntries, if_neg hp, List.filter_cons_of_pos (by simpa using hp),
          ih fun q hq => hne q (List.mem_cons_of_mem _ hq)]
  have hne : ∀ p ∈ d.entries, p.1 ≠ k := by
    rintro ⟨k', w⟩ hp rfl
    rw [get_eq_some_iff.mpr hp] at h
    cases h
  obtain ⟨entries, nodup⟩ := d
  simp only [set, delete, Dict.mk.injEq]
  exact hkeys entries hne

/-- With distinct keys every listed entry is found. -/
theorem get_ofList {es : List (K × V)} (hnodup : (es.map Prod.fst).Nodup) :
    (ofList es).get k = some v ↔ (k, v) ∈ es := by
  have hgeneral : ∀ (es : List (K × V)) (d : Dict K V), (es.map Prod.fst).Nodup →
      ((es.foldl (fun d p => d.set p.1 p.2) d).get k = some v ↔
        (k, v) ∈ es ∨ (k ∉ es.map Prod.fst ∧ d.get k = some v)) := by
    intro es
    induction es with
    | nil => simp
    | cons p rest ih =>
        intro d h
        rw [List.map_cons, List.nodup_cons] at h
        rw [List.foldl_cons, ih _ h.2, get_set, List.map_cons]
        by_cases hp : p.1 = k
        · have hrest : (k, v) ∉ rest := by
            intro hmem
            exact h.1 (hp ▸ List.mem_map_of_mem hmem)
          obtain ⟨k₀, v₀⟩ := p
          obtain rfl : k₀ = k := hp
          simp [hrest, h.1, eq_comm]
        · have hne : (k, v) ≠ p := fun he => hp (congrArg Prod.fst he).symm
          have hk : k ≠ p.1 := fun he => hp he.symm
          simp [hp, hne, hk]
  rw [ofList, hgeneral es empty hnodup]
  simp

/-- What is found was listed. -/
theorem mem_of_get_ofList {es : List (K × V)} (h : (ofList es).get k = some v) : (k, v) ∈ es := by
  have hgeneral : ∀ (es : List (K × V)) (d : Dict K V),
      (es.foldl (fun d p => d.set p.1 p.2) d).get k = some v →
        (k, v) ∈ es ∨ d.get k = some v := by
    intro es
    induction es with
    | nil => exact fun d h => Or.inr h
    | cons p rest ih =>
        intro d h
        rcases ih _ h with hmem | hget
        · exact Or.inl (List.mem_cons_of_mem _ hmem)
        · rw [get_set] at hget
          split_ifs at hget with hp
          · obtain rfl := Option.some.inj hget
            obtain rfl := hp
            exact Or.inl List.mem_cons_self
          · exact Or.inr hget
  rcases hgeneral es empty h with hmem | hget
  · exact hmem
  · simp at hget

/-- What is listed is found. -/
theorem get_ofList_isSome {es : List (K × V)} (h : k ∈ es.map Prod.fst) :
    ((ofList es).get k).isSome := by
  have hgeneral : ∀ (es : List (K × V)) (d : Dict K V), k ∈ es.map Prod.fst ∨ (d.get k).isSome →
      ((es.foldl (fun d p => d.set p.1 p.2) d).get k).isSome := by
    intro es
    induction es with
    | nil => simp
    | cons p rest ih =>
        intro d h
        refine ih _ ?_
        by_cases hp : p.1 = k
        · right
          rw [get_set, if_pos hp]
          rfl
        · rw [get_set, if_neg hp]
          simpa [Ne.symm hp] using h
  exact hgeneral es empty (Or.inl h)

theorem entries_set_ne_nil : (d.set k v).entries ≠ [] :=
  List.ne_nil_of_mem (get_eq_some_iff.mp get_set_self)

/-- Setting a key to its value changes nothing. -/
theorem set_of_get (h : d.get k = some v) : d.set k v = d := by
  have hmem := get_eq_some_iff.mp h
  have hsame : ∀ es : List (K × V), (es.map Prod.fst).Nodup → (k, v) ∈ es →
      setEntries k v es = es := by
    intro es
    induction es with
    | nil => simp
    | cons p rest ih =>
        intro hnodup hp
        rw [List.map_cons, List.nodup_cons] at hnodup
        rw [setEntries]
        rcases List.mem_cons.mp hp with rfl | hp
        · rw [if_pos rfl]
        · have hne : p.1 ≠ k := fun heq => hnodup.1 (heq ▸ List.mem_map_of_mem hp)
          rw [if_neg hne, ih hnodup.2 hp]
  obtain ⟨entries, nodup⟩ := d
  simp only [set, Dict.mk.injEq]
  exact hsame entries nodup hmem

section Map

universe w

variable {W : Type w}

/-- The same keys with other values. -/
def mapValues (f : V → W) (d : Dict K V) : Dict K W :=
  ⟨d.entries.map fun p => (p.1, f p.2), by
    rw [List.map_map]
    exact d.nodup⟩

theorem get_mapValues (f : V → W) : (d.mapValues f).get k = (d.get k).map f := by
  unfold get mapValues
  rw [List.find?_map, Option.map_map, Option.map_map]
  rfl

theorem mapValues_set (f : V → W) : (d.set k v).mapValues f = (d.mapValues f).set k (f v) := by
  have hentries : ∀ es : List (K × V),
      (setEntries k v es).map (fun p => (p.1, f p.2)) =
        setEntries k (f v) (es.map fun p => (p.1, f p.2)) := by
    intro es
    induction es with
    | nil => rfl
    | cons p rest ih =>
        rw [setEntries, List.map_cons, setEntries]
        split_ifs
        · rfl
        · rw [List.map_cons, ih]
  simp only [mapValues, set, Dict.mk.injEq]
  exact hentries d.entries

end Map

end Dict
end Lib
end SecureMessenger
