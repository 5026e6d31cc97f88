import Mathlib.Data.List.Forall2
import Mathlib.Data.List.Nodup

/-!
# JSON values

What `JSON.parse` returns, over any type of numbers, and what a checked reading
of such values accepts.  A reading takes an optional value, since the entry of
an object may be missing; its meaning is a relation between values and results
(`Reads`), which determines the result and is composed along the shape of the
value.
-/

namespace SecureMessenger
namespace Lib

universe u

/-- A JSON value. -/
inductive JsonValue (N : Type u)
  | null
  | bool (b : Bool)
  | number (n : N)
  | string (s : String)
  | array (items : List (JsonValue N))
  | object (fields : List (String × JsonValue N))

namespace JsonValue

variable {N : Type u}

/-- The entry of an object; of equal names the last counts. -/
def entry {V : Type u} (name : String) : List (String × V) → Option V
  | [] => none
  | (name', v) :: rest => (entry name rest).or (if name' = name then some v else none)

theorem entry_eq_none {V : Type u} {name : String} {fields : List (String × V)}
    (h : name ∉ fields.map Prod.fst) : entry name fields = none := by
  induction fields with
  | nil => rfl
  | cons field rest ih =>
      obtain ⟨name', v⟩ := field
      simp only [List.map_cons, List.mem_cons, not_or] at h
      rw [entry, ih h.2, if_neg (Ne.symm h.1)]
      rfl

/-- An entry of an object whose names are distinct. -/
theorem entry_of_mem {V : Type u} {name : String} {v : V} {fields : List (String × V)}
    (hnodup : (fields.map Prod.fst).Nodup) (h : (name, v) ∈ fields) :
    entry name fields = some v := by
  induction fields with
  | nil => cases h
  | cons field rest ih =>
      obtain ⟨hnot, hrest⟩ := List.nodup_cons.mp hnodup
      rcases List.mem_cons.mp h with rfl | h
      · rw [entry, entry_eq_none hnot, if_pos rfl]
        rfl
      · rw [entry, ih hrest h]
        rfl

end JsonValue

section Readings

variable {ε α β V : Type u}

theorem ok_bind_iff {x : Except ε α} {f : α → Except ε β} {b : β} :
    (x >>= f) = .ok b ↔ ∃ a, x = .ok a ∧ f a = .ok b := by
  cases x with
  | error e => exact ⟨fun h => (by cases h), fun ⟨_, h, _⟩ => (by cases h)⟩
  | ok a => exact ⟨fun h => ⟨a, rfl, h⟩, fun ⟨_, h, hf⟩ => (by cases h; exact hf)⟩

theorem error_bind_iff {x : Except ε α} {f : α → Except ε β} {e : ε} :
    (x >>= f) = .error e ↔ x = .error e ∨ ∃ a, x = .ok a ∧ f a = .error e := by
  cases x with
  | error e' =>
      constructor
      · intro h
        exact .inl (congrArg Except.error (Except.error.inj h))
      · rintro (h | ⟨a, h, -⟩)
        · exact congrArg Except.error (Except.error.inj h)
        · cases h
  | ok a =>
      exact ⟨fun h => .inr ⟨a, rfl, h⟩,
        fun h => h.elim (fun h => (by cases h)) fun ⟨_, h, hf⟩ => (by cases h; exact hf)⟩

theorem ok_mapM_iff {f : α → Except ε β} {l : List α} : ∀ {bs : List β},
    l.mapM f = .ok bs ↔ List.Forall₂ (fun a b => f a = .ok b) l bs := by
  induction l with
  | nil =>
      intro bs
      rw [List.mapM_nil, List.forall₂_nil_left_iff]
      exact ⟨fun h => (Except.ok.inj h).symm, fun h => congrArg Except.ok h.symm⟩
  | cons a l ih =>
      intro bs
      simp only [List.mapM_cons, ok_bind_iff, ih, List.forall₂_cons_left_iff]
      constructor
      · rintro ⟨b, hb, bs', hbs, heq⟩
        exact ⟨b, bs', hb, hbs, (Except.ok.inj heq).symm⟩
      · rintro ⟨b, bs', hb, hbs, rfl⟩
        exact ⟨b, hb, bs', hbs, rfl⟩

theorem error_mapM {f : α → Except ε β} {l : List α} {e : ε}
    (h : l.mapM f = .error e) : ∃ a ∈ l, f a = .error e := by
  induction l with
  | nil => cases h
  | cons a l ih =>
      rw [List.mapM_cons, error_bind_iff] at h
      rcases h with h | ⟨b, -, h⟩
      · exact ⟨a, List.mem_cons_self, h⟩
      · rw [error_bind_iff] at h
        rcases h with h | ⟨bs, -, h⟩
        · obtain ⟨a', ha', h⟩ := ih h
          exact ⟨a', List.mem_cons_of_mem _ ha', h⟩
        · cases h

/-- The reading accepts what the relation allows, and nothing else. -/
def Reads (read : Option V → Except ε α) (P : Option V → α → Prop) : Prop :=
  ∀ v a, read v = .ok a ↔ P v a

/-- A reading determines its result. -/
theorem Reads.unique {read : Option V → Except ε α} {P : Option V → α → Prop}
    (h : Reads read P) {v : Option V} {a a' : α} (ha : P v a) (ha' : P v a') : a = a' :=
  Except.ok.inj (((h v a).mpr ha).symm.trans ((h v a').mpr ha'))

/-- A value that stands for `a` under a condition, and otherwise for nothing, is
accepted under this condition and read as `a`. -/
theorem Reads.exactly {read : Option V → Except ε α} {P : Option V → α → Prop}
    (h : Reads read P) {v : Option V} {a : α} {safe : Prop} (hsafe : safe → P v a)
    (honly : ∀ b, P v b → safe) {b : α} : read v = .ok b ↔ safe ∧ b = a := by
  constructor
  · intro hb
    have hP := (h v b).mp hb
    exact ⟨honly b hP, h.unique hP (hsafe (honly b hP))⟩
  · rintro ⟨hs, rfl⟩
    exact (h v b).mpr (hsafe hs)

/-- Every error of the result satisfies `Q`. -/
def Rejects (Q : ε → Prop) (x : Except ε α) : Prop :=
  ∀ e, x = .error e → Q e

theorem Rejects.ok {Q : ε → Prop} (a : α) : Rejects Q (.ok a) := by
  intro e h
  cases h

theorem Rejects.bind {Q : ε → Prop} {x : Except ε α} {f : α → Except ε β} (hx : Rejects Q x)
    (hf : ∀ a, Rejects Q (f a)) : Rejects Q (x >>= f) := by
  intro e h
  rcases error_bind_iff.mp h with h | ⟨a, -, h⟩
  · exact hx e h
  · exact hf a e h

end Readings

end Lib
end SecureMessenger
