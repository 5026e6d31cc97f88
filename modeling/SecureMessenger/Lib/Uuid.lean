import Mathlib.Data.String.Basic

/-!
# Canonical text of identifiers

A UUID is written with 32 hexadecimal digits in five groups.  On texts of one
shape the order of the strings is the order of the numbers they write, so it
does not matter whether two identifiers are compared as numbers, as bytes or as
text.
-/

namespace SecureMessenger
namespace Lib
namespace Uuid

/-- A digit, 0-9 or a-f. -/
def isHex (c : Char) : Bool :=
  (48 ≤ c.toNat ∧ c.toNat ≤ 57) ∨ (97 ≤ c.toNat ∧ c.toNat ≤ 102)

/-- The value of a hexadecimal digit. -/
def hexValue (c : Char) : Nat :=
  if c.toNat ≤ 57 then c.toNat - 48 else c.toNat - 87

/-- The text follows the shape: `true` stands for a dash, `false` for a
digit. -/
inductive Shaped : List Bool → List Char → Prop
  | nil : Shaped [] []
  | dash {shape : List Bool} {cs : List Char} (h : Shaped shape cs) :
      Shaped (true :: shape) ('-' :: cs)
  | digit {shape : List Bool} {c : Char} {cs : List Char} (hc : isHex c = true)
      (h : Shaped shape cs) : Shaped (false :: shape) (c :: cs)

instance decidableShaped : (shape : List Bool) → (cs : List Char) → Decidable (Shaped shape cs)
  | [], [] => isTrue .nil
  | [], _ :: _ => isFalse nofun
  | _ :: _, [] => isFalse nofun
  | true :: shape, c :: cs =>
      have := decidableShaped shape cs
      decidable_of_iff (c = '-' ∧ Shaped shape cs)
        ⟨fun ⟨hc, h⟩ => hc ▸ .dash h, fun h => by cases h; exact ⟨rfl, ‹_›⟩⟩
  | false :: shape, c :: cs =>
      have := decidableShaped shape cs
      decidable_of_iff (isHex c = true ∧ Shaped shape cs)
        ⟨fun ⟨hc, h⟩ => .digit hc h, fun h => by cases h; exact ⟨‹_›, ‹_›⟩⟩

/-- The number that the digits write, after the digits of `n`. -/
def value (n : Nat) : List Char → Nat
  | [] => n
  | c :: cs => if c = '-' then value n cs else value (16 * n + hexValue c) cs

theorem hexValue_lt {c : Char} (h : isHex c = true) : hexValue c < 16 := by
  have hb := of_decide_eq_true h
  unfold hexValue
  split <;> omega

/-- The digits are ordered as their values. -/
theorem hexValue_lt_iff {c d : Char} (hc : isHex c = true) (hd : isHex d = true) :
    hexValue c < hexValue d ↔ c < d := by
  have hbc := of_decide_eq_true hc
  have hbd := of_decide_eq_true hd
  rw [Char.lt_def, UInt32.lt_iff_toNat_lt]
  show _ ↔ c.toNat < d.toNat
  unfold hexValue
  split <;> split <;> omega

theorem ne_dash {c : Char} (h : isHex c = true) : c ≠ '-' := by
  rintro rfl
  exact absurd h (by decide)

/-- A larger number stays larger, whatever digits follow. -/
theorem value_lt {shape : List Bool} {cs : List Char} (hc : Shaped shape cs) :
    ∀ {ds : List Char} {m n : Nat}, Shaped shape ds → m < n → value m cs < value n ds := by
  induction hc with
  | nil =>
      intro ds m n hd hlt
      cases hd
      exact hlt
  | dash _ ih =>
      intro ds m n hd hlt
      cases hd with
      | dash hd => simpa [value] using ih hd hlt
  | digit hc _ ih =>
      intro ds m n hd hlt
      cases hd with
      | digit hd' hd =>
          simp only [value, ne_dash hc, ne_dash hd', if_false]
          have hc' := hexValue_lt hc
          exact ih hd (by omega)

/-- **Texts of one shape are ordered as their numbers.** -/
theorem value_lt_iff {shape : List Bool} {cs : List Char} (hc : Shaped shape cs) :
    ∀ {ds : List Char} {n : Nat}, Shaped shape ds → (value n cs < value n ds ↔ cs < ds) := by
  induction hc with
  | nil =>
      intro ds n hd
      cases hd
      simp [value]
  | dash _ ih =>
      intro ds n hd
      cases hd with
      | dash hd => simpa [value] using ih hd
  | @digit shape c cs hc hcs ih =>
      intro ds n hd
      cases hd with
      | @digit _ d ds hd' hds =>
          simp only [value, ne_dash hc, ne_dash hd', if_false, List.cons_lt_cons_iff]
          rcases lt_trichotomy c d with hlt | rfl | hgt
          · have hval := (hexValue_lt_iff hc hd').mpr hlt
            exact iff_of_true (value_lt hcs hds (by omega)) (Or.inl hlt)
          · simpa using ih hds
          · have hval := (hexValue_lt_iff hd' hc).mpr hgt
            have hback := value_lt hds hcs (show 16 * n + hexValue d < 16 * n + hexValue c by omega)
            refine iff_of_false (by omega) ?_
            rintro (h | ⟨rfl, -⟩)
            · exact lt_asymm hgt h
            · exact lt_irrefl _ hgt

/-- `8-4-4-4-12` digits. -/
def shape : List Bool :=
  let group n := List.replicate n false
  group 8 ++ true :: group 4 ++ true :: group 4 ++ true :: group 4 ++ true :: group 12

/-- The text of a UUID. -/
def Canonical (id : String) : Prop :=
  Shaped shape id.toList

instance (id : String) : Decidable (Canonical id) :=
  decidableShaped shape id.toList

/-- The number a UUID stands for. -/
def toInt (id : String) : Nat :=
  value 0 id.toList

theorem toInt_lt_iff {id id' : String} (h : Canonical id) (h' : Canonical id') :
    toInt id < toInt id' ↔ id < id' :=
  (value_lt_iff h h').trans String.lt_iff_toList_lt.symm

/-- Different identifiers are different numbers. -/
theorem toInt_inj {id id' : String} (h : Canonical id) (h' : Canonical id')
    (heq : toInt id = toInt id') : id = id' := by
  rcases lt_trichotomy id id' with hlt | heq' | hgt
  · have := (toInt_lt_iff h h').mpr hlt
    omega
  · exact heq'
  · have := (toInt_lt_iff h' h).mpr hgt
    omega

end Uuid
end Lib
end SecureMessenger
