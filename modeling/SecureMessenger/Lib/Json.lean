import Mathlib.Tactic

/-!
# JSON texts

`stringify` is `JSON.stringify` on an array of strings: every element is
quoted, the quote, the backslash and the control characters are escaped, and
the elements are separated by commas.  The text determines the array
(`stringify_injective`), so it can serve as a composite key.

`stringifyObject` is `JSON.stringify` on an object of strings, integers and
nulls.  The text determines the properties and the order in which they stand
(`stringifyObject_injective`), so two texts of one object can differ.
-/

namespace SecureMessenger
namespace Lib
namespace Json

/-- The quotation mark. -/
def quoteMark : Char := Char.ofNat 34

/-- The backslash. -/
def backslash : Char := Char.ofNat 92

/-- Lower-case hexadecimal digit. -/
def hexDigit (n : Nat) : Char :=
  if n < 10 then Char.ofNat (48 + n) else Char.ofNat (87 + n)

/-- The escape sequence of one character. -/
def escapeChar (c : Char) : List Char :=
  if c = quoteMark then [backslash, quoteMark]
  else if c = backslash then [backslash, backslash]
  else if c.toNat = 8 then [backslash, 'b']
  else if c.toNat = 9 then [backslash, 't']
  else if c.toNat = 10 then [backslash, 'n']
  else if c.toNat = 12 then [backslash, 'f']
  else if c.toNat = 13 then [backslash, 'r']
  else if c.toNat < 32 then
    [backslash, 'u', '0', '0', hexDigit (c.toNat / 16), hexDigit (c.toNat % 16)]
  else [c]

/-- The text of one string up to and including its closing quote. -/
def quoteTail : List Char → List Char
  | [] => [quoteMark]
  | c :: s => escapeChar c ++ quoteTail s

/-- The elements after the first one, with their separators. -/
def tailText : List String → List Char
  | [] => [']']
  | s :: rest => ',' :: quoteMark :: quoteTail s.toList ++ tailText rest

/-- `JSON.stringify` of an array of strings. -/
def stringify : List String → String
  | [] => "[]"
  | s :: rest =>
      String.ofList ('[' :: quoteMark :: quoteTail s.toList ++ tailText rest)

/-- Value of a hexadecimal digit. -/
def hexValue (c : Char) : Nat :=
  if c.toNat < 58 then c.toNat - 48 else c.toNat - 87

/-- Read one character off the front of a string body; `none` at the closing
quote. -/
def unescape : List Char → Option (Char × List Char)
  | [] => none
  | c :: x =>
      if c = quoteMark then none
      else if c = backslash then
        match x with
        | [] => none
        | d :: y =>
            if d = 'b' then some (Char.ofNat 8, y)
            else if d = 't' then some (Char.ofNat 9, y)
            else if d = 'n' then some (Char.ofNat 10, y)
            else if d = 'f' then some (Char.ofNat 12, y)
            else if d = 'r' then some (Char.ofNat 13, y)
            else if d = 'u' then
              match y with
              | _ :: _ :: a :: b :: z =>
                  some (Char.ofNat (16 * hexValue a + hexValue b), z)
              | _ => none
            else some (d, y)
      else some (c, x)

theorem ofNat_of_toNat_eq {c : Char} {n : Nat} (h : c.toNat = n) :
    Char.ofNat n = c := by
  rw [← h, Char.ofNat_toNat]

theorem hexValue_hexDigit :
    ∀ n, n < 32 → 16 * hexValue (hexDigit (n / 16)) + hexValue (hexDigit (n % 16)) = n := by
  decide

/-- Escape sequences can be read back. -/
theorem unescape_escapeChar (c : Char) (x : List Char) :
    unescape (escapeChar c ++ x) = some (c, x) := by
  have hbq : backslash ≠ quoteMark := by decide
  have hb : backslash ∉ ['b', 't', 'n', 'f', 'r', 'u'] := by decide
  have hq : quoteMark ∉ ['b', 't', 'n', 'f', 'r', 'u'] := by decide
  simp only [List.mem_cons, List.not_mem_nil, or_false, not_or] at hb hq
  unfold escapeChar
  split_ifs with h₁ h₂ h₃ h₄ h₅ h₆ h₇ h₈
  · simp [unescape, hbq, hq, h₁]
  · simp [unescape, hbq, hb, h₂]
  · simpa [unescape, hbq] using ofNat_of_toNat_eq h₃
  · simpa [unescape, hbq] using ofNat_of_toNat_eq h₄
  · simpa [unescape, hbq] using ofNat_of_toNat_eq h₅
  · simpa [unescape, hbq] using ofNat_of_toNat_eq h₆
  · simpa [unescape, hbq] using ofNat_of_toNat_eq h₇
  · simp [unescape, hbq, hexValue_hexDigit _ h₈]
  · simp [unescape, h₁, h₂]

/-- A string body together with what follows it can be read back. -/
theorem quoteTail_append_inj :
    ∀ {s s' x x' : List Char},
      quoteTail s ++ x = quoteTail s' ++ x' → s = s' ∧ x = x'
  | [], [], x, x', h => by
      simpa [quoteTail] using h
  | [], c :: s', x, x', h => by
      have hu := congrArg unescape h
      simp [quoteTail, unescape_escapeChar] at hu
      simp [unescape] at hu
  | c :: s, [], x, x', h => by
      have hu := congrArg unescape h
      simp [quoteTail, unescape_escapeChar] at hu
      simp [unescape] at hu
  | c :: s, d :: s', x, x', h => by
      have hu := congrArg unescape h
      simp only [quoteTail, List.append_assoc, unescape_escapeChar,
        Option.some.injEq, Prod.mk.injEq] at hu
      obtain ⟨hcd, hrest⟩ := hu
      obtain ⟨hs, hx⟩ := quoteTail_append_inj hrest
      exact ⟨by rw [hcd, hs], hx⟩

theorem tailText_inj :
    ∀ {a b : List String}, tailText a = tailText b → a = b
  | [], [], _ => rfl
  | [], s :: b, h => by
      simp [tailText] at h
  | s :: a, [], h => by
      simp [tailText] at h
  | s :: a, s' :: b, h => by
      simp only [tailText, List.cons_append, List.cons.injEq, true_and] at h
      obtain ⟨hs, hrest⟩ := quoteTail_append_inj h
      rw [String.toList_injective hs, tailText_inj hrest]

/-- The JSON text determines the array. -/
theorem stringify_injective :
    ∀ {a b : List String}, stringify a = stringify b → a = b
  | [], [], _ => rfl
  | [], s :: b, h => by
      have hl := congrArg String.toList h
      simp [stringify, quoteMark] at hl
  | s :: a, [], h => by
      have hl := congrArg String.toList h
      simp [stringify, quoteMark] at hl
  | s :: a, s' :: b, h => by
      have hl := congrArg String.toList h
      simp only [stringify, String.toList_ofList, List.cons_append,
        List.cons.injEq, true_and] at hl
      obtain ⟨hs, hrest⟩ := quoteTail_append_inj hl
      rw [String.toList_injective hs, tailText_inj hrest]

/-! ## Flat objects -/

/-- The value of a property that is neither an array nor an object. -/
inductive Scalar
  | null
  | number (n : ℤ)
  | string (s : String)
deriving DecidableEq

/-- The text of a scalar. -/
def Scalar.text : Scalar → List Char
  | null => ['n', 'u', 'l', 'l']
  | number n => n.repr.toList
  | string s => quoteMark :: quoteTail s.toList

/-- The opening brace. -/
def openBrace : Char := Char.ofNat 123

/-- The closing brace. -/
def closeBrace : Char := Char.ofNat 125

/-- A property with its value. -/
def propertyText (property : String × Scalar) : List Char :=
  quoteMark :: quoteTail property.1.toList ++ ':' :: property.2.text

/-- The properties after the first one, with their separators. -/
def tailProperties : List (String × Scalar) → List Char
  | [] => [closeBrace]
  | property :: rest => ',' :: propertyText property ++ tailProperties rest

/-- `JSON.stringify` of an object with the given properties, in their order. -/
def stringifyObject : List (String × Scalar) → String
  | [] => String.ofList [openBrace, closeBrace]
  | property :: rest =>
      String.ofList (openBrace :: propertyText property ++ tailProperties rest)

/-- A character that may stand in the text of a number. -/
def isNumeral (c : Char) : Bool :=
  c.isDigit || c == '-'

/-- A character of an unquoted scalar. -/
def isPlain (c : Char) : Bool :=
  c != ',' && c != closeBrace && c != quoteMark

/-- The text of a natural number. -/
theorem toList_repr_natCast (n : ℕ) : (n : ℤ).repr.toList = Nat.toDigits 10 n :=
  Nat.toList_repr

/-- The text of a negative number. -/
theorem toList_repr_negSucc (n : ℕ) :
    (Int.negSucc n).repr.toList = '-' :: Nat.toDigits 10 (n + 1) := by
  rw [← Nat.toList_repr]
  simp [Int.repr, String.toList_append]

theorem isDigit_of_mem {n : ℕ} {c : Char} (h : c ∈ Nat.toDigits 10 n) : c.isDigit = true :=
  Nat.isDigit_of_mem_toDigits (by decide) (by decide) h

theorem toDigits_injective {m n : ℕ} (h : Nat.toDigits 10 m = Nat.toDigits 10 n) : m = n := by
  rw [← Nat.ofDigitChars_ten_toDigits (n := m), h, Nat.ofDigitChars_ten_toDigits]

/-- No natural number is written like a negative one. -/
theorem toDigits_ne_minus (n : ℕ) (x : List Char) : Nat.toDigits 10 n ≠ '-' :: x := by
  intro h
  have hmem : '-' ∈ Nat.toDigits 10 n := by
    rw [h]
    exact List.mem_cons_self
  exact absurd (isDigit_of_mem hmem) (by decide)

theorem toList_repr_injective {m n : ℤ} (h : m.repr.toList = n.repr.toList) : m = n := by
  cases m with
  | ofNat m =>
      cases n with
      | ofNat n =>
          exact congrArg Int.ofNat (toDigits_injective (by
            rw [← toList_repr_natCast, ← toList_repr_natCast]
            exact h))
      | negSucc n =>
          rw [toList_repr_negSucc] at h
          exact absurd ((toList_repr_natCast m).symm.trans h) (toDigits_ne_minus m _)
  | negSucc m =>
      cases n with
      | ofNat n =>
          rw [toList_repr_negSucc] at h
          exact absurd ((toList_repr_natCast n).symm.trans h.symm) (toDigits_ne_minus n _)
      | negSucc n =>
          rw [toList_repr_negSucc, toList_repr_negSucc, List.cons.injEq] at h
          rw [Nat.succ.inj (toDigits_injective h.2)]

theorem isNumeral_of_mem_repr {n : ℤ} {c : Char} (h : c ∈ n.repr.toList) :
    isNumeral c = true := by
  cases n with
  | ofNat m =>
      have hmem : c ∈ Nat.toDigits 10 m := toList_repr_natCast m ▸ h
      rw [isNumeral, isDigit_of_mem hmem, Bool.true_or]
  | negSucc m =>
      rw [toList_repr_negSucc] at h
      rcases List.mem_cons.mp h with rfl | hmem
      · rfl
      · rw [isNumeral, isDigit_of_mem hmem, Bool.true_or]

theorem repr_ne_nil (n : ℤ) : n.repr.toList ≠ [] := by
  cases n with
  | ofNat m =>
      intro h
      exact Nat.toDigits_ne_nil ((toList_repr_natCast m).symm.trans h)
  | negSucc m =>
      rw [toList_repr_negSucc]
      exact List.cons_ne_nil _ _

theorem isPlain_of_isNumeral {c : Char} (h : isNumeral c = true) : isPlain c = true := by
  by_contra hplain
  have hc : c = ',' ∨ c = closeBrace ∨ c = quoteMark := by
    simp only [isPlain, Bool.and_eq_true, bne_iff_ne, ne_eq, not_and_or, not_not] at hplain
    tauto
  rcases hc with rfl | rfl | rfl <;> revert h <;> decide

/-- What follows the value of a property. -/
def Ends (x : List Char) : Prop :=
  ∃ c rest, x = c :: rest ∧ isPlain c = false

theorem ends_tailProperties (properties : List (String × Scalar)) :
    Ends (tailProperties properties) := by
  cases properties with
  | nil => exact ⟨_, _, rfl, rfl⟩
  | cons property rest => exact ⟨_, _, rfl, rfl⟩

/-- An unquoted text together with what follows it can be read back. -/
theorem plain_append_inj {u v x y : List Char} (hu : ∀ c ∈ u, isPlain c = true)
    (hv : ∀ c ∈ v, isPlain c = true) (hx : Ends x) (hy : Ends y) (h : u ++ x = v ++ y) :
    u = v ∧ x = y := by
  obtain ⟨c, x', rfl, hc⟩ := hx
  obtain ⟨d, y', rfl, hd⟩ := hy
  have hread : ∀ {w : List Char} {e : Char} (z : List Char), (∀ a ∈ w, isPlain a = true) →
      isPlain e = false → (w ++ e :: z).takeWhile isPlain = w := by
    intro w e z hw he
    rw [List.takeWhile_append_of_pos hw, List.takeWhile_cons_of_neg (by rw [he]; decide),
      List.append_nil]
  have huv : u = v := by
    rw [← hread x' hu hc, h, hread y' hv hd]
  subst huv
  exact ⟨rfl, List.append_cancel_left h⟩

/-- A scalar is quoted or plain. -/
theorem Scalar.text_plain {a : Scalar} (h : ∀ s, a ≠ string s) :
    a.text ≠ [] ∧ ∀ c ∈ a.text, isPlain c = true := by
  cases a with
  | null => exact ⟨by decide, List.all_eq_true.mp (by decide)⟩
  | number n =>
      exact ⟨repr_ne_nil n, fun c hc => isPlain_of_isNumeral (isNumeral_of_mem_repr hc)⟩
  | string s => exact absurd rfl (h s)

theorem Scalar.text_injective_of_plain {a b : Scalar} (ha : ∀ s, a ≠ string s)
    (hb : ∀ s, b ≠ string s) (h : a.text = b.text) : a = b := by
  have hnull : ∀ n : ℤ, n.repr.toList ≠ ['n', 'u', 'l', 'l'] := by
    intro n hn
    have hmem : 'n' ∈ n.repr.toList := by
      rw [hn]
      exact List.mem_cons_self
    exact absurd (isNumeral_of_mem_repr hmem) (by decide)
  cases a with
  | string s => exact absurd rfl (ha s)
  | null =>
      cases b with
      | string s => exact absurd rfl (hb s)
      | null => rfl
      | number n => exact absurd h.symm (hnull n)
  | number m =>
      cases b with
      | string s => exact absurd rfl (hb s)
      | null => exact absurd h (hnull m)
      | number n => rw [toList_repr_injective h]

/-- A quoted text and a plain one begin differently. -/
theorem quote_append_ne {u x y : List Char} (hne : u ≠ []) (hu : ∀ c ∈ u, isPlain c = true) :
    u ++ x ≠ quoteMark :: y := by
  intro h
  cases u with
  | nil => exact hne rfl
  | cons c u =>
      obtain ⟨rfl, -⟩ := List.cons.inj h
      exact absurd (hu _ List.mem_cons_self) (by decide)

/-- A scalar together with what follows it can be read back. -/
theorem Scalar.text_append_inj {a b : Scalar} {x y : List Char} (hx : Ends x) (hy : Ends y)
    (h : a.text ++ x = b.text ++ y) : a = b ∧ x = y := by
  by_cases ha : ∃ s, a = string s
  · obtain ⟨s, rfl⟩ := ha
    by_cases hb : ∃ s', b = string s'
    · obtain ⟨s', rfl⟩ := hb
      obtain ⟨hs, hrest⟩ := quoteTail_append_inj (List.cons.inj h).2
      exact ⟨by rw [String.toList_injective hs], hrest⟩
    · rw [not_exists] at hb
      obtain ⟨hne, hplain⟩ := text_plain hb
      exact absurd h.symm (quote_append_ne hne hplain)
  · rw [not_exists] at ha
    obtain ⟨hne, hplain⟩ := text_plain ha
    by_cases hb : ∃ s', b = string s'
    · obtain ⟨s', rfl⟩ := hb
      exact absurd h (quote_append_ne hne hplain)
    · rw [not_exists] at hb
      obtain ⟨htext, hrest⟩ := plain_append_inj hplain (text_plain hb).2 hx hy h
      exact ⟨text_injective_of_plain ha hb htext, hrest⟩

theorem propertyText_append_inj {p q : String × Scalar} {x y : List Char} (hx : Ends x)
    (hy : Ends y) (h : propertyText p ++ x = propertyText q ++ y) : p = q ∧ x = y := by
  simp only [propertyText, List.cons_append, List.append_assoc, List.cons.injEq, true_and] at h
  obtain ⟨hname, h⟩ := quoteTail_append_inj h
  obtain ⟨hvalue, hrest⟩ := Scalar.text_append_inj hx hy (List.cons.inj h).2
  exact ⟨Prod.ext (String.toList_injective hname) hvalue, hrest⟩

theorem tailProperties_inj :
    ∀ {a b : List (String × Scalar)}, tailProperties a = tailProperties b → a = b
  | [], [], _ => rfl
  | [], q :: b, h => by
      exact absurd (List.cons.inj h).1 (by decide)
  | p :: a, [], h => by
      exact absurd (List.cons.inj h).1 (by decide)
  | p :: a, q :: b, h => by
      simp only [tailProperties, List.cons_append, List.cons.injEq, true_and] at h
      obtain ⟨rfl, hrest⟩ :=
        propertyText_append_inj (ends_tailProperties a) (ends_tailProperties b) h
      rw [tailProperties_inj hrest]

/-- The JSON text determines the properties and their order. -/
theorem stringifyObject_injective :
    ∀ {a b : List (String × Scalar)}, stringifyObject a = stringifyObject b → a = b
  | [], [], _ => rfl
  | [], q :: b, h => by
      have hl := String.ofList_injective h
      exact absurd (List.cons.inj (List.cons.inj hl).2).1 (by decide)
  | p :: a, [], h => by
      have hl := String.ofList_injective h
      exact absurd (List.cons.inj (List.cons.inj hl).2).1 (by decide)
  | p :: a, q :: b, h => by
      have hl := String.ofList_injective h
      simp only [List.cons_append, List.cons.injEq, true_and] at hl
      obtain ⟨rfl, hrest⟩ :=
        propertyText_append_inj (ends_tailProperties a) (ends_tailProperties b) hl
      rw [tailProperties_inj hrest]

end Json
end Lib
end SecureMessenger
