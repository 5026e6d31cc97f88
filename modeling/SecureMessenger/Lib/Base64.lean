import Mathlib.Data.List.Basic

/-!
# Base64

`base64.b64encode` and `base64.b64decode(..., validate=True)` of the Python
standard library, on lists of bytes and characters.  Strict decoding refuses
characters outside the alphabet, data after the padding and groups that are
not four characters long; like Python's, it ignores the unused low bits of a
padded group, so that several texts decode to the same bytes.
-/

namespace SecureMessenger
namespace Lib
namespace Base64

/-- A byte string. -/
abbrev Bytes := List (Fin 256)

/-- The character for a six-bit value. -/
def digit (n : Nat) : Char :=
  if n < 26 then Char.ofNat (65 + n)
  else if n < 52 then Char.ofNat (97 + (n - 26))
  else if n < 62 then Char.ofNat (48 + (n - 52))
  else if n = 62 then '+'
  else '/'

/-- The six-bit value of a character. -/
def value (c : Char) : Option Nat :=
  if 'A' ≤ c ∧ c ≤ 'Z' then some (c.toNat - 65)
  else if 'a' ≤ c ∧ c ≤ 'z' then some (c.toNat - 97 + 26)
  else if '0' ≤ c ∧ c ≤ '9' then some (c.toNat - 48 + 52)
  else if c = '+' then some 62
  else if c = '/' then some 63
  else none

/-- The characters of `b64encode`. -/
def encodeChars : Bytes → List Char
  | [] => []
  | [a] => [digit (a / 4), digit (a % 4 * 16), '=', '=']
  | [a, b] => [digit (a / 4), digit (a % 4 * 16 + b / 16), digit (b % 16 * 4), '=']
  | a :: b :: c :: rest =>
      digit (a / 4) :: digit (a % 4 * 16 + b / 16) :: digit (b % 16 * 4 + c / 64) ::
        digit (c % 64) :: encodeChars rest

/-- `base64.b64encode(data).decode("ascii")`. -/
def b64encode (data : Bytes) : String :=
  String.ofList (encodeChars data)

/-- The byte with this value modulo 256. -/
def byte (n : Nat) : Fin 256 :=
  ⟨n % 256, Nat.mod_lt _ (by decide)⟩

/-- Strict decoding. -/
def decodeChars : List Char → Option Bytes
  | [] => some []
  | [a, b, '=', '='] => do
      let x ← value a
      let y ← value b
      return [byte (x * 4 + y / 16)]
  | [a, b, c, '='] => do
      let x ← value a
      let y ← value b
      let z ← value c
      return [byte (x * 4 + y / 16), byte (y * 16 + z / 4)]
  | a :: b :: c :: d :: rest => do
      let x ← value a
      let y ← value b
      let z ← value c
      let w ← value d
      let tail ← decodeChars rest
      return byte (x * 4 + y / 16) :: byte (y * 16 + z / 4) :: byte (z * 64 + w) :: tail
  | _ => none

/-- `base64.b64decode(text, validate=True)`; `none` is `binascii.Error`. -/
def b64decode (text : String) : Option Bytes :=
  decodeChars text.toList

/-! ## Decoding what was encoded -/

theorem value_digit {n : Nat} (h : n < 64) : value (digit n) = some n := by
  have hall : ∀ n : Fin 64, value (digit n) = some n.val := by decide
  exact hall ⟨n, h⟩

theorem digit_ne_pad {n : Nat} (h : n < 64) : digit n ≠ '=' := by
  have hall : ∀ n : Fin 64, digit n ≠ '=' := by decide
  exact hall ⟨n, h⟩

theorem byte_eq {n : Nat} {a : Fin 256} (h : n % 256 = a) : byte n = a :=
  Fin.ext h

/-! The bytes that come out of the digits of a group. -/

section Bytes

variable (a b c : Fin 256)

theorem byte_only : byte (a.val / 4 * 4 + a.val % 4 * 16 / 16) = a :=
  byte_eq (by omega)

theorem byte_first : byte (a.val / 4 * 4 + (a.val % 4 * 16 + b.val / 16) / 16) = a :=
  byte_eq (by omega)

theorem byte_last : byte ((a.val % 4 * 16 + b.val / 16) * 16 + b.val % 16 * 4 / 4) = b :=
  byte_eq (by omega)

theorem byte_second :
    byte ((a.val % 4 * 16 + b.val / 16) * 16 + (b.val % 16 * 4 + c.val / 64) / 4) = b :=
  byte_eq (by omega)

theorem byte_third : byte ((b.val % 16 * 4 + c.val / 64) * 64 + c.val % 64) = c :=
  byte_eq (by omega)

end Bytes

/-- A group without padding. -/
theorem decodeChars_group {a b c d : Nat} (ha : a < 64) (hb : b < 64) (hc : c < 64) (hd : d < 64)
    (rest : List Char) :
    decodeChars (digit a :: digit b :: digit c :: digit d :: rest) =
      (decodeChars rest).map fun tail =>
        byte (a * 4 + b / 16) :: byte (b * 16 + c / 4) :: byte (c * 64 + d) :: tail := by
  have hpad := digit_ne_pad hd
  rw [decodeChars]
  · simp only [value_digit ha, value_digit hb, value_digit hc, value_digit hd]
    cases decodeChars rest <;> rfl
  · exact fun _ h _ => hpad h
  · exact fun h _ => hpad h

theorem decodeChars_encodeChars (data : Bytes) : decodeChars (encodeChars data) = some data := by
  induction data using encodeChars.induct with
  | case1 => rfl
  | case2 a =>
      have ha := a.isLt
      rw [encodeChars, decodeChars, value_digit (by omega), value_digit (by omega)]
      exact congrArg (fun x => some [x]) (byte_only a)
  | case3 a b =>
      have ha := a.isLt
      have hb := b.isLt
      rw [encodeChars, decodeChars]
      · rw [value_digit (by omega), value_digit (by omega), value_digit (by omega)]
        exact congrArg₂ (fun x y => some [x, y]) (byte_first a b) (byte_last a b)
      · exact digit_ne_pad (by omega)
  | case4 a b c rest ih =>
      have ha := a.isLt
      have hb := b.isLt
      have hc := c.isLt
      rw [encodeChars, decodeChars_group (by omega) (by omega) (by omega) (by omega), ih,
        byte_first, byte_second, byte_third]
      rfl

theorem b64decode_b64encode (data : Bytes) : b64decode (b64encode data) = some data := by
  rw [b64decode, b64encode, String.toList_ofList, decodeChars_encodeChars]

/-- The length of an encoding, padding included. -/
theorem length_b64encode (data : Bytes) :
    (b64encode data).length = 4 * ((data.length + 2) / 3) := by
  have hchars : (encodeChars data).length = 4 * ((data.length + 2) / 3) := by
    induction data using encodeChars.induct with
    | case1 => rfl
    | case2 a => simp [encodeChars]
    | case3 a b => simp [encodeChars]
    | case4 a b c rest ih =>
        simp only [encodeChars, List.length_cons, ih]
        omega
  rw [b64encode, String.length_ofList, hchars]

/-! ## Forgiving decoding

`atob` of the WHATWG standard: white space is ignored, padding may be left out,
and so are the unused bits. -/

/-- ASCII white space. -/
def isAsciiSpace (c : Char) : Bool :=
  c.toNat ∈ [9, 10, 12, 13, 32]

/-- Without one or two padding characters at the end. -/
def dropPadding (chars : List Char) : List Char :=
  let padding := (chars.reverse.takeWhile fun c => decide (c = '=')).length
  chars.take (chars.length - min padding 2)

/-- Decoding without padding. -/
def decodeUnpadded : List Char → Option Bytes
  | [] => some []
  | [_] => none
  | [a, b] => do
      let x ← value a
      let y ← value b
      return [byte (x * 4 + y / 16)]
  | [a, b, c] => do
      let x ← value a
      let y ← value b
      let z ← value c
      return [byte (x * 4 + y / 16), byte (y * 16 + z / 4)]
  | a :: b :: c :: d :: rest => do
      let x ← value a
      let y ← value b
      let z ← value c
      let w ← value d
      let tail ← decodeUnpadded rest
      return byte (x * 4 + y / 16) :: byte (y * 16 + z / 4) :: byte (z * 64 + w) :: tail

/-- `atob`, with the bytes of the binary string. -/
def atob (text : String) : Option Bytes :=
  let chars := text.toList.filter fun c => !isAsciiSpace c
  decodeUnpadded (if chars.length % 4 = 0 then dropPadding chars else chars)

theorem not_isAsciiSpace_digit {n : Nat} (h : n < 64) : isAsciiSpace (digit n) = false := by
  have hall : ∀ n : Fin 64, isAsciiSpace (digit n) = false := by decide
  exact hall ⟨n, h⟩

theorem length_encodeChars (data : Bytes) :
    (encodeChars data).length = 4 * ((data.length + 2) / 3) := by
  have hlength := length_b64encode data
  rwa [b64encode, String.length_ofList] at hlength

/-- The characters of an encoding are digits and padding. -/
theorem mem_encodeChars (data : Bytes) :
    ∀ c ∈ encodeChars data, c = '=' ∨ ∃ n < 64, c = digit n := by
  induction data using encodeChars.induct with
  | case1 => exact fun c hc => nomatch hc
  | case2 a =>
      have ha := a.isLt
      simp only [encodeChars, List.forall_mem_cons]
      exact ⟨.inr ⟨_, by omega, rfl⟩, .inr ⟨_, by omega, rfl⟩, .inl trivial, .inl trivial,
        fun c hc => nomatch hc⟩
  | case3 a b =>
      have ha := a.isLt
      have hb := b.isLt
      simp only [encodeChars, List.forall_mem_cons]
      exact ⟨.inr ⟨_, by omega, rfl⟩, .inr ⟨_, by omega, rfl⟩, .inr ⟨_, by omega, rfl⟩,
        .inl trivial, fun c hc => nomatch hc⟩
  | case4 a b c rest ih =>
      have ha := a.isLt
      have hb := b.isLt
      have hc := c.isLt
      simp only [encodeChars, List.forall_mem_cons]
      exact ⟨.inr ⟨_, by omega, rfl⟩, .inr ⟨_, by omega, rfl⟩, .inr ⟨_, by omega, rfl⟩,
        .inr ⟨_, by omega, rfl⟩, ih⟩

/-- The digits of an encoding come before its padding. -/
theorem encodeChars_padding (data : Bytes) :
    ∃ digits k, encodeChars data = digits ++ List.replicate k '=' ∧ k ≤ 2 ∧ '=' ∉ digits ∧
      decodeUnpadded digits = some data := by
  induction data using encodeChars.induct with
  | case1 => exact ⟨[], 0, rfl, by omega, List.not_mem_nil, rfl⟩
  | case2 a =>
      have ha := a.isLt
      have hx : a.val / 4 < 64 := by omega
      have hy : a.val % 4 * 16 < 64 := by omega
      refine ⟨[digit (a.val / 4), digit (a.val % 4 * 16)], 2, by simp [encodeChars],
        by omega, ?_, ?_⟩
      · simp [(digit_ne_pad hx).symm, (digit_ne_pad hy).symm]
      · rw [decodeUnpadded, value_digit hx, value_digit hy]
        exact congrArg (fun x => some [x]) (byte_only a)
  | case3 a b =>
      have ha := a.isLt
      have hb := b.isLt
      have hx : a.val / 4 < 64 := by omega
      have hy : a.val % 4 * 16 + b.val / 16 < 64 := by omega
      have hz : b.val % 16 * 4 < 64 := by omega
      refine ⟨[digit (a.val / 4), digit (a.val % 4 * 16 + b.val / 16), digit (b.val % 16 * 4)], 1,
        by simp [encodeChars], by omega, ?_, ?_⟩
      · simp [(digit_ne_pad hx).symm, (digit_ne_pad hy).symm, (digit_ne_pad hz).symm]
      · rw [decodeUnpadded, value_digit hx, value_digit hy, value_digit hz]
        exact congrArg₂ (fun x y => some [x, y]) (byte_first a b) (byte_last a b)
  | case4 a b c rest ih =>
      obtain ⟨digits, k, hchars, hk, hdigits, hdecoded⟩ := ih
      have ha := a.isLt
      have hb := b.isLt
      have hc := c.isLt
      have hx : a.val / 4 < 64 := by omega
      have hy : a.val % 4 * 16 + b.val / 16 < 64 := by omega
      have hz : b.val % 16 * 4 + c.val / 64 < 64 := by omega
      have hw : c.val % 64 < 64 := by omega
      refine ⟨digit (a.val / 4) :: digit (a.val % 4 * 16 + b.val / 16) ::
        digit (b.val % 16 * 4 + c.val / 64) :: digit (c.val % 64) :: digits, k, ?_, hk, ?_, ?_⟩
      · rw [encodeChars, hchars]
        rfl
      · simp [(digit_ne_pad hx).symm, (digit_ne_pad hy).symm, (digit_ne_pad hz).symm,
          (digit_ne_pad hw).symm, hdigits]
      · simp only [decodeUnpadded, value_digit hx, value_digit hy, value_digit hz, value_digit hw,
          hdecoded, bind, Option.bind, byte_first, byte_second, byte_third]
        rfl

theorem dropPadding_append {digits : List Char} {k : Nat} (hk : k ≤ 2) (h : '=' ∉ digits) :
    dropPadding (digits ++ List.replicate k '=') = digits := by
  have hpadding : ((digits ++ List.replicate k '=').reverse.takeWhile
      fun c => decide (c = '=')).length = k := by
    rw [List.reverse_append, List.reverse_replicate, List.takeWhile_append_of_pos (by simp),
      List.length_append, List.length_replicate]
    have hnone : digits.reverse.takeWhile (fun c => decide (c = '=')) = [] := by
      cases hrev : digits.reverse with
      | nil => rfl
      | cons c rest =>
          have hc : c ∈ digits := List.mem_reverse.mp (hrev ▸ List.mem_cons_self)
          have hne : c ≠ '=' := fun heq => h (heq ▸ hc)
          rw [List.takeWhile_cons_of_neg (by simpa using hne)]
    rw [hnone]
    rfl
  rw [dropPadding, hpadding, Nat.min_eq_left hk, List.length_append, List.length_replicate,
    Nat.add_sub_cancel, List.take_left]

/-- **`atob` reads what `btoa` writes.** -/
theorem atob_b64encode (data : Bytes) : atob (b64encode data) = some data := by
  obtain ⟨digits, k, hchars, hk, hdigits, hdecoded⟩ := encodeChars_padding data
  have hspace : (encodeChars data).filter (fun c => !isAsciiSpace c) = encodeChars data := by
    refine List.filter_eq_self.mpr fun c hc => ?_
    rcases mem_encodeChars data c hc with rfl | ⟨n, hn, rfl⟩
    · rfl
    · rw [not_isAsciiSpace_digit hn]
      rfl
  have hlength : (encodeChars data).length % 4 = 0 := by
    rw [length_encodeChars]
    omega
  rw [atob, b64encode, String.toList_ofList, hspace, if_pos hlength, hchars,
    dropPadding_append hk hdigits, hdecoded]

example : b64encode [104, 105] = "aGk=" := by decide

example : b64decode "aGk=" = some [104, 105] := by decide

end Base64
end Lib
end SecureMessenger
