import Mathlib.Algebra.BigOperators.Group.Finset.Basic
import Mathlib.Algebra.Order.BigOperators.Group.Finset
import Mathlib.Data.List.Lex
import Mathlib.Tactic.Ring

/-!
# UTC timestamps and their texts

Points of the Gregorian calendar with four-digit years, the texts which ISO 8601
gives them (no fraction, three digits or six digits, and a `Z`), and how the
order of the texts relates to the order of the instants.  Texts are lists of
character codes.
-/

namespace SecureMessenger
namespace Lib
namespace Iso8601

section Digits

/-- The last `width` decimal digits of a number. -/
def digits : Nat → Nat → List Nat
  | 0, _ => []
  | width + 1, n => digits width (n / 10) ++ [48 + n % 10]

@[simp] theorem length_digits (width n : Nat) : (digits width n).length = width := by
  induction width generalizing n with
  | zero => rfl
  | succ width ih => simp [digits, ih]

theorem mem_digits {width n c : Nat} (h : c ∈ digits width n) : 48 ≤ c ∧ c < 58 := by
  induction width generalizing n with
  | zero => simp [digits] at h
  | succ width ih =>
      rcases List.mem_append.mp h with h | h
      · exact ih h
      · have hc := List.mem_singleton.mp h
        omega

/-- Texts that start with equally long parts are compared by these first. -/
theorem append_lt_append_iff {xs xs' ys ys' : List Nat} (h : xs.length = xs'.length) :
    xs ++ ys < xs' ++ ys' ↔ xs < xs' ∨ xs = xs' ∧ ys < ys' := by
  induction xs generalizing xs' with
  | nil =>
      obtain rfl := List.length_eq_zero_iff.mp h.symm
      simp
  | cons x xs ih =>
      cases xs' with
      | nil => simp at h
      | cons x' xs' =>
          have ih := ih (by simpa using h)
          simp only [List.cons_append, List.cons_lt_cons_iff, ih, List.cons.injEq]
          constructor
          · rintro (hlt | ⟨rfl, hlt | ⟨rfl, hlt⟩⟩)
            · exact Or.inl (Or.inl hlt)
            · exact Or.inl (Or.inr ⟨rfl, hlt⟩)
            · exact Or.inr ⟨⟨rfl, rfl⟩, hlt⟩
          · rintro ((hlt | ⟨rfl, hlt⟩) | ⟨⟨rfl, rfl⟩, hlt⟩)
            · exact Or.inl hlt
            · exact Or.inr ⟨rfl, Or.inl hlt⟩
            · exact Or.inr ⟨rfl, Or.inr ⟨rfl, hlt⟩⟩

theorem digits_eq_iff {width n m : Nat} (hn : n < 10 ^ width) (hm : m < 10 ^ width) :
    digits width n = digits width m ↔ n = m := by
  induction width generalizing n m with
  | zero =>
      have hpow : 10 ^ 0 = 1 := rfl
      simp only [digits, true_iff]
      omega
  | succ width ih =>
      have hpow : 10 ^ (width + 1) = 10 ^ width * 10 := pow_succ 10 width
      have ih := @ih (n / 10) (m / 10) (by omega) (by omega)
      constructor
      · intro h
        obtain ⟨hinit, hlast⟩ := List.append_inj h (by simp)
        have hdiv := ih.mp hinit
        have hmod := List.singleton_inj.mp hlast
        omega
      · rintro rfl
        rfl

theorem digits_lt_iff {width n m : Nat} (hn : n < 10 ^ width) (hm : m < 10 ^ width) :
    digits width n < digits width m ↔ n < m := by
  induction width generalizing n m with
  | zero =>
      have hpow : 10 ^ 0 = 1 := rfl
      constructor
      · intro h
        exact absurd h (List.not_lt_nil _)
      · omega
  | succ width ih =>
      have hpow : 10 ^ (width + 1) = 10 ^ width * 10 := pow_succ 10 width
      have hn' : n / 10 < 10 ^ width := by omega
      have hm' : m / 10 < 10 ^ width := by omega
      rw [digits, digits, append_lt_append_iff (by simp), ih hn' hm', digits_eq_iff hn' hm',
        List.cons_lt_cons_iff]
      simp only [List.not_lt_nil, and_false, or_false]
      omega

/-- Texts that start with a number of the same width. -/
theorem digits_append_lt_iff {width n m : Nat} (hn : n < 10 ^ width) (hm : m < 10 ^ width)
    (xs ys : List Nat) :
    digits width n ++ xs < digits width m ++ ys ↔ n < m ∨ n = m ∧ xs < ys := by
  rw [append_lt_append_iff (by simp), digits_lt_iff hn hm, digits_eq_iff hn hm]

/-- Six digits are three digits and the three that follow. -/
theorem digits_six (n : Nat) : digits 6 n = digits 3 (n / 1000) ++ digits 3 (n % 1000) := by
  have h1 : n / 10 / 10 / 10 / 10 / 10 % 10 = n / 1000 / 10 / 10 % 10 := by omega
  have h2 : n / 10 / 10 / 10 / 10 % 10 = n / 1000 / 10 % 10 := by omega
  have h3 : n / 10 / 10 / 10 % 10 = n / 1000 % 10 := by omega
  have h4 : n / 10 / 10 % 10 = n % 1000 / 10 / 10 % 10 := by omega
  have h5 : n / 10 % 10 = n % 1000 / 10 % 10 := by omega
  have h6 : n % 10 = n % 1000 % 10 := by omega
  simp only [digits, List.nil_append, List.cons_append, h1, h2, h3, h4, h5, h6]

end Digits

section Calendar

def isLeap (year : Nat) : Bool :=
  decide (year % 4 = 0 ∧ (year % 100 ≠ 0 ∨ year % 400 = 0))

/-- The number of days of a month; there is no month 0. -/
def daysInMonth (year : Nat) : Nat → Nat
  | 0 => 0
  | 2 => if isLeap year then 29 else 28
  | 4 => 30
  | 6 => 30
  | 9 => 30
  | 11 => 30
  | _ => 31

def daysInYear (year : Nat) : Nat :=
  if isLeap year then 366 else 365

def daysBeforeMonth (year month : Nat) : Nat :=
  ∑ k ∈ Finset.range month, daysInMonth year k

def daysBeforeYear (year : Nat) : Nat :=
  ∑ k ∈ Finset.range year, daysInYear k

/-- The months of a year make up the year. -/
theorem daysBeforeMonth_end (year : Nat) : daysBeforeMonth year 13 = daysInYear year := by
  cases h : isLeap year <;>
    simp [daysBeforeMonth, Finset.sum_range_succ, daysInMonth, daysInYear, h]

theorem daysBeforeMonth_mono {year m m' : Nat} (h : m ≤ m') :
    daysBeforeMonth year m ≤ daysBeforeMonth year m' :=
  Finset.sum_le_sum_of_subset (Finset.range_mono h)

theorem daysBeforeYear_mono {y y' : Nat} (h : y ≤ y') : daysBeforeYear y ≤ daysBeforeYear y' :=
  Finset.sum_le_sum_of_subset (Finset.range_mono h)

/-- A second of the calendar, the days counted in the Gregorian way. -/
structure CivilTime where
  year : Nat
  month : Nat
  day : Nat
  hour : Nat
  minute : Nat
  second : Nat
  year_lt : year < 10000
  month_pos : 1 ≤ month
  month_le : month ≤ 12
  day_pos : 1 ≤ day
  day_le : day ≤ daysInMonth year month
  hour_lt : hour < 24
  minute_lt : minute < 60
  second_lt : second < 60

namespace CivilTime

/-- Days since the first day of the year 0. -/
def dayNumber (t : CivilTime) : Nat :=
  daysBeforeYear t.year + daysBeforeMonth t.year t.month + (t.day - 1)

/-- Seconds since the beginning of the year 0. -/
def secondNumber (t : CivilTime) : Nat :=
  ((t.dayNumber * 24 + t.hour) * 60 + t.minute) * 60 + t.second

/-- `YYYY-MM-DDTHH:MM:SS`. -/
def codes (t : CivilTime) : List Nat :=
  digits 4 t.year ++ 45 :: (digits 2 t.month ++ 45 :: (digits 2 t.day ++ 84 ::
    (digits 2 t.hour ++ 58 :: (digits 2 t.minute ++ 58 :: digits 2 t.second))))

variable {s t : CivilTime}

theorem length_codes (t : CivilTime) : t.codes.length = 19 := by
  simp [codes]

theorem day_lt (t : CivilTime) : t.day < 10 ^ 2 := by
  have hle : daysInMonth t.year t.month ≤ 31 := by
    unfold daysInMonth
    split
    case h_2 => split <;> omega
    all_goals omega
  have hday := t.day_le
  omega

/-- The order of the texts goes through the fields. -/
theorem codes_lt_iff :
    s.codes < t.codes ↔
      s.year < t.year ∨ s.year = t.year ∧ (s.month < t.month ∨ s.month = t.month ∧
        (s.day < t.day ∨ s.day = t.day ∧ (s.hour < t.hour ∨ s.hour = t.hour ∧
          (s.minute < t.minute ∨ s.minute = t.minute ∧ s.second < t.second)))) := by
  have two {n : Nat} (h : n < 60) : n < 10 ^ 2 := by omega
  have month (u : CivilTime) : u.month < 10 ^ 2 := two (by have := u.month_le; omega)
  have hour (u : CivilTime) : u.hour < 10 ^ 2 := two (by have := u.hour_lt; omega)
  rw [codes, codes, digits_append_lt_iff s.year_lt t.year_lt, List.cons_lt_cons_iff,
    digits_append_lt_iff (month s) (month t), List.cons_lt_cons_iff,
    digits_append_lt_iff s.day_lt t.day_lt, List.cons_lt_cons_iff,
    digits_append_lt_iff (hour s) (hour t), List.cons_lt_cons_iff,
    digits_append_lt_iff (two s.minute_lt) (two t.minute_lt), List.cons_lt_cons_iff,
    digits_lt_iff (two s.second_lt) (two t.second_lt)]
  simp only [lt_self_iff_false, false_or, true_and]

/-- An earlier year has the earlier days. -/
theorem dayNumber_lt_of_year (h : s.year < t.year) : s.dayNumber < t.dayNumber := by
  have hday : daysBeforeMonth s.year s.month + (s.day - 1) < daysInYear s.year := by
    have hend : daysBeforeMonth s.year (s.month + 1) ≤ daysBeforeMonth s.year 13 :=
      daysBeforeMonth_mono (by have := s.month_le; omega)
    have hsucc : daysBeforeMonth s.year (s.month + 1) =
        daysBeforeMonth s.year s.month + daysInMonth s.year s.month :=
      Finset.sum_range_succ _ _
    have hpos := s.day_pos
    have hle := s.day_le
    rw [daysBeforeMonth_end] at hend
    omega
  have hnext : daysBeforeYear (s.year + 1) ≤ daysBeforeYear t.year := daysBeforeYear_mono h
  have hsucc : daysBeforeYear (s.year + 1) = daysBeforeYear s.year + daysInYear s.year :=
    Finset.sum_range_succ _ _
  unfold dayNumber
  omega

/-- In one year, an earlier month has the earlier days. -/
theorem dayNumber_lt_of_month (hy : s.year = t.year) (h : s.month < t.month) :
    s.dayNumber < t.dayNumber := by
  have hnext : daysBeforeMonth t.year (s.month + 1) ≤ daysBeforeMonth t.year t.month :=
    daysBeforeMonth_mono h
  have hsucc : daysBeforeMonth t.year (s.month + 1) =
      daysBeforeMonth t.year s.month + daysInMonth t.year s.month :=
    Finset.sum_range_succ _ _
  have hpos := s.day_pos
  have hle := s.day_le
  rw [hy] at hle
  unfold dayNumber
  rw [hy]
  omega

theorem secondNumber_lt_of_codes (h : s.codes < t.codes) : s.secondNumber < t.secondNumber := by
  have hs := s.hour_lt
  have hs' := s.minute_lt
  have hs'' := s.second_lt
  have later (hd : s.dayNumber < t.dayNumber) : s.secondNumber < t.secondNumber := by
    unfold secondNumber
    omega
  rcases codes_lt_iff.mp h with hy | ⟨hy, hm | ⟨hm, hd⟩⟩
  · exact later (dayNumber_lt_of_year hy)
  · exact later (dayNumber_lt_of_month hy hm)
  · have hdp := s.day_pos
    have hbase : daysBeforeYear s.year + daysBeforeMonth s.year s.month =
        daysBeforeYear t.year + daysBeforeMonth t.year t.month := by
      rw [hy, hm]
    unfold secondNumber dayNumber
    omega

theorem secondNumber_eq_of_codes (h : s.codes = t.codes) : s.secondNumber = t.secondNumber := by
  have hfields : s.year = t.year ∧ s.month = t.month ∧ s.day = t.day ∧ s.hour = t.hour ∧
      s.minute = t.minute ∧ s.second = t.second := by
    have hst : ¬ s.codes < t.codes := by rw [h]; exact lt_irrefl _
    have hts : ¬ t.codes < s.codes := by rw [h]; exact lt_irrefl _
    rw [codes_lt_iff] at hst hts
    omega
  obtain ⟨hy, hm, hd, hh, hmi, hse⟩ := hfields
  unfold secondNumber dayNumber
  rw [hy, hm, hd, hh, hmi, hse]

/-- **Texts of seconds are in the order of time.** -/
theorem codes_lt_iff_secondNumber : s.codes < t.codes ↔ s.secondNumber < t.secondNumber := by
  constructor
  · exact secondNumber_lt_of_codes
  · intro h
    rcases lt_trichotomy s.codes t.codes with hlt | heq | hgt
    · exact hlt
    · have := secondNumber_eq_of_codes heq
      omega
    · have := secondNumber_lt_of_codes hgt
      omega

theorem codes_eq_iff_secondNumber : s.codes = t.codes ↔ s.secondNumber = t.secondNumber := by
  constructor
  · exact secondNumber_eq_of_codes
  · intro h
    rcases lt_trichotomy s.codes t.codes with hlt | heq | hgt
    · have := secondNumber_lt_of_codes hlt
      omega
    · exact heq
    · have := secondNumber_lt_of_codes hgt
      omega

end CivilTime

end Calendar

section Fractions

/-- The fraction of a second as it is written: not at all, in milliseconds or in
microseconds. -/
inductive Fraction
  | omitted
  | millis (n : Nat) (h : n < 1000)
  | micros (n : Nat) (h : n < 1000000)

namespace Fraction

/-- In microseconds. -/
def value : Fraction → Nat
  | omitted => 0
  | millis n _ => n * 1000
  | micros n _ => n

def codes : Fraction → List Nat
  | omitted => []
  | millis n _ => 46 :: digits 3 n
  | micros n _ => 46 :: digits 6 n

theorem value_lt (f : Fraction) : f.value < 1000000 := by
  cases f with
  | omitted => simp [value]
  | millis n h => simp only [value]; omega
  | micros n h => exact h

theorem mem_codes {f : Fraction} {c : Nat} (h : c ∈ f.codes) : c < 90 := by
  cases f with
  | omitted => simp [codes] at h
  | millis n _ =>
      rcases List.mem_cons.mp h with rfl | h
      · decide
      · have := mem_digits h
        omega
  | micros n _ =>
      rcases List.mem_cons.mp h with rfl | h
      · decide
      · have := mem_digits h
        omega

theorem value_eq_of_codes {f g : Fraction} (h : f.codes = g.codes) : f.value = g.value := by
  have hlen := congrArg List.length h
  cases f with
  | omitted =>
      cases g with
      | omitted => rfl
      | millis m hm => simp [codes] at hlen
      | micros m hm => simp [codes] at hlen
  | millis n hn =>
      cases g with
      | omitted => simp [codes] at hlen
      | millis m hm => simp only [value, (digits_eq_iff hn hm).mp (List.cons.inj h).2]
      | micros m hm => simp [codes] at hlen
  | micros n hn =>
      cases g with
      | omitted => simp [codes] at hlen
      | millis m hm => simp [codes] at hlen
      | micros m hm => exact (digits_eq_iff hn hm).mp (List.cons.inj h).2

/-- Unless one fraction is cut off from the other, a larger one is the larger
text. -/
theorem codes_lt {f g : Fraction} (h : f.value < g.value) (hp : ¬ f.codes <+: g.codes) :
    f.codes ++ [90] < g.codes ++ [90] := by
  have hthree {n : Nat} (hn : n < 1000) : n < 10 ^ 3 := hn
  have hsix {n : Nat} (hn : n < 1000000) : n < 10 ^ 6 := hn
  cases f with
  | omitted => exact absurd (List.nil_prefix) hp
  | millis n hn =>
      cases g with
      | omitted => simp [value] at h
      | millis m hm =>
          simp only [value] at h
          simp only [codes, List.cons_append, List.cons_lt_cons_iff, lt_self_iff_false, false_or,
            true_and, digits_append_lt_iff (hthree hn) (hthree hm)]
          omega
      | micros m hm =>
          simp only [value] at h
          have hne : n ≠ m / 1000 := by
            rintro rfl
            exact hp ⟨digits 3 (m % 1000), by simp [codes, digits_six]⟩
          have hm' : m / 1000 < 1000 := by omega
          simp only [codes, List.cons_append, List.cons_lt_cons_iff, lt_self_iff_false, false_or,
            true_and, digits_six, List.append_assoc, digits_append_lt_iff (hthree hn) (hthree hm')]
          omega
  | micros n hn =>
      have hn' : n / 1000 < 1000 := by omega
      cases g with
      | omitted => simp [value] at h
      | millis m hm =>
          simp only [value] at h
          simp only [codes, List.cons_append, List.cons_lt_cons_iff, lt_self_iff_false, false_or,
            true_and, digits_six, List.append_assoc, digits_append_lt_iff (hthree hn') (hthree hm)]
          omega
      | micros m hm =>
          simp only [value] at h
          simp only [codes, List.cons_append, List.cons_lt_cons_iff, lt_self_iff_false, false_or,
            true_and, digits_append_lt_iff (hsix hn) (hsix hm)]
          omega

end Fraction

end Fractions

/-- A UTC timestamp with a way to write its fraction. -/
structure UtcTime where
  civil : CivilTime
  fraction : Fraction

namespace UtcTime

variable {s t : UtcTime}

/-- Microseconds since the beginning of the year 0. -/
def instant (t : UtcTime) : Nat :=
  t.civil.secondNumber * 1000000 + t.fraction.value

/-- The text up to the `Z`. -/
def stem (t : UtcTime) : List Nat :=
  t.civil.codes ++ t.fraction.codes

def codes (t : UtcTime) : List Nat :=
  t.stem ++ [90]

/-- The text of `s`, without its `Z`, begins the text of `t`, and `t` is later. -/
def Truncates (s t : UtcTime) : Prop :=
  s.stem <+: t.stem ∧ s.instant < t.instant

/-- The two timestamps differ in the fraction only. -/
theorem Truncates.fraction (h : s.Truncates t) :
    s.civil.codes = t.civil.codes ∧ s.fraction.codes <+: t.fraction.codes ∧
      s.fraction.value < t.fraction.value := by
  obtain ⟨⟨rest, hrest⟩, hlt⟩ := h
  rw [stem, stem, List.append_assoc] at hrest
  obtain ⟨hcivil, hfraction⟩ := List.append_inj hrest
    (by rw [CivilTime.length_codes, CivilTime.length_codes])
  have hsec := CivilTime.secondNumber_eq_of_codes hcivil
  unfold instant at hlt
  exact ⟨hcivil, ⟨rest, hfraction⟩, by omega⟩

/-- A text that is continued by a fraction is the larger one. -/
theorem Truncates.codes_lt (h : s.Truncates t) : t.codes < s.codes := by
  obtain ⟨hcivil, ⟨rest, hrest⟩, hlt⟩ := h.fraction
  cases rest with
  | nil =>
      have hvalue := Fraction.value_eq_of_codes (by simpa using hrest)
      omega
  | cons c rest =>
      have hmem : c ∈ t.fraction.codes := by
        rw [← hrest]
        simp
      have hc := Fraction.mem_codes hmem
      rw [codes, codes, stem, stem, hcivil, ← hrest, List.append_assoc, List.append_assoc,
        List.append_assoc, append_lt_append_iff rfl, append_lt_append_iff rfl]
      exact Or.inr ⟨rfl, Or.inr ⟨rfl, List.cons_lt_cons_iff.mpr (Or.inl hc)⟩⟩

/-- The text of a timestamp determines the instant. -/
theorem instant_eq_of_codes (h : s.codes = t.codes) : s.instant = t.instant := by
  have hstem : s.stem = t.stem := List.append_cancel_right h
  obtain ⟨hcivil, hfraction⟩ := List.append_inj hstem
    (by rw [CivilTime.length_codes, CivilTime.length_codes])
  rw [instant, instant, CivilTime.secondNumber_eq_of_codes hcivil,
    Fraction.value_eq_of_codes hfraction]

/-- Whether one text is cut off from another is a matter of the texts. -/
theorem Truncates.congr {s' t' : UtcTime} (h : s.Truncates t) (hs : s.codes = s'.codes)
    (ht : t.codes = t'.codes) : s'.Truncates t' := by
  have hstem : s.stem = s'.stem := List.append_cancel_right hs
  have hstem' : t.stem = t'.stem := List.append_cancel_right ht
  rw [Truncates, ← hstem, ← hstem', ← instant_eq_of_codes hs, ← instant_eq_of_codes ht]
  exact h

/-- **When texts are in the order of time.** -/
theorem codes_lt_iff (h : s.instant < t.instant) : s.codes < t.codes ↔ ¬ s.Truncates t := by
  constructor
  · intro hlt htr
    exact absurd hlt (lt_asymm htr.codes_lt)
  · intro hnot
    have hcut : ¬ s.stem <+: t.stem := fun hp => hnot ⟨hp, h⟩
    have hs := s.fraction.value_lt
    have ht := t.fraction.value_lt
    rw [codes, codes, stem, stem, List.append_assoc, List.append_assoc,
      append_lt_append_iff (by rw [CivilTime.length_codes, CivilTime.length_codes]),
      CivilTime.codes_lt_iff_secondNumber, CivilTime.codes_eq_iff_secondNumber]
    unfold instant at h
    rcases Nat.lt_or_ge s.civil.secondNumber t.civil.secondNumber with hlt | hge
    · exact Or.inl hlt
    · have heq : s.civil.secondNumber = t.civil.secondNumber := by omega
      refine Or.inr ⟨heq, Fraction.codes_lt (by omega) ?_⟩
      rintro ⟨rest, hrest⟩
      refine hcut ⟨rest, ?_⟩
      rw [stem, stem, List.append_assoc, hrest, CivilTime.codes_eq_iff_secondNumber.mpr heq]

/-- The text as a string. -/
def text (t : UtcTime) : String :=
  String.ofList (t.codes.map Char.ofNat)

theorem code_lt (t : UtcTime) {c : Nat} (h : c ∈ t.codes) : c < 91 := by
  have small {width n : Nat} (h : c ∈ digits width n) : c < 91 := by
    have := mem_digits h
    omega
  simp only [codes, stem, CivilTime.codes, List.mem_append, List.mem_cons, List.not_mem_nil,
    or_false] at h
  rcases h with ((h | rfl | h | rfl | h | rfl | h | rfl | h | rfl | h) | h) | rfl
  all_goals first
    | exact small h
    | exact (Fraction.mem_codes h).trans (by omega)
    | omega

/-- The characters of the text have the codes. -/
theorem text_codes (t : UtcTime) : t.text.toList.map Char.toNat = t.codes := by
  have hchar (c : Nat) (h : c ∈ t.codes) : (Char.ofNat c).toNat = c := by
    have hc := t.code_lt h
    have hvalid : c.isValidChar := Or.inl (by omega)
    rw [Char.ofNat, dif_pos hvalid]
    rfl
  rw [text, String.toList_ofList, List.map_map]
  exact (List.map_congr_left hchar).trans (List.map_id _)

end UtcTime

end Iso8601
end Lib
end SecureMessenger
