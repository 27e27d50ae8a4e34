import Mathlib.Data.String.Basic
import AgenticDynamics.Library.Python

/-!
# The order of stamps

ISO stamps are compared as strings in several places. Their fields have fixed widths, so the order
of the strings is the order of the instants down to the second. Within a second it is not: a whole
second has no fraction, and `Z` comes after the point that begins one.
-/

namespace Python

/-! ### Strings of fixed width -/

lemma lex_append {a a' b b' : List Char} (h : a.length = a'.length) :
    a ++ b < a' ++ b' ↔ a < a' ∨ a = a' ∧ b < b' := by
  induction a generalizing a' with
  | nil =>
    obtain rfl := List.length_eq_zero_iff.mp h.symm
    simp
  | cons c cs ih =>
    cases a' with
    | nil => cases h
    | cons c' cs' =>
      simp only [List.cons_append, List.cons_lt_cons_iff, ih (Nat.succ.inj h), List.cons.injEq]
      tauto

def digits : ℕ → ℕ → List Char
  | 0, _         => []
  | width + 1, n => digits width (n / 10) ++ [(n % 10).digitChar]

@[simp] lemma length_digits (width n : ℕ) : (digits width n).length = width := by
  induction width generalizing n with
  | zero => rfl
  | succ width ih => simp [digits, ih]

lemma digitChar_lt : ∀ d < 10, ∀ d' < 10, Nat.digitChar d < Nat.digitChar d' ↔ d < d' := by
  decide

lemma digitChar_inj : ∀ d < 10, ∀ d' < 10, Nat.digitChar d = Nat.digitChar d' ↔ d = d' := by
  decide

lemma digits_inj {width n m : ℕ} (hn : n < 10 ^ width) (hm : m < 10 ^ width) :
    digits width n = digits width m ↔ n = m := by
  induction width generalizing n m with
  | zero => simp only [pow_zero, Nat.lt_one_iff] at hn hm; simp [hn, hm]
  | succ width ih =>
    rw [pow_succ] at hn hm
    have hsplit : digits (width + 1) n = digits (width + 1) m ↔
        digits width (n / 10) = digits width (m / 10) ∧
          (n % 10).digitChar = (m % 10).digitChar := by
      simp only [digits]
      constructor
      · intro h
        obtain ⟨hleft, hright⟩ := List.append_inj' h rfl
        exact ⟨hleft, List.singleton_inj.mp hright⟩
      · rintro ⟨hleft, hright⟩
        rw [hleft, hright]
    rw [hsplit, ih (by omega) (by omega), digitChar_inj _ (by omega) _ (by omega)]
    omega

lemma digits_lt {width n m : ℕ} (hn : n < 10 ^ width) (hm : m < 10 ^ width) :
    digits width n < digits width m ↔ n < m := by
  induction width generalizing n m with
  | zero => simp only [pow_zero, Nat.lt_one_iff] at hn hm; simp [hn, hm]
  | succ width ih =>
    rw [pow_succ] at hn hm
    rw [digits, digits, lex_append (by simp), ih (by omega) (by omega),
      digits_inj (by omega) (by omega), List.cons_lt_cons_iff, digitChar_lt _ (by omega) _ (by omega)]
    simp
    omega

lemma digits_zero (width : ℕ) : digits width 0 = List.replicate width '0' := by
  induction width with
  | zero => rfl
  | succ width ih =>
    rw [digits, Nat.zero_div, ih, List.replicate_succ']
    rfl

lemma toList_pushn (s : String) (c : Char) (n : ℕ) :
    (s.pushn c n).toList = s.toList ++ List.replicate n c := by
  rw [String.pushn_eq_repeat_push]
  induction n with
  | zero => simp [Nat.repeat]
  | succ n ih => simp [Nat.repeat, ih, List.replicate_succ']

lemma toList_padded (width n : ℕ) : (padded width n).toList =
    List.replicate (width - (Nat.toDigits 10 n).length) '0' ++ Nat.toDigits 10 n := by
  rw [padded, String.toList_append, toList_pushn, Nat.toList_repr, ← String.length_toList,
    Nat.toList_repr]
  rfl

lemma toList_padded_of_lt (width n : ℕ) (hwidth : 0 < width) (h : n < 10 ^ width) :
    (padded width n).toList = digits width n := by
  induction width, hwidth using Nat.le_induction generalizing n with
  | base =>
    rw [toList_padded, Nat.toDigits_of_lt_base (by simpa using h)]
    simp [digits, Nat.mod_eq_of_lt (by simpa using h : n < 10)]
  | succ width hwidth ih =>
    rw [pow_succ] at h
    rw [toList_padded, digits]
    by_cases hdigit : n < 10
    · rw [Nat.toDigits_of_lt_base hdigit, Nat.div_eq_of_lt hdigit, digits_zero,
        Nat.mod_eq_of_lt hdigit]
      rfl
    · rw [Nat.toDigits_of_base_le (by decide) (by omega), ← ih _ (by omega), toList_padded,
        ← List.append_assoc]
      simp

/-! ### The calendar -/

/-- The first day of a year within its era of 400 years, which begins in March. -/
def yearStart (year : ℕ) : ℕ := 365 * year + year / 4 - year / 100

def yearOfEra (doe : ℕ) : ℕ := (doe - doe / 1460 + doe / 36524 - doe / 146096) / 365

lemma yearOfEra_mono {doe doe' : ℕ} (h : doe ≤ doe') (hlt : doe' < 146097) :
    yearOfEra doe ≤ yearOfEra doe' := by
  unfold yearOfEra
  apply Nat.div_le_div_right
  omega

lemma yearOfEra_yearStart : ∀ year < 400, yearOfEra (yearStart year) = year := by
  decide +kernel

lemma yearOfEra_before : ∀ year < 400, yearOfEra (yearStart (year + 1) - 1) = year := by
  decide +kernel

lemma yearOfEra_lt {doe : ℕ} (h : doe < 146097) : yearOfEra doe < 400 := by
  unfold yearOfEra
  omega

lemma yearStart_le {doe : ℕ} (h : doe < 146097) : yearStart (yearOfEra doe) ≤ doe := by
  by_contra hlt
  obtain ⟨year, hyear⟩ : ∃ year, yearOfEra doe = year + 1 := by
    cases hyear : yearOfEra doe with
    | zero => simp [hyear, yearStart] at hlt
    | succ year => exact ⟨year, rfl⟩
  have hbound := yearOfEra_lt h
  have hbefore := yearOfEra_before year (by omega)
  rw [hyear] at hlt
  have hle : yearOfEra doe ≤ yearOfEra (yearStart (year + 1) - 1) := by
    apply yearOfEra_mono
    · omega
    · unfold yearStart
      omega
  omega

lemma lt_yearStart {doe : ℕ} (h : doe < 146097) : doe ≤ yearStart (yearOfEra doe) + 365 := by
  by_contra hlt
  have hbound := yearOfEra_lt h
  have hstep : yearStart (yearOfEra doe + 1) ≤ doe := by
    unfold yearStart at hlt ⊢
    omega
  by_cases hlast : yearOfEra doe = 399
  · rw [hlast] at hlt
    unfold yearStart at hlt
    omega
  · have hle := yearOfEra_mono hstep h
    have hstart := yearOfEra_yearStart (yearOfEra doe + 1) (by omega)
    omega

/-- Months since the year 0, and the day of the month. -/
def monthOf (date : ℕ × ℕ × ℕ) : ℕ := 12 * date.1 + date.2.1

lemma civil_spec (days : ℕ) : ∃ era yoe doy mp, yoe = yearOfEra ((days + 306) % 146097) ∧
    era = (days + 306) / 146097 ∧ doy + yearStart yoe = (days + 306) % 146097 ∧ doy ≤ 365 ∧
    mp = (5 * doy + 2) / 153 ∧
    civil days = (yoe + era * 400 + (if (if mp < 10 then mp + 3 else mp - 9) ≤ 2 then 1 else 0),
      if mp < 10 then mp + 3 else mp - 9, doy - (153 * mp + 2) / 5 + 1) := by
  have hdoe : (days + 306) % 146097 < 146097 := Nat.mod_lt _ (by decide)
  have hle := yearStart_le hdoe
  have hlt := lt_yearStart hdoe
  exact ⟨_, _, (days + 306) % 146097 - yearStart (yearOfEra ((days + 306) % 146097)), _, rfl, rfl,
    by omega, by omega, rfl, rfl⟩

lemma civil_bounds (days : ℕ) : 1 ≤ (civil days).2.1 ∧ (civil days).2.1 ≤ 12 ∧
    1 ≤ (civil days).2.2 ∧ (civil days).2.2 ≤ 31 := by
  obtain ⟨era, yoe, doy, mp, -, -, -, hdoy, rfl, hcivil⟩ := civil_spec days
  rw [hcivil]
  simp only
  split_ifs <;> omega

lemma civil_lt {days days' : ℕ} (h : days < days') :
    monthOf (civil days) < monthOf (civil days') ∨
      monthOf (civil days) = monthOf (civil days') ∧ (civil days).2.2 < (civil days').2.2 := by
  obtain ⟨era, yoe, doy, mp, hyoe, hera, hdays, hdoy, hmp, hcivil⟩ := civil_spec days
  obtain ⟨era', yoe', doy', mp', hyoe', hera', hdays', hdoy', hmp', hcivil'⟩ := civil_spec days'
  have hyear : yoe < 400 := hyoe ▸ yearOfEra_lt (Nat.mod_lt _ (by decide))
  -- the months from March of the year 0
  have hmonth : monthOf (civil days) = 12 * (yoe + era * 400) + mp + 3 := by
    rw [hcivil, monthOf]
    simp only
    split_ifs <;> omega
  have hmonth' : monthOf (civil days') = 12 * (yoe' + era' * 400) + mp' + 3 := by
    rw [hcivil', monthOf]
    simp only
    split_ifs <;> omega
  have hday : (civil days).2.2 = doy - (153 * mp + 2) / 5 + 1 := by rw [hcivil]
  have hday' : (civil days').2.2 = doy' - (153 * mp' + 2) / 5 + 1 := by rw [hcivil']
  rw [hmonth, hmonth', hday, hday']
  have hmonths : mp < 12 := by omega
  rcases Nat.lt_or_ge era era' with hlt | hge
  · omega
  · have hsame : era = era' := by omega
    have hdoe : (days + 306) % 146097 < (days' + 306) % 146097 := by omega
    have hle : yoe ≤ yoe' := by
      rw [hyoe, hyoe']
      exact yearOfEra_mono hdoe.le (Nat.mod_lt _ (by decide))
    rcases Nat.lt_or_eq_of_le hle with hlt | heq
    · omega
    · rw [← heq] at hdays'
      omega

lemma civil_year_le {days : ℕ} (h : days ≤ 3652058) : (civil days).1 ≤ 9999 := by
  have hlast : civil 3652058 = (9999, 12, 31) := by decide +kernel
  obtain ⟨hmonth, -, -, -⟩ := civil_bounds days
  rcases Nat.lt_or_eq_of_le h with hlt | rfl
  · have hle := civil_lt hlt
    rw [hlast] at hle
    simp only [monthOf] at hle
    omega
  · rw [hlast]

/-! ### Stamps -/

def fractionText (micros : ℕ) : List Char :=
  if micros = 0 then ['Z'] else '.' :: (digits 6 micros ++ ['Z'])

lemma fractionText_lt {micros micros' : ℕ} (h : micros < 1000000) (h' : micros' < 1000000) :
    fractionText micros < fractionText micros' ↔
      micros ≠ 0 ∧ (micros' = 0 ∨ micros < micros') := by
  unfold fractionText
  by_cases hwhole : micros = 0
  · by_cases hwhole' : micros' = 0
    · simp [hwhole, hwhole']
    · have hchars : ¬ 'Z' < '.' := by decide
      simp [hwhole, hwhole', List.cons_lt_cons_iff, hchars]
  · by_cases hwhole' : micros' = 0
    · have hchars : '.' < 'Z' := by decide
      simp [hwhole, hwhole', List.cons_lt_cons_iff, hchars]
    · have hdigits : digits 6 micros < digits 6 micros' ↔ micros < micros' :=
        digits_lt (by omega) (by omega)
      simp [hwhole, hwhole', lex_append, hdigits]

lemma lex_field {width a a' : ℕ} {c : Char} {text text' : List Char} (ha : a < 10 ^ width)
    (ha' : a' < 10 ^ width) : digits width a ++ c :: text < digits width a' ++ c :: text' ↔
      a < a' ∨ a = a' ∧ text < text' := by
  rw [lex_append (by simp), digits_lt ha ha', digits_inj ha ha', List.cons_lt_cons_iff]
  simp

lemma toList_isoZ {t : ℕ} (h : t ≤ maxInstant) : (isoZ t).toList =
    digits 4 (civil (t / 86400000000)).1 ++ '-' ::
      (digits 2 (civil (t / 86400000000)).2.1 ++ '-' ::
        (digits 2 (civil (t / 86400000000)).2.2 ++ 'T' ::
          (digits 2 (t / 1000000 % 86400 / 3600) ++ ':' ::
            (digits 2 (t / 1000000 % 86400 / 60 % 60) ++ ':' ::
              (digits 2 (t / 1000000 % 86400 % 60) ++ fractionText (t % 1000000)))))) := by
  have hlast : t ≤ 315537897599999999 := h
  have hyear := civil_year_le (show t / 86400000000 ≤ 3652058 by omega)
  obtain ⟨-, hmonth, -, hday⟩ := civil_bounds (t / 86400000000)
  have hfraction : (if t % 1000000 = 0 then "" else "." ++ padded 6 (t % 1000000)).toList ++
      "Z".toList = fractionText (t % 1000000) := by
    unfold fractionText
    split
    · rfl
    · rw [String.toList_append, toList_padded_of_lt 6 _ (by decide) (by omega)]
      rfl
  rw [isoZ]
  simp only [String.toList_append]
  rw [List.append_assoc _ _ "Z".toList, hfraction, toList_padded_of_lt 4 (civil (t / 86400000000)).1 (by decide) (by omega),
    toList_padded_of_lt 2 (civil (t / 86400000000)).2.1 (by decide) (by omega),
    toList_padded_of_lt 2 (civil (t / 86400000000)).2.2 (by decide) (by omega),
    toList_padded_of_lt 2 (t / 1000000 % 86400 / 3600) (by decide) (by omega),
    toList_padded_of_lt 2 (t / 1000000 % 86400 / 60 % 60) (by decide) (by omega),
    toList_padded_of_lt 2 (t / 1000000 % 86400 % 60) (by decide) (by omega)]
  simp

lemma date_lt (d d' : ℕ) (p : Prop) :
    ((civil d).1 < (civil d').1 ∨ (civil d).1 = (civil d').1 ∧
      ((civil d).2.1 < (civil d').2.1 ∨ (civil d).2.1 = (civil d').2.1 ∧
        ((civil d).2.2 < (civil d').2.2 ∨ (civil d).2.2 = (civil d').2.2 ∧ p))) ↔
      d < d' ∨ d = d' ∧ p := by
  obtain ⟨hmonth₁, hmonth, hday₁, hday⟩ := civil_bounds d
  obtain ⟨hmonth₁', hmonth', hday₁', hday'⟩ := civil_bounds d'
  have hlater := @civil_lt d d'
  have hearlier := @civil_lt d' d
  unfold monthOf at hlater hearlier
  rcases Nat.lt_trichotomy d d' with hlt | heq | hgt
  · have hdate := hlater hlt
    simp only [hlt, true_or, iff_true]
    omega
  · simp [heq]
  · have hdate := hearlier hgt
    have hnot : ¬ (d < d' ∨ d = d' ∧ p) := by omega
    simp only [hnot, iff_false]
    omega

lemma clock_lt (s s' : ℕ) (p : Prop) :
    (s / 3600 < s' / 3600 ∨ s / 3600 = s' / 3600 ∧
      (s / 60 % 60 < s' / 60 % 60 ∨ s / 60 % 60 = s' / 60 % 60 ∧
        (s % 60 < s' % 60 ∨ s % 60 = s' % 60 ∧ p))) ↔ s < s' ∨ s = s' ∧ p := by
  by_cases hp : p
  · simp only [hp, and_true]
    omega
  · simp only [hp, and_false, or_false]
    omega

lemma isoZ_lt {t t' : ℕ} (h : t ≤ maxInstant) (h' : t' ≤ maxInstant) : isoZ t < isoZ t' ↔
    t / 1000000 < t' / 1000000 ∨ t / 1000000 = t' / 1000000 ∧
      (t % 1000000 ≠ 0 ∧ (t' % 1000000 = 0 ∨ t % 1000000 < t' % 1000000)) := by
  have hlast : t ≤ 315537897599999999 := h
  have hlast' : t' ≤ 315537897599999999 := h'
  have hyear := civil_year_le (show t / 86400000000 ≤ 3652058 by omega)
  have hyear' := civil_year_le (show t' / 86400000000 ≤ 3652058 by omega)
  obtain ⟨-, hmonth, -, hday⟩ := civil_bounds (t / 86400000000)
  obtain ⟨-, hmonth', -, hday'⟩ := civil_bounds (t' / 86400000000)
  rw [String.lt_iff_toList_lt, toList_isoZ h, toList_isoZ h',
    lex_field (by omega) (by omega), lex_field (by omega) (by omega),
    lex_field (by omega) (by omega), lex_field (by omega) (by omega),
    lex_field (by omega) (by omega), lex_append (by simp), digits_lt (by omega) (by omega),
    digits_inj (by omega) (by omega), fractionText_lt (by omega) (by omega), date_lt, clock_lt]
  have hday_of (t : ℕ) : t / 86400000000 = t / 1000000 / 86400 := by omega
  rw [hday_of, hday_of]
  generalize (t % 1000000 ≠ 0 ∧ (t' % 1000000 = 0 ∨ t % 1000000 < t' % 1000000)) = fraction
  by_cases hfraction : fraction
  · simp only [hfraction, and_true]
    omega
  · simp only [hfraction, and_false, or_false]
    omega

end Python
