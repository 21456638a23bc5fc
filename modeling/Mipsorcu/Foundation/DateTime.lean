import Mipsorcu.Foundation.Rfc3339
import Mathlib.Algebra.Order.Ring.Nat
import Mathlib.Data.List.DropRight
import Mathlib.Data.Nat.Find
import Mathlib.Tactic.IntervalCases
import Mathlib.Tactic.Ring

/-!
# Dates, times and their texts

The day count of the Gregorian calendar is inverted: `civilFromDays` gives back the date that was
counted. A `DateTime` is an instant in UTC with nanoseconds, in the years a four-digit text can
write. Taking a printed text apart gives the numbers it was printed from
(`DateTime.splitTimestamp_chars`), and the instant again (`DateTime.ofFields?_fields`), as long as
the fraction has no more digits than nanoseconds need.
-/

namespace Mipsorcu

/-! ### The calendar -/

/-- The days before the year that starts in March of `year`. -/
def marchDays (year : ℕ) : ℕ :=
  365 * year + year / 4 - year / 100 + year / 400

theorem le_marchDays (year : ℕ) : 365 * year ≤ marchDays year := by
  have : year / 100 ≤ year / 4 := Nat.div_le_div_left (by decide) (by decide)
  unfold marchDays
  omega

theorem marchDays_succ (year : ℕ) :
    marchDays (year + 1) = marchDays year + if isLeapYear (year + 1) then 366 else 365 := by
  have hle : year / 100 ≤ year := Nat.div_le_self _ _
  simp only [marchDays, isLeapYear, Nat.succ_div, Nat.dvd_iff_mod_eq_zero]
  generalize year / 4 = a, year / 100 = b, year / 400 = c at hle ⊢
  by_cases h4 : (year + 1) % 4 = 0
  · by_cases h100 : (year + 1) % 100 = 0
    · by_cases h400 : (year + 1) % 400 = 0
      · simp [h4, h100, h400]
        omega
      · simp [h4, h100, h400]
        omega
    · have h400 : (year + 1) % 400 ≠ 0 := by omega
      simp [h4, h100, h400]
      omega
  · have h100 : (year + 1) % 100 ≠ 0 := by omega
    have h400 : (year + 1) % 400 ≠ 0 := by omega
    simp [h4, h100, h400]
    omega

theorem isLeapYear_add_400 (year : ℕ) : isLeapYear (year + 400) = isLeapYear year := by
  unfold isLeapYear
  rw [show (year + 400) % 4 = year % 4 by omega, show (year + 400) % 100 = year % 100 by omega,
    Nat.add_mod_right]

theorem daysFromCivil_eq (year month day : ℕ) :
    daysFromCivil year month day =
      if month ≤ 2 then marchDays (year + 399) + (153 * (month + 9) + 2) / 5 + day
      else marchDays (year + 400) + (153 * (month - 3) + 2) / 5 + day := by
  unfold daysFromCivil marchDays
  split <;> rfl

theorem le_daysFromCivil (year month day : ℕ) : 365 * year ≤ daysFromCivil year month day := by
  have h399 := le_marchDays (year + 399)
  have h400 := le_marchDays (year + 400)
  rw [daysFromCivil_eq]
  split <;> omega

theorem daysFromCivil_day (year month day : ℕ) :
    daysFromCivil year month day + 1 = daysFromCivil year month 1 + day := by
  rw [daysFromCivil_eq, daysFromCivil_eq]
  split <;> omega

theorem daysFromCivil_next_month (year : ℕ) {month : ℕ} (h1 : 1 ≤ month) (h12 : month < 12) :
    daysFromCivil year (month + 1) 1 = daysFromCivil year month 1 + daysInMonth year month := by
  -- Only February touches the change of the March year; every other step is a numeral.
  have hfeb := marchDays_succ (year + 399)
  rw [show year + 399 + 1 = year + 400 from rfl, isLeapYear_add_400] at hfeb
  rw [daysFromCivil_eq, daysFromCivil_eq, daysInMonth]
  generalize marchDays (year + 399) = a, marchDays (year + 400) = b at hfeb ⊢
  interval_cases month <;> simp
  rw [hfeb]
  split <;> omega

theorem daysFromCivil_next_year (year : ℕ) :
    daysFromCivil (year + 1) 1 1 = daysFromCivil year 12 1 + 31 := by
  rw [daysFromCivil_eq, daysFromCivil_eq]
  simp

/-- Within a year, the days of a month come before the first day of a later one. -/
theorem daysFromCivil_month_lt (year : ℕ) {month month' : ℕ} (h1 : 1 ≤ month)
    (hlt : month < month') (h12 : month' ≤ 12) :
    daysFromCivil year month 1 + daysInMonth year month ≤ daysFromCivil year month' 1 := by
  induction month', hlt using Nat.le_induction with
  | base => exact (daysFromCivil_next_month year h1 (by omega)).ge
  | succ m hm ih =>
    have hnext := daysFromCivil_next_month year (show 1 ≤ m by omega) (by omega)
    have := ih (by omega)
    omega

/-- The days of a year come before the first day of a later one. -/
theorem daysFromCivil_year_lt {year year' : ℕ} (hlt : year < year') :
    daysFromCivil year 12 1 + 31 ≤ daysFromCivil year' 1 1 := by
  induction year', hlt using Nat.le_induction with
  | base => exact (daysFromCivil_next_year year).ge
  | succ y hy ih =>
    have hnext := daysFromCivil_next_year y
    have hmonth := daysFromCivil_month_lt y (show 1 ≤ 1 from le_rfl) (show 1 < 12 by decide) le_rfl
    omega

/-- A date of the calendar. -/
def IsDate (year month day : ℕ) : Prop :=
  1 ≤ month ∧ month ≤ 12 ∧ 1 ≤ day ∧ day ≤ daysInMonth year month

instance (year month day : ℕ) : Decidable (IsDate year month day) :=
  inferInstanceAs (Decidable (_ ∧ _))

theorem IsDate.day_lt {year month day : ℕ} (h : IsDate year month day) : day < 100 := by
  have : daysInMonth year month ≤ 31 := by
    unfold daysInMonth
    split
    · split <;> decide
    · split <;> decide
  have := h.2.2.2
  omega

/-- The year a day of the count lies in. -/
def yearOfDays (days : ℕ) : ℕ :=
  Nat.findGreatest (fun year => daysFromCivil year 1 1 ≤ days) (days / 365)

/-- The month of the year a day of the count lies in. -/
def monthOfDays (year days : ℕ) : ℕ :=
  Nat.findGreatest (fun month => daysFromCivil year month 1 ≤ days) 12

/-- The date of a day of the count. -/
def civilFromDays (days : ℕ) : ℕ × ℕ × ℕ :=
  let year := yearOfDays days
  let month := monthOfDays year days
  (year, month, days + 1 - daysFromCivil year month 1)

section Date

variable {year month day : ℕ}

/-- A date lies between the first and the last day of its year. -/
theorem IsDate.within_year (h : IsDate year month day) :
    daysFromCivil year 1 1 ≤ daysFromCivil year month day ∧
      daysFromCivil year month day < daysFromCivil year 12 1 + 31 := by
  obtain ⟨hm1, hm12, hd1, hd⟩ := h
  have hday := daysFromCivil_day year month day
  have hfirst : daysFromCivil year 1 1 ≤ daysFromCivil year month 1 := by
    rcases hm1.eq_or_lt with rfl | hlt
    · exact le_rfl
    · exact (Nat.le_add_right _ _).trans (daysFromCivil_month_lt year le_rfl hlt hm12)
  have hlast : daysFromCivil year month 1 + daysInMonth year month ≤
      daysFromCivil year 12 1 + 31 := by
    rcases hm12.eq_or_lt with rfl | hlt
    · exact le_rfl
    · exact (daysFromCivil_month_lt year hm1 hlt le_rfl).trans (Nat.le_add_right _ _)
  omega

theorem yearOfDays_daysFromCivil (h : IsDate year month day) :
    yearOfDays (daysFromCivil year month day) = year := by
  obtain ⟨hfirst, hlast⟩ := h.within_year
  refine Nat.findGreatest_eq_iff.mpr ⟨?_, fun _ => hfirst, fun y hy _ hle => ?_⟩
  · exact (Nat.le_div_iff_mul_le (by decide)).mpr
      ((Nat.mul_comm _ _).trans_le (le_daysFromCivil year month day))
  · have := daysFromCivil_year_lt hy
    omega

theorem monthOfDays_daysFromCivil (h : IsDate year month day) :
    monthOfDays year (daysFromCivil year month day) = month := by
  obtain ⟨hm1, hm12, hd1, hd⟩ := h
  have hday := daysFromCivil_day year month day
  refine Nat.findGreatest_eq_iff.mpr ⟨hm12, fun _ => by omega, fun m hm hm12' hle => ?_⟩
  have := daysFromCivil_month_lt year hm1 hm hm12'
  omega

/-- **The date of a day count is the date that was counted.** -/
theorem civilFromDays_daysFromCivil (h : IsDate year month day) :
    civilFromDays (daysFromCivil year month day) = (year, month, day) := by
  have hday := daysFromCivil_day year month day
  simp only [civilFromDays, yearOfDays_daysFromCivil h, monthOfDays_daysFromCivil h]
  congr 2
  omega

end Date

/-! ### Numbers of a fixed width -/

/-- The last `width` decimal digits of a number, with leading zeros. -/
def padDigits : ℕ → ℕ → List Char
  | 0, _ => []
  | width + 1, n => padDigits width (n / 10) ++ [Nat.digitChar (n % 10)]

@[simp]
theorem length_padDigits (width n : ℕ) : (padDigits width n).length = width := by
  induction width generalizing n with
  | zero => rfl
  | succ width ih => simp [padDigits, ih]

theorem isDigit_of_mem_padDigits {width n : ℕ} : ∀ c ∈ padDigits width n, c.isDigit = true := by
  induction width generalizing n with
  | zero => simp [padDigits]
  | succ width ih =>
    intro c hc
    rcases List.mem_append.mp hc with hc | hc
    · exact ih c hc
    · rw [List.mem_singleton.mp hc, Nat.isDigit_digitChar]
      exact decide_eq_true (Nat.mod_lt _ (by decide))

variable {n : ℕ}

private theorem digitChar_value (h : n < 10) : (Nat.digitChar n).toNat - '0'.toNat = n := by
  have key : ∀ n < 10, (Nat.digitChar n).toNat - '0'.toNat = n := by decide
  exact key n h

theorem ofDigitChars_padDigits (width : ℕ) (h : n < 10 ^ width) :
    Nat.ofDigitChars 10 (padDigits width n) 0 = n := by
  induction width generalizing n with
  | zero =>
    have : n = 0 := by simpa using h
    simp [padDigits, this]
  | succ width ih =>
    have hdiv : n / 10 < 10 ^ width := Nat.div_lt_of_lt_mul (by rwa [pow_succ'] at h)
    rw [padDigits, Nat.ofDigitChars_append, ih hdiv, Nat.ofDigitChars_cons,
      Nat.ofDigitChars_nil, digitChar_value (Nat.mod_lt _ (by decide))]
    exact Nat.div_add_mod n 10

theorem decimal?_padDigits (width : ℕ) (hw : 0 < width) (h : n < 10 ^ width) :
    decimal? (padDigits width n) = some n := by
  have hne : padDigits width n ≠ [] := by
    refine List.ne_nil_of_length_pos ?_
    rwa [length_padDigits]
  rw [decimal?, if_pos ⟨hne, List.all_eq_true.mpr isDigit_of_mem_padDigits⟩,
    ofDigitChars_padDigits width h]

/-! ### Fractions -/

/-- Digits without the zeros at their end. -/
def stripZeros (digits : List Char) : List Char :=
  digits.rdropWhile (· == '0')

/-- The zeros that were dropped stand after the digits that were kept. -/
theorem stripZeros_append (digits : List Char) :
    ∃ k, stripZeros digits ++ List.replicate k '0' = digits := by
  refine ⟨(digits.rtakeWhile (· == '0')).length, ?_⟩
  have hzeros : digits.rtakeWhile (· == '0') =
      List.replicate (digits.rtakeWhile (· == '0')).length '0' := by
    refine List.eq_replicate_of_mem fun c hc => ?_
    simpa using List.mem_rtakeWhile_imp hc
  rw [← hzeros]
  exact List.rdropWhile_append_rtakeWhile

variable {digits : List Char}

theorem stripZeros_isDigit (h : ∀ c ∈ digits, c.isDigit = true) :
    ∀ c ∈ stripZeros digits, c.isDigit = true := fun c hc => by
  obtain ⟨k, hk⟩ := stripZeros_append digits
  exact h c (hk ▸ List.mem_append_left _ hc)

theorem ofDigitChars_append_zeros (digits : List Char) (k : ℕ) :
    Nat.ofDigitChars 10 (digits ++ List.replicate k '0') 0 =
      Nat.ofDigitChars 10 digits 0 * 10 ^ k := by
  induction k with
  | zero => simp
  | succ k ih =>
    rw [List.replicate_succ', ← List.append_assoc, Nat.ofDigitChars_append, ih,
      Nat.ofDigitChars_cons, Nat.ofDigitChars_nil, pow_succ]
    simp only [Nat.sub_self, Nat.add_zero]
    ring

/-- A decimal point and the digits of a fraction without the zeros at their end; nothing for a
fraction of zero. -/
def fractionChars (digits : List Char) : List Char :=
  if stripZeros digits = [] then [] else '.' :: stripZeros digits

/-- What reading `fractionChars` finds. -/
def fractionOf (digits : List Char) : Option (List Char) :=
  if stripZeros digits = [] then none else some (stripZeros digits)

theorem getD_fractionOf (digits : List Char) :
    (fractionOf digits).getD [] = stripZeros digits := by
  unfold fractionOf
  split
  · rename_i h
    rw [h]
    rfl
  · rfl

theorem splitFraction_fractionChars (h : ∀ c ∈ digits, c.isDigit = true) :
    splitFraction (fractionChars digits ++ ['Z']) = some (fractionOf digits) := by
  unfold fractionChars fractionOf
  split
  · rfl
  · rename_i hne
    have hall : (stripZeros digits).all Char.isDigit = true :=
      List.all_eq_true.mpr (stripZeros_isDigit h)
    simp [splitFraction, hne, hall]

/-- The first nine digits of a fraction, as nanoseconds. -/
def fractionNanos (fraction : Option (List Char)) : ℕ :=
  Nat.ofDigitChars 10 ((fraction.getD [] ++ List.replicate 9 '0').take 9) 0

/-- The nanoseconds of a printed fraction are those of its digits, filled up with zeros. -/
theorem fractionNanos_fractionOf (h : digits.length ≤ 9) :
    fractionNanos (fractionOf digits) =
      Nat.ofDigitChars 10 digits 0 * 10 ^ (9 - digits.length) := by
  obtain ⟨k, hk⟩ := stripZeros_append digits
  have hlength := congrArg List.length hk
  simp only [List.length_append, List.length_replicate] at hlength
  have htake : ((stripZeros digits) ++ List.replicate 9 '0').take 9 =
      digits ++ List.replicate (9 - digits.length) '0' := by
    conv_rhs => rw [← hk]
    rw [List.append_assoc, List.replicate_append_replicate, List.take_append,
      List.take_of_length_le (by omega), List.take_replicate, hk]
    congr 2
    omega
  rw [fractionNanos, getD_fractionOf, htake, ofDigitChars_append_zeros]

/-! ### The text of a date and time -/

/-- `YYYY-MM-DDThh:mm:ss`. -/
def dateTimeChars (year month day hour minute second : ℕ) : List Char :=
  padDigits 4 year ++ '-' :: padDigits 2 month ++ '-' :: padDigits 2 day ++
    'T' :: padDigits 2 hour ++ ':' :: padDigits 2 minute ++ ':' :: padDigits 2 second

private theorem padDigits_two (n : ℕ) : ∃ a b, padDigits 2 n = [a, b] := ⟨_, _, rfl⟩

private theorem padDigits_four (n : ℕ) : ∃ a b c d, padDigits 4 n = [a, b, c, d] :=
  ⟨_, _, _, _, rfl⟩

/-- **Taking a printed text apart gives the numbers it was printed from.** -/
theorem splitTimestamp_dateTimeChars {year month day hour minute second : ℕ} (hyear : year < 10000)
    (hmonth : month < 100) (hday : day < 100) (hhour : hour < 100) (hminute : minute < 100)
    (hsecond : second < 100) (hdigits : ∀ c ∈ digits, c.isDigit = true) :
    splitTimestamp (dateTimeChars year month day hour minute second ++
        (fractionChars digits ++ ['Z'])) =
      some { year, month, day, separator := 'T', hour, minute, second,
             fraction := fractionOf digits } := by
  have dyear := decimal?_padDigits 4 (by decide) hyear
  have two {n : ℕ} (h : n < 100) := decimal?_padDigits 2 (n := n) (by decide) h
  have dmonth := two hmonth
  have dday := two hday
  have dhour := two hhour
  have dminute := two hminute
  have dsecond := two hsecond
  obtain ⟨y1, y2, y3, y4, hy⟩ := padDigits_four year
  obtain ⟨m1, m2, hm⟩ := padDigits_two month
  obtain ⟨d1, d2, hd⟩ := padDigits_two day
  obtain ⟨h1, h2, hh⟩ := padDigits_two hour
  obtain ⟨i1, i2, hi⟩ := padDigits_two minute
  obtain ⟨s1, s2, hs⟩ := padDigits_two second
  rw [hy] at dyear
  rw [hm] at dmonth
  rw [hd] at dday
  rw [hh] at dhour
  rw [hi] at dminute
  rw [hs] at dsecond
  have hfraction := splitFraction_fractionChars hdigits
  generalize fractionChars digits ++ ['Z'] = rest at hfraction ⊢
  simp [dateTimeChars, splitTimestamp, hy, hm, hd, hh, hi, hs, dyear, dmonth, dday, dhour,
    dminute, dsecond, hfraction]

/-- Whatever numbers a text was printed from, taking it apart finds the seconds and the fraction. -/
theorem splitTimestamp_second_fraction {year month day hour minute second : ℕ} {f : TimestampFields}
    (hsecond : second < 100) (hdigits : ∀ c ∈ digits, c.isDigit = true)
    (h : splitTimestamp (dateTimeChars year month day hour minute second ++
      (fractionChars digits ++ ['Z'])) = some f) :
    f.second = second ∧ f.fraction = fractionOf digits := by
  have dsecond := decimal?_padDigits 2 (by decide) hsecond
  obtain ⟨y1, y2, y3, y4, hy⟩ := padDigits_four year
  obtain ⟨m1, m2, hm⟩ := padDigits_two month
  obtain ⟨d1, d2, hd⟩ := padDigits_two day
  obtain ⟨h1, h2, hh⟩ := padDigits_two hour
  obtain ⟨i1, i2, hi⟩ := padDigits_two minute
  obtain ⟨s1, s2, hs⟩ := padDigits_two second
  rw [hs] at dsecond
  have hfraction := splitFraction_fractionChars hdigits
  generalize fractionChars digits ++ ['Z'] = rest at hfraction h
  simp only [dateTimeChars, hy, hm, hd, hh, hi, hs, splitTimestamp] at h
  simp [dsecond, hfraction, Option.bind_eq_some_iff] at h
  obtain ⟨_, -, _, -, _, -, _, -, _, -, rfl⟩ := h
  exact ⟨rfl, rfl⟩

/-! ### Instants -/

/-- An instant in UTC with nanoseconds, in the years 0 to 9999. -/
structure DateTime where
  year : ℕ
  month : ℕ
  day : ℕ
  hour : ℕ
  minute : ℕ
  second : ℕ
  nanosecond : ℕ
  year_lt : year < 10000
  date : IsDate year month day
  hour_lt : hour < 24
  minute_lt : minute < 60
  second_lt : second < 60
  nanosecond_lt : nanosecond < 1000000000

namespace DateTime

theorem ext {s t : DateTime} (hyear : s.year = t.year) (hmonth : s.month = t.month)
    (hday : s.day = t.day) (hhour : s.hour = t.hour) (hminute : s.minute = t.minute)
    (hsecond : s.second = t.second) (hnanosecond : s.nanosecond = t.nanosecond) : s = t := by
  cases s
  cases t
  simp_all

instance : DecidableEq DateTime := fun s t =>
  decidable_of_iff (s.year = t.year ∧ s.month = t.month ∧ s.day = t.day ∧ s.hour = t.hour ∧
      s.minute = t.minute ∧ s.second = t.second ∧ s.nanosecond = t.nanosecond)
    ⟨fun h => ext h.1 h.2.1 h.2.2.1 h.2.2.2.1 h.2.2.2.2.1 h.2.2.2.2.2.1 h.2.2.2.2.2.2,
      fun h => by subst h; simp⟩

/-- The text of an instant without its offset: as many digits of the fraction as are needed. -/
def chars (t : DateTime) : List Char :=
  dateTimeChars t.year t.month t.day t.hour t.minute t.second ++
    fractionChars (padDigits 9 t.nanosecond)

/-- The RFC 3339 text of an instant. -/
def toRfc3339 (t : DateTime) : String :=
  String.ofList (t.chars ++ ['Z'])

/-- The instant that fields describe, if there is one. -/
def ofFields? (f : TimestampFields) : Option DateTime :=
  if h : f.year < 10000 ∧ IsDate f.year f.month f.day ∧ f.hour < 24 ∧ f.minute < 60 ∧
      f.second < 60 ∧ fractionNanos f.fraction < 1000000000 then
    some { year := f.year, month := f.month, day := f.day, hour := f.hour, minute := f.minute,
           second := f.second, nanosecond := fractionNanos f.fraction, year_lt := h.1,
           date := h.2.1, hour_lt := h.2.2.1, minute_lt := h.2.2.2.1, second_lt := h.2.2.2.2.1,
           nanosecond_lt := h.2.2.2.2.2 }
  else none

/-- The fields of the text whose fraction is printed from the digits. -/
def fields (t : DateTime) (digits : List Char) : TimestampFields where
  year := t.year
  month := t.month
  day := t.day
  separator := 'T'
  hour := t.hour
  minute := t.minute
  second := t.second
  fraction := fractionOf digits

theorem splitTimestamp_chars (t : DateTime) {digits : List Char}
    (hdigits : ∀ c ∈ digits, c.isDigit = true) :
    splitTimestamp (dateTimeChars t.year t.month t.day t.hour t.minute t.second ++
      (fractionChars digits ++ ['Z'])) = some (t.fields digits) :=
  splitTimestamp_dateTimeChars t.year_lt (t.date.2.1.trans_lt (by decide)) t.date.day_lt
    (t.hour_lt.trans (by decide)) (t.minute_lt.trans (by decide)) (t.second_lt.trans (by decide))
    hdigits

/-- Reading the fields gives the instant back if the digits say its nanoseconds. -/
theorem ofFields?_fields (t : DateTime) {digits : List Char} (h : digits.length ≤ 9)
    (hnanos : Nat.ofDigitChars 10 digits 0 * 10 ^ (9 - digits.length) = t.nanosecond) :
    ofFields? (t.fields digits) = some t := by
  have hfraction : fractionNanos (t.fields digits).fraction = t.nanosecond :=
    (fractionNanos_fractionOf h).trans hnanos
  rw [ofFields?, dif_pos ⟨t.year_lt, t.date, t.hour_lt, t.minute_lt, t.second_lt,
    hfraction.trans_lt t.nanosecond_lt⟩]
  exact congrArg some (ext rfl rfl rfl rfl rfl rfl hfraction)

/-- A text without the mark of UTC at its end: `Z`, `z`, or an offset of zero. -/
def stripUtcOffset (text : List Char) : Option (List Char) :=
  match text.reverse with
  | 'Z' :: rest => some rest.reverse
  | 'z' :: rest => some rest.reverse
  | '0' :: '0' :: ':' :: '0' :: '0' :: '+' :: rest => some rest.reverse
  | '0' :: '0' :: ':' :: '0' :: '0' :: '-' :: rest => some rest.reverse
  | _ => none

@[simp]
theorem stripUtcOffset_zulu (text : List Char) : stripUtcOffset (text ++ ['Z']) = some text := by
  simp [stripUtcOffset]

@[simp]
theorem stripUtcOffset_zero (text : List Char) :
    stripUtcOffset (text ++ ['+', '0', '0', ':', '0', '0']) = some text := by
  simp [stripUtcOffset]

end DateTime

end Mipsorcu
