import Mipsorcu.Database.LedgerValidation
import Mipsorcu.Secret.Types

/-!
# Creation times in the database

The creation time of a version is sent as a text with nanoseconds, stored as a `timestamptz` in
microseconds and printed again when the version is read. An instant of whole microseconds comes
back as it was (`CreatedAt.parse_printTimestamptz`); and no other instant can come back, since
whatever the database prints is one of whole microseconds
(`CreatedAt.nanosecond_of_parse_printTimestamptz`).
-/

namespace Mipsorcu

namespace Sql

/-- A `timestamptz` as it is printed in UTC: the date, the time, as many digits of the microseconds
as are needed, and the offset. A year has four digits, or more from 10000 on. -/
def printTimestamptz (micros : ℕ) : String :=
  let (year, month, day) := civilFromDays (micros / 86400000000)
  let rest := micros % 86400000000
  let text := dateTimeChars year month day (rest / 3600000000) (rest / 60000000 % 60)
    (rest / 1000000 % 60) ++ fractionChars (padDigits 6 (rest % 1000000)) ++
    ['+', '0', '0', ':', '0', '0']
  String.ofList (if year < 10000 then text else Nat.toDigits 10 year ++ text.drop 4)

/-- Rounding to microseconds keeps whole microseconds. -/
theorem fractionMicros_stripZeros {micros : ℕ} (h : micros < 1000000) :
    fractionMicros (stripZeros (padDigits 9 (1000 * micros))) = micros := by
  obtain ⟨k, hk⟩ := stripZeros_append (padDigits 9 (1000 * micros))
  generalize stripZeros (padDigits 9 (1000 * micros)) = digits at hk ⊢
  have hlength : digits.length + k = 9 := by
    have := congrArg List.length hk
    rwa [List.length_append, List.length_replicate, length_padDigits] at this
  have hvalue : Nat.ofDigitChars 10 digits 0 * 10 ^ k = 1000 * micros := by
    rw [← ofDigitChars_append_zeros, hk]
    exact ofDigitChars_padDigits 9 (by omega)
  -- the number of the digits is a whole multiple of the scale
  have hscaled : Nat.ofDigitChars 10 digits 0 * 1000000 = micros * 10 ^ digits.length := by
    refine Nat.eq_of_mul_eq_mul_right (Nat.pos_of_ne_zero (by positivity : 10 ^ k ≠ 0)) ?_
    calc Nat.ofDigitChars 10 digits 0 * 1000000 * 10 ^ k
        = (Nat.ofDigitChars 10 digits 0 * 10 ^ k) * 1000000 := by ring
      _ = micros * 10 ^ 9 := by rw [hvalue]; ring
      _ = micros * 10 ^ digits.length * 10 ^ k := by rw [← hlength, pow_add, mul_assoc]
  have hpos : 0 < 10 ^ digits.length := by positivity
  simp only [fractionMicros, hscaled, Nat.mul_div_cancel _ hpos, Nat.mul_mod_left]
  rw [if_neg]
  omega

/-- The cast of the text of an instant. -/
theorem timestamptz_toRfc3339 {t : DateTime} {micros : ℕ}
    (h : timestamptz t.toRfc3339 = some micros) :
    micros = microsOf t.year t.month t.day t.hour t.minute t.second
      (fractionMicros (stripZeros (padDigits 9 t.nanosecond))) := by
  have hdigits : ∀ c ∈ padDigits 9 t.nanosecond, c.isDigit = true := isDigit_of_mem_padDigits
  have hsplit := t.splitTimestamp_chars hdigits
  rw [timestamptz, DateTime.toRfc3339, String.toList_ofList, DateTime.chars, List.append_assoc,
    hsplit] at h
  simp only [Option.bind_eq_bind, Option.bind_some, DateTime.fields, getD_fractionOf] at h
  split_ifs at h
  exact (Option.some.inj h).symm

/-- The printed form of a time of whole microseconds in the first ten thousand years. -/
theorem printTimestamptz_microsOf {year month day hour minute second micros : ℕ}
    (hyear : year < 10000) (hdate : IsDate year month day) (hhour : hour < 24)
    (hminute : minute < 60) (hsecond : second < 60) (hmicros : micros < 1000000) :
    printTimestamptz (microsOf year month day hour minute second micros) =
      String.ofList (dateTimeChars year month day hour minute second ++
        fractionChars (padDigits 6 micros) ++ ['+', '0', '0', ':', '0', '0']) := by
  -- the parts are read off the microseconds by division
  have hdays : microsOf year month day hour minute second micros / 86400000000 =
      daysFromCivil year month day := by
    unfold microsOf
    omega
  have hrest : microsOf year month day hour minute second micros % 86400000000 =
      ((hour * 60 + minute) * 60 + second) * 1000000 + micros := by
    unfold microsOf
    omega
  have hh : (((hour * 60 + minute) * 60 + second) * 1000000 + micros) / 3600000000 = hour := by
    omega
  have hm : (((hour * 60 + minute) * 60 + second) * 1000000 + micros) / 60000000 % 60 =
      minute := by
    omega
  have hs : (((hour * 60 + minute) * 60 + second) * 1000000 + micros) / 1000000 % 60 =
      second := by
    omega
  have hu : (((hour * 60 + minute) * 60 + second) * 1000000 + micros) % 1000000 = micros := by
    omega
  simp only [printTimestamptz, hdays, civilFromDays_daysFromCivil hdate, hrest, hh, hm, hs, hu,
    if_pos hyear]

end Sql

namespace CreatedAt

open Sql

/-- The marks of UTC that the database prints. -/
theorem stripUtcOffset_printed (body : List Char) :
    DateTime.stripUtcOffset (body ++ (['+', '0', '0', ':', '0'] ++ ['0'])) = some body :=
  DateTime.stripUtcOffset_zero body

/-- **An instant of whole microseconds comes back from the database as it was.** -/
theorem parse_printTimestamptz {t : CreatedAt} {micros : ℕ}
    (hcast : timestamptz t.asRfc3339Utc = some micros) (hwhole : t.instant.nanosecond % 1000 = 0) :
    parse (printTimestamptz micros) = .ok t := by
  obtain ⟨u, hu⟩ : ∃ u, t.instant.nanosecond = 1000 * u := Nat.dvd_of_mod_eq_zero hwhole
  have hlt : u < 1000000 := by
    have := t.instant.nanosecond_lt
    omega
  have hnanos : Nat.ofDigitChars 10 (padDigits 6 u) 0 * 10 ^ (9 - (padDigits 6 u).length) =
      t.instant.nanosecond := by
    rw [length_padDigits, ofDigitChars_padDigits 6 hlt, hu]
    exact mul_comm u 1000
  rw [timestamptz_toRfc3339 hcast, hu, fractionMicros_stripZeros hlt,
    printTimestamptz_microsOf t.instant.year_lt t.instant.date t.instant.hour_lt
      t.instant.minute_lt t.instant.second_lt hlt]
  exact parse_chars t.instant ['+', '0', '0', ':', '0'] isDigit_of_mem_padDigits
    ((length_padDigits 6 u).trans_le (by decide)) hnanos stripUtcOffset_printed (by decide)
    (by decide)

/-- A text whose fifth character is a digit has no year of four digits. -/
theorem splitTimestamp_eq_none {text : List Char} (h : text[4]? ≠ some '-') :
    splitTimestamp text = none := by
  rw [splitTimestamp, if_neg fun hmarks => h hmarks.1]

/-- The nanoseconds of an instant whose seconds are below sixty are those of the fraction. -/
theorem nanosecond_of_instantOfFields {f : TimestampFields} {t : DateTime} (hsecond : f.second ≠ 60)
    (h : instantOfFields f = some t) : t.nanosecond = fractionNanos f.fraction := by
  have hleap : f.isLeapSecond = false := by
    simp [TimestampFields.isLeapSecond, hsecond]
  rw [instantOfFields, hleap, if_neg Bool.false_ne_true, DateTime.ofFields?] at h
  split_ifs at h
  cases h
  rfl

/-- **Whatever the database prints is an instant of whole microseconds.** -/
theorem nanosecond_of_parse_printTimestamptz {t : CreatedAt} {micros : ℕ}
    (h : parse (printTimestamptz micros) = .ok t) : t.instant.nanosecond % 1000 = 0 := by
  obtain ⟨t⟩ := t
  simp only [printTimestamptz] at h
  generalize civilFromDays (micros / 86400000000) = date at h
  obtain ⟨year, month, day⟩ := date
  generalize micros % 86400000000 = rest at h
  have hsecond : rest / 1000000 % 60 < 60 := Nat.mod_lt _ (by decide)
  generalize rest / 1000000 % 60 = second, rest % 1000000 = u,
    rest / 3600000000 = hour, rest / 60000000 % 60 = minute at h hsecond
  obtain ⟨first, tail, hchars, hfirst⟩ := dateTimeChars_head year month day hour minute second
  split_ifs at h with hyear
  -- six digits of a fraction are a multiple of a thousand nanoseconds
  · rw [hchars, List.cons_append] at h
    have hread := (parse_eq_ok ['+', '0', '0', ':', '0'] hfirst stripUtcOffset_printed (by decide)
      (by decide)).mp h
    obtain ⟨f, hsplit, hinstant⟩ := Option.bind_eq_some_iff.mp hread
    rw [← List.cons_append, ← hchars, List.append_assoc] at hsplit
    obtain ⟨hf, hfraction⟩ := splitTimestamp_second_fraction (by omega) isDigit_of_mem_padDigits
      hsplit
    rw [nanosecond_of_instantOfFields (by omega) hinstant, hfraction,
      fractionNanos_fractionOf ((length_padDigits 6 u).trans_le (by decide)), length_padDigits]
    exact Nat.mul_mod_left _ 1000
  · -- a year of five digits or more leaves no hyphen in the fifth place
    have hlength : 4 < (Nat.toDigits 10 year).length :=
      Nat.lt_of_not_le fun hle =>
        hyear ((Nat.length_toDigits_le_iff (by decide) (by decide)).mp hle)
    have hdigit : ∀ c ∈ Nat.toDigits 10 year, c.isDigit = true := fun c hc =>
      Nat.isDigit_of_mem_toDigits (by decide) (by decide) hc
    have hdrop : ∃ body, (dateTimeChars year month day hour minute second ++
        fractionChars (padDigits 6 u) ++ ['+', '0', '0', ':', '0', '0']).drop 4 =
        body ++ ['+', '0', '0', ':', '0', '0'] :=
      ⟨_, List.drop_append_of_le_length (by simp [dateTimeChars])⟩
    obtain ⟨body, hbody⟩ := hdrop
    obtain ⟨c, cs, hcs⟩ := List.exists_cons_of_length_pos (Nat.zero_lt_of_lt hlength)
    rw [hbody, ← List.append_assoc, hcs, List.cons_append] at h
    have hread := (parse_eq_ok ['+', '0', '0', ':', '0'] (hdigit c (hcs ▸ List.mem_cons_self))
      stripUtcOffset_printed (by decide) (by decide)).mp h
    rw [← List.cons_append, ← hcs, List.append_assoc, splitTimestamp_eq_none] at hread
    · cases hread
    · rw [List.getElem?_append_left hlength]
      intro hhyphen
      have := hdigit '-' (List.mem_of_getElem? hhyphen)
      exact absurd this (by decide)

end CreatedAt

end Mipsorcu
