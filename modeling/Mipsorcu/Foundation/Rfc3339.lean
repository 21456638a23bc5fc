import Mathlib.Data.List.Basic
import Mathlib.Data.Nat.Notation

/-!
# RFC 3339 timestamps in UTC

Calendar dates of the proleptic Gregorian calendar and the text form
`YYYY-MM-DD?hh:mm:ss[.digits]Z`. `splitTimestamp` takes the text apart; which fields are in
range, and what a sixtieth second means, is left to the readers that differ in it.
-/

namespace Mipsorcu

/-! ### The calendar -/

/-- Leap years of the Gregorian calendar. -/
def isLeapYear (year : ℕ) : Bool :=
  year % 4 == 0 && (year % 100 != 0 || year % 400 == 0)

/-- The number of days of a month. -/
def daysInMonth (year month : ℕ) : ℕ :=
  if month = 2 then if isLeapYear year then 29 else 28
  else if month = 4 ∨ month = 6 ∨ month = 9 ∨ month = 11 then 30
  else 31

/-- Days from 0000-03-01 to a date, the usual count that starts the year in March. -/
def daysFromCivil (year month day : ℕ) : ℕ :=
  let y := if month ≤ 2 then year + 399 else year + 400
  let m := if month ≤ 2 then month + 9 else month - 3
  365 * y + y / 4 - y / 100 + y / 400 + (153 * m + 2) / 5 + day

/-! ### The text -/

/-- The fields of a timestamp text, as numbers. -/
structure TimestampFields where
  year : ℕ
  month : ℕ
  day : ℕ
  separator : Char
  hour : ℕ
  minute : ℕ
  second : ℕ
  /-- The digits after the decimal point, if there is one. -/
  fraction : Option (List Char)
  deriving DecidableEq

/-- The number of a text of decimal digits. -/
def decimal? (digits : List Char) : Option ℕ :=
  if digits ≠ [] ∧ digits.all Char.isDigit then some (Nat.ofDigitChars 10 digits 0) else none

theorem decimal?_toDigits (n : ℕ) : decimal? (Nat.toDigits 10 n) = some n := by
  have hdigits : ∀ c ∈ Nat.toDigits 10 n, c.isDigit = true := fun c hc =>
    Nat.isDigit_of_mem_toDigits (by decide) (by decide) hc
  have hne : Nat.toDigits 10 n ≠ [] := List.ne_nil_of_length_pos (Nat.length_toDigits_pos)
  rw [decimal?, if_pos ⟨hne, List.all_eq_true.mpr hdigits⟩, Nat.ofDigitChars_ten_toDigits]

/-- What follows the seconds: an optional fraction, then `Z`. -/
def splitFraction : List Char → Option (Option (List Char))
  | ['Z'] => some none
  | '.' :: rest =>
    if rest.getLast? = some 'Z' ∧ rest.dropLast ≠ [] ∧ rest.dropLast.all Char.isDigit then
      some (some rest.dropLast)
    else none
  | _ => none

/-- Takes a timestamp text apart: digits at their places, hyphens and colons between them, one
character between date and time, an optional fraction and a final `Z`. -/
def splitTimestamp (text : List Char) : Option TimestampFields := do
  if text[4]? = some '-' ∧ text[7]? = some '-' ∧ text[13]? = some ':' ∧ text[16]? = some ':' then
    let year ← decimal? (text.take 4)
    let month ← decimal? ((text.drop 5).take 2)
    let day ← decimal? ((text.drop 8).take 2)
    let separator ← text[10]?
    let hour ← decimal? ((text.drop 11).take 2)
    let minute ← decimal? ((text.drop 14).take 2)
    let second ← decimal? ((text.drop 17).take 2)
    let fraction ← splitFraction (text.drop 19)
    pure { year, month, day, separator, hour, minute, second, fraction }
  else none

/-- The date and time of day exist: no month 13, no 30 February, no hour 24. -/
def TimestampFields.inRange (t : TimestampFields) : Bool :=
  1 ≤ t.month && t.month ≤ 12 && 1 ≤ t.day && t.day ≤ daysInMonth t.year t.month &&
    t.hour ≤ 23 && t.minute ≤ 59 && t.second ≤ 59

end Mipsorcu
