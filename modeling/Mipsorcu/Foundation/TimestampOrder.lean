import Mathlib.Algebra.Order.Field.Rat
import Mathlib.Data.List.Induction
import Mathlib.Tactic.Linarith
import Mipsorcu.Foundation.DateTime

/-!
# The order of timestamp texts

Timestamps are compared as texts and as instants. The places of fixed width agree in both orders
(`padDigits_lt_iff`). A fraction is compared digit by digit in both, but where one fraction ends the
texts go on with `Z`, which is above every digit and above the decimal point, and the fractions go
on with zeros. `TimestampFields.chars_lt_iff_iff` says exactly which pairs of texts are in the order
of their instants.
-/

namespace Mipsorcu

/-! ### Lexicographic order of lists -/

/-- Lists are compared at the first place where they differ. -/
theorem append_lt_append_iff {α : Type*} [LT α] {a a' b b' : List α} (h : a.length = a'.length) :
    a ++ b < a' ++ b' ↔ a < a' ∨ a = a' ∧ b < b' := by
  induction a generalizing a' with
  | nil =>
    obtain rfl := List.eq_nil_of_length_eq_zero h.symm
    simp
  | cons x a ih =>
    cases a' with
    | nil => cases h
    | cons y a' =>
      rw [List.cons_append, List.cons_append, List.cons_lt_cons_iff, List.cons_lt_cons_iff,
        ih (Nat.succ.inj h), List.cons.injEq]
      tauto

/-! ### Numbers of a fixed width -/

theorem digitChar_lt_iff {m n : ℕ} (hm : m < 10) (hn : n < 10) :
    Nat.digitChar m < Nat.digitChar n ↔ m < n := by
  have key : ∀ m < 10, ∀ n < 10, (Nat.digitChar m < Nat.digitChar n ↔ m < n) := by decide
  exact key m hm n hn

theorem padDigits_injective {width m n : ℕ} (hm : m < 10 ^ width) (hn : n < 10 ^ width)
    (h : padDigits width m = padDigits width n) : m = n := by
  rw [← ofDigitChars_padDigits width hm, h, ofDigitChars_padDigits width hn]

/-- Numbers of one width are in the order of their texts. -/
theorem padDigits_lt_iff {width m n : ℕ} (hm : m < 10 ^ width) (hn : n < 10 ^ width) :
    padDigits width m < padDigits width n ↔ m < n := by
  induction width generalizing m n with
  | zero =>
    have hm0 : m = 0 := by simpa using hm
    have hn0 : n = 0 := by simpa using hn
    simp [hm0, hn0]
  | succ width ih =>
    have hmdiv : m / 10 < 10 ^ width := Nat.div_lt_of_lt_mul (by rwa [pow_succ'] at hm)
    have hndiv : n / 10 < 10 ^ width := Nat.div_lt_of_lt_mul (by rwa [pow_succ'] at hn)
    have heq : padDigits width (m / 10) = padDigits width (n / 10) ↔ m / 10 = n / 10 :=
      ⟨padDigits_injective hmdiv hndiv, fun h => by rw [h]⟩
    have hdigit : [Nat.digitChar (m % 10)] < [Nat.digitChar (n % 10)] ↔ m % 10 < n % 10 := by
      rw [List.cons_lt_cons_iff, digitChar_lt_iff (Nat.mod_lt _ (by decide))
        (Nat.mod_lt _ (by decide))]
      simp
    rw [padDigits, padDigits, append_lt_append_iff (by simp), ih hmdiv hndiv, heq, hdigit]
    omega

/-- The value of a decimal digit. -/
def digitValue (c : Char) : ℕ :=
  c.toNat - '0'.toNat

variable {c : Char}

theorem digitValue_lt (h : c.isDigit = true) : digitValue c < 10 := by
  obtain ⟨-, hle⟩ := Char.isDigit_iff_toNat.mp h
  have hnine : '9'.toNat = '0'.toNat + 9 := rfl
  unfold digitValue
  omega

theorem digitChar_digitValue (h : c.isDigit = true) : Nat.digitChar (digitValue c) = c := by
  have key : ∀ n ≤ 57, 48 ≤ n → Nat.digitChar (n - 48) = Char.ofNat n := by decide
  obtain ⟨hge, hle⟩ := Char.isDigit_iff_toNat.mp h
  exact (key c.toNat hle hge).trans (Char.ofNat_toNat c)

theorem digit_lt_iff {c d : Char} (hc : c.isDigit = true) (hd : d.isDigit = true) :
    c < d ↔ digitValue c < digitValue d := by
  rw [← digitChar_lt_iff (digitValue_lt hc) (digitValue_lt hd), digitChar_digitValue hc,
    digitChar_digitValue hd]

variable {digits : List Char}

/-- The text of a number of digits is the digits. -/
theorem padDigits_ofDigitChars (h : ∀ c ∈ digits, c.isDigit = true) :
    padDigits digits.length (Nat.ofDigitChars 10 digits 0) = digits := by
  induction digits using List.reverseRecOn with
  | nil => rfl
  | append_singleton digits c ih =>
    have hc : c.isDigit = true := h c (by simp)
    have hlt : c.toNat - '0'.toNat < 10 := digitValue_lt hc
    rw [Nat.ofDigitChars_append, Nat.ofDigitChars_cons, Nat.ofDigitChars_nil, List.length_append,
      List.length_singleton, padDigits, Nat.mul_add_div (by decide), Nat.div_eq_of_lt hlt,
      Nat.mul_add_mod, Nat.mod_eq_of_lt hlt, Nat.add_zero,
      ih fun d hd => h d (List.mem_append_left _ hd)]
    exact congrArg (fun d => digits ++ [d]) (digitChar_digitValue hc)

/-! ### Fractions -/

/-- The value of the digits after a decimal point. -/
def fractionValue : List Char → ℚ
  | [] => 0
  | c :: digits => (digitValue c + fractionValue digits) / 10

theorem fractionValue_nonneg (digits : List Char) : 0 ≤ fractionValue digits := by
  induction digits with
  | nil => exact le_rfl
  | cons c digits ih => exact div_nonneg (add_nonneg (Nat.cast_nonneg _) ih) (by norm_num)

theorem fractionValue_lt_one (h : ∀ c ∈ digits, c.isDigit = true) : fractionValue digits < 1 := by
  induction digits with
  | nil => exact zero_lt_one
  | cons c digits ih =>
    obtain ⟨hc, hdigits⟩ := List.forall_mem_cons.mp h
    have hdigit : (digitValue c : ℚ) ≤ 9 := by exact_mod_cast Nat.le_of_lt_succ (digitValue_lt hc)
    have hrest := ih hdigits
    rw [fractionValue, div_lt_iff₀ (by norm_num)]
    linarith

/-- Fractions are compared at their first digit, as their texts are. -/
theorem fractionValue_cons_lt_cons_iff {c d : Char} {ds es : List Char}
    (hc : ∀ x ∈ c :: ds, x.isDigit = true) (hd : ∀ x ∈ d :: es, x.isDigit = true) :
    fractionValue (c :: ds) < fractionValue (d :: es) ↔
      c < d ∨ c = d ∧ fractionValue ds < fractionValue es := by
  obtain ⟨hcdigit, hds⟩ := List.forall_mem_cons.mp hc
  obtain ⟨hddigit, hes⟩ := List.forall_mem_cons.mp hd
  have hds0 := fractionValue_nonneg ds
  have hes0 := fractionValue_nonneg es
  have hds1 := fractionValue_lt_one hds
  have hes1 := fractionValue_lt_one hes
  rw [fractionValue, fractionValue, div_lt_div_iff_of_pos_right (by norm_num),
    digit_lt_iff hcdigit hddigit]
  rcases Nat.lt_trichotomy (digitValue c) (digitValue d) with hlt | heq | hgt
  · have hcast : (digitValue c : ℚ) + 1 ≤ digitValue d := by exact_mod_cast hlt
    exact iff_of_true (by linarith) (.inl hlt)
  · have hcd : c = d := by
      rw [← digitChar_digitValue hcdigit, heq, digitChar_digitValue hddigit]
    subst hcd
    simp
  · have hcast : (digitValue d : ℚ) + 1 ≤ digitValue c := by exact_mod_cast hgt
    refine iff_of_false (by linarith) ?_
    rintro (hlt | ⟨rfl, -⟩)
    · omega
    · omega

theorem fractionValue_pos_iff (h : ∀ c ∈ digits, c.isDigit = true) :
    0 < fractionValue digits ↔ ∃ c ∈ digits, c ≠ '0' := by
  induction digits with
  | nil => simp [fractionValue]
  | cons c digits ih =>
    obtain ⟨hc, hdigits⟩ := List.forall_mem_cons.mp h
    have hzero : digitValue c = 0 ↔ c = '0' := by
      constructor
      · intro hvalue
        rw [← digitChar_digitValue hc, hvalue]
        rfl
      · rintro rfl
        rfl
    rw [List.exists_mem_cons_iff, ← ih hdigits, fractionValue,
      lt_div_iff₀ (by norm_num), zero_mul]
    have hnonneg := fractionValue_nonneg digits
    by_cases hdigit : c = '0'
    · rw [hzero.mpr hdigit, Nat.cast_zero, zero_add]
      simp [hdigit]
    · have hpos : (0 : ℚ) < digitValue c := by
        exact_mod_cast Nat.pos_of_ne_zero (mt hzero.mp hdigit)
      exact iff_of_true (by linarith) (.inl hdigit)

/-- One text goes on where the other ends: the first one with anything, or the second one with a
digit that counts. -/
def Misaligned (a b : List Char) : Prop :=
  (∃ rest, rest ≠ [] ∧ a = b ++ rest) ∨
    ∃ rest, b = a ++ rest ∧ ∃ c ∈ rest, c.isDigit = true ∧ c ≠ '0'

theorem misaligned_nil_left {b : List Char} :
    Misaligned [] b ↔ ∃ c ∈ b, c.isDigit = true ∧ c ≠ '0' := by
  constructor
  · rintro (⟨rest, hne, heq⟩ | ⟨rest, rfl, hcount⟩)
    · exact absurd (List.append_eq_nil_iff.mp heq.symm).2 hne
    · exact hcount
  · exact fun hcount => .inr ⟨b, rfl, hcount⟩

variable {x : Char}

theorem misaligned_nil_right {a : List Char} : Misaligned (x :: a) [] :=
  .inl ⟨x :: a, List.cons_ne_nil x a, rfl⟩

theorem misaligned_cons_cons {x y : Char} {a b : List Char} :
    Misaligned (x :: a) (y :: b) ↔ x = y ∧ Misaligned a b := by
  constructor
  · rintro (⟨rest, hne, heq⟩ | ⟨rest, heq, hcount⟩)
    · obtain ⟨rfl, rfl⟩ := List.cons.inj heq
      exact ⟨rfl, .inl ⟨rest, hne, rfl⟩⟩
    · obtain ⟨rfl, rfl⟩ := List.cons.inj heq
      exact ⟨rfl, .inr ⟨rest, rfl, hcount⟩⟩
  · rintro ⟨rfl, ⟨rest, hne, rfl⟩ | ⟨rest, rfl, hcount⟩⟩
    · exact .inl ⟨rest, hne, rfl⟩
    · exact .inr ⟨rest, rfl, hcount⟩

theorem lt_Z_of_isDigit (h : c.isDigit = true) : c < 'Z' := by
  obtain ⟨-, hle⟩ := Char.isDigit_iff_toNat.mp h
  exact Char.lt_def.mpr (UInt32.lt_iff_toNat_lt.mpr (lt_of_le_of_lt hle (by decide)))

theorem cons_lt_Z (h : x < 'Z') (a : List Char) : x :: a < ['Z'] :=
  List.cons_lt_cons_iff.mpr (.inl h)

theorem not_Z_lt_cons (h : x < 'Z') (a : List Char) : ¬['Z'] < x :: a := by
  rw [List.cons_lt_cons_iff]
  rintro (hlt | ⟨rfl, -⟩)
  · exact Char.lt_asymm h hlt
  · exact Char.lt_irrefl _ h

/-- Digits that `Z` ends are in the order of their fractions unless they are misaligned. -/
theorem digits_lt_iff_iff {ds es : List Char} (hds : ∀ c ∈ ds, c.isDigit = true)
    (hes : ∀ c ∈ es, c.isDigit = true) :
    ((ds ++ ['Z'] < es ++ ['Z']) ↔ fractionValue ds < fractionValue es) ↔ ¬Misaligned ds es := by
  induction ds generalizing es with
  | nil =>
    cases es with
    | nil => simp [misaligned_nil_left, fractionValue]
    | cons e es =>
      -- the text of the first fraction goes on with `Z`, above the next digit
      have hnot : ¬([] ++ ['Z'] < e :: es ++ ['Z']) :=
        not_Z_lt_cons (lt_Z_of_isDigit (hes e List.mem_cons_self)) _
      have hcount : (∃ c ∈ e :: es, c.isDigit = true ∧ c ≠ '0') ↔ ∃ c ∈ e :: es, c ≠ '0' :=
        ⟨fun ⟨c, hc, _, hne⟩ => ⟨c, hc, hne⟩, fun ⟨c, hc, hne⟩ => ⟨c, hc, hes c hc, hne⟩⟩
      rw [misaligned_nil_left, hcount, ← fractionValue_pos_iff hes]
      exact ⟨fun h hpos => hnot (h.mpr hpos), fun h => iff_of_false hnot h⟩
  | cons d ds ih =>
    obtain ⟨hd, hds'⟩ := List.forall_mem_cons.mp hds
    cases es with
    | nil =>
      have hlt : d :: ds ++ ['Z'] < [] ++ ['Z'] := cons_lt_Z (lt_Z_of_isDigit hd) _
      have hnot : ¬fractionValue (d :: ds) < fractionValue [] := (fractionValue_nonneg _).not_gt
      exact iff_of_false (fun h => hnot (h.mp hlt)) fun h => h misaligned_nil_right
    | cons e es =>
      rw [fractionValue_cons_lt_cons_iff hds hes, List.cons_append, List.cons_append,
        List.cons_lt_cons_iff, misaligned_cons_cons]
      by_cases hde : d = e
      · subst hde
        simpa using ih hds' (List.forall_mem_cons.mp hes).2
      · simp [hde]

/-- The text of a fraction, with its decimal point. -/
def fractionText : Option (List Char) → List Char
  | none => []
  | some digits => '.' :: digits

theorem fractionText_lt_iff_iff {f g : Option (List Char)} (hf : ∀ c ∈ f.getD [], c.isDigit = true)
    (hg : ∀ c ∈ g.getD [], c.isDigit = true) :
    ((fractionText f ++ ['Z'] < fractionText g ++ ['Z']) ↔
      fractionValue (f.getD []) < fractionValue (g.getD [])) ↔
        ¬Misaligned (fractionText f) (fractionText g) := by
  -- the point is below the letter: a time with a fraction is below the one without
  have hpoint : '.' < 'Z' := by decide
  cases f with
  | none =>
    cases g with
    | none => simp [fractionText, misaligned_nil_left]
    | some es =>
      have hnot : ¬(fractionText none ++ ['Z'] < fractionText (some es) ++ ['Z']) :=
        not_Z_lt_cons hpoint _
      have hcount : (∃ c ∈ '.' :: es, c.isDigit = true ∧ c ≠ '0') ↔ ∃ c ∈ es, c ≠ '0' := by
        rw [List.exists_mem_cons_iff]
        refine ⟨?_, fun ⟨c, hc, hne⟩ => .inr ⟨c, hc, hg c hc, hne⟩⟩
        rintro (⟨hdigit, -⟩ | ⟨c, hc, -, hne⟩)
        · exact absurd hdigit (by decide)
        · exact ⟨c, hc, hne⟩
      have hpos : 0 < fractionValue es ↔ ∃ c ∈ es, c ≠ '0' := fractionValue_pos_iff hg
      rw [fractionText, fractionText, misaligned_nil_left, hcount, ← hpos]
      exact ⟨fun h hpos => hnot (h.mpr hpos), fun h => iff_of_false hnot h⟩
  | some ds =>
    cases g with
    | none =>
      have hlt : fractionText (some ds) ++ ['Z'] < fractionText none ++ ['Z'] := cons_lt_Z hpoint _
      have hnot : ¬fractionValue ds < fractionValue [] := (fractionValue_nonneg _).not_gt
      exact iff_of_false (fun h => hnot (h.mp hlt)) fun h => h misaligned_nil_right
    | some es =>
      rw [fractionText, fractionText, misaligned_cons_cons, List.cons_append, List.cons_append,
        List.cons_lt_cons_iff]
      simpa using digits_lt_iff_iff hf hg

/-! ### The parts of a timestamp text -/

namespace TimestampFields

/-- `YYYY-MM-DD`. -/
def dateChars (t : TimestampFields) : List Char :=
  padDigits 4 t.year ++ '-' :: (padDigits 2 t.month ++ '-' :: padDigits 2 t.day)

/-- `hh:mm:ss`. -/
def timeChars (t : TimestampFields) : List Char :=
  padDigits 2 t.hour ++ ':' :: (padDigits 2 t.minute ++ ':' :: padDigits 2 t.second)

/-- The text that was taken apart. -/
def chars (t : TimestampFields) : List Char :=
  t.dateChars ++ t.separator :: (t.timeChars ++ (fractionText t.fraction ++ ['Z']))

/-- The fields are those of a time in UTC. A sixtieth second is the last one of its day. -/
structure IsUtc (t : TimestampFields) : Prop where
  year : t.year < 10000
  date : IsDate t.year t.month t.day
  hour : t.hour ≤ 23
  minute : t.minute ≤ 59
  second : t.second ≤ 59 ∨ t.second = 60 ∧ t.hour = 23 ∧ t.minute = 59
  fraction : ∀ c ∈ t.fraction.getD [], c.isDigit = true

end TimestampFields

theorem drop_of_getElem? {α : Type*} {text : List α} {i : ℕ} {c : α} (h : text[i]? = some c) :
    text.drop i = c :: text.drop (i + 1) := by
  obtain ⟨hi, rfl⟩ := List.getElem?_eq_some_iff.mp h
  exact List.drop_eq_getElem_cons hi

variable {text : List Char}

/-- A number that is read at a place of a text is printed there. -/
theorem drop_of_decimal? {i width n : ℕ} (hlength : i + width ≤ text.length)
    (h : decimal? ((text.drop i).take width) = some n) :
    text.drop i = padDigits width n ++ text.drop (i + width) := by
  unfold decimal? at h
  split_ifs at h with hdigits
  obtain rfl := Option.some.inj h
  have hwidth : ((text.drop i).take width).length = width := by
    rw [List.length_take, List.length_drop]
    omega
  have hprint := padDigits_ofDigitChars (List.all_eq_true.mp hdigits.2)
  rw [hwidth] at hprint
  rw [hprint, ← List.drop_drop, List.take_append_drop]

theorem ofDigitChars_lt (h : ∀ c ∈ digits, c.isDigit = true) :
    Nat.ofDigitChars 10 digits 0 < 10 ^ digits.length := by
  induction digits using List.reverseRecOn with
  | nil => exact zero_lt_one
  | append_singleton digits c ih =>
    have hlt : c.toNat - '0'.toNat < 10 := digitValue_lt (h c (by simp))
    have hdigits := ih fun d hd => h d (List.mem_append_left _ hd)
    rw [Nat.ofDigitChars_append, Nat.ofDigitChars_cons, Nat.ofDigitChars_nil, List.length_append,
      List.length_singleton, pow_succ]
    omega

theorem lt_of_decimal? {n width : ℕ} (h : decimal? digits = some n)
    (hlength : digits.length ≤ width) : n < 10 ^ width := by
  unfold decimal? at h
  split_ifs at h with hdigits
  obtain rfl := Option.some.inj h
  exact (ofDigitChars_lt (List.all_eq_true.mp hdigits.2)).trans_le
    (Nat.pow_le_pow_right (by decide) hlength)

theorem splitFraction_eq_some {fraction : Option (List Char)}
    (h : splitFraction text = some fraction) :
    text = fractionText fraction ++ ['Z'] ∧ ∀ c ∈ fraction.getD [], c.isDigit = true := by
  unfold splitFraction at h
  split at h
  · obtain rfl := Option.some.inj h
    exact ⟨rfl, by simp⟩
  · rename_i rest
    split_ifs at h with hrest
    obtain rfl := Option.some.inj h
    obtain ⟨hlast, -, hdigits⟩ := hrest
    obtain ⟨init, rfl⟩ := List.getLast?_eq_some_iff.mp hlast
    rw [List.dropLast_concat] at hdigits ⊢
    exact ⟨rfl, List.all_eq_true.mp hdigits⟩
  · cases h

/-- A text that is taken apart is the text of its fields. -/
theorem splitTimestamp_eq_some {t : TimestampFields} (h : splitTimestamp text = some t) :
    text = t.chars ∧ t.year < 10000 ∧ ∀ c ∈ t.fraction.getD [], c.isDigit = true := by
  unfold splitTimestamp at h
  split_ifs at h with hpunctuation
  obtain ⟨h4, h7, h13, h16⟩ := hpunctuation
  simp only [Option.bind_eq_bind, Option.bind_eq_some_iff, Option.pure_def, Option.some.injEq] at h
  obtain ⟨year, hyear, month, hmonth, day, hday, separator, h10, hour, hhour, minute, hminute,
    second, hsecond, fraction, hfraction, rfl⟩ := h
  obtain ⟨htail, hdigits⟩ := splitFraction_eq_some hfraction
  -- the `Z` is at position 19 or behind the fraction
  have hlength : 19 < text.length := by
    by_contra hshort
    rw [List.drop_eq_nil_of_le (Nat.le_of_not_lt hshort)] at htail
    simp at htail
  refine ⟨?_, lt_of_decimal? hyear (List.length_take_le _ _), hdigits⟩
  have dyear := drop_of_decimal? (i := 0) (by omega) hyear
  have dmonth := drop_of_decimal? (by omega) hmonth
  have dday := drop_of_decimal? (by omega) hday
  have dhour := drop_of_decimal? (by omega) hhour
  have dminute := drop_of_decimal? (by omega) hminute
  have dsecond := drop_of_decimal? (by omega) hsecond
  rw [List.drop_zero] at dyear
  simp only [Nat.reduceAdd] at dyear dmonth dday dhour dminute dsecond
  rw [dyear, drop_of_getElem? h4, dmonth, drop_of_getElem? h7, dday, drop_of_getElem? h10, dhour,
    drop_of_getElem? h13, dminute, drop_of_getElem? h16, dsecond, htail]
  simp [TimestampFields.chars, TimestampFields.dateChars, TimestampFields.timeChars]

/-! ### Instants -/

/-- An instant of UTC: a day, a second of the day and a fraction of the second. A leap second is the
second after the last one of its day. -/
structure UtcInstant where
  day : ℕ
  second : ℕ
  fraction : ℚ
  deriving DecidableEq

/-- One instant is before another. -/
instance : LT UtcInstant where
  lt a b := a.day < b.day ∨
    a.day = b.day ∧ (a.second < b.second ∨ a.second = b.second ∧ a.fraction < b.fraction)

theorem UtcInstant.lt_iff {a b : UtcInstant} : a < b ↔ a.day < b.day ∨
    a.day = b.day ∧ (a.second < b.second ∨ a.second = b.second ∧ a.fraction < b.fraction) :=
  Iff.rfl

instance (a b : UtcInstant) : Decidable (a < b) :=
  decidable_of_iff _ UtcInstant.lt_iff.symm

/-- Dates are in the order of their day counts. -/
theorem daysFromCivil_lt_iff {y m d y' m' d' : ℕ} (h : IsDate y m d) (h' : IsDate y' m' d') :
    daysFromCivil y m d < daysFromCivil y' m' d' ↔
      y < y' ∨ y = y' ∧ (m < m' ∨ m = m' ∧ d < d') := by
  have key : ∀ {y m d y' m' d' : ℕ}, IsDate y m d → IsDate y' m' d' →
      (y < y' ∨ y = y' ∧ (m < m' ∨ m = m' ∧ d < d')) →
      daysFromCivil y m d < daysFromCivil y' m' d' := by
    intro y m d y' m' d' h h'
    have hday := daysFromCivil_day y m d
    have hday' := daysFromCivil_day y' m' d'
    rintro (hyear | ⟨rfl, hmonth | ⟨rfl, hd⟩⟩)
    · have hyears := daysFromCivil_year_lt hyear
      have hlast := h.within_year.2
      have hfirst := h'.within_year.1
      omega
    · have hmonths := daysFromCivil_month_lt y h.1 hmonth h'.2.1
      have hdays := h.2.2.2
      have hone := h'.2.2.1
      omega
    · omega
  refine ⟨fun hlt => ?_, key h h'⟩
  by_contra hnot
  -- otherwise the dates are the same, or in the other order
  have hother : (y = y' ∧ m = m' ∧ d = d') ∨ y' < y ∨ y' = y ∧ (m' < m ∨ m' = m ∧ d' < d) := by
    omega
  rcases hother with ⟨rfl, rfl, rfl⟩ | hother
  · omega
  · have hgt := key h' h hother
    omega

namespace TimestampFields

/-- The instant that the fields denote. -/
def instant (t : TimestampFields) : UtcInstant where
  day := daysFromCivil t.year t.month t.day
  second := 3600 * t.hour + 60 * t.minute + t.second
  fraction := fractionValue (t.fraction.getD [])

variable {s t : TimestampFields}

theorem append_cons_lt_iff {a a' b b' : List Char} {c : Char} (h : a.length = a'.length) :
    a ++ c :: b < a' ++ c :: b' ↔ a < a' ∨ a = a' ∧ b < b' := by
  have hirrefl : ¬c < c := Char.lt_irrefl c
  rw [append_lt_append_iff h, List.cons_lt_cons_iff]
  simp only [hirrefl, false_or, true_and]

theorem padDigits_eq_iff {width m n : ℕ} (hm : m < 10 ^ width) (hn : n < 10 ^ width) :
    padDigits width m = padDigits width n ↔ m = n :=
  ⟨padDigits_injective hm hn, fun h => by rw [h]⟩

/-- Numbers of fixed widths with the same character between them are compared one after the
other. -/
theorem padDigits_append_lt_iff {width m n : ℕ} {c : Char} {a b : List Char} (hm : m < 10 ^ width)
    (hn : n < 10 ^ width) :
    padDigits width m ++ c :: a < padDigits width n ++ c :: b ↔ m < n ∨ m = n ∧ a < b := by
  rw [append_cons_lt_iff (by simp), padDigits_lt_iff hm hn, padDigits_eq_iff hm hn]

theorem dateChars_lt_iff (hs : s.IsUtc) (ht : t.IsUtc) :
    s.dateChars < t.dateChars ↔ s.instant.day < t.instant.day := by
  have hsm := hs.date.2.1
  have htm := ht.date.2.1
  unfold dateChars instant
  rw [padDigits_append_lt_iff hs.year ht.year, padDigits_append_lt_iff (by omega) (by omega),
    padDigits_lt_iff hs.date.day_lt ht.date.day_lt, daysFromCivil_lt_iff hs.date ht.date]

theorem timeChars_lt_iff (hs : s.IsUtc) (ht : t.IsUtc) :
    s.timeChars < t.timeChars ↔ s.instant.second < t.instant.second := by
  obtain ⟨-, -, hsh, hsm, hss, -⟩ := hs
  obtain ⟨-, -, hth, htm, hts, -⟩ := ht
  unfold timeChars instant
  rw [padDigits_append_lt_iff (by omega) (by omega), padDigits_append_lt_iff (by omega) (by omega),
    padDigits_lt_iff (by omega) (by omega)]
  dsimp only
  omega

theorem dateChars_eq_iff (hs : s.IsUtc) (ht : t.IsUtc) :
    s.dateChars = t.dateChars ↔ s.instant.day = t.instant.day := by
  constructor
  · intro heq
    have hirrefl : ¬t.dateChars < t.dateChars := List.lt_irrefl _
    have hlt := mt (dateChars_lt_iff hs ht).mpr (heq ▸ hirrefl)
    have hgt := mt (dateChars_lt_iff ht hs).mpr (heq ▸ hirrefl)
    omega
  · intro heq
    -- the day count determines the date
    have hdate := congrArg civilFromDays heq
    rw [instant, instant, civilFromDays_daysFromCivil hs.date, civilFromDays_daysFromCivil ht.date,
      Prod.mk.injEq, Prod.mk.injEq] at hdate
    obtain ⟨hyear, hmonth, hday⟩ := hdate
    rw [dateChars, dateChars, hyear, hmonth, hday]

theorem timeChars_eq_iff (hs : s.IsUtc) (ht : t.IsUtc) :
    s.timeChars = t.timeChars ↔ s.instant.second = t.instant.second := by
  constructor
  · intro heq
    have hirrefl : ¬t.timeChars < t.timeChars := List.lt_irrefl _
    have hlt := mt (timeChars_lt_iff hs ht).mpr (heq ▸ hirrefl)
    have hgt := mt (timeChars_lt_iff ht hs).mpr (heq ▸ hirrefl)
    omega
  · intro heq
    obtain ⟨-, -, hsh, hsm, hss, -⟩ := hs
    obtain ⟨-, -, hth, htm, hts, -⟩ := ht
    simp only [instant] at heq
    have hhour : s.hour = t.hour := by omega
    have hminute : s.minute = t.minute := by omega
    have hsecond : s.second = t.second := by omega
    rw [timeChars, timeChars, hhour, hminute, hsecond]

/-- The order of the texts: date, separator, time of day, and what follows it. -/
theorem chars_lt_iff (hs : s.IsUtc) (ht : t.IsUtc) :
    s.chars < t.chars ↔ s.instant.day < t.instant.day ∨ s.instant.day = t.instant.day ∧
      (s.separator < t.separator ∨ s.separator = t.separator ∧
        (s.instant.second < t.instant.second ∨ s.instant.second = t.instant.second ∧
          fractionText s.fraction ++ ['Z'] < fractionText t.fraction ++ ['Z'])) := by
  unfold chars
  rw [append_lt_append_iff (by simp [dateChars]), List.cons_lt_cons_iff,
    append_lt_append_iff (by simp [timeChars]), dateChars_lt_iff hs ht, dateChars_eq_iff hs ht,
    timeChars_lt_iff hs ht, timeChars_eq_iff hs ht]

/-- The texts are of one day, and what stands after the date is not in the order of the instants:
the separators are in the other order, or all is the same up to fractions that are misaligned. -/
def Misordered (s t : TimestampFields) : Prop :=
  s.instant.day = t.instant.day ∧
    (s.separator < t.separator ∧ ¬s.instant < t.instant ∨
      t.separator < s.separator ∧ s.instant < t.instant ∨
      s.separator = t.separator ∧ s.instant.second = t.instant.second ∧
        Misaligned (fractionText s.fraction) (fractionText t.fraction))

/-- **The texts of two timestamps are in the order of their instants if and only if they are not
misordered.** -/
theorem chars_lt_iff_iff (hs : s.IsUtc) (ht : t.IsUtc) :
    (s.chars < t.chars ↔ s.instant < t.instant) ↔ ¬Misordered s t := by
  have hfraction : (fractionText s.fraction ++ ['Z'] < fractionText t.fraction ++ ['Z'] ↔
      s.instant.fraction < t.instant.fraction) ↔ _ :=
    fractionText_lt_iff_iff hs.fraction ht.fraction
  rw [chars_lt_iff hs ht]
  unfold Misordered
  -- the texts are compared part by part: the day, the separator, the second, the fraction
  rcases Nat.lt_trichotomy s.instant.day t.instant.day with hday | hday | hday
  · simp [UtcInstant.lt_iff, hday, hday.ne]
  · by_cases hlt : s.separator < t.separator
    · have hne : s.separator ≠ t.separator := fun heq => Char.lt_irrefl _ (heq ▸ hlt)
      simp [hday, hlt, hne, Char.lt_asymm hlt]
    · by_cases hgt : t.separator < s.separator
      · have hne : s.separator ≠ t.separator := fun heq => Char.lt_irrefl _ (heq ▸ hgt)
        simp [hday, hgt, hne, hlt]
      · have heq : s.separator = t.separator :=
          Char.le_antisymm (Char.not_lt.mp hgt) (Char.not_lt.mp hlt)
        rcases Nat.lt_trichotomy s.instant.second t.instant.second with hsec | hsec | hsec
        · simp [UtcInstant.lt_iff, hday, heq, hsec, hsec.ne]
        · simpa [UtcInstant.lt_iff, hday, heq, hsec] using hfraction
        · simp [UtcInstant.lt_iff, hday, heq, hsec.ne', hsec.asymm]
  · simp [UtcInstant.lt_iff, hday.ne', hday.asymm]

end TimestampFields

end Mipsorcu
