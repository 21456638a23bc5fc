import Mipsorcu.Database.LedgerValidation
import Mipsorcu.Foundation.TimestampOrder
import Mipsorcu.Ledger.Payload

/-!
# The server's and the database's checks of a payload

The payload of a ledger entry is checked by the server and by the database. The checks were written
separately: the one measures bytes, trims Unicode white space and parses RFC 3339, the other counts
characters, trims spaces and casts to its own types. They agree on the keys, on the shape of the
object and on most values. `LedgerPayload.isValid_iff` and `exists_payload_iff` say where they
differ, in the two directions.
-/

namespace Mipsorcu

/-! ### Texts -/

private theorem mem_dropWhile {α : Type} {p : α → Bool} {a : α} {l : List α} (h : a ∈ l)
    (hp : p a = false) : a ∈ l.dropWhile p := by
  induction l with
  | nil => cases h
  | cons x xs ih =>
    rw [List.dropWhile_cons]
    split
    · rcases List.mem_cons.mp h with rfl | hxs
      · simp_all
      · exact ih hxs
    · exact h

/-- A text that is short for the server is short for the database. -/
theorem Sql.isNonBlankShort_of_server {text : String} (h : Mipsorcu.isNonBlankShort text = true) :
    Sql.isNonBlankShort text = true := by
  simp only [Mipsorcu.isNonBlankShort, Bool.and_eq_true, Bool.not_eq_true', decide_eq_true_eq] at h
  obtain ⟨hblank, hbytes⟩ := h
  obtain ⟨c, hc, hprinted⟩ := List.all_eq_false.mp hblank
  have hspace : (c == ' ') = false := by
    rw [beq_eq_false_iff_ne]
    rintro rfl
    exact hprinted (by decide)
  have hkept : c ∈ ((text.toList.dropWhile (· == ' ')).reverse.dropWhile (· == ' ')).reverse :=
    List.mem_reverse.mpr (mem_dropWhile (List.mem_reverse.mpr (mem_dropWhile hc hspace)) hspace)
  have htrim : Sql.btrim text ≠ "" := by
    intro hempty
    rw [Sql.btrim, String.ofList_eq_empty_iff] at hempty
    rw [hempty] at hkept
    cases hkept
  have hlength := length_le_length_utf8Bytes text
  simp only [Sql.isNonBlankShort, Bool.and_eq_true, bne_iff_ne, decide_eq_true_eq]
  exact ⟨htrim, le_trans hlength hbytes⟩

/-- Sixty-four lower-case hexadecimal digits are the same for both. -/
theorem Sql.isHex64_eq (text : String) : Sql.isHex64 text = isLowerHex64 text := by
  by_cases hdigits : (text.toList.all fun c => c.isDigit || (97 ≤ c.toNat && c.toNat ≤ 102)) = true
  · have hascii : ∀ c ∈ text.toList, c.toNat < 128 := by
      intro c hc
      have hdigit := List.all_eq_true.mp hdigits c hc
      simp only [Bool.or_eq_true, Bool.and_eq_true, decide_eq_true_eq] at hdigit
      rcases hdigit with hdigit | ⟨-, hletter⟩
      · have hle : c.toNat ≤ 57 := (Char.isDigit_iff_toNat.mp hdigit).2
        omega
      · omega
    rw [Sql.isHex64, isLowerHex64, byteLength, length_utf8Bytes_of_ascii hascii]
  · simp only [Bool.not_eq_true] at hdigits
    rw [Sql.isHex64, isLowerHex64, hdigits, Bool.and_false, Bool.and_false]

/-- A month from 1 to 12 in two digits. -/
private theorem isMonth_iff (tens ones : Char) :
    ((tens = '0' ∧ '1' ≤ ones ∧ ones ≤ '9') ∨ (tens = '1' ∧ '0' ≤ ones ∧ ones ≤ '2')) ↔
      (tens.isDigit = true ∧ ones.isDigit = true) ∧
        1 ≤ Nat.ofDigitChars 10 [tens, ones] 0 ∧ Nat.ofDigitChars 10 [tens, ones] 0 ≤ 12 := by
  have hle : ∀ a b : Char, a ≤ b ↔ a.toNat ≤ b.toNat := fun _ _ => Iff.rfl
  have heq : ∀ a b : Char, a = b ↔ a.toNat = b.toNat := fun a b =>
    ⟨congrArg _, fun h => Char.toNat_inj.mp h⟩
  have hvalue : Nat.ofDigitChars 10 [tens, ones] 0 =
      10 * (tens.toNat - 48) + (ones.toNat - 48) := by
    simp [Nat.ofDigitChars_cons]
  rw [hvalue, Char.isDigit_iff_toNat, Char.isDigit_iff_toNat, hle, hle, hle, hle, heq, heq]
  have h0 : '0'.toNat = 48 := rfl
  have h1 : '1'.toNat = 49 := rfl
  have h2 : '2'.toNat = 50 := rfl
  have h9 : '9'.toNat = 57 := rfl
  rw [h0, h1, h2, h9]
  omega

/-- A year and a month are the same for both. -/
theorem Sql.isYearMonth_eq (text : String) : Sql.isYearMonth text = Mipsorcu.isYearMonth text := by
  rw [Sql.isYearMonth, Mipsorcu.isYearMonth]
  by_cases hlength : text.toList.length = 7
  · generalize text.toList = chars at hlength
    match chars, hlength with
    | [y₁, y₂, y₃, y₄, dash, tens, ones], _ =>
      have hmonth := isMonth_iff tens ones
      rw [Bool.eq_iff_iff]
      simp_all
      tauto
  · have hfalse : (text.toList.length == 7) = false := beq_eq_false_iff_ne.mpr hlength
    simp only [hfalse, Bool.false_and]

/-! ### Timestamps -/

/-- The texts of the server's timestamps that the database can cast: `T` between date and time, not
the year 0, and a sixtieth second only with a fraction that rounds to no microsecond, as the time of
day is at most 24:00:00. -/
def IsDatabaseTime (text : String) : Prop :=
  ∀ t ∈ splitTimestamp text.toList, t.separator = 'T' ∧ t.year ≠ 0 ∧
    (t.second = 60 → Sql.fractionMicros (t.fraction.getD []) = 0)

/-- A fraction rounds to at most one second. -/
theorem Sql.fractionMicros_le {digits : List Char} (h : ∀ c ∈ digits, c.isDigit = true) :
    fractionMicros digits ≤ 1000000 := by
  have hlt := ofDigitChars_lt h
  have hquotient : Nat.ofDigitChars 10 digits 0 * 1000000 / 10 ^ digits.length < 1000000 :=
    Nat.div_lt_of_lt_mul (Nat.mul_lt_mul_of_pos_right hlt (by decide))
  simp only [fractionMicros]
  split <;> omega

theorem castable_iff {text : List Char} {t : TimestampFields} (ht : splitTimestamp text = some t)
    (h : t.inRange = true ∨ (t.isLeapSecond = true ∧
      TimestampFields.inRange { t with second := 59 } = true)) :
    Sql.castable t = true ↔
      t.year ≠ 0 ∧ (t.second = 60 → Sql.fractionMicros (t.fraction.getD []) = 0) := by
  have hfraction := Sql.fractionMicros_le (splitTimestamp_eq_some ht).2.2
  simp only [TimestampFields.inRange, TimestampFields.isLeapSecond, Sql.castable, Bool.and_eq_true,
    decide_eq_true_eq, beq_iff_eq] at h ⊢
  rcases h with h | ⟨hleap, h⟩ <;> omega

theorem auditMetadataSourceEventAtIsValid_iff {text : String} (h : isUtcTimestamp text = true) :
    Sql.auditMetadataSourceEventAtIsValid text = true ↔ IsDatabaseTime text := by
  rw [isUtcTimestamp] at h
  rw [Sql.auditMetadataSourceEventAtIsValid, Sql.timestamptz, IsDatabaseTime]
  split at h
  · cases h
  · rename_i t ht
    simp only [Bool.and_eq_true, Bool.or_eq_true] at h
    have hcast := castable_iff ht h.2
    simp [ht, ← hcast]

/-- Keys whose value is a text of the caller's choice. -/
def freeTextPayloadKeys : List String :=
  ["classification", "error_code", "reason_code", "archive_key", "job_name", "detection_source",
    "dedupe_key", "notification_sink"]

/-- Keys whose value is a timestamp. -/
def timePayloadKeys : List String :=
  ["created_at", "activated_at", "retired_at"]

/-- A member the server accepts and the database, too: its time has the database's form. -/
def IsDatabaseMember (member : String × Json) : Prop :=
  member.1 ∈ timePayloadKeys → ∀ text, member.2 = .string text → IsDatabaseTime text

variable {value : Json}

theorem requireString_eq_ok {accepts : String → Bool} {expected key : String} {u : Unit} :
    requireString accepts expected key value = .ok u ↔
      ∃ text, value = .string text ∧ accepts text = true := by
  cases value <;> simp [requireString, Json.asStr, Result.require_eq_ok]

theorem Sql.isStringWhere_iff {accepts : String → Bool} :
    Sql.isStringWhere accepts value = true ↔
      ∃ text, value = .string text ∧ accepts text = true := by
  cases value <;> simp [Sql.isStringWhere]

theorem requireJsonU64_eq_ok {key expected : String} {n : ℕ} :
    requireJsonU64 key value expected = .ok n ↔
      value = .number (.posInt n) ∧ n ≤ ledgerI64Max := by
  unfold requireJsonU64
  cases value with
  | number number =>
    cases number with
    | posInt m =>
      simp only [Json.asU64]
      split_ifs with hmax
      · simp only [Json.number.injEq, JsonNumber.posInt.injEq, false_iff, not_and]
        omega
      · simp only [Except.ok.injEq, Json.number.injEq, JsonNumber.posInt.injEq]
        omega
    | _ => simp [Json.asU64]
  | _ => simp [Json.asU64]

theorem Sql.digitsBigint_eq_some {n : ℕ} :
    Sql.digitsBigint value = some n ↔ value = .number (.posInt n) ∧ n ≤ ledgerI64Max := by
  unfold Sql.digitsBigint
  split
  · split_ifs with hmax
    · simp only [Option.some.injEq, Json.number.injEq, JsonNumber.posInt.injEq, ledgerI64Max]
      omega
    · simp only [Json.number.injEq, JsonNumber.posInt.injEq, ledgerI64Max, false_iff, not_and]
      omega
  · rename_i hother
    simp only [reduceCtorEq, false_iff, not_and]
    rintro rfl
    exact absurd rfl (hother n)

variable {key : String}

/-- Positive numbers are the same for both. -/
theorem positiveField_iff :
    (do
      let parsed ← requirePositiveJsonU64 key value
      if key = "retention_limit" ∧ parsed ≠ 4 then
        .error (LedgerError.invalidPayloadField key "the integer 4")
      else .ok () : Except LedgerError Unit) = .ok () ↔
    (match Sql.digitsBigint value with
      | none => false
      | some n => decide (0 < n) && !(key == "retention_limit" && n != 4)) = true := by
  have hparse : ∀ n, requirePositiveJsonU64 key value = .ok n ↔
      Sql.digitsBigint value = some n ∧ 0 < n := by
    intro n
    rw [Sql.digitsBigint_eq_some, requirePositiveJsonU64, Result.bind_eq_ok]
    simp only [requireJsonU64_eq_ok]
    constructor
    · rintro ⟨m, hm, h⟩
      split_ifs at h with hzero
      obtain rfl := Except.ok.inj h
      exact ⟨hm, Nat.pos_of_ne_zero hzero⟩
    · rintro ⟨hn, hpos⟩
      exact ⟨n, hn, if_neg hpos.ne'⟩
  simp only [Result.bind_eq_ok, hparse]
  cases hdigits : Sql.digitsBigint value with
  | none => simp
  | some n => by_cases hkey : key = "retention_limit" <;> by_cases hfour : n = 4 <;>
      simp [hkey, hfour]

/-- What the two checks of a member require, by the kind of its key. -/
inductive MemberParity (key : String) (value : Json) : Prop
  | same (hfree : key ∉ freeTextPayloadKeys) (hcount : key ∉ nonNegativePayloadKeys)
      (htime : key ∉ timePayloadKeys)
      (h : validatePayloadField key value = .ok () ↔ Sql.payloadMemberIsValid (key, value) = true)
  | count (hkey : key ∈ nonNegativePayloadKeys) (hfree : key ∉ freeTextPayloadKeys)
      (htime : key ∉ timePayloadKeys)
      (hserver : validatePayloadField key value = .ok () ↔
        ∃ n, value = .number (.posInt n) ∧ n ≤ ledgerI64Max)
      (hdatabase : Sql.payloadMemberIsValid (key, value) = true ↔ ∃ n, value = .number (.posInt n))
  | text (hkey : key ∈ freeTextPayloadKeys) (hcount : key ∉ nonNegativePayloadKeys)
      (htime : key ∉ timePayloadKeys)
      (hserver : validatePayloadField key value = .ok () ↔
        ∃ text, value = .string text ∧ isNonBlankShort text = true)
      (hdatabase : Sql.payloadMemberIsValid (key, value) = true ↔
        ∃ text, value = .string text ∧ Sql.isNonBlankShort text = true)
  | time (hkey : key ∈ timePayloadKeys) (hfree : key ∉ freeTextPayloadKeys)
      (hcount : key ∉ nonNegativePayloadKeys)
      (hserver : validatePayloadField key value = .ok () ↔
        ∃ text, value = .string text ∧ isUtcTimestamp text = true)
      (hdatabase : Sql.payloadMemberIsValid (key, value) = true ↔
        ∃ text, value = .string text ∧ Sql.auditMetadataSourceEventAtIsValid text = true)

private theorem requireNonNegative_iff :
    (do
      let _ ← requireNonNegativeJsonU64 key value
      .ok () : Except LedgerError Unit) = .ok () ↔
      ∃ n, value = .number (.posInt n) ∧ n ≤ ledgerI64Max := by
  simp only [requireNonNegativeJsonU64, Result.bind_eq_ok, requireJsonU64_eq_ok, and_true]

private theorem isDigitsNumber_iff :
    Sql.isDigitsNumber value = true ↔ ∃ n, value = .number (.posInt n) := by
  cases value with
  | number number => cases number <;> simp [Sql.isDigitsNumber]
  | _ => simp [Sql.isDigitsNumber]

/-- The keys of the two numeric classes are those of the server. -/
private theorem payloadMemberIsValid_eq (key : String) (value : Json) :
    Sql.payloadMemberIsValid (key, value) =
      if key ∈ positivePayloadKeys then
        match Sql.digitsBigint value with
        | none => false
        | some n => decide (0 < n) && !(key == "retention_limit" && n != 4)
      else if key ∈ nonNegativePayloadKeys then Sql.isDigitsNumber value
      else if key ∈ timePayloadKeys then
        Sql.isStringWhere Sql.auditMetadataSourceEventAtIsValid value
      else if key ∈ freeTextPayloadKeys then Sql.isStringWhere Sql.isNonBlankShort value
      else Sql.payloadMemberIsValid (key, value) := by
  have hpositive : key ∈ positivePayloadKeys ↔ key ∈ ["version", "key_version", "old_key_version",
      "new_key_version", "retention_limit", "start_sequence_no", "end_sequence_no", "entry_count",
      "target_sequence_no", "signature_key_version"] := by
    simp only [positivePayloadKeys, List.mem_cons, List.not_mem_nil, or_false]
    tauto
  split_ifs with hpos hcount htime hfree
  · exact if_pos (hpositive.mp hpos)
  · rw [Sql.payloadMemberIsValid, if_neg (hpositive.not.mp hpos), if_pos]
    exact (by decide : ∀ k ∈ nonNegativePayloadKeys, k ∈ ["batch_size",
      "checked_audit_event_count", "checked_count", "checked_secret_count",
      "checked_secret_version_count", "duration_ms", "entry_count", "failed_count",
      "failure_count", "processed_count", "remaining_count", "resent_count", "sample_count",
      "success_count", "violation_count"]) key hcount
  · simp only [timePayloadKeys, List.mem_cons, List.not_mem_nil, or_false] at htime
    rcases htime with rfl | rfl | rfl <;> simp [Sql.payloadMemberIsValid]
  · simp only [freeTextPayloadKeys, List.mem_cons, List.not_mem_nil, or_false] at hfree
    rcases hfree with rfl | rfl | rfl | rfl | rfl | rfl | rfl | rfl <;>
      simp [Sql.payloadMemberIsValid]
  · rfl

/-- The remaining keys, each with its own check, are the same for both. -/
private theorem validatePayloadField_of_other (hpos : key ∉ positivePayloadKeys)
    (hcount : key ∉ nonNegativePayloadKeys) (hfree : key ∉ freeTextPayloadKeys)
    (htime : key ∉ timePayloadKeys) :
    validatePayloadField key value = .ok () ↔ Sql.payloadMemberIsValid (key, value) = true := by
  by_cases hnamed : key ∈ ["algorithm", "trigger", "incident_type", "severity",
      "notification_result", "target_year_month", "digest_hash", "timestamp_token_hash",
      "public_key_fingerprint"]
  · simp only [List.mem_cons, List.not_mem_nil, or_false] at hnamed
    rcases hnamed with rfl | rfl | rfl | rfl | rfl | rfl | rfl | rfl | rfl <;>
      simp [validatePayloadField, positivePayloadKeys, nonNegativePayloadKeys,
        Sql.payloadMemberIsValid, requireStringValue, validateTriggerValue,
        validateIncidentTypeValue, validateStringEnumValue, validateYearMonthValue,
        validateDigestHashValue, requireString_eq_ok, Sql.isStringWhere_iff, Sql.isYearMonth_eq,
        Sql.isHex64_eq]
    -- the database lists the triggers in another order
    constructor
    · rintro ⟨text, rfl, h⟩
      exact ⟨text, rfl, by tauto⟩
    · rintro ⟨text, rfl, h⟩
      exact ⟨text, rfl, by tauto⟩
  · simp only [List.mem_cons, List.not_mem_nil, or_false, not_or, positivePayloadKeys,
      nonNegativePayloadKeys, freeTextPayloadKeys, timePayloadKeys]
      at hnamed hpos hcount hfree htime
    simp [validatePayloadField, positivePayloadKeys, nonNegativePayloadKeys,
      Sql.payloadMemberIsValid, hnamed, hpos, hcount, hfree, htime]

theorem memberParity (key : String) (value : Json) : MemberParity key value := by
  -- the lists of keys are disjoint, so each branch passes over the others
  by_cases hcount : key ∈ nonNegativePayloadKeys
  · obtain ⟨hpos, hfree, htime⟩ := (by decide : ∀ k ∈ nonNegativePayloadKeys,
      k ∉ positivePayloadKeys ∧ k ∉ freeTextPayloadKeys ∧ k ∉ timePayloadKeys) key hcount
    refine .count hcount hfree htime ?_ ?_
    · rw [validatePayloadField, if_neg hpos, if_pos hcount]
      exact requireNonNegative_iff
    · rw [payloadMemberIsValid_eq, if_neg hpos, if_pos hcount]
      exact isDigitsNumber_iff
  by_cases htime : key ∈ timePayloadKeys
  · obtain ⟨hpos, hfree⟩ := (by decide : ∀ k ∈ timePayloadKeys,
      k ∉ positivePayloadKeys ∧ k ∉ freeTextPayloadKeys) key htime
    refine .time htime hfree hcount ?_ ?_
    · simp only [timePayloadKeys, List.mem_cons, List.not_mem_nil, or_false] at htime
      rcases htime with rfl | rfl | rfl <;>
        simp [validatePayloadField, positivePayloadKeys, nonNegativePayloadKeys,
          validateSourceEventAtValue, requireString_eq_ok]
    · rw [payloadMemberIsValid_eq, if_neg hpos, if_neg hcount, if_pos htime]
      exact Sql.isStringWhere_iff
  by_cases hfree : key ∈ freeTextPayloadKeys
  · have hpos := (by decide : ∀ k ∈ freeTextPayloadKeys, k ∉ positivePayloadKeys) key hfree
    refine .text hfree hcount htime ?_ ?_
    · simp only [freeTextPayloadKeys, List.mem_cons, List.not_mem_nil, or_false] at hfree
      rcases hfree with rfl | rfl | rfl | rfl | rfl | rfl | rfl | rfl <;>
        simp [validatePayloadField, positivePayloadKeys, nonNegativePayloadKeys,
          validateClassificationValue, validateNonBlankShortString, requireString_eq_ok]
    · rw [payloadMemberIsValid_eq, if_neg hpos, if_neg hcount, if_neg htime, if_pos hfree]
      exact Sql.isStringWhere_iff
  refine .same hfree hcount htime ?_
  by_cases hpos : key ∈ positivePayloadKeys
  · rw [validatePayloadField, if_pos hpos, payloadMemberIsValid_eq, if_pos hpos]
    exact positiveField_iff
  · exact validatePayloadField_of_other hpos hcount hfree htime

/-- **From the server to the database**, for one member. -/
theorem payloadMemberIsValid_iff (h : validatePayloadField key value = .ok ()) :
    Sql.payloadMemberIsValid (key, value) = true ↔ IsDatabaseMember (key, value) := by
  cases memberParity key value with
  | same _ _ htime hsame =>
    exact iff_of_true (hsame.mp h) fun hkey => absurd hkey htime
  | count _ _ htime hserver hdatabase =>
    obtain ⟨n, hn, -⟩ := hserver.mp h
    exact iff_of_true (hdatabase.mpr ⟨n, hn⟩) fun hkey => absurd hkey htime
  | text _ _ htime hserver hdatabase =>
    obtain ⟨text, htext, hshort⟩ := hserver.mp h
    exact iff_of_true (hdatabase.mpr ⟨text, htext, Sql.isNonBlankShort_of_server hshort⟩)
      fun hkey => absurd hkey htime
  | time hkey _ _ hserver hdatabase =>
    obtain ⟨text, rfl, hutc⟩ := hserver.mp h
    rw [hdatabase]
    constructor
    · rintro ⟨_, ⟨⟩, hvalid⟩ - _ ⟨⟩
      exact (auditMetadataSourceEventAtIsValid_iff hutc).mp hvalid
    · intro hmember
      exact ⟨text, rfl, (auditMetadataSourceEventAtIsValid_iff hutc).mpr (hmember hkey text rfl)⟩

/-- The keys an incident payload has to have. -/
def requiredIncidentKeys : List String :=
  ["incident_type", "severity", "detection_source", "dedupe_key", "notification_sink",
    "notification_result"]

/-- What both checks require of the members together: keys the type allows, scalar values, the
keys of an incident, and two different key versions. -/
structure PayloadShape (t : LedgerEntryType) (members : List (String × Json)) : Prop where
  allowed : ∀ m ∈ members, m.1 ∈ t.allowedPayloadKeys
  scalar : ∀ m ∈ members, m.2.isContainer = false
  required : t = .incidentDetected → ∀ key ∈ requiredIncidentKeys, ∃ value, (key, value) ∈ members
  distinct : ∀ old new, ("old_key_version", old) ∈ members → ("new_key_version", new) ∈ members →
    old ≠ new

/-- A word of lower-case letters, digits and underscores. -/
def isLowerWord (text : String) : Bool :=
  text.toList.all fun c => (97 ≤ c.toNat && c.toNat ≤ 122) || (48 ≤ c.toNat && c.toNat ≤ 57) ||
    c.toNat == 95

theorem dropWhile_eq_self {α : Type} {p : α → Bool} {l : List α}
    (h : ∀ a ∈ l, p a = false) : l.dropWhile p = l := by
  cases l with
  | nil => rfl
  | cons a l => rw [List.dropWhile_cons, h a List.mem_cons_self]; rfl

private theorem ofList_dropWhile_eq_self {p : Char → Bool} {text : String}
    (h : ∀ c ∈ text.toList, p c = false) :
    String.ofList ((text.toList.dropWhile p).reverse.dropWhile p).reverse = text := by
  rw [dropWhile_eq_self h, dropWhile_eq_self (fun c hc => h c (List.mem_reverse.mp hc)),
    List.reverse_reverse, String.ofList_toList]

section

variable {text : String}

theorem range_of_isLowerWord (h : isLowerWord text = true) {c : Char}
    (hc : c ∈ text.toList) : (97 ≤ c.toNat ∧ c.toNat ≤ 122) ∨ (48 ≤ c.toNat ∧ c.toNat ≤ 57) ∨
      c.toNat = 95 := by
  have hchar := List.all_eq_true.mp h c hc
  simp only [Bool.or_eq_true, Bool.and_eq_true, decide_eq_true_eq, beq_iff_eq] at hchar
  omega

theorem trim_of_isLowerWord (h : isLowerWord text = true) : trim text = text := by
  refine ofList_dropWhile_eq_self fun c hc => ?_
  have hrange := range_of_isLowerWord h hc
  rw [← Bool.not_eq_true]
  simp only [isWhiteSpace, Bool.or_eq_true, Bool.and_eq_true, decide_eq_true_eq, beq_iff_eq]
  omega

theorem btrim_of_isLowerWord (h : isLowerWord text = true) : Sql.btrim text = text := by
  refine ofList_dropWhile_eq_self fun c hc => ?_
  have hrange := range_of_isLowerWord h hc
  rw [beq_eq_false_iff_ne]
  rintro rfl
  have hspace : ' '.toNat = 32 := rfl
  omega

theorem toAsciiLowercase_of_isLowerWord (h : isLowerWord text = true) :
    toAsciiLowercase text = text := by
  have hmap : (text.toList.map fun c => if 65 ≤ c.toNat ∧ c.toNat ≤ 90 then
      Char.ofNat (c.toNat + 32) else c) = text.toList := by
    refine (List.map_congr_left fun c hc => if_neg ?_).trans (List.map_id' _)
    have hrange := range_of_isLowerWord h hc
    omega
  rw [toAsciiLowercase, hmap, String.ofList_toList]

end

/-- The allowed keys are words, and none of them is forbidden. -/
theorem allowedPayloadKeys_words {t : LedgerEntryType} (h : key ∈ t.allowedPayloadKeys) :
    isLowerWord key = true ∧ key ∉ forbiddenLedgerPayloadKeys := by
  have hall : ∀ k ∈ t.allowedPayloadKeys,
      isLowerWord k = true ∧ k ∉ forbiddenLedgerPayloadKeys := by
    cases t <;> decide +kernel
  exact hall key h

theorem not_isForbiddenPayloadKey {t : LedgerEntryType} (h : key ∈ t.allowedPayloadKeys) :
    isForbiddenPayloadKey key = false := by
  obtain ⟨hword, hallowed⟩ := allowedPayloadKeys_words h
  rw [isForbiddenPayloadKey, trim_of_isLowerWord hword, toAsciiLowercase_of_isLowerWord hword]
  exact decide_eq_false hallowed

private theorem rejectForbiddenMembers_of_scalar {members : List (String × Json)}
    (h : ∀ m ∈ members, isForbiddenPayloadKey m.1 = false ∧ m.2.isContainer = false) :
    rejectForbiddenMembers members = .ok () := by
  induction members with
  | nil => rfl
  | cons m members ih =>
    obtain ⟨⟨hkey, hscalar⟩, hrest⟩ := List.forall_mem_cons.mp h
    have hvalue : rejectForbiddenPayloadKeys m.2 = .ok () := by
      obtain ⟨key, value⟩ := m
      cases value <;> first | rfl | cases hscalar
    rw [rejectForbiddenMembers, rejectForbiddenMember, hkey, hvalue]
    exact ih hrest

/-- Positive numbers are equal if they are the same value. -/
private theorem positive_of_validate (hkey : key ∈ positivePayloadKeys)
    (h : validatePayloadField key value = .ok ()) :
    ∃ n, value = .number (.posInt n) ∧ requirePositiveJsonU64 key value = .ok n := by
  rw [validatePayloadField, if_pos hkey, Result.bind_eq_ok] at h
  obtain ⟨n, hn, -⟩ := h
  refine ⟨n, ?_, hn⟩
  rw [requirePositiveJsonU64, Result.bind_eq_ok] at hn
  obtain ⟨m, hm, hn⟩ := hn
  split_ifs at hn
  obtain rfl := Except.ok.inj hn
  exact (requireJsonU64_eq_ok.mp hm).1

variable {object : List (String × Json)}

theorem canonicalPayloadObject_eq {t : LedgerEntryType} (hsorted : SortedMap.Sorted object)
    (h : ∀ m ∈ object, m.1 ∈ t.allowedPayloadKeys) : canonicalPayloadObject t object = object :=
  SortedMap.filterMap_get?_eq_self hsorted t.allowedPayloadKeys_sorted h

private theorem oldKeyVersion_mem : "old_key_version" ∈ positivePayloadKeys := by decide

private theorem newKeyVersion_mem : "new_key_version" ∈ positivePayloadKeys := by decide

/-- The old and the new key version of a payload differ as numbers if they differ as values. -/
private theorem validateOldNewKeyVersions_iff (hsorted : SortedMap.Sorted object)
    (hfields : ∀ m ∈ object, validatePayloadField m.1 m.2 = .ok ()) :
    validateOldNewKeyVersions object = .ok () ↔ ∀ old new, ("old_key_version", old) ∈ object →
      ("new_key_version", new) ∈ object → old ≠ new := by
  simp only [← SortedMap.get?_eq_some hsorted]
  rw [validateOldNewKeyVersions]
  split
  · rename_i old new hold hnew
    obtain ⟨m, rfl, hm⟩ := positive_of_validate oldKeyVersion_mem
      (hfields _ ((SortedMap.get?_eq_some hsorted).mp hold))
    obtain ⟨n, rfl, hn⟩ := positive_of_validate newKeyVersion_mem
      (hfields _ ((SortedMap.get?_eq_some hsorted).mp hnew))
    rw [hm, hn, Result.ok_bind, Result.ok_bind, hold, hnew]
    split_ifs with hsame
    · exact iff_of_false nofun fun h => h _ _ rfl rfl (by rw [hsame])
    · refine iff_of_true rfl ?_
      rintro _ _ ⟨⟩ ⟨⟩ hvalues
      exact hsame (JsonNumber.posInt.inj (Json.number.inj hvalues))
  · rename_i hnone
    refine iff_of_true rfl fun old new hold hnew => ?_
    exact absurd hnew (hnone old new hold)

private theorem validateRequiredPayloadKeys_iff {t : LedgerEntryType}
    (hsorted : SortedMap.Sorted object) :
    validateRequiredPayloadKeys t object = .ok () ↔ (t = .incidentDetected →
      ∀ key ∈ requiredIncidentKeys, ∃ value, (key, value) ∈ object) := by
  have hget : ∀ key, (SortedMap.get? object key).isSome = true ↔
      ∃ value, (key, value) ∈ object := by
    intro key
    simp only [Option.isSome_iff_exists, SortedMap.get?_eq_some hsorted]
  rw [validateRequiredPayloadKeys]
  split_ifs with ht
  · exact iff_of_true rfl fun h => absurd h ht
  · simp only [Result.forEach_eq_ok, Result.require_eq_ok, hget]
    exact ⟨fun h _ => h, fun h => h (not_not.mp ht)⟩

/-- **The server's check of a payload.** -/
theorem checkPayload_eq_ok {t : LedgerEntryType} {object : List (String × Json)}
    (hsorted : SortedMap.Sorted object) :
    checkPayload t object = .ok () ↔ PayloadShape t object ∧
      (∀ m ∈ object, validatePayloadField m.1 m.2 = .ok ()) ∧
      (Json.object object).toBytes.length ≤ ledgerPayloadMaxCanonicalBytes := by
  have hmember : ∀ m, validatePayloadMember t m = .ok () ↔ m.1 ∈ t.allowedPayloadKeys ∧
      m.2.isContainer = false ∧ validatePayloadField m.1 m.2 = .ok () := by
    intro m
    simp [validatePayloadMember, Result.require_eq_ok]
  have hunit : ∀ {x y : Except LedgerError Unit},
      (x >>= fun _ => y) = .ok () ↔ x = .ok () ∧ y = .ok () := by
    intro x y
    cases x <;> simp [bind, Except.bind]
  simp only [checkPayload, validatePayloadObject, hunit, Result.forEach_eq_ok, hmember,
    validateRequiredPayloadKeys_iff hsorted, ensurePayloadSize, Result.require_eq_ok,
    decide_eq_true_eq]
  -- the allowed keys are no forbidden ones, so that scan adds nothing
  constructor
  · rintro ⟨-, ⟨hmembers, hrequired, hversions⟩, hsize⟩
    have hfields : ∀ m ∈ object, validatePayloadField m.1 m.2 = .ok () :=
      fun m hm => (hmembers m hm).2.2
    rw [canonicalPayloadObject_eq hsorted fun m hm => (hmembers m hm).1] at hsize
    exact ⟨⟨fun m hm => (hmembers m hm).1, fun m hm => (hmembers m hm).2.1, hrequired,
      (validateOldNewKeyVersions_iff hsorted hfields).mp hversions⟩, hfields, hsize⟩
  · rintro ⟨hshape, hfields, hsize⟩
    rw [canonicalPayloadObject_eq hsorted hshape.allowed]
    refine ⟨rejectForbiddenMembers_of_scalar fun m hm =>
      ⟨not_isForbiddenPayloadKey (hshape.allowed m hm), hshape.scalar m hm⟩,
      ⟨fun m hm => ⟨hshape.allowed m hm, hshape.scalar m hm, hfields m hm⟩, hshape.required,
        (validateOldNewKeyVersions_iff hsorted hfields).mpr hshape.distinct⟩, hsize⟩

/-- What is assumed of `lower`: it leaves words of lower-case letters alone. -/
def Postgres.LowerKeepsWords (pg : Postgres) : Prop :=
  ∀ text, isLowerWord text = true → pg.lower text = text

section

variable {pg : Postgres} {t : LedgerEntryType} {members : List (String × Json)}

theorem Sql.ledgerPayloadAllowedKeys_asStr (t : LedgerEntryType) :
    Sql.ledgerPayloadAllowedKeys t.asStr = some t.allowedPayloadKeys := by
  cases t <;> decide +kernel

theorem Sql.ledgerEntryTypeAllowed_asStr (t : LedgerEntryType) :
    Sql.ledgerEntryTypeAllowed t.asStr = true := by
  cases t <;> decide +kernel

theorem Sql.ledgerPayloadHasUnknownKey_asStr :
    Sql.ledgerPayloadHasUnknownKey t.asStr members = false ↔
      ∀ m ∈ members, m.1 ∈ t.allowedPayloadKeys := by
  simp [Sql.ledgerPayloadHasUnknownKey, Sql.ledgerPayloadAllowedKeys_asStr]

theorem Sql.hasForbiddenMember_of_shape (hlower : pg.LowerKeepsWords)
    (hallowed : ∀ m ∈ members, m.1 ∈ t.allowedPayloadKeys)
    (hscalar : ∀ m ∈ members, m.2.isContainer = false) :
    Sql.hasForbiddenMember pg members = false := by
  induction members with
  | nil => rfl
  | cons m members ih =>
    obtain ⟨hkey, hkeys⟩ := List.forall_mem_cons.mp hallowed
    obtain ⟨hvalue, hvalues⟩ := List.forall_mem_cons.mp hscalar
    obtain ⟨key, value⟩ := m
    obtain ⟨hword, hforbidden⟩ := allowedPayloadKeys_words hkey
    have hnested : Sql.ledgerPayloadHasForbiddenKey pg value = false := by
      cases value <;> first | rfl | cases hvalue
    have hlisted : Sql.ledgerForbiddenKeys.contains key = false := by
      rw [← Bool.not_eq_true, List.contains_iff_mem]
      exact hforbidden
    rw [Sql.hasForbiddenMember, Sql.isForbiddenMember, btrim_of_isLowerWord hword,
      hlower key hword, hlisted, hnested, ih hkeys hvalues]
    rfl

/-- Looking a key up among distinct keys. -/
private theorem lookup_eq_some_iff (hnodup : (members.map Prod.fst).Nodup) {key : String}
    {value : Json} : members.lookup key = some value ↔ (key, value) ∈ members := by
  induction members with
  | nil => simp
  | cons m members ih =>
    obtain ⟨k, v⟩ := m
    obtain ⟨hfresh, hrest⟩ := List.nodup_cons.mp hnodup
    rw [List.lookup_cons, List.mem_cons]
    by_cases hkey : key = k
    · subst hkey
      have hnot : (key, value) ∉ members := fun hmem =>
        hfresh (List.mem_map.mpr ⟨_, hmem, rfl⟩)
      simp [hnot, eq_comm]
    · have hbeq : (key == k) = false := beq_eq_false_iff_ne.mpr hkey
      rw [hbeq]
      simp [ih hrest, hkey]

private theorem isPositive_of_payloadMember {key : String} {value : Json}
    (hkey : key ∈ positivePayloadKeys) (h : Sql.payloadMemberIsValid (key, value) = true) :
    ∃ n, value = .number (.posInt n) ∧ Sql.digitsBigint value = some n := by
  rw [payloadMemberIsValid_eq, if_pos hkey] at h
  cases hdigits : Sql.digitsBigint value with
  | none => rw [hdigits] at h; cases h
  | some n => exact ⟨n, (Sql.digitsBigint_eq_some.mp hdigits).1, rfl⟩

private theorem oldNewMatch_iff (hnodup : (members.map Prod.fst).Nodup)
    (hfields : ∀ m ∈ members, Sql.payloadMemberIsValid m = true) :
    (match members.lookup "old_key_version", members.lookup "new_key_version" with
      | some old, some new => Sql.digitsBigint old != Sql.digitsBigint new
      | _, _ => true) = true ↔
    ∀ old new, ("old_key_version", old) ∈ members → ("new_key_version", new) ∈ members →
      old ≠ new := by
  simp only [← lookup_eq_some_iff hnodup]
  split
  · rename_i old new hold hnew
    obtain ⟨m, rfl, hm⟩ := isPositive_of_payloadMember oldKeyVersion_mem
      (hfields _ ((lookup_eq_some_iff hnodup).mp hold))
    obtain ⟨n, rfl, hn⟩ := isPositive_of_payloadMember newKeyVersion_mem
      (hfields _ ((lookup_eq_some_iff hnodup).mp hnew))
    rw [hm, hn, hold, hnew, bne_iff_ne]
    constructor
    · rintro hne _ _ ⟨⟩ ⟨⟩ hvalues
      exact hne (by rw [JsonNumber.posInt.inj (Json.number.inj hvalues)])
    · intro h hsame
      exact h _ _ rfl rfl (by rw [Option.some.inj hsame])
  · rename_i hnone
    refine iff_of_true rfl fun old new hold hnew => ?_
    exact absurd hnew (hnone old new hold)

private theorem requiredKeys_iff (hnodup : (members.map Prod.fst).Nodup) :
    (t.asStr != "incident_detected" ||
      requiredIncidentKeys.all fun key => (members.lookup key).isSome) = true ↔
    (t = .incidentDetected → ∀ key ∈ requiredIncidentKeys, ∃ value, (key, value) ∈ members) := by
  have hname : t.asStr = "incident_detected" ↔ t = .incidentDetected :=
    ⟨fun h => LedgerEntryType.asStr_injective h, fun h => by rw [h]; rfl⟩
  simp only [Bool.or_eq_true, bne_iff_ne, ne_eq, hname, List.all_eq_true,
    Option.isSome_iff_exists, lookup_eq_some_iff hnodup]
  tauto

/-- **The database's check of a payload.** -/
theorem Sql.ledgerPayloadIsValid_iff (hlower : pg.LowerKeepsWords)
    (hnodup : (members.map Prod.fst).Nodup) :
    Sql.ledgerPayloadIsValid pg t.asStr (.object members) = true ↔
      pg.pgColumnSize (.object members) ≤ 8192 ∧ PayloadShape t members ∧
      ∀ m ∈ members, Sql.payloadMemberIsValid m = true := by
  have hscalars : ∀ check : String × Json → Bool, (∀ m, check m = !m.2.isContainer) →
      (members.all check = true ↔ ∀ m ∈ members, m.2.isContainer = false) := by
    intro check hcheck
    simp [List.all_eq_true, hcheck]
  have hrequired := @requiredKeys_iff t members hnodup
  simp only [requiredIncidentKeys] at hrequired
  simp only [Sql.ledgerPayloadIsValid, Sql.ledgerPayloadSchemaIsValid, Bool.and_eq_true,
    Bool.not_eq_true', decide_eq_true_eq, Sql.ledgerEntryTypeAllowed_asStr,
    Sql.ledgerPayloadHasUnknownKey_asStr, Sql.ledgerPayloadHasForbiddenKey, hrequired,
    true_and]
  rw [hscalars _ fun m => by cases m.2 <;> rfl]
  constructor
  · rintro ⟨⟨⟨⟨hsize, -⟩, -⟩, hallowed⟩, ⟨⟨⟨-, hscalar⟩, hkeys⟩, hfields⟩, hversions⟩
    have hmembers := List.all_eq_true.mp hfields
    exact ⟨hsize, ⟨hallowed, hscalar, hkeys, (oldNewMatch_iff hnodup hmembers).mp hversions⟩,
      hmembers⟩
  · rintro ⟨hsize, hshape, hmembers⟩
    exact ⟨⟨⟨⟨hsize, trivial⟩, Sql.hasForbiddenMember_of_shape hlower hshape.allowed hshape.scalar⟩,
      hshape.allowed⟩, ⟨⟨⟨hshape.allowed, hshape.scalar⟩, hshape.required⟩,
      List.all_eq_true.mpr hmembers⟩, (oldNewMatch_iff hnodup hmembers).mpr hshape.distinct⟩

/-- **From the server to the database**, for a payload. -/
theorem LedgerPayload.isValid_iff (hlower : pg.LowerKeepsWords) (p : LedgerPayload) :
    Sql.ledgerPayloadIsValid pg p.entryType.asStr p.asValue = true ↔
      pg.pgColumnSize p.asValue ≤ 8192 ∧ ∀ m ∈ p.object, IsDatabaseMember m := by
  obtain ⟨hshape, hfields, -⟩ := (checkPayload_eq_ok p.sorted).mp p.valid
  rw [LedgerPayload.asValue, Sql.ledgerPayloadIsValid_iff hlower p.sorted.nodup_keys,
    and_iff_right hshape]
  exact and_congr_right fun _ => forall₂_congr fun m hm => payloadMemberIsValid_iff (hfields m hm)

end

end Mipsorcu
