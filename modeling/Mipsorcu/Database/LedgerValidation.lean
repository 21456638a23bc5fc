import Mipsorcu.Foundation.Json
import Mipsorcu.Foundation.Rfc3339

/-!
# The database's own checks of a ledger entry

The validation functions of the migrations, in their final form. They mirror the checks of the
server but are written separately, over `text` and `jsonb` values: blanks are the spaces `btrim`
removes, lengths are counted in characters, and timestamps are cast to `timestamptz`.

Three functions of the database engine are left open and bundled in `Postgres`: `lower`, which
depends on the locale, `pg_column_size`, which depends on the storage format, and the order in
which the members of a `jsonb` object are printed.
-/

namespace Mipsorcu

/-- Engine functions the checks call. -/
structure Postgres where
  lower : String → String
  pgColumnSize : Json → ℕ
  /-- The members of a `jsonb` object in the order they are printed in. -/
  jsonbMembers : List (String × Json) → List (String × Json)
  jsonbMembers_perm : ∀ members, (jsonbMembers members).Perm members

namespace Sql

/-! ### Text -/

/-- `btrim`: removes spaces at both ends. -/
def btrim (s : String) : String :=
  String.ofList ((s.toList.dropWhile (· == ' ')).reverse.dropWhile (· == ' ')).reverse

/-- `btrim(s) <> '' and length(s) <= 128`. -/
def isNonBlankShort (s : String) : Bool :=
  btrim s != "" && decide (s.length ≤ 128)

/-- `^[0-9a-f]{64}$`. -/
def isHex64 (s : String) : Bool :=
  s.length == 64 && s.toList.all fun c => c.isDigit || (97 ≤ c.toNat && c.toNat ≤ 102)

/-- `^\d{4}-(0[1-9]|1[0-2])$`. -/
def isYearMonth (s : String) : Bool :=
  let chars := s.toList
  chars.length == 7 && (chars.take 4).all Char.isDigit && chars[4]? == some '-' &&
    ((chars[5]? == some '0' && chars[6]?.any fun c => '1' ≤ c && c ≤ '9') ||
      (chars[5]? == some '1' && chars[6]?.any fun c => '0' ≤ c && c ≤ '2'))

/-- A value of the type `text`, which cannot hold U+0000. -/
def isText (text : String) : Bool :=
  text.toList.all (· != '\x00')

/-! ### Timestamps -/

/-- The fraction of a second in microseconds, rounded to the nearest one, ties to even. The engine
rounds the fraction as a `double`, which may differ next to a tie. -/
def fractionMicros (digits : List Char) : ℕ :=
  let scale := 10 ^ digits.length
  let scaled := Nat.ofDigitChars 10 digits 0 * 1000000
  let quotient := scaled / scale
  let rest := scaled % scale
  if 2 * rest > scale ∨ (2 * rest = scale ∧ quotient % 2 = 1) then quotient + 1 else quotient

/-- The fields a cast to `timestamptz` accepts: a year from 1, an existing date, a minute up to 59,
a second up to 60, and with the rounded fraction a time of day up to 24:00:00. -/
def castable (t : TimestampFields) : Bool :=
  1 ≤ t.year && 1 ≤ t.month && t.month ≤ 12 && 1 ≤ t.day &&
    t.day ≤ daysInMonth t.year t.month && t.minute ≤ 59 && t.second ≤ 60 &&
    decide (((t.hour * 60 + t.minute) * 60 + t.second) * 1000000 +
      fractionMicros (t.fraction.getD []) ≤ 86400000000)

/-- Microseconds on the time line, from midnight of the day the day count starts with. -/
def microsOf (year month day hour minute second micros : ℕ) : ℕ :=
  (((daysFromCivil year month day * 24 + hour) * 60 + minute) * 60 + second) * 1000000 + micros

/-- The cast of a UTC timestamp text, with `T` between date and time, to `timestamptz`. -/
def timestamptz (text : String) : Option ℕ := do
  let t ← splitTimestamp text.toList
  if t.separator = 'T' ∧ castable t then
    pure (microsOf t.year t.month t.day t.hour t.minute t.second
      (fractionMicros (t.fraction.getD [])))
  else none

/-- The cast of a timestamp copies its four fields, each with a terminator, to a buffer of 153
bytes. -/
def fitsTimestampBuffer (text : String) : Bool :=
  decide (text.length + 4 ≤ 153)

/-- `ledger_source_event_at_is_valid`: the text has the canonical form and the cast succeeds.
Without a fraction the value has to print as the text again, which excludes the hour 24 and the
second 60. -/
def ledgerSourceEventAtIsValid (text : String) : Bool :=
  match splitTimestamp text.toList with
  | none => false
  | some t => t.separator == 'T' && castable t && (t.fraction.isSome || t.inRange)

/-- `audit_metadata_source_event_at_is_valid` of an object with this `source_event_at`. -/
def auditMetadataSourceEventAtIsValid (text : String) : Bool :=
  (timestamptz text).isSome

/-! ### Entry types and payloads -/

/-- The table of `ledger_payload_allowed_keys`; its rows are the types
`ledger_entry_type_allowed` lists. -/
def ledgerPayloadKeyTable : List (String × List String) := [
  ("secret_created", ["algorithm", "classification", "key_version", "version"]),
  ("secret_version_created", ["algorithm", "classification", "key_version", "version"]),
  ("secret_decrypted", ["algorithm", "key_version", "version"]),
  ("secret_version_purged", ["key_version", "retention_limit", "version"]),
  ("integrity_check_completed", ["checked_audit_event_count", "checked_secret_count",
    "checked_secret_version_count", "duration_ms", "violation_count"]),
  ("restore_test_completed", ["duration_ms", "failure_count", "sample_count", "success_count",
    "trigger"]),
  ("key_rotation_started", ["new_key_version", "old_key_version"]),
  ("key_rotation_reencrypted", ["batch_size", "new_key_version", "old_key_version",
    "processed_count", "remaining_count"]),
  ("key_rotation_completed", ["new_key_version", "old_key_version", "remaining_count"]),
  ("key_rotation_aborted", ["new_key_version", "old_key_version", "reason_code"]),
  ("signature_key_created", ["created_at", "public_key_fingerprint", "signature_key_version"]),
  ("signature_key_activated", ["activated_at", "public_key_fingerprint",
    "signature_key_version"]),
  ("signature_key_retired", ["public_key_fingerprint", "retired_at", "signature_key_version"]),
  ("ledger_verified", ["checked_count", "duration_ms", "end_sequence_no", "start_sequence_no"]),
  ("ledger_verification_failed", ["end_sequence_no", "error_code", "failed_count",
    "start_sequence_no"]),
  ("audit_fallback_resent", ["duration_ms", "failed_count", "resent_count"]),
  ("monthly_digest", ["digest_hash", "end_sequence_no", "entry_count", "start_sequence_no",
    "target_year_month"]),
  ("archive_exported", ["archive_key", "digest_hash", "target_year_month"]),
  ("digest_timestamped", ["digest_hash", "target_year_month", "timestamp_token_hash"]),
  ("scheduler_job_completed", ["duration_ms", "job_name", "target_year_month", "trigger"]),
  ("incident_detected", ["dedupe_key", "detection_source", "incident_type",
    "notification_result", "notification_sink", "severity", "target_sequence_no",
    "target_year_month"])]

/-- The keys of a type, if there is such a type. -/
def ledgerPayloadAllowedKeys (entryType : String) : Option (List String) :=
  ledgerPayloadKeyTable.lookup entryType

/-- The types are those of the table. -/
def ledgerEntryTypeAllowed (entryType : String) : Bool :=
  ledgerPayloadKeyTable.any fun row => row.1 == entryType

/-- The words of `ledger_payload_has_forbidden_key`. -/
def ledgerForbiddenKeys : List String :=
  ["alias_decryption_key", "alias_encryption_key", "alias_fingerprint_key", "authorization",
    "authorization_header", "bearer_token", "canonical_alias_plaintext", "ciphertext", "data_key",
    "decrypt_result", "decrypted", "decrypted_data", "ed25519_private_key", "encrypted_data_key",
    "jwt", "jwt_full", "ledger_signing_key", "master_key", "passphrase", "password", "plain_text",
    "plaintext", "raw_jwt", "request_body", "request_body_full", "response_body",
    "response_body_full", "secret_body", "secret_key", "secret_value", "service_role",
    "service_role_key", "token"]

section Payload

variable (pg : Postgres)

mutual

/-- `ledger_payload_has_forbidden_key`: some object at any depth has a forbidden key. -/
def ledgerPayloadHasForbiddenKey : Json → Bool
  | .object members => hasForbiddenMember members
  | .array items => hasForbiddenItem items
  | _ => false

/-- Some member has a forbidden key, or a value that contains one. -/
def hasForbiddenMember : List (String × Json) → Bool
  | [] => false
  | m :: ms => isForbiddenMember m || hasForbiddenMember ms

/-- The member has a forbidden key, or a value that contains one. -/
def isForbiddenMember : String × Json → Bool
  | (key, value) =>
    ledgerForbiddenKeys.contains (pg.lower (btrim key)) || ledgerPayloadHasForbiddenKey value

/-- Some item contains a forbidden key. -/
def hasForbiddenItem : List Json → Bool
  | [] => false
  | v :: vs => ledgerPayloadHasForbiddenKey v || hasForbiddenItem vs

end

/-- `ledger_payload_has_unknown_key`. -/
def ledgerPayloadHasUnknownKey (entryType : String) (members : List (String × Json)) : Bool :=
  match ledgerPayloadAllowedKeys entryType with
  | none => true
  | some allowed => members.any fun m => !allowed.contains m.1

/-- A `jsonb` number whose text is made of digits, as an integer that fits `bigint`. -/
def digitsBigint : Json → Option ℕ
  | .number (.posInt n) => if n ≤ 9223372036854775807 then some n else none
  | _ => none

/-- A `jsonb` number whose text is made of digits. -/
def isDigitsNumber : Json → Bool
  | .number (.posInt _) => true
  | _ => false

/-- A `jsonb` string that satisfies a condition. -/
def isStringWhere (accepts : String → Bool) : Json → Bool
  | .string s => accepts s
  | _ => false

/-- The check of one member in the loop of `ledger_payload_schema_is_valid`. -/
def payloadMemberIsValid (member : String × Json) : Bool :=
  let key := member.1
  let value := member.2
  if key ∈ ["version", "key_version", "old_key_version", "new_key_version", "retention_limit",
      "start_sequence_no", "end_sequence_no", "entry_count", "target_sequence_no",
      "signature_key_version"] then
    match digitsBigint value with
    | none => false
    | some n => decide (0 < n) && !(key == "retention_limit" && n != 4)
  -- `entry_count` is in both lists of the source; the first one decides
  else if key ∈ ["batch_size", "checked_audit_event_count", "checked_count",
      "checked_secret_count", "checked_secret_version_count", "duration_ms", "entry_count",
      "failed_count", "failure_count", "processed_count", "remaining_count", "resent_count",
      "sample_count", "success_count", "violation_count"] then isDigitsNumber value
  else if key = "algorithm" then isStringWhere (· == "xchacha20-poly1305") value
  else if key = "classification" then isStringWhere isNonBlankShort value
  else if key = "trigger" then isStringWhere ["background", "cli", "startup"].contains value
  else if key ∈ ["error_code", "reason_code", "archive_key", "job_name", "detection_source",
      "dedupe_key", "notification_sink"] then isStringWhere isNonBlankShort value
  else if key = "incident_type" then
    isStringWhere ["hash_chain_mismatch", "signature_mismatch", "monthly_digest_mismatch",
      "digest_timestamping_mismatch", "archive_export_mismatch", "sequence_gap",
      "unknown_signature_key", "non_auditor_ledger_read", "ledger_secret_leak_suspected",
      "siem_long_failure", "audit_ui_forbidden_operation"].contains value
  else if key = "severity" then
    isStringWhere ["critical", "high", "medium", "low"].contains value
  else if key = "notification_result" then
    isStringWhere ["sent", "failed", "suppressed", "not_configured"].contains value
  else if key ∈ ["digest_hash", "timestamp_token_hash", "public_key_fingerprint"] then
    isStringWhere isHex64 value
  else if key = "target_year_month" then isStringWhere isYearMonth value
  else if key ∈ ["created_at", "activated_at", "retired_at"] then
    isStringWhere auditMetadataSourceEventAtIsValid value
  else false

/-- `ledger_payload_schema_is_valid` on an object. -/
def ledgerPayloadSchemaIsValid (entryType : String) (members : List (String × Json)) : Bool :=
  ledgerEntryTypeAllowed entryType && !ledgerPayloadHasUnknownKey entryType members &&
    (members.all fun m => match m.2 with
      | .array _ => false
      | .object _ => false
      | _ => true) &&
    (entryType != "incident_detected" ||
      ["incident_type", "severity", "detection_source", "dedupe_key", "notification_sink",
        "notification_result"].all fun key => (members.lookup key).isSome) &&
    members.all payloadMemberIsValid &&
    match members.lookup "old_key_version", members.lookup "new_key_version" with
    | some old, some new => digitsBigint old != digitsBigint new
    | _, _ => true

/-- `ledger_payload_is_valid`. -/
def ledgerPayloadIsValid (entryType : String) (payload : Json) : Bool :=
  match payload with
  | .object members =>
    decide (pg.pgColumnSize payload ≤ 8192) && ledgerEntryTypeAllowed entryType &&
      !ledgerPayloadHasForbiddenKey pg payload &&
      !ledgerPayloadHasUnknownKey entryType members &&
      ledgerPayloadSchemaIsValid entryType members
  | _ => false

end Payload

end Sql

end Mipsorcu
