import Mipsorcu.Foundation.Json
import Mipsorcu.Foundation.Result
import Mipsorcu.Ledger.Basic

/-!
# Ledger payloads

The payload of a ledger entry is a flat JSON object. `LedgerPayload.new` refuses forbidden keys
at any depth, keys the entry type does not allow, values that are not scalar, and scalar values
outside the range of their key; a `LedgerPayload` is an object that passed.

The canonical serialisation writes the members in the order of the entry type's key list. Since
that list is sorted, and a payload has no other keys, the canonical object is the payload's own
object (`LedgerPayload.canonicalObject_eq`), whatever order its members arrived in
(`LedgerPayload.new_object_of_perm`).
-/

namespace Mipsorcu

/-! ### JSON accessors -/

/-- `Value::as_u64`. -/
def Json.asU64 : Json → Option ℕ
  | .number (.posInt n) => some n
  | _ => none

/-- `Value::as_str`. -/
def Json.asStr : Json → Option String
  | .string s => some s
  | _ => none

/-- The value is an array or an object. -/
def Json.isContainer : Json → Bool
  | .array _ => true
  | .object _ => true
  | _ => false

/-- An object of scalar members is in normal form but for their order. -/
theorem Json.normalizeMembers_of_scalar {members : List (String × Json)}
    (h : ∀ m ∈ members, m.2.isContainer = false) : normalizeMembers members = members := by
  refine normalizeMembers_of_normal fun m hm => ?_
  have hscalar := h m hm
  generalize m.2 = value at hscalar
  cases value <;> first | rfl | cases hscalar

/-! ### Forbidden keys -/

/-- `FORBIDDEN_LEDGER_PAYLOAD_KEYS`. -/
def forbiddenLedgerPayloadKeys : List String :=
  ["alias_decryption_key", "alias_encryption_key", "alias_fingerprint_key", "authorization",
    "authorization_header", "bearer_token", "canonical_alias_plaintext", "ciphertext", "data_key",
    "decrypt_result", "decrypted", "decrypted_data", "ed25519_private_key", "encrypted_data_key",
    "jwt", "jwt_full", "ledger_signing_key", "master_key", "passphrase", "password", "plain_text",
    "plaintext", "raw_jwt", "request_body", "request_body_full", "response_body",
    "response_body_full", "secret_body", "secret_key", "secret_value", "service_role",
    "service_role_key", "token"]

/-- Case and white space around the key do not count. -/
def isForbiddenPayloadKey (key : String) : Bool :=
  decide (toAsciiLowercase (trim key) ∈ forbiddenLedgerPayloadKeys)

mutual

/-- Walks the whole value and fails at the first forbidden key. -/
def rejectForbiddenPayloadKeys : Json → Except LedgerError Unit
  | .object members => rejectForbiddenMembers members
  | .array items => rejectForbiddenItems items
  | _ => .ok ()

/-- The members of an object, each key before its value. -/
def rejectForbiddenMembers : List (String × Json) → Except LedgerError Unit
  | [] => .ok ()
  | m :: ms => do
    rejectForbiddenMember m
    rejectForbiddenMembers ms

/-- One member: its key, then its value. -/
def rejectForbiddenMember : String × Json → Except LedgerError Unit
  | (key, nested) =>
    if isForbiddenPayloadKey key then .error (.forbiddenPayloadKey key)
    else rejectForbiddenPayloadKeys nested

/-- The items of an array. -/
def rejectForbiddenItems : List Json → Except LedgerError Unit
  | [] => .ok ()
  | v :: vs => do
    rejectForbiddenPayloadKeys v
    rejectForbiddenItems vs

end

/-! ### Field checks -/

/-- An integer that fits the database's `bigint`. -/
def requireJsonU64 (key : String) (value : Json) (expected : String) : Except LedgerError ℕ :=
  match value.asU64 with
  | none => .error (.invalidPayloadField key expected)
  | some parsed =>
    if parsed > ledgerI64Max then .error (.invalidPayloadField key expected) else .ok parsed

/-- Zero is refused with the same message as a text. -/
def requirePositiveJsonU64 (key : String) (value : Json) : Except LedgerError ℕ := do
  let parsed ← requireJsonU64 key value "a positive integer"
  if parsed = 0 then .error (.invalidPayloadField key "a positive integer") else .ok parsed

/-- The same with zero. -/
def requireNonNegativeJsonU64 (key : String) (value : Json) : Except LedgerError ℕ :=
  requireJsonU64 key value "a non-negative integer"

/-- The common shape of the string checks: the value is a string that satisfies `accepts`. -/
def requireString (accepts : String → Bool) (expected key : String) (value : Json) :
    Except LedgerError Unit :=
  match value.asStr with
  | none => .error (.invalidPayloadField key expected)
  | some text => Result.require (accepts text) (.invalidPayloadField key expected)

/-- One text only. -/
def requireStringValue (key : String) (value : Json) (expectedValue : String) :
    Except LedgerError Unit :=
  requireString (· == expectedValue) expectedValue key value

/-- Not blank, and at most 128 bytes. -/
def isNonBlankShort (text : String) : Bool :=
  !isBlank text && decide (byteLength text ≤ 128)

/-- The check of `classification`. -/
def validateClassificationValue : String → Json → Except LedgerError Unit :=
  requireString isNonBlankShort "a non-blank string at most 128 bytes"

/-- The check of texts without a vocabulary. -/
def validateNonBlankShortString : String → Json → Except LedgerError Unit :=
  requireString isNonBlankShort "a non-blank string at most 128 bytes"

/-- The check of `trigger`. -/
def validateTriggerValue : String → Json → Except LedgerError Unit :=
  requireString (fun text => ["startup", "background", "cli"].contains text)
    "one of background, cli, startup"

/-- The check of texts with a vocabulary. -/
def validateStringEnumValue (allowed : List String) : String → Json → Except LedgerError Unit :=
  requireString allowed.contains "an allowed string value"

/-- The check of `incident_type`. -/
def validateIncidentTypeValue : String → Json → Except LedgerError Unit :=
  validateStringEnumValue ["hash_chain_mismatch", "signature_mismatch", "monthly_digest_mismatch",
    "digest_timestamping_mismatch", "archive_export_mismatch", "sequence_gap",
    "unknown_signature_key", "non_auditor_ledger_read", "ledger_secret_leak_suspected",
    "siem_long_failure", "audit_ui_forbidden_operation"]

/-- `YYYY-MM` with a month from 1 to 12. -/
def isYearMonth (text : String) : Bool :=
  let chars := text.toList
  chars.length == 7 && chars[4]? == some '-' && (chars.take 4).all Char.isDigit &&
    (chars.drop 5).all Char.isDigit &&
    let month := Nat.ofDigitChars 10 (chars.drop 5) 0
    1 ≤ month && month ≤ 12

/-- The check of `target_year_month`. -/
def validateYearMonthValue : String → Json → Except LedgerError Unit :=
  requireString isYearMonth "a string in YYYY-MM format"

/-- The check of timestamps. -/
def validateSourceEventAtValue : String → Json → Except LedgerError Unit :=
  requireString isUtcTimestamp "an RFC3339 UTC timestamp ending with Z"

/-- Sixty-four lower-case hexadecimal digits. -/
def isLowerHex64 (text : String) : Bool :=
  byteLength text == 64 &&
    text.toList.all fun c => c.isDigit || (97 ≤ c.toNat && c.toNat ≤ 102)

/-- The check of hashes. -/
def validateDigestHashValue : String → Json → Except LedgerError Unit :=
  requireString isLowerHex64 "a 64-character lowercase hex string"

/-- Keys whose value is a positive integer. -/
def positivePayloadKeys : List String :=
  ["version", "key_version", "old_key_version", "new_key_version", "signature_key_version",
    "retention_limit", "start_sequence_no", "end_sequence_no", "entry_count",
    "target_sequence_no"]

/-- Keys whose value is a non-negative integer. -/
def nonNegativePayloadKeys : List String :=
  ["batch_size", "checked_audit_event_count", "checked_count", "checked_secret_count",
    "checked_secret_version_count", "duration_ms", "failed_count", "failure_count",
    "processed_count", "remaining_count", "resent_count", "sample_count", "success_count",
    "violation_count"]

/-- The check of a member by its key. -/
def validatePayloadField (key : String) (value : Json) : Except LedgerError Unit :=
  if key ∈ positivePayloadKeys then do
    let parsed ← requirePositiveJsonU64 key value
    if key = "retention_limit" ∧ parsed ≠ 4 then
      .error (.invalidPayloadField key "the integer 4")
    else .ok ()
  else if key ∈ nonNegativePayloadKeys then do
    let _ ← requireNonNegativeJsonU64 key value
    .ok ()
  else if key = "algorithm" then requireStringValue key value "xchacha20-poly1305"
  else if key = "classification" then validateClassificationValue key value
  else if key = "trigger" then validateTriggerValue key value
  else if key ∈ ["error_code", "reason_code", "archive_key", "job_name", "detection_source",
      "dedupe_key", "notification_sink"] then validateNonBlankShortString key value
  else if key = "incident_type" then validateIncidentTypeValue key value
  else if key = "severity" then
    validateStringEnumValue ["critical", "high", "medium", "low"] key value
  else if key = "notification_result" then
    validateStringEnumValue ["sent", "failed", "suppressed", "not_configured"] key value
  else if key = "target_year_month" then validateYearMonthValue key value
  else if key ∈ ["digest_hash", "timestamp_token_hash", "public_key_fingerprint"] then
    validateDigestHashValue key value
  else if key ∈ ["created_at", "activated_at", "retired_at"] then
    validateSourceEventAtValue key value
  else .error (.unknownPayloadKey key .secretCreated)

/-! ### Object checks -/

/-- One member: an allowed key, a scalar value, and a value in the range of its key. -/
def validatePayloadMember (entryType : LedgerEntryType) (member : String × Json) :
    Except LedgerError Unit := do
  Result.require (decide (member.1 ∈ entryType.allowedPayloadKeys))
    (.unknownPayloadKey member.1 entryType)
  Result.require (!member.2.isContainer) (.payloadValueMustBeScalar member.1)
  validatePayloadField member.1 member.2

/-- Only incidents have required keys. -/
def validateRequiredPayloadKeys (entryType : LedgerEntryType) (object : List (String × Json)) :
    Except LedgerError Unit :=
  if entryType ≠ .incidentDetected then .ok ()
  else Result.forEach (fun key => Result.require (SortedMap.get? object key).isSome
      (.invalidPayloadField key "a required incident_detected payload key"))
    ["incident_type", "severity", "detection_source", "dedupe_key", "notification_sink",
      "notification_result"]

/-- A key rotation leads to another key version, not always to a later one. -/
def validateOldNewKeyVersions (object : List (String × Json)) : Except LedgerError Unit :=
  match SortedMap.get? object "old_key_version", SortedMap.get? object "new_key_version" with
  | some oldValue, some newValue => do
    let oldKeyVersion ← requirePositiveJsonU64 "old_key_version" oldValue
    let newKeyVersion ← requirePositiveJsonU64 "new_key_version" newValue
    if oldKeyVersion = newKeyVersion then
      .error (.invalidPayloadField "new_key_version" "a different value from old_key_version")
    else .ok ()
  | _, _ => .ok ()

/-- The members first, then what concerns several of them. -/
def validatePayloadObject (entryType : LedgerEntryType) (object : List (String × Json)) :
    Except LedgerError Unit := do
  Result.forEach (validatePayloadMember entryType) object
  validateRequiredPayloadKeys entryType object
  validateOldNewKeyVersions object

/-- The members the canonical serialisation writes: those of the allowed keys, in the order of
the key list. -/
def canonicalPayloadObject (entryType : LedgerEntryType) (object : List (String × Json)) :
    List (String × Json) :=
  entryType.allowedPayloadKeys.filterMap fun key =>
    (SortedMap.get? object key).map (key, ·)

/-- The canonical text is bounded. -/
def ensurePayloadSize (entryType : LedgerEntryType) (object : List (String × Json)) :
    Except LedgerError Unit :=
  Result.require
    (decide ((Json.object (canonicalPayloadObject entryType object)).toBytes.length ≤
      ledgerPayloadMaxCanonicalBytes))
    (.payloadTooLarge ledgerPayloadMaxCanonicalBytes)

/-- All checks of `LedgerPayload::new` on an object. -/
def checkPayload (entryType : LedgerEntryType) (object : List (String × Json)) :
    Except LedgerError Unit := do
  rejectForbiddenPayloadKeys (.object object)
  validatePayloadObject entryType object
  ensurePayloadSize entryType object

/-- A payload: an object, kept sorted by key, that passed every check for its entry type. -/
structure LedgerPayload where
  entryType : LedgerEntryType
  object : List (String × Json)
  sorted : SortedMap.Sorted object
  valid : checkPayload entryType object = .ok ()
  deriving DecidableEq

namespace LedgerPayload

/-- The payload of a sorted object that passes the checks. -/
def ofSorted (entryType : LedgerEntryType) (object : List (String × Json))
    (sorted : SortedMap.Sorted object) : Except LedgerError LedgerPayload :=
  match h : checkPayload entryType object with
  | .ok () => .ok ⟨entryType, object, sorted, h⟩
  | .error e => .error e

/-- Checks a value. The members of a JSON object form a map ordered by key, so they are put in
key order first. -/
def new (entryType : LedgerEntryType) (value : Json) : Except LedgerError LedgerPayload :=
  match value with
  | .object members =>
    ofSorted entryType (SortedMap.ofList (Json.normalizeMembers members))
      (SortedMap.sorted_ofList _)
  | _ => .error .payloadMustBeObject

/-- The payload as a value. -/
def asValue (p : LedgerPayload) : Json :=
  .object p.object

/-- The object the canonical serialisation writes. -/
def canonicalObject (p : LedgerPayload) : List (String × Json) :=
  canonicalPayloadObject p.entryType p.object

theorem valid_member (p : LedgerPayload) {m : String × Json} (h : m ∈ p.object) :
    m.1 ∈ p.entryType.allowedPayloadKeys ∧ m.2.isContainer = false := by
  have hvalid := p.valid
  simp only [checkPayload, validatePayloadObject, Result.bind_eq_ok] at hvalid
  obtain ⟨_, _, _, ⟨_, hmembers, _⟩, _⟩ := hvalid
  have hm := Result.forEach_eq_ok.mp hmembers m h
  simp only [validatePayloadMember, Result.bind_eq_ok, Result.require_eq_ok, decide_eq_true_eq,
    Bool.not_eq_true'] at hm
  obtain ⟨_, hkey, _, hscalar, _⟩ := hm
  exact ⟨hkey, hscalar⟩

/-- The canonical object is the payload's own object. -/
@[simp]
theorem canonicalObject_eq (p : LedgerPayload) : p.canonicalObject = p.object :=
  SortedMap.filterMap_get?_eq_self p.sorted p.entryType.allowedPayloadKeys_sorted
    fun _ h => (p.valid_member h).1

theorem ofSorted_eq_ok {t : LedgerEntryType} {object : List (String × Json)}
    {sorted : SortedMap.Sorted object} {p : LedgerPayload} :
    ofSorted t object sorted = .ok p ↔ p.entryType = t ∧ p.object = object := by
  constructor
  · intro h
    unfold ofSorted at h
    split at h <;> cases h
    exact ⟨rfl, rfl⟩
  · rintro ⟨rfl, rfl⟩
    unfold ofSorted
    split
    · rfl
    · exact absurd (p.valid.symm.trans ‹_›) (by simp)

/-- **Arrival order is irrelevant**: the members of a payload, in any order, are accepted and
give the payload back. -/
theorem new_object_of_perm (p : LedgerPayload) {members : List (String × Json)}
    (h : members.Perm p.object) : new p.entryType (.object members) = .ok p := by
  have hnormal : Json.normalizeMembers members = members :=
    Json.normalizeMembers_of_scalar fun m hm => (p.valid_member (h.mem_iff.mp hm)).2
  have hobject : SortedMap.ofList (Json.normalizeMembers members) = p.object := by
    rw [hnormal]; exact SortedMap.ofList_eq_of_perm p.sorted h
  exact ofSorted_eq_ok.mpr ⟨rfl, hobject.symm⟩

end LedgerPayload

end Mipsorcu
