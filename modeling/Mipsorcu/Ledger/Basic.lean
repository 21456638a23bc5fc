import Mipsorcu.Types
import Mathlib.Data.Int.Notation

/-!
# Ledger vocabulary

The constants, entry types, results, identifiers and errors of the ledger. The entry type fixes
which keys a payload may have; the lists are in alphabetical order, which is the order of the
canonical serialisation.
-/

namespace Mipsorcu

/-! ### Constants -/

/-- The only version of the canonical form. -/
def ledgerCanonicalizationVersionV1 : ℕ := 1

/-- The name of the canonical form, which is part of it. -/
def ledgerCanonicalSchemaV1 : String := "mipsorcu.ledger_entry.v1"

def ledgerHashAlgorithmSha256 : String := "sha-256"

def ledgerSignatureAlgorithmEd25519 : String := "ed25519"

def ledgerHashLength : ℕ := 32

def ledgerSignatureLength : ℕ := 64

def ledgerEd25519PublicKeyLength : ℕ := 32

/-- The largest payload, in bytes of its canonical text. -/
def ledgerPayloadMaxCanonicalBytes : ℕ := 8192

/-- The greatest `i64`, the bound of sequence numbers and payload integers. -/
def ledgerI64Max : ℕ := 9223372036854775807

/-- The greatest `u64`. -/
def u64Max : ℕ := 18446744073709551615

/-- The greatest `u32`, the bound of signature key versions. -/
def u32Max : ℕ := 4294967295

/-! ### Entry types and results -/

/-- The kinds of ledger entry. -/
inductive LedgerEntryType where
  | secretCreated
  | secretVersionCreated
  | secretDecrypted
  | secretVersionPurged
  | integrityCheckCompleted
  | restoreTestCompleted
  | keyRotationStarted
  | keyRotationReencrypted
  | keyRotationCompleted
  | keyRotationAborted
  | signatureKeyCreated
  | signatureKeyActivated
  | signatureKeyRetired
  | ledgerVerified
  | ledgerVerificationFailed
  | auditFallbackResent
  | monthlyDigest
  | archiveExported
  | digestTimestamped
  | schedulerJobCompleted
  | incidentDetected
  deriving DecidableEq

/-- The errors of the ledger. -/
inductive LedgerError where
  | invalidUuid (field : String)
  | invalidUuidVersion (field expected : String)
  | invalidPositiveInteger (field : String)
  | invalidNonNegativeInteger (field : String)
  | sequenceOverflow
  | unknownEntryType (value : String)
  | unknownResult (value : String)
  | payloadMustBeObject
  | forbiddenPayloadKey (key : String)
  | unknownPayloadKey (key : String) (entryType : LedgerEntryType)
  | payloadValueMustBeScalar (key : String)
  | invalidPayloadField (key expected : String)
  | payloadTooLarge (maxBytes : ℕ)
  | invalidErrorCode (field : String)
  | invalidActorDeviceId
  | invalidHashLength (actual : ℕ)
  | invalidHashEncoding
  | invalidSignatureLength (actual : ℕ)
  | invalidSignatureEncoding
  | invalidVerificationKeyLength (actual : ℕ)
  | invalidVerificationKey
  | signatureKeyVersionMismatch (expected actual : ℕ)
  | unknownSignatureKey (keyVersion sequenceNo : ℕ)
  | signatureInvalid (sequenceNo : ℕ)
  | hashMismatch (sequenceNo : ℕ)
  | previousHashMismatch (sequenceNo : ℕ)
  | sequenceGap (expected actual : ℕ)
  | serializationFailed (message : String)
  | invalidMonthlyDigestPeriod
  | digestSignatureInvalid
  deriving DecidableEq

namespace LedgerEntryType

/-- The name in the `entry_type` column. -/
def asStr : LedgerEntryType → String
  | secretCreated => "secret_created"
  | secretVersionCreated => "secret_version_created"
  | secretDecrypted => "secret_decrypted"
  | secretVersionPurged => "secret_version_purged"
  | integrityCheckCompleted => "integrity_check_completed"
  | restoreTestCompleted => "restore_test_completed"
  | keyRotationStarted => "key_rotation_started"
  | keyRotationReencrypted => "key_rotation_reencrypted"
  | keyRotationCompleted => "key_rotation_completed"
  | keyRotationAborted => "key_rotation_aborted"
  | signatureKeyCreated => "signature_key_created"
  | signatureKeyActivated => "signature_key_activated"
  | signatureKeyRetired => "signature_key_retired"
  | ledgerVerified => "ledger_verified"
  | ledgerVerificationFailed => "ledger_verification_failed"
  | auditFallbackResent => "audit_fallback_resent"
  | monthlyDigest => "monthly_digest"
  | archiveExported => "archive_exported"
  | digestTimestamped => "digest_timestamped"
  | schedulerJobCompleted => "scheduler_job_completed"
  | incidentDetected => "incident_detected"

/-- `LedgerEntryType::parse`. -/
def parse (value : String) : Except LedgerError LedgerEntryType :=
  match value with
  | "secret_created" => .ok secretCreated
  | "secret_version_created" => .ok secretVersionCreated
  | "secret_decrypted" => .ok secretDecrypted
  | "secret_version_purged" => .ok secretVersionPurged
  | "integrity_check_completed" => .ok integrityCheckCompleted
  | "restore_test_completed" => .ok restoreTestCompleted
  | "key_rotation_started" => .ok keyRotationStarted
  | "key_rotation_reencrypted" => .ok keyRotationReencrypted
  | "key_rotation_completed" => .ok keyRotationCompleted
  | "key_rotation_aborted" => .ok keyRotationAborted
  | "signature_key_created" => .ok signatureKeyCreated
  | "signature_key_activated" => .ok signatureKeyActivated
  | "signature_key_retired" => .ok signatureKeyRetired
  | "ledger_verified" => .ok ledgerVerified
  | "ledger_verification_failed" => .ok ledgerVerificationFailed
  | "audit_fallback_resent" => .ok auditFallbackResent
  | "monthly_digest" => .ok monthlyDigest
  | "archive_exported" => .ok archiveExported
  | "digest_timestamped" => .ok digestTimestamped
  | "scheduler_job_completed" => .ok schedulerJobCompleted
  | "incident_detected" => .ok incidentDetected
  | _ => .error (.unknownEntryType value)

@[simp]
theorem parse_asStr (t : LedgerEntryType) : parse t.asStr = .ok t := by
  cases t <;> rfl

theorem asStr_injective : Function.Injective asStr := fun s t h => by
  simpa using congrArg parse h

/-- The keys a payload of this type may have, in the order of the canonical serialisation. -/
def allowedPayloadKeys : LedgerEntryType → List String
  | secretCreated => ["algorithm", "classification", "key_version", "version"]
  | secretVersionCreated => ["algorithm", "classification", "key_version", "version"]
  | secretDecrypted => ["algorithm", "key_version", "version"]
  | secretVersionPurged => ["key_version", "retention_limit", "version"]
  | integrityCheckCompleted => ["checked_audit_event_count", "checked_secret_count",
      "checked_secret_version_count", "duration_ms", "violation_count"]
  | restoreTestCompleted =>
    ["duration_ms", "failure_count", "sample_count", "success_count", "trigger"]
  | keyRotationStarted => ["new_key_version", "old_key_version"]
  | keyRotationReencrypted =>
    ["batch_size", "new_key_version", "old_key_version", "processed_count", "remaining_count"]
  | keyRotationCompleted => ["new_key_version", "old_key_version", "remaining_count"]
  | keyRotationAborted => ["new_key_version", "old_key_version", "reason_code"]
  | signatureKeyCreated => ["created_at", "public_key_fingerprint", "signature_key_version"]
  | signatureKeyActivated => ["activated_at", "public_key_fingerprint", "signature_key_version"]
  | signatureKeyRetired => ["public_key_fingerprint", "retired_at", "signature_key_version"]
  | ledgerVerified => ["checked_count", "duration_ms", "end_sequence_no", "start_sequence_no"]
  | ledgerVerificationFailed =>
    ["end_sequence_no", "error_code", "failed_count", "start_sequence_no"]
  | auditFallbackResent => ["duration_ms", "failed_count", "resent_count"]
  | monthlyDigest => ["digest_hash", "end_sequence_no", "entry_count", "start_sequence_no",
      "target_year_month"]
  | archiveExported => ["archive_key", "digest_hash", "target_year_month"]
  | digestTimestamped => ["digest_hash", "target_year_month", "timestamp_token_hash"]
  | schedulerJobCompleted => ["duration_ms", "job_name", "target_year_month", "trigger"]
  | incidentDetected => ["dedupe_key", "detection_source", "incident_type", "notification_result",
      "notification_sink", "severity", "target_sequence_no", "target_year_month"]

/-- The allowed keys are listed in key order, without repetition. -/
theorem allowedPayloadKeys_sorted (t : LedgerEntryType) :
    t.allowedPayloadKeys.Pairwise (· < ·) := by
  cases t <;> decide +kernel

end LedgerEntryType

/-- The result of the recorded operation. -/
inductive LedgerResult where
  | success
  | failure
  deriving DecidableEq

namespace LedgerResult

/-- `LedgerResult::parse`. -/
def parse (value : String) : Except LedgerError LedgerResult :=
  match value with
  | "success" => .ok success
  | "failure" => .ok failure
  | _ => .error (.unknownResult value)

/-- The name in the `result` column. -/
def asStr : LedgerResult → String
  | success => "success"
  | failure => "failure"

@[simp]
theorem parse_asStr (r : LedgerResult) : parse r.asStr = .ok r := by
  cases r <;> rfl

theorem asStr_injective : Function.Injective asStr := fun r s h => by
  simpa using congrArg parse h

end LedgerResult

/-! ### Identifiers -/

/-- The identifier of a ledger entry: a UUID of version 4. -/
structure LedgerEntryId where
  uuid : Uuid
  version_eq : uuid.version = 4

namespace LedgerEntryId

theorem uuid_injective : Function.Injective uuid := by
  rintro ⟨a, _⟩ ⟨b, _⟩ h
  cases h
  rfl

instance : DecidableEq LedgerEntryId :=
  uuid_injective.decidableEq

/-- `LedgerEntryId::parse`: only version 4 is accepted. -/
def parse (value : String) : Except LedgerError LedgerEntryId :=
  match Uuid.parse value with
  | none => .error (.invalidUuid "ledger_entry_id")
  | some uuid =>
    if h : uuid.version = 4 then .ok ⟨uuid, h⟩
    else .error (.invalidUuidVersion "ledger_entry_id" "v4")

/-- The hyphenated text in lower case. -/
def asCanonicalString (id : LedgerEntryId) : String :=
  id.uuid.hyphenated

@[simp]
theorem parse_asCanonicalString (id : LedgerEntryId) : parse id.asCanonicalString = .ok id := by
  simp [parse, asCanonicalString, id.version_eq]

end LedgerEntryId

/-- The identifier of the secret version an entry is about; any UUID. -/
structure LedgerTargetSecretVersionId where
  uuid : Uuid
  deriving DecidableEq

namespace LedgerTargetSecretVersionId

/-- Any version is accepted here. -/
def parse (value : String) : Except LedgerError LedgerTargetSecretVersionId :=
  match Uuid.parse value with
  | none => .error (.invalidUuid "target_secret_version_id")
  | some uuid => .ok ⟨uuid⟩

/-- The hyphenated text in lower case. -/
def asCanonicalString (id : LedgerTargetSecretVersionId) : String :=
  id.uuid.hyphenated

@[simp]
theorem parse_asCanonicalString (id : LedgerTargetSecretVersionId) :
    parse id.asCanonicalString = .ok id := by
  simp [parse, asCanonicalString]

end LedgerTargetSecretVersionId

/-- The position of an entry in the ledger: positive, and at most the greatest `i64`. -/
structure LedgerSequenceNo where
  val : ℕ
  pos : 0 < val
  le_max : val ≤ ledgerI64Max
  deriving DecidableEq

namespace LedgerSequenceNo

/-- `LedgerSequenceNo::new`. -/
def new (value : ℕ) : Except LedgerError LedgerSequenceNo :=
  if h : 0 < value ∧ value ≤ ledgerI64Max then .ok ⟨value, h.1, h.2⟩
  else .error (.invalidPositiveInteger "sequence_no")

/-- A `bigint` of the database. -/
def fromI64 (value : ℤ) : Except LedgerError LedgerSequenceNo :=
  if 0 ≤ value then new value.toNat else .error (.invalidPositiveInteger "sequence_no")

@[ext]
theorem ext {s t : LedgerSequenceNo} (h : s.val = t.val) : s = t := by
  cases s; cases t; simp_all

@[simp]
theorem new_val (s : LedgerSequenceNo) : new s.val = .ok s := by
  simp [new, s.pos, s.le_max]

theorem new_eq_ok {value : ℕ} {s : LedgerSequenceNo} : new value = .ok s ↔ s.val = value := by
  refine ⟨fun h => ?_, fun h => by rw [← h, new_val]⟩
  unfold new at h
  split at h <;> cases h
  rfl

@[simp]
theorem fromI64_val (s : LedgerSequenceNo) : fromI64 s.val = .ok s := by
  simp [fromI64]

theorem fromI64_eq_ok {value : ℤ} {s : LedgerSequenceNo} :
    fromI64 value = .ok s ↔ (s.val : ℤ) = value := by
  refine ⟨fun h => ?_, fun h => by rw [← h, fromI64_val]⟩
  unfold fromI64 at h
  split at h
  · rw [new_eq_ok.mp h]
    exact Int.toNat_of_nonneg ‹_›
  · cases h

end LedgerSequenceNo

/-- The version of a signing key: a positive `u32`. -/
structure LedgerSignatureKeyVersion where
  val : ℕ
  pos : 0 < val
  le_max : val ≤ u32Max
  deriving DecidableEq

namespace LedgerSignatureKeyVersion

/-- `LedgerSignatureKeyVersion::new`: any positive `u32`. -/
def new (value : ℕ) : Except LedgerError LedgerSignatureKeyVersion :=
  if h : 0 < value ∧ value ≤ u32Max then .ok ⟨value, h.1, h.2⟩
  else .error (.invalidPositiveInteger "signature_key_version")

@[ext]
theorem ext {s t : LedgerSignatureKeyVersion} (h : s.val = t.val) : s = t := by
  cases s; cases t; simp_all

@[simp]
theorem new_val (v : LedgerSignatureKeyVersion) : new v.val = .ok v := by
  simp [new, v.pos, v.le_max]

/-- `value as u32` of an `i32`, then `new`. -/
def ofI32 (value : ℤ) : Except LedgerError LedgerSignatureKeyVersion :=
  new (value % 4294967296).toNat

theorem ofI32_val (v : LedgerSignatureKeyVersion) (h : v.val ≤ 2147483647) :
    ofI32 v.val = .ok v := by
  have hmod : ((v.val : ℤ) % 4294967296).toNat = v.val := by omega
  rw [ofI32, hmod, new_val]

end LedgerSignatureKeyVersion

end Mipsorcu
