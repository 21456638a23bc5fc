import Mipsorcu.Audit.Metadata

/-!
# Audit events

An audit event says who did what to which secret, with which result. `AuditEvent.new` checks the
result against the action and the metadata against both (`validateAllowlistForAction`): the keys the
action allows, the keys it requires, and the values of the keys that are there. The keys are a
table, and the checks of the values a list in the order of the source. An `AuditEvent` is an event
that passed.
-/

namespace Mipsorcu

/-! ### Names -/

namespace AuditAction

/-- `AuditAction::parse`. -/
def parse (value : String) : Except AuditEventError AuditAction :=
  match value with
  | "encrypt_create" => .ok encryptCreate
  | "encrypt_rotate" => .ok encryptRotate
  | "decrypt" => .ok decrypt
  | "version_purge" => .ok versionPurge
  | "integrity_check" => .ok integrityCheck
  | "restore_test" => .ok restoreTest
  | "auth_failure" => .ok authFailure
  | "key_rotation_start" => .ok keyRotationStart
  | "key_rotation_reencrypt" => .ok keyRotationReencrypt
  | "key_rotation_complete" => .ok keyRotationComplete
  | "signature_key_created" => .ok signatureKeyCreated
  | "signature_key_activated" => .ok signatureKeyActivated
  | "signature_key_retired" => .ok signatureKeyRetired
  | "monthly_digest_generate" => .ok monthlyDigestGenerate
  | "monthly_digest_verify" => .ok monthlyDigestVerify
  | "archive_export" => .ok archiveExport
  | "digest_timestamping" => .ok digestTimestamping
  | "siem_forward_failure" => .ok siemForwardFailure
  | "audit_report_generate" => .ok auditReportGenerate
  | "audit_ui_read" => .ok auditUiRead
  | "scheduler_job" => .ok schedulerJob
  | "incident_detected" => .ok incidentDetected
  | "secret_alias_create" => .ok secretAliasCreate
  | "secret_alias_update" => .ok secretAliasUpdate
  | "secret_alias_delete" => .ok secretAliasDelete
  | "secret_alias_list" => .ok secretAliasList
  | _ => .error (.unknownAction value)

@[simp]
theorem parse_asStr (action : AuditAction) : parse action.asStr = .ok action := by
  cases action <;> rfl

end AuditAction

namespace AuditResult

/-- `AuditResult::parse`. -/
def parse (value : String) : Except AuditEventError AuditResult :=
  match value with
  | "success" => .ok success
  | "failure" => .ok failure
  | _ => .error (.unknownResult value)

@[simp]
theorem parse_asStr (result : AuditResult) : parse result.asStr = .ok result := by
  cases result <;> rfl

end AuditResult

/-! ### Keys -/

/-- `INTEGRITY_CHECK_VIOLATION_SUMMARY_ALLOWLIST`. -/
def violationSummaryAllowlist : List String :=
  ["current_version_invalid", "version_invalid", "retention_exceeded", "ciphertext_empty",
    "encrypted_data_key_empty", "nonce_length_invalid", "algorithm_invalid", "nonce_duplicate",
    "aad_keys_invalid", "aad_row_mismatch", "created_at_mismatch", "audit_action_invalid",
    "audit_result_invalid", "audit_metadata_not_object", "audit_metadata_forbidden_key",
    "audit_source_event_at_invalid"]

namespace AuditAction

/-- The keys the metadata of the action may have. -/
def allowedMetadataKeys (action : AuditAction) (result : AuditResult) : List String :=
  match action with
  | encryptCreate | encryptRotate | versionPurge =>
    ["version", "secret_version_id", "source_event_at"]
  | decrypt => match result with
    | .failure => ["attempted_secret_id", "source_event_at"]
    | .success => ["source_event_at"]
  | integrityCheck =>
    ["check_name", "checked_secret_count", "checked_secret_version_count",
      "checked_audit_event_count", "duration_ms", "violation_count", "violation_summary", "trigger",
      "error_code", "source_event_at"]
  | restoreTest =>
    ["phase", "sample_count", "trigger", "duration_ms", "error_code", "failed_version", "reason",
      "source_event_at"]
  | authFailure => ["error_code", "source_event_at"]
  | keyRotationStart => ["old_key_version", "new_key_version", "source_event_at"]
  | keyRotationReencrypt =>
    ["old_key_version", "new_key_version", "batch_size", "processed_count", "remaining_count",
      "source_event_at"]
  | keyRotationComplete =>
    ["old_key_version", "new_key_version", "remaining_count", "source_event_at"]
  | signatureKeyCreated =>
    ["created_at", "public_key_fingerprint", "signature_key_version", "source_event_at"]
  | signatureKeyActivated =>
    ["activated_at", "public_key_fingerprint", "signature_key_version", "source_event_at"]
  | signatureKeyRetired =>
    ["public_key_fingerprint", "retired_at", "signature_key_version", "source_event_at"]
  | monthlyDigestGenerate => ["error_code", "target_year_month", "source_event_at"]
  | monthlyDigestVerify => ["error_code", "target_year_month", "source_event_at"]
  | archiveExport =>
    ["archive_key", "digest_hash", "target_year_month", "error_code", "source_event_at"]
  | digestTimestamping =>
    ["digest_hash", "error_code", "target_year_month", "timestamp_token_hash", "source_event_at"]
  | siemForwardFailure => ["error_code", "event_type", "event_count", "source_event_at"]
  | auditReportGenerate =>
    ["format", "period_end", "period_start", "error_code", "source_event_at"]
  | auditUiRead =>
    ["endpoint", "method", "resource", "result_count", "period_start", "period_end",
      "start_sequence_no", "end_sequence_no", "target_year_month", "error_code", "source_event_at"]
  | schedulerJob =>
    ["duration_ms", "error_code", "job_name", "target_year_month", "trigger", "source_event_at"]
  | incidentDetected =>
    ["incident_type", "severity", "detection_source", "dedupe_key", "notification_sink",
      "notification_result", "error_code", "source_event_at", "source_event_id",
      "target_sequence_no", "target_year_month"]
  | secretAliasCreate =>
    ["alias_fingerprint", "alias_fingerprint_key_version", "alias_fingerprint_schema_version",
      "error_code", "source_event_at"]
  | secretAliasUpdate =>
    ["old_alias_fingerprint", "new_alias_fingerprint", "alias_fingerprint_key_version",
      "alias_fingerprint_schema_version", "error_code", "source_event_at"]
  | secretAliasDelete =>
    ["alias_fingerprint", "alias_fingerprint_key_version", "alias_fingerprint_schema_version",
      "error_code", "source_event_at"]
  | secretAliasList => ["result_count", "error_code", "source_event_at"]

/-- The keys the metadata of the action must have, besides the time. -/
def requiredMetadataKeys (action : AuditAction) (result : AuditResult) : List String :=
  match action with
  | encryptCreate | encryptRotate | versionPurge => ["version", "secret_version_id"]
  | decrypt => []
  | integrityCheck =>
    ["check_name", "checked_secret_count", "checked_secret_version_count",
      "checked_audit_event_count", "duration_ms", "violation_count", "violation_summary", "trigger"]
  | restoreTest => ["phase", "sample_count", "trigger", "duration_ms"]
  | authFailure => ["error_code"]
  | keyRotationStart => ["old_key_version", "new_key_version"]
  | keyRotationReencrypt =>
    ["old_key_version", "new_key_version", "batch_size", "processed_count", "remaining_count"]
  | keyRotationComplete => ["old_key_version", "new_key_version", "remaining_count"]
  | signatureKeyCreated => ["signature_key_version", "public_key_fingerprint", "created_at"]
  | signatureKeyActivated => ["signature_key_version", "public_key_fingerprint", "activated_at"]
  | signatureKeyRetired => ["signature_key_version", "public_key_fingerprint", "retired_at"]
  | monthlyDigestGenerate | monthlyDigestVerify => []
  | archiveExport => ["target_year_month"]
  | digestTimestamping => ["target_year_month"]
  | siemForwardFailure => ["error_code"]
  | auditReportGenerate => ["format", "period_end", "period_start"]
  | auditUiRead => ["endpoint", "method", "resource"]
  | schedulerJob => ["job_name", "trigger", "duration_ms"]
  | incidentDetected =>
    ["incident_type", "severity", "detection_source", "dedupe_key", "notification_sink",
      "notification_result", "error_code"]
  | secretAliasCreate | secretAliasDelete => match result with
    | .success =>
      ["alias_fingerprint", "alias_fingerprint_key_version", "alias_fingerprint_schema_version"]
    | .failure => []
  | secretAliasUpdate => match result with
    | .success =>
      ["old_alias_fingerprint", "new_alias_fingerprint", "alias_fingerprint_key_version",
        "alias_fingerprint_schema_version"]
    | .failure => []
  | secretAliasList => match result with
    | .success => ["result_count"]
    | .failure => []

end AuditAction

/-- The keys of the violation summary of an integrity check, before anything else is checked. -/
def validateViolationSummaryKeys (object : List (String × Json)) : Except AuditEventError Unit :=
  match SortedMap.get? object "violation_summary" with
  | none => .ok ()
  | some (.object summary) => Result.forEach (fun m => Result.require
      (violationSummaryAllowlist.contains m.1) (.unknownMetadataKey m.1)) summary
  | some _ => .error .violationSummaryMustBeObject

/-- The first missing key is named in the error. -/
def validateRequiredMetadataKeys (action : AuditAction) (result : AuditResult)
    (object : List (String × Json)) (requireSourceEventAt : Bool) :
    Except AuditEventError Unit := do
  let required := action.requiredMetadataKeys result ++
    if requireSourceEventAt then ["source_event_at"] else []
  Result.forEach (fun key => Result.require (SortedMap.get? object key).isSome
    (.missingMetadataKey key)) required
  if action = .integrityCheck then
    match SortedMap.get? object "violation_summary" with
    | some (.object summary) => Result.forEach (fun key => Result.require
        (SortedMap.get? summary key).isSome (.missingMetadataKey key)) violationSummaryAllowlist
    | _ => .error .violationSummaryMustBeObject
  else .ok ()

/-! ### Values -/

/-- `validate_u64_value`. -/
def isU64Value (value : Json) : Bool :=
  value.asU64.isSome

/-- `validate_positive_u64_value`. -/
def isPositiveU64Value (value : Json) : Bool :=
  value.asU64.any fun n => n != 0

/-- The common shape of the string checks. -/
def isStringValue (accepts : String → Bool) (value : Json) : Bool :=
  value.asStr.any accepts

/-- `validate_non_blank_short_string`. -/
def isNonBlankShortValue (maxLen : ℕ) : Json → Bool :=
  isStringValue fun text => !isBlank text && decide (byteLength text ≤ maxLen)

/-- `validate_hex_string` with sixty-four digits. -/
def isHexValue : Json → Bool :=
  isStringValue isLowerHex64

/-- `validate_exact_string`. -/
def isExactValue (expected : String) : Json → Bool :=
  isStringValue (· == expected)

/-- A text that `SourceEventAt` accepts. -/
def isSourceEventAtValue : Json → Bool :=
  isStringValue fun text => (SourceEventAt.parse text).toOption.isSome

/-- The checks of the values, in their order: a check applies to the value of its key, if the key
is there. -/
def metadataValueChecks (action : AuditAction) (result : AuditResult) :
    List (String × (Json → Bool)) :=
  (["checked_secret_count", "checked_secret_version_count", "checked_audit_event_count",
    "duration_ms", "violation_count", "sample_count", "processed_count", "remaining_count",
    "result_count"].map (·, isU64Value)) ++
  (["version", "old_key_version", "new_key_version", "signature_key_version", "batch_size",
    "target_sequence_no", "start_sequence_no", "end_sequence_no", "alias_fingerprint_key_version",
    "alias_fingerprint_schema_version"].map (·, isPositiveU64Value)) ++ [
  ("failed_version", fun value => value == .null || isPositiveU64Value value),
  ("failed_version", fun _ => result != .success),
  ("secret_version_id", isStringValue fun text => (SecretVersionId.parse text).toOption.isSome),
  ("attempted_secret_id", isStringValue fun text => (SecretVersionId.parse text).toOption.isSome),
  ("source_event_id", isStringValue fun text => (AuditEventId.parse text).toOption.isSome),
  ("source_event_id", fun _ => action == .incidentDetected),
  ("attempted_secret_id", fun _ => action == .decrypt && result == .failure),
  ("error_code", fun _ => result == .failure),
  ("error_code", isNonBlankShortValue 64),
  ("job_name", isNonBlankShortValue 96),
  ("endpoint", isNonBlankShortValue 128),
  ("resource", isNonBlankShortValue 128),
  ("method", isExactValue "GET"),
  ("public_key_fingerprint", isHexValue),
  ("alias_fingerprint", isHexValue),
  ("old_alias_fingerprint", isHexValue),
  ("new_alias_fingerprint", isHexValue),
  ("created_at", isSourceEventAtValue),
  ("activated_at", isSourceEventAtValue),
  ("retired_at", isSourceEventAtValue),
  ("detection_source", isNonBlankShortValue 128),
  ("dedupe_key", isNonBlankShortValue 128),
  ("notification_sink", isNonBlankShortValue 128),
  ("incident_type", isStringValue ["hash_chain_mismatch", "signature_mismatch",
    "monthly_digest_mismatch", "digest_timestamping_mismatch", "archive_export_mismatch",
    "sequence_gap", "unknown_signature_key", "non_auditor_ledger_read",
    "ledger_secret_leak_suspected", "siem_long_failure", "audit_ui_forbidden_operation"].contains),
  ("severity", isStringValue ["critical", "high", "medium", "low"].contains),
  ("notification_result",
    isStringValue ["sent", "failed", "suppressed", "not_configured"].contains),
  ("target_year_month",
    isStringValue fun text => (MonthlyDigestPeriod.parse text).toOption.isSome),
  ("format", isStringValue ["json", "markdown"].contains),
  ("period_start", isSourceEventAtValue),
  ("period_end", isSourceEventAtValue),
  ("archive_key", fun _ => result != .failure),
  ("archive_key", isNonBlankShortValue 256),
  ("check_name", isExactValue "mvp_integrity_check"),
  ("phase", isExactValue "verify"),
  ("reason", isExactValue "no_current_secret_versions")]

/-- The counts of the violation summary. -/
def validateViolationSummaryValues (summary : List (String × Json)) : Except AuditEventError Unit :=
  Result.forEach (fun m => Result.require (isU64Value m.2) (.invalidMetadataValue
    (if violationSummaryAllowlist.contains m.1 then m.1 else "violation_summary"))) summary

/-- A check concerns a key only if it is there. -/
def validateMetadataValues (action : AuditAction) (result : AuditResult)
    (object : List (String × Json)) : Except AuditEventError Unit := do
  Result.forEach (fun check => Result.require ((SortedMap.get? object check.1).all check.2)
    (.invalidMetadataValue check.1)) (metadataValueChecks action result)
  if action = .integrityCheck then
    match SortedMap.get? object "violation_summary" with
    | none => .ok ()
    | some (.object summary) => validateViolationSummaryValues summary
    | some _ => .error .violationSummaryMustBeObject
  else .ok ()

/-- The keys first, then the values. -/
def validateAllowlistForAction (action : AuditAction) (result : AuditResult)
    (object : List (String × Json)) : Except AuditEventError Unit := do
  if action = .integrityCheck then validateViolationSummaryKeys object else .ok ()
  Result.forEach (fun m => Result.require ((action.allowedMetadataKeys result).contains m.1)
    (.unknownMetadataKey m.1)) object
  validateRequiredMetadataKeys action result object true
  validateMetadataValues action result object

/-! ### Events -/

/-- The fields of an event before they are checked together. -/
structure AuditEventParts where
  auditEventId : AuditEventId
  requestId : RequestId
  actorUserId : Option OwnerUserId
  actorDeviceId : Option DeviceId
  action : AuditAction
  targetSecretId : Option SecretId
  result : AuditResult
  keyVersion : Option KeyVersion
  metadataJson : AuditMetadata
  deriving DecidableEq

/-- Who failed to authenticate is not known. -/
def validateAuthFailureParts (parts : AuditEventParts) : Except AuditEventError Unit := do
  Result.require parts.actorUserId.isNone (.authFailureFieldMustBeNull "actor_user_id")
  Result.require parts.actorDeviceId.isNone (.authFailureFieldMustBeNull "actor_device_id")
  Result.require parts.targetSecretId.isNone (.authFailureFieldMustBeNull "target_secret_id")
  Result.require parts.keyVersion.isNone (.authFailureFieldMustBeNull "key_version")

/-- `validate_event_parts`. -/
def validateEventParts (parts : AuditEventParts) : Except AuditEventError Unit := do
  Result.require (!(parts.result == .success && parts.action.isWriteSuccessOnly))
    (.writeSuccessActionNotAllowed parts.action)
  Result.require (!(parts.result == .success && parts.action.isFailureOnly))
    (.failureOnlyActionSuccessNotAllowed parts.action)
  if parts.action = .authFailure then validateAuthFailureParts parts else .ok ()
  let _ ← parts.metadataJson.requireSourceEventAt
  validateAllowlistForAction parts.action parts.result parts.metadataJson.object

/-- An event that passed the checks. -/
structure AuditEvent extends AuditEventParts where
  valid : validateEventParts toAuditEventParts = .ok ()

namespace AuditEvent

@[ext]
theorem ext {e f : AuditEvent} (h : e.toAuditEventParts = f.toAuditEventParts) : e = f := by
  cases e
  cases f
  simp_all

instance : DecidableEq AuditEvent := fun e f =>
  decidable_of_iff (e.toAuditEventParts = f.toAuditEventParts)
    ⟨ext, congrArg toAuditEventParts⟩

/-- `AuditEvent::new`. -/
def new (parts : AuditEventParts) : Except AuditEventError AuditEvent :=
  match h : validateEventParts parts with
  | .ok () => .ok ⟨parts, h⟩
  | .error e => .error e

theorem new_eq_ok {parts : AuditEventParts} {e : AuditEvent} :
    new parts = .ok e ↔ e.toAuditEventParts = parts := by
  constructor
  · intro h
    unfold new at h
    split at h <;> cases h
    rfl
  · rintro rfl
    unfold new
    split
    · rfl
    · exact absurd (e.valid.symm.trans ‹_›) (by simp)

end AuditEvent

end Mipsorcu
