import Mathlib.Data.List.Basic

/-!
# Audited actions

The operations an audit event can be about, and their two results, with the names they have in the
audit table. A successful write is recorded by the write procedure itself, and some actions are
recorded only when they fail.
-/

namespace Mipsorcu

/-- `AuditAction`. -/
inductive AuditAction where
  | encryptCreate
  | encryptRotate
  | decrypt
  | versionPurge
  | integrityCheck
  | restoreTest
  | authFailure
  | keyRotationStart
  | keyRotationReencrypt
  | keyRotationComplete
  | signatureKeyCreated
  | signatureKeyActivated
  | signatureKeyRetired
  | monthlyDigestGenerate
  | monthlyDigestVerify
  | archiveExport
  | digestTimestamping
  | siemForwardFailure
  | auditReportGenerate
  | auditUiRead
  | schedulerJob
  | incidentDetected
  | secretAliasCreate
  | secretAliasUpdate
  | secretAliasDelete
  | secretAliasList
  deriving DecidableEq

namespace AuditAction

/-- The name in the `action` column. -/
def asStr : AuditAction → String
  | encryptCreate => "encrypt_create"
  | encryptRotate => "encrypt_rotate"
  | decrypt => "decrypt"
  | versionPurge => "version_purge"
  | integrityCheck => "integrity_check"
  | restoreTest => "restore_test"
  | authFailure => "auth_failure"
  | keyRotationStart => "key_rotation_start"
  | keyRotationReencrypt => "key_rotation_reencrypt"
  | keyRotationComplete => "key_rotation_complete"
  | signatureKeyCreated => "signature_key_created"
  | signatureKeyActivated => "signature_key_activated"
  | signatureKeyRetired => "signature_key_retired"
  | monthlyDigestGenerate => "monthly_digest_generate"
  | monthlyDigestVerify => "monthly_digest_verify"
  | archiveExport => "archive_export"
  | digestTimestamping => "digest_timestamping"
  | siemForwardFailure => "siem_forward_failure"
  | auditReportGenerate => "audit_report_generate"
  | auditUiRead => "audit_ui_read"
  | schedulerJob => "scheduler_job"
  | incidentDetected => "incident_detected"
  | secretAliasCreate => "secret_alias_create"
  | secretAliasUpdate => "secret_alias_update"
  | secretAliasDelete => "secret_alias_delete"
  | secretAliasList => "secret_alias_list"

/-- `is_write_success_only`: the write procedure records the success itself. -/
def isWriteSuccessOnly : AuditAction → Bool
  | encryptCreate | encryptRotate | versionPurge => true
  | _ => false

/-- There is no success of these to record. -/
def isFailureOnly : AuditAction → Bool
  | authFailure | siemForwardFailure | incidentDetected => true
  | _ => false

end AuditAction

/-- `AuditResult`. -/
inductive AuditResult where
  | success
  | failure
  deriving DecidableEq

/-- The name in the `result` column. -/
def AuditResult.asStr : AuditResult → String
  | success => "success"
  | failure => "failure"

end Mipsorcu
