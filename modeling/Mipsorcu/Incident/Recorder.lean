import Mipsorcu.Audit.Event
import Mipsorcu.Database.Incident
import Mipsorcu.Server.LedgerAppender
import Mipsorcu.Server.LedgerJsonb

/-!
# Incidents, as the server records them

`IncidentRecorder` turns an incident into an audit event and a draft of a ledger entry, and calls
`rpc_record_incident` with both. The entry that is signed for the draft passes the comparisons of
the procedure with the incident (`incidentEntryIsValid_fromSignedEntry`).
-/

namespace Mipsorcu

open Sql

/-! ### Incidents -/

/-- `IncidentType`. -/
inductive IncidentType where
  | hashChainMismatch
  | signatureMismatch
  | monthlyDigestMismatch
  | digestTimestampingMismatch
  | archiveExportMismatch
  | sequenceGap
  | unknownSignatureKey
  | nonAuditorLedgerRead
  | ledgerSecretLeakSuspected
  | siemLongFailure
  | auditUiForbiddenOperation
  deriving DecidableEq

/-- The name in metadata and payload. -/
def IncidentType.asStr : IncidentType → String
  | hashChainMismatch => "hash_chain_mismatch"
  | signatureMismatch => "signature_mismatch"
  | monthlyDigestMismatch => "monthly_digest_mismatch"
  | digestTimestampingMismatch => "digest_timestamping_mismatch"
  | archiveExportMismatch => "archive_export_mismatch"
  | sequenceGap => "sequence_gap"
  | unknownSignatureKey => "unknown_signature_key"
  | nonAuditorLedgerRead => "non_auditor_ledger_read"
  | ledgerSecretLeakSuspected => "ledger_secret_leak_suspected"
  | siemLongFailure => "siem_long_failure"
  | auditUiForbiddenOperation => "audit_ui_forbidden_operation"

/-- `IncidentSeverity`. -/
inductive IncidentSeverity where
  | critical
  | high
  | medium
  | low
  deriving DecidableEq

/-- The name in metadata and payload. -/
def IncidentSeverity.asStr : IncidentSeverity → String
  | critical => "critical"
  | high => "high"
  | medium => "medium"
  | low => "low"

/-- `NotificationResult`. -/
inductive NotificationResult where
  | sent
  | failed
  | suppressed
  | notConfigured
  deriving DecidableEq

/-- The name in metadata and payload. -/
def NotificationResult.asStr : NotificationResult → String
  | sent => "sent"
  | failed => "failed"
  | suppressed => "suppressed"
  | notConfigured => "not_configured"

/-- What the detector of an incident says about it. -/
structure IncidentRecordInput where
  incidentType : IncidentType
  severity : IncidentSeverity
  detectionSource : String
  dedupeKey : String
  errorCode : String
  incidentSourceEventId : Option AuditEventId
  targetSequenceNo : Option ℕ
  targetYearMonth : Option MonthlyDigestPeriod
  dedupeWindowSeconds : ℕ
  deriving DecidableEq

/-- `IncidentRecordError`. -/
inductive IncidentRecordError where
  | idGenerationFailed
  | sourceEventAtUnavailable
  | invalidMetadata (error : AuditEventError)
  | invalidLedgerPayload (error : LedgerError)
  | invalidLedgerDraft (error : LedgerError)
  | ledgerSignFailed (error : LedgerAppendError)
  | supabase (error : SupabaseRpcError)

/-! ### The event and the draft -/

/-- The members that the metadata and the payload have in common. -/
def IncidentRecordInput.members (input : IncidentRecordInput)
    (notificationResult : NotificationResult) (notificationSink : String) :
    List (String × Json) :=
  [("incident_type", .string input.incidentType.asStr), ("severity", .string input.severity.asStr),
    ("detection_source", .string input.detectionSource), ("dedupe_key", .string input.dedupeKey),
    ("notification_sink", .string notificationSink),
    ("notification_result", .string notificationResult.asStr)] ++
  (input.targetSequenceNo.toList.map fun n => ("target_sequence_no", .nat n)) ++
  input.targetYearMonth.toList.map fun period => ("target_year_month", .string period.text)

/-- `build_incident_metadata`. -/
def buildIncidentMetadata (input : IncidentRecordInput) (notificationResult : NotificationResult)
    (notificationSink : String) (sourceEventAt : SourceEventAt) :
    Except IncidentRecordError AuditMetadata := do
  let metadata ← (AuditMetadata.new (.object (input.members notificationResult notificationSink ++
    [("error_code", .string input.errorCode), ("source_event_at", .string sourceEventAt.text)] ++
    input.incidentSourceEventId.toList.map fun id =>
      ("source_event_id", .string id.asCanonicalString)))).mapError .invalidMetadata
  (validateAllowlistForAction .incidentDetected .failure metadata.object).mapError .invalidMetadata
  pure metadata

/-- `build_incident_ledger_payload`. -/
def buildIncidentLedgerPayload (input : IncidentRecordInput)
    (notificationResult : NotificationResult) (notificationSink : String) :
    Except IncidentRecordError LedgerPayload :=
  (LedgerPayload.new .incidentDetected
    (.object (input.members notificationResult notificationSink))).mapError .invalidLedgerPayload

/-- The identifiers that a call generates. -/
structure IncidentIds where
  requestId : RequestId
  auditEventId : AuditEventId
  ledgerEntryId : LedgerEntryId

/-- The event and the draft of `record_after_notification`. -/
def prepareIncident (input : IncidentRecordInput) (sourceEventAt : SourceEventAt)
    (notificationSink : String) (notificationResult : NotificationResult) (ids : IncidentIds) :
    Except IncidentRecordError (AuditEvent × LedgerAppendDraft) := do
  let metadata ← buildIncidentMetadata input notificationResult notificationSink sourceEventAt
  let event ← (AuditEvent.new {
    auditEventId := ids.auditEventId
    requestId := ids.requestId
    actorUserId := none
    actorDeviceId := none
    action := .incidentDetected
    targetSecretId := none
    result := .failure
    keyVersion := none
    metadataJson := metadata }).mapError .invalidMetadata
  let payload ← buildIncidentLedgerPayload input notificationResult notificationSink
  let draft ← (LedgerAppendDraft.new {
    ledgerEntryId := ids.ledgerEntryId
    entryType := .incidentDetected
    sourceEventAt := sourceEventAt
    requestId := ids.requestId
    -- links the entry to the event
    sourceEventId := some ids.auditEventId
    targetSecretId := none
    targetSecretVersionId := none
    actorUserId := none
    actorDeviceId := none
    result := .failure
    errorCode := some input.errorCode
    payload := payload }).mapError .invalidLedgerDraft
  pure (event, draft)

/-! ### The call -/

/-- `RecordIncidentParams::from_input` with the casts to the argument types; a value outside its
type fails the call before the procedure starts. Identifiers read back as what they are. -/
def recordIncidentArgs (input : IncidentRecordInput) (event : AuditEvent)
    (entry : SignedLedgerEntry) (notificationResult : NotificationResult) :
    Option RecordIncidentArgs := do
  let dedupeWindowSeconds ← LedgerEntryRpcParams.castInteger 2147483647 input.dedupeWindowSeconds
  let targetSequenceNo ← match input.targetSequenceNo with
    | none => some none
    | some n => (LedgerEntryRpcParams.castInteger ledgerI64Max n).map some
  pure {
    auditEventId := some event.auditEventId.uuid
    requestId := some event.requestId.uuid
    incidentType := some input.incidentType.asStr
    severity := some input.severity.asStr
    detectionSource := some input.detectionSource
    dedupeKey := some input.dedupeKey
    notificationSink := some (((SortedMap.get? event.metadataJson.object "notification_sink").bind
      Json.asStr).getD "dummy")
    notificationResult := some notificationResult.asStr
    errorCode := some input.errorCode
    sourceEventAt := some entry.sourceEventAt.text
    ledgerEntry := some (LedgerEntryRpcParams.fromSignedEntry entry).toJson
    incidentSourceEventId := input.incidentSourceEventId.map AuditEventId.uuid
    targetSequenceNo := targetSequenceNo
    targetYearMonth := input.targetYearMonth.map MonthlyDigestPeriod.text
    dedupeWindowSeconds := some dedupeWindowSeconds }

/-- `IncidentRecordOutcome`. -/
structure IncidentRecordOutcome where
  auditEventId : AuditEventId
  suppressed : Bool

/-- The response row is parsed back into typed values. -/
def IncidentRecordOutcome.tryFrom (row : RecordIncidentRow) :
    Except SupabaseRpcError IncidentRecordOutcome := do
  let auditEventId ← (AuditEventId.parse row.auditEventId.hyphenated).mapError
    fun _ => .invalidResponse "incident RPC returned invalid audit_event_id"
  Result.require (row.suppressed || row.ledgerEntryId.isSome) (.invalidResponse
    "incident RPC returned null ledger_entry_id for unsuppressed incident")
  pure ⟨auditEventId, row.suppressed⟩

/-- `record_incident`: the tables after the transaction, and what the caller gets if the response
arrives. -/
def callRecordIncident (pg : PostgresSession) (db : SecretDb) (input : IncidentRecordInput)
    (event : AuditEvent) (entry : SignedLedgerEntry) (notificationResult : NotificationResult) :
    SecretDb × Except SupabaseRpcError IncidentRecordOutcome :=
  match recordIncidentArgs input event entry notificationResult with
  | none => (db, .error (.nonSuccessStatus 400 "value out of range for type"))
  | some args =>
    match rpcRecordIncident pg db args with
    | .error error => (db, .error error.toRpcError)
    | .ok (db', row) => (db', IncidentRecordOutcome.tryFrom row)

/-- `incident_recently_seen`. -/
def callIncidentRecentlySeen (db : SecretDb) (input : IncidentRecordInput)
    (sourceEventAt : SourceEventAt) : Except SupabaseRpcError Bool :=
  match LedgerEntryRpcParams.castInteger 2147483647 input.dedupeWindowSeconds with
  | none => .error (.nonSuccessStatus 400 "value out of range for type")
  | some window => (rpcIncidentRecentlySeen db {
      incidentType := some input.incidentType.asStr
      dedupeKey := some input.dedupeKey
      sourceEventAt := some sourceEventAt.text
      dedupeWindowSeconds := some window }).mapError SqlError.toRpcError

/-- A stale chain head is the only reason to try again. -/
def isRetryableIncidentRecordError : SupabaseRpcError → Bool
  | .nonSuccessStatus _ body => responseContainsMarker body "ledger_sequence_mismatch" ||
      responseContainsMarker body "ledger_previous_hash_mismatch"
  | _ => false

/-- `MAX_RECORD_RETRIES`. -/
def maxRecordRetries : ℕ := 2

/-- **The comparisons accept the entry of the incident.** -/
theorem incidentEntryIsValid_fromSignedEntry {pg : PostgresSession} {i : Incident}
    {e : SignedLedgerEntry}
    (hentry : i.ledgerEntry = (LedgerEntryRpcParams.fromSignedEntry e).toJson)
    (htype : e.entryType = .incidentDetected) (htime : e.sourceEventAt.text = i.sourceEventAt)
    (hrequest : e.requestId.uuid = i.requestId)
    (hevent : e.sourceEventId.map AuditEventId.uuid = some i.auditEventId)
    (hresult : e.result = .failure) (herror : e.errorCode = some i.errorCode)
    (hcode : i.errorCode ≠ "")
    (hpayload : jsonbEq e.payload.asValue (.object (incidentPayload i)) = true)
    (hkey : e.signatureKeyVersion.val ≤ 2147483647)
    (hforbidden : ledgerPayloadHasForbiddenKey pg.toPostgres
      (LedgerEntryRpcParams.fromSignedEntry e).toJson = false)
    (hvalid : ledgerPayloadIsValid pg.toPostgres "incident_detected" e.payload.asValue = true) :
    incidentEntryIsValid pg i = true := by
  obtain ⟨id, hid, hiduuid⟩ := Option.map_eq_some_iff.mp hevent
  have hsequence : e.sequenceNo.val ≤ 9223372036854775807 := e.sequenceNo.le_max
  have hbytes : ∀ bytes, decodeBytea pg (byteaText bytes) = some bytes := fun bytes => by
    simp [decodeBytea, byteaText, pg.decodeHex_hexEncode]
  unfold incidentEntryIsValid
  rw [hentry, hforbidden]
  simp only [LedgerEntryRpcParams.toJson, memberText_object, member?,
    List.lookup_cons, String.reduceBEq, Option.bind_some, textOf_string, textOf_nat,
    textOf_jsonOfOption]
  simp [LedgerEntryRpcParams.fromSignedEntry, LedgerEntryId.asCanonicalString,
    RequestId.asCanonicalString, LedgerHash.toByteaHex, LedgerSignature.toByteaHex,
    AuditEventId.asCanonicalString, pg.castUuid_hyphenated, pg.castBigint_digits,
    pg.castInteger_digits, hbytes, htype, htime, hrequest, hid, hiduuid, hresult, herror,
    hpayload, hvalid, nullifEmpty_some, hyphenated_ne_empty, hcode, hkey,
    hsequence, e.sequenceNo.pos, e.signatureKeyVersion.pos, FixedBytes.length_bytes]
  decide +kernel

end Mipsorcu
