import Mipsorcu.Database.AuditEvents

/-!
# Recording incidents

`rpc_record_incident`: the event of an incident and its ledger entry, in one transaction. An
incident of the same type and with the same dedupe key that is stored already, with a time not
earlier than the window before the new one, suppresses it.
-/

namespace Mipsorcu

namespace Sql

/-! ### The arguments -/

/-- The arguments of `rpc_record_incident`; each may be null. -/
structure RecordIncidentArgs where
  auditEventId : Option Uuid
  requestId : Option Uuid
  incidentType : Option String
  severity : Option String
  detectionSource : Option String
  dedupeKey : Option String
  notificationSink : Option String
  notificationResult : Option String
  errorCode : Option String
  sourceEventAt : Option String
  ledgerEntry : Option Json
  incidentSourceEventId : Option Uuid
  targetSequenceNo : Option ℤ
  targetYearMonth : Option String
  dedupeWindowSeconds : Option ℤ

/-- An incident: the arguments without nulls where none is allowed. -/
structure Incident where
  auditEventId : Uuid
  requestId : Uuid
  incidentType : String
  severity : String
  detectionSource : String
  dedupeKey : String
  notificationSink : String
  notificationResult : String
  errorCode : String
  sourceEventAt : String
  ledgerEntry : Json
  sourceEventId : Option Uuid
  targetSequenceNo : Option ℤ
  targetYearMonth : Option String
  dedupeWindowSeconds : ℤ

/-- The arguments, if none that is required is null. -/
def RecordIncidentArgs.incident? (args : RecordIncidentArgs) : Option Incident := do
  let auditEventId ← args.auditEventId
  let requestId ← args.requestId
  let incidentType ← args.incidentType
  let severity ← args.severity
  let detectionSource ← args.detectionSource
  let dedupeKey ← args.dedupeKey
  let notificationSink ← args.notificationSink
  let notificationResult ← args.notificationResult
  let errorCode ← args.errorCode
  let sourceEventAt ← args.sourceEventAt
  let ledgerEntry ← args.ledgerEntry
  let dedupeWindowSeconds ← args.dedupeWindowSeconds
  pure { auditEventId, requestId, incidentType, severity, detectionSource, dedupeKey,
         notificationSink, notificationResult, errorCode, sourceEventAt, ledgerEntry,
         sourceEventId := args.incidentSourceEventId, targetSequenceNo := args.targetSequenceNo,
         targetYearMonth := args.targetYearMonth, dedupeWindowSeconds }

/-! ### The checks -/

/-- `incident_type_allowed`. -/
def incidentTypeAllowed (incidentType : String) : Bool :=
  ["hash_chain_mismatch", "signature_mismatch", "monthly_digest_mismatch",
    "digest_timestamping_mismatch", "archive_export_mismatch", "sequence_gap",
    "unknown_signature_key", "non_auditor_ledger_read", "ledger_secret_leak_suspected",
    "siem_long_failure", "audit_ui_forbidden_operation"].contains incidentType

/-- `incident_severity_allowed`. -/
def incidentSeverityAllowed (severity : String) : Bool :=
  ["critical", "high", "medium", "low"].contains severity

/-- `incident_notification_result_allowed`. -/
def incidentNotificationResultAllowed (result : String) : Bool :=
  ["sent", "failed", "suppressed", "not_configured"].contains result

/-- The checks of the arguments before anything is built of them. -/
def incidentArgumentsAreValid (i : Incident) : Bool :=
  jsonbTypeof i.ledgerEntry == "object" && incidentTypeAllowed i.incidentType &&
    incidentSeverityAllowed i.severity && incidentNotificationResultAllowed i.notificationResult &&
    (timestamptz i.sourceEventAt).isSome && (i.targetSequenceNo.all fun n => decide (0 < n)) &&
    decide (1 ≤ i.dedupeWindowSeconds) && decide (i.dedupeWindowSeconds ≤ 604800) &&
    isNonBlankUpTo 128 i.detectionSource && isNonBlankUpTo 128 i.dedupeKey &&
    isNonBlankUpTo 128 i.notificationSink && isNonBlankUpTo 64 i.errorCode &&
    i.targetYearMonth.all isYearMonth

/-- The members that the metadata and the payload end with. -/
def incidentTargetMembers (i : Incident) : List (String × Json) :=
  (i.targetSequenceNo.toList.map fun n => ("target_sequence_no", .number (.posInt n.toNat))) ++
    i.targetYearMonth.toList.map fun month => ("target_year_month", .string month)

/-- `v_metadata_json`. -/
def incidentMetadata (i : Incident) : List (String × Json) := [
  ("dedupe_key", .string i.dedupeKey),
  ("detection_source", .string i.detectionSource),
  ("error_code", .string i.errorCode),
  ("incident_type", .string i.incidentType),
  ("notification_result", .string i.notificationResult),
  ("notification_sink", .string i.notificationSink),
  ("severity", .string i.severity),
  ("source_event_at", .string i.sourceEventAt)] ++
  (i.sourceEventId.toList.map fun id => ("source_event_id", .string id.hyphenated)) ++
  incidentTargetMembers i

/-- `v_expected_payload`. -/
def incidentPayload (i : Incident) : List (String × Json) := [
  ("dedupe_key", .string i.dedupeKey),
  ("detection_source", .string i.detectionSource),
  ("incident_type", .string i.incidentType),
  ("notification_result", .string i.notificationResult),
  ("notification_sink", .string i.notificationSink),
  ("severity", .string i.severity)] ++ incidentTargetMembers i

/-- The members an entry may have. -/
def incidentEntryKeys : List String :=
  ["p_ledger_entry_id", "p_sequence_no", "p_entry_type", "p_source_event_at", "p_request_id",
    "p_source_event_id", "p_target_secret_id", "p_target_secret_version_id", "p_actor_user_id",
    "p_actor_device_id", "p_result", "p_error_code", "p_payload", "p_canonicalization_version",
    "p_previous_entry_hash", "p_entry_hash", "p_hash_algorithm", "p_signature",
    "p_signature_algorithm", "p_signature_key_version"]

/-- The comparisons of the ledger entry with the incident. A cast that raises ends in the same
exception as a comparison that fails. -/
def incidentEntryIsValid (pg : PostgresSession) (i : Incident) : Bool :=
  let text := memberText i.ledgerEntry
  let byteaHasLength := fun key n => ((text key).bind (decodeBytea pg)).any fun b => b.length == n
  !ledgerPayloadHasForbiddenKey pg.toPostgres i.ledgerEntry &&
    (match i.ledgerEntry with
      | .object members => members.all fun m => incidentEntryKeys.contains m.1
      | _ => false) &&
    ((text "p_ledger_entry_id").bind pg.castUuid).isSome &&
    (((text "p_sequence_no").bind pg.castBigint).any fun n => decide (0 < n)) &&
    text "p_entry_type" == some "incident_detected" &&
    -- the entry has to say what the arguments of the call do
    text "p_source_event_at" == some i.sourceEventAt &&
    (text "p_request_id").bind pg.castUuid == some i.requestId &&
    (nullifEmpty (text "p_source_event_id")).bind pg.castUuid == some i.auditEventId &&
    text "p_result" == some "failure" &&
    nullifEmpty (text "p_error_code") == some i.errorCode &&
    ((member? i.ledgerEntry "p_payload").any fun payload =>
      jsonbEq payload (.object (incidentPayload i))) &&
    (text "p_canonicalization_version").bind pg.castInteger == some 1 &&
    byteaHasLength "p_previous_entry_hash" 32 && byteaHasLength "p_entry_hash" 32 &&
    text "p_hash_algorithm" == some "sha-256" && byteaHasLength "p_signature" 64 &&
    text "p_signature_algorithm" == some "ed25519" &&
    (((text "p_signature_key_version").bind pg.castInteger).any fun n => decide (0 < n)) &&
    ((member? i.ledgerEntry "p_payload").any fun payload =>
      ledgerPayloadIsValid pg.toPostgres "incident_detected" payload)

/-- A stored incident of a type and a key whose time is not earlier than the window before the given
time. -/
def isRecentIncident (incidentType dedupeKey sourceEventAt : String) (dedupeWindowSeconds : ℤ)
    (e : AuditEventRow) : Bool :=
  e.action == "incident_detected" && e.result == "failure" &&
    memberText e.metadataJson "incident_type" == some incidentType &&
    memberText e.metadataJson "dedupe_key" == some dedupeKey &&
    match (memberText e.metadataJson "source_event_at").bind timestamptz,
      timestamptz sourceEventAt with
    | some stored, some given =>
      decide ((given : ℤ) - dedupeWindowSeconds * 1000000 ≤ (stored : ℤ))
    | _, _ => false

/-- What suppresses an incident is a recent one under another identifier. -/
def suppressesIncident (i : Incident) (e : AuditEventRow) : Bool :=
  e.id != i.auditEventId &&
    isRecentIncident i.incidentType i.dedupeKey i.sourceEventAt i.dedupeWindowSeconds e

/-! ### The procedure -/

/-- The row `rpc_record_incident` returns. -/
structure RecordIncidentRow where
  auditEventId : Uuid
  ledgerEntryId : Option Uuid
  suppressed : Bool
  deriving DecidableEq

/-- The event of an incident. -/
def incidentEvent (i : Incident) : AuditEventRow where
  id := i.auditEventId
  requestId := i.requestId
  actorUserId := none
  actorDeviceId := none
  action := "incident_detected"
  targetSecretId := none
  result := "failure"
  keyVersion := none
  metadataJson := .object (incidentMetadata i)

/-- What is checked before the lock of the incident is taken. -/
def incidentIsAccepted (pg : PostgresSession) (i : Incident) : Bool :=
  incidentArgumentsAreValid i &&
    (!auditMetadataHasForbiddenKey pg.toPostgres (.object (incidentMetadata i)) &&
      !auditMetadataHasSchemaViolation "incident_detected" "failure"
        (.object (incidentMetadata i)) true) &&
    incidentEntryIsValid pg i

/-- What is done for an incident that is not suppressed. -/
def appendIncident (pg : PostgresSession) (db : SecretDb) (i : Incident) :
    Except SqlError (SecretDb × RecordIncidentRow) := do
  let (db, _) ← appendAuditEvent pg db (incidentEvent i)
  let (ledger, row) ← rpcAppendLedgerEntryFromJsonb pg db.ledger i.ledgerEntry
  pure ({ db with ledger }, ⟨i.auditEventId, some row.ledgerEntryId, false⟩)

/-- The body of `rpc_record_incident` for arguments without nulls. -/
def recordIncident (pg : PostgresSession) (db : SecretDb) (i : Incident) :
    Except SqlError (SecretDb × RecordIncidentRow) := do
  -- the checks raise the same exception, so their order cannot be told
  Result.require (incidentIsAccepted pg i) invalidRpcInput
  if db.auditEvents.any (suppressesIncident i) then
    pure (db, ⟨i.auditEventId, none, true⟩)
  else
    appendIncident pg db i

/-- The body is the checks, and then, under the lock, the search for an incident that suppresses
this one and the two appends. -/
theorem recordIncident_of_accepted {pg : PostgresSession} {db : SecretDb} {i : Incident}
    (h : incidentIsAccepted pg i = true) :
    recordIncident pg db i = if db.auditEvents.any (suppressesIncident i) then
      .ok (db, ⟨i.auditEventId, none, true⟩) else appendIncident pg db i := by
  rw [recordIncident, h, Result.require_true, Result.ok_bind]
  rfl

/-- `rpc_record_incident`. -/
def rpcRecordIncident (pg : PostgresSession) (db : SecretDb) (args : RecordIncidentArgs) :
    Except SqlError (SecretDb × RecordIncidentRow) := do
  let i ← Result.ofOption invalidRpcInput args.incident?
  (recordIncident pg db i).mapError asInvalidRpcInput

/-- **All a committed call can do**: nothing, as the incident is suppressed, or append its event and
its entry. -/
theorem rpcRecordIncident_eq_ok {pg : PostgresSession} {db db' : SecretDb}
    {args : RecordIncidentArgs} {result : RecordIncidentRow}
    (h : rpcRecordIncident pg db args = .ok (db', result)) :
    ∃ i, args.incident? = some i ∧ ((result.suppressed = true ∧ db' = db ∧
        ∃ e ∈ db.auditEvents, suppressesIncident i e = true) ∨
      (result.suppressed = false ∧ (∀ e ∈ db.auditEvents, suppressesIncident i e = false) ∧
        ∃ recorded row, appendAuditEvent pg db (incidentEvent i) = .ok (recorded, i.auditEventId) ∧
          rpcAppendLedgerEntryFromJsonb pg recorded.ledger i.ledgerEntry = .ok (db'.ledger, row) ∧
          db' = { recorded with ledger := db'.ledger })) := by
  simp only [rpcRecordIncident, recordIncident, Result.bind_eq_ok, Result.ofOption_eq_ok,
    Result.mapError_eq_ok] at h
  obtain ⟨i, hi, _, -, h⟩ := h
  refine ⟨i, hi, ?_⟩
  split_ifs at h with hsuppressed
  · simp only [Result.pure_eq_ok, Prod.mk.injEq] at h
    obtain ⟨rfl, rfl⟩ := h
    exact .inl ⟨rfl, rfl, by simpa using hsuppressed⟩
  · simp only [appendIncident, Result.bind_eq_ok, Result.pure_eq_ok, Prod.exists,
      Prod.mk.injEq] at h
    obtain ⟨recorded, id, happend, ledger, row, hledger, rfl, rfl⟩ := h
    obtain rfl : id = i.auditEventId := (appendAuditEvent_eq_ok happend).1
    exact .inr ⟨rfl, by simpa using hsuppressed, recorded, row, happend, hledger, rfl⟩

/-! ### The check before a notification -/

/-- The arguments of `rpc_incident_recently_seen`; each may be null. -/
structure IncidentRecentlySeenArgs where
  incidentType : Option String
  dedupeKey : Option String
  sourceEventAt : Option String
  dedupeWindowSeconds : Option ℤ

/-- `rpc_incident_recently_seen`. -/
def rpcIncidentRecentlySeen (db : SecretDb) (args : IncidentRecentlySeenArgs) :
    Except SqlError Bool := do
  let incidentType ← Result.ofOption invalidRpcInput args.incidentType
  let dedupeKey ← Result.ofOption invalidRpcInput args.dedupeKey
  let sourceEventAt ← Result.ofOption invalidRpcInput args.sourceEventAt
  let dedupeWindowSeconds ← Result.ofOption invalidRpcInput args.dedupeWindowSeconds
  Result.require (incidentTypeAllowed incidentType && (timestamptz sourceEventAt).isSome &&
    decide (1 ≤ dedupeWindowSeconds) && decide (dedupeWindowSeconds ≤ 604800)) invalidRpcInput
  Result.require (isNonBlankUpTo 128 dedupeKey) invalidRpcInput
  pure (db.auditEvents.any
    (isRecentIncident incidentType dedupeKey sourceEventAt dedupeWindowSeconds))

/-- The event of an incident is recent at each time up to the window after the incident. -/
theorem isRecentIncident_incidentEvent {i : Incident} {sourceEventAt : String} {window : ℤ}
    {given stored : ℕ} (hgiven : timestamptz sourceEventAt = some given)
    (hstored : timestamptz i.sourceEventAt = some stored)
    (h : (given : ℤ) - window * 1000000 ≤ stored) :
    isRecentIncident i.incidentType i.dedupeKey sourceEventAt window (incidentEvent i) = true := by
  have haction : (incidentEvent i).action = "incident_detected" := rfl
  have hresult : (incidentEvent i).result = "failure" := rfl
  have htime : memberText (incidentEvent i).metadataJson "source_event_at" =
      some i.sourceEventAt := rfl
  have htype : memberText (incidentEvent i).metadataJson "incident_type" =
      some i.incidentType := rfl
  have hkey : memberText (incidentEvent i).metadataJson "dedupe_key" = some i.dedupeKey := rfl
  simp only [isRecentIncident, haction, hresult, htime, htype, hkey, Option.bind_some, hstored,
    hgiven, h, decide_true, beq_self_eq_true, Bool.and_true]

end Sql

end Mipsorcu
