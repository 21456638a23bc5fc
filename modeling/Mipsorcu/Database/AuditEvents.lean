import Mipsorcu.Database.SecretStore

/-!
# The audit table

The checks of the audit metadata in their final form, the insert into `audit_events` with its
constraints, and the two procedures that append an event. Events are never updated or deleted.

The schema of the metadata is a table: which keys an action requires and which it allows. A
violation raises only in strict mode.
-/

namespace Mipsorcu

namespace Sql

/-! ### Metadata -/

/-- The keys of the metadata of one action. The two required lists are for `result = 'success'`
and for any other result; the two allowed lists are for `result = 'failure'` and for any other
result. -/
structure AuditMetadataSchema where
  requiredOnSuccess : List String
  requiredOtherwise : List String
  allowedOnFailure : List String
  allowedOtherwise : List String

namespace AuditMetadataSchema

/-- The same keys for every result. -/
def uniform (required allowed : List String) : AuditMetadataSchema :=
  ⟨required, required, allowed, allowed⟩

/-- Keys that only a success requires. -/
def onSuccess (required allowed : List String) : AuditMetadataSchema :=
  ⟨required, [], allowed, allowed⟩

end AuditMetadataSchema

/-- The keys of `violation_summary`, all required. -/
def violationSummaryKeys : List String :=
  ["current_version_invalid", "version_invalid", "retention_exceeded", "ciphertext_empty",
    "encrypted_data_key_empty", "nonce_length_invalid", "algorithm_invalid", "nonce_duplicate",
    "aad_keys_invalid", "aad_row_mismatch", "created_at_mismatch", "audit_action_invalid",
    "audit_result_invalid", "audit_metadata_not_object", "audit_metadata_forbidden_key",
    "audit_source_event_at_invalid"]

/-- The schemas by action; the actions are those `audit_events_action_allowed` lists. -/
def auditMetadataSchemas : List (String × AuditMetadataSchema) := [
  ("encrypt_create", .uniform ["version", "secret_version_id"]
    ["version", "secret_version_id", "source_event_at"]),
  ("encrypt_rotate", .uniform ["version", "secret_version_id"]
    ["version", "secret_version_id", "source_event_at"]),
  ("decrypt", ⟨[], [], ["attempted_secret_id", "source_event_at"], ["source_event_at"]⟩),
  ("version_purge", .uniform ["version", "secret_version_id"]
    ["version", "secret_version_id", "source_event_at"]),
  ("integrity_check", .uniform
    ["check_name", "checked_secret_count", "checked_secret_version_count",
      "checked_audit_event_count", "duration_ms", "violation_count", "violation_summary", "trigger"]
    ["check_name", "checked_secret_count", "checked_secret_version_count",
      "checked_audit_event_count", "duration_ms", "violation_count", "violation_summary", "trigger",
      "error_code", "source_event_at"]),
  ("restore_test", .uniform ["phase", "sample_count", "trigger", "duration_ms"]
    ["phase", "sample_count", "trigger", "duration_ms", "error_code", "failed_version", "reason",
      "source_event_at"]),
  ("auth_failure", .uniform ["error_code"] ["error_code", "source_event_at"]),
  ("key_rotation_start", .uniform ["old_key_version", "new_key_version"]
    ["old_key_version", "new_key_version", "source_event_at"]),
  ("key_rotation_reencrypt", .uniform
    ["old_key_version", "new_key_version", "batch_size", "processed_count", "remaining_count"]
    ["old_key_version", "new_key_version", "batch_size", "processed_count", "remaining_count",
      "source_event_at"]),
  ("key_rotation_complete", .uniform ["old_key_version", "new_key_version", "remaining_count"]
    ["old_key_version", "new_key_version", "remaining_count", "source_event_at"]),
  ("signature_key_created", .uniform
    ["signature_key_version", "public_key_fingerprint", "created_at"]
    ["created_at", "public_key_fingerprint", "signature_key_version", "source_event_at"]),
  ("signature_key_activated", .uniform
    ["signature_key_version", "public_key_fingerprint", "activated_at"]
    ["activated_at", "public_key_fingerprint", "signature_key_version", "source_event_at"]),
  ("signature_key_retired", .uniform
    ["signature_key_version", "public_key_fingerprint", "retired_at"]
    ["public_key_fingerprint", "retired_at", "signature_key_version", "source_event_at"]),
  ("monthly_digest_generate", .uniform [] ["error_code", "target_year_month", "source_event_at"]),
  ("monthly_digest_verify", .uniform [] ["error_code", "target_year_month", "source_event_at"]),
  ("archive_export", .uniform ["target_year_month"]
    ["archive_key", "digest_hash", "target_year_month", "error_code", "source_event_at"]),
  ("digest_timestamping", .uniform ["target_year_month"]
    ["digest_hash", "timestamp_token_hash", "target_year_month", "error_code", "source_event_at"]),
  ("siem_forward_failure", .uniform ["error_code"]
    ["error_code", "event_type", "event_count", "source_event_at"]),
  ("audit_report_generate", .uniform ["format", "period_end", "period_start"]
    ["error_code", "format", "period_end", "period_start", "source_event_at"]),
  ("audit_ui_read", .uniform ["endpoint", "method", "resource"]
    ["endpoint", "method", "resource", "result_count", "period_start", "period_end",
      "start_sequence_no", "end_sequence_no", "target_year_month", "error_code",
      "source_event_at"]),
  ("scheduler_job", .uniform ["job_name", "trigger", "duration_ms"]
    ["duration_ms", "error_code", "job_name", "target_year_month", "trigger", "source_event_at"]),
  ("incident_detected", .uniform
    ["incident_type", "severity", "detection_source", "dedupe_key", "notification_sink",
      "notification_result", "error_code"]
    ["incident_type", "severity", "detection_source", "dedupe_key", "notification_sink",
      "notification_result", "error_code", "source_event_at", "source_event_id",
      "target_sequence_no", "target_year_month"]),
  ("secret_alias_create", .onSuccess
    ["alias_fingerprint", "alias_fingerprint_key_version", "alias_fingerprint_schema_version"]
    ["alias_fingerprint", "alias_fingerprint_key_version", "alias_fingerprint_schema_version",
      "error_code", "source_event_at"]),
  ("secret_alias_update", .onSuccess
    ["old_alias_fingerprint", "new_alias_fingerprint", "alias_fingerprint_key_version",
      "alias_fingerprint_schema_version"]
    ["old_alias_fingerprint", "new_alias_fingerprint", "alias_fingerprint_key_version",
      "alias_fingerprint_schema_version", "error_code", "source_event_at"]),
  ("secret_alias_delete", .onSuccess
    ["alias_fingerprint", "alias_fingerprint_key_version", "alias_fingerprint_schema_version"]
    ["alias_fingerprint", "alias_fingerprint_key_version", "alias_fingerprint_schema_version",
      "error_code", "source_event_at"]),
  ("secret_alias_list", .onSuccess ["result_count"]
    ["result_count", "error_code", "source_event_at"])]

/-- `audit_metadata_has_missing_required_key_for_action`. -/
def auditMetadataHasMissingRequiredKey (action result : String) (members : List (String × Json))
    (requireSourceEventAt : Bool) : Bool :=
  match auditMetadataSchemas.lookup action with
  | none => true
  | some schema =>
    let required := if result = "success" then schema.requiredOnSuccess
      else schema.requiredOtherwise
    let required := if requireSourceEventAt then required ++ ["source_event_at"] else required
    !(required.all fun key => (members.lookup key).isSome) ||
      (action == "integrity_check" && match members.lookup "violation_summary" with
        | some (.object summary) =>
          !(violationSummaryKeys.all fun key => (summary.lookup key).isSome)
        | _ => true)

/-- `audit_metadata_has_unknown_key_for_action`. -/
def auditMetadataHasUnknownKey (action result : String) (members : List (String × Json)) : Bool :=
  match auditMetadataSchemas.lookup action with
  | none => true
  | some schema =>
    let allowed := if result = "failure" then schema.allowedOnFailure else schema.allowedOtherwise
    (members.any fun m => !allowed.contains m.1) ||
      (action == "integrity_check" && match members.lookup "violation_summary" with
        | some (.object summary) => summary.any fun m => !violationSummaryKeys.contains m.1
        | _ => false)

/-- `~ '^[0-9a-fA-F-]{36}$'`. -/
def isUuidShaped (text : String) : Bool :=
  text.length == 36 && text.toList.all fun c => c == '-' || (hexValue c).isSome

/-- A `jsonb` number whose text is made of digits, positive as a `bigint`. -/
def isPositiveBigint (value : Json) : Bool :=
  (digitsBigint value).any fun n => decide (0 < n)

/-- `btrim(text) <> '' and length(text) <= max`. -/
def isNonBlankUpTo (max : ℕ) (text : String) : Bool :=
  btrim text != "" && decide (text.length ≤ max)

/-- The check of one member in the loop of `audit_metadata_has_invalid_value_for_action`. -/
def auditMetadataMemberIsValid (action result : String) (member : String × Json) : Bool :=
  let key := member.1
  let value := member.2
  if key ∈ ["version", "old_key_version", "new_key_version", "batch_size", "target_sequence_no",
      "start_sequence_no", "end_sequence_no", "signature_key_version",
      "alias_fingerprint_key_version", "alias_fingerprint_schema_version"] then
    isPositiveBigint value
  else if key ∈ ["checked_secret_count", "checked_secret_version_count",
      "checked_audit_event_count", "duration_ms", "violation_count", "sample_count",
      "processed_count", "remaining_count", "event_count", "result_count"] then
    isDigitsNumber value
  else if key = "error_code" then
    result == "failure" && isStringWhere (isNonBlankUpTo 64) value
  else if key ∈ ["source_event_at", "created_at", "activated_at", "retired_at", "period_start",
      "period_end"] then isStringWhere auditMetadataSourceEventAtIsValid value
  else if key ∈ ["public_key_fingerprint", "digest_hash", "timestamp_token_hash",
      "alias_fingerprint", "old_alias_fingerprint", "new_alias_fingerprint"] then
    isStringWhere isHex64 value
  else if key = "attempted_secret_id" then
    action == "decrypt" && result == "failure" && isStringWhere isUuidShaped value
  else if key = "secret_version_id" then isStringWhere isUuidShaped value
  else if key = "source_event_id" then
    action == "incident_detected" && isStringWhere isUuidShaped value
  else if key = "trigger" then isStringWhere ["background", "cli", "startup"].contains value
  else if key ∈ ["job_name", "event_type", "detection_source", "dedupe_key",
      "notification_sink", "endpoint", "resource"] then isStringWhere (isNonBlankUpTo 128) value
  else if key = "method" then isStringWhere (· == "GET") value
  else if key = "target_year_month" then isStringWhere isYearMonth value
  else if key = "format" then isStringWhere ["json", "markdown"].contains value
  else if key = "check_name" then isStringWhere (· == "mvp_integrity_check") value
  else if key = "phase" then isStringWhere (· == "verify") value
  else if key = "reason" then isStringWhere (· == "no_current_secret_versions") value
  else if key = "failed_version" then
    result != "success" && (value == .null || isPositiveBigint value)
  else if key = "archive_key" then
    result != "failure" && isStringWhere (isNonBlankUpTo 256) value
  else if key = "incident_type" then
    isStringWhere ["hash_chain_mismatch", "signature_mismatch", "monthly_digest_mismatch",
      "digest_timestamping_mismatch", "archive_export_mismatch", "sequence_gap",
      "unknown_signature_key", "non_auditor_ledger_read", "ledger_secret_leak_suspected",
      "siem_long_failure", "audit_ui_forbidden_operation"].contains value
  else if key = "severity" then
    isStringWhere ["critical", "high", "medium", "low"].contains value
  else if key = "notification_result" then
    isStringWhere ["sent", "failed", "suppressed", "not_configured"].contains value
  else if key = "violation_summary" then jsonbTypeof value == "object"
  else true

/-- `audit_metadata_has_schema_violation_for_action`. -/
def auditMetadataHasSchemaViolation (action result : String) (metadata : Json)
    (requireSourceEventAt : Bool) : Bool :=
  match metadata with
  | .object members =>
    auditMetadataHasUnknownKey action result members ||
      auditMetadataHasMissingRequiredKey action result members requireSourceEventAt ||
      !(members.all (auditMetadataMemberIsValid action result))
  | _ => true

/-- `audit_metadata_source_event_at_is_valid`. -/
def auditMetadataTimeIsValid (metadata : Json) : Bool :=
  match metadata with
  | .object members => match members.lookup "source_event_at" with
    | none => true
    | some (.string text) => auditMetadataSourceEventAtIsValid text
    | some _ => false
  | _ => false

/-- `audit_metadata_has_forbidden_key`: the keys are those of the ledger payloads. -/
def auditMetadataHasForbiddenKey (pg : Postgres) (metadata : Json) : Bool :=
  ledgerPayloadHasForbiddenKey pg metadata

/-! ### The insert -/

/-- No actor, target or key version. -/
def AuditEventRow.isImpersonal (row : AuditEventRow) : Bool :=
  row.actorUserId.isNone && row.actorDeviceId.isNone && row.targetSecretId.isNone &&
    row.keyVersion.isNone

/-- The check constraints of `audit_events`, in the order of their names. -/
def auditEventChecks (pg : Postgres) (row : AuditEventRow) : List (String × Bool) := [
  ("audit_events_action_allowed", (auditMetadataSchemas.lookup row.action).isSome),
  ("audit_events_actor_device_id_not_blank", row.actorDeviceId.all fun d => btrim d != ""),
  ("audit_events_auth_failure_failure_only",
    row.action != "auth_failure" || row.result == "failure"),
  ("audit_events_auth_failure_null_fields_check",
    row.action != "auth_failure" || AuditEventRow.isImpersonal row),
  ("audit_events_incident_detected_failure_only",
    row.action != "incident_detected" || row.result == "failure"),
  ("audit_events_key_version_positive", row.keyVersion.all fun k => decide (0 < k)),
  ("audit_events_metadata_json_no_forbidden_keys",
    !auditMetadataHasForbiddenKey pg row.metadataJson),
  ("audit_events_metadata_json_object", jsonbTypeof row.metadataJson == "object"),
  ("audit_events_metadata_json_source_event_at_valid", auditMetadataTimeIsValid row.metadataJson),
  ("audit_events_result_allowed", row.result == "success" || row.result == "failure"),
  ("audit_events_siem_forward_failure_failure_only",
    row.action != "siem_forward_failure" || row.result == "failure")]

/-- The row passes every check constraint. -/
def auditEventIsValid (pg : Postgres) (row : AuditEventRow) : Bool :=
  (auditEventChecks pg row).all Prod.snd

/-- The constraints of the table. -/
def checkAuditEvent (pg : Postgres) (row : AuditEventRow) : Except SqlError Unit :=
  Result.forEach (fun c => Result.require c.2 (checkViolation "audit_events" c.1))
    (auditEventChecks pg row)

/-- The foreign keys of `audit_events`. -/
def checkAuditEventReferences (db : SecretDb) (row : AuditEventRow) : Except SqlError Unit := do
  Result.require (row.actorUserId.all db.users.contains)
    (foreignKeyViolation "audit_events" "audit_events_actor_user_id_fkey")
  Result.require (row.targetSecretId.all fun id => db.secrets.any fun s => s.id == id)
    (foreignKeyViolation "audit_events" "audit_events_target_secret_id_fkey")

/-- `insert into audit_events`. -/
def insertAuditEvent (pg : Postgres) (db : SecretDb) (row : AuditEventRow) :
    Except SqlError SecretDb := do
  checkAuditEvent pg row
  Result.require (db.auditEvents.all fun e => e.id != row.id) (uniqueViolation "audit_events_pkey")
  checkAuditEventReferences db row
  pure { db with auditEvents := db.auditEvents ++ [row] }

/-- The actor and the target of the row exist. -/
structure AuditReferences (db : SecretDb) (row : AuditEventRow) : Prop where
  actor : ∀ id, row.actorUserId = some id → id ∈ db.users
  target : ∀ id, row.targetSecretId = some id → ∃ s ∈ db.secrets, s.id = id

variable {row : AuditEventRow}

theorem checkAuditEvent_eq_ok {pg : Postgres} {u : Unit} :
    checkAuditEvent pg row = .ok u ↔ auditEventIsValid pg row = true := by
  simp [checkAuditEvent, Result.forEach_eq_ok, auditEventIsValid]

theorem checkAuditEventReferences_eq_ok {db : SecretDb} {u : Unit} :
    checkAuditEventReferences db row = .ok u ↔ AuditReferences db row := by
  have hiff : (row.actorUserId.all db.users.contains = true ∧
      (row.targetSecretId.all fun id => db.secrets.any fun s => s.id == id) = true) ↔
      AuditReferences db row := by
    rw [Option.all_eq_true, Option.all_eq_true]
    constructor
    · rintro ⟨ha, ht⟩
      exact ⟨fun id h => by simpa using ha id h, fun id h => by simpa using ht id h⟩
    · rintro ⟨ha, ht⟩
      exact ⟨fun id h => by simpa using ha id h, fun id h => by simpa using ht id h⟩
  simp only [checkAuditEventReferences, Result.bind_eq_ok, Result.require_eq_ok]
  rw [← hiff, exists_const]

variable {db db' : SecretDb}

/-- What an insert needs and does. -/
theorem insertAuditEvent_eq_ok {pg : Postgres} :
    insertAuditEvent pg db row = .ok db' ↔ auditEventIsValid pg row = true ∧
      (∀ e ∈ db.auditEvents, e.id ≠ row.id) ∧ AuditReferences db row ∧
      db' = { db with auditEvents := db.auditEvents ++ [row] } := by
  simp only [insertAuditEvent, Result.bind_eq_ok, checkAuditEvent_eq_ok, Result.require_eq_ok,
    checkAuditEventReferences_eq_ok, Result.pure_eq_ok, List.all_eq_true, bne_iff_ne]
  constructor
  · rintro ⟨_, hvalid, _, hfresh, _, hrefs, rfl⟩
    exact ⟨hvalid, hfresh, hrefs, rfl⟩
  · rintro ⟨hvalid, hfresh, hrefs, rfl⟩
    exact ⟨(), hvalid, (), hfresh, (), hrefs, rfl⟩

/-- Every event a procedure added passes the check constraints. -/
def EventsValid (pg : Postgres) (db db' : SecretDb) : Prop :=
  ∀ e ∈ db'.auditEvents, e ∈ db.auditEvents ∨ auditEventIsValid pg e = true

theorem EventsValid.of_eq {pg : Postgres} (h : db'.auditEvents = db.auditEvents) :
    EventsValid pg db db' := by
  intro e he
  exact .inl (h ▸ he)

theorem EventsValid.trans {pg : Postgres} {db db' db'' : SecretDb} (h : EventsValid pg db db')
    (h' : EventsValid pg db' db'') : EventsValid pg db db'' := by
  intro e he
  rcases h' e he with hold | hvalid
  · exact h e hold
  · exact .inr hvalid

theorem EventsValid.concat {pg : Postgres} (hvalid : auditEventIsValid pg row = true)
    (hevents : db'.auditEvents = db.auditEvents ++ [row]) : EventsValid pg db db' := by
  intro e he
  rw [hevents, List.mem_append, List.mem_singleton] at he
  refine he.imp_right ?_
  rintro rfl
  exact hvalid

/-! ### The append procedures -/

/-- The arguments of `rpc_append_audit_event`; each may be null. -/
structure AppendAuditEventArgs where
  auditEventId : Option Uuid
  requestId : Option Uuid
  actorUserId : Option Uuid
  actorDeviceId : Option String
  action : Option String
  targetSecretId : Option Uuid
  result : Option String
  keyVersion : Option ℤ
  metadataJson : Option Json

/-- The row the arguments describe, if no required one is null. -/
def AppendAuditEventArgs.row? (args : AppendAuditEventArgs) : Option AuditEventRow := do
  let id ← args.auditEventId
  let requestId ← args.requestId
  let action ← args.action
  let result ← args.result
  let metadataJson ← args.metadataJson
  pure { id, requestId, actorUserId := args.actorUserId, actorDeviceId := args.actorDeviceId,
         action, targetSecretId := args.targetSecretId, result, keyVersion := args.keyVersion,
         metadataJson }

/-- The arguments that describe a row. -/
def argsOfRow (row : AuditEventRow) : AppendAuditEventArgs where
  auditEventId := some row.id
  requestId := some row.requestId
  actorUserId := row.actorUserId
  actorDeviceId := row.actorDeviceId
  action := some row.action
  targetSecretId := row.targetSecretId
  result := some row.result
  keyVersion := row.keyVersion
  metadataJson := some row.metadataJson

theorem AppendAuditEventArgs.row?_eq_some {args : AppendAuditEventArgs} :
    args.row? = some row ↔ args = argsOfRow row := by
  constructor
  · intro h
    obtain ⟨auditEventId, requestId, _, _, action, _, result, _, metadataJson⟩ := args
    iterate 4 obtain ⟨_, rfl, h⟩ := Option.bind_eq_some_iff.mp h
    obtain ⟨_, rfl, ⟨⟩⟩ := Option.bind_eq_some_iff.mp h
    rfl
  · rintro rfl
    rfl

/-- The argument checks of `rpc_append_audit_event`. A successful write or purge is recorded by
the write procedure only, and some actions only ever fail. -/
def auditEventArgumentsAreValid (pg : PostgresSession) (row : AuditEventRow) : Bool :=
  (auditMetadataSchemas.lookup row.action).isSome &&
    (row.result == "success" || row.result == "failure") &&
    !(row.result == "success" &&
      ["encrypt_create", "encrypt_rotate", "version_purge"].contains row.action) &&
    (!(["auth_failure", "siem_forward_failure", "incident_detected", "monthly_digest_generate",
      "monthly_digest_verify"].contains row.action) || row.result == "failure") &&
    (!(["auth_failure", "signature_key_created", "signature_key_activated",
      "signature_key_retired"].contains row.action) || AuditEventRow.isImpersonal row) &&
    (row.actorDeviceId.all fun d => btrim d != "") &&
    (row.keyVersion.all fun k => decide (0 < k)) &&
    jsonbTypeof row.metadataJson == "object" &&
    !auditMetadataHasForbiddenKey pg.toPostgres row.metadataJson &&
    auditMetadataTimeIsValid row.metadataJson &&
    !(pg.allowlistIsStrict &&
      auditMetadataHasSchemaViolation row.action row.result row.metadataJson true)

/-- Another event has the identifier. -/
def auditEventIdConflict : SqlError := ⟨"audit_event_id_conflict", "23505"⟩

/-- Equality of `jsonb` values: the order of members does not count. Numbers are compared as they
are written; the database compares their values, and so takes some more rows for equal. -/
def jsonbEq (a b : Json) : Bool :=
  a.normalize == b.normalize

/-- The stored event has the values of the arguments. -/
def isSameAuditEvent (stored row : AuditEventRow) : Bool :=
  decide ({ stored with metadataJson := .null } = { row with metadataJson := .null }) &&
    jsonbEq stored.metadataJson row.metadataJson

/-- The body of `rpc_append_audit_event` for arguments without nulls. An event whose identifier is
stored already is compared with the stored one. -/
def appendAuditEvent (pg : PostgresSession) (db : SecretDb) (row : AuditEventRow) :
    Except SqlError (SecretDb × Uuid) := do
  Result.require (auditEventArgumentsAreValid pg row) invalidRpcInput
  match db.auditEvents.find? fun e => e.id == row.id with
  | some stored =>
    checkAuditEvent pg.toPostgres row
    Result.require (isSameAuditEvent stored row) auditEventIdConflict
    pure (db, row.id)
  | none =>
    let db ← insertAuditEvent pg.toPostgres db row
    pure (db, row.id)

/-- `rpc_append_audit_event`. -/
def rpcAppendAuditEvent (pg : PostgresSession) (db : SecretDb) (args : AppendAuditEventArgs) :
    Except SqlError (SecretDb × Uuid) := do
  let row ← Result.ofOption invalidRpcInput args.row?
  appendAuditEvent pg db row

/-- The type of the ledger entry that goes with an action, where there is one. -/
def auditLedgerEntryTypes : List (String × String) := [
  ("decrypt", "secret_decrypted"), ("restore_test", "restore_test_completed"),
  ("integrity_check", "integrity_check_completed"), ("key_rotation_start", "key_rotation_started"),
  ("key_rotation_reencrypt", "key_rotation_reencrypted"),
  ("key_rotation_complete", "key_rotation_completed"),
  ("signature_key_created", "signature_key_created"),
  ("signature_key_activated", "signature_key_activated"),
  ("signature_key_retired", "signature_key_retired"),
  ("scheduler_job", "scheduler_job_completed"), ("incident_detected", "incident_detected")]

/-- The two appends that end the procedures for an event with its entry. The entry's own copies of
the request, the target, the actor and the result are not read. -/
def appendEventAndEntry (pg : PostgresSession) (db : SecretDb) (audit : AppendAuditEventArgs)
    (entry : AppendLedgerEntryArgs) : Except SqlError (SecretDb × AppendLedgerEntryRow) := do
  let (db, _) ← rpcAppendAuditEvent pg db audit
  let (ledger, row) ← rpcAppendLedgerEntry pg.toPostgres db.ledger { entry with
    requestId := audit.requestId, targetSecretId := audit.targetSecretId,
    actorUserId := audit.actorUserId, actorDeviceId := audit.actorDeviceId,
    result := audit.result }
  pure ({ db with ledger }, row)

/-- `rpc_append_audit_event_with_ledger`: the arguments of the two appends. -/
def rpcAppendAuditEventWithLedger (pg : PostgresSession) (db : SecretDb)
    (audit : AppendAuditEventArgs) (entry : AppendLedgerEntryArgs) :
    Except SqlError (SecretDb × AppendLedgerEntryRow) := do
  Result.require (audit.auditEventId.isSome && audit.requestId.isSome && audit.action.isSome &&
    audit.result.isSome && entry.sourceEventId == audit.auditEventId &&
    entry.sourceEventAt.isSome) invalidRpcInput
  Result.require (entry.sourceEventAt ==
    audit.metadataJson.bind fun m => memberText m "source_event_at") invalidRpcInput
  Result.require (!(Truth.ne entry.entryType
    (audit.action.bind fun action => auditLedgerEntryTypes.lookup action)).holds) invalidRpcInput
  appendEventAndEntry pg db audit entry

/-! ### What a successful append does -/

variable {pg : PostgresSession} {id : Uuid}

/-- **All a successful append can do**: keep the tables, with an equal event stored already, or
add the event. -/
theorem appendAuditEvent_eq_ok (h : appendAuditEvent pg db row = .ok (db', id)) :
    id = row.id ∧ ((db' = db ∧ ∃ stored ∈ db.auditEvents, stored.id = row.id) ∨
      (AuditReferences db row ∧ (∀ e ∈ db.auditEvents, e.id ≠ row.id) ∧
        db' = { db with auditEvents := db.auditEvents ++ [row] })) := by
  simp only [appendAuditEvent, Result.bind_eq_ok] at h
  obtain ⟨_, -, h⟩ := h
  split at h
  · rename_i stored hfind
    simp only [Result.bind_eq_ok, Result.pure_eq_ok, Prod.mk.injEq] at h
    obtain ⟨_, -, _, -, rfl, rfl⟩ := h
    exact ⟨rfl, .inl ⟨rfl, stored, List.mem_of_find?_eq_some hfind,
      by simpa using List.find?_some hfind⟩⟩
  · simp only [Result.bind_eq_ok, Result.pure_eq_ok, Prod.mk.injEq] at h
    obtain ⟨db₁, hinsert, rfl, rfl⟩ := h
    obtain ⟨-, hfresh, hrefs, rfl⟩ := insertAuditEvent_eq_ok.mp hinsert
    exact ⟨rfl, .inr ⟨hrefs, hfresh, rfl⟩⟩

/-- The two rows agree in every column, and their metadata are equal as `jsonb` values. -/
structure SameAuditEvent (a b : AuditEventRow) : Prop where
  columns : { a with metadataJson := .null } = { b with metadataJson := .null }
  metadata : a.metadataJson.normalize = b.metadataJson.normalize

namespace SameAuditEvent

variable {a b c : AuditEventRow}

theorem refl (a : AuditEventRow) : SameAuditEvent a a := ⟨rfl, rfl⟩

theorem symm (h : SameAuditEvent a b) : SameAuditEvent b a := ⟨h.columns.symm, h.metadata.symm⟩

theorem trans (h : SameAuditEvent a b) (h' : SameAuditEvent b c) : SameAuditEvent a c :=
  ⟨h.columns.trans h'.columns, h.metadata.trans h'.metadata⟩

end SameAuditEvent

theorem isSameAuditEvent_iff {a b : AuditEventRow} :
    isSameAuditEvent a b = true ↔ SameAuditEvent a b := by
  rw [isSameAuditEvent, jsonbEq, Bool.and_eq_true, decide_eq_true_iff, beq_iff_eq]
  exact ⟨fun ⟨hcolumns, hmetadata⟩ => ⟨hcolumns, hmetadata⟩, fun h => ⟨h.columns, h.metadata⟩⟩

/-- An append that succeeds has valid arguments, and leaves an equal event stored. -/
theorem appendAuditEvent_stored (h : appendAuditEvent pg db row = .ok (db', id)) :
    auditEventArgumentsAreValid pg row = true ∧ auditEventIsValid pg.toPostgres row = true ∧
      ∃ stored ∈ db'.auditEvents, stored.id = row.id ∧ SameAuditEvent stored row := by
  simp only [appendAuditEvent, Result.bind_eq_ok, Result.require_eq_ok] at h
  obtain ⟨_, harguments, h⟩ := h
  split at h
  · rename_i stored hfind
    simp only [Result.bind_eq_ok, checkAuditEvent_eq_ok, Result.require_eq_ok, isSameAuditEvent_iff,
      Result.pure_eq_ok, Prod.mk.injEq] at h
    obtain ⟨_, hvalid, _, hsame, rfl, -⟩ := h
    exact ⟨harguments, hvalid, stored, List.mem_of_find?_eq_some hfind,
      by simpa using List.find?_some hfind, hsame⟩
  · simp only [Result.bind_eq_ok, Result.pure_eq_ok, Prod.mk.injEq] at h
    obtain ⟨db₁, hinsert, rfl, -⟩ := h
    obtain ⟨hvalid, -, -, rfl⟩ := insertAuditEvent_eq_ok.mp hinsert
    exact ⟨harguments, hvalid, row, List.mem_append_right _ (List.mem_singleton_self _), rfl,
      .refl row⟩

theorem appendAuditEvent_eventsValid (h : appendAuditEvent pg db row = .ok (db', id)) :
    EventsValid pg.toPostgres db db' := by
  obtain ⟨-, hvalid, -⟩ := appendAuditEvent_stored h
  obtain ⟨-, ⟨rfl, -⟩ | ⟨-, -, rfl⟩⟩ := appendAuditEvent_eq_ok h
  · exact .of_eq rfl
  · exact .concat hvalid rfl

/-- With one event stored under the identifier, an append succeeds exactly if its arguments are
valid and describe that event, and then it changes nothing. -/
theorem appendAuditEvent_eq_ok_of_stored {row stored : AuditEventRow}
    (hfind : (db.auditEvents.find? fun e => e.id == row.id) = some stored) :
    appendAuditEvent pg db row = .ok (db', id) ↔ auditEventArgumentsAreValid pg row = true ∧
      auditEventIsValid pg.toPostgres row = true ∧ SameAuditEvent stored row ∧ db' = db ∧
      id = row.id := by
  simp only [appendAuditEvent, hfind, Result.bind_eq_ok, Result.require_eq_ok,
    checkAuditEvent_eq_ok, isSameAuditEvent_iff, Result.pure_eq_ok, Prod.mk.injEq]
  constructor
  · rintro ⟨_, harguments, _, hvalid, _, hsame, rfl, rfl⟩
    exact ⟨harguments, hvalid, hsame, rfl, rfl⟩
  · rintro ⟨harguments, hvalid, hsame, rfl, rfl⟩
    exact ⟨(), harguments, (), hvalid, (), hsame, rfl, rfl⟩

/-- Only the audit table changes. -/
theorem appendAuditEvent_frame (h : appendAuditEvent pg db row = .ok (db', id)) :
    ∃ events, db' = { db with auditEvents := db.auditEvents ++ events } := by
  obtain ⟨-, ⟨rfl, -⟩ | ⟨-, -, rfl⟩⟩ := appendAuditEvent_eq_ok h
  · exact ⟨[], by simp⟩
  · exact ⟨[row], rfl⟩

/-! ### The append with a ledger entry -/

/-- An event was appended, and then an entry replayed or added that has the request, the target, the
actor and the result of the event. -/
structure EventAndEntry (pg : PostgresSession) (db : SecretDb) (event : AuditEventRow)
    (row : LedgerEntryRow) (db' : SecretDb) (result : AppendLedgerEntryRow) : Prop where
  exists_db : ∃ recorded, appendAuditEvent pg db event = .ok (recorded, event.id) ∧
    (Replayed recorded.ledger row db'.ledger result ∨
      Inserted recorded.ledger row db'.ledger result) ∧
    db' = { recorded with ledger := db'.ledger }
  requestId : row.requestId = event.requestId
  targetSecretId : row.targetSecretId = event.targetSecretId
  actorUserId : row.actorUserId = event.actorUserId
  actorDeviceId : row.actorDeviceId = event.actorDeviceId
  result_eq : row.result = event.result

/-- The row of the entry has the columns that the call gave for it. -/
structure EntryColumnsOf (entry : AppendLedgerEntryArgs) (row : LedgerEntryRow) : Prop where
  id : entry.ledgerEntryId = some row.id
  entryType : entry.entryType = some row.entryType
  sourceEventAt : entry.sourceEventAt = some row.sourceEventAt
  sourceEventId : entry.sourceEventId = row.sourceEventId
  payload : entry.payload = some row.payload
  signatureKeyVersion : entry.signatureKeyVersion = some row.signatureKeyVersion

theorem appendEventAndEntry_eq_ok {audit : AppendAuditEventArgs} {entry : AppendLedgerEntryArgs}
    {result : AppendLedgerEntryRow}
    (h : appendEventAndEntry pg db audit entry = .ok (db', result)) :
    ∃ event row, audit.row? = some event ∧ EntryColumnsOf entry row ∧
      EventAndEntry pg db event row db' result := by
  simp only [appendEventAndEntry, rpcAppendAuditEvent, Result.bind_eq_ok, Result.ofOption_eq_ok,
    Result.pure_eq_ok, Prod.exists, Prod.mk.injEq] at h
  obtain ⟨recorded, id, ⟨event, hevent, happend⟩, ledger, _, hledger, rfl, rfl⟩ := h
  obtain ⟨row, hrow, hcases⟩ := rpcAppendLedgerEntry_eq_ok hledger
  obtain rfl := AppendAuditEventArgs.row?_eq_some.mp hevent
  have hentry := AppendLedgerEntryArgs.row?_eq_some.mp hrow
  obtain rfl : id = event.id := (appendAuditEvent_eq_ok happend).1
  exact ⟨event, row, hevent, {
    id := congrArg AppendLedgerEntryArgs.ledgerEntryId hentry
    entryType := congrArg AppendLedgerEntryArgs.entryType hentry
    sourceEventAt := congrArg AppendLedgerEntryArgs.sourceEventAt hentry
    sourceEventId := congrArg AppendLedgerEntryArgs.sourceEventId hentry
    payload := congrArg AppendLedgerEntryArgs.payload hentry
    signatureKeyVersion := congrArg AppendLedgerEntryArgs.signatureKeyVersion hentry }, {
    exists_db := ⟨recorded, happend, hcases, rfl⟩
    requestId := (Option.some.inj (congrArg AppendLedgerEntryArgs.requestId hentry)).symm
    targetSecretId := (congrArg AppendLedgerEntryArgs.targetSecretId hentry).symm
    actorUserId := (congrArg AppendLedgerEntryArgs.actorUserId hentry).symm
    actorDeviceId := (congrArg AppendLedgerEntryArgs.actorDeviceId hentry).symm
    result_eq := (Option.some.inj (congrArg AppendLedgerEntryArgs.result hentry)).symm }⟩

/-- **All a successful append with an entry can do**: append the event, then replay or add the
entry, whose source is the event. -/
structure AppendedWithLedger (pg : PostgresSession) (db : SecretDb) (event : AuditEventRow)
    (row : LedgerEntryRow) (db' : SecretDb) (result : AppendLedgerEntryRow) : Prop
    extends EventAndEntry pg db event row db' result where
  sourceEventId : row.sourceEventId = some event.id

theorem rpcAppendAuditEventWithLedger_eq_ok {audit : AppendAuditEventArgs}
    {entry : AppendLedgerEntryArgs} {result : AppendLedgerEntryRow}
    (h : rpcAppendAuditEventWithLedger pg db audit entry = .ok (db', result)) :
    ∃ event row, audit.row? = some event ∧ entry.ledgerEntryId = some row.id ∧
      AppendedWithLedger pg db event row db' result := by
  rw [rpcAppendAuditEventWithLedger, Result.bind_eq_ok] at h
  obtain ⟨_, hargs, h⟩ := h
  simp only [Result.bind_eq_ok] at h
  obtain ⟨_, -, _, -, hboth⟩ := h
  obtain ⟨event, row, hevent, hcolumns, happended⟩ := appendEventAndEntry_eq_ok hboth
  refine ⟨event, row, hevent, hcolumns.id, happended, ?_⟩
  simp only [Result.require_eq_ok, Bool.and_eq_true, beq_iff_eq] at hargs
  rw [← hcolumns.sourceEventId, hargs.1.2, AppendAuditEventArgs.row?_eq_some.mp hevent]
  rfl

end Sql

end Mipsorcu
