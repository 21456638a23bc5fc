import Mipsorcu.Database.WriteSecretVersion

/-!
# The key rotation procedures

`rpc_apply_key_rotation_batch` replaces the envelopes of a batch and `rpc_complete_key_rotation`
closes a rotation that has left nothing behind.

The two share their checks of the ledger entry and the way they record what they did; each
counts for itself, inside the transaction, and compares the payload it was given with the counts.
`Rewrapped` says all a successful batch does, `RotationRecorded` how either procedure is recorded.
-/

namespace Mipsorcu

namespace Sql

/-! ### Arguments -/

/-- The arguments that the procedures for a batch and for the end of a rotation share; each may be
null. -/
structure KeyRotationArgs where
  requestId : Option Uuid
  oldKeyVersion : Option ℤ
  newKeyVersion : Option ℤ
  auditEventId : Option Uuid
  sourceEventAt : Option String
  ledgerEntry : Option Json

/-- The arguments of a call in which only the entry and its time may be null. -/
structure KeyRotation where
  requestId : Uuid
  oldKeyVersion : ℤ
  newKeyVersion : ℤ
  auditEventId : Uuid
  sourceEventAt : Option String
  ledgerEntry : Option Json

/-- The arguments, if none that is required is null. -/
def KeyRotationArgs.rotation? (args : KeyRotationArgs) : Option KeyRotation := do
  let requestId ← args.requestId
  let oldKeyVersion ← args.oldKeyVersion
  let newKeyVersion ← args.newKeyVersion
  let auditEventId ← args.auditEventId
  pure { requestId, oldKeyVersion, newKeyVersion, auditEventId,
         sourceEventAt := args.sourceEventAt, ledgerEntry := args.ledgerEntry }

/-- Two different key versions. -/
def keyVersionsAreValid (r : KeyRotation) : Bool :=
  decide (0 < r.oldKeyVersion) && decide (0 < r.newKeyVersion) &&
    r.oldKeyVersion != r.newKeyVersion

/-- A row of a batch: a version and its new envelope. -/
structure RotationRow where
  id : Uuid
  encryptedDataKey : List UInt8
  deriving DecidableEq

/-- Reads an element of `p_rows`: an object with exactly the two keys, an identifier in the
hyphenated form, in either case, and 73 bytes in the hexadecimal form. -/
def rotationRow? (value : Json) : Option RotationRow :=
  match member? value "id", member? value "encrypted_data_key" with
  | some (.string id), some (.string envelope) =>
    if hasExactlyKeys ["id", "encrypted_data_key"] value then do
      let id ← Uuid.parseHyphenated id.toList
      let digits ← stripByteaMark envelope
      let encryptedDataKey ← hexDecode digits
      if encryptedDataKey.length = 73 then some { id, encryptedDataKey } else none
    else none
  | _, _ => none

/-- Reads `p_rows`: between one and a thousand rows with different identifiers. -/
def rotationRows? (rows : Option Json) : Option (List RotationRow) :=
  match rows with
  | some (.array items) =>
    if items ≠ [] ∧ items.length ≤ 1000 then do
      let rows ← items.mapM rotationRow?
      if (rows.map RotationRow.id).Nodup then some rows else none
    else none
  | _ => none

/-! ### The ledger entry -/

/-- The checks of the ledger entry before anything is counted. -/
def checkRotationEntry (pg : PostgresSession) (entryType : String) (r : KeyRotation) :
    Except SqlError Unit :=
  match r.ledgerEntry with
  | none => .ok ()
  | some entry => do
    Result.require (jsonbTypeof entry == "object" &&
      r.sourceEventAt.any ledgerSourceEventAtIsValid &&
      -- a missing type compares to null, which does not raise
      !(Truth.ne (memberText entry "p_entry_type") (some entryType)).holds) invalidRpcInput
    let uuid := castNullable pg.castUuid (invalidTextRepresentation "uuid")
    let requestId ← uuid (memberText entry "p_request_id")
    Result.require (requestId == some r.requestId) invalidRpcInput
    let sourceEventId ← uuid (memberText entry "p_source_event_id")
    Result.require (sourceEventId == some r.auditEventId) invalidRpcInput
    Result.require (!(Truth.any [
      Truth.ne (memberText entry "p_source_event_at") r.sourceEventAt,
      Truth.ne (memberText entry "p_result") (some "success"),
      Truth.isNotNull (nullifEmpty (memberText entry "p_target_secret_id")),
      Truth.isNotNull (nullifEmpty (memberText entry "p_target_secret_version_id")),
      Truth.isNotNull (nullifEmpty (memberText entry "p_actor_user_id")),
      Truth.isNotNull (nullifEmpty (memberText entry "p_actor_device_id"))]).holds) invalidRpcInput

/-- The metadata of the event: the payload, with an entry also the time. -/
def rotationMetadata (payload : List (String × Json)) (r : KeyRotation) : Json :=
  .object (payload ++ match r.ledgerEntry with
    | none => []
    | some _ => [("source_event_at", jsonText r.sourceEventAt)])

/-- `p_ledger_entry -> 'p_payload' <> payload` is not true. -/
def payloadAgrees (payload : List (String × Json)) (entry : Json) : Bool :=
  (member? entry "p_payload").all fun given => jsonbEq given (.object payload)

/-- The audit event of a procedure: no actor and no target. -/
def rotationEvent (action : String) (r : KeyRotation) (payload : List (String × Json)) :
    AuditEventRow where
  id := r.auditEventId
  requestId := r.requestId
  actorUserId := none
  actorDeviceId := none
  action := action
  targetSecretId := none
  result := "success"
  keyVersion := some r.newKeyVersion
  metadataJson := rotationMetadata payload r

/-- Records what a procedure did: compares the payload of the entry with the one of the counts,
inserts the audit event and appends the entry. -/
def recordRotation (pg : PostgresSession) (db : SecretDb) (action : String) (r : KeyRotation)
    (payload : List (String × Json)) : Except SqlError SecretDb := do
  Result.require (r.ledgerEntry.all (payloadAgrees payload)) invalidRpcInput
  Result.require (!auditMetadataHasForbiddenKey pg.toPostgres (rotationMetadata payload r))
    invalidAuditMetadata
  let db ← insertAuditEvent pg.toPostgres db (rotationEvent action r payload)
  appendLedger pg db r.ledgerEntry

/-! ### A batch -/

/-- A row of the batch is not as it was listed. -/
def keyRotationConflict : SqlError := ⟨"key_rotation_conflict", "40001"⟩

/-- The row of the batch that the `update` joins with a version. -/
def rotationFor (rows : List RotationRow) (oldKeyVersion : ℤ) (v : SecretVersionRow) :
    Option RotationRow :=
  if v.keyVersion = oldKeyVersion then rows.find? fun row => row.id == v.id else none

/-- The `update` of one version. -/
def rewrapVersion (rows : List RotationRow) (oldKeyVersion newKeyVersion : ℤ)
    (v : SecretVersionRow) : SecretVersionRow :=
  match rotationFor rows oldKeyVersion v with
  | none => v
  | some row => { v with encryptedDataKey := row.encryptedDataKey, keyVersion := newKeyVersion }

/-- The update of the rows of a batch. -/
def rewrapVersions (db : SecretDb) (rows : List RotationRow) (oldKeyVersion newKeyVersion : ℤ) :
    SecretDb :=
  { db with
    secretVersions := db.secretVersions.map (rewrapVersion rows oldKeyVersion newKeyVersion) }

/-- The number of versions the `update` returns. -/
def processedCount (db : SecretDb) (rows : List RotationRow) (oldKeyVersion : ℤ) : ℕ :=
  db.secretVersions.countP fun v => (rotationFor rows oldKeyVersion v).isSome

/-- The payload for the counts of a batch. -/
def batchPayload (r : KeyRotation) (batchSize processed remaining : ℕ) : List (String × Json) := [
  ("old_key_version", jsonInt r.oldKeyVersion), ("new_key_version", jsonInt r.newKeyVersion),
  ("batch_size", jsonInt batchSize), ("processed_count", jsonInt processed),
  ("remaining_count", jsonInt remaining)]

/-- The body of `rpc_apply_key_rotation_batch` for arguments that can be read. -/
def applyKeyRotationBatch (pg : PostgresSession) (db : SecretDb) (r : KeyRotation)
    (rows : List RotationRow) : Except SqlError (SecretDb × ℕ × ℕ) := do
  checkRotationEntry pg "key_rotation_reencrypted" r
  let processed := processedCount db rows r.oldKeyVersion
  let db := rewrapVersions db rows r.oldKeyVersion r.newKeyVersion
  Result.require (processed == rows.length) keyRotationConflict
  let remaining := db.countAt r.oldKeyVersion
  let db ← recordRotation pg db "key_rotation_reencrypt" r
    (batchPayload r rows.length processed remaining)
  pure (db, processed, remaining)

/-- `rpc_apply_key_rotation_batch`. A call without `p_audit_event_id` has the fresh identifier of
the default there. -/
def rpcApplyKeyRotationBatch (pg : PostgresSession) (db : SecretDb) (args : KeyRotationArgs)
    (rows : Option Json) : Except SqlError (SecretDb × ℕ × ℕ) := do
  let r ← Result.ofOption invalidRpcInput args.rotation?
  Result.require (keyVersionsAreValid r) invalidRpcInput
  let rows ← Result.ofOption invalidRpcInput (rotationRows? rows)
  applyKeyRotationBatch pg db r rows

/-! ### The end of a rotation -/

/-- Rows under the old key are left. -/
def keyRotationIncomplete : SqlError := ⟨"key_rotation_incomplete", "23514"⟩

/-- The payload for the count at the end of a rotation. -/
def completePayload (r : KeyRotation) (remaining : ℕ) : List (String × Json) := [
  ("old_key_version", jsonInt r.oldKeyVersion), ("new_key_version", jsonInt r.newKeyVersion),
  ("remaining_count", jsonInt remaining)]

/-- `rpc_complete_key_rotation`. -/
def rpcCompleteKeyRotation (pg : PostgresSession) (db : SecretDb) (args : KeyRotationArgs) :
    Except SqlError (SecretDb × ℕ) := do
  let r ← Result.ofOption invalidRpcInput args.rotation?
  Result.require (keyVersionsAreValid r) invalidRpcInput
  checkRotationEntry pg "key_rotation_completed" r
  let remaining := db.countAt r.oldKeyVersion
  Result.require (remaining == 0) keyRotationIncomplete
  let db ← recordRotation pg db "key_rotation_complete" r (completePayload r remaining)
  pure (db, remaining)

/-! ### What the procedures do -/

variable {pg : PostgresSession} {r : KeyRotation}

/-- The entry of a procedure is about its event. -/
theorem checkRotationEntry_eq_ok {entryType : String} {entry : Json} {u : Unit}
    (h : checkRotationEntry pg entryType r = .ok u) (hentry : r.ledgerEntry = some entry) :
    castNullable pg.castUuid (invalidTextRepresentation "uuid")
      (memberText entry "p_source_event_id") = .ok (some r.auditEventId) := by
  simp only [checkRotationEntry, hentry, Result.bind_eq_ok, Result.require_eq_ok, beq_iff_eq] at h
  obtain ⟨_, -, _, -, _, -, id, hid, _, rfl, -⟩ := h
  exact hid

/-- A procedure was recorded: its event is valid and has a new identifier, the payload of its entry
is the one of the counts, and its entry is in the ledger. -/
structure RotationRecorded (pg : PostgresSession) (db : SecretDb) (action : String)
    (r : KeyRotation) (payload : List (String × Json)) (db' : SecretDb) : Prop where
  agrees : ∀ entry, r.ledgerEntry = some entry → payloadAgrees payload entry = true
  fresh : ∀ e ∈ db.auditEvents, e.id ≠ r.auditEventId
  exists_ledger : ∃ ledger, LedgerAppended pg db.ledger r.ledgerEntry ledger ∧
    db' = { db with auditEvents := db.auditEvents ++ [rotationEvent action r payload],
                    ledger := ledger }
  events_valid : EventsValid pg.toPostgres db db'

variable {db db' : SecretDb}

theorem recordRotation_eq_ok {action : String} {payload : List (String × Json)}
    (h : recordRotation pg db action r payload = .ok db') :
    RotationRecorded pg db action r payload db' := by
  simp only [recordRotation, Result.bind_eq_ok, Result.require_eq_ok, Option.all_eq_true] at h
  obtain ⟨_, hagrees, _, -, db₁, hinsert, happend⟩ := h
  obtain ⟨hvalid, hfresh, -, rfl⟩ := insertAuditEvent_eq_ok.mp hinsert
  obtain ⟨ledger, hledger, rfl⟩ := appendLedger_eq_ok.mp happend
  exact ⟨hagrees, hfresh, ⟨ledger, hledger, rfl⟩, .concat hvalid rfl⟩

/-- Only the audit table and the ledger change. -/
theorem RotationRecorded.frame {action : String} {payload : List (String × Json)}
    (h : RotationRecorded pg db action r payload db') :
    db' = { db with auditEvents := db'.auditEvents, ledger := db'.ledger } := by
  obtain ⟨-, -, ⟨ledger, -, rfl⟩, -⟩ := h
  rfl

/-- **All a successful batch does**: it replaces the envelope of every version it names, and they
all were at the old key version. -/
structure Rewrapped (pg : PostgresSession) (db : SecretDb) (r : KeyRotation)
    (rows : List RotationRow) (db' : SecretDb) : Prop where
  key_versions : keyVersionsAreValid r = true
  ids_nodup : (rows.map RotationRow.id).Nodup
  rows_ne_nil : rows ≠ []
  entry_checked : checkRotationEntry pg "key_rotation_reencrypted" r = .ok ()
  all_processed : processedCount db rows r.oldKeyVersion = rows.length
  recorded : RotationRecorded pg (rewrapVersions db rows r.oldKeyVersion r.newKeyVersion)
    "key_rotation_reencrypt" r (batchPayload r rows.length (processedCount db rows r.oldKeyVersion)
      ((rewrapVersions db rows r.oldKeyVersion r.newKeyVersion).countAt r.oldKeyVersion)) db'

theorem rotationRows?_eq_some {rows : Option Json} {parsed : List RotationRow}
    (h : rotationRows? rows = some parsed) :
    (parsed.map RotationRow.id).Nodup ∧ parsed ≠ [] := by
  unfold rotationRows? at h
  split at h
  · rename_i items
    split_ifs at h with hitems
    simp only [Option.bind_eq_bind, Option.bind_eq_some_iff] at h
    obtain ⟨read, hread, h⟩ := h
    split_ifs at h with hnodup
    cases h
    refine ⟨hnodup, ?_⟩
    cases items with
    | nil => exact absurd rfl hitems.1
    | cons item rest =>
      simp only [List.mapM_cons, Option.bind_eq_bind, Option.bind_eq_some_iff, Option.pure_def,
        Option.some.injEq] at hread
      obtain ⟨row, -, others, -, rfl⟩ := hread
      exact List.cons_ne_nil _ _
  · cases h

theorem rotationRow?_length {value : Json} {row : RotationRow} (h : rotationRow? value = some row) :
    row.encryptedDataKey.length = 73 := by
  unfold rotationRow? at h
  split at h
  · split_ifs at h
    simp only [Option.bind_eq_bind, Option.bind_eq_some_iff, Option.ite_none_right_eq_some,
      Option.some.injEq] at h
    obtain ⟨_, -, _, -, _, -, hlength, rfl⟩ := h
    exact hlength
  · cases h

theorem mapM_rotationRow?_length {items : List Json} {rows : List RotationRow}
    (h : items.mapM rotationRow? = some rows) : ∀ row ∈ rows, row.encryptedDataKey.length = 73 := by
  induction items generalizing rows with
  | nil => simp_all
  | cons item items ih =>
    simp only [List.mapM_cons, Option.bind_eq_bind, Option.bind_eq_some_iff, Option.pure_def,
      Option.some.injEq] at h
    obtain ⟨row, hrow, others, hothers, rfl⟩ := h
    exact List.forall_mem_cons.mpr ⟨rotationRow?_length hrow, ih hothers⟩

/-- The new envelopes have the length of an envelope. -/
theorem rotationRows?_length {rows : Option Json} {parsed : List RotationRow}
    (h : rotationRows? rows = some parsed) :
    ∀ row ∈ parsed, row.encryptedDataKey.length = 73 := by
  unfold rotationRows? at h
  split at h
  · split_ifs at h
    simp only [Option.bind_eq_bind, Option.bind_eq_some_iff, Option.ite_none_right_eq_some,
      Option.some.injEq] at h
    obtain ⟨read, hread, -, rfl⟩ := h
    exact mapM_rotationRow?_length hread
  · cases h

/-- What a successful call for a batch does and returns. -/
theorem rpcApplyKeyRotationBatch_eq_ok {args : KeyRotationArgs} {rows : Option Json}
    {counts : ℕ × ℕ} (h : rpcApplyKeyRotationBatch pg db args rows = .ok (db', counts)) :
    ∃ r parsed, args.rotation? = some r ∧ rotationRows? rows = some parsed ∧
      Rewrapped pg db r parsed db' ∧ counts = (parsed.length, db'.countAt r.oldKeyVersion) := by
  simp only [rpcApplyKeyRotationBatch, applyKeyRotationBatch, Result.bind_eq_ok,
    Result.ofOption_eq_ok, Result.require_eq_ok, Result.pure_eq_ok, beq_iff_eq,
    Prod.mk.injEq] at h
  obtain ⟨r, hr, _, hversions, parsed, hparsed, _, hchecked, _, hprocessed, db₁, hrecord, rfl,
    rfl⟩ := h
  have hrecorded := recordRotation_eq_ok hrecord
  obtain ⟨hnodup, hne⟩ := rotationRows?_eq_some hparsed
  refine ⟨r, parsed, hr, hparsed, ⟨hversions, hnodup, hne, hchecked, hprocessed, hrecorded⟩, ?_⟩
  rw [hprocessed, hrecorded.frame]
  rfl

/-- What a successful end of a rotation needs and does. -/
theorem rpcCompleteKeyRotation_eq_ok {args : KeyRotationArgs} {remaining : ℕ}
    (h : rpcCompleteKeyRotation pg db args = .ok (db', remaining)) :
    ∃ r, args.rotation? = some r ∧ remaining = 0 ∧ db.countAt r.oldKeyVersion = 0 ∧
      checkRotationEntry pg "key_rotation_completed" r = .ok () ∧
      RotationRecorded pg db "key_rotation_complete" r (completePayload r 0) db' := by
  simp only [rpcCompleteKeyRotation, Result.bind_eq_ok, Result.ofOption_eq_ok,
    Result.require_eq_ok, Result.pure_eq_ok, beq_iff_eq, Prod.mk.injEq] at h
  obtain ⟨r, hr, _, -, _, hchecked, _, hzero, db₁, hrecord, rfl, rfl⟩ := h
  rw [hzero] at hrecord
  exact ⟨r, hr, hzero, hzero, hchecked, recordRotation_eq_ok hrecord⟩

/-! ### The rows of a batch -/

section Batch

variable {rows : List RotationRow} {oldKeyVersion newKeyVersion : ℤ}

theorem rotationFor_eq_some {v : SecretVersionRow} {row : RotationRow}
    (h : rotationFor rows oldKeyVersion v = some row) :
    v.keyVersion = oldKeyVersion ∧ row ∈ rows ∧ row.id = v.id := by
  unfold rotationFor at h
  split_ifs at h with hkey
  exact ⟨hkey, List.mem_of_find?_eq_some h, by simpa using List.find?_some h⟩

/-- A version is left as it is, or it was at the old key version, gets the envelope of its row and
moves to the new one; nothing else of it changes. -/
theorem rewrapVersion_cases (rows : List RotationRow) (oldKeyVersion newKeyVersion : ℤ)
    (v : SecretVersionRow) :
    (rotationFor rows oldKeyVersion v = none ∧
      rewrapVersion rows oldKeyVersion newKeyVersion v = v) ∨
    ∃ row, rotationFor rows oldKeyVersion v = some row ∧
      rewrapVersion rows oldKeyVersion newKeyVersion v =
        { v with encryptedDataKey := row.encryptedDataKey, keyVersion := newKeyVersion } := by
  unfold rewrapVersion
  cases h : rotationFor rows oldKeyVersion v with
  | none => exact .inl ⟨rfl, rfl⟩
  | some row => exact .inr ⟨row, rfl, rfl⟩

/-- A version that was not at the old key version is never overwritten. -/
theorem rewrapVersion_of_ne {v : SecretVersionRow} (h : v.keyVersion ≠ oldKeyVersion) :
    rewrapVersion rows oldKeyVersion newKeyVersion v = v := by
  simp [rewrapVersion, rotationFor, h]

/-- The columns a batch does not touch. -/
theorem rewrapVersion_frame (v : SecretVersionRow) :
    rewrapVersion rows oldKeyVersion newKeyVersion v =
      { v with
        encryptedDataKey := (rewrapVersion rows oldKeyVersion newKeyVersion v).encryptedDataKey
        keyVersion := (rewrapVersion rows oldKeyVersion newKeyVersion v).keyVersion } := by
  rcases rewrapVersion_cases rows oldKeyVersion newKeyVersion v with ⟨-, h⟩ | ⟨row, -, h⟩ <;> rw [h]

end Batch

end Sql

end Mipsorcu
