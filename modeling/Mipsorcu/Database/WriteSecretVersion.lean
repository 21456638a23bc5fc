import Mipsorcu.Database.AuditEvents
import Mipsorcu.Foundation.Keyed

/-!
# Writing a version of a secret

`rpcWriteSecretVersion` is the body of `rpc_write_secret_version`: it creates the secret or checks
that the version is the next one, stores the version, moves the secret's pointer, records the
write in the audit table and the ledger, and purges all but the four highest versions, each purge
with its own audit event and ledger entry.

The procedure is cut at its statements: `lockSecret`, `insertSecretVersion`, `setCurrentVersion`,
`findWriteLedgerEntry`, `recordVersion`, `recordPurges`. `Written` puts what each of them needs and
does together, and `writeSecretVersion_eq_ok` says that a successful call is such a write.
-/

namespace Mipsorcu

namespace Sql

/-- The arguments of `rpc_write_secret_version`; each may be null. -/
structure WriteSecretVersionArgs where
  requestId : Option Uuid
  action : Option String
  secretId : Option Uuid
  ownerUserId : Option Uuid
  classification : Option String
  createdByDeviceId : Option String
  createdAt : Option ℤ
  version : Option ℤ
  ciphertext : Option (List UInt8)
  encryptedDataKey : Option (List UInt8)
  keyVersion : Option ℤ
  algorithm : Option String
  nonceOrIv : Option (List UInt8)
  aadContext : Option Json
  secretVersionId : Option Uuid
  ledgerEntries : Option Json

/-- The arguments of a call in which only the ledger entries may be null. -/
structure SecretWrite where
  requestId : Uuid
  action : String
  secretId : Uuid
  ownerUserId : Uuid
  classification : String
  createdByDeviceId : String
  createdAt : ℤ
  version : ℤ
  ciphertext : List UInt8
  encryptedDataKey : List UInt8
  keyVersion : ℤ
  algorithm : String
  nonceOrIv : List UInt8
  aadContext : Json
  secretVersionId : Uuid
  ledgerEntries : Option Json
  deriving DecidableEq

/-- The call, if no required argument is null. -/
def WriteSecretVersionArgs.write? (args : WriteSecretVersionArgs) : Option SecretWrite := do
  let requestId ← args.requestId
  let action ← args.action
  let secretId ← args.secretId
  let ownerUserId ← args.ownerUserId
  let classification ← args.classification
  let createdByDeviceId ← args.createdByDeviceId
  let createdAt ← args.createdAt
  let version ← args.version
  let ciphertext ← args.ciphertext
  let encryptedDataKey ← args.encryptedDataKey
  let keyVersion ← args.keyVersion
  let algorithm ← args.algorithm
  let nonceOrIv ← args.nonceOrIv
  let aadContext ← args.aadContext
  let secretVersionId ← args.secretVersionId
  pure { requestId, action, secretId, ownerUserId, classification, createdByDeviceId, createdAt,
         version, ciphertext, encryptedDataKey, keyVersion, algorithm, nonceOrIv, aadContext,
         secretVersionId, ledgerEntries := args.ledgerEntries }

/-- The row `rpc_write_secret_version` returns. -/
structure WriteSecretVersionRow where
  secretId : Uuid
  secretVersionId : Uuid
  version : ℤ
  purgedVersionIds : List Uuid
  deriving DecidableEq

/-! ### Exceptions -/

def aadContextMismatch : SqlError := ⟨"aad_context_mismatch", "22023"⟩

/-- The secret belongs to somebody else. -/
def ownerMismatch : SqlError := ⟨"owner_mismatch", "42501"⟩

/-- The secret has another classification. -/
def classificationImmutable : SqlError := ⟨"classification_immutable", "23514"⟩

/-- The stored rows contradict each other. -/
def dbIntegrityViolation : SqlError := ⟨"db_integrity_violation", "23514"⟩

/-- The version is not the one after the current one. -/
def notNextVersion : SqlError := ⟨"not_next_version", "23514"⟩

def invalidAuditMetadata : SqlError := ⟨"invalid_audit_metadata", "22023"⟩

/-! ### Argument checks -/

/-- The checks of the arguments before the context. -/
def writeArgumentsAreValid (w : SecretWrite) : Bool :=
  (w.action == "encrypt_create" || w.action == "encrypt_rotate") &&
    idIsUuidV4 w.secretId && idIsUuidV4 w.secretVersionId &&
    (w.ledgerEntries.all fun entries => jsonbTypeof entries == "array") &&
    btrim w.classification != "" && btrim w.createdByDeviceId != "" && decide (0 < w.version) &&
    w.ciphertext != [] && w.encryptedDataKey.length == 73 && decide (0 < w.keyVersion) &&
    w.algorithm == "xchacha20-poly1305" && w.nonceOrIv.length == 24 &&
    jsonbTypeof w.aadContext == "object"

/-- The keys of a stored context. -/
def aadContextKeys : List String :=
  ["aad_version", "secret_id", "version", "owner_user_id", "classification", "created_at"]

/-- The context has the six keys and the types of their values, and describes the row. -/
def aadContextMatches (w : SecretWrite) : Bool :=
  hasExactlyKeys aadContextKeys w.aadContext &&
    memberHasType w.aadContext "aad_version" "number" &&
    memberHasType w.aadContext "secret_id" "string" &&
    memberHasType w.aadContext "version" "number" &&
    memberHasType w.aadContext "owner_user_id" "string" &&
    memberHasType w.aadContext "classification" "string" &&
    memberHasType w.aadContext "created_at" "string" &&
    (memberText w.aadContext "version").any isPositiveDigits &&
    ((memberText w.aadContext "version").bind fun text => decimal? text.toList).any
      (fun (n : ℕ) => decide (n ≤ 2147483647) && decide (w.version = n)) &&
    ((memberText w.aadContext "created_at").bind timestamptz).any
      (fun (micros : ℕ) => decide (w.createdAt = micros)) &&
    memberText w.aadContext "aad_version" == some "1" &&
    memberText w.aadContext "secret_id" == some w.secretId.hyphenated &&
    memberText w.aadContext "owner_user_id" == some w.ownerUserId.hyphenated &&
    memberText w.aadContext "classification" == some w.classification

/-- The context is compared last. -/
def checkWriteArguments (w : SecretWrite) : Except SqlError Unit := do
  Result.require (writeArgumentsAreValid w) invalidRpcInput
  Result.require (aadContextMatches w) aadContextMismatch

/-! ### The secret and the version -/

/-- The version the pointer of a secret names. -/
def currentVersion? (db : SecretDb) (secret : SecretRow) : Option ℤ :=
  (db.secretVersions.find? fun v => v.secretId == secret.id &&
    some v.id == secret.currentVersionId).map SecretVersionRow.version

/-- Locks the secret. A new one is inserted for the first version; an old one has to belong to the
owner, have the classification, and be one version behind. -/
def lockSecret (db : SecretDb) (w : SecretWrite) : Except SqlError SecretDb :=
  match db.secret? w.secretId with
  | none => do
    Result.require (w.action == "encrypt_create" && w.version == 1) invalidRpcInput
    insertSecret db { id := w.secretId, currentVersionId := none, ownerUserId := w.ownerUserId,
                      classification := w.classification, createdAt := w.createdAt }
  | some secret => do
    Result.require (w.action == "encrypt_rotate") invalidRpcInput
    Result.require (secret.ownerUserId == w.ownerUserId) ownerMismatch
    Result.require (secret.classification == w.classification) classificationImmutable
    let version ← Result.ofOption dbIntegrityViolation (currentVersion? db secret)
    Result.require (decide (version < 2147483647)) integerOutOfRange
    Result.require (w.version == version + 1) notNextVersion
    pure db

/-- The row of `secret_versions` the call inserts. -/
def SecretWrite.versionRow (w : SecretWrite) : SecretVersionRow where
  id := w.secretVersionId
  secretId := w.secretId
  version := w.version
  ciphertext := w.ciphertext
  encryptedDataKey := w.encryptedDataKey
  keyVersion := w.keyVersion
  algorithm := w.algorithm
  classification := w.classification
  nonceOrIv := w.nonceOrIv
  aadContext := w.aadContext
  createdByUserId := w.ownerUserId
  createdByDeviceId := w.createdByDeviceId
  createdAt := w.createdAt

/-- The pointer of the secret moves to the new row. -/
def setCurrentVersion (db : SecretDb) (w : SecretWrite) : SecretDb :=
  { db with secrets := db.secrets.map fun s =>
      if s.id = w.secretId then { s with currentVersionId := some w.secretVersionId } else s }

/-! ### The ledger entry of the write -/

/-- The elements of `p_ledger_entries`. -/
def arrayItems : Json → List Json
  | .array items => items
  | _ => []

/-- The type as it stands in the element. -/
def hasEntryType (types : List String) (entry : Json) : Bool :=
  (memberText entry "p_entry_type").any types.contains

/-- The type of the ledger entry of an action. -/
def writeEntryType (action : String) : String :=
  if action = "encrypt_create" then "secret_created" else "secret_version_created"

/-- `(entry -> 'p_payload' ->> key)::integer <> value`: the cast may raise. -/
def payloadIntegerDiffers (pg : PostgresSession) (entry : Json) (key : String) (value : ℤ) :
    Except SqlError Bool := do
  let number ← castNullable pg.castInteger (invalidTextRepresentation "integer")
    (memberMemberText entry "p_payload" key)
  pure (Truth.ne number (some value)).holds

/-- The comparisons that the entry of the write and the entries of the purges share. -/
def entryDiffers (w : SecretWrite) (entry : Json) : List Truth := [
  Truth.ne (memberText entry "p_request_id") (some w.requestId.hyphenated),
  Truth.isNull (memberText entry "p_source_event_id"),
  Truth.ne (memberText entry "p_target_secret_id") (some w.secretId.hyphenated),
  Truth.ne (memberText entry "p_actor_user_id") (some w.ownerUserId.hyphenated),
  Truth.ne (memberText entry "p_actor_device_id") (some w.createdByDeviceId),
  Truth.ne (memberText entry "p_result") (some "success"),
  Truth.isNotNull (memberText entry "p_error_code")]

/-- The comparisons of the entry of the write with the call. A comparison with a value the entry
does not have is unknown, and an unknown condition raises nothing. -/
def checkWriteEntry (pg : PostgresSession) (w : SecretWrite) (entry : Json) :
    Except SqlError Unit := do
  Result.require (!(Truth.any (entryDiffers w entry ++ [
    Truth.ne (memberText entry "p_target_secret_version_id") (some w.secretVersionId.hyphenated),
    Truth.ne (memberMemberText entry "p_payload" "classification") (some w.classification),
    Truth.ne (memberMemberText entry "p_payload" "algorithm") (some w.algorithm)])).holds)
    invalidRpcInput
  let versionDiffers ← payloadIntegerDiffers pg entry "version" w.version
  Result.require (!versionDiffers) invalidRpcInput
  let keyVersionDiffers ← payloadIntegerDiffers pg entry "key_version" w.keyVersion
  Result.require (!keyVersionDiffers) invalidRpcInput

/-- The ledger entry of the write: the only one of the two write types, of the right type, with
the values of the call. -/
def findWriteLedgerEntry (pg : PostgresSession) (w : SecretWrite) :
    Except SqlError (Option Json) :=
  match w.ledgerEntries with
  | none => .ok none
  | some entries => do
    let items := arrayItems entries
    let entry ← Result.ofOption invalidRpcInput
      (items.find? (hasEntryType [writeEntryType w.action]))
    Result.require (items.countP (hasEntryType ["secret_created", "secret_version_created"]) == 1)
      invalidRpcInput
    checkWriteEntry pg w entry
    pure (some entry)

/-! ### Audit events -/

/-- An integer as a JSON number. -/
def jsonInt : ℤ → Json
  | .ofNat n => .number (.posInt n)
  | .negSucc n => .number (.negInt n)

/-- A text as a JSON value. -/
def jsonText : Option String → Json
  | none => .null
  | some text => .string text

/-- The metadata of the event of a write or a purge; with a ledger entry it has the time of the
entry. -/
def versionMetadata (version : ℤ) (versionId : Uuid) (entry : Option Json) : Json :=
  .object ([("version", jsonInt version), ("secret_version_id", .string versionId.hyphenated)] ++
    match entry with
    | none => []
    | some e => [("source_event_at", jsonText (memberText e "p_source_event_at"))])

/-- The schema counts only in the strict mode of the allowlist. -/
def checkWriteMetadata (pg : PostgresSession) (action : String) (metadata : Json) :
    Except SqlError Unit := do
  Result.require (!auditMetadataHasForbiddenKey pg.toPostgres metadata &&
    auditMetadataTimeIsValid metadata) invalidAuditMetadata
  Result.require (!(auditMetadataHasSchemaViolation action "success" metadata false &&
    pg.allowlistIsStrict)) invalidAuditMetadata

/-- `coalesce((entry ->> 'p_source_event_id')::uuid, gen_random_uuid())`. -/
def eventId (pg : PostgresSession) (random : Uuid) (entry : Option Json) :
    Except SqlError Uuid := do
  let id ← castNullable pg.castUuid (invalidTextRepresentation "uuid")
    (entry.bind fun e => memberText e "p_source_event_id")
  pure (id.getD random)

/-- The audit event of a version that was written or purged. -/
def versionEvent (id : Uuid) (w : SecretWrite) (action : String) (row : SecretVersionRow)
    (entry : Option Json) : AuditEventRow where
  id := id
  requestId := w.requestId
  actorUserId := some w.ownerUserId
  actorDeviceId := some w.createdByDeviceId
  action := action
  targetSecretId := some w.secretId
  result := "success"
  keyVersion := some row.keyVersion
  metadataJson := versionMetadata row.version row.id entry

/-- Appends the entry, if there is one. -/
def appendLedger (pg : PostgresSession) (db : SecretDb) (entry : Option Json) :
    Except SqlError SecretDb :=
  match entry with
  | none => .ok db
  | some e => do
    let (ledger, _) ← rpcAppendLedgerEntryFromJsonb pg db.ledger e
    pure { db with ledger }

/-- Records one version that was written or purged: its audit event, then its ledger entry. -/
def recordVersion (pg : PostgresSession) (random : Uuid) (db : SecretDb) (w : SecretWrite)
    (action : String) (row : SecretVersionRow) (entry : Option Json) :
    Except SqlError SecretDb := do
  checkWriteMetadata pg action (versionMetadata row.version row.id entry)
  let id ← eventId pg random entry
  let db ← insertAuditEvent pg.toPostgres db (versionEvent id w action row entry)
  appendLedger pg db entry

/-! ### Purges -/

/-- The versions beyond the four highest of a secret. -/
def purgeCandidates (db : SecretDb) (secretId : Uuid) : List SecretVersionRow :=
  ((db.versionsOf secretId).insertionSort fun a b => b.version ≤ a.version).drop 4

/-- The rows the `delete` removes, in table order. -/
def purgedRows (db : SecretDb) (secretId : Uuid) : List SecretVersionRow :=
  db.secretVersions.filter fun v => (purgeCandidates db secretId).any fun c => c.id == v.id

/-- The `DELETE` of the versions beyond the limit. -/
def deletePurged (db : SecretDb) (secretId : Uuid) : SecretDb :=
  { db with secretVersions := db.secretVersions.filter fun v =>
      !((purgeCandidates db secretId).any fun c => c.id == v.id) }

/-- An element that names the deleted row. -/
def purgeEntryMatches (versionId : Uuid) (entry : Json) : Bool :=
  hasEntryType ["secret_version_purged"] entry &&
    memberText entry "p_target_secret_version_id" == some versionId.hyphenated

/-- The comparisons of the entry of a purge with the deleted row. -/
def checkPurgeEntry (pg : PostgresSession) (w : SecretWrite) (purged : SecretVersionRow)
    (entry : Json) : Except SqlError Unit := do
  Result.require (!(Truth.any (entryDiffers w entry)).holds) invalidRpcInput
  let versionDiffers ← payloadIntegerDiffers pg entry "version" purged.version
  Result.require (!versionDiffers) invalidRpcInput
  let keyVersionDiffers ← payloadIntegerDiffers pg entry "key_version" purged.keyVersion
  Result.require (!keyVersionDiffers) invalidRpcInput
  let limitDiffers ← payloadIntegerDiffers pg entry "retention_limit" 4
  Result.require (!limitDiffers) invalidRpcInput

/-- The first element that names the row is taken, and has to describe it. -/
def findPurgeLedgerEntry (pg : PostgresSession) (w : SecretWrite) (purged : SecretVersionRow) :
    Except SqlError (Option Json) :=
  match w.ledgerEntries with
  | none => .ok none
  | some entries => do
    let entry ← Result.ofOption invalidRpcInput
      ((arrayItems entries).find? (purgeEntryMatches purged.id))
    checkPurgeEntry pg w purged entry
    pure (some entry)

/-- The loop over the deleted rows. -/
def recordPurges (pg : PostgresSession) (random : ℕ → Uuid) (w : SecretWrite) :
    SecretDb → List SecretVersionRow → Except SqlError SecretDb
  | db, [] => .ok db
  | db, purged :: rest => do
    let entry ← findPurgeLedgerEntry pg w purged
    let db ← recordVersion pg (random (rest.length + 1)) db w "version_purge" purged entry
    recordPurges pg random w db rest

/-- As many purge entries as deleted rows. -/
def checkPurgeCount (w : SecretWrite) (purged : List SecretVersionRow) : Bool :=
  w.ledgerEntries.all fun entries =>
    (arrayItems entries).countP (hasEntryType ["secret_version_purged"]) == purged.length

/-- The deferred foreign key of the secret's pointer, checked at the end of the transaction. -/
def checkCurrentVersionReference (db : SecretDb) (secretId : Uuid) : Bool :=
  db.secrets.all fun s => s.id != secretId || s.currentVersionId.all fun id =>
    db.secretVersions.any fun v => v.secretId == s.id && v.id == id

/-! ### The procedure -/

/-- The body for arguments without nulls. -/
def writeSecretVersion (pg : PostgresSession) (random : ℕ → Uuid) (db : SecretDb)
    (w : SecretWrite) : Except SqlError (SecretDb × WriteSecretVersionRow) := do
  checkWriteArguments w
  let db ← lockSecret db w
  let db ← insertSecretVersion db w.versionRow
  let db := setCurrentVersion db w
  let entry ← findWriteLedgerEntry pg w
  let db ← recordVersion pg (random 0) db w w.action w.versionRow entry
  let purged := pg.returned (purgedRows db w.secretId)
  let db ← recordPurges pg random w (deletePurged db w.secretId) purged
  Result.require (checkPurgeCount w purged) invalidRpcInput
  Result.require (checkCurrentVersionReference db w.secretId)
    (foreignKeyViolation "secrets" "secrets_current_version_fk")
  pure (db, { secretId := w.secretId, secretVersionId := w.secretVersionId, version := w.version,
              purgedVersionIds := purged.map SecretVersionRow.id })

/-- `rpc_write_secret_version`. The call of `gen_random_uuid` for the event of the write returns
`random 0`; the calls for the events of the purges have numbers of their own. -/
def rpcWriteSecretVersion (pg : PostgresSession) (random : ℕ → Uuid) (db : SecretDb)
    (args : WriteSecretVersionArgs) : Except SqlError (SecretDb × WriteSecretVersionRow) := do
  let w ← Result.ofOption invalidRpcInput args.write?
  writeSecretVersion pg random db w

/-! ### What each statement does -/

/-- What the lock on the secret finds. -/
inductive Locked (db : SecretDb) (w : SecretWrite) : SecretDb → Prop
  /-- The secret is new: it is inserted, without a pointer. -/
  | created (hnone : ∀ s ∈ db.secrets, s.id ≠ w.secretId) (hversion : w.version = 1)
      (haction : w.action = "encrypt_create") (howner : w.ownerUserId ∈ db.users) :
      Locked db w { db with secrets := db.secrets ++ [{
        id := w.secretId, currentVersionId := none, ownerUserId := w.ownerUserId,
        classification := w.classification, createdAt := w.createdAt }] }
  /-- The secret exists, with the owner and classification of the call, one version behind. -/
  | found (secret : SecretRow) (current : SecretVersionRow) (hsecret : secret ∈ db.secrets)
      (hid : secret.id = w.secretId) (howner : secret.ownerUserId = w.ownerUserId)
      (hclassification : secret.classification = w.classification)
      (haction : w.action = "encrypt_rotate") (hcurrent : current ∈ db.secretVersions)
      (hof : current.secretId = w.secretId) (hpointer : secret.currentVersionId = some current.id)
      (hversion : w.version = current.version + 1) : Locked db w db

theorem currentVersion?_eq_some {db : SecretDb} {secret : SecretRow} {version : ℤ}
    (h : currentVersion? db secret = some version) : ∃ v ∈ db.secretVersions,
      v.secretId = secret.id ∧ secret.currentVersionId = some v.id ∧ v.version = version := by
  obtain ⟨v, hfind, hversion⟩ := Option.map_eq_some_iff.mp h
  have hv := List.find?_some hfind
  simp only [Bool.and_eq_true, beq_iff_eq] at hv
  exact ⟨v, List.mem_of_find?_eq_some hfind, hv.1, hv.2.symm, hversion⟩

theorem lockSecret_eq_ok {db db' : SecretDb} {w : SecretWrite} (h : lockSecret db w = .ok db') :
    Locked db w db' := by
  unfold lockSecret at h
  split at h
  · rename_i hnone
    simp only [Result.bind_eq_ok, Result.require_eq_ok, Bool.and_eq_true, beq_iff_eq] at h
    obtain ⟨_, ⟨haction, hversion⟩, hinsert⟩ := h
    obtain ⟨hfresh, huser, rfl⟩ := insertSecret_eq_ok.mp hinsert
    exact .created hfresh hversion haction huser
  · rename_i secret hsome
    simp only [Result.bind_eq_ok, Result.require_eq_ok, Result.ofOption_eq_ok, beq_iff_eq,
      Result.pure_eq_ok] at h
    obtain ⟨_, haction, _, howner, _, hclassification, version, hcurrent, _, -, _, hversion,
      rfl⟩ := h
    obtain ⟨v, hv, hof, hpointer, rfl⟩ := currentVersion?_eq_some hcurrent
    have hid : secret.id = w.secretId := by simpa using List.find?_some hsome
    exact .found secret v (List.mem_of_find?_eq_some hsome) hid howner hclassification haction hv
      (hof.trans hid) hpointer hversion

/-- The lock leaves the users and the versions alone. -/
theorem Locked.frame {db db' : SecretDb} {w : SecretWrite} (h : Locked db w db') :
    db'.users = db.users ∧ db'.secretVersions = db.secretVersions := by
  cases h <;> exact ⟨rfl, rfl⟩

/-- What the ledger does with an entry that may be missing. -/
def LedgerAppended (pg : PostgresSession) (ledger : LedgerDb) (entry : Option Json)
    (ledger' : LedgerDb) : Prop :=
  match entry with
  | none => ledger' = ledger
  | some e => ∃ result, rpcAppendLedgerEntryFromJsonb pg ledger e = .ok (ledger', result)

/-- A version was recorded: its event is valid and has a new identifier, and its entry is in the
ledger. -/
structure VersionRecorded (pg : PostgresSession) (random : Uuid) (db : SecretDb) (w : SecretWrite)
    (action : String) (row : SecretVersionRow) (entry : Option Json) (db' : SecretDb) :
    Prop where
  exists_event : ∃ id ledger, eventId pg random entry = .ok id ∧
    (∀ e ∈ db.auditEvents, e.id ≠ id) ∧ LedgerAppended pg db.ledger entry ledger ∧
    db' = { db with auditEvents := db.auditEvents ++ [versionEvent id w action row entry],
                    ledger := ledger }
  metadata_time : auditMetadataTimeIsValid (versionMetadata row.version row.id entry) = true
  events_valid : EventsValid pg.toPostgres db db'

variable {entry : Option Json}

theorem appendLedger_eq_ok {pg : PostgresSession} {db db' : SecretDb} :
    appendLedger pg db entry = .ok db' ↔
      ∃ ledger, LedgerAppended pg db.ledger entry ledger ∧ db' = { db with ledger := ledger } := by
  cases entry with
  | none =>
    simp only [appendLedger, LedgerAppended, Except.ok.injEq, exists_eq_left]
    exact eq_comm
  | some e =>
    simp only [appendLedger, LedgerAppended, Result.bind_eq_ok, Result.pure_eq_ok, Prod.exists]
    constructor
    · rintro ⟨ledger, result, happend, rfl⟩
      exact ⟨ledger, ⟨result, happend⟩, rfl⟩
    · rintro ⟨ledger, ⟨result, happend⟩, rfl⟩
      exact ⟨ledger, result, happend, rfl⟩

theorem recordVersion_eq_ok {pg : PostgresSession} {random : Uuid} {db db' : SecretDb}
    {w : SecretWrite} {action : String} {row : SecretVersionRow}
    (h : recordVersion pg random db w action row entry = .ok db') :
    VersionRecorded pg random db w action row entry db' := by
  simp only [recordVersion, checkWriteMetadata, Result.bind_eq_ok, Result.require_eq_ok,
    Bool.and_eq_true] at h
  obtain ⟨_, ⟨_, ⟨-, htime⟩, -⟩, id, hid, db₁, hinsert, happend⟩ := h
  obtain ⟨hvalid, hfresh, -, rfl⟩ := insertAuditEvent_eq_ok.mp hinsert
  obtain ⟨ledger, hledger, rfl⟩ := appendLedger_eq_ok.mp happend
  exact ⟨⟨id, ledger, hid, hfresh, hledger, rfl⟩, htime, .concat hvalid rfl⟩

/-- The other tables are left alone. -/
theorem VersionRecorded.frame {pg : PostgresSession} {random : Uuid} {db db' : SecretDb}
    {w : SecretWrite} {action : String} {row : SecretVersionRow}
    (h : VersionRecorded pg random db w action row entry db') :
    db' = { db with auditEvents := db'.auditEvents, ledger := db'.ledger } := by
  obtain ⟨⟨id, ledger, -, -, -, rfl⟩, -⟩ := h
  rfl

/-- The purges of a write, one after the other. -/
inductive PurgesRecorded (pg : PostgresSession) (random : ℕ → Uuid) (w : SecretWrite) :
    SecretDb → List SecretVersionRow → SecretDb → Prop
  | nil (db : SecretDb) : PurgesRecorded pg random w db [] db
  | cons {db db₁ db' : SecretDb} {purged : SecretVersionRow} {rest : List SecretVersionRow}
      {entry : Option Json} (hentry : findPurgeLedgerEntry pg w purged = .ok entry)
      (hrecord : VersionRecorded pg (random (rest.length + 1)) db w "version_purge" purged entry
        db₁) (hrest : PurgesRecorded pg random w db₁ rest db') :
      PurgesRecorded pg random w db (purged :: rest) db'

theorem recordPurges_eq_ok {pg : PostgresSession} {random : ℕ → Uuid} {w : SecretWrite}
    {db db' : SecretDb} {rows : List SecretVersionRow}
    (h : recordPurges pg random w db rows = .ok db') : PurgesRecorded pg random w db rows db' := by
  induction rows generalizing db with
  | nil =>
    cases h
    exact .nil _
  | cons purged rest ih =>
    simp only [recordPurges, Result.bind_eq_ok] at h
    obtain ⟨entry, hentry, db₁, hrecord, hrest⟩ := h
    exact .cons hentry (recordVersion_eq_ok hrecord) (ih hrest)

theorem PurgesRecorded.frame {pg : PostgresSession} {random : ℕ → Uuid} {w : SecretWrite}
    {db db' : SecretDb} {rows : List SecretVersionRow}
    (h : PurgesRecorded pg random w db rows db') :
    db' = { db with auditEvents := db'.auditEvents, ledger := db'.ledger } := by
  induction h with
  | nil db => rfl
  | cons hentry hrecord hrest ih => rw [ih, hrecord.frame]

/-- **All a successful write does.** `locked` is the state after the lock on the secret and
`recorded` the one after the write was recorded; the purges come last. -/
structure Written (pg : PostgresSession) (random : ℕ → Uuid) (db : SecretDb) (w : SecretWrite)
    (entry : Option Json) (purged : List SecretVersionRow) (db' : SecretDb) : Prop where
  arguments : writeArgumentsAreValid w = true
  context : aadContextMatches w = true
  entry_found : findWriteLedgerEntry pg w = .ok entry
  count : checkPurgeCount w purged = true
  pointer : checkCurrentVersionReference db' w.secretId = true
  exists_states : ∃ locked recorded, Locked db w locked ∧
    insertSecretVersion locked w.versionRow =
      .ok { locked with secretVersions := locked.secretVersions ++ [w.versionRow] } ∧
    VersionRecorded pg (random 0) (setCurrentVersion { locked with
      secretVersions := locked.secretVersions ++ [w.versionRow] } w) w w.action w.versionRow entry
      recorded ∧
    purged = pg.returned (purgedRows recorded w.secretId) ∧
    PurgesRecorded pg random w (deletePurged recorded w.secretId) purged db'

/-- What a successful call of the write procedure does and returns. -/
theorem writeSecretVersion_eq_ok {pg : PostgresSession} {random : ℕ → Uuid} {db db' : SecretDb}
    {w : SecretWrite} {result : WriteSecretVersionRow}
    (h : writeSecretVersion pg random db w = .ok (db', result)) :
    ∃ entry purged, Written pg random db w entry purged db' ∧
      result = { secretId := w.secretId, secretVersionId := w.secretVersionId,
                 version := w.version, purgedVersionIds := purged.map SecretVersionRow.id } := by
  simp only [writeSecretVersion, checkWriteArguments, Result.bind_eq_ok, Result.require_eq_ok,
    Result.pure_eq_ok, Prod.mk.injEq] at h
  obtain ⟨_, ⟨_, harguments, hcontext⟩, locked, hlock, stored, hstore, entry, hentry, recorded,
    hrecord, db₁, hpurges, _, hcount, _, hpointer, rfl, rfl⟩ := h
  obtain ⟨-, -, -, -, -, rfl⟩ := insertSecretVersion_eq_ok.mp hstore
  exact ⟨entry, _, ⟨harguments, hcontext, hentry, hcount, hpointer, locked, recorded,
    lockSecret_eq_ok hlock, hstore, recordVersion_eq_ok hrecord, rfl,
    recordPurges_eq_ok hpurges⟩, rfl⟩

/-- What a write does to the secrets and their versions: the version is added, the pointer moved and
the outranked versions deleted. -/
theorem Written.tables {pg : PostgresSession} {random : ℕ → Uuid} {db db' : SecretDb}
    {w : SecretWrite} {purged : List SecretVersionRow}
    (h : Written pg random db w entry purged db') :
    ∃ locked, Locked db w locked ∧ db'.users = db.users ∧
      db'.secrets = (setCurrentVersion locked w).secrets ∧
      db'.secretVersions = (deletePurged { db with
        secretVersions := db.secretVersions ++ [w.versionRow] } w.secretId).secretVersions ∧
      insertSecretVersion locked w.versionRow =
        .ok { locked with secretVersions := db.secretVersions ++ [w.versionRow] } := by
  obtain ⟨locked, recorded, hlocked, hinsert, hrecorded, -, hpurges⟩ := h.exists_states
  have hframe := hlocked.frame
  rw [hpurges.frame, hrecorded.frame]
  refine ⟨locked, hlocked, hframe.1, rfl, ?_, ?_⟩
  · simp only [deletePurged, purgeCandidates, SecretDb.versionsOf, setCurrentVersion, hframe.2]
  · rw [hinsert, hframe.2]

theorem setCurrentVersion_ids (db : SecretDb) (w : SecretWrite) :
    (setCurrentVersion db w).secrets.map SecretRow.id = db.secrets.map SecretRow.id := by
  rw [setCurrentVersion, List.map_map]
  refine List.map_congr_left fun s _ => ?_
  rw [Function.comp_apply]
  split_ifs <;> rfl

theorem Locked.secret_ids_nodup {db locked : SecretDb} {w : SecretWrite}
    (h : Locked db w locked) (hkeys : db.PrimaryKeys) :
    (locked.secrets.map SecretRow.id).Nodup := by
  cases h with
  | found => exact hkeys.secret_ids_nodup
  | created hnone => exact Keyed.nodup_concat hkeys.secret_ids_nodup hnone

/-- The secret the lock holds has the owner and the classification of the write. -/
theorem Locked.exists_secret {db locked : SecretDb} {w : SecretWrite} (h : Locked db w locked) :
    ∃ s ∈ locked.secrets, s.id = w.secretId ∧ s.ownerUserId = w.ownerUserId ∧
      s.classification = w.classification := by
  cases h with
  | created => exact ⟨_, List.mem_append_right _ (List.mem_singleton_self _), rfl, rfl, rfl⟩
  | found secret current hsecret hid howner hclassification =>
    exact ⟨secret, hsecret, hid, howner, hclassification⟩

section Current

variable {pg : PostgresSession} {random : ℕ → Uuid} {db db' : SecretDb} {w : SecretWrite}
  {entry : Option Json} {purged : List SecretVersionRow}

theorem Written.device_ne_empty (h : Written pg random db w entry purged db') :
    w.createdByDeviceId ≠ "" := by
  intro hempty
  have harguments := h.arguments
  simp [writeArgumentsAreValid, hempty, btrim] at harguments

/-- The identifier of the version is new. -/
theorem Written.fresh (h : Written pg random db w entry purged db') :
    ∀ v ∈ db.secretVersions, v.id ≠ w.secretVersionId := by
  obtain ⟨locked, hlocked, -, -, -, hinsert⟩ := h.tables
  obtain ⟨hfresh, -⟩ := insertSecretVersion_eq_ok.mp hinsert
  rwa [hlocked.frame.2] at hfresh

/-- A version that is there after a write was there before it or was written by it. -/
theorem Written.mem_versions (h : Written pg random db w entry purged db') {v : SecretVersionRow}
    (hv : v ∈ db'.secretVersions) : v ∈ db.secretVersions ∨ v = w.versionRow := by
  obtain ⟨_, -, -, -, hversions, -⟩ := h.tables
  rw [hversions] at hv
  exact (List.mem_append.mp (List.mem_of_mem_filter hv)).imp_right List.mem_singleton.mp

/-- With its version stored, the secret has one more version. -/
theorem versionsOf_append_versionRow (db : SecretDb) (w : SecretWrite) :
    SecretDb.versionsOf { db with secretVersions := db.secretVersions ++ [w.versionRow] }
      w.secretId = db.versionsOf w.secretId ++ [w.versionRow] := by
  rw [SecretDb.versionsOf, List.filter_append, SecretDb.versionsOf]
  simp [SecretWrite.versionRow]

/-- The rows that a write deletes if its version gets stored. -/
def rowsToDelete (db : SecretDb) (w : SecretWrite) : List SecretVersionRow :=
  purgedRows { db with secretVersions := db.secretVersions ++ [w.versionRow] } w.secretId

/-- The rows the write deletes, up to the order in which they are returned. -/
theorem Written.purged_perm (h : Written pg random db w entry purged db') :
    purged.Perm (rowsToDelete db w) := by
  obtain ⟨locked, recorded, hlocked, -, hrecorded, rfl, -⟩ := h.exists_states
  refine (pg.returned_perm _).trans (.of_eq ?_)
  rw [hrecorded.frame]
  simp only [rowsToDelete, purgedRows, purgeCandidates, SecretDb.versionsOf, setCurrentVersion,
    hlocked.frame.2]

/-- The purged rows are those that are gone. -/
theorem Written.mem_purged (h : Written pg random db w entry purged db') {v : SecretVersionRow} :
    v ∈ purged ↔ (v ∈ db.secretVersions ∨ v = w.versionRow) ∧ v ∉ db'.secretVersions := by
  obtain ⟨_, -, -, -, hversions, -⟩ := h.tables
  rw [h.purged_perm.mem_iff, hversions, rowsToDelete, purgedRows, deletePurged, List.mem_filter,
    List.mem_filter, List.mem_append, List.mem_singleton, Bool.not_eq_true', ← Bool.not_eq_true]
  tauto

theorem Written.purged_ids_nodup (h : Written pg random db w entry purged db')
    (hkeys : db.PrimaryKeys) : (purged.map SecretVersionRow.id).Nodup := by
  refine (h.purged_perm.map _).nodup_iff.mpr (Keyed.nodup_filter ?_ _)
  exact Keyed.nodup_concat hkeys.version_ids_nodup h.fresh

theorem Written.primaryKeys (h : Written pg random db w entry purged db')
    (hkeys : db.PrimaryKeys) : db'.PrimaryKeys := by
  obtain ⟨locked, hlocked, -, hsecrets, hversions, -⟩ := h.tables
  constructor
  · rw [hsecrets, setCurrentVersion_ids]
    exact hlocked.secret_ids_nodup hkeys
  · rw [hversions]
    exact Keyed.nodup_filter (Keyed.nodup_concat hkeys.version_ids_nodup h.fresh) _

/-- **After a write the secret's pointer names the version that was written, and it is there.** -/
theorem Written.current (h : Written pg random db w entry purged db') :
    w.versionRow ∈ db'.secretVersions ∧ ∃ secret ∈ db'.secrets,
      secret.id = w.secretId ∧ secret.ownerUserId = w.ownerUserId ∧
      secret.classification = w.classification ∧
      secret.currentVersionId = some w.secretVersionId := by
  obtain ⟨locked, hlocked, -, hsecrets, -⟩ := h.tables
  obtain ⟨s, hs, hid, hcolumns⟩ := hlocked.exists_secret
  have hsecret : { s with currentVersionId := some w.secretVersionId } ∈ db'.secrets := by
    rw [hsecrets]
    refine List.mem_map.mpr ⟨s, hs, ?_⟩
    rw [if_pos hid]
  refine ⟨?_, _, hsecret, hid, hcolumns.1, hcolumns.2, rfl⟩
  -- the foreign key of the pointer finds a version with the new identifier
  have hpointer := h.pointer
  simp only [checkCurrentVersionReference, List.all_eq_true, Bool.or_eq_true,
    bne_iff_ne] at hpointer
  obtain ⟨v, hv, -, hfound⟩ : ∃ v ∈ db'.secretVersions, v.secretId = w.secretId ∧
      v.id = w.secretVersionId := by
    simpa [hid] using hpointer _ hsecret
  rcases h.mem_versions hv with hold | rfl
  · exact absurd hfound (h.fresh v hold)
  · exact hv

end Current

end Sql

end Mipsorcu
