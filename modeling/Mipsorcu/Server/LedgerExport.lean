import Mipsorcu.Server.LedgerRpc

/-!
# Exporting and restoring ledger entries

The verifiers read the ledger through `rpc_export_ledger_verification_materials`: every entry of
a range of positions, in order, joined with the registered public key of its key version. The
transport returns at most `postgrestMaxRows` rows of it.

An exported row is parsed twice: the response into a `LedgerVerificationMaterialRow`, and that
row into a `SignedLedgerEntry` and a `LedgerVerifyingKey`. `restore_ofSigned` is the round trip:
the row of a stored entry restores to the entry, in whatever order the database returns the
members of its payload.
-/

namespace Mipsorcu

/-! ### The export procedure -/

namespace Sql

/-- `order by sequence_no`. -/
def orderBySequenceNo (rows : List LedgerEntryRow) : List LedgerEntryRow :=
  rows.insertionSort fun a b => a.sequenceNo ≤ b.sequenceNo

/-- The registered key of a version. -/
def registeredKey (db : LedgerDb) (keyVersion : ℤ) : Option LedgerSigningPublicKeyRow :=
  db.signingPublicKeys.find? fun key => key.keyVersion = keyVersion

/-- `rpc_export_ledger_verification_materials` for a range of positions. -/
def rpcExportLedgerVerificationMaterials (db : LedgerDb) (start stop : ℤ) :
    Except SqlError (List (LedgerEntryRow × Option LedgerSigningPublicKeyRow)) :=
  if start ≤ 0 ∨ stop ≤ 0 ∨ start > stop then .error invalidRpcInput
  else .ok ((orderBySequenceNo
      (db.entries.filter fun row => start ≤ row.sequenceNo ∧ row.sequenceNo ≤ stop)).map
    fun row => (row, registeredKey db row.signatureKeyVersion))

end Sql

/-- The most rows the transport returns (`max_rows`). -/
def postgrestMaxRows : ℕ := 1000

/-! ### Exported rows -/

/-- An exported row as it arrives (`LedgerVerificationMaterialResponse`). -/
structure LedgerVerificationMaterialResponse where
  ledgerEntryId : String
  sequenceNo : ℤ
  entryHash : Option String
  previousEntryHash : Option String
  signature : Option String
  signatureKeyVersion : Option ℤ
  entryType : Option String
  sourceEventAt : Option String
  requestId : Option String
  sourceEventId : Option String
  targetSecretId : Option String
  targetSecretVersionId : Option String
  actorUserId : Option String
  actorDeviceId : Option String
  result : Option String
  errorCode : Option String
  payload : Option Json
  canonicalizationVersion : Option ℤ
  hashAlgorithm : Option String
  signatureAlgorithm : Option String
  pkKeyVersion : Option ℤ
  pkPublicKey : Option String
  pkAlgorithm : Option String
  pkStatus : Option String

/-- The response for a stored row: UUIDs and byte strings as text, the payload as the database
prints it. -/
def LedgerVerificationMaterialResponse.ofRow (row : LedgerEntryRow) (payload : Json)
    (key : Option LedgerSigningPublicKeyRow) : LedgerVerificationMaterialResponse where
  ledgerEntryId := row.id.hyphenated
  sequenceNo := row.sequenceNo
  entryHash := some (byteaText row.entryHash)
  previousEntryHash := some (byteaText row.previousEntryHash)
  signature := some (byteaText row.signature)
  signatureKeyVersion := some row.signatureKeyVersion
  entryType := some row.entryType
  sourceEventAt := some row.sourceEventAt
  requestId := some row.requestId.hyphenated
  sourceEventId := row.sourceEventId.map Uuid.hyphenated
  targetSecretId := row.targetSecretId.map Uuid.hyphenated
  targetSecretVersionId := row.targetSecretVersionId.map Uuid.hyphenated
  actorUserId := row.actorUserId.map Uuid.hyphenated
  actorDeviceId := row.actorDeviceId
  result := some row.result
  errorCode := row.errorCode
  payload := some payload
  canonicalizationVersion := some row.canonicalizationVersion
  hashAlgorithm := some row.hashAlgorithm
  signatureAlgorithm := some row.signatureAlgorithm
  pkKeyVersion := key.map (·.keyVersion)
  pkPublicKey := key.map fun k => byteaText k.publicKey
  pkAlgorithm := key.map (·.algorithm)
  pkStatus := key.map (·.status)

/-- An exported row after the first parse. -/
structure LedgerVerificationMaterialRow where
  ledgerEntryId : LedgerEntryId
  sequenceNo : LedgerSequenceNo
  entryHash : LedgerHash
  previousEntryHash : LedgerHash
  signature : LedgerSignature
  signatureKeyVersion : LedgerSignatureKeyVersion
  entryType : String
  sourceEventAt : String
  requestId : String
  sourceEventId : Option String
  targetSecretId : Option String
  targetSecretVersionId : Option String
  actorUserId : Option String
  actorDeviceId : Option String
  result : String
  errorCode : Option String
  payload : Json
  canonicalizationVersion : ℤ
  hashAlgorithm : String
  signatureAlgorithm : String
  pkKeyVersion : Option ℤ
  pkPublicKey : Option String
  pkAlgorithm : Option String
  pkStatus : Option String
  deriving DecidableEq

namespace LedgerVerificationMaterialRow

/-- The error for a field that is null or does not parse. -/
def invalidResponse (problem : String) : SupabaseRpcError :=
  .invalidResponse ("export ledger verification materials RPC returned " ++ problem)

/-- `TryFrom<LedgerVerificationMaterialResponse>`. -/
def tryFrom (r : LedgerVerificationMaterialResponse) :
    Except SupabaseRpcError LedgerVerificationMaterialRow := do
  let ledgerEntryId ← (LedgerEntryId.parse r.ledgerEntryId).mapError
    fun _ => invalidResponse "invalid ledger_entry_id"
  let sequenceNo ← (LedgerSequenceNo.fromI64 r.sequenceNo).mapError
    fun _ => invalidResponse "invalid sequence_no"
  let entryHashRaw ← Result.ofOption (invalidResponse "null entry_hash") r.entryHash
  let entryHash ← (LedgerHash.fromByteaHex entryHashRaw).mapError
    fun _ => invalidResponse "invalid entry_hash"
  let previousEntryHashRaw ← Result.ofOption (invalidResponse "null previous_entry_hash")
    r.previousEntryHash
  let previousEntryHash ← (LedgerHash.fromByteaHex previousEntryHashRaw).mapError
    fun _ => invalidResponse "invalid previous_entry_hash"
  let signatureRaw ← Result.ofOption (invalidResponse "null signature") r.signature
  let signature ← (LedgerSignature.fromByteaHex signatureRaw).mapError
    fun _ => invalidResponse "invalid signature"
  let signatureKeyVersionRaw ← Result.ofOption (invalidResponse "null signature_key_version")
    r.signatureKeyVersion
  let signatureKeyVersion ← (LedgerSignatureKeyVersion.ofI32 signatureKeyVersionRaw).mapError
    fun _ => invalidResponse "invalid signature_key_version"
  let entryType ← Result.ofOption (invalidResponse "null entry_type") r.entryType
  let sourceEventAt ← Result.ofOption (invalidResponse "null source_event_at") r.sourceEventAt
  let requestId ← Result.ofOption (invalidResponse "null request_id") r.requestId
  let result ← Result.ofOption (invalidResponse "null result") r.result
  let payload ← Result.ofOption (invalidResponse "null payload") r.payload
  let canonicalizationVersion ← Result.ofOption (invalidResponse "null canonicalization_version")
    r.canonicalizationVersion
  let hashAlgorithm ← Result.ofOption (invalidResponse "null hash_algorithm") r.hashAlgorithm
  let signatureAlgorithm ← Result.ofOption (invalidResponse "null signature_algorithm")
    r.signatureAlgorithm
  Result.require (!(r.pkPublicKey.isSome && r.pkKeyVersion.isNone))
    (invalidResponse "pk_public_key without pk_key_version")
  pure { ledgerEntryId, sequenceNo, entryHash, previousEntryHash, signature, signatureKeyVersion,
         entryType, sourceEventAt, requestId, sourceEventId := r.sourceEventId,
         targetSecretId := r.targetSecretId, targetSecretVersionId := r.targetSecretVersionId,
         actorUserId := r.actorUserId, actorDeviceId := r.actorDeviceId, result,
         errorCode := r.errorCode, payload, canonicalizationVersion, hashAlgorithm,
         signatureAlgorithm, pkKeyVersion := r.pkKeyVersion, pkPublicKey := r.pkPublicKey,
         pkAlgorithm := r.pkAlgorithm, pkStatus := r.pkStatus }

end LedgerVerificationMaterialRow

/-- A `jsonb` value as it is printed. Payloads are flat, so only the order of their members can
change. -/
def Postgres.printJsonb (pg : Postgres) : Json → Json
  | .object members => .object (pg.jsonbMembers members)
  | value => value

/-- `export_ledger_verification_materials`: the first rows of the answer, up to the cap, each
parsed. -/
def exportLedgerVerificationMaterials (pg : Postgres) (db : LedgerDb)
    (start stop : LedgerSequenceNo) :
    Except SupabaseRpcError (List LedgerVerificationMaterialRow) := do
  let rows ← (Sql.rpcExportLedgerVerificationMaterials db start.val stop.val).mapError
    SqlError.toRpcError
  Result.traverse LedgerVerificationMaterialRow.tryFrom
    ((rows.take postgrestMaxRows).map fun r => .ofRow r.1 (pg.printJsonb r.1.payload) r.2)

namespace LedgerVerificationMaterialRow

/-! ### Restoring the key and the entry -/

/-- `decode_bytea_hex`. -/
def decodeByteaHex (value : String) : Option (List UInt8) := do
  let digits ← stripByteaMark value
  hexDecode digits

/-- A row without a registered key restores to none. -/
def tryRestoreVerifyingKey (P : Primitives) (row : LedgerVerificationMaterialRow) :
    Except LedgerError (Option (LedgerVerifyingKey P)) :=
  match row.pkKeyVersion, row.pkPublicKey with
  | some pkKeyVersion, some pkPublicKey => do
    let pkAlgorithm ← Result.ofOption .invalidVerificationKey row.pkAlgorithm
    let pkStatus ← Result.ofOption .invalidVerificationKey row.pkStatus
    Result.require (pkAlgorithm == "ed25519") .invalidVerificationKey
    Result.require (pkStatus == "created" || pkStatus == "active" || pkStatus == "retired")
      .invalidVerificationKey
    let keyVersion ← LedgerSignatureKeyVersion.ofI32 pkKeyVersion
    Result.require (decide (keyVersion = row.signatureKeyVersion))
      (.signatureKeyVersionMismatch row.signatureKeyVersion.val keyVersion.val)
    let publicKey ← Result.ofOption .invalidVerificationKey (decodeByteaHex pkPublicKey)
    let key ← LedgerVerifyingKey.fromPublicKeyBytes P keyVersion publicKey
    pure (some key)
  | _, _ => .ok none

/-- Parses an optional text; the family of the `parse_optional_…` functions. -/
def parseOptional {α ε : Type} (parse : String → Except ε α) (error : LedgerError) :
    Option String → Except LedgerError (Option α)
  | none => .ok none
  | some raw => some <$> (parse raw).mapError fun _ => error

/-- The `source_event_id` of a row. -/
def parseOptionalAuditEventId : Option String → Except LedgerError (Option AuditEventId) :=
  parseOptional AuditEventId.parse (.invalidUuid "source_event_id")

/-- The `target_secret_id` of a row. -/
def parseOptionalSecretId : Option String → Except LedgerError (Option SecretId) :=
  parseOptional SecretId.parse (.invalidUuid "target_secret_id")

/-- The `target_secret_version_id` of a row. -/
def parseOptionalTargetSecretVersionId :
    Option String → Except LedgerError (Option LedgerTargetSecretVersionId) :=
  parseOptional LedgerTargetSecretVersionId.parse (.invalidUuid "target_secret_version_id")

/-- The `actor_user_id` of a row. -/
def parseOptionalOwnerUserId : Option String → Except LedgerError (Option OwnerUserId) :=
  parseOptional OwnerUserId.parse (.invalidUuid "actor_user_id")

/-- The `actor_device_id` of a row. -/
def parseOptionalDeviceId : Option String → Except LedgerError (Option DeviceId) :=
  parseOptional DeviceId.new .invalidActorDeviceId

/-- `try_restore_signed_ledger_entry`. -/
def tryRestoreSignedLedgerEntry (row : LedgerVerificationMaterialRow) :
    Except LedgerError SignedLedgerEntry := do
  let entryType ← (LedgerEntryType.parse row.entryType).mapError
    fun _ => .unknownEntryType row.entryType
  let sourceEventAt ← (SourceEventAt.parse row.sourceEventAt).mapError
    fun _ => .serializationFailed "invalid source_event_at"
  let requestId ← (RequestId.parse row.requestId).mapError fun _ => .invalidUuid "request_id"
  let sourceEventId ← parseOptionalAuditEventId row.sourceEventId
  let targetSecretId ← parseOptionalSecretId row.targetSecretId
  let targetSecretVersionId ← parseOptionalTargetSecretVersionId row.targetSecretVersionId
  let actorUserId ← parseOptionalOwnerUserId row.actorUserId
  let actorDeviceId ← parseOptionalDeviceId row.actorDeviceId
  let result ← LedgerResult.parse row.result
  let payload ← LedgerPayload.new entryType row.payload
  SignedLedgerEntry.fromStoredParts
    { ledgerEntryId := row.ledgerEntryId, sequenceNo := row.sequenceNo, entryType, sourceEventAt,
      requestId, sourceEventId, targetSecretId, targetSecretVersionId, actorUserId,
      actorDeviceId, result, errorCode := row.errorCode, payload,
      previousEntryHash := row.previousEntryHash,
      signatureKeyVersion := row.signatureKeyVersion } row.entryHash row.signature

/-- A restored entry has the position and the hashes of its row. -/
theorem tryRestoreSignedLedgerEntry_fields {row : LedgerVerificationMaterialRow}
    {e : SignedLedgerEntry} (h : row.tryRestoreSignedLedgerEntry = .ok e) :
    e.sequenceNo = row.sequenceNo ∧ e.previousEntryHash = row.previousEntryHash ∧
      e.entryHash = row.entryHash := by
  simp only [tryRestoreSignedLedgerEntry, SignedLedgerEntry.fromStoredParts, Result.bind_eq_ok,
    LedgerEntryDraft.new_eq_ok, Result.pure_eq_ok] at h
  obtain ⟨_, -, _, -, _, -, _, -, _, -, _, -, _, -, _, -, _, -, _, -, ⟨parts, hvalid⟩, rfl,
    rfl⟩ := h
  exact ⟨rfl, rfl, rfl⟩

end LedgerVerificationMaterialRow

/-! ### The round trip -/

namespace LedgerVerificationMaterialRow

/-- The exported row of a stored entry. -/
def ofSigned (e : SignedLedgerEntry) (payload : Json) (key : Option LedgerSigningPublicKeyRow) :
    LedgerVerificationMaterialRow where
  ledgerEntryId := e.ledgerEntryId
  sequenceNo := e.sequenceNo
  entryHash := e.entryHash
  previousEntryHash := e.previousEntryHash
  signature := e.signature
  signatureKeyVersion := e.signatureKeyVersion
  entryType := e.entryType.asStr
  sourceEventAt := e.sourceEventAt.text
  requestId := e.requestId.asCanonicalString
  sourceEventId := e.sourceEventId.map AuditEventId.asCanonicalString
  targetSecretId := e.targetSecretId.map SecretId.asCanonicalString
  targetSecretVersionId :=
    e.targetSecretVersionId.map LedgerTargetSecretVersionId.asCanonicalString
  actorUserId := e.actorUserId.map OwnerUserId.asCanonicalString
  actorDeviceId := e.actorDeviceId.map DeviceId.text
  result := e.result.asStr
  errorCode := e.errorCode
  payload := payload
  canonicalizationVersion := 1
  hashAlgorithm := ledgerHashAlgorithmSha256
  signatureAlgorithm := ledgerSignatureAlgorithmEd25519
  pkKeyVersion := key.map (·.keyVersion)
  pkPublicKey := key.map fun k => byteaText k.publicKey
  pkAlgorithm := key.map (·.algorithm)
  pkStatus := key.map (·.status)

/-- The first parse of the response for a stored entry gives its exported row. -/
theorem tryFrom_ofRow {e : SignedLedgerEntry} (h : e.signatureKeyVersion.val ≤ 2147483647)
    (payload : Json) (key : Option LedgerSigningPublicKeyRow) :
    tryFrom (.ofRow (.ofSigned e) payload key) = .ok (ofSigned e payload key) := by
  have hid : LedgerEntryId.parse e.ledgerEntryId.uuid.hyphenated = .ok e.ledgerEntryId :=
    e.ledgerEntryId.parse_asCanonicalString
  have hentry : LedgerHash.fromByteaHex (byteaText e.entryHash.bytes) = .ok e.entryHash :=
    LedgerHash.fromByteaHex_toByteaHex _
  have hprev : LedgerHash.fromByteaHex (byteaText e.previousEntryHash.bytes) =
      .ok e.previousEntryHash := LedgerHash.fromByteaHex_toByteaHex _
  have hsig : LedgerSignature.fromByteaHex (byteaText e.signature.bytes) = .ok e.signature :=
    LedgerSignature.fromByteaHex_toByteaHex _
  have hversion : LedgerSignatureKeyVersion.ofI32 e.signatureKeyVersion.val =
      .ok e.signatureKeyVersion := LedgerSignatureKeyVersion.ofI32_val _ h
  have hkey : (!((key.map fun k => byteaText k.publicKey).isSome &&
      (key.map (·.keyVersion)).isNone)) = true := by cases key <;> rfl
  simp only [tryFrom, LedgerVerificationMaterialResponse.ofRow, LedgerEntryRow.ofSigned, hid,
    LedgerSequenceNo.fromI64_val, hentry, hprev, hsig, hversion, hkey, Result.ofOption_some,
    Result.require_true, Result.mapError_ok, Result.ok_bind, Option.map_map]
  rfl

private theorem parseOptional_map {α ε : Type} {parse : String → Except ε α}
    {print : α → String} (hprint : ∀ a, parse (print a) = .ok a) (error : LedgerError)
    (x : Option α) : parseOptional parse error (x.map print) = .ok x := by
  cases x with
  | none => rfl
  | some a =>
    rw [Option.map_some, parseOptional, hprint]
    rfl

/-- **Round trip**: the exported row of a stored entry restores to the entry, whatever the order
of the members of its payload. -/
theorem restore_ofSigned (e : SignedLedgerEntry) {members : List (String × Json)}
    (hmembers : members.Perm e.payload.object) (key : Option LedgerSigningPublicKeyRow) :
    (ofSigned e (.object members) key).tryRestoreSignedLedgerEntry = .ok e := by
  have hevent := parseOptional_map AuditEventId.parse_asCanonicalString
    (.invalidUuid "source_event_id") e.sourceEventId
  have hsecret := parseOptional_map SecretId.parse_asCanonicalString
    (.invalidUuid "target_secret_id") e.targetSecretId
  have hversion := parseOptional_map LedgerTargetSecretVersionId.parse_asCanonicalString
    (.invalidUuid "target_secret_version_id") e.targetSecretVersionId
  have huser := parseOptional_map OwnerUserId.parse_asCanonicalString
    (.invalidUuid "actor_user_id") e.actorUserId
  have hdevice := parseOptional_map DeviceId.new_text .invalidActorDeviceId e.actorDeviceId
  have hpayload : LedgerPayload.new e.entryType (.object members) = .ok e.payload := by
    rw [← e.payload_entryType]
    exact e.payload.new_object_of_perm hmembers
  simp only [tryRestoreSignedLedgerEntry, ofSigned, LedgerEntryType.parse_asStr,
    SourceEventAt.parse_text, RequestId.parse_asCanonicalString, LedgerResult.parse_asStr,
    parseOptionalAuditEventId, parseOptionalSecretId, parseOptionalTargetSecretVersionId,
    parseOptionalOwnerUserId, parseOptionalDeviceId, hevent, hsecret, hversion, huser, hdevice,
    hpayload, Result.mapError_ok, Result.ok_bind]
  exact e.fromStoredParts_self

/-- The registry row of a verifying key, in one of the accepted states. -/
structure Registers {P : Primitives} (row : LedgerSigningPublicKeyRow)
    (key : LedgerVerifyingKey P) : Prop where
  keyVersion : row.keyVersion = key.keyVersion.val
  publicKey : row.publicKey = key.publicKey.bytes
  algorithm : row.algorithm = "ed25519"
  status : row.status = "created" ∨ row.status = "active" ∨ row.status = "retired"

/-- The exported row of an entry whose key is registered restores to the key. -/
theorem restoreKey_ofSigned {P : Primitives} {e : SignedLedgerEntry} {key : LedgerVerifyingKey P}
    {row : LedgerSigningPublicKeyRow} (hrow : Registers row key)
    (hversion : key.keyVersion = e.signatureKeyVersion)
    (hmax : e.signatureKeyVersion.val ≤ 2147483647) (payload : Json) :
    (ofSigned e payload (some row)).tryRestoreVerifyingKey P = .ok (some key) := by
  have hstatus : (row.status == "created" || row.status == "active" || row.status == "retired") =
      true := by
    rcases hrow.status with h | h | h <;> simp [h]
  have hdecode : decodeByteaHex (byteaText key.publicKey.bytes) = some key.publicKey.bytes := by
    simp [decodeByteaHex]
  have hkeyVersion : LedgerSignatureKeyVersion.ofI32 row.keyVersion = .ok key.keyVersion := by
    rw [hrow.keyVersion]
    exact LedgerSignatureKeyVersion.ofI32_val _ (hversion ▸ hmax)
  simp only [tryRestoreVerifyingKey, ofSigned, Option.map_some, Result.ofOption_some,
    hrow.algorithm, hrow.publicKey, hstatus, hdecode, hkeyVersion, ← hversion, beq_self_eq_true,
    decide_true, Result.require_true, Result.ok_bind, key.fromPublicKeyBytes_bytes]
  rfl

end LedgerVerificationMaterialRow

/-- The exported row of a stored entry, with the registry row of its key version. -/
def exportedRow (pg : Postgres) (db : LedgerDb) (e : SignedLedgerEntry) :
    LedgerVerificationMaterialRow :=
  .ofSigned e (pg.printJsonb e.payload.asValue) (Sql.registeredKey db e.signatureKeyVersion.val)

theorem restore_exportedRow (pg : Postgres) (db : LedgerDb) (e : SignedLedgerEntry) :
    (exportedRow pg db e).tryRestoreSignedLedgerEntry = .ok e :=
  LedgerVerificationMaterialRow.restore_ofSigned e (pg.jsonbMembers_perm _) _

/-! ### Storage, export and restoring -/

/-- `response` is what the export returns for the stored form of `entry`: the row the parameters
of the append call are cast to, with the members of its payload in some order and the registry
row of some key. -/
def Exported (entry : SignedLedgerEntry) (response : LedgerVerificationMaterialResponse) : Prop :=
  ∃ row object members key,
    (LedgerEntryRpcParams.fromSignedEntry entry).args.bind AppendLedgerEntryArgs.row? = some row ∧
    row.payload = .object object ∧ members.Perm object ∧
    response = .ofRow row (.object members) key

/-- `response` is parsed and restored to `entry`. -/
def Restored (entry : SignedLedgerEntry) (response : LedgerVerificationMaterialResponse) : Prop :=
  ∃ row, LedgerVerificationMaterialRow.tryFrom response = .ok row ∧
    row.tryRestoreSignedLedgerEntry = .ok entry

theorem Restored.unique {a b : SignedLedgerEntry} {response : LedgerVerificationMaterialResponse}
    (ha : Restored a response) (hb : Restored b response) : a = b := by
  obtain ⟨row, hrow, ha⟩ := ha
  obtain ⟨row', hrow', hb⟩ := hb
  cases hrow.symm.trans hrow'
  exact Except.ok.inj (ha.symm.trans hb)

/-- The response for the row of an entry restores to the entry. -/
theorem restored_ofSigned {entry : SignedLedgerEntry}
    (hversion : entry.signatureKeyVersion.val ≤ 2147483647) {members : List (String × Json)}
    (hmembers : members.Perm entry.payload.object) (key : Option LedgerSigningPublicKeyRow) :
    Restored entry (.ofRow (.ofSigned entry) (.object members) key) :=
  ⟨_, LedgerVerificationMaterialRow.tryFrom_ofRow hversion _ key,
    LedgerVerificationMaterialRow.restore_ofSigned entry hmembers key⟩

/-- Every response for `row`, whatever the order of the members of its payload, restores to
`entry`. -/
def RestoresTo (row : LedgerEntryRow) (entry : SignedLedgerEntry) : Prop :=
  ∃ object, row.payload = .object object ∧ ∀ members, members.Perm object →
    ∀ key, Restored entry (.ofRow row (.object members) key)

theorem restoresTo_ofSigned {entry : SignedLedgerEntry}
    (hversion : entry.signatureKeyVersion.val ≤ 2147483647) :
    RestoresTo (.ofSigned entry) entry :=
  ⟨_, rfl, fun _ hmembers key => restored_ofSigned hversion hmembers key⟩

theorem Exported.restored {entry : SignedLedgerEntry}
    {response : LedgerVerificationMaterialResponse} (h : Exported entry response)
    (hversion : entry.signatureKeyVersion.val ≤ 2147483647) : Restored entry response := by
  obtain ⟨row, object, members, key, hrow, hobject, hperm, rfl⟩ := h
  rw [LedgerEntryRpcParams.args_fromSignedEntry hversion, Option.some.injEq] at hrow
  subst hrow
  cases hobject
  exact restored_ofSigned hversion hperm key

end Mipsorcu
