import Mipsorcu.Database.WriteSecretVersion
import Mipsorcu.Server.LedgerAppender
import Mipsorcu.Server.LedgerJsonb
import Mipsorcu.Server.ReadModel

/-!
# Sending a version to the database

A request is parsed, with the server's clock as the creation time, and prepared
(`RequestPrepared`). `buildRpcParams` turns a prepared version into the parameters of
`rpc_write_secret_version`. With them go the signed ledger entries of the write and of the versions
it will purge, which the server predicts from a snapshot of the retained versions
(`buildPurgeLedgerDrafts`). The database casts the parameters to its types
(`WriteSecretVersionParams.args`); `PreparedSecretVersion.write` is the call that comes out.
-/

namespace Mipsorcu

/-! ### Requests -/

/-- The body of a create request. -/
structure CreateSecretRequest where
  classification : String
  deviceId : String
  plaintextHex : String

/-- The body of a rotate request. -/
structure RotateSecretRequest where
  deviceId : String
  plaintextHex : String

/-- A request whose fields are parsed. -/
structure ParsedCreateSecretRequest where
  classification : Classification
  deviceId : DeviceId
  plaintext : Plaintext
  createdAt : CreatedAt
  deriving DecidableEq

/-- The same for a rotation. -/
structure ParsedRotateSecretRequest where
  deviceId : DeviceId
  plaintext : Plaintext
  createdAt : CreatedAt

/-- All errors of a body are the same to the client. -/
def parseClassification (value : String) : Except ApiError Classification :=
  (Classification.new value).mapError fun _ => .badRequest

/-- The same for the device. -/
def parseDeviceId (value : String) : Except ApiError DeviceId :=
  (DeviceId.new value).mapError fun _ => .badRequest

/-- `parse_hex_plaintext`: digits in lower case only, two for each byte. -/
def parseHexPlaintext (value : String) : Except ApiError Plaintext := do
  Result.require (value.toList.length % 2 == 0 && value.toList.all fun c =>
    ('0' ≤ c && c ≤ '9') || ('a' ≤ c && c ≤ 'f')) .badRequest
  let bytes ← Result.ofOption .badRequest (hexDecode value.toList)
  pure ⟨bytes⟩

/-- `current_created_at`: the instant the clock shows, printed and parsed. -/
def currentCreatedAt (now : DateTime) : Except ApiError CreatedAt :=
  (CreatedAt.parse now.toRfc3339).mapError fun _ => .internalError

/-- `parse_create_secret_request`. -/
def parseCreateSecretRequest (now : DateTime) (body : CreateSecretRequest) :
    Except ApiError ParsedCreateSecretRequest := do
  let classification ← parseClassification body.classification
  let deviceId ← parseDeviceId body.deviceId
  let plaintext ← parseHexPlaintext body.plaintextHex
  let createdAt ← currentCreatedAt now
  pure { classification, deviceId, plaintext, createdAt }

/-- `parse_rotate_secret_request`. -/
def parseRotateSecretRequest (now : DateTime) (body : RotateSecretRequest) :
    Except ApiError ParsedRotateSecretRequest := do
  let deviceId ← parseDeviceId body.deviceId
  let plaintext ← parseHexPlaintext body.plaintextHex
  let createdAt ← currentCreatedAt now
  pure { deviceId, plaintext, createdAt }

/-- The clock's instant is the creation time, to the nanosecond. -/
@[simp]
theorem currentCreatedAt_eq (now : DateTime) : currentCreatedAt now = .ok ⟨now⟩ := by
  have hparse : CreatedAt.parse now.toRfc3339 = .ok ⟨now⟩ := CreatedAt.parse_asRfc3339Utc ⟨now⟩
  simp [currentCreatedAt, hparse, Except.mapError]

/-- A request that the server accepted at `now` and prepared: a create request of a user, or a
rotate request for a version the server has read. -/
inductive RequestPrepared (cipher : XChaCha20Poly1305) (ring : MasterKeyRing) (now : DateTime)
    (plaintext : Plaintext) (prepared : PreparedSecretVersion) : Prop
  | create (body : CreateSecretRequest) (parsed : ParsedCreateSecretRequest)
      (ownerUserId : OwnerUserId) (random : WriteRandomness)
      (hparse : parseCreateSecretRequest now body = .ok parsed)
      (hplaintext : parsed.plaintext = plaintext)
      (hprepare : prepareNewSecretVersionWithKeyring cipher random ring {
        ownerUserId, classification := parsed.classification,
        createdByDeviceId := parsed.deviceId, createdAt := parsed.createdAt,
        plaintext := parsed.plaintext } = .ok prepared)
  | rotate (body : RotateSecretRequest) (parsed : ParsedRotateSecretRequest)
      (current : CurrentSecretVersionState) (random : WriteRandomness)
      (hparse : parseRotateSecretRequest now body = .ok parsed)
      (hplaintext : parsed.plaintext = plaintext)
      (hprepare : prepareExistingSecretVersionWithKeyring cipher random ring {
        current, createdByDeviceId := parsed.deviceId, createdAt := parsed.createdAt,
        plaintext := parsed.plaintext } = .ok prepared)

/-- What a prepared request says of the version: its creation time is the clock's instant, its
context is the one of its columns, and it opens to the plaintext. -/
theorem RequestPrepared.spec {cipher : XChaCha20Poly1305} {ring : MasterKeyRing} {now : DateTime}
    {plaintext : Plaintext} {prepared : PreparedSecretVersion}
    (h : RequestPrepared cipher ring now plaintext prepared) :
    prepared.createdAt = ⟨now⟩ ∧ prepared.aadContext = prepared.aad.toStoredContext ∧
      prepared.sealed.OpensTo cipher ring plaintext := by
  cases h with
  | create body parsed ownerUserId random hparse hplaintext hprepare =>
    simp only [parseCreateSecretRequest, currentCreatedAt_eq, Result.bind_eq_ok,
      Result.pure_eq_ok] at hparse
    obtain ⟨_, -, _, -, _, -, _, ⟨⟩, rfl⟩ := hparse
    obtain ⟨_, _, _, -, -, hfrom⟩ := prepareNewSecretVersionWithKeyring_eq_ok hprepare
    exact ⟨hfrom.createdAt_eq, hfrom.aadContext_eq, hplaintext ▸ opensTo_of_prepareNew hprepare⟩
  | rotate body parsed current random hparse hplaintext hprepare =>
    simp only [parseRotateSecretRequest, currentCreatedAt_eq, Result.bind_eq_ok,
      Result.pure_eq_ok] at hparse
    obtain ⟨_, -, _, -, _, ⟨⟩, rfl⟩ := hparse
    obtain ⟨_, _, _, -, -, hfrom⟩ := prepareExistingSecretVersionWithKeyring_eq_ok hprepare
    exact ⟨hfrom.createdAt_eq, hfrom.aadContext_eq,
      hplaintext ▸ opensTo_of_prepareExisting hprepare⟩

/-! ### The retention snapshot -/

/-- What the server knows of a retained version (`SecretVersionRetentionSnapshot`). -/
structure SecretVersionRetentionSnapshot where
  secretVersionId : SecretVersionId
  version : SecretVersion
  keyVersion : KeyVersion
  deriving DecidableEq

/-- A listed row, parsed. -/
def SecretVersionRetentionSnapshot.tryFrom (row : SecretVersionRow) :
    Except SupabaseRpcError SecretVersionRetentionSnapshot := do
  let secretVersionId ← (SecretVersionId.parse row.id.hyphenated).mapError
    fun _ => .invalidResponse "retention snapshot returned invalid secret version id"
  let version ← Result.ofOption (.invalidResponse "retention snapshot returned invalid version")
    (secretVersionOfI32 row.version)
  let keyVersion ← Result.ofOption
    (.invalidResponse "retention snapshot returned invalid key version")
    (keyVersionOfI32 row.keyVersion)
  pure { secretVersionId, version, keyVersion }

/-- `fetch_secret_version_retention_snapshot`: the retained versions, highest first. -/
def fetchSecretVersionRetentionSnapshot (db : SecretDb) (secretId : SecretId) :
    Except SupabaseRpcError (List SecretVersionRetentionSnapshot) :=
  Result.traverse SecretVersionRetentionSnapshot.tryFrom
    ((db.versionsOf secretId.uuid).insertionSort fun a b => b.version ≤ a.version)

/-! ### Ledger drafts -/

/-- How many versions of a secret are kept. -/
def secretVersionRetentionLimit : ℕ := 4

/-- What the clock and the random source answer while a draft is built. -/
structure DraftOrigin where
  sourceEventAt : Except LedgerError SourceEventAt
  ledgerEntryId : Except LedgerError LedgerEntryId
  sourceEventId : Except LedgerError AuditEventId

/-- The parts that the drafts of a write and of its purges share. -/
def versionDraft (origin : DraftOrigin) (requestId : RequestId) (prepared : PreparedSecretVersion)
    (entryType : LedgerEntryType) (secretVersionId : SecretVersionId) (payload : Json) :
    Except LedgerError LedgerAppendDraft := do
  let payload ← LedgerPayload.new entryType payload
  let targetSecretVersionId ← LedgerTargetSecretVersionId.parse secretVersionId.asCanonicalString
  let ledgerEntryId ← origin.ledgerEntryId
  let sourceEventAt ← origin.sourceEventAt
  let sourceEventId ← origin.sourceEventId
  LedgerAppendDraft.new {
    ledgerEntryId, entryType, sourceEventAt, requestId, sourceEventId := some sourceEventId,
    targetSecretId := some prepared.secretId,
    targetSecretVersionId := some targetSecretVersionId,
    actorUserId := some prepared.ownerUserId, actorDeviceId := some prepared.createdByDeviceId,
    result := .success, errorCode := none, payload }

/-- The entry of a write. -/
def SecretWriteAction.entryType : SecretWriteAction → LedgerEntryType
  | .encryptCreate => .secretCreated
  | .encryptRotate => .secretVersionCreated

/-- The draft of the version that is written. -/
def buildWriteLedgerDraft (origin : DraftOrigin) (requestId : RequestId)
    (prepared : PreparedSecretVersion) : Except LedgerError LedgerAppendDraft :=
  versionDraft origin requestId prepared prepared.writeAction.entryType prepared.secretVersionId
    (.object [("algorithm", .string algorithmXChaCha20Poly1305),
      ("classification", .string prepared.classification.text),
      ("key_version", .nat prepared.keyVersion.get), ("version", .nat prepared.version.get)])

/-- The draft of a version that is deleted by the write. -/
def buildPurgeLedgerDraft (origin : DraftOrigin) (requestId : RequestId)
    (prepared : PreparedSecretVersion) (purged : SecretVersionRetentionSnapshot) :
    Except LedgerError LedgerAppendDraft :=
  versionDraft origin requestId prepared .secretVersionPurged purged.secretVersionId
    (.object [("key_version", .nat purged.keyVersion.get),
      ("retention_limit", .nat secretVersionRetentionLimit),
      ("version", .nat purged.version.get)])

/-- The versions the server expects to be purged: with the new version, all but the four highest,
lowest first. -/
def expectedPurges (prepared : PreparedSecretVersion)
    (snapshot : List SecretVersionRetentionSnapshot) : List SecretVersionRetentionSnapshot :=
  let versions := snapshot ++ [{
    secretVersionId := prepared.secretVersionId, version := prepared.version,
    keyVersion := prepared.keyVersion }]
  (((versions.insertionSort fun a b => b.version.get ≤ a.version.get).drop
    secretVersionRetentionLimit).insertionSort fun a b => a.version.get ≤ b.version.get)

/-- Builds one draft after the other; the position of a draft tells their origins apart. -/
def buildPurgeDrafts (origin : ℕ → DraftOrigin) (requestId : RequestId)
    (prepared : PreparedSecretVersion) :
    List SecretVersionRetentionSnapshot → ℕ → Except LedgerError (List LedgerAppendDraft)
  | [], _ => .ok []
  | purged :: rest, position => do
    let draft ← buildPurgeLedgerDraft (origin position) requestId prepared purged
    let drafts ← buildPurgeDrafts origin requestId prepared rest (position + 1)
    pure (draft :: drafts)

/-- One draft for each version beyond the limit. -/
def buildPurgeLedgerDrafts (origin : ℕ → DraftOrigin) (requestId : RequestId)
    (prepared : PreparedSecretVersion) (snapshot : List SecretVersionRetentionSnapshot) :
    Except LedgerError (List LedgerAppendDraft) :=
  if prepared.writeAction ≠ .encryptRotate then .ok []
  else buildPurgeDrafts origin requestId prepared (expectedPurges prepared snapshot) 1

/-! ### The parameters -/

/-- The parameters of the write call (`WriteSecretVersionParams`). -/
structure WriteSecretVersionParams where
  requestId : String
  action : String
  secretId : String
  secretVersionId : String
  ownerUserId : String
  classification : String
  createdByDeviceId : String
  createdAt : String
  version : ℕ
  ciphertext : String
  encryptedDataKey : String
  keyVersion : ℕ
  algorithm : String
  nonceOrIv : String
  aadContext : Json
  ledgerEntries : List LedgerEntryRpcParams

/-- The parameters for a prepared version and its signed entries. -/
def WriteSecretVersionParams.ofPrepared (requestId : RequestId) (prepared : PreparedSecretVersion)
    (entries : List SignedLedgerEntry) : WriteSecretVersionParams where
  requestId := requestId.asCanonicalString
  action := prepared.writeAction.asStr
  secretId := prepared.secretId.asCanonicalString
  secretVersionId := prepared.secretVersionId.asCanonicalString
  ownerUserId := prepared.ownerUserId.asCanonicalString
  classification := prepared.classification.text
  createdByDeviceId := prepared.createdByDeviceId.text
  createdAt := prepared.createdAt.asRfc3339Utc
  version := prepared.version.get
  ciphertext := byteaText prepared.ciphertext.bytes
  encryptedDataKey := byteaText prepared.encryptedDataKey.bytes
  keyVersion := prepared.keyVersion.get
  algorithm := algorithmXChaCha20Poly1305
  nonceOrIv := byteaText prepared.nonceOrIv.bytes.bytes
  aadContext := prepared.aadContext
  ledgerEntries := entries.map .fromSignedEntry

/-- `build_rpc_params`, with the answer to the request for the chain head. -/
def buildRpcParams (P : Primitives) (appender : LedgerAppender) (origin : ℕ → DraftOrigin)
    (head : Except SupabaseRpcError LedgerChainHead) (requestId : RequestId)
    (prepared : PreparedSecretVersion)
    (snapshot : Option (List SecretVersionRetentionSnapshot)) :
    Except ApiError WriteSecretVersionParams := do
  let writeDraft ← (buildWriteLedgerDraft (origin 0) requestId prepared).mapError
    fun _ => .internalError
  let purgeDrafts ← (buildPurgeLedgerDrafts origin requestId prepared (snapshot.getD [])).mapError
    fun _ => .internalError
  let head ← head.mapError fun _ => .ledgerAppendFailed
  let entries ← (appender.signEntriesFromHead P (writeDraft :: purgeDrafts) head).mapError
    fun _ => .ledgerAppendFailed
  pure (.ofPrepared requestId prepared entries)

/-! ### The call -/

/-- The casts of the parameters to the argument types; a value outside its type fails the call
before the procedure starts. -/
def WriteSecretVersionParams.args (p : WriteSecretVersionParams) :
    Option Sql.WriteSecretVersionArgs := do
  let requestId ← Uuid.parse p.requestId
  let secretId ← Uuid.parse p.secretId
  let secretVersionId ← Uuid.parse p.secretVersionId
  let ownerUserId ← Uuid.parse p.ownerUserId
  let createdAt ← Sql.timestamptz p.createdAt
  let version ← LedgerEntryRpcParams.castInteger 2147483647 p.version
  let ciphertext ← LedgerEntryRpcParams.castBytea p.ciphertext
  let encryptedDataKey ← LedgerEntryRpcParams.castBytea p.encryptedDataKey
  let keyVersion ← LedgerEntryRpcParams.castInteger 2147483647 p.keyVersion
  let nonceOrIv ← LedgerEntryRpcParams.castBytea p.nonceOrIv
  pure { requestId := some requestId, action := some p.action, secretId := some secretId,
         ownerUserId := some ownerUserId, classification := some p.classification,
         createdByDeviceId := some p.createdByDeviceId, createdAt := some createdAt,
         version := some version, ciphertext := some ciphertext,
         encryptedDataKey := some encryptedDataKey, keyVersion := some keyVersion,
         algorithm := some p.algorithm, nonceOrIv := some nonceOrIv,
         aadContext := some p.aadContext, secretVersionId := some secretVersionId,
         ledgerEntries := some (.array (p.ledgerEntries.map LedgerEntryRpcParams.toJson)) }

/-- The call for a prepared version and its signed entries, with the creation time as the column
holds it. -/
def PreparedSecretVersion.write (prepared : PreparedSecretVersion) (requestId : RequestId)
    (createdAt : ℕ) (entries : List SignedLedgerEntry) : Sql.SecretWrite where
  requestId := requestId.uuid
  action := prepared.writeAction.asStr
  secretId := prepared.secretId.uuid
  ownerUserId := prepared.ownerUserId.uuid
  classification := prepared.classification.text
  createdByDeviceId := prepared.createdByDeviceId.text
  createdAt := createdAt
  version := prepared.version.get
  ciphertext := prepared.ciphertext.bytes
  encryptedDataKey := prepared.encryptedDataKey.bytes
  keyVersion := prepared.keyVersion.get
  algorithm := algorithmXChaCha20Poly1305
  nonceOrIv := prepared.nonceOrIv.bytes.bytes
  aadContext := prepared.aadContext
  secretVersionId := prepared.secretVersionId.uuid
  ledgerEntries := some (.array (entries.map fun e =>
    (LedgerEntryRpcParams.fromSignedEntry e).toJson))

/-- The casts give the call, and a call that gets through has numbers that fit their columns. -/
theorem WriteSecretVersionParams.args_ofPrepared {requestId : RequestId}
    {prepared : PreparedSecretVersion} {entries : List SignedLedgerEntry}
    {call : Sql.WriteSecretVersionArgs}
    (h : (ofPrepared requestId prepared entries).args = some call) :
    prepared.version.get ≤ 2147483647 ∧ prepared.keyVersion.get ≤ 2147483647 ∧
      ∃ createdAt, Sql.timestamptz prepared.createdAt.asRfc3339Utc = some createdAt ∧
        call.write? = some (prepared.write requestId createdAt entries) := by
  simp only [args, ofPrepared, RequestId.asCanonicalString, SecretId.asCanonicalString,
    SecretVersionId.asCanonicalString, OwnerUserId.asCanonicalString, Uuid.parse_hyphenated,
    LedgerEntryRpcParams.castBytea_byteaText, LedgerEntryRpcParams.castInteger_eq_some,
    Option.bind_eq_bind, Option.bind_some, Option.bind_eq_some_iff, Option.pure_def,
    Option.some.injEq] at h
  obtain ⟨createdAt, hcreatedAt, _, ⟨hversion, rfl⟩, _, ⟨hkeyVersion, rfl⟩, rfl⟩ := h
  refine ⟨hversion, hkeyVersion, createdAt, hcreatedAt, ?_⟩
  simp [Sql.WriteSecretVersionArgs.write?, PreparedSecretVersion.write, List.map_map,
    Function.comp_def]

/-- Numbers that fit and a time of the column's type get through. -/
theorem WriteSecretVersionParams.exists_args {requestId : RequestId}
    {prepared : PreparedSecretVersion} {entries : List SignedLedgerEntry} {createdAt : ℕ}
    (hversion : prepared.version.get ≤ 2147483647)
    (hkeyVersion : prepared.keyVersion.get ≤ 2147483647)
    (hcreatedAt : Sql.timestamptz prepared.createdAt.asRfc3339Utc = some createdAt) :
    ∃ call, (ofPrepared requestId prepared entries).args = some call ∧
      call.write? = some (prepared.write requestId createdAt entries) := by
  have hcall : (ofPrepared requestId prepared entries).args.isSome = true := by
    simp [args, ofPrepared, RequestId.asCanonicalString, SecretId.asCanonicalString,
      SecretVersionId.asCanonicalString, OwnerUserId.asCanonicalString, Uuid.parse_hyphenated,
      LedgerEntryRpcParams.castBytea_byteaText, LedgerEntryRpcParams.castInteger, hversion,
      hkeyVersion, hcreatedAt]
  obtain ⟨call, hcall⟩ := Option.isSome_iff_exists.mp hcall
  obtain ⟨-, -, micros, hmicros, hwrite⟩ := args_ofPrepared hcall
  obtain rfl : createdAt = micros := Option.some.inj (hcreatedAt.symm.trans hmicros)
  exact ⟨call, hcall, hwrite⟩

/-! ### The entries of a call -/

/-- The event of a signed entry's version has the time of the entry. -/
theorem Sql.versionMetadata_toJson (version : ℤ) (id : Uuid) (e : SignedLedgerEntry) :
    versionMetadata version id (some (LedgerEntryRpcParams.fromSignedEntry e).toJson) =
      .object [("version", jsonInt version), ("secret_version_id", .string id.hyphenated),
        ("source_event_at", .string e.sourceEventAt.text)] :=
  rfl

theorem Sql.memberText_sourceEventId (e : SignedLedgerEntry) :
    memberText (LedgerEntryRpcParams.fromSignedEntry e).toJson "p_source_event_id" =
      e.sourceEventId.map AuditEventId.asCanonicalString := by
  simp only [LedgerEntryRpcParams.toJson, memberText_object, List.lookup_cons, String.reduceBEq,
    Option.bind_some, textOf_jsonOfOption]
  rfl

/-- The event has the identifier that the entry names. -/
theorem Sql.eventId_toJson (pg : PostgresSession) (random : Uuid) {e : SignedLedgerEntry}
    {id : AuditEventId} (h : e.sourceEventId = some id) :
    eventId pg random (some (LedgerEntryRpcParams.fromSignedEntry e).toJson) = .ok id.uuid := by
  simp only [eventId, Option.bind_some, memberText_sourceEventId, h, Option.map_some,
    AuditEventId.asCanonicalString, castNullable_hyphenated, Result.ok_bind]
  rfl

/-! ### Concrete values -/

/-- An instant on 2 January 2026. -/
def sampleInstant (nanosecond : ℕ) (h : nanosecond < 1000000000) : DateTime where
  year := 2026
  month := 1
  day := 2
  hour := 3
  minute := 4
  second := 5
  nanosecond := nanosecond
  year_lt := by decide
  date := by decide
  hour_lt := by decide
  minute_lt := by decide
  second_lt := by decide
  nanosecond_lt := h

/-- An instant of whole microseconds. -/
def sampleMicros : DateTime :=
  sampleInstant 123456000 (by decide)

/-- An instant that is not one of whole microseconds. -/
def sampleNanos : DateTime :=
  sampleInstant 123456789 (by decide)

/-- The owner. -/
def sampleOwner : OwnerUserId :=
  ⟨sampleUuid 7⟩

theorem version_sampleUuid (id : UInt8) : (sampleUuid id).version = 4 := by
  show (0x40 : UInt8).toNat / 16 = 4
  decide

/-- The secret. -/
def sampleSecretId : SecretId :=
  ⟨sampleUuid 1, version_sampleUuid 1⟩

/-- The key version with the given number. -/
def sampleKeyVersion (n : ℕ) (hpos : 0 < n) (hlt : n < 4294967296) : KeyVersion :=
  ⟨⟨n, hpos, hlt⟩⟩

theorem one_lt_u32 : 1 < 4294967296 := by decide

theorem two_lt_u32 : 2 < 4294967296 := by decide

/-- A master key for each byte. -/
def sampleMasterKey (byte : UInt8) : MasterKey :=
  ⟨⟨List.replicate 32 byte, by simp⟩⟩

/-- Two master keys, the first of them active. -/
def sampleRing : MasterKeyRing where
  activeKeyVersion := sampleKeyVersion 1 Nat.one_pos one_lt_u32
  keys := [(sampleKeyVersion 1 Nat.one_pos one_lt_u32, sampleMasterKey 1),
    (sampleKeyVersion 2 Nat.two_pos two_lt_u32, sampleMasterKey 2)]
  active_mem := by decide

/-- The request body. -/
def sampleCreateRequest : CreateSecretRequest where
  classification := "confidential"
  deviceId := "device"
  plaintextHex := "6869"

/-- The classification. -/
def sampleClassification : Classification :=
  ⟨"confidential", by decide +kernel⟩

/-- The device. -/
def sampleDevice : DeviceId :=
  ⟨"device", by decide +kernel⟩

/-- The text that is sealed. -/
def samplePlaintext : Plaintext :=
  ⟨[0x68, 0x69]⟩

/-- The request, parsed at an instant. -/
def sampleParsed (now : DateTime) : ParsedCreateSecretRequest where
  classification := sampleClassification
  deviceId := sampleDevice
  plaintext := samplePlaintext
  createdAt := ⟨now⟩

/-- The authenticated data of the first version. -/
def sampleAad (now : DateTime) : AadV1 where
  secretId := sampleSecretId
  version := .first
  ownerUserId := sampleOwner
  classification := sampleClassification
  createdAt := ⟨now⟩

/-- Bytes that are all the same, as a random source may return them. -/
def sampleBytes (n : ℕ) (byte : UInt8) : FixedBytes n :=
  ⟨List.replicate n byte, by simp⟩

/-- The data key under the first master key, as XChaCha20-Poly1305 wraps it. -/
def sampleWrapping : Aead.Sealing (FixedBytes 32) (FixedBytes 24) where
  key := (sampleMasterKey 1).bytes
  nonce := sampleBytes 24 4
  associated := KeyWrapContext.canonicalBytes
    ⟨sampleSecretId, sampleKeyVersion 1 Nat.one_pos one_lt_u32⟩
  message := List.replicate 32 3
  cipher := (FixedBytes.ofHalves 48
    0x3c16a164ab85682bebe3baf33b7ca12289d171761234606d
    0xb219b6c4d973bb8020445c3b33c8386587d4097820f2298e).bytes

/-- The data key under the second master key. -/
def sampleRewrapping : Aead.Sealing (FixedBytes 32) (FixedBytes 24) where
  key := (sampleMasterKey 2).bytes
  nonce := sampleBytes 24 6
  associated := KeyWrapContext.canonicalBytes
    ⟨sampleSecretId, sampleKeyVersion 2 Nat.two_pos two_lt_u32⟩
  message := List.replicate 32 3
  cipher := (FixedBytes.ofHalves 48
    0xc6db96f8babd6f286afe8413664f3fc2fc573560aebf2030
    0x2a442eebb70e564809621d2fd4f50bbd7bda82ca51c8d9b4).bytes

/-- The plaintext under the data key, at an instant. -/
def sampleEncryption (now : DateTime) (nonce : UInt8) (ciphertext : FixedBytes 18) :
    Aead.Sealing (FixedBytes 32) (FixedBytes 24) where
  key := sampleBytes 32 3
  nonce := sampleBytes 24 nonce
  associated := (sampleAad now).canonicalBytes
  message := samplePlaintext.bytes
  cipher := ciphertext.bytes

/-- It sealed at an instant of whole microseconds. -/
def sampleMicrosCiphertext : FixedBytes 18 :=
  .ofNat _ 0x44af59fb9acbe6386c025dd784a30e143cfe

/-- It sealed at another instant. -/
def sampleNanosCiphertext : FixedBytes 18 :=
  .ofNat _ 0x3a3805fa7dc68aa9a1d262d914a478cbb2c2

/-- The sealings of the samples. -/
def sampleSealings : List (Aead.Sealing (FixedBytes 32) (FixedBytes 24)) :=
  [sampleWrapping, sampleRewrapping, sampleEncryption sampleMicros 5 sampleMicrosCiphertext,
    sampleEncryption sampleNanos 8 sampleNanosCiphertext]

theorem isTable_sampleSealings : Aead.IsTable 16 sampleSealings := by
  decide +kernel

/-- The cipher on these values. -/
def sampleCipher : XChaCha20Poly1305 :=
  .ofTable sampleSealings isTable_sampleSealings

theorem encrypt_sampleCipher {s : Aead.Sealing (FixedBytes 32) (FixedBytes 24)}
    {key : FixedBytes 32} {nonce : FixedBytes 24} {associated message cipher : List UInt8}
    (hs : s ∈ sampleSealings) (h : s = ⟨key, nonce, associated, message, cipher⟩) :
    sampleCipher.encrypt key nonce associated message = some cipher := by
  subst h
  exact Aead.encrypt_ofTable isTable_sampleSealings (by decide +kernel) hs

/-- The answers of the random source for a first version. -/
def sampleRandom (nonce : UInt8) : WriteRandomness where
  secretId := some ⟨List.replicate 15 0 ++ [1], rfl⟩
  dataKey := some (sampleBytes 32 3)
  wrapNonce := some (sampleBytes 24 4)
  secretVersionId := some ⟨List.replicate 15 0 ++ [2], rfl⟩
  nonce := some (sampleBytes 24 nonce)

/-- The envelope of `sampleWrapping`. -/
def sampleEnvelope : EncryptedDataKey :=
  ⟨1 :: ((sampleBytes 24 4).bytes ++ sampleWrapping.cipher), by decide, by decide⟩

/-- What is prepared for the request at an instant, given its nonce and ciphertext. -/
def samplePrepared (now : DateTime) (nonce : UInt8) (ciphertext : FixedBytes 18) :
    PreparedSecretVersion where
  writeAction := .encryptCreate
  secretId := sampleSecretId
  secretVersionId := ⟨sampleUuid 2, version_sampleUuid 2⟩
  version := .first
  ownerUserId := sampleOwner
  classification := sampleClassification
  createdByDeviceId := sampleDevice
  createdAt := ⟨now⟩
  keyVersion := sampleKeyVersion 1 Nat.one_pos one_lt_u32
  ciphertext := ⟨ciphertext.bytes, List.ne_nil_of_length_pos (by simp [ciphertext.length_bytes])⟩
  encryptedDataKey := sampleEnvelope
  nonceOrIv := ⟨sampleBytes 24 nonce⟩
  aadContext := (sampleAad now).toStoredContext

theorem parse_sampleCreateRequest (now : DateTime) :
    parseCreateSecretRequest now sampleCreateRequest = .ok (sampleParsed now) := by
  have hclassification : parseClassification sampleCreateRequest.classification =
      .ok sampleClassification := by decide +kernel
  have hdeviceId : parseDeviceId sampleCreateRequest.deviceId =
      .ok sampleDevice := by decide +kernel
  have hplaintext : parseHexPlaintext sampleCreateRequest.plaintextHex =
      .ok samplePlaintext := by decide +kernel
  simp only [parseCreateSecretRequest, hclassification, hdeviceId, hplaintext,
    currentCreatedAt_eq, Result.ok_bind]
  rfl

/-- The input of the preparation at an instant. -/
def sampleInput (now : DateTime) : NewSecretVersionInput where
  ownerUserId := sampleOwner
  classification := sampleClassification
  createdByDeviceId := sampleDevice
  createdAt := ⟨now⟩
  plaintext := samplePlaintext

theorem prepare_sampleInput {now : DateTime} {nonce : UInt8} {ciphertext : FixedBytes 18}
    (h : sampleEncryption now nonce ciphertext ∈ sampleSealings) :
    prepareNewSecretVersionWithKeyring sampleCipher (sampleRandom nonce) sampleRing
      (sampleInput now) = .ok (samplePrepared now nonce ciphertext) := by
  have hactive : sampleRing.active =
      (sampleKeyVersion 1 Nat.one_pos one_lt_u32, sampleMasterKey 1) := rfl
  have hsecretId : SecretId.generate (sampleRandom nonce).secretId = .ok sampleSecretId := rfl
  have hdataKey : DataKey.generate (sampleRandom nonce).dataKey = .ok ⟨sampleBytes 32 3⟩ := rfl
  have hversionId : SecretVersionId.generate (sampleRandom nonce).secretVersionId =
      .ok (samplePrepared now nonce ciphertext).secretVersionId := rfl
  have hwrap : wrapDataKey sampleCipher (sampleRandom nonce).wrapNonce (sampleMasterKey 1)
      ⟨sampleSecretId, sampleKeyVersion 1 Nat.one_pos one_lt_u32⟩ ⟨sampleBytes 32 3⟩ =
      .ok sampleEnvelope :=
    wrapDataKey_eq_ok.mpr ⟨_, _, rfl, encrypt_sampleCipher List.mem_cons_self rfl, rfl⟩
  have hencrypt : encryptSecret sampleCipher (sampleRandom nonce).nonce ⟨sampleBytes 32 3⟩
      (samplePrepared now nonce ciphertext).aad samplePlaintext = .ok {
        ciphertext := (samplePrepared now nonce ciphertext).ciphertext
        nonce := ⟨sampleBytes 24 nonce⟩, aadContext := (sampleAad now).toStoredContext } :=
    encryptSecret_eq_ok.mpr ⟨rfl, encrypt_sampleCipher h rfl, rfl⟩
  simp only [prepareNewSecretVersionWithKeyring, prepareSecretVersionWithDataKey, hactive,
    hsecretId, hdataKey, hwrap, hversionId, Result.bind_eq_ok, Result.mapError_eq_ok,
    Result.mapError_ok, Result.ok_bind]
  exact ⟨_, hencrypt, rfl⟩

theorem requestPrepared_sample {now : DateTime} {nonce : UInt8} {ciphertext : FixedBytes 18}
    (h : sampleEncryption now nonce ciphertext ∈ sampleSealings) :
    RequestPrepared sampleCipher sampleRing now samplePlaintext
      (samplePrepared now nonce ciphertext) :=
  .create sampleCreateRequest (sampleParsed now) sampleOwner (sampleRandom nonce)
    (parse_sampleCreateRequest now) rfl (prepare_sampleInput h)

/-- The payload of the ledger entry of the write. -/
def sampleWritePayload : LedgerPayload where
  entryType := .secretCreated
  object := [("algorithm", .string algorithmXChaCha20Poly1305),
    ("classification", .string "confidential"), ("key_version", .nat 1), ("version", .nat 1)]
  sorted := by unfold SortedMap.Sorted; decide +kernel
  valid := by decide +kernel

/-- The ledger entry of the write, as the first one, with the SHA-256 of its canonical form and
its Ed25519 signature under `sampleKey`. -/
def sampleWriteEntry : SignedLedgerEntry where
  ledgerEntryId := sampleEntryId 8
  sequenceNo := (sampleEntry 1).sequenceNo
  entryType := .secretCreated
  sourceEventAt := ⟨"2026-01-02T03:04:06Z", by decide +kernel⟩
  requestId := ⟨sampleUuid 9⟩
  sourceEventId := some ⟨sampleUuid 6⟩
  targetSecretId := some sampleSecretId
  targetSecretVersionId := some ⟨sampleUuid 2⟩
  actorUserId := some sampleOwner
  actorDeviceId := some sampleDevice
  result := .success
  errorCode := none
  payload := sampleWritePayload
  previousEntryHash := LedgerHash.genesis
  signatureKeyVersion := sampleKey.keyVersion
  valid := rfl
  entryHash := .ofNat _ 0x1bf0a75cac88818eb1b1893998f3cd6d51d42fe7d63ec8f9b11517e4a696ff58
  signature := .ofHalves _
    0xb2a3cbf29813d4ecf81395328d122869713efa5f60f63949465e22172ca6b311
    0xcd9fcc00afeabad7abc739e6e29d1c2c4876034b28f49ecabcea340bfb67ba0d

/-- The clock and the random source while the draft of the sample write is built. -/
def sampleOrigin (_ : ℕ) : DraftOrigin where
  sourceEventAt := .ok sampleWriteEntry.sourceEventAt
  ledgerEntryId := .ok sampleWriteEntry.ledgerEntryId
  sourceEventId := .ok ⟨sampleUuid 6⟩

end Mipsorcu
