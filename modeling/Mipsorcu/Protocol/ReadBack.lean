import Mipsorcu.Protocol.SecretStore
import Mipsorcu.Server.WriteSecretVersion

/-!
# Reading a written version back

A version that the server prepared and the database stored is read as its owner and decrypted. The
instant of its creation takes two ways: as a text inside the context, to the nanosecond, and as a
`timestamptz` column, to the microsecond. Decryption compares the two, so the plaintext comes back
exactly if the clock showed whole microseconds (`readsBack_iff_whole_microseconds`); at any other
instant the version is stored and does not decrypt.
-/

namespace Mipsorcu

open Sql

/-! ### The answer to the owner -/

section Answer

variable {pg : PostgresSession} {random : ℕ → Uuid} {db db' : SecretDb} {w : SecretWrite}
  {entry : Option Json} {purged : List SecretVersionRow}

/-- **After a write, its owner reads the version that was written**: the answer has one row, with
the columns of that version. -/
theorem currentVersionRows_of_written (h : Written pg random db w entry purged db')
    (hkeys : db.PrimaryKeys) (user : OwnerUserId) (secretId : SecretId)
    (huser : user.uuid = w.ownerUserId) (hsecretId : secretId.uuid = w.secretId) :
    ∃ secret, secret.ownerUserId = w.ownerUserId ∧ secret.classification = w.classification ∧
      currentVersionRows pg.toPostgres db' user secretId =
        [.ofRows pg.toPostgres w.versionRow secret w.secretVersionId] := by
  have hkeys' := h.primaryKeys hkeys
  obtain ⟨hrow, secret, hsecret, hid, howner, hclassification, hpointer⟩ := h.current
  refine ⟨secret, howner, hclassification, ?_⟩
  have hof : w.versionRow ∈ db'.versionsOf secretId.uuid :=
    List.mem_filter.mpr ⟨hrow, by simp [SecretWrite.versionRow, hsecretId]⟩
  -- a secret the policies show with a version is the one of the write
  have hshown : ∀ v ∈ db'.versionsOf secretId.uuid, ∀ s ∈ db'.secrets, s.id = v.secretId →
      s = secret := by
    intro v hv s hs hsv
    simp only [SecretDb.versionsOf, List.mem_filter, beq_iff_eq] at hv
    exact List.inj_on_of_nodup_map hkeys'.secret_ids_nodup hs hsecret
      (hsv.trans (hv.2.trans (hsecretId.trans hid.symm)))
  rw [currentVersionRows, Keyed.flatMap_eq (hkeys'.versionsOf_nodup _) hof]
  · rw [Keyed.filter_eq hkeys'.secret_ids_nodup hsecret]
    · rfl
    · simp [SecretWrite.versionRow, hid, huser, howner, hpointer]
    · intro s hs hne
      have : s.id ≠ w.versionRow.secretId := fun heq =>
        hne (congrArg SecretRow.id (hshown w.versionRow hof s hs heq))
      simp [this]
  · intro v hv hne
    rw [List.map_eq_nil_iff, List.filter_eq_nil_iff]
    intro s hs hshow
    simp only [Bool.and_eq_true, beq_iff_eq] at hshow
    have hs' := hshown v hv s hs hshow.1.1
    subst hs'
    exact hne (Option.some.inj (hshow.2.symm.trans hpointer))

end Answer

/-! ### Parsing the answer -/

/-- The row that parsing finds for a prepared version: all of it, with the creation time that was
printed. -/
def PreparedSecretVersion.row (prepared : PreparedSecretVersion) (createdAt : CreatedAt) :
    PreparedDecryptRow where
  secretId := prepared.secretId
  secretVersionId := prepared.secretVersionId
  version := prepared.version
  ownerUserId := prepared.ownerUserId
  classification := prepared.classification
  createdAt := createdAt
  keyVersion := prepared.keyVersion
  encryptedDataKey := prepared.encryptedDataKey
  nonceOrIv := prepared.nonceOrIv
  ciphertext := prepared.ciphertext
  aadContext := prepared.aad.toStoredContext

/-- The context of a version comes back from `jsonb` as it was. -/
theorem AadV1.normalize_printJsonb (pg : Postgres) (aad : AadV1) :
    (pg.printJsonb aad.toStoredContext).normalize = aad.toStoredContext :=
  pg.normalize_printJsonb_object (show aadV1Fields.Pairwise (· < ·) by decide +kernel)
    (by simp [members, Json.nat, Json.isContainer])

/-- **What fetching the stored version returns.** -/
theorem fetchCurrentSecretVersion_stored (pg : Postgres) {prepared : PreparedSecretVersion}
    (requestId : RequestId) (micros : ℕ) (entries : List SignedLedgerEntry) {secret : SecretRow}
    {row : PreparedDecryptRow} (hcontext : prepared.aadContext = prepared.aad.toStoredContext)
    (howner : secret.ownerUserId = prepared.ownerUserId.uuid)
    (hclassification : secret.classification = prepared.classification.text) :
    fetchCurrentSecretVersion (.ok [.ofRows pg (prepared.write requestId micros entries).versionRow
        secret prepared.secretVersionId.uuid]) = .ok row ↔
      ∃ createdAt, CreatedAt.parse (printTimestamptz micros) = .ok createdAt ∧
        row = prepared.row createdAt := by
  generalize hr : SecretVersionReadRow.ofRows pg
    (prepared.write requestId micros entries).versionRow secret prepared.secretVersionId.uuid = r
  have hselect : selectSingleCurrentSecretVersionRow [r] = .ok r := by
    subst hr
    simp [selectSingleCurrentSecretVersionRow, SecretVersionReadRow.ofRows,
      SecretWrite.versionRow, PreparedSecretVersion.write]
  have hvalid : validateDecryptRowInvariants r = .ok () := by
    subst hr
    simp [validateDecryptRowInvariants, SecretVersionReadRow.ofRows, SecretWrite.versionRow,
      PreparedSecretVersion.write, howner, hclassification, Result.require]
  -- every column but the time reads back what was written
  have hbuild : buildPreparedDecryptRow r = .ok row ↔ ∃ createdAt,
      CreatedAt.parse (printTimestamptz micros) = .ok createdAt ∧ row = prepared.row createdAt := by
    subst hr
    have hsecretId : SecretId.parse prepared.secretId.uuid.hyphenated = .ok prepared.secretId :=
      SecretId.parse_asCanonicalString _
    have hversionId : SecretVersionId.parse prepared.secretVersionId.uuid.hyphenated =
        .ok prepared.secretVersionId := SecretVersionId.parse_asCanonicalString _
    have hownerId : OwnerUserId.parse prepared.ownerUserId.uuid.hyphenated =
        .ok prepared.ownerUserId := OwnerUserId.parse_asCanonicalString _
    simp only [buildPreparedDecryptRow, SecretVersionReadRow.ofRows, SecretWrite.versionRow,
      PreparedSecretVersion.write, howner, hcontext, AadV1.normalize_printJsonb, parseColumn,
      hsecretId, hversionId, hownerId, decodeBytea_byteaText, secretVersionOfI32_get,
      keyVersionOfI32_get, Classification.new_text, EncryptedDataKey.parse_bytes,
      Nonce.parse_bytes, Ciphertext.new_bytes, Int.toNat_natCast, Result.ofOption_some,
      Result.mapError_ok, Result.ok_bind, Result.bind_eq_ok, Result.mapError_eq_ok,
      Result.pure_eq_ok]
    exact exists_congr fun _ => and_congr_right fun _ => eq_comm
  simp only [fetchCurrentSecretVersion, parseDecryptRow, hselect, hvalid, Result.mapError_ok,
    Result.ok_bind, Result.mapError_eq_ok, hbuild]

/-! ### Reading back -/

/-- The current version of the secret, fetched as the user and decrypted with the ring, is the
plaintext. -/
def ReadsBack (cipher : XChaCha20Poly1305) (ring : MasterKeyRing) (pg : Postgres) (db : SecretDb)
    (user : OwnerUserId) (secretId : SecretId) (plaintext : Plaintext) : Prop :=
  ∃ row, fetchCurrentSecretVersion (.ok (currentVersionRows pg db user secretId)) = .ok row ∧
    decryptCurrentSecretVersionWithKeyring cipher ring (row.intoDecryptInput ⟨user⟩) =
      .ok plaintext

/-- The row with the creation time `createdAt` decrypts exactly if that is the time the version was
encrypted with. -/
theorem decrypt_row_iff {cipher : XChaCha20Poly1305} {ring : MasterKeyRing}
    {prepared : PreparedSecretVersion} {plaintext : Plaintext} {createdAt : CreatedAt}
    (hopens : prepared.sealed.OpensTo cipher ring plaintext) :
    decryptCurrentSecretVersionWithKeyring cipher ring
        ((prepared.row createdAt).intoDecryptInput ⟨prepared.ownerUserId⟩) = .ok plaintext ↔
      createdAt = prepared.createdAt := by
  rw [decryptCurrentSecretVersionWithKeyring_eq_ok]
  constructor
  · rintro ⟨-, -, haad, -⟩
    have hread := AadV1.fromStoredContext_toStoredContext prepared.aad
    exact congrArg AadV1.createdAt (Except.ok.inj (haad.symm.trans hread))
  · rintro rfl
    exact ⟨rfl, rfl, AadV1.fromStoredContext_toStoredContext prepared.aad, hopens⟩

/-- A stored version reads back exactly if the instant it was encrypted with is a whole number of
microseconds. -/
theorem readsBack_of_written {cipher : XChaCha20Poly1305} {ring : MasterKeyRing}
    {pg : PostgresSession} {plaintext : Plaintext} {prepared : PreparedSecretVersion}
    {requestId : RequestId} {micros : ℕ} {entries : List SignedLedgerEntry} {random : ℕ → Uuid}
    {db db' : SecretDb} {entry : Option Json} {purged : List SecretVersionRow}
    (hcontext : prepared.aadContext = prepared.aad.toStoredContext)
    (hopens : prepared.sealed.OpensTo cipher ring plaintext)
    (hmicros : timestamptz prepared.createdAt.asRfc3339Utc = some micros)
    (hkeys : db.PrimaryKeys)
    (hwritten : Written pg random db (prepared.write requestId micros entries) entry purged db') :
    ReadsBack cipher ring pg.toPostgres db' prepared.ownerUserId prepared.secretId plaintext ↔
      prepared.createdAt.instant.nanosecond % 1000 = 0 := by
  obtain ⟨secret, howner, hclassification, hrows⟩ :=
    currentVersionRows_of_written hwritten hkeys prepared.ownerUserId prepared.secretId rfl rfl
  have hfetch row := @fetchCurrentSecretVersion_stored pg.toPostgres prepared requestId micros
    entries secret row hcontext howner hclassification
  unfold ReadsBack
  rw [hrows]
  constructor
  · rintro ⟨row, hrow, hdecrypt⟩
    obtain ⟨createdAt, hparse, rfl⟩ := (hfetch _).mp hrow
    obtain rfl := (decrypt_row_iff hopens).mp hdecrypt
    exact CreatedAt.nanosecond_of_parse_printTimestamptz hparse
  · intro hwhole
    have hparse := CreatedAt.parse_printTimestamptz hmicros hwhole
    exact ⟨_, (hfetch _).mpr ⟨_, hparse, rfl⟩, (decrypt_row_iff hopens).mpr rfl⟩

/-- **Write, then read back.** A version of any accepted request that the database stored is read
back by its owner exactly if the instant of the request is a whole number of microseconds. -/
theorem readsBack_iff_whole_microseconds (cipher : XChaCha20Poly1305) (ring : MasterKeyRing)
    (pg : PostgresSession) (now : DateTime) (plaintext : Plaintext)
    (prepared : PreparedSecretVersion) (requestId : RequestId) (entries : List SignedLedgerEntry)
    (call : WriteSecretVersionArgs) (random : ℕ → Uuid) (db db' : SecretDb)
    (result : WriteSecretVersionRow)
    (hprepared : RequestPrepared cipher ring now plaintext prepared)
    (hcall : (WriteSecretVersionParams.ofPrepared requestId prepared entries).args = some call)
    (hkeys : db.PrimaryKeys)
    (hwrite : rpcWriteSecretVersion pg random db call = .ok (db', result)) :
    ReadsBack cipher ring pg.toPostgres db' prepared.ownerUserId prepared.secretId plaintext ↔
      now.nanosecond % 1000 = 0 := by
  obtain ⟨hcreatedAt, hcontext, hopens⟩ := hprepared.spec
  obtain ⟨-, -, micros, hmicros, hargs⟩ := WriteSecretVersionParams.args_ofPrepared hcall
  simp only [rpcWriteSecretVersion, hargs, Result.ofOption_some, Result.ok_bind] at hwrite
  obtain ⟨entry, purged, hwritten, -⟩ := writeSecretVersion_eq_ok hwrite
  rw [readsBack_of_written hcontext hopens hmicros hkeys hwritten, hcreatedAt]

/-- A signed entry that the ledger accepts is appended. -/
theorem Accepts.appendLedger {pg : PostgresSession} {db : SecretDb} {e : SignedLedgerEntry}
    (h : Accepts pg.toPostgres db.ledger e) (herror : e.errorCode ≠ some "") :
    appendLedger pg db (some (LedgerEntryRpcParams.fromSignedEntry e).toJson) =
      .ok { db with ledger := db.ledger.add e } :=
  appendLedger_eq_ok.mpr ⟨_, ⟨_, (rpcAppendLedgerEntryFromJsonb_toJson herror).mpr
    ⟨h.keyVersion_le, h.rpcAppendLedgerEntry (LedgerEntryRow.row?_args _)⟩⟩, rfl⟩

/-! ### Concrete values -/

/-- A database with the owner as its only user. -/
def sampleEmptyStore : SecretDb :=
  emptyStore [sampleUuid 7] []

theorem primaryKeys_sampleEmptyStore : sampleEmptyStore.PrimaryKeys :=
  (StoreInv.empty [sampleUuid 7] []).toPrimaryKeys

/-- The empty ledger accepts the entry of the write. -/
theorem accepts_sampleWriteEntry :
    Accepts samplePostgres sampleEmptyStore.ledger sampleWriteEntry where
  keyVersion_le := by decide
  values := by decide +kernel
  id_uuidV4 := by decide
  chainState := ⟨.genesis, rfl, rfl, rfl⟩
  id_fresh := by simp [sampleEmptyStore, emptyStore, emptyLedger]
  sequenceNo_fresh := by simp [sampleEmptyStore, emptyStore, emptyLedger]
  entryHash_fresh := by simp [sampleEmptyStore, emptyStore, emptyLedger]

/-- The call that stores a version prepared from the sample request, with the ledger entry `e`. -/
def sampleWrite (now : DateTime) (nonce : UInt8) (ciphertext : FixedBytes 18) (micros : ℕ)
    (e : SignedLedgerEntry) : SecretWrite :=
  (samplePrepared now nonce ciphertext).write ⟨sampleUuid 9⟩ micros [e]

/-- The tables after the call, but for what is recorded of it. -/
def sampleUnrecorded (w : SecretWrite) : SecretDb :=
  { sampleEmptyStore with
    secrets := [{ id := w.secretId, currentVersionId := some w.secretVersionId,
                  ownerUserId := w.ownerUserId, classification := w.classification,
                  createdAt := w.createdAt }]
    secretVersions := [w.versionRow] }

/-- The tables after the call. -/
def sampleStored (w : SecretWrite) (e : SignedLedgerEntry) : SecretDb :=
  { sampleUnrecorded w with
    auditEvents := [versionEvent (sampleUuid 6) w w.action w.versionRow
      (some (LedgerEntryRpcParams.fromSignedEntry e).toJson)]
    ledger := sampleEmptyStore.ledger.add e }

/-- An entry that is accepted, about the event of the sample entry. -/
structure SampleEntry (e : SignedLedgerEntry) : Prop where
  accepts : Accepts samplePostgres sampleEmptyStore.ledger e
  sourceEventId : e.sourceEventId = sampleWriteEntry.sourceEventId
  sourceEventAt : e.sourceEventAt = sampleWriteEntry.sourceEventAt
  errorCode : e.errorCode = none
  entryType : e.entryType = .secretCreated

theorem sampleEntry_sampleWriteEntry : SampleEntry sampleWriteEntry :=
  ⟨accepts_sampleWriteEntry, rfl, rfl, rfl, rfl⟩

section Sample

variable {now : DateTime} {nonce : UInt8} {ciphertext : FixedBytes 18} {micros : ℕ}
  {e : SignedLedgerEntry} {w : SecretWrite}

/-- The event and the entry of the write are stored. -/
theorem recordVersion_sample (he : SampleEntry e)
    (hw : w = sampleWrite now nonce ciphertext micros e) (random : Uuid) :
    recordVersion sampleSession random (sampleUnrecorded w) w w.action w.versionRow
      (some (LedgerEntryRpcParams.fromSignedEntry e).toJson) = .ok (sampleStored w e) := by
  have haction : w.action = "encrypt_create" := by rw [hw]; rfl
  -- the row is rewritten to literals, on which the checks of the table can be decided
  have hmetadata : versionMetadata w.versionRow.version w.versionRow.id
      (some (LedgerEntryRpcParams.fromSignedEntry e).toJson) =
      .object [("version", jsonInt 1), ("secret_version_id", .string (sampleUuid 2).hyphenated),
        ("source_event_at", .string sampleWriteEntry.sourceEventAt.text)] := by
    rw [versionMetadata_toJson, he.sourceEventAt, hw]
    rfl
  have hcheck : checkWriteMetadata sampleSession w.action (versionMetadata w.versionRow.version
      w.versionRow.id (some (LedgerEntryRpcParams.fromSignedEntry e).toJson)) = .ok () := by
    rw [hmetadata, haction]
    decide +kernel
  have hid : eventId sampleSession random
      (some (LedgerEntryRpcParams.fromSignedEntry e).toJson) = .ok (sampleUuid 6) :=
    eventId_toJson sampleSession random he.sourceEventId
  have hevent : versionEvent (sampleUuid 6) w w.action w.versionRow
      (some (LedgerEntryRpcParams.fromSignedEntry e).toJson) = {
      id := sampleUuid 6, requestId := sampleUuid 9, actorUserId := some (sampleUuid 7),
      actorDeviceId := some "device", action := "encrypt_create",
      targetSecretId := some (sampleUuid 1), result := "success", keyVersion := some 1,
      metadataJson := .object [("version", jsonInt 1),
        ("secret_version_id", .string (sampleUuid 2).hyphenated),
        ("source_event_at", .string sampleWriteEntry.sourceEventAt.text)] } := by
    rw [versionEvent, hmetadata, hw]
    rfl
  have hinsert : insertAuditEvent samplePostgres (sampleUnrecorded w)
      (versionEvent (sampleUuid 6) w w.action w.versionRow
        (some (LedgerEntryRpcParams.fromSignedEntry e).toJson)) =
      .ok { sampleUnrecorded w with auditEvents := [versionEvent (sampleUuid 6) w w.action
        w.versionRow (some (LedgerEntryRpcParams.fromSignedEntry e).toJson)] } := by
    refine insertAuditEvent_eq_ok.mpr ⟨?_, List.forall_mem_nil _, ⟨?_, ?_⟩, rfl⟩
    · rw [hevent]
      decide +kernel
    · rintro _ ⟨⟩
      rw [hw]
      exact List.mem_cons_self
    · rintro _ ⟨⟩
      exact ⟨_, List.mem_cons_self, rfl⟩
  simp only [recordVersion, hcheck, hid, Result.ok_bind]
  rw [show sampleSession.toPostgres = samplePostgres from rfl, hinsert, Result.ok_bind]
  exact Accepts.appendLedger he.accepts (by simp [he.errorCode])

/-- The call for the sample request gets through and commits. -/
theorem rpcWrite_sample (he : SampleEntry e)
    (hmicros : timestamptz (CreatedAt.asRfc3339Utc ⟨now⟩) = some micros)
    (hw : sampleWrite now nonce ciphertext micros e = w) (random : ℕ → Uuid)
    (hcheck : checkWriteArguments w = .ok ())
    (hfind : findWriteLedgerEntry sampleSession w =
      .ok (some (LedgerEntryRpcParams.fromSignedEntry e).toJson)) :
    ∃ call result, (WriteSecretVersionParams.ofPrepared ⟨sampleUuid 9⟩
        (samplePrepared now nonce ciphertext) [e]).args = some call ∧
      call.write? = some w ∧ rpcWriteSecretVersion sampleSession random sampleEmptyStore call =
        .ok (sampleStored w e, result) := by
  obtain ⟨call, hcall, hwrite⟩ := @WriteSecretVersionParams.exists_args ⟨sampleUuid 9⟩
    (samplePrepared now nonce ciphertext) [e] micros
    (show (1 : ℕ) ≤ 2147483647 by decide) (show (1 : ℕ) ≤ 2147483647 by decide) hmicros
  obtain ⟨locked, stored, hlock, hinsert, hset⟩ : ∃ locked stored,
      lockSecret sampleEmptyStore w = .ok locked ∧
      insertSecretVersion locked w.versionRow = .ok stored ∧
      setCurrentVersion stored w = sampleUnrecorded w := by
    rw [← hw]
    exact ⟨_, _, rfl, rfl, rfl⟩
  -- one version is below the limit: nothing is purged
  have hpurges : recordPurges sampleSession random w (deletePurged (sampleStored w e) w.secretId)
      (sampleSession.returned (purgedRows (sampleStored w e) w.secretId)) =
      .ok (sampleStored w e) := by
    rw [← hw]
    rfl
  have hpointer : checkCurrentVersionReference (sampleStored w e) w.secretId = true := by
    rw [← hw]
    rfl
  have hcount : checkPurgeCount w
      (sampleSession.returned (purgedRows (sampleStored w e) w.secretId)) = true := by
    have htype : hasEntryType ["secret_version_purged"]
        (LedgerEntryRpcParams.fromSignedEntry e).toJson =
        ["secret_version_purged"].contains e.entryType.asStr := rfl
    rw [he.entryType] at htype
    rw [← hw]
    exact beq_iff_eq.mpr (List.countP_eq_zero.mpr fun item hitem => by
      rw [List.mem_singleton.mp hitem, htype]
      decide)
  obtain ⟨result, hresult⟩ : ∃ result, writeSecretVersion sampleSession random sampleEmptyStore w =
      .ok (sampleStored w e, result) := by
    simp only [writeSecretVersion, hcheck, hlock, hinsert, hset, hfind,
      recordVersion_sample he hw.symm, hpurges, hcount, hpointer, Result.require_true,
      Result.ok_bind]
    exact ⟨_, rfl⟩
  rw [← sampleWrite, hw] at hwrite
  refine ⟨call, result, hcall, hwrite, ?_⟩
  rw [rpcWriteSecretVersion, hwrite, Result.ofOption_some, Result.ok_bind, hresult]

end Sample

/-- The call for the request at a whole number of microseconds. -/
def sampleMicrosWrite : SecretWrite :=
  sampleWrite sampleMicros 5 sampleMicrosCiphertext 76552225445123456 sampleWriteEntry

/-- The call for the request at another instant; the column rounds it up. -/
def sampleNanosWrite : SecretWrite :=
  sampleWrite sampleNanos 8 sampleNanosCiphertext 76552225445123457 sampleWriteEntry

/-- The entry is found; nothing of this depends on the time. -/
theorem findWriteLedgerEntry_sample (now : DateTime) (nonce : UInt8) (ciphertext : FixedBytes 18)
    (micros : ℕ) : findWriteLedgerEntry sampleSession
      (sampleWrite now nonce ciphertext micros sampleWriteEntry) =
      .ok (some (LedgerEntryRpcParams.fromSignedEntry sampleWriteEntry).toJson) := by
  have hclosed : findWriteLedgerEntry sampleSession sampleMicrosWrite =
      .ok (some (LedgerEntryRpcParams.fromSignedEntry sampleWriteEntry).toJson) := by
    decide +kernel
  rw [← hclosed]
  rfl

/-- An instance: a request at a whole number of microseconds reads back. -/
theorem readsBack_sampleMicros :
    ReadsBack sampleCipher sampleRing samplePostgres
      (sampleStored sampleMicrosWrite sampleWriteEntry) sampleOwner sampleSecretId
      samplePlaintext := by
  obtain ⟨call, result, hcall, -, hcommit⟩ := rpcWrite_sample sampleEntry_sampleWriteEntry
    (by decide +kernel) (show _ = sampleMicrosWrite from rfl) (fun _ => sampleUuid 5)
    (by decide +kernel) (findWriteLedgerEntry_sample _ _ _ _)
  exact (readsBack_iff_whole_microseconds sampleCipher sampleRing sampleSession sampleMicros
    samplePlaintext _ _ _ call _ _ _ result (requestPrepared_sample (by simp [sampleSealings]))
    hcall primaryKeys_sampleEmptyStore hcommit).mpr (by decide)

/-- A request at 123456789 nanoseconds past the second is accepted and stored, and does not read
back. -/
theorem not_readsBack_sampleNanos :
    RequestPrepared sampleCipher sampleRing sampleNanos samplePlaintext
      (samplePrepared sampleNanos 8 sampleNanosCiphertext) ∧
    (∃ call result, (WriteSecretVersionParams.ofPrepared ⟨sampleUuid 9⟩
        (samplePrepared sampleNanos 8 sampleNanosCiphertext) [sampleWriteEntry]).args =
          some call ∧
      rpcWriteSecretVersion sampleSession (fun _ => sampleUuid 5) sampleEmptyStore call =
        .ok (sampleStored sampleNanosWrite sampleWriteEntry, result)) ∧
    ¬ReadsBack sampleCipher sampleRing samplePostgres
      (sampleStored sampleNanosWrite sampleWriteEntry) sampleOwner sampleSecretId
      samplePlaintext := by
  have hprepared : RequestPrepared sampleCipher sampleRing sampleNanos samplePlaintext
      (samplePrepared sampleNanos 8 sampleNanosCiphertext) :=
    requestPrepared_sample (by simp [sampleSealings])
  have hmicros : timestamptz (CreatedAt.asRfc3339Utc ⟨sampleNanos⟩) = some 76552225445123457 := by
    decide +kernel
  obtain ⟨call, result, hcall, hwrite, hcommit⟩ := rpcWrite_sample sampleEntry_sampleWriteEntry
    hmicros (show _ = sampleNanosWrite from rfl) (fun _ => sampleUuid 5) (by decide +kernel)
    (findWriteLedgerEntry_sample _ _ _ _)
  refine ⟨hprepared, ⟨call, result, hcall, hcommit⟩, fun hreads => ?_⟩
  rw [rpcWriteSecretVersion, hwrite, Result.ofOption_some, Result.ok_bind] at hcommit
  obtain ⟨entry, purged, hwritten, -⟩ := writeSecretVersion_eq_ok hcommit
  obtain ⟨-, hcontext, hopens⟩ := hprepared.spec
  have hwhole := (readsBack_of_written hcontext hopens hmicros primaryKeys_sampleEmptyStore
    hwritten).mp hreads
  revert hwhole
  decide

end Mipsorcu
