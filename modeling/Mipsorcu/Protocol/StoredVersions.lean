import Mipsorcu.Protocol.ReadBack

/-!
# Stored versions keep opening

Rotating a master key wraps the data keys of the stored versions again. A client lists the rows at
the old key version, unwraps and wraps their data keys (`rewrapRow`), and sends the new envelopes in
a transaction of its own. Until then others may have written or purged versions, or rotated the same
ones. In every state a version opens to the plaintext of its write nevertheless
(`storedVersions_open`): the data key of a version never changes, so it does not matter how old the
listed envelope was. And nothing else opens: a row put together from the columns of others does not
(`decrypt_not_spliced`).
-/

namespace Mipsorcu

open Sql

/-! ### Wrapping a listed row again -/

/-- The errors of the command that matter here. -/
inductive KeyRotationCliError where
  | config (reason : String)
  | crypto (error : CryptoError)

/-- `parse_rotation_batch_row`. -/
def parseRotationBatchRow (row : SecretVersionRow) (expectedKeyVersion : KeyVersion) :
    Except KeyRotationCliError (SecretId × EncryptedDataKey) := do
  let keyVersion ← Result.ofOption (.config "rotation row key_version is invalid")
    (keyVersionOfI32 row.keyVersion)
  Result.require (keyVersion == expectedKeyVersion)
    (.config "rotation row key_version does not match requested old key version")
  let _ ← Result.ofOption (.config "rotation row version is invalid")
    (secretVersionOfI32 row.version)
  let secretId ← (SecretId.parse row.secretId.hyphenated).mapError
    fun _ => .config "rotation row secret_id is invalid"
  let bytes ← Result.ofOption (.config "rotation row bytea is invalid")
    (decodeBytea (byteaText row.encryptedDataKey))
  let encryptedDataKey ← (EncryptedDataKey.parse bytes).mapError
    fun _ => .config "rotation row encrypted_data_key is invalid"
  pure (secretId, encryptedDataKey)

/-- The body of the loop of `rewrap`. -/
def rewrapRow (cipher : XChaCha20Poly1305) (oldKey newKey : KeyVersion × MasterKey)
    (random : Option (FixedBytes 24)) (row : SecretVersionRow) :
    Except KeyRotationCliError RotationRow := do
  let (secretId, encryptedDataKey) ← parseRotationBatchRow row oldKey.1
  let dataKey ←
    (unwrapDataKey cipher oldKey.2 ⟨secretId, oldKey.1⟩ encryptedDataKey).mapError .crypto
  let rewrapped ← (wrapDataKey cipher random newKey.2 ⟨secretId, newKey.1⟩ dataKey).mapError .crypto
  pure ⟨row.id, rewrapped.bytes⟩

/-! ### What a row opens to -/

/-- What a write has sealed. -/
structure SealedContent where
  aad : AadV1
  dataKey : DataKey
  plaintext : Plaintext

section Opening

variable (cipher : XChaCha20Poly1305) (ring : MasterKeyRing)

/-- The envelope of the row unwraps to the data key, with the key of the ring for the row's own key
version and bound to its secret and key version, and the text of the row opens under its stored
context to the plaintext. -/
structure Opens (content : SealedContent) (row : SecretVersionRow) : Prop where
  secretId : row.secretId = content.aad.secretId.uuid
  context : row.aadContext = content.aad.toStoredContext
  envelope : ∃ keyVersion masterKey encryptedDataKey, row.keyVersion = KeyVersion.get keyVersion ∧
    row.encryptedDataKey = EncryptedDataKey.bytes encryptedDataKey ∧
    ring.get keyVersion = .ok masterKey ∧
    unwrapDataKey cipher masterKey ⟨content.aad.secretId, keyVersion⟩ encryptedDataKey =
      .ok content.dataKey
  text : ∃ nonce ciphertext, row.nonceOrIv = FixedBytes.bytes (Nonce.bytes nonce) ∧
    row.ciphertext = Ciphertext.bytes ciphertext ∧
    decryptSecret cipher content.dataKey content.aad nonce ciphertext = .ok content.plaintext

variable {cipher ring} {content : SealedContent} {row listed : SecretVersionRow}

/-- A version that the server prepared is stored so that it opens. -/
theorem exists_opens_of_prepared {prepared : PreparedSecretVersion} {plaintext : Plaintext}
    (hcontext : prepared.aadContext = prepared.aad.toStoredContext)
    (hopens : prepared.sealed.OpensTo cipher ring plaintext) (requestId : RequestId) (micros : ℕ)
    (entries : List SignedLedgerEntry) :
    ∃ dataKey, Opens cipher ring ⟨prepared.aad, dataKey, plaintext⟩
      (prepared.write requestId micros entries).versionRow := by
  obtain ⟨dataKey, ⟨masterKey, hkey, hunwrap⟩, hdecrypt⟩ := hopens
  exact ⟨dataKey, rfl, hcontext, ⟨_, masterKey, _, rfl, rfl, hkey, hunwrap⟩,
    _, _, rfl, rfl, hdecrypt⟩

/-- **The new envelope of a listed row opens any row of the same content**, whatever happened to
that row since. -/
theorem Opens.rewrap {oldKey newKey : KeyVersion × MasterKey} {random : Option (FixedBytes 24)}
    {rewrapped : RotationRow} (hrow : Opens cipher ring content row)
    (hlisted : Opens cipher ring content listed) (hold : ring.get oldKey.1 = .ok oldKey.2)
    (hnew : ring.get newKey.1 = .ok newKey.2)
    (h : rewrapRow cipher oldKey newKey random listed = .ok rewrapped) :
    Opens cipher ring content { row with
      encryptedDataKey := rewrapped.encryptedDataKey, keyVersion := newKey.1.get } := by
  simp only [rewrapRow, parseRotationBatchRow, Result.bind_eq_ok, Result.ofOption_eq_ok,
    Result.require_eq_ok, Result.mapError_eq_ok, Result.pure_eq_ok, Prod.exists, Prod.mk.injEq,
    decodeBytea_byteaText, Option.some.injEq, keyVersionOfI32_eq_some, beq_iff_eq] at h
  obtain ⟨_, _, ⟨_, hversion, _, rfl, _, -, _, hsecretId, _, rfl, _, henvelope, rfl,
    rfl⟩, dataKey, hunwrap, wrapped, hwrap, rfl⟩ := h
  -- the listed envelope is the one that opens with the old key
  obtain ⟨keyVersion, masterKey, encryptedDataKey, hkeyVersion, hbytes, hget, hholds⟩ :=
    hlisted.envelope
  obtain rfl : keyVersion = oldKey.1 :=
    Option.some.inj ((keyVersionOfI32_eq_some.mpr hkeyVersion).symm.trans
      (keyVersionOfI32_eq_some.mpr hversion))
  obtain rfl : masterKey = oldKey.2 := Except.ok.inj (hget.symm.trans hold)
  rw [hbytes, EncryptedDataKey.parse_bytes] at henvelope
  obtain rfl := Except.ok.inj henvelope
  rw [hlisted.secretId] at hsecretId
  obtain rfl := Except.ok.inj ((SecretId.parse_asCanonicalString _).symm.trans hsecretId)
  obtain rfl : content.dataKey = dataKey := Except.ok.inj (hholds.symm.trans hunwrap)
  exact ⟨hrow.secretId, hrow.context, ⟨newKey.1, newKey.2, wrapped, rfl, rfl, hnew,
    unwrapDataKey_of_wrapDataKey hwrap⟩, hrow.text⟩

end Opening

/-! ### Runs -/

/-- The store, and the rows that rotation clients have listed so far. -/
structure RotationState where
  store : StoreState
  listed : List SecretVersionRow

/-- A listing, or a transaction. -/
inductive RotationEvent where
  | list
  | call (call : StoreCall)

/-- A client lists the rows, or a transaction runs. -/
def RotationState.step (pg : PostgresSession) (s : RotationState) :
    RotationEvent → Option RotationState
  | .list => some { s with listed := s.listed ++ s.store.db.secretVersions }
  | .call call => some { s with store := s.store.step pg call }

section Runs

variable (cipher : XChaCha20Poly1305) (ring : MasterKeyRing) (origin : Uuid → SealedContent)

/-- The rows of a batch were made by `rewrap` from rows that had been listed, at any time before. -/
def MadeFromListed (listed : List SecretVersionRow) (r : KeyRotation) (rows : List RotationRow) :
    Prop :=
  ∃ oldKey newKey : KeyVersion × MasterKey, ring.get oldKey.1 = .ok oldKey.2 ∧
    ring.get newKey.1 = .ok newKey.2 ∧ r.newKeyVersion = newKey.1.get ∧
    ∀ row ∈ rows, ∃ l ∈ listed, ∃ random, rewrapRow cipher oldKey newKey random l = .ok row

/-- Versions are written as they were prepared, each with its own identifier, and batches are made
by `rewrap`; all other calls are arbitrary. -/
def IsHonest (s : RotationState) : RotationEvent → Prop
  | .call (.writeSecretVersion _ args) => ∀ w, args.write? = some w →
    Opens cipher ring (origin w.secretVersionId) w.versionRow
  | .call (.applyKeyRotationBatch args rows) => ∀ r parsed, args.rotation? = some r →
    rotationRows? rows = some parsed → MadeFromListed cipher ring s.listed r parsed
  | _ => True

variable {cipher ring origin} {pg : PostgresSession} {s : RotationState} {db : SecretDb}

/-- **One transaction**: whatever it does, each version it leaves opens. -/
theorem opens_of_run {call : StoreCall} (h : call.run pg s.store.db = .ok db)
    (hhonest : IsHonest cipher ring origin s (.call call))
    (hlisted : ∀ row ∈ s.listed, Opens cipher ring (origin row.id) row)
    (hstored : ∀ row ∈ s.store.db.secretVersions, Opens cipher ring (origin row.id) row) :
    ∀ row ∈ db.secretVersions, Opens cipher ring (origin row.id) row := by
  intro row hrow
  have hsame : db.secretVersions = s.store.db.secretVersions →
      Opens cipher ring (origin row.id) row := fun heq => hstored row (heq ▸ hrow)
  cases StoreCall.effect h with
  | written hw hwritten =>
    rcases hwritten.mem_versions hrow with hold | rfl
    · exact hstored row hold
    · exact hhonest _ hw
  | rewrapped hr hrows hrewrapped =>
    rw [hrewrapped.recorded.frame] at hrow
    obtain ⟨v, hv, rfl⟩ := List.mem_map.mp hrow
    obtain ⟨oldKey, newKey, hold, hnew, hversion, hmade⟩ := hhonest _ _ hr hrows
    rcases rewrapVersion_cases _ _ _ v with ⟨-, heq⟩ | ⟨rewrapped, hfor, heq⟩
    · rw [heq]
      exact hstored v hv
    · obtain ⟨-, hmem, hid⟩ := rotationFor_eq_some hfor
      obtain ⟨l, hl, random, hrewrap⟩ := hmade rewrapped hmem
      -- the row of the batch has the identifier of the row it was made from
      have hlid : rewrapped.id = l.id := by
        simp only [rewrapRow, Result.bind_eq_ok, Result.pure_eq_ok] at hrewrap
        obtain ⟨_, -, _, -, _, -, rfl⟩ := hrewrap
        rfl
      have hopens := hlisted l hl
      rw [← hlid, hid] at hopens
      rw [heq, hversion]
      exact (hstored v hv).rewrap hopens hold hnew hrewrap
  | completed _ _ _ hrecorded =>
    rw [hrecorded.frame] at hsame
    exact hsame rfl
  | aliasCreated heffect | aliasUpdated heffect | aliasDeleted heffect =>
    obtain ⟨⟨_, _, -, -, -, -, rfl⟩, -⟩ := heffect
    exact hsame rfl
  | auditAppended _ happend =>
    obtain ⟨_, rfl⟩ := appendAuditEvent_frame happend
    exact hsame rfl
  | appendedWithLedger _ happended =>
    obtain ⟨_, happend, -, hframe⟩ := happended.exists_db
    obtain ⟨_, rfl⟩ := appendAuditEvent_frame happend
    rw [hframe] at hsame
    exact hsame rfl
  | ledgerAppended _ _ hframe =>
    rw [hframe] at hsame
    exact hsame rfl

end Runs

/-- **No stored version becomes unreadable.** From an empty store, and after any sequence of
transactions in which versions are written as they were prepared and batches are made from rows that
had been listed at any time before: each stored version opens, with the key of the ring for its key
version, to the plaintext that was submitted for its identifier. -/
theorem storedVersions_open (cipher : XChaCha20Poly1305) (ring : MasterKeyRing)
    (origin : Uuid → SealedContent) (pg : PostgresSession) (users : List Uuid)
    (signingPublicKeys : List LedgerSigningPublicKeyRow) (s : RotationState)
    (h : Transition.ReachableWhere (RotationState.step pg) (IsHonest cipher ring origin)
      ⟨.init users signingPublicKeys, []⟩ s) :
    ∀ row ∈ s.store.db.secretVersions, Opens cipher ring (origin row.id) row := by
  refine (Transition.invariant (fun s : RotationState =>
    (∀ row ∈ s.listed, Opens cipher ring (origin row.id) row) ∧
      ∀ row ∈ s.store.db.secretVersions, Opens cipher ring (origin row.id) row)
    ?_ ⟨List.forall_mem_nil _, List.forall_mem_nil _⟩ h).2
  rintro s₁ s₂ ⟨hlisted, hstored⟩ ⟨event, hhonest, hstep⟩
  cases event with
  | list =>
    obtain rfl := Option.some.inj hstep
    exact ⟨List.forall_mem_append.mpr ⟨hlisted, hstored⟩, hstored⟩
  | call call =>
    obtain rfl := Option.some.inj hstep
    refine ⟨hlisted, ?_⟩
    simp only [StoreState.step]
    cases hrun : call.run pg s₁.store.db with
    | ok db => exact opens_of_run hrun hhonest hlisted hstored
    | error error => exact hstored

theorem requestPrepared_sampleMicros : RequestPrepared sampleCipher sampleRing sampleMicros
    samplePlaintext (samplePrepared sampleMicros 5 sampleMicrosCiphertext) :=
  requestPrepared_sample (by simp [sampleSealings])

/-- The envelope of `sampleRewrapping`, as a row of a batch. -/
def sampleRewrapped : RotationRow :=
  ⟨sampleUuid 2, 1 :: ((sampleBytes 24 6).bytes ++ sampleRewrapping.cipher)⟩

/-- The rows of a batch of the one row. -/
def sampleBatchRows : Option Json :=
  some (.array [.object [("id", .string sampleRewrapped.id.hyphenated),
    ("encrypted_data_key", .string (byteaText sampleRewrapped.encryptedDataKey))]])

theorem rotationRows_sampleBatchRows : rotationRows? sampleBatchRows = some [sampleRewrapped] := by
  decide +kernel

/-- The batch, from the first to the second key version. -/
def sampleBatch : StoreCall :=
  .applyKeyRotationBatch ⟨some (sampleUuid 9), some 1, some 2, some (sampleUuid 10), none, none⟩
    sampleBatchRows

theorem rewrapRow_sampleMicros :
    rewrapRow sampleCipher (sampleKeyVersion 1 Nat.one_pos one_lt_u32, sampleMasterKey 1)
      (sampleKeyVersion 2 Nat.two_pos two_lt_u32, sampleMasterKey 2) (some (sampleBytes 24 6))
      sampleMicrosWrite.versionRow = .ok sampleRewrapped := by
  have hparse : parseRotationBatchRow sampleMicrosWrite.versionRow
      (sampleKeyVersion 1 Nat.one_pos one_lt_u32) = .ok (sampleSecretId, sampleEnvelope) := by
    have hsecretId : SecretId.parse sampleMicrosWrite.versionRow.secretId.hyphenated =
        .ok sampleSecretId := SecretId.parse_asCanonicalString sampleSecretId
    simp only [parseRotationBatchRow, decodeBytea_byteaText, hsecretId]
    rfl
  have hwrap : wrapDataKey sampleCipher (some (sampleBytes 24 4)) (sampleMasterKey 1)
      ⟨sampleSecretId, sampleKeyVersion 1 Nat.one_pos one_lt_u32⟩ ⟨sampleBytes 32 3⟩ =
      .ok sampleEnvelope :=
    wrapDataKey_eq_ok.mpr ⟨_, _, rfl, encrypt_sampleCipher List.mem_cons_self rfl, rfl⟩
  have hrewrap : wrapDataKey sampleCipher (some (sampleBytes 24 6)) (sampleMasterKey 2)
      ⟨sampleSecretId, sampleKeyVersion 2 Nat.two_pos two_lt_u32⟩ ⟨sampleBytes 32 3⟩ =
      .ok ⟨sampleRewrapped.encryptedDataKey, by decide, by decide⟩ :=
    wrapDataKey_eq_ok.mpr ⟨_, _, rfl,
      encrypt_sampleCipher (List.mem_cons_of_mem _ List.mem_cons_self) rfl, rfl⟩
  simp only [rewrapRow, hparse, unwrapDataKey_of_wrapDataKey hwrap, hrewrap, Result.mapError_ok,
    Result.ok_bind]
  rfl

/-- An instance: the version of the sample request is written to an empty store and listed, and its
data key is wrapped again. -/
theorem storedVersions_open_sampleRewrapped : ∃ (s : RotationState) (dataKey : DataKey),
    s.store.db.secretVersions = [{ sampleMicrosWrite.versionRow with
      encryptedDataKey := sampleRewrapped.encryptedDataKey, keyVersion := 2 }] ∧
    ∀ row ∈ s.store.db.secretVersions, Opens sampleCipher sampleRing
      ⟨(samplePrepared sampleMicros 5 sampleMicrosCiphertext).aad, dataKey, samplePlaintext⟩
      row := by
  obtain ⟨-, hcontext, hsealed⟩ := requestPrepared_sampleMicros.spec
  obtain ⟨dataKey, hopens⟩ := exists_opens_of_prepared hcontext hsealed ⟨sampleUuid 9⟩
    76552225445123456 [sampleWriteEntry]
  obtain ⟨call, result, -, hwrite, hcommit⟩ := rpcWrite_sample sampleEntry_sampleWriteEntry
    (by decide +kernel) (show _ = sampleMicrosWrite from rfl) (fun _ => sampleUuid 5)
    (by decide +kernel) (findWriteLedgerEntry_sample _ _ _ _)
  have hrun : StoreCall.run sampleSession (emptyStore [sampleUuid 7] [])
      (.writeSecretVersion (fun _ => sampleUuid 5) call) =
      .ok (sampleStored sampleMicrosWrite sampleWriteEntry) :=
    Result.map_eq_ok.mpr ⟨_, hcommit, rfl⟩
  have hbatch : (sampleBatch.run sampleSession
      (sampleStored sampleMicrosWrite sampleWriteEntry)).toOption.map SecretDb.secretVersions =
      some [{ sampleMicrosWrite.versionRow with
        encryptedDataKey := sampleRewrapped.encryptedDataKey, keyVersion := 2 }] := by
    decide +kernel
  obtain ⟨db, happly, hversions⟩ := Option.map_eq_some_iff.mp hbatch
  have hstored : ((StoreState.init [sampleUuid 7] []).step sampleSession
      (.writeSecretVersion (fun _ => sampleUuid 5) call)).db =
      sampleStored sampleMicrosWrite sampleWriteEntry := by
    simp only [StoreState.step, StoreState.init, hrun]
  -- the state after the write is named, so that the batch is not evaluated in it
  have happlied : (((StoreState.init [sampleUuid 7] []).step sampleSession
      (.writeSecretVersion (fun _ => sampleUuid 5) call)).step sampleSession sampleBatch).db =
      db := by
    generalize (StoreState.init [sampleUuid 7] []).step sampleSession _ = s at hstored
    rw [StoreState.step, hstored, Result.toOption_eq_some.mp happly]
  refine ⟨_, dataKey, ?_, storedVersions_open sampleCipher sampleRing (fun _ => _) sampleSession
    [sampleUuid 7] [] _ (((Relation.ReflTransGen.refl.tail
      ⟨.call (.writeSecretVersion (fun _ => sampleUuid 5) call), fun w hw => ?_, rfl⟩).tail
      ⟨.list, trivial, rfl⟩).tail ⟨.call sampleBatch, fun r parsed hr hparsed => ?_, rfl⟩)⟩
  · rw [happlied, hversions]
  · obtain rfl := Option.some.inj hr
    obtain rfl := Option.some.inj (rotationRows_sampleBatchRows.symm.trans hparsed)
    refine ⟨(sampleKeyVersion 1 Nat.one_pos one_lt_u32, sampleMasterKey 1),
      (sampleKeyVersion 2 Nat.two_pos two_lt_u32, sampleMasterKey 2), rfl, rfl, rfl,
      fun row hrow => ?_⟩
    obtain rfl := List.mem_singleton.mp hrow
    refine ⟨sampleMicrosWrite.versionRow, ?_, _, rewrapRow_sampleMicros⟩
    rw [List.nil_append, hstored]
    exact List.mem_cons_self
  · obtain rfl := Option.some.inj (hwrite.symm.trans hw)
    exact hopens

/-! ### Rows that nobody wrote -/

/-- What opens was sealed: it is a data key, bound to a wrap context, or the text of one of the
contents. -/
def OpensOnly (cipher : XChaCha20Poly1305) (contents : List SealedContent) : Prop :=
  ∀ key nonce associated ciphertext message,
    cipher.decrypt key nonce associated ciphertext = some message →
    (∃ context : KeyWrapContext, associated = context.canonicalBytes) ∨
      ∃ content ∈ contents, key = content.dataKey.bytes ∧
        associated = content.aad.canonicalBytes ∧ message = content.plaintext.bytes

/-- **Rows cannot be spliced.** If nothing opens but what was sealed, then whatever columns the
database returns, a row that decrypts has the secret, the version, the owner, the classification and
the creation time of one write; the caller is the owner of that write, and gets its plaintext. -/
theorem decrypt_not_spliced (cipher : XChaCha20Poly1305) (ring : MasterKeyRing)
    (contents : List SealedContent) (hideal : OpensOnly cipher contents)
    (input : DecryptCurrentSecretVersionInput) (plaintext : Plaintext)
    (h : decryptCurrentSecretVersionWithKeyring cipher ring input = .ok plaintext) :
    ∃ content ∈ contents, input.rowAad = content.aad ∧ plaintext = content.plaintext ∧
      input.claims.subjectUserId = content.aad.ownerUserId := by
  obtain ⟨howner, -, -, dataKey, -, hdecrypt⟩ :=
    decryptCurrentSecretVersionWithKeyring_eq_ok.mp h
  simp only [decryptSecret, Result.bind_eq_ok, Result.ofOption_eq_ok, Result.pure_eq_ok] at hdecrypt
  obtain ⟨message, hopens, rfl⟩ := hdecrypt
  rcases hideal _ _ _ _ _ hopens with ⟨context, hwrap⟩ | ⟨content, hmem, -, haad, rfl⟩
  · -- the context of a row and that of a data key are objects with different keys
    have hobjects := Json.toBytes_injective hwrap
    simp [DecryptCurrentSecretVersionInput.sealed, AadV1.members] at hobjects
  · have hrow : input.rowAad = content.aad := AadV1.canonicalBytes_injective haad
    exact ⟨content, hmem, hrow, rfl, howner.trans (congrArg AadV1.ownerUserId hrow)⟩

/-- An instance: the sample version, with everything that was ever sealed. -/
theorem decrypt_not_spliced_sampleMicros : ∃ content ∈ [sampleMicros, sampleNanos].map
      fun now => SealedContent.mk (sampleAad now) ⟨sampleBytes 32 3⟩ samplePlaintext,
    sampleAad sampleMicros = content.aad ∧ samplePlaintext = content.plaintext ∧
      sampleOwner = content.aad.ownerUserId := by
  refine decrypt_not_spliced sampleCipher sampleRing _ ?_ _ samplePlaintext
    ((decrypt_row_iff requestPrepared_sampleMicros.spec.2.2).mpr rfl)
  intro key nonce associated ciphertext message hopens
  have hmem := Aead.mem_of_decrypt_ofTable hopens
  simp only [sampleSealings, List.mem_cons, List.not_mem_nil, or_false] at hmem
  rcases hmem with h | h | h | h <;> cases h
  · exact .inl ⟨_, rfl⟩
  · exact .inl ⟨_, rfl⟩
  · exact .inr ⟨_, List.mem_cons_self, rfl, rfl, rfl⟩
  · exact .inr ⟨_, List.mem_cons_of_mem _ List.mem_cons_self, rfl, rfl, rfl⟩

end Mipsorcu
