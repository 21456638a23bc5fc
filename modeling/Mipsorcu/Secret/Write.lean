import Mipsorcu.Secret.Crypto

/-!
# Preparing a version of a secret

`prepareNewSecretVersionWithKeyring` and `prepareExistingSecretVersionWithKeyring` encrypt a
plaintext for the first or the next version of a secret. Randomness is an argument: what each
call to the random source returned, in the order of the calls. What is prepared opens to the
plaintext it was prepared from (`opensTo_of_prepareNew` and `opensTo_of_prepareExisting`), with the
active key of the ring.
-/

namespace Mipsorcu

/-- The errors of a preparation (`SecretWriteError`). -/
inductive SecretWriteError where
  | input (error : InputError)
  | crypto (error : CryptoError)
  | keyring (error : KeyringError)
  deriving DecidableEq

/-- `SecretWriteAction`. -/
inductive SecretWriteAction where
  | encryptCreate
  | encryptRotate
  deriving DecidableEq

/-- The name of the action in the audit. -/
def SecretWriteAction.asStr : SecretWriteAction → String
  | encryptCreate => "encrypt_create"
  | encryptRotate => "encrypt_rotate"

/-- `NewSecretVersionInput`, without the key version that the key ring replaces. -/
structure NewSecretVersionInput where
  ownerUserId : OwnerUserId
  classification : Classification
  createdByDeviceId : DeviceId
  createdAt : CreatedAt
  plaintext : Plaintext

/-- What a rotation knows of the current version. -/
structure CurrentSecretVersionState where
  secretId : SecretId
  currentVersion : SecretVersion
  ownerUserId : OwnerUserId
  classification : Classification
  keyVersion : KeyVersion
  encryptedDataKey : EncryptedDataKey

/-- The input of a rotation. -/
structure ExistingSecretVersionInput where
  current : CurrentSecretVersionState
  createdByDeviceId : DeviceId
  createdAt : CreatedAt
  plaintext : Plaintext

/-- A version as it is sent to the database. -/
structure PreparedSecretVersion where
  writeAction : SecretWriteAction
  secretId : SecretId
  secretVersionId : SecretVersionId
  version : SecretVersion
  ownerUserId : OwnerUserId
  classification : Classification
  createdByDeviceId : DeviceId
  createdAt : CreatedAt
  keyVersion : KeyVersion
  ciphertext : Ciphertext
  encryptedDataKey : EncryptedDataKey
  nonceOrIv : Nonce
  aadContext : Json
  deriving DecidableEq

namespace PreparedSecretVersion

/-- The data its ciphertext is bound to. -/
def aad (p : PreparedSecretVersion) : AadV1 where
  secretId := p.secretId
  version := p.version
  ownerUserId := p.ownerUserId
  classification := p.classification
  createdAt := p.createdAt

/-- The encrypted content that was prepared. -/
def sealed (p : PreparedSecretVersion) : SealedVersion where
  aad := p.aad
  keyVersion := p.keyVersion
  encryptedDataKey := p.encryptedDataKey
  nonce := p.nonceOrIv
  ciphertext := p.ciphertext

end PreparedSecretVersion

/-- The answers of the random source during a preparation. -/
structure WriteRandomness where
  secretId : Option (FixedBytes 16)
  dataKey : Option (FixedBytes 32)
  wrapNonce : Option (FixedBytes 24)
  secretVersionId : Option (FixedBytes 16)
  nonce : Option (FixedBytes 24)

/-- `SecretVersionMetadata`. -/
structure SecretVersionMetadata where
  secretId : SecretId
  version : SecretVersion
  ownerUserId : OwnerUserId
  classification : Classification
  createdByDeviceId : DeviceId
  createdAt : CreatedAt
  keyVersion : KeyVersion
  encryptedDataKey : EncryptedDataKey

section Prepare

variable (cipher : XChaCha20Poly1305) (random : WriteRandomness)

/-- What creation and rotation have in common. -/
def prepareSecretVersionWithDataKey (writeAction : SecretWriteAction)
    (metadata : SecretVersionMetadata) (dataKey : DataKey) (plaintext : Plaintext) :
    Except SecretWriteError PreparedSecretVersion := do
  let secretVersionId ← (SecretVersionId.generate random.secretVersionId).mapError .crypto
  let aad : AadV1 := {
    secretId := metadata.secretId, version := metadata.version,
    ownerUserId := metadata.ownerUserId, classification := metadata.classification,
    createdAt := metadata.createdAt }
  let payload ← (encryptSecret cipher random.nonce dataKey aad plaintext).mapError .crypto
  pure {
    writeAction, secretId := metadata.secretId, secretVersionId, version := metadata.version,
    ownerUserId := metadata.ownerUserId, classification := metadata.classification,
    createdByDeviceId := metadata.createdByDeviceId, createdAt := metadata.createdAt,
    keyVersion := metadata.keyVersion, ciphertext := payload.ciphertext,
    encryptedDataKey := metadata.encryptedDataKey, nonceOrIv := payload.nonce,
    aadContext := payload.aadContext }

/-- `prepare_new_secret_version_with_keyring`. -/
def prepareNewSecretVersionWithKeyring (ring : MasterKeyRing) (input : NewSecretVersionInput) :
    Except SecretWriteError PreparedSecretVersion := do
  let (keyVersion, masterKey) := ring.active
  let secretId ← (SecretId.generate random.secretId).mapError .crypto
  let dataKey ← (DataKey.generate random.dataKey).mapError .crypto
  let encryptedDataKey ← (wrapDataKey cipher random.wrapNonce masterKey ⟨secretId, keyVersion⟩
    dataKey).mapError .crypto
  prepareSecretVersionWithDataKey cipher random .encryptCreate {
    secretId, version := .first, ownerUserId := input.ownerUserId,
    classification := input.classification, createdByDeviceId := input.createdByDeviceId,
    createdAt := input.createdAt, keyVersion, encryptedDataKey } dataKey input.plaintext

/-- `prepare_existing_secret_version_with_keyring`. -/
def prepareExistingSecretVersionWithKeyring (ring : MasterKeyRing)
    (input : ExistingSecretVersionInput) : Except SecretWriteError PreparedSecretVersion := do
  let current := input.current
  let version ← current.currentVersion.next.mapError .input
  let currentMasterKey ← (ring.get current.keyVersion).mapError .keyring
  let dataKey ← (unwrapDataKey cipher currentMasterKey ⟨current.secretId, current.keyVersion⟩
    current.encryptedDataKey).mapError .crypto
  let (activeKeyVersion, activeMasterKey) := ring.active
  let rewrappedDataKey ← (wrapDataKey cipher random.wrapNonce activeMasterKey
    ⟨current.secretId, activeKeyVersion⟩ dataKey).mapError .crypto
  prepareSecretVersionWithDataKey cipher random .encryptRotate {
    secretId := current.secretId, version, ownerUserId := current.ownerUserId,
    classification := current.classification, createdByDeviceId := input.createdByDeviceId,
    createdAt := input.createdAt, keyVersion := activeKeyVersion,
    encryptedDataKey := rewrappedDataKey } dataKey input.plaintext

end Prepare

/-! ### What is prepared -/

section Prepared

variable {cipher : XChaCha20Poly1305} {random : WriteRandomness} {ring : MasterKeyRing}
  {p : PreparedSecretVersion}

/-- A prepared version describes the metadata it was prepared from, and its content decrypts under
the data key. -/
structure PreparedFrom (cipher : XChaCha20Poly1305) (writeAction : SecretWriteAction)
    (metadata : SecretVersionMetadata) (dataKey : DataKey) (plaintext : Plaintext)
    (p : PreparedSecretVersion) : Prop where
  writeAction_eq : p.writeAction = writeAction
  secretId_eq : p.secretId = metadata.secretId
  version_eq : p.version = metadata.version
  ownerUserId_eq : p.ownerUserId = metadata.ownerUserId
  classification_eq : p.classification = metadata.classification
  createdByDeviceId_eq : p.createdByDeviceId = metadata.createdByDeviceId
  createdAt_eq : p.createdAt = metadata.createdAt
  keyVersion_eq : p.keyVersion = metadata.keyVersion
  encryptedDataKey_eq : p.encryptedDataKey = metadata.encryptedDataKey
  secretVersionId_variant : (p.secretVersionId.uuid.bytes.getD 8 0).toNat / 64 = 2
  aadContext_eq : p.aadContext = p.aad.toStoredContext
  decrypts : decryptSecret cipher dataKey p.aad p.nonceOrIv p.ciphertext = .ok plaintext

theorem prepareSecretVersionWithDataKey_eq_ok {writeAction : SecretWriteAction}
    {metadata : SecretVersionMetadata} {dataKey : DataKey} {plaintext : Plaintext}
    (h : prepareSecretVersionWithDataKey cipher random writeAction metadata dataKey plaintext =
      .ok p) : PreparedFrom cipher writeAction metadata dataKey plaintext p := by
  simp only [prepareSecretVersionWithDataKey, SecretVersionId.generate, fillRandom,
    Result.bind_eq_ok, Result.mapError_eq_ok, Result.ofOption_eq_ok, Result.pure_eq_ok] at h
  obtain ⟨_, ⟨bytes, -, rfl⟩, payload, hpayload, rfl⟩ := h
  exact ⟨rfl, rfl, rfl, rfl, rfl, rfl, rfl, rfl, rfl, Uuid.variant_ofRandomBytes bytes,
    (encryptSecret_eq_ok.mp hpayload).2.2, decryptSecret_of_encryptSecret hpayload⟩

/-- What the preparation of a first version returns. -/
theorem prepareNewSecretVersionWithKeyring_eq_ok {input : NewSecretVersionInput}
    (h : prepareNewSecretVersionWithKeyring cipher random ring input = .ok p) :
    ∃ secretId dataKey encryptedDataKey,
      (secretId.uuid.bytes.getD 8 0).toNat / 64 = 2 ∧
      wrapDataKey cipher random.wrapNonce ring.active.2 ⟨secretId, ring.active.1⟩ dataKey =
        .ok encryptedDataKey ∧
      PreparedFrom cipher .encryptCreate {
        secretId, version := .first, ownerUserId := input.ownerUserId,
        classification := input.classification, createdByDeviceId := input.createdByDeviceId,
        createdAt := input.createdAt, keyVersion := ring.active.1, encryptedDataKey } dataKey
        input.plaintext p := by
  simp only [prepareNewSecretVersionWithKeyring, SecretId.generate, fillRandom,
    Result.bind_eq_ok, Result.mapError_eq_ok, Result.ofOption_eq_ok, Result.pure_eq_ok] at h
  obtain ⟨_, ⟨bytes, -, rfl⟩, dataKey, -, encryptedDataKey, hwrap, hprepare⟩ := h
  exact ⟨_, dataKey, encryptedDataKey, Uuid.variant_ofRandomBytes bytes, hwrap,
    prepareSecretVersionWithDataKey_eq_ok hprepare⟩

/-- What the preparation of a next version returns. -/
theorem prepareExistingSecretVersionWithKeyring_eq_ok {input : ExistingSecretVersionInput}
    (h : prepareExistingSecretVersionWithKeyring cipher random ring input = .ok p) :
    ∃ version dataKey encryptedDataKey,
      version.get = input.current.currentVersion.get + 1 ∧
      wrapDataKey cipher random.wrapNonce ring.active.2
        ⟨input.current.secretId, ring.active.1⟩ dataKey = .ok encryptedDataKey ∧
      PreparedFrom cipher .encryptRotate {
        secretId := input.current.secretId, version, ownerUserId := input.current.ownerUserId,
        classification := input.current.classification,
        createdByDeviceId := input.createdByDeviceId, createdAt := input.createdAt,
        keyVersion := ring.active.1, encryptedDataKey } dataKey input.plaintext p := by
  simp only [prepareExistingSecretVersionWithKeyring, Result.bind_eq_ok,
    Result.mapError_eq_ok] at h
  obtain ⟨version, hversion, _, -, dataKey, -, encryptedDataKey, hwrap, hprepare⟩ := h
  exact ⟨version, dataKey, encryptedDataKey, SecretVersion.get_of_next hversion, hwrap,
    prepareSecretVersionWithDataKey_eq_ok hprepare⟩

/-- A version prepared with the data key it wraps opens to its plaintext. -/
theorem PreparedFrom.opensTo {writeAction : SecretWriteAction} {metadata : SecretVersionMetadata}
    {dataKey : DataKey} {plaintext : Plaintext} {wrapNonce : Option (FixedBytes 24)}
    (h : PreparedFrom cipher writeAction metadata dataKey plaintext p)
    (hkey : metadata.keyVersion = ring.active.1)
    (hwrap : wrapDataKey cipher wrapNonce ring.active.2 ⟨metadata.secretId, ring.active.1⟩ dataKey =
      .ok metadata.encryptedDataKey) : p.sealed.OpensTo cipher ring plaintext := by
  have hcontext : p.sealed.keyWrapContext = ⟨metadata.secretId, ring.active.1⟩ := by
    rw [SealedVersion.keyWrapContext, PreparedSecretVersion.sealed, PreparedSecretVersion.aad,
      h.secretId_eq, h.keyVersion_eq, hkey]
  have hversion : p.sealed.keyVersion = ring.active.1 := h.keyVersion_eq.trans hkey
  refine ⟨dataKey, ⟨ring.active.2, by rw [hversion]; exact ring.get_active, ?_⟩, h.decrypts⟩
  rw [hcontext, show p.sealed.encryptedDataKey = metadata.encryptedDataKey from
    h.encryptedDataKey_eq]
  exact unwrapDataKey_of_wrapDataKey hwrap

/-- **The first version opens to the plaintext it was prepared from.** -/
theorem opensTo_of_prepareNew {input : NewSecretVersionInput}
    (h : prepareNewSecretVersionWithKeyring cipher random ring input = .ok p) :
    p.sealed.OpensTo cipher ring input.plaintext := by
  obtain ⟨_, _, _, -, hwrap, hfrom⟩ := prepareNewSecretVersionWithKeyring_eq_ok h
  exact hfrom.opensTo rfl hwrap

/-- **The next version opens to the plaintext it was prepared from.** -/
theorem opensTo_of_prepareExisting {input : ExistingSecretVersionInput}
    (h : prepareExistingSecretVersionWithKeyring cipher random ring input = .ok p) :
    p.sealed.OpensTo cipher ring input.plaintext := by
  obtain ⟨_, _, _, -, hwrap, hfrom⟩ := prepareExistingSecretVersionWithKeyring_eq_ok h
  exact hfrom.opensTo rfl hwrap

end Prepared

end Mipsorcu
