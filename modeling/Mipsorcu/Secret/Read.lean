import Mipsorcu.Secret.Crypto

/-!
# Decrypting the current version

`decryptCurrentSecretVersionWithKeyring` checks the caller, compares the stored context with the
authenticated data rebuilt from the row, and opens the content with the ring's key of the row.
`decryptCurrentSecretVersionWithKeyring_eq_ok` says exactly when it returns a plaintext.
-/

namespace Mipsorcu

/-- `AuthorizationError`. -/
inductive AuthorizationError where
  | ownerMismatch
  | notCurrentVersion
  deriving DecidableEq

/-- `DecryptIntegrityError`. -/
inductive DecryptIntegrityError where
  | aadContextMismatch
  deriving DecidableEq

/-- The errors of a decryption (`SecretDecryptError`). -/
inductive SecretDecryptError where
  | authorization (error : AuthorizationError)
  | aad (error : AadError)
  | crypto (error : CryptoError)
  | integrity (error : DecryptIntegrityError)
  | keyring (error : KeyringError)
  deriving DecidableEq

/-- The claims of a verified token; the subject is all that the model needs of them. -/
structure VerifiedJwtClaims where
  subjectUserId : OwnerUserId
  deriving DecidableEq

/-- A row of the database with the caller's claims. -/
structure DecryptCurrentSecretVersionInput where
  claims : VerifiedJwtClaims
  secretId : SecretId
  version : SecretVersion
  currentVersion : SecretVersion
  ownerUserId : OwnerUserId
  classification : Classification
  createdAt : CreatedAt
  keyVersion : KeyVersion
  encryptedDataKey : EncryptedDataKey
  nonceOrIv : Nonce
  ciphertext : Ciphertext
  aadContext : Json

/-! ### Authorization -/

/-- The owner may read the current version, and nobody else may read any. -/
def authorizeCurrentVersionDecrypt (claims : VerifiedJwtClaims) (ownerUserId : OwnerUserId)
    (requestedVersion currentVersion : SecretVersion) : Except AuthorizationError Unit := do
  Result.require (claims.subjectUserId == ownerUserId) .ownerMismatch
  Result.require (requestedVersion == currentVersion) .notCurrentVersion

/-! ### Decryption -/

namespace DecryptCurrentSecretVersionInput

/-- `row_aad_from_input`. -/
def rowAad (input : DecryptCurrentSecretVersionInput) : AadV1 where
  secretId := input.secretId
  version := input.version
  ownerUserId := input.ownerUserId
  classification := input.classification
  createdAt := input.createdAt

/-- The encrypted content of the row, with the data rebuilt from its columns. -/
def sealed (input : DecryptCurrentSecretVersionInput) : SealedVersion where
  aad := input.rowAad
  keyVersion := input.keyVersion
  encryptedDataKey := input.encryptedDataKey
  nonce := input.nonceOrIv
  ciphertext := input.ciphertext

end DecryptCurrentSecretVersionInput

/-- `verify_stored_aad_matches_row`. -/
def verifyStoredAadMatchesRow (storedContext : Json) (rowAad : AadV1) :
    Except SecretDecryptError Unit := do
  let storedAad ← (AadV1.fromStoredContext storedContext).mapError .aad
  Result.require (storedAad.canonicalBytes == rowAad.canonicalBytes)
    (.integrity .aadContextMismatch)

/-- The caller is authorized before the context is parsed. -/
def validateDecryptInput (input : DecryptCurrentSecretVersionInput) :
    Except SecretDecryptError AadV1 := do
  (authorizeCurrentVersionDecrypt input.claims input.ownerUserId input.version
    input.currentVersion).mapError .authorization
  verifyStoredAadMatchesRow input.aadContext input.rowAad
  pure input.rowAad

/-- The part after the master key is chosen. -/
def decryptCurrentSecretVersionWithSelectedMasterKey (cipher : XChaCha20Poly1305)
    (masterKey : MasterKey) (rowAad : AadV1) (input : DecryptCurrentSecretVersionInput) :
    Except SecretDecryptError Plaintext := do
  let dataKey ← (unwrapDataKey cipher masterKey ⟨input.secretId, input.keyVersion⟩
    input.encryptedDataKey).mapError .crypto
  (decryptSecret cipher dataKey rowAad input.nonceOrIv input.ciphertext).mapError .crypto

/-- `decrypt_current_secret_version_with_keyring`. -/
def decryptCurrentSecretVersionWithKeyring (cipher : XChaCha20Poly1305) (ring : MasterKeyRing)
    (input : DecryptCurrentSecretVersionInput) : Except SecretDecryptError Plaintext := do
  let rowAad ← validateDecryptInput input
  let masterKey ← (ring.get input.keyVersion).mapError .keyring
  decryptCurrentSecretVersionWithSelectedMasterKey cipher masterKey rowAad input

theorem verifyStoredAadMatchesRow_eq_ok {storedContext : Json} {rowAad : AadV1} {u : Unit} :
    verifyStoredAadMatchesRow storedContext rowAad = .ok u ↔
      AadV1.fromStoredContext storedContext = .ok rowAad := by
  simp only [verifyStoredAadMatchesRow, Result.bind_eq_ok, Result.mapError_eq_ok,
    Result.require_eq_ok, beq_iff_eq]
  constructor
  · rintro ⟨aad, haad, hbytes⟩
    rw [haad, AadV1.canonicalBytes_injective hbytes]
  · intro h
    exact ⟨rowAad, h, rfl⟩

/-- **When a decryption returns a plaintext**: the caller owns the row, the row is the current
version, the stored context is the data rebuilt from the row, and the content opens under it. -/
theorem decryptCurrentSecretVersionWithKeyring_eq_ok {cipher : XChaCha20Poly1305}
    {ring : MasterKeyRing} {input : DecryptCurrentSecretVersionInput} {plaintext : Plaintext} :
    decryptCurrentSecretVersionWithKeyring cipher ring input = .ok plaintext ↔
      input.claims.subjectUserId = input.ownerUserId ∧ input.version = input.currentVersion ∧
        AadV1.fromStoredContext input.aadContext = .ok input.rowAad ∧
        input.sealed.OpensTo cipher ring plaintext := by
  simp only [decryptCurrentSecretVersionWithKeyring, validateDecryptInput,
    authorizeCurrentVersionDecrypt, decryptCurrentSecretVersionWithSelectedMasterKey,
    Result.bind_eq_ok, Result.mapError_eq_ok, Result.require_eq_ok, beq_iff_eq,
    verifyStoredAadMatchesRow_eq_ok, Result.pure_eq_ok]
  constructor
  · rintro ⟨_, ⟨_, ⟨_, howner, hversion⟩, _, haad, rfl⟩, masterKey, hkey, dataKey, hunwrap,
      hdecrypt⟩
    exact ⟨howner, hversion, haad, dataKey, ⟨masterKey, hkey, hunwrap⟩, hdecrypt⟩
  · rintro ⟨howner, hversion, haad, dataKey, ⟨masterKey, hkey, hunwrap⟩, hdecrypt⟩
    exact ⟨_, ⟨(), ⟨(), howner, hversion⟩, (), haad, rfl⟩, masterKey, hkey, dataKey, hunwrap,
      hdecrypt⟩

end Mipsorcu
