import Mipsorcu.Foundation.Aead
import Mipsorcu.Secret.Aad

/-!
# Envelope encryption

A secret is encrypted under its data key, and the data key is wrapped under a master key of the
key ring. Both steps use XChaCha20-Poly1305, which is a parameter: an authenticated encryption
with 32-byte keys, 24-byte nonces and 16-byte tags. Wrapping then unwrapping under the same master
key and context gives the data key (`unwrapDataKey_of_wrapDataKey`), and encrypting then
decrypting under the same data key and authenticated data gives the plaintext
(`decryptSecret_of_encryptSecret`).
-/

namespace Mipsorcu

/-- XChaCha20-Poly1305. -/
abbrev XChaCha20Poly1305 := Aead (FixedBytes 32) (FixedBytes 24) 16

/-- The only algorithm. -/
def algorithmXChaCha20Poly1305 : String := "xchacha20-poly1305"

/-! ### The key ring -/

/-- The errors of the key ring (`KeyringError`). -/
inductive KeyringError where
  | empty
  | activeKeyMissing (keyVersion : ℕ)
  | keyUnavailable (keyVersion : ℕ)
  deriving DecidableEq

/-- The master keys by version, with the active one. The constructor of the source refuses a ring
without its active key. -/
structure MasterKeyRing where
  activeKeyVersion : KeyVersion
  keys : List (KeyVersion × MasterKey)
  active_mem : (keys.lookup activeKeyVersion).isSome = true

namespace MasterKeyRing

/-- The key new versions are wrapped with. -/
def active (ring : MasterKeyRing) : KeyVersion × MasterKey :=
  (ring.activeKeyVersion, (ring.keys.lookup ring.activeKeyVersion).get ring.active_mem)

/-- `MasterKeyRing::get`. -/
def get (ring : MasterKeyRing) (keyVersion : KeyVersion) : Except KeyringError MasterKey :=
  Result.ofOption (.keyUnavailable keyVersion.get) (ring.keys.lookup keyVersion)

@[simp]
theorem get_active (ring : MasterKeyRing) : ring.get ring.active.1 = .ok ring.active.2 := by
  simp [get, active]

end MasterKeyRing

/-! ### Wrapping data keys -/

/-- What a wrapped data key is bound to. -/
structure KeyWrapContext where
  secretId : SecretId
  keyVersion : KeyVersion
  deriving DecidableEq

/-- What a wrapped data key is bound to. -/
def KeyWrapContext.canonicalBytes (context : KeyWrapContext) : List UInt8 :=
  (Json.object [
    ("context", .string "data_key_wrap"),
    ("key_version", .nat context.keyVersion.get),
    ("secret_id", .string context.secretId.asCanonicalString),
    ("wrap_version", .nat 1)]).toBytes

section Cipher

variable (cipher : XChaCha20Poly1305)

/-- `wrap_data_key`. -/
def wrapDataKey (random : Option (FixedBytes 24)) (masterKey : MasterKey)
    (context : KeyWrapContext) (dataKey : DataKey) : Except CryptoError EncryptedDataKey := do
  let nonce ← Nonce.generate random
  let encrypted ← Result.ofOption .keyWrapFailed
    (cipher.encrypt masterKey.bytes nonce.bytes context.canonicalBytes dataKey.bytes.bytes)
  Result.require (encrypted.length == encryptedDataKeyCiphertextLength) .keyWrapFailed
  EncryptedDataKey.parse (encryptedDataKeyVersion :: (nonce.bytes.bytes ++ encrypted))

/-- `unwrap_data_key`. -/
def unwrapDataKey (masterKey : MasterKey) (context : KeyWrapContext)
    (encryptedDataKey : EncryptedDataKey) : Except CryptoError DataKey := do
  let dataKey ← Result.ofOption .keyUnwrapFailed
    (cipher.decrypt masterKey.bytes encryptedDataKey.nonce.bytes context.canonicalBytes
      encryptedDataKey.ciphertextBytes)
  (DataKey.parse dataKey).mapError fun _ => .keyUnwrapFailed

/-! ### Encrypting secrets -/

/-- `EncryptedPayload`. -/
structure EncryptedPayload where
  ciphertext : Ciphertext
  nonce : Nonce
  aadContext : Json

/-- `encrypt_secret`. -/
def encryptSecret (random : Option (FixedBytes 24)) (dataKey : DataKey) (aad : AadV1)
    (plaintext : Plaintext) : Except CryptoError EncryptedPayload := do
  let nonce ← Nonce.generate random
  let encrypted ← Result.ofOption .encryptionFailed
    (cipher.encrypt dataKey.bytes nonce.bytes aad.canonicalBytes plaintext.bytes)
  let ciphertext ← Ciphertext.new encrypted
  pure { ciphertext, nonce, aadContext := aad.toStoredContext }

/-- `decrypt_secret`. -/
def decryptSecret (dataKey : DataKey) (aad : AadV1) (nonce : Nonce) (ciphertext : Ciphertext) :
    Except CryptoError Plaintext := do
  let plaintext ← Result.ofOption .decryptionFailed
    (cipher.decrypt dataKey.bytes nonce.bytes aad.canonicalBytes ciphertext.bytes)
  pure ⟨plaintext⟩

end Cipher

/-! ### Round trips -/

section RoundTrip

variable {cipher : XChaCha20Poly1305}

variable {random : Option (FixedBytes 24)} {dataKey : DataKey}

/-- What a wrapped data key is made of. -/
theorem wrapDataKey_eq_ok {masterKey : MasterKey} {context : KeyWrapContext}
    {wrapped : EncryptedDataKey} :
    wrapDataKey cipher random masterKey context dataKey = .ok wrapped ↔
      ∃ nonce encrypted, random = some nonce ∧
        cipher.encrypt masterKey.bytes nonce context.canonicalBytes dataKey.bytes.bytes =
          some encrypted ∧
        wrapped.bytes = encryptedDataKeyVersion :: (nonce.bytes ++ encrypted) := by
  simp only [wrapDataKey, Nonce.generate, fillRandom, Result.bind_eq_ok, Result.ofOption_eq_ok,
    Result.pure_eq_ok, Result.require_eq_ok, beq_iff_eq]
  constructor
  · rintro ⟨_, ⟨nonce, hnonce, rfl⟩, encrypted, hencrypted, _, -, hparse⟩
    exact ⟨nonce, encrypted, hnonce, hencrypted, EncryptedDataKey.bytes_of_parse hparse⟩
  · rintro ⟨nonce, encrypted, hnonce, hencrypted, hbytes⟩
    refine ⟨⟨nonce⟩, ⟨nonce, hnonce, rfl⟩, encrypted, hencrypted, (), ?_, ?_⟩
    · rw [cipher.length_encrypt hencrypted, dataKey.bytes.length_bytes]
      rfl
    · rw [← hbytes, EncryptedDataKey.parse_bytes]

/-- **A wrapped data key unwraps under the master key and context it was wrapped for.** -/
theorem unwrapDataKey_of_wrapDataKey {masterKey : MasterKey} {context : KeyWrapContext}
    {wrapped : EncryptedDataKey}
    (h : wrapDataKey cipher random masterKey context dataKey = .ok wrapped) :
    unwrapDataKey cipher masterKey context wrapped = .ok dataKey := by
  obtain ⟨nonce, encrypted, -, hencrypt, hbytes⟩ := wrapDataKey_eq_ok.mp h
  have hnonce : wrapped.nonce.bytes = nonce := by
    refine FixedBytes.ext ?_
    simp [EncryptedDataKey.nonce, hbytes, ← nonce.length_bytes]
  have hcipher : wrapped.ciphertextBytes = encrypted := by
    rw [EncryptedDataKey.ciphertextBytes, hbytes, List.drop_succ_cons]
    exact List.drop_left' nonce.length_bytes
  simp [unwrapDataKey, hnonce, hcipher, cipher.decrypt_encrypt hencrypt]

/-- What an encrypted secret is made of. -/
theorem encryptSecret_eq_ok {aad : AadV1} {plaintext : Plaintext} {payload : EncryptedPayload} :
    encryptSecret cipher random dataKey aad plaintext = .ok payload ↔
      random = some payload.nonce.bytes ∧
        cipher.encrypt dataKey.bytes payload.nonce.bytes aad.canonicalBytes plaintext.bytes =
          some payload.ciphertext.bytes ∧ payload.aadContext = aad.toStoredContext := by
  simp only [encryptSecret, Nonce.generate, fillRandom, Result.bind_eq_ok, Result.ofOption_eq_ok,
    Result.pure_eq_ok]
  constructor
  · rintro ⟨_, ⟨nonce, hnonce, rfl⟩, encrypted, hencrypted, ciphertext, hnew, rfl⟩
    exact ⟨hnonce, hencrypted.trans (congrArg some (Ciphertext.bytes_of_new hnew).symm), rfl⟩
  · obtain ⟨ciphertext, nonce, aadContext⟩ := payload
    rintro ⟨hnonce, hencrypted, rfl⟩
    exact ⟨nonce, ⟨nonce.bytes, hnonce, rfl⟩, _, hencrypted, ciphertext, Ciphertext.new_bytes _,
      rfl⟩

/-- **An encrypted secret decrypts under the data key and authenticated data it was encrypted
with.** -/
theorem decryptSecret_of_encryptSecret {aad : AadV1} {plaintext : Plaintext}
    {payload : EncryptedPayload}
    (h : encryptSecret cipher random dataKey aad plaintext = .ok payload) :
    decryptSecret cipher dataKey aad payload.nonce payload.ciphertext = .ok plaintext := by
  obtain ⟨-, hencrypt, -⟩ := encryptSecret_eq_ok.mp h
  simp [decryptSecret, cipher.decrypt_encrypt hencrypt]

end RoundTrip

/-! ### The encrypted content of a version -/

/-- The encrypted content of a version, with the data that has to be known to open it. -/
structure SealedVersion where
  aad : AadV1
  keyVersion : KeyVersion
  encryptedDataKey : EncryptedDataKey
  nonce : Nonce
  ciphertext : Ciphertext

namespace SealedVersion

variable (cipher : XChaCha20Poly1305) (ring : MasterKeyRing)

/-- The context its data key is wrapped in. -/
def keyWrapContext (s : SealedVersion) : KeyWrapContext :=
  ⟨s.aad.secretId, s.keyVersion⟩

/-- The wrapped data key unwraps with the ring's key of its version. -/
def HoldsDataKey (s : SealedVersion) (dataKey : DataKey) : Prop :=
  ∃ masterKey, ring.get s.keyVersion = .ok masterKey ∧
    unwrapDataKey cipher masterKey s.keyWrapContext s.encryptedDataKey = .ok dataKey

/-- The content opens to a plaintext with the keys of the ring. -/
def OpensTo (s : SealedVersion) (plaintext : Plaintext) : Prop :=
  ∃ dataKey, s.HoldsDataKey cipher ring dataKey ∧
    decryptSecret cipher dataKey s.aad s.nonce s.ciphertext = .ok plaintext

end SealedVersion

end Mipsorcu
