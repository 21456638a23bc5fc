import Mipsorcu.Alias.Input
import Mipsorcu.Secret.Read

/-!
# The encrypted material of an alias

An alias is stored encrypted, bound by `AliasAadV1` to its row, its secret and its owner, and found
by a keyed fingerprint. `prepareAliasCreate` and `prepareAliasUpdate` make the material and
`decryptAliasRow` opens it: a row opens to the alias that was sealed for it
(`decryptAliasRow_eq_ok`, `PreparedAlias.Seals`).
-/

namespace Mipsorcu

/-! ### Identifiers and keys -/

/-- The identifier of an alias: a UUID of version 4. -/
structure SecretAliasId where
  uuid : Uuid
  version_eq : uuid.version = 4

namespace SecretAliasId

@[ext]
theorem ext {a b : SecretAliasId} (h : a.uuid = b.uuid) : a = b := by
  cases a
  cases b
  simp_all

instance : DecidableEq SecretAliasId := fun a b =>
  decidable_of_iff (a.uuid = b.uuid) ⟨ext, congrArg uuid⟩

/-- `SecretAliasId::generate`. -/
def generate (random : Option (FixedBytes 16)) : Except CryptoError SecretAliasId := do
  let bytes ← fillRandom random
  pure ⟨Uuid.ofRandomBytes bytes, Uuid.version_ofRandomBytes bytes⟩

/-- `SecretAliasId::parse`: only version 4 is accepted. -/
def parse (value : String) : Except AadError SecretAliasId :=
  match Uuid.parse value with
  | none => .error (.invalidUuid "secret_alias_id" value)
  | some uuid =>
    if h : uuid.version = 4 then .ok ⟨uuid, h⟩
    else .error (.invalidUuidVersion "secret_alias_id" value "v4")

/-- The hyphenated text in lower case. -/
def asCanonicalString (id : SecretAliasId) : String :=
  id.uuid.hyphenated

@[simp]
theorem parse_asCanonicalString (id : SecretAliasId) : parse id.asCanonicalString = .ok id := by
  simp [parse, asCanonicalString, id.version_eq]

end SecretAliasId

/-- The key that seals aliases. -/
structure AliasEncryptionKey where
  bytes : FixedBytes 32

/-- The key of the fingerprints. -/
structure AliasFingerprintKey where
  bytes : FixedBytes 32

/-- What the table is searched by. -/
structure AliasFingerprint where
  bytes : FixedBytes 32
  deriving DecidableEq

/-! ### Authenticated data -/

/-- `AliasAadV1`. -/
structure AliasAadV1 where
  secretAliasId : SecretAliasId
  secretId : SecretId
  ownerUserId : OwnerUserId
  aliasKeyVersion : KeyVersion
  deriving DecidableEq

namespace AliasAadV1

/-- The only version of the context. -/
def aliasAadVersionV1 : ℕ := 1

/-- The fields of a stored context, no more and no less. -/
def aliasAadV1Fields : List String :=
  ["aad_version", "alias_key_version", "owner_user_id", "secret_alias_id", "secret_id"]

/-- The members of the canonical form and of the stored context, both in key order. -/
def members (aad : AliasAadV1) : List (String × Json) := [
  ("aad_version", .nat aliasAadVersionV1),
  ("alias_key_version", .nat aad.aliasKeyVersion.get),
  ("owner_user_id", .string aad.ownerUserId.asCanonicalString),
  ("secret_alias_id", .string aad.secretAliasId.asCanonicalString),
  ("secret_id", .string aad.secretId.asCanonicalString)]

/-- The associated data of the cipher. -/
def canonicalBytes (aad : AliasAadV1) : List UInt8 :=
  (Json.object aad.members).toBytes

/-- The `aad_context` column. -/
def toStoredContext (aad : AliasAadV1) : Json :=
  .object aad.members

/-- Missing fields are reported before unknown ones. -/
def validateAliasAadV1FieldSet (object : List (String × Json)) : Except AadError Unit := do
  Result.forEach (fun field => (AadV1.requiredValue object field).map fun _ => ()) aliasAadV1Fields
  match object.find? fun m => !aliasAadV1Fields.contains m.1 with
  | some m => .error (.unexpectedField m.1)
  | none => .ok ()

/-- `AliasAadV1::from_stored_context`. -/
def fromStoredContext (context : Json) : Except AadError AliasAadV1 :=
  match context with
  | .object object => do
    validateAliasAadV1FieldSet object
    let _ ← AadV1.parseAadVersion (← AadV1.requiredValue object "aad_version")
    let secretAliasId ← AadV1.parseRequiredString object "secret_alias_id"
    let secretId ← AadV1.parseRequiredString object "secret_id"
    let ownerUserId ← AadV1.parseRequiredString object "owner_user_id"
    let aliasKeyVersion ← AadV1.parsePositiveInteger
      (← AadV1.requiredValue object "alias_key_version") "alias_key_version"
    let secretAliasId ← SecretAliasId.parse secretAliasId
    let secretId ← SecretId.parse secretId
    let ownerUserId ← OwnerUserId.parse ownerUserId
    let aliasKeyVersion ← (KeyVersion.new aliasKeyVersion).mapError
      fun _ => .invalidPositiveInteger "alias_key_version" (toString aliasKeyVersion)
    pure { secretAliasId, secretId, ownerUserId, aliasKeyVersion }
  | _ => .error .expectedJsonObject

/-- **The stored context of the data reads back as the data.** -/
theorem fromStoredContext_toStoredContext (aad : AliasAadV1) :
    fromStoredContext aad.toStoredContext = .ok aad := by
  have hversion : AadV1.parsePositiveInteger (.nat aad.aliasKeyVersion.get) "alias_key_version" =
      .ok aad.aliasKeyVersion.get := by
    have hpos := aad.aliasKeyVersion.number.pos
    have hlt := aad.aliasKeyVersion.number.lt
    have h64 : aad.aliasKeyVersion.get < 18446744073709551616 := hlt.trans (by decide)
    simp only [AadV1.parsePositiveInteger, Json.nat, AadV1.asU64, if_pos h64]
    exact if_pos ⟨hpos, hlt⟩
  have hfields : validateAliasAadV1FieldSet aad.members = .ok () := rfl
  have haadVersion : AadV1.requiredValue aad.members "aad_version" =
    .ok (.nat aliasAadVersionV1) := rfl
  have hsupported : AadV1.parseAadVersion (.nat aliasAadVersionV1) = .ok aliasAadVersionV1 := rfl
  have haliasId : AadV1.parseRequiredString aad.members "secret_alias_id" =
    .ok aad.secretAliasId.asCanonicalString := rfl
  have hsecretId : AadV1.parseRequiredString aad.members "secret_id" =
    .ok aad.secretId.asCanonicalString := rfl
  have howner : AadV1.parseRequiredString aad.members "owner_user_id" =
    .ok aad.ownerUserId.asCanonicalString := rfl
  have hrequired : AadV1.requiredValue aad.members "alias_key_version" =
    .ok (.nat aad.aliasKeyVersion.get) := rfl
  simp only [fromStoredContext, toStoredContext, hfields, haadVersion, hsupported, haliasId,
    hsecretId, howner, hrequired, hversion, Result.ok_bind, SecretAliasId.parse_asCanonicalString,
    SecretId.parse_asCanonicalString, OwnerUserId.parse_asCanonicalString, KeyVersion.new_get,
    Result.mapError_ok]
  rfl

/-- **The canonical bytes determine the data.** -/
theorem canonicalBytes_injective : Function.Injective canonicalBytes := fun a b h => by
  have hcontext : a.toStoredContext = b.toStoredContext := Json.toBytes_injective h
  have hread := congrArg fromStoredContext hcontext
  rw [fromStoredContext_toStoredContext, fromStoredContext_toStoredContext] at hread
  exact Except.ok.inj hread

end AliasAadV1

/-! ### Encryption -/

/-- `EncryptedAlias`. -/
structure EncryptedAlias where
  ciphertext : Ciphertext
  nonce : Nonce
  deriving DecidableEq

/-- `encrypt_alias`, under a nonce of its own. -/
def encryptAlias (cipher : XChaCha20Poly1305) (random : Option (FixedBytes 24))
    (encryptionKey : AliasEncryptionKey) (aad : AliasAadV1) (a : NormalizedAlias) :
    Except CryptoError EncryptedAlias := do
  let nonce ← Nonce.generate random
  let encrypted ← Result.ofOption .encryptionFailed
    (cipher.encrypt encryptionKey.bytes nonce.bytes aad.canonicalBytes a.asBytes)
  let ciphertext ← Ciphertext.new encrypted
  pure { ciphertext, nonce }

/-- `decrypt_alias`: what is opened has to be a normalized alias again. -/
def decryptAlias (cipher : XChaCha20Poly1305) (encryptionKey : AliasEncryptionKey)
    (aad : AliasAadV1) (nonce : Nonce) (ciphertext : Ciphertext) :
    Except CryptoError NormalizedAlias := do
  let plaintext ← Result.ofOption .decryptionFailed
    (cipher.decrypt encryptionKey.bytes nonce.bytes aad.canonicalBytes ciphertext.bytes)
  let plaintext ← Result.ofOption .decryptionFailed (utf8String? plaintext)
  (NormalizedAlias.parse plaintext).mapError fun _ => .decryptionFailed

/-- **An encrypted alias decrypts under the data it was encrypted with.** -/
theorem decryptAlias_of_encryptAlias {cipher : XChaCha20Poly1305} {random : Option (FixedBytes 24)}
    {encryptionKey : AliasEncryptionKey} {aad : AliasAadV1} {a : NormalizedAlias}
    {encrypted : EncryptedAlias}
    (h : encryptAlias cipher random encryptionKey aad a = .ok encrypted) :
    decryptAlias cipher encryptionKey aad encrypted.nonce encrypted.ciphertext = .ok a := by
  simp only [encryptAlias, Result.bind_eq_ok, Result.ofOption_eq_ok, Result.pure_eq_ok] at h
  obtain ⟨nonce, -, bytes, hencrypt, ciphertext, hnew, rfl⟩ := h
  rw [← Ciphertext.bytes_of_new hnew] at hencrypt
  simp [decryptAlias, cipher.decrypt_encrypt hencrypt, NormalizedAlias.asBytes]

/-! ### Fingerprints -/

/-- HMAC-SHA3-256 under a key of 32 bytes. -/
abbrev HmacSha3 := FixedBytes 32 → List UInt8 → FixedBytes 32

/-- It separates fingerprints from other uses of the key. -/
def fingerprintDomain : String := "mipsorcu:v1:secret-alias-fingerprint"

/-- The parts fed to the hash, one after the other. -/
def fingerprintInput (ownerUserId : OwnerUserId) (a : NormalizedAlias) : List UInt8 :=
  utf8Bytes fingerprintDomain ++ utf8Bytes ownerUserId.asCanonicalString ++ a.asBytes

/-- `compute_alias_fingerprint`. -/
def computeAliasFingerprint (hmac : HmacSha3) (fingerprintKey : AliasFingerprintKey)
    (ownerUserId : OwnerUserId) (a : NormalizedAlias) : AliasFingerprint :=
  ⟨hmac fingerprintKey.bytes (fingerprintInput ownerUserId a)⟩

/-! ### Preparing an alias -/

/-- The keys of the aliases and their versions, fixed by the configuration of the server. -/
structure AliasKeys where
  encryptionKey : AliasEncryptionKey
  encryptionKeyVersion : KeyVersion
  fingerprintKey : AliasFingerprintKey
  fingerprintKeyVersion : KeyVersion

/-- `AliasFingerprintSchemaVersion::V1`. -/
def aliasFingerprintSchemaVersionV1 : ℕ := 1

/-- The material of an alias for a row: the fields that `PreparedAliasCreate` and
`PreparedAliasUpdate` share. -/
structure PreparedAlias where
  secretAliasId : SecretAliasId
  secretId : SecretId
  ownerUserId : OwnerUserId
  ciphertext : Ciphertext
  nonce : Nonce
  aliasKeyVersion : KeyVersion
  aliasFingerprint : AliasFingerprint
  fingerprintKeyVersion : KeyVersion
  fingerprintSchemaVersion : ℕ
  aadContext : Json

/-- `PreparedAliasCreate`. -/
structure PreparedAliasCreate extends PreparedAlias where
  createdAt : CreatedAt

section Prepare

variable (cipher : XChaCha20Poly1305) (hmac : HmacSha3) (keys : AliasKeys)

/-- `prepare_alias_update`: seals the alias for the row. -/
def prepareAliasUpdate (nonce : Option (FixedBytes 24)) (secretAliasId : SecretAliasId)
    (secretId : SecretId) (ownerUserId : OwnerUserId) (newAlias : NormalizedAlias) :
    Except CryptoError PreparedAlias := do
  let aad : AliasAadV1 := ⟨secretAliasId, secretId, ownerUserId, keys.encryptionKeyVersion⟩
  let encrypted ← encryptAlias cipher nonce keys.encryptionKey aad newAlias
  pure {
    secretAliasId, secretId, ownerUserId
    ciphertext := encrypted.ciphertext
    nonce := encrypted.nonce
    aliasKeyVersion := keys.encryptionKeyVersion
    aliasFingerprint := computeAliasFingerprint hmac keys.fingerprintKey ownerUserId newAlias
    fingerprintKeyVersion := keys.fingerprintKeyVersion
    fingerprintSchemaVersion := aliasFingerprintSchemaVersionV1
    aadContext := aad.toStoredContext }

/-- `prepare_alias_create`: the same for a row with a new identifier. -/
def prepareAliasCreate (id : Option (FixedBytes 16)) (nonce : Option (FixedBytes 24))
    (secretId : SecretId) (ownerUserId : OwnerUserId) (aliasInput : NormalizedAlias)
    (createdAt : CreatedAt) : Except CryptoError PreparedAliasCreate := do
  let secretAliasId ← SecretAliasId.generate id
  let prepared ← prepareAliasUpdate cipher hmac keys nonce secretAliasId secretId ownerUserId
    aliasInput
  pure { toPreparedAlias := prepared, createdAt }

end Prepare

/-! ### Opening a row -/

/-- `DecryptedAlias`. -/
structure DecryptedAlias where
  secretAliasId : SecretAliasId
  secretId : SecretId
  text : NormalizedAlias
  deriving DecidableEq

/-- `decrypt_alias_row`: the stored context has to be that of the columns. -/
def decryptAliasRow (cipher : XChaCha20Poly1305) (encryptionKey : AliasEncryptionKey)
    (secretAliasId : SecretAliasId) (secretId : SecretId) (ownerUserId : OwnerUserId)
    (aliasKeyVersion : KeyVersion) (ciphertext : Ciphertext) (nonce : Nonce) (aadContext : Json) :
    Except SecretDecryptError DecryptedAlias := do
  let storedAad ← (AliasAadV1.fromStoredContext aadContext).mapError .aad
  let rowAad : AliasAadV1 := ⟨secretAliasId, secretId, ownerUserId, aliasKeyVersion⟩
  Result.require (storedAad.canonicalBytes == rowAad.canonicalBytes)
    (.integrity .aadContextMismatch)
  let text ← (decryptAlias cipher encryptionKey rowAad nonce ciphertext).mapError .crypto
  pure { secretAliasId, secretId, text }

/-- The material seals an alias for its row: the context is the row's and the content opens to the
alias. -/
structure PreparedAlias.Seals (cipher : XChaCha20Poly1305) (hmac : HmacSha3) (keys : AliasKeys)
    (p : PreparedAlias) (a : NormalizedAlias) : Prop where
  aliasKeyVersion : p.aliasKeyVersion = keys.encryptionKeyVersion
  fingerprint : p.aliasFingerprint =
    computeAliasFingerprint hmac keys.fingerprintKey p.ownerUserId a
  fingerprintKeyVersion : p.fingerprintKeyVersion = keys.fingerprintKeyVersion
  fingerprintSchemaVersion : p.fingerprintSchemaVersion = aliasFingerprintSchemaVersionV1
  aadContext : p.aadContext = AliasAadV1.toStoredContext
    ⟨p.secretAliasId, p.secretId, p.ownerUserId, keys.encryptionKeyVersion⟩
  opens : decryptAlias cipher keys.encryptionKey
    ⟨p.secretAliasId, p.secretId, p.ownerUserId, keys.encryptionKeyVersion⟩ p.nonce
      p.ciphertext = .ok a

section Sealing

variable {cipher : XChaCha20Poly1305} {hmac : HmacSha3} {keys : AliasKeys}

theorem prepareAliasUpdate_eq_ok {nonce : Option (FixedBytes 24)} {secretAliasId : SecretAliasId}
    {secretId : SecretId} {ownerUserId : OwnerUserId} {a : NormalizedAlias} {p : PreparedAlias}
    (h : prepareAliasUpdate cipher hmac keys nonce secretAliasId secretId ownerUserId a = .ok p) :
    p.secretAliasId = secretAliasId ∧ p.secretId = secretId ∧ p.ownerUserId = ownerUserId ∧
      p.Seals cipher hmac keys a := by
  simp only [prepareAliasUpdate, Result.bind_eq_ok, Result.pure_eq_ok] at h
  obtain ⟨encrypted, hencrypt, rfl⟩ := h
  exact ⟨rfl, rfl, rfl, rfl, rfl, rfl, rfl, rfl, decryptAlias_of_encryptAlias hencrypt⟩

theorem prepareAliasCreate_eq_ok {id : Option (FixedBytes 16)} {nonce : Option (FixedBytes 24)}
    {secretId : SecretId} {ownerUserId : OwnerUserId} {a : NormalizedAlias} {createdAt : CreatedAt}
    {p : PreparedAliasCreate}
    (h : prepareAliasCreate cipher hmac keys id nonce secretId ownerUserId a createdAt = .ok p) :
    p.secretId = secretId ∧ p.ownerUserId = ownerUserId ∧ p.createdAt = createdAt ∧
      p.Seals cipher hmac keys a := by
  simp only [prepareAliasCreate, Result.bind_eq_ok, Result.pure_eq_ok] at h
  obtain ⟨secretAliasId, -, prepared, hprepared, rfl⟩ := h
  obtain ⟨-, hsecret, howner, hseals⟩ := prepareAliasUpdate_eq_ok hprepared
  exact ⟨hsecret, howner, rfl, hseals⟩

/-- **A row opens to an alias** if its context is the one of its columns and the content opens to
the alias under it. -/
theorem decryptAliasRow_eq_ok {encryptionKey : AliasEncryptionKey} {secretAliasId : SecretAliasId}
    {secretId : SecretId} {ownerUserId : OwnerUserId} {aliasKeyVersion : KeyVersion}
    {ciphertext : Ciphertext} {nonce : Nonce} {aadContext : Json} {d : DecryptedAlias} :
    decryptAliasRow cipher encryptionKey secretAliasId secretId ownerUserId aliasKeyVersion
      ciphertext nonce aadContext = .ok d ↔
      AliasAadV1.fromStoredContext aadContext =
        .ok ⟨secretAliasId, secretId, ownerUserId, aliasKeyVersion⟩ ∧
      decryptAlias cipher encryptionKey ⟨secretAliasId, secretId, ownerUserId, aliasKeyVersion⟩
        nonce ciphertext = .ok d.text ∧
      d.secretAliasId = secretAliasId ∧ d.secretId = secretId := by
  simp only [decryptAliasRow, Result.bind_eq_ok, Result.mapError_eq_ok, Result.require_eq_ok,
    beq_iff_eq, Result.pure_eq_ok]
  constructor
  · rintro ⟨storedAad, hstored, _, hbytes, text, hdecrypt, rfl⟩
    rw [AliasAadV1.canonicalBytes_injective hbytes] at hstored
    exact ⟨hstored, hdecrypt, rfl, rfl⟩
  · obtain ⟨id, secret, text⟩ := d
    rintro ⟨hstored, hdecrypt, rfl, rfl⟩
    exact ⟨_, hstored, (), rfl, text, hdecrypt, rfl⟩

end Sealing

end Mipsorcu
