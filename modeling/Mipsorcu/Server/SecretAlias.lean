import Mipsorcu.Alias.Material
import Mipsorcu.Database.SecretAlias
import Mipsorcu.Server.ReadModel

/-!
# Aliases of secrets

The server seals an alias for its row, sends it to the alias procedures and finds it again by its
fingerprint. `resolveSecretRef` turns a reference into the secret it names: an identifier is its
own answer, and an alias is looked up, opened and compared with the one that was asked for.

A row that holds sealed material resolves exactly for the alias that was sealed
(`parseResolvedSecretAliasRow_row`), and a call that commits stores the material it was sent
(`aliasInserted_of_post`, `aliasRewritten_of_post`).
-/

namespace Mipsorcu

open Sql

/-! ### Parameters -/

/-- The parameters that every writing call takes. -/
structure AliasCallParams where
  requestId : String
  secretAliasId : String
  ownerUserId : String
  sourceEventAt : String

/-- The arguments after the casts of PostgREST. -/
def AliasCallParams.args (p : AliasCallParams) : Option AliasCallArgs := do
  let requestId ← Uuid.parse p.requestId
  let secretAliasId ← Uuid.parse p.secretAliasId
  let ownerUserId ← Uuid.parse p.ownerUserId
  pure { requestId := some requestId, secretAliasId := some secretAliasId,
         ownerUserId := some ownerUserId, sourceEventAt := some p.sourceEventAt }

/-- The parameters for the material of an alias. -/
structure AliasMaterialParams where
  aliasCiphertext : String
  aliasNonce : String
  aliasKeyVersion : ℕ
  aliasFingerprint : String
  aliasFingerprintKeyVersion : ℕ
  aliasFingerprintSchemaVersion : ℕ
  aadContext : Json

/-- The casts to the argument types; a number that does not fit fails the call. -/
def AliasMaterialParams.args (p : AliasMaterialParams) : Option AliasMaterialArgs := do
  let aliasCiphertext ← LedgerEntryRpcParams.castBytea p.aliasCiphertext
  let aliasNonce ← LedgerEntryRpcParams.castBytea p.aliasNonce
  let aliasKeyVersion ← LedgerEntryRpcParams.castInteger 2147483647 p.aliasKeyVersion
  let aliasFingerprint ← LedgerEntryRpcParams.castBytea p.aliasFingerprint
  let aliasFingerprintKeyVersion ←
    LedgerEntryRpcParams.castInteger 2147483647 p.aliasFingerprintKeyVersion
  let aliasFingerprintSchemaVersion ←
    LedgerEntryRpcParams.castInteger 2147483647 p.aliasFingerprintSchemaVersion
  pure { aliasCiphertext := some aliasCiphertext, aliasNonce := some aliasNonce,
         aliasKeyVersion := some aliasKeyVersion, aliasFingerprint := some aliasFingerprint,
         aliasFingerprintKeyVersion := some aliasFingerprintKeyVersion,
         aliasFingerprintSchemaVersion := some aliasFingerprintSchemaVersion,
         aadContext := some p.aadContext }

/-- `UpdateSecretAliasParams`. -/
structure UpdateSecretAliasParams where
  call : AliasCallParams
  material : AliasMaterialParams

/-- `CreateSecretAliasParams`. -/
structure CreateSecretAliasParams extends UpdateSecretAliasParams where
  secretId : String
  createdAt : String

/-- `build_update_params`. -/
def buildUpdateParams (requestId : RequestId) (prepared : PreparedAlias)
    (sourceEventAt : SourceEventAt) : UpdateSecretAliasParams where
  call := {
    requestId := requestId.asCanonicalString
    secretAliasId := prepared.secretAliasId.asCanonicalString
    ownerUserId := prepared.ownerUserId.asCanonicalString
    sourceEventAt := sourceEventAt.text }
  material := {
    aliasCiphertext := byteaText prepared.ciphertext.bytes
    aliasNonce := byteaText prepared.nonce.bytes.bytes
    aliasKeyVersion := prepared.aliasKeyVersion.get
    aliasFingerprint := byteaText prepared.aliasFingerprint.bytes.bytes
    aliasFingerprintKeyVersion := prepared.fingerprintKeyVersion.get
    aliasFingerprintSchemaVersion := prepared.fingerprintSchemaVersion
    aadContext := prepared.aadContext }

/-- `build_create_params`. -/
def buildCreateParams (requestId : RequestId) (prepared : PreparedAliasCreate)
    (sourceEventAt : SourceEventAt) : CreateSecretAliasParams where
  toUpdateSecretAliasParams := buildUpdateParams requestId prepared.toPreparedAlias sourceEventAt
  secretId := prepared.secretId.asCanonicalString
  createdAt := prepared.createdAt.asRfc3339Utc

/-! ### Calls -/

/-- The arguments of a call were not of their types. -/
def argumentOutOfRange : SupabaseRpcError :=
  .nonSuccessStatus 400 "value out of range for type"

/-- The request of `call_create_secret_alias`: the casts, then the procedure. The transaction
commits exactly if there is an answer. -/
def postCreateSecretAlias (pg : PostgresSession) (random : Uuid) (db : SecretDb)
    (params : CreateSecretAliasParams) : Except SupabaseRpcError (SecretDb × Uuid) := do
  let call ← Result.ofOption argumentOutOfRange params.call.args
  let secretId ← Result.ofOption argumentOutOfRange (Uuid.parse params.secretId)
  let material ← Result.ofOption argumentOutOfRange params.material.args
  let createdAt ← Result.ofOption argumentOutOfRange (timestamptz params.createdAt)
  (rpcCreateSecretAlias pg random db call (some secretId) material (some createdAt)).mapError
    SqlError.toRpcError

/-- The request of `call_update_secret_alias`. -/
def postUpdateSecretAlias (pg : PostgresSession) (random : Uuid) (db : SecretDb)
    (params : UpdateSecretAliasParams) : Except SupabaseRpcError (SecretDb × List UInt8) := do
  let call ← Result.ofOption argumentOutOfRange params.call.args
  let material ← Result.ofOption argumentOutOfRange params.material.args
  (rpcUpdateSecretAlias pg random db call material).mapError SqlError.toRpcError

/-- The request of `call_delete_secret_alias`. -/
def postDeleteSecretAlias (pg : PostgresSession) (random : Uuid) (db : SecretDb)
    (params : AliasCallParams) : Except SupabaseRpcError (SecretDb × List UInt8) := do
  let call ← Result.ofOption argumentOutOfRange params.args
  (rpcDeleteSecretAlias pg random db call).mapError SqlError.toRpcError

/-- `call_get_secret_alias_for_update`. -/
def callGetSecretAliasForUpdate (db : SecretDb) (ownerUserId : OwnerUserId)
    (secretAliasId : SecretAliasId) : Except SupabaseRpcError SecretId := do
  let secretId ← (rpcGetSecretAliasForUpdate db (Uuid.parse ownerUserId.asCanonicalString)
    (Uuid.parse secretAliasId.asCanonicalString)).mapError SqlError.toRpcError
  (SecretId.parse secretId.hyphenated).mapError fun _ =>
    .invalidResponse "get alias update context RPC returned invalid secret_id"

/-! ### Use cases -/

/-- `From<FetchCurrentSecretVersionError>`. -/
def ApiError.ofFetchError : FetchCurrentSecretVersionError → ApiError
  | .upstream error => .supabaseError error
  | .api error => error

section UseCases

variable (cipher : XChaCha20Poly1305) (hmac : HmacSha3) (keys : AliasKeys) (pg : PostgresSession)

/-- `create_secret_alias` up to its call: the answer to the read of the current version decides
whether the caller owns the secret. -/
def prepareCreateSecretAlias (answer : Except SupabaseRpcError (List SecretVersionReadRow))
    (id : Option (FixedBytes 16)) (nonce : Option (FixedBytes 24)) (requestId : RequestId)
    (claims : VerifiedJwtClaims) (secretId : SecretId) (a : NormalizedAlias)
    (createdAt : CreatedAt) (sourceEventAt : Option SourceEventAt) :
    Except ApiError CreateSecretAliasParams := do
  let current ← (fetchCurrentSecretVersion answer).mapError ApiError.ofFetchError
  Result.require (current.ownerUserId == claims.subjectUserId) (.forbidden "forbidden")
  let prepared ← (prepareAliasCreate cipher hmac keys id nonce secretId claims.subjectUserId a
    createdAt).mapError fun _ => .internalError
  let sourceEventAt ← Result.ofOption .internalError sourceEventAt
  pure (buildCreateParams requestId prepared sourceEventAt)

/-- `update_alias` after its lookup and up to its call. -/
def prepareUpdateAlias (nonce : Option (FixedBytes 24)) (requestId : RequestId)
    (claims : VerifiedJwtClaims) (secretAliasId : SecretAliasId) (secretId : SecretId)
    (newAlias : NormalizedAlias) (sourceEventAt : Option SourceEventAt) :
    Except ApiError UpdateSecretAliasParams := do
  let prepared ← (prepareAliasUpdate cipher hmac keys nonce secretAliasId secretId
    claims.subjectUserId newAlias).mapError fun _ => .internalError
  let sourceEventAt ← Result.ofOption .internalError sourceEventAt
  pure (buildUpdateParams requestId prepared sourceEventAt)

/-- `delete_alias` up to its call. -/
def prepareDeleteAlias (requestId : RequestId) (claims : VerifiedJwtClaims)
    (secretAliasId : SecretAliasId) (sourceEventAt : Option SourceEventAt) :
    Except ApiError AliasCallParams := do
  let sourceEventAt ← Result.ofOption .internalError sourceEventAt
  pure {
    requestId := requestId.asCanonicalString
    secretAliasId := secretAliasId.asCanonicalString
    ownerUserId := claims.subjectUserId.asCanonicalString
    sourceEventAt := sourceEventAt.text }

end UseCases

/-! ### Resolving a reference -/

/-- The answer of `rpc_resolve_secret_alias`. -/
structure SecretAliasResolveRow where
  id : String
  secretId : String
  aliasCiphertext : String
  aliasNonce : String
  aliasKeyVersion : ℤ
  aadContext : Json

/-- The row the REST layer prints. -/
def SecretAliasResolveRow.ofRow (pg : Postgres) (row : SecretAliasRow) :
    SecretAliasResolveRow where
  id := row.id.hyphenated
  secretId := row.secretId.hyphenated
  aliasCiphertext := byteaText row.aliasCiphertext
  aliasNonce := byteaText row.aliasNonce
  aliasKeyVersion := row.aliasKeyVersion
  aadContext := (pg.printJsonb row.aadContext).normalize

/-- The answer of `rpc_resolve_secret_alias` to the parameters of a lookup. -/
def resolveSecretAliasRows (pg : Postgres) (db : SecretDb) (ownerUserId : OwnerUserId)
    (fingerprint : AliasFingerprint) : Except SupabaseRpcError (List SecretAliasResolveRow) :=
  ((rpcResolveSecretAlias db (Uuid.parse ownerUserId.asCanonicalString)
    (LedgerEntryRpcParams.castBytea (byteaText fingerprint.bytes.bytes))).map fun rows =>
      rows.map (.ofRow pg)).mapError SqlError.toRpcError

/-- `call_resolve_secret_alias` on the rows of the answer. -/
def selectResolvedRow (rows : List SecretAliasResolveRow) :
    Except SupabaseRpcError (Option SecretAliasResolveRow) :=
  match rows with
  | [] => .ok none
  | [row] => .ok (some row)
  | rows => .error (.invalidResponse
      ("resolve alias RPC returned " ++ toString rows.length ++ " rows"))

/-- `ResolveSecretRefError`. -/
inductive ResolveSecretRefError where
  | upstream (error : SupabaseRpcError)
  | api (error : ApiError)
  deriving DecidableEq

section Resolve

variable (cipher : XChaCha20Poly1305) (hmac : HmacSha3) (keys : AliasKeys)

/-- `parse_alias_material`: opens a row of the answer. -/
def parseAliasMaterial (ownerUserId : OwnerUserId) (row : SecretAliasResolveRow) :
    Except ApiError DecryptedAlias := do
  let ciphertext ← Result.ofOption (.dbIntegrityViolation "secret alias ciphertext is invalid")
    (decodeBytea row.aliasCiphertext)
  let nonce ← Result.ofOption (.dbIntegrityViolation "secret alias nonce is invalid")
    (decodeBytea row.aliasNonce)
  let secretAliasId ← parseColumn "secret alias id is invalid" (SecretAliasId.parse row.id)
  let secretId ← parseColumn "secret alias secret_id is invalid" (SecretId.parse row.secretId)
  let aliasKeyVersion ← Result.ofOption
    (.dbIntegrityViolation "secret alias key_version is invalid")
    (keyVersionOfI32 row.aliasKeyVersion)
  let ciphertext ← parseColumn "secret alias ciphertext is invalid" (Ciphertext.new ciphertext)
  let nonce ← parseColumn "secret alias nonce is invalid" (Nonce.parse nonce)
  parseColumn "secret alias encrypted material is invalid"
    (decryptAliasRow cipher keys.encryptionKey secretAliasId secretId ownerUserId aliasKeyVersion
      ciphertext nonce row.aadContext)

/-- `parse_resolved_secret_alias_row`: opens the row the same way and compares. -/
def parseResolvedSecretAliasRow (ownerUserId : OwnerUserId) (row : SecretAliasResolveRow)
    (requestedAlias : NormalizedAlias) : Except ApiError SecretId := do
  let decrypted ← parseAliasMaterial cipher keys ownerUserId row
  Result.require (decrypted.text == requestedAlias)
    (.dbIntegrityViolation "resolved secret alias plaintext mismatch")
  pure decrypted.secretId

/-- `resolve_secret_ref` with the answers to lookups by fingerprint. -/
def resolveSecretRef (answer : AliasFingerprint →
    Except SupabaseRpcError (List SecretAliasResolveRow)) (secretRef : SecretRef)
    (ownerUserId : OwnerUserId) : Except ResolveSecretRefError SecretId :=
  match secretRef with
  | .byId secretId => .ok secretId
  | .byAlias requested => do
    let fingerprint := computeAliasFingerprint hmac keys.fingerprintKey ownerUserId requested
    let rows ← (answer fingerprint).mapError .upstream
    let row ← (selectResolvedRow rows).mapError .upstream
    let row ← Result.ofOption (.api (.notFound "secret not found")) row
    (parseResolvedSecretAliasRow cipher keys ownerUserId row requested).mapError .api

end Resolve

/-! ### Sealed rows -/

/-- The row that holds prepared material. -/
def PreparedAlias.row (p : PreparedAlias) (createdAt : ℤ) : SecretAliasRow where
  id := p.secretAliasId.uuid
  secretId := p.secretId.uuid
  ownerUserId := p.ownerUserId.uuid
  aliasCiphertext := p.ciphertext.bytes
  aliasNonce := p.nonce.bytes.bytes
  aliasKeyVersion := p.aliasKeyVersion.get
  aliasFingerprint := p.aliasFingerprint.bytes.bytes
  aliasFingerprintKeyVersion := p.fingerprintKeyVersion.get
  aliasFingerprintSchemaVersion := p.fingerprintSchemaVersion
  aadContext := p.aadContext
  createdAt := createdAt

theorem AliasAadV1.normalize_printJsonb (pg : Postgres) (aad : AliasAadV1) :
    (pg.printJsonb aad.toStoredContext).normalize = aad.toStoredContext :=
  pg.normalize_printJsonb_object (show aliasAadV1Fields.Pairwise (· < ·) by decide +kernel)
    (by simp [members, Json.nat, Json.isContainer])

section Sealed

variable {cipher : XChaCha20Poly1305} {hmac : HmacSha3} {keys : AliasKeys} {p : PreparedAlias}
  {a : NormalizedAlias}

/-- **A sealed row opens to the alias that was sealed.** -/
theorem PreparedAlias.Seals.parseAliasMaterial (h : p.Seals cipher hmac keys a) (pg : Postgres)
    (createdAt : ℤ) :
    parseAliasMaterial cipher keys p.ownerUserId (.ofRow pg (p.row createdAt)) =
      .ok ⟨p.secretAliasId, p.secretId, a⟩ := by
  have hid : SecretAliasId.parse p.secretAliasId.uuid.hyphenated = .ok p.secretAliasId :=
    SecretAliasId.parse_asCanonicalString _
  have hsecret : SecretId.parse p.secretId.uuid.hyphenated = .ok p.secretId :=
    SecretId.parse_asCanonicalString _
  have hopen : decryptAliasRow cipher keys.encryptionKey p.secretAliasId p.secretId p.ownerUserId
      p.aliasKeyVersion p.ciphertext p.nonce (pg.printJsonb p.aadContext).normalize =
        .ok ⟨p.secretAliasId, p.secretId, a⟩ := by
    rw [decryptAliasRow_eq_ok, h.aliasKeyVersion, h.aadContext, AliasAadV1.normalize_printJsonb]
    exact ⟨AliasAadV1.fromStoredContext_toStoredContext _, h.opens, rfl, rfl⟩
  simp only [Mipsorcu.parseAliasMaterial, SecretAliasResolveRow.ofRow, PreparedAlias.row,
    decodeBytea_byteaText, keyVersionOfI32_get, parseColumn, hid, hsecret, Ciphertext.new_bytes,
    Nonce.parse_bytes, hopen, Result.ofOption_some, Result.mapError_ok, Result.ok_bind]

/-- **A sealed row resolves for the alias that was sealed, and for no other.** -/
theorem parseResolvedSecretAliasRow_row (h : p.Seals cipher hmac keys a) (pg : Postgres)
    (createdAt : ℤ) (requested : NormalizedAlias) :
    parseResolvedSecretAliasRow cipher keys p.ownerUserId (.ofRow pg (p.row createdAt)) requested =
      if a = requested then .ok p.secretId
      else .error (.dbIntegrityViolation "resolved secret alias plaintext mismatch") := by
  rw [parseResolvedSecretAliasRow, h.parseAliasMaterial pg createdAt, Result.ok_bind]
  by_cases heq : a = requested <;> simp [Result.require, heq]

end Sealed

/-! ### What the requests store -/

variable {call : AliasCall}

theorem AliasCallParams.call?_of_args {p : AliasCallParams} {args : AliasCallArgs}
    (hargs : p.args = some args) (hcall : args.call? = some call) :
    Uuid.parse p.secretAliasId = some call.secretAliasId ∧
      Uuid.parse p.ownerUserId = some call.ownerUserId := by
  simp only [AliasCallParams.args, Option.bind_eq_bind, Option.pure_def, Option.bind_eq_some_iff,
    Option.some.injEq] at hargs
  obtain ⟨_, -, _, hid, _, howner, rfl⟩ := hargs
  cases hcall
  exact ⟨hid, howner⟩

variable {sourceEventAt : SourceEventAt} {requestId : RequestId}

theorem PreparedAlias.call?_args {p : PreparedAlias} {args : AliasCallArgs}
    (hargs : (buildUpdateParams requestId p sourceEventAt).call.args = some args)
    (hcall : args.call? = some call) :
    call.secretAliasId = p.secretAliasId.uuid ∧ call.ownerUserId = p.ownerUserId.uuid := by
  obtain ⟨hid, howner⟩ := AliasCallParams.call?_of_args hargs hcall
  simp only [buildUpdateParams, SecretAliasId.asCanonicalString, OwnerUserId.asCanonicalString,
    Uuid.parse_hyphenated, Option.some_inj] at hid howner
  exact ⟨hid.symm, howner.symm⟩

/-- The material of a prepared alias gets through the casts as it is. -/
theorem PreparedAlias.material?_args {p : PreparedAlias} {args : AliasMaterialArgs}
    {m : AliasMaterial}
    (hargs : (buildUpdateParams requestId p sourceEventAt).material.args = some args)
    (hm : args.material? = some m) :
    m = {
      aliasCiphertext := p.ciphertext.bytes
      aliasNonce := p.nonce.bytes.bytes
      aliasKeyVersion := p.aliasKeyVersion.get
      aliasFingerprint := p.aliasFingerprint.bytes.bytes
      aliasFingerprintKeyVersion := p.fingerprintKeyVersion.get
      aliasFingerprintSchemaVersion := p.fingerprintSchemaVersion
      aadContext := p.aadContext } := by
  simp only [AliasMaterialParams.args, buildUpdateParams, Option.bind_eq_bind, Option.pure_def,
    LedgerEntryRpcParams.castBytea_byteaText, LedgerEntryRpcParams.castInteger_eq_some,
    Option.bind_some, Option.bind_eq_some_iff, Option.some.injEq] at hargs
  obtain ⟨_, ⟨-, rfl⟩, _, ⟨-, rfl⟩, _, ⟨-, rfl⟩, rfl⟩ := hargs
  cases hm
  rfl

variable {db db' : SecretDb} {random : Uuid}

/-- **A committed create stores the material that was prepared.** -/
theorem aliasInserted_of_post {pg : PostgresSession} {p : PreparedAliasCreate} {id : Uuid}
    (h : postCreateSecretAlias pg random db (buildCreateParams requestId p sourceEventAt) =
      .ok (db', id)) :
    id = p.secretAliasId.uuid ∧ ∃ createdAt, AliasInserted db (p.row createdAt) db' := by
  simp only [postCreateSecretAlias, Result.bind_eq_ok, Result.ofOption_eq_ok,
    Result.mapError_eq_ok] at h
  obtain ⟨args, hargs, secretId, hsecretId, material, hmaterial, createdAt, -, hrpc⟩ := h
  obtain ⟨call, secret, m, created, hcall, hsecret, hm, -, hreturned, hinserted⟩ :=
    aliasInserted_of_create hrpc
  obtain ⟨hid, howner⟩ := PreparedAlias.call?_args hargs hcall
  obtain rfl := PreparedAlias.material?_args hmaterial hm
  obtain rfl : p.secretId.uuid = secret := by
    simp only [buildCreateParams, SecretId.asCanonicalString, Uuid.parse_hyphenated] at hsecretId
    exact Option.some.inj (hsecretId.trans hsecret)
  rw [hid, howner] at hinserted
  exact ⟨hreturned.trans hid, created, hinserted⟩

/-- The context of a prepared alias names its secret. -/
theorem PreparedAlias.Seals.secretId_of_check {cipher : XChaCha20Poly1305} {hmac : HmacSha3}
    {keys : AliasKeys} {p : PreparedAlias} {a : NormalizedAlias} {pg : PostgresSession}
    {secretId : Uuid} {m : AliasMaterial} (h : p.Seals cipher hmac keys a)
    (hm : m.aadContext = p.aadContext) (hcheck : checkAliasAadContext pg call secretId m = .ok ()) :
    p.secretId.uuid = secretId := by
  simp only [checkAliasAadContext, Result.bind_eq_ok, Result.require_eq_ok, Bool.and_eq_true,
    beq_iff_eq, exists_const] at hcheck
  obtain ⟨⟨⟨⟨-, hsecret⟩, -⟩, -⟩, -⟩ := hcheck
  rw [hm, h.aadContext] at hsecret
  exact Uuid.hyphenated_injective (Option.some.inj hsecret)

/-- A row got the prepared material: it is the row of the owner and the secret that the material was
prepared for, and no other row of the owner has its fingerprint. -/
structure AliasRewritten (db : SecretDb) (p : PreparedAlias) (db' : SecretDb) : Prop where
  exists_row : ∃ row ∈ db.secretAliases, row.id = p.secretAliasId.uuid ∧
    row.ownerUserId = p.ownerUserId.uuid ∧ row.secretId = p.secretId.uuid
  unique : ∀ row ∈ db.secretAliases, row.id ≠ p.secretAliasId.uuid →
    row.ownerUserId = p.ownerUserId.uuid → row.aliasFingerprint ≠ p.aliasFingerprint.bytes.bytes
  secrets : db'.secrets = db.secrets
  aliases : db'.secretAliases = db.secretAliases.map fun row =>
    if row.id = p.secretAliasId.uuid then p.row row.createdAt else row

/-- **A committed update stores the material that was prepared**, in the row of the secret that it
was prepared for. -/
theorem aliasRewritten_of_post {cipher : XChaCha20Poly1305} {hmac : HmacSha3} {keys : AliasKeys}
    {pg : PostgresSession} {p : PreparedAlias} {a : NormalizedAlias} {fingerprint : List UInt8}
    (hids : (db.secretAliases.map SecretAliasRow.id).Nodup) (hseals : p.Seals cipher hmac keys a)
    (h : postUpdateSecretAlias pg random db (buildUpdateParams requestId p sourceEventAt) =
      .ok (db', fingerprint)) : AliasRewritten db p db' := by
  simp only [postUpdateSecretAlias, Result.bind_eq_ok, Result.ofOption_eq_ok,
    Result.mapError_eq_ok] at h
  obtain ⟨args, hargs, material, hmaterial, hrpc⟩ := h
  obtain ⟨call, m, existing, hcall, hm, hreplaced⟩ := aliasReplaced_of_update hrpc
  obtain ⟨hid, howner⟩ := PreparedAlias.call?_args hargs hcall
  obtain rfl := PreparedAlias.material?_args hmaterial hm
  have hexisting : existing.id = p.secretAliasId.uuid := hreplaced.id.trans hid
  have hsame : existing.ownerUserId = p.ownerUserId.uuid := hreplaced.owner.trans howner
  have hsecret : existing.secretId = p.secretId.uuid :=
    (hseals.secretId_of_check rfl hreplaced.context).symm
  refine ⟨⟨existing, hreplaced.mem, hexisting, hsame, hsecret⟩, ?_, hreplaced.secrets, ?_⟩
  · intro row hrow hne hrowOwner
    exact hreplaced.unique row hrow (hexisting ▸ hne) (hrowOwner.trans hsame.symm)
  · rw [hreplaced.aliases, hid]
    refine List.map_congr_left fun row hrow => ?_
    split_ifs with hrowId
    · -- the identifier is a key, so that this is the row that was found
      obtain rfl : row = existing :=
        List.inj_on_of_nodup_map hids hrow hreplaced.mem (hrowId.trans hexisting.symm)
      rw [replaceMaterial, PreparedAlias.row, hexisting, hsame, hsecret]
    · rfl

/-- **A committed delete removes the row.** -/
theorem aliasRemoved_of_post {pg : PostgresSession} {claims : VerifiedJwtClaims}
    {secretAliasId : SecretAliasId} {sourceEventAt : Option SourceEventAt}
    {params : AliasCallParams} {fingerprint : List UInt8}
    (hparams : prepareDeleteAlias requestId claims secretAliasId sourceEventAt = .ok params)
    (h : postDeleteSecretAlias pg random db params = .ok (db', fingerprint)) :
    db'.secrets = db.secrets ∧ db'.secretAliases = db.secretAliases.filter fun row =>
      row.id != secretAliasId.uuid := by
  simp only [prepareDeleteAlias, Result.bind_eq_ok, Result.ofOption_eq_ok,
    Result.pure_eq_ok] at hparams
  obtain ⟨time, -, rfl⟩ := hparams
  simp only [postDeleteSecretAlias, Result.bind_eq_ok, Result.ofOption_eq_ok,
    Result.mapError_eq_ok] at h
  obtain ⟨args, hargs, hrpc⟩ := h
  obtain ⟨call, hcall, hremoved⟩ := aliasRemoved_of_delete hrpc
  obtain ⟨hid, -⟩ := AliasCallParams.call?_of_args hargs hcall
  simp only [SecretAliasId.asCanonicalString, Uuid.parse_hyphenated, Option.some_inj] at hid
  exact ⟨hremoved.secrets, hid ▸ hremoved.aliases⟩

/-- The rows a lookup finds: those of the owner with the fingerprint. -/
theorem resolveSecretAliasRows_eq_ok (pg : Postgres) (db : SecretDb) (ownerUserId : OwnerUserId)
    (fingerprint : AliasFingerprint) :
    resolveSecretAliasRows pg db ownerUserId fingerprint =
      .ok ((db.secretAliases.filter fun row => row.ownerUserId == ownerUserId.uuid &&
        row.aliasFingerprint == fingerprint.bytes.bytes).map (.ofRow pg)) := by
  simp only [resolveSecretAliasRows, rpcResolveSecretAlias, OwnerUserId.asCanonicalString,
    Uuid.parse_hyphenated, LedgerEntryRpcParams.castBytea_byteaText, Result.ofOption_some,
    Result.ok_bind, fingerprint.bytes.length_bytes, beq_self_eq_true]
  rfl

end Mipsorcu
