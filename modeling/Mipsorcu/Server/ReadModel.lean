import Mipsorcu.Database.SecretStore
import Mipsorcu.Database.Timestamptz
import Mipsorcu.Secret.Read
import Mipsorcu.Secret.Write
import Mipsorcu.Server.LedgerExport

/-!
# Reading the current version of a secret

The server reads the current version with the caller's own token, so row level security decides
what the answer holds: `currentVersionRows` is that answer, as the REST layer prints it.
`fetchCurrentSecretVersion` takes any answer, picks the one row that is current and parses its
columns back into typed values.
-/

namespace Mipsorcu

/-- The errors of the API (`ApiError`). A bad request and an internal error carry the text of the
error they wrap, which only reaches the log; it is left out. -/
inductive ApiError where
  | forbidden (message : String)
  | notFound (message : String)
  | badRequest
  | decryptFailed
  | keyUnavailable
  | auditRecordFailed
  | ledgerAppendFailed
  | supabaseError (error : SupabaseRpcError)
  | dbIntegrityViolation (message : String)
  | internalInvariantViolation (message : String)
  | internalError
  deriving DecidableEq

/-! ### The answer -/

/-- An object of scalars with its members in key order comes back from `jsonb` as it was: the
deserialiser sorts the members again. -/
theorem Postgres.normalize_printJsonb_object (pg : Postgres) {members : List (String × Json)}
    (hkeys : (members.map Prod.fst).Pairwise (· < ·))
    (hscalar : ∀ m ∈ members, m.2.isContainer = false) :
    (pg.printJsonb (.object members)).normalize = .object members := by
  have hperm := pg.jsonbMembers_perm members
  have hmembers : SortedMap.ofList (Json.normalizeMembers (pg.jsonbMembers members)) = members := by
    rw [Json.normalizeMembers_of_scalar fun m hm => hscalar m (hperm.mem_iff.mp hm)]
    exact SortedMap.ofList_eq_of_perm (List.pairwise_map.mp hkeys) hperm
  simp only [Postgres.printJsonb, Json.normalize, hmembers]

/-- The columns of the joined secret. -/
structure SecretReadJoin where
  currentVersionId : String
  ownerUserId : String
  classification : String

/-- A row as the REST interface returns it. -/
structure SecretVersionReadRow where
  id : String
  secretId : String
  version : ℤ
  ciphertext : String
  encryptedDataKey : String
  keyVersion : ℤ
  algorithm : String
  classification : String
  nonceOrIv : String
  aadContext : Json
  createdByUserId : String
  createdAt : String
  secrets : SecretReadJoin

/-- The row the REST layer prints for a version and its secret. A version has a creation time from
the year 1 on. -/
def SecretVersionReadRow.ofRows (pg : Postgres) (v : SecretVersionRow) (s : SecretRow)
    (currentVersionId : Uuid) : SecretVersionReadRow where
  id := v.id.hyphenated
  secretId := v.secretId.hyphenated
  version := v.version
  ciphertext := byteaText v.ciphertext
  encryptedDataKey := byteaText v.encryptedDataKey
  keyVersion := v.keyVersion
  algorithm := v.algorithm
  classification := v.classification
  nonceOrIv := byteaText v.nonceOrIv
  aadContext := (pg.printJsonb v.aadContext).normalize
  createdByUserId := v.createdByUserId.hyphenated
  createdAt := Sql.printTimestamptz v.createdAt.toNat
  secrets := {
    currentVersionId := currentVersionId.hyphenated
    ownerUserId := s.ownerUserId.hyphenated
    classification := s.classification }

/-- The answer to a user: the policies show the current versions of the user's own secrets. -/
def currentVersionRows (pg : Postgres) (db : SecretDb) (user : OwnerUserId) (secretId : SecretId) :
    List SecretVersionReadRow :=
  (db.versionsOf secretId.uuid).flatMap fun v =>
    (db.secrets.filter fun s => s.id == v.secretId && s.ownerUserId == user.uuid &&
      s.currentVersionId == some v.id).map fun s => .ofRows pg v s v.id

/-! ### Parsing -/

/-- A row whose columns are parsed. -/
structure PreparedDecryptRow where
  secretId : SecretId
  secretVersionId : SecretVersionId
  version : SecretVersion
  ownerUserId : OwnerUserId
  classification : Classification
  createdAt : CreatedAt
  keyVersion : KeyVersion
  encryptedDataKey : EncryptedDataKey
  nonceOrIv : Nonce
  ciphertext : Ciphertext
  aadContext : Json

namespace PreparedDecryptRow

/-- The row with the claims of the caller. -/
def intoDecryptInput (row : PreparedDecryptRow) (claims : VerifiedJwtClaims) :
    DecryptCurrentSecretVersionInput where
  claims := claims
  secretId := row.secretId
  version := row.version
  currentVersion := row.version
  ownerUserId := row.ownerUserId
  classification := row.classification
  createdAt := row.createdAt
  keyVersion := row.keyVersion
  encryptedDataKey := row.encryptedDataKey
  nonceOrIv := row.nonceOrIv
  ciphertext := row.ciphertext
  aadContext := row.aadContext

end PreparedDecryptRow

/-- `decode_bytea`: the digits after the mark. -/
def decodeBytea (value : String) : Option (List UInt8) := do
  let digits ← stripByteaMark value
  hexDecode digits

@[simp]
theorem decodeBytea_byteaText (bytes : List UInt8) :
    decodeBytea (byteaText bytes) = some bytes := by
  simp [decodeBytea]

/-- `u32::try_from` of a number column, then `SecretVersion::new`. -/
def secretVersionOfI32 (value : ℤ) : Option SecretVersion :=
  if 0 ≤ value then (SecretVersion.new value.toNat).toOption else none

/-- `u32::try_from` of a number column, then `KeyVersion::new`. -/
def keyVersionOfI32 (value : ℤ) : Option KeyVersion :=
  if 0 ≤ value then (KeyVersion.new value.toNat).toOption else none

theorem secretVersionOfI32_eq_some {value : ℤ} {version : SecretVersion} :
    secretVersionOfI32 value = some version ↔ value = version.get := by
  unfold secretVersionOfI32
  split_ifs with h
  · rw [Result.toOption_eq_some, SecretVersion.new_eq_ok]
    omega
  · simp only [false_iff]
    omega

theorem keyVersionOfI32_eq_some {value : ℤ} {version : KeyVersion} :
    keyVersionOfI32 value = some version ↔ value = version.get := by
  unfold keyVersionOfI32
  split_ifs with h
  · rw [Result.toOption_eq_some, KeyVersion.new_eq_ok]
    omega
  · simp only [false_iff]
    omega

@[simp]
theorem secretVersionOfI32_get (version : SecretVersion) :
    secretVersionOfI32 (version.get : ℕ) = some version :=
  secretVersionOfI32_eq_some.mpr rfl

@[simp]
theorem keyVersionOfI32_get (keyVersion : KeyVersion) :
    keyVersionOfI32 (keyVersion.get : ℕ) = some keyVersion :=
  keyVersionOfI32_eq_some.mpr rfl

/-- A column that does not parse violates the integrity of the database. -/
def parseColumn {ε α : Type} (message : String) (result : Except ε α) : Except ApiError α :=
  result.mapError fun _ => .dbIntegrityViolation message

/-- `build_prepared_decrypt_row` with the messages of `parse_decrypt_row`. -/
def buildPreparedDecryptRow (row : SecretVersionReadRow) : Except ApiError PreparedDecryptRow := do
  let encryptedDataKey ← Result.ofOption (.dbIntegrityViolation "encrypted_data_key is invalid")
    (decodeBytea row.encryptedDataKey)
  let nonceOrIv ← Result.ofOption (.dbIntegrityViolation "nonce_or_iv is invalid")
    (decodeBytea row.nonceOrIv)
  let ciphertext ← Result.ofOption (.dbIntegrityViolation "ciphertext is invalid")
    (decodeBytea row.ciphertext)
  let secretId ← parseColumn "secret_id is invalid" (SecretId.parse row.secretId)
  let secretVersionId ← parseColumn "secret version id is invalid" (SecretVersionId.parse row.id)
  let version ← Result.ofOption (.dbIntegrityViolation "version is invalid")
    (secretVersionOfI32 row.version)
  let ownerUserId ← parseColumn "owner_user_id is invalid"
    (OwnerUserId.parse row.secrets.ownerUserId)
  let classification ← parseColumn "secret version classification is invalid"
    (Classification.new row.classification)
  let createdAt ← parseColumn "created_at is invalid" (CreatedAt.parse row.createdAt)
  let keyVersion ← Result.ofOption (.dbIntegrityViolation "key_version is invalid")
    (keyVersionOfI32 row.keyVersion)
  let encryptedDataKey ← parseColumn "encrypted_data_key is invalid"
    (EncryptedDataKey.parse encryptedDataKey)
  let nonceOrIv ← parseColumn "nonce_or_iv is invalid" (Nonce.parse nonceOrIv)
  let ciphertext ← parseColumn "ciphertext is invalid" (Ciphertext.new ciphertext)
  pure { secretId, secretVersionId, version, ownerUserId, classification, createdAt, keyVersion,
         encryptedDataKey, nonceOrIv, ciphertext, aadContext := row.aadContext }

/-- What the columns have to be before they are parsed. -/
def validateDecryptRowInvariants (row : SecretVersionReadRow) : Except ApiError Unit := do
  Result.require (row.algorithm == algorithmXChaCha20Poly1305)
    (.dbIntegrityViolation "secret version algorithm is invalid")
  Result.require (row.secrets.currentVersionId == row.id)
    (.dbIntegrityViolation "current_version_id does not match the selected version row")
  Result.require (row.createdByUserId == row.secrets.ownerUserId)
    (.dbIntegrityViolation "created_by_user_id does not match owner_user_id")
  Result.require (row.classification == row.secrets.classification)
    (.dbIntegrityViolation "secret version classification does not match secret classification")

/-- `parse_decrypt_row`. -/
def parseDecryptRow (row : SecretVersionReadRow) : Except ApiError PreparedDecryptRow := do
  validateDecryptRowInvariants row
  buildPreparedDecryptRow row

/-- Of the rows returned exactly one has to be the current one. -/
def selectSingleCurrentSecretVersionRow (rows : List SecretVersionReadRow) :
    Except ApiError SecretVersionReadRow :=
  match rows.filter fun row => row.secrets.currentVersionId == row.id with
  | [] => .error (.notFound "secret not found")
  | [row] => .ok row
  | current => .error (.internalInvariantViolation
      ("expected one current secret version row, got " ++ toString current.length))

/-- `FetchCurrentSecretVersionError`. -/
inductive FetchCurrentSecretVersionError where
  | upstream (error : SupabaseRpcError)
  | api (error : ApiError)

/-- `fetch_current_secret_version` with the answer to its request. -/
def fetchCurrentSecretVersion (answer : Except SupabaseRpcError (List SecretVersionReadRow)) :
    Except FetchCurrentSecretVersionError PreparedDecryptRow := do
  let rows ← answer.mapError .upstream
  (do
    let row ← selectSingleCurrentSecretVersionRow rows
    parseDecryptRow row).mapError .api

end Mipsorcu
