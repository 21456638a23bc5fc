import Mipsorcu.Database.Digest
import Mipsorcu.Foundation.Truth

/-!
# The tables of the secret store

`SecretDb` holds the tables the write, key rotation, alias and audit procedures work on, next to
the ledger. A procedure is one transaction: it returns the new tables, or raises and leaves the
old ones. Row locks (`for update`, the unique indexes, the lock on the chain state) make
concurrent calls that touch the same rows run one after the other.

The inserts carry the constraints of their tables, in the order the engine checks them.
-/

namespace Mipsorcu

/-! ### Rows -/

/-- A row of `secrets`. -/
structure SecretRow where
  id : Uuid
  currentVersionId : Option Uuid
  ownerUserId : Uuid
  classification : String
  /-- Microseconds, as `Sql.timestamptz` counts them. -/
  createdAt : ℤ
  deriving DecidableEq

/-- A row of `secret_versions`. -/
structure SecretVersionRow where
  id : Uuid
  secretId : Uuid
  version : ℤ
  ciphertext : List UInt8
  encryptedDataKey : List UInt8
  keyVersion : ℤ
  algorithm : String
  classification : String
  nonceOrIv : List UInt8
  aadContext : Json
  createdByUserId : Uuid
  createdByDeviceId : String
  createdAt : ℤ
  deriving DecidableEq

/-- A row of `audit_events`. -/
structure AuditEventRow where
  id : Uuid
  requestId : Uuid
  actorUserId : Option Uuid
  actorDeviceId : Option String
  action : String
  targetSecretId : Option Uuid
  result : String
  keyVersion : Option ℤ
  metadataJson : Json
  deriving DecidableEq

/-- A row of `secret_aliases`. -/
structure SecretAliasRow where
  id : Uuid
  secretId : Uuid
  ownerUserId : Uuid
  aliasCiphertext : List UInt8
  aliasNonce : List UInt8
  aliasKeyVersion : ℤ
  aliasFingerprint : List UInt8
  aliasFingerprintKeyVersion : ℤ
  aliasFingerprintSchemaVersion : ℤ
  aadContext : Json
  createdAt : ℤ
  deriving DecidableEq

/-! ### The engine and the tables -/

/-- The engine and the settings of a session, beyond what the ledger needs of it: the casts from
text, the order in which a `delete … returning` returns its rows, and the mode of the audit
metadata schema. -/
structure PostgresSession extends Postgres where
  /-- `text::uuid`. -/
  castUuid : String → Option Uuid
  /-- `text::integer`. -/
  castInteger : String → Option ℤ
  /-- `text::bigint`. -/
  castBigint : String → Option ℤ
  /-- `decode(text, 'hex')`. -/
  decodeHex : String → Option (List UInt8)
  /-- The rows a `delete … returning` on `secret_versions` deleted, in the order it returns them. -/
  returned : List SecretVersionRow → List SecretVersionRow
  /-- `audit_metadata_allowlist_mode() = 'strict'`. -/
  allowlistIsStrict : Bool
  castUuid_hyphenated : ∀ u, castUuid u.hyphenated = some u
  castInteger_digits : ∀ n : ℕ, castInteger (String.ofList (Nat.toDigits 10 n)) =
    if n ≤ 2147483647 then some (n : ℤ) else none
  castBigint_digits : ∀ n : ℕ, castBigint (String.ofList (Nat.toDigits 10 n)) =
    if n ≤ 9223372036854775807 then some (n : ℤ) else none
  decodeHex_hexEncode : ∀ bytes, decodeHex (String.ofList (hexEncode bytes)) = some bytes
  returned_perm : ∀ rows, (returned rows).Perm rows

/-- The tables. `users` holds the identifiers of `auth.users`. -/
structure SecretDb where
  users : List Uuid
  secrets : List SecretRow
  secretVersions : List SecretVersionRow
  auditEvents : List AuditEventRow
  secretAliases : List SecretAliasRow
  ledger : LedgerDb
  deriving DecidableEq

namespace SecretDb

/-- The row of a secret. -/
def secret? (db : SecretDb) (id : Uuid) : Option SecretRow :=
  db.secrets.find? fun s => s.id == id

/-- The retained versions of a secret. -/
def versionsOf (db : SecretDb) (secretId : Uuid) : List SecretVersionRow :=
  db.secretVersions.filter fun v => v.secretId == secretId

/-- The number of retained versions whose data key is wrapped under a master key. -/
def countAt (db : SecretDb) (keyVersion : ℤ) : ℕ :=
  db.secretVersions.countP fun v => v.keyVersion == keyVersion

/-- The primary keys of the secrets and of their versions. -/
structure PrimaryKeys (db : SecretDb) : Prop where
  secret_ids_nodup : (db.secrets.map SecretRow.id).Nodup
  version_ids_nodup : (db.secretVersions.map SecretVersionRow.id).Nodup

theorem PrimaryKeys.versionsOf_nodup {db : SecretDb} (h : db.PrimaryKeys) (secretId : Uuid) :
    ((db.versionsOf secretId).map SecretVersionRow.id).Nodup :=
  Keyed.nodup_filter h.version_ids_nodup _

end SecretDb

namespace Sql

/-- The tables of a new database. -/
def emptyStore (users : List Uuid) (signingPublicKeys : List LedgerSigningPublicKeyRow) :
    SecretDb where
  users := users
  secrets := []
  secretVersions := []
  auditEvents := []
  secretAliases := []
  ledger := emptyLedger signingPublicKeys

/-! ### Exceptions -/

def foreignKeyViolation (table constraint : String) : SqlError :=
  ⟨"insert or update on table \"" ++ table ++ "\" violates foreign key constraint \"" ++
    constraint ++ "\"", "23503"⟩

def uniqueViolation (constraint : String) : SqlError :=
  ⟨"duplicate key value violates unique constraint \"" ++ constraint ++ "\"", "23505"⟩

def checkViolation (table constraint : String) : SqlError :=
  ⟨"new row for relation \"" ++ table ++ "\" violates check constraint \"" ++ constraint ++ "\"",
    "23514"⟩

def integerOutOfRange : SqlError := ⟨"integer out of range", "22003"⟩

/-- A cast of a text that does not have the form of the type. -/
def invalidTextRepresentation (typeName : String) : SqlError :=
  ⟨"invalid input syntax for type " ++ typeName, "22P02"⟩

/-! ### JSON values -/

/-- `jsonb_typeof`. -/
def jsonbTypeof : Json → String
  | .null => "null"
  | .bool _ => "boolean"
  | .number _ => "number"
  | .string _ => "string"
  | .array _ => "array"
  | .object _ => "object"

/-- `value -> key`. -/
def member? (value : Json) (key : String) : Option Json :=
  match value with
  | .object members => members.lookup key
  | _ => none

/-- `value -> key ->> key'`. -/
def memberMemberText (value : Json) (key key' : String) : Option String :=
  (member? value key).bind fun inner => memberText inner key'

/-- `value ?& keys and value - keys = '{}'`: an object with exactly these keys. -/
def hasExactlyKeys (keys : List String) : Json → Bool
  | .object members =>
    (keys.all fun key => (members.lookup key).isSome) && members.all fun m => keys.contains m.1
  | _ => false

/-- `jsonb_typeof(value -> key) = typeName`. -/
def memberHasType (value : Json) (key typeName : String) : Bool :=
  (member? value key).any fun inner => jsonbTypeof inner == typeName

/-- `~ '^[1-9][0-9]*$'`. -/
def isPositiveDigits (text : String) : Bool :=
  match text.toList with
  | [] => false
  | c :: cs => c.isDigit && c != '0' && cs.all Char.isDigit

/-- A cast that may meet a null: null stays null. -/
def castNullable {α : Type} (cast : String → Option α) (error : SqlError) :
    Option String → Except SqlError (Option α)
  | none => .ok none
  | some text => match cast text with
    | none => .error error
    | some value => .ok (some value)

theorem castNullable_eq_ok {α : Type} {cast : String → Option α} {error : SqlError}
    {text : Option String} {value : Option α} :
    castNullable cast error text = .ok value ↔
      (text = none ∧ value = none) ∨ ∃ t v, text = some t ∧ cast t = some v ∧ value = some v := by
  cases text with
  | none => simp [castNullable, eq_comm]
  | some t => cases h : cast t <;> simp [castNullable, h, eq_comm]

/-! ### Inserts -/

/-- The insert into `secrets` of a row whose checks have been made: the owner has to exist. -/
def insertSecret (db : SecretDb) (row : SecretRow) : Except SqlError SecretDb := do
  Result.require (db.secrets.all fun s => s.id != row.id) (uniqueViolation "secrets_pkey")
  Result.require (db.users.contains row.ownerUserId)
    (foreignKeyViolation "secrets" "secrets_owner_user_id_fkey")
  pure { db with secrets := db.secrets ++ [row] }

/-- Another version of the secret has the nonce. -/
def nonceReuseDetected : SqlError := ⟨"nonce_reuse_detected", "23505"⟩

/-- The insert into `secret_versions` of a row whose checks have been made. A nonce that is in use
for the secret has an exception of its own. -/
def insertSecretVersion (db : SecretDb) (row : SecretVersionRow) : Except SqlError SecretDb := do
  Result.require (db.secretVersions.all fun v => v.id != row.id)
    (uniqueViolation "secret_versions_pkey")
  Result.require (db.secretVersions.all fun v => !(v.secretId == row.secretId &&
    v.version == row.version)) (uniqueViolation "secret_versions_secret_version_unique")
  Result.require (db.secretVersions.all fun v => !(v.secretId == row.secretId &&
    v.nonceOrIv == row.nonceOrIv)) nonceReuseDetected
  Result.require (db.secrets.any fun s => s.id == row.secretId)
    (foreignKeyViolation "secret_versions" "secret_versions_secret_id_fkey")
  Result.require (db.users.contains row.createdByUserId)
    (foreignKeyViolation "secret_versions" "secret_versions_created_by_user_id_fkey")
  pure { db with secretVersions := db.secretVersions ++ [row] }

theorem insertSecret_eq_ok {db db' : SecretDb} {row : SecretRow} :
    insertSecret db row = .ok db' ↔ (∀ s ∈ db.secrets, s.id ≠ row.id) ∧
      row.ownerUserId ∈ db.users ∧ db' = { db with secrets := db.secrets ++ [row] } := by
  simp only [insertSecret, Result.bind_eq_ok, Result.require_eq_ok, Result.pure_eq_ok,
    List.all_eq_true, bne_iff_ne, List.contains_iff_mem]
  constructor
  · rintro ⟨_, hfresh, _, huser, rfl⟩
    exact ⟨hfresh, huser, rfl⟩
  · rintro ⟨hfresh, huser, rfl⟩
    exact ⟨(), hfresh, (), huser, rfl⟩

theorem insertSecretVersion_eq_ok {db db' : SecretDb} {row : SecretVersionRow} :
    insertSecretVersion db row = .ok db' ↔ (∀ v ∈ db.secretVersions, v.id ≠ row.id) ∧
      (∀ v ∈ db.secretVersions, v.secretId = row.secretId → v.version ≠ row.version) ∧
      (∀ v ∈ db.secretVersions, v.secretId = row.secretId → v.nonceOrIv ≠ row.nonceOrIv) ∧
      (∃ s ∈ db.secrets, s.id = row.secretId) ∧ row.createdByUserId ∈ db.users ∧
      db' = { db with secretVersions := db.secretVersions ++ [row] } := by
  simp only [insertSecretVersion, Result.bind_eq_ok, Result.require_eq_ok, Result.pure_eq_ok,
    List.all_eq_true, List.any_eq_true, bne_iff_ne, Bool.not_eq_true', Bool.and_eq_false_imp,
    beq_iff_eq, beq_eq_false_iff_ne, List.contains_iff_mem]
  constructor
  · rintro ⟨_, hid, _, hversion, _, hnonce, _, hsecret, _, huser, rfl⟩
    exact ⟨hid, hversion, hnonce, hsecret, huser, rfl⟩
  · rintro ⟨hid, hversion, hnonce, hsecret, huser, rfl⟩
    exact ⟨(), hid, (), hversion, (), hnonce, (), hsecret, (), huser, rfl⟩

/-! ### Ledger entries given as JSON -/

/-- `nullif(text, '')`. -/
def nullifEmpty (text : Option String) : Option String :=
  text.filter fun t => t != ""

theorem nullifEmpty_some {text : String} (h : text ≠ "") :
    nullifEmpty (some text) = some text := by
  simp [nullifEmpty, Option.filter, h]

theorem hyphenated_ne_empty (u : Uuid) : u.hyphenated ≠ "" := fun h => by
  have hparse := Uuid.parse_hyphenated u
  rw [h] at hparse
  cases hparse

@[simp]
theorem castNullable_hyphenated (pg : PostgresSession) (error : SqlError) (u : Uuid) :
    castNullable pg.castUuid error (some u.hyphenated) = .ok (some u) := by
  simp [castNullable, pg.castUuid_hyphenated]

/-- `decode(substr(text, 3), 'hex')`. -/
def decodeBytea (pg : PostgresSession) (text : String) : Option (List UInt8) :=
  pg.decodeHex (String.ofList (text.toList.drop 2))

/-- The arguments `rpc_append_ledger_entry_from_jsonb` makes of an entry. -/
def ledgerArgsOfJsonb (pg : PostgresSession) (entry : Json) :
    Except SqlError AppendLedgerEntryArgs := do
  let uuid := castNullable pg.castUuid (invalidTextRepresentation "uuid")
  let integer := castNullable pg.castInteger (invalidTextRepresentation "integer")
  let bytea := castNullable (decodeBytea pg) invalidRpcInput
  let ledgerEntryId ← uuid (memberText entry "p_ledger_entry_id")
  let sequenceNo ← castNullable pg.castBigint (invalidTextRepresentation "bigint")
    (memberText entry "p_sequence_no")
  let requestId ← uuid (memberText entry "p_request_id")
  -- `nullif(…, '')` stands in the source for the nullable columns only
  let sourceEventId ← uuid (nullifEmpty (memberText entry "p_source_event_id"))
  let targetSecretId ← uuid (nullifEmpty (memberText entry "p_target_secret_id"))
  let targetSecretVersionId ← uuid (nullifEmpty (memberText entry "p_target_secret_version_id"))
  let actorUserId ← uuid (nullifEmpty (memberText entry "p_actor_user_id"))
  let canonicalizationVersion ← integer (memberText entry "p_canonicalization_version")
  let previousEntryHash ← bytea (memberText entry "p_previous_entry_hash")
  let entryHash ← bytea (memberText entry "p_entry_hash")
  let signature ← bytea (memberText entry "p_signature")
  let signatureKeyVersion ← integer (memberText entry "p_signature_key_version")
  pure { ledgerEntryId, sequenceNo, entryType := memberText entry "p_entry_type",
         sourceEventAt := memberText entry "p_source_event_at", requestId, sourceEventId,
         targetSecretId, targetSecretVersionId, actorUserId,
         actorDeviceId := nullifEmpty (memberText entry "p_actor_device_id"),
         result := memberText entry "p_result",
         errorCode := nullifEmpty (memberText entry "p_error_code"),
         payload := member? entry "p_payload", canonicalizationVersion, previousEntryHash,
         entryHash, hashAlgorithm := memberText entry "p_hash_algorithm", signature,
         signatureAlgorithm := memberText entry "p_signature_algorithm", signatureKeyVersion }

/-- Bad texts and numbers raise one exception. -/
def asInvalidRpcInput (error : SqlError) : SqlError :=
  if ["22P02", "22023", "22003", "22004"].contains error.errcode then invalidRpcInput else error

/-- `rpc_append_ledger_entry_from_jsonb`. -/
def rpcAppendLedgerEntryFromJsonb (pg : PostgresSession) (ledger : LedgerDb) (entry : Json) :
    Except SqlError (LedgerDb × AppendLedgerEntryRow) := do
  Result.require (jsonbTypeof entry == "object") invalidRpcInput
  (do
    let args ← ledgerArgsOfJsonb pg entry
    rpcAppendLedgerEntry pg.toPostgres ledger args).mapError asInvalidRpcInput

end Sql

end Mipsorcu
