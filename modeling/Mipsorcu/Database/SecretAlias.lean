import Mipsorcu.Database.WriteSecretVersion

/-!
# The alias procedures

An owner may give a secret one encrypted alias; a keyed fingerprint of it makes exact lookups
possible. `rpc_create_secret_alias`, `rpc_update_secret_alias` and `rpc_delete_secret_alias` change
the alias table and record a success event in the same transaction; the others only read.

None of them touches the secrets, their versions or the ledger (`AliasEffect`).
-/

namespace Mipsorcu

namespace Sql

/-! ### Arguments -/

/-- The encrypted alias and its fingerprint, as both writing procedures take them. -/
structure AliasMaterial where
  aliasCiphertext : List UInt8
  aliasNonce : List UInt8
  aliasKeyVersion : ℤ
  aliasFingerprint : List UInt8
  aliasFingerprintKeyVersion : ℤ
  aliasFingerprintSchemaVersion : ℤ
  aadContext : Json

/-- The arguments for the material; each may be null. -/
structure AliasMaterialArgs where
  aliasCiphertext : Option (List UInt8)
  aliasNonce : Option (List UInt8)
  aliasKeyVersion : Option ℤ
  aliasFingerprint : Option (List UInt8)
  aliasFingerprintKeyVersion : Option ℤ
  aliasFingerprintSchemaVersion : Option ℤ
  aadContext : Option Json

/-- The columns, if none of them is null. -/
def AliasMaterialArgs.material? (args : AliasMaterialArgs) : Option AliasMaterial := do
  let aliasCiphertext ← args.aliasCiphertext
  let aliasNonce ← args.aliasNonce
  let aliasKeyVersion ← args.aliasKeyVersion
  let aliasFingerprint ← args.aliasFingerprint
  let aliasFingerprintKeyVersion ← args.aliasFingerprintKeyVersion
  let aliasFingerprintSchemaVersion ← args.aliasFingerprintSchemaVersion
  let aadContext ← args.aadContext
  pure { aliasCiphertext, aliasNonce, aliasKeyVersion, aliasFingerprint,
         aliasFingerprintKeyVersion, aliasFingerprintSchemaVersion, aadContext }

/-- The arguments every writing procedure takes. -/
structure AliasCallArgs where
  requestId : Option Uuid
  secretAliasId : Option Uuid
  ownerUserId : Option Uuid
  sourceEventAt : Option String

/-- What all three calls name. -/
structure AliasCall where
  requestId : Uuid
  secretAliasId : Uuid
  ownerUserId : Uuid
  sourceEventAt : String

/-- The same, if nothing of it is null. -/
def AliasCallArgs.call? (args : AliasCallArgs) : Option AliasCall := do
  let requestId ← args.requestId
  let secretAliasId ← args.secretAliasId
  let ownerUserId ← args.ownerUserId
  let sourceEventAt ← args.sourceEventAt
  pure { requestId, secretAliasId, ownerUserId, sourceEventAt }

/-! ### Checks -/

/-- The checks all three calls make. -/
def aliasCallIsValid (call : AliasCall) : Bool :=
  idIsUuidV4 call.secretAliasId && auditMetadataSourceEventAtIsValid call.sourceEventAt

/-- The checks of the columns. -/
def aliasMaterialIsValid (m : AliasMaterial) : Bool :=
  m.aliasCiphertext != [] && m.aliasNonce.length == 24 && decide (0 < m.aliasKeyVersion) &&
    m.aliasFingerprint.length == 32 && decide (0 < m.aliasFingerprintKeyVersion) &&
    m.aliasFingerprintSchemaVersion == 1 && jsonbTypeof m.aadContext == "object"

/-- The keys of a stored context. -/
def aliasAadContextKeys : List String :=
  ["aad_version", "alias_key_version", "owner_user_id", "secret_alias_id", "secret_id"]

/-- The context describes the row. A key version with too many digits raises in the cast. -/
def checkAliasAadContext (pg : PostgresSession) (call : AliasCall) (secretId : Uuid)
    (m : AliasMaterial) : Except SqlError Unit := do
  Result.require (hasExactlyKeys aliasAadContextKeys m.aadContext &&
    memberHasType m.aadContext "aad_version" "number" &&
    memberHasType m.aadContext "alias_key_version" "number" &&
    memberHasType m.aadContext "owner_user_id" "string" &&
    memberHasType m.aadContext "secret_alias_id" "string" &&
    memberHasType m.aadContext "secret_id" "string" &&
    memberText m.aadContext "aad_version" == some "1" &&
    memberText m.aadContext "secret_alias_id" == some call.secretAliasId.hyphenated &&
    memberText m.aadContext "secret_id" == some secretId.hyphenated &&
    memberText m.aadContext "owner_user_id" == some call.ownerUserId.hyphenated &&
    (memberText m.aadContext "alias_key_version").any isPositiveDigits) invalidRpcInput
  -- the text has digits only, so the cast can fail on nothing but its range
  let keyVersion ← castNullable pg.castInteger integerOutOfRange
    (memberText m.aadContext "alias_key_version")
  Result.require (keyVersion == some m.aliasKeyVersion) invalidRpcInput

/-- The owner has no such secret. -/
def secretNotFound : SqlError := ⟨"secret_not_found", "02000"⟩

/-- The owner has no such row. -/
def aliasNotFound : SqlError := ⟨"alias_not_found", "02000"⟩

/-- The fingerprint or the secret is taken. -/
def aliasConflict : SqlError := ⟨"alias_conflict", "23505"⟩

/-- The row of an alias, if it belongs to the owner. -/
def findAlias (db : SecretDb) (secretAliasId ownerUserId : Uuid) :
    Except SqlError SecretAliasRow := do
  let existing ← Result.ofOption aliasNotFound
    (db.secretAliases.find? fun a => a.id == secretAliasId)
  Result.require (existing.ownerUserId == ownerUserId) ownerMismatch
  pure existing

/-! ### Audit events -/

/-- The fingerprint of an alias as its events have it. -/
def fingerprintMembers (keyVersion schemaVersion : ℤ) (sourceEventAt : String) :
    List (String × Json) := [
  ("alias_fingerprint_key_version", jsonInt keyVersion),
  ("alias_fingerprint_schema_version", jsonInt schemaVersion),
  ("source_event_at", .string sourceEventAt)]

/-- A `bytea` in the metadata. -/
def hexText (bytes : List UInt8) : Json :=
  .string (String.ofList (hexEncode bytes))

/-- The success event of a procedure; the table's default draws its identifier. -/
def recordAlias (pg : PostgresSession) (random : Uuid) (db : SecretDb) (call : AliasCall)
    (action : String) (secretId : Uuid) (metadata : List (String × Json)) :
    Except SqlError SecretDb :=
  insertAuditEvent pg.toPostgres db {
    id := random, requestId := call.requestId, actorUserId := some call.ownerUserId,
    actorDeviceId := none, action, targetSecretId := some secretId, result := "success",
    keyVersion := none, metadataJson := .object metadata }

/-! ### The procedures -/

/-- The insert into `secret_aliases`: the primary key, then the two unique indexes. -/
def insertSecretAlias (db : SecretDb) (row : SecretAliasRow) : Except SqlError SecretDb := do
  Result.require (db.secretAliases.all fun a => a.id != row.id)
    (uniqueViolation "secret_aliases_pkey")
  Result.require (db.secretAliases.all fun a => !(a.ownerUserId == row.ownerUserId &&
    (a.aliasFingerprint == row.aliasFingerprint || a.secretId == row.secretId))) aliasConflict
  Result.require (db.users.contains row.ownerUserId)
    (foreignKeyViolation "secret_aliases" "secret_aliases_owner_user_id_fkey")
  pure { db with secretAliases := db.secretAliases ++ [row] }

/-- `rpc_create_secret_alias`. -/
def rpcCreateSecretAlias (pg : PostgresSession) (random : Uuid) (db : SecretDb)
    (args : AliasCallArgs) (secretId : Option Uuid) (material : AliasMaterialArgs)
    (createdAt : Option ℤ) : Except SqlError (SecretDb × Uuid) := do
  let call ← Result.ofOption invalidRpcInput args.call?
  let secretId ← Result.ofOption invalidRpcInput secretId
  let m ← Result.ofOption invalidRpcInput material.material?
  let createdAt ← Result.ofOption invalidRpcInput createdAt
  Result.require (aliasCallIsValid call && aliasMaterialIsValid m) invalidRpcInput
  checkAliasAadContext pg call secretId m
  let secret ← Result.ofOption secretNotFound (db.secret? secretId)
  Result.require (secret.ownerUserId == call.ownerUserId) ownerMismatch
  let db ← insertSecretAlias db {
    id := call.secretAliasId, secretId, ownerUserId := call.ownerUserId,
    aliasCiphertext := m.aliasCiphertext, aliasNonce := m.aliasNonce,
    aliasKeyVersion := m.aliasKeyVersion, aliasFingerprint := m.aliasFingerprint,
    aliasFingerprintKeyVersion := m.aliasFingerprintKeyVersion,
    aliasFingerprintSchemaVersion := m.aliasFingerprintSchemaVersion, aadContext := m.aadContext,
    createdAt }
  let db ← recordAlias pg random db call "secret_alias_create" secretId
    (("alias_fingerprint", hexText m.aliasFingerprint) :: fingerprintMembers
      m.aliasFingerprintKeyVersion m.aliasFingerprintSchemaVersion call.sourceEventAt)
  pure (db, call.secretAliasId)

/-- The row of an alias with new material. -/
def replaceMaterial (m : AliasMaterial) (row : SecretAliasRow) : SecretAliasRow :=
  { row with aliasCiphertext := m.aliasCiphertext, aliasNonce := m.aliasNonce,
             aliasKeyVersion := m.aliasKeyVersion, aliasFingerprint := m.aliasFingerprint,
             aliasFingerprintKeyVersion := m.aliasFingerprintKeyVersion,
             aliasFingerprintSchemaVersion := m.aliasFingerprintSchemaVersion,
             aadContext := m.aadContext }

/-- `rpc_update_secret_alias`; it returns the old fingerprint. -/
def rpcUpdateSecretAlias (pg : PostgresSession) (random : Uuid) (db : SecretDb)
    (args : AliasCallArgs) (material : AliasMaterialArgs) :
    Except SqlError (SecretDb × List UInt8) := do
  let call ← Result.ofOption invalidRpcInput args.call?
  let m ← Result.ofOption invalidRpcInput material.material?
  Result.require (aliasCallIsValid call && aliasMaterialIsValid m) invalidRpcInput
  let existing ← findAlias db call.secretAliasId call.ownerUserId
  checkAliasAadContext pg call existing.secretId m
  -- the unique index on owner and fingerprint; the row itself may keep its own
  Result.require (db.secretAliases.all fun a => a.id == existing.id ||
    !(a.ownerUserId == existing.ownerUserId && a.aliasFingerprint == m.aliasFingerprint))
    aliasConflict
  let db := { db with secretAliases := db.secretAliases.map fun a =>
    if a.id = call.secretAliasId then replaceMaterial m a else a }
  let db ← recordAlias pg random db call "secret_alias_update" existing.secretId
    (("old_alias_fingerprint", hexText existing.aliasFingerprint) ::
      ("new_alias_fingerprint", hexText m.aliasFingerprint) :: fingerprintMembers
        m.aliasFingerprintKeyVersion m.aliasFingerprintSchemaVersion call.sourceEventAt)
  pure (db, existing.aliasFingerprint)

/-- `rpc_delete_secret_alias`; it returns the fingerprint. -/
def rpcDeleteSecretAlias (pg : PostgresSession) (random : Uuid) (db : SecretDb)
    (args : AliasCallArgs) : Except SqlError (SecretDb × List UInt8) := do
  let call ← Result.ofOption invalidRpcInput args.call?
  Result.require (aliasCallIsValid call) invalidRpcInput
  let existing ← findAlias db call.secretAliasId call.ownerUserId
  let db := { db with secretAliases := db.secretAliases.filter fun a => a.id != call.secretAliasId }
  let db ← recordAlias pg random db call "secret_alias_delete" existing.secretId
    (("alias_fingerprint", hexText existing.aliasFingerprint) :: fingerprintMembers
      existing.aliasFingerprintKeyVersion existing.aliasFingerprintSchemaVersion
      call.sourceEventAt)
  pure (db, existing.aliasFingerprint)

/-- `rpc_resolve_secret_alias`. -/
def rpcResolveSecretAlias (db : SecretDb) (ownerUserId : Option Uuid)
    (aliasFingerprint : Option (List UInt8)) : Except SqlError (List SecretAliasRow) := do
  let ownerUserId ← Result.ofOption invalidRpcInput ownerUserId
  let fingerprint ← Result.ofOption invalidRpcInput aliasFingerprint
  Result.require (fingerprint.length == 32) invalidRpcInput
  pure (db.secretAliases.filter fun a =>
    a.ownerUserId == ownerUserId && a.aliasFingerprint == fingerprint)

/-- `rpc_get_secret_alias_for_update`: the secret of an alias of the owner. -/
def rpcGetSecretAliasForUpdate (db : SecretDb) (ownerUserId secretAliasId : Option Uuid) :
    Except SqlError Uuid := do
  let ownerUserId ← Result.ofOption invalidRpcInput ownerUserId
  let secretAliasId ← Result.ofOption invalidRpcInput secretAliasId
  Result.require (idIsUuidV4 ownerUserId && idIsUuidV4 secretAliasId) invalidRpcInput
  let existing ← findAlias db secretAliasId ownerUserId
  pure existing.secretId

/-! ### What the procedures do -/

/-- **All an alias procedure can do**: change the alias table and add one valid event, about a
secret that exists and without a key version. -/
structure AliasEffect (pg : PostgresSession) (db : SecretDb) (random : Uuid) (db' : SecretDb) :
    Prop where
  exists_event : ∃ aliases event, event.id = random ∧ (∀ e ∈ db.auditEvents, e.id ≠ random) ∧
    event.action ∈ ["secret_alias_create", "secret_alias_update", "secret_alias_delete"] ∧
    AuditReferences db event ∧
    db' = { db with secretAliases := aliases, auditEvents := db.auditEvents ++ [event] }
  events_valid : EventsValid pg.toPostgres db db'

theorem recordAlias_eq_ok {pg : PostgresSession} {random : Uuid} {db db' : SecretDb}
    {call : AliasCall} {action : String} {secretId : Uuid} {metadata : List (String × Json)}
    (h : recordAlias pg random db call action secretId metadata = .ok db') :
    ∃ event : AuditEventRow, event.id = random ∧ (∀ e ∈ db.auditEvents, e.id ≠ random) ∧
      event.action = action ∧ AuditReferences db event ∧
      auditEventIsValid pg.toPostgres event = true ∧
      db' = { db with auditEvents := db.auditEvents ++ [event] } := by
  obtain ⟨hvalid, hfresh, hrefs, hdb⟩ := insertAuditEvent_eq_ok.mp h
  exact ⟨_, rfl, hfresh, rfl, hrefs, hvalid, hdb⟩

/-- An event recorded after the alias table has changed. -/
theorem AliasEffect.of_recordAlias {pg : PostgresSession} {random : Uuid} {db db' : SecretDb}
    {aliases : List SecretAliasRow} {call : AliasCall} {action : String} {secretId : Uuid}
    {metadata : List (String × Json)}
    (haction : action ∈ ["secret_alias_create", "secret_alias_update", "secret_alias_delete"])
    (h : recordAlias pg random { db with secretAliases := aliases } call action secretId metadata =
      .ok db') : AliasEffect pg db random db' := by
  obtain ⟨event, hid, hfresh, rfl, hrefs, hvalid, rfl⟩ := recordAlias_eq_ok h
  exact ⟨⟨aliases, event, hid, hfresh, haction, ⟨hrefs.actor, hrefs.target⟩, rfl⟩,
    .concat hvalid rfl⟩

theorem rpcCreateSecretAlias_eq_ok {pg : PostgresSession} {random : Uuid} {db db' : SecretDb}
    {args : AliasCallArgs} {secretId : Option Uuid} {material : AliasMaterialArgs}
    {createdAt : Option ℤ} {id : Uuid}
    (h : rpcCreateSecretAlias pg random db args secretId material createdAt = .ok (db', id)) :
    AliasEffect pg db random db' := by
  simp only [rpcCreateSecretAlias, insertSecretAlias, Result.bind_eq_ok, Result.pure_eq_ok,
    Prod.mk.injEq] at h
  obtain ⟨call, -, secretId, -, m, -, createdAt, -, _, -, _, -, secret, -, _, -, db₁,
    ⟨_, -, _, -, _, -, rfl⟩, db₂, hrecord, rfl, -⟩ := h
  exact .of_recordAlias (by simp) hrecord

theorem rpcUpdateSecretAlias_eq_ok {pg : PostgresSession} {random : Uuid} {db db' : SecretDb}
    {args : AliasCallArgs} {material : AliasMaterialArgs} {fingerprint : List UInt8}
    (h : rpcUpdateSecretAlias pg random db args material = .ok (db', fingerprint)) :
    AliasEffect pg db random db' := by
  simp only [rpcUpdateSecretAlias, Result.bind_eq_ok, Result.pure_eq_ok, Prod.mk.injEq] at h
  obtain ⟨call, -, m, -, _, -, existing, -, _, -, _, -, db₁, hrecord, rfl, -⟩ := h
  exact .of_recordAlias (by simp) hrecord

theorem rpcDeleteSecretAlias_eq_ok {pg : PostgresSession} {random : Uuid} {db db' : SecretDb}
    {args : AliasCallArgs} {fingerprint : List UInt8}
    (h : rpcDeleteSecretAlias pg random db args = .ok (db', fingerprint)) :
    AliasEffect pg db random db' := by
  simp only [rpcDeleteSecretAlias, Result.bind_eq_ok, Result.pure_eq_ok, Prod.mk.injEq] at h
  obtain ⟨call, -, _, -, existing, -, db₁, hrecord, rfl, -⟩ := h
  exact .of_recordAlias (by simp) hrecord

/-! ### The alias table -/

/-- A row was added: no other row has its identifier, no other row of its owner has its fingerprint
or its secret, and the secret is the owner's. -/
structure AliasInserted (db : SecretDb) (row : SecretAliasRow) (db' : SecretDb) : Prop where
  fresh : ∀ a ∈ db.secretAliases, a.id ≠ row.id
  unique : ∀ a ∈ db.secretAliases, a.ownerUserId = row.ownerUserId →
    a.aliasFingerprint ≠ row.aliasFingerprint ∧ a.secretId ≠ row.secretId
  owned : ∃ secret ∈ db.secrets, secret.id = row.secretId ∧ secret.ownerUserId = row.ownerUserId
  secrets : db'.secrets = db.secrets
  aliases : db'.secretAliases = db.secretAliases ++ [row]

/-- A row of the owner got new material for its secret, with a fingerprint that no other row of the
owner has. -/
structure AliasReplaced (pg : PostgresSession) (db : SecretDb) (call : AliasCall)
    (m : AliasMaterial) (existing : SecretAliasRow) (db' : SecretDb) : Prop where
  mem : existing ∈ db.secretAliases
  id : existing.id = call.secretAliasId
  owner : existing.ownerUserId = call.ownerUserId
  context : checkAliasAadContext pg call existing.secretId m = .ok ()
  unique : ∀ a ∈ db.secretAliases, a.id ≠ existing.id → a.ownerUserId = existing.ownerUserId →
    a.aliasFingerprint ≠ m.aliasFingerprint
  secrets : db'.secrets = db.secrets
  aliases : db'.secretAliases = db.secretAliases.map fun a =>
    if a.id = call.secretAliasId then replaceMaterial m a else a

/-- A row of the owner was removed. -/
structure AliasRemoved (db : SecretDb) (call : AliasCall) (db' : SecretDb) : Prop where
  exists_row : ∃ row ∈ db.secretAliases, row.id = call.secretAliasId ∧
    row.ownerUserId = call.ownerUserId
  secrets : db'.secrets = db.secrets
  aliases : db'.secretAliases = db.secretAliases.filter fun a => a.id != call.secretAliasId

theorem insertSecretAlias_eq_ok {db db' : SecretDb} {row : SecretAliasRow}
    (h : insertSecretAlias db row = .ok db') :
    (∀ a ∈ db.secretAliases, a.id ≠ row.id) ∧
      (∀ a ∈ db.secretAliases, a.ownerUserId = row.ownerUserId →
        a.aliasFingerprint ≠ row.aliasFingerprint ∧ a.secretId ≠ row.secretId) ∧
      db' = { db with secretAliases := db.secretAliases ++ [row] } := by
  simp only [insertSecretAlias, Result.bind_eq_ok, Result.require_eq_ok, List.all_eq_true,
    bne_iff_ne, Bool.not_eq_true', Bool.and_eq_false_iff, Bool.or_eq_false_iff,
    beq_eq_false_iff_ne, Result.pure_eq_ok, exists_const] at h
  obtain ⟨hfresh, hunique, -, rfl⟩ := h
  exact ⟨hfresh, fun a ha howner => (hunique a ha).resolve_left (not_not_intro howner), rfl⟩

theorem findAlias_eq_ok {db : SecretDb} {id owner : Uuid} {row : SecretAliasRow}
    (h : findAlias db id owner = .ok row) :
    row ∈ db.secretAliases ∧ row.id = id ∧ row.ownerUserId = owner := by
  simp only [findAlias, Result.bind_eq_ok, Result.ofOption_eq_ok, Result.require_eq_ok, beq_iff_eq,
    Result.pure_eq_ok, exists_const] at h
  obtain ⟨_, hfind, howner, rfl⟩ := h
  exact ⟨List.mem_of_find?_eq_some hfind, by simpa using List.find?_some hfind, howner⟩

/-- **What a committed create does to the alias table.** -/
theorem aliasInserted_of_create {pg : PostgresSession} {random : Uuid} {db db' : SecretDb}
    {args : AliasCallArgs} {secretId : Option Uuid} {material : AliasMaterialArgs}
    {createdAt : Option ℤ} {id : Uuid}
    (h : rpcCreateSecretAlias pg random db args secretId material createdAt = .ok (db', id)) :
    ∃ call secret m created, args.call? = some call ∧ secretId = some secret ∧
      material.material? = some m ∧ createdAt = some created ∧ id = call.secretAliasId ∧
      AliasInserted db {
        id := call.secretAliasId, secretId := secret, ownerUserId := call.ownerUserId,
        aliasCiphertext := m.aliasCiphertext, aliasNonce := m.aliasNonce,
        aliasKeyVersion := m.aliasKeyVersion, aliasFingerprint := m.aliasFingerprint,
        aliasFingerprintKeyVersion := m.aliasFingerprintKeyVersion,
        aliasFingerprintSchemaVersion := m.aliasFingerprintSchemaVersion,
        aadContext := m.aadContext, createdAt := created } db' := by
  simp only [rpcCreateSecretAlias, Result.bind_eq_ok, Result.ofOption_eq_ok, Result.require_eq_ok,
    beq_iff_eq, exists_const, Result.pure_eq_ok, Prod.mk.injEq] at h
  obtain ⟨call, hcall, secret, hsecret, m, hm, created, hcreated, -, _, -, row, hrow, howner, db₁,
    hinsert, db₂, hrecord, rfl, rfl⟩ := h
  obtain ⟨hfresh, hunique, rfl⟩ := insertSecretAlias_eq_ok hinsert
  obtain ⟨event, -, -, -, -, -, rfl⟩ := recordAlias_eq_ok hrecord
  refine ⟨call, secret, m, created, hcall, hsecret, hm, hcreated, rfl, hfresh, hunique, ?_, rfl,
    rfl⟩
  exact ⟨row, List.mem_of_find?_eq_some hrow, by simpa using List.find?_some hrow, howner⟩

/-- **What a committed update does to the alias table.** -/
theorem aliasReplaced_of_update {pg : PostgresSession} {random : Uuid} {db db' : SecretDb}
    {args : AliasCallArgs} {material : AliasMaterialArgs} {fingerprint : List UInt8}
    (h : rpcUpdateSecretAlias pg random db args material = .ok (db', fingerprint)) :
    ∃ call m existing, args.call? = some call ∧ material.material? = some m ∧
      AliasReplaced pg db call m existing db' := by
  simp only [rpcUpdateSecretAlias, Result.bind_eq_ok, Result.ofOption_eq_ok, Result.require_eq_ok,
    exists_const, Result.pure_eq_ok, Prod.mk.injEq] at h
  obtain ⟨call, hcall, m, hm, -, existing, hfind, _, hcontext, hunique, db₁, hrecord, rfl, -⟩ := h
  obtain ⟨hmem, hid, howner⟩ := findAlias_eq_ok hfind
  obtain ⟨event, -, -, -, -, -, rfl⟩ := recordAlias_eq_ok hrecord
  refine ⟨call, m, existing, hcall, hm, hmem, hid, howner, hcontext, ?_, rfl, rfl⟩
  intro a ha hne hsame hfingerprint
  have := List.all_eq_true.mp hunique a ha
  simp [hne, hsame, hfingerprint] at this

/-- **What a committed delete does to the alias table.** -/
theorem aliasRemoved_of_delete {pg : PostgresSession} {random : Uuid} {db db' : SecretDb}
    {args : AliasCallArgs} {fingerprint : List UInt8}
    (h : rpcDeleteSecretAlias pg random db args = .ok (db', fingerprint)) :
    ∃ call, args.call? = some call ∧ AliasRemoved db call db' := by
  simp only [rpcDeleteSecretAlias, Result.bind_eq_ok, Result.ofOption_eq_ok, Result.require_eq_ok,
    exists_const, Result.pure_eq_ok, Prod.mk.injEq] at h
  obtain ⟨call, hcall, -, existing, hfind, db₁, hrecord, rfl, -⟩ := h
  obtain ⟨hmem, hid, howner⟩ := findAlias_eq_ok hfind
  obtain ⟨event, -, -, -, -, -, rfl⟩ := recordAlias_eq_ok hrecord
  exact ⟨call, hcall, ⟨existing, hmem, hid, howner⟩, rfl, rfl⟩

end Sql

end Mipsorcu
