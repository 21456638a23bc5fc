import Mipsorcu.Protocol.ReadBack
import Mipsorcu.Server.SecretAlias

/-!
# Aliases over whole runs

Any number of requests create, update and delete aliases, in any order. A create and a delete are
one transaction each; an update first looks up the secret of its row, without a lock, and sends the
new material in a later transaction. Every other transaction of the store may come in between.

A run keeps the operations that committed, the latest first. `AliasInv` connects them to the table:
every row holds the material of the last operation on it, sealed for its secret and its owner. So
an alias resolves to a secret exactly if the last operation on some row of the caller bound the one
to the other (`aliases_resolve_exactly`).
-/

namespace Mipsorcu

open Sql

/-! ### Runs -/

/-- An operation that committed on a row. -/
inductive AliasOp where
  | bound (id : Uuid) (owner : OwnerUserId) (secretId : SecretId) (a : NormalizedAlias)
  | deleted (id : Uuid)
  deriving DecidableEq

/-- The row of an operation. -/
def AliasOp.id : AliasOp → Uuid
  | .bound id _ _ _ => id
  | .deleted id => id

/-- The last operation on a row, of operations with the latest first. -/
def lastOp (history : List AliasOp) (id : Uuid) : Option AliasOp :=
  history.find? fun op => op.id == id

/-- The last operation on some row of the owner left it bound to the secret with the alias. -/
def IsBound (history : List AliasOp) (owner : OwnerUserId) (secretId : SecretId)
    (a : NormalizedAlias) : Prop :=
  ∃ id, lastOp history id = some (.bound id owner secretId a)

/-- An update between its lookup and its call. -/
structure AliasLookup where
  claims : VerifiedJwtClaims
  secretAliasId : SecretAliasId
  secretId : SecretId

/-- The tables, the pending updates, and the operations with the latest first. -/
structure AliasState where
  db : SecretDb
  lookups : List AliasLookup
  history : List AliasOp

/-- What the clock and the sources of randomness give a request, in the server and in the
database. -/
structure AliasDraws where
  id : Option (FixedBytes 16)
  nonce : Option (FixedBytes 24)
  auditEventId : Uuid
  createdAt : CreatedAt
  sourceEventAt : Option SourceEventAt

/-- What can happen. -/
inductive AliasEvent where
  /-- `create_secret_alias`, with any answer to its read of the current version. -/
  | create (answer : Except SupabaseRpcError (List SecretVersionReadRow)) (draws : AliasDraws)
      (requestId : RequestId) (claims : VerifiedJwtClaims) (secretId : SecretId)
      (a : NormalizedAlias)
  /-- The lookup of `update_alias`. -/
  | lookup (claims : VerifiedJwtClaims) (secretAliasId : SecretAliasId)
  /-- The rest of `update_alias`, for one of the lookups. -/
  | update (position : ℕ) (draws : AliasDraws) (requestId : RequestId) (newAlias : NormalizedAlias)
  /-- `delete_alias`. -/
  | delete (draws : AliasDraws) (requestId : RequestId) (claims : VerifiedJwtClaims)
      (secretAliasId : SecretAliasId)
  /-- A transaction of another part of the server. -/
  | other (call : StoreCall)

/-- The calls of the alias procedures. -/
def StoreCall.isAliasCall : StoreCall → Bool
  | .createSecretAlias .. | .updateSecretAlias .. | .deleteSecretAlias .. => true
  | _ => false

section Runs

variable (cipher : XChaCha20Poly1305) (hmac : HmacSha3) (keys : AliasKeys) (pg : PostgresSession)

namespace AliasState

/-- The state of a database without aliases. -/
def init (db : SecretDb) : AliasState := ⟨db, [], []⟩

/-- One step of a request. A request that is refused, by the server or by the database, changes
nothing. -/
def step (s : AliasState) : AliasEvent → Option AliasState
  | .create answer draws requestId claims secretId a =>
    match prepareCreateSecretAlias cipher hmac keys answer draws.id draws.nonce requestId claims
        secretId a draws.createdAt draws.sourceEventAt with
    | .error _ => some s
    | .ok params => match postCreateSecretAlias pg draws.auditEventId s.db params with
      | .error _ => some s
      | .ok (db, id) => some { s with
          db := db, history := .bound id claims.subjectUserId secretId a :: s.history }
  | .lookup claims secretAliasId =>
    match callGetSecretAliasForUpdate s.db claims.subjectUserId secretAliasId with
    | .error _ => some s
    | .ok secretId => some { s with lookups := s.lookups ++ [⟨claims, secretAliasId, secretId⟩] }
  -- the secret is that of an earlier lookup, which other requests may have overtaken
  | .update position draws requestId newAlias => do
    let found ← s.lookups[position]?
    let s := { s with lookups := s.lookups.eraseIdx position }
    match prepareUpdateAlias cipher hmac keys draws.nonce requestId found.claims
        found.secretAliasId found.secretId newAlias draws.sourceEventAt with
    | .error _ => some s
    | .ok params => match postUpdateSecretAlias pg draws.auditEventId s.db params with
      | .error _ => some s
      | .ok (db, _) => some { s with
          db := db, history := .bound found.secretAliasId.uuid found.claims.subjectUserId
            found.secretId newAlias :: s.history }
  | .delete draws requestId claims secretAliasId =>
    match prepareDeleteAlias requestId claims secretAliasId draws.sourceEventAt with
    | .error _ => some s
    | .ok params => match postDeleteSecretAlias pg draws.auditEventId s.db params with
      | .error _ => some s
      | .ok (db, _) => some { s with
          db := db, history := .deleted secretAliasId.uuid :: s.history }
  | .other call =>
    -- these have their own events, which record what was bound
    if call.isAliasCall then none
    else match call.run pg s.db with
      | .error _ => some s
      | .ok db => some { s with db := db }

/-- The server sends the alias and the database accepts it. -/
def Creates (s : AliasState) (answer : Except SupabaseRpcError (List SecretVersionReadRow))
    (draws : AliasDraws) (requestId : RequestId) (claims : VerifiedJwtClaims) (secretId : SecretId)
    (a : NormalizedAlias) (s' : AliasState) : Prop :=
  ∃ params db id, prepareCreateSecretAlias cipher hmac keys answer draws.id draws.nonce requestId
      claims secretId a draws.createdAt draws.sourceEventAt = .ok params ∧
    postCreateSecretAlias pg draws.auditEventId s.db params = .ok (db, id) ∧
    s' = { s with db := db, history := .bound id claims.subjectUserId secretId a :: s.history }

/-- Some sequence of steps leads from `s` to `s'`. -/
def Run : AliasState → AliasState → Prop :=
  Transition.Reachable (step cipher hmac keys pg)

end AliasState

end Runs

/-! ### Steps -/

/-- The secrets keep their identifiers and owners, and their identifiers stay unique. -/
structure OwnersKept (db db' : SecretDb) : Prop where
  ids_nodup : (db.secrets.map SecretRow.id).Nodup → (db'.secrets.map SecretRow.id).Nodup
  owners : ∀ secret ∈ db.secrets, ∃ secret' ∈ db'.secrets, secret'.id = secret.id ∧
    secret'.ownerUserId = secret.ownerUserId

theorem OwnersKept.of_secrets {db db' : SecretDb} (h : db'.secrets = db.secrets) :
    OwnersKept db db' where
  ids_nodup hids := h ▸ hids
  owners secret hsecret := ⟨secret, h ▸ hsecret, rfl, rfl⟩

/-- A write changes no owner. -/
theorem Sql.Written.ownersKept {pg : PostgresSession} {random : ℕ → Uuid} {db db' : SecretDb}
    {w : SecretWrite} {entry : Option Json} {purged : List SecretVersionRow}
    (h : Written pg random db w entry purged db') : OwnersKept db db' where
  ids_nodup hids := by
    obtain ⟨locked, hlocked, -, hsecrets, -⟩ := h.tables
    rw [hsecrets, setCurrentVersion_ids]
    cases hlocked with
    | created hnone => exact Keyed.nodup_concat hids hnone
    | found => exact hids
  owners secret hsecret := by
    obtain ⟨locked, hlocked, -, hsecrets, -⟩ := h.tables
    have hmem : secret ∈ locked.secrets := by
      cases hlocked with
      | created => exact List.mem_append_left _ hsecret
      | found => exact hsecret
    rw [hsecrets, setCurrentVersion]
    refine ⟨_, List.mem_map_of_mem hmem, ?_⟩
    split_ifs <;> exact ⟨rfl, rfl⟩

theorem Sql.Written.secretAliases {pg : PostgresSession} {random : ℕ → Uuid} {db db' : SecretDb}
    {w : SecretWrite} {entry : Option Json} {purged : List SecretVersionRow}
    (h : Written pg random db w entry purged db') : db'.secretAliases = db.secretAliases := by
  obtain ⟨locked, recorded, hlocked, -, hrecorded, -, hpurges⟩ := h.exists_states
  rw [hpurges.frame, hrecorded.frame]
  cases hlocked <;> rfl

/-- **What the other transactions of the store leave alone.** -/
theorem StoreCall.frame_of_run {pg : PostgresSession} {db db' : SecretDb} {call : StoreCall}
    (hcall : call.isAliasCall = false) (h : call.run pg db = .ok db') :
    db'.secretAliases = db.secretAliases ∧ OwnersKept db db' := by
  have howners : OwnersKept db db' := by
    rcases StoreCall.run_eq_ok h with ⟨random, w, entry, purged, -, hwritten⟩ | ⟨-, hsame⟩
    · exact hwritten.ownersKept
    · exact .of_secrets hsame.secrets
  refine ⟨?_, howners⟩
  cases StoreCall.effect h with
  | written _ hwritten => exact hwritten.secretAliases
  | rewrapped _ _ hrewrapped =>
    exact (congrArg SecretDb.secretAliases hrewrapped.recorded.frame).trans rfl
  | completed _ _ _ hrecorded =>
    exact (congrArg SecretDb.secretAliases hrecorded.frame).trans rfl
  | aliasCreated => cases hcall
  | aliasUpdated => cases hcall
  | aliasDeleted => cases hcall
  | auditAppended _ happend =>
    obtain ⟨events, rfl⟩ := appendAuditEvent_frame happend
    rfl
  | appendedWithLedger _ happended =>
    obtain ⟨recorded, happend, -, hframe⟩ := happended.exists_db
    obtain ⟨events, rfl⟩ := appendAuditEvent_frame happend
    exact (congrArg SecretDb.secretAliases hframe).trans rfl
  | ledgerAppended _ _ hframe => exact (congrArg SecretDb.secretAliases hframe).trans rfl

/-- **All a step can do to the tables and the history.** -/
inductive AliasState.Effect (cipher : XChaCha20Poly1305) (hmac : HmacSha3) (keys : AliasKeys)
    (s s' : AliasState) : Prop
  | none (hdb : s'.db = s.db) (hhistory : s'.history = s.history)
  | created (p : PreparedAlias) (a : NormalizedAlias) (createdAt : ℤ)
      (hseals : p.Seals cipher hmac keys a)
      (hinserted : AliasInserted s.db (p.row createdAt) s'.db)
      (hhistory : s'.history =
        .bound p.secretAliasId.uuid p.ownerUserId p.secretId a :: s.history)
  | updated (p : PreparedAlias) (a : NormalizedAlias) (hseals : p.Seals cipher hmac keys a)
      (hrewritten : AliasRewritten s.db p s'.db)
      (hhistory : s'.history =
        .bound p.secretAliasId.uuid p.ownerUserId p.secretId a :: s.history)
  | deleted (id : Uuid) (hsecrets : s'.db.secrets = s.db.secrets)
      (haliases : s'.db.secretAliases = s.db.secretAliases.filter fun row => row.id != id)
      (hhistory : s'.history = .deleted id :: s.history)
  | other (haliases : s'.db.secretAliases = s.db.secretAliases) (howners : OwnersKept s.db s'.db)
      (hhistory : s'.history = s.history)

section Step

variable {cipher : XChaCha20Poly1305} {hmac : HmacSha3} {keys : AliasKeys} {pg : PostgresSession}
  {s s' : AliasState}

theorem prepareCreateSecretAlias_eq_ok
    {answer : Except SupabaseRpcError (List SecretVersionReadRow)} {id : Option (FixedBytes 16)}
    {nonce : Option (FixedBytes 24)} {requestId : RequestId} {claims : VerifiedJwtClaims}
    {secretId : SecretId} {a : NormalizedAlias} {createdAt : CreatedAt}
    {sourceEventAt : Option SourceEventAt} {params : CreateSecretAliasParams}
    (h : prepareCreateSecretAlias cipher hmac keys answer id nonce requestId claims secretId a
      createdAt sourceEventAt = .ok params) :
    ∃ (p : PreparedAliasCreate) (time : SourceEventAt), p.secretId = secretId ∧
      p.ownerUserId = claims.subjectUserId ∧ p.Seals cipher hmac keys a ∧
      params = buildCreateParams requestId p time := by
  simp only [prepareCreateSecretAlias, Result.bind_eq_ok, Result.require_eq_ok,
    Result.mapError_eq_ok, Result.ofOption_eq_ok, Result.pure_eq_ok, exists_const] at h
  obtain ⟨_, -, -, p, hprepare, time, -, rfl⟩ := h
  obtain ⟨hsecret, howner, -, hseals⟩ := prepareAliasCreate_eq_ok hprepare
  exact ⟨p, time, hsecret, howner, hseals, rfl⟩

theorem prepareUpdateAlias_eq_ok {nonce : Option (FixedBytes 24)} {requestId : RequestId}
    {claims : VerifiedJwtClaims} {secretAliasId : SecretAliasId} {secretId : SecretId}
    {a : NormalizedAlias} {sourceEventAt : Option SourceEventAt}
    {params : UpdateSecretAliasParams}
    (h : prepareUpdateAlias cipher hmac keys nonce requestId claims secretAliasId secretId a
      sourceEventAt = .ok params) :
    ∃ (p : PreparedAlias) (time : SourceEventAt), p.secretAliasId = secretAliasId ∧
      p.secretId = secretId ∧ p.ownerUserId = claims.subjectUserId ∧
      p.Seals cipher hmac keys a ∧ params = buildUpdateParams requestId p time := by
  simp only [prepareUpdateAlias, Result.bind_eq_ok, Result.mapError_eq_ok, Result.ofOption_eq_ok,
    Result.pure_eq_ok] at h
  obtain ⟨p, hprepare, time, -, rfl⟩ := h
  obtain ⟨hid, hsecret, howner, hseals⟩ := prepareAliasUpdate_eq_ok hprepare
  exact ⟨p, time, hid, hsecret, howner, hseals, rfl⟩

theorem AliasState.Creates.step {answer : Except SupabaseRpcError (List SecretVersionReadRow)}
    {draws : AliasDraws} {requestId : RequestId} {claims : VerifiedJwtClaims}
    {secretId : SecretId} {a : NormalizedAlias}
    (h : s.Creates cipher hmac keys pg answer draws requestId claims secretId a s') :
    s.step cipher hmac keys pg (.create answer draws requestId claims secretId a) = some s' := by
  obtain ⟨params, db, id, hprepare, hpost, rfl⟩ := h
  simp only [AliasState.step, hprepare, hpost]

/-- An update that is sent and accepted renames the row that was looked up. -/
theorem AliasState.step_update (position : ℕ) (draws : AliasDraws) {requestId : RequestId}
    {a : NormalizedAlias} {found : AliasLookup} {params : UpdateSecretAliasParams} {db : SecretDb}
    {response : List UInt8} (hfound : s.lookups[position]? = some found)
    (hprepare : prepareUpdateAlias cipher hmac keys draws.nonce requestId found.claims
      found.secretAliasId found.secretId a draws.sourceEventAt = .ok params)
    (hpost : postUpdateSecretAlias pg draws.auditEventId s.db params = .ok (db, response)) :
    s.step cipher hmac keys pg (.update position draws requestId a) = some {
      db := db
      lookups := s.lookups.eraseIdx position
      history := .bound found.secretAliasId.uuid found.claims.subjectUserId found.secretId a ::
        s.history } := by
  simp only [AliasState.step, hfound, Option.bind_eq_bind, Option.bind_some, hprepare, hpost]

/-- The alias that was created is bound. -/
theorem AliasState.Creates.isBound
    {answer : Except SupabaseRpcError (List SecretVersionReadRow)} {draws : AliasDraws}
    {requestId : RequestId} {claims : VerifiedJwtClaims} {secretId : SecretId}
    {a : NormalizedAlias}
    (h : s.Creates cipher hmac keys pg answer draws requestId claims secretId a s') :
    IsBound s'.history claims.subjectUserId secretId a := by
  obtain ⟨params, db, id, -, -, rfl⟩ := h
  exact ⟨id, List.find?_cons_of_pos (beq_self_eq_true id)⟩

/-- What a step can do. -/
theorem AliasState.effect_of_step {e : AliasEvent}
    (hids : (s.db.secretAliases.map SecretAliasRow.id).Nodup)
    (h : s.step cipher hmac keys pg e = some s') : s.Effect cipher hmac keys s' := by
  -- a request that is refused on either side leaves the state as it is
  cases e with
  | create answer draws requestId claims secretId a =>
    simp only [step] at h
    split at h
    · cases h
      exact .none rfl rfl
    · rename_i params hparams
      split at h
      · cases h
        exact .none rfl rfl
      · rename_i db id hpost
        cases h
        obtain ⟨p, time, rfl, howner, hseals, rfl⟩ := prepareCreateSecretAlias_eq_ok hparams
        obtain ⟨rfl, createdAt, hinserted⟩ := aliasInserted_of_post hpost
        exact .created p.toPreparedAlias a createdAt hseals hinserted (howner ▸ rfl)
  | lookup claims secretAliasId =>
    simp only [step] at h
    split at h
    · cases h
      exact .none rfl rfl
    · cases h
      exact .none rfl rfl
  | update position draws requestId newAlias =>
    simp only [step, Option.bind_eq_bind, Option.bind_eq_some_iff] at h
    obtain ⟨found, -, h⟩ := h
    split at h
    · cases h
      exact .none rfl rfl
    · rename_i params hparams
      split at h
      · cases h
        exact .none rfl rfl
      · rename_i db fingerprint hpost
        cases h
        obtain ⟨p, time, hid, hsecret, howner, hseals, rfl⟩ := prepareUpdateAlias_eq_ok hparams
        refine .updated p newAlias hseals (aliasRewritten_of_post hids hseals hpost) ?_
        rw [hid, hsecret, howner]
  | delete draws requestId claims secretAliasId =>
    simp only [step] at h
    split at h
    · cases h
      exact .none rfl rfl
    · rename_i params hparams
      split at h
      · cases h
        exact .none rfl rfl
      · rename_i db fingerprint hpost
        cases h
        obtain ⟨hsecrets, haliases⟩ := aliasRemoved_of_post hparams hpost
        exact .deleted secretAliasId.uuid hsecrets haliases rfl
  | other call =>
    simp only [step] at h
    split_ifs at h with hcall
    split at h
    · cases h
      exact .none rfl rfl
    · rename_i db hrun
      cases h
      obtain ⟨haliases, howners⟩ := StoreCall.frame_of_run (Bool.eq_false_iff.mpr hcall) hrun
      exact .other haliases howners rfl

end Step

/-! ### The invariant -/

theorem lastOp_cons (op : AliasOp) (history : List AliasOp) (id : Uuid) :
    lastOp (op :: history) id = if op.id = id then some op else lastOp history id := by
  rw [lastOp, List.find?_cons]
  by_cases h : op.id = id
  · simp [h]
  · have hne : (op.id == id) = false := beq_eq_false_iff_ne.mpr h
    rw [hne, if_neg h]
    rfl

section Invariant

variable (cipher : XChaCha20Poly1305) (hmac : HmacSha3) (keys : AliasKeys)

/-- The row holds what the last operation on it sealed. -/
def HoldsLastOp (history : List AliasOp) (row : SecretAliasRow) : Prop :=
  ∃ (p : PreparedAlias) (a : NormalizedAlias) (createdAt : ℤ), row = p.row createdAt ∧
    p.Seals cipher hmac keys a ∧
    lastOp history row.id = some (.bound row.id p.ownerUserId p.secretId a)

/-- **The alias table refines the history.** -/
structure AliasInv (s : AliasState) : Prop where
  ids_nodup : (s.db.secretAliases.map SecretAliasRow.id).Nodup
  fingerprints_nodup : (s.db.secretAliases.map fun row =>
    (row.ownerUserId, row.aliasFingerprint)).Nodup
  secrets_nodup : (s.db.secretAliases.map fun row => (row.ownerUserId, row.secretId)).Nodup
  holds : ∀ row ∈ s.db.secretAliases, HoldsLastOp cipher hmac keys s.history row
  row_of_bound : ∀ id owner secretId a,
    lastOp s.history id = some (.bound id owner secretId a) →
      ∃ row ∈ s.db.secretAliases, row.id = id
  secret_ids_nodup : (s.db.secrets.map SecretRow.id).Nodup
  owned : ∀ row ∈ s.db.secretAliases, ∃ secret ∈ s.db.secrets, secret.id = row.secretId ∧
    secret.ownerUserId = row.ownerUserId

end Invariant

section Preservation

variable {cipher : XChaCha20Poly1305} {hmac : HmacSha3} {keys : AliasKeys} {pg : PostgresSession}
  {s s' : AliasState}

/-- An operation on another row changes nothing for a row. -/
theorem HoldsLastOp.cons {history : List AliasOp} {row : SecretAliasRow} {op : AliasOp}
    (h : HoldsLastOp cipher hmac keys history row) (hne : op.id ≠ row.id) :
    HoldsLastOp cipher hmac keys (op :: history) row := by
  obtain ⟨p, a, createdAt, hrow, hseals, hlast⟩ := h
  refine ⟨p, a, createdAt, hrow, hseals, ?_⟩
  rw [lastOp_cons, if_neg hne, hlast]

theorem holdsLastOp_row {p : PreparedAlias} {a : NormalizedAlias} (history : List AliasOp)
    (createdAt : ℤ) (hseals : p.Seals cipher hmac keys a) :
    HoldsLastOp cipher hmac keys
      (.bound p.secretAliasId.uuid p.ownerUserId p.secretId a :: history) (p.row createdAt) := by
  refine ⟨p, a, createdAt, rfl, hseals, ?_⟩
  rw [lastOp_cons, AliasOp.id, PreparedAlias.row, if_pos rfl]

namespace AliasInv

theorem init {db : SecretDb} (hkeys : db.PrimaryKeys) (hnone : db.secretAliases = []) :
    AliasInv cipher hmac keys (.init db) where
  ids_nodup := by simp [AliasState.init, hnone]
  fingerprints_nodup := by simp [AliasState.init, hnone]
  secrets_nodup := by simp [AliasState.init, hnone]
  holds := by simp [AliasState.init, hnone]
  row_of_bound := by simp [AliasState.init, lastOp]
  secret_ids_nodup := hkeys.secret_ids_nodup
  owned := by simp [AliasState.init, hnone]

/-- A step that leaves the alias table and the history alone. -/
theorem unchanged (h : AliasInv cipher hmac keys s)
    (haliases : s'.db.secretAliases = s.db.secretAliases) (howners : OwnersKept s.db s'.db)
    (hhistory : s'.history = s.history) : AliasInv cipher hmac keys s' where
  ids_nodup := haliases ▸ h.ids_nodup
  fingerprints_nodup := haliases ▸ h.fingerprints_nodup
  secrets_nodup := haliases ▸ h.secrets_nodup
  holds := haliases ▸ hhistory ▸ h.holds
  row_of_bound := haliases ▸ hhistory ▸ h.row_of_bound
  secret_ids_nodup := howners.ids_nodup h.secret_ids_nodup
  owned row hrow := by
    obtain ⟨secret, hsecret, hid, howner⟩ := h.owned row (haliases ▸ hrow)
    obtain ⟨secret', hsecret', hid', howner'⟩ := howners.owners secret hsecret
    exact ⟨secret', hsecret', hid'.trans hid, howner'.trans howner⟩

/-- A new row keeps the invariant. -/
theorem created (h : AliasInv cipher hmac keys s) {p : PreparedAlias} {a : NormalizedAlias}
    {createdAt : ℤ} (hseals : p.Seals cipher hmac keys a)
    (hinserted : AliasInserted s.db (p.row createdAt) s'.db)
    (hhistory : s'.history = .bound p.secretAliasId.uuid p.ownerUserId p.secretId a :: s.history) :
    AliasInv cipher hmac keys s' where
  ids_nodup := by
    rw [hinserted.aliases]
    exact Keyed.nodup_concat h.ids_nodup hinserted.fresh
  fingerprints_nodup := by
    rw [hinserted.aliases]
    refine Keyed.nodup_concat h.fingerprints_nodup fun row hrow heq => ?_
    obtain ⟨howner, hfingerprint⟩ := Prod.mk.inj heq
    exact (hinserted.unique row hrow howner).1 hfingerprint
  secrets_nodup := by
    rw [hinserted.aliases]
    refine Keyed.nodup_concat h.secrets_nodup fun row hrow heq => ?_
    obtain ⟨howner, hsecret⟩ := Prod.mk.inj heq
    exact (hinserted.unique row hrow howner).2 hsecret
  -- the identifier is new, so no other row's last operation changes
  holds row hrow := by
    rw [hinserted.aliases, List.mem_append, List.mem_singleton] at hrow
    rw [hhistory]
    rcases hrow with hrow | rfl
    · exact (h.holds row hrow).cons (hinserted.fresh row hrow).symm
    · exact holdsLastOp_row s.history createdAt hseals
  row_of_bound id owner secretId a' hlast := by
    rw [hhistory, lastOp_cons] at hlast
    rw [hinserted.aliases]
    split_ifs at hlast with hid
    · exact ⟨_, List.mem_append_right _ (List.mem_singleton_self _), hid⟩
    · obtain ⟨row, hrow, hrowId⟩ := h.row_of_bound id owner secretId a' hlast
      exact ⟨row, List.mem_append_left _ hrow, hrowId⟩
  secret_ids_nodup := hinserted.secrets ▸ h.secret_ids_nodup
  owned row hrow := by
    rw [hinserted.aliases, List.mem_append, List.mem_singleton] at hrow
    rw [hinserted.secrets]
    rcases hrow with hrow | rfl
    · exact h.owned row hrow
    · exact hinserted.owned

/-- A rewritten row is the row of the secret and the owner that its material was prepared for. -/
theorem columns_of_rewritten (h : AliasInv cipher hmac keys s) {p : PreparedAlias}
    (hrewritten : AliasRewritten s.db p s'.db) {row : SecretAliasRow}
    (hrow : row ∈ s.db.secretAliases) (hid : row.id = p.secretAliasId.uuid) :
    row.ownerUserId = p.ownerUserId.uuid ∧ row.secretId = p.secretId.uuid := by
  obtain ⟨existing, hexisting, hid', howner, hsecret⟩ := hrewritten.exists_row
  obtain rfl := List.inj_on_of_nodup_map h.ids_nodup hrow hexisting (hid.trans hid'.symm)
  exact ⟨howner, hsecret⟩

/-- So does new material for a row. -/
theorem updated (h : AliasInv cipher hmac keys s) {p : PreparedAlias} {a : NormalizedAlias}
    (hseals : p.Seals cipher hmac keys a) (hrewritten : AliasRewritten s.db p s'.db)
    (hhistory : s'.history = .bound p.secretAliasId.uuid p.ownerUserId p.secretId a :: s.history) :
    AliasInv cipher hmac keys s' where
  ids_nodup := by
    have hids := h.ids_nodup
    rw [hrewritten.aliases, List.map_map]
    convert hids using 1
    refine List.map_congr_left fun row _ => ?_
    rw [Function.comp_apply]
    split_ifs with hid
    · exact hid.symm
    · rfl
  fingerprints_nodup := by
    rw [hrewritten.aliases]
    refine Keyed.nodup_map_update h.ids_nodup h.fingerprints_nodup (fun row _ hne => if_neg hne) ?_
    intro row hrow hid other hother hne heq
    rw [if_pos hid] at heq
    obtain ⟨howner, hfingerprint⟩ := Prod.mk.inj heq
    exact hrewritten.unique other hother hne howner hfingerprint
  secrets_nodup := by
    have hsecrets := h.secrets_nodup
    rw [hrewritten.aliases, List.map_map]
    convert hsecrets using 1
    refine List.map_congr_left fun row hrow => ?_
    rw [Function.comp_apply]
    split_ifs with hid
    · obtain ⟨howner, hsecret⟩ := h.columns_of_rewritten hrewritten hrow hid
      rw [howner, hsecret]
      rfl
    · rfl
  holds row hrow := by
    rw [hrewritten.aliases] at hrow
    obtain ⟨old, hold, rfl⟩ := List.mem_map.mp hrow
    rw [hhistory]
    split_ifs with hid
    · exact holdsLastOp_row s.history old.createdAt hseals
    · exact (h.holds old hold).cons fun heq => hid heq.symm
  row_of_bound id owner secretId a' hlast := by
    rw [hhistory, lastOp_cons] at hlast
    rw [hrewritten.aliases]
    -- every row is still there, under its identifier
    have hkept : ∀ old ∈ s.db.secretAliases, old.id = id →
        ∃ row ∈ s.db.secretAliases.map (fun row =>
        if row.id = p.secretAliasId.uuid then p.row row.createdAt else row), row.id = id := by
      intro old hold hid
      refine ⟨_, List.mem_map_of_mem hold, ?_⟩
      split_ifs with heq
      · exact heq.symm.trans hid
      · exact hid
    split_ifs at hlast with hid
    · obtain ⟨existing, hexisting, hid', -⟩ := hrewritten.exists_row
      exact hkept existing hexisting (hid'.trans hid)
    · obtain ⟨row, hrow, hrowId⟩ := h.row_of_bound id owner secretId a' hlast
      exact hkept row hrow hrowId
  secret_ids_nodup := hrewritten.secrets ▸ h.secret_ids_nodup
  owned row hrow := by
    rw [hrewritten.aliases] at hrow
    obtain ⟨old, hold, rfl⟩ := List.mem_map.mp hrow
    rw [hrewritten.secrets]
    split_ifs with hid
    · obtain ⟨howner, hsecret⟩ := h.columns_of_rewritten hrewritten hold hid
      obtain ⟨secret, hmem, hsecretId, hsecretOwner⟩ := h.owned old hold
      exact ⟨secret, hmem, hsecretId.trans hsecret, hsecretOwner.trans howner⟩
    · exact h.owned old hold

/-- So does the removal of a row. -/
theorem deleted (h : AliasInv cipher hmac keys s) {id : Uuid}
    (hsecrets : s'.db.secrets = s.db.secrets)
    (haliases : s'.db.secretAliases = s.db.secretAliases.filter fun row => row.id != id)
    (hhistory : s'.history = .deleted id :: s.history) : AliasInv cipher hmac keys s' where
  ids_nodup := haliases ▸ Keyed.nodup_filter h.ids_nodup _
  fingerprints_nodup := haliases ▸ Keyed.nodup_filter h.fingerprints_nodup _
  secrets_nodup := haliases ▸ Keyed.nodup_filter h.secrets_nodup _
  holds row hrow := by
    rw [haliases, List.mem_filter, bne_iff_ne] at hrow
    rw [hhistory]
    exact (h.holds row hrow.1).cons fun heq => hrow.2 heq.symm
  -- the identifier that was deleted is not bound any more
  row_of_bound id' owner secretId a hlast := by
    rw [hhistory, lastOp_cons] at hlast
    split_ifs at hlast with hid
    · cases hlast
    · obtain ⟨row, hrow, rfl⟩ := h.row_of_bound id' owner secretId a hlast
      rw [haliases]
      exact ⟨row, List.mem_filter.mpr ⟨hrow, bne_iff_ne.mpr fun heq => hid heq.symm⟩, rfl⟩
  secret_ids_nodup := hsecrets ▸ h.secret_ids_nodup
  owned row hrow := by
    rw [haliases] at hrow
    rw [hsecrets]
    exact h.owned row (List.mem_of_mem_filter hrow)

/-- **Every step keeps the invariant.** -/
theorem step (h : AliasInv cipher hmac keys s) {e : AliasEvent}
    (hstep : s.step cipher hmac keys pg e = some s') : AliasInv cipher hmac keys s' := by
  cases AliasState.effect_of_step h.ids_nodup hstep with
  | none hdb hhistory =>
    exact h.unchanged (congrArg SecretDb.secretAliases hdb)
      (.of_secrets (congrArg SecretDb.secrets hdb)) hhistory
  | created p a createdAt hseals hinserted hhistory => exact h.created hseals hinserted hhistory
  | updated p a hseals hrewritten hhistory => exact h.updated hseals hrewritten hhistory
  | deleted id hsecrets haliases hhistory => exact h.deleted hsecrets haliases hhistory
  | other haliases howners hhistory => exact h.unchanged haliases howners hhistory

/-- **The invariant holds in every run from a database without aliases.** -/
theorem of_run {db : SecretDb} (hkeys : db.PrimaryKeys) (hnone : db.secretAliases = [])
    (hrun : AliasState.Run cipher hmac keys pg (.init db) s) : AliasInv cipher hmac keys s :=
  Transition.invariant (AliasInv cipher hmac keys) (fun _ _ h hstep => hstep.elim fun _ => h.step)
    (init hkeys hnone) hrun

end AliasInv

end Preservation

/-! ### Resolving in a state -/

section Resolve

variable (cipher : XChaCha20Poly1305) (hmac : HmacSha3) (keys : AliasKeys) (pg : PostgresSession)

/-- `resolve_secret_ref` on the tables of a state. -/
def AliasState.resolve (s : AliasState) (secretRef : SecretRef) (owner : OwnerUserId) :
    Except ResolveSecretRefError SecretId :=
  resolveSecretRef cipher hmac keys (resolveSecretAliasRows pg.toPostgres s.db owner)
    secretRef owner

variable {cipher hmac keys pg} {s : AliasState}

variable {owner : OwnerUserId} {secretId : SecretId} {a : NormalizedAlias}

variable (hmac keys s owner a) in
/-- Some alias that is bound for the owner has the fingerprint of `a`. -/
def FingerprintTaken : Prop :=
  ∃ secretId a', IsBound s.history owner secretId a' ∧
    computeAliasFingerprint hmac keys.fingerprintKey owner a' =
      computeAliasFingerprint hmac keys.fingerprintKey owner a

namespace AliasInv

/-- The row of a bound alias, and what it holds. -/
theorem exists_row_of_bound (h : AliasInv cipher hmac keys s)
    (hbound : IsBound s.history owner secretId a) :
    ∃ (p : PreparedAlias) (createdAt : ℤ), p.row createdAt ∈ s.db.secretAliases ∧
      p.Seals cipher hmac keys a ∧ p.ownerUserId = owner ∧ p.secretId = secretId := by
  obtain ⟨id, hlast⟩ := hbound
  obtain ⟨row, hrow, rfl⟩ := h.row_of_bound id owner secretId a hlast
  obtain ⟨p, a', createdAt, hp, hseals, hlast'⟩ := h.holds row hrow
  rw [hlast, Option.some_inj, AliasOp.bound.injEq] at hlast'
  obtain ⟨-, rfl, rfl, rfl⟩ := hlast'
  exact ⟨p, createdAt, hp ▸ hrow, hseals, rfl, rfl⟩

/-- A lookup by fingerprint answers with the one row that has it. -/
theorem resolve_of_row (h : AliasInv cipher hmac keys s) {p : PreparedAlias}
    {a requested : NormalizedAlias} {createdAt : ℤ} (hrow : p.row createdAt ∈ s.db.secretAliases)
    (hseals : p.Seals cipher hmac keys a)
    (hfingerprint : p.aliasFingerprint =
      computeAliasFingerprint hmac keys.fingerprintKey p.ownerUserId requested) :
    s.resolve cipher hmac keys pg (.byAlias requested) p.ownerUserId =
      if a = requested then .ok p.secretId
      else .error (.api (.dbIntegrityViolation "resolved secret alias plaintext mismatch")) := by
  have hfilter : (s.db.secretAliases.filter fun row => row.ownerUserId == p.ownerUserId.uuid &&
      row.aliasFingerprint == p.aliasFingerprint.bytes.bytes) = [p.row createdAt] := by
    refine Keyed.filter_eq h.fingerprints_nodup hrow (by simp [PreparedAlias.row]) ?_
    intro row _ hne
    rw [Bool.and_eq_false_iff, beq_eq_false_iff_ne, beq_eq_false_iff_ne, ← not_and_or]
    exact fun heq => hne (Prod.ext heq.1 heq.2)
  rw [AliasState.resolve, resolveSecretRef]
  simp only [resolveSecretAliasRows_eq_ok, ← hfingerprint, hfilter, List.map_singleton,
    selectResolvedRow, Result.mapError_ok, Result.ok_bind, Result.ofOption_some,
    parseResolvedSecretAliasRow_row hseals]
  split_ifs <;> rfl

/-- A lookup by a fingerprint that no row of the owner has finds nothing. -/
theorem resolve_of_no_row {requested : NormalizedAlias}
    (hnone : ∀ row ∈ s.db.secretAliases, row.ownerUserId = owner.uuid → row.aliasFingerprint ≠
      (computeAliasFingerprint hmac keys.fingerprintKey owner requested).bytes.bytes) :
    s.resolve cipher hmac keys pg (.byAlias requested) owner =
      .error (.api (.notFound "secret not found")) := by
  have hfilter : (s.db.secretAliases.filter fun row => row.ownerUserId == owner.uuid &&
      row.aliasFingerprint ==
        (computeAliasFingerprint hmac keys.fingerprintKey owner requested).bytes.bytes) = [] := by
    rw [List.filter_eq_nil_iff]
    intro row hrow hfound
    rw [Bool.and_eq_true, beq_iff_eq, beq_iff_eq] at hfound
    exact hnone row hrow hfound.1 hfound.2
  rw [AliasState.resolve, resolveSecretRef]
  simp only [resolveSecretAliasRows_eq_ok, hfilter]
  rfl

/-- **An alias resolves to a secret exactly if the two are bound.** Nothing is assumed about
collisions: a row that has the fingerprint of another alias does not open to the one asked for. -/
theorem resolve_eq_ok (h : AliasInv cipher hmac keys s) :
    s.resolve cipher hmac keys pg (.byAlias a) owner = .ok secretId ↔
      IsBound s.history owner secretId a := by
  constructor
  · intro hresolve
    -- at most one row of the owner has the fingerprint
    by_cases hfound : ∃ row ∈ s.db.secretAliases, row.ownerUserId = owner.uuid ∧
        row.aliasFingerprint =
          (computeAliasFingerprint hmac keys.fingerprintKey owner a).bytes.bytes
    · obtain ⟨row, hrow, howner, hfingerprint⟩ := hfound
      obtain ⟨p, a', createdAt, rfl, hseals, hlast⟩ := h.holds row hrow
      obtain rfl : p.ownerUserId = owner := congrArg OwnerUserId.mk howner
      rw [h.resolve_of_row hrow hseals (congrArg AliasFingerprint.mk
        (FixedBytes.ext hfingerprint))] at hresolve
      split_ifs at hresolve with heq
      cases hresolve
      exact ⟨_, heq ▸ hlast⟩
    · rw [resolve_of_no_row fun row hrow howner hfingerprint =>
        hfound ⟨row, hrow, howner, hfingerprint⟩] at hresolve
      cases hresolve
  · intro hbound
    obtain ⟨p, createdAt, hrow, hseals, rfl, rfl⟩ := h.exists_row_of_bound hbound
    rw [h.resolve_of_row hrow hseals hseals.fingerprint, if_pos rfl]

/-- A bound secret is its owner's. -/
theorem owner_of_bound (h : AliasInv cipher hmac keys s)
    (hbound : IsBound s.history owner secretId a) :
    ∃ secret ∈ s.db.secrets, secret.id = secretId.uuid ∧ secret.ownerUserId = owner.uuid := by
  obtain ⟨p, createdAt, hrow, -, rfl, rfl⟩ := h.exists_row_of_bound hbound
  exact h.owned _ hrow

/-- **An alias is not found exactly if no alias of the owner has its fingerprint.** -/
theorem resolve_eq_notFound_iff (h : AliasInv cipher hmac keys s) :
    s.resolve cipher hmac keys pg (.byAlias a) owner =
      .error (.api (.notFound "secret not found")) ↔ ¬FingerprintTaken hmac keys s owner a := by
  constructor
  · rintro hresolve ⟨secretId, a', hbound, hfingerprint⟩
    obtain ⟨p, createdAt, hrow, hseals, rfl, rfl⟩ := h.exists_row_of_bound hbound
    rw [h.resolve_of_row hrow hseals (hseals.fingerprint.trans hfingerprint)] at hresolve
    split_ifs at hresolve
    cases hresolve
  · intro hfree
    refine resolve_of_no_row fun row hrow howner hfingerprint => hfree ?_
    obtain ⟨p, a', createdAt, rfl, hseals, hlast⟩ := h.holds row hrow
    obtain rfl : p.ownerUserId = owner := congrArg OwnerUserId.mk howner
    exact ⟨p.secretId, a', ⟨_, hlast⟩, hseals.fingerprint.symm.trans
      (congrArg AliasFingerprint.mk (FixedBytes.ext hfingerprint))⟩

end AliasInv

variable (cipher hmac keys pg) in
/-- **Aliases resolve exactly**: to the secrets they are bound to, which are the caller's own. Every
row opens to the alias that was last written to it, and no two rows of an owner have the same alias
or the same secret. -/
structure ResolvesExactly (s : AliasState) : Prop where
  resolve_iff : ∀ owner a secretId,
    s.resolve cipher hmac keys pg (.byAlias a) owner = .ok secretId ↔
      IsBound s.history owner secretId a
  own_secret : ∀ owner a secretId,
    s.resolve cipher hmac keys pg (.byAlias a) owner = .ok secretId →
      (∃ secret ∈ s.db.secrets, secret.id = secretId.uuid) ∧
      ∀ secret ∈ s.db.secrets, secret.id = secretId.uuid → secret.ownerUserId = owner.uuid
  opens : ∀ row ∈ s.db.secretAliases, ∃ id owner secretId a, row.id = id.uuid ∧
    row.ownerUserId = owner.uuid ∧
    lastOp s.history row.id = some (.bound row.id owner secretId a) ∧
    parseAliasMaterial cipher keys owner (.ofRow pg.toPostgres row) = .ok ⟨id, secretId, a⟩
  alias_unique : ∀ row ∈ s.db.secretAliases, ∀ row' ∈ s.db.secretAliases, ∀ owner d d',
    row.ownerUserId = owner.uuid → row'.ownerUserId = owner.uuid →
    parseAliasMaterial cipher keys owner (.ofRow pg.toPostgres row) = .ok d →
    parseAliasMaterial cipher keys owner (.ofRow pg.toPostgres row') = .ok d' →
    d.text = d'.text → row = row'
  secret_unique : ∀ row ∈ s.db.secretAliases, ∀ row' ∈ s.db.secretAliases,
    row.ownerUserId = row'.ownerUserId → row.secretId = row'.secretId → row = row'

/-- The last alias written to a row is the one it opens to. -/
theorem AliasInv.seals_of_opens (h : AliasInv cipher hmac keys s) {row : SecretAliasRow}
    {owner : OwnerUserId} {d : DecryptedAlias} (hrow : row ∈ s.db.secretAliases)
    (howner : row.ownerUserId = owner.uuid)
    (hopen : parseAliasMaterial cipher keys owner (.ofRow pg.toPostgres row) = .ok d) :
    row.aliasFingerprint =
      (computeAliasFingerprint hmac keys.fingerprintKey owner d.text).bytes.bytes := by
  obtain ⟨p, a, createdAt, rfl, hseals, -⟩ := h.holds row hrow
  obtain rfl : p.ownerUserId = owner := congrArg OwnerUserId.mk howner
  rw [hseals.parseAliasMaterial pg.toPostgres createdAt] at hopen
  cases hopen
  rw [PreparedAlias.row, hseals.fingerprint]

/-- The invariant implies that exactly the bound aliases resolve. -/
theorem AliasInv.resolvesExactly (h : AliasInv cipher hmac keys s) :
    ResolvesExactly cipher hmac keys pg s where
  resolve_iff owner a secretId := h.resolve_eq_ok
  own_secret owner a secretId hresolve := by
    obtain ⟨secret, hsecret, hid, howner⟩ := h.owner_of_bound (h.resolve_eq_ok.mp hresolve)
    refine ⟨⟨secret, hsecret, hid⟩, fun secret' hsecret' hid' => ?_⟩
    obtain rfl := List.inj_on_of_nodup_map h.secret_ids_nodup hsecret' hsecret (hid'.trans hid.symm)
    exact howner
  opens row hrow := by
    obtain ⟨p, a, createdAt, rfl, hseals, hlast⟩ := h.holds row hrow
    exact ⟨p.secretAliasId, p.ownerUserId, p.secretId, a, rfl, rfl, hlast,
      hseals.parseAliasMaterial pg.toPostgres createdAt⟩
  alias_unique row hrow row' hrow' owner d d' howner howner' hopen hopen' htext := by
    refine List.inj_on_of_nodup_map h.fingerprints_nodup hrow hrow' (Prod.ext ?_ ?_)
    · exact howner.trans howner'.symm
    · show row.aliasFingerprint = row'.aliasFingerprint
      rw [h.seals_of_opens hrow howner hopen, h.seals_of_opens hrow' howner' hopen', htext]
  secret_unique row hrow row' hrow' howner hsecret :=
    List.inj_on_of_nodup_map h.secrets_nodup hrow hrow' (Prod.ext howner hsecret)

/-- **In every run, aliases resolve exactly.** -/
theorem aliases_resolve_exactly {db : SecretDb} (hkeys : db.PrimaryKeys)
    (hnone : db.secretAliases = [])
    (hrun : AliasState.Run cipher hmac keys pg (.init db) s) :
    ResolvesExactly cipher hmac keys pg s :=
  (AliasInv.of_run hkeys hnone hrun).resolvesExactly

/-- **In every run, an alias is not found exactly if no alias that is bound for the owner has its
fingerprint.** -/
theorem aliases_notFound_iff {db : SecretDb} (hkeys : db.PrimaryKeys)
    (hnone : db.secretAliases = [])
    (hrun : AliasState.Run cipher hmac keys pg (.init db) s) :
    s.resolve cipher hmac keys pg (.byAlias a) owner =
      .error (.api (.notFound "secret not found")) ↔ ¬FingerprintTaken hmac keys s owner a :=
  (AliasInv.of_run hkeys hnone hrun).resolve_eq_notFound_iff

end Resolve

/-! ### Concrete values -/

/-- The hash known by a table of its values. -/
def HmacSha3.ofTable (table : List (FixedBytes 32 × List UInt8 × FixedBytes 32)) : HmacSha3 :=
  fun key input => ((table.find? fun entry => entry.1 = key ∧ entry.2.1 = input).map
    fun entry => entry.2.2).getD ⟨List.replicate 32 0, List.length_replicate⟩

/-- The keys of the aliases. -/
def sampleAliasKeys : AliasKeys where
  encryptionKey := ⟨sampleBytes 32 11⟩
  encryptionKeyVersion := sampleKeyVersion 1 Nat.one_pos one_lt_u32
  fingerprintKey := ⟨sampleBytes 32 13⟩
  fingerprintKeyVersion := sampleKeyVersion 1 Nat.one_pos one_lt_u32

/-- An alias. -/
def sampleAlias : NormalizedAlias :=
  ⟨"prod-db", by decide, by decide +kernel, by decide +kernel⟩

/-- An alias that is spelled like the identifier of a secret. -/
def sampleUuidAlias : NormalizedAlias :=
  ⟨(sampleUuid 3).hyphenated, by decide +kernel, by decide +kernel, by decide +kernel⟩

/-- Its row. -/
def sampleAliasId : SecretAliasId :=
  ⟨sampleUuid 20, version_sampleUuid 20⟩

/-- The authenticated data of the row. -/
def sampleAliasAad : AliasAadV1 where
  secretAliasId := sampleAliasId
  secretId := sampleSecretId
  ownerUserId := sampleOwner
  aliasKeyVersion := sampleAliasKeys.encryptionKeyVersion

/-- An alias under the key of the aliases, as XChaCha20-Poly1305 seals it. -/
def sampleAliasSealing (nonce : UInt8) (a : NormalizedAlias) (ciphertext : List UInt8) :
    Aead.Sealing (FixedBytes 32) (FixedBytes 24) where
  key := sampleAliasKeys.encryptionKey.bytes
  nonce := sampleBytes 24 nonce
  associated := sampleAliasAad.canonicalBytes
  message := a.asBytes
  cipher := ciphertext

def sampleAliasCiphertext : Ciphertext where
  bytes := (FixedBytes.ofNat 23 0xc749502508368f7adc61215ab8be8d614d9e992ccdc1d1).bytes
  not_empty := by decide +kernel

def sampleUuidAliasCiphertext : Ciphertext where
  bytes := (FixedBytes.ofHalves 52
    0x05f4a74c652edd2637f6540eb88d19b32a40bf97f1d9b490b271
    0x43f11cd31a53a22a77afb9dbf519a3cb9ea5ad4899cfbf15b316).bytes
  not_empty := by decide +kernel

/-- The two aliases, sealed. -/
def sampleAliasSealings : List (Aead.Sealing (FixedBytes 32) (FixedBytes 24)) :=
  [sampleAliasSealing 12 sampleAlias sampleAliasCiphertext.bytes,
    sampleAliasSealing 14 sampleUuidAlias sampleUuidAliasCiphertext.bytes]

theorem isTable_sampleAliasSealings : Aead.IsTable 16 sampleAliasSealings := by
  decide +kernel

/-- The cipher on these values. -/
def sampleAliasCipher : XChaCha20Poly1305 :=
  .ofTable sampleAliasSealings isTable_sampleAliasSealings

theorem encrypt_sampleAliasCipher {s : Aead.Sealing (FixedBytes 32) (FixedBytes 24)}
    (hs : s ∈ sampleAliasSealings) :
    sampleAliasCipher.encrypt s.key s.nonce s.associated s.message = some s.cipher := by
  rw [sampleAliasCipher]
  exact Aead.encrypt_ofTable isTable_sampleAliasSealings (by decide +kernel) hs

/-- HMAC-SHA3-256 of the inputs for the two aliases. -/
def sampleHmac : HmacSha3 :=
  .ofTable [(sampleBytes 32 13, fingerprintInput sampleOwner sampleAlias,
      .ofNat 32 0x8ad31735c23310a70d20d35039cb889c64d98ffcc8454b5bf4b85332c3880739),
    (sampleBytes 32 13, fingerprintInput sampleOwner sampleUuidAlias,
      .ofNat 32 0xfc67ed12a3ee3cef4594a58854106d8ec346d951b01f0a505c18045dbc78742f)]

/-- A database in which the owner has two secrets. -/
def sampleAliasStore : SecretDb :=
  { emptyStore [sampleUuid 7] [] with
    secrets := [1, 3].map fun id => {
      id := sampleUuid id, currentVersionId := none, ownerUserId := sampleUuid 7,
      classification := "confidential", createdAt := 76552225445123456 } }

theorem primaryKeys_sampleAliasStore : sampleAliasStore.PrimaryKeys where
  secret_ids_nodup := by decide +kernel
  version_ids_nodup := List.nodup_nil

/-- What the server sends. -/
def samplePreparedAlias (nonce : UInt8) (a : NormalizedAlias) (ciphertext : Ciphertext) :
    PreparedAliasCreate where
  secretAliasId := sampleAliasId
  secretId := sampleSecretId
  ownerUserId := sampleOwner
  ciphertext := ciphertext
  nonce := ⟨sampleBytes 24 nonce⟩
  aliasKeyVersion := sampleAliasKeys.encryptionKeyVersion
  aliasFingerprint :=
    computeAliasFingerprint sampleHmac sampleAliasKeys.fingerprintKey sampleOwner a
  fingerprintKeyVersion := sampleAliasKeys.fingerprintKeyVersion
  fingerprintSchemaVersion := aliasFingerprintSchemaVersionV1
  aadContext := sampleAliasAad.toStoredContext
  createdAt := ⟨sampleMicros⟩

/-- The server seals an alias of the table. -/
theorem prepareAliasUpdate_sample {nonce : UInt8} {a : NormalizedAlias} {ciphertext : Ciphertext}
    (h : sampleAliasSealing nonce a ciphertext.bytes ∈ sampleAliasSealings) :
    prepareAliasUpdate sampleAliasCipher sampleHmac sampleAliasKeys (some (sampleBytes 24 nonce))
        sampleAliasId sampleSecretId sampleOwner a =
      .ok (samplePreparedAlias nonce a ciphertext).toPreparedAlias := by
  have hcipher := encrypt_sampleAliasCipher h
  simp only [sampleAliasSealing] at hcipher
  have hencrypt : encryptAlias sampleAliasCipher (some (sampleBytes 24 nonce))
      sampleAliasKeys.encryptionKey sampleAliasAad a =
        .ok ⟨ciphertext, ⟨sampleBytes 24 nonce⟩⟩ := by
    rw [encryptAlias, Nonce.generate, fillRandom, Result.ofOption_some, Result.ok_bind]
    simp only [pure_bind, hcipher, Result.ofOption_some, Result.ok_bind, Ciphertext.new_bytes]
    rfl
  rw [sampleAliasAad] at hencrypt
  simp only [prepareAliasUpdate, hencrypt, Result.ok_bind]
  rfl

theorem prepareAliasCreate_sample {nonce : UInt8} {a : NormalizedAlias} {ciphertext : Ciphertext}
    (h : sampleAliasSealing nonce a ciphertext.bytes ∈ sampleAliasSealings) :
    prepareAliasCreate sampleAliasCipher sampleHmac sampleAliasKeys
        (some ⟨(sampleUuid 20).bytes, (sampleUuid 20).length_bytes⟩) (some (sampleBytes 24 nonce))
        sampleSecretId sampleOwner a ⟨sampleMicros⟩ =
      .ok (samplePreparedAlias nonce a ciphertext) := by
  have hid : SecretAliasId.generate (some ⟨(sampleUuid 20).bytes, (sampleUuid 20).length_bytes⟩) =
      .ok sampleAliasId := rfl
  simp only [prepareAliasCreate, hid, prepareAliasUpdate_sample h, Result.ok_bind]
  rfl

/-- An answer to the read of the current version. -/
def sampleAliasAnswer : List SecretVersionReadRow :=
  [.ofRows samplePostgres sampleMicrosWrite.versionRow
    { id := sampleUuid 1, currentVersionId := some (sampleUuid 2), ownerUserId := sampleUuid 7,
      classification := "confidential", createdAt := 76552225445123456 } (sampleUuid 2)]

/-- The draws of a request. -/
def sampleAliasDraws (nonce : UInt8) : AliasDraws where
  id := some ⟨(sampleUuid 20).bytes, (sampleUuid 20).length_bytes⟩
  nonce := some (sampleBytes 24 nonce)
  auditEventId := sampleUuid 30
  createdAt := ⟨sampleMicros⟩
  sourceEventAt := some sampleWriteEntry.sourceEventAt

/-- The server sends the sealed alias. -/
theorem prepareCreateSecretAlias_sample {nonce : UInt8} {a : NormalizedAlias}
    {ciphertext : Ciphertext}
    (h : sampleAliasSealing nonce a ciphertext.bytes ∈ sampleAliasSealings) :
    prepareCreateSecretAlias sampleAliasCipher sampleHmac sampleAliasKeys (.ok sampleAliasAnswer)
        (sampleAliasDraws nonce).id (sampleAliasDraws nonce).nonce ⟨sampleUuid 9⟩ ⟨sampleOwner⟩
        sampleSecretId a (sampleAliasDraws nonce).createdAt
        (sampleAliasDraws nonce).sourceEventAt =
      .ok (buildCreateParams ⟨sampleUuid 9⟩ (samplePreparedAlias nonce a ciphertext)
        sampleWriteEntry.sourceEventAt) := by
  have hfetch : ∃ current, fetchCurrentSecretVersion (.ok sampleAliasAnswer) = .ok current ∧
      current.ownerUserId = sampleOwner := by
    have hcreatedAt : CreatedAt.parse (printTimestamptz 76552225445123456) = .ok ⟨sampleMicros⟩ :=
      CreatedAt.parse_printTimestamptz (by decide +kernel) (by decide)
    exact ⟨_, (fetchCurrentSecretVersion_stored samplePostgres ⟨sampleUuid 9⟩ 76552225445123456
      [sampleWriteEntry] rfl rfl rfl).mpr ⟨_, hcreatedAt, rfl⟩, rfl⟩
  obtain ⟨current, hcurrent, howner⟩ := hfetch
  simp only [prepareCreateSecretAlias, hcurrent, howner, Result.mapError_ok, Result.ok_bind,
    beq_self_eq_true, Result.require_true, sampleAliasDraws, prepareAliasCreate_sample h,
    Result.ofOption_some]
  rfl

/-- What the database answers when the sample alias is created, looked up and renamed. -/
def sampleRename : Option (SecretDb × Uuid × SecretId × SecretDb × List UInt8) := do
  let (created, id) ← (postCreateSecretAlias sampleSession (sampleUuid 30) sampleAliasStore
    (buildCreateParams ⟨sampleUuid 9⟩ (samplePreparedAlias 12 sampleAlias sampleAliasCiphertext)
      sampleWriteEntry.sourceEventAt)).toOption
  let secretId ← (callGetSecretAliasForUpdate created sampleOwner sampleAliasId).toOption
  let (renamed, response) ← (postUpdateSecretAlias sampleSession (sampleUuid 31) created
    (buildUpdateParams ⟨sampleUuid 9⟩
      (samplePreparedAlias 14 sampleUuidAlias sampleUuidAliasCiphertext).toPreparedAlias
      sampleWriteEntry.sourceEventAt)).toOption
  pure (created, id, secretId, renamed, response)

/-- The database creates the alias, returns it and renames it. -/
theorem exists_sampleRename : ∃ created renamed response,
    postCreateSecretAlias sampleSession (sampleUuid 30) sampleAliasStore
      (buildCreateParams ⟨sampleUuid 9⟩ (samplePreparedAlias 12 sampleAlias sampleAliasCiphertext)
        sampleWriteEntry.sourceEventAt) = .ok (created, sampleUuid 20) ∧
    callGetSecretAliasForUpdate created sampleOwner sampleAliasId = .ok sampleSecretId ∧
    postUpdateSecretAlias sampleSession (sampleUuid 31) created (buildUpdateParams ⟨sampleUuid 9⟩
      (samplePreparedAlias 14 sampleUuidAlias sampleUuidAliasCiphertext).toPreparedAlias
      sampleWriteEntry.sourceEventAt) = .ok (renamed, response) := by
  have hanswers : sampleRename.map (fun answers => (answers.2.1, answers.2.2.1)) =
      some (sampleUuid 20, sampleSecretId) := by decide +kernel
  obtain ⟨⟨created, id, secretId, renamed, response⟩, hrename, hids⟩ :=
    Option.map_eq_some_iff.mp hanswers
  obtain ⟨rfl, rfl⟩ := Prod.mk.inj hids
  simp only [sampleRename, Option.bind_eq_bind, Option.bind_eq_some_iff, Option.pure_def,
    Option.some.injEq, Prod.exists, Prod.mk.injEq, Result.toOption_eq_some] at hrename
  obtain ⟨_, _, hcreate, _, hlookup, _, _, hupdate, rfl, rfl, rfl, rfl, rfl⟩ := hrename
  exact ⟨_, _, _, hcreate, hlookup, hupdate⟩

/-- The database accepts what the server sends for the sample alias. -/
theorem creates_sampleAlias :
    ∃ s, (AliasState.init sampleAliasStore).Creates sampleAliasCipher sampleHmac sampleAliasKeys
      sampleSession (.ok sampleAliasAnswer) (sampleAliasDraws 12) ⟨sampleUuid 9⟩ ⟨sampleOwner⟩
      sampleSecretId sampleAlias s := by
  obtain ⟨created, -, -, hcreate, -, -⟩ := exists_sampleRename
  exact ⟨_, _, created, _, prepareCreateSecretAlias_sample List.mem_cons_self, hcreate, rfl⟩

/-- The sample alias is created, and then renamed. -/
theorem exists_renamed_sampleAlias : ∃ s, AliasState.Run sampleAliasCipher sampleHmac
    sampleAliasKeys sampleSession (.init sampleAliasStore) s ∧
    s.history = [.bound (sampleUuid 20) sampleOwner sampleSecretId sampleUuidAlias,
      .bound (sampleUuid 20) sampleOwner sampleSecretId sampleAlias] := by
  obtain ⟨created, renamed, _, hcreate, hlookup, hupdate⟩ := exists_sampleRename
  have hprepare : prepareUpdateAlias sampleAliasCipher sampleHmac sampleAliasKeys
      (some (sampleBytes 24 14)) ⟨sampleUuid 9⟩ ⟨sampleOwner⟩ sampleAliasId sampleSecretId
      sampleUuidAlias (some sampleWriteEntry.sourceEventAt) =
        .ok (buildUpdateParams ⟨sampleUuid 9⟩
          (samplePreparedAlias 14 sampleUuidAlias sampleUuidAliasCiphertext).toPreparedAlias
          sampleWriteEntry.sourceEventAt) := by
    rw [prepareUpdateAlias, prepareAliasUpdate_sample (List.mem_cons_of_mem _
      (List.mem_singleton_self _))]
    rfl
  -- three requests: the alias is created, looked up and renamed
  have hcreates : (AliasState.init sampleAliasStore).Creates sampleAliasCipher sampleHmac
      sampleAliasKeys sampleSession (.ok sampleAliasAnswer) (sampleAliasDraws 12) ⟨sampleUuid 9⟩
      ⟨sampleOwner⟩ sampleSecretId sampleAlias
      ⟨created, [], [.bound (sampleUuid 20) sampleOwner sampleSecretId sampleAlias]⟩ :=
    ⟨_, _, _, prepareCreateSecretAlias_sample List.mem_cons_self, hcreate, rfl⟩
  have hlooked : AliasState.step sampleAliasCipher sampleHmac sampleAliasKeys sampleSession
      ⟨created, [], [.bound (sampleUuid 20) sampleOwner sampleSecretId sampleAlias]⟩
      (.lookup ⟨sampleOwner⟩ sampleAliasId) =
        some ⟨created, [⟨⟨sampleOwner⟩, sampleAliasId, sampleSecretId⟩],
          [.bound (sampleUuid 20) sampleOwner sampleSecretId sampleAlias]⟩ := by
    simp only [AliasState.step, hlookup, List.nil_append]
  have hfound : ([⟨⟨sampleOwner⟩, sampleAliasId, sampleSecretId⟩] : List AliasLookup)[0]? =
      some ⟨⟨sampleOwner⟩, sampleAliasId, sampleSecretId⟩ := rfl
  have hrenamed := AliasState.step_update (s := ⟨created, _,
      [.bound (sampleUuid 20) sampleOwner sampleSecretId sampleAlias]⟩) 0
    { sampleAliasDraws 14 with auditEventId := sampleUuid 31 } hfound hprepare hupdate
  exact ⟨_, ((Relation.ReflTransGen.single ⟨_, hcreates.step⟩).tail ⟨_, hlooked⟩).tail
    ⟨_, hrenamed⟩, rfl⟩

/-- An instance: the sample alias is renamed, and its new name resolves to the sample secret. -/
theorem aliases_resolve_sampleUuidAlias :
    ∃ s, AliasState.Run sampleAliasCipher sampleHmac sampleAliasKeys sampleSession
        (.init sampleAliasStore) s ∧
      s.resolve sampleAliasCipher sampleHmac sampleAliasKeys sampleSession
        (.byAlias sampleUuidAlias) sampleOwner = .ok sampleSecretId ∧
      ResolvesExactly sampleAliasCipher sampleHmac sampleAliasKeys sampleSession s := by
  obtain ⟨s, hrun, hhistory⟩ := exists_renamed_sampleAlias
  have hresolves := aliases_resolve_exactly primaryKeys_sampleAliasStore rfl hrun
  refine ⟨s, hrun, (hresolves.resolve_iff _ _ _).mpr ⟨sampleUuid 20, ?_⟩, hresolves⟩
  rw [hhistory]
  rfl

/-- An instance: the sample alias is renamed, and its old name is not found. -/
theorem aliases_notFound_sampleAlias :
    ∃ s, AliasState.Run sampleAliasCipher sampleHmac sampleAliasKeys sampleSession
        (.init sampleAliasStore) s ∧
      s.resolve sampleAliasCipher sampleHmac sampleAliasKeys sampleSession (.byAlias sampleAlias)
        sampleOwner = .error (.api (.notFound "secret not found")) := by
  obtain ⟨s, hrun, hhistory⟩ := exists_renamed_sampleAlias
  refine ⟨s, hrun, (aliases_notFound_iff primaryKeys_sampleAliasStore rfl hrun).mpr ?_⟩
  rintro ⟨_, a, ⟨id, hlast⟩, hfingerprint⟩
  rw [hhistory] at hlast
  obtain rfl : a = sampleUuidAlias := by
    by_cases hid : sampleUuid 20 = id
    · subst hid
      cases hlast
      rfl
    · simp [lastOp, AliasOp.id, hid] at hlast
  revert hfingerprint
  decide +kernel

end Mipsorcu
