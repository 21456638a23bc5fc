import Mipsorcu.Database.LedgerValidation
import Mipsorcu.Foundation.Keyed
import Mipsorcu.Foundation.Result
import Mipsorcu.Foundation.Uuid
import Mathlib.Data.Int.Notation
import Mathlib.Data.List.Sort

/-!
# The ledger tables and their append procedure

`LedgerDb` holds the rows of `ledger_entries`, the single row of `ledger_chain_state` and the
public key registry. `rpcAppendLedgerEntry` is the body of `rpc_append_ledger_entry`: one
transaction, which either returns a row and the new state or raises and leaves the state alone.
The lock on the chain-state row makes concurrent calls run one after the other.

`rpcAppendLedgerEntry_eq_ok` says all a successful call can do: replay a stored entry without
a change, or add the entry at the position after the chain state and move the chain state to it.
-/

namespace Mipsorcu

/-! ### Rows -/

/-- A row of `ledger_entries`. -/
structure LedgerEntryRow where
  id : Uuid
  sequenceNo : ℤ
  entryType : String
  sourceEventAt : String
  requestId : Uuid
  sourceEventId : Option Uuid
  targetSecretId : Option Uuid
  targetSecretVersionId : Option Uuid
  actorUserId : Option Uuid
  actorDeviceId : Option String
  result : String
  errorCode : Option String
  payload : Json
  canonicalizationVersion : ℤ
  previousEntryHash : List UInt8
  entryHash : List UInt8
  hashAlgorithm : String
  signature : List UInt8
  signatureAlgorithm : String
  signatureKeyVersion : ℤ
  deriving DecidableEq

/-- The row of `ledger_chain_state`. -/
structure LedgerChainStateRow where
  lastSequenceNo : ℤ
  lastEntryHash : List UInt8
  deriving DecidableEq

/-- A row of `ledger_signing_public_keys`. -/
structure LedgerSigningPublicKeyRow where
  keyVersion : ℤ
  publicKey : List UInt8
  algorithm : String
  status : String
  /-- Microseconds, as `Sql.timestamptz` counts them. -/
  createdAt : ℤ
  activatedAt : Option ℤ
  retiredAt : Option ℤ
  deriving DecidableEq

/-- The ledger tables. -/
structure LedgerDb where
  entries : List LedgerEntryRow
  chainState : Option LedgerChainStateRow
  signingPublicKeys : List LedgerSigningPublicKeyRow
  deriving DecidableEq

/-- A raised exception: its message and its SQLSTATE. -/
structure SqlError where
  message : String
  errcode : String
  deriving DecidableEq

/-- The arguments of `rpc_append_ledger_entry`; each may be null. -/
structure AppendLedgerEntryArgs where
  ledgerEntryId : Option Uuid
  sequenceNo : Option ℤ
  entryType : Option String
  sourceEventAt : Option String
  requestId : Option Uuid
  sourceEventId : Option Uuid
  targetSecretId : Option Uuid
  targetSecretVersionId : Option Uuid
  actorUserId : Option Uuid
  actorDeviceId : Option String
  result : Option String
  errorCode : Option String
  payload : Option Json
  canonicalizationVersion : Option ℤ
  previousEntryHash : Option (List UInt8)
  entryHash : Option (List UInt8)
  hashAlgorithm : Option String
  signature : Option (List UInt8)
  signatureAlgorithm : Option String
  signatureKeyVersion : Option ℤ

/-- The row the arguments describe, if no required one is null. -/
def AppendLedgerEntryArgs.row? (args : AppendLedgerEntryArgs) : Option LedgerEntryRow := do
  let id ← args.ledgerEntryId
  let sequenceNo ← args.sequenceNo
  let entryType ← args.entryType
  let sourceEventAt ← args.sourceEventAt
  let requestId ← args.requestId
  let result ← args.result
  let payload ← args.payload
  let canonicalizationVersion ← args.canonicalizationVersion
  let previousEntryHash ← args.previousEntryHash
  let entryHash ← args.entryHash
  let hashAlgorithm ← args.hashAlgorithm
  let signature ← args.signature
  let signatureAlgorithm ← args.signatureAlgorithm
  let signatureKeyVersion ← args.signatureKeyVersion
  pure { id, sequenceNo, entryType, sourceEventAt, requestId,
         sourceEventId := args.sourceEventId, targetSecretId := args.targetSecretId,
         targetSecretVersionId := args.targetSecretVersionId, actorUserId := args.actorUserId,
         actorDeviceId := args.actorDeviceId, result, errorCode := args.errorCode, payload,
         canonicalizationVersion, previousEntryHash, entryHash, hashAlgorithm, signature,
         signatureAlgorithm, signatureKeyVersion }

/-- The arguments that describe a row. -/
def LedgerEntryRow.args (row : LedgerEntryRow) : AppendLedgerEntryArgs where
  ledgerEntryId := some row.id
  sequenceNo := some row.sequenceNo
  entryType := some row.entryType
  sourceEventAt := some row.sourceEventAt
  requestId := some row.requestId
  sourceEventId := row.sourceEventId
  targetSecretId := row.targetSecretId
  targetSecretVersionId := row.targetSecretVersionId
  actorUserId := row.actorUserId
  actorDeviceId := row.actorDeviceId
  result := some row.result
  errorCode := row.errorCode
  payload := some row.payload
  canonicalizationVersion := some row.canonicalizationVersion
  previousEntryHash := some row.previousEntryHash
  entryHash := some row.entryHash
  hashAlgorithm := some row.hashAlgorithm
  signature := some row.signature
  signatureAlgorithm := some row.signatureAlgorithm
  signatureKeyVersion := some row.signatureKeyVersion

/-- The arguments describe one row, and no others describe it. -/
theorem AppendLedgerEntryArgs.row?_eq_some {args : AppendLedgerEntryArgs} {row : LedgerEntryRow} :
    args.row? = some row ↔ args = row.args := by
  constructor
  · intro h
    obtain ⟨ledgerEntryId, sequenceNo, entryType, sourceEventAt, requestId, _, _, _, _, _, result,
      _, payload, canonicalizationVersion, previousEntryHash, entryHash, hashAlgorithm, signature,
      signatureAlgorithm, signatureKeyVersion⟩ := args
    iterate 13 obtain ⟨_, rfl, h⟩ := Option.bind_eq_some_iff.mp h
    obtain ⟨_, rfl, ⟨⟩⟩ := Option.bind_eq_some_iff.mp h
    rfl
  · rintro rfl
    rfl

@[simp]
theorem LedgerEntryRow.row?_args (row : LedgerEntryRow) : row.args.row? = some row :=
  AppendLedgerEntryArgs.row?_eq_some.mpr rfl

/-- The row `rpc_append_ledger_entry` returns. -/
structure AppendLedgerEntryRow where
  ledgerEntryId : Uuid
  sequenceNo : ℤ
  entryHash : List UInt8
  chainLastSequenceNo : ℤ
  chainLastEntryHash : List UInt8
  replayed : Bool
  deriving DecidableEq

namespace Sql

/-- The table of a new database: no entries, the genesis chain state, no keys. -/
def emptyLedger (signingPublicKeys : List LedgerSigningPublicKeyRow) : LedgerDb where
  entries := []
  chainState := some ⟨0, List.replicate 32 0⟩
  signingPublicKeys := signingPublicKeys

/-! ### Checks -/

/-- The checks of the argument shapes. -/
def argumentShapesAreValid (row : LedgerEntryRow) : Bool :=
  decide (0 < row.sequenceNo) && row.previousEntryHash.length == 32 &&
    row.entryHash.length == 32 && row.signature.length == 64

/-- The checks of the argument values, made only for an entry that is not stored yet. -/
def argumentValuesAreValid (pg : Postgres) (row : LedgerEntryRow) : Bool :=
  ledgerEntryTypeAllowed row.entryType && decide (row.entryType.length ≤ 64) &&
    ledgerSourceEventAtIsValid row.sourceEventAt &&
    (row.result == "success" || row.result == "failure") &&
    row.errorCode.all isNonBlankShort && !(row.result == "success" && row.errorCode.isSome) &&
    row.actorDeviceId.all isNonBlankShort && row.canonicalizationVersion == 1 &&
    row.hashAlgorithm == "sha-256" && row.signatureAlgorithm == "ed25519" &&
    decide (0 < row.signatureKeyVersion) && ledgerPayloadIsValid pg row.entryType row.payload

/-- The constraint `ledger_entries_id_uuid_v4`: version 4, variant 8, 9, a or b. The other check
constraints of the table repeat the argument checks. -/
def idIsUuidV4 (id : Uuid) : Bool :=
  id.version == 4 && (id.bytes.getD 8 0).toNat / 64 == 2

/-- A text that the engine cannot read. -/
def untranslatableCharacter : SqlError := ⟨"unsupported Unicode escape sequence", "22P05"⟩

/-- Some check of the arguments failed; which one is not told. -/
def invalidRpcInput : SqlError := ⟨"invalid_rpc_input", "22023"⟩

/-- Another entry has the identifier. -/
def ledgerEntryIdConflict : SqlError := ⟨"ledger_entry_id_conflict", "23505"⟩

/-- Another entry has the hash. -/
def ledgerEntryHashConflict : SqlError := ⟨"ledger_entry_hash_conflict", "23505"⟩

def ledgerChainStateMissing : SqlError := ⟨"ledger_chain_state_missing", "23514"⟩

/-- The chain has moved on. -/
def ledgerSequenceMismatch : SqlError := ⟨"ledger_sequence_mismatch", "40001"⟩

/-- The chain has another last entry. -/
def ledgerPreviousHashMismatch : SqlError := ⟨"ledger_previous_hash_mismatch", "40001"⟩

def bigintOutOfRange : SqlError := ⟨"bigint out of range", "22003"⟩

def idUuidV4Violation : SqlError :=
  ⟨"new row for relation \"ledger_entries\" violates check constraint " ++
    "\"ledger_entries_id_uuid_v4\"",
    "23514"⟩

/-! ### The transaction -/

/-- The branch for an entry identifier that is stored already. -/
def replayLedgerEntry (db : LedgerDb) (existing row : LedgerEntryRow) :
    Except SqlError (LedgerDb × AppendLedgerEntryRow) :=
  if existing ≠ row then .error ledgerEntryIdConflict
  else match db.chainState with
    | none => .error ledgerChainStateMissing
    | some state => .ok (db, {
        ledgerEntryId := existing.id, sequenceNo := existing.sequenceNo,
        entryHash := existing.entryHash, chainLastSequenceNo := state.lastSequenceNo,
        chainLastEntryHash := state.lastEntryHash, replayed := true })

/-- The insert with its constraints: the check of the identifier, then the unique indexes in the
order of their creation. -/
def insertLedgerEntry (db : LedgerDb) (row : LedgerEntryRow) : Except SqlError LedgerDb := do
  Result.require (idIsUuidV4 row.id) idUuidV4Violation
  Result.require (db.entries.all fun e => e.id != row.id) ledgerEntryIdConflict
  Result.require (db.entries.all fun e => e.sequenceNo != row.sequenceNo) ledgerEntryIdConflict
  Result.require (db.entries.all fun e => e.entryHash != row.entryHash) ledgerEntryHashConflict
  pure { db with entries := db.entries ++ [row] }

/-- The branch for a new entry: the chain state is locked and compared, the row inserted and the
chain state moved to it. -/
def insertNewLedgerEntry (pg : Postgres) (db : LedgerDb) (row : LedgerEntryRow) :
    Except SqlError (LedgerDb × AppendLedgerEntryRow) := do
  Result.require (argumentValuesAreValid pg row) invalidRpcInput
  let state ← Result.ofOption ledgerChainStateMissing db.chainState
  Result.require (decide (state.lastSequenceNo < 9223372036854775807)) bigintOutOfRange
  Result.require (decide (row.sequenceNo = state.lastSequenceNo + 1)) ledgerSequenceMismatch
  Result.require (decide (row.previousEntryHash = state.lastEntryHash)) ledgerPreviousHashMismatch
  let db ← insertLedgerEntry db row
  pure ({ db with chainState := some ⟨row.sequenceNo, row.entryHash⟩ }, {
    ledgerEntryId := row.id, sequenceNo := row.sequenceNo, entryHash := row.entryHash,
    chainLastSequenceNo := row.sequenceNo, chainLastEntryHash := row.entryHash,
    replayed := false })

/-- `rpc_append_ledger_entry`. -/
def rpcAppendLedgerEntry (pg : Postgres) (db : LedgerDb) (args : AppendLedgerEntryArgs) :
    Except SqlError (LedgerDb × AppendLedgerEntryRow) := do
  let row ← Result.ofOption invalidRpcInput args.row?
  Result.require (argumentShapesAreValid row) invalidRpcInput
  match db.entries.find? fun e => e.id == row.id with
  | some existing => replayLedgerEntry db existing row
  | none => insertNewLedgerEntry pg db row

/-! ### What a successful call does -/

/-- The entry is stored already: nothing changes. -/
structure Replayed (db : LedgerDb) (row : LedgerEntryRow) (db' : LedgerDb)
    (result : AppendLedgerEntryRow) : Prop where
  mem : row ∈ db.entries
  db_eq : db' = db
  result_id : result.ledgerEntryId = row.id
  result_sequenceNo : result.sequenceNo = row.sequenceNo
  result_entryHash : result.entryHash = row.entryHash

/-- The entry is new and follows the chain state. -/
structure Inserted (db : LedgerDb) (row : LedgerEntryRow) (db' : LedgerDb)
    (result : AppendLedgerEntryRow) : Prop where
  id_fresh : ∀ e ∈ db.entries, e.id ≠ row.id
  entryHash_fresh : ∀ e ∈ db.entries, e.entryHash ≠ row.entryHash
  chainState : ∃ state, db.chainState = some state ∧
    state.lastSequenceNo < 9223372036854775807 ∧ row.sequenceNo = state.lastSequenceNo + 1 ∧
    row.previousEntryHash = state.lastEntryHash
  db_eq : db' = { db with
    entries := db.entries ++ [row], chainState := some ⟨row.sequenceNo, row.entryHash⟩ }
  result_id : result.ledgerEntryId = row.id
  result_sequenceNo : result.sequenceNo = row.sequenceNo
  result_entryHash : result.entryHash = row.entryHash

variable {result : AppendLedgerEntryRow} {db db' : LedgerDb}

theorem replayLedgerEntry_eq_ok {existing row : LedgerEntryRow} (hmem : existing ∈ db.entries)
    (h : replayLedgerEntry db existing row = .ok (db', result)) : Replayed db row db' result := by
  unfold replayLedgerEntry at h
  split at h
  · cases h
  · rename_i hsame
    obtain rfl : existing = row := not_not.mp hsame
    split at h
    · cases h
    · cases h
      exact ⟨hmem, rfl, rfl, rfl, rfl⟩

theorem insertLedgerEntry_eq_ok {row : LedgerEntryRow} :
    insertLedgerEntry db row = .ok db' ↔ idIsUuidV4 row.id = true ∧
      (∀ e ∈ db.entries, e.id ≠ row.id) ∧ (∀ e ∈ db.entries, e.sequenceNo ≠ row.sequenceNo) ∧
      (∀ e ∈ db.entries, e.entryHash ≠ row.entryHash) ∧
      db' = { db with entries := db.entries ++ [row] } := by
  simp only [insertLedgerEntry, Result.bind_eq_ok, Result.require_eq_ok, List.all_eq_true,
    bne_iff_ne, Result.pure_eq_ok]
  constructor
  · rintro ⟨_, hv4, _, hid, _, hseq, _, hhash, rfl⟩; exact ⟨hv4, hid, hseq, hhash, rfl⟩
  · rintro ⟨hv4, hid, hseq, hhash, rfl⟩; exact ⟨(), hv4, (), hid, (), hseq, (), hhash, rfl⟩

variable {pg : Postgres}

theorem insertNewLedgerEntry_eq_ok {row : LedgerEntryRow}
    (h : insertNewLedgerEntry pg db row = .ok (db', result)) : Inserted db row db' result := by
  simp only [insertNewLedgerEntry, Result.bind_eq_ok, Result.require_eq_ok,
    Result.ofOption_eq_ok, decide_eq_true_eq, Result.pure_eq_ok, Prod.mk.injEq] at h
  obtain ⟨_, _, state, hstate, _, hmax, _, hseq, _, hprev, db₁, hinsert, rfl, rfl⟩ := h
  obtain ⟨-, hid, -, hhash, rfl⟩ := insertLedgerEntry_eq_ok.mp hinsert
  exact ⟨hid, hhash, ⟨state, hstate, hmax, hseq, hprev⟩, rfl, rfl, rfl, rfl⟩

/-- **All a successful append can do**: replay the stored entry, or insert the entry after the
chain state. -/
theorem rpcAppendLedgerEntry_eq_ok {args : AppendLedgerEntryArgs}
    (h : rpcAppendLedgerEntry pg db args = .ok (db', result)) :
    ∃ row, args.row? = some row ∧ (Replayed db row db' result ∨ Inserted db row db' result) := by
  simp only [rpcAppendLedgerEntry, Result.bind_eq_ok, Result.require_eq_ok,
    Result.ofOption_eq_ok] at h
  obtain ⟨row, hrow, _, -, h⟩ := h
  refine ⟨row, hrow, ?_⟩
  split at h
  · rename_i existing hfind
    exact .inl (replayLedgerEntry_eq_ok (List.mem_of_find?_eq_some hfind) h)
  · exact .inr (insertNewLedgerEntry_eq_ok h)

/-! ### The constraints of the table -/

end Sql

end Mipsorcu
