import Mipsorcu.Database.Ledger
import Mipsorcu.Ledger.Chain
import Mathlib.Data.List.Infix

/-!
# Calling the append procedure

The server sends a signed entry as a JSON object of texts and numbers; the database casts them to
its column types. `LedgerEntryRow.ofSigned` is the row an entry becomes, and
`LedgerEntryRpcParams.args_fromSignedEntry` says that the casts produce it, provided the key
version fits the `integer` column.
-/

namespace Mipsorcu

/-! ### Request -/

/-- The parameters of the append call (`LedgerEntryRpcParams`). -/
structure LedgerEntryRpcParams where
  ledgerEntryId : String
  sequenceNo : ℕ
  entryType : String
  sourceEventAt : String
  requestId : String
  sourceEventId : Option String
  targetSecretId : Option String
  targetSecretVersionId : Option String
  actorUserId : Option String
  actorDeviceId : Option String
  result : String
  errorCode : Option String
  payload : Json
  canonicalizationVersion : ℕ
  previousEntryHash : String
  entryHash : String
  hashAlgorithm : String
  signature : String
  signatureAlgorithm : String
  signatureKeyVersion : ℕ

namespace LedgerEntryRpcParams

/-- `from_signed_entry`. -/
def fromSignedEntry (e : SignedLedgerEntry) : LedgerEntryRpcParams where
  ledgerEntryId := e.ledgerEntryId.asCanonicalString
  sequenceNo := e.sequenceNo.val
  entryType := e.entryType.asStr
  sourceEventAt := e.sourceEventAt.text
  requestId := e.requestId.asCanonicalString
  sourceEventId := e.sourceEventId.map AuditEventId.asCanonicalString
  targetSecretId := e.targetSecretId.map SecretId.asCanonicalString
  targetSecretVersionId :=
    e.targetSecretVersionId.map LedgerTargetSecretVersionId.asCanonicalString
  actorUserId := e.actorUserId.map OwnerUserId.asCanonicalString
  actorDeviceId := e.actorDeviceId.map DeviceId.text
  result := e.result.asStr
  errorCode := e.errorCode
  payload := e.payload.asValue
  canonicalizationVersion := ledgerCanonicalizationVersionV1
  previousEntryHash := e.previousEntryHash.toByteaHex
  entryHash := e.entryHash.toByteaHex
  hashAlgorithm := ledgerHashAlgorithmSha256
  signature := e.signature.toByteaHex
  signatureAlgorithm := ledgerSignatureAlgorithmEd25519
  signatureKeyVersion := e.signatureKeyVersion.val

/-- The cast of an optional text to `uuid`. -/
def castOptionalUuid : Option String → Option (Option Uuid)
  | none => some none
  | some text => (Uuid.parse text).map some

/-- The cast of a text to `bytea`. -/
def castBytea (text : String) : Option (List UInt8) := do
  let digits ← stripByteaMark text
  hexDecode digits

/-- The cast of a JSON integer to a column type with the given greatest value. -/
def castInteger (max : ℕ) (n : ℕ) : Option ℤ :=
  if n ≤ max then some n else none

/-- The casts of the parameters to the argument types; a value outside its type fails the call
before the procedure starts. -/
def args (p : LedgerEntryRpcParams) : Option AppendLedgerEntryArgs := do
  let ledgerEntryId ← Uuid.parse p.ledgerEntryId
  let sequenceNo ← castInteger ledgerI64Max p.sequenceNo
  let requestId ← Uuid.parse p.requestId
  let sourceEventId ← castOptionalUuid p.sourceEventId
  let targetSecretId ← castOptionalUuid p.targetSecretId
  let targetSecretVersionId ← castOptionalUuid p.targetSecretVersionId
  let actorUserId ← castOptionalUuid p.actorUserId
  let canonicalizationVersion ← castInteger 2147483647 p.canonicalizationVersion
  let previousEntryHash ← castBytea p.previousEntryHash
  let entryHash ← castBytea p.entryHash
  let signature ← castBytea p.signature
  let signatureKeyVersion ← castInteger 2147483647 p.signatureKeyVersion
  pure { ledgerEntryId := some ledgerEntryId, sequenceNo := some sequenceNo,
         entryType := some p.entryType, sourceEventAt := some p.sourceEventAt,
         requestId := some requestId, sourceEventId, targetSecretId, targetSecretVersionId,
         actorUserId, actorDeviceId := p.actorDeviceId, result := some p.result,
         errorCode := p.errorCode, payload := some p.payload,
         canonicalizationVersion := some canonicalizationVersion,
         previousEntryHash := some previousEntryHash, entryHash := some entryHash,
         hashAlgorithm := some p.hashAlgorithm, signature := some signature,
         signatureAlgorithm := some p.signatureAlgorithm,
         signatureKeyVersion := some signatureKeyVersion }

end LedgerEntryRpcParams

/-- The row of a signed entry. -/
def LedgerEntryRow.ofSigned (e : SignedLedgerEntry) : LedgerEntryRow where
  id := e.ledgerEntryId.uuid
  sequenceNo := e.sequenceNo.val
  entryType := e.entryType.asStr
  sourceEventAt := e.sourceEventAt.text
  requestId := e.requestId.uuid
  sourceEventId := e.sourceEventId.map AuditEventId.uuid
  targetSecretId := e.targetSecretId.map SecretId.uuid
  targetSecretVersionId := e.targetSecretVersionId.map LedgerTargetSecretVersionId.uuid
  actorUserId := e.actorUserId.map OwnerUserId.uuid
  actorDeviceId := e.actorDeviceId.map DeviceId.text
  result := e.result.asStr
  errorCode := e.errorCode
  payload := e.payload.asValue
  canonicalizationVersion := 1
  previousEntryHash := e.previousEntryHash.bytes
  entryHash := e.entryHash.bytes
  hashAlgorithm := ledgerHashAlgorithmSha256
  signature := e.signature.bytes
  signatureAlgorithm := ledgerSignatureAlgorithmEd25519
  signatureKeyVersion := e.signatureKeyVersion.val

namespace LedgerEntryRpcParams

private theorem castOptionalUuid_hyphenated {α : Type} (uuid : α → Uuid) (x : Option α) :
    castOptionalUuid (x.map fun a => (uuid a).hyphenated) = some (x.map uuid) := by
  cases x <;> simp [castOptionalUuid]

@[simp]
theorem castBytea_byteaText (bytes : List UInt8) :
    castBytea (byteaText bytes) = some bytes := by
  simp [castBytea]

theorem castInteger_eq_some {max n : ℕ} {i : ℤ} :
    castInteger max n = some i ↔ n ≤ max ∧ i = n := by
  unfold castInteger
  split_ifs with h <;> simp [h, eq_comm]

private theorem castInteger_of_le {max n : ℕ} (h : n ≤ max) : castInteger max n = some n := by
  simp [castInteger, h]

/-- The casts turn a signed entry into its row, if the key version fits `integer`. -/
theorem args_fromSignedEntry {e : SignedLedgerEntry}
    (h : e.signatureKeyVersion.val ≤ 2147483647) :
    (fromSignedEntry e).args.bind AppendLedgerEntryArgs.row? = some (.ofSigned e) := by
  have hevent : castOptionalUuid (e.sourceEventId.map AuditEventId.asCanonicalString) =
      some (e.sourceEventId.map AuditEventId.uuid) := castOptionalUuid_hyphenated _ _
  have hsecret : castOptionalUuid (e.targetSecretId.map SecretId.asCanonicalString) =
      some (e.targetSecretId.map SecretId.uuid) := castOptionalUuid_hyphenated _ _
  have hversion : castOptionalUuid
      (e.targetSecretVersionId.map LedgerTargetSecretVersionId.asCanonicalString) =
      some (e.targetSecretVersionId.map LedgerTargetSecretVersionId.uuid) :=
    castOptionalUuid_hyphenated _ _
  have huser : castOptionalUuid (e.actorUserId.map OwnerUserId.asCanonicalString) =
      some (e.actorUserId.map OwnerUserId.uuid) := castOptionalUuid_hyphenated _ _
  have hcanon : castInteger 2147483647 ledgerCanonicalizationVersionV1 = some 1 := rfl
  simp only [args, fromSignedEntry, LedgerEntryId.asCanonicalString, RequestId.asCanonicalString,
    LedgerHash.toByteaHex, LedgerSignature.toByteaHex, Uuid.parse_hyphenated, hevent, hsecret,
    hversion, huser, castInteger_of_le e.sequenceNo.le_max, castInteger_of_le h,
    castBytea_byteaText, hcanon, Option.bind_eq_bind, Option.bind_some, Option.pure_def]
  rfl

/-- A key version beyond `integer` fails the call. -/
theorem args_fromSignedEntry_eq_none {e : SignedLedgerEntry}
    (h : 2147483647 < e.signatureKeyVersion.val) : (fromSignedEntry e).args = none := by
  have hcast : castInteger 2147483647 e.signatureKeyVersion.val = none := by
    simp [castInteger, h]
  simp [args, fromSignedEntry, hcast]

end LedgerEntryRpcParams

/-! ### Response -/

/-- The errors of a remote call (`SupabaseRpcError`). -/
inductive SupabaseRpcError where
  | network
  | nonSuccessStatus (status : ℕ) (message : String)
  | invalidResponse (message : String)
  | emptyResult
  deriving DecidableEq

/-- The HTTP status of a raised exception. -/
def SqlError.httpStatus (e : SqlError) : ℕ :=
  if e.errcode = "23505" then 409
  else if e.errcode = "42501" then 403
  else if e.errcode = "40001" then 500
  else 400

/-- PostgREST answers with the message of the exception. -/
def SqlError.toRpcError (e : SqlError) : SupabaseRpcError :=
  .nonSuccessStatus e.httpStatus e.message

/-- The status of the answer, if there was one. -/
def SupabaseRpcError.upstreamStatus : SupabaseRpcError → Option ℕ
  | .nonSuccessStatus status _ => some status
  | _ => none

/-- What a successful append returns to the caller. -/
structure AppendLedgerEntryOutcome where
  ledgerEntryId : LedgerEntryId
  sequenceNo : LedgerSequenceNo
  entryHash : LedgerHash
  chainHead : LedgerChainHead
  replayed : Bool
  deriving DecidableEq

/-- The response row (`AppendLedgerEntryResponse`) is parsed back into typed values. -/
def AppendLedgerEntryOutcome.tryFrom (r : AppendLedgerEntryRow) :
    Except SupabaseRpcError AppendLedgerEntryOutcome := do
  let ledgerEntryId ← (LedgerEntryId.parse r.ledgerEntryId.hyphenated).mapError
    fun _ => .invalidResponse "ledger RPC returned invalid ledger_entry_id"
  let sequenceNo ← (LedgerSequenceNo.fromI64 r.sequenceNo).mapError
    fun _ => .invalidResponse "ledger RPC returned invalid sequence_no"
  let entryHash ← (LedgerHash.fromByteaHex (byteaText r.entryHash)).mapError
    fun _ => .invalidResponse "ledger RPC returned invalid entry_hash"
  let chainLastEntryHash ← (LedgerHash.fromByteaHex (byteaText r.chainLastEntryHash)).mapError
    fun _ => .invalidResponse "ledger RPC returned invalid chain_last_entry_hash"
  let chainHead ← (LedgerChainHead.fromI64 r.chainLastSequenceNo chainLastEntryHash).mapError
    fun _ => .invalidResponse "ledger RPC returned invalid chain_last_sequence_no"
  pure { ledgerEntryId, sequenceNo, entryHash, chainHead, replayed := r.replayed }

/-- `call_append_ledger_entry`: the state after the transaction, and what the caller gets if the
response arrives. -/
def callAppendLedgerEntry (pg : Postgres) (db : LedgerDb) (e : SignedLedgerEntry) :
    LedgerDb × Except SupabaseRpcError AppendLedgerEntryOutcome :=
  match (LedgerEntryRpcParams.fromSignedEntry e).args with
  | none => (db, .error (.nonSuccessStatus 400 "value out of range for type"))
  | some args =>
    match Sql.rpcAppendLedgerEntry pg db args with
    | .error error => (db, .error error.toRpcError)
    | .ok (db', row) => (db', AppendLedgerEntryOutcome.tryFrom row)

/-- `fetch_ledger_chain_head`. -/
def fetchLedgerChainHead (db : LedgerDb) : Except SupabaseRpcError LedgerChainHead :=
  match db.chainState with
  | none => .error .emptyResult
  | some state => do
    let lastEntryHash ← (LedgerHash.fromByteaHex (byteaText state.lastEntryHash)).mapError
      fun _ => .invalidResponse "ledger chain state returned invalid last_entry_hash"
    (LedgerChainHead.fromI64 state.lastSequenceNo lastEntryHash).mapError
      fun _ => .invalidResponse "ledger chain state returned invalid last_sequence_no"

/-- The chain state row of a head. -/
def LedgerChainHead.toRow (head : LedgerChainHead) : LedgerChainStateRow :=
  ⟨head.lastSequenceNo, head.lastEntryHash.bytes⟩

theorem fetchLedgerChainHead_eq_ok {db : LedgerDb} {head : LedgerChainHead}
    (h : db.chainState = some head.toRow) : fetchLedgerChainHead db = .ok head := by
  have hhash := LedgerHash.fromByteaHex_toByteaHex head.lastEntryHash
  rw [LedgerHash.toByteaHex] at hhash
  rw [fetchLedgerChainHead, h]
  simp [LedgerChainHead.toRow, hhash]

/-! ### Classification of failures -/

/-- Why an append was refused (`LedgerAppendRpcFailure`). -/
inductive LedgerAppendRpcFailure where
  | entryIdConflict
  | entryHashConflict
  | sequenceMismatch
  | previousHashMismatch
  | payloadSchemaViolation
  | chainStateMissing
  | invalidRpcInput
  | appendFailed
  deriving DecidableEq

/-- The code that is logged and returned. -/
def LedgerAppendRpcFailure.asErrorCode : LedgerAppendRpcFailure → String
  | entryIdConflict => "ledger_entry_id_conflict"
  | entryHashConflict => "ledger_entry_hash_conflict"
  | sequenceMismatch => "ledger_sequence_mismatch"
  | previousHashMismatch => "ledger_previous_hash_mismatch"
  | payloadSchemaViolation => "ledger_payload_schema_violation"
  | chainStateMissing => "ledger_chain_state_mismatch"
  | invalidRpcInput => "ledger_append_failed"
  | appendFailed => "ledger_append_failed"

/-- `response_contains_marker`: the message contains the marker. -/
def responseContainsMarker (message marker : String) : Bool :=
  decide (marker.toList <:+: message.toList)

/-- The answer is told by the message of the exception it contains. -/
def classifyAppendLedgerError : SupabaseRpcError → LedgerAppendRpcFailure
  | .nonSuccessStatus _ message =>
    let has := responseContainsMarker message
    if has "ledger_entry_id_conflict" then .entryIdConflict
    else if has "ledger_entry_hash_conflict" then .entryHashConflict
    else if has "ledger_sequence_mismatch" then .sequenceMismatch
    else if has "ledger_previous_hash_mismatch" then .previousHashMismatch
    else if ["ledger_payload_schema_violation", "ledger_entries_payload_valid",
        "ledger_payload_is_valid"].any has then .payloadSchemaViolation
    else if has "ledger_chain_state_missing" then .chainStateMissing
    else if has "invalid_rpc_input" then .invalidRpcInput
    else .appendFailed
  | _ => .appendFailed

end Mipsorcu
