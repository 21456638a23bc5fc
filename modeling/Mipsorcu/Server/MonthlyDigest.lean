import Mipsorcu.Database.Digest
import Mipsorcu.Ledger.Digest
import Mipsorcu.Server.Auditor

/-!
# Generating and verifying monthly digests

A generation checks that the month has no digest, fetches its range, signs the digest and appends
a ledger entry for it; its steps are defined here and put together in `Protocol.DigestGenerate`.
The payload of that entry has no place for the digest's signature. `verifyMonthlyDigest` fetches
the materials, verifies the chain over the range, rebuilds the canonical form and checks hash,
signature and the present range of the month.

`verifyMonthlyDigest_sound` says what an accepted digest guarantees, whatever the three answers
were; `verifyMonthlyDigest_accepts_forged` is an accepted digest for which all else fails.
-/

namespace Mipsorcu

/-! ### The calls -/

/-- A null where the response type has no `Option`. -/
def nullField : SupabaseRpcError :=
  .invalidResponse "invalid type: null"

/-- The first and the last entry of a month, and how many there are. -/
structure LedgerRangeForMonth where
  startSequenceNo : LedgerSequenceNo
  endSequenceNo : LedgerSequenceNo
  startEntryHash : LedgerHash
  endEntryHash : LedgerHash
  entryCount : ℕ
  deriving DecidableEq

namespace LedgerRangeForMonth

/-- The error of an answer that is not a range. -/
def invalidResponse (problem : String) : SupabaseRpcError :=
  .invalidResponse ("ledger range RPC returned " ++ problem)

/-- `TryFrom<LedgerRangeResponse>`. -/
def tryFrom (r : Sql.LedgerRangeRow) : Except SupabaseRpcError LedgerRangeForMonth := do
  let startHashText ← Result.ofOption nullField r.startEntryHash
  let endHashText ← Result.ofOption nullField r.endEntryHash
  let startSequenceNo ← (LedgerSequenceNo.fromI64 r.startSequenceNo).mapError
    fun _ => invalidResponse "invalid start_sequence_no"
  let endSequenceNo ← (LedgerSequenceNo.fromI64 r.endSequenceNo).mapError
    fun _ => invalidResponse "invalid end_sequence_no"
  let startEntryHash ← (LedgerHash.fromByteaHex startHashText).mapError
    fun _ => invalidResponse "invalid start_entry_hash"
  let endEntryHash ← (LedgerHash.fromByteaHex endHashText).mapError
    fun _ => invalidResponse "invalid end_entry_hash"
  Result.require (decide (0 ≤ r.entryCount)) (invalidResponse "negative entry_count")
  Result.require (decide (r.entryCount.toNat ≠ 0))
    (invalidResponse "entry_count=0 but a row was present")
  pure { startSequenceNo, endSequenceNo, startEntryHash, endEntryHash,
         entryCount := r.entryCount.toNat }

end LedgerRangeForMonth

/-- `fetch_ledger_range_for_month`. -/
def fetchLedgerRangeForMonth (role : Sql.Role) (db : LedgerDb) (yearMonth : String) :
    Except SupabaseRpcError (Option LedgerRangeForMonth) := do
  match ← (Sql.rpcFetchLedgerRangeForMonth role db yearMonth).mapError SqlError.toRpcError with
  | none => pure none
  | some row => some <$> LedgerRangeForMonth.tryFrom row

/-- `check_monthly_digest_exists`. -/
def checkMonthlyDigestExists (role : Sql.Role) (db : LedgerDb) (yearMonth : String) :
    Except SupabaseRpcError Bool :=
  (Sql.rpcCheckMonthlyDigestExists role db yearMonth).mapError SqlError.toRpcError

/-- What `rpc_fetch_monthly_digest_for_verification` returns of a digest, as typed values. -/
structure MonthlyDigestVerificationMaterials (P : Primitives) where
  startSequenceNo : LedgerSequenceNo
  endSequenceNo : LedgerSequenceNo
  storedEntryCount : ℕ
  storedDigestHash : String
  targetYearMonth : MonthlyDigestPeriod
  digestGeneratedAt : SourceEventAt
  signature : LedgerSignature
  signatureKeyVersion : LedgerSignatureKeyVersion
  publicKey : Option (LedgerVerifyingKey P)
  startEntryHash : LedgerHash
  endEntryHash : LedgerHash

namespace MonthlyDigestVerificationMaterials

variable {P : Primitives}

/-- The message of a response that cannot be used. -/
def invalidResponse (problem : String) : SupabaseRpcError :=
  .invalidResponse ("digest verification RPC returned " ++ problem)

variable (P) in
/-- `decode_public_key_bytes`. -/
def decodePublicKeyBytes (hex : String) (keyVersion : LedgerSignatureKeyVersion) :
    Except SupabaseRpcError (LedgerVerifyingKey P) := do
  let digits ← Result.ofOption (invalidResponse "public_key without \\x prefix")
    (stripByteaMark hex)
  let raw ← Result.ofOption (invalidResponse "invalid public_key hex") (hexDecode digits)
  (LedgerVerifyingKey.fromPublicKeyBytes P keyVersion raw).mapError
    fun _ => invalidResponse "invalid Ed25519 public_key"

/-- The optional key of a row. -/
def decodeOptionalPublicKey (P : Primitives) (keyVersion : LedgerSignatureKeyVersion) :
    Option String → Except SupabaseRpcError (Option (LedgerVerifyingKey P))
  | none => .ok none
  | some hex => some <$> decodePublicKeyBytes P hex keyVersion

variable (P) in
/-- `TryFrom<DigestForVerificationResponse>`. -/
def tryFrom (r : Sql.DigestForVerificationRow) :
    Except SupabaseRpcError (MonthlyDigestVerificationMaterials P) := do
  let entryCount ← Result.ofOption nullField r.storedEntryCount
  let storedDigestHash ← Result.ofOption nullField r.storedDigestHash
  let startSequenceNo ← (LedgerSequenceNo.fromI64 r.startSequenceNo).mapError
    fun _ => invalidResponse "invalid start_sequence_no"
  let endSequenceNo ← (LedgerSequenceNo.fromI64 r.endSequenceNo).mapError
    fun _ => invalidResponse "invalid end_sequence_no"
  Result.require (decide (0 ≤ entryCount)) (invalidResponse "negative stored_entry_count")
  Result.require (decide (entryCount.toNat ≠ 0)) (invalidResponse "stored_entry_count=0")
  let targetYearMonth ← (MonthlyDigestPeriod.parse r.targetYearMonth).mapError
    fun _ => invalidResponse "invalid target_year_month"
  let digestGeneratedAt ← (SourceEventAt.parse r.digestGeneratedAt).mapError
    fun _ => invalidResponse "invalid digest_generated_at"
  let signature ← (LedgerSignature.fromByteaHex r.signature).mapError
    fun _ => invalidResponse "invalid signature"
  let signatureKeyVersion ← (LedgerSignatureKeyVersion.ofI32 r.signatureKeyVersion).mapError
    fun _ => invalidResponse "invalid signature_key_version"
  let publicKey ← decodeOptionalPublicKey P signatureKeyVersion r.publicKey
  let startEntryHash ← (LedgerHash.fromByteaHex r.startEntryHash).mapError
    fun _ => invalidResponse "invalid start_entry_hash"
  let endEntryHash ← (LedgerHash.fromByteaHex r.endEntryHash).mapError
    fun _ => invalidResponse "invalid end_entry_hash"
  pure { startSequenceNo, endSequenceNo, storedEntryCount := entryCount.toNat, storedDigestHash,
         targetYearMonth, digestGeneratedAt, signature, signatureKeyVersion, publicKey,
         startEntryHash, endEntryHash }

end MonthlyDigestVerificationMaterials

/-- `fetch_monthly_digest_for_verification`: every row of the answer has to be well formed, the
first is used. -/
def fetchMonthlyDigestForVerification (P : Primitives) (db : LedgerDb) (yearMonth : String) :
    Except SupabaseRpcError (Option (MonthlyDigestVerificationMaterials P)) := do
  let rows ← (Sql.rpcFetchMonthlyDigestForVerification db yearMonth).mapError SqlError.toRpcError
  Result.forEach (fun r => Result.require
    (r.storedEntryCount.isSome && r.storedDigestHash.isSome) nullField) rows
  match rows.head? with
  | none => pure none
  | some r => some <$> MonthlyDigestVerificationMaterials.tryFrom P r

/-! ### Generating -/

/-- `GenerateMonthlyDigestInput`. -/
structure GenerateMonthlyDigestInput where
  period : MonthlyDigestPeriod
  generatedAt : SourceEventAt
  requestId : RequestId
  deriving DecidableEq

/-- The errors of the generation; the source keeps the printed form of a build error. -/
inductive GenerateMonthlyDigestError where
  | duplicateDigest
  | noEntriesForPeriod
  | fetchFailed (code : String)
  | buildFailed (error : LedgerError)
  | appendFailed (code : String)
  deriving DecidableEq

/-- The code of a failed append. -/
def LedgerAppendError.asErrorCode : LedgerAppendError → String
  | .conflict failure _ => failure.asErrorCode
  | .invalidEntry code => code
  | .externalDependencyFailed code _ _ => code

/-- The first step: no digest may exist. -/
def checkDuplicate (alreadyExists : Except SupabaseRpcError Bool) :
    Except GenerateMonthlyDigestError Unit :=
  match alreadyExists with
  | .error _ => .error (.fetchFailed "monthly_digest_duplicate_check_failed")
  | .ok true => .error .duplicateDigest
  | .ok false => .ok ()

/-- `fetch_ledger_range`. -/
def fetchLedgerRange (range : Except SupabaseRpcError (Option LedgerRangeForMonth)) :
    Except GenerateMonthlyDigestError LedgerRangeForMonth :=
  match range with
  | .ok (some range) => .ok range
  | .ok none => .error .noEntriesForPeriod
  | .error _ => .error (.fetchFailed "monthly_digest_range_fetch_failed")

/-- The canonical form of a range, its hash and its signature. -/
def signMonthlyDigest (P : Primitives) (appender : LedgerAppender)
    (input : GenerateMonthlyDigestInput) (range : LedgerRangeForMonth) :
    Except GenerateMonthlyDigestError SignedMonthlyDigest := do
  let signatureKeyVersion := appender.signingKey.keyVersion
  let canonicalBytes := buildMonthlyDigestCanonicalForm input.period range.startSequenceNo
    range.endSequenceNo range.startEntryHash range.endEntryHash range.entryCount input.generatedAt
    signatureKeyVersion
  let sbcSignature ← (appender.signDigestBytes P canonicalBytes).mapError .buildFailed
  pure { period := input.period, startSequenceNo := range.startSequenceNo,
         endSequenceNo := range.endSequenceNo, startEntryHash := range.startEntryHash,
         endEntryHash := range.endEntryHash, entryCount := range.entryCount,
         digestGeneratedAt := input.generatedAt, signatureKeyVersion, canonicalBytes,
         digestHash := DigestHash.fromCanonicalBytes P canonicalBytes, sbcSignature }

/-- The payload that records a digest. -/
def SignedMonthlyDigest.payloadMembers (d : SignedMonthlyDigest) : List (String × Json) := [
  ("digest_hash", .string (LedgerHash.toHex d.digestHash)),
  ("end_sequence_no", Json.nat d.endSequenceNo.val),
  ("entry_count", Json.nat d.entryCount),
  ("start_sequence_no", Json.nat d.startSequenceNo.val),
  ("target_year_month", .string d.period.text)]

/-- The draft of `append_digest_ledger_entry`, with the answer of the identifier generator. -/
def digestDraft (input : GenerateMonthlyDigestInput)
    (generated : Except LedgerError LedgerEntryId) (d : SignedMonthlyDigest) :
    Except GenerateMonthlyDigestError LedgerAppendDraft := do
  let payload ← (LedgerPayload.new .monthlyDigest (.object d.payloadMembers)).mapError .buildFailed
  let ledgerEntryId ← generated.mapError .buildFailed
  (LedgerAppendDraft.new {
    ledgerEntryId, entryType := .monthlyDigest, sourceEventAt := input.generatedAt,
    requestId := input.requestId, sourceEventId := none, targetSecretId := none,
    targetSecretVersionId := none, actorUserId := none, actorDeviceId := none,
    result := .success, errorCode := none, payload }).mapError .buildFailed

/-- What is signed and appended for a range. -/
def prepareMonthlyDigest (P : Primitives) (appender : LedgerAppender)
    (input : GenerateMonthlyDigestInput) (generated : Except LedgerError LedgerEntryId)
    (range : Except SupabaseRpcError (Option LedgerRangeForMonth)) :
    Except GenerateMonthlyDigestError (SignedMonthlyDigest × LedgerAppendDraft) := do
  let range ← fetchLedgerRange range
  let d ← signMonthlyDigest P appender input range
  let draft ← digestDraft input generated d
  pure (d, draft)

/-- `generate_monthly_digest` against a database nobody else writes to. -/
def generateMonthlyDigest (P : Primitives) (pg : Postgres) (role : Sql.Role)
    (appender : LedgerAppender) (input : GenerateMonthlyDigestInput)
    (generated : Except LedgerError LedgerEntryId) (db : LedgerDb) :
    LedgerDb × Except GenerateMonthlyDigestError SignedMonthlyDigest :=
  let prepared := do
    checkDuplicate (checkMonthlyDigestExists role db input.period.text)
    prepareMonthlyDigest P appender input generated
      (fetchLedgerRangeForMonth role db input.period.text)
  match prepared with
  | .error error => (db, .error error)
  | .ok (d, draft) =>
    let (db', appended) := appender.append P pg draft db
    match appended with
    | .ok _ => (db', .ok d)
    | .error error => (db', .error (.appendFailed error.asErrorCode))

/-! ### What is signed and what is recorded -/

/-- The range a digest stands for. -/
def SignedMonthlyDigest.range (d : SignedMonthlyDigest) : LedgerRangeForMonth where
  startSequenceNo := d.startSequenceNo
  endSequenceNo := d.endSequenceNo
  startEntryHash := d.startEntryHash
  endEntryHash := d.endEntryHash
  entryCount := d.entryCount

/-- The digest carries its own canonical form and hash, and the key's signature of the form. -/
structure SignedMonthlyDigest.SignedBy (P : Primitives) (key : LedgerSigningKey)
    (d : SignedMonthlyDigest) : Prop where
  signatureKeyVersion : d.signatureKeyVersion = key.keyVersion
  canonicalBytes : d.canonicalBytes = d.canonicalForm
  digestHash : d.digestHash = P.sha256 d.canonicalBytes
  sbcSignature : d.sbcSignature = P.sign key.secretKey d.canonicalBytes

/-- The entry records the digest: all of it but its signature and its two hashes. -/
structure RecordsDigest (d : SignedMonthlyDigest) (e : SignedLedgerEntry) : Prop where
  entryType : e.entryType = .monthlyDigest
  sourceEventAt : e.sourceEventAt = d.digestGeneratedAt
  payload : e.payload.object = d.payloadMembers

variable {d : SignedMonthlyDigest} {input : GenerateMonthlyDigestInput}

theorem signMonthlyDigest_eq_ok {P : Primitives} {appender : LedgerAppender}
    {range : LedgerRangeForMonth} :
    signMonthlyDigest P appender input range = .ok d ↔
      d.SignedBy P appender.signingKey ∧ d.range = range ∧ d.period = input.period ∧
        d.digestGeneratedAt = input.generatedAt := by
  simp only [signMonthlyDigest, LedgerAppender.signDigestBytes, Result.bind_eq_ok,
    Result.mapError_eq_ok, Result.pure_eq_ok]
  constructor
  · rintro ⟨signature, hsign, rfl⟩
    obtain ⟨-, rfl⟩ := LedgerSigningKey.signPayload_eq_ok.mp hsign
    refine ⟨⟨rfl, ?_, ?_, ?_⟩, rfl, rfl, rfl⟩
    · simp only [SignedMonthlyDigest.canonicalForm]
    · simp only [DigestHash.fromCanonicalBytes]
    · simp only
  · rintro ⟨⟨hversion, hbytes, hhash, hsignature⟩, rfl, hperiod, hat⟩
    rw [← hperiod, ← hat, ← hversion]
    have hform : buildMonthlyDigestCanonicalForm d.period d.range.startSequenceNo
        d.range.endSequenceNo d.range.startEntryHash d.range.endEntryHash d.range.entryCount
        d.digestGeneratedAt d.signatureKeyVersion = d.canonicalBytes := hbytes.symm
    rw [hform]
    refine ⟨d.sbcSignature, LedgerSigningKey.signPayload_eq_ok.mpr
      ⟨hversion.symm, hsignature.symm⟩, ?_⟩
    rw [DigestHash.fromCanonicalBytes, ← hhash]
    rfl

private theorem payloadMembers_sorted (d : SignedMonthlyDigest) :
    SortedMap.Sorted d.payloadMembers := by
  have hkeys : ["digest_hash", "end_sequence_no", "entry_count", "start_sequence_no",
      "target_year_month"].Pairwise (· < ·) := by
    decide +kernel
  exact List.pairwise_map.mp hkeys

/-- The payload of a digest is made of its members as they are. -/
theorem SignedMonthlyDigest.newPayload_eq_ok {payload : LedgerPayload} :
    LedgerPayload.new .monthlyDigest (.object d.payloadMembers) = .ok payload ↔
      payload.entryType = .monthlyDigest ∧ payload.object = d.payloadMembers := by
  have hscalar : Json.normalizeMembers d.payloadMembers = d.payloadMembers := rfl
  have hmembers : SortedMap.ofList (Json.normalizeMembers d.payloadMembers) = d.payloadMembers := by
    rw [hscalar, SortedMap.ofList_eq_self (payloadMembers_sorted d)]
  rw [LedgerPayload.new, LedgerPayload.ofSorted_eq_ok, hmembers]

theorem digestDraft_eq_ok {generated : Except LedgerError LedgerEntryId} {draft : LedgerAppendDraft}
    (h : digestDraft input generated d = .ok draft) {e : SignedLedgerEntry}
    (he : e.recorded = draft.toLedgerAppendDraftParts)
    (hat : d.digestGeneratedAt = input.generatedAt) : RecordsDigest d e := by
  simp only [digestDraft, Result.bind_eq_ok, Result.mapError_eq_ok, LedgerAppendDraft.new] at h
  obtain ⟨payload, hpayload, id, -, h⟩ := h
  have hobject := (SignedMonthlyDigest.newPayload_eq_ok.mp hpayload).2
  split at h
  · cases h
    refine ⟨congrArg LedgerAppendDraftParts.entryType he,
      (congrArg LedgerAppendDraftParts.sourceEventAt he).trans hat.symm, ?_⟩
    rw [← hobject]
    exact congrArg (fun parts => parts.payload.object) he
  · cases h

/-! ### Verifying -/

/-- `VerifyMonthlyDigestError`. -/
inductive VerifyMonthlyDigestError where
  | digestNotFound
  | fetchFailed (code : String)
  | chainContinuityError (ledgerErrorCode : String)
  | endHashMismatch
  | unknownSignatureKey
  | digestHashMismatch
  | digestSignatureInvalid
  | rangeModifiedAfterDigest
  deriving DecidableEq

/-- `VerifiedMonthlyDigestInfo`. -/
structure VerifiedMonthlyDigestInfo where
  startSequenceNo : LedgerSequenceNo
  endSequenceNo : LedgerSequenceNo
  entryCount : ℕ
  deriving DecidableEq

/-- The code of a chain that does not verify. -/
def mapLedgerErrorToCode : LedgerError → String
  | .sequenceGap _ _ => "chain_sequence_gap"
  | .previousHashMismatch _ => "chain_previous_hash_mismatch"
  | .hashMismatch _ => "chain_entry_hash_mismatch"
  | .signatureInvalid _ => "chain_signature_invalid"
  | .unknownSignatureKey _ _ => "chain_unknown_signature_key"
  | _ => "chain_verification_error"

/-- The first step: the materials have to be there. -/
def requireMaterials {P : Primitives}
    (materials : Except SupabaseRpcError (Option (MonthlyDigestVerificationMaterials P))) :
    Except VerifyMonthlyDigestError (MonthlyDigestVerificationMaterials P) :=
  match materials with
  | .ok (some materials) => .ok materials
  | .ok none => .error .digestNotFound
  | .error _ => .error (.fetchFailed "monthly_digest_verify_materials_fetch_failed")

/-- The last step: the month has a range, and it has not grown. -/
def requireCurrentRange (range : Except SupabaseRpcError (Option LedgerRangeForMonth)) :
    Except VerifyMonthlyDigestError LedgerRangeForMonth :=
  match range with
  | .ok (some range) => .ok range
  | .ok none => .error (.fetchFailed "monthly_digest_range_fetch_empty")
  | .error _ => .error (.fetchFailed "monthly_digest_range_fetch_failed")

/-- The canonical form rebuilt from materials, for the period asked for. -/
def MonthlyDigestVerificationMaterials.canonicalForm {P : Primitives}
    (m : MonthlyDigestVerificationMaterials P) (period : MonthlyDigestPeriod) : List UInt8 :=
  buildMonthlyDigestCanonicalForm period m.startSequenceNo m.endSequenceNo m.startEntryHash
    m.endEntryHash m.storedEntryCount m.digestGeneratedAt m.signatureKeyVersion

/-- `verify_monthly_digest`, with the answers of its three calls. -/
def verifyMonthlyDigest (P : Primitives)
    (materials : Except SupabaseRpcError (Option (MonthlyDigestVerificationMaterials P)))
    (exported : LedgerSequenceNo → LedgerSequenceNo →
      Except SupabaseRpcError (List LedgerVerificationMaterialRow))
    (currentRange : Except SupabaseRpcError (Option LedgerRangeForMonth))
    (period : MonthlyDigestPeriod) :
    Except VerifyMonthlyDigestError VerifiedMonthlyDigestInfo := do
  let m ← requireMaterials materials
  let rows ← (exported m.startSequenceNo m.endSequenceNo).mapError
    fun _ => .fetchFailed "monthly_digest_chain_export_failed"
  let first ← Result.ofOption (.fetchFailed "monthly_digest_chain_empty") rows.head?
  let entries ← (Result.traverse (·.tryRestoreSignedLedgerEntry) rows).mapError
    fun _ => .fetchFailed "monthly_digest_chain_entry_restore_failed"
  let verificationKeys ← (collectKeys P rows []).mapError
    fun _ => .fetchFailed "monthly_digest_chain_key_restore_failed"
  -- the hash before the range is taken from the first row itself
  let initialHead ← (LedgerChainHead.new (m.startSequenceNo.val - 1)
    first.previousEntryHash).mapError fun _ => .fetchFailed "monthly_digest_chain_head_build_failed"
  let finalHead ← (verifyLedgerChain entries initialHead verificationKeys).mapError
    fun error => .chainContinuityError (mapLedgerErrorToCode error)
  Result.require (decide (finalHead.lastEntryHash = m.endEntryHash)) .endHashMismatch
  let publicKey ← Result.ofOption .unknownSignatureKey m.publicKey
  let canonicalBytes := m.canonicalForm period
  Result.require (decide (LedgerHash.toHex (DigestHash.fromCanonicalBytes P canonicalBytes) =
    m.storedDigestHash)) .digestHashMismatch
  (publicKey.verifyDigestBytes canonicalBytes m.signature).mapError
    fun _ => .digestSignatureInvalid
  let current ← requireCurrentRange currentRange
  -- a range that became smaller is not noticed
  Result.require (decide (current.entryCount ≤ m.storedEntryCount ∧
    current.endSequenceNo.val ≤ m.endSequenceNo.val)) .rangeModifiedAfterDigest
  pure ⟨m.startSequenceNo, m.endSequenceNo, m.storedEntryCount⟩

/-! ### What an accepted digest guarantees -/

section

variable {P : Primitives} {entries : List SignedLedgerEntry}
  {rows : List LedgerVerificationMaterialRow}

/-- What the checks establish about a period, the materials, the exported rows and the present
range of the month. -/
structure VouchedDigest (P : Primitives) (period : MonthlyDigestPeriod)
    (m : MonthlyDigestVerificationMaterials P) (rows : List LedgerVerificationMaterialRow)
    (current : LedgerRangeForMonth) : Prop where
  /-- The rows are one entry for each position from the start on, as many as there are rows. They
  are linked up to the end hash, and each has its own hash and a signature the exported keys
  accept. -/
  chain : ∃ entries, entries ≠ [] ∧
    List.Forall₂ (fun row e => row.tryRestoreSignedLedgerEntry = .ok e) rows entries ∧
    entries.map (fun e => e.sequenceNo.val) =
      List.range' m.startSequenceNo.val entries.length ∧
    (∃ first, HashChain.Linked (fun e : SignedLedgerEntry => e.previousEntryHash) (·.entryHash)
      first entries m.endEntryHash) ∧
    (∀ e ∈ entries, e.recomputeEntryHash P = e.entryHash) ∧ SharedKeysAccept P rows entries
  /-- The stored hash is that of the canonical form, for the period asked for. -/
  digestHash : LedgerHash.toHex (P.sha256 (m.canonicalForm period)) = m.storedDigestHash
  /-- The signature verifies over the canonical form. -/
  signature : ∃ key, m.publicKey = some key ∧
    P.verify key.publicKey (m.canonicalForm period) m.signature = true
  /-- The month has not more entries than were stored, and none after the end. -/
  entryCount_le : current.entryCount ≤ m.storedEntryCount
  endSequenceNo_le : current.endSequenceNo.val ≤ m.endSequenceNo.val

/-- Being a chain from some head before `start`, said without heads. -/
theorem exists_chained_iff {start : LedgerSequenceNo} {last : LedgerHash} (hne : entries ≠ []) :
    (∃ head final, head.lastSequenceNo + 1 = start.val ∧ Chained P head entries final ∧
        final.lastEntryHash = last) ↔
      entries.map (fun e => e.sequenceNo.val) = List.range' start.val entries.length ∧
        (∃ first, HashChain.Linked (fun e : SignedLedgerEntry => e.previousEntryHash)
          (·.entryHash) first entries last) ∧
        ∀ e ∈ entries, e.recomputeEntryHash P = e.entryHash := by
  constructor
  · rintro ⟨head, final, hhead, hchain, rfl⟩
    exact ⟨hhead ▸ hchain.sequenceNos.1, ⟨_, hchain.linked⟩, fun e he => hchain.entryHash he⟩
  · rintro ⟨hseq, ⟨first, hlinked⟩, hhash⟩
    have hpos := start.pos
    have hmax := start.le_max
    -- the last position bounds the final head
    obtain ⟨e, he⟩ := List.getLast?_isSome.mpr hne |> Option.isSome_iff_exists.mp
    have hlast : e.sequenceNo.val = start.val + entries.length - 1 := by
      have h := congrArg List.getLast? hseq
      rw [List.getLast?_map, he, List.getLast?_range'] at h
      have hlength : entries.length ≠ 0 := by simpa using hne
      rw [if_neg hlength] at h
      simpa using h
    have hbound := e.sequenceNo.le_max
    have hlength := List.length_pos_iff.mpr hne
    refine ⟨⟨start.val - 1, first, by omega⟩, ⟨start.val - 1 + entries.length, last, by omega⟩,
      by simp only; omega, Chained.of_linked ?_ hlinked hhash rfl, rfl⟩
    rw [hseq, show start.val - 1 + 1 = start.val by omega]

theorem requireMaterials_eq_ok
    {materials : Except SupabaseRpcError (Option (MonthlyDigestVerificationMaterials P))}
    {m : MonthlyDigestVerificationMaterials P} :
    requireMaterials materials = .ok m ↔ materials = .ok (some m) := by
  rcases materials with _ | _ | m' <;> simp [requireMaterials]

theorem requireCurrentRange_eq_ok
    {range : Except SupabaseRpcError (Option LedgerRangeForMonth)}
    {current : LedgerRangeForMonth} :
    requireCurrentRange range = .ok current ↔ range = .ok (some current) := by
  rcases range with _ | _ | r <;> simp [requireCurrentRange]

/-- The chain part of the verification, from the first row on. -/
theorem verifyLedgerChain_rows_iff {start : LedgerSequenceNo} {last : LedgerHash} :
    (∃ first entries keys head final, rows.head? = some first ∧
        Result.traverse (·.tryRestoreSignedLedgerEntry) rows = .ok entries ∧
        collectKeys P rows [] = .ok keys ∧
        LedgerChainHead.new (start.val - 1) first.previousEntryHash = .ok head ∧
        verifyLedgerChain entries head keys = .ok final ∧ final.lastEntryHash = last) ↔
      ∃ entries, entries ≠ [] ∧
        List.Forall₂ (fun row e => row.tryRestoreSignedLedgerEntry = .ok e) rows entries ∧
        entries.map (fun e => e.sequenceNo.val) = List.range' start.val entries.length ∧
        (∃ first, HashChain.Linked (fun e : SignedLedgerEntry => e.previousEntryHash)
          (·.entryHash) first entries last) ∧
        (∀ e ∈ entries, e.recomputeEntryHash P = e.entryHash) ∧
        SharedKeysAccept P rows entries := by
  have hpos := start.pos
  simp only [Result.traverse_eq_ok, verifyLedgerChain_eq_ok]
  constructor
  · rintro ⟨first, entries, keys, head, final, hfirst, hentries, hkeys, hhead, ⟨hchain, hsigs⟩,
      hlast⟩
    have hne : entries ≠ [] := by
      rintro rfl
      rw [List.forall₂_nil_right_iff.mp hentries] at hfirst
      cases hfirst
    have hseq : head.lastSequenceNo + 1 = start.val := by
      unfold LedgerChainHead.new at hhead
      split at hhead <;> cases hhead
      exact Nat.sub_add_cancel hpos
    obtain ⟨hseqs, hlinked, hhash⟩ := (exists_chained_iff hne).mp ⟨head, final, hseq, hchain, hlast⟩
    exact ⟨entries, hne, hentries, hseqs, hlinked, hhash, keys, hkeys, hsigs⟩
  · rintro ⟨entries, hne, hentries, hseqs, hlinked, hhash, keys, hkeys, hsigs⟩
    obtain ⟨head, final, hseq, hchain, hlast⟩ :=
      (exists_chained_iff hne).mpr ⟨hseqs, hlinked, hhash⟩
    cases hentries with
    | nil => exact absurd rfl hne
    | @cons row e rows es he hes =>
      -- the hash the first row names is the one the chain starts from
      have hfields := row.tryRestoreSignedLedgerEntry_fields he
      have hhead : LedgerChainHead.new (start.val - 1) row.previousEntryHash = .ok head := by
        rw [← hfields.2.1, hchain.1.previousEntryHash,
          show start.val - 1 = head.lastSequenceNo by omega]
        exact head.new_eq
      exact ⟨row, _, keys, head, final, rfl, .cons he hes, hkeys, hhead, ⟨hchain, hsigs⟩, hlast⟩

end

/-- The verification accepts exactly what is vouched for, and returns the positions and the count
of the materials. -/
theorem verifyMonthlyDigest_eq_ok {P : Primitives}
    {materials : Except SupabaseRpcError (Option (MonthlyDigestVerificationMaterials P))}
    {exported : LedgerSequenceNo → LedgerSequenceNo →
      Except SupabaseRpcError (List LedgerVerificationMaterialRow)}
    {range : Except SupabaseRpcError (Option LedgerRangeForMonth)}
    {period : MonthlyDigestPeriod} {info : VerifiedMonthlyDigestInfo} :
    verifyMonthlyDigest P materials exported range period = .ok info ↔
      ∃ m rows current, materials = .ok (some m) ∧
        exported m.startSequenceNo m.endSequenceNo = .ok rows ∧ range = .ok (some current) ∧
        VouchedDigest P period m rows current ∧
        info = ⟨m.startSequenceNo, m.endSequenceNo, m.storedEntryCount⟩ := by
  simp only [verifyMonthlyDigest, Result.bind_eq_ok, requireMaterials_eq_ok,
    requireCurrentRange_eq_ok, Result.mapError_eq_ok, Result.ofOption_eq_ok,
    Result.require_eq_ok, decide_eq_true_eq, LedgerVerifyingKey.verifyDigestBytes,
    DigestHash.fromCanonicalBytes, Result.pure_eq_ok]
  constructor
  · rintro ⟨m, hm, rows, hrows, first, hfirst, entries, hentries, keys, hkeys, head, hhead,
      final, hfinal, _, hend, key, hkey, _, hhash, _, hsig, current, hcurrent, _, hrange, rfl⟩
    exact ⟨m, rows, current, hm, hrows, hcurrent,
      ⟨verifyLedgerChain_rows_iff.mp
        ⟨first, entries, keys, head, final, hfirst, hentries, hkeys, hhead, hfinal, hend⟩,
        of_decide_eq_true hhash, ⟨key, hkey, hsig⟩, hrange.1, hrange.2⟩, rfl⟩
  · rintro ⟨m, rows, current, hm, hrows, hcurrent,
      ⟨hchain, hhash, ⟨key, hkey, hsig⟩, hcount, hstop⟩, rfl⟩
    obtain ⟨first, entries, keys, head, final, hfirst, hentries, hkeys, hhead, hfinal, hend⟩ :=
      verifyLedgerChain_rows_iff.mpr hchain
    exact ⟨m, hm, rows, hrows, first, hfirst, entries, hentries, keys, hkeys, head, hhead,
      final, hfinal, (), hend, key, hkey, (), decide_eq_true hhash, (), hsig, current, hcurrent, (),
      ⟨hcount, hstop⟩, rfl⟩

/-- **What an accepted digest guarantees.** For all answers of the three calls, the verification
accepts if and only if the materials, the rows and the present range are there and
`VouchedDigest` holds of them. -/
theorem verifyMonthlyDigest_sound (P : Primitives)
    (materials : Except SupabaseRpcError (Option (MonthlyDigestVerificationMaterials P)))
    (exported : LedgerSequenceNo → LedgerSequenceNo →
      Except SupabaseRpcError (List LedgerVerificationMaterialRow))
    (range : Except SupabaseRpcError (Option LedgerRangeForMonth))
    (period : MonthlyDigestPeriod) :
    (∃ info, verifyMonthlyDigest P materials exported range period = .ok info) ↔
      ∃ m rows current, materials = .ok (some m) ∧
        exported m.startSequenceNo m.endSequenceNo = .ok rows ∧ range = .ok (some current) ∧
        VouchedDigest P period m rows current := by
  constructor
  · rintro ⟨info, h⟩
    obtain ⟨m, rows, current, hm, hrows, hcurrent, hvouched, -⟩ := verifyMonthlyDigest_eq_ok.mp h
    exact ⟨m, rows, current, hm, hrows, hcurrent, hvouched⟩
  · rintro ⟨m, rows, current, hm, hrows, hcurrent, hvouched⟩
    exact ⟨_, verifyMonthlyDigest_eq_ok.mpr ⟨m, rows, current, hm, hrows, hcurrent, hvouched, rfl⟩⟩

/-! ### Concrete values -/

/-- A message that is no entry's canonical form finds its row after those of the entries. -/
theorem lookup_after_tableRows {entries : List SignedLedgerEntry} {message : List UInt8}
    (row : LedgerHash × LedgerSignature)
    (h : ∀ e : LedgerEntryParts, message ≠ e.canonicalPayload) :
    (entries.map SignedLedgerEntry.tableRow ++ [(message, row)]).lookup message = some row := by
  induction entries with
  | nil => simp
  | cons e es ih =>
    have hne : (message == e.canonicalPayload) = false := beq_eq_false_iff_ne.mpr (h _)
    rw [List.map_cons, List.cons_append, SignedLedgerEntry.tableRow, List.lookup_cons, hne]
    exact ih

/-- The month of the sample entries. -/
def samplePeriod : MonthlyDigestPeriod :=
  ⟨"2026-01", by decide +kernel⟩

/-- The first instant after the month. -/
def sampleGeneratedAt : SourceEventAt :=
  ⟨"2026-02-01T00:00:00Z", by decide +kernel⟩

/-- The position after those of the two sample entries. -/
def sampleThirdNo : LedgerSequenceNo :=
  ⟨3, by decide, by decide⟩

/-- The canonical form of a digest over positions 2 and 3 that counts five entries and names no
start hash. -/
def forgedBytes : List UInt8 :=
  buildMonthlyDigestCanonicalForm samplePeriod sampleNext.sequenceNo sampleThirdNo
    LedgerHash.genesis sampleNext.entryHash 5 sampleGeneratedAt sampleKey.keyVersion

/-- The SHA-256 of the form. -/
def forgedHash : DigestHash :=
  .ofNat _ 0x8b6702816dc1bb9f95df0473a5238db208ceb00cd3bc1a0d008569ae0dbd4db1

/-- Its Ed25519 signature under `sampleKey`. -/
def forgedSignature : LedgerSignature :=
  .ofHalves _
    0xdf3b03ef0f113aa8fbae0440396c5ce9b9857b80050d5ccc7009fa4823cfa768
    0xb1f3d1aef308e2e46669de0c849dd2f336fe7b1787e7e9a344535b42c456eb0a

/-- The table of `sampleNext` and the form. -/
def forgedPrimitives : Primitives :=
  .ofTable samplePublicKey ([sampleNext].map SignedLedgerEntry.tableRow ++
    [(forgedBytes, forgedHash, forgedSignature)])

/-- Materials that carry the form; the month they name is another one. -/
def forgedMaterials : MonthlyDigestVerificationMaterials forgedPrimitives where
  startSequenceNo := sampleNext.sequenceNo
  endSequenceNo := sampleThirdNo
  storedEntryCount := 5
  storedDigestHash := LedgerHash.toHex forgedHash
  targetYearMonth := ⟨"2025-12", by decide +kernel⟩
  digestGeneratedAt := sampleGeneratedAt
  signature := forgedSignature
  signatureKeyVersion := sampleKey.keyVersion
  publicKey := some (sampleKey.verificationKey forgedPrimitives)
  startEntryHash := LedgerHash.genesis
  endEntryHash := sampleNext.entryHash

/-- The range of the month over the ledger of the two sample entries. -/
def sampleRange : LedgerRangeForMonth where
  startSequenceNo := (sampleEntry 1).sequenceNo
  endSequenceNo := sampleNext.sequenceNo
  startEntryHash := (sampleEntry 1).entryHash
  endEntryHash := sampleNext.entryHash
  entryCount := 2

/-- An accepted digest for which the rest fails: position 3 is missing from the rows, the start
hash is not that of the entry at the start, the materials name another month, five entries are
counted where the month has two, and one of them lies before the start. -/
theorem verifyMonthlyDigest_accepts_forged :
    (∃ info, verifyMonthlyDigest forgedPrimitives (.ok (some forgedMaterials))
        (fun _ _ => .ok [sampleRow sampleNext]) (.ok (some sampleRange)) samplePeriod =
          .ok info) ∧
      (∀ row ∈ [sampleRow sampleNext],
        row.sequenceNo ≠ forgedMaterials.endSequenceNo) ∧
      sampleNext.entryHash ≠ forgedMaterials.startEntryHash ∧
      forgedMaterials.targetYearMonth ≠ samplePeriod ∧
      forgedMaterials.storedEntryCount ≠ sampleRange.entryCount ∧
      sampleRange.startSequenceNo.val < forgedMaterials.startSequenceNo.val := by
  obtain ⟨hrestore, hkey⟩ : RestoresWithKey forgedPrimitives (sampleRow sampleNext)
      (sampleNext, sampleKey.verificationKey forgedPrimitives) := restoresWithKey_sampleRow rfl
  have hsigned : SignedBy forgedPrimitives sampleKey sampleNext :=
    signedBy_ofTable _ (by simp) (List.pairwise_singleton _ _) rfl
  have haccepted : SignatureAccepted [sampleKey.verificationKey forgedPrimitives] sampleNext :=
    hsigned.signatureAccepted (LedgerSigningKey.find?_verificationKey _)
  -- no entry has the canonical form of a digest, so the lookup gets to its line
  have hrow : ([sampleNext].map SignedLedgerEntry.tableRow ++
      [(forgedBytes, forgedHash, forgedSignature)]).lookup forgedBytes =
        some (forgedHash, forgedSignature) :=
    lookup_after_tableRows _ fun e =>
      buildMonthlyDigestCanonicalForm_ne_canonicalPayload _ _ _ _ _ _ _ _ e
  refine ⟨⟨_, verifyMonthlyDigest_eq_ok.mpr
    ⟨forgedMaterials, _, sampleRange, rfl, rfl, rfl, ?_, rfl⟩⟩, ?_, ?_, ?_, ?_, ?_⟩
  · have hform : forgedMaterials.canonicalForm samplePeriod = forgedBytes := rfl
    refine ⟨⟨[sampleNext], by simp, .cons hrestore .nil, rfl, ⟨sampleHash, rfl, rfl⟩, ?_, ?_⟩,
      ?_, ⟨_, rfl, ?_⟩, by decide, by decide⟩
    · simpa using hsigned.entryHash
    · refine ⟨[sampleKey.verificationKey forgedPrimitives], ?_, by simpa using haccepted⟩
      rw [collectKeys, hkey]
      rfl
    · rw [hform]
      exact congrArg LedgerHash.toHex (Primitives.sha256_ofTable hrow)
    · rw [hform]
      exact (Primitives.verify_ofTable hrow _ _).trans (decide_eq_true rfl)
  · simp [sampleRow, LedgerVerificationMaterialRow.ofSigned, forgedMaterials, sampleNext,
      sampleThirdNo]
  · decide +kernel
  · decide +kernel
  · decide
  · decide

end Mipsorcu
