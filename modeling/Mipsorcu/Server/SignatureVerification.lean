import Mipsorcu.Protocol.LedgerAppend
import Mipsorcu.Server.Auditor

/-!
# Who vouches for which rows

Three verifiers look at the signatures of a range of the ledger: the full-ledger signature job
(the scheduler and the signature-key command), the signature check of the audit report, and the
signature range of the audit interface. Each takes the rows the export call returns, and the
transport returns at most `postgrestMaxRows` of them.

The signature job looks at every row by itself; the other two run the verifier from the start of
the range. None looks at the end of the range. `signatureVerifiers_cover_iff` says for each on
which rows its `valid = true` vouches for rows it has not seen, and up to which length the
scheduler's two jobs report an untampered ledger as valid.
-/

namespace Mipsorcu

variable (P : Primitives)

/-! ### The full-ledger jobs -/

/-- `fetch_full_ledger_material_rows`, with the answers of the two calls. -/
def fetchFullLedgerMaterialRows (head : Except SupabaseRpcError LedgerChainHead)
    (exported : LedgerSequenceNo → LedgerSequenceNo →
      Except SupabaseRpcError (List LedgerVerificationMaterialRow)) :
    Except String (LedgerChainHead × List LedgerVerificationMaterialRow) := do
  let chainHead ← head.mapError fun _ => "ledger_chain_head_fetch_failed"
  if chainHead.lastSequenceNo = 0 then pure (chainHead, [])
  else do
    let stop ← (LedgerSequenceNo.new chainHead.lastSequenceNo).mapError
      fun _ => "ledger_sequence_invalid"
    let start ← (LedgerSequenceNo.new 1).mapError fun _ => "ledger_sequence_invalid"
    let rows ← (exported start stop).mapError fun _ => "ledger_export_failed"
    pure (chainHead, rows)

/-- `verify_full_ledger_hash_chain`. -/
def verifyFullLedgerHashChain (head : Except SupabaseRpcError LedgerChainHead)
    (exported : LedgerSequenceNo → LedgerSequenceNo →
      Except SupabaseRpcError (List LedgerVerificationMaterialRow)) :
    Except String LedgerVerificationSummary := do
  let (chainHead, rows) ← fetchFullLedgerMaterialRows head exported
  verifyHashChainRows P chainHead rows

/-- `verify_full_ledger_signatures`: the head only bounds the export. -/
def verifyFullLedgerSignatures (head : Except SupabaseRpcError LedgerChainHead)
    (exported : LedgerSequenceNo → LedgerSequenceNo →
      Except SupabaseRpcError (List LedgerVerificationMaterialRow)) :
    Except String LedgerVerificationSummary := do
  let (_, rows) ← fetchFullLedgerMaterialRows head exported
  verifySignatureRows P rows

/-! ### The audit report -/

/-- A failure in a report. -/
structure VerificationFailureReportItem where
  code : String
  occurredAt : String
  sequenceNo : Option ℕ
  source : String
  deriving DecidableEq

/-- A failure of the signature check. -/
def signatureFailureItem (code occurredAt : String) (sequenceNo : Option ℕ) :
    VerificationFailureReportItem :=
  ⟨code, occurredAt, sequenceNo, "ledger_signature"⟩

/-- What the report says about signatures. -/
structure SignatureVerificationSummary where
  checkedCount : ℕ
  detail : Option String
  valid : Bool
  deriving DecidableEq

/-- The fields of the report summary that the check reads and writes. -/
structure AuditReportSummary where
  sequenceStart : Option ℕ
  sequenceEnd : Option ℕ
  periodEnd : String
  verificationFailures : List VerificationFailureReportItem

/-- The failure of the check itself; the source keeps the printed form of the error. -/
inductive AuditReportCliError where
  | ledger (error : LedgerError)
  | rpc (error : SupabaseRpcError)
  | noEntries
  deriving DecidableEq

/-- A row that could not be restored: the row, the error, and the count reported for it. -/
structure ReportRestoreError where
  row : LedgerVerificationMaterialRow
  error : LedgerError
  checkedCount : ℕ

/-- The loop that restores the rows, after `entries` and `keys`. -/
def restoreReportRows : List LedgerVerificationMaterialRow → List SignedLedgerEntry →
    List (LedgerVerifyingKey P) →
    Except ReportRestoreError (List SignedLedgerEntry × List (LedgerVerifyingKey P))
  | [], entries, keys => .ok (entries, keys)
  | row :: rows, entries, keys => do
    let entry ← row.tryRestoreSignedLedgerEntry.mapError fun e => ⟨row, e, entries.length⟩
    let key ← (row.tryRestoreVerifyingKey P).mapError fun e => ⟨row, e, entries.length + 1⟩
    restoreReportRows rows (entries ++ [entry]) (match key with
      | some key => pushKey keys key
      | none => keys)

/-- `initial_head_for_report_range`. -/
def initialHeadForReportRange (sequenceStart : ℕ) (entries : List SignedLedgerEntry) :
    Except AuditReportCliError LedgerChainHead :=
  if sequenceStart = 1 then .ok .genesis
  else do
    let first ← Result.ofOption .noEntries entries.head?
    (LedgerChainHead.new (sequenceStart - 1) first.previousEntryHash).mapError .ledger

/-- The summary with a failure added, and the report of it. -/
def reportFailure (summary : AuditReportSummary) (code occurredAt : String) (sequenceNo : ℕ)
    (checkedCount : ℕ) : AuditReportSummary × SignatureVerificationSummary :=
  ({ summary with verificationFailures :=
      summary.verificationFailures ++ [signatureFailureItem code occurredAt (some sequenceNo)] },
    ⟨checkedCount, some (code ++ " at sequence " ++ toString sequenceNo), false⟩)

/-- `verify_signatures_for_summary`, with the answer of the export call. -/
def verifySignaturesForSummary
    (exported : LedgerSequenceNo → LedgerSequenceNo →
      Except SupabaseRpcError (List LedgerVerificationMaterialRow))
    (summary : AuditReportSummary) :
    Except AuditReportCliError (AuditReportSummary × SignatureVerificationSummary) :=
  match summary.sequenceStart, summary.sequenceEnd with
  | some sequenceStart, some sequenceEnd => do
    let start ← (LedgerSequenceNo.new sequenceStart).mapError .ledger
    let stop ← (LedgerSequenceNo.new sequenceEnd).mapError .ledger
    let rows ← (exported start stop).mapError .rpc
    if rows = [] then
      pure (reportFailure summary "ledger_export_empty" summary.periodEnd sequenceStart 0)
    else match restoreReportRows P rows [] [] with
      | .error failed =>
        let item := mapLedgerErrorToCodeAndSequence failed.error (some failed.row.sequenceNo.val)
        pure (reportFailure summary item.code failed.row.sourceEventAt item.sequenceNo
          failed.checkedCount)
      | .ok (entries, keys) => do
        let initialHead ← initialHeadForReportRange sequenceStart entries
        match verifyLedgerChain entries initialHead keys with
        | .ok _ => pure (summary, ⟨entries.length, none, true⟩)
        | .error error =>
          let item := mapLedgerErrorToCodeAndSequence error none
          -- the error names a position, and the time is that of its entry
          let occurredAt := ((entries.find? fun e => e.sequenceNo.val = item.sequenceNo).map
            (·.sourceEventAt.text)).getD summary.periodEnd
          pure (reportFailure summary item.code occurredAt item.sequenceNo entries.length)
  -- a period without entries counts as valid
  | _, _ => .ok (summary, ⟨0, some "no ledger entries in period", true⟩)

/-! ### The audit interface -/

/-- The answer of the audit UI. -/
structure SignatureVerificationResponse where
  valid : Bool
  checkedCount : ℕ
  startSequenceNo : Option ℕ
  endSequenceNo : Option ℕ
  errorCode : Option String
  deriving DecidableEq

/-- The answer for a range that does not verify. -/
def signatureFailure (start stop : LedgerSequenceNo) (checkedCount : ℕ) (errorCode : String) :
    SignatureVerificationResponse :=
  ⟨false, checkedCount, some start.val, some stop.val, some errorCode⟩

/-- The codes of the audit UI. -/
def ledgerErrorCode : LedgerError → String
  | .sequenceGap _ _ => "ledger_sequence_gap"
  | .previousHashMismatch _ => "ledger_previous_hash_mismatch"
  | .hashMismatch _ => "ledger_entry_hash_mismatch"
  | .unknownSignatureKey _ _ => "ledger_signature_key_missing"
  | .signatureInvalid _ => "ledger_signature_invalid"
  | .sequenceOverflow => "ledger_sequence_overflow"
  | _ => "ledger_signature_verification_failed"

/-- The keys after a row: the row's key is restored only if its version is new. -/
def nextMaterialKeys {P : Primitives} (keys : List (LedgerVerifyingKey P))
    (row : LedgerVerificationMaterialRow) (entry : SignedLedgerEntry) :
    Except String (List (LedgerVerifyingKey P)) :=
  if keys.any fun key => key.keyVersion = entry.signatureKeyVersion then .ok keys
  else match row.tryRestoreVerifyingKey P with
    | .ok (some key) => .ok (keys ++ [key])
    | .ok none => .error "ledger_signature_key_missing"
    | .error _ => .error "ledger_key_restore_failed"

/-- The loop of `verify_signature_material_rows`, after `entries` and `keys`. -/
def restoreMaterialRows : List LedgerVerificationMaterialRow → List SignedLedgerEntry →
    List (LedgerVerifyingKey P) →
    Except LedgerAnomaly (List SignedLedgerEntry × List (LedgerVerifyingKey P))
  | [], entries, keys => .ok (entries, keys)
  | row :: rows, entries, keys =>
    if ledgerPayloadContainsForbiddenKey row.payload then
      .error ⟨entries.length, "ledger_payload_forbidden_key"⟩
    else do
      let entry ← row.tryRestoreSignedLedgerEntry.mapError
        fun _ => ⟨entries.length, "ledger_entry_restore_failed"⟩
      let keys ← (nextMaterialKeys keys row entry).mapError fun code => ⟨entries.length, code⟩
      restoreMaterialRows rows (entries ++ [entry]) keys

/-- `initial_chain_head`. -/
def initialChainHead (start : LedgerSequenceNo) (rows : List LedgerVerificationMaterialRow) :
    Except LedgerError LedgerChainHead :=
  if start.val = 1 then .ok .genesis
  else do
    let first ← Result.ofOption (.invalidPositiveInteger "sequence_no") rows.head?
    LedgerChainHead.new (start.val - 1) first.previousEntryHash

/-- `verify_signature_material_rows`. -/
def verifySignatureMaterialRows (start stop : LedgerSequenceNo)
    (rows : List LedgerVerificationMaterialRow) : SignatureVerificationResponse :=
  match restoreMaterialRows P rows [] [] with
  | .error anomaly => signatureFailure start stop anomaly.checkedCount anomaly.errorCode
  | .ok (entries, keys) =>
    match initialChainHead start rows with
    | .error _ => signatureFailure start stop entries.length "ledger_chain_head_build_failed"
    | .ok initialHead =>
      match verifyLedgerChain entries initialHead keys with
      | .ok _ => ⟨true, entries.length, some start.val, some stop.val, none⟩
      | .error error => signatureFailure start stop entries.length (ledgerErrorCode error)

/-- `verify_signature_range`, with the answer of the export call. -/
def verifySignatureRange
    (exported : LedgerSequenceNo → LedgerSequenceNo →
      Except SupabaseRpcError (List LedgerVerificationMaterialRow))
    (start stop : Option LedgerSequenceNo) :
    Except SupabaseRpcError SignatureVerificationResponse :=
  match start, stop with
  | some start, some stop => do
    let rows ← exported start stop
    if rows = [] then
      pure (signatureFailure start stop 0 "ledger_range_empty")
    else pure (verifySignatureMaterialRows P start stop rows)
  | _, _ => .ok ⟨true, 0, none, none, none⟩

variable {P}

/-! ### What a valid report means -/

/-- The entries are a chain from the position before `start`; from genesis, if that is 0. -/
def VerifiesFrom (P : Primitives) (start : LedgerSequenceNo) (entries : List SignedLedgerEntry) :
    Prop :=
  ∃ head final, head.lastSequenceNo + 1 = start.val ∧ (start.val = 1 → head = .genesis) ∧
    Chained P head entries final

variable {start stop : LedgerSequenceNo} {rows : List LedgerVerificationMaterialRow}

/-- The head the verifiers of a range start from: genesis, or the hash the first entry names. -/
theorem verifiesFrom_iff {first : SignedLedgerEntry} {rest : List SignedLedgerEntry} :
    VerifiesFrom P start (first :: rest) ↔ ∃ head final,
      (if start.val = 1 then .ok .genesis else
        LedgerChainHead.new (start.val - 1) first.previousEntryHash) = .ok head ∧
      Chained P head (first :: rest) final := by
  have hpos := start.pos
  by_cases hstart : start.val = 1
  · simp only [VerifiesFrom, hstart, if_true, Except.ok.injEq]
    constructor
    · rintro ⟨head, final, -, hhead, hchain⟩
      exact ⟨head, final, (hhead trivial).symm, hchain⟩
    · rintro ⟨_, final, rfl, hchain⟩
      exact ⟨_, final, rfl, fun _ => rfl, hchain⟩
  · simp only [VerifiesFrom, if_neg hstart]
    constructor
    · rintro ⟨head, final, hseq, -, hchain⟩
      refine ⟨head, final, ?_, hchain⟩
      rw [hchain.1.previousEntryHash, show start.val - 1 = head.lastSequenceNo by omega]
      exact head.new_eq
    · rintro ⟨head, final, hnew, hchain⟩
      unfold LedgerChainHead.new at hnew
      split at hnew <;> cases hnew
      exact ⟨_, final, Nat.sub_add_cancel hpos, fun h => absurd h hstart, hchain⟩

theorem restoreReportRows_eq_ok {entries es : List SignedLedgerEntry}
    {keys ks : List (LedgerVerifyingKey P)} :
    restoreReportRows P rows entries keys = .ok (es, ks) ↔ ∃ new,
      List.Forall₂ (fun row e => row.tryRestoreSignedLedgerEntry = .ok e) rows new ∧
      collectKeys P rows keys = .ok ks ∧ es = entries ++ new := by
  induction rows generalizing entries keys with
  | nil =>
    simp only [restoreReportRows, collectKeys, List.forall₂_nil_left_iff, Except.ok.injEq,
      Prod.mk.injEq]
    constructor
    · rintro ⟨rfl, rfl⟩; exact ⟨[], rfl, rfl, by simp⟩
    · rintro ⟨_, rfl, rfl, rfl⟩; simp
  | cons row rows ih =>
    simp only [restoreReportRows, collectKeys, Result.bind_eq_ok, Result.mapError_eq_ok, ih]
    constructor
    · rintro ⟨e, he, key, hkey, new, hnew, hkeys, rfl⟩
      exact ⟨e :: new, .cons he hnew, ⟨key, hkey, hkeys⟩, by simp⟩
    · rintro ⟨new, hnew, ⟨key, hkey, hkeys⟩, rfl⟩
      obtain ⟨e, new, he, hrest, rfl⟩ := List.forall₂_cons_left_iff.mp hnew
      exact ⟨e, he, key, hkey, new, hrest, hkeys, by simp⟩

theorem initialHeadForReportRange_eq_ok {first : SignedLedgerEntry}
    {rest : List SignedLedgerEntry} {head : LedgerChainHead} :
    initialHeadForReportRange start.val (first :: rest) = .ok head ↔
      (if start.val = 1 then .ok .genesis else
        LedgerChainHead.new (start.val - 1) first.previousEntryHash) = .ok head := by
  rw [initialHeadForReportRange]
  split <;> simp

/-- The report of the audit report's check, for rows that are there. -/
theorem verifySignaturesForSummary_valid {periodEnd : String}
    {failures : List VerificationFailureReportItem} :
    (∃ summary s, verifySignaturesForSummary P (fun _ _ => .ok rows)
        ⟨some start.val, some stop.val, periodEnd, failures⟩ = .ok (summary, s) ∧
        s.valid = true) ↔
      rows ≠ [] ∧ ∃ entries,
        List.Forall₂ (fun row e => row.tryRestoreSignedLedgerEntry = .ok e) rows entries ∧
        VerifiesFrom P start entries ∧ SharedKeysAccept P rows entries := by
  simp only [verifySignaturesForSummary, LedgerSequenceNo.new_val, Result.mapError_ok,
    Result.ok_bind]
  -- no rows at all are reported as a failure
  by_cases hrows : rows = []
  · simp [hrows, reportFailure]
  rw [if_neg hrows]
  constructor
  · rintro ⟨summary, s, h, hvalid⟩
    refine ⟨hrows, ?_⟩
    split at h
    · cases h; cases hvalid
    rename_i entries keys hrestored
    obtain ⟨new, hnew, hkeys, hentries⟩ := restoreReportRows_eq_ok.mp hrestored
    obtain rfl : entries = new := hentries
    obtain ⟨head, hhead, h⟩ := Result.bind_eq_ok.mp h
    split at h
    · rename_i final hfinal
      obtain ⟨hchain, hsigs⟩ := verifyLedgerChain_eq_ok.mp hfinal
      -- the head is that before the first entry, so there has to be one
      refine ⟨entries, hnew, ?_, keys, hkeys, hsigs⟩
      cases hnew with
      | nil => exact absurd rfl hrows
      | cons =>
        exact verifiesFrom_iff.mpr ⟨head, final, initialHeadForReportRange_eq_ok.mp hhead, hchain⟩
    · cases h; cases hvalid
  · rintro ⟨-, entries, hentries, hchain, keys, hkeys, hsigs⟩
    have hrestored : restoreReportRows P rows [] [] = .ok (entries, keys) :=
      restoreReportRows_eq_ok.mpr ⟨entries, hentries, hkeys, rfl⟩
    cases hentries with
    | nil => exact absurd rfl hrows
    | @cons row first rows rest =>
      obtain ⟨head, final, hhead, hchain⟩ := verifiesFrom_iff.mp hchain
      have hverify : verifyLedgerChain (first :: rest) head keys = .ok final :=
        verifyLedgerChain_eq_ok.mpr ⟨hchain, hsigs⟩
      refine ⟨⟨some start.val, some stop.val, periodEnd, failures⟩,
        ⟨(first :: rest).length, none, true⟩, ?_, rfl⟩
      simp only [hrestored, initialHeadForReportRange_eq_ok.mpr hhead, Result.ok_bind, hverify]
      rfl

theorem restoreMaterialRows_eq_ok {entries es : List SignedLedgerEntry}
    {keys ks : List (LedgerVerifyingKey P)}
    (h : restoreMaterialRows P rows entries keys = .ok (es, ks)) : ∃ new,
      List.Forall₂ (fun row e => row.tryRestoreSignedLedgerEntry = .ok e) rows new ∧
      es = entries ++ new := by
  induction rows generalizing entries keys with
  | nil => cases h; exact ⟨[], .nil, by simp⟩
  | cons row rows ih =>
    rw [restoreMaterialRows] at h
    split at h
    · cases h
    · simp only [Result.bind_eq_ok, Result.mapError_eq_ok] at h
      obtain ⟨e, he, _, -, hrest⟩ := h
      obtain ⟨new, hnew, rfl⟩ := ih hrest
      exact ⟨e :: new, .cons he hnew, by simp⟩

/-- The rows pass the loop of the audit interface, and the keys it keeps accept the
signatures. -/
def MaterialKeysAccept (P : Primitives) (rows : List LedgerVerificationMaterialRow)
    (entries : List SignedLedgerEntry) : Prop :=
  ∃ keys, restoreMaterialRows P rows [] [] = .ok (entries, keys) ∧
    ∀ e ∈ entries, SignatureAccepted keys e

/-- The row and the entry it restores to name the same hash before them. -/
theorem initialChainHead_cons {row : LedgerVerificationMaterialRow} {e : SignedLedgerEntry}
    (h : row.tryRestoreSignedLedgerEntry = .ok e) :
    initialChainHead start (row :: rows) = if start.val = 1 then .ok .genesis else
      LedgerChainHead.new (start.val - 1) e.previousEntryHash := by
  rw [initialChainHead, (row.tryRestoreSignedLedgerEntry_fields h).2.1]
  rfl

/-- The report of the audit interface, for rows that are there. -/
theorem verifySignatureRange_valid :
    (∃ r, verifySignatureRange P (fun _ _ => .ok rows) (some start) (some stop) = .ok r ∧
        r.valid = true) ↔
      rows ≠ [] ∧ ∃ entries, VerifiesFrom P start entries ∧ MaterialKeysAccept P rows entries := by
  simp only [verifySignatureRange, Result.ok_bind]
  by_cases hrows : rows = []
  · simp [hrows, signatureFailure]
  simp only [if_neg hrows, Result.pure_eq_ok, exists_eq_left', verifySignatureMaterialRows]
  constructor
  · intro hvalid
    refine ⟨hrows, ?_⟩
    -- a row that is not restored, and a head that is not found, are failures too
    split at hvalid
    · cases hvalid
    rename_i entries keys hrestored
    obtain ⟨new, hnew, hentries⟩ := restoreMaterialRows_eq_ok hrestored
    obtain rfl : entries = new := hentries
    split at hvalid
    · cases hvalid
    rename_i head hhead
    split at hvalid
    · rename_i final hfinal
      obtain ⟨hchain, hsigs⟩ := verifyLedgerChain_eq_ok.mp hfinal
      refine ⟨entries, ?_, keys, hrestored, hsigs⟩
      cases hnew with
      | nil => exact absurd rfl hrows
      | cons he =>
        rw [initialChainHead_cons he] at hhead
        exact verifiesFrom_iff.mpr ⟨head, final, hhead, hchain⟩
    · cases hvalid
  · rintro ⟨-, entries, hchain, keys, hrestored, hsigs⟩
    obtain ⟨new, hnew, hentries⟩ := restoreMaterialRows_eq_ok hrestored
    obtain rfl : entries = new := hentries
    cases hnew with
    | nil => exact absurd rfl hrows
    | @cons row first rows rest he =>
      obtain ⟨head, final, hhead, hchain⟩ := verifiesFrom_iff.mp hchain
      have hverify : verifyLedgerChain (first :: rest) head keys = .ok final :=
        verifyLedgerChain_eq_ok.mpr ⟨hchain, hsigs⟩
      simp only [hrestored, initialChainHead_cons he, hhead, hverify]

/-! ### Which rows are vouched for -/

/-- The verifiers of signatures. -/
inductive SignatureVerifier where
  | fullLedger
  | auditReport
  | auditUi
  deriving DecidableEq

namespace SignatureVerifier

/-- The verifier reports `valid = true` when the chain head is `head`, the range asked for is
`start` to `stop` and the export returns `rows`. -/
def Vouches (P : Primitives) (head : LedgerChainHead) (start stop : LedgerSequenceNo)
    (rows : List LedgerVerificationMaterialRow) : SignatureVerifier → Prop
  | fullLedger =>
    ∃ s, verifyFullLedgerSignatures P (.ok head) (fun _ _ => .ok rows) = .ok s ∧ s.valid = true
  | auditReport =>
    ∃ periodEnd failures summary s, verifySignaturesForSummary P (fun _ _ => .ok rows)
      ⟨some start.val, some stop.val, periodEnd, failures⟩ = .ok (summary, s) ∧ s.valid = true
  | auditUi =>
    ∃ r, verifySignatureRange P (fun _ _ => .ok rows) (some start) (some stop) = .ok r ∧
      r.valid = true

/-- The range a verifier asks for: inside the ledger, and the whole of it in the full-ledger job.
-/
def Requests (head : LedgerChainHead) (start stop : LedgerSequenceNo) (v : SignatureVerifier) :
    Prop :=
  start.val ≤ stop.val ∧ stop.val ≤ head.lastSequenceNo ∧
    (v = fullLedger → start.val = 1 ∧ stop.val = head.lastSequenceNo)

/-- Nothing is wrong with the rows themselves. The full-ledger job looks at them one by one; the
other two want a chain from the start of the range. -/
def Passes (P : Primitives) (start : LedgerSequenceNo)
    (rows : List LedgerVerificationMaterialRow) : SignatureVerifier → Prop
  | fullLedger => NoForbiddenKeys rows ∧ ∀ row ∈ rows, SignatureRowAccepted P row
  | auditReport => rows ≠ [] ∧ ∃ entries,
      List.Forall₂ (fun row e => row.tryRestoreSignedLedgerEntry = .ok e) rows entries ∧
      VerifiesFrom P start entries ∧ SharedKeysAccept P rows entries
  | auditUi => rows ≠ [] ∧ ∃ entries, VerifiesFrom P start entries ∧
    MaterialKeysAccept P rows entries

end SignatureVerifier

/-- What the export call may return for a range: rows inside it, in the order of their positions,
no position twice. -/
def ReturnedFor (start stop : LedgerSequenceNo) (rows : List LedgerVerificationMaterialRow) :
    Prop :=
  (rows.map (·.sequenceNo.val)).Pairwise (· < ·) ∧
    ∀ row ∈ rows, start.val ≤ row.sequenceNo.val ∧ row.sequenceNo.val ≤ stop.val

/-- Every position of the range stands in the rows exactly once. -/
def Covers (start stop : LedgerSequenceNo) (rows : List LedgerVerificationMaterialRow) : Prop :=
  ∀ n, start.val ≤ n → n ≤ stop.val → (rows.map (·.sequenceNo.val)).count n = 1

/-- Positions are missing from the rows, and nothing else is wrong with them. -/
def CutOff (P : Primitives) (v : SignatureVerifier) (start stop : LedgerSequenceNo)
    (rows : List LedgerVerificationMaterialRow) : Prop :=
  rows.length < stop.val + 1 - start.val ∧ v.Passes P start rows

/-- With a head behind genesis, the rows of a full-ledger job are those of the export. -/
theorem fetchFullLedgerMaterialRows_of_pos {head : LedgerChainHead}
    (hpos : head.lastSequenceNo ≠ 0)
    {exported : LedgerSequenceNo → LedgerSequenceNo →
      Except SupabaseRpcError (List LedgerVerificationMaterialRow)}
    (hstart : start.val = 1) (hstop : stop.val = head.lastSequenceNo)
    (hrows : exported start stop = .ok rows) :
    fetchFullLedgerMaterialRows (.ok head) exported = .ok (head, rows) := by
  have hone : LedgerSequenceNo.new 1 = .ok start := by rw [← hstart, LedgerSequenceNo.new_val]
  have hlast : LedgerSequenceNo.new head.lastSequenceNo = .ok stop := by
    rw [← hstop, LedgerSequenceNo.new_val]
  simp only [fetchFullLedgerMaterialRows, Result.mapError_ok, Result.ok_bind, if_neg hpos, hone,
    hlast, hrows]
  rfl

/-- A verifier vouches exactly for rows with nothing wrong in them; the end of the range plays no
part. -/
theorem SignatureVerifier.vouches_iff {v : SignatureVerifier} {head : LedgerChainHead}
    (h : v.Requests head start stop) :
    v.Vouches P head start stop rows ↔ v.Passes P start rows := by
  cases v with
  | fullLedger =>
    obtain ⟨hstart, hstop⟩ := h.2.2 rfl
    have hpos : head.lastSequenceNo ≠ 0 := by
      have := stop.pos
      omega
    have hfetch : fetchFullLedgerMaterialRows (.ok head) (fun _ _ => .ok rows) =
        .ok (head, rows) :=
      fetchFullLedgerMaterialRows_of_pos hpos hstart hstop rfl
    simp only [Vouches, Passes, verifyFullLedgerSignatures, hfetch, Result.ok_bind,
      verifySignatureRows_valid]
    simp
  | auditReport =>
    simp only [Vouches, Passes, verifySignaturesForSummary_valid]
    simp
  | auditUi => exact verifySignatureRange_valid

/-- Rows the export may return cover the range exactly if there are enough of them. -/
theorem ReturnedFor.covers_iff (h : ReturnedFor start stop rows) :
    Covers start stop rows ↔ stop.val + 1 - start.val ≤ rows.length := by
  have hnodup : (rows.map (·.sequenceNo.val)).Nodup := h.1.imp ne_of_lt
  have hrange : (List.range' start.val (stop.val + 1 - start.val)).Nodup := List.nodup_range'
  -- distinct positions of a range fill it exactly if there are enough of them
  constructor
  · intro hcovers
    have hsubset : List.range' start.val (stop.val + 1 - start.val) ⊆
        rows.map (·.sequenceNo.val) := by
      intro n hn
      rw [List.mem_range'_1] at hn
      exact List.count_pos_iff.mp (by rw [hcovers n hn.1 (by omega)]; exact Nat.one_pos)
    simpa using (List.subperm_of_subset hrange hsubset).length_le
  · intro hlength n hstart hstop
    have hsubset : rows.map (·.sequenceNo.val) ⊆
        List.range' start.val (stop.val + 1 - start.val) := by
      intro m hm
      obtain ⟨row, hrow, rfl⟩ := List.mem_map.mp hm
      have := h.2 row hrow
      rw [List.mem_range'_1]
      omega
    have hperm := (List.subperm_of_subset hnodup hsubset).perm_of_length_le (by simpa using hlength)
    rw [hperm.count_eq]
    exact List.count_eq_one_of_mem hrange (List.mem_range'_1.mpr ⟨hstart, by omega⟩)

/-- A parsed row has the position of its response. -/
theorem LedgerVerificationMaterialRow.tryFrom_sequenceNo {r : LedgerVerificationMaterialResponse}
    {row : LedgerVerificationMaterialRow} (h : tryFrom r = .ok row) :
    (row.sequenceNo.val : ℤ) = r.sequenceNo := by
  simp only [tryFrom, Result.bind_eq_ok, Result.mapError_eq_ok, Result.pure_eq_ok] at h
  obtain ⟨_, -, sequenceNo, hseq, _, -, _, -, _, -, _, -, _, -, _, -, _, -, _, -, _, -, _, -, _, -,
    _, -, _, -, _, -, _, -, _, -, _, -, rfl⟩ := h
  exact LedgerSequenceNo.fromI64_eq_ok.mp hseq

/-- **What the export returns**, if the positions of the table are unique: `ReturnedFor` holds. -/
theorem returnedFor_exportLedgerVerificationMaterials {pg : Postgres} {db : LedgerDb}
    (hunique : (db.entries.map (·.sequenceNo)).Nodup)
    (h : exportLedgerVerificationMaterials pg db start stop = .ok rows) :
    ReturnedFor start stop rows := by
  simp only [exportLedgerVerificationMaterials, Sql.rpcExportLedgerVerificationMaterials,
    Result.bind_eq_ok, Result.mapError_eq_ok, Result.traverse_eq_ok] at h
  obtain ⟨returned, hreturned, hrows⟩ := h
  split at hreturned
  · cases hreturned
  cases hreturned
  -- the rows before the first parse, and their positions
  set selected := Sql.orderBySequenceNo (db.entries.filter fun row =>
    (start.val : ℤ) ≤ row.sequenceNo ∧ row.sequenceNo ≤ stop.val) with hselected
  rw [← List.map_take, List.map_map, List.forall₂_map_left_iff] at hrows
  have hpositions : rows.map (fun row => (row.sequenceNo.val : ℤ)) =
      (selected.take postgrestMaxRows).map (·.sequenceNo) := by
    rw [← List.forall₂_eq_eq_eq, List.forall₂_map_left_iff, List.forall₂_map_right_iff]
    exact hrows.flip.imp fun row r h => LedgerVerificationMaterialRow.tryFrom_sequenceNo h
  have hperm : selected.Perm (db.entries.filter fun row =>
      (start.val : ℤ) ≤ row.sequenceNo ∧ row.sequenceNo ≤ stop.val) :=
    List.perm_insertionSort _ _
  have hsorted : (selected.map (·.sequenceNo)).Pairwise (· < ·) := by
    have hle : selected.Pairwise fun a b => a.sequenceNo ≤ b.sequenceNo :=
      List.pairwise_insertionSort _ _
    have hne : (selected.map (·.sequenceNo)).Nodup :=
      ((hperm.map _).nodup_iff).mpr (hunique.sublist (List.filter_sublist.map _))
    rw [List.pairwise_map]
    exact (hle.and (List.pairwise_map.mp hne)).imp fun h => lt_of_le_of_ne h.1 h.2
  constructor
  · have hlt : (rows.map fun row => (row.sequenceNo.val : ℤ)).Pairwise (· < ·) := by
      rw [hpositions]
      exact hsorted.sublist ((List.take_sublist _ _).map _)
    rw [List.pairwise_map] at hlt ⊢
    exact hlt.imp fun h => Int.ofNat_lt.mp h
  · intro row hrow
    have hmem : (row.sequenceNo.val : ℤ) ∈ (selected.take postgrestMaxRows).map (·.sequenceNo) := by
      rw [← hpositions]
      exact List.mem_map_of_mem hrow
    obtain ⟨r, hr, hseq⟩ := List.mem_map.mp hmem
    have hrange := (List.mem_filter.mp (hperm.mem_iff.mp (List.mem_of_mem_take hr))).2
    simp only [decide_eq_true_eq, hseq] at hrange
    omega

/-! ### Untampered ledgers -/

/-- The key of every entry is registered. -/
def KeysRegistered (keys : List (LedgerVerifyingKey P)) (db : LedgerDb)
    (entries : List SignedLedgerEntry) : Prop :=
  ∀ e ∈ entries, ∀ key ∈ keys.find? fun key => key.keyVersion = e.signatureKeyVersion,
    ∃ row, Sql.registeredKey db e.signatureKeyVersion.val = some row ∧
      LedgerVerificationMaterialRow.Registers row key

/-- One key is registered by one row. -/
theorem keysRegistered_singleton {key : LedgerVerifyingKey P} {db : LedgerDb}
    {row : LedgerSigningPublicKeyRow} {entries : List SignedLedgerEntry}
    (hrow : Sql.registeredKey db key.keyVersion.val = some row)
    (h : LedgerVerificationMaterialRow.Registers row key) : KeysRegistered [key] db entries := by
  intro e _ k hk
  obtain rfl := List.mem_singleton.mp (List.mem_of_find?_eq_some hk)
  have hversion : k.keyVersion = e.signatureKeyVersion := by simpa using List.find?_some hk
  exact ⟨row, hversion ▸ hrow, h⟩

section

variable {pg : Postgres} {keys : List (LedgerVerifyingKey P)} {db : LedgerDb}
  {entries : List SignedLedgerEntry} {head : LedgerChainHead}

theorem noForbiddenKeys_exportedRow (pg : Postgres) (db : LedgerDb)
    (es : List SignedLedgerEntry) : NoForbiddenKeys (es.map (exportedRow pg db)) := by
  refine noForbiddenKeys_iff.mpr fun row hrow => ?_
  obtain ⟨e, -, rfl⟩ := List.mem_map.mp hrow
  exact e.payload.containsForbiddenKey_of_perm (pg.jsonbMembers_perm _)

/-- The exported row of a stored entry carries the key the verifier uses for it. -/
theorem LedgerState.restoresWithKey (h : LedgerState keys db entries head)
    (hkeys : KeysRegistered keys db entries) {e : SignedLedgerEntry} (he : e ∈ entries) :
    ∃ key, RestoresWithKey P (exportedRow pg db e) (e, key) ∧
      keys.find? (fun key => key.keyVersion = e.signatureKeyVersion) = some key ∧
      P.verify key.publicKey e.canonicalPayload e.signature = true := by
  obtain ⟨key, hfind, hsig⟩ := (verifyLedgerChain_eq_ok.mp h.verified).2 e he
  obtain ⟨row, hrow, hregisters⟩ := hkeys e he key hfind
  have hversion : key.keyVersion = e.signatureKeyVersion := by
    simpa using List.find?_some hfind
  refine ⟨key, ⟨restore_exportedRow pg db e, ?_⟩, hfind, hsig⟩
  rw [exportedRow, hrow]
  exact LedgerVerificationMaterialRow.restoreKey_ofSigned hregisters hversion
    (h.keyVersion_le e he) _

/-- The exported row of a stored entry passes the signature job. -/
theorem LedgerState.signatureRowAccepted (h : LedgerState keys db entries head)
    (hkeys : KeysRegistered keys db entries) {e : SignedLedgerEntry} (he : e ∈ entries) :
    SignatureRowAccepted P (exportedRow pg db e) := by
  obtain ⟨key, ⟨hrestore, hkey⟩, hfind, hsig⟩ := h.restoresWithKey hkeys he
  have hversion : key.keyVersion = e.signatureKeyVersion := by
    simpa using List.find?_some hfind
  exact ⟨e, key, hrestore, hkey, LedgerVerifyingKey.verifyPayload_eq_ok.mpr ⟨hversion, hsig⟩⟩

/-- The rows the full-ledger jobs work on: those of the first entries, up to the cap. -/
theorem LedgerState.fetchFullLedgerMaterialRows_eq (h : LedgerState keys db entries head) :
    fetchFullLedgerMaterialRows (fetchLedgerChainHead db)
        (exportLedgerVerificationMaterials pg db) =
      .ok (head, (entries.take postgrestMaxRows).map (exportedRow pg db)) := by
  rw [fetchLedgerChainHead_eq_ok h.chainState]
  have hlast := h.lastSequenceNo
  by_cases hzero : head.lastSequenceNo = 0
  · obtain rfl : entries = [] := List.length_eq_zero_iff.mp (hlast ▸ hzero)
    simp only [fetchFullLedgerMaterialRows, Result.mapError_ok, Result.ok_bind, if_pos hzero]
    rfl
  · have hmax := head.le_max
    have hpos : 0 < head.lastSequenceNo := Nat.pos_of_ne_zero hzero
    obtain ⟨start, hstart⟩ : ∃ s : LedgerSequenceNo, s.val = 1 :=
      ⟨⟨1, by decide, by decide⟩, rfl⟩
    obtain ⟨stop, hstop⟩ : ∃ s : LedgerSequenceNo, s.val = head.lastSequenceNo :=
      ⟨⟨head.lastSequenceNo, hpos, hmax⟩, rfl⟩
    refine fetchFullLedgerMaterialRows_of_pos hzero hstart hstop ?_
    rw [h.exportLedgerVerificationMaterials_eq pg (by omega), hstart, hstop, hlast]
    simp

/-- The job reports `valid = true` for `n` entries. -/
def JobConfirms (report : Except String LedgerVerificationSummary) (n : ℕ) : Prop :=
  ∃ s, report = .ok s ∧ s.valid = true ∧ s.checkedCount = n

theorem LedgerState.verifyFullLedgerSignatures_confirms (h : LedgerState keys db entries head)
    (hkeys : KeysRegistered keys db entries) {n : ℕ} :
    JobConfirms (verifyFullLedgerSignatures P (fetchLedgerChainHead db)
        (exportLedgerVerificationMaterials pg db)) n ↔
      n = (entries.take postgrestMaxRows).length := by
  simp only [JobConfirms, verifyFullLedgerSignatures, h.fetchFullLedgerMaterialRows_eq,
    Result.ok_bind, ← and_assoc, verifySignatureRows_valid]
  constructor
  · rintro ⟨_, ⟨-, rfl⟩, rfl⟩
    exact List.length_map _
  · rintro rfl
    refine ⟨_, ⟨⟨noForbiddenKeys_exportedRow pg db _, fun row hrow => ?_⟩, rfl⟩,
      List.length_map _⟩
    obtain ⟨e, he, rfl⟩ := List.mem_map.mp hrow
    exact h.signatureRowAccepted hkeys (List.mem_of_mem_take he)

/-- A list of rows cut off at the cap is no chain to the stored head. -/
theorem LedgerState.verifyFullLedgerHashChain_confirms (h : LedgerState keys db entries head)
    {n : ℕ} :
    JobConfirms (verifyFullLedgerHashChain P (fetchLedgerChainHead db)
        (exportLedgerVerificationMaterials pg db)) n ↔
      n = entries.length ∧ entries.length ≤ postgrestMaxRows := by
  simp only [JobConfirms, verifyFullLedgerHashChain, h.fetchFullLedgerMaterialRows_eq,
    Result.ok_bind, ← and_assoc, verifyHashChainRows_valid]
  have hrestored : List.Forall₂ (fun row e => row.tryRestoreSignedLedgerEntry = .ok e)
      ((entries.take postgrestMaxRows).map (exportedRow pg db))
      (entries.take postgrestMaxRows) := by
    rw [List.forall₂_map_left_iff, List.forall₂_same]
    exact fun e _ => restore_exportedRow pg db e
  constructor
  · rintro ⟨_, ⟨⟨-, rfl⟩, es, hes, hchain⟩, rfl⟩
    obtain rfl := restored_unique hes hrestored
    have hlength : head.lastSequenceNo = 0 + (entries.take postgrestMaxRows).length :=
      hchain.sequenceNos.2
    rw [h.lastSequenceNo, List.length_take] at hlength
    refine ⟨?_, by omega⟩
    simp only [List.length_map, List.length_take]
    omega
  · rintro ⟨rfl, hmax⟩
    have hall : entries.take postgrestMaxRows = entries := List.take_of_length_le hmax
    rw [hall] at hrestored ⊢
    exact ⟨_, ⟨⟨noForbiddenKeys_exportedRow pg db _, rfl⟩, entries, hrestored,
      chained_of_verifyLedgerChain h.verified⟩, List.length_map _⟩

end

/-- **Which rows are vouched for.** For each of the three verifiers, every range and every list of
rows the export may return for it, `valid = true` implies that the rows cover the range exactly
if it is not the case that rows are missing and those that are there pass. And on every
untampered ledger whose keys are registered, both full-ledger jobs report all of its entries
valid exactly if they are not more than the transport returns. -/
theorem signatureVerifiers_cover_iff (P : Primitives) :
    (∀ (v : SignatureVerifier) (head : LedgerChainHead) (start stop : LedgerSequenceNo)
        (rows : List LedgerVerificationMaterialRow), v.Requests head start stop →
        ReturnedFor start stop rows →
        ((v.Vouches P head start stop rows → Covers start stop rows) ↔
          ¬ CutOff P v start stop rows)) ∧
      ∀ (pg : Postgres) (keys : List (LedgerVerifyingKey P)) (db : LedgerDb)
        (entries : List SignedLedgerEntry) (head : LedgerChainHead),
        LedgerState keys db entries head → KeysRegistered keys db entries →
        (JobConfirms (verifyFullLedgerHashChain P (fetchLedgerChainHead db)
              (exportLedgerVerificationMaterials pg db)) entries.length ∧
            JobConfirms (verifyFullLedgerSignatures P (fetchLedgerChainHead db)
              (exportLedgerVerificationMaterials pg db)) entries.length ↔
          entries.length ≤ postgrestMaxRows) := by
  constructor
  · intro v head start stop rows hrequests hreturned
    rw [SignatureVerifier.vouches_iff hrequests, hreturned.covers_iff, CutOff, ← Nat.not_le,
      not_and', not_not]
  · intro pg keys db entries head h hkeys
    rw [h.verifyFullLedgerHashChain_confirms, h.verifyFullLedgerSignatures_confirms hkeys,
      List.length_take]
    omega

/-- The ledger of the first entry, with its key registered. -/
def sampleLedger : LedgerDb where
  entries := [.ofSigned (sampleEntry 1)]
  chainState := some (LedgerChainHead.after (sampleEntry 1)).toRow
  signingPublicKeys := [sampleKeyRow]

/-- The ledger of the two sample entries. -/
def sampleNextLedger : LedgerDb :=
  sampleLedger.add sampleNext

theorem ledgerState_sampleNextLedger :
    LedgerState [sampleKey.verificationKey samplePrimitives] sampleNextLedger
      [sampleEntry 1, sampleNext] (.after sampleNext) :=
  ⟨rfl, rfl, verifyLedgerChain_sampleNext, by simp; decide⟩

theorem keysRegistered_sampleNextLedger :
    KeysRegistered [sampleKey.verificationKey samplePrimitives] sampleNextLedger
      [sampleEntry 1, sampleNext] :=
  keysRegistered_singleton rfl registers_sampleKeyRow

/-- The rows of the two entries pass all verifiers. -/
theorem passes_sampleRows (v : SignatureVerifier) :
    v.Passes samplePrimitives (sampleEntry 1).sequenceNo sampleRows := by
  obtain ⟨hchain, hsigs⟩ := verifyLedgerChain_eq_ok.mp verifyLedgerChain_sampleNext
  have hverifies : VerifiesFrom samplePrimitives (sampleEntry 1).sequenceNo
      [sampleEntry 1, sampleNext] := ⟨.genesis, _, rfl, fun _ => rfl, hchain⟩
  -- a signed payload has no forbidden key
  have hforbidden : ∀ e : SignedLedgerEntry,
      ledgerPayloadContainsForbiddenKey (sampleRow e).payload = false :=
    fun e => e.payload.containsForbiddenKey_of_perm .rfl
  obtain ⟨hfirst, hkey⟩ : RestoresWithKey samplePrimitives (sampleRow (sampleEntry 1))
      (sampleEntry 1, sampleKey.verificationKey samplePrimitives) := restoresWithKey_sampleRow rfl
  obtain ⟨hsecond, hkey'⟩ : RestoresWithKey samplePrimitives (sampleRow sampleNext)
      (sampleNext, sampleKey.verificationKey samplePrimitives) := restoresWithKey_sampleRow rfl
  cases v with
  | fullLedger =>
    refine ⟨noForbiddenKeys_iff.mpr (by simp [sampleRows, hforbidden]), ?_⟩
    simp only [sampleRows, List.map_cons, List.map_nil, List.mem_cons, List.not_mem_nil, or_false,
      forall_eq_or_imp, forall_eq]
    exact ⟨⟨_, _, hfirst, hkey, signatureAccepted_singleton.mp (hsigs _ (by simp))⟩,
      _, _, hsecond, hkey', signatureAccepted_singleton.mp (hsigs _ (by simp))⟩
  | auditReport =>
    exact ⟨by simp [sampleRows], _, .cons hfirst (.cons hsecond .nil), hverifies, _,
      collectKeys_sampleRows, hsigs⟩
  | auditUi =>
    refine ⟨by simp [sampleRows], _, hverifies, [sampleKey.verificationKey samplePrimitives], ?_,
      hsigs⟩
    simp only [sampleRows, List.map_cons, List.map_nil, restoreMaterialRows, hforbidden, hfirst,
      hsecond, nextMaterialKeys, hkey, hkey']
    rfl

/-- An instance: the rows of the two entries, and the full-ledger jobs on their ledger. -/
theorem signatureVerifiers_cover_sample :
    (∀ v : SignatureVerifier,
      v.Vouches samplePrimitives (.after sampleNext) (sampleEntry 1).sequenceNo
          sampleNext.sequenceNo sampleRows ∧
        ¬ CutOff samplePrimitives v (sampleEntry 1).sequenceNo sampleNext.sequenceNo sampleRows ∧
        Covers (sampleEntry 1).sequenceNo sampleNext.sequenceNo sampleRows) ∧
      JobConfirms (verifyFullLedgerHashChain samplePrimitives
        (fetchLedgerChainHead sampleNextLedger)
        (exportLedgerVerificationMaterials samplePostgres sampleNextLedger)) 2 ∧
      JobConfirms (verifyFullLedgerSignatures samplePrimitives
        (fetchLedgerChainHead sampleNextLedger)
        (exportLedgerVerificationMaterials samplePostgres sampleNextLedger)) 2 := by
  have hrequests (v : SignatureVerifier) : v.Requests (.after sampleNext)
      (sampleEntry 1).sequenceNo sampleNext.sequenceNo :=
    ⟨by decide, le_refl _, fun _ => ⟨rfl, rfl⟩⟩
  have hreturned : ReturnedFor (sampleEntry 1).sequenceNo sampleNext.sequenceNo sampleRows := by
    simp [ReturnedFor, sampleRows, sampleRow, LedgerVerificationMaterialRow.ofSigned]
    decide
  refine ⟨fun v => ?_, (signatureVerifiers_cover_iff samplePrimitives).2 samplePostgres _ _ _ _
    ledgerState_sampleNextLedger keysRegistered_sampleNextLedger |>.mpr (by decide)⟩
  have hvouches := (SignatureVerifier.vouches_iff (hrequests v)).mpr (passes_sampleRows v)
  have hcut : ¬ CutOff samplePrimitives v (sampleEntry 1).sequenceNo sampleNext.sequenceNo
      sampleRows := fun h => absurd h.1 (by decide)
  exact ⟨hvouches, hcut, ((signatureVerifiers_cover_iff samplePrimitives).1 v _ _ _ _
    (hrequests v) hreturned).mpr hcut hvouches⟩

/-- The ledger has two entries and only the row of the first comes back: all three verifiers
report `valid = true`, and position 2 was not seen by any of them. -/
theorem signatureVerifiers_vouch_for_unseen :
    verifyLedgerChain [sampleEntry 1, sampleNext] .genesis
        [sampleKey.verificationKey samplePrimitives] = .ok (.after sampleNext) ∧
      (∀ v : SignatureVerifier, v.Vouches samplePrimitives (.after sampleNext)
        (sampleEntry 1).sequenceNo sampleNext.sequenceNo [sampleRow (sampleEntry 1)]) ∧
      ReturnedFor (sampleEntry 1).sequenceNo sampleNext.sequenceNo [sampleRow (sampleEntry 1)] ∧
      ¬ Covers (sampleEntry 1).sequenceNo sampleNext.sequenceNo [sampleRow (sampleEntry 1)] := by
  have hreturned : ReturnedFor (sampleEntry 1).sequenceNo sampleNext.sequenceNo
      [sampleRow (sampleEntry 1)] :=
    ⟨List.pairwise_singleton _ _,
      by simp [sampleRow, LedgerVerificationMaterialRow.ofSigned, sampleNext]; decide⟩
  obtain ⟨hrestore, hkey⟩ : RestoresWithKey samplePrimitives (sampleRow (sampleEntry 1))
      (sampleEntry 1, sampleKey.verificationKey samplePrimitives) := restoresWithKey_sampleRow rfl
  have hsig : SignatureAccepted [sampleKey.verificationKey samplePrimitives] (sampleEntry 1) :=
    (signedBy_sampleEntry 1).signatureAccepted (LedgerSigningKey.find?_verificationKey _)
  have hforbidden : ledgerPayloadContainsForbiddenKey (sampleRow (sampleEntry 1)).payload =
      false := (sampleEntry 1).payload.containsForbiddenKey_of_perm .rfl
  have hchain : VerifiesFrom samplePrimitives (sampleEntry 1).sequenceNo [sampleEntry 1] :=
    ⟨.genesis, _, rfl, fun _ => rfl, chained_of_verifyLedgerChain (verifyLedgerChain_sampleEntry 1)⟩
  refine ⟨verifyLedgerChain_sampleNext, fun v => (SignatureVerifier.vouches_iff ?_).mpr ?_,
    hreturned, ?_⟩
  · exact ⟨by decide, le_refl _, fun _ => ⟨rfl, rfl⟩⟩
  · cases v with
    -- what each verifier asks of the one row that it is given
    | fullLedger =>
      refine ⟨noForbiddenKeys_iff.mpr (by simpa using hforbidden), ?_⟩
      simpa using ⟨_, _, hrestore, hkey, signatureAccepted_singleton.mp hsig⟩
    | auditReport =>
      refine ⟨by simp, _, .cons hrestore .nil, hchain, [_], ?_, by simpa using hsig⟩
      rw [collectKeys, hkey]
      rfl
    | auditUi =>
      refine ⟨by simp, _, hchain, [sampleKey.verificationKey samplePrimitives], ?_,
        by simpa using hsig⟩
      simp only [restoreMaterialRows, hforbidden, hrestore, nextMaterialKeys, hkey]
      rfl
  · rw [hreturned.covers_iff]
    decide

end Mipsorcu
