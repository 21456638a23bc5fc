import Mipsorcu.Ledger.Tamper
import Mipsorcu.Server.LedgerExport

/-!
# Signing and appending drafts

A `LedgerAppendDraft` says what happened; the appender adds a position, the hash of the entry
before and a signature. `signWithChainHead_eq_ok` is what one signature gives: an entry that
extends the head. By induction the entries `sign_entries_from_head` returns are accepted by the
verifier from that head, and they survive storage, export and restoring
(`signEntriesFromHead_roundTrip`).

`append` is the loop of the appender against a database nobody else writes to: fetch the head,
sign, call, and start over on a stale head. Its three pieces `fetchChainHead`, `signAttempt` and
`afterResponse` are also the steps of a client in the concurrent protocol.
-/

namespace Mipsorcu

/-! ### Drafts -/

/-- What an entry records (`LedgerAppendDraftParts`). -/
structure LedgerAppendDraftParts where
  ledgerEntryId : LedgerEntryId
  entryType : LedgerEntryType
  sourceEventAt : SourceEventAt
  requestId : RequestId
  sourceEventId : Option AuditEventId
  targetSecretId : Option SecretId
  targetSecretVersionId : Option LedgerTargetSecretVersionId
  actorUserId : Option OwnerUserId
  actorDeviceId : Option DeviceId
  result : LedgerResult
  errorCode : Option String
  payload : LedgerPayload
  deriving DecidableEq

/-- A draft: its payload is one for its entry type. -/
structure LedgerAppendDraft extends LedgerAppendDraftParts where
  payload_entryType : payload.entryType = entryType
  deriving DecidableEq

namespace LedgerAppendDraft

/-- `LedgerAppendDraft::new`. -/
def new (parts : LedgerAppendDraftParts) : Except LedgerError LedgerAppendDraft :=
  if h : parts.payload.entryType = parts.entryType then .ok ⟨parts, h⟩
  else .error (.unknownPayloadKey "payload.entry_type" parts.entryType)

/-- The parts of the entry that records the draft at a position. -/
def entryParts (d : LedgerAppendDraft) (sequenceNo : LedgerSequenceNo)
    (previousEntryHash : LedgerHash) (signatureKeyVersion : LedgerSignatureKeyVersion) :
    LedgerEntryParts where
  ledgerEntryId := d.ledgerEntryId
  sequenceNo := sequenceNo
  entryType := d.entryType
  sourceEventAt := d.sourceEventAt
  requestId := d.requestId
  sourceEventId := d.sourceEventId
  targetSecretId := d.targetSecretId
  targetSecretVersionId := d.targetSecretVersionId
  actorUserId := d.actorUserId
  actorDeviceId := d.actorDeviceId
  result := d.result
  errorCode := d.errorCode
  payload := d.payload
  previousEntryHash := previousEntryHash
  signatureKeyVersion := signatureKeyVersion

section

variable (P : Primitives)

/-- `sign_with_sequence`. -/
def signWithSequence (d : LedgerAppendDraft) (sequenceNo : LedgerSequenceNo)
    (previousEntryHash : LedgerHash) (key : LedgerSigningKey) :
    Except LedgerError SignedLedgerEntry := do
  let draft ← LedgerEntryDraft.new (d.entryParts sequenceNo previousEntryHash key.keyVersion)
  draft.sign P key

/-- `sign_with_chain_head`: the position behind the head. -/
def signWithChainHead (d : LedgerAppendDraft) (head : LedgerChainHead) (key : LedgerSigningKey) :
    Except LedgerError SignedLedgerEntry := do
  let sequenceNo ← head.nextSequenceNo
  d.signWithSequence P sequenceNo head.lastEntryHash key

end

end LedgerAppendDraft

/-- What a signed entry records, without its place in the chain. -/
def SignedLedgerEntry.recorded (e : SignedLedgerEntry) : LedgerAppendDraftParts where
  ledgerEntryId := e.ledgerEntryId
  entryType := e.entryType
  sourceEventAt := e.sourceEventAt
  requestId := e.requestId
  sourceEventId := e.sourceEventId
  targetSecretId := e.targetSecretId
  targetSecretVersionId := e.targetSecretVersionId
  actorUserId := e.actorUserId
  actorDeviceId := e.actorDeviceId
  result := e.result
  errorCode := e.errorCode
  payload := e.payload

section Signing

variable {P : Primitives}

theorem LedgerAppendDraft.signWithSequence_eq_ok {d : LedgerAppendDraft} {s : LedgerSequenceNo}
    {h : LedgerHash} {key : LedgerSigningKey} {e : SignedLedgerEntry} :
    d.signWithSequence P s h key = .ok e ↔ e.sequenceNo = s ∧ e.previousEntryHash = h ∧
      e.recorded = d.toLedgerAppendDraftParts ∧ SignedBy P key e := by
  simp only [signWithSequence, Result.bind_eq_ok, LedgerEntryDraft.new_eq_ok,
    LedgerEntryDraft.sign_eq_ok]
  constructor
  · rintro ⟨⟨parts, hvalid⟩, rfl, -, rfl⟩
    exact ⟨rfl, rfl, rfl, rfl, rfl, rfl⟩
  · obtain ⟨⟨parts, hvalid⟩, entryHash, signature⟩ := e
    rintro ⟨rfl, rfl, hrecorded, hversion, hhash, hsignature⟩
    have hhash : parts.canonicalHash P = entryHash := hhash
    have hsignature : signature = P.sign key.secretKey parts.canonicalPayload := hsignature
    have hparts : parts = d.entryParts parts.sequenceNo parts.previousEntryHash key.keyVersion := by
      rw [entryParts, ← hrecorded, ← hversion]
      rfl
    exact ⟨⟨parts, hvalid⟩, hparts, hversion.symm, by rw [hhash, hsignature]⟩

/-- Signing after a head gives the entry that extends it and records the draft. -/
theorem LedgerAppendDraft.signWithChainHead_eq_ok {d : LedgerAppendDraft} {head : LedgerChainHead}
    {key : LedgerSigningKey} {e : SignedLedgerEntry} :
    d.signWithChainHead P head key = .ok e ↔
      Extends P head e ∧ e.recorded = d.toLedgerAppendDraftParts ∧ SignedBy P key e := by
  simp only [signWithChainHead, Result.bind_eq_ok, LedgerChainHead.nextSequenceNo_eq_ok,
    signWithSequence_eq_ok]
  constructor
  · rintro ⟨s, hs, rfl, hprev, hrecorded, hsigned⟩
    exact ⟨⟨hs, hprev, hsigned.entryHash⟩, hrecorded, hsigned⟩
  · rintro ⟨hext, hrecorded, hsigned⟩
    exact ⟨e.sequenceNo, hext.sequenceNo, rfl, hext.previousEntryHash, hrecorded, hsigned⟩

end Signing

/-! ### The appender -/

/-- The greatest number of retries a configuration can ask for. -/
def maxConflictRetriesLimit : ℕ := 3

/-- `LedgerAppenderConfig`: the number of retries on a stale head. -/
structure LedgerAppenderConfig where
  maxConflictRetries : ℕ
  le_limit : maxConflictRetries ≤ maxConflictRetriesLimit

/-- The configuration of `LedgerAppender::new`. -/
def LedgerAppenderConfig.default : LedgerAppenderConfig :=
  ⟨1, by decide⟩

/-- `LedgerAppender`; the database it talks to is a parameter of its operations. -/
structure LedgerAppender where
  signingKey : LedgerSigningKey
  config : LedgerAppenderConfig

/-- `LedgerAppendError`. -/
inductive LedgerAppendError where
  | conflict (failure : LedgerAppendRpcFailure) (attempts : ℕ)
  | invalidEntry (code : String)
  | externalDependencyFailed (code : String) (upstreamStatus : Option ℕ) (attempts : ℕ)
  deriving DecidableEq

/-- `classify_appender_error`. -/
def classifyAppenderError (failure : LedgerAppendRpcFailure) (upstream : SupabaseRpcError)
    (attempts : ℕ) : LedgerAppendError :=
  match failure with
  | .entryIdConflict | .entryHashConflict | .sequenceMismatch | .previousHashMismatch =>
    .conflict failure attempts
  | .payloadSchemaViolation | .invalidRpcInput => .invalidEntry failure.asErrorCode
  | .chainStateMissing | .appendFailed =>
    .externalDependencyFailed failure.asErrorCode upstream.upstreamStatus attempts

/-- The head has moved since it was fetched. -/
def isRetryableConflict (failure : LedgerAppendRpcFailure) : Bool :=
  failure = .sequenceMismatch || failure = .previousHashMismatch

namespace LedgerAppender

variable (P : Primitives)

/-- `sign_digest_bytes`. -/
def signDigestBytes (appender : LedgerAppender) (bytes : List UInt8) :
    Except LedgerError LedgerSignature :=
  appender.signingKey.signRawBytes P appender.signingKey.keyVersion bytes

/-! ### Signing a list of drafts -/

/-- The loop of `sign_entries_from_head`. -/
def signEntries (appender : LedgerAppender) :
    List LedgerAppendDraft → ℕ → LedgerHash → Except LedgerAppendError (List SignedLedgerEntry)
  | [], _, _ => .ok []
  | draft :: drafts, previousSequenceNo, previousHash => do
    Result.require (decide (previousSequenceNo + 1 ≤ u64Max))
      (.invalidEntry "ledger_sequence_overflow")
    let sequenceNo ← (LedgerSequenceNo.new (previousSequenceNo + 1)).mapError
      fun _ => .invalidEntry "ledger_entry_build_failed"
    let entry ← (draft.signWithSequence P sequenceNo previousHash appender.signingKey).mapError
      fun _ => .invalidEntry "ledger_entry_build_failed"
    let entries ← signEntries appender drafts entry.sequenceNo.val entry.entryHash
    pure (entry :: entries)

/-- `sign_entries_from_head`. -/
def signEntriesFromHead (appender : LedgerAppender) (drafts : List LedgerAppendDraft)
    (head : LedgerChainHead) : Except LedgerAppendError (List SignedLedgerEntry) :=
  appender.signEntries P drafts head.lastSequenceNo head.lastEntryHash

/-! ### Appending a draft -/

/-- `fetch_chain_head` of attempt number `attempts`. -/
def fetchChainHead (response : Except SupabaseRpcError LedgerChainHead) (attempts : ℕ) :
    Except LedgerAppendError LedgerChainHead :=
  response.mapError fun error =>
    .externalDependencyFailed "ledger_chain_head_fetch_failed" error.upstreamStatus attempts

/-- The signature of an attempt. -/
def signAttempt (appender : LedgerAppender) (draft : LedgerAppendDraft) (head : LedgerChainHead) :
    Except LedgerAppendError SignedLedgerEntry :=
  (draft.signWithChainHead P head appender.signingKey).mapError
    fun _ => .invalidEntry "ledger_entry_build_failed"

/-- What the loop does with a response: return, or `none` to go round again. -/
def afterResponse (appender : LedgerAppender) (retryIndex : ℕ) :
    Except SupabaseRpcError AppendLedgerEntryOutcome →
      Option (Except LedgerAppendError AppendLedgerEntryOutcome)
  | .ok outcome => some (.ok outcome)
  | .error error =>
    let failure := classifyAppendLedgerError error
    if isRetryableConflict failure && decide (retryIndex < appender.config.maxConflictRetries) then
      none
    else some (.error (classifyAppenderError failure error (retryIndex + 1)))

/-- The loop of `append`, over the retry indexes that are left. -/
def appendLoop (pg : Postgres) (appender : LedgerAppender) (draft : LedgerAppendDraft) :
    List ℕ → LedgerDb → LedgerDb × Except LedgerAppendError AppendLedgerEntryOutcome
  | [], db => (db, .error (.externalDependencyFailed "ledger_append_retry_exhausted" none
      (appender.config.maxConflictRetries + 1)))
  | retryIndex :: rest, db =>
    let signed := do
      let head ← fetchChainHead (fetchLedgerChainHead db) (retryIndex + 1)
      appender.signAttempt P draft head
    match signed with
    | .error error => (db, .error error)
    | .ok entry =>
      let (db', response) := callAppendLedgerEntry pg db entry
      match appender.afterResponse retryIndex response with
      | some result => (db', result)
      | none => appendLoop pg appender draft rest db'

/-- `append` against a database nobody else writes to. -/
def append (pg : Postgres) (appender : LedgerAppender) (draft : LedgerAppendDraft)
    (db : LedgerDb) : LedgerDb × Except LedgerAppendError AppendLedgerEntryOutcome :=
  appendLoop P pg appender draft (List.range (appender.config.maxConflictRetries + 1)) db

variable {P}

variable {appender : LedgerAppender}

/-- The loop goes round again on a stale head only. -/
theorem afterResponse_eq_none {retryIndex : ℕ}
    {response : Except SupabaseRpcError AppendLedgerEntryOutcome}
    (h : appender.afterResponse retryIndex response = none) :
    ∃ error, response = .error error ∧
      isRetryableConflict (classifyAppendLedgerError error) = true := by
  cases response with
  | ok outcome => cases h
  | error error =>
    simp only [afterResponse] at h
    split at h
    · rename_i hretry
      exact ⟨error, rfl, (Bool.and_eq_true_iff.mp hretry).1⟩
    · cases h

/-! ### Signed lists are chains -/

/-- The entries record the drafts one by one, and the verifier accepts them from the head. -/
theorem signEntries_eq_ok {drafts : List LedgerAppendDraft} {head : LedgerChainHead}
    {entries : List SignedLedgerEntry}
    (h : appender.signEntries P drafts head.lastSequenceNo head.lastEntryHash = .ok entries) :
    List.Forall₂ (fun d e => e.recorded = d.toLedgerAppendDraftParts) drafts entries ∧
      (∀ e ∈ entries, SignedBy P appender.signingKey e) ∧
      ∃ final, verifyLedgerChain entries head [appender.signingKey.verificationKey P] =
        .ok final := by
  induction drafts generalizing head entries with
  | nil =>
    cases h
    exact ⟨.nil, by simp, head, verifyLedgerChain_nil _ _⟩
  | cons d ds ih =>
    simp only [signEntries, Result.bind_eq_ok, Result.require_eq_ok, Result.mapError_eq_ok,
      LedgerSequenceNo.new_eq_ok, Result.pure_eq_ok] at h
    obtain ⟨_, -, s, hs, e, hsign, es, hrest, rfl⟩ := h
    obtain ⟨rfl, hprev, hrecorded, hsigned⟩ := LedgerAppendDraft.signWithSequence_eq_ok.mp hsign
    -- the loop goes on from the position and the hash of the entry just signed
    have hrest : appender.signEntries P ds (LedgerChainHead.after e).lastSequenceNo
      (LedgerChainHead.after e).lastEntryHash = .ok es := hrest
    obtain ⟨hds, hall, final, hfinal⟩ := ih hrest
    refine ⟨.cons hrecorded hds, List.forall_mem_cons.mpr ⟨hsigned, hall⟩, final,
      verifyLedgerChain_cons.mpr ⟨?_, ?_, hfinal⟩⟩
    · exact ⟨hs, hprev, hsigned.entryHash⟩
    · exact hsigned.signatureAccepted (LedgerSigningKey.find?_verificationKey _)

/-! ### The round trip -/

/-- What it means that the drafts' entries survive: each can be stored; each exported row restores
to the very entry that was signed, so to the same canonical form, hash and signature; and the
verifier accepts the restored entries from the head up to the last of them. -/
structure RoundTrip (P : Primitives) (key : LedgerSigningKey) (drafts : List LedgerAppendDraft)
    (head : LedgerChainHead) (entries : List SignedLedgerEntry) : Prop where
  length_eq : entries.length = drafts.length
  stored : ∀ e ∈ entries, ∃ response, Exported e response
  restored : ∀ responses, List.Forall₂ Exported entries responses →
    List.Forall₂ Restored entries responses
  entryHash : ∀ e ∈ entries, e.recomputeEntryHash P = e.entryHash
  verified : ∃ final, verifyLedgerChain entries head [key.verificationKey P] = .ok final ∧
    final.lastSequenceNo = head.lastSequenceNo + drafts.length ∧
    final = (entries.getLast?.map LedgerChainHead.after).getD head

/-- **Round trip.** Drafts signed from a head, by a key whose version fits the database's
`integer`, survive storage, export and restoring, whatever order the database returns the members
of the payloads in. -/
theorem signEntriesFromHead_roundTrip (P : Primitives) (appender : LedgerAppender)
    (drafts : List LedgerAppendDraft) (head : LedgerChainHead) (entries : List SignedLedgerEntry)
    (hsign : appender.signEntriesFromHead P drafts head = .ok entries)
    (hversion : appender.signingKey.keyVersion.val ≤ 2147483647) :
    RoundTrip P appender.signingKey drafts head entries := by
  obtain ⟨hdrafts, hsigned, final, hfinal⟩ := signEntries_eq_ok hsign
  have hlength : entries.length = drafts.length := hdrafts.length_eq.symm
  have hfits : ∀ e ∈ entries, e.signatureKeyVersion.val ≤ 2147483647 := by
    intro e he
    rw [(hsigned e he).keyVersion]
    exact hversion
  refine ⟨hlength, fun e he => ?_, fun responses hresponses => ?_, fun e he => ?_,
    final, hfinal, ?_, (chained_of_verifyLedgerChain hfinal).final_eq⟩
  · exact ⟨_, _, _, _, none, LedgerEntryRpcParams.args_fromSignedEntry (hfits e he), rfl, .rfl, rfl⟩
  · have hboth := (List.forall₂_and_left _ _).mpr ⟨hfits, hresponses⟩
    exact hboth.imp fun e r h => h.2.restored h.1
  · exact (chained_of_verifyLedgerChain hfinal).entryHash he
  · rw [(chained_of_verifyLedgerChain hfinal).sequenceNos.2, hlength]

end LedgerAppender

/-! ### Concrete values -/

/-- The draft of `sampleEntry`. -/
def sampleDraft (id : UInt8) : LedgerAppendDraft where
  ledgerEntryId := sampleEntryId id
  entryType := .auditFallbackResent
  sourceEventAt := (sampleParts id).sourceEventAt
  requestId := ⟨sampleUuid 9⟩
  sourceEventId := none
  targetSecretId := none
  targetSecretVersionId := none
  actorUserId := none
  actorDeviceId := none
  result := .success
  errorCode := none
  payload := samplePayload
  payload_entryType := rfl

/-- The appender with `sampleKey`. -/
def sampleAppender : LedgerAppender :=
  ⟨sampleKey, .default⟩

theorem signEntriesFromHead_sampleDrafts :
    sampleAppender.signEntriesFromHead samplePrimitives [sampleDraft 1, sampleDraft 2] .genesis =
      .ok [sampleEntry 1, sampleNext] := by
  have hfirst : (sampleDraft 1).signWithSequence samplePrimitives (sampleEntry 1).sequenceNo
      LedgerHash.genesis sampleKey = .ok (sampleEntry 1) :=
    LedgerAppendDraft.signWithSequence_eq_ok.mpr ⟨rfl, rfl, rfl, signedBy_sampleEntry 1⟩
  have hsecond : (sampleDraft 2).signWithSequence samplePrimitives sampleNext.sequenceNo
      (sampleEntry 1).entryHash sampleKey = .ok sampleNext :=
    LedgerAppendDraft.signWithSequence_eq_ok.mpr ⟨rfl, rfl, rfl, signedBy_sampleNext⟩
  simp only [LedgerAppender.signEntriesFromHead, LedgerAppender.signEntries, Result.bind_eq_ok,
    Result.require_eq_ok, Result.mapError_eq_ok, LedgerSequenceNo.new_eq_ok, Result.pure_eq_ok]
  exact ⟨(), by decide, _, rfl, _, hfirst, _, ⟨(), by decide, _, rfl, _, hsecond, [], rfl, rfl⟩,
    rfl⟩

/-- An instance: two sample drafts, signed as the first entries. -/
theorem signEntriesFromHead_roundTrip_sample :
    sampleAppender.signEntriesFromHead samplePrimitives [sampleDraft 1, sampleDraft 2] .genesis =
        .ok [sampleEntry 1, sampleNext] ∧
      LedgerAppender.RoundTrip samplePrimitives sampleKey [sampleDraft 1, sampleDraft 2] .genesis
        [sampleEntry 1, sampleNext] :=
  ⟨signEntriesFromHead_sampleDrafts,
    LedgerAppender.signEntriesFromHead_roundTrip samplePrimitives sampleAppender
      [sampleDraft 1, sampleDraft 2] .genesis [sampleEntry 1, sampleNext]
      signEntriesFromHead_sampleDrafts (by decide)⟩

/-- The secret key of `sampleKey` under the version 2³¹. -/
def wideKey : LedgerSigningKey :=
  ⟨⟨2147483648, by decide, by decide⟩, sampleKey.secretKey⟩

/-- The first entry, with the key version of `wideKey`. -/
def wideParts : LedgerEntryParts :=
  { sampleParts 1 with signatureKeyVersion := wideKey.keyVersion }

/-- The entry `wideKey` signs: the SHA-256 and the Ed25519 signature of its canonical form. -/
def wideEntry : SignedLedgerEntry where
  toLedgerEntryParts := wideParts
  valid := rfl
  entryHash := .ofNat _ 0x2ac23c865937c0c2d807cd22f644b7e499c76ac9992ec5b2f66160b55761ba9a
  signature := .ofHalves _
    0x6f3c526aa4863e06ab2ed79bd314daec4635355605f6d032cc22cd456c627744
    0x09e81cda75ba8b6e467e150cf1b0de015bf0319f91f7e106afd51dd53c98c509

/-- The table with the hash and the signature of `wideEntry`. -/
def widePrimitives : Primitives :=
  .ofTable samplePublicKey ([wideEntry].map SignedLedgerEntry.tableRow ++ [])

theorem signedBy_wideEntry : SignedBy widePrimitives wideKey wideEntry :=
  signedBy_ofTable [] (by simp) (List.pairwise_singleton _ _) rfl

/-- A key version of 2³¹ is accepted by the signer and does not fit the database's `integer`:
the entry is signed, and cannot be stored. -/
theorem not_roundTrip_wideEntry :
    LedgerAppender.signEntriesFromHead widePrimitives ⟨wideKey, .default⟩ [sampleDraft 1]
        .genesis = .ok [wideEntry] ∧
      ¬ LedgerAppender.RoundTrip widePrimitives wideKey [sampleDraft 1] .genesis [wideEntry] := by
  constructor
  · have hsign : (sampleDraft 1).signWithSequence widePrimitives wideEntry.sequenceNo
        LedgerHash.genesis wideKey = .ok wideEntry :=
      LedgerAppendDraft.signWithSequence_eq_ok.mpr ⟨rfl, rfl, rfl, signedBy_wideEntry⟩
    simp only [LedgerAppender.signEntriesFromHead, LedgerAppender.signEntries, Result.bind_eq_ok,
      Result.require_eq_ok, Result.mapError_eq_ok, LedgerSequenceNo.new_eq_ok, Result.pure_eq_ok]
    exact ⟨(), by decide, _, rfl, _, hsign, [], rfl, rfl⟩
  · intro h
    obtain ⟨response, row, object, members, key, hrow, -⟩ := h.stored wideEntry (by simp)
    have hnone : (LedgerEntryRpcParams.fromSignedEntry wideEntry).args = none :=
      LedgerEntryRpcParams.args_fromSignedEntry_eq_none (by decide)
    simp [hnone] at hrow

end Mipsorcu
