import Mipsorcu.Ledger.Crypto
import Mipsorcu.Ledger.Payload

/-!
# Ledger entries and their canonical form

A draft is a record of what happened, at a position in the ledger and after a previous hash. Its
canonical form is the compact JSON text of `canonicalDocument`; the entry hash is the SHA-256 of
that text and the signature signs it. The canonical form determines every field of the draft but
the entry's own identifier (`LedgerEntryParts.canonicalPayload_inj`).
-/

namespace Mipsorcu

/-! ### Drafts -/

/-- Only a failure may have an error code, which must not be blank. -/
def validateErrorCode (result : LedgerResult) (errorCode : Option String) (field : String) :
    Except LedgerError Unit :=
  if result = .success ∧ errorCode.isSome then .error (.invalidErrorCode field)
  else match errorCode with
    | none => .ok ()
    | some value => Result.require (isNonBlankShort value) (.invalidErrorCode field)

/-- The column is bounded in bytes. -/
def validateActorDeviceId (actorDeviceId : Option DeviceId) : Except LedgerError Unit :=
  Result.require (actorDeviceId.all fun d => decide (byteLength d.text ≤ 128))
    .invalidActorDeviceId

/-- The fields of a ledger entry that its canonical form is built from, and its identifier
(`LedgerEntryDraftParts`, `CanonicalBuildFields`). -/
structure LedgerEntryParts where
  ledgerEntryId : LedgerEntryId
  sequenceNo : LedgerSequenceNo
  entryType : LedgerEntryType
  sourceEventAt : SourceEventAt
  requestId : RequestId
  sourceEventId : Option AuditEventId
  targetSecretId : Option SecretId
  targetSecretVersionId : Option LedgerTargetSecretVersionId
  actorUserId : Option OwnerUserId
  actorDeviceId : Option DeviceId
  result : LedgerResult
  errorCode : Option String
  payload : LedgerPayload
  previousEntryHash : LedgerHash
  signatureKeyVersion : LedgerSignatureKeyVersion
  deriving DecidableEq

/-- The checks `LedgerEntryDraft::new` and `SignedLedgerEntry::from_stored_parts` share. -/
def LedgerEntryParts.check (parts : LedgerEntryParts) : Except LedgerError Unit := do
  Result.require (decide (parts.payload.entryType = parts.entryType))
    (.unknownPayloadKey "payload.entry_type" parts.entryType)
  validateErrorCode parts.result parts.errorCode "error_code"
  validateActorDeviceId parts.actorDeviceId

/-- A draft: parts that passed the checks. -/
structure LedgerEntryDraft extends LedgerEntryParts where
  valid : toLedgerEntryParts.check = .ok ()
  deriving DecidableEq

/-- A signed entry: a draft with its hash and signature. Neither has to fit the draft; entries
read back from storage are checked by the verifier. -/
structure SignedLedgerEntry extends LedgerEntryDraft where
  entryHash : LedgerHash
  signature : LedgerSignature
  deriving DecidableEq

/-- `LedgerEntryDraft::new`. -/
def LedgerEntryDraft.new (parts : LedgerEntryParts) : Except LedgerError LedgerEntryDraft :=
  match h : parts.check with
  | .ok () => .ok ⟨parts, h⟩
  | .error e => .error e

theorem LedgerEntryDraft.new_eq_ok {parts : LedgerEntryParts} {d : LedgerEntryDraft} :
    LedgerEntryDraft.new parts = .ok d ↔ d.toLedgerEntryParts = parts := by
  constructor
  · intro h
    unfold LedgerEntryDraft.new at h
    split at h <;> cases h
    rfl
  · rintro rfl
    unfold LedgerEntryDraft.new
    split
    · rfl
    · exact absurd (d.valid.symm.trans ‹_›) (by simp)

theorem LedgerEntryDraft.payload_entryType (d : LedgerEntryDraft) :
    d.payload.entryType = d.entryType := by
  have h := d.valid
  simp only [LedgerEntryParts.check, Result.bind_eq_ok, Result.require_eq_ok,
    decide_eq_true_eq] at h
  obtain ⟨_, htype, _⟩ := h
  exact htype

/-- `SignedLedgerEntry::from_stored_parts`. -/
def SignedLedgerEntry.fromStoredParts (parts : LedgerEntryParts) (entryHash : LedgerHash)
    (signature : LedgerSignature) : Except LedgerError SignedLedgerEntry := do
  let draft ← LedgerEntryDraft.new parts
  pure { toLedgerEntryDraft := draft, entryHash, signature }

/-- Every signed entry passes the checks again when it is read back. -/
theorem SignedLedgerEntry.fromStoredParts_self (e : SignedLedgerEntry) :
    fromStoredParts e.toLedgerEntryParts e.entryHash e.signature = .ok e := by
  have hnew : LedgerEntryDraft.new e.toLedgerEntryParts = .ok e.toLedgerEntryDraft :=
    LedgerEntryDraft.new_eq_ok.mpr rfl
  rw [fromStoredParts, hnew]
  rfl

/-! ### The canonical form -/

namespace LedgerEntryParts

/-- The canonical document (`CanonicalLedgerDocument`), members in the order of the source. -/
def canonicalDocument (e : LedgerEntryParts) : Json :=
  .object [
    ("schema", .string ledgerCanonicalSchemaV1),
    ("sequence_no", Json.nat e.sequenceNo.val),
    ("entry_type", .string e.entryType.asStr),
    ("source_event_at", .string e.sourceEventAt.text),
    ("request_id", .string e.requestId.asCanonicalString),
    ("source_event_id", .orNull .string (e.sourceEventId.map AuditEventId.asCanonicalString)),
    ("target_secret_id", .orNull .string (e.targetSecretId.map SecretId.asCanonicalString)),
    ("target_secret_version_id",
      .orNull .string (e.targetSecretVersionId.map LedgerTargetSecretVersionId.asCanonicalString)),
    ("actor_user_id", .orNull .string (e.actorUserId.map OwnerUserId.asCanonicalString)),
    ("actor_device_id", .orNull .string (e.actorDeviceId.map DeviceId.text)),
    ("result", .string e.result.asStr),
    ("error_code", .orNull .string e.errorCode),
    ("payload", .object e.payload.canonicalObject),
    ("canonicalization_version", Json.nat ledgerCanonicalizationVersionV1),
    ("previous_entry_hash", .string e.previousEntryHash.toHex),
    ("hash_algorithm", .string ledgerHashAlgorithmSha256),
    ("signature_algorithm", .string ledgerSignatureAlgorithmEd25519),
    ("signature_key_version", Json.nat e.signatureKeyVersion.val)]

/-- The canonical form: the compact text of the canonical document. -/
def canonicalPayload (e : LedgerEntryParts) : List UInt8 :=
  e.canonicalDocument.toBytes

/-- Two entries agree on every field of the canonical document. -/
structure SameDocument (a b : LedgerEntryParts) : Prop where
  sequenceNo : a.sequenceNo = b.sequenceNo
  entryType : a.entryType = b.entryType
  sourceEventAt : a.sourceEventAt = b.sourceEventAt
  requestId : a.requestId = b.requestId
  sourceEventId : a.sourceEventId = b.sourceEventId
  targetSecretId : a.targetSecretId = b.targetSecretId
  targetSecretVersionId : a.targetSecretVersionId = b.targetSecretVersionId
  actorUserId : a.actorUserId = b.actorUserId
  actorDeviceId : a.actorDeviceId = b.actorDeviceId
  result : a.result = b.result
  errorCode : a.errorCode = b.errorCode
  payload : a.payload.asValue = b.payload.asValue
  previousEntryHash : a.previousEntryHash = b.previousEntryHash
  signatureKeyVersion : a.signatureKeyVersion = b.signatureKeyVersion

private theorem orNull_string_injective : Function.Injective (Json.orNull Json.string) := by
  rintro (_ | s) (_ | t) h <;> simp_all [Json.orNull]

private theorem sourceEventAt_text_injective : Function.Injective SourceEventAt.text := by
  rintro ⟨s, _⟩ ⟨t, _⟩ h; simp_all

private theorem deviceId_text_injective : Function.Injective DeviceId.text := by
  rintro ⟨s, _⟩ ⟨t, _⟩ h; simp_all

private theorem asCanonicalString_injective {α ε : Type} {print : α → String}
    {parse : String → Except ε α} (h : ∀ a, parse (print a) = .ok a) :
    Function.Injective print := fun a b hab => by
  simpa [h] using congrArg parse hab

/-- **Injectivity of the canonical form**: it determines every field of the document. -/
theorem canonicalPayload_inj {a b : LedgerEntryParts}
    (h : a.canonicalPayload = b.canonicalPayload) : SameDocument a b := by
  -- the document is read off its bytes, and each field off its text
  have hdoc : a.canonicalDocument = b.canonicalDocument := Json.toBytes_injective h
  simp only [canonicalDocument, Json.nat, Json.object.injEq, List.cons.injEq, Prod.mk.injEq,
    Json.string.injEq, Json.number.injEq, JsonNumber.posInt.injEq, true_and, and_true,
    LedgerPayload.canonicalObject_eq] at hdoc
  obtain ⟨hseq, htype, hat, hreq, hevent, hsecret, hversion, huser, hdevice, hresult, hcode,
    hpayload, hprev, hkey⟩ := hdoc
  have optional {α : Type} {print : α → String} (hprint : Function.Injective print)
      {x y : Option α}
      (hxy : Json.orNull .string (x.map print) = .orNull .string (y.map print)) : x = y :=
    Option.map_injective hprint (orNull_string_injective hxy)
  exact {
    sequenceNo := LedgerSequenceNo.ext hseq
    entryType := LedgerEntryType.asStr_injective htype
    sourceEventAt := sourceEventAt_text_injective hat
    requestId := asCanonicalString_injective RequestId.parse_asCanonicalString hreq
    sourceEventId :=
      optional (asCanonicalString_injective AuditEventId.parse_asCanonicalString) hevent
    targetSecretId :=
      optional (asCanonicalString_injective SecretId.parse_asCanonicalString) hsecret
    targetSecretVersionId :=
      optional (asCanonicalString_injective LedgerTargetSecretVersionId.parse_asCanonicalString)
        hversion
    actorUserId :=
      optional (asCanonicalString_injective OwnerUserId.parse_asCanonicalString) huser
    actorDeviceId := optional deviceId_text_injective hdevice
    result := LedgerResult.asStr_injective hresult
    errorCode := orNull_string_injective hcode
    payload := congrArg Json.object hpayload
    previousEntryHash := LedgerHash.toHex_injective hprev
    signatureKeyVersion := LedgerSignatureKeyVersion.ext hkey }

end LedgerEntryParts

/-! ### Signing and checking one entry -/

section Signing

variable (P : Primitives)

/-- `LedgerHash::from_canonical_payload` of a draft's canonical form. -/
def LedgerEntryParts.canonicalHash (e : LedgerEntryParts) : LedgerHash :=
  P.sha256 e.canonicalPayload

/-- `LedgerEntryDraft::sign`. -/
def LedgerEntryDraft.sign (d : LedgerEntryDraft) (key : LedgerSigningKey) :
    Except LedgerError SignedLedgerEntry := do
  let signature ← key.signPayload P d.signatureKeyVersion d.canonicalPayload
  pure { toLedgerEntryDraft := d, entryHash := d.canonicalHash P, signature }

/-- What `entry_hash` has to be. -/
def SignedLedgerEntry.recomputeEntryHash (e : SignedLedgerEntry) : LedgerHash :=
  e.canonicalHash P

/-- The check of one signature. -/
def SignedLedgerEntry.verifySignature {P : Primitives} (e : SignedLedgerEntry)
    (key : LedgerVerifyingKey P) : Except LedgerError Unit :=
  key.verifyPayload e.signatureKeyVersion e.canonicalPayload e.signature

/-- What a signature is: the draft with its hash and the signature of its canonical form. -/
theorem LedgerEntryDraft.sign_eq_ok {d : LedgerEntryDraft} {key : LedgerSigningKey}
    {e : SignedLedgerEntry} :
    d.sign P key = .ok e ↔ key.keyVersion = d.signatureKeyVersion ∧
      e = { toLedgerEntryDraft := d, entryHash := d.canonicalHash P,
            signature := P.sign key.secretKey d.canonicalPayload } := by
  simp only [LedgerEntryDraft.sign, Result.bind_eq_ok, LedgerSigningKey.signPayload_eq_ok,
    Result.pure_eq_ok]
  constructor
  · rintro ⟨s, ⟨hv, rfl⟩, rfl⟩; exact ⟨hv, rfl⟩
  · rintro ⟨hv, rfl⟩; exact ⟨_, ⟨hv, rfl⟩, rfl⟩

end Signing

end Mipsorcu
