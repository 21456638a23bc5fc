import Mipsorcu.Ledger.Entry

/-!
# Monthly digests

A digest stands for the entries of one month: their first and last position with the hashes
there, and their number. Its canonical form is the compact JSON text of twelve fields; its hash
is the SHA-256 of that text, and the digest's own signature signs it. That signature is not the
signature of the ledger entry that records the digest: the two canonical forms never agree
(`buildMonthlyDigestCanonicalForm_ne_canonicalPayload`).
-/

namespace Mipsorcu

/-- The only version of the digest. -/
def digestSchemaVersionV1 : ℕ := 1

/-- The generator every digest names. -/
def digestGeneratedBy : String := "mipsorcu-sbc"

/-! ### Periods -/

/-- The month of a digest, kept as its text `YYYY-MM`. -/
structure MonthlyDigestPeriod where
  text : String
  valid : isYearMonth text = true
  deriving DecidableEq

namespace MonthlyDigestPeriod

/-- `MonthlyDigestPeriod::parse`; `validate_year_month_format` is the check the payload makes of
such a text too. -/
def parse (value : String) : Except LedgerError MonthlyDigestPeriod :=
  if h : isYearMonth value = true then .ok ⟨value, h⟩ else .error .invalidMonthlyDigestPeriod

@[simp]
theorem parse_text (p : MonthlyDigestPeriod) : parse p.text = .ok p := by
  simp [parse, p.valid]

theorem text_injective : Function.Injective text := by
  rintro ⟨s, _⟩ ⟨t, _⟩ h; simp_all

end MonthlyDigestPeriod

/-! ### The canonical form -/

/-- The SHA-256 of a digest's canonical form. -/
abbrev DigestHash := FixedBytes ledgerHashLength

section

variable (period : MonthlyDigestPeriod) (startSequenceNo endSequenceNo : LedgerSequenceNo)
  (startEntryHash endEntryHash : LedgerHash) (entryCount : ℕ) (digestGeneratedAt : SourceEventAt)
  (signatureKeyVersion : LedgerSignatureKeyVersion)

/-- `DigestCanonicalDocument`: the fields in the order of the source, which is the order of their
names. -/
def digestCanonicalDocument : Json :=
  .object [
    ("digest_generated_at", .string digestGeneratedAt.text),
    ("digest_schema_version", Json.nat digestSchemaVersionV1),
    ("end_entry_hash", .string endEntryHash.toHex),
    ("end_sequence_no", Json.nat endSequenceNo.val),
    ("entry_count", Json.nat entryCount),
    ("generated_by", .string digestGeneratedBy),
    ("hash_algorithm", .string ledgerHashAlgorithmSha256),
    ("signature_algorithm", .string ledgerSignatureAlgorithmEd25519),
    ("signature_key_version", Json.nat signatureKeyVersion.val),
    ("start_entry_hash", .string startEntryHash.toHex),
    ("start_sequence_no", Json.nat startSequenceNo.val),
    ("target_year_month", .string period.text)]

/-- The canonical form; writing such a document cannot fail. -/
def buildMonthlyDigestCanonicalForm : List UInt8 :=
  (digestCanonicalDocument period startSequenceNo endSequenceNo startEntryHash endEntryHash
    entryCount digestGeneratedAt signatureKeyVersion).toBytes

/-- **Two kinds of documents**: the canonical form of a digest is not that of a ledger entry. -/
theorem buildMonthlyDigestCanonicalForm_ne_canonicalPayload (e : LedgerEntryParts) :
    buildMonthlyDigestCanonicalForm period startSequenceNo endSequenceNo startEntryHash
      endEntryHash entryCount digestGeneratedAt signatureKeyVersion ≠ e.canonicalPayload := by
  intro h
  have hdoc := Json.toBytes_injective h
  simp [digestCanonicalDocument, LedgerEntryParts.canonicalDocument] at hdoc

end

/-- `DigestHash::from_canonical_bytes`. -/
def DigestHash.fromCanonicalBytes (P : Primitives) (bytes : List UInt8) : DigestHash :=
  P.sha256 bytes

/-- A digest as the server signed it. -/
structure SignedMonthlyDigest where
  period : MonthlyDigestPeriod
  startSequenceNo : LedgerSequenceNo
  endSequenceNo : LedgerSequenceNo
  startEntryHash : LedgerHash
  endEntryHash : LedgerHash
  entryCount : ℕ
  digestGeneratedAt : SourceEventAt
  signatureKeyVersion : LedgerSignatureKeyVersion
  canonicalBytes : List UInt8
  digestHash : DigestHash
  sbcSignature : LedgerSignature
  deriving DecidableEq

/-- The canonical form of the digest's own fields. -/
def SignedMonthlyDigest.canonicalForm (d : SignedMonthlyDigest) : List UInt8 :=
  buildMonthlyDigestCanonicalForm d.period d.startSequenceNo d.endSequenceNo d.startEntryHash
    d.endEntryHash d.entryCount d.digestGeneratedAt d.signatureKeyVersion

end Mipsorcu
