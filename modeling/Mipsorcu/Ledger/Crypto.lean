import Mipsorcu.Foundation.Result
import Mipsorcu.Ledger.Basic

/-!
# Hashes, signatures and keys

`Primitives` stands for the two cryptographic crates: SHA-256, and Ed25519 with its two
correctness facts (a public key derived from a secret key decodes, and a signature verifies
under it). Nothing is assumed about forgeries or collisions here; results that need such an
assumption state it for the messages that occur.
-/

namespace Mipsorcu

/-- A SHA-256 hash. -/
abbrev LedgerHash := FixedBytes ledgerHashLength

/-- An Ed25519 signature. -/
abbrev LedgerSignature := FixedBytes ledgerSignatureLength

/-- The bytes of an Ed25519 public key, before they are decoded. -/
abbrev PublicKeyBytes := FixedBytes ledgerEd25519PublicKeyLength

/-- The bytes of an Ed25519 secret key. -/
abbrev SecretKeyBytes := FixedBytes 32

/-- The cryptographic primitives. -/
structure Primitives where
  sha256 : List UInt8 → LedgerHash
  publicKey : SecretKeyBytes → PublicKeyBytes
  /-- The bytes decode to a curve point. -/
  isPublicKey : PublicKeyBytes → Bool
  sign : SecretKeyBytes → List UInt8 → LedgerSignature
  verify : PublicKeyBytes → List UInt8 → LedgerSignature → Bool
  isPublicKey_publicKey : ∀ key, isPublicKey (publicKey key) = true
  verify_sign : ∀ key message, verify (publicKey key) message (sign key message) = true

namespace LedgerHash

/-- The hash before the first entry: 32 zero bytes. -/
def genesis : LedgerHash :=
  .zero ledgerHashLength

/-- `LedgerHash::from_bytes`. -/
def fromBytes (bytes : List UInt8) : Except LedgerError LedgerHash :=
  Result.ofOption (.invalidHashLength bytes.length) (FixedBytes.ofBytes? _ bytes)

/-- Digits of either case are read. -/
def fromHexChars (digits : List Char) : Except LedgerError LedgerHash := do
  let bytes ← Result.ofOption .invalidHashEncoding (hexDecode digits)
  fromBytes bytes

/-- `LedgerHash::from_hex`. -/
def fromHex (value : String) : Except LedgerError LedgerHash :=
  fromHexChars value.toList

/-- A `bytea` in the form PostgREST prints it. -/
def fromByteaHex (value : String) : Except LedgerError LedgerHash := do
  let digits ← Result.ofOption .invalidHashEncoding (stripByteaMark value)
  fromHexChars digits

/-- Two digits in lower case for each byte. -/
def toHex (h : LedgerHash) : String :=
  String.ofList (hexEncode h.bytes)

/-- The same with the mark of a `bytea` text. -/
def toByteaHex (h : LedgerHash) : String :=
  byteaText h.bytes

@[simp]
theorem fromByteaHex_toByteaHex (h : LedgerHash) : fromByteaHex h.toByteaHex = .ok h := by
  simp [fromByteaHex, toByteaHex, fromHexChars, fromBytes]

@[simp]
theorem fromHex_toHex (h : LedgerHash) : fromHex h.toHex = .ok h := by
  simp [fromHex, toHex, fromHexChars, fromBytes]

theorem toHex_injective : Function.Injective toHex := fun a b h => by
  simpa using congrArg fromHex h

end LedgerHash

namespace LedgerSignature

/-- `LedgerSignature::from_bytes`. -/
def fromBytes (bytes : List UInt8) : Except LedgerError LedgerSignature :=
  Result.ofOption (.invalidSignatureLength bytes.length) (FixedBytes.ofBytes? _ bytes)

/-- A `bytea` in the form PostgREST prints it. -/
def fromByteaHex (value : String) : Except LedgerError LedgerSignature := do
  let digits ← Result.ofOption .invalidSignatureEncoding (stripByteaMark value)
  let bytes ← Result.ofOption .invalidSignatureEncoding (hexDecode digits)
  fromBytes bytes

/-- The text of the `signature` column. -/
def toByteaHex (s : LedgerSignature) : String :=
  byteaText s.bytes

@[simp]
theorem fromByteaHex_toByteaHex (s : LedgerSignature) : fromByteaHex s.toByteaHex = .ok s := by
  simp [fromByteaHex, toByteaHex, fromBytes]

end LedgerSignature

/-! ### Keys -/

/-- A signing key with its version. -/
structure LedgerSigningKey where
  keyVersion : LedgerSignatureKeyVersion
  secretKey : SecretKeyBytes
  deriving DecidableEq

/-- A verifying key with its version; its bytes decode. -/
structure LedgerVerifyingKey (P : Primitives) where
  keyVersion : LedgerSignatureKeyVersion
  publicKey : PublicKeyBytes
  valid : P.isPublicKey publicKey = true
  deriving DecidableEq

variable {P : Primitives}

namespace LedgerSigningKey

/-- The public half of a signing key. -/
def verificationKey (P : Primitives) (key : LedgerSigningKey) : LedgerVerifyingKey P :=
  ⟨key.keyVersion, P.publicKey key.secretKey, P.isPublicKey_publicKey _⟩

/-- The common body of `sign_payload` and `sign_raw_bytes`. -/
def signRawBytes (P : Primitives) (key : LedgerSigningKey)
    (expectedKeyVersion : LedgerSignatureKeyVersion) (bytes : List UInt8) :
    Except LedgerError LedgerSignature :=
  if key.keyVersion ≠ expectedKeyVersion then
    .error (.signatureKeyVersionMismatch expectedKeyVersion.val key.keyVersion.val)
  else .ok (P.sign key.secretKey bytes)

/-- `sign_payload`. -/
def signPayload := signRawBytes

theorem signPayload_eq_ok {key : LedgerSigningKey} {v : LedgerSignatureKeyVersion}
    {bytes : List UInt8} {s : LedgerSignature} :
    signPayload P key v bytes = .ok s ↔ key.keyVersion = v ∧ P.sign key.secretKey bytes = s := by
  simp only [signPayload, signRawBytes]
  split <;> simp_all

end LedgerSigningKey

namespace LedgerVerifyingKey

/-- Bytes that are no point of the curve are refused. -/
def fromPublicKeyBytes (P : Primitives) (keyVersion : LedgerSignatureKeyVersion)
    (publicKey : List UInt8) : Except LedgerError (LedgerVerifyingKey P) :=
  match FixedBytes.ofBytes? ledgerEd25519PublicKeyLength publicKey with
  | none => .error (.invalidVerificationKeyLength publicKey.length)
  | some bytes =>
    if h : P.isPublicKey bytes = true then .ok ⟨keyVersion, bytes, h⟩
    else .error .invalidVerificationKey

@[simp]
theorem fromPublicKeyBytes_bytes (key : LedgerVerifyingKey P) :
    fromPublicKeyBytes P key.keyVersion key.publicKey.bytes = .ok key := by
  simp [fromPublicKeyBytes, key.valid]

/-- A key of another version is refused before its signature is looked at. -/
def verifyPayload (key : LedgerVerifyingKey P) (expectedKeyVersion : LedgerSignatureKeyVersion)
    (payload : List UInt8) (signature : LedgerSignature) : Except LedgerError Unit :=
  if key.keyVersion ≠ expectedKeyVersion then
    .error (.signatureKeyVersionMismatch expectedKeyVersion.val key.keyVersion.val)
  else Result.require (P.verify key.publicKey payload signature) (.signatureInvalid 0)

/-- The same for the canonical form of a digest. -/
def verifyDigestBytes (key : LedgerVerifyingKey P) (bytes : List UInt8)
    (signature : LedgerSignature) : Except LedgerError Unit :=
  Result.require (P.verify key.publicKey bytes signature) .digestSignatureInvalid

theorem verifyPayload_eq_ok {key : LedgerVerifyingKey P} {v : LedgerSignatureKeyVersion}
    {bytes : List UInt8} {s : LedgerSignature} {u : Unit} :
    key.verifyPayload v bytes s = .ok u ↔
      key.keyVersion = v ∧ P.verify key.publicKey bytes s = true := by
  simp only [verifyPayload]
  split <;> simp_all

end LedgerVerifyingKey

end Mipsorcu
