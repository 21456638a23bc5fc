import Mipsorcu.Foundation.DateTime
import Mipsorcu.Foundation.Result
import Mipsorcu.Types

/-!
# The value types of a secret

Versions, classifications, creation times, and the key and cipher material. As for the
identifiers, each type carries what its constructor checks. A creation time is an instant with
nanoseconds: printing and parsing it loses nothing (`CreatedAt.parse_asRfc3339Utc`).
-/

namespace Mipsorcu

/-! ### Errors -/

/-- The errors of the key and cipher material (`CryptoError`). -/
inductive CryptoError where
  | invalidDataKeyLength (actual : ℕ)
  | invalidNonceLength (actual : ℕ)
  | invalidKeyVersion (value : ℕ)
  | invalidEncryptedDataKeyLength (actual : ℕ)
  | unsupportedEncryptedDataKeyVersion (version : UInt8)
  | emptyCiphertext
  | randomnessUnavailable
  | encryptionFailed
  | decryptionFailed
  | keyWrapFailed
  | keyUnwrapFailed
  deriving DecidableEq

/-- Random bytes, if the source of randomness gave them (`getrandom::fill`). -/
def fillRandom {n : ℕ} (random : Option (FixedBytes n)) : Except CryptoError (FixedBytes n) :=
  Result.ofOption .randomnessUnavailable random

/-! ### Numbers -/

/-- `NonZeroU32`. -/
structure NonZeroU32 where
  val : ℕ
  pos : 0 < val
  lt : val < 4294967296

namespace NonZeroU32

@[ext]
theorem ext {m n : NonZeroU32} (h : m.val = n.val) : m = n := by
  cases m
  cases n
  simp_all

instance : DecidableEq NonZeroU32 := fun m n =>
  decidable_of_iff (m.val = n.val) ⟨ext, congrArg val⟩

/-- `NonZeroU32::new` on the value of a `u32`. -/
def new (value : ℕ) : Option NonZeroU32 :=
  if h : 0 < value ∧ value < 4294967296 then some ⟨value, h.1, h.2⟩ else none

theorem new_eq_some {value : ℕ} {n : NonZeroU32} : new value = some n ↔ value = n.val := by
  constructor
  · intro h
    unfold new at h
    split at h <;> cases h
    rfl
  · rintro rfl
    simp [new, n.pos, n.lt]

end NonZeroU32

/-- The number of a version of a secret. -/
structure SecretVersion where
  number : NonZeroU32
  deriving DecidableEq

namespace SecretVersion

/-- The number. -/
def get (v : SecretVersion) : ℕ :=
  v.number.val

/-- The version of a new secret. -/
def first : SecretVersion :=
  ⟨⟨1, Nat.one_pos, by decide⟩⟩

/-- `SecretVersion::new`. -/
def new (value : ℕ) : Except AadError SecretVersion :=
  match NonZeroU32.new value with
  | none => .error (.invalidPositiveInteger "version" (toString value))
  | some number => .ok ⟨number⟩

/-- The version of a rotation, by a checked addition. -/
def next (v : SecretVersion) : Except InputError SecretVersion :=
  match NonZeroU32.new (v.get + 1) with
  | none => .error .secretVersionOverflow
  | some number => .ok ⟨number⟩

theorem new_eq_ok {value : ℕ} {v : SecretVersion} : new value = .ok v ↔ value = v.get := by
  rw [get, ← NonZeroU32.new_eq_some, new]
  cases NonZeroU32.new value <;> cases v <;> simp

@[simp]
theorem new_get (v : SecretVersion) : new v.get = .ok v :=
  new_eq_ok.mpr rfl

theorem get_of_next {v w : SecretVersion} (h : v.next = .ok w) : w.get = v.get + 1 := by
  unfold next at h
  split at h
  · cases h
  · rename_i number hnumber
    cases h
    exact (NonZeroU32.new_eq_some.mp hnumber).symm

end SecretVersion

/-- The version of a master key. -/
structure KeyVersion where
  number : NonZeroU32
  deriving DecidableEq

namespace KeyVersion

/-- The number. -/
def get (v : KeyVersion) : ℕ :=
  v.number.val

/-- `KeyVersion::new`. -/
def new (value : ℕ) : Except CryptoError KeyVersion :=
  match NonZeroU32.new value with
  | none => .error (.invalidKeyVersion value)
  | some number => .ok ⟨number⟩

theorem new_eq_ok {value : ℕ} {v : KeyVersion} : new value = .ok v ↔ value = v.get := by
  rw [get, ← NonZeroU32.new_eq_some, new]
  cases NonZeroU32.new value <;> cases v <;> simp

@[simp]
theorem new_get (v : KeyVersion) : new v.get = .ok v :=
  new_eq_ok.mpr rfl

/-- The number as the `u32` it is in the source. -/
def toU32 (v : KeyVersion) : UInt32 :=
  UInt32.ofNatLT v.get v.number.lt

@[simp]
theorem new_toU32 (v : KeyVersion) : new v.toU32.toNat = .ok v :=
  new_get v

end KeyVersion

/-! ### Identifiers and classifications -/

/-- `SecretId::generate`. -/
def SecretId.generate (random : Option (FixedBytes 16)) : Except CryptoError SecretId := do
  let bytes ← fillRandom random
  pure ⟨Uuid.ofRandomBytes bytes, Uuid.version_ofRandomBytes bytes⟩

/-- The identifier of a version of a secret: a UUID of version 4. -/
structure SecretVersionId where
  uuid : Uuid
  isV4 : uuid.version = 4

namespace SecretVersionId

@[ext]
theorem ext {a b : SecretVersionId} (h : a.uuid = b.uuid) : a = b := by
  cases a
  cases b
  simp_all

instance : DecidableEq SecretVersionId := fun a b =>
  decidable_of_iff (a.uuid = b.uuid) ⟨ext, congrArg uuid⟩

/-- `SecretVersionId::generate`. -/
def generate (random : Option (FixedBytes 16)) : Except CryptoError SecretVersionId := do
  let bytes ← fillRandom random
  pure ⟨Uuid.ofRandomBytes bytes, Uuid.version_ofRandomBytes bytes⟩

/-- `SecretVersionId::parse`: only version 4 is accepted. -/
def parse (value : String) : Except AadError SecretVersionId :=
  match Uuid.parse value with
  | none => .error (.invalidUuid "secret_version_id" value)
  | some uuid =>
    if h : uuid.version = 4 then .ok ⟨uuid, h⟩
    else .error (.invalidUuidVersion "secret_version_id" value "v4")

/-- The hyphenated text in lower case. -/
def asCanonicalString (id : SecretVersionId) : String :=
  id.uuid.hyphenated

@[simp]
theorem parse_asCanonicalString (id : SecretVersionId) : parse id.asCanonicalString = .ok id := by
  simp [parse, asCanonicalString, id.isV4]

theorem uuid_of_parse {u : Uuid} {id : SecretVersionId} (h : parse u.hyphenated = .ok id) :
    id.uuid = u := by
  rw [parse, Uuid.parse_hyphenated] at h
  simp only at h
  split_ifs at h
  cases h
  rfl

end SecretVersionId

/-- The classification of a secret: any text that is not blank. -/
structure Classification where
  text : String
  isNotBlank : isBlank text = false

namespace Classification

@[ext]
theorem ext {a b : Classification} (h : a.text = b.text) : a = b := by
  cases a
  cases b
  simp_all

instance : DecidableEq Classification := fun a b =>
  decidable_of_iff (a.text = b.text) ⟨ext, congrArg text⟩

/-- Any text that is not blank. -/
def new (value : String) : Except AadError Classification :=
  if h : isBlank value = false then .ok ⟨value, h⟩ else .error .invalidClassification

@[simp]
theorem new_text (c : Classification) : new c.text = .ok c := by
  simp [new, c.isNotBlank]

end Classification

/-! ### Creation times -/

/-- The creation time of a version: an instant in UTC. -/
structure CreatedAt where
  instant : DateTime
  deriving DecidableEq

/-- `rewrite_utc_suffix`: trims the text and writes `Z` for a final `UTC`, in either case and with
or without a space before it. -/
def rewriteUtcSuffix (value : String) : List Char :=
  let trimmed := (trim value).toList
  let upper := trimmed.map Char.toUpper
  if [' ', 'U', 'T', 'C'].isSuffixOf upper then trimmed.take (trimmed.length - 4) ++ ['Z']
  else if ['U', 'T', 'C'].isSuffixOf upper then trimmed.take (trimmed.length - 3) ++ ['Z']
  else trimmed

/-- What the `time` crate makes of the fields of a timestamp: any ASCII character may stand
between date and time, and a leap second becomes the nanosecond before it. -/
def instantOfFields (f : TimestampFields) : Option DateTime :=
  if f.separator.toNat < 128 then
    if f.isLeapSecond then
      DateTime.ofFields? { f with second := 59, fraction := some (List.replicate 9 '9') }
    else DateTime.ofFields? f
  else none

namespace CreatedAt

/-- `CreatedAt::parse`. -/
def parse (value : String) : Except AadError CreatedAt :=
  match DateTime.stripUtcOffset (rewriteUtcSuffix value) with
  | none => .error (.invalidTimestamp "created_at" value)
  | some body => match (splitTimestamp (body ++ ['Z'])).bind instantOfFields with
    | none => .error (.invalidTimestamp "created_at" value)
    | some instant => .ok ⟨instant⟩

/-- The text that is bound to the ciphertext. -/
def asRfc3339Utc (t : CreatedAt) : String :=
  t.instant.toRfc3339

/-- A text that neither starts nor ends with a blank and does not end in `C` is left alone. -/
theorem rewriteUtcSuffix_eq {first last : Char} (middle : List Char)
    (hfirst : isWhiteSpace first = false) (hlast : isWhiteSpace last = false)
    (hupper : last.toUpper ≠ 'C') :
    rewriteUtcSuffix (String.ofList (first :: middle ++ [last])) = first :: middle ++ [last] := by
  have htrim : (trim (String.ofList (first :: middle ++ [last]))).toList =
      first :: middle ++ [last] := by
    simp [trim, hfirst, hlast]
  simp only [rewriteUtcSuffix, htrim]
  simp [List.isSuffixOf, hupper.symm]

theorem isWhiteSpace_of_isDigit {c : Char} (h : c.isDigit = true) :
    isWhiteSpace c = false := by
  simp only [Char.isDigit, Bool.and_eq_true, decide_eq_true_eq, ge_iff_le,
    UInt32.le_iff_toNat_le] at h
  have hrange : 48 ≤ c.toNat ∧ c.toNat ≤ 57 := h
  simp only [isWhiteSpace, Bool.or_eq_false_iff, Bool.and_eq_false_iff, decide_eq_false_iff_not,
    beq_eq_false_iff_ne]
  omega

theorem dateTimeChars_head (year month day hour minute second : ℕ) : ∃ first rest,
    dateTimeChars year month day hour minute second = first :: rest ∧ first.isDigit = true := by
  obtain ⟨first, rest, hyear⟩ : ∃ first rest, padDigits 4 year = first :: rest := ⟨_, _, rfl⟩
  refine ⟨first, _, by rw [dateTimeChars, hyear]; rfl, ?_⟩
  exact isDigit_of_mem_padDigits first (hyear ▸ List.mem_cons_self)

/-- Parsing a text that starts with a digit takes its body apart, whatever the form of its
offset. -/
theorem parse_eq_ok {first : Char} {rest : List Char} (offset : List Char) {last : Char}
    {t : DateTime} (hfirst : first.isDigit = true)
    (hoffset : ∀ body, DateTime.stripUtcOffset (body ++ (offset ++ [last])) = some body)
    (hlast : isWhiteSpace last = false) (hupper : last.toUpper ≠ 'C') :
    parse (String.ofList (first :: rest ++ (offset ++ [last]))) = .ok ⟨t⟩ ↔
      (splitTimestamp (first :: rest ++ ['Z'])).bind instantOfFields = some t := by
  have htext := rewriteUtcSuffix_eq (rest ++ offset) (isWhiteSpace_of_isDigit hfirst) hlast hupper
  have hbody := hoffset (first :: rest)
  simp only [List.cons_append, List.append_assoc] at htext hbody
  simp only [parse, List.cons_append, htext, hbody]
  cases (splitTimestamp (first :: (rest ++ ['Z']))).bind instantOfFields with
  | none => simp
  | some instant => simp

/-- A printed instant reads back, whatever the form of its offset: the digits of the fraction say
its nanoseconds. -/
theorem parse_chars (t : DateTime) {digits : List Char} (offset : List Char) {last : Char}
    (hdigits : ∀ c ∈ digits, c.isDigit = true) (hlength : digits.length ≤ 9)
    (hnanos : Nat.ofDigitChars 10 digits 0 * 10 ^ (9 - digits.length) = t.nanosecond)
    (hoffset : ∀ body, DateTime.stripUtcOffset (body ++ (offset ++ [last])) = some body)
    (hlast : isWhiteSpace last = false) (hupper : last.toUpper ≠ 'C') :
    parse (String.ofList (dateTimeChars t.year t.month t.day t.hour t.minute t.second ++
      fractionChars digits ++ (offset ++ [last]))) = .ok ⟨t⟩ := by
  obtain ⟨first, rest, hchars, hfirst⟩ := dateTimeChars_head t.year t.month t.day t.hour t.minute
    t.second
  have hsplit := t.splitTimestamp_chars hdigits
  have hread : instantOfFields (t.fields digits) = some t := by
    have hleap : (t.fields digits).isLeapSecond = false := by
      have : t.second ≠ 60 := t.second_lt.ne
      simp [TimestampFields.isLeapSecond, DateTime.fields, this]
    have hseparator : (t.fields digits).separator.toNat < 128 := show 'T'.toNat < 128 by decide
    rw [instantOfFields, if_pos hseparator, hleap]
    exact t.ofFields?_fields hlength hnanos
  rw [hchars, ← List.append_assoc, List.cons_append] at hsplit
  rw [hchars, List.cons_append]
  refine (parse_eq_ok offset hfirst hoffset hlast hupper).mpr ?_
  rw [hsplit, Option.bind_some, hread]

@[simp]
theorem parse_asRfc3339Utc (t : CreatedAt) : parse t.asRfc3339Utc = .ok t := by
  have hnanos : Nat.ofDigitChars 10 (padDigits 9 t.instant.nanosecond) 0 *
      10 ^ (9 - (padDigits 9 t.instant.nanosecond).length) = t.instant.nanosecond := by
    rw [length_padDigits, Nat.sub_self, pow_zero, mul_one]
    exact ofDigitChars_padDigits 9 t.instant.nanosecond_lt
  exact parse_chars t.instant [] isDigit_of_mem_padDigits (length_padDigits 9 _).le
    hnanos DateTime.stripUtcOffset_zulu (by decide) (by decide)

end CreatedAt

/-! ### Key and cipher material -/

/-- The key a secret is encrypted with. -/
structure DataKey where
  bytes : FixedBytes 32
  deriving DecidableEq

/-- A key that data keys are wrapped with. -/
structure MasterKey where
  bytes : FixedBytes 32
  deriving DecidableEq

/-- A nonce of XChaCha20-Poly1305. -/
structure Nonce where
  bytes : FixedBytes 24
  deriving DecidableEq

/-- `Plaintext`; it may be empty. -/
structure Plaintext where
  bytes : List UInt8
  deriving DecidableEq

/-- `Ciphertext`. -/
structure Ciphertext where
  bytes : List UInt8
  not_empty : bytes ≠ []

/-- The first byte of a wrapped data key. -/
def encryptedDataKeyVersion : UInt8 := 1

/-- The length of a wrapped data key without its version and nonce. -/
def encryptedDataKeyCiphertextLength : ℕ := 32 + 16

/-- The length of a wrapped data key. -/
def encryptedDataKeyLength : ℕ := 1 + 24 + encryptedDataKeyCiphertextLength

/-- A wrapped data key: a version byte, a nonce and the encrypted key. -/
structure EncryptedDataKey where
  bytes : List UInt8
  length_bytes : bytes.length = encryptedDataKeyLength
  head_bytes : bytes.head? = some encryptedDataKeyVersion

namespace DataKey

/-- `DataKey::generate`. -/
def generate (random : Option (FixedBytes 32)) : Except CryptoError DataKey := do
  let bytes ← fillRandom random
  pure ⟨bytes⟩

/-- `DataKey::parse`. -/
def parse (bytes : List UInt8) : Except CryptoError DataKey :=
  match FixedBytes.ofBytes? 32 bytes with
  | none => .error (.invalidDataKeyLength bytes.length)
  | some key => .ok ⟨key⟩

@[simp]
theorem parse_bytes (key : DataKey) : parse key.bytes.bytes = .ok key := by
  simp [parse]

end DataKey

namespace Nonce

/-- `Nonce::generate`. -/
def generate (random : Option (FixedBytes 24)) : Except CryptoError Nonce := do
  let bytes ← fillRandom random
  pure ⟨bytes⟩

/-- `Nonce::parse`. -/
def parse (bytes : List UInt8) : Except CryptoError Nonce :=
  match FixedBytes.ofBytes? 24 bytes with
  | none => .error (.invalidNonceLength bytes.length)
  | some nonce => .ok ⟨nonce⟩

@[simp]
theorem parse_bytes (nonce : Nonce) : parse nonce.bytes.bytes = .ok nonce := by
  simp [parse]

end Nonce

namespace Ciphertext

@[ext]
theorem ext {a b : Ciphertext} (h : a.bytes = b.bytes) : a = b := by
  cases a
  cases b
  simp_all

instance : DecidableEq Ciphertext := fun a b =>
  decidable_of_iff (a.bytes = b.bytes) ⟨ext, congrArg bytes⟩

/-- `Ciphertext::new`. -/
def new (bytes : List UInt8) : Except CryptoError Ciphertext :=
  if h : bytes ≠ [] then .ok ⟨bytes, h⟩ else .error .emptyCiphertext

@[simp]
theorem new_bytes (c : Ciphertext) : new c.bytes = .ok c := by
  simp [new, c.not_empty]

theorem bytes_of_new {bytes : List UInt8} {c : Ciphertext} (h : new bytes = .ok c) :
    c.bytes = bytes := by
  unfold new at h
  split at h
  · cases h
    rfl
  · cases h

end Ciphertext

namespace EncryptedDataKey

@[ext]
theorem ext {a b : EncryptedDataKey} (h : a.bytes = b.bytes) : a = b := by
  cases a
  cases b
  simp_all

instance : DecidableEq EncryptedDataKey := fun a b =>
  decidable_of_iff (a.bytes = b.bytes) ⟨ext, congrArg bytes⟩

/-- `EncryptedDataKey::parse` and `from_envelope_bytes`: the length, then the version byte. -/
def parse (bytes : List UInt8) : Except CryptoError EncryptedDataKey :=
  if hlength : bytes.length = encryptedDataKeyLength then
    if hhead : bytes.head? = some encryptedDataKeyVersion then .ok ⟨bytes, hlength, hhead⟩
    else .error (.unsupportedEncryptedDataKeyVersion (bytes.headD 0))
  else .error (.invalidEncryptedDataKeyLength bytes.length)

@[simp]
theorem parse_bytes (e : EncryptedDataKey) : parse e.bytes = .ok e := by
  simp [parse, e.length_bytes, e.head_bytes]

theorem bytes_of_parse {bytes : List UInt8} {e : EncryptedDataKey} (h : parse bytes = .ok e) :
    e.bytes = bytes := by
  unfold parse at h
  split at h
  · split at h
    · cases h
      rfl
    · cases h
  · cases h

/-- The nonce the key was wrapped with. -/
def nonce (e : EncryptedDataKey) : Nonce :=
  ⟨(e.bytes.drop 1).take 24, by
    have := e.length_bytes
    simp [this, encryptedDataKeyLength, encryptedDataKeyCiphertextLength]⟩

/-- What stands behind the version byte and the nonce. -/
def ciphertextBytes (e : EncryptedDataKey) : List UInt8 :=
  e.bytes.drop 25

end EncryptedDataKey

end Mipsorcu
