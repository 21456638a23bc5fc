import Mipsorcu.Audit.Action
import Mipsorcu.Foundation.Rfc3339
import Mipsorcu.Foundation.Uuid

/-!
# Identifiers, device names and timestamps

The value types the ledger shares with the rest of the server. Each carries the condition its
constructor checks, so that a value that exists is a valid one; parsing the printed form of a
value gives it back.
-/

namespace Mipsorcu

/-! ### Text helpers -/

/-- The characters `str::trim` removes: the Unicode property `White_Space`. -/
def isWhiteSpace (c : Char) : Bool :=
  let n := c.toNat
  (9 ≤ n && n ≤ 13) || n == 0x20 || n == 0x85 || n == 0xA0 || n == 0x1680 ||
    (0x2000 ≤ n && n ≤ 0x200A) || n == 0x2028 || n == 0x2029 || n == 0x202F || n == 0x205F ||
    n == 0x3000

/-- `str::trim`. -/
def trim (s : String) : String :=
  String.ofList ((s.toList.dropWhile isWhiteSpace).reverse.dropWhile isWhiteSpace).reverse

/-- `value.trim().is_empty()`: every character is white space. -/
def isBlank (s : String) : Bool :=
  s.toList.all isWhiteSpace

/-- `str::to_ascii_lowercase`. -/
def toAsciiLowercase (s : String) : String :=
  String.ofList (s.toList.map fun c => if 65 ≤ c.toNat ∧ c.toNat ≤ 90 then
    Char.ofNat (c.toNat + 32) else c)

/-- `str::len`: the length in bytes. -/
def byteLength (s : String) : ℕ :=
  (utf8Bytes s).length

/-! ### Errors -/

/-- The errors of the identifier and timestamp parsers and of the authenticated data of a secret
(`AadError`). -/
inductive AadError where
  | expectedJsonObject
  | missingField (field : String)
  | unexpectedField (field : String)
  | invalidFieldType (field expected : String)
  | unsupportedAadVersion (value : String)
  | invalidUuid (field value : String)
  | invalidUuidVersion (field value expected : String)
  | invalidPositiveInteger (field value : String)
  | invalidClassification
  | invalidTimestamp (field value : String)
  deriving DecidableEq

/-- The errors of request values (`InputError`). -/
inductive InputError where
  | invalidDeviceId
  | invalidSecretAlias
  | secretVersionOverflow
  deriving DecidableEq

/-- The errors of the audit events and their identifiers (`AuditEventError`). -/
inductive AuditEventError where
  | invalidUuid (field : String)
  | unknownAction (value : String)
  | unknownResult (value : String)
  | writeSuccessActionNotAllowed (action : AuditAction)
  | failureOnlyActionSuccessNotAllowed (action : AuditAction)
  | authFailureFieldMustBeNull (field : String)
  | metadataMustBeObject
  | forbiddenMetadataKey (key : String)
  | unknownMetadataKey (key : String)
  | missingMetadataKey (key : String)
  | invalidMetadataValue (key : String)
  | violationSummaryMustBeObject
  | invalidTrigger (value : String)
  | invalidSourceEventAt
  | missingSourceEventAt
  | sourceEventAtUnavailable
  deriving DecidableEq

/-! ### UUID identifiers -/

/-- The identifier of a secret: a UUID of version 4. -/
structure SecretId where
  uuid : Uuid
  version_eq : uuid.version = 4
  deriving DecidableEq

/-- The identifier of a user. -/
structure OwnerUserId where
  uuid : Uuid
  deriving DecidableEq

/-- The identifier of an audit event. -/
structure AuditEventId where
  uuid : Uuid
  deriving DecidableEq

/-- The identifier of a request. -/
structure RequestId where
  uuid : Uuid
  deriving DecidableEq

namespace SecretId

def parse (value : String) : Except AadError SecretId :=
  match Uuid.parse value with
  | none => .error (.invalidUuid "secret_id" value)
  | some uuid =>
    if h : uuid.version = 4 then .ok ⟨uuid, h⟩
    else .error (.invalidUuidVersion "secret_id" value "v4")

def asCanonicalString (id : SecretId) : String :=
  id.uuid.hyphenated

@[simp]
theorem parse_asCanonicalString (id : SecretId) : parse id.asCanonicalString = .ok id := by
  simp [parse, asCanonicalString, id.version_eq]

theorem parse_eq_ok {text : String} {id : SecretId} :
    parse text = .ok id ↔ Uuid.parse text = some id.uuid := by
  obtain ⟨uuid, hv4⟩ := id
  unfold parse
  cases Uuid.parse text with
  | none => simp
  | some u =>
    simp only [Option.some_inj]
    constructor
    · intro h
      split_ifs at h
      cases h
      rfl
    · rintro rfl
      exact dif_pos hv4

theorem uuid_of_parse {u : Uuid} {id : SecretId} (h : parse u.hyphenated = .ok id) :
    id.uuid = u := by
  rw [parse_eq_ok, Uuid.parse_hyphenated] at h
  exact (Option.some_inj.mp h).symm

end SecretId

namespace OwnerUserId

def parse (value : String) : Except AadError OwnerUserId :=
  match Uuid.parse value with
  | none => .error (.invalidUuid "owner_user_id" value)
  | some uuid => .ok ⟨uuid⟩

def asCanonicalString (id : OwnerUserId) : String :=
  id.uuid.hyphenated

@[simp]
theorem parse_asCanonicalString (id : OwnerUserId) : parse id.asCanonicalString = .ok id := by
  simp [parse, asCanonicalString]

end OwnerUserId

namespace AuditEventId

def parse (value : String) : Except AuditEventError AuditEventId :=
  match Uuid.parse value with
  | none => .error (.invalidUuid "audit_event_id")
  | some uuid => .ok ⟨uuid⟩

def asCanonicalString (id : AuditEventId) : String :=
  id.uuid.hyphenated

@[simp]
theorem parse_asCanonicalString (id : AuditEventId) : parse id.asCanonicalString = .ok id := by
  simp [parse, asCanonicalString]

end AuditEventId

namespace RequestId

def parse (value : String) : Except AuditEventError RequestId :=
  match Uuid.parse value with
  | none => .error (.invalidUuid "request_id")
  | some uuid => .ok ⟨uuid⟩

def asCanonicalString (id : RequestId) : String :=
  id.uuid.hyphenated

@[simp]
theorem parse_asCanonicalString (id : RequestId) : parse id.asCanonicalString = .ok id := by
  simp [parse, asCanonicalString]

end RequestId

/-! ### Device names -/

/-- A device name: any text that is not blank. -/
structure DeviceId where
  text : String
  not_blank : isBlank text = false
  deriving DecidableEq

namespace DeviceId

def new (value : String) : Except InputError DeviceId :=
  if h : isBlank value = false then .ok ⟨value, h⟩ else .error .invalidDeviceId

@[simp]
theorem new_text (d : DeviceId) : new d.text = .ok d := by
  simp [new, d.not_blank]

end DeviceId

/-! ### Timestamps -/

/-- A sixtieth second stands for the last nanosecond of the minute, which has to be the last
minute of a month. -/
def TimestampFields.isLeapSecond (t : TimestampFields) : Bool :=
  t.second == 60 && t.hour == 23 && t.minute == 59 && t.day == daysInMonth t.year t.month

/-- `SourceEventAt::parse` accepts the text: it ends with `Z` and is an RFC 3339 timestamp for
the `time` crate, which takes any ASCII character between date and time. -/
def isUtcTimestamp (text : String) : Bool :=
  match splitTimestamp text.toList with
  | none => false
  | some t =>
    t.separator.toNat < 128 &&
      (t.inRange || (t.isLeapSecond && TimestampFields.inRange { t with second := 59 }))

/-- A UTC timestamp, kept as the text it was given as. -/
structure SourceEventAt where
  text : String
  valid : isUtcTimestamp text = true
  deriving DecidableEq

namespace SourceEventAt

def parse (value : String) : Except AadError SourceEventAt :=
  if h : isUtcTimestamp value = true then .ok ⟨value, h⟩
  else .error (.invalidTimestamp "source_event_at" value)

@[simp]
theorem parse_text (t : SourceEventAt) : parse t.text = .ok t := by
  simp [parse, t.valid]

end SourceEventAt

end Mipsorcu
