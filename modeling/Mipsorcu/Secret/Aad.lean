import Mipsorcu.Foundation.Json
import Mipsorcu.Secret.Types

/-!
# The authenticated data of a secret

`AadV1` binds a ciphertext to the row it is stored in: the secret, its version, its owner, its
classification and the creation time. The canonical bytes determine all five
(`AadV1.canonicalBytes_injective`), and the context stored beside the ciphertext reads back
(`AadV1.fromStoredContext_toStoredContext`).
-/

namespace Mipsorcu

/-- `AadV1`. -/
structure AadV1 where
  secretId : SecretId
  version : SecretVersion
  ownerUserId : OwnerUserId
  classification : Classification
  createdAt : CreatedAt
  deriving DecidableEq

namespace AadV1

/-- The only version of the context. -/
def aadVersionV1 : ℕ := 1

/-- The fields of a stored context, no more and no less. -/
def aadV1Fields : List String :=
  ["aad_version", "classification", "created_at", "owner_user_id", "secret_id", "version"]

/-- The members of the canonical form and of the stored context, both in key order. -/
def members (aad : AadV1) : List (String × Json) := [
  ("aad_version", .nat aadVersionV1),
  ("classification", .string aad.classification.text),
  ("created_at", .string aad.createdAt.asRfc3339Utc),
  ("owner_user_id", .string aad.ownerUserId.asCanonicalString),
  ("secret_id", .string aad.secretId.asCanonicalString),
  ("version", .nat aad.version.get)]

/-- The associated data of the cipher. -/
def canonicalBytes (aad : AadV1) : List UInt8 :=
  (Json.object aad.members).toBytes

/-- The `aad_context` column. -/
def toStoredContext (aad : AadV1) : Json :=
  .object aad.members

/-! ### Reading a stored context -/

/-- `required_value`. -/
def requiredValue (object : List (String × Json)) (field : String) : Except AadError Json :=
  Result.ofOption (.missingField field) (object.lookup field)

/-- Missing fields are reported before unknown ones. -/
def validateAadV1FieldSet (object : List (String × Json)) : Except AadError Unit := do
  Result.forEach (fun field => (requiredValue object field).map fun _ => ()) aadV1Fields
  match object.find? fun m => !aadV1Fields.contains m.1 with
  | some m => .error (.unexpectedField m.1)
  | none => .ok ()

/-- `parse_required_string`. -/
def parseRequiredString (object : List (String × Json)) (field : String) :
    Except AadError String := do
  match ← requiredValue object field with
  | .string s => .ok s
  | _ => .error (.invalidFieldType field "a string")

/-- `Number::as_u64`. -/
def asU64 : JsonNumber → Option ℕ
  | .posInt n => if n < 18446744073709551616 then some n else none
  | _ => none

/-- `parse_positive_integer`: from 1 to `u32::MAX`. -/
def parsePositiveInteger (value : Json) (field : String) : Except AadError ℕ :=
  match value with
  | .number number => match asU64 number with
    | some n => if 0 < n ∧ n < 4294967296 then .ok n
      else .error (.invalidPositiveInteger field (String.ofList (Json.writeNumber number)))
    | none => .error (.invalidPositiveInteger field (String.ofList (Json.writeNumber number)))
  | _ => .error (.invalidFieldType field "a positive integer")

/-- `parse_aad_version`: a wrong number and a wrong type are told apart. -/
def parseAadVersion (value : Json) : Except AadError ℕ :=
  match value with
  | .number number =>
    if asU64 number = some aadVersionV1 then .ok aadVersionV1
    else .error (.unsupportedAadVersion (String.ofList (Json.writeNumber number)))
  | _ => .error (.invalidFieldType "aad_version" "the integer 1")

/-- `AadV1::parse`. -/
def parse (secretId : String) (version : ℕ) (ownerUserId classification createdAt : String) :
    Except AadError AadV1 := do
  let secretId ← SecretId.parse secretId
  let version ← SecretVersion.new version
  let ownerUserId ← OwnerUserId.parse ownerUserId
  let classification ← Classification.new classification
  let createdAt ← CreatedAt.parse createdAt
  pure { secretId, version, ownerUserId, classification, createdAt }

/-- `AadV1::from_stored_context`. -/
def fromStoredContext (context : Json) : Except AadError AadV1 :=
  match context with
  | .object object => do
    validateAadV1FieldSet object
    let _ ← parseAadVersion (← requiredValue object "aad_version")
    let secretId ← parseRequiredString object "secret_id"
    let version ← parsePositiveInteger (← requiredValue object "version") "version"
    let ownerUserId ← parseRequiredString object "owner_user_id"
    let classification ← parseRequiredString object "classification"
    let createdAt ← parseRequiredString object "created_at"
    parse secretId version ownerUserId classification createdAt
  | _ => .error .expectedJsonObject

/-! ### Round trips -/

@[simp]
theorem parse_printed (aad : AadV1) :
    parse aad.secretId.asCanonicalString aad.version.get aad.ownerUserId.asCanonicalString
      aad.classification.text aad.createdAt.asRfc3339Utc = .ok aad := by
  simp [parse]

/-- **The stored context of the data reads back as the data.** -/
theorem fromStoredContext_toStoredContext (aad : AadV1) :
    fromStoredContext aad.toStoredContext = .ok aad := by
  have hversion : parsePositiveInteger (.nat aad.version.get) "version" = .ok aad.version.get := by
    have hpos := aad.version.number.pos
    have hlt := aad.version.number.lt
    have h64 : aad.version.get < 18446744073709551616 := hlt.trans (by decide)
    simp only [parsePositiveInteger, Json.nat, asU64, if_pos h64]
    exact if_pos ⟨hpos, hlt⟩
  have hfields : validateAadV1FieldSet aad.members = .ok () := rfl
  have haadVersion : requiredValue aad.members "aad_version" = .ok (.nat aadVersionV1) := rfl
  have hsupported : parseAadVersion (.nat aadVersionV1) = .ok aadVersionV1 := rfl
  have hsecretId : parseRequiredString aad.members "secret_id" =
    .ok aad.secretId.asCanonicalString := rfl
  have hrequired : requiredValue aad.members "version" = .ok (.nat aad.version.get) := rfl
  have howner : parseRequiredString aad.members "owner_user_id" =
    .ok aad.ownerUserId.asCanonicalString := rfl
  have hclassification : parseRequiredString aad.members "classification" =
    .ok aad.classification.text := rfl
  have hcreatedAt : parseRequiredString aad.members "created_at" =
    .ok aad.createdAt.asRfc3339Utc := rfl
  simp only [fromStoredContext, toStoredContext, hfields, haadVersion, hsupported, hsecretId,
    hrequired, hversion, howner, hclassification, hcreatedAt, Result.ok_bind, parse_printed]

/-- **The canonical bytes determine the data.** -/
theorem canonicalBytes_injective : Function.Injective canonicalBytes := fun a b h => by
  have hcontext : a.toStoredContext = b.toStoredContext := Json.toBytes_injective h
  have hread := congrArg fromStoredContext hcontext
  rw [fromStoredContext_toStoredContext, fromStoredContext_toStoredContext] at hread
  exact Except.ok.inj hread

end AadV1

end Mipsorcu
