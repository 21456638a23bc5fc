import Mipsorcu.Ledger.Digest
import Mipsorcu.Secret.Types

/-!
# Metadata of audit events

The metadata of an audit event is a JSON object. `AuditMetadata.new` refuses forbidden keys at any
depth, unknown triggers and times that are no UTC timestamps; an `AuditMetadata` is an object that
passed. Which keys it may and must have depends on the action and the result of the event, and is
checked with the event.
-/

namespace Mipsorcu

/-! ### Forbidden keys -/

/-- `FORBIDDEN_AUDIT_METADATA_KEYS`. -/
def forbiddenAuditMetadataKeys : List String :=
  ["alias_decryption_key", "alias_encryption_key", "alias_fingerprint_key", "authorization",
    "authorization_header", "bearer_token", "canonical_alias_plaintext", "ciphertext", "data_key",
    "decrypt_result", "decrypted", "decrypted_data", "ed25519_private_key", "encrypted_data_key",
    "jwt", "jwt_full", "ledger_signing_key", "master_key", "passphrase", "password", "plain_text",
    "plaintext", "raw_jwt", "request_body", "request_body_full", "response_body",
    "response_body_full", "secret_body", "secret_key", "secret_value", "service_role",
    "service_role_key", "token"]

/-- Case and white space around the key do not count. -/
def isForbiddenMetadataKey (key : String) : Bool :=
  forbiddenAuditMetadataKeys.contains (toAsciiLowercase (trim key))

/-- Walks the whole value and fails at the first forbidden key. -/
def rejectForbiddenMetadataKeys (value : Json) : Except AuditEventError Unit :=
  match value.keys.find? isForbiddenMetadataKey with
  | some key => .error (.forbiddenMetadataKey key)
  | none => .ok ()

/-! ### Triggers and times -/

/-- `AuditTrigger`. -/
inductive AuditTrigger where
  | startup
  | background
  | cli
  deriving DecidableEq

namespace AuditTrigger

/-- `AuditTrigger::parse`. -/
def parse (value : String) : Except AuditEventError AuditTrigger :=
  match value with
  | "startup" => .ok startup
  | "background" => .ok background
  | "cli" => .ok cli
  | _ => .error (.invalidTrigger value)

end AuditTrigger

/-- The check of `trigger`, if it is there. -/
def validateTrigger (object : List (String × Json)) : Except AuditEventError Unit :=
  match SortedMap.get? object "trigger" with
  | none => .ok ()
  | some value => match value.asStr with
    | none => .error (.invalidTrigger value.toText)
    | some text => do
      let _ ← AuditTrigger.parse text
      pure ()

/-- `AuditMetadata::source_event_at`. -/
def readSourceEventAt (object : List (String × Json)) :
    Except AuditEventError (Option SourceEventAt) :=
  match SortedMap.get? object "source_event_at" with
  | none => .ok none
  | some value => match value.asStr with
    | none => .error .invalidSourceEventAt
    | some text => some <$> (SourceEventAt.parse text).mapError fun _ => .invalidSourceEventAt

/-- Puts the time back in its canonical form. -/
def canonicalizeSourceEventAt (object : List (String × Json)) :
    Except AuditEventError (List (String × Json)) := do
  match ← readSourceEventAt object with
  | none => pure object
  | some canonical =>
    pure (SortedMap.insert "source_event_at" (.string canonical.text) object)

/-! ### Metadata -/

/-- The checks of `AuditMetadata::from_object`. -/
def checkMetadata (object : List (String × Json)) :
    Except AuditEventError (List (String × Json)) := do
  rejectForbiddenMetadataKeys (.object object)
  validateTrigger object
  canonicalizeSourceEventAt object

/-- The metadata of an event: an object of ordered maps that passed the checks. -/
structure AuditMetadata where
  object : List (String × Json)
  normal : (Json.object object).normalize = .object object
  valid : checkMetadata object = .ok object

theorem sorted_of_normal {object : List (String × Json)}
    (h : (Json.object object).normalize = .object object) : SortedMap.Sorted object := by
  rw [Json.normalize, Json.object.injEq] at h
  rw [← h]
  exact SortedMap.sorted_ofList _

theorem readSourceEventAt_eq_some {object : List (String × Json)} {t : SourceEventAt}
    (h : readSourceEventAt object = .ok (some t)) :
    SortedMap.get? object "source_event_at" = some (.string t.text) := by
  unfold readSourceEventAt at h
  split at h
  · cases h
  · rename_i value hvalue
    cases value with
    | string text =>
      simp only [Json.asStr, Result.map_eq_ok, Result.mapError_eq_ok, SourceEventAt.parse,
        Option.some.injEq] at h
      obtain ⟨_, hparse, rfl⟩ := h
      split_ifs at hparse
      cases hparse
      exact hvalue
    | _ => simp [Json.asStr] at h

/-- The canonical form of a time is the text it was given as, so nothing changes. -/
theorem checkMetadata_eq_ok {object object' : List (String × Json)}
    (hsorted : SortedMap.Sorted object) (h : checkMetadata object = .ok object') :
    object' = object := by
  simp only [checkMetadata, canonicalizeSourceEventAt, Result.bind_eq_ok] at h
  obtain ⟨_, -, _, -, time, htime, h⟩ := h
  cases time with
  | none => exact (Except.ok.inj h).symm
  | some t =>
    rw [← Except.ok.inj h]
    exact SortedMap.insert_of_get? hsorted (readSourceEventAt_eq_some htime)

namespace AuditMetadata

@[ext]
theorem ext {m n : AuditMetadata} (h : m.object = n.object) : m = n := by
  cases m
  cases n
  simp_all

instance : DecidableEq AuditMetadata := fun m n =>
  decidable_of_iff (m.object = n.object) ⟨ext, congrArg object⟩

/-- The metadata as a value. -/
def asValue (m : AuditMetadata) : Json :=
  .object m.object

/-- `AuditMetadata::from_object`. -/
def fromObject (object : List (String × Json))
    (normal : (Json.object object).normalize = .object object) :
    Except AuditEventError AuditMetadata :=
  match h : checkMetadata object with
  | .ok object' =>
    have heq := checkMetadata_eq_ok (sorted_of_normal normal) h
    .ok ⟨object', heq ▸ normal, heq ▸ h⟩
  | .error e => .error e

/-- The members of a JSON object form a map ordered by key, so they are put in key order first. -/
def new (value : Json) : Except AuditEventError AuditMetadata :=
  match value with
  | .object members =>
    fromObject (SortedMap.ofList (Json.normalizeMembers members))
      (Json.normalize_normalize (.object members))
  | _ => .error .metadataMustBeObject

theorem fromObject_eq_ok {object : List (String × Json)}
    (normal : (Json.object object).normalize = .object object) {m : AuditMetadata}
    (h : m.object = object) : fromObject object normal = .ok m := by
  unfold fromObject
  split
  · rename_i object' hcheck
    exact congrArg _ (ext ((checkMetadata_eq_ok (sorted_of_normal normal) hcheck).trans h.symm))
  · rename_i error hcheck
    rw [← h, m.valid] at hcheck
    cases hcheck

/-- The value of metadata passes the checks again. -/
theorem new_asValue (m : AuditMetadata) : new m.asValue = .ok m :=
  fromObject_eq_ok (Json.normalize_normalize (.object m.object)) (Json.object.inj m.normal).symm

/-- Metadata is the value it was made of, with maps in order. -/
theorem asValue_of_new {value : Json} {m : AuditMetadata} (h : new value = .ok m) :
    m.asValue = value.normalize := by
  unfold new at h
  split at h
  · unfold fromObject at h
    split at h
    · rename_i object' hcheck
      cases h
      exact congrArg Json.object (checkMetadata_eq_ok (SortedMap.sorted_ofList _) hcheck)
    · cases h
  · cases h

/-- `require_source_event_at`. -/
def requireSourceEventAt (m : AuditMetadata) : Except AuditEventError SourceEventAt := do
  let time ← readSourceEventAt m.object
  Result.ofOption .missingSourceEventAt time

end AuditMetadata

end Mipsorcu
