import Mipsorcu.Audit.Event
import Mipsorcu.Delivery
import Mipsorcu.Ledger.Crypto

/-!
# Events for the SIEM

What is forwarded to the SIEM is an object of its own, built from an audit event or from a signed
ledger entry. It is serialised as a JSON object and read back from one, and reading gives back the
event that was written (`SiemEvent.fromValue?_toValue`).
-/

namespace Mipsorcu

/-! ### Values in normal form -/

/-- An object of values in normal form is in normal form once its members are in order. -/
theorem Json.normalize_ofList {members : List (String × Json)}
    (h : ∀ m ∈ members, m.2.normalize = m.2) :
    (Json.object (SortedMap.ofList members)).normalize = .object (SortedMap.ofList members) := by
  have hmembers : ∀ m ∈ SortedMap.ofList members, m.2.normalize = m.2 :=
    fun m hm => h m (SortedMap.mem_of_mem_ofList hm)
  rw [Json.normalize, Json.normalizeMembers_of_normal hmembers,
    SortedMap.ofList_eq_self (SortedMap.sorted_ofList _)]

/-! ### Events -/

/-- `SIEM_EVENT_SCHEMA_VERSION`. -/
def siemEventSchemaVersion : UInt32 := 1

/-- An event for the SIEM; the metadata is a value whose objects are ordered maps. -/
structure SiemEvent where
  schemaVersion : UInt32
  eventId : String
  eventType : String
  result : String
  requestId : String
  actorUserId : Option String
  actorDeviceId : Option String
  targetSecretId : Option String
  keyVersion : Option UInt32
  sourceEventAt : String
  metadata : Json
  normal : metadata.normalize = metadata

namespace SiemEvent

/-! ### Serialisation -/

/-- `SIEM_EVENT_TOP_LEVEL_KEYS`. -/
def topLevelKeys : List String :=
  ["actor_device_id", "actor_user_id", "event_id", "event_type", "key_version", "metadata",
    "request_id", "result", "schema_version", "source_event_at", "target_secret_id"]

/-- The fields in the order they are serialised in. -/
def members (e : SiemEvent) : List (String × Json) :=
  [("schema_version", .u32 e.schemaVersion),
    ("event_id", .string e.eventId),
    ("event_type", .string e.eventType),
    ("result", .string e.result),
    ("request_id", .string e.requestId),
    ("actor_user_id", .orNull .string e.actorUserId),
    ("actor_device_id", .orNull .string e.actorDeviceId),
    ("target_secret_id", .orNull .string e.targetSecretId),
    ("key_version", .orNull .u32 e.keyVersion),
    ("source_event_at", .string e.sourceEventAt),
    ("metadata", e.metadata)]

/-- `serde_json::to_value`: an object is an ordered map. -/
def toValue (e : SiemEvent) : Json :=
  .object (SortedMap.ofList e.members)

/-- `serde_json::from_value`. Fields that are not known are refused. -/
def fromValue? : Json → Option SiemEvent
  | .object object =>
    if object.all fun m => topLevelKeys.contains m.1 then do
      let schemaVersion ← (SortedMap.get? object "schema_version").bind Json.asU32
      let eventId ← textField object "event_id"
      let eventType ← textField object "event_type"
      let result ← textField object "result"
      let requestId ← textField object "request_id"
      let actorUserId ← optionalField Json.asStr object "actor_user_id"
      let actorDeviceId ← optionalField Json.asStr object "actor_device_id"
      let targetSecretId ← optionalField Json.asStr object "target_secret_id"
      let keyVersion ← optionalField Json.asU32 object "key_version"
      let sourceEventAt ← textField object "source_event_at"
      let metadata ← SortedMap.get? object "metadata"
      -- the values of the object are in normal form already
      pure { schemaVersion, eventId, eventType, result, requestId, actorUserId, actorDeviceId,
             targetSecretId, keyVersion, sourceEventAt, metadata := metadata.normalize,
             normal := Json.normalize_normalize metadata }
    else none
  | _ => none

/-- The names of the fields are distinct, and they are the known ones. -/
theorem nodup_members (e : SiemEvent) : (e.members.map Prod.fst).Nodup ∧
    ∀ key ∈ e.members.map Prod.fst, topLevelKeys.contains key = true :=
  show ["schema_version", "event_id", "event_type", "result", "request_id", "actor_user_id",
    "actor_device_id", "target_secret_id", "key_version", "source_event_at", "metadata"].Nodup ∧
    ∀ key ∈ ["schema_version", "event_id", "event_type", "result", "request_id", "actor_user_id",
      "actor_device_id", "target_secret_id", "key_version", "source_event_at", "metadata"],
      topLevelKeys.contains key = true by decide +kernel

/-- The value of an event is an ordered map all the way down. -/
theorem normalize_toValue (e : SiemEvent) : e.toValue.normalize = e.toValue := by
  refine Json.normalize_ofList fun m hm => ?_
  simp only [members, List.mem_cons, List.not_mem_nil, or_false] at hm
  rcases hm with rfl | rfl | rfl | rfl | rfl | rfl | rfl | rfl | rfl | rfl | rfl <;>
    first
    | exact e.normal
    | simp [Json.normalize, Json.u32, Json.nat]

/-- **Reading gives back what was written**, with all fields equal. -/
theorem fromValue?_toValue (e : SiemEvent) : fromValue? e.toValue = some e := by
  obtain ⟨hnodup, hkeys⟩ := e.nodup_members
  have hfield : ∀ key value, SortedMap.get? e.members key = some value →
      SortedMap.get? (SortedMap.ofList e.members) key = some value := fun key value h =>
    (SortedMap.get?_ofList hnodup key).trans h
  have hknown : ((SortedMap.ofList e.members).all fun m => topLevelKeys.contains m.1) = true :=
    List.all_eq_true.mpr fun m hm =>
      hkeys m.1 (List.mem_map_of_mem (SortedMap.mem_of_mem_ofList hm))
  have htext : ∀ key text, SortedMap.get? e.members key = some (.string text) →
      textField (SortedMap.ofList e.members) key = some text := fun key text h =>
    textField_eq (hfield key _ h)
  have hoptional : ∀ key text, SortedMap.get? e.members key = some (.orNull .string text) →
      optionalField Json.asStr (SortedMap.ofList e.members) key = some text := fun key text h =>
    optionalField_text (hfield key _ h)
  have hkeyVersion := optionalField_u32 (hfield "key_version" (.orNull .u32 e.keyVersion) rfl)
  rw [toValue, fromValue?, if_pos hknown]
  simp [hfield "schema_version" (.u32 e.schemaVersion) rfl, htext "event_id" e.eventId rfl,
    htext "event_type" e.eventType rfl, htext "result" e.result rfl,
    htext "request_id" e.requestId rfl, hoptional "actor_user_id" e.actorUserId rfl,
    hoptional "actor_device_id" e.actorDeviceId rfl,
    hoptional "target_secret_id" e.targetSecretId rfl, hkeyVersion,
    htext "source_event_at" e.sourceEventAt rfl, hfield "metadata" e.metadata rfl, e.normal]

/-- Only the metadata can nest. -/
theorem depth_toValue (e : SiemEvent) : e.toValue.depth ≤ e.metadata.depth + 1 := by
  have hmembers : ∀ m ∈ SortedMap.ofList e.members, m.2.depth ≤ e.metadata.depth := by
    intro m hm
    have hm := SortedMap.mem_of_mem_ofList hm
    simp only [members, List.mem_cons, List.not_mem_nil, or_false] at hm
    rcases hm with rfl | rfl | rfl | rfl | rfl | rfl | rfl | rfl | rfl | rfl | rfl <;>
      simp [Json.depth, Json.u32, Json.nat]
  exact Nat.succ_le_succ (Json.depthMembers_le hmembers)

end SiemEvent

end Mipsorcu
