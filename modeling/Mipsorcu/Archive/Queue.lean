import Mipsorcu.Delivery
import Mipsorcu.Ledger.Crypto

/-!
# The queue of the archive

`LocalArchiveQueue` keeps the packages that could not be put into the archive. A record holds the
key, the payload and its SHA-256, and is identified by the key and the hash. The queue reads back
the objects it was given (`pendingObjects_render`).
-/

namespace Mipsorcu

/-! ### Objects -/

/-- The errors of an archive; the text of an I/O error is the system's. -/
inductive ArchiveBackendError where
  | invalidKey (reason : String)
  | serializationFailed (message : String)
  | backendFailed (code : String)
  | ioError
  deriving DecidableEq

/-- A digest as it is archived, with its hash and its signature. -/
structure ArchiveExportPackage where
  digestHashHex : String
  sbcSignatureHex : String
  signatureKeyVersion : ℕ
  /-- The canonical form as a value. -/
  digestCanonical : Json
  deriving DecidableEq

namespace ArchiveExportPackage

/-- The only version of the package. -/
def archiveSchemaVersion : ℕ := 1

/-- `ArchiveDocument`: what is written for a package. -/
def document (p : ArchiveExportPackage) : Json :=
  .object [
    ("archive_schema_version", Json.nat archiveSchemaVersion),
    ("digest", p.digestCanonical),
    ("digest_hash", .string p.digestHashHex),
    ("sbc_signature", .string p.sbcSignatureHex),
    ("signature_key_version", Json.nat p.signatureKeyVersion)]

/-- The object that is put. -/
def toJsonBytes (p : ArchiveExportPackage) : List UInt8 :=
  p.document.toBytes

end ArchiveExportPackage

/-- `ArchiveObjectKey`: a key that is not empty and not too long. -/
structure ArchiveObjectKey where
  text : String
  ne_empty : text ≠ ""
  length_le : byteLength text ≤ 256
  deriving DecidableEq

namespace ArchiveObjectKey

theorem ext {a b : ArchiveObjectKey} (h : a.text = b.text) : a = b := by
  cases a
  cases b
  simp_all

/-- `ArchiveObjectKey::new`. -/
def new (key : String) : Except ArchiveBackendError ArchiveObjectKey :=
  if hempty : key = "" then .error (.invalidKey "archive object key must not be empty")
  else if hlength : byteLength key ≤ 256 then .ok ⟨key, hempty, hlength⟩
  else .error (.invalidKey "archive object key must not exceed 256 characters")

end ArchiveObjectKey

/-! ### Errors of the queue -/

/-- `ArchiveQueueError`. -/
inductive ArchiveQueueError where
  | io
  | json
  | invalidKey
  | invalidPayloadHex
  | invalidPayloadHash
  | timeUnavailable
  deriving DecidableEq

/-- `From<ArchiveQueueError> for ArchiveBackendError`. -/
def ArchiveQueueError.toBackendError (e : ArchiveQueueError) : ArchiveBackendError :=
  .backendFailed <| match e with
    | .io => "archive_export_queue_io_failed"
    | .json => "archive_export_queue_json_failed"
    | .invalidKey => "archive_export_queue_invalid_key"
    | .invalidPayloadHex => "archive_export_queue_invalid_payload_hex"
    | .invalidPayloadHash => "archive_export_queue_payload_hash_mismatch"
    | .timeUnavailable => "archive_export_queue_time_unavailable"

/-! ### Records -/

/-- A line of the queue. -/
structure QueueRecord where
  queueId : String
  deliveryStatus : DeliveryStatus
  key : String
  payloadSha256Hex : String
  payloadHex : String
  queuedAt : String
  deriving DecidableEq

/-- An object that waits. -/
structure QueuedArchiveObject where
  queueId : String
  key : ArchiveObjectKey
  payloadSha256Hex : String
  payload : List UInt8
  deriving DecidableEq

/-- `hex::encode`. -/
def hexText (bytes : List UInt8) : String :=
  String.ofList (hexEncode bytes)

namespace QueueRecord

/-- The record as it is serialised, and as it is read: unknown fields are ignored. -/
def format : RecordFormat QueueRecord where
  members r := [("queue_id", .string r.queueId),
    ("delivery_status", .string r.deliveryStatus.asStr), ("key", .string r.key),
    ("payload_sha256_hex", .string r.payloadSha256Hex),
    ("payload_hex", .string r.payloadHex), ("queued_at", .string r.queuedAt)]
  read?
    | .object object => do
      let queueId ← textField object "queue_id"
      let deliveryStatus ← (textField object "delivery_status").bind DeliveryStatus.parse?
      let key ← textField object "key"
      let payloadSha256Hex ← textField object "payload_sha256_hex"
      let payloadHex ← textField object "payload_hex"
      let queuedAt ← textField object "queued_at"
      pure { queueId, deliveryStatus, key, payloadSha256Hex, payloadHex, queuedAt }
    | _ => none

/-- Every record can be read back. -/
theorem readable (r : QueueRecord) : format.Readable serdeMaxDepth r where
  depth := by
    simp [RecordFormat.toJson, format, Json.depth, Json.depthMembers, Json.depthMember,
      serdeMaxDepth]
  read := by
    have hnormal : Json.normalizeMembers (format.members r) = format.members r :=
      Json.normalizeMembers_of_scalar (by simp [format, Json.isContainer])
    have hkeys : ((format.members r).map Prod.fst).Nodup :=
      show ["queue_id", "delivery_status", "key", "payload_sha256_hex", "payload_hex",
        "queued_at"].Nodup by decide +kernel
    have hfield : ∀ key text, SortedMap.get? (format.members r) key = some (.string text) →
        textField (SortedMap.ofList (format.members r)) key = some text := fun key text h =>
      textField_eq ((SortedMap.get?_ofList hkeys key).trans h)
    rw [RecordFormat.toJson, Json.normalize, hnormal]
    simp only [format] at hfield ⊢
    simp [hfield "queue_id" r.queueId rfl, hfield "delivery_status" r.deliveryStatus.asStr rfl,
      hfield "key" r.key rfl, hfield "payload_sha256_hex" r.payloadSha256Hex rfl,
      hfield "payload_hex" r.payloadHex rfl, hfield "queued_at" r.queuedAt rfl]

end QueueRecord

/-! ### Objects -/

section

variable (sha256 : List UInt8 → LedgerHash)

/-- The identifier of an object: its key, and the hash of its payload. -/
def objectQueueId (key : ArchiveObjectKey) (payload : List UInt8) : String :=
  key.text ++ ":" ++ hexText (sha256 payload).bytes

/-- The record of an object. -/
def QueueRecord.ofObject (status : DeliveryStatus) (key : ArchiveObjectKey) (payload : List UInt8)
    (queuedAt : String) : QueueRecord where
  queueId := objectQueueId sha256 key payload
  deliveryStatus := status
  key := key.text
  payloadSha256Hex := hexText (sha256 payload).bytes
  payloadHex := hexText payload
  queuedAt := queuedAt

/-- `QueueRecord::pending`. -/
def QueueRecord.pending (key : ArchiveObjectKey) (payload : List UInt8) (queuedAt : String) :
    QueueRecord :=
  .ofObject sha256 .pending key payload queuedAt

/-- `QueueRecord::sent`. -/
def QueueRecord.sent (queued : QueuedArchiveObject) (queuedAt : String) : QueueRecord where
  queueId := queued.queueId
  deliveryStatus := .sent
  key := queued.key.text
  payloadSha256Hex := queued.payloadSha256Hex
  payloadHex := hexText queued.payload
  queuedAt := queuedAt

/-- The object with a key and a payload, as the queue returns it. -/
def QueuedArchiveObject.of (key : ArchiveObjectKey) (payload : List UInt8) :
    QueuedArchiveObject where
  queueId := objectQueueId sha256 key payload
  key := key
  payloadSha256Hex := hexText (sha256 payload).bytes
  payload := payload

/-- `TryFrom<QueueRecord> for QueuedArchiveObject`. -/
def QueuedArchiveObject.tryFrom (record : QueueRecord) :
    Except ArchiveQueueError QueuedArchiveObject := do
  let key ← (ArchiveObjectKey.new record.key).mapError fun _ => .invalidKey
  let payload ← Result.ofOption .invalidPayloadHex (hexDecode record.payloadHex.toList)
  Result.require (hexText (sha256 payload).bytes == record.payloadSha256Hex) .invalidPayloadHash
  pure { queueId := record.queueId, key, payloadSha256Hex := record.payloadSha256Hex, payload }

/-- `pending_objects_unlocked`, on the text of the file. -/
def pendingObjects (file : List Char) : Except ArchiveQueueError (List QueuedArchiveObject) := do
  let records ← readLogFile QueueRecord.format .json file
  Result.traverse (QueuedArchiveObject.tryFrom sha256)
    (ReplayLog.pending QueueRecord.queueId (fun r => r.deliveryStatus == .pending) records)

/-- The status of an object: that of its last record. -/
def objectStatus (log : List QueueRecord) (key : ArchiveObjectKey) (payload : List UInt8) :
    Option DeliveryStatus :=
  (log.reverse.find? fun r => r.key == key.text && r.payloadHex == hexText payload).map
    QueueRecord.deliveryStatus

end

section

variable {sha256 : List UInt8 → LedgerHash}

theorem hexText_injective : Function.Injective hexText :=
  fun _ _ h => hexEncode_injective (String.ofList_injective h)

/-- An identifier determines the key and the hash, which has a fixed length. -/
theorem objectQueueId_inj {key key' : ArchiveObjectKey} {payload payload' : List UInt8}
    (h : objectQueueId sha256 key payload = objectQueueId sha256 key' payload') :
    key = key' ∧ sha256 payload = sha256 payload' := by
  have hlist := congrArg String.toList h
  simp only [objectQueueId, hexText, String.toList_append, String.toList_ofList] at hlist
  have hlength : (hexEncode (sha256 payload).bytes).length =
      (hexEncode (sha256 payload').bytes).length := by
    rw [length_hexEncode, length_hexEncode, FixedBytes.length_bytes, FixedBytes.length_bytes]
  obtain ⟨hkeys, hhashes⟩ := List.append_inj' hlist hlength
  have htext : key.text = key'.text := String.toList_inj.mp (List.append_cancel_right hkeys)
  have hbytes : (sha256 payload).bytes = (sha256 payload').bytes :=
    hexText_injective (congrArg String.ofList hhashes)
  exact ⟨ArchiveObjectKey.ext htext, FixedBytes.ext hbytes⟩

theorem QueuedArchiveObject.tryFrom_ofObject (status : DeliveryStatus) (key : ArchiveObjectKey)
    (payload : List UInt8) (queuedAt : String) :
    tryFrom sha256 (.ofObject sha256 status key payload queuedAt) =
      .ok (.of sha256 key payload) := by
  have hkey : ArchiveObjectKey.new key.text = .ok key := by
    rw [ArchiveObjectKey.new, dif_neg key.ne_empty, dif_pos key.length_le]
  have hpayload : hexDecode (hexText payload).toList = some payload := by
    rw [hexText, String.toList_ofList, hexDecode_hexEncode]
  simp only [tryFrom, QueueRecord.ofObject, hkey, hpayload, Result.mapError_ok, Result.ok_bind,
    Result.ofOption_some, beq_self_eq_true, Result.require_true]
  rfl

theorem QueuedArchiveObject.queueId_of_tryFrom {r : QueueRecord} {q : QueuedArchiveObject}
    (h : tryFrom sha256 r = .ok q) : q.queueId = r.queueId := by
  simp only [tryFrom, Result.bind_eq_ok, Result.pure_eq_ok] at h
  obtain ⟨_, -, _, -, _, -, rfl⟩ := h
  rfl

/-- The record is one of an object whose payload is among the given ones. -/
def QueueRecord.IsOf (sha256 : List UInt8 → LedgerHash) (payloads : Set (List UInt8))
    (r : QueueRecord) : Prop :=
  ∃ status key payload queuedAt, payload ∈ payloads ∧
    r = .ofObject sha256 status key payload queuedAt

variable {payloads : Set (List UInt8)} {log : List QueueRecord}

/-- Among payloads without collisions the identifier is as good as the object itself. -/
theorem QueueRecord.IsOf.queueId_iff (hinj : Set.InjOn sha256 payloads) {r : QueueRecord}
    (h : r.IsOf sha256 payloads) {key : ArchiveObjectKey} {payload : List UInt8}
    (hpayload : payload ∈ payloads) :
    r.queueId = objectQueueId sha256 key payload ↔
      r.key = key.text ∧ r.payloadHex = hexText payload := by
  obtain ⟨status, key', payload', queuedAt, hpayload', rfl⟩ := h
  constructor
  · intro hid
    obtain ⟨rfl, hhash⟩ := objectQueueId_inj hid
    exact ⟨rfl, congrArg hexText (hinj hpayload' hpayload hhash)⟩
  · rintro ⟨hkey, hhex⟩
    have hkeys : key' = key := ArchiveObjectKey.ext hkey
    have hpayloads : payload' = payload := hexText_injective hhex
    subst hkeys hpayloads
    rfl

/-- The status of an object is that of the last record with its identifier. -/
theorem objectStatus_eq (hinj : Set.InjOn sha256 payloads)
    (h : ∀ r ∈ log, r.IsOf sha256 payloads) {key : ArchiveObjectKey} {payload : List UInt8}
    (hpayload : payload ∈ payloads) :
    objectStatus log key payload =
      (ReplayLog.last? QueueRecord.queueId log (objectQueueId sha256 key payload)).map
        QueueRecord.deliveryStatus := by
  have hfind : ∀ records : List QueueRecord, (∀ r ∈ records, r.IsOf sha256 payloads) →
      (records.find? fun r => r.key == key.text && r.payloadHex == hexText payload) =
        records.find? fun r => r.queueId = objectQueueId sha256 key payload := by
    intro records
    induction records with
    | nil => exact fun _ => rfl
    | cons r records ih =>
      intro hrecords
      obtain ⟨hr, hrest⟩ := List.forall_mem_cons.mp hrecords
      have hcheck : (r.key == key.text && r.payloadHex == hexText payload) =
          decide (r.queueId = objectQueueId sha256 key payload) := by
        rw [Bool.eq_iff_iff, decide_eq_true_iff, hr.queueId_iff hinj hpayload]
        simp
      rw [List.find?_cons, List.find?_cons, hcheck, ih hrest]
  rw [objectStatus, hfind _ fun r hr => h r (List.mem_reverse.mp hr)]
  rfl

/-- **The queue returns the pending objects**: those whose last record is pending, each once, with
the payload that was queued. -/
theorem pendingObjects_render (hinj : Set.InjOn sha256 payloads)
    (h : ∀ r ∈ log, r.IsOf sha256 payloads) :
    ∃ objects, pendingObjects sha256 (QueueRecord.format.render log) = .ok objects ∧
      objects.Nodup ∧
      (∀ q ∈ objects, ∃ key, ∃ payload ∈ payloads, q = .of sha256 key payload) ∧
      ∀ key payload, .of sha256 key payload ∈ objects ↔
        objectStatus log key payload = some .pending := by
  have hread : readLogFile QueueRecord.format ArchiveQueueError.json
      (QueueRecord.format.render log) = .ok log :=
    readLogFile_render _ fun r _ => QueueRecord.readable r
  -- the records that the replay leaves pending, before they are read as objects
  generalize hrecords : ReplayLog.pending QueueRecord.queueId
    (fun r => r.deliveryStatus == .pending) log = records
  have hpending : ∀ r, r ∈ records ↔ r.deliveryStatus = .pending ∧
      ReplayLog.last? QueueRecord.queueId log r.queueId = some r := by
    intro r
    rw [← hrecords, ReplayLog.mem_pending, beq_iff_eq]
  have hisOf : ∀ r ∈ records, r.IsOf sha256 payloads := fun r hr =>
    h r (ReplayLog.mem_of_last? ((hpending r).mp hr).2)
  obtain ⟨objects, hobjects⟩ : ∃ objects,
      Result.traverse (QueuedArchiveObject.tryFrom sha256) records = .ok objects := by
    refine Result.exists_traverse fun r hr => ?_
    obtain ⟨status, key, payload, queuedAt, -, rfl⟩ := hisOf r hr
    exact ⟨_, QueuedArchiveObject.tryFrom_ofObject status key payload queuedAt⟩
  have hof : ∀ q ∈ objects, ∃ key, ∃ payload ∈ payloads, q = .of sha256 key payload := by
    intro q hq
    obtain ⟨r, hr, hfrom⟩ := (Result.mem_traverse hobjects).mp hq
    obtain ⟨status, key, payload, queuedAt, hpayload, rfl⟩ := hisOf r hr
    rw [QueuedArchiveObject.tryFrom_ofObject] at hfrom
    exact ⟨key, payload, hpayload, (Except.ok.inj hfrom).symm⟩
  refine ⟨objects, ?_, ?_, hof, fun key payload => ?_⟩
  · rw [pendingObjects, hread, Result.ok_bind, hrecords, hobjects]
  -- the replay sorts by queue identifier, which the object keeps
  · have hids := Result.map_traverse (fun _ _ => QueuedArchiveObject.queueId_of_tryFrom) hobjects
    have hsorted : (records.map QueueRecord.queueId).Pairwise (· < ·) := by
      rw [← hrecords]
      exact ReplayLog.pending_sorted
    refine List.Nodup.of_map QueuedArchiveObject.queueId ?_
    rw [hids]
    exact hsorted.imp fun hlt => hlt.ne
  · rw [Result.mem_traverse hobjects]
    constructor
    · rintro ⟨r, hr, hfrom⟩
      obtain ⟨hstatus, hlast⟩ := (hpending r).mp hr
      obtain ⟨status, key', payload', queuedAt, hpayload, rfl⟩ := hisOf r hr
      rw [QueuedArchiveObject.tryFrom_ofObject] at hfrom
      have hsame := Except.ok.inj hfrom
      obtain rfl : key' = key := congrArg QueuedArchiveObject.key hsame
      obtain rfl : payload' = payload := congrArg QueuedArchiveObject.payload hsame
      rw [objectStatus_eq hinj h hpayload]
      exact congrArg (Option.map _) hlast |>.trans (congrArg some hstatus)
    -- as the hash is injective, the last record with the identifier is one of the object
    · intro hstatus
      obtain ⟨r, hfind, hr⟩ := Option.map_eq_some_iff.mp hstatus
      have hmem := List.mem_reverse.mp (List.mem_of_find?_eq_some hfind)
      have hcheck := List.find?_some hfind
      obtain ⟨status, key', payload', queuedAt, hpayload, rfl⟩ := h r hmem
      simp only [QueueRecord.ofObject, Bool.and_eq_true, beq_iff_eq] at hcheck
      obtain ⟨rfl, rfl⟩ : key' = key ∧ payload' = payload :=
        ⟨ArchiveObjectKey.ext hcheck.1, hexText_injective hcheck.2⟩
      rw [objectStatus_eq hinj h hpayload] at hstatus
      obtain ⟨last, hlast, hlastStatus⟩ := Option.map_eq_some_iff.mp hstatus
      have hid := ReplayLog.key_of_last? hlast
      obtain ⟨status', key'', payload'', queuedAt', hpayload', rfl⟩ :=
        h last (ReplayLog.mem_of_last? hlast)
      obtain ⟨rfl, hhash⟩ := objectQueueId_inj hid
      obtain rfl := hinj hpayload' hpayload hhash
      exact ⟨_, (hpending _).mpr ⟨hlastStatus, hlast⟩,
        QueuedArchiveObject.tryFrom_ofObject status' key'' payload'' queuedAt'⟩

end

end Mipsorcu
