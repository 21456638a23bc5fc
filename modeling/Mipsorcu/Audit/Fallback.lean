import Mipsorcu.Audit.Event
import Mipsorcu.Delivery
import Mipsorcu.Foundation.JsonFraming

/-!
# The local store of audit events

`LocalAuditFallbackStore` keeps the events that the database did not take in a file of JSON lines.
A line says that an event is pending, or that it was sent; the last line of an event decides.
`LocalAuditFallbackRecord.toEvent` reads every field of a line again and checks the event as if it
were new, so one line that is no event makes the whole file unreadable.

A line is read by `serde_json`, which is a parameter here: `ReadsFallbackRecords` says what is used
of it. The events that the store returns are those whose last line is pending.
-/

namespace Mipsorcu

/-- `LocalAuditStoreError`. -/
inductive LocalAuditStoreError where
  | io
  | json
  | timestampFormat
  | archivePathUnavailable
  | gzipWriteFailed
  | hashReadFailed
  | currentFileRemoveFailed
  | archiveDeleteFailed
  | lockPoisoned
  | invalidLine (lineNumber : ℕ) (reason : String)
  | event (error : AuditEventError)

/-! ### Records -/

/-- A line of the file, with its fields as they were read. -/
structure LocalAuditFallbackRecord where
  auditEventId : String
  requestId : String
  actorUserId : Option String
  actorDeviceId : Option String
  action : String
  targetSecretId : Option String
  result : String
  keyVersion : Option UInt32
  metadataJson : Json
  occurredAt : Option String
  deliveryStatus : DeliveryStatus

namespace LocalAuditFallbackRecord

/-- The fields in the order in which an ordered map writes them. -/
def members (r : LocalAuditFallbackRecord) : List (String × Json) :=
  [("action", .string r.action), ("actor_device_id", .orNull .string r.actorDeviceId),
    ("actor_user_id", .orNull .string r.actorUserId), ("audit_event_id", .string r.auditEventId),
    ("delivery_status", .string r.deliveryStatus.asStr),
    ("key_version", .orNull .u32 r.keyVersion), ("metadata_json", r.metadataJson),
    ("occurred_at", .orNull .string r.occurredAt), ("request_id", .string r.requestId),
    ("result", .string r.result), ("target_secret_id", .orNull .string r.targetSecretId)]

/-- The value of a record. -/
def toJson (r : LocalAuditFallbackRecord) : Json :=
  .object r.members

/-- A blank time counts as none. -/
def nonEmptyOccurredAt (r : LocalAuditFallbackRecord) : Option String :=
  r.occurredAt.filter fun value => !isBlank value

/-- Parses an optional field; what it cannot be parsed for is not told. -/
def parseField {α β ε : Type} (parse : α → Except ε β) (lineNumber : ℕ) (reason : String) :
    Option α → Except LocalAuditStoreError (Option β)
  | none => .ok none
  | some raw => some <$> (parse raw).mapError fun _ => .invalidLine lineNumber reason

/-- The metadata of a line may fail on its time only as an invalid line. -/
def metadataError (lineNumber : ℕ) : AuditEventError → LocalAuditStoreError
  | .invalidSourceEventAt => .invalidLine lineNumber "metadata_json.source_event_at is invalid"
  | error => .event error

/-- The two errors about the time name the line. -/
def eventError (lineNumber : ℕ) : AuditEventError → LocalAuditStoreError
  | .missingSourceEventAt => .invalidLine lineNumber "metadata_json.source_event_at is missing"
  | .invalidSourceEventAt => .invalidLine lineNumber "metadata_json.source_event_at is invalid"
  | error => .event error

/-- `to_event`: the fields are parsed in the order of the source. -/
def toEvent (r : LocalAuditFallbackRecord) (lineNumber : ℕ) :
    Except LocalAuditStoreError AuditEvent := do
  let actorUserId ← parseField OwnerUserId.parse lineNumber "actor_user_id is invalid" r.actorUserId
  let actorDeviceId ←
    parseField DeviceId.new lineNumber "actor_device_id is invalid" r.actorDeviceId
  let targetSecretId ←
    parseField SecretId.parse lineNumber "target_secret_id is invalid" r.targetSecretId
  let keyVersion ←
    parseField KeyVersion.new lineNumber "key_version is invalid" (r.keyVersion.map UInt32.toNat)
  let metadataJson ← (AuditMetadata.new r.metadataJson).mapError (metadataError lineNumber)
  -- these errors do not name the line
  let auditEventId ← (AuditEventId.parse r.auditEventId).mapError .event
  let requestId ← (RequestId.parse r.requestId).mapError .event
  let action ← (AuditAction.parse r.action).mapError .event
  let result ← (AuditResult.parse r.result).mapError .event
  (AuditEvent.new
    { auditEventId := auditEventId, requestId, actorUserId, actorDeviceId, action, targetSecretId,
      result, keyVersion, metadataJson }).mapError (eventError lineNumber)

/-- The record of an event, written at the given time. -/
def ofEvent (status : DeliveryStatus) (occurredAt : String) (e : AuditEvent) :
    LocalAuditFallbackRecord where
  auditEventId := e.auditEventId.asCanonicalString
  requestId := e.requestId.asCanonicalString
  actorUserId := e.actorUserId.map OwnerUserId.asCanonicalString
  actorDeviceId := e.actorDeviceId.map DeviceId.text
  action := e.action.asStr
  targetSecretId := e.targetSecretId.map SecretId.asCanonicalString
  result := e.result.asStr
  keyVersion := e.keyVersion.map KeyVersion.toU32
  metadataJson := e.metadataJson.asValue
  occurredAt := some occurredAt
  deliveryStatus := status

theorem parseField_map {α β ε : Type} {parse : α → Except ε β} {print : β → α}
    (h : ∀ b, parse (print b) = .ok b) (lineNumber : ℕ) (reason : String) (field : Option β) :
    parseField parse lineNumber reason (field.map print) = .ok field := by
  cases field with
  | none => rfl
  | some b =>
    rw [Option.map_some, parseField, h]
    rfl

/-- **The event of a record is read back**, with all its fields. -/
theorem toEvent_ofEvent (status : DeliveryStatus) (occurredAt : String) (e : AuditEvent)
    (lineNumber : ℕ) : (ofEvent status occurredAt e).toEvent lineNumber = .ok e := by
  have hkeyVersion : parseField KeyVersion.new lineNumber "key_version is invalid"
      ((e.keyVersion.map KeyVersion.toU32).map UInt32.toNat) = .ok e.keyVersion := by
    rw [Option.map_map]
    exact parseField_map KeyVersion.new_toU32 lineNumber _ _
  simp only [toEvent, ofEvent, parseField_map OwnerUserId.parse_asCanonicalString,
    parseField_map DeviceId.new_text, parseField_map SecretId.parse_asCanonicalString,
    hkeyVersion, AuditMetadata.new_asValue, AuditEventId.parse_asCanonicalString,
    RequestId.parse_asCanonicalString, AuditAction.parse_asStr, AuditResult.parse_asStr,
    Result.mapError_ok, Result.ok_bind]
  rw [AuditEvent.new_eq_ok.mpr rfl, Result.mapError_ok]

theorem metadata_of_toEvent {r : LocalAuditFallbackRecord} {lineNumber : ℕ} {e : AuditEvent}
    (h : r.toEvent lineNumber = .ok e) : AuditMetadata.new r.metadataJson = .ok e.metadataJson := by
  simp only [toEvent, Result.bind_eq_ok, Result.mapError_eq_ok] at h
  obtain ⟨_, -, _, -, _, -, _, -, metadata, hmetadata, _, -, _, -, _, -, _, -, hnew⟩ := h
  rw [AuditEvent.new_eq_ok.mp hnew]
  exact hmetadata

end LocalAuditFallbackRecord

/-- The events that come back from the file as they were: reading descends into the record before
it comes to the metadata, and it may change a floating point number. -/
structure AuditEvent.Storable (e : AuditEvent) : Prop where
  depth : e.metadataJson.asValue.depth < serdeMaxDepth
  exact_numbers : e.metadataJson.asValue.isExact = true

/-- `fallback_json`, at the time the clock tells. -/
def fallbackJson (e : AuditEvent) (status : DeliveryStatus) (occurredAt : String) : Json :=
  (LocalAuditFallbackRecord.ofEvent status occurredAt e).toJson

/-! ### Reading the file -/

/-- A line that has been read. -/
structure ParsedFallbackRecord where
  event : AuditEvent
  deliveryStatus : DeliveryStatus
  occurredAt : Option String

namespace ParsedFallbackRecord

/-- The key under which the records are replayed. -/
def eventId (r : ParsedFallbackRecord) : String :=
  r.event.auditEventId.asCanonicalString

/-- The record waits to be sent. -/
def isPending (r : ParsedFallbackRecord) : Bool :=
  r.deliveryStatus == .pending

/-- What is read from the record of an event. -/
def ofEvent (status : DeliveryStatus) (occurredAt : String) (e : AuditEvent) :
    ParsedFallbackRecord where
  event := e
  deliveryStatus := status
  occurredAt := (LocalAuditFallbackRecord.ofEvent status occurredAt e).nonEmptyOccurredAt

end ParsedFallbackRecord

/-- What the store uses of `serde_json::from_str`: what it takes for a record is the text of one
object or array, nested no more deeply than its limit; white space in front does not matter; and it
gives back a record that was written with maps in order and with no other numbers than integers of
64 bits. -/
structure ReadsFallbackRecords (fromStr : List Char → Option LocalAuditFallbackRecord) : Prop where
  framed {line : List Char} {r : LocalAuditFallbackRecord} :
    fromStr line = some r → Json.Framed line
  nesting {line : List Char} {r : LocalAuditFallbackRecord} :
    fromStr line = some r → r.metadataJson.depth < serdeMaxDepth
  spaces {spaces : List Char} (line : List Char) :
    (∀ c ∈ spaces, Json.isSpace c = true) → fromStr (spaces ++ line) = fromStr line
  written {r : LocalAuditFallbackRecord} :
    r.metadataJson.normalize = r.metadataJson → r.metadataJson.isExact = true →
      r.metadataJson.depth < serdeMaxDepth → fromStr r.toJson.write = some r

namespace LocalAuditFallbackStore

variable (fromStr : List Char → Option LocalAuditFallbackRecord)

/-- The loop over the lines; `lineNumber` is the number of the first one. -/
def parseRecords (lineNumber : ℕ) :
    List (List Char) → Except LocalAuditStoreError (List ParsedFallbackRecord)
  | [] => .ok []
  | line :: rest =>
    if line.all isWhiteSpace then parseRecords (lineNumber + 1) rest
    else do
      let record ← Result.ofOption .json (fromStr line)
      let event ← record.toEvent lineNumber
      let records ← parseRecords (lineNumber + 1) rest
      pure ({ event, deliveryStatus := record.deliveryStatus,
              occurredAt := record.nonEmptyOccurredAt } :: records)

/-- Lines are counted from 1. -/
def parseExistingFallbackRecords (file : List Char) :
    Except LocalAuditStoreError (List ParsedFallbackRecord) :=
  parseRecords fromStr 1 (JsonLines.lines file)

/-- The events of a log whose last record is pending. -/
def pendingOf (log : List ParsedFallbackRecord) : List AuditEvent :=
  (ReplayLog.pending ParsedFallbackRecord.eventId ParsedFallbackRecord.isPending log).map
    ParsedFallbackRecord.event

/-- `pending_events`, on the text of the file; there may be no file. -/
def pendingEvents : Option (List Char) → Except LocalAuditStoreError (List AuditEvent)
  | none => .ok []
  | some file => pendingOf <$> parseExistingFallbackRecords fromStr file

theorem pendingEvents_eq_ok {file : Option (List Char)} {pending : List AuditEvent} :
    pendingEvents fromStr file = .ok pending ↔ (file = none ∧ pending = []) ∨
      ∃ text log, file = some text ∧ parseExistingFallbackRecords fromStr text = .ok log ∧
        pending = pendingOf log := by
  cases file with
  | none => simp [pendingEvents, eq_comm]
  | some text =>
    rw [pendingEvents, Result.map_eq_ok]
    constructor
    · rintro ⟨log, hlog, rfl⟩
      exact .inr ⟨text, log, rfl, hlog, rfl⟩
    · rintro (⟨hnone, -⟩ | ⟨_, log, htext, hlog, rfl⟩)
      · cases hnone
      · cases htext
        exact ⟨log, hlog, rfl⟩

/-- `append_line`, where the write succeeds. -/
def appendLine (file : Option (List Char)) (value : Json) : List Char :=
  file.getD [] ++ (value.write ++ ['\n'])

/-- `mark_sent`; `now` is the time of the clock, or what made the write fail. -/
def markSent (now : Except LocalAuditStoreError String) (file : Option (List Char))
    (e : AuditEvent) : Except LocalAuditStoreError (List Char) := do
  let occurredAt ← now
  pure (appendLine file (fallbackJson e .sent occurredAt))

/-! ### Pending events -/

theorem auditEventId_text_injective : Function.Injective AuditEventId.asCanonicalString := by
  intro id id' h
  have hparse := congrArg AuditEventId.parse h
  rw [AuditEventId.parse_asCanonicalString, AuditEventId.parse_asCanonicalString] at hparse
  exact Except.ok.inj hparse

section

open ParsedFallbackRecord

variable {log : List ParsedFallbackRecord} {e : AuditEvent}

/-- **An event is pending if the last record of its identifier says so.** -/
theorem mem_pendingOf : e ∈ pendingOf log ↔ ∃ r, r.isPending = true ∧ r.event = e ∧
    ReplayLog.last? eventId log e.auditEventId.asCanonicalString = some r := by
  simp only [pendingOf, List.mem_map, ReplayLog.mem_pending]
  constructor
  · rintro ⟨r, ⟨hpending, hlast⟩, rfl⟩
    exact ⟨r, hpending, rfl, hlast⟩
  · rintro ⟨r, hpending, rfl, hlast⟩
    exact ⟨r, ⟨hpending, hlast⟩, rfl⟩

theorem mem_of_mem_pendingOf (h : e ∈ pendingOf log) : ∃ r ∈ log, r.event = e := by
  obtain ⟨r, -, rfl, hlast⟩ := mem_pendingOf.mp h
  exact ⟨r, ReplayLog.mem_of_last? hlast, rfl⟩

/-- The pending events come in the order of their identifiers. -/
theorem pendingOf_sorted (log : List ParsedFallbackRecord) :
    (pendingOf log).Pairwise fun e f =>
      e.auditEventId.asCanonicalString < f.auditEventId.asCanonicalString :=
  List.pairwise_map.mpr (List.pairwise_map.mp ReplayLog.pending_sorted)

theorem nodup_pendingOf (log : List ParsedFallbackRecord) : (pendingOf log).Nodup :=
  (pendingOf_sorted log).imp fun hlt heq => hlt.ne (by rw [heq])

/-- Two pending events of one identifier are the same one. -/
theorem eq_of_mem_pendingOf {f : AuditEvent} (he : e ∈ pendingOf log) (hf : f ∈ pendingOf log)
    (hid : e.auditEventId = f.auditEventId) : e = f := by
  obtain ⟨r, -, rfl, hlast⟩ := mem_pendingOf.mp he
  obtain ⟨r', -, rfl, hlast'⟩ := mem_pendingOf.mp hf
  rw [hid, hlast'] at hlast
  cases hlast
  rfl

/-- Records that events were sent take these events away from the pending ones. -/
theorem mem_pendingOf_append_sent {sent : List AuditEvent} (now : AuditEvent → String)
    (hsent : ∀ f ∈ sent, f ∈ pendingOf log) :
    e ∈ pendingOf (log ++ sent.map fun f => .ofEvent .sent (now f) f) ↔
      e ∈ pendingOf log ∧ e ∉ sent := by
  rw [mem_pendingOf, ReplayLog.last?_append]
  cases hlast : ReplayLog.last? eventId (sent.map fun f => .ofEvent .sent (now f) f)
      e.auditEventId.asCanonicalString with
  | some r =>
    obtain ⟨f, hf, rfl⟩ := List.mem_map.mp (ReplayLog.mem_of_last? hlast)
    have hkey : (ofEvent .sent (now f) f).eventId = e.auditEventId.asCanonicalString :=
      ReplayLog.key_of_last? hlast
    have hid : f.auditEventId = e.auditEventId := auditEventId_text_injective hkey
    constructor
    · rintro ⟨r, hpending, -, hr⟩
      cases hr
      cases hpending
    · rintro ⟨he, hnot⟩
      exact absurd (eq_of_mem_pendingOf (hsent f hf) he hid ▸ hf) hnot
  | none =>
    have hnot : e ∉ sent := by
      intro he
      have hmem : ofEvent .sent (now e) e ∈ sent.map fun f => ofEvent .sent (now f) f :=
        List.mem_map_of_mem he
      obtain ⟨r, hr⟩ : ∃ r, ReplayLog.last? eventId _ (ofEvent .sent (now e) e).eventId = some r :=
        ReplayLog.exists_last? hmem
      exact Option.some_ne_none r (hr.symm.trans hlast)
    rw [Option.none_or, ← mem_pendingOf]
    exact (and_iff_left hnot).symm

end

/-! ### A line behind the others -/

section

variable {fromStr : List Char → Option LocalAuditFallbackRecord}

variable {lineNumber : ℕ}

/-- A file is read if each line is blank or read as an event, whatever its number. -/
theorem parseRecords_cons_eq_ok {line : List Char} {lines : List (List Char)}
    {log : List ParsedFallbackRecord} (hblank : line.all isWhiteSpace = false) :
    parseRecords fromStr lineNumber (line :: lines) = .ok log ↔
      ∃ record event rest, fromStr line = some record ∧ record.toEvent lineNumber = .ok event ∧
        parseRecords fromStr (lineNumber + 1) lines = .ok rest ∧
        log = ⟨event, record.deliveryStatus, record.nonEmptyOccurredAt⟩ :: rest := by
  rw [parseRecords, if_neg (by rw [hblank]; decide)]
  simp only [Result.bind_eq_ok, Result.ofOption_eq_ok, Result.pure_eq_ok]
  constructor
  · rintro ⟨record, hrecord, event, hevent, rest, hrest, rfl⟩
    exact ⟨record, event, rest, hrecord, hevent, hrest, rfl⟩
  · rintro ⟨record, event, rest, hrecord, hevent, hrest, rfl⟩
    exact ⟨record, hrecord, event, hevent, rest, hrest, rfl⟩

theorem parseRecords_append_eq_ok {xs ys : List (List Char)} {log : List ParsedFallbackRecord} :
    parseRecords fromStr lineNumber (xs ++ ys) = .ok log ↔
      ∃ before behind, parseRecords fromStr lineNumber xs = .ok before ∧
        parseRecords fromStr (lineNumber + xs.length) ys = .ok behind ∧ log = before ++ behind := by
  induction xs generalizing lineNumber log with
  | nil => simp [parseRecords]
  | cons line xs ih =>
    have hnumber : lineNumber + (line :: xs).length = lineNumber + 1 + xs.length := by
      rw [List.length_cons]
      omega
    rw [List.cons_append, hnumber]
    cases hblank : line.all isWhiteSpace with
    | true => rw [parseRecords, parseRecords, if_pos hblank, if_pos hblank, ih]
    | false =>
      simp only [parseRecords_cons_eq_ok hblank, ih]
      constructor
      · rintro ⟨record, event, _, hrecord, hevent, ⟨before, behind, hbefore, hbehind, rfl⟩, rfl⟩
        exact ⟨_, behind, ⟨record, event, before, hrecord, hevent, hbefore, rfl⟩, hbehind, rfl⟩
      · rintro ⟨_, behind, ⟨record, event, before, hrecord, hevent, hbefore, rfl⟩, hbehind, rfl⟩
        exact ⟨record, event, _, hrecord, hevent, ⟨before, behind, hbefore, hbehind, rfl⟩, rfl⟩

/-- Behind the last line break there is nothing but white space, so that a line written behind the
file stands alone. -/
def Ended (file : List Char) : Prop :=
  ∀ c ∈ JsonLines.openEnd file, Json.isSpace c = true

instance decidableEnded (file : List Char) : Decidable (Ended file) :=
  inferInstanceAs (Decidable (∀ c ∈ _, _))

theorem ended_appendLine (file : Option (List Char)) (value : Json) :
    Ended (appendLine file value) := by
  have hopen : JsonLines.openEnd (appendLine file value) = [] := by
    rw [appendLine, ← List.append_assoc]
    exact JsonLines.openEnd_append_newline _
  rw [Ended, hopen]
  exact fun c hc => nomatch hc

private theorem isWhiteSpace_of_isSpace {c : Char} (h : Json.isSpace c = true) :
    isWhiteSpace c = true := by
  simp only [Json.isSpace, Bool.or_eq_true, beq_iff_eq] at h
  rcases h with ((rfl | rfl) | rfl) | rfl <;> rfl

/-- The text of an object is not blank, whatever stands in front of it. -/
private theorem all_isWhiteSpace_append_object (text : List Char)
    (members : List (String × Json)) :
    (text ++ (Json.object members).write).all isWhiteSpace = false := by
  rw [List.all_append, Json.write_object, List.all_cons, show isWhiteSpace '{' = false from rfl,
    Bool.false_and, Bool.and_false]

variable (hreads : ReadsFallbackRecords fromStr)

include hreads

/-- The line of an event is read as its record. -/
theorem fromStr_fallbackJson {e : AuditEvent} (h : e.Storable) (status : DeliveryStatus)
    (occurredAt : String) : fromStr (fallbackJson e status occurredAt).write =
      some (LocalAuditFallbackRecord.ofEvent status occurredAt e) :=
  hreads.written e.metadataJson.normal h.exact_numbers h.depth

/-- No event of a file is nested too deeply. -/
theorem depth_of_parseRecords {lines : List (List Char)} {log : List ParsedFallbackRecord}
    (h : parseRecords fromStr lineNumber lines = .ok log) :
    ∀ r ∈ log, r.event.metadataJson.asValue.depth < serdeMaxDepth := by
  induction lines generalizing lineNumber log with
  | nil =>
    cases h
    exact List.forall_mem_nil _
  | cons line lines ih =>
    cases hblank : line.all isWhiteSpace with
    | true =>
      rw [parseRecords, if_pos hblank] at h
      exact ih h
    | false =>
      obtain ⟨record, event, rest, hrecord, hevent, hrest, rfl⟩ :=
        (parseRecords_cons_eq_ok hblank).mp h
      refine List.forall_mem_cons.mpr ⟨?_, ih hrest⟩
      rw [AuditMetadata.asValue_of_new (LocalAuditFallbackRecord.metadata_of_toEvent hevent)]
      exact (Json.depth_normalize_le _).trans_lt (hreads.nesting hrecord)

/-- **A line behind an ended file is one more record.** -/
theorem parse_appendLine {file : List Char} {log : List ParsedFallbackRecord}
    (hparse : parseExistingFallbackRecords fromStr file = .ok log) (hended : Ended file)
    {e : AuditEvent} (he : e.Storable) (status : DeliveryStatus) (occurredAt : String) :
    parseExistingFallbackRecords fromStr
      (appendLine (some file) (fallbackJson e status occurredAt)) =
        .ok (log ++ [.ofEvent status occurredAt e]) := by
  obtain ⟨ended, hlines, happend⟩ := JsonLines.exists_ended_lines file
  have hwrite : (fallbackJson e status occurredAt).write ≠ [] := by
    rw [fallbackJson, LocalAuditFallbackRecord.toJson, Json.write_object]
    exact List.cons_ne_nil _ _
  rw [parseExistingFallbackRecords, hlines, parseRecords_append_eq_ok] at hparse
  obtain ⟨before, behind, hbefore, hbehind, rfl⟩ := hparse
  -- what is left open is blank and was skipped
  obtain rfl : [] = behind := by
    have hblank : (JsonLines.openEnd file).all isWhiteSpace = true :=
      List.all_eq_true.mpr fun c hc => isWhiteSpace_of_isSpace (hended c hc)
    split_ifs at hbehind
    · exact Except.ok.inj hbehind
    · rw [parseRecords, if_pos hblank] at hbehind
      exact Except.ok.inj hbehind
  rw [parseExistingFallbackRecords, appendLine, Option.getD_some,
    happend _ [] hwrite (Json.isPrintable_write _), parseRecords_append_eq_ok]
  refine ⟨before, _, hbefore, (parseRecords_cons_eq_ok
    (all_isWhiteSpace_append_object _ _)).mpr ⟨_, e, [], ?_,
      LocalAuditFallbackRecord.toEvent_ofEvent status occurredAt e _, rfl, rfl⟩, by
        rw [List.append_nil]; rfl⟩
  rw [hreads.spaces _ hended]
  exact fromStr_fallbackJson hreads he status occurredAt

/-- **A line behind anything else makes the file unreadable.** -/
theorem parse_append_of_not_ended {file : List Char} {log : List ParsedFallbackRecord}
    (hparse : parseExistingFallbackRecords fromStr file = .ok log) (hended : ¬ Ended file)
    (members : List (String × Json)) (rest : List Char) (log' : List ParsedFallbackRecord) :
    parseExistingFallbackRecords fromStr (file ++ ((Json.object members).write ++ '\n' :: rest)) ≠
      .ok log' := by
  obtain ⟨ended, hlines, happend⟩ := JsonLines.exists_ended_lines file
  have hwrite := Json.write_object members
  intro h
  rw [parseExistingFallbackRecords, happend _ rest (by rw [hwrite]; exact List.cons_ne_nil _ _)
    (Json.isPrintable_write _), parseRecords_append_eq_ok] at h
  obtain ⟨_, _, -, hline, -⟩ := h
  obtain ⟨record, _, _, hrecord, -⟩ :=
    (parseRecords_cons_eq_ok (all_isWhiteSpace_append_object _ _)).mp hline
  have hframed := hreads.framed hrecord
  rw [hwrite] at hframed
  -- the last line was read before: it was blank, or it was a record
  obtain ⟨c, hc, hspace⟩ : ∃ c ∈ JsonLines.openEnd file, ¬ Json.isSpace c = true := by
    simpa only [Ended, not_forall, exists_prop] using hended
  rw [parseExistingFallbackRecords, hlines, if_neg (List.ne_nil_of_mem hc),
    parseRecords_append_eq_ok] at hparse
  obtain ⟨_, _, -, htail, -⟩ := hparse
  cases hblank : (JsonLines.openEnd file).all isWhiteSpace with
  | true =>
    have hopening : ∀ c ∈ JsonLines.openEnd file, Json.isOpening c = false := by
      intro d hd
      have hwhite : isWhiteSpace d = true := List.all_eq_true.mp hblank d hd
      simp only [Json.isOpening, Bool.or_eq_false_iff, beq_eq_false_iff_ne]
      constructor <;> rintro rfl <;> exact absurd hwhite (by decide)
    exact hspace (Json.isSpace_of_framed_append hframed hopening c hc)
  | false =>
    obtain ⟨last, _, _, hlast, -⟩ := (parseRecords_cons_eq_ok hblank).mp htail
    have hbrace :=
      Json.isSpace_of_framed_prefix (hreads.framed hlast) hframed '{' List.mem_cons_self
    exact absurd hbrace (by decide)

end

end LocalAuditFallbackStore

/-! ### A reader of compact lines -/

namespace LocalAuditFallbackRecord

/-- The derived `Deserialize`, on an object. -/
def fromValue? : Json → Option LocalAuditFallbackRecord
  | .object object => do
    let auditEventId ← textField object "audit_event_id"
    let requestId ← textField object "request_id"
    let actorUserId ← optionalField Json.asStr object "actor_user_id"
    let actorDeviceId ← optionalField Json.asStr object "actor_device_id"
    let action ← textField object "action"
    let targetSecretId ← optionalField Json.asStr object "target_secret_id"
    let result ← textField object "result"
    let keyVersion ← optionalField Json.asU32 object "key_version"
    let metadataJson ← SortedMap.get? object "metadata_json"
    let occurredAt ← optionalField Json.asStr object "occurred_at"
    let deliveryStatus ← (textField object "delivery_status").bind DeliveryStatus.parse?
    pure { auditEventId, requestId, actorUserId, actorDeviceId, action, targetSecretId, result,
           keyVersion, metadataJson, occurredAt, deliveryStatus }
  | _ => none

/-- Reads the lines that have no white space between their tokens, as the store writes them. -/
def compactFromStr (line : List Char) : Option LocalAuditFallbackRecord := do
  let value ← Json.parse serdeMaxDepth (line.dropWhile Json.isSpace)
  fromValue? value.normalize

variable {r : LocalAuditFallbackRecord}

/-- **The fields of a record are read back.** -/
theorem fromValue?_toJson (r : LocalAuditFallbackRecord) : fromValue? r.toJson = some r := by
  have hstatus : (textField r.members "delivery_status").bind DeliveryStatus.parse? =
      some r.deliveryStatus := by
    have hfield : textField r.members "delivery_status" = some r.deliveryStatus.asStr :=
      textField_eq rfl
    rw [hfield]
    exact DeliveryStatus.parse?_asStr _
  -- the members are in key order, and the lookup of each one reduces
  have hmetadata : SortedMap.get? r.members "metadata_json" = some r.metadataJson := rfl
  have hauditEventId : textField r.members "audit_event_id" = some r.auditEventId :=
    textField_eq rfl
  have hrequestId : textField r.members "request_id" = some r.requestId := textField_eq rfl
  have haction : textField r.members "action" = some r.action := textField_eq rfl
  have hresult : textField r.members "result" = some r.result := textField_eq rfl
  have hactorUserId : optionalField Json.asStr r.members "actor_user_id" = some r.actorUserId :=
    optionalField_text rfl
  have hactorDeviceId : optionalField Json.asStr r.members "actor_device_id" =
      some r.actorDeviceId := optionalField_text rfl
  have htargetSecretId : optionalField Json.asStr r.members "target_secret_id" =
      some r.targetSecretId := optionalField_text rfl
  have hkeyVersion : optionalField Json.asU32 r.members "key_version" = some r.keyVersion :=
    optionalField_u32 rfl
  have hoccurredAt : optionalField Json.asStr r.members "occurred_at" = some r.occurredAt :=
    optionalField_text rfl
  rw [toJson, fromValue?]
  simp only [hauditEventId, hrequestId, hactorUserId, hactorDeviceId, haction, htargetSecretId,
    hresult, hkeyVersion, hmetadata, hoccurredAt, hstatus, Option.bind_eq_bind, Option.bind_some,
    Option.pure_def]

/-- The metadata is nested inside the record. -/
private theorem depth_metadataJson_lt {v : Json} (h : fromValue? v = some r) :
    r.metadataJson.depth < v.depth := by
  unfold fromValue? at h
  split at h
  · simp only [Option.bind_eq_bind, Option.bind_eq_some_iff, Option.pure_def] at h
    obtain ⟨_, -, _, -, _, -, _, -, _, -, _, -, _, -, _, -, metadata, hmetadata, _, -, _, -,
      heq⟩ := h
    obtain rfl := Option.some.inj heq
    obtain ⟨entry, hfind, rfl⟩ := Option.map_eq_some_iff.mp hmetadata
    exact Nat.lt_succ_of_le (Json.depth_le_depthMembers (List.mem_of_find?_eq_some hfind))
  · cases h

private theorem depthMembers_members_le (r : LocalAuditFallbackRecord) :
    Json.depthMembers r.members ≤ r.metadataJson.depth := by
  refine Json.depthMembers_le ?_
  simp [members, Json.depth]

/-- The members are written in the order of their keys. -/
theorem normalize_toJson (h : r.metadataJson.normalize = r.metadataJson) :
    r.toJson.normalize = r.toJson := by
  have hnormal : Json.normalizeMembers r.members = r.members := by
    refine Json.normalizeMembers_of_normal ?_
    simp [members, Json.normalize, h]
  have hkeys : (r.members.map Prod.fst).Pairwise (· < ·) :=
    show ["action", "actor_device_id", "actor_user_id", "audit_event_id", "delivery_status",
      "key_version", "metadata_json", "occurred_at", "request_id", "result",
      "target_secret_id"].Pairwise (· < ·) by decide +kernel
  rw [toJson, Json.normalize, hnormal, SortedMap.ofList_eq_self (List.pairwise_map.mp hkeys)]

/-- The reader of compact lines is one the store can work with. -/
theorem readsFallbackRecords_compactFromStr : ReadsFallbackRecords compactFromStr where
  framed {line r} h := by
    simp only [compactFromStr, Option.bind_eq_bind, Option.bind_eq_some_iff] at h
    obtain ⟨v, hparse, hvalue⟩ := h
    -- a record is an object, so the text is closed by its brace
    have hdepth : v.depth ≠ 0 := by
      cases v <;> first | exact Nat.succ_ne_zero _ | cases hvalue
    have hspaces : ∀ c ∈ line.takeWhile Json.isSpace, Json.isSpace c = true :=
      fun c hc => List.mem_takeWhile_imp hc
    rw [← List.takeWhile_append_dropWhile (p := Json.isSpace) (l := line),
      Json.framed_spaces_append hspaces]
    exact Json.framed_of_parse hparse hdepth
  nesting {line r} h := by
    simp only [compactFromStr, Option.bind_eq_bind, Option.bind_eq_some_iff] at h
    obtain ⟨v, hparse, hvalue⟩ := h
    have hlimit : v.normalize.depth ≤ serdeMaxDepth :=
      (Json.depth_normalize_le v).trans (Json.depth_le_of_parse hparse)
    refine lt_of_lt_of_le ?_ hlimit
    exact depth_metadataJson_lt hvalue
  spaces line hspaces := by
    rw [compactFromStr, List.dropWhile_append_of_pos hspaces]
    rfl
  written {r} hnormal _ hdepth := by
    have hmembers : r.toJson.depth ≤ serdeMaxDepth :=
      (Nat.succ_le_succ (depthMembers_members_le r)).trans hdepth
    have hstart : (r.toJson.write).dropWhile Json.isSpace = r.toJson.write := by
      rw [toJson, Json.write_object]
      rfl
    rw [compactFromStr, hstart, Json.parse_write hmembers]
    rw [Option.bind_eq_bind, Option.bind_some, normalize_toJson hnormal]
    exact fromValue?_toJson r

end LocalAuditFallbackRecord

/-! ### A file with two events -/

/-- A failed authentication, told apart by the last byte of its identifier. -/
def sampleAuditEvent (last : UInt8) : AuditEvent where
  auditEventId := ⟨⟨List.replicate 15 0 ++ [last], rfl⟩⟩
  requestId := ⟨⟨List.replicate 16 0, rfl⟩⟩
  actorUserId := none
  actorDeviceId := none
  action := .authFailure
  targetSecretId := none
  result := .failure
  keyVersion := none
  metadataJson :=
    { object := [("error_code", .string "jwt_expired"),
        ("source_event_at", .string "2026-01-01T00:00:00Z")]
      normal := by decide +kernel
      valid := rfl }
  valid := rfl

theorem storable_sampleAuditEvent (last : UInt8) : (sampleAuditEvent last).Storable :=
  ⟨of_decide_eq_true rfl, rfl⟩

/-- The file after both events were written as pending. -/
def sampleFallbackFile : List Char :=
  LocalAuditFallbackStore.appendLine
    (some (LocalAuditFallbackStore.appendLine none
      (fallbackJson (sampleAuditEvent 1) .pending "2026-01-01T00:00:01Z")))
    (fallbackJson (sampleAuditEvent 2) .pending "2026-01-01T00:00:02Z")

open LocalAuditFallbackStore in
theorem pendingEvents_sampleFallbackFile :
    LocalAuditFallbackStore.pendingEvents LocalAuditFallbackRecord.compactFromStr
      (some sampleFallbackFile) = .ok [sampleAuditEvent 1, sampleAuditEvent 2] := by
  have hreads := LocalAuditFallbackRecord.readsFallbackRecords_compactFromStr
  have hempty : Ended [] := fun c hc => nomatch hc
  have hstart : parseExistingFallbackRecords LocalAuditFallbackRecord.compactFromStr [] = .ok [] :=
    rfl
  have hfirst := parse_appendLine hreads hstart hempty
    (storable_sampleAuditEvent 1) .pending "2026-01-01T00:00:01Z"
  have hsecond := parse_appendLine hreads hfirst (ended_appendLine _ _)
    (storable_sampleAuditEvent 2) .pending "2026-01-01T00:00:02Z"
  refine (pendingEvents_eq_ok _).mpr (.inr ⟨_, _, rfl, hsecond, ?_⟩)
  rfl

end Mipsorcu
