import Mipsorcu.Siem.Event

/-!
# The buffer of events that could not be sent

`LocalSiemFallbackBuffer` appends the events that the sink did not take to a local file, and appends
them again once a later attempt succeeds. It returns the events whose last record is pending
(`pendingEvents_render`), with all their fields, as long as no event is nested more deeply than the
file can be read and their numbers are integers.
-/

namespace Mipsorcu

/-- `LocalSiemBufferError`. -/
inductive LocalSiemBufferError where
  | io
  | serialization
  | lockPoisoned
  deriving DecidableEq

/-! ### Records -/

/-- A record of the buffer; the event is kept as a value. -/
structure LocalSiemFallbackRecord where
  eventId : String
  status : DeliveryStatus
  event : Json
  normal : event.normalize = event

namespace LocalSiemFallbackRecord

/-- A line of the buffer. -/
def format : RecordFormat LocalSiemFallbackRecord where
  members r :=
    [("event_id", .string r.eventId), ("status", .string r.status.asStr), ("event", r.event)]
  read?
    | .object object => do
      let eventId ← textField object "event_id"
      let status ← (textField object "status").bind DeliveryStatus.parse?
      let event ← SortedMap.get? object "event"
      pure { eventId, status, event := event.normalize, normal := Json.normalize_normalize event }
    | _ => none

/-- A record can be read back unless its event is nested too deeply. -/
theorem readable {r : LocalSiemFallbackRecord} (hdepth : r.event.depth < serdeMaxDepth) :
    format.Readable serdeMaxDepth r where
  depth := by
    have hmembers : Json.depthMembers (format.members r) ≤ r.event.depth :=
      Json.depthMembers_le (by simp [format, Json.depth])
    exact (Nat.succ_le_succ hmembers).trans hdepth
  read := by
    have hnormal : Json.normalizeMembers (format.members r) = format.members r :=
      Json.normalizeMembers_of_normal (by simp [format, Json.normalize, r.normal])
    have hkeys : ((format.members r).map Prod.fst).Nodup :=
      show ["event_id", "status", "event"].Nodup by decide +kernel
    have hfield : ∀ key value, SortedMap.get? (format.members r) key = some value →
        SortedMap.get? (SortedMap.ofList (format.members r)) key = some value :=
      fun key value h => (SortedMap.get?_ofList hkeys key).trans h
    have heventId := textField_eq (hfield "event_id" (.string r.eventId) rfl)
    have hstatus := textField_eq (hfield "status" (.string r.status.asStr) rfl)
    have hevent := hfield "event" r.event rfl
    rw [RecordFormat.toJson, Json.normalize, hnormal]
    simp only [format] at heventId hstatus hevent ⊢
    simp [heventId, hstatus, hevent, r.normal]

/-- The record of an event. -/
def ofEvent (status : DeliveryStatus) (e : SiemEvent) : LocalSiemFallbackRecord where
  eventId := e.eventId
  status := status
  event := e.toValue
  normal := e.normalize_toValue

theorem ofEvent_inj {status status' : DeliveryStatus} {e e' : SiemEvent}
    (h : ofEvent status e = ofEvent status' e') : status = status' ∧ e = e' := by
  have hvalue : e.toValue = e'.toValue := congrArg LocalSiemFallbackRecord.event h
  refine ⟨congrArg LocalSiemFallbackRecord.status h, Option.some.inj ?_⟩
  rw [← e.fromValue?_toValue, hvalue, e'.fromValue?_toValue]

/-- The record is one of an event of the set. -/
def IsOf (events : Set SiemEvent) (r : LocalSiemFallbackRecord) : Prop :=
  ∃ status, ∃ e ∈ events, r = ofEvent status e

end LocalSiemFallbackRecord

/-! ### Pending events -/

open LocalSiemFallbackRecord in
/-- `pending_events`, on the text of the file. -/
def pendingEvents (file : List Char) : Except LocalSiemBufferError (List SiemEvent) := do
  let records ← readLogFile format .serialization file
  Result.traverse (fun r => Result.ofOption .serialization (SiemEvent.fromValue? r.event))
    (ReplayLog.pending eventId (fun r => r.status == .pending) records)

/-- The events that come back from a file as they were: reading descends into the record and into
the event before it comes to the metadata, and it may change a floating point number. -/
def SiemEvent.Storable (e : SiemEvent) : Prop :=
  e.metadata.depth + 2 ≤ serdeMaxDepth ∧ e.metadata.isExact = true

instance (e : SiemEvent) : Decidable e.Storable :=
  inferInstanceAs (Decidable (_ ∧ _))

/-- The last record of the identifier of the event says that the event is pending. -/
def IsPendingIn (log : List LocalSiemFallbackRecord) (e : SiemEvent) : Prop :=
  ReplayLog.last? LocalSiemFallbackRecord.eventId log e.eventId = some (.ofEvent .pending e)

section

open LocalSiemFallbackRecord

variable {events : Set SiemEvent} {log : List LocalSiemFallbackRecord}

/-- **The buffer returns the pending events**, with all their fields. -/
theorem pendingEvents_render (hstorable : ∀ e ∈ events, e.Storable)
    (h : ∀ r ∈ log, r.IsOf events) :
    ∃ pending, pendingEvents (format.render log) = .ok pending ∧
      ∀ e, e ∈ pending ↔ IsPendingIn log e := by
  -- an event is stored one level deeper than it is nested itself
  have hread : readLogFile format LocalSiemBufferError.serialization (format.render log) =
      .ok log := by
    refine readLogFile_render _ fun r hr => ?_
    obtain ⟨status, e, he, rfl⟩ := h r hr
    exact readable ((Nat.lt_succ_of_le e.depth_toValue).trans_le (hstorable e he).1)
  have hpending : ∀ r, r ∈ ReplayLog.pending eventId (fun r => r.status == .pending) log ↔
      r.status = .pending ∧ ReplayLog.last? eventId log r.eventId = some r := fun r => by
    rw [ReplayLog.mem_pending, beq_iff_eq]
  have hvalue : ∀ status e, Result.ofOption LocalSiemBufferError.serialization
      (SiemEvent.fromValue? (ofEvent status e).event) = .ok e := fun status e =>
    congrArg (Result.ofOption _) e.fromValue?_toValue
  obtain ⟨pending, htraverse⟩ : ∃ pending, Result.traverse
      (fun r => Result.ofOption LocalSiemBufferError.serialization (SiemEvent.fromValue? r.event))
      (ReplayLog.pending eventId (fun r => r.status == .pending) log) = .ok pending := by
    refine Result.exists_traverse fun r hr => ?_
    obtain ⟨status, e, -, rfl⟩ := h r (ReplayLog.mem_of_last? ((hpending r).mp hr).2)
    exact ⟨e, hvalue status e⟩
  refine ⟨pending, ?_, fun e => ?_⟩
  · rw [pendingEvents, hread, Result.ok_bind, htraverse]
  · rw [Result.mem_traverse htraverse]
    constructor
    · rintro ⟨r, hr, hfrom⟩
      obtain ⟨hstatus, hlast⟩ := (hpending r).mp hr
      obtain ⟨status, e', -, rfl⟩ := h r (ReplayLog.mem_of_last? hlast)
      rw [hvalue] at hfrom
      obtain rfl := Except.ok.inj hfrom
      obtain rfl : status = .pending := hstatus
      exact hlast
    · intro hlast
      exact ⟨ofEvent .pending e, (hpending _).mpr ⟨rfl, hlast⟩, hvalue _ e⟩

/-- A record of another identifier leaves an event as it is. -/
theorem isPendingIn_concat {r : LocalSiemFallbackRecord} {e : SiemEvent} :
    IsPendingIn (log ++ [r]) e ↔
      if r.eventId = e.eventId then r = ofEvent .pending e else IsPendingIn log e := by
  rw [IsPendingIn, ReplayLog.last?_concat]
  split_ifs
  · exact Option.some_inj
  · exact Iff.rfl

theorem isPendingIn_concat_self (log : List LocalSiemFallbackRecord) (e : SiemEvent) :
    IsPendingIn (log ++ [ofEvent .pending e]) e := by
  rw [IsPendingIn, ReplayLog.last?_concat]
  exact if_pos rfl

/-- An event that was buffered is pending, or it was recorded as sent. -/
theorem isPendingIn_or_sent (hinj : Set.InjOn SiemEvent.eventId events)
    (h : ∀ r ∈ log, r.IsOf events) {status : DeliveryStatus} {e : SiemEvent}
    (hmem : ofEvent status e ∈ log) : IsPendingIn log e ∨ ofEvent .sent e ∈ log := by
  obtain ⟨last, hlast⟩ : ∃ last, ReplayLog.last? eventId log e.eventId = some last :=
    ReplayLog.exists_last? hmem
  have hmemLast := ReplayLog.mem_of_last? hlast
  obtain ⟨status', e', he', rfl⟩ := h last hmemLast
  obtain ⟨_, e'', he'', heq⟩ := h _ hmem
  obtain ⟨-, rfl⟩ := ofEvent_inj heq
  -- events of one identifier are equal
  have hid : (ofEvent status' e').eventId = e.eventId := ReplayLog.key_of_last? hlast
  obtain rfl := hinj he' he'' hid
  cases status' with
  | pending => exact .inl hlast
  | sent => exact .inr hmemLast

end

end Mipsorcu
