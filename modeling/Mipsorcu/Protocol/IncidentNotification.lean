import Mipsorcu.Foundation.Tasks
import Mipsorcu.Incident.Recorder
import Mipsorcu.Protocol.SecretStore

/-!
# Notifications of incidents

`IncidentRecorder::record` asks the database whether an incident of the kind was seen recently,
notifies the sink if not, and then records the incident with the result of the notification. The
three are separate: between them other calls act, and a remote call may fail with or without effect.

So the check keeps a call from notifying once an incident of its window is stored
(`RecordState.notification_eq_none`), and the database records one of the calls of a window only
(`RecordState.Accounted`), but two calls that check before either is recorded both notify.
-/

namespace Mipsorcu

open Sql

/-! ### Calls -/

/-- A call of `record`, with the time and the identifiers it generates. -/
structure IncidentCall where
  appender : LedgerAppender
  sinkName : String
  input : IncidentRecordInput
  sourceEventAt : SourceEventAt
  ids : IncidentIds

/-- `IncidentRecordResult`. -/
structure IncidentRecordResult where
  auditEventId : Option AuditEventId
  notificationResult : NotificationResult
  suppressed : Bool

/-- Where a call stands. Once the sink is notified, `result` is what came of it. -/
inductive RecordPhase where
  | called
  /-- No recent incident was found. -/
  | notifying
  | notified (result : NotificationResult)
  | signing (result : NotificationResult) (event : AuditEvent) (draft : LedgerAppendDraft)
      (retryIndex : ℕ)
  | recording (result : NotificationResult) (event : AuditEvent) (draft : LedgerAppendDraft)
      (retryIndex : ℕ) (entry : SignedLedgerEntry)
  | returned (notification : Option NotificationResult)
      (result : Except IncidentRecordError IncidentRecordResult)

/-- What came of the notification, if the sink was notified. -/
def RecordPhase.notification : RecordPhase → Option NotificationResult
  | .called => none
  | .notifying => none
  | .notified result => some result
  | .signing result _ _ _ => some result
  | .recording result _ _ _ _ => some result
  | .returned notification _ => notification

/-- A call and where it stands. -/
structure RecordTask where
  call : IncidentCall
  phase : RecordPhase

/-- What can happen to a call. -/
inductive RecordAction where
  /-- It goes on; a remote call is answered. -/
  | proceed
  /-- The clock or the generator of identifiers fails. -/
  | fail
  /-- A remote call is not answered; it may have been executed. -/
  | unreachable (executed : Bool)
  | notify (sent : Bool)
  /-- Another transaction is committed: `more` are the events it appends. -/
  | others (db : SecretDb) (more : List AuditEventRow)

namespace IncidentCall

variable (P : Primitives) (pg : PostgresSession)

/-- What the check leads to. -/
def afterCheck : Except SupabaseRpcError Bool → RecordPhase
  | .ok true => .returned none (.ok ⟨none, .suppressed, true⟩)
  | .ok false => .notifying
  | .error error => .returned none (.error (.supabase error))

/-- The event and the draft are built. -/
def prepare (c : IncidentCall) (result : NotificationResult) : RecordPhase :=
  match prepareIncident c.input c.sourceEventAt c.sinkName result c.ids with
  | .ok (event, draft) => .signing result event draft 0
  | .error error => .returned (some result) (.error error)

/-- `sign_entries` for the one draft. -/
def sign (c : IncidentCall) (result : NotificationResult) (event : AuditEvent)
    (draft : LedgerAppendDraft) (retryIndex : ℕ)
    (response : Except SupabaseRpcError LedgerChainHead) : RecordPhase :=
  let signed := do
    let head ← LedgerAppender.fetchChainHead response 1
    c.appender.signEntriesFromHead P [draft] head
  match signed with
  | .ok (entry :: _) => .recording result event draft retryIndex entry
  | .ok [] => .returned (some result)
      (.error (.ledgerSignFailed (.invalidEntry "incident_ledger_sign_empty")))
  | .error error => .returned (some result) (.error (.ledgerSignFailed error))

/-- What the answer of `record_incident` leads to. The loop is left through a return, as the last
retry index is never retried. -/
def afterRecord (result : NotificationResult) (event : AuditEvent) (draft : LedgerAppendDraft)
    (retryIndex : ℕ) : Except SupabaseRpcError IncidentRecordOutcome → RecordPhase
  | .ok outcome => .returned (some result)
      (.ok ⟨some outcome.auditEventId, result, outcome.suppressed⟩)
  | .error error =>
    if isRetryableIncidentRecordError error && decide (retryIndex < maxRecordRetries) then
      .signing result event draft (retryIndex + 1)
    else .returned (some result) (.error (.supabase error))

/-- The call goes on. -/
def proceed (c : IncidentCall) (db : SecretDb) : RecordPhase → Option (SecretDb × RecordPhase)
  | .called => some (db, afterCheck (callIncidentRecentlySeen db c.input c.sourceEventAt))
  | .notified result => some (db, c.prepare result)
  | .signing result event draft k =>
    some (db, c.sign P result event draft k (fetchLedgerChainHead db.ledger))
  | .recording result event draft k entry =>
    let answer := callRecordIncident pg db c.input event entry result
    some (answer.1, afterRecord result event draft k answer.2)
  | _ => none

/-- A remote call is not answered. -/
def unreachable (c : IncidentCall) (db : SecretDb) (executed : Bool) :
    RecordPhase → Option (SecretDb × RecordPhase)
  | .called => some (db, afterCheck (.error .network))
  | .signing result event draft k => some (db, c.sign P result event draft k (.error .network))
  | .recording result event draft k entry =>
    some (if executed then (callRecordIncident pg db c.input event entry result).1 else db,
      afterRecord result event draft k (.error .network))
  | _ => none

end IncidentCall

/-- One step of a call, or of the transactions next to it. They never delete an event, and never use
an identifier that a call generates. -/
def RecordTask.act (P : Primitives) (pg : PostgresSession) (isReserved : Uuid → Bool)
    (db : SecretDb) (task : RecordTask) : RecordAction → Option (SecretDb × RecordTask)
  | .proceed => (task.call.proceed P pg db task.phase).map fun next => (next.1, ⟨task.call, next.2⟩)
  | .unreachable executed => (task.call.unreachable P pg db executed task.phase).map
      fun next => (next.1, ⟨task.call, next.2⟩)
  | .fail => match task.phase with
    | .called => some (db, ⟨task.call, .returned none (.error .sourceEventAtUnavailable)⟩)
    | .notified result =>
      some (db, ⟨task.call, .returned (some result) (.error .idGenerationFailed)⟩)
    | _ => none
  | .notify sent => match task.phase with
    | .notifying => some (db, ⟨task.call, .notified (if sent then .sent else .failed)⟩)
    | _ => none
  -- anything else may change in the database, the audit only grows
  | .others db' more =>
    if more.all fun e => !isReserved e.id then
      some ({ db' with auditEvents := db.auditEvents ++ more }, task)
    else none

/-! ### What one call does -/

namespace IncidentCall

variable {P : Primitives} {pg : PostgresSession} {c : IncidentCall} {db db' : SecretDb}
  {r : NotificationResult}

/-- The identifier of the event. -/
def eventId (c : IncidentCall) : Uuid :=
  c.ids.auditEventId.uuid

/-- A stored incident of the kind of the call, in the window before it. -/
def isRecent (c : IncidentCall) (e : AuditEventRow) : Bool :=
  isRecentIncident c.input.incidentType.asStr c.input.dedupeKey c.sourceEventAt.text
    c.input.dedupeWindowSeconds e

/-- The incident that the call records after a notification. -/
structure Reports (c : IncidentCall) (r : NotificationResult) (i : Incident) : Prop where
  auditEventId : i.auditEventId = c.eventId
  incidentType : i.incidentType = c.input.incidentType.asStr
  dedupeKey : i.dedupeKey = c.input.dedupeKey
  notificationResult : i.notificationResult = r.asStr
  sourceEventAt : i.sourceEventAt = c.sourceEventAt.text
  dedupeWindowSeconds : i.dedupeWindowSeconds = c.input.dedupeWindowSeconds

theorem Reports.suppressesIncident_eq {i : Incident} (h : c.Reports r i) (e : AuditEventRow) :
    suppressesIncident i e = (e.id != c.eventId && c.isRecent e) := by
  rw [suppressesIncident, h.auditEventId, h.incidentType, h.dedupeKey, h.sourceEventAt,
    h.dedupeWindowSeconds, isRecent]

variable {event : AuditEvent} {entry : SignedLedgerEntry}

theorem reports_of_args {args : RecordIncidentArgs} {i : Incident}
    (hevent : event.auditEventId = c.ids.auditEventId)
    (hentry : entry.sourceEventAt = c.sourceEventAt)
    (hargs : recordIncidentArgs c.input event entry r = some args) (hi : args.incident? = some i) :
    c.Reports r i := by
  simp only [recordIncidentArgs, Option.bind_eq_bind, Option.bind_eq_some_iff, Option.pure_def,
    LedgerEntryRpcParams.castInteger_eq_some] at hargs
  obtain ⟨window, ⟨-, rfl⟩, hargs⟩ := hargs
  have hid := congrArg AuditEventId.uuid hevent
  have htime := congrArg SourceEventAt.text hentry
  split at hargs
  · obtain rfl := Option.some.inj hargs
    obtain rfl := Option.some.inj hi
    exact ⟨hid, rfl, rfl, rfl, htime, rfl⟩
  · obtain ⟨sequenceNo, -, hargs⟩ := Option.bind_eq_some_iff.mp hargs
    obtain rfl := Option.some.inj hargs
    obtain rfl := Option.some.inj hi
    exact ⟨hid, rfl, rfl, rfl, htime, rfl⟩

/-- What `record_incident` can do: leave the events alone, and then an answer says that a recent
incident suppresses this one; or append the event, as there is no recent one. -/
inductive RecordEffect (c : IncidentCall) (r : NotificationResult) (db db' : SecretDb)
    (answer : Except SupabaseRpcError IncidentRecordOutcome) : Prop
  | unchanged (hevents : db'.auditEvents = db.auditEvents)
      (hanswer : ∀ o, answer = .ok o → o.suppressed = true ∧
        ∃ e ∈ db.auditEvents, c.isRecent e = true)
  | appended (i : Incident) (hi : c.Reports r i)
      (hevents : db'.auditEvents = db.auditEvents ++ [incidentEvent i])
      (hrecent : ∀ e ∈ db.auditEvents, e.id ≠ c.eventId → c.isRecent e = false)
      (hanswer : ∀ o, answer = .ok o → o.suppressed = false)
      (hretry : ∀ error, answer = .error error → isRetryableIncidentRecordError error = false)

theorem suppressed_of_tryFrom {row : RecordIncidentRow} {o : IncidentRecordOutcome}
    (h : IncidentRecordOutcome.tryFrom row = .ok o) : o.suppressed = row.suppressed := by
  simp only [IncidentRecordOutcome.tryFrom, Result.bind_eq_ok, Result.pure_eq_ok] at h
  obtain ⟨id, -, _, -, rfl⟩ := h
  rfl

theorem not_isRetryable_of_tryFrom {row : RecordIncidentRow} {error : SupabaseRpcError}
    (h : IncidentRecordOutcome.tryFrom row = .error error) :
    isRetryableIncidentRecordError error = false := by
  have hid : AuditEventId.parse row.auditEventId.hyphenated = .ok ⟨row.auditEventId⟩ :=
    AuditEventId.parse_asCanonicalString ⟨row.auditEventId⟩
  simp only [IncidentRecordOutcome.tryFrom, hid, Result.mapError_ok, Result.ok_bind] at h
  cases hrow : row.suppressed || row.ledgerEntryId.isSome with
  | false =>
    rw [hrow] at h
    cases h
    rfl
  | true =>
    rw [hrow] at h
    cases h

/-- What a call of the procedure can do. -/
theorem recordEffect_callRecordIncident (hevent : event.auditEventId = c.ids.auditEventId)
    (hentry : entry.sourceEventAt = c.sourceEventAt)
    (hnew : ∀ e ∈ db.auditEvents, e.id ≠ c.eventId) :
    c.RecordEffect r db (callRecordIncident pg db c.input event entry r).1
      (callRecordIncident pg db c.input event entry r).2 := by
  unfold callRecordIncident
  split
  · exact .unchanged rfl (by rintro o ⟨⟩)
  · rename_i args hargs
    split
    · exact .unchanged rfl (by rintro o ⟨⟩)
    · rename_i db' row hcall
      obtain ⟨i, hi, ⟨hsuppressed, rfl, e, he, hrecent⟩ |
        ⟨hsuppressed, hnone, recorded, entryRow, happend, -, hdb⟩⟩ := rpcRecordIncident_eq_ok hcall
      · have hreports := reports_of_args hevent hentry hargs hi
        rw [hreports.suppressesIncident_eq, Bool.and_eq_true] at hrecent
        exact .unchanged rfl fun o ho =>
          ⟨(suppressed_of_tryFrom ho).trans hsuppressed, e, he, hrecent.2⟩
      · have hreports := reports_of_args hevent hentry hargs hi
        obtain ⟨-, ⟨-, stored, hstored, hid⟩ | ⟨-, -, rfl⟩⟩ := appendAuditEvent_eq_ok happend
        · exact absurd (hid.trans hreports.auditEventId) (hnew stored hstored)
        · refine .appended i hreports (congrArg SecretDb.auditEvents hdb) (fun e he hne => ?_)
            (fun o ho => (suppressed_of_tryFrom ho).trans hsuppressed)
            fun error herror => not_isRetryable_of_tryFrom herror
          have hfree := hnone e he
          rw [hreports.suppressesIncident_eq] at hfree
          simpa [hne] using hfree

/-! ### What is kept -/

/-- What is known of a call in a phase. Before it returns, its event is not stored. -/
def PhaseOk (c : IncidentCall) (db : SecretDb) : RecordPhase → Prop
  | .called => ∀ e ∈ db.auditEvents, e.id ≠ c.eventId
  | .notifying => ∀ e ∈ db.auditEvents, e.id ≠ c.eventId
  | .notified _ => ∀ e ∈ db.auditEvents, e.id ≠ c.eventId
  | .signing _ event draft _ => (∀ e ∈ db.auditEvents, e.id ≠ c.eventId) ∧
      event.auditEventId = c.ids.auditEventId ∧ draft.sourceEventAt = c.sourceEventAt
  | .recording _ event draft _ entry => (∀ e ∈ db.auditEvents, e.id ≠ c.eventId) ∧
      event.auditEventId = c.ids.auditEventId ∧ draft.sourceEventAt = c.sourceEventAt ∧
      entry.sourceEventAt = c.sourceEventAt
  | .returned notification result => ∀ o, result = .ok o →
      (o.suppressed = true → ∃ e ∈ db.auditEvents, c.isRecent e = true) ∧
      (o.suppressed = false → ∃ r i, notification = some r ∧ c.Reports r i ∧
        incidentEvent i ∈ db.auditEvents)

/-- The phase after the check is in order. -/
theorem phaseOk_afterCheck {answer : Except SupabaseRpcError Bool}
    (hnew : ∀ e ∈ db.auditEvents, e.id ≠ c.eventId)
    (hanswer : answer = .ok true → ∃ e ∈ db.auditEvents, c.isRecent e = true) :
    c.PhaseOk db (afterCheck answer) := by
  rcases answer with error | seen
  · rintro o ⟨⟩
  · cases seen with
    | false => exact hnew
    | true =>
      rintro o ⟨⟩
      exact ⟨fun _ => hanswer rfl, by rintro ⟨⟩⟩

/-- The check finds what it looks for. -/
theorem callIncidentRecentlySeen_eq_ok {seen : Bool}
    (h : callIncidentRecentlySeen db c.input c.sourceEventAt = .ok seen) :
    seen = db.auditEvents.any c.isRecent := by
  unfold callIncidentRecentlySeen at h
  split at h
  · cases h
  · rename_i window hwindow
    obtain ⟨-, rfl⟩ := LedgerEntryRpcParams.castInteger_eq_some.mp hwindow
    simp only [rpcIncidentRecentlySeen, Result.mapError_eq_ok, Result.ofOption_some,
      Result.ok_bind, Result.bind_eq_ok, Result.pure_eq_ok] at h
    obtain ⟨_, -, _, -, rfl⟩ := h
    rfl

/-- So is the phase after the notification. -/
theorem phaseOk_prepare (hnew : ∀ e ∈ db.auditEvents, e.id ≠ c.eventId) :
    c.PhaseOk db (c.prepare r) := by
  unfold prepare
  split
  · rename_i event draft hprepare
    simp only [prepareIncident, Result.bind_eq_ok, Result.mapError_eq_ok, Result.pure_eq_ok,
      AuditEvent.new_eq_ok, Prod.mk.injEq] at hprepare
    obtain ⟨metadata, -, event, hevent, payload, -, draft, hdraft, rfl, rfl⟩ := hprepare
    have hparts : draft.sourceEventAt = c.sourceEventAt := by
      unfold LedgerAppendDraft.new at hdraft
      split_ifs at hdraft
      cases hdraft
      rfl
    exact ⟨hnew, congrArg AuditEventParts.auditEventId hevent, hparts⟩
  · rintro o ⟨⟩

variable {draft : LedgerAppendDraft} {k : ℕ}

/-- So is the phase after the head was fetched. -/
theorem phaseOk_sign {response : Except SupabaseRpcError LedgerChainHead}
    (h : c.PhaseOk db (.signing r event draft k)) :
    c.PhaseOk db (c.sign P r event draft k response) := by
  obtain ⟨hnew, hevent, hdraft⟩ := h
  simp only [sign]
  split
  · rename_i entry rest hsigned
    simp only [Result.bind_eq_ok] at hsigned
    obtain ⟨head, -, hsigned⟩ := hsigned
    obtain ⟨hrecorded, -⟩ := LedgerAppender.signEntries_eq_ok hsigned
    obtain ⟨hentry, -⟩ := List.forall₂_cons.mp hrecorded
    exact ⟨hnew, hevent, hdraft,
      (congrArg LedgerAppendDraftParts.sourceEventAt hentry).trans hdraft⟩
  · rintro o ⟨⟩
  · rintro o ⟨⟩

/-- So is the phase after the answer of the procedure. -/
theorem phaseOk_afterRecord {answer : Except SupabaseRpcError IncidentRecordOutcome}
    (hretry : ∀ error, answer = .error error →
      isRetryableIncidentRecordError error = true → c.PhaseOk db (.signing r event draft (k + 1)))
    (hanswer : ∀ o, answer = .ok o →
      (o.suppressed = true → ∃ e ∈ db.auditEvents, c.isRecent e = true) ∧
      (o.suppressed = false → ∃ i, c.Reports r i ∧ incidentEvent i ∈ db.auditEvents)) :
    c.PhaseOk db (afterRecord r event draft k answer) := by
  rcases answer with error | outcome
  · simp only [afterRecord]
    split_ifs with hagain
    · exact hretry error rfl (Bool.and_eq_true_iff.mp hagain).1
    · rintro o ⟨⟩
  · rintro o ⟨⟩
    obtain ⟨hrecent, hstored⟩ := hanswer outcome rfl
    refine ⟨hrecent, fun hunsuppressed => ?_⟩
    obtain ⟨i, hi, hmem⟩ := hstored hunsuppressed
    exact ⟨r, i, rfl, hi, hmem⟩

/-- Events of others do not matter. -/
theorem PhaseOk.grow {phase : RecordPhase} {more : List AuditEventRow} (h : c.PhaseOk db phase)
    (hevents : db'.auditEvents = db.auditEvents ++ more)
    (hids : ∀ e ∈ more, e.id ≠ c.eventId) : c.PhaseOk db' phase := by
  have hnew : (∀ e ∈ db.auditEvents, e.id ≠ c.eventId) →
      ∀ e ∈ db'.auditEvents, e.id ≠ c.eventId := by
    intro hold e he
    rw [hevents, List.mem_append] at he
    exact he.elim (hold e) (hids e)
  have hsubset : ∀ e ∈ db.auditEvents, e ∈ db'.auditEvents := fun e he => by
    rw [hevents]
    exact List.mem_append_left _ he
  -- until the call has recorded, its event is not there; then it stays
  cases phase with
  | called => exact hnew h
  | notifying => exact hnew h
  | notified result => exact hnew h
  | signing result event draft k => exact ⟨hnew h.1, h.2⟩
  | recording result event draft k entry => exact ⟨hnew h.1, h.2⟩
  | returned notification result =>
    intro o ho
    obtain ⟨hrecent, hstored⟩ := h o ho
    refine ⟨fun hsuppressed => ?_, fun hunsuppressed => ?_⟩
    · obtain ⟨e, he, her⟩ := hrecent hsuppressed
      exact ⟨e, hsubset e he, her⟩
    · obtain ⟨r, i, hr, hi, hmem⟩ := hstored hunsuppressed
      exact ⟨r, i, hr, hi, hsubset _ hmem⟩

theorem PhaseOk.of_events {phase : RecordPhase} (h : c.PhaseOk db phase)
    (hevents : db'.auditEvents = db.auditEvents) : c.PhaseOk db' phase :=
  h.grow (hevents.trans (List.append_nil _).symm) (by simp)

/-- What a step of a call can do to the events. -/
inductive StepEffect (c : IncidentCall) (db db' : SecretDb) : Prop
  | unchanged (hevents : db'.auditEvents = db.auditEvents)
  | appended (r : NotificationResult) (i : Incident) (hi : c.Reports r i)
      (hevents : db'.auditEvents = db.auditEvents ++ [incidentEvent i])
      (hrecent : ∀ e ∈ db.auditEvents, e.id ≠ c.eventId → c.isRecent e = false)

/-- The step in which the incident is recorded, whether its answer arrives or not. -/
theorem step_record {answer : Except SupabaseRpcError IncidentRecordOutcome}
    (heffect : c.RecordEffect r db db' answer)
    (h : c.PhaseOk db (.recording r event draft k entry)) :
    c.StepEffect db db' ∧ c.PhaseOk db' (afterRecord r event draft k answer) := by
  obtain ⟨hnew, hevent, hdraft, -⟩ := h
  cases heffect with
  | unchanged hevents hanswer =>
    refine ⟨.unchanged hevents, phaseOk_afterRecord (fun _ _ _ => ?_) fun o ho => ?_⟩
    · exact ⟨by rwa [hevents], hevent, hdraft⟩
    · obtain ⟨hsuppressed, hrecent⟩ := hanswer o ho
      exact ⟨fun _ => by rwa [hevents], fun hfalse => by simp [hsuppressed] at hfalse⟩
  | appended i hi hevents hrecent hanswer hretry =>
    refine ⟨.appended r i hi hevents hrecent,
      phaseOk_afterRecord (fun error herror hagain => ?_) fun o ho => ?_⟩
    · exact absurd hagain (by simp [hretry error herror])
    · refine ⟨fun htrue => by simp [hanswer o ho] at htrue, fun _ => ⟨i, hi, ?_⟩⟩
      rw [hevents]
      exact List.mem_append_right _ (List.mem_singleton_self _)

theorem step_proceed {phase phase' : RecordPhase} (hphase : c.PhaseOk db phase)
    (h : c.proceed P pg db phase = some (db', phase')) :
    c.StepEffect db db' ∧ c.PhaseOk db' phase' := by
  cases phase with
  | called =>
    cases h
    refine ⟨.unchanged rfl, phaseOk_afterCheck hphase fun hseen => ?_⟩
    have hany := callIncidentRecentlySeen_eq_ok hseen
    simpa using hany.symm
  | notifying => cases h
  | notified result =>
    cases h
    exact ⟨.unchanged rfl, phaseOk_prepare hphase⟩
  | signing result event draft k =>
    cases h
    exact ⟨.unchanged rfl, phaseOk_sign hphase⟩
  | recording result event draft k entry =>
    cases h
    obtain ⟨hnew, hevent, -, hentry⟩ := id hphase
    exact step_record (recordEffect_callRecordIncident hevent hentry hnew) hphase
  | returned notification result => cases h

theorem step_unreachable {phase phase' : RecordPhase} {executed : Bool}
    (hphase : c.PhaseOk db phase)
    (h : c.unreachable P pg db executed phase = some (db', phase')) :
    c.StepEffect db db' ∧ c.PhaseOk db' phase' := by
  cases phase with
  | called =>
    cases h
    exact ⟨.unchanged rfl, phaseOk_afterCheck hphase (by rintro ⟨⟩)⟩
  | notifying => cases h
  | notified result => cases h
  | signing result event draft k =>
    cases h
    exact ⟨.unchanged rfl, phaseOk_sign hphase⟩
  | recording result event draft k entry =>
    cases h
    obtain ⟨hnew, hevent, -, hentry⟩ := id hphase
    cases executed with
    | false =>
      have heffect : c.RecordEffect result db db (.error .network) :=
        .unchanged rfl (by rintro o ⟨⟩)
      exact step_record heffect hphase
    | true =>
      -- the answer is lost, and the call is not made again
      have hexecuted : c.RecordEffect result db
          (callRecordIncident pg db c.input event entry result).1
          (callRecordIncident pg db c.input event entry result).2 :=
        recordEffect_callRecordIncident hevent hentry hnew
      have hlost : c.RecordEffect result db (callRecordIncident pg db c.input event entry result).1
          (.error .network) := by
        cases hexecuted with
        | unchanged hevents hanswer => exact .unchanged hevents (by rintro o ⟨⟩)
        | appended i hi hevents hrecent hanswer hretry =>
          exact .appended i hi hevents hrecent (by rintro o ⟨⟩) (by rintro error ⟨⟩; rfl)
      exact step_record hlost hphase
  | returned notification result => cases h

/-- A step of a call, or a transaction of others. -/
theorem step_act {isReserved : Uuid → Bool} {task task' : RecordTask} {action : RecordAction}
    (hcall : task.call = c) (hphase : c.PhaseOk db task.phase)
    (h : task.act P pg isReserved db action = some (db', task')) :
    (c.StepEffect db db' ∧ task'.call = c ∧ c.PhaseOk db' task'.phase) ∨
      (task' = task ∧ ∃ more, db'.auditEvents = db.auditEvents ++ more ∧
        ∀ e ∈ more, isReserved e.id = false) := by
  obtain ⟨call, phase⟩ := task
  obtain rfl : call = c := hcall
  cases action with
  | proceed =>
    obtain ⟨⟨db₁, phase'⟩, hproceed, hnext⟩ := Option.map_eq_some_iff.mp h
    cases hnext
    obtain ⟨heffect, hphase'⟩ := step_proceed hphase hproceed
    exact .inl ⟨heffect, rfl, hphase'⟩
  | fail =>
    cases phase with
    | called => cases h; exact .inl ⟨.unchanged rfl, rfl, by rintro o ⟨⟩⟩
    | notified result => cases h; exact .inl ⟨.unchanged rfl, rfl, by rintro o ⟨⟩⟩
    | notifying | signing | recording | returned => cases h
  | unreachable executed =>
    obtain ⟨⟨db₁, phase'⟩, hunreachable, hnext⟩ := Option.map_eq_some_iff.mp h
    cases hnext
    obtain ⟨heffect, hphase'⟩ := step_unreachable hphase hunreachable
    exact .inl ⟨heffect, rfl, hphase'⟩
  | notify sent =>
    cases phase with
    | notifying => cases h; exact .inl ⟨.unchanged rfl, rfl, hphase⟩
    | called | notified | signing | recording | returned => cases h
  -- other writers have other identifiers and leave the call alone
  | others db₁ more =>
    simp only [RecordTask.act, Option.ite_none_right_eq_some, List.all_eq_true,
      Bool.not_eq_true'] at h
    obtain ⟨hmore, hnext⟩ := h
    cases hnext
    exact .inr ⟨rfl, more, rfl, hmore⟩

end IncidentCall

/-! ### Interleavings -/

/-- The tables and the calls. -/
abbrev RecordState (ι : Type) := Tasks.State ι SecretDb RecordTask

namespace RecordState

variable {ι : Type} {P : Primitives} {pg : PostgresSession} {isReserved : Uuid → Bool}
  {calls : ι → IncidentCall} {db : SecretDb} {s s' : RecordState ι}

/-- All calls have been made. -/
def init (calls : ι → IncidentCall) (db : SecretDb) : RecordState ι :=
  ⟨db, fun t => ⟨calls t, .called⟩⟩

/-- The calls are about one kind of incident, each at a time in the windows of the others, and
generate distinct identifiers that nobody else uses. -/
structure CallsOneWindow (isReserved : Uuid → Bool) (calls : ι → IncidentCall) (db : SecretDb) :
    Prop where
  incidentType : ∀ t u, (calls t).input.incidentType = (calls u).input.incidentType
  dedupeKey : ∀ t u, (calls t).input.dedupeKey = (calls u).input.dedupeKey
  times : ∀ t u, ∃ a b : ℕ, timestamptz (calls t).sourceEventAt.text = some a ∧
    timestamptz (calls u).sourceEventAt.text = some b ∧
    (a : ℤ) - (calls t).input.dedupeWindowSeconds * 1000000 ≤ b
  ids : ∀ t u, (calls t).eventId = (calls u).eventId → t = u
  reserved : ∀ t, isReserved (calls t).eventId = true
  newEvent : ∀ t, ∀ e ∈ db.auditEvents, e.id ≠ (calls t).eventId

/-- The incident of a call is recorded. -/
def Recorded (calls : ι → IncidentCall) (db : SecretDb) (t : ι) : Prop :=
  ∃ e ∈ db.auditEvents, e.id = (calls t).eventId

/-- What is stored for the calls. -/
structure StoredOk (calls : ι → IncidentCall) (db : SecretDb) : Prop where
  reports : ∀ t, ∀ e ∈ db.auditEvents, e.id = (calls t).eventId →
    ∃ r i, (calls t).Reports r i ∧ e = incidentEvent i
  unique : ∀ t u, Recorded calls db t → Recorded calls db u → t = u

/-- The calls of a state and their phases. -/
def TaskOk (calls : ι → IncidentCall) (t : ι) (db : SecretDb) (task : RecordTask) : Prop :=
  task.call = calls t ∧ (calls t).PhaseOk db task.phase

/-- What is known of every state. -/
abbrev Inv (calls : ι → IncidentCall) (s : RecordState ι) : Prop :=
  Tasks.Ok (StoredOk calls) (TaskOk calls) s

theorem inv_init (hcalls : CallsOneWindow isReserved calls db) : Inv calls (init calls db) where
  shared := {
    reports := fun t e he hid => absurd hid (hcalls.newEvent t e he)
    unique := fun t _ ⟨e, he, hid⟩ _ => absurd hid (hcalls.newEvent t e he) }
  task t := ⟨rfl, hcalls.newEvent t⟩

/-- Events under other identifiers change nothing for the calls. -/
theorem StoredOk.grow {db' : SecretDb} {more : List AuditEventRow} (h : StoredOk calls db)
    (hevents : db'.auditEvents = db.auditEvents ++ more)
    (hids : ∀ t, ∀ e ∈ more, e.id ≠ (calls t).eventId) : StoredOk calls db' := by
  have hold : ∀ t, ∀ e ∈ db'.auditEvents, e.id = (calls t).eventId → e ∈ db.auditEvents := by
    intro t e he hid
    rw [hevents, List.mem_append] at he
    exact he.resolve_right fun hmore => hids t e hmore hid
  refine ⟨fun t e he hid => h.reports t e (hold t e he hid) hid, ?_⟩
  rintro t u ⟨e, he, hid⟩ ⟨e', he', hid'⟩
  exact h.unique t u ⟨e, hold t e he hid, hid⟩ ⟨e', hold u e' he' hid', hid'⟩

variable {e : AuditEventRow}

/-- A stored incident of one of the calls is recent for each of them. -/
theorem StoredOk.isRecent (hcalls : CallsOneWindow isReserved calls db) {db' : SecretDb}
    (h : StoredOk calls db') {t u : ι} (he : e ∈ db'.auditEvents) (hid : e.id = (calls u).eventId) :
    (calls t).isRecent e = true := by
  obtain ⟨r, i, hi, rfl⟩ := h.reports u e he hid
  obtain ⟨a, b, ha, hb, hwindow⟩ := hcalls.times t u
  rw [IncidentCall.isRecent, hcalls.incidentType t u, hcalls.dedupeKey t u, ← hi.incidentType,
    ← hi.dedupeKey]
  exact isRecentIncident_incidentEvent ha (hi.sourceEventAt ▸ hb) hwindow

/-- A call only records its incident if no other is recorded. -/
theorem StoredOk.record (hcalls : CallsOneWindow isReserved calls db) {db₁ db₂ : SecretDb} {t : ι}
    {r : NotificationResult} {i : Incident} (h : StoredOk calls db₁) (hi : (calls t).Reports r i)
    (hevents : db₂.auditEvents = db₁.auditEvents ++ [incidentEvent i])
    (hrecent : ∀ e ∈ db₁.auditEvents, e.id ≠ (calls t).eventId → (calls t).isRecent e = false) :
    StoredOk calls db₂ := by
  have hcases : ∀ u, ∀ e ∈ db₂.auditEvents, e.id = (calls u).eventId →
      u = t ∧ (e ∈ db₁.auditEvents ∨ e = incidentEvent i) := by
    intro u e he hid
    rw [hevents, List.mem_append, List.mem_singleton] at he
    rcases he with he | rfl
    · refine ⟨?_, .inl he⟩
      by_contra hne
      have hother : e.id ≠ (calls t).eventId := fun heq => hne (hcalls.ids u t (hid.symm.trans heq))
      have hfound := h.isRecent hcalls (t := t) he hid
      rw [hrecent e he hother] at hfound
      cases hfound
    · exact ⟨hcalls.ids u t (hid.symm.trans hi.auditEventId), .inr rfl⟩
  refine ⟨fun u e he hid => ?_, ?_⟩
  · obtain ⟨rfl, hold | rfl⟩ := hcases u e he hid
    · exact h.reports u e hold hid
    · exact ⟨r, i, hi, rfl⟩
  · rintro u v ⟨e, he, hid⟩ ⟨e', he', hid'⟩
    exact (hcases u e he hid).1.trans (hcases v e' he' hid').1.symm

variable [DecidableEq ι]

/-- A step of any call keeps the invariant. -/
theorem Inv.step (hcalls : CallsOneWindow isReserved calls db) (hinv : Inv calls s)
    {a : ι × RecordAction} (h : Tasks.step (RecordTask.act P pg isReserved) s a = some s') :
    Inv calls s' := by
  obtain ⟨t, action⟩ := a
  refine Tasks.ok_of_step h fun db' task' hact => ?_
  obtain ⟨hcall, hphase⟩ := hinv.task t
  rcases IncidentCall.step_act hcall hphase hact with
    ⟨heffect, hcall', hphase'⟩ | ⟨rfl, more, hevents, hmore⟩
  · cases heffect with
    | unchanged hevents =>
      refine ⟨hinv.shared.grow (hevents.trans (List.append_nil _).symm) (by simp),
        ⟨hcall', hphase'⟩, fun u _ => ⟨(hinv.task u).1, (hinv.task u).2.of_events hevents⟩⟩
    | appended r i hi hevents hrecent =>
      refine ⟨hinv.shared.record hcalls hi hevents hrecent, ⟨hcall', hphase'⟩, fun u hu => ?_⟩
      refine ⟨(hinv.task u).1, (hinv.task u).2.grow hevents fun e he hid => hu ?_⟩
      obtain rfl := List.mem_singleton.mp he
      exact hcalls.ids u t (hid.symm.trans hi.auditEventId)
  · have hids : ∀ u, ∀ e ∈ more, e.id ≠ (calls u).eventId := by
      intro u e he hid
      have hfree := hmore e he
      rw [hid, hcalls.reserved u] at hfree
      cases hfree
    exact ⟨hinv.shared.grow hevents hids, ⟨hcall, hphase.grow hevents (hids t)⟩,
      fun u _ => ⟨(hinv.task u).1, (hinv.task u).2.grow hevents (hids u)⟩⟩

/-- So it holds in every state. -/
theorem inv_of_reachable (hcalls : CallsOneWindow isReserved calls db)
    (h : Transition.Reachable (Tasks.step (RecordTask.act P pg isReserved)) (init calls db) s) :
    Inv calls s := by
  refine Transition.invariant (Inv calls) ?_ (inv_init hcalls) h
  rintro s₁ s₂ hinv ⟨a, hstep⟩
  exact hinv.step hcalls hstep

/-! ### The check -/

/-- The call has not been checked, or was returned from before its notification. -/
def IsSilent (task : RecordTask) : Prop :=
  task.phase = .called ∨ ∃ result, task.phase = .returned none result

/-- A silent call has sent nothing. -/
theorem notification_of_isSilent {task : RecordTask} (h : IsSilent task) :
    task.phase.notification = none := by
  rcases h with h | ⟨result, h⟩
  · rw [h, RecordPhase.notification]
  · rw [h, RecordPhase.notification]

/-- A call that finds a recent incident stays silent. -/
theorem isSilent_of_act {db' : SecretDb} {task task' : RecordTask} {action : RecordAction}
    (hsilent : IsSilent task) (he : e ∈ db.auditEvents) (hrecent : task.call.isRecent e = true)
    (h : task.act P pg isReserved db action = some (db', task')) : IsSilent task' := by
  obtain ⟨call, phase⟩ := task
  rcases hsilent with hphase | ⟨result, hphase⟩
  · obtain rfl : phase = .called := hphase
    cases action with
    | proceed =>
      cases h
      cases hseen : callIncidentRecentlySeen db call.input call.sourceEventAt with
      | error error => exact .inr ⟨_, rfl⟩
      | ok seen =>
        -- the event that is there makes the answer a suppression
        have hany : db.auditEvents.any call.isRecent = true := List.any_eq_true.mpr ⟨e, he, hrecent⟩
        rw [← IncidentCall.callIncidentRecentlySeen_eq_ok hseen] at hany
        rw [hany]
        exact .inr ⟨_, rfl⟩
    | fail => cases h; exact .inr ⟨_, rfl⟩
    | unreachable executed => cases h; exact .inr ⟨_, rfl⟩
    | notify sent => cases h
    | others db₁ more =>
      simp only [RecordTask.act, Option.ite_none_right_eq_some] at h
      obtain ⟨-, hnext⟩ := h
      cases hnext
      exact .inl rfl
  · obtain rfl : phase = .returned none result := hphase
    cases action with
    | proceed | fail | unreachable | notify => cases h
    | others db₁ more =>
      simp only [RecordTask.act, Option.ite_none_right_eq_some] at h
      obtain ⟨-, hnext⟩ := h
      cases hnext
      exact .inr ⟨result, rfl⟩

/-- No step deletes an event. -/
theorem Inv.mem_step (hinv : Inv calls s) {a : ι × RecordAction}
    (h : Tasks.step (RecordTask.act P pg isReserved) s a = some s')
    (he : e ∈ s.shared.auditEvents) : e ∈ s'.shared.auditEvents := by
  obtain ⟨t, action⟩ := a
  obtain ⟨⟨db', task'⟩, hact, rfl⟩ := Tasks.step_eq_some h
  obtain ⟨hcall, hphase⟩ := hinv.task t
  have hgrows : ∃ more, db'.auditEvents = s.shared.auditEvents ++ more := by
    rcases IncidentCall.step_act hcall hphase hact with ⟨heffect, -⟩ | ⟨-, more, hevents, -⟩
    · cases heffect with
      | unchanged hevents => exact ⟨[], hevents.trans (List.append_nil _).symm⟩
      | appended r i hi hevents hrecent => exact ⟨[incidentEvent i], hevents⟩
    · exact ⟨more, hevents⟩
  obtain ⟨more, hevents⟩ := hgrows
  have hmem : e ∈ s.shared.auditEvents ++ more := List.mem_append_left more he
  rwa [← hevents] at hmem

/-- Once a recent incident is stored, a call that is not checked yet stays silent. -/
theorem notification_eq_none (hcalls : CallsOneWindow isReserved calls db) (hinv : Inv calls s)
    {t : ι} (he : e ∈ s.shared.auditEvents) (hrecent : (calls t).isRecent e = true)
    (hcalled : (s.task t).phase = .called)
    (h : Transition.Reachable (Tasks.step (RecordTask.act P pg isReserved)) s s') :
    (s'.task t).phase.notification = none := by
  have hsilent : Inv calls s' ∧ e ∈ s'.shared.auditEvents ∧ IsSilent (s'.task t) := by
    refine Transition.invariant
      (fun s => Inv calls s ∧ e ∈ s.shared.auditEvents ∧ IsSilent (s.task t)) ?_
      ⟨hinv, he, .inl hcalled⟩ h
    rintro s₁ s₂ ⟨hinv₁, he₁, hsilent₁⟩ ⟨⟨u, action⟩, hstep⟩
    refine ⟨hinv₁.step hcalls hstep, hinv₁.mem_step hstep he₁, ?_⟩
    obtain ⟨⟨db', task'⟩, hact, rfl⟩ := Tasks.step_eq_some hstep
    show IsSilent (Function.update s₁.task u task' t)
    by_cases htu : t = u
    · subst htu
      rw [Function.update_self]
      exact isSilent_of_act hsilent₁ he₁ ((hinv₁.task t).1 ▸ hrecent) hact
    · rw [Function.update_of_ne htu]
      exact hsilent₁
  exact notification_of_isSilent hsilent.2.2

/-- What the calls of a window come to, whatever happens. -/
structure Accounted (calls : ι → IncidentCall) (s : RecordState ι) : Prop where
  /-- At most one of them is recorded. -/
  unique : ∀ t u, Recorded calls s.shared t → Recorded calls s.shared u → t = u
  /-- A call that returns without being suppressed is recorded with the result of its
  notification. -/
  recorded : ∀ t notification o, (s.task t).phase = .returned notification (.ok o) →
    o.suppressed = false → ∃ r i, notification = some r ∧ (calls t).Reports r i ∧
      incidentEvent i ∈ s.shared.auditEvents
  /-- A call that returns suppressed has a recent incident stored. -/
  suppressed : ∀ t notification o, (s.task t).phase = .returned notification (.ok o) →
    o.suppressed = true → ∃ e ∈ s.shared.auditEvents, (calls t).isRecent e = true

omit [DecidableEq ι] in
/-- The invariant accounts for every call. -/
theorem Inv.accounted (hinv : Inv calls s) : s.Accounted calls where
  unique := hinv.shared.unique
  recorded t notification o hphase hunsuppressed := by
    have hok := (hinv.task t).2
    rw [hphase] at hok
    exact (hok o rfl).2 hunsuppressed
  suppressed t notification o hphase hsuppressed := by
    have hok := (hinv.task t).2
    rw [hphase] at hok
    exact (hok o rfl).1 hsuppressed

end RecordState

open RecordState in
/-- **Notifications stop once an incident is recorded.** In every interleaving of calls within one
window, with whatever answers of the sink and of the database: at most one call is recorded; a call
that returns is recorded with the result of its notification, or suppressed by a recent incident;
and a call that is not checked yet when one of them is recorded does not notify, then or later. -/
theorem incident_notifications {ι : Type} [DecidableEq ι] (P : Primitives) (pg : PostgresSession)
    (isReserved : Uuid → Bool) (calls : ι → IncidentCall) (db : SecretDb)
    (hcalls : CallsOneWindow isReserved calls db) (s : RecordState ι)
    (h : Transition.Reachable (Tasks.step (RecordTask.act P pg isReserved)) (init calls db) s) :
    s.Accounted calls ∧ ∀ t u, Recorded calls s.shared u → (s.task t).phase = .called →
      ∀ s' : RecordState ι,
        Transition.Reachable (Tasks.step (RecordTask.act P pg isReserved)) s s' →
        (s'.task t).phase.notification = none := by
  have hinv := inv_of_reachable hcalls h
  refine ⟨hinv.accounted, ?_⟩
  rintro t u ⟨e, he, hid⟩ hcalled s' hs'
  exact notification_eq_none hcalls hinv he (hinv.shared.isRecent hcalls he hid) hcalled hs'

/-! ### Two calls at once -/

/-- A call for a gap in the ledger. -/
def sampleIncidentCall (second : Bool) : IncidentCall where
  appender := sampleAppender
  sinkName := "log"
  input := {
    incidentType := .sequenceGap
    severity := .high
    detectionSource := "scheduler"
    dedupeKey := "ledger"
    errorCode := "sequence_gap"
    incidentSourceEventId := none
    targetSequenceNo := none
    targetYearMonth := none
    dedupeWindowSeconds := 3600 }
  sourceEventAt := (sampleParts 30).sourceEventAt
  ids := ⟨⟨sampleUuid 9⟩, ⟨sampleUuid (if second then 21 else 20)⟩, sampleEntryId 30⟩

/-- The two calls, in their phases. -/
def sampleRecordState (phase : Bool → RecordPhase) : RecordState Bool :=
  ⟨emptyStore [] [], fun t => ⟨sampleIncidentCall t, phase t⟩⟩

/-- The identifiers of the two events. -/
def isSampleEventId (id : Uuid) : Bool :=
  id == sampleUuid 20 || id == sampleUuid 21

open RecordState

theorem callsOneWindow_sampleIncidentCall :
    CallsOneWindow isSampleEventId sampleIncidentCall (emptyStore [] []) where
  incidentType _ _ := rfl
  dedupeKey _ _ := rfl
  times t u := by
    obtain ⟨a, ha⟩ := Option.isSome_iff_exists.mp (show
      (timestamptz (sampleParts 30).sourceEventAt.text).isSome = true by decide +kernel)
    refine ⟨a, a, ha, ha, ?_⟩
    have hwindow : (sampleIncidentCall t).input.dedupeWindowSeconds = 3600 := rfl
    rw [hwindow]
    omega
  ids t u h := by revert t u; decide
  reserved t := by revert t; decide
  newEvent t e he := by simp [emptyStore] at he

theorem step_sampleRecordState {phase : Bool → RecordPhase} {t : Bool} {phase' : RecordPhase}
    {action : RecordAction}
    (h : RecordTask.act samplePrimitives sampleSession isSampleEventId (emptyStore [] [])
      ⟨sampleIncidentCall t, phase t⟩ action =
        some (emptyStore [] [], ⟨sampleIncidentCall t, phase'⟩)) :
    Tasks.step (RecordTask.act samplePrimitives sampleSession isSampleEventId)
      (sampleRecordState phase) (t, action) =
        some (sampleRecordState (Function.update phase t phase')) := by
  rw [Tasks.step_of_act h]
  refine congrArg (fun task => some (Tasks.State.mk (emptyStore [] []) task)) (funext fun u => ?_)
  by_cases hu : u = t
  · subst hu
    rw [Function.update_self, Function.update_self]
  · rw [Function.update_of_ne hu, Function.update_of_ne hu]
    rfl

/-- On empty tables the check finds nothing. -/
theorem act_sampleIncidentCall (second : Bool) :
    RecordTask.act samplePrimitives sampleSession isSampleEventId (emptyStore [] [])
      ⟨sampleIncidentCall second, .called⟩ .proceed =
        some (emptyStore [] [], ⟨sampleIncidentCall second, .notifying⟩) := by
  have hseen : (callIncidentRecentlySeen (emptyStore [] []) (sampleIncidentCall second).input
      (sampleIncidentCall second).sourceEventAt).toOption = some false := by
    revert second
    decide +kernel
  rw [Result.toOption_eq_some] at hseen
  rw [RecordTask.act, IncidentCall.proceed, hseen]
  rfl

/-- Both calls are checked before either is recorded. -/
theorem exists_sampleRecordState : ∃ phase : Bool → RecordPhase,
    Transition.Reachable
      (Tasks.step (RecordTask.act samplePrimitives sampleSession isSampleEventId))
      (init sampleIncidentCall (emptyStore [] [])) (sampleRecordState phase) ∧
      ∀ t, phase t = .notified .sent := by
  refine ⟨_, .tail (.tail (.tail (.tail .refl
    ⟨(false, .proceed), step_sampleRecordState (act_sampleIncidentCall false)⟩)
    ⟨(true, .proceed), step_sampleRecordState (act_sampleIncidentCall true)⟩)
    ⟨(false, .notify true), step_sampleRecordState rfl⟩)
    ⟨(true, .notify true), step_sampleRecordState rfl⟩, fun t => ?_⟩
  cases t <;> rfl

/-- An instance: both calls have notified their sink, and neither is recorded yet. -/
theorem incident_notifications_sampleIncidentCall : ∃ s : RecordState Bool,
    (∀ t, (s.task t).phase = .notified .sent) ∧ s.Accounted sampleIncidentCall := by
  obtain ⟨phase, hreachable, hphase⟩ := exists_sampleRecordState
  exact ⟨_, hphase, (incident_notifications samplePrimitives sampleSession isSampleEventId
    sampleIncidentCall (emptyStore [] []) callsOneWindow_sampleIncidentCall _ hreachable).1⟩

/-- Two calls of one window both notify their sink. -/
theorem two_notifications_of_one_window :
    CallsOneWindow isSampleEventId sampleIncidentCall (emptyStore [] []) ∧
      ∃ s : RecordState Bool, Transition.Reachable
        (Tasks.step (RecordTask.act samplePrimitives sampleSession isSampleEventId))
        (init sampleIncidentCall (emptyStore [] [])) s ∧
      ∀ t, (s.task t).phase.notification = some .sent := by
  obtain ⟨phase, hreachable, hphase⟩ := exists_sampleRecordState
  refine ⟨callsOneWindow_sampleIncidentCall, _, hreachable, fun t => ?_⟩
  exact congrArg RecordPhase.notification (hphase t)

end Mipsorcu
