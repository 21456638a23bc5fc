import Mipsorcu.Siem.Buffer

/-!
# The forwarder

`SiemForwarder` sends events to a sink and keeps what the sink does not take in the local buffer. It
has a status cell that tells since when forwarding fails. A call of `forward` or `resend_pending` is
a task: between any two of its accesses to the sink, the buffer and the status other calls may run.
-/

namespace Mipsorcu

/-! ### Calls and results -/

/-- `SiemSinkError`. -/
inductive SiemSinkError where
  | backendFailed (code : String)
  | invalidResponse (reason : String)
  deriving DecidableEq

/-- Codes of the backend that are not meant for the audit log are replaced. -/
def sinkErrorCode : SiemSinkError → String
  | .backendFailed code =>
    if "siem_".toList.isPrefixOf code.toList then code else "siem_backend_failed"
  | .invalidResponse _ => "siem_invalid_response"

/-- `SiemForwardOutcome`. -/
inductive SiemForwardOutcome where
  | sentDirect
  | buffered (sinkErrorCode : String)
  | bufferingFailed (sinkErrorCode : String)
  deriving DecidableEq

/-- `SiemResendSummary`. -/
structure SiemResendSummary where
  attempted : ℕ
  sent : ℕ
  failed : ℕ
  deriving DecidableEq

/-- `SiemResendSummary::default`. -/
def SiemResendSummary.default : SiemResendSummary :=
  ⟨0, 0, 0⟩

/-- What a call returned; a resend with the events it had read, if it could read them. -/
inductive SiemReturn where
  | forward (event : SiemEvent) (outcome : SiemForwardOutcome)
  | resendPending (snapshot : Option (List SiemEvent)) (summary : SiemResendSummary)

/-- Where a call stands. -/
inductive SiemTask where
  | idle
  /-- `forward` waits for the sink. -/
  | sending (event : SiemEvent)
  /-- The sink took the event; the status is not cleared yet. -/
  | accepted (event : SiemEvent)
  /-- The sink did not take the event; the failure is not recorded yet. -/
  | failed (event : SiemEvent) (code : String)
  /-- The failure is recorded; the event is not in the buffer yet. -/
  | buffering (event : SiemEvent) (code : String)
  /-- `resend_pending` reads the buffer. -/
  | reading
  /-- `resend_pending` waits for the sink, with further events to come. -/
  | resending (snapshot : List SiemEvent) (event : SiemEvent) (rest : List SiemEvent)
    (summary : SiemResendSummary)
  /-- The sink took the event; it is not marked as sent yet. -/
  | marking (snapshot : List SiemEvent) (event : SiemEvent) (rest : List SiemEvent)
    (summary : SiemResendSummary)
  /-- All events were tried. -/
  | finishing (snapshot : List SiemEvent) (summary : SiemResendSummary)

/-- The loop of `resend_pending`. -/
def resendNextEvent (snapshot rest : List SiemEvent) (summary : SiemResendSummary) : SiemTask :=
  match rest with
  | [] => .finishing snapshot summary
  | event :: rest => .resending snapshot event rest summary

/-- The next access of the call clears the status. -/
def SiemTask.clearsStatus : SiemTask → Bool
  | .accepted _ => true
  | .finishing _ summary => summary.failed == 0 && decide (0 < summary.attempted)
  | _ => false

/-! ### Shared state -/

/-- The buffer and the status. The other fields only record what happened: the events the sink took,
the times of the failures recorded since the status was cleared last, and the calls that
returned. -/
structure SiemShared where
  records : List LocalSiemFallbackRecord
  failureSince : Option ℤ
  accepted : List SiemEvent
  failures : List ℤ
  returned : List SiemReturn

/-- How an append ends: it may fail with the line written. -/
inductive AppendAnswer where
  | ok
  | failed (written : Bool)
  deriving DecidableEq

namespace SiemShared

/-- An empty buffer, and no failure. -/
def init : SiemShared where
  records := []
  failureSince := none
  accepted := []
  failures := []
  returned := []

/-- The text of the buffer. -/
def file (s : SiemShared) : List Char :=
  LocalSiemFallbackRecord.format.render s.records

/-- The sink has taken the event. -/
def accept (s : SiemShared) (event : SiemEvent) : SiemShared :=
  { s with accepted := event :: s.accepted }

/-- `SiemForwarderStatus::record_failure`: the first failure stays. -/
def recordFailure (s : SiemShared) (now : ℤ) : SiemShared :=
  { s with failureSince := if s.failureSince.isNone then some now else s.failureSince
           failures := s.failures ++ [now] }

/-- `SiemForwarderStatus::clear`. -/
def clear (s : SiemShared) : SiemShared :=
  { s with failureSince := none, failures := [] }

/-- `append_record`: the whole line is written, or nothing. -/
def append (s : SiemShared) (record : LocalSiemFallbackRecord) : AppendAnswer → SiemShared
  | .failed false => s
  | _ => { s with records := s.records ++ [record] }

/-- A call returns. -/
def finish (s : SiemShared) (result : SiemReturn) : SiemShared :=
  { s with returned := result :: s.returned }

end SiemShared

/-! ### The next access of a call -/

/-- What happens to a call, with the answer it gets. -/
inductive SiemAction where
  | forward (event : SiemEvent)
  | resendPending
  | sinkAnswers (answer : Except SiemSinkError Unit)
  | recordFailure (now : ℤ)
  | append (answer : AppendAnswer)
  /-- The buffer is read, or an I/O error occurs. -/
  | readBuffer (ioError : Bool)
  | updateStatus

/-- One access of a call. -/
def SiemShared.act (s : SiemShared) (task : SiemTask) (action : SiemAction) :
    Option (SiemShared × SiemTask) :=
  match task, action with
  | .idle, .forward event => some (s, .sending event)
  | .idle, .resendPending => some (s, .reading)
  | .sending event, .sinkAnswers (.ok ()) => some (s.accept event, .accepted event)
  | .sending event, .sinkAnswers (.error e) => some (s, .failed event (sinkErrorCode e))
  | .accepted event, .updateStatus => some (s.clear.finish (.forward event .sentDirect), .idle)
  | .failed event code, .recordFailure now => some (s.recordFailure now, .buffering event code)
  | .buffering event code, .append answer =>
    some ((s.append (.ofEvent .pending event) answer).finish (.forward event
      (if answer = .ok then .buffered code else .bufferingFailed code)), .idle)
  | .reading, .readBuffer ioError =>
    match ioError, pendingEvents s.file with
    | false, .ok pending =>
      some (s, resendNextEvent pending pending { SiemResendSummary.default with
        attempted := pending.length })
    | _, _ => some (s.finish (.resendPending none .default), .idle)
  | .resending snapshot event rest summary, .sinkAnswers (.ok ()) =>
    some (s.accept event, .marking snapshot event rest summary)
  -- the event stays in the buffer, and the next one is tried
  | .resending snapshot _ rest summary, .sinkAnswers (.error _) =>
    some (s, resendNextEvent snapshot rest { summary with failed := summary.failed + 1 })
  | .marking snapshot event rest summary, .append answer =>
    some (s.append (.ofEvent .sent event) answer, resendNextEvent snapshot rest
      (if answer = .ok then { summary with sent := summary.sent + 1 }
       else { summary with failed := summary.failed + 1 }))
  | .finishing snapshot summary, .updateStatus =>
    some ((if (SiemTask.finishing snapshot summary).clearsStatus then s.clear else s).finish
      (.resendPending (some snapshot) summary), .idle)
  | _, _ => none

end Mipsorcu
