import Mipsorcu.Archive.Queue

/-!
# Putting objects into the archive

An object is put with a request that the archive refuses if the key is taken. Requests that fail
for a passing reason are repeated (`run_with_backoff`), so a refusal may be due to an earlier
request of the same call: then the object is read back and compared (`put_object_bytes`).
`afterPut` and `afterGet` are what the backend does with the answer to one request.
-/

namespace Mipsorcu

/-- `S3BackendError`. -/
inductive S3BackendError where
  | invalidConfig
  | requestBuild
  | network
  | unauthenticated
  | overwriteRejected
  | notFound
  | serverError (status : ℕ)
  | unexpected (status : ℕ)
  | responseRead
  deriving DecidableEq

namespace S3BackendError

/-- The code of the error. -/
def asErrorCode : S3BackendError → String
  | invalidConfig => "archive_export_invalid_config"
  | requestBuild => "archive_export_request_build_failed"
  | network => "archive_export_network_failed"
  | unauthenticated => "archive_export_unauthenticated"
  | overwriteRejected => "archive_export_overwrite_rejected"
  | notFound => "archive_export_not_found"
  | serverError _ => "archive_export_server_error"
  | unexpected _ => "archive_export_unexpected_status"
  | responseRead => "archive_export_response_read_failed"

/-- It may go away when the put is tried again. -/
def isRetriable : S3BackendError → Bool
  | network | serverError _ => true
  | _ => false

/-- `From<S3BackendError> for ArchiveBackendError`. -/
def toBackendError (e : S3BackendError) : ArchiveBackendError :=
  .backendFailed e.asErrorCode

end S3BackendError

/-! ### One object -/

/-- Where `put_object_bytes` is: before a request to put the object or before one to read it, after
a number of repetitions. -/
inductive PutPhase where
  | putting (attempt : ℕ)
  | verifying (attempt : ℕ)
  deriving DecidableEq

/-- What follows an answer. -/
inductive PutProgress where
  | next (phase : PutPhase)
  | done (result : Except ArchiveBackendError Unit)

/-- `run_with_backoff` gives up: the error is not a passing one, or the repetitions are used up. -/
def givesUp (maxRetries attempt : ℕ) (e : S3BackendError) : Bool :=
  !e.isRetriable || decide (maxRetries ≤ attempt)

/-- The answer to a request that puts the object. -/
def afterPut (maxRetries attempt : ℕ) : Except S3BackendError Unit → PutProgress
  | .ok () => .done (.ok ())
  | .error e =>
    if givesUp maxRetries attempt e then
      if e = .overwriteRejected then .next (.verifying 0) else .done (.error e.toBackendError)
    else .next (.putting (attempt + 1))

/-- The answer to a request that reads the object under the key. -/
def afterGet (maxRetries attempt : ℕ) (expected : List UInt8) :
    Except S3BackendError (Option (List UInt8)) → PutProgress
  | .ok (some bytes) =>
    if bytes = expected then .done (.ok ())
    else .done (.error (.backendFailed "archive_export_content_mismatch"))
  | .ok none => .done (.error (.backendFailed "archive_export_not_found"))
  | .error e =>
    if givesUp maxRetries attempt e then .done (.error e.toBackendError)
    else .next (.verifying (attempt + 1))

theorem afterPut_eq_ok {maxRetries attempt : ℕ} {answer : Except S3BackendError Unit}
    (h : afterPut maxRetries attempt answer = .done (.ok ())) : answer = .ok () := by
  unfold afterPut at h
  split at h
  · rfl
  · split_ifs at h
    cases h

theorem afterGet_eq_ok {maxRetries attempt : ℕ} {expected : List UInt8}
    {answer : Except S3BackendError (Option (List UInt8))}
    (h : afterGet maxRetries attempt expected answer = .done (.ok ())) :
    answer = .ok (some expected) := by
  unfold afterGet at h
  split at h
  · split_ifs at h with heq
    · rw [heq]
    · cases h
  · cases h
  · split_ifs at h
    cases h

/-! ### Calls -/

/-- `ArchivePutOrQueueOutcome`. -/
inductive ArchivePutOrQueueOutcome where
  | putSucceeded
  | queued
  deriving DecidableEq

/-- `ResendArchiveSummary`. -/
structure ResendArchiveSummary where
  attempted : ℕ
  sent : ℕ
  failed : ℕ
  deriving DecidableEq

/-- The calls that put an object, with what is left of a resend. -/
inductive PutCall where
  | putObject (key : ArchiveObjectKey) (payload : List UInt8)
  | putObjectOrEnqueue (key : ArchiveObjectKey) (payload : List UInt8)
  | resend (queued : QueuedArchiveObject) (rest : List QueuedArchiveObject)
      (summary : ResendArchiveSummary)

namespace PutCall

/-- Where the object is put. -/
def key : PutCall → ArchiveObjectKey
  | putObject key _ => key
  | putObjectOrEnqueue key _ => key
  | resend queued _ _ => queued.key

/-- What is put there. -/
def payload : PutCall → List UInt8
  | putObject _ payload => payload
  | putObjectOrEnqueue _ payload => payload
  | resend queued _ _ => queued.payload

end PutCall

/-- What a call returned. -/
inductive ArchiveReturn where
  | putObject (key : ArchiveObjectKey) (payload : List UInt8)
      (result : Except ArchiveBackendError Unit)
  | putObjectOrEnqueue (key : ArchiveObjectKey) (payload : List UInt8)
      (result : Except ArchiveBackendError ArchivePutOrQueueOutcome)
  | resendQueuedObjects (result : Except ArchiveBackendError ResendArchiveSummary)

/-- Where a task is: before a request, before it writes to the queue or reads it. -/
inductive ArchiveTask where
  | idle
  | putting (call : PutCall) (phase : PutPhase)
  | enqueueing (key : ArchiveObjectKey) (payload : List UInt8)
  | reading
  | marking (queued : QueuedArchiveObject) (rest : List QueuedArchiveObject)
      (summary : ResendArchiveSummary)

/-- The queue knows the errors by their codes. -/
def retriableArchiveBackendCode (code : String) : Bool :=
  code == "archive_export_network_failed" || code == "archive_export_server_error"

/-- The loop of `resend_queued_objects`: the next object, or the summary. -/
def resendNext (rest : List QueuedArchiveObject) (summary : ResendArchiveSummary) :
    ArchiveTask × List ArchiveReturn :=
  match rest with
  | [] => (.idle, [.resendQueuedObjects (.ok summary)])
  | queued :: rest => (.putting (.resend queued rest summary) (.putting 0), [])

/-- What a call does when `put_object_bytes` has returned. -/
def PutCall.finish : PutCall → Except ArchiveBackendError Unit → ArchiveTask × List ArchiveReturn
  | putObject key payload, result => (.idle, [.putObject key payload result])
  | putObjectOrEnqueue key payload, .ok () =>
    (.idle, [.putObjectOrEnqueue key payload (.ok .putSucceeded)])
  | putObjectOrEnqueue key payload, .error (.backendFailed code) =>
    if retriableArchiveBackendCode code then (.enqueueing key payload, [])
    else (.idle, [.putObjectOrEnqueue key payload (.error (.backendFailed code))])
  | putObjectOrEnqueue key payload, .error e =>
    (.idle, [.putObjectOrEnqueue key payload (.error e)])
  | resend queued rest summary, .ok () => (.marking queued rest summary, [])
  | resend _ rest summary, .error _ =>
    resendNext rest { summary with failed := summary.failed + 1 }

/-- The task goes on, or the call returns. -/
def PutCall.proceed (call : PutCall) : PutProgress → ArchiveTask × List ArchiveReturn
  | .next phase => (.putting call phase, [])
  | .done result => call.finish result

end Mipsorcu
