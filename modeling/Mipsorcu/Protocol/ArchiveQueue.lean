import Mipsorcu.Archive.Backend
import Mipsorcu.Foundation.Transition

/-!
# The archive with its queue

The archive is a map that is written once under each key. Any number of tasks put objects into it,
queue what they could not put and resend what was queued, in any interleaving. A request may take
effect although it fails, at once or later.

Nothing is lost and nothing is replaced (`archive_safe`): what was put is in the archive, what was
queued is in the archive or still pending, only what is in the archive is marked as sent, and what
is in the archive stays as it is.
-/

namespace Mipsorcu

/-! ### The system -/

/-- The archive, the requests made so far, the records of the queue, the tasks, and what calls have
returned. -/
structure ArchiveState (ι : Type) where
  store : ArchiveObjectKey → Option (List UInt8)
  requests : List (ArchiveObjectKey × List UInt8)
  records : List QueueRecord
  task : ι → ArchiveTask
  returned : List ArchiveReturn

/-- What can happen. -/
inductive ArchiveEvent (ι : Type) where
  | putObject (t : ι) (key : ArchiveObjectKey) (package : ArchiveExportPackage)
  | putObjectOrEnqueue (t : ι) (key : ArchiveObjectKey) (package : ArchiveExportPackage)
  | resendQueuedObjects (t : ι)
  /-- A request to put an object, whether it takes effect now, and its answer. -/
  | putRequest (t : ι) (takesEffect : Bool) (answer : Except S3BackendError Unit)
  /-- A request to read an object: it fails, or answers with what is under the key. -/
  | getRequest (t : ι) (answer : Except S3BackendError Unit)
  /-- A request made earlier takes effect. -/
  | lateEffect (key : ArchiveObjectKey) (payload : List UInt8)
  /-- The record of an object is written to the queue, at a time, or not. -/
  | appendPending (t : ι) (written : Except ArchiveBackendError String)
  | readQueue (t : ι) (joined : Except ArchiveBackendError Unit)
  | markSent (t : ι) (written : Except ArchiveBackendError String)

namespace ArchiveState

variable {ι : Type} [DecidableEq ι]

/-- Nothing is stored, queued or running. -/
def init (ι : Type) : ArchiveState ι where
  store _ := none
  requests := []
  records := []
  task _ := .idle
  returned := []

/-- The text of the queue file. -/
def queueFile (s : ArchiveState ι) : List Char :=
  QueueRecord.format.render s.records

/-- A task goes on, after it may have returned from a call. -/
def proceed (s : ArchiveState ι) (t : ι) (next : ArchiveTask × List ArchiveReturn) :
    ArchiveState ι :=
  { s with task := Function.update s.task t next.1, returned := s.returned ++ next.2 }

/-- An object is written under a key that is free. -/
def write (s : ArchiveState ι) (key : ArchiveObjectKey) (payload : List UInt8) : ArchiveState ι :=
  { s with store := Function.update s.store key (some payload) }

/-- A request to put the object of a call is made. -/
def request (s : ArchiveState ι) (call : PutCall) : ArchiveState ι :=
  { s with requests := (call.key, call.payload) :: s.requests }

/-- The record is added to the queue. -/
def append (s : ArchiveState ι) (record : QueueRecord) : ArchiveState ι :=
  { s with records := s.records ++ [record] }

section

variable (sha256 : List UInt8 → LedgerHash) (maxRetries : ℕ)

/-- A task that is idle starts a call. -/
def start (s : ArchiveState ι) (t : ι) (task : ArchiveTask) : Option (ArchiveState ι) :=
  match s.task t with
  | .idle => some (s.proceed t (task, []))
  | _ => none

/-- The archive after a request to put an object: it takes effect only if the key is free, and its
answer is a success only if it takes effect. -/
def answerPut (s : ArchiveState ι) (call : PutCall) (takesEffect : Bool)
    (answer : Except S3BackendError Unit) : Option (ArchiveState ι) :=
  match takesEffect, answer with
  | true, _ => if s.store call.key = none then
      some ((s.request call).write call.key call.payload) else none
  | false, .error _ => some (s.request call)
  | false, .ok () => none

/-- One event. -/
def step (s : ArchiveState ι) : ArchiveEvent ι → Option (ArchiveState ι)
  | .putObject t key package =>
    s.start t (.putting (.putObject key package.toJsonBytes) (.putting 0))
  | .putObjectOrEnqueue t key package =>
    s.start t (.putting (.putObjectOrEnqueue key package.toJsonBytes) (.putting 0))
  | .resendQueuedObjects t => s.start t .reading
  | .putRequest t takesEffect answer =>
    match s.task t with
    | .putting call (.putting attempt) => (s.answerPut call takesEffect answer).map fun s =>
      s.proceed t (call.proceed (afterPut maxRetries attempt answer))
    | _ => none
  | .getRequest t answer =>
    match s.task t with
    | .putting call (.verifying attempt) =>
      some (s.proceed t (call.proceed (afterGet maxRetries attempt call.payload
        (answer.map fun () => s.store call.key))))
    | _ => none
  -- a request that was given up may still be executed, but not over an object
  | .lateEffect key payload =>
    if (key, payload) ∈ s.requests ∧ s.store key = none then some (s.write key payload) else none
  | .appendPending t written =>
    match s.task t with
    | .enqueueing key payload => match written with
      | .ok queuedAt => some ((s.append (.pending sha256 key payload queuedAt)).proceed t
        (.idle, [.putObjectOrEnqueue key payload (.ok .queued)]))
      | .error e => some (s.proceed t (.idle, [.putObjectOrEnqueue key payload (.error e)]))
    | _ => none
  | .readQueue t joined =>
    match s.task t with
    | .reading => match joined with
      | .ok () => match pendingObjects sha256 s.queueFile with
        | .ok pending => some (s.proceed t (resendNext pending ⟨pending.length, 0, 0⟩))
        | .error e =>
          some (s.proceed t (.idle, [.resendQueuedObjects (.error e.toBackendError)]))
      | .error e => some (s.proceed t (.idle, [.resendQueuedObjects (.error e)]))
    | _ => none
  | .markSent t written =>
    match s.task t with
    | .marking queued rest summary => match written with
      | .ok queuedAt => some ((s.append (.sent queued queuedAt)).proceed t
        (resendNext rest { summary with sent := summary.sent + 1 }))
      | .error _ => some (s.proceed t
        (resendNext rest { summary with failed := summary.failed + 1 }))
    | _ => none

end

end ArchiveState

/-! ### What is kept -/

namespace ArchiveState

variable {ι : Type} {s s' : ArchiveState ι}

/-- A call for the object has returned that it is queued. -/
def WasQueued (s : ArchiveState ι) (key : ArchiveObjectKey) (payload : List UInt8) : Prop :=
  .putObjectOrEnqueue key payload (.ok .queued) ∈ s.returned

/-- Nothing that is in the archive, returned or recorded is lost or changed. -/
structure Le (s s' : ArchiveState ι) : Prop where
  store : ∀ {key bytes}, s.store key = some bytes → s'.store key = some bytes
  returned : s.returned ⊆ s'.returned
  records : s.records ⊆ s'.records

theorem Le.trans {s'' : ArchiveState ι} (h : Le s s') (h' : Le s' s'') : Le s s'' where
  store hkey := h'.store (h.store hkey)
  returned := List.Subset.trans h.returned h'.returned
  records := List.Subset.trans h.records h'.records

section

variable (sha256 : List UInt8 → LedgerHash) (payloads : Set (List UInt8))

/-- An object that the queue may return. -/
def QueuedObject (s : ArchiveState ι) (q : QueuedArchiveObject) : Prop :=
  ∃ key, ∃ payload ∈ payloads, q = .of sha256 key payload ∧ s.WasQueued key payload

/-- What a task that puts an object works on. -/
def CallOk (s : ArchiveState ι) : PutCall → Prop
  | .putObject _ _ => True
  | .putObjectOrEnqueue _ payload => payload ∈ payloads
  | .resend queued rest _ => ∀ q ∈ queued :: rest, s.QueuedObject sha256 payloads q

/-- What a task works on; an object that is about to be marked is in the archive. -/
def TaskOk (s : ArchiveState ι) : ArchiveTask → Prop
  | .idle => True
  | .putting call _ => s.CallOk sha256 payloads call
  | .enqueueing _ payload => payload ∈ payloads
  | .reading => True
  | .marking queued rest _ => (∀ q ∈ queued :: rest, s.QueuedObject sha256 payloads q) ∧
    s.store queued.key = some queued.payload

/-- What a call that returned has done. -/
def ReturnOk (s : ArchiveState ι) : ArchiveReturn → Prop
  | .putObject key payload (.ok ()) => s.store key = some payload
  | .putObjectOrEnqueue key payload (.ok .putSucceeded) => s.store key = some payload
  | .putObjectOrEnqueue key payload (.ok .queued) =>
    ∃ queuedAt, QueueRecord.pending sha256 key payload queuedAt ∈ s.records
  | _ => True

/-- A record of an object that was queued; if it says so, the object is in the archive. -/
def RecordOk (s : ArchiveState ι) (r : QueueRecord) : Prop :=
  ∃ status key payload queuedAt, payload ∈ payloads ∧
    r = .ofObject sha256 status key payload queuedAt ∧ s.WasQueued key payload ∧
    (status = .sent → s.store key = some payload)

/-- What holds of every reachable state. -/
structure Inv (s : ArchiveState ι) : Prop where
  task : ∀ t, s.TaskOk sha256 payloads (s.task t)
  returned : ∀ r ∈ s.returned, s.ReturnOk sha256 r
  records : ∀ r ∈ s.records, s.RecordOk sha256 payloads r

end

variable {sha256 : List UInt8 → LedgerHash} {payloads : Set (List UInt8)}

theorem QueuedObject.mono (hle : Le s s') {q : QueuedArchiveObject}
    (h : s.QueuedObject sha256 payloads q) : s'.QueuedObject sha256 payloads q := by
  obtain ⟨key, payload, hpayload, rfl, hqueued⟩ := h
  exact ⟨key, payload, hpayload, rfl, hle.returned hqueued⟩

theorem CallOk.mono (hle : Le s s') {call : PutCall} (h : s.CallOk sha256 payloads call) :
    s'.CallOk sha256 payloads call := by
  cases call with
  | putObject key payload => trivial
  | putObjectOrEnqueue key payload => exact h
  | resend queued rest summary => exact fun q hq => (h q hq).mono hle

theorem TaskOk.mono (hle : Le s s') {task : ArchiveTask} (h : s.TaskOk sha256 payloads task) :
    s'.TaskOk sha256 payloads task := by
  cases task with
  | idle => trivial
  | putting call phase => exact CallOk.mono hle h
  | enqueueing key payload => exact h
  | reading => trivial
  | marking queued rest summary => exact ⟨fun q hq => (h.1 q hq).mono hle, hle.store h.2⟩

theorem ReturnOk.mono (hle : Le s s') {r : ArchiveReturn} (h : s.ReturnOk sha256 r) :
    s'.ReturnOk sha256 r := by
  unfold ReturnOk at h ⊢
  split at h
  · exact hle.store h
  · exact hle.store h
  · obtain ⟨queuedAt, hmem⟩ := h
    exact ⟨queuedAt, hle.records hmem⟩
  · trivial

theorem RecordOk.mono (hle : Le s s') {r : QueueRecord} (h : s.RecordOk sha256 payloads r) :
    s'.RecordOk sha256 payloads r := by
  obtain ⟨status, key, payload, queuedAt, hpayload, rfl, hqueued, hsent⟩ := h
  exact ⟨status, key, payload, queuedAt, hpayload, rfl, hle.returned hqueued,
    fun hstatus => hle.store (hsent hstatus)⟩

/-! ### One step -/

/-- The task that goes on with the queue is in order. -/
theorem resendNext_ok {rest : List QueuedArchiveObject} (summary : ResendArchiveSummary)
    (h : ∀ q ∈ rest, s.QueuedObject sha256 payloads q) :
    s.TaskOk sha256 payloads (resendNext rest summary).1 ∧
      ∀ r ∈ (resendNext rest summary).2, s.ReturnOk sha256 r := by
  cases rest with
  | nil => simp [resendNext, TaskOk, ReturnOk]
  | cons queued rest => exact ⟨h, by simp [resendNext]⟩

/-- A call goes on correctly, if it takes an object for put only when it is in the archive. -/
theorem proceed_ok {call : PutCall} {progress : PutProgress} (hcall : s.CallOk sha256 payloads call)
    (hput : progress = .done (.ok ()) → s.store call.key = some call.payload) :
    s.TaskOk sha256 payloads (call.proceed progress).1 ∧
      ∀ r ∈ (call.proceed progress).2, s.ReturnOk sha256 r := by
  rcases progress with phase | result
  · exact ⟨hcall, by simp [PutCall.proceed]⟩
  · rw [PutCall.proceed]
    cases call with
    | putObject key payload =>
      refine ⟨trivial, List.forall_mem_singleton.mpr ?_⟩
      rcases result with e | u
      · trivial
      · exact hput rfl
    -- only a retriable failure is queued
    | putObjectOrEnqueue key payload =>
      rcases result with e | u
      · cases e with
        | backendFailed code =>
          rw [PutCall.finish]
          split_ifs
          · exact ⟨hcall, by simp⟩
          · exact ⟨trivial, List.forall_mem_singleton.mpr trivial⟩
        | _ => exact ⟨trivial, List.forall_mem_singleton.mpr trivial⟩
      · exact ⟨trivial, List.forall_mem_singleton.mpr (hput rfl)⟩
    | resend queued rest summary =>
      rcases result with e | u
      · exact resendNext_ok _ fun q hq => hcall q (List.mem_cons_of_mem _ hq)
      · exact ⟨⟨hcall, hput rfl⟩, by simp [PutCall.finish]⟩

theorem le_write {key : ArchiveObjectKey} {payload : List UInt8} (hfree : s.store key = none) :
    Le s (s.write key payload) where
  store {key' bytes} hkey' := by
    have hne : key' ≠ key := by
      rintro rfl
      rw [hfree] at hkey'
      cases hkey'
    simpa [write, Function.update_apply, hne] using hkey'
  returned := List.Subset.refl _
  records := List.Subset.refl _

theorem le_append (record : QueueRecord) : Le s (s.append record) where
  store hkey := hkey
  returned := List.Subset.refl _
  records := List.subset_append_left _ _

/-- A request leaves the tasks alone; if it succeeds, the object is in the archive. -/
theorem answerPut_eq_some {call : PutCall} {takesEffect : Bool}
    {answer : Except S3BackendError Unit} (h : s.answerPut call takesEffect answer = some s') :
    s'.task = s.task ∧ s'.returned = s.returned ∧ s'.records = s.records ∧ Le s s' ∧
      (answer = .ok () → s'.store call.key = some call.payload) := by
  unfold answerPut at h
  split at h
  · split_ifs at h with hfree
    cases h
    refine ⟨rfl, rfl, rfl, ?_, fun _ => by simp [write]⟩
    exact ⟨(le_write hfree).store, List.Subset.refl _, List.Subset.refl _⟩
  · cases h
    exact ⟨rfl, rfl, rfl, ⟨id, List.Subset.refl _, List.Subset.refl _⟩, by rintro ⟨⟩⟩
  · cases h

/-- Every record is of one of the payloads. -/
theorem Inv.isOf (hinv : s.Inv sha256 payloads) : ∀ r ∈ s.records, r.IsOf sha256 payloads := by
  intro r hr
  obtain ⟨status, key, payload, queuedAt, hpayload, rfl, -, -⟩ := hinv.records r hr
  exact ⟨status, key, payload, queuedAt, hpayload, rfl⟩

/-- The objects that the queue returns were queued. -/
theorem Inv.queuedObject (hinj : Set.InjOn sha256 payloads) (hinv : s.Inv sha256 payloads)
    {pending : List QueuedArchiveObject} (h : pendingObjects sha256 s.queueFile = .ok pending) :
    ∀ q ∈ pending, s.QueuedObject sha256 payloads q := by
  obtain ⟨objects, hobjects, -, hof, hstatus⟩ := pendingObjects_render hinj hinv.isOf
  obtain rfl : objects = pending := Except.ok.inj (hobjects.symm.trans h)
  intro q hq
  obtain ⟨key, payload, hpayload, rfl⟩ := hof q hq
  -- the record that makes it pending is one of an object that was queued
  obtain ⟨r, hfind, -⟩ := Option.map_eq_some_iff.mp ((hstatus key payload).mp hq)
  have hcheck := List.find?_some hfind
  obtain ⟨status, key', payload', queuedAt, -, rfl, hqueued, -⟩ :=
    hinv.records r (List.mem_reverse.mp (List.mem_of_find?_eq_some hfind))
  simp only [QueueRecord.ofObject, Bool.and_eq_true, beq_iff_eq] at hcheck
  obtain ⟨rfl, rfl⟩ : key' = key ∧ payload' = payload :=
    ⟨ArchiveObjectKey.ext hcheck.1, hexText_injective hcheck.2⟩
  exact ⟨key', payload', hpayload, rfl, hqueued⟩

/-- A step that changes no task and returns from no call keeps the invariant. -/
theorem Inv.of_le (hinv : s.Inv sha256 payloads) (hle : Le s s') (htasks : s'.task = s.task)
    (hreturned : s'.returned = s.returned)
    (hrecords : ∀ r ∈ s'.records, r ∈ s.records ∨ s'.RecordOk sha256 payloads r) :
    s'.Inv sha256 payloads where
  task t := htasks ▸ (hinv.task t).mono hle
  returned r hr := (hinv.returned r (hreturned ▸ hr)).mono hle
  records r hr := (hrecords r hr).elim (fun hold => (hinv.records r hold).mono hle) id

section

variable [DecidableEq ι] {t : ι}

/-- A step of one task keeps the invariant: the other tasks, the earlier returns and records are
as before. -/
theorem Inv.proceed (hinv : s.Inv sha256 payloads) {next : ArchiveTask × List ArchiveReturn}
    (htasks : s'.task = s.task) (hreturned : s'.returned = s.returned)
    (hle : Le s (s'.proceed t next))
    (hrecords : ∀ r ∈ s'.records, r ∈ s.records ∨ (s'.proceed t next).RecordOk sha256 payloads r)
    (htask : (s'.proceed t next).TaskOk sha256 payloads next.1)
    (hreturns : ∀ r ∈ next.2, (s'.proceed t next).ReturnOk sha256 r) :
    (s'.proceed t next).Inv sha256 payloads where
  task u := by
    have hu : (s'.proceed t next).task u = if u = t then next.1 else s.task u := by
      simp [ArchiveState.proceed, Function.update_apply, htasks]
    rw [hu]
    split_ifs
    · exact htask
    · exact (hinv.task u).mono hle
  returned r hr := by
    rcases List.mem_append.mp hr with hold | hnew
    · exact (hinv.returned r (hreturned ▸ hold)).mono hle
    · exact hreturns r hnew
  records r hr := by
    rcases hrecords r hr with hold | hnew
    · exact (hinv.records r hold).mono hle
    · exact hnew

theorem le_proceed (next : ArchiveTask × List ArchiveReturn) : Le s (s.proceed t next) where
  store hkey := hkey
  returned := List.subset_append_left _ _
  records := List.Subset.refl _

/-- A step in which a task only goes on. -/
theorem Inv.proceed_self (hinv : s.Inv sha256 payloads) {next : ArchiveTask × List ArchiveReturn}
    (h : s.TaskOk sha256 payloads next.1 ∧ ∀ r ∈ next.2, s.ReturnOk sha256 r) :
    Le s (s.proceed t next) ∧ (s.proceed t next).Inv sha256 payloads := by
  have hle := le_proceed (s := s) (t := t) next
  exact ⟨hle, hinv.proceed rfl rfl hle (fun _ => .inl) (h.1.mono hle)
    fun r hr => (h.2 r hr).mono hle⟩

/-- A step in which a task returns from a call without having done anything. -/
theorem Inv.proceed_idle (hinv : s.Inv sha256 payloads) {r : ArchiveReturn}
    (h : s.ReturnOk sha256 r) :
    Le s (s.proceed t (.idle, [r])) ∧ (s.proceed t (.idle, [r])).Inv sha256 payloads :=
  hinv.proceed_self ⟨trivial, List.forall_mem_singleton.mpr h⟩

/-- Packages are put only with payloads among the given ones. -/
def PayloadsAmong (payloads : Set (List UInt8)) : ArchiveState ι → ArchiveEvent ι → Prop
  | _, .putObject _ _ package => package.toJsonBytes ∈ payloads
  | _, .putObjectOrEnqueue _ _ package => package.toJsonBytes ∈ payloads
  | _, _ => True

/-- A new call keeps the invariant. -/
theorem Inv.start (hinv : s.Inv sha256 payloads) {task : ArchiveTask}
    (h : s.start t task = some s') (htask : s.TaskOk sha256 payloads task) :
    Le s s' ∧ s'.Inv sha256 payloads := by
  unfold ArchiveState.start at h
  split at h <;> cases h
  exact hinv.proceed_self ⟨htask, by simp⟩

/-- **Each step keeps the invariant.** -/
theorem Inv.step (hinj : Set.InjOn sha256 payloads) {maxRetries : ℕ} (hinv : s.Inv sha256 payloads)
    {e : ArchiveEvent ι} (hguard : PayloadsAmong payloads s e)
    (h : s.step sha256 maxRetries e = some s') : Le s s' ∧ s'.Inv sha256 payloads := by
  cases e with
  | putObject t key package => exact hinv.start h trivial
  | putObjectOrEnqueue t key package => exact hinv.start h hguard
  | resendQueuedObjects t => exact hinv.start h trivial
  | putRequest t takesEffect answer =>
    have htask := hinv.task t
    simp only [ArchiveState.step] at h
    split at h
    · rename_i call attempt heq
      rw [heq] at htask
      obtain ⟨s₁, hs₁, rfl⟩ := Option.map_eq_some_iff.mp h
      obtain ⟨htasks, hreturned, hrecords, hle, hput⟩ := answerPut_eq_some hs₁
      have hinv₁ := hinv.of_le hle htasks hreturned fun r hr => .inl (hrecords ▸ hr)
      have hdone : afterPut maxRetries attempt answer = .done (.ok ()) →
          s₁.store call.key = some call.payload := fun hdone => hput (afterPut_eq_ok hdone)
      obtain ⟨hle', hinv'⟩ := hinv₁.proceed_self (t := t)
        (proceed_ok (CallOk.mono hle htask) hdone)
      exact ⟨hle.trans hle', hinv'⟩
    · cases h
  | getRequest t answer =>
    have htask := hinv.task t
    simp only [ArchiveState.step] at h
    split at h
    · rename_i call attempt heq
      rw [heq] at htask
      cases h
      refine hinv.proceed_self (proceed_ok htask fun hdone => ?_)
      have hanswer := afterGet_eq_ok hdone
      rcases answer with e | u
      · cases hanswer
      · exact Except.ok.inj hanswer
    · cases h
  | lateEffect key payload =>
    simp only [ArchiveState.step] at h
    split_ifs at h with hfree
    cases h
    exact ⟨le_write hfree.2, hinv.of_le (le_write hfree.2) rfl rfl fun _ => .inl⟩
  | appendPending t written =>
    have htask := hinv.task t
    simp only [ArchiveState.step] at h
    split at h
    · rename_i key payload heq
      rw [heq] at htask
      split at h
      · rename_i queuedAt
        cases h
        -- the record and the return of the call come in one step
        have hle := (le_append (s := s) (.pending sha256 key payload queuedAt)).trans
          (le_proceed (t := t) (.idle, [.putObjectOrEnqueue key payload (.ok .queued)]))
        refine ⟨hle, hinv.proceed rfl rfl hle (fun r hr => ?_) trivial ?_⟩
        · rcases List.mem_append.mp hr with hold | hnew
          · exact .inl hold
          · rw [List.mem_singleton.mp hnew]
            exact .inr ⟨.pending, key, payload, queuedAt, htask, rfl,
              List.mem_append_right _ (List.mem_singleton_self _), by rintro ⟨⟩⟩
        · exact List.forall_mem_singleton.mpr
            ⟨queuedAt, List.mem_append_right _ (List.mem_singleton_self _)⟩
      · cases h
        exact hinv.proceed_idle trivial
    · cases h
  | readQueue t joined =>
    simp only [ArchiveState.step] at h
    split at h
    · split at h
      · split at h
        · rename_i pending hpending
          cases h
          exact hinv.proceed_self (resendNext_ok _ (hinv.queuedObject hinj hpending))
        · cases h
          exact hinv.proceed_idle trivial
      · cases h
        exact hinv.proceed_idle trivial
    · cases h
  | markSent t written =>
    have htask := hinv.task t
    simp only [ArchiveState.step] at h
    split at h
    · rename_i queued rest summary heq
      rw [heq] at htask
      obtain ⟨hobjects, hstored⟩ := htask
      obtain ⟨hqueued, hrest⟩ := List.forall_mem_cons.mp hobjects
      split at h
      · rename_i queuedAt
        cases h
        have hle := le_append (s := s) (.sent queued queuedAt)
        have hinv₁ := hinv.of_le hle rfl rfl fun r hr => by
          rcases List.mem_append.mp hr with hold | hnew
          · exact .inl hold
          · rw [List.mem_singleton.mp hnew]
            obtain ⟨key, payload, hpayload, rfl, hreturned⟩ := hqueued
            exact .inr ⟨.sent, key, payload, queuedAt, hpayload, rfl, hreturned, fun _ => hstored⟩
        obtain ⟨hle', hinv'⟩ := hinv₁.proceed_self (t := t)
          (resendNext_ok { summary with sent := summary.sent + 1 }
            fun q hq => (hrest q hq).mono hle)
        exact ⟨hle.trans hle', hinv'⟩
      · cases h
        exact hinv.proceed_self (resendNext_ok _ hrest)
    · cases h

end

/-! ### All runs -/

/-- What the archive and its queue promise. -/
structure Safe (sha256 : List UInt8 → LedgerHash) (s : ArchiveState ι) : Prop where
  putObject : ∀ key payload, .putObject key payload (.ok ()) ∈ s.returned →
    s.store key = some payload
  putSucceeded : ∀ key payload, .putObjectOrEnqueue key payload (.ok .putSucceeded) ∈ s.returned →
    s.store key = some payload
  queued : ∀ key payload, s.WasQueued key payload → s.store key = some payload ∨
    ∃ objects, pendingObjects sha256 s.queueFile = .ok objects ∧ .of sha256 key payload ∈ objects
  sent : ∀ r ∈ s.records, r.deliveryStatus = .sent → ∃ key payload,
    r.key = key.text ∧ r.payloadHex = hexText payload ∧ s.store key = some payload
  pending : ∃ objects, pendingObjects sha256 s.queueFile = .ok objects ∧ objects.Nodup ∧
    (∀ q ∈ objects, s.WasQueued q.key q.payload) ∧
    ∀ key payload, (∃ q ∈ objects, q.key = key ∧ q.payload = payload) ↔
      objectStatus s.records key payload = some .pending

/-- The invariant makes a state safe. -/
theorem Inv.safe (hinj : Set.InjOn sha256 payloads) (hinv : s.Inv sha256 payloads) :
    s.Safe sha256 where
  putObject _ _ h := hinv.returned _ h
  putSucceeded _ _ h := hinv.returned _ h
  queued key payload h := by
    obtain ⟨queuedAt, hmem⟩ := hinv.returned _ h
    obtain ⟨_, key', payload', _, hpayload, hrecord, -⟩ := hinv.records _ hmem
    obtain rfl : payload = payload' :=
      hexText_injective (congrArg QueueRecord.payloadHex hrecord)
    -- the last record of the object says whether it is pending or in the archive
    obtain ⟨last, hlast⟩ : ∃ last, ReplayLog.last? QueueRecord.queueId s.records
        (objectQueueId sha256 key payload) = some last := ReplayLog.exists_last? hmem
    obtain ⟨status, key'', payload'', _, hpayload'', rfl, -, hsent⟩ :=
      hinv.records _ (ReplayLog.mem_of_last? hlast)
    have hid := ReplayLog.key_of_last? hlast
    obtain ⟨rfl, hhash⟩ := objectQueueId_inj hid
    obtain rfl := hinj hpayload'' hpayload hhash
    cases status with
    | sent => exact .inl (hsent rfl)
    | pending =>
      obtain ⟨objects, hobjects, -, -, hstatus⟩ := pendingObjects_render hinj hinv.isOf
      refine .inr ⟨objects, hobjects, (hstatus _ _).mpr ?_⟩
      rw [objectStatus_eq hinj hinv.isOf hpayload]
      exact congrArg (Option.map QueueRecord.deliveryStatus) hlast
  sent r hr hstatus := by
    obtain ⟨status, key, payload, queuedAt, -, rfl, -, hsent⟩ := hinv.records r hr
    exact ⟨key, payload, rfl, rfl, hsent hstatus⟩
  pending := by
    obtain ⟨objects, hobjects, hnodup, hof, hstatus⟩ := pendingObjects_render hinj hinv.isOf
    refine ⟨objects, hobjects, hnodup, fun q hq => ?_, fun key payload => ?_⟩
    · obtain ⟨key, payload, -, rfl, hqueued⟩ := hinv.queuedObject hinj hobjects q hq
      exact hqueued
    · rw [← hstatus key payload]
      constructor
      · rintro ⟨q, hq, rfl, rfl⟩
        obtain ⟨key, payload, -, rfl⟩ := hof q hq
        exact hq
      · intro hq
        exact ⟨_, hq, rfl, rfl⟩

theorem inv_init : (init ι).Inv sha256 payloads where
  task _ := trivial
  returned := by simp [init]
  records := by simp [init]

end ArchiveState

open ArchiveState in
/-- **The archive and its queue lose and replace nothing.** In every state that can be reached, for
any number of tasks and any outcomes of their requests, among payloads without SHA-256 collisions;
and what is in the archive then stays in it unchanged. -/
theorem archive_safe {ι : Type} [DecidableEq ι] (sha256 : List UInt8 → LedgerHash) (maxRetries : ℕ)
    (payloads : Set (List UInt8)) (hinj : Set.InjOn sha256 payloads) (s : ArchiveState ι)
    (h : Transition.ReachableWhere (step sha256 maxRetries) (PayloadsAmong payloads) (init ι) s) :
    s.Safe sha256 ∧ ∀ s', Transition.ReachableWhere (step sha256 maxRetries)
      (PayloadsAmong payloads) s s' →
      ∀ key bytes, s.store key = some bytes → s'.store key = some bytes := by
  have hinv : s.Inv sha256 payloads := by
    refine Transition.invariant (Inv sha256 payloads) ?_ inv_init h
    rintro a b ha ⟨e, hguard, hstep⟩
    exact (ha.step hinj hguard hstep).2
  refine ⟨hinv.safe hinj, fun s' hs' => ?_⟩
  have hle : Le s s' ∧ s'.Inv sha256 payloads := by
    refine Transition.invariant (fun b => Le s b ∧ b.Inv sha256 payloads) ?_
      ⟨⟨id, List.Subset.refl _, List.Subset.refl _⟩, hinv⟩ hs'
    rintro a b ⟨hle, ha⟩ ⟨e, hguard, hstep⟩
    obtain ⟨hle', hb⟩ := ha.step hinj hguard hstep
    exact ⟨hle.trans hle', hb⟩
  exact fun key bytes hkey => hle.1.store hkey

/-! ### A run -/

/-- A package with an empty digest. -/
def samplePackage : ArchiveExportPackage where
  digestHashHex := "00"
  sbcSignatureHex := "00"
  signatureKeyVersion := 1
  digestCanonical := .object []

/-- SHA-256 on the bytes of the package. -/
def sampleSha256 (bytes : List UInt8) : LedgerHash :=
  if bytes = samplePackage.toJsonBytes then
    .ofNat _ 0x8157f198d5708f6a1eb4e6a560fee11dceeb281bb42b1af2e170d6ff18fe84c0
  else .zero ledgerHashLength

/-- Where the digest of May is put. -/
def sampleObjectKey : ArchiveObjectKey :=
  ⟨"digests/2026-05/digest.json", by decide, by decide +kernel⟩

/-- The package was put, but the answer got lost and the object was queued. -/
def sampleArchive : ArchiveState Unit :=
  let call := PutCall.putObjectOrEnqueue sampleObjectKey samplePackage.toJsonBytes
  (((((ArchiveState.init Unit).proceed () (.putting call (.putting 0), [])).request call).write
    call.key call.payload).proceed () (.enqueueing call.key call.payload, [])).append
      (.pending sampleSha256 call.key call.payload "2026-06-01T00:00:00Z") |>.proceed ()
        (.idle, [.putObjectOrEnqueue call.key call.payload (.ok .queued)])

open ArchiveState in
/-- An instance: a request that took effect but failed, after which the object is queued. -/
theorem archive_safe_sampleArchive :
    sampleArchive.WasQueued sampleObjectKey samplePackage.toJsonBytes ∧
      sampleArchive.Safe sampleSha256 := by
  have hreach : Transition.ReachableWhere (step sampleSha256 0)
      (PayloadsAmong {samplePackage.toJsonBytes}) (init Unit) sampleArchive :=
    .tail (.tail (.tail .refl
      ⟨.putObjectOrEnqueue () sampleObjectKey samplePackage, rfl, rfl⟩)
      ⟨.putRequest () true (.error .network), trivial, rfl⟩)
      ⟨.appendPending () (.ok "2026-06-01T00:00:00Z"), trivial, rfl⟩
  exact ⟨List.mem_singleton_self _, (archive_safe sampleSha256 0 _ (Set.injOn_singleton _ _)
    sampleArchive hreach).1⟩

end Mipsorcu
