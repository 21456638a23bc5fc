import Mipsorcu.Foundation.Tasks
import Mipsorcu.Siem.Forwarder

/-!
# Forwarding to the SIEM

Any number of calls of `forward` and `resend_pending` run on one buffer and one status cell, with
any answers of the sink and any failures of the buffer. Among events that the file can hold and that
their identifiers tell apart, nothing is lost silently: an event was taken by the sink, or is
pending, or its call returned that buffering failed.

The status cell is a different matter. It counts failures in a row: it is cleared whenever an event
is sent directly, also while older events are pending, so it can tell that nothing fails although
events wait (`siemForwarding_status_cleared`). It is the time of the earliest failure since it was
last cleared; and it is set while an event is pending in runs in which it is only cleared when
nothing waits (`siemForwarding_accounts`).
-/

namespace Mipsorcu

/-! ### What a call can do -/

/-- The accesses of a call, one by one. -/
inductive SiemShared.Acts (s : SiemShared) : SiemTask → SiemAction → SiemShared → SiemTask → Prop
  | forward (event) : Acts s .idle (.forward event) s (.sending event)
  | resendPending : Acts s .idle .resendPending s .reading
  | accepted (event) :
    Acts s (.sending event) (.sinkAnswers (.ok ())) (s.accept event) (.accepted event)
  | failed (event e) :
    Acts s (.sending event) (.sinkAnswers (.error e)) s (.failed event (sinkErrorCode e))
  | sentDirect (event) : Acts s (.accepted event) .updateStatus
    (s.clear.finish (.forward event .sentDirect)) .idle
  | recorded (event code now) : Acts s (.failed event code) (.recordFailure now)
    (s.recordFailure now) (.buffering event code)
  | buffered (event code) (answer : AppendAnswer) : Acts s (.buffering event code) (.append answer)
    ((s.append (.ofEvent .pending event) answer).finish (.forward event
      (if answer = .ok then .buffered code else .bufferingFailed code))) .idle
  | read (pending) (h : pendingEvents s.file = .ok pending) : Acts s .reading (.readBuffer false) s
    (resendNextEvent pending pending { SiemResendSummary.default with
      attempted := pending.length })
  | unreadable (ioError) : Acts s .reading (.readBuffer ioError)
    (s.finish (.resendPending none .default)) .idle
  | resent (snapshot event rest summary) :
    Acts s (.resending snapshot event rest summary) (.sinkAnswers (.ok ())) (s.accept event)
      (.marking snapshot event rest summary)
  | resendFailed (snapshot event rest summary e) :
    Acts s (.resending snapshot event rest summary) (.sinkAnswers (.error e)) s
      (resendNextEvent snapshot rest { summary with failed := summary.failed + 1 })
  | marked (snapshot event rest summary) (answer : AppendAnswer) :
    Acts s (.marking snapshot event rest summary) (.append answer)
      (s.append (.ofEvent .sent event) answer) (resendNextEvent snapshot rest
        (if answer = .ok then { summary with sent := summary.sent + 1 }
         else { summary with failed := summary.failed + 1 }))
  | finished (snapshot summary) : Acts s (.finishing snapshot summary) .updateStatus
    ((if (SiemTask.finishing snapshot summary).clearsStatus then s.clear else s).finish
      (.resendPending (some snapshot) summary)) .idle

theorem SiemShared.acts_of_act {s s' : SiemShared} {task task' : SiemTask} {action : SiemAction}
    (h : s.act task action = some (s', task')) : s.Acts task action s' task' := by
  unfold act at h
  split at h
  case h_8 =>
    split at h
    · rename_i pending hpending
      cases h
      exact .read pending hpending
    · cases h
      exact .unreadable _
  all_goals cases h <;> constructor

/-! ### What is kept -/

namespace SiemShared

open LocalSiemFallbackRecord (ofEvent)

variable {s s' : SiemShared} {events : Set SiemEvent}

/-- Nothing that the sink took or that was recorded is forgotten. -/
structure Le (s s' : SiemShared) : Prop where
  accepted : s.accepted ⊆ s'.accepted
  records : s.records ⊆ s'.records

/-- A summary counts the events of the snapshot, of which some are still to come. -/
structure Counts (snapshot : List SiemEvent) (left : ℕ) (summary : SiemResendSummary) : Prop where
  attempted : summary.attempted = snapshot.length
  total : summary.sent + summary.failed + left = summary.attempted

section

variable (events : Set SiemEvent)

/-- What a call works on; an event that is about to be marked was taken by the sink. -/
def TaskOk (s : SiemShared) : SiemTask → Prop
  | .idle => True
  | .sending event => event ∈ events
  | .accepted event => event ∈ s.accepted
  | .failed event _ => event ∈ events
  | .buffering event _ => event ∈ events
  | .reading => True
  | .resending snapshot event rest summary =>
    (∀ e ∈ event :: rest, e ∈ events) ∧ Counts snapshot (rest.length + 1) summary
  | .marking snapshot event rest summary =>
    (∀ e ∈ event :: rest, e ∈ events) ∧ Counts snapshot (rest.length + 1) summary ∧
      event ∈ s.accepted
  | .finishing snapshot summary => Counts snapshot 0 summary

/-- What a call that returned has done. -/
def ReturnOk (s : SiemShared) : SiemReturn → Prop
  | .forward event .sentDirect => event ∈ s.accepted
  | .forward event (.buffered _) => ofEvent .pending event ∈ s.records
  | .forward _ (.bufferingFailed _) => True
  | .resendPending snapshot summary => summary.attempted = summary.sent + summary.failed ∧
    ∀ pending, snapshot = some pending → summary.attempted = pending.length

/-- A record of an event; if it says so, the sink took the event. -/
def RecordOk (s : SiemShared) (r : LocalSiemFallbackRecord) : Prop :=
  ∃ status, ∃ e ∈ events, r = ofEvent status e ∧ (status = .sent → e ∈ s.accepted)

/-- What holds of the shared state. -/
structure Inv (s : SiemShared) : Prop where
  returned : ∀ r ∈ s.returned, s.ReturnOk r
  records : ∀ r ∈ s.records, s.RecordOk events r

end

theorem TaskOk.mono (hle : Le s s') {task : SiemTask} (h : s.TaskOk events task) :
    s'.TaskOk events task := by
  cases task with
  | accepted event => exact hle.accepted h
  | marking snapshot event rest summary => exact ⟨h.1, h.2.1, hle.accepted h.2.2⟩
  | _ => exact h

theorem ReturnOk.mono (hle : Le s s') {r : SiemReturn} (h : s.ReturnOk r) : s'.ReturnOk r := by
  cases r with
  | forward event outcome =>
    cases outcome with
    | sentDirect => exact hle.accepted h
    | buffered code => exact hle.records h
    | bufferingFailed code => trivial
  | resendPending snapshot summary => exact h

theorem Inv.isOf (hinv : s.Inv events) : ∀ r ∈ s.records, r.IsOf events := by
  intro r hr
  obtain ⟨status, e, he, rfl, -⟩ := hinv.records r hr
  exact ⟨status, e, he, rfl⟩

theorem RecordOk.mono (hle : Le s s') {r : LocalSiemFallbackRecord} (h : s.RecordOk events r) :
    s'.RecordOk events r := by
  obtain ⟨status, e, he, rfl, hsent⟩ := h
  exact ⟨status, e, he, rfl, fun hstatus => hle.accepted (hsent hstatus)⟩

theorem le_of_eq (haccepted : s.accepted = s'.accepted) (hrecords : s.records = s'.records) :
    Le s s' :=
  ⟨haccepted ▸ List.Subset.refl _, hrecords ▸ List.Subset.refl _⟩

theorem Le.trans {s'' : SiemShared} (h : Le s s') (h' : Le s' s'') : Le s s'' :=
  ⟨List.Subset.trans h.accepted h'.accepted, List.Subset.trans h.records h'.records⟩

/-! ### Operations on the shared state -/

theorem Inv.accept (hinv : s.Inv events) (event : SiemEvent) :
    Le s (s.accept event) ∧ (s.accept event).Inv events := by
  have hle : Le s (s.accept event) := ⟨List.subset_cons_self _ _, List.Subset.refl _⟩
  exact ⟨hle, fun r hr => (hinv.returned r hr).mono hle, fun r hr => (hinv.records r hr).mono hle⟩

/-- The status has nothing to do with what is accounted for. -/
theorem Inv.status (hinv : s.Inv events) (failureSince : Option ℤ) (failures : List ℤ) :
    Le s { s with failureSince, failures } ∧ Inv events { s with failureSince, failures } := by
  have hle : Le s { s with failureSince, failures } := le_of_eq rfl rfl
  exact ⟨hle, fun r hr => (hinv.returned r hr).mono hle, fun r hr => (hinv.records r hr).mono hle⟩

theorem Inv.finish (hinv : s.Inv events) {result : SiemReturn} (h : s.ReturnOk result) :
    Le s (s.finish result) ∧ (s.finish result).Inv events := by
  have hle : Le s (s.finish result) := le_of_eq rfl rfl
  refine ⟨hle, fun r hr => ?_, fun r hr => (hinv.records r hr).mono hle⟩
  rcases List.mem_cons.mp hr with rfl | hold
  · exact h.mono hle
  · exact (hinv.returned r hold).mono hle

theorem Inv.append (hinv : s.Inv events) {record : LocalSiemFallbackRecord}
    (h : s.RecordOk events record) (answer : AppendAnswer) :
    Le s (s.append record answer) ∧ (s.append record answer).Inv events := by
  unfold SiemShared.append
  split
  · exact ⟨le_of_eq rfl rfl, hinv⟩
  · have hle : Le s { s with records := s.records ++ [record] } :=
      ⟨List.Subset.refl _, List.subset_append_left _ _⟩
    refine ⟨hle, fun r hr => (hinv.returned r hr).mono hle, fun r hr => ?_⟩
    rcases List.mem_append.mp hr with hold | hnew
    · exact (hinv.records r hold).mono hle
    · exact List.mem_singleton.mp hnew ▸ h.mono hle

theorem resendNextEvent_ok {snapshot rest : List SiemEvent} {summary : SiemResendSummary}
    (hrest : ∀ e ∈ rest, e ∈ events) (hcounts : Counts snapshot rest.length summary) :
    s.TaskOk events (resendNextEvent snapshot rest summary) := by
  cases rest with
  | nil => exact hcounts
  | cons event rest => exact ⟨hrest, hcounts⟩

/-- The answer for one event is counted. -/
theorem Counts.next {snapshot : List SiemEvent} {left : ℕ} {summary : SiemResendSummary}
    (h : Counts snapshot (left + 1) summary) (sent : Prop) [Decidable sent] :
    Counts snapshot left (if sent then { summary with sent := summary.sent + 1 }
      else { summary with failed := summary.failed + 1 }) := by
  have htotal := h.total
  split_ifs
  · exact ⟨h.attempted, by simp only; omega⟩
  · exact ⟨h.attempted, by simp only; omega⟩

/-- The events that the buffer returns are of the set. -/
theorem Inv.mem_of_pending (hstorable : ∀ e ∈ events, e.Storable) (hinv : s.Inv events)
    {pending : List SiemEvent} (h : pendingEvents s.file = .ok pending) :
    ∀ e ∈ pending, e ∈ events := by
  obtain ⟨pending', hpending, hmem⟩ := pendingEvents_render hstorable hinv.isOf
  obtain rfl : pending' = pending := Except.ok.inj (hpending.symm.trans h)
  intro e he
  obtain ⟨status, e', he', heq⟩ := hinv.isOf _ (ReplayLog.mem_of_last? ((hmem e).mp he))
  obtain ⟨-, rfl⟩ := LocalSiemFallbackRecord.ofEvent_inj heq
  exact he'

/-! ### One access -/

/-- **Each access keeps what is known** about the shared state and about the call. -/
theorem Inv.acts (hstorable : ∀ e ∈ events, e.Storable) (hinv : s.Inv events)
    {task task' : SiemTask} {action : SiemAction} (htask : s.TaskOk events task)
    (hguard : ∀ event, action = .forward event → event ∈ events)
    (h : s.Acts task action s' task') : Le s s' ∧ s'.Inv events ∧ s'.TaskOk events task' := by
  have hrefl : Le s s := le_of_eq rfl rfl
  -- one case per transition; what was accepted and what was written only grow
  cases h with
  | forward event => exact ⟨hrefl, hinv, hguard event rfl⟩
  | resendPending => exact ⟨hrefl, hinv, trivial⟩
  | accepted event =>
    obtain ⟨hle, hinv'⟩ := hinv.accept event
    exact ⟨hle, hinv', List.mem_cons_self⟩
  | failed event e => exact ⟨hrefl, hinv, htask⟩
  | sentDirect event =>
    obtain ⟨hle, hinv'⟩ := hinv.status none []
    have hreturn : s.ReturnOk (.forward event .sentDirect) := htask
    obtain ⟨hle', hinv''⟩ := hinv'.finish (hreturn.mono hle)
    exact ⟨hle.trans hle', hinv'', trivial⟩
  | recorded event code now =>
    obtain ⟨hle, hinv'⟩ := hinv.status (s.recordFailure now).failureSince (s.failures ++ [now])
    exact ⟨hle, hinv', htask⟩
  | buffered event code answer =>
    have hrecord : s.RecordOk events (ofEvent .pending event) :=
      ⟨.pending, event, htask, rfl, by rintro ⟨⟩⟩
    obtain ⟨hle, hinv'⟩ := hinv.append hrecord answer
    have hreturn : (s.append (ofEvent .pending event) answer).ReturnOk (.forward event
        (if answer = .ok then .buffered code else .bufferingFailed code)) := by
      split_ifs with hok
      · -- the line was written
        subst hok
        exact List.mem_append_right _ (List.mem_singleton_self _)
      · trivial
    obtain ⟨hle', hinv''⟩ := hinv'.finish hreturn
    exact ⟨hle.trans hle', hinv'', trivial⟩
  | read pending hpending =>
    refine ⟨hrefl, hinv, resendNextEvent_ok (hinv.mem_of_pending hstorable hpending) ?_⟩
    exact ⟨rfl, Nat.zero_add _⟩
  | unreadable ioError =>
    have hreturn : s.ReturnOk (.resendPending none .default) := ⟨rfl, by rintro pending ⟨⟩⟩
    obtain ⟨hle, hinv'⟩ := hinv.finish hreturn
    exact ⟨hle, hinv', trivial⟩
  | resent snapshot event rest summary =>
    obtain ⟨hle, hinv'⟩ := hinv.accept event
    exact ⟨hle, hinv', htask.1, htask.2, List.mem_cons_self⟩
  | resendFailed snapshot event rest summary e =>
    refine ⟨hrefl, hinv, resendNextEvent_ok (List.forall_mem_cons.mp htask.1).2 ?_⟩
    simpa using htask.2.next False
  | marked snapshot event rest summary answer =>
    obtain ⟨hevents, hcounts, haccepted⟩ := htask
    obtain ⟨hevent, hrest⟩ := List.forall_mem_cons.mp hevents
    have hrecord : s.RecordOk events (ofEvent .sent event) :=
      ⟨.sent, event, hevent, rfl, fun _ => haccepted⟩
    obtain ⟨hle, hinv'⟩ := hinv.append hrecord answer
    exact ⟨hle, hinv', resendNextEvent_ok hrest (hcounts.next _)⟩
  -- the status is cleared if there was an event and none failed
  | finished snapshot summary =>
    have hreturn : s.ReturnOk (.resendPending (some snapshot) summary) := by
      have htotal := htask.total
      refine ⟨by omega, ?_⟩
      rintro pending ⟨⟩
      exact htask.attempted
    split_ifs
    · obtain ⟨hle, hinv'⟩ := hinv.status none []
      obtain ⟨hle', hinv''⟩ := hinv'.finish (hreturn.mono hle)
      exact ⟨hle.trans hle', hinv'', trivial⟩
    · obtain ⟨hle, hinv'⟩ := hinv.finish hreturn
      exact ⟨hle, hinv', trivial⟩

/-! ### The status -/

/-- The status tells the first failure since it was cleared, and failures come in the order of
time. -/
structure Follows (s : SiemShared) : Prop where
  since : s.failureSince = s.failures.head?
  ordered : s.failures.Pairwise (· ≤ ·)

/-- The status moreover tells of a failure if anything is pending. -/
structure StatusOk (s : SiemShared) : Prop where
  follows : s.Follows
  pending : ∀ e, IsPendingIn s.records e → s.failures ≠ []

/-- A call that is about to buffer its event has recorded its failure. -/
def TaskStatusOk (s : SiemShared) : SiemTask → Prop
  | .buffering _ _ => s.failures ≠ []
  | _ => True

theorem taskStatusOk_resendNextEvent (snapshot rest : List SiemEvent)
    (summary : SiemResendSummary) : s.TaskStatusOk (resendNextEvent snapshot rest summary) := by
  cases rest <;> trivial

/-- Failures are recorded in the order of time. -/
def InOrder (s : SiemShared) (action : SiemAction) : Prop :=
  ∀ now, action = .recordFailure now → ∀ time ∈ s.failures, time ≤ now

theorem Follows.recordFailure (h : s.Follows) {now : ℤ}
    (hnow : ∀ time ∈ s.failures, time ≤ now) : (s.recordFailure now).Follows where
  since := by
    have hsince := h.since
    simp only [SiemShared.recordFailure]
    cases hfailures : s.failures with
    | nil => simp [hsince, hfailures]
    | cons first rest => simp [hsince, hfailures]
  ordered := by
    refine List.pairwise_append.mpr ⟨h.ordered, List.pairwise_singleton _ _, ?_⟩
    intro time htime now' hnow'
    rw [List.mem_singleton.mp hnow']
    exact hnow time htime

/-- Writing a record leaves the status alone. -/
theorem status_append (record : LocalSiemFallbackRecord) (answer : AppendAnswer) :
    (s.append record answer).failureSince = s.failureSince ∧
      (s.append record answer).failures = s.failures := by
  unfold SiemShared.append
  split <;> exact ⟨rfl, rfl⟩

theorem Follows.append (h : s.Follows) (record : LocalSiemFallbackRecord) (answer : AppendAnswer) :
    (s.append record answer).Follows := by
  obtain ⟨hsince, hfailures⟩ := @status_append s record answer
  constructor
  · rw [hsince, hfailures]
    exact h.since
  · rw [hfailures]
    exact h.ordered

/-- **Each access keeps the status in step** with the failures recorded since it was cleared. -/
theorem Follows.acts (hok : s.Follows) {task task' : SiemTask} {action : SiemAction}
    (hguard : s.InOrder action) (h : s.Acts task action s' task') : s'.Follows := by
  have hclear : s.clear.Follows := ⟨rfl, List.Pairwise.nil⟩
  cases h with
  | sentDirect event => exact ⟨hclear.since, hclear.ordered⟩
  | recorded event code now => exact hok.recordFailure (hguard now rfl)
  | buffered event code answer =>
    have happend := hok.append (ofEvent .pending event) answer
    exact ⟨happend.since, happend.ordered⟩
  | marked snapshot event rest summary answer => exact hok.append _ answer
  | finished snapshot summary =>
    split_ifs
    · exact ⟨hclear.since, hclear.ordered⟩
    · exact ⟨hok.since, hok.ordered⟩
  | _ => exact ⟨hok.since, hok.ordered⟩

/-- A record that makes nothing pending, or is written while a failure is recorded. -/
theorem pending_append (hpending : ∀ e, IsPendingIn s.records e → s.failures ≠ [])
    {record : LocalSiemFallbackRecord} (h : record.status = .sent ∨ s.failures ≠ [])
    (answer : AppendAnswer) {e : SiemEvent} (he : IsPendingIn (s.append record answer).records e) :
    (s.append record answer).failures ≠ [] := by
  rw [(status_append record answer).2]
  unfold SiemShared.append at he
  split at he
  · exact hpending e he
  · rcases h with hsent | hfailures
    · rw [isPendingIn_concat] at he
      split_ifs at he
      · rw [he] at hsent
        cases hsent
      · exact hpending e he
    · exact hfailures

/-- **The status tells the truth** after an access, if it did so before and is not cleared while
anything is pending. -/
theorem StatusOk.acts (hok : s.StatusOk) {task task' : SiemTask} {action : SiemAction}
    (htask : s.TaskStatusOk task) (hguard : s.InOrder action)
    (hdrained : action = .updateStatus → task.clearsStatus = true →
      ∀ e, ¬ IsPendingIn s.records e)
    (h : s.Acts task action s' task') : s'.StatusOk ∧ s'.TaskStatusOk task' := by
  have hfollows := hok.follows.acts hguard h
  have hpending := hok.pending
  cases h with
  -- the status is cleared only while nothing is pending
  | sentDirect event => exact ⟨⟨hfollows, fun e he => absurd he (hdrained rfl rfl e)⟩, trivial⟩
  | recorded event code now =>
    have hsome : (s.recordFailure now).failures ≠ [] :=
      List.append_ne_nil_of_right_ne_nil _ (List.cons_ne_nil _ _)
    exact ⟨⟨hfollows, fun _ _ => hsome⟩, hsome⟩
  | buffered event code answer =>
    exact ⟨⟨hfollows, fun e he => pending_append hpending (.inr htask) answer he⟩, trivial⟩
  | read pending hread => exact ⟨hok, taskStatusOk_resendNextEvent _ _ _⟩
  | resendFailed snapshot event rest summary e =>
    exact ⟨hok, taskStatusOk_resendNextEvent _ _ _⟩
  | marked snapshot event rest summary answer =>
    exact ⟨⟨hfollows, fun e he => pending_append hpending (.inl rfl) answer he⟩,
      taskStatusOk_resendNextEvent _ _ _⟩
  | finished snapshot summary =>
    refine ⟨⟨hfollows, ?_⟩, trivial⟩
    split_ifs with hclears
    · exact fun e he => absurd he (hdrained rfl hclears e)
    · exact hpending
  | _ => exact ⟨⟨hfollows, hpending⟩, trivial⟩

/-- Recorded failures are forgotten only when the status is cleared. -/
theorem failures_of_acts {task task' : SiemTask} {action : SiemAction}
    (h : s.Acts task action s' task') (hfailures : s.failures ≠ []) :
    s'.failures ≠ [] ∨ action = .updateStatus ∧ task.clearsStatus = true := by
  cases h with
  | sentDirect event => exact .inr ⟨rfl, rfl⟩
  | recorded event code now =>
    exact .inl (List.append_ne_nil_of_right_ne_nil _ (List.cons_ne_nil _ _))
  | buffered event code answer =>
    left
    simpa only [SiemShared.finish, (status_append _ answer).2] using hfailures
  | marked snapshot event rest summary answer =>
    left
    rwa [(status_append _ answer).2]
  | finished snapshot summary =>
    split_ifs with hclears
    · exact .inr ⟨rfl, hclears⟩
    · exact .inl hfailures
  | _ => exact .inl hfailures

/-- An access does not both record an event and hand one to the sink. -/
theorem records_or_accepted_of_acts {task task' : SiemTask} {action : SiemAction}
    (h : s.Acts task action s' task') : s'.records = s.records ∨ s'.accepted = s.accepted := by
  have happend : ∀ record answer, (s.append record answer).accepted = s.accepted := by
    intro record answer
    unfold SiemShared.append
    split <;> rfl
  cases h with
  | buffered event code answer => exact .inr (happend _ answer)
  | marked snapshot event rest summary answer => exact .inr (happend _ answer)
  | finished snapshot summary =>
    left
    split_ifs <;> rfl
  | _ => exact .inl rfl

end SiemShared

/-! ### The system -/

/-- Any number of calls on one buffer and one status. -/
abbrev SiemState (ι : Type) : Type :=
  Tasks.State ι SiemShared SiemTask

namespace SiemState

variable {ι : Type} {s s' : SiemState ι} {events : Set SiemEvent}

/-- Nothing was forwarded. -/
def init (ι : Type) : SiemState ι :=
  ⟨.init, fun _ => .idle⟩

/-- `pending_events` returns the event. -/
def Pending (s : SiemState ι) (e : SiemEvent) : Prop :=
  ∃ pending, pendingEvents s.shared.file = .ok pending ∧ e ∈ pending

/-- Only events of the set are forwarded. -/
def EventsAmong (events : Set SiemEvent) (_ : SiemState ι) (e : ι × SiemAction) : Prop :=
  ∀ event, e.2 = .forward event → event ∈ events

/-- The status is cleared only when nothing is pending or about to be buffered, and failures are
recorded in the order of time. -/
structure ClearsDrained (s : SiemState ι) (e : ι × SiemAction) : Prop where
  pending : e.2 = .updateStatus → (s.task e.1).clearsStatus = true →
    pendingEvents s.shared.file = .ok []
  buffering : e.2 = .updateStatus → (s.task e.1).clearsStatus = true →
    ∀ t event code, s.task t ≠ .buffering event code
  ordered : ∀ now, e.2 = .recordFailure now → ∀ time ∈ s.shared.failures, time ≤ now

/-- Nothing is lost silently, and resends count what they do. -/
structure Accounted (s : SiemState ι) : Prop where
  forward : ∀ e outcome, .forward e outcome ∈ s.shared.returned →
    e ∈ s.shared.accepted ∨ s.Pending e ∨ ∃ code, outcome = .bufferingFailed code
  resendPending : ∀ snapshot summary, .resendPending snapshot summary ∈ s.shared.returned →
    summary.attempted = summary.sent + summary.failed ∧
      ∀ pending, snapshot = some pending → summary.attempted = pending.length

/-- The status is set exactly while a failure was recorded since it was last cleared, to the time
of the earliest one. -/
structure StatusFollows (s : SiemState ι) : Prop where
  isNone : s.shared.failureSince = none ↔ s.shared.failures = []
  earliest : ∀ time, s.shared.failureSince = some time →
    time ∈ s.shared.failures ∧ ∀ time' ∈ s.shared.failures, time ≤ time'

/-- While an event is pending, the status is the time of the earliest failure. -/
def StatusTells (s : SiemState ι) : Prop :=
  ∀ e, s.Pending e → ∃ time, s.shared.failureSince = some time ∧ time ∈ s.shared.failures ∧
    ∀ time' ∈ s.shared.failures, time ≤ time'

/-- What is known of every state. -/
abbrev Ok (events : Set SiemEvent) (s : SiemState ι) : Prop :=
  Tasks.Ok (SiemShared.Inv events) (fun _ => SiemShared.TaskOk events) s

theorem ok_init (events : Set SiemEvent) : (init ι).Ok events where
  shared := ⟨by simp [init, SiemShared.init], by simp [init, SiemShared.init]⟩
  task _ := trivial

/-- What the file says, in terms of the records. -/
theorem Ok.pending_iff (hstorable : ∀ e ∈ events, e.Storable) (hok : s.Ok events) {e : SiemEvent} :
    s.Pending e ↔ IsPendingIn s.shared.records e := by
  obtain ⟨pending, hpending, hmem⟩ := pendingEvents_render hstorable hok.shared.isOf
  rw [← hmem]
  constructor
  · rintro ⟨pending', hpending', he⟩
    obtain rfl : pending' = pending := Except.ok.inj (hpending'.symm.trans hpending)
    exact he
  · exact fun he => ⟨pending, hpending, he⟩

/-- An event that was recorded is pending, or the sink took it. -/
theorem Ok.pending_or_accepted (hstorable : ∀ e ∈ events, e.Storable)
    (hinj : Set.InjOn SiemEvent.eventId events) (hok : s.Ok events) {e : SiemEvent}
    (h : LocalSiemFallbackRecord.ofEvent .pending e ∈ s.shared.records) :
    s.Pending e ∨ e ∈ s.shared.accepted := by
  rcases isPendingIn_or_sent hinj hok.shared.isOf h with hpending | hsent
  · exact .inl ((hok.pending_iff hstorable).mpr hpending)
  · obtain ⟨status, e', -, heq, haccepted⟩ := hok.shared.records _ hsent
    obtain ⟨rfl, rfl⟩ := LocalSiemFallbackRecord.ofEvent_inj heq
    exact .inr (haccepted rfl)

theorem Ok.accounted (hstorable : ∀ e ∈ events, e.Storable)
    (hinj : Set.InjOn SiemEvent.eventId events) (hok : s.Ok events) : s.Accounted where
  forward e outcome h := by
    have hreturn := hok.shared.returned _ h
    cases outcome with
    | sentDirect => exact .inl hreturn
    | buffered code =>
      exact (hok.pending_or_accepted hstorable hinj hreturn).symm.imp_right .inl
    | bufferingFailed code => exact .inr (.inr ⟨code, rfl⟩)
  resendPending snapshot summary h := hok.shared.returned _ h

/-! ### One step -/

/-- The status, and the calls that are about to buffer an event. -/
abbrev StatusOk (s : SiemState ι) : Prop :=
  Tasks.Ok SiemShared.StatusOk (fun _ => SiemShared.TaskStatusOk) s

theorem follows_init : (init ι).shared.Follows :=
  ⟨rfl, List.Pairwise.nil⟩

theorem statusOk_init : (init ι).StatusOk where
  shared := ⟨follows_init, by simp [init, SiemShared.init, IsPendingIn]⟩
  task _ := trivial

theorem statusFollows (h : s.shared.Follows) : s.StatusFollows where
  isNone := by rw [h.since, List.head?_eq_none_iff]
  earliest time htime := by
    obtain ⟨rest, hfailures⟩ := List.head?_eq_some_iff.mp (h.since.symm.trans htime)
    have hordered := h.ordered
    rw [hfailures] at hordered ⊢
    refine ⟨List.mem_cons_self, List.forall_mem_cons.mpr ⟨le_refl _, ?_⟩⟩
    exact (List.pairwise_cons.mp hordered).1

theorem StatusOk.statusTells (hstorable : ∀ e ∈ events, e.Storable) (hok : s.Ok events)
    (hstatus : s.StatusOk) : s.StatusTells := by
  intro e he
  have hsome := hstatus.shared.pending e ((hok.pending_iff hstorable).mp he)
  have hfollows := statusFollows hstatus.shared.follows
  obtain ⟨time, htime⟩ := Option.ne_none_iff_exists'.mp (mt hfollows.isNone.mp hsome)
  exact ⟨time, htime, hfollows.earliest time htime⟩

variable [DecidableEq ι]

theorem Ok.step (hstorable : ∀ e ∈ events, e.Storable) (hok : s.Ok events) {e : ι × SiemAction}
    (hguard : EventsAmong events s e) (h : Tasks.step SiemShared.act s e = some s') :
    s'.Ok events := by
  refine Tasks.Ok.step_of_le (fun hle htask => SiemShared.TaskOk.mono hle htask) hok h
    fun shared task hact => ?_
  exact hok.shared.acts hstorable (hok.task e.1) hguard (SiemShared.acts_of_act hact)

/-- An event is pending until the sink has taken it. -/
theorem Ok.pending_step (hstorable : ∀ e ∈ events, e.Storable)
    (hinj : Set.InjOn SiemEvent.eventId events) (hok : s.Ok events) {a : ι × SiemAction}
    (hguard : EventsAmong events s a) (h : Tasks.step SiemShared.act s a = some s')
    {e : SiemEvent} (he : s.Pending e) : s'.Pending e ∨ e ∈ s.shared.accepted := by
  have hok' := hok.step hstorable hguard h
  obtain ⟨next, hact, rfl⟩ := Tasks.step_eq_some h
  have hacts := SiemShared.acts_of_act hact
  have hle := (hok.shared.acts hstorable (hok.task a.1) hguard hacts).1
  rcases SiemShared.records_or_accepted_of_acts hacts with hrecords | haccepted
  · left
    unfold Pending SiemShared.file at he ⊢
    exact hrecords ▸ he
  · have hrecord := ReplayLog.mem_of_last? ((hok.pending_iff hstorable).mp he)
    exact (hok'.pending_or_accepted hstorable hinj (hle.records hrecord)).imp_right
      fun hmem => haccepted ▸ hmem

theorem StatusOk.step (hstorable : ∀ e ∈ events, e.Storable) (hok : s.Ok events)
    (hstatus : s.StatusOk) {a : ι × SiemAction} (hguard : ClearsDrained s a)
    (h : Tasks.step SiemShared.act s a = some s') : s'.StatusOk := by
  have hdrained : a.2 = .updateStatus → (s.task a.1).clearsStatus = true →
      ∀ e, ¬ IsPendingIn s.shared.records e := by
    intro hupdate hclears e he
    obtain ⟨pending, hpending, hmem⟩ := (hok.pending_iff hstorable).mpr he
    obtain rfl := Except.ok.inj (hpending.symm.trans (hguard.pending hupdate hclears))
    exact absurd hmem List.not_mem_nil
  refine Tasks.ok_of_step h fun shared task hact => ?_
  have hacts := SiemShared.acts_of_act hact
  obtain ⟨hshared, htask⟩ := hstatus.shared.acts (hstatus.task a.1) hguard.ordered hdrained hacts
  refine ⟨hshared, htask, fun u _ => ?_⟩
  -- another call is affected only if it is about to buffer its event
  have hother := hstatus.task u
  cases hu : s.task u with
  | buffering event code =>
    rw [hu] at hother
    rcases SiemShared.failures_of_acts hacts hother with hfailures | ⟨hupdate, hclears⟩
    · exact hfailures
    · exact absurd hu (hguard.buffering hupdate hclears u event code)
  | _ => trivial

end SiemState

open SiemState in
/-- **Forwarding loses nothing silently.** Among events that can be stored and are told apart by
their identifiers, in every state that can be reached, an event that was forwarded was taken by the
sink, is pending, or its call said that buffering failed; an event stays pending until the sink has
taken it; and resends count the events they had read. If failures are recorded in the order of
time, the status is that of the earliest failure since it was last cleared, and it is set if there
was one. If moreover it is cleared only when nothing is pending or about to be, it is set while an
event is pending. -/
theorem siemForwarding_accounts {ι : Type} [DecidableEq ι] (events : Set SiemEvent)
    (hstorable : ∀ e ∈ events, e.Storable) (hinj : Set.InjOn SiemEvent.eventId events) :
    (∀ s : SiemState ι, Transition.ReachableWhere (Tasks.step SiemShared.act) (EventsAmong events)
      (init ι) s → s.Accounted ∧ ∀ a (s' : SiemState ι), EventsAmong events s a →
        Tasks.step SiemShared.act s a = some s' →
        ∀ e, s.Pending e → s'.Pending e ∨ e ∈ s.shared.accepted) ∧
    (∀ s : SiemState ι, Transition.ReachableWhere (Tasks.step SiemShared.act)
      (fun s a => s.shared.InOrder a.2) (init ι) s → s.StatusFollows) ∧
    ∀ s : SiemState ι, Transition.ReachableWhere (Tasks.step SiemShared.act)
      (fun s a => EventsAmong events s a ∧ ClearsDrained s a) (init ι) s → s.StatusTells := by
  refine ⟨fun s hreach => ?_, fun s hreach => statusFollows ?_, fun s hreach => ?_⟩
  · have hok : s.Ok events := by
      refine Transition.invariant (Ok events) ?_ (ok_init events) hreach
      rintro a b ha ⟨e, hguard, hstep⟩
      exact ha.step hstorable hguard hstep
    exact ⟨hok.accounted hstorable hinj, fun a s' hguard hstep e he =>
      hok.pending_step hstorable hinj hguard hstep he⟩
  · refine Transition.invariant (fun s : SiemState ι => s.shared.Follows) ?_ follows_init hreach
    rintro a b ha ⟨e, hguard, hstep⟩
    obtain ⟨next, hact, rfl⟩ := Tasks.step_eq_some hstep
    exact ha.acts hguard (SiemShared.acts_of_act hact)
  · obtain ⟨hok, hstatus⟩ : s.Ok events ∧ s.StatusOk := by
      refine Transition.invariant (fun s : SiemState ι => s.Ok events ∧ s.StatusOk) ?_
        ⟨ok_init events, statusOk_init⟩ hreach
      rintro a b ⟨ha, hstatus⟩ ⟨e, ⟨hguard, hdrained⟩, hstep⟩
      exact ⟨ha.step hstorable hguard hstep, hstatus.step hstorable ha hdrained hstep⟩
    exact hstatus.statusTells hstorable hok

/-! ### Runs -/

/-- An event about a request without authorization. -/
def sampleSiemEvent (eventId : String) : SiemEvent where
  schemaVersion := siemEventSchemaVersion
  eventId := eventId
  eventType := "auth_failure"
  result := "failure"
  requestId := "00000000-0000-0000-0000-000000000000"
  actorUserId := none
  actorDeviceId := none
  targetSecretId := none
  keyVersion := none
  sourceEventAt := "2026-06-01T00:00:00Z"
  metadata := .object [("error_code", .string "authorization_header_missing"),
    ("source_event_at", .string "2026-06-01T00:00:00Z")]
  normal := by decide +kernel

/-- An event that the sink does not take. -/
def bufferedSiemEvent : SiemEvent :=
  sampleSiemEvent "018f5c6e-7c00-4000-8000-000000000001"

/-- A later event that the sink takes. -/
def directSiemEvent : SiemEvent :=
  sampleSiemEvent "018f5c6e-7c00-4000-8000-000000000002"

/-- The buffer holds the first event, whose failure was recorded at time 0. -/
def bufferedShared : SiemShared :=
  ((SiemShared.init.recordFailure 0).append (.ofEvent .pending bufferedSiemEvent) .ok).finish
    (.forward bufferedSiemEvent (.buffered "siem_backend_failed"))

theorem storable_bufferedSiemEvent :
    ∀ e ∈ ({bufferedSiemEvent} : Set SiemEvent), e.Storable := by
  rintro e rfl
  decide +kernel

/-- The first event is forwarded, and the sink does not take it. -/
theorem reachable_bufferedShared :
    Transition.ReachableWhere (Tasks.step SiemShared.act)
      (fun s a => SiemState.EventsAmong {bufferedSiemEvent} s a ∧ SiemState.ClearsDrained s a)
      (SiemState.init Unit) (Tasks.single bufferedShared .idle) := by
  have hguard : ∀ (s : SiemState Unit) (action : SiemAction),
      (∀ event, action = .forward event → event = bufferedSiemEvent) → action ≠ .updateStatus →
      s.shared.failures = [] ∨ (∀ now, action ≠ .recordFailure now) →
      SiemState.EventsAmong {bufferedSiemEvent} s ((), action) ∧
        SiemState.ClearsDrained s ((), action) := by
    intro s action hforward hupdate hrecord
    refine ⟨hforward, fun h => absurd h hupdate, fun h => absurd h hupdate, fun now h => ?_⟩
    rcases hrecord with hnil | hne
    · simp [hnil]
    · exact absurd h (hne now)
  refine .tail (.tail (.tail (.tail .refl
    ⟨((), .forward bufferedSiemEvent), hguard _ _ (by rintro _ ⟨⟩; rfl) (by rintro ⟨⟩)
      (.inr (by rintro _ ⟨⟩)), Tasks.step_single rfl⟩)
    ⟨((), .sinkAnswers (.error (.backendFailed "network"))), hguard _ _ (by rintro _ ⟨⟩)
      (by rintro ⟨⟩) (.inr (by rintro _ ⟨⟩)), Tasks.step_single rfl⟩)
    ⟨((), .recordFailure 0), hguard _ _ (by rintro _ ⟨⟩) (by rintro ⟨⟩) (.inl rfl),
      Tasks.step_single rfl⟩)
    ⟨((), .append .ok), hguard _ _ (by rintro _ ⟨⟩) (by rintro ⟨⟩) (.inr (by rintro _ ⟨⟩)),
      Tasks.step_single rfl⟩

/-- The buffer returns the event. -/
theorem pending_bufferedShared {s : SiemState Unit}
    (h : s.shared.records = bufferedShared.records) : s.Pending bufferedSiemEvent := by
  have hisOf : ∀ r ∈ s.shared.records, r.IsOf {bufferedSiemEvent} := by
    rw [h]
    exact List.forall_mem_singleton.mpr ⟨.pending, bufferedSiemEvent, rfl, rfl⟩
  obtain ⟨pending, hpending, hmem⟩ := pendingEvents_render storable_bufferedSiemEvent hisOf
  exact ⟨pending, hpending, (hmem _).mpr (h ▸ isPendingIn_concat_self [] _)⟩

/-- An instance: the sink does not take an event, which then is pending, and the status tells when
that was. -/
theorem siemForwarding_accounts_buffered :
    SiemState.Pending (Tasks.single bufferedShared .idle) bufferedSiemEvent ∧
      SiemState.Accounted (Tasks.single bufferedShared .idle) ∧
      SiemState.StatusFollows (Tasks.single bufferedShared .idle) ∧
      SiemState.StatusTells (Tasks.single bufferedShared .idle) := by
  obtain ⟨haccounts, hfollows, htells⟩ := siemForwarding_accounts (ι := Unit) {bufferedSiemEvent}
    storable_bufferedSiemEvent (Set.injOn_singleton _ _)
  exact ⟨pending_bufferedShared rfl,
    (haccounts _ (reachable_bufferedShared.mono fun _ _ h => h.1)).1,
    hfollows _ (reachable_bufferedShared.mono fun _ _ h => h.2.ordered),
    htells _ reachable_bufferedShared⟩

/-- Another event under the identifier of the first one. -/
def hidingSiemEvent : SiemEvent :=
  { bufferedSiemEvent with result := "success" }

/-- The record of the second event is the last one of the identifier. -/
theorem not_pending_hidingSiemEvent {s : SiemState Unit}
    (h : s.shared.records = bufferedShared.records ++ [.ofEvent .pending hidingSiemEvent]) :
    ¬ s.Pending bufferedSiemEvent := by
  have hstorable : ∀ e ∈ ({bufferedSiemEvent, hidingSiemEvent} : Set SiemEvent), e.Storable := by
    rintro e (rfl | rfl) <;> decide +kernel
  have hisOf : ∀ r ∈ s.shared.records, r.IsOf {bufferedSiemEvent, hidingSiemEvent} := by
    rw [h]
    simp only [List.mem_append, List.mem_singleton]
    rintro r (hr | rfl)
    · exact ⟨.pending, bufferedSiemEvent, .inl rfl, List.mem_singleton.mp hr⟩
    · exact ⟨.pending, hidingSiemEvent, .inr rfl, rfl⟩
  obtain ⟨pending, hpending, hmem⟩ := pendingEvents_render hstorable hisOf
  rintro ⟨pending', hpending', he⟩
  obtain rfl := Except.ok.inj (hpending.symm.trans hpending')
  have hlast := (hmem _).mp he
  have hsame : (LocalSiemFallbackRecord.ofEvent .pending hidingSiemEvent).eventId =
      bufferedSiemEvent.eventId := rfl
  rw [h, isPendingIn_concat, if_pos hsame] at hlast
  exact absurd (congrArg LocalSiemFallbackRecord.event hlast) (by decide +kernel)

/-- The second event is sent directly, and the status is cleared while the first one is pending.
And an event that is buffered under the identifier of the first one hides it. -/
theorem siemForwarding_status_cleared :
    (∃ s : SiemState Unit,
      Transition.Reachable (Tasks.step SiemShared.act) (SiemState.init Unit) s ∧
      s.Pending bufferedSiemEvent ∧ s.shared.failureSince = none) ∧
    ∃ s : SiemState Unit,
      Transition.Reachable (Tasks.step SiemShared.act) (SiemState.init Unit) s ∧
      .forward bufferedSiemEvent (.buffered "siem_backend_failed") ∈ s.shared.returned ∧
      bufferedSiemEvent ∉ s.shared.accepted ∧ ¬ s.Pending bufferedSiemEvent := by
  constructor
  · refine ⟨Tasks.single ((bufferedShared.accept directSiemEvent).clear.finish
      (.forward directSiemEvent .sentDirect)) .idle, ?_, pending_bufferedShared rfl, rfl⟩
    exact .tail (.tail (.tail reachable_bufferedShared.reachable
      ⟨((), .forward directSiemEvent), Tasks.step_single rfl⟩)
      ⟨((), .sinkAnswers (.ok ())), Tasks.step_single rfl⟩)
      ⟨((), .updateStatus), Tasks.step_single rfl⟩
  · refine ⟨Tasks.single (((bufferedShared.recordFailure 1).append
      (.ofEvent .pending hidingSiemEvent) .ok).finish
      (.forward hidingSiemEvent (.buffered "siem_backend_failed"))) .idle, ?_,
      List.mem_cons_of_mem _ List.mem_cons_self, List.not_mem_nil, not_pending_hidingSiemEvent rfl⟩
    exact .tail (.tail (.tail (.tail reachable_bufferedShared.reachable
      ⟨((), .forward hidingSiemEvent), Tasks.step_single rfl⟩)
      ⟨((), .sinkAnswers (.error (.backendFailed "network"))), Tasks.step_single rfl⟩)
      ⟨((), .recordFailure 1), Tasks.step_single rfl⟩)
      ⟨((), .append .ok), Tasks.step_single rfl⟩

end Mipsorcu
