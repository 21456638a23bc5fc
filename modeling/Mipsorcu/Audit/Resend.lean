import Mipsorcu.Audit.Fallback

/-!
# Sending the pending events again

`resendPending` reads the pending events of the fallback file and offers each of them to the
appender, in the order of their identifiers. An event that the appender takes is marked as sent,
one that it cannot take now stays pending, and one that conflicts with what the database has under
its identifier ends the run: the events behind it are not offered.

A run therefore serves every pending event (`ServesEachEvent`) only if no event but the last one
conflicts. It also marks events by lines behind the file, which have to stand alone there.
-/

namespace Mipsorcu

/-- `AuditAppendError`. -/
inductive AuditAppendError where
  | externalDependencyFailed (code : String)
  | idempotencyConflict
  deriving DecidableEq

/-- `AuditRecordError`. -/
inductive AuditRecordError where
  | eventConstructionFailed (error : AuditEventError)
  | ledgerAppendFailed
  | primaryAndFallbackFailed (appendError : AuditAppendError) (storeError : LocalAuditStoreError)
  | idempotencyConflict
  | resendReadFailed (error : LocalAuditStoreError)
  | resendMarkSentFailed (error : LocalAuditStoreError)

/-- `ResendAuditSummary`. -/
structure ResendAuditSummary where
  attempted : ℕ
  sent : ℕ
  failed : ℕ

/-- What a run did: the events offered to the appender and the events marked as sent, in this
order, the file it left and the result it returned. -/
structure ResendRun where
  attempted : List AuditEvent
  marked : List AuditEvent
  file : Option (List Char)
  result : Except AuditRecordError ResendAuditSummary

section

variable (append : AuditEvent → Except AuditAppendError Unit)
  (now : AuditEvent → Except LocalAuditStoreError String)

/-- The loop over the events; `attempted` is the number of all of them. -/
def resendEvents (attempted : ℕ) :
    List AuditEvent → ℕ → ℕ → Option (List Char) → ResendRun
  | [], sent, failed, file => ⟨[], [], file, .ok ⟨attempted, sent, failed⟩⟩
  | e :: rest, sent, failed, file =>
    match append e with
    | .ok () =>
      match LocalAuditFallbackStore.markSent (now e) file e with
      | .ok file' =>
        let run := resendEvents attempted rest (sent + 1) failed (some file')
        { run with attempted := e :: run.attempted, marked := e :: run.marked }
      | .error error => ⟨[e], [], file, .error (.resendMarkSentFailed error)⟩
    | .error (.externalDependencyFailed _) =>
      let run := resendEvents attempted rest sent (failed + 1) file
      { run with attempted := e :: run.attempted }
    | .error .idempotencyConflict => ⟨[e], [], file, .error .idempotencyConflict⟩

/-- `resend_pending`; `now` is the time at which an event is marked, or what made that fail. -/
def resendPending (fromStr : List Char → Option LocalAuditFallbackRecord)
    (file : Option (List Char)) : ResendRun :=
  match LocalAuditFallbackStore.pendingEvents fromStr file with
  | .error error => ⟨[], [], file, .error (.resendReadFailed error)⟩
  | .ok pending => resendEvents append now pending.length pending 0 0 file

end

/-! ### What a run does, where marking does not fail -/

section

open LocalAuditFallbackStore

variable {append : AuditEvent → Except AuditAppendError Unit} {clock : AuditEvent → String}
  {total sent failed : ℕ} {e : AuditEvent} {events : List AuditEvent} {file : Option (List Char)}
  {run : ResendRun}

/-- The file with a line that the event was sent. -/
def withMark (clock : AuditEvent → String) (file : Option (List Char)) (e : AuditEvent) :
    Option (List Char) :=
  some (appendLine file (fallbackJson e .sent (clock e)))

/-- What the loop does with its first event. -/
theorem resendEvents_cons (h : resendEvents append (fun e => .ok (clock e)) total (e :: events) sent
      failed file = run) :
    (append e = .ok () ∧ ∃ run', resendEvents append (fun e => .ok (clock e)) total events
        (sent + 1) failed (withMark clock file e) = run' ∧
      run.attempted = e :: run'.attempted ∧ run.marked = e :: run'.marked ∧ run.file = run'.file) ∨
    ((∃ code, append e = .error (.externalDependencyFailed code)) ∧
      ∃ run', resendEvents append (fun e => .ok (clock e)) total events sent (failed + 1)
          file = run' ∧
      run.attempted = e :: run'.attempted ∧ run.marked = run'.marked ∧ run.file = run'.file) ∨
    (append e = .error .idempotencyConflict ∧
      run.attempted = [e] ∧ run.marked = [] ∧ run.file = file) := by
  subst h
  rw [resendEvents]
  split
  · rename_i happend
    exact .inl ⟨happend, _, rfl, rfl, rfl, rfl⟩
  · rename_i code happend
    exact .inr (.inl ⟨⟨code, happend⟩, _, rfl, rfl, rfl, rfl⟩)
  · rename_i happend
    exact .inr (.inr ⟨happend, rfl, rfl, rfl⟩)

/-- The run has written a line for each event that it marked. -/
theorem file_of_resendEvents (h : resendEvents append (fun e => .ok (clock e)) total events sent
      failed file = run) : run.file = run.marked.foldl (withMark clock) file := by
  induction events generalizing sent failed file run with
  | nil =>
    subst h
    rfl
  | cons e events ih =>
    obtain ⟨-, run', hrun, -, hmarked, hfile⟩ | ⟨-, run', hrun, -, hmarked, hfile⟩ |
      ⟨-, -, hmarked, hfile⟩ := resendEvents_cons h
    · rw [hmarked, hfile, List.foldl_cons]
      exact ih hrun
    · rw [hmarked, hfile]
      exact ih hrun
    · rw [hmarked, hfile]
      rfl

/-- **Where no event but the last one conflicts, every event is offered**, and the events that are
taken are marked. -/
theorem attempted_of_resendEvents
    (h : resendEvents append (fun e => .ok (clock e)) total events sent failed file = run)
    (hlast : ∀ e ∈ events.dropLast, append e ≠ .error .idempotencyConflict) :
    run.attempted = events ∧ run.marked = events.filter fun e => (append e).isOk := by
  -- a failure goes on with the next event; only a conflict stops the loop
  induction events generalizing sent failed file run with
  | nil =>
    subst h
    exact ⟨rfl, rfl⟩
  | cons e events ih =>
    have hrest : ∀ e ∈ events.dropLast, append e ≠ .error .idempotencyConflict := by
      intro f hf
      have hne : events ≠ [] := List.ne_nil_of_mem (List.dropLast_subset _ hf)
      exact hlast f (by rw [List.dropLast_cons_of_ne_nil hne]; exact List.mem_cons_of_mem _ hf)
    obtain ⟨happend, run', hrun, hattempted, hmarked, -⟩ |
      ⟨⟨code, happend⟩, run', hrun, hattempted, hmarked, -⟩ |
      ⟨happend, hattempted, hmarked, -⟩ := resendEvents_cons h
    · obtain ⟨hattempted', hmarked'⟩ := ih hrun hrest
      rw [hattempted, hmarked, hattempted', hmarked', List.filter_cons, happend]
      exact ⟨rfl, rfl⟩
    · obtain ⟨hattempted', hmarked'⟩ := ih hrun hrest
      rw [hattempted, hmarked, hattempted', hmarked', List.filter_cons, happend]
      exact ⟨rfl, rfl⟩
    · -- the conflict is that of the last event
      obtain rfl : events = [] := by
        by_contra hne
        refine hlast e ?_ happend
        rw [List.dropLast_cons_of_ne_nil hne]
        exact List.mem_cons_self
      rw [hattempted, hmarked, List.filter_cons, happend]
      exact ⟨rfl, rfl⟩

/-- A conflict of an event in front of others keeps these from being offered. -/
theorem forall_dropLast_of_resendEvents (h : resendEvents append (fun e => .ok (clock e)) total
      events sent failed file = run) (hlength : run.attempted.length = events.length) :
    ∀ e ∈ events.dropLast, append e ≠ .error .idempotencyConflict := by
  induction events generalizing sent failed file run with
  | nil => exact fun e he => nomatch he
  | cons e events ih =>
    -- unless the event is the last one, it did not conflict, and the others were offered too
    have hstep : events ≠ [] → append e ≠ .error .idempotencyConflict ∧
        ∀ f ∈ events.dropLast, append f ≠ .error .idempotencyConflict := by
      intro hne
      obtain ⟨happend, run', hrun, hattempted, -⟩ |
        ⟨⟨code, happend⟩, run', hrun, hattempted, -⟩ | ⟨-, hattempted, -⟩ := resendEvents_cons h
      · rw [hattempted, List.length_cons, List.length_cons] at hlength
        exact ⟨by rw [happend]; exact nofun, ih hrun (Nat.succ.inj hlength)⟩
      · rw [hattempted, List.length_cons, List.length_cons] at hlength
        exact ⟨by rw [happend]; exact nofun, ih hrun (Nat.succ.inj hlength)⟩
      · rw [hattempted, List.length_singleton, List.length_cons] at hlength
        exact absurd (List.length_eq_zero_iff.mp (by omega)) hne
    intro f hf
    by_cases hne : events = []
    · subst hne
      exact nomatch hf
    · rw [List.dropLast_cons_of_ne_nil hne] at hf
      rcases List.mem_cons.mp hf with rfl | hf
      · exact (hstep hne).1
      · exact (hstep hne).2 f hf

/-! ### The file that a run leaves -/

theorem exists_foldl_withMark (clock : AuditEvent → String) (marks : List AuditEvent)
    (text : List Char) :
    ∃ rest, marks.foldl (withMark clock) (some text) = some (text ++ rest) := by
  induction marks generalizing text with
  | nil => exact ⟨[], by rw [List.append_nil]; rfl⟩
  | cons e marks ih =>
    obtain ⟨rest, hrest⟩ := ih (appendLine (some text) (fallbackJson e .sent (clock e)))
    exact ⟨_, hrest.trans (congrArg some (List.append_assoc ..))⟩

variable {fromStr : List Char → Option LocalAuditFallbackRecord}

/-- Behind an ended file the marks are records of their own. -/
theorem parse_foldl_withMark (hreads : ReadsFallbackRecords fromStr)
    (clock : AuditEvent → String) {marks : List AuditEvent}
    {text : List Char} {log : List ParsedFallbackRecord}
    (hparse : parseExistingFallbackRecords fromStr text = .ok log) (hended : Ended text)
    (hmarks : ∀ e ∈ marks, e.Storable) :
    ∃ text', marks.foldl (withMark clock) (some text) = some text' ∧
      parseExistingFallbackRecords fromStr text' =
        .ok (log ++ marks.map fun e => .ofEvent .sent (clock e) e) := by
  induction marks generalizing text log with
  | nil => exact ⟨text, rfl, by rw [List.map_nil, List.append_nil]; exact hparse⟩
  | cons e marks ih =>
    obtain ⟨he, hmarks⟩ := List.forall_mem_cons.mp hmarks
    obtain ⟨text', htext, hparse'⟩ :=
      ih (parse_appendLine hreads hparse hended he .sent (clock e)) (ended_appendLine _ _) hmarks
    refine ⟨text', htext, hparse'.trans ?_⟩
    rw [List.append_assoc]
    rfl

/-! ### One bad event and the others -/

/-- What a run owes the events that were pending: it offers each of them once, marks those that the
appender takes and leaves the others pending. -/
structure ServesEachEvent (fromStr : List Char → Option LocalAuditFallbackRecord)
    (append : AuditEvent → Except AuditAppendError Unit) (pending : List AuditEvent)
    (run : ResendRun) : Prop where
  attempts : ∀ e, run.attempted.count e = if e ∈ pending then 1 else 0
  marks : ∀ e, e ∈ run.marked ↔ e ∈ pending ∧ append e = .ok ()
  leaves : ∃ rest, pendingEvents fromStr run.file = .ok rest ∧
    ∀ e, e ∈ rest ↔ e ∈ pending ∧ append e ≠ .ok ()

/-- No event in front of others conflicts, and the lines that events were sent stand alone. -/
structure ServesCondition (append : AuditEvent → Except AuditAppendError Unit)
    (pending : List AuditEvent) (file : Option (List Char)) : Prop where
  conflict : ∀ e ∈ pending.dropLast, append e ≠ .error .idempotencyConflict
  ended : (∃ e ∈ pending, append e = .ok ()) → ∀ text ∈ file, Ended text

private theorem isOk_iff {x : Except AuditAppendError Unit} : x.isOk = true ↔ x = .ok () := by
  cases x <;> simp [Except.isOk, Except.toBool]

private theorem mem_filter_isOk {pending : List AuditEvent} {e : AuditEvent} :
    (e ∈ pending.filter fun e => (append e).isOk) ↔ e ∈ pending ∧ append e = .ok () := by
  rw [List.mem_filter, isOk_iff]

private theorem nodup_of_pendingEvents {pending : List AuditEvent}
    (h : pendingEvents fromStr file = .ok pending) : pending.Nodup := by
  obtain ⟨-, rfl⟩ | ⟨_, log, -, -, rfl⟩ := (pendingEvents_eq_ok fromStr).mp h
  · exact List.nodup_nil
  · exact nodup_pendingOf log

/-- The pending events after the marks of those that were taken. -/
theorem exists_pendingEvents_foldl (hreads : ReadsFallbackRecords fromStr) {text : List Char}
    {log : List ParsedFallbackRecord} (hparse : parseExistingFallbackRecords fromStr text = .ok log)
    (hexact : ∀ e ∈ pendingOf log, e.metadataJson.asValue.isExact = true)
    (hended : (∃ e ∈ pendingOf log, append e = .ok ()) → Ended text) :
    ∃ rest, pendingEvents fromStr
        (((pendingOf log).filter fun e => (append e).isOk).foldl (withMark clock) (some text)) =
          .ok rest ∧ ∀ e, e ∈ rest ↔ e ∈ pendingOf log ∧ append e ≠ .ok () := by
  by_cases hsome : ∃ e ∈ pendingOf log, append e = .ok ()
  · have hstorable : ∀ e ∈ (pendingOf log).filter fun e => (append e).isOk, e.Storable := by
      intro e he
      have hmem := (mem_filter_isOk.mp he).1
      obtain ⟨r, hr, rfl⟩ := mem_of_mem_pendingOf hmem
      exact ⟨depth_of_parseRecords hreads hparse r hr, hexact _ hmem⟩
    obtain ⟨text', htext, hparse'⟩ := parse_foldl_withMark hreads clock hparse (hended hsome)
      hstorable
    refine ⟨_, (pendingEvents_eq_ok _).mpr (.inr ⟨text', _, htext, hparse', rfl⟩), fun e => ?_⟩
    rw [mem_pendingOf_append_sent clock fun f hf => (mem_filter_isOk.mp hf).1, mem_filter_isOk]
    exact and_congr_right fun he => by simp [he]
  · -- no event was taken, and the file is as it was
    have hnone : (pendingOf log).filter (fun e => (append e).isOk) = [] :=
      List.filter_eq_nil_iff.mpr fun e he hok => hsome ⟨e, he, isOk_iff.mp hok⟩
    refine ⟨pendingOf log, ?_, fun e => (and_iff_left_of_imp fun he hok => hsome ⟨e, he, hok⟩).symm⟩
    rw [hnone]
    exact (pendingEvents_eq_ok _).mpr (.inr ⟨text, log, rfl, hparse, rfl⟩)

/-- **A run serves every pending event exactly if no event but the last one conflicts** and the
marks it writes stand on lines of their own. The numbers in the pending events are integers of 64
bits, which come back from the file as they were. -/
theorem resendPending_serves_iff (hreads : ReadsFallbackRecords fromStr)
    (append : AuditEvent → Except AuditAppendError Unit) (clock : AuditEvent → String)
    (file : Option (List Char)) (pending : List AuditEvent)
    (hpending : pendingEvents fromStr file = .ok pending)
    (hexact : ∀ e ∈ pending, e.metadataJson.asValue.isExact = true) :
    ServesEachEvent fromStr append pending
        (resendPending append (fun e => .ok (clock e)) fromStr file) ↔
      ServesCondition append pending file := by
  obtain ⟨run, hrun⟩ : ∃ run, resendEvents append (fun e => .ok (clock e)) pending.length
      pending 0 0 file = run := ⟨_, rfl⟩
  have hresend : resendPending append (fun e => .ok (clock e)) fromStr file = run := by
    rw [resendPending, hpending]
    exact hrun
  rw [hresend]
  have hfile := file_of_resendEvents hrun
  constructor
  · intro hserves
    have hperm : run.attempted.Perm pending := by
      refine List.perm_iff_count.mpr fun e => ?_
      rw [hserves.attempts, (nodup_of_pendingEvents hpending).count]
    refine ⟨forall_dropLast_of_resendEvents hrun hperm.length_eq, fun ⟨e, he, hok⟩ text htext => ?_⟩
    -- the first mark was written behind the file that was read
    by_contra hended
    obtain ⟨first, marks, hmarked⟩ : ∃ first marks, run.marked = first :: marks :=
      List.exists_cons_of_ne_nil (List.ne_nil_of_mem ((hserves.marks e).mpr ⟨he, hok⟩))
    obtain ⟨left, hleft, -⟩ := hserves.leaves
    obtain ⟨rfl, -⟩ | ⟨text', log, rfl, hparse, -⟩ := (pendingEvents_eq_ok fromStr).mp hpending
    · cases htext
    obtain rfl : text' = text := Option.some.inj htext
    rw [hfile, hmarked, List.foldl_cons] at hleft
    obtain ⟨rest, hrest⟩ := exists_foldl_withMark clock marks
      (appendLine (some text') (fallbackJson first .sent (clock first)))
    rw [withMark, hrest, pendingEvents, Result.map_eq_ok, appendLine] at hleft
    obtain ⟨log', hlog', -⟩ := hleft
    simp only [Option.getD_some, List.append_assoc, List.singleton_append] at hlog'
    exact parse_append_of_not_ended hreads hparse hended _ rest log' hlog'
  · intro hcondition
    obtain ⟨hattempted, hmarked⟩ := attempted_of_resendEvents hrun hcondition.conflict
    refine ⟨fun e => ?_, fun e => ?_, ?_⟩
    · rw [hattempted, (nodup_of_pendingEvents hpending).count]
    · rw [hmarked, mem_filter_isOk]
    · rw [hfile, hmarked]
      obtain ⟨rfl, rfl⟩ | ⟨text, log, rfl, hparse, rfl⟩ := (pendingEvents_eq_ok fromStr).mp hpending
      · exact ⟨[], rfl, fun e => by simp⟩
      · exact exists_pendingEvents_foldl hreads hparse hexact fun h => hcondition.ended h text rfl

/-- The appender answers one event with the given error and takes the others. -/
def sampleAnswers (refused : AuditEvent) (error : AuditAppendError) (e : AuditEvent) :
    Except AuditAppendError Unit :=
  if e.auditEventId = refused.auditEventId then .error error else .ok ()

/-- The appender cannot take the first event now: the second one is sent. -/
theorem resendPending_serves_sampleFallbackFile :
    ServesEachEvent LocalAuditFallbackRecord.compactFromStr
      (sampleAnswers (sampleAuditEvent 1) (.externalDependencyFailed "supabase_rpc_failed"))
      [sampleAuditEvent 1, sampleAuditEvent 2]
      (resendPending
        (sampleAnswers (sampleAuditEvent 1) (.externalDependencyFailed "supabase_rpc_failed"))
        (fun _ => .ok "2026-01-01T00:00:03Z") LocalAuditFallbackRecord.compactFromStr
        (some sampleFallbackFile)) := by
  have hexact : ∀ e ∈ [sampleAuditEvent 1, sampleAuditEvent 2],
      e.metadataJson.asValue.isExact = true := by
    simp [(storable_sampleAuditEvent _).exact_numbers]
  refine (resendPending_serves_iff LocalAuditFallbackRecord.readsFallbackRecords_compactFromStr _ _
    _ _ pendingEvents_sampleFallbackFile hexact).mpr ⟨?_, fun _ text htext => ?_⟩
  · intro e he
    obtain rfl : e = sampleAuditEvent 1 := List.mem_singleton.mp he
    rw [sampleAnswers, if_pos rfl]
    exact nofun
  · obtain rfl : sampleFallbackFile = text := Option.some.inj htext
    exact ended_appendLine _ _

/-- **One event that conflicts blocks the event behind it**: the second one is not offered, although
the appender would take it. -/
theorem resendPending_conflict_blocks :
    (resendPending (sampleAnswers (sampleAuditEvent 1) .idempotencyConflict)
        (fun _ => .ok "2026-01-01T00:00:03Z") LocalAuditFallbackRecord.compactFromStr
        (some sampleFallbackFile)).attempted = [sampleAuditEvent 1] ∧
    ¬ ServesEachEvent LocalAuditFallbackRecord.compactFromStr
      (sampleAnswers (sampleAuditEvent 1) .idempotencyConflict)
      [sampleAuditEvent 1, sampleAuditEvent 2]
      (resendPending (sampleAnswers (sampleAuditEvent 1) .idempotencyConflict)
        (fun _ => .ok "2026-01-01T00:00:03Z") LocalAuditFallbackRecord.compactFromStr
        (some sampleFallbackFile)) := by
  have hattempted : (resendPending (sampleAnswers (sampleAuditEvent 1) .idempotencyConflict)
      (fun _ => .ok "2026-01-01T00:00:03Z") LocalAuditFallbackRecord.compactFromStr
      (some sampleFallbackFile)).attempted = [sampleAuditEvent 1] := by
    rw [resendPending, pendingEvents_sampleFallbackFile]
    rfl
  have hne : sampleAuditEvent 1 ≠ sampleAuditEvent 2 := fun heq =>
    absurd (congrArg (fun e : AuditEvent => e.auditEventId) heq) (by decide)
  refine ⟨hattempted, fun hserves => ?_⟩
  have hcount := hserves.attempts (sampleAuditEvent 2)
  rw [hattempted, List.count_singleton, beq_eq_false_iff_ne.mpr hne,
    if_pos (List.mem_cons_of_mem _ List.mem_cons_self)] at hcount
  cases hcount

end

end Mipsorcu
