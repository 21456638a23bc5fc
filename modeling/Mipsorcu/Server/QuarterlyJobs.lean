import Mipsorcu.Server.Scheduler

/-!
# The quarterly jobs of a tick

The monthly and the quarterly jobs are due on the same day of a quarter's first month, and one
function runs both. Where the monthly jobs return early, the quarterly jobs of the tick are left
out: `quarterlyJobs_attempted_iff` says exactly when they are attempted.
-/

namespace Mipsorcu

/-- A run of a job logs nothing that looks like the start of a job. -/
def JobRun.IsPlain {α : Type} (run : JobRun α) : Prop :=
  ∀ key, SchedulerEvent.started key ∉ run.events

namespace SchedulerState

variable {α : Type} {s s' s'' : SchedulerState} {key : JobRunKey} {run : JobRun α}

/-! ### Starts of jobs -/

/-- How often the job of a key was started. -/
def starts (s : SchedulerState) (key : JobRunKey) : ℕ :=
  s.log.count (.started key)

/-- The job of a key is started, if it is its turn. -/
def attempts (s : SchedulerState) (key : JobRunKey) : Bool :=
  !s.completed.contains key && !s.running.contains key.jobName

theorem attempts_eq_true : s.attempts key = true ↔ key ∉ s.completed ∧ key.jobName ∉ s.running := by
  simp [attempts]

/-- A run starts the job of its key, and no other. -/
theorem starts_runOncePerPeriod (h : run.IsPlain) (k : JobRunKey) :
    (s.runOncePerPeriod key run).1.starts k =
      s.starts k + if k = key ∧ s.attempts key = true then 1 else 0 := by
  have hnone : run.events.count (.started k) = 0 := List.count_eq_zero.mpr (h k)
  have hstarted : (if k = key then 1 else 0) = [SchedulerEvent.started key].count (.started k) := by
    by_cases hk : k = key
    · simp [hk]
    · rw [if_neg hk, List.count_eq_zero.mpr]
      simpa using hk
  unfold runOncePerPeriod
  -- a job is skipped if the period is done or if it is still running
  by_cases hcompleted : s.completed.contains key = true
  · have hskips : s.attempts key = false := by
      simp only [attempts, hcompleted, Bool.not_true, Bool.false_and]
    simp only [if_pos hcompleted, hskips, Bool.false_eq_true, and_false, if_false, Nat.add_zero]
  by_cases hrunning : s.running.contains key.jobName = true
  · have hskips : s.attempts key = false := by
      simp only [attempts, hrunning, Bool.not_true, Bool.and_false]
    simp only [if_neg hcompleted, if_pos hrunning, hskips, Bool.false_eq_true, and_false, if_false,
      Nat.add_zero]
  have hattempts : s.attempts key = true := by
    simp only [attempts, Bool.eq_false_of_not_eq_true hcompleted,
      Bool.eq_false_of_not_eq_true hrunning, Bool.not_false, Bool.and_self]
  rw [if_neg hcompleted, if_neg hrunning, hattempts]
  simp only [and_true, hstarted]
  cases run.result with
  | ok output => simp [starts, hnone, List.count_cons, List.count_append]
  | error code => simp [starts, hnone, List.count_cons, List.count_append]

theorem running_runOncePerPeriod : (s.runOncePerPeriod key run).1.running = s.running := by
  unfold runOncePerPeriod
  split_ifs
  · rfl
  · rfl
  · cases run.result <;> rfl

theorem mem_completed_runOncePerPeriod {k : JobRunKey} (hk : k ≠ key) :
    k ∈ (s.runOncePerPeriod key run).1.completed ↔ k ∈ s.completed := by
  unfold runOncePerPeriod
  split_ifs
  · rfl
  · rfl
  · cases run.result with
    | ok output => simp [hk]
    | error code => rfl

/-- From one state to a later one nothing happens for the keys of the job. -/
structure Frame (jobName : ScheduledJobName) (s s' : SchedulerState) : Prop where
  starts : ∀ periodKey, s'.starts ⟨jobName, periodKey⟩ = s.starts ⟨jobName, periodKey⟩
  running : s'.running = s.running
  completed : ∀ periodKey, ⟨jobName, periodKey⟩ ∈ s'.completed ↔ ⟨jobName, periodKey⟩ ∈ s.completed

variable {jobName : ScheduledJobName}

theorem Frame.refl (jobName : ScheduledJobName) (s : SchedulerState) : Frame jobName s s :=
  ⟨fun _ => rfl, rfl, fun _ => Iff.rfl⟩

theorem Frame.trans (h : Frame jobName s s') (h' : Frame jobName s' s'') : Frame jobName s s'' :=
  ⟨fun p => (h'.starts p).trans (h.starts p), h'.running.trans h.running,
    fun p => (h'.completed p).trans (h.completed p)⟩

theorem Frame.attempts_eq (h : Frame jobName s s') (periodKey : String) :
    s'.attempts ⟨jobName, periodKey⟩ = s.attempts ⟨jobName, periodKey⟩ := by
  rw [Bool.eq_iff_iff, attempts_eq_true, attempts_eq_true, h.completed, h.running]

theorem frame_runOncePerPeriod (h : run.IsPlain) (hne : jobName ≠ key.jobName) :
    Frame jobName s (s.runOncePerPeriod key run).1 := by
  have hkey : ∀ periodKey, (⟨jobName, periodKey⟩ : JobRunKey) ≠ key :=
    fun _ heq => hne (congrArg JobRunKey.jobName heq)
  refine ⟨fun p => ?_, running_runOncePerPeriod, fun p => mem_completed_runOncePerPeriod (hkey p)⟩
  rw [starts_runOncePerPeriod h, if_neg fun hand => hkey p hand.1, Nat.add_zero]

/-! ### The monthly jobs -/

variable {a : SchedulerAnswers} {period : MonthlyDigestPeriod}

/-- The job of a key fails in this tick: it has not completed before, and is locked or returns an
error. -/
def Fails (s : SchedulerState) (key : JobRunKey) (run : JobRun α) : Prop :=
  key ∉ s.completed ∧ (key.jobName ∈ s.running ∨ ∃ code, run.result = .error code)

theorem toOption_runOncePerPeriod :
    (s.runOncePerPeriod key run).2.toOption.isSome = true ↔ ¬s.Fails key run := by
  unfold runOncePerPeriod Fails
  by_cases hcompleted : key ∈ s.completed
  · simp [hcompleted, Except.toOption]
  by_cases hrunning : key.jobName ∈ s.running
  · simp [hcompleted, hrunning, Except.toOption]
  cases hresult : run.result with
  | ok output => simp [hcompleted, hrunning, Except.toOption]
  | error code => simp [hcompleted, hrunning, Except.toOption]

/-- A run is skipped, if its key has completed. -/
theorem result_runOncePerPeriod_eq_none :
    (s.runOncePerPeriod key run).2 = .ok none ↔ key ∈ s.completed := by
  unfold runOncePerPeriod
  by_cases hcompleted : key ∈ s.completed
  · simp [hcompleted]
  by_cases hrunning : key.jobName ∈ s.running
  · simp [hcompleted, hrunning]
  cases run.result with
  | ok output => simp [hcompleted, hrunning]
  | error code => simp [hcompleted, hrunning]

/-- The monthly jobs return early: a verification of the whole ledger fails, the digest cannot be
generated, or the digest of a job that has completed before cannot be read back. -/
def MonthlyFails (s : SchedulerState) (a : SchedulerAnswers) (period : MonthlyDigestPeriod) :
    Prop :=
  s.Fails ⟨.ledgerHashChainFullVerify, period.text⟩ (a.runFullLedgerHashChainVerifyJob period) ∨
    s.Fails ⟨.ledgerSignatureFullVerify, period.text⟩ (a.runFullLedgerSignatureVerifyJob period) ∨
    s.Fails ⟨.monthlyDigestGenerate, period.text⟩ (a.runMonthlyDigestGenerateJob period) ∨
    (⟨.monthlyDigestGenerate, period.text⟩ ∈ s.completed ∧ ∃ code, a.fetch period = .error code)

/-- A failure does not depend on what happens for other jobs. -/
theorem Frame.fails_iff (h : Frame jobName s s') (periodKey : String) :
    s'.Fails ⟨jobName, periodKey⟩ run ↔ s.Fails ⟨jobName, periodKey⟩ run := by
  unfold Fails
  rw [h.completed, h.running]

theorem isPlain_runFullVerifyJob (outcome : Except String LedgerVerificationSummary)
    (failureCode : String) : (a.runFullVerifyJob key outcome failureCode).IsPlain := by
  intro k
  unfold SchedulerAnswers.runFullVerifyJob
  split
  · split_ifs <;> simp
  · simp

theorem isPlain_runMonthlyDigestGenerateJob : (a.runMonthlyDigestGenerateJob period).IsPlain := by
  intro k hk
  rcases SchedulerAnswers.mem_events_runMonthlyDigestGenerateJob hk with h | h | h <;> cases h

theorem isPlain_runArchiveExportJob (d : SignedMonthlyDigest) :
    (a.runArchiveExportJob d).IsPlain := by
  intro k
  unfold SchedulerAnswers.runArchiveExportJob
  split <;> simp

theorem isPlain_recordPreconditionFailureJob (errorCode : String) :
    (a.recordPreconditionFailureJob key errorCode).IsPlain := by
  intro k
  simp [SchedulerAnswers.recordPreconditionFailureJob]

theorem isPlain_runQuarterlyJob : (a.runQuarterlyJob jobName).IsPlain := by
  intro k
  unfold SchedulerAnswers.runQuarterlyJob
  split
  · split <;> simp
  all_goals simp

/-- A job that is none of the monthly ones. -/
structure IsNotMonthly (jobName : ScheduledJobName) : Prop where
  hashChain : jobName ≠ .ledgerHashChainFullVerify
  signature : jobName ≠ .ledgerSignatureFullVerify
  digest : jobName ≠ .monthlyDigestGenerate
  archive : jobName ≠ .archiveExport

theorem frame_recordPreconditionFailure {errorCode : String} (hne : jobName ≠ key.jobName) :
    Frame jobName s (s.recordPreconditionFailure a key errorCode) :=
  frame_runOncePerPeriod (isPlain_recordPreconditionFailureJob errorCode) hne

theorem frame_runVerifications (h : IsNotMonthly jobName) :
    Frame jobName s (s.runVerifications a period).1 :=
  (frame_runOncePerPeriod (isPlain_runFullVerifyJob _ _) h.hashChain).trans
    (frame_runOncePerPeriod (isPlain_runFullVerifyJob _ _) h.signature)

theorem frame_runArchiveExport (h : IsNotMonthly jobName) (d : SignedMonthlyDigest) :
    Frame jobName s (s.runArchiveExport a d) :=
  frame_runOncePerPeriod (isPlain_runArchiveExportJob d) h.archive

theorem frame_runDigest (h : IsNotMonthly jobName) : Frame jobName s (s.runDigest a period).1 := by
  have hdigest : Frame jobName s (s.runOncePerPeriod ⟨.monthlyDigestGenerate, period.text⟩
      (a.runMonthlyDigestGenerateJob period)).1 :=
    frame_runOncePerPeriod isPlain_runMonthlyDigestGenerateJob h.digest
  unfold runDigest
  -- the digest is new, is read back, or the export is given up
  split
  · rename_i s₁ d hrun
    rw [hrun] at hdigest
    exact hdigest.trans (frame_runArchiveExport h d)
  · rename_i s₁ hrun
    rw [hrun] at hdigest
    split
    · rename_i d hd
      have hread : Frame jobName s₁ { s₁ with log := s₁.log ++ [.digestReadBack d.period] } :=
        ⟨fun p => by simp [starts, List.count_append], rfl, fun _ => Iff.rfl⟩
      exact (hdigest.trans hread).trans (frame_runArchiveExport h d)
    · exact hdigest.trans (frame_recordPreconditionFailure h.archive)
  · rename_i s₁ error hrun
    rw [hrun] at hdigest
    exact hdigest.trans (frame_recordPreconditionFailure h.archive)

/-- The monthly jobs do nothing for the other ones. -/
theorem frame_runMonthlyJobs (h : IsNotMonthly jobName) :
    Frame jobName s (s.runMonthlyJobs a period).1 := by
  have hverifications : Frame jobName s (s.runVerifications a period).1 := frame_runVerifications h
  unfold runMonthlyJobs
  split
  · rename_i s₁ hrun
    rw [hrun] at hverifications
    exact hverifications.trans (frame_runDigest h)
  · rename_i s₁ hrun
    rw [hrun] at hverifications
    exact (hverifications.trans (frame_recordPreconditionFailure h.digest)).trans
      (frame_recordPreconditionFailure h.archive)

theorem goesOn_runVerifications : (s.runVerifications a period).2 = true ↔
    ¬s.Fails ⟨.ledgerHashChainFullVerify, period.text⟩ (a.runFullLedgerHashChainVerifyJob period) ∧
    ¬s.Fails ⟨.ledgerSignatureFullVerify, period.text⟩
      (a.runFullLedgerSignatureVerifyJob period) := by
  have hframe : Frame .ledgerSignatureFullVerify s (s.runOncePerPeriod
      ⟨.ledgerHashChainFullVerify, period.text⟩ (a.runFullLedgerHashChainVerifyJob period)).1 :=
    frame_runOncePerPeriod (isPlain_runFullVerifyJob _ _) (by rintro ⟨⟩)
  rw [runVerifications, Bool.and_eq_true, toOption_runOncePerPeriod, toOption_runOncePerPeriod,
    hframe.fails_iff]

theorem goesOn_runDigest : (s.runDigest a period).2 = true ↔
    ¬s.Fails ⟨.monthlyDigestGenerate, period.text⟩ (a.runMonthlyDigestGenerateJob period) ∧
      ¬(⟨.monthlyDigestGenerate, period.text⟩ ∈ s.completed ∧
        ∃ code, a.fetch period = .error code) := by
  unfold runDigest
  generalize hrun : s.runOncePerPeriod ⟨.monthlyDigestGenerate, period.text⟩
    (a.runMonthlyDigestGenerateJob period) = ran
  rw [← toOption_runOncePerPeriod, hrun]
  have hskipped : ran.2 = .ok none ↔ ⟨.monthlyDigestGenerate, period.text⟩ ∈ s.completed := by
    rw [← hrun]
    exact result_runOncePerPeriod_eq_none
  obtain ⟨s₁, error | (_ | d)⟩ := ran
  · simp [Except.toOption]
  · have hcompleted := hskipped.mp rfl
    cases hfetch : a.fetch period with
    | ok d => simp [Except.toOption]
    | error code => simp [Except.toOption, hcompleted]
  · have hnew : (⟨.monthlyDigestGenerate, period.text⟩ : JobRunKey) ∉ s.completed := by
      rw [← hskipped]
      rintro ⟨⟩
    simp [Except.toOption, hnew]

theorem goesOn_runMonthlyJobs :
    (s.runMonthlyJobs a period).2 = true ↔ ¬s.MonthlyFails a period := by
  have hverifications : (s.runVerifications a period).2 = true ↔ _ := goesOn_runVerifications
  -- the digest job comes after the verifications, which do nothing for its key
  have hframe : Frame .monthlyDigestGenerate s (s.runVerifications a period).1 :=
    (frame_runOncePerPeriod (isPlain_runFullVerifyJob _ _) (by rintro ⟨⟩)).trans
      (frame_runOncePerPeriod (isPlain_runFullVerifyJob _ _) (by rintro ⟨⟩))
  unfold MonthlyFails
  rw [not_or, not_or, not_or, ← and_assoc, ← hverifications]
  unfold runMonthlyJobs
  generalize hrun : s.runVerifications a period = ran at hframe ⊢
  obtain ⟨s₁, _ | _⟩ := ran
  · simp
  · rw [goesOn_runDigest, hframe.fails_iff, hframe.completed]
    exact (and_iff_right rfl).symm

/-! ### The quarterly jobs -/

/-- Each job of a list without repetitions is run once. -/
theorem starts_foldl_runQuarterlyJob (quarterKey : String) {jobs : List ScheduledJobName}
    (hjobs : jobs.Nodup) (s : SchedulerState) :
    (jobs.foldl (fun s jobName =>
        (s.runOncePerPeriod ⟨jobName, quarterKey⟩ (a.runQuarterlyJob jobName)).1) s).starts
      ⟨jobName, quarterKey⟩ = s.starts ⟨jobName, quarterKey⟩ +
        if jobName ∈ jobs ∧ s.attempts ⟨jobName, quarterKey⟩ = true then 1 else 0 := by
  induction jobs generalizing s with
  | nil => simp
  | cons job jobs ih =>
    obtain ⟨hnew, hrest⟩ := List.nodup_cons.mp hjobs
    rw [List.foldl_cons, ih hrest]
    by_cases hjob : jobName = job
    · subst hjob
      rw [starts_runOncePerPeriod isPlain_runQuarterlyJob]
      simp [hnew]
    · have hframe : Frame jobName s
          (s.runOncePerPeriod ⟨job, quarterKey⟩ (a.runQuarterlyJob job)).1 :=
        frame_runOncePerPeriod isPlain_runQuarterlyJob hjob
      rw [hframe.starts, hframe.attempts_eq]
      simp [hjob]

end SchedulerState

theorem nodup_quarterlyJobs : quarterlyJobs.Nodup := by decide

namespace SchedulerState

/-- The function returns before the quarterly jobs: the monthly jobs are due, and there is no
previous month or one of them fails. -/
def ReturnsEarly (config : SchedulerConfig) (s : SchedulerState)
    (tick : DateTime × SchedulerAnswers) : Prop :=
  monthlyDue tick.1 config.monthlyDay config.monthlyHourUtc = true ∧
    ((∃ error, previousMonthPeriod tick.1 = .error error) ∨
      ∃ period, previousMonthPeriod tick.1 = .ok period ∧ s.MonthlyFails tick.2 period)

variable {config : SchedulerConfig} {s : SchedulerState} {tick : DateTime × SchedulerAnswers}
  {jobName : ScheduledJobName}

theorem goesOn_runMonthlyIfDue :
    (s.runMonthlyIfDue config tick).2 = true ↔ ¬s.ReturnsEarly config tick := by
  unfold runMonthlyIfDue ReturnsEarly
  by_cases hdue : monthlyDue tick.1 config.monthlyDay config.monthlyHourUtc = true
  · cases hperiod : previousMonthPeriod tick.1 with
    | error error => simp [hdue]
    | ok period => simp [hdue, goesOn_runMonthlyJobs]
  · simp [hdue]

theorem frame_runMonthlyIfDue (h : IsNotMonthly jobName) :
    Frame jobName s (s.runMonthlyIfDue config tick).1 := by
  unfold runMonthlyIfDue
  split_ifs
  · split
    · exact frame_runMonthlyJobs h
    · exact .refl _ _
  · exact .refl _ _

theorem isNotMonthly_of_mem (h : jobName ∈ quarterlyJobs) : IsNotMonthly jobName := by
  simp only [quarterlyJobs, List.mem_cons, List.not_mem_nil, or_false] at h
  rcases h with rfl | rfl | rfl <;> constructor <;> decide

end SchedulerState

open SchedulerState in
/-- **When a quarterly job is attempted.** On a tick on which the quarterly jobs are due, one whose
key has not completed is started exactly once if and only if the monthly jobs do not return early
and its lock is free. -/
theorem quarterlyJobs_attempted_iff (config : SchedulerConfig) (s : SchedulerState)
    (tick : DateTime × SchedulerAnswers)
    (hdue : quarterlyDue tick.1 config.monthlyDay config.quarterlyHourUtc = true)
    (jobName : ScheduledJobName) (hjob : jobName ∈ quarterlyJobs)
    (hnew : ⟨jobName, quarterPeriodKey tick.1⟩ ∉ s.completed) :
    (s.runDueJobs config tick).starts ⟨jobName, quarterPeriodKey tick.1⟩ =
        s.starts ⟨jobName, quarterPeriodKey tick.1⟩ + 1 ↔
      ¬s.ReturnsEarly config tick ∧ jobName ∉ s.running := by
  have hframe : Frame jobName s (s.runMonthlyIfDue config tick).1 :=
    frame_runMonthlyIfDue (isNotMonthly_of_mem hjob)
  have hattempts : s.attempts ⟨jobName, quarterPeriodKey tick.1⟩ = true ↔ jobName ∉ s.running := by
    rw [attempts_eq_true]
    exact and_iff_right hnew
  have hgoesOn : (s.runMonthlyIfDue config tick).2 = true ↔ ¬s.ReturnsEarly config tick :=
    goesOn_runMonthlyIfDue
  have hquarterly : ((s.runMonthlyIfDue config tick).1.runQuarterlyJobs tick.2
      (quarterPeriodKey tick.1)).starts ⟨jobName, quarterPeriodKey tick.1⟩ = _ :=
    starts_foldl_runQuarterlyJob (quarterPeriodKey tick.1) nodup_quarterlyJobs _
  simp only [hframe.starts, hframe.attempts_eq, hattempts] at hquarterly
  simp only [runDueJobs, hdue, Bool.and_true]
  by_cases hearly : s.ReturnsEarly config tick
  · rw [if_neg (fun h => hgoesOn.mp h hearly), hframe.starts]
    simp [hearly]
  · rw [if_pos (hgoesOn.mpr hearly), hquarterly]
    by_cases hrunning : jobName ∈ s.running <;> simp [hearly, hrunning, hjob]

/-! ### The first of April, four in the morning -/

/-- A day on which monthly and quarterly jobs are due. -/
def firstOfApril : DateTime where
  year := 2027
  month := 4
  day := 1
  hour := 4
  minute := 0
  second := 0
  nanosecond := 0
  year_lt := by decide
  date := by decide
  hour_lt := by decide
  minute_lt := by decide
  second_lt := by decide
  nanosecond_lt := by decide

/-- The ledger has a gap; everything else goes well. -/
def gapAnswers : SchedulerAnswers where
  record _ := .ok ()
  begins _ := .ok ()
  hashChain := .ok ⟨false, 12, some "ledger_sequence_gap"⟩
  signatures := .ok ⟨true, 12, none⟩
  generate _ := .error .noEntriesForPeriod
  fetch _ := .error "monthly_digest_not_found"
  exports _ := true
  restoreTest := .ok ()
  generate_period := by rintro _ _ ⟨⟩
  fetch_period := by rintro _ _ ⟨⟩

/-- A digest of a month. -/
def sampleDigestOf (period : MonthlyDigestPeriod) : SignedMonthlyDigest where
  period := period
  startSequenceNo := sampleRange.startSequenceNo
  endSequenceNo := sampleRange.endSequenceNo
  startEntryHash := sampleRange.startEntryHash
  endEntryHash := sampleRange.endEntryHash
  entryCount := sampleRange.entryCount
  digestGeneratedAt := sampleGeneratedAt
  signatureKeyVersion := sampleKey.keyVersion
  canonicalBytes := forgedBytes
  digestHash := forgedHash
  sbcSignature := forgedSignature

/-- Everything goes well. -/
def soundAnswers : SchedulerAnswers where
  record _ := .ok ()
  begins _ := .ok ()
  hashChain := .ok ⟨true, 12, none⟩
  signatures := .ok ⟨true, 12, none⟩
  generate period := .ok (sampleDigestOf period)
  fetch _ := .error "monthly_digest_not_found"
  exports _ := true
  restoreTest := .ok ()
  generate_period := by rintro _ _ ⟨⟩; rfl
  fetch_period := by rintro _ _ ⟨⟩

/-- On the first of April the digest of March is generated and exported, and then each quarterly job
is run. -/
theorem quarterlyJobs_attempted_firstOfApril :
    monthlyDue firstOfApril 1 3 = true ∧ ∀ jobName ∈ quarterlyJobs,
      (SchedulerState.new.runDueJobs ⟨1, 3, 3⟩ (firstOfApril, soundAnswers)).starts
        ⟨jobName, quarterPeriodKey firstOfApril⟩ = 1 := by
  refine ⟨by decide, fun jobName hjob => ?_⟩
  have hgoesOn : ¬SchedulerState.new.ReturnsEarly ⟨1, 3, 3⟩ (firstOfApril, soundAnswers) :=
    SchedulerState.goesOn_runMonthlyIfDue.mp (by decide +kernel)
  exact (quarterlyJobs_attempted_iff ⟨1, 3, 3⟩ .new (firstOfApril, soundAnswers) (by decide)
    jobName hjob List.not_mem_nil).mpr ⟨hgoesOn, List.not_mem_nil⟩

/-- The gap in the ledger fails the hash chain verification of March, and no quarterly job is
run. -/
theorem no_quarterlyJobs_after_gap :
    quarterlyDue firstOfApril 1 3 = true ∧ ∀ jobName ∈ quarterlyJobs,
      (SchedulerState.new.runDueJobs ⟨1, 3, 3⟩ (firstOfApril, gapAnswers)).starts
        ⟨jobName, quarterPeriodKey firstOfApril⟩ = 0 := by
  decide

end Mipsorcu
