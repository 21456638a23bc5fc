import Mipsorcu.Foundation.DateTime
import Mipsorcu.Foundation.Trace
import Mipsorcu.Server.MonthlyDigest
import Mipsorcu.Server.SignatureVerification
import Mathlib.Data.List.ReduceOption

/-!
# The scheduler

At each tick the scheduler runs what is due. Monthly it verifies the whole ledger in two jobs, then
generates the digest of the month before and exports it to the archive; quarterly it tests restoring
and records two reminders. A job that has completed for a period is not run again for it. Where an
earlier job fails, a failure is recorded under the keys of the later jobs: these records go through
`run_once_per_period` too, under the keys of the jobs they stand for.

What a tick does is written to a log, and a relation between an event and those before it says when
each may happen (`SchedulerEvent.Allowed`). The log of every sequence of ticks is valid
(`scheduler_gated`).
-/

namespace Mipsorcu

/-! ### Jobs -/

/-- `ScheduledJobName`. -/
inductive ScheduledJobName where
  | ledgerHashChainFullVerify
  | ledgerSignatureFullVerify
  | monthlyDigestGenerate
  | archiveExport
  | restoreTest
  | signatureKeyReviewReminder
  | auditorPermissionReviewReminder
  deriving DecidableEq

/-- A job with the month or the quarter it is for. -/
structure JobRunKey where
  jobName : ScheduledJobName
  periodKey : String
  deriving DecidableEq

/-- The settings of `SchedulerConfig` that decide what is due. -/
structure SchedulerConfig where
  monthlyDay : ℕ
  monthlyHourUtc : ℕ
  quarterlyHourUtc : ℕ

/-! ### What is due -/

/-- On the day, from the hour on. -/
def monthlyDue (now : DateTime) (monthlyDay monthlyHourUtc : ℕ) : Bool :=
  now.day == monthlyDay && decide (monthlyHourUtc ≤ now.hour)

/-- The same in the first month of a quarter. -/
def quarterlyDue (now : DateTime) (monthlyDay quarterlyHourUtc : ℕ) : Bool :=
  [1, 4, 7, 10].contains now.month && now.day == monthlyDay &&
    decide (quarterlyHourUtc ≤ now.hour)

/-- A year with at least four characters, the sign included. -/
def formatYear : ℤ → List Char
  | .ofNat year => padDigits 4 year
  | .negSucc n => '-' :: padDigits 3 (n + 1)

/-- The month the monthly jobs are for. -/
def previousMonthPeriod (now : DateTime) : Except LedgerError MonthlyDigestPeriod :=
  let year : ℤ := if now.month = 1 then now.year - 1 else now.year
  let month := if now.month = 1 then 12 else now.month - 1
  MonthlyDigestPeriod.parse (String.ofList (formatYear year ++ '-' :: padDigits 2 month))

/-- The quarter as a key, such as `2027-Q2`. -/
def quarterPeriodKey (now : DateTime) : String :=
  String.ofList (padDigits 4 now.year ++ ['-', 'Q'] ++ padDigits 1 ((now.month + 2) / 3))

/-! ### What is observed -/

/-- What a tick does, in the order it happens. -/
inductive SchedulerEvent where
  /-- The job of a key begins to run. -/
  | started (key : JobRunKey)
  /-- The verification of a key reports a valid ledger. -/
  | verified (key : JobRunKey)
  /-- `generate_monthly_digest` is called. A call that reports an error may have appended a
  digest. -/
  | digestRequested (period : MonthlyDigestPeriod)
  /-- The call returns the digest it appended. -/
  | digestGenerated (period : MonthlyDigestPeriod)
  | digestReadBack (period : MonthlyDigestPeriod)
  /-- A digest is handed to the archive. -/
  | archiveExported (period : MonthlyDigestPeriod)
  /-- A failure is recorded for a key whose job is not run. -/
  | preconditionFailed (key : JobRunKey) (errorCode : String)
  | completed (key : JobRunKey)
  | failed (key : JobRunKey) (errorCode : String)
  deriving DecidableEq

/-- A run of a job: what is observed of it, and its result. -/
structure JobRun (α : Type) where
  events : List SchedulerEvent
  result : Except String α

/-- What the rest of the world answers in one tick. A digest that is generated or read back is one
of the month that was asked for. -/
structure SchedulerAnswers where
  /-- `record_scheduler_job_result`, by the job. -/
  record : ScheduledJobName → Except String Unit
  /-- The request identifier and the time a job begins with. -/
  begins : ScheduledJobName → Except String Unit
  /-- `verify_full_ledger_hash_chain`. -/
  hashChain : Except String LedgerVerificationSummary
  /-- `verify_full_ledger_signatures`. -/
  signatures : Except String LedgerVerificationSummary
  /-- `generate_monthly_digest`. -/
  generate : MonthlyDigestPeriod → Except GenerateMonthlyDigestError SignedMonthlyDigest
  /-- `fetch_signed_digest`. -/
  fetch : MonthlyDigestPeriod → Except String SignedMonthlyDigest
  /-- Whether `export_digest_to_archive_with_incident` succeeds. -/
  exports : SignedMonthlyDigest → Bool
  /-- `run_restore_test_once`. -/
  restoreTest : Except String Unit
  generate_period : ∀ p d, generate p = .ok d → d.period = p
  fetch_period : ∀ p d, fetch p = .ok d → d.period = p

variable {db : LedgerDb} {P : Primitives}

/-- A digest that is generated is one of the month that was asked for. -/
theorem period_of_generateMonthlyDigest {pg : Postgres} {role : Sql.Role}
    {appender : LedgerAppender} {input : GenerateMonthlyDigestInput}
    {generated : Except LedgerError LedgerEntryId} {d : SignedMonthlyDigest}
    (h : (generateMonthlyDigest P pg role appender input generated db).2 = .ok d) :
    d.period = input.period := by
  simp only [generateMonthlyDigest] at h
  split at h
  · cases h
  · rename_i d₁ draft hprepared
    have hd : d₁ = d := by
      split at h
      · exact Except.ok.inj h
      · cases h
    simp only [prepareMonthlyDigest, Result.bind_eq_ok, Result.pure_eq_ok, Prod.mk.injEq]
      at hprepared
    obtain ⟨-, -, range, -, d', hsign, draft', -, rfl, -⟩ := hprepared
    exact hd ▸ (signMonthlyDigest_eq_ok.mp hsign).2.2.1

/-- `signed_digest_from_materials`; writing the canonical form cannot fail. -/
def signedDigestFromMaterials {P : Primitives} (m : MonthlyDigestVerificationMaterials P) :
    SignedMonthlyDigest where
  period := m.targetYearMonth
  startSequenceNo := m.startSequenceNo
  endSequenceNo := m.endSequenceNo
  startEntryHash := m.startEntryHash
  endEntryHash := m.endEntryHash
  entryCount := m.storedEntryCount
  digestGeneratedAt := m.digestGeneratedAt
  signatureKeyVersion := m.signatureKeyVersion
  canonicalBytes := m.canonicalForm m.targetYearMonth
  digestHash := DigestHash.fromCanonicalBytes P (m.canonicalForm m.targetYearMonth)
  sbcSignature := m.signature

/-- `fetch_signed_digest`. -/
def fetchSignedDigest (P : Primitives) (db : LedgerDb) (period : MonthlyDigestPeriod) :
    Except String SignedMonthlyDigest := do
  let materials ← (fetchMonthlyDigestForVerification P db period.text).mapError
    fun _ => "monthly_digest_fetch_failed"
  let m ← Result.ofOption "monthly_digest_not_found" materials
  pure (signedDigestFromMaterials m)

/-- The query filters by the month, and returns it with each row. -/
theorem targetYearMonth_of_row {yearMonth : String} {rows : List Sql.DigestForVerificationRow}
    {r : Sql.DigestForVerificationRow}
    (h : Sql.rpcFetchMonthlyDigestForVerification db yearMonth = .ok rows) (hr : r ∈ rows) :
    r.targetYearMonth = yearMonth := by
  simp only [Sql.rpcFetchMonthlyDigestForVerification, Result.bind_eq_ok, Result.pure_eq_ok] at h
  obtain ⟨_, -, found, hfound, rfl⟩ := h
  rw [List.reduceOption_mem_iff, Result.mem_traverse hfound] at hr
  obtain ⟨le, -, hrow⟩ := hr
  simp only [Sql.digestForVerificationRow, Result.bind_eq_ok] at hrow
  obtain ⟨_, -, _, -, hrow⟩ := hrow
  split at hrow
  · simp only [Result.bind_eq_ok, Result.pure_eq_ok, Option.some.injEq] at hrow
    obtain ⟨_, -, rfl⟩ := hrow
    rfl
  · cases hrow

theorem targetYearMonth_of_fetch {period : MonthlyDigestPeriod}
    {m : MonthlyDigestVerificationMaterials P}
    (h : fetchMonthlyDigestForVerification P db period.text = .ok (some m)) :
    m.targetYearMonth = period := by
  simp only [fetchMonthlyDigestForVerification, Result.bind_eq_ok, Result.mapError_eq_ok] at h
  obtain ⟨rows, hrows, _, -, hhead⟩ := h
  cases hrow : rows.head? with
  | none => simp [hrow] at hhead
  | some r =>
    rw [hrow] at hhead
    obtain ⟨m', htry, hm⟩ := Result.map_eq_ok.mp hhead
    obtain rfl := Option.some.inj hm
    have hmonth : r.targetYearMonth = period.text := targetYearMonth_of_row hrows
      (List.mem_of_mem_head? hrow)
    simp only [MonthlyDigestVerificationMaterials.tryFrom, Result.bind_eq_ok, Result.pure_eq_ok,
      Result.mapError_eq_ok, hmonth, MonthlyDigestPeriod.parse_text, Except.ok.injEq] at htry
    obtain ⟨_, -, _, -, _, -, _, -, _, -, _, -, _, rfl, _, -, _, -, _, -, _, -, _, -, _, -,
      rfl⟩ := htry
    rfl

theorem period_of_fetchSignedDigest {period : MonthlyDigestPeriod} {d : SignedMonthlyDigest}
    (h : fetchSignedDigest P db period = .ok d) : d.period = period := by
  simp only [fetchSignedDigest, Result.bind_eq_ok, Result.mapError_eq_ok, Result.ofOption_eq_ok,
    Result.pure_eq_ok] at h
  obtain ⟨_, hfetch, m, rfl, rfl⟩ := h
  exact targetYearMonth_of_fetch hfetch

/-- The answers of a process whose calls reach a ledger; what does not come from the ledger is
given. -/
def SchedulerAnswers.ofLedger (P : Primitives) (pg : Postgres) (role : Sql.Role)
    (appender : LedgerAppender) (db : LedgerDb) (generatedAt : SourceEventAt)
    (requestId : RequestId) (entryId : Except LedgerError LedgerEntryId)
    (record begins : ScheduledJobName → Except String Unit) (exports : SignedMonthlyDigest → Bool)
    (restoreTest : Except String Unit) : SchedulerAnswers where
  record := record
  begins := begins
  hashChain := verifyFullLedgerHashChain P (fetchLedgerChainHead db)
    (exportLedgerVerificationMaterials pg db)
  signatures := verifyFullLedgerSignatures P (fetchLedgerChainHead db)
    (exportLedgerVerificationMaterials pg db)
  generate period := (generateMonthlyDigest P pg role appender ⟨period, generatedAt, requestId⟩
    entryId db).2
  fetch := fetchSignedDigest P db
  exports := exports
  restoreTest := restoreTest
  generate_period _ _ h := period_of_generateMonthlyDigest h
  fetch_period _ _ h := period_of_fetchSignedDigest h

/-- The error code is that of a digest that exists already. -/
def GenerateMonthlyDigestError.isDuplicate : GenerateMonthlyDigestError → Bool
  | .duplicateDigest => true
  | .noEntriesForPeriod => false
  | .fetchFailed code => code == "monthly_digest_duplicate"
  | .buildFailed _ => false
  | .appendFailed code => code == "monthly_digest_duplicate"

namespace SchedulerAnswers

variable (a : SchedulerAnswers)

/-- The two verification jobs; they differ in what they verify and in the code of a failure that
has none. -/
def runFullVerifyJob (key : JobRunKey) (outcome : Except String LedgerVerificationSummary)
    (failureCode : String) : JobRun Unit :=
  match outcome with
  | .ok summary =>
    if summary.valid then ⟨[.verified key], a.record key.jobName⟩
    else ⟨[], do a.record key.jobName; .error (summary.errorCode.getD failureCode)⟩
  | .error code => ⟨[], do a.record key.jobName; .error code⟩

/-- The first job of a month. -/
def runFullLedgerHashChainVerifyJob (period : MonthlyDigestPeriod) : JobRun Unit :=
  a.runFullVerifyJob ⟨.ledgerHashChainFullVerify, period.text⟩ a.hashChain
    "ledger_verification_failed"

/-- The second job of a month. -/
def runFullLedgerSignatureVerifyJob (period : MonthlyDigestPeriod) : JobRun Unit :=
  a.runFullVerifyJob ⟨.ledgerSignatureFullVerify, period.text⟩ a.signatures
    "ledger_signature_verification_failed"

/-- A digest that is there already is read back. -/
def runMonthlyDigestGenerateJob (period : MonthlyDigestPeriod) : JobRun SignedMonthlyDigest :=
  match a.begins .monthlyDigestGenerate with
  | .error code => ⟨[], .error code⟩
  | .ok () =>
    match a.generate period with
    | .ok d => ⟨[.digestRequested period, .digestGenerated d.period], do
        a.record .monthlyDigestGenerate; pure d⟩
    | .error error =>
      -- the ledger has a digest of the month, which is read back
      if error.isDuplicate then
        match a.fetch period with
        | .ok d => ⟨[.digestRequested period, .digestReadBack d.period], do
            a.record .monthlyDigestGenerate; pure d⟩
        | .error _ => ⟨[.digestRequested period], do
            a.record .monthlyDigestGenerate; .error "monthly_digest_existing_fetch_failed"⟩
      else ⟨[.digestRequested period], do
        a.record .monthlyDigestGenerate; .error "monthly_digest_generate_failed"⟩

/-- The digest is handed to the archive. -/
def runArchiveExportJob (d : SignedMonthlyDigest) : JobRun Unit :=
  match a.begins .archiveExport with
  | .error code => ⟨[], .error code⟩
  | .ok () => ⟨[.archiveExported d.period],
      if a.exports d then a.record .archiveExport
      else do a.record .archiveExport; .error "archive_export_failed"⟩

/-- A job that is skipped is recorded as failed. -/
def recordPreconditionFailureJob (key : JobRunKey) (errorCode : String) : JobRun Unit :=
  ⟨[.preconditionFailed key errorCode], do a.record key.jobName; .error errorCode⟩

/-- The restore test can fail; the reminders only leave a record. -/
def runQuarterlyJob (jobName : ScheduledJobName) : JobRun Unit :=
  match jobName with
  | .restoreTest =>
    match a.restoreTest with
    | .ok () => ⟨[], a.record jobName⟩
    | .error code => ⟨[], do a.record jobName; .error code⟩
  | .signatureKeyReviewReminder => ⟨[], a.record jobName⟩
  | .auditorPermissionReviewReminder => ⟨[], a.record jobName⟩
  | _ => ⟨[], .ok ()⟩

end SchedulerAnswers

/-! ### Ticks -/

/-- The quarterly jobs, in their order. -/
def quarterlyJobs : List ScheduledJobName :=
  [.restoreTest, .signatureKeyReviewReminder, .auditorPermissionReviewReminder]

/-- `SchedulerRuntimeState`: the keys that have completed and the jobs whose lock is held; with it,
what was observed. -/
structure SchedulerState where
  completed : List JobRunKey
  running : List ScheduledJobName
  log : List SchedulerEvent

namespace SchedulerState

/-- Nothing has run yet. -/
def new : SchedulerState :=
  ⟨[], [], []⟩

/-- `run_once_per_period`. The lock is released before the function returns. -/
def runOncePerPeriod {α : Type} (s : SchedulerState) (key : JobRunKey) (run : JobRun α) :
    SchedulerState × Except String (Option α) :=
  if s.completed.contains key then (s, .ok none)
  else if s.running.contains key.jobName then (s, .error "scheduler_job_already_running")
  else
    match run.result with
    | .ok output => ({ s with
        completed := s.completed ++ [key]
        log := s.log ++ .started key :: run.events ++ [.completed key] }, .ok (some output))
    | .error code => ({ s with log := s.log ++ .started key :: run.events ++ [.failed key code] },
        .error code)

/-- A failure is recorded under the key of a job. -/
def recordPreconditionFailure (s : SchedulerState) (a : SchedulerAnswers) (key : JobRunKey)
    (errorCode : String) : SchedulerState :=
  (s.runOncePerPeriod key (a.recordPreconditionFailureJob key errorCode)).1

/-- The two verifications: whether neither failed. -/
def runVerifications (s : SchedulerState) (a : SchedulerAnswers) (period : MonthlyDigestPeriod) :
    SchedulerState × Bool :=
  let hash := s.runOncePerPeriod ⟨.ledgerHashChainFullVerify, period.text⟩
    (a.runFullLedgerHashChainVerifyJob period)
  let signature := hash.1.runOncePerPeriod ⟨.ledgerSignatureFullVerify, period.text⟩
    (a.runFullLedgerSignatureVerifyJob period)
  (signature.1, hash.2.toOption.isSome && signature.2.toOption.isSome)

/-- The export of a digest. -/
def runArchiveExport (s : SchedulerState) (a : SchedulerAnswers) (d : SignedMonthlyDigest) :
    SchedulerState :=
  (s.runOncePerPeriod ⟨.archiveExport, d.period.text⟩ (a.runArchiveExportJob d)).1

/-- The digest of the month and its export, after the verifications. The flag tells whether the
tick goes on with the quarterly jobs. -/
def runDigest (s : SchedulerState) (a : SchedulerAnswers) (period : MonthlyDigestPeriod) :
    SchedulerState × Bool :=
  match s.runOncePerPeriod ⟨.monthlyDigestGenerate, period.text⟩
      (a.runMonthlyDigestGenerateJob period) with
  | (s, .ok (some d)) => (s.runArchiveExport a d, true)
  | (s, .ok none) =>
    match a.fetch period with
    | .ok d => (runArchiveExport { s with log := s.log ++ [.digestReadBack d.period] } a d, true)
    | .error code => (s.recordPreconditionFailure a ⟨.archiveExport, period.text⟩ code, false)
  | (s, .error _) => (s.recordPreconditionFailure a ⟨.archiveExport, period.text⟩
      "monthly_digest_generate_failed", false)

/-- The monthly jobs. -/
def runMonthlyJobs (s : SchedulerState) (a : SchedulerAnswers) (period : MonthlyDigestPeriod) :
    SchedulerState × Bool :=
  match s.runVerifications a period with
  | (s, true) => s.runDigest a period
  | (s, false) =>
    let s := s.recordPreconditionFailure a ⟨.monthlyDigestGenerate, period.text⟩
      "ledger_verification_precondition_failed"
    (s.recordPreconditionFailure a ⟨.archiveExport, period.text⟩
      "ledger_verification_precondition_failed", false)

/-- The jobs of the second half of `run_due_jobs`, one after the other. -/
def runQuarterlyJobs (s : SchedulerState) (a : SchedulerAnswers) (quarterKey : String) :
    SchedulerState :=
  quarterlyJobs.foldl (fun s jobName =>
    (s.runOncePerPeriod ⟨jobName, quarterKey⟩ (a.runQuarterlyJob jobName)).1) s

/-- The monthly jobs, if they are due. -/
def runMonthlyIfDue (config : SchedulerConfig) (s : SchedulerState)
    (tick : DateTime × SchedulerAnswers) : SchedulerState × Bool :=
  if monthlyDue tick.1 config.monthlyDay config.monthlyHourUtc then
    match previousMonthPeriod tick.1 with
    | .ok period => s.runMonthlyJobs tick.2 period
    | .error _ => (s, false)
  else (s, true)

/-- `run_due_jobs`. An early return from the monthly jobs leaves out the quarterly ones. -/
def runDueJobs (config : SchedulerConfig) (s : SchedulerState)
    (tick : DateTime × SchedulerAnswers) : SchedulerState :=
  let monthly := s.runMonthlyIfDue config tick
  if monthly.2 && quarterlyDue tick.1 config.monthlyDay config.quarterlyHourUtc then
    monthly.1.runQuarterlyJobs tick.2 (quarterPeriodKey tick.1)
  else monthly.1

/-- The ticks of one process. -/
def run (config : SchedulerConfig) (ticks : List (DateTime × SchedulerAnswers)) : SchedulerState :=
  ticks.foldl (runDueJobs config) new

end SchedulerState

/-! ### When each event may happen -/

/-- Both verifications of a month have completed. -/
def Verified (before : List SchedulerEvent) (period : MonthlyDigestPeriod) : Prop :=
  .completed ⟨.ledgerHashChainFullVerify, period.text⟩ ∈ before ∧
    .completed ⟨.ledgerSignatureFullVerify, period.text⟩ ∈ before

theorem Verified.mono {before after : List SchedulerEvent} {period : MonthlyDigestPeriod}
    (h : Verified before period) (hsubset : before ⊆ after) : Verified after period :=
  ⟨hsubset h.1, hsubset h.2⟩

/-- The job verifies the ledger. -/
def ScheduledJobName.IsVerification (jobName : ScheduledJobName) : Prop :=
  jobName = .ledgerHashChainFullVerify ∨ jobName = .ledgerSignatureFullVerify

/-- What must have happened before an event, and what must not. A key is completed by a run of its
job: not by a recorded failure, and for a verification only with a valid ledger. -/
def SchedulerEvent.Allowed (before : List SchedulerEvent) : SchedulerEvent → Prop
  | .started key => .completed key ∉ before
  | .verified _ => True
  | .digestRequested period => Verified before period
  | .digestGenerated period => Verified before period
  | .digestReadBack period => Verified before period
  | .archiveExported period => Verified before period ∧
      (.digestGenerated period ∈ before ∨ .digestReadBack period ∈ before)
  | .preconditionFailed _ _ => True
  | .completed key => ∃ earlier events, before = earlier ++ .started key :: events ∧
      (∀ code, .preconditionFailed key code ∉ events) ∧
      (key.jobName.IsVerification → .verified key ∈ events)
  | .failed _ _ => True

/-- The log is valid, and the completed keys are those that the log says have completed. -/
structure SchedulerState.Gated (s : SchedulerState) : Prop where
  valid : Trace.Valid SchedulerEvent.Allowed s.log
  completed_iff : ∀ key, key ∈ s.completed ↔ .completed key ∈ s.log

/-- What a run of a job may do when it is started after `before`. -/
structure JobRun.Allowed {α : Type} (run : JobRun α) (key : JobRunKey)
    (before : List SchedulerEvent) : Prop where
  events : Trace.Valid (fun events => SchedulerEvent.Allowed (before ++ .started key :: events))
    run.events
  completes : ∀ k, .completed k ∉ run.events
  result : ∀ output, run.result = .ok output → (∀ code, .preconditionFailed key code ∉ run.events) ∧
    (key.jobName.IsVerification → .verified key ∈ run.events)

namespace SchedulerState

variable {α : Type} {s : SchedulerState} {key : JobRunKey} {run : JobRun α}

theorem gated_new : new.Gated :=
  ⟨Trace.valid_nil, fun key => by simp [new]⟩

/-- An event that is allowed is logged. -/
theorem Gated.concat (h : s.Gated) {e : SchedulerEvent} (he : SchedulerEvent.Allowed s.log e)
    (hne : ∀ k, e ≠ .completed k) : Gated { s with log := s.log ++ [e] } := by
  refine ⟨Trace.valid_append.mpr ⟨h.valid, Trace.valid_singleton.mpr ?_⟩, fun k => ?_⟩
  · rwa [List.append_nil]
  · rw [h.completed_iff, List.mem_append, List.mem_singleton,
      or_iff_left fun heq => hne k heq.symm]

/-- What is logged of a run is valid up to its end. -/
theorem Gated.valid_run (h : s.Gated) (hrun : run.Allowed key s.log) (hnew : key ∉ s.completed) :
    Trace.Valid SchedulerEvent.Allowed (s.log ++ .started key :: run.events) := by
  refine Trace.valid_append.mpr ⟨h.valid, Trace.valid_cons.mpr ⟨?_, hrun.events⟩⟩
  rw [List.append_nil]
  exact fun hmem => hnew ((h.completed_iff key).mpr hmem)

/-- **One run**: it keeps the log valid, and what was logged stays. A result without an error means
that the key has completed. -/
theorem Gated.runOncePerPeriod (h : s.Gated) (hrun : run.Allowed key s.log) :
    (s.runOncePerPeriod key run).1.Gated ∧ s.log <+: (s.runOncePerPeriod key run).1.log ∧
      ∀ output, (s.runOncePerPeriod key run).2 = .ok output →
        .completed key ∈ (s.runOncePerPeriod key run).1.log := by
  unfold SchedulerState.runOncePerPeriod
  split_ifs with hcompleted hrunning
  · rw [List.contains_iff_mem] at hcompleted
    exact ⟨h, List.prefix_refl _, fun _ _ => (h.completed_iff key).mp hcompleted⟩
  · exact ⟨h, List.prefix_refl _, by rintro output ⟨⟩⟩
  · have hnew : key ∉ s.completed := by rwa [← List.contains_iff_mem]
    have hvalid := h.valid_run hrun hnew
    -- the keys that the run logs as completed
    have hkeys : ∀ k, .completed k ∈ s.log ++ .started key :: run.events ↔ k ∈ s.completed := by
      intro k
      simp [h.completed_iff, hrun.completes k]
    split
    · rename_i output hok
      refine ⟨⟨Trace.valid_append.mpr ⟨hvalid, Trace.valid_singleton.mpr ?_⟩, fun k => ?_⟩, ?_, ?_⟩
      · rw [List.append_nil]
        exact ⟨s.log, run.events, rfl, hrun.result output hok⟩
      · rw [List.mem_append, List.mem_append, hkeys, List.mem_singleton, List.mem_singleton]
        exact or_congr_right ⟨congrArg _, SchedulerEvent.completed.inj⟩
      · exact (List.prefix_append _ _).trans (List.prefix_append _ _)
      · exact fun _ _ => List.mem_append_right _ (List.mem_singleton_self _)
    · rename_i code herror
      refine ⟨⟨Trace.valid_append.mpr ⟨hvalid, Trace.valid_singleton.mpr trivial⟩, fun k => ?_⟩,
        ?_, by rintro output ⟨⟩⟩
      · rw [List.mem_append, hkeys, List.mem_singleton]
        exact (or_iff_left (by rintro ⟨⟩)).symm
      · exact (List.prefix_append _ _).trans (List.prefix_append _ _)

end SchedulerState

/-! ### The jobs -/

namespace SchedulerAnswers

variable {a : SchedulerAnswers} {before : List SchedulerEvent} {period : MonthlyDigestPeriod}

/-- A job that logs nothing and does not verify. -/
theorem allowed_silent {α : Type} {key : JobRunKey} {result : Except String α}
    (h : ¬key.jobName.IsVerification) : JobRun.Allowed ⟨[], result⟩ key before :=
  ⟨Trace.valid_nil, by simp, fun _ _ => ⟨by simp, fun hverification => absurd hverification h⟩⟩

/-- A job that logs nothing and fails. -/
theorem allowed_failure {α : Type} {key : JobRunKey} {result : Except String α}
    (h : ∀ output, result ≠ .ok output) : JobRun.Allowed ⟨[], result⟩ key before :=
  ⟨Trace.valid_nil, by simp, fun output hok => absurd hok (h output)⟩

theorem allowed_runFullVerifyJob (key : JobRunKey)
    (outcome : Except String LedgerVerificationSummary) (failureCode : String) :
    (a.runFullVerifyJob key outcome failureCode).Allowed key before := by
  have hfails : ∀ code : String, ∀ output : Unit,
      (do a.record key.jobName; .error code) ≠ (.ok output : Except String Unit) := by
    intro code output h
    obtain ⟨_, -, hcode⟩ := Result.bind_eq_ok.mp h
    cases hcode
  unfold runFullVerifyJob
  split
  · split_ifs with hvalid
    · exact ⟨Trace.valid_singleton.mpr trivial, by simp, fun _ _ => ⟨by simp, fun _ => by simp⟩⟩
    · exact allowed_failure (hfails _)
  · exact allowed_failure (hfails _)

theorem allowed_runFullLedgerHashChainVerifyJob (a : SchedulerAnswers)
    (period : MonthlyDigestPeriod) : (a.runFullLedgerHashChainVerifyJob period).Allowed
      ⟨.ledgerHashChainFullVerify, period.text⟩ before :=
  allowed_runFullVerifyJob _ _ _

theorem allowed_runFullLedgerSignatureVerifyJob (a : SchedulerAnswers)
    (period : MonthlyDigestPeriod) : (a.runFullLedgerSignatureVerifyJob period).Allowed
      ⟨.ledgerSignatureFullVerify, period.text⟩ before :=
  allowed_runFullVerifyJob _ _ _

theorem allowed_recordPreconditionFailureJob (key : JobRunKey) (errorCode : String) :
    (a.recordPreconditionFailureJob key errorCode).Allowed key before := by
  refine ⟨Trace.valid_singleton.mpr trivial, by simp [recordPreconditionFailureJob], ?_⟩
  intro output hok
  obtain ⟨_, -, hcode⟩ := Result.bind_eq_ok.mp hok
  cases hcode

/-- What the digest job logs is about the month that was asked for. -/
theorem mem_events_runMonthlyDigestGenerateJob {e : SchedulerEvent}
    (h : e ∈ (a.runMonthlyDigestGenerateJob period).events) :
    e = .digestRequested period ∨ e = .digestGenerated period ∨ e = .digestReadBack period := by
  unfold runMonthlyDigestGenerateJob at h
  split at h
  · cases h
  · split at h
    · rename_i d hd
      rw [a.generate_period period d hd, List.mem_cons, List.mem_singleton] at h
      exact h.imp_right .inl
    · split_ifs at h with hduplicate
      · split at h
        · rename_i d hd
          rw [a.fetch_period period d hd, List.mem_cons, List.mem_singleton] at h
          exact h.imp_right .inr
        · exact .inl (List.mem_singleton.mp h)
      · exact .inl (List.mem_singleton.mp h)

/-- A digest that the job returns is one of the month, and was generated or read back by it. -/
theorem digest_of_runMonthlyDigestGenerateJob {d : SignedMonthlyDigest}
    (h : (a.runMonthlyDigestGenerateJob period).result = .ok d) :
    d.period = period ∧
      (.digestGenerated d.period ∈ (a.runMonthlyDigestGenerateJob period).events ∨
        .digestReadBack d.period ∈ (a.runMonthlyDigestGenerateJob period).events) := by
  unfold runMonthlyDigestGenerateJob at h ⊢
  cases hbegins : a.begins .monthlyDigestGenerate with
  | error code => simp [hbegins] at h
  | ok _ =>
    cases hgenerate : a.generate period with
    | ok d' =>
      simp only [hbegins, hgenerate, Result.bind_eq_ok, Result.pure_eq_ok] at h ⊢
      obtain ⟨_, -, rfl⟩ := h
      exact ⟨a.generate_period period _ hgenerate, .inl (by simp)⟩
    | error error =>
      cases hduplicate : error.isDuplicate with
      | false => simp [hbegins, hgenerate, hduplicate, Result.bind_eq_ok] at h
      | true =>
        cases hfetch : a.fetch period with
        | error code => simp [hbegins, hgenerate, hduplicate, hfetch, Result.bind_eq_ok] at h
        | ok d' =>
          simp only [hbegins, hgenerate, hduplicate, hfetch, if_true, Result.bind_eq_ok,
            Result.pure_eq_ok] at h ⊢
          obtain ⟨_, -, rfl⟩ := h
          exact ⟨a.fetch_period period _ hfetch, .inr (by simp)⟩

theorem allowed_runMonthlyDigestGenerateJob (h : Verified before period) :
    (a.runMonthlyDigestGenerateJob period).Allowed
      ⟨.monthlyDigestGenerate, period.text⟩ before := by
  have hverification : ¬ScheduledJobName.monthlyDigestGenerate.IsVerification := by
    rintro (h | h) <;> cases h
  refine ⟨Trace.valid_of_forall fun e he events => ?_, fun k hk => ?_, fun _ _ =>
    ⟨fun code hcode => ?_, fun hv => absurd hv hverification⟩⟩
  · -- each of the three events needs the verifications only, and these are behind already
    rcases mem_events_runMonthlyDigestGenerateJob he with rfl | rfl | rfl <;>
      exact h.mono (List.subset_append_left _ _)
  · rcases mem_events_runMonthlyDigestGenerateJob hk with h | h | h <;> cases h
  · rcases mem_events_runMonthlyDigestGenerateJob hcode with h | h | h <;> cases h

theorem allowed_runArchiveExportJob {d : SignedMonthlyDigest} (h : Verified before d.period)
    (hdigest : .digestGenerated d.period ∈ before ∨ .digestReadBack d.period ∈ before) :
    (a.runArchiveExportJob d).Allowed ⟨.archiveExport, d.period.text⟩ before := by
  have hverification : ¬ScheduledJobName.archiveExport.IsVerification := by
    rintro (h | h) <;> cases h
  unfold runArchiveExportJob
  split
  · exact allowed_failure (by rintro output ⟨⟩)
  · refine ⟨Trace.valid_singleton.mpr ⟨h.mono (List.subset_append_left _ _), ?_⟩, by simp,
      fun _ _ => ⟨by simp, fun hv => absurd hv hverification⟩⟩
    exact hdigest.imp (List.mem_append_left _) (List.mem_append_left _)

theorem allowed_runQuarterlyJob {jobName : ScheduledJobName} {quarterKey : String}
    (h : ¬jobName.IsVerification) :
    (a.runQuarterlyJob jobName).Allowed ⟨jobName, quarterKey⟩ before := by
  unfold runQuarterlyJob
  split
  · split <;> exact allowed_silent h
  · exact allowed_silent h
  · exact allowed_silent h
  · exact allowed_silent h

end SchedulerAnswers

/-! ### The ticks -/

namespace SchedulerState

variable {s : SchedulerState} {a : SchedulerAnswers} {period : MonthlyDigestPeriod}

open SchedulerAnswers

theorem Gated.recordPreconditionFailure (h : s.Gated) (key : JobRunKey) (errorCode : String) :
    (s.recordPreconditionFailure a key errorCode).Gated :=
  (h.runOncePerPeriod (allowed_recordPreconditionFailureJob key errorCode)).1

/-- If neither verification fails, both have completed. -/
theorem Gated.runVerifications (h : s.Gated) (a : SchedulerAnswers) (period : MonthlyDigestPeriod) :
    (s.runVerifications a period).1.Gated ∧
      ((s.runVerifications a period).2 = true →
        Verified (s.runVerifications a period).1.log period) := by
  obtain ⟨hhash, -, hhashed⟩ := h.runOncePerPeriod
    (allowed_runFullLedgerHashChainVerifyJob a period)
  obtain ⟨hsignature, hprefix, hsigned⟩ := hhash.runOncePerPeriod
    (allowed_runFullLedgerSignatureVerifyJob a period)
  refine ⟨hsignature, fun hok => ?_⟩
  obtain ⟨hok₁, hok₂⟩ := Bool.and_eq_true_iff.mp hok
  obtain ⟨output₁, houtput₁⟩ := Option.isSome_iff_exists.mp hok₁
  obtain ⟨output₂, houtput₂⟩ := Option.isSome_iff_exists.mp hok₂
  exact ⟨ hprefix.subset (hhashed output₁ (Result.toOption_eq_some.mp houtput₁)),
    hsigned output₂ (Result.toOption_eq_some.mp houtput₂)⟩

theorem Gated.runArchiveExport (h : s.Gated) {d : SignedMonthlyDigest}
    (hverified : Verified s.log d.period)
    (hdigest : .digestGenerated d.period ∈ s.log ∨ .digestReadBack d.period ∈ s.log) :
    (s.runArchiveExport a d).Gated :=
  (h.runOncePerPeriod (allowed_runArchiveExportJob hverified hdigest)).1

/-- A job that is run and succeeds: its result, and what it logged. -/
theorem result_of_runOncePerPeriod {α : Type} {key : JobRunKey} {run : JobRun α} {output : α}
    (h : (s.runOncePerPeriod key run).2 = .ok (some output)) :
    run.result = .ok output ∧ run.events ⊆ (s.runOncePerPeriod key run).1.log := by
  unfold SchedulerState.runOncePerPeriod at h ⊢
  by_cases hcompleted : s.completed.contains key = true
  · rw [if_pos hcompleted] at h
    cases h
  by_cases hrunning : s.running.contains key.jobName = true
  · rw [if_neg hcompleted, if_pos hrunning] at h
    cases h
  rw [if_neg hcompleted, if_neg hrunning] at h ⊢
  rcases run with ⟨events, code | output'⟩
  · cases h
  · cases h
    exact ⟨rfl, fun e he => by simp [he]⟩

theorem Gated.runDigest (h : s.Gated) (hverified : Verified s.log period) :
    (s.runDigest a period).1.Gated := by
  obtain ⟨hgated, hprefix, -⟩ := h.runOncePerPeriod
    (allowed_runMonthlyDigestGenerateJob (a := a) hverified)
  have hverified' := hverified.mono hprefix.subset
  unfold SchedulerState.runDigest
  split
  · rename_i s' d hrun
    -- the digest was generated or read back by the job
    obtain ⟨hresult, hevents⟩ := result_of_runOncePerPeriod (congrArg Prod.snd hrun)
    obtain ⟨rfl, hdigest⟩ := digest_of_runMonthlyDigestGenerateJob hresult
    rw [hrun] at hgated hverified' hevents
    exact hgated.runArchiveExport hverified' (hdigest.imp (@hevents _) (@hevents _))
  · rename_i s' hrun
    rw [hrun] at hgated hverified'
    split
    · rename_i d hd
      -- the job has completed before, and the digest is read back now
      obtain rfl := a.fetch_period period d hd
      have hread : SchedulerEvent.Allowed s'.log (.digestReadBack d.period) := hverified'
      refine (hgated.concat hread (by rintro k ⟨⟩)).runArchiveExport ?_ ?_
      · exact hverified'.mono (List.subset_append_left _ _)
      · exact .inr (List.mem_append_right _ (List.mem_singleton_self _))
    · exact hgated.recordPreconditionFailure _ _
  · rename_i s' error hrun
    rw [hrun] at hgated
    exact hgated.recordPreconditionFailure _ _

theorem Gated.runMonthlyJobs (h : s.Gated) : (s.runMonthlyJobs a period).1.Gated := by
  obtain ⟨hgated, hverified⟩ := h.runVerifications a period
  unfold SchedulerState.runMonthlyJobs
  split
  · rename_i s' hrun
    rw [hrun] at hgated hverified
    exact hgated.runDigest (hverified rfl)
  · rename_i s' hrun
    rw [hrun] at hgated
    exact (hgated.recordPreconditionFailure _ _).recordPreconditionFailure _ _

theorem Gated.runQuarterlyJobs (h : s.Gated) (quarterKey : String) :
    (s.runQuarterlyJobs a quarterKey).Gated := by
  have hjob : ∀ {s : SchedulerState} (jobName : ScheduledJobName), s.Gated →
      ¬jobName.IsVerification →
      (s.runOncePerPeriod ⟨jobName, quarterKey⟩ (a.runQuarterlyJob jobName)).1.Gated :=
    fun jobName hs hjobName => (hs.runOncePerPeriod (allowed_runQuarterlyJob hjobName)).1
  refine hjob _ (hjob _ (hjob _ h ?_) ?_) ?_ <;> rintro (h | h) <;> cases h

/-- **One tick.** -/
theorem Gated.runDueJobs (config : SchedulerConfig) (h : s.Gated)
    (tick : DateTime × SchedulerAnswers) : (s.runDueJobs config tick).Gated := by
  have hmonthly : (s.runMonthlyIfDue config tick).1.Gated := by
    unfold SchedulerState.runMonthlyIfDue
    split_ifs
    · split
      · exact h.runMonthlyJobs
      · exact h
    · exact h
  simp only [SchedulerState.runDueJobs]
  split_ifs
  · exact hmonthly.runQuarterlyJobs _
  · exact hmonthly

end SchedulerState

/-- **The scheduler's jobs are gated.** After any ticks of a process, with any clock and any
answers: a digest is asked for, generated or read back, and handed to the archive, only after both
verifications of its month have completed; it is handed to the archive only after it was generated
or read back; a job that has completed for a period does not start again for it; and a key is
completed by a run of its job, never by a recorded failure. -/
theorem scheduler_gated (config : SchedulerConfig) (ticks : List (DateTime × SchedulerAnswers)) :
    (SchedulerState.run config ticks).Gated := by
  have hrun : ∀ (ticks : List (DateTime × SchedulerAnswers)) (s : SchedulerState), s.Gated →
      (ticks.foldl (SchedulerState.runDueJobs config) s).Gated := by
    intro ticks
    induction ticks with
    | nil => exact fun s hs => hs
    | cons tick ticks ih => exact fun s hs => ih _ (hs.runDueJobs config tick)
  exact hrun ticks _ SchedulerState.gated_new

end Mipsorcu
