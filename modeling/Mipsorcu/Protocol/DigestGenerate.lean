import Mipsorcu.Server.MonthlyDigest
import Mipsorcu.Server.SignatureVerification

/-!
# Generating digests concurrently

Any number of runs of the digest generation, for any months, act on one ledger together with any
other appends. A run asks whether its month has a digest, fetches the range of the month, signs,
and appends. These are separate transactions; the append starts over on a stale head, and does not
ask again whether the month has a digest. A call may also be committed after its run has returned:
the client has given up waiting for it, or the process has stopped.

The ledger never has two digests of a month (`GenerateSystem.neverTwoDigests`), for a reason that
is not in the code of a run: the server may not read the table its question is about, so no run
gets past it. Under a role that may, two runs for one month can both find no digest and both append
one (`GenerateSystem.two_digests`). What is enough for any role is that a run asks only while no
other run for the month is between its question and its end.
-/

namespace Mipsorcu

/-! ### One run -/

/-- A run of `generate_monthly_digest`, with the answer of its identifier generator. -/
structure GenerateRun where
  appender : LedgerAppender
  input : GenerateMonthlyDigestInput
  generated : Except LedgerError LedgerEntryId

/-- Where a run is. -/
inductive GeneratePhase where
  /-- It is about to ask whether the month has a digest. -/
  | checking
  /-- It is about to fetch the range of the month. -/
  | ranging
  /-- It has signed a digest and appends the draft that records it. -/
  | appending (d : SignedMonthlyDigest) (draft : LedgerAppendDraft) (phase : AppendPhase)
  /-- It has returned, or its process has stopped, and its call is still on its way. -/
  | late (d : SignedMonthlyDigest) (draft : LedgerAppendDraft) (entry : SignedLedgerEntry)
      (result : Option (Except GenerateMonthlyDigestError SignedMonthlyDigest))
  | finished (result : Except GenerateMonthlyDigestError SignedMonthlyDigest)
  /-- The process has stopped, and nothing of it is on its way. -/
  | crashed

/-- What can happen to a run. -/
inductive GenerateAction where
  | check
  /-- The question or its answer is lost. -/
  | checkLost
  | fetchRange
  | rangeLost
  | append (action : AppendAction)
  /-- The client gives up waiting for its call. -/
  | timeOut
  | crash
  /-- The process stops while its call is on its way. -/
  | crashCalling
  /-- The call of a run that has ended reaches the database. -/
  | arrive
  /-- It never does. -/
  | vanish
  deriving DecidableEq

/-- The run has asked and has not ended; nothing of a run that has ended is on its way. -/
def GeneratePhase.InFlight : GeneratePhase → Prop
  | ranging | appending _ _ _ | late _ _ _ _ => True
  | checking | finished _ | crashed => False

/-- What the run has returned. -/
def GeneratePhase.result? :
    GeneratePhase → Option (Except GenerateMonthlyDigestError SignedMonthlyDigest)
  | finished result => some result
  | _ => none

/-- The end of a run with a result, or of one whose process has stopped. -/
def GeneratePhase.ended :
    Option (Except GenerateMonthlyDigestError SignedMonthlyDigest) → GeneratePhase
  | some result => .finished result
  | none => .crashed

namespace GenerateRun

variable (P : Primitives) (pg : Postgres) (role : Sql.Role)

/-- The run learns whether the month has a digest. -/
def onCheck (answer : Except SupabaseRpcError Bool) : GeneratePhase :=
  match checkDuplicate answer with
  | .ok () => .ranging
  | .error error => .finished (.error error)

/-- The run learns the range of the month. -/
def onRange (r : GenerateRun)
    (answer : Except SupabaseRpcError (Option LedgerRangeForMonth)) : GeneratePhase :=
  match prepareMonthlyDigest P r.appender r.input r.generated answer with
  | .ok (d, draft) => .appending d draft (.fetching 0)
  | .error error => .finished (.error error)

/-- The append goes on, or has ended. -/
def onAppend (d : SignedMonthlyDigest) (draft : LedgerAppendDraft) : AppendPhase → GeneratePhase
  | .finished (.ok _) => .finished (.ok d)
  | .finished (.error error) => .finished (.error (.appendFailed error.asErrorCode))
  | phase => .appending d draft phase

/-- The client that appends the draft of a run. -/
def client (r : GenerateRun) (draft : LedgerAppendDraft) : AppendClient :=
  ⟨r.appender, draft⟩

/-- The run ends in the middle of a call, with the result it has then. -/
def onLeave (d : SignedMonthlyDigest) (draft : LedgerAppendDraft)
    (result : ℕ → Option (Except GenerateMonthlyDigestError SignedMonthlyDigest)) :
    AppendPhase → Option GeneratePhase
  | .calling retryIndex entry => some (.late d draft entry (result retryIndex))
  | _ => none

/-- One action of the run: the tables and its phase afterwards. -/
def next (r : GenerateRun) (db : LedgerDb) :
    GeneratePhase → GenerateAction → Option (LedgerDb × GeneratePhase)
  | .checking, .check => some (db, onCheck (checkMonthlyDigestExists role db r.input.period.text))
  | .checking, .checkLost => some (db, onCheck (.error .network))
  | .ranging, .fetchRange =>
    some (db, r.onRange P (fetchLedgerRangeForMonth role db r.input.period.text))
  | .ranging, .rangeLost => some (db, r.onRange P (.error .network))
  | .appending d draft phase, .append action =>
    ((r.client draft).next P pg db phase action).map fun result =>
      (result.1, onAppend d draft result.2)
  -- the call is abandoned, and its request may arrive later
  | .appending d draft phase, .timeOut => (onLeave d draft (fun k =>
      (onAppend d draft ((r.client draft).onResponse k (.error .network))).result?) phase).map
        fun after => (db, after)
  | .appending d draft phase, .crashCalling =>
    (onLeave d draft (fun _ => none) phase).map fun after => (db, after)
  | .late _ _ e result, .arrive => some ((callAppendLedgerEntry pg db e).1, .ended result)
  | .late _ _ _ result, .vanish => some (db, .ended result)
  | .checking, .crash | .ranging, .crash | .appending _ _ _, .crash => some (db, .crashed)
  | _, _ => none

/-- The draft records a digest of the month of the run. -/
structure Drafted (r : GenerateRun) (d : SignedMonthlyDigest) (draft : LedgerAppendDraft) :
    Prop where
  period : d.period = r.input.period
  generatedAt : d.digestGeneratedAt = r.input.generatedAt
  draft_eq : digestDraft r.input r.generated d = .ok draft

/-- What a run keeps: it appends a draft that records a digest of its month, with entries it has
signed for that draft. -/
def Valid (r : GenerateRun) : GeneratePhase → Prop
  | .appending d draft phase => r.Drafted d draft ∧
      ∀ k e, phase = .calling k e → (r.client draft).Signs P e
  | .late d draft e _ => r.Drafted d draft ∧ (r.client draft).Signs P e
  | _ => True

variable {P pg role} {r : GenerateRun} {db db' : LedgerDb} {phase phase' : GeneratePhase}
  {action : GenerateAction}

/-- An entry signed for the draft records a digest of the month. -/
theorem Drafted.recordsDigest {d : SignedMonthlyDigest} {draft : LedgerAppendDraft}
    {e : SignedLedgerEntry} (h : r.Drafted d draft) (hsigns : (r.client draft).Signs P e) :
    RecordsDigest d e :=
  digestDraft_eq_ok h.draft_eq hsigns.1 h.generatedAt

/-- Only a check that found no digest goes on. -/
theorem onCheck_inFlight {answer : Except SupabaseRpcError Bool}
    (h : (onCheck answer).InFlight) : answer = .ok false := by
  rcases answer with _ | _ | _
  · exact h.elim
  · rfl
  · exact h.elim

theorem valid_onCheck (r : GenerateRun) (answer : Except SupabaseRpcError Bool) :
    r.Valid P (onCheck answer) := by
  rcases answer with _ | _ | _ <;> trivial

theorem valid_onRange (answer : Except SupabaseRpcError (Option LedgerRangeForMonth)) :
    r.Valid P (r.onRange P answer) := by
  unfold onRange
  split
  · rename_i d draft hprepared
    simp only [prepareMonthlyDigest, Result.bind_eq_ok, Result.pure_eq_ok, Prod.mk.injEq]
      at hprepared
    obtain ⟨_, -, d, hsign, draft, hdraft, rfl, rfl⟩ := hprepared
    obtain ⟨-, -, hperiod, hat⟩ := signMonthlyDigest_eq_ok.mp hsign
    exact ⟨⟨hperiod, hat, hdraft⟩, by simp⟩
  · trivial

theorem onRange_eq_appending {answer : Except SupabaseRpcError (Option LedgerRangeForMonth)}
    {d : SignedMonthlyDigest} {draft : LedgerAppendDraft}
    (h : prepareMonthlyDigest P r.appender r.input r.generated answer = .ok (d, draft)) :
    r.onRange P answer = .appending d draft (.fetching 0) := by
  rw [onRange, h]

/-- A run in flight has no answer to its append yet. -/
theorem onAppend_finished {d : SignedMonthlyDigest} {draft : LedgerAppendDraft}
    {phase : AppendPhase} (h : (onAppend d draft phase).InFlight) (result) :
    phase ≠ .finished result := by
  rintro rfl
  rcases result with _ | _ <;> exact h

/-- What is on its way is the entry the run was calling with. -/
theorem onLeave_eq_some {d : SignedMonthlyDigest} {draft : LedgerAppendDraft}
    {result : ℕ → Option (Except GenerateMonthlyDigestError SignedMonthlyDigest)}
    {before : AppendPhase} {after : GeneratePhase}
    (h : onLeave d draft result before = some after) :
    ∃ k e, before = .calling k e ∧ after = .late d draft e (result k) := by
  cases before with
  | calling k e => exact ⟨k, e, rfl, (Option.some.inj h).symm⟩
  | _ => cases h

theorem not_inFlight_ended
    (result : Option (Except GenerateMonthlyDigestError SignedMonthlyDigest)) :
    ¬ (GeneratePhase.ended result).InFlight := by
  cases result <;> exact id

theorem valid_ended (r : GenerateRun)
    (result : Option (Except GenerateMonthlyDigestError SignedMonthlyDigest)) :
    r.Valid P (.ended result) := by
  cases result <;> trivial

/-- What one action can do. The tables change only when the entry of a run in flight is added;
that entry records a digest of the month of the run, and the run has ended. And a run gets in
flight only by asking when there is no digest. -/
structure NextSpec (role : Sql.Role) (r : GenerateRun) (db : LedgerDb) (phase : GeneratePhase)
    (action : GenerateAction) (db' : LedgerDb) (phase' : GeneratePhase) : Prop where
  db_eq : db' = db ∨ ∃ d e, phase.InFlight ∧ ¬ phase'.InFlight ∧ Appended db e db' ∧
    RecordsDigest d e ∧ d.period = r.input.period
  inFlight : phase'.InFlight → phase.InFlight ∨
    action = .check ∧ checkMonthlyDigestExists role db r.input.period.text = .ok false

/-- An action of the append of a run. -/
theorem nextSpec_append {d : SignedMonthlyDigest} {draft : LedgerAppendDraft}
    {before after : AppendPhase} (hvalid : r.Valid P (.appending d draft before))
    (hspec : AppendClient.NextSpec P (r.client draft) db before db' after)
    (action : AppendAction) :
    NextSpec role r db (.appending d draft before) (.append action) db'
      (onAppend d draft after) := by
  obtain ⟨hdrafted, hcalling⟩ := hvalid
  refine ⟨hspec.db_eq.imp_right ?_, fun _ => .inl trivial⟩
  rintro ⟨k, e, hphase, happended, result, hfinished⟩
  exact ⟨d, e, trivial, fun h => onAppend_finished h result hfinished, happended,
    hdrafted.recordsDigest (hcalling k e hphase), hdrafted.period⟩

/-- The call of a run that has ended reaches the database. -/
theorem nextSpec_arrive {d : SignedMonthlyDigest} {draft : LedgerAppendDraft}
    {e : SignedLedgerEntry}
    {result : Option (Except GenerateMonthlyDigestError SignedMonthlyDigest)}
    (hvalid : r.Valid P (.late d draft e result)) :
    NextSpec role r db (.late d draft e result) .arrive (callAppendLedgerEntry pg db e).1
      (.ended result) := by
  obtain ⟨hdrafted, hsigns⟩ := hvalid
  have hspec := (callAppendLedgerEntry_spec
    (Prod.mk.eta (p := callAppendLedgerEntry pg db e)).symm).1
  refine ⟨hspec.imp_right fun happended => ?_, fun _ => .inl trivial⟩
  exact ⟨d, e, trivial, not_inFlight_ended result, happended, hdrafted.recordsDigest hsigns,
    hdrafted.period⟩

/-- **All a run can do** in one action. -/
theorem nextSpec_of_next (hvalid : r.Valid P phase)
    (h : r.next P pg role db phase action = some (db', phase')) :
    NextSpec role r db phase action db' phase' := by
  cases phase with
  | checking =>
    cases action <;> simp only [next, Option.some.injEq, Prod.mk.injEq, reduceCtorEq] at h
    all_goals obtain ⟨rfl, rfl⟩ := h
    -- a run is in flight from the check on that found no digest
    case check => exact ⟨.inl rfl, fun hflight => .inr ⟨rfl, onCheck_inFlight hflight⟩⟩
    case checkLost => exact ⟨.inl rfl, fun hflight => absurd (onCheck_inFlight hflight) (by simp)⟩
    case crash => exact ⟨.inl rfl, False.elim⟩
  | appending d draft before =>
    cases action <;> simp only [next, Option.map_eq_some_iff, Option.some.injEq, Prod.mk.injEq,
      reduceCtorEq] at h
    case append action =>
      obtain ⟨⟨db₁, after⟩, hnext, rfl, rfl⟩ := h
      exact nextSpec_append hvalid (AppendClient.nextSpec_of_next hnext) action
    case crash => exact ⟨.inl h.1.symm, fun _ => .inl trivial⟩
    all_goals
      obtain ⟨after, -, rfl, -⟩ := h
      exact ⟨.inl rfl, fun _ => .inl trivial⟩
  | late d draft e result =>
    cases action <;> simp only [next, Option.some.injEq, Prod.mk.injEq, reduceCtorEq] at h
    all_goals obtain ⟨rfl, rfl⟩ := h
    case arrive => exact nextSpec_arrive hvalid
    case vanish => exact ⟨.inl rfl, fun _ => .inl trivial⟩
  | ranging =>
    cases action <;> simp only [next, Option.some.injEq, Prod.mk.injEq, reduceCtorEq] at h
    all_goals
      obtain ⟨rfl, rfl⟩ := h
      exact ⟨.inl rfl, fun _ => .inl trivial⟩
  | finished result => cases action <;> simp only [next, reduceCtorEq] at h
  | crashed => cases action <;> simp only [next, reduceCtorEq] at h

/-- The append of a run whose entry the database accepts. -/
theorem next_append_of_accepts {d : SignedMonthlyDigest} {draft : LedgerAppendDraft}
    {head : LedgerChainHead} {e : SignedLedgerEntry} (hhead : fetchLedgerChainHead db = .ok head)
    (hext : Extends P head e) (hsigns : (r.client draft).Signs P e) (haccepts : Accepts pg db e) :
    r.next P pg role db (.appending d draft (.fetching 0)) (.append .fetchHead) =
        some (db, .appending d draft (.calling 0 e)) ∧
      r.next P pg role db (.appending d draft (.calling 0 e)) (.append .call) =
        some (db.add e, .finished (.ok d)) := by
  constructor
  · rw [next, AppendClient.next_fetchHead_of_extends hhead hext hsigns]
    rfl
  · rw [next, AppendClient.next_call_of_accepts haccepts]
    rfl

/-- A step keeps what a phase has computed valid. -/
theorem valid_next (hvalid : r.Valid P phase)
    (h : r.next P pg role db phase action = some (db', phase')) : r.Valid P phase' := by
  cases phase with
  | checking =>
    cases action <;> simp only [next, Option.some.injEq, Prod.mk.injEq, reduceCtorEq] at h
    case crash => exact h.2 ▸ trivial
    all_goals exact h.2 ▸ valid_onCheck r _
  | ranging =>
    cases action <;> simp only [next, Option.some.injEq, Prod.mk.injEq, reduceCtorEq] at h
    case crash => exact h.2 ▸ trivial
    all_goals exact h.2 ▸ valid_onRange _
  | appending d draft before =>
    cases action <;> simp only [next, Option.map_eq_some_iff, Option.some.injEq, Prod.mk.injEq,
      reduceCtorEq] at h
    -- what the client signs next is again of the draft
    case append action =>
      obtain ⟨⟨db₁, after⟩, hnext, -, rfl⟩ := h
      have hsigns := (AppendClient.nextSpec_of_next hnext).signs
      unfold onAppend
      split
      · trivial
      · trivial
      · exact ⟨hvalid.1, hsigns⟩
    case crash => exact h.2 ▸ trivial
    all_goals
      obtain ⟨after, hleave, -, rfl⟩ := h
      obtain ⟨k, e, rfl, rfl⟩ := onLeave_eq_some hleave
      exact ⟨hvalid.1, hvalid.2 k e rfl⟩
  | late d draft e result =>
    cases action <;> simp only [next, Option.some.injEq, Prod.mk.injEq, reduceCtorEq] at h
    all_goals exact h.2 ▸ valid_ended r result
  | finished result => cases action <;> simp only [next, reduceCtorEq] at h
  | crashed => cases action <;> simp only [next, reduceCtorEq] at h

end GenerateRun

/-! ### The system -/

/-- Runs of the generation, and clients with other drafts, on one ledger. -/
structure GenerateSystem (ι κ : Type) where
  run : ι → GenerateRun
  other : κ → AppendClient
  registry : List LedgerSigningPublicKeyRow
  other_entryType : ∀ k, (other k).draft.entryType ≠ .monthlyDigest

/-- The tables and all phases. -/
structure GenerateWorld (ι κ : Type) where
  db : LedgerDb
  generating : ι → GeneratePhase
  appending : κ → AppendPhase

/-- A run or another client acts. -/
inductive GenerateEvent (ι κ : Type) where
  | generate (i : ι) (action : GenerateAction)
  | append (k : κ) (action : AppendAction)

/-- The rows that record a digest of the month. -/
def digestsOf (period : MonthlyDigestPeriod) (db : LedgerDb) : List LedgerEntryRow :=
  db.entries.filter (Sql.isMonthlyDigestOf period.text)

/-- Another entry adds no digest of the month. -/
theorem digestsOf_add_of_not {period : MonthlyDigestPeriod} {db : LedgerDb} {e : SignedLedgerEntry}
    (h : Sql.isMonthlyDigestOf period.text (.ofSigned e) = false) :
    digestsOf period (db.add e) = digestsOf period db := by
  have hnone : [LedgerEntryRow.ofSigned e].filter (Sql.isMonthlyDigestOf period.text) = [] :=
    List.filter_eq_nil_iff.mpr (by simp [h])
  rw [digestsOf, LedgerDb.add_entries, List.filter_append, hnone, List.append_nil]
  rfl

/-- Any entry adds at most one. -/
theorem length_digestsOf_add_le (period : MonthlyDigestPeriod) (db : LedgerDb)
    (e : SignedLedgerEntry) :
    (digestsOf period (db.add e)).length ≤ (digestsOf period db).length + 1 := by
  rw [digestsOf, LedgerDb.add_entries, List.filter_append, List.length_append]
  exact Nat.add_le_add_left (List.length_filter_le _ _) _

/-- No digest was found, so there is none. -/
theorem digestsOf_eq_nil {role : Sql.Role} {period : MonthlyDigestPeriod} {db : LedgerDb}
    (h : checkMonthlyDigestExists role db period.text = .ok false) :
    digestsOf period db = [] := by
  have hany := Sql.rpcCheckMonthlyDigestExists_eq_ok (Result.mapError_eq_ok.mp h)
  exact List.filter_eq_nil_iff.mpr (List.any_eq_false.mp hany)

/-- An entry that records a digest is a digest of its month, and of no other. -/
theorem RecordsDigest.isMonthlyDigestOf_iff {d : SignedMonthlyDigest} {e : SignedLedgerEntry}
    (h : RecordsDigest d e) {yearMonth : String} :
    Sql.isMonthlyDigestOf yearMonth (.ofSigned e) = true ↔ d.period.text = yearMonth := by
  have hpayload : (LedgerEntryRow.ofSigned e).payload = .object d.payloadMembers :=
    congrArg Json.object h.payload
  have htype : (LedgerEntryRow.ofSigned e).entryType = "monthly_digest" :=
    congrArg LedgerEntryType.asStr h.entryType
  have hmonth : Sql.memberText (.object d.payloadMembers) "target_year_month" =
      some d.period.text := rfl
  rw [Sql.isMonthlyDigestOf, hpayload, htype, hmonth]
  simp

namespace GenerateSystem

variable {ι κ : Type} (P : Primitives) (pg : Postgres) (role : Sql.Role)

/-- The empty ledger, with everyone at the start. -/
def init (sys : GenerateSystem ι κ) : GenerateWorld ι κ :=
  ⟨Sql.emptyLedger sys.registry, fun _ => .checking, fun _ => .fetching 0⟩

/-- A run or a client acts. -/
def step [DecidableEq ι] [DecidableEq κ] (sys : GenerateSystem ι κ) (w : GenerateWorld ι κ) :
    GenerateEvent ι κ → Option (GenerateWorld ι κ)
  | .generate i action => ((sys.run i).next P pg role w.db (w.generating i) action).map fun r =>
      { w with db := r.1, generating := Function.update w.generating i r.2 }
  | .append k action => ((sys.other k).next P pg w.db (w.appending k) action).map fun r =>
      { w with db := r.1, appending := Function.update w.appending k r.2 }

/-- A run for the month asks only while no other run for the month is in flight. -/
def NoOverlap (sys : GenerateSystem ι κ) (period : MonthlyDigestPeriod) (w : GenerateWorld ι κ)
    (event : GenerateEvent ι κ) : Prop :=
  ∀ i, event = .generate i .check → (sys.run i).input.period = period →
    ∀ j, j ≠ i → (sys.run j).input.period = period → ¬ (w.generating j).InFlight

theorem noOverlap_of_ne {sys : GenerateSystem ι κ} {period : MonthlyDigestPeriod}
    {w : GenerateWorld ι κ} {event : GenerateEvent ι κ}
    (h : ∀ i, event ≠ .generate i .check) : sys.NoOverlap period w event :=
  fun i hi => absurd hi (h i)

/-- What holds along a run without overlaps: there is at most one digest of the month, and none
while a run for the month is in flight; and only one is. -/
structure Inv (sys : GenerateSystem ι κ) (period : MonthlyDigestPeriod) (w : GenerateWorld ι κ) :
    Prop where
  valid : ∀ i, (sys.run i).Valid P (w.generating i)
  signs : ∀ k n e, w.appending k = .calling n e → (sys.other k).Signs P e
  atMostOne : (digestsOf period w.db).length ≤ 1
  none_of_inFlight : ∀ i, (sys.run i).input.period = period → (w.generating i).InFlight →
    digestsOf period w.db = []
  alone : ∀ i j, (sys.run i).input.period = period → (sys.run j).input.period = period →
    (w.generating i).InFlight → (w.generating j).InFlight → i = j

variable {P pg role} {sys : GenerateSystem ι κ} {period : MonthlyDigestPeriod}
  {w w' : GenerateWorld ι κ}

theorem inv_init (sys : GenerateSystem ι κ) (period : MonthlyDigestPeriod) :
    sys.Inv P period sys.init where
  valid _ := trivial
  signs := by simp [init]
  atMostOne := by simp [init, digestsOf, Sql.emptyLedger]
  none_of_inFlight _ _ h := h.elim
  alone _ _ _ _ h := h.elim

/-- A step is an action of one run or of one client; all others stay where they are. -/
theorem step_cases [DecidableEq ι] [DecidableEq κ]
    {guard : GenerateWorld ι κ → GenerateEvent ι κ → Prop}
    (h : Transition.StepWhere (sys.step P pg role) guard w w') :
    (∃ i action, guard w (.generate i action) ∧
        (sys.run i).next P pg role w.db (w.generating i) action = some (w'.db, w'.generating i) ∧
        (∀ j, j ≠ i → w'.generating j = w.generating j) ∧ w'.appending = w.appending) ∨
      ∃ k action, (sys.other k).next P pg w.db (w.appending k) action =
          some (w'.db, w'.appending k) ∧
        (∀ j, j ≠ k → w'.appending j = w.appending j) ∧ w'.generating = w.generating := by
  obtain ⟨event, hguard, hevent⟩ := h
  cases event with
  | generate i action =>
    obtain ⟨⟨db', phase'⟩, hnext, rfl⟩ := Option.map_eq_some_iff.mp hevent
    refine .inl ⟨i, action, hguard, ?_, fun j hj => Function.update_of_ne hj _ _, rfl⟩
    simp only [Function.update_self]
    exact hnext
  | append k action =>
    obtain ⟨⟨db', phase'⟩, hnext, rfl⟩ := Option.map_eq_some_iff.mp hevent
    refine .inr ⟨k, action, ?_, fun j hj => Function.update_of_ne hj _ _, rfl⟩
    simp only [Function.update_self]
    exact hnext

/-- An action of another client adds no digest. -/
theorem digestsOf_of_append {k : κ} (h : sys.Inv P period w)
    (hspec : AppendClient.NextSpec P (sys.other k) w.db (w.appending k) w'.db (w'.appending k)) :
    digestsOf period w'.db = digestsOf period w.db := by
  rcases hspec.db_eq with hdb | ⟨n, e, hphase, happended, -⟩
  · rw [hdb]
  · have hrecorded := (h.signs k n e hphase).1
    have htype : e.entryType = (sys.other k).draft.entryType :=
      congrArg LedgerAppendDraftParts.entryType hrecorded
    rw [happended.db_eq, digestsOf_add_of_not]
    simp only [Sql.isMonthlyDigestOf, LedgerEntryRow.ofSigned, Bool.and_eq_false_imp, beq_iff_eq]
    intro hsame
    have hdigest : e.entryType = .monthlyDigest := LedgerEntryType.asStr_injective hsame
    exact absurd (htype.symm.trans hdigest) (sys.other_entryType k)

/-- **Step**, for another client. -/
theorem inv_append {k : κ} (h : sys.Inv P period w)
    (hspec : AppendClient.NextSpec P (sys.other k) w.db (w.appending k) w'.db (w'.appending k))
    (hothers : ∀ j, j ≠ k → w'.appending j = w.appending j)
    (hgenerating : w'.generating = w.generating) : sys.Inv P period w' := by
  have hdigests := digestsOf_of_append h hspec
  refine ⟨hgenerating ▸ h.valid, fun j n e hj => ?_, hdigests ▸ h.atMostOne, ?_,
    hgenerating ▸ h.alone⟩
  · by_cases hjk : j = k
    · subst hjk
      exact hspec.signs n e hj
    · exact h.signs j n e (hothers j hjk ▸ hj)
  · rw [hgenerating, hdigests]
    exact h.none_of_inFlight

/-- An action of a run adds a digest of the month only if the run is one for the month, there was
none, and the run has ended. -/
theorem digestsOf_of_generate {i : ι} {action : GenerateAction} (h : sys.Inv P period w)
    (hspec : GenerateRun.NextSpec role (sys.run i) w.db (w.generating i) action
      w'.db (w'.generating i)) :
    digestsOf period w'.db = digestsOf period w.db ∨
      (digestsOf period w'.db).length ≤ 1 ∧ (sys.run i).input.period = period ∧
        (w.generating i).InFlight ∧ ¬ (w'.generating i).InFlight := by
  rcases hspec.db_eq with hdb | ⟨d, e, hflight, hended, happended, hrecords, hd⟩
  · exact .inl (by rw [hdb])
  · by_cases hperiod : (sys.run i).input.period = period
    · refine .inr ⟨?_, hperiod, hflight, hended⟩
      have hle := length_digestsOf_add_le period w.db e
      rwa [h.none_of_inFlight i hperiod hflight, ← happended.db_eq] at hle
    · refine .inl ?_
      rw [happended.db_eq, digestsOf_add_of_not]
      rw [Bool.eq_false_iff, Ne, hrecords.isMonthlyDigestOf_iff]
      exact fun hsame => hperiod (hd.symm.trans (MonthlyDigestPeriod.text_injective hsame))

/-- A run for the month that is in flight after its own action has no other one beside it: either
it was in flight before, or it has just asked, which it does only when there is none. -/
theorem alone_of_generate {i j : ι} {action : GenerateAction} (h : sys.Inv P period w)
    (hguard : sys.NoOverlap period w (.generate i action))
    (hspec : GenerateRun.NextSpec role (sys.run i) w.db (w.generating i) action
      w'.db (w'.generating i))
    (hi : (sys.run i).input.period = period) (hj : (sys.run j).input.period = period)
    (hflight : (w'.generating i).InFlight) (hbefore : (w.generating j).InFlight) : j = i := by
  rcases hspec.inFlight hflight with hsame | ⟨rfl, -⟩
  · exact h.alone j i hj hi hbefore hsame
  · by_contra hne
    exact hguard i rfl hi j hne hj hbefore

/-- **Step**, for a run of the generation that does not overlap with another one for the month. -/
theorem inv_generate {i : ι} {action : GenerateAction} (h : sys.Inv P period w)
    (hguard : sys.NoOverlap period w (.generate i action))
    (hnext : (sys.run i).next P pg role w.db (w.generating i) action =
      some (w'.db, w'.generating i))
    (hothers : ∀ j, j ≠ i → w'.generating j = w.generating j)
    (happending : w'.appending = w.appending) : sys.Inv P period w' := by
  have hspec := GenerateRun.nextSpec_of_next (h.valid i) hnext
  have hdigests := digestsOf_of_generate h hspec
  have hbefore {j : ι} (hj : j ≠ i) (hflight : (w'.generating j).InFlight) :
      (w.generating j).InFlight := hothers j hj ▸ hflight
  -- either the table has no new digest of the period, or this run was in flight and is not any more
  refine ⟨fun j => ?_, happending ▸ h.signs, ?_, fun j hj hflight => ?_,
    fun j k hj hk hflight hflight' => ?_⟩
  · by_cases hji : j = i
    · subst hji
      exact GenerateRun.valid_next (h.valid j) hnext
    · exact hothers j hji ▸ h.valid j
  · rcases hdigests with hsame | ⟨hle, -⟩
    · exact hsame ▸ h.atMostOne
    · exact hle
  · by_cases hji : j = i
    · subst hji
      rcases hdigests with hsame | ⟨-, -, -, hended⟩
      · rcases hspec.inFlight hflight with hwas | ⟨-, hnone⟩
        · exact hsame ▸ h.none_of_inFlight j hj hwas
        · exact hsame ▸ digestsOf_eq_nil (hj ▸ hnone)
      · exact absurd hflight hended
    · rcases hdigests with hsame | ⟨-, hi, hwas, -⟩
      · exact hsame ▸ h.none_of_inFlight j hj (hbefore hji hflight)
      · exact absurd (h.alone j i hj hi (hbefore hji hflight) hwas) hji
  · by_cases hji : j = i
    · by_cases hki : k = i
      · rw [hji, hki]
      · subst hji
        exact (alone_of_generate h hguard hspec hj hk hflight (hbefore hki hflight')).symm
    · by_cases hki : k = i
      · subst hki
        exact alone_of_generate h hguard hspec hk hj hflight' (hbefore hji hflight)
      · exact h.alone j k hj hk (hbefore hji hflight) (hbefore hki hflight')

/-- **Step.** -/
theorem inv_step [DecidableEq ι] [DecidableEq κ] (h : sys.Inv P period w)
    (hstep : Transition.StepWhere (sys.step P pg role) (sys.NoOverlap period) w w') :
    sys.Inv P period w' := by
  rcases step_cases hstep with ⟨i, action, hguard, hnext, hothers, happending⟩ |
    ⟨k, action, hnext, hothers, hgenerating⟩
  · exact inv_generate h hguard hnext hothers happending
  · exact inv_append h (AppendClient.nextSpec_of_next hnext) hothers hgenerating

/-- **Run**: along every run of the system without overlaps there is at most one digest of the
month, whatever else is appended, lost or crashes, in whatever order. -/
theorem atMostOne_of_noOverlap [DecidableEq ι] [DecidableEq κ]
    (h : Transition.ReachableWhere (sys.step P pg role) (sys.NoOverlap period) sys.init w) :
    (digestsOf period w.db).length ≤ 1 := by
  have hinv : sys.Inv P period w :=
    Transition.invariant (sys.Inv P period) (fun _ _ ha hab => inv_step ha hab)
      (inv_init sys period) h
  exact hinv.atMostOne

/-! ### The role of the server -/

/-- No run is in flight. -/
def Quiet (w : GenerateWorld ι κ) : Prop :=
  ∀ i, ¬ (w.generating i).InFlight

/-- With no run in flight, any step is allowed. -/
theorem Quiet.noOverlap (h : Quiet w) (event : GenerateEvent ι κ) :
    sys.NoOverlap period w event :=
  fun _ _ _ j _ _ => h j

/-- **Step**: a run of the server ends with its question. -/
theorem quiet_step [DecidableEq ι] [DecidableEq κ] (h : sys.Inv P period w) (hquiet : Quiet w)
    (hstep : Transition.StepWhere (sys.step P pg .serviceRole) (sys.NoOverlap period) w w') :
    Quiet w' := by
  rcases step_cases hstep with ⟨i, action, -, hnext, hothers, -⟩ | ⟨k, action, -, -, hgenerating⟩
  · intro j hflight
    by_cases hji : j = i
    · subst hji
      rcases (GenerateRun.nextSpec_of_next (h.valid j) hnext).inFlight hflight with
        hwas | ⟨-, hnone⟩
      · exact hquiet j hwas
      · exact Sql.rpcCheckMonthlyDigestExists_serviceRole _ _ _ (Result.mapError_eq_ok.mp hnone)
    · exact hquiet j (hothers j hji ▸ hflight)
  · rw [Quiet, hgenerating]
    exact hquiet

/-- **Run**: the server never appends a second digest, as it never appends one. -/
theorem atMostOne_of_serviceRole [DecidableEq ι] [DecidableEq κ]
    (h : Transition.Reachable (sys.step P pg .serviceRole) sys.init w) :
    (digestsOf period w.db).length ≤ 1 := by
  have hinv : sys.Inv P period w ∧ Quiet w := by
    refine Transition.invariant (fun w => sys.Inv P period w ∧ Quiet w) ?_
      ⟨inv_init sys period, fun _ => id⟩ h
    rintro a b ⟨ha, hquiet⟩ ⟨event, hevent⟩
    have hstep : Transition.StepWhere (sys.step P pg .serviceRole) (sys.NoOverlap period) a b :=
      ⟨event, hquiet.noOverlap event, hevent⟩
    exact ⟨inv_step ha hstep, quiet_step ha hquiet hstep⟩
  exact hinv.1.atMostOne

/-! ### Two runs for one month -/

/-- The digest of the month over the ledger of the first sample entry, with the SHA-256 and the
Ed25519 signature of its canonical form. -/
def sampleDigest : SignedMonthlyDigest where
  period := samplePeriod
  startSequenceNo := (sampleEntry 1).sequenceNo
  endSequenceNo := (sampleEntry 1).sequenceNo
  startEntryHash := sampleHash
  endEntryHash := sampleHash
  entryCount := 1
  digestGeneratedAt := sampleGeneratedAt
  signatureKeyVersion := sampleKey.keyVersion
  canonicalBytes := buildMonthlyDigestCanonicalForm samplePeriod (sampleEntry 1).sequenceNo
    (sampleEntry 1).sequenceNo sampleHash sampleHash 1 sampleGeneratedAt sampleKey.keyVersion
  digestHash := .ofNat _ 0x7ac5682da2a61def3bdb7ede23c51176eb37be4cec9a0f4a86ca9213d63abd24
  sbcSignature := .ofHalves _
    0x6255b080e08766ed4abf5390f571385f1f1a5ea03baf22f74cb783233a999987
    0x12170fc932b72284b69c4fd589781bbd33db5725b766287e9b9435351b2d590d

theorem canonicalBytes_sampleDigest : sampleDigest.canonicalBytes = sampleDigest.canonicalForm := by
  simp only [SignedMonthlyDigest.canonicalForm, sampleDigest]

/-- The month of the sample entry. -/
def sampleDigestInput : GenerateMonthlyDigestInput :=
  ⟨samplePeriod, sampleGeneratedAt, ⟨sampleUuid 9⟩⟩

/-- What is appended for the digest, under a given identifier. -/
def sampleDigestDraft (id : UInt8) : LedgerAppendDraft where
  ledgerEntryId := sampleEntryId id
  entryType := .monthlyDigest
  sourceEventAt := sampleGeneratedAt
  requestId := ⟨sampleUuid 9⟩
  sourceEventId := none
  targetSecretId := none
  targetSecretVersionId := none
  actorUserId := none
  actorDeviceId := none
  result := .success
  errorCode := none
  payload := {
    entryType := .monthlyDigest
    object := sampleDigest.payloadMembers
    sorted := by unfold SortedMap.Sorted; decide +kernel
    valid := by decide +kernel }
  payload_entryType := rfl

/-- The entry that records the digest, with the SHA-256 and the Ed25519 signature of its canonical
form. -/
def sampleDigestEntry : SignedLedgerEntry where
  toLedgerEntryParts := (sampleDigestDraft 2).entryParts sampleNext.sequenceNo sampleHash
    sampleKey.keyVersion
  valid := rfl
  entryHash := .ofNat _ 0x8f88242e11612adf1bc983681a5d232fde6316b45399b2557371c5d4113e88ce
  signature := .ofHalves _
    0x5daa3dd90b8da5fcea029ad2fee9fb3fdf1a5e8bb4dbb5cef411deae2ebe2adf
    0xcd1c892621ba97dc41f72a2e327e770092f44f7786ae72aaf766305dfcac710b

/-- The same digest, recorded once more. -/
def sampleDigestAgain : SignedLedgerEntry where
  toLedgerEntryParts := (sampleDigestDraft 3).entryParts sampleThirdNo
    sampleDigestEntry.entryHash sampleKey.keyVersion
  valid := rfl
  entryHash := .ofNat _ 0xb6d3025c74143f1a5eb14febaaf5e805c985a798cd57f4be0d9f3e7e52fca8fd
  signature := .ofHalves _
    0x630e3fc5dc76aa4ea32d1129394bf903a89e313cdf517d76cafeec0f4af252e6
    0x21b63c119d89f34692c1f528285d650750dc4d4915da1ffed86b56dc6965970b

/-- The table of the three entries and of the digest. -/
def digestPrimitives : Primitives :=
  .ofTable samplePublicKey ([sampleEntry 1, sampleDigestEntry, sampleDigestAgain].map
    SignedLedgerEntry.tableRow ++
      [(sampleDigest.canonicalBytes, sampleDigest.digestHash, sampleDigest.sbcSignature)])

theorem signedBy_digestPrimitives {e : SignedLedgerEntry}
    (he : e ∈ [sampleEntry 1, sampleDigestEntry, sampleDigestAgain]) :
    SignedBy digestPrimitives sampleKey e := by
  refine signedBy_ofTable _ he (by decide) ?_
  revert e
  decide

private theorem lookup_sampleDigest : ([sampleEntry 1, sampleDigestEntry, sampleDigestAgain].map
    SignedLedgerEntry.tableRow ++
      [(sampleDigest.canonicalBytes, sampleDigest.digestHash, sampleDigest.sbcSignature)]).lookup
    sampleDigest.canonicalBytes = some (sampleDigest.digestHash, sampleDigest.sbcSignature) :=
  lookup_after_tableRows _ fun e => by
    rw [canonicalBytes_sampleDigest]
    exact buildMonthlyDigestCanonicalForm_ne_canonicalPayload _ _ _ _ _ _ _ _ e

theorem signedBy_sampleDigest : sampleDigest.SignedBy digestPrimitives sampleKey where
  signatureKeyVersion := rfl
  canonicalBytes := canonicalBytes_sampleDigest
  digestHash := (Primitives.sha256_ofTable lookup_sampleDigest).symm
  sbcSignature := (Primitives.sign_ofTable lookup_sampleDigest _).symm

/-- The database accepts the entry of the first run. -/
theorem accepts_sampleDigestEntry : Accepts samplePostgres sampleLedger sampleDigestEntry where
  keyVersion_le := by decide
  values := by decide +kernel
  id_uuidV4 := by decide
  chainState := ⟨.after (sampleEntry 1), rfl, rfl, rfl⟩
  id_fresh := by simp [sampleLedger]; decide
  sequenceNo_fresh := by simp [sampleLedger]; decide
  entryHash_fresh := by simp [sampleLedger]; decide

theorem prepareMonthlyDigest_sample (id : UInt8) :
    prepareMonthlyDigest digestPrimitives sampleAppender sampleDigestInput (.ok (sampleEntryId id))
        (.ok (some sampleDigest.range)) = .ok (sampleDigest, sampleDigestDraft id) := by
  simp only [prepareMonthlyDigest, Result.bind_eq_ok, Result.pure_eq_ok]
  refine ⟨sampleDigest.range, rfl, sampleDigest,
    signMonthlyDigest_eq_ok.mpr ⟨signedBy_sampleDigest, rfl, rfl, rfl⟩, sampleDigestDraft id, ?_,
    rfl⟩
  simp only [digestDraft, Result.bind_eq_ok, Result.mapError_eq_ok]
  exact ⟨(sampleDigestDraft id).payload, SignedMonthlyDigest.newPayload_eq_ok.mpr ⟨rfl, rfl⟩, _,
    rfl, rfl⟩

/-- The range of the month is the one entry. -/
theorem fetchLedgerRangeForMonth_sampleLedger :
    fetchLedgerRangeForMonth .owner sampleLedger samplePeriod.text =
      .ok (some sampleDigest.range) := by
  decide +kernel

/-- The ledger of the first sample entry and the digest. -/
def digestLedger : LedgerDb :=
  sampleLedger.add sampleDigestEntry

/-- Two runs for January 2026, which differ in the identifier they generate, and a client that
appends the first sample entry. -/
def sampleRuns : GenerateSystem Bool Unit where
  run second := ⟨sampleAppender, sampleDigestInput, .ok (sampleEntryId (bif second then 3 else 2))⟩
  other _ := ⟨sampleAppender, sampleDraft 1⟩
  registry := [sampleKeyRow]
  other_entryType _ := by decide

/-- Where the client is when it has appended. -/
def sampleAppended : AppendPhase :=
  .finished (.ok ⟨sampleEntryId 1, (sampleEntry 1).sequenceNo, sampleHash, .after (sampleEntry 1),
    false⟩)

/-- The state in which the two runs are at `x` and `y` and the client is at `z`. -/
def sampleState (db : LedgerDb) (x y : GeneratePhase) (z : AppendPhase) : GenerateWorld Bool Unit :=
  ⟨db, fun second => bif second then y else x, fun _ => z⟩

section

variable {db db' : LedgerDb} {x x' y y' : GeneratePhase} {z z' : AppendPhase}

theorem step_first {action : GenerateAction}
    (h : (sampleRuns.run false).next P pg role db x action = some (db', x')) :
    sampleRuns.step P pg role (sampleState db x y z) (.generate false action) =
      some (sampleState db' x' y z) := by
  have hupdate : Function.update (sampleState db x y z).generating false x' =
      (sampleState db' x' y z).generating := by
    funext second
    cases second <;> rfl
  exact Option.map_eq_some_iff.mpr ⟨(db', x'), h, by rw [hupdate]; rfl⟩

theorem step_second {action : GenerateAction}
    (h : (sampleRuns.run true).next P pg role db y action = some (db', y')) :
    sampleRuns.step P pg role (sampleState db x y z) (.generate true action) =
      some (sampleState db' x y' z) := by
  have hupdate : Function.update (sampleState db x y z).generating true y' =
      (sampleState db' x y' z).generating := by
    funext second
    cases second <;> rfl
  exact Option.map_eq_some_iff.mpr ⟨(db', y'), h, by rw [hupdate]; rfl⟩

theorem step_client {action : AppendAction}
    (h : (sampleRuns.other ()).next P pg db z action = some (db', z')) :
    sampleRuns.step P pg role (sampleState db x y z) (.append () action) =
      some (sampleState db' x y z') := by
  have hupdate : Function.update (sampleState db x y z).appending () z' =
      (sampleState db' x y z').appending :=
    Function.update_eq_const_of_subsingleton _ _ _
  exact Option.map_eq_some_iff.mpr ⟨(db', z'), h, by rw [hupdate]; rfl⟩

end

/-- It accepts that of the second one after it. -/
theorem accepts_sampleDigestAgain : Accepts samplePostgres digestLedger sampleDigestAgain where
  keyVersion_le := by decide
  values := by
    -- the two entries agree on all that is checked
    have hsame : Sql.argumentValuesAreValid samplePostgres (.ofSigned sampleDigestAgain) =
        Sql.argumentValuesAreValid samplePostgres (.ofSigned sampleDigestEntry) := by
      simp only [Sql.argumentValuesAreValid]
      rfl
    exact hsame.trans accepts_sampleDigestEntry.values
  id_uuidV4 := by decide
  chainState := ⟨.after sampleDigestEntry, rfl, rfl, rfl⟩
  id_fresh := by simp [digestLedger, sampleLedger]; decide
  sequenceNo_fresh := by simp [digestLedger, sampleLedger]; decide
  entryHash_fresh := by simp [digestLedger, sampleLedger]; decide +kernel

theorem next_check_sample (second : Bool) :
    (sampleRuns.run second).next digestPrimitives samplePostgres .owner sampleLedger .checking
        .check =
      some (sampleLedger, .ranging) := by
  have hnone : checkMonthlyDigestExists .owner sampleLedger samplePeriod.text = .ok false := rfl
  exact congrArg (fun answer => some (sampleLedger, GenerateRun.onCheck answer)) hnone

/-- Once there is a digest, the run ends here. -/
theorem next_check_digestLedger (second : Bool) :
    (sampleRuns.run second).next digestPrimitives samplePostgres .owner digestLedger .checking
        .check =
      some (digestLedger, .finished (.error .duplicateDigest)) := by
  have hexists : checkMonthlyDigestExists .owner digestLedger samplePeriod.text = .ok true := by
    decide +kernel
  exact congrArg (fun answer => some (digestLedger, GenerateRun.onCheck answer)) hexists

theorem next_fetchRange_sample (second : Bool) :
    (sampleRuns.run second).next digestPrimitives samplePostgres .owner sampleLedger .ranging
        .fetchRange =
      some (sampleLedger, .appending sampleDigest
        (sampleDigestDraft (bif second then 3 else 2)) (.fetching 0)) := by
  have honRange : (sampleRuns.run second).onRange digestPrimitives
      (fetchLedgerRangeForMonth .owner sampleLedger samplePeriod.text) =
        .appending sampleDigest (sampleDigestDraft (bif second then 3 else 2)) (.fetching 0) := by
    rw [fetchLedgerRangeForMonth_sampleLedger]
    exact GenerateRun.onRange_eq_appending (prepareMonthlyDigest_sample _)
  exact congrArg (fun phase => some (sampleLedger, phase)) honRange

/-- The append of the client, on the empty ledger. -/
theorem next_client :
    (sampleRuns.other ()).next digestPrimitives samplePostgres (Sql.emptyLedger [sampleKeyRow])
        (.fetching 0) .fetchHead =
      some (Sql.emptyLedger [sampleKeyRow], .calling 0 (sampleEntry 1)) ∧
    (sampleRuns.other ()).next digestPrimitives samplePostgres (Sql.emptyLedger [sampleKeyRow])
        (.calling 0 (sampleEntry 1)) .call =
      some (sampleLedger, sampleAppended) := by
  have hby : SignedBy digestPrimitives sampleKey (sampleEntry 1) :=
    signedBy_digestPrimitives (by simp)
  have hhead : fetchLedgerChainHead (Sql.emptyLedger [sampleKeyRow]) = .ok .genesis :=
    fetchLedgerChainHead_eq_ok rfl
  exact ⟨AppendClient.next_fetchHead_of_extends hhead ⟨rfl, rfl, hby.entryHash⟩ ⟨rfl, hby⟩,
    AppendClient.next_call_of_accepts (accepts_sampleEntry _)⟩

/-- The append of the first run, on the ledger of the first sample entry. -/
theorem next_append_first {role : Sql.Role} :
    (sampleRuns.run false).next digestPrimitives samplePostgres role sampleLedger
        (.appending sampleDigest (sampleDigestDraft 2) (.fetching 0)) (.append .fetchHead) =
      some (sampleLedger, .appending sampleDigest (sampleDigestDraft 2)
        (.calling 0 sampleDigestEntry)) ∧
    (sampleRuns.run false).next digestPrimitives samplePostgres role sampleLedger
        (.appending sampleDigest (sampleDigestDraft 2) (.calling 0 sampleDigestEntry))
        (.append .call) =
      some (digestLedger, .finished (.ok sampleDigest)) := by
  have hby : SignedBy digestPrimitives sampleKey sampleDigestEntry :=
    signedBy_digestPrimitives (by simp)
  have hhead : fetchLedgerChainHead sampleLedger = .ok (.after (sampleEntry 1)) :=
    fetchLedgerChainHead_eq_ok rfl
  exact GenerateRun.next_append_of_accepts hhead ⟨rfl, rfl, hby.entryHash⟩ ⟨rfl, hby⟩
    accepts_sampleDigestEntry

/-- The append of the second run, after that of the first one. -/
theorem next_append_second {role : Sql.Role} :
    (sampleRuns.run true).next digestPrimitives samplePostgres role digestLedger
        (.appending sampleDigest (sampleDigestDraft 3) (.fetching 0)) (.append .fetchHead) =
      some (digestLedger, .appending sampleDigest (sampleDigestDraft 3)
        (.calling 0 sampleDigestAgain)) ∧
    (sampleRuns.run true).next digestPrimitives samplePostgres role digestLedger
        (.appending sampleDigest (sampleDigestDraft 3) (.calling 0 sampleDigestAgain))
        (.append .call) =
      some (digestLedger.add sampleDigestAgain, .finished (.ok sampleDigest)) := by
  have hby : SignedBy digestPrimitives sampleKey sampleDigestAgain :=
    signedBy_digestPrimitives (by simp)
  have hhead : fetchLedgerChainHead digestLedger = .ok (.after sampleDigestEntry) :=
    fetchLedgerChainHead_eq_ok rfl
  exact GenerateRun.next_append_of_accepts hhead ⟨rfl, rfl, hby.entryHash⟩ ⟨rfl, hby⟩
    accepts_sampleDigestAgain

/-- The ledger of the first sample entry, with both runs at their start. -/
theorem reachableWhere_sampleLedger {role : Sql.Role} :
    Transition.ReachableWhere (sampleRuns.step digestPrimitives samplePostgres role)
      (sampleRuns.NoOverlap samplePeriod) sampleRuns.init
      (sampleState sampleLedger .checking .checking sampleAppended) := by
  have hinit : sampleRuns.init =
      sampleState (Sql.emptyLedger [sampleKeyRow]) .checking .checking (.fetching 0) := by
    simp [init, sampleState, sampleRuns]
  rw [hinit]
  exact .tail (.single ⟨_, noOverlap_of_ne (by simp), step_client next_client.1⟩)
    ⟨_, noOverlap_of_ne (by simp), step_client next_client.2⟩

/-- Both runs ask before either appends: both return a digest of the month, and the ledger has
two. -/
theorem two_digests :
    ∃ w, Transition.Reachable (sampleRuns.step digestPrimitives samplePostgres .owner)
      sampleRuns.init w ∧ w.generating false = .finished (.ok sampleDigest) ∧
      w.generating true = .finished (.ok sampleDigest) ∧
      (digestsOf samplePeriod w.db).length = 2 := by
  have hledger := (@reachableWhere_sampleLedger .owner).reachable
  have hasked := (hledger.tail ⟨_, step_first (next_check_sample false)⟩).tail
    ⟨_, step_second (next_check_sample true)⟩
  have hsigned := (hasked.tail ⟨_, step_first (next_fetchRange_sample false)⟩).tail
    ⟨_, step_second (next_fetchRange_sample true)⟩
  have hfirst := (hsigned.tail ⟨_, step_first next_append_first.1⟩).tail
    ⟨_, step_first next_append_first.2⟩
  have hend := (hfirst.tail ⟨_, step_second next_append_second.1⟩).tail
    ⟨_, step_second next_append_second.2⟩
  exact ⟨_, hend, rfl, rfl, by decide +kernel⟩

/-- **Never two digests of a month**, in no interleaving of runs for any months with each other
and with other appends. -/
def NeverTwoDigests (role : Sql.Role) : Prop :=
  ∀ (ι κ : Type) [DecidableEq ι] [DecidableEq κ] (P : Primitives) (pg : Postgres)
    (sys : GenerateSystem ι κ) (period : MonthlyDigestPeriod) (w : GenerateWorld ι κ),
    Transition.Reachable (sys.step P pg role) sys.init w → (digestsOf period w.db).length ≤ 1

/-- **At most one digest of a month** is ever in the ledger of the server, and this is so exactly
for the roles that may not read the ledger. Under any role it is so along every run in which a
generation for the month asks whether there is a digest only while no other one for the month is
between its own question and its end, late calls included. -/
theorem neverTwoDigests :
    NeverTwoDigests .serviceRole ∧
      (∀ role, NeverTwoDigests role ↔ role.mayReadLedgerEntries = false) ∧
      ∀ (role : Sql.Role) (ι κ : Type) [DecidableEq ι] [DecidableEq κ] (P : Primitives)
        (pg : Postgres) (sys : GenerateSystem ι κ) (period : MonthlyDigestPeriod)
        (w : GenerateWorld ι κ),
        Transition.ReachableWhere (sys.step P pg role) (sys.NoOverlap period) sys.init w →
        (digestsOf period w.db).length ≤ 1 := by
  have hserver : NeverTwoDigests .serviceRole := by
    intro ι κ _ _ P pg sys period w h
    exact atMostOne_of_serviceRole h
  refine ⟨hserver, fun role => ?_, fun role ι κ _ _ P pg sys period w => atMostOne_of_noOverlap⟩
  cases role with
  | serviceRole => exact ⟨fun _ => rfl, fun _ => hserver⟩
  | owner =>
    refine ⟨fun hnever => ?_, Bool.noConfusion⟩
    obtain ⟨w, hreach, -, -, htwo⟩ := two_digests
    have hle := hnever _ _ _ _ _ samplePeriod w hreach
    omega

/-- The client gives up waiting for the call of the first run, and the call arrives. -/
theorem next_late_first {role : Sql.Role} :
    (sampleRuns.run false).next digestPrimitives samplePostgres role sampleLedger
        (.appending sampleDigest (sampleDigestDraft 2) (.calling 0 sampleDigestEntry)) .timeOut =
      some (sampleLedger, .late sampleDigest (sampleDigestDraft 2) sampleDigestEntry
        (some (.error (.appendFailed "ledger_append_failed")))) ∧
    (sampleRuns.run false).next digestPrimitives samplePostgres role sampleLedger
        (.late sampleDigest (sampleDigestDraft 2) sampleDigestEntry
          (some (.error (.appendFailed "ledger_append_failed")))) .arrive =
      some (digestLedger, .finished (.error (.appendFailed "ledger_append_failed"))) := by
  refine ⟨rfl, ?_⟩
  rw [GenerateRun.next, accepts_sampleDigestEntry.callAppendLedgerEntry]
  rfl

/-- Under the role of the server a run for January 2026 ends with its question. -/
theorem next_check_serviceRole (second : Bool) (db : LedgerDb) :
    (sampleRuns.run second).next digestPrimitives samplePostgres .serviceRole db .checking .check =
      some (db, .finished (.error (.fetchFailed "monthly_digest_duplicate_check_failed"))) := by
  have hdenied : checkMonthlyDigestExists .serviceRole db samplePeriod.text =
      .error Sql.permissionDenied.toRpcError := by
    have hvalid : Sql.isYearMonth samplePeriod.text = true := by decide +kernel
    rw [checkMonthlyDigestExists, Sql.rpcCheckMonthlyDigestExists, hvalid]
    rfl
  exact congrArg (fun answer => some (db, GenerateRun.onCheck answer)) hdenied

/-- An instance. The server's two runs both end with their question. The owner's first run gives up
waiting, its call arrives and is committed, and the second run asks after that and finds the
digest. -/
theorem neverTwoDigests_sample :
    (∃ w, Transition.Reachable (sampleRuns.step digestPrimitives samplePostgres .serviceRole)
        sampleRuns.init w ∧
      (∀ second, w.generating second =
        .finished (.error (.fetchFailed "monthly_digest_duplicate_check_failed"))) ∧
      w.db = sampleLedger ∧ (digestsOf samplePeriod w.db).length ≤ 1) ∧
    ∃ w, Transition.ReachableWhere (sampleRuns.step digestPrimitives samplePostgres .owner)
        (sampleRuns.NoOverlap samplePeriod) sampleRuns.init w ∧
      w.db = digestLedger ∧
      w.generating false = .finished (.error (.appendFailed "ledger_append_failed")) ∧
      w.generating true = .finished (.error .duplicateDigest) ∧
      (digestsOf samplePeriod w.db).length ≤ 1 := by
  constructor
  · have hfirst := (@reachableWhere_sampleLedger .serviceRole).reachable.tail
      ⟨_, step_first (next_check_serviceRole false sampleLedger)⟩
    have hend := hfirst.tail ⟨_, step_second (next_check_serviceRole true sampleLedger)⟩
    exact ⟨_, hend, fun second => by cases second <;> rfl, rfl,
      neverTwoDigests.1 _ _ _ _ _ samplePeriod _ hend⟩
  · have hfirst : sampleRuns.NoOverlap samplePeriod (sampleState sampleLedger .checking .checking
        sampleAppended) (.generate false .check) := by
      intro i _ _ j _ _
      cases j <;> exact id
    have hsigned := (reachableWhere_sampleLedger.tail
      ⟨_, hfirst, step_first (next_check_sample false)⟩).tail
      ⟨_, noOverlap_of_ne (by simp), step_first (next_fetchRange_sample false)⟩
    have harrived := ((hsigned.tail
      ⟨_, noOverlap_of_ne (by simp), step_first next_append_first.1⟩).tail
      ⟨_, noOverlap_of_ne (by simp), step_first next_late_first.1⟩).tail
      ⟨_, noOverlap_of_ne (by simp), step_first next_late_first.2⟩
    have hsecond : sampleRuns.NoOverlap samplePeriod (sampleState digestLedger
        (.finished (.error (.appendFailed "ledger_append_failed"))) .checking sampleAppended)
        (.generate true .check) := by
      intro i _ _ j _ _
      cases j <;> exact id
    have hend := harrived.tail ⟨_, hsecond, step_second (next_check_digestLedger true)⟩
    exact ⟨_, hend, rfl, rfl, rfl, neverTwoDigests.2.2 .owner _ _ _ _ _ samplePeriod _ hend⟩

end GenerateSystem

end Mipsorcu
