import Mipsorcu.Database.WriteEntries
import Mipsorcu.Foundation.Tasks
import Mipsorcu.Incident.Recorder
import Mipsorcu.Protocol.SecretStore

/-!
# Incidents are recorded once in a window

Transactions of `rpc_record_incident` for one type and one dedupe key run concurrently. Each checks
its arguments, waits for the advisory lock of the incident, looks for an incident that suppresses
its own one, and then appends the event and the ledger entry and commits; the lock is released when
the transaction ends. A transaction that holds the lock does what the procedure does at once
(`recordIncident_of_acts`), and so the incidents that are recorded are further apart than the window
(`incidents_debounced`), whatever the order of their times.
-/

namespace Mipsorcu

open Sql

/-! ### Transactions -/

/-- Where a transaction stands. -/
inductive IncidentTask where
  | called (args : RecordIncidentArgs)
  /-- The arguments are valid; the lock is not taken yet. -/
  | waiting (i : Incident)
  | holding (i : Incident)
  /-- No stored incident suppresses this one. -/
  | checked (i : Incident)
  | returned (row : RecordIncidentRow)
  | failed

/-- Between the lock and the end of the transaction. -/
def IncidentTask.holdsLock : IncidentTask → Bool
  | .holding _ => true
  | .checked _ => true
  | _ => false

/-- The tables, the lock, and the recorded incidents in the order of their commits. -/
structure IncidentShared where
  db : SecretDb
  locked : Bool
  recorded : List Incident

/-- A transaction goes on, or it fails for a reason of its own. -/
inductive IncidentAction where
  | proceed
  | fail

namespace IncidentShared

/-- The transaction ends, and its lock is released. -/
def unlock (s : IncidentShared) : IncidentShared :=
  { s with locked := false }

/-- The checks before the lock. -/
def checkArguments (pg : PostgresSession) (s : IncidentShared) (args : RecordIncidentArgs) :
    Option (IncidentShared × IncidentTask) :=
  match args.incident? with
  | some i => if incidentIsAccepted pg i then some (s, .waiting i) else some (s, .failed)
  | none => some (s, .failed)

/-- `pg_advisory_xact_lock`: it is not returned from while another transaction holds the lock. -/
def lock (s : IncidentShared) (i : Incident) : Option (IncidentShared × IncidentTask) :=
  if s.locked then none else some ({ s with locked := true }, .holding i)

/-- The search for an incident that suppresses this one. -/
def search (s : IncidentShared) (i : Incident) : Option (IncidentShared × IncidentTask) :=
  if s.db.auditEvents.any (suppressesIncident i) then
    some (s.unlock, .returned ⟨i.auditEventId, none, true⟩)
  else some (s, .checked i)

/-- The two appends and the commit. -/
def commit (pg : PostgresSession) (s : IncidentShared) (i : Incident) :
    Option (IncidentShared × IncidentTask) :=
  match appendIncident pg s.db i with
  | .ok (db, row) => some (⟨db, false, s.recorded ++ [i]⟩, .returned row)
  | .error _ => some (s.unlock, .failed)

/-- What a transaction can do next. -/
def act (pg : PostgresSession) (s : IncidentShared) (task : IncidentTask)
    (action : IncidentAction) : Option (IncidentShared × IncidentTask) :=
  match action, task with
  | .proceed, .called args => s.checkArguments pg args
  | .proceed, .waiting i => s.lock i
  | .proceed, .holding i => s.search i
  | .proceed, .checked i => s.commit pg i
  | .fail, .called _ => some (s, .failed)
  | .fail, .waiting _ => some (s, .failed)
  | .fail, .holding _ => some (s.unlock, .failed)
  | .fail, .checked _ => some (s.unlock, .failed)
  | _, .returned _ => none
  | _, .failed => none

theorem checkArguments_of_accepted {pg : PostgresSession} (s : IncidentShared)
    {args : RecordIncidentArgs} {i : Incident} (hi : args.incident? = some i)
    (h : incidentIsAccepted pg i = true) : s.checkArguments pg args = some (s, .waiting i) := by
  unfold checkArguments
  simp only [hi, h, if_true]

theorem commit_of_append {pg : PostgresSession} (s : IncidentShared) {i : Incident} {db : SecretDb}
    {row : RecordIncidentRow} (h : appendIncident pg s.db i = .ok (db, row)) :
    s.commit pg i = some (⟨db, false, s.recorded ++ [i]⟩, .returned row) := by
  unfold commit
  simp only [h]

/-- What a transaction can do next. -/
inductive Acts (pg : PostgresSession) (s : IncidentShared) :
    IncidentTask → IncidentShared → IncidentTask → Prop
  | rejects (args) : Acts pg s (.called args) s .failed
  | aborts (i) : Acts pg s (.waiting i) s .failed
  | rollsBack (task) (h : task.holdsLock = true) : Acts pg s task s.unlock .failed
  | accepts (args i) (hargs : args.incident? = some i) (h : incidentIsAccepted pg i = true) :
    Acts pg s (.called args) s (.waiting i)
  | locks (i) (h : s.locked = false) : Acts pg s (.waiting i) { s with locked := true } (.holding i)
  | suppresses (i) (h : s.db.auditEvents.any (suppressesIncident i) = true) :
    Acts pg s (.holding i) s.unlock (.returned ⟨i.auditEventId, none, true⟩)
  | checks (i) (h : ∀ e ∈ s.db.auditEvents, suppressesIncident i e = false) :
    Acts pg s (.holding i) s (.checked i)
  | commits (i db row) (h : appendIncident pg s.db i = .ok (db, row)) :
    Acts pg s (.checked i) ⟨db, false, s.recorded ++ [i]⟩ (.returned row)

/-- Every step is one of the transitions. -/
theorem acts_of_act {pg : PostgresSession} {s s' : IncidentShared} {task task' : IncidentTask}
    {action : IncidentAction} (h : s.act pg task action = some (s', task')) :
    Acts pg s task s' task' := by
  -- the step is the action's branch for the state the task is in
  cases action with
  | fail =>
    cases task with
    | called args => cases h; exact .rejects args
    | waiting i => cases h; exact .aborts i
    | holding i => cases h; exact .rollsBack _ rfl
    | checked i => cases h; exact .rollsBack _ rfl
    | returned row => cases h
    | failed => cases h
  | proceed =>
    cases task with
    | called args =>
      change s.checkArguments pg args = _ at h
      unfold checkArguments at h
      split at h
      · rename_i i hi
        split_ifs at h with haccepted
        · cases h
          exact .accepts args i hi haccepted
        · cases h
          exact .rejects args
      · cases h
        exact .rejects args
    | waiting i =>
      change s.lock i = _ at h
      unfold lock at h
      -- while the lock is held there is no step
      split_ifs at h with hlocked
      cases h
      exact .locks i (Bool.eq_false_of_not_eq_true hlocked)
    | holding i =>
      change s.search i = _ at h
      unfold search at h
      split_ifs at h with hsuppressed
      · cases h
        exact .suppresses i hsuppressed
      · cases h
        exact .checks i (by simpa using hsuppressed)
    | checked i =>
      change s.commit pg i = _ at h
      unfold commit at h
      split at h
      · rename_i db row happend
        cases h
        exact .commits i db row happend
      · cases h
        exact .rollsBack _ rfl
    | returned row => cases h
    | failed => cases h

/-- The lock is used properly. -/
theorem usesLock_of_acts {pg : PostgresSession} {s s' : IncidentShared}
    {task task' : IncidentTask} (h : Acts pg s task s' task') :
    Tasks.UsesLock IncidentTask.holdsLock IncidentShared.locked s task s' task' := by
  cases h with
  | rejects args => exact .keeps rfl rfl
  | aborts i => exact .keeps rfl rfl
  | rollsBack task hholds => exact .releases hholds rfl
  | accepts args i hargs haccepted => exact .keeps rfl rfl
  | locks i hfree => exact .takes hfree rfl
  | suppresses i hany => exact .releases rfl rfl
  | checks i hnone => exact .keeps rfl rfl
  | commits i db row happend => exact .releases rfl rfl

/-- **Under the lock the procedure is done at once**: a transaction that returned did to the tables
what the whole body does to the tables it found when it ended. -/
theorem recordIncident_of_acts {pg : PostgresSession} {s s' : IncidentShared}
    {task : IncidentTask} {row : RecordIncidentRow} {i : Incident}
    (haccepted : incidentIsAccepted pg i = true)
    (htask : task = .holding i ∨ task = .checked i ∧
      ∀ e ∈ s.db.auditEvents, suppressesIncident i e = false)
    (h : Acts pg s task s' (.returned row)) : recordIncident pg s.db i = .ok (s'.db, row) := by
  rw [recordIncident_of_accepted haccepted]
  cases h with
  | suppresses j hany =>
    obtain rfl : j = i := by simpa using htask
    exact if_pos hany
  | commits j db row happend =>
    obtain ⟨rfl, hnone⟩ : j = i ∧ ∀ e ∈ s.db.auditEvents, suppressesIncident i e = false := by
      simpa using htask
    have hany : ¬ s.db.auditEvents.any (suppressesIncident j) = true := by simpa using hnone
    rw [if_neg hany]
    exact happend

end IncidentShared

/-! ### The two appends -/

/-- The entry is one of the incident. -/
structure RecordsIncident (i : Incident) (entry : LedgerEntryRow) : Prop where
  entryType : entry.entryType = "incident_detected"
  sourceEventId : entry.sourceEventId = some i.auditEventId
  errorCode : entry.errorCode = some i.errorCode
  payload : jsonbEq entry.payload (.object (incidentPayload i)) = true

theorem errorCode_of_readsAs {pg : PostgresSession} {entry : Json} {row : LedgerEntryRow}
    (h : ReadsAs pg entry row) : nullifEmpty (memberText entry "p_error_code") = row.errorCode := by
  obtain ⟨args, hargs, hrow⟩ := h
  simp only [ledgerArgsOfJsonb, Result.bind_eq_ok, Result.pure_eq_ok] at hargs
  obtain ⟨_, -, _, -, _, -, _, -, _, -, _, -, _, -, _, -, _, -, _, -, _, -, _, -, rfl⟩ := hargs
  exact congrArg AppendLedgerEntryArgs.errorCode (AppendLedgerEntryArgs.row?_eq_some.mp hrow)

/-- An entry that passed the comparisons with the incident is one of the incident. -/
theorem recordsIncident_of_readsAs {pg : PostgresSession} {i : Incident} {row : LedgerEntryRow}
    (hvalid : incidentEntryIsValid pg i = true) (h : ReadsAs pg i.ledgerEntry row) :
    RecordsIncident i row := by
  have hcolumns := h.columns
  simp only [incidentEntryIsValid, Bool.and_eq_true, beq_iff_eq] at hvalid
  obtain ⟨⟨⟨⟨⟨⟨⟨⟨⟨⟨⟨⟨⟨⟨⟨-, htype⟩, -⟩, -⟩, hsource⟩, -⟩, herror⟩, hpayload⟩, -⟩, -⟩, -⟩, -⟩, -⟩, -⟩,
    -⟩, -⟩ := hvalid
  refine ⟨?_, ?_, ?_, ?_⟩
  · exact Option.some.inj (hcolumns.entryType.symm.trans htype)
  · rcases castNullable_eq_ok.mp hcolumns.sourceEventId with
      ⟨hnull, -⟩ | ⟨text, id, htext, hcast, hid⟩
    · rw [hnull] at hsource
      cases hsource
    · rw [htext] at hsource
      exact hid.trans (hcast.symm.trans hsource)
  · exact (errorCode_of_readsAs h).symm.trans herror
  · rwa [hcolumns.payload, Option.any_some] at hpayload

/-- What the two appends add to the tables, for an incident whose identifier is new. -/
theorem appendIncident_eq_ok {pg : PostgresSession} {db db' : SecretDb} {i : Incident}
    {row : RecordIncidentRow} (hvalid : incidentEntryIsValid pg i = true)
    (hevent : ∀ e ∈ db.auditEvents, e.id ≠ i.auditEventId)
    (hentry : ∀ e ∈ db.ledger.entries, e.sourceEventId ≠ some i.auditEventId)
    (h : appendIncident pg db i = .ok (db', row)) :
    row.suppressed = false ∧ db'.auditEvents = db.auditEvents ++ [incidentEvent i] ∧
      ∃ entry, db'.ledger.entries = db.ledger.entries ++ [entry] ∧ RecordsIncident i entry := by
  simp only [appendIncident, Result.bind_eq_ok, Result.pure_eq_ok, Prod.exists, Prod.mk.injEq] at h
  obtain ⟨db₁, id, happend, ledger, result, hledger, rfl, rfl⟩ := h
  obtain ⟨-, ⟨-, stored, hstored, hid⟩ | ⟨-, -, rfl⟩⟩ := appendAuditEvent_eq_ok happend
  · exact absurd hid (hevent stored hstored)
  · obtain ⟨entry, hreads, hreplayed | hinserted⟩ := rpcAppendLedgerEntryFromJsonb_eq_ok hledger
    · -- a stored entry would have the identifier of the event
      have hrecords := recordsIncident_of_readsAs hvalid hreads
      exact absurd hrecords.sourceEventId (hentry entry hreplayed.mem)
    · refine ⟨rfl, rfl, entry, ?_, recordsIncident_of_readsAs hvalid hreads⟩
      exact congrArg LedgerDb.entries hinserted.db_eq

/-! ### What is kept -/

/-- The second incident is later than the first by more than the window, as `timestamptz` values. -/
def LaterBy (window : ℤ) (i j : Incident) : Prop :=
  ∃ a b, timestamptz i.sourceEventAt = some a ∧ timestamptz j.sourceEventAt = some b ∧
    (a : ℤ) + window * 1000000 < (b : ℤ)

/-- An accepted incident has a time. -/
theorem timestamptz_of_accepted {pg : PostgresSession} {i : Incident}
    (h : incidentIsAccepted pg i = true) : ∃ time, timestamptz i.sourceEventAt = some time := by
  simp only [incidentIsAccepted, incidentArgumentsAreValid, Bool.and_eq_true] at h
  exact Option.isSome_iff_exists.mp h.1.1.1.1.1.1.1.1.1.1.2

/-- A stored incident of the same kind that does not suppress a new one is older than the window. -/
theorem laterBy_of_not_suppressed {pg : PostgresSession} {i j : Incident}
    (hi : incidentIsAccepted pg i = true) (hj : incidentIsAccepted pg j = true)
    (htype : i.incidentType = j.incidentType) (hkey : i.dedupeKey = j.dedupeKey)
    (hid : i.auditEventId ≠ j.auditEventId)
    (h : suppressesIncident j (incidentEvent i) = false) : LaterBy j.dedupeWindowSeconds i j := by
  obtain ⟨a, ha⟩ := timestamptz_of_accepted hi
  obtain ⟨b, hb⟩ := timestamptz_of_accepted hj
  refine ⟨a, b, ha, hb, ?_⟩
  have hwindow : ¬ ((b : ℤ) - j.dedupeWindowSeconds * 1000000 ≤ (a : ℤ)) := by
    intro hle
    have hrecent := isRecentIncident_incidentEvent hb ha hle
    rw [htype, hkey] at hrecent
    have hother : (incidentEvent i).id ≠ j.auditEventId := hid
    simp [suppressesIncident, hrecent, hother] at h
  omega

/-- What is known of a transaction that was called with the given arguments. -/
def IncidentTaskOk (pg : PostgresSession) (args : RecordIncidentArgs) (s : IncidentShared) :
    IncidentTask → Prop
  | .called args' => args' = args
  | .waiting i => args.incident? = some i ∧ incidentIsAccepted pg i = true
  | .holding i => args.incident? = some i ∧ incidentIsAccepted pg i = true
  | .checked i => args.incident? = some i ∧ incidentIsAccepted pg i = true ∧
    ∀ e ∈ s.db.auditEvents, suppressesIncident i e = false
  | .returned row => row.suppressed = false → ∃ i ∈ s.recorded, args.incident? = some i
  | .failed => True

/-- Transactions of an index type, each with its arguments. -/
abbrev IncidentState (ι : Type) : Type :=
  Tasks.State ι IncidentShared IncidentTask

namespace IncidentState

variable {ι : Type}

/-- All calls have been sent. -/
def init (args : ι → RecordIncidentArgs) (db : SecretDb) : IncidentState ι :=
  ⟨⟨db, false, []⟩, fun t => .called (args t)⟩

/-- What holds of every reachable state: the recorded incidents are from transactions that
returned, they are what was added to the tables, and they are apart. -/
structure Inv (pg : PostgresSession) (window : ℤ) (args : ι → RecordIncidentArgs) (db : SecretDb)
    (s : IncidentState ι) : Prop where
  exclusive : Tasks.Exclusive IncidentTask.holdsLock IncidentShared.locked s
  task : ∀ t, IncidentTaskOk pg (args t) s.shared (s.task t)
  recorded : ∀ i ∈ s.shared.recorded, incidentIsAccepted pg i = true ∧
    ∃ t row, s.task t = .returned row ∧ (args t).incident? = some i
  events : s.shared.db.auditEvents = db.auditEvents ++ s.shared.recorded.map incidentEvent
  entries : ∃ rows : List (Incident × LedgerEntryRow), rows.map Prod.fst = s.shared.recorded ∧
    s.shared.db.ledger.entries = db.ledger.entries ++ rows.map Prod.snd ∧
    ∀ r ∈ rows, RecordsIncident r.1 r.2
  spaced : s.shared.recorded.Pairwise (LaterBy window)
  ids : (s.shared.recorded.map Incident.auditEventId).Nodup

theorem inv_init (pg : PostgresSession) (window : ℤ) (args : ι → RecordIncidentArgs)
    (db : SecretDb) : (init args db).Inv pg window args db where
  exclusive := ⟨by rintro t ⟨⟩, by rintro t u ⟨⟩⟩
  task _ := rfl
  recorded := by simp [init]
  events := by simp [init]
  entries := ⟨[], by simp [init]⟩
  spaced := .nil
  ids := .nil

/-! ### One step -/

/-- The calls are about one kind of incident, and their identifiers are distinct and new. -/
structure CallsOneKind (window : ℤ) (args : ι → RecordIncidentArgs) (db : SecretDb) : Prop where
  incidentType : ∀ t u i j, (args t).incident? = some i → (args u).incident? = some j →
    i.incidentType = j.incidentType
  dedupeKey : ∀ t u i j, (args t).incident? = some i → (args u).incident? = some j →
    i.dedupeKey = j.dedupeKey
  dedupeWindow : ∀ t i, (args t).incident? = some i → i.dedupeWindowSeconds = window
  auditEventId : ∀ t u i j, (args t).incident? = some i → (args u).incident? = some j →
    i.auditEventId = j.auditEventId → t = u
  newEvent : ∀ t i, (args t).incident? = some i → ∀ e ∈ db.auditEvents, e.id ≠ i.auditEventId
  newEntry : ∀ t i, (args t).incident? = some i →
    ∀ e ∈ db.ledger.entries, e.sourceEventId ≠ some i.auditEventId

variable {pg : PostgresSession} {window : ℤ} {args : ι → RecordIncidentArgs} {db : SecretDb}
  {s : IncidentState ι}

/-- The identifier of a transaction that has not returned is not recorded. -/
theorem Inv.ne_of_recorded (hcalls : CallsOneKind window args db) (hinv : s.Inv pg window args db)
    {t : ι} {j : Incident} (hj : (args t).incident? = some j)
    (hrunning : ∀ row, s.task t ≠ .returned row) :
    ∀ i ∈ s.shared.recorded, i.auditEventId ≠ j.auditEventId := by
  intro i hi hid
  obtain ⟨-, u, row, hu, hargs⟩ := hinv.recorded i hi
  obtain rfl := hcalls.auditEventId u t i j hargs hj hid
  exact hrunning row hu

/-- The tables hold nothing of a transaction that has not returned. -/
theorem Inv.new (hcalls : CallsOneKind window args db) (hinv : s.Inv pg window args db)
    {t : ι} {j : Incident} (hj : (args t).incident? = some j)
    (hrunning : ∀ row, s.task t ≠ .returned row) :
    (∀ e ∈ s.shared.db.auditEvents, e.id ≠ j.auditEventId) ∧
      ∀ e ∈ s.shared.db.ledger.entries, e.sourceEventId ≠ some j.auditEventId := by
  have hne := hinv.ne_of_recorded hcalls hj hrunning
  constructor
  · rw [hinv.events]
    intro e he
    rcases List.mem_append.mp he with hold | hnew
    · exact hcalls.newEvent t j hj e hold
    · obtain ⟨i, hi, rfl⟩ := List.mem_map.mp hnew
      exact hne i hi
  · obtain ⟨rows, hrecorded, hentries, hrows⟩ := hinv.entries
    rw [hentries]
    intro e he
    rcases List.mem_append.mp he with hold | hnew
    · exact hcalls.newEntry t j hj e hold
    · obtain ⟨r, hr, rfl⟩ := List.mem_map.mp hnew
      have hmem : r.1 ∈ s.shared.recorded := hrecorded ▸ List.mem_map_of_mem hr
      rw [(hrows r hr).sourceEventId]
      exact fun hid => hne r.1 hmem (Option.some.inj hid)

/-- What a commit adds is right. -/
theorem Inv.commits (hcalls : CallsOneKind window args db) (hinv : s.Inv pg window args db)
    {t : ι} {j : Incident} (htask : s.task t = .checked j) {db' : SecretDb}
    {row : RecordIncidentRow} (h : appendIncident pg s.shared.db j = .ok (db', row)) :
    row.suppressed = false ∧
      db'.auditEvents = db.auditEvents ++ (s.shared.recorded ++ [j]).map incidentEvent ∧
      (∃ rows : List (Incident × LedgerEntryRow), rows.map Prod.fst = s.shared.recorded ++ [j] ∧
        db'.ledger.entries = db.ledger.entries ++ rows.map Prod.snd ∧
        ∀ r ∈ rows, RecordsIncident r.1 r.2) ∧
      (s.shared.recorded ++ [j]).Pairwise (LaterBy window) ∧
      ((s.shared.recorded ++ [j]).map Incident.auditEventId).Nodup := by
  have hok := hinv.task t
  rw [htask] at hok
  obtain ⟨hargs, haccepted, hnone⟩ := hok
  have hrunning : ∀ row, s.task t ≠ .returned row := by
    rw [htask]
    rintro row ⟨⟩
  -- the call is still running, so its incident is none of the recorded ones
  have hne := hinv.ne_of_recorded hcalls hargs hrunning
  obtain ⟨hevent, hentry⟩ := hinv.new hcalls hargs hrunning
  have hvalid : incidentEntryIsValid pg j = true := (Bool.and_eq_true _ _ ▸ haccepted).2
  obtain ⟨hsuppressed, hevents, entry, hentries, hrecords⟩ :=
    appendIncident_eq_ok hvalid hevent hentry h
  obtain ⟨rows, hrecorded, hrows, hall⟩ := hinv.entries
  refine ⟨hsuppressed, ?_, ⟨rows ++ [(j, entry)], ?_, ?_, ?_⟩, ?_, ?_⟩
  · rw [hevents, hinv.events, List.map_append, List.append_assoc]
    rfl
  · rw [List.map_append, hrecorded]
    rfl
  · rw [hentries, hrows, List.map_append, List.append_assoc]
    rfl
  · intro r hr
    rcases List.mem_append.mp hr with hold | hnew
    · exact hall r hold
    · rw [List.mem_singleton.mp hnew]
      exact hrecords
  · -- no recorded incident suppressed the new one when it was checked
    refine List.pairwise_append.mpr ⟨hinv.spaced, List.pairwise_singleton _ _, ?_⟩
    intro i hi j' hj'
    obtain rfl := List.mem_singleton.mp hj'
    obtain ⟨hi', u, _, -, hu⟩ := hinv.recorded i hi
    rw [← hcalls.dedupeWindow t j' hargs]
    refine laterBy_of_not_suppressed hi' haccepted (hcalls.incidentType u t i j' hu hargs)
      (hcalls.dedupeKey u t i j' hu hargs) (hne i hi) (hnone _ ?_)
    rw [hinv.events]
    exact List.mem_append_right _ (List.mem_map_of_mem hi)
  · exact Keyed.nodup_concat hinv.ids hne

theorem taskOk_of_eq {t : ι} {shared shared' : IncidentShared} {task : IncidentTask}
    (hevents : task.holdsLock = true → shared'.db = shared.db)
    (hrecorded : shared.recorded ⊆ shared'.recorded)
    (h : IncidentTaskOk pg (args t) shared task) : IncidentTaskOk pg (args t) shared' task := by
  cases task with
  | checked i => exact ⟨h.1, h.2.1, hevents rfl ▸ h.2.2⟩
  | returned row =>
    intro hrow
    obtain ⟨i, hi, hargs⟩ := h hrow
    exact ⟨i, hrecorded hi, hargs⟩
  | _ => exact h

variable [DecidableEq ι] {s' : IncidentState ι}

/-- A step that leaves the tables alone keeps the invariant. -/
theorem Inv.of_tables {t : ι} (hinv : s.Inv pg window args db) {shared : IncidentShared}
    {task : IncidentTask} (hdb : shared.db = s.shared.db)
    (hrecorded : shared.recorded = s.shared.recorded)
    (hexclusive : Tasks.Exclusive IncidentTask.holdsLock IncidentShared.locked
      (⟨shared, Function.update s.task t task⟩ : IncidentState ι))
    (hrunning : ∀ row, s.task t ≠ .returned row)
    (htask : IncidentTaskOk pg (args t) shared task) :
    Inv pg window args db (⟨shared, Function.update s.task t task⟩ : IncidentState ι) where
  exclusive := hexclusive
  task u := by
    show IncidentTaskOk pg (args u) shared (Function.update s.task t task u)
    by_cases hu : u = t
    · subst hu
      rwa [Function.update_self]
    · rw [Function.update_of_ne hu]
      exact taskOk_of_eq (fun _ => hdb) (fun i hi => hrecorded ▸ hi) (hinv.task u)
  recorded i hi := by
    obtain ⟨haccepted, u, row, hu, hargs⟩ := hinv.recorded i (hrecorded ▸ hi)
    have hut : u ≠ t := by
      rintro rfl
      exact hrunning row hu
    exact ⟨haccepted, u, row, (Function.update_of_ne hut _ _).trans hu, hargs⟩
  events := by
    rw [hdb, hrecorded]
    exact hinv.events
  entries := by
    rw [hdb, hrecorded]
    exact hinv.entries
  spaced := hrecorded ▸ hinv.spaced
  ids := hrecorded ▸ hinv.ids

/-- **Each step keeps the invariant.** -/
theorem Inv.step (hcalls : CallsOneKind window args db) (hinv : s.Inv pg window args db)
    {a : ι × IncidentAction} (h : Tasks.step (IncidentShared.act pg) s a = some s') :
    s'.Inv pg window args db := by
  have hexclusive : Tasks.Exclusive IncidentTask.holdsLock IncidentShared.locked s' :=
    hinv.exclusive.step h fun shared task hact =>
      IncidentShared.usesLock_of_acts (IncidentShared.acts_of_act hact)
  obtain ⟨⟨shared, task⟩, hact, rfl⟩ := Tasks.step_eq_some h
  have hacts := IncidentShared.acts_of_act hact
  have hok := hinv.task a.1
  generalize htask : s.task a.1 = old at hacts hok
  cases hacts with
  | rejects args' => exact hinv.of_tables rfl rfl hexclusive (by simp [htask]) trivial
  | aborts i => exact hinv.of_tables rfl rfl hexclusive (by simp [htask]) trivial
  | rollsBack old hholds =>
    refine hinv.of_tables rfl rfl hexclusive (fun row hrow => ?_) trivial
    rw [← htask, hrow] at hholds
    cases hholds
  | accepts args' i hargs haccepted =>
    obtain rfl : args' = args a.1 := hok
    exact hinv.of_tables rfl rfl hexclusive (by simp [htask]) ⟨hargs, haccepted⟩
  | locks i hfree => exact hinv.of_tables rfl rfl hexclusive (by simp [htask]) hok
  | suppresses i hany =>
    exact hinv.of_tables rfl rfl hexclusive (by simp [htask]) (by rintro ⟨⟩)
  | checks i hnone =>
    exact hinv.of_tables rfl rfl hexclusive (by simp [htask]) ⟨hok.1, hok.2, hnone⟩
  | commits i db' row happend =>
    obtain ⟨hsuppressed, hevents, hentries, hspaced, hids⟩ := hinv.commits hcalls htask happend
    refine ⟨hexclusive, fun u => ?_, fun j hj => ?_, hevents, hentries, hspaced, hids⟩
    · show IncidentTaskOk pg (args u) ⟨db', false, s.shared.recorded ++ [i]⟩
        (Function.update s.task a.1 (.returned row) u)
      by_cases hu : u = a.1
      · subst hu
        rw [Function.update_self]
        exact fun _ => ⟨i, List.mem_append_right _ (List.mem_singleton_self _), hok.1⟩
      · rw [Function.update_of_ne hu]
        -- the lock was held, so no other transaction held it
        refine taskOk_of_eq (fun hholds => ?_) (List.subset_append_left _ _) (hinv.task u)
        exact absurd (hinv.exclusive.unique u a.1 hholds (by rw [htask]; rfl)) hu
    · rcases List.mem_append.mp hj with hold | hnew
      · obtain ⟨haccepted, u, row', hu, hargs⟩ := hinv.recorded j hold
        have hut : u ≠ a.1 := by
          rintro rfl
          rw [htask] at hu
          cases hu
        exact ⟨haccepted, u, row', (Function.update_of_ne hut _ _).trans hu, hargs⟩
      · obtain rfl := List.mem_singleton.mp hnew
        exact ⟨hok.2.1, a.1, row, Function.update_self _ _ _, hok.1⟩

/-! ### All runs -/

/-- The payload and the error code of an entry are those of the metadata. -/
structure AgreesWith (entry : LedgerEntryRow) (metadata : List (String × Json)) : Prop where
  errorCode : ∃ code, entry.errorCode = some code ∧ ("error_code", .string code) ∈ metadata
  payload : ∃ payload, jsonbEq entry.payload (.object payload) = true ∧ payload ⊆ metadata

/-- What is promised of the recorded incidents. -/
structure Debounced (window : ℤ) (args : ι → RecordIncidentArgs) (s : IncidentState ι) : Prop where
  spaced : s.shared.recorded.Pairwise (LaterBy window)
  event : ∀ i ∈ s.shared.recorded,
    (s.shared.db.auditEvents.filter fun e => e.id == i.auditEventId) = [incidentEvent i]
  entry : ∀ i ∈ s.shared.recorded, ∃ entry, (s.shared.db.ledger.entries.filter fun e =>
      e.entryType == "incident_detected" && e.sourceEventId == some i.auditEventId) = [entry] ∧
    AgreesWith entry (incidentMetadata i)
  returned : ∀ t row, s.task t = .returned row → row.suppressed = false →
    ∃ i ∈ s.shared.recorded, (args t).incident? = some i

omit [DecidableEq ι] in
/-- The invariant implies that the incidents are debounced. -/
theorem Inv.debounced (hcalls : CallsOneKind window args db) (hinv : s.Inv pg window args db) :
    s.Debounced window args where
  spaced := hinv.spaced
  event i hi := by
    obtain ⟨-, t, _, -, hargs⟩ := hinv.recorded i hi
    -- the rows from before the calls have other identifiers
    have hold : (db.auditEvents.filter fun e => e.id == i.auditEventId) = [] :=
      List.filter_eq_nil_iff.mpr fun e he => by simpa using hcalls.newEvent t i hargs e he
    have hnew : (s.shared.recorded.filter ((fun e => e.id == i.auditEventId) ∘ incidentEvent)) =
        [i] :=
      Keyed.filter_eq hinv.ids hi (beq_self_eq_true i.auditEventId) fun j _ hne => by
        simpa [incidentEvent] using hne
    rw [hinv.events, List.filter_append, hold, List.filter_map, hnew]
    rfl
  entry i hi := by
    obtain ⟨-, t, _, -, hargs⟩ := hinv.recorded i hi
    obtain ⟨rows, hrecorded, hentries, hrows⟩ := hinv.entries
    obtain ⟨r, hr, rfl⟩ : ∃ r ∈ rows, r.1 = i := List.mem_map.mp (hrecorded ▸ hi)
    have hids : (rows.map fun r => r.1.auditEventId).Nodup := by
      have hmap : (rows.map fun r => r.1.auditEventId) =
          s.shared.recorded.map Incident.auditEventId := by
        rw [← hrecorded, List.map_map]
        rfl
      exact hmap ▸ hinv.ids
    -- as above, for the ledger
    have hold : (db.ledger.entries.filter fun e => e.entryType == "incident_detected" &&
        e.sourceEventId == some r.1.auditEventId) = [] :=
      List.filter_eq_nil_iff.mpr fun e he => by
        simpa using fun _ => hcalls.newEntry t r.1 hargs e he
    have hnew : (rows.filter ((fun e => e.entryType == "incident_detected" &&
        e.sourceEventId == some r.1.auditEventId) ∘ Prod.snd)) = [r] := by
      refine Keyed.filter_eq hids hr ?_ fun r' hr' hne => ?_
      · simp [(hrows r hr).entryType, (hrows r hr).sourceEventId]
      · simpa [(hrows r' hr').entryType, (hrows r' hr').sourceEventId] using hne
    refine ⟨r.2, ?_, ⟨r.1.errorCode, (hrows r hr).errorCode, ?_⟩,
      ⟨incidentPayload r.1, (hrows r hr).payload, ?_⟩⟩
    · rw [hentries, List.filter_append, hold, List.filter_map, hnew]
      rfl
    · simp [incidentMetadata]
    · intro m hm
      simp only [incidentPayload, incidentMetadata, List.mem_append, List.mem_cons,
        List.not_mem_nil, or_false] at hm ⊢
      tauto
  returned t row htask hrow := by
    have hok := hinv.task t
    rw [htask] at hok
    exact hok hrow

end IncidentState

open IncidentState in
/-- **Incidents are recorded once in a window.** For transactions about one type, one dedupe key and
one window, with distinct new identifiers, and in every state that any interleaving of them
reaches: the recorded incidents are each later than all recorded before by more than the window;
each has one event and one entry, which agrees with the metadata of the event; and a step changes
the tables only if it ends a transaction that records its incident. -/
theorem incidents_debounced {ι : Type} [DecidableEq ι] (pg : PostgresSession) (window : ℤ)
    (args : ι → RecordIncidentArgs) (db : SecretDb) (hcalls : CallsOneKind window args db)
    (s : IncidentState ι)
    (h : Transition.Reachable (Tasks.step (IncidentShared.act pg)) (init args db) s) :
    s.Debounced window args ∧ ∀ a (s' : IncidentState ι),
      Tasks.step (IncidentShared.act pg) s a = some s' →
      (∀ row, s'.task a.1 = .returned row → row.suppressed = true) →
      s'.shared.db = s.shared.db := by
  have hinv : s.Inv pg window args db := by
    refine Transition.invariant (Inv pg window args db) ?_ (inv_init pg window args db) h
    rintro s₁ s₂ hinv ⟨a, hstep⟩
    exact hinv.step hcalls hstep
  refine ⟨hinv.debounced hcalls, fun a s' hstep hsuppressed => ?_⟩
  obtain ⟨⟨shared, task⟩, hact, rfl⟩ := Tasks.step_eq_some hstep
  have hacts := IncidentShared.acts_of_act hact
  generalize htask : s.task a.1 = old at hacts
  cases hacts with
  | commits i db' row happend =>
    have hrow := (hinv.commits hcalls htask happend).1
    have hreturned := hsuppressed row (Function.update_self _ _ _)
    rw [hrow] at hreturned
    cases hreturned
  | _ => rfl

/-! ### A run -/

/-- The payload of a gap in the ledger. -/
def sampleIncidentPayload : LedgerPayload where
  entryType := .incidentDetected
  object := [("dedupe_key", .string "ledger"), ("detection_source", .string "scheduler"),
    ("incident_type", .string "sequence_gap"), ("notification_result", .string "sent"),
    ("notification_sink", .string "log"), ("severity", .string "high")]
  sorted := by unfold SortedMap.Sorted; decide +kernel
  valid := by decide +kernel

/-- The gap is detected three times: the second time half an hour, the third time an hour and a
half after the first. -/
def sampleDetectedAt : Fin 3 → SourceEventAt
  | 0 => (sampleParts 30).sourceEventAt
  | 1 => ⟨"2026-01-15T00:30:00Z", by decide +kernel⟩
  | 2 => ⟨"2026-01-15T01:30:00Z", by decide +kernel⟩

/-- The entry of the first call is the first of a ledger; the other two calls build on it. -/
def sampleIncidentEntry (k : Fin 3) : SignedLedgerEntry where
  toLedgerEntryParts := { sampleParts 30 with
    ledgerEntryId := sampleEntryId (30 + k.val.toUInt8)
    sequenceNo := if k.val = 0 then (sampleParts 30).sequenceNo else sampleNext.sequenceNo
    sourceEventAt := sampleDetectedAt k, entryType := .incidentDetected
    sourceEventId := some ⟨sampleUuid (20 + k.val.toUInt8)⟩, result := .failure
    errorCode := some "sequence_gap", payload := sampleIncidentPayload
    previousEntryHash := if k.val = 0 then LedgerHash.genesis else sampleHash }
  valid := by revert k; decide +kernel
  entryHash := if k.val = 0 then sampleHash else sampleNext.entryHash
  signature := sampleSignature

/-- The calls for the gap. -/
def sampleIncident (k : Fin 3) : Incident where
  auditEventId := sampleUuid (20 + k.val.toUInt8)
  requestId := sampleUuid 9
  incidentType := "sequence_gap"
  severity := "high"
  detectionSource := "scheduler"
  dedupeKey := "ledger"
  notificationSink := "log"
  notificationResult := "sent"
  errorCode := "sequence_gap"
  sourceEventAt := (sampleDetectedAt k).text
  ledgerEntry := (LedgerEntryRpcParams.fromSignedEntry (sampleIncidentEntry k)).toJson
  sourceEventId := none
  targetSequenceNo := none
  targetYearMonth := none
  dedupeWindowSeconds := 3600

/-- The procedure accepts the arguments of the three calls. -/
theorem incidentIsAccepted_sampleIncident (k : Fin 3) :
    incidentIsAccepted sampleSession (sampleIncident k) = true := by
  have hpayload : jsonbEq sampleIncidentPayload.asValue
      (.object (incidentPayload (sampleIncident 0))) = true := by decide +kernel
  have hforbidden : ∀ k : Fin 3, ledgerPayloadHasForbiddenKey samplePostgres
      (LedgerEntryRpcParams.fromSignedEntry (sampleIncidentEntry k)).toJson = false := by
    decide +kernel
  have hvalid : ledgerPayloadIsValid samplePostgres "incident_detected"
      sampleIncidentPayload.asValue = true := by decide +kernel
  have hentry : incidentEntryIsValid sampleSession (sampleIncident k) = true :=
    incidentEntryIsValid_fromSignedEntry rfl rfl rfl rfl rfl rfl rfl
      (show "sequence_gap" ≠ "" by decide) hpayload (show 1 ≤ 2147483647 by decide)
      (hforbidden k) hvalid
  have harguments : ∀ k, incidentArgumentsAreValid (sampleIncident k) = true := by decide +kernel
  have hmetadata : ∀ k, (!auditMetadataHasForbiddenKey samplePostgres
      (.object (incidentMetadata (sampleIncident k))) &&
      !auditMetadataHasSchemaViolation "incident_detected" "failure"
        (.object (incidentMetadata (sampleIncident k))) true) = true := by decide +kernel
  simp only [incidentIsAccepted, hentry, harguments, Bool.true_and, Bool.and_true]
  exact hmetadata k

theorem argumentValuesAreValid_sampleIncidentEntry : ∀ k, argumentValuesAreValid samplePostgres
    (LedgerEntryRow.ofSigned (sampleIncidentEntry k)) = true := by
  decide +kernel

theorem accepts_sampleIncidentEntry {ledger : LedgerDb} {k : Fin 3} (head : LedgerChainHead)
    (hhead : ledger.chainState = some head.toRow)
    (hnext : (sampleIncidentEntry k).sequenceNo.val = head.lastSequenceNo + 1 ∧
      (sampleIncidentEntry k).previousEntryHash = head.lastEntryHash)
    (hfresh : ∀ row ∈ ledger.entries, row.id ≠ (sampleIncidentEntry k).ledgerEntryId.uuid ∧
      row.sequenceNo ≠ (sampleIncidentEntry k).sequenceNo.val ∧
      row.entryHash ≠ (sampleIncidentEntry k).entryHash.bytes) :
    Accepts samplePostgres ledger (sampleIncidentEntry k) where
  keyVersion_le := show 1 ≤ 2147483647 by decide
  values := argumentValuesAreValid_sampleIncidentEntry k
  id_uuidV4 := (show ∀ k : Fin 3, idIsUuidV4 (sampleIncidentEntry k).ledgerEntryId.uuid = true by
    decide) k
  chainState := ⟨head, hhead, hnext⟩
  id_fresh row hrow := (hfresh row hrow).1
  sequenceNo_fresh row hrow := (hfresh row hrow).2.1
  entryHash_fresh row hrow := (hfresh row hrow).2.2

/-- The tables with the incident of a call. -/
def recordSampleIncident (db : SecretDb) (k : Fin 3) : SecretDb :=
  { db with
    auditEvents := db.auditEvents ++ [incidentEvent (sampleIncident k)]
    ledger := db.ledger.add (sampleIncidentEntry k) }

/-- The event of a call and its entry are appended if the tables take them. -/
theorem exists_appendIncident_sampleIncident (db : SecretDb) (k : Fin 3)
    (hevent : (appendAuditEvent sampleSession db
      (incidentEvent (sampleIncident k))).toOption.isSome = true)
    (hfresh : ∀ e ∈ db.auditEvents, e.id ≠ (sampleIncident k).auditEventId)
    (hentry : Accepts samplePostgres db.ledger (sampleIncidentEntry k)) :
    ∃ row, appendIncident sampleSession db (sampleIncident k) =
      .ok (recordSampleIncident db k, row) := by
  obtain ⟨⟨db₁, id⟩, hevent⟩ := Option.isSome_iff_exists.mp hevent
  rw [Result.toOption_eq_some] at hevent
  obtain ⟨-, ⟨-, stored, hstored, hid⟩ | ⟨-, -, rfl⟩⟩ := appendAuditEvent_eq_ok hevent
  · exact absurd hid (hfresh stored hstored)
  have herror : (sampleIncidentEntry k).errorCode ≠ some "" :=
    show some "sequence_gap" ≠ some "" by decide
  obtain ⟨row, hjson⟩ : ∃ row, rpcAppendLedgerEntryFromJsonb sampleSession db.ledger
      (sampleIncident k).ledgerEntry = .ok (db.ledger.add (sampleIncidentEntry k), row) :=
    ⟨_, (rpcAppendLedgerEntryFromJsonb_toJson herror).mpr
      ⟨hentry.keyVersion_le, hentry.rpcAppendLedgerEntry (LedgerEntryRow.row?_args _)⟩⟩
  refine ⟨⟨(sampleIncident k).auditEventId, some row.ledgerEntryId, false⟩, ?_⟩
  simp only [appendIncident, Result.bind_eq_ok, Result.pure_eq_ok, Prod.exists, Prod.mk.injEq]
  exact ⟨_, id, hevent, _, row, hjson, rfl, rfl⟩

/-- The arguments of the calls. -/
def sampleIncidentArgs (k : Fin 3) : RecordIncidentArgs where
  auditEventId := some (sampleIncident k).auditEventId
  requestId := some (sampleIncident k).requestId
  incidentType := some (sampleIncident k).incidentType
  severity := some (sampleIncident k).severity
  detectionSource := some (sampleIncident k).detectionSource
  dedupeKey := some (sampleIncident k).dedupeKey
  notificationSink := some (sampleIncident k).notificationSink
  notificationResult := some (sampleIncident k).notificationResult
  errorCode := some (sampleIncident k).errorCode
  sourceEventAt := some (sampleIncident k).sourceEventAt
  ledgerEntry := some (sampleIncident k).ledgerEntry
  incidentSourceEventId := none
  targetSequenceNo := none
  targetYearMonth := none
  dedupeWindowSeconds := some 3600

open IncidentState

/-- The three calls are of one kind. -/
theorem callsOneKind_sampleIncidentArgs :
    CallsOneKind 3600 sampleIncidentArgs (emptyStore [] []) := by
  have hone : ∀ k i, (sampleIncidentArgs k).incident? = some i → i = sampleIncident k :=
    fun k i hi => Option.some.inj (hi.symm.trans rfl)
  have hids : ∀ t u : Fin 3, (sampleIncident t).auditEventId = (sampleIncident u).auditEventId →
      t = u := by decide
  refine ⟨fun t u i j hi hj => ?_, fun t u i j hi hj => ?_, fun t i hi => ?_,
    fun t u i j hi hj => ?_, fun _ i _ e he => ?_, fun _ i _ e he => ?_⟩
  · rw [hone t i hi, hone u j hj]
    rfl
  · rw [hone t i hi, hone u j hj]
    rfl
  · rw [hone t i hi]
    rfl
  · rw [hone t i hi, hone u j hj]
    exact hids t u
  · simp [emptyStore] at he
  · simp [emptyStore, emptyLedger] at he

section Run

variable {s : IncidentState (Fin 3)} {k : Fin 3}

/-- A call passes its checks and takes the free lock. -/
theorem reachable_holding (htask : s.task k = .called (sampleIncidentArgs k))
    (hfree : s.shared.locked = false) :
    Transition.Reachable (Tasks.step (IncidentShared.act sampleSession)) s
      ⟨{ s.shared with locked := true },
        Function.update s.task k (.holding (sampleIncident k))⟩ := by
  have hcalled : IncidentShared.act sampleSession s.shared (s.task k) .proceed =
      some (s.shared, .waiting (sampleIncident k)) := by
    rw [htask]
    exact IncidentShared.checkArguments_of_accepted s.shared
      (show (sampleIncidentArgs k).incident? = some (sampleIncident k) from rfl)
      (incidentIsAccepted_sampleIncident k)
  have hwaiting : IncidentShared.act sampleSession s.shared (.waiting (sampleIncident k))
      .proceed = some ({ s.shared with locked := true }, .holding (sampleIncident k)) := by
    simp only [IncidentShared.act, IncidentShared.lock, hfree, Bool.false_eq_true, if_false]
  exact .tail (.single ⟨(k, .proceed), Tasks.step_of_act hcalled⟩)
    ⟨(k, .proceed), Tasks.step_update_of_act hwaiting⟩

/-- A call that finds a recent incident returns without a trace. -/
theorem reachable_suppressed (htask : s.task k = .called (sampleIncidentArgs k))
    (hfree : s.shared.locked = false)
    (hrecent : s.shared.db.auditEvents.any (suppressesIncident (sampleIncident k)) = true) :
    Transition.Reachable (Tasks.step (IncidentShared.act sampleSession)) s
      ⟨s.shared.unlock, Function.update s.task k
        (.returned ⟨(sampleIncident k).auditEventId, none, true⟩)⟩ := by
  have hsearch : IncidentShared.act sampleSession { s.shared with locked := true }
      (.holding (sampleIncident k)) .proceed =
        some (s.shared.unlock, .returned ⟨(sampleIncident k).auditEventId, none, true⟩) := by
    simp only [IncidentShared.act, IncidentShared.search, hrecent, if_true, IncidentShared.unlock]
  exact .tail (reachable_holding htask hfree) ⟨(k, .proceed), Tasks.step_update_of_act hsearch⟩

/-- A call that finds none appends its incident. -/
theorem reachable_recorded (htask : s.task k = .called (sampleIncidentArgs k))
    (hfree : s.shared.locked = false)
    (hrecent : s.shared.db.auditEvents.any (suppressesIncident (sampleIncident k)) = false)
    {db : SecretDb} {row : RecordIncidentRow}
    (happend : appendIncident sampleSession s.shared.db (sampleIncident k) = .ok (db, row)) :
    Transition.Reachable (Tasks.step (IncidentShared.act sampleSession)) s
      ⟨⟨db, false, s.shared.recorded ++ [sampleIncident k]⟩,
        Function.update s.task k (.returned row)⟩ := by
  have hsearch : IncidentShared.act sampleSession { s.shared with locked := true }
      (.holding (sampleIncident k)) .proceed =
        some ({ s.shared with locked := true }, .checked (sampleIncident k)) := by
    simp only [IncidentShared.act, IncidentShared.search, hrecent, Bool.false_eq_true, if_false]
  have hcommit : IncidentShared.act sampleSession { s.shared with locked := true }
      (.checked (sampleIncident k)) .proceed =
        some (⟨db, false, s.shared.recorded ++ [sampleIncident k]⟩, .returned row) :=
    IncidentShared.commit_of_append _ happend
  exact .tail (.tail (reachable_holding htask hfree)
    ⟨(k, .proceed), Tasks.step_update_of_act hsearch⟩)
    ⟨(k, .proceed), Tasks.step_update_of_act hcommit⟩

end Run

/-- An instance: of the three calls the first and the third are recorded, and the second is
suppressed. -/
theorem incidents_debounced_sampleIncident : ∃ s : IncidentState (Fin 3),
    s.shared.recorded = [sampleIncident 0, sampleIncident 2] ∧
    s.task 1 = .returned ⟨sampleUuid 21, none, true⟩ ∧ s.Debounced 3600 sampleIncidentArgs := by
  obtain ⟨row₁, happend₁⟩ := exists_appendIncident_sampleIncident (emptyStore [] []) 0
    (by decide +kernel) (by simp [emptyStore])
    (accepts_sampleIncidentEntry .genesis rfl ⟨rfl, rfl⟩
      (by simp [emptyStore, emptyLedger]))
  obtain ⟨row₂, happend₂⟩ := exists_appendIncident_sampleIncident
    (recordSampleIncident (emptyStore [] []) 0) 2 (by decide +kernel) (by decide)
    (accepts_sampleIncidentEntry (.after (sampleIncidentEntry 0)) rfl ⟨rfl, rfl⟩
      (by decide))
  have hfirst := reachable_recorded (s := init sampleIncidentArgs (emptyStore [] [])) (k := 0)
    rfl rfl rfl happend₁
  have hsuppressed : (recordSampleIncident (emptyStore [] []) 0).auditEvents.any
      (suppressesIncident (sampleIncident 1)) = true := by decide +kernel
  have hnew : (recordSampleIncident (emptyStore [] []) 0).auditEvents.any
      (suppressesIncident (sampleIncident 2)) = false := by decide +kernel
  have hsecond := hfirst.trans (reachable_suppressed (k := 1) rfl rfl hsuppressed)
  have hthird := hsecond.trans (reachable_recorded (k := 2) rfl rfl hnew happend₂)
  exact ⟨_, rfl, rfl, (incidents_debounced sampleSession 3600 _ _ callsOneKind_sampleIncidentArgs _
    hthird).1⟩

end Mipsorcu
