import Mipsorcu.Database.IntegrityCheck
import Mipsorcu.Protocol.SigningProcesses

/-!
# The integrity check over whole runs

The check runs on tables that only the procedures of the server have changed. The invariant of the
store gives it everything it asks of the secrets and their versions (`CheckInv`), and the
constraints of the audit table all it asks of the events, except that it does not know the actions
that were added after it: every event with one of those counts as a violation
(`integrityCheck_reports_unknown_actions`).
-/

namespace Mipsorcu

open Sql

variable {P : Primitives}

/-! ### Runs of all the procedures -/

/-- A call of a procedure by the server or by one of its commands. -/
inductive RpcCall where
  | server (call : ServerCall)
  | signingKey (call : KeyCall)

namespace RpcCall

/-- The tables after the call, or the exception it raised. -/
def run (P : Primitives) (pg : PostgresSession) (db : SecretDb) : RpcCall → Except SqlError SecretDb
  | server call => call.run pg db
  | signingKey call => call.run P pg db

/-- The write a call makes if it commits. -/
def write? : RpcCall → Option SecretWrite
  | server (.store call) => call.write?
  | _ => none

end RpcCall

namespace StoreState

/-- One transaction. -/
def commit (P : Primitives) (pg : PostgresSession) (s : StoreState) (call : RpcCall) :
    StoreState :=
  match call.run P pg s.db with
  | .ok db => ⟨db, s.writes ++ call.write?.toList⟩
  | .error _ => s

/-- Some sequence of transactions leads from `s` to `s'`. -/
def RpcRun (P : Primitives) (pg : PostgresSession) : StoreState → StoreState → Prop :=
  Transition.Reachable fun s call => some (s.commit P pg call)

end StoreState

/-! ### One transaction -/

/-- What a transaction adds to the rows the check reads: events that pass the constraints, and
envelopes of the right length. -/
structure AddsSoundRows (pg : PostgresSession) (db db' : SecretDb) : Prop where
  events : EventsValid pg.toPostgres db db'
  envelopes : ∀ v ∈ db'.secretVersions,
    v ∈ db.secretVersions ∨ v.encryptedDataKey.length = 73

section

variable {pg : PostgresSession} {db db' : SecretDb}

theorem AddsSoundRows.of_events (hevents : EventsValid pg.toPostgres db db')
    (hversions : db'.secretVersions = db.secretVersions) : AddsSoundRows pg db db' :=
  ⟨hevents, fun _ hv => .inl (hversions ▸ hv)⟩

theorem Sql.PurgesRecorded.eventsValid {random : ℕ → Uuid} {w : SecretWrite}
    {rows : List SecretVersionRow} (h : PurgesRecorded pg random w db rows db') :
    EventsValid pg.toPostgres db db' := by
  induction h with
  | nil => exact .of_eq rfl
  | cons _ hrecord _ ih => exact hrecord.events_valid.trans ih

/-- A write adds a sound row and valid events. -/
theorem Sql.Written.addsSoundRows {random : ℕ → Uuid} {w : SecretWrite} {entry : Option Json}
    {purged : List SecretVersionRow} (h : Written pg random db w entry purged db') :
    AddsSoundRows pg db db' := by
  constructor
  · obtain ⟨locked, recorded, hlocked, -, hrecorded, -, hpurges⟩ := h.exists_states
    have hevents : EventsValid pg.toPostgres db recorded := by
      refine .trans (.of_eq ?_) hrecorded.events_valid
      exact hlocked.records_frame.1
    refine hevents.trans (.trans (.of_eq ?_) hpurges.eventsValid)
    rfl
  · obtain ⟨-, -, -, -, hversions, -⟩ := h.tables
    intro v hv
    rw [hversions] at hv
    rcases List.mem_append.mp (List.mem_filter.mp hv).1 with hold | hnew
    · exact .inl hold
    · rw [List.mem_singleton.mp hnew]
      have harguments := h.arguments
      simp only [writeArgumentsAreValid, Bool.and_eq_true, beq_iff_eq] at harguments
      obtain ⟨⟨⟨⟨⟨-, hlength⟩, -⟩, -⟩, -⟩, -⟩ := harguments
      exact .inr hlength

/-- A new envelope of a sound row is sound. -/
theorem Sql.Rewrapped.addsSoundRows {r : KeyRotation} {rows : List RotationRow}
    (h : Rewrapped pg db r rows db') (hlength : ∀ row ∈ rows, row.encryptedDataKey.length = 73) :
    AddsSoundRows pg db db' := by
  refine ⟨.trans (.of_eq rfl) h.recorded.events_valid, ?_⟩
  rw [h.recorded.frame]
  intro v' hv'
  obtain ⟨v, hv, rfl⟩ := List.mem_map.mp hv'
  rcases rewrapVersion_cases rows r.oldKeyVersion r.newKeyVersion v with ⟨-, heq⟩ | ⟨row, hrow, heq⟩
  · rw [heq]
    exact .inl hv
  · rw [heq]
    exact .inr (hlength row (rotationFor_eq_some hrow).2.1)

/-- An event and an entry are added, whatever the registry was before. -/
theorem AddsSoundRows.of_append {recorded : SecretDb} {event : AuditEventRow} {id : Uuid}
    (happend : Sql.appendAuditEvent pg db event = .ok (recorded, id))
    (hframe : db' = { recorded with ledger := db'.ledger }) : AddsSoundRows pg db db' := by
  have hevents := appendAuditEvent_eventsValid happend
  obtain ⟨events, rfl⟩ := appendAuditEvent_frame happend
  rw [hframe]
  exact .of_events (hevents.trans (.of_eq rfl)) rfl

theorem Sql.AliasEffect.addsSoundRows {random : Uuid} (h : AliasEffect pg db random db') :
    AddsSoundRows pg db db' := by
  refine .of_events h.events_valid ?_
  obtain ⟨⟨aliases, event, -, -, -, -, rfl⟩, -⟩ := h
  rfl

/-- Whatever is called, what is new is sound. -/
theorem StoreCall.run_addsSoundRows {call : StoreCall} (h : call.run pg db = .ok db') :
    AddsSoundRows pg db db' := by
  cases StoreCall.effect h with
  | written _ hwritten => exact hwritten.addsSoundRows
  | rewrapped _ hrows hrewrapped => exact hrewrapped.addsSoundRows (rotationRows?_length hrows)
  | completed _ _ _ hrecorded => exact .of_events hrecorded.events_valid (by rw [hrecorded.frame])
  | aliasCreated heffect => exact heffect.addsSoundRows
  | aliasUpdated heffect => exact heffect.addsSoundRows
  | aliasDeleted heffect => exact heffect.addsSoundRows
  | auditAppended _ happend => exact .of_append happend rfl
  | appendedWithLedger _ happended =>
    obtain ⟨recorded, happend, -, hframe⟩ := happended.exists_db
    exact .of_append happend hframe
  | ledgerAppended _ _ hframe =>
    rw [hframe]
    exact .of_events (.of_eq rfl) rfl

/-- What a call of a key procedure does to the tables the check reads. -/
theorem KeyCall.exists_append {call : KeyCall} (h : call.run P pg db = .ok db') :
    ∃ event recorded registry, Sql.appendAuditEvent pg (db.withSigningKeys registry) event =
      .ok (recorded, event.id) ∧ db' = { recorded with ledger := db'.ledger } := by
  obtain ⟨_, _, -, -, hcommitted⟩ := KeyCall.committed h
  obtain ⟨_, _, registry, result, -, -, -, happend⟩ := hcommitted.exists_change
  obtain ⟨event, row, -, -, happended⟩ := appendEventAndEntry_eq_ok happend
  obtain ⟨recorded, hrecorded, -, hframe⟩ := happended.exists_db
  exact ⟨event, recorded, registry, hrecorded, hframe⟩

theorem EnvelopesOnly.of_append {recorded : SecretDb} {event : AuditEventRow} {id : Uuid}
    (happend : Sql.appendAuditEvent pg db event = .ok (recorded, id))
    (hframe : db' = { recorded with ledger := db'.ledger }) : EnvelopesOnly db db' := by
  obtain ⟨events, rfl⟩ := appendAuditEvent_frame happend
  rw [hframe]
  exact ⟨rfl, rfl, rfl⟩

/-- **All a committed call can do** to the rows the check reads: write a version, or change nothing
of the secrets and their versions but envelopes; and what it adds is sound. -/
theorem RpcCall.run_eq_ok {call : RpcCall} (h : call.run P pg db = .ok db') :
    AddsSoundRows pg db db' ∧
    ((∃ random w entry purged, call.write? = some w ∧ Written pg random db w entry purged db') ∨
      (call.write? = none ∧ EnvelopesOnly db db')) := by
  cases call with
  | server call =>
    cases call with
    | store call => exact ⟨StoreCall.run_addsSoundRows h, StoreCall.run_eq_ok h⟩
    | recordIncident args =>
      simp only [run, ServerCall.run, Result.map_eq_ok, Prod.exists] at h
      obtain ⟨_, result, hcall, rfl⟩ := h
      obtain ⟨i, -, ⟨-, rfl, -⟩ | ⟨-, -, recorded, row, happend, -, hframe⟩⟩ :=
        rpcRecordIncident_eq_ok hcall
      · exact ⟨.of_events (.of_eq rfl) rfl, .inr ⟨rfl, rfl, rfl, rfl⟩⟩
      · exact ⟨.of_append happend hframe, .inr ⟨rfl, .of_append happend hframe⟩⟩
  | signingKey call =>
    obtain ⟨event, recorded, registry, happend, hframe⟩ := KeyCall.exists_append h
    -- the registry is no table the check reads
    have hrows := AddsSoundRows.of_append happend hframe
    have honly := EnvelopesOnly.of_append happend hframe
    exact ⟨⟨hrows.events, hrows.envelopes⟩, .inr ⟨rfl, honly.users, honly.secrets, honly.versions⟩⟩

end

/-! ### The invariant -/

/-- What the procedures guarantee of the rows the check reads. -/
structure CheckInv (pg : PostgresSession) (s : StoreState) : Prop
    extends StoreInv s.db s.writes where
  arguments : ∀ w ∈ s.writes, writeArgumentsAreValid w = true
  envelopes : ∀ v ∈ s.db.secretVersions, v.encryptedDataKey.length = 73
  events : ∀ e ∈ s.db.auditEvents, auditEventIsValid pg.toPostgres e = true

namespace CheckInv

variable {pg : PostgresSession} {s : StoreState}

theorem empty (pg : PostgresSession) (users : List Uuid)
    (signingPublicKeys : List LedgerSigningPublicKeyRow) :
    CheckInv pg (.init users signingPublicKeys) where
  toStoreInv := StoreInv.empty users signingPublicKeys
  arguments := by simp [StoreState.init]
  envelopes := by simp [StoreState.init, emptyStore]
  events := by simp [StoreState.init, emptyStore]

/-- Every transaction keeps the invariant. -/
theorem commit (hinv : CheckInv pg s) (call : RpcCall) : CheckInv pg (s.commit P pg call) := by
  unfold StoreState.commit
  cases hrun : call.run P pg s.db with
  | error => exact hinv
  | ok db' =>
    obtain ⟨hrows, hcases⟩ := RpcCall.run_eq_ok hrun
    have henvelopes : ∀ v ∈ db'.secretVersions, v.encryptedDataKey.length = 73 := fun v hv =>
      (hrows.envelopes v hv).elim (hinv.envelopes v) id
    have hevents : ∀ e ∈ db'.auditEvents, auditEventIsValid pg.toPostgres e = true := fun e he =>
      (hrows.events e he).elim (hinv.events e) id
    rcases hcases with ⟨random, w, entry, purged, hw, hwritten⟩ | ⟨hnone, honly⟩
    · simp only [hw, Option.toList_some]
      refine ⟨hinv.toStoreInv.written hwritten, fun w' hw' => ?_, henvelopes, hevents⟩
      rcases List.mem_append.mp hw' with hold | hnew
      · exact hinv.arguments w' hold
      · exact List.mem_singleton.mp hnew ▸ hwritten.arguments
    · simp only [hnone, Option.toList_none, List.append_nil]
      exact ⟨hinv.toStoreInv.envelopesOnly honly, hinv.arguments, henvelopes, hevents⟩

/-- The invariant holds along every run. -/
theorem of_run {s' : StoreState} (hinv : CheckInv pg s) (h : StoreState.RpcRun P pg s s') :
    CheckInv pg s' := by
  refine Transition.invariant (CheckInv pg) ?_ hinv h
  rintro a _ ha ⟨call, ⟨⟩⟩
  exact ha.commit call

/-- A retained version is one that a write stored, up to its envelope. -/
theorem exists_write_of_version (hinv : CheckInv pg s) {v : SecretVersionRow}
    (hv : v ∈ s.db.secretVersions) :
    ∃ w ∈ s.writes, w.secretId = v.secretId ∧ v.withoutEnvelope = w.stored := by
  have hmem : v ∈ s.db.versionsOf v.secretId := List.mem_filter.mpr ⟨hv, beq_self_eq_true _⟩
  obtain ⟨w, hw, hstored⟩ := hinv.exists_write hmem
  obtain ⟨hw, hid⟩ := mem_writesOf.mp hw
  exact ⟨w, hw, hid, hstored⟩

/-- Every stored version is sound. -/
theorem versionIsSound (hinv : CheckInv pg s) {v : SecretVersionRow}
    (hv : v ∈ s.db.secretVersions) : VersionIsSound v := by
  obtain ⟨w, hw, -, hstored⟩ := hinv.exists_write_of_version hv
  have harguments := hinv.arguments w hw
  simp only [writeArgumentsAreValid, Bool.and_eq_true, decide_eq_true_eq, bne_iff_ne,
    beq_iff_eq] at harguments
  obtain ⟨⟨⟨⟨⟨⟨⟨-, hversion⟩, hciphertext⟩, -⟩, -⟩, halgorithm⟩, hnonce⟩, -⟩ := harguments
  have hcontext := hinv.context w hw
  have haad : v.aadContext = w.aadContext := congrArg SecretVersionRow.aadContext hstored
  -- the rules read no column of the envelope but its length
  constructor
  · exact (congrArg SecretVersionRow.version hstored).trans_gt hversion
  · exact fun hnil => hciphertext ((congrArg SecretVersionRow.ciphertext hstored).symm.trans hnil)
  · exact List.ne_nil_of_length_pos (by rw [hinv.envelopes v hv]; decide)
  · exact (congrArg (fun v => v.nonceOrIv.length) hstored).trans hnonce
  · exact (congrArg SecretVersionRow.algorithm hstored).trans halgorithm
  · rw [haad]
    exact aadKeysAreInvalid_of_matches hcontext
  · exact (congrArg createdAtMismatches hstored).trans (createdAtMismatches_versionRow hcontext)

/-- **The procedures keep every rule of the check but the one on the actions.** -/
theorem tablesAreSound (hinv : CheckInv pg s) : TablesAreSound pg.toPostgres s.db where
  current secret hsecret := by
    obtain ⟨row, hrow, hpointer, -⟩ := hinv.current hsecret
    obtain ⟨hmem, hid⟩ := List.mem_filter.mp hrow
    rw [currentVersionIsInvalid, Bool.not_eq_false', List.any_eq_true]
    exact ⟨row, hmem, by simpa [hpointer] using hid⟩
  retention := hinv.length_versionsOf_le
  nonces := hinv.nonces_nodup
  versions _ hv := hinv.versionIsSound hv
  rows v hv secret hsecret hid := by
    obtain ⟨w, hw, hwid, hstored⟩ := hinv.exists_write_of_version hv
    obtain ⟨secret', hsecret', hid', howner, hclassification⟩ := hinv.write_of_secret w hw
    obtain rfl : secret' = secret := List.inj_on_of_nodup_map hinv.secret_ids_nodup hsecret' hsecret
      (hid'.trans (hwid.trans hid.symm))
    exact (congrArg (aadRowMismatches secret') hstored).trans
      (aadRowMismatches_versionRow (hinv.context w hw) howner hclassification)
  events := hinv.events

end CheckInv

/-! ### What the check reports -/

theorem unknownActionCount_eq_zero_iff {db : SecretDb} : unknownActionCount db = 0 ↔
    ∀ e ∈ db.auditEvents, e.action ∈ integrityCheckActions := by
  simp [unknownActionCount, List.countP_eq_zero]

/-- **What the check reports in every reachable state.** After any sequence of transactions with any
arguments the check finds no violation exactly if every recorded event has one of the ten actions it
knows and the tables can be counted. -/
theorem integrityCheck_reports_unknown_actions (P : Primitives) (pg : PostgresSession)
    (users : List Uuid) (signingPublicKeys : List LedgerSigningPublicKeyRow) (s : StoreState)
    (hrun : StoreState.RpcRun P pg (.init users signingPublicKeys) s) :
    (∃ report, rpcIntegrityCheck pg.toPostgres s.db = .ok report ∧ report.violationCount = 0) ↔
      IsCountable s.db ∧ ∀ e ∈ s.db.auditEvents, e.action ∈ integrityCheckActions := by
  have hinv : CheckInv pg s := (CheckInv.empty pg users signingPublicKeys).of_run hrun
  rw [rpcIntegrityCheck_eq_ok_iff hinv.tablesAreSound, eq_comm (a := 0),
    unknownActionCount_eq_zero_iff]

/-- The state after the first write of the sample secret. -/
def sampleChecked : StoreState :=
  (StoreState.init [sampleUuid 7] []).commit sampleKeyPrimitives sampleSession
    (.server (.store (.writeSecretVersion (fun _ => sampleUuid 5) (sampleWriteArgs 1))))

/-- An instance: the write commits and is recorded, and the check finds no violation. -/
theorem integrityCheck_reports_sampleChecked :
    sampleChecked.db.auditEvents.length = 1 ∧
      ∃ report, rpcIntegrityCheck sampleSession.toPostgres sampleChecked.db = .ok report ∧
        report.violationCount = 0 := by
  have hevents : sampleChecked.db.secrets.length = 1 ∧ sampleChecked.db.secretVersions.length = 1 ∧
      sampleChecked.db.auditEvents.length = 1 ∧
      ∀ e ∈ sampleChecked.db.auditEvents, e.action ∈ integrityCheckActions := by
    decide +kernel
  obtain ⟨hsecrets, hversions, hlength, hactions⟩ := hevents
  have hcountable : IsCountable sampleChecked.db := by
    unfold IsCountable
    omega
  exact ⟨hlength, (integrityCheck_reports_unknown_actions sampleKeyPrimitives sampleSession
    [sampleUuid 7] [] sampleChecked (.single ⟨_, rfl⟩)).mpr ⟨hcountable, hactions⟩⟩

/-- The first thing an operator does, the creation of a signing key, is a violation to the check. -/
theorem integrityCheck_raises_false_alarm :
    ∃ s, StoreState.RpcRun sampleKeyPrimitives sampleSession (.init [] []) s ∧
      ∃ report, rpcIntegrityCheck sampleSession.toPostgres s.db = .ok report ∧
        report.violationCount = 1 := by
  refine ⟨StoreState.commit sampleKeyPrimitives sampleSession (.init [] [])
    (.signingKey (sampleCreate 1)), .single ⟨_, rfl⟩, ?_⟩
  have hreport : ((rpcIntegrityCheck sampleSession.toPostgres (StoreState.commit sampleKeyPrimitives
      sampleSession (.init [] []) (.signingKey (sampleCreate 1))).db).toOption.map
        IntegrityReport.violationCount) = some 1 := by
    decide +kernel
  obtain ⟨report, hok, hcount⟩ := Option.map_eq_some_iff.mp hreport
  exact ⟨report, Result.toOption_eq_some.mp hok, hcount⟩

end Mipsorcu
