import Mipsorcu.Database.Evidence
import Mipsorcu.Protocol.SecretStore

/-!
# The audit table and the ledger over whole runs

Every transaction only adds rows to `audit_events` and to `ledger_entries`, each under a new
identifier: both tables refine the abstract log `Logs` (`StoreCall.run_appendOnly`). From that
follows what a repeated append does. An event that is stored is never stored again, and a call that
reuses its identifier either describes it or raises.

The ledger has its own identifiers. A call of `rpc_append_audit_event_with_ledger` that repeats an
event under a new entry identifier adds an entry for the event (`two_entries_of_one_event`); such
entries agree in all they copy from the event.
-/

namespace Mipsorcu

open Sql

/-! ### Two append-only logs -/

/-- The audit table and the ledger only grow, with new identifiers, and the registry of keys is not
touched. -/
structure AppendOnly (db db' : SecretDb) : Prop where
  auditEvents : Relation.ReflTransGen (Logs.Step AuditEventRow.id) db.auditEvents db'.auditEvents
  entries : Relation.ReflTransGen (Logs.Step LedgerEntryRow.id) db.ledger.entries db'.ledger.entries
  registry : db'.ledger.signingPublicKeys = db.ledger.signingPublicKeys

namespace AppendOnly

variable {pg : PostgresSession} {db db' db'' : SecretDb}

theorem refl (db : SecretDb) : AppendOnly db db := ⟨.refl, .refl, rfl⟩

theorem trans (h : AppendOnly db db') (h' : AppendOnly db' db'') : AppendOnly db db'' :=
  ⟨h.auditEvents.trans h'.auditEvents, h.entries.trans h'.entries, h'.registry.trans h.registry⟩

end AppendOnly

section Procedures

variable {pg : PostgresSession} {db db' : SecretDb} {ledger ledger' : LedgerDb}

/-- An append to the ledger replays an entry, or adds one under a new identifier. -/
theorem ledger_of_append {row : LedgerEntryRow} {result : AppendLedgerEntryRow}
    (h : Replayed ledger row ledger' result ∨ Inserted ledger row ledger' result) :
    Relation.ReflTransGen (Logs.Step LedgerEntryRow.id) ledger.entries ledger'.entries ∧
      ledger'.signingPublicKeys = ledger.signingPublicKeys := by
  rcases h with hreplayed | hinserted
  · rw [hreplayed.db_eq]
    exact ⟨.refl, rfl⟩
  · rw [hinserted.db_eq]
    exact ⟨.single (Logs.step_concat hinserted.id_fresh), rfl⟩

variable {entry : Option Json}

theorem Sql.LedgerAppended.appendOnly (h : LedgerAppended pg ledger entry ledger') :
    Relation.ReflTransGen (Logs.Step LedgerEntryRow.id) ledger.entries ledger'.entries ∧
      ledger'.signingPublicKeys = ledger.signingPublicKeys := by
  cases entry with
  | none =>
    obtain rfl : ledger' = ledger := h
    exact ⟨.refl, rfl⟩
  | some e =>
    obtain ⟨result, happend⟩ := h
    obtain ⟨row, -, hcases⟩ := rpcAppendLedgerEntryFromJsonb_eq_ok happend
    exact ledger_of_append hcases

variable {w : SecretWrite}

theorem Sql.VersionRecorded.appendOnly {random : Uuid} {action : String} {v : SecretVersionRow}
    (h : VersionRecorded pg random db w action v entry db') : AppendOnly db db' := by
  obtain ⟨⟨id, ledger, -, hfresh, happended, rfl⟩, -⟩ := h
  exact ⟨.single (Logs.step_concat hfresh), happended.appendOnly.1, happended.appendOnly.2⟩

theorem Sql.PurgesRecorded.appendOnly {random : ℕ → Uuid} {rows : List SecretVersionRow}
    (h : PurgesRecorded pg random w db rows db') : AppendOnly db db' := by
  induction h with
  | nil => exact .refl _
  | cons _ hrecord _ ih => exact hrecord.appendOnly.trans ih

/-- A write only adds to the audit and the ledger. -/
theorem Sql.Written.appendOnly {random : ℕ → Uuid} {purged : List SecretVersionRow}
    (h : Written pg random db w entry purged db') : AppendOnly db db' := by
  obtain ⟨locked, recorded, hlocked, -, hrecorded, -, hpurges⟩ := h.exists_states
  have hwrite := hrecorded.appendOnly
  have hpurged := hpurges.appendOnly
  refine ⟨?_, ?_, ?_⟩
  · rw [← hlocked.records_frame.1]
    exact hwrite.auditEvents.trans hpurged.auditEvents
  · rw [← hlocked.records_frame.2]
    exact hwrite.entries.trans hpurged.entries
  · rw [← hlocked.records_frame.2]
    exact hpurged.registry.trans hwrite.registry

theorem Sql.RotationRecorded.appendOnly {action : String} {r : KeyRotation}
    {payload : List (String × Json)} (h : RotationRecorded pg db action r payload db') :
    AppendOnly db db' := by
  obtain ⟨-, hfresh, ⟨ledger, happended, rfl⟩, -⟩ := h
  exact ⟨.single (Logs.step_concat hfresh), happended.appendOnly.1, happended.appendOnly.2⟩

theorem Sql.AliasEffect.appendOnly {random : Uuid} (h : AliasEffect pg db random db') :
    AppendOnly db db' := by
  obtain ⟨⟨aliases, event, hid, hfresh, -, -, rfl⟩, -⟩ := h
  exact ⟨.single (Logs.step_concat fun e he => hid ▸ hfresh e he), .refl, rfl⟩

theorem appendOnly_of_appendAuditEvent {row : AuditEventRow} {id : Uuid}
    (h : Sql.appendAuditEvent pg db row = .ok (db', id)) : AppendOnly db db' := by
  obtain ⟨-, ⟨rfl, -⟩ | ⟨-, hfresh, rfl⟩⟩ := appendAuditEvent_eq_ok h
  · exact .refl _
  · exact ⟨.single (Logs.step_concat hfresh), .refl, rfl⟩

/-- Appending to the ledger after that. -/
theorem AppendOnly.append_ledger {recorded : SecretDb} {row : LedgerEntryRow}
    {result : AppendLedgerEntryRow} (h : AppendOnly db recorded)
    (hcases : Replayed recorded.ledger row db'.ledger result ∨
      Inserted recorded.ledger row db'.ledger result)
    (hframe : db' = { recorded with ledger := db'.ledger }) : AppendOnly db db' := by
  have hledger := ledger_of_append hcases
  refine ⟨?_, h.entries.trans hledger.1, hledger.2.trans h.registry⟩
  rw [hframe]
  exact h.auditEvents

end Procedures

/-- **Every transaction only adds to the two logs.** -/
theorem StoreCall.run_appendOnly {pg : PostgresSession} {db db' : SecretDb} {call : StoreCall}
    (h : call.run pg db = .ok db') : AppendOnly db db' := by
  cases StoreCall.effect h with
  | written _ hwritten => exact hwritten.appendOnly
  | rewrapped _ _ hrewrapped =>
    have hrecorded := hrewrapped.recorded.appendOnly
    exact ⟨hrecorded.auditEvents, hrecorded.entries, hrecorded.registry⟩
  | completed _ _ _ hrecorded => exact hrecorded.appendOnly
  | aliasCreated heffect => exact heffect.appendOnly
  | aliasUpdated heffect => exact heffect.appendOnly
  | aliasDeleted heffect => exact heffect.appendOnly
  | auditAppended _ happend => exact appendOnly_of_appendAuditEvent happend
  | appendedWithLedger _ happended =>
    obtain ⟨recorded, happend, hcases, hframe⟩ := happended.exists_db
    exact (appendOnly_of_appendAuditEvent happend).append_ledger hcases hframe
  | ledgerAppended _ hcases hframe => exact (AppendOnly.refl db).append_ledger hcases hframe

/-- One call, whether it commits or not. -/
theorem StoreState.step_appendOnly (pg : PostgresSession) (s : StoreState) (call : StoreCall) :
    AppendOnly s.db (s.step pg call).db := by
  unfold StoreState.step
  cases hrun : call.run pg s.db with
  | error => exact .refl _
  | ok db' => exact StoreCall.run_appendOnly hrun

/-- Any run. -/
theorem StoreState.Run.appendOnly {pg : PostgresSession} {s s' : StoreState}
    (h : StoreState.Run pg s s') : AppendOnly s.db s'.db := by
  refine Transition.invariant (fun t => AppendOnly s.db t.db) ?_ (.refl _) h
  rintro a _ ha ⟨call, ⟨⟩⟩
  exact ha.trans (a.step_appendOnly pg call)

/-! ### Repeated appends -/

section Repeated

variable {pg : PostgresSession} {db db' : SecretDb} {args : AppendAuditEventArgs}

/-- A successful append, repeated on tables that have grown since, changes nothing. -/
theorem rpcAppendAuditEvent_again {later : SecretDb} {id : Uuid}
    (h : rpcAppendAuditEvent pg db args = .ok (db', id))
    (hgrown : db'.auditEvents <+: later.auditEvents)
    (hids : (later.auditEvents.map AuditEventRow.id).Nodup) :
    rpcAppendAuditEvent pg later args = .ok (later, id) := by
  simp only [rpcAppendAuditEvent, Result.bind_eq_ok, Result.ofOption_eq_ok] at h ⊢
  obtain ⟨row, hrow, happend⟩ := h
  obtain ⟨harguments, hvalid, stored, hstored, hid, hsame⟩ := appendAuditEvent_stored happend
  obtain rfl : id = row.id := (appendAuditEvent_eq_ok happend).1
  refine ⟨row, hrow, (appendAuditEvent_eq_ok_of_stored ?_).mpr
    ⟨harguments, hvalid, hsame, rfl, rfl⟩⟩
  rw [← hid]
  exact Keyed.find?_eq hids (hgrown.subset hstored)

/-- A call that reuses the identifier of an event it does not describe raises. -/
theorem rpcAppendAuditEvent_conflict {stored : AuditEventRow}
    (hids : (db.auditEvents.map AuditEventRow.id).Nodup) (hstored : stored ∈ db.auditEvents)
    (hid : args.auditEventId = some stored.id)
    (hdiffers : ∀ row, args.row? = some row → ¬SameAuditEvent stored row)
    (result : SecretDb × Uuid) : rpcAppendAuditEvent pg db args ≠ .ok result := by
  intro h
  simp only [rpcAppendAuditEvent, Result.bind_eq_ok, Result.ofOption_eq_ok] at h
  obtain ⟨row, hrow, happend⟩ := h
  have hrowId : row.id = stored.id := by
    rw [AppendAuditEventArgs.row?_eq_some.mp hrow] at hid
    exact Option.some.inj hid
  have hfind : (db.auditEvents.find? fun e => e.id == row.id) = some stored := by
    rw [hrowId]
    exact Keyed.find?_eq hids hstored
  exact hdiffers row hrow ((appendAuditEvent_eq_ok_of_stored hfind).mp happend).2.2.1

/-- Another event under a stored identifier is refused. -/
theorem rpcAppendAuditEventWithLedger_conflict {stored : AuditEventRow}
    {entry : AppendLedgerEntryArgs} (hids : (db.auditEvents.map AuditEventRow.id).Nodup)
    (hstored : stored ∈ db.auditEvents) (hid : args.auditEventId = some stored.id)
    (hdiffers : ∀ row, args.row? = some row → ¬SameAuditEvent stored row)
    (result : SecretDb × AppendLedgerEntryRow) :
    rpcAppendAuditEventWithLedger pg db args entry ≠ .ok result := by
  intro h
  obtain ⟨event, row, hevent, -, happended⟩ := rpcAppendAuditEventWithLedger_eq_ok h
  obtain ⟨recorded, happend, -⟩ := happended.exists_db
  have hcall : rpcAppendAuditEvent pg db args = .ok (recorded, event.id) := by
    rw [rpcAppendAuditEvent, hevent, Result.ofOption_some, Result.ok_bind, happend]
  exact rpcAppendAuditEvent_conflict hids hstored hid hdiffers _ hcall

end Repeated

/-! ### Entries of one event -/

/-- The call commits and adds the row to the ledger. -/
def WritesEntry (pg : PostgresSession) (db : SecretDb) (audit : AppendAuditEventArgs)
    (entry : AppendLedgerEntryArgs) (row : LedgerEntryRow) : Prop :=
  ∃ db' result, rpcAppendAuditEventWithLedger pg db audit entry = .ok (db', result) ∧
    db'.ledger.entries = db.ledger.entries ++ [row]

/-- Such a call appends the event, and the row is new. -/
theorem WritesEntry.appended {pg : PostgresSession} {db : SecretDb} {audit : AppendAuditEventArgs}
    {entry : AppendLedgerEntryArgs} {row : LedgerEntryRow} (h : WritesEntry pg db audit entry row) :
    ∃ event db' result, audit.row? = some event ∧ AppendedWithLedger pg db event row db' result ∧
      (∀ e ∈ db.ledger.entries, e.id ≠ row.id) ∧
      StoreCall.run pg db (.appendAuditEventWithLedger audit entry) = .ok db' ∧
      db'.ledger.entries = db.ledger.entries ++ [row] := by
  obtain ⟨db', result, hcall, hentries⟩ := h
  obtain ⟨event, row', hevent, -, happended⟩ := rpcAppendAuditEventWithLedger_eq_ok hcall
  obtain ⟨recorded, happend, hcases, -⟩ := happended.exists_db
  have hledger : recorded.ledger = db.ledger := by
    obtain ⟨events, rfl⟩ := appendAuditEvent_frame happend
    rfl
  rw [hledger] at hcases
  rcases hcases with hreplayed | hinserted
  · -- a replay would not add a row
    have hlength := congrArg List.length hentries
    rw [hreplayed.db_eq, List.length_append, List.length_singleton] at hlength
    omega
  · have hrow : row' = row := by
      rw [hinserted.db_eq] at hentries
      simpa using hentries
    subst hrow
    refine ⟨event, db', result, hevent, happended, hinserted.id_fresh, ?_, hentries⟩
    rw [StoreCall.run, hcall]
    rfl

/-- What entries about one event have in common: all that is copied from the event. -/
structure SameSource (row row' : LedgerEntryRow) : Prop where
  id_ne : row'.id ≠ row.id
  requestId : row'.requestId = row.requestId
  targetSecretId : row'.targetSecretId = row.targetSecretId
  actorUserId : row'.actorUserId = row.actorUserId
  actorDeviceId : row'.actorDeviceId = row.actorDeviceId
  result : row'.result = row.result

/-- **Two entries with one source** come from calls with the same event, the second of which
repeats it under a new entry identifier. -/
theorem WritesEntry.sameSource {pg : PostgresSession} {s s' : StoreState}
    {audit audit' : AppendAuditEventArgs} {entry entry' : AppendLedgerEntryArgs}
    {row row' : LedgerEntryRow} (hids : (s'.db.auditEvents.map AuditEventRow.id).Nodup)
    (h : WritesEntry pg s.db audit entry row)
    (hrun : StoreState.Run pg (s.step pg (.appendAuditEventWithLedger audit entry)) s')
    (h' : WritesEntry pg s'.db audit' entry' row')
    (hsource : row'.sourceEventId = row.sourceEventId) :
    SameSource row row' ∧ ∃ event event', audit.row? = some event ∧ audit'.row? = some event' ∧
      SameAuditEvent event event' := by
  obtain ⟨event, db₁, result, hevent, happended, -, hcall, hentries⟩ := h.appended
  obtain ⟨event', db₂, result', hevent', happended', hfresh', -, -⟩ := h'.appended
  have hid : event'.id = event.id := by
    rw [happended'.sourceEventId, happended.sourceEventId] at hsource
    exact Option.some.inj hsource
  -- the first call leaves an equal event stored, and it stays stored
  obtain ⟨recorded, happend, -, hframe⟩ := happended.exists_db
  obtain ⟨-, -, stored, hstored, hstoredId, hsame⟩ := appendAuditEvent_stored happend
  have hstep : s.step pg (.appendAuditEventWithLedger audit entry) = ⟨db₁, s.writes ++ []⟩ := by
    rw [StoreState.step, hcall]
    rfl
  rw [hstep] at hrun
  have hgrown := hrun.appendOnly
  have hstored' : stored ∈ s'.db.auditEvents := by
    refine (Logs.isPrefix hgrown.auditEvents).subset ?_
    rw [hframe]
    exact hstored
  -- the second call finds it
  obtain ⟨recorded', happend', -, -⟩ := happended'.exists_db
  have hfind : (s'.db.auditEvents.find? fun e => e.id == event'.id) = some stored := by
    rw [hid, ← hstoredId]
    exact Keyed.find?_eq hids hstored'
  have hsame' : SameAuditEvent event event' :=
    hsame.symm.trans ((appendAuditEvent_eq_ok_of_stored hfind).mp happend').2.2.1
  have hcolumns := hsame'.columns
  have hrowMem : row ∈ s'.db.ledger.entries := by
    refine (Logs.isPrefix hgrown.entries).subset ?_
    rw [hentries]
    exact List.mem_append_right _ (List.mem_singleton_self _)
  refine ⟨⟨(hfresh' row hrowMem).symm, ?_, ?_, ?_, ?_, ?_⟩, event, event', hevent, hevent', hsame'⟩
  · rw [happended'.requestId, happended.requestId]
    exact (congrArg AuditEventRow.requestId hcolumns).symm
  · rw [happended'.targetSecretId, happended.targetSecretId]
    exact (congrArg AuditEventRow.targetSecretId hcolumns).symm
  · rw [happended'.actorUserId, happended.actorUserId]
    exact (congrArg AuditEventRow.actorUserId hcolumns).symm
  · rw [happended'.actorDeviceId, happended.actorDeviceId]
    exact (congrArg AuditEventRow.actorDeviceId hcolumns).symm
  · rw [happended'.result_eq, happended.result_eq]
    exact (congrArg AuditEventRow.result hcolumns).symm

/-! ### What every run guarantees -/

/-- **Appending an event is idempotent, and events stay.** In every state that transactions with any
arguments can reach: no identifier has two events; what is stored stays where it is in every later
state; a successful append, repeated in any later state, succeeds and changes nothing; a call that
reuses the identifier of a stored event with a different value raises and changes nothing; and two
entries of the ledger that were written with an event of one identifier were written with the same
event, under different entry identifiers. -/
theorem auditAppend_sound (pg : PostgresSession) (users : List Uuid)
    (signingPublicKeys : List LedgerSigningPublicKeyRow) (s : StoreState)
    (hrun : StoreState.Run pg (.init users signingPublicKeys) s) :
    (s.db.auditEvents.map AuditEventRow.id).Nodup ∧
    (∀ s', StoreState.Run pg s s' → s.db.auditEvents <+: s'.db.auditEvents) ∧
    (∀ args db' id s', rpcAppendAuditEvent pg s.db args = .ok (db', id) →
      StoreState.Run pg (s.step pg (.appendAuditEvent args)) s' →
      rpcAppendAuditEvent pg s'.db args = .ok (s'.db, id) ∧
        s'.step pg (.appendAuditEvent args) = s') ∧
    (∀ args, ∀ stored ∈ s.db.auditEvents, args.auditEventId = some stored.id →
      (∀ row, args.row? = some row → ¬SameAuditEvent stored row) →
      (∃ error, rpcAppendAuditEvent pg s.db args = .error error) ∧
        s.step pg (.appendAuditEvent args) = s ∧
      ∀ entry, (∃ error, rpcAppendAuditEventWithLedger pg s.db args entry = .error error) ∧
        s.step pg (.appendAuditEventWithLedger args entry) = s) ∧
    (∀ audit entry row audit' entry' row' s', WritesEntry pg s.db audit entry row →
      StoreState.Run pg (s.step pg (.appendAuditEventWithLedger audit entry)) s' →
      WritesEntry pg s'.db audit' entry' row' → row'.sourceEventId = row.sourceEventId →
      SameSource row row' ∧ ∃ event event', audit.row? = some event ∧
        audit'.row? = some event' ∧ SameAuditEvent event event') := by
  have hnodup : ∀ t, StoreState.Run pg (.init users signingPublicKeys) t →
      (t.db.auditEvents.map AuditEventRow.id).Nodup := fun t ht =>
    Logs.nodup_keys ht.appendOnly.auditEvents List.nodup_nil
  have hreaches : ∀ call t, StoreState.Run pg (s.step pg call) t →
      StoreState.Run pg (.init users signingPublicKeys) t := fun call t ht =>
    (hrun.tail ⟨call, rfl⟩).trans ht
  refine ⟨hnodup s hrun, fun s' hrun' => Logs.isPrefix hrun'.appendOnly.auditEvents,
    fun args db' id s' hcall hrun' => ?_, fun args stored hstored hid hdiffers => ?_,
    fun audit entry row audit' entry' row' s' h hrun' h' hsource =>
      h.sameSource (hnodup s' (hreaches _ _ hrun')) hrun' h' hsource⟩
  -- the event stays in the table, so the same call finds it in every later state
  · have hstep : (s.step pg (.appendAuditEvent args)).db = db' := by
      rw [StoreState.step, StoreCall.run, hcall]
      rfl
    have hgrown : db'.auditEvents <+: s'.db.auditEvents := by
      rw [← hstep]
      exact Logs.isPrefix hrun'.appendOnly.auditEvents
    have hagain := rpcAppendAuditEvent_again hcall hgrown (hnodup s' (hreaches _ _ hrun'))
    refine ⟨hagain, ?_⟩
    rw [StoreState.step, StoreCall.run, hagain]
    simp [StoreCall.write?]
  -- no answer is possible, so both procedures raise
  · obtain ⟨error, hraised⟩ := Result.exists_error fun result =>
      rpcAppendAuditEvent_conflict (hnodup s hrun) hstored hid hdiffers result
    refine ⟨⟨error, hraised⟩, ?_, fun entry => ?_⟩
    · rw [StoreState.step, StoreCall.run, hraised]
      rfl
    · obtain ⟨error', hraised'⟩ := Result.exists_error fun result =>
        rpcAppendAuditEventWithLedger_conflict (hnodup s hrun) hstored hid hdiffers result
      refine ⟨⟨error', hraised'⟩, ?_⟩
      rw [StoreState.step, StoreCall.run, hraised']
      rfl

/-- The arguments of a failed decryption's event. -/
def sampleAudit : AppendAuditEventArgs where
  auditEventId := some (sampleUuid 20)
  requestId := some (sampleUuid 9)
  actorUserId := none
  actorDeviceId := none
  action := some "decrypt"
  targetSecretId := none
  result := some "failure"
  keyVersion := none
  metadataJson := some (.object [("source_event_at", .string "2026-01-02T03:04:05Z")])

/-- The arguments of an entry about the event. -/
def sampleAuditEntry (id : Uuid) (sequenceNo : ℤ) (previous hash : UInt8) :
    AppendLedgerEntryArgs where
  ledgerEntryId := some id
  sequenceNo := some sequenceNo
  entryType := some "secret_decrypted"
  sourceEventAt := some "2026-01-02T03:04:05Z"
  requestId := none
  sourceEventId := some (sampleUuid 20)
  targetSecretId := none
  targetSecretVersionId := none
  actorUserId := none
  actorDeviceId := none
  result := none
  errorCode := none
  payload := some (.object [])
  canonicalizationVersion := some 1
  previousEntryHash := some (List.replicate 32 previous)
  entryHash := some (List.replicate 32 hash)
  hashAlgorithm := some "sha-256"
  signature := some (List.replicate 64 7)
  signatureAlgorithm := some "ed25519"
  signatureKeyVersion := some 1

/-- The state after the event was appended. -/
def sampleAudited : StoreState :=
  (StoreState.init [] []).step sampleSession (.appendAuditEvent sampleAudit)

/-- An instance: the event is stored, and appending it once more changes nothing. -/
theorem auditAppend_sound_sampleAudited :
    sampleAudited.db.auditEvents.length = 1 ∧
      sampleAudited.step sampleSession (.appendAuditEvent sampleAudit) = sampleAudited := by
  have hlength : sampleAudited.db.auditEvents.length = 1 := by decide +kernel
  obtain ⟨-, -, hagain, -⟩ :=
    auditAppend_sound sampleSession [] [] (StoreState.init [] []) .refl
  cases hcall : rpcAppendAuditEvent sampleSession (StoreState.init [] []).db sampleAudit with
  | error =>
    rw [sampleAudited, StoreState.step, StoreCall.run, hcall] at hlength
    cases hlength
  | ok result =>
    exact ⟨hlength, (hagain sampleAudit result.1 result.2 sampleAudited hcall .refl).2⟩

/-- The state after the event was appended with an entry, and once more with another entry. -/
def sampleTwice : StoreState :=
  ((StoreState.init [] []).step sampleSession
    (.appendAuditEventWithLedger sampleAudit (sampleAuditEntry (sampleUuid 21) 1 0 1))).step
    sampleSession (.appendAuditEventWithLedger sampleAudit (sampleAuditEntry (sampleUuid 22) 2 1 2))

/-- Both calls commit, so the ledger has two entries with one source. -/
theorem two_entries_of_one_event :
    StoreState.Run sampleSession (.init [] []) sampleTwice ∧
      sampleTwice.db.auditEvents.map AuditEventRow.id = [sampleUuid 20] ∧
      sampleTwice.db.ledger.entries.map (fun row => (row.id, row.sourceEventId)) =
        [(sampleUuid 21, some (sampleUuid 20)), (sampleUuid 22, some (sampleUuid 20))] :=
  ⟨.tail (.single ⟨_, rfl⟩) ⟨_, rfl⟩, by decide +kernel, by decide +kernel⟩

end Mipsorcu
