import Mipsorcu.Database.KeyRotation
import Mipsorcu.Database.SecretAlias
import Mipsorcu.Database.WriteEntries

/-!
# Entries and their events

A ledger entry about a version that was written or purged names an event of the audit table as its
source. `Evidenced` says that this event is there, and only once. Every procedure that appends such
entries inserts their events first and keeps it, so an entry under a new event is a new entry: the
append never replays a stored one (`inserted_of_append`), and versions that are recorded one after
the other add their events and their entries, in that order (`Records.appended`).
-/

namespace Mipsorcu

namespace Sql

/-- The types of the entries about a version that was written or purged. -/
def versionEntryTypes : List String :=
  ["secret_created", "secret_version_created", "secret_version_purged"]

/-- Every entry about a version has the event it names, and no two events share an identifier. -/
structure Evidenced (events : List AuditEventRow) (ledger : LedgerDb) : Prop where
  ids_nodup : (events.map AuditEventRow.id).Nodup
  has_event : ∀ row ∈ ledger.entries, row.entryType ∈ versionEntryTypes →
    ∀ id, row.sourceEventId = some id → ∃ e ∈ events, e.id = id

namespace Evidenced

variable {events : List AuditEventRow} {ledger ledger' : LedgerDb} {event : AuditEventRow}

theorem empty (signingPublicKeys : List LedgerSigningPublicKeyRow) :
    Evidenced [] (emptyLedger signingPublicKeys) :=
  ⟨List.nodup_nil, by simp [emptyLedger]⟩

theorem add_event (h : Evidenced events ledger) (hfresh : ∀ e ∈ events, e.id ≠ event.id) :
    Evidenced (events ++ [event]) ledger := by
  refine ⟨Keyed.nodup_concat h.ids_nodup hfresh, fun row hrow htype id hid => ?_⟩
  obtain ⟨e, he, heid⟩ := h.has_event row hrow htype id hid
  exact ⟨e, List.mem_append_left _ he, heid⟩

theorem append (h : Evidenced events ledger) {row : LedgerEntryRow} {result : AppendLedgerEntryRow}
    (happend : Replayed ledger row ledger' result ∨ Inserted ledger row ledger' result)
    (hrow : row.entryType ∈ versionEntryTypes → ∀ id, row.sourceEventId = some id →
      ∃ e ∈ events, e.id = id) : Evidenced events ledger' := by
  refine ⟨h.ids_nodup, fun row' hrow' => ?_⟩
  rcases happend with hreplayed | hinserted
  · exact h.has_event row' (hreplayed.db_eq ▸ hrow')
  · rw [hinserted.db_eq] at hrow'
    rcases List.mem_append.mp hrow' with hold | hnew
    · exact h.has_event row' hold
    · rw [List.mem_singleton.mp hnew]
      exact hrow

end Evidenced

section Json

variable {pg : PostgresSession} {events : List AuditEventRow} {ledger ledger' : LedgerDb}
  {entry : Json} {id : Uuid}

/-- The event an entry names, if it names one. -/
theorem ReadsAs.sourceEventId_eq {row : LedgerEntryRow} {id' : Uuid} (h : ReadsAs pg entry row)
    (hcast : castNullable pg.castUuid (invalidTextRepresentation "uuid")
      (memberText entry "p_source_event_id") = .ok (some id))
    (hrow : row.sourceEventId = some id') : id' = id := by
  have hcolumn := h.columns.sourceEventId
  rw [hrow] at hcolumn
  rcases castNullable_eq_ok.mp hcast with ⟨-, hnone⟩ | ⟨t, u, ht, hu, hid⟩
  · cases hnone
  · rcases castNullable_eq_ok.mp hcolumn with ⟨-, hnone⟩ | ⟨t', u', ht', hu', hid'⟩
    · cases hnone
    · rw [ht] at ht'
      obtain rfl : t = t' := (Option.filter_eq_some_iff.mp ht').1 |> Option.some.inj
      rw [hu, Option.some.injEq] at hu'
      rw [Option.some.inj hid, Option.some.inj hid', hu']

/-- An entry whose event is there. -/
theorem Evidenced.append_entry {result : AppendLedgerEntryRow} (h : Evidenced events ledger)
    (happend : rpcAppendLedgerEntryFromJsonb pg ledger entry = .ok (ledger', result))
    (hcast : castNullable pg.castUuid (invalidTextRepresentation "uuid")
      (memberText entry "p_source_event_id") = .ok (some id))
    (hevent : ∃ e ∈ events, e.id = id) : Evidenced events ledger' := by
  obtain ⟨row, hreads, hcases⟩ := rpcAppendLedgerEntryFromJsonb_eq_ok happend
  exact h.append hcases fun _ id' hid' => (hreads.sourceEventId_eq hcast hid') ▸ hevent

end Json

/-! ### The procedures keep it -/

section Procedures

variable {pg : PostgresSession} {db db' : SecretDb}

theorem Evidenced.versionRecorded {random : Uuid} {w : SecretWrite} {action : String}
    {v : SecretVersionRow} {entry : Option Json} (h : Evidenced db.auditEvents db.ledger)
    (hrecord : VersionRecorded pg random db w action v entry db') :
    Evidenced db'.auditEvents db'.ledger := by
  obtain ⟨⟨id, ledger, hid, hfresh, happended, rfl⟩, -⟩ := hrecord
  have hevents : Evidenced (db.auditEvents ++ [versionEvent id w action v entry]) db.ledger :=
    h.add_event hfresh
  cases entry with
  | none =>
    obtain rfl : ledger = db.ledger := happended
    exact hevents
  | some e =>
    obtain ⟨result, happend⟩ := happended
    have hmem : ∃ e' ∈ db.auditEvents ++ [versionEvent id w action v (some e)], e'.id = id :=
      ⟨_, List.mem_append_right _ (List.mem_singleton_self _), rfl⟩
    obtain ⟨row, hreads, hcases⟩ := rpcAppendLedgerEntryFromJsonb_eq_ok happend
    refine hevents.append hcases fun _ id' hid' => ?_
    -- an entry that names an event names the one that was inserted
    simp only [eventId, Option.bind_some, Result.bind_eq_ok, Result.pure_eq_ok] at hid
    obtain ⟨value, hcast, rfl⟩ := hid
    cases value with
    | none =>
      have hcolumn := hreads.columns.sourceEventId
      rcases castNullable_eq_ok.mp hcast with ⟨hnone, -⟩ | ⟨t, u, -, -, hsome⟩
      · rw [hnone, hid'] at hcolumn
        cases hcolumn
      · cases hsome
    | some u => exact (hreads.sourceEventId_eq hcast hid') ▸ hmem

theorem Evidenced.purgesRecorded {random : ℕ → Uuid} {w : SecretWrite}
    {rows : List SecretVersionRow} (h : Evidenced db.auditEvents db.ledger)
    (hpurges : PurgesRecorded pg random w db rows db') : Evidenced db'.auditEvents db'.ledger := by
  induction hpurges with
  | nil => exact h
  | cons _ hrecord _ ih => exact ih (h.versionRecorded hrecord)

theorem Evidenced.written {random : ℕ → Uuid} {w : SecretWrite} {entry : Option Json}
    {purged : List SecretVersionRow} (h : Evidenced db.auditEvents db.ledger)
    (hwritten : Written pg random db w entry purged db') :
    Evidenced db'.auditEvents db'.ledger := by
  obtain ⟨locked, recorded, hlocked, -, hrecorded, -, hpurges⟩ := hwritten.exists_states
  rw [← hlocked.records_frame.1, ← hlocked.records_frame.2] at h
  have hwrite : Evidenced recorded.auditEvents recorded.ledger := by
    refine Evidenced.versionRecorded ?_ hrecorded
    exact h
  refine Evidenced.purgesRecorded ?_ hpurges
  exact hwrite

theorem Evidenced.rotationRecorded {action entryType : String} {r : KeyRotation}
    {payload : List (String × Json)} (h : Evidenced db.auditEvents db.ledger)
    (hchecked : checkRotationEntry pg entryType r = .ok ())
    (hrecorded : RotationRecorded pg db action r payload db') :
    Evidenced db'.auditEvents db'.ledger := by
  obtain ⟨-, hfresh, ⟨ledger, happended, rfl⟩, -⟩ := hrecorded
  have hevents : Evidenced (db.auditEvents ++ [rotationEvent action r payload]) db.ledger :=
    h.add_event hfresh
  cases hentry : r.ledgerEntry with
  | none =>
    rw [hentry] at happended
    obtain rfl : ledger = db.ledger := happended
    exact hevents
  | some entry =>
    rw [hentry] at happended
    obtain ⟨result, happend⟩ := happended
    exact hevents.append_entry happend (checkRotationEntry_eq_ok hchecked hentry)
      ⟨_, List.mem_append_right _ (List.mem_singleton_self _), rfl⟩

theorem Evidenced.aliasEffect {random : Uuid} (h : Evidenced db.auditEvents db.ledger)
    (heffect : AliasEffect pg db random db') : Evidenced db'.auditEvents db'.ledger := by
  obtain ⟨⟨aliases, event, hid, hfresh, -, -, rfl⟩, -⟩ := heffect
  exact h.add_event fun e he => hid ▸ hfresh e he

theorem Evidenced.appendAuditEvent {row : AuditEventRow} {id : Uuid}
    (h : Evidenced db.auditEvents db.ledger)
    (happend : appendAuditEvent pg db row = .ok (db', id)) :
    Evidenced db'.auditEvents db'.ledger ∧ ∃ e ∈ db'.auditEvents, e.id = row.id := by
  obtain ⟨-, ⟨rfl, hstored⟩ | ⟨-, hfresh, rfl⟩⟩ := appendAuditEvent_eq_ok happend
  · exact ⟨h, hstored⟩
  · exact ⟨h.add_event hfresh, row, List.mem_append_right _ (List.mem_singleton_self _), rfl⟩

end Procedures

/-! ### New entries -/

section Records

variable {pg : PostgresSession} {w : SecretWrite} {events events' : List AuditEventRow}
  {ledger ledger' : LedgerDb}

/-- The entry of a version, under an event that is new, is new itself. -/
theorem inserted_of_append {entry : Json} {id : Uuid} {result : AppendLedgerEntryRow}
    (hevidenced : Evidenced events ledger) (hfresh : ∀ e ∈ events, e.id ≠ id)
    (hcast : (memberText entry "p_source_event_id").bind pg.castUuid = some id)
    (hprinted : ∃ id : Uuid, memberText entry "p_source_event_id" = some id.hyphenated)
    (htype : hasEntryType versionEntryTypes entry = true)
    (happend : rpcAppendLedgerEntryFromJsonb pg ledger entry = .ok (ledger', result)) :
    ∃ row, ReadsAs pg entry row ∧ row.sourceEventId = some id ∧
      Inserted ledger row ledger' result := by
  obtain ⟨row, hreads, hcases⟩ := rpcAppendLedgerEntryFromJsonb_eq_ok happend
  obtain ⟨id', hid⟩ := hprinted
  obtain rfl : id' = id := by
    rw [hid, Option.bind_some, pg.castUuid_hyphenated] at hcast
    exact Option.some.inj hcast
  have hsource : row.sourceEventId = some id' := by
    have hcolumn := hreads.columns.sourceEventId
    rw [hid, nullifEmpty_some (hyphenated_ne_empty id'), castNullable_hyphenated] at hcolumn
    exact (Except.ok.inj hcolumn).symm
  refine ⟨row, hreads, hsource, hcases.resolve_left fun hreplayed => ?_⟩
  obtain ⟨e, he, heid⟩ := hevidenced.has_event row hreplayed.mem (hreads.hasEntryType.mp htype) id'
    hsource
  exact hfresh e he heid

/-- A record was made: the row reads its entry, and the event is that of its version, under the
identifier the row names. -/
structure RecordMade (pg : PostgresSession) (w : SecretWrite) (r : VersionRecord)
    (row : LedgerEntryRow) (event : AuditEventRow) : Prop where
  reads : ReadsAs pg r.entry row
  source : row.sourceEventId = some event.id
  event_eq : event = versionEvent event.id w r.action r.version (some r.entry)

/-- **Versions that are recorded one after the other add their events and their entries.** -/
theorem Records.appended {records : List VersionRecord}
    (h : Records pg w events ledger records events' ledger') (hevidenced : Evidenced events ledger)
    (hids : ∀ r ∈ records, ∃ id : Uuid, memberText r.entry "p_source_event_id" = some id.hyphenated)
    (htypes : ∀ r ∈ records, hasEntryType versionEntryTypes r.entry = true) :
    ∃ made : List (VersionRecord × LedgerEntryRow × AuditEventRow),
      made.map Prod.fst = records ∧
      ledger'.entries = ledger.entries ++ made.map (fun m => m.2.1) ∧
      events' = events ++ made.map (fun m => m.2.2) ∧
      ∀ m ∈ made, RecordMade pg w m.1 m.2.1 m.2.2 := by
  induction h with
  | nil => exact ⟨[], rfl, (List.append_nil _).symm, (List.append_nil _).symm, by simp⟩
  | @cons events events' ledger ledger₁ ledger' r rest id result hid hfresh happend hrest ih =>
    obtain ⟨hprinted, hids⟩ := List.forall_mem_cons.mp hids
    obtain ⟨htype, htypes⟩ := List.forall_mem_cons.mp htypes
    obtain ⟨row, hreads, hsource, hinserted⟩ :=
      inserted_of_append hevidenced hfresh hid hprinted htype happend
    set event := versionEvent id w r.action r.version (some r.entry) with hevent
    -- the entry's event is the one inserted with it
    have hnext : Evidenced (events ++ [event]) ledger₁ :=
      (hevidenced.add_event hfresh).append (.inr hinserted) fun _ id hid =>
        ⟨event, List.mem_append_right _ (List.mem_singleton_self _),
          Option.some.inj (hsource.symm.trans hid)⟩
    obtain ⟨made, hrecords, hentries, hevents, hmade⟩ := ih hnext hids htypes
    refine ⟨(r, row, event) :: made, by rw [List.map_cons, hrecords], ?_, ?_,
      List.forall_mem_cons.mpr ⟨⟨hreads, hsource, rfl⟩, hmade⟩⟩
    · rw [hentries, hinserted.db_eq, List.append_assoc]
      rfl
    · rw [hevents, List.append_assoc]
      rfl

end Records

end Sql

end Mipsorcu
