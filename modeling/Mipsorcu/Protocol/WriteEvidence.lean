import Mipsorcu.Database.Evidence
import Mipsorcu.Server.WriteDrafts
import Mipsorcu.Protocol.ReadBack

/-!
# The evidence of a write

What a committed write leaves in the audit table and in the ledger. The procedure itself accepts
entries that leave out what it would compare (`entriesDescribe_iff_complete`). The server leaves
nothing out: a write it makes has one event and one entry for the new version, and an entry for each
version that was purged (`serverWrite_evidenced`).
-/

namespace Mipsorcu

open Sql

/-! ### Any call -/

/-- **What the procedure accepts.** The ledger entries of a call that committed are, each of them,
rows of the ledger that describe the write and the versions it deleted, exactly if every element of
the argument has one of the types that are looked for and no member that is compared is missing or
null. -/
theorem entriesDescribe_iff_complete (pg : PostgresSession) (random : ℕ → Uuid) (db db' : SecretDb)
    (args : WriteSecretVersionArgs) (result : WriteSecretVersionRow) (w : SecretWrite)
    (items : List Json) (hkeys : db.PrimaryKeys) (hw : args.write? = some w)
    (hentries : w.ledgerEntries = some (.array items))
    (hcommit : rpcWriteSecretVersion pg random db args = .ok (db', result)) :
    ∃ purged : List SecretVersionRow, result.purgedVersionIds = purged.map SecretVersionRow.id ∧
      (∀ v, v ∈ purged ↔ (v ∈ db.secretVersions ∨ v = w.versionRow) ∧ v ∉ db'.secretVersions) ∧
      (EntriesDescribe pg db'.ledger w purged items ↔ entriesAreComplete w items = true) := by
  rw [rpcWriteSecretVersion, hw, Result.ofOption_some, Result.ok_bind] at hcommit
  obtain ⟨entry, purged, hwritten, rfl⟩ := writeSecretVersion_eq_ok hcommit
  exact ⟨purged, rfl, fun v => hwritten.mem_purged, hwritten.entriesDescribe_iff hkeys hentries⟩

/-- The fifth version of the sample secret, as it is prepared for a rotation. -/
def sampleRotation : PreparedSecretVersion :=
  let aad : AadV1 := { sampleAad sampleMicros with version := ⟨⟨5, by decide, by decide⟩⟩ }
  { samplePrepared sampleMicros 5 (.ofNat _ 0x44afebcdb0c6be20278fd565759f3c4ad07a) with
    writeAction := .encryptRotate
    secretVersionId := ⟨sampleUuid 35, version_sampleUuid 35⟩
    version := aad.version
    aadContext := aad.toStoredContext }

/-- The ledger entry of the rotation, as the first one, with the SHA-256 of its canonical form and
its Ed25519 signature under `sampleKey`. -/
def sampleRotationEntry : SignedLedgerEntry :=
  { sampleWriteEntry with
    ledgerEntryId := sampleEntryId 60
    entryType := .secretVersionCreated
    sourceEventId := some ⟨sampleUuid 60⟩
    targetSecretVersionId := some ⟨sampleUuid 35⟩
    payload := {
      entryType := .secretVersionCreated
      object := sampleRotation.writePayload
      sorted := sampleRotation.sorted_writePayload
      valid := by decide +kernel }
    valid := rfl
    entryHash := .ofNat _ 0x6ab0268a71d54ada5c7f040b54e398a1aaca8551399457154690f0f0339e6fcb
    signature := .ofHalves _
      0xc174ebd9ba116502f2db78b56ad4f04f96e499ecf77d3d19e7f519e251fa21f2
      0xee48623900a2bfe2636ed2729502b6529a31f666594a3bd559531fbb093bbd0a }

/-- The entry of the first version, which the rotation purges. -/
def samplePurgeEntry : SignedLedgerEntry :=
  { sampleRotationEntry with
    ledgerEntryId := sampleEntryId 61
    sequenceNo := sampleNext.sequenceNo
    entryType := .secretVersionPurged
    sourceEventId := some ⟨sampleUuid 61⟩
    targetSecretVersionId := some ⟨sampleUuid 31⟩
    payload := {
      entryType := .secretVersionPurged
      object := [("key_version", .nat 1), ("retention_limit", .nat 4), ("version", .nat 1)]
      sorted := by unfold SortedMap.Sorted; decide +kernel
      valid := by decide +kernel }
    valid := rfl
    previousEntryHash := sampleRotationEntry.entryHash
    entryHash := .ofNat _ 0x0bb227b0ff5b3c59dfae5ef17da9440019f877aa4d0a9d438a2c9751fda8d83f
    signature := .ofHalves _
      0xe7da911b0ead1a12961aa60432e2db58661ec06e66f9d6c72cd55ddf85bdb19a
      0x386d1ab19935f06585ec8bcaadcdbb4f7b12e511b4ebdb0263d8c0981e93ea08 }

/-- The call of the rotation. -/
def sampleRotationWrite : SecretWrite :=
  sampleRotation.write ⟨sampleUuid 9⟩ 76552225445123456 [sampleRotationEntry, samplePurgeEntry]

/-- The entries of a call as the elements of its argument. -/
def sampleItems (entries : List SignedLedgerEntry) : List Json :=
  entries.map fun e => (LedgerEntryRpcParams.fromSignedEntry e).toJson

/-- After four writes of the sample secret the rotation gets through and commits, and the first
version is purged. -/
theorem rpcWrite_sampleRotation : ∃ call db' result,
    (WriteSecretVersionParams.ofPrepared ⟨sampleUuid 9⟩ sampleRotation
      [sampleRotationEntry, samplePurgeEntry]).args = some call ∧
    call.write? = some sampleRotationWrite ∧
    rpcWriteSecretVersion sampleSession (fun _ => sampleUuid 5) (sampleStore 4).db call =
      .ok (db', result) ∧ result.purgedVersionIds = [sampleUuid 31] := by
  have hmicros : timestamptz sampleRotation.createdAt.asRfc3339Utc = some 76552225445123456 := by
    decide +kernel
  obtain ⟨call, hcall, hwrite⟩ := @WriteSecretVersionParams.exists_args ⟨sampleUuid 9⟩
    sampleRotation [sampleRotationEntry, samplePurgeEntry] 76552225445123456
    (show (5 : ℕ) ≤ 2147483647 by decide) (show (1 : ℕ) ≤ 2147483647 by decide) hmicros
  have hcommit : (writeSecretVersion sampleSession (fun _ => sampleUuid 5) (sampleStore 4).db
      sampleRotationWrite).toOption.map (fun r => r.2.purgedVersionIds) = some [sampleUuid 31] := by
    decide +kernel
  obtain ⟨⟨db', result⟩, hresult, hpurged⟩ := Option.map_eq_some_iff.mp hcommit
  refine ⟨call, db', result, hcall, hwrite, ?_, hpurged⟩
  rw [rpcWriteSecretVersion, hwrite, Result.ofOption_some, Result.ok_bind]
  exact Result.toOption_eq_some.mp hresult

/-- An instance: the entries of the rotation describe it and the version it deleted. -/
theorem entriesDescribe_sampleRotation : ∃ call db' result purged,
    rpcWriteSecretVersion sampleSession (fun _ => sampleUuid 5) (sampleStore 4).db call =
      .ok (db', result) ∧
    purged.map SecretVersionRow.id = [sampleUuid 31] ∧
    EntriesDescribe sampleSession db'.ledger sampleRotationWrite purged
      (sampleItems [sampleRotationEntry, samplePurgeEntry]) := by
  obtain ⟨call, db', result, -, hwrite, hcommit, hids⟩ := rpcWrite_sampleRotation
  have hkeys : (sampleStore 4).db.PrimaryKeys :=
    (storeInv_of_run (StoreInv.empty _ _) (run_sampleStore 4)).toPrimaryKeys
  obtain ⟨purged, hpurged, -, hdescribe⟩ := entriesDescribe_iff_complete sampleSession _ _ _ call
    result sampleRotationWrite (sampleItems [sampleRotationEntry, samplePurgeEntry]) hkeys hwrite
    rfl hcommit
  exact ⟨call, db', result, purged, hcommit, hpurged.symm.trans hids,
    hdescribe.mpr (by decide +kernel)⟩

/-- The entry of the write without its actor, with the hash and the signature of its canonical
form. -/
def sampleAnonymousEntry : SignedLedgerEntry :=
  { sampleWriteEntry with
    actorUserId := none
    entryHash := .ofNat _ 0xf4281642342aff809c8666bb5c528464f1a1fbe24ea3a96d3a18babf2b13367c
    signature := .ofHalves _
      0x58b9bd744c4cb40fc5efbdb5c53e9352f0439493e1f1c19e9e11634536896141
      0x100c1a3b5883400e7481368bc2da41054bfc90f15fa971a7589f4fdf95b2980f }

/-- The sample call with the entry without an actor. -/
def sampleAnonymousWrite : SecretWrite :=
  sampleWrite sampleMicros 5 sampleMicrosCiphertext 76552225445123456 sampleAnonymousEntry

theorem sampleEntry_sampleAnonymousEntry : SampleEntry sampleAnonymousEntry where
  accepts := {
    keyVersion_le := by decide
    values := by decide +kernel
    id_uuidV4 := by decide
    chainState := ⟨.genesis, rfl, rfl, rfl⟩
    id_fresh := by simp [sampleEmptyStore, emptyStore, emptyLedger]
    sequenceNo_fresh := by simp [sampleEmptyStore, emptyStore, emptyLedger]
    entryHash_fresh := by simp [sampleEmptyStore, emptyStore, emptyLedger] }
  sourceEventId := rfl
  sourceEventAt := rfl
  errorCode := rfl
  entryType := rfl

/-- A call whose entry has no actor commits; the ledger then has no row that names the actor of the
write. -/
theorem not_entriesDescribe_sampleAnonymousWrite :
    (∃ call result, call.write? = some sampleAnonymousWrite ∧
      rpcWriteSecretVersion sampleSession (fun _ => sampleUuid 5) sampleEmptyStore call =
        .ok (sampleStored sampleAnonymousWrite sampleAnonymousEntry, result)) ∧
    sampleAnonymousWrite.ledgerEntries = some (.array (sampleItems [sampleAnonymousEntry])) ∧
    ∀ purged, ¬EntriesDescribe sampleSession
      (sampleStored sampleAnonymousWrite sampleAnonymousEntry).ledger sampleAnonymousWrite purged
      (sampleItems [sampleAnonymousEntry]) := by
  obtain ⟨call, result, -, hwrite, hcommit⟩ := rpcWrite_sample sampleEntry_sampleAnonymousEntry
    (by decide +kernel) (show _ = sampleAnonymousWrite from rfl) (fun _ => sampleUuid 5)
    (by decide +kernel) (by decide +kernel)
  refine ⟨⟨call, result, hwrite, hcommit⟩, rfl, fun purged hdescribe => ?_⟩
  have hcomplete := hdescribe.areComplete
  revert hcomplete
  decide +kernel

/-! ### The calls of the server -/

/-- The server appends an entry about a version only together with its event; what it appends
directly is about digests, archives and timestamps. -/
def StoreCall.IsServerCall : StoreCall → Prop
  | .appendLedgerEntry args => ∀ entryType, args.entryType = some entryType →
      entryType ∉ versionEntryTypes
  | _ => True

/-- Some sequence of calls of the server leads from `s` to `s'`. -/
def StoreState.ServerRun (pg : PostgresSession) : StoreState → StoreState → Prop :=
  Transition.ReachableWhere (fun s call => some (step pg s call)) fun _ call => call.IsServerCall

/-- A call of the server leaves every entry about a version with its event. -/
theorem Sql.Evidenced.run {pg : PostgresSession} {db db' : SecretDb} {call : StoreCall}
    (h : Evidenced db.auditEvents db.ledger) (hcall : call.IsServerCall)
    (hrun : call.run pg db = .ok db') : Evidenced db'.auditEvents db'.ledger := by
  cases StoreCall.effect hrun with
  | written _ hwritten => exact h.written hwritten
  | rewrapped _ _ hrewrapped =>
    refine Evidenced.rotationRecorded ?_ hrewrapped.entry_checked hrewrapped.recorded
    exact h
  | completed _ _ hchecked hrecorded => exact h.rotationRecorded hchecked hrecorded
  | aliasCreated heffect => exact h.aliasEffect heffect
  | aliasUpdated heffect => exact h.aliasEffect heffect
  | aliasDeleted heffect => exact h.aliasEffect heffect
  | auditAppended _ happend => exact (h.appendAuditEvent happend).1
  | appendedWithLedger _ happended =>
    obtain ⟨recorded, happend, hcases, hframe⟩ := happended.exists_db
    obtain ⟨hevidenced, hstored⟩ := h.appendAuditEvent happend
    rw [hframe]
    refine hevidenced.append hcases fun _ id hid => ?_
    -- the entry names the event that was appended with it
    rw [happended.sourceEventId, Option.some.injEq] at hid
    exact hid ▸ hstored
  | ledgerAppended hrow hcases hframe =>
    rw [hframe]
    refine h.append hcases fun htype => ?_
    have hargs := congrArg AppendLedgerEntryArgs.entryType
      (AppendLedgerEntryArgs.row?_eq_some.mp hrow)
    exact absurd htype (hcall _ hargs)

/-- **In every state the server can reach, every entry about a version has its event.** -/
theorem evidenced_of_serverRun {pg : PostgresSession} {s s' : StoreState}
    (h : Evidenced s.db.auditEvents s.db.ledger) (hrun : StoreState.ServerRun pg s s') :
    Evidenced s'.db.auditEvents s'.db.ledger := by
  refine Transition.invariant (fun s => Evidenced s.db.auditEvents s.db.ledger) ?_ h hrun
  rintro a _ ha ⟨call, hcall, ⟨⟩⟩
  unfold StoreState.step
  cases hstep : call.run pg a.db with
  | error => exact ha
  | ok db' => exact ha.run hcall hstep

/-! ### Predicted and actual purges -/

/-- The drafts name exactly the rows: each draft is the one of a version, and these versions are the
rows, with their numbers and key versions. -/
def PurgesPredicted (requestId : RequestId) (prepared : PreparedSecretVersion)
    (drafts : List LedgerAppendDraft) (rows : List SecretVersionRow) : Prop :=
  ∃ snapshots : List SecretVersionRetentionSnapshot,
    List.Forall₂ (fun purged (d : LedgerAppendDraft) =>
      PurgeDraft requestId prepared purged d.toLedgerAppendDraftParts) snapshots drafts ∧
    (snapshots.map SecretVersionRetentionSnapshot.purgeKey).Perm
      (rows.map SecretVersionRow.purgeKey)

section Predicted

variable {db locked : SecretDb} {writes : List SecretWrite} {w : SecretWrite}

/-- The rows that are deleted are the versions of the secret that retention outranks. -/
theorem StoreInv.rowsToDelete_perm (hinv : StoreInv db writes) (hlocked : Locked db w locked)
    (hfresh : ∀ v ∈ db.secretVersions, v.id ≠ w.secretVersionId) :
    (rowsToDelete db w).Perm (Retention.outranked SecretVersionRow.version 4
      (db.versionsOf w.secretId ++ [w.versionRow])) := by
  have hincreasing := hinv.versions_increasing hlocked
  have hids := Keyed.nodup_concat (a := w.versionRow) hinv.version_ids_nodup hfresh
  rw [rowsToDelete, purgedRows, purgeCandidates, versionsOf_append_versionRow]
  refine Keyed.filter_any_perm hids ?_ ?_
  · intro v hv
    have hmem := List.mem_of_mem_take ((Retention.mem_outranked hincreasing).mp hv)
    exact (List.mem_append.mp hmem).elim
      (fun hold => List.mem_append_left _ (List.mem_filter.mp hold).1) (List.mem_append_right _)
  · have hnodup : (db.versionsOf w.secretId ++ [w.versionRow]).Nodup :=
      hincreasing.imp fun hlt heq => hlt.ne (congrArg _ heq)
    rw [← Retention.outranked, Retention.outranked_eq hincreasing, List.nodup_reverse]
    exact hnodup.sublist (List.take_sublist _ _)

/-- The snapshot is still current: the server reads it for a rotation, and reading it now gives the
same. -/
def SnapshotCurrent (db : SecretDb) (prepared : PreparedSecretVersion)
    (snapshot : Option (List SecretVersionRetentionSnapshot)) : Prop :=
  prepared.writeAction = .encryptRotate →
    fetchSecretVersionRetentionSnapshot db prepared.secretId = .ok (snapshot.getD [])

/-- A secret that is created has no versions. -/
theorem StoreInv.versionsOf_eq_nil (hinv : StoreInv db writes) (hlocked : Locked db w locked)
    (haction : w.action ≠ "encrypt_rotate") : db.versionsOf w.secretId = [] := by
  have hnext := hinv.next_version hlocked
  cases hlocked with
  | found _ _ _ _ _ _ hrotate => exact absurd hrotate haction
  | created _ hversion =>
    have hnil : writesOf writes w.secretId = [] := List.length_eq_zero_iff.mp (by omega)
    have hretained := hinv.retained w.secretId
    rw [hnil] at hretained
    exact List.map_eq_nil_iff.mp hretained

/-- **The server predicts the purges**, if the snapshot is current. -/
theorem StoreInv.predictedPurges_perm (hinv : StoreInv db writes) (hlocked : Locked db w locked)
    (hfresh : ∀ v ∈ db.secretVersions, v.id ≠ w.secretVersionId) {requestId : RequestId}
    {prepared : PreparedSecretVersion} {createdAt : ℕ} {entries : List SignedLedgerEntry}
    (hw : w = prepared.write requestId createdAt entries)
    {snapshot : Option (List SecretVersionRetentionSnapshot)}
    (hcurrent : SnapshotCurrent db prepared snapshot) :
    ((predictedPurges prepared (snapshot.getD [])).map SecretVersionRetentionSnapshot.purgeKey).Perm
      ((rowsToDelete db w).map SecretVersionRow.purgeKey) := by
  have hrows := hinv.rowsToDelete_perm hlocked hfresh
  have hsecretId : w.secretId = prepared.secretId.uuid := by rw [hw]; rfl
  unfold predictedPurges
  split_ifs with haction
  · -- a create: the new version is the only one
    have hnone : db.versionsOf w.secretId = [] := by
      refine hinv.versionsOf_eq_nil hlocked ?_
      rw [hw]
      cases hwrite : prepared.writeAction with
      | encryptCreate => simp [PreparedSecretVersion.write, hwrite, SecretWriteAction.asStr]
      | encryptRotate => exact absurd hwrite haction
    rw [hnone] at hrows
    rw [hrows.eq_nil]
    rfl
  · have hkeys := fetchSecretVersionRetentionSnapshot_eq_ok (hcurrent (not_not.mp haction))
    rw [← hsecretId] at hkeys
    have hnew : w.versionRow.purgeKey =
        ⟨prepared.secretVersionId.uuid, prepared.version.get, prepared.keyVersion.get⟩ := by
      rw [hw]
      rfl
    -- without two versions of one number, the rows to keep do not depend on the order
    have hversions : (((db.versionsOf w.secretId ++ [w.versionRow]).map
        SecretVersionRow.purgeKey).map PurgeKey.version).Nodup := by
      rw [List.map_map]
      exact List.pairwise_map.mpr ((hinv.versions_increasing hlocked).imp ne_of_lt)
    have hsame := hkeys.append_right [w.versionRow.purgeKey]
    rw [← List.map_singleton (f := SecretVersionRow.purgeKey), ← List.map_append] at hsame
    refine (expectedPurges_perm prepared _).trans (.trans (.of_eq ?_) (hrows.map _).symm)
    rw [← hnew, ← List.map_singleton (f := SecretVersionRow.purgeKey),
      ← Retention.outranked_eq_of_perm hsame.symm hversions]
    exact (Retention.map_outranked SecretVersionRow.purgeKey 4 _).symm

end Predicted

/-! ### What a committed write of the server leaves -/

/-- A row of the ledger and the one event it names record a version that was written or purged. -/
structure VersionEvidenced (pg : PostgresSession) (w : SecretWrite) (action entryType : String)
    (events : List AuditEventRow) (v : SecretVersionRow) (row : LedgerEntryRow) : Prop where
  entryType : row.entryType = entryType
  describes : DescribesVersion pg w v row
  event : ∃ event, (events.filter fun e => row.sourceEventId == some e.id) = [event] ∧
    event.action = action ∧ event.result = "success" ∧ event.requestId = row.requestId ∧
    event.actorUserId = row.actorUserId ∧ event.targetSecretId = row.targetSecretId ∧
    event.keyVersion = some v.keyVersion

section Committed

variable {requestId : RequestId} {prepared : PreparedSecretVersion}
  {predicted : List SecretVersionRetentionSnapshot} {e : SignedLedgerEntry}
  {es : List SignedLedgerEntry}

/-- The signed entries of a write and of the purges that are predicted for it. -/
structure WriteSigned (requestId : RequestId) (prepared : PreparedSecretVersion)
    (predicted : List SecretVersionRetentionSnapshot) (e : SignedLedgerEntry)
    (es : List SignedLedgerEntry) : Prop where
  write : VersionDraft requestId prepared prepared.writeAction.entryType
    prepared.secretVersionId.uuid prepared.writePayload e.recorded
  purges : List.Forall₂ (fun purged (e : SignedLedgerEntry) =>
    PurgeDraft requestId prepared purged e.recorded) predicted es

/-- The entry of the write is not the one of a purge. -/
theorem WriteSigned.not_purged (h : WriteSigned requestId prepared predicted e es) :
    hasEntryType ["secret_version_purged"] e.item = false := by
  rw [Bool.eq_false_iff, ne_eq, h.write.versionItem.hasEntryType]
  cases prepared.writeAction <;> decide

theorem WriteSigned.exists_purged (h : WriteSigned requestId prepared predicted e es)
    {e' : SignedLedgerEntry} (he' : e' ∈ es) : ∃ purged ∈ predicted,
      PurgeDraft requestId prepared purged e'.recorded ∧
      hasEntryType ["secret_version_purged"] e'.item = true := by
  obtain ⟨i, hi, rfl⟩ := List.mem_iff_getElem.mp he'
  have hi' : i < predicted.length := h.purges.length_eq ▸ hi
  have hdraft := h.purges.get hi' hi
  exact ⟨_, List.get_mem _ _, hdraft, (VersionDraft.versionItem hdraft).hasEntryType.mpr
    (by decide)⟩

/-- As many entries of purges as are predicted. -/
theorem WriteSigned.countP_purged (h : WriteSigned requestId prepared predicted e es) :
    ((e :: es).map SignedLedgerEntry.item).countP (hasEntryType ["secret_version_purged"]) =
      predicted.length := by
  rw [List.map_cons, List.countP_cons_of_neg (by rw [h.not_purged]; exact Bool.false_ne_true),
    List.countP_eq_length.mpr, List.length_map, h.purges.length_eq]
  intro item hitem
  obtain ⟨e', he', rfl⟩ := List.mem_map.mp hitem
  obtain ⟨_, -, -, htype⟩ := h.exists_purged he'
  exact htype

variable {pg : PostgresSession} {db db' : SecretDb} {w : SecretWrite} {write : Json}
  {records : List VersionRecord}

/-- The entry that was recorded for the write is the one that was signed for it. -/
theorem WriteSigned.write_eq (h : WriteSigned requestId prepared predicted e es)
    (hrecords : WriteRecords pg w ((e :: es).map SignedLedgerEntry.item) db write records db') :
    write = e.item := by
  have hwrite := not_hasEntryType_purged (hasEntryType_of_writeEntryType hrecords.hasType)
  rcases List.mem_cons.mp hrecords.mem with rfl | hpurge
  · rfl
  · obtain ⟨e', he', rfl⟩ := List.mem_map.mp hpurge
    obtain ⟨_, -, -, htype⟩ := h.exists_purged he'
    rw [hwrite] at htype
    cases htype

/-- The entry that was recorded for a purge is one that was signed for it, with the same numbers. -/
theorem WriteSigned.purge_eq (h : WriteSigned requestId prepared predicted e es) {r : VersionRecord}
    (hrecord : PurgeRecord pg w ((e :: es).map SignedLedgerEntry.item) r) :
    ∃ purged ∈ predicted, purged.purgeKey = r.version.purgeKey ∧
      ∃ e' ∈ es, r.entry = e'.item ∧ PurgeDraft requestId prepared purged e'.recorded := by
  obtain ⟨htype, -⟩ := Bool.and_eq_true_iff.mp hrecord.found
  obtain ⟨e', he', hitem⟩ := List.mem_map.mp hrecord.mem
  rcases List.mem_cons.mp he' with rfl | he'
  · rw [← hitem, h.not_purged] at htype
    cases htype
  · obtain ⟨purged, hpurged, hdraft, -⟩ := h.exists_purged he'
    refine ⟨purged, hpurged, ?_, e', he', hitem.symm, hdraft⟩
    exact hdraft.purgeKey_eq (hitem ▸ hrecord.found) (hitem ▸ hrecord.agrees)

/-- **The purges that were predicted are those that happened.** -/
theorem WriteSigned.purgeKeys_perm (h : WriteSigned requestId prepared predicted e es)
    (hrecords : WriteRecords pg w ((e :: es).map SignedLedgerEntry.item) db write records db')
    (hids : (records.map fun r => r.version.id).Nodup)
    (hcount : ((e :: es).map SignedLedgerEntry.item).countP
      (hasEntryType ["secret_version_purged"]) = records.length) :
    (predicted.map SecretVersionRetentionSnapshot.purgeKey).Perm
      (records.map fun r => r.version.purgeKey) := by
  have hnodup : (records.map fun r => r.version.purgeKey).Nodup := by
    refine List.Nodup.of_map PurgeKey.id ?_
    rwa [List.map_map]
  have hsubset : (records.map fun r => r.version.purgeKey) ⊆
      predicted.map SecretVersionRetentionSnapshot.purgeKey := by
    intro key hkey
    obtain ⟨r, hr, rfl⟩ := List.mem_map.mp hkey
    obtain ⟨purged, hpurged, heq, -⟩ := h.purge_eq (hrecords.purges r hr)
    exact List.mem_map.mpr ⟨purged, hpurged, heq⟩
  refine ((List.subperm_of_subset hnodup hsubset).perm_of_length_le ?_).symm
  rw [List.length_map, List.length_map, ← hcount, h.countP_purged]

/-- The entries of versions are of the types of such entries. -/
theorem WriteSigned.versionItem (h : WriteSigned requestId prepared predicted e es)
    (hrecords : WriteRecords pg w ((e :: es).map SignedLedgerEntry.item) db e.item records db') :
    ∀ r ∈ (⟨w.action, w.versionRow, e.item⟩ : VersionRecord) :: records,
      (∃ id : Uuid, memberText r.entry "p_source_event_id" = some id.hyphenated) ∧
        hasEntryType versionEntryTypes r.entry = true ∧ purgeEntryIsComplete r.entry = true := by
  have hwrite := h.write.versionItem
  refine List.forall_mem_cons.mpr ⟨⟨hwrite.sourceEventId, hwrite.hasEntryType.mpr ?_, ?_⟩, ?_⟩
  · cases prepared.writeAction <;> decide
  · exact hwrite.isComplete rfl rfl
  · intro r hr
    obtain ⟨_, -, -, e', -, hitem, hdraft⟩ := h.purge_eq (hrecords.purges r hr)
    have hpurge := VersionDraft.versionItem hdraft
    rw [hitem]
    exact ⟨hpurge.sourceEventId, hpurge.hasEntryType.mpr (by decide), hpurge.isComplete rfl rfl⟩

/-- **The write goes through only from the head that it was signed for.** -/
theorem WriteSigned.chainState_eq (h : WriteSigned requestId prepared predicted e es)
    (hrecords : WriteRecords pg w ((e :: es).map SignedLedgerEntry.item) db write records db')
    (hevidenced : Evidenced db.auditEvents db.ledger) {P : Primitives} {head : LedgerChainHead}
    (hextends : Extends P head e) : db.ledger.chainState = some head.toRow := by
  obtain rfl := h.write_eq hrecords
  obtain ⟨⟨hprinted, htype, -⟩, -⟩ := List.forall_mem_cons.mp (h.versionItem hrecords)
  cases hrecords.records with
  | cons hid hfresh happend hrest =>
    obtain ⟨row, hreads, -, hinserted⟩ :=
      inserted_of_append hevidenced hfresh hid hprinted htype happend
    obtain rfl := hreads.eq_ofSigned h.write.errorCode
    obtain ⟨state, hstate, -, hsequence, hprevious⟩ := hinserted.chainState
    have hlast : state.lastSequenceNo = head.lastSequenceNo := by
      have hsigned : ((e.sequenceNo.val : ℕ) : ℤ) = state.lastSequenceNo + 1 := hsequence
      have hextended := hextends.sequenceNo
      omega
    have hhash : state.lastEntryHash = head.lastEntryHash.bytes :=
      hprevious.symm.trans (congrArg FixedBytes.bytes hextends.previousEntryHash)
    rw [hstate, LedgerChainHead.toRow, ← hlast, ← hhash]

/-- A record that was made is evidence of its version. -/
theorem Sql.RecordMade.versionEvidenced {r : VersionRecord} {row : LedgerEntryRow}
    {event : AuditEventRow} {events : List AuditEventRow} {entryType : String}
    (h : RecordMade pg w r row event) (hmem : event ∈ events)
    (hids : (events.map AuditEventRow.id).Nodup)
    (htype : memberText r.entry "p_entry_type" = some entryType)
    (hdescribes : DescribesVersion pg w r.version row) :
    VersionEvidenced pg w r.action entryType events r.version row where
  entryType := Option.some.inj (h.reads.columns.entryType.symm.trans htype)
  describes := hdescribes
  event := by
    refine ⟨event, Keyed.filter_eq hids hmem ?_ ?_, ?_⟩
    · rw [h.source, beq_self_eq_true]
    · intro e' _ hne
      rw [h.source]
      simpa using Ne.symm hne
    · rw [hdescribes.requestId, hdescribes.actorUserId, hdescribes.targetSecretId, h.event_eq]
      exact ⟨rfl, rfl, rfl, rfl, rfl, rfl⟩

/-- **What the ledger and the audit table have after the write.** -/
theorem WriteSigned.evidenced (h : WriteSigned requestId prepared predicted e es) {createdAt : ℕ}
    (hw : w = prepared.write requestId createdAt (e :: es))
    (hrecords : WriteRecords pg w ((e :: es).map SignedLedgerEntry.item) db write records db')
    (hdevice : w.createdByDeviceId ≠ "") (hevidenced : Evidenced db.auditEvents db.ledger)
    (hids : (db'.auditEvents.map AuditEventRow.id).Nodup) :
    ∃ row rows, db'.ledger.entries = db.ledger.entries ++ row :: rows ∧
      VersionEvidenced pg w w.action (writeEntryType w.action) db'.auditEvents w.versionRow row ∧
      List.Forall₂ (VersionEvidenced pg w "version_purge" "secret_version_purged" db'.auditEvents)
        (records.map VersionRecord.version) rows := by
  obtain rfl := h.write_eq hrecords
  have hitems := h.versionItem hrecords
  obtain ⟨made, hmap, hentries, hevents, hmade⟩ := hrecords.records.appended hevidenced
    (fun r hr => (hitems r hr).1) fun r hr => (hitems r hr).2.1
  have hmem : ∀ m ∈ made, m.2.2 ∈ db'.auditEvents := fun m hm => by
    rw [hevents]
    exact List.mem_append_right _ (List.mem_map_of_mem hm)
  -- the write is the first record, the purges are the others
  cases made with
  | nil => cases hmap
  | cons first made =>
    obtain ⟨hfirst, rfl⟩ := List.cons.inj hmap
    refine ⟨first.2.1, made.map fun (m : VersionRecord × LedgerEntryRow × AuditEventRow) => m.2.1,
      hentries, ?_, ?_⟩
    · have hrecord := hmade first List.mem_cons_self
      obtain ⟨-, -, hcomplete⟩ := hitems _ List.mem_cons_self
      rw [hfirst] at hrecord
      refine hrecord.versionEvidenced (hmem first List.mem_cons_self) hids ?_ ?_
      · rw [h.write.versionItem.entryType, SecretWriteAction.asStr_entryType, hw]
        rfl
      · refine hrecord.reads.columns.describesVersion hrecords.agrees.toEntryAgrees hdevice
          hrecords.agrees.version hrecords.agrees.keyVersion ?_ hcomplete
        rw [h.write.versionItem.targetSecretVersionId, hw]
        rfl
    · rw [List.map_map, List.forall₂_map_left_iff, List.forall₂_map_right_iff, List.forall₂_same]
      intro m hm
      have hmem' := List.mem_cons_of_mem first hm
      have hr := List.mem_map_of_mem (f := Prod.fst) hm
      have hpurge := hrecords.purges m.1 hr
      obtain ⟨-, -, hcomplete⟩ := hitems m.1 (List.mem_cons_of_mem _ hr)
      -- which entry records a purge was decided by its type and its target alone
      obtain ⟨htype, htarget⟩ := Bool.and_eq_true_iff.mp hpurge.found
      have hrecord := hmade m hmem'
      have hentryType := List.mem_singleton.mp (hrecord.reads.hasEntryType.mp htype)
      have hevidence := hrecord.versionEvidenced (hmem m hmem') hids
        (hentryType ▸ hrecord.reads.columns.entryType)
        (hrecord.reads.columns.describesVersion hpurge.agrees.toEntryAgrees hdevice
          hpurge.agrees.version hpurge.agrees.keyVersion (by simpa using htarget) hcomplete)
      rwa [hpurge.action] at hevidence

/-- **All that a committed write of the server shows.** -/
theorem WriteSigned.committed (h : WriteSigned requestId prepared predicted e es) {createdAt : ℕ}
    (hw : w = prepared.write requestId createdAt (e :: es)) (hkeys : db.PrimaryKeys)
    (hevidenced : Evidenced db.auditEvents db.ledger) {P : Primitives} {head : LedgerChainHead}
    (hextends : Extends P head e) {random : ℕ → Uuid} {found : Option Json}
    {purged : List SecretVersionRow} (hwritten : Written pg random db w found purged db') :
    (predicted.map SecretVersionRetentionSnapshot.purgeKey).Perm
        ((rowsToDelete db w).map SecretVersionRow.purgeKey) ∧
      db.ledger.chainState = some head.toRow ∧
      ∃ row rows, db'.ledger.entries = db.ledger.entries ++ row :: rows ∧
        VersionEvidenced pg w w.action (writeEntryType w.action) db'.auditEvents w.versionRow row ∧
        List.Forall₂ (VersionEvidenced pg w "version_purge" "secret_version_purged" db'.auditEvents)
          purged rows := by
  have hentries : w.ledgerEntries = some (.array ((e :: es).map SignedLedgerEntry.item)) := by
    rw [hw]
    rfl
  have hcount : ((e :: es).map SignedLedgerEntry.item).countP
      (hasEntryType ["secret_version_purged"]) = purged.length := by
    simpa [checkPurgeCount, hentries, arrayItems] using hwritten.count
  have hperm := hwritten.purged_perm.map SecretVersionRow.purgeKey
  have hids := hwritten.purged_ids_nodup hkeys
  obtain ⟨write, records, -, rfl, hrecords⟩ := hwritten.records hentries
  rw [List.map_map] at hids hperm
  rw [List.length_map] at hcount
  refine ⟨(h.purgeKeys_perm hrecords hids hcount).trans hperm,
    h.chainState_eq hrecords hevidenced hextends, ?_⟩
  refine h.evidenced hw hrecords ?_ hevidenced (hevidenced.written hwritten).ids_nodup
  exact hwritten.device_ne_empty

end Committed

/-! ### The writes of the server -/

/-- **Every write of the server is predicted and evidenced.** For a write that is built from a chain
head and a retention snapshot, in any state the server can reach: the drafts of the purges name
exactly the rows that get deleted, if the snapshot is current and the version can be stored; if the
drafts do not name these rows, with their key versions, or the head is not the current one, the
procedure raises and nothing changes; and a write that commits adds one entry for itself and one for
each row it deleted, each with its one audit event. -/
theorem serverWrite_evidenced (P : Primitives) (appender : LedgerAppender) (pg : PostgresSession)
    (users : List Uuid) (signingPublicKeys : List LedgerSigningPublicKeyRow) (s : StoreState)
    (origin : ℕ → DraftOrigin) (head : LedgerChainHead) (requestId : RequestId)
    (prepared : PreparedSecretVersion)
    (snapshot : Option (List SecretVersionRetentionSnapshot)) (params : WriteSecretVersionParams)
    (random : ℕ → Uuid) (call : WriteSecretVersionArgs) (w : SecretWrite)
    (hrun : StoreState.ServerRun pg (.init users signingPublicKeys) s)
    (hbuild : buildRpcParams P appender origin (.ok head) requestId prepared snapshot = .ok params)
    (hcall : params.args = some call) (hw : call.write? = some w) :
    (∃ drafts, buildPurgeLedgerDrafts origin requestId prepared (snapshot.getD []) = .ok drafts ∧
      (∀ locked stored, lockSecret s.db w = .ok locked →
        insertSecretVersion locked w.versionRow = .ok stored →
        SnapshotCurrent s.db prepared snapshot →
        PurgesPredicted requestId prepared drafts (rowsToDelete s.db w)) ∧
      (¬(PurgesPredicted requestId prepared drafts (rowsToDelete s.db w) ∧
          s.db.ledger.chainState = some head.toRow) →
        (∃ error, rpcWriteSecretVersion pg random s.db call = .error error) ∧
          s.step pg (.writeSecretVersion random call) = s)) ∧
    ∀ db' result, rpcWriteSecretVersion pg random s.db call = .ok (db', result) →
      ∃ deleted row rows, result.purgedVersionIds = deleted.map SecretVersionRow.id ∧
        (∀ v, v ∈ deleted ↔ (v ∈ s.db.secretVersions ∨ v = w.versionRow) ∧
          v ∉ db'.secretVersions) ∧
        db'.ledger.entries = s.db.ledger.entries ++ row :: rows ∧
        VersionEvidenced pg w w.action (writeEntryType w.action) db'.auditEvents w.versionRow row ∧
        List.Forall₂ (VersionEvidenced pg w "version_purge" "secret_version_purged" db'.auditEvents)
          deleted rows := by
  have hinv : StoreInv s.db s.writes := storeInv_of_run (StoreInv.empty _ _) hrun.reachable
  have hevidenced : Evidenced s.db.auditEvents s.db.ledger :=
    evidenced_of_serverRun (Evidenced.empty _) hrun
  obtain ⟨e, es, hparams, hextends, hwrite, hpurges, drafts, hdrafts⟩ :=
    buildRpcParams_eq_ok hbuild
  have hsigned :
      WriteSigned requestId prepared (predictedPurges prepared (snapshot.getD [])) e es :=
    ⟨hwrite, hpurges⟩
  obtain ⟨-, -, createdAt, -, hargs⟩ := WriteSecretVersionParams.args_ofPrepared (hparams ▸ hcall)
  have hprepared : w = prepared.write requestId createdAt (e :: es) :=
    Option.some.inj (hw.symm.trans hargs)
  have hpredicted := buildPurgeLedgerDrafts_eq_ok hdrafts
  -- a call that returns has written, and returns the identifiers of the deleted rows
  have hcommitted {db' : SecretDb} {result : WriteSecretVersionRow}
      (hcommit : rpcWriteSecretVersion pg random s.db call = .ok (db', result)) :
      ∃ found purged, Written pg random s.db w found purged db' ∧
        result.purgedVersionIds = purged.map SecretVersionRow.id := by
    rw [rpcWriteSecretVersion, hw, Result.ofOption_some, Result.ok_bind] at hcommit
    obtain ⟨found, purged, hwritten, rfl⟩ := writeSecretVersion_eq_ok hcommit
    exact ⟨found, purged, hwritten, rfl⟩
  refine ⟨⟨drafts, hdrafts, fun locked stored hlock hinsert hcurrent => ?_, fun hstale => ?_⟩,
    fun db' result hcommit => ?_⟩
  -- up to their order, a snapshot that is current predicts the rows that are deleted
  · have hlocked := lockSecret_eq_ok hlock
    have hfresh := (insertSecretVersion_eq_ok.mp hinsert).1
    rw [hlocked.frame.2] at hfresh
    exact ⟨_, hpredicted, hinv.predictedPurges_perm hlocked hfresh hprepared hcurrent⟩
  · -- a write that committed had the right drafts and the right head
    have hraised : ∃ error, rpcWriteSecretVersion pg random s.db call = .error error := by
      rcases hresult : rpcWriteSecretVersion pg random s.db call with error | ⟨db', result⟩
      · exact ⟨error, rfl⟩
      · obtain ⟨found, purged, hwritten, -⟩ := hcommitted hresult
        obtain ⟨hperm, hhead, -⟩ :=
          hsigned.committed hprepared hinv.toPrimaryKeys hevidenced hextends hwritten
        exact absurd ⟨⟨_, hpredicted, hperm⟩, hhead⟩ hstale
    obtain ⟨error, herror⟩ := hraised
    refine ⟨⟨error, herror⟩, ?_⟩
    rw [StoreState.step, StoreCall.run, herror]
    rfl
  · obtain ⟨found, purged, hwritten, hresult⟩ := hcommitted hcommit
    obtain ⟨-, -, row, rows, hentries, hwriteRow, hpurgeRows⟩ :=
      hsigned.committed hprepared hinv.toPrimaryKeys hevidenced hextends hwritten
    exact ⟨purged, row, rows, hresult, fun v => hwritten.mem_purged, hentries, hwriteRow,
      hpurgeRows⟩

/-- The table with the hashes and the signatures of the two entries. -/
def sampleWritePrimitives : Primitives :=
  .ofTable samplePublicKey
    ([sampleRotationEntry, samplePurgeEntry].map SignedLedgerEntry.tableRow ++ [])

/-- The clock and the random source while the drafts of the rotation are built. -/
def sampleRotationOrigin (position : ℕ) : DraftOrigin where
  sourceEventAt := .ok sampleWriteEntry.sourceEventAt
  ledgerEntryId := .ok (sampleEntryId (60 + .ofNat position))
  sourceEventId := .ok ⟨sampleUuid (60 + .ofNat position)⟩

/-- The versions that the server finds before the rotation. -/
def sampleSnapshot : List SecretVersionRetentionSnapshot :=
  (fetchSecretVersionRetentionSnapshot (sampleStore 4).db sampleSecretId).toOption.getD []

theorem buildRpcParams_sampleRotation :
    buildRpcParams sampleWritePrimitives sampleAppender sampleRotationOrigin (.ok .genesis)
      ⟨sampleUuid 9⟩ sampleRotation (some sampleSnapshot) =
      .ok (.ofPrepared ⟨sampleUuid 9⟩ sampleRotation [sampleRotationEntry, samplePurgeEntry]) := by
  have hdraft : buildWriteLedgerDraft (sampleRotationOrigin 0) ⟨sampleUuid 9⟩ sampleRotation =
      .ok ⟨sampleRotationEntry.recorded, rfl⟩ := by
    decide +kernel
  have hpurges : buildPurgeLedgerDrafts sampleRotationOrigin ⟨sampleUuid 9⟩ sampleRotation
      sampleSnapshot = .ok [⟨samplePurgeEntry.recorded, rfl⟩] := by
    decide +kernel
  have hpairwise : [sampleRotationEntry, samplePurgeEntry].Pairwise
      fun a b => a.sequenceNo ≠ b.sequenceNo := by decide
  have hwrite : LedgerAppendDraft.signWithSequence sampleWritePrimitives
      ⟨sampleRotationEntry.recorded, rfl⟩ sampleRotationEntry.sequenceNo LedgerHash.genesis
      sampleKey = .ok sampleRotationEntry :=
    LedgerAppendDraft.signWithSequence_eq_ok.mpr
      ⟨rfl, rfl, rfl, signedBy_ofTable [] (by simp) hpairwise rfl⟩
  have hpurge : LedgerAppendDraft.signWithSequence sampleWritePrimitives
      ⟨samplePurgeEntry.recorded, rfl⟩ samplePurgeEntry.sequenceNo
      sampleRotationEntry.entryHash sampleKey = .ok samplePurgeEntry :=
    LedgerAppendDraft.signWithSequence_eq_ok.mpr
      ⟨rfl, rfl, rfl, signedBy_ofTable [] (by simp) hpairwise rfl⟩
  have hentries : sampleAppender.signEntriesFromHead sampleWritePrimitives
      [⟨sampleRotationEntry.recorded, rfl⟩, ⟨samplePurgeEntry.recorded, rfl⟩] .genesis =
      .ok [sampleRotationEntry, samplePurgeEntry] := by
    simp only [LedgerAppender.signEntriesFromHead, LedgerAppender.signEntries, Result.bind_eq_ok,
      Result.require_eq_ok, Result.mapError_eq_ok, LedgerSequenceNo.new_eq_ok, Result.pure_eq_ok]
    exact ⟨(), by decide, _, rfl, _, hwrite, _, ⟨(), by decide, _, rfl, _, hpurge, [], rfl, rfl⟩,
      rfl⟩
  simp only [buildRpcParams, hdraft, hpurges, hentries, Option.getD_some, Result.mapError_ok,
    Result.ok_bind]
  rfl

theorem serverRun_sampleStore (n : ℕ) :
    StoreState.ServerRun sampleSession (.init [sampleUuid 7] []) (sampleStore n) := by
  induction n with
  | zero => exact .refl
  | succ n ih => exact ih.tail ⟨sampleWriteCall (n + 1), trivial, rfl⟩

/-- An instance: after four writes the rotation commits, and it and the version it deleted have
their entries and their events. -/
theorem serverWrite_evidenced_sampleRotation : ∃ call db' result purged row purgeRow,
    rpcWriteSecretVersion sampleSession (fun _ => sampleUuid 5) (sampleStore 4).db call =
      .ok (db', result) ∧
    purged.id = sampleUuid 31 ∧ purged ∉ db'.secretVersions ∧
    db'.ledger.entries = [row, purgeRow] ∧
    VersionEvidenced sampleSession sampleRotationWrite "encrypt_rotate" "secret_version_created"
      db'.auditEvents sampleRotationWrite.versionRow row ∧
    VersionEvidenced sampleSession sampleRotationWrite "version_purge" "secret_version_purged"
      db'.auditEvents purged purgeRow := by
  obtain ⟨call, db', result, hcall, hwrite, hcommit, hids⟩ := rpcWrite_sampleRotation
  obtain ⟨-, hcommitted⟩ := serverWrite_evidenced sampleWritePrimitives sampleAppender
    sampleSession [sampleUuid 7] [] (sampleStore 4) sampleRotationOrigin .genesis ⟨sampleUuid 9⟩
    _ _ _ (fun _ => sampleUuid 5) call sampleRotationWrite (serverRun_sampleStore 4)
    buildRpcParams_sampleRotation hcall hwrite
  obtain ⟨deleted, row, rows, hdeleted, hgone, hentries, hrow, hpurges⟩ := hcommitted _ _ hcommit
  obtain ⟨purged, rfl, hpurged⟩ := List.map_eq_singleton_iff.mp (hdeleted.symm.trans hids)
  obtain ⟨purgeRow, _, hpurgeRow, hnone, rfl⟩ := List.forall₂_cons_left_iff.mp hpurges
  obtain rfl := List.forall₂_nil_left_iff.mp hnone
  have hempty : (sampleStore 4).db.ledger.entries = [] := by decide +kernel
  rw [hempty] at hentries
  exact ⟨call, db', result, purged, row, purgeRow, hcommit, hpurged,
    ((hgone purged).mp List.mem_cons_self).2, hentries, hrow, hpurgeRow⟩

end Mipsorcu
