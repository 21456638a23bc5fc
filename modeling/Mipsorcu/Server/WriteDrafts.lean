import Mipsorcu.Database.WriteEntries
import Mipsorcu.Foundation.Retention
import Mipsorcu.Server.WriteSecretVersion

/-!
# What the drafts of a write say

The draft of a write and the drafts of its purges record the request, the secret, its owner and the
device, and in their payload the version with its numbers (`VersionDraft`). The drafts of the purges
are those of the versions that the snapshot ranks below the four highest
(`buildPurgeLedgerDrafts_eq_ok`).
-/

namespace Mipsorcu

open Sql

/-! ### One draft -/

/-- The draft, or the entry made of it, is about a version of the secret, under a new event. -/
structure VersionDraft (requestId : RequestId) (prepared : PreparedSecretVersion)
    (entryType : LedgerEntryType) (versionId : Uuid) (payload : List (String × Json))
    (d : LedgerAppendDraftParts) : Prop where
  entryType : d.entryType = entryType
  requestId : d.requestId = requestId
  sourceEventId : ∃ id, d.sourceEventId = some id
  targetSecretId : d.targetSecretId = some prepared.secretId
  targetSecretVersionId : d.targetSecretVersionId = some ⟨versionId⟩
  actorUserId : d.actorUserId = some prepared.ownerUserId
  actorDeviceId : d.actorDeviceId = some prepared.createdByDeviceId
  errorCode : d.errorCode = none
  payload : d.payload.object = payload

/-- A payload of plain values that are given in the order of their keys is kept as it is. -/
theorem LedgerPayload.object_of_new {t : LedgerEntryType} {members : List (String × Json)}
    {p : LedgerPayload} (h : LedgerPayload.new t (.object members) = .ok p)
    (hsorted : SortedMap.Sorted members) (hscalar : ∀ m ∈ members, m.2.isContainer = false) :
    p.object = members := by
  rw [(LedgerPayload.ofSorted_eq_ok.mp h).2, Json.normalizeMembers_of_scalar hscalar,
    SortedMap.ofList_eq_self hsorted]

variable {d : LedgerAppendDraft}

theorem versionDraft_eq_ok {origin : DraftOrigin} {requestId : RequestId}
    {prepared : PreparedSecretVersion} {entryType : LedgerEntryType} {versionId : SecretVersionId}
    {members : List (String × Json)}
    (h : versionDraft origin requestId prepared entryType versionId (.object members) = .ok d)
    (hsorted : SortedMap.Sorted members) (hscalar : ∀ m ∈ members, m.2.isContainer = false) :
    VersionDraft requestId prepared entryType versionId.uuid members
      d.toLedgerAppendDraftParts := by
  have hparse : LedgerTargetSecretVersionId.parse versionId.asCanonicalString =
      .ok ⟨versionId.uuid⟩ := by
    simp [LedgerTargetSecretVersionId.parse, SecretVersionId.asCanonicalString]
  simp only [versionDraft, hparse, Result.bind_eq_ok, Result.ok_bind] at h
  obtain ⟨payload, hpayload, entryId, -, sourceEventAt, -, sourceEventId, -, hnew⟩ := h
  unfold LedgerAppendDraft.new at hnew
  split_ifs at hnew
  cases hnew
  exact ⟨rfl, rfl, ⟨_, rfl⟩, rfl, rfl, rfl, rfl, rfl,
    LedgerPayload.object_of_new hpayload hsorted hscalar⟩

/-- The payload of the entry of a write. -/
def PreparedSecretVersion.writePayload (prepared : PreparedSecretVersion) : List (String × Json) :=
  [("algorithm", .string algorithmXChaCha20Poly1305),
    ("classification", .string prepared.classification.text),
    ("key_version", .nat prepared.keyVersion.get), ("version", .nat prepared.version.get)]

theorem PreparedSecretVersion.sorted_writePayload (prepared : PreparedSecretVersion) :
    SortedMap.Sorted prepared.writePayload := by
  have hkeys : (prepared.writePayload.map Prod.fst).Pairwise (· < ·) :=
    show ["algorithm", "classification", "key_version", "version"].Pairwise (· < ·) by
      decide +kernel
  exact List.pairwise_map.mp hkeys

theorem PreparedSecretVersion.scalar_writePayload (prepared : PreparedSecretVersion) :
    ∀ m ∈ prepared.writePayload, m.2.isContainer = false := by
  simp [PreparedSecretVersion.writePayload, Json.nat, Json.isContainer]

theorem buildWriteLedgerDraft_eq_ok {origin : DraftOrigin} {requestId : RequestId}
    {prepared : PreparedSecretVersion}
    (h : buildWriteLedgerDraft origin requestId prepared = .ok d) :
    VersionDraft requestId prepared prepared.writeAction.entryType prepared.secretVersionId.uuid
      prepared.writePayload d.toLedgerAppendDraftParts :=
  versionDraft_eq_ok h prepared.sorted_writePayload prepared.scalar_writePayload

/-! ### The drafts of the purges -/

/-- What the entry of a purge says of the version. -/
structure PurgeKey where
  id : Uuid
  version : ℤ
  keyVersion : ℤ
  deriving DecidableEq

/-- The key of a stored row. -/
def SecretVersionRow.purgeKey (v : SecretVersionRow) : PurgeKey :=
  ⟨v.id, v.version, v.keyVersion⟩

/-- The key of a row the server has seen. -/
def SecretVersionRetentionSnapshot.purgeKey (s : SecretVersionRetentionSnapshot) : PurgeKey :=
  ⟨s.secretVersionId.uuid, s.version.get, s.keyVersion.get⟩

/-- The payload of the entry of a purge. -/
def SecretVersionRetentionSnapshot.purgePayload (s : SecretVersionRetentionSnapshot) :
    List (String × Json) :=
  [("key_version", .nat s.keyVersion.get), ("retention_limit", .nat secretVersionRetentionLimit),
    ("version", .nat s.version.get)]

/-- The draft, or the entry made of it, is the one of the purge of a version. -/
def PurgeDraft (requestId : RequestId) (prepared : PreparedSecretVersion)
    (purged : SecretVersionRetentionSnapshot) (d : LedgerAppendDraftParts) : Prop :=
  VersionDraft requestId prepared .secretVersionPurged purged.secretVersionId.uuid
    purged.purgePayload d

theorem buildPurgeLedgerDraft_eq_ok {origin : DraftOrigin} {requestId : RequestId}
    {prepared : PreparedSecretVersion} {purged : SecretVersionRetentionSnapshot}
    (h : buildPurgeLedgerDraft origin requestId prepared purged = .ok d) :
    PurgeDraft requestId prepared purged d.toLedgerAppendDraftParts := by
  have hsorted : SortedMap.Sorted purged.purgePayload := by
    have hkeys : (purged.purgePayload.map Prod.fst).Pairwise (· < ·) :=
      show ["key_version", "retention_limit", "version"].Pairwise (· < ·) by decide +kernel
    exact List.pairwise_map.mp hkeys
  refine versionDraft_eq_ok h hsorted ?_
  simp [SecretVersionRetentionSnapshot.purgePayload, Json.nat, Json.isContainer]

variable {origin : ℕ → DraftOrigin}

theorem buildPurgeDrafts_eq_ok {requestId : RequestId} {prepared : PreparedSecretVersion}
    {purges : List SecretVersionRetentionSnapshot} {position : ℕ} {drafts : List LedgerAppendDraft}
    (h : buildPurgeDrafts origin requestId prepared purges position = .ok drafts) :
    List.Forall₂ (fun purged (d : LedgerAppendDraft) =>
      PurgeDraft requestId prepared purged d.toLedgerAppendDraftParts) purges drafts := by
  induction purges generalizing position drafts with
  | nil =>
    cases h
    exact .nil
  | cons purged rest ih =>
    simp only [buildPurgeDrafts, Result.bind_eq_ok, Result.pure_eq_ok] at h
    obtain ⟨d, hd, ds, hds, rfl⟩ := h
    exact .cons (buildPurgeLedgerDraft_eq_ok hd) (ih hds)

/-- The versions the server expects to be purged: none, unless the secret is rotated. -/
def predictedPurges (prepared : PreparedSecretVersion)
    (snapshot : List SecretVersionRetentionSnapshot) : List SecretVersionRetentionSnapshot :=
  if prepared.writeAction ≠ .encryptRotate then [] else expectedPurges prepared snapshot

/-- **One draft for each version that is expected to be purged.** -/
theorem buildPurgeLedgerDrafts_eq_ok {requestId : RequestId} {prepared : PreparedSecretVersion}
    {snapshot : List SecretVersionRetentionSnapshot} {drafts : List LedgerAppendDraft}
    (h : buildPurgeLedgerDrafts origin requestId prepared snapshot = .ok drafts) :
    List.Forall₂ (fun purged (d : LedgerAppendDraft) =>
      PurgeDraft requestId prepared purged d.toLedgerAppendDraftParts)
      (predictedPurges prepared snapshot) drafts := by
  unfold buildPurgeLedgerDrafts at h
  unfold predictedPurges
  split_ifs at h ⊢
  · cases h
    exact .nil
  · exact buildPurgeDrafts_eq_ok h

/-- The expected purges are the versions that retention ranks below the highest ones. -/
theorem expectedPurges_perm (prepared : PreparedSecretVersion)
    (snapshot : List SecretVersionRetentionSnapshot) :
    ((expectedPurges prepared snapshot).map SecretVersionRetentionSnapshot.purgeKey).Perm
      (Retention.outranked PurgeKey.version secretVersionRetentionLimit
        (snapshot.map SecretVersionRetentionSnapshot.purgeKey ++
          [⟨prepared.secretVersionId.uuid, prepared.version.get, prepared.keyVersion.get⟩])) := by
  generalize hversions : snapshot ++ [({
    secretVersionId := prepared.secretVersionId, version := prepared.version,
    keyVersion := prepared.keyVersion } : SecretVersionRetentionSnapshot)] = versions
  have hkeys : snapshot.map SecretVersionRetentionSnapshot.purgeKey ++
      [⟨prepared.secretVersionId.uuid, prepared.version.get, prepared.keyVersion.get⟩] =
      versions.map SecretVersionRetentionSnapshot.purgeKey := by
    rw [← hversions, List.map_append, List.map_singleton]
    rfl
  rw [hkeys, ← Retention.map_outranked, expectedPurges, hversions]
  refine ((List.perm_insertionSort _ _).map _).trans (.of_eq ?_)
  simp only [Retention.outranked, SecretVersionRetentionSnapshot.purgeKey, Nat.cast_le]

/-! ### The snapshot -/

theorem SecretVersionRetentionSnapshot.tryFrom_eq_ok {row : SecretVersionRow}
    {s : SecretVersionRetentionSnapshot} (h : tryFrom row = .ok s) : s.purgeKey = row.purgeKey := by
  simp only [tryFrom, Result.bind_eq_ok, Result.mapError_eq_ok, Result.ofOption_eq_ok,
    secretVersionOfI32_eq_some, keyVersionOfI32_eq_some, Result.pure_eq_ok] at h
  obtain ⟨id, hid, version, hversion, keyVersion, hkeyVersion, rfl⟩ := h
  simp only [purgeKey, SecretVersionRow.purgeKey, SecretVersionId.uuid_of_parse hid, hversion,
    hkeyVersion]

/-- The snapshot has the versions of the secret. -/
theorem fetchSecretVersionRetentionSnapshot_eq_ok {db : SecretDb} {secretId : SecretId}
    {snapshot : List SecretVersionRetentionSnapshot}
    (h : fetchSecretVersionRetentionSnapshot db secretId = .ok snapshot) :
    (snapshot.map SecretVersionRetentionSnapshot.purgeKey).Perm
      ((db.versionsOf secretId.uuid).map SecretVersionRow.purgeKey) := by
  have hrows := Result.traverse_eq_ok.mp h
  have hkeys : snapshot.map SecretVersionRetentionSnapshot.purgeKey =
      ((db.versionsOf secretId.uuid).insertionSort fun a b => b.version ≤ a.version).map
        SecretVersionRow.purgeKey := by
    rw [← List.forall₂_eq_eq_eq, List.forall₂_map_left_iff, List.forall₂_map_right_iff]
    exact hrows.flip.imp fun _ _ h => SecretVersionRetentionSnapshot.tryFrom_eq_ok h
  rw [hkeys]
  exact (List.perm_insertionSort _ _).map _

/-! ### The signed entries -/

/-- **What the parameters of a write are made of**: the entries of the write and of the purges that
are expected, signed from the head on. -/
theorem buildRpcParams_eq_ok {P : Primitives} {appender : LedgerAppender} {head : LedgerChainHead}
    {requestId : RequestId} {prepared : PreparedSecretVersion}
    {snapshot : Option (List SecretVersionRetentionSnapshot)} {params : WriteSecretVersionParams}
    (h : buildRpcParams P appender origin (.ok head) requestId prepared snapshot = .ok params) :
    ∃ (e : SignedLedgerEntry) (es : List SignedLedgerEntry),
      params = .ofPrepared requestId prepared (e :: es) ∧ Extends P head e ∧
      VersionDraft requestId prepared prepared.writeAction.entryType prepared.secretVersionId.uuid
        prepared.writePayload e.recorded ∧
      List.Forall₂ (fun purged (e : SignedLedgerEntry) =>
        PurgeDraft requestId prepared purged e.recorded)
        (predictedPurges prepared (snapshot.getD [])) es ∧
      ∃ drafts, buildPurgeLedgerDrafts origin requestId prepared (snapshot.getD []) =
        .ok drafts := by
  simp only [buildRpcParams, Result.mapError_ok, Result.ok_bind, Result.bind_eq_ok,
    Result.mapError_eq_ok, Result.pure_eq_ok] at h
  obtain ⟨writeDraft, hwrite, purgeDrafts, hpurges, entries, hsign, rfl⟩ := h
  obtain ⟨hrecorded, -, final, hfinal⟩ := LedgerAppender.signEntries_eq_ok hsign
  cases hrecorded with
  | @cons _ e _ es hfirst hrest =>
    refine ⟨e, es, rfl, (verifyLedgerChain_cons.mp hfinal).1, ?_, ?_, purgeDrafts, hpurges⟩
    · rw [hfirst]
      exact buildWriteLedgerDraft_eq_ok hwrite
    · have hparts : purgeDrafts.map LedgerAppendDraft.toLedgerAppendDraftParts =
          es.map SignedLedgerEntry.recorded := by
        rw [← List.forall₂_eq_eq_eq, List.forall₂_map_left_iff, List.forall₂_map_right_iff]
        exact hrest.imp fun _ _ h => h.symm
      have hdrafts := List.forall₂_map_right_iff.mpr (buildPurgeLedgerDrafts_eq_ok hpurges)
      rw [hparts] at hdrafts
      exact List.forall₂_map_right_iff.mp hdrafts

/-! ### The members of a signed entry -/

section Members

/-- The entry as an element of the argument. -/
def SignedLedgerEntry.item (e : SignedLedgerEntry) : Json :=
  (LedgerEntryRpcParams.fromSignedEntry e).toJson

variable {e : SignedLedgerEntry}

/-- The entry is read as its row. -/
theorem Sql.ReadsAs.eq_ofSigned {pg : PostgresSession} {row : LedgerEntryRow}
    (h : ReadsAs pg e.item row) (herror : e.errorCode = none) : row = .ofSigned e := by
  obtain ⟨args, hargs, hrow⟩ := h
  have hkey := keyVersion_le_of_ledgerArgsOfJsonb hargs
  rw [SignedLedgerEntry.item, ledgerArgsOfJsonb_toJson hkey (by simp [herror]),
    Except.ok.injEq] at hargs
  rw [← hargs, LedgerEntryRow.row?_args, Option.some.injEq] at hrow
  exact hrow.symm

/-- A member that may be null. -/
theorem memberText_item {key : String} {value : Option String}
    (h : member? e.item key = some (jsonOfOption value)) : memberText e.item key = value := by
  have hmember : memberText e.item key = (member? e.item key).bind textOf := memberText_object _ _
  rw [hmember, h, Option.bind_some, textOf_jsonOfOption]

theorem memberMemberText_item (key : String) :
    memberMemberText e.item "p_payload" key = (e.payload.object.lookup key).bind textOf := by
  rw [← memberText_object]
  rfl

variable {requestId : RequestId} {prepared : PreparedSecretVersion} {entryType : LedgerEntryType}
  {versionId : Uuid} {payload : List (String × Json)}

/-- The members of the entry of a version. -/
structure VersionItem (prepared : PreparedSecretVersion) (entryType : LedgerEntryType)
    (versionId : Uuid) (payload : List (String × Json)) (item : Json) : Prop where
  entryType : memberText item "p_entry_type" = some entryType.asStr
  targetSecretId : memberText item "p_target_secret_id" = some prepared.secretId.uuid.hyphenated
  targetSecretVersionId : memberText item "p_target_secret_version_id" = some versionId.hyphenated
  actorUserId : memberText item "p_actor_user_id" = some prepared.ownerUserId.uuid.hyphenated
  actorDeviceId : memberText item "p_actor_device_id" = some prepared.createdByDeviceId.text
  sourceEventId : ∃ id : Uuid, memberText item "p_source_event_id" = some id.hyphenated
  payload : ∀ key, memberMemberText item "p_payload" key = (payload.lookup key).bind textOf

theorem VersionDraft.versionItem
    (h : VersionDraft requestId prepared entryType versionId payload e.recorded) :
    VersionItem prepared entryType versionId payload e.item := by
  obtain ⟨htype, -, ⟨eventId, hevent⟩, hsecret, hversion, hactor, hdevice, -, hpayload⟩ := h
  simp only [SignedLedgerEntry.recorded] at htype hevent hsecret hversion hactor hdevice hpayload
  -- what each member that may be null is, before the draft says that it is not
  have hsecretMember : memberText e.item "p_target_secret_id" =
      e.targetSecretId.map SecretId.asCanonicalString := memberText_item rfl
  have hversionMember : memberText e.item "p_target_secret_version_id" =
      e.targetSecretVersionId.map LedgerTargetSecretVersionId.asCanonicalString :=
    memberText_item rfl
  have hactorMember : memberText e.item "p_actor_user_id" =
      e.actorUserId.map OwnerUserId.asCanonicalString := memberText_item rfl
  have hdeviceMember : memberText e.item "p_actor_device_id" =
      e.actorDeviceId.map DeviceId.text := memberText_item rfl
  have heventMember : memberText e.item "p_source_event_id" =
      e.sourceEventId.map AuditEventId.asCanonicalString := memberText_item rfl
  constructor
  case entryType =>
    rw [← htype]
    rfl
  case targetSecretId => rw [hsecretMember, hsecret]; rfl
  case targetSecretVersionId => rw [hversionMember, hversion]; rfl
  case actorUserId => rw [hactorMember, hactor]; rfl
  case actorDeviceId => rw [hdeviceMember, hdevice]; rfl
  case sourceEventId => exact ⟨eventId.uuid, by rw [heventMember, hevent]; rfl⟩
  case payload =>
    intro key
    rw [memberMemberText_item, hpayload]

/-- The entry has every member that is compared. -/
theorem VersionItem.isComplete {item : Json}
    (h : VersionItem prepared entryType versionId payload item)
    (hversion : ((payload.lookup "version").bind textOf).isSome = true)
    (hkeyVersion : ((payload.lookup "key_version").bind textOf).isSome = true) :
    purgeEntryIsComplete item = true := by
  simp [purgeEntryIsComplete, comparedMembers, h.targetSecretId, h.actorUserId, h.actorDeviceId,
    h.payload, hversion, hkeyVersion]

theorem VersionItem.hasEntryType {item : Json} {types : List String}
    (h : VersionItem prepared entryType versionId payload item) :
    hasEntryType types item = true ↔ entryType.asStr ∈ types := by
  rw [Sql.hasEntryType, h.entryType, Option.any_some, List.contains_iff_mem]

/-- The type of the entry of a write is the one that its action calls for. -/
theorem SecretWriteAction.asStr_entryType (action : SecretWriteAction) :
    action.entryType.asStr = writeEntryType action.asStr := by
  cases action <;> decide

/-- The entry of a purge that passed the comparisons with a row is that row's. -/
theorem PurgeDraft.purgeKey_eq {pg : PostgresSession} {w : SecretWrite} {v : SecretVersionRow}
    {purged : SecretVersionRetentionSnapshot}
    (h : PurgeDraft requestId prepared purged e.recorded)
    (hfound : purgeEntryMatches v.id e.item = true) (hagrees : PurgeEntryAgrees pg w v e.item) :
    purged.purgeKey = v.purgeKey := by
  have hitem := VersionDraft.versionItem h
  have hid : purged.secretVersionId.uuid = v.id := by
    have htarget := (Bool.and_eq_true_iff.mp hfound).2
    rw [hitem.targetSecretVersionId, beq_iff_eq, Option.some.injEq] at htarget
    exact Uuid.hyphenated_injective htarget
  have hversion : (purged.version.get : ℤ) = v.version := by
    refine hagrees.version.eq_of_digits ?_
    rw [hitem.payload, ← textOf_nat]
    rfl
  have hkeyVersion : (purged.keyVersion.get : ℤ) = v.keyVersion := by
    refine hagrees.keyVersion.eq_of_digits ?_
    rw [hitem.payload, ← textOf_nat]
    rfl
  rw [SecretVersionRetentionSnapshot.purgeKey, SecretVersionRow.purgeKey, hid, hversion,
    hkeyVersion]

end Members

end Mipsorcu
