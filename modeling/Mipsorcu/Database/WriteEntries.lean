import Mipsorcu.Database.WriteSecretVersion

/-!
# The ledger entries of a write

`rpc_write_secret_version` takes the ledger entries of a write and of its purges as JSON and
compares each of them with the write before it appends them. `Records` is what it records in all:
one audit event and one ledger entry for each version, in order (`Written.records`).

The comparisons follow three-valued logic, so a member that is missing is equal to everything, and
elements of other types are not looked at. The entries of a write that committed describe it exactly
if every element has one of the types that are looked for and every member that is compared
(`Written.entriesDescribe_iff`).
-/

namespace Mipsorcu

namespace Sql

/-! ### Reading an entry -/

/-- The row that an entry given as JSON stands for. -/
def ReadsAs (pg : PostgresSession) (entry : Json) (row : LedgerEntryRow) : Prop :=
  ∃ args, ledgerArgsOfJsonb pg entry = .ok args ∧ args.row? = some row

/-- The columns of the row, as the members of the entry give them. -/
structure EntryColumns (pg : PostgresSession) (entry : Json) (row : LedgerEntryRow) : Prop where
  entryType : memberText entry "p_entry_type" = some row.entryType
  requestId : castNullable pg.castUuid (invalidTextRepresentation "uuid")
    (memberText entry "p_request_id") = .ok (some row.requestId)
  sourceEventId : castNullable pg.castUuid (invalidTextRepresentation "uuid")
    (nullifEmpty (memberText entry "p_source_event_id")) = .ok row.sourceEventId
  targetSecretId : castNullable pg.castUuid (invalidTextRepresentation "uuid")
    (nullifEmpty (memberText entry "p_target_secret_id")) = .ok row.targetSecretId
  targetSecretVersionId : castNullable pg.castUuid (invalidTextRepresentation "uuid")
    (nullifEmpty (memberText entry "p_target_secret_version_id")) = .ok row.targetSecretVersionId
  actorUserId : castNullable pg.castUuid (invalidTextRepresentation "uuid")
    (nullifEmpty (memberText entry "p_actor_user_id")) = .ok row.actorUserId
  actorDeviceId : nullifEmpty (memberText entry "p_actor_device_id") = row.actorDeviceId
  result : memberText entry "p_result" = some row.result
  payload : member? entry "p_payload" = some row.payload

theorem ReadsAs.columns {pg : PostgresSession} {entry : Json} {row : LedgerEntryRow}
    (h : ReadsAs pg entry row) : EntryColumns pg entry row := by
  obtain ⟨args, hargs, hrow⟩ := h
  simp only [ledgerArgsOfJsonb, Result.bind_eq_ok, Result.pure_eq_ok] at hargs
  obtain ⟨_, -, _, -, _, hrequest, _, hevent, _, hsecret, _, hversion, _, hactor, _, -, _, -, _, -,
    _, -, _, -, rfl⟩ := hargs
  have hcolumns := AppendLedgerEntryArgs.row?_eq_some.mp hrow
  simp only [LedgerEntryRow.args, AppendLedgerEntryArgs.mk.injEq] at hcolumns
  obtain ⟨-, -, htype, -, rfl, rfl, rfl, rfl, rfl, hdevice, hresult, -, hpayload, -⟩ := hcolumns
  exact ⟨htype, hrequest, hevent, hsecret, hversion, hactor, hdevice, hresult, hpayload⟩

theorem rpcAppendLedgerEntryFromJsonb_eq_ok {pg : PostgresSession} {ledger ledger' : LedgerDb}
    {entry : Json} {result : AppendLedgerEntryRow}
    (h : rpcAppendLedgerEntryFromJsonb pg ledger entry = .ok (ledger', result)) :
    ∃ row, ReadsAs pg entry row ∧
      (Replayed ledger row ledger' result ∨ Inserted ledger row ledger' result) := by
  simp only [rpcAppendLedgerEntryFromJsonb, Result.bind_eq_ok, Result.mapError_eq_ok] at h
  obtain ⟨_, -, args, hargs, happend⟩ := h
  obtain ⟨row, hrow, hcases⟩ := rpcAppendLedgerEntry_eq_ok happend
  exact ⟨row, ⟨args, hargs, hrow⟩, hcases⟩

/-! ### The comparisons -/

/-- A comparison with `value` that takes no effect. -/
def Unopposed {α : Type} (x : Option α) (value : α) : Prop :=
  ∀ a, x = some a → a = value

/-- What the shared comparisons leave of an entry. -/
structure EntryAgrees (w : SecretWrite) (entry : Json) : Prop where
  requestId : Unopposed (memberText entry "p_request_id") w.requestId.hyphenated
  sourceEventId : (memberText entry "p_source_event_id").isSome = true
  targetSecretId : Unopposed (memberText entry "p_target_secret_id") w.secretId.hyphenated
  actorUserId : Unopposed (memberText entry "p_actor_user_id") w.ownerUserId.hyphenated
  actorDeviceId : Unopposed (memberText entry "p_actor_device_id") w.createdByDeviceId
  result : Unopposed (memberText entry "p_result") "success"
  errorCode : memberText entry "p_error_code" = none

theorem entryAgrees_of_entryDiffers {w : SecretWrite} {entry : Json}
    (h : ∀ t ∈ entryDiffers w entry, t ≠ some true) : EntryAgrees w entry := by
  simp only [entryDiffers, List.forall_mem_cons, Truth.ne_ne_true, Truth.isNull_ne_true,
    Truth.isNotNull_ne_true] at h
  obtain ⟨hrequest, hevent, hsecret, hactor, hdevice, hresult, herror, -⟩ := h
  exact ⟨hrequest, hevent, hsecret, hactor, hdevice, hresult, herror⟩

/-- A number of the payload that its comparison leaves: it is `value`, or there is none. -/
def IntegerAgrees (pg : PostgresSession) (entry : Json) (key : String) (value : ℤ) : Prop :=
  ∃ number, castNullable pg.castInteger (invalidTextRepresentation "integer")
    (memberMemberText entry "p_payload" key) = .ok number ∧ Unopposed number value

theorem integerAgrees_of_payloadIntegerDiffers {pg : PostgresSession} {entry : Json} {key : String}
    {value : ℤ} (h : payloadIntegerDiffers pg entry key value = .ok false) :
    IntegerAgrees pg entry key value := by
  simp only [payloadIntegerDiffers, Result.bind_eq_ok, Result.pure_eq_ok] at h
  obtain ⟨number, hcast, hdiffers⟩ := h
  refine ⟨number, hcast, Truth.ne_ne_true.mp ?_⟩
  simpa [Truth.holds] using hdiffers

/-- What the comparisons leave of the entry of the write. -/
structure WriteEntryAgrees (pg : PostgresSession) (w : SecretWrite) (entry : Json) : Prop
    extends EntryAgrees w entry where
  targetSecretVersionId :
    Unopposed (memberText entry "p_target_secret_version_id") w.secretVersionId.hyphenated
  classification : Unopposed (memberMemberText entry "p_payload" "classification") w.classification
  algorithm : Unopposed (memberMemberText entry "p_payload" "algorithm") w.algorithm
  version : IntegerAgrees pg entry "version" w.version
  keyVersion : IntegerAgrees pg entry "key_version" w.keyVersion

theorem checkWriteEntry_eq_ok {pg : PostgresSession} {w : SecretWrite} {entry : Json} {u : Unit}
    (h : checkWriteEntry pg w entry = .ok u) : WriteEntryAgrees pg w entry := by
  simp only [checkWriteEntry, Result.bind_eq_ok, Result.require_eq_ok, Bool.not_eq_true',
    Truth.holds_any_eq_false, List.forall_mem_append, List.forall_mem_cons, Truth.ne_ne_true] at h
  obtain ⟨_, ⟨hshared, hversionId, hclassification, halgorithm, -⟩, _, hversion, _, rfl, _, hkey,
    rfl⟩ := h
  exact ⟨entryAgrees_of_entryDiffers hshared, hversionId, hclassification, halgorithm,
    integerAgrees_of_payloadIntegerDiffers hversion, integerAgrees_of_payloadIntegerDiffers hkey⟩

/-- What the comparisons leave of the entry of a purge. -/
structure PurgeEntryAgrees (pg : PostgresSession) (w : SecretWrite) (purged : SecretVersionRow)
    (entry : Json) : Prop extends EntryAgrees w entry where
  version : IntegerAgrees pg entry "version" purged.version
  keyVersion : IntegerAgrees pg entry "key_version" purged.keyVersion

theorem checkPurgeEntry_eq_ok {pg : PostgresSession} {w : SecretWrite} {purged : SecretVersionRow}
    {entry : Json} {u : Unit} (h : checkPurgeEntry pg w purged entry = .ok u) :
    PurgeEntryAgrees pg w purged entry := by
  simp only [checkPurgeEntry, Result.bind_eq_ok, Result.require_eq_ok, Bool.not_eq_true',
    Truth.holds_any_eq_false] at h
  obtain ⟨_, hshared, _, hversion, _, rfl, _, hkey, _, rfl, -⟩ := h
  exact ⟨entryAgrees_of_entryDiffers hshared, integerAgrees_of_payloadIntegerDiffers hversion,
    integerAgrees_of_payloadIntegerDiffers hkey⟩

/-! ### Entries that describe the write -/

/-- The row of the ledger names the write's request, secret, actor and device and the version with
its number and its key version. -/
structure DescribesVersion (pg : PostgresSession) (w : SecretWrite) (v : SecretVersionRow)
    (row : LedgerEntryRow) : Prop where
  requestId : row.requestId = w.requestId
  targetSecretId : row.targetSecretId = some w.secretId
  targetSecretVersionId : row.targetSecretVersionId = some v.id
  actorUserId : row.actorUserId = some w.ownerUserId
  actorDeviceId : row.actorDeviceId = some w.createdByDeviceId
  version : (memberText row.payload "version").bind pg.castInteger = some v.version
  keyVersion : (memberText row.payload "key_version").bind pg.castInteger = some v.keyVersion

/-- The row of the ledger describes the version that was written. -/
structure DescribesWrite (pg : PostgresSession) (w : SecretWrite) (row : LedgerEntryRow) : Prop
    extends DescribesVersion pg w w.versionRow row where
  classification : memberText row.payload "classification" = some w.classification
  algorithm : memberText row.payload "algorithm" = some w.algorithm

/-- The members that the comparisons of every entry look at, beyond those without which it cannot
be appended. -/
def comparedMembers (entry : Json) : List (Option String) :=
  [memberText entry "p_target_secret_id", memberText entry "p_actor_user_id",
    memberText entry "p_actor_device_id", memberMemberText entry "p_payload" "version",
    memberMemberText entry "p_payload" "key_version"]

/-- The members that only the comparisons of the entry of the write look at. -/
def comparedWriteMembers (entry : Json) : List (Option String) :=
  [memberText entry "p_target_secret_version_id",
    memberMemberText entry "p_payload" "classification",
    memberMemberText entry "p_payload" "algorithm"]

/-- Every member that is compared is there. -/
def purgeEntryIsComplete (entry : Json) : Bool :=
  (comparedMembers entry).all Option.isSome

/-- The same with those of a write. -/
def writeEntryIsComplete (entry : Json) : Bool :=
  purgeEntryIsComplete entry && (comparedWriteMembers entry).all Option.isSome

section Columns

variable {pg : PostgresSession} {error : SqlError} {text : Option String}

theorem Unopposed.eq_some {α : Type} {x : Option α} {value : α} (h : Unopposed x value)
    (hx : x.isSome = true) : x = some value := by
  obtain ⟨a, rfl⟩ := Option.isSome_iff_exists.mp hx
  rw [h a rfl]

/-- An identifier that is there and that its comparison left. -/
theorem Unopposed.cast_eq_some {id : Uuid} {column : Option Uuid}
    (h : Unopposed text id.hyphenated)
    (hcast : castNullable pg.castUuid error (nullifEmpty text) = .ok column)
    (htext : text.isSome = true) : column = some id := by
  rw [h.eq_some htext, nullifEmpty_some (hyphenated_ne_empty id), castNullable_hyphenated] at hcast
  exact (Except.ok.inj hcast).symm

/-- A number that is there and that its comparison left. -/
theorem IntegerAgrees.eq_some {entry : Json} {key : String} {value : ℤ}
    (h : IntegerAgrees pg entry key value)
    (hsome : (memberMemberText entry "p_payload" key).isSome = true) :
    (memberMemberText entry "p_payload" key).bind pg.castInteger = some value := by
  obtain ⟨number, hcast, hnumber⟩ := h
  rcases castNullable_eq_ok.mp hcast with ⟨hnone, -⟩ | ⟨t, n, ht, hn, rfl⟩
  · rw [hnone] at hsome
    cases hsome
  · rw [ht, Option.bind_some, hn, hnumber n rfl]

/-- A number that is there as its digits and that its comparison left. -/
theorem IntegerAgrees.eq_of_digits {entry : Json} {key : String} {value : ℤ} {n : ℕ}
    (h : IntegerAgrees pg entry key value) (hdigits : memberMemberText entry "p_payload" key =
      some (String.ofList (Nat.toDigits 10 n))) : (n : ℤ) = value := by
  have hvalue := h.eq_some (by rw [hdigits]; rfl)
  rw [hdigits, Option.bind_some, pg.castInteger_digits] at hvalue
  split_ifs at hvalue
  exact Option.some.inj hvalue

/-- A column with a value comes from a text that is there. -/
theorem isSome_of_castNullable {id : Uuid}
    (h : castNullable pg.castUuid error (nullifEmpty text) = .ok (some id)) :
    text.isSome = true := by
  cases text with
  | none => cases h
  | some => rfl

end Columns

variable {pg : PostgresSession} {w : SecretWrite} {entry : Json} {row : LedgerEntryRow}

theorem EntryColumns.memberText_payload (h : EntryColumns pg entry row) (key : String) :
    memberText row.payload key = memberMemberText entry "p_payload" key := by
  rw [memberMemberText, h.payload, Option.bind_some]

/-- The request of an entry that was appended is the one it was compared with. -/
theorem EntryColumns.requestId_eq (h : EntryColumns pg entry row) (hagrees : EntryAgrees w entry) :
    row.requestId = w.requestId := by
  rcases castNullable_eq_ok.mp h.requestId with ⟨-, hnone⟩ | ⟨t, u, ht, hu, hrow⟩
  · cases hnone
  · rw [hagrees.requestId t ht, pg.castUuid_hyphenated] at hu
    cases hu
    exact Option.some.inj hrow

/-- An entry that names the version, with the comparisons made and all that was compared there,
describes the version. -/
theorem EntryColumns.describesVersion {v : SecretVersionRow} (hcolumns : EntryColumns pg entry row)
    (hagrees : EntryAgrees w entry) (hdevice : w.createdByDeviceId ≠ "")
    (hversion : IntegerAgrees pg entry "version" v.version)
    (hkeyVersion : IntegerAgrees pg entry "key_version" v.keyVersion)
    (htarget : memberText entry "p_target_secret_version_id" = some v.id.hyphenated)
    (hcomplete : purgeEntryIsComplete entry = true) : DescribesVersion pg w v row := by
  simp only [purgeEntryIsComplete, comparedMembers, List.all_cons, List.all_nil, Bool.and_true,
    Bool.and_eq_true] at hcomplete
  obtain ⟨hsecret, hactor, hdeviceId, hnumber, hkey⟩ := hcomplete
  have htargetSame : Unopposed (memberText entry "p_target_secret_version_id") v.id.hyphenated :=
    fun t ht => Option.some.inj (ht.symm.trans htarget)
  constructor
  case requestId => exact hcolumns.requestId_eq hagrees
  case targetSecretId => exact hagrees.targetSecretId.cast_eq_some hcolumns.targetSecretId hsecret
  case targetSecretVersionId =>
    exact htargetSame.cast_eq_some hcolumns.targetSecretVersionId (by rw [htarget]; rfl)
  case actorUserId => exact hagrees.actorUserId.cast_eq_some hcolumns.actorUserId hactor
  case actorDeviceId =>
    rw [← hcolumns.actorDeviceId, hagrees.actorDeviceId.eq_some hdeviceId, nullifEmpty_some hdevice]
  case version => rw [hcolumns.memberText_payload, hversion.eq_some hnumber]
  case keyVersion => rw [hcolumns.memberText_payload, hkeyVersion.eq_some hkey]

/-- An entry that passed as the entry of the write, with all that was compared there, describes
it. -/
theorem EntryColumns.describesWrite (hcolumns : EntryColumns pg entry row)
    (hagrees : WriteEntryAgrees pg w entry) (hdevice : w.createdByDeviceId ≠ "")
    (hcomplete : writeEntryIsComplete entry = true) : DescribesWrite pg w row := by
  simp only [writeEntryIsComplete, comparedWriteMembers, List.all_cons, List.all_nil,
    Bool.and_true, Bool.and_eq_true] at hcomplete
  obtain ⟨hshared, hversionId, hclassification, halgorithm⟩ := hcomplete
  refine ⟨hcolumns.describesVersion hagrees.toEntryAgrees hdevice hagrees.version
    hagrees.keyVersion (hagrees.targetSecretVersionId.eq_some hversionId) hshared, ?_, ?_⟩
  · rw [hcolumns.memberText_payload, hagrees.classification.eq_some hclassification]
  · rw [hcolumns.memberText_payload, hagrees.algorithm.eq_some halgorithm]

/-- An entry that describes a version has all that is compared. -/
theorem DescribesVersion.isComplete {v : SecretVersionRow} (h : DescribesVersion pg w v row)
    (hcolumns : EntryColumns pg entry row) : purgeEntryIsComplete entry = true := by
  have hsecret := isSome_of_castNullable (h.targetSecretId ▸ hcolumns.targetSecretId)
  have hactor := isSome_of_castNullable (h.actorUserId ▸ hcolumns.actorUserId)
  have hdevice : (memberText entry "p_actor_device_id").isSome = true := by
    have hcolumn := hcolumns.actorDeviceId.trans h.actorDeviceId
    cases hmember : memberText entry "p_actor_device_id" with
    | none => rw [hmember] at hcolumn; cases hcolumn
    | some => rfl
  obtain ⟨_, hversion, -⟩ := Option.bind_eq_some_iff.mp h.version
  obtain ⟨_, hkeyVersion, -⟩ := Option.bind_eq_some_iff.mp h.keyVersion
  rw [hcolumns.memberText_payload] at hversion hkeyVersion
  simp [purgeEntryIsComplete, comparedMembers, hsecret, hactor, hdevice, hversion, hkeyVersion]

theorem DescribesWrite.isComplete (h : DescribesWrite pg w row)
    (hcolumns : EntryColumns pg entry row) : writeEntryIsComplete entry = true := by
  have hversionId :=
    isSome_of_castNullable (h.targetSecretVersionId ▸ hcolumns.targetSecretVersionId)
  have hclassification := h.classification
  have halgorithm := h.algorithm
  rw [hcolumns.memberText_payload] at hclassification halgorithm
  simp [writeEntryIsComplete, comparedWriteMembers, h.toDescribesVersion.isComplete hcolumns,
    hversionId, hclassification, halgorithm]

/-! ### What is recorded -/

/-- A version that was written or purged, the action of its event, and its ledger entry. -/
structure VersionRecord where
  action : String
  version : SecretVersionRow
  entry : Json

/-- The audit events and the ledger after versions were recorded, one after the other: each has an
event, under the identifier its entry names, and its entry. -/
inductive Records (pg : PostgresSession) (w : SecretWrite) :
    List AuditEventRow → LedgerDb → List VersionRecord → List AuditEventRow → LedgerDb → Prop
  | nil (events : List AuditEventRow) (ledger : LedgerDb) :
      Records pg w events ledger [] events ledger
  | cons {events events' : List AuditEventRow} {ledger ledger₁ ledger' : LedgerDb}
      {r : VersionRecord} {rest : List VersionRecord} {id : Uuid} {result : AppendLedgerEntryRow}
      (hid : (memberText r.entry "p_source_event_id").bind pg.castUuid = some id)
      (hfresh : ∀ e ∈ events, e.id ≠ id)
      (happend : rpcAppendLedgerEntryFromJsonb pg ledger r.entry = .ok (ledger₁, result))
      (hrest : Records pg w (events ++ [versionEvent id w r.action r.version (some r.entry)])
        ledger₁ rest events' ledger') : Records pg w events ledger (r :: rest) events' ledger'

/-- An append keeps the entries and has the row of its entry. -/
theorem mem_of_rpcAppendLedgerEntryFromJsonb {ledger ledger' : LedgerDb}
    {result : AppendLedgerEntryRow}
    (h : rpcAppendLedgerEntryFromJsonb pg ledger entry = .ok (ledger', result)) :
    ledger.entries <+: ledger'.entries ∧ ∃ row ∈ ledger'.entries, ReadsAs pg entry row := by
  obtain ⟨row, hreads, hreplayed | hinserted⟩ := rpcAppendLedgerEntryFromJsonb_eq_ok h
  · rw [hreplayed.db_eq]
    exact ⟨List.prefix_rfl, row, hreplayed.mem, hreads⟩
  · rw [hinserted.db_eq]
    exact ⟨List.prefix_append _ _, row, List.mem_append_right _ (List.mem_singleton_self _), hreads⟩

theorem Records.entries_prefix {events events' : List AuditEventRow} {ledger ledger' : LedgerDb}
    {records : List VersionRecord} (h : Records pg w events ledger records events' ledger') :
    ledger.entries <+: ledger'.entries := by
  induction h with
  | nil => exact List.prefix_rfl
  | cons _ _ happend _ ih => exact (mem_of_rpcAppendLedgerEntryFromJsonb happend).1.trans ih

/-- Every entry that was recorded is in the ledger. -/
theorem Records.exists_row {events events' : List AuditEventRow} {ledger ledger' : LedgerDb}
    {records : List VersionRecord} (h : Records pg w events ledger records events' ledger') :
    ∀ r ∈ records, ∃ row ∈ ledger'.entries, ReadsAs pg r.entry row := by
  induction h with
  | nil => simp
  | cons _ _ happend hrest ih =>
    obtain ⟨-, row, hrow, hreads⟩ := mem_of_rpcAppendLedgerEntryFromJsonb happend
    exact List.forall_mem_cons.mpr ⟨⟨row, hrest.entries_prefix.subset hrow, hreads⟩, ih⟩

theorem eventId_eq_ok {random id : Uuid} (h : eventId pg random (some entry) = .ok id)
    (hsome : (memberText entry "p_source_event_id").isSome = true) :
    (memberText entry "p_source_event_id").bind pg.castUuid = some id := by
  simp only [eventId, Option.bind_some, Result.bind_eq_ok, Result.pure_eq_ok] at h
  obtain ⟨value, hcast, rfl⟩ := h
  rcases castNullable_eq_ok.mp hcast with ⟨hnone, -⟩ | ⟨t, u, ht, hu, rfl⟩
  · rw [hnone] at hsome
    cases hsome
  · rw [ht, Option.bind_some, hu]
    rfl

theorem VersionRecorded.records {random : Uuid} {db db₁ : SecretDb} {action : String}
    {v : SecretVersionRow} {rest : List VersionRecord} {events' : List AuditEventRow}
    {ledger' : LedgerDb} (h : VersionRecorded pg random db w action v (some entry) db₁)
    (hsome : (memberText entry "p_source_event_id").isSome = true)
    (hrest : Records pg w db₁.auditEvents db₁.ledger rest events' ledger') :
    Records pg w db.auditEvents db.ledger (⟨action, v, entry⟩ :: rest) events' ledger' := by
  obtain ⟨⟨id, ledger, hid, hfresh, ⟨result, happend⟩, rfl⟩, -⟩ := h
  exact .cons (eventId_eq_ok hid hsome) hfresh happend hrest

/-- The entry that was found for a purge. -/
theorem findPurgeLedgerEntry_eq_ok {items : List Json} {purged : SecretVersionRow}
    {found : Option Json} (hentries : w.ledgerEntries = some (.array items))
    (h : findPurgeLedgerEntry pg w purged = .ok found) :
    ∃ entry ∈ items, found = some entry ∧ purgeEntryMatches purged.id entry = true ∧
      PurgeEntryAgrees pg w purged entry := by
  simp only [findPurgeLedgerEntry, hentries, arrayItems, Result.bind_eq_ok, Result.ofOption_eq_ok,
    Result.pure_eq_ok] at h
  obtain ⟨entry, hfind, _, hcheck, rfl⟩ := h
  exact ⟨entry, List.mem_of_find?_eq_some hfind, rfl, List.find?_some hfind,
    checkPurgeEntry_eq_ok hcheck⟩

/-- The entry that was found for the write; no other entry has a type of a write. -/
theorem findWriteLedgerEntry_eq_ok {items : List Json} {found : Option Json}
    (hentries : w.ledgerEntries = some (.array items)) (h : findWriteLedgerEntry pg w = .ok found) :
    ∃ entry ∈ items, found = some entry ∧
      hasEntryType [writeEntryType w.action] entry = true ∧ WriteEntryAgrees pg w entry ∧
      items.countP (hasEntryType ["secret_created", "secret_version_created"]) = 1 := by
  simp only [findWriteLedgerEntry, hentries, arrayItems, Result.bind_eq_ok, Result.ofOption_eq_ok,
    Result.require_eq_ok, beq_iff_eq, Result.pure_eq_ok] at h
  obtain ⟨entry, hfind, _, hcount, _, hcheck, rfl⟩ := h
  exact ⟨entry, List.mem_of_find?_eq_some hfind, rfl, List.find?_some hfind,
    checkWriteEntry_eq_ok hcheck, hcount⟩

/-- A record of a purge, with an entry of the call. -/
structure PurgeRecord (pg : PostgresSession) (w : SecretWrite) (items : List Json)
    (r : VersionRecord) : Prop where
  action : r.action = "version_purge"
  mem : r.entry ∈ items
  found : purgeEntryMatches r.version.id r.entry = true
  agrees : PurgeEntryAgrees pg w r.version r.entry

theorem PurgesRecorded.records {random : ℕ → Uuid} {items : List Json} {db db' : SecretDb}
    {rows : List SecretVersionRow} (h : PurgesRecorded pg random w db rows db')
    (hentries : w.ledgerEntries = some (.array items)) :
    ∃ records : List VersionRecord, records.map VersionRecord.version = rows ∧
      (∀ r ∈ records, PurgeRecord pg w items r) ∧
      Records pg w db.auditEvents db.ledger records db'.auditEvents db'.ledger := by
  induction h with
  | nil db => exact ⟨[], rfl, by simp, .nil _ _⟩
  | @cons db db₁ db' purged rest found hfound hrecord hrest ih =>
    obtain ⟨records, hrows, hpurges, hrecords⟩ := ih
    obtain ⟨entry, hmem, rfl, hmatches, hagrees⟩ := findPurgeLedgerEntry_eq_ok hentries hfound
    refine ⟨⟨"version_purge", purged, entry⟩ :: records, by rw [List.map_cons, hrows], ?_,
      hrecord.records hagrees.sourceEventId hrecords⟩
    exact List.forall_mem_cons.mpr ⟨⟨rfl, hmem, hmatches, hagrees⟩, hpurges⟩

theorem Locked.records_frame {db locked : SecretDb} (h : Locked db w locked) :
    locked.auditEvents = db.auditEvents ∧ locked.ledger = db.ledger := by
  cases h <;> exact ⟨rfl, rfl⟩

/-- **All a write with ledger entries records**: itself, under the only entry of a write type, and
the versions it purges, each with an entry that was found for it. -/
structure WriteRecords (pg : PostgresSession) (w : SecretWrite) (items : List Json) (db : SecretDb)
    (write : Json) (records : List VersionRecord) (db' : SecretDb) : Prop where
  mem : write ∈ items
  hasType : hasEntryType [writeEntryType w.action] write = true
  agrees : WriteEntryAgrees pg w write
  only_one : items.countP (hasEntryType ["secret_created", "secret_version_created"]) = 1
  purges : ∀ r ∈ records, PurgeRecord pg w items r
  records : Records pg w db.auditEvents db.ledger (⟨w.action, w.versionRow, write⟩ :: records)
    db'.auditEvents db'.ledger

theorem Written.records {random : ℕ → Uuid} {items : List Json} {db db' : SecretDb}
    {entry : Option Json} {purged : List SecretVersionRow}
    (h : Written pg random db w entry purged db')
    (hentries : w.ledgerEntries = some (.array items)) :
    ∃ write records, entry = some write ∧ records.map VersionRecord.version = purged ∧
      WriteRecords pg w items db write records db' := by
  obtain ⟨write, hmem, rfl, htype, hagrees, hone⟩ :=
    findWriteLedgerEntry_eq_ok hentries h.entry_found
  obtain ⟨locked, recorded, hlocked, -, hrecorded, -, hpurges⟩ := h.exists_states
  obtain ⟨records, hrows, hpurgeRecords, hrecords⟩ := hpurges.records hentries
  have hall := hrecorded.records hagrees.sourceEventId hrecords
  refine ⟨write, records, rfl, hrows, hmem, htype, hagrees, hone, hpurgeRecords, ?_⟩
  rwa [setCurrentVersion, hlocked.records_frame.1, hlocked.records_frame.2] at hall

/-! ### The elements of the argument -/

/-- The type of a write's entry is one of the two types of writes. -/
theorem hasEntryType_of_writeEntryType {action : String} {item : Json}
    (h : hasEntryType [writeEntryType action] item = true) :
    hasEntryType ["secret_created", "secret_version_created"] item = true := by
  simp only [hasEntryType, Option.any_eq_true, List.contains_iff_mem, List.mem_singleton] at h ⊢
  obtain ⟨type, htype, rfl⟩ := h
  refine ⟨_, htype, ?_⟩
  unfold writeEntryType
  split_ifs
  · exact List.mem_cons_self
  · exact List.mem_cons_of_mem _ List.mem_cons_self

/-- No entry is that of a write and that of a purge. -/
theorem not_hasEntryType_purged {item : Json}
    (h : hasEntryType ["secret_created", "secret_version_created"] item = true) :
    hasEntryType ["secret_version_purged"] item = false := by
  simp only [hasEntryType, Option.any_eq_true, List.contains_iff_mem] at h
  obtain ⟨type, htype, hmem⟩ := h
  simp only [hasEntryType, htype, Option.any_some]
  rcases List.mem_cons.mp hmem with rfl | hmem
  · decide
  · rw [List.mem_singleton.mp hmem]
    decide

/-- The entries of distinct versions are distinct. -/
theorem nodup_map_entry {records : List VersionRecord}
    (hids : (records.map fun r => r.version.id).Nodup)
    (hfound : ∀ r ∈ records, purgeEntryMatches r.version.id r.entry = true) :
    (records.map VersionRecord.entry).Nodup := by
  have htarget : (records.map fun r => memberText r.entry "p_target_secret_version_id") =
      (records.map fun r => r.version.id).map fun id => some id.hyphenated := by
    rw [List.map_map]
    refine List.map_congr_left fun r hr => ?_
    simpa using (Bool.and_eq_true_iff.mp (hfound r hr)).2
  refine List.Nodup.of_map (fun entry => memberText entry "p_target_secret_version_id") ?_
  rw [List.map_map, Function.comp_def, htarget]
  exact hids.map fun a b hab => Uuid.hyphenated_injective (Option.some.inj hab)

/-- **No element is ignored** if each has the type of the write or of a purge: up to their order the
elements are the entries that were recorded. -/
theorem WriteRecords.perm {items : List Json} {db db' : SecretDb} {write : Json}
    {records : List VersionRecord} (h : WriteRecords pg w items db write records db')
    (hids : (records.map fun r => r.version.id).Nodup)
    (hcount : items.countP (hasEntryType ["secret_version_purged"]) = records.length)
    (htypes : ∀ item ∈ items, hasEntryType [writeEntryType w.action] item = true ∨
      hasEntryType ["secret_version_purged"] item = true) :
    items.Perm (write :: records.map VersionRecord.entry) := by
  -- exactly one element is of a write
  have hwrites : items.filter (hasEntryType ["secret_created", "secret_version_created"]) =
      [write] := by
    have hlength := h.only_one
    rw [List.countP_eq_length_filter] at hlength
    obtain ⟨x, hx⟩ := List.length_eq_one_iff.mp hlength
    have hmem := List.mem_filter.mpr ⟨h.mem, hasEntryType_of_writeEntryType h.hasType⟩
    rw [hx, List.mem_singleton] at hmem
    rw [hx, hmem]
  -- the entries of the purged rows are distinct elements, and there are as many of them
  have hpurges : (items.filter (hasEntryType ["secret_version_purged"])).Perm
      (records.map VersionRecord.entry) := by
    have hsub : records.map VersionRecord.entry ⊆
        items.filter (hasEntryType ["secret_version_purged"]) := by
      intro entry hentry
      obtain ⟨r, hr, rfl⟩ := List.mem_map.mp hentry
      have hrecord := h.purges r hr
      exact List.mem_filter.mpr ⟨hrecord.mem, (Bool.and_eq_true_iff.mp hrecord.found).1⟩
    refine ((List.subperm_of_subset (nodup_map_entry hids fun r hr => (h.purges r hr).found)
      hsub).perm_of_length_le ?_).symm
    rw [← List.countP_eq_length_filter, hcount, List.length_map]
  have hrest : items.filter (fun item => !hasEntryType ["secret_version_purged"] item) =
      items.filter (hasEntryType ["secret_created", "secret_version_created"]) := by
    refine List.filter_congr fun item hitem => ?_
    rcases htypes item hitem with hwrite | hpurge
    · have hboth := hasEntryType_of_writeEntryType hwrite
      rw [hboth, not_hasEntryType_purged hboth, Bool.not_false]
    · have hneither : hasEntryType ["secret_created", "secret_version_created"] item = false :=
        Bool.eq_false_iff.mpr fun hboth => by
          rw [not_hasEntryType_purged hboth] at hpurge
          cases hpurge
      rw [hpurge, hneither, Bool.not_true]
  have hsplit := List.filter_append_perm (hasEntryType ["secret_version_purged"]) items
  rw [hrest, hwrites] at hsplit
  exact hsplit.symm.trans ((hpurges.append_right _).trans (List.perm_append_singleton _ _))

/-- **The entries describe the write**: up to their order they are an entry of the write and one for
each purged version, and each stands for a row of the ledger that describes what it is for. -/
def EntriesDescribe (pg : PostgresSession) (ledger : LedgerDb) (w : SecretWrite)
    (purged : List SecretVersionRow) (items : List Json) : Prop :=
  ∃ (write : Json) (records : List VersionRecord),
    items.Perm (write :: records.map VersionRecord.entry) ∧
    records.map VersionRecord.version = purged ∧
    (∃ row ∈ ledger.entries, ReadsAs pg write row ∧ row.entryType = writeEntryType w.action ∧
      DescribesWrite pg w row) ∧
    ∀ r ∈ records, ∃ row ∈ ledger.entries, ReadsAs pg r.entry row ∧
      row.entryType = "secret_version_purged" ∧ DescribesVersion pg w r.version row

/-- Each element has the type of the write's entry or of a purge's, and every member that its
comparisons look at. -/
def entriesAreComplete (w : SecretWrite) (items : List Json) : Bool :=
  items.all fun item =>
    (hasEntryType [writeEntryType w.action] item && writeEntryIsComplete item) ||
      (hasEntryType ["secret_version_purged"] item && purgeEntryIsComplete item)

theorem ReadsAs.hasEntryType {types : List String} (h : ReadsAs pg entry row) :
    hasEntryType types entry = true ↔ row.entryType ∈ types := by
  rw [Sql.hasEntryType, h.columns.entryType, Option.any_some, List.contains_iff_mem]

theorem EntriesDescribe.areComplete {ledger : LedgerDb} {purged : List SecretVersionRow}
    {items : List Json} (h : EntriesDescribe pg ledger w purged items) :
    entriesAreComplete w items = true := by
  obtain ⟨write, records, hperm, -, ⟨row, -, hreads, htype, hdescribes⟩, hpurges⟩ := h
  refine List.all_eq_true.mpr fun item hitem => ?_
  rw [Bool.or_eq_true, Bool.and_eq_true, Bool.and_eq_true]
  rcases List.mem_cons.mp (hperm.mem_iff.mp hitem) with rfl | hpurge
  · exact .inl ⟨hreads.hasEntryType.mpr (List.mem_singleton.mpr htype),
      hdescribes.isComplete hreads.columns⟩
  · obtain ⟨r, hr, rfl⟩ := List.mem_map.mp hpurge
    obtain ⟨row, -, hreads, htype, hdescribes⟩ := hpurges r hr
    exact .inr ⟨hreads.hasEntryType.mpr (List.mem_singleton.mpr htype),
      hdescribes.isComplete hreads.columns⟩

/-- **What the procedure accepts**: the entries of a write that committed describe it exactly if
they are complete. -/
theorem Written.entriesDescribe_iff {random : ℕ → Uuid} {items : List Json} {db db' : SecretDb}
    {found : Option Json} {purged : List SecretVersionRow}
    (h : Written pg random db w found purged db') (hkeys : db.PrimaryKeys)
    (hentries : w.ledgerEntries = some (.array items)) :
    EntriesDescribe pg db'.ledger w purged items ↔ entriesAreComplete w items = true := by
  refine ⟨EntriesDescribe.areComplete, fun hcomplete => ?_⟩
  obtain ⟨write, records, -, rfl, hrecords⟩ := h.records hentries
  have hdevice := h.device_ne_empty
  simp only [entriesAreComplete, List.all_eq_true, Bool.or_eq_true, Bool.and_eq_true] at hcomplete
  have hids : (records.map fun r => r.version.id).Nodup := by
    have hnodup := h.purged_ids_nodup hkeys
    rwa [List.map_map] at hnodup
  -- the procedure counts the entries of purges itself
  have hcount : items.countP (hasEntryType ["secret_version_purged"]) = records.length := by
    simpa [checkPurgeCount, hentries, arrayItems] using h.count
  obtain ⟨⟨row, hrow, hreads⟩, hrows⟩ := List.forall_mem_cons.mp hrecords.records.exists_row
  refine ⟨write, records, hrecords.perm hids hcount fun item hitem =>
    (hcomplete item hitem).imp And.left And.left, rfl, ⟨row, hrow, hreads, ?_, ?_⟩, fun r hr => ?_⟩
  · exact List.mem_singleton.mp (hreads.hasEntryType.mp hrecords.hasType)
  · refine hreads.columns.describesWrite hrecords.agrees hdevice ?_
    rcases hcomplete write hrecords.mem with hwrite | hpurge
    · exact hwrite.2
    · rw [not_hasEntryType_purged (hasEntryType_of_writeEntryType hrecords.hasType)] at hpurge
      cases hpurge.1
  · obtain ⟨row, hrow, hreads⟩ := hrows r hr
    have hrecord := hrecords.purges r hr
    obtain ⟨htype, htarget⟩ := Bool.and_eq_true_iff.mp hrecord.found
    refine ⟨row, hrow, hreads, List.mem_singleton.mp (hreads.hasEntryType.mp htype), ?_⟩
    refine hreads.columns.describesVersion hrecord.agrees.toEntryAgrees hdevice
      hrecord.agrees.version hrecord.agrees.keyVersion (by simpa using htarget) ?_
    rcases hcomplete r.entry hrecord.mem with hwrite | hpurge
    · rw [not_hasEntryType_purged (hasEntryType_of_writeEntryType hwrite.1)] at htype
      cases htype
    · exact hpurge.2

end Sql

end Mipsorcu
