import Mipsorcu.Database.KeyRotation
import Mipsorcu.Database.SecretAlias
import Mipsorcu.Foundation.Retention
import Mipsorcu.Protocol.LedgerAppend

/-!
# The secret store over whole runs

A run of the store is a sequence of transactions with arbitrary arguments, in any order: each call
of a procedure either commits, or raises and leaves every table as it was. Next to the tables a run
keeps the writes that committed, in their order.

The abstract model of the store is that history. `StoreInv` connects the two: the versions of a
secret in the tables are, up to their envelopes, the last four of the history
(`Retention.keepLast`), the history of a secret is numbered from one, and the secret's row is given
by the first and the last of its writes. Every transaction keeps it (`StoreInv.step`), so it holds
of every run (`storeInv_of_run`).
-/

namespace Mipsorcu

open Sql Retention

/-! ### Transactions -/

/-- A call of a procedure that changes the tables. The calls of `gen_random_uuid` it makes return
the identifiers it carries. -/
inductive StoreCall where
  | writeSecretVersion (random : ℕ → Uuid) (args : WriteSecretVersionArgs)
  | applyKeyRotationBatch (args : KeyRotationArgs) (rows : Option Json)
  | completeKeyRotation (args : KeyRotationArgs)
  | createSecretAlias (random : Uuid) (args : AliasCallArgs) (secretId : Option Uuid)
      (material : AliasMaterialArgs) (createdAt : Option ℤ)
  | updateSecretAlias (random : Uuid) (args : AliasCallArgs) (material : AliasMaterialArgs)
  | deleteSecretAlias (random : Uuid) (args : AliasCallArgs)
  | appendAuditEvent (args : AppendAuditEventArgs)
  | appendAuditEventWithLedger (audit : AppendAuditEventArgs) (entry : AppendLedgerEntryArgs)
  | appendLedgerEntry (args : AppendLedgerEntryArgs)

namespace StoreCall

/-- The tables after the call, or the exception it raised. -/
def run (pg : PostgresSession) (db : SecretDb) : StoreCall → Except SqlError SecretDb
  | .writeSecretVersion random args => Prod.fst <$> rpcWriteSecretVersion pg random db args
  | .applyKeyRotationBatch args rows => Prod.fst <$> rpcApplyKeyRotationBatch pg db args rows
  | .completeKeyRotation args => Prod.fst <$> rpcCompleteKeyRotation pg db args
  | .createSecretAlias random args secretId material createdAt =>
    Prod.fst <$> rpcCreateSecretAlias pg random db args secretId material createdAt
  | .updateSecretAlias random args material =>
    Prod.fst <$> rpcUpdateSecretAlias pg random db args material
  | .deleteSecretAlias random args => Prod.fst <$> rpcDeleteSecretAlias pg random db args
  | .appendAuditEvent args => Prod.fst <$> rpcAppendAuditEvent pg db args
  | .appendAuditEventWithLedger audit entry =>
    Prod.fst <$> rpcAppendAuditEventWithLedger pg db audit entry
  | .appendLedgerEntry args =>
    (fun result => { db with ledger := result.1 }) <$>
      rpcAppendLedgerEntry pg.toPostgres db.ledger args

/-- The write a call makes if it commits. -/
def write? : StoreCall → Option SecretWrite
  | .writeSecretVersion _ args => args.write?
  | _ => none

end StoreCall

/-- The tables and the history of the writes that committed. -/
structure StoreState where
  db : SecretDb
  writes : List SecretWrite

namespace StoreState

/-- One transaction. -/
def step (pg : PostgresSession) (s : StoreState) (call : StoreCall) : StoreState :=
  match call.run pg s.db with
  | .ok db => ⟨db, s.writes ++ call.write?.toList⟩
  | .error _ => s

/-- The state of a new database. -/
def init (users : List Uuid) (signingPublicKeys : List LedgerSigningPublicKeyRow) : StoreState :=
  ⟨emptyStore users signingPublicKeys, []⟩

/-- Some sequence of transactions leads from `s` to `s'`. -/
def Run (pg : PostgresSession) : StoreState → StoreState → Prop :=
  Transition.Reachable fun s call => some (step pg s call)

end StoreState

/-! ### The history of a secret -/

/-- The writes of a secret. -/
def writesOf (writes : List SecretWrite) (id : Uuid) : List SecretWrite :=
  writes.filter fun w => w.secretId == id

@[simp]
theorem writesOf_append (writes writes' : List SecretWrite) (id : Uuid) :
    writesOf (writes ++ writes') id = writesOf writes id ++ writesOf writes' id :=
  List.filter_append _ _

theorem mem_writesOf {writes : List SecretWrite} {id : Uuid} {w : SecretWrite} :
    w ∈ writesOf writes id ↔ w ∈ writes ∧ w.secretId = id := by
  simp [writesOf]

theorem writesOf_singleton (w : SecretWrite) (id : Uuid) :
    writesOf [w] id = if w.secretId = id then [w] else [] := by
  by_cases h : w.secretId = id <;> simp [writesOf, h]

/-- The columns of a version that no rewrap touches. -/
def SecretVersionRow.withoutEnvelope (v : SecretVersionRow) : SecretVersionRow :=
  { v with encryptedDataKey := [], keyVersion := 0 }

/-- The version a write stored, without its envelope. -/
def Sql.SecretWrite.stored (w : SecretWrite) : SecretVersionRow :=
  w.versionRow.withoutEnvelope

/-- The row of a secret whose first and last writes are given. -/
def secretRowOf (first last : SecretWrite) : SecretRow where
  id := first.secretId
  currentVersionId := some last.secretVersionId
  ownerUserId := first.ownerUserId
  classification := first.classification
  createdAt := first.createdAt

/-- **The tables refine the history.** -/
structure StoreInv (db : SecretDb) (writes : List SecretWrite) : Prop
    extends db.PrimaryKeys where
  retained : ∀ id, (db.versionsOf id).map SecretVersionRow.withoutEnvelope =
    keepLast 4 ((writesOf writes id).map SecretWrite.stored)
  numbered : ∀ id, (writesOf writes id).map SecretWrite.version =
    (List.range' 1 (writesOf writes id).length).map Nat.cast
  context : ∀ w ∈ writes, aadContextMatches w = true
  secret_of_writes : ∀ secret ∈ db.secrets, ∃ first last,
    (writesOf writes secret.id).head? = some first ∧
    (writesOf writes secret.id).getLast? = some last ∧ secret = secretRowOf first last
  write_of_secret : ∀ w ∈ writes, ∃ secret ∈ db.secrets, secret.id = w.secretId ∧
    secret.ownerUserId = w.ownerUserId ∧ secret.classification = w.classification
  nonces_nodup : ∀ id, ((db.versionsOf id).map SecretVersionRow.nonceOrIv).Nodup

/-! ### Transactions that do not write a version -/

/-- The secrets and their versions are as they were, up to the envelopes. -/
structure EnvelopesOnly (db db' : SecretDb) : Prop where
  users : db'.users = db.users
  secrets : db'.secrets = db.secrets
  versions : db'.secretVersions.map SecretVersionRow.withoutEnvelope =
    db.secretVersions.map SecretVersionRow.withoutEnvelope

theorem map_withoutEnvelope_versionsOf (db : SecretDb) (id : Uuid) :
    (db.versionsOf id).map SecretVersionRow.withoutEnvelope =
      (db.secretVersions.map SecretVersionRow.withoutEnvelope).filter
        fun v => v.secretId == id := by
  rw [List.filter_map]
  rfl

theorem EnvelopesOnly.versionsOf {db db' : SecretDb} (h : EnvelopesOnly db db') (id : Uuid) :
    (db'.versionsOf id).map SecretVersionRow.withoutEnvelope =
      (db.versionsOf id).map SecretVersionRow.withoutEnvelope := by
  rw [map_withoutEnvelope_versionsOf, map_withoutEnvelope_versionsOf, h.versions]

/-- A column other than the envelope's is the same in rows that agree up to the envelope. -/
theorem map_column {β : Type} (column : SecretVersionRow → β)
    (hcolumn : ∀ v, column v.withoutEnvelope = column v) (rows : List SecretVersionRow) :
    rows.map column = (rows.map SecretVersionRow.withoutEnvelope).map column := by
  rw [List.map_map]
  exact List.map_congr_left fun v _ => (hcolumn v).symm

variable {pg : PostgresSession}

theorem Sql.Rewrapped.envelopesOnly {db db' : SecretDb} {r : KeyRotation} {rows : List RotationRow}
    (h : Rewrapped pg db r rows db') : EnvelopesOnly db db' := by
  rw [h.recorded.frame]
  refine ⟨rfl, rfl, ?_⟩
  rw [rewrapVersions, List.map_map]
  refine List.map_congr_left fun v _ => ?_
  rw [Function.comp_apply, rewrapVersion_frame]
  rfl

theorem Sql.AliasEffect.envelopesOnly {db db' : SecretDb} {random : Uuid}
    (h : AliasEffect pg db random db') : EnvelopesOnly db db' := by
  obtain ⟨⟨aliases, event, -, -, -, -, rfl⟩, -⟩ := h
  exact ⟨rfl, rfl, rfl⟩

/-- What a committed transaction does to the tables, by the procedure it calls. -/
inductive StoreCall.Effect (pg : PostgresSession) (db db' : SecretDb) : StoreCall → Prop
  | written {random : ℕ → Uuid} {args : WriteSecretVersionArgs} {w : SecretWrite}
      {entry : Option Json} {purged : List SecretVersionRow} (hw : args.write? = some w)
      (h : Written pg random db w entry purged db') :
      Effect pg db db' (.writeSecretVersion random args)
  | rewrapped {args : KeyRotationArgs} {rows : Option Json} {r : KeyRotation}
      {parsed : List RotationRow} (hr : args.rotation? = some r)
      (hrows : rotationRows? rows = some parsed) (h : Rewrapped pg db r parsed db') :
      Effect pg db db' (.applyKeyRotationBatch args rows)
  | completed {args : KeyRotationArgs} {r : KeyRotation} (hr : args.rotation? = some r)
      (hzero : db.countAt r.oldKeyVersion = 0)
      (hchecked : checkRotationEntry pg "key_rotation_completed" r = .ok ())
      (h : RotationRecorded pg db "key_rotation_complete" r (completePayload r 0) db') :
      Effect pg db db' (.completeKeyRotation args)
  | aliasCreated {random : Uuid} {args : AliasCallArgs} {secretId : Option Uuid}
      {material : AliasMaterialArgs} {createdAt : Option ℤ} (h : AliasEffect pg db random db') :
      Effect pg db db' (.createSecretAlias random args secretId material createdAt)
  | aliasUpdated {random : Uuid} {args : AliasCallArgs} {material : AliasMaterialArgs}
      (h : AliasEffect pg db random db') :
      Effect pg db db' (.updateSecretAlias random args material)
  | aliasDeleted {random : Uuid} {args : AliasCallArgs} (h : AliasEffect pg db random db') :
      Effect pg db db' (.deleteSecretAlias random args)
  | auditAppended {args : AppendAuditEventArgs} {event : AuditEventRow} {id : Uuid}
      (hevent : args.row? = some event) (h : Sql.appendAuditEvent pg db event = .ok (db', id)) :
      Effect pg db db' (.appendAuditEvent args)
  | appendedWithLedger {audit : AppendAuditEventArgs} {entry : AppendLedgerEntryArgs}
      {event : AuditEventRow} {row : LedgerEntryRow} {result : AppendLedgerEntryRow}
      (hevent : audit.row? = some event) (h : AppendedWithLedger pg db event row db' result) :
      Effect pg db db' (.appendAuditEventWithLedger audit entry)
  | ledgerAppended {args : AppendLedgerEntryArgs} {row : LedgerEntryRow}
      {result : AppendLedgerEntryRow} (hrow : args.row? = some row)
      (h : Replayed db.ledger row db'.ledger result ∨ Inserted db.ledger row db'.ledger result)
      (hframe : db' = { db with ledger := db'.ledger }) :
      Effect pg db db' (.appendLedgerEntry args)

/-- **All a committed transaction can do.** -/
theorem StoreCall.effect {db db' : SecretDb} {call : StoreCall} (h : call.run pg db = .ok db') :
    call.Effect pg db db' := by
  -- one case per procedure; each follows from the specification of the procedure
  cases call with
  | writeSecretVersion random args =>
    simp only [run, rpcWriteSecretVersion, Result.map_eq_ok, Result.bind_eq_ok,
      Result.ofOption_eq_ok, Prod.exists] at h
    obtain ⟨_, result, ⟨w, hw, hwrite⟩, rfl⟩ := h
    obtain ⟨entry, purged, hwritten, -⟩ := writeSecretVersion_eq_ok hwrite
    exact .written hw hwritten
  | applyKeyRotationBatch args rows =>
    simp only [run, Result.map_eq_ok, Prod.exists] at h
    obtain ⟨_, processed, remaining, happly, rfl⟩ := h
    obtain ⟨r, parsed, hr, hparsed, hrewrapped, -⟩ := rpcApplyKeyRotationBatch_eq_ok happly
    exact .rewrapped hr hparsed hrewrapped
  | completeKeyRotation args =>
    simp only [run, Result.map_eq_ok, Prod.exists] at h
    obtain ⟨_, remaining, hcomplete, rfl⟩ := h
    obtain ⟨r, hr, -, hzero, hchecked, hrecorded⟩ := rpcCompleteKeyRotation_eq_ok hcomplete
    exact .completed hr hzero hchecked hrecorded
  | createSecretAlias random args secretId material createdAt =>
    simp only [run, Result.map_eq_ok, Prod.exists] at h
    obtain ⟨_, id, hcreate, rfl⟩ := h
    exact .aliasCreated (rpcCreateSecretAlias_eq_ok hcreate)
  | updateSecretAlias random args material =>
    simp only [run, Result.map_eq_ok, Prod.exists] at h
    obtain ⟨_, fingerprint, hupdate, rfl⟩ := h
    exact .aliasUpdated (rpcUpdateSecretAlias_eq_ok hupdate)
  | deleteSecretAlias random args =>
    simp only [run, Result.map_eq_ok, Prod.exists] at h
    obtain ⟨_, fingerprint, hdelete, rfl⟩ := h
    exact .aliasDeleted (rpcDeleteSecretAlias_eq_ok hdelete)
  | appendAuditEvent args =>
    simp only [run, rpcAppendAuditEvent, Result.map_eq_ok, Result.bind_eq_ok,
      Result.ofOption_eq_ok, Prod.exists] at h
    obtain ⟨_, id, ⟨event, hevent, happend⟩, rfl⟩ := h
    exact .auditAppended hevent happend
  | appendAuditEventWithLedger audit entry =>
    simp only [run, Result.map_eq_ok, Prod.exists] at h
    obtain ⟨_, result, happend, rfl⟩ := h
    obtain ⟨event, row, hevent, -, happended⟩ := rpcAppendAuditEventWithLedger_eq_ok happend
    exact .appendedWithLedger hevent happended
  | appendLedgerEntry args =>
    simp only [run, Result.map_eq_ok, Prod.exists] at h
    obtain ⟨ledger, result, happend, rfl⟩ := h
    obtain ⟨row, hrow, hcases⟩ := rpcAppendLedgerEntry_eq_ok happend
    exact .ledgerAppended hrow hcases rfl

/-- A transaction writes a version, or changes nothing of the secrets and their versions but
envelopes. -/
theorem StoreCall.run_eq_ok {db db' : SecretDb} {call : StoreCall} (h : call.run pg db = .ok db') :
    (∃ random w entry purged, call.write? = some w ∧ Written pg random db w entry purged db') ∨
      (call.write? = none ∧ EnvelopesOnly db db') := by
  cases StoreCall.effect h with
  | written hw hwritten => exact .inl ⟨_, _, _, _, hw, hwritten⟩
  | rewrapped _ _ hrewrapped => exact .inr ⟨rfl, hrewrapped.envelopesOnly⟩
  | completed _ _ _ hrecorded =>
    rw [hrecorded.frame]
    exact .inr ⟨rfl, rfl, rfl, rfl⟩
  | aliasCreated heffect => exact .inr ⟨rfl, heffect.envelopesOnly⟩
  | aliasUpdated heffect => exact .inr ⟨rfl, heffect.envelopesOnly⟩
  | aliasDeleted heffect => exact .inr ⟨rfl, heffect.envelopesOnly⟩
  | auditAppended _ happend =>
    obtain ⟨events, rfl⟩ := appendAuditEvent_frame happend
    exact .inr ⟨rfl, rfl, rfl, rfl⟩
  | appendedWithLedger _ happended =>
    obtain ⟨recorded, happend, -, hframe⟩ := happended.exists_db
    obtain ⟨events, rfl⟩ := appendAuditEvent_frame happend
    rw [hframe]
    exact .inr ⟨rfl, rfl, rfl, rfl⟩
  | ledgerAppended _ _ hframe =>
    rw [hframe]
    exact .inr ⟨rfl, rfl, rfl, rfl⟩

namespace StoreInv

theorem envelopesOnly {db db' : SecretDb} {writes : List SecretWrite} (hinv : StoreInv db writes)
    (h : EnvelopesOnly db db') : StoreInv db' writes where
  version_ids_nodup := by
    have hid := hinv.version_ids_nodup
    rw [map_column _ fun _ => rfl] at hid ⊢
    rwa [h.versions]
  secret_ids_nodup := h.secrets ▸ hinv.secret_ids_nodup
  retained id := (h.versionsOf id).trans (hinv.retained id)
  numbered := hinv.numbered
  context := hinv.context
  secret_of_writes := h.secrets ▸ hinv.secret_of_writes
  write_of_secret := h.secrets ▸ hinv.write_of_secret
  nonces_nodup id := by
    have hnonces := hinv.nonces_nodup id
    rw [map_column _ fun _ => rfl] at hnonces ⊢
    rwa [h.versionsOf]

theorem empty (users : List Uuid) (signingPublicKeys : List LedgerSigningPublicKeyRow) :
    StoreInv (emptyStore users signingPublicKeys) [] where
  version_ids_nodup := List.nodup_nil
  secret_ids_nodup := List.nodup_nil
  retained _ := rfl
  numbered _ := rfl
  context := by simp
  secret_of_writes := by simp [emptyStore]
  write_of_secret := by simp
  nonces_nodup _ := List.nodup_nil

/-- The pointer of a secret names the version of its last write, whose number is the number of its
writes. -/
theorem current {db : SecretDb} {writes : List SecretWrite} (hinv : StoreInv db writes)
    {secret : SecretRow} (hsecret : secret ∈ db.secrets) :
    ∃ row ∈ db.versionsOf secret.id, secret.currentVersionId = some row.id ∧
      row.version = (writesOf writes secret.id).length := by
  obtain ⟨first, last, -, hlast, hrow⟩ := hinv.secret_of_writes secret hsecret
  -- the last row of the secret in the table is the one the last write stored
  have hlast_row : ((db.versionsOf secret.id).map SecretVersionRow.withoutEnvelope).getLast? =
      some last.stored := by
    rw [hinv.retained, getLast?_keepLast (by decide), List.getLast?_map, hlast, Option.map_some]
  rw [List.getLast?_map, Option.map_eq_some_iff] at hlast_row
  obtain ⟨row, hgetLast, hstored⟩ := hlast_row
  have hversion : last.version = ((writesOf writes secret.id).length : ℕ) := by
    have hnumbers := congrArg List.getLast? (hinv.numbered secret.id)
    rw [List.getLast?_map, hlast, Option.map_some, List.getLast?_map,
      List.getLast?_range'] at hnumbers
    split_ifs at hnumbers with hzero
    · cases hnumbers
    · simpa using hnumbers
  refine ⟨row, List.mem_of_getLast? hgetLast, ?_, ?_⟩
  · rw [show row.id = last.secretVersionId from congrArg SecretVersionRow.id hstored, hrow]
    rfl
  · rw [show row.version = last.version from congrArg SecretVersionRow.version hstored, hversion]

/-- The lock lets a write through only if its version is the next one. -/
theorem next_version {db locked : SecretDb} {writes : List SecretWrite} {w : SecretWrite}
    (hinv : StoreInv db writes) (h : Locked db w locked) :
    w.version = (writesOf writes w.secretId).length + 1 := by
  cases h with
  | created hnone hversion =>
    have hnil : writesOf writes w.secretId = [] := by
      refine List.filter_eq_nil_iff.mpr fun w' hw' hid => ?_
      obtain ⟨secret, hsecret, hsecretId, -⟩ := hinv.write_of_secret w' hw'
      exact hnone secret hsecret (hsecretId.trans (by simpa using hid))
    rw [hversion, hnil]
    rfl
  | found secret current hsecret hid _ _ _ hcurrent _ hpointer hversion =>
    obtain ⟨row, hrow, hpointer', hnumber⟩ := hinv.current hsecret
    have heq : current = row := by
      refine List.inj_on_of_nodup_map hinv.version_ids_nodup hcurrent
        (List.mem_filter.mp hrow).1 ?_
      exact Option.some.inj (hpointer.symm.trans hpointer')
    rw [hversion, heq, hnumber, hid]

end StoreInv

/-! ### A write -/

/-- The versions of the secret that a write leaves are those that retention keeps. -/
theorem deletePurged_versionsOf (db : SecretDb) (id : Uuid) :
    (deletePurged db id).versionsOf id =
      expire SecretVersionRow.version SecretVersionRow.id 4 (db.versionsOf id) :=
  List.filter_comm _ _ _

/-- The versions of other secrets stay. -/
theorem deletePurged_versionsOf_of_ne {db : SecretDb} {id id' : Uuid}
    (hids : (db.secretVersions.map SecretVersionRow.id).Nodup) (hne : id' ≠ id) :
    (deletePurged db id).versionsOf id' = db.versionsOf id' := by
  refine (List.filter_comm _ _ _).trans (List.filter_eq_self.mpr fun v hv => ?_)
  simp only [Bool.not_eq_true', List.any_eq_false, beq_iff_eq]
  intro c hc hid
  have hc' : c ∈ db.versionsOf id :=
    (List.perm_insertionSort _ _).mem_iff.mp (List.mem_of_mem_drop hc)
  simp only [SecretDb.versionsOf, List.mem_filter, beq_iff_eq] at hv hc'
  have hcv : c = v := List.inj_on_of_nodup_map hids hc'.1 hv.1 hid
  exact hne (hv.2.symm.trans (hcv ▸ hc'.2))

namespace StoreInv

variable {db db' locked : SecretDb} {writes : List SecretWrite} {w : SecretWrite}

/-- The history stays numbered. -/
theorem numbered_append (hinv : StoreInv db writes) (hlocked : Locked db w locked) (id : Uuid) :
    (writesOf (writes ++ [w]) id).map SecretWrite.version =
      (List.range' 1 (writesOf (writes ++ [w]) id).length).map Nat.cast := by
  rw [writesOf_append, writesOf_singleton]
  split_ifs with hid
  · subst hid
    rw [List.map_append, List.length_append, List.length_singleton, hinv.numbered,
      List.range'_append_1.symm, List.map_append, List.map_singleton, hinv.next_version hlocked]
    simp [add_comm]
  · rw [List.append_nil]
    exact hinv.numbered id

/-- With the new version, the versions of the secret in the table have increasing numbers. -/
theorem versions_increasing (hinv : StoreInv db writes) (hlocked : Locked db w locked) :
    (db.versionsOf w.secretId ++ [w.versionRow]).Pairwise fun a b => a.version < b.version := by
  have hhistory : ((writesOf (writes ++ [w]) w.secretId).map SecretWrite.version).Pairwise
      (· < ·) := by
    rw [hinv.numbered_append hlocked, List.pairwise_map]
    exact (List.pairwise_lt_range' 1).imp Int.ofNat_lt.mpr
  have hsublist : List.Sublist
      ((db.versionsOf w.secretId ++ [w.versionRow]).map SecretVersionRow.version)
      ((writesOf (writes ++ [w]) w.secretId).map SecretWrite.version) := by
    rw [map_column _ fun _ => rfl, List.map_append, hinv.retained, writesOf_append,
      writesOf_singleton, if_pos rfl]
    have hkeep := (keepLast_sublist 4 ((writesOf writes w.secretId).map SecretWrite.stored)).append
      (List.Sublist.refl [w.stored])
    have hmap := hkeep.map SecretVersionRow.version
    rwa [← List.map_singleton (f := SecretWrite.stored), ← List.map_append, List.map_map] at hmap
  exact List.pairwise_map.mp (hhistory.sublist hsublist)

/-- The versions of every secret after the write. -/
theorem versionsOf_write (hinv : StoreInv db writes) (hlocked : Locked db w locked)
    (hfresh : ∀ v ∈ db.secretVersions, v.id ≠ w.secretVersionId) (id : Uuid) :
    (deletePurged { db with secretVersions := db.secretVersions ++ [w.versionRow] }
      w.secretId).versionsOf id =
      if w.secretId = id then keepLast 4 (db.versionsOf id ++ [w.versionRow])
      else db.versionsOf id := by
  have hids := Keyed.nodup_concat (a := w.versionRow) hinv.version_ids_nodup hfresh
  split_ifs with hid
  · subst hid
    rw [deletePurged_versionsOf, ← versionsOf_append_versionRow, expire_eq_keepLast]
    · rw [versionsOf_append_versionRow]
      exact hinv.versions_increasing hlocked
    · exact Keyed.nodup_filter hids _
  · rw [deletePurged_versionsOf_of_ne hids (Ne.symm hid), SecretDb.versionsOf, List.filter_append,
      SecretDb.versionsOf]
    simp [SecretWrite.versionRow, hid]

/-- A secret the lock leaves: the new one, which has no writes yet, or one that was there. -/
theorem locked_secret (hinv : StoreInv db writes) (hlocked : Locked db w locked) {s : SecretRow}
    (hs : s ∈ locked.secrets) : (s.id = w.secretId ∧ writesOf writes s.id = [] ∧
      s = { secretRowOf w w with currentVersionId := none }) ∨ s ∈ db.secrets := by
  cases hlocked with
  | found => exact .inr hs
  | created hnone =>
    rcases List.mem_append.mp hs with hs | hs
    · exact .inr hs
    · rw [List.mem_singleton] at hs
      subst hs
      refine .inl ⟨rfl, List.filter_eq_nil_iff.mpr fun w' hw' hid => ?_, rfl⟩
      obtain ⟨secret, hsecret, hsecretId, -⟩ := hinv.write_of_secret w' hw'
      exact hnone secret hsecret (hsecretId.trans (by simpa using hid))

/-- The row of every secret after the write is given by the first and the last of its writes. -/
theorem secret_of_writes_append (hinv : StoreInv db writes) (hlocked : Locked db w locked) :
    ∀ secret ∈ (setCurrentVersion locked w).secrets, ∃ first last,
      (writesOf (writes ++ [w]) secret.id).head? = some first ∧
      (writesOf (writes ++ [w]) secret.id).getLast? = some last ∧
      secret = secretRowOf first last := by
  intro secret hsecret
  obtain ⟨s, hs, rfl⟩ := List.mem_map.mp hsecret
  by_cases hid : s.id = w.secretId
  · -- the secret of the write: its pointer moves to the new version
    simp only [if_pos hid]
    rw [writesOf_append, writesOf_singleton, if_pos hid.symm, List.getLast?_concat]
    rcases hinv.locked_secret hlocked hs with ⟨-, hnil, rfl⟩ | hold
    · exact ⟨w, w, by rw [hnil]; rfl, rfl, rfl⟩
    · obtain ⟨first, last, hfirst, -, hrow⟩ := hinv.secret_of_writes s hold
      refine ⟨first, w, by rw [List.head?_append, hfirst, Option.some_or], rfl, ?_⟩
      rw [hrow]
      rfl
  · simp only [if_neg hid]
    rw [writesOf_append, writesOf_singleton, if_neg (Ne.symm hid), List.append_nil]
    rcases hinv.locked_secret hlocked hs with ⟨hnew, -⟩ | hold
    · exact absurd hnew hid
    · exact hinv.secret_of_writes s hold

/-- Every write is a write of a secret with its owner and classification. -/
theorem write_of_secret_append (hinv : StoreInv db writes) (hlocked : Locked db w locked) :
    ∀ w' ∈ writes ++ [w], ∃ secret ∈ (setCurrentVersion locked w).secrets,
      secret.id = w'.secretId ∧ secret.ownerUserId = w'.ownerUserId ∧
      secret.classification = w'.classification := by
  -- moving the pointer keeps the other columns, so the secrets of the lock are enough
  suffices h : ∀ w' ∈ writes ++ [w], ∃ secret ∈ locked.secrets, secret.id = w'.secretId ∧
      secret.ownerUserId = w'.ownerUserId ∧ secret.classification = w'.classification by
    intro w' hw'
    obtain ⟨s, hs, hcolumns⟩ := h w' hw'
    refine ⟨_, List.mem_map_of_mem hs, ?_⟩
    split_ifs
    · exact hcolumns
    · exact hcolumns
  intro w' hw'
  rcases List.mem_append.mp hw' with hold | hnew
  · obtain ⟨secret, hsecret, hcolumns⟩ := hinv.write_of_secret w' hold
    refine ⟨secret, ?_, hcolumns⟩
    cases hlocked with
    | created => exact List.mem_append_left _ hsecret
    | found => exact hsecret
  · rw [List.mem_singleton] at hnew
    subst hnew
    cases hlocked with
    | created => exact ⟨_, List.mem_append_right _ (List.mem_singleton_self _), rfl, rfl, rfl⟩
    | found secret _ hsecret hid howner hclassification =>
      exact ⟨secret, hsecret, hid, howner, hclassification⟩

/-- A write adds itself to the history. -/
theorem written {pg : PostgresSession} {random : ℕ → Uuid} {entry : Option Json}
    {purged : List SecretVersionRow} (hinv : StoreInv db writes)
    (h : Written pg random db w entry purged db') : StoreInv db' (writes ++ [w]) := by
  obtain ⟨locked, hlocked, -, hsecrets, hversions, hinsert⟩ := h.tables
  obtain ⟨-, -, hnonce, -⟩ := insertSecretVersion_eq_ok.mp hinsert
  rw [hlocked.frame.2] at hnonce
  -- per secret, a write appends its row and keeps the last four
  have hversionsOf : ∀ id, db'.versionsOf id = if w.secretId = id then
      keepLast 4 (db.versionsOf id ++ [w.versionRow]) else db.versionsOf id := fun id => by
    rw [← hinv.versionsOf_write hlocked h.fresh id, SecretDb.versionsOf, hversions]
    rfl
  constructor
  case toPrimaryKeys => exact h.primaryKeys hinv.toPrimaryKeys
  case retained =>
    intro id
    rw [hversionsOf, writesOf_append, writesOf_singleton]
    split_ifs with hid
    · rw [map_keepLast, List.map_append, hinv.retained, List.map_append]
      exact keepLast_append 4 _ _
    · rw [List.append_nil]
      exact hinv.retained id
  case numbered => exact hinv.numbered_append hlocked
  case context =>
    intro w' hw'
    rcases List.mem_append.mp hw' with hold | hnew
    · exact hinv.context w' hold
    · exact List.mem_singleton.mp hnew ▸ h.context
  case secret_of_writes => exact hsecrets ▸ hinv.secret_of_writes_append hlocked
  case write_of_secret => exact hsecrets ▸ hinv.write_of_secret_append hlocked
  -- the unique constraint speaks of the secret's own rows only
  case nonces_nodup =>
    intro id
    rw [hversionsOf]
    split_ifs with hid
    · refine List.Nodup.sublist (List.Sublist.map _ (keepLast_sublist _ _)) ?_
      refine Keyed.nodup_concat (hinv.nonces_nodup id) fun v hv => ?_
      simp only [SecretDb.versionsOf, List.mem_filter, beq_iff_eq] at hv
      exact hnonce v hv.1 (hv.2.trans hid.symm)
    · exact hinv.nonces_nodup id

/-- Every transaction keeps the invariant. -/
theorem step {pg : PostgresSession} {s : StoreState} (hinv : StoreInv s.db s.writes)
    (call : StoreCall) : StoreInv (s.step pg call).db (s.step pg call).writes := by
  unfold StoreState.step
  cases hrun : call.run pg s.db with
  | error => exact hinv
  | ok db' =>
    rcases StoreCall.run_eq_ok hrun with ⟨random, w, entry, purged, hw, hwritten⟩ | ⟨hnone, honly⟩
    · simp only [hw, Option.toList_some]
      exact hinv.written hwritten
    · simp only [hnone, Option.toList_none, List.append_nil]
      exact hinv.envelopesOnly honly

end StoreInv

variable {s s' : StoreState}

/-- **The tables refine the history in every run.** -/
theorem storeInv_of_run (hinv : StoreInv s.db s.writes) (h : StoreState.Run pg s s') :
    StoreInv s'.db s'.writes := by
  refine Transition.invariant (fun s => StoreInv s.db s.writes) ?_ hinv h
  rintro a _ ha ⟨call, ⟨⟩⟩
  exact ha.step call

/-! ### What every run guarantees -/

/-- The context of a version says what its columns and the secret's columns say. -/
structure ContextAgrees (secret : SecretRow) (row : SecretVersionRow) : Prop where
  secretId : memberText row.aadContext "secret_id" = some row.secretId.hyphenated ∧
    row.secretId = secret.id
  version : ∃ text n, memberText row.aadContext "version" = some text ∧
    decimal? text.toList = some n ∧ row.version = n
  ownerUserId : memberText row.aadContext "owner_user_id" = some row.createdByUserId.hyphenated ∧
    row.createdByUserId = secret.ownerUserId
  classification : memberText row.aadContext "classification" = some row.classification ∧
    row.classification = secret.classification
  createdAt : ∃ text micros, memberText row.aadContext "created_at" = some text ∧
    timestamptz text = some micros ∧ row.createdAt = micros

/-- What holds of a secret with the given history of committed writes. -/
structure SecretSound (db : SecretDb) (history : List SecretWrite) (secret : SecretRow) :
    Prop where
  /-- The retained versions are the last four numbers, each once. -/
  consecutive : ∀ v : ℤ, (∃ row ∈ db.versionsOf secret.id, row.version = v) ↔
    max 1 ((history.length : ℤ) - 3) ≤ v ∧ v ≤ history.length
  versions_nodup : ((db.versionsOf secret.id).map SecretVersionRow.version).Nodup
  at_most_four : (db.versionsOf secret.id).length ≤ 4
  /-- The pointer names the version with the highest number. -/
  pointer : ∃ row ∈ db.versionsOf secret.id, row.version = history.length ∧
    secret.currentVersionId = some row.id
  context : ∀ row ∈ db.versionsOf secret.id, ContextAgrees secret row
  nonces_nodup : ((db.versionsOf secret.id).map SecretVersionRow.nonceOrIv).Nodup
  /-- Of the writes that saw version `v` as the current one, at most one has committed. -/
  one_successor : ∀ v : ℤ, history.countP (fun w => w.version == v + 1) ≤ 1

theorem aadContextMatches_spec {w : SecretWrite} (h : aadContextMatches w = true) :
    memberText w.aadContext "secret_id" = some w.secretId.hyphenated ∧
    (∃ text n, memberText w.aadContext "version" = some text ∧ decimal? text.toList = some n ∧
      w.version = n) ∧
    memberText w.aadContext "owner_user_id" = some w.ownerUserId.hyphenated ∧
    memberText w.aadContext "classification" = some w.classification ∧
    ∃ text micros, memberText w.aadContext "created_at" = some text ∧
      timestamptz text = some micros ∧ w.createdAt = micros := by
  simp only [aadContextMatches, Bool.and_eq_true, Option.any_eq_true, Option.bind_eq_some_iff,
    decide_eq_true_eq, beq_iff_eq] at h
  obtain ⟨⟨⟨⟨⟨⟨-, n, ⟨text, htext, hn⟩, -, hversion⟩, micros, ⟨time, htime, hmicros⟩, hcreatedAt⟩,
    -⟩, hsecretId⟩, howner⟩, hclassification⟩ := h
  exact ⟨hsecretId, ⟨text, n, htext, hn, hversion⟩, howner, hclassification, time, micros,
    htime, hmicros, hcreatedAt⟩

namespace StoreInv

variable {db : SecretDb} {writes : List SecretWrite}

/-- The retained versions of a secret come from its writes. -/
theorem exists_write (hinv : StoreInv db writes) {id : Uuid} {row : SecretVersionRow}
    (hrow : row ∈ db.versionsOf id) :
    ∃ w ∈ writesOf writes id, row.withoutEnvelope = w.stored := by
  have hmem : row.withoutEnvelope ∈ (writesOf writes id).map SecretWrite.stored := by
    refine (keepLast_sublist 4 _).subset ?_
    rw [← hinv.retained]
    exact List.mem_map_of_mem hrow
  obtain ⟨w, hw, hstored⟩ := List.mem_map.mp hmem
  exact ⟨w, hw, hstored.symm⟩

theorem contextAgrees (hinv : StoreInv db writes) {secret : SecretRow}
    (hsecret : secret ∈ db.secrets) {row : SecretVersionRow}
    (hrow : row ∈ db.versionsOf secret.id) : ContextAgrees secret row := by
  obtain ⟨w, hmem, hstored⟩ := hinv.exists_write hrow
  obtain ⟨hw, hid⟩ := mem_writesOf.mp hmem
  -- the secret of the write is this one, so its owner and classification are the write's
  obtain ⟨secret', hsecret', hid', howner', hclassification'⟩ := hinv.write_of_secret w hw
  obtain rfl : secret' = secret :=
    List.inj_on_of_nodup_map hinv.secret_ids_nodup hsecret' hsecret (hid'.trans hid)
  have haad : row.aadContext = w.aadContext := congrArg SecretVersionRow.aadContext hstored
  have hsecretId : row.secretId = w.secretId := congrArg SecretVersionRow.secretId hstored
  have hversion : row.version = w.version := congrArg SecretVersionRow.version hstored
  have howner : row.createdByUserId = w.ownerUserId :=
    congrArg SecretVersionRow.createdByUserId hstored
  have hclassification : row.classification = w.classification :=
    congrArg SecretVersionRow.classification hstored
  have hcreatedAt : row.createdAt = w.createdAt := congrArg SecretVersionRow.createdAt hstored
  obtain ⟨h₁, h₂, h₃, h₄, h₅⟩ := aadContextMatches_spec (hinv.context w hw)
  constructor
  · rw [haad, hsecretId]
    exact ⟨h₁, hid'.symm⟩
  · rwa [haad, hversion]
  · rw [haad, howner]
    exact ⟨h₃, howner'.symm⟩
  · rw [haad, hclassification]
    exact ⟨h₄, hclassification'.symm⟩
  · rwa [haad, hcreatedAt]

/-- The numbers of the retained versions. -/
theorem map_version (hinv : StoreInv db writes) (id : Uuid) :
    (db.versionsOf id).map SecretVersionRow.version =
      (keepLast 4 (List.range' 1 (writesOf writes id).length)).map Nat.cast := by
  rw [map_column _ fun _ => rfl, hinv.retained, map_keepLast, List.map_map]
  exact (congrArg (keepLast 4) (hinv.numbered id)).trans (map_keepLast _ _ _).symm

theorem length_versionsOf_le (hinv : StoreInv db writes) (id : Uuid) :
    (db.versionsOf id).length ≤ 4 := by
  have hlength := congrArg List.length (hinv.map_version id)
  rw [List.length_map, List.length_map, length_keepLast] at hlength
  exact hlength.trans_le (min_le_right _ _)

theorem secretSound (hinv : StoreInv db writes) {secret : SecretRow}
    (hsecret : secret ∈ db.secrets) :
    SecretSound db (writesOf writes secret.id) secret where
  consecutive v := by
    refine List.mem_map.symm.trans ?_
    rw [hinv.map_version, List.mem_map]
    simp only [mem_keepLast_range']
    constructor
    · rintro ⟨n, hn, rfl⟩
      omega
    · intro hv
      exact ⟨v.toNat, by omega, by omega⟩
  versions_nodup := by
    rw [hinv.map_version]
    exact ((List.nodup_range' 1).sublist (keepLast_sublist _ _)).map fun _ _ h => Int.ofNat.inj h
  at_most_four := hinv.length_versionsOf_le secret.id
  pointer := by
    obtain ⟨row, hrow, hpointer, hversion⟩ := hinv.current hsecret
    exact ⟨row, hrow, hversion, hpointer⟩
  context _ hrow := hinv.contextAgrees hsecret hrow
  nonces_nodup := hinv.nonces_nodup secret.id
  -- the writes of a secret are numbered from 1 on
  one_successor v := by
    have hnodup : ((writesOf writes secret.id).map SecretWrite.version).Nodup := by
      rw [hinv.numbered]
      exact (List.nodup_range' 1).map fun _ _ h => Int.ofNat.inj h
    have hcount := List.nodup_iff_count_le_one.mp hnodup (v + 1)
    rwa [List.count_eq_countP, List.countP_map] at hcount

end StoreInv

/-! ### Along a run -/

/-- A run only adds to the history. -/
theorem StoreState.Run.writes_prefix (h : StoreState.Run pg s s') : s.writes <+: s'.writes := by
  refine Transition.invariant (fun t => s.writes <+: t.writes) ?_ List.prefix_rfl h
  rintro a _ ha ⟨call, ⟨⟩⟩
  unfold StoreState.step
  cases call.run pg a.db with
  | error => exact ha
  | ok db' => exact ha.trans (List.prefix_append _ _)

/-- The owner, the classification and the creation time of a secret stay as they are. -/
theorem StoreInv.secret_stable (hinv : StoreInv s.db s.writes) (h : StoreState.Run pg s s')
    {secret : SecretRow} (hsecret : secret ∈ s.db.secrets) :
    ∃ secret' ∈ s'.db.secrets, secret'.id = secret.id ∧
      secret'.ownerUserId = secret.ownerUserId ∧
      secret'.classification = secret.classification ∧ secret'.createdAt = secret.createdAt := by
  have hinv' := storeInv_of_run hinv h
  obtain ⟨more, hmore⟩ := h.writes_prefix
  obtain ⟨first, last, hfirst, -, hrow⟩ := hinv.secret_of_writes secret hsecret
  -- the first write of the secret is the first one later, too
  have hfirst' : (writesOf s'.writes secret.id).head? = some first := by
    rw [← hmore, writesOf_append, List.head?_append, hfirst, Option.some_or]
  obtain ⟨hmem, hid⟩ := mem_writesOf.mp (List.mem_of_mem_head? hfirst')
  obtain ⟨secret', hsecret', hid', -⟩ := hinv'.write_of_secret first hmem
  obtain ⟨first', last', hhead, -, hrow'⟩ := hinv'.secret_of_writes secret' hsecret'
  rw [hid', hid, hfirst', Option.some.injEq] at hhead
  refine ⟨secret', hsecret', hid'.trans hid, ?_⟩
  rw [hrow', hrow, hhead]
  exact ⟨rfl, rfl, rfl⟩

/-- A batch changed nothing but the envelope and the key version of versions at the old key
version. -/
structure OnlyRewraps (oldKeyVersion : ℤ) (db db' : SecretDb) : Prop where
  versions : List.Forall₂ (fun v v' : SecretVersionRow =>
    v' = { v with encryptedDataKey := v'.encryptedDataKey, keyVersion := v'.keyVersion } ∧
      (v.keyVersion ≠ oldKeyVersion → v' = v)) db.secretVersions db'.secretVersions
  secrets : db'.secrets = db.secrets
  secretAliases : db'.secretAliases = db.secretAliases
  users : db'.users = db.users

theorem Sql.Rewrapped.onlyRewraps {db db' : SecretDb} {r : KeyRotation} {rows : List RotationRow}
    (h : Rewrapped pg db r rows db') : OnlyRewraps r.oldKeyVersion db db' := by
  rw [h.recorded.frame]
  refine ⟨?_, rfl, rfl, rfl⟩
  refine List.forall₂_map_right_iff.mpr (List.forall₂_same.mpr fun v _ => ?_)
  exact ⟨rewrapVersion_frame v, fun hne => rewrapVersion_of_ne hne⟩

/-- **The invariant of the secret store.** After any sequence of transactions with any arguments,
every secret that was written is there, its retained versions are the last four, its pointer names
the last one, and the rest of `SecretSound` holds; its owner, classification and creation time
never change afterwards; a transaction that raises changes nothing; and a batch of a key rotation
changes only envelopes of versions at the old key version. -/
theorem secretStore_sound (pg : PostgresSession) (users : List Uuid)
    (signingPublicKeys : List LedgerSigningPublicKeyRow) (s : StoreState)
    (hrun : StoreState.Run pg (.init users signingPublicKeys) s) :
    (∀ id, writesOf s.writes id ≠ [] → ∃ secret ∈ s.db.secrets, secret.id = id) ∧
    (∀ secret ∈ s.db.secrets, SecretSound s.db (writesOf s.writes secret.id) secret) ∧
    (∀ s', StoreState.Run pg s s' → ∀ secret ∈ s.db.secrets, ∃ secret' ∈ s'.db.secrets,
      secret'.id = secret.id ∧ secret'.ownerUserId = secret.ownerUserId ∧
      secret'.classification = secret.classification ∧ secret'.createdAt = secret.createdAt) ∧
    (∀ call error, StoreCall.run pg s.db call = .error error → s.step pg call = s) ∧
    (∀ args rows db', StoreCall.run pg s.db (.applyKeyRotationBatch args rows) = .ok db' →
      ∃ oldKeyVersion, args.oldKeyVersion = some oldKeyVersion ∧
        OnlyRewraps oldKeyVersion s.db db') := by
  have hinv : StoreInv s.db s.writes := storeInv_of_run (StoreInv.empty _ _) hrun
  refine ⟨fun id hne => ?_, fun secret hsecret => hinv.secretSound hsecret,
    fun s' hrun' secret hsecret => hinv.secret_stable hrun' hsecret, fun call error hraised => ?_,
    fun args rows db' hcommit => ?_⟩
  · obtain ⟨w, hmem⟩ := List.exists_mem_of_ne_nil _ hne
    obtain ⟨hw, rfl⟩ := mem_writesOf.mp hmem
    obtain ⟨secret, hsecret, hid, -⟩ := hinv.write_of_secret w hw
    exact ⟨secret, hsecret, hid⟩
  · rw [StoreState.step, hraised]
  · simp only [StoreCall.run, Result.map_eq_ok, Prod.exists] at hcommit
    obtain ⟨_, processed, remaining, happly, rfl⟩ := hcommit
    obtain ⟨r, parsed, hr, -, hrewrapped, -⟩ := rpcApplyKeyRotationBatch_eq_ok happly
    refine ⟨r.oldKeyVersion, ?_, hrewrapped.onlyRewraps⟩
    simp only [KeyRotationArgs.rotation?, Option.bind_eq_bind, Option.bind_eq_some_iff,
      Option.pure_def, Option.some.injEq] at hr
    obtain ⟨_, -, old, hold, _, -, _, -, rfl⟩ := hr
    exact hold

/-! ### Concrete values -/

/-- A session on ASCII texts: casts read what the database prints, and a `delete` returns its rows
in table order. -/
def sampleSession : PostgresSession where
  toPostgres := samplePostgres
  castUuid := Uuid.parse
  castInteger text := (decimal? text.toList).bind fun n => if n ≤ 2147483647 then some n else none
  castBigint text :=
    (decimal? text.toList).bind fun n => if n ≤ 9223372036854775807 then some n else none
  decodeHex text := hexDecode text.toList
  returned rows := rows
  allowlistIsStrict := true
  castUuid_hyphenated := Uuid.parse_hyphenated
  castInteger_digits n := by simp [decimal?_toDigits]
  castBigint_digits n := by simp [decimal?_toDigits]
  decodeHex_hexEncode bytes := by simp
  returned_perm _ := .rfl

/-- The write of a version of the sample secret, without ledger entries. -/
def sampleWriteArgs (version : ℕ) : WriteSecretVersionArgs where
  requestId := some (sampleUuid 9)
  action := some (if version = 1 then "encrypt_create" else "encrypt_rotate")
  secretId := some (sampleUuid 1)
  ownerUserId := some (sampleUuid 7)
  classification := some "confidential"
  createdByDeviceId := some "device"
  createdAt := some 76552225445123456
  version := some version
  ciphertext := some (List.replicate 18 5)
  encryptedDataKey := some (List.replicate 73 1)
  keyVersion := some 1
  algorithm := some "xchacha20-poly1305"
  nonceOrIv := some (List.replicate 24 (.ofNat version))
  aadContext := some (.object [
    ("aad_version", .number (.posInt 1)), ("classification", .string "confidential"),
    ("created_at", .string "2026-01-02T03:04:05.123456Z"),
    ("owner_user_id", .string (sampleUuid 7).hyphenated),
    ("secret_id", .string (sampleUuid 1).hyphenated), ("version", .number (.posInt version))])
  secretVersionId := some (sampleUuid (30 + .ofNat version))
  ledgerEntries := none

/-- The write as a call; the database draws the identifiers of its events. -/
def sampleWriteCall (version : ℕ) : StoreCall :=
  .writeSecretVersion (fun i => sampleUuid (40 + 8 * .ofNat version + .ofNat i))
    (sampleWriteArgs version)

/-- The state after the writes of the first versions, in a database with one user. -/
def sampleStore : ℕ → StoreState
  | 0 => .init [sampleUuid 7] []
  | version + 1 => (sampleStore version).step sampleSession (sampleWriteCall (version + 1))

theorem run_sampleStore (n : ℕ) :
    StoreState.Run sampleSession (.init [sampleUuid 7] []) (sampleStore n) := by
  induction n with
  | zero => exact .refl
  | succ n ih => exact ih.tail ⟨_, rfl⟩

/-- An instance: after five writes the secret has its last four versions, and is sound. -/
theorem secretStore_sound_sampleStore :
    (writesOf (sampleStore 5).writes (sampleUuid 1)).length = 5 ∧
      ((sampleStore 5).db.versionsOf (sampleUuid 1)).map SecretVersionRow.version = [2, 3, 4, 5] ∧
      ∃ secret ∈ (sampleStore 5).db.secrets, secret.id = sampleUuid 1 ∧
        SecretSound (sampleStore 5).db (writesOf (sampleStore 5).writes (sampleUuid 1)) secret := by
  have hlength : (writesOf (sampleStore 5).writes (sampleUuid 1)).length = 5 := by
    decide +kernel
  obtain ⟨hwritten, hsound, -⟩ :=
    secretStore_sound sampleSession [sampleUuid 7] [] (sampleStore 5) (run_sampleStore 5)
  obtain ⟨secret, hsecret, hid⟩ := hwritten (sampleUuid 1) (List.ne_nil_of_length_pos (by omega))
  exact ⟨hlength, by decide +kernel, secret, hsecret, hid, hid ▸ hsound secret hsecret⟩

end Mipsorcu
