import Mipsorcu.Database.SigningKeys
import Mipsorcu.Protocol.AuditAppend

/-!
# The life of a signing key

Runs of the three procedures that create, activate and retire a signing key. Whatever the arguments
are, a key only moves forward and keeps its bytes (`KeyCall.registryFollows`): the trigger of the
table and the status checks see to that.

The evidence is another matter. The arguments are compared only where they are there, and a key that
is `created` may be created again. In runs without such calls every transition has exactly one
ledger entry, which tells its key, the key's fingerprint and the time
(`signingKeyLifecycle_evidenced`).
-/

namespace Mipsorcu

open Sql

/-! ### Runs -/

/-- A call of one of the three procedures. -/
inductive KeyCall where
  | create (args : SigningKeyArgs)
  | activate (args : SigningKeyArgs)
  | retire (args : SigningKeyArgs)

namespace KeyCall

/-- The arguments of a call. -/
def args : KeyCall → SigningKeyArgs
  | create args => args
  | activate args => args
  | retire args => args

/-- The transition it makes. -/
def transition : KeyCall → KeyTransition
  | create _ => .created
  | activate _ => .activated
  | retire _ => .retired

/-- The tables after the call, or the exception it raised. -/
def run (P : Primitives) (pg : PostgresSession) (db : SecretDb) : KeyCall → Except SqlError SecretDb
  | create args => Prod.fst <$> rpcCreateLedgerSigningPublicKeyWithLedger P pg db args
  | activate args => Prod.fst <$> rpcActivateLedgerSigningPublicKeyWithLedger P pg db args
  | retire args => Prod.fst <$> rpcRetireLedgerSigningPublicKeyWithLedger P pg db args

/-- One transaction: it commits, or raises and changes nothing. -/
def step (P : Primitives) (pg : PostgresSession) (db : SecretDb) (call : KeyCall) : SecretDb :=
  match call.run P pg db with
  | .ok db' => db'
  | .error _ => db

/-- **All a committed call can do.** -/
theorem committed {P : Primitives} {pg : PostgresSession} {db db' : SecretDb} {call : KeyCall}
    (h : call.run P pg db = .ok db') : ∃ keyVersion key,
      (∀ args, call = .create args → args.keyVersion = some keyVersion) ∧
      (∀ args, call = .retire args → keyVersionOrMetadata pg args = .ok (some keyVersion)) ∧
      KeyCommitted P pg call.transition db call.args keyVersion key db' := by
  cases call with
  | create args =>
    simp only [run, Result.map_eq_ok, Prod.exists] at h
    obtain ⟨_, result, hcall, rfl⟩ := h
    obtain ⟨keyVersion, key, hversion, hcommitted⟩ :=
      rpcCreateLedgerSigningPublicKeyWithLedger_eq_ok hcall
    refine ⟨keyVersion, key, ?_, by rintro _ ⟨⟩, hcommitted⟩
    rintro _ ⟨⟩
    exact hversion
  | activate args =>
    simp only [run, Result.map_eq_ok, Prod.exists] at h
    obtain ⟨_, result, hcall, rfl⟩ := h
    obtain ⟨keyVersion, key, hcommitted⟩ := rpcActivateLedgerSigningPublicKeyWithLedger_eq_ok hcall
    exact ⟨keyVersion, key, by rintro _ ⟨⟩, by rintro _ ⟨⟩, hcommitted⟩
  | retire args =>
    simp only [run, Result.map_eq_ok, Prod.exists] at h
    obtain ⟨_, result, hcall, rfl⟩ := h
    obtain ⟨keyVersion, key, hversion, hcommitted⟩ :=
      rpcRetireLedgerSigningPublicKeyWithLedger_eq_ok hcall
    refine ⟨keyVersion, key, by rintro _ ⟨⟩, ?_, hcommitted⟩
    rintro _ ⟨⟩
    exact hversion

end KeyCall

/-- Some sequence of calls leads from `db` to `db'`. -/
def KeyRun (P : Primitives) (pg : PostgresSession) : SecretDb → SecretDb → Prop :=
  Transition.Reachable fun db call => some (KeyCall.step P pg db call)

/-! ### Keys only move forward -/

/-- `created`, then `active`, then `retired`. -/
def StatusStep (old new : String) : Prop :=
  (old = "created" ∧ new = "active") ∨ (old = "active" ∧ new = "retired")

/-- A later row of a key. -/
structure KeyFollows (old new : LedgerSigningPublicKeyRow) : Prop where
  keyVersion : new.keyVersion = old.keyVersion
  publicKey : new.publicKey = old.publicKey
  algorithm : new.algorithm = old.algorithm
  createdAt : new.createdAt = old.createdAt
  status : Relation.ReflTransGen StatusStep old.status new.status

theorem KeyFollows.refl (key : LedgerSigningPublicKeyRow) : KeyFollows key key :=
  ⟨rfl, rfl, rfl, rfl, .refl⟩

theorem KeyFollows.trans {a b c : LedgerSigningPublicKeyRow} (h : KeyFollows a b)
    (h' : KeyFollows b c) : KeyFollows a c where
  keyVersion := h'.keyVersion.trans h.keyVersion
  publicKey := h'.publicKey.trans h.publicKey
  algorithm := h'.algorithm.trans h.algorithm
  createdAt := h'.createdAt.trans h.createdAt
  status := h.status.trans h'.status

theorem Sql.KeyMoved.follows {old new : LedgerSigningPublicKeyRow} (h : KeyMoved old new) :
    KeyFollows old new := by
  refine ⟨h.keyVersion, h.publicKey, h.algorithm, h.createdAt, .single ?_⟩
  rcases h.status with hactivated | ⟨hold, hnew, -⟩
  · exact .inl hactivated
  · exact .inr ⟨hold, hnew⟩

/-- No row is deleted, and every row stays or moves forward; a row that is new has started as
`created`; no version has two rows. -/
structure RegistryFollows (rows rows' : List LedgerSigningPublicKeyRow) : Prop where
  follows : ∀ key ∈ rows, ∃ key' ∈ rows', KeyFollows key key'
  origin : ∀ key' ∈ rows', ∃ key, (key ∈ rows ∨ key.status = "created") ∧ KeyFollows key key'
  nodup : (rows.map LedgerSigningPublicKeyRow.keyVersion).Nodup →
    (rows'.map LedgerSigningPublicKeyRow.keyVersion).Nodup

theorem RegistryFollows.refl (rows : List LedgerSigningPublicKeyRow) : RegistryFollows rows rows :=
  ⟨fun key hkey => ⟨key, hkey, .refl key⟩, fun key hkey => ⟨key, .inl hkey, .refl key⟩, id⟩

theorem RegistryFollows.trans {a b c : List LedgerSigningPublicKeyRow} (h : RegistryFollows a b)
    (h' : RegistryFollows b c) : RegistryFollows a c := by
  refine ⟨fun key hkey => ?_, fun key'' hkey'' => ?_, h'.nodup ∘ h.nodup⟩
  · obtain ⟨key', hkey', hfollows⟩ := h.follows key hkey
    obtain ⟨key'', hkey'', hfollows'⟩ := h'.follows key' hkey'
    exact ⟨key'', hkey'', hfollows.trans hfollows'⟩
  · obtain ⟨key', hkey' | hcreated, hfollows'⟩ := h'.origin key'' hkey''
    · obtain ⟨key, hkey, hfollows⟩ := h.origin key' hkey'
      exact ⟨key, hkey, hfollows.trans hfollows'⟩
    · exact ⟨key', .inr hcreated, hfollows'⟩

/-- Replacing the row of one version by a row it moves to. -/
theorem RegistryFollows.map {rows : List LedgerSigningPublicKeyRow} {keyVersion : ℤ}
    {update : LedgerSigningPublicKeyRow → LedgerSigningPublicKeyRow}
    (hmoved : ∀ key ∈ rows, key.keyVersion = keyVersion → KeyMoved key (update key)) :
    RegistryFollows rows
      (rows.map fun key => if key.keyVersion = keyVersion then update key else key) := by
  have hfollows : ∀ key ∈ rows,
      KeyFollows key (if key.keyVersion = keyVersion then update key else key) := by
    intro key hkey
    split_ifs with hversion
    · exact (hmoved key hkey hversion).follows
    · exact .refl key
  refine ⟨fun key hkey => ⟨_, List.mem_map_of_mem hkey, hfollows key hkey⟩,
    List.forall_mem_map.mpr fun key hkey => ⟨key, .inl hkey, hfollows key hkey⟩, fun hnodup => ?_⟩
  rw [List.map_map]
  have hversions : rows.map (LedgerSigningPublicKeyRow.keyVersion ∘ fun key =>
      if key.keyVersion = keyVersion then update key else key) =
      rows.map LedgerSigningPublicKeyRow.keyVersion :=
    List.map_congr_left fun key hkey => (hfollows key hkey).keyVersion
  rwa [hversions]

theorem Sql.RegistryChanged.follows {keyVersion time : ℤ} {transition : KeyTransition}
    {rows rows' : List LedgerSigningPublicKeyRow} {key : LedgerSigningPublicKeyRow}
    (h : RegistryChanged keyVersion time rows transition rows' key) :
    RegistryFollows rows rows' := by
  cases h with
  | created hfresh =>
    refine ⟨fun k hk => ⟨k, List.mem_append_left _ hk, .refl k⟩, fun k hk => ?_,
      fun hnodup => Keyed.nodup_concat hnodup hfresh⟩
    refine ⟨k, (List.mem_append.mp hk).imp_right fun hnew => ?_, .refl k⟩
    rw [List.mem_singleton.mp hnew]
  | again => exact .refl _
  | activated _ _ _ hmoved => exact .map hmoved
  | retired _ _ _ hmoved => exact .map hmoved

theorem Sql.EventAndEntry.appendOnly {pg : PostgresSession} {db db' : SecretDb}
    {event : AuditEventRow} {row : LedgerEntryRow} {result : AppendLedgerEntryRow}
    (h : EventAndEntry pg db event row db' result) : AppendOnly db db' := by
  obtain ⟨recorded, happend, hcases, hframe⟩ := h.exists_db
  exact (appendOnly_of_appendAuditEvent happend).append_ledger hcases hframe

/-- The registry a committed call leaves. -/
theorem Sql.KeyCommitted.registry {P : Primitives} {pg : PostgresSession}
    {transition : KeyTransition} {db db' : SecretDb} {args : SigningKeyArgs} {keyVersion : ℤ}
    {key : LedgerSigningPublicKeyRow}
    (h : KeyCommitted P pg transition db args keyVersion key db') :
    ∃ time, RegistryChanged keyVersion time db.ledger.signingPublicKeys transition
      db'.ledger.signingPublicKeys key := by
  obtain ⟨text, micros, registry, result, -, -, hchanged, happend⟩ := h.exists_change
  obtain ⟨event, row, -, -, hboth⟩ := appendEventAndEntry_eq_ok happend
  rw [hboth.appendOnly.registry]
  exact ⟨micros, hchanged⟩

/-- **Every call keeps the rows, or moves one forward.** -/
theorem KeyCall.registryFollows (P : Primitives) (pg : PostgresSession) (db : SecretDb)
    (call : KeyCall) : RegistryFollows db.ledger.signingPublicKeys
      (call.step P pg db).ledger.signingPublicKeys := by
  unfold KeyCall.step
  cases hrun : call.run P pg db with
  | error => exact .refl _
  | ok db' =>
    obtain ⟨keyVersion, key, -, -, hcommitted⟩ := KeyCall.committed hrun
    obtain ⟨time, hchanged⟩ := hcommitted.registry
    exact hchanged.follows

theorem KeyRun.registryFollows {P : Primitives} {pg : PostgresSession} {db db' : SecretDb}
    (h : KeyRun P pg db db') :
    RegistryFollows db.ledger.signingPublicKeys db'.ledger.signingPublicKeys := by
  refine Transition.invariant
    (fun d => RegistryFollows db.ledger.signingPublicKeys d.ledger.signingPublicKeys) ?_ (.refl _) h
  rintro a _ ha ⟨call, ⟨⟩⟩
  exact ha.trans (call.registryFollows P pg a)

/-! ### The evidence of a transition -/

namespace Sql.KeyTransition

/-- The key has made the transition. -/
def reachedBy : KeyTransition → LedgerSigningPublicKeyRow → Bool
  | created, _ => true
  | activated, key => key.status == "active" || key.status == "retired"
  | retired, key => key.status == "retired"

end Sql.KeyTransition

/-- The number of times that the key of a version has made a transition. -/
def transitionsMade (registry : List LedgerSigningPublicKeyRow) (transition : KeyTransition)
    (keyVersion : ℤ) : ℕ :=
  registry.countP fun key => key.keyVersion == keyVersion && transition.reachedBy key

/-- The entry is about the transition and names the key version. -/
def namesKey (pg : PostgresSession) (transition : KeyTransition) (keyVersion : ℤ)
    (row : LedgerEntryRow) : Bool :=
  row.entryType == transition.action &&
    (memberText row.payload "signature_key_version").bind pg.castInteger == some keyVersion

/-- The entry and its event tell the key, its fingerprint and the time of the transition. -/
structure TransitionEvidenced (P : Primitives) (pg : PostgresSession) (transition : KeyTransition)
    (key : LedgerSigningPublicKeyRow) (row : LedgerEntryRow) (event : AuditEventRow) : Prop where
  entryType : row.entryType = transition.action
  payloadVersion :
    (memberText row.payload "signature_key_version").bind pg.castInteger = some key.keyVersion
  payloadFingerprint : memberText row.payload "public_key_fingerprint" =
    some (ledgerSigningPublicKeyFingerprint P key.publicKey)
  payloadTime : memberText row.payload transition.timestampKey = some row.sourceEventAt
  sourceEventId : row.sourceEventId = some event.id
  action : event.action = transition.action
  metadataVersion :
    (memberText event.metadataJson "signature_key_version").bind pg.castInteger =
      some key.keyVersion
  metadataFingerprint : memberText event.metadataJson "public_key_fingerprint" =
    some (ledgerSigningPublicKeyFingerprint P key.publicKey)
  metadataTime : memberText event.metadataJson transition.timestampKey = some row.sourceEventAt
  metadataSource : memberText event.metadataJson "source_event_at" = some row.sourceEventAt
  time : (timestamptz row.sourceEventAt).map Nat.cast = transition.time? key

theorem TransitionEvidenced.namesKey {P : Primitives} {pg : PostgresSession}
    {transition : KeyTransition} {key : LedgerSigningPublicKeyRow} {row : LedgerEntryRow}
    {event : AuditEventRow} (h : TransitionEvidenced P pg transition key row event)
    (t : KeyTransition) (v : ℤ) :
    namesKey pg t v row = decide (transition = t ∧ key.keyVersion = v) := by
  rw [Mipsorcu.namesKey, h.entryType, h.payloadVersion, Bool.eq_iff_iff]
  simp [KeyTransition.action_injective.eq_iff]

/-- The evidence of a transition stays one while the key makes others. -/
theorem TransitionEvidenced.follows {P : Primitives} {pg : PostgresSession}
    {transition : KeyTransition} {key key' : LedgerSigningPublicKeyRow} {row : LedgerEntryRow}
    {event : AuditEventRow} (h : TransitionEvidenced P pg transition key row event)
    (hversion : key'.keyVersion = key.keyVersion) (hkey : key'.publicKey = key.publicKey)
    (htime : transition.time? key' = transition.time? key) :
    TransitionEvidenced P pg transition key' row event := by
  obtain ⟨h₁, h₂, h₃, h₄, h₅, h₆, h₇, h₈, h₉, h₁₀, h₁₁⟩ := h
  exact ⟨h₁, hversion ▸ h₂, hkey ▸ h₃, h₄, h₅, h₆, hversion ▸ h₇, hkey ▸ h₈, h₉, h₁₀,
    h₁₁.trans htime.symm⟩

/-- Every entry of the ledger is the evidence of a transition, and every transition has exactly
one. -/
structure KeysEvidenced (P : Primitives) (pg : PostgresSession) (db : SecretDb) : Prop where
  versions_nodup : (db.ledger.signingPublicKeys.map LedgerSigningPublicKeyRow.keyVersion).Nodup
  events_nodup : (db.auditEvents.map AuditEventRow.id).Nodup
  metadata_normal : ∀ e ∈ db.auditEvents, e.metadataJson.normalize = e.metadataJson
  entries : ∀ row ∈ db.ledger.entries, ∃ transition : KeyTransition,
    ∃ key ∈ db.ledger.signingPublicKeys, ∃ event ∈ db.auditEvents,
      transition.reachedBy key = true ∧ TransitionEvidenced P pg transition key row event
  counts : ∀ transition keyVersion, db.ledger.entries.countP (namesKey pg transition keyVersion) =
    transitionsMade db.ledger.signingPublicKeys transition keyVersion

theorem KeysEvidenced.empty (P : Primitives) (pg : PostgresSession) (users : List Uuid) :
    KeysEvidenced P pg (emptyStore users []) := by
  constructor <;> simp [emptyStore, emptyLedger, transitionsMade]

/-- No key makes a transition twice. -/
theorem KeysEvidenced.transitionsMade_le_one {P : Primitives} {pg : PostgresSession} {db : SecretDb}
    (h : KeysEvidenced P pg db) (transition : KeyTransition) (keyVersion : ℤ) :
    transitionsMade db.ledger.signingPublicKeys transition keyVersion ≤ 1 := by
  have hcount := List.nodup_iff_count_le_one.mp h.versions_nodup keyVersion
  rw [List.count_eq_countP, List.countP_map] at hcount
  refine (List.countP_mono_left fun key _ hkey => ?_).trans hcount
  simp only [Bool.and_eq_true] at hkey
  exact hkey.1

/-! ### One transition more -/

section Registry

variable {rows rows' : List LedgerSigningPublicKeyRow} {key : LedgerSigningPublicKeyRow}
  {transition : KeyTransition} {keyVersion time : ℤ}

theorem transitionsMade_of_mem
    (hnodup : (rows.map LedgerSigningPublicKeyRow.keyVersion).Nodup) (hkey : key ∈ rows)
    (t : KeyTransition) :
    transitionsMade rows t key.keyVersion = if t.reachedBy key then 1 else 0 :=
  Keyed.countP_key_and hnodup hkey _

/-- Moving one key counts one transition of that key. -/
theorem transitionsMade_map {update : LedgerSigningPublicKeyRow → LedgerSigningPublicKeyRow}
    (hnodup : (rows.map LedgerSigningPublicKeyRow.keyVersion).Nodup) (hkey : key ∈ rows)
    (hmoved : ∀ k ∈ rows, k.keyVersion = key.keyVersion → KeyMoved k (update k))
    (hbefore : transition.reachedBy key = false)
    (hafter : ∀ t : KeyTransition,
      t.reachedBy (update key) = (t.reachedBy key || decide (transition = t)))
    (t : KeyTransition) (u : ℤ) :
    transitionsMade (rows.map fun k => if k.keyVersion = key.keyVersion then update k else k) t u =
      transitionsMade rows t u + if transition = t ∧ key.keyVersion = u then 1 else 0 := by
  have hnodup' := (RegistryFollows.map hmoved).nodup hnodup
  by_cases hu : key.keyVersion = u
  · subst hu
    -- the counts are those of the one row with this version, before and after
    have hmem : update key ∈
        rows.map fun k => if k.keyVersion = key.keyVersion then update k else k :=
      List.mem_map.mpr ⟨key, hkey, if_pos rfl⟩
    have hversion : (update key).keyVersion = key.keyVersion := (hmoved key hkey rfl).keyVersion
    have hcount := transitionsMade_of_mem hnodup' hmem t
    rw [hversion] at hcount
    rw [hcount, transitionsMade_of_mem hnodup hkey, hafter]
    by_cases ht : transition = t
    · subst ht
      simp [hbefore]
    · simp [ht]
  · rw [if_neg (fun h => hu h.2), Nat.add_zero, transitionsMade, transitionsMade, List.countP_map]
    refine List.countP_congr fun k hk => ?_
    rw [Function.comp_apply]
    split_ifs with hversion
    · have hne : k.keyVersion ≠ u := fun h => hu (hversion.symm.trans h)
      rw [(hmoved k hk hversion).keyVersion]
      simp [hne]
    · rfl

/-- A change that is not a repeated creation: the key has made the transition now and had not
before, and nothing else counts differently. -/
theorem Sql.RegistryChanged.counts
    (h : RegistryChanged keyVersion time rows transition rows' key)
    (hnodup : (rows.map LedgerSigningPublicKeyRow.keyVersion).Nodup)
    (hfresh : transition = .created → ∀ k ∈ rows, k.keyVersion ≠ keyVersion) :
    key ∈ rows' ∧ key.keyVersion = keyVersion ∧ transition.reachedBy key = true ∧
      transition.time? key = some time ∧ transitionsMade rows transition keyVersion = 0 ∧
      ∀ t u, transitionsMade rows' t u =
        transitionsMade rows t u + if transition = t ∧ keyVersion = u then 1 else 0 := by
  cases h with
  | @created publicKey hnew =>
    have hzero : transitionsMade rows .created keyVersion = 0 := by
      refine List.countP_eq_zero.mpr fun k hk => ?_
      simp [hnew k hk]
    refine ⟨List.mem_append_right _ (List.mem_singleton_self _), rfl, rfl, rfl, hzero,
      fun t u => ?_⟩
    rw [transitionsMade, List.countP_append, List.countP_singleton]
    refine congrArg (transitionsMade rows t u + ·) ?_
    cases t <;> simp [KeyTransition.reachedBy]
  -- a retry adds no key, and is excluded here
  | again hmem hversion => exact absurd hversion (hfresh rfl key hmem)
  | @activated old hmem hversion hstatus hmoved =>
    subst hversion
    -- a key that was only created has not made it yet
    have hbefore : KeyTransition.activated.reachedBy old = false := by
      simp [KeyTransition.reachedBy, hstatus]
    refine ⟨List.mem_map.mpr ⟨old, hmem, if_pos rfl⟩, rfl, rfl, rfl, ?_, ?_⟩
    · rw [transitionsMade_of_mem hnodup hmem, hbefore]
      rfl
    · refine transitionsMade_map hnodup hmem hmoved hbefore fun t => ?_
      cases t <;> simp [KeyTransition.reachedBy, hstatus]
  | @retired old hmem hversion hstatus hmoved =>
    subst hversion
    have hbefore : KeyTransition.retired.reachedBy old = false := by
      simp [KeyTransition.reachedBy, hstatus]
    refine ⟨List.mem_map.mpr ⟨old, hmem, if_pos rfl⟩, rfl, rfl, rfl, ?_, ?_⟩
    · rw [transitionsMade_of_mem hnodup hmem, hbefore]
      rfl
    · refine transitionsMade_map hnodup hmem hmoved hbefore fun t => ?_
      cases t <;> simp [KeyTransition.reachedBy, hstatus]

/-- The transitions a key has made, with their times, stay. -/
theorem Sql.RegistryChanged.keeps {k : LedgerSigningPublicKeyRow}
    (h : RegistryChanged keyVersion time rows transition rows' key) (hk : k ∈ rows) :
    ∃ k' ∈ rows', k'.keyVersion = k.keyVersion ∧ k'.publicKey = k.publicKey ∧
      ∀ t : KeyTransition, t.reachedBy k = true →
        t.reachedBy k' = true ∧ t.time? k' = t.time? k := by
  cases h with
  | created => exact ⟨k, List.mem_append_left _ hk, rfl, rfl, fun t ht => ⟨ht, rfl⟩⟩
  | again => exact ⟨k, hk, rfl, rfl, fun t ht => ⟨ht, rfl⟩⟩
  | activated _ _ _ hmoved =>
    refine ⟨_, List.mem_map_of_mem hk, ?_⟩
    split_ifs with hversion
    · refine ⟨rfl, rfl, fun t ht => ?_⟩
      have hstatus : k.status = "created" := by
        rcases (hmoved k hk hversion).status with ⟨hold, -⟩ | ⟨-, hnew, -⟩
        · exact hold
        · exact absurd hnew (by simp)
      cases t <;> simp_all [KeyTransition.reachedBy, KeyTransition.time?]
    · exact ⟨rfl, rfl, fun t ht => ⟨ht, rfl⟩⟩
  | retired _ _ _ hmoved =>
    refine ⟨_, List.mem_map_of_mem hk, ?_⟩
    split_ifs with hversion
    · refine ⟨rfl, rfl, fun t ht => ?_⟩
      have hstatus : k.status = "active" := by
        rcases (hmoved k hk hversion).status with ⟨-, hnew⟩ | ⟨hold, -⟩
        · exact absurd hnew (by simp)
        · exact hold
      cases t <;> simp_all [KeyTransition.reachedBy, KeyTransition.time?]
    · exact ⟨rfl, rfl, fun t ht => ⟨ht, rfl⟩⟩

end Registry

/-! ### Complete calls -/

/-- The arguments are `jsonb` values: their members are in one order, each once. -/
def KeyCall.IsJsonb (call : KeyCall) : Prop :=
  ∀ metadata, call.args.audit.metadataJson = some metadata → metadata.normalize = metadata

/-- Every member that is compared is there, the entry names an event, and a key that is created is
not registered yet. -/
structure KeyCall.IsComplete (db : SecretDb) (call : KeyCall) : Prop where
  metadata : ∀ member ∈ ["source_event_at", "signature_key_version", "public_key_fingerprint",
    call.transition.timestampKey], (call.args.metadataText member).isSome = true
  payload : ∀ member ∈ ["signature_key_version", "public_key_fingerprint",
    call.transition.timestampKey], (call.args.payloadText member).isSome = true
  source : call.args.entry.sourceEventId.isSome = true
  fresh : ∀ args, call = .create args → ∀ key ∈ db.ledger.signingPublicKeys,
    args.keyVersion ≠ some key.keyVersion

/-- A complete call that commits leaves the evidence of its transition. -/
theorem Sql.KeyCommitted.evidenced {P : Primitives} {pg : PostgresSession} {db db₁ db' : SecretDb}
    {call : KeyCall} {keyVersion : ℤ} {key : LedgerSigningPublicKeyRow} {event : AuditEventRow}
    {row : LedgerEntryRow} (h : KeyCommitted P pg call.transition db call.args keyVersion key db')
    (hcomplete : call.IsComplete db₁) (hevent : call.args.audit.row? = some event)
    (hcolumns : EntryColumnsOf call.args.entry row) (hversion : key.keyVersion = keyVersion)
    (htime : (timestamptz row.sourceEventAt).map Nat.cast = call.transition.time? key) :
    TransitionEvidenced P pg call.transition key row event := by
  have haudit := AppendAuditEventArgs.row?_eq_some.mp hevent
  -- the texts that were compared are those of the stored rows
  have hmetadataText : ∀ member,
      call.args.metadataText member = memberText event.metadataJson member := fun member => by
    rw [SigningKeyArgs.metadataText, haudit]
    rfl
  have hpayloadText : ∀ member,
      call.args.payloadText member = memberText row.payload member := fun member => by
    rw [SigningKeyArgs.payloadText, hcolumns.payload]
    rfl
  have hmetadata : ∀ member ∈ ["source_event_at", "signature_key_version",
      "public_key_fingerprint", call.transition.timestampKey],
      ∃ text, call.args.metadataText member = some text := fun member hmember =>
    Option.isSome_iff_exists.mp (hcomplete.metadata member hmember)
  have hpayload : ∀ member ∈ ["signature_key_version", "public_key_fingerprint",
      call.transition.timestampKey], ∃ text, call.args.payloadText member = some text :=
    fun member hmember => Option.isSome_iff_exists.mp (hcomplete.payload member hmember)
  obtain ⟨source, hsource⟩ := hmetadata "source_event_at" (by simp)
  obtain ⟨metadataVersion, hmetadataVersion⟩ := hmetadata "signature_key_version" (by simp)
  obtain ⟨metadataFingerprint, hmetadataFingerprint⟩ := hmetadata "public_key_fingerprint" (by simp)
  obtain ⟨metadataTime, hmetadataTime⟩ := hmetadata call.transition.timestampKey (by simp)
  obtain ⟨payloadVersion, hpayloadVersion⟩ := hpayload "signature_key_version" (by simp)
  obtain ⟨payloadFingerprint, hpayloadFingerprint⟩ := hpayload "public_key_fingerprint" (by simp)
  obtain ⟨payloadTime, hpayloadTime⟩ := hpayload call.transition.timestampKey (by simp)
  obtain ⟨id, hid⟩ := Option.isSome_iff_exists.mp hcomplete.source
  have hat := hcolumns.sourceEventAt
  exact {
    entryType := h.input.entryType _ hcolumns.entryType
    payloadVersion := by
      rw [← hpayloadText, hpayloadVersion, Option.bind_some, hversion]
      exact h.input.payloadVersion _ hpayloadVersion
    payloadFingerprint := by
      rw [← hpayloadText, hpayloadFingerprint, h.input.payloadFingerprint _ hpayloadFingerprint]
    payloadTime := by
      rw [← hpayloadText, hpayloadTime, h.input.payloadTime _ _ hpayloadTime hat]
    sourceEventId := by
      rw [← hcolumns.sourceEventId, hid]
      exact congrArg some (h.input.sourceEventId _ _ hid (by rw [haudit]; rfl))
    action := h.input.action _ (by rw [haudit]; rfl)
    metadataVersion := by
      rw [← hmetadataText, hmetadataVersion, Option.bind_some, hversion]
      exact h.input.metadataVersion _ hmetadataVersion
    metadataFingerprint := by
      rw [← hmetadataText, hmetadataFingerprint,
        h.input.metadataFingerprint _ hmetadataFingerprint]
    metadataTime := by
      rw [← hmetadataText, hmetadataTime, h.input.metadataTime _ _ hmetadataTime hat]
    metadataSource := by
      rw [← hmetadataText, hsource, h.input.metadataSource _ _ hsource hat]
    time := htime }

/-- An event that was appended next to events in normal form is stored as it was given. -/
theorem mem_of_appendAuditEvent {pg : PostgresSession} {db db' : SecretDb} {event : AuditEventRow}
    {id : Uuid} (h : Sql.appendAuditEvent pg db event = .ok (db', id))
    (hnormal : ∀ e ∈ db.auditEvents, e.metadataJson.normalize = e.metadataJson)
    (hevent : event.metadataJson.normalize = event.metadataJson) :
    event ∈ db'.auditEvents ∧ ∀ e ∈ db'.auditEvents, e.metadataJson.normalize = e.metadataJson := by
  have hnormal' : ∀ e ∈ db'.auditEvents, e.metadataJson.normalize = e.metadataJson := by
    obtain ⟨-, ⟨rfl, -⟩ | ⟨-, -, rfl⟩⟩ := appendAuditEvent_eq_ok h
    · exact hnormal
    · intro e he
      rcases List.mem_append.mp he with hold | hnew
      · exact hnormal e hold
      · rw [List.mem_singleton.mp hnew]
        exact hevent
  obtain ⟨-, -, stored, hstored, -, hsame⟩ := appendAuditEvent_stored h
  refine ⟨?_, hnormal'⟩
  have hmetadata : stored.metadataJson = event.metadataJson := by
    rw [← hnormal' stored hstored, ← hevent, hsame.metadata]
  have heq : stored = event := by
    have hcolumns := hsame.columns
    cases stored
    cases event
    simp only [AuditEventRow.mk.injEq] at hcolumns hmetadata ⊢
    simp only [hcolumns, hmetadata, and_self]
  exact heq ▸ hstored

namespace KeysEvidenced

variable {P : Primitives} {pg : PostgresSession} {db db' : SecretDb} {call : KeyCall}

/-- **A complete call keeps the evidence.** -/
theorem run (hinv : KeysEvidenced P pg db) (hjsonb : call.IsJsonb)
    (hcomplete : call.IsComplete db) (h : call.run P pg db = .ok db') : KeysEvidenced P pg db' := by
  obtain ⟨keyVersion, key, hcreate, -, hcommitted⟩ := KeyCall.committed h
  obtain ⟨text, micros, registry, result, htext, hmicros, hchanged, happend⟩ :=
    hcommitted.exists_change
  obtain ⟨event, row, hevent, hcolumns, hboth⟩ := appendEventAndEntry_eq_ok happend
  have hregistry : db'.ledger.signingPublicKeys = registry := hboth.appendOnly.registry
  have hfresh : call.transition = .created → ∀ k ∈ db.ledger.signingPublicKeys,
      k.keyVersion ≠ keyVersion := by
    intro htransition k hk hversion
    cases call with
    | create args => exact hcomplete.fresh args rfl k hk (by rw [hcreate args rfl, hversion])
    | activate => cases htransition
    | retire => cases htransition
  obtain ⟨hkey, hversion, hreached, htime, hzero, hcounts⟩ :=
    hchanged.counts hinv.versions_nodup hfresh
  have hsourceEventAt : row.sourceEventAt = text :=
    Option.some.inj (hcolumns.sourceEventAt.symm.trans htext)
  have hevidenced : TransitionEvidenced P pg call.transition key row event := by
    refine hcommitted.evidenced hcomplete hevent hcolumns hversion ?_
    rw [hsourceEventAt, hmicros, htime]
    rfl
  -- the event
  obtain ⟨recorded, hrecorded, hcases, hframe⟩ := hboth.exists_db
  have haudit := AppendAuditEventArgs.row?_eq_some.mp hevent
  obtain ⟨hmem, hnormal⟩ := mem_of_appendAuditEvent hrecorded hinv.metadata_normal
    (hjsonb _ (by rw [haudit]; rfl))
  have hgrown := appendOnly_of_appendAuditEvent hrecorded
  have hledger : recorded.ledger.entries = db.ledger.entries := by
    obtain ⟨events, rfl⟩ := appendAuditEvent_frame hrecorded
    rfl
  have hevents : db'.auditEvents = recorded.auditEvents := by rw [hframe]
  -- the entry is new: no entry about this transition was there
  have hinserted : Inserted recorded.ledger row db'.ledger result := by
    refine hcases.resolve_left fun hreplayed => ?_
    have hpos : 0 < db.ledger.entries.countP (namesKey pg call.transition keyVersion) := by
      refine List.countP_pos_iff.mpr ⟨row, hledger ▸ hreplayed.mem, ?_⟩
      rw [hevidenced.namesKey]
      simp [hversion]
    rw [hinv.counts, hzero] at hpos
    exact absurd hpos (lt_irrefl 0)
  have hentries : db'.ledger.entries = db.ledger.entries ++ [row] := by
    rw [hinserted.db_eq, hledger]
  refine ⟨?_, ?_, ?_, ?_, ?_⟩
  · rw [hregistry]
    exact hchanged.follows.nodup hinv.versions_nodup
  · rw [hevents]
    exact Logs.nodup_keys hgrown.auditEvents hinv.events_nodup
  · rw [hevents]
    exact hnormal
  · intro row' hrow'
    rw [hentries] at hrow'
    rw [hregistry, hevents]
    rcases List.mem_append.mp hrow' with hold | hnew
    · obtain ⟨t, k, hk, e, he, hreached', hevidenced'⟩ := hinv.entries row' hold
      obtain ⟨k', hk', hversion', hpublicKey', hkeeps⟩ := hchanged.keeps hk
      obtain ⟨hreached'', htime'⟩ := hkeeps t hreached'
      exact ⟨t, k', hk', e, (Logs.isPrefix hgrown.auditEvents).subset he, hreached'',
        hevidenced'.follows hversion' hpublicKey' htime'⟩
    · rw [List.mem_singleton.mp hnew]
      exact ⟨call.transition, key, hkey, event, hmem, hreached, hevidenced⟩
  · intro t v
    rw [hentries, hregistry, List.countP_append, List.countP_singleton, hinv.counts, hcounts,
      hevidenced.namesKey, hversion]
    simp

end KeysEvidenced

/-! ### What every run guarantees -/

/-- Some sequence of complete calls leads from `db` to `db'`. -/
def CompleteKeyRun (P : Primitives) (pg : PostgresSession) : SecretDb → SecretDb → Prop :=
  Transition.ReachableWhere (fun db call => some (KeyCall.step P pg db call))
    fun db call => call.IsJsonb ∧ call.IsComplete db

theorem keysEvidenced_of_run {P : Primitives} {pg : PostgresSession} {db db' : SecretDb}
    (hinv : KeysEvidenced P pg db) (h : CompleteKeyRun P pg db db') : KeysEvidenced P pg db' := by
  refine Transition.invariant (KeysEvidenced P pg) ?_ hinv h
  rintro a _ ha ⟨call, ⟨hjsonb, hcomplete⟩, ⟨⟩⟩
  unfold KeyCall.step
  cases hrun : call.run P pg a with
  | error => exact ha
  | ok db' => exact ha.run hjsonb hcomplete hrun

/-- **The life of a signing key.** In every run of the three procedures from an empty store, with
any arguments, no key version has two rows, and from every state on each row is kept or moves
forward, with its bytes, algorithm and creation time; a call that raises changes nothing. In the
runs of complete calls every transition of a key has exactly one ledger entry that names it, at most
one in all, and every entry is the evidence of a transition. -/
theorem signingKeyLifecycle_evidenced (P : Primitives) (pg : PostgresSession) (users : List Uuid) :
    (∀ db, KeyRun P pg (emptyStore users []) db →
      (db.ledger.signingPublicKeys.map LedgerSigningPublicKeyRow.keyVersion).Nodup ∧
      ∀ db', KeyRun P pg db db' →
        RegistryFollows db.ledger.signingPublicKeys db'.ledger.signingPublicKeys) ∧
    (∀ db call error, KeyCall.run P pg db call = .error error → KeyCall.step P pg db call = db) ∧
    (∀ db, CompleteKeyRun P pg (emptyStore users []) db → KeysEvidenced P pg db ∧
      ∀ transition keyVersion,
        db.ledger.entries.countP (namesKey pg transition keyVersion) ≤ 1) := by
  refine ⟨fun db hrun => ⟨hrun.registryFollows.nodup List.nodup_nil,
    fun db' hrun' => hrun'.registryFollows⟩, fun db call error hraised => ?_, fun db hrun => ?_⟩
  · rw [KeyCall.step, hraised]
  · have hinv := keysEvidenced_of_run (KeysEvidenced.empty P pg users) hrun
    refine ⟨hinv, fun transition keyVersion => ?_⟩
    rw [hinv.counts]
    exact hinv.transitionsMade_le_one transition keyVersion

/-- The SHA-256 of `samplePublicKey`. -/
def sampleKeyHash : LedgerHash :=
  .ofNat _ 0x34750f98bd59fcfc946da45aaabe933be154a4b5094e1c4abf42866505f3c97e

/-- The hash of the sample public key, and its signature under `sampleKey`. -/
def sampleKeyPrimitives : Primitives :=
  .ofTable samplePublicKey [(samplePublicKey.bytes, sampleKeyHash,
    .ofHalves _
      0x141844f27d26126461f359e91d473fc9e550f8e0a7982dd66869faefaed84812
      0x322e99eb20a2cb774e93735f1ab0b0c6d78c4d42f456e2ff4fcb15bd5183b80a)]

/-- The members that describe a transition of the sample key. -/
def sampleKeyMembers (transition : KeyTransition) : List (String × Json) := [
  (transition.timestampKey, .string "2026-01-02T03:04:05Z"),
  ("public_key_fingerprint", .string sampleKeyHash.toHex),
  ("signature_key_version", .number (.posInt 1))]

/-- The arguments of a transition of the sample key, with the given payload. -/
def sampleKeyArgs (transition : KeyTransition) (sequenceNo : ℕ) (payload : List (String × Json)) :
    SigningKeyArgs where
  keyVersion := some 1
  publicKey := some samplePublicKey.bytes
  audit := {
    auditEventId := some (sampleUuid (20 + UInt8.ofNat sequenceNo))
    requestId := some (sampleUuid 9)
    actorUserId := none
    actorDeviceId := none
    action := some transition.action
    targetSecretId := none
    result := some "success"
    keyVersion := none
    metadataJson := some (Json.object (sampleKeyMembers transition ++
      [("source_event_at", .string "2026-01-02T03:04:05Z")])).normalize }
  entry := {
    ledgerEntryId := some (sampleUuid (30 + UInt8.ofNat sequenceNo))
    sequenceNo := some sequenceNo
    entryType := some transition.action
    sourceEventAt := some "2026-01-02T03:04:05Z"
    requestId := none
    sourceEventId := some (sampleUuid (20 + UInt8.ofNat sequenceNo))
    targetSecretId := none
    targetSecretVersionId := none
    actorUserId := none
    actorDeviceId := none
    result := none
    errorCode := none
    payload := some (.object payload)
    canonicalizationVersion := some 1
    previousEntryHash := some (List.replicate 32 (UInt8.ofNat (sequenceNo - 1)))
    entryHash := some (List.replicate 32 (UInt8.ofNat sequenceNo))
    hashAlgorithm := some "sha-256"
    signature := some (List.replicate 64 7)
    signatureAlgorithm := some "ed25519"
    signatureKeyVersion := some 1 }

/-- The creation of the sample key. -/
def sampleCreate (sequenceNo : ℕ) : KeyCall :=
  .create (sampleKeyArgs .created sequenceNo (sampleKeyMembers .created))

/-- The tables after the sample key was created. -/
def sampleCreated : SecretDb :=
  (sampleCreate 1).step sampleKeyPrimitives sampleSession (emptyStore [] [])

/-- The life of the sample key. -/
def sampleLifecycle : List KeyCall :=
  [sampleCreate 1, .activate (sampleKeyArgs .activated 2 (sampleKeyMembers .activated)),
    .retire (sampleKeyArgs .retired 3 (sampleKeyMembers .retired))]

/-- The tables at the end of it. -/
def sampleKeyRetired : SecretDb :=
  sampleLifecycle.foldl (KeyCall.step sampleKeyPrimitives sampleSession) (emptyStore [] [])

theorem isJsonb_sampleLifecycle {call : KeyCall} (hcall : call ∈ sampleLifecycle) :
    call.IsJsonb := by
  have hall : ∀ call ∈ sampleLifecycle, call.args.audit.metadataJson.map Json.normalize =
      call.args.audit.metadataJson := by decide +kernel
  intro metadata hmetadata
  simpa [hmetadata] using hall call hcall

theorem isComplete_sampleLifecycle {call : KeyCall} (hcall : call ∈ sampleLifecycle)
    {db : SecretDb} (hfresh : ∀ args, call = .create args → db.ledger.signingPublicKeys = []) :
    call.IsComplete db where
  metadata := (show ∀ call ∈ sampleLifecycle, ∀ member ∈ ["source_event_at",
    "signature_key_version", "public_key_fingerprint", call.transition.timestampKey],
    (call.args.metadataText member).isSome = true by decide +kernel) call hcall
  payload := (show ∀ call ∈ sampleLifecycle, ∀ member ∈ ["signature_key_version",
    "public_key_fingerprint", call.transition.timestampKey],
    (call.args.payloadText member).isSome = true by decide +kernel) call hcall
  source := (show ∀ call ∈ sampleLifecycle, call.args.entry.sourceEventId.isSome = true by
    decide +kernel) call hcall
  fresh args hcreate key hkey := by
    rw [hfresh args hcreate] at hkey
    cases hkey

/-- An instance: the sample key is created, activated and retired, and each transition is
evidenced. -/
theorem signingKeyLifecycle_evidenced_sampleKeyRetired :
    (∀ transition, transitionsMade sampleKeyRetired.ledger.signingPublicKeys transition 1 = 1) ∧
      KeysEvidenced sampleKeyPrimitives sampleSession sampleKeyRetired := by
  have hmade : ∀ transition ∈ [KeyTransition.created, .activated, .retired],
      transitionsMade sampleKeyRetired.ledger.signingPublicKeys transition 1 = 1 := by
    decide +kernel
  have hstep : ∀ call ∈ sampleLifecycle, ∀ db : SecretDb,
      (∀ args, call = .create args → db.ledger.signingPublicKeys = []) →
      CompleteKeyRun sampleKeyPrimitives sampleSession db
        (call.step sampleKeyPrimitives sampleSession db) := fun call hcall db hfresh =>
    .single ⟨call, ⟨isJsonb_sampleLifecycle hcall, isComplete_sampleLifecycle hcall hfresh⟩, rfl⟩
  have hrun : CompleteKeyRun sampleKeyPrimitives sampleSession (emptyStore [] [])
      sampleKeyRetired := by
    simp only [sampleKeyRetired, sampleLifecycle, List.foldl_cons, List.foldl_nil]
    exact ((hstep _ (by simp [sampleLifecycle]) _ fun _ _ => rfl).trans
      (hstep _ (by simp [sampleLifecycle]) _ (by rintro _ ⟨⟩))).trans
      (hstep _ (by simp [sampleLifecycle]) _ (by rintro _ ⟨⟩))
  obtain ⟨-, -, hevidenced⟩ := signingKeyLifecycle_evidenced sampleKeyPrimitives sampleSession []
  refine ⟨fun transition => hmade transition ?_, (hevidenced sampleKeyRetired hrun).1⟩
  cases transition <;> decide

/-- A key that is created twice has two entries for one transition, and a key that is activated with
an empty payload has none. -/
theorem transitions_without_evidence :
    (∃ db, KeyRun sampleKeyPrimitives sampleSession (emptyStore [] []) db ∧
      db.ledger.entries.countP (namesKey sampleSession .created 1) = 2 ∧
      transitionsMade db.ledger.signingPublicKeys .created 1 = 1) ∧
    (∃ db, KeyRun sampleKeyPrimitives sampleSession (emptyStore [] []) db ∧
      db.ledger.entries.countP (namesKey sampleSession .activated 1) = 0 ∧
      transitionsMade db.ledger.signingPublicKeys .activated 1 = 1) :=
  ⟨⟨(sampleCreate 2).step sampleKeyPrimitives sampleSession sampleCreated,
      .tail (.single ⟨sampleCreate 1, rfl⟩) ⟨sampleCreate 2, rfl⟩, by decide +kernel⟩,
    ⟨KeyCall.step sampleKeyPrimitives sampleSession sampleCreated
        (.activate (sampleKeyArgs .activated 2 [])),
      .tail (.single ⟨sampleCreate 1, rfl⟩) ⟨_, rfl⟩, by decide +kernel⟩⟩

end Mipsorcu
