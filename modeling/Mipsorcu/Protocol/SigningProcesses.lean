import Mipsorcu.Database.Incident
import Mipsorcu.Protocol.SigningKeys
import Mipsorcu.Server.Auditor
import Mipsorcu.Server.LedgerRpc

/-!
# Processes that sign

Every process signs its ledger entries with one key. The server and most commands ask the registry
once, when they start, whether that key is active; the procedures that append entries do not ask
again. A command that creates, activates or retires a key is a process of its own, which makes one
call and ends. The command that verifies a digest is not modelled here: it signs the incident it
may record without asking at all.

So an entry is signed by a key that is active when the entry is appended, as long as no key is
retired while another process still signs with it (`appended_by_active_key`).
-/

namespace Mipsorcu

open Sql

variable {P : Primitives}

/-! ### Starting -/

/-- `ensure_active_ledger_signing_public_key`. -/
def ensureActiveLedgerSigningPublicKey (db : SecretDb) (key : LedgerVerifyingKey P) :
    Except SupabaseRpcError Unit := do
  let row ← (rpcGetLedgerSigningPublicKeyStatus db (some key.keyVersion.val)).mapError
    SqlError.toRpcError
  let keyVersion ← (LedgerSignatureKeyVersion.ofI32 row.keyVersion).mapError fun _ =>
    .invalidResponse "ledger signing public key status returned invalid key_version"
  let publicKey ←
    (LedgerVerifyingKey.fromPublicKeyBytes P keyVersion row.publicKey).mapError fun _ =>
      .invalidResponse "ledger signing public key status returned invalid public_key"
  Result.require (row.algorithm == "ed25519")
    (.invalidResponse "ledger signing public key status returned invalid algorithm")
  Result.require (row.status == "active")
    (.invalidResponse "ledger signing public key is not active")
  Result.require (publicKey.publicKey == key.publicKey)
    (.invalidResponse "ledger signing public key does not match configured signing key")

/-- The registry has an active key of the version. -/
def IsActive (db : SecretDb) (keyVersion : ℤ) : Prop :=
  ∃ key ∈ db.ledger.signingPublicKeys, key.keyVersion = keyVersion ∧ key.status = "active"

theorem isActive_of_ensureActive {db : SecretDb} {key : LedgerVerifyingKey P} {u : Unit}
    (h : ensureActiveLedgerSigningPublicKey db key = .ok u) : IsActive db key.keyVersion.val := by
  simp only [ensureActiveLedgerSigningPublicKey, rpcGetLedgerSigningPublicKeyStatus,
    Result.ofOption_some, Result.ok_bind, Result.bind_eq_ok, Result.mapError_eq_ok,
    Result.require_eq_ok, Result.ofOption_eq_ok, beq_iff_eq] at h
  obtain ⟨row, ⟨_, -, hrow⟩, _, -, _, -, _, -, _, hstatus, -⟩ := h
  obtain ⟨hmem, hversion⟩ := signingKey?_eq_some hrow
  exact ⟨row, hmem, hversion, hstatus⟩

/-! ### The system -/

/-- A call of a server process. -/
inductive ServerCall where
  | store (call : StoreCall)
  | recordIncident (args : RecordIncidentArgs)

/-- The tables after the call, or the exception it raised. -/
def ServerCall.run (pg : PostgresSession) (db : SecretDb) : ServerCall → Except SqlError SecretDb
  | store call => call.run pg db
  | recordIncident args => Prod.fst <$> rpcRecordIncident pg db args

/-- The tables, and the processes that run with the versions of their signing keys. -/
structure SigningSystem where
  db : SecretDb
  running : List (ℕ × ℤ)
  deriving DecidableEq

/-- What can happen. -/
inductive SigningEvent (P : Primitives) where
  /-- A process starts, if its key is active. -/
  | start (pid : ℕ) (key : LedgerVerifyingKey P)
  /-- A running process makes a call. -/
  | call (pid : ℕ) (call : ServerCall)
  /-- A running process makes the one call of a key command, and ends. -/
  | command (pid : ℕ) (call : KeyCall)
  | stop (pid : ℕ)

/-- The rows that were added are signed with the key version. -/
def addedAreSignedWith (keyVersion : ℤ) (db db' : SecretDb) : Bool :=
  db'.ledger.entries.all fun row =>
    db.ledger.entries.contains row || row.signatureKeyVersion == keyVersion

namespace SigningSystem

/-- A transaction of a process: it raises, or commits with entries signed by the process. -/
def commit (s : SigningSystem) (keyVersion : ℤ) (result : Except SqlError SecretDb)
    (running : List (ℕ × ℤ)) : Option SigningSystem :=
  match result with
  | .error _ => some ⟨s.db, running⟩
  | .ok db' => if addedAreSignedWith keyVersion s.db db' then some ⟨db', running⟩ else none

/-- The processes without one of them. -/
def without (s : SigningSystem) (pid : ℕ) : List (ℕ × ℤ) :=
  s.running.filter fun process => process.1 != pid

/-- One event, if it can happen. -/
def step (pg : PostgresSession) (s : SigningSystem) : SigningEvent P → Option SigningSystem
  | .start pid key =>
    match ensureActiveLedgerSigningPublicKey s.db key with
    | .error _ => none
    | .ok _ => if (s.running.lookup pid).isSome then none
      else some { s with running := (pid, (key.keyVersion.val : ℤ)) :: s.running }
  | .call pid call => (s.running.lookup pid).bind fun keyVersion =>
    s.commit keyVersion (call.run pg s.db) s.running
  | .command pid call => (s.running.lookup pid).bind fun keyVersion =>
    s.commit keyVersion (call.run P pg s.db) (s.without pid)
  | .stop pid => some { s with running := s.without pid }

end SigningSystem

/-- No key is retired while another process signs with it. -/
def SigningEvent.RetiresUnused (pg : PostgresSession) (s : SigningSystem) : SigningEvent P → Prop
  | .command pid (.retire args) => ∀ keyVersion,
      keyVersionOrMetadata pg args = .ok (some keyVersion) →
      ∀ process ∈ s.running, process.2 = keyVersion → process.1 = pid
  | _ => True

/-! ### Calls and the registry -/

variable {db db' : SecretDb}

theorem rpcRecordIncident_appendOnly {pg : PostgresSession} {args : RecordIncidentArgs}
    {result : RecordIncidentRow} (h : rpcRecordIncident pg db args = .ok (db', result)) :
    AppendOnly db db' := by
  obtain ⟨i, -, ⟨-, rfl, -⟩ | ⟨-, -, recorded, row, happend, hledger, hframe⟩⟩ :=
    rpcRecordIncident_eq_ok h
  · exact .refl _
  · obtain ⟨entry, -, hcases⟩ := rpcAppendLedgerEntryFromJsonb_eq_ok hledger
    exact (appendOnly_of_appendAuditEvent happend).append_ledger hcases hframe

theorem ServerCall.run_appendOnly {pg : PostgresSession} {call : ServerCall}
    (h : call.run pg db = .ok db') : AppendOnly db db' := by
  cases call with
  | store call => exact StoreCall.run_appendOnly h
  | recordIncident args =>
    simp only [run, Result.map_eq_ok, Prod.exists] at h
    obtain ⟨_, result, hcall, rfl⟩ := h
    exact rpcRecordIncident_appendOnly hcall

theorem IsActive.of_registry_eq {keyVersion : ℤ}
    (h : db'.ledger.signingPublicKeys = db.ledger.signingPublicKeys)
    (hactive : IsActive db keyVersion) : IsActive db' keyVersion := by
  rw [IsActive, h]
  exact hactive

/-- A key that is active stays active, unless the call retires it. -/
theorem IsActive.keyCall {pg : PostgresSession} {call : KeyCall} {keyVersion : ℤ}
    (hactive : IsActive db keyVersion) (h : call.run P pg db = .ok db')
    (hretire : ∀ args, call = .retire args →
      keyVersionOrMetadata pg args ≠ .ok (some keyVersion)) : IsActive db' keyVersion := by
  obtain ⟨key, hkey, hversion, hstatus⟩ := hactive
  obtain ⟨moved, movedKey, -, hretired, hcommitted⟩ := KeyCall.committed h
  obtain ⟨time, hchanged⟩ := hcommitted.registry
  cases call with
  | create args =>
    generalize hrows : db'.ledger.signingPublicKeys = rows at hchanged
    cases hchanged with
    | created =>
      refine ⟨key, ?_, hversion, hstatus⟩
      rw [hrows]
      exact List.mem_append_left _ hkey
    | again =>
      refine ⟨key, ?_, hversion, hstatus⟩
      rw [hrows]
      exact hkey
  | activate args =>
    generalize hrows : db'.ledger.signingPublicKeys = rows at hchanged
    cases hchanged with
    | activated _ _ _ hmoved =>
      -- the row is not the one that was activated, which was not active before
      have hne : key.keyVersion ≠ moved := fun hcontra => by
        rcases (hmoved key hkey hcontra).status with ⟨hold, -⟩ | ⟨-, hnew, -⟩
        · rw [hstatus] at hold
          exact absurd hold (by decide)
        · exact absurd hnew (by simp)
      refine ⟨key, ?_, hversion, hstatus⟩
      rw [hrows]
      exact List.mem_map.mpr ⟨key, hkey, if_neg hne⟩
  | retire args =>
    generalize hrows : db'.ledger.signingPublicKeys = rows at hchanged
    cases hchanged with
    | retired =>
      have hne : key.keyVersion ≠ moved := fun hcontra =>
        hretire args rfl (by rw [hretired args rfl, ← hcontra, hversion])
      refine ⟨key, ?_, hversion, hstatus⟩
      rw [hrows]
      exact List.mem_map.mpr ⟨key, hkey, if_neg hne⟩

/-! ### One step -/

/-- Every running process signs with an active key. -/
def SigningSystem.SignsActively (s : SigningSystem) : Prop :=
  ∀ process ∈ s.running, IsActive s.db process.2

/-- The rows a step adds are signed by a key that is active before the step. -/
def AddsActively (db db' : SecretDb) : Prop :=
  ∀ row ∈ db'.ledger.entries, row ∉ db.ledger.entries → IsActive db row.signatureKeyVersion

/-- What a transaction of a process commits. -/
inductive SigningSystem.Committed (s : SigningSystem) (keyVersion : ℤ)
    (result : Except SqlError SecretDb) (running : List (ℕ × ℤ)) : SigningSystem → Prop
  | raised {error : SqlError} (h : result = .error error) :
      Committed s keyVersion result running ⟨s.db, running⟩
  | committed {db' : SecretDb} (h : result = .ok db')
      (hsigned : ∀ row ∈ db'.ledger.entries, row ∉ s.db.ledger.entries →
        row.signatureKeyVersion = keyVersion) :
      Committed s keyVersion result running ⟨db', running⟩

section

variable {pg : PostgresSession} {s s' : SigningSystem}

variable {running : List (ℕ × ℤ)} {keyVersion : ℤ}

theorem SigningSystem.commit_eq_some {result : Except SqlError SecretDb}
    (h : s.commit keyVersion result running = some s') :
    s.Committed keyVersion result running s' := by
  unfold SigningSystem.commit at h
  split at h
  · obtain rfl := Option.some.inj h
    exact .raised rfl
  · split_ifs at h with hadded
    obtain rfl := Option.some.inj h
    refine .committed rfl fun row hrow hnew => ?_
    have hone := List.all_eq_true.mp hadded row hrow
    simpa [hnew] using hone

theorem SigningSystem.Committed.addsActively {result : Except SqlError SecretDb}
    (h : s.Committed keyVersion result running s') (hactive : IsActive s.db keyVersion) :
    AddsActively s.db s'.db := by
  intro row hrow hnew
  cases h with
  | raised => exact absurd hrow hnew
  | committed _ hsigned =>
    rw [hsigned row hrow hnew]
    exact hactive

theorem SigningSystem.mem_of_lookup {pid : ℕ} (h : running.lookup pid = some keyVersion) :
    (pid, keyVersion) ∈ running := by
  obtain ⟨before, after, heq, -⟩ := List.lookup_eq_some_iff.mp h
  rw [heq]
  simp

theorem SigningSystem.SignsActively.without (h : s.SignsActively) (pid : ℕ) :
    ∀ process ∈ s.without pid, process ∈ s.running ∧ process.1 ≠ pid ∧
      IsActive s.db process.2 := by
  intro process hmem
  obtain ⟨hrunning, hother⟩ := List.mem_filter.mp hmem
  exact ⟨hrunning, by simpa using hother, h process hrunning⟩

/-- **One step**: what is added is signed by an active key, as long as every running process signs
with one, and if no key in use is retired that stays so. -/
theorem SigningSystem.SignsActively.step {event : SigningEvent P} (h : s.SignsActively)
    (hstep : s.step pg event = some s') :
    AddsActively s.db s'.db ∧ (event.RetiresUnused pg s → s'.SignsActively) := by
  cases event with
  | start pid key =>
    simp only [SigningSystem.step] at hstep
    split at hstep
    · cases hstep
    · rename_i hensure
      split_ifs at hstep with hused
      obtain rfl := Option.some.inj hstep
      refine ⟨fun row hrow hnew => absurd hrow hnew, fun _ process hprocess => ?_⟩
      rcases List.mem_cons.mp hprocess with rfl | hold
      · exact isActive_of_ensureActive hensure
      · exact h process hold
  | call pid call =>
    obtain ⟨keyVersion, hlookup, hcommit⟩ := Option.bind_eq_some_iff.mp hstep
    have hcommitted := SigningSystem.commit_eq_some hcommit
    refine ⟨hcommitted.addsActively (h _ (SigningSystem.mem_of_lookup hlookup)), fun _ => ?_⟩
    cases hcommitted with
    | raised => exact h
    | committed hrun =>
      exact fun process hprocess =>
        (h process hprocess).of_registry_eq (ServerCall.run_appendOnly hrun).registry
  | command pid call =>
    obtain ⟨keyVersion, hlookup, hcommit⟩ := Option.bind_eq_some_iff.mp hstep
    have hcommitted := SigningSystem.commit_eq_some hcommit
    refine ⟨hcommitted.addsActively (h _ (SigningSystem.mem_of_lookup hlookup)), fun hguard => ?_⟩
    intro process hprocess
    cases hcommitted with
    | raised => exact (h.without pid process hprocess).2.2
    | committed hrun =>
      obtain ⟨hrunning, hother, hactive⟩ := h.without pid process hprocess
      refine hactive.keyCall hrun ?_
      -- a retired key was used by no process but the caller, which has ended
      rintro args rfl hretired
      exact hother (hguard process.2 hretired process hrunning rfl)
  | stop pid =>
    obtain rfl := Option.some.inj hstep
    exact ⟨fun row hrow hnew => absurd hrow hnew,
      fun _ process hprocess => (h.without pid process hprocess).2.2⟩

/-- Whatever happens, the rows of the registry stay or move forward. -/
theorem SigningSystem.step_registryFollows {event : SigningEvent P}
    (hstep : s.step pg event = some s') :
    RegistryFollows s.db.ledger.signingPublicKeys s'.db.ledger.signingPublicKeys := by
  cases event with
  | start pid key =>
    simp only [SigningSystem.step] at hstep
    split at hstep
    · cases hstep
    · split_ifs at hstep
      obtain rfl := Option.some.inj hstep
      exact .refl _
  -- the calls of the server leave the registry alone; a command changes it by its own rules
  | call pid call =>
    obtain ⟨keyVersion, -, hcommit⟩ := Option.bind_eq_some_iff.mp hstep
    cases SigningSystem.commit_eq_some hcommit with
    | raised => exact .refl _
    | committed hrun =>
      rw [(ServerCall.run_appendOnly hrun).registry]
      exact .refl _
  | command pid call =>
    obtain ⟨keyVersion, -, hcommit⟩ := Option.bind_eq_some_iff.mp hstep
    cases SigningSystem.commit_eq_some hcommit with
    | raised => exact .refl _
    | committed hrun =>
      have hfollows := call.registryFollows P pg s.db
      rw [KeyCall.step, hrun] at hfollows
      exact hfollows
  | stop pid =>
    obtain rfl := Option.some.inj hstep
    exact .refl _

end

/-! ### Whole runs -/

theorem SigningSystem.registryFollows {pg : PostgresSession} {s s' : SigningSystem}
    (h : Transition.Reachable (SigningSystem.step (P := P) pg) s s') :
    RegistryFollows s.db.ledger.signingPublicKeys s'.db.ledger.signingPublicKeys := by
  refine Transition.invariant (fun t => RegistryFollows s.db.ledger.signingPublicKeys
    t.db.ledger.signingPublicKeys) ?_ (.refl _) h
  rintro a b hab ⟨event, hstep⟩
  exact hab.trans (SigningSystem.step_registryFollows hstep)

theorem SigningSystem.signsActively {pg : PostgresSession} {s₀ s : SigningSystem}
    (hidle : s₀.running = [])
    (h : Transition.ReachableWhere (SigningSystem.step (P := P) pg)
      (fun t event => event.RetiresUnused pg t) s₀ s) : s.SignsActively := by
  refine Transition.invariant SigningSystem.SignsActively ?_ ?_ h
  · rintro a b ha ⟨event, hguard, hstep⟩
    exact (ha.step hstep).2 hguard
  · intro process hprocess
    rw [hidle] at hprocess
    cases hprocess

/-- A retired key stays retired. -/
theorem KeyFollows.retired {old new : LedgerSigningPublicKeyRow} (h : KeyFollows old new)
    (hold : old.status = "retired") : new.status = "retired" := by
  refine Transition.invariant (· = "retired") ?_ hold h.status
  rintro _ b rfl (⟨hcreated, -⟩ | ⟨hactive, -⟩)
  · exact absurd hcreated (by decide)
  · exact absurd hactive (by decide)

/-- **Entries are signed by active keys**, in every run in which no key is retired while another
process signs with it. After a key was retired no entry is signed with it. -/
theorem appended_by_active_key (P : Primitives) (pg : PostgresSession) (s₀ s s' : SigningSystem)
    (hidle : s₀.running = [])
    (hkeys : (s₀.db.ledger.signingPublicKeys.map LedgerSigningPublicKeyRow.keyVersion).Nodup)
    (hrun : Transition.ReachableWhere (SigningSystem.step (P := P) pg)
      (fun t event => event.RetiresUnused pg t) s₀ s)
    (event : SigningEvent P) (hstep : s.step pg event = some s') :
    AddsActively s.db s'.db ∧
    ∀ t : SigningSystem, Transition.Reachable (SigningSystem.step (P := P) pg) t s →
      ∀ key ∈ t.db.ledger.signingPublicKeys, key.status = "retired" →
      ∀ row ∈ s'.db.ledger.entries, row ∉ s.db.ledger.entries →
        row.signatureKeyVersion ≠ key.keyVersion := by
  have hadds := ((SigningSystem.signsActively hidle hrun).step hstep).1
  refine ⟨hadds, fun t hbefore key hkey hretired row hrow hnew hversion => ?_⟩
  obtain ⟨active, hactive, hsame, hstatus⟩ := hadds row hrow hnew
  obtain ⟨later, hlater, hfollows⟩ := (SigningSystem.registryFollows hbefore).follows key hkey
  -- both rows have the version of the entry, so they are one row
  have heq : later = active := by
    refine List.inj_on_of_nodup_map ((SigningSystem.registryFollows hrun.reachable).nodup hkeys)
      hlater hactive ?_
    rw [hfollows.keyVersion, hsame, hversion]
  have hcontra := hfollows.retired hretired
  rw [heq, hstatus] at hcontra
  exact absurd hcontra (by decide)

/-! ### Two processes with one key -/

/-- The sample key is active, and no process runs. -/
def sampleIdle : SigningSystem :=
  ⟨(emptyStore [] []).withSigningKeys [sampleKeyRow], []⟩

/-- A process starts with the sample key. -/
def sampleStart (pid : ℕ) : SigningEvent sampleKeyPrimitives :=
  .start pid (sampleKey.verificationKey sampleKeyPrimitives)

/-- A process appends an audit event with its entry, as entry `sequenceNo`. -/
def sampleAppend (pid : ℕ) (sequenceNo : UInt8) : SigningEvent sampleKeyPrimitives :=
  .call pid (.store (.appendAuditEventWithLedger sampleAudit
    (sampleAuditEntry (sampleUuid 22) sequenceNo.toNat (sequenceNo - 1) sequenceNo)))

/-- A command retires the sample key. -/
def sampleRetire (pid : ℕ) : SigningEvent sampleKeyPrimitives :=
  .command pid (.retire (sampleKeyArgs .retired 1 (sampleKeyMembers .retired)))

/-- The state after an event, if it can happen. -/
def SigningSystem.after (s : SigningSystem) (event : SigningEvent P) : SigningSystem :=
  (s.step sampleSession event).getD s

theorem SigningSystem.step_eq_after {s : SigningSystem} {event : SigningEvent P}
    (h : (s.step sampleSession event).isSome) :
    s.step sampleSession event = some (s.after event) := by
  obtain ⟨s', hs'⟩ := Option.isSome_iff_exists.mp h
  rw [SigningSystem.after, hs', Option.getD_some]

/-- The state after one process has started. -/
def sampleRunning : SigningSystem :=
  sampleIdle.after (sampleStart 1)

/-- The same with a second one. -/
def sampleBoth : SigningSystem :=
  sampleRunning.after (sampleStart 2)

/-- The state after the second process has retired the key of both. -/
def sampleRetired : SigningSystem :=
  sampleBoth.after (sampleRetire 2)

/-- An instance: a process starts and appends an entry, signed by the active key. -/
theorem appended_by_active_key_sampleRunning :
    (sampleRunning.after (sampleAppend 1 1)).db.ledger.entries.length = 1 ∧
      AddsActively sampleRunning.db (sampleRunning.after (sampleAppend 1 1)).db := by
  have hrun : (sampleIdle.step sampleSession (sampleStart 1)).isSome ∧
      (sampleRunning.step sampleSession (sampleAppend 1 1)).isSome ∧
      (sampleRunning.after (sampleAppend 1 1)).db.ledger.entries.length = 1 := by
    decide +kernel
  obtain ⟨hstart, happend, hlength⟩ := hrun
  exact ⟨hlength, (appended_by_active_key sampleKeyPrimitives sampleSession sampleIdle sampleRunning
    _ rfl (by decide) (.single ⟨sampleStart 1, trivial, SigningSystem.step_eq_after hstart⟩)
    (sampleAppend 1 1) (SigningSystem.step_eq_after happend)).1⟩

/-- The first of two processes appends an entry after the second has retired their key. -/
theorem appended_by_retired_key :
    ∃ s s' : SigningSystem, ∃ event : SigningEvent sampleKeyPrimitives,
      Transition.Reachable (SigningSystem.step (P := sampleKeyPrimitives) sampleSession)
        sampleIdle s ∧
      s.step sampleSession event = some s' ∧
      (∀ key ∈ s.db.ledger.signingPublicKeys, key.status = "retired") ∧
      ∃ row ∈ s'.db.ledger.entries, row ∉ s.db.ledger.entries ∧ row.signatureKeyVersion = 1 := by
  have hrun : (sampleIdle.step sampleSession (sampleStart 1)).isSome ∧
      (sampleRunning.step sampleSession (sampleStart 2)).isSome ∧
      (sampleBoth.step sampleSession (sampleRetire 2)).isSome ∧
      (sampleRetired.step sampleSession (sampleAppend 1 2)).isSome ∧
      (∀ key ∈ sampleRetired.db.ledger.signingPublicKeys, key.status = "retired") ∧
      ∃ row ∈ (sampleRetired.after (sampleAppend 1 2)).db.ledger.entries,
        row ∉ sampleRetired.db.ledger.entries ∧ row.signatureKeyVersion = 1 := by
    decide +kernel
  obtain ⟨hfirst, hsecond, hretire, happend, hretired, hrow⟩ := hrun
  refine ⟨sampleRetired, sampleRetired.after (sampleAppend 1 2), sampleAppend 1 2, ?_,
    SigningSystem.step_eq_after happend, hretired, hrow⟩
  exact ((Relation.ReflTransGen.single ⟨sampleStart 1, SigningSystem.step_eq_after hfirst⟩).tail
    ⟨sampleStart 2, SigningSystem.step_eq_after hsecond⟩).tail
    ⟨sampleRetire 2, SigningSystem.step_eq_after hretire⟩

end Mipsorcu
