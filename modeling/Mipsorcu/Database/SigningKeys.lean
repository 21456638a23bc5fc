import Mipsorcu.Database.AuditEvents
import Mipsorcu.Ledger.Crypto

/-!
# The registry of signing keys

The table `ledger_signing_public_keys` with its constraints and its trigger, and the three
procedures that move a key from `created` to `active` to `retired`. Each procedure changes the
registry, appends an event and appends a ledger entry, in one transaction.

The arguments are compared in one conjunction under `NOT`. A comparison with a missing member is
unknown, and a negated conjunction raises only if one of its parts is false
(`Truth.holds_not_all_eq_false`): what is missing is not compared.
-/

namespace Mipsorcu

/-- The tables with another registry. -/
def SecretDb.withSigningKeys (db : SecretDb) (rows : List LedgerSigningPublicKeyRow) : SecretDb :=
  { db with ledger := { db.ledger with signingPublicKeys := rows } }

namespace Sql

/-! ### Transitions -/

/-- The transitions of a signing key. -/
inductive KeyTransition where
  | created
  | activated
  | retired
  deriving DecidableEq

namespace KeyTransition

/-- The action of the event and the type of the entry. -/
def action : KeyTransition → String
  | created => "signature_key_created"
  | activated => "signature_key_activated"
  | retired => "signature_key_retired"

/-- The member that holds the time of the transition. -/
def timestampKey : KeyTransition → String
  | created => "created_at"
  | activated => "activated_at"
  | retired => "retired_at"

/-- The column that holds the time of the transition. -/
def time? : KeyTransition → LedgerSigningPublicKeyRow → Option ℤ
  | created, key => some key.createdAt
  | activated, key => key.activatedAt
  | retired, key => key.retiredAt

theorem action_injective : Function.Injective action := by
  intro a b h
  cases a <;> cases b <;> first | rfl | exact absurd h (by decide)

end KeyTransition

/-! ### The table -/

/-- An update of what must not change. -/
def signingKeysImmutable : SqlError := ⟨"ledger_signing_public_keys_immutable", "42501"⟩

/-- An update of the status that does not lead forward. -/
def lifecycleInvalidTransition : SqlError :=
  ⟨"ledger_signing_public_key_lifecycle_invalid_transition on ledger_signing_public_keys", "42501"⟩

/-- There is no key of the version. -/
def signingKeyNotFound : SqlError := ⟨"ledger_signing_public_key_not_found", "02000"⟩

/-- The check constraints of the table, in the order of their names. -/
def signingKeyChecks (key : LedgerSigningPublicKeyRow) : List (String × Bool) := [
  ("ledger_signing_public_keys_active_timestamps",
    key.status != "active" || (key.activatedAt.isSome && key.retiredAt.isNone)),
  ("ledger_signing_public_keys_algorithm_fixed", key.algorithm == "ed25519"),
  ("ledger_signing_public_keys_created_timestamps",
    key.status != "created" || (key.activatedAt.isNone && key.retiredAt.isNone)),
  ("ledger_signing_public_keys_key_version_positive", decide (0 < key.keyVersion)),
  ("ledger_signing_public_keys_public_key_len", key.publicKey.length == 32),
  ("ledger_signing_public_keys_retired_timestamps",
    key.status != "retired" || (key.activatedAt.isSome && key.retiredAt.isSome)),
  ("ledger_signing_public_keys_status_allowed",
    ["created", "active", "retired"].contains key.status)]

/-- The constraints of the table. -/
def checkSigningKey (key : LedgerSigningPublicKeyRow) : Except SqlError Unit :=
  Result.forEach (fun c => Result.require c.2 (checkViolation "ledger_signing_public_keys" c.1))
    (signingKeyChecks key)

/-- The update branch of `ledger_signing_public_keys_check_mutation`. -/
def checkMutation (old new : LedgerSigningPublicKeyRow) : Except SqlError Unit := do
  Result.require (old.keyVersion == new.keyVersion && old.publicKey == new.publicKey &&
    old.algorithm == new.algorithm && old.createdAt == new.createdAt) signingKeysImmutable
  Result.require
    ((old.status == "created" && new.status == "active" && old.activatedAt.isNone &&
        new.activatedAt.isSome && old.retiredAt.isNone && new.retiredAt.isNone) ||
      (old.status == "active" && new.status == "retired" && old.activatedAt.isSome &&
        old.activatedAt == new.activatedAt && old.retiredAt.isNone && new.retiredAt.isSome))
    lifecycleInvalidTransition

/-- `insert into ledger_signing_public_keys`. -/
def insertSigningKey (db : SecretDb) (key : LedgerSigningPublicKeyRow) :
    Except SqlError SecretDb := do
  checkSigningKey key
  Result.require (db.ledger.signingPublicKeys.all fun k => k.keyVersion != key.keyVersion)
    (uniqueViolation "ledger_signing_public_keys_pkey")
  pure (db.withSigningKeys (db.ledger.signingPublicKeys ++ [key]))

/-- `update ledger_signing_public_keys … where key_version = keyVersion`. -/
def updateSigningKey (db : SecretDb) (keyVersion : ℤ)
    (update : LedgerSigningPublicKeyRow → LedgerSigningPublicKeyRow) :
    Except SqlError SecretDb := do
  let rows ← Result.traverse (fun key => do
    if key.keyVersion = keyVersion then
      checkMutation key (update key)
      checkSigningKey (update key)
      pure (update key)
    else pure key) db.ledger.signingPublicKeys
  pure (db.withSigningKeys rows)

/-- The row of a key version. -/
def signingKey? (db : SecretDb) (keyVersion : ℤ) : Option LedgerSigningPublicKeyRow :=
  db.ledger.signingPublicKeys.find? fun key => key.keyVersion == keyVersion

/-- `rpc_get_ledger_signing_public_key_status`. -/
def rpcGetLedgerSigningPublicKeyStatus (db : SecretDb) (keyVersion : Option ℤ) :
    Except SqlError LedgerSigningPublicKeyRow := do
  let keyVersion ← Result.ofOption invalidRpcInput keyVersion
  Result.require (decide (0 < keyVersion)) invalidRpcInput
  Result.ofOption signingKeyNotFound (signingKey? db keyVersion)

/-! ### The arguments -/

/-- The arguments of the three procedures; `publicKey` is read by the first only. The event and the
entry share the request, the actor, the target and the result. -/
structure SigningKeyArgs where
  keyVersion : Option ℤ
  publicKey : Option (List UInt8)
  audit : AppendAuditEventArgs
  entry : AppendLedgerEntryArgs

namespace SigningKeyArgs

/-- `p_metadata_json ->> key`. -/
def metadataText (args : SigningKeyArgs) (key : String) : Option String :=
  args.audit.metadataJson.bind fun metadata => memberText metadata key

/-- `p_payload ->> key`. -/
def payloadText (args : SigningKeyArgs) (key : String) : Option String :=
  args.entry.payload.bind fun payload => memberText payload key

/-- No actor and no target. -/
def isImpersonal (args : SigningKeyArgs) : Bool :=
  args.audit.actorUserId.isNone && args.audit.actorDeviceId.isNone &&
    args.audit.targetSecretId.isNone && args.entry.targetSecretVersionId.isNone

end SigningKeyArgs

/-- `ledger_signing_public_key_fingerprint`. -/
def ledgerSigningPublicKeyFingerprint (P : Primitives) (publicKey : List UInt8) : String :=
  (P.sha256 publicKey).toHex

/-- `ledger_payload_schema_is_valid` of arguments that may be null. -/
def payloadSchemaTruth (entryType : Option String) : Option Json → Truth
  | some (.object members) => entryType.map fun t => ledgerPayloadSchemaIsValid t members
  | _ => some false

/-- `jsonb_build_object('source_event_at', text)`. -/
def sourceEventAtObject (text : Option String) : Json :=
  .object [("source_event_at", (text.map Json.string).getD .null)]

/-- The conjuncts of `signature_key_lifecycle_input_is_valid`. The two version members are given as
the integers they were cast to. -/
def lifecycleConditions (transition : KeyTransition) (keyVersion : ℤ) (fingerprint : String)
    (args : SigningKeyArgs) (metadataVersion payloadVersion : Option ℤ) : List Truth := [
  .eq args.audit.action (some transition.action),
  .eq args.entry.entryType (some transition.action),
  .eq args.audit.result (some "success"),
  .isNull args.audit.keyVersion,
  .eq args.entry.sourceEventId args.audit.auditEventId,
  some (auditMetadataTimeIsValid (sourceEventAtObject args.entry.sourceEventAt)),
  .eq (args.metadataText "source_event_at") args.entry.sourceEventAt,
  .eq metadataVersion (some keyVersion),
  .eq (args.metadataText "public_key_fingerprint") (some fingerprint),
  .eq (args.metadataText transition.timestampKey) args.entry.sourceEventAt,
  payloadSchemaTruth args.entry.entryType args.entry.payload,
  .eq payloadVersion (some keyVersion),
  .eq (args.payloadText "public_key_fingerprint") (some fingerprint),
  .eq (args.payloadText transition.timestampKey) args.entry.sourceEventAt]

/-- `text::integer`, where null stays null. -/
def castKeyVersion (pg : PostgresSession) : Option String → Except SqlError (Option ℤ) :=
  castNullable pg.castInteger (invalidTextRepresentation "integer")

/-- `if not signature_key_lifecycle_input_is_valid(…) then raise`. -/
def checkLifecycleInput (P : Primitives) (pg : PostgresSession) (transition : KeyTransition)
    (keyVersion : ℤ) (publicKey : List UInt8) (args : SigningKeyArgs) : Except SqlError Unit := do
  let metadataVersion ← castKeyVersion pg (args.metadataText "signature_key_version")
  let payloadVersion ← castKeyVersion pg (args.payloadText "signature_key_version")
  Result.require (!(Truth.not (Truth.all (lifecycleConditions transition keyVersion
    (ledgerSigningPublicKeyFingerprint P publicKey) args metadataVersion payloadVersion))).holds)
    invalidRpcInput

/-- `p_source_event_at::timestamptz`, after the check that it has that form. -/
def transitionTime (args : SigningKeyArgs) : Except SqlError ℤ :=
  Result.ofOption (invalidTextRepresentation "timestamp with time zone")
    (args.entry.sourceEventAt.bind fun text => (timestamptz text).map Nat.cast)

/-! ### The procedures -/

/-- `rpc_create_ledger_signing_public_key_with_ledger`. A key that is still `created` may be created
again. -/
def rpcCreateLedgerSigningPublicKeyWithLedger (P : Primitives) (pg : PostgresSession)
    (db : SecretDb) (args : SigningKeyArgs) :
    Except SqlError (SecretDb × AppendLedgerEntryRow) := do
  let keyVersion ← Result.ofOption invalidRpcInput args.keyVersion
  let publicKey ← Result.ofOption invalidRpcInput args.publicKey
  Result.require (decide (0 < keyVersion) && publicKey.length == 32 && args.isImpersonal)
    invalidRpcInput
  checkLifecycleInput P pg .created keyVersion publicKey args
  let db ← match signingKey? db keyVersion with
    -- a retry: the same key that nothing has happened to since
    | some existing => do
      Result.require (existing.publicKey == publicKey && existing.status == "created")
        lifecycleInvalidTransition
      pure db
    | none => do
      let createdAt ← transitionTime args
      insertSigningKey db { keyVersion, publicKey, algorithm := "ed25519", status := "created",
                            createdAt, activatedAt := none, retiredAt := none }
  appendEventAndEntry pg db args.audit args.entry

/-- `coalesce(p_key_version, (p_metadata_json ->> 'signature_key_version')::integer)`. -/
def keyVersionOrMetadata (pg : PostgresSession) (args : SigningKeyArgs) :
    Except SqlError (Option ℤ) :=
  match args.keyVersion with
  | some keyVersion => pure (some keyVersion)
  | none => castKeyVersion pg (args.metadataText "signature_key_version")

/-- The common body of the two procedures that move a stored key. -/
def moveSigningKey (P : Primitives) (pg : PostgresSession) (db : SecretDb) (args : SigningKeyArgs)
    (transition : KeyTransition) (fromStatus : String)
    (update : ℤ → LedgerSigningPublicKeyRow → LedgerSigningPublicKeyRow) :
    Except SqlError (SecretDb × AppendLedgerEntryRow) := do
  let given ← keyVersionOrMetadata pg args
  let keyVersion ← Result.ofOption invalidRpcInput given
  Result.require (decide (0 < keyVersion) && args.isImpersonal) invalidRpcInput
  let key ← Result.ofOption signingKeyNotFound (signingKey? db keyVersion)
  Result.require (key.status == fromStatus) lifecycleInvalidTransition
  checkLifecycleInput P pg transition keyVersion key.publicKey args
  let time ← transitionTime args
  let db ← updateSigningKey db keyVersion (update time)
  appendEventAndEntry pg db args.audit args.entry

/-- `rpc_activate_ledger_signing_public_key_with_ledger`. -/
def rpcActivateLedgerSigningPublicKeyWithLedger (P : Primitives) (pg : PostgresSession)
    (db : SecretDb) (args : SigningKeyArgs) :
    Except SqlError (SecretDb × AppendLedgerEntryRow) :=
  moveSigningKey P pg db args .activated "created" fun time key =>
    { key with status := "active", activatedAt := some time }

/-- `rpc_retire_ledger_signing_public_key_with_ledger`. -/
def rpcRetireLedgerSigningPublicKeyWithLedger (P : Primitives) (pg : PostgresSession)
    (db : SecretDb) (args : SigningKeyArgs) :
    Except SqlError (SecretDb × AppendLedgerEntryRow) :=
  moveSigningKey P pg db args .retired "active" fun time key =>
    { key with status := "retired", retiredAt := some time }

/-! ### What the procedures do -/

/-- A key keeps its bytes, its algorithm and its creation time, and makes one transition. -/
structure KeyMoved (old new : LedgerSigningPublicKeyRow) : Prop where
  keyVersion : new.keyVersion = old.keyVersion
  publicKey : new.publicKey = old.publicKey
  algorithm : new.algorithm = old.algorithm
  createdAt : new.createdAt = old.createdAt
  status : (old.status = "created" ∧ new.status = "active") ∨
    (old.status = "active" ∧ new.status = "retired" ∧ new.activatedAt = old.activatedAt)

theorem checkMutation_eq_ok {old new : LedgerSigningPublicKeyRow} {u : Unit}
    (h : checkMutation old new = .ok u) : KeyMoved old new := by
  simp only [checkMutation, Result.bind_eq_ok, Result.require_eq_ok, Bool.and_eq_true,
    Bool.or_eq_true, beq_iff_eq] at h
  obtain ⟨_, ⟨⟨⟨hversion, hkey⟩, halgorithm⟩, hcreated⟩, hmoves⟩ := h
  refine ⟨hversion.symm, hkey.symm, halgorithm.symm, hcreated.symm, ?_⟩
  rcases hmoves with ⟨⟨⟨⟨⟨hold, hnew⟩, -⟩, -⟩, -⟩, -⟩ | ⟨⟨⟨⟨⟨hold, hnew⟩, -⟩, hactivated⟩, -⟩, -⟩
  · exact .inl ⟨hold, hnew⟩
  · exact .inr ⟨hold, hnew, hactivated.symm⟩

variable {keyVersion : ℤ}

/-- An update maps the registry, and every row it changes makes a transition. -/
theorem updateSigningKey_eq_ok {db db' : SecretDb}
    {update : LedgerSigningPublicKeyRow → LedgerSigningPublicKeyRow}
    (h : updateSigningKey db keyVersion update = .ok db') :
    (∀ key ∈ db.ledger.signingPublicKeys, key.keyVersion = keyVersion → KeyMoved key (update key)) ∧
      db' = db.withSigningKeys (db.ledger.signingPublicKeys.map fun key =>
        if key.keyVersion = keyVersion then update key else key) := by
  simp only [updateSigningKey, Result.bind_eq_ok, Result.traverse_eq_ok, Result.pure_eq_ok] at h
  obtain ⟨rows, hrows, rfl⟩ := h
  generalize db.ledger.signingPublicKeys = registry at hrows
  suffices hstep : (∀ key ∈ registry, key.keyVersion = keyVersion → KeyMoved key (update key)) ∧
      rows = registry.map fun key => if key.keyVersion = keyVersion then update key else key by
    exact ⟨hstep.1, by rw [hstep.2]⟩
  -- the trigger checks each row that changes; the others stay
  induction hrows with
  | nil => exact ⟨by simp, rfl⟩
  | @cons key row registry rows hrow _ ih =>
    obtain ⟨hmoved, rfl⟩ := ih
    split_ifs at hrow with hversion
    · simp only [Result.bind_eq_ok, Result.pure_eq_ok] at hrow
      obtain ⟨_, hmutation, _, -, rfl⟩ := hrow
      refine ⟨List.forall_mem_cons.mpr ⟨fun _ => checkMutation_eq_ok hmutation, hmoved⟩, ?_⟩
      rw [List.map_cons, if_pos hversion]
    · rw [Result.pure_eq_ok] at hrow
      subst hrow
      refine ⟨List.forall_mem_cons.mpr ⟨fun hcontra => absurd hcontra hversion, hmoved⟩, ?_⟩
      rw [List.map_cons, if_neg hversion]

theorem insertSigningKey_eq_ok {db db' : SecretDb} {key : LedgerSigningPublicKeyRow}
    (h : insertSigningKey db key = .ok db') :
    (∀ k ∈ db.ledger.signingPublicKeys, k.keyVersion ≠ key.keyVersion) ∧
      db' = db.withSigningKeys (db.ledger.signingPublicKeys ++ [key]) := by
  simp only [insertSigningKey, Result.bind_eq_ok, Result.require_eq_ok, Result.pure_eq_ok,
    List.all_eq_true, bne_iff_ne] at h
  obtain ⟨_, -, _, hfresh, rfl⟩ := h
  exact ⟨hfresh, rfl⟩

theorem signingKey?_eq_some {db : SecretDb} {key : LedgerSigningPublicKeyRow}
    (h : signingKey? db keyVersion = some key) :
    key ∈ db.ledger.signingPublicKeys ∧ key.keyVersion = keyVersion :=
  ⟨List.mem_of_find?_eq_some h, by simpa using List.find?_some h⟩

/-- What the comparisons leave possible: a compared value that is there is the expected one. -/
structure LifecycleInput (P : Primitives) (pg : PostgresSession) (transition : KeyTransition)
    (keyVersion : ℤ) (publicKey : List UInt8) (args : SigningKeyArgs) : Prop where
  entryType : ∀ t, args.entry.entryType = some t → t = transition.action
  action : ∀ a, args.audit.action = some a → a = transition.action
  sourceEventId : ∀ id id', args.entry.sourceEventId = some id →
    args.audit.auditEventId = some id' → id = id'
  time : ∃ text micros, args.entry.sourceEventAt = some text ∧ timestamptz text = some micros
  metadataSource : ∀ text text', args.metadataText "source_event_at" = some text →
    args.entry.sourceEventAt = some text' → text = text'
  metadataVersion : ∀ text, args.metadataText "signature_key_version" = some text →
    pg.castInteger text = some keyVersion
  metadataFingerprint : ∀ text, args.metadataText "public_key_fingerprint" = some text →
    text = ledgerSigningPublicKeyFingerprint P publicKey
  metadataTime : ∀ text text', args.metadataText transition.timestampKey = some text →
    args.entry.sourceEventAt = some text' → text = text'
  payloadVersion : ∀ text, args.payloadText "signature_key_version" = some text →
    pg.castInteger text = some keyVersion
  payloadFingerprint : ∀ text, args.payloadText "public_key_fingerprint" = some text →
    text = ledgerSigningPublicKeyFingerprint P publicKey
  payloadTime : ∀ text text', args.payloadText transition.timestampKey = some text →
    args.entry.sourceEventAt = some text' → text = text'

theorem castKeyVersion_eq_ok {pg : PostgresSession} {text : Option String} {value : Option ℤ}
    (h : castKeyVersion pg text = .ok value)
    (hvalue : Truth.eq value (some keyVersion) ≠ some false) (t : String) (ht : text = some t) :
    pg.castInteger t = some keyVersion := by
  rcases castNullable_eq_ok.mp h with ⟨hnone, -⟩ | ⟨t', v, ht', hcast, rfl⟩
  · rw [hnone] at ht
    cases ht
  · obtain rfl : t' = t := Option.some.inj (ht'.symm.trans ht)
    rw [hcast, Truth.eq_ne_false.mp hvalue v keyVersion rfl rfl]

theorem exists_time_of_valid {text : Option String}
    (h : auditMetadataTimeIsValid (sourceEventAtObject text) = true) :
    ∃ t micros, text = some t ∧ timestamptz t = some micros := by
  cases text with
  | none => simp [auditMetadataTimeIsValid, sourceEventAtObject] at h
  | some t =>
    simp only [auditMetadataTimeIsValid, sourceEventAtObject, Option.map_some, Option.getD_some,
      List.lookup_cons, beq_self_eq_true] at h
    obtain ⟨micros, hmicros⟩ := Option.isSome_iff_exists.mp h
    exact ⟨t, micros, rfl, hmicros⟩

theorem checkLifecycleInput_eq_ok {P : Primitives} {pg : PostgresSession}
    {transition : KeyTransition} {publicKey : List UInt8} {args : SigningKeyArgs} {u : Unit}
    (h : checkLifecycleInput P pg transition keyVersion publicKey args = .ok u) :
    LifecycleInput P pg transition keyVersion publicKey args := by
  simp only [checkLifecycleInput, Result.bind_eq_ok, Result.require_eq_ok, Bool.not_eq_true',
    Truth.holds_not_all_eq_false, lifecycleConditions, List.forall_mem_cons] at h
  obtain ⟨metadataVersion, hmetadata, payloadVersion, hpayload, haction, htype, -, -, hsource,
    hvalid, hmetadataSource, hmetadataVersion, hmetadataFingerprint, hmetadataTime, -,
    hpayloadVersion, hpayloadFingerprint, hpayloadTime, -⟩ := h
  rw [Truth.eq_ne_false] at haction htype hsource hmetadataSource hmetadataFingerprint
  rw [Truth.eq_ne_false] at hmetadataTime hpayloadFingerprint hpayloadTime
  exact {
    entryType := fun t ht => htype t _ ht rfl
    action := fun a ha => haction a _ ha rfl
    sourceEventId := hsource
    time := exists_time_of_valid (by simpa using hvalid)
    metadataSource := hmetadataSource
    metadataVersion := castKeyVersion_eq_ok hmetadata hmetadataVersion
    metadataFingerprint := fun text ht => hmetadataFingerprint text _ ht rfl
    metadataTime := hmetadataTime
    payloadVersion := castKeyVersion_eq_ok hpayload hpayloadVersion
    payloadFingerprint := fun text ht => hpayloadFingerprint text _ ht rfl
    payloadTime := hpayloadTime }

/-- What a committed call does to the registry: a key is added, or is there already and stays, or
makes a transition. The last argument is the key afterwards. -/
inductive RegistryChanged (keyVersion time : ℤ) (registry : List LedgerSigningPublicKeyRow) :
    KeyTransition → List LedgerSigningPublicKeyRow → LedgerSigningPublicKeyRow → Prop
  | created {publicKey : List UInt8} (hfresh : ∀ k ∈ registry, k.keyVersion ≠ keyVersion) :
      RegistryChanged keyVersion time registry .created
        (registry ++ [⟨keyVersion, publicKey, "ed25519", "created", time, none, none⟩])
        ⟨keyVersion, publicKey, "ed25519", "created", time, none, none⟩
  | again {key : LedgerSigningPublicKeyRow} (hmem : key ∈ registry)
      (hversion : key.keyVersion = keyVersion) (hstatus : key.status = "created") :
      RegistryChanged keyVersion time registry .created registry key
  | activated {key : LedgerSigningPublicKeyRow} (hmem : key ∈ registry)
      (hversion : key.keyVersion = keyVersion) (hstatus : key.status = "created")
      (hmoved : ∀ k ∈ registry, k.keyVersion = keyVersion →
        KeyMoved k { k with status := "active", activatedAt := some time }) :
      RegistryChanged keyVersion time registry .activated
        (registry.map fun k => if k.keyVersion = keyVersion then
          { k with status := "active", activatedAt := some time } else k)
        { key with status := "active", activatedAt := some time }
  | retired {key : LedgerSigningPublicKeyRow} (hmem : key ∈ registry)
      (hversion : key.keyVersion = keyVersion) (hstatus : key.status = "active")
      (hmoved : ∀ k ∈ registry, k.keyVersion = keyVersion →
        KeyMoved k { k with status := "retired", retiredAt := some time }) :
      RegistryChanged keyVersion time registry .retired
        (registry.map fun k => if k.keyVersion = keyVersion then
          { k with status := "retired", retiredAt := some time } else k)
        { key with status := "retired", retiredAt := some time }

/-- **All a committed call can do.** -/
structure KeyCommitted (P : Primitives) (pg : PostgresSession) (transition : KeyTransition)
    (db : SecretDb) (args : SigningKeyArgs) (keyVersion : ℤ) (key : LedgerSigningPublicKeyRow)
    (db' : SecretDb) : Prop where
  input : LifecycleInput P pg transition keyVersion key.publicKey args
  exists_change : ∃ text micros registry result, args.entry.sourceEventAt = some text ∧
    timestamptz text = some micros ∧
    RegistryChanged keyVersion micros db.ledger.signingPublicKeys transition registry key ∧
    appendEventAndEntry pg (db.withSigningKeys registry) args.audit args.entry = .ok (db', result)

section

variable {P : Primitives} {pg : PostgresSession} {db db' : SecretDb} {args : SigningKeyArgs}
  {result : AppendLedgerEntryRow}

theorem transitionTime_eq_ok {time : ℤ} {text : String} {micros : ℕ}
    (htext : args.entry.sourceEventAt = some text) (hmicros : timestamptz text = some micros)
    (h : transitionTime args = .ok time) : time = micros := by
  simp only [transitionTime, htext, hmicros, Option.bind_some, Option.map_some,
    Result.ofOption_some, Except.ok.injEq] at h
  exact h.symm

theorem rpcCreateLedgerSigningPublicKeyWithLedger_eq_ok
    (h : rpcCreateLedgerSigningPublicKeyWithLedger P pg db args = .ok (db', result)) :
    ∃ keyVersion key, args.keyVersion = some keyVersion ∧
      KeyCommitted P pg .created db args keyVersion key db' := by
  simp only [rpcCreateLedgerSigningPublicKeyWithLedger, Result.bind_eq_ok,
    Result.ofOption_eq_ok] at h
  obtain ⟨keyVersion, hversion, publicKey, -, _, -, _, hinput, h⟩ := h
  have hinput := checkLifecycleInput_eq_ok hinput
  obtain ⟨text, micros, htext, hmicros⟩ := hinput.time
  split at h
  · rename_i existing hfound
    simp only [Result.bind_eq_ok, Result.require_eq_ok, Bool.and_eq_true, beq_iff_eq,
      Result.pure_eq_ok] at h
    obtain ⟨_, ⟨hkey, hstatus⟩, _, rfl, happend⟩ := h
    obtain ⟨hmem, hexisting⟩ := signingKey?_eq_some hfound
    exact ⟨keyVersion, existing, hversion, hkey ▸ hinput, text, micros, _, result, htext, hmicros,
      .again hmem hexisting hstatus, happend⟩
  · simp only [Result.bind_eq_ok] at h
    obtain ⟨time, htime, db₁, hinsert, happend⟩ := h
    obtain rfl := transitionTime_eq_ok htext hmicros htime
    obtain ⟨hfresh, rfl⟩ := insertSigningKey_eq_ok hinsert
    exact ⟨keyVersion, _, hversion, hinput, text, micros, _, result, htext, hmicros,
      .created hfresh, happend⟩

theorem moveSigningKey_eq_ok {transition : KeyTransition} {fromStatus : String}
    {update : ℤ → LedgerSigningPublicKeyRow → LedgerSigningPublicKeyRow}
    (h : moveSigningKey P pg db args transition fromStatus update = .ok (db', result)) :
    ∃ keyVersion key text, ∃ micros : ℕ, keyVersionOrMetadata pg args = .ok (some keyVersion) ∧
      key ∈ db.ledger.signingPublicKeys ∧
      key.keyVersion = keyVersion ∧ key.status = fromStatus ∧
      LifecycleInput P pg transition keyVersion key.publicKey args ∧
      args.entry.sourceEventAt = some text ∧ timestamptz text = some micros ∧
      (∀ k ∈ db.ledger.signingPublicKeys, k.keyVersion = keyVersion →
        KeyMoved k (update micros k)) ∧
      appendEventAndEntry pg (db.withSigningKeys (db.ledger.signingPublicKeys.map fun k =>
        if k.keyVersion = keyVersion then update micros k else k)) args.audit args.entry =
        .ok (db', result) := by
  simp only [moveSigningKey, Result.bind_eq_ok, Result.ofOption_eq_ok, Result.require_eq_ok,
    beq_iff_eq] at h
  obtain ⟨given, hgiven, keyVersion, rfl, _, -, key, hfound, _, hstatus, _, hinput, time, htime,
    db₁, hupdate, happend⟩ := h
  have hinput := checkLifecycleInput_eq_ok hinput
  obtain ⟨text, micros, htext, hmicros⟩ := hinput.time
  obtain rfl := transitionTime_eq_ok htext hmicros htime
  obtain ⟨hmem, hversion⟩ := signingKey?_eq_some hfound
  obtain ⟨hmoved, rfl⟩ := updateSigningKey_eq_ok hupdate
  exact ⟨keyVersion, key, text, micros, hgiven, hmem, hversion, hstatus, hinput, htext, hmicros,
    hmoved, happend⟩

theorem rpcActivateLedgerSigningPublicKeyWithLedger_eq_ok
    (h : rpcActivateLedgerSigningPublicKeyWithLedger P pg db args = .ok (db', result)) :
    ∃ keyVersion key, KeyCommitted P pg .activated db args keyVersion key db' := by
  obtain ⟨keyVersion, key, text, micros, -, hmem, hversion, hstatus, hinput, htext, hmicros, hmoved,
    happend⟩ := moveSigningKey_eq_ok h
  exact ⟨keyVersion, { key with status := "active", activatedAt := some micros },
    ⟨hinput, text, micros, _, result, htext, hmicros,
    .activated hmem hversion hstatus hmoved, happend⟩⟩

theorem rpcRetireLedgerSigningPublicKeyWithLedger_eq_ok
    (h : rpcRetireLedgerSigningPublicKeyWithLedger P pg db args = .ok (db', result)) :
    ∃ keyVersion key, keyVersionOrMetadata pg args = .ok (some keyVersion) ∧
      KeyCommitted P pg .retired db args keyVersion key db' := by
  obtain ⟨keyVersion, key, text, micros, hgiven, hmem, hversion, hstatus, hinput, htext, hmicros,
    hmoved, happend⟩ := moveSigningKey_eq_ok h
  exact ⟨keyVersion, { key with status := "retired", retiredAt := some micros },
    hgiven, ⟨hinput, text, micros, _, result, htext, hmicros,
    .retired hmem hversion hstatus hmoved, happend⟩⟩

end

end Sql

end Mipsorcu
