import Mipsorcu.Database.WriteSecretVersion

/-!
# The integrity check

`rpc_integrity_check` counts over the whole tables what breaks one of sixteen rules, and returns the
counts with their sum. The rules are those the tables and the write procedures had when the check
was written; in particular it has its own list of audit actions.

`TablesAreSound` says that no rule is broken but the one on the actions. Then the check finds as
many violations as there are events whose action it does not know (`rpcIntegrityCheck_eq_ok_iff`).
-/

namespace Mipsorcu

namespace Sql

/-! ### The rules -/

/-- The actions the check knows. -/
def integrityCheckActions : List String :=
  ["encrypt_create", "encrypt_rotate", "decrypt", "version_purge", "integrity_check",
    "restore_test", "auth_failure", "key_rotation_start", "key_rotation_reencrypt",
    "key_rotation_complete"]

/-- The left join of the secret with the version its pointer names finds nothing. -/
def currentVersionIsInvalid (db : SecretDb) (secret : SecretRow) : Bool :=
  !(db.secretVersions.any fun v => some v.id == secret.currentVersionId && v.secretId == secret.id)

/-- `group by key having count(*) > limit`: the number of such groups. -/
def groupsAbove {α β : Type} [DecidableEq β] (key : α → β) (limit : ℕ) (rows : List α) : ℕ :=
  ((rows.map key).dedup.filter fun k =>
    decide (limit < rows.countP fun row => decide (key row = k))).length

/-- The context has other keys, a member of another type, or another version. -/
def aadKeysAreInvalid (context : Json) : Bool :=
  !hasExactlyKeys aadContextKeys context ||
    !memberHasType context "aad_version" "number" || !memberHasType context "secret_id" "string" ||
    !memberHasType context "version" "number" || !memberHasType context "owner_user_id" "string" ||
    !memberHasType context "classification" "string" ||
    !memberHasType context "created_at" "string" ||
    (Truth.ne (memberText context "aad_version") (some "1")).holds

/-- `value::text` of an integer. -/
def integerText : ℤ → String
  | .ofNat n => String.ofList (Nat.toDigits 10 n)
  | .negSucc n => String.ofList ('-' :: Nat.toDigits 10 (n + 1))

/-- A context with the six keys disagrees with the columns of the version or of its secret. -/
def aadRowMismatches (secret : SecretRow) (v : SecretVersionRow) : Bool :=
  hasExactlyKeys aadContextKeys v.aadContext && (Truth.any [
    Truth.ne (memberText v.aadContext "secret_id") (some v.secretId.hyphenated),
    Truth.ne (memberText v.aadContext "version") (some (integerText v.version)),
    Truth.ne (memberText v.aadContext "owner_user_id") (some secret.ownerUserId.hyphenated),
    Truth.ne (memberText v.aadContext "owner_user_id") (some v.createdByUserId.hyphenated),
    Truth.ne (memberText v.aadContext "classification") (some secret.classification),
    Truth.ne (memberText v.aadContext "classification") (some v.classification)]).holds

/-- `~ '^[0-9]{4}-[0-9]{2}-[0-9]{2}T[0-9]{2}:[0-9]{2}:[0-9]{2}(\.[0-9]+)?Z$'`. -/
def hasTimestampForm (text : String) : Bool :=
  (splitTimestamp text.toList).any fun t => t.separator == 'T'

/-- A cast met a field out of range. -/
def datetimeFieldOverflow : SqlError := ⟨"date/time field value out of range", "22008"⟩

/-- The creation time of a context that is a string does not have the form, or is another one than
the version's. The cast of a text that has the form may still raise. -/
def createdAtMismatches (v : SecretVersionRow) : Except SqlError Bool :=
  match member? v.aadContext "created_at" with
  | some (.string text) =>
    if hasTimestampForm text then do
      let micros ← Result.ofOption datetimeFieldOverflow (timestamptz text)
      pure ((micros : ℤ) != v.createdAt)
    else .ok true
  | _ => .ok false

/-! ### The counts -/

/-- `count(*)` of the rows that meet a condition which may raise. -/
def countWhere {α : Type} (condition : α → Except SqlError Bool) (rows : List α) :
    Except SqlError ℕ := do
  let flags ← Result.traverse condition rows
  pure (flags.count true)

/-- The inner join of the versions with their secrets, where the two disagree. -/
def aadRowMismatchCount (db : SecretDb) : ℕ :=
  (db.secretVersions.flatMap fun v =>
    db.secrets.filter fun s => s.id == v.secretId && aadRowMismatches s v).length

/-- The counts, in the order they are made, under their names in `violation_summary`. -/
def integrityCounters (pg : Postgres) (db : SecretDb) : List (String × Except SqlError ℕ) := [
  ("current_version_invalid", .ok (db.secrets.countP (currentVersionIsInvalid db))),
  ("version_invalid", .ok (db.secretVersions.countP fun v => decide (v.version ≤ 0))),
  ("retention_exceeded", .ok (groupsAbove SecretVersionRow.secretId 4 db.secretVersions)),
  ("ciphertext_empty", .ok (db.secretVersions.countP fun v => v.ciphertext.length == 0)),
  ("encrypted_data_key_empty",
    .ok (db.secretVersions.countP fun v => v.encryptedDataKey.length == 0)),
  ("nonce_length_invalid", .ok (db.secretVersions.countP fun v => v.nonceOrIv.length != 24)),
  ("algorithm_invalid",
    .ok (db.secretVersions.countP fun v => v.algorithm != "xchacha20-poly1305")),
  ("nonce_duplicate",
    .ok (groupsAbove (fun v => (v.secretId, v.nonceOrIv)) 1 db.secretVersions)),
  ("aad_keys_invalid", .ok (db.secretVersions.countP fun v => aadKeysAreInvalid v.aadContext)),
  ("aad_row_mismatch", .ok (aadRowMismatchCount db)),
  ("created_at_mismatch", countWhere createdAtMismatches db.secretVersions),
  ("audit_action_invalid",
    .ok (db.auditEvents.countP fun e => !integrityCheckActions.contains e.action)),
  ("audit_result_invalid",
    .ok (db.auditEvents.countP fun e => !(["success", "failure"].contains e.result))),
  ("audit_metadata_not_object",
    .ok (db.auditEvents.countP fun e => jsonbTypeof e.metadataJson != "object")),
  ("audit_metadata_forbidden_key",
    .ok (db.auditEvents.countP fun e => auditMetadataHasForbiddenKey pg e.metadataJson)),
  ("audit_source_event_at_invalid",
    .ok (db.auditEvents.countP fun e =>
      jsonbTypeof e.metadataJson == "object" && !auditMetadataTimeIsValid e.metadataJson))]

/-- `count(*)::integer`. -/
def countInteger (count : ℕ) : Except SqlError ℕ := do
  Result.require (decide (count ≤ 2147483647)) integerOutOfRange
  pure count

/-- The sum of the counts; every partial sum is an integer. -/
def sumIntegers : ℕ → List ℕ → Except SqlError ℕ
  | total, [] => .ok total
  | total, count :: rest => do
    let total ← countInteger (total + count)
    sumIntegers total rest

/-- The row `rpc_integrity_check` returns. -/
structure IntegrityReport where
  checkedSecretCount : ℕ
  checkedSecretVersionCount : ℕ
  checkedAuditEventCount : ℕ
  violationCount : ℕ
  violationSummary : List (String × ℕ)
  deriving DecidableEq

/-- `rpc_integrity_check`. -/
def rpcIntegrityCheck (pg : Postgres) (db : SecretDb) : Except SqlError IntegrityReport := do
  let checkedSecretCount ← countInteger db.secrets.length
  let checkedSecretVersionCount ← countInteger db.secretVersions.length
  let checkedAuditEventCount ← countInteger db.auditEvents.length
  let violationSummary ← Result.traverse (fun counter => do
    let count ← counter.2
    let count ← countInteger count
    pure (counter.1, count)) (integrityCounters pg db)
  let violationCount ← sumIntegers 0 (violationSummary.map Prod.snd)
  pure { checkedSecretCount, checkedSecretVersionCount, checkedAuditEventCount, violationCount,
         violationSummary }

/-! ### What the check finds in sound tables -/

/-- The rules on the columns of one version. -/
structure VersionIsSound (v : SecretVersionRow) : Prop where
  version_pos : 0 < v.version
  ciphertext : v.ciphertext ≠ []
  encryptedDataKey : v.encryptedDataKey ≠ []
  nonceOrIv : v.nonceOrIv.length = 24
  algorithm : v.algorithm = "xchacha20-poly1305"
  aadKeys : aadKeysAreInvalid v.aadContext = false
  createdAt : createdAtMismatches v = .ok false

/-- Every rule but the one on the actions of the events. -/
structure TablesAreSound (pg : Postgres) (db : SecretDb) : Prop where
  current : ∀ s ∈ db.secrets, currentVersionIsInvalid db s = false
  retention : ∀ id, (db.versionsOf id).length ≤ 4
  nonces : ∀ id, ((db.versionsOf id).map SecretVersionRow.nonceOrIv).Nodup
  versions : ∀ v ∈ db.secretVersions, VersionIsSound v
  rows : ∀ v ∈ db.secretVersions, ∀ s ∈ db.secrets, s.id = v.secretId →
    aadRowMismatches s v = false
  events : ∀ e ∈ db.auditEvents, auditEventIsValid pg e = true

/-- The number of events whose action the check does not know. -/
def unknownActionCount (db : SecretDb) : ℕ :=
  db.auditEvents.countP fun e => !integrityCheckActions.contains e.action

theorem groupsAbove_eq_zero {α β : Type} [DecidableEq β] {key : α → β} {limit : ℕ} {rows : List α}
    (h : ∀ k, (rows.countP fun row => decide (key row = k)) ≤ limit) :
    groupsAbove key limit rows = 0 := by
  rw [groupsAbove, List.length_eq_zero_iff, List.filter_eq_nil_iff]
  intro k _ hk
  exact absurd (h k) (not_le.mpr (of_decide_eq_true hk))

theorem countP_eq_zero_of {α : Type} {rows : List α} {broken : α → Bool}
    (h : ∀ a ∈ rows, broken a = false) : rows.countP broken = 0 :=
  List.countP_eq_zero.mpr fun a ha => by rw [h a ha]; exact Bool.false_ne_true

theorem countWhere_eq_zero {α : Type} {rows : List α} {condition : α → Except SqlError Bool}
    (h : ∀ a ∈ rows, condition a = .ok false) : countWhere condition rows = .ok 0 := by
  have hflags : Result.traverse condition rows = .ok (rows.map fun _ => false) := by
    rw [Result.traverse_eq_ok, List.forall₂_map_right_iff, List.forall₂_same]
    exact h
  rw [countWhere, hflags, Result.ok_bind, Result.pure_eq_ok, List.count_eq_zero]
  simp

namespace TablesAreSound

variable {pg : Postgres} {db : SecretDb}

theorem retention_exceeded (h : TablesAreSound pg db) :
    groupsAbove SecretVersionRow.secretId 4 db.secretVersions = 0 := by
  refine groupsAbove_eq_zero fun id => ?_
  rw [List.countP_eq_length_filter]
  exact h.retention id

theorem nonce_duplicate (h : TablesAreSound pg db) :
    groupsAbove (fun v : SecretVersionRow => (v.secretId, v.nonceOrIv)) 1
      db.secretVersions = 0 := by
  refine groupsAbove_eq_zero fun k => ?_
  -- a group of the pair is a group of the nonces of one secret
  have hcount := List.nodup_iff_count_le_one.mp (h.nonces k.1) k.2
  rw [List.count_eq_countP, List.countP_map, SecretDb.versionsOf, List.countP_filter] at hcount
  refine le_trans (le_of_eq (List.countP_congr fun v _ => ?_)) hcount
  simp [Prod.ext_iff, and_comm]

theorem aad_row_mismatch (h : TablesAreSound pg db) : aadRowMismatchCount db = 0 := by
  rw [aadRowMismatchCount, List.length_eq_zero_iff, List.flatMap_eq_nil_iff]
  intro v hv
  rw [List.filter_eq_nil_iff]
  intro s hs hbroken
  rw [Bool.and_eq_true, beq_iff_eq] at hbroken
  exact Bool.false_ne_true ((h.rows v hv s hs hbroken.1).symm.trans hbroken.2)

/-- What the check constraints of the audit table say of the columns the check reads. -/
theorem event (h : TablesAreSound pg db) {e : AuditEventRow} (he : e ∈ db.auditEvents) :
    ["success", "failure"].contains e.result = true ∧ jsonbTypeof e.metadataJson = "object" ∧
      auditMetadataHasForbiddenKey pg e.metadataJson = false ∧
      auditMetadataTimeIsValid e.metadataJson = true := by
  have hvalid := h.events e he
  simp only [auditEventIsValid, auditEventChecks, List.all_cons, List.all_nil, Bool.and_true,
    Bool.and_eq_true, Bool.not_eq_true', beq_iff_eq] at hvalid
  obtain ⟨-, -, -, -, -, -, hforbidden, hobject, htime, hresult, -⟩ := hvalid
  refine ⟨?_, hobject, hforbidden, htime⟩
  simpa using hresult

/-- A rule on the versions, which every sound version keeps, is not broken. -/
theorem versions_countP (h : TablesAreSound pg db) {broken : SecretVersionRow → Bool}
    (hsound : ∀ v, VersionIsSound v → broken v = false) : db.secretVersions.countP broken = 0 :=
  countP_eq_zero_of fun v hv => hsound v (h.versions v hv)

/-- The counts in sound tables. -/
theorem integrityCounters_eq (h : TablesAreSound pg db) :
    integrityCounters pg db = violationSummaryKeys.map fun name =>
      (name, .ok (if name = "audit_action_invalid" then unknownActionCount db else 0)) := by
  have hresult : (db.auditEvents.countP fun e => !(["success", "failure"].contains e.result)) = 0 :=
    countP_eq_zero_of fun e he => by rw [(h.event he).1]; rfl
  have hobject : (db.auditEvents.countP fun e => jsonbTypeof e.metadataJson != "object") = 0 :=
    countP_eq_zero_of fun e he => by rw [(h.event he).2.1]; rfl
  have hforbidden :
      (db.auditEvents.countP fun e => auditMetadataHasForbiddenKey pg e.metadataJson) = 0 :=
    countP_eq_zero_of fun e he => (h.event he).2.2.1
  have htime : (db.auditEvents.countP fun e =>
      jsonbTypeof e.metadataJson == "object" && !auditMetadataTimeIsValid e.metadataJson) = 0 :=
    countP_eq_zero_of fun e he => by rw [(h.event he).2.2.2]; exact Bool.and_false _
  rw [integrityCounters, countP_eq_zero_of h.current, h.retention_exceeded, h.nonce_duplicate,
    h.aad_row_mismatch, countWhere_eq_zero fun v hv => (h.versions v hv).createdAt, hresult,
    hobject, hforbidden, htime,
    h.versions_countP fun v hv => decide_eq_false (not_le.mpr hv.version_pos),
    h.versions_countP fun v hv => by simp [hv.ciphertext],
    h.versions_countP fun v hv => by simp [hv.encryptedDataKey],
    h.versions_countP fun v hv => by simp [hv.nonceOrIv],
    h.versions_countP fun v hv => by simp [hv.algorithm],
    h.versions_countP fun v hv => hv.aadKeys]
  simp [violationSummaryKeys, unknownActionCount]

end TablesAreSound

/-! ### The rows a write stores -/

variable {value : Json}

theorem member?_of_memberHasType {key typeName : String}
    (h : memberHasType value key typeName = true) :
    ∃ inner, member? value key = some inner ∧ jsonbTypeof inner = typeName := by
  simpa [memberHasType, Option.any_eq_true] using h

theorem exists_number (h : jsonbTypeof value = "number") : ∃ n, value = .number n := by
  cases value with
  | number n => exact ⟨n, rfl⟩
  | _ => simp [jsonbTypeof] at h

theorem exists_string (h : jsonbTypeof value = "string") : ∃ text, value = .string text := by
  cases value with
  | string text => exact ⟨text, rfl⟩
  | _ => simp [jsonbTypeof] at h

theorem memberText_of_number {key : String} {n : JsonNumber}
    (h : member? value key = some (.number n)) :
    memberText value key = some (String.ofList (Json.writeNumber n)) := by
  cases value with
  | object members =>
    rw [memberText, show members.lookup key = some (.number n) from h]
    rfl
  | _ => cases h

theorem memberText_of_string {key text : String} (h : member? value key = some (.string text)) :
    memberText value key = some text := by
  cases value with
  | object members => rw [memberText, show members.lookup key = some (.string text) from h]
  | _ => cases h

/-- A JSON number that is printed with digits only is printed as the number it is read as. -/
theorem integerText_of_isPositiveDigits {n : JsonNumber} {value : ℕ}
    (hdigits : isPositiveDigits (String.ofList (Json.writeNumber n)) = true)
    (hvalue : decimal? (Json.writeNumber n) = some value) :
    String.ofList (Json.writeNumber n) = integerText value := by
  rw [isPositiveDigits, String.toList_ofList] at hdigits
  cases n with
  | posInt k =>
    rw [Json.writeNumber, decimal?_toDigits, Option.some.injEq] at hvalue
    rw [hvalue]
    rfl
  | negInt k => simp [Json.writeNumber] at hdigits
  | float text valid =>
    -- a floating point number has a point or an exponent, which is no digit
    simp only [isFloatText, Bool.and_eq_true, List.any_eq_true] at valid
    obtain ⟨⟨-, c, hc, hmark⟩, -⟩ := valid
    have hdigit : c.isDigit = true := by
      rw [Json.writeNumber] at hdigits
      cases text with
      | nil => cases hc
      | cons d rest =>
        simp only [Bool.and_eq_true, List.all_eq_true] at hdigits
        rcases List.mem_cons.mp hc with rfl | hrest
        · exact hdigits.1.1
        · exact hdigits.2 c hrest
    simp only [Bool.or_eq_true, beq_iff_eq] at hmark
    rcases hmark with (rfl | rfl) | rfl <;> exact absurd hdigit (by decide)

section Context

variable {w : SecretWrite}

theorem aadKeysAreInvalid_of_matches (h : aadContextMatches w = true) :
    aadKeysAreInvalid w.aadContext = false := by
  simp only [aadContextMatches, Bool.and_eq_true, beq_iff_eq] at h
  obtain ⟨⟨⟨⟨⟨⟨⟨⟨⟨⟨⟨⟨⟨hkeys, haad⟩, hid⟩, hversion⟩, howner⟩, hclassification⟩, hcreated⟩, -⟩,
    -⟩, -⟩, hone⟩, -⟩, -⟩, -⟩ := h
  simp [aadKeysAreInvalid, hkeys, haad, hid, hversion, howner, hclassification, hcreated, hone,
    Truth.holds, Truth.ne]

/-- The version in the context is printed as the column is. -/
theorem memberText_version_of_matches (h : aadContextMatches w = true) :
    memberText w.aadContext "version" = some (integerText w.version) := by
  simp only [aadContextMatches, Bool.and_eq_true, Option.any_eq_true, Option.bind_eq_some_iff,
    decide_eq_true_eq] at h
  obtain ⟨⟨⟨⟨⟨⟨⟨⟨⟨⟨⟨-, htype⟩, -⟩, -⟩, -⟩, text, htext, hdigits⟩, value, ⟨text', htext', hvalue⟩, -,
    hversion⟩, -⟩, -⟩, -⟩, -⟩, -⟩ := h
  obtain ⟨_, hmember, hnumber⟩ := member?_of_memberHasType htype
  obtain ⟨n, rfl⟩ := exists_number hnumber
  rw [memberText_of_number hmember, Option.some.injEq] at htext htext'
  rw [memberText_of_number hmember, hversion, Option.some.injEq]
  refine integerText_of_isPositiveDigits (htext ▸ hdigits) ?_
  rw [← htext', String.toList_ofList] at hvalue
  exact hvalue

theorem createdAtMismatches_versionRow (h : aadContextMatches w = true) :
    createdAtMismatches w.versionRow = .ok false := by
  simp only [aadContextMatches, Bool.and_eq_true, Option.any_eq_true, Option.bind_eq_some_iff,
    decide_eq_true_eq] at h
  obtain ⟨⟨⟨⟨⟨⟨⟨⟨-, htype⟩, -⟩, -⟩, micros, ⟨text, htext, hmicros⟩, hcreatedAt⟩, -⟩, -⟩, -⟩, -⟩ := h
  obtain ⟨_, hmember, hstring⟩ := member?_of_memberHasType htype
  obtain ⟨text', rfl⟩ := exists_string hstring
  obtain rfl : text' = text := Option.some.inj ((memberText_of_string hmember).symm.trans htext)
  have hform : hasTimestampForm text' = true := by
    simp only [timestamptz, Option.bind_eq_bind, Option.bind_eq_some_iff,
      Option.ite_none_right_eq_some] at hmicros
    obtain ⟨fields, hsplit, ⟨hseparator, -⟩, -⟩ := hmicros
    simp [hasTimestampForm, hsplit, hseparator]
  have hmember' : member? w.versionRow.aadContext "created_at" = some (.string text') := hmember
  have hsame : ((micros : ℤ) != w.versionRow.createdAt) = false := by
    simp [SecretWrite.versionRow, hcreatedAt]
  simp only [createdAtMismatches, hmember', hform, if_true, hmicros, Result.ofOption_some,
    Result.ok_bind, hsame, Result.pure_eq_ok]

/-- The context of a write agrees with the row of its secret. -/
theorem aadRowMismatches_versionRow {secret : SecretRow} (h : aadContextMatches w = true)
    (howner : secret.ownerUserId = w.ownerUserId)
    (hclassification : secret.classification = w.classification) :
    aadRowMismatches secret w.versionRow = false := by
  have hversion := memberText_version_of_matches h
  simp only [aadContextMatches, Bool.and_eq_true, beq_iff_eq] at h
  obtain ⟨⟨⟨-, hid⟩, hownerText⟩, hclassificationText⟩ := h
  have hcontext : w.versionRow.aadContext = w.aadContext := rfl
  rw [aadRowMismatches, Bool.and_eq_false_imp, Truth.holds_any_eq_false, hcontext]
  intro _ t ht
  simp only [List.mem_cons, List.not_mem_nil, or_false] at ht
  rcases ht with rfl | rfl | rfl | rfl | rfl | rfl <;> rw [Truth.ne_ne_true]
  · simp [hid, SecretWrite.versionRow]
  · simp [hversion, SecretWrite.versionRow]
  · simp [hownerText, howner]
  · simp [hownerText, SecretWrite.versionRow]
  · simp [hclassificationText, hclassification]
  · simp [hclassificationText, SecretWrite.versionRow]

end Context

/-! ### The report -/

theorem countInteger_eq_ok {count result : ℕ} :
    countInteger count = .ok result ↔ count ≤ 2147483647 ∧ result = count := by
  rw [eq_comm (a := result)]
  simp only [countInteger, Result.bind_eq_ok, Result.require_eq_ok, decide_eq_true_iff,
    Result.pure_eq_ok, exists_const]

theorem le_foldl_add (total : ℕ) (counts : List ℕ) : total ≤ counts.foldl (· + ·) total := by
  induction counts generalizing total with
  | nil => exact Nat.le_refl total
  | cons count rest ih => exact (Nat.le_add_right total count).trans (ih (total + count))

theorem sumIntegers_eq_ok {total : ℕ} {counts : List ℕ} {result : ℕ} (htotal : total ≤ 2147483647) :
    sumIntegers total counts = .ok result ↔
      counts.foldl (· + ·) total ≤ 2147483647 ∧ result = counts.foldl (· + ·) total := by
  induction counts generalizing total with
  | nil => simp [sumIntegers, htotal, eq_comm]
  | cons count rest ih =>
    simp only [sumIntegers, Result.bind_eq_ok, countInteger_eq_ok, List.foldl_cons]
    constructor
    · rintro ⟨_, ⟨hle, rfl⟩, hrest⟩
      exact (ih hle).mp hrest
    · rintro ⟨hle, rfl⟩
      -- a partial sum is at most the whole one
      have hpart : total + count ≤ 2147483647 := (le_foldl_add _ rest).trans hle
      exact ⟨_, ⟨hpart, rfl⟩, (ih hpart).mpr ⟨hle, rfl⟩⟩

/-- The tables are small enough to be counted. -/
def IsCountable (db : SecretDb) : Prop :=
  db.secrets.length ≤ 2147483647 ∧ db.secretVersions.length ≤ 2147483647 ∧
    db.auditEvents.length ≤ 2147483647

/-- The summary of sound tables with `n` unknown actions. -/
def soundSummary (n : ℕ) : List (String × ℕ) :=
  violationSummaryKeys.map fun name => (name, if name = "audit_action_invalid" then n else 0)

theorem foldl_soundSummary (n : ℕ) : ((soundSummary n).map Prod.snd).foldl (· + ·) 0 = n := by
  simp [soundSummary, violationSummaryKeys]

theorem TablesAreSound.traverse_counters {pg : Postgres} {db : SecretDb} (h : TablesAreSound pg db)
    (hevents : db.auditEvents.length ≤ 2147483647) :
    Result.traverse (fun counter : String × Except SqlError ℕ => do
      let count ← counter.2
      let count ← countInteger count
      pure (counter.1, count)) (integrityCounters pg db) =
      .ok (soundSummary (unknownActionCount db)) := by
  rw [h.integrityCounters_eq, soundSummary, Result.traverse_eq_ok, List.forall₂_map_left_iff,
    List.forall₂_map_right_iff, List.forall₂_same]
  intro name _
  rw [Result.ok_bind, Result.bind_eq_ok]
  refine ⟨_, countInteger_eq_ok.mpr ⟨?_, rfl⟩, rfl⟩
  split_ifs
  · exact List.countP_le_length.trans hevents
  · exact Nat.zero_le _

/-- **What the check returns in sound tables**: the number of events whose action it does not
know, if the rows can be counted. -/
theorem rpcIntegrityCheck_eq_ok_iff {pg : Postgres} {db : SecretDb} (h : TablesAreSound pg db)
    {violationCount : ℕ} :
    (∃ report, rpcIntegrityCheck pg db = .ok report ∧ report.violationCount = violationCount) ↔
      IsCountable db ∧ violationCount = unknownActionCount db := by
  simp only [rpcIntegrityCheck, Result.bind_eq_ok, countInteger_eq_ok, Result.pure_eq_ok]
  constructor
  · rintro ⟨_, ⟨_, ⟨hsecrets, -⟩, _, ⟨hversions, -⟩, _, ⟨hevents, -⟩, summary, hsummary, total,
      htotal, rfl⟩, rfl⟩
    rw [h.traverse_counters hevents, Except.ok.injEq] at hsummary
    rw [← hsummary, sumIntegers_eq_ok (Nat.zero_le _), foldl_soundSummary] at htotal
    exact ⟨⟨hsecrets, hversions, hevents⟩, htotal.2⟩
  · rintro ⟨⟨hsecrets, hversions, hevents⟩, rfl⟩
    refine ⟨_, ⟨_, ⟨hsecrets, rfl⟩, _, ⟨hversions, rfl⟩, _, ⟨hevents, rfl⟩, _,
      h.traverse_counters hevents, unknownActionCount db, ?_, rfl⟩, rfl⟩
    rw [sumIntegers_eq_ok (Nat.zero_le _), foldl_soundSummary]
    exact ⟨List.countP_le_length.trans hevents, rfl⟩

end Sql

end Mipsorcu
