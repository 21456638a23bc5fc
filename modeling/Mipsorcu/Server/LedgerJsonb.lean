import Mipsorcu.Database.SecretStore
import Mipsorcu.Server.LedgerRpc

/-!
# Ledger entries as JSON arguments

Procedures that append to the ledger next to other work take the entry as one `jsonb` argument with
the parameters of the append procedure as its members. Reading the members of a signed entry back
gives its row (`Sql.ledgerArgsOfJsonb_toJson`), so appending it from JSON is appending it
(`Sql.rpcAppendLedgerEntryFromJsonb_toJson`).
-/

namespace Mipsorcu

/-- A parameter that may be missing, as JSON. -/
def jsonOfOption : Option String → Json
  | none => .null
  | some text => .string text

/-- The JSON object of the parameters of an entry. -/
def LedgerEntryRpcParams.toJson (p : LedgerEntryRpcParams) : Json :=
  .object [
    ("p_ledger_entry_id", .string p.ledgerEntryId), ("p_sequence_no", .nat p.sequenceNo),
    ("p_entry_type", .string p.entryType), ("p_source_event_at", .string p.sourceEventAt),
    ("p_request_id", .string p.requestId), ("p_source_event_id", jsonOfOption p.sourceEventId),
    ("p_target_secret_id", jsonOfOption p.targetSecretId),
    ("p_target_secret_version_id", jsonOfOption p.targetSecretVersionId),
    ("p_actor_user_id", jsonOfOption p.actorUserId),
    ("p_actor_device_id", jsonOfOption p.actorDeviceId), ("p_result", .string p.result),
    ("p_error_code", jsonOfOption p.errorCode), ("p_payload", p.payload),
    ("p_canonicalization_version", .nat p.canonicalizationVersion),
    ("p_previous_entry_hash", .string p.previousEntryHash), ("p_entry_hash", .string p.entryHash),
    ("p_hash_algorithm", .string p.hashAlgorithm), ("p_signature", .string p.signature),
    ("p_signature_algorithm", .string p.signatureAlgorithm),
    ("p_signature_key_version", .nat p.signatureKeyVersion)]

namespace Sql

/-! ### Members -/

/-- What `->>` makes of a member. -/
def textOf : Json → Option String
  | .null => none
  | .string text => some text
  | value => some value.toText

theorem memberText_object (members : List (String × Json)) (key : String) :
    memberText (.object members) key = (members.lookup key).bind textOf := by
  rcases h : members.lookup key with _ | value
  · simp [memberText, h]
  · cases value <;> simp [memberText, h, textOf]

@[simp]
theorem textOf_string (text : String) : textOf (.string text) = some text := rfl

@[simp]
theorem textOf_nat (n : ℕ) : textOf (.nat n) = some (String.ofList (Nat.toDigits 10 n)) := by
  simp [textOf, Json.nat, Json.toText, Json.write, Json.writeNumber]

@[simp]
theorem textOf_jsonOfOption (text : Option String) : textOf (jsonOfOption text) = text := by
  cases text <;> rfl

/-! ### Casts of printed values -/

section Casts

variable (pg : PostgresSession) (error : SqlError)

theorem castNullable_nullifEmpty_hyphenated {α : Type} (uuid : α → Uuid) (x : Option α) :
    castNullable pg.castUuid error (nullifEmpty (x.map fun a => (uuid a).hyphenated)) =
      .ok (x.map uuid) := by
  cases x with
  | none => rfl
  | some a => simp [nullifEmpty_some (hyphenated_ne_empty _)]

theorem castNullable_integer {n : ℕ} (h : n ≤ 2147483647) :
    castNullable pg.castInteger error (some (String.ofList (Nat.toDigits 10 n))) =
      .ok (some (n : ℤ)) := by
  simp [castNullable, pg.castInteger_digits, h]

theorem castNullable_bigint {n : ℕ} (h : n ≤ 9223372036854775807) :
    castNullable pg.castBigint error (some (String.ofList (Nat.toDigits 10 n))) =
      .ok (some (n : ℤ)) := by
  simp [castNullable, pg.castBigint_digits, h]

@[simp]
theorem castNullable_byteaText (bytes : List UInt8) :
    castNullable (decodeBytea pg) error (some (byteaText bytes)) = .ok (some bytes) := by
  simp [castNullable, decodeBytea, byteaText, pg.decodeHex_hexEncode]

end Casts

/-! ### The members of a signed entry -/

section Signed

variable {pg : PostgresSession} {e : SignedLedgerEntry}

/-- The members of a signed entry read back as its row. -/
theorem ledgerArgsOfJsonb_toJson (hkey : e.signatureKeyVersion.val ≤ 2147483647)
    (herror : e.errorCode ≠ some "") :
    ledgerArgsOfJsonb pg (LedgerEntryRpcParams.fromSignedEntry e).toJson =
      .ok (LedgerEntryRow.ofSigned e).args := by
  have hsequence : e.sequenceNo.val ≤ 9223372036854775807 := e.sequenceNo.le_max
  -- `nullif` changes nothing: a device identifier is not empty
  have hdevice : nullifEmpty (e.actorDeviceId.map DeviceId.text) =
      e.actorDeviceId.map DeviceId.text := by
    cases e.actorDeviceId with
    | none => rfl
    | some device =>
      refine nullifEmpty_some fun hempty => ?_
      have hblank := device.not_blank
      rw [hempty] at hblank
      cases hblank
  have herrorCode : nullifEmpty e.errorCode = e.errorCode := by
    cases h : e.errorCode with
    | none => rfl
    | some code => exact nullifEmpty_some fun hempty => herror (h.trans (congrArg some hempty))
  have hevent error : castNullable pg.castUuid error
      (nullifEmpty (e.sourceEventId.map AuditEventId.asCanonicalString)) =
      .ok (e.sourceEventId.map AuditEventId.uuid) :=
    castNullable_nullifEmpty_hyphenated pg error _ _
  have hsecret error : castNullable pg.castUuid error
      (nullifEmpty (e.targetSecretId.map SecretId.asCanonicalString)) =
      .ok (e.targetSecretId.map SecretId.uuid) := castNullable_nullifEmpty_hyphenated pg error _ _
  have hversion error : castNullable pg.castUuid error
      (nullifEmpty (e.targetSecretVersionId.map LedgerTargetSecretVersionId.asCanonicalString)) =
      .ok (e.targetSecretVersionId.map LedgerTargetSecretVersionId.uuid) :=
    castNullable_nullifEmpty_hyphenated pg error _ _
  have hactor error : castNullable pg.castUuid error
      (nullifEmpty (e.actorUserId.map OwnerUserId.asCanonicalString)) =
      .ok (e.actorUserId.map OwnerUserId.uuid) := castNullable_nullifEmpty_hyphenated pg error _ _
  have hcanon error : castNullable pg.castInteger error
      (some (String.ofList (Nat.toDigits 10 ledgerCanonicalizationVersionV1))) = .ok (some 1) :=
    castNullable_integer pg error (by decide)
  simp only [ledgerArgsOfJsonb, LedgerEntryRpcParams.toJson, memberText_object, member?,
    List.lookup_cons, String.reduceBEq, Option.bind_some, textOf_string, textOf_nat,
    textOf_jsonOfOption]
  simp only [LedgerEntryRpcParams.fromSignedEntry, LedgerEntryId.asCanonicalString,
    RequestId.asCanonicalString, LedgerHash.toByteaHex, LedgerSignature.toByteaHex,
    castNullable_hyphenated, castNullable_byteaText, castNullable_bigint pg _ hsequence,
    castNullable_integer pg _ hkey, hevent, hsecret, hversion, hactor, hcanon, hdevice, herrorCode,
    Result.ok_bind]
  rfl

/-- A key version that does not fit `integer` fails the casts. -/
theorem keyVersion_le_of_ledgerArgsOfJsonb {args : AppendLedgerEntryArgs}
    (h : ledgerArgsOfJsonb pg (LedgerEntryRpcParams.fromSignedEntry e).toJson = .ok args) :
    e.signatureKeyVersion.val ≤ 2147483647 := by
  simp only [ledgerArgsOfJsonb, LedgerEntryRpcParams.toJson, memberText_object, member?,
    List.lookup_cons, String.reduceBEq, Option.bind_some, textOf_string, textOf_nat,
    textOf_jsonOfOption, Result.bind_eq_ok] at h
  obtain ⟨_, -, _, -, _, -, _, -, _, -, _, -, _, -, _, -, _, -, _, -, _, -, _, hkey, -⟩ := h
  by_contra hwide
  simp [castNullable, LedgerEntryRpcParams.fromSignedEntry, pg.castInteger_digits, hwide] at hkey

/-- **Appending a signed entry from JSON is appending its row.** -/
theorem rpcAppendLedgerEntryFromJsonb_toJson {ledger ledger' : LedgerDb}
    {result : AppendLedgerEntryRow} (herror : e.errorCode ≠ some "") :
    rpcAppendLedgerEntryFromJsonb pg ledger (LedgerEntryRpcParams.fromSignedEntry e).toJson =
        .ok (ledger', result) ↔
      e.signatureKeyVersion.val ≤ 2147483647 ∧
        rpcAppendLedgerEntry pg.toPostgres ledger (LedgerEntryRow.ofSigned e).args =
          .ok (ledger', result) := by
  have htype : jsonbTypeof (LedgerEntryRpcParams.fromSignedEntry e).toJson = "object" := rfl
  simp only [rpcAppendLedgerEntryFromJsonb, htype, beq_self_eq_true, Result.require_true,
    Result.ok_bind, Result.mapError_eq_ok, Result.bind_eq_ok]
  constructor
  · rintro ⟨args, hargs, happend⟩
    have hkey := keyVersion_le_of_ledgerArgsOfJsonb hargs
    rw [ledgerArgsOfJsonb_toJson hkey herror, Except.ok.injEq] at hargs
    exact ⟨hkey, hargs ▸ happend⟩
  · rintro ⟨hkey, happend⟩
    exact ⟨_, ledgerArgsOfJsonb_toJson hkey herror, happend⟩

end Signed

end Sql

end Mipsorcu
