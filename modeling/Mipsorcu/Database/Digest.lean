import Mipsorcu.Database.Ledger

/-!
# The monthly digest procedures

The range of the entries of a month, the check for an existing digest, and the materials to verify
one. The month is that of the session's time zone, UTC.

The first two procedures run with the rights of their caller and read `ledger_entries`. The
migrations take every right on that table away from `service_role`, and no later one gives it back;
so for the server both calls end with an error as soon as they reach the table
(`rpcCheckMonthlyDigestExists_serviceRole`). The third runs with the rights of its owner. As the
signature of the digest it returns the signature column of the ledger entry that records it; that
entry has no column for the digest's own signature.
-/

namespace Mipsorcu

namespace Sql

/-! ### Rights -/

/-- The roles that call the procedures. -/
inductive Role where
  /-- The owner of the tables, as which the migrations run. -/
  | owner
  /-- The role of the server. -/
  | serviceRole
  deriving DecidableEq

/-- The rights on `ledger_entries`: `revoke all on public.ledger_entries from service_role`. -/
def Role.mayReadLedgerEntries : Role → Bool
  | owner => true
  | serviceRole => false

/-- The error of a query on a table its role has no right on. -/
def permissionDenied : SqlError :=
  ⟨"permission denied for table ledger_entries", "42501"⟩

/-- `ledger_entries`, as a query of the role gets it. -/
def ledgerEntriesFor (role : Role) (db : LedgerDb) : Except SqlError (List LedgerEntryRow) :=
  if role.mayReadLedgerEntries then .ok db.entries else .error permissionDenied

/-! ### Months -/

/-- The first instant of the month, and of the month after it. The year 0 cannot be cast. -/
def monthWindow (yearMonth : String) : Option (ℕ × ℕ) :=
  let year := Nat.ofDigitChars 10 (yearMonth.toList.take 4) 0
  let month := Nat.ofDigitChars 10 (yearMonth.toList.drop 5) 0
  if year = 0 then none
  else some (microsOf year month 1 0 0 0 0,
    if month = 12 then microsOf (year + 1) 1 1 0 0 0 0 else microsOf year (month + 1) 1 0 0 0 0)

/-- The text, cast to `timestamptz`, lies in the window. -/
def isInWindow (window : ℕ × ℕ) (sourceEventAt : String) : Bool :=
  (timestamptz sourceEventAt).any fun t => decide (window.1 ≤ t ∧ t < window.2)

/-- The text has not the form of a month. -/
def invalidYearMonthFormat : SqlError :=
  ⟨"invalid_year_month_format: p_year_month must be YYYY-MM", "P0001"⟩

/-- It has, and there is no such month. -/
def yearMonthNotADate : SqlError :=
  ⟨"invalid_rpc_input: p_year_month could not be parsed as a date", "P0001"⟩

/-- A cast to `timestamptz` failed. -/
def invalidTimestamp (text : String) : SqlError :=
  ⟨"invalid input syntax for type timestamp with time zone: \"" ++ text ++ "\"", "22007"⟩

/-- A cast to `bigint` failed. -/
def invalidBigint (text : String) : SqlError :=
  ⟨"invalid input syntax for type bigint: \"" ++ text ++ "\"", "22P02"⟩

/-- The entries in the window; the cast of every row has to succeed. -/
def entriesOfMonth (entries : List LedgerEntryRow) (window : ℕ × ℕ) :
    Except SqlError (List LedgerEntryRow) := do
  Result.forEach (fun row => Result.require (timestamptz row.sourceEventAt).isSome
    (invalidTimestamp row.sourceEventAt)) entries
  pure (entries.filter fun row => isInWindow window row.sourceEventAt)

/-! ### The range of a month -/

/-- The row with a position; positions are unique. -/
def entryAt (db : LedgerDb) (sequenceNo : ℤ) : Option LedgerEntryRow :=
  db.entries.find? fun row => row.sequenceNo = sequenceNo

/-- A row of `rpc_fetch_ledger_range_for_month`. -/
structure LedgerRangeRow where
  startSequenceNo : ℤ
  endSequenceNo : ℤ
  startEntryHash : Option String
  endEntryHash : Option String
  entryCount : ℤ

/-- `rpc_fetch_ledger_range_for_month`; no row if the month has no entries. -/
def rpcFetchLedgerRangeForMonth (role : Role) (db : LedgerDb) (yearMonth : String) :
    Except SqlError (Option LedgerRangeRow) := do
  Result.require (isYearMonth yearMonth) invalidYearMonthFormat
  let window ← Result.ofOption yearMonthNotADate (monthWindow yearMonth)
  let entries ← ledgerEntriesFor role db
  let rows ← entriesOfMonth entries window
  let positions : List ℤ := rows.map fun row => row.sequenceNo
  match positions.min?, positions.max? with
  | some minSeq, some maxSeq => pure (some {
      startSequenceNo := minSeq
      endSequenceNo := maxSeq
      startEntryHash := (entryAt db minSeq).map fun row => byteaText row.entryHash
      endEntryHash := (entryAt db maxSeq).map fun row => byteaText row.entryHash
      entryCount := rows.length })
  | _, _ => pure none

/-! ### Digests -/

/-- `payload->>key`: the text of a member, unless it is absent or null. -/
def memberText (payload : Json) (key : String) : Option String :=
  match payload with
  | .object members => match members.lookup key with
    | none | some .null => none
    | some (.string text) => some text
    | some value => some value.toText
  | _ => none

/-- `(payload->>key)::bigint`. A text of digits is cast; the other texts the cast would take do
not occur in a payload that passed its check. -/
def memberBigint (payload : Json) (key : String) : Except SqlError (Option ℤ) :=
  match memberText payload key with
  | none => .ok none
  | some text => match decimal? text.toList with
    | none => .error (invalidBigint text)
    | some n => if n ≤ 9223372036854775807 then .ok (some n) else .error bigintOutOfRange

/-- The row records the digest of a month. -/
def isMonthlyDigestOf (yearMonth : String) (row : LedgerEntryRow) : Bool :=
  row.entryType == "monthly_digest" &&
    memberText row.payload "target_year_month" == some yearMonth

/-- `rpc_check_monthly_digest_exists`. -/
def rpcCheckMonthlyDigestExists (role : Role) (db : LedgerDb) (yearMonth : String) :
    Except SqlError Bool := do
  Result.require (isYearMonth yearMonth) invalidYearMonthFormat
  let entries ← ledgerEntriesFor role db
  pure (entries.any (isMonthlyDigestOf yearMonth))

/-- The server never learns whether a month has a digest, whatever the ledger is. -/
theorem rpcCheckMonthlyDigestExists_serviceRole (db : LedgerDb) (yearMonth : String) (b : Bool) :
    rpcCheckMonthlyDigestExists .serviceRole db yearMonth ≠ .ok b := by
  simp [rpcCheckMonthlyDigestExists, ledgerEntriesFor, Role.mayReadLedgerEntries,
    Result.bind_eq_ok]

/-- Where the call returns, it has looked through the whole table. -/
theorem rpcCheckMonthlyDigestExists_eq_ok {role : Role} {db : LedgerDb} {yearMonth : String}
    {b : Bool} (h : rpcCheckMonthlyDigestExists role db yearMonth = .ok b) :
    db.entries.any (isMonthlyDigestOf yearMonth) = b := by
  simp only [rpcCheckMonthlyDigestExists, ledgerEntriesFor, Result.bind_eq_ok,
    Result.pure_eq_ok] at h
  obtain ⟨_, -, entries, hentries, hany⟩ := h
  split at hentries <;> cases hentries
  exact hany

/-- A row of `rpc_fetch_monthly_digest_for_verification`. -/
structure DigestForVerificationRow where
  startSequenceNo : ℤ
  endSequenceNo : ℤ
  storedEntryCount : Option ℤ
  storedDigestHash : Option String
  targetYearMonth : String
  digestGeneratedAt : String
  signature : String
  signatureKeyVersion : ℤ
  publicKey : Option String
  startEntryHash : String
  endEntryHash : String

/-- The row for one digest entry; none if the positions it names are not stored. The joins and the
filter make the positions and the month those of the payload. -/
def digestForVerificationRow (db : LedgerDb) (yearMonth : String) (le : LedgerEntryRow) :
    Except SqlError (Option DigestForVerificationRow) := do
  let startSequenceNo ← memberBigint le.payload "start_sequence_no"
  let endSequenceNo ← memberBigint le.payload "end_sequence_no"
  match startSequenceNo.bind (entryAt db), endSequenceNo.bind (entryAt db) with
  | some leStart, some leEnd => do
    let storedEntryCount ← memberBigint le.payload "entry_count"
    let key := db.signingPublicKeys.find? fun pk => pk.keyVersion = le.signatureKeyVersion
    pure (some {
      startSequenceNo := leStart.sequenceNo
      endSequenceNo := leEnd.sequenceNo
      storedEntryCount
      storedDigestHash := memberText le.payload "digest_hash"
      targetYearMonth := yearMonth
      digestGeneratedAt := le.sourceEventAt
      signature := byteaText le.signature
      signatureKeyVersion := le.signatureKeyVersion
      publicKey := key.map fun pk => byteaText pk.publicKey
      startEntryHash := byteaText leStart.entryHash
      endEntryHash := byteaText leEnd.entryHash })
  | _, _ => pure none

/-- `rpc_fetch_monthly_digest_for_verification`, which runs with the rights of its owner. There is
no `order by`; the rows come in the order of the table, to which rows are only ever added. -/
def rpcFetchMonthlyDigestForVerification (db : LedgerDb) (yearMonth : String) :
    Except SqlError (List DigestForVerificationRow) := do
  Result.require (isYearMonth yearMonth) invalidRpcInput
  let rows ← Result.traverse (digestForVerificationRow db yearMonth)
    (db.entries.filter (isMonthlyDigestOf yearMonth))
  pure rows.reduceOption

end Sql

end Mipsorcu
