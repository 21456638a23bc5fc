import Mipsorcu.Database.Digest
import Mipsorcu.Server.LedgerExport

/-!
# The database's verification of the hash chain

`rpc_verify_ledger_hash_chain` walks the rows of a range in order, from the hash of the row before
the range, and compares positions and previous hashes. Without a range it walks the whole table
and compares the last row with the chain state.

`ChainCursor.walked` says all the walk can do. From it follow what a valid report means
(`rpcVerifyLedgerHashChain_valid`) and which positions a report names as gaps
(`rpcVerifyLedgerHashChain_gapAt`).
-/

namespace Mipsorcu

namespace Sql

/-! ### The procedure -/

/-- The row `rpc_verify_ledger_hash_chain` returns. -/
structure VerifyHashChainRow where
  chainValid : Bool
  entriesChecked : ℤ
  firstGapSequenceNo : Option ℤ
  firstGapDetail : Option String
  firstHashMismatchSequenceNo : Option ℤ
  firstHashMismatchDetail : Option String
  chainHeadSequenceNo : Option ℤ
  chainHeadEntryHash : Option (List UInt8)
  deriving DecidableEq

/-- The hash before the first entry. -/
def zeroHash : List UInt8 :=
  List.replicate 32 0

/-- `n + 1` for a `bigint`. -/
def bigintSucc (n : ℤ) : Except SqlError ℤ :=
  if n < 9223372036854775807 then .ok (n + 1) else .error bigintOutOfRange

/-- What the walk has found. -/
inductive ChainFinding where
  | gap (checked sequenceNo : ℤ) (detail : String)
  | hashMismatch (checked sequenceNo : ℤ) (detail : String)

/-- The report of a finding. -/
def ChainFinding.report (head : LedgerChainStateRow) : ChainFinding → VerifyHashChainRow
  | gap checked sequenceNo detail => ⟨false, checked, some sequenceNo, some detail, none, none,
      some head.lastSequenceNo, some head.lastEntryHash⟩
  | hashMismatch checked sequenceNo detail => ⟨false, checked, none, none, some sequenceNo,
      some detail, some head.lastSequenceNo, some head.lastEntryHash⟩

/-- The variables of the loop. -/
structure ChainCursor where
  expectedSequenceNo : ℤ
  expectedPrevHash : List UInt8
  last : Option (ℤ × List UInt8)
  checked : ℤ

/-- The body of the loop. -/
def ChainCursor.advance (c : ChainCursor) (row : LedgerEntryRow) :
    Except SqlError (Except ChainFinding ChainCursor) :=
  if row.sequenceNo ≠ c.expectedSequenceNo then
    .ok (.error (.gap c.checked c.expectedSequenceNo
      ("sequence " ++ toString c.expectedSequenceNo ++ ": expected sequence_no, found " ++
        toString row.sequenceNo)))
  else if row.previousEntryHash ≠ c.expectedPrevHash then
    .ok (.error (.hashMismatch c.checked row.sequenceNo
      (if c.expectedPrevHash = zeroHash then
        "sequence " ++ toString row.sequenceNo ++
          ": previous_entry_hash does not match genesis zero hash"
      else
        "sequence " ++ toString row.sequenceNo ++
          ": previous_entry_hash does not match preceding entry_hash at sequence " ++
          toString (row.sequenceNo - 1))))
  -- both counters are `bigint`, and raise when they leave its range
  else do
    let checked ← bigintSucc c.checked
    let expectedSequenceNo ← bigintSucc c.expectedSequenceNo
    pure (.ok ⟨expectedSequenceNo, row.entryHash, some (row.sequenceNo, row.entryHash), checked⟩)

/-- The loop. -/
def ChainCursor.walk (c : ChainCursor) :
    List LedgerEntryRow → Except SqlError (Except ChainFinding ChainCursor)
  | [] => .ok (.ok c)
  | row :: rows => do
    match ← c.advance row with
    | .error finding => pure (.error finding)
    | .ok c => c.walk rows

/-- The check of the end of the range. -/
def ChainCursor.checkEnd (c : ChainCursor) : Option ℤ → Except ChainFinding Unit
  | some stop =>
    if c.expectedSequenceNo ≤ stop then
      .error (.gap c.checked c.expectedSequenceNo
        ("sequence " ++ toString c.expectedSequenceNo ++
          ": expected sequence_no before range end " ++ toString stop))
    else .ok ()
  | none => .ok ()

/-- The comparison with the chain state, for the whole table. -/
def ChainCursor.checkHead (c : ChainCursor) (head : LedgerChainStateRow) :
    Except ChainFinding Unit :=
  match c.last with
  | none => do
    Result.require (decide (head.lastSequenceNo = 0)) (.gap c.checked 1
      ("ledger_chain_state last_sequence_no mismatch: expected 0 for empty ledger, found " ++
        toString head.lastSequenceNo))
    Result.require (decide (head.lastEntryHash = zeroHash)) (.hashMismatch c.checked 0
      ("ledger_chain_state last_entry_hash mismatch: " ++
        "expected genesis zero hash for empty ledger"))
  | some (sequenceNo, entryHash) => do
    Result.require (decide (head.lastSequenceNo = sequenceNo)) (.gap c.checked sequenceNo
      ("ledger_chain_state last_sequence_no mismatch: expected " ++ toString sequenceNo ++
        ", found " ++ toString head.lastSequenceNo))
    Result.require (decide (head.lastEntryHash = entryHash)) (.hashMismatch c.checked sequenceNo
      ("ledger_chain_state last_entry_hash mismatch: expected entry_hash at sequence " ++
        toString sequenceNo))

/-- The checks after the loop; the number of rows that were checked. -/
def ChainCursor.finish (c : ChainCursor) (head : LedgerChainStateRow) (start stop : Option ℤ) :
    Except ChainFinding ℤ := do
  c.checkEnd stop
  if start.isSome || stop.isSome then pure c.checked
  else (fun _ => c.checked) <$> c.checkHead head

/-- The hash before the range, if there is one. -/
def precedingHash (db : LedgerDb) : Option ℤ → Option (List UInt8)
  | some start =>
    if 1 < start then (entryAt db (start - 1)).map (·.entryHash) else some zeroHash
  | none => some zeroHash

/-- The rows of the range, in order. -/
def rangeRows (db : LedgerDb) (start stop : Option ℤ) : List LedgerEntryRow :=
  orderBySequenceNo (db.entries.filter fun row =>
    (start.all fun s => decide (s ≤ row.sequenceNo)) &&
      (stop.all fun e => decide (row.sequenceNo ≤ e)))

/-- The checks after the preceding hash was found. -/
def verifyRange (db : LedgerDb) (head : LedgerChainStateRow) (start stop : Option ℤ)
    (previous : List UInt8) : Except SqlError (Except ChainFinding ℤ) := do
  match ← ChainCursor.walk ⟨start.getD 1, previous, none, 0⟩ (rangeRows db start stop) with
  | .error finding => pure (.error finding)
  | .ok c => pure (c.finish head start stop)

/-- The procedure from the preceding hash on. -/
def verifyFrom (db : LedgerDb) (head : LedgerChainStateRow) (start stop : Option ℤ) :
    Option (List UInt8) → Except SqlError VerifyHashChainRow
  | none =>
    .ok ((ChainFinding.gap 0 (start.getD 1 - 1) ("sequence " ++ toString (start.getD 1 - 1) ++
      ": preceding ledger entry missing for range start " ++ toString (start.getD 1))).report head)
  | some previous => do
    match ← verifyRange db head start stop previous with
    | .error finding => pure (finding.report head)
    | .ok checked => pure ⟨true, checked, none, none, none, none, some head.lastSequenceNo,
        some head.lastEntryHash⟩

/-- `rpc_verify_ledger_hash_chain`. -/
def rpcVerifyLedgerHashChain (db : LedgerDb) (start stop : Option ℤ) :
    Except SqlError VerifyHashChainRow := do
  Result.require (start.all fun s => decide (0 < s)) invalidRpcInput
  Result.require (stop.all fun e => decide (0 < e)) invalidRpcInput
  Result.require (start.all fun s => stop.all fun e => decide (s ≤ e)) invalidRpcInput
  match db.chainState with
  | none => pure ⟨false, 0, none, some "chain state missing", none, none, none, none⟩
  | some head => verifyFrom db head start stop (precedingHash db start)

/-! ### The walk -/

/-- The rows have the positions `n`, `n + 1`, … and each carries the hash of the one before it,
the first the hash `previous`. -/
def Follows : ℤ → List UInt8 → List LedgerEntryRow → Prop
  | _, _, [] => True
  | n, previous, row :: rows =>
    row.sequenceNo = n ∧ row.previousEntryHash = previous ∧ Follows (n + 1) row.entryHash rows

theorem Follows.mem_iff {rows : List LedgerEntryRow} {n m : ℤ} {previous : List UInt8}
    (h : Follows n previous rows) :
    (∃ row ∈ rows, row.sequenceNo = m) ↔ n ≤ m ∧ m < n + rows.length := by
  induction rows generalizing n previous with
  | nil => simp
  | cons row rows ih =>
    obtain ⟨hseq, -, hrest⟩ := h
    rw [List.exists_mem_cons_iff, ih hrest, hseq, List.length_cons]
    push_cast
    omega

theorem bigintSucc_of_lt {n : ℤ} (h : n < 9223372036854775807) : bigintSucc n = .ok (n + 1) :=
  if_pos h

/-- The cursor after rows that follow it. -/
def ChainCursor.after (c : ChainCursor) (rows : List LedgerEntryRow) : ChainCursor where
  expectedSequenceNo := c.expectedSequenceNo + rows.length
  expectedPrevHash := (rows.getLast?.map (·.entryHash)).getD c.expectedPrevHash
  last := (rows.getLast?.map fun row => (row.sequenceNo, row.entryHash)).or c.last
  checked := c.checked + rows.length

/-- The hash a row after `rows` has to carry. -/
def lastHash (previous : List UInt8) (rows : List LedgerEntryRow) : List UInt8 :=
  (rows.getLast?.map (·.entryHash)).getD previous

theorem lastHash_cons (previous : List UInt8) (row : LedgerEntryRow) (rows : List LedgerEntryRow) :
    lastHash previous (row :: rows) = lastHash row.entryHash rows := by
  cases rows <;> simp [lastHash, List.getLast?_cons]

theorem Follows.append {xs ys : List LedgerEntryRow} {n : ℤ} {previous : List UInt8} :
    Follows n previous (xs ++ ys) ↔ Follows n previous xs ∧
      Follows (n + xs.length) (lastHash previous xs) ys := by
  induction xs generalizing n previous with
  | nil => simp [Follows, lastHash]
  | cons x xs ih =>
    have hn : n + 1 + (xs.length : ℤ) = n + ((xs.length + 1 : ℕ) : ℤ) := by push_cast; omega
    rw [List.cons_append, Follows, Follows, ih, lastHash_cons, List.length_cons, hn, and_assoc,
      and_assoc]

/-- **All the walk can do**: reach the end, raise after the largest position, or stop at the first
row that does not follow. -/
inductive ChainCursor.Walked (c : ChainCursor) (rows : List LedgerEntryRow) :
    Except SqlError (Except ChainFinding ChainCursor) → Prop
  | reached (h : Follows c.expectedSequenceNo c.expectedPrevHash rows)
      (hmax : ∀ row ∈ rows, row.sequenceNo < 9223372036854775807) :
      Walked c rows (.ok (.ok (c.after rows)))
  | raised {pre post : List LedgerEntryRow} {row : LedgerEntryRow}
      (hrows : rows = pre ++ row :: post)
      (h : Follows c.expectedSequenceNo c.expectedPrevHash (pre ++ [row]))
      (hmax : 9223372036854775807 ≤ row.sequenceNo) : Walked c rows (.error bigintOutOfRange)
  | gap {pre post : List LedgerEntryRow} {row : LedgerEntryRow} {checked n : ℤ} {detail : String}
      (hrows : rows = pre ++ row :: post)
      (h : Follows c.expectedSequenceNo c.expectedPrevHash pre)
      (hn : n = c.expectedSequenceNo + pre.length) (hgap : row.sequenceNo ≠ n) :
      Walked c rows (.ok (.error (.gap checked n detail)))
  | hashMismatch {pre post : List LedgerEntryRow} {row : LedgerEntryRow} {checked : ℤ}
      {detail : String} (hrows : rows = pre ++ row :: post)
      (h : Follows c.expectedSequenceNo c.expectedPrevHash pre)
      (hhash : row.previousEntryHash ≠ lastHash c.expectedPrevHash pre) :
      Walked c rows (.ok (.error (.hashMismatch checked row.sequenceNo detail)))

/-- A row that follows, before a walk. -/
theorem ChainCursor.Walked.cons {c d : ChainCursor} {row : LedgerEntryRow}
    {rows : List LedgerEntryRow} {result : Except SqlError (Except ChainFinding ChainCursor)}
    (hseq : row.sequenceNo = c.expectedSequenceNo)
    (hprev : row.previousEntryHash = c.expectedPrevHash)
    (hlt : c.expectedSequenceNo < 9223372036854775807)
    (hd : d = ⟨c.expectedSequenceNo + 1, row.entryHash, some (row.sequenceNo, row.entryHash),
      c.checked + 1⟩)
    (h : d.Walked rows result) : c.Walked (row :: rows) result := by
  subst hd
  have hfollows : ∀ {pre : List LedgerEntryRow},
      Follows (c.expectedSequenceNo + 1) row.entryHash pre →
      Follows c.expectedSequenceNo c.expectedPrevHash (row :: pre) :=
    fun hpre => ⟨hseq, hprev, hpre⟩
  have hlength : ∀ pre : List LedgerEntryRow, c.expectedSequenceNo + 1 + (pre.length : ℤ) =
      c.expectedSequenceNo + ((row :: pre).length : ℤ) := by
    intro pre
    rw [List.length_cons]
    push_cast
    omega
  -- a finding in the rest is the same finding one row later
  cases h with
  | reached h hmax =>
    have hafter : ChainCursor.after ⟨c.expectedSequenceNo + 1, row.entryHash,
        some (row.sequenceNo, row.entryHash), c.checked + 1⟩ rows = c.after (row :: rows) := by
      have hchecked : c.checked + 1 + (rows.length : ℤ) =
          c.checked + ((row :: rows).length : ℤ) := by
        rw [List.length_cons]
        push_cast
        omega
      rw [ChainCursor.after, ChainCursor.after, ← hlength, ← hchecked]
      cases rows <;> simp [List.getLast?_cons]
    rw [hafter]
    exact .reached (hfollows h) (List.forall_mem_cons.mpr ⟨hseq ▸ hlt, hmax⟩)
  | raised hrows h hmax =>
    subst hrows
    exact .raised (List.cons_append).symm (hfollows h) hmax
  | gap hrows h hn hgap =>
    subst hrows
    exact .gap (List.cons_append).symm (hfollows h) (hn.trans (hlength _)) hgap
  | hashMismatch hrows h hhash =>
    subst hrows
    rw [← lastHash_cons c.expectedPrevHash] at hhash
    exact .hashMismatch (List.cons_append).symm (hfollows h) hhash

theorem ChainCursor.walked (c : ChainCursor) (hchecked : c.checked < c.expectedSequenceNo)
    (rows : List LedgerEntryRow) : c.Walked rows (c.walk rows) := by
  induction rows generalizing c with
  | nil =>
    have hafter : c.after [] = c := by simp [ChainCursor.after]
    have hreached : c.Walked [] (.ok (.ok (c.after []))) := .reached trivial (by simp)
    rwa [hafter] at hreached
  | cons row rows ih =>
    rw [ChainCursor.walk, ChainCursor.advance]
    have hfirst := (List.nil_append (row :: rows)).symm
    by_cases hseq : row.sequenceNo = c.expectedSequenceNo
    · by_cases hprev : row.previousEntryHash = c.expectedPrevHash
      · rw [if_neg (not_not.mpr hseq), if_neg (not_not.mpr hprev)]
        by_cases hlt : c.expectedSequenceNo < 9223372036854775807
        · rw [bigintSucc_of_lt hlt, bigintSucc_of_lt (by omega)]
          exact .cons hseq hprev hlt rfl (ih _ (by simp only; omega))
        -- one of the two counters cannot be raised any more
        · have hraised : c.Walked (row :: rows) (.error bigintOutOfRange) :=
            .raised hfirst ⟨hseq, hprev, trivial⟩ (by omega)
          by_cases hlt' : c.checked < 9223372036854775807
          · rw [bigintSucc_of_lt hlt', bigintSucc, if_neg hlt]
            exact hraised
          · rw [bigintSucc, if_neg hlt']
            exact hraised
      · rw [if_neg (not_not.mpr hseq), if_pos hprev]
        exact .hashMismatch hfirst trivial hprev
    · rw [if_pos hseq]
      exact .gap hfirst trivial (by simp) hseq

/-! ### The rows of a range -/

section

variable {db : LedgerDb} {start stop : Option ℤ}

theorem mem_rangeRows {row : LedgerEntryRow} :
    row ∈ rangeRows db start stop ↔ row ∈ db.entries ∧ (∀ s ∈ start, s ≤ row.sequenceNo) ∧
      ∀ e ∈ stop, row.sequenceNo ≤ e := by
  simp [rangeRows, orderBySequenceNo, List.mem_insertionSort, List.mem_filter, Option.all_eq_true]

/-- The positions of the rows increase strictly. -/
theorem rangeRows_sorted (hnodup : (db.entries.map (·.sequenceNo)).Nodup) :
    (rangeRows db start stop).Pairwise fun a b => a.sequenceNo < b.sequenceNo := by
  have hle : (rangeRows db start stop).Pairwise fun a b => a.sequenceNo ≤ b.sequenceNo :=
    List.pairwise_insertionSort _ _
  have hne : ((rangeRows db start stop).map (·.sequenceNo)).Nodup :=
    (((List.perm_insertionSort _ _).map _).nodup_iff).mpr
      (hnodup.sublist (List.filter_sublist.map _))
  exact (hle.and (List.pairwise_map.mp hne)).imp fun h => lt_of_le_of_ne h.1 h.2

/-- **A gap**: in rows of increasing positions from `n` on, the position after rows that follow is
missing if the next row does not have it. -/
theorem Follows.missing {pre post : List LedgerEntryRow} {row : LedgerEntryRow} {n : ℤ}
    {previous : List UInt8} (h : Follows n previous pre)
    (hsorted : (pre ++ row :: post).Pairwise fun a b => a.sequenceNo < b.sequenceNo)
    (hfrom : n ≤ row.sequenceNo) (hgap : row.sequenceNo ≠ n + pre.length) :
    n + pre.length < row.sequenceNo ∧
      ∀ x ∈ pre ++ row :: post, x.sequenceNo ≠ n + pre.length := by
  obtain ⟨-, hpost, hcross⟩ := List.pairwise_append.mp hsorted
  have hlt : n + pre.length < row.sequenceNo := by
    by_cases hempty : pre.length = 0
    · omega
    · -- the last of the rows before is one below
      have hlast : ∃ x ∈ pre, x.sequenceNo = n + pre.length - 1 := h.mem_iff.mpr (by omega)
      obtain ⟨x, hx, hseq⟩ := hlast
      have hbelow := hcross x hx row List.mem_cons_self
      omega
  refine ⟨hlt, fun x hx => ?_⟩
  rcases List.mem_append.mp hx with hpre | hrest
  · have hbound := h.mem_iff.mp ⟨x, hpre, rfl⟩
    omega
  · rcases List.mem_cons.mp hrest with rfl | hafter
    · exact hgap
    · have habove := (List.pairwise_cons.mp hpost).1 x hafter
      omega

end

/-! ### The report -/

theorem ChainCursor.Walked.eq_reached {c : ChainCursor} {rows : List LedgerEntryRow}
    {result : Except SqlError (Except ChainFinding ChainCursor)} (h : c.Walked rows result)
    (hfollows : Follows c.expectedSequenceNo c.expectedPrevHash rows)
    (hmax : ∀ row ∈ rows, row.sequenceNo < 9223372036854775807) :
    result = .ok (.ok (c.after rows)) := by
  cases h with
  | reached => rfl
  | raised hrows _ hrow =>
    rw [hrows] at hmax
    have hlt := hmax _ (List.mem_append_right _ List.mem_cons_self)
    omega
  | gap hrows _ hn hgap =>
    rw [hrows, Follows.append] at hfollows
    exact absurd (hfollows.2.1.trans hn.symm) hgap
  | hashMismatch hrows _ hhash =>
    rw [hrows, Follows.append] at hfollows
    exact absurd hfollows.2.2.1 hhash

theorem ChainCursor.Walked.eq_raised {c : ChainCursor} {rows : List LedgerEntryRow}
    {result : Except SqlError (Except ChainFinding ChainCursor)} (h : c.Walked rows result)
    (hfollows : Follows c.expectedSequenceNo c.expectedPrevHash rows) {row : LedgerEntryRow}
    (hrow : row ∈ rows) (hmax : 9223372036854775807 ≤ row.sequenceNo) :
    result = .error bigintOutOfRange := by
  cases h with
  | reached _ hlt => exact absurd (hlt row hrow) (by omega)
  | raised => rfl
  | gap hrows _ hn hgap =>
    rw [hrows, Follows.append] at hfollows
    exact absurd (hfollows.2.1.trans hn.symm) hgap
  | hashMismatch hrows _ hhash =>
    rw [hrows, Follows.append] at hfollows
    exact absurd hfollows.2.2.1 hhash

theorem ChainCursor.checkEnd_eq_ok {c : ChainCursor} {stop : Option ℤ} {u : Unit} :
    c.checkEnd stop = .ok u ↔ ∀ e ∈ stop, e < c.expectedSequenceNo := by
  cases stop with
  | none => simp [ChainCursor.checkEnd]
  | some e =>
    rw [ChainCursor.checkEnd]
    split_ifs with hend <;> simp <;> omega

/-- The position and hash the chain state has to have after the rows of the whole table. -/
def lastOf (rows : List LedgerEntryRow) : ℤ × List UInt8 :=
  (rows.getLast?.map fun row => (row.sequenceNo, row.entryHash)).getD (0, zeroHash)

theorem ChainCursor.checkHead_eq_ok {c : ChainCursor} {head : LedgerChainStateRow} {u : Unit} :
    c.checkHead head = .ok u ↔
      c.last.getD (0, zeroHash) = (head.lastSequenceNo, head.lastEntryHash) := by
  unfold ChainCursor.checkHead
  split <;> rename_i hlast <;> rw [hlast] <;>
    simp only [Result.bind_eq_ok, Result.require_eq_ok, decide_eq_true_eq, Option.getD_none,
      Option.getD_some, Prod.mk.injEq, exists_const]
  · exact and_congr eq_comm eq_comm
  · exact and_congr eq_comm eq_comm

section

variable {db : LedgerDb} {start stop : Option ℤ} {head : LedgerChainStateRow}
  {previous : List UInt8}

theorem ChainCursor.finish_after_eq_ok {n checked : ℤ} {rows : List LedgerEntryRow} :
    (ChainCursor.after ⟨n, previous, none, 0⟩ rows).finish head start stop = .ok checked ↔
      (∀ e ∈ stop, e < n + rows.length) ∧
      (start = none → stop = none → lastOf rows = (head.lastSequenceNo, head.lastEntryHash)) ∧
      checked = rows.length := by
  have hchecked : (ChainCursor.after ⟨n, previous, none, 0⟩ rows).checked = rows.length := by
    simp [ChainCursor.after]
  have hlast : (ChainCursor.after ⟨n, previous, none, 0⟩ rows).last.getD (0, zeroHash) =
      lastOf rows := by
    rw [ChainCursor.after, Option.or_none, lastOf]
  rw [ChainCursor.finish, Result.bind_eq_ok]
  simp only [ChainCursor.checkEnd_eq_ok, exists_const]
  refine and_congr Iff.rfl ?_
  split_ifs with hsome
  · rw [hchecked, Result.pure_eq_ok, eq_comm]
    refine ⟨fun h => ⟨fun hstart hstop => ?_, h⟩, fun h => h.2⟩
    rw [hstart, hstop] at hsome
    cases hsome
  · rw [Bool.or_eq_true, not_or, Option.not_isSome_iff_eq_none, Option.not_isSome_iff_eq_none]
      at hsome
    simp only [Result.map_eq_ok, ChainCursor.checkHead_eq_ok, hlast, hchecked, hsome.1, hsome.2,
      forall_const, exists_const]
    exact and_congr Iff.rfl eq_comm

/-- The rows of the range follow, reach its end and, for the whole table, the chain state. -/
structure RangeFollows (db : LedgerDb) (head : LedgerChainStateRow) (start stop : Option ℤ)
    (previous : List UInt8) : Prop where
  follows : Follows (start.getD 1) previous (rangeRows db start stop)
  reaches : ∀ e ∈ stop, e < start.getD 1 + (rangeRows db start stop).length
  head_eq : start = none → stop = none →
    lastOf (rangeRows db start stop) = (head.lastSequenceNo, head.lastEntryHash)

theorem verifyRange_eq_ok (hstart : 0 < start.getD 1) {checked : ℤ} :
    verifyRange db head start stop previous = .ok (.ok checked) ↔
      RangeFollows db head start stop previous ∧
      (∀ row ∈ rangeRows db start stop, row.sequenceNo < 9223372036854775807) ∧
      checked = (rangeRows db start stop).length := by
  have hwalked := ChainCursor.walked ⟨start.getD 1, previous, none, 0⟩ hstart
    (rangeRows db start stop)
  unfold verifyRange
  constructor
  · intro h
    obtain ⟨result, hresult, h⟩ := Result.bind_eq_ok.mp h
    rw [hresult] at hwalked
    cases hwalked with
    | reached hfollows hmax =>
      obtain ⟨hend, hhead, hchecked⟩ := ChainCursor.finish_after_eq_ok.mp (Except.ok.inj h)
      exact ⟨⟨hfollows, hend, hhead⟩, hmax, hchecked⟩
    | gap => cases h
    | hashMismatch => cases h
  · rintro ⟨hrange, hmax, hchecked⟩
    rw [hwalked.eq_reached hrange.follows hmax]
    exact congrArg Except.ok
      (ChainCursor.finish_after_eq_ok.mpr ⟨hrange.reaches, hrange.head_eq, hchecked⟩)

/-- Arguments the procedure accepts. -/
structure VerifyArguments (start stop : Option ℤ) : Prop where
  start_pos : ∀ s ∈ start, 0 < s
  stop_pos : ∀ e ∈ stop, 0 < e
  le : ∀ s ∈ start, ∀ e ∈ stop, s ≤ e

theorem VerifyArguments.unbounded : VerifyArguments none none := by
  constructor <;> simp

theorem VerifyArguments.getD_pos (h : VerifyArguments start stop) : 0 < start.getD 1 := by
  cases start with
  | none => exact one_pos
  | some s => exact h.start_pos s rfl

theorem rpcVerifyLedgerHashChain_eq (hstate : db.chainState = some head)
    (hargs : VerifyArguments start stop) : rpcVerifyLedgerHashChain db start stop =
      verifyFrom db head start stop (precedingHash db start) := by
  have hstart : (start.all fun s => decide (0 < s)) = true := by
    simpa [Option.all_eq_true] using hargs.start_pos
  have hstop : (stop.all fun e => decide (0 < e)) = true := by
    simpa [Option.all_eq_true] using hargs.stop_pos
  have hle : (start.all fun s => stop.all fun e => decide (s ≤ e)) = true := by
    simpa [Option.all_eq_true] using hargs.le
  rw [rpcVerifyLedgerHashChain, hstart, hstop, hle, hstate]
  rfl

/-- **A valid report** means that the rows of the range follow the row before it. -/
theorem rpcVerifyLedgerHashChain_valid (hstate : db.chainState = some head)
    (hargs : VerifyArguments start stop) {checked : ℤ} :
    (∃ r, rpcVerifyLedgerHashChain db start stop = .ok r ∧ r.chainValid = true ∧
        r.entriesChecked = checked) ↔
      ∃ previous, precedingHash db start = some previous ∧
        RangeFollows db head start stop previous ∧
        (∀ row ∈ rangeRows db start stop, row.sequenceNo < 9223372036854775807) ∧
        checked = (rangeRows db start stop).length := by
  rw [rpcVerifyLedgerHashChain_eq hstate hargs]
  constructor
  · rintro ⟨r, hr, hvalid, rfl⟩
    cases hprevious : precedingHash db start with
    | none =>
      rw [hprevious, verifyFrom] at hr
      cases hr
      cases hvalid
    | some previous =>
      rw [hprevious, verifyFrom] at hr
      obtain ⟨result, hresult, hr⟩ := Result.bind_eq_ok.mp hr
      cases result with
      -- a finding of either kind makes the report invalid
      | error finding =>
        cases hr
        cases finding <;> cases hvalid
      | ok checked =>
        cases hr
        exact ⟨previous, rfl, (verifyRange_eq_ok hargs.getD_pos).mp hresult⟩
  · rintro ⟨previous, hprevious, hrange⟩
    rw [hprevious, verifyFrom, (verifyRange_eq_ok hargs.getD_pos).mpr hrange]
    exact ⟨_, rfl, rfl, rfl⟩

/-- After a row at the largest position the procedure raises. -/
theorem rpcVerifyLedgerHashChain_raised (hstate : db.chainState = some head)
    (hargs : VerifyArguments start stop) (hprevious : precedingHash db start = some previous)
    (hfollows : Follows (start.getD 1) previous (rangeRows db start stop)) {row : LedgerEntryRow}
    (hrow : row ∈ rangeRows db start stop) (hmax : 9223372036854775807 ≤ row.sequenceNo) :
    rpcVerifyLedgerHashChain db start stop = .error bigintOutOfRange := by
  have hwalked := ChainCursor.walked ⟨start.getD 1, previous, none, 0⟩ hargs.getD_pos
    (rangeRows db start stop)
  rw [rpcVerifyLedgerHashChain_eq hstate hargs, hprevious, verifyFrom, verifyRange,
    hwalked.eq_raised hfollows hrow hmax]
  rfl

/-! ### Gaps -/

/-- Where a report names a gap. -/
inductive GapAt (db : LedgerDb) (head : LedgerChainStateRow) (start stop : Option ℤ) (n : ℤ) : Prop
  | preceding (h : precedingHash db start = none) (hn : n = start.getD 1 - 1)
  | inside {previous : List UInt8} {pre post : List LedgerEntryRow} {row : LedgerEntryRow}
      (hrows : rangeRows db start stop = pre ++ row :: post)
      (h : Follows (start.getD 1) previous pre) (hn : n = start.getD 1 + pre.length)
      (hgap : row.sequenceNo ≠ n)
  | atEnd {previous : List UInt8} {e : ℤ} (hstop : stop = some e)
      (h : Follows (start.getD 1) previous (rangeRows db start stop))
      (hn : n = start.getD 1 + (rangeRows db start stop).length) (hle : n ≤ e)
  | chainState (hstart : start = none) (hstop : stop = none)
      (h : Follows 1 zeroHash (rangeRows db start stop))
      (hhead : head.lastSequenceNo ≠ (lastOf (rangeRows db start stop)).1)
      (hn : n = ((rangeRows db start stop).getLast?.map (·.sequenceNo)).getD 1)

theorem ChainCursor.checkEnd_eq_gap {c : ChainCursor} {checked n : ℤ} {detail : String}
    (h : c.checkEnd stop = .error (.gap checked n detail)) :
    ∃ e, stop = some e ∧ n = c.expectedSequenceNo ∧ n ≤ e := by
  cases stop with
  | none => cases h
  | some e =>
    rw [ChainCursor.checkEnd] at h
    split_ifs at h with hend
    cases h
    exact ⟨e, rfl, rfl, hend⟩

theorem ChainCursor.checkHead_eq_gap {c : ChainCursor} {checked n : ℤ} {detail : String}
    (h : c.checkHead head = .error (.gap checked n detail)) :
    head.lastSequenceNo ≠ (c.last.getD (0, zeroHash)).1 ∧ n = (c.last.map Prod.fst).getD 1 := by
  unfold ChainCursor.checkHead at h
  split at h <;> rename_i hlast <;>
    rcases Result.bind_eq_error.mp h with hseq | ⟨_, -, hhash⟩
  · obtain ⟨hne, hfinding⟩ := Result.require_eq_error.mp hseq
    cases hfinding
    rw [hlast]
    exact ⟨by simpa using hne, rfl⟩
  · cases (Result.require_eq_error.mp hhash).2
  · obtain ⟨hne, hfinding⟩ := Result.require_eq_error.mp hseq
    cases hfinding
    rw [hlast]
    exact ⟨by simpa using hne, rfl⟩
  · cases (Result.require_eq_error.mp hhash).2

/-- **Every gap a report names** is one of these. -/
theorem rpcVerifyLedgerHashChain_gapAt (hstate : db.chainState = some head)
    (hargs : VerifyArguments start stop) {r : VerifyHashChainRow} {n : ℤ}
    (hr : rpcVerifyLedgerHashChain db start stop = .ok r) (hgap : r.firstGapSequenceNo = some n) :
    GapAt db head start stop n := by
  rw [rpcVerifyLedgerHashChain_eq hstate hargs] at hr
  -- a gap is reported before the rows, among them, at the end of the range, or at the head
  cases hprevious : precedingHash db start with
  | none =>
    rw [hprevious, verifyFrom] at hr
    cases hr
    exact .preceding hprevious (Option.some.inj hgap).symm
  | some previous =>
    rw [hprevious, verifyFrom] at hr
    obtain ⟨result, hresult, hr⟩ := Result.bind_eq_ok.mp hr
    cases result with
    | ok checked =>
      cases hr
      cases hgap
    | error finding =>
      cases hr
      cases finding with
      | hashMismatch => cases hgap
      | gap checked m detail =>
        obtain rfl : m = n := Option.some.inj hgap
        obtain ⟨walked, hwalk, hresult⟩ := Result.bind_eq_ok.mp hresult
        have hwalked := ChainCursor.walked ⟨start.getD 1, previous, none, 0⟩ hargs.getD_pos
          (rangeRows db start stop)
        rw [hwalk] at hwalked
        cases hwalked with
        | gap hrows hfollows hn hne =>
          cases hresult
          exact .inside hrows hfollows hn hne
        | hashMismatch => cases hresult
        | reached hfollows =>
          rcases Result.bind_eq_error.mp (Except.ok.inj hresult) with hend | ⟨_, -, hhead⟩
          · obtain ⟨e, hstop, hn, hle⟩ := ChainCursor.checkEnd_eq_gap hend
            exact .atEnd hstop hfollows hn hle
          -- the head is compared only when neither bound is given
          · split_ifs at hhead with hsome
            · cases hhead
            · rw [Bool.or_eq_true, not_or, Option.not_isSome_iff_eq_none,
                Option.not_isSome_iff_eq_none] at hsome
              obtain ⟨rfl, rfl⟩ := hsome
              obtain rfl : zeroHash = previous := Option.some.inj hprevious
              obtain ⟨hne, hn⟩ := ChainCursor.checkHead_eq_gap (Result.map_eq_error.mp hhead)
              rw [ChainCursor.after, Option.or_none] at hne hn
              rw [Option.map_map] at hn
              exact .chainState rfl rfl hfollows hne hn

/-- The position of the last of rows that follow from the first position on. -/
theorem Follows.last {rows : List LedgerEntryRow} {previous : List UInt8}
    (h : Follows 1 previous rows) :
    (lastOf rows).1 = rows.length ∧
      (rows.getLast?.map (·.sequenceNo)).getD 1 = max (rows.length : ℤ) 1 := by
  rcases rows.eq_nil_or_concat with rfl | ⟨front, row, rfl⟩
  · exact ⟨rfl, rfl⟩
  · rw [List.concat_eq_append, Follows.append] at h
    have hseq : row.sequenceNo = 1 + front.length := h.2.1
    rw [lastOf, List.concat_eq_append, List.getLast?_concat, List.length_append,
      List.length_singleton]
    simp only [Option.map_some, Option.getD_some, hseq]
    push_cast
    omega

/-- The smallest position from `first` on that no row has. -/
structure IsFirstMissing (db : LedgerDb) (first n : ℤ) : Prop where
  le : first ≤ n
  missing : ∀ row ∈ db.entries, row.sequenceNo ≠ n
  present : ∀ m, first ≤ m → m < n → ∃ row ∈ db.entries, row.sequenceNo = m

/-- A named gap is the first missing position of the range, unless it stands for the row before
the range or for the chain state. -/
theorem GapAt.isFirstMissing {n : ℤ} (h : GapAt db head start stop n)
    (hnodup : (db.entries.map (·.sequenceNo)).Nodup)
    (hpos : ∀ row ∈ db.entries, 0 < row.sequenceNo) (hpreceding : precedingHash db start ≠ none)
    (hrange : ¬ (start = none ∧ stop = none ∧
      head.lastSequenceNo ≠ (lastOf (rangeRows db start stop)).1 ∧
      Follows 1 zeroHash (rangeRows db start stop))) :
    IsFirstMissing db (start.getD 1) n ∧ ∀ e ∈ stop, n ≤ e := by
  have hfrom : ∀ row ∈ rangeRows db start stop, start.getD 1 ≤ row.sequenceNo := by
    intro row hrow
    obtain ⟨hmem, hstart, -⟩ := mem_rangeRows.mp hrow
    cases start with
    | none => exact hpos row hmem
    | some s => exact hstart s rfl
  -- positions of the range are looked up among its rows
  have hpresent : ∀ {previous : List UInt8} {pre : List LedgerEntryRow},
      Follows (start.getD 1) previous pre → (∀ row ∈ pre, row ∈ rangeRows db start stop) →
      n = start.getD 1 + pre.length → ∀ m, start.getD 1 ≤ m → m < n →
      ∃ row ∈ db.entries, row.sequenceNo = m := by
    intro previous pre hfollows hsub hn m hm hlt
    obtain ⟨row, hrow, hseq⟩ := hfollows.mem_iff.mpr ⟨hm, hn ▸ hlt⟩
    exact ⟨row, (mem_rangeRows.mp (hsub row hrow)).1, hseq⟩
  have habsent : start.getD 1 ≤ n → (∀ e ∈ stop, n ≤ e) →
      (∀ row ∈ rangeRows db start stop, row.sequenceNo ≠ n) →
      ∀ row ∈ db.entries, row.sequenceNo ≠ n := by
    intro hle hend hrows row hrow hseq
    refine hrows row (mem_rangeRows.mpr ⟨hrow, fun s hs => ?_, fun e he => ?_⟩) hseq
    · rw [Option.mem_def.mp hs, Option.getD_some] at hle
      omega
    · have := hend e he
      omega
  cases h with
  | preceding h => exact absurd h hpreceding
  | chainState hstart hstop hfollows hhead => exact absurd ⟨hstart, hstop, hhead, hfollows⟩ hrange
  | @inside previous pre post row hrows hfollows hn hgap =>
    have hmem : row ∈ rangeRows db start stop := by
      rw [hrows]
      exact List.mem_append_right _ List.mem_cons_self
    have hsorted : (rangeRows db start stop).Pairwise fun a b => a.sequenceNo < b.sequenceNo :=
      rangeRows_sorted hnodup
    rw [hrows] at hsorted
    obtain ⟨hlt, hmissing⟩ := hfollows.missing hsorted (hfrom row hmem) (hn ▸ hgap)
    rw [← hn] at hlt hmissing
    rw [← hrows] at hmissing
    have hend : ∀ e ∈ stop, n ≤ e := by
      intro e he
      have hle := (mem_rangeRows.mp hmem).2.2 e he
      omega
    have hle : start.getD 1 ≤ n := by omega
    refine ⟨⟨hle, habsent hle hend hmissing, hpresent hfollows (fun x hx => ?_) hn⟩, hend⟩
    rw [hrows]
    exact List.mem_append_left _ hx
  | @atEnd previous e hstop hfollows hn hle =>
    have hend : ∀ e' ∈ stop, n ≤ e' := by
      intro e' he'
      rw [hstop] at he'
      obtain rfl := Option.some.inj he'
      exact hle
    have hfirst : start.getD 1 ≤ n := by omega
    refine ⟨⟨hfirst, habsent hfirst hend fun row hrow hseq => ?_,
      hpresent hfollows (fun _ hx => hx) hn⟩, hend⟩
    have hbound := hfollows.mem_iff.mp ⟨row, hrow, hseq⟩
    omega

end

end Sql

end Mipsorcu
