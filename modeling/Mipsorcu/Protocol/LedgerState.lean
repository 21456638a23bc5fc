import Mipsorcu.Foundation.Transition
import Mipsorcu.Server.LedgerAppender

/-!
# The ledger tables as a chain

`LedgerState keys db entries head` says that the tables hold exactly the rows of `entries`, that
the verifier accepts these from genesis to `head`, and that `ledger_chain_state` is `head`. A call
of the append procedure keeps it: it changes nothing, or adds the entry it was called with at the
end (`callAppendLedgerEntry_spec`, `LedgerState.appended`). The restored rows of such a ledger are
the entries themselves (`LedgerState.restored`).
-/

namespace Mipsorcu

/-! ### One call -/

/-- The tables with an entry added. -/
def LedgerDb.add (db : LedgerDb) (e : SignedLedgerEntry) : LedgerDb :=
  { db with
    entries := db.entries ++ [.ofSigned e], chainState := some (LedgerChainHead.after e).toRow }

@[simp]
theorem LedgerDb.add_entries (db : LedgerDb) (e : SignedLedgerEntry) :
    (db.add e).entries = db.entries ++ [.ofSigned e] := rfl

@[simp]
theorem LedgerDb.add_chainState (db : LedgerDb) (e : SignedLedgerEntry) :
    (db.add e).chainState = some (LedgerChainHead.after e).toRow := rfl

@[simp]
theorem LedgerDb.add_signingPublicKeys (db : LedgerDb) (e : SignedLedgerEntry) :
    (db.add e).signingPublicKeys = db.signingPublicKeys := rfl

/-- The call has added the row of `e` after the chain state. -/
structure Appended (db : LedgerDb) (e : SignedLedgerEntry) (db' : LedgerDb) : Prop where
  keyVersion_le : e.signatureKeyVersion.val ≤ 2147483647
  id_fresh : ∀ row ∈ db.entries, row.id ≠ e.ledgerEntryId.uuid
  chainState : ∃ state, db.chainState = some state ∧
    (e.sequenceNo.val : ℤ) = state.lastSequenceNo + 1 ∧
    e.previousEntryHash.bytes = state.lastEntryHash
  db_eq : db' = db.add e

/-- The outcome names the entry. -/
structure AppendLedgerEntryOutcome.Reports (o : AppendLedgerEntryOutcome) (e : SignedLedgerEntry) :
    Prop where
  ledgerEntryId : o.ledgerEntryId = e.ledgerEntryId
  sequenceNo : o.sequenceNo = e.sequenceNo
  entryHash : o.entryHash = e.entryHash

variable {e : SignedLedgerEntry}

/-- The answer is about the row. -/
theorem AppendLedgerEntryOutcome.tryFrom_reports {r : AppendLedgerEntryRow}
    {o : AppendLedgerEntryOutcome} (h : tryFrom r = .ok o)
    (hid : r.ledgerEntryId = e.ledgerEntryId.uuid) (hseq : r.sequenceNo = e.sequenceNo.val)
    (hhash : r.entryHash = e.entryHash.bytes) : o.Reports e := by
  have hparseId : LedgerEntryId.parse e.ledgerEntryId.uuid.hyphenated = .ok e.ledgerEntryId :=
    e.ledgerEntryId.parse_asCanonicalString
  have hparseHash : LedgerHash.fromByteaHex (byteaText e.entryHash.bytes) = .ok e.entryHash :=
    LedgerHash.fromByteaHex_toByteaHex _
  simp only [tryFrom, hid, hseq, hhash, hparseId, hparseHash, LedgerSequenceNo.fromI64_val,
    Result.mapError_ok, Result.ok_bind, Result.bind_eq_ok, Result.pure_eq_ok] at h
  obtain ⟨_, -, _, -, rfl⟩ := h
  exact ⟨rfl, rfl, rfl⟩

variable {pg : Postgres}

/-- **All a call can do**: leave the tables alone or add the entry; and if it returns an outcome,
the entry is stored and the outcome names it. -/
theorem callAppendLedgerEntry_spec {db db' : LedgerDb}
    {response : Except SupabaseRpcError AppendLedgerEntryOutcome}
    (h : callAppendLedgerEntry pg db e = (db', response)) :
    (db' = db ∨ Appended db e db') ∧ ∀ o, response = .ok o →
      e.signatureKeyVersion.val ≤ 2147483647 ∧ .ofSigned e ∈ db'.entries ∧ o.Reports e := by
  unfold callAppendLedgerEntry at h
  split at h
  · cases h
    exact ⟨.inl rfl, by simp⟩
  · rename_i args hargs
    have hfits : e.signatureKeyVersion.val ≤ 2147483647 := by
      by_contra hwide
      rw [LedgerEntryRpcParams.args_fromSignedEntry_eq_none (by omega)] at hargs
      cases hargs
    have hrow := LedgerEntryRpcParams.args_fromSignedEntry hfits
    rw [hargs, Option.bind_some] at hrow
    split at h
    · cases h
      exact ⟨.inl rfl, by simp⟩
    · rename_i db₁ result hcall
      cases h
      obtain ⟨row, hrow', hcases⟩ := Sql.rpcAppendLedgerEntry_eq_ok hcall
      obtain rfl : LedgerEntryRow.ofSigned e = row := Option.some.inj (hrow.symm.trans hrow')
      -- a retry answers with the row that is stored
      rcases hcases with hreplayed | hinserted
      · refine ⟨.inl hreplayed.db_eq, fun o ho => ⟨hfits, hreplayed.db_eq ▸ hreplayed.mem, ?_⟩⟩
        exact AppendLedgerEntryOutcome.tryFrom_reports ho hreplayed.result_id
          hreplayed.result_sequenceNo hreplayed.result_entryHash
      · obtain ⟨state, hstate, -, hseq, hprev⟩ := hinserted.chainState
        refine ⟨.inr ⟨hfits, hinserted.id_fresh, ⟨state, hstate, hseq, hprev⟩, hinserted.db_eq⟩,
          fun o ho => ⟨hfits, by rw [hinserted.db_eq]; simp, ?_⟩⟩
        exact AppendLedgerEntryOutcome.tryFrom_reports ho hinserted.result_id
          hinserted.result_sequenceNo hinserted.result_entryHash

theorem AppendLedgerEntryOutcome.classify_tryFrom {row : AppendLedgerEntryRow}
    {error : SupabaseRpcError} (h : tryFrom row = .error error) :
    classifyAppendLedgerError error = .appendFailed := by
  simp only [tryFrom, Result.bind_eq_error, Result.mapError_eq_error] at h
  rcases h with ⟨_, -, rfl⟩ | ⟨_, -, ⟨_, -, rfl⟩ | ⟨_, -, ⟨_, -, rfl⟩ | ⟨_, -, ⟨_, -, rfl⟩ |
    ⟨_, -, ⟨_, -, rfl⟩ | ⟨_, -, h⟩⟩⟩⟩⟩
  iterate 5 rfl
  cases h

/-- A call whose answer is retried has not changed the tables. -/
theorem callAppendLedgerEntry_of_retryable {db db' : LedgerDb} {error : SupabaseRpcError}
    (h : callAppendLedgerEntry pg db e = (db', .error error))
    (hretry : isRetryableConflict (classifyAppendLedgerError error) = true) : db' = db := by
  unfold callAppendLedgerEntry at h
  split at h
  · exact (Prod.mk.inj h).1.symm
  · split at h
    · exact (Prod.mk.inj h).1.symm
    · rw [AppendLedgerEntryOutcome.classify_tryFrom (Prod.mk.inj h).2] at hretry
      cases hretry

/-- The conditions under which a call adds the entry: its values pass the checks of the database,
it follows the chain state, and nothing of it is stored yet. -/
structure Accepts (pg : Postgres) (db : LedgerDb) (e : SignedLedgerEntry) : Prop where
  keyVersion_le : e.signatureKeyVersion.val ≤ 2147483647
  values : Sql.argumentValuesAreValid pg (.ofSigned e) = true
  id_uuidV4 : Sql.idIsUuidV4 e.ledgerEntryId.uuid = true
  chainState : ∃ head : LedgerChainHead, db.chainState = some head.toRow ∧
    e.sequenceNo.val = head.lastSequenceNo + 1 ∧ e.previousEntryHash = head.lastEntryHash
  id_fresh : ∀ row ∈ db.entries, row.id ≠ e.ledgerEntryId.uuid
  sequenceNo_fresh : ∀ row ∈ db.entries, row.sequenceNo ≠ e.sequenceNo.val
  entryHash_fresh : ∀ row ∈ db.entries, row.entryHash ≠ e.entryHash.bytes

theorem Sql.argumentShapesAreValid_ofSigned (e : SignedLedgerEntry) :
    argumentShapesAreValid (.ofSigned e) = true := by
  simp [argumentShapesAreValid, LedgerEntryRow.ofSigned, e.sequenceNo.pos,
    e.previousEntryHash.length_bytes, e.entryHash.length_bytes, e.signature.length_bytes,
    ledgerHashLength, ledgerSignatureLength]

/-- An entry that is accepted is inserted. -/
theorem Accepts.insertNewLedgerEntry {db : LedgerDb} (h : Accepts pg db e) :
    Sql.insertNewLedgerEntry pg db (.ofSigned e) =
      .ok (db.add e, {
        ledgerEntryId := e.ledgerEntryId.uuid, sequenceNo := e.sequenceNo.val,
        entryHash := e.entryHash.bytes, chainLastSequenceNo := e.sequenceNo.val,
        chainLastEntryHash := e.entryHash.bytes, replayed := false }) := by
  obtain ⟨head, hhead, hseq, hprev⟩ := h.chainState
  have hmax : head.toRow.lastSequenceNo < 9223372036854775807 := by
    have hle := e.sequenceNo.le_max
    simp only [ledgerI64Max] at hle
    simp only [LedgerChainHead.toRow]
    omega
  have hnext : (e.sequenceNo.val : ℤ) = head.lastSequenceNo + 1 := by omega
  have hinsert : Sql.insertLedgerEntry db (.ofSigned e) =
      .ok { db with entries := db.entries ++ [.ofSigned e] } :=
    Sql.insertLedgerEntry_eq_ok.mpr
      ⟨h.id_uuidV4, h.id_fresh, h.sequenceNo_fresh, h.entryHash_fresh, rfl⟩
  simp only [Sql.insertNewLedgerEntry, Result.bind_eq_ok, Result.require_eq_ok,
    Result.ofOption_eq_ok, decide_eq_true_eq]
  exact ⟨(), h.values, head.toRow, hhead, (), hmax, (), hnext, (),
    congrArg FixedBytes.bytes hprev, _, hinsert, rfl⟩

/-- The procedure adds the entry. -/
theorem Accepts.rpcAppendLedgerEntry {db : LedgerDb} (h : Accepts pg db e)
    {args : AppendLedgerEntryArgs} (hrow : args.row? = some (.ofSigned e)) :
    Sql.rpcAppendLedgerEntry pg db args = .ok (db.add e, {
      ledgerEntryId := e.ledgerEntryId.uuid, sequenceNo := e.sequenceNo.val,
      entryHash := e.entryHash.bytes, chainLastSequenceNo := e.sequenceNo.val,
      chainLastEntryHash := e.entryHash.bytes, replayed := false }) := by
  have hnone : db.entries.find? (fun row => row.id == (LedgerEntryRow.ofSigned e).id) = none := by
    rw [List.find?_eq_none]
    intro row hmem
    rw [beq_iff_eq]
    exact h.id_fresh row hmem
  simp only [Sql.rpcAppendLedgerEntry, hrow, Sql.argumentShapesAreValid_ofSigned, hnone,
    h.insertNewLedgerEntry, Result.require_true, Result.ofOption_some, Result.ok_bind]

/-- **A call that meets the conditions adds the entry**, and its outcome names it. -/
theorem Accepts.callAppendLedgerEntry {db : LedgerDb} (h : Accepts pg db e) :
    callAppendLedgerEntry pg db e =
      (db.add e, .ok ⟨e.ledgerEntryId, e.sequenceNo, e.entryHash, .after e, false⟩) := by
  obtain ⟨args, hargs, hrow⟩ := Option.bind_eq_some_iff.mp
    (LedgerEntryRpcParams.args_fromSignedEntry h.keyVersion_le)
  have hid : LedgerEntryId.parse e.ledgerEntryId.uuid.hyphenated = .ok e.ledgerEntryId :=
    e.ledgerEntryId.parse_asCanonicalString
  have hhash : LedgerHash.fromByteaHex (byteaText e.entryHash.bytes) = .ok e.entryHash :=
    LedgerHash.fromByteaHex_toByteaHex _
  have hhead : LedgerChainHead.fromI64 e.sequenceNo.val e.entryHash = .ok (.after e) :=
    LedgerChainHead.fromI64_eq (.after e)
  simp only [Mipsorcu.callAppendLedgerEntry, hargs, h.rpcAppendLedgerEntry hrow,
    AppendLedgerEntryOutcome.tryFrom, hid, hhash, hhead, LedgerSequenceNo.fromI64_val,
    Result.mapError_ok, Result.ok_bind]
  rfl

/-! ### Ledgers that are chains -/

section

variable {P : Primitives}

/-- The tables hold exactly the chain `entries`, from genesis to `head`. -/
structure LedgerState (keys : List (LedgerVerifyingKey P)) (db : LedgerDb)
    (entries : List SignedLedgerEntry) (head : LedgerChainHead) : Prop where
  rows : db.entries = entries.map LedgerEntryRow.ofSigned
  chainState : db.chainState = some head.toRow
  verified : verifyLedgerChain entries .genesis keys = .ok head
  keyVersion_le : ∀ e ∈ entries, e.signatureKeyVersion.val ≤ 2147483647

namespace LedgerState

variable {keys : List (LedgerVerifyingKey P)} {db db' : LedgerDb}
  {entries : List SignedLedgerEntry} {head : LedgerChainHead} {e : SignedLedgerEntry}

theorem empty (keys : List (LedgerVerifyingKey P)) (registry : List LedgerSigningPublicKeyRow) :
    LedgerState keys (Sql.emptyLedger registry) [] .genesis :=
  ⟨rfl, rfl, verifyLedgerChain_nil _ _, by simp⟩

theorem mem_rows (h : LedgerState keys db entries head) (he : e ∈ entries) :
    .ofSigned e ∈ db.entries := by
  rw [h.rows]
  exact List.mem_map_of_mem he

/-- An entry added after the chain state extends the head. -/
theorem extends_of_appended (h : LedgerState keys db entries head) (ha : Appended db e db')
    (hhash : e.recomputeEntryHash P = e.entryHash) : Extends P head e := by
  obtain ⟨state, hstate, hseq, hprev⟩ := ha.chainState
  obtain rfl : head.toRow = state := Option.some.inj (h.chainState.symm.trans hstate)
  refine ⟨?_, FixedBytes.ext hprev, hhash⟩
  have hseq : (e.sequenceNo.val : ℤ) = head.lastSequenceNo + 1 := hseq
  omega

/-- **Adding an entry** whose hash recomputes and whose signature the verifier accepts keeps the
ledger a chain. -/
theorem appended (h : LedgerState keys db entries head) (ha : Appended db e db')
    (hhash : e.recomputeEntryHash P = e.entryHash) (hsig : SignatureAccepted keys e) :
    LedgerState keys db' (entries ++ [e]) (.after e) where
  rows := by rw [ha.db_eq, LedgerDb.add_entries, h.rows, List.map_append]; rfl
  chainState := by rw [ha.db_eq, LedgerDb.add_chainState]
  verified := verifyLedgerChain_append.mpr ⟨head, h.verified, verifyLedgerChain_cons.mpr
    ⟨h.extends_of_appended ha hhash, hsig, verifyLedgerChain_nil _ _⟩⟩
  keyVersion_le := by
    intro x hx
    rcases List.mem_append.mp hx with hx | hx
    · exact h.keyVersion_le x hx
    · rw [List.mem_singleton.mp hx]; exact ha.keyVersion_le

/-- The identifier of an added entry is new. -/
theorem ledgerEntryId_notMem (h : LedgerState keys db entries head) (ha : Appended db e db') :
    e.ledgerEntryId ∉ entries.map (·.ledgerEntryId) := by
  intro hmem
  obtain ⟨x, hx, hid⟩ := List.mem_map.mp hmem
  exact ha.id_fresh _ (h.mem_rows hx) (congrArg LedgerEntryId.uuid hid)

/-! ### Reading a chain back -/

/-- The positions of the entries are `1, 2, …`. -/
theorem map_sequenceNo (h : LedgerState keys db entries head) :
    entries.map (fun e => e.sequenceNo.val) = List.range' 1 entries.length :=
  (chained_of_verifyLedgerChain h.verified).sequenceNos.1

/-- The head counts the entries. -/
theorem lastSequenceNo (h : LedgerState keys db entries head) :
    head.lastSequenceNo = entries.length := by
  have hlast := (chained_of_verifyLedgerChain h.verified).sequenceNos.2
  rw [hlast]
  exact Nat.zero_add _

/-- The positions of the rows are `1, 2, …`. -/
theorem rows_map_sequenceNo (h : LedgerState keys db entries head) :
    db.entries.map (·.sequenceNo) =
      (List.range' 1 db.entries.length).map fun n : ℕ => (n : ℤ) := by
  rw [h.rows, List.length_map, ← h.map_sequenceNo, List.map_map, List.map_map]
  rfl

/-- The chain state is the position and the hash of the last row, or genesis. -/
theorem chainState_eq_getLast? (h : LedgerState keys db entries head) :
    db.chainState = some (match db.entries.getLast? with
      | none => ⟨0, LedgerHash.genesis.bytes⟩
      | some row => ⟨db.entries.length, row.entryHash⟩) := by
  have hhead : head = (entries.getLast?.map LedgerChainHead.after).getD .genesis :=
    (chained_of_verifyLedgerChain h.verified).final_eq
  rw [h.chainState, h.rows, List.getLast?_map, List.length_map, ← h.lastSequenceNo, hhead]
  cases entries.getLast? <;> rfl

/-- The rows restore to the entries. -/
theorem restoresTo (h : LedgerState keys db entries head) :
    List.Forall₂ RestoresTo db.entries entries := by
  rw [h.rows, List.forall₂_map_left_iff, List.forall₂_same]
  exact fun e he => restoresTo_ofSigned (h.keyVersion_le e he)

/-- The rows stand in the order of their positions. -/
theorem pairwise_sequenceNo (h : LedgerState keys db entries head) :
    db.entries.Pairwise fun a b => a.sequenceNo ≤ b.sequenceNo := by
  have hrange : (entries.map fun e => e.sequenceNo.val).Pairwise (· < ·) := by
    rw [h.map_sequenceNo]
    exact List.pairwise_lt_range'
  rw [h.rows, List.pairwise_map]
  refine (List.pairwise_map.mp hrange).imp fun {a b} hab => ?_
  exact Int.ofNat_le.mpr hab.le

/-- Sorting any selection of the rows by position changes nothing. -/
theorem orderBySequenceNo_eq (h : LedgerState keys db entries head) {rows : List LedgerEntryRow}
    (hrows : rows.Sublist db.entries) : Sql.orderBySequenceNo rows = rows :=
  (h.pairwise_sequenceNo.sublist hrows).insertionSort_eq

/-- Selecting by position from a list whose positions count up from `s` is a slice of the list. -/
private theorem filter_position_eq {α : Type} {f : α → ℕ} {l : List α} {s a b : ℕ} (hsa : s ≤ a)
    (hl : l.map f = List.range' s l.length) :
    l.filter (fun x => decide (a ≤ f x ∧ f x ≤ b)) = (l.drop (a - s)).take (b + 1 - a) := by
  induction l generalizing s a with
  | nil => simp
  | cons x xs ih =>
    rw [List.map_cons, List.length_cons, List.range'_succ, List.cons.injEq] at hl
    obtain ⟨hx, hxs⟩ := hl
    have hlater : ∀ y ∈ xs, s + 1 ≤ f y := by
      intro y hy
      have hmem : f y ∈ List.range' (s + 1) xs.length := hxs ▸ List.mem_map_of_mem hy
      exact (List.mem_range'_1.mp hmem).1
    by_cases hstart : a = s
    · subst hstart
      -- the slice starts here: the rest is the slice from the next position
      have hrest : xs.filter (fun x => decide (a ≤ f x ∧ f x ≤ b)) =
          xs.filter (fun x => decide (a + 1 ≤ f x ∧ f x ≤ b)) := by
        refine List.filter_congr fun y hy => ?_
        have := hlater y hy
        simp only [decide_eq_decide]
        omega
      rw [Nat.sub_self, List.drop_zero, List.filter_cons, hrest, ih (le_refl _) hxs,
        Nat.sub_self, List.drop_zero, hx]
      by_cases hb : a ≤ b
      · rw [if_pos (by simpa using hb), show b + 1 - a = (b + 1 - (a + 1)) + 1 by omega,
          List.take_succ_cons]
      · rw [if_neg (by simpa using hb), show b + 1 - (a + 1) = 0 by omega,
          show b + 1 - a = 0 by omega, List.take_zero, List.take_zero]
    · rw [List.filter_cons, if_neg (by simp; omega), ih (by omega) hxs,
        show a - s = (a - (s + 1)) + 1 by omega, List.drop_succ_cons]

/-- The entries at the positions from `start` to `stop`. -/
theorem filter_sequenceNo (h : LedgerState keys db entries head) (start stop : LedgerSequenceNo) :
    entries.filter (fun e => decide (start.val ≤ e.sequenceNo.val ∧
      e.sequenceNo.val ≤ stop.val)) =
      (entries.drop (start.val - 1)).take (stop.val + 1 - start.val) :=
  filter_position_eq start.pos h.map_sequenceNo

/-- **Exporting a range of a chain**: the exported rows of its entries, in order, up to the cap. -/
theorem exportLedgerVerificationMaterials_eq (h : LedgerState keys db entries head)
    (pg : Postgres) {start stop : LedgerSequenceNo} (hle : start.val ≤ stop.val) :
    exportLedgerVerificationMaterials pg db start stop =
      .ok ((((entries.drop (start.val - 1)).take (stop.val + 1 - start.val)).take
        postgrestMaxRows).map (exportedRow pg db)) := by
  have hinput : ¬ ((start.val : ℤ) ≤ 0 ∨ (stop.val : ℤ) ≤ 0 ∨ (start.val : ℤ) > stop.val) := by
    have := start.pos
    omega
  -- the entries are numbered from 1 on, so the rows of the range are a segment
  have hfilter : db.entries.filter (fun row => decide ((start.val : ℤ) ≤ row.sequenceNo ∧
      row.sequenceNo ≤ (stop.val : ℤ))) =
      ((entries.drop (start.val - 1)).take (stop.val + 1 - start.val)).map .ofSigned := by
    rw [← h.filter_sequenceNo, h.rows, List.filter_map]
    refine congrArg _ (List.filter_congr fun e _ => ?_)
    simp [LedgerEntryRow.ofSigned]
  have hexport : Sql.rpcExportLedgerVerificationMaterials db start.val stop.val =
      .ok (((entries.drop (start.val - 1)).take (stop.val + 1 - start.val)).map fun e =>
        (.ofSigned e, Sql.registeredKey db e.signatureKeyVersion.val)) := by
    rw [Sql.rpcExportLedgerVerificationMaterials, if_neg hinput,
      h.orderBySequenceNo_eq List.filter_sublist, hfilter, List.map_map]
    rfl
  simp only [exportLedgerVerificationMaterials, hexport, Result.mapError_ok, Result.ok_bind]
  rw [← List.map_take, List.map_map, Result.traverse_eq_ok, List.forall₂_map_left_iff,
    List.forall₂_map_right_iff, List.forall₂_same]
  intro e he
  have hmem : e ∈ entries := List.mem_of_mem_drop (List.mem_of_mem_take (List.mem_of_mem_take he))
  exact LedgerVerificationMaterialRow.tryFrom_ofRow (h.keyVersion_le e hmem) _ _

/-- A stored row comes from one entry. -/
theorem mem_of_ofSigned_mem (h : LedgerState keys db entries head)
    (hfits : e.signatureKeyVersion.val ≤ 2147483647) (hmem : .ofSigned e ∈ db.entries) :
    e ∈ entries := by
  rw [h.rows] at hmem
  obtain ⟨x, hx, hrow⟩ := List.mem_map.mp hmem
  -- the response for the row restores to `x` and to `e`
  have hpayload : (Json.object x.payload.object) = .object e.payload.object :=
    congrArg LedgerEntryRow.payload hrow
  have hx' := restored_ofSigned (h.keyVersion_le x hx) .rfl none
  have he' := restored_ofSigned hfits .rfl none
  rw [hrow, hpayload] at hx'
  exact hx'.unique he' ▸ hx

end LedgerState

end

end Mipsorcu
