import Mipsorcu.Server.LedgerExport

/-!
# The scheduler's verification of the ledger

The scheduler verifies the ledger in two jobs. The hash pass restores every exported row and
walks the chain from genesis to the stored chain head; the signature pass checks every entry
under the key exported with its own row. A row that cannot be restored is an error of the job; a
row that is wrong makes the job report `valid = false`.

`splitVerification_iff` is the equivalence with the verifier of the library: both jobs report
`valid = true` exactly if no payload has a forbidden key, every row restores to an entry and a
key, and the chain verifies up to the stored head, each entry under its own key.
-/

namespace Mipsorcu

/-! ### Forbidden keys -/

mutual

/-- Some key at some depth of the value is forbidden. -/
def ledgerPayloadContainsForbiddenKey : Json → Bool
  | .object members => membersContainForbiddenKey members
  | .array items => itemsContainForbiddenKey items
  | _ => false

/-- The members of an object. -/
def membersContainForbiddenKey : List (String × Json) → Bool
  | [] => false
  | m :: ms => memberContainsForbiddenKey m || membersContainForbiddenKey ms

/-- One member: its key or its value. -/
def memberContainsForbiddenKey : String × Json → Bool
  | (key, nested) => isForbiddenPayloadKey key || ledgerPayloadContainsForbiddenKey nested

/-- The items of an array. -/
def itemsContainForbiddenKey : List Json → Bool
  | [] => false
  | v :: vs => ledgerPayloadContainsForbiddenKey v || itemsContainForbiddenKey vs

end

mutual

/-- **The scan asks of every key at any depth** whether it is forbidden. -/
theorem ledgerPayloadContainsForbiddenKey_eq : ∀ value : Json,
    ledgerPayloadContainsForbiddenKey value = value.keys.any isForbiddenPayloadKey
  | .null => rfl
  | .bool _ => rfl
  | .number _ => rfl
  | .string _ => rfl
  | .array items => by
    rw [ledgerPayloadContainsForbiddenKey, Json.keys]
    exact itemsContainForbiddenKey_eq items
  | .object members => by
    rw [ledgerPayloadContainsForbiddenKey, Json.keys]
    exact membersContainForbiddenKey_keys members

theorem membersContainForbiddenKey_keys : ∀ members : List (String × Json),
    membersContainForbiddenKey members = (Json.keysMembers members).any isForbiddenPayloadKey
  | [] => rfl
  | m :: members => by
    rw [membersContainForbiddenKey, Json.keysMembers, List.any_append,
      membersContainForbiddenKey_keys members, memberContainsForbiddenKey_eq m]

theorem memberContainsForbiddenKey_eq : ∀ m : String × Json,
    memberContainsForbiddenKey m = (Json.keysMember m).any isForbiddenPayloadKey
  | (key, value) => by
    rw [memberContainsForbiddenKey, Json.keysMember, List.any_cons,
      ledgerPayloadContainsForbiddenKey_eq value]

theorem itemsContainForbiddenKey_eq : ∀ items : List Json,
    itemsContainForbiddenKey items = (Json.keysItems items).any isForbiddenPayloadKey
  | [] => rfl
  | v :: items => by
    rw [itemsContainForbiddenKey, Json.keysItems, List.any_append,
      itemsContainForbiddenKey_eq items, ledgerPayloadContainsForbiddenKey_eq v]

end

theorem membersContainForbiddenKey_eq {members : List (String × Json)} :
    membersContainForbiddenKey members = members.any memberContainsForbiddenKey := by
  induction members with
  | nil => rfl
  | cons m ms ih => rw [membersContainForbiddenKey, List.any_cons, ih]

private theorem rejectForbiddenMembers_eq_ok {members : List (String × Json)} {u : Unit}
    (h : rejectForbiddenMembers members = .ok u) :
    ∀ m ∈ members, rejectForbiddenMember m = .ok () := by
  induction members with
  | nil => simp
  | cons m ms ih =>
    rw [rejectForbiddenMembers, Result.bind_eq_ok] at h
    obtain ⟨_, hm, hms⟩ := h
    exact List.forall_mem_cons.mpr ⟨hm, ih hms⟩

/-- A payload has no forbidden key, however its members are ordered. -/
theorem LedgerPayload.containsForbiddenKey_of_perm (p : LedgerPayload)
    {members : List (String × Json)} (h : members.Perm p.object) :
    ledgerPayloadContainsForbiddenKey (.object members) = false := by
  have hvalid := p.valid
  simp only [checkPayload, Result.bind_eq_ok, rejectForbiddenPayloadKeys] at hvalid
  obtain ⟨_, hkeys, -⟩ := hvalid
  rw [ledgerPayloadContainsForbiddenKey, membersContainForbiddenKey_eq, List.any_eq_false]
  rintro ⟨key, value⟩ hm
  have hmem : (key, value) ∈ p.object := h.mem_iff.mp hm
  have hkey := rejectForbiddenMembers_eq_ok hkeys _ hmem
  -- the values are scalar, so only the key itself can be forbidden
  have hscalar := (p.valid_member hmem).2
  rw [rejectForbiddenMember] at hkey
  split at hkey
  · cases hkey
  · rename_i hallowed
    cases value <;>
      simp_all [memberContainsForbiddenKey, ledgerPayloadContainsForbiddenKey, Json.isContainer]

/-! ### The two passes -/

/-- What a job reports. -/
structure LedgerVerificationSummary where
  valid : Bool
  checkedCount : ℕ
  errorCode : Option String
  deriving DecidableEq

/-- An anomaly a pass has found: the count it reports and its code. -/
structure LedgerAnomaly where
  checkedCount : ℕ
  errorCode : String

/-- The report of an anomaly. -/
def LedgerAnomaly.summary (a : LedgerAnomaly) : LedgerVerificationSummary :=
  ⟨false, a.checkedCount, some a.errorCode⟩

variable (P : Primitives)

/-- The first loop of `verify_hash_chain_rows`, after `count` rows. The inner error is the
anomaly of an early report. -/
def restoreHashChainRows : List LedgerVerificationMaterialRow → ℕ →
    Except String (Except LedgerAnomaly (List SignedLedgerEntry))
  | [], _ => .ok (.ok [])
  | row :: rows, count =>
    if ledgerPayloadContainsForbiddenKey row.payload then
      .ok (.error ⟨count, "ledger_payload_forbidden_key"⟩)
    else do
      let entry ← row.tryRestoreSignedLedgerEntry.mapError fun _ => "ledger_entry_restore_failed"
      let rest ← restoreHashChainRows rows (count + 1)
      pure (rest.map (entry :: ·))

/-- The second loop of `verify_hash_chain_rows`; `total` is the number of entries. -/
def walkHashChain (total : ℕ) : List SignedLedgerEntry → ℕ → LedgerHash →
    Except String (Except LedgerAnomaly (ℕ × LedgerHash))
  | [], previousSequenceNo, previousHash => .ok (.ok (previousSequenceNo, previousHash))
  | entry :: entries, previousSequenceNo, previousHash =>
    if previousSequenceNo + 1 > u64Max then .error "ledger_sequence_overflow"
    else if entry.sequenceNo.val ≠ previousSequenceNo + 1 then
      .ok (.error ⟨total, "ledger_sequence_gap"⟩)
    else if entry.previousEntryHash ≠ previousHash then
      .ok (.error ⟨total, "ledger_previous_hash_mismatch"⟩)
    else if entry.recomputeEntryHash P ≠ entry.entryHash then
      .ok (.error ⟨total, "ledger_entry_hash_mismatch"⟩)
    else walkHashChain total entries entry.sequenceNo.val entry.entryHash

/-- The walk from genesis has to end at the stored head. -/
def verifyHashChainRows (chainHead : LedgerChainHead) (rows : List LedgerVerificationMaterialRow) :
    Except String LedgerVerificationSummary := do
  match ← restoreHashChainRows rows 0 with
  | .error anomaly => pure anomaly.summary
  | .ok entries =>
    match ← walkHashChain P entries.length entries LedgerChainHead.genesis.lastSequenceNo
        LedgerChainHead.genesis.lastEntryHash with
    | .error anomaly => pure anomaly.summary
    | .ok (sequenceNo, hash) =>
      if sequenceNo ≠ chainHead.lastSequenceNo ∨ hash ≠ chainHead.lastEntryHash then
        pure (LedgerAnomaly.summary ⟨entries.length, "ledger_chain_head_mismatch"⟩)
      else pure ⟨true, entries.length, none⟩

/-- The loop of `verify_signature_rows`, after `count` rows of `total`. -/
def verifySignatureRowsFrom (total : ℕ) :
    List LedgerVerificationMaterialRow → ℕ → Except String LedgerVerificationSummary
  | [], count => .ok ⟨true, count, none⟩
  | row :: rows, count =>
    if ledgerPayloadContainsForbiddenKey row.payload then
      .ok (LedgerAnomaly.summary ⟨count, "ledger_payload_forbidden_key"⟩)
    else do
      let entry ← row.tryRestoreSignedLedgerEntry.mapError fun _ => "ledger_entry_restore_failed"
      let key ← (row.tryRestoreVerifyingKey P).mapError fun _ => "ledger_key_restore_failed"
      match key with
      | none => pure (LedgerAnomaly.summary ⟨total, "ledger_signature_key_missing"⟩)
      | some key =>
        match entry.verifySignature key with
        | .error _ => pure (LedgerAnomaly.summary ⟨total, "ledger_signature_invalid"⟩)
        | .ok () => verifySignatureRowsFrom total rows (count + 1)

/-- Each row by itself, with its own key. -/
def verifySignatureRows (rows : List LedgerVerificationMaterialRow) :
    Except String LedgerVerificationSummary :=
  verifySignatureRowsFrom P rows.length rows 0

variable {P}

/-! ### What a valid report of a pass means -/

/-- No payload has a forbidden key at any depth. -/
def NoForbiddenKeys (rows : List LedgerVerificationMaterialRow) : Prop :=
  ∀ row ∈ rows, ∀ key ∈ row.payload.keys, isForbiddenPayloadKey key = false

theorem noForbiddenKeys_iff {rows : List LedgerVerificationMaterialRow} : NoForbiddenKeys rows ↔
    ∀ row ∈ rows, ledgerPayloadContainsForbiddenKey row.payload = false := by
  simp only [NoForbiddenKeys, ledgerPayloadContainsForbiddenKey_eq, List.any_eq_false,
    Bool.not_eq_true]

theorem restoreHashChainRows_eq_ok {rows : List LedgerVerificationMaterialRow} {count : ℕ}
    {entries : List SignedLedgerEntry} :
    restoreHashChainRows rows count = .ok (.ok entries) ↔ NoForbiddenKeys rows ∧
      List.Forall₂ (fun row e => row.tryRestoreSignedLedgerEntry = .ok e) rows entries := by
  rw [noForbiddenKeys_iff]
  induction rows generalizing count entries with
  | nil => cases entries <;> simp [restoreHashChainRows]
  | cons row rows ih =>
    rw [restoreHashChainRows]
    split
    · rename_i hforbidden
      simp [hforbidden]
    · rename_i hforbidden
      simp only [Result.bind_eq_ok, Result.mapError_eq_ok, Result.pure_eq_ok]
      constructor
      · rintro ⟨e, he, rest, hrest, hmap⟩
        cases rest with
        | error summary => cases hmap
        | ok es =>
          cases hmap
          obtain ⟨hkeys, hes⟩ := ih.mp hrest
          exact ⟨List.forall_mem_cons.mpr ⟨by simpa using hforbidden, hkeys⟩, .cons he hes⟩
      · rintro ⟨hkeys, hentries⟩
        obtain ⟨e, es, he, hes, rfl⟩ := List.forall₂_cons_left_iff.mp hentries
        exact ⟨e, he, .ok es, ih.mpr ⟨(List.forall_mem_cons.mp hkeys).2, hes⟩, rfl⟩

/-- The walk reaches the end of the list exactly on a chain, and ends at its final head. -/
theorem walkHashChain_eq_ok {total : ℕ} {entries : List SignedLedgerEntry}
    {head : LedgerChainHead} {r : ℕ × LedgerHash} :
    walkHashChain P total entries head.lastSequenceNo head.lastEntryHash = .ok (.ok r) ↔
      ∃ final, Chained P head entries final ∧ r = (final.lastSequenceNo, final.lastEntryHash) := by
  induction entries generalizing head with
  | nil => simp [walkHashChain, Chained, eq_comm]
  | cons e es ih =>
    -- a stored position is below the limit of `u64`
    have hmax : ¬ head.lastSequenceNo + 1 > u64Max := by
      have h := head.le_max
      simp only [ledgerI64Max] at h
      simp only [u64Max]
      omega
    have hrest := @ih (.after e)
    simp only [walkHashChain, if_neg hmax, Chained]
    constructor
    · intro h
      split at h
      · cases h
      split at h
      · cases h
      split at h
      · cases h
      rename_i hseq hprev hhash
      obtain ⟨final, hfinal, hr⟩ := hrest.mp h
      exact ⟨final, ⟨⟨not_not.mp hseq, not_not.mp hprev, not_not.mp hhash⟩, hfinal⟩, hr⟩
    · rintro ⟨final, ⟨hext, hfinal⟩, hr⟩
      rw [if_neg (not_not.mpr hext.sequenceNo), if_neg (not_not.mpr hext.previousEntryHash),
        if_neg (not_not.mpr hext.entryHash)]
      exact hrest.mpr ⟨final, hfinal, hr⟩

/-- **The hash pass** reports `valid = true` exactly if no payload has a forbidden key and the
rows restore to a chain from genesis to the stored head. -/
theorem verifyHashChainRows_valid {chainHead : LedgerChainHead}
    {rows : List LedgerVerificationMaterialRow} {s : LedgerVerificationSummary} :
    verifyHashChainRows P chainHead rows = .ok s ∧ s.valid = true ↔ NoForbiddenKeys rows ∧
      s = ⟨true, rows.length, none⟩ ∧ ∃ entries,
        List.Forall₂ (fun row e => row.tryRestoreSignedLedgerEntry = .ok e) rows entries ∧
        Chained P .genesis entries chainHead := by
  simp only [verifyHashChainRows, Result.bind_eq_ok]
  constructor
  · rintro ⟨⟨restored, hrestored, h⟩, hvalid⟩
    cases restored with
    | error anomaly => cases h; cases hvalid
    | ok entries =>
      obtain ⟨hkeys, hentries⟩ := restoreHashChainRows_eq_ok.mp hrestored
      obtain ⟨walked, hwalked, h⟩ := Result.bind_eq_ok.mp h
      cases walked with
      | error anomaly => cases h; cases hvalid
      | ok r =>
        obtain ⟨final, hchain, rfl⟩ := walkHashChain_eq_ok.mp hwalked
        simp only at h
        split at h
        · cases h; cases hvalid
        -- the walk has to end at the stored head
        · rename_i hhead
          rw [not_or, not_not, not_not] at hhead
          cases h
          refine ⟨hkeys, by rw [hentries.length_eq], entries, hentries, ?_⟩
          rwa [← LedgerChainHead.ext hhead.1 hhead.2]
  · rintro ⟨hkeys, rfl, entries, hentries, hchain⟩
    have hwalk : walkHashChain P entries.length entries LedgerChainHead.genesis.lastSequenceNo
        LedgerChainHead.genesis.lastEntryHash =
        .ok (.ok (chainHead.lastSequenceNo, chainHead.lastEntryHash)) :=
      walkHashChain_eq_ok.mpr ⟨chainHead, hchain, rfl⟩
    refine ⟨⟨.ok entries, restoreHashChainRows_eq_ok.mpr ⟨hkeys, hentries⟩, ?_⟩, rfl⟩
    refine Result.bind_eq_ok.mpr ⟨_, hwalk, ?_⟩
    simp [hentries.length_eq]

/-- The row restores to an entry and a key, and the entry's signature verifies under the key. -/
def SignatureRowAccepted (P : Primitives) (row : LedgerVerificationMaterialRow) : Prop :=
  ∃ entry key, row.tryRestoreSignedLedgerEntry = .ok entry ∧
    row.tryRestoreVerifyingKey P = .ok (some key) ∧ entry.verifySignature key = .ok ()

theorem verifySignatureRowsFrom_valid {total count : ℕ}
    {rows : List LedgerVerificationMaterialRow} {s : LedgerVerificationSummary} :
    verifySignatureRowsFrom P total rows count = .ok s ∧ s.valid = true ↔ NoForbiddenKeys rows ∧
      (∀ row ∈ rows, SignatureRowAccepted P row) ∧ s = ⟨true, count + rows.length, none⟩ := by
  rw [noForbiddenKeys_iff]
  -- the count is that of the rows before, so the induction is over every count
  induction rows generalizing count with
  | nil =>
    simp only [verifySignatureRowsFrom, Except.ok.injEq]
    constructor
    · rintro ⟨rfl, -⟩; simp
    · rintro ⟨-, -, rfl⟩; simp
  | cons row rows ih =>
    rw [verifySignatureRowsFrom]
    split
    -- a forbidden key makes the report invalid; it is not an error
    · rename_i hforbidden
      constructor
      · rintro ⟨h, hvalid⟩; cases h; cases hvalid
      · rintro ⟨hkeys, -⟩
        rw [(List.forall_mem_cons.mp hkeys).1] at hforbidden
        cases hforbidden
    · rename_i hforbidden
      simp only [Result.bind_eq_ok, Result.mapError_eq_ok]
      constructor
      · rintro ⟨⟨e, he, key, hkey, h⟩, hvalid⟩
        split at h
        · cases h; cases hvalid
        · rename_i key
          split at h
          · cases h; cases hvalid
          · rename_i hsignature
            obtain ⟨hkeys, hrows, rfl⟩ := ih.mp ⟨h, hvalid⟩
            refine ⟨List.forall_mem_cons.mpr ⟨by simpa using hforbidden, hkeys⟩,
              List.forall_mem_cons.mpr ⟨⟨e, key, he, hkey, hsignature⟩, hrows⟩, ?_⟩
            rw [List.length_cons, Nat.add_assoc, Nat.add_comm 1]
      · rintro ⟨hkeys, hrows, rfl⟩
        obtain ⟨⟨e, key, he, hkey, hsignature⟩, hrows⟩ := List.forall_mem_cons.mp hrows
        have hrest := (@ih (count + 1)).mpr ⟨(List.forall_mem_cons.mp hkeys).2, hrows,
          by rw [List.length_cons, Nat.add_assoc, Nat.add_comm 1]⟩
        refine ⟨⟨e, he, some key, hkey, ?_⟩, rfl⟩
        simp only [hsignature]
        exact hrest.1

/-- **The signature pass** reports `valid = true` exactly if no payload has a forbidden key and
every entry's signature verifies under the key of its own row. Neither positions nor links
matter. -/
theorem verifySignatureRows_valid {rows : List LedgerVerificationMaterialRow}
    {s : LedgerVerificationSummary} :
    verifySignatureRows P rows = .ok s ∧ s.valid = true ↔ NoForbiddenKeys rows ∧
      (∀ row ∈ rows, SignatureRowAccepted P row) ∧ s = ⟨true, rows.length, none⟩ := by
  rw [verifySignatureRows, verifySignatureRowsFrom_valid, Nat.zero_add]

/-! ### Equivalence with the verifier -/

/-- `verify_ledger_chain` with each entry checked against a key of its own. -/
def verifyLedgerChainOwnKeys : List (SignedLedgerEntry × LedgerVerifyingKey P) →
    LedgerChainHead → Except LedgerError LedgerChainHead
  | [], head => .ok head
  | (entry, key) :: rest, head => do
    let head ← verifyLedgerChain [entry] head [key]
    verifyLedgerChainOwnKeys rest head

/-- The row restores to the entry and carries the key. -/
def RestoresWithKey (P : Primitives) (row : LedgerVerificationMaterialRow)
    (restored : SignedLedgerEntry × LedgerVerifyingKey P) : Prop :=
  row.tryRestoreSignedLedgerEntry = .ok restored.1 ∧
    row.tryRestoreVerifyingKey P = .ok (some restored.2)

theorem signatureAccepted_singleton {entry : SignedLedgerEntry} {key : LedgerVerifyingKey P} :
    SignatureAccepted [key] entry ↔ entry.verifySignature key = .ok () := by
  rw [SignedLedgerEntry.verifySignature, LedgerVerifyingKey.verifyPayload_eq_ok]
  constructor
  · rintro ⟨k, hfind, hsig⟩
    obtain rfl : k = key := by simpa using List.mem_of_find?_eq_some hfind
    exact ⟨by simpa using List.find?_some hfind, hsig⟩
  · rintro ⟨hversion, hsig⟩
    exact ⟨key, List.find?_cons_of_pos (decide_eq_true hversion), hsig⟩

theorem verifyLedgerChainOwnKeys_eq_ok
    {restored : List (SignedLedgerEntry × LedgerVerifyingKey P)} {head final : LedgerChainHead} :
    verifyLedgerChainOwnKeys restored head = .ok final ↔
      Chained P head (restored.map Prod.fst) final ∧
        ∀ r ∈ restored, r.1.verifySignature r.2 = .ok () := by
  induction restored generalizing head with
  | nil => simp [verifyLedgerChainOwnKeys, Chained]
  | cons r rest ih =>
    obtain ⟨entry, key⟩ := r
    simp only [verifyLedgerChainOwnKeys, Result.bind_eq_ok, verifyLedgerChain_eq_ok, Chained,
      List.map_cons, List.forall_mem_cons, signatureAccepted_singleton, ih]
    constructor
    · rintro ⟨_, ⟨⟨hext, rfl⟩, hsig, -⟩, hchain, hsigs⟩
      exact ⟨⟨hext, hchain⟩, hsig, hsigs⟩
    · rintro ⟨⟨hext, hchain⟩, hsig, hsigs⟩
      exact ⟨_, ⟨⟨hext, rfl⟩, hsig, by simp⟩, hchain, hsigs⟩

/-- Accepted rows are restored with their keys: the entries are those of the hash pass. -/
theorem exists_restoresWithKey {rows : List LedgerVerificationMaterialRow}
    {entries : List SignedLedgerEntry}
    (hentries : List.Forall₂ (fun row e => row.tryRestoreSignedLedgerEntry = .ok e) rows entries)
    (hrows : ∀ row ∈ rows, SignatureRowAccepted P row) :
    ∃ restored, List.Forall₂ (RestoresWithKey P) rows restored ∧
      restored.map Prod.fst = entries ∧ ∀ r ∈ restored, r.1.verifySignature r.2 = .ok () := by
  induction hentries with
  | nil => exact ⟨[], .nil, rfl, by simp⟩
  | @cons row e rows es he _ ih =>
    obtain ⟨⟨e', key, he', hkey, hsig⟩, hrows⟩ := List.forall_mem_cons.mp hrows
    obtain rfl : e' = e := Except.ok.inj (he'.symm.trans he)
    obtain ⟨restored, hrestored, rfl, hsigs⟩ := ih hrows
    exact ⟨(e', key) :: restored, .cons ⟨he, hkey⟩ hrestored, rfl,
      List.forall_mem_cons.mpr ⟨hsig, hsigs⟩⟩

theorem signatureRowAccepted_of_restored {rows : List LedgerVerificationMaterialRow}
    {restored : List (SignedLedgerEntry × LedgerVerifyingKey P)}
    (hrestored : List.Forall₂ (RestoresWithKey P) rows restored)
    (hsigs : ∀ r ∈ restored, r.1.verifySignature r.2 = .ok ()) :
    ∀ row ∈ rows, SignatureRowAccepted P row := by
  induction hrestored with
  | nil => simp
  | cons hrow _ ih =>
    obtain ⟨hsig, hsigs⟩ := List.forall_mem_cons.mp hsigs
    exact List.forall_mem_cons.mpr ⟨⟨_, _, hrow.1, hrow.2, hsig⟩, ih hsigs⟩

/-- **The split verification is the verifier.** For every chain head and every list of rows, both
passes report `valid = true` if and only if no payload has a forbidden key, every row restores to
an entry and carries its key, and the entries verify from genesis to the head, each under the key
of its own row. -/
theorem splitVerification_iff (P : Primitives) (chainHead : LedgerChainHead)
    (rows : List LedgerVerificationMaterialRow) :
    ((∃ s, verifyHashChainRows P chainHead rows = .ok s ∧ s.valid = true) ∧
        ∃ s, verifySignatureRows P rows = .ok s ∧ s.valid = true) ↔
      NoForbiddenKeys rows ∧ ∃ restored, List.Forall₂ (RestoresWithKey P) rows restored ∧
        verifyLedgerChainOwnKeys restored .genesis = .ok chainHead := by
  simp only [verifyHashChainRows_valid, verifySignatureRows_valid, verifyLedgerChainOwnKeys_eq_ok]
  constructor
  · rintro ⟨⟨_, hkeys, -, entries, hentries, hchain⟩, _, -, hrows, -⟩
    obtain ⟨restored, hrestored, rfl, hsigs⟩ := exists_restoresWithKey hentries hrows
    exact ⟨hkeys, restored, hrestored, hchain, hsigs⟩
  · rintro ⟨hkeys, restored, hrestored, hchain, hsigs⟩
    have hentries : List.Forall₂ (fun row e => row.tryRestoreSignedLedgerEntry = .ok e) rows
        (restored.map Prod.fst) :=
      List.forall₂_map_right_iff.mpr (hrestored.imp fun _ _ h => h.1)
    exact ⟨⟨_, hkeys, rfl, _, hentries, hchain⟩,
      _, hkeys, signatureRowAccepted_of_restored hrestored hsigs, rfl⟩

end Mipsorcu
