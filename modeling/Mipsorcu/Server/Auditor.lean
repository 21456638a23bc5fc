import Mipsorcu.Server.LedgerAppender
import Mipsorcu.Server.LedgerVerification

/-!
# The auditor's range verification

`mipsorcu auditor verify` asks for the entries of a range of positions, restores them and runs the
verifier over them, from genesis, with the keys that came along, one for each key version. The end
of the range is sent to the database and not looked at again.

`runVerifyCommand_exact_iff` compares the report with what an auditor asks for, `ExactRange`: the
rows are the whole range, linked, with their own hashes and signatures. The two agree on every
input but the four kinds of `Misjudged`.
-/

namespace Mipsorcu

/-! ### Collecting the keys -/

section

variable (P : Primitives)

/-- Adds a key unless there is one of its version. -/
def pushKey {P : Primitives} (keys : List (LedgerVerifyingKey P)) (key : LedgerVerifyingKey P) :
    List (LedgerVerifyingKey P) :=
  if keys.any fun existing => existing.keyVersion = key.keyVersion then keys else keys ++ [key]

/-- The loop that restores the keys of the rows and keeps the first of each version. -/
def collectKeys : List LedgerVerificationMaterialRow → List (LedgerVerifyingKey P) →
    Except LedgerError (List (LedgerVerifyingKey P))
  | [], keys => .ok keys
  | row :: rows, keys => do
    let key ← row.tryRestoreVerifyingKey P
    collectKeys rows (match key with
      | some key => pushKey keys key
      | none => keys)

end

/-! ### The command -/

/-- The first error of a report. -/
structure AuditorVerifyFirstError where
  code : String
  sequenceNo : ℕ
  deriving DecidableEq

/-- The report. -/
structure AuditorVerifyOutput where
  valid : Bool
  checkedCount : ℕ
  firstSequenceNo : ℕ
  lastSequenceNo : ℕ
  firstError : Option AuditorVerifyFirstError
  deriving DecidableEq

/-- The errors of the command; the source keeps the printed form of the underlying error. -/
inductive AuditorCliError where
  | usage (argument : String) (error : LedgerError)
  | supabaseRpc (error : SupabaseRpcError)
  | exportFailure (error : LedgerError)
  deriving DecidableEq

/-- `map_ledger_error_to_code_and_sequence` of the audit report: the code of an error of the
verifier, with its position or a fallback. -/
def mapLedgerErrorToCodeAndSequence (error : LedgerError) (fallbackSequenceNo : Option ℕ) :
    AuditorVerifyFirstError :=
  match error with
  | .sequenceGap _ actual => ⟨"sequence_gap", actual⟩
  | .previousHashMismatch sequenceNo => ⟨"previous_hash_mismatch", sequenceNo⟩
  | .hashMismatch sequenceNo => ⟨"entry_hash_mismatch", sequenceNo⟩
  | .signatureInvalid sequenceNo => ⟨"signature_invalid", sequenceNo⟩
  | .unknownSignatureKey _ sequenceNo => ⟨"unknown_signature_key", sequenceNo⟩
  | _ => ⟨"invalid_exported_material", fallbackSequenceNo.getD 0⟩

/-- The same for an error without an entry. -/
def mapErrorToCodeAndSequence (error : LedgerError) : AuditorVerifyFirstError :=
  mapLedgerErrorToCodeAndSequence error none

/-- The report on restored entries. -/
def auditorVerifyOutput {P : Primitives} (fromSequence toSequence : ℕ)
    (entries : List SignedLedgerEntry) (verificationKeys : List (LedgerVerifyingKey P)) :
    AuditorVerifyOutput :=
  match entries.head?, entries.getLast? with
  | some first, some last =>
    match verifyLedgerChain entries .genesis verificationKeys with
    | .ok _ => ⟨true, entries.length, first.sequenceNo.val, last.sequenceNo.val, none⟩
    | .error error => ⟨false, entries.length, first.sequenceNo.val, last.sequenceNo.val,
        some (mapErrorToCodeAndSequence error)⟩
  | _, _ => ⟨true, 0, fromSequence, toSequence, none⟩

/-- `run_verify_command`, with the answer of the export call. -/
def runVerifyCommand (P : Primitives)
    (exported : LedgerSequenceNo → LedgerSequenceNo →
      Except SupabaseRpcError (List LedgerVerificationMaterialRow))
    (fromSequence toSequence : ℕ) : Except AuditorCliError AuditorVerifyOutput := do
  let start ← (LedgerSequenceNo.new fromSequence).mapError (.usage "from-sequence")
  let stop ← (LedgerSequenceNo.new toSequence).mapError (.usage "to-sequence")
  let rows ← (exported start stop).mapError .supabaseRpc
  let entries ← (Result.traverse (·.tryRestoreSignedLedgerEntry) rows).mapError .exportFailure
  let verificationKeys ← (collectKeys P rows []).mapError .exportFailure
  pure (auditorVerifyOutput fromSequence toSequence entries verificationKeys)

/-- The command reports `valid = true` for the range when the export returns `rows`. -/
def AuditorReportsValid (P : Primitives) (start stop : LedgerSequenceNo)
    (rows : List LedgerVerificationMaterialRow) : Prop :=
  ∃ output, runVerifyCommand P (fun _ _ => .ok rows) start.val stop.val = .ok output ∧
    output.valid = true

/-! ### What the report means -/

variable {P : Primitives} {rows : List LedgerVerificationMaterialRow}
  {start stop : LedgerSequenceNo}

/-- The rows restore to entries, the keys of the rows can be collected, and the first key of each
version accepts the signatures of its entries. -/
def SharedKeysAccept (P : Primitives) (rows : List LedgerVerificationMaterialRow)
    (entries : List SignedLedgerEntry) : Prop :=
  ∃ keys, collectKeys P rows [] = .ok keys ∧ ∀ e ∈ entries, SignatureAccepted keys e

/-- The rows are some first part of a ledger: they restore to a chain from genesis, with
signatures the collected keys accept. -/
def VerifiesFromGenesis (P : Primitives) (rows : List LedgerVerificationMaterialRow) : Prop :=
  rows ≠ [] ∧ ∃ entries final,
    List.Forall₂ (fun row e => row.tryRestoreSignedLedgerEntry = .ok e) rows entries ∧
    Chained P .genesis entries final ∧ SharedKeysAccept P rows entries

theorem auditorVerifyOutput_valid {fromSequence toSequence : ℕ} {entries : List SignedLedgerEntry}
    {keys : List (LedgerVerifyingKey P)} :
    (auditorVerifyOutput fromSequence toSequence entries keys).valid = true ↔
      entries = [] ∨ ∃ final, verifyLedgerChain entries .genesis keys = .ok final := by
  cases entries with
  | nil => simp [auditorVerifyOutput]
  | cons e es =>
    simp only [auditorVerifyOutput, List.head?_cons, List.getLast?_cons]
    cases verifyLedgerChain (e :: es) .genesis keys <;> simp

/-- **The report**: valid for no rows at all, and for the rows of some first part of a ledger.
The range plays no part. -/
theorem auditorReportsValid_iff :
    AuditorReportsValid P start stop rows ↔ rows = [] ∨ VerifiesFromGenesis P rows := by
  simp only [AuditorReportsValid, runVerifyCommand, LedgerSequenceNo.new_val, Result.mapError_ok,
    Result.ok_bind, Result.bind_eq_ok, Result.mapError_eq_ok, Result.traverse_eq_ok,
    Result.pure_eq_ok]
  constructor
  · rintro ⟨_, ⟨entries, hentries, keys, hkeys, rfl⟩, hvalid⟩
    rcases auditorVerifyOutput_valid.mp hvalid with rfl | ⟨final, hfinal⟩
    · exact .inl (List.forall₂_nil_right_iff.mp hentries)
    · obtain ⟨hchain, hsigs⟩ := verifyLedgerChain_eq_ok.mp hfinal
      by_cases hrows : rows = []
      · exact .inl hrows
      · exact .inr ⟨hrows, entries, final, hentries, hchain, keys, hkeys, hsigs⟩
  · rintro (rfl | ⟨-, entries, final, hentries, hchain, keys, hkeys, hsigs⟩)
    · exact ⟨_, ⟨[], .nil, [], rfl, rfl⟩, auditorVerifyOutput_valid.mpr (.inl rfl)⟩
    · exact ⟨_, ⟨entries, hentries, keys, hkeys, rfl⟩, auditorVerifyOutput_valid.mpr
        (.inr ⟨final, verifyLedgerChain_eq_ok.mpr ⟨hchain, hsigs⟩⟩)⟩

/-! ### What an auditor asks for -/

/-- The rows are exactly the range: one row for each position from `start` to `stop`, in order,
linked by their hashes (from the genesis hash, if the range starts at 1), each with its own hash
and with a signature that verifies under the key of its row. -/
def ExactRange (P : Primitives) (start stop : LedgerSequenceNo)
    (rows : List LedgerVerificationMaterialRow) : Prop :=
  ∃ restored, List.Forall₂ (RestoresWithKey P) rows restored ∧
    restored.map (fun r => r.1.sequenceNo.val) =
      List.range' start.val (stop.val + 1 - start.val) ∧
    (∃ first last, (start.val = 1 → first = LedgerHash.genesis) ∧
      HashChain.Linked (fun e : SignedLedgerEntry => e.previousEntryHash) (·.entryHash) first
        (restored.map Prod.fst) last) ∧
    (∀ r ∈ restored, r.1.recomputeEntryHash P = r.1.entryHash) ∧
    ∀ r ∈ restored, r.1.verifySignature r.2 = .ok ()

/-- The kinds of input on which the report and the question part. -/
inductive Misjudged (P : Primitives) (start stop : LedgerSequenceNo)
    (rows : List LedgerVerificationMaterialRow) : Prop
  /-- Nothing was exported: reported valid. -/
  | nothing (h : rows = [])
  /-- The whole of a range that does not start at 1: reported invalid. -/
  | laterRange (hstart : start.val ≠ 1) (h : ExactRange P start stop rows)
  /-- Some first part of a ledger that is not the range asked for: reported valid. -/
  | otherRange (h : VerifiesFromGenesis P rows) (hrange : start.val ≠ 1 ∨ rows.length ≠ stop.val)
  /-- The whole range from 1, where the keys of the rows themselves and the first key of each
  version do not both accept the signatures. -/
  | otherKeys (hstart : start.val = 1) (entries : List SignedLedgerEntry) (final : LedgerChainHead)
    (hentries : List.Forall₂ (fun row e => row.tryRestoreSignedLedgerEntry = .ok e) rows entries)
    (hchain : Chained P .genesis entries final) (hstop : rows.length = stop.val)
    (h : ¬ ((∀ row ∈ rows, SignatureRowAccepted P row) ↔ SharedKeysAccept P rows entries))

theorem ExactRange.ne_nil (hle : start.val ≤ stop.val) (h : ExactRange P start stop rows) :
    rows ≠ [] := by
  rintro rfl
  obtain ⟨restored, hrestored, hseq, -⟩ := h
  obtain rfl := List.forall₂_nil_left_iff.mp hrestored
  have hlength := congrArg List.length hseq
  rw [List.length_map, List.length_range', List.length_nil] at hlength
  omega

/-- A range from 1 is exact if it has the right length, is a chain from genesis, and the rows'
own keys accept the signatures. -/
theorem exactRange_iff_of_start (hstart : start.val = 1) :
    ExactRange P start stop rows ↔ rows.length = stop.val ∧
      (∃ entries final,
        List.Forall₂ (fun row e => row.tryRestoreSignedLedgerEntry = .ok e) rows entries ∧
        Chained P .genesis entries final) ∧ ∀ row ∈ rows, SignatureRowAccepted P row := by
  constructor
  · rintro ⟨restored, hrestored, hseq, ⟨first, last, hfirst, hlinked⟩, hhash, hsigs⟩
    -- a range that starts at 1 has as many rows as its last position
    have hlength : restored.length = stop.val := by
      have h := congrArg List.length hseq
      rw [List.length_map, List.length_range', hstart] at h
      omega
    refine ⟨hrestored.length_eq.trans hlength, ⟨restored.map Prod.fst,
      ⟨stop.val, last, stop.le_max⟩,
      List.forall₂_map_right_iff.mpr (hrestored.imp fun _ _ h => h.1),
      Chained.of_linked ?_ ?_ ?_ ?_⟩, signatureRowAccepted_of_restored hrestored hsigs⟩
    · rw [List.map_map, List.length_map, hlength]
      rw [hstart, Nat.add_sub_cancel] at hseq
      exact hseq
    · rw [hfirst hstart] at hlinked
      exact hlinked
    · intro e he
      obtain ⟨r, hr, rfl⟩ := List.mem_map.mp he
      exact hhash r hr
    · rw [List.length_map, hlength]
      exact (Nat.zero_add _).symm
  · rintro ⟨hlength, ⟨entries, final, hentries, hchain⟩, hrows⟩
    obtain ⟨restored, hrestored, rfl, hsigs⟩ := exists_restoresWithKey hentries hrows
    refine ⟨restored, hrestored, ?_, ⟨LedgerHash.genesis, final.lastEntryHash, fun _ => rfl,
      hchain.linked⟩, fun r hr => hchain.entryHash (List.mem_map_of_mem hr), hsigs⟩
    have hseq := hchain.sequenceNos.1
    rw [List.map_map, List.length_map, ← hrestored.length_eq, hlength] at hseq
    rw [hstart, Nat.add_sub_cancel]
    exact hseq

/-- A list of rows restores to one list of entries. -/
theorem restored_unique {es es' : List SignedLedgerEntry}
    (h : List.Forall₂ (fun row e => row.tryRestoreSignedLedgerEntry = .ok e) rows es)
    (h' : List.Forall₂ (fun row e => row.tryRestoreSignedLedgerEntry = .ok e) rows es') :
    es = es' :=
  List.right_unique_forall₂' (fun _ _ _ ha hb => Except.ok.inj (ha.symm.trans hb)) h h'

/-- Rows that are both a range and a first part of a ledger are the range from 1. -/
theorem ExactRange.start_eq (hle : start.val ≤ stop.val) (h : ExactRange P start stop rows)
    (hv : VerifiesFromGenesis P rows) : start.val = 1 ∧ rows.length = stop.val := by
  obtain ⟨restored, hrestored, hseq, -⟩ := h
  obtain ⟨-, entries, final, hentries, hchain, -⟩ := hv
  have hfst : List.Forall₂ (fun row e => row.tryRestoreSignedLedgerEntry = .ok e) rows
      (restored.map Prod.fst) :=
    List.forall₂_map_right_iff.mpr (hrestored.imp fun _ _ h => h.1)
  obtain rfl := restored_unique hentries hfst
  -- both say where the positions start and how many there are
  have hpositions := hchain.sequenceNos.1
  rw [List.map_map, List.length_map] at hpositions
  have hranges : List.range' 1 restored.length =
      List.range' start.val (stop.val + 1 - start.val) := hpositions.symm.trans hseq
  have hlength : restored.length = stop.val + 1 - start.val := by
    simpa using congrArg List.length hranges
  have hfirst : (1 : ℕ) = start.val := by
    rw [hlength, show stop.val + 1 - start.val = (stop.val - start.val) + 1 by omega,
      List.range'_succ, List.range'_succ] at hranges
    exact (List.cons.inj hranges).1
  have hrows := hrestored.length_eq
  omega

/-- **Where the auditor's report is exact.** On every range and every list of rows, the command
reports `valid = true` if and only if the rows are exactly the range, unless the input is of one
of the four kinds of `Misjudged`; on those it never does. -/
theorem runVerifyCommand_exact_iff (P : Primitives) (start stop : LedgerSequenceNo)
    (hle : start.val ≤ stop.val) (rows : List LedgerVerificationMaterialRow) :
    (AuditorReportsValid P start stop rows ↔ ExactRange P start stop rows) ↔
      ¬ Misjudged P start stop rows := by
  rw [auditorReportsValid_iff]
  constructor
  -- every case of `Misjudged` separates the report from the range
  · intro hiff hmis
    cases hmis with
    | nothing h => exact (hiff.mp (.inl h)).ne_nil hle h
    | laterRange hstart h =>
      rcases hiff.mpr h with hnil | hv
      · exact h.ne_nil hle hnil
      · exact hstart (h.start_eq hle hv).1
    | otherRange h hrange =>
      obtain ⟨hstart, hlength⟩ := (hiff.mp (.inr h)).start_eq hle h
      exact hrange.elim (· hstart) (· hlength)
    | otherKeys hstart entries final hentries hchain hstop h =>
      refine h ⟨fun hown => ?_, fun hshared => ?_⟩
      · have hexact : ExactRange P start stop rows :=
          (exactRange_iff_of_start hstart).mpr ⟨hstop, ⟨entries, final, hentries, hchain⟩, hown⟩
        rcases hiff.mpr hexact with hnil | ⟨-, entries', -, hentries', -, hshared⟩
        · exact absurd hnil (hexact.ne_nil hle)
        · rwa [restored_unique hentries hentries']
      · have hne : rows ≠ [] := by
          rintro rfl
          have hpos := stop.pos
          rw [← hstop] at hpos
          exact absurd hpos (by simp)
        have hexact := hiff.mp (.inr ⟨hne, entries, final, hentries, hchain, hshared⟩)
        exact ((exactRange_iff_of_start hstart).mp hexact).2.2
  -- without one of the cases, the two conditions are compared part by part
  · intro hnot
    constructor
    · rintro (hnil | hv)
      · exact absurd (.nothing hnil) hnot
      · have hrange : start.val = 1 ∧ rows.length = stop.val := by
          by_contra hother
          exact hnot (.otherRange hv (not_and_or.mp hother))
        obtain ⟨hne, entries, final, hentries, hchain, hshared⟩ := hv
        by_contra hinexact
        refine hnot (.otherKeys hrange.1 entries final hentries hchain hrange.2 fun hkeys => ?_)
        exact hinexact ((exactRange_iff_of_start hrange.1).mpr
          ⟨hrange.2, ⟨entries, final, hentries, hchain⟩, hkeys.mpr hshared⟩)
    · intro hexact
      have hstart : start.val = 1 := by
        by_contra hlater
        exact hnot (.laterRange hlater hexact)
      obtain ⟨hlength, ⟨entries, final, hentries, hchain⟩, hown⟩ :=
        (exactRange_iff_of_start hstart).mp hexact
      by_contra hinvalid
      refine hnot (.otherKeys hstart entries final hentries hchain hlength fun hkeys => ?_)
      exact hinvalid (.inr ⟨hexact.ne_nil hle, entries, final, hentries, hchain,
        hkeys.mp hown⟩)

/-! ### Concrete values -/

/-- The registry row of `sampleKey`. -/
def sampleKeyRow : LedgerSigningPublicKeyRow :=
  ⟨1, samplePublicKey.bytes, "ed25519", "active", 76552225445000000, some 76552225445000000, none⟩

theorem registers_sampleKeyRow {table : List (List UInt8 × LedgerHash × LedgerSignature)} :
    LedgerVerificationMaterialRow.Registers sampleKeyRow
      (sampleKey.verificationKey (.ofTable samplePublicKey table)) :=
  ⟨rfl, rfl, rfl, .inr (.inl rfl)⟩

/-- The exported row of an entry signed by `sampleKey`. -/
def sampleRow (e : SignedLedgerEntry) : LedgerVerificationMaterialRow :=
  .ofSigned e e.payload.asValue (some sampleKeyRow)

theorem restoresWithKey_sampleRow {e : SignedLedgerEntry}
    {table : List (List UInt8 × LedgerHash × LedgerSignature)}
    (hversion : sampleKey.keyVersion = e.signatureKeyVersion) :
    RestoresWithKey (.ofTable samplePublicKey table) (sampleRow e)
      (e, sampleKey.verificationKey (.ofTable samplePublicKey table)) := by
  have hfits : e.signatureKeyVersion.val ≤ 2147483647 := by
    rw [← hversion]
    decide
  exact ⟨LedgerVerificationMaterialRow.restore_ofSigned e .rfl _,
    LedgerVerificationMaterialRow.restoreKey_ofSigned registers_sampleKeyRow hversion hfits _⟩

/-- The exported rows of the two sample entries. -/
def sampleRows : List LedgerVerificationMaterialRow :=
  [sampleEntry 1, sampleNext].map sampleRow

theorem collectKeys_sampleRows : collectKeys samplePrimitives sampleRows [] =
    .ok [sampleKey.verificationKey samplePrimitives] := by
  have hfirst : RestoresWithKey samplePrimitives (sampleRow (sampleEntry 1)) _ :=
    restoresWithKey_sampleRow rfl
  have hsecond : RestoresWithKey samplePrimitives (sampleRow sampleNext) _ :=
    restoresWithKey_sampleRow rfl
  simp only [sampleRows, List.map_cons, List.map_nil, collectKeys, hfirst.2, hsecond.2]
  rfl

/-- An instance: the range of the two sample entries, which is reported as what it is. -/
theorem runVerifyCommand_exact_sample :
    ExactRange samplePrimitives (sampleEntry 1).sequenceNo sampleNext.sequenceNo sampleRows ∧
      AuditorReportsValid samplePrimitives (sampleEntry 1).sequenceNo sampleNext.sequenceNo
        sampleRows ∧
      ¬ Misjudged samplePrimitives (sampleEntry 1).sequenceNo sampleNext.sequenceNo
        sampleRows := by
  have hrestored : List.Forall₂ (RestoresWithKey samplePrimitives) sampleRows
      ([sampleEntry 1, sampleNext].map fun e => (e, sampleKey.verificationKey samplePrimitives)) :=
    .cons (restoresWithKey_sampleRow rfl) (.cons (restoresWithKey_sampleRow rfl) .nil)
  have hentries : List.Forall₂ (fun row e => row.tryRestoreSignedLedgerEntry = .ok e) sampleRows
      [sampleEntry 1, sampleNext] := by
    have hfst := hrestored.imp fun _ _ h => h.1
    rwa [List.forall₂_map_right_iff] at hfst
  obtain ⟨hchain, hsigs⟩ := verifyLedgerChain_eq_ok.mp verifyLedgerChain_sampleNext
  have hexact : ExactRange samplePrimitives (sampleEntry 1).sequenceNo sampleNext.sequenceNo
      sampleRows :=
    (exactRange_iff_of_start rfl).mpr ⟨rfl, ⟨_, _, hentries, hchain⟩,
      signatureRowAccepted_of_restored hrestored (by
        simpa using fun e he => signatureAccepted_singleton.mp (hsigs e he))⟩
  have hvalid : AuditorReportsValid samplePrimitives (sampleEntry 1).sequenceNo
      sampleNext.sequenceNo sampleRows :=
    auditorReportsValid_iff.mpr (.inr ⟨by simp [sampleRows], _, _, hentries, hchain, _,
      collectKeys_sampleRows, hsigs⟩)
  exact ⟨hexact, hvalid, (runVerifyCommand_exact_iff samplePrimitives _ _ (by decide) _).mp
    (iff_of_true hvalid hexact)⟩

/-- The second entry of a ledger is the whole of the range from 2 to 2, and the command reports
it as invalid: it starts the verifier at genesis, whatever the range. -/
theorem auditor_rejects_laterRange :
    ExactRange samplePrimitives sampleNext.sequenceNo sampleNext.sequenceNo
        [sampleRow sampleNext] ∧
      runVerifyCommand samplePrimitives (fun _ _ => .ok [sampleRow sampleNext]) 2 2 =
        .ok ⟨false, 1, 2, 2, some ⟨"sequence_gap", 2⟩⟩ := by
  obtain ⟨hrestore, hkey⟩ : RestoresWithKey samplePrimitives (sampleRow sampleNext)
      (sampleNext, sampleKey.verificationKey samplePrimitives) := restoresWithKey_sampleRow rfl
  constructor
  · refine ⟨[(sampleNext, sampleKey.verificationKey samplePrimitives)], .cons ⟨hrestore, hkey⟩ .nil,
      rfl, ⟨sampleHash, sampleNext.entryHash, fun h => absurd h (by decide), rfl, rfl⟩, ?_, ?_⟩
    · simpa using signedBy_sampleNext.entryHash
    · simpa using signatureAccepted_singleton.mp (signedBy_sampleNext.signatureAccepted
        (LedgerSigningKey.find?_verificationKey _))
  · have hstart : LedgerSequenceNo.new 2 = .ok sampleNext.sequenceNo := rfl
    have hentries : Result.traverse (·.tryRestoreSignedLedgerEntry) [sampleRow sampleNext] =
        .ok [sampleNext] :=
      Result.traverse_eq_ok.mpr (.cons hrestore .nil)
    have hkeys : collectKeys samplePrimitives [sampleRow sampleNext] [] =
        .ok [sampleKey.verificationKey samplePrimitives] := by
      rw [collectKeys, hkey]
      rfl
    simp only [runVerifyCommand, hstart, hentries, hkeys, Result.mapError_ok, Result.ok_bind]
    rfl

end Mipsorcu
