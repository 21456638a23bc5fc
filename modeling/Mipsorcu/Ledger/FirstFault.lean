import Mathlib.Order.WellFounded
import Mipsorcu.Ledger.Chain

/-!
# The first fault of a chain

What `verify_ledger_chain` promises its callers, in terms of positions instead of the loop. Each
position has five checks (`ChainCheck.Holds`); a chain is accepted if every check holds at every
position, and otherwise the error is that of the first check that fails at the first position where
one fails. Since the verifier is a fold, lists may be verified in segments.
-/

namespace Mipsorcu

variable {P : Primitives}

/-! ### The checks of a position -/

/-- The checks of an entry, in the order they are made. -/
inductive ChainCheck where
  | sequenceNo
  | previousHash
  | entryHash
  | keyLookup
  | signature
  deriving DecidableEq

namespace ChainCheck

/-- The place of a check among the checks of an entry. -/
def rank : ChainCheck → ℕ
  | sequenceNo => 0
  | previousHash => 1
  | entryHash => 2
  | keyLookup => 3
  | signature => 4

/-- The check holds for an entry that should stand at position `expected`, after the entry with the
hash `previous`. -/
def Holds (keys : List (LedgerVerifyingKey P)) (expected : ℕ) (previous : LedgerHash)
    (e : SignedLedgerEntry) : ChainCheck → Prop
  | sequenceNo => e.sequenceNo.val = expected
  | previousHash => e.previousEntryHash = previous
  | entryHash => e.recomputeEntryHash P = e.entryHash
  | keyLookup => ∃ key ∈ keys, key.keyVersion = e.signatureKeyVersion
  | signature => ∀ key, keys.find? (fun key => key.keyVersion = e.signatureKeyVersion) = some key →
      P.verify key.publicKey e.canonicalPayload e.signature = true

/-- What the verifier says of an entry that should stand at position `expected`. -/
def error (expected : ℕ) (e : SignedLedgerEntry) : ChainCheck → LedgerError
  | sequenceNo => .sequenceGap expected e.sequenceNo.val
  | previousHash => .previousHashMismatch expected
  | entryHash => .hashMismatch expected
  | keyLookup => .unknownSignatureKey e.signatureKeyVersion.val expected
  | signature => .signatureInvalid expected

/-- The check fails, and every check before it holds. -/
structure FailsFirst (keys : List (LedgerVerifyingKey P)) (expected : ℕ) (previous : LedgerHash)
    (e : SignedLedgerEntry) (check : ChainCheck) : Prop where
  fails : ¬check.Holds keys expected previous e
  before : ∀ earlier : ChainCheck, earlier.rank < check.rank →
    earlier.Holds keys expected previous e

variable {keys : List (LedgerVerifyingKey P)} {expected : ℕ} {previous : LedgerHash}
  {e : SignedLedgerEntry}

/-- The last two checks look for one key. -/
theorem holds_keyLookup_signature : keyLookup.Holds keys expected previous e ∧
    signature.Holds keys expected previous e ↔ SignatureAccepted keys e := by
  constructor
  · rintro ⟨⟨key, hmem, hversion⟩, hvalid⟩
    cases hfind : keys.find? (fun key => key.keyVersion = e.signatureKeyVersion) with
    | none => exact absurd (decide_eq_true hversion) (List.find?_eq_none.mp hfind key hmem)
    | some found => exact ⟨found, hfind, hvalid found hfind⟩
  · rintro ⟨key, hfind, hverify⟩
    have hversion : key.keyVersion = e.signatureKeyVersion := by simpa using List.find?_some hfind
    refine ⟨⟨key, List.mem_of_find?_eq_some hfind, hversion⟩, fun found hfound => ?_⟩
    rw [hfind] at hfound
    exact Option.some.inj hfound ▸ hverify

/-- Where a check fails, one fails first. -/
theorem exists_failsFirst (h : ∃ check : ChainCheck, ¬check.Holds keys expected previous e) :
    ∃ check : ChainCheck, check.FailsFirst keys expected previous e := by
  obtain ⟨check, hfails, hmin⟩ := (measure rank).wf.has_min
    {check | ¬check.Holds keys expected previous e} h
  refine ⟨check, hfails, fun earlier hlt => ?_⟩
  by_contra hearlier
  exact hmin earlier hearlier hlt

end ChainCheck

/-! ### One round of the loop -/

section Round

variable {keys : List (LedgerVerifyingKey P)} {head : LedgerChainHead} {e : SignedLedgerEntry}

/-- An entry passes the round if all its checks hold. -/
theorem verifyEntry_eq_ok_iff_holds {r : ℕ × LedgerHash} :
    verifyEntry keys head.lastSequenceNo head.lastEntryHash e = .ok r ↔
      (∀ check : ChainCheck, check.Holds keys (head.lastSequenceNo + 1) head.lastEntryHash e) ∧
        r = (e.sequenceNo.val, e.entryHash) := by
  rw [verifyEntry_eq_ok, ← ChainCheck.holds_keyLookup_signature]
  refine and_congr_left fun _ => ⟨?_, fun h => ?_⟩
  · rintro ⟨⟨hseq, hprev, hhash⟩, hkey, hsig⟩ (_ | _ | _ | _ | _)
    · exact hseq
    · exact hprev
    · exact hhash
    · exact hkey
    · exact hsig
  · exact ⟨⟨h .sequenceNo, h .previousHash, h .entryHash⟩, h .keyLookup, h .signature⟩

theorem verifyEntry_of_failsFirst {check : ChainCheck}
    (h : check.FailsFirst keys (head.lastSequenceNo + 1) head.lastEntryHash e) :
    verifyEntry keys head.lastSequenceNo head.lastEntryHash e =
      .error (check.error (head.lastSequenceNo + 1) e) := by
  have hmax : head.lastSequenceNo + 1 ≤ u64Max :=
    (Nat.succ_le_succ head.le_max).trans (by decide)
  have hseq : check ≠ .sequenceNo → e.sequenceNo.val = head.lastSequenceNo + 1 := fun hne =>
    h.before .sequenceNo (by cases check <;> first | exact absurd rfl hne | decide)
  obtain ⟨hfails, hbefore⟩ := h
  unfold verifyEntry
  -- the checks before the failing one hold, and the bind stops at it
  cases check with
  | sequenceNo =>
    have hno : ¬e.sequenceNo.val = head.lastSequenceNo + 1 := hfails
    simp [hmax, hno, Result.require, ChainCheck.error]
  | previousHash =>
    have hprev : ¬e.previousEntryHash = head.lastEntryHash := hfails
    simp [hmax, hseq, hprev, Result.require, ChainCheck.error]
  | entryHash =>
    have hprev : e.previousEntryHash = head.lastEntryHash := hbefore .previousHash (by decide)
    have hhash : ¬e.recomputeEntryHash P = e.entryHash := hfails
    simp [hmax, hseq, hprev, hhash, Result.require, ChainCheck.error]
  | keyLookup =>
    have hprev : e.previousEntryHash = head.lastEntryHash := hbefore .previousHash (by decide)
    have hhash : e.recomputeEntryHash P = e.entryHash := hbefore .entryHash (by decide)
    have hnone : keys.find? (fun key => key.keyVersion = e.signatureKeyVersion) = none :=
      List.find?_eq_none.mpr fun key hkey hversion =>
        hfails ⟨key, hkey, of_decide_eq_true hversion⟩
    simp [hmax, hseq, hprev, hhash, hnone, findVerificationKeyWithSeq, Result.ofOption,
      Result.require, ChainCheck.error]
  | signature =>
    have hprev : e.previousEntryHash = head.lastEntryHash := hbefore .previousHash (by decide)
    have hhash : e.recomputeEntryHash P = e.entryHash := hbefore .entryHash (by decide)
    simp only [ChainCheck.Holds, not_forall] at hfails
    obtain ⟨key, hfind, hinvalid⟩ := hfails
    have hversion : key.keyVersion = e.signatureKeyVersion := by simpa using List.find?_some hfind
    simp [hmax, hseq, hprev, hhash, hfind, hversion, hinvalid, findVerificationKeyWithSeq,
      SignedLedgerEntry.verifySignature, LedgerVerifyingKey.verifyPayload, Result.require,
      ChainCheck.error, Except.mapError]

/-- The error of a round is that of the first check that fails. -/
theorem verifyEntry_eq_error {error : LedgerError} :
    verifyEntry keys head.lastSequenceNo head.lastEntryHash e = .error error ↔
      ∃ check : ChainCheck,
        check.FailsFirst keys (head.lastSequenceNo + 1) head.lastEntryHash e ∧
          error = check.error (head.lastSequenceNo + 1) e := by
  constructor
  · intro herror
    by_cases hall : ∀ check : ChainCheck,
        check.Holds keys (head.lastSequenceNo + 1) head.lastEntryHash e
    · rw [verifyEntry_eq_ok_iff_holds.mpr ⟨hall, rfl⟩] at herror
      cases herror
    · obtain ⟨check, hfirst⟩ := ChainCheck.exists_failsFirst (not_forall.mp hall)
      rw [verifyEntry_of_failsFirst hfirst] at herror
      exact ⟨check, hfirst, (Except.error.inj herror).symm⟩
  · rintro ⟨check, hfirst, rfl⟩
    exact verifyEntry_of_failsFirst hfirst

end Round

/-! ### Positions of a list -/

/-- The hash that the entry at position `i` has to name: that of the entry before it, or the
head's. -/
def previousHashAt (head : LedgerChainHead) (entries : List SignedLedgerEntry) (i : ℕ) :
    LedgerHash :=
  ((entries.take i).getLast?.map (·.entryHash)).getD head.lastEntryHash

/-- All checks hold for an entry at position `i` of a list. -/
def PassesAt (keys : List (LedgerVerifyingKey P)) (head : LedgerChainHead)
    (entries : List SignedLedgerEntry) (i : ℕ) (e : SignedLedgerEntry) : Prop :=
  ∀ check : ChainCheck, check.Holds keys (head.lastSequenceNo + i + 1)
    (previousHashAt head entries i) e

section Positions

variable {keys : List (LedgerVerifyingKey P)} {head : LedgerChainHead} {e e' : SignedLedgerEntry}
  {entries : List SignedLedgerEntry}

theorem previousHashAt_succ (i : ℕ) :
    previousHashAt head (e :: entries) (i + 1) = previousHashAt (.after e) entries i := by
  rw [previousHashAt, List.take_succ_cons, List.getLast?_cons, previousHashAt]
  cases (entries.take i).getLast? <;> rfl

/-- The number expected at the next position, seen from the head after the first entry. -/
theorem expected_succ (hseq : e.sequenceNo.val = head.lastSequenceNo + 1) (i : ℕ) :
    head.lastSequenceNo + (i + 1) + 1 = (LedgerChainHead.after e).lastSequenceNo + i + 1 := by
  change _ = e.sequenceNo.val + i + 1
  omega

theorem passesAt_succ (hfirst : PassesAt keys head (e :: entries) 0 e) (i : ℕ) :
    PassesAt keys head (e :: entries) (i + 1) e' ↔ PassesAt keys (.after e) entries i e' := by
  rw [PassesAt, previousHashAt_succ, expected_succ (hfirst .sequenceNo), PassesAt]

/-- The verifier takes the first entry, and goes on from the head after it. -/
theorem verifyLedgerChain_cons_eq : verifyLedgerChain (e :: entries) head keys = (do
    let _ ← verifyEntry keys head.lastSequenceNo head.lastEntryHash e
    verifyLedgerChain entries (.after e) keys) := by
  unfold verifyLedgerChain
  rw [verifyEntries]
  cases hentry : verifyEntry keys head.lastSequenceNo head.lastEntryHash e with
  | error error => rfl
  | ok r =>
    obtain ⟨-, rfl⟩ := verifyEntry_eq_ok.mp hentry
    rfl

theorem verifyLedgerChain_append_eq (xs ys : List SignedLedgerEntry) (head : LedgerChainHead) :
    verifyLedgerChain (xs ++ ys) head keys = (do
      let mid ← verifyLedgerChain xs head keys
      verifyLedgerChain ys mid keys) := by
  induction xs generalizing head with
  | nil => rw [verifyLedgerChain_nil, Result.ok_bind, List.nil_append]
  | cons x xs ih =>
    rw [List.cons_append, verifyLedgerChain_cons_eq, verifyLedgerChain_cons_eq, bind_assoc]
    simp only [ih]

theorem verifyLedgerChain_eq_ok_iff_passesAt {final : LedgerChainHead} :
    verifyLedgerChain entries head keys = .ok final ↔
      (∀ i e, entries[i]? = some e → PassesAt keys head entries i e) ∧
        final = (entries.getLast?.map LedgerChainHead.after).getD head := by
  induction entries generalizing head with
  | nil => simp [eq_comm]
  | cons x xs ih =>
    have hlast : ((x :: xs).getLast?.map LedgerChainHead.after).getD head =
        (xs.getLast?.map LedgerChainHead.after).getD (.after x) := by
      rw [List.getLast?_cons]
      cases xs.getLast? <;> rfl
    simp only [verifyLedgerChain_cons_eq, Result.bind_eq_ok, verifyEntry_eq_ok_iff_holds, ih, hlast]
    constructor
    · rintro ⟨_, ⟨hfirst, -⟩, hrest, hfinal⟩
      refine ⟨fun i e hi => ?_, hfinal⟩
      cases i with
      | zero =>
        obtain rfl := Option.some.inj hi
        exact hfirst
      | succ i => exact (passesAt_succ hfirst i).mpr (hrest i e hi)
    · rintro ⟨hall, hfinal⟩
      have hfirst : PassesAt keys head (x :: xs) 0 x := hall 0 x rfl
      exact ⟨_, ⟨hfirst, rfl⟩, fun i e hi => (passesAt_succ hfirst i).mp (hall (i + 1) e hi),
        hfinal⟩

theorem verifyLedgerChain_eq_error {error : LedgerError} :
    verifyLedgerChain entries head keys = .error error ↔
      ∃ i e, entries[i]? = some e ∧
        (∀ j < i, ∀ e', entries[j]? = some e' → PassesAt keys head entries j e') ∧
        ∃ check : ChainCheck, check.FailsFirst keys (head.lastSequenceNo + i + 1)
          (previousHashAt head entries i) e ∧
          error = check.error (head.lastSequenceNo + i + 1) e := by
  -- the position is counted from the head, which moves by one entry
  induction entries generalizing head with
  | nil => simp
  | cons x xs ih =>
    rw [verifyLedgerChain_cons_eq, Result.bind_eq_error, verifyEntry_eq_error]
    simp only [verifyEntry_eq_ok_iff_holds, ih]
    constructor
    · rintro (⟨check, hfirst, rfl⟩ | ⟨_, ⟨hfirst, -⟩, i, e, hi, hbefore, check, hcheck, rfl⟩)
      · exact ⟨0, x, rfl, fun j hj => absurd hj (Nat.not_lt_zero j), check, hfirst, rfl⟩
      · refine ⟨i + 1, e, hi, fun j hj e' hj' => ?_, check, ?_, ?_⟩
        · cases j with
          | zero =>
            obtain rfl := Option.some.inj hj'
            exact hfirst
          | succ j =>
            exact (passesAt_succ hfirst j).mpr (hbefore j (Nat.lt_of_succ_lt_succ hj) e' hj')
        · rw [previousHashAt_succ, expected_succ (hfirst .sequenceNo)]
          exact hcheck
        · rw [expected_succ (hfirst .sequenceNo)]
    · rintro ⟨i, e, hi, hbefore, check, hcheck, rfl⟩
      cases i with
      | zero =>
        obtain rfl := Option.some.inj hi
        exact .inl ⟨check, hcheck, rfl⟩
      | succ i =>
        have hfirst : PassesAt keys head (x :: xs) 0 x := hbefore 0 (Nat.succ_pos i) x rfl
        rw [previousHashAt_succ, expected_succ (hfirst .sequenceNo)] at hcheck
        refine .inr ⟨_, ⟨hfirst, rfl⟩, i, e, hi, fun j hj e' hj' => ?_, check, hcheck, ?_⟩
        · exact (passesAt_succ hfirst j).mp (hbefore (j + 1) (Nat.succ_lt_succ hj) e' hj')
        · rw [expected_succ (hfirst .sequenceNo)]

end Positions

/-- **The verifier is exact and reports the first fault.** For all lists, heads and keys: a list may
be verified in segments, with the same result and the same error; it is accepted if and only if
every check holds at every position, and then the head is the one after its last entry; otherwise
the error is that of the first check that fails at the first position at which one does. -/
theorem verifyLedgerChain_reports_first_fault (P : Primitives) (keys : List (LedgerVerifyingKey P))
    (head : LedgerChainHead) (xs ys : List SignedLedgerEntry) :
    (verifyLedgerChain (xs ++ ys) head keys = do
      let mid ← verifyLedgerChain xs head keys
      verifyLedgerChain ys mid keys) ∧
    (∀ final, verifyLedgerChain xs head keys = .ok final ↔
      (∀ i e, xs[i]? = some e → PassesAt keys head xs i e) ∧
        final = (xs.getLast?.map LedgerChainHead.after).getD head) ∧
    ∀ error, verifyLedgerChain xs head keys = .error error ↔
      ∃ i e, xs[i]? = some e ∧
        (∀ j < i, ∀ e', xs[j]? = some e' → PassesAt keys head xs j e') ∧
        ∃ check : ChainCheck, check.FailsFirst keys (head.lastSequenceNo + i + 1)
          (previousHashAt head xs i) e ∧ error = check.error (head.lastSequenceNo + i + 1) e :=
  ⟨verifyLedgerChain_append_eq xs ys head, fun _ => verifyLedgerChain_eq_ok_iff_passesAt,
    fun _ => verifyLedgerChain_eq_error⟩

end Mipsorcu
