import Mipsorcu.Foundation.HashChain
import Mipsorcu.Ledger.Entry

/-!
# The ledger chain and its verifier

`verifyLedgerChain` walks a list of signed entries from a chain head: positions count up by one,
each entry names the hash of the one before, its own hash recomputes and its signature verifies
under the first key of its version. `verifyLedgerChain_cons` and `verifyLedgerChain_append` are
the equations the rest of the development uses; `Extends` is what one accepted entry satisfies.
-/

namespace Mipsorcu

/-- The head of the chain: the last position and the last hash. -/
structure LedgerChainHead where
  lastSequenceNo : ℕ
  lastEntryHash : LedgerHash
  le_max : lastSequenceNo ≤ ledgerI64Max

namespace LedgerChainHead

@[ext]
theorem ext {a b : LedgerChainHead} (hs : a.lastSequenceNo = b.lastSequenceNo)
    (hh : a.lastEntryHash = b.lastEntryHash) : a = b := by
  cases a; cases b; simp_all

instance : DecidableEq LedgerChainHead := fun a b =>
  decidable_of_iff (a.lastSequenceNo = b.lastSequenceNo ∧ a.lastEntryHash = b.lastEntryHash)
    LedgerChainHead.ext_iff.symm

/-- The head of the empty ledger. -/
def genesis : LedgerChainHead :=
  ⟨0, LedgerHash.genesis, Nat.zero_le _⟩

/-- `LedgerChainHead::new`. -/
def new (lastSequenceNo : ℕ) (lastEntryHash : LedgerHash) : Except LedgerError LedgerChainHead :=
  if h : lastSequenceNo ≤ ledgerI64Max then .ok ⟨lastSequenceNo, lastEntryHash, h⟩
  else .error (.invalidNonNegativeInteger "last_sequence_no")

/-- The head as the database stores it. -/
def fromI64 (lastSequenceNo : ℤ) (lastEntryHash : LedgerHash) :
    Except LedgerError LedgerChainHead :=
  if 0 ≤ lastSequenceNo then new lastSequenceNo.toNat lastEntryHash
  else .error (.invalidNonNegativeInteger "last_sequence_no")

/-- The position of the next entry, by a checked addition. -/
def nextSequenceNo (head : LedgerChainHead) : Except LedgerError LedgerSequenceNo :=
  if head.lastSequenceNo + 1 > u64Max then .error .sequenceOverflow
  else LedgerSequenceNo.new (head.lastSequenceNo + 1)

/-- The head after an entry. -/
def after (e : SignedLedgerEntry) : LedgerChainHead :=
  ⟨e.sequenceNo.val, e.entryHash, e.sequenceNo.le_max⟩

@[simp]
theorem new_eq (head : LedgerChainHead) :
    new head.lastSequenceNo head.lastEntryHash = .ok head := by
  simp [new, head.le_max]

@[simp]
theorem fromI64_eq (head : LedgerChainHead) :
    fromI64 head.lastSequenceNo head.lastEntryHash = .ok head := by
  simp [fromI64]

private theorem lastSequenceNo_lt_u64Max (head : LedgerChainHead) :
    head.lastSequenceNo + 1 ≤ u64Max := by
  have h := head.le_max
  simp only [ledgerI64Max] at h
  simp only [u64Max]
  omega

theorem nextSequenceNo_eq_ok {head : LedgerChainHead} {s : LedgerSequenceNo} :
    head.nextSequenceNo = .ok s ↔ s.val = head.lastSequenceNo + 1 := by
  have h := head.lastSequenceNo_lt_u64Max
  rw [nextSequenceNo, if_neg (by omega), LedgerSequenceNo.new_eq_ok]

end LedgerChainHead

section Verification

variable (P : Primitives)

/-- The first key of the version counts. -/
def findVerificationKeyWithSeq {P : Primitives} (keys : List (LedgerVerifyingKey P))
    (keyVersion : LedgerSignatureKeyVersion) (sequenceNo : ℕ) :
    Except LedgerError (LedgerVerifyingKey P) :=
  Result.ofOption (.unknownSignatureKey keyVersion.val sequenceNo)
    (keys.find? fun key => key.keyVersion = keyVersion)

/-- One round of the loop of `verify_ledger_chain`: the checks of an entry after a position and
a hash. -/
def verifyEntry {P : Primitives} (keys : List (LedgerVerifyingKey P)) (previousSequenceNo : ℕ)
    (previousHash : LedgerHash) (entry : SignedLedgerEntry) :
    Except LedgerError (ℕ × LedgerHash) := do
  Result.require (decide (previousSequenceNo + 1 ≤ u64Max)) .sequenceOverflow
  let actual := entry.sequenceNo.val
  Result.require (decide (actual = previousSequenceNo + 1))
    (.sequenceGap (previousSequenceNo + 1) actual)
  Result.require (decide (entry.previousEntryHash = previousHash)) (.previousHashMismatch actual)
  Result.require (decide (entry.recomputeEntryHash P = entry.entryHash)) (.hashMismatch actual)
  let key ← findVerificationKeyWithSeq keys entry.signatureKeyVersion actual
  (entry.verifySignature key).mapError fun _ => .signatureInvalid actual
  pure (actual, entry.entryHash)

/-- The loop of `verify_ledger_chain`. -/
def verifyEntries {P : Primitives} (keys : List (LedgerVerifyingKey P)) :
    List SignedLedgerEntry → ℕ → LedgerHash → Except LedgerError (ℕ × LedgerHash)
  | [], previousSequenceNo, previousHash => .ok (previousSequenceNo, previousHash)
  | entry :: rest, previousSequenceNo, previousHash => do
    let (sequenceNo, hash) ← verifyEntry keys previousSequenceNo previousHash entry
    verifyEntries keys rest sequenceNo hash

/-- `verify_ledger_chain`. -/
def verifyLedgerChain {P : Primitives} (entries : List SignedLedgerEntry)
    (initialHead : LedgerChainHead) (verificationKeys : List (LedgerVerifyingKey P)) :
    Except LedgerError LedgerChainHead := do
  let (sequenceNo, hash) ← verifyEntries verificationKeys entries initialHead.lastSequenceNo
    initialHead.lastEntryHash
  LedgerChainHead.new sequenceNo hash

variable {P}

/-- `entry` follows `head`: it stands at the next position, names the head's hash, and its own
hash recomputes. -/
structure Extends (P : Primitives) (head : LedgerChainHead) (entry : SignedLedgerEntry) : Prop where
  sequenceNo : entry.sequenceNo.val = head.lastSequenceNo + 1
  previousEntryHash : entry.previousEntryHash = head.lastEntryHash
  entryHash : entry.recomputeEntryHash P = entry.entryHash

/-- The signature of `entry` verifies under the first key of its version. -/
def SignatureAccepted (keys : List (LedgerVerifyingKey P)) (entry : SignedLedgerEntry) : Prop :=
  ∃ key, keys.find? (fun key => key.keyVersion = entry.signatureKeyVersion) = some key ∧
    P.verify key.publicKey entry.canonicalPayload entry.signature = true

variable {keys : List (LedgerVerifyingKey P)} {head final : LedgerChainHead}

theorem verifyEntry_eq_ok {entry : SignedLedgerEntry} {r : ℕ × LedgerHash} :
    verifyEntry keys head.lastSequenceNo head.lastEntryHash entry = .ok r ↔
      (Extends P head entry ∧ SignatureAccepted keys entry) ∧
        r = (entry.sequenceNo.val, entry.entryHash) := by
  have hmax := head.lastSequenceNo_lt_u64Max
  simp only [verifyEntry, findVerificationKeyWithSeq, SignedLedgerEntry.verifySignature,
    Result.bind_eq_ok, Result.require_eq_ok, decide_eq_true_eq, Result.ofOption_eq_ok,
    Result.mapError_eq_ok, LedgerVerifyingKey.verifyPayload_eq_ok, Result.pure_eq_ok]
  constructor
  · rintro ⟨_, _, _, hseq, _, hprev, _, hhash, key, hkey, _, ⟨_, hsig⟩, rfl⟩
    exact ⟨⟨⟨hseq, hprev, hhash⟩, key, hkey, hsig⟩, rfl⟩
  · rintro ⟨⟨⟨hseq, hprev, hhash⟩, key, hkey, hsig⟩, rfl⟩
    have hversion : key.keyVersion = entry.signatureKeyVersion := by
      simpa using List.find?_some hkey
    exact ⟨(), hmax, (), hseq, (), hprev, (), hhash, key, hkey, (), ⟨hversion, hsig⟩, rfl⟩

/-! ### Equations of the verifier -/

@[simp]
theorem verifyLedgerChain_nil (head : LedgerChainHead) (keys : List (LedgerVerifyingKey P)) :
    verifyLedgerChain [] head keys = .ok head := by
  simp [verifyLedgerChain, verifyEntries, bind, Except.bind]

/-- Accepting a non-empty list is accepting its first entry and the rest from the head after
it. -/
theorem verifyLedgerChain_cons {entry : SignedLedgerEntry} {rest : List SignedLedgerEntry} :
    verifyLedgerChain (entry :: rest) head keys = .ok final ↔
      Extends P head entry ∧ SignatureAccepted keys entry ∧
        verifyLedgerChain rest (.after entry) keys = .ok final := by
  simp only [verifyLedgerChain, verifyEntries, Result.bind_eq_ok, verifyEntry_eq_ok]
  constructor
  · rintro ⟨r, ⟨_, ⟨⟨hext, hsig⟩, rfl⟩, hrest⟩, hfinal⟩
    exact ⟨hext, hsig, r, hrest, hfinal⟩
  · rintro ⟨hext, hsig, r, hrest, hfinal⟩
    exact ⟨r, ⟨_, ⟨⟨hext, hsig⟩, rfl⟩, hrest⟩, hfinal⟩

/-! ### The two passes of the verifier -/

/-- `entries` extend `head` one after the other, up to `final`; signatures aside. -/
def Chained (P : Primitives) : LedgerChainHead → List SignedLedgerEntry → LedgerChainHead → Prop
  | head, [], final => head = final
  | head, e :: es, final => Extends P head e ∧ Chained P (.after e) es final

/-- The verifier accepts a list if its entries extend the head and every signature is
accepted. -/
theorem verifyLedgerChain_eq_ok {entries : List SignedLedgerEntry} :
    verifyLedgerChain entries head keys = .ok final ↔
      Chained P head entries final ∧ ∀ e ∈ entries, SignatureAccepted keys e := by
  induction entries generalizing head with
  | nil => simp [Chained]
  | cons e es ih =>
    rw [verifyLedgerChain_cons, ih, Chained, List.forall_mem_cons]
    tauto

namespace Chained

variable {head final : LedgerChainHead} {entries : List SignedLedgerEntry}

/-- A list is a chain in parts. -/
theorem append {xs ys : List SignedLedgerEntry} :
    Chained P head (xs ++ ys) final ↔ ∃ mid, Chained P head xs mid ∧ Chained P mid ys final := by
  induction xs generalizing head with
  | nil => simp [Chained]
  | cons x xs ih => simp [Chained, ih, and_assoc]

/-- The positions count up from the head, and the final head is at the last of them. -/
theorem sequenceNos (h : Chained P head entries final) :
    entries.map (fun e => e.sequenceNo.val) = List.range' (head.lastSequenceNo + 1) entries.length ∧
      final.lastSequenceNo = head.lastSequenceNo + entries.length := by
  induction entries generalizing head with
  | nil => cases h; simp
  | cons e es ih =>
    obtain ⟨hext, hrest⟩ := h
    obtain ⟨hmap, hfinal⟩ := ih hrest
    have hseq : (LedgerChainHead.after e).lastSequenceNo = head.lastSequenceNo + 1 :=
      hext.sequenceNo
    rw [hseq] at hmap hfinal
    refine ⟨?_, by rw [hfinal, List.length_cons]; omega⟩
    rw [List.map_cons, hmap, hext.sequenceNo, List.length_cons, List.range'_succ]

/-- The final head is the one after the last entry, or the first head if there is none. -/
theorem final_eq (h : Chained P head entries final) :
    final = (entries.getLast?.map LedgerChainHead.after).getD head := by
  induction entries generalizing head with
  | nil => cases h; rfl
  | cons e es ih =>
    rw [ih h.2]
    cases es with
    | nil => rfl
    | cons e' es => rw [List.getLast?_cons_cons]; simp [List.getLast?_cons]

/-- Every entry carries its own hash. -/
theorem entryHash (h : Chained P head entries final) {e : SignedLedgerEntry} (he : e ∈ entries) :
    e.recomputeEntryHash P = e.entryHash := by
  induction entries generalizing head with
  | nil => simp at he
  | cons x es ih =>
    rcases List.mem_cons.mp he with rfl | he
    · exact h.1.entryHash
    · exact ih h.2 he

/-- The entries are a hash chain from the head's hash to the final head's hash. -/
theorem linked (h : Chained P head entries final) :
    HashChain.Linked (fun e : SignedLedgerEntry => e.previousEntryHash) (·.entryHash)
      head.lastEntryHash entries final.lastEntryHash := by
  induction entries generalizing head with
  | nil => cases h; rfl
  | cons e es ih => exact ⟨h.1.previousEntryHash, ih h.2⟩

/-- A list is a chain if its positions count up from the head, it is linked from the head's hash
to the final one, and every entry carries its own hash. -/
theorem of_linked (hseq : entries.map (fun e => e.sequenceNo.val) =
      List.range' (head.lastSequenceNo + 1) entries.length)
    (hlinked : HashChain.Linked (fun e : SignedLedgerEntry => e.previousEntryHash) (·.entryHash)
      head.lastEntryHash entries final.lastEntryHash)
    (hhash : ∀ e ∈ entries, e.recomputeEntryHash P = e.entryHash)
    (hfinal : final.lastSequenceNo = head.lastSequenceNo + entries.length) :
    Chained P head entries final := by
  induction entries generalizing head with
  | nil => exact LedgerChainHead.ext hfinal.symm hlinked
  | cons e es ih =>
    rw [List.map_cons, List.length_cons, List.range'_succ, List.cons.injEq] at hseq
    rw [List.length_cons] at hfinal
    obtain ⟨hhead, hrest⟩ := List.forall_mem_cons.mp hhash
    have hafter : (LedgerChainHead.after e).lastSequenceNo = head.lastSequenceNo + 1 := hseq.1
    refine ⟨⟨hseq.1, hlinked.1, hhead⟩, ih ?_ hlinked.2 hrest ?_⟩
    · rw [hafter, hseq.2]
    · rw [hafter, hfinal]; omega

end Chained

/-- The verifier composes: a list is accepted in parts. -/
theorem verifyLedgerChain_append {xs ys : List SignedLedgerEntry} :
    verifyLedgerChain (xs ++ ys) head keys = .ok final ↔
      ∃ mid, verifyLedgerChain xs head keys = .ok mid ∧
        verifyLedgerChain ys mid keys = .ok final := by
  simp only [verifyLedgerChain_eq_ok, Chained.append, List.forall_mem_append]
  constructor
  · rintro ⟨⟨mid, hxs, hys⟩, hsx, hsy⟩; exact ⟨mid, ⟨hxs, hsx⟩, hys, hsy⟩
  · rintro ⟨mid, ⟨hxs, hsx⟩, hys, hsy⟩; exact ⟨⟨mid, hxs, hys⟩, hsx, hsy⟩

theorem chained_of_verifyLedgerChain {entries : List SignedLedgerEntry}
    (h : verifyLedgerChain entries head keys = .ok final) : Chained P head entries final :=
  (verifyLedgerChain_eq_ok.mp h).1

/-! ### Entries a key has signed -/

/-- `e` is an entry `key` has signed: its hash and signature are those of its canonical form. -/
structure SignedBy (P : Primitives) (key : LedgerSigningKey) (e : SignedLedgerEntry) : Prop where
  keyVersion : e.signatureKeyVersion = key.keyVersion
  entryHash : e.recomputeEntryHash P = e.entryHash
  signature : e.signature = P.sign key.secretKey e.canonicalPayload

/-- The signer's entry is accepted wherever its key version stands for the signer's key. -/
theorem SignedBy.signatureAccepted {key : LedgerSigningKey} {e : SignedLedgerEntry}
    (h : SignedBy P key e) (hkeys : keys.find? (fun k => k.keyVersion = key.keyVersion) =
      some (key.verificationKey P)) : SignatureAccepted keys e := by
  refine ⟨key.verificationKey P, by rw [h.keyVersion]; exact hkeys, ?_⟩
  rw [h.signature]
  exact P.verify_sign _ _

theorem LedgerSigningKey.find?_verificationKey (key : LedgerSigningKey) :
    [key.verificationKey P].find? (fun k => k.keyVersion = key.keyVersion) =
      some (key.verificationKey P) :=
  List.find?_cons_of_pos (decide_eq_true rfl)

end Verification

end Mipsorcu
