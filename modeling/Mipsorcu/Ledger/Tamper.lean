import Mipsorcu.Ledger.Chain

/-!
# Tamper evidence

Two lists of entries that the verifier accepts from one head to one head are the same list, as
far as the canonical document goes. The argument runs backwards along the chain: the final hash
fixes the last document, and a document names the hash before it.

The section on concrete values gives a cryptographic table with the real SHA-256 and Ed25519
values of one small entry; the instances of the general results use it.
-/

namespace Mipsorcu

/-- **Tamper evidence.** If SHA-256 has no collision among the canonical forms of the two lists,
two lists accepted from the same head to the same head have the same length and agree, position
by position, on every field of the canonical document and on the entry hash. The key lists may
differ. -/
theorem verifyLedgerChain_tamper_evident (P : Primitives) (head final : LedgerChainHead)
    (keys₁ keys₂ : List (LedgerVerifyingKey P)) (xs ys : List SignedLedgerEntry)
    (hcollision : ∀ x ∈ xs, ∀ y ∈ ys, P.sha256 x.canonicalPayload = P.sha256 y.canonicalPayload →
      x.canonicalPayload = y.canonicalPayload)
    (hx : verifyLedgerChain xs head keys₁ = .ok final)
    (hy : verifyLedgerChain ys head keys₂ = .ok final) :
    xs.length = ys.length ∧ List.Forall₂ (fun x y =>
      LedgerEntryParts.SameDocument x.toLedgerEntryParts y.toLedgerEntryParts ∧
        x.entryHash = y.entryHash) xs ys := by
  have hlength : xs.length = ys.length := by
    have h₁ := (chained_of_verifyLedgerChain hx).sequenceNos.2
    have h₂ := (chained_of_verifyLedgerChain hy).sequenceNos.2
    omega
  refine ⟨hlength, (chained_of_verifyLedgerChain hx).linked.forall₂_of_length_eq
    (chained_of_verifyLedgerChain hy).linked hlength
    (fun x hxmem y hymem hhash => ⟨?_, hhash⟩) fun x y h => h.1.previousEntryHash⟩
  -- equal entry hashes are equal hashes of the canonical forms, since both recompute
  have hxhash : P.sha256 x.canonicalPayload = x.entryHash :=
    (chained_of_verifyLedgerChain hx).entryHash hxmem
  have hyhash : P.sha256 y.canonicalPayload = y.entryHash :=
    (chained_of_verifyLedgerChain hy).entryHash hymem
  refine LedgerEntryParts.canonicalPayload_inj (hcollision x hxmem y hymem ?_)
  rw [hxhash, hyhash, hhash]

/-! ### Concrete values -/

/-- Primitives given by a table of messages, each with its hash and its signature under one key.
A signature verifies if it is the one in the table. -/
def Primitives.ofTable (publicKey : PublicKeyBytes)
    (table : List (List UInt8 × LedgerHash × LedgerSignature)) : Primitives where
  sha256 message := ((table.lookup message).map Prod.fst).getD LedgerHash.genesis
  publicKey _ := publicKey
  isPublicKey _ := true
  sign _ message := ((table.lookup message).map Prod.snd).getD (.zero _)
  verify _ message signature :=
    decide (signature = ((table.lookup message).map Prod.snd).getD (.zero _))
  isPublicKey_publicKey _ := rfl
  verify_sign _ _ := by simp

section

variable {publicKey : PublicKeyBytes} {table : List (List UInt8 × LedgerHash × LedgerSignature)}
  {message : List UInt8} {hash : LedgerHash} {signature : LedgerSignature}

theorem Primitives.sha256_ofTable (h : table.lookup message = some (hash, signature)) :
    (ofTable publicKey table).sha256 message = hash := by
  simp [ofTable, h]

theorem Primitives.sign_ofTable (h : table.lookup message = some (hash, signature))
    (key : SecretKeyBytes) : (ofTable publicKey table).sign key message = signature := by
  simp [ofTable, h]

theorem Primitives.verify_ofTable (h : table.lookup message = some (hash, signature))
    (key : PublicKeyBytes) (s : LedgerSignature) :
    (ofTable publicKey table).verify key message s = decide (s = signature) := by
  simp [ofTable, h]

end

/-- The row of an entry in such a table. -/
def SignedLedgerEntry.tableRow (e : SignedLedgerEntry) :
    List UInt8 × LedgerHash × LedgerSignature :=
  (e.canonicalPayload, e.entryHash, e.signature)

/-- Entries at different positions have different canonical forms, so each finds its own row. -/
theorem lookup_tableRow {entries : List SignedLedgerEntry} {e : SignedLedgerEntry}
    (rest : List (List UInt8 × LedgerHash × LedgerSignature)) (he : e ∈ entries)
    (hseq : entries.Pairwise fun a b => a.sequenceNo ≠ b.sequenceNo) :
    (entries.map SignedLedgerEntry.tableRow ++ rest).lookup e.canonicalPayload =
      some (e.entryHash, e.signature) := by
  induction entries with
  | nil => simp at he
  | cons x xs ih =>
    obtain ⟨hx, hxs⟩ := List.pairwise_cons.mp hseq
    rw [List.map_cons, List.cons_append, SignedLedgerEntry.tableRow, List.lookup_cons]
    rcases List.mem_cons.mp he with rfl | he
    · rw [beq_self_eq_true]
    · have hne : (e.canonicalPayload == x.canonicalPayload) = false :=
        beq_eq_false_iff_ne.mpr fun h =>
          hx e he (LedgerEntryParts.canonicalPayload_inj h).sequenceNo.symm
      rw [hne]
      exact ih he hxs

theorem signedBy_ofTable {publicKey : PublicKeyBytes} {entries : List SignedLedgerEntry}
    {key : LedgerSigningKey} {e : SignedLedgerEntry}
    (rest : List (List UInt8 × LedgerHash × LedgerSignature)) (he : e ∈ entries)
    (hseq : entries.Pairwise fun a b => a.sequenceNo ≠ b.sequenceNo)
    (hversion : e.signatureKeyVersion = key.keyVersion) :
    SignedBy (.ofTable publicKey (entries.map SignedLedgerEntry.tableRow ++ rest)) key e := by
  have hrow := lookup_tableRow rest he hseq
  exact ⟨hversion, Primitives.sha256_ofTable hrow, (Primitives.sign_ofTable hrow _).symm⟩

/-- A UUID of version 4, told apart by its last byte. -/
def sampleUuid (last : UInt8) : Uuid :=
  ⟨[0, 0, 0, 0, 0, 0, 0x40, 0, 0x80, 0, 0, 0, 0, 0, 0, last], rfl⟩

/-- The entry identifier with the given last byte. -/
def sampleEntryId (last : UInt8) : LedgerEntryId :=
  ⟨sampleUuid last, show (0x40 : UInt8).toNat / 16 = 4 by decide⟩

/-- A signing key of version 1. -/
def sampleKey : LedgerSigningKey :=
  ⟨⟨1, by decide, by decide⟩, ⟨List.replicate 32 1, rfl⟩⟩

/-- The payload of a resend of audit events. -/
def samplePayload : LedgerPayload where
  entryType := .auditFallbackResent
  object := [("duration_ms", .number (.posInt 12)), ("failed_count", .number (.posInt 0)),
    ("resent_count", .number (.posInt 1))]
  sorted := by unfold SortedMap.Sorted; decide +kernel
  valid := by decide +kernel

/-- The first entry of a ledger, under a given identifier. -/
def sampleParts (id : UInt8) : LedgerEntryParts where
  ledgerEntryId := sampleEntryId id
  sequenceNo := ⟨1, by decide, by decide⟩
  entryType := .auditFallbackResent
  sourceEventAt := ⟨"2026-01-15T00:00:00Z", by decide +kernel⟩
  requestId := ⟨sampleUuid 9⟩
  sourceEventId := none
  targetSecretId := none
  targetSecretVersionId := none
  actorUserId := none
  actorDeviceId := none
  result := .success
  errorCode := none
  payload := samplePayload
  previousEntryHash := LedgerHash.genesis
  signatureKeyVersion := sampleKey.keyVersion

/-- The SHA-256 of the entry's canonical form. -/
def sampleHash : LedgerHash :=
  .ofNat _ 0xbbea325851153b4a8b1dbb2483cbcda27d0a60ee210c3f01a1aca2c15ab7c2a5

/-- The Ed25519 public key of `sampleKey`. -/
def samplePublicKey : PublicKeyBytes :=
  .ofNat _ 0x8a88e3dd7409f195fd52db2d3cba5d72ca6709bf1d94121bf3748801b40f6f5c

/-- The Ed25519 signature of the entry's canonical form under `sampleKey`. -/
def sampleSignature : LedgerSignature :=
  .ofHalves _
    0x4a2b443a7736f851b1c255efba9cc5d4de1e462c84a8a73eb45473098e8ed6cb
    0x6f9d3cf114f346c90f31198a24d8b430972f89d9773325d10fda53a10ceec906

/-- The signed entry. -/
def sampleEntry (id : UInt8) : SignedLedgerEntry where
  toLedgerEntryParts := sampleParts id
  valid := rfl
  entryHash := sampleHash
  signature := sampleSignature

/-- The same record as the second entry of the ledger, with the SHA-256 and the Ed25519 signature
of its canonical form. -/
def sampleNext : SignedLedgerEntry where
  toLedgerEntryParts := { sampleParts 2 with
    sequenceNo := ⟨2, by decide, by decide⟩, previousEntryHash := sampleHash }
  valid := rfl
  entryHash := .ofNat _ 0xfc4941fe37d79431146c1c19592f50ed914665550f64590aa936b0796ca4656b
  signature := .ofHalves _
    0x348455559756b9362b8e0de79a027e6b912c5e42493c352059f148a15a248aac
    0xc16c46468efefe97cab7b3d7b1ef74ac1d55206041197fc652a204d9a9436003

/-- The table of the two entries. -/
def samplePrimitives : Primitives :=
  .ofTable samplePublicKey ([sampleEntry 1, sampleNext].map SignedLedgerEntry.tableRow ++ [])

private theorem sampleEntries_pairwise :
    [sampleEntry 1, sampleNext].Pairwise fun a b => a.sequenceNo ≠ b.sequenceNo := by
  decide

/-- The entry under any identifier is signed: the identifier is not part of the canonical form. -/
theorem signedBy_sampleEntry (id : UInt8) :
    SignedBy samplePrimitives sampleKey (sampleEntry id) := by
  have h : SignedBy samplePrimitives sampleKey (sampleEntry 1) :=
    signedBy_ofTable [] (by simp) sampleEntries_pairwise rfl
  exact ⟨h.keyVersion, h.entryHash, h.signature⟩

theorem signedBy_sampleNext : SignedBy samplePrimitives sampleKey sampleNext :=
  signedBy_ofTable [] (by simp) sampleEntries_pairwise rfl

theorem verifyLedgerChain_sampleEntry (id : UInt8) :
    verifyLedgerChain [sampleEntry id] .genesis [sampleKey.verificationKey samplePrimitives] =
      .ok (.after (sampleEntry id)) :=
  verifyLedgerChain_cons.mpr ⟨⟨rfl, rfl, (signedBy_sampleEntry id).entryHash⟩,
    (signedBy_sampleEntry id).signatureAccepted (LedgerSigningKey.find?_verificationKey _),
    verifyLedgerChain_nil _ _⟩

theorem verifyLedgerChain_sampleNext :
    verifyLedgerChain [sampleEntry 1, sampleNext] .genesis
      [sampleKey.verificationKey samplePrimitives] = .ok (.after sampleNext) := by
  have hnext : verifyLedgerChain [sampleNext] (.after (sampleEntry 1))
      [sampleKey.verificationKey samplePrimitives] = .ok (.after sampleNext) :=
    verifyLedgerChain_cons.mpr ⟨⟨rfl, rfl, signedBy_sampleNext.entryHash⟩,
      signedBy_sampleNext.signatureAccepted (LedgerSigningKey.find?_verificationKey _),
      verifyLedgerChain_nil _ _⟩
  exact verifyLedgerChain_cons.mpr ⟨⟨rfl, rfl, (signedBy_sampleEntry 1).entryHash⟩,
    (signedBy_sampleEntry 1).signatureAccepted (LedgerSigningKey.find?_verificationKey _), hnext⟩

/-- An instance: an entry and its copy under another identifier. -/
theorem verifyLedgerChain_tamper_evident_sample :
    [sampleEntry 1].length = [sampleEntry 2].length ∧ List.Forall₂ (fun x y =>
      LedgerEntryParts.SameDocument x.toLedgerEntryParts y.toLedgerEntryParts ∧
        x.entryHash = y.entryHash) [sampleEntry 1] [sampleEntry 2] :=
  verifyLedgerChain_tamper_evident samplePrimitives .genesis (.after (sampleEntry 1))
    [sampleKey.verificationKey samplePrimitives] [sampleKey.verificationKey samplePrimitives]
    [sampleEntry 1] [sampleEntry 2]
    (by simp only [List.mem_singleton, forall_eq]; exact fun _ => rfl)
    (verifyLedgerChain_sampleEntry 1) (verifyLedgerChain_sampleEntry 2)

end Mipsorcu
