import Mipsorcu.Database.HashChain
import Mipsorcu.Server.SignatureVerification

/-!
# The two verifications of the hash chain

The database and the scheduler each walk the hash chain. `hashChainVerifiers_agree` compares them
on rows that restore and carry their own hash: both accept the same tables, except that the
procedure raises after a row at the largest position. It also says which position the procedure
names when it reports a gap.
-/

namespace Mipsorcu

/-! ### Restored rows -/

variable {row : LedgerEntryRow} {e : SignedLedgerEntry}

/-- A row that restores has the position and the hashes of the entry. -/
theorem RestoresTo.columns (h : RestoresTo row e) :
    (e.sequenceNo.val : ℤ) = row.sequenceNo ∧ e.previousEntryHash.bytes = row.previousEntryHash ∧
      e.entryHash.bytes = row.entryHash := by
  obtain ⟨object, -, hrestored⟩ := h
  obtain ⟨material, hparsed, hrestore⟩ := hrestored object .rfl none
  obtain ⟨hseq, hprev, hhash⟩ :=
    LedgerVerificationMaterialRow.tryRestoreSignedLedgerEntry_fields hrestore
  have hfromBytea : ∀ {bytes : List UInt8} {hash : LedgerHash},
      LedgerHash.fromByteaHex (byteaText bytes) = .ok hash → hash.bytes = bytes := by
    intro bytes hash hbytes
    simp only [LedgerHash.fromByteaHex, LedgerHash.fromHexChars, LedgerHash.fromBytes,
      stripByteaMark_byteaText, hexDecode_hexEncode, Result.ofOption_some, Result.ok_bind,
      Result.ofOption_eq_ok] at hbytes
    exact FixedBytes.ofBytes?_eq_some.mp hbytes
  rw [hseq, hprev, hhash]
  simp only [LedgerVerificationMaterialRow.tryFrom, LedgerVerificationMaterialResponse.ofRow,
    Result.bind_eq_ok, Result.mapError_eq_ok, Result.ofOption_some, Result.ok_bind,
    Result.pure_eq_ok] at hparsed
  obtain ⟨_, -, sequenceNo, hsequenceNo, entryHash, hentryHash, previousHash, hpreviousHash, _, -,
    _, -, _, -, rfl⟩ := hparsed
  exact ⟨LedgerSequenceNo.fromI64_eq_ok.mp hsequenceNo, hfromBytea hpreviousHash,
    hfromBytea hentryHash⟩

theorem LedgerVerificationMaterialRow.tryFrom_payload {payload : Json}
    {key : Option LedgerSigningPublicKeyRow} {material : LedgerVerificationMaterialRow}
    (h : LedgerVerificationMaterialRow.tryFrom (.ofRow row payload key) = .ok material) :
    material.payload = payload := by
  simp only [LedgerVerificationMaterialRow.tryFrom, LedgerVerificationMaterialResponse.ofRow,
    Result.bind_eq_ok, Result.mapError_eq_ok, Result.ofOption_some, Result.ok_bind,
    Result.pure_eq_ok] at h
  obtain ⟨_, -, _, -, _, -, _, -, _, -, _, -, _, -, rfl⟩ := h
  rfl

variable {members : List (String × Json)}

/-- The payload of an entry is made of the members its row has. -/
theorem Restored.payload_new {key : Option LedgerSigningPublicKeyRow}
    (h : Restored e (.ofRow row (.object members) key)) :
    ∃ entryType payload, LedgerPayload.new entryType (.object members) = .ok payload := by
  obtain ⟨material, hparsed, hrestore⟩ := h
  have hmembers := LedgerVerificationMaterialRow.tryFrom_payload hparsed
  simp only [LedgerVerificationMaterialRow.tryRestoreSignedLedgerEntry, Result.bind_eq_ok]
    at hrestore
  obtain ⟨entryType, -, _, -, _, -, _, -, _, -, _, -, _, -, _, -, _, -, payload, hpayload, -⟩ :=
    hrestore
  exact ⟨entryType, payload, hmembers ▸ hpayload⟩

theorem ledgerPayloadContainsForbiddenKey_of_scalar {value : Json}
    (h : value.isContainer = false) : ledgerPayloadContainsForbiddenKey value = false := by
  cases value <;> first | rfl | cases h

/-- The member that comes last is checked. -/
theorem memberContainsForbiddenKey_of_new {entryType : LedgerEntryType} {payload : LedgerPayload}
    {member : String × Json}
    (h : LedgerPayload.new entryType (.object (members ++ [member])) = .ok payload) :
    memberContainsForbiddenKey member = false := by
  obtain ⟨key, value⟩ := member
  have hobject := (LedgerPayload.ofSorted_eq_ok.mp h).2
  have hmem : (key, value.normalize) ∈ payload.object := by
    rw [hobject, Json.normalizeMembers_append]
    exact SortedMap.mem_ofList_concat _ _
  have hnone := payload.containsForbiddenKey_of_perm .rfl
  rw [ledgerPayloadContainsForbiddenKey, membersContainForbiddenKey_eq, List.any_eq_false] at hnone
  have hkey := hnone _ hmem
  have hscalar : value.isContainer = false := by
    have hnormal := (payload.valid_member hmem).2
    cases value <;> first | rfl | cases hnormal
  simp only [memberContainsForbiddenKey, Bool.or_eq_true, not_or, Bool.not_eq_true] at hkey ⊢
  rw [hkey.1, ledgerPayloadContainsForbiddenKey_of_scalar hscalar, Bool.or_false]

/-- No member of a payload that restores in every order has a forbidden key. -/
theorem RestoresTo.noForbiddenKey (h : RestoresTo row e) {object : List (String × Json)}
    (hpayload : row.payload = .object object) (hmembers : members.Perm object) :
    ledgerPayloadContainsForbiddenKey (.object members) = false := by
  obtain ⟨stored, hstored, hrestored⟩ := h
  obtain rfl : stored = object := Json.object.inj (hstored.symm.trans hpayload)
  rw [ledgerPayloadContainsForbiddenKey, membersContainForbiddenKey_eq, List.any_eq_false]
  intro member hmember
  obtain ⟨before, after, rfl⟩ := List.append_of_mem hmember
  have hlast : (before ++ after ++ [member]).Perm (before ++ member :: after) := by
    rw [List.append_assoc]
    exact List.perm_append_comm.append_left before
  obtain ⟨entryType, payload, hnew⟩ := (hrestored _ (hlast.trans hmembers) none).payload_new
  rw [memberContainsForbiddenKey_of_new hnew]
  exact Bool.false_ne_true

variable {P : Primitives}

variable {rows : List LedgerEntryRow} {entries : List SignedLedgerEntry}

/-- Rows follow a head exactly if the entries they restore to are a chain from it. -/
theorem Sql.follows_iff_chained (hrestores : List.Forall₂ RestoresTo rows entries)
    (hhash : ∀ e ∈ entries, e.recomputeEntryHash P = e.entryHash) {head : LedgerChainHead} :
    Sql.Follows (head.lastSequenceNo + 1) head.lastEntryHash.bytes rows ↔
      ∃ final, Chained P head entries final := by
  induction hrestores generalizing head with
  | nil => simp [Sql.Follows, Chained]
  | @cons row e rows es hrow hrest ih =>
    obtain ⟨hseq, hprev, hentry⟩ := hrow.columns
    obtain ⟨hown, hrestHash⟩ := List.forall_mem_cons.mp hhash
    have htail := @ih hrestHash (.after e)
    simp only [LedgerChainHead.after] at htail
    simp only [Sql.Follows, Chained, exists_and_left]
    constructor
    · rintro ⟨hn, hfirst, hfollows⟩
      rw [← hn, ← hseq, ← hentry, htail] at hfollows
      refine ⟨⟨?_, ?_, hown⟩, hfollows⟩
      · omega
      · exact FixedBytes.ext (hprev.trans hfirst)
    · rintro ⟨hext, hfinal⟩
      have hn : row.sequenceNo = head.lastSequenceNo + 1 := by
        rw [← hseq, hext.sequenceNo]
        push_cast
        rfl
      refine ⟨hn, hprev.symm.trans (congrArg FixedBytes.bytes hext.previousEntryHash), ?_⟩
      rw [← hn, ← hseq, ← hentry]
      exact htail.mpr hfinal

/-- The last row and the last entry, or what stands for them in an empty list. -/
theorem Sql.getLast?_restores (hrestores : List.Forall₂ RestoresTo rows entries)
    (head : LedgerChainHead) :
    (rows.getLast?.map fun row => (row.sequenceNo, row.entryHash)).getD
        ((head.lastSequenceNo : ℤ), head.lastEntryHash.bytes) =
      ((((entries.getLast?.map LedgerChainHead.after).getD head).lastSequenceNo : ℤ),
        ((entries.getLast?.map LedgerChainHead.after).getD head).lastEntryHash.bytes) := by
  induction hrestores generalizing head with
  | nil => rfl
  | @cons row e rows es hrow _ ih =>
    obtain ⟨hseq, -, hhash⟩ := hrow.columns
    have hrest := ih (.after e)
    simp only [LedgerChainHead.after, hseq, hhash] at hrest
    rw [List.getLast?_cons, List.getLast?_cons, Option.map_some, Option.map_some, Option.getD_some,
      Option.getD_some]
    cases hlast : rows.getLast? <;> cases hlast' : es.getLast? <;>
      simp_all [LedgerChainHead.after]

/-- The rows of a table whose rows all restore. -/
theorem Sql.exists_restores
    (h : ∀ row ∈ rows, ∃ e, RestoresTo row e ∧ e.recomputeEntryHash P = e.entryHash) :
    ∃ entries, List.Forall₂ RestoresTo rows entries ∧
      ∀ e ∈ entries, e.recomputeEntryHash P = e.entryHash := by
  induction rows with
  | nil => exact ⟨[], .nil, by simp⟩
  | cons row rows ih =>
    obtain ⟨⟨e, he, hhash⟩, hrest⟩ := List.forall_mem_cons.mp h
    obtain ⟨es, hes, hhashes⟩ := ih hrest
    exact ⟨e :: es, .cons he hes, List.forall_mem_cons.mpr ⟨hhash, hhashes⟩⟩

/-! ### The scheduler's pass over all rows -/

/-- The rows of the table in order, exported and parsed. -/
def allMaterialRows (pg : Postgres) (db : LedgerDb) :
    Except SupabaseRpcError (List LedgerVerificationMaterialRow) :=
  Result.traverse LedgerVerificationMaterialRow.tryFrom
    ((Sql.orderBySequenceNo db.entries).map fun row =>
      .ofRow row (pg.printJsonb row.payload) (Sql.registeredKey db row.signatureKeyVersion))

/-- Rows that restore are parsed, have no forbidden key and give their entries. -/
theorem exists_materialRows (pg : Postgres) (db : LedgerDb)
    (h : List.Forall₂ RestoresTo rows entries) :
    ∃ materials, Result.traverse LedgerVerificationMaterialRow.tryFrom
        (rows.map fun row =>
          .ofRow row (pg.printJsonb row.payload) (Sql.registeredKey db row.signatureKeyVersion)) =
        .ok materials ∧
      NoForbiddenKeys materials ∧
      List.Forall₂ (fun m e => LedgerVerificationMaterialRow.tryRestoreSignedLedgerEntry m = .ok e)
        materials entries := by
  simp only [Result.traverse_eq_ok, List.forall₂_map_left_iff, noForbiddenKeys_iff]
  induction h with
  | nil => exact ⟨[], .nil, by simp, .nil⟩
  | @cons row e rows es hrow _ ih =>
    obtain ⟨materials, hparsed, hkeys, hrestored⟩ := ih
    obtain ⟨object, hobject, hall⟩ := id hrow
    have hperm : (pg.jsonbMembers object).Perm object := pg.jsonbMembers_perm object
    obtain ⟨m, hm, hme⟩ := hall _ hperm (Sql.registeredKey db row.signatureKeyVersion)
    have hpayload : m.payload = .object (pg.jsonbMembers object) :=
      LedgerVerificationMaterialRow.tryFrom_payload hm
    refine ⟨m :: materials, .cons ?_ hparsed, List.forall_mem_cons.mpr ⟨?_, hkeys⟩,
      .cons hme hrestored⟩
    · rw [hobject]
      exact hm
    · rw [hpayload]
      exact hrow.noForbiddenKey hobject hperm

/-! ### Agreement -/

/-- The head before a range: genesis, or the entry of the row before it. -/
def HeadBefore (db : LedgerDb) (start : ℤ) (head : LedgerChainHead) : Prop :=
  (start = 1 ∧ head = .genesis) ∨
    1 < start ∧ ∃ row ∈ db.entries, row.sequenceNo = start - 1 ∧
      ∃ e, RestoresTo row e ∧ head = .after e

/-- All rows of the range are there, and the scheduler's walk from the head before it accepts the
entries they restore to. -/
def RangeAccepted (P : Primitives) (db : LedgerDb) (start stop : ℤ) : Prop :=
  (∀ n, start ≤ n → n ≤ stop → ∃ row ∈ db.entries, row.sequenceNo = n) ∧
    ∃ head entries, HeadBefore db start head ∧
      List.Forall₂ RestoresTo (Sql.rangeRows db (some start) (some stop)) entries ∧
      ∃ final, walkHashChain P entries.length entries head.lastSequenceNo head.lastEntryHash =
        .ok (.ok final)

section

variable {db : LedgerDb} {head : LedgerChainHead} {start stop : ℤ}

theorem HeadBefore.precedingHash (h : HeadBefore db start head)
    (hnodup : (db.entries.map (·.sequenceNo)).Nodup) :
    (head.lastSequenceNo : ℤ) + 1 = start ∧
      Sql.precedingHash db (some start) = some head.lastEntryHash.bytes := by
  rcases h with ⟨rfl, rfl⟩ | ⟨hlt, row, hrow, hseq, e, hrestores, rfl⟩
  · exact ⟨rfl, rfl⟩
  · obtain ⟨hentry, -, hhash⟩ := hrestores.columns
    have hat : Sql.entryAt db (start - 1) = some row := by
      rw [← hseq]
      exact Keyed.find?_eq hnodup hrow
    refine ⟨?_, ?_⟩
    · rw [LedgerChainHead.after, hentry, hseq]
      omega
    · rw [Sql.precedingHash, if_pos hlt, hat, LedgerChainHead.after, hhash]
      rfl

theorem exists_headBefore (hstart : 1 ≤ start) {previous : List UInt8}
    (hrestores : ∀ row ∈ db.entries, ∃ e, RestoresTo row e ∧ e.recomputeEntryHash P = e.entryHash)
    (h : Sql.precedingHash db (some start) = some previous) : ∃ head, HeadBefore db start head := by
  by_cases hlt : 1 < start
  · rw [Sql.precedingHash, if_pos hlt] at h
    obtain ⟨row, hat, -⟩ := Option.map_eq_some_iff.mp h
    have hrow : row ∈ db.entries := List.mem_of_find?_eq_some hat
    have hseq : row.sequenceNo = start - 1 := by simpa using List.find?_some hat
    obtain ⟨e, he, -⟩ := hrestores row hrow
    exact ⟨.after e, .inr ⟨hlt, row, hrow, hseq, e, he, rfl⟩⟩
  · exact ⟨.genesis, .inl ⟨by omega, rfl⟩⟩

/-- An accepted range, as the procedure sees it. -/
theorem RangeAccepted.follows (h : RangeAccepted P db start stop)
    (hnodup : (db.entries.map (·.sequenceNo)).Nodup) :
    ∃ previous, Sql.precedingHash db (some start) = some previous ∧
      Sql.Follows start previous (Sql.rangeRows db (some start) (some stop)) := by
  obtain ⟨-, head, entries, hhead, hentries, final, hwalk⟩ := h
  obtain ⟨hseq, hprevious⟩ := hhead.precedingHash hnodup
  obtain ⟨final, hchain, -⟩ := walkHashChain_eq_ok.mp hwalk
  have hfollows := (Sql.follows_iff_chained hentries fun e he => hchain.entryHash he).mpr
    ⟨final, hchain⟩
  rw [hseq] at hfollows
  exact ⟨_, hprevious, hfollows⟩

theorem mem_rangeRows_of_present (hstop : start ≤ stop)
    (h : ∀ n, start ≤ n → n ≤ stop → ∃ row ∈ db.entries, row.sequenceNo = n) :
    ∃ row ∈ Sql.rangeRows db (some start) (some stop), row.sequenceNo = stop := by
  obtain ⟨row, hrow, hseq⟩ := h stop hstop le_rfl
  refine ⟨row, Sql.mem_rangeRows.mpr ⟨hrow, ?_, ?_⟩, hseq⟩
  · rintro _ ⟨⟩
    omega
  · rintro _ ⟨⟩
    omega

/-- **Ranges**: the procedure reports a valid range exactly if it is accepted and does not end at
the largest position. -/
theorem verifyRange_valid_iff (hstate : db.chainState = some head.toRow)
    (hnodup : (db.entries.map (·.sequenceNo)).Nodup)
    (hrestores : ∀ row ∈ db.entries, ∃ e, RestoresTo row e ∧ e.recomputeEntryHash P = e.entryHash)
    (hargs : Sql.VerifyArguments (some start) (some stop)) :
    (∃ r, Sql.rpcVerifyLedgerHashChain db (some start) (some stop) = .ok r ∧
        r.chainValid = true) ↔
      RangeAccepted P db start stop ∧ stop < 9223372036854775807 := by
  have hstart : 0 < start := hargs.start_pos start rfl
  have hle : start ≤ stop := hargs.le start rfl stop rfl
  have hreport := @Sql.rpcVerifyLedgerHashChain_valid db (some start) (some stop) _ hstate hargs
  constructor
  · rintro ⟨r, hr, hvalid⟩
    obtain ⟨previous, hprevious, hrange, hmax, -⟩ := hreport.mp ⟨r, hr, hvalid, rfl⟩
    -- the walk leaves no position of the range out
    have hpresent : ∀ n, start ≤ n → n ≤ stop →
        ∃ row ∈ Sql.rangeRows db (some start) (some stop), row.sequenceNo = n := by
      intro n hn hnle
      have hreach := hrange.reaches stop rfl
      rw [Option.getD_some] at hreach
      exact hrange.follows.mem_iff.mpr ⟨hn, by rw [Option.getD_some]; omega⟩
    -- the server starts at the entry before the range, which the procedure looks up
    obtain ⟨before, hbefore⟩ := exists_headBefore hstart hrestores hprevious
    obtain ⟨hseq, hbytes⟩ := hbefore.precedingHash hnodup
    obtain ⟨entries, hentries, hhashes⟩ := Sql.exists_restores
      fun row hrow => hrestores row (Sql.mem_rangeRows.mp hrow).1
    have hfollows : Sql.Follows (before.lastSequenceNo + 1) before.lastEntryHash.bytes
        (Sql.rangeRows db (some start) (some stop)) := by
      rw [hseq, ← Option.some.inj (hprevious.symm.trans hbytes)]
      exact hrange.follows
    obtain ⟨final, hchain⟩ := (Sql.follows_iff_chained hentries hhashes).mp hfollows
    refine ⟨⟨fun n hn hnle => ?_, before, entries, hbefore, hentries, _,
      walkHashChain_eq_ok.mpr ⟨final, hchain, rfl⟩⟩, ?_⟩
    · obtain ⟨row, hrow, hat⟩ := hpresent n hn hnle
      exact ⟨row, (Sql.mem_rangeRows.mp hrow).1, hat⟩
    · obtain ⟨row, hrow, hat⟩ := hpresent stop hle le_rfl
      exact hat ▸ hmax row hrow
  · rintro ⟨haccepted, hmax⟩
    obtain ⟨previous, hprevious, hfollows⟩ := haccepted.follows hnodup
    obtain ⟨last, hlast, hat⟩ := mem_rangeRows_of_present hle haccepted.1
    have hreach := hfollows.mem_iff.mp ⟨last, hlast, hat⟩
    have hrange : Sql.RangeFollows db head.toRow (some start) (some stop) previous := by
      refine ⟨hfollows, ?_, nofun⟩
      rintro _ ⟨⟩
      exact hreach.2
    obtain ⟨r, hr, hvalid, -⟩ := hreport.mpr ⟨previous, hprevious, hrange, fun row hrow =>
      lt_of_le_of_lt ((Sql.mem_rangeRows.mp hrow).2.2 stop rfl) hmax, rfl⟩
    exact ⟨r, hr, hvalid⟩

/-- **The whole table**: the procedure reports a valid chain exactly if the scheduler's pass over
all rows does, with the same count, and the chain does not end at the largest position. -/
theorem verifyTable_valid_iff (pg : Postgres) (hstate : db.chainState = some head.toRow)
    (hrestores : ∀ row ∈ db.entries, ∃ e, RestoresTo row e ∧ e.recomputeEntryHash P = e.entryHash) :
    ∃ rows, allMaterialRows pg db = .ok rows ∧ ∀ checked : ℕ,
      ((∃ r, Sql.rpcVerifyLedgerHashChain db none none = .ok r ∧ r.chainValid = true ∧
          r.entriesChecked = checked) ↔
        (∃ s, verifyHashChainRows P head rows = .ok s ∧ s.valid = true ∧
          s.checkedCount = checked) ∧ head.lastSequenceNo < 9223372036854775807) := by
  have hrows : Sql.rangeRows db none none = Sql.orderBySequenceNo db.entries := by
    simp [Sql.rangeRows]
  have hmem : ∀ row ∈ Sql.orderBySequenceNo db.entries, row ∈ db.entries := by
    intro row hrow
    rw [← hrows] at hrow
    exact (Sql.mem_rangeRows.mp hrow).1
  obtain ⟨entries, hentries, hhashes⟩ := Sql.exists_restores
    fun row hrow => hrestores row (hmem row hrow)
  obtain ⟨materials, hparsed, hkeys, hrestored⟩ := exists_materialRows pg db hentries
  have hfollows := @Sql.follows_iff_chained P _ _ hentries hhashes .genesis
  have hargs := Sql.VerifyArguments.unbounded
  have hlength : (materials.length : ℤ) = (Sql.orderBySequenceNo db.entries).length := by
    rw [hrestored.length_eq, hentries.length_eq]
  -- both walks start at the genesis, so a chained table ends at the hash of its last row
  have hlast : ∀ final, Chained P .genesis entries final →
      Sql.lastOf (Sql.orderBySequenceNo db.entries) =
        ((final.lastSequenceNo : ℤ), final.lastEntryHash.bytes) := by
    intro final hchain
    rw [hchain.final_eq]
    exact Sql.getLast?_restores hentries .genesis
  refine ⟨materials, hparsed, fun checked => ?_⟩
  rw [Sql.rpcVerifyLedgerHashChain_valid hstate hargs, hrows]
  constructor
  · rintro ⟨_, ⟨⟩, hrange, hmax, hchecked⟩
    have hreached := hrange.follows
    have hhead := hrange.head_eq rfl rfl
    rw [hrows] at hreached hhead
    obtain ⟨final, hchain⟩ := hfollows.mp hreached
    rw [hlast final hchain, Prod.mk.injEq] at hhead
    obtain rfl : final = head :=
      LedgerChainHead.ext (Int.ofNat_inj.mp hhead.1) (FixedBytes.ext hhead.2)
    obtain ⟨hreport, hvalid⟩ := verifyHashChainRows_valid.mpr
      ⟨hkeys, rfl, entries, hrestored, hchain⟩
    refine ⟨⟨_, hreport, hvalid, ?_⟩, ?_⟩
    · simp only
      omega
    · -- the position of the head is that of the last row, if there is one
      have hcount : final.lastSequenceNo = entries.length := by
        rw [hchain.sequenceNos.2]
        exact Nat.zero_add _
      by_cases hempty : entries.length = 0
      · omega
      · have hfinal : ∃ row ∈ Sql.orderBySequenceNo db.entries,
            row.sequenceNo = final.lastSequenceNo := by
          refine hreached.mem_iff.mpr ?_
          rw [hentries.length_eq, Option.getD_none]
          omega
        obtain ⟨row, hrow, hseq⟩ := hfinal
        have hlt := hmax row hrow
        omega
  -- the rows restore to one list of entries, so the report is about the chain above
  · rintro ⟨⟨s, hreport, hvalid, hchecked⟩, hmax⟩
    obtain ⟨-, rfl, entries', hrestored', hchain⟩ := verifyHashChainRows_valid.mp ⟨hreport, hvalid⟩
    obtain rfl : entries' = entries := Relator.RightUnique.forall₂
      (fun _ _ _ h h' => Except.ok.inj (h.symm.trans h')) hrestored' hrestored
    have hreached := hfollows.mpr ⟨head, hchain⟩
    refine ⟨Sql.zeroHash, rfl,
      ⟨hrows ▸ hreached, by rintro _ ⟨⟩, fun _ _ => hrows ▸ hlast head hchain⟩,
      fun row hrow => ?_, ?_⟩
    · have hbound := (hreached.mem_iff.mp ⟨row, hrow, rfl⟩).2
      have hcount := hchain.sequenceNos.2
      rw [hentries.length_eq] at hbound
      simp only [LedgerChainHead.genesis] at hbound hcount
      omega
    · rw [← hlength, ← hchecked]

/-- The row before the range is missing. -/
def PrecedingMissing (db : LedgerDb) (start : ℤ) : Prop :=
  1 < start ∧ ∀ row ∈ db.entries, row.sequenceNo ≠ start - 1

theorem precedingMissing_iff :
    PrecedingMissing db start ↔ Sql.precedingHash db (some start) = none := by
  rw [Sql.precedingHash]
  split_ifs with hlt
  · simp [PrecedingMissing, hlt, Sql.entryAt]
  · simp [PrecedingMissing, hlt]

/-- A gap named for the whole table is the first missing position, or the rows have the positions
from 1 on and the chain state does not end with them. -/
theorem tableGap {n : ℤ} {r : Sql.VerifyHashChainRow} (hstate : db.chainState = some head.toRow)
    (hnodup : (db.entries.map (·.sequenceNo)).Nodup)
    (hpos : ∀ row ∈ db.entries, 0 < row.sequenceNo)
    (hr : Sql.rpcVerifyLedgerHashChain db none none = .ok r)
    (hgap : r.firstGapSequenceNo = some n) :
    Sql.IsFirstMissing db 1 n ∨
      ∃ k : ℕ, (∀ m, (∃ row ∈ db.entries, row.sequenceNo = m) ↔ 1 ≤ m ∧ m ≤ k) ∧
        head.lastSequenceNo ≠ k ∧ n = max (k : ℤ) 1 := by
  have hargs := Sql.VerifyArguments.unbounded
  have hat := Sql.rpcVerifyLedgerHashChain_gapAt hstate hargs hr hgap
  by_cases hstops : (none : Option ℤ) = none ∧ (none : Option ℤ) = none ∧
      head.toRow.lastSequenceNo ≠ (Sql.lastOf (Sql.rangeRows db none none)).1 ∧
      Sql.Follows 1 Sql.zeroHash (Sql.rangeRows db none none)
  · obtain ⟨-, -, hhead, hfollows⟩ := hstops
    have hmem : ∀ m, (∃ row ∈ db.entries, row.sequenceNo = m) ↔
        1 ≤ m ∧ m ≤ (Sql.rangeRows db none none).length := by
      intro m
      have hrows : (∃ row ∈ db.entries, row.sequenceNo = m) ↔
          ∃ row ∈ Sql.rangeRows db none none, row.sequenceNo = m := by
        simp [Sql.mem_rangeRows]
      rw [hrows, hfollows.mem_iff]
      omega
    cases hat with
    | preceding h => cases h
    | atEnd hstop => cases hstop
    | @inside previous pre post row hrows hpre hn hne =>
      -- the next row would not follow
      rw [hrows, Sql.Follows.append] at hfollows
      exact absurd (hfollows.2.1.trans hn.symm) hne
    | chainState _ _ _ _ hn =>
      refine .inr ⟨_, hmem, fun hsame => hhead ?_, hn.trans hfollows.last.2⟩
      rw [hfollows.last.1, LedgerChainHead.toRow, hsame]
  · exact .inl (hat.isFirstMissing hnodup hpos (by simp [Sql.precedingHash]) hstops).1

/-- **The two verifications agree** on rows that restore and carry their own hash. -/
theorem hashChainVerifiers_agree (P : Primitives) (pg : Postgres) (db : LedgerDb)
    (head : LedgerChainHead) (hstate : db.chainState = some head.toRow)
    (hnodup : (db.entries.map (·.sequenceNo)).Nodup)
    (hrestores : ∀ row ∈ db.entries, ∃ e, RestoresTo row e ∧ e.recomputeEntryHash P = e.entryHash) :
    (∃ rows, allMaterialRows pg db = .ok rows ∧ ∀ checked : ℕ,
      ((∃ r, Sql.rpcVerifyLedgerHashChain db none none = .ok r ∧ r.chainValid = true ∧
          r.entriesChecked = checked) ↔
        (∃ s, verifyHashChainRows P head rows = .ok s ∧ s.valid = true ∧
          s.checkedCount = checked) ∧ head.lastSequenceNo < 9223372036854775807)) ∧
    (∀ r n, Sql.rpcVerifyLedgerHashChain db none none = .ok r → r.firstGapSequenceNo = some n →
      Sql.IsFirstMissing db 1 n ∨
        ∃ k : ℕ, (∀ m, (∃ row ∈ db.entries, row.sequenceNo = m) ↔ 1 ≤ m ∧ m ≤ k) ∧
          head.lastSequenceNo ≠ k ∧ n = max (k : ℤ) 1) ∧
    ∀ start stop, 1 ≤ start → start ≤ stop →
      ((∃ r, Sql.rpcVerifyLedgerHashChain db (some start) (some stop) = .ok r ∧
          r.chainValid = true) ↔
        RangeAccepted P db start stop ∧ stop < 9223372036854775807) ∧
      (RangeAccepted P db start stop → 9223372036854775807 ≤ stop →
        Sql.rpcVerifyLedgerHashChain db (some start) (some stop) = .error Sql.bigintOutOfRange) ∧
      ∀ r n, Sql.rpcVerifyLedgerHashChain db (some start) (some stop) = .ok r →
        r.firstGapSequenceNo = some n →
        PrecedingMissing db start ∧ n = start - 1 ∨
          ¬ PrecedingMissing db start ∧ Sql.IsFirstMissing db start n ∧ n ≤ stop := by
  have hpos : ∀ row ∈ db.entries, 0 < row.sequenceNo := by
    intro row hrow
    obtain ⟨e, he, -⟩ := hrestores row hrow
    rw [← he.columns.1]
    exact Int.natCast_pos.mpr e.sequenceNo.pos
  refine ⟨verifyTable_valid_iff pg hstate hrestores,
    fun r n hr hgap => tableGap hstate hnodup hpos hr hgap, fun start stop hstart hle => ?_⟩
  have hargs : Sql.VerifyArguments (some start) (some stop) := by
    constructor
    · rintro _ ⟨⟩
      omega
    · rintro _ ⟨⟩
      omega
    · rintro _ ⟨⟩ _ ⟨⟩
      exact hle
  refine ⟨verifyRange_valid_iff hstate hnodup hrestores hargs, fun haccepted hmax => ?_,
    fun r n hr hgap => ?_⟩
  -- the position after the last one is no `bigint`
  · obtain ⟨previous, hprevious, hfollows⟩ := haccepted.follows hnodup
    obtain ⟨last, hlast, hat⟩ := mem_rangeRows_of_present hle haccepted.1
    exact Sql.rpcVerifyLedgerHashChain_raised hstate hargs hprevious hfollows hlast (hat ▸ hmax)
  -- the position before the range is looked up first
  · have hat := Sql.rpcVerifyLedgerHashChain_gapAt hstate hargs hr hgap
    by_cases hmissing : PrecedingMissing db start
    · refine .inl ⟨hmissing, ?_⟩
      rw [Sql.rpcVerifyLedgerHashChain_eq hstate hargs, precedingMissing_iff.mp hmissing] at hr
      cases hr
      exact (Option.some.inj hgap).symm
    · obtain ⟨hfirst, hend⟩ := hat.isFirstMissing hnodup hpos
        (fun hnone => hmissing (precedingMissing_iff.mpr hnone)) (fun h => nomatch h.1)
      exact .inr ⟨hmissing, hfirst, hend stop rfl⟩

end

theorem restores_sampleEntry :
    RestoresTo (.ofSigned (sampleEntry 1)) (sampleEntry 1) ∧
      (sampleEntry 1).recomputeEntryHash samplePrimitives = (sampleEntry 1).entryHash :=
  ⟨restoresTo_ofSigned (by decide), (signedBy_sampleEntry 1).entryHash⟩

/-- An instance: the ledger of the two sample entries, as a table and as a range. -/
theorem hashChainVerifiers_agree_sampleNextLedger :
    (∃ rows s, allMaterialRows samplePostgres sampleNextLedger = .ok rows ∧
      verifyHashChainRows samplePrimitives (.after sampleNext) rows = .ok s ∧ s.valid = true ∧
      s.checkedCount = 2) ∧
    (∃ r, Sql.rpcVerifyLedgerHashChain sampleNextLedger (some 1) (some 2) = .ok r ∧
      r.chainValid = true) ∧ RangeAccepted samplePrimitives sampleNextLedger 1 2 := by
  have hagree := hashChainVerifiers_agree samplePrimitives samplePostgres sampleNextLedger
    (.after sampleNext) rfl (by decide) (by
      simp only [sampleNextLedger, LedgerDb.add, sampleLedger, List.cons_append, List.nil_append,
        List.mem_cons, List.not_mem_nil, or_false, forall_eq_or_imp, forall_eq]
      exact ⟨⟨_, restores_sampleEntry⟩,
        _, restoresTo_ofSigned (by decide), signedBy_sampleNext.entryHash⟩)
  have hrange : ∃ r, Sql.rpcVerifyLedgerHashChain sampleNextLedger (some 1) (some 2) = .ok r ∧
      r.chainValid = true := ⟨_, rfl, rfl⟩
  obtain ⟨rows, hrows, htable⟩ := hagree.1
  obtain ⟨⟨s, hs, hvalid, hchecked⟩, -⟩ := (htable 2).mp ⟨_, rfl, rfl, rfl⟩
  exact ⟨⟨rows, s, hrows, hs, hvalid, hchecked⟩, hrange,
    ((hagree.2.2 1 2 le_rfl (by decide)).1.mp hrange).1⟩

/-- The procedure names position 1 as the gap of the range from 2 to 2 of an empty table, and
position 1 as the gap of a table with that row, if the chain state is at position 5. -/
theorem gap_is_not_missing :
    (∃ r, Sql.rpcVerifyLedgerHashChain (Sql.emptyLedger []) (some 2) (some 2) = .ok r ∧
      r.firstGapSequenceNo = some 1) ∧
    ∃ r, Sql.rpcVerifyLedgerHashChain
        { sampleLedger with chainState := some ⟨5, (sampleEntry 1).entryHash.bytes⟩ } none none =
        .ok r ∧
      r.firstGapSequenceNo = some 1 ∧
      ∃ row ∈ sampleLedger.entries, row.sequenceNo = 1 ∧ RestoresTo row (sampleEntry 1) ∧
        (sampleEntry 1).recomputeEntryHash samplePrimitives = (sampleEntry 1).entryHash :=
  ⟨⟨_, rfl, rfl⟩, _, rfl, rfl, _, List.mem_singleton_self _, rfl, restores_sampleEntry⟩

end Mipsorcu
