import Mipsorcu.Audit.Metadata
import Mipsorcu.Database.AuditEvents
import Mipsorcu.Protocol.LedgerAppend
import Mipsorcu.Server.LedgerVerification
import Mipsorcu.Server.PayloadParity

/-!
# Forbidden keys in the server and in the database

Keys that could carry secrets are refused at any depth, by the server's scans of the audit metadata
and of the ledger payloads, by the scans that redact what is displayed, and by two functions of the
database. All of them use the same words. They differ in how they normalise a key: the server trims
Unicode white space and lowers ASCII letters, the database trims spaces and lowers letters as its
locale says.

So the scans agree on a value exactly if no key makes the difference
(`forbiddenKeyScans_agree_iff`): the server alone refuses a forbidden word with other white space
around it, and the database alone a word that only its locale lowers to a forbidden one.
-/

namespace Mipsorcu

/-! ### The scans of what is displayed -/

/-- `contains_forbidden_key`. -/
def containsForbiddenKey (value : Json) (forbiddenKeys : List String) : Bool :=
  value.keys.any fun key => forbiddenKeys.contains (toAsciiLowercase (trim key))

/-! ### Every scan asks the same of every key -/

/-- The server refuses the key. -/
def serverForbids (key : String) : Bool :=
  forbiddenAuditMetadataKeys.contains (toAsciiLowercase (trim key))

/-- The database refuses the key. -/
def databaseForbids (pg : Postgres) (key : String) : Bool :=
  forbiddenAuditMetadataKeys.contains (pg.lower (Sql.btrim key))

theorem isForbiddenPayloadKey_eq (key : String) :
    isForbiddenPayloadKey key = serverForbids key := by
  rw [isForbiddenPayloadKey, serverForbids, Bool.eq_iff_iff, decide_eq_true_iff,
    List.contains_iff_mem]
  rfl

theorem rejectForbiddenMetadataKeys_eq_error {value : Json} :
    (∃ e, rejectForbiddenMetadataKeys value = .error e) ↔
      ∃ key ∈ value.keys, serverForbids key = true := by
  unfold rejectForbiddenMetadataKeys
  split
  · rename_i key hkey
    exact iff_of_true ⟨_, rfl⟩ ⟨key, List.mem_of_find?_eq_some hkey, List.find?_some hkey⟩
  · rename_i hnone
    refine iff_of_false (by simp) ?_
    rintro ⟨key, hkey, hforbidden⟩
    exact List.find?_eq_none.mp hnone key hkey hforbidden

mutual

theorem rejectForbiddenPayloadKeys_iff : ∀ value : Json, rejectForbiddenPayloadKeys value = .ok () ↔
    ∀ key ∈ value.keys, serverForbids key = false
  | .null => by simp [rejectForbiddenPayloadKeys, Json.keys]
  | .bool _ => by simp [rejectForbiddenPayloadKeys, Json.keys]
  | .number _ => by simp [rejectForbiddenPayloadKeys, Json.keys]
  | .string _ => by simp [rejectForbiddenPayloadKeys, Json.keys]
  | .array items => by
    rw [rejectForbiddenPayloadKeys, Json.keys]
    exact rejectForbiddenItems_iff items
  | .object members => by
    rw [rejectForbiddenPayloadKeys, Json.keys]
    exact rejectForbiddenMembers_iff members

theorem rejectForbiddenMembers_iff : ∀ members : List (String × Json),
    rejectForbiddenMembers members = .ok () ↔
      ∀ key ∈ Json.keysMembers members, serverForbids key = false
  | [] => by simp [rejectForbiddenMembers, Json.keysMembers]
  | m :: members => by
    rw [rejectForbiddenMembers, Json.keysMembers, List.forall_mem_append, Result.bind_eq_ok,
      ← rejectForbiddenMembers_iff members, ← rejectForbiddenMember_iff m]
    exact ⟨fun ⟨(), h, hrest⟩ => ⟨h, hrest⟩, fun ⟨h, hrest⟩ => ⟨(), h, hrest⟩⟩

theorem rejectForbiddenMember_iff : ∀ m : String × Json,
    rejectForbiddenMember m = .ok () ↔ ∀ key ∈ Json.keysMember m, serverForbids key = false
  | (key, value) => by
    rw [rejectForbiddenMember, Json.keysMember, List.forall_mem_cons,
      ← rejectForbiddenPayloadKeys_iff value, isForbiddenPayloadKey_eq]
    cases serverForbids key <;> simp

theorem rejectForbiddenItems_iff : ∀ items : List Json, rejectForbiddenItems items = .ok () ↔
    ∀ key ∈ Json.keysItems items, serverForbids key = false
  | [] => by simp [rejectForbiddenItems, Json.keysItems]
  | v :: items => by
    rw [rejectForbiddenItems, Json.keysItems, List.forall_mem_append, Result.bind_eq_ok,
      ← rejectForbiddenItems_iff items, ← rejectForbiddenPayloadKeys_iff v]
    exact ⟨fun ⟨(), h, hrest⟩ => ⟨h, hrest⟩, fun ⟨h, hrest⟩ => ⟨(), h, hrest⟩⟩

end

mutual

theorem Sql.ledgerPayloadHasForbiddenKey_eq (pg : Postgres) : ∀ value : Json,
    ledgerPayloadHasForbiddenKey pg value = value.keys.any (databaseForbids pg)
  | .null => rfl
  | .bool _ => rfl
  | .number _ => rfl
  | .string _ => rfl
  | .array items => by
    rw [ledgerPayloadHasForbiddenKey, Json.keys]
    exact hasForbiddenItem_eq pg items
  | .object members => by
    rw [ledgerPayloadHasForbiddenKey, Json.keys]
    exact hasForbiddenMember_eq pg members

theorem Sql.hasForbiddenMember_eq (pg : Postgres) : ∀ members : List (String × Json),
    hasForbiddenMember pg members = (Json.keysMembers members).any (databaseForbids pg)
  | [] => rfl
  | m :: members => by
    rw [hasForbiddenMember, Json.keysMembers, List.any_append, hasForbiddenMember_eq pg members,
      isForbiddenMember_eq pg m]

theorem Sql.isForbiddenMember_eq (pg : Postgres) : ∀ m : String × Json,
    isForbiddenMember pg m = (Json.keysMember m).any (databaseForbids pg)
  | (key, value) => by
    rw [isForbiddenMember, Json.keysMember, List.any_cons, ledgerPayloadHasForbiddenKey_eq pg value]
    rfl

theorem Sql.hasForbiddenItem_eq (pg : Postgres) : ∀ items : List Json,
    hasForbiddenItem pg items = (Json.keysItems items).any (databaseForbids pg)
  | [] => rfl
  | v :: items => by
    rw [hasForbiddenItem, Json.keysItems, List.any_append, hasForbiddenItem_eq pg items,
      ledgerPayloadHasForbiddenKey_eq pg v]

end

/-! ### Trimming -/

private theorem dropWhile_append_of_all {α : Type} {p : α → Bool} {l₁ l₂ : List α}
    (h : ∀ a ∈ l₁, p a = true) : (l₁ ++ l₂).dropWhile p = l₂.dropWhile p := by
  induction l₁ with
  | nil => rfl
  | cons a l₁ ih =>
    rw [List.cons_append, List.dropWhile_cons, if_pos (h a List.mem_cons_self)]
    exact ih fun b hb => h b (List.mem_cons_of_mem a hb)

/-- Removing `p` at both ends of a part without `p` that stands between two parts of `p`. -/
private theorem dropWhile_both_ends {α : Type} {p : α → Bool} {l₁ l l₂ : List α}
    (h₁ : ∀ a ∈ l₁, p a = true) (h : ∀ a ∈ l, p a = false) (h₂ : ∀ a ∈ l₂, p a = true) :
    ((l₁ ++ (l ++ l₂)).dropWhile p).reverse.dropWhile p = l.reverse := by
  rw [dropWhile_append_of_all h₁]
  rcases l with - | ⟨a, l⟩
  · have hnil : l₂.dropWhile p = [] := List.dropWhile_eq_nil_iff.mpr h₂
    rw [List.nil_append, hnil]
    rfl
  · rw [List.cons_append, List.dropWhile_cons, if_neg (by simp [h a List.mem_cons_self]),
      ← List.cons_append, List.reverse_append,
      dropWhile_append_of_all fun b hb => h₂ b (List.mem_reverse.mp hb)]
    exact dropWhile_eq_self fun b hb => h b (List.mem_reverse.mp hb)

private theorem takeWhile_space {l : List Char} :
    ∀ c ∈ l.takeWhile (· == ' '), isWhiteSpace c = true := by
  intro c hc
  have hspace := List.all_takeWhile (p := (· == ' ')) (l := l)
  rw [beq_iff_eq.mp (List.all_eq_true.mp hspace c hc)]
  rfl

/-- A key in which the database leaves no white space is trimmed the same way by both sides. -/
theorem trim_eq_btrim {key : String}
    (h : ∀ c ∈ (Sql.btrim key).toList, isWhiteSpace c = false) : trim key = Sql.btrim key := by
  -- the key is what the database keeps, between the spaces it drops
  have hleft := List.takeWhile_append_dropWhile (p := (· == ' ')) (l := key.toList)
  have hright := List.takeWhile_append_dropWhile (p := (· == ' '))
    (l := (key.toList.dropWhile (· == ' ')).reverse)
  rw [Sql.btrim, String.toList_ofList] at h
  generalize hkept : ((key.toList.dropWhile (· == ' ')).reverse.dropWhile (· == ' ')).reverse = kept
    at h
  have hkey : key.toList = key.toList.takeWhile (· == ' ') ++
      (kept ++ ((key.toList.dropWhile (· == ' ')).reverse.takeWhile (· == ' ')).reverse) := by
    rw [← hkept, ← List.reverse_append, hright, List.reverse_reverse, hleft]
  rw [trim, Sql.btrim, hkept]
  conv => lhs; rw [hkey]
  rw [dropWhile_both_ends takeWhile_space h
    fun c hc => takeWhile_space c (List.mem_reverse.mp hc), List.reverse_reverse]

/-! ### The keys on which the two sides differ -/

/-- What `lower` does in the usual locales: it lowers the ASCII letters and keeps the other ASCII
characters, and it never removes white space. In a Turkish locale a capital `I` is lowered to a
letter outside ASCII. -/
structure Postgres.LowerIsCaseMapping (pg : Postgres) : Prop where
  ascii (text : String) (h : ∀ c ∈ text.toList, c.toNat < 128) :
    pg.lower text = toAsciiLowercase text
  whiteSpace (text : String) (c : Char) (hc : c ∈ text.toList) (h : isWhiteSpace c = true) :
    ∃ d ∈ (pg.lower text).toList, isWhiteSpace d = true

/-- A forbidden word with white space around it that the database does not trim: a tab, a line
break or a white space outside ASCII. -/
def hasOtherWhiteSpace (key : String) : Bool :=
  serverForbids key && (Sql.btrim key).toList.any isWhiteSpace

/-- A word that is forbidden only as the locale lowers its letters outside ASCII. -/
def isLoweredByLocale (pg : Postgres) (key : String) : Bool :=
  databaseForbids pg key && toAsciiLowercase (Sql.btrim key) != pg.lower (Sql.btrim key)

theorem isLowerWord_of_forbidden {word : String} (h : word ∈ forbiddenAuditMetadataKeys) :
    isLowerWord word = true := by
  have hall : ∀ w ∈ forbiddenAuditMetadataKeys, isLowerWord w = true := by decide +kernel
  exact hall word h

theorem not_isWhiteSpace_of_isLowerWord {word : String} (h : isLowerWord word = true) {c : Char}
    (hc : c ∈ word.toList) : isWhiteSpace c = false := by
  have hrange := range_of_isLowerWord h hc
  rw [← Bool.not_eq_true]
  simp only [isWhiteSpace, Bool.or_eq_true, Bool.and_eq_true, decide_eq_true_eq, beq_iff_eq]
  omega

/-- Only a text in ASCII is lowered to a word in ASCII. -/
theorem ascii_of_toAsciiLowercase {text : String} (h : isLowerWord (toAsciiLowercase text) = true) :
    ∀ c ∈ text.toList, c.toNat < 128 := by
  intro c hc
  by_contra hlarge
  have hmem : c ∈ (toAsciiLowercase text).toList := by
    rw [toAsciiLowercase, String.toList_ofList]
    exact List.mem_map.mpr ⟨c, hc, if_neg (by omega)⟩
  have hrange := range_of_isLowerWord h hmem
  omega

section

variable {pg : Postgres} (hlower : pg.LowerIsCaseMapping) {key : String}
include hlower

/-- What the server refuses is refused by the database, unless white space is left. -/
theorem databaseForbids_iff (hserver : serverForbids key = true) :
    databaseForbids pg key = true ↔ hasOtherWhiteSpace key = false := by
  rw [hasOtherWhiteSpace, hserver, Bool.true_and, List.any_eq_false]
  constructor
  · intro hdatabase c hc hspace
    obtain ⟨d, hd, hdspace⟩ := hlower.whiteSpace _ c hc hspace
    have hword := isLowerWord_of_forbidden (List.contains_iff_mem.mp hdatabase)
    rw [not_isWhiteSpace_of_isLowerWord hword hd] at hdspace
    cases hdspace
  · intro hclean
    have htrim := trim_eq_btrim fun c hc => Bool.eq_false_iff.mpr (hclean c hc)
    rw [serverForbids, htrim] at hserver
    have hword := isLowerWord_of_forbidden (List.contains_iff_mem.mp hserver)
    rw [databaseForbids, hlower.ascii _ (ascii_of_toAsciiLowercase hword)]
    exact hserver

/-- What the database refuses is refused by the server, unless the locale made the difference. -/
theorem serverForbids_iff (hdatabase : databaseForbids pg key = true) :
    serverForbids key = true ↔ isLoweredByLocale pg key = false := by
  have hmem := List.contains_iff_mem.mp hdatabase
  have hclean : ∀ c ∈ (Sql.btrim key).toList, isWhiteSpace c = false := by
    intro c hc
    by_contra hspace
    obtain ⟨d, hd, hdspace⟩ := hlower.whiteSpace _ c hc (Bool.eq_true_of_not_eq_false hspace)
    rw [not_isWhiteSpace_of_isLowerWord (isLowerWord_of_forbidden hmem) hd] at hdspace
    cases hdspace
  rw [isLoweredByLocale, hdatabase, Bool.true_and, bne_eq_false_iff_eq, serverForbids,
    trim_eq_btrim hclean]
  constructor
  · intro hserver
    have hword := isLowerWord_of_forbidden (List.contains_iff_mem.mp hserver)
    exact (hlower.ascii _ (ascii_of_toAsciiLowercase hword)).symm
  · intro heq
    rw [heq]
    exact hdatabase

end

/-! ### The scans of a value -/

/-- The scans of the server report a forbidden key in the value if and only if the functions of the
database do: the checks of audit metadata and of ledger payloads, and the scans before either is
displayed. -/
structure ForbiddenKeyScansAgree (pg : Postgres) (value : Json) : Prop where
  metadata : (∃ e, rejectForbiddenMetadataKeys value = .error e) ↔
    Sql.auditMetadataHasForbiddenKey pg value = true
  payload : (∃ e, rejectForbiddenPayloadKeys value = .error e) ↔
    Sql.ledgerPayloadHasForbiddenKey pg value = true
  displayedMetadata : containsForbiddenKey value forbiddenAuditMetadataKeys = true ↔
    Sql.auditMetadataHasForbiddenKey pg value = true
  displayedPayload : ledgerPayloadContainsForbiddenKey value = true ↔
    Sql.ledgerPayloadHasForbiddenKey pg value = true

/-- A key of the value is forbidden on both sides, or the value has no key that one side alone
forbids (or one of either kind, so that both sides refuse it by different keys). -/
def NoKeyTellsApart (pg : Postgres) (value : Json) : Prop :=
  (∃ key ∈ value.keys, serverForbids key = true ∧ hasOtherWhiteSpace key = false) ∨
    ((∃ key ∈ value.keys, hasOtherWhiteSpace key = true) ↔
      ∃ key ∈ value.keys, isLoweredByLocale pg key = true)

theorem rejectForbiddenPayloadKeys_eq_error {value : Json} :
    (∃ e, rejectForbiddenPayloadKeys value = .error e) ↔
      ∃ key ∈ value.keys, serverForbids key = true := by
  have hok := rejectForbiddenPayloadKeys_iff value
  cases hreject : rejectForbiddenPayloadKeys value with
  | ok u =>
    refine iff_of_false (by simp) ?_
    rintro ⟨key, hkey, hforbidden⟩
    rw [hok.mp hreject key hkey] at hforbidden
    cases hforbidden
  | error e =>
    refine iff_of_true ⟨e, rfl⟩ ?_
    by_contra hnone
    have hclean : ∀ key ∈ value.keys, serverForbids key = false := fun key hkey =>
      Bool.eq_false_iff.mpr fun hforbidden => hnone ⟨key, hkey, hforbidden⟩
    rw [hok.mpr hclean] at hreject
    cases hreject

theorem forbiddenKeyScansAgree_iff (pg : Postgres) (value : Json) :
    ForbiddenKeyScansAgree pg value ↔
      ((∃ key ∈ value.keys, serverForbids key = true) ↔
        ∃ key ∈ value.keys, databaseForbids pg key = true) := by
  have hdatabase : Sql.ledgerPayloadHasForbiddenKey pg value = true ↔
      ∃ key ∈ value.keys, databaseForbids pg key = true := by
    rw [Sql.ledgerPayloadHasForbiddenKey_eq, List.any_eq_true]
  have hmetadata : containsForbiddenKey value forbiddenAuditMetadataKeys = true ↔
      ∃ key ∈ value.keys, serverForbids key = true := List.any_eq_true
  have hpayload : ledgerPayloadContainsForbiddenKey value = true ↔
      ∃ key ∈ value.keys, serverForbids key = true := by
    simp only [ledgerPayloadContainsForbiddenKey_eq, List.any_eq_true, isForbiddenPayloadKey_eq]
  constructor
  · intro h
    rw [← hmetadata, ← hdatabase]
    exact h.displayedMetadata
  · intro h
    rw [← hdatabase] at h
    exact ⟨rejectForbiddenMetadataKeys_eq_error.trans h,
      rejectForbiddenPayloadKeys_eq_error.trans h, hmetadata.trans h, hpayload.trans h⟩

/-- **The scans agree unless a key tells them apart.** The scans of the server and of the database
report a forbidden key in the same values, except in those where the only forbidden keys are words
that one of them normalises to a forbidden word and the other does not. -/
theorem forbiddenKeyScans_agree_iff (pg : Postgres) (hlower : pg.LowerIsCaseMapping)
    (value : Json) : ForbiddenKeyScansAgree pg value ↔ NoKeyTellsApart pg value := by
  rw [forbiddenKeyScansAgree_iff, NoKeyTellsApart]
  by_cases hboth : ∃ key ∈ value.keys, serverForbids key = true ∧ hasOtherWhiteSpace key = false
  · -- one key is enough for both sides
    obtain ⟨key, hkey, hserver, hclean⟩ := hboth
    have hdatabase := (databaseForbids_iff hlower hserver).mpr hclean
    exact iff_of_true (iff_of_true ⟨key, hkey, hserver⟩ ⟨key, hkey, hdatabase⟩)
      (.inl ⟨key, hkey, hserver, hclean⟩)
  · -- now every forbidden key is forbidden on one side only
    have hspace : ∀ key ∈ value.keys, serverForbids key = true ↔ hasOtherWhiteSpace key = true := by
      intro key hkey
      refine ⟨fun hserver => ?_, fun h => (Bool.and_eq_true_iff.mp h).1⟩
      exact Bool.eq_true_of_not_eq_false fun hclean => hboth ⟨key, hkey, hserver, hclean⟩
    have hlocale : ∀ key ∈ value.keys,
        databaseForbids pg key = true ↔ isLoweredByLocale pg key = true := by
      intro key hkey
      refine ⟨fun hdatabase => ?_, fun h => (Bool.and_eq_true_iff.mp h).1⟩
      refine Bool.eq_true_of_not_eq_false fun hplain => ?_
      have hserver := (serverForbids_iff hlower hdatabase).mpr hplain
      exact hboth ⟨key, hkey, hserver, (databaseForbids_iff hlower hserver).mp hdatabase⟩
    rw [or_iff_right hboth, exists_congr fun key => and_congr_right (hspace key),
      exists_congr fun key => and_congr_right (hlocale key)]

theorem lowerIsCaseMapping_samplePostgres : samplePostgres.LowerIsCaseMapping where
  ascii _ _ := rfl
  whiteSpace text c hc h := by
    refine ⟨c, ?_, h⟩
    simp only [isWhiteSpace, Bool.or_eq_true, Bool.and_eq_true, decide_eq_true_eq,
      beq_iff_eq] at h
    have hlowered : (samplePostgres.lower text).toList = text.toList.map fun c =>
        if 65 ≤ c.toNat ∧ c.toNat ≤ 90 then Char.ofNat (c.toNat + 32) else c :=
      String.toList_ofList
    rw [hlowered]
    exact List.mem_map.mpr ⟨c, hc, if_neg (by omega)⟩

/-- An instance: a password below an array is seen by every scan. -/
theorem forbiddenKeyScans_agree_nested :
    ForbiddenKeyScansAgree samplePostgres
      (.object [("items", .array [.object [(" Password ", .null)]])]) :=
  (forbiddenKeyScans_agree_iff samplePostgres lowerIsCaseMapping_samplePostgres _).mpr
    (.inl ⟨" Password ", by decide +kernel⟩)

/-- A password under a key that starts with a tab is refused by the server and accepted by the
database. -/
theorem forbiddenKeyScans_differ_tab :
    (∃ e, rejectForbiddenMetadataKeys (.object [("\tpassword", .null)]) = .error e) ∧
      Sql.auditMetadataHasForbiddenKey samplePostgres (.object [("\tpassword", .null)]) = false ∧
      ¬ ForbiddenKeyScansAgree samplePostgres (.object [("\tpassword", .null)]) := by
  have hserver : ∃ e, rejectForbiddenMetadataKeys (.object [("\tpassword", .null)]) = .error e :=
    ⟨.forbiddenMetadataKey "\tpassword", by decide +kernel⟩
  have hdatabase :
      Sql.auditMetadataHasForbiddenKey samplePostgres (.object [("\tpassword", .null)]) =
        false := by
    decide +kernel
  refine ⟨hserver, hdatabase, fun hagree => ?_⟩
  rw [hagree.metadata.mp hserver] at hdatabase
  cases hdatabase

end Mipsorcu
