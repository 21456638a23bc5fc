import Mipsorcu.Server.LedgerParity
import Mipsorcu.Server.WriteDrafts

/-!
# Accepted write requests and the ledger

A write request is parsed with no bound on the length of its classification and its device, while
the ledger entry that records the write has to hold both. `WriteIsRecordable` is what an accepted
request needs: its draft can be built, the draft can be signed after any head that has room, and
the device and the payload of the entry pass the checks of `rpc_append_ledger_entry`.

It holds exactly if the classification and the device have at most 128 bytes and no character
U+0000, which the request parsers do not check (`acceptedRequests_recordable_iff`).
-/

namespace Mipsorcu

open Sql

/-! ### What has to follow from an accepted request -/

/-- The checks of `rpc_append_ledger_entry` on the device and the payload of a row, and that the
engine can read them. -/
def Sql.deviceAndPayloadAreValid (pg : Postgres) (row : LedgerEntryRow) : Bool :=
  row.actorDeviceId.all (fun text => isText text && isNonBlankShort text) &&
    (match row.payload with
      | .object members => members.all memberIsReadable
      | _ => true) &&
    ledgerPayloadIsValid pg row.entryType row.payload

/-- They are among the checks of the procedure: a new row that is stored has passed them. -/
theorem Sql.deviceAndPayloadAreValid_of_append {pg : Postgres} {db db' : LedgerDb}
    {args : AppendLedgerEntryArgs} {row : LedgerEntryRow} {result : AppendLedgerEntryRow}
    (hrow : args.row? = some row) (hfresh : ∀ e ∈ db.entries, e.id ≠ row.id)
    (h : readAndAppendLedgerEntry pg db args = .ok (db', result)) :
    deviceAndPayloadAreValid pg row = true := by
  simp only [readAndAppendLedgerEntry, hrow, Option.all_some, Result.bind_eq_ok,
    Result.require_eq_ok, exists_const] at h
  have hvalues := ((rpcAppendLedgerEntry_iff_stores hrow hfresh).mp ⟨db', result, h.2⟩).values
  have hreadable := h.1
  simp only [argumentValuesAreValid, rowIsReadable, Bool.and_eq_true] at hvalues hreadable
  obtain ⟨⟨⟨⟨⟨⟨-, hdevice⟩, -⟩, -⟩, -⟩, -⟩, hpayload⟩ := hvalues
  obtain ⟨⟨⟨-, htext⟩, -⟩, hmembers⟩ := hreadable
  have hboth : row.actorDeviceId.all (fun text => isText text && isNonBlankShort text) = true := by
    cases hd : row.actorDeviceId with
    | none => rfl
    | some device =>
      rw [hd, Option.all_some] at hdevice htext
      rw [Option.all_some, hdevice, htext]
      rfl
  rw [deviceAndPayloadAreValid, hboth, hpayload, Bool.and_true, Bool.true_and]
  exact hmembers

/-- The write of a prepared version can be recorded after every head that has room. -/
def WriteIsRecordable (P : Primitives) (pg : Postgres) (origin : DraftOrigin)
    (requestId : RequestId) (prepared : PreparedSecretVersion) : Prop :=
  ∃ d, buildWriteLedgerDraft origin requestId prepared = .ok d ∧
    ∀ (head : LedgerChainHead) (key : LedgerSigningKey), head.lastSequenceNo < ledgerI64Max →
      ∃ e, d.signWithChainHead P head key = .ok e ∧
        deviceAndPayloadAreValid pg (.ofSigned e) = true

/-- The text fits an entry of the ledger. -/
def fitsLedger (text : String) : Bool :=
  decide (byteLength text ≤ 128) && isText text

/-- The clock and the random source answer. -/
structure DraftOrigin.Answers (origin : DraftOrigin) : Prop where
  sourceEventAt : ∃ time, origin.sourceEventAt = .ok time
  ledgerEntryId : ∃ id, origin.ledgerEntryId = .ok id
  sourceEventId : ∃ id, origin.sourceEventId = .ok id

/-- The size of a flat `jsonb` object: its texts take no more bytes than in the compact text, and
the headers, offsets and alignments fewer than 24 bytes for the object and for each member. -/
def Postgres.JsonbIsCompact (pg : Postgres) : Prop :=
  ∀ members : List (String × Json), (∀ m ∈ members, m.2.isContainer = false) →
    pg.pgColumnSize (.object members) ≤
      (Json.object members).toBytes.length + 24 * (members.length + 1)

/-! ### The payload -/

namespace PreparedSecretVersion

variable (prepared : PreparedSecretVersion)

theorem payloadShape_writePayload :
    PayloadShape prepared.writeAction.entryType prepared.writePayload where
  allowed := by
    cases prepared.writeAction <;>
      simp [writePayload, SecretWriteAction.entryType, LedgerEntryType.allowedPayloadKeys]
  scalar := prepared.scalar_writePayload
  required := by
    cases prepared.writeAction <;> rintro ⟨⟩
  distinct old new hold := by
    simp [writePayload] at hold

private theorem length_toDigits_u32 {n : ℕ} (h : n < 4294967296) :
    (Nat.toDigits 10 n).length ≤ 10 :=
  (Nat.length_toDigits_le_iff (by decide) (by decide)).mpr (by omega)

/-- With a classification of at most 128 characters the payload is small. -/
theorem length_toBytes_writePayload (h : prepared.classification.text.length ≤ 128) :
    (Json.object prepared.writePayload).toBytes.length ≤ 3800 := by
  have hwrite := Json.length_toBytes_le (.object prepared.writePayload)
  have hclassification := Json.length_writeString_le prepared.classification.text
  have hkeyVersion := length_toDigits_u32 prepared.keyVersion.number.lt
  have hversion := length_toDigits_u32 prepared.version.number.lt
  have hfixed : (Json.writeString "algorithm").length = 11 ∧
      (Json.writeString "classification").length = 16 ∧
      (Json.writeString "key_version").length = 13 ∧ (Json.writeString "version").length = 9 ∧
      (Json.writeString algorithmXChaCha20Poly1305).length = 20 := by decide +kernel
  obtain ⟨h1, h2, h3, h4, h5⟩ := hfixed
  simp only [writePayload, Json.nat, Json.write, Json.writeMember, Json.writeMoreMembers,
    Json.writeNumber, List.length_cons, List.length_append, List.length_nil, h1, h2, h3, h4, h5,
    KeyVersion.get, SecretVersion.get] at hwrite ⊢
  omega

/-- The server accepts the payload exactly if the classification is short. -/
theorem checkPayload_writePayload :
    checkPayload prepared.writeAction.entryType prepared.writePayload = .ok () ↔
      byteLength prepared.classification.text ≤ 128 := by
  -- the two numbers are below 2^32, far from the limit
  have hnumber : ∀ (key : String) (n : NonZeroU32), key ∈ ["key_version", "version"] →
      validatePayloadField key (.nat n.val) = .ok () := by
    intro key n hkey
    have hmax : ¬ n.val > ledgerI64Max := by
      have hlt := n.lt
      simp only [ledgerI64Max]
      omega
    have hne : n.val ≠ 0 := Nat.pos_iff_ne_zero.mp n.pos
    simp only [List.mem_cons, List.not_mem_nil, or_false] at hkey
    rcases hkey with rfl | rfl <;>
      simp [validatePayloadField, positivePayloadKeys, requirePositiveJsonU64, requireJsonU64,
        Json.nat, Json.asU64, hmax, hne, bind, Except.bind]
  have hclassification : validatePayloadField "classification"
      (.string prepared.classification.text) = .ok () ↔
        byteLength prepared.classification.text ≤ 128 := by
    simp [validatePayloadField, positivePayloadKeys, nonNegativePayloadKeys,
      validateClassificationValue, requireString, Json.asStr, Result.require_eq_ok,
      isNonBlankShort, prepared.classification.isNotBlank]
  have halgorithm : validatePayloadField "algorithm" (.string algorithmXChaCha20Poly1305) =
      .ok () := by decide +kernel
  have hfields : (∀ m ∈ prepared.writePayload, validatePayloadField m.1 m.2 = .ok ()) ↔
      byteLength prepared.classification.text ≤ 128 := by
    simp only [writePayload, List.forall_mem_cons, halgorithm, hclassification, true_and,
      KeyVersion.get, SecretVersion.get, hnumber "key_version" _ (by decide),
      hnumber "version" _ (by decide), List.not_mem_nil, false_implies, implies_true, and_true]
  rw [checkPayload_eq_ok prepared.sorted_writePayload, hfields,
    and_iff_right prepared.payloadShape_writePayload, and_iff_left_iff_imp]
  -- a short classification leaves the payload below its limit
  intro hshort
  have hlength := length_le_length_utf8Bytes prepared.classification.text
  have hsize := prepared.length_toBytes_writePayload (hlength.trans hshort)
  exact hsize.trans (by decide)

end PreparedSecretVersion

/-! ### The draft and its signature -/

section

variable {P : Primitives} {pg : Postgres} {origin : DraftOrigin} {requestId : RequestId}
  {prepared : PreparedSecretVersion}

theorem LedgerPayload.exists_new_writePayload :
    (∃ p, LedgerPayload.new prepared.writeAction.entryType (.object prepared.writePayload) =
      .ok p) ↔ byteLength prepared.classification.text ≤ 128 := by
  rw [← prepared.checkPayload_writePayload]
  have hobject : SortedMap.ofList (Json.normalizeMembers prepared.writePayload) =
      prepared.writePayload := by
    rw [Json.normalizeMembers_of_scalar prepared.scalar_writePayload,
      SortedMap.ofList_eq_self prepared.sorted_writePayload]
  constructor
  · rintro ⟨p, hp⟩
    obtain ⟨htype, hmembers⟩ := LedgerPayload.ofSorted_eq_ok.mp hp
    rw [← htype, ← hmembers.trans hobject]
    exact p.valid
  · intro hvalid
    exact ⟨⟨_, _, prepared.sorted_writePayload, hvalid⟩,
      LedgerPayload.ofSorted_eq_ok.mpr ⟨rfl, hobject.symm⟩⟩

/-- The draft of a write can be built exactly if the classification is short. -/
theorem exists_buildWriteLedgerDraft (horigin : origin.Answers) :
    (∃ d, buildWriteLedgerDraft origin requestId prepared = .ok d) ↔
      byteLength prepared.classification.text ≤ 128 := by
  rw [← LedgerPayload.exists_new_writePayload]
  obtain ⟨⟨time, htime⟩, ⟨entryId, hentryId⟩, ⟨eventId, heventId⟩⟩ := horigin
  have hparse : LedgerTargetSecretVersionId.parse prepared.secretVersionId.asCanonicalString =
      .ok ⟨prepared.secretVersionId.uuid⟩ := by
    simp [LedgerTargetSecretVersionId.parse, SecretVersionId.asCanonicalString]
  simp only [buildWriteLedgerDraft, versionDraft, hparse, htime, hentryId, heventId,
    Result.ok_bind, Result.bind_eq_ok]
  constructor
  · rintro ⟨d, p, hp, -⟩
    exact ⟨p, hp⟩
  · rintro ⟨p, hp⟩
    have htype : p.entryType = prepared.writeAction.entryType :=
      (LedgerPayload.ofSorted_eq_ok.mp hp).1
    exact ⟨_, p, hp, dif_pos htype⟩

/-- A draft without an error code can be signed exactly if the device is short. -/
theorem LedgerAppendDraft.exists_signWithChainHead {d : LedgerAppendDraft} {head : LedgerChainHead}
    {key : LedgerSigningKey} {device : DeviceId} (herror : d.errorCode = none)
    (hdevice : d.actorDeviceId = some device) (hroom : head.lastSequenceNo < ledgerI64Max) :
    (∃ e, d.signWithChainHead P head key = .ok e) ↔ byteLength device.text ≤ 128 := by
  have hnext : head.nextSequenceNo =
      .ok ⟨head.lastSequenceNo + 1, Nat.succ_pos _, hroom⟩ :=
    LedgerChainHead.nextSequenceNo_eq_ok.mpr rfl
  rw [signWithChainHead, hnext, Result.ok_bind]
  generalize hparts : d.entryParts ⟨head.lastSequenceNo + 1, Nat.succ_pos _, hroom⟩
    head.lastEntryHash key.keyVersion = parts
  have hcheck : parts.check = .ok () ↔ byteLength device.text ≤ 128 := by
    rw [← hparts]
    simp [LedgerEntryParts.check, entryParts, d.payload_entryType, herror, hdevice,
      validateErrorCode, validateActorDeviceId, Result.require_eq_ok, bind, Except.bind]
  rw [← hcheck, signWithSequence, hparts]
  simp only [Result.bind_eq_ok, LedgerEntryDraft.new_eq_ok, LedgerEntryDraft.sign_eq_ok]
  constructor
  · rintro ⟨e, draft, rfl, -⟩
    exact draft.valid
  · intro hvalid
    have hversion : key.keyVersion = parts.signatureKeyVersion := by
      rw [← hparts]
      rfl
    exact ⟨_, ⟨parts, hvalid⟩, rfl, hversion, rfl⟩

/-- The database's checks of the device and the payload of the entry of a write. -/
theorem Sql.deviceAndPayloadAreValid_iff (hlower : pg.LowerKeepsWords)
    (hcompact : pg.JsonbIsCompact) {e : SignedLedgerEntry}
    (hdevice : e.actorDeviceId = some prepared.createdByDeviceId)
    (hpayload : e.payload.object = prepared.writePayload)
    (hclassification : byteLength prepared.classification.text ≤ 128) :
    deviceAndPayloadAreValid pg (.ofSigned e) = true ↔
      isText prepared.createdByDeviceId.text = true ∧
        isText prepared.classification.text = true := by
  have hshort : Sql.isNonBlankShort prepared.createdByDeviceId.text = true := by
    have htexts := e.texts.2.2
    rw [hdevice, Option.all_some] at htexts
    exact Sql.isNonBlankShort_of_server htexts
  -- the schema accepts the payload anyway: it is small, and the server checked its members
  have hvalid :
      ledgerPayloadIsValid pg e.entryType.asStr (.object prepared.writePayload) = true := by
    have hiff := e.payload.isValid_iff hlower
    rw [e.payload_entryType, LedgerPayload.asValue, hpayload] at hiff
    refine hiff.mpr ⟨?_, ?_⟩
    · have hlength := length_le_length_utf8Bytes prepared.classification.text
      have hsize := prepared.length_toBytes_writePayload (hlength.trans hclassification)
      have hcolumn := hcompact _ prepared.scalar_writePayload
      have hfour : prepared.writePayload.length = 4 := rfl
      omega
    · -- none of the four members is a time
      intro m hm htime
      have hkeys : ∀ key ∈ prepared.writePayload.map Prod.fst, key ∉ timePayloadKeys :=
        show ∀ key ∈ ["algorithm", "classification", "key_version", "version"],
          key ∉ timePayloadKeys by decide +kernel
      exact absurd htime (hkeys m.1 (List.mem_map_of_mem hm))
  have hreadable : prepared.writePayload.all memberIsReadable = true ↔
      isText prepared.classification.text = true := by
    have halgorithm :
        memberIsReadable ("algorithm", .string algorithmXChaCha20Poly1305) = true := by
      decide +kernel
    have hkey : "classification" ∉ timePayloadKeys := by decide +kernel
    have htext : memberIsReadable ("classification", .string prepared.classification.text) =
        isText prepared.classification.text := by
      simp [memberIsReadable, hkey]
    have hnat : ∀ key n, memberIsReadable (key, .nat n) = true := fun _ _ => rfl
    simp only [PreparedSecretVersion.writePayload, List.all_cons, halgorithm, htext, hnat,
      List.all_nil, Bool.and_true, Bool.true_and]
  simp only [deviceAndPayloadAreValid, LedgerEntryRow.ofSigned, hdevice, Option.map_some,
    Option.all_some, hshort, Bool.and_true, LedgerPayload.asValue, hpayload, hvalid,
    Bool.and_eq_true, hreadable]

/-- **A prepared version can be recorded exactly if its two texts fit the ledger.** -/
theorem writeIsRecordable_iff (hlower : pg.LowerKeepsWords) (hcompact : pg.JsonbIsCompact)
    (horigin : origin.Answers) :
    WriteIsRecordable P pg origin requestId prepared ↔
      fitsLedger prepared.classification.text = true ∧
        fitsLedger prepared.createdByDeviceId.text = true := by
  simp only [fitsLedger, Bool.and_eq_true, decide_eq_true_eq]
  constructor
  · rintro ⟨d, hd, hsigns⟩
    have hdraft := buildWriteLedgerDraft_eq_ok hd
    have hclassification := (exists_buildWriteLedgerDraft horigin).mp ⟨d, hd⟩
    -- any head and any key will do
    have hroom : LedgerChainHead.genesis.lastSequenceNo < ledgerI64Max := by decide
    obtain ⟨e, he, hvalid⟩ := hsigns .genesis sampleKey hroom
    have hdevice := (LedgerAppendDraft.exists_signWithChainHead hdraft.errorCode
      hdraft.actorDeviceId hroom).mp ⟨e, he⟩
    have hrecorded := (LedgerAppendDraft.signWithChainHead_eq_ok.mp he).2.1
    obtain ⟨htext, htext'⟩ := (deviceAndPayloadAreValid_iff hlower hcompact
      ((congrArg (·.actorDeviceId) hrecorded).trans hdraft.actorDeviceId)
      ((congrArg (·.payload.object) hrecorded).trans hdraft.payload) hclassification).mp hvalid
    exact ⟨⟨hclassification, htext'⟩, hdevice, htext⟩
  · rintro ⟨⟨hclassification, htext'⟩, hdevice, htext⟩
    obtain ⟨d, hd⟩ := (@exists_buildWriteLedgerDraft origin requestId prepared horigin).mpr
      hclassification
    have hdraft := buildWriteLedgerDraft_eq_ok hd
    refine ⟨d, hd, fun head key hroom => ?_⟩
    obtain ⟨e, he⟩ := (LedgerAppendDraft.exists_signWithChainHead hdraft.errorCode
      hdraft.actorDeviceId hroom).mpr hdevice
    have hrecorded := (LedgerAppendDraft.signWithChainHead_eq_ok.mp he).2.1
    exact ⟨e, he, (deviceAndPayloadAreValid_iff hlower hcompact
      ((congrArg (·.actorDeviceId) hrecorded).trans hdraft.actorDeviceId)
      ((congrArg (·.payload.object) hrecorded).trans hdraft.payload) hclassification).mpr
      ⟨htext, htext'⟩⟩

end

/-! ### Requests -/

theorem text_of_parseClassification {value : String} {classification : Classification}
    (h : parseClassification value = .ok classification) : classification.text = value := by
  rw [parseClassification, Result.mapError_eq_ok, Classification.new] at h
  split at h <;> cases h
  rfl

theorem text_of_parseDeviceId {value : String} {deviceId : DeviceId}
    (h : parseDeviceId value = .ok deviceId) : deviceId.text = value := by
  rw [parseDeviceId, Result.mapError_eq_ok, DeviceId.new] at h
  split at h <;> cases h
  rfl

/-- **Which accepted requests can be recorded.** For an accepted create request and the version
prepared from it, exactly those whose classification and device have at most 128 bytes and no
character U+0000; for a rotate request likewise, with the classification of the secret. -/
theorem acceptedRequests_recordable_iff (P : Primitives) (pg : Postgres)
    (hlower : pg.LowerKeepsWords) (hcompact : pg.JsonbIsCompact) (origin : DraftOrigin)
    (horigin : origin.Answers) (requestId : RequestId) (cipher : XChaCha20Poly1305)
    (random : WriteRandomness) (ring : MasterKeyRing) (now : DateTime)
    (prepared : PreparedSecretVersion) :
    (∀ (body : CreateSecretRequest) (parsed : ParsedCreateSecretRequest)
      (ownerUserId : OwnerUserId), parseCreateSecretRequest now body = .ok parsed →
      prepareNewSecretVersionWithKeyring cipher random ring {
        ownerUserId, classification := parsed.classification,
        createdByDeviceId := parsed.deviceId, createdAt := parsed.createdAt,
        plaintext := parsed.plaintext } = .ok prepared →
      (WriteIsRecordable P pg origin requestId prepared ↔
        fitsLedger body.classification = true ∧ fitsLedger body.deviceId = true)) ∧
    ∀ (body : RotateSecretRequest) (parsed : ParsedRotateSecretRequest)
      (current : CurrentSecretVersionState), parseRotateSecretRequest now body = .ok parsed →
      prepareExistingSecretVersionWithKeyring cipher random ring {
        current, createdByDeviceId := parsed.deviceId, createdAt := parsed.createdAt,
        plaintext := parsed.plaintext } = .ok prepared →
      (WriteIsRecordable P pg origin requestId prepared ↔
        fitsLedger current.classification.text = true ∧ fitsLedger body.deviceId = true) := by
  rw [@writeIsRecordable_iff P pg origin requestId prepared hlower hcompact horigin]
  constructor
  · intro body parsed ownerUserId hparse hprepare
    simp only [parseCreateSecretRequest, Result.bind_eq_ok, Result.pure_eq_ok] at hparse
    obtain ⟨classification, hclassification, deviceId, hdevice, _, -, _, -, rfl⟩ := hparse
    obtain ⟨_, _, _, -, -, hfrom⟩ := prepareNewSecretVersionWithKeyring_eq_ok hprepare
    rw [hfrom.classification_eq, hfrom.createdByDeviceId_eq,
      ← text_of_parseClassification hclassification, ← text_of_parseDeviceId hdevice]
  · intro body parsed current hparse hprepare
    simp only [parseRotateSecretRequest, Result.bind_eq_ok, Result.pure_eq_ok] at hparse
    obtain ⟨deviceId, hdevice, _, -, _, -, rfl⟩ := hparse
    obtain ⟨_, _, _, -, -, hfrom⟩ := prepareExistingSecretVersionWithKeyring_eq_ok hprepare
    rw [hfrom.classification_eq, hfrom.createdByDeviceId_eq, ← text_of_parseDeviceId hdevice]

theorem jsonbIsCompact_samplePostgres : samplePostgres.JsonbIsCompact := by
  intro members _
  exact Nat.le_add_right _ _

theorem answers_sampleOrigin : (sampleOrigin 0).Answers :=
  ⟨⟨_, rfl⟩, ⟨_, rfl⟩, ⟨_, rfl⟩⟩

/-- An instance: the sample request can be recorded. -/
theorem acceptedRequests_recordable_sample :
    WriteIsRecordable samplePrimitives samplePostgres (sampleOrigin 0) ⟨sampleUuid 9⟩
      (samplePrepared sampleMicros 5 sampleMicrosCiphertext) := by
  have hsealed : sampleEncryption sampleMicros 5 sampleMicrosCiphertext ∈ sampleSealings := by
    simp [sampleSealings]
  have hiff := (acceptedRequests_recordable_iff samplePrimitives samplePostgres
    lowerKeepsWords_samplePostgres jsonbIsCompact_samplePostgres (sampleOrigin 0)
    answers_sampleOrigin ⟨sampleUuid 9⟩ sampleCipher (sampleRandom 5) sampleRing sampleMicros
    (samplePrepared sampleMicros 5 sampleMicrosCiphertext)).1 sampleCreateRequest
    (sampleParsed sampleMicros) sampleOwner (parse_sampleCreateRequest sampleMicros)
    (prepare_sampleInput hsealed)
  exact hiff.mpr (by decide +kernel)

/-! ### A request with a long device -/

/-- A device of 129 bytes. -/
def longDevice : DeviceId :=
  ⟨String.ofList (List.replicate 129 'd'), by decide +kernel⟩

/-- The device of a version is the one of the input, and nothing else depends on it. -/
theorem prepareNewSecretVersionWithKeyring_device {cipher : XChaCha20Poly1305}
    {random : WriteRandomness} {ring : MasterKeyRing} {input : NewSecretVersionInput}
    {p : PreparedSecretVersion} (deviceId : DeviceId)
    (h : prepareNewSecretVersionWithKeyring cipher random ring input = .ok p) :
    prepareNewSecretVersionWithKeyring cipher random ring
      { input with createdByDeviceId := deviceId } =
        .ok { p with createdByDeviceId := deviceId } := by
  simp only [prepareNewSecretVersionWithKeyring, prepareSecretVersionWithDataKey,
    Result.bind_eq_ok, Result.pure_eq_ok] at h ⊢
  obtain ⟨secretId, hsecretId, dataKey, hdataKey, key, hkey, versionId, hversionId, payload,
    hpayload, rfl⟩ := h
  exact ⟨secretId, hsecretId, dataKey, hdataKey, key, hkey, versionId, hversionId, payload,
    hpayload, rfl⟩

/-- A create request with a device of 129 bytes is accepted and its version is prepared, but the
entry of its write can never be signed. -/
theorem acceptedRequest_not_recordable :
    ∃ parsed prepared, parseCreateSecretRequest sampleMicros
        { sampleCreateRequest with deviceId := longDevice.text } = .ok parsed ∧
      prepareNewSecretVersionWithKeyring sampleCipher (sampleRandom 5) sampleRing {
        ownerUserId := sampleOwner, classification := parsed.classification,
        createdByDeviceId := parsed.deviceId, createdAt := parsed.createdAt,
        plaintext := parsed.plaintext } = .ok prepared ∧
      ¬ WriteIsRecordable samplePrimitives samplePostgres (sampleOrigin 0) ⟨sampleUuid 9⟩
        prepared := by
  have hclassification : parseClassification sampleCreateRequest.classification =
      .ok sampleClassification := by decide +kernel
  have hdevice : parseDeviceId longDevice.text = .ok longDevice := by
    rw [parseDeviceId, DeviceId.new_text]
    rfl
  have hplaintext : parseHexPlaintext sampleCreateRequest.plaintextHex =
      .ok samplePlaintext := by decide +kernel
  have hsealed : sampleEncryption sampleMicros 5 sampleMicrosCiphertext ∈ sampleSealings := by
    simp [sampleSealings]
  have hprepare :=
    prepareNewSecretVersionWithKeyring_device longDevice (prepare_sampleInput hsealed)
  refine ⟨{ sampleParsed sampleMicros with deviceId := longDevice }, _, ?_, hprepare, ?_⟩
  · simp only [parseCreateSecretRequest, hclassification, hdevice, hplaintext,
      currentCreatedAt_eq, Result.ok_bind]
    rfl
  · rw [writeIsRecordable_iff lowerKeepsWords_samplePostgres jsonbIsCompact_samplePostgres
      answers_sampleOrigin]
    rintro ⟨-, hfits⟩
    have hlong : fitsLedger longDevice.text = false := by decide +kernel
    exact Bool.false_ne_true (hlong.symm.trans hfits)

end Mipsorcu
