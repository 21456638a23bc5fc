import Mipsorcu.Protocol.LedgerState

/-!
# The append protocol

Any number of clients append to one ledger. A client fetches the chain head, signs its draft
after it, calls the append procedure and, when the head was stale, starts over with the same
draft. Each call is one transaction; between the steps of a client any other client may act, and
a request or a response may be lost. A client that stops acting has crashed.

The abstract system is a list of drafts with distinct identifiers that grows at its end
(`Logs.Step`). `AppendSystem.simulation` relates the two, step by step, and the safety of the
ledger follows (`AppendSystem.ledgerSafe_of_reachable`).
-/

namespace Mipsorcu

/-! ### One client -/

/-- Where a client is in its append. -/
inductive AppendPhase where
  /-- It is about to fetch the chain head. -/
  | fetching (retryIndex : ℕ)
  /-- It has signed an entry and is about to call the append procedure. -/
  | calling (retryIndex : ℕ) (entry : SignedLedgerEntry)
  | finished (result : Except LedgerAppendError AppendLedgerEntryOutcome)

/-- What can happen to a client. -/
inductive AppendAction where
  | fetchHead
  /-- The request for the head or its response is lost. -/
  | headLost
  | call
  /-- The call is committed, and its response is lost. -/
  | responseLost
  /-- The call never reaches the database. -/
  | requestLost
  deriving DecidableEq

/-- A client: an appender with the draft it appends. -/
structure AppendClient where
  appender : LedgerAppender
  draft : LedgerAppendDraft

namespace AppendClient

variable (P : Primitives) (pg : Postgres)

/-- The client receives the chain head. -/
def onHead (c : AppendClient) (retryIndex : ℕ)
    (response : Except SupabaseRpcError LedgerChainHead) : AppendPhase :=
  let signed := do
    let head ← LedgerAppender.fetchChainHead response (retryIndex + 1)
    c.appender.signAttempt P c.draft head
  match signed with
  | .ok entry => .calling retryIndex entry
  | .error error => .finished (.error error)

/-- The client receives the response of the append procedure. The loop is left through a return,
as the last retry index is never retried. -/
def onResponse (c : AppendClient) (retryIndex : ℕ)
    (response : Except SupabaseRpcError AppendLedgerEntryOutcome) : AppendPhase :=
  match c.appender.afterResponse retryIndex response with
  | some result => .finished result
  | none => .fetching (retryIndex + 1)

/-- One action of the client: the tables and its phase afterwards. -/
def next (c : AppendClient) (db : LedgerDb) :
    AppendPhase → AppendAction → Option (LedgerDb × AppendPhase)
  | .fetching k, .fetchHead => some (db, c.onHead P k (fetchLedgerChainHead db))
  | .fetching k, .headLost => some (db, c.onHead P k (.error .network))
  | .calling k e, .call =>
    let (db', response) := callAppendLedgerEntry pg db e
    some (db', c.onResponse k response)
  | .calling k e, .responseLost =>
    let (db', _) := callAppendLedgerEntry pg db e
    some (db', c.onResponse k (.error .network))
  | .calling k _, .requestLost => some (db, c.onResponse k (.error .network))
  | _, _ => none

/-- `e` is an entry the client signed for its draft. -/
def Signs (c : AppendClient) (e : SignedLedgerEntry) : Prop :=
  e.recorded = c.draft.toLedgerAppendDraftParts ∧ SignedBy P c.appender.signingKey e

variable {P pg} {c : AppendClient} {db db' : LedgerDb} {phase phase' : AppendPhase}
  {action : AppendAction}

variable {e : SignedLedgerEntry}

/-- A call is made with the entry that was signed for the head. -/
theorem onHead_eq_calling {k k' : ℕ} {response : Except SupabaseRpcError LedgerChainHead}
    (h : c.onHead P k response = .calling k' e) : c.Signs P e := by
  simp only [onHead] at h
  split at h
  · rename_i entry hsigned
    cases h
    simp only [Result.bind_eq_ok, LedgerAppender.signAttempt, Result.mapError_eq_ok] at hsigned
    obtain ⟨head, -, hsign⟩ := hsigned
    exact (LedgerAppendDraft.signWithChainHead_eq_ok.mp hsign).2
  · cases h

variable {k : ℕ}

/-- The client calls with the entry it can sign after the head. -/
theorem next_fetchHead_of_extends {head : LedgerChainHead}
    (hhead : fetchLedgerChainHead db = .ok head) (hext : Extends P head e) (h : c.Signs P e) :
    c.next P pg db (.fetching k) .fetchHead = some (db, .calling k e) := by
  have hsign : c.draft.signWithChainHead P head c.appender.signingKey = .ok e :=
    LedgerAppendDraft.signWithChainHead_eq_ok.mpr ⟨hext, h⟩
  simp [next, hhead, onHead, LedgerAppender.fetchChainHead, LedgerAppender.signAttempt, hsign]

/-- An entry the database accepts is added, and the append returns. -/
theorem next_call_of_accepts (h : Accepts pg db e) :
    c.next P pg db (.calling k e) .call = some (db.add e,
      .finished (.ok ⟨e.ledgerEntryId, e.sequenceNo, e.entryHash, .after e, false⟩)) := by
  rw [next, h.callAppendLedgerEntry]
  rfl

theorem onHead_ne_finished_ok {response : Except SupabaseRpcError LedgerChainHead}
    {o : AppendLedgerEntryOutcome} : c.onHead P k response ≠ .finished (.ok o) := by
  simp only [onHead]
  split <;> simp

theorem onResponse_ne_calling {k k' : ℕ}
    {response : Except SupabaseRpcError AppendLedgerEntryOutcome} :
    c.onResponse k response ≠ .calling k' e := by
  simp only [onResponse]
  split <;> simp

/-- Only a response that arrived is returned. -/
theorem onResponse_eq_finished_ok {response : Except SupabaseRpcError AppendLedgerEntryOutcome}
    {o : AppendLedgerEntryOutcome} (h : c.onResponse k response = .finished (.ok o)) :
    response = .ok o := by
  cases response with
  | ok outcome => cases h; rfl
  | error error =>
    simp only [onResponse, LedgerAppender.afterResponse] at h
    split at h
    · split at * <;> simp_all
    · cases h

/-- What one action can do: it leaves the tables alone, or adds the entry the client was calling
with and ends the append; it only calls with entries it has signed; and it only returns the
outcome of a stored entry. -/
structure NextSpec (P : Primitives) (c : AppendClient) (db : LedgerDb) (phase : AppendPhase)
    (db' : LedgerDb) (phase' : AppendPhase) : Prop where
  db_eq : db' = db ∨ ∃ k e, phase = .calling k e ∧ Appended db e db' ∧
    ∃ result, phase' = .finished result
  signs : ∀ k e, phase' = .calling k e → c.Signs P e
  stored : ∀ o, phase' = .finished (.ok o) → ∃ k e, phase = .calling k e ∧
    e.signatureKeyVersion.val ≤ 2147483647 ∧ .ofSigned e ∈ db'.entries ∧ o.Reports e

theorem nextSpec_onHead (k : ℕ) (response : Except SupabaseRpcError LedgerChainHead) :
    NextSpec P c db (.fetching k) db (c.onHead P k response) where
  db_eq := .inl rfl
  signs _ _ h := onHead_eq_calling h
  stored _ h := absurd h onHead_ne_finished_ok

/-- The client receives the response of a call, or loses it. -/
theorem nextSpec_onResponse {response received : Except SupabaseRpcError AppendLedgerEntryOutcome}
    (hcall : callAppendLedgerEntry pg db e = (db', response))
    (hreceived : received = response ∨ received = .error .network) :
    NextSpec P c db (.calling k e) db' (c.onResponse k received) where
  db_eq := by
    cases hafter : c.appender.afterResponse k received with
    | some result =>
      have hfinished : c.onResponse k received = .finished result := by rw [onResponse, hafter]
      exact (callAppendLedgerEntry_spec hcall).1.imp_right fun ha =>
        ⟨k, e, rfl, ha, result, hfinished⟩
    | none =>
      -- a response that is retried is that of a call that changed nothing
      obtain ⟨error, rfl, hretry⟩ := LedgerAppender.afterResponse_eq_none hafter
      obtain rfl | hlost := hreceived
      · exact .inl (callAppendLedgerEntry_of_retryable hcall hretry)
      · cases hlost
        cases hretry
  signs _ _ h := absurd h onResponse_ne_calling
  stored o h := by
    have hok : received = .ok o := onResponse_eq_finished_ok h
    obtain rfl | rfl := hreceived
    · exact ⟨k, e, rfl, (callAppendLedgerEntry_spec hcall).2 o hok⟩
    · cases hok

/-- What one step of a client can do. -/
theorem nextSpec_of_next (h : c.next P pg db phase action = some (db', phase')) :
    NextSpec P c db phase db' phase' := by
  cases phase with
  | fetching k =>
    cases action <;> simp only [next, Option.some.injEq, Prod.mk.injEq, reduceCtorEq] at h
    all_goals
      obtain ⟨rfl, rfl⟩ := h
      exact nextSpec_onHead k _
  | calling k e =>
    cases hcall : callAppendLedgerEntry pg db e with
    | mk db₁ response =>
      cases action <;> simp only [next, hcall, Option.some.injEq, Prod.mk.injEq, reduceCtorEq] at h
      all_goals obtain ⟨rfl, rfl⟩ := h
      case call => exact nextSpec_onResponse hcall (.inl rfl)
      case responseLost => exact nextSpec_onResponse hcall (.inr rfl)
      case requestLost =>
        refine ⟨.inl rfl, fun _ _ hc => absurd hc onResponse_ne_calling, fun o ho => ?_⟩
        cases onResponse_eq_finished_ok ho
  | finished result => cases action <;> simp only [next, reduceCtorEq] at h

end AppendClient

/-! ### The system -/

/-- Clients on one ledger, and the keys the verifier uses. The start-up check compares the key of
a server with the registered key of its version, so a version stands for one key. -/
structure AppendSystem (P : Primitives) (ι : Type) where
  client : ι → AppendClient
  keys : List (LedgerVerifyingKey P)
  registry : List LedgerSigningPublicKeyRow
  find?_keys : ∀ i, keys.find? (fun k =>
      k.keyVersion = (client i).appender.signingKey.keyVersion) =
    some ((client i).appender.signingKey.verificationKey P)

/-- The tables and the phases of the clients. -/
structure AppendWorld (ι : Type) where
  db : LedgerDb
  phase : ι → AppendPhase

namespace AppendSystem

variable {P : Primitives} {ι : Type}

/-- The empty ledger, with every client at its start. -/
def init (sys : AppendSystem P ι) : AppendWorld ι :=
  ⟨Sql.emptyLedger sys.registry, fun _ => .fetching 0⟩

/-- One client acts. -/
def step [DecidableEq ι] (pg : Postgres) (sys : AppendSystem P ι) (w : AppendWorld ι)
    (event : ι × AppendAction) : Option (AppendWorld ι) :=
  ((sys.client event.1).next P pg w.db (w.phase event.1) event.2).map fun r =>
    ⟨r.1, Function.update w.phase event.1 r.2⟩

/-- The abstraction: the ledger is a chain whose entries record the log, the entries in flight
were signed by their clients, and whatever was returned as appended is in the ledger. -/
structure Simulates (sys : AppendSystem P ι) (w : AppendWorld ι)
    (log : List LedgerAppendDraftParts) : Prop where
  ledger : ∃ entries head, LedgerState sys.keys w.db entries head ∧
    entries.map (·.recorded) = log ∧
    ∀ i o, w.phase i = .finished (.ok o) → ∃ e ∈ entries,
      (sys.client i).Signs P e ∧ o.Reports e
  calling : ∀ i k e, w.phase i = .calling k e → (sys.client i).Signs P e

/-- The empty ledger is the empty list. -/
theorem simulates_init (sys : AppendSystem P ι) : sys.Simulates sys.init [] where
  ledger := ⟨[], .genesis, .empty _ _, rfl, by simp [init]⟩
  calling := by simp [init]

variable {sys : AppendSystem P ι}

/-- A step is an action of one client; the others stay where they are. -/
theorem step_cases [DecidableEq ι] {pg : Postgres} {w w' : AppendWorld ι}
    (h : Transition.Step (sys.step pg) w w') :
    ∃ i, AppendClient.NextSpec P (sys.client i) w.db (w.phase i) w'.db (w'.phase i) ∧
      ∀ j, j ≠ i → w'.phase j = w.phase j := by
  obtain ⟨⟨i, action⟩, hevent⟩ := h
  obtain ⟨⟨db', phase'⟩, hnext, rfl⟩ := Option.map_eq_some_iff.mp hevent
  refine ⟨i, ?_, fun j hj => Function.update_of_ne hj _ _⟩
  simp only [Function.update_self]
  exact AppendClient.nextSpec_of_next hnext

/-- The entries of the client `i` are accepted under the system's keys. -/
theorem signatureAccepted (sys : AppendSystem P ι) {i : ι} {e : SignedLedgerEntry}
    (h : (sys.client i).Signs P e) : SignatureAccepted sys.keys e :=
  h.2.signatureAccepted (sys.find?_keys i)

/-- One action keeps the ledger a chain and grows it by at most one entry, whose identifier is
new. -/
theorem ledgerState_of_nextSpec {i : ι} {db db' : LedgerDb} {phase phase' : AppendPhase}
    {entries : List SignedLedgerEntry} {head : LedgerChainHead}
    (h : LedgerState sys.keys db entries head)
    (hspec : AppendClient.NextSpec P (sys.client i) db phase db' phase')
    (hcalling : ∀ k e, phase = .calling k e → (sys.client i).Signs P e) :
    ∃ entries' head', LedgerState sys.keys db' entries' head' ∧ entries <+: entries' ∧
      Relation.ReflTransGen (Logs.Step LedgerAppendDraftParts.ledgerEntryId)
        (entries.map (·.recorded)) (entries'.map (·.recorded)) := by
  rcases hspec.db_eq with rfl | ⟨k, e, hphase, ha, -⟩
  · exact ⟨entries, head, h, List.prefix_rfl, .refl⟩
  · have hsigns := hcalling k e hphase
    refine ⟨entries ++ [e], .after e,
      h.appended ha hsigns.2.entryHash (sys.signatureAccepted hsigns),
      List.prefix_append _ _, .single ⟨e.recorded, ?_, by rw [List.map_append]; rfl⟩⟩
    rw [List.map_map]
    exact h.ledgerEntryId_notMem ha

/-- **Step**: every action is matched by the abstract log, which stays as it is or gets one new
draft. -/
theorem simulates_step [DecidableEq ι] {pg : Postgres} {w w' : AppendWorld ι}
    {log : List LedgerAppendDraftParts} (hw : sys.Simulates w log)
    (hstep : Transition.Step (sys.step pg) w w') :
    ∃ log', Relation.ReflTransGen (Logs.Step LedgerAppendDraftParts.ledgerEntryId) log log' ∧
      sys.Simulates w' log' := by
  obtain ⟨i, hspec, hothers⟩ := step_cases hstep
  obtain ⟨entries, head, hstate, rfl, hfinished⟩ := hw.ledger
  obtain ⟨entries', head', hstate', hprefix, hlog⟩ :=
    ledgerState_of_nextSpec hstate hspec (hw.calling i)
  refine ⟨entries'.map (·.recorded), hlog, ⟨entries', head', hstate', rfl, fun j o ho => ?_⟩,
    fun j k e he => ?_⟩
  · by_cases hj : j = i
    · subst hj
      obtain ⟨k, e, hphase, hfits, hmem, hreports⟩ := hspec.stored o ho
      exact ⟨e, hstate'.mem_of_ofSigned_mem hfits hmem, hw.calling j k e hphase, hreports⟩
    · obtain ⟨e, he, hsigns, hreports⟩ := hfinished j o (hothers j hj ▸ ho)
      exact ⟨e, hprefix.subset he, hsigns, hreports⟩
  · by_cases hj : j = i
    · subst hj
      exact hspec.signs k e he
    · exact hw.calling j k e (hothers j hj ▸ he)

/-- **Run**: every reachable state is related to a log that has grown from the empty one. -/
theorem simulation [DecidableEq ι] {pg : Postgres} {w : AppendWorld ι}
    (h : Transition.Reachable (sys.step pg) sys.init w) :
    ∃ log, Relation.ReflTransGen (Logs.Step LedgerAppendDraftParts.ledgerEntryId) [] log ∧
      sys.Simulates w log :=
  Transition.simulation sys.Simulates (fun _ _ _ hw hstep => simulates_step hw hstep)
    sys.simulates_init h

/-! ### Safety -/

/-- What the ledger guarantees: its positions are `1, …, n`; the chain state is the position and
the hash of the last row, or genesis; the rows, in the order of their positions, restore to
entries the verifier accepts from genesis up to exactly that head; identifiers are distinct; and
an append that returned an outcome is stored in exactly one row, which records its draft. -/
structure LedgerSafe (sys : AppendSystem P ι) (w : AppendWorld ι) : Prop where
  sequenceNos : w.db.entries.map (·.sequenceNo) =
    (List.range' 1 w.db.entries.length).map fun n : ℕ => (n : ℤ)
  chainState : w.db.chainState = some (match w.db.entries.getLast? with
    | none => ⟨0, LedgerHash.genesis.bytes⟩
    | some row => ⟨w.db.entries.length, row.entryHash⟩)
  verified : ∃ entries head,
    List.Forall₂ RestoresTo (Sql.orderBySequenceNo w.db.entries) entries ∧
    verifyLedgerChain entries .genesis sys.keys = .ok head ∧ w.db.chainState = some head.toRow
  nodup_ids : (w.db.entries.map (·.id)).Nodup
  returned : ∀ i o, w.phase i = .finished (.ok o) →
    ∃ e, (sys.client i).Signs P e ∧ o.Reports e ∧ .ofSigned e ∈ w.db.entries ∧
      ∀ row ∈ w.db.entries, row.id = (sys.client i).draft.ledgerEntryId.uuid → row = .ofSigned e

/-- **Safety of the append protocol**: from the empty ledger, whatever the clients do in whatever
order and whatever is lost on the way, the ledger is one verified chain. -/
theorem ledgerSafe_of_reachable [DecidableEq ι] (pg : Postgres) (sys : AppendSystem P ι)
    (w : AppendWorld ι) (h : Transition.Reachable (sys.step pg) sys.init w) :
    sys.LedgerSafe w := by
  obtain ⟨log, hlog, hw⟩ := simulation h
  obtain ⟨entries, head, hstate, rfl, hfinished⟩ := hw.ledger
  -- the abstract log has no draft twice
  have hids : (w.db.entries.map (·.id)).Nodup := by
    have hnodup := Logs.nodup_keys hlog List.nodup_nil
    have hmap : w.db.entries.map (·.id) =
        ((entries.map (·.recorded)).map (·.ledgerEntryId)).map LedgerEntryId.uuid := by
      rw [hstate.rows, List.map_map, List.map_map, List.map_map]
      rfl
    rw [hmap]
    exact hnodup.map LedgerEntryId.uuid_injective
  refine ⟨hstate.rows_map_sequenceNo, hstate.chainState_eq_getLast?,
    ⟨entries, head, ?_, hstate.verified, hstate.chainState⟩, hids, fun i o ho => ?_⟩
  · rw [hstate.orderBySequenceNo_eq (List.Sublist.refl _)]
    exact hstate.restoresTo
  · obtain ⟨e, he, hsigns, hreports⟩ := hfinished i o ho
    have hmem : .ofSigned e ∈ w.db.entries := hstate.mem_rows he
    refine ⟨e, hsigns, hreports, hmem, fun row hrow hid => ?_⟩
    refine List.inj_on_of_nodup_map hids hrow hmem (hid.trans ?_)
    have hentryId : e.ledgerEntryId = (sys.client i).draft.ledgerEntryId :=
      congrArg LedgerAppendDraftParts.ledgerEntryId hsigns.1
    exact congrArg LedgerEntryId.uuid hentryId.symm

/-- Rows were only added, and they verify from the old head to the new one. -/
def ResumesTo (sys : AppendSystem P ι) (db db' : LedgerDb) : Prop :=
  ∃ rows new head head', db'.entries = db.entries ++ rows ∧ List.Forall₂ RestoresTo rows new ∧
    db.chainState = some head.toRow ∧ db'.chainState = some head'.toRow ∧
    verifyLedgerChain new head sys.keys = .ok head'

/-- **The ledger is append-only, and its verification can be resumed**: whoever knows the head of a
state verifies any later state from the rows that were added since. -/
theorem resumesTo_of_reachable [DecidableEq ι] (pg : Postgres) (sys : AppendSystem P ι)
    {w w' : AppendWorld ι} (h : Transition.Reachable (sys.step pg) sys.init w)
    (h' : Transition.Reachable (sys.step pg) w w') : sys.ResumesTo w.db w'.db := by
  obtain ⟨_, -, hw⟩ := simulation h
  obtain ⟨entries, head, hstate, -, -⟩ := hw.ledger
  -- the entries of `w` stay at the front of the chain
  have hgrown : Transition.Reachable (sys.step pg) sys.init w' ∧ ∃ entries' head',
      LedgerState sys.keys w'.db entries' head' ∧ entries <+: entries' := by
    refine Transition.invariant (fun w' => Transition.Reachable (sys.step pg) sys.init w' ∧
      ∃ entries' head', LedgerState sys.keys w'.db entries' head' ∧ entries <+: entries') ?_
      ⟨h, entries, head, hstate, List.prefix_rfl⟩ h'
    rintro a b ⟨ha, seen, mid, hseen, hfront⟩ hstep
    obtain ⟨_, -, hsimulates⟩ := simulation ha
    obtain ⟨i, hspec, -⟩ := step_cases hstep
    obtain ⟨seen', mid', hseen', hgrows, -⟩ :=
      ledgerState_of_nextSpec hseen hspec (hsimulates.calling i)
    exact ⟨ha.tail hstep, seen', mid', hseen', hfront.trans hgrows⟩
  obtain ⟨-, -, head', hstate', new, rfl⟩ := hgrown
  obtain ⟨mid, hseen, hnew⟩ := verifyLedgerChain_append.mp hstate'.verified
  obtain rfl : head = mid := Except.ok.inj (hstate.verified.symm.trans hseen)
  refine ⟨new.map .ofSigned, new, head, head', ?_, ?_, hstate.chainState, hstate'.chainState, hnew⟩
  · rw [hstate'.rows, hstate.rows, List.map_append]
  · rw [List.forall₂_map_left_iff, List.forall₂_same]
    exact fun e he => restoresTo_ofSigned (hstate'.keyVersion_le e (List.mem_append_right _ he))

end AppendSystem

/-! ### Concrete values -/

/-- The engine functions on ASCII texts: the size of a value is that of its text, and shorter
keys are printed before longer ones. -/
def samplePostgres : Postgres where
  lower := toAsciiLowercase
  pgColumnSize value := value.toBytes.length
  jsonbMembers members := members.insertionSort fun a b =>
    a.1.length < b.1.length ∨ a.1.length = b.1.length ∧ a.1 ≤ b.1
  jsonbMembers_perm members := List.perm_insertionSort _ members

/-- The empty ledger accepts the first entry. -/
theorem accepts_sampleEntry (registry : List LedgerSigningPublicKeyRow) :
    Accepts samplePostgres (Sql.emptyLedger registry) (sampleEntry 1) where
  keyVersion_le := by decide
  values := by decide +kernel
  id_uuidV4 := by decide
  chainState := ⟨.genesis, rfl, rfl, rfl⟩
  id_fresh := by simp [Sql.emptyLedger]
  sequenceNo_fresh := by simp [Sql.emptyLedger]
  entryHash_fresh := by simp [Sql.emptyLedger]

/-- After it, the ledger accepts the second. -/
theorem accepts_sampleNext :
    Accepts samplePostgres ((Sql.emptyLedger []).add (sampleEntry 1)) sampleNext where
  keyVersion_le := by decide
  values := (accepts_sampleEntry []).values
  id_uuidV4 := by decide
  chainState := ⟨.after (sampleEntry 1), rfl, rfl, rfl⟩
  id_fresh := by simp [Sql.emptyLedger]; decide
  sequenceNo_fresh := by simp [Sql.emptyLedger]; decide
  entryHash_fresh := by simp [Sql.emptyLedger]; decide

/-- An entry for a position that is taken is refused. -/
theorem callAppendLedgerEntry_sampleEntry :
    callAppendLedgerEntry samplePostgres ((Sql.emptyLedger []).add (sampleEntry 1))
        (sampleEntry 2) =
      ((Sql.emptyLedger []).add (sampleEntry 1), .error Sql.ledgerSequenceMismatch.toRpcError) := by
  have hvalues : Sql.argumentValuesAreValid samplePostgres (.ofSigned (sampleEntry 2)) = true :=
    (accepts_sampleEntry []).values
  have hnone : ((Sql.emptyLedger []).add (sampleEntry 1)).entries.find? (fun row =>
      row.id == (LedgerEntryRow.ofSigned (sampleEntry 2)).id) = none := by
    decide
  obtain ⟨args, hargs, hrow⟩ := Option.bind_eq_some_iff.mp
    (LedgerEntryRpcParams.args_fromSignedEntry (show (sampleEntry 2).signatureKeyVersion.val ≤
      2147483647 by decide))
  have hraised : Sql.rpcAppendLedgerEntry samplePostgres
      ((Sql.emptyLedger []).add (sampleEntry 1)) args = .error Sql.ledgerSequenceMismatch := by
    simp only [Sql.rpcAppendLedgerEntry, hrow, Result.ofOption, Result.ok_bind,
      Sql.argumentShapesAreValid_ofSigned, Result.require_true, hnone, Sql.insertNewLedgerEntry,
      hvalues]
    rfl
  simp only [callAppendLedgerEntry, hargs, hraised]

/-- Two clients that append a `sampleDraft` each. -/
def sampleSystem : AppendSystem samplePrimitives Bool where
  client second := ⟨sampleAppender, sampleDraft (bif second then 2 else 1)⟩
  keys := [sampleKey.verificationKey samplePrimitives]
  registry := []
  find?_keys _ := LedgerSigningKey.find?_verificationKey _

/-- A step of a client is a step of the system. -/
theorem AppendSystem.step_of_next {P : Primitives} {ι : Type} [DecidableEq ι] {pg : Postgres}
    {sys : AppendSystem P ι} {w : AppendWorld ι} {i : ι} {action : AppendAction}
    {r : LedgerDb × AppendPhase}
    (h : (sys.client i).next P pg w.db (w.phase i) action = some r) :
    Transition.Step (sys.step pg) w ⟨r.1, Function.update w.phase i r.2⟩ :=
  ⟨(i, action), by rw [step, h, Option.map_some]⟩

/-- Both clients sign for position 1. The call of the first is committed, and that of the second
fails, so it signs its draft again for position 2. -/
theorem exists_sampleWorlds : ∃ w w' : AppendWorld Bool,
    Transition.Reachable (sampleSystem.step samplePostgres) sampleSystem.init w ∧
    Transition.Reachable (sampleSystem.step samplePostgres) w w' ∧
    w.db = (Sql.emptyLedger []).add (sampleEntry 1) ∧
    w'.db = ((Sql.emptyLedger []).add (sampleEntry 1)).add sampleNext ∧
    ∀ i, ∃ outcome, w'.phase i = .finished (.ok outcome) := by
  have hhead : fetchLedgerChainHead (Sql.emptyLedger []) = .ok .genesis :=
    fetchLedgerChainHead_eq_ok rfl
  have hfetch (second : Bool) : (sampleSystem.client second).next samplePrimitives samplePostgres
      (Sql.emptyLedger []) (.fetching 0) .fetchHead =
        some (Sql.emptyLedger [], .calling 0 (sampleEntry (bif second then 2 else 1))) :=
    AppendClient.next_fetchHead_of_extends hhead
      ⟨rfl, rfl, (signedBy_sampleEntry _).entryHash⟩ ⟨rfl, signedBy_sampleEntry _⟩
  have hconflict : (sampleSystem.client true).next samplePrimitives samplePostgres
      ((Sql.emptyLedger []).add (sampleEntry 1)) (.calling 0 (sampleEntry 2)) .call =
        some ((Sql.emptyLedger []).add (sampleEntry 1), .fetching 1) := by
    rw [AppendClient.next, callAppendLedgerEntry_sampleEntry]
    rfl
  have hagain : (sampleSystem.client true).next samplePrimitives samplePostgres
      ((Sql.emptyLedger []).add (sampleEntry 1)) (.fetching 1) .fetchHead =
        some ((Sql.emptyLedger []).add (sampleEntry 1), .calling 1 sampleNext) :=
    AppendClient.next_fetchHead_of_extends (fetchLedgerChainHead_eq_ok rfl)
      ⟨rfl, rfl, signedBy_sampleNext.entryHash⟩ ⟨rfl, signedBy_sampleNext⟩
  refine ⟨_, _, ((Relation.ReflTransGen.single (AppendSystem.step_of_next (hfetch false))).tail
    (AppendSystem.step_of_next (hfetch true))).tail (AppendSystem.step_of_next
      (i := false) (AppendClient.next_call_of_accepts (accepts_sampleEntry []))),
    ((Relation.ReflTransGen.single (AppendSystem.step_of_next hconflict)).tail
      (AppendSystem.step_of_next hagain)).tail (AppendSystem.step_of_next
      (i := true) (AppendClient.next_call_of_accepts accepts_sampleNext)), rfl, rfl, fun i => ?_⟩
  cases i <;> exact ⟨_, rfl⟩

/-- An instance: the ledger with the entries of both clients. -/
theorem ledgerSafe_sampleWorld : ∃ w : AppendWorld Bool,
    w.db.entries = [.ofSigned (sampleEntry 1), .ofSigned sampleNext] ∧
      (∀ i, ∃ outcome, w.phase i = .finished (.ok outcome)) ∧ sampleSystem.LedgerSafe w := by
  obtain ⟨w, w', hw, hw', -, hdb, hfinished⟩ := exists_sampleWorlds
  exact ⟨w', congrArg LedgerDb.entries hdb, hfinished,
    AppendSystem.ledgerSafe_of_reachable samplePostgres sampleSystem w' (hw.trans hw')⟩

/-- An instance: from the ledger with the first entry to the one with both. -/
theorem resumesTo_sampleWorld : sampleSystem.ResumesTo ((Sql.emptyLedger []).add (sampleEntry 1))
    (((Sql.emptyLedger []).add (sampleEntry 1)).add sampleNext) := by
  obtain ⟨w, w', hw, hw', hbefore, hafter, -⟩ := exists_sampleWorlds
  have hresumes := AppendSystem.resumesTo_of_reachable samplePostgres sampleSystem hw hw'
  rwa [hbefore, hafter] at hresumes

end Mipsorcu
