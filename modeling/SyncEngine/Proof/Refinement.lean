import SyncEngine.Proof.Deliveries
import SyncEngine.Proof.Sequential

/-!
# The D1 authority and the in-memory authority

Two authorities with the same application, limits and initial state, one over tables and one in memory,
are given the same requests, one after another. They hold the same books throughout and answer alike, as
long as the log can be numbered with safe integers.
-/

namespace SyncEngine

open JavaScript Throwing

variable {State Intent Operation Rejection ε : Type}

theorem D1AuthoritySettings.run_append (settings : D1AuthoritySettings State Intent Operation Rejection ε)
    (tables : D1Tables) (requests : List (SyncRequest Intent)) (request : SyncRequest Intent) :
    settings.run tables (requests ++ [request]) =
      settings.afterSynchronize (settings.run tables requests) request :=
  List.foldl_append

theorem InMemoryLogServer.run_append (settings : LogServerSettings State Intent Operation Rejection ε)
    (server : InMemoryLogServer State Operation Rejection) (requests : List (SyncRequest Intent))
    (request : SyncRequest Intent) :
    server.run settings (requests ++ [request]) =
      (server.run settings requests).afterSynchronize settings request :=
  List.foldl_append

/-- The tables and the in-memory authority hold the same books. -/
def SameBooks (stream : D1StreamSettings State Intent Operation Rejection ε) (tables : D1Tables)
    (server : InMemoryLogServer State Operation Rejection) : Prop :=
  ∃ w : LoneWorld stream, w.Holds tables ∧ server.Represents w.toBooks

def D1StreamSettings.storedRow (stream : D1StreamSettings State Intent Operation Rejection ε)
    (tables : D1Tables) : D1StreamRow :=
  (tables.streamsOf stream.streamId).head?.getD (stream.streamRow 0 stream.initialState)

/-- The tables store what the in-memory authority has in its fields: log, decisions, head and state. -/
structure Mirrors (stream : D1StreamSettings State Intent Operation Rejection ε) (tables : D1Tables)
    (server : InMemoryLogServer State Operation Rejection) : Prop where
  log : tables.logOf stream.streamId = server.log.map stream.logEntryRow
  decisions : tables.decisionsOf stream.streamId =
    server.decisionsByOperationId.values.map stream.decisionRow
  row : stream.storedRow tables = stream.streamRow server.headSequence server.state

theorem SameBooks.mirrors {stream : D1StreamSettings State Intent Operation Rejection ε} {tables : D1Tables}
    {server : InMemoryLogServer State Operation Rejection} (h : SameBooks stream tables server) :
    Mirrors stream tables server := by
  obtain ⟨w, hholds, hserver⟩ := h
  refine ⟨?_, ?_, ?_⟩
  · rw [hholds.stores.logEntries, hserver.log]
    rfl
  · rw [hholds.stores.decisions, hserver.values_eq]
  · rw [InMemoryLogServer.headSequence, hserver.log, hserver.state, D1StreamSettings.storedRow, hholds.streams]
    cases hopened : w.opened with
    | true => rfl
    | false =>
        have hledger := w.blank hopened
        have hjustified := w.justified
        rw [hledger] at hjustified
        have hstate : w.state = stream.initialState := hjustified.state_unique .empty rfl
        rw [hstate, Books.log, hledger]
        rfl

theorem InMemoryLogServer.afterSynchronize_represents
    (settings : LogServerSettings State Intent Operation Rejection ε)
    {server : InMemoryLogServer State Operation Rejection} {books : Books State Operation Rejection}
    (hserver : server.Represents books) (hdistinct : books.Distinct) (request : SyncRequest Intent) :
    (afterSynchronize settings server request).Represents (books.afterSynchronize settings request) ∧
      Prod.fst <$> synchronize settings server request = Prod.fst <$> books.synchronize settings request := by
  have hagree := synchronize_agree settings hserver hdistinct request
  rw [afterSynchronize, Books.afterSynchronize]
  cases hcall : books.synchronize settings request with
  | error e =>
      rw [hcall] at hagree
      generalize synchronize settings server request = called at hagree ⊢
      cases hagree with
      | error => exact ⟨hserver, rfl⟩
  | ok result =>
      obtain ⟨response, next⟩ := result
      obtain ⟨⟨_, after⟩, hcalled, rfl, -, hnext⟩ := hagree.of_right_eq_ok hcall
      rw [hcalled]
      exact ⟨hnext, rfl⟩

/-- At a request the two authorities return or throw the same, and one that throws has stored nothing. -/
structure SameOutcome (settings : D1AuthoritySettings State Intent Operation Rejection ε)
    (memory : LogServerSettings State Intent Operation Rejection ε) (tables : D1Tables)
    (server : InMemoryLogServer State Operation Rejection) (request : SyncRequest Intent) : Prop where
  outcome : ((settings.synchronize request).run D1Tables.answer tables).1 =
    protocol (Prod.fst <$> server.synchronize memory request)
  memoryUnchanged : ∀ error, server.synchronize memory request = .error error →
    server.afterSynchronize memory request = server
  tablesUnchanged : ∀ error, ((settings.synchronize request).run D1Tables.answer tables).1 = .error error →
    (settings.afterSynchronize tables request).logOf settings.streamId = tables.logOf settings.streamId ∧
    (settings.afterSynchronize tables request).decisionsOf settings.streamId =
      tables.decisionsOf settings.streamId ∧
    settings.storedRow (settings.afterSynchronize tables request) = settings.storedRow tables

section Refinement

variable {settings : D1AuthoritySettings State Intent Operation Rejection ε}
  (hcodecs : RoundTripCodecs settings.toD1StreamSettings) (hlimits : settings.limits.Resolved)
  (hschema : settings.schemaHash.length ≠ 0) (hretries : 0 ≤ settings.maximumCommitRetries)
  {tables : D1Tables} {server : InMemoryLogServer State Operation Rejection}

include hcodecs hlimits hschema hretries

theorem SameBooks.synchronize (h : SameBooks settings.toD1StreamSettings tables server)
    (request : SyncRequest Intent)
    (hsafe : (((settings.afterSynchronize tables request).logOf settings.streamId).length : Int) ≤
      maxSafeInteger) :
    SameBooks settings.toD1StreamSettings (settings.afterSynchronize tables request)
        (server.afterSynchronize settings.inMemory request) ∧
      ((settings.synchronize request).run D1Tables.answer tables).1 =
        protocol (Prod.fst <$> server.synchronize settings.inMemory request) := by
  obtain ⟨w, hholds, hserver⟩ := h
  obtain ⟨w', hholds', hbooks, houtcome⟩ := synchronize_run hcodecs hlimits hschema hholds request hretries hsafe
  obtain ⟨hserver', hsame⟩ :=
    InMemoryLogServer.afterSynchronize_represents settings.inMemory hserver
      w.justified.pairwise_identity request
  rw [← hbooks] at hserver'
  rw [houtcome, hsame]
  exact ⟨⟨w', hholds', hserver'⟩, rfl⟩

omit hschema hretries in
theorem run_grows {w : LoneWorld settings.toD1StreamSettings} (hholds : w.Holds tables)
    (requests : List (SyncRequest Intent)) : ∃ w', w ≤ w' ∧ w'.Holds (settings.run tables requests) := by
  induction requests generalizing tables w with
  | nil => exact ⟨w, le_refl w, hholds⟩
  | cons request requests ih =>
      obtain ⟨middle, hle, hmiddle⟩ := synchronizeAttempts_grows hcodecs hlimits hholds request _
      obtain ⟨last, hle', hlast⟩ := ih hmiddle
      exact ⟨last, hle.trans hle', hlast⟩

omit hschema hretries in
theorem run_length_le {w : LoneWorld settings.toD1StreamSettings} (hholds : w.Holds tables)
    (requests : List (SyncRequest Intent)) :
    (tables.logOf settings.streamId).length ≤ ((settings.run tables requests).logOf settings.streamId).length := by
  obtain ⟨w', hle, hholds'⟩ := run_grows hcodecs hlimits hholds requests
  have hbefore := hholds.length_logOf
  have hafter := hholds'.length_logOf
  have := StreamWorld.length_le hle
  omega

/-- The run lemma. -/
theorem SameBooks.run (h : SameBooks settings.toD1StreamSettings tables server)
    (requests : List (SyncRequest Intent))
    (hsafe : (((settings.run tables requests).logOf settings.streamId).length : Int) ≤ maxSafeInteger) :
    SameBooks settings.toD1StreamSettings (settings.run tables requests)
      (server.run settings.inMemory requests) := by
  induction requests generalizing tables server with
  | nil => exact h
  | cons request requests ih =>
      have hfirst : SameBooks settings.toD1StreamSettings (settings.afterSynchronize tables request)
          (server.afterSynchronize settings.inMemory request) := by
        refine (h.synchronize hcodecs hlimits hschema hretries request ?_).1
        obtain ⟨w, hholds, -⟩ := h
        obtain ⟨middle, -, hmiddle⟩ := run_grows hcodecs hlimits hholds [request]
        have hlength := run_length_le hcodecs hlimits hmiddle requests
        exact (Int.ofNat_le.mpr hlength).trans hsafe
      exact ih hfirst hsafe

theorem SameBooks.sameOutcome (h : SameBooks settings.toD1StreamSettings tables server)
    (request : SyncRequest Intent)
    (hsafe : (((settings.afterSynchronize tables request).logOf settings.streamId).length : Int) ≤
      maxSafeInteger) :
    SameOutcome settings settings.inMemory tables server request := by
  obtain ⟨hnext, houtcome⟩ := h.synchronize hcodecs hlimits hschema hretries request hsafe
  have hunchanged : ∀ error, server.synchronize settings.inMemory request = .error error →
      server.afterSynchronize settings.inMemory request = server := by
    intro error herror
    rw [InMemoryLogServer.afterSynchronize, herror]
  refine ⟨houtcome, hunchanged, ?_⟩
  intro error herror
  have hbefore := h.mirrors
  have hafter := hnext.mirrors
  rw [houtcome] at herror
  cases hcall : server.synchronize settings.inMemory request with
  | ok result =>
      rw [hcall] at herror
      simp at herror
  | error e =>
      rw [hunchanged e hcall] at hafter
      exact ⟨hafter.log.trans hbefore.log.symm, hafter.decisions.trans hbefore.decisions.symm,
        hafter.row.trans hbefore.row.symm⟩

omit hretries in
/-- A batch that takes the log beyond the safe integers is refused by both, but stored in the tables. -/
theorem not_sameOutcome_of_beyond {w : LoneWorld settings.toD1StreamSettings} (hholds : w.Holds tables)
    (hserver : server.Represents w.toBooks) (hretries : 0 ≤ settings.maximumCommitRetries)
    (hsafe : (w.log.length : Int) ≤ maxSafeInteger) {request : SyncRequest Intent}
    {decisions : List (ProposalDecision Operation Rejection)} {next : Books State Operation Rejection}
    (hdecide : w.toBooks.decideRequest settings.inMemory request = .ok (decisions, next))
    (hbeyond : maxSafeInteger < next.log.length) :
    ¬SameOutcome settings settings.inMemory tables server request := by
  intro hsame
  have hcommits := synchronize_commits hcodecs hlimits hschema hholds request hretries hsafe hdecide
  have hagree := InMemoryLogServer.synchronize_agree settings.inMemory hserver w.justified.pairwise_identity request
  have houtcome := hsame.outcome
  cases hcall : server.synchronize settings.inMemory request with
  | ok result =>
      obtain ⟨⟨response, books⟩, hbooks, -⟩ := hagree.of_left_eq_ok hcall
      rw [Books.synchronize_eq, hdecide, ok_bind, bind_unit_eq_ok, assertSyncResponse_eq_ok] at hbooks
      have hhead : (next.log.length : Int) ≤ maxSafeInteger := hbooks.1.headSafe
      omega
  | error e =>
      rw [hcall] at houtcome
      obtain ⟨hlog, -⟩ := hsame.tablesUnchanged _ houtcome
      have hunchanged := congrArg List.length hlog
      rw [hholds.length_logOf] at hunchanged
      change (((settings.synchronize request).run D1Tables.answer tables).2.logOf _).length = _ at hunchanged
      omega

end Refinement

def CreateD1LogSyncAuthorityOptions.inMemory
    (options : CreateD1LogSyncAuthorityOptions State Intent Operation Rejection ε) :
    InMemoryLogServerOptions State Intent Operation Rejection ε where
  initialState := options.initialState
  interpreter := options.interpreter
  limits := options.limits

theorem createD1LogSyncAuthority_inMemory
    {options : CreateD1LogSyncAuthorityOptions State Intent Operation Rejection ε}
    {settings : D1AuthoritySettings State Intent Operation Rejection ε}
    {memory : LogServerSettings State Intent Operation Rejection ε}
    {server : InMemoryLogServer State Operation Rejection}
    (hcreate : createD1LogSyncAuthority options = .ok settings)
    (hmemory : InMemoryLogServer.create options.inMemory = .ok (memory, server)) :
    settings.limits.Resolved ∧ memory = settings.inMemory ∧ server = .initial settings.initialState := by
  obtain ⟨limits, hlimits, hsettings⟩ := bind_eq_ok.mp hcreate
  obtain ⟨limits', hlimits', hserver⟩ := bind_eq_ok.mp hmemory
  obtain rfl : limits = limits' := Except.ok.inj (hlimits.symm.trans hlimits')
  obtain rfl := Except.ok.inj hsettings
  obtain ⟨rfl, rfl⟩ := Prod.mk.inj (Except.ok.inj hserver)
  exact ⟨resolveProtocolLimits_resolved hlimits, rfl, rfl⟩

/-- The D1 authority refines the in-memory one, over any sequence of requests. -/
theorem d1_refines_inMemory {options : CreateD1LogSyncAuthorityOptions State Intent Operation Rejection ε}
    {settings : D1AuthoritySettings State Intent Operation Rejection ε}
    {memory : LogServerSettings State Intent Operation Rejection ε}
    {server : InMemoryLogServer State Operation Rejection}
    (hcreate : createD1LogSyncAuthority options = .ok settings)
    (hmemory : InMemoryLogServer.create options.inMemory = .ok (memory, server))
    (hcodecs : RoundTripCodecs settings.toD1StreamSettings) (hschema : settings.schemaHash.length ≠ 0)
    (hretries : 0 ≤ settings.maximumCommitRetries) {tables : D1Tables}
    (hunopened : settings.Unopened tables) (requests : List (SyncRequest Intent))
    (request : SyncRequest Intent)
    (hsafe : (((settings.run tables (requests ++ [request])).logOf settings.streamId).length : Int) ≤
      maxSafeInteger) :
    SameOutcome settings memory (settings.run tables requests) (server.run memory requests) request ∧
      Mirrors settings.toD1StreamSettings (settings.run tables requests) (server.run memory requests) ∧
      Mirrors settings.toD1StreamSettings (settings.run tables (requests ++ [request]))
        (server.run memory (requests ++ [request])) := by
  obtain ⟨hlimits, rfl, rfl⟩ := createD1LogSyncAuthority_inMemory hcreate hmemory
  have hempty : SameBooks settings.toD1StreamSettings tables
      (InMemoryLogServer.initial settings.initialState) :=
    ⟨.unopened _ _, StreamWorld.unopened_holds hunopened, InMemoryLogServer.initial_represents _⟩
  rw [settings.run_append] at hsafe ⊢
  rw [InMemoryLogServer.run_append]
  have hrun : SameBooks settings.toD1StreamSettings (settings.run tables requests)
      ((InMemoryLogServer.initial settings.initialState).run settings.inMemory requests) := by
    refine hempty.run hcodecs hlimits hschema hretries requests ?_
    obtain ⟨w, -, hholds⟩ := run_grows hcodecs hlimits (StreamWorld.unopened_holds hunopened) requests
    have hlength := run_length_le hcodecs hlimits hholds [request]
    exact (Int.ofNat_le.mpr hlength).trans hsafe
  have hcall := (hrun.synchronize hcodecs hlimits hschema hretries request hsafe).1
  exact ⟨hrun.sameOutcome hcodecs hlimits hschema hretries request hsafe, hrun.mirrors, hcall.mirrors⟩

/-- The second request of a switch finds the first one in the tables. -/
theorem d1_refines_inMemory_switch :
    SameOutcome switchAuthority switchAuthority.inMemory
        (switchAuthority.run ⟨[], [], []⟩ [(switchDelivery "write" "first" .write).request])
        ((InMemoryLogServer.initial false).run switchAuthority.inMemory
          [(switchDelivery "write" "first" .write).request])
        (switchDelivery "enable" "second" .enable).request :=
  (d1_refines_inMemory createD1LogSyncAuthority_switch rfl switchStream_codecs (by decide) (by decide)
    switchStream_unopened [(switchDelivery "write" "first" .write).request]
    (switchDelivery "enable" "second" .enable).request (by decide)).1

/-! ### Where the two differ -/

theorem Books.submitAll_accepts {interpreter : LogInterpreter State Intent Operation Rejection ε}
    {books : Books State Operation Rejection} {proposals : List (ProposedOperation Intent)}
    (haccepts : ∀ proposal ∈ proposals, ∀ state, ∃ operation next,
      interpreter.decide state proposal = .ok (.accepted operation) ∧
        interpreter.apply state operation = .ok next)
    (hfresh : ∀ proposal ∈ proposals, Undecided books.ledger proposal.toOperationIdentity)
    (hdistinct : proposals.Pairwise fun earlier later =>
      earlier.operationId ≠ later.operationId ∧ earlier.position ≠ later.position) :
    ∃ decisions next, submitAll interpreter books proposals = .ok (decisions, next) ∧
      next.log.length = books.log.length + proposals.length := by
  induction proposals generalizing books with
  | nil => exact ⟨[], books, rfl, rfl⟩
  | cons proposal proposals ih =>
      rw [List.forall_mem_cons] at haccepts hfresh
      rw [List.pairwise_cons] at hdistinct
      obtain ⟨operation, state, hdecide, happly⟩ := haccepts.1 books.state
      have hfind : books.find? proposal.operationId = none :=
        find?_eq_none.mpr fun record hrecord => (hfresh.1 record hrecord).1
      have hoccupant : books.occupant? proposal.position = none := by
        rw [occupant?, Option.map_eq_none_iff]
        exact KeyedList.find?_eq_none_iff.mpr fun record hrecord => (hfresh.1 record hrecord).2
      let middle : Books State Operation Rejection :=
        ⟨books.ledger ++ [⟨proposal.toOperationSubmissionIdentity,
          .accepted proposal.operationId (books.log.length + 1) operation⟩], state⟩
      have hsubmit : submit interpreter books proposal =
          .ok (.accepted proposal.operationId (books.log.length + 1) operation, middle) := by
        simp only [submit, hfind, hoccupant, InMemoryLogServer.assertClientPositionFree, decideNext, hdecide,
          happly, application_ok, ok_bind, pure_eq_ok, middle]
      have hundecided : ∀ later ∈ proposals, Undecided middle.ledger later.toOperationIdentity := by
        intro later hlater record hrecord
        rcases List.mem_append.mp hrecord with hold | hnew
        · exact hfresh.2 later hlater record hold
        · obtain rfl := List.mem_singleton.mp hnew
          exact hdistinct.1 later hlater
      have hmiddle : middle.log.length = books.log.length + 1 := by
        rw [Books.log, canonicalLog_append, canonicalLog_accepted, List.length_append, List.length_singleton]
        rfl
      obtain ⟨decisions, next, hall, hlength⟩ := ih haccepts.2 hundecided hdistinct.2
      refine ⟨.accepted proposal.operationId (books.log.length + 1) operation :: decisions, next, ?_, ?_⟩
      · simp only [submitAll, hsubmit, hall, ok_bind, pure_eq_ok]
      · rw [hlength, hmiddle, List.length_cons]
        omega

def bulkProposals (count : Nat) : List (ProposedOperation SwitchIntent) :=
  (List.range count).map fun i => {
    operationId := String.ofList (List.replicate (i + 1) 'a')
    clientId := "bulk"
    clientSequence := i + 1
    intentHash := "bulk"
    intent := .enable }

theorem bulkProposals_valid {count : Nat} (hcount : (count : Int) ≤ maxSafeInteger) :
    ValidBatch (bulkProposals count) where
  valid := by
    intro proposal hproposal
    obtain ⟨i, hi, rfl⟩ := List.mem_map.mp hproposal
    have hlt := List.mem_range.mp hi
    refine ⟨?_, (by decide : "bulk".length ≠ 0), ?_, ?_, (by decide : "bulk".length ≠ 0)⟩
    · show (String.ofList (List.replicate (i + 1) 'a')).length ≠ 0
      rw [String.length_ofList, List.length_replicate]
      omega
    · show (1 : Int) ≤ i + 1
      omega
    · show (i : Int) + 1 ≤ maxSafeInteger
      omega
  ordered := by
    rw [bulkProposals, List.pairwise_map]
    apply List.pairwise_lt_range.imp
    intro i j hij
    refine ⟨fun hids => ?_, fun _ => ?_⟩
    · have hlength := congrArg List.length (String.ofList_injective hids)
      rw [List.length_replicate, List.length_replicate] at hlength
      omega
    · show (i : Int) + 1 < j + 1
      omega

def switchBulkOptions : CreateD1LogSyncAuthorityOptions Bool SwitchIntent SwitchIntent Unit Empty :=
  { switchOptions with
    limits := { maximumProposalsPerRequest := maxSafeInteger } }

def switchBulkAuthority : D1AuthoritySettings Bool SwitchIntent SwitchIntent Unit Empty :=
  { switchStream with
    limits := { defaultProtocolLimits with maximumProposalsPerRequest := maxSafeInteger }
    maximumCommitRetries := 4 }

def bulkRequest (count : Nat) : SyncRequest SwitchIntent where
  baseSequence := 0
  maximumEntries := 1
  proposals := bulkProposals count

theorem switchBulkAuthority_resolved : switchBulkAuthority.limits.Resolved := ⟨by decide, by decide⟩

theorem bulk_sameBooks :
    SameBooks switchBulkAuthority.toD1StreamSettings
      (switchBulkAuthority.run ⟨[], [], []⟩ [(switchDelivery "first" "first" .enable).request])
      ((InMemoryLogServer.initial false).run switchBulkAuthority.inMemory
        [(switchDelivery "first" "first" .enable).request]) := by
  have hempty : SameBooks switchBulkAuthority.toD1StreamSettings ⟨[], [], []⟩ (InMemoryLogServer.initial false) :=
    ⟨.unopened _ _, StreamWorld.unopened_holds switchStream_unopened, InMemoryLogServer.initial_represents _⟩
  exact hempty.run switchStream_codecs switchBulkAuthority_resolved (by decide) (by decide) _ (by decide)

theorem bulk_accepted {books : Books Bool SwitchIntent Unit}
    (hledger : books.ledger = [⟨⟨⟨"first", "first", 1⟩, "hash:first"⟩, .accepted "first" 1 .enable⟩])
    {count : Nat} (hcount : (count : Int) ≤ maxSafeInteger) :
    ∃ decisions next, books.decideRequest switchBulkAuthority.inMemory (bulkRequest count) = .ok (decisions, next) ∧
      next.log.length = count + 1 := by
  have hbatch := bulkProposals_valid hcount
  have hlength : (bulkProposals count).length = count := by
    rw [bulkProposals, List.length_map, List.length_range]
  have haccepts : ∀ proposal ∈ bulkProposals count, ∀ state, ∃ operation next,
      switchInterpreter.decide state proposal = .ok (.accepted operation) ∧
        switchInterpreter.apply state operation = .ok next := by
    intro proposal hproposal state
    obtain ⟨i, -, rfl⟩ := List.mem_map.mp hproposal
    exact ⟨.enable, true, rfl, rfl⟩
  have hfresh : ∀ proposal ∈ bulkProposals count, Undecided books.ledger proposal.toOperationIdentity := by
    intro proposal hproposal record hrecord
    obtain ⟨i, -, rfl⟩ := List.mem_map.mp hproposal
    rw [hledger] at hrecord
    obtain rfl := List.mem_singleton.mp hrecord
    refine ⟨fun hids => ?_, fun hposition => ?_⟩
    · have hid : "first" = String.ofList (List.replicate (i + 1) 'a') := hids
      have hchars : "first".toList = List.replicate (i + 1) 'a' := by
        rw [hid, String.toList_ofList]
      have hmem : 'f' ∈ List.replicate (i + 1) 'a' := by
        rw [← hchars]
        decide
      exact absurd (List.eq_of_mem_replicate hmem) (by decide)
    · have hclient : "first" = "bulk" := congrArg Prod.fst hposition
      exact absurd hclient (by decide)
  have hrequest : ValidRequest (bulkRequest count) switchBulkAuthority.inMemory.limits :=
    ⟨(by decide : (0 : Int) ≤ 0), (by decide : (0 : Int) ≤ maxSafeInteger), (by decide : (1 : Int) ≤ 1),
      (by decide : (1 : Int) ≤ maxSafeInteger), by rw [bulkRequest, hlength]; exact hcount, hbatch⟩
  obtain ⟨decisions, next, hall, hnext⟩ := Books.submitAll_accepts haccepts hfresh hbatch.distinct
  refine ⟨decisions, next, ?_, ?_⟩
  · rw [Books.decideRequest, (assertSyncRequest_eq_ok _ _ ()).mpr hrequest, ok_bind, throwIf_neg, ok_bind]
    · exact hall
    · show ¬((0 : Int) > books.log.length)
      omega
  · rw [hnext, hlength, Books.log, hledger, Nat.add_comm]
    rfl

theorem bulk_not_sameOutcome {count : Nat} (hcount : (count : Int) = maxSafeInteger) :
    ¬SameOutcome switchBulkAuthority switchBulkAuthority.inMemory
      (switchBulkAuthority.run ⟨[], [], []⟩ [(switchDelivery "first" "first" .enable).request])
      ((InMemoryLogServer.initial false).run switchBulkAuthority.inMemory
        [(switchDelivery "first" "first" .enable).request]) (bulkRequest count) := by
  obtain ⟨w, hholds, hserver⟩ := bulk_sameBooks
  have hledger : w.ledger = [⟨⟨⟨"first", "first", 1⟩, "hash:first"⟩, .accepted "first" 1 .enable⟩] :=
    hserver.values_eq.symm
  have hsafe : (w.log.length : Int) ≤ maxSafeInteger := by
    rw [Books.log, hledger]
    decide
  obtain ⟨decisions, next, hdecide, hlength⟩ := bulk_accepted hledger hcount.le
  refine not_sameOutcome_of_beyond switchStream_codecs switchBulkAuthority_resolved (by decide) hholds hserver
    (by decide) hsafe hdecide ?_
  omega

/-- Options and requests for which the two authorities do not have the same outcome. -/
def UnlikeInMemory (options : CreateD1LogSyncAuthorityOptions Bool SwitchIntent SwitchIntent Unit Empty)
    (requests : List (SyncRequest SwitchIntent)) (request : SyncRequest SwitchIntent) : Prop :=
  ∃ settings memory server, createD1LogSyncAuthority options = .ok settings ∧
    InMemoryLogServer.create options.inMemory = .ok (memory, server) ∧
    RoundTripCodecs settings.toD1StreamSettings ∧ settings.Unopened ⟨[], [], []⟩ ∧
    ¬SameOutcome settings memory (settings.run ⟨[], [], []⟩ requests) (server.run memory requests) request

/-- An empty schema hash is not read back, a negative number of retries leaves no attempt, and a log that
outgrows the safe integers is stored before its head is checked. -/
theorem d1_unlike_inMemory :
    UnlikeInMemory { switchOptions with schemaHash := some "" } []
      (switchDelivery "enable" "first" .enable).request ∧
    UnlikeInMemory { switchOptions with maximumCommitRetries := some (-1) } []
      (switchDelivery "enable" "first" .enable).request ∧
    UnlikeInMemory switchBulkOptions [(switchDelivery "first" "first" .enable).request]
      (bulkRequest maxSafeInteger.toNat) := by
  refine ⟨?_, ?_, ?_⟩
  · refine ⟨{ switchAuthority with schemaHash := "" }, _, _, rfl, rfl, ?_, ?_, fun hsame => ?_⟩
    · exact ⟨switchStream_codecs.state, switchStream_codecs.operation, switchStream_codecs.rejection⟩
    · exact ⟨by simp, by simp, by simp⟩
    · have houtcome := hsame.outcome
      change Except.error _ = Except.ok _ at houtcome
      simp at houtcome
  · refine ⟨{ switchAuthority with maximumCommitRetries := -1 }, _, _, rfl, rfl, switchStream_codecs,
      switchStream_unopened, fun hsame => ?_⟩
    have houtcome := hsame.outcome
    change Except.error _ = Except.ok _ at houtcome
    simp at houtcome
  · refine ⟨switchBulkAuthority, _, _, rfl, rfl, switchStream_codecs, switchStream_unopened, ?_⟩
    exact bulk_not_sameOutcome (Int.toNat_of_nonneg (by decide))

end SyncEngine
