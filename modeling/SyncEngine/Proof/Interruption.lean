import SyncEngine.Proof.Bootstrap

/-!
# Interrupted bootstraps

A bootstrap may stop at any call, and any of its calls may fail. Whatever the database has answered, it
creates the stream, reads, and commits batches with decisions of the stream. So it leaves a stream without
history, which can be bootstrapped as before, or a stream with decisions, which a bootstrap refuses.
-/

namespace SyncEngine

open JavaScript Throwing

variable {State Intent Operation Rejection ε ν : Type}

/-! ### What a synchronization asks -/

/-- What a synchronization asks of the database: to create the stream, to read, and, where there are proposals, to
commit a batch with a decision of the stream. -/
def Commits (stream : D1StreamSettings State Intent Operation Rejection ε)
    (proposals : List (ProposedOperation Intent)) :
    D1Call → Prop
  | .insertStream streamId schemaHash materializedStateJson => streamId = stream.streamId ∧
      schemaHash = stream.schemaHash ∧ materializedStateJson = stream.stateCodec.serializeJson stream.initialState
  | .batch statements => proposals ≠ [] ∧
      ∃ row : D1DecisionRow, .insertDecision row ∈ statements ∧ row.streamId = stream.streamId
  | _ => True

def StagesDecisions (stream : D1StreamSettings State Intent Operation Rejection ε)
    (proposals : List (ProposedOperation Intent)) (staging : D1Staging State Operation Rejection) : Prop :=
  staging.statements = [] ∨ proposals ≠ [] ∧
    ∃ row : D1DecisionRow, .insertDecision row ∈ staging.statements ∧ row.streamId = stream.streamId

section Synchronize

variable (stream : D1StreamSettings State Intent Operation Rejection ε) {proposals : List (ProposedOperation Intent)}

theorem readOrCreateStream_asks (proposals : List (ProposedOperation Intent)) :
    (readOrCreateStream stream : D1Program ε (StreamRecord State)).Asks (Commits stream proposals) fun _ => True := by
  have hinsert : (Program.ask (I := D1Interface) (.insertStream stream.streamId stream.schemaHash
      (stream.stateCodec.serializeJson stream.initialState)) : D1Program ε Unit).Asks (Commits stream proposals)
        fun _ => True := .ask ⟨rfl, rfl, rfl⟩
  have hselect : (Program.ask (I := D1Interface) (.selectStream stream.streamId) :
      D1Program ε (Option D1StreamRow)).Asks (Commits stream proposals) fun _ => True := .ask trivial
  exact hinsert.bind fun _ _ => hselect.bind fun _ _ => .lifted _

theorem stageDraft_stages {proposal : ProposedOperation Intent} (hproposal : proposal ∈ proposals)
    {staging next : D1Staging State Operation Rejection} (h : stageDraft stream staging proposal = .ok next) :
    StagesDecisions stream proposals next := by
  obtain ⟨draft, -, h⟩ := bind_eq_ok.mp h
  cases draft with
  | rejected reason =>
      obtain rfl := Except.ok.inj h
      exact .inr ⟨List.ne_nil_of_mem hproposal, _, List.mem_append_right _ List.mem_cons_self, rfl⟩
  | accepted operation =>
      obtain ⟨state, -, h⟩ := bind_eq_ok.mp h
      obtain rfl := Except.ok.inj h
      exact .inr ⟨List.ne_nil_of_mem hproposal, _, List.mem_append_right _ List.mem_cons_self, rfl⟩

theorem stageProposal_asks {proposal : ProposedOperation Intent} (hproposal : proposal ∈ proposals)
    {staging : D1Staging State Operation Rejection} (hstaging : StagesDecisions stream proposals staging) :
    (stageProposal stream staging proposal).Asks (Commits stream proposals) (StagesDecisions stream proposals) := by
  have hdecision : (readStoredDecision stream proposal).Asks (Commits stream proposals) fun _ => True := by
    have hselect : (Program.ask (I := D1Interface) (.selectDecision stream.streamId proposal.operationId) :
        D1Program ε (Option D1DecisionRow)).Asks (Commits stream proposals) fun _ => True := .ask trivial
    exact hselect.bind fun _ _ => .lifted _
  have hposition : (assertClientPositionAvailable stream proposal).Asks (Commits stream proposals) fun _ => True := by
    have hselect : (Program.ask (I := D1Interface) (.selectClientPosition stream.streamId proposal.clientId
        proposal.clientSequence) : D1Program ε (Option String)).Asks (Commits stream proposals) fun _ => True :=
      .ask trivial
    exact hselect.bind fun _ _ => .lifted _
  refine hdecision.bind fun existing _ => ?_
  cases existing with
  | some decision => exact .pure hstaging
  | none => exact hposition.bind fun _ _ => .lift fun next hnext => stageDraft_stages stream hproposal hnext

theorem commitStaging_asks (head : Int) {staging : D1Staging State Operation Rejection}
    (hstaging : StagesDecisions stream proposals staging) :
    (commitStaging stream head staging : D1Program ε Unit).Asks (Commits stream proposals) fun _ => True := by
  rw [commitStaging]
  split
  case isFalse => exact .pure trivial
  case isTrue hsome =>
      obtain ⟨hproposals, row, hrow, hstream⟩ := hstaging.resolve_left fun hnone => by simp [hnone] at hsome
      have hbatch : (Program.ask (I := D1Interface) (.batch (staging.statements ++
          [updateStreamState stream head staging.headSequence staging.state])) :
            D1Program ε (Except SqliteConstraint (List Nat))).Asks (Commits stream proposals) fun _ => True :=
        .ask ⟨hproposals, row, List.mem_append_left _ hrow, hstream⟩
      exact hbatch.bind fun _ _ => .lifted _

theorem readResponse_asks (settings : D1AuthoritySettings State Intent Operation Rejection ε)
    (request : SyncRequest Intent) (headSequence : Int) (decisions : List (ProposalDecision Operation Rejection)) :
    (readResponse settings request headSequence decisions).Asks
      (Commits settings.toD1StreamSettings request.proposals) fun _ => True := by
  have hpage : (readLogPage settings.toD1StreamSettings request.baseSequence headSequence
      (min request.maximumEntries settings.limits.maximumEntriesPerResponse)).Asks
        (Commits settings.toD1StreamSettings request.proposals) fun _ => True := by
    have hselect : (Program.ask (I := D1Interface) (.selectLogPage settings.streamId request.baseSequence headSequence
        (min request.maximumEntries settings.limits.maximumEntriesPerResponse)) :
          D1Program ε (List D1LogEntryRow)).Asks (Commits settings.toD1StreamSettings request.proposals)
            fun _ => True := .ask trivial
    exact hselect.bind fun _ _ => .lifted _
  refine hpage.bind fun entries _ => ?_
  exact (Program.Asks.lifted _).bind fun _ _ => .pure trivial

theorem synchronizeOnce_asks (settings : D1AuthoritySettings State Intent Operation Rejection ε)
    (request : SyncRequest Intent) :
    (synchronizeOnce settings request).Asks (Commits settings.toD1StreamSettings request.proposals) fun _ => True := by
  refine (Program.Asks.lifted _).bind fun _ _ => ?_
  refine (readOrCreateStream_asks settings.toD1StreamSettings request.proposals).bind fun initialStream _ => ?_
  refine (Program.Asks.lifted _).bind fun _ _ => ?_
  have hstages := Program.Asks.foldlM (R := StagesDecisions settings.toD1StreamSettings request.proposals)
    (f := stageProposal settings.toD1StreamSettings) (l := request.proposals)
    (fun proposal hproposal staging hstaging => stageProposal_asks settings.toD1StreamSettings hproposal hstaging)
    (b := ⟨initialStream.headSequence, initialStream.state, [], []⟩) (.inl rfl)
  refine hstages.bind fun staging hstaging => ?_
  refine (commitStaging_asks settings.toD1StreamSettings initialStream.headSequence hstaging).bind fun _ _ => ?_
  exact readResponse_asks settings request staging.headSequence staging.decisions

/-- A synchronization asks for nothing else, whatever it is answered. -/
theorem synchronize_asks (settings : D1AuthoritySettings State Intent Operation Rejection ε)
    (request : SyncRequest Intent) :
    (settings.synchronize request).Asks (Commits settings.toD1StreamSettings request.proposals) fun _ => True := by
  rw [D1AuthoritySettings.synchronize]
  induction (settings.maximumCommitRetries + 1).toNat with
  | zero => exact .throw
  | succ attempts ih =>
      refine (synchronizeOnce_asks settings request).handle fun error => ?_
      split
      · exact ih
      · exact .throw

end Synchronize

/-! ### What is left in the tables -/

section Tables

variable {tables next : D1Tables} {streamId : String}

/-- No statement deletes a decision. -/
theorem decisions_of_execute {statement : D1Write} {changes : Nat}
    (h : tables.execute statement = .ok (changes, next)) :
    tables.decisions ⊆ next.decisions ∧ ∀ row, statement = .insertDecision row → row ∈ next.decisions := by
  cases statement with
  | insertDecision row =>
      obtain ⟨inserted, hinsert, hnext⟩ := bind_eq_ok.mp h
      obtain ⟨-, rfl⟩ := Prod.mk.inj (Except.ok.inj hnext)
      obtain ⟨-, -, rfl⟩ := D1Tables.insertDecision_eq_ok.mp hinsert
      refine ⟨List.subset_append_left _ _, fun row' hrow => ?_⟩
      obtain rfl := D1Write.insertDecision.inj hrow
      exact List.mem_append_right _ List.mem_cons_self
  | insertLogEntry row =>
      obtain ⟨inserted, hinsert, hnext⟩ := bind_eq_ok.mp h
      obtain ⟨-, rfl⟩ := Prod.mk.inj (Except.ok.inj hnext)
      obtain ⟨-, rfl⟩ := D1Tables.insertLogEntry_eq_ok.mp hinsert
      exact ⟨List.Subset.refl _, fun row hrow => by cases hrow⟩
  | updateStreamState headSequence materializedStateJson streamId previousHeadSequence =>
      obtain ⟨-, rfl⟩ := Prod.mk.inj (Except.ok.inj h)
      exact ⟨List.Subset.refl _, fun row hrow => by cases hrow⟩
  | guardedUpdateStreamState headSequence materializedStateJson streamId previousHeadSequence =>
      obtain ⟨-, hnext⟩ := bind_unit_eq_ok.mp h
      obtain ⟨-, rfl⟩ := Prod.mk.inj (Except.ok.inj hnext)
      exact ⟨List.Subset.refl _, fun row hrow => by cases hrow⟩

theorem decisions_of_executeAll {statements : List D1Write} {changes : List Nat}
    (h : tables.executeAll statements = .ok (changes, next)) :
    tables.decisions ⊆ next.decisions ∧ ∀ row, .insertDecision row ∈ statements → row ∈ next.decisions := by
  induction statements generalizing tables changes with
  | nil =>
      obtain ⟨-, rfl⟩ := Prod.mk.inj (Except.ok.inj h)
      exact ⟨List.Subset.refl _, by simp⟩
  | cons statement statements ih =>
      obtain ⟨⟨_, middle⟩, hfirst, h⟩ := bind_eq_ok.mp h
      obtain ⟨⟨_, last⟩, hrest, h⟩ := bind_eq_ok.mp h
      obtain ⟨-, rfl⟩ := Prod.mk.inj (Except.ok.inj h)
      have hfirst := decisions_of_execute hfirst
      have hrest := ih hrest
      refine ⟨List.Subset.trans hfirst.1 hrest.1, fun row hrow => ?_⟩
      cases List.mem_cons.mp hrow with
      | inl hsame => exact hrest.1 (hfirst.2 row hsame.symm)
      | inr hlater => exact hrest.2 row hlater

theorem batch_leaves (statements : List D1Write) :
    (tables.batch statements).2 = tables ∨ tables.decisions ⊆ (tables.batch statements).2.decisions ∧
      ∀ row, .insertDecision row ∈ statements → row ∈ (tables.batch statements).2.decisions := by
  rw [D1Tables.batch]
  cases hexecute : tables.executeAll statements with
  | error constraint => exact .inl rfl
  | ok result => exact .inr (decisions_of_executeAll hexecute)

theorem decisionsOf_ne_nil_iff :
    tables.decisionsOf streamId ≠ [] ↔ ∃ row ∈ tables.decisions, row.streamId = streamId := by
  rw [D1Tables.decisionsOf, Ne, List.filter_eq_nil_iff]
  simp

theorem insertStream_eq (schemaHash materializedStateJson : String) :
    tables.insertStream streamId schemaHash materializedStateJson = tables ∨ tables.streamsOf streamId = [] ∧
      tables.insertStream streamId schemaHash materializedStateJson = { tables with
        streams := tables.streams ++ [⟨streamId, schemaHash, 0, materializedStateJson⟩] } := by
  rw [D1Tables.insertStream]
  split
  case isTrue => exact .inl rfl
  case isFalse hnone =>
      refine .inr ⟨?_, rfl⟩
      rw [D1Tables.streamsOf, List.filter_eq_nil_iff]
      simpa using hnone

variable {stream : D1StreamSettings State Intent Operation Rejection ε} {proposals : List (ProposedOperation Intent)}
  {call : D1Call}

variable (tables) in
theorem answer_of_commits (hcall : Commits stream proposals call) :
    (D1Tables.answer call tables).2 = tables ∨
    tables.streamsOf stream.streamId = [] ∧ (D1Tables.answer call tables).2 = { tables with streams := tables.streams ++
      [⟨stream.streamId, stream.schemaHash, 0, stream.stateCodec.serializeJson stream.initialState⟩] } ∨
    proposals ≠ [] ∧ tables.decisions ⊆ (D1Tables.answer call tables).2.decisions ∧
      (D1Tables.answer call tables).2.decisionsOf stream.streamId ≠ [] := by
  cases call with
  | selectStream | selectDecision | selectClientPosition | selectLogPage => exact .inl rfl
  | insertStream streamId schemaHash materializedStateJson =>
      obtain ⟨rfl, rfl, rfl⟩ := hcall
      exact (insertStream_eq _ _).imp_right .inl
  | batch statements =>
      obtain ⟨hproposals, row, hrow, hstream⟩ := hcall
      refine (batch_leaves statements).imp_right fun hgrows => .inr ⟨hproposals, hgrows.1, ?_⟩
      exact decisionsOf_ne_nil_iff.mpr ⟨row, hgrows.2 row hrow, hstream⟩

theorem leaves_of_no_proposals {settings : D1AuthoritySettings State Intent Operation Rejection ε}
    {request : SyncRequest Intent} (hnone : request.proposals = []) {tables' : D1Tables}
    (h : Program.Leaves D1Tables.answer (settings.synchronize request) tables tables') :
    tables'.logEntries = tables.logEntries ∧ tables'.decisions = tables.decisions := by
  refine h.invariant (J := fun left => left.logEntries = tables.logEntries ∧ left.decisions = tables.decisions)
    (synchronize_asks settings request) (fun call left hcall hleft => ?_) ⟨rfl, rfl⟩
  cases answer_of_commits left hcall with
  | inl hsame => rwa [hsame]
  | inr hchanged =>
      cases hchanged with
      | inl hcreated => rwa [hcreated.2]
      | inr hcommitted => exact absurd hnone hcommitted.1

end Tables

/-! ### What a bootstrap leaves -/

def BootstrapCommits (stream : D1StreamSettings State Intent Operation Rejection ε) : BootstrapCall → Prop
  | .sync call => ∃ proposals : List (ProposedOperation Intent), Commits stream proposals call
  | _ => True

section Bootstrap

variable {runtime : BootstrapRuntime ν} {schema : ReplicaSchemaContract}

section Asks

variable (runtime schema) (settings : BootstrapSettings ν)

theorem ofSync_asks (request : SyncRequest (RowOperation ν)) :
    (D1Program.ofSync (settings.authority.synchronize request)).Asks
      (BootstrapCommits settings.authority.toD1StreamSettings) fun _ => True :=
  (synchronize_asks settings.authority request).within fun _ hcall => ⟨request.proposals, hcall⟩

theorem importPage_asks (progress : BootstrapProgress) (operations : List (RowOperation ν)) :
    (importPage runtime schema settings progress operations).Asks
      (BootstrapCommits settings.authority.toD1StreamSettings) fun _ => True := by
  refine (Program.Asks.lifted _).bind fun proposals _ => ?_
  refine (ofSync_asks settings _).bind fun response _ => ?_
  exact (Program.Asks.lifted _).bind fun _ _ => .pure trivial

theorem importTable_asks (tableName : Text) (fuel offset : Nat) (progress : BootstrapProgress) :
    (importTable runtime schema settings tableName fuel offset progress).Asks
      (BootstrapCommits settings.authority.toD1StreamSettings) fun _ => True := by
  induction fuel generalizing offset progress with
  | zero => exact .pure trivial
  | succ fuel ih =>
      have hread : (readBootstrapOperations runtime schema tableName settings.batchSize.toNat offset).Asks
          (BootstrapCommits settings.authority.toD1StreamSettings) fun _ => True := by
        refine (Program.Asks.lifted _).bind fun table _ => ?_
        have hselect : (Program.ask (I := BootstrapInterface ν) (.selectRows tableName
            (table.columns.entries.map Prod.fst) table.primaryKey settings.batchSize.toNat offset) :
              BootstrapProgram ν (List (D1Row ν))).Asks (BootstrapCommits settings.authority.toD1StreamSettings)
                fun _ => True := .ask trivial
        exact hselect.bind fun _ _ => .lifted _
      refine hread.bind fun operations _ => ?_
      split
      case isTrue => exact .pure trivial
      case isFalse => exact (importPage_asks runtime schema settings progress operations).bind fun _ _ => ih _ _

theorem importTables_asks (fuel : Nat) (tableNames : List Text) (progress : BootstrapProgress) :
    (importTables runtime schema settings fuel tableNames progress).Asks
      (BootstrapCommits settings.authority.toD1StreamSettings) fun _ => True := by
  induction tableNames generalizing progress with
  | nil => exact .pure trivial
  | cons tableName tableNames ih =>
      refine (importTable_asks runtime schema settings tableName fuel 0 progress).bind fun result _ => ?_
      cases result with
      | none => exact .pure trivial
      | some next => exact ih next

end Asks

theorem bootstrap_asks {settings : BootstrapSettings ν} {options : BootstrapD1RowSyncHistoryOptions}
    (hsettings : resolveBootstrapOptions runtime schema options = .ok settings) (fuel : Nat) :
    (bootstrapD1RowSyncHistory runtime schema fuel options).Asks
      (BootstrapCommits settings.authority.toD1StreamSettings) fun _ => True := by
  rw [bootstrapD1RowSyncHistory, hsettings, Program.lift_ok_bind]
  have hread : (readSyncHistory settings.streamId : BootstrapProgram ν _).Asks
      (BootstrapCommits settings.authority.toD1StreamSettings) fun _ => True := by
    have hselect : (Program.ask (I := BootstrapInterface ν) (.selectHistory settings.streamId) :
        BootstrapProgram ν (Option SyncHistoryRecord)).Asks (BootstrapCommits settings.authority.toD1StreamSettings)
          fun _ => True := .ask trivial
    exact hselect.bind fun _ _ => .lifted _
  refine (ofSync_asks settings _).bind fun _ _ => ?_
  refine hread.bind fun _ _ => ?_
  refine (Program.Asks.lifted _).bind fun _ _ => ?_
  refine (Program.Asks.lifted _).bind fun tableNames _ => ?_
  refine (importTables_asks runtime schema settings fuel tableNames _).bind fun result _ => ?_
  cases result with
  | none => exact .pure trivial
  | some progress => exact .pure trivial

section Leaves

variable {streamId : String} {initial : ReplicaDatabaseState (RowRecord ν)}
  {interpreter : LogInterpreter (ReplicaDatabaseState (RowRecord ν)) (RowOperation ν) (RowOperation ν) (JsonValue ν)
    RowError}

/-- A stream without history stays without, or gets decisions, and a stream with decisions has some ever after. -/
theorem noHistory_or_decisions (hinitial : createInitialDatabaseState schema = .ok initial)
    {proposals : List (ProposedOperation (RowOperation ν))} {call : D1Call} {tables : D1Tables}
    (hcall : Commits (rowStream runtime.toRowRuntime schema streamId initial interpreter) proposals call)
    (h : NoHistory runtime schema streamId tables ∨ tables.decisionsOf streamId ≠ []) :
    NoHistory runtime schema streamId (D1Tables.answer call tables).2 ∨
      (D1Tables.answer call tables).2.decisionsOf streamId ≠ [] := by
  rcases answer_of_commits tables hcall with hsame | hcreated | hcommitted
  · rwa [hsame]
  · obtain ⟨hnone, hcreated⟩ := hcreated
    rw [hcreated]
    refine h.imp_left fun hblank => ⟨hblank.logEntries, hblank.decisions, .inr ⟨initial, hinitial, ?_⟩⟩
    have hrow : (rowStream runtime.toRowRuntime schema streamId initial interpreter).streamRow (0 : Nat) initial =
        importedStream runtime schema streamId 0 initial := streamRow_eq (storableState_initial hinitial) 0
    rw [D1Tables.streamsOf, List.filter_append,
      show tables.streams.filter (fun row => row.streamId = streamId) = [] from hnone, ← hrow, List.nil_append]
    exact List.filter_cons_of_pos (by simp [rowStream])
  · exact .inr hcommitted.2.2

variable (interpreter) in
theorem leaves_bootstrap (hinitial : createInitialDatabaseState schema = .ok initial)
    {settings : BootstrapSettings ν} {options : BootstrapD1RowSyncHistoryOptions}
    (hsettings : resolveBootstrapOptions runtime schema options = .ok settings)
    (hstream : settings.authority.toD1StreamSettings =
      rowStream runtime.toRowRuntime schema streamId initial interpreter)
    {fuel : Nat} {database left : BootstrapDatabase ν} (hblank : NoHistory runtime schema streamId database.sync)
    (h : Program.Leaves BootstrapDatabase.answer (bootstrapD1RowSyncHistory runtime schema fuel options) database
      left) :
    NoHistory runtime schema streamId left.sync ∨ left.sync.decisionsOf streamId ≠ [] := by
  have hasks := bootstrap_asks hsettings fuel
  rw [hstream] at hasks
  refine h.invariant (J := fun left => NoHistory runtime schema streamId left.sync ∨
    left.sync.decisionsOf streamId ≠ []) hasks ?_ (.inl hblank)
  intro call left hcall hleft
  cases call with
  | sync call =>
      obtain ⟨proposals, hcall⟩ := hcall
      exact noHistory_or_decisions hinitial hcall hleft
  | selectHistory | selectRows => exact hleft

end Leaves

theorem decisionCount_ne_zero {tables : D1Tables} {streamId : String} (h : tables.decisionsOf streamId ≠ [])
    {history : SyncHistoryRecord}
    (hhistory : (readHistoryRow streamId (tables.selectHistory streamId) : Except (RowSyncError ν) _) = .ok history) :
    history.decisionCount ≠ 0 := by
  rw [D1Tables.selectHistory] at hhistory
  cases hrow : tables.streams.find? fun row => row.streamId = streamId with
  | none =>
      rw [hrow] at hhistory
      cases hhistory
  | some row =>
      rw [hrow] at hhistory
      obtain ⟨_, _, hhistory⟩ := bind_eq_ok.mp hhistory
      obtain ⟨_, _, hhistory⟩ := bind_eq_ok.mp hhistory
      obtain ⟨decisionCount, hcount, hhistory⟩ := bind_eq_ok.mp hhistory
      obtain rfl := Except.ok.inj hhistory
      obtain ⟨_, hcount⟩ := bind_unit_eq_ok.mp hcount
      obtain rfl := Except.ok.inj hcount
      rw [D1Tables.decisionsOf, Ne, ← List.length_eq_zero_iff, ← List.countP_eq_length_filter] at h
      dsimp only
      omega

/-- A stream with decisions is not bootstrapped: the bootstrap throws, and leaves its log and its decisions. -/
theorem bootstrap_refuses {settings : BootstrapSettings ν} {options : BootstrapD1RowSyncHistoryOptions}
    (hsettings : resolveBootstrapOptions runtime schema options = .ok settings) {tables : D1Tables}
    (hdecisions : tables.decisionsOf settings.streamId ≠ []) (rows : Text → List (D1Row ν)) (fuel : Nat) :
    ∃ error tables', (bootstrapD1RowSyncHistory runtime schema fuel options).run BootstrapDatabase.answer
        ⟨tables, rows⟩ = (.error error, ⟨tables', rows⟩) ∧
      tables'.logEntries = tables.logEntries ∧ tables'.decisions = tables.decisions := by
  obtain ⟨result, tables', hrun⟩ : ∃ result tables', (settings.authority.synchronize (settings.request 0 [])).run
      D1Tables.answer tables = (result, tables') := ⟨_, _, rfl⟩
  have hleaves : Program.Leaves D1Tables.answer (settings.authority.synchronize (settings.request 0 [])) tables
      tables' := by
    have hafter : ((settings.authority.synchronize (settings.request 0 [])).run D1Tables.answer tables).2 = tables' :=
      congrArg Prod.snd hrun
    exact hafter ▸ Program.leaves_run _ tables
  have hkept := leaves_of_no_proposals rfl hleaves
  have hcall := ofSync_run rows hrun
  rw [bootstrapD1RowSyncHistory, hsettings, Program.lift_ok_bind]
  cases result with
  | error error => exact ⟨error, tables', Program.run_bind_error _ _ hcall, hkept⟩
  | ok initialResponse =>
      refine Exists.imp (fun error => Exists.imp fun left => And.imp_left (Program.run_bind_ok _ _ hcall).trans) ?_
      change ∃ error left, Program.run BootstrapDatabase.answer (Program.lift (readHistoryRow settings.streamId
        (tables'.selectHistory settings.streamId)) >>= _) ⟨tables', rows⟩ = (.error error, ⟨left, rows⟩) ∧ _
      cases hhistory : readHistoryRow settings.streamId (tables'.selectHistory settings.streamId) with
      | error error => exact ⟨error, tables', rfl, hkept⟩
      | ok history =>
          have hcount : history.decisionCount ≠ 0 :=
            decisionCount_ne_zero (decisionsOf_ne_nil_iff.mpr (hkept.2 ▸ decisionsOf_ne_nil_iff.mp hdecisions)) hhistory
          obtain ⟨error, hrefused⟩ : ∃ error,
              (assertEmptyHistory settings.streamId initialResponse.headSequence history :
              Except (RowSyncError ν) Unit) = .error error := ⟨_, throwIf_pos (.inr (.inr (.inr hcount)))⟩
          rw [Program.lift_ok_bind, hrefused]
          exact ⟨error, tables', rfl, hkept⟩

end Bootstrap

/-! ### Bootstraps after an interruption -/

section Again

variable {runtime : BootstrapRuntime ν} {schema : ReplicaSchemaContract} {rows : Text → List (D1Row ν)}
  (hlawful : runtime.toNumberFormat.Lawful)
  (hschema : assertRowReplicationSchema schema = .ok ()) (hkeys : schema.NonNullKeys) (hhash : schema.schemaHash ≠ [])
  {options : BootstrapD1RowSyncHistoryOptions} {streamId clientId : String}
  (hstream : (readNonBlankString options.streamId "streamId" : Except (RowSyncError ν) _) = .ok streamId)
  (hclient : (readNonBlankString (options.clientId.getD "sync-engine-bootstrap") "clientId" :
    Except (RowSyncError ν) _) = .ok clientId) {tableNames : List Text}
  (hselects : SelectsTables schema options.tables tableNames) {operations : List (RowOperation ν)}
  (hoperations : selectedOperations runtime schema rows tableNames = .ok operations)
  (hother : operations.Pairwise (OnOtherRow runtime.toRowRuntime schema))
  (hdigests : Set.InjOn runtime.sha256
    {text | ∃ operation ∈ operations, operation.identityText runtime schema = text})
  (hsafe : (operations.length : Int) ≤ maxSafeInteger)

include hlawful hschema hkeys hhash hstream hclient hselects hoperations hother hdigests hsafe

/-- After an interrupted bootstrap, whatever has failed in it, there are two cases. Where no batch has been committed,
the same bootstrap returns and leaves the history that it would have left at first. Where one has been, every further
bootstrap throws, and the log and the decisions stay as they are. -/
theorem bootstrap_again : ∃ state,
    ∀ (batchSize maximumCommitRetries : Option Int) (fuel : Nat) (tables : D1Tables),
      (∀ size, batchSize = some size → IsSafeInteger size ∧ 1 ≤ size) → 0 ≤ maximumCommitRetries.getD 4 →
      (∀ tableName ∈ tableNames, (rows tableName).length < fuel) → NoHistory runtime schema streamId tables →
      (∃ tables', (bootstrapD1RowSyncHistory runtime schema fuel { options with batchSize, maximumCommitRetries }).run
            BootstrapDatabase.answer ⟨tables, rows⟩ =
          (.ok (some ⟨streamId, tableNames.length, operations.length, operations.length⟩), ⟨tables', rows⟩) ∧
        tables'.historyOf streamId = importedHistory runtime schema streamId clientId operations state) ∧
      ∀ (interruptedFuel : Nat) (interruptedRows : Text → List (D1Row ν)) (left : BootstrapDatabase ν),
        Program.Leaves BootstrapDatabase.answer (bootstrapD1RowSyncHistory runtime schema interruptedFuel
          { options with batchSize, maximumCommitRetries }) ⟨tables, interruptedRows⟩ left →
        (left.sync.decisionsOf streamId = [] → ∃ tables',
          (bootstrapD1RowSyncHistory runtime schema fuel { options with batchSize, maximumCommitRetries }).run
              BootstrapDatabase.answer ⟨left.sync, rows⟩ =
            (.ok (some ⟨streamId, tableNames.length, operations.length, operations.length⟩), ⟨tables', rows⟩) ∧
          tables'.historyOf streamId = importedHistory runtime schema streamId clientId operations state) ∧
        (left.sync.decisionsOf streamId ≠ [] → ∃ error tables',
          (bootstrapD1RowSyncHistory runtime schema fuel { options with batchSize, maximumCommitRetries }).run
              BootstrapDatabase.answer ⟨left.sync, rows⟩ = (.error error, ⟨tables', rows⟩) ∧
          tables'.logEntries = left.sync.logEntries ∧ tables'.decisions = left.sync.decisions) := by
  obtain ⟨initial, state, hinitial, -, hrun⟩ := bootstrap_history hlawful hschema hkeys hhash hstream hclient hselects
    hoperations hother hdigests hsafe
  obtain ⟨interpreter, hinterpreter⟩ : ∃ interpreter : LogInterpreter (ReplicaDatabaseState (RowRecord ν))
      (RowOperation ν) (RowOperation ν) (JsonValue ν) RowError,
      createRowLogInterpreter runtime.toRowRuntime schema {
        rejectInvalidOperation := none
        ofRowRejection := RowRejection.toJson } = .ok interpreter := ⟨_, bind_unit_eq_ok.mpr ⟨hschema, rfl⟩⟩
  refine ⟨state, fun batchSize maximumCommitRetries fuel tables hsize hretries hfuel hblank => ?_⟩
  refine ⟨hrun batchSize maximumCommitRetries fuel tables hsize hretries hfuel hblank, ?_⟩
  intro interruptedFuel interruptedRows left hleaves
  obtain ⟨size, hresolved⟩ := resolveBatchSize_returns (ν := ν) hsize
  have hsettings : resolveBootstrapOptions runtime schema { options with batchSize, maximumCommitRetries } =
      .ok (importSettings runtime schema streamId clientId initial interpreter size (maximumCommitRetries.getD 4)) :=
    (resolveBootstrapOptions_eq hinterpreter hinitial { options with batchSize, maximumCommitRetries } hstream hclient
      hresolved).1
  constructor
  · intro hnone
    have hkept : NoHistory runtime schema streamId left.sync ∨ left.sync.decisionsOf streamId ≠ [] :=
      leaves_bootstrap interpreter hinitial hsettings rfl hblank hleaves
    exact hrun batchSize maximumCommitRetries fuel left.sync hsize hretries hfuel
      (hkept.resolve_right fun hsome => hsome hnone)
  · intro hsome
    exact bootstrap_refuses hsettings hsome rows fuel

end Again

/-! ### A note that is not text -/

def spoiledNotes (tableName : Text) : List (D1Row Int) :=
  if tableName = ascii "notes" then [storedNote 1, (storedNote 2).set (ascii "title") (.number 7)] else []

/-- What a bootstrap with batches of one row leaves of the spoiled notes. -/
def spoiledRun : Except (RowSyncError Int) (Option BootstrapD1RowSyncHistoryResult) × BootstrapDatabase Int :=
  (bootstrapD1RowSyncHistory noteBootstrap noteSchema 3 { streamId := "stream", batchSize := some 1 }).run
    BootstrapDatabase.answer ⟨⟨[], [], []⟩, spoiledNotes⟩

set_option maxRecDepth 100000 in
theorem spoiledRun_throws : spoiledRun.1.isOk = false ∧
    (spoiledRun.2.sync.decisionsOf "stream").length = 1 := by decide +kernel

theorem decisionsOf_spoiledRun : spoiledRun.2.sync.decisionsOf "stream" ≠ [] := by
  intro hnone
  have hone := spoiledRun_throws.2
  rw [hnone] at hone
  cases hone

def unreadNotes (tableName : Text) : List (D1Row Int) :=
  if tableName = ascii "notes" then [(storedNote 1).set (ascii "title") (.number 7), storedNote 2] else []

def unreadRun : Except (RowSyncError Int) (Option BootstrapD1RowSyncHistoryResult) × BootstrapDatabase Int :=
  (bootstrapD1RowSyncHistory noteBootstrap noteSchema 3 { streamId := "stream", batchSize := some 1 }).run
    BootstrapDatabase.answer ⟨⟨[], [], []⟩, unreadNotes⟩

set_option maxRecDepth 100000 in
theorem unreadRun_throws : unreadRun.1.isOk = false ∧ unreadRun.2.sync.streams.length = 1 ∧
    (unreadRun.2.sync.decisionsOf "stream").length = 0 := by decide +kernel

theorem noHistory_notes : NoHistory noteBootstrap noteSchema "stream" ⟨[], [], []⟩ := ⟨rfl, rfl, .inl rfl⟩

theorem isBatchSize_one : ∀ size, some (1 : Int) = some size → IsSafeInteger size ∧ 1 ≤ size := by
  intro size hsize
  obtain rfl := Option.some.inj hsize
  decide

/-- The first note is committed before the second is read. Once its title is repaired, the bootstrap throws, where a
bootstrap that has not been tried before returns. -/
theorem bootstrap_after_spoiled_notes : ∃ error left,
    (bootstrapD1RowSyncHistory noteBootstrap noteSchema 3 { streamId := "stream", batchSize := some 1 }).run
        BootstrapDatabase.answer ⟨⟨[], [], []⟩, spoiledNotes⟩ = (.error error, left) ∧
    (∃ error, ((bootstrapD1RowSyncHistory noteBootstrap noteSchema 3 { streamId := "stream", batchSize := some 1 }).run
        BootstrapDatabase.answer (storedDatabase left.sync)).1 = .error error) ∧
    ∃ tables, (bootstrapD1RowSyncHistory noteBootstrap noteSchema 3 { streamId := "stream", batchSize := some 1 }).run
        BootstrapDatabase.answer (storedDatabase ⟨[], [], []⟩) =
          (.ok (some ⟨"stream", 1, 2, 2⟩), storedDatabase tables) := by
  obtain ⟨initial, state, hinitial, -, hrun⟩ := @bootstrap_history Int noteBootstrap noteSchema storedNotes
    integerFormat_lawful rfl noteSchema_keyed.nonNullKeys (by decide) { streamId := "stream" } "stream"
    "sync-engine-bootstrap" (readNonBlankString_of_trimmed _ (by decide +kernel) (by decide))
    (readNonBlankString_of_trimmed _ (by decide +kernel) (by decide)) [ascii "notes"] selectsTables_notes _
    selectedOperations_notes onOtherRow_notes noteDigests_injOn (by decide)
  obtain ⟨interpreter, hinterpreter⟩ : ∃ interpreter : LogInterpreter (ReplicaDatabaseState (RowRecord Int))
      (RowOperation Int) (RowOperation Int) (JsonValue Int) RowError,
      createRowLogInterpreter noteBootstrap.toRowRuntime noteSchema {
        rejectInvalidOperation := none
        ofRowRejection := RowRejection.toJson } = .ok interpreter := ⟨_, bind_unit_eq_ok.mpr ⟨rfl, rfl⟩⟩
  obtain ⟨hsettings, -⟩ := resolveBootstrapOptions_eq hinterpreter hinitial
    { streamId := "stream", batchSize := some 1 }
    (readNonBlankString_of_trimmed _ (by decide +kernel) (by decide))
    (readNonBlankString_of_trimmed _ (by decide +kernel) (by decide)) rfl
  obtain ⟨error, tables, hrefused, -⟩ := bootstrap_refuses hsettings decisionsOf_spoiledRun storedNotes 3
  obtain ⟨tables', hreturns, -⟩ := hrun (some 1) none 3 ⟨[], [], []⟩ isBatchSize_one (by decide) (by simp [storedNotes])
    noHistory_notes
  cases hspoiled : spoiledRun with
  | mk result left =>
      cases result with
      | ok result =>
          have hthrows := spoiledRun_throws.1
          rw [hspoiled] at hthrows
          cases hthrows
      | error spoiled =>
          rw [hspoiled] at hrefused
          exact ⟨spoiled, left, hspoiled, ⟨error, congrArg Prod.fst hrefused⟩, tables', hreturns⟩

/-- The first run has opened the stream and committed nothing, and the bootstrap completes; or it has committed a
note, and the bootstrap throws. -/
theorem bootstrap_again_notes : unreadRun.2.sync.streams.length = 1 ∧ ∃ state,
    (∃ tables, (bootstrapD1RowSyncHistory noteBootstrap noteSchema 3 { streamId := "stream", batchSize := some 1 }).run
        BootstrapDatabase.answer (storedDatabase unreadRun.2.sync) =
          (.ok (some ⟨"stream", 1, 2, 2⟩), storedDatabase tables) ∧
      tables.historyOf "stream" = importedHistory noteBootstrap noteSchema "stream" "sync-engine-bootstrap"
        [.putRow (ascii "notes") (noteRow 1), .putRow (ascii "notes") (noteRow 2)] state) ∧
    ∃ error tables, (bootstrapD1RowSyncHistory noteBootstrap noteSchema 3
        { streamId := "stream", batchSize := some 1 }).run BootstrapDatabase.answer (storedDatabase spoiledRun.2.sync) =
        (.error error, storedDatabase tables) ∧ tables.logEntries = spoiledRun.2.sync.logEntries ∧
      tables.decisions = spoiledRun.2.sync.decisions := by
  refine ⟨unreadRun_throws.2.1, ?_⟩
  obtain ⟨state, hagain⟩ := @bootstrap_again Int noteBootstrap noteSchema storedNotes
    integerFormat_lawful rfl noteSchema_keyed.nonNullKeys (by decide) { streamId := "stream" } "stream"
    "sync-engine-bootstrap" (readNonBlankString_of_trimmed _ (by decide +kernel) (by decide))
    (readNonBlankString_of_trimmed _ (by decide +kernel) (by decide)) [ascii "notes"] selectsTables_notes _
    selectedOperations_notes onOtherRow_notes noteDigests_injOn (by decide)
  obtain ⟨-, hleft⟩ := hagain (some 1) none 3 ⟨[], [], []⟩ isBatchSize_one (by decide) (by simp [storedNotes])
    noHistory_notes
  obtain ⟨hcompletes, -⟩ := hleft 3 unreadNotes unreadRun.2 (Program.leaves_run _ _)
  obtain ⟨-, hrefused⟩ := hleft 3 spoiledNotes spoiledRun.2 (Program.leaves_run _ _)
  exact ⟨state, hcompletes (List.length_eq_zero_iff.mp unreadRun_throws.2.2), hrefused decisionsOf_spoiledRun⟩

end SyncEngine
