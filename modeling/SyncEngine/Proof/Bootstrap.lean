import SyncEngine.Model.Bootstrap
import SyncEngine.Proof.Deliveries
import SyncEngine.Proof.RowMap

/-!
# Bootstrap

The rows of the selected tables become proposals whose identifiers are digests of their keys. The authority
takes in every page of them, and what it holds afterwards depends on the proposals taken in so far, not on
the pages in which they came.
-/

namespace SyncEngine

open JavaScript JavaScript.JsonValue Throwing

variable {ν : Type}

/-! ### What is imported -/

def tableOperations (runtime : BootstrapRuntime ν) (schema : ReplicaSchemaContract) (rows : Text → List (D1Row ν))
    (tableName : Text) : Except (RowSyncError ν) (List (RowOperation ν)) := do
  let table ← bootstrapTable schema tableName .entries
  (rows tableName).mapM (bootstrapOperation runtime schema tableName table)

def selectedOperations (runtime : BootstrapRuntime ν) (schema : ReplicaSchemaContract) (rows : Text → List (D1Row ν))
    (tableNames : List Text) : Except (RowSyncError ν) (List (RowOperation ν)) :=
  List.flatten <$> tableNames.mapM (tableOperations runtime schema rows)

def RowOperation.identityJson (schema : ReplicaSchemaContract) (operation : RowOperation ν) : JsonValue ν :=
  .object [(ascii "table", .string operation.tableName),
    (ascii "key", ((schema.tables.get? operation.tableName).map fun table =>
      table.keyArray operation.values).getD .null)]

/-- An operation as bootstrap makes it of a row. -/
structure PutsRow (runtime : RowRuntime ν) (schema : ReplicaSchemaContract) (operation : RowOperation ν) : Prop where
  normal : operation.Normal runtime schema
  putRow : ∃ record, operation = .putRow operation.tableName record

/-- Operations on different rows: of different tables, or with different keys. -/
def OnOtherRow (runtime : RowRuntime ν) (schema : ReplicaSchemaContract) (operation operation' : RowOperation ν) :
    Prop :=
  operation.tableName = operation'.tableName →
    operation.encodedKey runtime schema ≠ operation'.encodedKey runtime schema

section Operations

variable {runtime : BootstrapRuntime ν} {schema : ReplicaSchemaContract} {rows : Text → List (D1Row ν)}
  {tableName : Text} {table : ReplicaTableContract} {operation operation' : RowOperation ν}

theorem putsRow_of_bootstrapOperation (hkeys : schema.NonNullKeys) {row : D1Row ν}
    (h : bootstrapOperation runtime schema tableName table row = .ok operation) :
    PutsRow runtime.toRowRuntime schema operation ∧ operation.tableName = tableName := by
  obtain ⟨normalizedRow, -, h⟩ := bind_eq_ok.mp h
  have hnormalized := mapError_eq_ok.mp h
  have hputRow : ∃ record, operation = .putRow tableName record := by
    cases operation with
    | putRow name record =>
        obtain ⟨-, -, ⟨fields, hfields, hname, -⟩, -⟩ := normalizeRowOperation_eq_putRow.mp hnormalized
        obtain rfl := JsonValue.object.inj hfields
        obtain rfl : tableName = name := by simpa [ownField, ascii] using hname
        exact ⟨record, rfl⟩
    | deleteRow name key =>
        obtain ⟨-, -, ⟨fields, hfields, -, -, -, htype, -⟩, -⟩ := normalizeRowOperation_eq_deleteRow.mp hnormalized
        obtain rfl := JsonValue.object.inj hfields
        simp [ownField, ascii] at htype
  obtain ⟨record, rfl⟩ := hputRow
  exact ⟨⟨normalizeRowOperation_normal hkeys hnormalized, record, rfl⟩, rfl⟩

theorem length_of_tableOperations {page : List (RowOperation ν)}
    (h : tableOperations runtime schema rows tableName = .ok page) : page.length = (rows tableName).length := by
  obtain ⟨table, -, hrows⟩ := bind_eq_ok.mp h
  exact (mapM_eq_ok_iff.mp hrows).length_eq.symm

/-- The selected operations are those of one table after another. -/
theorem pages_of_selected {tableNames : List Text} {operations : List (RowOperation ν)}
    (h : selectedOperations runtime schema rows tableNames = .ok operations) :
    ∃ pages, List.Forall₂ (fun tableName page => tableOperations runtime schema rows tableName = .ok page) tableNames
      pages ∧ operations = pages.flatten := by
  rw [selectedOperations] at h
  cases hpages : tableNames.mapM (tableOperations runtime schema rows) with
  | error e =>
      rw [hpages] at h
      cases h
  | ok pages =>
      rw [hpages, map_ok, Except.ok.injEq] at h
      exact ⟨pages, mapM_eq_ok_iff.mp hpages, h.symm⟩

/-- Every selected row is put into a selected table. -/
theorem putsRow_of_selected (hkeys : schema.NonNullKeys) {tableNames : List Text} {operations : List (RowOperation ν)}
    (h : selectedOperations runtime schema rows tableNames = .ok operations) :
    ∀ operation ∈ operations, PutsRow runtime.toRowRuntime schema operation ∧ operation.tableName ∈ tableNames := by
  intro operation hoperation
  obtain ⟨pages, hpages, rfl⟩ := pages_of_selected h
  obtain ⟨page, hpage, hmem⟩ := List.mem_flatten.mp hoperation
  obtain ⟨tableName, hname, htable⟩ := exists_of_forall₂ hpages.flip hpage
  obtain ⟨table, -, hrows⟩ := bind_eq_ok.mp htable
  obtain ⟨row, -, hrow⟩ := exists_of_forall₂ (mapM_eq_ok_iff.mp hrows).flip hmem
  obtain ⟨hputs, rfl⟩ := putsRow_of_bootstrapOperation hkeys hrow
  exact ⟨hputs, hname⟩

/-! ### Identities -/

def BootstrapRuntime.digest (runtime : BootstrapRuntime ν) (text : Text) : String :=
  String.ofList ((runtime.sha256 text).toList.flatMap hexByte)

/-- The text whose digest identifies the row of an operation. -/
def RowOperation.identityText (runtime : BootstrapRuntime ν) (schema : ReplicaSchemaContract)
    (operation : RowOperation ν) : Text := (operation.identityJson schema).print runtime.toNumberFormat

def RowOperation.bootstrapId (runtime : BootstrapRuntime ν) (schema : ReplicaSchemaContract)
    (operation : RowOperation ν) : String :=
  "sync-engine-bootstrap:" ++ ofUtf16Units operation.tableName ++ ":" ++
    runtime.digest (operation.identityText runtime schema)

theorem hexByte_injective : Function.Injective hexByte := by
  intro byte byte' hsame
  have hdigit : ∀ m < 16, ∀ n < 16, Nat.digitChar m = Nat.digitChar n → m = n := by decide
  rw [hexByte, hexByte, List.cons.injEq, List.cons.injEq] at hsame
  have hbound := byte.toNat_lt
  have hbound' := byte'.toNat_lt
  have hhigh := hdigit _ (by omega) _ (by omega) hsame.1
  have hlow := hdigit _ (by omega) _ (by omega) hsame.2.1
  exact UInt8.toNat.inj (by omega)

theorem length_flatMap_hexByte (bytes : List UInt8) : (bytes.flatMap hexByte).length = 2 * bytes.length := by
  induction bytes with
  | nil => rfl
  | cons byte bytes ih =>
      rw [List.flatMap_cons, List.length_append, ih, hexByte, List.length_cons]
      simp only [List.length_cons, List.length_nil]
      omega

theorem flatMap_hexByte_injective : Function.Injective fun bytes : List UInt8 => bytes.flatMap hexByte := by
  intro bytes bytes' hsame
  induction bytes generalizing bytes' with
  | nil =>
      cases bytes' with
      | nil => rfl
      | cons byte' bytes' => cases hsame
  | cons byte bytes ih =>
      cases bytes' with
      | nil => cases hsame
      | cons byte' bytes' =>
          obtain ⟨hfirst, hrest⟩ := List.append_inj hsame rfl
          rw [hexByte_injective hfirst, ih hrest]

theorem digest_injOn {texts : Set Text} (h : Set.InjOn runtime.sha256 texts) : Set.InjOn runtime.digest texts := by
  intro text htext text' htext' hsame
  have hbytes := flatMap_hexByte_injective (String.ofList_injective hsame)
  exact h htext htext' (Vector.toList_inj.mp hbytes)

theorem createIntentHash_of_valid {value : JsonValue ν} (hvalue : value.Valid runtime.toNumberFormat) :
    createIntentHash runtime value = .ok ("sha256:" ++ runtime.digest (value.print runtime.toNumberFormat)) := by
  rw [createIntentHash, canonicalizeJsonTree, canonicalizeTree_of_valid hvalue]
  rfl

theorem eq_of_append_eq {front front' back back' : String} (hlength : back.toList.length = back'.toList.length)
    (h : front ++ back = front' ++ back') : back = back' := by
  have hlists := congrArg String.toList h
  rw [String.toList_append, String.toList_append] at hlists
  exact String.toList_inj.mp (List.append_inj_right' hlists hlength)

theorem sliceFrom_label (digest : String) :
    String.ofList (sliceFrom ("sha256:" ++ digest).toList "sha256:".length) = digest := by
  rw [sliceFrom_natCast, String.toList_append, ← String.length_toList, List.drop_left, String.ofList_toList]

section Identity

variable (hkeys : schema.NonNullKeys) (hputs : PutsRow runtime.toRowRuntime schema operation)

include hkeys hputs

theorem PutsRow.identityJson_eq (htable : schema.tables.get? operation.tableName = some table) :
    operation.identityJson schema = .object [(ascii "table", .string operation.tableName),
        (ascii "key", table.keyArray operation.values)] ∧
      (operation.identityJson schema).Valid runtime.toNumberFormat := by
  have hidentity : operation.identityJson schema = .object [(ascii "table", .string operation.tableName),
      (ascii "key", table.keyArray operation.values)] := by
    rw [RowOperation.identityJson, htable]
    rfl
  refine ⟨hidentity, ?_⟩
  rw [hidentity]
  refine .object (by simp only [List.map_cons, List.map_nil]; decide) ?_
  simp only [List.forall_mem_cons]
  exact ⟨.string _, (hputs.normal.hasKey hkeys htable).keyArray.1, by simp⟩

theorem PutsRow.bootstrapOperationId_eq :
    bootstrapOperationId runtime schema operation = .ok (operation.bootstrapId runtime schema) := by
  obtain ⟨table, htable⟩ := hputs.normal.exists_table
  obtain ⟨hidentity, hvalid⟩ := hputs.identityJson_eq hkeys htable
  have hhasKey := hputs.normal.hasKey hkeys htable
  cases operation with
  | deleteRow name key =>
      obtain ⟨record, hrecord⟩ := hputs.putRow
      cases hrecord
  | putRow name record =>
      have hitems : (table.primaryKey.zipIdx.mapM fun item => keyItem record (fieldPath (ascii "$") (ascii "key"))
          ((inheritedType item.1).getD "undefined") item.1 item.2) =
            .ok (table.primaryKey.map fun column => (record.get? column).getD .null) := by
        rw [← map_fst_zipIdx]
        refine mapM_eq_ok fun item hitem => ?_
        obtain ⟨value, -, hvalue, -⟩ := hhasKey item.1 (List.fst_mem_of_mem_zipIdx hitem)
        rw [keyItem, show record.get? item.1 = some value from hvalue]
        rfl
      have hfound : bootstrapTable schema name (.property (ascii "map")) = (.ok table : Except (RowSyncError ν) _) := by
        rw [bootstrapTable, show schema.tables.get? name = some table from htable]
      rw [hidentity] at hvalid
      have hdigest : createIntentHash runtime (.object [(ascii "table", .string name),
          (ascii "key", .array (table.primaryKey.map fun column => (record.get? column).getD .null))]) =
          .ok ("sha256:" ++ runtime.digest ((RowOperation.putRow name record).identityText runtime schema)) := by
        rw [RowOperation.identityText, hidentity]
        exact createIntentHash_of_valid hvalid
      rw [bootstrapOperationId, hfound, ok_bind]
      refine bind_eq_ok.mpr ⟨_, mapError_eq_ok.mpr (bind_eq_ok.mpr ⟨_, hitems, hdigest⟩), ?_⟩
      rw [sliceFrom_label]
      rfl

omit hkeys hputs in
theorem sorted_identity (name : Text) (key : JsonValue ν) :
    (JsonValue.object [(ascii "table", .string name), (ascii "key", key)]).sorted =
      .object [(ascii "key", key.sorted), (ascii "table", .string name)] := by
  have horder : ¬ascii "table" ≤ ascii "key" := by decide
  rw [sorted_object]
  simp [sortByKey, List.insertionSort_cons, List.orderedInsert, horder, JsonValue.sorted]

/-- The identity of a row tells it from every other row. -/
theorem PutsRow.identityText_ne (hlawful : runtime.toNumberFormat.Lawful)
    (hputs' : PutsRow runtime.toRowRuntime schema operation')
    (hother : OnOtherRow runtime.toRowRuntime schema operation operation') :
    operation.identityText runtime schema ≠ operation'.identityText runtime schema := by
  intro htext
  obtain ⟨table, htable⟩ := hputs.normal.exists_table
  obtain ⟨table', htable'⟩ := hputs'.normal.exists_table
  obtain ⟨hidentity, hvalid⟩ := hputs.identityJson_eq hkeys htable
  obtain ⟨hidentity', hvalid'⟩ := hputs'.identityJson_eq hkeys htable'
  have hkeyArray := (hputs.normal.hasKey hkeys htable).keyArray.2
  have hkeyArray' := (hputs'.normal.hasKey hkeys htable').keyArray.2
  have hparse := parse_print hlawful hvalid
  rw [show (operation.identityJson schema).print runtime.toNumberFormat =
    (operation'.identityJson schema).print runtime.toNumberFormat from htext, parse_print hlawful hvalid', hidentity,
    hidentity', sorted_identity, sorted_identity, hkeyArray, hkeyArray'] at hparse
  simp only [Option.some.injEq, JsonValue.object.injEq, List.cons.injEq, Prod.mk.injEq, JsonValue.string.injEq,
    true_and, and_true] at hparse
  obtain ⟨hkey, hname⟩ := hparse
  refine hother hname.symm ?_
  rw [hputs.normal.encodedKey_eq hkeys htable, hputs'.normal.encodedKey_eq hkeys htable', RowOperation.keyText,
    RowOperation.keyText, hkey]

omit hputs in
/-- Proposals for different rows have different identifiers, unless the digests of the rows collide. -/
theorem bootstrapId_ne (hlawful : runtime.toNumberFormat.Lawful) {texts : Set Text}
    (hdigests : Set.InjOn runtime.sha256 texts) (hputs : PutsRow runtime.toRowRuntime schema operation)
    (hputs' : PutsRow runtime.toRowRuntime schema operation') (htext : operation.identityText runtime schema ∈ texts)
    (htext' : operation'.identityText runtime schema ∈ texts)
    (hother : OnOtherRow runtime.toRowRuntime schema operation operation') :
    operation.bootstrapId runtime schema ≠ operation'.bootstrapId runtime schema := by
  intro hsame
  apply hputs.identityText_ne hkeys hlawful hputs' hother
  apply digest_injOn hdigests htext htext'
  have hlength : ∀ text, (runtime.digest text).toList.length = 64 := by
    intro text
    rw [BootstrapRuntime.digest, String.toList_ofList, length_flatMap_hexByte, Vector.length_toList]
  exact eq_of_append_eq ((hlength _).trans (hlength _).symm) hsame

end Identity

/-! ### Proposals -/

def importedProposals (runtime : BootstrapRuntime ν) (schema : ReplicaSchemaContract) (clientId : String) :
    Int → List (RowOperation ν) → List (ProposedOperation (RowOperation ν))
  | _, [] => []
  | clientSequence, operation :: operations => {
      operationId := operation.bootstrapId runtime schema
      clientId := clientId
      clientSequence := clientSequence
      intentHash := "sha256:" ++ runtime.digest (operation.toJson.print runtime.toNumberFormat)
      intent := operation } :: importedProposals runtime schema clientId (clientSequence + 1) operations

section Proposals

variable {clientId : String} {operations : List (RowOperation ν)} (clientSequence : Int)

theorem map_intent_importedProposals :
    (importedProposals runtime schema clientId clientSequence operations).map ProposedOperation.intent =
      operations := by
  induction operations generalizing clientSequence with
  | nil => rfl
  | cons operation operations ih => rw [importedProposals, List.map_cons, ih]

theorem length_importedProposals :
    (importedProposals runtime schema clientId clientSequence operations).length = operations.length := by
  rw [← List.length_map ProposedOperation.intent, map_intent_importedProposals]

theorem importedProposals_append (first second : List (RowOperation ν)) :
    importedProposals runtime schema clientId clientSequence (first ++ second) =
      importedProposals runtime schema clientId clientSequence first ++
        importedProposals runtime schema clientId (clientSequence + first.length) second := by
  induction first generalizing clientSequence with
  | nil => simp [importedProposals]
  | cons operation first ih =>
      have hnext : clientSequence + 1 + (first.length : Int) =
          clientSequence + ((operation :: first).length : Nat) := by
        rw [List.length_cons]
        omega
      rw [List.cons_append, importedProposals, ih, hnext]
      rfl

theorem bootstrapProposals_eq (hkeys : schema.NonNullKeys)
    (hputs : ∀ operation ∈ operations, PutsRow runtime.toRowRuntime schema operation) :
    bootstrapProposals runtime schema clientId clientSequence operations =
      .ok (importedProposals runtime schema clientId clientSequence operations) := by
  induction operations generalizing clientSequence with
  | nil => rfl
  | cons operation operations ih =>
      rw [List.forall_mem_cons] at hputs
      have hhash : invalidJson (createIntentHash runtime operation.toJson) = (.ok _ : Except (RowSyncError ν) _) :=
        mapError_eq_ok.mpr (createIntentHash_of_valid hputs.1.normal.valid_toJson)
      rw [bootstrapProposals, hputs.1.bootstrapOperationId_eq hkeys, ok_bind, hhash, ok_bind,
        ih (clientSequence + 1) hputs.2]
      rfl

theorem of_mem_importedProposals {proposal : ProposedOperation (RowOperation ν)}
    (h : proposal ∈ importedProposals runtime schema clientId clientSequence operations) :
    clientSequence ≤ proposal.clientSequence ∧
      ∃ operation ∈ operations, proposal.operationId = operation.bootstrapId runtime schema := by
  induction operations generalizing clientSequence with
  | nil => exact absurd h List.not_mem_nil
  | cons operation operations ih =>
      cases List.mem_cons.mp h with
      | inl hfirst =>
          rw [hfirst]
          exact ⟨le_refl _, operation, List.mem_cons_self, rfl⟩
      | inr hrest =>
          obtain ⟨hle, later, hlater, hid⟩ := ih (clientSequence + 1) hrest
          exact ⟨by omega, later, List.mem_cons_of_mem _ hlater, hid⟩

theorem length_append_ne_zero {front : String} (back : String) (h : front.length ≠ 0) : (front ++ back).length ≠ 0 := by
  rw [String.length_append]
  omega

/-- The proposals of different rows are a valid batch. -/
theorem validBatch_importedProposals (hkeys : schema.NonNullKeys) (hlawful : runtime.toNumberFormat.Lawful)
    (hputs : ∀ operation ∈ operations, PutsRow runtime.toRowRuntime schema operation)
    (hother : operations.Pairwise (OnOtherRow runtime.toRowRuntime schema)) {texts : Set Text}
    (hdigests : Set.InjOn runtime.sha256 texts)
    (htexts : ∀ operation ∈ operations, operation.identityText runtime schema ∈ texts) (hclient : clientId.length ≠ 0)
    (hstart : 1 ≤ clientSequence) (hsafe : clientSequence + operations.length ≤ maxSafeInteger + 1) :
    ValidBatch (importedProposals runtime schema clientId clientSequence operations) := by
  induction operations generalizing clientSequence with
  | nil => exact ⟨by simp [importedProposals], .nil⟩
  | cons operation operations ih =>
      rw [List.forall_mem_cons] at hputs htexts
      rw [List.pairwise_cons] at hother
      rw [List.length_cons] at hsafe
      have hrest := ih (clientSequence + 1) hputs.2 hother.2 htexts.2 (by omega) (by omega)
      have hid : (operation.bootstrapId runtime schema).length ≠ 0 :=
        length_append_ne_zero _ (length_append_ne_zero _ (length_append_ne_zero _ (by decide)))
      refine ⟨?_, ?_⟩
      · rw [importedProposals, List.forall_mem_cons]
        exact ⟨⟨hid, hclient, hstart, by dsimp only; omega, length_append_ne_zero _ (by decide)⟩, hrest.valid⟩
      · rw [importedProposals, List.pairwise_cons]
        refine ⟨fun proposal hproposal => ?_, hrest.ordered⟩
        obtain ⟨hle, later, hlater, hsame⟩ := of_mem_importedProposals _ hproposal
        refine ⟨?_, fun _ => by dsimp only; omega⟩
        rw [hsame]
        exact bootstrapId_ne hkeys hlawful hdigests hputs.1 (hputs.2 later hlater) htexts.1 (htexts.2 later hlater)
          (hother.1 later hlater)

end Proposals

/-! ### Runs -/

variable (rows) in
theorem ofSync_run {α : Type} {program : D1Program (WireException ν RowError) α} {tables tables' : D1Tables}
    {result : Except (RowSyncError ν) α} (hrun : program.run D1Tables.answer tables = (result, tables')) :
    (D1Program.ofSync program).run BootstrapDatabase.answer ⟨tables, rows⟩ = (result, ⟨tables', rows⟩) := by
  have hwithin := @Program.run_within _ _ _ _ D1Tables.answer (BootstrapInterface ν) _ BootstrapCall.sync
    (fun _ answer => answer) BootstrapDatabase.answer BootstrapDatabase.sync
    (fun database sync => { database with sync }) (fun _ _ => rfl) (fun _ _ => rfl) (fun _ _ => rfl)
    (fun _ _ _ => rfl) (fun _ => rfl) program ⟨tables, rows⟩
  rw [hrun] at hwithin
  exact hwithin

theorem readBootstrapOperations_run {page : List (RowOperation ν)}
    (hpage : tableOperations runtime schema rows tableName =
    .ok page) (limit offset : Nat) (sync : D1Tables) :
    (readBootstrapOperations runtime schema tableName limit offset).run BootstrapDatabase.answer ⟨sync, rows⟩ =
      (.ok ((page.drop offset).take limit), ⟨sync, rows⟩) := by
  obtain ⟨table, htable, hrows⟩ := bind_eq_ok.mp hpage
  have hslice : (((rows tableName).drop offset).take limit).mapM (bootstrapOperation runtime schema tableName table) =
      .ok ((page.drop offset).take limit) :=
    mapM_eq_ok_iff.mpr (List.forall₂_take limit (List.forall₂_drop offset (mapM_eq_ok_iff.mp hrows)))
  rw [readBootstrapOperations, htable, Program.lift_ok_bind]
  change (Program.lift (((rows tableName).drop offset |>.take limit).mapM
    (bootstrapOperation runtime schema tableName table))).run BootstrapDatabase.answer ⟨sync, rows⟩ = _
  rw [hslice]
  rfl

variable (runtime) in
theorem assertBootstrapAccepted_accepted (head : Nat) (proposals : List (ProposedOperation (RowOperation ν))) :
    assertBootstrapAccepted runtime ((acceptedRecords head proposals).map StoredProposalDecision.decision)
      proposals.length = .ok () := by
  have hnone : ((acceptedRecords head proposals).map StoredProposalDecision.decision :
      List (ProposalDecision (RowOperation ν) (JsonValue ν))).find? ProposalDecision.isRejected = none := by
    induction proposals generalizing head with
    | nil => rfl
    | cons proposal proposals ih => exact ih (head + 1)
  rw [assertBootstrapAccepted, throwIf_neg (by simp [length_acceptedRecords]), ok_bind, hnone]

def progressAfter (count : Nat) : BootstrapProgress := ⟨count, count + 1, count⟩

def importSettings (runtime : BootstrapRuntime ν) (schema : ReplicaSchemaContract) (streamId clientId : String)
    (initial : ReplicaDatabaseState (RowRecord ν))
    (interpreter : LogInterpreter (ReplicaDatabaseState (RowRecord ν)) (RowOperation ν) (RowOperation ν) (JsonValue ν)
      RowError) (batchSize maximumCommitRetries : Int) : BootstrapSettings ν where
  streamId := streamId
  clientId := clientId
  batchSize := batchSize
  maximumEntries := max batchSize defaultProtocolLimits.maximumEntriesPerResponse
  authority := rowSettings runtime.toRowRuntime schema streamId initial interpreter
    ⟨batchSize, max batchSize defaultProtocolLimits.maximumEntriesPerResponse⟩ maximumCommitRetries

theorem ValidBatch.left {Intent : Type} {first second : List (ProposedOperation Intent)}
    (h : ValidBatch (first ++ second)) : ValidBatch first :=
  ⟨fun proposal hproposal => h.valid proposal (List.mem_append_left _ hproposal), (List.pairwise_append.mp h.ordered).1⟩

section Import

variable {streamId clientId : String} {initial : ReplicaDatabaseState (RowRecord ν)}
  {interpreter : LogInterpreter (ReplicaDatabaseState (RowRecord ν)) (RowOperation ν) (RowOperation ν) (JsonValue ν)
    RowError}
  (hinterpreter : createRowLogInterpreter runtime.toRowRuntime schema {
    rejectInvalidOperation := none
    ofRowRejection := RowRejection.toJson } = .ok interpreter)
  (hkeys : schema.NonNullKeys) (hlawful : runtime.toNumberFormat.Lawful) (hhash : schema.schemaHash ≠ [])
  {operations : List (RowOperation ν)}
  (hputs : ∀ operation ∈ operations, PutsRow runtime.toRowRuntime schema operation)
  (hbatch : ValidBatch (importedProposals runtime schema clientId 1 operations))
  (hsafe : (operations.length : Int) ≤ maxSafeInteger) {batchSize maximumCommitRetries : Int} (hsize : 1 ≤ batchSize)
  (hsizeSafe : batchSize ≤ maxSafeInteger) (hretries : 0 ≤ maximumCommitRetries)

variable (runtime schema streamId clientId initial interpreter) in
/-- The sync tables after the import of operations. -/
def HoldsImport (opened : Bool) (done : List (RowOperation ν)) (tables : D1Tables) : Prop :=
  HoldsAccepted runtime.toRowRuntime schema streamId initial interpreter opened
    (importedProposals runtime schema clientId 1 done) tables

include hinterpreter hkeys hlawful hhash hputs hbatch hsafe hsize hsizeSafe hretries

theorem HoldsImport.synchronize {opened : Bool} {done page rest : List (RowOperation ν)} {tables : D1Tables}
    (hparts : operations = done ++ page ++ rest) (hpage : (page.length : Int) ≤ batchSize)
    (hholds : HoldsImport runtime schema streamId clientId initial interpreter opened done tables) :
    ∃ tables' response, HoldsImport runtime schema streamId clientId initial interpreter true (done ++ page) tables' ∧
      response.headSequence = ((done ++ page).length : Int) ∧
      response.decisions = (acceptedRecords done.length
        (importedProposals runtime schema clientId (done.length + 1) page)).map StoredProposalDecision.decision ∧
      ((importSettings runtime schema streamId clientId initial interpreter batchSize
        maximumCommitRetries).authority.synchronize
          ((importSettings runtime schema streamId clientId initial interpreter batchSize maximumCommitRetries).request
            done.length (importedProposals runtime schema clientId (done.length + 1) page))).run
          D1Tables.answer tables =
        (.ok response, tables') := by
  have happend : importedProposals runtime schema clientId 1 done ++
      importedProposals runtime schema clientId (done.length + 1) page =
        importedProposals runtime schema clientId 1 (done ++ page) := by
    rw [importedProposals_append, Int.add_comm]
  rw [hparts, importedProposals_append] at hbatch
  have hlength : (importedProposals runtime schema clientId 1 done).length = done.length :=
    length_importedProposals _
  have hcount : (importedProposals runtime schema clientId (done.length + 1) page).length = page.length :=
    length_importedProposals _
  have hputsPart : ∀ operation ∈ done ++ page, PutsRow runtime.toRowRuntime schema operation :=
    fun operation hoperation => hputs operation (hparts ▸ List.mem_append_left _ hoperation)
  have hnormal : ∀ proposal ∈ importedProposals runtime schema clientId 1 done ++
      importedProposals runtime schema clientId (done.length + 1) page,
      proposal.intent.Normal runtime.toRowRuntime schema := by
    intro proposal hproposal
    rw [happend] at hproposal
    have hintent := List.mem_map_of_mem (f := ProposedOperation.intent) hproposal
    rw [map_intent_importedProposals] at hintent
    exact (hputsPart _ hintent).normal
  have htotal := congrArg List.length hparts
  rw [List.length_append, List.length_append] at htotal
  have hlimits : ProtocolLimits.Resolved
      ⟨batchSize, max batchSize defaultProtocolLimits.maximumEntriesPerResponse⟩ := ⟨hsize, le_max_of_le_left hsize⟩
  have hentriesSafe : max batchSize defaultProtocolLimits.maximumEntriesPerResponse ≤ maxSafeInteger :=
    max_le hsizeSafe (by decide)
  obtain ⟨tables', response, hholds', hhead, hdecisions, hrun⟩ :=
    HoldsAccepted.synchronize hinterpreter hkeys hholds hlawful hhash
    (happend ▸ hbatch.left) hnormal (by rw [List.length_append, hlength, hcount]; omega) hlimits hretries
    (le_max_of_le_left hsize) hentriesSafe (by rw [hcount]; exact hpage)
  rw [hlength] at hhead hdecisions hrun
  rw [hcount] at hhead
  rw [happend] at hholds'
  refine ⟨tables', response, hholds', ?_, hdecisions, hrun⟩
  rw [hhead, List.length_append]

variable (rows) in
/-- The body of the inner loop. -/
theorem importPage_run {opened : Bool} {done page rest : List (RowOperation ν)} {tables : D1Tables}
    (hparts : operations = done ++ page ++ rest) (hpage : (page.length : Int) ≤ batchSize)
    (hholds : HoldsImport runtime schema streamId clientId initial interpreter opened done tables) :
    ∃ tables', HoldsImport runtime schema streamId clientId initial interpreter true (done ++ page) tables' ∧
      (importPage runtime schema (importSettings runtime schema streamId clientId initial interpreter batchSize
        maximumCommitRetries) (progressAfter done.length) page).run BootstrapDatabase.answer ⟨tables, rows⟩ =
        (.ok (progressAfter (done ++ page).length), ⟨tables', rows⟩) := by
  obtain ⟨tables', response, hholds', hhead, hdecisions, hrun⟩ :=
    HoldsImport.synchronize hinterpreter hkeys hlawful hhash
    hputs hbatch hsafe hsize hsizeSafe hretries hparts hpage hholds
  refine ⟨tables', hholds', ?_⟩
  have hproposals : bootstrapProposals runtime schema clientId (done.length + 1) page =
      .ok (importedProposals runtime schema clientId (done.length + 1) page) :=
    bootstrapProposals_eq _ hkeys fun operation hoperation =>
      hputs operation (hparts ▸ List.mem_append_left _ (List.mem_append_right _ hoperation))
  have hcount : (importedProposals runtime schema clientId (done.length + 1) page).length = page.length :=
    length_importedProposals _
  have haccepted := assertBootstrapAccepted_accepted runtime done.length
    (importedProposals runtime schema clientId (done.length + 1) page)
  have hcall := ofSync_run rows hrun
  rw [← hdecisions] at haccepted
  rw [importPage]
  change (Program.lift (bootstrapProposals runtime schema clientId (done.length + 1) page) >>= _).run _ _ = _
  rw [hproposals, Program.lift_ok_bind]
  refine (Program.run_bind_ok _ _ hcall).trans ?_
  rw [haccepted, Program.lift_ok_bind, hhead, hcount]
  change (Except.ok _, _) = _
  simp only [progressAfter, Prod.mk.injEq, Except.ok.injEq, BootstrapProgress.mk.injEq, true_and, and_true,
    List.length_append]
  omega

theorem importTable_run {tableName : Text} {page : List (RowOperation ν)}
    (hpage : tableOperations runtime schema rows tableName = .ok page) {fuel offset : Nat}
    (hoffset : offset ≤ page.length) (hfuel : page.length < fuel + offset) {done rest : List (RowOperation ν)}
    {tables : D1Tables}
    (hparts : operations = done ++ page.drop offset ++ rest)
    (hholds : HoldsImport runtime schema streamId clientId initial interpreter true done tables) :
    ∃ tables',
      HoldsImport runtime schema streamId clientId initial interpreter true (done ++ page.drop offset) tables' ∧
      (importTable runtime schema (importSettings runtime schema streamId clientId initial interpreter batchSize
        maximumCommitRetries) tableName fuel offset (progressAfter done.length)).run BootstrapDatabase.answer
          ⟨tables, rows⟩ =
        (.ok (some (progressAfter (done ++ page.drop offset).length)), ⟨tables', rows⟩) := by
  induction fuel generalizing offset done tables with
  | zero => omega
  | succ fuel ih =>
      have hread := readBootstrapOperations_run hpage batchSize.toNat offset tables
      rw [importTable]
      refine Exists.imp (fun tables' => And.imp_right (Program.run_bind_ok _ _ hread).trans) ?_
      have hslice : ((page.drop offset).take batchSize.toNat).length = _ := List.length_take
      rw [List.length_drop] at hslice
      by_cases hend : ((page.drop offset).take batchSize.toNat).length = 0
      · have hnil : page.drop offset = [] := by
          rw [List.drop_eq_nil_iff]
          omega
        rw [if_pos hend, hnil, List.append_nil]
        exact ⟨tables, hholds, rfl⟩
      · have hsplit := List.prefix_iff_eq_append.mp (List.take_prefix batchSize.toNat (page.drop offset))
        rw [List.drop_drop] at hsplit
        have hnext : operations = done ++ (page.drop offset).take batchSize.toNat ++
            page.drop (offset + ((page.drop offset).take batchSize.toNat).length) ++ rest := by
          rw [List.append_assoc done, hsplit]
          exact hparts
        have hwithin : (((page.drop offset).take batchSize.toNat).length : Int) ≤ batchSize := by omega
        obtain ⟨middle, hmiddle, hfirst⟩ :=
          importPage_run rows hinterpreter hkeys hlawful hhash hputs hbatch hsafe hsize
          hsizeSafe hretries (hnext.trans (List.append_assoc _ _ _)) hwithin hholds
        obtain ⟨tables', hholds', hrest⟩ := ih (by omega) (by omega) hnext hmiddle
        rw [List.append_assoc, hsplit] at hholds' hrest
        refine ⟨tables', hholds', ?_⟩
        rw [if_neg hend]
        exact (Program.run_bind_ok _ _ hfirst).trans hrest

/-- The outer loop takes in the tables one after another. -/
theorem importTables_run {tableNames : List Text} {pages : List (List (RowOperation ν))}
    (hpages : List.Forall₂ (fun tableName page => tableOperations runtime schema rows tableName = .ok page) tableNames
      pages) {fuel : Nat} (hfuel : ∀ page ∈ pages, page.length < fuel) {done : List (RowOperation ν)}
    {tables : D1Tables} (hparts : operations = done ++ pages.flatten)
    (hholds : HoldsImport runtime schema streamId clientId initial interpreter true done tables) :
    ∃ tables', HoldsImport runtime schema streamId clientId initial interpreter true operations tables' ∧
      (importTables runtime schema (importSettings runtime schema streamId clientId initial interpreter batchSize
        maximumCommitRetries) fuel tableNames (progressAfter done.length)).run BootstrapDatabase.answer
          ⟨tables, rows⟩ = (.ok (some (progressAfter operations.length)), ⟨tables', rows⟩) := by
  induction hpages generalizing done tables with
  | nil =>
      rw [List.flatten_nil, List.append_nil] at hparts
      rw [hparts]
      exact ⟨tables, hholds, rfl⟩
  | @cons tableName page tableNames pages hpage _ ih =>
      rw [List.forall_mem_cons] at hfuel
      rw [List.flatten_cons, ← List.append_assoc] at hparts
      obtain ⟨middle, hmiddle, hfirst⟩ := importTable_run hinterpreter hkeys hlawful hhash hputs hbatch hsafe hsize
        hsizeSafe hretries hpage (Nat.zero_le _) hfuel.1 hparts hholds
      obtain ⟨tables', hholds', hrest⟩ := ih hfuel.2 hparts hmiddle
      refine ⟨tables', hholds', ?_⟩
      rw [importTables]
      exact (Program.run_bind_ok _ _ hfirst).trans hrest

end Import

/-! ### The history -/

structure SyncHistory where
  streams : List D1StreamRow
  logEntries : List D1LogEntryRow
  decisions : List D1DecisionRow
  deriving DecidableEq

def D1Tables.historyOf (tables : D1Tables) (streamId : String) : SyncHistory where
  streams := tables.streamsOf streamId
  logEntries := tables.logOf streamId
  decisions := tables.decisionsOf streamId

variable (runtime schema) in
def importedStream (streamId : String) (headSequence : Nat) (state : ReplicaDatabaseState (RowRecord ν)) :
    D1StreamRow where
  streamId := streamId
  schemaHash := ofUtf16Units schema.schemaHash
  headSequence := headSequence
  materializedStateJson := ofUtf16Units (state.toJson.print runtime.toNumberFormat)

variable (runtime schema) in
def importedEntry (streamId clientId : String) (operation : RowOperation ν × Nat) : D1LogEntryRow where
  streamId := streamId
  sequence := operation.2 + 1
  operationId := operation.1.bootstrapId runtime schema
  clientId := clientId
  clientSequence := operation.2 + 1
  intentHash := "sha256:" ++ runtime.digest (operation.1.toJson.print runtime.toNumberFormat)
  operationJson := ofUtf16Units (operation.1.toJson.print runtime.toNumberFormat)

variable (runtime schema) in
/-- The history of a stream that has taken in operations, each of them as it stood. -/
def importedHistory (streamId clientId : String) (operations : List (RowOperation ν))
    (state : ReplicaDatabaseState (RowRecord ν)) : SyncHistory where
  streams := [importedStream runtime schema streamId operations.length state]
  logEntries := operations.zipIdx.map (importedEntry runtime schema streamId clientId)
  decisions := operations.zipIdx.map fun operation =>
    (importedEntry runtime schema streamId clientId operation).decisionRow

variable (runtime schema) in
/-- Nothing has happened on a stream: it has no row yet, or the one of the initial state. -/
structure NoHistory (streamId : String) (tables : D1Tables) : Prop where
  logEntries : tables.logOf streamId = []
  decisions : tables.decisionsOf streamId = []
  streams : tables.streamsOf streamId = [] ∨ ∃ initial, createInitialDatabaseState schema = .ok initial ∧
    tables.streamsOf streamId = [importedStream runtime schema streamId 0 initial]

section History

variable {streamId clientId : String} {initial : ReplicaDatabaseState (RowRecord ν)}
  {interpreter : LogInterpreter (ReplicaDatabaseState (RowRecord ν)) (RowOperation ν) (RowOperation ν) (JsonValue ν)
    RowError} {operations : List (RowOperation ν)} {tables : D1Tables}

theorem streamRow_eq {state : ReplicaDatabaseState (RowRecord ν)}
    (hstate : StorableState runtime.toRowRuntime schema state) (head : Nat) :
    (rowStream runtime.toRowRuntime schema streamId initial interpreter).streamRow head state =
      importedStream runtime schema streamId head state := by
  have htext := hstate.serializeJson_eq
  rw [D1StreamSettings.streamRow, importedStream]
  exact congrArg (D1StreamRow.mk streamId (ofUtf16Units schema.schemaHash) head) htext

variable (clientId interpreter) in
theorem NoHistory.holdsImport (h : NoHistory runtime schema streamId tables)
    (hinitial : createInitialDatabaseState schema = .ok initial) : ∃ opened,
      HoldsImport runtime schema streamId clientId initial interpreter opened [] tables := by
  have hstorable : StorableState runtime.toRowRuntime schema initial := storableState_initial hinitial
  have hstores : tables.Stores (rowStream runtime.toRowRuntime schema streamId initial interpreter) [] :=
    ⟨h.logEntries, h.decisions⟩
  cases h.streams with
  | inl hnone =>
      exact ⟨false, .unopened _ _, ⟨hstores, hnone⟩, rfl, rfl, rfl, hstorable⟩
  | inr hrow =>
      obtain ⟨found, hfound, hrow⟩ := hrow
      obtain rfl := Except.ok.inj (hinitial.symm.trans hfound)
      refine ⟨true, .openedAt ⟨⟨[], initial⟩, .empty⟩, ⟨hstores, ?_⟩, rfl, rfl, rfl, hstorable⟩
      exact hrow.trans (congrArg (fun row => [row]) (streamRow_eq hstorable 0).symm)

variable (streamId initial interpreter) in
theorem rows_acceptedRecords (hputs : ∀ operation ∈ operations, PutsRow runtime.toRowRuntime schema operation)
    (head : Nat) {ledger : Ledger (RowOperation ν) (JsonValue ν)}
    (hledger : ledger = acceptedRecords head (importedProposals runtime schema clientId (head + 1) operations)) :
    (canonicalLog ledger).map (rowStream runtime.toRowRuntime schema streamId initial interpreter).logEntryRow =
      (operations.zipIdx head).map (importedEntry runtime schema streamId clientId) ∧
    ledger.map (rowStream runtime.toRowRuntime schema streamId initial interpreter).decisionRow =
      (operations.zipIdx head).map fun operation =>
        (importedEntry runtime schema streamId clientId operation).decisionRow := by
  subst hledger
  induction operations generalizing head with
  | nil => exact ⟨rfl, rfl⟩
  | cons operation operations ih =>
      rw [List.forall_mem_cons] at hputs
      obtain ⟨hlog, hdecisions⟩ := ih hputs.2 (head + 1)
      have htext := hputs.1.normal.serializeJson_eq
      rw [importedProposals, canonicalLog_acceptedRecords_cons, acceptedRecords, List.map_cons, List.map_cons,
        List.zipIdx_cons, List.map_cons, List.map_cons]
      constructor
      · exact congrArg₂ List.cons (D1LogEntryRow.ext rfl rfl rfl rfl rfl rfl htext) hlog
      · exact congrArg₂ List.cons (congrArg (fun text => { (importedEntry runtime schema streamId clientId
          (operation, head)).decisionRow with operationJson := some text }) htext) hdecisions

theorem HoldsImport.historyOf_eq (hputs : ∀ operation ∈ operations, PutsRow runtime.toRowRuntime schema operation)
    {state : ReplicaDatabaseState (RowRecord ν)}
    (hstate : operations.foldlM (applyRowOperation runtime.toRowRuntime schema) initial = .ok state)
    (h : HoldsImport runtime schema streamId clientId initial interpreter true operations tables) :
    tables.historyOf streamId = importedHistory runtime schema streamId clientId operations state := by
  obtain ⟨w, hholds, hopened, hledger, hfold, hstorable⟩ := h
  rw [map_intent_importedProposals] at hfold
  obtain rfl := Except.ok.inj (hstate.symm.trans hfold)
  obtain ⟨hlog, hdecisions⟩ := rows_acceptedRecords streamId initial interpreter hputs 0 hledger
  have hlength : w.log.length = operations.length := by
    rw [Books.log, hledger, length_canonicalLog_acceptedRecords, length_importedProposals]
  have hstream := hholds.row hopened
  rw [hlength, streamRow_eq hstorable] at hstream
  rw [D1Tables.historyOf, importedHistory, SyncHistory.mk.injEq]
  exact ⟨hstream, hholds.stores.logEntries.trans hlog, hholds.stores.decisions.trans hdecisions⟩

end History

/-! ### The state -/

/-- The state after operations on different rows has exactly their rows. -/
theorem rows_of_puts (hkeys : schema.NonNullKeys) {initial state : ReplicaDatabaseState (RowRecord ν)}
    (hinitial : createInitialDatabaseState schema = .ok initial) {operations : List (RowOperation ν)}
    (hputs : ∀ operation ∈ operations, PutsRow runtime.toRowRuntime schema operation)
    (hother : operations.Pairwise (OnOtherRow runtime.toRowRuntime schema))
    (hstate : operations.foldlM (applyRowOperation runtime.toRowRuntime schema) initial = .ok state)
    (name text : Text) (record : RowRecord ν) :
    (state.rows name).get? text = some record ↔
      RowOperation.putRow name record ∈ operations ∧
        (RowOperation.putRow name record).encodedKey runtime.toRowRuntime schema = .ok text := by
  induction operations using List.reverseRecOn generalizing state with
  | nil =>
      obtain rfl := Except.ok.inj hstate
      rw [rows_initial hinitial]
      simp [InsertionMap.get?, InsertionMap.empty]
  | append_singleton operations operation ih =>
      rw [List.foldlM_append] at hstate
      obtain ⟨middle, hmiddle, hlast⟩ := bind_eq_ok.mp hstate
      rw [List.forall_mem_append, List.forall_mem_singleton] at hputs
      rw [List.pairwise_append] at hother
      obtain ⟨table, htable⟩ := hputs.2.normal.exists_table
      have hmiddleState := rowMap_of_run hkeys hinitial hmiddle
      have happly := hputs.2.normal.apply_eq hkeys htable hmiddleState.schemaHash
      have hafter : middle.after runtime.toRowRuntime table operation = state := by
        rw [List.foldlM_cons, happly] at hlast
        exact Except.ok.inj hlast
      have hencoded := hputs.2.normal.encodedKey_eq hkeys htable
      cases operation with
      | deleteRow put key =>
          obtain ⟨row, hrow⟩ := hputs.2.putRow
          cases hrow
      | putRow put row =>
          have hlastRow : (RowOperation.putRow name record = .putRow put row ∧
              (RowOperation.putRow name record).encodedKey runtime.toRowRuntime schema = .ok text) ↔
              name = put ∧ text = (RowOperation.putRow put row).keyText runtime.toRowRuntime table ∧ record = row := by
            constructor
            · intro hsame
              obtain ⟨rfl, rfl⟩ := RowOperation.putRow.inj hsame.1
              exact ⟨rfl, Except.ok.inj (hsame.2.symm.trans hencoded), rfl⟩
            · intro hsame
              obtain ⟨rfl, rfl, rfl⟩ := hsame
              exact ⟨rfl, hencoded⟩
          rw [← hafter, rows_after, List.mem_append, List.mem_singleton, or_and_right, ← ih hputs.1 hother.1 hmiddle,
            hlastRow]
          by_cases hname : name = put
          · subst hname
            rw [show (RowOperation.putRow name row).tableName = name from rfl, if_pos rfl, get?_onRows,
              Function.update_apply]
            by_cases htext : text = (RowOperation.putRow name row).keyText runtime.toRowRuntime table
            · have hfresh : (middle.rows name).get? text ≠ some record := by
                intro hold
                obtain ⟨hmem, hkey⟩ := (ih hputs.1 hother.1 hmiddle).mp hold
                exact hother.2.2 _ hmem _ List.mem_cons_self rfl (hkey.trans (htext ▸ hencoded.symm))
              simp [htext, htext ▸ hfresh, RowOperation.row?, eq_comm]
            · simp [htext]
          · rw [show (RowOperation.putRow put row).tableName = put from rfl, if_neg hname]
            simp [hname]

/-! ### Options -/

/-- The names, in order, that a selection of tables stands for: those of the schema, or those listed. -/
structure SelectsTables (schema : ReplicaSchemaContract) (tables : Option (List Text)) (tableNames : List Text) :
    Prop where
  ordered : tableNames.Pairwise (· < ·)
  all : tables = none → ∀ name, name ∈ tableNames ↔ schema.tables.get? name ≠ none
  listed : ∀ selected, tables = some selected → selected ≠ [] ∧
    (∀ rawName ∈ selected, trim rawName ≠ [] ∧ schema.tables.get? (trim rawName) ≠ none) ∧
    ∀ name, name ∈ tableNames ↔ ∃ rawName ∈ selected, trim rawName = name

theorem insertionSort_eq_of_ordered {names ordered : List Text} (hnodup : names.Nodup)
    (hordered : ordered.Pairwise (· < ·)) (hmem : ∀ name, name ∈ ordered ↔ name ∈ names) :
    names.insertionSort (· ≤ ·) = ordered := by
  have hperm : names.Perm ordered :=
    (List.perm_ext_iff_of_nodup hnodup (hordered.imp fun hlt => hlt.ne)).mpr fun name => (hmem name).symm
  rw [KeyedList.insertionSort_eq_iff_perm.mpr hperm]
  exact List.Pairwise.insertionSort_eq (hordered.imp fun hlt => hlt.le)

theorem selectTables_eq_ok {selected : List Text}
    (hknown : ∀ rawName ∈ selected, trim rawName ≠ [] ∧ schema.tables.get? (trim rawName) ≠ none) {names : List Text}
    (hnodup : names.Nodup) :
    ∃ names', (selected.foldlM (selectTable schema) names : Except (RowSyncError ν) _) = .ok names' ∧ names'.Nodup ∧
      ∀ name, name ∈ names' ↔ name ∈ names ∨ ∃ rawName ∈ selected, trim rawName = name := by
  induction selected generalizing names with
  | nil => exact ⟨names, rfl, hnodup, by simp⟩
  | cons rawName selected ih =>
      rw [List.forall_mem_cons] at hknown
      have hsome : (schema.tables.get? (trim rawName)).isNone = false := by
        rw [Option.isNone_eq_false_iff, Option.isSome_iff_ne_none]
        exact hknown.1.2
      have hfirst : (selectTable schema names rawName : Except (RowSyncError ν) _) =
          .ok (if trim rawName ∈ names then names else names ++ [trim rawName]) := by
        rw [selectTable, throwIf_neg hknown.1.1, ok_bind, throwIf_neg (by simp [hsome])]
        rfl
      have hnext : (if trim rawName ∈ names then names else names ++ [trim rawName]).Nodup ∧
          ∀ name, name ∈ (if trim rawName ∈ names then names else names ++ [trim rawName]) ↔
            name ∈ names ∨ trim rawName = name := by
        by_cases hmem : trim rawName ∈ names
        · rw [if_pos hmem]
          refine ⟨hnodup, fun name => ⟨.inl, fun hname => hname.elim id fun hsame => hsame ▸ hmem⟩⟩
        · rw [if_neg hmem]
          refine ⟨List.concat_eq_append ▸ hnodup.concat hmem, fun name => ?_⟩
          rw [List.mem_append, List.mem_singleton, eq_comm]
      obtain ⟨names', hrest, hnodup', hnames⟩ := ih hknown.2 hnext.1
      refine ⟨names', ?_, hnodup', fun name => ?_⟩
      · rw [List.foldlM_cons, hfirst]
        exact hrest
      · rw [hnames, hnext.2]
        simp only [List.mem_cons, exists_eq_or_imp, or_assoc]

theorem SelectsTables.resolve_eq {tables : Option (List Text)} {tableNames : List Text}
    (h : SelectsTables schema tables tableNames) :
    (resolveBootstrapTables schema tables : Except (RowSyncError ν) _) = .ok tableNames := by
  cases tables with
  | none =>
      have hnames : (schema.tables.entries.map Prod.fst).insertionSort (· ≤ ·) = tableNames := by
        refine insertionSort_eq_of_ordered schema.tables.nodupKeys h.ordered fun name => ?_
        rw [h.all rfl name, Ne, InsertionMap.get?_eq_none_iff, not_not]
      rw [resolveBootstrapTables, hnames]
  | some selected =>
      obtain ⟨hsome, hknown, hmem⟩ := h.listed selected rfl
      obtain ⟨names, hnames, hnodup, hselected⟩ := selectTables_eq_ok (ν := ν) hknown List.nodup_nil
      have hlength : names.length ≠ 0 := by
        intro hempty
        obtain ⟨rawName, hrawName⟩ := List.exists_mem_of_ne_nil selected hsome
        have hname := (hselected (trim rawName)).mpr (.inr ⟨rawName, hrawName, rfl⟩)
        rw [List.length_eq_zero_iff.mp hempty] at hname
        exact List.not_mem_nil hname
      rw [resolveBootstrapTables, hnames, ok_bind, throwIf_neg hlength, ok_bind, pure_eq_ok]
      refine congrArg Except.ok (insertionSort_eq_of_ordered hnodup h.ordered fun name => ?_)
      rw [hmem, hselected]
      simp

theorem resolveBootstrapOptions_eq {streamId clientId : String} {initial : ReplicaDatabaseState (RowRecord ν)}
    {interpreter : LogInterpreter (ReplicaDatabaseState (RowRecord ν)) (RowOperation ν) (RowOperation ν) (JsonValue ν)
      RowError}
    (hinterpreter : createRowLogInterpreter runtime.toRowRuntime schema {
      rejectInvalidOperation := none
      ofRowRejection := RowRejection.toJson } = .ok interpreter)
    (hinitial : createInitialDatabaseState schema = .ok initial) (options : BootstrapD1RowSyncHistoryOptions)
    (hstream : (readNonBlankString options.streamId "streamId" : Except (RowSyncError ν) _) = .ok streamId)
    (hclient : (readNonBlankString (options.clientId.getD "sync-engine-bootstrap") "clientId" :
      Except (RowSyncError ν) _) = .ok clientId) {batchSize : Int}
    (hbatch : (resolveBatchSize options.batchSize : Except (RowSyncError ν) _) = .ok batchSize) :
    resolveBootstrapOptions runtime schema options = .ok (importSettings runtime schema streamId clientId initial
      interpreter batchSize (options.maximumCommitRetries.getD 4)) ∧ 1 ≤ batchSize ∧ batchSize ≤ maxSafeInteger := by
  have hsize : IsSafeInteger batchSize ∧ 1 ≤ batchSize := by
    obtain ⟨hcheck, hsame⟩ := bind_unit_eq_ok.mp hbatch
    rw [throwIf_eq_ok, not_or, not_not, not_lt] at hcheck
    exact Except.ok.inj hsame ▸ hcheck
  have hentries : IsSafeInteger (max batchSize defaultProtocolLimits.maximumEntriesPerResponse) ∧
      1 ≤ max batchSize defaultProtocolLimits.maximumEntriesPerResponse := by
    rw [IsSafeInteger] at hsize ⊢
    rw [show defaultProtocolLimits.maximumEntriesPerResponse = 256 from rfl, maxSafeInteger] at *
    omega
  have hlimits : (resolveProtocolLimits {
      maximumProposalsPerRequest := some batchSize
      maximumEntriesPerResponse := some (max batchSize defaultProtocolLimits.maximumEntriesPerResponse) } :
        Result (WireException ν RowError) ProtocolLimits) =
      .ok ⟨batchSize, max batchSize defaultProtocolLimits.maximumEntriesPerResponse⟩ := by
    rw [resolveProtocolLimits]
    exact bind_unit_eq_ok.mpr ⟨(assertPositiveSafeInteger_eq_ok _ _ ()).mpr hsize,
      bind_unit_eq_ok.mpr ⟨(assertPositiveSafeInteger_eq_ok _ _ ()).mpr hentries, rfl⟩⟩
  refine ⟨?_, hsize.2, hsize.1.2⟩
  have hauthority : createD1RowSyncAuthority runtime.toRowRuntime {
      streamId := streamId
      schema := schema
      limits := _
      maximumCommitRetries := options.maximumCommitRetries } = _ :=
    createD1RowSyncAuthority_eq hinterpreter hinitial hlimits options.maximumCommitRetries
  rw [resolveBootstrapOptions, hstream, ok_bind, hclient, ok_bind, hbatch, ok_bind]
  dsimp only
  rw [hauthority]
  rfl

theorem selectHistory_eq {tables : D1Tables} {streamId : String} {row : D1StreamRow}
    (hstream : tables.streamsOf streamId = [row]) :
    tables.selectHistory streamId =
      some ⟨row.headSequence, (tables.logOf streamId).length, (tables.decisionsOf streamId).length⟩ := by
  have hfind : (tables.streams.find? fun row => row.streamId = streamId) = some row := by
    rw [← List.head?_filter]
    exact congrArg List.head? hstream
  rw [D1Tables.selectHistory, hfind, List.countP_eq_length_filter, List.countP_eq_length_filter]
  rfl

/-! ### The bootstrap -/

theorem bootstrap_run (options : BootstrapD1RowSyncHistoryOptions) {streamId clientId : String}
    {initial : ReplicaDatabaseState (RowRecord ν)}
    {interpreter : LogInterpreter (ReplicaDatabaseState (RowRecord ν)) (RowOperation ν) (RowOperation ν) (JsonValue ν)
      RowError}
    (hinterpreter : createRowLogInterpreter runtime.toRowRuntime schema {
      rejectInvalidOperation := none
      ofRowRejection := RowRejection.toJson } = .ok interpreter)
    (hinitial : createInitialDatabaseState schema = .ok initial) (hkeys : schema.NonNullKeys)
    (hlawful : runtime.toNumberFormat.Lawful) (hhash : schema.schemaHash ≠ []) {tableNames : List Text}
    {operations : List (RowOperation ν)}
    (hoperations : selectedOperations runtime schema rows tableNames = .ok operations)
    (hbatch : ValidBatch (importedProposals runtime schema clientId 1 operations))
    (hsafe : (operations.length : Int) ≤ maxSafeInteger)
    (hstream : (readNonBlankString options.streamId "streamId" : Except (RowSyncError ν) _) = .ok streamId)
    (hclient : (readNonBlankString (options.clientId.getD "sync-engine-bootstrap") "clientId" :
      Except (RowSyncError ν) _) = .ok clientId) (hselects : SelectsTables schema options.tables tableNames)
    {batchSize : Int} (hsize : (resolveBatchSize options.batchSize : Except (RowSyncError ν) _) = .ok batchSize)
    (hretries : 0 ≤ options.maximumCommitRetries.getD 4) {fuel : Nat}
    (hfuel : ∀ tableName ∈ tableNames, (rows tableName).length < fuel) {tables : D1Tables}
    (hblank : NoHistory runtime schema streamId tables) :
    ∃ tables', HoldsImport runtime schema streamId clientId initial interpreter true operations tables' ∧
      (bootstrapD1RowSyncHistory runtime schema fuel options).run BootstrapDatabase.answer ⟨tables, rows⟩ =
        (.ok (some ⟨streamId, tableNames.length, operations.length, operations.length⟩), ⟨tables', rows⟩) := by
  have hputs : ∀ operation ∈ operations, PutsRow runtime.toRowRuntime schema operation :=
    fun operation hoperation => (putsRow_of_selected hkeys hoperations operation hoperation).1
  obtain ⟨hsettings, hone, hsizeSafe⟩ := resolveBootstrapOptions_eq hinterpreter hinitial options hstream hclient hsize
  obtain ⟨opened, hholds⟩ := hblank.holdsImport clientId interpreter hinitial
  have hparts : operations = [] ++ [] ++ operations := rfl
  have hempty : (([] : List (RowOperation ν)).length : Int) ≤ batchSize := by
    rw [List.length_nil]
    omega
  obtain ⟨opening, response, hopening, hhead, -, hrun⟩ := HoldsImport.synchronize hinterpreter hkeys hlawful hhash
    hputs hbatch hsafe hone hsizeSafe hretries hparts hempty hholds
  have hcall := ofSync_run rows hrun
  have hhistory := hopening.historyOf_eq (by simp) rfl
  rw [D1Tables.historyOf, importedHistory, SyncHistory.mk.injEq] at hhistory
  obtain ⟨hrow, hlog, hdecisions⟩ := hhistory
  have hselected := selectHistory_eq hrow
  rw [hlog, hdecisions] at hselected
  have hread : (readSyncHistory streamId : BootstrapProgram ν _).run BootstrapDatabase.answer ⟨opening, rows⟩ =
      (.ok ⟨0, 0, 0⟩, ⟨opening, rows⟩) := by
    change (Program.lift (readHistoryRow streamId (opening.selectHistory streamId)) : BootstrapProgram ν _).run
      BootstrapDatabase.answer ⟨opening, rows⟩ = _
    rw [hselected]
    rfl
  obtain ⟨pages, hpages, hflatten⟩ := pages_of_selected hoperations
  have hpageFuel : ∀ page ∈ pages, page.length < fuel := by
    intro page hpage
    obtain ⟨tableName, hname, htable⟩ := exists_of_forall₂ hpages.flip hpage
    rw [length_of_tableOperations htable]
    exact hfuel tableName hname
  obtain ⟨tables', hholds', himport⟩ := importTables_run hinterpreter hkeys hlawful hhash hputs hbatch hsafe hone
    hsizeSafe hretries hpages hpageFuel hflatten hopening
  refine ⟨tables', hholds', ?_⟩
  rw [bootstrapD1RowSyncHistory, hsettings, Program.lift_ok_bind]
  refine (Program.run_bind_ok _ _ hcall).trans ((Program.run_bind_ok _ _ hread).trans ?_)
  rw [hhead, assertEmptyHistory, throwIf_neg (by simp), Program.lift_ok_bind, hselects.resolve_eq, Program.lift_ok_bind]
  refine (Program.run_bind_ok _ _ himport).trans ?_
  rfl

theorem resolveBatchSize_returns {batchSize : Option Int}
    (hsize : ∀ size, batchSize = some size → IsSafeInteger size ∧ 1 ≤ size) :
    ∃ size, (resolveBatchSize batchSize : Except (RowSyncError ν) _) = .ok size := by
  cases batchSize with
  | none => exact ⟨64, rfl⟩
  | some size =>
      refine ⟨size, bind_unit_eq_ok.mpr ⟨throwIf_neg ?_, rfl⟩⟩
      rw [not_or, not_not, not_lt]
      exact hsize size rfl

section Bootstrap

variable (hlawful : runtime.toNumberFormat.Lawful)
  (hschema : assertRowReplicationSchema schema = .ok ()) (hkeys : schema.NonNullKeys) (hhash : schema.schemaHash ≠ [])
  {options : BootstrapD1RowSyncHistoryOptions} {streamId clientId : String}
  (hstream : (readNonBlankString options.streamId "streamId" : Except (RowSyncError ν) _) = .ok streamId)
  (hclient : (readNonBlankString (options.clientId.getD "sync-engine-bootstrap") "clientId" :
    Except (RowSyncError ν) _) = .ok clientId) {tableNames : List Text}
  (hselects : SelectsTables schema options.tables tableNames) {operations : List (RowOperation ν)}
  (hoperations : selectedOperations runtime schema rows tableNames = .ok operations)
  (hother : operations.Pairwise (OnOtherRow runtime.toRowRuntime schema))
  (hdigests : Set.InjOn runtime.sha256
    {text | ∃ operation ∈ operations, operation.identityText runtime schema = text})
  (hsafe : (operations.length : Int) ≤ maxSafeInteger)

include hlawful hschema hkeys hhash hstream hclient hselects hoperations hother hdigests hsafe

/-- From a stream without history every bootstrap returns, and leaves one and the same history. -/
theorem bootstrap_history : ∃ initial state,
    (createInitialDatabaseState schema : Except RowError (ReplicaDatabaseState (RowRecord ν))) = .ok initial ∧
    operations.foldlM (applyRowOperation runtime.toRowRuntime schema) initial = .ok state ∧
    ∀ (batchSize maximumCommitRetries : Option Int) (fuel : Nat) (tables : D1Tables),
      (∀ size, batchSize = some size → IsSafeInteger size ∧ 1 ≤ size) → 0 ≤ maximumCommitRetries.getD 4 →
      (∀ tableName ∈ tableNames, (rows tableName).length < fuel) → NoHistory runtime schema streamId tables →
      ∃ tables',
        (bootstrapD1RowSyncHistory runtime schema fuel { options with batchSize, maximumCommitRetries }).run
            BootstrapDatabase.answer ⟨tables, rows⟩ =
          (.ok (some ⟨streamId, tableNames.length, operations.length, operations.length⟩), ⟨tables', rows⟩) ∧
        tables'.historyOf streamId = importedHistory runtime schema streamId clientId operations state := by
  have hputs : ∀ operation ∈ operations, PutsRow runtime.toRowRuntime schema operation :=
    fun operation hoperation => (putsRow_of_selected hkeys hoperations operation hoperation).1
  have htexts : ∀ operation ∈ operations, operation.identityText runtime schema ∈
      {text | ∃ operation ∈ operations, operation.identityText runtime schema = text} :=
    fun operation hoperation => ⟨operation, hoperation, rfl⟩
  have hclientId : clientId.length ≠ 0 := by
    obtain ⟨hcheck, hsame⟩ := bind_unit_eq_ok.mp hclient
    rw [throwIf_eq_ok] at hcheck
    exact Except.ok.inj hsame ▸ hcheck
  have hbatch : ValidBatch (importedProposals runtime schema clientId 1 operations) :=
    validBatch_importedProposals 1 hkeys hlawful hputs hother hdigests htexts hclientId (le_refl 1) (by omega)
  obtain ⟨initial, hinitial⟩ : ∃ initial : ReplicaDatabaseState (RowRecord ν),
      createInitialDatabaseState schema = .ok initial := ⟨_, bind_unit_eq_ok.mpr ⟨hschema, rfl⟩⟩
  obtain ⟨interpreter, hinterpreter⟩ : ∃ interpreter : LogInterpreter (ReplicaDatabaseState (RowRecord ν))
      (RowOperation ν) (RowOperation ν) (JsonValue ν) RowError,
      createRowLogInterpreter runtime.toRowRuntime schema {
        rejectInvalidOperation := none
        ofRowRejection := RowRejection.toJson } = .ok interpreter := ⟨_, bind_unit_eq_ok.mpr ⟨hschema, rfl⟩⟩
  obtain ⟨state, hstate⟩ : ∃ state, operations.foldlM (applyRowOperation runtime.toRowRuntime schema) initial =
      .ok state := by
    have hstart : StorableState runtime.toRowRuntime schema initial := storableState_initial hinitial
    obtain ⟨state, hfold, -⟩ := foldlM_returns
      (I := fun state : ReplicaDatabaseState (RowRecord ν) => state.schemaHash = schema.schemaHash)
      (fun operation hoperation state hstate =>
        applyRowOperation_returns hkeys hstate (hputs operation hoperation).normal)
      hstart.schemaHash
    exact ⟨state, hfold⟩
  refine ⟨initial, state, hinitial, hstate, ?_⟩
  intro batchSize maximumCommitRetries fuel tables hsize hretries hfuel hblank
  obtain ⟨size, hresolved⟩ := resolveBatchSize_returns (ν := ν) hsize
  obtain ⟨tables', hholds, hrun⟩ := bootstrap_run { options with batchSize, maximumCommitRetries } hinterpreter hinitial
    hkeys hlawful hhash hoperations hbatch hsafe hstream hclient hselects hresolved hretries hfuel hblank
  exact ⟨tables', hrun, hholds.historyOf_eq hputs hstate⟩

/-- A bootstrap imports exactly the selected rows. On a stream without history it returns, after one accepted
put for each row, in the order of the table names and of the rows, with sequences and client sequences from one on
and distinct identifiers. The state has exactly those rows. None of this depends on the size of the batches. -/
theorem bootstrap_imports_rows :
    ∃ state,
      (∀ operation ∈ operations, operation.tableName ∈ tableNames ∧
        ∃ record, operation = .putRow operation.tableName record) ∧
      (operations.map fun operation => operation.bootstrapId runtime schema).Nodup ∧
      (∀ name text record, (state.rows name).get? text = some record ↔ RowOperation.putRow name record ∈ operations ∧
        (RowOperation.putRow name record).encodedKey runtime.toRowRuntime schema = .ok text) ∧
      ∀ (batchSize maximumCommitRetries : Option Int) (fuel : Nat) (tables : D1Tables),
        (∀ size, batchSize = some size → IsSafeInteger size ∧ 1 ≤ size) → 0 ≤ maximumCommitRetries.getD 4 →
        (∀ tableName ∈ tableNames, (rows tableName).length < fuel) → NoHistory runtime schema streamId tables →
        ∃ tables',
          (bootstrapD1RowSyncHistory runtime schema fuel { options with batchSize, maximumCommitRetries }).run
              BootstrapDatabase.answer ⟨tables, rows⟩ =
            (.ok (some ⟨streamId, tableNames.length, operations.length, operations.length⟩), ⟨tables', rows⟩) ∧
          tables'.historyOf streamId = importedHistory runtime schema streamId clientId operations state := by
  have hputs : ∀ operation ∈ operations, PutsRow runtime.toRowRuntime schema operation :=
    fun operation hoperation => (putsRow_of_selected hkeys hoperations operation hoperation).1
  obtain ⟨initial, state, hinitial, hstate, hrun⟩ := bootstrap_history hlawful hschema hkeys hhash hstream hclient
    hselects hoperations hother hdigests hsafe
  refine ⟨state, ?rows, ?identifiers, rows_of_puts hkeys hinitial hputs hother hstate, hrun⟩
  case rows =>
    intro operation hoperation
    obtain ⟨hput, hname⟩ := putsRow_of_selected hkeys hoperations operation hoperation
    exact ⟨hname, hput.putRow⟩
  case identifiers =>
    refine List.pairwise_map.mpr (hother.imp_of_mem fun {operation operation'} hmem hmem' hne => ?_)
    exact bootstrapId_ne hkeys hlawful hdigests (hputs operation hmem) (hputs operation' hmem')
      ⟨operation, hmem, rfl⟩ ⟨operation', hmem', rfl⟩ hne

end Bootstrap

end Operations

/-! ### Two notes -/

def noteDigests : List (Text × Vector UInt8 32) := [
  (["\x7b\"key\":[1],", "\"table\":\"notes\"\x7d"].flatMap ascii,
    #v[109, 64, 153, 243, 194, 63, 71, 12, 60, 161, 156, 250, 136, 65, 253, 93, 196, 169, 66, 164, 247, 229, 213, 253,
      131, 97, 117, 56, 132, 222, 249, 168]),
  (["\x7b\"key\":[2],", "\"table\":\"notes\"\x7d"].flatMap ascii,
    #v[86, 214, 92, 24, 240, 176, 156, 38, 27, 45, 166, 179, 69, 125, 225, 76, 243, 144, 24, 14, 218, 19, 45, 89, 175,
      168, 31, 133, 235, 106, 76, 242]),
  (["\x7b\"row\":\x7b\"id\":1,", "\"title\":null\x7d,", "\"table\":\"notes\",",
    "\"type\":\"putRow\"\x7d"].flatMap ascii,
    #v[207, 101, 79, 46, 239, 39, 78, 102, 17, 14, 117, 215, 170, 82, 41, 130, 59, 157, 254, 206, 73, 206, 134, 224,
      234, 209, 40, 57, 211, 224, 168, 219]),
  (["\x7b\"row\":\x7b\"id\":2,", "\"title\":null\x7d,", "\"table\":\"notes\",",
    "\"type\":\"putRow\"\x7d"].flatMap ascii,
    #v[101, 64, 174, 12, 226, 189, 1, 215, 209, 176, 149, 31, 18, 8, 143, 21, 229, 136, 126, 78, 234, 46, 24, 1, 213,
      186, 54, 217, 46, 68, 108, 5])]

def noteBootstrap : BootstrapRuntime Int where
  toRowRuntime := integerRows
  ofByte byte := byte.toNat
  sha256 text := (noteDigests.lookup text).getD (.replicate 32 0)

def storedNote (id : Int) : D1Row Int := InsertionMap.empty.setAll [(ascii "id", .number id), (ascii "title", .null)]

def storedNotes (tableName : Text) : List (D1Row Int) :=
  if tableName = ascii "notes" then [storedNote 1, storedNote 2] else []

def noteRow (id : Int) : RowRecord Int := InsertionMap.empty.setAll [(ascii "id", .number id), (ascii "title", .null)]

theorem selectedOperations_notes : selectedOperations noteBootstrap noteSchema storedNotes [ascii "notes"] =
    .ok [.putRow (ascii "notes") (noteRow 1), .putRow (ascii "notes") (noteRow 2)] := rfl

def storedDatabase (sync : D1Tables) : BootstrapDatabase Int := ⟨sync, storedNotes⟩

theorem noteDigests_injOn : Set.InjOn noteBootstrap.sha256 {text | ∃ operation ∈
    [RowOperation.putRow (ascii "notes") (noteRow 1), .putRow (ascii "notes") (noteRow 2)],
      operation.identityText noteBootstrap noteSchema = text} := by
  intro text htext text' htext' hsame
  obtain ⟨operation, hoperation, rfl⟩ := htext
  obtain ⟨operation', hoperation', rfl⟩ := htext'
  simp only [List.mem_cons, List.not_mem_nil, or_false] at hoperation hoperation'
  rcases hoperation with rfl | rfl
  · rcases hoperation' with rfl | rfl
    · rfl
    · exact absurd hsame (by decide +kernel)
  · rcases hoperation' with rfl | rfl
    · exact absurd hsame (by decide +kernel)
    · rfl

theorem readNonBlankString_of_trimmed {ν : Type} {value : String} (label : String)
    (htrimmed : ofUtf16Units (trim (utf16Units value)) = value) (hlength : value.length ≠ 0) :
    (readNonBlankString value label : Except (RowSyncError ν) String) = .ok value := by
  rw [readNonBlankString, htrimmed, throwIf_neg hlength]
  rfl

theorem selectsTables_notes : SelectsTables noteSchema none [ascii "notes"] := by
  refine ⟨List.pairwise_singleton _ _, fun _ name => ?_, by simp⟩
  rw [List.mem_singleton, noteSchema, InsertionMap.get?_set]
  split
  case isTrue hname => simp [hname]
  case isFalse hname => simp [hname, InsertionMap.get?, InsertionMap.empty]

theorem onOtherRow_notes : [RowOperation.putRow (ascii "notes") (noteRow 1), .putRow (ascii "notes")
    (noteRow 2)].Pairwise (OnOtherRow noteBootstrap.toRowRuntime noteSchema) := by
  refine List.pairwise_pair.mpr fun _ hsame => ?_
  have htexts : ascii "[1]" = ascii "[2]" := Except.ok.inj hsame
  exact absurd htexts (by decide)

theorem bootstrap_imports_notes : ∃ state, (state.rows (ascii "notes")).get? (ascii "[2]") = some (noteRow 2) ∧
    ∀ size : Int, IsSafeInteger size ∧ 1 ≤ size → ∃ tables,
      (bootstrapD1RowSyncHistory noteBootstrap noteSchema 3 { streamId := "stream", batchSize := some size }).run
          BootstrapDatabase.answer (storedDatabase ⟨[], [], []⟩) =
        (.ok (some ⟨"stream", 1, 2, 2⟩), storedDatabase tables) ∧
      tables.historyOf "stream" = importedHistory noteBootstrap noteSchema "stream" "sync-engine-bootstrap"
        [.putRow (ascii "notes") (noteRow 1), .putRow (ascii "notes") (noteRow 2)] state := by
  obtain ⟨state, -, -, hstate, hrun⟩ := @bootstrap_imports_rows Int noteBootstrap noteSchema storedNotes
    integerFormat_lawful rfl noteSchema_keyed.nonNullKeys (by decide) { streamId := "stream" } "stream"
    "sync-engine-bootstrap" (readNonBlankString_of_trimmed _ (by decide +kernel) (by decide))
    (readNonBlankString_of_trimmed _ (by decide +kernel) (by decide)) [ascii "notes"] selectsTables_notes _
    selectedOperations_notes onOtherRow_notes noteDigests_injOn (by decide)
  refine ⟨state, (hstate _ _ _).mpr ⟨by simp, rfl⟩, fun size hsize => ?_⟩
  obtain ⟨tables, hreturns, hhistory⟩ := hrun (some size) none 3 ⟨[], [], []⟩
    (fun found hfound => Option.some.inj hfound ▸ hsize)
    (by decide) (by simp [storedNotes]) ⟨rfl, rfl, .inl rfl⟩
  exact ⟨tables, hreturns, hhistory⟩

def generatedSchema : ReplicaSchemaContract where
  schemaHash := ascii "notes-v2"
  tables := InsertionMap.empty.set (ascii "notes") {
    primaryKey := [ascii "id"]
    columns := noteColumns.set (ascii "length") { affinity := .integer, nullable := true, generated := true } }

/-- A schema with a generated column is not replicated, and not bootstrapped either. -/
theorem bootstrap_generated_column : generatedSchema.NonNullKeys ∧
    selectedOperations noteBootstrap generatedSchema (fun _ => []) [ascii "notes"] = .ok [] ∧
    ∀ fuel, ∃ error, (bootstrapD1RowSyncHistory noteBootstrap generatedSchema fuel {
      streamId := "stream"
      tables := some [ascii "notes"]
      batchSize := some 1 }).run BootstrapDatabase.answer ⟨⟨[], [], []⟩, fun _ => []⟩ =
        (.error error, ⟨⟨[], [], []⟩, fun _ => []⟩) := by
  refine ⟨⟨by decide, ?_⟩, rfl, fun fuel => ?_⟩
  · intro table htable name hname
    obtain rfl := List.mem_singleton.mp htable
    obtain rfl := List.mem_singleton.mp hname
    exact ⟨_, rfl, rfl⟩
  · rw [bootstrapD1RowSyncHistory]
    cases hsettings : resolveBootstrapOptions noteBootstrap generatedSchema {
      streamId := "stream"
      tables := some [ascii "notes"]
      batchSize := some 1 } with
    | error error => exact ⟨error, rfl⟩
    | ok settings =>
        obtain ⟨_, _, h⟩ := bind_eq_ok.mp hsettings
        obtain ⟨_, _, h⟩ := bind_eq_ok.mp h
        obtain ⟨_, _, h⟩ := bind_eq_ok.mp h
        obtain ⟨_, hauthority, _⟩ := bind_eq_ok.mp h
        obtain ⟨_, hinitial, _⟩ := bind_eq_ok.mp hauthority
        obtain ⟨hschema, -⟩ := bind_unit_eq_ok.mp (mapError_eq_ok.mp hinitial)
        have hthrows : (assertRowReplicationSchema generatedSchema).isOk = false := rfl
        rw [hschema] at hthrows
        cases hthrows

end SyncEngine
