import SyncEngine.Model.Route
import SyncEngine.Proof.Batch
import SyncEngine.Proof.RowCodec

/-!
# The row route

What a push over the row route does: the wire codec reads the intents before the authority sees any of
them, so that one invalid intent refuses the request; where all intents are row operations, the route
answers what the authority does.
-/

namespace SyncEngine

open JavaScript JavaScript.JsonValue Throwing

variable {ν ε Intent Operation Rejection State : Type}

theorem forall₂_comp {α β γ : Type} {R : α → β → Prop} {S : β → γ → Prop} {l : List α} {l' : List β}
    {l'' : List γ} (h : List.Forall₂ R l l') (h' : List.Forall₂ S l' l'') :
    List.Forall₂ (fun a c => ∃ b, R a b ∧ S b c) l l'' := by
  induction h generalizing l'' with
  | nil =>
      cases h' with
      | nil => exact .nil
  | cons hfirst _ ih =>
      cases h' with
      | cons hfirst' hrest' => exact .cons ⟨_, hfirst, hfirst'⟩ (ih hrest')

/-- Validity looks at the identities of proposals only. -/
theorem ValidBatch.of_identities {Intent' : Type} {proposals : List (ProposedOperation Intent)}
    {proposals' : List (ProposedOperation Intent')} (h : ValidBatch proposals)
    (hsame : proposals'.map ProposedOperation.toOperationSubmissionIdentity =
      proposals.map ProposedOperation.toOperationSubmissionIdentity) : ValidBatch proposals' := by
  have hvalid := List.forall_mem_map.mpr h.valid
  have hordered : (proposals.map ProposedOperation.toOperationSubmissionIdentity).Pairwise fun earlier later =>
      earlier.operationId ≠ later.operationId ∧
        (earlier.clientId = later.clientId → earlier.clientSequence < later.clientSequence) :=
    List.pairwise_map.mpr h.ordered
  rw [← hsame] at hvalid hordered
  exact ⟨List.forall_mem_map.mp hvalid, List.pairwise_map.mp hordered⟩

theorem ValidRequest.of_identities {Intent' : Type} {request : SyncRequest Intent}
    {request' : SyncRequest Intent'} {limits : ProtocolLimits} (h : ValidRequest request limits)
    (hbase : request'.baseSequence = request.baseSequence)
    (hentries : request'.maximumEntries = request.maximumEntries)
    (hsame : request'.proposals.map ProposedOperation.toOperationSubmissionIdentity =
      request.proposals.map ProposedOperation.toOperationSubmissionIdentity) : ValidRequest request' limits where
  baseNonneg := hbase ▸ h.baseNonneg
  baseSafe := hbase ▸ h.baseSafe
  entries := hentries ▸ h.entries
  entriesSafe := hentries ▸ h.entriesSafe
  withinLimit := by
    have hlength := congrArg List.length hsame
    rw [List.length_map, List.length_map] at hlength
    rw [hlength]
    exact h.withinLimit
  batch := h.batch.of_identities hsame

/-! ### Structurally valid requests -/

def anyCodec (ν ε : Type) : Wire.JsonCodec ν ε (JsonValue ν) where
  encode value := .ok (some value)
  decode value :=
    match value with
    | some value => .ok value
    | none => .error .syntaxError

section Decoding

variable {runtime : WireRuntime ν}

theorem decodeProposal_of_any {value : Unknown ν} {path : String} {proposal : ProposedOperation (JsonValue ν)}
    (hany : decodeProposal runtime value path (anyCodec ν ε) = .ok proposal) :
    (∃ text, (canonicalizeUnknown runtime.toNumberFormat (some proposal.intent) :
      Except (WireException ν ε) Text) = .ok text) ∧
    ∀ {Intent : Type} (codec : Wire.JsonCodec ν ε Intent), decodeProposal runtime value path codec =
      (decodePayload runtime.toNumberFormat codec (some proposal.intent) s!"{path}.intent" >>= fun intent =>
        .ok ⟨proposal.toOperationSubmissionIdentity, intent⟩) := by
  obtain ⟨record, hrecord, h⟩ := bind_eq_ok.mp hany
  obtain ⟨operationId, hoperationId, h⟩ := bind_eq_ok.mp h
  obtain ⟨clientId, hclientId, h⟩ := bind_eq_ok.mp h
  obtain ⟨clientSequence, hclientSequence, h⟩ := bind_eq_ok.mp h
  obtain ⟨intentHash, hintentHash, h⟩ := bind_eq_ok.mp h
  obtain ⟨intent, hintent, h⟩ := bind_eq_ok.mp h
  obtain rfl := Except.ok.inj h
  rw [decodePayload, mapError_eq_ok] at hintent
  obtain ⟨text, htext, hdecode⟩ := bind_eq_ok.mp hintent
  have hfield : ownField record (ascii "intent") = some intent := by
    cases hvalue : ownField record (ascii "intent") with
    | none => simp [hvalue, anyCodec] at hdecode
    | some value =>
        rw [hvalue] at hdecode
        rw [Except.ok.inj hdecode]
  refine ⟨⟨text, hfield ▸ htext⟩, fun codec => ?_⟩
  rw [decodeProposal, hrecord, ok_bind, hoperationId, ok_bind, hclientId, ok_bind, hclientSequence, ok_bind,
    hintentHash, ok_bind, hfield]
  rfl

variable {rows : RowRuntime ν} {schema : ReplicaSchemaContract}

def invalidIntent (path : String) (error : RowError) : WireException ν RowError :=
  .wireDecodeError s!"{path}.intent" "payload codec rejected the value" (some (.applicationError error))

/-- The row codec normalizes the intent of a proposal, or refuses the proposal. -/
theorem decodeProposal_row {value : Unknown ν} {path : String} {proposal : ProposedOperation (JsonValue ν)}
    (hany : decodeProposal runtime value path (anyCodec ν RowError) = .ok proposal) :
    decodeProposal runtime value path (createRowOperationCodec rows schema) =
      match normalizeRowOperation rows schema proposal.intent with
      | .ok operation => .ok ⟨proposal.toOperationSubmissionIdentity, operation⟩
      | .error error => .error (invalidIntent path error) := by
  obtain ⟨⟨text, htext⟩, hdecode⟩ := decodeProposal_of_any hany
  rw [hdecode, decodePayload, htext, ok_bind]
  change ((normalizeRowOperation rows schema proposal.intent).mapError _).mapError _ >>= _ = _
  cases normalizeRowOperation rows schema proposal.intent with
  | ok operation => rfl
  | error error => rfl

def NormalizesTo (rows : RowRuntime ν) (schema : ReplicaSchemaContract) (proposal : ProposedOperation (JsonValue ν))
    (normalized : ProposedOperation (RowOperation ν)) : Prop :=
  normalized.toOperationSubmissionIdentity = proposal.toOperationSubmissionIdentity ∧
    normalizeRowOperation rows schema proposal.intent = .ok normalized.intent

theorem decodeProposal_row_eq_ok {value : Unknown ν} {path : String} {proposal : ProposedOperation (JsonValue ν)}
    {normalized : ProposedOperation (RowOperation ν)}
    (hany : decodeProposal runtime value path (anyCodec ν RowError) = .ok proposal)
    (hnormalizes : NormalizesTo rows schema proposal normalized) :
    decodeProposal runtime value path (createRowOperationCodec rows schema) = .ok normalized := by
  obtain ⟨hidentity, hintent⟩ := hnormalizes
  rw [decodeProposal_row hany, hintent, ← hidentity]

/-- A structurally valid request, seen from its parts. -/
structure Envelops (runtime : WireRuntime ν) (limitOverrides : ProtocolLimitOverrides) (payload : Unknown ν)
    (envelope : SyncRequestEnvelope (JsonValue ν)) (values : List (JsonValue ν)) : Prop where
  proposals : List.Forall₂ (fun value proposal =>
    decodeProposal runtime (some value.1) s!"$.request.proposals[{value.2}]" (anyCodec ν RowError) = .ok proposal)
    values.zipIdx envelope.request.proposals
  decode : ∀ {Intent : Type} (codec : Wire.JsonCodec ν RowError Intent),
    decodeSyncRequestEnvelope runtime payload codec limitOverrides = (do
      let proposals ← values.zipIdx.mapM fun (value, index) =>
        decodeProposal runtime (some value) s!"$.request.proposals[{index}]" codec
      let limits ← (resolveProtocolLimits limitOverrides).mapError .syncEngineError
      let request : SyncRequest Intent :=
        { baseSequence := envelope.request.baseSequence
          maximumEntries := envelope.request.maximumEntries
          proposals }
      (assertSyncRequest request (some limits)).mapError .syncEngineError
      return { protocolVersion := syncProtocolVersion, streamId := envelope.streamId, request })

theorem decodeSyncRequestEnvelope_envelops {limitOverrides : ProtocolLimitOverrides} {payload : Unknown ν}
    {envelope : SyncRequestEnvelope (JsonValue ν)}
    (hany : decodeSyncRequestEnvelope runtime payload (anyCodec ν RowError) limitOverrides = .ok envelope) :
    ∃ values, Envelops runtime limitOverrides payload envelope values := by
  obtain ⟨limits, hlimits, h⟩ := bind_eq_ok.mp hany
  obtain ⟨root, hroot, h⟩ := bind_eq_ok.mp h
  obtain ⟨hversion, h⟩ := bind_unit_eq_ok.mp h
  obtain ⟨streamId, hstream, h⟩ := bind_eq_ok.mp h
  obtain ⟨record, hrecord, h⟩ := bind_eq_ok.mp h
  obtain ⟨values, hvalues, h⟩ := bind_eq_ok.mp h
  obtain ⟨hwithin, h⟩ := bind_unit_eq_ok.mp h
  obtain ⟨proposals, hproposals, h⟩ := bind_eq_ok.mp h
  obtain ⟨baseSequence, hbase, h⟩ := bind_eq_ok.mp h
  obtain ⟨maximumEntries, hmaximum, h⟩ := bind_eq_ok.mp h
  obtain ⟨-, h⟩ := bind_unit_eq_ok.mp h
  obtain rfl := Except.ok.inj h
  refine ⟨values, mapM_eq_ok_iff.mp hproposals, fun codec => ?_⟩
  rw [decodeSyncRequestEnvelope, hlimits, ok_bind, hroot, ok_bind, hversion, ok_bind, hstream, ok_bind, hrecord,
    ok_bind, hvalues, ok_bind, hwithin, ok_bind, hbase, hmaximum]
  rfl

variable {limitOverrides : ProtocolLimitOverrides} {payload : Unknown ν}
  {envelope : SyncRequestEnvelope (JsonValue ν)} {values : List (JsonValue ν)}

theorem NormalizesTo.identities {proposals : List (ProposedOperation (JsonValue ν))}
    {normalized : List (ProposedOperation (RowOperation ν))}
    (h : List.Forall₂ (NormalizesTo rows schema) proposals normalized) :
    normalized.map ProposedOperation.toOperationSubmissionIdentity =
      proposals.map ProposedOperation.toOperationSubmissionIdentity :=
  map_eq_map_of_forall₂ (h.flip.imp fun _ _ hnormalizes => hnormalizes.1)

theorem Envelops.decode_row_eq_ok (h : Envelops runtime limitOverrides payload envelope values)
    {limits : ProtocolLimits}
    (hlimits : (resolveProtocolLimits limitOverrides : Result RowError ProtocolLimits) = .ok limits)
    (hvalid : ValidRequest envelope.request limits) {normalized : List (ProposedOperation (RowOperation ν))}
    (hnormalized : List.Forall₂ (NormalizesTo rows schema) envelope.request.proposals normalized) :
    decodeSyncRequestEnvelope runtime payload (createRowOperationCodec rows schema) limitOverrides = .ok {
      protocolVersion := syncProtocolVersion
      streamId := envelope.streamId
      request := ⟨envelope.request.baseSequence, envelope.request.maximumEntries, normalized⟩ } := by
  have hproposals : values.zipIdx.mapM (fun value => decodeProposal runtime (some value.1)
      s!"$.request.proposals[{value.2}]" (createRowOperationCodec rows schema)) = .ok normalized := by
    refine mapM_eq_ok_iff.mpr ((forall₂_comp h.proposals hnormalized).imp fun value proposal hdecodes => ?_)
    obtain ⟨any, hany, hnormalizes⟩ := hdecodes
    exact decodeProposal_row_eq_ok hany hnormalizes
  have hrequest : ValidRequest (⟨envelope.request.baseSequence, envelope.request.maximumEntries, normalized⟩ :
      SyncRequest (RowOperation ν)) limits := hvalid.of_identities rfl rfl (NormalizesTo.identities hnormalized)
  rw [h.decode]
  refine bind_eq_ok.mpr ⟨normalized, hproposals, bind_eq_ok.mpr ⟨limits, mapError_eq_ok.mpr hlimits, ?_⟩⟩
  exact bind_unit_eq_ok.mpr ⟨mapError_eq_ok.mpr ((assertSyncRequest_eq_ok _ _ _).mpr hrequest), rfl⟩

/-- One intent that is no row operation, and the row codec refuses the request, at the first such intent. -/
theorem Envelops.decode_row_eq_error (h : Envelops runtime limitOverrides payload envelope values)
    {front back : List (ProposedOperation (JsonValue ν))} {proposal : ProposedOperation (JsonValue ν)}
    (hsplit : envelope.request.proposals = front ++ proposal :: back)
    (hfront : ∀ earlier ∈ front, ∃ operation, normalizeRowOperation rows schema earlier.intent = .ok operation)
    {error : RowError} (herror : normalizeRowOperation rows schema proposal.intent = .error error) :
    decodeSyncRequestEnvelope runtime payload (createRowOperationCodec rows schema) limitOverrides =
      .error (invalidIntent s!"$.request.proposals[{front.length}]" error) := by
  have hproposals := h.proposals
  rw [hsplit] at hproposals
  have hbefore := List.forall₂_take_append _ _ _ hproposals
  obtain ⟨⟨value, index⟩, later, hany, -, hdrop⟩ :=
    List.forall₂_cons_right_iff.mp (List.forall₂_drop_append _ _ _ hproposals)
  obtain rfl : index = front.length := by
    have hget : values.zipIdx[front.length]? = some (value, index) := by
      rw [← List.head?_drop, hdrop, List.head?_cons]
    rw [List.getElem?_zipIdx, Option.map_eq_some_iff] at hget
    obtain ⟨value', -, hpair⟩ := hget
    simpa using (congrArg Prod.snd hpair).symm
  have hzip : values.zipIdx = values.zipIdx.take front.length ++ (value, front.length) :: later := by
    rw [← hdrop, List.take_append_drop]
  have hloop : values.zipIdx.mapM (fun value => decodeProposal runtime (some value.1)
      s!"$.request.proposals[{value.2}]" (createRowOperationCodec rows schema)) =
        .error (invalidIntent s!"$.request.proposals[{front.length}]" error) := by
    rw [hzip]
    refine mapM_eq_error (fun earlier hearlier => ?_) ?_
    · obtain ⟨any, hmem, hdecode⟩ := exists_of_forall₂ hbefore hearlier
      obtain ⟨operation, hoperation⟩ := hfront any hmem
      exact ⟨⟨any.toOperationSubmissionIdentity, operation⟩, decodeProposal_row_eq_ok hdecode ⟨rfl, hoperation⟩⟩
    · dsimp only at hany
      rw [decodeProposal_row hany, herror]
  rw [h.decode]
  exact bind_eq_error.mpr (.inl hloop)

end Decoding

/-! ### The answer to an invalid intent -/

section Refusal

variable (runtime : RouteRuntime ν) (rows : RowRuntime ν)

theorem count_invalidIntent (index : Nat) (error : RowError) {c : Char} (hc : c.isDigit = false) :
    ((RouteException.wireException (invalidIntent s!"$.request.proposals[{index}]" error)).message
      runtime.toWireRuntime (rowErrorClass runtime rows)).toList.count c =
    ("$.request.proposals[].intent: payload codec rejected the value").toList.count c := by
  have hdigits : index.repr.toList.count c = 0 := by
    rw [List.count_eq_zero, Nat.toList_repr]
    intro hmem
    rw [Nat.isDigit_of_mem_toDigits (by decide) (by decide) hmem] at hc
    exact absurd hc (by decide)
  have hpath : (s!"$.request.proposals[{index}]").toList.count c = ("$.request.proposals[]").toList.count c := by
    change ("$.request.proposals[" ++ index.repr ++ "]").toList.count c = ("$.request.proposals[" ++ "]").toList.count c
    simp only [String.toList_append, List.count_append, hdigits, Nat.add_zero]
  generalize s!"$.request.proposals[{index}]" = path at *
  change (path ++ ".intent" ++ ": " ++ "payload codec rejected the value").toList.count c =
    ("$.request.proposals[]" ++ ".intent" ++ ": " ++ "payload codec rejected the value").toList.count c
  simp only [String.toList_append, List.count_append, hpath]

/-- The texts of a retryable conflict have letters that the message of a refused intent lacks. -/
theorem not_retryable_invalidIntent (index : Nat) (error : RowError) :
    isRetryableSyncConflict runtime.toWireRuntime (rowErrorClass runtime rows)
      (.wireException (invalidIntent s!"$.request.proposals[{index}]" error)) = false := by
  rw [isRetryableSyncConflict, Bool.and_eq_false_iff]
  refine .inr (Bool.or_eq_false_iff.mpr ⟨?_, ?_⟩)
  · rw [Bool.eq_false_iff]
    intro hincludes
    have hle := count_le_of_includes hincludes 'g'
    rw [count_invalidIntent runtime rows index error (by decide)] at hle
    exact absurd hle (by decide)
  · rw [Bool.eq_false_iff]
    intro hincludes
    have hle := count_le_of_includes hincludes 'y'
    rw [count_invalidIntent runtime rows index error (by decide)] at hle
    exact absurd hle (by decide)

def refusalBody (index : Nat) : JsonValue ν := .object [
  (ascii "code", runtime.string "sync-protocol-error"),
  (ascii "message", runtime.string
    s!"$.request.proposals[{index}].intent: payload codec rejected the value")]

theorem errorResponse_invalidIntent (index : Nat) (error : RowError) :
    errorResponse runtime (rowErrorClass runtime rows)
      (.wireException (invalidIntent s!"$.request.proposals[{index}]" error)) =
    jsonResponse runtime (refusalBody runtime index) 400 := by
  have hretry := not_retryable_invalidIntent runtime rows index error
  have hstatus : statusForError runtime.toWireRuntime (rowErrorClass runtime rows)
      (.wireException (invalidIntent s!"$.request.proposals[{index}]" error)) = 400 := by
    rw [invalidIntent] at hretry ⊢
    rw [statusForError, hretry]
    · rfl
    all_goals simp
  have hcode : codeForError runtime.toWireRuntime (rowErrorClass runtime rows)
      (.wireException (invalidIntent s!"$.request.proposals[{index}]" error)) 400 = "sync-protocol-error" := by
    rw [invalidIntent] at hretry ⊢
    rw [codeForError, hretry]
    · rfl
    all_goals simp
  have hmessage : (RouteException.wireException (invalidIntent s!"$.request.proposals[{index}]" error)).message
      runtime.toWireRuntime (rowErrorClass runtime rows) =
        s!"$.request.proposals[{index}].intent: payload codec rejected the value" := by
    change "$.request.proposals[" ++ index.repr ++ "]" ++ ".intent" ++ ": " ++ "payload codec rejected the value" =
      "$.request.proposals[" ++ index.repr ++ "].intent: payload codec rejected the value"
    apply String.toList_inj.mp
    simp only [String.toList_append, List.append_assoc]
    rfl
  rw [errorResponse, hstatus, hcode, if_neg (by decide), refusalBody, hmessage]

end Refusal

/-! ### The authority's side -/

theorem assertProposals_congr {proposals proposals' : List (ProposedOperation Intent)}
    (h : List.Forall₂ (fun proposal proposal' =>
      proposal'.toOperationSubmissionIdentity = proposal.toOperationSubmissionIdentity) proposals proposals')
    {index : ProposalBatchIndex} :
    (proposals'.foldlM assertBatchedProposal index : Result ε ProposalBatchIndex) =
      proposals.foldlM assertBatchedProposal index := by
  induction h generalizing index with
  | nil => rfl
  | @cons proposal proposal' _ _ hfirst _ ih =>
      have hsame : (assertBatchedProposal index proposal' : Result ε ProposalBatchIndex) =
          assertBatchedProposal index proposal := by
        obtain ⟨identity, intent⟩ := proposal
        obtain ⟨identity', intent'⟩ := proposal'
        obtain rfl : identity' = identity := hfirst
        rfl
      rw [List.foldlM_cons, List.foldlM_cons, hsame]
      exact bind_congr fun next => ih

/-- Proposals that the interpreter does not tell apart. -/
def SameProposal (interpreter : LogInterpreter State Intent Operation Rejection ε)
    (proposal proposal' : ProposedOperation Intent) : Prop :=
  proposal'.toOperationSubmissionIdentity = proposal.toOperationSubmissionIdentity ∧
    ∀ state, interpreter.decide state proposal' = interpreter.decide state proposal

namespace InMemoryLogServer

variable {settings : LogServerSettings State Intent Operation Rejection ε}

theorem processProposal_sameProposal (server : InMemoryLogServer State Operation Rejection)
    {proposal proposal' : ProposedOperation Intent} (h : SameProposal settings.interpreter proposal proposal')
    (staged : StagedServerTransition State Operation Rejection) :
    processProposal settings server proposal' staged = processProposal settings server proposal staged := by
  obtain ⟨identity, intent⟩ := proposal
  obtain ⟨identity', intent'⟩ := proposal'
  obtain ⟨hidentity, hdecide⟩ := h
  obtain rfl : identity' = identity := hidentity
  simp only [processProposal, replayDecision, assertClientPositionFree, decideProposal, hdecide,
    ProposedOperation.committedAt]

theorem processProposals_sameProposals (server : InMemoryLogServer State Operation Rejection)
    {proposals proposals' : List (ProposedOperation Intent)}
    (h : List.Forall₂ (SameProposal settings.interpreter) proposals proposals')
    (staged : StagedServerTransition State Operation Rejection) :
    processProposals settings server proposals' staged = processProposals settings server proposals staged := by
  induction h generalizing staged with
  | nil => rfl
  | cons hfirst _ ih =>
      rw [processProposals, processProposals, processProposal_sameProposal server hfirst]
      refine bind_congr fun decided => ?_
      dsimp only
      rw [ih]

/-- A call depends on the identities of its proposals and on what the interpreter decides about them. -/
theorem synchronize_congr (server : InMemoryLogServer State Operation Rejection)
    {request request' : SyncRequest Intent} (hbase : request'.baseSequence = request.baseSequence)
    (hentries : request'.maximumEntries = request.maximumEntries)
    (h : List.Forall₂ (SameProposal settings.interpreter) request.proposals request'.proposals) :
    synchronize settings server request' = synchronize settings server request := by
  have hlength := h.length_eq
  have hassert : (assertSyncRequest request' (some settings.limits) : Result ε Unit) =
      assertSyncRequest request (some settings.limits) := by
    rw [assertSyncRequest, assertSyncRequest, assertRequestWithinLimits, assertRequestWithinLimits, hbase, hentries,
      hlength, assertProposalBatch, assertProposalBatch, assertProposals_congr (h.imp fun _ _ hsame => hsame.1)]
  rw [synchronize, synchronize, hassert, hbase, processProposals_sameProposals server h]
  simp only [respond, hbase, hentries]

end InMemoryLogServer

theorem Synchronized.decidedAs {settings : LogServerSettings State Intent Operation Rejection ε}
    {before after : Books State Operation Rejection} {request : SyncRequest Intent}
    {response : SyncResponse Operation Rejection} (h : Synchronized settings before after request response)
    (hids : (after.ledger.map fun record => record.identity.operationId).Nodup) :
    List.Forall₂ (fun proposal decision =>
      (∀ record, before.find? proposal.operationId = some record → record.decision = decision) ∧
      (before.find? proposal.operationId = none → DecidedAs settings.interpreter proposal decision))
      request.proposals response.decisions := by
  refine forall₂_imp_mem h.recorded fun proposal hproposal decision _ hrecord => ⟨?_, fun hnew => ?_⟩
  · intro record hfind
    have hmem := h.ledger_prefix.subset (List.mem_of_find?_eq_some hfind)
    have hid : record.identity.operationId = proposal.operationId := by simpa using List.find?_some hfind
    rw [KeyedList.eq_of_key_eq hids hmem hrecord hid]
  · rcases h.decided _ hrecord with hold | ⟨other, hother, hidentity, hdecided⟩
    · exact absurd rfl (Books.find?_eq_none.mp hnew _ hold)
    · have hproposals := List.pairwise_map.mpr (h.valid.batch.ordered.imp fun hapart => hapart.1)
      have hsame : proposal.operationId = other.operationId :=
        congrArg (fun identity => identity.operationId) hidentity
      obtain rfl := KeyedList.eq_of_key_eq hproposals hproposal hother hsame
      exact hdecided

/-- The ledgers and states of a row authority: normal operations, reasons that the interpreter gives. -/
structure RowLedger (rows : RowRuntime ν) (schema : ReplicaSchemaContract)
    (rejectInvalidOperation : Option (RowError → ProposedOperation (JsonValue ν) → JsonValue ν))
    (ledger : Ledger (RowOperation ν) (JsonValue ν)) (state : ReplicaDatabaseState (RowRecord ν)) : Prop where
  schemaHash : state.schemaHash = schema.schemaHash
  accepted : ∀ record ∈ ledger, ∀ operationId sequence operation,
    record.decision = .accepted operationId sequence operation → operation.Normal rows schema
  rejected : ∀ record ∈ ledger, ∀ operationId reason, record.decision = .rejected operationId reason →
    ∃ error proposal, reason = rejectionReason rows rejectInvalidOperation error proposal

section RowAuthority

variable {rows : RowRuntime ν} {schema : ReplicaSchemaContract} (hkeys : schema.NonNullKeys)
  {rejectInvalidOperation : Option (RowError → ProposedOperation (JsonValue ν) → JsonValue ν)}
  {interpreter : LogInterpreter (ReplicaDatabaseState (RowRecord ν)) (JsonValue ν) (RowOperation ν) (JsonValue ν)
    RowError}
  (hinterpreter : createRowLogInterpreterOfUnknown rows schema rejectInvalidOperation = .ok interpreter)

include hinterpreter

theorem interpreter_apply : interpreter.apply = applyRowOperation rows schema := by
  obtain ⟨-, hcreated⟩ := bind_unit_eq_ok.mp hinterpreter
  rw [← Except.ok.inj hcreated]

theorem interpreter_decide (state : ReplicaDatabaseState (RowRecord ν)) (proposal : ProposedOperation (JsonValue ν)) :
    interpreter.decide state proposal = .ok
      (match normalizeRowOperation rows schema proposal.intent with
      | .ok operation => .accepted operation
      | .error error => .rejected (rejectionReason rows rejectInvalidOperation error proposal)) := by
  obtain ⟨-, hcreated⟩ := bind_unit_eq_ok.mp hinterpreter
  rw [← Except.ok.inj hcreated]
  dsimp only
  cases normalizeRowOperation rows schema proposal.intent <;> rfl

omit hinterpreter in
theorem createRowLogInterpreter_eq (rows : RowRuntime ν) (schema : ReplicaSchemaContract) :
    createRowLogInterpreter rows schema { rejectInvalidOperation := none, ofRowRejection := RowRejection.toJson } =
      (createRowLogInterpreterOfUnknown rows schema none).map fun interpreter => {
        decide := fun state proposal => interpreter.decide state (proposal.mapIntent RowOperation.toJson)
        apply := interpreter.apply } := by
  rw [createRowLogInterpreter, createRowLogInterpreterOfUnknown]
  cases assertRowReplicationSchema schema with
  | error error => rfl
  | ok _ =>
      refine congrArg Except.ok ((LogInterpreter.mk.injEq ..).mpr ⟨?_, rfl⟩)
      funext _ proposal
      dsimp only [ProposedOperation.mapIntent]
      cases normalizeRowOperation rows schema proposal.intent.toJson <;> rfl

include hkeys

theorem accepted_applies {state : ReplicaDatabaseState (RowRecord ν)} (hstate : state.schemaHash = schema.schemaHash)
    {proposal : ProposedOperation (JsonValue ν)} {operation : RowOperation ν}
    (hdecide : interpreter.decide state proposal = .ok (.accepted operation)) :
    operation.Normal rows schema ∧
      ∃ next, interpreter.apply state operation = .ok next ∧ next.schemaHash = schema.schemaHash := by
  rw [interpreter_decide hinterpreter] at hdecide
  cases hnormalize : normalizeRowOperation rows schema proposal.intent with
  | error error =>
      rw [hnormalize] at hdecide
      simp at hdecide
  | ok normalized =>
      rw [hnormalize] at hdecide
      obtain rfl := DecisionDraft.accepted.inj (Except.ok.inj hdecide)
      have hnormal := normalizeRowOperation_normal hkeys hnormalize
      rw [interpreter_apply hinterpreter]
      exact ⟨hnormal, applyRowOperation_returns hkeys hstate hnormal⟩

/-- The run lemma of a row authority: every justified ledger is one of rows. -/
theorem Justified.rowLedger {initialState state : ReplicaDatabaseState (RowRecord ν)}
    (hinitial : initialState.schemaHash = schema.schemaHash) {ledger : Ledger (RowOperation ν) (JsonValue ν)}
    (h : Justified interpreter initialState ledger state) :
    RowLedger rows schema rejectInvalidOperation ledger state := by
  induction h with
  | empty => exact ⟨hinitial, by simp, by simp⟩
  | reject _ proposal reason _ _ hdecide ih =>
      refine ⟨ih.schemaHash, List.forall_mem_append.mpr ⟨ih.accepted, ?_⟩,
        List.forall_mem_append.mpr ⟨ih.rejected, ?_⟩⟩
      · simp
      · rw [List.forall_mem_singleton]
        intro operationId reason' hreason
        obtain ⟨-, rfl⟩ := ProposalDecision.rejected.inj hreason
        rw [interpreter_decide hinterpreter] at hdecide
        cases hnormalize : normalizeRowOperation rows schema proposal.intent with
        | ok operation =>
            rw [hnormalize] at hdecide
            simp at hdecide
        | error error =>
            rw [hnormalize] at hdecide
            exact ⟨error, proposal, (DecisionDraft.rejected.inj (Except.ok.inj hdecide)).symm⟩
  | @accept _ _ next _ proposal operation _ _ hdecide happly ih =>
      obtain ⟨hnormal, next', hnext, hschema⟩ := accepted_applies hkeys hinterpreter ih.schemaHash hdecide
      obtain rfl := Except.ok.inj (happly.symm.trans hnext)
      refine ⟨hschema, List.forall_mem_append.mpr ⟨ih.accepted, ?_⟩,
        List.forall_mem_append.mpr ⟨ih.rejected, ?_⟩⟩
      · rw [List.forall_mem_singleton]
        intro operationId sequence operation' haccepted
        obtain ⟨-, -, rfl⟩ := ProposalDecision.accepted.inj haccepted
        exact hnormal
      · simp

theorem processAll_returns {state : ReplicaDatabaseState (RowRecord ν)}
    (hstate : state.schemaHash = schema.schemaHash) (proposals : List (ProposedOperation (JsonValue ν))) :
    ∃ next, interpreter.processAll state proposals = .ok next := by
  have hstep : ∀ proposal ∈ proposals, ∀ state : ReplicaDatabaseState (RowRecord ν),
      state.schemaHash = schema.schemaHash →
        ∃ next, interpreter.process state proposal = .ok next ∧ next.schemaHash = schema.schemaHash := by
    intro proposal _ state hstate
    have hdecide := interpreter_decide hinterpreter state proposal
    rw [LogInterpreter.process, hdecide]
    cases hnormalize : normalizeRowOperation rows schema proposal.intent with
    | error error => exact ⟨state, rfl, hstate⟩
    | ok operation =>
        rw [hnormalize] at hdecide
        obtain ⟨-, next, happly, hschema⟩ := accepted_applies hkeys hinterpreter hstate hdecide
        exact ⟨next, happly, hschema⟩
  obtain ⟨next, hnext, -⟩ := foldlM_returns hstep hstate
  exact ⟨next, hnext⟩

end RowAuthority

/-! ### Pushes -/

abbrev RowServer (ν : Type) :=
  InMemoryLogServer (ReplicaDatabaseState (RowRecord ν)) (RowOperation ν) (JsonValue ν)

/-- A row authority behind a row route. The route and the authority are created from their options; the
callbacks of the application resolve a stream, do not throw, and give reasons that can be written. -/
structure RowRouteSetup (ν : Type) where
  runtime : RouteRuntime ν
  rows : RowRuntime ν
  schema : ReplicaSchemaContract
  rejectInvalidOperation : Option (RowError → ProposedOperation (JsonValue ν) → JsonValue ν)
  interpreter : LogInterpreter (ReplicaDatabaseState (RowRecord ν)) (JsonValue ν) (RowOperation ν) (JsonValue ν)
    RowError
  initialState : ReplicaDatabaseState (RowRecord ν)
  authorityLimits : ProtocolLimitOverrides
  settings : LogServerSettings (ReplicaDatabaseState (RowRecord ν)) (JsonValue ν) (RowOperation ν) (JsonValue ν)
    RowError
  fresh : RowServer ν
  options : CreateRowSyncRouteServerOptions ν (RowServer ν)
  limits : ProtocolLimits
  route : NextSyncServer RowError (RowServer ν)
  lawful : runtime.toWireRuntime.Lawful
  sameFormat : rows.toNumberFormat = runtime.toNumberFormat
  keys : schema.NonNullKeys
  createsInterpreter : createRowLogInterpreterOfUnknown rows schema rejectInvalidOperation = .ok interpreter
  createsState : createInitialDatabaseState schema = .ok initialState
  createsServer : InMemoryLogServer.create ⟨initialState, interpreter, authorityLimits⟩ = .ok (settings, fresh)
  createsRoute : createRowSyncRouteServer runtime rows options = .ok route
  sameSchema : options.schema = schema
  authority : ∀ context, resolveAuthority (options.toRouteOptions rows) context =
    .ok (InMemoryLogServer.rowRouteAuthority settings)
  resolvesLimits : (resolveProtocolLimits options.limitOverrides : Result RowError ProtocolLimits) = .ok limits
  resolvesStream : ∀ resolveStream, options.resolveStream = some resolveStream → ∀ context,
    ∃ streamId, resolveStream context = .ok streamId ∧ streamId.length ≠ 0
  reports : ∀ onError, options.onError = some onError → ∀ exception request, onError exception request = .ok ()
  reasons : ∀ error proposal, (options.toRouteOptions rows).rejectionCodec.Encodes runtime.toNumberFormat
    (rejectionReason rows rejectInvalidOperation error proposal)

namespace RowRouteSetup

variable (setup : RowRouteSetup ν)

def Carries (request : RouteRequest) (envelope : SyncRequestEnvelope (JsonValue ν)) : Prop :=
  ∃ payload, readRequestJson setup.runtime request (setup.options.maximumRequestBytes.getD 1048576) =
      (.ok payload : Except (RouteException ν RowError) (JsonValue ν)) ∧
    decodeSyncRequestEnvelope setup.runtime.toWireRuntime (some payload) (anyCodec ν RowError)
      setup.options.limitOverrides = .ok envelope

def IsRowOperation (intent : JsonValue ν) : Prop :=
  ∃ operation, normalizeRowOperation setup.rows setup.schema intent = .ok operation

variable {setup} {request : RouteRequest} {envelope : SyncRequestEnvelope (JsonValue ν)}

theorem push_eq (server : RowServer ν) : setup.route.push request server =
    handleSyncRoute setup.runtime (rowErrorClass setup.runtime setup.rows) .push request
      (setup.options.toRouteOptions setup.rows) server := by
  obtain ⟨-, hroute⟩ := bind_unit_eq_ok.mp setup.createsRoute
  rw [← Except.ok.inj hroute]

theorem codecs_eq : (setup.options.toRouteOptions setup.rows).intentCodec =
      createRowOperationCodec setup.rows setup.schema ∧
    (setup.options.toRouteOptions setup.rows).operationCodec = createRowOperationCodec setup.rows setup.schema := by
  rw [CreateRowSyncRouteServerOptions.toRouteOptions, setup.sameSchema]
  exact ⟨rfl, rfl⟩

theorem catchRoute_eq (exception : RouteException ν RowError) :
    catchRoute setup.runtime (rowErrorClass setup.runtime setup.rows) (setup.options.toRouteOptions setup.rows)
      request exception =
    .ok (errorResponse setup.runtime (rowErrorClass setup.runtime setup.rows) exception) := by
  rw [catchRoute]
  cases hon : setup.options.onError with
  | none =>
      simp only [CreateRowSyncRouteServerOptions.toRouteOptions, hon]
      rfl
  | some onError =>
      simp only [CreateRowSyncRouteServerOptions.toRouteOptions, hon, setup.reports onError hon]
      rfl

theorem admitRoute_eq_ok {payload : JsonValue ν} {envelope : SyncRequestEnvelope (RowOperation ν)}
    (hread : readRequestJson setup.runtime request (setup.options.maximumRequestBytes.getD 1048576) =
      (.ok payload : Except (RouteException ν RowError) (JsonValue ν)))
    (hdecode : decodeSyncRequestEnvelope setup.runtime.toWireRuntime (some payload)
      (createRowOperationCodec setup.rows setup.schema) setup.options.limitOverrides = .ok envelope)
    (hstream : envelope.streamId.length ≠ 0) :
    admitRoute setup.runtime .push request (setup.options.toRouteOptions setup.rows) =
      .ok (envelope, InMemoryLogServer.rowRouteAuthority setup.settings) := by
  rw [admitRoute]
  refine bind_eq_ok.mpr ⟨payload, hread, bind_eq_ok.mpr ⟨envelope, ?_, ?_⟩⟩
  · rw [codecs_eq.1, mapError_eq_ok]
    exact hdecode
  · have hresolve : ∃ streamId, resolveStreamId (setup.options.toRouteOptions setup.rows)
        ⟨request, .push, envelope.streamId, envelope⟩ = .ok streamId ∧ streamId.length ≠ 0 := by
      rw [resolveStreamId]
      cases hresolve : setup.options.resolveStream with
      | none =>
          exact ⟨envelope.streamId, by simp only [CreateRowSyncRouteServerOptions.toRouteOptions, hresolve], hstream⟩
      | some resolveStream =>
          obtain ⟨streamId, hstreamId, hnonEmpty⟩ := setup.resolvesStream resolveStream hresolve _
          refine ⟨streamId, ?_, hnonEmpty⟩
          simp only [CreateRowSyncRouteServerOptions.toRouteOptions, hresolve]
          exact mapError_eq_ok.mpr hstreamId
    obtain ⟨streamId, hresolves, hnonEmpty⟩ := hresolve
    rw [throwIf_neg (by simp), ok_bind]
    dsimp only
    rw [hresolves, ok_bind, throwIf_neg hnonEmpty, ok_bind, setup.authority, ok_bind, pure_eq_ok]

/-- An intent that is no row operation: the route refuses the request and leaves the authority alone. -/
theorem push_refuses (hcarries : setup.Carries request envelope)
    {front back : List (ProposedOperation (JsonValue ν))} {proposal : ProposedOperation (JsonValue ν)}
    (hsplit : envelope.request.proposals = front ++ proposal :: back)
    (hfront : ∀ earlier ∈ front, setup.IsRowOperation earlier.intent)
    (hinvalid : ¬setup.IsRowOperation proposal.intent) (server : RowServer ν) :
    setup.route.push request server =
      (.ok (jsonResponse setup.runtime (refusalBody setup.runtime front.length) 400), server) := by
  obtain ⟨payload, hread, hdecode⟩ := hcarries
  obtain ⟨values, henvelops⟩ := decodeSyncRequestEnvelope_envelops hdecode
  obtain ⟨error, herror⟩ : ∃ error, normalizeRowOperation setup.rows setup.schema proposal.intent = .error error := by
    cases hnormalize : normalizeRowOperation setup.rows setup.schema proposal.intent with
    | ok operation => exact absurd ⟨operation, hnormalize⟩ hinvalid
    | error error => exact ⟨error, rfl⟩
  have hrefused := henvelops.decode_row_eq_error hsplit hfront herror
  have hadmit : admitRoute setup.runtime .push request (setup.options.toRouteOptions setup.rows) =
      .error (.wireException (invalidIntent s!"$.request.proposals[{front.length}]" error)) := by
    rw [admitRoute]
    refine bind_eq_error.mpr (.inr ⟨payload, hread, bind_eq_error.mpr (.inl ?_)⟩)
    rw [codecs_eq.1]
    change (decodeSyncRequestEnvelope setup.runtime.toWireRuntime (some payload) _
      setup.options.limitOverrides).mapError _ = _
    rw [hrefused]
    rfl
  rw [push_eq, handleSyncRoute, hadmit]
  dsimp only
  rw [catchRoute_eq, errorResponse_invalidIntent]

theorem settings_interpreter : setup.settings.interpreter = setup.interpreter := by
  obtain ⟨limits, -, hfields⟩ := bind_eq_ok.mp setup.createsServer
  obtain ⟨hsettings, -⟩ := Prod.mk.inj (Except.ok.inj hfields)
  rw [← hsettings]

theorem exists_normalized {proposals : List (ProposedOperation (JsonValue ν))}
    (hvalid : ∀ proposal ∈ proposals, setup.IsRowOperation proposal.intent) :
    ∃ normalized, List.Forall₂ (NormalizesTo setup.rows setup.schema) proposals normalized := by
  induction proposals with
  | nil => exact ⟨[], .nil⟩
  | cons proposal proposals ih =>
      rw [List.forall_mem_cons] at hvalid
      obtain ⟨operation, hoperation⟩ := hvalid.1
      obtain ⟨normalized, hnormalized⟩ := ih hvalid.2
      exact ⟨⟨proposal.toOperationSubmissionIdentity, operation⟩ :: normalized, .cons ⟨rfl, hoperation⟩ hnormalized⟩

theorem sameProposal_of_normalizes {proposal : ProposedOperation (JsonValue ν)}
    {normalized : ProposedOperation (RowOperation ν)}
    (h : NormalizesTo setup.rows setup.schema proposal normalized) :
    SameProposal setup.settings.interpreter proposal (normalized.mapIntent RowOperation.toJson) := by
  obtain ⟨hidentity, hintent⟩ := h
  refine ⟨hidentity, fun state => ?_⟩
  have hnormal := normalizeRowOperation_normal setup.keys hintent
  rw [settings_interpreter, interpreter_decide setup.createsInterpreter, interpreter_decide setup.createsInterpreter,
    hintent, ProposedOperation.mapIntent, normalizeRowOperation_toJson hnormal]

/-- Where all intents are row operations, a push calls the authority and answers what it answers. -/
theorem push_forwards (hcarries : setup.Carries request envelope)
    (hvalid : ∀ proposal ∈ envelope.request.proposals, setup.IsRowOperation proposal.intent) (server : RowServer ν) :
    setup.route.push request server =
      match InMemoryLogServer.synchronize setup.settings server envelope.request with
      | .ok (response, next) =>
          match encodeRouteResponse setup.runtime (setup.options.toRouteOptions setup.rows) envelope.streamId
            response with
          | .ok answer => (.ok answer, next)
          | .error exception =>
              (.ok (errorResponse setup.runtime (rowErrorClass setup.runtime setup.rows) exception), next)
      | .error error => (.ok (errorResponse setup.runtime (rowErrorClass setup.runtime setup.rows)
          (.wireException (.syncEngineError error))), server) := by
  obtain ⟨payload, hread, hdecode⟩ := hcarries
  obtain ⟨values, henvelops⟩ := decodeSyncRequestEnvelope_envelops hdecode
  obtain ⟨limits, hlimits, henvelope⟩ := SyncRequestEnvelope.valid_of_decode setup.lawful hdecode
  obtain ⟨normalized, hnormalized⟩ := exists_normalized hvalid
  have hadmit := admitRoute_eq_ok hread
    (henvelops.decode_row_eq_ok hlimits henvelope.request hnormalized) henvelope.streamId
  have hsame : InMemoryLogServer.synchronize setup.settings server
      (SyncRequest.mapIntents RowOperation.toJson
        ⟨envelope.request.baseSequence, envelope.request.maximumEntries, normalized⟩) =
      InMemoryLogServer.synchronize setup.settings server envelope.request := by
    refine InMemoryLogServer.synchronize_congr server rfl rfl ?_
    exact List.forall₂_map_right_iff.mpr (hnormalized.imp fun _ _ h => sameProposal_of_normalizes h)
  rw [push_eq, handleSyncRoute, hadmit]
  dsimp only [InMemoryLogServer.rowRouteAuthority]
  rw [hsame]
  cases InMemoryLogServer.synchronize setup.settings server envelope.request with
  | error error =>
      change (catchRoute _ _ _ _ (.wireException (.syncEngineError error)), server) = _
      rw [catchRoute_eq]
  | ok answered =>
      obtain ⟨response, next⟩ := answered
      have hbind : ((Except.ok response : Except (WireException ν RowError) _).mapError RouteException.wireException >>=
          encodeRouteResponse setup.runtime (setup.options.toRouteOptions setup.rows) envelope.streamId) =
        encodeRouteResponse setup.runtime (setup.options.toRouteOptions setup.rows) envelope.streamId response := rfl
      dsimp only
      rw [hbind]
      cases encodeRouteResponse setup.runtime (setup.options.toRouteOptions setup.rows) envelope.streamId response with
      | ok answer => rfl
      | error exception =>
          dsimp only
          rw [catchRoute_eq]

/-! ### What the authority decides -/

theorem creates_settings_interpreter :
    createRowLogInterpreterOfUnknown setup.rows setup.schema setup.rejectInvalidOperation =
      .ok setup.settings.interpreter :=
  setup.createsInterpreter.trans (congrArg Except.ok settings_interpreter.symm)

variable (setup) in
/-- The decision about a proposal: the recorded one, or what becomes of a new intent. -/
def Decides (server : RowServer ν) (proposal : ProposedOperation (JsonValue ν))
    (decision : ProposalDecision (RowOperation ν) (JsonValue ν)) : Prop :=
  match server.decisionsByOperationId.get? proposal.operationId with
  | some record => decision = record.decision
  | none =>
      match normalizeRowOperation setup.rows setup.schema proposal.intent with
      | .ok operation => ∃ sequence, decision = .accepted proposal.operationId sequence operation
      | .error error => decision = .rejected proposal.operationId
          (rejectionReason setup.rows setup.rejectInvalidOperation error proposal)

variable {authority authority' : Authority setup.settings.interpreter setup.initialState}

theorem rowLedger_of_authority (authority : Authority setup.settings.interpreter setup.initialState) :
    RowLedger setup.rows setup.schema setup.rejectInvalidOperation authority.ledger authority.state := by
  obtain ⟨-, hinitial⟩ := bind_unit_eq_ok.mp setup.createsState
  have hschema : setup.initialState.schemaHash = setup.schema.schemaHash := by rw [← Except.ok.inj hinitial]
  exact authority.justified.rowLedger setup.keys creates_settings_interpreter hschema

theorem decides_of_synchronized {server : RowServer ν} (hserver : server.Holds authority)
    {request : SyncRequest (JsonValue ν)} {response : SyncResponse (RowOperation ν) (JsonValue ν)}
    (h : Synchronized setup.settings authority.toBooks authority'.toBooks request response) :
    List.Forall₂ (setup.Decides server) request.proposals response.decisions := by
  refine (h.decidedAs authority'.justified.operationIds_nodup).imp fun proposal decision hdecided => ?_
  rw [Decides, hserver.represents.get?_decision]
  cases hfind : authority.find? proposal.operationId with
  | some record => exact (hdecided.1 record hfind).symm
  | none =>
      obtain ⟨state, hdraft⟩ := hdecided.2 hfind
      rw [interpreter_decide creates_settings_interpreter] at hdraft
      cases hnormalize : normalizeRowOperation setup.rows setup.schema proposal.intent with
      | ok operation =>
          rw [hnormalize] at hdraft
          simpa using hdraft
      | error error =>
          rw [hnormalize] at hdraft
          simpa using hdraft

theorem encodes_of_synchronized {request : SyncRequest (JsonValue ν)}
    {response : SyncResponse (RowOperation ν) (JsonValue ν)}
    (h : Synchronized setup.settings authority.toBooks authority'.toBooks request response) :
    let options := setup.options.toRouteOptions setup.rows
    (∀ entry ∈ response.entries, options.operationCodec.Encodes setup.runtime.toNumberFormat entry.operation) ∧
    ∀ decision ∈ response.decisions, DecisionEncodes setup.runtime.toNumberFormat options.operationCodec
      options.rejectionCodec decision := by
  intro options
  have hrows := rowLedger_of_authority authority'
  have hnormal : ∀ operation : RowOperation ν, operation.Normal setup.rows setup.schema →
      options.operationCodec.Encodes setup.runtime.toNumberFormat operation := by
    intro operation hoperation
    have hround := createRowOperationCodec_roundTrips (setup.sameFormat ▸ setup.lawful.format) hoperation
    rw [codecs_eq.2, ← setup.sameFormat]
    exact hround.encodes
  have hgrows := (h.ledger_prefix.filterMap StoredProposalDecision.committed?).length_le
  have hlimits : setup.settings.limits.Resolved := InMemoryLogServer.create_resolved setup.createsServer
  have hhonest := respond_honest (List.prefix_refl authority'.ledger) hlimits h.valid
    (h.base.trans (Int.ofNat_le.mpr hgrows)) h.recorded
  refine ⟨fun entry hentry => ?_, fun decision hdecision => ?_⟩
  · rw [h.answered] at hentry
    obtain ⟨record, hrecord, hcommitted⟩ := mem_canonicalLog.mp (hhonest.mem_log hentry)
    obtain ⟨-, -, operationId, haccepted⟩ := StoredProposalDecision.committed?_eq_some hcommitted
    exact hnormal _ (hrows.accepted record hrecord _ _ _ haccepted)
  · obtain ⟨record, hrecord, hsame⟩ := h.recorded.exists_record hdecision
    cases decision with
    | accepted operationId sequence operation => exact hnormal _ (hrows.accepted record hrecord _ _ _ hsame)
    | rejected operationId reason =>
        obtain ⟨error, proposal, rfl⟩ := hrows.rejected record hrecord _ _ hsame
        exact setup.reasons error proposal

/-- A request that fits what the authority has decided. -/
structure Fits (server : RowServer ν) (request : SyncRequest (JsonValue ν)) : Prop where
  base : request.baseSequence ≤ server.headSequence
  decided : ∀ proposal ∈ request.proposals, ∀ record,
    server.decisionsByOperationId.get? proposal.operationId = some record →
      record.identity = proposal.toOperationSubmissionIdentity
  positions : ∀ proposal ∈ request.proposals,
    server.decisionsByOperationId.get? proposal.operationId = none → ∀ operationId,
      server.operationIdByClientPosition.get? proposal.clientPositionKey = some operationId →
        operationId = proposal.operationId

/-- The row application decides and applies every batch, so only the request can refuse a call. -/
theorem admits_of_fits {server : RowServer ν} (hserver : server.Holds authority)
    {request : SyncRequest (JsonValue ν)} (hvalid : ValidRequest request setup.settings.limits)
    (hfits : Fits server request) : InMemoryLogServer.Admits setup.settings server request where
  valid := (assertSyncRequest_eq_ok _ _ _).mpr hvalid
  base := hfits.base
  decided := hfits.decided
  positions := hfits.positions
  application := by
    rw [hserver.represents.state]
    exact processAll_returns setup.keys creates_settings_interpreter (rowLedger_of_authority authority).schemaHash _

theorem validEnvelope_of_synchronized {request : SyncRequest (JsonValue ν)}
    {response : SyncResponse (RowOperation ν) (JsonValue ν)}
    (h : Synchronized setup.settings authority.toBooks authority'.toBooks request response)
    (hrequest : ValidRequest request setup.limits)
    (hpage : min request.maximumEntries setup.settings.limits.maximumEntriesPerResponse ≤
      setup.limits.maximumEntriesPerResponse) {streamId : String} (hstream : streamId.length ≠ 0) :
    SyncResponseEnvelope.Valid ⟨syncProtocolVersion, streamId, response⟩ setup.limits := by
  have hlimits : setup.settings.limits.Resolved := InMemoryLogServer.create_resolved setup.createsServer
  have hgrows := (h.ledger_prefix.filterMap StoredProposalDecision.committed?).length_le
  have hresponse : ValidResponse response (some setup.settings.limits) := by
    rw [h.answered]
    exact (respond_valid authority'.justified hlimits h.valid (h.base.trans (Int.ofNat_le.mpr hgrows))
      h.recorded).mpr h.safe
  have hentries := InMemoryLogServer.Synchronized.entries_length hlimits h
  have hdecisions : response.decisions.length = request.proposals.length := h.recorded.length_eq.symm
  have hwithin := hrequest.withinLimit
  refine ⟨rfl, hstream, { hresponse with withinLimits := ?_ }⟩
  intro bounds hbounds
  obtain rfl := Option.some.inj hbounds
  rw [hentries, hdecisions]
  exact ⟨by omega, hwithin⟩

/-- A push answers as the authority does when all its intents are row operations: the same response, with
status 200, and the same next state. The authority by itself decides every proposal of a request, rejecting
those whose intents are no row operations; a push with such an intent is refused with status 400, at the
first of them, and decides nothing. -/
theorem push_answers (setup : RowRouteSetup ν) (earlier : List (SyncRequest (JsonValue ν)))
    {request : RouteRequest} {envelope : SyncRequestEnvelope (JsonValue ν)} (hcarries : setup.Carries request envelope)
    (hproposals : (envelope.request.proposals.length : Int) ≤ setup.settings.limits.maximumProposalsPerRequest)
    (hpage : min envelope.request.maximumEntries setup.settings.limits.maximumEntriesPerResponse ≤
      setup.limits.maximumEntriesPerResponse)
    (hlength : ((InMemoryLogServer.run setup.settings setup.fresh earlier).log.length : Int) +
      envelope.request.proposals.length ≤ maxSafeInteger)
    (hfits : Fits (InMemoryLogServer.run setup.settings setup.fresh earlier) envelope.request) :
    let server := InMemoryLogServer.run setup.settings setup.fresh earlier
    let options := setup.options.toRouteOptions setup.rows
    ∃ response next, InMemoryLogServer.synchronize setup.settings server envelope.request = .ok (response, next) ∧
      List.Forall₂ (setup.Decides server) envelope.request.proposals response.decisions ∧
      ((∀ proposal ∈ envelope.request.proposals, setup.IsRowOperation proposal.intent) →
        ∃ body, encodeSyncResponseEnvelope setup.runtime.toWireRuntime
            ⟨syncProtocolVersion, envelope.streamId, response⟩ options.operationCodec options.rejectionCodec
            options.limitOverrides = .ok body ∧
          setup.route.push request server = (.ok (jsonResponse setup.runtime body 200), next)) ∧
      ∀ front proposal back, envelope.request.proposals = front ++ proposal :: back →
        (∀ other ∈ front, setup.IsRowOperation other.intent) → ¬setup.IsRowOperation proposal.intent →
          setup.route.push request server =
            (.ok (jsonResponse setup.runtime (refusalBody setup.runtime front.length) 400), server) := by
  intro server options
  obtain ⟨authority, hserver, -⟩ :=
    InMemoryLogServer.run_holds (InMemoryLogServer.create_holds setup.createsServer) earlier
  have hlimits : setup.settings.limits.Resolved := InMemoryLogServer.create_resolved setup.createsServer
  have henvelope : envelope.Valid setup.limits := by
    obtain ⟨payload, -, hdecode⟩ := hcarries
    obtain ⟨limits, hresolved, henvelope⟩ := SyncRequestEnvelope.valid_of_decode setup.lawful hdecode
    obtain rfl := Except.ok.inj (hresolved.symm.trans setup.resolvesLimits)
    exact henvelope
  have hvalid : ValidRequest envelope.request setup.settings.limits :=
    { henvelope.request with withinLimit := hproposals }
  obtain ⟨response, next, hcall⟩ :=
    (hserver.returns_iff_admits hlimits hlength).mpr (admits_of_fits hserver hvalid hfits)
  obtain ⟨authority', -, hsynchronized⟩ := InMemoryLogServer.synchronize_holds hserver hcall
  refine ⟨response, next, hcall, decides_of_synchronized hserver hsynchronized, fun hrows => ?_, ?_⟩
  · obtain ⟨hentries, hdecisions⟩ := encodes_of_synchronized hsynchronized
    have hanswer := validEnvelope_of_synchronized hsynchronized henvelope.request hpage henvelope.streamId
    obtain ⟨body, hbody⟩ := encodeSyncResponseEnvelope_writes setup.lawful setup.resolvesLimits hanswer hentries
      hdecisions
    refine ⟨body, hbody, ?_⟩
    have hencode : encodeRouteResponse setup.runtime options envelope.streamId response =
        .ok (jsonResponse setup.runtime body 200) :=
      bind_eq_ok.mpr ⟨body, mapError_eq_ok.mpr hbody, rfl⟩
    rw [push_forwards hcarries hrows, hcall]
    dsimp only
    rw [hencode]
  · intro front proposal back hsplit hfront hinvalid
    exact push_refuses hcarries hsplit hfront hinvalid server

end RowRouteSetup

/-! ### A route for notes -/

def integerRouteRuntime : RouteRuntime Int where
  toWireRuntime := integerRuntime
  decodeText bytes := bytes.map fun byte => ⟨byte.toNat, byte.toNat_lt.trans (by decide)⟩

def noteOptions (settings : LogServerSettings (ReplicaDatabaseState (RowRecord Int)) (JsonValue Int)
    (RowOperation Int) (JsonValue Int) RowError) : CreateRowSyncRouteServerOptions Int (RowServer Int) where
  schema := noteSchema
  rejectionCodec := none
  authority := some (InMemoryLogServer.rowRouteAuthority settings)
  getAuthority := none
  resolveStream := none
  limitOverrides := {}
  maximumRequestBytes := none
  onError := none

def noteDatabase : ReplicaDatabaseState (RowRecord Int) where
  schemaHash := ascii "notes-v1"
  tables := InsertionMap.empty.set (ascii "notes") InsertionMap.empty

def noteAuthority : LogServerSettings (ReplicaDatabaseState (RowRecord Int)) (JsonValue Int) (RowOperation Int)
    (JsonValue Int) RowError where
  interpreter := {
    decide := fun _ proposal =>
      match normalizeRowOperation integerRows noteSchema proposal.intent with
      | .ok operation => .ok (.accepted operation)
      | .error error => .ok (.rejected (rejectionReason integerRows none error proposal))
    apply := applyRowOperation integerRows noteSchema }
  limits := defaultProtocolLimits

theorem createRowLogInterpreterOfUnknown_note :
    createRowLogInterpreterOfUnknown integerRows noteSchema none = .ok noteAuthority.interpreter := by
  refine bind_unit_eq_ok.mpr ⟨rfl, congrArg Except.ok ((LogInterpreter.mk.injEq ..).mpr ⟨?_, rfl⟩)⟩
  funext _ proposal
  cases normalizeRowOperation integerRows noteSchema proposal.intent <;> rfl

def noteRoute : RowRouteSetup Int where
  runtime := integerRouteRuntime
  rows := integerRows
  schema := noteSchema
  rejectInvalidOperation := none
  interpreter := noteAuthority.interpreter
  initialState := noteDatabase
  authorityLimits := {}
  settings := noteAuthority
  fresh := .initial noteDatabase
  options := noteOptions noteAuthority
  limits := defaultProtocolLimits
  route := {
    pull := fun request => handleSyncRoute integerRouteRuntime (rowErrorClass integerRouteRuntime integerRows) .pull
      request ((noteOptions noteAuthority).toRouteOptions integerRows)
    push := fun request => handleSyncRoute integerRouteRuntime (rowErrorClass integerRouteRuntime integerRows) .push
      request ((noteOptions noteAuthority).toRouteOptions integerRows) }
  lawful := integerRuntime_lawful
  sameFormat := rfl
  keys := noteSchema_keyed.nonNullKeys
  createsInterpreter := createRowLogInterpreterOfUnknown_note
  createsState := rfl
  createsServer := rfl
  createsRoute := rfl
  sameSchema := rfl
  authority _ := rfl
  resolvesLimits := rfl
  resolvesStream := by simp [noteOptions]
  reports := by simp [noteOptions]
  reasons error proposal :=
    ⟨_, rfl, .object (by simp only [List.map_cons, List.map_nil]; decide)
      (by simp only [List.forall_mem_cons]; exact ⟨.string _, .string _, by simp⟩)⟩

def noteProposal (operationId : String) (clientSequence : Int) (table : String) :
    ProposedOperation (JsonValue Int) where
  operationId := operationId
  clientId := "client-a"
  clientSequence := clientSequence
  intentHash := operationId
  intent := .object [
    (ascii "row", .object [(ascii "id", .number clientSequence), (ascii "title", .null)]),
    (ascii "table", .string (ascii table)),
    (ascii "type", .string (ascii "putRow"))]

def noteEnvelope (table : String) : SyncRequestEnvelope (JsonValue Int) where
  protocolVersion := 1
  streamId := "notes"
  request := {
    baseSequence := 0
    maximumEntries := 10
    proposals := [noteProposal "op-1" 1 "notes", noteProposal "op-2" 2 table] }

def noteProposalJson (operationId : String) (clientSequence : Int) (table : String) : JsonValue Int := .object [
  (ascii "clientId", .string (ascii "client-a")),
  (ascii "clientSequence", .number clientSequence),
  (ascii "intent", (noteProposal operationId clientSequence table).intent),
  (ascii "intentHash", .string (ascii operationId)),
  (ascii "operationId", .string (ascii operationId))]

def noteJson (table : String) : JsonValue Int := .object [
  (ascii "protocolVersion", .number 1),
  (ascii "request", .object [
    (ascii "baseSequence", .number 0),
    (ascii "maximumEntries", .number 10),
    (ascii "proposals", .array [noteProposalJson "op-1" 1 "notes", noteProposalJson "op-2" 2 table])]),
  (ascii "streamId", .string (ascii "notes"))]

def notePush (table : String) : RouteRequest where
  method := "POST"
  contentLength := none
  body := some [((noteJson table).stringify integerFormat).map fun unit => UInt8.ofNat unit.val]

/-- A JSON tree with its keys in order. -/
def SortedJson (json : JsonValue Int) : Prop := json.Valid integerFormat ∧ json.sorted = json

theorem sortedJson_object {fields : List (Text × JsonValue Int)} (hkeys : (fields.map Prod.fst).Pairwise (· < ·))
    (hvalues : ∀ field ∈ fields, SortedJson field.2) : SortedJson (.object fields) :=
  ⟨.object (hkeys.imp ne_of_lt) fun field hfield => (hvalues field hfield).1,
    sorted_object_eq_self (hkeys.imp le_of_lt) fun field hfield => (hvalues field hfield).2⟩

theorem sortedJson_number (number : Int) : SortedJson (.number number) := ⟨.number rfl, rfl⟩

theorem sortedJson_string (text : Text) : SortedJson (.string text) := ⟨.string text, rfl⟩

theorem noteProposalJson_sorted (operationId : String) (clientSequence : Int) (table : String) :
    SortedJson (noteProposalJson operationId clientSequence table) := by
  have hrow : SortedJson (.object [(ascii "id", .number clientSequence), (ascii "title", .null)]) := by
    refine sortedJson_object (by simp only [List.map_cons, List.map_nil]; decide) ?_
    simp only [List.forall_mem_cons]
    exact ⟨sortedJson_number _, ⟨.null, rfl⟩, by simp⟩
  have hintent : SortedJson (noteProposal operationId clientSequence table).intent := by
    refine sortedJson_object (by simp only [List.map_cons, List.map_nil]; decide) ?_
    simp only [List.forall_mem_cons]
    exact ⟨hrow, sortedJson_string _, sortedJson_string _, by simp⟩
  refine sortedJson_object (by simp only [List.map_cons, List.map_nil]; decide) ?_
  simp only [List.forall_mem_cons]
  exact ⟨sortedJson_string _, sortedJson_number _, hintent, sortedJson_string _, sortedJson_string _, by simp⟩

theorem noteJson_sorted (table : String) : SortedJson (noteJson table) := by
  have hproposals : SortedJson (.array [noteProposalJson "op-1" 1 "notes", noteProposalJson "op-2" 2 table]) := by
    refine ⟨.array ?_, ?_⟩
    · simp only [List.forall_mem_cons]
      exact ⟨(noteProposalJson_sorted _ _ _).1, (noteProposalJson_sorted _ _ _).1, by simp⟩
    · rw [sorted_array, List.map_cons, List.map_cons, List.map_nil, (noteProposalJson_sorted _ _ _).2,
        (noteProposalJson_sorted _ _ _).2]
  have hrequest : SortedJson (.object [
      (ascii "baseSequence", .number 0),
      (ascii "maximumEntries", .number 10),
      (ascii "proposals", .array [noteProposalJson "op-1" 1 "notes", noteProposalJson "op-2" 2 table])]) := by
    refine sortedJson_object (by simp only [List.map_cons, List.map_nil]; decide) ?_
    simp only [List.forall_mem_cons]
    exact ⟨sortedJson_number _, sortedJson_number _, hproposals, by simp⟩
  refine sortedJson_object (by simp only [List.map_cons, List.map_nil]; decide) ?_
  simp only [List.forall_mem_cons]
  exact ⟨sortedJson_number _, hrequest, sortedJson_string _, by simp⟩

theorem decodeText_bytes {text : Text} (hunits : text.all (fun unit => unit.val < 256) = true) :
    integerRouteRuntime.decodeText (text.map fun unit => UInt8.ofNat unit.val) = text := by
  rw [List.all_eq_true] at hunits
  change (text.map _).map _ = text
  rw [List.map_map]
  conv_rhs => rw [← List.map_id text]
  refine List.map_congr_left fun unit hunit => Fin.ext ?_
  have hunit := of_decide_eq_true (hunits unit hunit)
  exact Nat.mod_eq_of_lt hunit

theorem readRequestJson_of_text {runtime : RouteRuntime ν} {request : RouteRequest} {maximumRequestBytes : Int}
    (hmethod : request.method = "POST") (hdeclared : request.contentLength = none)
    (hsafe : IsSafeInteger maximumRequestBytes) (hpositive : 0 < maximumRequestBytes) {text : Text}
    (hread : readRequestText runtime request maximumRequestBytes =
      (.ok text : Except (RouteException ν ε) Text)) (htext : text ≠ []) {payload : JsonValue ν}
    (hparse : parse runtime.toNumberFormat text = some payload) :
    readRequestJson runtime request maximumRequestBytes =
      (.ok payload : Except (RouteException ν ε) (JsonValue ν)) := by
  have hlimit : ¬(¬IsSafeInteger maximumRequestBytes ∨ maximumRequestBytes ≤ 0) := by
    simpa using ⟨hsafe, hpositive⟩
  refine bind_unit_eq_ok.mpr ⟨throwIf_neg (not_not.mpr hmethod), ?_⟩
  refine bind_unit_eq_ok.mpr ⟨throwIf_neg hlimit, ?_⟩
  refine bind_unit_eq_ok.mpr ⟨by rw [hdeclared]; rfl, ?_⟩
  refine bind_eq_ok.mpr ⟨text, hread, ?_⟩
  rw [if_neg htext, hparse]
  rfl

theorem notePush_carries {table : String}
    (hunits : ((noteJson table).stringify integerFormat).all (fun unit => unit.val < 256) = true)
    (hlength : ((noteJson table).stringify integerFormat).length ≤ 1048576)
    (hdecode : decodeSyncRequestEnvelope integerRuntime (some (noteJson table)) (anyCodec Int RowError) {} =
      .ok (noteEnvelope table)) : noteRoute.Carries (notePush table) (noteEnvelope table) := by
  have hparse : parse integerFormat ((noteJson table).stringify integerFormat) = some (noteJson table) := by
    have hparse := parse_stringify_sorted integerFormat_lawful (noteJson_sorted table).1
    rw [(noteJson_sorted table).2] at hparse
    exact hparse
  have htext : (noteJson table).stringify integerFormat ≠ [] := by
    intro hempty
    rw [hempty] at hparse
    exact absurd hparse (by simp [parse, readValue])
  refine ⟨noteJson table, ?_, hdecode⟩
  have hread : readRequestText integerRouteRuntime (notePush table) 1048576 =
      (.ok ((noteJson table).stringify integerFormat) : Except (RouteException Int RowError) Text) := by
    have hchunk : ¬((0 : Int) + (((noteJson table).stringify integerFormat).map fun unit =>
        UInt8.ofNat unit.val).length > 1048576) := by
      rw [List.length_map]
      omega
    simp only [readRequestText, notePush, readChunks]
    rw [throwIf_neg hchunk, ok_bind, ok_bind, pure_eq_ok, ok_bind, List.append_nil, pure_eq_ok, decodeText_bytes hunits]
  exact readRequestJson_of_text rfl rfl (by decide) (by decide) hread htext hparse

theorem notePush_carries_notes : noteRoute.Carries (notePush "notes") (noteEnvelope "notes") :=
  notePush_carries (by decide +kernel) (by decide +kernel) rfl

theorem notePush_carries_missing : noteRoute.Carries (notePush "missing") (noteEnvelope "missing") :=
  notePush_carries (by decide +kernel) (by decide +kernel) rfl

theorem fits_fresh (table : String) : RowRouteSetup.Fits noteRoute.fresh (noteEnvelope table).request where
  base := le_rfl
  decided := by
    intro proposal _ record hrecord
    exact absurd hrecord (by simp [noteRoute, InMemoryLogServer.initial])
  positions := by
    intro proposal _ _ operationId hoccupant
    exact absurd hoccupant (by simp [noteRoute, InMemoryLogServer.initial])

theorem push_answers_notes : ∃ answer next response,
    noteRoute.route.push (notePush "notes") noteRoute.fresh = (.ok answer, next) ∧ answer.status = 200 ∧
    InMemoryLogServer.synchronize noteRoute.settings noteRoute.fresh (noteEnvelope "notes").request =
      .ok (response, next) ∧
    List.Forall₂ (noteRoute.Decides noteRoute.fresh) (noteEnvelope "notes").request.proposals
      response.decisions := by
  obtain ⟨response, next, hcall, hdecides, hanswers, -⟩ := RowRouteSetup.push_answers noteRoute []
    notePush_carries_notes (by decide) (by decide) (by decide) (fits_fresh "notes")
  have hrows : ∀ proposal ∈ (noteEnvelope "notes").request.proposals,
      noteRoute.IsRowOperation proposal.intent := by
    change ∀ proposal ∈ [noteProposal "op-1" 1 "notes", noteProposal "op-2" 2 "notes"], _
    simp only [List.forall_mem_cons]
    exact ⟨⟨_, rfl⟩, ⟨_, rfl⟩, by simp⟩
  obtain ⟨body, -, hpush⟩ := hanswers hrows
  exact ⟨_, next, response, hpush, rfl, hcall, hdecides⟩

/-- A row of the table and a row of an unknown one: the authority accepts the first and rejects the second,
but the push is refused, and neither is decided. -/
theorem push_missing : noteRoute.Carries (notePush "missing") (noteEnvelope "missing") ∧
    (∃ response next operation reason,
      InMemoryLogServer.synchronize noteRoute.settings noteRoute.fresh (noteEnvelope "missing").request =
        .ok (response, next) ∧
      response.decisions = [.accepted "op-1" 1 operation, .rejected "op-2" reason]) ∧
    ∃ answer, noteRoute.route.push (notePush "missing") noteRoute.fresh = (.ok answer, noteRoute.fresh) ∧
      answer.status = 400 := by
  refine ⟨notePush_carries_missing, ⟨_, _, _, _, rfl, rfl⟩, ?_⟩
  have hsplit : (noteEnvelope "missing").request.proposals =
    [noteProposal "op-1" 1 "notes"] ++ noteProposal "op-2" 2 "missing" :: [] := rfl
  have hfront : ∀ other ∈ [noteProposal "op-1" 1 "notes"], noteRoute.IsRowOperation other.intent :=
    List.forall_mem_singleton.mpr ⟨_, rfl⟩
  have hinvalid : ¬noteRoute.IsRowOperation (noteProposal "op-2" 2 "missing").intent := by
    intro hrow
    obtain ⟨operation, hoperation⟩ := hrow
    have herror : ∃ error, normalizeRowOperation noteRoute.rows noteRoute.schema
      (noteProposal "op-2" 2 "missing").intent = .error error := ⟨_, rfl⟩
    obtain ⟨error, herror⟩ := herror
    exact absurd (hoperation.symm.trans herror) (by simp)
  exact ⟨_, RowRouteSetup.push_refuses notePush_carries_missing hsplit hfront hinvalid noteRoute.fresh, rfl⟩

end SyncEngine
