import SyncEngine.Spec.Ledger

/-!
# What the validators accept

Each assertion of the protocol core, as the set of values it lets through. The loops over proposals,
entries and decisions are characterized once, from the index they have built so far; everything else
in the development reads a successful assertion through these lemmas.
-/

namespace SyncEngine

open JavaScript Throwing

variable {ε Intent Operation Rejection : Type}

@[simp] theorem assertNonEmptyString_eq_ok (label value : String) (u : Unit) :
    (assertNonEmptyString label value : Result ε Unit) = .ok u ↔ value.length ≠ 0 := by
  rw [assertNonEmptyString, throwIf_eq_ok]

@[simp] theorem assertLogSequence_true_eq_ok (label : String) (value : Int) (u : Unit) :
    (assertLogSequence label value true : Result ε Unit) = .ok u ↔
      0 ≤ value ∧ value ≤ maxSafeInteger := by
  simp only [assertLogSequence, IsSafeInteger, maxSafeInteger, throwIf_eq_ok, if_true]
  omega

@[simp] theorem assertLogSequence_false_eq_ok (label : String) (value : Int) (u : Unit) :
    (assertLogSequence label value false : Result ε Unit) = .ok u ↔
      1 ≤ value ∧ value ≤ maxSafeInteger := by
  simp only [assertLogSequence, IsSafeInteger, maxSafeInteger, throwIf_eq_ok, Bool.false_eq_true,
    if_false]
  omega

@[simp] theorem assertSubmissionIdentity_eq_ok (label : String)
    (identity : OperationSubmissionIdentity) (u : Unit) :
    (assertSubmissionIdentity label identity : Result ε Unit) = .ok u ↔ identity.Valid := by
  simp only [assertSubmissionIdentity, bind_unit_eq_ok, assertNonEmptyString_eq_ok,
    assertClientSequence, assertLogSequence_false_eq_ok]
  constructor
  · intro hparts
    obtain ⟨hoperation, hclient, ⟨hpositive, hsafe⟩, hhash⟩ := hparts
    exact ⟨hoperation, hclient, hpositive, hsafe, hhash⟩
  · intro hparts
    obtain ⟨hoperation, hclient, hpositive, hsafe, hhash⟩ := hparts
    exact ⟨hoperation, hclient, ⟨hpositive, hsafe⟩, hhash⟩

/-- The position key names one client position, also when a client identifier contains the
separator. -/
theorem clientPositionKey_injective {left right : String} {m n : Int}
    (h : clientPositionKey left m = clientPositionKey right n) : left = right ∧ m = n :=
  append_literal_injective (by decide) (by decide) h

theorem OperationIdentity.clientPositionKey_eq_iff {left right : OperationIdentity} :
    left.clientPositionKey = right.clientPositionKey ↔ left.position = right.position := by
  constructor
  · intro h
    obtain ⟨hclient, hsequence⟩ := clientPositionKey_injective h
    exact Prod.ext hclient hsequence
  · intro h
    obtain ⟨hclient, hsequence⟩ := Prod.mk.inj h
    rw [OperationIdentity.clientPositionKey, OperationIdentity.clientPositionKey, hclient, hsequence]

/-! ### Requests -/

/-- Proposals with valid identities, distinct operation identifiers and increasing client sequences. -/
structure ValidBatch (proposals : List (ProposedOperation Intent)) : Prop where
  valid : ∀ proposal ∈ proposals, proposal.toOperationSubmissionIdentity.Valid
  ordered : proposals.Pairwise fun earlier later =>
    earlier.operationId ≠ later.operationId ∧
      (earlier.clientId = later.clientId → earlier.clientSequence < later.clientSequence)

theorem ValidBatch.distinct {proposals : List (ProposedOperation Intent)} (h : ValidBatch proposals) :
    proposals.Pairwise fun earlier later =>
      earlier.operationId ≠ later.operationId ∧ earlier.position ≠ later.position := by
  apply h.ordered.imp
  intro earlier later hordered
  refine ⟨hordered.1, fun hposition => ?_⟩
  have hclient := congrArg Prod.fst hposition
  have hsequence : earlier.clientSequence = later.clientSequence := congrArg Prod.snd hposition
  have := hordered.2 hclient
  omega

theorem assertClientOrder_eq_ok (previous : Option Int) (proposal : ProposedOperation Intent)
    (u : Unit) :
    (assertClientOrder previous proposal : Result ε Unit) = .ok u ↔
      ∀ sequence, previous = some sequence → sequence < proposal.clientSequence := by
  cases previous with
  | none => simp [assertClientOrder]
  | some sequence => simp [assertClientOrder]

theorem assertBatchedProposal_eq_ok (index next : ProposalBatchIndex)
    (proposal : ProposedOperation Intent) :
    (assertBatchedProposal index proposal : Result ε ProposalBatchIndex) = .ok next ↔
      proposal.toOperationSubmissionIdentity.Valid ∧ proposal.operationId ∉ index.operationIds ∧
      (∀ sequence, index.lastSequenceByClient.get? proposal.clientId = some sequence →
        sequence < proposal.clientSequence) ∧
      next = ⟨insert proposal.operationId index.operationIds,
        index.lastSequenceByClient.set proposal.clientId proposal.clientSequence⟩ := by
  simp only [assertBatchedProposal, bind_unit_eq_ok, assertSubmissionIdentity_eq_ok, throwIf_eq_ok,
    assertClientOrder_eq_ok, pure_eq_ok, Except.ok.injEq, eq_comm (b := next)]

theorem assertProposals_eq_ok (index : ProposalBatchIndex)
    (proposals : List (ProposedOperation Intent)) :
    (∃ next, (proposals.foldlM assertBatchedProposal index : Result ε ProposalBatchIndex) = .ok next) ↔
      ValidBatch proposals ∧ ∀ proposal ∈ proposals, proposal.operationId ∉ index.operationIds ∧
        ∀ sequence, index.lastSequenceByClient.get? proposal.clientId = some sequence →
          sequence < proposal.clientSequence := by
  induction proposals generalizing index with
  | nil => simpa using ⟨by simp, List.Pairwise.nil⟩
  | cons proposal proposals ih =>
      simp only [List.foldlM_cons, bind_eq_ok, assertBatchedProposal_eq_ok]
      constructor
      · intro hparts
        obtain ⟨last, next, ⟨hvalid, hfresh, horder, rfl⟩, hrest⟩ := hparts
        obtain ⟨hbatch, hindex⟩ := (ih _).mp ⟨last, hrest⟩
        simp only [Finset.mem_insert, not_or, InsertionMap.get?_set] at hindex
        refine ⟨⟨?_, ?_⟩, ?_⟩
        · exact List.forall_mem_cons.mpr ⟨hvalid, hbatch.valid⟩
        · refine List.pairwise_cons.mpr ⟨fun later hlater => ⟨?_, fun hclient => ?_⟩, hbatch.ordered⟩
          · exact fun he => (hindex later hlater).1.1 he.symm
          · exact (hindex later hlater).2 _ (by rw [if_pos hclient.symm])
        · refine List.forall_mem_cons.mpr ⟨⟨hfresh, horder⟩, fun later hlater => ?_⟩
          refine ⟨(hindex later hlater).1.2, fun sequence hsequence => ?_⟩
          by_cases hclient : later.clientId = proposal.clientId
          · have hstep := (hindex later hlater).2 _ (by rw [if_pos hclient])
            have := horder sequence (hclient ▸ hsequence)
            omega
          · exact (hindex later hlater).2 sequence (by rw [if_neg hclient]; exact hsequence)
      · intro hparts
        obtain ⟨⟨hvalid, hordered⟩, hindex⟩ := hparts
        rw [List.forall_mem_cons] at hvalid hindex
        rw [List.pairwise_cons] at hordered
        have hrest : ∀ later ∈ proposals,
            later.operationId ∉ insert proposal.operationId index.operationIds ∧
            ∀ sequence, (index.lastSequenceByClient.set proposal.clientId
              proposal.clientSequence).get? later.clientId = some sequence →
                sequence < later.clientSequence := by
          intro later hlater
          obtain ⟨hne, hless⟩ := hordered.1 later hlater
          refine ⟨?_, fun sequence hsequence => ?_⟩
          · rw [Finset.mem_insert, not_or]
            exact ⟨fun he => hne he.symm, (hindex.2 later hlater).1⟩
          · rw [InsertionMap.get?_set] at hsequence
            split at hsequence
            · rename_i hclient
              obtain rfl := Option.some.inj hsequence
              exact hless hclient.symm
            · exact (hindex.2 later hlater).2 sequence hsequence
        obtain ⟨last, hlast⟩ := (ih ⟨_, _⟩).mpr ⟨⟨hvalid.2, hordered.2⟩, hrest⟩
        exact ⟨last, _, ⟨hvalid.1, hindex.1.1, hindex.1.2, rfl⟩, hlast⟩

@[simp] theorem assertProposalBatch_eq_ok (proposals : List (ProposedOperation Intent)) (u : Unit) :
    (assertProposalBatch proposals : Result ε Unit) = .ok u ↔ ValidBatch proposals := by
  have hloop := assertProposals_eq_ok (ε := ε) ⟨∅, InsertionMap.empty⟩ proposals
  simp only [Finset.notMem_empty, not_false_eq_true, InsertionMap.get?_empty, reduceCtorEq,
    IsEmpty.forall_iff, implies_true, and_true] at hloop
  rw [← hloop, assertProposalBatch, bind_eq_ok]
  exact exists_congr fun index => and_iff_left rfl

/-- The requests a server with these limits reads. -/
structure ValidRequest (request : SyncRequest Intent) (limits : ProtocolLimits) : Prop where
  baseNonneg : 0 ≤ request.baseSequence
  baseSafe : request.baseSequence ≤ maxSafeInteger
  entries : 1 ≤ request.maximumEntries
  entriesSafe : request.maximumEntries ≤ maxSafeInteger
  withinLimit : (request.proposals.length : Int) ≤ limits.maximumProposalsPerRequest
  batch : ValidBatch request.proposals

theorem assertSyncRequest_eq_ok (request : SyncRequest Intent) (limits : ProtocolLimits) (u : Unit) :
    (assertSyncRequest request (some limits) : Result ε Unit) = .ok u ↔
      ValidRequest request limits := by
  simp only [assertSyncRequest, bind_unit_eq_ok, assertLogSequence_true_eq_ok,
    assertPositiveSafeInteger_eq_ok, IsSafeInteger, assertRequestWithinLimits,
    assertWithinLimit_eq_ok, assertProposalBatch_eq_ok]
  constructor
  · intro hparts
    obtain ⟨⟨hbase, hsafe⟩, ⟨hentries, hpositive⟩, hlimit, hbatch⟩ := hparts
    exact ⟨hbase, hsafe, hpositive, hentries.2, hlimit, hbatch⟩
  · intro hparts
    obtain ⟨hbase, hsafe, hpositive, hentries, hlimit, hbatch⟩ := hparts
    refine ⟨⟨hbase, hsafe⟩, ⟨⟨?_, hentries⟩, hpositive⟩, hlimit, hbatch⟩
    simp only [maxSafeInteger]
    omega

/-! ### Responses -/

/-- The entries that `assertCommittedOperation` lets through. -/
structure CommittedOperation.Valid (entry : CommittedOperation Operation) : Prop where
  sequence : 1 ≤ entry.sequence
  sequenceSafe : entry.sequence ≤ maxSafeInteger
  operationId : entry.operationId.length ≠ 0
  clientId : entry.origin.clientId.length ≠ 0
  clientSequence : 1 ≤ entry.origin.clientSequence
  clientSequenceSafe : entry.origin.clientSequence ≤ maxSafeInteger
  intentHash : entry.origin.intentHash.length ≠ 0

@[simp] theorem assertCommittedOperation_eq_ok (label : String)
    (entry : CommittedOperation Operation) (u : Unit) :
    (assertCommittedOperation label entry : Result ε Unit) = .ok u ↔ entry.Valid := by
  simp only [assertCommittedOperation, bind_unit_eq_ok, assertNonEmptyString_eq_ok,
    assertClientSequence, assertLogSequence_false_eq_ok]
  constructor
  · intro hparts
    obtain ⟨⟨h1, h2⟩, h3, h4, ⟨h5, h6⟩, h7⟩ := hparts
    exact ⟨h1, h2, h3, h4, h5, h6, h7⟩
  · intro hparts
    obtain ⟨h1, h2, h3, h4, h5, h6, h7⟩ := hparts
    exact ⟨⟨h1, h2⟩, h3, h4, ⟨h5, h6⟩, h7⟩

/-- A page of valid entries, contiguous from a sequence, each operation and position once. -/
structure ValidPage (firstSequence : Int) (entries : List (CommittedOperation Operation)) : Prop where
  valid : ∀ entry ∈ entries, entry.Valid
  contiguous : ∀ (i : Nat) (entry : CommittedOperation Operation), entries[i]? = some entry →
    entry.sequence = firstSequence + i
  distinct : entries.Pairwise fun earlier later =>
    earlier.operationId ≠ later.operationId ∧ earlier.origin.position ≠ later.origin.position

/-- The key under which an entry's client position is indexed. -/
def CommittedOperation.positionKey (entry : CommittedOperation Operation) : String :=
  clientPositionKey entry.origin.clientId entry.origin.clientSequence

theorem CommittedOperation.positionKey_eq_iff {left right : CommittedOperation Operation} :
    left.positionKey = right.positionKey ↔ left.origin.position = right.origin.position := by
  constructor
  · intro h
    obtain ⟨hclient, hsequence⟩ := clientPositionKey_injective h
    exact Prod.ext hclient hsequence
  · intro h
    obtain ⟨hclient, hsequence⟩ := Prod.mk.inj h
    rw [positionKey, positionKey, hclient, hsequence]

/-- The index after one more entry. -/
def ResponseEntryIndex.add (index : ResponseEntryIndex Operation)
    (entry : CommittedOperation Operation) : ResponseEntryIndex Operation where
  expectedSequence := index.expectedSequence + 1
  entriesByOperationId := index.entriesByOperationId.set entry.operationId entry
  clientPositions := index.clientPositions.set entry.positionKey entry.operationId

theorem assertPositionUnbound_eq_ok (positionKey : String) (existing : Option String)
    (entry : CommittedOperation Operation) (u : Unit) :
    (assertPositionUnbound positionKey existing entry : Result ε Unit) = .ok u ↔ existing = none := by
  cases existing <;> simp [assertPositionUnbound]

theorem assertResponseEntry_eq_ok (base : Int) (index next : ResponseEntryIndex Operation)
    (entry : CommittedOperation Operation) :
    (assertResponseEntry base index entry : Result ε (ResponseEntryIndex Operation)) = .ok next ↔
      entry.Valid ∧ entry.sequence = index.expectedSequence ∧
      index.entriesByOperationId.get? entry.operationId = none ∧
      index.clientPositions.get? entry.positionKey = none ∧ next = index.add entry := by
  simp only [assertResponseEntry, bind_unit_eq_ok, assertCommittedOperation_eq_ok, throwIf_eq_ok,
    assertPositionUnbound_eq_ok, pure_eq_ok, Except.ok.injEq, ne_eq, not_not, Bool.not_eq_true,
    Option.isSome_eq_false_iff, Option.isNone_iff_eq_none, CommittedOperation.positionKey,
    ResponseEntryIndex.add, eq_comm (b := next)]

theorem assertResponseEntries_eq_ok (base : Int) (index next : ResponseEntryIndex Operation)
    (entries : List (CommittedOperation Operation)) :
    (entries.foldlM (assertResponseEntry base) index : Result ε _) = .ok next ↔
      (ValidPage index.expectedSequence entries ∧
        ∀ entry ∈ entries, index.entriesByOperationId.get? entry.operationId = none ∧
          index.clientPositions.get? entry.positionKey = none) ∧
      next = entries.foldl ResponseEntryIndex.add index := by
  induction entries generalizing index with
  | nil =>
      have hempty : ValidPage index.expectedSequence ([] : List (CommittedOperation Operation)) :=
        ⟨by simp, by simp, List.Pairwise.nil⟩
      simp [hempty, eq_comm]
  | cons entry entries ih =>
      simp only [List.foldlM_cons, bind_eq_ok, assertResponseEntry_eq_ok, List.foldl_cons]
      constructor
      · intro hparts
        obtain ⟨_, ⟨hvalid, hsequence, hfreshId, hfreshKey, rfl⟩, hrest⟩ := hparts
        obtain ⟨⟨hpage, hindex⟩, rfl⟩ := (ih _).mp hrest
        simp only [ResponseEntryIndex.add, InsertionMap.get?_set] at hindex
        refine ⟨⟨⟨?_, ?_, ?_⟩, ?_⟩, rfl⟩
        · exact List.forall_mem_cons.mpr ⟨hvalid, hpage.valid⟩
        · intro i found hfound
          cases i with
          | zero =>
              obtain rfl := Option.some.inj hfound
              simpa using hsequence
          | succ i =>
              have := hpage.contiguous i found hfound
              simp only [ResponseEntryIndex.add] at this
              push_cast
              omega
        · refine List.pairwise_cons.mpr ⟨fun later hlater => ⟨fun he => ?_, fun he => ?_⟩,
            hpage.distinct⟩
          · have := (hindex later hlater).1
            rw [if_pos he.symm] at this
            simp at this
          · have := (hindex later hlater).2
            rw [if_pos (CommittedOperation.positionKey_eq_iff.mpr he.symm)] at this
            simp at this
        · refine List.forall_mem_cons.mpr ⟨⟨hfreshId, hfreshKey⟩, fun later hlater => ⟨?_, ?_⟩⟩
          · have := (hindex later hlater).1
            split at this
            · simp at this
            · exact this
          · have := (hindex later hlater).2
            split at this
            · simp at this
            · exact this
      · intro hparts
        obtain ⟨⟨⟨hvalid, hcontiguous, hdistinct⟩, hindex⟩, rfl⟩ := hparts
        rw [List.forall_mem_cons] at hvalid hindex
        rw [List.pairwise_cons] at hdistinct
        refine ⟨index.add entry, ⟨hvalid.1, ?_, hindex.1.1, hindex.1.2, rfl⟩,
          (ih _).mpr ⟨⟨⟨hvalid.2, fun i found hfound => ?_, hdistinct.2⟩, fun later hlater => ?_⟩, rfl⟩⟩
        · simpa using hcontiguous 0 entry rfl
        · have := hcontiguous (i + 1) found hfound
          simp only [ResponseEntryIndex.add]
          push_cast at this
          omega
        · obtain ⟨hid, hposition⟩ := hdistinct.1 later hlater
          simp only [ResponseEntryIndex.add, InsertionMap.get?_set]
          rw [if_neg fun he => hid he.symm,
            if_neg fun he => hposition (CommittedOperation.positionKey_eq_iff.mp he).symm]
          exact hindex.2 later hlater

/-- The index of a whole page finds the entry of an operation. -/
theorem get?_foldl_add (index : ResponseEntryIndex Operation)
    (entries : List (CommittedOperation Operation))
    (hdistinct : entries.Pairwise fun earlier later => earlier.operationId ≠ later.operationId)
    (operationId : String) (entry : CommittedOperation Operation) :
    (entries.foldl ResponseEntryIndex.add index).entriesByOperationId.get? operationId = some entry ↔
      (entry ∈ entries ∧ entry.operationId = operationId) ∨
      ((∀ other ∈ entries, other.operationId ≠ operationId) ∧
        index.entriesByOperationId.get? operationId = some entry) := by
  induction entries generalizing index with
  | nil => simp
  | cons first entries ih =>
      rw [List.pairwise_cons] at hdistinct
      rw [List.foldl_cons, ih _ hdistinct.2]
      simp only [ResponseEntryIndex.add, InsertionMap.get?_set, List.mem_cons, forall_eq_or_imp]
      by_cases hfirst : operationId = first.operationId
      · subst hfirst
        have hothers : ∀ other ∈ entries, other.operationId ≠ first.operationId :=
          fun other hother he => hdistinct.1 other hother he.symm
        simp only [if_pos, Option.some.injEq]
        constructor
        · intro hcase
          rcases hcase with ⟨hmem, he⟩ | ⟨-, rfl⟩
          · exact absurd he (hothers entry hmem)
          · exact Or.inl ⟨Or.inl rfl, rfl⟩
        · intro hcase
          rcases hcase with ⟨rfl | hmem, he⟩ | ⟨⟨hne, -⟩, -⟩
          · exact Or.inr ⟨hothers, rfl⟩
          · exact absurd he (hothers entry hmem)
          · exact absurd rfl hne
      · rw [if_neg hfirst]
        constructor
        · intro hcase
          rcases hcase with ⟨hmem, he⟩ | ⟨hne, hget⟩
          · exact Or.inl ⟨Or.inr hmem, he⟩
          · exact Or.inr ⟨⟨fun he => hfirst he.symm, hne⟩, hget⟩
        · intro hcase
          rcases hcase with ⟨rfl | hmem, he⟩ | ⟨⟨-, hne⟩, hget⟩
          · exact absurd he.symm hfirst
          · exact Or.inl ⟨hmem, he⟩
          · exact Or.inr ⟨hne, hget⟩

/-- What a decision may say next to a page of entries below a head. -/
def DecisionFits (headSequence : Int) (entries : List (CommittedOperation Operation)) :
    ProposalDecision Operation Rejection → Prop
  | .accepted operationId sequence _ =>
      1 ≤ sequence ∧ sequence ≤ headSequence ∧
        ∀ entry ∈ entries, entry.operationId = operationId → entry.sequence = sequence
  | .rejected operationId _ => ∀ entry ∈ entries, entry.operationId ≠ operationId

/-- Decisions for distinct operations that fit a page. -/
structure ValidDecisions (headSequence : Int) (entries : List (CommittedOperation Operation))
    (decisions : List (ProposalDecision Operation Rejection)) : Prop where
  nonEmpty : ∀ decision ∈ decisions, decision.operationId.length ≠ 0
  distinct : (decisions.map ProposalDecision.operationId).Nodup
  fits : ∀ decision ∈ decisions, DecisionFits headSequence entries decision

section Decisions

variable {headSequence : Int} (hsafe : headSequence ≤ maxSafeInteger)
  {entriesByOperationId : InsertionMap String (CommittedOperation Operation)}
  {entries : List (CommittedOperation Operation)}
  (hindex : ∀ operationId entry, entriesByOperationId.get? operationId = some entry ↔
    entry ∈ entries ∧ entry.operationId = operationId)

include hsafe hindex

theorem assertDecisionMatchesPage_eq_ok (decision : ProposalDecision Operation Rejection) (u : Unit) :
    (assertDecisionMatchesPage headSequence (entriesByOperationId.get? decision.operationId) decision :
      Result ε Unit) = .ok u ↔ DecisionFits headSequence entries decision := by
  cases decision with
  | accepted operationId sequence operation =>
      simp only [assertDecisionMatchesPage, bind_unit_eq_ok, assertLogSequence_false_eq_ok,
        throwIf_eq_ok]
      simp only [ProposalDecision.operationId, DecisionFits, Option.any_eq_true, hindex, not_exists,
        not_and, decide_eq_true_eq, ne_eq, not_not, and_imp]
      constructor
      · intro hparts
        obtain ⟨⟨hpositive, -⟩, hhead, hsame⟩ := hparts
        exact ⟨hpositive, by omega, fun entry hentry he => hsame entry hentry he⟩
      · intro hparts
        obtain ⟨hpositive, hhead, hsame⟩ := hparts
        exact ⟨⟨hpositive, by omega⟩, by omega, hsame⟩
  | rejected operationId reason =>
      simp only [assertDecisionMatchesPage, ProposalDecision.operationId, DecisionFits, throwIf_eq_ok,
        Option.isSome_iff_exists, hindex, not_exists, not_and, ne_eq]

theorem assertResponseDecisions_eq_ok (decisionIds : Finset String)
    (decisions : List (ProposalDecision Operation Rejection)) :
    (∃ next, (decisions.foldlM (assertResponseDecision headSequence entriesByOperationId) decisionIds :
      Result ε (Finset String)) = .ok next) ↔
      ValidDecisions headSequence entries decisions ∧
        ∀ decision ∈ decisions, decision.operationId ∉ decisionIds := by
  induction decisions generalizing decisionIds with
  | nil => simpa using ⟨by simp, by simp, by simp⟩
  | cons decision decisions ih =>
      simp only [List.foldlM_cons, bind_eq_ok, assertResponseDecision, exists_const,
        assertNonEmptyString_eq_ok, throwIf_eq_ok,
        assertDecisionMatchesPage_eq_ok hsafe hindex, pure_eq_ok, Except.ok.injEq]
      constructor
      · intro hparts
        obtain ⟨last, _, ⟨hnonEmpty, hfresh, hfits, rfl⟩, hrest⟩ := hparts
        obtain ⟨⟨hn, hd, hf⟩, hout⟩ := (ih _).mp ⟨last, hrest⟩
        simp only [Finset.mem_insert, not_or] at hout
        refine ⟨⟨List.forall_mem_cons.mpr ⟨hnonEmpty, hn⟩, ?_, List.forall_mem_cons.mpr ⟨hfits, hf⟩⟩,
          List.forall_mem_cons.mpr ⟨hfresh, fun later hlater => (hout later hlater).2⟩⟩
        rw [List.map_cons, List.nodup_cons]
        refine ⟨fun hmem => ?_, hd⟩
        obtain ⟨later, hlater, he⟩ := List.mem_map.mp hmem
        exact (hout later hlater).1 he
      · intro hparts
        obtain ⟨⟨hnonEmpty, hdistinct, hfits⟩, hout⟩ := hparts
        rw [List.forall_mem_cons] at hnonEmpty hfits hout
        rw [List.map_cons, List.nodup_cons] at hdistinct
        have hrest : ∀ later ∈ decisions,
            later.operationId ∉ insert decision.operationId decisionIds := by
          intro later hlater
          rw [Finset.mem_insert, not_or]
          exact ⟨fun he => hdistinct.1 (he ▸ List.mem_map_of_mem hlater), hout.2 later hlater⟩
        obtain ⟨last, hlast⟩ := (ih _).mpr ⟨⟨hnonEmpty.2, hdistinct.2, hfits.2⟩, hrest⟩
        exact ⟨last, _, ⟨hnonEmpty.1, hout.1, hfits.1, rfl⟩, hlast⟩

end Decisions

/-- The responses that pass validation, under limits if there are any. -/
structure ValidResponse (response : SyncResponse Operation Rejection)
    (limits : Option ProtocolLimits) : Prop where
  baseNonneg : 0 ≤ response.requestedBaseSequence
  baseLe : response.requestedBaseSequence ≤ response.throughSequence
  throughLe : response.throughSequence ≤ response.headSequence
  headSafe : response.headSequence ≤ maxSafeInteger
  withinLimits : ∀ bounds, limits = some bounds →
    (response.entries.length : Int) ≤ bounds.maximumEntriesPerResponse ∧
    (response.decisions.length : Int) ≤ bounds.maximumProposalsPerRequest
  length : (response.entries.length : Int) = response.throughSequence - response.requestedBaseSequence
  advances : response.requestedBaseSequence < response.headSequence → response.entries ≠ []
  page : ValidPage (response.requestedBaseSequence + 1) response.entries
  decisions : ValidDecisions response.headSequence response.entries response.decisions

theorem assertResponseWithinLimits_eq_ok (response : SyncResponse Operation Rejection)
    (limits : Option ProtocolLimits) (u : Unit) :
    (assertResponseWithinLimits response limits : Result ε Unit) = .ok u ↔
      ∀ bounds, limits = some bounds →
        (response.entries.length : Int) ≤ bounds.maximumEntriesPerResponse ∧
        (response.decisions.length : Int) ≤ bounds.maximumProposalsPerRequest := by
  cases limits with
  | none => simp [assertResponseWithinLimits]
  | some bounds => simp [assertResponseWithinLimits, bind_unit_eq_ok]

theorem assertResponseLists_eq_ok (response : SyncResponse Operation Rejection)
    (hsafe : response.headSequence ≤ maxSafeInteger) :
    (∃ index, (response.entries.foldlM (assertResponseEntry response.requestedBaseSequence)
        ⟨response.requestedBaseSequence + 1, InsertionMap.empty, InsertionMap.empty⟩ :
          Result ε _) = .ok index ∧
      ∃ ids, (response.decisions.foldlM
        (assertResponseDecision response.headSequence index.entriesByOperationId) ∅ :
          Result ε (Finset String)) = .ok ids) ↔
      ValidPage (response.requestedBaseSequence + 1) response.entries ∧
        ValidDecisions response.headSequence response.entries response.decisions := by
  have hget : ValidPage (response.requestedBaseSequence + 1) response.entries →
      ∀ operationId entry, (response.entries.foldl ResponseEntryIndex.add
        ⟨response.requestedBaseSequence + 1, InsertionMap.empty,
          InsertionMap.empty⟩).entriesByOperationId.get? operationId = some entry ↔
        entry ∈ response.entries ∧ entry.operationId = operationId := by
    intro hpage operationId entry
    rw [get?_foldl_add _ _ (hpage.distinct.imp fun h => h.1)]
    simp
  simp only [assertResponseEntries_eq_ok, InsertionMap.get?_empty, and_self, implies_true, and_true]
  constructor
  · intro hparts
    obtain ⟨_, ⟨hpage, rfl⟩, hdecisions⟩ := hparts
    exact ⟨hpage, ((assertResponseDecisions_eq_ok hsafe (hget hpage) ∅ _).mp hdecisions).1⟩
  · intro hparts
    obtain ⟨hpage, hdecisions⟩ := hparts
    exact ⟨_, ⟨hpage, rfl⟩, (assertResponseDecisions_eq_ok hsafe (hget hpage) ∅ _).mpr
      ⟨hdecisions, by simp⟩⟩

theorem assertSyncResponse_eq_ok (response : SyncResponse Operation Rejection)
    (limits : Option ProtocolLimits) (u : Unit) :
    (assertSyncResponse response limits : Result ε Unit) = .ok u ↔ ValidResponse response limits := by
  have hlists := assertResponseLists_eq_ok (ε := ε) response
  simp only [assertSyncResponse, bind_eq_ok, exists_const, assertLogSequence_true_eq_ok,
    throwIf_eq_ok, assertResponseWithinLimits_eq_ok, pure_eq_ok, and_true]
  constructor
  · intro hparts
    obtain ⟨hbase, hthrough, hhead, hle, hle', hlimits, hlength, hadvance, index, hindex, ids, hids⟩ := hparts
    obtain ⟨hpage, hdecisions⟩ := (hlists hhead.2).mp ⟨index, hindex, ids, hids⟩
    refine ⟨hbase.1, by omega, by omega, hhead.2, hlimits, by omega, fun hbehind hnil => ?_, hpage,
      hdecisions⟩
    exact hadvance ⟨hbehind, by rw [hnil]; rfl⟩
  · intro hparts
    obtain ⟨hbase, hle, hle', hsafe, hlimits, hlength, hadvance, hpage, hdecisions⟩ := hparts
    obtain ⟨index, hindex, ids, hids⟩ := (hlists hsafe).mpr ⟨hpage, hdecisions⟩
    refine ⟨by omega, by omega, by omega, by omega, by omega, hlimits, by omega, ?_, index, hindex,
      ids, hids⟩
    intro hparts
    obtain ⟨hbehind, hzero⟩ := hparts
    exact hadvance hbehind (List.length_eq_zero_iff.mp hzero)

/-- A response that passes under limits passes without. -/
theorem ValidResponse.without_limits {response : SyncResponse Operation Rejection}
    {limits : Option ProtocolLimits} (h : ValidResponse response limits) :
    ValidResponse response none :=
  { h with withinLimits := by simp }

/-! ### What validation throws -/

/-- An error about a value, not about what the authority has decided, and not one of the application. -/
def SyncEngineError.IsInvalid : SyncEngineError ε → Prop
  | .operationIdentityConflictError _ | .operationIntentConflictError _ | .clientSequenceConflictError ..
  | .applicationError _ => False
  | _ => True

/-- The computation throws nothing but errors about a value. -/
abbrev ThrowsInvalid {α : Type} (x : Result ε α) : Prop := Throws SyncEngineError.IsInvalid x

section Throws

variable {label : String}

theorem assertNonEmptyString_throwsInvalid {value : String} :
    ThrowsInvalid (assertNonEmptyString label value : Result ε Unit) :=
  .throwIf trivial

theorem assertLogSequence_throwsInvalid {value : Int} {allowZero : Bool} :
    ThrowsInvalid (assertLogSequence label value allowZero : Result ε Unit) :=
  .throwIf trivial

theorem assertWithinLimit_throwsInvalid {received maximum : Int} :
    ThrowsInvalid (assertWithinLimit label received maximum : Result ε Unit) :=
  .throwIf trivial

theorem assertSyncRequest_throwsInvalid (request : SyncRequest Intent)
    (limits : Option ProtocolLimits) :
    ThrowsInvalid (assertSyncRequest request limits : Result ε Unit) := by
  have hproposal : ∀ index (proposal : ProposedOperation Intent),
      ThrowsInvalid (assertBatchedProposal index proposal : Result ε _) := by
    intro index proposal
    have horder : ThrowsInvalid (assertClientOrder
        (index.lastSequenceByClient.get? proposal.clientId) proposal : Result ε Unit) := by
      cases index.lastSequenceByClient.get? proposal.clientId with
      | none => exact .ok ()
      | some previous => exact .throwIf trivial
    have hidentity : ThrowsInvalid (assertSubmissionIdentity "proposal"
        proposal.toOperationSubmissionIdentity : Result ε Unit) :=
      assertNonEmptyString_throwsInvalid.seq fun _ => assertNonEmptyString_throwsInvalid.seq fun _ =>
        assertLogSequence_throwsInvalid.seq fun _ => assertNonEmptyString_throwsInvalid
    exact hidentity.seq fun _ => (Throws.throwIf trivial).seq fun _ => horder.seq fun _ => .ok _
  have hlimits : ThrowsInvalid (assertRequestWithinLimits request limits : Result ε Unit) := by
    cases limits with
    | none => exact .ok ()
    | some limits => exact assertWithinLimit_throwsInvalid
  exact assertLogSequence_throwsInvalid.seq fun _ => (Throws.throwIf trivial).seq fun _ =>
    hlimits.seq fun _ => (Throws.foldlM hproposal _ _).seq fun _ => .ok _

theorem assertCommittedOperation_throwsInvalid {entry : CommittedOperation Operation} :
    ThrowsInvalid (assertCommittedOperation label entry : Result ε Unit) :=
  assertLogSequence_throwsInvalid.seq fun _ => assertNonEmptyString_throwsInvalid.seq fun _ =>
    assertNonEmptyString_throwsInvalid.seq fun _ => assertLogSequence_throwsInvalid.seq fun _ =>
      assertNonEmptyString_throwsInvalid

theorem assertResponseEntry_throwsInvalid (base : Int) (index : ResponseEntryIndex Operation)
    (entry : CommittedOperation Operation) :
    ThrowsInvalid (assertResponseEntry base index entry : Result ε _) := by
  have hposition : ∀ positionKey existing,
      ThrowsInvalid (assertPositionUnbound positionKey existing entry : Result ε Unit) := by
    intro positionKey existing
    cases existing with
    | none => exact .ok ()
    | some existing => exact .error trivial
  exact assertCommittedOperation_throwsInvalid.seq fun _ => (Throws.throwIf trivial).seq fun _ =>
    (Throws.throwIf trivial).seq fun _ => (hposition _ _).seq fun _ => .ok _

theorem assertResponseDecision_throwsInvalid (headSequence : Int)
    (entries : InsertionMap String (CommittedOperation Operation)) (seen : Finset String)
    (decision : ProposalDecision Operation Rejection) :
    ThrowsInvalid (assertResponseDecision headSequence entries seen decision : Result ε _) := by
  have hmatches : ∀ committed, ThrowsInvalid
      (assertDecisionMatchesPage headSequence committed decision : Result ε Unit) := by
    intro committed
    cases decision with
    | rejected => exact .throwIf trivial
    | accepted =>
        exact assertLogSequence_throwsInvalid.seq fun _ => (Throws.throwIf trivial).seq fun _ => .throwIf trivial
  exact assertNonEmptyString_throwsInvalid.seq fun _ => (Throws.throwIf trivial).seq fun _ =>
    (hmatches _).seq fun _ => .ok _

theorem assertSyncResponse_throwsInvalid (response : SyncResponse Operation Rejection)
    (limits : Option ProtocolLimits) :
    ThrowsInvalid (assertSyncResponse response limits : Result ε Unit) := by
  have hlimits : ThrowsInvalid (assertResponseWithinLimits response limits : Result ε Unit) := by
    cases limits with
    | none => exact .ok ()
    | some limits =>
        exact assertWithinLimit_throwsInvalid.seq fun _ => assertWithinLimit_throwsInvalid
  exact assertLogSequence_throwsInvalid.seq fun _ => assertLogSequence_throwsInvalid.seq fun _ =>
    assertLogSequence_throwsInvalid.seq fun _ => (Throws.throwIf trivial).seq fun _ =>
      (Throws.throwIf trivial).seq fun _ => hlimits.seq fun _ => (Throws.throwIf trivial).seq fun _ =>
        (Throws.throwIf trivial).seq fun _ =>
          (Throws.foldlM (assertResponseEntry_throwsInvalid _) _ _).seq fun _ =>
            (Throws.foldlM (assertResponseDecision_throwsInvalid _ _) _ _).seq fun _ => .ok _

end Throws

end SyncEngine
