import SyncEngine.Proof.Validation
import SyncEngine.Spec.Authority

/-!
# The responses of an authority

A response is honest about a ledger when its entries are a page of the canonical log, its head is not
beyond the log and its decisions are recorded ones. The response built from a justified ledger is
honest, and it passes the protocol's own validation as long as the head is a safe integer.
-/

namespace SyncEngine

open JavaScript Throwing

variable {State Intent Operation Rejection ε : Type}

def ProposalDecision.IsBeyond (headSequence : Int) : ProposalDecision Operation Rejection → Prop
  | .accepted _ sequence _ => headSequence < sequence
  | .rejected _ _ => False

/-- A response that says nothing the ledger does not bear out. -/
structure HonestResponse (ledger : Ledger Operation Rejection)
    (response : SyncResponse Operation Rejection) : Prop where
  baseNonneg : 0 ≤ response.requestedBaseSequence
  through : response.throughSequence = response.requestedBaseSequence + response.entries.length
  entries : response.entries <+: sliceFrom (canonicalLog ledger) response.requestedBaseSequence
  throughLe : response.throughSequence ≤ response.headSequence
  head : response.headSequence ≤ (canonicalLog ledger).length
  decisions : ∀ decision ∈ response.decisions, ∃ record ∈ ledger, record.decision = decision

theorem sliceFrom_of_nonneg {α : Type*} (l : List α) {start : Int} (h : 0 ≤ start) :
    sliceFrom l start = l.drop start.toNat := by
  rw [sliceFrom, absoluteIndex, if_neg (by omega)]

namespace HonestResponse

variable {ledger : Ledger Operation Rejection} {response : SyncResponse Operation Rejection}

/-- An entry of an honest page stands in the log at its distance from the base. -/
theorem getElem? (h : HonestResponse ledger response) {i : Nat} {entry : CommittedOperation Operation}
    (hentry : response.entries[i]? = some entry) :
    (canonicalLog ledger)[response.requestedBaseSequence.toNat + i]? = some entry := by
  have hprefix := h.entries
  rw [sliceFrom_of_nonneg _ h.baseNonneg] at hprefix
  obtain ⟨rest, hrest⟩ := hprefix
  rw [← List.getElem?_drop, ← hrest]
  obtain ⟨hlt, -⟩ := List.getElem?_eq_some_iff.mp hentry
  rw [List.getElem?_append_left hlt, hentry]

theorem mem_log (h : HonestResponse ledger response) {entry : CommittedOperation Operation}
    (hentry : entry ∈ response.entries) : entry ∈ canonicalLog ledger := by
  obtain ⟨i, hi⟩ := List.getElem?_of_mem hentry
  exact List.mem_of_getElem? (h.getElem? hi)

theorem mono (h : HonestResponse ledger response) (new : Ledger Operation Rejection) :
    HonestResponse (ledger ++ new) response where
  baseNonneg := h.baseNonneg
  through := h.through
  entries := by
    have hprefix := h.entries
    rw [sliceFrom_of_nonneg _ h.baseNonneg] at hprefix ⊢
    rw [canonicalLog_append, List.drop_append]
    exact hprefix.trans (List.prefix_append _ _)
  throughLe := h.throughLe
  head := by
    have := h.head
    rw [canonicalLog_append, List.length_append]
    omega
  decisions := by
    intro decision hdecision
    obtain ⟨record, hrecord, hsame⟩ := h.decisions decision hdecision
    exact ⟨record, List.mem_append_left _ hrecord, hsame⟩

end HonestResponse

/-! ### What a justified ledger makes of a page and a decision -/

section Justified

variable {interpreter : LogInterpreter State Intent Operation Rejection ε} {initialState state : State}
  {ledger : Ledger Operation Rejection}

theorem Justified.entry_valid (h : Justified interpreter initialState ledger state)
    {i : Nat} {entry : CommittedOperation Operation} (hentry : (canonicalLog ledger)[i]? = some entry)
    (hsafe : (i : Int) + 1 ≤ maxSafeInteger) : entry.Valid := by
  have hsequence := h.sequence_eq hentry
  obtain ⟨record, hrecord, hsome⟩ := mem_canonicalLog.mp (List.mem_of_getElem? hentry)
  obtain ⟨hid, horigin, -⟩ := StoredProposalDecision.committed?_eq_some hsome
  have hvalid := h.valid record hrecord
  exact {
    sequence := by omega
    sequenceSafe := by omega
    operationId := hid ▸ hvalid.operationId
    clientId := horigin ▸ hvalid.clientId
    clientSequence := horigin ▸ hvalid.clientSequence
    clientSequenceSafe := horigin ▸ hvalid.safe
    intentHash := horigin ▸ hvalid.intentHash }

theorem Justified.validPage (h : Justified interpreter initialState ledger state)
    {response : SyncResponse Operation Rejection} (hhonest : HonestResponse ledger response)
    (hsafe : response.headSequence ≤ maxSafeInteger) :
    ValidPage (response.requestedBaseSequence + 1) response.entries where
  valid := by
    intro entry hentry
    obtain ⟨i, hi⟩ := List.getElem?_of_mem hentry
    obtain ⟨hlt, -⟩ := List.getElem?_eq_some_iff.mp hi
    have := hhonest.through
    have := hhonest.throughLe
    have := hhonest.baseNonneg
    exact h.entry_valid (hhonest.getElem? hi) (by push_cast; omega)
  contiguous := by
    intro i entry hentry
    have := h.sequence_eq (hhonest.getElem? hentry)
    have := hhonest.baseNonneg
    push_cast at *
    omega
  distinct := by
    refine h.log_distinct.sublist (hhonest.entries.sublist.trans ?_)
    rw [sliceFrom_of_nonneg _ hhonest.baseNonneg]
    exact List.drop_sublist _ _

theorem Justified.not_beyond (h : Justified interpreter initialState ledger state)
    {record : StoredProposalDecision Operation Rejection} (hrecord : record ∈ ledger) :
    ¬record.decision.IsBeyond (canonicalLog ledger).length := by
  cases hdecision : record.decision with
  | accepted operationId sequence operation =>
      have hentry := StoredProposalDecision.committed?_of_accepted hdecision
      obtain ⟨i, hi, hsequence⟩ := h.getElem?_of_committed? hrecord hentry
      obtain ⟨hlt, -⟩ := List.getElem?_eq_some_iff.mp hi
      change sequence = i + 1 at hsequence
      show ¬((canonicalLog ledger).length : Int) < sequence
      omega
  | rejected => exact id

/-- A recorded decision fits every page of the log below a head that covers it. -/
theorem Justified.decisionFits (h : Justified interpreter initialState ledger state)
    {record : StoredProposalDecision Operation Rejection} (hrecord : record ∈ ledger)
    {entries : List (CommittedOperation Operation)} (hentries : ∀ entry ∈ entries, entry ∈ canonicalLog ledger)
    {headSequence : Int}
    (hcovered : ∀ entry, record.committed? = some entry → entry.sequence ≤ headSequence) :
    DecisionFits headSequence entries record.decision := by
  have hid := h.decision_operationId record hrecord
  cases hdecision : record.decision with
  | accepted operationId sequence operation =>
      have hentry := StoredProposalDecision.committed?_of_accepted hdecision
      obtain ⟨i, -, hsequence⟩ := h.getElem?_of_committed? hrecord hentry
      rw [hdecision] at hid
      refine ⟨?_, hcovered _ hentry, fun entry hmem hsame => ?_⟩
      · change sequence = i + 1 at hsequence
        omega
      · have := h.committed?_of_operationId (hentries entry hmem) hrecord (hid.symm.trans hsame.symm)
        rw [hentry] at this
        rw [← Option.some.inj this]
  | rejected operationId reason =>
      intro entry hmem hsame
      rw [hdecision] at hid
      have := h.committed?_of_operationId (hentries entry hmem) hrecord (hid.symm.trans hsame.symm)
      obtain ⟨-, -, _, haccepted⟩ := StoredProposalDecision.committed?_eq_some this
      rw [hdecision] at haccepted
      simp at haccepted

/-- Recorded decisions for the distinct proposals of a batch are valid next to a page. -/
theorem Justified.validDecisions (h : Justified interpreter initialState ledger state)
    {proposals : List (ProposedOperation Intent)}
    {decisions : List (ProposalDecision Operation Rejection)} (hbatch : ValidBatch proposals)
    (hrecorded : Recorded ledger proposals decisions)
    {entries : List (CommittedOperation Operation)}
    (hentries : ∀ entry ∈ entries, entry ∈ canonicalLog ledger) {headSequence : Int}
    (hcovered : ∀ record ∈ ledger, record.decision ∈ decisions → ∀ entry, record.committed? = some entry →
      entry.sequence ≤ headSequence) :
    ValidDecisions headSequence entries decisions where
  nonEmpty := by
    intro decision hdecision
    obtain ⟨record, hrecord, rfl⟩ := hrecorded.exists_record hdecision
    rw [h.decision_operationId record hrecord]
    exact (h.valid record hrecord).operationId
  distinct := by
    rw [hrecorded.map_operationId h.decision_operationId]
    exact List.pairwise_map.mpr (hbatch.ordered.imp fun hne => hne.1)
  fits := by
    intro decision hdecision
    obtain ⟨record, hrecord, rfl⟩ := hrecorded.exists_record hdecision
    exact h.decisionFits hrecord hentries (hcovered record hrecord hdecision)

end Justified

/-! ### The response of a call -/

section Respond

variable {interpreter : LogInterpreter State Intent Operation Rejection ε} {initialState state : State}
  {ledger : Ledger Operation Rejection} {limits : ProtocolLimits} {request : SyncRequest Intent}
  {decisions : List (ProposalDecision Operation Rejection)}

theorem respond_entries (log : List (CommittedOperation Operation))
    (decisions : List (ProposalDecision Operation Rejection)) (hlimits : limits.Resolved)
    (hrequest : ValidRequest request limits) :
    (InMemoryLogServer.respond limits log request decisions).entries =
      (log.drop request.baseSequence.toNat).take
        (min request.maximumEntries limits.maximumEntriesPerResponse).toNat := by
  have hbase := hrequest.baseNonneg
  have hpage : 1 ≤ min request.maximumEntries limits.maximumEntriesPerResponse :=
    le_min hrequest.entries hlimits.entries
  simp only [InMemoryLogServer.respond, slice, absoluteIndex]
  rw [if_neg (by omega), if_neg (by omega), List.drop_take]
  congr 1
  omega

/-- A response from an earlier state of the ledger, with decisions that are recorded by now. -/
theorem respond_honest {earlier : Ledger Operation Rejection} (hearlier : earlier <+: ledger)
    (hlimits : limits.Resolved) (hrequest : ValidRequest request limits)
    (hbase : request.baseSequence ≤ (canonicalLog earlier).length)
    (hrecorded : Recorded ledger request.proposals decisions) :
    HonestResponse ledger
      (InMemoryLogServer.respond limits (canonicalLog earlier) request decisions) where
  baseNonneg := hrequest.baseNonneg
  through := rfl
  entries := by
    rw [respond_entries _ _ hlimits hrequest]
    change _ <+: sliceFrom _ request.baseSequence
    rw [sliceFrom_of_nonneg _ hrequest.baseNonneg]
    exact (List.take_prefix _ _).trans ((hearlier.filterMap _).drop _)
  throughLe := by
    have hentries := respond_entries (canonicalLog earlier) decisions hlimits hrequest
    have hlength := congrArg List.length hentries
    have hnonneg := hrequest.baseNonneg
    rw [List.length_take, List.length_drop] at hlength
    change request.baseSequence + ((InMemoryLogServer.respond limits (canonicalLog earlier) request
      decisions).entries.length : Int) ≤ ((canonicalLog earlier).length : Int)
    omega
  head := Int.ofNat_le.mpr (hearlier.filterMap _).length_le
  decisions := fun _ hdecision => hrecorded.exists_record hdecision

/-- The protocol's own validation can only refuse a head that is not a safe integer, or a decision
that was taken after the state the response is from. -/
theorem respond_valid_iff {earlier : Ledger Operation Rejection} (hearlier : earlier <+: ledger)
    (h : Justified interpreter initialState ledger state) (hlimits : limits.Resolved)
    (hrequest : ValidRequest request limits)
    (hbase : request.baseSequence ≤ (canonicalLog earlier).length)
    (hrecorded : Recorded ledger request.proposals decisions) :
    ValidResponse (InMemoryLogServer.respond limits (canonicalLog earlier) request decisions)
        (some limits) ↔
      ((canonicalLog earlier).length : Int) ≤ maxSafeInteger ∧
      ∀ decision ∈ decisions, ¬decision.IsBeyond (canonicalLog earlier).length := by
  have hhonest := respond_honest hearlier hlimits hrequest hbase hrecorded
  have hentries := respond_entries (canonicalLog earlier) decisions hlimits hrequest
  have hlength := congrArg List.length hentries
  rw [List.length_take, List.length_drop] at hlength
  have hnonneg := hrequest.baseNonneg
  have hpage : 1 ≤ min request.maximumEntries limits.maximumEntriesPerResponse :=
    le_min hrequest.entries hlimits.entries
  refine ⟨fun hvalid => ⟨hvalid.headSafe, fun decision hdecision => ?_⟩,
    fun ⟨hsafe, hcovered⟩ => ?_⟩
  · have hfits := hvalid.decisions.fits decision hdecision
    cases decision with
    | accepted => exact Int.not_lt.mpr hfits.2.1
    | rejected => exact id
  exact {
    baseNonneg := hnonneg
    baseLe := by have := hhonest.through; omega
    throughLe := hhonest.throughLe
    headSafe := hsafe
    withinLimits := by
      rintro _ ⟨⟩
      refine ⟨by omega, ?_⟩
      have hcount : decisions.length = request.proposals.length := hrecorded.length_eq.symm
      have := hrequest.withinLimit
      change (decisions.length : Int) ≤ _
      omega
    length := by have := hhonest.through; omega
    advances := by
      intro hbehind hnil
      rw [hnil, List.length_nil] at hlength
      change request.baseSequence < ((canonicalLog earlier).length : Int) at hbehind
      omega
    page := h.validPage hhonest hsafe
    decisions := by
      refine h.validDecisions hrequest.batch hrecorded (fun entry hentry => hhonest.mem_log hentry) ?_
      intro record _ hdecision entry hentry
      obtain ⟨-, -, operationId, haccepted⟩ := StoredProposalDecision.committed?_eq_some hentry
      have hcovers := hcovered record.decision hdecision
      rw [haccepted] at hcovers
      exact Int.not_lt.mp hcovers }

theorem respond_valid (h : Justified interpreter initialState ledger state) (hlimits : limits.Resolved)
    (hrequest : ValidRequest request limits)
    (hbase : request.baseSequence ≤ (canonicalLog ledger).length)
    (hrecorded : Recorded ledger request.proposals decisions) :
    ValidResponse (InMemoryLogServer.respond limits (canonicalLog ledger) request decisions)
        (some limits) ↔
      ((canonicalLog ledger).length : Int) ≤ maxSafeInteger := by
  rw [respond_valid_iff (List.prefix_refl _) h hlimits hrequest hbase hrecorded, and_iff_left]
  intro decision hdecision
  obtain ⟨record, hrecord, rfl⟩ := hrecorded.exists_record hdecision
  exact h.not_beyond hrecord

end Respond

end SyncEngine
