import SyncEngine.Proof.Response
import Mathlib.Algebra.Order.BigOperators.Group.List
import Mathlib.Algebra.Order.Group.Nat

/-!
# Responses an authority could have given

A response is realizable when some canonical log and some table of decisions belong together and show
the page and the decisions of the response. The validator looks up the entry of every decision by its
operation, but never the decision at the sequence of an entry, nor two decisions at one sequence. What
it leaves out is exactly what separates the responses it accepts from the realizable ones: from any
other response a log and a table can be built, with fresh names where the response says nothing.
-/

namespace SyncEngine

open JavaScript Throwing

variable {Operation Rejection ε : Type}

/-- A canonical log and a consistent table of decisions that the response can be read from. -/
structure Realizes (log : List (CommittedOperation Operation)) (table : Ledger Operation Rejection)
    (response : SyncResponse Operation Rejection) : Prop where
  page : ValidPage 1 log
  head : (log.length : Int) = response.headSequence
  identities : ∀ record ∈ table, record.identity.Valid
  own : ∀ record ∈ table, record.decision.operationId = record.identity.operationId
  distinct : table.Pairwise fun earlier later =>
    earlier.identity.operationId ≠ later.identity.operationId ∧
      earlier.identity.position ≠ later.identity.position
  consistent : ∀ entry, entry ∈ log ↔ entry.decisionRecord ∈ table
  entries : response.entries = (log.drop response.requestedBaseSequence.toNat).take response.entries.length
  decisions : ∀ decision ∈ response.decisions, ∃ record ∈ table, record.decision = decision

def RealizableResponse (response : SyncResponse Operation Rejection) : Prop :=
  ∃ log table, Realizes log table response

/-- The accepted decisions claim different sequences, and one whose sequence lies in the page is for the
operation that stands there. -/
structure Unambiguous (response : SyncResponse Operation Rejection) : Prop where
  placed : ∀ operationId sequence operation, .accepted operationId sequence operation ∈ response.decisions →
    ∀ entry ∈ response.entries, entry.sequence = sequence →
      entry.operationId = operationId ∧ entry.operation = operation
  sequences : ∀ left sequence operation right operation',
    .accepted left sequence operation ∈ response.decisions →
    .accepted right sequence operation' ∈ response.decisions → left = right

/-- A page is numbered by its places, so it has one entry for each sequence. -/
theorem ValidPage.eq_of_sequence {first : Int} {entries : List (CommittedOperation Operation)}
    (h : ValidPage first entries) {left right : CommittedOperation Operation} (hleft : left ∈ entries)
    (hright : right ∈ entries) (hsequence : left.sequence = right.sequence) : left = right := by
  obtain ⟨i, hi⟩ := List.getElem?_of_mem hleft
  obtain ⟨j, hj⟩ := List.getElem?_of_mem hright
  have := h.contiguous i left hi
  have := h.contiguous j right hj
  obtain rfl : i = j := by omega
  exact Option.some.inj (hi.symm.trans hj)

theorem ValidPage.eq_of_operationId {first : Int} {entries : List (CommittedOperation Operation)}
    (h : ValidPage first entries) {left right : CommittedOperation Operation} (hleft : left ∈ entries)
    (hright : right ∈ entries) (hid : left.operationId = right.operationId) : left = right :=
  List.inj_on_of_nodup_map (List.pairwise_map.mpr (h.distinct.imp fun hne => hne.1)) hleft hright hid

theorem ValidPage.eq_of_position {first : Int} {entries : List (CommittedOperation Operation)}
    (h : ValidPage first entries) {left right : CommittedOperation Operation} (hleft : left ∈ entries)
    (hright : right ∈ entries) (hposition : left.origin.position = right.origin.position) : left = right :=
  List.inj_on_of_nodup_map (f := fun entry : CommittedOperation Operation => entry.origin.position)
    (List.pairwise_map.mpr (h.distinct.imp fun hne => hne.2)) hleft hright hposition

theorem ValidDecisions.eq_of_operationId {headSequence : Int} {entries : List (CommittedOperation Operation)}
    {decisions : List (ProposalDecision Operation Rejection)} (h : ValidDecisions headSequence entries decisions)
    {left right : ProposalDecision Operation Rejection} (hleft : left ∈ decisions) (hright : right ∈ decisions)
    (hid : left.operationId = right.operationId) : left = right :=
  List.inj_on_of_nodup_map h.distinct hleft hright hid

/-! ### What a realizable response says -/

theorem Realizes.accepted {log : List (CommittedOperation Operation)} {table : Ledger Operation Rejection}
    {response : SyncResponse Operation Rejection} (h : Realizes log table response) {operationId : String}
    {sequence : Int} {operation : Operation}
    (hdecision : .accepted operationId sequence operation ∈ response.decisions) :
    ∃ entry ∈ log, entry.operationId = operationId ∧ entry.sequence = sequence ∧
      entry.operation = operation := by
  obtain ⟨record, hrecord, haccepted⟩ := h.decisions _ hdecision
  have hown := h.own record hrecord
  have hsame := (StoredProposalDecision.committed?_eq_some_iff hown).mp
    (StoredProposalDecision.committed?_of_accepted haccepted)
  rw [haccepted] at hown
  refine ⟨_, (h.consistent _).mpr (hsame ▸ hrecord), hown.symm, rfl, rfl⟩

theorem Realizes.unambiguous {log : List (CommittedOperation Operation)} {table : Ledger Operation Rejection}
    {response : SyncResponse Operation Rejection} (h : Realizes log table response) : Unambiguous response where
  placed := by
    intro operationId sequence operation hdecision entry hentry hsequence
    obtain ⟨found, hfound, hid, hfoundSequence, hoperation⟩ := h.accepted hdecision
    have hmem : entry ∈ log := by
      rw [h.entries] at hentry
      exact List.mem_of_mem_drop (List.mem_of_mem_take hentry)
    rw [h.page.eq_of_sequence hmem hfound (hsequence.trans hfoundSequence.symm)]
    exact ⟨hid, hoperation⟩
  sequences := by
    intro left sequence operation right operation' hleft hright
    obtain ⟨first, hfirst, hid, hsequence, -⟩ := h.accepted hleft
    obtain ⟨second, hsecond, hid', hsequence', -⟩ := h.accepted hright
    rw [← hid, ← hid', h.page.eq_of_sequence hfirst hsecond (hsequence.trans hsequence'.symm)]

/-! ### The log behind a response -/

/-- The operation that a decision puts at a sequence. -/
def acceptedAt? (decisions : List (ProposalDecision Operation Rejection)) (sequence : Int) :
    Option (String × Operation) :=
  decisions.findSome? fun
    | .accepted operationId found operation => if found = sequence then some (operationId, operation) else none
    | .rejected _ _ => none

theorem acceptedAt?_eq_some {decisions : List (ProposalDecision Operation Rejection)} {sequence : Int}
    {operationId : String} {operation : Operation}
    (h : acceptedAt? decisions sequence = some (operationId, operation)) :
    .accepted operationId sequence operation ∈ decisions := by
  obtain ⟨decision, hdecision, hsome⟩ := List.exists_of_findSome?_eq_some h
  cases decision with
  | rejected => simp at hsome
  | accepted found sequence' operation' =>
      by_cases hsequence : sequence' = sequence
      · subst hsequence
        simp only [if_true, Option.some.injEq, Prod.mk.injEq] at hsome
        obtain ⟨rfl, rfl⟩ := hsome
        exact hdecision
      · simp [hsequence] at hsome

theorem acceptedAt?_eq_none {decisions : List (ProposalDecision Operation Rejection)} {sequence : Int}
    (h : acceptedAt? decisions sequence = none) (operationId : String) (operation : Operation) :
    .accepted operationId sequence operation ∉ decisions := by
  intro hmem
  have := List.findSome?_eq_none_iff.mp h _ hmem
  simp at this

/-- The origin of an operation that the response does not tell the origin of. -/
def freshOrigin (name operationId : String) : OperationOrigin where
  clientId := name ++ operationId
  clientSequence := 1
  intentHash := name

/-- The entry at a sequence: the one in the page, the one that a decision puts there, or a new one. -/
def entryAt [Inhabited Operation] (name : String) (response : SyncResponse Operation Rejection)
    (sequence : Int) : CommittedOperation Operation :=
  match response.entries.find? fun entry => entry.sequence = sequence with
  | some entry => entry
  | none =>
      let (operationId, operation) :=
        (acceptedAt? response.decisions sequence).getD (clientPositionKey name sequence, default)
      { sequence, operationId, origin := freshOrigin name operationId, operation }

/-- A name longer than all that the response mentions. -/
structure FreshName (name : String) (response : SyncResponse Operation Rejection) : Prop where
  nonEmpty : name.length ≠ 0
  operationIds : ∀ entry ∈ response.entries, entry.operationId.length < name.length
  clientIds : ∀ entry ∈ response.entries, entry.origin.clientId.length < name.length
  decisionIds : ∀ decision ∈ response.decisions, decision.operationId.length < name.length

theorem exists_freshName (response : SyncResponse Operation Rejection) : ∃ name, FreshName name response := by
  let used := response.entries.map (fun entry => entry.operationId.length) ++
    response.entries.map (fun entry => entry.origin.clientId.length) ++
    response.decisions.map fun decision => decision.operationId.length
  have hlength : (String.ofList (List.replicate (used.sum + 1) 'x')).length = used.sum + 1 := by
    rw [String.length_ofList, List.length_replicate]
  have hused : ∀ length ∈ used, length < (String.ofList (List.replicate (used.sum + 1) 'x')).length := by
    intro length hmem
    rw [hlength]
    exact Nat.lt_succ_of_le (List.single_le_sum (fun _ _ => Nat.zero_le _) length hmem)
  refine ⟨_, by omega, fun entry hentry => hused _ ?_, fun entry hentry => hused _ ?_,
    fun decision hdecision => hused _ ?_⟩
  · exact List.mem_append_left _ (List.mem_append_left _ (List.mem_map_of_mem hentry))
  · exact List.mem_append_left _ (List.mem_append_right _ (List.mem_map_of_mem hentry))
  · exact List.mem_append_right _ (List.mem_map_of_mem hdecision)

section Behind

variable {name : String} {response : SyncResponse Operation Rejection} {limits : Option ProtocolLimits}

/-- The response puts the operation at the sequence, in its page or by a decision. -/
def Tells (response : SyncResponse Operation Rejection) (operationId : String) (sequence : Int) : Prop :=
  (∃ entry ∈ response.entries, entry.operationId = operationId ∧ entry.sequence = sequence) ∨
    ∃ operation, .accepted operationId sequence operation ∈ response.decisions

theorem Tells.unique (hresponse : ValidResponse response limits) {operationId : String} {left right : Int}
    (hleft : Tells response operationId left) (hright : Tells response operationId right) : left = right := by
  have hcross : ∀ (entry : CommittedOperation Operation) sequence operation, entry ∈ response.entries →
      .accepted entry.operationId sequence operation ∈ response.decisions → entry.sequence = sequence :=
    fun entry sequence operation hentry hdecision =>
      (hresponse.decisions.fits _ hdecision).2.2 entry hentry rfl
  rcases hleft with ⟨entry, hentry, rfl, rfl⟩ | ⟨operation, hdecision⟩
  · rcases hright with ⟨entry', hentry', hid, rfl⟩ | ⟨operation, hdecision⟩
    · rw [hresponse.page.eq_of_operationId hentry hentry' hid.symm]
    · exact hcross entry right operation hentry hdecision
  · rcases hright with ⟨entry, hentry, rfl, rfl⟩ | ⟨operation', hdecision'⟩
    · exact (hcross entry left operation hentry hdecision).symm
    · have hsame := hresponse.decisions.eq_of_operationId hdecision hdecision' rfl
      exact (ProposalDecision.accepted.inj hsame).2.1

theorem Tells.length_lt (hname : FreshName name response) {operationId : String} {sequence : Int}
    (h : Tells response operationId sequence) : operationId.length < name.length := by
  rcases h with ⟨entry, hentry, rfl, -⟩ | ⟨operation, hdecision⟩
  · exact hname.operationIds entry hentry
  · exact hname.decisionIds _ hdecision

theorem freshOrigin_injective {left right : String}
    (h : (freshOrigin name left).position = (freshOrigin name right).position) : left = right := by
  have hclient : name ++ left = name ++ right := congrArg Prod.fst h
  have hlist := congrArg String.toList hclient
  rw [String.toList_append, String.toList_append] at hlist
  exact String.ext (List.append_cancel_left hlist)

/-- No position of the page is a fresh one. -/
theorem position_ne_freshOrigin (hname : FreshName name response) {entry : CommittedOperation Operation}
    (hentry : entry ∈ response.entries) (operationId : String) :
    entry.origin.position ≠ (freshOrigin name operationId).position := by
  intro hposition
  have hclient : entry.origin.clientId = name ++ operationId := congrArg Prod.fst hposition
  have := hname.clientIds entry hentry
  rw [hclient, String.length_append] at this
  omega

theorem length_le_clientPositionKey (name : String) (sequence : Int) :
    name.length ≤ (clientPositionKey name sequence).length := by
  rw [clientPositionKey, String.length_append, String.length_append]
  omega

/-- The record of a rejected decision, from an origin that the response does not tell. -/
def rejectedRecord? (name : String) :
    ProposalDecision Operation Rejection → Option (StoredProposalDecision Operation Rejection)
  | .accepted _ _ _ => none
  | .rejected operationId reason => some {
      identity := {
        operationId := operationId
        clientId := (freshOrigin name operationId).clientId
        clientSequence := (freshOrigin name operationId).clientSequence
        intentHash := (freshOrigin name operationId).intentHash }
      decision := .rejected operationId reason }

theorem rejectedRecord?_eq_some {decision : ProposalDecision Operation Rejection}
    {record : StoredProposalDecision Operation Rejection} (h : rejectedRecord? name decision = some record) :
    record.decision = decision ∧ record.identity.operationId = decision.operationId ∧
      record.identity.position = (freshOrigin name decision.operationId).position ∧
      record.identity.intentHash = name ∧ ∃ reason, decision = .rejected decision.operationId reason := by
  cases decision with
  | accepted => simp [rejectedRecord?] at h
  | rejected operationId reason =>
      obtain rfl := Option.some.inj h
      exact ⟨rfl, rfl, rfl, rfl, reason, rfl⟩

variable [Inhabited Operation]

/-- The three kinds of entries in the log behind a response. -/
theorem entryAt_cases (name : String) (response : SyncResponse Operation Rejection) (sequence : Int) :
    (entryAt name response sequence ∈ response.entries ∧
      (entryAt name response sequence).sequence = sequence) ∨
    (∀ entry ∈ response.entries, entry.sequence ≠ sequence) ∧
      ((∃ operationId operation, .accepted operationId sequence operation ∈ response.decisions ∧
        entryAt name response sequence =
          ⟨sequence, operationId, freshOrigin name operationId, operation⟩) ∨
      (∀ operationId operation, .accepted operationId sequence operation ∉ response.decisions) ∧
        entryAt name response sequence = ⟨sequence, clientPositionKey name sequence,
          freshOrigin name (clientPositionKey name sequence), default⟩) := by
  rw [entryAt]
  cases hfind : response.entries.find? fun entry => entry.sequence = sequence with
  | some entry =>
      have hsequence := List.find?_some hfind
      exact Or.inl ⟨List.mem_of_find?_eq_some hfind, of_decide_eq_true hsequence⟩
  | none =>
      refine Or.inr ⟨KeyedList.find?_eq_none_iff.mp hfind, ?_⟩
      cases haccepted : acceptedAt? response.decisions sequence with
      | some found =>
          obtain ⟨operationId, operation⟩ := found
          exact Or.inl ⟨operationId, operation, acceptedAt?_eq_some haccepted, rfl⟩
      | none => exact Or.inr ⟨acceptedAt?_eq_none haccepted, rfl⟩

theorem entryAt_sequence (name : String) (response : SyncResponse Operation Rejection) (sequence : Int) :
    (entryAt name response sequence).sequence = sequence := by
  rcases entryAt_cases name response sequence with ⟨-, hsequence⟩ | ⟨-, ⟨_, _, -, heq⟩ | ⟨-, heq⟩⟩
  · exact hsequence
  · rw [heq]
  · rw [heq]

theorem entryAt_operationId (name : String) (response : SyncResponse Operation Rejection) (sequence : Int) :
    Tells response (entryAt name response sequence).operationId sequence ∨
      (entryAt name response sequence).operationId = clientPositionKey name sequence := by
  rcases entryAt_cases name response sequence with
    ⟨hmem, hsequence⟩ | ⟨-, ⟨operationId, operation, hdecision, heq⟩ | ⟨-, heq⟩⟩
  · exact Or.inl (Or.inl ⟨_, hmem, rfl, hsequence⟩)
  · rw [heq]
    exact Or.inl (Or.inr ⟨operation, hdecision⟩)
  · rw [heq]
    exact Or.inr rfl

theorem entryAt_origin (name : String) (response : SyncResponse Operation Rejection) (sequence : Int) :
    entryAt name response sequence ∈ response.entries ∨
      (entryAt name response sequence).origin =
        freshOrigin name (entryAt name response sequence).operationId := by
  rcases entryAt_cases name response sequence with ⟨hmem, -⟩ | ⟨-, ⟨_, _, -, heq⟩ | ⟨-, heq⟩⟩
  · exact Or.inl hmem
  · rw [heq]
    exact Or.inr rfl
  · rw [heq]
    exact Or.inr rfl

theorem entryAt_operationId_injective (hresponse : ValidResponse response limits)
    (hname : FreshName name response) {left right : Int}
    (hid : (entryAt name response left).operationId = (entryAt name response right).operationId) :
    left = right := by
  have hleftLength := length_le_clientPositionKey name left
  have hrightLength := length_le_clientPositionKey name right
  rcases entryAt_operationId name response left with hleft | hleft
  · rcases entryAt_operationId name response right with hright | hright
    · exact Tells.unique hresponse hleft (hid ▸ hright)
    · have := hleft.length_lt hname
      rw [hid, hright] at this
      omega
  · rcases entryAt_operationId name response right with hright | hright
    · have := hright.length_lt hname
      rw [← hid, hleft] at this
      omega
    · rw [hleft, hright] at hid
      exact (clientPositionKey_injective hid).2

theorem entryAt_position_injective (hresponse : ValidResponse response limits)
    (hname : FreshName name response) {left right : Int}
    (hposition : (entryAt name response left).origin.position =
      (entryAt name response right).origin.position) : left = right := by
  rcases entryAt_origin name response left with hleft | hleft
  · rcases entryAt_origin name response right with hright | hright
    · have hsame := hresponse.page.eq_of_position hleft hright hposition
      rw [← entryAt_sequence name response left, hsame, entryAt_sequence]
    · rw [hright] at hposition
      exact absurd hposition (position_ne_freshOrigin hname hleft _)
  · rcases entryAt_origin name response right with hright | hright
    · rw [hleft] at hposition
      exact absurd hposition.symm (position_ne_freshOrigin hname hright _)
    · rw [hleft, hright] at hposition
      exact entryAt_operationId_injective hresponse hname (freshOrigin_injective hposition)

/-- The log behind a response, up to its head. -/
def logBehind (name : String) (response : SyncResponse Operation Rejection) :
    List (CommittedOperation Operation) :=
  (List.range response.headSequence.toNat).map fun (i : Nat) => entryAt name response (i + 1)

theorem getElem?_logBehind (name : String) (response : SyncResponse Operation Rejection) (i : Nat)
    (h : i < response.headSequence.toNat) :
    (logBehind name response)[i]? = some (entryAt name response (i + 1)) := by
  rw [logBehind, List.getElem?_map, List.getElem?_range h]
  rfl

theorem mem_logBehind {entry : CommittedOperation Operation} :
    entry ∈ logBehind name response ↔
      ∃ sequence : Int, 1 ≤ sequence ∧ sequence ≤ response.headSequence ∧
        entryAt name response sequence = entry := by
  rw [logBehind, List.mem_map]
  constructor
  · intro hexists
    obtain ⟨i, hi, hentry⟩ := hexists
    rw [List.mem_range] at hi
    exact ⟨i + 1, by omega, by omega, hentry⟩
  · intro hexists
    obtain ⟨sequence, hpositive, hhead, hentry⟩ := hexists
    refine ⟨(sequence - 1).toNat, List.mem_range.mpr (by omega), ?_⟩
    rw [Int.toNat_of_nonneg (by omega), Int.sub_add_cancel]
    exact hentry

theorem entryAt_valid (hresponse : ValidResponse response limits) (hname : FreshName name response)
    {sequence : Int} (hpositive : 1 ≤ sequence) (hhead : sequence ≤ response.headSequence) :
    (entryAt name response sequence).Valid := by
  have hsequence := entryAt_sequence name response sequence
  have hsafe := hresponse.headSafe
  rcases entryAt_origin name response sequence with hmem | horigin
  · exact hresponse.page.valid _ hmem
  · have hid : (entryAt name response sequence).operationId.length ≠ 0 := by
      rcases entryAt_operationId name response sequence with
        (⟨entry, hentry, hid, -⟩ | ⟨_, hdecision⟩) | hid
      · exact hid ▸ (hresponse.page.valid entry hentry).operationId
      · exact hresponse.decisions.nonEmpty _ hdecision
      · have := length_le_clientPositionKey name sequence
        have := hname.nonEmpty
        rw [hid]
        omega
    refine ⟨by omega, by omega, hid, ?_, ?_, ?_, ?_⟩
    · have := hname.nonEmpty
      rw [horigin, freshOrigin, String.length_append]
      omega
    · rw [horigin, freshOrigin]
    · rw [horigin]
      change (1 : Int) ≤ maxSafeInteger
      decide
    · rw [horigin]
      exact hname.nonEmpty

theorem logBehind_valid (hresponse : ValidResponse response limits) (hname : FreshName name response) :
    ValidPage 1 (logBehind name response) where
  valid := by
    intro entry hentry
    obtain ⟨sequence, hpositive, hhead, rfl⟩ := mem_logBehind.mp hentry
    exact entryAt_valid hresponse hname hpositive hhead
  contiguous := by
    intro i entry hentry
    have hlt : i < response.headSequence.toNat := by
      have := (List.getElem?_eq_some_iff.mp hentry).1
      rwa [logBehind, List.length_map, List.length_range] at this
    rw [getElem?_logBehind name response i hlt] at hentry
    obtain rfl := Option.some.inj hentry
    rw [entryAt_sequence, Int.add_comm]
  distinct := by
    refine List.pairwise_map.mpr (List.nodup_range.imp fun {i j} hne => ⟨fun hid => ?_, fun hposition => ?_⟩)
    · have := entryAt_operationId_injective hresponse hname hid
      omega
    · have := entryAt_position_injective hresponse hname hposition
      omega

/-- The page is what the log behind the response holds after its base. -/
theorem entries_eq_logBehind (hresponse : ValidResponse response limits) :
    response.entries = ((logBehind name response).drop response.requestedBaseSequence.toNat).take
      response.entries.length := by
  have hbase := hresponse.baseNonneg
  have hthrough := hresponse.throughLe
  have hlength := hresponse.length
  apply List.ext_getElem?
  intro i
  by_cases hi : i < response.entries.length
  · rw [List.getElem?_take_of_lt hi, List.getElem?_drop, getElem?_logBehind name response _ (by omega)]
    have hentry := List.getElem?_eq_getElem hi
    have hsequence := hresponse.page.contiguous i _ hentry
    have hplace : ((response.requestedBaseSequence.toNat + i : Nat) : Int) + 1 =
        response.entries[i].sequence := by
      rw [hsequence]
      push_cast
      omega
    rw [hentry, hplace]
    rcases entryAt_cases name response response.entries[i].sequence with ⟨hmem, hsame⟩ | ⟨hnone, -⟩
    · rw [hresponse.page.eq_of_sequence hmem (List.getElem_mem hi) hsame]
    · exact absurd rfl (hnone _ (List.getElem_mem hi))
  · rw [List.getElem?_eq_none (Nat.le_of_not_lt hi), List.getElem?_eq_none]
    exact (List.length_take_le _ _).trans (Nat.le_of_not_lt hi)

/-- The table behind a response: the records of its log, and those of its rejected decisions. -/
def tableBehind (name : String) (response : SyncResponse Operation Rejection) : Ledger Operation Rejection :=
  (logBehind name response).map CommittedOperation.decisionRecord ++
    response.decisions.filterMap (rejectedRecord? name)

/-- A rejected operation stands nowhere in the log behind the response. -/
theorem entryAt_operationId_ne_rejected (hresponse : ValidResponse response limits)
    (hname : FreshName name response) {operationId : String} {reason : Rejection}
    (hdecision : .rejected operationId reason ∈ response.decisions) (sequence : Int) :
    (entryAt name response sequence).operationId ≠ operationId := by
  intro hid
  rcases entryAt_operationId name response sequence with
    (⟨entry, hentry, hentryId, -⟩ | ⟨operation, haccepted⟩) | hfresh
  · exact hresponse.decisions.fits _ hdecision entry hentry (hentryId.trans hid)
  · have hsame := hresponse.decisions.eq_of_operationId hdecision haccepted hid.symm
    simp at hsame
  · have hshort : operationId.length < name.length := hname.decisionIds _ hdecision
    have := length_le_clientPositionKey name sequence
    rw [← hfresh, hid] at this
    omega

theorem tableBehind_distinct (hresponse : ValidResponse response limits) (hname : FreshName name response) :
    (tableBehind name response).Pairwise fun earlier later =>
      earlier.identity.operationId ≠ later.identity.operationId ∧
        earlier.identity.position ≠ later.identity.position := by
  refine List.pairwise_append.mpr ⟨?_, ?_, ?_⟩
  · exact List.pairwise_map.mpr (logBehind_valid hresponse hname).distinct
  · refine List.pairwise_filterMap.mpr ((List.pairwise_map.mp hresponse.decisions.distinct).imp ?_)
    intro earlier later hne record hrecord record' hrecord'
    obtain ⟨-, hid, hposition, -⟩ := rejectedRecord?_eq_some hrecord
    obtain ⟨-, hid', hposition', -⟩ := rejectedRecord?_eq_some hrecord'
    rw [hid, hid', hposition, hposition']
    exact ⟨hne, fun hsame => hne (freshOrigin_injective hsame)⟩
  · intro record hrecord rejected hrejected
    obtain ⟨entry, hentry, rfl⟩ := List.mem_map.mp hrecord
    obtain ⟨sequence, -, -, rfl⟩ := mem_logBehind.mp hentry
    obtain ⟨decision, hdecision, hsome⟩ := List.mem_filterMap.mp hrejected
    obtain ⟨-, hid, hposition, -, reason, hrejection⟩ := rejectedRecord?_eq_some hsome
    rw [hrejection] at hdecision
    have hne := entryAt_operationId_ne_rejected hresponse hname hdecision sequence
    rw [hid, hposition]
    refine ⟨hne, fun hsame => ?_⟩
    change (entryAt name response sequence).origin.position = _ at hsame
    rcases entryAt_origin name response sequence with hmem | horigin
    · exact position_ne_freshOrigin hname hmem _ hsame
    · rw [horigin] at hsame
      exact hne (freshOrigin_injective hsame)

/-- The log and the table behind an unambiguous response that is valid. -/
theorem realizes_behind (hresponse : ValidResponse response limits) (hunambiguous : Unambiguous response)
    (hname : FreshName name response) :
    Realizes (logBehind name response) (tableBehind name response) response where
  page := logBehind_valid hresponse hname
  head := by
    have := hresponse.baseNonneg
    have := hresponse.baseLe
    have := hresponse.throughLe
    rw [logBehind, List.length_map, List.length_range]
    omega
  identities := by
    intro record hrecord
    rcases List.mem_append.mp hrecord with hlog | hrejected
    · obtain ⟨entry, hentry, rfl⟩ := List.mem_map.mp hlog
      have hvalid := (logBehind_valid hresponse hname).valid entry hentry
      exact ⟨hvalid.operationId, hvalid.clientId, hvalid.clientSequence, hvalid.clientSequenceSafe,
        hvalid.intentHash⟩
    · obtain ⟨decision, hdecision, hsome⟩ := List.mem_filterMap.mp hrejected
      obtain ⟨-, hid, hposition, hhash, -⟩ := rejectedRecord?_eq_some hsome
      obtain ⟨hclient, hsequence⟩ := Prod.mk.inj hposition
      refine ⟨?_, ?_, ?_, ?_, hhash ▸ hname.nonEmpty⟩
      · rw [hid]
        exact hresponse.decisions.nonEmpty decision hdecision
      · have := hname.nonEmpty
        rw [hclient, freshOrigin, String.length_append]
        omega
      · rw [hsequence, freshOrigin]
      · rw [hsequence]
        change (1 : Int) ≤ maxSafeInteger
        decide
  own := by
    intro record hrecord
    rcases List.mem_append.mp hrecord with hlog | hrejected
    · obtain ⟨entry, -, rfl⟩ := List.mem_map.mp hlog
      rfl
    · obtain ⟨decision, -, hsome⟩ := List.mem_filterMap.mp hrejected
      obtain ⟨hsame, hid, -⟩ := rejectedRecord?_eq_some hsome
      rw [hsame, hid]
  distinct := tableBehind_distinct hresponse hname
  consistent := by
    intro entry
    constructor
    · intro hentry
      exact List.mem_append_left _ (List.mem_map_of_mem hentry)
    · intro hrecord
      rcases List.mem_append.mp hrecord with hlog | hrejected
      · obtain ⟨found, hfound, hsame⟩ := List.mem_map.mp hlog
        have hcommitted := congrArg StoredProposalDecision.committed? hsame
        obtain rfl : found = entry := Option.some.inj hcommitted
        exact hfound
      · obtain ⟨decision, -, hsome⟩ := List.mem_filterMap.mp hrejected
        obtain ⟨hsame, -, -, -, reason, hrejection⟩ := rejectedRecord?_eq_some hsome
        rw [hrejection] at hsame
        simp [CommittedOperation.decisionRecord] at hsame
  entries := entries_eq_logBehind hresponse
  decisions := by
    intro decision hdecision
    cases decision with
    | rejected operationId reason =>
        exact ⟨_, List.mem_append_right _ (List.mem_filterMap.mpr ⟨_, hdecision, rfl⟩), rfl⟩
    | accepted operationId sequence operation =>
        obtain ⟨hpositive, hhead, -⟩ := hresponse.decisions.fits _ hdecision
        have hmem : entryAt name response sequence ∈ logBehind name response :=
          mem_logBehind.mpr ⟨sequence, hpositive, hhead, rfl⟩
        refine ⟨_, List.mem_append_left _ (List.mem_map_of_mem hmem), ?_⟩
        rw [CommittedOperation.decisionRecord, entryAt_sequence]
        -- what stands at the sequence is for the operation of the decision
        rcases entryAt_cases name response sequence with
          ⟨hentry, hsequence⟩ | ⟨-, ⟨operationId', operation', hdecision', heq⟩ | ⟨hnone, -⟩⟩
        · obtain ⟨hid, hoperation⟩ :=
            hunambiguous.placed operationId sequence operation hdecision _ hentry hsequence
          rw [hid, hoperation]
        · obtain rfl := hunambiguous.sequences _ _ _ _ _ hdecision hdecision'
          have hsame := hresponse.decisions.eq_of_operationId hdecision hdecision' rfl
          rw [heq, (ProposalDecision.accepted.inj hsame).2.2]
        · exact absurd hdecision (hnone operationId operation)

/-- A response that the validator accepts is realizable exactly when it is unambiguous. -/
theorem realizable_iff_unambiguous
    (hresponse : (assertSyncResponse response limits : Result ε Unit) = .ok ()) :
    RealizableResponse response ↔ Unambiguous response := by
  rw [assertSyncResponse_eq_ok] at hresponse
  constructor
  · intro hrealizable
    obtain ⟨log, table, hrealizes⟩ := hrealizable
    exact hrealizes.unambiguous
  · intro hunambiguous
    obtain ⟨name, hname⟩ := exists_freshName response
    exact ⟨_, _, realizes_behind hresponse hunambiguous hname⟩

end Behind

/-- A page with the first entry of a counter's log, next to some decisions. -/
def pageOfOne (decisions : List (ProposalDecision Int String)) : SyncResponse Int String where
  requestedBaseSequence := 0
  throughSequence := 1
  headSequence := 3
  entries := [⟨1, "op-1", ⟨"client-a", 1, "test:2"⟩, 2⟩]
  decisions := decisions

/-- A decision for the entry of the page, one beyond the page and a rejected one. -/
theorem realizable_pageOfOne :
    RealizableResponse (pageOfOne [.accepted "op-1" 1 2, .accepted "op-2" 3 5, .rejected "op-3" "zero-delta"]) := by
  have hresponse : (assertSyncResponse (pageOfOne [.accepted "op-1" 1 2, .accepted "op-2" 3 5,
      .rejected "op-3" "zero-delta"]) none : Result Empty Unit) = .ok () := rfl
  refine (realizable_iff_unambiguous hresponse).mpr ⟨?_, ?_⟩
  · intro operationId sequence operation hdecision entry hentry hsequence
    obtain rfl := List.mem_singleton.mp hentry
    change 1 = sequence at hsequence
    subst hsequence
    simpa [pageOfOne, eq_comm] using hdecision
  · intro left sequence operation right operation' hleft hright
    simp only [pageOfOne, List.mem_cons, ProposalDecision.accepted.injEq, reduceCtorEq, List.not_mem_nil,
      or_false] at hleft hright
    rcases hleft with ⟨rfl, hsequence, -⟩ | ⟨rfl, hsequence, -⟩
    · rcases hright with ⟨rfl, -⟩ | ⟨-, hsequence', -⟩
      · rfl
      · omega
    · rcases hright with ⟨-, hsequence', -⟩ | ⟨rfl, -⟩
      · omega
      · rfl

/-- The validator accepts a decision for the place of another operation, and two decisions for one
place. -/
theorem assertSyncResponse_accepts_unrealizable :
    let misplaced := pageOfOne [.accepted "op-2" 1 5]
    let repeated := pageOfOne [.accepted "op-2" 3 5, .accepted "op-3" 3 5]
    ((assertSyncResponse misplaced none : Result Empty Unit) = .ok () ∧ ¬RealizableResponse misplaced) ∧
      (assertSyncResponse repeated none : Result Empty Unit) = .ok () ∧ ¬RealizableResponse repeated := by
  intro misplaced repeated
  refine ⟨⟨rfl, fun hrealizable => ?_⟩, rfl, fun hrealizable => ?_⟩
  · obtain ⟨log, table, hrealizes⟩ := hrealizable
    have hplaced := hrealizes.unambiguous.placed "op-2" 1 5 List.mem_cons_self _ List.mem_cons_self rfl
    exact absurd hplaced.1 (by decide)
  · obtain ⟨log, table, hrealizes⟩ := hrealizable
    have hsame := hrealizes.unambiguous.sequences "op-2" 3 5 "op-3" 5 List.mem_cons_self
      (List.mem_cons_of_mem _ List.mem_cons_self)
    exact absurd hsame (by decide)

end SyncEngine
