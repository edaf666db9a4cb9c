import SyncEngine.Model.Projecting
import SyncEngine.Proof.Deliveries

/-!
# Deliveries that project

The deliveries of `Proof.Deliveries`, over the tables of an application as well. What the authority asks of the
sync tables is as secure as without a projection, since a read leaves the log as it is, and with it what the
application has seen of it. A commit that goes through extends the ledger and the tables of the application by
the same operations.
-/

namespace SyncEngine

open JavaScript Throwing

variable {State Intent Operation Rejection ε Statement Application : Type}

/-! ### Statements of a commit -/

def syncStatements : List (CommitStatement Statement) → List D1Write :=
  List.filterMap fun
    | .sync statement => some statement
    | .application _ => none

def applicationStatements : List (CommitStatement Statement) → List Statement :=
  List.filterMap fun
    | .sync _ => none
    | .application statement => some statement

@[simp] theorem syncStatements_append (first second : List (CommitStatement Statement)) :
    syncStatements (first ++ second) = syncStatements first ++ syncStatements second := List.filterMap_append

@[simp] theorem applicationStatements_append (first second : List (CommitStatement Statement)) :
    applicationStatements (first ++ second) = applicationStatements first ++ applicationStatements second :=
  List.filterMap_append

@[simp] theorem syncStatements_application (statements : List Statement) :
    syncStatements (statements.map CommitStatement.application) = [] := by
  rw [syncStatements, List.filterMap_map]
  exact List.filterMap_eq_nil_iff.mpr fun _ _ => rfl

@[simp] theorem applicationStatements_application (statements : List Statement) :
    applicationStatements (statements.map CommitStatement.application) = statements := by
  rw [applicationStatements, List.filterMap_map]
  exact List.filterMap_some

def ProjectingStaging.toD1 (staging : ProjectingStaging State Operation Rejection Statement) :
    D1Staging State Operation Rejection where
  headSequence := staging.headSequence
  state := staging.state
  decisions := staging.decisions
  statements := syncStatements staging.statements

def ApplicationDatabase.executeAll (database : ApplicationDatabase Statement Application) (application : Application)
    (statements : List Statement) : Except String Application :=
  statements.foldlM (fun application statement => Prod.snd <$> database.execute application statement) application

section Execute

variable {database : ApplicationDatabase Statement Application}

/-- A commit that goes through executes the statements of the sync tables and those of the application, each in
their order. -/
theorem executeAll_ok {statements : List (CommitStatement Statement)} {tables next : ProjectedTables Application}
    {changes : List Nat} (h : tables.executeAll database statements = .ok (changes, next)) :
    (∃ changes, tables.sync.executeAll (syncStatements statements) = .ok (changes, next.sync)) ∧
      database.executeAll tables.application (applicationStatements statements) = .ok next.application := by
  induction statements generalizing tables changes with
  | nil =>
      obtain ⟨-, rfl⟩ := Prod.mk.inj (Except.ok.inj h)
      exact ⟨⟨[], rfl⟩, rfl⟩
  | cons statement statements ih =>
      obtain ⟨⟨count, middle⟩, hfirst, h⟩ := bind_eq_ok.mp h
      obtain ⟨⟨counts, last⟩, hrest, h⟩ := bind_eq_ok.mp h
      obtain ⟨-, rfl⟩ := Prod.mk.inj (Except.ok.inj h)
      obtain ⟨⟨changes, hsync⟩, happlication⟩ := ih hrest
      cases statement with
      | sync statement =>
          obtain ⟨⟨count, sync⟩, hexecute, hmiddle⟩ := bind_eq_ok.mp hfirst
          obtain ⟨-, rfl⟩ := Prod.mk.inj (Except.ok.inj hmiddle)
          refine ⟨⟨count :: changes, ?_⟩, happlication⟩
          exact bind_eq_ok.mpr ⟨_, mapError_eq_ok.mp hexecute, bind_eq_ok.mpr ⟨_, hsync, rfl⟩⟩
      | application statement =>
          obtain ⟨⟨count, application⟩, hexecute, hmiddle⟩ := bind_eq_ok.mp hfirst
          obtain ⟨-, rfl⟩ := Prod.mk.inj (Except.ok.inj hmiddle)
          refine ⟨⟨changes, hsync⟩, ?_⟩
          show (database.executeAll tables.application (statement :: applicationStatements statements)) = _
          rw [ApplicationDatabase.executeAll, List.foldlM_cons, hexecute]
          exact happlication

theorem executeAll_error {statements : List (CommitStatement Statement)} {tables : ProjectedTables Application}
    {message : String} (h : tables.executeAll database statements = .error message) :
    (∃ statement ∈ syncStatements statements, ∃ tables : D1Tables, ∃ constraint,
      tables.execute statement = .error constraint ∧ message = database.constraintMessage statement constraint) ∨
    ∃ statement ∈ applicationStatements statements, ∃ application,
      database.execute application statement = .error message := by
  induction statements generalizing tables with
  | nil => simp [ProjectedTables.executeAll] at h
  | cons statement statements ih =>
      rw [ProjectedTables.executeAll, bind_eq_error] at h
      rcases h with hfirst | ⟨⟨count, middle⟩, hfirst, h⟩
      · cases statement with
        | sync statement =>
            have hthrown : (tables.sync.execute statement).mapError (database.constraintMessage statement) =
                .error message := by
              rcases bind_eq_error.mp hfirst with hthrown | ⟨_, _, hreturned⟩
              · exact hthrown
              · simp at hreturned
            cases hexecute : tables.sync.execute statement with
            | ok result => simp [hexecute, Except.mapError] at hthrown
            | error constraint =>
                rw [hexecute] at hthrown
                exact .inl ⟨statement, List.mem_cons_self, tables.sync, constraint, hexecute,
                  (Except.error.inj hthrown).symm⟩
        | application statement =>
            refine .inr ⟨statement, List.mem_cons_self, tables.application, ?_⟩
            rcases bind_eq_error.mp hfirst with hthrown | ⟨_, _, hreturned⟩
            · exact hthrown
            · simp at hreturned
      · have hrest : middle.executeAll database statements = .error message := by
          rcases bind_eq_error.mp h with hthrown | ⟨_, _, hreturned⟩
          · exact hthrown
          · simp at hreturned
        have hsync : syncStatements statements ⊆ syncStatements (statement :: statements) :=
          (List.sublist_cons_self _ _).filterMap _ |>.subset
        have happlication : applicationStatements statements ⊆ applicationStatements (statement :: statements) :=
          (List.sublist_cons_self _ _).filterMap _ |>.subset
        rcases ih hrest with ⟨thrower, hmem, hthrown⟩ | ⟨thrower, hmem, hthrown⟩
        · exact .inl ⟨thrower, hsync hmem, hthrown⟩
        · exact .inr ⟨thrower, happlication hmem, hthrown⟩

end Execute

/-! ### Reads -/

def D1Call.IsRead : D1Call → Prop
  | .batch _ => False
  | _ => True

theorem logEntries_of_isRead {call : D1Call} (h : call.IsRead) (tables : D1Tables) :
    (tables.answer call).2.logEntries = tables.logEntries := by
  cases call with
  | batch => exact h.elim
  | insertStream streamId schemaHash materializedStateJson =>
      show (tables.insertStream streamId schemaHash materializedStateJson).logEntries = _
      rw [D1Tables.insertStream]
      split <;> rfl
  | selectStream | selectDecision | selectClientPosition | selectLogPage => rfl

section Reads

variable (stream : D1StreamSettings State Intent Operation Rejection ε)

theorem readOrCreateStream_isRead :
    (readOrCreateStream stream : D1Program ε (StreamRecord State)).Asks D1Call.IsRead fun _ => True := by
  have hinsert : (Program.ask (I := D1Interface) (.insertStream stream.streamId stream.schemaHash
      (stream.stateCodec.serializeJson stream.initialState)) : D1Program ε Unit).Asks D1Call.IsRead fun _ => True :=
    .ask trivial
  have hselect : (Program.ask (I := D1Interface) (.selectStream stream.streamId) :
      D1Program ε (Option D1StreamRow)).Asks D1Call.IsRead fun _ => True := .ask trivial
  exact hinsert.bind fun _ _ => hselect.bind fun _ _ => .lifted _

theorem readStoredDecision_isRead (proposal : ProposedOperation Intent) :
    (readStoredDecision stream proposal).Asks D1Call.IsRead fun _ => True := by
  have hselect : (Program.ask (I := D1Interface) (.selectDecision stream.streamId proposal.operationId) :
      D1Program ε (Option D1DecisionRow)).Asks D1Call.IsRead fun _ => True := .ask trivial
  exact hselect.bind fun _ _ => .lifted _

theorem assertClientPositionAvailable_isRead (proposal : ProposedOperation Intent) :
    (assertClientPositionAvailable stream proposal).Asks D1Call.IsRead fun _ => True := by
  have hselect : (Program.ask (I := D1Interface) (.selectClientPosition stream.streamId proposal.clientId
      proposal.clientSequence) : D1Program ε (Option String)).Asks D1Call.IsRead fun _ => True := .ask trivial
  exact hselect.bind fun _ _ => .lifted _

theorem readResponse_isRead (settings : D1AuthoritySettings State Intent Operation Rejection ε)
    (request : SyncRequest Intent) (head : Int) (decisions : List (ProposalDecision Operation Rejection)) :
    (readResponse settings request head decisions).Asks D1Call.IsRead fun _ => True := by
  have hselect : (Program.ask (I := D1Interface) (.selectLogPage settings.streamId request.baseSequence head
      (min request.maximumEntries settings.limits.maximumEntriesPerResponse)) :
        D1Program ε (List D1LogEntryRow)).Asks D1Call.IsRead fun _ => True := .ask trivial
  have hpage : (readLogPage settings.toD1StreamSettings request.baseSequence head
      (min request.maximumEntries settings.limits.maximumEntriesPerResponse)).Asks D1Call.IsRead fun _ => True :=
    hselect.bind fun _ _ => .lifted _
  exact hpage.bind fun _ _ => (Program.Asks.lifted _).bind fun _ _ => .pure trivial

end Reads

/-! ### Constraints of the sync tables -/

def D1Write.Allowed : D1Write → Prop
  | .insertDecision row => row.Allowed
  | _ => True

theorem D1Write.Allowed.throws {statement : D1Write} (h : statement.Allowed) (tables : D1Tables) :
    Throws (fun constraint => constraint ≠ .check) (tables.execute statement) := by
  cases statement with
  | insertDecision row =>
      have hinsert : Throws (fun constraint => constraint ≠ .check) (tables.insertDecision row) := by
        refine (Throws.throwIf (by decide)).seq fun _ => (Throws.throwIf (by decide)).seq fun _ => ?_
        rw [throwIf_neg (not_not.mpr (show row.Allowed from h))]
        exact .ok _
      exact hinsert.seq fun tables => .ok (1, tables)
  | insertLogEntry row =>
      have hinsert : Throws (fun constraint => constraint ≠ .check) (tables.insertLogEntry row) :=
        (Throws.throwIf (by decide)).seq fun _ => (Throws.throwIf (by decide)).seq fun _ =>
          (Throws.throwIf (by decide)).seq fun _ => .ok _
      exact hinsert.seq fun tables => .ok (1, tables)
  | updateStreamState => exact .ok _
  | guardedUpdateStreamState => exact (Throws.throwIf (by decide)).seq fun _ => .ok _

theorem recordStatements_allowed (stream : D1StreamSettings State Intent Operation Rejection ε)
    {record : StoredProposalDecision Operation Rejection} {statement : D1Write}
    (h : statement ∈ stream.recordStatements record) : statement.Allowed := by
  obtain ⟨identity, decision⟩ := record
  cases decision with
  | accepted id sequence operation =>
      rcases List.mem_cons.mp h with rfl | hentry
      · exact .inl ⟨rfl, rfl, rfl, rfl⟩
      · obtain ⟨entry, -, rfl⟩ := Option.map_eq_some_iff.mp (Option.mem_toList.mp hentry)
        exact trivial
  | rejected id reason =>
      obtain rfl := List.mem_singleton.mp h
      exact .inr ⟨rfl, rfl, rfl, rfl⟩

/-! ### Tables of the application -/

namespace D1Projection

section Mirrors

variable (projection : D1Projection Operation Statement ε) (database : ApplicationDatabase Statement Application)
  (before : Application)

def projectAll (operations : List Operation) : Except (D1SyncError ε) (List Statement) := do
  return (← operations.mapM projection.projectAcceptedOperation).flatten

/-- The tables of the application hold what the operations have made of them. -/
def Mirrors (operations : List Operation) (application : Application) : Prop :=
  ∃ statements, projection.projectAll operations = .ok statements ∧
    database.executeAll before statements = .ok application

variable {projection database before}

theorem projectAll_append {first second : List Operation} {statements statements' : List Statement}
    (h : projection.projectAll first = .ok statements) (h' : projection.projectAll second = .ok statements') :
    projection.projectAll (first ++ second) = .ok (statements ++ statements') := by
  obtain ⟨parts, hparts, hstatements⟩ := bind_eq_ok.mp h
  obtain ⟨parts', hparts', hstatements'⟩ := bind_eq_ok.mp h'
  obtain rfl := Except.ok.inj hstatements
  obtain rfl := Except.ok.inj hstatements'
  rw [projectAll, List.mapM_append, hparts, hparts']
  exact congrArg Except.ok List.flatten_append

theorem projectAll_singleton {operation : Operation} {statements : List Statement}
    (h : projection.projectAcceptedOperation operation = .ok statements) :
    projection.projectAll [operation] = .ok statements := by
  rw [projectAll, List.mapM_cons, h]
  exact congrArg Except.ok (List.append_nil _)

theorem Mirrors.append {operations operations' : List Operation} {application next : Application}
    {statements : List Statement} (h : projection.Mirrors database before operations application)
    (hproject : projection.projectAll operations' = .ok statements)
    (hexecute : database.executeAll application statements = .ok next) :
    projection.Mirrors database before (operations ++ operations') next := by
  obtain ⟨earlier, hearlier, happlication⟩ := h
  refine ⟨earlier ++ statements, projectAll_append hearlier hproject, ?_⟩
  rw [ApplicationDatabase.executeAll, List.foldlM_append]
  exact bind_eq_ok.mpr ⟨application, happlication, hexecute⟩

end Mirrors

/-! ### Calls of the sync tables -/

section Calls

variable {stream : D1StreamSettings State Intent Operation Rejection ε} {Submitted : ProposedOperation Intent → Prop}
  {projection : D1Projection Operation Statement ε} {database : ApplicationDatabase Statement Application}
  {before : Application}

/-- The tables hold a ledger, and the tables of the application what its log has made of them. -/
structure Holds (projection : D1Projection Operation Statement ε)
    (database : ApplicationDatabase Statement Application) (before : Application)
    (tables : ProjectedTables Application) (w : StreamWorld stream Submitted) : Prop where
  sync : w.Holds tables.sync
  application : projection.Mirrors database before (logOperations w.ledger) tables.application

def syncEvents : List (Event (ProjectingInterface Statement)) → List (Event D1Interface) :=
  List.filterMap fun
    | ⟨.sync call, answer⟩ => some ⟨call, answer⟩
    | ⟨.commit _, _⟩ => none

/-- A commit that the database has refused for a constraint of the application. -/
def IsRefusal (names : D1SyncTableNames) : Event (ProjectingInterface Statement) → Prop
  | ⟨.commit _, (.error message : Except String (List Nat))⟩ =>
      isApplicationProjectionConstraint message names = true
  | _ => False

/-- The last call was refused for a constraint of the application. -/
def Refused (names : D1SyncTableNames) (trace : List (Event (ProjectingInterface Statement))) : Prop :=
  ∃ event ∈ trace.getLast?, IsRefusal names event

theorem syncEvents_sync (trace : List (Event (ProjectingInterface Statement))) (call : D1Call)
    (answer : D1Interface.Answer call) :
    syncEvents (trace ++ [⟨.sync call, answer⟩]) = syncEvents trace ++ [⟨call, answer⟩] := List.filterMap_append

theorem syncEvents_commit (trace : List (Event (ProjectingInterface Statement)))
    (statements : List (CommitStatement Statement)) (answer : Except String (List Nat)) :
    syncEvents (trace ++ [⟨.commit statements, answer⟩]) = syncEvents trace :=
  List.filterMap_append.trans (List.append_nil _)

@[simp] theorem refused_append (names : D1SyncTableNames) (trace : List (Event (ProjectingInterface Statement)))
    (event : Event (ProjectingInterface Statement)) : Refused names (trace ++ [event]) ↔ IsRefusal names event := by
  simp [Refused]

theorem Holds.read {tables : ProjectedTables Application} {w w' : StreamWorld stream Submitted} {call : D1Call}
    (h : Holds projection database before tables w) (hread : call.IsRead) (hle : w ≤ w')
    (hsync : w'.Holds (D1Tables.answer call tables.sync).2) :
    Holds projection database before (tables.answer database (.sync call)).2 w' where
  sync := hsync
  application := by
    have hlog : w.log = w'.log := by
      apply (StreamWorld.log_grows hle).eq_of_length
      have hrows := congrArg List.length (congrArg (List.filter fun row => row.streamId = stream.streamId)
        (logEntries_of_isRead hread tables.sync))
      have hlength := congrArg List.length h.sync.stores.logEntries
      have hlength' := congrArg List.length hsync.stores.logEntries
      rw [List.length_map] at hlength hlength'
      exact (hlength.symm.trans (hrows.symm.trans hlength'))
    have hoperations : logOperations w.ledger = logOperations w'.ledger :=
      congrArg (List.map CommittedOperation.operation) hlog
    rw [← hoperations]
    exact h.application

theorem onSyncTables_secure {α : Type} {program : D1Program ε α} {R : α → Prop} (hasks : program.Asks D1Call.IsRead R)
    {Q : StreamWorld stream Submitted → List (Event D1Interface) → α → Prop} {assumed : Prop}
    {w : StreamWorld stream Submitted} {trace : List (Event (ProjectingInterface Statement))}
    (hrefused : ¬Refused projection.names trace)
    (h : program.Secure D1Tables.answer (fun tables w => w.Holds tables) Q (Failed assumed) w (syncEvents trace)) :
    (program.onSyncTables : ProjectingProgram Statement ε α).Secure (ProjectedTables.answer database)
      (Holds projection database before)
      (fun w trace a => ¬Refused projection.names trace ∧ Q w (syncEvents trace) a)
      (fun w trace caused => ¬Refused projection.names trace ∧ caused.projection = false ∧
        Failed assumed w (syncEvents trace) caused.error) w trace := by
  have hsees : ∀ (trace : List (Event (ProjectingInterface Statement))) trace' call (answer : D1Interface.Answer call),
      ¬Refused projection.names trace ∧ syncEvents trace = trace' →
        ¬Refused projection.names (trace ++ [⟨.sync call, answer⟩]) ∧
          syncEvents (trace ++ [⟨.sync call, answer⟩]) = trace' ++ [⟨call, answer⟩] := by
    intro trace trace' call answer hsees
    refine ⟨by simp [IsRefusal], ?_⟩
    rw [← hsees.2]
    exact syncEvents_sync trace call answer
  have hwithin : (program.within ProjectingCall.sync fun _ answer => answer).Secure (ProjectedTables.answer database)
      (Holds projection database before)
      (fun w trace a => ∃ trace', (¬Refused projection.names trace ∧ syncEvents trace = trace') ∧ Q w trace' a)
      (fun w trace error => ∃ trace', (¬Refused projection.names trace ∧ syncEvents trace = trace') ∧
        Failed assumed w trace' error) w trace :=
    Program.Secure.within hasks (fun _ _ hholds => hholds.sync) (fun _ _ => rfl)
      (fun _ _ _ _ hread hholds hle hsync => hholds.read hread hle hsync) hsees ⟨hrefused, rfl⟩ h
  refine Program.Secure.handle (hwithin.imp ?_ fun _ _ _ hthrows => hthrows) ?_
  · intro w' trace' a hreturns
    obtain ⟨_, ⟨hrefused', rfl⟩, hQ⟩ := hreturns
    exact ⟨hrefused', hQ⟩
  · intro w' trace' error _ hthrows later hlater
    obtain ⟨_, ⟨hrefused', rfl⟩, hfailed⟩ := hthrows
    exact ⟨hrefused', rfl, hfailed.mono hlater⟩

/-! ### Failures -/

/-- How a call may fail. A refusal of the application is final, and says nothing of a stale attempt. -/
structure ProjectingFailed (names : D1SyncTableNames) (assumed : Prop) (w : StreamWorld stream Submitted)
    (trace : List (Event (ProjectingInterface Statement))) (caused : CausedError ε) : Prop where
  refused : caused.projection = true ↔ Refused names trace
  final : caused.projection = true → isRetryableD1CommitConflict caused.error = false
  current : caused.projection = true → ¬Stale (syncEvents trace)
  failed : caused.projection = false → Failed assumed w (syncEvents trace) caused.error

variable {assumed : Prop} {w w' : StreamWorld stream Submitted}
  {trace : List (Event (ProjectingInterface Statement))} {names : D1SyncTableNames}

theorem ProjectingFailed.of_sync {error : D1SyncError ε} (hrefused : ¬Refused names trace)
    (h : Failed assumed w (syncEvents trace) error) : ProjectingFailed names assumed w trace { error } where
  refused := iff_of_false Bool.false_ne_true hrefused
  final hprojection := absurd hprojection Bool.false_ne_true
  current hprojection := absurd hprojection Bool.false_ne_true
  failed _ := h

theorem ProjectingFailed.mono {caused : CausedError ε} (h : ProjectingFailed names assumed w trace caused)
    (hle : w ≤ w') : ProjectingFailed names assumed w' trace caused :=
  { h with failed := fun hprojection => (h.failed hprojection).mono hle }

/-- How a call may fail, as its caller sees it. -/
structure ExposedFailed (names : D1SyncTableNames) (assumed : Prop) (w : StreamWorld stream Submitted)
    (trace : List (Event (ProjectingInterface Statement)))
    (error : ProjectingError ε) : Prop where
  refused : error = .d1ApplicationProjectionError ↔ Refused names trace
  failed : assumed → (w.log.length : Int) ≤ maxSafeInteger →
    (error = .d1ApplicationProjectionError ∨ error = .d1SyncError .d1SyncConflictError) ∧ ¬Stale (syncEvents trace) ∨
      (∃ e, error = .d1SyncError (.syncEngineError e)) ∧ Stale (syncEvents trace)

theorem ProjectingFailed.expose {caused : CausedError ε}
    (h : ProjectingFailed names assumed w trace caused) : ExposedFailed names assumed w trace caused.expose := by
  obtain ⟨error, projection⟩ := caused
  cases projection with
  | true => exact ⟨iff_of_true rfl (h.refused.mp rfl), fun _ _ => .inl ⟨.inl rfl, h.current rfl⟩⟩
  | false =>
      refine ⟨iff_of_false (by simp [CausedError.expose]) fun hrefused => ?_, fun hassumed hsafe => ?_⟩
      · exact absurd (h.refused.mpr hrefused) Bool.false_ne_true
      · rcases h.failed rfl hassumed hsafe with ⟨herror, hstale⟩ | ⟨⟨e, herror⟩, hstale⟩
        · exact .inl ⟨.inr (congrArg ProjectingError.d1SyncError herror), hstale⟩
        · exact .inr ⟨⟨e, congrArg ProjectingError.d1SyncError herror⟩, hstale⟩

theorem onSyncTables_failed {α : Type} {program : D1Program ε α} {R : α → Prop}
    (hasks : program.Asks D1Call.IsRead R)
    {Q : StreamWorld stream Submitted → List (Event D1Interface) → α → Prop}
    (hrefused : ¬Refused projection.names trace)
    (h : program.Secure D1Tables.answer (fun tables w => w.Holds tables) Q (Failed assumed) w (syncEvents trace)) :
    (program.onSyncTables : ProjectingProgram Statement ε α).Secure (ProjectedTables.answer database)
      (Holds projection database before)
      (fun w trace a => ¬Refused projection.names trace ∧ Q w (syncEvents trace) a)
      (ProjectingFailed projection.names assumed) w trace := by
  refine (onSyncTables_secure hasks hrefused h).imp (fun _ _ _ hreturns => hreturns) ?_
  intro w trace caused hthrows
  obtain ⟨hrefused', hprojection, hfailed⟩ := hthrows
  obtain ⟨error, _⟩ := caused
  obtain rfl := hprojection
  exact .of_sync hrefused' hfailed

theorem lift_failed {α : Type} {x : Except (D1SyncError ε) α}
    {Q : StreamWorld stream Submitted → List (Event (ProjectingInterface Statement)) → α → Prop}
    (hrefused : ¬Refused projection.names trace) (hok : ∀ a, x = .ok a → ∀ w', w ≤ w' → Q w' trace a)
    (herror : ∀ error, x = .error error → ∀ w', w ≤ w' → Failed assumed w' (syncEvents trace) error) :
    (Program.lift (x.mapError fun error => { error }) : ProjectingProgram Statement ε α).Secure
      (ProjectedTables.answer database) (Holds projection database before) Q
      (ProjectingFailed projection.names assumed) w trace := by
  cases x with
  | ok a => exact hok a rfl
  | error error => exact fun later hlater => .of_sync hrefused (herror error rfl later hlater)

/-- What is assumed of the projection and of the messages of the database: no accepted operation is refused by
the projection, a violated constraint of a sync table names the table, and a failing statement of the application
violates a constraint that names none. -/
structure Benign (projection : D1Projection Operation Statement ε)
    (database : ApplicationDatabase Statement Application)
    (stream : D1StreamSettings State Intent Operation Rejection ε) : Prop where
  projects : ∀ state proposal operation, stream.interpreter.decide state proposal = .ok (.accepted operation) →
    ∃ statements, projection.projectAcceptedOperation operation = .ok statements
  sync : ∀ statement constraint, constraint ≠ .check →
    includes (database.constraintMessage statement constraint) (statement.table projection.names) = true ∧
      isUniqueConstraintError (database.constraintMessage statement constraint) = true
  application : ∀ application statement message, database.execute application statement = .error message →
    isApplicationProjectionConstraint message projection.names = true

theorem table_mem_values (names : D1SyncTableNames) (statement : D1Write) : statement.table names ∈ names.values := by
  cases statement <;> simp [D1Write.table, D1SyncTableNames.values]

theorem Benign.message (h : projection.Benign database stream) {statements : List (CommitStatement Statement)}
    (hallowed : ∀ statement ∈ syncStatements statements, statement.Allowed) {tables : ProjectedTables Application}
    {message : String} (hthrown : tables.executeAll database statements = .error message) :
    isApplicationProjectionConstraint message projection.names = true ∨ isUniqueConstraintError message = true := by
  rcases executeAll_error hthrown with ⟨statement, hmem, sync, constraint, hconstraint, rfl⟩ |
    ⟨statement, -, application, hexecute⟩
  · exact .inr (h.sync statement constraint ((hallowed statement hmem).throws sync constraint hconstraint)).2
  · exact .inl (h.application application statement message hexecute)

/-! ### The proposal loop -/

theorem stageDraft_ok {staging next : ProjectingStaging State Operation Rejection Statement}
    {proposal : ProposedOperation Intent} (h : projection.stageDraft stream staging proposal = .ok next) :
    SyncEngine.stageDraft stream staging.toD1 proposal = .ok next.toD1 ∧
      ((∃ reason, next.decisions = staging.decisions ++ [.rejected proposal.operationId reason] ∧
          applicationStatements next.statements = applicationStatements staging.statements) ∨
        ∃ sequence operation projected, projection.projectAcceptedOperation operation = .ok projected ∧
          next.decisions = staging.decisions ++ [.accepted proposal.operationId sequence operation] ∧
          applicationStatements next.statements = applicationStatements staging.statements ++ projected) := by
  obtain ⟨draft, hdecide, h⟩ := bind_eq_ok.mp h
  cases draft with
  | rejected reason =>
      obtain rfl := Except.ok.inj h
      refine ⟨bind_eq_ok.mpr ⟨_, hdecide, ?_⟩, .inl ⟨reason, rfl, by simp [applicationStatements]⟩⟩
      simp [ProjectingStaging.toD1, syncStatements]
  | accepted operation =>
      obtain ⟨state, happly, h⟩ := bind_eq_ok.mp h
      obtain ⟨projected, hproject, h⟩ := bind_eq_ok.mp h
      obtain rfl := Except.ok.inj h
      refine ⟨bind_eq_ok.mpr ⟨_, hdecide, bind_eq_ok.mpr ⟨state, happly, ?_⟩⟩,
        .inr ⟨_, operation, projected, hproject, rfl, ?_⟩⟩
      · simp [ProjectingStaging.toD1, syncStatements]
      · simp [applicationStatements]

theorem Benign.stageDraft (h : projection.Benign database stream) (hbenign : SyncEngine.Benign stream Submitted)
    (staging : ProjectingStaging State Operation Rejection Statement) (proposal : ProposedOperation Intent) :
    ∃ next, projection.stageDraft stream staging proposal = .ok next := by
  obtain ⟨draft, hdecide⟩ := hbenign.decides staging.state proposal
  rw [D1Projection.stageDraft, hdecide]
  cases draft with
  | rejected reason => exact ⟨_, rfl⟩
  | accepted operation =>
      obtain ⟨state, happly⟩ := hbenign.applies staging.state proposal operation hdecide
      obtain ⟨projected, hproject⟩ := h.projects staging.state proposal operation hdecide
      exact ⟨_, bind_eq_ok.mpr ⟨_, rfl, bind_eq_ok.mpr ⟨state, by rw [happly]; rfl,
        bind_eq_ok.mpr ⟨projected, hproject, rfl⟩⟩⟩⟩

/-- What the loop has staged after some proposals: what is staged for the sync tables, and for the tables of the
application the statements of the operations that are drafted. -/
structure StagedBy (projection : D1Projection Operation Statement ε) (record : StreamRecord State)
    (new : Ledger Operation Rejection) (done : List (ProposedOperation Intent)) (w : StreamWorld stream Submitted)
    (trace : List (Event (ProjectingInterface Statement)))
    (staging : ProjectingStaging State Operation Rejection Statement) : Prop where
  sync : SyncEngine.StagedBy record new done w (syncEvents trace) staging.toD1
  application : projection.projectAll (logOperations new) = .ok (applicationStatements staging.statements)

/-- The invariant of the loop. -/
def Staged (projection : D1Projection Operation Statement ε) (record : StreamRecord State)
    (done : List (ProposedOperation Intent)) (w : StreamWorld stream Submitted)
    (trace : List (Event (ProjectingInterface Statement)))
    (staging : ProjectingStaging State Operation Rejection Statement) : Prop :=
  ¬Refused projection.names trace ∧ ReadAt w record ∧ ∃ new, projection.StagedBy record new done w trace staging

theorem Staged.mono {record : StreamRecord State} {done : List (ProposedOperation Intent)}
    {staging : ProjectingStaging State Operation Rejection Statement}
    (h : projection.Staged record done w trace staging) (hle : w ≤ w') :
    projection.Staged record done w' trace staging := by
  obtain ⟨hrefused, hread, new, hnew⟩ := h
  exact ⟨hrefused, hread.mono hle, new, hnew.sync.mono hle, hnew.application⟩

theorem staged_nil {record : StreamRecord State} (hrefused : ¬Refused projection.names trace)
    (hread : ReadAt w record)
    (hreadings : lastReadings (syncEvents trace) = ⟨record.headSequence, false, false⟩) :
    projection.Staged record [] w trace ⟨record.headSequence, record.state, [], []⟩ := by
  obtain ⟨-, new, hnew⟩ := SyncEngine.staged_nil hread hreadings
  have hnil : new = [] := by
    by_contra hne
    have hlength := (stream.flatMap_recordStatements_length new).mpr hne
    rw [← hnew.statements] at hlength
    exact absurd hlength (Nat.lt_irrefl 0)
  exact ⟨hrefused, hread, [], hnil ▸ hnew, rfl⟩

theorem logOperations_of_decision {record : StoredProposalDecision Operation Rejection} :
    logOperations [record] = match record.decision with
      | .accepted _ _ operation => [operation]
      | .rejected _ _ => [] := by
  obtain ⟨identity, decision⟩ := record
  cases decision <;> rfl

theorem StagedBy.draft {record : StreamRecord State} {new : Ledger Operation Rejection}
    {done : List (ProposedOperation Intent)} {staging next : ProjectingStaging State Operation Rejection Statement}
    {proposal : ProposedOperation Intent} (h : projection.StagedBy record new done w trace staging)
    (hread : ReadAt w record) {trace' : List (Event (ProjectingInterface Statement))}
    (hreadings : lastReadings (syncEvents trace') = { lastReadings (syncEvents trace) with undecided := true })
    (hsubmitted : Submitted proposal) (hvalid : proposal.toOperationSubmissionIdentity.Valid)
    (hstage : projection.stageDraft stream staging proposal = .ok next) :
    ∃ added, projection.StagedBy record (new ++ [added]) (done ++ [proposal]) w trace' next := by
  obtain ⟨hsync, hprojected⟩ := stageDraft_ok hstage
  obtain ⟨added, hadded, hdecisions⟩ := h.sync.draft hread hreadings hsubmitted hvalid hsync
  refine ⟨added, hadded, ?_⟩
  rw [logOperations_append]
  rcases hprojected with ⟨reason, hdecision, hsame⟩ | ⟨sequence, operation, projected, hproject, hdecision, hmore⟩
  · have hrejected := List.append_cancel_left (hdecisions.symm.trans hdecision)
    rw [logOperations_of_decision, List.singleton_inj.mp hrejected, hsame]
    exact (congrArg projection.projectAll (List.append_nil _)).trans h.application
  · have haccepted := List.append_cancel_left (hdecisions.symm.trans hdecision)
    rw [logOperations_of_decision, List.singleton_inj.mp haccepted, hmore]
    exact projectAll_append h.application (projectAll_singleton hproject)

/-- The step lemma of the loop. -/
theorem stageProposal_secure (hcodecs : RoundTripCodecs stream)
    (hbenign : assumed → SyncEngine.Benign stream Submitted ∧ projection.Benign database stream)
    {record : StreamRecord State} {done : List (ProposedOperation Intent)}
    {staging : ProjectingStaging State Operation Rejection Statement} {proposal : ProposedOperation Intent}
    (hsubmitted : Submitted proposal) (hvalid : proposal.toOperationSubmissionIdentity.Valid)
    (h : projection.Staged record done w trace staging) :
    (projection.stageProposal stream staging proposal).Secure (ProjectedTables.answer database)
      (Holds projection database before) (projection.Staged record (done ++ [proposal]))
      (ProjectingFailed projection.names assumed) w trace := by
  obtain ⟨hrefused, hread, new, hnew⟩ := h
  rw [stageProposal]
  refine Program.Secure.bind (onSyncTables_failed (readStoredDecision_isRead stream proposal) hrefused
    (readStoredDecision_secure hcodecs (fun hassumed => (hbenign hassumed).1) hsubmitted)) ?_
  intro w₁ trace₁ existing hle hfound
  obtain ⟨hrefused₁, hfound⟩ := hfound
  replace hnew : projection.StagedBy record new done w₁ trace staging := ⟨hnew.sync.mono hle, hnew.application⟩
  cases existing with
  | some decision =>
      intro later hlater
      refine Staged.mono ⟨hrefused₁, hread.mono hle, new, ?_, hnew.application⟩ hlater
      exact hnew.sync.existing hfound
  | none =>
      refine Program.Secure.bind (onSyncTables_failed (assertClientPositionAvailable_isRead stream proposal) hrefused₁
        (assertClientPositionAvailable_secure (fun hassumed => (hbenign hassumed).1) hsubmitted)) ?_
      intro w₂ trace₂ _ hle' hreadings
      obtain ⟨hrefused₂, hreadings⟩ := hreadings
      replace hnew : projection.StagedBy record new done w₂ trace staging :=
        ⟨hnew.sync.mono hle', hnew.application⟩
      have hread₂ := (hread.mono hle).mono hle'
      apply lift_failed hrefused₂
      · intro next hnext later hlater
        obtain ⟨added, hadded⟩ := hnew.draft hread₂ (hreadings.trans hfound) hsubmitted hvalid hnext
        exact Staged.mono ⟨hrefused₂, hread₂, _, hadded⟩ hlater
      · intro error hthrown _ _ hassumed _
        obtain ⟨next, hnext⟩ := (hbenign hassumed).2.stageDraft (hbenign hassumed).1 staging proposal
        rw [hnext] at hthrown
        simp at hthrown

/-! ### Commit -/

theorem storageOrConflictError_of_unique {message : String} (h : isUniqueConstraintError message = true) :
    (storageOrConflictError message : D1SyncError ε) = .d1SyncConflictError := if_pos h

/-- An authority does not try again what the application refuses. -/
theorem refusal_final : isRetryableD1CommitConflict
    (storageOrConflictError "D1 application-table projection failed" : D1SyncError ε) = false := by
  have hunique : ¬isUniqueConstraintError "D1 application-table projection failed" = true := by decide
  rw [storageOrConflictError, if_neg hunique, isRetryableD1CommitConflict]
  decide

def ReadyToAnswer (names : D1SyncTableNames) (request : SyncRequest Intent) (w : StreamWorld stream Submitted)
    (trace : List (Event (ProjectingInterface Statement))) (head : Int)
    (decisions : List (ProposalDecision Operation Rejection)) : Prop :=
  ¬Refused names trace ∧ Ready request w (syncEvents trace) head decisions

/-- The commit of a draft extends the ledger and the tables of the application by the same operations, or changes
nothing. -/
theorem StagedBy.batch {record : StreamRecord State} {new : Ledger Operation Rejection}
    {done : List (ProposedOperation Intent)} {staging : ProjectingStaging State Operation Rejection Statement}
    (h : projection.StagedBy record new done w trace staging) (hread : ReadAt w record)
    {tables : ProjectedTables Application} (hholds : Holds projection database before tables w) :
    let statements := staging.statements ++
      [.sync (updateStreamState stream record.headSequence staging.headSequence staging.state)]
    (∃ message, tables.executeAll database statements = .error message) ∨
    ∃ (changes : List Nat) (tables' : ProjectedTables Application) (w' : StreamWorld stream Submitted),
      tables.executeAll database statements = .ok (changes, tables') ∧ w ≤ w' ∧
      Holds projection database before tables' w' ∧ w'.ledger = w.ledger ++ new ∧
      staging.headSequence = w'.log.length := by
  intro statements
  cases hexecute : tables.executeAll database statements with
  | error message => exact .inl ⟨message, rfl⟩
  | ok result =>
      obtain ⟨changes, tables'⟩ := result
      obtain ⟨⟨counts, hsync⟩, happlication⟩ := executeAll_ok hexecute
      rw [syncStatements_append] at hsync
      rw [applicationStatements_append] at happlication
      replace hsync : tables.sync.executeAll (staging.toD1.statements ++
        [updateStreamState stream record.headSequence staging.headSequence staging.state]) =
          .ok (counts, tables'.sync) := hsync
      have hbatch : tables.sync.batch (staging.toD1.statements ++
          [updateStreamState stream record.headSequence staging.headSequence staging.state]) =
            (.ok counts, tables'.sync) := by
        rw [D1Tables.batch, hsync]
      rcases h.sync.batch hread hholds.sync with ⟨constraint, hrolledBack⟩ |
        ⟨_, sync', w', hcommitted, -, hle, hholds', hledger, hlength⟩
      · have hsame := (congrArg Prod.fst hbatch).symm.trans (congrArg Prod.fst hrolledBack)
        simp at hsame
      · have hsame := (congrArg Prod.snd hbatch).symm.trans (congrArg Prod.snd hcommitted)
        refine .inr ⟨changes, tables', w', rfl, hle, ⟨?_, ?_⟩, hledger, hlength⟩
        · exact (show tables'.sync = sync' from hsame) ▸ hholds'
        · rw [hledger, logOperations_append]
          refine hholds.application.append h.application ?_
          simpa [applicationStatements] using happlication

theorem StagedBy.allowed {record : StreamRecord State} {new : Ledger Operation Rejection}
    {done : List (ProposedOperation Intent)} {staging : ProjectingStaging State Operation Rejection Statement}
    (h : projection.StagedBy record new done w trace staging) :
    ∀ statement ∈ syncStatements (staging.statements ++
      [.sync (updateStreamState stream record.headSequence staging.headSequence staging.state)]),
        statement.Allowed := by
  intro statement hstatement
  rw [syncStatements_append, List.mem_append] at hstatement
  rcases hstatement with hstaged | hupdate
  · rw [show syncStatements staging.statements = _ from h.sync.statements] at hstaged
    obtain ⟨record, -, hrecord⟩ := List.mem_flatMap.mp hstaged
    exact recordStatements_allowed stream hrecord
  · obtain rfl := List.mem_singleton.mp hupdate
    exact trivial

theorem commitD1Statements_secure {record : StreamRecord State} {request : SyncRequest Intent}
    {staging : ProjectingStaging State Operation Rejection Statement} {new : Ledger Operation Rejection}
    (hbenign : assumed → projection.Benign database stream) (hread : ReadAt w record)
    (hstaged : projection.StagedBy record new request.proposals w trace staging) (hnew : new ≠ []) :
    (projection.commitD1Statements (staging.statements ++
        [.sync (updateStreamState stream record.headSequence staging.headSequence staging.state)])).Secure
      (ProjectedTables.answer database) (Holds projection database before)
      (fun w trace _ => ReadyToAnswer projection.names request w trace staging.headSequence staging.decisions)
      (ProjectingFailed projection.names assumed) w trace := by
  have hcurrent : ¬Stale (syncEvents trace) := by
    intro hstale
    rw [Stale, hstaged.sync.undecided.mpr hnew] at hstale
    simp at hstale
  rw [commitD1Statements]
  apply Program.Secure.bind (Q := fun w trace' results => ¬Stale (syncEvents trace') ∧
    (∀ changes, results = .ok changes →
      ReadyToAnswer projection.names request w trace' staging.headSequence staging.decisions) ∧
    ∀ message, results = .error message →
      (Refused projection.names trace' ↔ isApplicationProjectionConstraint message projection.names = true) ∧
        (assumed → isApplicationProjectionConstraint message projection.names = true ∨
          isUniqueConstraintError message = true))
  · apply Program.Secure.ask (I := ProjectingInterface Statement) (c := .commit _)
    intro w' tables hle hholds
    have hcurrent' : ∀ answer : Except String (List Nat), ¬Stale (syncEvents (trace ++ [⟨.commit (staging.statements ++
        [.sync (updateStreamState stream record.headSequence staging.headSequence staging.state)]), answer⟩])) := by
      intro answer
      rw [syncEvents_commit]
      exact hcurrent
    replace hstaged : projection.StagedBy record new request.proposals w' trace staging :=
      ⟨hstaged.sync.mono hle, hstaged.application⟩
    rcases hstaged.batch (hread.mono hle) hholds with ⟨message, hthrown⟩ |
      ⟨changes, tables', w'', hcommitted, hle', hholds', hledger, hlength⟩
    · have hanswer : ProjectedTables.answer database (.commit (staging.statements ++
          [.sync (updateStreamState stream record.headSequence staging.headSequence staging.state)])) tables =
            ((.error message : Except String (List Nat)), tables) := by
        rw [ProjectedTables.answer, ProjectedTables.batch, hthrown]
      rw [hanswer]
      refine ⟨w', le_refl w', hholds, fun later _ => ⟨hcurrent' _, fun _ hok => by simp at hok, ?_⟩⟩
      intro other hother
      obtain rfl := Except.error.inj hother
      exact ⟨refused_append _ _ _, fun hassumed => (hbenign hassumed).message hstaged.allowed hthrown⟩
    · have hanswer : ProjectedTables.answer database (.commit (staging.statements ++
          [.sync (updateStreamState stream record.headSequence staging.headSequence staging.state)])) tables =
            ((.ok changes : Except String (List Nat)), tables') := by
        rw [ProjectedTables.answer, ProjectedTables.batch, hcommitted]
      rw [hanswer]
      refine ⟨w'', hle', hholds', fun later hlater => ⟨hcurrent' _, fun _ _ => ⟨by simp [IsRefusal], ?_⟩,
        fun _ herror => by simp at herror⟩⟩
      exact (hstaged.sync.committed hledger hlength (hcurrent' _)).mono hlater
  intro w₁ trace₁ results _ hresults
  obtain ⟨hcurrent₁, hok, herror⟩ := hresults
  cases results with
  | ok changes =>
      obtain ⟨hrefused, hready⟩ := hok changes rfl
      apply Program.Secure.lift
      · intro _ _ later hlater
        exact ⟨hrefused, hready.mono hlater⟩
      · intro caused hthrown later _
        have hconflict : caused = { error := .d1SyncConflictError } := by
          by_contra hne
          change throwIf (changes.getLast? = some 0) _ = _ at hthrown
          by_cases hlast : changes.getLast? = some 0
          · rw [throwIf_pos hlast] at hthrown
            exact hne (Except.error.inj hthrown).symm
          · rw [throwIf_neg hlast] at hthrown
            simp at hthrown
        subst hconflict
        exact .of_sync hrefused fun _ _ => .inl ⟨rfl, hcurrent₁⟩
  | error message =>
      obtain ⟨hrefused, hmessage⟩ := herror message rfl
      intro later hlater
      rw [commitError]
      split
      · rename_i hconstraint
        exact ⟨iff_of_true rfl (hrefused.mpr hconstraint), fun _ => refusal_final, fun _ => hcurrent₁,
          fun hprojection => by simp at hprojection⟩
      · rename_i hconstraint
        refine .of_sync (fun h => hconstraint (hrefused.mp h)) fun hassumed _ => .inl ⟨?_, hcurrent₁⟩
        exact storageOrConflictError_of_unique ((hmessage hassumed).resolve_left hconstraint)

theorem eq_nil_of_statements {statements : List (CommitStatement Statement)} (hsync : syncStatements statements = [])
    (happlication : applicationStatements statements = []) : statements = [] := by
  rw [syncStatements, List.filterMap_eq_nil_iff] at hsync
  rw [applicationStatements, List.filterMap_eq_nil_iff] at happlication
  rw [List.eq_nil_iff_forall_not_mem]
  intro statement hstatement
  cases statement with
  | sync => exact absurd (hsync _ hstatement) (by simp)
  | application => exact absurd (happlication _ hstatement) (by simp)

theorem StagedBy.statements_length {record : StreamRecord State} {new : Ledger Operation Rejection}
    {done : List (ProposedOperation Intent)} {staging : ProjectingStaging State Operation Rejection Statement}
    (h : projection.StagedBy record new done w trace staging) : staging.statements.length > 0 ↔ new ≠ [] := by
  have hsync : syncStatements staging.statements = new.flatMap stream.recordStatements := h.sync.statements
  constructor
  · intro hlength hnil
    subst hnil
    have happlication := Except.ok.inj h.application
    rw [eq_nil_of_statements hsync happlication.symm] at hlength
    exact absurd hlength (Nat.lt_irrefl 0)
  · intro hne
    rw [← stream.flatMap_recordStatements_length, ← hsync] at hne
    exact hne.trans_le (List.length_filterMap_le _ _)

theorem commitStaging_secure {record : StreamRecord State} {request : SyncRequest Intent}
    {staging : ProjectingStaging State Operation Rejection Statement}
    (hbenign : assumed → projection.Benign database stream)
    (hstaged : projection.Staged record request.proposals w trace staging) :
    (projection.commitStaging stream record.headSequence staging).Secure (ProjectedTables.answer database)
      (Holds projection database before)
      (fun w trace _ => ReadyToAnswer projection.names request w trace staging.headSequence staging.decisions)
      (ProjectingFailed projection.names assumed) w trace := by
  obtain ⟨hrefused, hread, new, hnew⟩ := hstaged
  rw [commitStaging]
  split
  case isTrue hlength =>
    exact commitD1Statements_secure hbenign hread hnew (hnew.statements_length.mp hlength)
  case isFalse hlength =>
    have hnothing : ¬staging.toD1.statements.length > 0 := by
      rw [show staging.toD1.statements = _ from hnew.sync.statements, stream.flatMap_recordStatements_length]
      exact fun hne => hlength (hnew.statements_length.mpr hne)
    exact fun later hlater => ⟨hrefused, (hnew.sync.ready hread hnothing).mono hlater⟩

end Calls

/-! ### Whole calls -/

section Call

variable {settings : D1AuthoritySettings State Intent Operation Rejection ε}
  {projection : D1Projection Operation Statement ε}
  {database : ApplicationDatabase Statement Application} {before : Application}
  {Submitted : ProposedOperation Intent → Prop}
  (hcodecs : RoundTripCodecs settings.toD1StreamSettings) (hlimits : settings.limits.Resolved)
  {request : SyncRequest Intent} (hsubmitted : ∀ proposal ∈ request.proposals, Submitted proposal)
  {assumed : Prop}
  (hbenign : assumed → SyncEngine.Benign settings.toD1StreamSettings Submitted ∧
    projection.Benign database settings.toD1StreamSettings)
  (hvalid : assumed → ValidRequest request settings.limits)
  {w : StreamWorld settings.toD1StreamSettings Submitted} {trace : List (Event (ProjectingInterface Statement))}

include hcodecs hlimits hsubmitted hbenign hvalid

theorem synchronizeOnce_secure (hrefused : ¬Refused projection.names trace)
    (hbase : assumed → request.baseSequence ≤ w.log.length) :
    (projection.synchronizeOnce settings request).Secure (ProjectedTables.answer database)
      (Holds projection database before)
      (fun w trace response => ¬Refused projection.names trace ∧ Answered request w (syncEvents trace) response)
      (ProjectingFailed projection.names assumed) w trace := by
  rw [synchronizeOnce]
  apply Program.Secure.bind (Q := fun _ trace' _ => ¬Refused projection.names trace' ∧
    ValidRequest request settings.limits)
  · apply lift_failed hrefused
    · intro _ hrequest _ _
      exact ⟨hrefused, (assertSyncRequest_eq_ok _ _ _).mp (protocol_eq_ok.mp hrequest)⟩
    · intro error herror _ _ hassumed
      rw [(assertSyncRequest_eq_ok _ _ ()).mpr (hvalid hassumed)] at herror
      simp [protocol] at herror
  intro w₁ trace₁ _ hle₁ hrequest
  obtain ⟨hrefused₁, hrequest⟩ := hrequest
  refine Program.Secure.bind (onSyncTables_failed (readOrCreateStream_isRead settings.toD1StreamSettings) hrefused₁
    (readOrCreateStream_secure hcodecs fun hassumed => (hbenign hassumed).1)) ?_
  intro w₂ trace₂ record hle₂ hread
  obtain ⟨hrefused₂, hread, hgrows, hreadings⟩ := hread
  apply Program.Secure.bind (Q := fun _ trace' _ =>
    trace' = trace₂ ∧ request.baseSequence ≤ record.headSequence)
  · apply lift_failed hrefused₂
    · intro _ hknown _ _
      exact ⟨rfl, Int.not_lt.mp ((throwIf_eq_ok _ _ _).mp (protocol_eq_ok.mp hknown))⟩
    · intro error herror _ _ hassumed
      have hlength := StreamWorld.length_le hle₁
      have := hbase hassumed
      rw [throwIf_neg (by omega)] at herror
      simp [protocol] at herror
  intro w₃ trace₃ _ hle₃ hknown
  obtain ⟨rfl, hknown⟩ := hknown
  have hloop : (request.proposals.foldlM (projection.stageProposal settings.toD1StreamSettings)
      ⟨record.headSequence, record.state, [], []⟩).Secure (ProjectedTables.answer database)
      (Holds projection database before) (projection.Staged record request.proposals)
      (ProjectingFailed projection.names assumed) w₃ trace₃ :=
    Program.Secure.foldlM (P := projection.Staged record) (fun _ _ _ _ _ hle h => Staged.mono h hle)
      (fun proposal hproposal _ _ _ _ h => stageProposal_secure hcodecs hbenign (hsubmitted proposal hproposal)
        (hrequest.batch.valid proposal hproposal) h) (staged_nil hrefused₂ (hread.mono hle₃) hreadings)
  apply hloop.bind
  intro w₄ trace₄ staging hle₄ hstaged
  have hhead : record.headSequence ≤ staging.headSequence := by
    obtain ⟨-, -, new, hnew⟩ := hstaged
    have := hnew.sync.headSequence
    change staging.headSequence = _ at this
    omega
  apply (commitStaging_secure (fun hassumed => (hbenign hassumed).2) hstaged).bind
  intro w₅ trace₅ _ hle₅ hready
  have hresponse : (readResponse settings request staging.headSequence staging.decisions).Secure D1Tables.answer
      (fun tables w => w.Holds tables) (Answered request) (Failed assumed) w₅ (syncEvents trace₅) :=
    readResponse_secure hcodecs hlimits hrequest (hknown.trans hhead) hready.2
  exact onSyncTables_failed (readResponse_isRead settings request staging.headSequence staging.decisions)
    hready.1 hresponse

theorem synchronizeAttempts_secure (attempts : Nat) (hrefused : ¬Refused projection.names trace)
    (hstart : Failed assumed w (syncEvents trace) (.d1SyncConflictError : D1SyncError ε))
    (hbase : assumed → request.baseSequence ≤ w.log.length) :
    (projection.synchronizeAttempts settings request attempts).Secure (ProjectedTables.answer database)
      (Holds projection database before)
      (fun w trace response => ¬Refused projection.names trace ∧ Answered request w (syncEvents trace) response)
      (ProjectingFailed projection.names assumed) w trace := by
  induction attempts generalizing w trace with
  | zero => exact fun later hlater => .of_sync hrefused (hstart.mono hlater)
  | succ attempts ih =>
      rw [synchronizeAttempts]
      apply (synchronizeOnce_secure hcodecs hlimits hsubmitted hbenign hvalid hrefused hbase).handle
      intro w' trace' caused hle hfailed
      split
      · rename_i hretry
        have hprojection : caused.projection = false := by
          by_contra hprojection
          rw [hfailed.final (by simpa using hprojection)] at hretry
          simp at hretry
        apply ih
        · rw [← hfailed.refused, hprojection]
          exact Bool.false_ne_true
        · intro hassumed hsafe
          rcases hfailed.failed hprojection hassumed hsafe with ⟨-, hstale⟩ | ⟨⟨e, herror⟩, -⟩
          · exact .inl ⟨rfl, hstale⟩
          · simp [herror, isRetryableD1CommitConflict] at hretry
        · intro hassumed
          have := StreamWorld.length_le hle
          have := hbase hassumed
          omega
      · exact fun later hlater => hfailed.mono hlater

variable (settings) in
theorem synchronize_secure (hbase : assumed → request.baseSequence ≤ w.log.length) :
    (projection.synchronize settings request).Secure (ProjectedTables.answer database)
      (Holds projection database before)
      (fun w trace response => ¬Refused projection.names trace ∧ Answered request w (syncEvents trace) response)
      (ExposedFailed projection.names assumed) w [] := by
  have hrefused : ¬Refused projection.names ([] : List (Event (ProjectingInterface Statement))) := by simp [Refused]
  have hcurrent : ¬Stale ([] : List (Event D1Interface)) := by decide
  refine Program.Secure.handle (synchronizeAttempts_secure hcodecs hlimits hsubmitted hbenign hvalid _ hrefused
    (fun _ _ => .inl ⟨rfl, hcurrent⟩) hbase) ?_
  exact fun w trace caused _ hfailed later hlater => (hfailed.mono hlater).expose

end Call

/-! ### Runs -/

def Deliveries.Submitted (pool : Deliveries Intent Operation Rejection ε Statement Application)
    (proposal : ProposedOperation Intent) : Prop :=
  ∃ thread ∈ pool.threads, proposal ∈ thread.input.request.proposals

section Runs

variable {stream : D1StreamSettings State Intent Operation Rejection ε}
  {projection : D1Projection Operation Statement ε} {database : ApplicationDatabase Statement Application}
  {before : Application}

theorem deliveries_secure {admits : D1Tables → D1Delivery Intent → Prop} (hcodecs : RoundTripCodecs stream)
    (hlimits : ∀ tables delivery, admits tables delivery → delivery.limits.Resolved)
    {pool : Deliveries Intent Operation Rejection ε Statement Application}
    (hpool : (projection.system stream database before admits).Reachable pool) {assumed : Prop}
    (hbenign : assumed → SyncEngine.Benign stream pool.Submitted ∧ projection.Benign database stream)
    (hvalid : assumed → ∀ tables delivery, admits tables delivery →
      ValidRequest delivery.request delivery.limits ∧
        delivery.request.baseSequence ≤ stream.storedHead tables) :
    ∃ w : StreamWorld stream pool.Submitted, Holds projection database before pool.store w ∧
      ∀ thread ∈ pool.threads, thread.program.Secure (ProjectedTables.answer database)
        (Holds projection database before)
        (fun w trace response => ¬Refused projection.names trace ∧
          Answered thread.input.request w (syncEvents trace) response)
        (ExposedFailed projection.names assumed) w thread.trace := by
  have hinputs := Pool.reachable_of_inputs
    (P := fun delivery => ∀ proposal ∈ delivery.request.proposals, pool.Submitted proposal) hpool
    fun thread hthread proposal hproposal => ⟨thread, hthread, hproposal⟩
  have hstart : ∀ tables : ProjectedTables Application, stream.Unopened tables.sync ∧ tables.application = before →
      ∃ w : StreamWorld stream pool.Submitted, Holds projection database before tables w := by
    intro tables hstart
    refine ⟨_, StreamWorld.unopened_holds hstart.1, ?_⟩
    rw [hstart.2]
    exact ⟨[], rfl, rfl⟩
  have hbody : ∀ delivery (tables : ProjectedTables Application) (w : StreamWorld stream pool.Submitted),
      (admits tables.sync delivery ∧ ∀ proposal ∈ delivery.request.proposals, pool.Submitted proposal) →
      Holds projection database before tables w →
        (projection.deliver stream delivery).Secure (ProjectedTables.answer database)
          (Holds projection database before)
          (fun w trace response => ¬Refused projection.names trace ∧
            Answered delivery.request w (syncEvents trace) response)
          (ExposedFailed projection.names assumed) w [] := by
    intro delivery tables w hadmits hholds
    obtain ⟨hadmits, hsubmitted⟩ := hadmits
    apply synchronize_secure (stream.authority delivery) hcodecs (hlimits _ _ hadmits) hsubmitted hbenign
      (fun hassumed => (hvalid hassumed _ _ hadmits).1)
    intro hassumed
    rw [← hholds.sync.storedHead]
    exact (hvalid hassumed _ _ hadmits).2
  exact Program.secure_of_reachable hstart hbody hinputs

/-- In every interleaving of deliveries the sync tables satisfy the invariants of the stream, the tables of the
application hold what the operations of its log have made of them, and every response that was returned is
honest. -/
theorem projected_deliveries_safe (hcodecs : RoundTripCodecs stream)
    {pool : Deliveries Intent Operation Rejection ε Statement Application}
    (hpool : (projection.system stream database before fun _ delivery => delivery.limits.Resolved).Reachable pool) :
    (∃ operations state, StreamInvariant stream pool.Submitted pool.store.sync operations state ∧
      projection.Mirrors database before operations pool.store.application) ∧
    ∀ thread ∈ pool.threads, ∀ response, thread.program = .pure response →
      HonestAnswer stream pool.store.sync thread.input.request response := by
  obtain ⟨w, hholds, hthreads⟩ := deliveries_secure hcodecs (fun _ _ hlimits => hlimits) hpool
    (fun h : False => h.elim) False.elim
  refine ⟨⟨_, _, hholds.sync.invariant, hholds.application⟩, fun thread hthread response hresponse => ?_⟩
  have hsecure := hthreads thread hthread
  rw [hresponse] at hsecure
  exact hsecure.returns_of_pure.2.honestAnswer hholds.sync

/-- A finished call has returned a response, or failed with a conflict or a projection error, unless its last
attempt was stale. It fails with a projection error where its last call was a commit that a constraint of the
application has refused. -/
theorem projected_finished_iff (hcodecs : RoundTripCodecs stream)
    {pool : Deliveries Intent Operation Rejection ε Statement Application}
    (hpool : (projection.system stream database before stream.Admits).Reachable pool)
    (hbenign : SyncEngine.Benign stream pool.Submitted) (hprojection : projection.Benign database stream)
    (hsafe : stream.storedHead pool.store.sync ≤ maxSafeInteger)
    {thread : Thread (ProjectingInterface Statement) (ProjectingError ε) (SyncResponse Operation Rejection)
      (D1Delivery Intent)} (hthread : thread ∈ pool.threads)
    {outcome : Except (ProjectingError ε) (SyncResponse Operation Rejection)}
    (hfinished : thread.program = Program.lift outcome) :
    ((∃ response, outcome = .ok response) ∨ outcome = .error (.d1SyncError .d1SyncConflictError) ∨
        outcome = .error .d1ApplicationProjectionError ↔ ¬Stale (syncEvents thread.trace)) ∧
      (outcome = .error .d1ApplicationProjectionError ↔ Refused projection.names thread.trace) := by
  obtain ⟨w, hholds, hthreads⟩ := deliveries_secure hcodecs (fun _ _ hadmits => hadmits.limits) hpool
    (fun _ : True => ⟨hbenign, hprojection⟩) fun _ _ _ hadmits => ⟨hadmits.valid, hadmits.base⟩
  have hsecure := hthreads thread hthread
  rw [hfinished] at hsecure
  cases outcome with
  | ok response =>
      obtain ⟨hrefused, hanswered⟩ := hsecure.returns_of_pure
      exact ⟨iff_of_true (.inl ⟨response, rfl⟩) hanswered.current, iff_of_false (by simp) hrefused⟩
  | error error =>
      rw [hholds.sync.storedHead] at hsafe
      have hfailed := hsecure.throws_of_throw
      refine ⟨?_, (Except.error.injEq error _).to_iff.trans hfailed.refused⟩
      rcases hfailed.failed trivial hsafe with ⟨rfl | rfl, hcurrent⟩ | ⟨⟨e, rfl⟩, hstale⟩
      · exact iff_of_true (.inr (.inr rfl)) hcurrent
      · exact iff_of_true (.inr (.inl rfl)) hcurrent
      · exact iff_of_false (by simp) (not_not.mpr hstale)

end Runs

end D1Projection

/-! ### An application with one row -/

def switchProjection : D1Projection SwitchIntent Unit Empty where
  names := {
    streams := "sync_engine_v2_streams"
    logEntries := "sync_engine_v2_log_entries"
    decisions := "sync_engine_v2_decisions" }
  projectAcceptedOperation
    | .enable => .ok [()]
    | .write => .ok []

example : (d1SyncTableNames "sync_engine_v2" : Except (D1SyncError Empty) D1SyncTableNames) =
    .ok switchProjection.names := by rfl

def switchDatabase : ApplicationDatabase Unit Bool where
  execute inserted _ := if inserted then .error "UNIQUE constraint failed: switches.name" else .ok (1, true)
  constraintMessage statement constraint := constraint.message ++ ": " ++ statement.table switchProjection.names

def projectedPool (first second : D1Delivery SwitchIntent) (schedule : List Nat) :
    D1Projection.Deliveries SwitchIntent SwitchIntent Unit Empty Unit Bool :=
  let handler := ProjectedTables.answer switchDatabase
  let body := switchProjection.deliver switchStream
  let initial : D1Projection.Deliveries SwitchIntent SwitchIntent Unit Empty Unit Bool :=
    { store := ⟨⟨[], [], []⟩, false⟩, threads := [] }
  ((initial.next handler body (.start first)).next handler body (.start second)).run handler body
    (schedule.map .step)

theorem projectedPool_reachable {admits : D1Tables → D1Delivery SwitchIntent → Prop}
    {first second : D1Delivery SwitchIntent} (hfirst : admits ⟨[], [], []⟩ first)
    (hsecond : admits ⟨[], [], []⟩ second) (schedule : List Nat) :
    (switchProjection.system switchStream switchDatabase false admits).Reachable
      (projectedPool first second schedule) := by
  have hstart := TransitionSystem.Reachable.of_start
    (S := switchProjection.system switchStream switchDatabase false admits)
    (s := { store := ⟨⟨[], [], []⟩, false⟩, threads := [] }) ⟨⟨switchStream_unopened, rfl⟩, rfl⟩
  apply Pool.reachable_run
  exact (Pool.reachable_start hstart hfirst).step ⟨fun other hother => PoolAction.start.inj hother ▸ hsecond, rfl⟩

/-- The second delivery has drafted its decision when the first one commits. Its own commit is rolled back for the
head, and once it has tried again for the row of the application. -/
def refusedPool : D1Projection.Deliveries SwitchIntent SwitchIntent Unit Empty Unit Bool :=
  projectedPool (switchDelivery "enable" "winner" .enable) (switchDelivery "again" "loser" .enable)
    [1, 1, 1, 1, 0, 0, 0, 0, 0, 0, 1, 1, 1, 1, 1, 1]

example : refusedPool.threads.map (fun thread => match thread.program with
    | .throw error => some error
    | _ => none) = [none, some .d1ApplicationProjectionError] := by
  rfl

theorem projected_deliveries_safe_switch :
    (∃ operations state, StreamInvariant switchStream refusedPool.Submitted refusedPool.store.sync operations state ∧
      switchProjection.Mirrors switchDatabase false operations refusedPool.store.application) ∧
    ∀ thread ∈ refusedPool.threads, ∀ response, thread.program = .pure response →
      HonestAnswer switchStream refusedPool.store.sync thread.input.request response :=
  D1Projection.projected_deliveries_safe switchStream_codecs
    (projectedPool_reachable defaultProtocolLimits_resolved defaultProtocolLimits_resolved _)

theorem switchDelivery_admitted (operationId : String) (intent : SwitchIntent) (clientId : String)
    (hvalid : (assertSyncRequest (switchDelivery operationId clientId intent).request
      (some defaultProtocolLimits) : Result Empty Unit) = .ok ()) :
    switchStream.Admits ⟨[], [], []⟩ (switchDelivery operationId clientId intent) where
  limits := defaultProtocolLimits_resolved
  valid := (assertSyncRequest_eq_ok _ _ ()).mp hvalid
  base := le_refl 0

theorem refusedPool_reachable :
    (switchProjection.system switchStream switchDatabase false switchStream.Admits).Reachable refusedPool :=
  projectedPool_reachable (switchDelivery_admitted _ _ _ rfl) (switchDelivery_admitted _ _ _ rfl) _

theorem refusedPool_submitted {proposal : ProposedOperation SwitchIntent} (h : refusedPool.Submitted proposal) :
    proposal ∈ (switchDelivery "enable" "winner" .enable).request.proposals ++
      (switchDelivery "again" "loser" .enable).request.proposals := by
  obtain ⟨thread, hthread, hproposal⟩ := h
  have hinputs : refusedPool.threads.map Thread.input =
      [switchDelivery "enable" "winner" .enable, switchDelivery "again" "loser" .enable] := rfl
  have hinput : thread.input ∈ refusedPool.threads.map Thread.input := List.mem_map_of_mem hthread
  rw [hinputs] at hinput
  rcases List.mem_cons.mp hinput with hfirst | hsecond
  · exact List.mem_append_left _ (hfirst ▸ hproposal)
  · exact List.mem_append_right _ (List.mem_singleton.mp hsecond ▸ hproposal)

theorem refusedPool_benign : Benign switchStream refusedPool.Submitted where
  schemaHash := by decide
  decides state proposal := by
    obtain ⟨identity, intent⟩ := proposal
    cases intent <;> cases state <;> exact ⟨_, rfl⟩
  applies state proposal operation _ := by cases operation <;> exact ⟨_, rfl⟩
  operations left right hleft hright hsame := by
    have hleft := refusedPool_submitted hleft
    have hright := refusedPool_submitted hright
    simp only [switchDelivery, List.cons_append, List.nil_append, List.mem_cons, List.not_mem_nil, or_false]
      at hleft hright
    rcases hleft with rfl | rfl <;> rcases hright with rfl | rfl <;> simp_all
  positions left right hleft hright hsame := by
    have hleft := refusedPool_submitted hleft
    have hright := refusedPool_submitted hright
    simp only [switchDelivery, List.cons_append, List.nil_append, List.mem_cons, List.not_mem_nil, or_false]
      at hleft hright
    rcases hleft with rfl | rfl <;> rcases hright with rfl | rfl <;> simp_all [OperationIdentity.position]

theorem switchProjection_benign : switchProjection.Benign switchDatabase switchStream where
  projects _ _ operation _ := by cases operation <;> exact ⟨_, rfl⟩
  sync statement constraint _ := by
    have hmessages : ∀ constraint ∈ [SqliteConstraint.unique, .check, .notNull],
        ∀ table ∈ switchProjection.names.values,
        includes (constraint.message ++ ": " ++ table) table = true ∧
          isUniqueConstraintError (constraint.message ++ ": " ++ table) = true := by decide
    exact hmessages constraint (by cases constraint <;> simp) _ (D1Projection.table_mem_values _ statement)
  application inserted _ message hexecute := by
    cases inserted with
    | false => simp [switchDatabase] at hexecute
    | true =>
        obtain rfl := Except.error.inj hexecute
        decide

/-- The delivery that the application refuses. -/
theorem projected_finished_iff_switch :
    ∃ thread ∈ refusedPool.threads, ∃ outcome, thread.program = Program.lift outcome ∧
      ((∃ response, outcome = .ok response) ∨ outcome = .error (.d1SyncError .d1SyncConflictError) ∨
          outcome = .error .d1ApplicationProjectionError ↔ ¬Stale (D1Projection.syncEvents thread.trace)) ∧
        (outcome = .error .d1ApplicationProjectionError ↔
          D1Projection.Refused switchProjection.names thread.trace) := by
  refine ⟨_, List.mem_cons_of_mem _ List.mem_cons_self, .error .d1ApplicationProjectionError, rfl, ?_⟩
  exact D1Projection.projected_finished_iff switchStream_codecs refusedPool_reachable refusedPool_benign
    switchProjection_benign (by decide) (List.mem_cons_of_mem _ List.mem_cons_self) rfl

end SyncEngine
