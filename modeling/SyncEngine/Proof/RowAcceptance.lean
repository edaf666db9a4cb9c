import SyncEngine.Proof.Projection
import SyncEngine.Proof.RowNormalization

/-!
# What is accepted and what can be applied

Normalization checks a row against its columns, and a key against the primary key; the application of a row
checks the key that the row has. The two agree on the operations whose table is keyed by distinct columns of
its own and that have a value other than `null` for each of them. A primary key that may be `null` passes
every check of the schema, so that a row is accepted which no state of the schema can take.
-/

namespace SyncEngine

open JavaScript Throwing

variable {ν : Type} {runtime : RowRuntime ν} {schema : ReplicaSchemaContract} {table : ReplicaTableContract}
  {tableName : Text}

/-! ### Keyed operations -/

/-- The values have one other than `null` for each of the columns of the primary key, which are distinct. -/
structure ReplicaTableContract.Keys (table : ReplicaTableContract) (values : List (Text × JsonValue ν)) : Prop where
  distinct : table.primaryKey.Nodup
  own : ∀ name ∈ table.primaryKey, table.columns.get? name ≠ none
  values : ∀ name ∈ table.primaryKey, ∃ value, ownField values name = some value ∧ value ≠ .null

def RowOperation.Keyed (schema : ReplicaSchemaContract) (operation : RowOperation ν) : Prop :=
  ∃ table, schema.tables.get? operation.tableName = some table ∧ table.Keys operation.values.entries

/-- Normalization returns, so that a client enqueues the operation and the authority decides to accept it. -/
def RowOperation.Normalizes (runtime : RowRuntime ν) (schema : ReplicaSchemaContract) (operation : RowOperation ν) :
    Prop := ∃ normalized, normalizeRowOperation runtime schema operation.toJson = .ok normalized

/-! ### Rows -/

section Rows

variable {row : List (Text × JsonValue ν)} {record : RowRecord ν}
  (h : normalizeFullRow runtime tableName (some table) (some (.object row)) = .ok record)

include h

theorem get?_of_normalizeFullRow {name : Text} {column : ReplicaColumnContract}
    (hcolumn : table.columns.get? name = some column) :
    record.get? name = some ((ownField row name).getD .null) ∧
      column.Accepts runtime ((ownField row name).getD .null) := by
  obtain ⟨-, hfits, -, hentries⟩ := normalizeFullRow_eq_ok.mp h
  have hmem := table.columns.mem_of_get?_eq_some hcolumn
  have hentry : (name, (ownField row name).getD .null) ∈ record.entries := hentries ▸ List.mem_map_of_mem hmem
  exact ⟨record.get?_eq_some_iff.mpr hentry, hfits _ hmem⟩

theorem column_of_normalizeFullRow {name : Text} {value : JsonValue ν} (hvalue : record.get? name = some value) :
    table.columns.get? name ≠ none := by
  obtain ⟨-, -, -, hentries⟩ := normalizeFullRow_eq_ok.mp h
  have hmem := record.mem_of_get?_eq_some hvalue
  rw [hentries] at hmem
  obtain ⟨column, hcolumn, hsame⟩ := List.mem_map.mp hmem
  obtain rfl := (Prod.mk.inj hsame).1
  rw [table.columns.get?_eq_some_iff.mpr hcolumn]
  simp

theorem keys_normalizeFullRow_iff : table.Keys record.entries ↔ table.Keys row := by
  have hsame : ∀ name, table.columns.get? name ≠ none →
      ((∃ value, ownField record.entries name = some value ∧ value ≠ .null) ↔
        ∃ value, ownField row name = some value ∧ value ≠ .null) := by
    intro name hown
    obtain ⟨column, hcolumn⟩ := Option.ne_none_iff_exists'.mp hown
    have hread : ownField record.entries name = _ := (get?_of_normalizeFullRow h hcolumn).1
    rw [hread]
    cases ownField row name <;> simp
  constructor
  · intro hkeys
    exact ⟨hkeys.distinct, hkeys.own,
      fun name hname => (hsame name (hkeys.own name hname)).mp (hkeys.values name hname)⟩
  · intro hkeys
    exact ⟨hkeys.distinct, hkeys.own,
      fun name hname => (hsame name (hkeys.own name hname)).mpr (hkeys.values name hname)⟩

theorem hasKey_of_normalizeFullRow (hkeys : table.Keys record.entries) : HasKey runtime table record := by
  intro name hname
  obtain ⟨column, hcolumn⟩ := Option.ne_none_iff_exists'.mp (hkeys.own name hname)
  obtain ⟨value, hvalue, hne⟩ := hkeys.values name hname
  obtain ⟨hread, haccepts⟩ := get?_of_normalizeFullRow h hcolumn
  obtain rfl := Option.some.inj (hread.symm.trans hvalue)
  exact ⟨_, column, hvalue, hcolumn, hne, haccepts⟩

end Rows

/-! ### Keys -/

theorem value_of_normalizeKey {received : List Text} {entry : Text → Option (KeyEntry ν)} {record : PrimaryKeyRecord ν}
    (h : normalizeKey runtime tableName (some table) received entry = .ok record) {name : Text} {value : JsonValue ν}
    (hvalue : record.get? name = some value) :
    entry name = some (some value) ∧ ∃ column, table.columns.get? name = some column ∧
      value ≠ .null ∧ column.Accepts runtime value := by
  rw [normalizeKey, readContract, ok_bind, bind_unit_eq_ok] at h
  exact normalizeKeyColumn_eq_some.mp (value_of_mem_buildKey h.2 _ (record.mem_of_get?_eq_some hvalue))

/-- A key that is encoded has the names of the primary key and `null` under none of them. It has a function
under none but `__proto__`, where what is read of the normalized key is an object again. -/
theorem entry_of_encodeKey (htable : schema.tables.get? tableName = some table) {received : List Text}
    {entry : Text → Option (KeyEntry ν)} {text : Text}
    (h : encodeKey runtime schema tableName received entry = .ok text) :
    received.Perm table.primaryKey ∧ ∀ name ∈ table.primaryKey, ∃ found, entry name = some found ∧
      found ≠ some .null ∧ (name ≠ prototypeKey → found ≠ none) := by
  rw [encodeKey, requireTable_of_get? htable, ok_bind, bind_eq_ok] at h
  obtain ⟨normalized, hnormalized, h⟩ := h
  rw [readContract, ok_bind, mapError_eq_ok, bind_eq_ok] at h
  obtain ⟨items, hitems, -⟩ := h
  obtain ⟨hnames, hvalues⟩ := normalizeKey_returns_iff.mp ⟨normalized, hnormalized⟩
  refine ⟨hnames, fun name hname => ?_⟩
  obtain ⟨value, hvalue⟩ := hvalues name hname
  cases value with
  | some value =>
      obtain ⟨hentry, -, -, hne, -⟩ := normalizeKeyColumn_eq_some.mp hvalue
      exact ⟨some value, hentry, fun hnull => hne (Option.some.inj hnull), fun _ => by simp⟩
  | none =>
      obtain ⟨hcolumn, -, found, hentry, hne⟩ := normalizeKeyColumn_eq_none.mp hvalue
      refine ⟨found, hentry, hne, fun hprototype => ?_⟩
      -- the column is only inherited, so that the normalized key has nothing under its name
      have habsent : normalized.get? name = none := by
        by_contra hpresent
        obtain ⟨value, hread⟩ := Option.ne_none_iff_exists'.mp hpresent
        obtain ⟨-, column, hown, -⟩ := value_of_normalizeKey hnormalized hread
        simp [hcolumn] at hown
      obtain ⟨index, hindex, hget⟩ := List.getElem_of_mem hname
      have hmem : (name, index) ∈ table.primaryKey.zipIdx := by
        rw [List.mk_mem_zipIdx_iff_getElem?, List.getElem?_eq_getElem hindex, hget]
      obtain ⟨item, hitem⟩ := returns_of_mapM_eq_ok hitems _ hmem
      simp [keyItem, habsent, hprototype] at hitem

/-- A key that is read from a row has what the row has under each of its names. -/
theorem entry_of_keyFromRow (htable : schema.tables.get? tableName = some table) {row : RowRecord ν}
    {key : JsRecord (KeyEntry ν)} (h : keyFromRow schema tableName row = .ok key) {name : Text} {found : KeyEntry ν}
    (hfound : key.get? name = some found) : name ≠ prototypeKey ∧ found = row.get? name := by
  rw [keyFromRow, requireTable_of_get? htable, ok_bind, readContract, ok_bind] at h
  have hentry := value_of_mem_buildKey h _ (key.mem_of_get?_eq_some hfound)
  dsimp only at hentry
  split at hentry
  · simp at hentry
  · rename_i hprototype
    refine ⟨hprototype, ?_⟩
    cases hvalue : row.get? name with
    | some value =>
        rw [hvalue] at hentry
        exact (Option.some.inj (Except.ok.inj hentry)).symm
    | none =>
        rw [hvalue] at hentry
        dsimp only at hentry
        split at hentry
        · exact (Option.some.inj (Except.ok.inj hentry)).symm
        · simp at hentry

section Keys

variable {fields : List (Text × JsonValue ν)} {record : PrimaryKeyRecord ν}
  (h : normalizePrimaryKey runtime tableName (some table) (some (.object fields)) = .ok record)

include h

theorem column_of_normalizePrimaryKey {name : Text} {value : JsonValue ν} (hvalue : record.get? name = some value) :
    ownField fields name = some value ∧ ∃ column, table.columns.get? name = some column ∧
      value ≠ .null ∧ column.Accepts runtime value := by
  rw [normalizePrimaryKey, plainRecord, ok_bind] at h
  obtain ⟨hentry, hcolumn⟩ := value_of_normalizeKey h hvalue
  exact ⟨ownEntry_eq_some.mp hentry, hcolumn⟩

theorem keys_normalizePrimaryKey_iff (hnodup : (fields.map Prod.fst).Nodup) :
    table.Keys record.entries ↔ table.Keys fields := by
  constructor
  · intro hkeys
    refine ⟨hkeys.distinct, hkeys.own, fun name hname => ?_⟩
    obtain ⟨value, hvalue, hne⟩ := hkeys.values name hname
    exact ⟨value, (column_of_normalizePrimaryKey h hvalue).1, hne⟩
  · intro hkeys
    obtain ⟨-, hentries⟩ := (normalizePrimaryKey_eq_ok hnodup hkeys.distinct hkeys.own).mp h
    refine ⟨hkeys.distinct, hkeys.own, fun name hname => ?_⟩
    obtain ⟨value, hvalue, hne⟩ := hkeys.values name hname
    have hentry : (name, value) ∈ record.entries := by
      rw [hentries]
      exact List.mem_map.mpr ⟨name, hname, by rw [hvalue]; rfl⟩
    exact ⟨value, record.get?_eq_some_iff.mpr hentry, hne⟩

end Keys

/-! ### Operations -/

section Operations

variable {operation normalized : RowOperation ν}

theorem Requests.table_get? {type field : String} {v : JsonValue ν} {values : List (Text × JsonValue ν)}
    (h : Requests schema type field v tableName table values) : schema.tables.get? tableName = some table := by
  obtain ⟨-, -, -, -, htable, -⟩ := h
  exact htable

theorem Requests.not_blank {type field : String} {v : JsonValue ν} {values : List (Text × JsonValue ν)}
    (h : Requests schema type field v tableName table values) : ¬tableName.all isTrimmed := by
  obtain ⟨-, -, -, hblank, -⟩ := h
  exact hblank

theorem Requests.eq_putRow {row : List (Text × JsonValue ν)}
    (h : Requests schema "putRow" "row" operation.toJson tableName table row) :
    ∃ record : RowRecord ν, operation = .putRow tableName record ∧ record.entries = row := by
  obtain ⟨fields, hfields, hname, -, -, htype, hrow⟩ := h
  cases operation with
  | putRow name record =>
      obtain rfl := JsonValue.object.inj hfields
      obtain rfl : name = tableName := JsonValue.string.inj (Option.some.inj hname)
      exact ⟨record, rfl, JsonValue.object.inj (Option.some.inj hrow)⟩
  | deleteRow name key =>
      obtain rfl := JsonValue.object.inj hfields
      exact absurd (JsonValue.string.inj (Option.some.inj htype)) (by decide)

theorem Requests.eq_deleteRow {key : List (Text × JsonValue ν)}
    (h : Requests schema "deleteRow" "key" operation.toJson tableName table key) :
    ∃ record : PrimaryKeyRecord ν, operation = .deleteRow tableName record ∧ record.entries = key := by
  obtain ⟨fields, hfields, hname, -, -, htype, hkey⟩ := h
  cases operation with
  | putRow name row =>
      obtain rfl := JsonValue.object.inj hfields
      exact absurd (JsonValue.string.inj (Option.some.inj htype)) (by decide)
  | deleteRow name record =>
      obtain rfl := JsonValue.object.inj hfields
      obtain rfl : name = tableName := JsonValue.string.inj (Option.some.inj hname)
      exact ⟨record, rfl, JsonValue.object.inj (Option.some.inj hkey)⟩

theorem RowOperation.keyed_iff (htable : schema.tables.get? operation.tableName = some table) :
    operation.Keyed schema ↔ table.Keys operation.values.entries := by
  constructor
  · intro hkeyed
    obtain ⟨found, hfound, hkeys⟩ := hkeyed
    obtain rfl := Option.some.inj (htable.symm.trans hfound)
    exact hkeys
  · intro hkeys
    exact ⟨table, htable, hkeys⟩

theorem keyed_normalized_iff (h : normalizeRowOperation runtime schema operation.toJson = .ok normalized) :
    normalized.Keyed schema ↔ operation.Keyed schema := by
  cases normalized with
  | putRow tableName record =>
      obtain ⟨table, row, hrequests, hrecord⟩ := normalizeRowOperation_eq_putRow.mp h
      obtain ⟨received, rfl, rfl⟩ := hrequests.eq_putRow
      have hafter : (RowOperation.putRow tableName record).Keyed schema ↔ table.Keys record.entries :=
        RowOperation.keyed_iff hrequests.table_get?
      have hbefore : (RowOperation.putRow tableName received).Keyed schema ↔ table.Keys received.entries :=
        RowOperation.keyed_iff hrequests.table_get?
      rw [hafter, hbefore, keys_normalizeFullRow_iff hrecord]
  | deleteRow tableName record =>
      obtain ⟨table, key, hrequests, hrecord⟩ := normalizeRowOperation_eq_deleteRow.mp h
      obtain ⟨received, rfl, rfl⟩ := hrequests.eq_deleteRow
      have hafter : (RowOperation.deleteRow tableName record).Keyed schema ↔ table.Keys record.entries :=
        RowOperation.keyed_iff hrequests.table_get?
      have hbefore : (RowOperation.deleteRow tableName received).Keyed schema ↔ table.Keys received.entries :=
        RowOperation.keyed_iff hrequests.table_get?
      rw [hafter, hbefore, keys_normalizePrimaryKey_iff hrecord received.nodupKeys]

theorem normal_of_keyed {v : JsonValue ν} (h : normalizeRowOperation runtime schema v = .ok normalized)
    (hkeyed : normalized.Keyed schema) : normalized.Normal runtime schema ∧
      ∃ text, normalized.encodedKey runtime schema = .ok text := by
  cases normalized with
  | putRow tableName record =>
      obtain ⟨table, row, hrequests, hrecord⟩ := normalizeRowOperation_eq_putRow.mp h
      have htable := hrequests.table_get?
      have hkeys := (RowOperation.keyed_iff htable).mp hkeyed
      obtain ⟨found, hfound, hall⟩ := normalizeFullRow_normal (requireTable_of_get? htable) hrecord
      refine ⟨⟨found, hfound, hrequests.not_blank, hall⟩, _, encodeRowPrimaryKey_of_hasKey htable
        hrequests.not_blank hkeys.distinct (hasKey_of_normalizeFullRow hrecord hkeys)⟩
  | deleteRow tableName record =>
      obtain ⟨table, key, hrequests, hrecord⟩ := normalizeRowOperation_eq_deleteRow.mp h
      have htable := hrequests.table_get?
      have hkeys := (RowOperation.keyed_iff htable).mp hkeyed
      have hsame : ∀ found, schema.tables.get? tableName = some found → found = table :=
        fun found hfound => Option.some.inj (hfound.symm.trans htable)
      obtain ⟨found, hfound, hall⟩ := normalizePrimaryKey_normal (requireTable_of_get? htable)
        (fun found _ hfound _ _ => hsame found hfound ▸ hkeys.distinct)
        (fun found hfound name hname _ => by
          obtain rfl := hsame found hfound
          exact hkeys.own name hname) hrecord
      have hnormal : (RowOperation.deleteRow tableName record).Normal runtime schema :=
        ⟨found, hfound, hrequests.not_blank, hall⟩
      exact ⟨hnormal, _, encodePrimaryKey_of_normal hnormal htable⟩

theorem keyed_of_encodedKey {v : JsonValue ν} (h : normalizeRowOperation runtime schema v = .ok normalized)
    {text : Text} (htext : normalized.encodedKey runtime schema = .ok text) : normalized.Keyed schema := by
  cases normalized with
  | putRow tableName record =>
      obtain ⟨table, row, hrequests, hrecord⟩ := normalizeRowOperation_eq_putRow.mp h
      have htable := hrequests.table_get?
      obtain ⟨key, hkey, htext⟩ := bind_eq_ok.mp htext
      obtain ⟨hnames, hfound⟩ := entry_of_encodeKey htable htext
      have hvalues : ∀ name ∈ table.primaryKey, ∃ value, record.get? name = some value ∧ value ≠ .null := by
        intro name hname
        obtain ⟨found, hget, hne, hfunction⟩ := hfound name hname
        obtain ⟨hprototype, rfl⟩ := entry_of_keyFromRow htable hkey hget
        obtain ⟨value, hvalue⟩ := Option.ne_none_iff_exists'.mp (hfunction hprototype)
        exact ⟨value, hvalue, fun hnull => hne (hvalue.trans (congrArg some hnull))⟩
      refine (RowOperation.keyed_iff htable).mpr ⟨hnames.nodup_iff.mp key.nodupKeys, fun name hname => ?_, hvalues⟩
      obtain ⟨value, hvalue, -⟩ := hvalues name hname
      exact column_of_normalizeFullRow hrecord hvalue
  | deleteRow tableName record =>
      obtain ⟨table, key, hrequests, hrecord⟩ := normalizeRowOperation_eq_deleteRow.mp h
      have htable := hrequests.table_get?
      obtain ⟨hnames, hfound⟩ := entry_of_encodeKey htable htext
      have hvalues : ∀ name ∈ table.primaryKey, ∃ value, record.get? name = some value ∧ value ≠ .null := by
        intro name hname
        obtain ⟨found, hget, hne, -⟩ := hfound name hname
        obtain ⟨value, hvalue, rfl⟩ := Option.map_eq_some_iff.mp hget
        exact ⟨value, hvalue, fun hnull => hne (congrArg some hnull)⟩
      refine (RowOperation.keyed_iff htable).mpr ⟨hnames.nodup_iff.mp record.nodupKeys, fun name hname => ?_, hvalues⟩
      obtain ⟨value, hvalue, -⟩ := hvalues name hname
      obtain ⟨-, column, hcolumn, -⟩ := column_of_normalizePrimaryKey hrecord hvalue
      simp [hcolumn]

theorem applyRowOperation_returns_of_normalized {state : ReplicaDatabaseState (RowRecord ν)}
    (hstate : state.schemaHash = schema.schemaHash)
    (h : normalizeRowOperation runtime schema operation.toJson = .ok normalized) :
    (∃ next, applyRowOperation runtime schema state operation = .ok next) ↔
      ∃ text, normalized.encodedKey runtime schema = .ok text := by
  have hschema : (assertDatabaseStateSchema schema state).mapError RowError.schemaMismatchError = .ok () := by
    rw [assertDatabaseStateSchema, throwIf_neg (not_not.mpr hstate)]
    rfl
  rw [applyRowOperation, hschema, ok_bind, h, ok_bind]
  cases normalized with
  | putRow tableName record =>
      simp only [RowOperation.encodedKey]
      cases encodeRowPrimaryKey runtime schema tableName record <;> simp
  | deleteRow tableName record =>
      simp only [RowOperation.encodedKey]
      cases encodePrimaryKey runtime schema tableName record <;> simp

/-- A normalizing operation can be applied exactly when it is keyed. -/
theorem applyRowOperation_returns_iff_keyed {state : ReplicaDatabaseState (RowRecord ν)}
    (hstate : state.schemaHash = schema.schemaHash) (h : operation.Normalizes runtime schema) :
    (∃ next, applyRowOperation runtime schema state operation = .ok next) ↔ operation.Keyed schema := by
  obtain ⟨normalized, hnormalized⟩ := h
  rw [applyRowOperation_returns_of_normalized hstate hnormalized, ← keyed_normalized_iff hnormalized]
  constructor
  · intro hencoded
    obtain ⟨text, htext⟩ := hencoded
    exact keyed_of_encodedKey hnormalized htext
  · intro hkeyed
    exact (normal_of_keyed hnormalized hkeyed).2

theorem applyRowOperation_normalized_returns_iff {state : ReplicaDatabaseState (RowRecord ν)}
    (hstate : state.schemaHash = schema.schemaHash)
    (h : normalizeRowOperation runtime schema operation.toJson = .ok normalized) :
    (∃ next, applyRowOperation runtime schema state normalized = .ok next) ↔ operation.Keyed schema := by
  rw [← keyed_normalized_iff h]
  constructor
  · intro hreturns
    obtain ⟨next, hnext⟩ := hreturns
    obtain ⟨-, hrest⟩ := bind_unit_eq_ok.mp hnext
    obtain ⟨again, hagain, -⟩ := bind_eq_ok.mp hrest
    exact (applyRowOperation_returns_iff_keyed hstate ⟨again, hagain⟩).mp ⟨next, hnext⟩
  · intro hkeyed
    obtain ⟨hnormal, -⟩ := normal_of_keyed h hkeyed
    exact (applyRowOperation_returns_iff_keyed hstate ⟨normalized, normalizeRowOperation_toJson hnormal⟩).mpr hkeyed

theorem applyRowOperation_schemaHash {state next : ReplicaDatabaseState (RowRecord ν)}
    (h : applyRowOperation runtime schema state operation = .ok next) : next.schemaHash = schema.schemaHash := by
  obtain ⟨hschema, h⟩ := bind_unit_eq_ok.mp h
  rw [mapError_eq_ok, assertDatabaseStateSchema, throwIf_eq_ok, not_not] at hschema
  obtain ⟨normalized, -, h⟩ := bind_eq_ok.mp h
  rw [← hschema]
  cases normalized with
  | putRow | deleteRow =>
      obtain ⟨text, -, h⟩ := bind_eq_ok.mp h
      rw [← Except.ok.inj h]

end Operations

/-! ### The optimistic state -/

def OutboxEntry.shown : OutboxEntry (RowOperation ν) (RowOperation ν) → RowOperation ν
  | .pending proposal => proposal.intent
  | .accepted _ _ operation => operation

/-- The optimistic state of a replica whose outbox normalizes exists exactly when its outbox is keyed. -/
theorem materialize_returns_iff_keyed
    {interpreter : ReplicaInterpreter (ReplicaDatabaseState (RowRecord ν)) (RowOperation ν) (RowOperation ν) RowError}
    (hreplica : createRowReplicaInterpreter runtime schema = .ok interpreter)
    {replica : ReplicaState (ReplicaDatabaseState (RowRecord ν)) (RowOperation ν) (RowOperation ν)}
    (hconfirmed : replica.confirmedState.schemaHash = schema.schemaHash)
    (hnormalizes : ∀ entry ∈ replica.outbox, entry.shown.Normalizes runtime schema) :
    (∃ state, materializeOptimisticState interpreter replica = .ok state) ↔
      ∀ entry ∈ replica.outbox, entry.shown.Keyed schema := by
  obtain ⟨-, hreplica⟩ := bind_unit_eq_ok.mp hreplica
  have hoverlay : ∀ (entry : OutboxEntry (RowOperation ν) (RowOperation ν)) state,
      overlayEntry interpreter state entry = applyRowOperation runtime schema state entry.shown := by
    intro entry state
    rw [← Except.ok.inj hreplica]
    cases entry <;> rfl
  apply foldlM_returns_iff (I := fun state => state.schemaHash = schema.schemaHash) _ _ hconfirmed
  · intro entry hentry state hstate
    rw [hoverlay]
    exact applyRowOperation_returns_iff_keyed hstate (hnormalizes entry hentry)
  · intro entry _ state next hnext
    rw [hoverlay] at hnext
    exact applyRowOperation_schemaHash hnext

/-! ### The authority -/

section Authority

variable {Rejection : Type} {options : CreateRowLogInterpreterOptions ν Rejection}
  {settings :
    LogServerSettings (ReplicaDatabaseState (RowRecord ν)) (RowOperation ν) (RowOperation ν) Rejection RowError}
  {server next : InMemoryLogServer (ReplicaDatabaseState (RowRecord ν)) (RowOperation ν) Rejection}
  {staged staged' : StagedServerTransition (ReplicaDatabaseState (RowRecord ν)) (RowOperation ν) Rejection}
  {proposal : ProposedOperation (RowOperation ν)} {request : SyncRequest (RowOperation ν)}

/-- If the operation normalizes, then it is keyed. -/
def RowOperation.KeyedIfNormalizes (runtime : RowRuntime ν) (schema : ReplicaSchemaContract)
    (operation : RowOperation ν) : Prop := operation.Normalizes runtime schema → operation.Keyed schema

def SyncEngineError.IsApplication {ε : Type} : SyncEngineError ε → Prop
  | .applicationError _ => True
  | _ => False

abbrev ThrowsNoApplication {ε α : Type} (x : Result ε α) : Prop := Throws (fun e => ¬e.IsApplication) x

theorem SyncEngineError.IsInvalid.not_isApplication {ε : Type} {e : SyncEngineError ε} (h : e.IsInvalid) :
    ¬e.IsApplication := by
  cases e <;> simp_all [IsInvalid, IsApplication]

section Log

variable (hlog : createRowLogInterpreter runtime schema options = .ok settings.interpreter)

include hlog

theorem decideProposal_schemaHash (hstate : staged.state.schemaHash = schema.schemaHash)
    {decision : ProposalDecision (RowOperation ν) Rejection}
    (h : InMemoryLogServer.decideProposal settings server proposal staged = .ok (decision, staged')) :
    staged'.state.schemaHash = schema.schemaHash := by
  obtain ⟨-, hlog⟩ := bind_unit_eq_ok.mp hlog
  obtain ⟨draft, -, h⟩ := bind_eq_ok.mp h
  cases draft with
  | rejected reason =>
      obtain ⟨-, rfl⟩ := Prod.mk.inj (Except.ok.inj h)
      exact hstate
  | accepted operation =>
      obtain ⟨state, happly, h⟩ := bind_eq_ok.mp h
      obtain ⟨-, rfl⟩ := Prod.mk.inj (Except.ok.inj h)
      rw [application_eq_ok, ← Except.ok.inj hlog] at happly
      exact applyRowOperation_schemaHash happly

/-- A proposal is decided exactly when its operation, if it normalizes, is keyed. -/
theorem decideProposal_returns_iff (hstate : staged.state.schemaHash = schema.schemaHash) :
    (∃ result, InMemoryLogServer.decideProposal settings server proposal staged = .ok result) ↔
      proposal.intent.KeyedIfNormalizes runtime schema := by
  obtain ⟨-, hlog⟩ := bind_unit_eq_ok.mp hlog
  rw [InMemoryLogServer.decideProposal, ← Except.ok.inj hlog]
  dsimp only
  cases hnormalized : normalizeRowOperation runtime schema proposal.intent.toJson with
  | error e =>
      have hnone : ¬proposal.intent.Normalizes runtime schema := by
        intro hnormalizes
        obtain ⟨normalized, hok⟩ := hnormalizes
        simp [hnormalized] at hok
      cases options.rejectInvalidOperation <;> simp [RowOperation.KeyedIfNormalizes, hnone]
  | ok normalized =>
      have happly := applyRowOperation_normalized_returns_iff hstate hnormalized
      have hkeyed : proposal.intent.KeyedIfNormalizes runtime schema ↔ proposal.intent.Keyed schema :=
        ⟨fun h => h ⟨normalized, hnormalized⟩, fun h _ => h⟩
      rw [hkeyed, ← happly]
      cases hnext : applyRowOperation runtime schema staged.state normalized <;> simp [hnext]

theorem processProposal_throwsNoApplication (hstate : staged.state.schemaHash = schema.schemaHash)
    (hkeyed : proposal.intent.KeyedIfNormalizes runtime schema) :
    ThrowsNoApplication (InMemoryLogServer.processProposal settings server proposal staged) := by
  rw [InMemoryLogServer.processProposal]
  split
  · exact ((Throws.throwIf id).seq fun _ => (Throws.throwIf id).seq fun _ => .ok _).seq fun _ => .ok _
  · have hposition : ∀ occupant, ThrowsNoApplication
        (InMemoryLogServer.assertClientPositionFree occupant proposal : Result RowError Unit) := by
      intro occupant
      cases occupant with
      | none => exact .ok ()
      | some occupant => exact .throwIf id
    refine (hposition _).seq fun _ => ?_
    obtain ⟨result, hresult⟩ := (decideProposal_returns_iff hlog hstate).mpr hkeyed
    rw [hresult]
    exact .ok _

theorem processProposal_schemaHash (hstate : staged.state.schemaHash = schema.schemaHash)
    {decision : ProposalDecision (RowOperation ν) Rejection}
    (h : InMemoryLogServer.processProposal settings server proposal staged = .ok (decision, staged')) :
    staged'.state.schemaHash = schema.schemaHash := by
  rw [InMemoryLogServer.processProposal] at h
  split at h
  · obtain ⟨replayed, -, h⟩ := bind_eq_ok.mp h
    obtain ⟨-, rfl⟩ := Prod.mk.inj (Except.ok.inj h)
    exact hstate
  · obtain ⟨-, h⟩ := bind_unit_eq_ok.mp h
    exact decideProposal_schemaHash hlog hstate h

theorem processProposals_schemaHash {proposals : List (ProposedOperation (RowOperation ν))}
    (hstate : staged.state.schemaHash = schema.schemaHash)
    {decisions : List (ProposalDecision (RowOperation ν) Rejection)}
    (h : InMemoryLogServer.processProposals settings server proposals staged = .ok (decisions, staged')) :
    staged'.state.schemaHash = schema.schemaHash := by
  induction proposals generalizing staged decisions with
  | nil =>
      obtain ⟨-, rfl⟩ := Prod.mk.inj (Except.ok.inj h)
      exact hstate
  | cons proposal proposals ih =>
      obtain ⟨⟨decision, middle⟩, hfirst, h⟩ := bind_eq_ok.mp h
      obtain ⟨⟨rest, last⟩, hrest, h⟩ := bind_eq_ok.mp h
      obtain ⟨-, rfl⟩ := Prod.mk.inj (Except.ok.inj h)
      exact ih (processProposal_schemaHash hlog hstate hfirst) hrest

theorem processProposals_throwsNoApplication {proposals : List (ProposedOperation (RowOperation ν))}
    (hstate : staged.state.schemaHash = schema.schemaHash)
    (hkeyed : ∀ proposal ∈ proposals, proposal.intent.KeyedIfNormalizes runtime schema) :
    ThrowsNoApplication (InMemoryLogServer.processProposals settings server proposals staged) := by
  induction proposals generalizing staged with
  | nil => exact .ok _
  | cons proposal proposals ih =>
      rw [List.forall_mem_cons] at hkeyed
      refine (processProposal_throwsNoApplication hlog hstate hkeyed.1).bind fun result hfirst => ?_
      exact (ih (processProposal_schemaHash hlog hstate hfirst) hkeyed.2).seq fun _ => .ok _

theorem afterSynchronize_schemaHash (hstate : server.state.schemaHash = schema.schemaHash)
    (request : SyncRequest (RowOperation ν)) :
    (InMemoryLogServer.afterSynchronize settings server request).state.schemaHash = schema.schemaHash := by
  rw [InMemoryLogServer.afterSynchronize]
  split
  · rename_i response next hcall
    obtain ⟨-, h⟩ := bind_unit_eq_ok.mp hcall
    obtain ⟨-, h⟩ := bind_unit_eq_ok.mp h
    obtain ⟨⟨decisions, last⟩, hprocessed, h⟩ := bind_eq_ok.mp h
    obtain ⟨-, h⟩ := bind_unit_eq_ok.mp h
    obtain ⟨-, rfl⟩ := Prod.mk.inj (Except.ok.inj h)
    have hstage : server.stage.state.schemaHash = schema.schemaHash := hstate
    have hlast : last.state.schemaHash = schema.schemaHash := processProposals_schemaHash hlog hstage hprocessed
    exact hlast
  · exact hstate

theorem run_schemaHash (hstate : server.state.schemaHash = schema.schemaHash)
    (requests : List (SyncRequest (RowOperation ν))) :
    (InMemoryLogServer.run settings server requests).state.schemaHash = schema.schemaHash := by
  induction requests generalizing server with
  | nil => exact hstate
  | cons request requests ih => exact ih (afterSynchronize_schemaHash hlog hstate request)

theorem synchronize_throwsNoApplication (hstate : server.state.schemaHash = schema.schemaHash)
    (hkeyed : ∀ proposal ∈ request.proposals, proposal.intent.KeyedIfNormalizes runtime schema) :
    ThrowsNoApplication (InMemoryLogServer.synchronize settings server request) := by
  have hrequest : ThrowsNoApplication (assertSyncRequest request (some settings.limits) : Result RowError Unit) :=
    (assertSyncRequest_throwsInvalid request _).mono fun _ => SyncEngineError.IsInvalid.not_isApplication
  have hresponse : ∀ response : SyncResponse (RowOperation ν) Rejection, ThrowsNoApplication
      (assertSyncResponse response (some settings.limits) : Result RowError Unit) := fun response =>
    (assertSyncResponse_throwsInvalid response _).mono fun _ => SyncEngineError.IsInvalid.not_isApplication
  have hstage : server.stage.state.schemaHash = schema.schemaHash := hstate
  refine hrequest.seq fun _ => (Throws.throwIf id).seq fun _ => ?_
  refine (processProposals_throwsNoApplication hlog hstage hkeyed).seq fun _ => ?_
  exact (hresponse _).seq fun _ => .ok _

end Log

end Authority

/-! ### Runs of the row runtime -/

section Runs

variable {ι Rejection : Type} [DecidableEq ι]

/-- In a run whose enqueued operations are normalized and keyed, every replica has an optimistic state. -/
theorem Network.materialize_returns_of_keyed {options : CreateRowLogInterpreterOptions ν Rejection}
    {setup : NetworkSetup ι (ReplicaDatabaseState (RowRecord ν)) (RowOperation ν) (RowOperation ν) Rejection RowError}
    (hlog : createRowLogInterpreter runtime schema options = .ok setup.settings.interpreter)
    (hreplica : ∀ i, createRowReplicaInterpreter runtime schema = .ok (setup.replicaInterpreter i))
    (hinitial : setup.initialState.schemaHash = schema.schemaHash)
    {network : Network ι (ReplicaDatabaseState (RowRecord ν)) (RowOperation ν) (RowOperation ν) Rejection}
    (hreachable : setup.system.Reachable network)
    (hkeyed : ∀ entry ∈ network.enqueued, (∃ v, normalizeRowOperation runtime schema v = .ok entry.2.intent) ∧
      entry.2.intent.Keyed schema) (i : ι) :
    ∃ state, materializeOptimisticState (setup.replicaInterpreter i) (network.replicas i) = .ok state := by
  have hrows := rows_echo hlog hreplica
  have hechoes : setup.Echoes fun operation => operation.Normal runtime schema ∧ operation.Keyed schema :=
    ⟨hrows.lawful, hrows.applyOptimistic, fun state proposal h => hrows.decide state proposal h.1⟩
  have hnormal : ∀ entry ∈ network.enqueued,
      entry.2.intent.Normal runtime schema ∧ entry.2.intent.Keyed schema := by
    intro entry hentry
    obtain ⟨⟨v, hv⟩, hown⟩ := hkeyed entry hentry
    exact ⟨(normal_of_keyed hv hown).1, hown⟩
  obtain ⟨authority, knowledge, retained, h⟩ := Network.echoed_of_reachable hechoes hreachable hnormal
  obtain ⟨-, hinterpreter⟩ := bind_unit_eq_ok.mp hlog
  apply h.materialize_returns (fun state => state.schemaHash = schema.schemaHash) hinitial
  intro state operation hstate hoperation
  have hnormalizes : operation.Normalizes runtime schema := ⟨operation, normalizeRowOperation_toJson hoperation.1⟩
  obtain ⟨next, hnext⟩ := (applyRowOperation_returns_iff_keyed hstate hnormalizes).mpr hoperation.2
  rw [← Except.ok.inj hinterpreter]
  exact ⟨next, hnext, applyRowOperation_schemaHash hnext⟩

/-- What the row interpreter accepts it can apply exactly when it is keyed: to any state of the schema, in the
outbox of a replica, and in the authority. So no run in which everything that normalizes is keyed makes the
application throw, or leaves a replica without its optimistic state. -/
theorem rows_apply_iff_keyed (runtime : RowRuntime ν) (schema : ReplicaSchemaContract) :
    (∀ (operation : RowOperation ν) (state : ReplicaDatabaseState (RowRecord ν)),
      state.schemaHash = schema.schemaHash →
      ((operation.Normalizes runtime schema → ∃ next, applyRowOperation runtime schema state operation = .ok next) ↔
        operation.KeyedIfNormalizes runtime schema)) ∧
    (∀ (interpreter :
        ReplicaInterpreter (ReplicaDatabaseState (RowRecord ν)) (RowOperation ν) (RowOperation ν) RowError)
      (replica : ReplicaState (ReplicaDatabaseState (RowRecord ν)) (RowOperation ν) (RowOperation ν)),
      createRowReplicaInterpreter runtime schema = .ok interpreter →
      replica.confirmedState.schemaHash = schema.schemaHash →
      (∀ entry ∈ replica.outbox, entry.shown.Normalizes runtime schema) →
      ((∃ state, materializeOptimisticState interpreter replica = .ok state) ↔
        ∀ entry ∈ replica.outbox, entry.shown.Keyed schema)) ∧
    (∀ (options : CreateRowLogInterpreterOptions ν Rejection)
      (settings : LogServerSettings (ReplicaDatabaseState (RowRecord ν)) (RowOperation ν) (RowOperation ν) Rejection
        RowError),
      createRowLogInterpreter runtime schema options = .ok settings.interpreter →
      (∀ (server : InMemoryLogServer (ReplicaDatabaseState (RowRecord ν)) (RowOperation ν) Rejection)
        (staged : StagedServerTransition (ReplicaDatabaseState (RowRecord ν)) (RowOperation ν) Rejection)
        (proposal : ProposedOperation (RowOperation ν)), staged.state.schemaHash = schema.schemaHash →
        ((∃ result, InMemoryLogServer.decideProposal settings server proposal staged = .ok result) ↔
          proposal.intent.KeyedIfNormalizes runtime schema)) ∧
      ∀ (initialState : ReplicaDatabaseState (RowRecord ν)) (requests : List (SyncRequest (RowOperation ν)))
        (request : SyncRequest (RowOperation ν)), initialState.schemaHash = schema.schemaHash →
        (∀ proposal ∈ request.proposals, proposal.intent.KeyedIfNormalizes runtime schema) →
        ∀ exception, InMemoryLogServer.synchronize settings
          (InMemoryLogServer.run settings (.initial initialState) requests) request ≠
            .error (.applicationError exception)) ∧
    ∀ (options : CreateRowLogInterpreterOptions ν Rejection)
      (setup : NetworkSetup ι (ReplicaDatabaseState (RowRecord ν)) (RowOperation ν) (RowOperation ν) Rejection RowError)
      (network : Network ι (ReplicaDatabaseState (RowRecord ν)) (RowOperation ν) (RowOperation ν) Rejection),
      createRowLogInterpreter runtime schema options = .ok setup.settings.interpreter →
      (∀ i, createRowReplicaInterpreter runtime schema = .ok (setup.replicaInterpreter i)) →
      setup.initialState.schemaHash = schema.schemaHash → setup.system.Reachable network →
      (∀ entry ∈ network.enqueued, (∃ v, normalizeRowOperation runtime schema v = .ok entry.2.intent) ∧
        entry.2.intent.Keyed schema) →
      ∀ i, ∃ state, materializeOptimisticState (setup.replicaInterpreter i) (network.replicas i) = .ok state := by
  refine ⟨?apply, ?materialize, ?authority, ?network⟩
  case apply =>
    intro operation state hstate
    exact forall_congr' fun hnormalizes => applyRowOperation_returns_iff_keyed hstate hnormalizes
  case materialize =>
    intro interpreter replica hreplica hconfirmed hnormalizes
    exact materialize_returns_iff_keyed hreplica hconfirmed hnormalizes
  case authority =>
    intro options settings hlog
    refine ⟨fun server staged proposal hstate => decideProposal_returns_iff hlog hstate, ?_⟩
    intro initialState requests request hinitial hkeyed exception hthrows
    have hstate : (InMemoryLogServer.run settings (.initial initialState) requests).state.schemaHash =
        schema.schemaHash := run_schemaHash hlog hinitial requests
    exact synchronize_throwsNoApplication hlog hstate hkeyed _ hthrows trivial
  case network =>
    intro options setup network hlog hreplica hinitial hreachable hkeyed i
    exact Network.materialize_returns_of_keyed hlog hreplica hinitial hreachable hkeyed i

end Runs

def firstProposal (operation : RowOperation (Fin 10)) : ProposedOperation (RowOperation (Fin 10)) where
  operationId := "op-a1"
  clientId := "client-a"
  clientSequence := 1
  intentHash := "put:1"
  intent := operation

def firstRequest (operation : RowOperation (Fin 10)) : SyncRequest (RowOperation (Fin 10)) where
  baseSequence := 0
  maximumEntries := 10
  proposals := [firstProposal operation]

def firstReplica (operation : RowOperation (Fin 10)) :
    ReplicaState (ReplicaDatabaseState (RowRecord (Fin 10))) (RowOperation (Fin 10)) (RowOperation (Fin 10)) where
  clientId := "client-a"
  nextClientSequence := 2
  confirmedSequence := 0
  confirmedState := noteState
  confirmedLog := []
  outbox := [.pending (firstProposal operation)]

theorem putNote_keyed (id : Fin 10) : (putNote id).Keyed noteSchema := by
  refine ⟨_, rfl, by decide, by decide, fun name hname => ?_⟩
  obtain rfl := List.mem_singleton.mp hname
  exact ⟨.number id, rfl, by simp⟩

theorem rows_apply_iff_keyed_note :
    (∃ next, applyRowOperation noteRuntime noteSchema noteState (putNote 1) = .ok next) ∧
    (∃ state, materializeOptimisticState noteReplicaInterpreter (firstReplica (putNote 1)) = .ok state) ∧
    (∀ exception, InMemoryLogServer.synchronize noteSetup.settings (.initial noteState) (firstRequest (putNote 1)) ≠
      .error (.applicationError exception)) ∧
    ∃ state, materializeOptimisticState noteReplicaInterpreter (noteNetwork.replicas true) = .ok state := by
  obtain ⟨happly, hmaterialize, hauthority, hnetwork⟩ :=
    @rows_apply_iff_keyed (Fin 10) Bool RowRejection _ noteRuntime noteSchema
  have hkeyed : (putNote 1).KeyedIfNormalizes noteRuntime noteSchema := fun _ => putNote_keyed 1
  have hnormalizes : (putNote 1).Normalizes noteRuntime noteSchema := ⟨_, putNote_normalized 1⟩
  refine ⟨(happly _ _ rfl).mpr hkeyed hnormalizes, ?_, ?_, ?_⟩
  · apply (hmaterialize _ _ rfl rfl ?_).mpr
    · intro entry hentry
      obtain rfl := List.mem_singleton.mp hentry
      exact putNote_keyed 1
    · intro entry hentry
      obtain rfl := List.mem_singleton.mp hentry
      exact hnormalizes
  · apply (hauthority _ noteSetup.settings createRowLogInterpreter_note).2 noteState [] _ rfl
    intro proposal hproposal
    obtain rfl := List.mem_singleton.mp hproposal
    exact hkeyed
  · refine hnetwork _ noteSetup noteNetwork createRowLogInterpreter_note (fun _ => rfl) rfl noteNetwork_reachable
      ?_ true
    change ∀ entry ∈ [_, _], _
    simp only [List.forall_mem_cons]
    exact ⟨⟨⟨_, putNote_normalized 1⟩, putNote_keyed 1⟩, ⟨⟨_, putNote_normalized 2⟩, putNote_keyed 2⟩, by simp⟩

/-- Notes that may have no identifier, although it is their primary key. -/
def draftSchema : ReplicaSchemaContract where
  schemaHash := ascii "notes-v1"
  tables := InsertionMap.empty.set (ascii "notes") {
    primaryKey := [ascii "id"]
    columns := InsertionMap.empty.set (ascii "id") { affinity := .integer, nullable := true, generated := false } }

def putDraft : RowOperation (Fin 10) :=
  .putRow (ascii "notes") (InsertionMap.empty.set (ascii "id") .null)

def draftError : RowError := .rowOperationError (ascii "primary-key column " ++ quote (ascii "id") ++
  ascii " for table " ++ quote (ascii "notes") ++ ascii " cannot be null or missing")

/-- A note without an identifier is normalized and accepted, but applied to no state: a replica that has enqueued
it has no optimistic state, and the authority throws. -/
theorem rows_apply_draft :
    assertRowReplicationSchema draftSchema = .ok () ∧
    createInitialDatabaseState draftSchema = .ok noteState ∧
    normalizeRowOperation noteRuntime draftSchema putDraft.toJson = .ok putDraft ∧
    applyRowOperation noteRuntime draftSchema noteState putDraft = .error draftError ∧
    (∃ interpreter, createRowReplicaInterpreter noteRuntime draftSchema = .ok interpreter ∧
      materializeOptimisticState interpreter (firstReplica putDraft) = .error draftError) ∧
    ∃ interpreter, createRowLogInterpreter noteRuntime draftSchema
        { rejectInvalidOperation := none, ofRowRejection := id } = .ok interpreter ∧
      interpreter.decide noteState (firstProposal putDraft) = .ok (.accepted putDraft) ∧
      InMemoryLogServer.synchronize ⟨interpreter, defaultProtocolLimits⟩ (.initial noteState)
        (firstRequest putDraft) = .error (.applicationError draftError) :=
  ⟨rfl, rfl, rfl, rfl, ⟨_, rfl, rfl⟩, _, rfl, rfl, rfl⟩

end SyncEngine
