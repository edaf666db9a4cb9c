import SyncEngine.Model.Projection
import SyncEngine.Proof.RowCodec

/-!
# The application tables mirror the state

The state tells rows apart by the canonical text of their keys, the database by the values that its columns
keep. A run of row operations leaves one row in the application tables for each row of the state as long as
the two agree, and no longer.
-/

namespace SyncEngine

open JavaScript JavaScript.JsonValue Throwing

variable {ν δ : Type}

/-! ### What the database should hold -/

def D1Value.ofJson : JsonValue ν → D1Value ν
  | .number value => .number value
  | .string value => .string value
  | .array items => .arrayBuffer (numbersOf items)
  | .null | .boolean _ | .object _ => .null

def ReplicaColumnContract.storedValue (numbers : SqliteNumbers ν δ) (column : ReplicaColumnContract)
    (value : JsonValue ν) : Option (SqlValue δ) := column.affinity.convert numbers (.ofJson value)

def ReplicaTableContract.storedRow (numbers : SqliteNumbers ν δ) (table : ReplicaTableContract)
    (record : JsRecord (JsonValue ν)) : Sql.Row Text (SqlValue δ) := fun columnName =>
  (table.columns.get? columnName).bind fun column => (record.get? columnName).bind (column.storedValue numbers)

/-- The rows of a table, under the canonical texts of their keys. -/
def ReplicaDatabaseState.rows (state : ReplicaDatabaseState (RowRecord ν)) (tableName : Text) :
    JsRecord (RowRecord ν) := (state.tables.get? tableName).getD InsertionMap.empty

/-- Every application table has exactly one row for each row of the state, with the values it has there. -/
def ApplicationTables.Mirror (numbers : SqliteNumbers ν δ) (schema : ReplicaSchemaContract)
    (tables : ApplicationTables δ) (state : ReplicaDatabaseState (RowRecord ν)) : Prop :=
  ∀ tableName table, schema.tables.get? tableName = some table →
    Sql.Mirrors (table.storedRow numbers) (tables tableName) (state.rows tableName)

def RowOperation.tableName : RowOperation ν → Text
  | .putRow table _
  | .deleteRow table _ => table

def RowOperation.values : RowOperation ν → JsRecord (JsonValue ν)
  | .putRow _ row => row
  | .deleteRow _ key => key

def RowOperation.encodedKey (runtime : RowRuntime ν) (schema : ReplicaSchemaContract) :
    RowOperation ν → Except RowError Text
  | .putRow table row => encodeRowPrimaryKey runtime schema table row
  | .deleteRow table key => encodePrimaryKey runtime schema table key

/-- No row of the state has another key than the operation but the same key in the database. -/
def RowOperation.Unambiguous (numbers : SqliteNumbers ν δ) (runtime : RowRuntime ν) (schema : ReplicaSchemaContract)
    (state : ReplicaDatabaseState (RowRecord ν)) (operation : RowOperation ν) : Prop :=
  ∀ table encoded, schema.tables.get? operation.tableName = some table →
    operation.encodedKey runtime schema = .ok encoded →
    ∀ entry ∈ (state.rows operation.tableName).entries,
      Sql.key table.primaryKey (table.storedRow numbers entry.2) =
        Sql.key table.primaryKey (table.storedRow numbers operation.values) → entry.1 = encoded

/-! ### Values -/

section Values

variable {numbers : SqliteNumbers ν δ} {runtime : RowRuntime ν} {schema : ReplicaSchemaContract}

theorem isSome_convert (affinity : SqliteAffinity) {bound : D1Value ν} (hbound : bound ≠ .null) :
    (affinity.convert numbers bound).isSome := by
  cases bound with
  | null => exact absurd rfl hbound
  | number value => cases affinity <;> rfl
  | string value =>
      simp only [SqliteAffinity.convert]
      split <;> rfl
  | arrayBuffer bytes => rfl

theorem isSome_storedValue {column : ReplicaColumnContract} {value : JsonValue ν} (hvalue : value ≠ .null)
    (haccepts : column.Accepts runtime value) : (column.storedValue numbers value).isSome := by
  cases value with
  | null => exact absurd rfl hvalue
  | boolean | object => exact haccepts.elim
  | number | string | array => exact isSome_convert _ nofun

theorem bindColumnValue_eq_ok {column : ReplicaColumnContract} {value : JsonValue ν}
    (haccepts : column.Accepts runtime value) (label : Text) :
    bindColumnValue runtime (some column) (some value) label = .ok (.ofJson value) := by
  cases value with
  | null => rfl
  | boolean | object => exact haccepts.elim
  | number value =>
      have hblob : column.affinity ≠ .blob := by
        obtain ⟨haffinity | haffinity | haffinity, -⟩ := haccepts <;> simp [haffinity]
      exact if_neg hblob
  | string value =>
      have hblob : column.affinity ≠ .blob := by
        cases haccepts with
        | inl haffinity => simp [haffinity]
        | inr haffinity => simp [haffinity]
      exact if_neg hblob
  | array items =>
      obtain ⟨hblob, hbytes⟩ := haccepts
      have hall : items.all (isByteValue runtime) = true := by
        rw [List.all_eq_true]
        intro item hitem
        obtain ⟨byte, rfl, hbyte⟩ := hbytes item hitem
        exact hbyte
      rw [bindColumnValue, if_pos hblob, throwIf_neg (not_not.mpr hall)]
      rfl

theorem find?_map_pair {β : Type} (names : List Text) (f : Text → β) (name : Text) :
    (names.map fun name => (name, f name)).find? (fun value => value.1 = name) =
      if name ∈ names then some (name, f name) else none := by
  induction names with
  | nil => rfl
  | cons first names ih =>
      rw [List.map_cons, List.find?_cons]
      by_cases hfirst : first = name
      · simp [hfirst]
      · have hne : ¬name = first := fun hsame => hfirst hsame.symm
        simp [hfirst, hne, ih]

/-- A record has a value for each of the columns, which take it, and no value for another column. -/
structure Fills (runtime : RowRuntime ν) (table : ReplicaTableContract) (record : JsRecord (JsonValue ν))
    (columns : List Text) : Prop where
  values : ∀ name ∈ columns, ∃ value column, record.get? name = some value ∧
    table.columns.get? name = some column ∧ column.Accepts runtime value
  others : ∀ name, name ∉ columns → table.columns.get? name = none ∨ record.get? name = none

variable (numbers) in
theorem bindColumns_eq_ok (tableName : Text) {table : ReplicaTableContract} {record : JsRecord (JsonValue ν)}
    {columns : List Text} (h : Fills runtime table record columns) :
    let bound := columns.map fun name => (name, D1Value.ofJson ((record.get? name).getD .null))
    bindColumns runtime tableName table record columns = .ok bound ∧
      table.convertRow numbers bound = table.storedRow numbers record := by
  intro bound
  constructor
  · refine mapM_eq_ok fun name hname => ?_
    obtain ⟨value, column, hvalue, hcolumn, haccepts⟩ := h.values name hname
    rw [hvalue, hcolumn, bindColumnValue_eq_ok haccepts]
    rfl
  · funext name
    rw [ReplicaTableContract.convertRow, ReplicaTableContract.storedRow, find?_map_pair]
    by_cases hname : name ∈ columns
    · obtain ⟨value, column, hvalue, hcolumn, -⟩ := h.values name hname
      rw [if_pos hname, hvalue, hcolumn]
      rfl
    · rw [if_neg hname]
      cases h.others name hname with
      | inl hcolumn => rw [hcolumn]; rfl
      | inr hvalue =>
          rw [hvalue]
          cases table.columns.get? name <;> rfl

end Values

/-! ### Keys -/

section Keys

variable {numbers : SqliteNumbers ν δ} {runtime : RowRuntime ν} {schema : ReplicaSchemaContract}

variable (numbers) in
theorem HasKey.isSome_storedRow {table : ReplicaTableContract} {record : JsRecord (JsonValue ν)}
    (h : HasKey runtime table record) : ∀ name ∈ table.primaryKey, (table.storedRow numbers record name).isSome := by
  intro name hname
  obtain ⟨value, column, hvalue, hcolumn, hne, haccepts⟩ := h name hname
  rw [ReplicaTableContract.storedRow, hcolumn, hvalue]
  exact isSome_storedValue hne haccepts

theorem HasKey.keyArray {table : ReplicaTableContract} {record : JsRecord (JsonValue ν)}
    (h : HasKey runtime table record) :
    (table.keyArray record).Valid runtime.toNumberFormat ∧ (table.keyArray record).sorted = table.keyArray record := by
  have hvalue : ∀ name ∈ table.primaryKey, ∃ column : ReplicaColumnContract,
      column.Accepts runtime ((record.get? name).getD .null) := by
    intro name hname
    obtain ⟨value, column, hvalue, -, -, haccepts⟩ := h name hname
    rw [hvalue]
    exact ⟨column, haccepts⟩
  constructor
  · refine .array (List.forall_mem_map.mpr fun name hname => ?_)
    obtain ⟨column, haccepts⟩ := hvalue name hname
    exact valid_of_accepts haccepts
  · rw [ReplicaTableContract.keyArray, sorted_array, List.map_map]
    refine congrArg array (List.map_congr_left fun name hname => ?_)
    obtain ⟨column, haccepts⟩ := hvalue name hname
    exact sorted_of_accepts haccepts

/-- Keys with one canonical text have the same values. -/
theorem HasKey.get?_eq (hlawful : runtime.toNumberFormat.Lawful) {table : ReplicaTableContract}
    {record record' : JsRecord (JsonValue ν)} (h : HasKey runtime table record) (h' : HasKey runtime table record')
    (htext : (table.keyArray record).print runtime.toNumberFormat =
      (table.keyArray record').print runtime.toNumberFormat) :
    ∀ name ∈ table.primaryKey, record.get? name = record'.get? name := by
  have hparse := parse_print hlawful h.keyArray.1
  rw [htext, parse_print hlawful h'.keyArray.1, h.keyArray.2, h'.keyArray.2] at hparse
  have harray := JsonValue.array.inj (Option.some.inj hparse)
  intro name hname
  have hsame := List.map_inj_left.mp harray name hname
  obtain ⟨value, column, hvalue, hcolumn, -⟩ := h name hname
  obtain ⟨value', _, hvalue', -⟩ := h' name hname
  rw [hvalue, hvalue'] at hsame
  rw [hvalue, hvalue', show value' = value from hsame]

theorem HasKey.storedKey_eq (hlawful : runtime.toNumberFormat.Lawful) {table : ReplicaTableContract}
    {record record' : JsRecord (JsonValue ν)} (h : HasKey runtime table record) (h' : HasKey runtime table record')
    (htext : (table.keyArray record).print runtime.toNumberFormat =
      (table.keyArray record').print runtime.toNumberFormat) :
    Sql.key table.primaryKey (table.storedRow numbers record) =
      Sql.key table.primaryKey (table.storedRow numbers record') := by
  refine List.map_congr_left fun name hname => ?_
  rw [ReplicaTableContract.storedRow, ReplicaTableContract.storedRow, h.get?_eq hlawful h' htext name hname]

end Keys

/-! ### What an operation does -/

section Operations

variable {numbers : SqliteNumbers ν δ} {runtime : RowRuntime ν} {schema : ReplicaSchemaContract}
  {operation : RowOperation ν} {table : ReplicaTableContract}

def RowOperation.keyText (runtime : RowRuntime ν) (table : ReplicaTableContract) (operation : RowOperation ν) : Text :=
  (table.keyArray operation.values).print runtime.toNumberFormat

/-- What an operation does to the rows of its table in the state. -/
def RowOperation.onRows (operation : RowOperation ν) (encoded : Text) (rows : JsRecord (RowRecord ν)) :
    JsRecord (RowRecord ν) :=
  match operation with
  | .putRow _ row => rows.set encoded row
  | .deleteRow _ _ => rows.erase encoded

def RowOperation.onTable [DecidableEq δ] (operation : RowOperation ν) (numbers : SqliteNumbers ν δ)
    (table : ReplicaTableContract) (rows : List (Sql.Row Text (SqlValue δ))) : List (Sql.Row Text (SqlValue δ)) :=
  match operation with
  | .putRow _ row => Sql.upsert table.primaryKey
      ((table.columns.entries.map Prod.fst).filter fun columnName => columnName ∉ table.primaryKey)
      (table.storedRow numbers row) rows
  | .deleteRow _ key => Sql.deleteWhere table.primaryKey (table.storedRow numbers key) rows

theorem RowOperation.Normal.exists_table (h : operation.Normal runtime schema) :
    ∃ table, schema.tables.get? operation.tableName = some table := by
  cases operation with
  | putRow name row =>
      obtain ⟨table, htable, -⟩ := h
      exact ⟨table, htable⟩
  | deleteRow name key =>
      obtain ⟨table, htable, -⟩ := h
      exact ⟨table, htable⟩

section Normal

variable (hkeys : schema.NonNullKeys)
  (h : operation.Normal runtime schema) (htable : schema.tables.get? operation.tableName = some table)

include hkeys h htable

theorem RowOperation.Normal.hasKey : HasKey runtime table operation.values := by
  cases operation with
  | putRow name row =>
      obtain ⟨table', htable', -, hall⟩ := h
      obtain rfl := Option.some.inj (htable.symm.trans htable')
      exact hasKey_of_normal hkeys htable hall
  | deleteRow name key =>
      obtain ⟨table', htable', -, hall⟩ := h
      obtain rfl := Option.some.inj (htable.symm.trans htable')
      exact hasKey_of_key hall

theorem RowOperation.Normal.encodedKey_eq :
    operation.encodedKey runtime schema = .ok (operation.keyText runtime table) := by
  cases operation with
  | putRow name row => exact encodeRowPrimaryKey_of_normal hkeys h htable
  | deleteRow name key => exact encodePrimaryKey_of_normal h htable

theorem RowOperation.Normal.apply_eq {state : ReplicaDatabaseState (RowRecord ν)}
    (hstate : state.schemaHash = schema.schemaHash) :
    applyRowOperation runtime schema state operation = .ok { state with
      tables := state.tables.set operation.tableName
        (operation.onRows (operation.keyText runtime table) (state.rows operation.tableName)) } := by
  have hschema : (assertDatabaseStateSchema schema state).mapError RowError.schemaMismatchError = .ok () := by
    rw [assertDatabaseStateSchema, throwIf_neg (not_not.mpr hstate)]
    rfl
  have hnormalized := normalizeRowOperation_toJson h
  have hencoded := h.encodedKey_eq hkeys htable
  refine bind_unit_eq_ok.mpr ⟨hschema, bind_eq_ok.mpr ⟨operation, hnormalized, ?_⟩⟩
  cases operation with
  | putRow name row => exact bind_eq_ok.mpr ⟨_, hencoded, rfl⟩
  | deleteRow name key => exact bind_eq_ok.mpr ⟨_, hencoded, rfl⟩

omit hkeys in
theorem RowOperation.Normal.project_eq [DecidableEq δ] (tables : ApplicationTables δ) :
    projectRowOperation numbers schema runtime tables operation = .ok (Function.update tables operation.tableName
      (operation.onTable numbers table (tables operation.tableName))) := by
  have hprojected : projectedTable schema operation.tableName = .ok table := by rw [projectedTable, htable]
  cases operation with
  | putRow name row =>
      obtain ⟨table', htable', -, hall⟩ := h
      obtain rfl := Option.some.inj (htable.symm.trans htable')
      have hfills : Fills runtime table row (table.columns.entries.map Prod.fst) := by
        constructor
        · intro column hcolumn
          obtain ⟨entry, hentry, rfl⟩ := List.mem_map.mp hcolumn
          have hget : table.columns.get? entry.1 = some entry.2 := by
            rw [InsertionMap.get?, KeyedList.find?_of_perm (List.Perm.refl _) table.columns.nodupKeys hentry]
            rfl
          obtain ⟨value, hvalue, haccepts⟩ := get?_row hall hget
          exact ⟨value, entry.2, hvalue, hget, haccepts⟩
        · exact fun column hcolumn => .inl ((table.columns.get?_eq_none_iff column).mpr hcolumn)
      obtain ⟨hbound, hconvert⟩ := bindColumns_eq_ok numbers name hfills
      have hstatement : ∀ conflictTarget updateColumns, ApplicationStatement.execute numbers schema tables (.insert name
          ((table.columns.entries.map Prod.fst).map fun name => (name, D1Value.ofJson ((row.get? name).getD .null)))
          conflictTarget updateColumns) = .ok (Function.update tables name (Sql.upsert conflictTarget updateColumns
            (table.storedRow numbers row) (tables name))) := by
        intro conflictTarget updateColumns
        refine bind_eq_ok.mpr ⟨table, hprojected, ?_⟩
        rw [hconvert]
        rfl
      refine bind_eq_ok.mpr ⟨_, bind_eq_ok.mpr ⟨table, hprojected, bind_eq_ok.mpr ⟨_, hbound, rfl⟩⟩, ?_⟩
      rw [List.foldlM_cons, hstatement]
      rfl
  | deleteRow name key =>
      obtain ⟨table', htable', -, hall⟩ := h
      obtain rfl := Option.some.inj (htable.symm.trans htable')
      have hfills : Fills runtime table key table.primaryKey := by
        constructor
        · intro column hcolumn
          obtain ⟨value, contract, hvalue, hcontract, -, haccepts⟩ := hasKey_of_key hall column hcolumn
          exact ⟨value, contract, hvalue, hcontract, haccepts⟩
        · intro column hcolumn
          refine .inr ((key.get?_eq_none_iff column).mpr fun hmem => hcolumn ?_)
          obtain ⟨entry, hentry, rfl⟩ := List.mem_map.mp hmem
          obtain ⟨name', hname, rfl, -⟩ := exists_of_forall₂ hall.flip hentry
          exact hname
      obtain ⟨hbound, hconvert⟩ := bindColumns_eq_ok numbers name hfills
      have hstatement : ApplicationStatement.execute numbers schema tables (.delete name
          (table.primaryKey.map fun name => (name, D1Value.ofJson ((key.get? name).getD .null)))) =
            .ok (Function.update tables name (Sql.deleteWhere table.primaryKey (table.storedRow numbers key)
              (tables name))) := by
        refine bind_eq_ok.mpr ⟨table, hprojected, ?_⟩
        rw [hconvert, List.map_map]
        exact congrArg (fun columns => Except.ok (Function.update tables name (Sql.deleteWhere columns
          (table.storedRow numbers key) (tables name)))) (List.map_id _)
      refine bind_eq_ok.mpr ⟨_, bind_eq_ok.mpr ⟨table, hprojected, bind_eq_ok.mpr ⟨_, hbound, rfl⟩⟩, ?_⟩
      rw [List.foldlM_cons, hstatement]
      rfl

end Normal

/-- A state of the schema, with normal rows under the texts of their keys. -/
structure RowState (runtime : RowRuntime ν) (schema : ReplicaSchemaContract)
    (state : ReplicaDatabaseState (RowRecord ν)) : Prop where
  schemaHash : state.schemaHash = schema.schemaHash
  normal : ∀ name table, schema.tables.get? name = some table → ∀ entry ∈ (state.rows name).entries,
    (RowOperation.putRow name entry.2).Normal runtime schema
  text : ∀ name table, schema.tables.get? name = some table → ∀ entry ∈ (state.rows name).entries,
    (table.keyArray entry.2).print runtime.toNumberFormat = entry.1

def ApplicationTables.Apart (schema : ReplicaSchemaContract) (tables : ApplicationTables δ) : Prop :=
  ∀ name table, schema.tables.get? name = some table → ((tables name).map (Sql.key table.primaryKey)).Nodup

def ReplicaDatabaseState.after (state : ReplicaDatabaseState (RowRecord ν)) (runtime : RowRuntime ν)
    (table : ReplicaTableContract) (operation : RowOperation ν) : ReplicaDatabaseState (RowRecord ν) :=
  { state with
    tables := state.tables.set operation.tableName
      (operation.onRows (operation.keyText runtime table) (state.rows operation.tableName)) }

theorem rows_after (state : ReplicaDatabaseState (RowRecord ν)) (name : Text) :
    (state.after runtime table operation).rows name =
      if name = operation.tableName then
        operation.onRows (operation.keyText runtime table) (state.rows operation.tableName)
      else state.rows name := by
  rw [ReplicaDatabaseState.rows, ReplicaDatabaseState.after, InsertionMap.get?_set]
  split <;> rfl

section Step

variable (hkeys : schema.NonNullKeys)
  (h : operation.Normal runtime schema) (htable : schema.tables.get? operation.tableName = some table)

include h htable

/-- The step lemma of the state. -/
theorem RowState.after {state : ReplicaDatabaseState (RowRecord ν)} (hstate : RowState runtime schema state) :
    RowState runtime schema (state.after runtime table operation) := by
  have hrows : ∀ name table', schema.tables.get? name = some table' →
      ∀ entry ∈ ((state.after runtime table operation).rows name).entries,
        (RowOperation.putRow name entry.2).Normal runtime schema ∧
          (table'.keyArray entry.2).print runtime.toNumberFormat = entry.1 := by
    intro name table' htable' entry hentry
    rw [rows_after] at hentry
    by_cases hname : name = operation.tableName
    · subst hname
      obtain rfl := Option.some.inj (htable.symm.trans htable')
      rw [if_pos rfl] at hentry
      cases operation with
      | putRow name row =>
          rcases (InsertionMap.mem_entries_set _ _ _).mp hentry with rfl | ⟨hold, -⟩
          · exact ⟨h, rfl⟩
          · exact ⟨hstate.normal _ _ htable entry hold, hstate.text _ _ htable entry hold⟩
      | deleteRow name key =>
          have hold := List.mem_of_mem_filter hentry
          exact ⟨hstate.normal _ _ htable entry hold, hstate.text _ _ htable entry hold⟩
    · rw [if_neg hname] at hentry
      exact ⟨hstate.normal _ _ htable' entry hentry, hstate.text _ _ htable' entry hentry⟩
  exact ⟨hstate.schemaHash, fun name table' htable' entry hentry => (hrows name table' htable' entry hentry).1,
    fun name table' htable' entry hentry => (hrows name table' htable' entry hentry).2⟩

variable [DecidableEq δ]

include hkeys

variable (numbers) in
/-- The step lemma of the database. -/
theorem ApplicationTables.Apart.update {tables : ApplicationTables δ} (hapart : tables.Apart schema) :
    ApplicationTables.Apart schema (Function.update tables operation.tableName
      (operation.onTable numbers table (tables operation.tableName))) := by
  intro name table' htable'
  by_cases hname : name = operation.tableName
  · subst hname
    obtain rfl := Option.some.inj (htable.symm.trans htable')
    rw [Function.update_self]
    have hkey := (h.hasKey hkeys htable).isSome_storedRow numbers
    cases operation with
    | putRow name row =>
        have hdisjoint : ∀ column ∈ table.primaryKey, column ∉
            (table.columns.entries.map Prod.fst).filter fun columnName => columnName ∉ table.primaryKey :=
          fun column hcolumn hupdate => absurd hcolumn (of_decide_eq_true (List.mem_filter.mp hupdate).2)
        exact Sql.nodup_upsert hkey hdisjoint (hapart _ _ htable)
    | deleteRow name key => exact Sql.nodup_deleteWhere (hapart _ _ htable)
  · rw [Function.update_of_ne hname]
    exact hapart name table' htable'

/-- An operation leaves the application tables a mirror of the state exactly when it is not ambiguous. -/
theorem mirror_after_iff (hlawful : runtime.toNumberFormat.Lawful) {state : ReplicaDatabaseState (RowRecord ν)}
    {tables : ApplicationTables δ} (hstate : RowState runtime schema state) (hapart : tables.Apart schema)
    (hmirror : tables.Mirror numbers schema state) :
    ApplicationTables.Mirror numbers schema (Function.update tables operation.tableName
      (operation.onTable numbers table (tables operation.tableName))) (state.after runtime table operation) ↔
    operation.Unambiguous numbers runtime schema state := by
  have hkey := h.hasKey hkeys htable
  have hencoded := h.encodedKey_eq hkeys htable
  have hsame : ∀ entry ∈ (state.rows operation.tableName).entries, entry.1 = operation.keyText runtime table →
      Sql.key table.primaryKey (table.storedRow numbers entry.2) =
        Sql.key table.primaryKey (table.storedRow numbers operation.values) := by
    intro entry hentry htext
    have hentryKey := (hstate.normal _ _ htable entry hentry).hasKey hkeys htable
    exact hentryKey.storedKey_eq hlawful hkey ((hstate.text _ _ htable entry hentry).trans htext)
  constructor
  · intro hnext table' encoded htable' hencoded' entry hentry hstored
    obtain rfl := Option.some.inj (htable.symm.trans htable')
    obtain rfl := Except.ok.inj (hencoded.symm.trans hencoded')
    have hafter := hnext _ _ htable
    have hnodup := hapart.update numbers hkeys h htable _ _ htable
    rw [Function.update_self, rows_after, if_pos rfl] at hafter
    rw [Function.update_self] at hnodup
    cases operation with
    | putRow name row => exact Sql.Mirrors.key_of_upsert hafter hnodup hentry hstored
    | deleteRow name key => exact hafter.key_of_deleteWhere (hkey.isSome_storedRow numbers) hentry hstored
  · intro hunambiguous name table' htable'
    rw [rows_after]
    by_cases hname : name = operation.tableName
    · subst hname
      obtain rfl := Option.some.inj (htable.symm.trans htable')
      rw [Function.update_self, if_pos rfl]
      have hiff := fun entry hentry => Iff.intro (hunambiguous table _ htable hencoded entry hentry)
        (hsame entry hentry)
      cases operation with
      | putRow name row =>
          refine (hmirror _ _ htable).upsert (hkey.isSome_storedRow numbers) (fun column hcolumn hupdate row => ?_) hiff
          have habsent : table.columns.get? column = none := by
            rw [InsertionMap.get?_eq_none_iff]
            exact fun hmem => hupdate (List.mem_filter.mpr ⟨hmem, by simpa using hcolumn⟩)
          rw [ReplicaTableContract.storedRow, habsent]
          rfl
      | deleteRow name key => exact (hmirror _ _ htable).deleteWhere (hkey.isSome_storedRow numbers) hiff
    · rw [Function.update_of_ne hname, if_neg hname]
      exact hmirror name table' htable'

end Step

end Operations

/-! ### Runs -/

section Runs

variable {numbers : SqliteNumbers ν δ} {runtime : RowRuntime ν} {schema : ReplicaSchemaContract}
  {initial : ReplicaDatabaseState (RowRecord ν)}

theorem rows_initial (hinitial : createInitialDatabaseState schema = .ok initial) (name : Text) :
    initial.rows name = InsertionMap.empty := by
  obtain ⟨-, hfields⟩ := bind_unit_eq_ok.mp hinitial
  rw [← Except.ok.inj hfields, ReplicaDatabaseState.rows]
  dsimp only
  generalize hentries : schema.tables.entries.map
    (fun table => (table.1, (InsertionMap.empty : JsRecord (RowRecord ν)))) = entries
  have hnodup : ((InsertionMap.empty.entries ++ entries).map Prod.fst).Nodup := by
    rw [InsertionMap.empty, List.nil_append, ← hentries, List.map_map]
    exact schema.tables.nodupKeys
  cases hget : (InsertionMap.empty.setAll entries).get? name with
  | none => rfl
  | some rows =>
      have hmem := InsertionMap.mem_of_get?_eq_some _ hget
      rw [InsertionMap.entries_setAll_of_fresh _ _ hnodup, InsertionMap.empty, List.nil_append, ← hentries] at hmem
      obtain ⟨table, -, hsame⟩ := List.mem_map.mp hmem
      exact (congrArg Prod.snd hsame).symm

theorem rowState_initial (hinitial : createInitialDatabaseState schema = .ok initial) :
    RowState runtime schema initial where
  schemaHash := by
    obtain ⟨-, hfields⟩ := bind_unit_eq_ok.mp hinitial
    rw [← Except.ok.inj hfields]
  normal name _ _ entry hentry := by
    rw [rows_initial hinitial] at hentry
    exact absurd hentry List.not_mem_nil
  text name _ _ entry hentry := by
    rw [rows_initial hinitial] at hentry
    exact absurd hentry List.not_mem_nil

variable [DecidableEq δ] (hkeys : schema.NonNullKeys) (hinitial : createInitialDatabaseState schema = .ok initial)

include hkeys hinitial

variable (numbers) in
/-- The run lemma: a run returns, on normal rows and distinct keys. -/
theorem run_returns {operations : List (RowOperation ν)}
    (hnormal : ∀ operation ∈ operations, operation.Normal runtime schema) :
    (∃ state, operations.foldlM (applyRowOperation runtime schema) initial = .ok state ∧
      RowState runtime schema state) ∧
    ∃ tables : ApplicationTables δ, operations.foldlM (projectRowOperation numbers schema runtime)
      (fun _ => []) = .ok tables ∧ tables.Apart schema := by
  constructor
  · refine foldlM_returns (fun operation hoperation state hstate => ?_) (rowState_initial hinitial)
    have h := hnormal operation hoperation
    obtain ⟨table, htable⟩ := h.exists_table
    exact ⟨_, h.apply_eq hkeys htable hstate.schemaHash, hstate.after h htable⟩
  · refine foldlM_returns (I := fun tables => ApplicationTables.Apart schema tables)
      (fun operation hoperation tables hapart => ?_) fun _ _ _ => List.nodup_nil
    have h := hnormal operation hoperation
    obtain ⟨table, htable⟩ := h.exists_table
    exact ⟨_, h.project_eq htable tables, hapart.update numbers hkeys h htable⟩

/-- The application tables mirror the state after every step of a run of normalized operations exactly when
no step is ambiguous: none has a key that the database takes for the key of another row. -/
theorem projection_mirrors_iff (hlawful : runtime.toNumberFormat.Lawful) (operations : List (RowOperation ν))
    (hnormalized : ∀ operation ∈ operations, ∃ input, normalizeRowOperation runtime schema input = .ok operation) :
    (∀ done, done <+: operations → ∃ state tables,
      done.foldlM (applyRowOperation runtime schema) initial = .ok state ∧
      done.foldlM (projectRowOperation numbers schema runtime) (fun _ => []) = .ok tables ∧
      ApplicationTables.Mirror numbers schema tables state) ↔
    ∀ done operation, done ++ [operation] <+: operations → ∀ state,
      done.foldlM (applyRowOperation runtime schema) initial = .ok state →
        operation.Unambiguous numbers runtime schema state := by
  have hnormal : ∀ operation ∈ operations, operation.Normal runtime schema := by
    intro operation hoperation
    obtain ⟨input, hinput⟩ := hnormalized operation hoperation
    exact normalizeRowOperation_normal hkeys hinput
  have hstep : ∀ done operation, done ++ [operation] <+: operations → ∀ state tables,
      done.foldlM (applyRowOperation runtime schema) initial = .ok state →
      done.foldlM (projectRowOperation numbers schema runtime) (fun _ => []) = .ok tables →
      ApplicationTables.Mirror numbers schema tables state → ∃ next nextTables,
        (done ++ [operation]).foldlM (applyRowOperation runtime schema) initial = .ok next ∧
        (done ++ [operation]).foldlM (projectRowOperation numbers schema runtime) (fun _ => []) = .ok nextTables ∧
        (ApplicationTables.Mirror numbers schema nextTables next ↔
          operation.Unambiguous numbers runtime schema state) := by
    intro done operation hpart state tables hdone hprojected hmirror
    have hmem := fun other (hother : other ∈ done) => hpart.subset (List.mem_append_left [operation] hother)
    have h := hnormal operation (hpart.subset (List.mem_append_right done List.mem_cons_self))
    obtain ⟨table, htable⟩ := h.exists_table
    obtain ⟨⟨state', hdone', hstate⟩, ⟨tables', hprojected', hapart⟩⟩ :=
      run_returns numbers hkeys hinitial fun other hother => hnormal other (hmem other hother)
    obtain rfl := Except.ok.inj (hdone.symm.trans hdone')
    obtain rfl := Except.ok.inj (hprojected.symm.trans hprojected')
    refine ⟨_, _, ?_, ?_, mirror_after_iff hkeys h htable hlawful hstate hapart hmirror⟩
    · rw [List.foldlM_append, hdone, ok_bind, List.foldlM_cons, h.apply_eq hkeys htable hstate.schemaHash]
      rfl
    · rw [List.foldlM_append, hprojected, ok_bind, List.foldlM_cons, h.project_eq htable]
      rfl
  constructor
  · intro hmirrors done operation hpart state hdone
    obtain ⟨state', tables, hdone', hprojected, hmirror⟩ :=
      hmirrors done ((List.prefix_append done [operation]).trans hpart)
    obtain rfl := Except.ok.inj (hdone.symm.trans hdone')
    obtain ⟨next, nextTables, hnext, hnextTables, hiff⟩ := hstep done operation hpart state tables hdone hprojected
      hmirror
    obtain ⟨next', nextTables', hnext', hnextTables', hmirror'⟩ := hmirrors _ hpart
    obtain rfl := Except.ok.inj (hnext.symm.trans hnext')
    obtain rfl := Except.ok.inj (hnextTables.symm.trans hnextTables')
    exact hiff.mp hmirror'
  · intro hunambiguous done
    induction done using List.reverseRecOn with
    | nil =>
        intro _
        refine ⟨initial, fun _ => [], rfl, rfl, fun name table _ => ?_⟩
        rw [rows_initial hinitial]
        exact List.Perm.nil
    | append_singleton done operation ih =>
        intro hpart
        obtain ⟨state, tables, hdone, hprojected, hmirror⟩ :=
          ih ((List.prefix_append done [operation]).trans hpart)
        obtain ⟨next, nextTables, hnext, hnextTables, hiff⟩ := hstep done operation hpart state tables hdone
          hprojected hmirror
        exact ⟨next, nextTables, hnext, hnextTables, hiff.mpr (hunambiguous done operation hpart state hdone)⟩

end Runs

/-! ### Keys that are not ambiguous -/

section PlainKeys

variable {numbers : SqliteNumbers ν δ} {runtime : RowRuntime ν} {schema : ReplicaSchemaContract}

/-- Numbers that differ stay different in the database. -/
def SqliteNumbers.Faithful (numbers : SqliteNumbers ν δ) (format : NumberFormat ν) : Prop :=
  ∀ left right, format.isFinite left → format.isFinite right →
    numbers.ofNumber left = numbers.ofNumber right → left = right

/-- No numeric column of the key has a text that the database takes for a number. -/
def RowOperation.PlainKey (numbers : SqliteNumbers ν δ) (schema : ReplicaSchemaContract)
    (operation : RowOperation ν) : Prop :=
  ∀ table, schema.tables.get? operation.tableName = some table → ∀ name ∈ table.primaryKey, ∀ column text,
    table.columns.get? name = some column → column.affinity = .numeric →
      operation.values.get? name = some (.string text) → numbers.ofText text = none

def SqlValue.ofJson (numbers : SqliteNumbers ν δ) : JsonValue ν → Option (SqlValue δ)
  | .number value => some (.number (numbers.ofNumber value))
  | .string value => some (.text value)
  | .array items => some (.blob ((numbersOf items).map numbers.ofNumber))
  | .null | .boolean _ | .object _ => none

theorem storedValue_of_plain {column : ReplicaColumnContract} {value : JsonValue ν}
    (haccepts : column.Accepts runtime value)
    (hplain : ∀ text, column.affinity = .numeric → value = .string text → numbers.ofText text = none) :
    column.storedValue numbers value = SqlValue.ofJson numbers value := by
  obtain ⟨affinity, nullable, generated⟩ := column
  cases value with
  | null => rfl
  | boolean | object => exact haccepts.elim
  | array items => rfl
  | number value => cases haccepts.1 with
    | inl hinteger =>
        obtain rfl : affinity = .integer := hinteger
        rfl
    | inr hrest => cases hrest with
      | inl hreal =>
          obtain rfl : affinity = .real := hreal
          rfl
      | inr hnumeric =>
          obtain rfl : affinity = .numeric := hnumeric
          rfl
  | string text => cases haccepts with
    | inl htext =>
        obtain rfl : affinity = .text := htext
        rfl
    | inr hnumeric =>
        obtain rfl : affinity = .numeric := hnumeric
        change SqliteAffinity.convert numbers .numeric (.string text) = some (.text text)
        simp only [SqliteAffinity.convert, hplain text rfl rfl]

theorem map_numbersOf {items : List (JsonValue ν)}
    (hbytes : ∀ item ∈ items, ∃ byte, item = .number byte ∧ runtime.isByte byte) :
    (numbersOf items).map JsonValue.number = items ∧ ∀ byte ∈ numbersOf items, runtime.isFinite byte := by
  induction items with
  | nil => exact ⟨rfl, by simp [numbersOf]⟩
  | cons item items ih =>
      rw [List.forall_mem_cons] at hbytes
      obtain ⟨byte, rfl, hbyte⟩ := hbytes.1
      obtain ⟨hmap, hfinite⟩ := ih hbytes.2
      refine ⟨congrArg (JsonValue.number byte :: ·) hmap, ?_⟩
      exact List.forall_mem_cons.mpr ⟨runtime.isFinite_of_isByte byte hbyte, hfinite⟩

theorem eq_of_map_ofNumber_eq (hfaithful : numbers.Faithful runtime.toNumberFormat) {bytes bytes' : List ν}
    (hbytes : ∀ byte ∈ bytes, runtime.isFinite byte) (hbytes' : ∀ byte ∈ bytes', runtime.isFinite byte)
    (hsame : bytes.map numbers.ofNumber = bytes'.map numbers.ofNumber) : bytes = bytes' := by
  induction bytes generalizing bytes' with
  | nil => rw [List.map_nil, eq_comm, List.map_eq_nil_iff] at hsame; exact hsame.symm
  | cons byte bytes ih =>
      cases bytes' with
      | nil => simp at hsame
      | cons byte' bytes' =>
          rw [List.forall_mem_cons] at hbytes hbytes'
          rw [List.map_cons, List.map_cons, List.cons.injEq] at hsame
          rw [hfaithful byte byte' hbytes.1 hbytes'.1 hsame.1, ih hbytes.2 hbytes'.2 hsame.2]

theorem ofJson_injective (hfaithful : numbers.Faithful runtime.toNumberFormat) {column : ReplicaColumnContract}
    {value value' : JsonValue ν} (haccepts : column.Accepts runtime value)
    (haccepts' : column.Accepts runtime value')
    (hsame : SqlValue.ofJson numbers value = SqlValue.ofJson numbers value') : value = value' := by
  cases value with
  | boolean | object => exact haccepts.elim
  | null => cases value' with
    | null => rfl
    | boolean | object => exact haccepts'.elim
    | number | string | array => simp [SqlValue.ofJson] at hsame
  | number value => cases value' with
    | boolean | object => exact haccepts'.elim
    | number value' =>
        have hnumber := SqlValue.number.inj (Option.some.inj hsame)
        rw [hfaithful value value' haccepts.2 haccepts'.2 hnumber]
    | null | string | array => simp [SqlValue.ofJson] at hsame
  | string text => cases value' with
    | boolean | object => exact haccepts'.elim
    | string text' => rw [SqlValue.text.inj (Option.some.inj hsame)]
    | null | number | array => simp [SqlValue.ofJson] at hsame
  | array items => cases value' with
    | boolean | object => exact haccepts'.elim
    | array items' =>
        obtain ⟨hitems, hfinite⟩ := map_numbersOf haccepts.2
        obtain ⟨hitems', hfinite'⟩ := map_numbersOf haccepts'.2
        have hbytes := SqlValue.blob.inj (Option.some.inj hsame)
        rw [← hitems, ← hitems', eq_of_map_ofNumber_eq hfaithful hfinite hfinite' hbytes]
    | null | number | string => simp [SqlValue.ofJson] at hsame

theorem keyText_eq_of_storedKey_eq (hfaithful : numbers.Faithful runtime.toNumberFormat)
    (operation operation' : RowOperation ν) {table : ReplicaTableContract}
    (htable : schema.tables.get? operation.tableName = some table)
    (hsameTable : operation'.tableName = operation.tableName)
    (hkey : HasKey runtime table operation.values) (hkey' : HasKey runtime table operation'.values)
    (hplain : operation.PlainKey numbers schema) (hplain' : operation'.PlainKey numbers schema)
    (hstored : Sql.key table.primaryKey (table.storedRow numbers operation.values) =
      Sql.key table.primaryKey (table.storedRow numbers operation'.values)) :
    operation.keyText runtime table = operation'.keyText runtime table := by
  refine congrArg (JsonValue.print runtime.toNumberFormat) (congrArg JsonValue.array ?_)
  refine List.map_congr_left fun name hname => ?_
  obtain ⟨value, column, hvalue, hcolumn, -, haccepts⟩ := hkey name hname
  obtain ⟨value', column', hvalue', hcolumn', -, haccepts'⟩ := hkey' name hname
  obtain rfl := Option.some.inj (hcolumn.symm.trans hcolumn')
  have hsame := List.map_inj_left.mp hstored name hname
  rw [ReplicaTableContract.storedRow, ReplicaTableContract.storedRow, hcolumn, hvalue, hvalue'] at hsame
  change column.storedValue numbers value = column.storedValue numbers value' at hsame
  have htext : ∀ text, column.affinity = .numeric → value = .string text → numbers.ofText text = none :=
    fun text hnumeric htext => hplain table htable name hname column text hcolumn hnumeric (htext ▸ hvalue)
  have htext' : ∀ text, column.affinity = .numeric → value' = .string text → numbers.ofText text = none :=
    fun text hnumeric htext => hplain' table (hsameTable ▸ htable) name hname column text hcolumn hnumeric
      (htext ▸ hvalue')
  rw [storedValue_of_plain haccepts htext, storedValue_of_plain haccepts' htext'] at hsame
  rw [hvalue, hvalue', ofJson_injective hfaithful haccepts haccepts' hsame]

theorem exists_putRow {initial state : ReplicaDatabaseState (RowRecord ν)} (hkeys : schema.NonNullKeys)
    (hinitial : createInitialDatabaseState schema = .ok initial) {operations : List (RowOperation ν)}
    (hnormal : ∀ operation ∈ operations, operation.Normal runtime schema)
    (hrun : operations.foldlM (applyRowOperation runtime schema) initial = .ok state) :
    RowState runtime schema state ∧
      ∀ name, ∀ entry ∈ (state.rows name).entries, RowOperation.putRow name entry.2 ∈ operations := by
  have hstart : ∀ name, ∀ entry ∈ (initial.rows name).entries, RowOperation.putRow name entry.2 ∈ operations := by
    intro name entry hentry
    rw [rows_initial hinitial] at hentry
    exact absurd hentry List.not_mem_nil
  have hreturns := foldlM_returns (l := operations) (f := applyRowOperation runtime schema)
    (I := fun state => RowState runtime schema state ∧
      ∀ name, ∀ entry ∈ (state.rows name).entries, RowOperation.putRow name entry.2 ∈ operations) (b := initial)
    (fun operation hoperation state hstate => by
      have h := hnormal operation hoperation
      obtain ⟨table, htable⟩ := h.exists_table
      refine ⟨_, h.apply_eq hkeys htable hstate.1.schemaHash, hstate.1.after h htable, ?_⟩
      intro name entry hentry
      change entry ∈ ((state.after runtime table operation).rows name).entries at hentry
      rw [rows_after] at hentry
      split at hentry
      case isTrue hname =>
        subst hname
        cases operation with
        | putRow name row =>
            rcases (InsertionMap.mem_entries_set _ _ _).mp hentry with rfl | ⟨hold, -⟩
            · exact hoperation
            · exact hstate.2 _ entry hold
        | deleteRow name key => exact hstate.2 _ entry (List.mem_of_mem_filter hentry)
      case isFalse hname => exact hstate.2 name entry hentry) ⟨rowState_initial hinitial, hstart⟩
  obtain ⟨state', hrun', hstate⟩ := hreturns
  obtain rfl := Except.ok.inj (hrun.symm.trans hrun')
  exact hstate

/-- No step of a run with plain keys is ambiguous. -/
theorem unambiguous_of_plainKeys (hfaithful : numbers.Faithful runtime.toNumberFormat)
    {initial : ReplicaDatabaseState (RowRecord ν)} (hkeys : schema.NonNullKeys)
    (hinitial : createInitialDatabaseState schema = .ok initial) {operations : List (RowOperation ν)}
    (hnormal : ∀ operation ∈ operations, operation.Normal runtime schema)
    (hplain : ∀ operation ∈ operations, operation.PlainKey numbers schema) {done : List (RowOperation ν)}
    {operation : RowOperation ν} (hpart : done ++ [operation] <+: operations)
    {state : ReplicaDatabaseState (RowRecord ν)}
    (hrun : done.foldlM (applyRowOperation runtime schema) initial = .ok state) :
    operation.Unambiguous numbers runtime schema state := by
  have hdone : ∀ other ∈ done, other ∈ operations :=
    fun other hother => hpart.subset (List.mem_append_left [operation] hother)
  have hoperation : operation ∈ operations := hpart.subset (List.mem_append_right done List.mem_cons_self)
  obtain ⟨hstate, hput⟩ := exists_putRow hkeys hinitial (fun other hother => hnormal other (hdone other hother))
    hrun
  intro table encoded htable hencoded entry hentry hstored
  have h := hnormal operation hoperation
  have hrow := hstate.normal _ _ htable entry hentry
  obtain rfl := Except.ok.inj ((h.encodedKey_eq hkeys htable).symm.trans hencoded)
  rw [← hstate.text _ _ htable entry hentry]
  exact keyText_eq_of_storedKey_eq hfaithful (.putRow operation.tableName entry.2) operation htable rfl
    (hrow.hasKey hkeys htable) (h.hasKey hkeys htable)
    (hplain _ (hdone _ (hput _ entry hentry))) (hplain operation hoperation) hstored

end PlainKeys

/-! ### A table with a numeric key -/

def integerNumbers : SqliteNumbers Int Int where
  ofNumber := id
  ofText text := if text ≠ [] ∧ text.all isDigit = true then some (naturalValue text) else none
  toText := integerFormat.literal

def rateTable : ReplicaTableContract where
  primaryKey := [ascii "code"]
  columns := InsertionMap.empty.setAll [
    (ascii "code", { affinity := .numeric, nullable := false, generated := false }),
    (ascii "title", { affinity := .text, nullable := true, generated := false })]

def rateSchema : ReplicaSchemaContract where
  schemaHash := ascii "rates-v1"
  tables := InsertionMap.empty.set (ascii "rates") rateTable

def rateState : ReplicaDatabaseState (RowRecord Int) where
  schemaHash := ascii "rates-v1"
  tables := InsertionMap.empty.set (ascii "rates") InsertionMap.empty

def putRate (code : JsonValue Int) : RowOperation Int :=
  .putRow (ascii "rates") (InsertionMap.empty.setAll [(ascii "code", code), (ascii "title", .null)])

theorem rateSchema_keys : rateSchema.NonNullKeys where
  distinct := by decide
  nonNull := by
    intro table htable name hname
    obtain rfl := List.mem_singleton.mp htable
    obtain rfl := List.mem_singleton.mp hname
    exact ⟨_, rfl, rfl⟩

theorem putRate_normalized (number : Int) :
    normalizeRowOperation integerRows rateSchema (putRate (.number number)).toJson =
      .ok (putRate (.number number)) := rfl

theorem projection_mirrors_rates : ∃ state tables,
    [putRate (.number 1), putRate (.number 2)].foldlM (applyRowOperation integerRows rateSchema) rateState =
      .ok state ∧
    [putRate (.number 1), putRate (.number 2)].foldlM (projectRowOperation integerNumbers rateSchema integerRows)
      (fun _ => []) = .ok tables ∧
    ApplicationTables.Mirror integerNumbers rateSchema tables state := by
  have hinitial : createInitialDatabaseState rateSchema = .ok rateState := rfl
  have hrates : ∀ operation ∈ [putRate (.number 1), putRate (.number 2)],
      ∃ number, operation = putRate (.number number) := by
    rw [List.forall_mem_cons, List.forall_mem_singleton]
    exact ⟨⟨1, rfl⟩, 2, rfl⟩
  have hnormal : ∀ operation ∈ [putRate (.number 1), putRate (.number 2)],
      operation.Normal integerRows rateSchema := by
    intro operation hoperation
    obtain ⟨number, rfl⟩ := hrates operation hoperation
    exact normalizeRowOperation_normal rateSchema_keys (putRate_normalized number)
  have hplain : ∀ operation ∈ [putRate (.number 1), putRate (.number 2)],
      operation.PlainKey integerNumbers rateSchema := by
    intro operation hoperation table htable name hname column text _ _ htext
    obtain ⟨number, rfl⟩ := hrates operation hoperation
    have hrateTable : rateSchema.tables.get? (ascii "rates") = some rateTable := rfl
    obtain rfl := Option.some.inj (hrateTable.symm.trans htable)
    obtain rfl := List.mem_singleton.mp hname
    have hcode : (putRate (.number number)).values.get? (ascii "code") = some (.number number) := rfl
    exact absurd (hcode.symm.trans htext) (by simp)
  refine (projection_mirrors_iff rateSchema_keys hinitial integerFormat_lawful _ ?_).mpr ?_ _
    (List.prefix_refl _)
  · intro operation hoperation
    obtain ⟨number, rfl⟩ := hrates operation hoperation
    exact ⟨_, putRate_normalized number⟩
  · intro done operation hpart state hrun
    exact unambiguous_of_plainKeys (fun _ _ _ _ hsame => hsame) rateSchema_keys hinitial hnormal hplain hpart hrun

/-- The number one and the text `1` as codes: two rows of the state, but one row of the application table. -/
theorem projection_ambiguous : ∃ state tables,
    assertRowReplicationSchema rateSchema = .ok () ∧ rateSchema.NonNullKeys ∧
    normalizeRowOperation integerRows rateSchema (putRate (.number 1)).toJson = .ok (putRate (.number 1)) ∧
    normalizeRowOperation integerRows rateSchema (putRate (.string (ascii "1"))).toJson =
      .ok (putRate (.string (ascii "1"))) ∧
    createInitialDatabaseState rateSchema = .ok rateState ∧
    [putRate (.number 1), putRate (.string (ascii "1"))].foldlM (applyRowOperation integerRows rateSchema) rateState =
      .ok state ∧
    [putRate (.number 1), putRate (.string (ascii "1"))].foldlM
      (projectRowOperation integerNumbers rateSchema integerRows) (fun _ => []) = .ok tables ∧
    (state.rows (ascii "rates")).entries.length = 2 ∧ (tables (ascii "rates")).length = 1 ∧
    ¬ApplicationTables.Mirror integerNumbers rateSchema tables state := by
  refine ⟨_, _, rfl, rateSchema_keys, rfl, rfl, rfl, rfl, rfl, by decide +kernel, by decide +kernel, fun hmirror => ?_⟩
  have hlength := (hmirror (ascii "rates") rateTable rfl).length_eq
  exact absurd hlength (by decide +kernel)

end SyncEngine
