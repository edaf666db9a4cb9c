import SyncEngine.Proof.Rows

/-!
# What normalization accepts

An operation of a schema, described by the columns of its tables alone, against the operations that
`normalizeRowOperation` accepts. The two differ only through names that every object inherits: such a name
passes for a column, and a column of such a name is never found missing.
-/

namespace SyncEngine

open JavaScript Throwing

variable {ν : Type} {runtime : RowRuntime ν} {schema : ReplicaSchemaContract} {table : ReplicaTableContract}

/-! ### Operations of a schema -/

def FitsColumns (runtime : RowRuntime ν) (table : ReplicaTableContract) (row : List (Text × JsonValue ν)) : Prop :=
  ∀ column ∈ table.columns.entries, column.2.Accepts runtime ((ownField row column.1).getD .null)

/-- A row of a table: its keys are columns, and every column takes its value. -/
structure FitsRow (runtime : RowRuntime ν) (table : ReplicaTableContract) (row : List (Text × JsonValue ν)) : Prop where
  known : ∀ key ∈ row.map Prod.fst, table.columns.get? key ≠ none
  columns : FitsColumns runtime table row

/-- A key of a table: its keys are the columns of the primary key, with values other than `null`. -/
structure FitsKey (runtime : RowRuntime ν) (table : ReplicaTableContract) (key : List (Text × JsonValue ν)) : Prop where
  names : ∀ name, name ∈ key.map Prod.fst ↔ name ∈ table.primaryKey
  columns : ∀ name ∈ table.primaryKey, ∃ value column, ownField key name = some value ∧
    table.columns.get? name = some column ∧ value ≠ .null ∧ column.Accepts runtime value

/-- The value has a type, names a table of the schema, and has an object in a field. -/
def Requests (schema : ReplicaSchemaContract) (type field : String) (v : JsonValue ν) (tableName : Text)
    (table : ReplicaTableContract) (values : List (Text × JsonValue ν)) : Prop :=
  ∃ fields, v = .object fields ∧ ownField fields (ascii "table") = some (.string tableName) ∧
    ¬tableName.all isTrimmed ∧ schema.tables.get? tableName = some table ∧
    ownField fields (ascii "type") = some (.string (ascii type)) ∧ ownField fields (ascii field) = some (.object values)

/-- The value is an operation of the schema, which has exactly the columns of its table, in their order, or
those of the primary key. -/
inductive Admits (runtime : RowRuntime ν) (schema : ReplicaSchemaContract) (v : JsonValue ν) : RowOperation ν → Prop
  | putRow {tableName : Text} {table : ReplicaTableContract} {row : List (Text × JsonValue ν)} {record : RowRecord ν}
      (hrequests : Requests schema "putRow" "row" v tableName table row) (hfits : FitsRow runtime table row)
      (hrecord : record.entries = table.columns.entries.map fun column =>
        (column.1, (ownField row column.1).getD .null)) :
      Admits runtime schema v (.putRow tableName record)
  | deleteRow {tableName : Text} {table : ReplicaTableContract} {key : List (Text × JsonValue ν)}
      {record : PrimaryKeyRecord ν} (hrequests : Requests schema "deleteRow" "key" v tableName table key)
      (hfits : FitsKey runtime table key)
      (hrecord : record.entries = table.primaryKey.map fun name => (name, (ownField key name).getD .null)) :
      Admits runtime schema v (.deleteRow tableName record)

/-! ### Rows -/

theorem forall₂_map_iff {α β : Type} {f : α → β} {P : α → Prop} {l : List α} {l' : List β} :
    List.Forall₂ (fun a b => b = f a ∧ P a) l l' ↔ (∀ a ∈ l, P a) ∧ l' = l.map f := by
  induction l generalizing l' with
  | nil => simp [List.forall₂_nil_left_iff]
  | cons a l ih =>
      rw [List.forall₂_cons_left_iff, List.forall_mem_cons, List.map_cons]
      constructor
      · intro hparts
        obtain ⟨b, rest, ⟨hb, ha⟩, hrest, rfl⟩ := hparts
        rw [hb, (ih.mp hrest).2]
        exact ⟨⟨ha, (ih.mp hrest).1⟩, rfl⟩
      · intro hparts
        exact ⟨f a, l.map f, ⟨rfl, hparts.1.1⟩, ih.mpr ⟨hparts.1.2, rfl⟩, hparts.2⟩

theorem assertNoUnknownColumns_eq_ok {tableName : Text} {row : List (Text × JsonValue ν)} :
    assertNoUnknownColumns tableName table row = .ok () ↔
      ∀ key ∈ row.map Prod.fst, table.columns.get? key ≠ none ∨ key ∈ objectPrototypeMembers := by
  rw [assertNoUnknownColumns, throwIf_eq_ok, not_lt, Nat.le_zero, List.length_eq_zero_iff, List.filter_eq_nil_iff]
  apply forall₂_congr
  intro key _
  by_cases hinherited : key ∈ objectPrototypeMembers
  · simp [hinherited]
  · simp [hinherited]

/-- A row is normalized when its keys pass for columns and its columns, those that are not found missing
included, take their values. -/
theorem normalizeFullRow_eq_ok {tableName : Text} {row : List (Text × JsonValue ν)} {record : RowRecord ν} :
    normalizeFullRow runtime tableName (some table) (some (.object row)) = .ok record ↔
      (∀ key ∈ row.map Prod.fst, table.columns.get? key ≠ none ∨ key ∈ objectPrototypeMembers) ∧
      FitsColumns runtime table row ∧
      (∀ column ∈ table.columns.entries, column.1 ∈ objectPrototypeMembers → ownField row column.1 ≠ none) ∧
      record.entries = table.columns.entries.map fun column => (column.1, (ownField row column.1).getD .null) := by
  have hcolumns : List.Forall₂ (fun (column : Text × ReplicaColumnContract) entry => column.1 = entry.1 ∧
        normalizeRowColumn runtime tableName row column.1 column.2 = .ok entry.2)
        table.columns.entries record.entries ↔
      List.Forall₂ (fun column entry => entry = (column.1, (ownField row column.1).getD .null) ∧
        column.2.Accepts runtime ((ownField row column.1).getD .null) ∧
        (column.1 ∈ objectPrototypeMembers → ownField row column.1 ≠ none))
        table.columns.entries record.entries := by
    apply iff_of_eq
    congr 1
    funext column entry
    rw [normalizeRowColumn_eq_ok, Prod.ext_iff]
    apply propext
    tauto
  rw [normalizeFullRow, plainRecord, ok_bind, readContract, ok_bind, bind_unit_eq_ok, assertNoUnknownColumns_eq_ok,
    buildRecord_eq_ok table.columns.nodupKeys, hcolumns, forall₂_map_iff, FitsColumns]
  simp only [imp_and, forall_and, and_assoc]

/-! ### Keys -/

theorem normalizeKeyColumn_returns_iff {tableName columnName : Text} {key : List (Text × JsonValue ν)} :
    (∃ value, normalizeKeyColumn runtime tableName table ((ownField key columnName).map some) columnName =
        .ok value) ↔
      (table.columns.get? columnName = none → columnName ∈ objectPrototypeMembers) ∧
      ∃ value, ownField key columnName = some value ∧ value ≠ .null ∧
        ∀ column, table.columns.get? columnName = some column → column.Accepts runtime value := by
  constructor
  · intro hreturns
    obtain ⟨found, hfound⟩ := hreturns
    cases found with
    | none =>
        obtain ⟨hcolumn, hinherited, entry, hentry, hne⟩ := normalizeKeyColumn_eq_none.mp hfound
        obtain ⟨value, hvalue, rfl⟩ := Option.map_eq_some_iff.mp hentry
        exact ⟨fun _ => hinherited, value, hvalue, fun hnull => hne (hnull ▸ rfl), by simp [hcolumn]⟩
    | some value =>
        obtain ⟨hvalue, column, hcolumn, hne, haccepts⟩ := normalizeKeyColumn_eq_some.mp hfound
        refine ⟨by simp [hcolumn], value, ownEntry_eq_some.mp hvalue, hne, fun other hother => ?_⟩
        exact Option.some.inj (hcolumn.symm.trans hother) ▸ haccepts
  · intro hparts
    obtain ⟨hinherited, value, hvalue, hne, haccepts⟩ := hparts
    cases hcolumn : table.columns.get? columnName with
    | none =>
        refine ⟨none, normalizeKeyColumn_eq_none.mpr ⟨hcolumn, hinherited hcolumn, some value, ?_, ?_⟩⟩
        · exact ownEntry_eq_some.mpr hvalue
        · exact fun hnull => hne (Option.some.inj hnull)
    | some column =>
        refine ⟨some value, normalizeKeyColumn_eq_some.mpr ⟨?_, column, hcolumn, hne, haccepts column hcolumn⟩⟩
        exact ownEntry_eq_some.mpr hvalue

theorem normalizeKey_returns_iff {received : List Text} {entry : Text → Option (KeyEntry ν)} :
    (∃ record, normalizeKey runtime tableName (some table) received entry = .ok record) ↔
      received.Perm table.primaryKey ∧ ∀ name ∈ table.primaryKey, ∃ value,
        normalizeKeyColumn runtime tableName table (entry name) name = .ok value := by
  simp only [normalizeKey, readContract, ok_bind, bind_unit_eq_ok, throwIf_eq_ok, not_not,
    KeyedList.insertionSort_eq_iff_perm, exists_and_left, buildKey_returns_iff]

theorem normalizePrimaryKey_returns_iff {tableName : Text} {key : List (Text × JsonValue ν)} :
    (∃ record, normalizePrimaryKey runtime tableName (some table) (some (.object key)) = .ok record) ↔
      (key.map Prod.fst).Perm table.primaryKey ∧
      ∀ name ∈ table.primaryKey, ∃ value,
        normalizeKeyColumn runtime tableName table ((ownField key name).map some) name = .ok value := by
  rw [normalizePrimaryKey, plainRecord, ok_bind, normalizeKey_returns_iff]

theorem normalizePrimaryKey_eq_ok {tableName : Text} {key : List (Text × JsonValue ν)} {record : PrimaryKeyRecord ν}
    (hnodup : (key.map Prod.fst).Nodup) (hdistinct : table.primaryKey.Nodup)
    (hcolumns : ∀ name ∈ table.primaryKey, table.columns.get? name ≠ none) :
    normalizePrimaryKey runtime tableName (some table) (some (.object key)) = .ok record ↔
      FitsKey runtime table key ∧
        record.entries = table.primaryKey.map fun name => (name, (ownField key name).getD .null) := by
  have hvalues : ∀ name ∈ table.primaryKey,
      normalizeKeyColumn runtime tableName table ((ownField key name).map some) name ≠ .ok none :=
    fun name hname hnone => hcolumns name hname (normalizeKeyColumn_eq_none.mp hnone).1
  have hentries : List.Forall₂ (fun name (entry : Text × JsonValue ν) => name = entry.1 ∧
        normalizeKeyColumn runtime tableName table ((ownField key name).map some) name = .ok (some entry.2))
          table.primaryKey record.entries ↔
      List.Forall₂ (fun name entry => entry = (name, (ownField key name).getD .null) ∧
        ∃ value column, ownField key name = some value ∧ table.columns.get? name = some column ∧ value ≠ .null ∧
          column.Accepts runtime value) table.primaryKey record.entries := by
    apply iff_of_eq
    congr 1
    funext name entry
    rw [normalizeKeyColumn_eq_some, ownEntry_eq_some, Prod.ext_iff]
    apply propext
    constructor
    · intro hentry
      obtain ⟨hname, hvalue, column, hparts⟩ := hentry
      rw [hvalue]
      exact ⟨⟨hname.symm, rfl⟩, entry.2, column, rfl, hparts⟩
    · intro hentry
      obtain ⟨⟨hname, hsame⟩, value, column, hvalue, hparts⟩ := hentry
      rw [hvalue] at hsame
      rw [show entry.2 = value from hsame]
      exact ⟨hname.symm, hvalue, column, hparts⟩
  have hnames : (key.map Prod.fst).Perm table.primaryKey ↔
      ∀ name, name ∈ key.map Prod.fst ↔ name ∈ table.primaryKey := List.perm_ext_iff_of_nodup hnodup hdistinct
  rw [normalizePrimaryKey, plainRecord, ok_bind, normalizeKey, readContract, ok_bind, bind_unit_eq_ok,
    throwIf_eq_ok, not_not, KeyedList.insertionSort_eq_iff_perm, buildKey_eq_ok hdistinct hvalues, hentries,
    forall₂_map_iff, hnames]
  constructor
  · intro hparts
    exact ⟨⟨hparts.1, hparts.2.1⟩, hparts.2.2⟩
  · intro hparts
    exact ⟨hparts.1.names, hparts.1.columns, hparts.2⟩

/-! ### Inherited names -/

/-- If a row fits its table apart from names that every object inherits, then it has such a name besides the
columns exactly when it lacks a column of such a name. -/
def ReadsOwnColumns (runtime : RowRuntime ν) (table : ReplicaTableContract) (row : List (Text × JsonValue ν)) : Prop :=
  (∀ key ∈ row.map Prod.fst, table.columns.get? key ≠ none ∨ key ∈ objectPrototypeMembers) →
    FitsColumns runtime table row →
    ((∃ key ∈ row.map Prod.fst, table.columns.get? key = none) ↔
      ∃ column ∈ table.columns.entries, column.1 ∈ objectPrototypeMembers ∧ ownField row column.1 = none)

/-- If a key has the names of the primary key, with values other than `null` that fit the columns there are,
then every one of the names is a column. -/
def ReadsOwnKey (runtime : RowRuntime ν) (table : ReplicaTableContract) (key : List (Text × JsonValue ν)) : Prop :=
  (∀ name, name ∈ key.map Prod.fst ↔ name ∈ table.primaryKey) →
    (∀ name ∈ table.primaryKey, ∃ value, ownField key name = some value ∧ value ≠ .null ∧
      ∀ column, table.columns.get? name = some column → column.Accepts runtime value) →
    ∀ name ∈ table.primaryKey, table.columns.get? name ≠ none

theorem normalizeFullRow_exact_iff {tableName : Text} {row : List (Text × JsonValue ν)} :
    (∀ record : RowRecord ν, normalizeFullRow runtime tableName (some table) (some (.object row)) = .ok record ↔
      FitsRow runtime table row ∧ record.entries = table.columns.entries.map fun column =>
        (column.1, (ownField row column.1).getD .null)) ↔ ReadsOwnColumns runtime table row := by
  have hnodup : ((table.columns.entries.map fun column =>
      (column.1, (ownField row column.1).getD JsonValue.null)).map Prod.fst).Nodup := by
    rw [List.map_map]
    exact table.columns.nodupKeys
  simp only [normalizeFullRow_eq_ok]
  constructor
  · intro hexact hkeys hcolumns
    have hsame := hexact ⟨_, hnodup⟩
    constructor
    · intro hsurplus
      obtain ⟨key, hkey, hunknown⟩ := hsurplus
      by_contra hpresent
      push Not at hpresent
      exact (hsame.mp ⟨hkeys, hcolumns, hpresent, rfl⟩).1.known key hkey hunknown
    · intro hmissing
      obtain ⟨column, hcolumn, hinherited, hnone⟩ := hmissing
      by_contra hknown
      push Not at hknown
      exact (hsame.mpr ⟨⟨hknown, hcolumns⟩, rfl⟩).2.2.1 column hcolumn hinherited hnone
  · intro hown record
    constructor
    · intro hrecord
      obtain ⟨hkeys, hcolumns, hpresent, hentries⟩ := hrecord
      refine ⟨⟨fun key hkey hunknown => ?_, hcolumns⟩, hentries⟩
      obtain ⟨column, hcolumn, hinherited, hnone⟩ := (hown hkeys hcolumns).mp ⟨key, hkey, hunknown⟩
      exact hpresent column hcolumn hinherited hnone
    · intro hrecord
      obtain ⟨hfits, hentries⟩ := hrecord
      refine ⟨fun key hkey => .inl (hfits.known key hkey), hfits.columns, fun column hcolumn hinherited hnone => ?_,
        hentries⟩
      obtain ⟨key, hkey, hunknown⟩ := (hown (fun key hkey => .inl (hfits.known key hkey)) hfits.columns).mpr
        ⟨column, hcolumn, hinherited, hnone⟩
      exact hfits.known key hkey hunknown

theorem normalizePrimaryKey_exact_iff {tableName : Text} {key : List (Text × JsonValue ν)}
    (hnodup : (key.map Prod.fst).Nodup) (hdistinct : table.primaryKey.Nodup)
    (hprimary : ∀ name ∈ table.primaryKey, table.columns.get? name = none → name ∈ objectPrototypeMembers) :
    (∀ record : PrimaryKeyRecord ν,
      normalizePrimaryKey runtime tableName (some table) (some (.object key)) = .ok record ↔
        FitsKey runtime table key ∧
          record.entries = table.primaryKey.map fun name => (name, (ownField key name).getD .null)) ↔
      ReadsOwnKey runtime table key := by
  have hnames : (key.map Prod.fst).Perm table.primaryKey ↔
      ∀ name, name ∈ key.map Prod.fst ↔ name ∈ table.primaryKey := List.perm_ext_iff_of_nodup hnodup hdistinct
  constructor
  · intro hexact hsame hvalues name hname
    obtain ⟨record, hrecord⟩ := normalizePrimaryKey_returns_iff.mpr ⟨hnames.mpr hsame, fun name hname =>
      normalizeKeyColumn_returns_iff.mpr ⟨hprimary name hname, hvalues name hname⟩⟩
    obtain ⟨_, column, -, hcolumn, -⟩ := ((hexact record).mp hrecord).1.columns name hname
    simp [hcolumn]
  · intro hown record
    constructor
    · intro hrecord
      obtain ⟨hperm, hvalues⟩ := normalizePrimaryKey_returns_iff.mp ⟨record, hrecord⟩
      have hcolumns := hown (hnames.mp hperm) fun name hname =>
        (normalizeKeyColumn_returns_iff.mp (hvalues name hname)).2
      exact (normalizePrimaryKey_eq_ok hnodup hdistinct hcolumns).mp hrecord
    · intro hrecord
      have hcolumns : ∀ name ∈ table.primaryKey, table.columns.get? name ≠ none := by
        intro name hname
        obtain ⟨_, column, -, hcolumn, -⟩ := hrecord.1.columns name hname
        simp [hcolumn]
      exact (normalizePrimaryKey_eq_ok hnodup hdistinct hcolumns).mpr hrecord

/-! ### Operations -/

variable {v : JsonValue ν} {tableName : Text}

theorem Requests.unique {type field : String} {table' : ReplicaTableContract}
    {values values' : List (Text × JsonValue ν)}
    (h : Requests schema type field v tableName table values)
    (h' : Requests schema type field v tableName table' values') : table = table' ∧ values = values' := by
  obtain ⟨fields, rfl, -, -, htable, -, hvalues⟩ := h
  obtain ⟨fields', hfields, -, -, htable', -, hvalues'⟩ := h'
  obtain rfl := JsonValue.object.inj hfields
  refine ⟨Option.some.inj (htable.symm.trans htable'), ?_⟩
  exact JsonValue.object.inj (Option.some.inj (hvalues.symm.trans hvalues'))

theorem requireTable_eq {table' : Option ReplicaTableContract} {use : UndefinedUse}
    (htable : requireTable schema tableName = .ok table') (hcontract : readContract table' use = .ok table) :
    schema.tables.get? tableName = some table ∧ table' = some table := by
  have hget := requireTable_contract htable hcontract
  rw [requireTable_of_get? hget, Except.ok.injEq] at htable
  exact ⟨hget, htable.symm⟩

theorem normalizeRowOperation_eq_putRow {record : RowRecord ν} :
    normalizeRowOperation runtime schema v = .ok (.putRow tableName record) ↔
      ∃ table row, Requests schema "putRow" "row" v tableName table row ∧
        normalizeFullRow runtime tableName (some table) (some (.object row)) = .ok record := by
  constructor
  · intro h
    obtain ⟨fields, hfields, h⟩ := bind_eq_ok.mp h
    obtain ⟨name, hname, h⟩ := bind_eq_ok.mp h
    obtain ⟨table', htable, h⟩ := bind_eq_ok.mp h
    rw [plainRecord_eq_ok, Option.some.injEq] at hfields
    rw [RowOperation.readNonEmptyString_eq_ok] at hname
    dsimp only at h
    split at h
    · rename_i type htype
      split at h
      · rename_i hput
        obtain ⟨normalized, hnormalized, h⟩ := bind_eq_ok.mp h
        obtain ⟨rfl, rfl⟩ := RowOperation.putRow.inj (Except.ok.inj h)
        obtain ⟨row, hrow, hrest⟩ := bind_eq_ok.mp hnormalized
        obtain ⟨table, hcontract, -⟩ := bind_eq_ok.mp hrest
        rw [plainRecord_eq_ok] at hrow
        obtain ⟨hget, rfl⟩ := requireTable_eq htable hcontract
        exact ⟨table, row, ⟨fields, hfields, hname.1, hname.2, hget, hput ▸ htype, hrow⟩, hrow ▸ hnormalized⟩
      · split at h
        · obtain ⟨normalized, -, h⟩ := bind_eq_ok.mp h
          simp at h
        · simp at h
    · simp at h
    · simp at h
  · intro h
    obtain ⟨table, row, ⟨fields, rfl, hname, hblank, hget, htype, hrow⟩, hnormalized⟩ := h
    refine bind_eq_ok.mpr ⟨fields, rfl, bind_eq_ok.mpr ⟨tableName, ?_, bind_eq_ok.mpr ⟨some table, ?_, ?_⟩⟩⟩
    · exact RowOperation.readNonEmptyString_eq_ok.mpr ⟨hname, hblank⟩
    · exact requireTable_of_get? hget
    · dsimp only
      rw [htype]
      dsimp only
      rw [if_pos rfl, hrow, hnormalized]
      rfl

theorem normalizeRowOperation_eq_deleteRow {record : PrimaryKeyRecord ν} :
    normalizeRowOperation runtime schema v = .ok (.deleteRow tableName record) ↔
      ∃ table key, Requests schema "deleteRow" "key" v tableName table key ∧
        normalizePrimaryKey runtime tableName (some table) (some (.object key)) = .ok record := by
  constructor
  · intro h
    obtain ⟨fields, hfields, h⟩ := bind_eq_ok.mp h
    obtain ⟨name, hname, h⟩ := bind_eq_ok.mp h
    obtain ⟨table', htable, h⟩ := bind_eq_ok.mp h
    rw [plainRecord_eq_ok, Option.some.injEq] at hfields
    rw [RowOperation.readNonEmptyString_eq_ok] at hname
    dsimp only at h
    split at h
    · rename_i type htype
      split at h
      · obtain ⟨normalized, -, h⟩ := bind_eq_ok.mp h
        simp at h
      · split at h
        · rename_i hdelete
          obtain ⟨normalized, hnormalized, h⟩ := bind_eq_ok.mp h
          obtain ⟨rfl, rfl⟩ := RowOperation.deleteRow.inj (Except.ok.inj h)
          obtain ⟨key, hkey, hrest⟩ := bind_eq_ok.mp hnormalized
          obtain ⟨table, hcontract, -⟩ := bind_eq_ok.mp hrest
          rw [plainRecord_eq_ok] at hkey
          obtain ⟨hget, rfl⟩ := requireTable_eq htable hcontract
          exact ⟨table, key, ⟨fields, hfields, hname.1, hname.2, hget, hdelete ▸ htype, hkey⟩, hkey ▸ hnormalized⟩
        · simp at h
    · simp at h
    · simp at h
  · intro h
    obtain ⟨table, key, ⟨fields, rfl, hname, hblank, hget, htype, hkey⟩, hnormalized⟩ := h
    refine bind_eq_ok.mpr ⟨fields, rfl, bind_eq_ok.mpr ⟨tableName, ?_, bind_eq_ok.mpr ⟨some table, ?_, ?_⟩⟩⟩
    · exact RowOperation.readNonEmptyString_eq_ok.mpr ⟨hname, hblank⟩
    · exact requireTable_of_get? hget
    · dsimp only
      rw [htype]
      dsimp only
      rw [if_neg (by decide), if_pos rfl, hkey, hnormalized]
      rfl

/-- The names that decide about the value are own names: those of the row or the key that it requests. -/
structure ReadsOwnNames (runtime : RowRuntime ν) (schema : ReplicaSchemaContract) (v : JsonValue ν) : Prop where
  columns : ∀ tableName table row, Requests schema "putRow" "row" v tableName table row →
    ReadsOwnColumns runtime table row
  key : ∀ tableName table key, Requests schema "deleteRow" "key" v tableName table key →
    ReadsOwnKey runtime table key

theorem primaryKey_of_supported (hsupported : assertRowReplicationSchema schema = .ok ())
    (htable : schema.tables.get? tableName = some table) :
    ∀ name ∈ table.primaryKey, table.columns.get? name = none → name ∈ objectPrototypeMembers := by
  have hchecks := forall_of_forM_eq_ok hsupported _ (schema.tables.mem_of_get?_eq_some htable)
  obtain ⟨-, hchecks⟩ := bind_unit_eq_ok.mp hchecks
  obtain ⟨hcolumns, -⟩ := bind_unit_eq_ok.mp hchecks
  intro name hname hnone
  have hcolumn := forall_of_forM_eq_ok hcolumns name hname
  rw [throwIf_eq_ok, Option.isNone_iff_eq_none, not_and, not_not] at hcolumn
  exact hcolumn hnone

theorem Requests.nodup {numbers : NumberFormat ν} {type field : String} {values : List (Text × JsonValue ν)}
    (h : Requests schema type field v tableName table values) (hv : v.Valid numbers) :
    (values.map Prod.fst).Nodup := by
  obtain ⟨fields, rfl, -, -, -, -, hvalues⟩ := h
  cases hv with
  | object _ hfields =>
      rw [ownField, Option.map_eq_some_iff] at hvalues
      obtain ⟨found, hfind, hvalue⟩ := hvalues
      have hvalid := hfields found (List.mem_of_find?_eq_some hfind)
      rw [hvalue] at hvalid
      cases hvalid with
      | object hnodup _ => exact hnodup

/-! Where a row is requested, both sides are about that row; likewise for a key. -/

section Requested

variable {values : List (Text × JsonValue ν)}

theorem Requests.normalize_putRow {record : RowRecord ν}
    (h : Requests schema "putRow" "row" v tableName table values) :
    normalizeRowOperation runtime schema v = .ok (.putRow tableName record) ↔
      normalizeFullRow runtime tableName (some table) (some (.object values)) = .ok record := by
  rw [normalizeRowOperation_eq_putRow]
  constructor
  · intro hfound
    obtain ⟨table', values', h', hnormalized⟩ := hfound
    obtain ⟨rfl, rfl⟩ := h.unique h'
    exact hnormalized
  · intro hnormalized
    exact ⟨table, values, h, hnormalized⟩

theorem Requests.admits_putRow {record : RowRecord ν} (h : Requests schema "putRow" "row" v tableName table values) :
    Admits runtime schema v (.putRow tableName record) ↔ FitsRow runtime table values ∧
      record.entries = table.columns.entries.map fun column => (column.1, (ownField values column.1).getD .null) := by
  constructor
  · intro hadmits
    cases hadmits with
    | putRow h' hfits hrecord =>
        obtain ⟨rfl, rfl⟩ := h.unique h'
        exact ⟨hfits, hrecord⟩
  · intro hparts
    exact .putRow h hparts.1 hparts.2

theorem Requests.normalize_deleteRow {record : PrimaryKeyRecord ν}
    (h : Requests schema "deleteRow" "key" v tableName table values) :
    normalizeRowOperation runtime schema v = .ok (.deleteRow tableName record) ↔
      normalizePrimaryKey runtime tableName (some table) (some (.object values)) = .ok record := by
  rw [normalizeRowOperation_eq_deleteRow]
  constructor
  · intro hfound
    obtain ⟨table', values', h', hnormalized⟩ := hfound
    obtain ⟨rfl, rfl⟩ := h.unique h'
    exact hnormalized
  · intro hnormalized
    exact ⟨table, values, h, hnormalized⟩

theorem Requests.admits_deleteRow {record : PrimaryKeyRecord ν}
    (h : Requests schema "deleteRow" "key" v tableName table values) :
    Admits runtime schema v (.deleteRow tableName record) ↔ FitsKey runtime table values ∧
      record.entries = table.primaryKey.map fun name => (name, (ownField values name).getD .null) := by
  constructor
  · intro hadmits
    cases hadmits with
    | deleteRow h' hfits hrecord =>
        obtain ⟨rfl, rfl⟩ := h.unique h'
        exact ⟨hfits, hrecord⟩
  · intro hparts
    exact .deleteRow h hparts.1 hparts.2

theorem Requests.readsOwnColumns_iff (h : Requests schema "putRow" "row" v tableName table values) :
    (∀ record, normalizeRowOperation runtime schema v = .ok (.putRow tableName record) ↔
      Admits runtime schema v (.putRow tableName record)) ↔ ReadsOwnColumns runtime table values := by
  simp only [h.normalize_putRow, h.admits_putRow]
  exact normalizeFullRow_exact_iff

theorem Requests.readsOwnKey_iff (h : Requests schema "deleteRow" "key" v tableName table values)
    (hsupported : assertRowReplicationSchema schema = .ok ())
    (hdistinct : ∀ table ∈ schema.tables.entries, table.2.primaryKey.Nodup) {numbers : NumberFormat ν}
    (hv : v.Valid numbers) :
    (∀ record, normalizeRowOperation runtime schema v = .ok (.deleteRow tableName record) ↔
      Admits runtime schema v (.deleteRow tableName record)) ↔ ReadsOwnKey runtime table values := by
  have htable : schema.tables.get? tableName = some table := by
    obtain ⟨fields, -, -, -, htable, -⟩ := h
    exact htable
  simp only [h.normalize_deleteRow, h.admits_deleteRow]
  exact normalizePrimaryKey_exact_iff (h.nodup hv) (hdistinct _ (schema.tables.mem_of_get?_eq_some htable))
    (primaryKey_of_supported hsupported htable)

end Requested

/-- Normalization accepts exactly the operations of the schema, and returns them, when no name that every
object inherits decides about the value. -/
theorem normalizeRowOperation_admits_iff (hsupported : assertRowReplicationSchema schema = .ok ())
    (hdistinct : ∀ table ∈ schema.tables.entries, table.2.primaryKey.Nodup) {numbers : NumberFormat ν}
    (hv : v.Valid numbers) :
    (∀ operation, normalizeRowOperation runtime schema v = .ok operation ↔ Admits runtime schema v operation) ↔
      ReadsOwnNames runtime schema v := by
  constructor
  · intro hexact
    constructor
    · intro tableName table row hrequests
      exact hrequests.readsOwnColumns_iff.mp fun record => hexact _
    · intro tableName table key hrequests
      exact (hrequests.readsOwnKey_iff hsupported hdistinct hv).mp fun record => hexact _
  · intro hown operation
    cases operation with
    | putRow tableName record =>
        constructor
        · intro h
          obtain ⟨table, row, hrequests, -⟩ := normalizeRowOperation_eq_putRow.mp h
          exact (hrequests.readsOwnColumns_iff.mpr (hown.columns _ _ _ hrequests) record).mp h
        · intro h
          cases id h with
          | putRow hrequests _ _ =>
              exact (hrequests.readsOwnColumns_iff.mpr (hown.columns _ _ _ hrequests) record).mpr h
    | deleteRow tableName record =>
        constructor
        · intro h
          obtain ⟨table, key, hrequests, -⟩ := normalizeRowOperation_eq_deleteRow.mp h
          exact ((hrequests.readsOwnKey_iff hsupported hdistinct hv).mpr (hown.key _ _ _ hrequests) record).mp h
        · intro h
          cases id h with
          | deleteRow hrequests _ _ =>
              exact ((hrequests.readsOwnKey_iff hsupported hdistinct hv).mpr (hown.key _ _ _ hrequests) record).mpr h

theorem readsOwnNames_of_plain (hcolumns : ∀ table ∈ schema.tables.entries, ∀ column ∈ table.2.columns.entries,
      column.1 ∉ objectPrototypeMembers)
    (hprimary : ∀ table ∈ schema.tables.entries, ∀ name ∈ table.2.primaryKey, table.2.columns.get? name ≠ none)
    (hrow : ∀ tableName table row, Requests schema "putRow" "row" v tableName table row →
      ∀ key ∈ row.map Prod.fst, key ∉ objectPrototypeMembers) : ReadsOwnNames runtime schema v := by
  constructor
  · intro tableName table row hrequests hkeys _
    obtain ⟨fields, -, -, -, htable, -⟩ := id hrequests
    constructor
    · intro hsurplus
      obtain ⟨key, hkey, hunknown⟩ := hsurplus
      exact absurd ((hkeys key hkey).resolve_left fun hne => hne hunknown) (hrow _ _ _ hrequests key hkey)
    · intro hmissing
      obtain ⟨column, hcolumn, hinherited, -⟩ := hmissing
      exact absurd hinherited (hcolumns _ (schema.tables.mem_of_get?_eq_some htable) column hcolumn)
  · intro tableName table key hrequests _ _
    obtain ⟨fields, -, -, -, htable, -⟩ := hrequests
    exact hprimary _ (schema.tables.mem_of_get?_eq_some htable)

def noteValue (row : List (Text × JsonValue (Fin 10))) : JsonValue (Fin 10) :=
  .object [
    (ascii "type", .string (ascii "putRow")),
    (ascii "table", .string (ascii "notes")),
    (ascii "row", .object row)]

theorem noteValue_valid {row : List (Text × JsonValue (Fin 10))} (hkeys : (row.map Prod.fst).Nodup)
    (hrow : ∀ field ∈ row, field.2.Valid noteRuntime.toNumberFormat) :
    (noteValue row).Valid noteRuntime.toNumberFormat := by
  apply JsonValue.Valid.object (by simp only [List.map_cons, List.map_nil]; decide)
  simp only [List.forall_mem_cons]
  exact ⟨.string _, .string _, .object hkeys hrow, by simp⟩

theorem normalizeRowOperation_admits_note :
    normalizeRowOperation noteRuntime noteSchema (noteValue [(ascii "id", .number 1)]) = .ok (putNote 1) ∧
    Admits noteRuntime noteSchema (noteValue [(ascii "id", .number 1)]) (putNote 1) := by
  have hown : ReadsOwnNames noteRuntime noteSchema (noteValue [(ascii "id", .number 1)]) := by
    apply readsOwnNames_of_plain (by decide) (by decide)
    intro tableName table row hrequests
    obtain ⟨fields, hfields, -, -, -, -, hrow⟩ := hrequests
    obtain rfl := JsonValue.object.inj hfields
    have hsame : [(ascii "id", JsonValue.number (1 : Fin 10))] = row := JsonValue.object.inj (Option.some.inj hrow)
    rw [← hsame]
    decide
  have hnormalized : normalizeRowOperation noteRuntime noteSchema (noteValue [(ascii "id", .number 1)]) =
    .ok (putNote 1) := rfl
  have hvalid : (noteValue [(ascii "id", .number 1)]).Valid noteRuntime.toNumberFormat :=
    noteValue_valid (by decide) (by simp [JsonValue.Valid.number, noteRuntime, digitRuntime])
  exact ⟨hnormalized, ((normalizeRowOperation_admits_iff rfl (by decide) hvalid).mpr hown (putNote 1)).mp hnormalized⟩

/-- A note with a column `toString`, which the table has not: it is accepted, and the column is dropped. -/
theorem normalizeRowOperation_surplus : assertRowReplicationSchema noteSchema = .ok () ∧
    (∀ table ∈ noteSchema.tables.entries, table.2.primaryKey.Nodup) ∧
    (noteValue [(ascii "id", .number 1), (ascii "toString", .number 5)]).Valid noteRuntime.toNumberFormat ∧
    normalizeRowOperation noteRuntime noteSchema
      (noteValue [(ascii "id", .number 1), (ascii "toString", .number 5)]) = .ok (putNote 1) ∧
    ¬∃ operation, Admits noteRuntime noteSchema
      (noteValue [(ascii "id", .number 1), (ascii "toString", .number 5)]) operation := by
  refine ⟨rfl, by decide, noteValue_valid (by decide) ?_, rfl, fun hadmits => ?_⟩
  · simp [JsonValue.Valid.number, noteRuntime, digitRuntime]
  · obtain ⟨operation, hadmits⟩ := hadmits
    cases hadmits with
    | @putRow tableName table row record hrequests hfits _ =>
        obtain ⟨fields, hfields, hname, -, htable, -, hrow⟩ := hrequests
        obtain rfl := JsonValue.object.inj hfields
        have hsame : [(ascii "id", JsonValue.number (1 : Fin 10)), (ascii "toString", .number 5)] = row :=
          JsonValue.object.inj (Option.some.inj hrow)
        obtain rfl : ascii "notes" = tableName := JsonValue.string.inj (Option.some.inj hname)
        have hcolumns : noteColumns = table.columns :=
          congrArg ReplicaTableContract.columns (Option.some.inj (show some _ = some table from htable))
        apply hfits.known (ascii "toString")
        · rw [← hsame]
          decide
        · rw [← hcolumns]
          decide
    | deleteRow hrequests _ _ =>
        obtain ⟨fields, hfields, -, -, -, htype, -⟩ := hrequests
        obtain rfl := JsonValue.object.inj hfields
        exact absurd (JsonValue.string.inj (Option.some.inj htype)) (by decide)

end SyncEngine
