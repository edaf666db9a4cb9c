import SyncEngine.Model.RowOperations
import SyncEngine.Proof.Continuity
import SyncEngine.Proof.Fingerprint

/-!
# The row runtime

Normalization gives an operation whose values its columns accept as they are, and leaves such an operation
alone. On a state of the schema it can be applied. So the row interpreters accept what a client has
normalized as it was proposed.
-/

namespace SyncEngine

open JavaScript Throwing

variable {ν : Type}

/-! ### Records -/

section Records

variable {α β ε : Type} {name : α → Text} {value : α → Except ε β}

theorem foldlM_set_eq_ok {items : List α} {record result : JsRecord β}
    (hnodup : (record.entries.map Prod.fst ++ items.map name).Nodup) :
    items.foldlM (fun record item => do return record.set (name item) (← value item)) record = .ok result ↔
      ∃ entries, result.entries = record.entries ++ entries ∧
        List.Forall₂ (fun item entry => name item = entry.1 ∧ value item = .ok entry.2) items entries := by
  induction items generalizing record with
  | nil =>
      rw [List.foldlM_nil, pure_eq_ok, Except.ok.injEq]
      constructor
      · intro hsame
        exact ⟨[], by rw [hsame, List.append_nil], .nil⟩
      · intro hentries
        obtain ⟨entries, hentries, hnil⟩ := hentries
        cases hnil
        exact InsertionMap.ext (by rw [hentries, List.append_nil])
  | cons item items ih =>
      rw [List.map_cons] at hnodup
      have hfresh : record.get? (name item) = none := by
        rw [InsertionMap.get?_eq_none_iff]
        exact fun hmem => (List.nodup_append.mp hnodup).2.2 _ hmem _ List.mem_cons_self rfl
      have hrest : ∀ v, ((record.set (name item) v).entries.map Prod.fst ++ items.map name).Nodup := by
        intro v
        rw [InsertionMap.entries_set_of_fresh _ _ _ hfresh, List.map_append, List.append_assoc]
        exact hnodup
      rw [List.foldlM_cons, bind_eq_ok]
      constructor
      · intro hloop
        obtain ⟨next, hfirst, hloop⟩ := hloop
        obtain ⟨v, hv, hnext⟩ := bind_eq_ok.mp hfirst
        obtain rfl := Except.ok.inj hnext
        obtain ⟨entries, hentries, hall⟩ := (ih (hrest v)).mp hloop
        rw [InsertionMap.entries_set_of_fresh _ _ _ hfresh, List.append_assoc] at hentries
        exact ⟨(name item, v) :: entries, hentries, .cons ⟨rfl, hv⟩ hall⟩
      · intro hentries
        obtain ⟨entries, hentries, hall⟩ := hentries
        cases hall with
        | @cons _ entry _ entries hitem hall =>
            obtain ⟨hname, hvalue⟩ := hitem
            refine ⟨record.set (name item) entry.2, by rw [hvalue]; rfl, (ih (hrest entry.2)).mpr ⟨entries, ?_, hall⟩⟩
            rw [InsertionMap.entries_set_of_fresh _ _ _ hfresh, List.append_assoc, hentries, hname]
            rfl

/-- A record that is built under distinct names has an entry for each item, in order. -/
theorem buildRecord_eq_ok {items : List α} {record : JsRecord β} (hnodup : (items.map name).Nodup) :
    buildRecord items name value = .ok record ↔
      List.Forall₂ (fun item entry => name item = entry.1 ∧ value item = .ok entry.2) items record.entries := by
  rw [buildRecord, foldlM_set_eq_ok (by simpa [InsertionMap.empty] using hnodup)]
  constructor
  · intro hbuilt
    obtain ⟨entries, hentries, hall⟩ := hbuilt
    rw [show record.entries = entries from hentries]
    exact hall
  · intro hall
    exact ⟨record.entries, rfl, hall⟩

theorem buildRecord_id_eq_ok {names : List Text} {value : Text → Except ε β} {record : JsRecord β}
    (hnodup : names.Nodup) : buildRecord names id value = .ok record ↔
      List.Forall₂ (fun name entry => name = entry.1 ∧ value name = .ok entry.2) names record.entries :=
  buildRecord_eq_ok (by rwa [List.map_id])

/-- A key that is built of JSON values has an entry for each name, in order. -/
theorem buildKey_eq_ok {names : List Text} {value : Text → Except RowError (Option β)} {record : JsRecord β}
    (hnodup : names.Nodup) (hvalues : ∀ name ∈ names, value name ≠ .ok none) :
    buildKey names value = .ok record ↔
      List.Forall₂ (fun name entry => name = entry.1 ∧ value name = .ok (some entry.2)) names record.entries := by
  let required : Text → Except RowError β := fun name => do (← value name).elim (.error (.typeError .entries)) .ok
  have hrequired : ∀ name v, required name = .ok v ↔ value name = .ok (some v) := by
    intro name v
    simp only [required]
    cases value name with
    | error => simp
    | ok found => cases found <;> simp
  have hsame : buildKey names value = buildRecord names id required := by
    refine foldlM_congr (fun name hname record => ?_) _
    have hsome := hvalues name hname
    simp only [required, setKey]
    cases hvalue : value name with
    | error => rfl
    | ok found =>
        cases found with
        | none => exact absurd hvalue hsome
        | some v => rfl
  rw [hsame, buildRecord_id_eq_ok hnodup]
  simp only [hrequired]

theorem foldlM_setKey_returns_iff {names : List Text} {value : Text → Except ε (Option β)} (start : JsRecord β) :
    (∃ record, names.foldlM (setKey value) start = .ok record) ↔ ∀ name ∈ names, ∃ v, value name = .ok v := by
  induction names generalizing start with
  | nil => simp
  | cons name names ih =>
      rw [List.foldlM_cons, List.forall_mem_cons, setKey]
      cases hvalue : value name with
      | error e => simp
      | ok found =>
          cases found with
          | none => exact (ih start).trans (by simp)
          | some v => exact (ih (start.set name v)).trans (by simp)

theorem buildKey_returns_iff {names : List Text} {value : Text → Except ε (Option β)} :
    (∃ record, buildKey names value = .ok record) ↔ ∀ name ∈ names, ∃ v, value name = .ok v :=
  foldlM_setKey_returns_iff _

theorem value_of_mem_foldlM_setKey {names : List Text} {value : Text → Except ε (Option β)}
    {start record : JsRecord β} (hstart : ∀ entry ∈ start.entries, value entry.1 = .ok (some entry.2))
    (h : names.foldlM (setKey value) start = .ok record) :
    ∀ entry ∈ record.entries, value entry.1 = .ok (some entry.2) := by
  induction names generalizing start with
  | nil =>
      rw [List.foldlM_nil, pure_eq_ok, Except.ok.injEq] at h
      exact h ▸ hstart
  | cons name names ih =>
      rw [List.foldlM_cons] at h
      obtain ⟨next, hfirst, h⟩ := bind_eq_ok.mp h
      obtain ⟨found, hfound, hnext⟩ := bind_eq_ok.mp hfirst
      apply ih _ h
      cases found with
      | none => exact Except.ok.inj hnext ▸ hstart
      | some v =>
          rw [← Except.ok.inj hnext]
          intro entry hentry
          cases (start.mem_entries_set name v).mp hentry with
          | inl hnew => rw [hnew, hfound]
          | inr hold => exact hstart entry hold.1

theorem value_of_mem_buildKey {names : List Text} {value : Text → Except ε (Option β)} {record : JsRecord β}
    (h : buildKey names value = .ok record) : ∀ entry ∈ record.entries, value entry.1 = .ok (some entry.2) :=
  value_of_mem_foldlM_setKey (fun _ hmem => absurd hmem List.not_mem_nil) h

end Records

/-- Lists that correspond element by element correspond in every way that their elements do. -/
theorem forall₂_imp_mem {α β : Type} {R S : α → β → Prop} {l : List α} {l' : List β} (h : List.Forall₂ R l l')
    (himp : ∀ a ∈ l, ∀ b ∈ l', R a b → S a b) : List.Forall₂ S l l' := by
  induction h with
  | nil => exact .nil
  | cons hfirst _ ih =>
      refine .cons (himp _ List.mem_cons_self _ List.mem_cons_self hfirst) (ih fun a ha b hb => ?_)
      exact himp a (List.mem_cons_of_mem _ ha) b (List.mem_cons_of_mem _ hb)

theorem exists_of_forall₂ {α β : Type} {R : α → β → Prop} {l : List α} {l' : List β} (h : List.Forall₂ R l l')
    {a : α} (ha : a ∈ l) : ∃ b ∈ l', R a b := by
  induction h with
  | nil => exact absurd ha List.not_mem_nil
  | cons hfirst _ ih =>
      rcases List.mem_cons.mp ha with rfl | hrest
      · exact ⟨_, List.mem_cons_self, hfirst⟩
      · obtain ⟨b, hb, hab⟩ := ih hrest
        exact ⟨b, List.mem_cons_of_mem _ hb, hab⟩

theorem map_eq_map_of_forall₂ {α β γ : Type} {f : α → γ} {g : β → γ} {l : List α} {l' : List β}
    (h : List.Forall₂ (fun a b => f a = g b) l l') : l.map f = l'.map g := by
  induction h with
  | nil => rfl
  | cons hfirst _ ih => rw [List.map_cons, List.map_cons, hfirst, ih]

theorem map_fst_zipIdx {α β : Type} (l : List α) (f : α → β) : (l.zipIdx.map fun item => f item.1) = l.map f := by
  conv_rhs => rw [← List.zipIdx_map_fst 0 l, List.map_map]
  rfl

/-! ### Columns -/

def ReplicaColumnContract.Accepts (runtime : RowRuntime ν) (column : ReplicaColumnContract) : JsonValue ν → Prop
  | .null => column.nullable
  | .number number =>
      (column.affinity = .integer ∨ column.affinity = .real ∨ column.affinity = .numeric) ∧ runtime.isFinite number
  | .string _ => column.affinity = .text ∨ column.affinity = .numeric
  | .array items => column.affinity = .blob ∧ ∀ item ∈ items, ∃ byte, item = .number byte ∧ runtime.isByte byte
  | .boolean _ | .object _ => False

theorem guarded_eq_ok {α ε : Type} {P : Prop} [Decidable P] {error : ε} {a result : α} :
    (throwIf (¬P) error >>= fun _ => Except.ok a) = .ok result ↔ result = a ∧ P := by
  rw [bind_unit_eq_ok, throwIf_eq_ok, not_not, Except.ok.injEq, eq_comm, and_comm]

/-- A column returns the values that it takes, as they are. -/
theorem normalizeColumnValue_eq_ok {runtime : RowRuntime ν} {tableName columnName : Text}
    {column : ReplicaColumnContract} {value result : JsonValue ν} :
    normalizeColumnValue runtime tableName columnName column value = .ok result ↔
      result = value ∧ column.Accepts runtime value := by
  obtain ⟨affinity, nullable, generated⟩ := column
  cases value with
  | null => exact guarded_eq_ok
  | boolean value => cases affinity <;> simp [normalizeColumnValue, ReplicaColumnContract.Accepts]
  | number number =>
      cases affinity with
      | integer | real | numeric =>
          refine guarded_eq_ok.trans ?_
          simp [ReplicaColumnContract.Accepts]
      | text | blob => simp [normalizeColumnValue, ReplicaColumnContract.Accepts]
  | string text =>
      have hsame : (Except.ok (JsonValue.string text) : Except RowError _) = .ok result ↔
          result = .string text := by rw [Except.ok.injEq, eq_comm]
      cases affinity with
      | text | numeric => exact hsame.trans (by simp [ReplicaColumnContract.Accepts])
      | integer | real | blob => simp [normalizeColumnValue, ReplicaColumnContract.Accepts]
  | array items =>
      have hbytes : items.all (isByteValue runtime) = true ↔
          ∀ item ∈ items, ∃ byte, item = .number byte ∧ runtime.isByte byte := by
        rw [List.all_eq_true]
        refine forall₂_congr fun item _ => ?_
        cases item <;> simp [isByteValue]
      cases affinity with
      | blob =>
          refine guarded_eq_ok.trans ?_
          rw [hbytes]
          simp [ReplicaColumnContract.Accepts]
      | integer | real | text | numeric => simp [normalizeColumnValue, ReplicaColumnContract.Accepts]
  | object fields => cases affinity <;> simp [normalizeColumnValue, ReplicaColumnContract.Accepts]

theorem inheritedType_eq_none (name : Text) : inheritedType name = none ↔ name ∉ objectPrototypeMembers := by
  unfold inheritedType
  by_cases hprototype : name = prototypeKey
  · rw [if_pos hprototype, hprototype]
    decide
  · rw [if_neg hprototype]
    split <;> simp_all

/-- A column of a row returns what the row has for it, or `null`, where the column takes it. A column with the
name of an inherited member is not found missing. -/
theorem normalizeRowColumn_eq_ok {runtime : RowRuntime ν} {tableName columnName : Text}
    {column : ReplicaColumnContract} {fields : List (Text × JsonValue ν)} {value : JsonValue ν} :
    normalizeRowColumn runtime tableName fields columnName column = .ok value ↔
      value = (ownField fields columnName).getD .null ∧
      column.Accepts runtime ((ownField fields columnName).getD .null) ∧
      (columnName ∈ objectPrototypeMembers → ownField fields columnName ≠ none) := by
  rw [normalizeRowColumn]
  cases hfield : ownField fields columnName with
  | some candidate =>
      dsimp only
      rw [normalizeColumnValue_eq_ok]
      simp
  | none =>
      cases hinherited : inheritedType columnName with
      | some type =>
          have hmember : columnName ∈ objectPrototypeMembers := by
            by_contra hother
            rw [(inheritedType_eq_none _).mpr hother] at hinherited
            simp at hinherited
          simp [hmember]
      | none =>
          have hmember := (inheritedType_eq_none _).mp hinherited
          by_cases hnullable : column.nullable = true
          · simp [hnullable, hmember, ReplicaColumnContract.Accepts, eq_comm]
          · simp [hnullable, ReplicaColumnContract.Accepts]

/-! ### Normal operations -/

/-- What normalization returns: the columns of the table in their order, or its primary key, with values
that the columns take. -/
def RowOperation.Normal (runtime : RowRuntime ν) (schema : ReplicaSchemaContract) : RowOperation ν → Prop
  | .putRow table row => ∃ contract, schema.tables.get? table = some contract ∧ ¬table.all isTrimmed ∧
      List.Forall₂ (fun column entry => column.1 = entry.1 ∧ column.2.Accepts runtime entry.2)
        contract.columns.entries row.entries
  | .deleteRow table key => ∃ contract, schema.tables.get? table = some contract ∧ ¬table.all isTrimmed ∧
      List.Forall₂ (fun name entry => name = entry.1 ∧ ∃ column, contract.columns.get? name = some column ∧
        entry.2 ≠ .null ∧ column.Accepts runtime entry.2) contract.primaryKey key.entries

/-- A schema that the row runtime can replicate: names that no object inherits, and primary keys of
distinct columns that are never null. -/
structure ReplicaSchemaContract.Keyed (schema : ReplicaSchemaContract) : Prop where
  plainTables : ∀ table ∈ schema.tables.entries, table.1 ∉ objectPrototypeMembers
  plainColumns : ∀ table ∈ schema.tables.entries, ∀ column ∈ table.2.columns.entries,
    column.1 ∉ objectPrototypeMembers
  distinct : ∀ table ∈ schema.tables.entries, table.2.primaryKey.Nodup
  nonNull : ∀ table ∈ schema.tables.entries, ∀ name ∈ table.2.primaryKey, ∃ column,
    table.2.columns.get? name = some column ∧ column.nullable = false

/-- Primary keys of distinct columns that are never null. -/
structure ReplicaSchemaContract.NonNullKeys (schema : ReplicaSchemaContract) : Prop where
  distinct : ∀ table ∈ schema.tables.entries, table.2.primaryKey.Nodup
  nonNull : ∀ table ∈ schema.tables.entries, ∀ name ∈ table.2.primaryKey, ∃ column,
    table.2.columns.get? name = some column ∧ column.nullable = false

theorem ReplicaSchemaContract.Keyed.nonNullKeys {schema : ReplicaSchemaContract} (h : schema.Keyed) :
    schema.NonNullKeys := ⟨h.distinct, h.nonNull⟩

section Normalize

variable {runtime : RowRuntime ν} {schema : ReplicaSchemaContract}

theorem accepts_of_ne_null {column : ReplicaColumnContract} {nullable : Bool} {value : JsonValue ν}
    (hvalue : value ≠ .null) :
    ({ column with nullable := nullable } : ReplicaColumnContract).Accepts runtime value ↔
      column.Accepts runtime value := by
  cases value with
  | null => exact absurd rfl hvalue
  | boolean | number | string | array | object => exact Iff.rfl

theorem RowOperation.readNonEmptyString_eq_ok {value : Option (JsonValue ν)} {label : String} {text : Text} :
    RowOperation.readNonEmptyString value label = .ok text ↔ value = some (.string text) ∧ ¬text.all isTrimmed := by
  cases value with
  | none => simp [RowOperation.readNonEmptyString]
  | some value =>
      cases value with
      | string value =>
          rw [RowOperation.readNonEmptyString, bind_unit_eq_ok, throwIf_eq_ok, pure_eq_ok, Except.ok.injEq,
            Option.some.injEq, JsonValue.string.injEq]
          constructor
          · intro hvalue
            exact ⟨hvalue.2, hvalue.2 ▸ hvalue.1⟩
          · intro hvalue
            exact ⟨hvalue.1.symm ▸ hvalue.2, hvalue.1⟩
      | null | boolean | number | array | object => simp [RowOperation.readNonEmptyString]

theorem plainRecord_eq_ok {value : Option (JsonValue ν)} {error : RowError} {fields : List (Text × JsonValue ν)} :
    plainRecord value error = .ok fields ↔ value = some (.object fields) := by
  cases value with
  | none => simp [plainRecord]
  | some value => cases value <;> simp [plainRecord]

theorem requireTable_contract {tableName : Text} {table : Option ReplicaTableContract} {use : UndefinedUse}
    {contract : ReplicaTableContract} (htable : requireTable schema tableName = .ok table)
    (hcontract : readContract table use = .ok contract) : schema.tables.get? tableName = some contract := by
  cases hget : schema.tables.get? tableName with
  | some found =>
      rw [requireTable, hget] at htable
      obtain rfl := Except.ok.inj htable
      rw [readContract, Except.ok.injEq] at hcontract
      rw [hcontract]
  | none =>
      rw [requireTable, hget] at htable
      dsimp only at htable
      split at htable
      · obtain rfl := Except.ok.inj htable
        simp [readContract] at hcontract
      · simp at htable

theorem normalizeFullRow_normal {tableName : Text} {table : Option ReplicaTableContract}
    (htable : requireTable schema tableName = .ok table) {value : Option (JsonValue ν)} {row : RowRecord ν}
    (h : normalizeFullRow runtime tableName table value = .ok row) :
    ∃ contract, schema.tables.get? tableName = some contract ∧
      List.Forall₂ (fun column entry => column.1 = entry.1 ∧ column.2.Accepts runtime entry.2)
        contract.columns.entries row.entries := by
  obtain ⟨fields, -, h⟩ := bind_eq_ok.mp h
  obtain ⟨contract, hcontract, h⟩ := bind_eq_ok.mp h
  obtain ⟨-, h⟩ := bind_unit_eq_ok.mp h
  rw [buildRecord_eq_ok contract.columns.nodupKeys] at h
  refine ⟨contract, requireTable_contract htable hcontract, h.imp fun column entry hentry => ⟨hentry.1, ?_⟩⟩
  obtain ⟨hvalue, haccepts, -⟩ := normalizeRowColumn_eq_ok.mp hentry.2
  rw [hvalue]
  exact haccepts

theorem normalizeKeyColumn_eq_some {tableName columnName : Text} {contract : ReplicaTableContract}
    {candidate : Option (KeyEntry ν)} {value : JsonValue ν} :
    normalizeKeyColumn runtime tableName contract candidate columnName = .ok (some value) ↔
      candidate = some (some value) ∧ ∃ column, contract.columns.get? columnName = some column ∧
        value ≠ .null ∧ column.Accepts runtime value := by
  unfold normalizeKeyColumn
  rw [bind_unit_eq_ok, throwIf_eq_ok]
  cases hcolumn : contract.columns.get? columnName with
  | none =>
      rcases candidate with _ | _ | candidate
      · simp
      · simp
      · cases candidate <;> simp
  | some column =>
      rcases candidate with _ | _ | candidate
      · simp
      · simp
      · have hnormalized : candidate ≠ .null →
            ((do return some (← normalizeColumnValue runtime tableName columnName
              { column with nullable := false } candidate) : Except RowError _) = .ok (some value) ↔
            candidate = value ∧ value ≠ .null ∧ column.Accepts runtime value) := by
          intro hne
          simp only [bind_eq_ok, normalizeColumnValue_eq_ok, accepts_of_ne_null hne, pure_eq_ok, Except.ok.injEq,
            Option.some.injEq]
          constructor
          · intro hfound
            obtain ⟨_, ⟨rfl, haccepts⟩, rfl⟩ := hfound
            exact ⟨rfl, hne, haccepts⟩
          · intro hsame
            obtain ⟨rfl, -, haccepts⟩ := hsame
            exact ⟨candidate, ⟨rfl, haccepts⟩, rfl⟩
        cases candidate with
        | null =>
            simp only [Option.isNone_some, Bool.false_eq_true, false_and, not_false_eq_true, true_and,
              reduceCtorEq, Option.some.injEq, exists_eq_left', false_iff]
            intro hsame
            exact hsame.2.1 hsame.1.symm
        | boolean | number | string | array | object =>
            simpa using hnormalized (by simp)

theorem normalizeKeyColumn_eq_none {tableName columnName : Text} {contract : ReplicaTableContract}
    {candidate : Option (KeyEntry ν)} :
    normalizeKeyColumn runtime tableName contract candidate columnName = .ok none ↔
      contract.columns.get? columnName = none ∧ columnName ∈ objectPrototypeMembers ∧
        ∃ entry, candidate = some entry ∧ entry ≠ some .null := by
  unfold normalizeKeyColumn
  rw [bind_unit_eq_ok, throwIf_eq_ok]
  cases hcolumn : contract.columns.get? columnName with
  | none =>
      rcases candidate with _ | _ | candidate
      · simp
      · simp
      · cases candidate <;> simp
  | some column =>
      rcases candidate with _ | _ | candidate
      · simp
      · simp
      · cases candidate <;> simp [bind_eq_ok]

theorem ownEntry_eq_some {fields : List (Text × JsonValue ν)} {name : Text} {value : JsonValue ν} :
    (ownField fields name).map some = some (some value) ↔ ownField fields name = some value := by
  simp

/-- The columns that a primary key names are columns of the table, not members that it inherits. -/
def ReplicaTableContract.OwnKey (contract : ReplicaTableContract) : Prop :=
  ∀ name ∈ contract.primaryKey, name ∈ objectPrototypeMembers → contract.columns.get? name ≠ none

theorem ReplicaSchemaContract.NonNullKeys.ownKey (h : schema.NonNullKeys) {table : Text}
    {contract : ReplicaTableContract} (hget : schema.tables.get? table = some contract) : contract.OwnKey := by
  intro name hname _ hnone
  obtain ⟨column, hcolumn, -⟩ := h.nonNull _ (schema.tables.mem_of_get?_eq_some hget) name hname
  simp [hnone] at hcolumn

theorem normalizePrimaryKey_normal {tableName : Text} {table : Option ReplicaTableContract}
    (htable : requireTable schema tableName = .ok table) {value : Option (JsonValue ν)} {record : PrimaryKeyRecord ν}
    (hdistinct : ∀ contract fields, schema.tables.get? tableName = some contract → value = some (.object fields) →
      (fields.map Prod.fst).Perm contract.primaryKey → contract.primaryKey.Nodup)
    (hown : ∀ contract, schema.tables.get? tableName = some contract → contract.OwnKey)
    (h : normalizePrimaryKey runtime tableName table value = .ok record) :
    ∃ contract, schema.tables.get? tableName = some contract ∧
      List.Forall₂ (fun name entry => name = entry.1 ∧ ∃ column, contract.columns.get? name = some column ∧
        entry.2 ≠ .null ∧ column.Accepts runtime entry.2) contract.primaryKey record.entries := by
  obtain ⟨fields, hfields, h⟩ := bind_eq_ok.mp h
  obtain ⟨contract, hcontract, h⟩ := bind_eq_ok.mp h
  obtain ⟨hnames, h⟩ := bind_unit_eq_ok.mp h
  rw [throwIf_eq_ok, not_not, KeyedList.insertionSort_eq_iff_perm] at hnames
  have hget := requireTable_contract htable hcontract
  have hnodup := hdistinct contract fields hget (plainRecord_eq_ok.mp hfields) hnames
  have hvalues : ∀ name ∈ contract.primaryKey,
      normalizeKeyColumn runtime tableName contract ((ownField fields name).map some) name ≠ .ok none := by
    intro name hname hnone
    obtain ⟨hcolumn, hinherited, -⟩ := normalizeKeyColumn_eq_none.mp hnone
    exact hown contract hget name hname hinherited hcolumn
  rw [buildKey_eq_ok hnodup hvalues] at h
  exact ⟨contract, hget, h.imp fun name entry hentry => ⟨hentry.1, (normalizeKeyColumn_eq_some.mp hentry.2).2⟩⟩

theorem normalizeRowOperation_normal_of_distinct {x : JsonValue ν} {operation : RowOperation ν}
    (hdistinct : ∀ tableName contract fields received, schema.tables.get? tableName = some contract →
      x = .object fields → ownField fields (ascii "key") = some (.object received) →
      (received.map Prod.fst).Perm contract.primaryKey → contract.primaryKey.Nodup)
    (hown : ∀ tableName contract, schema.tables.get? tableName = some contract → contract.OwnKey)
    (h : normalizeRowOperation runtime schema x = .ok operation) : operation.Normal runtime schema := by
  obtain ⟨fields, hfields, h⟩ := bind_eq_ok.mp h
  obtain ⟨tableName, hname, h⟩ := bind_eq_ok.mp h
  obtain ⟨table, htable, h⟩ := bind_eq_ok.mp h
  rw [plainRecord_eq_ok, Option.some.injEq] at hfields
  rw [RowOperation.readNonEmptyString_eq_ok] at hname
  dsimp only at h
  split at h
  · rename_i type htype
    split at h
    · obtain ⟨row, hrow, h⟩ := bind_eq_ok.mp h
      obtain rfl := Except.ok.inj h
      obtain ⟨contract, hget, hall⟩ := normalizeFullRow_normal htable hrow
      exact ⟨contract, hget, hname.2, hall⟩
    · split at h
      · obtain ⟨record, hrecord, h⟩ := bind_eq_ok.mp h
        obtain rfl := Except.ok.inj h
        obtain ⟨contract, hget, hall⟩ := normalizePrimaryKey_normal htable
          (fun contract received hget hkey => hdistinct tableName contract fields received hget hfields hkey)
          (hown tableName) hrecord
        exact ⟨contract, hget, hname.2, hall⟩
      · simp at h
  · simp at h
  · simp at h

theorem normalizeRowOperation_normal (hkeys : schema.NonNullKeys) {x : JsonValue ν} {operation : RowOperation ν}
    (h : normalizeRowOperation runtime schema x = .ok operation) : operation.Normal runtime schema :=
  normalizeRowOperation_normal_of_distinct
    (fun _ _ _ _ hget _ _ _ => hkeys.distinct _ (schema.tables.mem_of_get?_eq_some hget))
    (fun _ _ hget => hkeys.ownKey hget) h

/-- The objects of a JavaScript value do not repeat a key. -/
theorem normalizeRowOperation_normal_of_valid {numbers : NumberFormat ν} {x : JsonValue ν} (hx : x.Valid numbers)
    (hplain : ∀ table ∈ schema.tables.entries, ∀ name ∈ table.2.primaryKey, name ∉ objectPrototypeMembers)
    {operation : RowOperation ν} (h : normalizeRowOperation runtime schema x = .ok operation) :
    operation.Normal runtime schema := by
  refine normalizeRowOperation_normal_of_distinct ?_ (fun tableName contract hget name hname hinherited =>
    absurd hinherited (hplain _ (schema.tables.mem_of_get?_eq_some hget) name hname)) h
  intro tableName contract fields received _ hfields hkey hperm
  subst hfields
  cases hx with
  | object _ hvalues =>
      rw [ownField, Option.map_eq_some_iff] at hkey
      obtain ⟨field, hfind, hvalue⟩ := hkey
      have hreceived := hvalues field (List.mem_of_find?_eq_some hfind)
      rw [hvalue] at hreceived
      cases hreceived with
      | object hnodup _ => exact hperm.nodup_iff.mp hnodup

/-! A normal operation is normalized to itself, in whatever order its keys stand. -/

theorem requireTable_of_get? {tableName : Text} {contract : ReplicaTableContract}
    (hget : schema.tables.get? tableName = some contract) :
    requireTable schema tableName = .ok (some contract) := by
  rw [requireTable, hget]

theorem normalizeFullRow_of_normal {tableName : Text} {contract : ReplicaTableContract} {row : RowRecord ν}
    (hall : List.Forall₂ (fun column entry => column.1 = entry.1 ∧ column.2.Accepts runtime entry.2)
      contract.columns.entries row.entries)
    {fields : List (Text × JsonValue ν)} (hfields : fields.Perm row.entries) :
    normalizeFullRow runtime tableName (some contract) (some (.object fields)) = .ok row := by
  have hnames : contract.columns.entries.map Prod.fst = row.entries.map Prod.fst :=
    map_eq_map_of_forall₂ (hall.imp fun _ _ hentry => hentry.1)
  have hknown : assertNoUnknownColumns tableName contract fields = .ok () := by
    rw [assertNoUnknownColumns, throwIf_eq_ok, not_lt, Nat.le_zero, List.length_eq_zero_iff, List.filter_eq_nil_iff]
    intro columnName hmem hunknown
    rw [(hfields.map Prod.fst).mem_iff, ← hnames] at hmem
    rw [Bool.and_eq_true, Option.isNone_iff_eq_none, InsertionMap.get?_eq_none_iff] at hunknown
    exact hunknown.1 hmem
  refine bind_unit_eq_ok.mpr ⟨hknown, (buildRecord_eq_ok contract.columns.nodupKeys).mpr ?_⟩
  refine forall₂_imp_mem hall fun column _ entry hentry haccepted => ⟨haccepted.1, ?_⟩
  have hfield : ownField fields column.1 = some entry.2 := by
    rw [ownField, haccepted.1, KeyedList.find?_of_perm hfields row.nodupKeys hentry]
    rfl
  rw [normalizeRowColumn_eq_ok, hfield]
  exact ⟨rfl, haccepted.2, by simp⟩

theorem normalizeKey_of_normal {tableName : Text} {contract : ReplicaTableContract} {record : PrimaryKeyRecord ν}
    (hall : List.Forall₂ (fun name entry => name = entry.1 ∧ ∃ column, contract.columns.get? name = some column ∧
      entry.2 ≠ .null ∧ column.Accepts runtime entry.2) contract.primaryKey record.entries)
    {received : List Text} {entry : Text → Option (KeyEntry ν)}
    (hreceived : received.Perm (record.entries.map Prod.fst))
    (hentries : ∀ found ∈ record.entries, entry found.1 = some (some found.2)) :
    normalizeKey runtime tableName (some contract) received entry = .ok record := by
  have hnames : contract.primaryKey = record.entries.map Prod.fst := by
    rw [← map_eq_map_of_forall₂ (f := id) (g := Prod.fst) (hall.imp fun _ _ hentry => hentry.1), List.map_id]
  have hsorted : received.insertionSort (· ≤ ·) = contract.primaryKey.insertionSort (· ≤ ·) := by
    rw [KeyedList.insertionSort_eq_iff_perm, hnames]
    exact hreceived
  have hnodup : contract.primaryKey.Nodup := hnames ▸ record.nodupKeys
  refine bind_unit_eq_ok.mpr ⟨throwIf_neg (not_not.mpr hsorted), ?_⟩
  have hvalues : ∀ name ∈ contract.primaryKey,
      normalizeKeyColumn runtime tableName contract (entry name) name ≠ .ok none := by
    intro name hname hnone
    obtain ⟨found, -, -, column, hcolumn, -⟩ := exists_of_forall₂ hall hname
    simp [(normalizeKeyColumn_eq_none.mp hnone).1] at hcolumn
  refine (buildKey_eq_ok hnodup hvalues).mpr ?_
  refine forall₂_imp_mem hall fun name _ found hfound haccepted => ⟨haccepted.1, ?_⟩
  obtain ⟨rfl, haccepts⟩ := haccepted
  exact normalizeKeyColumn_eq_some.mpr ⟨hentries found hfound, haccepts⟩

theorem normalizePrimaryKey_of_normal {tableName : Text} {contract : ReplicaTableContract} {record : PrimaryKeyRecord ν}
    (hall : List.Forall₂ (fun name entry => name = entry.1 ∧ ∃ column, contract.columns.get? name = some column ∧
      entry.2 ≠ .null ∧ column.Accepts runtime entry.2) contract.primaryKey record.entries)
    {fields : List (Text × JsonValue ν)} (hfields : fields.Perm record.entries) :
    normalizePrimaryKey runtime tableName (some contract) (some (.object fields)) = .ok record := by
  refine normalizeKey_of_normal hall (hfields.map Prod.fst) fun found hfound => ownEntry_eq_some.mpr ?_
  rw [ownField, KeyedList.find?_of_perm hfields record.nodupKeys hfound]
  rfl

/-- The operation, with the fields of its row or key in any order. -/
def RowOperation.Writes : RowOperation ν → List (Text × JsonValue ν) → Prop
  | .putRow table row, fields => ownField fields (ascii "type") = some (.string (ascii "putRow")) ∧
      ownField fields (ascii "table") = some (.string table) ∧
      ∃ columns, ownField fields (ascii "row") = some (.object columns) ∧ columns.Perm row.entries
  | .deleteRow table key, fields => ownField fields (ascii "type") = some (.string (ascii "deleteRow")) ∧
      ownField fields (ascii "table") = some (.string table) ∧
      ∃ columns, ownField fields (ascii "key") = some (.object columns) ∧ columns.Perm key.entries

theorem normalizeRowOperation_of_writes {operation : RowOperation ν}
    (hnormal : operation.Normal runtime schema) {fields : List (Text × JsonValue ν)}
    (hwrites : operation.Writes fields) :
    normalizeRowOperation runtime schema (.object fields) = .ok operation := by
  cases operation with
  | putRow table row =>
      obtain ⟨contract, hget, hname, hall⟩ := hnormal
      obtain ⟨htype, htable, columns, hrow, hperm⟩ := hwrites
      refine bind_eq_ok.mpr ⟨fields, rfl, bind_eq_ok.mpr ⟨table, ?_, bind_eq_ok.mpr ⟨some contract, ?_, ?_⟩⟩⟩
      · exact RowOperation.readNonEmptyString_eq_ok.mpr ⟨htable, hname⟩
      · exact requireTable_of_get? hget
      · dsimp only
        rw [htype]
        dsimp only
        rw [if_pos rfl, hrow, normalizeFullRow_of_normal hall hperm]
        rfl
  | deleteRow table key =>
      obtain ⟨contract, hget, hname, hall⟩ := hnormal
      obtain ⟨htype, htable, columns, hkey, hperm⟩ := hwrites
      refine bind_eq_ok.mpr ⟨fields, rfl, bind_eq_ok.mpr ⟨table, ?_, bind_eq_ok.mpr ⟨some contract, ?_, ?_⟩⟩⟩
      · exact RowOperation.readNonEmptyString_eq_ok.mpr ⟨htable, hname⟩
      · exact requireTable_of_get? hget
      · dsimp only
        rw [htype]
        dsimp only
        rw [if_neg (by decide), if_pos rfl, hkey, normalizePrimaryKey_of_normal hall hperm]
        rfl

/-- Normalization leaves a normal operation alone. -/
theorem normalizeRowOperation_toJson {operation : RowOperation ν}
    (hnormal : operation.Normal runtime schema) :
    normalizeRowOperation runtime schema operation.toJson = .ok operation := by
  cases operation with
  | putRow table row =>
      exact normalizeRowOperation_of_writes hnormal ⟨rfl, rfl, row.entries, rfl, List.Perm.refl _⟩
  | deleteRow table key =>
      exact normalizeRowOperation_of_writes hnormal ⟨rfl, rfl, key.entries, rfl, List.Perm.refl _⟩

/-! ### Application -/

theorem valid_of_accepts {column : ReplicaColumnContract} {value : JsonValue ν} (h : column.Accepts runtime value) :
    value.Valid runtime.toNumberFormat := by
  cases value with
  | null => exact .null
  | number number => exact .number h.2
  | string text => exact .string text
  | array items =>
      refine .array fun item hitem => ?_
      obtain ⟨byte, rfl, hbyte⟩ := h.2 item hitem
      exact .number (runtime.isFinite_of_isByte byte hbyte)
  | boolean | object => exact h.elim

theorem get?_row {contract : ReplicaTableContract} {row : RowRecord ν}
    (hall : List.Forall₂ (fun column entry => column.1 = entry.1 ∧ column.2.Accepts runtime entry.2)
      contract.columns.entries row.entries) {name : Text} {column : ReplicaColumnContract}
    (hcolumn : contract.columns.get? name = some column) :
    ∃ value, row.get? name = some value ∧ column.Accepts runtime value := by
  obtain ⟨entry, hentry, hsame, haccepts⟩ := exists_of_forall₂ hall (contract.columns.mem_of_get?_eq_some hcolumn)
  refine ⟨entry.2, ?_, haccepts⟩
  dsimp only at hsame
  rw [InsertionMap.get?, hsame, KeyedList.find?_of_perm (List.Perm.refl _) row.nodupKeys hentry]
  rfl

/-- A record has a value other than `null` for every column of the key. -/
def HasKey (runtime : RowRuntime ν) (table : ReplicaTableContract) (record : JsRecord (JsonValue ν)) : Prop :=
  ∀ name ∈ table.primaryKey, ∃ value column, record.get? name = some value ∧
    table.columns.get? name = some column ∧ value ≠ .null ∧ column.Accepts runtime value

theorem hasKey_of_key {table : ReplicaTableContract} {key : PrimaryKeyRecord ν}
    (hall : List.Forall₂ (fun name entry => name = entry.1 ∧ ∃ column, table.columns.get? name = some column ∧
      entry.2 ≠ .null ∧ column.Accepts runtime entry.2) table.primaryKey key.entries) : HasKey runtime table key := by
  intro name hname
  obtain ⟨entry, hentry, rfl, column, hcolumn, hvalue, haccepts⟩ := exists_of_forall₂ hall hname
  exact ⟨entry.2, column, key.get?_eq_some_iff.mpr hentry, hcolumn, hvalue, haccepts⟩

theorem hasKey_of_normal (hkeys : schema.NonNullKeys) {table : Text} {contract : ReplicaTableContract}
    (hget : schema.tables.get? table = some contract) {row : RowRecord ν}
    (hall : List.Forall₂ (fun column entry => column.1 = entry.1 ∧ column.2.Accepts runtime entry.2)
      contract.columns.entries row.entries) : HasKey runtime contract row := by
  intro name hprimary
  obtain ⟨column, hcolumn, hnonNull⟩ := hkeys.nonNull _ (schema.tables.mem_of_get?_eq_some hget) name hprimary
  obtain ⟨value, hvalue, haccepts⟩ := get?_row hall hcolumn
  refine ⟨value, column, hvalue, hcolumn, fun hnull => ?_, haccepts⟩
  rw [hnull] at haccepts
  rw [show column.nullable = true from haccepts] at hnonNull
  simp at hnonNull

theorem ReplicaTableContract.ne_prototypeKey (contract : ReplicaTableContract) {name : Text}
    {column : ReplicaColumnContract} (hcolumn : contract.columns.get? name = some column) : name ≠ prototypeKey := by
  intro hsame
  exact contract.ownColumns (hsame ▸ List.mem_map_of_mem (contract.columns.mem_of_get?_eq_some hcolumn))

theorem keyFromRow_returns {table : Text} {contract : ReplicaTableContract} {row : RowRecord ν}
    (hget : schema.tables.get? table = some contract) (hname : ¬table.all isTrimmed)
    (hdistinct : contract.primaryKey.Nodup) (hkey : HasKey runtime contract row) :
    ∃ key : PrimaryKeyRecord ν, keyFromRow schema table row = .ok (key.map some) ∧
      (RowOperation.deleteRow table key).Normal runtime schema ∧
      ∀ name ∈ contract.primaryKey, key.get? name = row.get? name := by
  let entries := contract.primaryKey.map fun name => (name, (row.get? name).getD .null)
  have hnodup : (entries.map Prod.fst).Nodup := by
    have hnames : entries.map Prod.fst = contract.primaryKey := by simp [entries, Function.comp_def]
    rwa [hnames]
  have hread : ∀ name ∈ contract.primaryKey, row.get? name = some ((row.get? name).getD .null) := by
    intro name hprimary
    obtain ⟨value, -, hvalue, -⟩ := hkey name hprimary
    rw [hvalue]
    rfl
  have hitem : ∀ name ∈ contract.primaryKey, name ≠ prototypeKey := by
    intro name hprimary
    obtain ⟨-, column, -, hcolumn, -⟩ := hkey name hprimary
    exact contract.ne_prototypeKey hcolumn
  refine ⟨⟨entries, hnodup⟩, ?_, ⟨contract, hget, hname, ?_⟩, ?_⟩
  · refine bind_eq_ok.mpr ⟨some contract, requireTable_of_get? hget, (buildKey_eq_ok hdistinct ?_).mpr ?_⟩
    · intro name hprimary
      rw [if_neg (hitem name hprimary), hread name hprimary]
      simp
    · refine List.forall₂_map_right_iff.mpr (List.forall₂_map_right_iff.mpr (List.forall₂_same.mpr
        fun name hprimary => ⟨rfl, ?_⟩))
      rw [if_neg (hitem name hprimary), hread name hprimary]
      rfl
  · refine List.forall₂_map_right_iff.mpr (List.forall₂_same.mpr fun name hprimary => ⟨rfl, ?_⟩)
    obtain ⟨value, column, hvalue, hcolumn, hne, haccepts⟩ := hkey name hprimary
    dsimp only
    rw [hvalue]
    exact ⟨column, hcolumn, hne, haccepts⟩
  · intro name hprimary
    rw [hread name hprimary]
    have hentry : (name, (row.get? name).getD .null) ∈ entries := List.mem_map_of_mem hprimary
    have hfound := (InsertionMap.get?_eq_some_iff ⟨entries, hnodup⟩).mpr hentry
    exact hfound

def ReplicaTableContract.keyArray (contract : ReplicaTableContract) (record : JsRecord (JsonValue ν)) :
    JsonValue ν := .array (contract.primaryKey.map fun column => (record.get? column).getD .null)

theorem canonicalizeKey_of_normal {contract : ReplicaTableContract} {key : PrimaryKeyRecord ν}
    (hall : List.Forall₂ (fun name entry => name = entry.1 ∧ ∃ column, contract.columns.get? name = some column ∧
      entry.2 ≠ .null ∧ column.Accepts runtime entry.2) contract.primaryKey key.entries) :
    (do
      let items ← contract.primaryKey.zipIdx.mapM fun (column, index) =>
        keyItem key (ascii "$") "undefined" column index
      canonicalizeJsonTree runtime.toNumberFormat (.array items)) =
        .ok ((contract.keyArray key).print runtime.toNumberFormat) := by
  have hvalid : (contract.keyArray key).Valid runtime.toNumberFormat := by
    refine .array (List.forall_mem_map.mpr fun column _ => ?_)
    cases hfound : key.get? column with
    | none => exact .null
    | some value =>
        obtain ⟨name, -, -, column, -, -, haccepts⟩ := exists_of_forall₂ hall.flip (key.mem_of_get?_eq_some hfound)
        exact valid_of_accepts haccepts
  have hitems : contract.primaryKey.zipIdx.mapM (fun item => keyItem key (ascii "$") "undefined" item.1 item.2) =
      .ok (contract.primaryKey.zipIdx.map fun item => (key.get? item.1).getD .null) := by
    refine mapM_eq_ok fun item hitem => ?_
    obtain ⟨entry, hentry, hname, -⟩ := exists_of_forall₂ hall (List.fst_mem_of_mem_zipIdx hitem)
    rw [keyItem, hname, key.get?_eq_some_iff.mpr hentry]
    rfl
  rw [map_fst_zipIdx contract.primaryKey fun column => (key.get? column).getD .null] at hitems
  refine bind_eq_ok.mpr ⟨_, hitems, ?_⟩
  rw [canonicalizeJsonTree]
  exact canonicalizeTree_of_valid hvalid _

theorem encodeKey_of_normal {table : Text} {key : PrimaryKeyRecord ν}
    (hnormal : (RowOperation.deleteRow table key).Normal runtime schema) {contract : ReplicaTableContract}
    (hget : schema.tables.get? table = some contract) {received : List Text} {entry : Text → Option (KeyEntry ν)}
    (hreceived : received.Perm (key.entries.map Prod.fst))
    (hentries : ∀ found ∈ key.entries, entry found.1 = some (some found.2)) :
    encodeKey runtime schema table received entry = .ok ((contract.keyArray key).print runtime.toNumberFormat) := by
  obtain ⟨contract', hget', -, hall⟩ := hnormal
  obtain rfl := Option.some.inj (hget.symm.trans hget')
  refine bind_eq_ok.mpr ⟨some contract, requireTable_of_get? hget, bind_eq_ok.mpr ⟨key, ?_, ?_⟩⟩
  · exact normalizeKey_of_normal hall hreceived hentries
  · exact mapError_eq_ok.mpr (canonicalizeKey_of_normal hall)

theorem encodePrimaryKey_of_normal {table : Text} {key : PrimaryKeyRecord ν}
    (hnormal : (RowOperation.deleteRow table key).Normal runtime schema) {contract : ReplicaTableContract}
    (hget : schema.tables.get? table = some contract) :
    encodePrimaryKey runtime schema table key = .ok ((contract.keyArray key).print runtime.toNumberFormat) :=
  encodeKey_of_normal hnormal hget (List.Perm.refl _) fun found hfound => by
    rw [key.get?_eq_some_iff.mpr hfound]
    rfl

/-- The canonical text of a key is that of its normalization. -/
theorem encodePrimaryKey_eq (hkeys : schema.NonNullKeys) {table : Text} {contract : ReplicaTableContract}
    (hget : schema.tables.get? table = some contract) (key : PrimaryKeyRecord ν) :
    encodePrimaryKey runtime schema table key =
      (normalizePrimaryKey runtime table (some contract) (some (.object key.entries))).map fun normalized =>
        (contract.keyArray normalized).print runtime.toNumberFormat := by
  rw [encodePrimaryKey, encodeKey, requireTable_of_get? hget, ok_bind]
  change (normalizePrimaryKey runtime table (some contract) (some (.object key.entries)) >>= _) = _
  cases hnormalized : normalizePrimaryKey runtime table (some contract) (some (.object key.entries)) with
  | error e => rfl
  | ok normalized =>
      obtain ⟨contract', hget', hall⟩ := normalizePrimaryKey_normal (requireTable_of_get? hget)
        (fun found _ hfound _ _ => hkeys.distinct _ (schema.tables.mem_of_get?_eq_some hfound))
        (fun found hfound => hkeys.ownKey hfound) hnormalized
      obtain rfl := Option.some.inj (hget.symm.trans hget')
      exact mapError_eq_ok.mpr (canonicalizeKey_of_normal hall)

theorem encodeRowPrimaryKey_of_hasKey {table : Text} {contract : ReplicaTableContract} {row : RowRecord ν}
    (hget : schema.tables.get? table = some contract) (hname : ¬table.all isTrimmed)
    (hdistinct : contract.primaryKey.Nodup) (hkey : HasKey runtime contract row) :
    encodeRowPrimaryKey runtime schema table row = .ok ((contract.keyArray row).print runtime.toNumberFormat) := by
  obtain ⟨key, hread, hnormal, hvalues⟩ := keyFromRow_returns hget hname hdistinct hkey
  have hsame : contract.keyArray key = contract.keyArray row :=
    congrArg JsonValue.array (List.map_congr_left fun name hprimary => by rw [hvalues name hprimary])
  have hnames : ((key.map some).entries.map Prod.fst).Perm (key.entries.map Prod.fst) := by
    rw [InsertionMap.map, List.map_map]
    exact List.Perm.refl _
  have hentries : ∀ found ∈ key.entries, (key.map some).get? found.1 = some (some found.2) := by
    intro found hfound
    rw [InsertionMap.get?_map, key.get?_eq_some_iff.mpr hfound]
    rfl
  rw [encodeRowPrimaryKey, hread, ok_bind, encodeKey_of_normal hnormal hget hnames hentries, hsame]

theorem encodeRowPrimaryKey_of_normal (hkeys : schema.NonNullKeys) {table : Text} {row : RowRecord ν}
    (hnormal : (RowOperation.putRow table row).Normal runtime schema) {contract : ReplicaTableContract}
    (hget : schema.tables.get? table = some contract) :
    encodeRowPrimaryKey runtime schema table row = .ok ((contract.keyArray row).print runtime.toNumberFormat) := by
  obtain ⟨contract', hget', hname, hall⟩ := hnormal
  obtain rfl := Option.some.inj (hget.symm.trans hget')
  exact encodeRowPrimaryKey_of_hasKey hget hname (hkeys.distinct _ (schema.tables.mem_of_get?_eq_some hget))
    (hasKey_of_normal hkeys hget hall)

theorem applyRowOperation_returns (hkeys : schema.NonNullKeys)
    {state : ReplicaDatabaseState (RowRecord ν)} (hstate : state.schemaHash = schema.schemaHash)
    {operation : RowOperation ν} (hnormal : operation.Normal runtime schema) :
    ∃ next, applyRowOperation runtime schema state operation = .ok next ∧ next.schemaHash = schema.schemaHash := by
  have hschema : (assertDatabaseStateSchema schema state).mapError RowError.schemaMismatchError = .ok () := by
    rw [assertDatabaseStateSchema, throwIf_neg (not_not.mpr hstate)]
    rfl
  have hnormalized := normalizeRowOperation_toJson hnormal
  cases operation with
  | putRow table row =>
      obtain ⟨contract, hget, -, -⟩ := id hnormal
      have htext := encodeRowPrimaryKey_of_normal hkeys hnormal hget
      exact ⟨_, bind_unit_eq_ok.mpr ⟨hschema, bind_eq_ok.mpr ⟨_, hnormalized, bind_eq_ok.mpr ⟨_, htext, rfl⟩⟩⟩, hstate⟩
  | deleteRow table key =>
      obtain ⟨contract, hget, -, -⟩ := id hnormal
      have htext := encodePrimaryKey_of_normal hnormal hget
      exact ⟨_, bind_unit_eq_ok.mpr ⟨hschema, bind_eq_ok.mpr ⟨_, hnormalized, bind_eq_ok.mpr ⟨_, htext, rfl⟩⟩⟩, hstate⟩

end Normalize

/-! ### Optimistic continuity -/

variable {ι Rejection : Type}

/-- Row interpreters of one schema accept normal operations as they were proposed. -/
theorem rows_echo {runtime : RowRuntime ν} {schema : ReplicaSchemaContract}
    {options : CreateRowLogInterpreterOptions ν Rejection}
    {setup : NetworkSetup ι (ReplicaDatabaseState (RowRecord ν)) (RowOperation ν) (RowOperation ν) Rejection RowError}
    (hlog : createRowLogInterpreter runtime schema options = .ok setup.settings.interpreter)
    (hreplica : ∀ i, createRowReplicaInterpreter runtime schema = .ok (setup.replicaInterpreter i)) :
    setup.Echoes (RowOperation.Normal runtime schema) := by
  obtain ⟨-, hlog⟩ := bind_unit_eq_ok.mp hlog
  have hlogInterpreter := (Except.ok.inj hlog).symm
  have hreplicaInterpreter := fun i => (Except.ok.inj (bind_unit_eq_ok.mp (hreplica i)).2).symm
  constructor
  case lawful =>
    constructor
    case applyCommitted =>
      intro i
      rw [hreplicaInterpreter, hlogInterpreter]
    case reflexive =>
      intro i operation
      rw [hreplicaInterpreter]
      exact decide_eq_true rfl
  case applyOptimistic =>
    intro i
    rw [hreplicaInterpreter, hlogInterpreter]
  case decide =>
    intro state proposal hnormal
    rw [hlogInterpreter]
    dsimp only
    rw [normalizeRowOperation_toJson hnormal]

/-- Optimistic continuity of the row runtime: when every operation was normalized before it was enqueued,
nothing is ever rejected; the outbox of a replica is what it has proposed and not confirmed, in order; its
optimistic state is the confirmed prefix followed by the outbox; and a response that confirms only
operations of the replica itself changes nothing that the replica shows. -/
theorem row_continuity [DecidableEq ι] {runtime : RowRuntime ν} {schema : ReplicaSchemaContract} (hkeyed : schema.Keyed)
    {options : CreateRowLogInterpreterOptions ν Rejection}
    {setup : NetworkSetup ι (ReplicaDatabaseState (RowRecord ν)) (RowOperation ν) (RowOperation ν) Rejection RowError}
    (hlog : createRowLogInterpreter runtime schema options = .ok setup.settings.interpreter)
    (hreplica : ∀ i, createRowReplicaInterpreter runtime schema = .ok (setup.replicaInterpreter i))
    {network : Network ι (ReplicaDatabaseState (RowRecord ν)) (RowOperation ν) (RowOperation ν) Rejection}
    (hreachable : setup.system.Reachable network)
    (hnormalized : ∀ entry ∈ network.enqueued, ∃ operation,
      normalizeRowOperation runtime schema operation = .ok entry.2.intent) :
    (∀ operationId decision, network.server.getDecision operationId = some decision →
      ∃ sequence operation, decision = .accepted operationId sequence operation) ∧
    (∀ i response, (i, response) ∈ network.responses → ∀ decision ∈ response.decisions,
      ∃ operationId sequence operation, decision = .accepted operationId sequence operation) ∧
    ∀ i,
      (∃ confirmed, network.proposalsOf i = confirmed ++ (network.replicas i).outbox.map OutboxEntry.proposal ∧
        (∀ proposal ∈ confirmed, ∃ entry ∈ network.confirmedPrefix i, entry.operationId = proposal.operationId) ∧
        ∀ outgoing ∈ (network.replicas i).outbox, ∀ entry ∈ network.confirmedPrefix i,
          entry.operationId ≠ outgoing.operationId) ∧
      ((network.proposalsOf i).Pairwise fun earlier later => earlier.clientSequence < later.clientSequence) ∧
      materializeOptimisticState (setup.replicaInterpreter i) (network.replicas i) =
        ((network.confirmedPrefix i).map CommittedOperation.operation ++
          (network.replicas i).outbox.map fun entry => entry.proposal.intent).foldlM
            (applyRowOperation runtime schema) setup.initialState ∧
      (setup.initialState.schemaHash = schema.schemaHash →
        ∃ state, materializeOptimisticState (setup.replicaInterpreter i) (network.replicas i) = .ok state) ∧
      ∀ response, (i, response) ∈ network.responses →
        (∀ entry ∈ response.entries, (network.replicas i).confirmedSequence < entry.sequence →
          entry.origin.clientId = (network.replicas i).clientId) →
        ∃ result, mergeSyncResponse (setup.replicaInterpreter i) (network.replicas i) response = .ok result ∧
          materializeOptimisticState (setup.replicaInterpreter i) result.state =
            materializeOptimisticState (setup.replicaInterpreter i) (network.replicas i) := by
  have hnormal : ∀ entry ∈ network.enqueued, entry.2.intent.Normal runtime schema := by
    intro entry hentry
    obtain ⟨operation, hoperation⟩ := hnormalized entry hentry
    exact normalizeRowOperation_normal hkeyed.nonNullKeys hoperation
  obtain ⟨authority, knowledge, retained, h⟩ :=
    Network.echoed_of_reachable (rows_echo hlog hreplica) hreachable hnormal
  obtain ⟨-, hinterpreter⟩ := bind_unit_eq_ok.mp hlog
  have happly : setup.settings.interpreter.apply = applyRowOperation runtime schema :=
    congrArg LogInterpreter.apply (Except.ok.inj hinterpreter).symm
  refine ⟨?noneRejected, ?noneAnswered,
    fun i => ⟨?outbox, (h.consistent.participants i).pairwise, ?shown, ?present, ?merged⟩⟩
  case noneRejected =>
    intro operationId decision hdecision
    rw [h.consistent.getDecision_eq, Option.map_eq_some_iff] at hdecision
    obtain ⟨record, hrecord, rfl⟩ := hdecision
    obtain ⟨hmem, rfl⟩ := (recordOf_eq_some_iff authority.justified.operationIds_nodup).mp hrecord
    obtain ⟨entry, -, hidentity, sequence, haccepted⟩ := h.accepted hmem
    exact ⟨sequence, entry.2.intent, by rw [haccepted, hidentity]⟩
  case noneAnswered =>
    intro i response hresponse decision hdecision
    have haddressed : AddressedResponse authority.ledger (network.proposalsOf i) (knowledge i) response :=
      h.consistent.responses _ hresponse
    obtain ⟨record, hmem, rfl⟩ := haddressed.honest.decisions decision hdecision
    obtain ⟨entry, -, -, sequence, haccepted⟩ := h.accepted hmem
    exact ⟨_, sequence, _, haccepted⟩
  case outbox =>
    refine ⟨_, (h.split i).symm, ?_, ?_⟩
    · intro proposal hproposal
      obtain ⟨hown, hnone⟩ := List.mem_filter.mp hproposal
      obtain ⟨sequence, hentry⟩ := h.exists_confirmed_of_own hown (Option.isNone_iff_eq_none.mp hnone)
      exact ⟨_, hentry, rfl⟩
    · intro outgoing houtgoing entry hentry hsame
      exact h.not_mem_confirmedPrefix houtgoing hentry hsame
  case shown => rw [h.materialize i, happly]
  case present =>
    intro hinitial
    refine h.materialize_returns (fun state => state.schemaHash = schema.schemaHash) hinitial ?_ i
    intro state operation hstate hoperation
    rw [happly]
    exact applyRowOperation_returns hkeyed.nonNullKeys hstate hoperation
  case merged => exact fun response hresponse hown => h.merge_own hresponse hown

/-! ### A schema with one table -/

def noteRuntime : RowRuntime (Fin 10) where
  toNumberFormat := digitRuntime.toNumberFormat
  isByte _ := true
  isFinite_of_isByte _ _ := rfl
  typeErrorMessage _ := ascii "Cannot read properties of undefined"

def noteColumns : JsRecord ReplicaColumnContract :=
  InsertionMap.empty.setAll [
    (ascii "id", { affinity := .integer, nullable := false, generated := false }),
    (ascii "title", { affinity := .text, nullable := true, generated := false })]

def noteSchema : ReplicaSchemaContract where
  schemaHash := ascii "notes-v1"
  tables := InsertionMap.empty.set (ascii "notes") { primaryKey := [ascii "id"], columns := noteColumns }

def putNote (id : Fin 10) : RowOperation (Fin 10) :=
  .putRow (ascii "notes") (InsertionMap.empty.setAll [(ascii "id", .number id), (ascii "title", .null)])

def noteLogInterpreter : LogInterpreter (ReplicaDatabaseState (RowRecord (Fin 10))) (RowOperation (Fin 10))
    (RowOperation (Fin 10)) RowRejection RowError where
  decide _ proposal :=
    match normalizeRowOperation noteRuntime noteSchema proposal.intent.toJson with
    | .ok operation => .ok (.accepted operation)
    | .error error => .ok (.rejected (toRowRejection noteRuntime error))
  apply := applyRowOperation noteRuntime noteSchema

def noteReplicaInterpreter : ReplicaInterpreter (ReplicaDatabaseState (RowRecord (Fin 10)))
    (RowOperation (Fin 10)) (RowOperation (Fin 10)) RowError where
  applyCommitted := applyRowOperation noteRuntime noteSchema
  applyOptimistic := applyRowOperation noteRuntime noteSchema
  areCommittedOperationsEqual left right :=
    left.toJson.print noteRuntime.toNumberFormat = right.toJson.print noteRuntime.toNumberFormat

def noteState : ReplicaDatabaseState (RowRecord (Fin 10)) where
  schemaHash := ascii "notes-v1"
  tables := InsertionMap.empty.set (ascii "notes") InsertionMap.empty

def noteSetup : NetworkSetup Bool (ReplicaDatabaseState (RowRecord (Fin 10))) (RowOperation (Fin 10))
    (RowOperation (Fin 10)) RowRejection RowError where
  settings := { interpreter := noteLogInterpreter, limits := defaultProtocolLimits }
  resolved := ⟨by decide, by decide⟩
  initialState := noteState
  replicaOptions i := { clientId := if i then "client-a" else "client-b", initialState := noteState }
  replicaInterpreter _ := noteReplicaInterpreter
  startsFromServerState _ := rfl
  distinctClientIds := Bool.injective_iff.mpr (by decide)

def noteStart : Network Bool (ReplicaDatabaseState (RowRecord (Fin 10))) (RowOperation (Fin 10))
    (RowOperation (Fin 10)) RowRejection where
  server := .initial noteState
  replicas i := {
    clientId := if i then "client-a" else "client-b"
    nextClientSequence := 1
    confirmedSequence := 0
    confirmedState := noteState
    confirmedLog := []
    outbox := [] }
  requests := []
  responses := []
  enqueued := []

def noteActions : List (NetworkAction Bool (RowOperation (Fin 10))) := [
  .enqueue true { operationId := "op-a1", intentHash := "put:1", intent := putNote 1 },
  .prepare true {},
  .enqueue true { operationId := "op-a2", intentHash := "put:2", intent := putNote 2 },
  .deliver 0]

theorem noteSchema_keyed : noteSchema.Keyed where
  plainTables := by decide
  plainColumns := by decide
  distinct := by decide
  nonNull := by
    intro table htable name hname
    obtain rfl := List.mem_singleton.mp htable
    obtain rfl := List.mem_singleton.mp hname
    exact ⟨_, rfl, rfl⟩

theorem noteActions_fresh : noteStart.FreshRun noteSetup noteActions := by
  refine ⟨?_, trivial, ?_, trivial, trivial⟩
  · show ∀ entry ∈ [], _
    simp
  · show ∀ entry ∈ [_], _
    decide

theorem createInitialDatabaseState_note :
    createInitialDatabaseState (ν := Fin 10) noteSchema = .ok noteState := rfl

theorem putNote_normalized (id : Fin 10) :
    normalizeRowOperation noteRuntime noteSchema (putNote id).toJson = .ok (putNote id) := rfl

theorem createRowLogInterpreter_note :
    createRowLogInterpreter noteRuntime noteSchema { rejectInvalidOperation := none, ofRowRejection := id } =
      .ok noteLogInterpreter := by
  refine bind_unit_eq_ok.mpr ⟨rfl, congrArg Except.ok ((LogInterpreter.mk.injEq ..).mpr ⟨?_, rfl⟩)⟩
  funext _ proposal
  cases normalizeRowOperation noteRuntime noteSchema proposal.intent.toJson <;> rfl

/-- What the client of the notes sees after its first note was sent. -/
def noteNetwork : Network Bool (ReplicaDatabaseState (RowRecord (Fin 10))) (RowOperation (Fin 10))
    (RowOperation (Fin 10)) RowRejection :=
  noteStart.run noteSetup noteActions

theorem noteNetwork_reachable : noteSetup.system.Reachable noteNetwork :=
  ⟨noteStart, noteActions, ⟨rfl, fun i => by cases i <;> rfl, rfl, rfl, rfl⟩, noteSetup.path_run noteActions_fresh⟩

theorem row_continuity_notes : noteNetwork.responses.map Prod.fst = [true] ∧
    ∀ response, (true, response) ∈ noteNetwork.responses →
      ∃ result, mergeSyncResponse noteReplicaInterpreter (noteNetwork.replicas true) response = .ok result ∧
        materializeOptimisticState noteReplicaInterpreter result.state =
          materializeOptimisticState noteReplicaInterpreter (noteNetwork.replicas true) := by
  have hnormalized : ∀ entry ∈ noteNetwork.enqueued, ∃ operation,
      normalizeRowOperation noteRuntime noteSchema operation = .ok entry.2.intent := by
    change ∀ entry ∈ [_, _], _
    simp only [List.forall_mem_cons]
    exact ⟨⟨_, putNote_normalized 1⟩, ⟨_, putNote_normalized 2⟩, by simp⟩
  obtain ⟨-, -, hreplicas⟩ := row_continuity noteSchema_keyed
    createRowLogInterpreter_note (fun _ => rfl) noteNetwork_reachable hnormalized
  obtain ⟨-, -, -, -, hmerge⟩ := hreplicas true
  refine ⟨rfl, fun response hresponse => hmerge response hresponse ?_⟩
  have hclients : noteNetwork.responses.map (fun entry => entry.2.entries.map fun confirmed =>
      confirmed.origin.clientId) = [["client-a"]] := rfl
  intro entry hentry _
  have hanswer := List.mem_map_of_mem (f := fun entry => entry.2.entries.map fun confirmed =>
    confirmed.origin.clientId) hresponse
  rw [hclients, List.mem_singleton] at hanswer
  have hclient : entry.origin.clientId ∈ response.entries.map fun confirmed => confirmed.origin.clientId :=
    List.mem_map_of_mem hentry
  rw [hanswer] at hclient
  exact List.mem_singleton.mp hclient

end SyncEngine
