import SyncEngine.Proof.RowAuthority
import SyncEngine.Proof.RowNormalization

/-!
# Row state is a map

The rows of a state stand under the canonical texts of their primary keys. The text tells normalized keys
apart, every row stands under the text of its own key, and an operation changes what is read under its own key
and nothing else. So a state is a map from tables and keys to rows, and operations are writes to it.
-/

namespace SyncEngine

open JavaScript Throwing

variable {ν : Type} {runtime : RowRuntime ν} {schema : ReplicaSchemaContract} {table : ReplicaTableContract}
  {tableName : Text} {state next : ReplicaDatabaseState (RowRecord ν)} {operation normalized : RowOperation ν}

/-! ### The map -/

/-- The map from tables and texts of keys to rows that a state is, in whatever order it was filled. -/
def ReplicaDatabaseState.read (state : ReplicaDatabaseState (RowRecord ν)) :
    Text → Option (Text → Option (RowRecord ν)) := fun tableName => (state.tables.get? tableName).map InsertionMap.get?

/-- The same rows under the same keys. -/
def ReplicaDatabaseState.SameRows (state state' : ReplicaDatabaseState (RowRecord ν)) : Prop :=
  state.schemaHash = state'.schemaHash ∧ state.read = state'.read

def RowOperation.row? : RowOperation ν → Option (RowRecord ν)
  | .putRow _ row => some row
  | .deleteRow _ _ => none

/-- The primary key of an operation: that of its row, or the one that it has. -/
def RowOperation.primaryKey (schema : ReplicaSchemaContract) :
    RowOperation ν → Except RowError (JsRecord (KeyEntry ν))
  | .putRow table row => keyFromRow schema table row
  | .deleteRow _ key => .ok (key.map some)

theorem get?_onRows (operation : RowOperation ν) (text : Text) (rows : JsRecord (RowRecord ν)) :
    (operation.onRows text rows).get? = Function.update rows.get? text operation.row? := by
  funext other
  rw [Function.update_apply]
  cases operation with
  | putRow name row => exact rows.get?_set text row other
  | deleteRow name key => exact rows.get?_erase text other

theorem read_after (state : ReplicaDatabaseState (RowRecord ν)) :
    (state.after runtime table operation).read = Function.update state.read operation.tableName
      (some (Function.update (state.rows operation.tableName).get? (operation.keyText runtime table)
        operation.row?)) := by
  funext name
  rw [Function.update_apply, ReplicaDatabaseState.read, ReplicaDatabaseState.after, InsertionMap.get?_set]
  split
  · rw [Option.map_some, get?_onRows]
  · rfl

/-! ### Reached states -/

/-- A state of normal rows under the texts of their keys that has the tables of the schema. -/
structure RowMap (runtime : RowRuntime ν) (schema : ReplicaSchemaContract)
    (state : ReplicaDatabaseState (RowRecord ν)) : Prop extends RowState runtime schema state where
  tables : ∀ name, state.tables.get? name = none ↔ schema.tables.get? name = none

theorem rowMap_initial (hinitial : createInitialDatabaseState schema = .ok state) : RowMap runtime schema state where
  toRowState := rowState_initial hinitial
  tables := by
    intro name
    obtain ⟨-, hfields⟩ := bind_unit_eq_ok.mp hinitial
    rw [← Except.ok.inj hfields]
    dsimp only
    rw [InsertionMap.get?_eq_none_iff, InsertionMap.get?_eq_none_iff, InsertionMap.entries_setAll_of_fresh]
    · rw [InsertionMap.empty, List.nil_append, List.map_map]
      exact Iff.rfl
    · rw [InsertionMap.empty, List.nil_append, List.map_map]
      exact schema.tables.nodupKeys

section Step

variable (hkeys : schema.NonNullKeys)
  (h : normalizeRowOperation runtime schema operation.toJson = .ok normalized)

include hkeys h

/-- A normalizing operation leads to the state after what it is normalized to. -/
theorem applyRowOperation_eq (hstate : state.schemaHash = schema.schemaHash) :
    ∃ table, schema.tables.get? normalized.tableName = some table ∧
      applyRowOperation runtime schema state operation = .ok (state.after runtime table normalized) := by
  have hnormal := normalizeRowOperation_normal hkeys h
  obtain ⟨table, htable⟩ := hnormal.exists_table
  refine ⟨table, htable, ?_⟩
  rw [ReplicaDatabaseState.after, ← hnormal.apply_eq hkeys htable hstate, applyRowOperation, applyRowOperation, h,
    normalizeRowOperation_toJson hnormal]

theorem RowMap.after (hstate : RowMap runtime schema state)
    (htable : schema.tables.get? normalized.tableName = some table) :
    RowMap runtime schema (state.after runtime table normalized) where
  toRowState := hstate.toRowState.after (normalizeRowOperation_normal hkeys h) htable
  tables := by
    intro name
    rw [ReplicaDatabaseState.after, InsertionMap.get?_set]
    split
    · rename_i hname
      simp [hname, htable]
    · exact hstate.tables name

end Step

theorem rowMap_of_run (hkeys : schema.NonNullKeys) {initial : ReplicaDatabaseState (RowRecord ν)}
    (hinitial : createInitialDatabaseState schema = .ok initial) {operations : List (RowOperation ν)}
    (hrun : operations.foldlM (applyRowOperation runtime schema) initial = .ok state) :
    RowMap runtime schema state := by
  refine foldlM_invariant (fun operation _ before after hbefore hafter => ?_) (rowMap_initial hinitial) hrun
  obtain ⟨-, hnormalizes⟩ := bind_unit_eq_ok.mp hafter
  obtain ⟨normalized, h, -⟩ := bind_eq_ok.mp hnormalizes
  obtain ⟨table, htable, happly⟩ := applyRowOperation_eq hkeys h hbefore.schemaHash
  obtain rfl := Except.ok.inj (happly.symm.trans hafter)
  exact hbefore.after hkeys h htable

/-! ### Keys -/

section Keys

variable (hkeys : schema.NonNullKeys) (htable : schema.tables.get? tableName = some table)

include hkeys htable

theorem key_of_normalizePrimaryKey {input : Option (JsonValue ν)} {key : PrimaryKeyRecord ν}
    (h : normalizePrimaryKey runtime tableName (some table) input = .ok key) :
    List.Forall₂ (fun name entry => name = entry.1 ∧ ∃ column, table.columns.get? name = some column ∧
      entry.2 ≠ .null ∧ column.Accepts runtime entry.2) table.primaryKey key.entries := by
  obtain ⟨found, hfound, hall⟩ := normalizePrimaryKey_normal (requireTable_of_get? htable)
    (fun found _ hfound _ _ => hkeys.distinct _ (schema.tables.mem_of_get?_eq_some hfound))
    (fun found hfound => hkeys.ownKey hfound) h
  obtain rfl := Option.some.inj (htable.symm.trans hfound)
  exact hall

theorem normalizePrimaryKey_again {input : Option (JsonValue ν)} {key : PrimaryKeyRecord ν}
    (h : normalizePrimaryKey runtime tableName (some table) input = .ok key) :
    normalizePrimaryKey runtime tableName (some table) (some (.object key.entries)) = .ok key :=
  normalizePrimaryKey_of_normal (key_of_normalizePrimaryKey hkeys htable h) (List.Perm.refl _)

theorem eq_of_keyText (hlawful : runtime.toNumberFormat.Lawful) {input input' : Option (JsonValue ν)}
    {key key' : PrimaryKeyRecord ν} (h : normalizePrimaryKey runtime tableName (some table) input = .ok key)
    (h' : normalizePrimaryKey runtime tableName (some table) input' = .ok key')
    (htext : (table.keyArray key).print runtime.toNumberFormat = (table.keyArray key').print runtime.toNumberFormat) :
    key = key' := by
  have hall := key_of_normalizePrimaryKey hkeys htable h
  have hall' := key_of_normalizePrimaryKey hkeys htable h'
  have hnames : ∀ record : PrimaryKeyRecord ν, List.Forall₂ (fun name entry => name = entry.1 ∧ ∃ column,
      table.columns.get? name = some column ∧ entry.2 ≠ .null ∧ column.Accepts runtime entry.2)
      table.primaryKey record.entries → table.primaryKey = record.entries.map Prod.fst := by
    intro record hrecord
    rw [← map_eq_map_of_forall₂ (f := id) (g := Prod.fst) (hrecord.imp fun _ _ hentry => hentry.1), List.map_id]
  apply InsertionMap.ext_of_get?
  · rw [← hnames key hall, ← hnames key' hall']
  · rw [← hnames key hall]
    exact (hasKey_of_key hall).get?_eq hlawful (hasKey_of_key hall') htext

theorem encodePrimaryKey_of_normalized {input : Option (JsonValue ν)} {key : PrimaryKeyRecord ν}
    (h : normalizePrimaryKey runtime tableName (some table) input = .ok key) :
    encodePrimaryKey runtime schema tableName key = .ok ((table.keyArray key).print runtime.toNumberFormat) := by
  rw [encodePrimaryKey_eq hkeys htable, normalizePrimaryKey_again hkeys htable h]
  rfl

end Keys

theorem RowOperation.Normal.exists_key (hkeys : schema.NonNullKeys) (h : operation.Normal runtime schema)
    (htable : schema.tables.get? operation.tableName = some table) :
    ∃ key : PrimaryKeyRecord ν, operation.primaryKey schema = .ok (key.map some) ∧
      normalizePrimaryKey runtime operation.tableName (some table) (some (.object key.entries)) = .ok key ∧
      operation.keyText runtime table = (table.keyArray key).print runtime.toNumberFormat := by
  cases operation with
  | putRow name row =>
      have hvalues : HasKey runtime table row := h.hasKey hkeys htable
      obtain ⟨-, -, hname, -⟩ := id h
      obtain ⟨key, hread, ⟨found, hfound, -, hall⟩, hsame⟩ := keyFromRow_returns htable hname
        (hkeys.distinct _ (schema.tables.mem_of_get?_eq_some htable)) hvalues
      obtain rfl := Option.some.inj (htable.symm.trans hfound)
      refine ⟨key, hread, normalizePrimaryKey_of_normal hall (List.Perm.refl _), ?_⟩
      have harray : table.keyArray row = table.keyArray key :=
        congrArg JsonValue.array (List.map_congr_left fun name hprimary => by rw [hsame name hprimary])
      exact congrArg (JsonValue.print runtime.toNumberFormat) harray
  | deleteRow name key =>
      obtain ⟨found, hfound, -, hall⟩ := h
      obtain rfl := Option.some.inj (htable.symm.trans hfound)
      exact ⟨key, rfl, normalizePrimaryKey_of_normal hall (List.Perm.refl _), rfl⟩

/-! ### Reads -/

section Reads

variable (hkeys : schema.NonNullKeys) (hstate : RowMap runtime schema state)

include hkeys hstate

theorem RowMap.readTableRow_eq (htable : schema.tables.get? tableName = some table) (received : PrimaryKeyRecord ν) :
    readTableRow runtime schema state tableName received =
      (normalizePrimaryKey runtime tableName (some table) (some (.object received.entries))).map fun key =>
        (state.rows tableName).get? ((table.keyArray key).print runtime.toNumberFormat) := by
  have hpresent : state.tables.get? tableName ≠ none := fun hnone => by
    rw [hstate.tables tableName, htable] at hnone
    simp at hnone
  obtain ⟨rows, hrows⟩ := Option.ne_none_iff_exists'.mp hpresent
  rw [readTableRow, hrows, encodePrimaryKey_eq hkeys htable, ReplicaDatabaseState.rows, hrows]
  cases normalizePrimaryKey runtime tableName (some table) (some (.object received.entries)) <;> rfl

omit hkeys in
theorem RowMap.readTableRow_unknown (hnext : RowMap runtime schema next) (htable : schema.tables.get? tableName = none)
    (received : PrimaryKeyRecord ν) :
    readTableRow runtime schema next tableName received = readTableRow runtime schema state tableName received := by
  rw [readTableRow, readTableRow, (hstate.tables tableName).mpr htable, (hnext.tables tableName).mpr htable]

theorem RowMap.readTableRow_after (h : normalizeRowOperation runtime schema operation.toJson = .ok normalized)
    (htable : schema.tables.get? normalized.tableName = some table) {key received : PrimaryKeyRecord ν}
    (hkey : normalized.primaryKey schema = .ok (key.map some))
    (hreceived : normalizePrimaryKey runtime normalized.tableName (some table) (some (.object received.entries)) =
      .ok key) :
    readTableRow runtime schema (state.after runtime table normalized) normalized.tableName received =
      .ok normalized.row? := by
  have hnext := hstate.after hkeys h htable
  obtain ⟨found, hfound, -, htext⟩ := (normalizeRowOperation_normal hkeys h).exists_key hkeys htable
  obtain rfl := InsertionMap.map_injective (Option.some_injective _) (Except.ok.inj (hkey.symm.trans hfound))
  rw [hnext.readTableRow_eq hkeys htable, hreceived, rows_after, if_pos rfl, htext]
  apply congrArg Except.ok
  rw [get?_onRows]
  exact Function.update_self ..

theorem RowMap.readTableRow_after_of_ne (hlawful : runtime.toNumberFormat.Lawful)
    (h : normalizeRowOperation runtime schema operation.toJson = .ok normalized)
    (htable : schema.tables.get? normalized.tableName = some table) {key received : PrimaryKeyRecord ν}
    (hkey : normalized.primaryKey schema = .ok (key.map some))
    (hother : tableName = normalized.tableName →
      normalizePrimaryKey runtime tableName (some table) (some (.object received.entries)) ≠ .ok key) :
    readTableRow runtime schema (state.after runtime table normalized) tableName received =
      readTableRow runtime schema state tableName received := by
  have hnext := hstate.after hkeys h htable
  cases htable' : schema.tables.get? tableName with
  | none => exact hstate.readTableRow_unknown hnext htable' received
  | some table' =>
      rw [hnext.readTableRow_eq hkeys htable', hstate.readTableRow_eq hkeys htable', rows_after]
      by_cases hname : tableName = normalized.tableName
      · subst hname
        obtain rfl := Option.some.inj (htable.symm.trans htable')
        rw [if_pos rfl]
        cases hreceived : normalizePrimaryKey runtime normalized.tableName (some table)
          (some (.object received.entries)) with
        | error e => rfl
        | ok key' =>
            obtain ⟨found, hfound, hnormal, htext⟩ := (normalizeRowOperation_normal hkeys h).exists_key hkeys htable
            obtain rfl := InsertionMap.map_injective (Option.some_injective _) (Except.ok.inj (hkey.symm.trans hfound))
            have hne : (table.keyArray key').print runtime.toNumberFormat ≠ normalized.keyText runtime table := by
              intro hsame
              apply hother rfl
              rw [hreceived, eq_of_keyText hkeys htable hlawful hreceived hnormal (hsame.trans htext)]
            apply congrArg Except.ok
            rw [get?_onRows]
            exact Function.update_of_ne hne ..
      · rw [if_neg hname]

end Reads

/-! ### Two operations -/

theorem read_after_comm {tableLeft tableRight : ReplicaTableContract} {left right : RowOperation ν}
    (hdifferent : left.tableName ≠ right.tableName ∨
      left.keyText runtime tableLeft ≠ right.keyText runtime tableRight) :
    ((state.after runtime tableLeft left).after runtime tableRight right).read =
      ((state.after runtime tableRight right).after runtime tableLeft left).read := by
  rw [read_after, read_after, read_after, read_after, rows_after, rows_after]
  by_cases hname : right.tableName = left.tableName
  · have htext : left.keyText runtime tableLeft ≠ right.keyText runtime tableRight :=
      hdifferent.resolve_left fun hne => hne hname.symm
    rw [if_pos hname, if_pos hname.symm, get?_onRows, get?_onRows, hname, Function.update_idem, Function.update_idem,
      Function.update_comm htext]
  · have hne : ¬left.tableName = right.tableName := fun hsame => hname hsame.symm
    rw [if_neg hname, if_neg hne, Function.update_comm hne]

/-- What is read depends on the rows and their keys, not on their order. -/
theorem ReplicaDatabaseState.SameRows.readTableRow {state' : ReplicaDatabaseState (RowRecord ν)}
    (h : state.SameRows state') (tableName : Text) (received : PrimaryKeyRecord ν) :
    SyncEngine.readTableRow runtime schema state tableName received =
      SyncEngine.readTableRow runtime schema state' tableName received := by
  have htable := congrFun h.2 tableName
  rw [read, read] at htable
  rw [SyncEngine.readTableRow, SyncEngine.readTableRow]
  cases hrows : state.tables.get? tableName with
  | none =>
      rw [hrows] at htable
      rw [Option.map_eq_none_iff.mp htable.symm]
  | some rows =>
      rw [hrows] at htable
      obtain ⟨rows', hrows', hsame⟩ := Option.map_eq_some_iff.mp htable.symm
      rw [hrows']
      dsimp only
      rw [hsame]

theorem RowMap.commute (hlawful : runtime.toNumberFormat.Lawful) (hkeys : schema.NonNullKeys)
    (hstate : RowMap runtime schema state) {left right normalizedLeft normalizedRight : RowOperation ν}
    (hleft : normalizeRowOperation runtime schema left.toJson = .ok normalizedLeft)
    (hright : normalizeRowOperation runtime schema right.toJson = .ok normalizedRight)
    (hdifferent : normalizedLeft.tableName ≠ normalizedRight.tableName ∨
      normalizedLeft.primaryKey schema ≠ normalizedRight.primaryKey schema) :
    ∃ afterLeft afterRight both both',
      applyRowOperation runtime schema state left = .ok afterLeft ∧
      applyRowOperation runtime schema afterLeft right = .ok both ∧
      applyRowOperation runtime schema state right = .ok afterRight ∧
      applyRowOperation runtime schema afterRight left = .ok both' ∧ both.SameRows both' := by
  have hash : ∀ table operation, (state.after runtime table operation).schemaHash = schema.schemaHash :=
    fun _ _ => hstate.schemaHash
  obtain ⟨tableLeft, htableLeft, happlyLeft⟩ := applyRowOperation_eq hkeys hleft hstate.schemaHash
  obtain ⟨tableRight, htableRight, happlyRight⟩ := applyRowOperation_eq hkeys hright hstate.schemaHash
  obtain ⟨foundRight, hfoundRight, hboth⟩ := applyRowOperation_eq hkeys hright (hash tableLeft normalizedLeft)
  obtain ⟨foundLeft, hfoundLeft, hboth'⟩ := applyRowOperation_eq hkeys hleft (hash tableRight normalizedRight)
  obtain rfl := Option.some.inj (htableRight.symm.trans hfoundRight)
  obtain rfl := Option.some.inj (htableLeft.symm.trans hfoundLeft)
  refine ⟨_, _, _, _, happlyLeft, hboth, happlyRight, hboth', rfl, read_after_comm ?_⟩
  by_cases hname : normalizedLeft.tableName = normalizedRight.tableName
  · right
    intro htext
    obtain ⟨keyLeft, hkeyLeft, hnormalLeft, htextLeft⟩ :=
      (normalizeRowOperation_normal hkeys hleft).exists_key hkeys htableLeft
    obtain ⟨keyRight, hkeyRight, hnormalRight, htextRight⟩ :=
      (normalizeRowOperation_normal hkeys hright).exists_key hkeys htableRight
    rw [hname] at htableLeft hnormalLeft
    obtain rfl := Option.some.inj (htableLeft.symm.trans htableRight)
    have hsame := eq_of_keyText hkeys htableRight hlawful hnormalLeft hnormalRight
      (htextLeft.symm.trans (htext.trans htextRight))
    apply hdifferent.resolve_left fun hne => hne hname
    rw [hkeyLeft, hkeyRight, hsame]
  · exact .inl hname

/-! ### The row state -/

/-- Row state is a faithful map keyed by primary key. Encoding tells normalized keys apart. In every state that a
run reaches, every text maps to a normalized row whose key it is; an operation that normalizes can be applied, and
changes what is read under its own key, in its own table, and nothing else; and operations of different tables or
keys commute. -/
theorem row_state_is_map (hlawful : runtime.toNumberFormat.Lawful) (hkeys : schema.NonNullKeys)
    {initial : ReplicaDatabaseState (RowRecord ν)} (hinitial : createInitialDatabaseState schema = .ok initial) :
    (∀ tableName table, schema.tables.get? tableName = some table →
      ∀ (input input' : Option (JsonValue ν)) (key key' : PrimaryKeyRecord ν),
        normalizePrimaryKey runtime tableName (some table) input = .ok key →
        normalizePrimaryKey runtime tableName (some table) input' = .ok key' →
        (∃ text, encodePrimaryKey runtime schema tableName key = .ok text) ∧
          (encodePrimaryKey runtime schema tableName key = encodePrimaryKey runtime schema tableName key' →
            key = key')) ∧
    ∀ (operations : List (RowOperation ν)) (state : ReplicaDatabaseState (RowRecord ν)),
      operations.foldlM (applyRowOperation runtime schema) initial = .ok state →
      (∀ tableName rows, state.tables.get? tableName = some rows → ∀ entry ∈ rows.entries,
        normalizeRowOperation runtime schema (RowOperation.putRow tableName entry.2).toJson =
            .ok (.putRow tableName entry.2) ∧
          encodeRowPrimaryKey runtime schema tableName entry.2 = .ok entry.1) ∧
      (∀ operation normalized : RowOperation ν,
        normalizeRowOperation runtime schema operation.toJson = .ok normalized →
        ∃ next key, applyRowOperation runtime schema state operation = .ok next ∧
          normalized.primaryKey schema = .ok (key.map some) ∧
          normalizePrimaryKey runtime normalized.tableName (schema.tables.get? normalized.tableName)
            (some (.object key.entries)) = .ok key ∧
          (∀ received : PrimaryKeyRecord ν,
            normalizePrimaryKey runtime normalized.tableName (schema.tables.get? normalized.tableName)
              (some (.object received.entries)) = .ok key →
            readTableRow runtime schema next normalized.tableName received = .ok normalized.row?) ∧
          ∀ (tableName : Text) (received : PrimaryKeyRecord ν),
            (tableName = normalized.tableName →
              normalizePrimaryKey runtime tableName (schema.tables.get? tableName)
                (some (.object received.entries)) ≠ .ok key) →
            readTableRow runtime schema next tableName received =
              readTableRow runtime schema state tableName received) ∧
      ∀ left right normalizedLeft normalizedRight : RowOperation ν,
        normalizeRowOperation runtime schema left.toJson = .ok normalizedLeft →
        normalizeRowOperation runtime schema right.toJson = .ok normalizedRight →
        (normalizedLeft.tableName ≠ normalizedRight.tableName ∨
          normalizedLeft.primaryKey schema ≠ normalizedRight.primaryKey schema) →
        ∃ afterLeft afterRight both both',
          applyRowOperation runtime schema state left = .ok afterLeft ∧
          applyRowOperation runtime schema afterLeft right = .ok both ∧
          applyRowOperation runtime schema state right = .ok afterRight ∧
          applyRowOperation runtime schema afterRight left = .ok both' ∧ both.SameRows both' ∧
          ∀ (tableName : Text) (received : PrimaryKeyRecord ν),
            readTableRow runtime schema both tableName received =
              readTableRow runtime schema both' tableName received := by
  refine ⟨?keys, fun operations state hrun => ⟨?rows, ?reads, ?commute⟩⟩
  case keys =>
    intro tableName table htable input input' key key' h h'
    have htext := encodePrimaryKey_of_normalized hkeys htable h
    have htext' := encodePrimaryKey_of_normalized hkeys htable h'
    refine ⟨⟨_, htext⟩, fun hsame => eq_of_keyText hkeys htable hlawful h h' ?_⟩
    rw [htext, htext'] at hsame
    exact Except.ok.inj hsame
  case rows =>
    have hstate : RowMap runtime schema state := rowMap_of_run hkeys hinitial hrun
    intro tableName rows hrows entry hentry
    have hpresent : schema.tables.get? tableName ≠ none := fun hnone => by
      rw [(hstate.tables tableName).mpr hnone] at hrows
      simp at hrows
    obtain ⟨table, htable⟩ := Option.ne_none_iff_exists'.mp hpresent
    have hmem : entry ∈ (state.rows tableName).entries := by
      rw [ReplicaDatabaseState.rows, hrows]
      exact hentry
    have hnormal := hstate.normal tableName table htable entry hmem
    refine ⟨normalizeRowOperation_toJson hnormal, ?_⟩
    rw [encodeRowPrimaryKey_of_normal hkeys hnormal htable, hstate.text tableName table htable entry hmem]
  case reads =>
    have hstate : RowMap runtime schema state := rowMap_of_run hkeys hinitial hrun
    intro operation normalized h
    obtain ⟨table, htable, happly⟩ := applyRowOperation_eq hkeys h hstate.schemaHash
    obtain ⟨key, hkey, hagain, -⟩ := (normalizeRowOperation_normal hkeys h).exists_key hkeys htable
    rw [htable]
    refine ⟨_, key, happly, hkey, hagain, ?_, ?_⟩
    · intro received hreceived
      exact hstate.readTableRow_after hkeys h htable hkey hreceived
    · intro tableName received hother
      refine hstate.readTableRow_after_of_ne hkeys hlawful h htable hkey fun hname => ?_
      have hne := hother hname
      rwa [hname, htable, ← hname] at hne
  case commute =>
    have hstate : RowMap runtime schema state := rowMap_of_run hkeys hinitial hrun
    intro left right normalizedLeft normalizedRight hleft hright hdifferent
    obtain ⟨afterLeft, afterRight, both, both', hparts⟩ := hstate.commute hlawful hkeys hleft hright hdifferent
    obtain ⟨hfirst, hboth, hsecond, hboth', hsame⟩ := hparts
    exact ⟨_, _, _, _, hfirst, hboth, hsecond, hboth', hsame,
      fun tableName received => hsame.readTableRow tableName received⟩

def noteKey (id : Fin 10) : PrimaryKeyRecord (Fin 10) := InsertionMap.empty.set (ascii "id") (.number id)

theorem row_state_is_map_notes :
    (∃ next, applyRowOperation noteRuntime noteSchema noteState (putNote 1) = .ok next ∧
      readTableRow noteRuntime noteSchema next (ascii "notes") (noteKey 1) = .ok (putNote 1).row? ∧
      readTableRow noteRuntime noteSchema next (ascii "notes") (noteKey 2) = .ok none) ∧
    ∃ both both', [putNote 1, putNote 2].foldlM (applyRowOperation noteRuntime noteSchema) noteState = .ok both ∧
      [putNote 2, putNote 1].foldlM (applyRowOperation noteRuntime noteSchema) noteState = .ok both' ∧
      both.SameRows both' := by
  obtain ⟨-, hstates⟩ := @row_state_is_map (Fin 10) noteRuntime noteSchema digitRuntime_lawful
    noteSchema_keyed.nonNullKeys noteState createInitialDatabaseState_note
  obtain ⟨-, hreads, hcommute⟩ := hstates [] noteState rfl
  have hkey : ∀ id, (putNote id).primaryKey noteSchema = .ok ((noteKey id).map some) := fun _ => rfl
  have hnormal : ∀ id : Fin 10, normalizePrimaryKey noteRuntime (ascii "notes")
      (noteSchema.tables.get? (ascii "notes")) (some (.object (noteKey id).entries)) = .ok (noteKey id) := fun _ => rfl
  have hne : noteKey 2 ≠ noteKey 1 := by
    intro hsame
    have hvalue := congrArg (InsertionMap.get? · (ascii "id")) hsame
    have hnumber : JsonValue.number (2 : Fin 10) = .number 1 := Option.some.inj hvalue
    exact absurd (JsonValue.number.inj hnumber) (by decide)
  have hkeys : (putNote 1).primaryKey noteSchema ≠ (putNote 2).primaryKey noteSchema := by
    rw [hkey, hkey]
    intro hsame
    exact hne (InsertionMap.map_injective (Option.some_injective _) (Except.ok.inj hsame)).symm
  constructor
  · obtain ⟨next, key, happly, hfound, -, hself, hother⟩ := hreads _ _ (putNote_normalized 1)
    obtain rfl := InsertionMap.map_injective (Option.some_injective _) (Except.ok.inj ((hkey 1).symm.trans hfound))
    refine ⟨next, happly, hself (noteKey 1) (hnormal 1), (hother (ascii "notes") (noteKey 2) fun _ => ?_).trans rfl⟩
    rw [hnormal]
    exact fun hsame => hne (Except.ok.inj hsame)
  · obtain ⟨afterLeft, afterRight, both, both', hleft, hboth, hright, hboth', hsame, -⟩ :=
      hcommute _ _ _ _ (putNote_normalized 1) (putNote_normalized 2) (.inr hkeys)
    refine ⟨both, both', ?_, ?_, hsame⟩
    · rw [List.foldlM_cons, hleft, ok_bind, List.foldlM_cons, hboth]
      rfl
    · rw [List.foldlM_cons, hright, ok_bind, List.foldlM_cons, hboth']
      rfl

end SyncEngine
