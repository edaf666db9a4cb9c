import SyncEngine.Model.Discovery

/-!
# Discovery and the order of metadata

Everything that a discovery makes of the rows of a query is made of the rows in an order of their own: the
tables by name, the columns by identifier. So rows that are rearranged give the same contracts, and with
them the same fingerprint.
-/

namespace SyncEngine

open JavaScript Throwing

/-! ### Rearranged rows -/

/-- The same outcome, with the rows in any order. -/
inductive D1AllResult.Rearranges : D1AllResult → D1AllResult → Prop
  | same (result : D1AllResult) : Rearranges result result
  | results {rows rows' : List MetadataRow} (hperm : rows.Perm rows') : Rearranges (.results rows) (.results rows')

/-- The same database, with the rows of its metadata in any order. -/
def D1QueryExecutor.Rearranges (executor executor' : D1QueryExecutor) : Prop :=
  ∀ sql, (executor sql).Rearranges (executor' sql)

/-- The columns of every table have distinct identifiers. -/
def D1QueryExecutor.DistinctColumns (executor : D1QueryExecutor) : Prop :=
  ∀ tableName rows, executor (tableInfoSql tableName) = .results rows → (rows.map MetadataRow.columnId).Nodup

variable {runtime : DiscoveryRuntime} {executor executor' : D1QueryExecutor}

theorem allRows_agree (hrearranges : executor.Rearranges executor') (sql : Text) :
    Agree List.Perm (allRows executor sql) (allRows executor' sql) := by
  have hanswer := hrearranges sql
  unfold allRows
  generalize executor sql = answer at hanswer ⊢
  generalize executor' sql = answer' at hanswer ⊢
  cases hanswer with
  | same => exact (Agree.refl _).mono fun rows rows' hsame => hsame ▸ List.Perm.refl rows
  | results hperm => exact .ok hperm

theorem readTableRows_agree (hrearranges : executor.Rearranges executor') :
    Agree List.Perm (D1QueryExecutor.readTableRows executor) (D1QueryExecutor.readTableRows executor') := by
  have hprimary := allRows_agree hrearranges tableListSql
  have hfallback := allRows_agree hrearranges sqliteSchemaFallbackSql
  unfold D1QueryExecutor.readTableRows
  generalize allRows executor tableListSql = rows at hprimary ⊢
  generalize allRows executor' tableListSql = rows' at hprimary ⊢
  cases hprimary with
  | ok hperm => exact .ok hperm
  | error primaryError =>
      generalize allRows executor sqliteSchemaFallbackSql = rows at hfallback ⊢
      generalize allRows executor' sqliteSchemaFallbackSql = rows' at hfallback ⊢
      cases hfallback with
      | ok hperm => exact .ok hperm
      | error fallbackError => exact .error _

/-! ### Tables and columns -/

theorem allRows_eq_ok {sql : Text} {rows : List MetadataRow} (h : allRows executor sql = .ok rows) :
    executor sql = .results rows := by
  rw [allRows] at h
  cases hanswer : executor sql with
  | results rows' =>
      rw [hanswer, Except.ok.injEq] at h
      rw [h]
  | thrown | failed | withoutResults =>
      rw [hanswer] at h
      simp at h

theorem readTable_eq_of_rearranges (hrearranges : executor.Rearranges executor') (hcolumns : executor.DistinctColumns)
    (tableName : Text) : readTable runtime executor tableName = readTable runtime executor' tableName := by
  have hagree := allRows_agree hrearranges (tableInfoSql tableName)
  rw [readTable, readTable]
  cases hrows : allRows executor (tableInfoSql tableName) with
  | error error => rw [hagree.of_left_eq_error hrows]
  | ok rows =>
      obtain ⟨rows', hrows', hperm⟩ := hagree.of_left_eq_ok hrows
      have hordered := KeyedList.insertionSort_eq_of_perm MetadataRow.columnId hperm
        (hcolumns tableName rows (allRows_eq_ok hrows))
      rw [hrows', ok_bind, ok_bind, hordered]

/-! ### Sets of names -/

theorem nodup_eraseDups (names : List Text) : names.eraseDups.Nodup := by
  induction hlength : names.length using Nat.strong_induction_on generalizing names with
  | _ n ih =>
      cases names with
      | nil => exact List.nodup_nil
      | cons name names =>
          have hshorter := List.length_filter_le (fun other => !other == name) names
          rw [List.length_cons] at hlength
          rw [List.eraseDups_cons, List.nodup_cons]
          constructor
          · simp
          · apply ih _ _ _ rfl
            omega

theorem perm_eraseDups {names names' : List Text} (hmem : ∀ name, name ∈ names ↔ name ∈ names') :
    names.eraseDups.Perm names'.eraseDups := by
  rw [List.perm_ext_iff_of_nodup (nodup_eraseDups _) (nodup_eraseDups _)]
  intro name
  rw [List.mem_eraseDups, List.mem_eraseDups, hmem]

theorem missingTables_eq_of_perm {names names' : List Text} (hperm : names.Perm names')
    (includeTables : Option (List Text)) : missingTables names includeTables = missingTables names' includeTables := by
  have hcontains : ∀ name, names.contains name = names'.contains name := by
    intro name
    rw [List.contains_eq_mem, List.contains_eq_mem, decide_eq_decide, hperm.mem_iff]
  unfold missingTables
  congr 1
  funext name
  rw [hcontains]

theorem selectedTables_eq_of_perm {names names' : List Text} (hperm : names.Perm names') (hnodup : names.Nodup)
    (p : Text → Bool) :
    (names.filter p).insertionSort (· ≤ ·) = (names'.filter p).insertionSort (· ≤ ·) := by
  apply KeyedList.insertionSort_eq_of_perm id (hperm.filter p)
  rw [List.map_id]
  exact hnodup.filter p

/-! ### The schema -/

/-- A discovery does not depend on the order of metadata rows: where the columns of every table have
distinct identifiers, rearranged rows give the same error, or the same tables and columns in the same order,
with the same primary keys and the same fingerprint. -/
theorem discoverD1Schema_eq_of_rearranges (runtime : DiscoveryRuntime) {executor executor' : D1QueryExecutor}
    (hrearranges : executor.Rearranges executor') (hcolumns : executor.DistinctColumns)
    (options : DiscoverD1SchemaOptions) :
    discoverD1Schema runtime executor options = discoverD1Schema runtime executor' options := by
  have hagree := readTableRows_agree hrearranges
  have htable : readTable runtime executor = readTable runtime executor' := by
    funext tableName
    exact readTable_eq_of_rearranges hrearranges hcolumns tableName
  rw [discoverD1Schema, discoverD1Schema]
  cases hrows : D1QueryExecutor.readTableRows executor with
  | error error =>
      rw [hagree.of_left_eq_error hrows]
      rfl
  | ok rows =>
      obtain ⟨rows', hrows', hperm⟩ := hagree.of_left_eq_ok hrows
      have hnames := perm_eraseDups fun name =>
        (hperm.filterMap fun row => MetadataValue.readName row.name).mem_iff (a := name)
      have hmissing := missingTables_eq_of_perm hnames
      have hselected := selectedTables_eq_of_perm hnames (nodup_eraseDups _)
      rw [hrows', ok_bind, ok_bind, htable]
      simp only [hmissing, hselected]

def membershipPayload : Text :=
  ["\x7b\"formatVersion\":1,", "\"tables\":\x7b\"memberships\":", "\x7b\"primaryKey\":",
    "[\"user_id\",\"team_id\"],", "\"columns\":\x7b\"team_id\":", "\x7b\"affinity\":\"integer\",",
    "\"nullable\":false,", "\"generated\":false\x7d,", "\"user_id\":\x7b\"affinity\":",
    "\"integer\",\"nullable\":", "false,\"generated\":", "false\x7d,\"role\":", "\x7b\"affinity\":\"text\",",
    "\"nullable\":true,", "\"generated\":false\x7d\x7d\x7d\x7d\x7d"].flatMap ascii

def membershipRuntime : DiscoveryRuntime where
  toUpperCase text := text.map fun unit => if 97 ≤ unit.val ∧ unit.val ≤ 122 then unit - 32 else unit
  sha256 := some fun text => if text ≠ membershipPayload then .replicate 32 0 else #v[
    120, 165, 19, 73, 11, 83, 58, 177, 178, 181, 158, 132, 79, 79, 163, 140, 104, 112, 221, 152, 99, 0, 148, 29, 237,
    88, 221, 103, 195, 16, 20, 141]

def membershipColumns : List MetadataRow := [
  { name := .string (ascii "team_id"), cid := .integer 0, type := .string (ascii "integer"),
    notnull := .integer 1, pk := .integer 2, hidden := .integer 0 },
  { name := .string (ascii "user_id"), cid := .integer 1, type := .string (ascii "INTEGER"),
    notnull := .integer 1, pk := .integer 1, hidden := .integer 0 },
  { name := .string (ascii "role"), cid := .integer 2, type := .string (ascii "TEXT"),
    notnull := .integer 0, pk := .integer 0, hidden := .integer 0 }]

def membershipDatabase (arrange : List MetadataRow → List MetadataRow) : D1QueryExecutor := fun sql =>
  if sql = tableInfoSql (ascii "memberships") then .results (arrange membershipColumns)
  else if sql = tableListSql then .results (arrange [
    { name := .string (ascii "memberships") },
    { name := .string (ascii "d1_migrations") }])
  else .thrown

theorem membershipDatabase_rearranges :
    (membershipDatabase id).Rearranges (membershipDatabase List.reverse) := by
  intro sql
  simp only [membershipDatabase]
  split
  · exact .results (List.reverse_perm _).symm
  · split
    · exact .results (List.reverse_perm _).symm
    · exact .same _

theorem membershipDatabase_distinctColumns : (membershipDatabase id).DistinctColumns := by
  intro tableName rows hrows
  have hother : tableInfoSql tableName ≠ tableListSql := by
    intro hsame
    have hfirst : (tableInfoSql tableName).head? = some 80 := rfl
    rw [hsame] at hfirst
    exact absurd hfirst (by decide)
  rw [membershipDatabase, if_neg hother] at hrows
  split at hrows
  · rw [D1AllResult.results.injEq] at hrows
    rw [← hrows]
    decide
  · simp at hrows

/-- The table with its rows one way and the other. -/
theorem discoverD1Schema_memberships :
    discoverD1Schema membershipRuntime (membershipDatabase id) {} =
      discoverD1Schema membershipRuntime (membershipDatabase List.reverse) {} ∧
    (discoverD1Schema membershipRuntime (membershipDatabase id) {}).toOption.map (fun schema =>
      (schema.schemaHash, schema.tables.entries.map fun table => (table.1, table.2.primaryKey))) =
      some (ascii "sha256:78a513490b533ab1b2b59e844f4fa38c6870dd986300941ded58dd67c310148d",
        [(ascii "memberships", [ascii "user_id", ascii "team_id"])]) :=
  ⟨discoverD1Schema_eq_of_rearranges membershipRuntime membershipDatabase_rearranges
    membershipDatabase_distinctColumns {}, by decide +kernel⟩

end SyncEngine
