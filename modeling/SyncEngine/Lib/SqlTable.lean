import Mathlib.Data.List.Perm.Basic
import SyncEngine.Lib.InsertionMap

/-!
# Tables of a database

Rows with `NULL`, the upsert and the deletion by key, and the tables that mirror a map: one row for each
entry. A table can only mirror a map whose keys and rows tell the same entries apart.
-/

namespace Sql

variable {κ α : Type*}

/-- The values of a row; a column without a value is `NULL`. -/
abbrev Row (κ α : Type*) := κ → Option α

def key (columns : List κ) (row : Row κ α) : List (Option α) := columns.map row

section Statements

variable [DecidableEq κ] [DecidableEq α]

/-- Equality, which never holds of `NULL`. -/
def equals (left right : Option α) : Bool := left.isSome && left = right

def selects (columns : List κ) (values : Row κ α) (row : Row κ α) : Bool :=
  columns.all fun column => equals (row column) (values column)

def deleteWhere (columns : List κ) (values : Row κ α) (table : List (Row κ α)) : List (Row κ α) :=
  table.filter fun row => !selects columns values row

/-- `INSERT … ON CONFLICT (…) DO UPDATE SET`, where the update takes the values of the new row; without a
column to update, `ON CONFLICT (…) DO NOTHING`. -/
def upsert (conflictTarget updateColumns : List κ) (row : Row κ α) (table : List (Row κ α)) : List (Row κ α) :=
  if table.any (selects conflictTarget row) then
    table.map fun old =>
      if selects conflictTarget row old then
        fun column => if column ∈ updateColumns then row column else old column
      else old
  else table ++ [row]

variable {columns updateColumns : List κ} {values row : Row κ α} {table : List (Row κ α)}

omit [DecidableEq κ] in
theorem selects_iff (hvalues : ∀ column ∈ columns, (values column).isSome) :
    selects columns values row = true ↔ key columns row = key columns values := by
  rw [selects, List.all_eq_true, key, key, List.map_inj_left]
  refine forall₂_congr fun column hcolumn => ?_
  rw [equals, Bool.and_eq_true, decide_eq_true_eq]
  exact and_iff_right_of_imp fun hsame => hsame ▸ hvalues column hcolumn

omit [DecidableEq α] in
theorem key_update (hdisjoint : ∀ column ∈ columns, column ∉ updateColumns) (old : Row κ α) :
    key columns (fun column => if column ∈ updateColumns then row column else old column) = key columns old :=
  List.map_congr_left fun column hcolumn => if_neg (hdisjoint column hcolumn)

theorem nodup_upsert (hrow : ∀ column ∈ columns, (row column).isSome)
    (hdisjoint : ∀ column ∈ columns, column ∉ updateColumns) (hnodup : (table.map (key columns)).Nodup) :
    ((upsert columns updateColumns row table).map (key columns)).Nodup := by
  rw [upsert]
  split
  · have hkeys : (table.map fun old => if selects columns row old then
        fun column => if column ∈ updateColumns then row column else old column else old).map (key columns) =
          table.map (key columns) := by
      rw [List.map_map]
      refine List.map_congr_left fun old _ => ?_
      rw [Function.comp_apply]
      split
      · exact key_update hdisjoint old
      · rfl
    rw [hkeys]
    exact hnodup
  · have hfresh : key columns row ∉ table.map (key columns) := by
      intro hmem
      obtain ⟨old, hold, hsame⟩ := List.mem_map.mp hmem
      exact absurd (List.any_eq_true.mpr ⟨old, hold, (selects_iff hrow).mpr hsame⟩) ‹_›
    rw [List.map_append, List.map_singleton, List.nodup_append]
    refine ⟨hnodup, List.nodup_singleton _, fun other hother new hnew hsame => hfresh ?_⟩
    rw [← List.mem_singleton.mp hnew, ← hsame]
    exact hother

omit [DecidableEq κ] in
theorem nodup_deleteWhere (hnodup : (table.map (key columns)).Nodup) :
    ((deleteWhere columns values table).map (key columns)).Nodup :=
  hnodup.sublist (List.filter_sublist.map _)

end Statements

/-! ### Tables that mirror a map -/

section Mirror

variable {K ρ : Type*} {store : ρ → Row κ α} {columns updateColumns : List κ} {table : List (Row κ α)}

/-- One row for each entry of the map. -/
def Mirrors (store : ρ → Row κ α) (table : List (Row κ α)) (m : InsertionMap K ρ) : Prop :=
  table.Perm (m.values.map store)

theorem Mirrors.eq_of_key_eq {m : InsertionMap K ρ} (h : Mirrors store table m)
    (hnodup : (table.map (key columns)).Nodup) {entry other : K × ρ} (hentry : entry ∈ m.entries)
    (hother : other ∈ m.entries) (hkey : key columns (store entry.2) = key columns (store other.2)) :
    entry = other := by
  have hkeys : (m.entries.map fun entry => key columns (store entry.2)).Nodup := by
    have hnodup := (h.map (key columns)).nodup_iff.mp hnodup
    rw [InsertionMap.values, List.map_map, List.map_map] at hnodup
    exact hnodup
  exact List.inj_on_of_nodup_map hkeys hentry hother hkey

variable [DecidableEq κ] [DecidableEq α] [DecidableEq K] {m : InsertionMap K ρ}

/-- An upsert sets an entry, when keys and rows tell it from the same entries. -/
theorem Mirrors.upsert (h : Mirrors store table m) {k : K} {row : ρ}
    (hrow : ∀ column ∈ columns, (store row column).isSome)
    (hcolumns : ∀ column, column ∉ columns → column ∉ updateColumns → ∀ row, store row column = none)
    (hkey : ∀ entry ∈ m.entries, key columns (store entry.2) = key columns (store row) ↔ entry.1 = k) :
    Mirrors store (upsert columns updateColumns (store row) table) (m.set k row) := by
  have hselects : ∀ entry ∈ m.entries, selects columns (store row) (store entry.2) = true ↔ entry.1 = k :=
    fun entry hentry => (selects_iff hrow).trans (hkey entry hentry)
  have hmem : ∀ old, old ∈ table ↔ ∃ entry ∈ m.entries, store entry.2 = old := by
    intro old
    rw [h.mem_iff, InsertionMap.values, List.map_map, List.mem_map]
    rfl
  rw [Mirrors, Sql.upsert]
  by_cases hpresent : k ∈ m.entries.map Prod.fst
  · obtain ⟨entry, hentry, hsame⟩ := List.mem_map.mp hpresent
    have hany : table.any (selects columns (store row)) = true :=
      List.any_eq_true.mpr ⟨_, (hmem _).mpr ⟨entry, hentry, rfl⟩, (hselects entry hentry).mpr hsame⟩
    rw [if_pos hany, InsertionMap.values, m.entries_set_of_mem row hpresent]
    refine (h.map _).trans (List.Perm.of_eq ?_)
    rw [InsertionMap.values, List.map_map, List.map_map, List.map_map, List.map_map]
    refine List.map_congr_left fun other hother => ?_
    simp only [Function.comp_apply]
    by_cases hother' : other.1 = k
    · rw [if_pos ((hselects other hother).mpr hother'), if_pos hother']
      funext column
      by_cases hupdate : column ∈ updateColumns
      · exact if_pos hupdate
      · rw [if_neg hupdate]
        by_cases hcolumn : column ∈ columns
        · exact List.map_inj_left.mp ((hkey other hother).mpr hother') column hcolumn
        · rw [hcolumns column hcolumn hupdate, hcolumns column hcolumn hupdate]
    · rw [if_neg fun hselected => hother' ((hselects other hother).mp hselected), if_neg hother']
  · have hany : ¬table.any (selects columns (store row)) = true := by
      intro hany
      obtain ⟨old, hold, hselected⟩ := List.any_eq_true.mp hany
      obtain ⟨entry, hentry, rfl⟩ := (hmem old).mp hold
      exact hpresent ((hselects entry hentry).mp hselected ▸ List.mem_map_of_mem hentry)
    rw [if_neg hany, InsertionMap.values, m.entries_set_of_fresh k row ((m.get?_eq_none_iff k).mpr hpresent),
      List.map_append, List.map_append]
    exact h.append_right _

omit [DecidableEq κ] [DecidableEq α] in
theorem Mirrors.key_of_upsert {k : K} {row : ρ} (h : Mirrors store table (m.set k row))
    (hnodup : (table.map (key columns)).Nodup) {entry : K × ρ} (hentry : entry ∈ m.entries)
    (hkey : key columns (store entry.2) = key columns (store row)) : entry.1 = k := by
  by_contra hother
  have hold := (m.mem_entries_set k row).mpr (.inr ⟨hentry, hother⟩)
  have hnew := (m.mem_entries_set k row).mpr (.inl rfl)
  exact hother (congrArg Prod.fst (h.eq_of_key_eq hnodup hold hnew hkey))

omit [DecidableEq κ] in
theorem Mirrors.deleteWhere (h : Mirrors store table m) {k : K} {values : Row κ α}
    (hvalues : ∀ column ∈ columns, (values column).isSome)
    (hkey : ∀ entry ∈ m.entries, key columns (store entry.2) = key columns values ↔ entry.1 = k) :
    Mirrors store (deleteWhere columns values table) (m.erase k) := by
  rw [Mirrors, Sql.deleteWhere, InsertionMap.values, InsertionMap.erase]
  refine (h.filter _).trans (List.Perm.of_eq ?_)
  rw [InsertionMap.values, List.map_map, List.map_map, List.filter_map]
  refine congrArg (List.map _) (List.filter_congr fun entry hentry => ?_)
  have hselects := (selects_iff hvalues).trans (hkey entry hentry)
  rw [Function.comp_apply, Function.comp_apply]
  by_cases hsame : entry.1 = k
  · simp [hselects.mpr hsame, hsame]
  · simp [hsame, mt hselects.mp hsame]

omit [DecidableEq κ] in
theorem Mirrors.key_of_deleteWhere {k : K} {values : Row κ α}
    (h : Mirrors store (Sql.deleteWhere columns values table) (m.erase k))
    (hvalues : ∀ column ∈ columns, (values column).isSome) {entry : K × ρ} (hentry : entry ∈ m.entries)
    (hkey : key columns (store entry.2) = key columns values) : entry.1 = k := by
  by_contra hother
  have hkept : entry ∈ (m.erase k).entries := List.mem_filter.mpr ⟨hentry, by simpa using hother⟩
  have hmem : store entry.2 ∈ Sql.deleteWhere columns values table :=
    h.mem_iff.mpr (List.mem_map_of_mem (List.mem_map_of_mem hkept))
  have hselected := (selects_iff hvalues).mpr hkey
  simp [Sql.deleteWhere, hselected] at hmem

end Mirror

end Sql
