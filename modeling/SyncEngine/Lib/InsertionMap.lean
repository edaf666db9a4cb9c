import Mathlib.Data.List.Nodup
import Mathlib.Data.Prod.Basic

/-!
# Insertion-ordered maps

A finite map that keeps its keys in the order they were first set, the way a hash table with
insertion order iterates. Setting a key again replaces its value in place. The keys are distinct by
construction, so no lemma below has to assume it.
-/

/-- A finite map whose entries stand in the order their keys were first set. -/
@[ext] structure InsertionMap (κ ν : Type*) where
  entries : List (κ × ν)
  nodupKeys : (entries.map Prod.fst).Nodup

namespace InsertionMap

variable {κ ν α : Type*} [DecidableEq κ]

/-- The map without entries. -/
def empty : InsertionMap κ ν := ⟨[], List.nodup_nil⟩

/-- The value stored under a key. -/
def get? (m : InsertionMap κ ν) (k : κ) : Option ν :=
  (m.entries.find? fun entry => entry.1 = k).map Prod.snd

/-- The stored values, in the order their keys were first set. -/
def values (m : InsertionMap κ ν) : List ν := m.entries.map Prod.snd

/-- Replace the value of a key where it stands, or append a new entry. -/
def setEntries (k : κ) (v : ν) : List (κ × ν) → List (κ × ν)
  | [] => [(k, v)]
  | entry :: entries => if entry.1 = k then (k, v) :: entries else entry :: setEntries k v entries

theorem mem_keys_setEntries (k : κ) (v : ν) (entries : List (κ × ν)) (k' : κ) :
    k' ∈ (setEntries k v entries).map Prod.fst ↔ k' = k ∨ k' ∈ entries.map Prod.fst := by
  induction entries with
  | nil => simp [setEntries]
  | cons entry entries ih =>
      by_cases hkey : entry.1 = k
      · simp [setEntries, hkey]
      · simp only [setEntries, if_neg hkey, List.map_cons, List.mem_cons, ih]
        tauto

theorem nodup_keys_setEntries (k : κ) (v : ν) (entries : List (κ × ν))
    (hnodup : (entries.map Prod.fst).Nodup) : ((setEntries k v entries).map Prod.fst).Nodup := by
  induction entries with
  | nil => simp [setEntries]
  | cons entry entries ih =>
      rw [List.map_cons, List.nodup_cons] at hnodup
      by_cases hkey : entry.1 = k
      · simpa [setEntries, hkey] using hnodup
      · simp only [setEntries, if_neg hkey, List.map_cons, List.nodup_cons, mem_keys_setEntries]
        exact ⟨fun h => h.elim hkey hnodup.1, ih hnodup.2⟩

/-- Store a value under a key. -/
def set (m : InsertionMap κ ν) (k : κ) (v : ν) : InsertionMap κ ν :=
  ⟨setEntries k v m.entries, nodup_keys_setEntries k v m.entries m.nodupKeys⟩

/-- Store a list of entries, one after another. -/
def setAll (m : InsertionMap κ ν) (entries : List (κ × ν)) : InsertionMap κ ν :=
  entries.foldl (fun m entry => m.set entry.1 entry.2) m

/-- Remove a key. -/
def erase (m : InsertionMap κ ν) (k : κ) : InsertionMap κ ν where
  entries := m.entries.filter fun entry => entry.1 ≠ k
  nodupKeys := m.nodupKeys.sublist (List.filter_sublist.map _)

/-- Change the values, and leave the keys. -/
def map {α : Type*} (f : ν → α) (m : InsertionMap κ ν) : InsertionMap κ α where
  entries := m.entries.map (Prod.map id f)
  nodupKeys := by
    rw [List.map_map]
    exact m.nodupKeys

@[simp] theorem get?_map {α : Type*} (f : ν → α) (m : InsertionMap κ ν) (k : κ) :
    (m.map f).get? k = (m.get? k).map f := by
  rw [get?, get?, map, List.find?_map, Option.map_map, Option.map_map]
  rfl

omit [DecidableEq κ] in
theorem map_injective {α : Type*} {f : ν → α} (hf : Function.Injective f) :
    Function.Injective (map f : InsertionMap κ ν → InsertionMap κ α) := by
  intro m m' h
  have hentries : m.entries.map (Prod.map id f) = m'.entries.map (Prod.map id f) := congrArg entries h
  exact InsertionMap.ext ((Function.injective_id.prodMap hf).list_map hentries)

@[simp] theorem get?_empty (k : κ) : (empty : InsertionMap κ ν).get? k = none := rfl

@[simp] theorem setAll_nil (m : InsertionMap κ ν) : m.setAll [] = m := rfl

theorem find?_setEntries (k : κ) (v : ν) (entries : List (κ × ν)) (k' : κ) :
    ((setEntries k v entries).find? fun entry => entry.1 = k').map Prod.snd =
      if k' = k then some v else (entries.find? fun entry => entry.1 = k').map Prod.snd := by
  induction entries with
  | nil => by_cases h : k' = k <;> simp [setEntries, h, eq_comm]
  | cons entry entries ih =>
      by_cases hkey : entry.1 = k
      · by_cases h : k' = k
        · subst h
          simp [setEntries, hkey]
        · have hne : ¬ k = k' := fun he => h he.symm
          simp [setEntries, hkey, h, hne]
      · rw [setEntries, if_neg hkey, List.find?_cons, List.find?_cons]
        by_cases hentry : entry.1 = k'
        · have hne : ¬ k' = k := fun he => hkey (hentry.trans he)
          simp [hentry, hne]
        · simpa [hentry] using ih

theorem get?_set (m : InsertionMap κ ν) (k : κ) (v : ν) (k' : κ) :
    (m.set k v).get? k' = if k' = k then some v else m.get? k' :=
  find?_setEntries k v m.entries k'

theorem get?_eq_none_iff (m : InsertionMap κ ν) (k : κ) :
    m.get? k = none ↔ k ∉ m.entries.map Prod.fst := by
  simp only [get?, Option.map_eq_none_iff, List.find?_eq_none, decide_eq_true_eq, List.mem_map,
    not_exists, not_and]

theorem mem_of_get?_eq_some (m : InsertionMap κ ν) {k : κ} {v : ν} (h : m.get? k = some v) :
    (k, v) ∈ m.entries := by
  obtain ⟨entry, hfind, rfl⟩ := Option.map_eq_some_iff.mp h
  have hkey : entry.1 = k := by simpa using List.find?_some hfind
  exact hkey ▸ List.mem_of_find?_eq_some hfind

theorem get?_eq_some_iff (m : InsertionMap κ ν) {entry : κ × ν} :
    m.get? entry.1 = some entry.2 ↔ entry ∈ m.entries := by
  refine ⟨m.mem_of_get?_eq_some, fun hmem => ?_⟩
  cases hfind : m.entries.find? fun other => other.1 = entry.1 with
  | none => simpa using List.find?_eq_none.mp hfind entry hmem
  | some other =>
      have hkey : other.1 = entry.1 := by simpa using List.find?_some hfind
      have hsame := List.inj_on_of_nodup_map m.nodupKeys (List.mem_of_find?_eq_some hfind) hmem hkey
      rw [get?, hfind, hsame]
      rfl

/-- Maps that have the same keys in the same order, and the same under each of them, are equal. -/
theorem ext_of_get? {m m' : InsertionMap κ ν} (hkeys : m.entries.map Prod.fst = m'.entries.map Prod.fst)
    (hget : ∀ k ∈ m.entries.map Prod.fst, m.get? k = m'.get? k) : m = m' := by
  have hread : ∀ n : InsertionMap κ ν,
      n.entries.map (fun entry => (entry.1, some entry.2)) = (n.entries.map Prod.fst).map fun k => (k, n.get? k) := by
    intro n
    rw [List.map_map]
    exact List.map_congr_left fun entry hentry => Prod.ext rfl (n.get?_eq_some_iff.mpr hentry).symm
  have hsame : m.entries.map (fun entry => (entry.1, some entry.2)) =
      m'.entries.map fun entry => (entry.1, some entry.2) := by
    rw [hread, hread, ← hkeys]
    exact List.map_congr_left fun k hk => by rw [hget k hk]
  have hinjective : Function.Injective fun entry : κ × ν => (entry.1, some entry.2) := by
    intro entry entry' h
    exact Prod.ext (Prod.mk.inj h).1 (Option.some.inj (Prod.mk.inj h).2)
  exact InsertionMap.ext (hinjective.list_map hsame)

theorem setEntries_of_not_mem (k : κ) (v : ν) (entries : List (κ × ν))
    (hfresh : k ∉ entries.map Prod.fst) : setEntries k v entries = entries ++ [(k, v)] := by
  induction entries with
  | nil => rfl
  | cons entry entries ih =>
      rw [List.map_cons, List.mem_cons, not_or] at hfresh
      rw [setEntries, if_neg fun he => hfresh.1 he.symm, ih hfresh.2, List.cons_append]

/-- A key that is set for the first time goes to the end. -/
theorem entries_set_of_fresh (m : InsertionMap κ ν) (k : κ) (v : ν) (hfresh : m.get? k = none) :
    (m.set k v).entries = m.entries ++ [(k, v)] :=
  setEntries_of_not_mem k v m.entries ((m.get?_eq_none_iff k).mp hfresh)

theorem setEntries_of_mem (k : κ) (v : ν) {entries : List (κ × ν)} (hnodup : (entries.map Prod.fst).Nodup)
    (hmem : k ∈ entries.map Prod.fst) :
    setEntries k v entries = entries.map fun entry => if entry.1 = k then (k, v) else entry := by
  induction entries with
  | nil => simp at hmem
  | cons entry entries ih =>
      rw [List.map_cons, List.nodup_cons] at hnodup
      rw [setEntries, List.map_cons]
      by_cases hkey : entry.1 = k
      · have hrest : entries.map (fun entry => if entry.1 = k then (k, v) else entry) = entries := by
          conv_rhs => rw [← List.map_id entries]
          refine List.map_congr_left fun other hother => if_neg fun hsame => hnodup.1 ?_
          rw [hkey, ← hsame]
          exact List.mem_map_of_mem hother
        rw [if_pos hkey, if_pos hkey, hrest]
      · have hlater : k ∈ entries.map Prod.fst :=
          (List.mem_cons.mp hmem).resolve_left fun hsame => hkey hsame.symm
        rw [if_neg hkey, if_neg hkey, ih hnodup.2 hlater]

/-- A key that is set again keeps its place. -/
theorem entries_set_of_mem (m : InsertionMap κ ν) {k : κ} (v : ν) (hmem : k ∈ m.entries.map Prod.fst) :
    (m.set k v).entries = m.entries.map fun entry => if entry.1 = k then (k, v) else entry :=
  setEntries_of_mem k v m.nodupKeys hmem

theorem get?_erase (m : InsertionMap κ ν) (k k' : κ) : (m.erase k).get? k' = if k' = k then none else m.get? k' := by
  rw [get?, erase, List.find?_filter]
  by_cases hkey : k' = k
  · rw [if_pos hkey, Option.map_eq_none_iff, List.find?_eq_none]
    intro entry _ hentry
    simp [hkey] at hentry
  · rw [if_neg hkey, get?]
    congr 2
    funext entry
    by_cases hentry : entry.1 = k'
    · simp [hentry, hkey]
    · simp [hentry]

theorem mem_entries_set (m : InsertionMap κ ν) (k : κ) (v : ν) {entry : κ × ν} :
    entry ∈ (m.set k v).entries ↔ entry = (k, v) ∨ entry ∈ m.entries ∧ entry.1 ≠ k := by
  by_cases hmem : k ∈ m.entries.map Prod.fst
  · rw [m.entries_set_of_mem v hmem, List.mem_map]
    constructor
    · intro hentry
      obtain ⟨old, hold, rfl⟩ := hentry
      by_cases hkey : old.1 = k
      · exact .inl (if_pos hkey)
      · rw [if_neg hkey]
        exact .inr ⟨hold, hkey⟩
    · intro hentry
      cases hentry with
      | inl hnew =>
          obtain ⟨old, hold, hkey⟩ := List.mem_map.mp hmem
          exact ⟨old, hold, (if_pos hkey).trans hnew.symm⟩
      | inr hold => exact ⟨entry, hold.1, if_neg hold.2⟩
  · rw [m.entries_set_of_fresh k v ((m.get?_eq_none_iff k).mpr hmem), List.mem_append, List.mem_singleton, or_comm]
    refine or_congr_right ⟨fun hold => ⟨hold, fun hkey => hmem ?_⟩, And.left⟩
    exact hkey ▸ List.mem_map_of_mem hold

/-- Entries whose keys are new and distinct are appended as they stand. -/
theorem entries_setAll_of_fresh (m : InsertionMap κ ν) (entries : List (κ × ν))
    (hnodup : ((m.entries ++ entries).map Prod.fst).Nodup) :
    (m.setAll entries).entries = m.entries ++ entries := by
  induction entries generalizing m with
  | nil => simp
  | cons entry entries ih =>
      have hfresh : m.get? entry.1 = none := by
        rw [get?_eq_none_iff]
        intro hmem
        rw [List.map_append, List.nodup_append] at hnodup
        exact hnodup.2.2 _ hmem _ (by simp) rfl
      have hset := m.entries_set_of_fresh entry.1 entry.2 hfresh
      have hrest : (((m.set entry.1 entry.2).entries ++ entries).map Prod.fst).Nodup := by
        rw [hset]
        simpa using hnodup
      calc (m.setAll (entry :: entries)).entries
          = ((m.set entry.1 entry.2).setAll entries).entries := rfl
        _ = (m.set entry.1 entry.2).entries ++ entries := ih _ hrest
        _ = m.entries ++ entry :: entries := by rw [hset]; simp

/-- Reading a map whose entries are the image of a list is searching that list. -/
theorem get?_of_entries_eq_map (m : InsertionMap κ ν) (l : List α) (key : α → κ) (value : α → ν)
    (hentries : m.entries = l.map fun a => (key a, value a)) (k : κ) :
    m.get? k = (l.find? fun a => key a = k).map value := by
  rw [get?, hentries, List.find?_map, Option.map_map]
  rfl

end InsertionMap
