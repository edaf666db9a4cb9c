import Mathlib.Data.List.Nodup
import Mathlib.Data.List.Pairwise
import Mathlib.Data.List.Sort

/-!
# Lists with distinct keys

A list read as a table with one row a key. Looking a row up by its key, removing it where it stands
and replacing it where it stands come down to membership, `filter` and `map`, which do not mention
positions any more.
-/

namespace KeyedList

variable {α κ : Type*} [DecidableEq κ] {key : α → κ} {l : List α} {k : κ}

omit [DecidableEq κ] in
theorem eq_of_key_eq (hnodup : (l.map key).Nodup) {a b : α} (ha : a ∈ l) (hb : b ∈ l)
    (hkey : key a = key b) : a = b :=
  List.inj_on_of_nodup_map hnodup ha hb hkey

omit [DecidableEq κ] in
theorem pairwise_or {R : α → α → Prop} (hordered : l.Pairwise R) {a b : α} (ha : a ∈ l) (hb : b ∈ l)
    (hne : a ≠ b) : R a b ∨ R b a := by
  have hsymm : Std.Symm fun a b => R a b ∨ R b a := ⟨fun _ _ => Or.symm⟩
  have heither : l.Pairwise fun a b => R a b ∨ R b a := hordered.imp Or.inl
  exact heither.forall ha hb hne

theorem find?_eq_some_iff (hnodup : (l.map key).Nodup) {a : α} :
    (l.find? fun a => key a = k) = some a ↔ a ∈ l ∧ key a = k := by
  constructor
  · intro hfind
    exact ⟨List.mem_of_find?_eq_some hfind, by simpa using List.find?_some hfind⟩
  · intro hparts
    obtain ⟨hmem, hkey⟩ := hparts
    cases hfind : l.find? fun a => key a = k with
    | none => simpa [hkey] using List.find?_eq_none.mp hfind a hmem
    | some b =>
        have hb : key b = k := by simpa using List.find?_some hfind
        rw [eq_of_key_eq hnodup (List.mem_of_find?_eq_some hfind) hmem (hb.trans hkey.symm)]

theorem find?_eq_none_iff : (l.find? fun a => key a = k) = none ↔ ∀ a ∈ l, key a ≠ k := by
  simp

/-- A table in two parts may be searched in either order. -/
theorem find?_append_comm {front back : List α} (hnodup : ((front ++ back).map key).Nodup) :
    ((back.find? fun a => key a = k).or (front.find? fun a => key a = k)) =
      (front ++ back).find? fun a => key a = k := by
  have hnodup' : ((back ++ front).map key).Nodup := by
    rw [List.map_append, List.nodup_append_comm, ← List.map_append]
    exact hnodup
  rw [← List.find?_append]
  ext a
  rw [find?_eq_some_iff hnodup', find?_eq_some_iff hnodup, List.mem_append, List.mem_append, or_comm]

/-- The position a search returns, as the row that stands there between rows with other keys. -/
theorem eq_append_of_findIdx? (hnodup : (l.map key).Nodup) {i : Nat}
    (hfind : (l.findIdx? fun a => key a = k) = some i) :
    ∃ front a back, l = front ++ a :: back ∧ front.length = i ∧ key a = k ∧
      (∀ b ∈ front, key b ≠ k) ∧ ∀ b ∈ back, key b ≠ k := by
  obtain ⟨hlt, hfound, -⟩ := List.findIdx?_eq_some_iff_getElem.mp hfind
  have hkey : key l[i] = k := by simpa using hfound
  have hsplit : l = l.take i ++ l[i] :: l.drop (i + 1) := by simp
  rw [hsplit, List.map_append, List.map_cons, List.nodup_append, List.nodup_cons] at hnodup
  obtain ⟨-, ⟨hback, -⟩, hfront⟩ := hnodup
  refine ⟨l.take i, l[i], l.drop (i + 1), hsplit, by simp; omega, hkey, ?_, ?_⟩
  · intro b hb he
    exact hfront (key b) (List.mem_map_of_mem hb) (key l[i]) List.mem_cons_self (he.trans hkey.symm)
  · intro b hb he
    rw [hkey, ← he] at hback
    exact hback (List.mem_map_of_mem hb)

theorem eraseIdx_of_findIdx? (hnodup : (l.map key).Nodup) {i : Nat}
    (hfind : (l.findIdx? fun a => key a = k) = some i) :
    l.eraseIdx i = l.filter fun a => key a ≠ k := by
  obtain ⟨front, a, back, rfl, rfl, hkey, hfront, hback⟩ := eq_append_of_findIdx? hnodup hfind
  rw [List.eraseIdx_append_of_length_le (Nat.le_refl _), Nat.sub_self, List.eraseIdx_cons_zero,
    List.filter_append, List.filter_cons_of_neg (by simpa using hkey),
    List.filter_eq_self.mpr (by simpa using hfront), List.filter_eq_self.mpr (by simpa using hback)]

theorem set_of_findIdx? (hnodup : (l.map key).Nodup) {i : Nat}
    (hfind : (l.findIdx? fun a => key a = k) = some i) (b : α) :
    l.set i b = l.map fun a => if key a = k then b else a := by
  obtain ⟨front, a, back, rfl, rfl, hkey, hfront, hback⟩ := eq_append_of_findIdx? hnodup hfind
  have hsame : ∀ rows : List α, (∀ row ∈ rows, key row ≠ k) →
      rows.map (fun row => if key row = k then b else row) = rows := by
    intro rows hrows
    conv_rhs => rw [← List.map_id rows]
    exact List.map_congr_left fun row hrow => if_neg (hrows row hrow)
  rw [List.set_append_right _ _ (Nat.le_refl _), Nat.sub_self, List.set_cons_zero, List.map_append, List.map_cons,
    if_pos hkey, hsame front hfront, hsame back hback]

theorem exists_findIdx? (hnodup : (l.map key).Nodup) {a : α} (ha : a ∈ l) (hkey : key a = k) :
    ∃ i, (l.findIdx? fun a => key a = k) = some i ∧ l[i]? = some a := by
  cases hfind : l.findIdx? fun a => key a = k with
  | none => simpa [hkey] using List.findIdx?_eq_none_iff.mp hfind a ha
  | some i =>
      obtain ⟨front, b, back, rfl, rfl, hb, -, -⟩ := eq_append_of_findIdx? hnodup hfind
      obtain rfl := eq_of_key_eq hnodup (by simp) ha (hb.trans hkey.symm)
      exact ⟨_, rfl, by simp⟩

theorem findIdx?_eq_none (habsent : ∀ a ∈ l, key a ≠ k) :
    (l.findIdx? fun a => key a = k) = none := by
  rw [List.findIdx?_eq_none_iff]
  simpa using habsent

/-- A property that holds of whatever precedes one of its elements splits the list. -/
theorem filter_append_filter_not {R : α → α → Prop} {p : α → Bool} (hordered : l.Pairwise R)
    (hdownward : ∀ a ∈ l, ∀ b ∈ l, R a b → p b → p a) : l.filter p ++ l.filter (fun a => !p a) = l := by
  induction l with
  | nil => rfl
  | cons a l ih =>
      obtain ⟨hfirst, hrest⟩ := List.pairwise_cons.mp hordered
      have hsplit := ih hrest fun b hb c hc => hdownward b (List.mem_cons_of_mem a hb) c (List.mem_cons_of_mem a hc)
      by_cases hp : p a
      · rw [List.filter_cons_of_pos hp, List.filter_cons_of_neg (by simp [hp]), List.cons_append, hsplit]
      · have hnone : l.filter p = [] := List.filter_eq_nil_iff.mpr fun b hb hpb =>
          hp (hdownward a List.mem_cons_self b (List.mem_cons_of_mem a hb) (hfirst b hb) hpb)
        rw [List.filter_cons_of_neg hp, List.filter_cons_of_pos (by simp [hp]), hnone, List.nil_append]
        rw [hnone, List.nil_append] at hsplit
        rw [hsplit]

theorem eq_of_sorted_of_mem_iff {β : Type*} [Preorder β] (rank : α → β) {l l' : List α}
    (hl : l.Pairwise fun a b => rank a < rank b) (hl' : l'.Pairwise fun a b => rank a < rank b)
    (hmem : ∀ a, a ∈ l ↔ a ∈ l') : l = l' := by
  have hirreflexive : Std.Irrefl fun a b => rank a < rank b := ⟨fun a => lt_irrefl (rank a)⟩
  have hantisymmetric : Std.Antisymm fun a b => rank a < rank b :=
    ⟨fun a b hlt hgt => absurd hgt hlt.asymm⟩
  exact hl.eq_of_mem_iff hl' hmem

omit [DecidableEq κ] in
theorem insertionSort_eq_of_perm [LinearOrder κ] (rank : α → κ) {l l' : List α} (hperm : l.Perm l')
    (hnodup : (l.map rank).Nodup) :
    l.insertionSort (fun a b => rank a ≤ rank b) = l'.insertionSort fun a b => rank a ≤ rank b := by
  have hsorted := (List.perm_insertionSort (fun a b => rank a ≤ rank b) l).trans
    (hperm.trans (List.perm_insertionSort (fun a b => rank a ≤ rank b) l').symm)
  apply hsorted.eq_of_pairwise ?_ (List.pairwise_insertionSort _ _) (List.pairwise_insertionSort _ _)
  intro a b ha hb hab hba
  rw [List.mem_insertionSort] at ha hb
  exact eq_of_key_eq hnodup ha (hperm.mem_iff.mpr hb) (le_antisymm hab hba)

omit [DecidableEq κ] in
/-- Sorting tells exactly whether one list is a rearrangement of another. -/
theorem insertionSort_eq_iff_perm [LinearOrder κ] {l l' : List κ} :
    l.insertionSort (· ≤ ·) = l'.insertionSort (· ≤ ·) ↔ l.Perm l' := by
  constructor
  · intro hsame
    exact (List.perm_insertionSort (· ≤ ·) l).symm.trans (hsame ▸ List.perm_insertionSort (· ≤ ·) l')
  · intro hperm
    apply List.Perm.eq_of_pairwise' (List.pairwise_insertionSort _ _) (List.pairwise_insertionSort _ _)
    exact (List.perm_insertionSort _ _).trans (hperm.trans (List.perm_insertionSort _ _).symm)

theorem find?_of_perm {l' : List α} (hperm : l.Perm l') (hnodup : (l'.map key).Nodup) {a : α} (ha : a ∈ l') :
    (l.find? fun b => key b = key a) = some a :=
  (find?_eq_some_iff ((hperm.map key).nodup_iff.mpr hnodup)).mpr ⟨hperm.mem_iff.mpr ha, rfl⟩

theorem find?_eq_of_perm {l' : List α} (hperm : l.Perm l') (hnodup : (l'.map key).Nodup) (k : κ) :
    (l.find? fun b => key b = k) = l'.find? fun b => key b = k := by
  cases hfind : l'.find? fun b => key b = k with
  | none =>
      rw [List.find?_eq_none] at hfind ⊢
      exact fun a ha => hfind a (hperm.mem_iff.mp ha)
  | some a =>
      obtain ⟨hmem, rfl⟩ := (find?_eq_some_iff hnodup).mp hfind
      exact find?_of_perm hperm hnodup hmem

end KeyedList
