import SyncEngine.Lib.Json
import SyncEngine.Lib.KeyedList

/-!
# A normal form of JSON texts

The printer that sorts the keys of every object, and what it is for: two trees print alike exactly
when they are equal up to the order of their keys, and reading what was printed gives the tree back
with its keys sorted.
-/

namespace JavaScript

/-- Sort fields by key, as `Array.prototype.sort` sorts distinct strings. -/
def sortByKey {α : Type*} (fields : List (Text × α)) : List (Text × α) :=
  fields.insertionSort fun a b => a.1 ≤ b.1

/-- The texts of a list with commas between them. -/
def join (texts : List Text) : Text := [44].intercalate texts

/-- The own property of an object under a key. -/
def ownField {ν : Type*} (fields : List (Text × JsonValue ν)) (key : Text) : Option (JsonValue ν) :=
  (fields.find? fun field => field.1 = key).map Prod.snd

namespace JsonValue

variable {ν : Type*}

/-- Induction over a tree, with the items of an array and the values of an object as one case each. -/
@[elab_as_elim]
theorem tree_induction {motive : JsonValue ν → Prop} (null : motive .null)
    (boolean : ∀ value, motive (.boolean value)) (number : ∀ value, motive (.number value))
    (string : ∀ value, motive (.string value))
    (array : ∀ items, (∀ item ∈ items, motive item) → motive (.array items))
    (object : ∀ fields, (∀ field ∈ fields, motive field.2) → motive (.object fields)) :
    ∀ x, motive x
  | .null => null
  | .boolean value => boolean value
  | .number value => number value
  | .string value => string value
  | .array items =>
      array items fun item _ => tree_induction null boolean number string array object item
  | .object fields =>
      object fields fun field _ => tree_induction null boolean number string array object field.2
termination_by x => sizeOf x
decreasing_by
  · have := List.sizeOf_lt_of_mem ‹item ∈ items›
    simp only [JsonValue.array.sizeOf_spec]
    omega
  · have := List.sizeOf_lt_of_mem ‹field ∈ fields›
    have : sizeOf field.2 < sizeOf field := by
      cases field
      simp only [Prod.mk.sizeOf_spec]
      omega
    simp only [JsonValue.object.sizeOf_spec]
    omega

/-- The numbers are finite and no object repeats a key. -/
inductive Valid (format : NumberFormat ν) : JsonValue ν → Prop
  | null : Valid format .null
  | boolean (value : Bool) : Valid format (.boolean value)
  | number {value : ν} (hfinite : format.isFinite value) : Valid format (.number value)
  | string (value : Text) : Valid format (.string value)
  | array {items : List (JsonValue ν)} (hitems : ∀ item ∈ items, Valid format item) :
      Valid format (.array items)
  | object {fields : List (Text × JsonValue ν)} (hkeys : (fields.map Prod.fst).Nodup)
      (hfields : ∀ field ∈ fields, Valid format field.2) : Valid format (.object fields)

/-- Equality up to the order of keys. -/
inductive SameUpToOrder : JsonValue ν → JsonValue ν → Prop
  | null : SameUpToOrder .null .null
  | boolean (value : Bool) : SameUpToOrder (.boolean value) (.boolean value)
  | number (value : ν) : SameUpToOrder (.number value) (.number value)
  | string (value : Text) : SameUpToOrder (.string value) (.string value)
  | array {items items' : List (JsonValue ν)} (hlength : items.length = items'.length)
      (hitems : ∀ (index : Nat) item item', items[index]? = some item → items'[index]? = some item' →
        SameUpToOrder item item') :
      SameUpToOrder (.array items) (.array items')
  | object {fields fields' : List (Text × JsonValue ν)}
      (hkeys : ∀ key, key ∈ fields.map Prod.fst ↔ key ∈ fields'.map Prod.fst)
      (hfields : ∀ key value value', (key, value) ∈ fields → (key, value') ∈ fields' →
        SameUpToOrder value value') :
      SameUpToOrder (.object fields) (.object fields')

mutual

/-- The tree with the keys of every object sorted. -/
def sorted : JsonValue ν → JsonValue ν
  | .null => .null
  | .boolean value => .boolean value
  | .number value => .number value
  | .string value => .string value
  | .array items => .array (sortedItems items)
  | .object fields => .object (sortByKey (sortedFields fields))

def sortedItems : List (JsonValue ν) → List (JsonValue ν)
  | [] => []
  | item :: items => sorted item :: sortedItems items

def sortedFields : List (Text × JsonValue ν) → List (Text × JsonValue ν)
  | [] => []
  | (key, value) :: fields => (key, sorted value) :: sortedFields fields

end

variable (format : NumberFormat ν)

mutual

/-- The text of a tree, with the keys of every object sorted. -/
def print : JsonValue ν → Text
  | .null => ascii "null"
  | .boolean value => if value then ascii "true" else ascii "false"
  | .number value => format.literal value
  | .string value => quote value
  | .array items => 91 :: join (printItems items) ++ [93]
  | .object fields =>
      123 :: join ((sortByKey (printFields fields)).map fun field => quote field.1 ++ 58 :: field.2) ++
        [125]

def printItems : List (JsonValue ν) → List Text
  | [] => []
  | item :: items => print item :: printItems items

def printFields : List (Text × JsonValue ν) → List (Text × Text)
  | [] => []
  | (key, value) :: fields => (key, print value) :: printFields fields

end

mutual

/-- `JSON.stringify`, with the fields of an object as they stand. -/
def stringify : JsonValue ν → Text
  | .null => ascii "null"
  | .boolean value => if value then ascii "true" else ascii "false"
  | .number value => if format.isFinite value then format.literal value else ascii "null"
  | .string value => quote value
  | .array items => 91 :: join (stringifyItems items) ++ [93]
  | .object fields => 123 :: join (stringifyFields fields) ++ [125]

def stringifyItems : List (JsonValue ν) → List Text
  | [] => []
  | item :: items => stringify item :: stringifyItems items

def stringifyFields : List (Text × JsonValue ν) → List Text
  | [] => []
  | (key, value) :: fields => (quote key ++ 58 :: stringify value) :: stringifyFields fields

end

/-- The text of a field. -/
def printField (field : Text × JsonValue ν) : Text := quote field.1 ++ 58 :: print format field.2

end JsonValue

/-! ### Sorting -/

section Sorting

variable {α β : Type*}

theorem map_sortByKey (f : α → β) (fields : List (Text × α)) :
    (sortByKey fields).map (Prod.map id f) = sortByKey (fields.map (Prod.map id f)) :=
  List.map_insertionSort _ _ _ _ fun _ _ _ _ => Iff.rfl

theorem sortByKey_perm (fields : List (Text × α)) : (sortByKey fields).Perm fields :=
  List.perm_insertionSort _ _

theorem mem_sortByKey {fields : List (Text × α)} {field : Text × α} :
    field ∈ sortByKey fields ↔ field ∈ fields := (sortByKey_perm fields).mem_iff

theorem sortByKey_pairwise (fields : List (Text × α)) :
    (sortByKey fields).Pairwise fun a b => a.1 ≤ b.1 :=
  List.pairwise_insertionSort _ _

theorem nodup_keys_sortByKey {fields : List (Text × α)} (hkeys : (fields.map Prod.fst).Nodup) :
    ((sortByKey fields).map Prod.fst).Nodup :=
  ((sortByKey_perm fields).map Prod.fst).nodup_iff.mpr hkeys

/-- Distinct keys have one sorted order. -/
theorem sortByKey_eq_of_perm {fields fields' : List (Text × α)} (hperm : fields.Perm fields')
    (hkeys : (fields.map Prod.fst).Nodup) : sortByKey fields = sortByKey fields' :=
  KeyedList.insertionSort_eq_of_perm Prod.fst hperm hkeys

theorem sortByKey_sortByKey (fields : List (Text × α)) : sortByKey (sortByKey fields) = sortByKey fields :=
  List.Pairwise.insertionSort_eq (sortByKey_pairwise fields)

theorem perm_of_sortByKey_eq {fields fields' : List (Text × α)}
    (h : sortByKey fields = sortByKey fields') : fields.Perm fields' :=
  (sortByKey_perm fields).symm.trans (h ▸ sortByKey_perm fields')

end Sorting

namespace JsonValue

variable {ν : Type*}

theorem sortedItems_eq_map (items : List (JsonValue ν)) : sortedItems items = items.map sorted := by
  induction items with
  | nil => rfl
  | cons item items ih => rw [sortedItems, ih, List.map_cons]

theorem sortedFields_eq_map (fields : List (Text × JsonValue ν)) :
    sortedFields fields = fields.map (Prod.map id sorted) := by
  induction fields with
  | nil => rfl
  | cons field fields ih => rw [sortedFields, ih, List.map_cons, Prod.map_apply, id]

theorem keys_sortedFields (fields : List (Text × JsonValue ν)) :
    (sortedFields fields).map Prod.fst = fields.map Prod.fst := by
  rw [sortedFields_eq_map, List.map_map]
  rfl

theorem sorted_array (items : List (JsonValue ν)) : sorted (.array items) = .array (items.map sorted) := by
  rw [sorted, sortedItems_eq_map]

theorem sorted_object (fields : List (Text × JsonValue ν)) :
    sorted (.object fields) = .object (sortByKey (fields.map (Prod.map id sorted))) := by
  rw [sorted, sortedFields_eq_map]

/-- A tree whose keys are in order is sorted. -/
theorem sorted_object_eq_self {fields : List (Text × JsonValue ν)} (hkeys : (fields.map Prod.fst).Pairwise (· ≤ ·))
    (hvalues : ∀ field ∈ fields, field.2.sorted = field.2) : sorted (.object fields) = .object fields := by
  have hmap : fields.map (Prod.map id sorted) = fields := by
    conv_rhs => rw [← List.map_id fields]
    exact List.map_congr_left fun field hfield => Prod.ext rfl (hvalues field hfield)
  rw [sorted_object, hmap]
  exact congrArg object (List.Pairwise.insertionSort_eq (List.pairwise_map.mp hkeys))

@[simp] theorem sorted_sorted (x : JsonValue ν) : x.sorted.sorted = x.sorted := by
  induction x using tree_induction with
  | null | boolean | number | string => rfl
  | array items ih =>
      rw [sorted_array, sorted_array, List.map_map]
      exact congrArg array (List.map_congr_left ih)
  | object fields ih =>
      have hmap : fields.map (Prod.map id sorted ∘ Prod.map id sorted) = fields.map (Prod.map id sorted) :=
        List.map_congr_left fun field hfield => Prod.ext rfl (ih field hfield)
      rw [sorted_object, sorted_object, map_sortByKey, List.map_map, hmap, sortByKey_sortByKey]

variable {format : NumberFormat ν}

theorem valid_sorted {x : JsonValue ν} (hvalid : Valid format x) : Valid format x.sorted := by
  induction hvalid with
  | null => exact .null
  | boolean value => exact .boolean value
  | number hfinite => exact .number hfinite
  | string value => exact .string value
  | array _ ih =>
      rw [sorted_array]
      refine .array fun item hitem => ?_
      obtain ⟨original, horiginal, rfl⟩ := List.mem_map.mp hitem
      exact ih original horiginal
  | object hkeys _ ih =>
      rw [sorted_object]
      refine .object (nodup_keys_sortByKey ?_) fun field hfield => ?_
      · rwa [← sortedFields_eq_map, keys_sortedFields]
      · obtain ⟨original, horiginal, rfl⟩ := List.mem_map.mp (mem_sortByKey.mp hfield)
        exact ih original horiginal

/-- Trees that are equal up to the order of keys have the same sorted tree. -/
theorem SameUpToOrder.sorted_eq {x y : JsonValue ν} (hsame : SameUpToOrder x y) (hx : Valid format x)
    (hy : Valid format y) : x.sorted = y.sorted := by
  induction hsame with
  | null | boolean | number | string => rfl
  | @array items items' hlength _ ih =>
      cases hx with | array hitems => cases hy with | array hitems' =>
      rw [sorted_array, sorted_array]
      refine congrArg JsonValue.array (List.ext_getElem (by simp [hlength]) fun index hindex hindex' => ?_)
      rw [List.length_map] at hindex hindex'
      rw [List.getElem_map, List.getElem_map]
      exact ih index _ _ (List.getElem?_eq_getElem hindex) (List.getElem?_eq_getElem hindex')
        (hitems _ (List.getElem_mem hindex)) (hitems' _ (List.getElem_mem hindex'))
  | @object fields fields' hsameKeys _ ih =>
      cases hx with | object hkeys hfields => cases hy with | object hkeys' hfields' =>
      rw [sorted_object, sorted_object]
      have hnodup : ((fields.map (Prod.map id sorted)).map Prod.fst).Nodup := by
        rwa [← sortedFields_eq_map, keys_sortedFields]
      have hnodup' : ((fields'.map (Prod.map id sorted)).map Prod.fst).Nodup := by
        rwa [← sortedFields_eq_map, keys_sortedFields]
      refine congrArg JsonValue.object (sortByKey_eq_of_perm ?_ hnodup)
      refine (List.perm_ext_iff_of_nodup (hnodup.of_map _) (hnodup'.of_map _)).mpr fun field => ?_
      -- A field of either side has its counterpart under the same key on the other.
      refine ⟨fun hmem => ?_, fun hmem => ?_⟩
      · obtain ⟨⟨key, value⟩, hvalue, rfl⟩ := List.mem_map.mp hmem
        obtain ⟨⟨key', value'⟩, hvalue', hkey⟩ :=
          List.mem_map.mp ((hsameKeys key).mp (List.mem_map_of_mem hvalue))
        obtain rfl : key' = key := hkey
        have heq := ih key' value value' hvalue hvalue' (hfields _ hvalue) (hfields' _ hvalue')
        exact List.mem_map.mpr ⟨(key', value'), hvalue', Prod.ext rfl heq.symm⟩
      · obtain ⟨⟨key, value'⟩, hvalue', rfl⟩ := List.mem_map.mp hmem
        obtain ⟨⟨key', value⟩, hvalue, hkey⟩ :=
          List.mem_map.mp ((hsameKeys key).mpr (List.mem_map_of_mem hvalue'))
        obtain rfl : key' = key := hkey
        have heq := ih key' value value' hvalue hvalue' (hfields _ hvalue) (hfields' _ hvalue')
        exact List.mem_map.mpr ⟨(key', value), hvalue, Prod.ext rfl heq⟩

/-- Trees with the same sorted tree are equal up to the order of keys. -/
theorem sameUpToOrder_of_sorted_eq {x : JsonValue ν} : ∀ {y : JsonValue ν}, Valid format y →
    x.sorted = y.sorted → SameUpToOrder x y := by
  induction x using tree_induction with
  | null =>
      intro y _ h
      cases y <;> simp [sorted] at h
      exact .null
  | boolean value =>
      intro y _ h
      cases y <;> simp [sorted] at h
      exact h ▸ .boolean value
  | number value =>
      intro y _ h
      cases y <;> simp [sorted] at h
      exact h ▸ .number value
  | string value =>
      intro y _ h
      cases y <;> simp [sorted] at h
      exact h ▸ .string value
  | array items ih =>
      intro y hy h
      cases y <;> simp only [sorted, reduceCtorEq, array.injEq] at h
      rename_i items'
      cases hy with | array hitems' =>
      rw [sortedItems_eq_map, sortedItems_eq_map] at h
      refine .array (by simpa using congrArg List.length h) fun index item item' hitem hitem' => ?_
      have hindex := congrArg (·[index]?) h
      simp only [List.getElem?_map, hitem, hitem', Option.map_some, Option.some.injEq] at hindex
      exact ih item (List.mem_of_getElem? hitem) (hitems' item' (List.mem_of_getElem? hitem')) hindex
  | object fields ih =>
      intro y hy h
      cases y <;> simp only [sorted, reduceCtorEq, object.injEq] at h
      rename_i fields'
      cases hy with | object hkeys' hfields' =>
      have hperm := perm_of_sortByKey_eq h
      refine .object (fun key => ?_) fun key value value' hvalue hvalue' => ?_
      · rw [← keys_sortedFields, ← keys_sortedFields fields']
        exact (hperm.map Prod.fst).mem_iff
      · refine ih (key, value) hvalue (hfields' _ hvalue') ?_
        rw [sortedFields_eq_map, sortedFields_eq_map] at hperm
        obtain ⟨⟨key', value''⟩, hvalue'', heq⟩ := List.mem_map.mp (hperm.mem_iff.mp (List.mem_map_of_mem hvalue))
        obtain ⟨rfl, heq⟩ := Prod.ext_iff.mp heq
        obtain rfl : value'' = value' :=
          congrArg Prod.snd (List.inj_on_of_nodup_map hkeys' hvalue'' hvalue' rfl)
        exact heq.symm

theorem sameUpToOrder_iff {x y : JsonValue ν} (hx : Valid format x) (hy : Valid format y) :
    SameUpToOrder x y ↔ x.sorted = y.sorted :=
  ⟨fun h => h.sorted_eq hx hy, sameUpToOrder_of_sorted_eq hy⟩

end JsonValue

/-! ### Reading what was printed -/

@[simp] theorem skipWhitespace_cons {unit : CodeUnit} (h : isWhitespace unit = false) (text : Text) :
    skipWhitespace (unit :: text) = unit :: text := by
  rw [skipWhitespace, List.dropWhile_cons_of_neg (by simp [h])]

theorem join_singleton (text : Text) : join [text] = text := by
  simp [join]

theorem join_cons_cons (first second : Text) (texts : List Text) :
    join (first :: second :: texts) = first ++ 44 :: join (second :: texts) := by
  simp [join, List.intercalate]

theorem isNumberUnit_of_isDigit {unit : CodeUnit} (h : isDigit unit) : isNumberUnit unit := by
  rw [isDigit] at h
  simp [isNumberUnit, h]

theorem all_isNumberUnit_of_all_isDigit {text : Text} (h : text.all isDigit) : text.all isNumberUnit :=
  List.all_eq_true.mpr fun unit hunit => isNumberUnit_of_isDigit (List.all_eq_true.mp h unit hunit)

theorem all_isNumberUnit_of_isExponentPart {text : Text} (h : isExponentPart text) :
    text.all isNumberUnit := by
  rcases text with _ | ⟨letter, _ | ⟨sign, digits⟩⟩
  · rfl
  · simp [isExponentPart] at h
  · simp only [isExponentPart, Bool.and_eq_true, Bool.or_eq_true, decide_eq_true_eq] at h
    obtain ⟨hletter, hexponent⟩ := h
    have hletter' : isNumberUnit letter := by
      rcases hletter with rfl | rfl <;> decide
    by_cases hsign : sign = 43 ∨ sign = 45
    · have hsign' : isNumberUnit sign := by
        rcases hsign with rfl | rfl <;> decide
      rw [if_pos hsign, Bool.and_eq_true] at hexponent
      simp [hletter', hsign', all_isNumberUnit_of_all_isDigit hexponent.2]
    · rw [if_neg hsign, Bool.and_eq_true] at hexponent
      simp [hletter', isNumberUnit_of_isDigit hexponent.1, all_isNumberUnit_of_all_isDigit hexponent.2]

theorem all_isNumberUnit_of_isFractionPart {text : Text} (h : isFractionPart text) :
    text.all isNumberUnit := by
  rcases text with _ | ⟨unit, rest⟩
  · rfl
  · by_cases hpoint : unit = 46
    · subst hpoint
      simp only [isFractionPart, if_true, Bool.and_eq_true] at h
      have hexponent := all_isNumberUnit_of_isExponentPart h.2
      have hdigits := all_isNumberUnit_of_all_isDigit (List.all_takeWhile (l := rest) (p := isDigit))
      rw [← List.takeWhile_append_dropWhile (p := isDigit) (l := rest)]
      simp only [List.all_cons, List.all_append, hexponent, hdigits]
      decide
    · rw [isFractionPart, if_neg hpoint] at h
      exact all_isNumberUnit_of_isExponentPart h

/-- A number literal consists of units that can stand in one, and starts with a digit or a sign. -/
theorem isNumberLiteral_eq_cons {text : Text} (h : isNumberLiteral text) :
    text.all isNumberUnit ∧ ∃ unit rest, text = unit :: rest ∧ (unit = 45 ∨ isDigit unit) := by
  have hunsigned : ∀ text : Text, isIntegerPart (text.takeWhile isDigit) →
      isFractionPart (text.dropWhile isDigit) →
      text.all isNumberUnit ∧ ∃ unit rest, text = unit :: rest ∧ isDigit unit := by
    intro text hinteger hfraction
    refine ⟨?_, ?_⟩
    · rw [← List.takeWhile_append_dropWhile (p := isDigit) (l := text), List.all_append,
        all_isNumberUnit_of_all_isDigit List.all_takeWhile, all_isNumberUnit_of_isFractionPart hfraction]
      rfl
    · rcases text with _ | ⟨unit, rest⟩
      · simp [isIntegerPart] at hinteger
      · refine ⟨unit, rest, rfl, ?_⟩
        by_contra hdigit
        rw [List.takeWhile_cons_of_neg hdigit] at hinteger
        simp [isIntegerPart] at hinteger
  rw [isNumberLiteral] at h
  by_cases hsign : text.head? = some 45
  · simp only [if_pos hsign, Bool.and_eq_true] at h
    obtain ⟨rest, rfl⟩ := List.head?_eq_some_iff.mp hsign
    obtain ⟨hall, _⟩ := hunsigned rest h.1 h.2
    refine ⟨?_, 45, rest, rfl, Or.inl rfl⟩
    rw [List.all_cons, hall]
    decide
  · simp only [if_neg hsign, Bool.and_eq_true] at h
    obtain ⟨hall, unit, rest, heq, hdigit⟩ := hunsigned text h.1 h.2
    exact ⟨hall, unit, rest, heq, Or.inr hdigit⟩

/-- The text does not go on with a unit that could still belong to a number. -/
def EndsNumber (text : Text) : Prop := ∀ unit ∈ text.head?, isNumberUnit unit = false

theorem takeWhile_isNumberUnit {literal rest : Text} (hliteral : literal.all isNumberUnit)
    (hrest : EndsNumber rest) :
    (literal ++ rest).takeWhile isNumberUnit = literal ∧ (literal ++ rest).dropWhile isNumberUnit = rest := by
  rw [List.takeWhile_append_of_pos (List.all_eq_true.mp hliteral),
    List.dropWhile_append_of_pos (List.all_eq_true.mp hliteral)]
  rcases rest with _ | ⟨unit, rest⟩
  · simp
  · have hunit : ¬isNumberUnit unit := by simp [hrest unit rfl]
    rw [List.takeWhile_cons_of_neg hunit, List.dropWhile_cons_of_neg hunit, List.append_nil]
    exact ⟨rfl, rfl⟩

namespace JsonValue

variable {ν : Type*} {format : NumberFormat ν}

theorem printItems_eq_map (items : List (JsonValue ν)) : printItems format items = items.map (print format) := by
  induction items with
  | nil => rfl
  | cons item items ih => rw [printItems, ih, List.map_cons]

theorem printFields_eq_map (fields : List (Text × JsonValue ν)) :
    printFields format fields = fields.map (Prod.map id (print format)) := by
  induction fields with
  | nil => rfl
  | cons field fields ih => rw [printFields, ih, List.map_cons, Prod.map_apply, id]

theorem print_array (items : List (JsonValue ν)) :
    print format (.array items) = 91 :: join (items.map (print format)) ++ [93] := by
  rw [print, printItems_eq_map]

theorem print_object (fields : List (Text × JsonValue ν)) :
    print format (.object fields) = 123 :: join ((sortByKey fields).map (printField format)) ++ [125] := by
  rw [print, printFields_eq_map, ← map_sortByKey, List.map_map]
  rfl

/-- A printed value starts with a unit that no separator or closing bracket starts with. -/
theorem print_eq_cons (hlawful : format.Lawful) {x : JsonValue ν} (hx : Valid format x) :
    ∃ unit text, print format x = unit :: text ∧ isWhitespace unit = false ∧ unit ≠ 93 := by
  cases hx with
  | null => exact ⟨110, _, rfl, by decide, by decide⟩
  | boolean value =>
      cases value with
      | false => exact ⟨102, _, rfl, by decide, by decide⟩
      | true => exact ⟨116, _, rfl, by decide, by decide⟩
  | number hfinite =>
      obtain ⟨_, unit, text, heq, hunit⟩ :=
        isNumberLiteral_eq_cons (hlawful.isNumberLiteral_literal _ hfinite)
      refine ⟨unit, text, heq, ?_⟩
      rcases hunit with rfl | hdigit
      · decide
      · simp only [isDigit, Bool.and_eq_true, decide_eq_true_eq] at hdigit
        have hne : ∀ other : CodeUnit, other.val < 48 ∨ 57 < other.val → unit ≠ other := by
          intro other hother he
          subst he
          omega
        refine ⟨?_, hne 93 (by decide)⟩
        simp [isWhitespace, hne 32 (by decide), hne 9 (by decide), hne 10 (by decide), hne 13 (by decide)]
  | string value => exact ⟨34, _, rfl, by decide, by decide⟩
  | array hitems => exact ⟨91, _, by rw [print_array]; rfl, by decide, by decide⟩
  | object hkeys hfields => exact ⟨123, _, by rw [print_object]; rfl, by decide, by decide⟩

/-- Fuel for the length of a printed value is not spent. -/
theorem exists_fuel (hlawful : format.Lawful) {x : JsonValue ν} (hx : Valid format x) {fuel : Nat}
    (hfuel : (print format x).length ≤ fuel) : ∃ less, fuel = less + 1 := by
  obtain ⟨unit, text, heq, _⟩ := print_eq_cons hlawful hx
  rw [heq, List.length_cons] at hfuel
  exact ⟨fuel - 1, by omega⟩

/-- The value whose text stands first is read, with its keys sorted, and the rest is left. -/
def ReadsBack (format : NumberFormat ν) (x : JsonValue ν) : Prop :=
  ∀ fuel rest, (print format x).length ≤ fuel → EndsNumber rest →
    readValue format fuel (print format x ++ rest) = some (x.sorted, rest)

theorem readKey_quote (key text : Text) : readKey (quote key ++ 58 :: text) = some (key, text) := by
  have hread : readString (escapeUnits key ++ ([34] ++ 58 :: text)) = some (key, 58 :: text) :=
    readString_escapeUnits key (58 :: text)
  rw [readKey, quote, List.cons_append, List.cons_append, List.append_assoc,
    skipWhitespace_cons (by decide)]
  simp only [if_true, hread, Option.bind_some, skipWhitespace_cons (show isWhitespace 58 = false by decide)]
  rfl

theorem readNumber_literal (hlawful : format.Lawful) {value : ν} (hfinite : format.isFinite value)
    {rest : Text} (hrest : EndsNumber rest) :
    readNumber format (format.literal value ++ rest) = some (value, rest) := by
  have hliteral := hlawful.isNumberLiteral_literal value hfinite
  obtain ⟨htake, hdrop⟩ := takeWhile_isNumberUnit (isNumberLiteral_eq_cons hliteral).1 hrest
  rw [readNumber, htake, hdrop, if_pos hliteral, hlawful.value_literal value hfinite]

/-- A text whose first unit is a sign or a digit is read as a number. -/
theorem readValue_number {unit : CodeUnit} (hunit : unit = 45 ∨ isDigit unit) (fuel : Nat) (text : Text) :
    readValue format (fuel + 1) (unit :: text) =
      (readNumber format (unit :: text)).map fun read => (.number read.1, read.2) := by
  have hne : ∀ other : CodeUnit, other.val < 45 ∨ 57 < other.val → unit ≠ other := by
    intro other hother he
    subst he
    rcases hunit with hminus | hdigit
    · rw [hminus] at hother
      revert hother
      decide
    · simp only [isDigit, Bool.and_eq_true, decide_eq_true_eq] at hdigit
      omega
  have hblank : isWhitespace unit = false := by
    simp [isWhitespace, hne 32 (by decide), hne 9 (by decide), hne 10 (by decide), hne 13 (by decide)]
  rw [readValue, skipWhitespace_cons hblank]
  simp only [if_neg (hne 110 (by decide)), if_neg (hne 116 (by decide)), if_neg (hne 102 (by decide)),
    if_neg (hne 34 (by decide)), if_neg (hne 91 (by decide)), if_neg (hne 123 (by decide))]

theorem endsNumber_cons {unit : CodeUnit} (h : isNumberUnit unit = false) (text : Text) :
    EndsNumber (unit :: text) := by
  intro first hfirst
  rw [List.head?_cons, Option.mem_some_iff] at hfirst
  rwa [← hfirst]

theorem readItems_join : ∀ items : List (JsonValue ν), items ≠ [] →
    (∀ item ∈ items, ReadsBack format item) → ∀ fuel rest,
    (join (items.map (print format))).length < fuel →
    readItems format fuel (join (items.map (print format)) ++ 93 :: rest) =
      some (items.map sorted, rest)
  | [], hne, _ => absurd rfl hne
  | [item], _, hread => by
      intro fuel rest hfuel
      obtain ⟨fuel, rfl⟩ := Nat.exists_eq_add_of_lt (Nat.zero_lt_of_lt hfuel)
      rw [List.map_singleton, join_singleton] at hfuel ⊢
      rw [Nat.zero_add, readItems,
        hread item List.mem_cons_self fuel _ (by omega) (endsNumber_cons (by decide) rest)]
      simp only [Option.bind_some, skipWhitespace_cons (show isWhitespace 93 = false by decide), if_true]
      rfl
  | item :: next :: items, _, hread => by
      intro fuel rest hfuel
      obtain ⟨fuel, rfl⟩ := Nat.exists_eq_add_of_lt (Nat.zero_lt_of_lt hfuel)
      have ih := readItems_join (next :: items) (List.cons_ne_nil _ _)
        (fun other hother => hread other (List.mem_cons_of_mem _ hother)) fuel rest
      simp only [List.map_cons] at hfuel ih ⊢
      rw [join_cons_cons, List.length_append, List.length_cons] at hfuel
      rw [Nat.zero_add, readItems, join_cons_cons, List.append_assoc, List.cons_append,
        hread item List.mem_cons_self fuel _ (by omega) (endsNumber_cons (by decide) _)]
      simp only [Option.bind_some, skipWhitespace_cons (show isWhitespace 44 = false by decide), if_true,
        if_neg (show (44 : CodeUnit) ≠ 93 by decide), ih (by omega), Option.map_some]

theorem readFields_join : ∀ fields : List (Text × JsonValue ν), fields ≠ [] →
    (∀ field ∈ fields, ReadsBack format field.2) → ∀ fuel rest,
    (join (fields.map (printField format))).length < fuel →
    readFields format fuel (join (fields.map (printField format)) ++ 125 :: rest) =
      some (fields.map (Prod.map id sorted), rest)
  | [], hne, _ => absurd rfl hne
  | [field], _, hread => by
      intro fuel rest hfuel
      obtain ⟨fuel, rfl⟩ := Nat.exists_eq_add_of_lt (Nat.zero_lt_of_lt hfuel)
      rw [List.map_singleton, join_singleton] at hfuel ⊢
      rw [printField, List.length_append, List.length_cons] at hfuel
      rw [Nat.zero_add, readFields, printField, List.append_assoc, List.cons_append, readKey_quote]
      simp only [Option.bind_some,
        hread field List.mem_cons_self fuel _ (by omega)
          (endsNumber_cons (show isNumberUnit 125 = false by decide) rest),
        skipWhitespace_cons (show isWhitespace 125 = false by decide), if_true]
      rfl
  | field :: next :: fields, _, hread => by
      intro fuel rest hfuel
      obtain ⟨fuel, rfl⟩ := Nat.exists_eq_add_of_lt (Nat.zero_lt_of_lt hfuel)
      have ih := readFields_join (next :: fields) (List.cons_ne_nil _ _)
        (fun other hother => hread other (List.mem_cons_of_mem _ hother)) fuel rest
      simp only [List.map_cons] at hfuel ih ⊢
      rw [join_cons_cons, List.length_append, List.length_cons] at hfuel
      have hfield : (printField format field).length =
          (quote field.1).length + ((print format field.2).length + 1) := by
        rw [printField, List.length_append, List.length_cons]
      rw [Nat.zero_add, readFields, join_cons_cons, List.append_assoc, List.cons_append, printField,
        List.append_assoc, List.cons_append, readKey_quote]
      simp only [Option.bind_some,
        hread field List.mem_cons_self fuel _ (by omega) (endsNumber_cons (show isNumberUnit 44 = false by decide) _),
        skipWhitespace_cons (show isWhitespace 44 = false by decide), if_true,
        if_neg (show (44 : CodeUnit) ≠ 125 by decide), ih (by omega), Option.map_some]
      rfl

theorem ownFields_of_nodup {fields : List (Text × JsonValue ν)} (hkeys : (fields.map Prod.fst).Nodup) :
    ownFields fields = fields :=
  InsertionMap.entries_setAll_of_fresh InsertionMap.empty fields hkeys

/-- Reading a printed tree gives the tree with its keys sorted, whatever text follows. -/
theorem readsBack (hlawful : format.Lawful) {x : JsonValue ν} (hx : Valid format x) :
    ReadsBack format x := by
  induction hx with
  | null =>
      intro fuel rest hfuel _
      obtain ⟨fuel, rfl⟩ := exists_fuel hlawful .null hfuel
      rfl
  | boolean value =>
      intro fuel rest hfuel _
      obtain ⟨fuel, rfl⟩ := exists_fuel hlawful (.boolean value) hfuel
      cases value <;> rfl
  | @number value hfinite =>
      intro fuel rest hfuel hrest
      obtain ⟨_, unit, text, heq, hunit⟩ :=
        isNumberLiteral_eq_cons (hlawful.isNumberLiteral_literal _ hfinite)
      obtain ⟨fuel, rfl⟩ := exists_fuel hlawful (.number hfinite) hfuel
      have hnumber := readNumber_literal hlawful hfinite hrest
      rw [heq, List.cons_append] at hnumber
      rw [print, heq, List.cons_append, readValue_number hunit, hnumber]
      rfl
  | string value =>
      intro fuel rest hfuel _
      obtain ⟨fuel, rfl⟩ := exists_fuel hlawful (.string value) hfuel
      have hread : readString (escapeUnits value ++ ([34] ++ rest)) = some (value, rest) :=
        readString_escapeUnits value rest
      rw [print, quote, List.cons_append, List.cons_append, List.append_assoc, readValue,
        skipWhitespace_cons (by decide)]
      simp only [if_neg (show (34 : CodeUnit) ≠ 110 by decide), if_neg (show (34 : CodeUnit) ≠ 116 by decide),
        if_neg (show (34 : CodeUnit) ≠ 102 by decide), if_true, hread]
      rfl
  | @array items hitems ih =>
      intro fuel rest hfuel _
      obtain ⟨fuel, rfl⟩ := exists_fuel hlawful (.array hitems) hfuel
      rw [print_array, List.length_append, List.length_cons, List.length_singleton] at hfuel
      rw [print_array, sorted_array, List.cons_append, List.cons_append, List.append_assoc, readValue,
        skipWhitespace_cons (by decide)]
      simp only [if_neg (show (91 : CodeUnit) ≠ 110 by decide), if_neg (show (91 : CodeUnit) ≠ 116 by decide),
        if_neg (show (91 : CodeUnit) ≠ 102 by decide), if_neg (show (91 : CodeUnit) ≠ 34 by decide), if_true]
      cases items with
      | nil => rfl
      | cons item items =>
          obtain ⟨unit, text, heq, hblank, hbracket⟩ := print_eq_cons hlawful (hitems item List.mem_cons_self)
          have hstart : ∃ text, join ((item :: items).map (print format)) ++ ([93] ++ rest) = unit :: text := by
            cases items with
            | nil => exact ⟨_, by rw [List.map_singleton, join_singleton, heq]; rfl⟩
            | cons next items => exact ⟨_, by rw [List.map_cons, List.map_cons, join_cons_cons, heq]; rfl⟩
          obtain ⟨text, htext⟩ := hstart
          have hread := readItems_join (item :: items) (List.cons_ne_nil _ _) ih fuel rest (by omega)
          rw [show 93 :: rest = [93] ++ rest from rfl] at hread
          rw [if_neg ?_, hread]
          · rfl
          · rw [htext, skipWhitespace_cons hblank, List.head?_cons, Option.some.injEq]
            exact hbracket
  | @object fields hkeys hfields ih =>
      intro fuel rest hfuel _
      obtain ⟨fuel, rfl⟩ := exists_fuel hlawful (.object hkeys hfields) hfuel
      rw [print_object, List.length_append, List.length_cons, List.length_singleton] at hfuel
      rw [print_object, sorted_object, List.cons_append, List.cons_append, List.append_assoc, readValue,
        skipWhitespace_cons (by decide)]
      simp only [if_neg (show (123 : CodeUnit) ≠ 110 by decide), if_neg (show (123 : CodeUnit) ≠ 116 by decide),
        if_neg (show (123 : CodeUnit) ≠ 102 by decide), if_neg (show (123 : CodeUnit) ≠ 34 by decide),
        if_neg (show (123 : CodeUnit) ≠ 91 by decide), if_true]
      have hsortedKeys := nodup_keys_sortByKey hkeys
      rw [← map_sortByKey]
      have ihSorted : ∀ field ∈ sortByKey fields, ReadsBack format field.2 :=
        fun field hfield => ih field (mem_sortByKey.mp hfield)
      generalize sortByKey fields = sortedFields at hfuel hsortedKeys ihSorted ⊢
      cases sortedFields with
      | nil => rfl
      | cons field fields =>
          have hstart : ∃ text, join ((field :: fields).map (printField format)) ++ ([125] ++ rest) = 34 :: text := by
            cases fields with
            | nil => exact ⟨_, by rw [List.map_singleton, join_singleton, printField, quote]; rfl⟩
            | cons next fields =>
                exact ⟨_, by rw [List.map_cons, List.map_cons, join_cons_cons, printField, quote]; rfl⟩
          obtain ⟨text, htext⟩ := hstart
          have hread := readFields_join (field :: fields) (List.cons_ne_nil _ _) ihSorted fuel rest (by omega)
          have hkeysMap : (((field :: fields).map (Prod.map id sorted)).map Prod.fst).Nodup := by
            rwa [← sortedFields_eq_map, keys_sortedFields]
          rw [show 125 :: rest = [125] ++ rest from rfl] at hread
          rw [if_neg ?_, hread, Option.map_some, ownFields_of_nodup hkeysMap]
          rw [htext, skipWhitespace_cons (by decide), List.head?_cons, Option.some.injEq]
          decide

/-- Reading the text of a tree gives the tree with its keys sorted. -/
theorem parse_print (hlawful : format.Lawful) {x : JsonValue ν} (hx : Valid format x) :
    parse format (print format x) = some x.sorted := by
  have hread := readsBack hlawful hx (print format x).length [] le_rfl (by simp [EndsNumber])
  rw [List.append_nil] at hread
  rw [parse, hread]
  rfl

@[simp] theorem print_sorted (x : JsonValue ν) : print format x.sorted = print format x := by
  induction x using tree_induction with
  | null | boolean | number | string => rfl
  | array items ih =>
      rw [sorted_array, print_array, print_array, List.map_map]
      exact congrArg (fun texts => 91 :: join texts ++ [93]) (List.map_congr_left ih)
  | object fields ih =>
      rw [sorted_object, print_object, print_object, sortByKey_sortByKey, ← map_sortByKey, List.map_map]
      refine congrArg (fun texts => 123 :: join texts ++ [125]) (List.map_congr_left fun field hfield => ?_)
      rw [Function.comp_apply, printField, printField, Prod.map_snd, ih field (mem_sortByKey.mp hfield)]
      rfl

theorem stringifyItems_eq_map (items : List (JsonValue ν)) :
    stringifyItems format items = items.map (stringify format) := by
  induction items with
  | nil => rfl
  | cons item items ih => rw [stringifyItems, ih, List.map_cons]

theorem stringifyFields_eq_map (fields : List (Text × JsonValue ν)) :
    stringifyFields format fields = fields.map fun field => quote field.1 ++ 58 :: stringify format field.2 := by
  induction fields with
  | nil => rfl
  | cons field fields ih => rw [stringifyFields, ih, List.map_cons]

/-- With its keys sorted, a tree is written as it is printed. -/
theorem stringify_sorted {x : JsonValue ν} (hx : Valid format x) : stringify format x.sorted = print format x := by
  induction hx with
  | null | boolean | string => rfl
  | number hfinite => exact if_pos hfinite
  | array _ ih =>
      rw [sorted_array, print_array, stringify, stringifyItems_eq_map, List.map_map]
      exact congrArg (fun texts => 91 :: join texts ++ [93]) (List.map_congr_left ih)
  | object _ _ ih =>
      rw [sorted_object, print_object, stringify, stringifyFields_eq_map, ← map_sortByKey, List.map_map]
      refine congrArg (fun texts => 123 :: join texts ++ [125]) (List.map_congr_left fun field hfield => ?_)
      rw [Function.comp_apply, printField, Prod.map_snd, ih field (mem_sortByKey.mp hfield)]
      rfl

/-- A tree with sorted keys survives being written and read. -/
theorem parse_stringify_sorted (hlawful : format.Lawful) {x : JsonValue ν} (hx : Valid format x) :
    parse format (stringify format x.sorted) = some x.sorted := by
  rw [stringify_sorted hx, parse_print hlawful hx]

/-- Sorting the keys of a tree sorts the value under each of them. -/
theorem ownField_sorted {fields : List (Text × JsonValue ν)} (hkeys : (fields.map Prod.fst).Nodup) (key : Text) :
    ownField (sortByKey (fields.map (Prod.map id sorted))) key = (ownField fields key).map sorted := by
  have hkeysMap : ((fields.map (Prod.map id sorted)).map Prod.fst).Nodup := by
    rwa [← sortedFields_eq_map, keys_sortedFields]
  rw [ownField, KeyedList.find?_eq_of_perm (sortByKey_perm _) hkeysMap, List.find?_map, ownField, Option.map_map,
    Option.map_map]
  rfl

/-- Trees print alike exactly when they are equal up to the order of their keys. -/
theorem print_eq_print_iff (hlawful : format.Lawful) {x y : JsonValue ν} (hx : Valid format x)
    (hy : Valid format y) : print format x = print format y ↔ SameUpToOrder x y := by
  rw [sameUpToOrder_iff hx hy]
  refine ⟨fun h => ?_, fun h => ?_⟩
  · have hparse := parse_print hlawful hx
    rw [h, parse_print hlawful hy] at hparse
    exact (Option.some.inj hparse).symm
  · rw [← print_sorted x, h, print_sorted]

end JsonValue

/-! ### Records -/

section Records

variable {α β γ : Type*}

/-- A record with its keys in order, and its values mapped. -/
def sortedRecord (f : α → β) (record : InsertionMap Text α) : InsertionMap Text β where
  entries := sortByKey (record.entries.map (Prod.map id f))
  nodupKeys := nodup_keys_sortByKey (by rw [List.map_map]; exact record.nodupKeys)

theorem get?_sortedRecord (f : α → β) (record : InsertionMap Text α) (key : Text) :
    (sortedRecord f record).get? key = (record.get? key).map f := by
  have hkeys : ((record.entries.map (Prod.map id f)).map Prod.fst).Nodup := by
    rw [List.map_map]
    exact record.nodupKeys
  rw [InsertionMap.get?, sortedRecord, KeyedList.find?_eq_of_perm (sortByKey_perm _) hkeys, List.find?_map,
    Option.map_map, InsertionMap.get?, Option.map_map]
  rfl

/-- Records with their keys in order are told apart by what is read from them. -/
theorem sortedRecord_congr {f : α → γ} {g : β → γ} {record : InsertionMap Text α} {record' : InsertionMap Text β}
    (h : ∀ key, (record.get? key).map f = (record'.get? key).map g) :
    sortedRecord f record = sortedRecord g record' := by
  have hget : ∀ key, (sortedRecord f record).get? key = (sortedRecord g record').get? key := by
    intro key
    rw [get?_sortedRecord, get?_sortedRecord, h]
  have hmem : ∀ field, field ∈ (sortedRecord f record).entries ↔ field ∈ (sortedRecord g record').entries := by
    intro field
    rw [← InsertionMap.get?_eq_some_iff, ← InsertionMap.get?_eq_some_iff, hget]
  have hperm : (sortedRecord f record).entries.Perm (sortedRecord g record').entries :=
    (List.perm_ext_iff_of_nodup (List.Nodup.of_map _ (sortedRecord f record).nodupKeys)
      (List.Nodup.of_map _ (sortedRecord g record').nodupKeys)).mpr hmem
  have hsorted := sortByKey_eq_of_perm hperm (sortedRecord f record).nodupKeys
  rw [sortedRecord, sortedRecord, sortByKey_sortByKey, sortByKey_sortByKey] at hsorted
  exact InsertionMap.ext hsorted

end Records

end JavaScript
