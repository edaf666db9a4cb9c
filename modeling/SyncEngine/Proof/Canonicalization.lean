import SyncEngine.Lib.Decimal
import SyncEngine.Proof.Fingerprint

/-!
# What canonical JSON drops

`canonicalizeJson` returns a text for the values that resemble a JSON tree, and for no others. The text is
that of the tree, so that what is dropped is what sets a value apart from its tree: the surplus keys of
arrays.
-/

namespace SyncEngine

open JavaScript Throwing

variable {ν α : Type} {runtime : JsonRuntime ν} {heap : Heap ν α}

def Heap.DistinctKeys (heap : Heap ν α) : Prop :=
  ∀ address hasPlainPrototype fields, (heap address).properties = .record hasPlainPrototype fields →
    (fields.map Prod.fst).Nodup

inductive Reaches (heap : Heap ν α) : JsValue ν α → α → Prop
  | here (address : α) : Reaches heap (.reference address) address
  | element {address target : α} {elements : List (Option (PropertyDescriptor ν α))} {extraKeys : List Text}
      {value : JsValue ν α} (harray : (heap address).properties = .array elements extraKeys)
      (hmem : some (.stored value) ∈ elements) (hrest : Reaches heap value target) :
      Reaches heap (.reference address) target
  | field {address target : α} {hasPlainPrototype : Bool} {fields : List (Text × PropertyDescriptor ν α)}
      {key : Text} {value : JsValue ν α} (hrecord : (heap address).properties = .record hasPlainPrototype fields)
      (hmem : (key, .stored value) ∈ fields) (hrest : Reaches heap value target) :
      Reaches heap (.reference address) target

/-- An array that the value reaches has an enumerable key besides its indices. -/
def HasSurplusKeys (heap : Heap ν α) (value : JsValue ν α) : Prop :=
  ∃ address elements extraKeys, Reaches heap value address ∧
    (heap address).properties = .array elements extraKeys ∧ extraKeys ≠ []

/-! ### Surplus keys -/

theorem Represents.not_hasSurplusKeys {value : JsValue ν α} {x : JsonValue ν} (h : Represents heap value x) :
    ¬HasSurplusKeys heap value := by
  intro hsurplus
  obtain ⟨target, elements, extraKeys, hreaches, hproperties, hkeys⟩ := hsurplus
  induction hreaches generalizing x with
  | here address =>
      cases h with
      | array hobject _ =>
          rw [hobject, JsProperties.array.injEq] at hproperties
          exact hkeys hproperties.2.symm
      | object hobject _ =>
          rw [hobject] at hproperties
          simp at hproperties
  | @element address target _ _ value harray hmem hrest ih =>
      cases h with
      | array hobject hitems =>
          rw [hobject, JsProperties.array.injEq] at harray
          rw [← harray.1, List.mem_map] at hmem
          obtain ⟨item, hitem, hsame⟩ := hmem
          have hvalue : item.1 = value := by simpa using hsame
          exact ih (hvalue ▸ hitems item hitem) hproperties
      | object hobject _ =>
          rw [hobject] at harray
          simp at harray
  | @field address target _ _ key value hrecord hmem hrest ih =>
      cases h with
      | array hobject _ =>
          rw [hobject] at hrecord
          simp at hrecord
      | object hobject hfields =>
          rw [hobject, JsProperties.record.injEq] at hrecord
          rw [← hrecord.2, List.mem_map] at hmem
          obtain ⟨field, hfield, hsame⟩ := hmem
          have hvalue : field.2.1 = value := by simpa using congrArg Prod.snd hsame
          exact ih (hvalue ▸ hfields field hfield) hproperties

theorem Resembles.represents {value : JsValue ν α} {x : JsonValue ν} (h : Resembles runtime heap value x)
    (hplain : ¬HasSurplusKeys heap value) : Represents heap value x := by
  induction h with
  | null => exact .null
  | boolean value => exact .boolean value
  | number value => exact .number value
  | string value => exact .string value
  | @array address items extraKeys hobject _ _ ih =>
      have harray := congrArg JsObject.properties hobject
      have hnone : extraKeys = [] := by
        by_contra hsome
        exact hplain ⟨address, _, extraKeys, .here address, harray, hsome⟩
      subst hnone
      apply Represents.array hobject
      intro item hitem
      apply ih item hitem
      intro hsurplus
      obtain ⟨target, elements, extraKeys, hreaches, hproperties⟩ := hsurplus
      exact hplain ⟨target, elements, extraKeys,
        .element harray (List.mem_map.mpr ⟨item, hitem, rfl⟩) hreaches, hproperties⟩
  | @object address fields hobject _ ih =>
      have hrecord := congrArg JsObject.properties hobject
      apply Represents.object hobject
      intro field hfield
      apply ih field hfield
      intro hsurplus
      obtain ⟨target, elements, extraKeys, hreaches, hproperties⟩ := hsurplus
      exact hplain ⟨target, elements, extraKeys,
        .field hrecord (List.mem_map.mpr ⟨field, hfield, rfl⟩) hreaches, hproperties⟩

/-! ### What is accepted -/

theorem exists_map_eq {β γ : Type} {f : β → γ} {P : β → Prop} {l : List γ} (h : ∀ c ∈ l, ∃ b, f b = c ∧ P b) :
    ∃ l' : List β, l'.map f = l ∧ ∀ b ∈ l', P b := by
  induction l with
  | nil => exact ⟨[], rfl, by simp⟩
  | cons c l ih =>
      rw [List.forall_mem_cons] at h
      obtain ⟨b, hb, hP⟩ := h.1
      obtain ⟨l', hl', hrest⟩ := ih h.2
      exact ⟨b :: l', by rw [List.map_cons, hb, hl'], List.forall_mem_cons.mpr ⟨hP, hrest⟩⟩

theorem read_eq_ok {path : Text} {descriptor : PropertyDescriptor ν α} {value : JsValue ν α}
    (h : descriptor.read path = .ok value) : descriptor = .stored value := by
  cases descriptor with
  | stored stored => rw [Except.ok.inj h]
  | accessor => simp [PropertyDescriptor.read] at h

theorem readElement_eq_ok {path : Text} {element : Option (PropertyDescriptor ν α)} {value : JsValue ν α}
    (h : readElement path element = .ok value) : element = some (.stored value) := by
  cases element with
  | none => simp [readElement] at h
  | some descriptor => rw [read_eq_ok h]

variable [Fintype α] [DecidableEq α]

/-- The step lemma: an object resembles a tree when the values do that are serialized below it. -/
theorem exists_resembles_of_object (hdistinct : heap.DistinctKeys) {address : α} {path : Text}
    {ancestors : Finset α} {text : Text} (h : canonicalizeObject runtime heap address path ancestors = .ok text)
    (hbelow : address ∉ ancestors → ∀ value path text,
      canonicalize runtime heap value path (insert address ancestors) = .ok text →
        ∃ x, Resembles runtime heap value x ∧ x.Valid runtime.toNumberFormat) :
    ∃ x, Resembles runtime heap (.reference address) x ∧ x.Valid runtime.toNumberFormat := by
  rw [canonicalizeObject] at h
  by_cases hcyclic : address ∈ ancestors
  · simp [hcyclic] at h
  · rw [dif_neg hcyclic] at h
    obtain ⟨hsymbols, h⟩ := bind_unit_eq_ok.mp h
    rw [throwIf_eq_ok] at hsymbols
    have hvalues := hbelow hcyclic
    cases hobject : heap address with
    | mk enumerableSymbols properties =>
        rw [hobject] at hsymbols h
        obtain rfl : enumerableSymbols = 0 := by
          dsimp only at hsymbols
          omega
        cases properties with
        | array elements extraKeys =>
            obtain ⟨hkeys, h⟩ := bind_unit_eq_ok.mp h
            obtain ⟨texts, htexts, -⟩ := bind_eq_ok.mp h
            have hitem : ∀ element ∈ elements, ∃ item : JsValue ν α × JsonValue ν, some (.stored item.1) = element ∧
                Resembles runtime heap item.1 item.2 ∧ item.2.Valid runtime.toNumberFormat := by
              intro element helement
              obtain ⟨index, hindex⟩ := List.getElem?_of_mem helement
              obtain ⟨text, htext⟩ := returns_of_mapM_eq_ok htexts (element, index)
                (List.mem_zipIdx_iff_getElem?.mpr hindex)
              obtain ⟨value, hvalue, htext⟩ := bind_eq_ok.mp htext
              obtain ⟨x, hx, hvalid⟩ := hvalues value _ text htext
              exact ⟨(value, x), (readElement_eq_ok hvalue).symm, hx, hvalid⟩
            obtain ⟨items, rfl, hitems⟩ := exists_map_eq hitem
            refine ⟨.array (items.map Prod.snd), .array hobject ?_ fun item hmem => (hitems item hmem).1, ?_⟩
            · intro key hkey
              rw [throwIf_eq_ok, not_lt, Nat.le_zero, List.length_eq_zero_iff, List.filter_eq_nil_iff,
                List.length_map] at hkeys
              simpa using hkeys key hkey
            · exact .array (List.forall_mem_map.mpr fun item hmem => (hitems item hmem).2)
        | record hasPlainPrototype fields =>
            obtain ⟨hplain, h⟩ := bind_unit_eq_ok.mp h
            obtain ⟨texts, htexts, -⟩ := bind_eq_ok.mp h
            obtain rfl : hasPlainPrototype = true := by simpa using hplain
            have hfield : ∀ field ∈ fields, ∃ value : Text × JsValue ν α × JsonValue ν,
                Prod.map id (fun value => .stored value.1) value = field ∧
                Resembles runtime heap value.2.1 value.2.2 ∧ value.2.2.Valid runtime.toNumberFormat := by
              intro field hfield
              obtain ⟨text, htext⟩ := returns_of_mapM_eq_ok htexts field (mem_sortByKey.mpr hfield)
              obtain ⟨value, hvalue, htext⟩ := bind_eq_ok.mp htext
              obtain ⟨encoded, hencoded, -⟩ := bind_eq_ok.mp htext
              obtain ⟨x, hx, hvalid⟩ := hvalues value _ encoded hencoded
              exact ⟨(field.1, value, x), Prod.ext rfl (read_eq_ok hvalue).symm, hx, hvalid⟩
            obtain ⟨values, rfl, hvalues⟩ := exists_map_eq hfield
            have hnodup := hdistinct address true _ (congrArg JsObject.properties hobject)
            refine ⟨.object (values.map (Prod.map id Prod.snd)), .object hobject fun value hmem =>
              (hvalues value hmem).1, .object ?_ ?_⟩
            · rw [List.map_map] at hnodup ⊢
              exact hnodup
            · exact List.forall_mem_map.mpr fun value hmem => (hvalues value hmem).2

/-- A value that is serialized resembles a tree with finite numbers. -/
theorem exists_resembles (hdistinct : heap.DistinctKeys) {value : JsValue ν α} {path : Text}
    {ancestors : Finset α} {text : Text} (h : canonicalize runtime heap value path ancestors = .ok text) :
    ∃ x, Resembles runtime heap value x ∧ x.Valid runtime.toNumberFormat := by
  induction hsize : Fintype.card α - ancestors.card using Nat.strong_induction_on
    generalizing value path ancestors text with
  | _ size ih =>
      cases value with
      | null => exact ⟨.null, .null, .null⟩
      | boolean value => exact ⟨.boolean value, .boolean value, .boolean value⟩
      | string value => exact ⟨.string value, .string value, .string value⟩
      | number value =>
          rw [canonicalize] at h
          obtain ⟨hfinite, -⟩ := bind_unit_eq_ok.mp h
          rw [throwIf_eq_ok, not_not] at hfinite
          exact ⟨.number value, .number value, .number hfinite⟩
      | other type => simp [canonicalize] at h
      | reference address =>
          rw [canonicalize] at h
          apply exists_resembles_of_object hdistinct h
          intro hfresh value path text hvalue
          exact ih _ (hsize ▸ card_sub_card_insert_lt hfresh) hvalue rfl

/-! ### What is dropped -/

/-- A text that is returned drops nothing: what is read from it has every own enumerable property of the
value. And no JSON tree is refused, however its objects are shared. -/
def CanonicalizeKeeps (runtime : JsonRuntime ν) (heap : Heap ν α) (value : JsValue ν α) : Prop :=
  (∀ text, canonicalizeJson runtime heap value = .ok text → ∃ x parsed, Represents heap value x ∧
    parse runtime.toNumberFormat text = some parsed ∧ parsed.SameUpToOrder x) ∧
  ∀ x, Represents heap value x → x.Valid runtime.toNumberFormat →
    ∃ text, canonicalizeJson runtime heap value = .ok text

/-- `canonicalizeJson` keeps a value exactly when the value does not resemble a JSON tree or has no surplus
keys. -/
theorem canonicalizeJson_keeps_iff (hlawful : runtime.toNumberFormat.Lawful) (hdistinct : heap.DistinctKeys)
    (value : JsValue ν α) :
    CanonicalizeKeeps runtime heap value ↔
      ∀ x, Resembles runtime heap value x → x.Valid runtime.toNumberFormat → ¬HasSurplusKeys heap value := by
  constructor
  · intro hkeeps x hx hvalid
    obtain ⟨y, -, hy, -⟩ := hkeeps.1 _ (canonicalizeJson_of_resembles hx hvalid)
    exact hy.not_hasSurplusKeys
  · intro hplain
    constructor
    · intro text htext
      obtain ⟨x, hx, hvalid⟩ := exists_resembles hdistinct htext
      rw [canonicalizeJson_of_resembles hx hvalid, Except.ok.injEq] at htext
      rw [← htext]
      refine ⟨x, x.sorted, hx.represents (hplain x hx hvalid), JsonValue.parse_print hlawful hvalid, ?_⟩
      exact (JsonValue.sameUpToOrder_iff (JsonValue.valid_sorted hvalid) hvalid).mpr x.sorted_sorted
    · exact fun x hx hvalid => ⟨_, canonicalizeJson_eq_print hx hvalid⟩

def decimalRuntime : JsonRuntime Int where
  toNumberFormat := integerFormat
  toInteger key := if key.all isDigit then some (naturalValue key) else none

def sharedHeap (extraKeys : List Text) : Heap Int Bool
  | true => ⟨0, .record true [(ascii "a", .stored (.reference false)), (ascii "b", .stored (.reference false))]⟩
  | false => ⟨0, .array [some (.stored (.number 1))] extraKeys⟩

theorem sharedHeap_distinctKeys (extraKeys : List Text) : (sharedHeap extraKeys).DistinctKeys := by
  intro address hasPlainPrototype fields hrecord
  cases address with
  | true =>
      rw [sharedHeap, JsProperties.record.injEq] at hrecord
      rw [← hrecord.2]
      decide
  | false => simp [sharedHeap] at hrecord

theorem sharedHeap_represents : Represents (sharedHeap []) (.reference true)
    (.object [(ascii "a", .array [.number 1]), (ascii "b", .array [.number 1])]) := by
  have harray : Represents (sharedHeap []) (.reference false) (.array [.number 1]) :=
    @Represents.array _ _ (sharedHeap []) false [(.number 1, .number 1)] rfl (by simp [Represents.number])
  exact @Represents.object _ _ (sharedHeap []) true
    [(ascii "a", .reference false, .array [.number 1]), (ascii "b", .reference false, .array [.number 1])] rfl
    (by simp [harray])

theorem canonicalizeJson_keeps_shared : CanonicalizeKeeps decimalRuntime (sharedHeap []) (.reference true) :=
  (canonicalizeJson_keeps_iff integerFormat_lawful (sharedHeap_distinctKeys []) (.reference true)).mpr
    fun _ _ _ => sharedHeap_represents.not_hasSurplusKeys

/-- An array `[1]` with a key `00`, which `Number` reads as zero: the key is dropped. -/
theorem canonicalizeJson_drops : (sharedHeap [ascii "00"]).DistinctKeys ∧
    canonicalizeJson decimalRuntime (sharedHeap [ascii "00"]) (.reference false) = .ok (ascii "[1]") ∧
    (¬∃ x, Represents (sharedHeap [ascii "00"]) (.reference false) x) ∧
    ¬CanonicalizeKeeps decimalRuntime (sharedHeap [ascii "00"]) (.reference false) := by
  have hresembles : Resembles decimalRuntime (sharedHeap [ascii "00"]) (.reference false) (.array [.number 1]) :=
    @Resembles.array _ _ _ (sharedHeap [ascii "00"]) false [(.number 1, .number 1)] [ascii "00"] rfl (by decide)
      (by simp [Resembles.number])
  have htext : canonicalizeJson decimalRuntime (sharedHeap [ascii "00"]) (.reference false) = .ok (ascii "[1]") :=
    canonicalizeJson_of_resembles hresembles (.array (by simp [JsonValue.Valid.number, decimalRuntime, integerFormat]))
  have hnone : ¬∃ x, Represents (sharedHeap [ascii "00"]) (.reference false) x := by
    intro hsome
    obtain ⟨x, hx⟩ := hsome
    exact hx.not_hasSurplusKeys ⟨false, _, _, .here false, rfl, by simp⟩
  refine ⟨sharedHeap_distinctKeys _, htext, hnone, fun hkeeps => hnone ?_⟩
  obtain ⟨x, -, hx, -⟩ := hkeeps.1 _ htext
  exact ⟨x, hx⟩

end SyncEngine
