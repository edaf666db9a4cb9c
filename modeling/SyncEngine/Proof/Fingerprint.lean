import Mathlib.Data.Fintype.Option
import Mathlib.Data.Fintype.Sum
import SyncEngine.Model.Fingerprint

/-!
# Canonical JSON is a normal form

A value that is a JSON tree is serialized without an error to the text that the printer of sorted keys
writes for the tree, however its objects are shared in the heap. What is said about texts then follows
from the printer.
-/

namespace SyncEngine

open JavaScript Throwing

variable {ν α : Type} {heap : Heap ν α}

/-- Where one image of two lists agrees and determines another, the other agrees as well. -/
theorem map_eq_map_of_map_eq_map {β γ δ : Type} {f : β → γ} {g : β → δ} {l l' : List β}
    (h : l.map f = l'.map f) (hdetermines : ∀ a ∈ l, ∀ b ∈ l', f a = f b → g a = g b) :
    l.map g = l'.map g := by
  induction l generalizing l' with
  | nil =>
      rw [List.map_nil, eq_comm, List.map_eq_nil_iff] at h
      rw [h]
  | cons a l ih =>
      cases l' with
      | nil => simp at h
      | cons b l' =>
          obtain ⟨hhead, htail⟩ := List.cons.inj h
          rw [List.map_cons, List.map_cons,
            hdetermines a List.mem_cons_self b List.mem_cons_self hhead,
            ih htail fun c hc d hd =>
              hdetermines c (List.mem_cons_of_mem _ hc) d (List.mem_cons_of_mem _ hd)]

/-- A value resembles one tree. -/
theorem Resembles.unique {runtime : JsonRuntime ν} {value : JsValue ν α} {x y : JsonValue ν}
    (hx : Resembles runtime heap value x) (hy : Resembles runtime heap value y) : x = y := by
  induction hx generalizing y with
  | null | boolean | number | string => cases hy; rfl
  | array hobject _ _ ih =>
      cases hy with
      | array hobject' _ hitems' =>
          rw [hobject] at hobject'
          simp only [JsObject.mk.injEq, JsProperties.array.injEq, true_and] at hobject'
          refine congrArg JsonValue.array (map_eq_map_of_map_eq_map hobject'.1 fun a ha b hb hab => ?_)
          have hvalue : a.1 = b.1 := by simpa using hab
          exact ih a ha (hvalue ▸ hitems' b hb)
      | object hobject' =>
          rw [hobject] at hobject'
          simp at hobject'
  | object hobject _ ih =>
      cases hy with
      | array hobject' =>
          rw [hobject] at hobject'
          simp at hobject'
      | object hobject' hfields' =>
          rw [hobject] at hobject'
          simp only [JsObject.mk.injEq, JsProperties.record.injEq, true_and] at hobject'
          refine congrArg JsonValue.object (map_eq_map_of_map_eq_map hobject' fun a ha b hb hab => ?_)
          obtain ⟨hkey, hstored⟩ := Prod.ext_iff.mp hab
          have hvalue : a.2.1 = b.2.1 := by simpa using hstored
          exact Prod.ext hkey (ih a ha (hvalue ▸ hfields' b hb))

theorem Represents.resembles (runtime : JsonRuntime ν) {value : JsValue ν α} {x : JsonValue ν}
    (h : Represents heap value x) : Resembles runtime heap value x := by
  induction h with
  | null => exact .null
  | boolean value => exact .boolean value
  | number value => exact .number value
  | string value => exact .string value
  | array hobject _ ih => exact .array hobject (by simp) ih
  | object hobject _ ih => exact .object hobject ih

/-! ### Every tree is a value -/

namespace JsValue

variable {β : Type} (f : α → β)

def map : JsValue ν α → JsValue ν β
  | .null => .null
  | .boolean value => .boolean value
  | .number value => .number value
  | .string value => .string value
  | .reference address => .reference (f address)
  | .other type => .other type

end JsValue

/-- The object after its addresses were renamed. -/
def JsObject.map {β : Type} (f : α → β) (object : JsObject ν α) : JsObject ν β where
  enumerableSymbols := object.enumerableSymbols
  properties :=
    let rename : PropertyDescriptor ν α → PropertyDescriptor ν β
      | .stored value => .stored (value.map f)
      | .accessor => .accessor
    match object.properties with
    | .array elements extraKeys => .array (elements.map (Option.map rename)) extraKeys
    | .record hasPlainPrototype fields => .record hasPlainPrototype (fields.map (Prod.map id rename))

/-- A tree stays where it is when its heap becomes part of another. -/
theorem Represents.map {β : Type} {f : α → β} {heap' : Heap ν β}
    (hheap : ∀ address, heap' (f address) = (heap address).map f) {value : JsValue ν α} {x : JsonValue ν}
    (hvalue : Represents heap value x) : Represents heap' (value.map f) x := by
  induction hvalue with
  | null => exact .null
  | boolean value => exact .boolean value
  | number value => exact .number value
  | string value => exact .string value
  | @array address items hobject _ ih =>
      have harray := @Represents.array ν β heap' (f address) (items.map (Prod.map (JsValue.map f) id))
        (by simp [hheap, hobject, JsObject.map, Function.comp_def]) (List.forall_mem_map.mpr ih)
      rwa [List.map_map] at harray
  | @object address fields hobject _ ih =>
      have hrecord := @Represents.object ν β heap' (f address)
        (fields.map (Prod.map id (Prod.map (JsValue.map f) id)))
        (by simp [hheap, hobject, JsObject.map, Function.comp_def]) (List.forall_mem_map.mpr ih)
      rwa [List.map_map] at hrecord

/-- A tree that some value of some heap is. -/
def Realizable (x : JsonValue ν) : Prop :=
  ∃ (α : Type) (_ : Fintype α) (_ : DecidableEq α) (heap : Heap ν α) (value : JsValue ν α),
    Represents heap value x

/-- Trees in heaps of their own are trees of one heap. -/
theorem exists_common_heap {κ : Type} {fields : List (κ × JsonValue ν)}
    (hfields : ∀ field ∈ fields, Realizable field.2) :
    ∃ (α : Type) (_ : Fintype α) (_ : DecidableEq α) (heap : Heap ν α)
      (values : List (κ × JsValue ν α × JsonValue ν)),
      values.map (Prod.map id Prod.snd) = fields ∧
        ∀ value ∈ values, Represents heap value.2.1 value.2.2 := by
  induction fields with
  | nil => exact ⟨Empty, inferInstance, inferInstance, Empty.elim, [], rfl, by simp⟩
  | cons field fields ih =>
      obtain ⟨hfield, hfields⟩ := List.forall_mem_cons.mp hfields
      obtain ⟨α, hfintype, hdecidable, heap, value, hvalue⟩ := hfield
      obtain ⟨β, hfintype', hdecidable', heap', values, hvalues, hrepresents⟩ := ih hfields
      -- The two heaps side by side.
      let both : Heap ν (α ⊕ β) :=
        Sum.elim (fun address => (heap address).map Sum.inl) fun address => (heap' address).map Sum.inr
      refine ⟨α ⊕ β, inferInstance, inferInstance, both,
        (field.1, value.map Sum.inl, field.2) :: values.map (Prod.map id (Prod.map (JsValue.map Sum.inr) id)),
        ?_, ?_⟩
      · rw [← hvalues, List.map_cons, List.map_map]
        rfl
      · refine List.forall_mem_cons.mpr ⟨Represents.map (f := Sum.inl) (fun _ => rfl) hvalue, ?_⟩
        intro value hmem
        obtain ⟨original, horiginal, rfl⟩ := List.mem_map.mp hmem
        exact Represents.map (f := Sum.inr) (fun _ => rfl) (hrepresents original horiginal)

/-- A heap with one more object, which refers to the others. -/
def withRoot (heap : Heap ν α) (root : JsObject ν α) : Heap ν (Option α)
  | none => root.map some
  | some address => (heap address).map some

/-- Every tree is a value of some heap, as `JSON.parse` makes one. -/
theorem realizable (x : JsonValue ν) : Realizable x := by
  induction x using JsonValue.tree_induction with
  | null => exact ⟨Empty, inferInstance, inferInstance, Empty.elim, .null, .null⟩
  | boolean value => exact ⟨Empty, inferInstance, inferInstance, Empty.elim, _, .boolean value⟩
  | number value => exact ⟨Empty, inferInstance, inferInstance, Empty.elim, _, .number value⟩
  | string value => exact ⟨Empty, inferInstance, inferInstance, Empty.elim, _, .string value⟩
  | array items ih =>
      have hitems : ∀ field ∈ items.map fun item => ((), item), Realizable field.2 :=
        List.forall_mem_map.mpr ih
      obtain ⟨α, hfintype, hdecidable, heap, values, hvalues, hrepresents⟩ := exists_common_heap hitems
      let root : JsObject ν α := ⟨0, .array (values.map fun item => some (.stored item.2.1)) []⟩
      refine ⟨Option α, inferInstance, inferInstance, withRoot heap root, .reference none, ?_⟩
      have harray := @Represents.array ν (Option α) (withRoot heap root) none
        (values.map fun value => (value.2.1.map some, value.2.2))
        (by simp [withRoot, root, JsObject.map, Function.comp_def])
        (List.forall_mem_map.mpr fun value hmem =>
          Represents.map (f := some) (fun _ => rfl) (hrepresents value hmem))
      have hsnd : values.map (fun value => value.2.2) = items := by
        simpa [Function.comp_def] using congrArg (List.map Prod.snd) hvalues
      rw [List.map_map] at harray
      exact hsnd ▸ harray
  | object fields ih =>
      obtain ⟨α, hfintype, hdecidable, heap, values, hvalues, hrepresents⟩ := exists_common_heap ih
      let root : JsObject ν α := ⟨0, .record true (values.map (Prod.map id fun value => .stored value.1))⟩
      refine ⟨Option α, inferInstance, inferInstance, withRoot heap root, .reference none, ?_⟩
      have hrecord := @Represents.object ν (Option α) (withRoot heap root) none
        (values.map (Prod.map id (Prod.map (JsValue.map some) id)))
        (by simp [withRoot, root, JsObject.map, Function.comp_def])
        (List.forall_mem_map.mpr fun value hmem =>
          Represents.map (f := some) (fun _ => rfl) (hrepresents value hmem))
      rw [List.map_map] at hrecord
      exact hvalues ▸ hrecord

/-! ### Serialization -/

theorem sizeOf_lt_array {items : List (JsonValue ν)} {item : JsonValue ν} (h : item ∈ items) :
    sizeOf item < sizeOf (JsonValue.array items) := by
  have := List.sizeOf_lt_of_mem h
  simp only [JsonValue.array.sizeOf_spec]
  omega

theorem sizeOf_lt_object {fields : List (Text × JsonValue ν)} {field : Text × JsonValue ν}
    (h : field ∈ fields) : sizeOf field.2 < sizeOf (JsonValue.object fields) := by
  have := List.sizeOf_lt_of_mem h
  have : sizeOf field.2 < sizeOf field := by
    cases field
    simp only [Prod.mk.sizeOf_spec]
    omega
  simp only [JsonValue.object.sizeOf_spec]
  omega

/-! ### Trees -/

section Trees

variable {format : NumberFormat ν}

theorem canonicalizeItems_eq_map (items : List (JsonValue ν)) :
    canonicalizeItems format items = items.map (canonicalizeTree format) := by
  induction items with
  | nil => rfl
  | cons item items ih => rw [canonicalizeItems, ih, List.map_cons]

theorem canonicalizeFields_eq_map (fields : List (Text × JsonValue ν)) :
    canonicalizeFields format fields = fields.map (Prod.map id (canonicalizeTree format)) := by
  induction fields with
  | nil => rfl
  | cons field fields ih => rw [canonicalizeFields, ih, List.map_cons, Prod.map_apply, id]

theorem canonicalizeTree_array (items : List (JsonValue ν)) (path : Text) :
    canonicalizeTree format (.array items) path =
      (items.zipIdx.mapM fun item => canonicalizeTree format item.1 (itemPath path item.2)) >>= fun texts =>
        .ok (91 :: join texts ++ [93]) := by
  rw [canonicalizeTree, canonicalizeItems_eq_map, List.zipIdx_map, List.mapM_map]
  rfl

theorem canonicalizeTree_object (fields : List (Text × JsonValue ν)) (path : Text) :
    canonicalizeTree format (.object fields) path =
      ((sortByKey fields).mapM fun field => do
        let encodedValue ← canonicalizeTree format field.2 (fieldPath path field.1)
        .ok (quote field.1 ++ 58 :: encodedValue)) >>= fun texts =>
          .ok (123 :: join texts ++ [125]) := by
  rw [canonicalizeTree, canonicalizeFields_eq_map, ← map_sortByKey, List.mapM_map]
  rfl

/-- A tree with finite numbers is serialized as it is printed. -/
theorem canonicalizeTree_of_valid {x : JsonValue ν} (hx : x.Valid format) (path : Text) :
    canonicalizeTree format x path = .ok (x.print format) := by
  induction x using JsonValue.tree_induction generalizing path with
  | null | boolean | string => rw [canonicalizeTree, JsonValue.print]
  | number value =>
      cases hx with | number hfinite =>
      rw [canonicalizeTree, throwIf_neg (not_not.mpr hfinite), JsonValue.print]
      rfl
  | array items ih =>
      cases hx with | array hvalid =>
      have hitem : ∀ element ∈ items.zipIdx,
          canonicalizeTree format element.1 (itemPath path element.2) = .ok (element.1.print format) := by
        intro element helement
        have hmem := List.fst_mem_of_mem_zipIdx helement
        exact ih element.1 hmem (hvalid _ hmem) _
      have hprinted : items.zipIdx.map (fun element => element.1.print format) =
          items.map (JsonValue.print format) := by
        calc items.zipIdx.map (fun element => element.1.print format)
            = (items.zipIdx.map Prod.fst).map (JsonValue.print format) := by rw [List.map_map]; rfl
          _ = items.map (JsonValue.print format) := by rw [List.zipIdx_map_fst]
      rw [canonicalizeTree_array, mapM_eq_ok hitem, hprinted, JsonValue.print_array]
      rfl
  | object fields ih =>
      cases hx with | object hkeys hvalid =>
      have hfield : ∀ field ∈ sortByKey fields, (do
          let encodedValue ← canonicalizeTree format field.2 (fieldPath path field.1)
          Except.ok (quote field.1 ++ 58 :: encodedValue)) = .ok (JsonValue.printField format field) := by
        intro field hfield
        have hmem := mem_sortByKey.mp hfield
        rw [ih field hmem (hvalid _ hmem)]
        rfl
      rw [canonicalizeTree_object, mapM_eq_ok hfield, JsonValue.print_object]
      rfl

end Trees

variable {runtime : JsonRuntime ν}

variable (runtime heap) in
/-- Every ancestor of a value stands for a larger tree, so that the value is none of them. -/
def Below (ancestors : Finset α) (x : JsonValue ν) : Prop :=
  ∀ ancestor ∈ ancestors, ∀ y, Resembles runtime heap (.reference ancestor) y → sizeOf x < sizeOf y

theorem Below.notMem {ancestors : Finset α} {x : JsonValue ν} {address : α}
    (hbelow : Below heap runtime ancestors x) (haddress : Resembles runtime heap (.reference address) x) :
    address ∉ ancestors := fun hmem => (hbelow address hmem x haddress).false

variable [DecidableEq α]

theorem Below.insert {ancestors : Finset α} {x item : JsonValue ν} {address : α}
    (hbelow : Below heap runtime ancestors x) (haddress : Resembles runtime heap (.reference address) x)
    (hitem : sizeOf item < sizeOf x) : Below heap runtime (insert address ancestors) item := by
  intro ancestor hancestor y hy
  rcases Finset.mem_insert.mp hancestor with rfl | hancestor
  · rwa [← haddress.unique hy]
  · exact hitem.trans (hbelow ancestor hancestor y hy)

variable [Fintype α]

/-- A value that resembles a JSON tree is serialized as the tree is. -/
theorem canonicalize_eq_tree {value : JsValue ν α} {x : JsonValue ν} (hvalue : Resembles runtime heap value x)
    (path : Text) {ancestors : Finset α} (hbelow : Below heap runtime ancestors x) :
    canonicalize runtime heap value path ancestors = canonicalizeTree runtime.toNumberFormat x path := by
  induction hvalue generalizing path ancestors with
  | null | boolean | string | number => rw [canonicalize, canonicalizeTree]
  | @array address items extraKeys hobject hkeys hitems ih =>
      have haddress : Resembles runtime heap (.reference address) (.array (items.map Prod.snd)) :=
        .array hobject hkeys hitems
      have hitem : ∀ element ∈ items.zipIdx,
          canonicalize runtime heap element.1.1 (itemPath path element.2) (insert address ancestors) =
            canonicalizeTree runtime.toNumberFormat element.1.2 (itemPath path element.2) := by
        intro element helement
        have hmem := List.fst_mem_of_mem_zipIdx helement
        exact ih element.1 hmem _ (hbelow.insert haddress (sizeOf_lt_array (List.mem_map_of_mem hmem)))
      have hindices : (extraKeys.filter fun key => !isIndexKey runtime items.length key) = [] := by
        rw [List.filter_eq_nil_iff]
        intro key hkey
        simp [hkeys key hkey]
      rw [canonicalize, canonicalizeObject, dif_neg (hbelow.notMem haddress), hobject,
        throwIf_neg (lt_irrefl 0), ok_bind]
      dsimp only
      rw [List.length_map, hindices, List.length_nil, throwIf_neg (lt_irrefl 0), ok_bind, List.zipIdx_map,
        List.mapM_map, canonicalizeTree_array, List.zipIdx_map, List.mapM_map]
      exact congrArg (· >>= fun texts => Except.ok (91 :: join texts ++ [93])) (mapM_congr hitem)
  | @object address fields hobject hfields ih =>
      have haddress : Resembles runtime heap (.reference address) (.object (fields.map (Prod.map id Prod.snd))) :=
        .object hobject hfields
      have hfield : ∀ field ∈ sortByKey fields, (do
          let encodedValue ← canonicalize runtime heap field.2.1 (fieldPath path field.1)
            (insert address ancestors)
          Except.ok (quote field.1 ++ 58 :: encodedValue)) =
            (canonicalizeTree runtime.toNumberFormat field.2.2 (fieldPath path field.1) >>= fun encodedValue =>
              Except.ok (quote field.1 ++ 58 :: encodedValue)) := by
        intro field hfield
        have hmem := mem_sortByKey.mp hfield
        have hmem' := List.mem_map_of_mem (f := Prod.map id Prod.snd) hmem
        rw [ih field hmem _ (hbelow.insert haddress (sizeOf_lt_object hmem'))]
      rw [canonicalize, canonicalizeObject, dif_neg (hbelow.notMem haddress), hobject,
        throwIf_neg (lt_irrefl 0), ok_bind]
      dsimp only
      rw [throwIf_neg (by decide), ok_bind, ← map_sortByKey, List.mapM_map, canonicalizeTree_object,
        ← map_sortByKey, List.mapM_map]
      exact congrArg (· >>= fun texts => Except.ok (123 :: join texts ++ [125])) (mapM_congr hfield)

/-- A value that resembles a JSON tree is serialized as the tree is printed. -/
theorem canonicalizeJson_of_resembles {value : JsValue ν α} {x : JsonValue ν}
    (hvalue : Resembles runtime heap value x) (hx : x.Valid runtime.toNumberFormat) :
    canonicalizeJson runtime heap value = .ok (x.print runtime.toNumberFormat) := by
  rw [canonicalizeJson, canonicalize_eq_tree hvalue _ fun _ hmem => absurd hmem (Finset.notMem_empty _),
    canonicalizeTree_of_valid hx]

theorem canonicalizeJson_eq_print {value : JsValue ν α} {x : JsonValue ν}
    (hvalue : Represents heap value x) (hx : x.Valid runtime.toNumberFormat) :
    canonicalizeJson runtime heap value = .ok (x.print runtime.toNumberFormat) :=
  canonicalizeJson_of_resembles (hvalue.resembles runtime) hx

/-- Canonical JSON is a normal form: every JSON tree has a text, reading the text gives the tree up to the
order of keys and a value with the same text, and two trees have one text exactly when they are equal up
to the order of keys. -/
theorem canonicalizeJson_normal_form (hlawful : runtime.toNumberFormat.Lawful) {x y : JsonValue ν}
    (hx : x.Valid runtime.toNumberFormat) (hy : y.Valid runtime.toNumberFormat) {value : JsValue ν α}
    (hvalue : Represents heap value x) {β : Type} [Fintype β] [DecidableEq β] {otherHeap : Heap ν β}
    {other : JsValue ν β} (hother : Represents otherHeap other y) :
    (∃ text parsed, canonicalizeJson runtime heap value = .ok text ∧
      parse runtime.toNumberFormat text = some parsed ∧ parsed.SameUpToOrder x ∧
      ∀ (γ : Type) [Fintype γ] [DecidableEq γ] (parsedHeap : Heap ν γ) parsedValue,
        Represents parsedHeap parsedValue parsed →
        canonicalizeJson runtime parsedHeap parsedValue = .ok text) ∧
    (canonicalizeJson runtime heap value = canonicalizeJson runtime otherHeap other ↔
      x.SameUpToOrder y) := by
  have hsorted := JsonValue.valid_sorted hx
  refine ⟨⟨x.print _, x.sorted, canonicalizeJson_eq_print hvalue hx, JsonValue.parse_print hlawful hx,
    ?_, ?_⟩, ?_⟩
  · exact (JsonValue.sameUpToOrder_iff hsorted hx).mpr x.sorted_sorted
  · intro γ _ _ parsedHeap parsedValue hparsed
    rw [canonicalizeJson_eq_print hparsed hsorted, JsonValue.print_sorted]
  · rw [canonicalizeJson_eq_print hvalue hx, canonicalizeJson_eq_print hother hy, Except.ok.injEq,
      JsonValue.print_eq_print_iff hlawful hx hy]

@[instance] theorem neZero_digits : @NeZero Nat Zero.ofOfNat0 10 := ⟨by decide⟩

/-- The digits as numbers. -/
def digitRuntime : JsonRuntime (Fin 10) where
  isFinite _ := true
  literal digit := [Fin.ofNat 65536 (48 + digit.val)]
  value text := Fin.ofNat 10 ((text.headD 48).val - 48)
  toInteger key := if key = [48] then some 0 else none

theorem digitRuntime_lawful : digitRuntime.toNumberFormat.Lawful where
  isNumberLiteral_literal := by decide
  value_literal := by decide

/-- `{ "b": [1], "a": <lead surrogate> }`, with the array at its own address. -/
def sampleHeap : Heap (Fin 10) (Fin 2)
  | 0 => ⟨0, .record true [(ascii "b", .stored (.reference 1)), (ascii "a", .stored (.string [0xD800]))]⟩
  | 1 => ⟨0, .array [some (.stored (.number 1))] []⟩

def sampleTree : JsonValue (Fin 10) :=
  .object [(ascii "b", .array [.number 1]), (ascii "a", .string [0xD800])]

theorem sampleTree_represented : Represents sampleHeap (.reference 0) sampleTree := by
  have harray : Represents sampleHeap (.reference 1) (.array [.number 1]) :=
    @Represents.array _ _ sampleHeap 1 [(.number 1, .number 1)] rfl (by simp [Represents.number])
  exact @Represents.object _ _ sampleHeap 0
    [(ascii "b", .reference 1, .array [.number 1]), (ascii "a", .string [0xD800], .string [0xD800])] rfl
    (by simp [harray, Represents.string])

theorem sampleTree_valid : sampleTree.Valid digitRuntime.toNumberFormat := by
  refine .object (by decide) ?_
  have harray : (JsonValue.array [.number 1]).Valid digitRuntime.toNumberFormat :=
    .array fun item hitem => List.mem_singleton.mp hitem ▸ .number rfl
  simp [harray, JsonValue.Valid.string]

theorem canonicalizeJson_normal_form_sample :
    ∃ parsed, parse digitRuntime.toNumberFormat (ascii "\x7b\"a\":\"\\ud800\",\"b\":[1]\x7d") = some parsed ∧
      parsed.SameUpToOrder sampleTree := by
  obtain ⟨text, parsed, htext, hparsed, hsame, _⟩ :=
    (canonicalizeJson_normal_form digitRuntime_lawful sampleTree_valid sampleTree_valid
      sampleTree_represented sampleTree_represented).1
  rw [canonicalizeJson_eq_print sampleTree_represented sampleTree_valid, Except.ok.injEq] at htext
  have hprint : sampleTree.print digitRuntime.toNumberFormat =
      ascii "\x7b\"a\":\"\\ud800\",\"b\":[1]\x7d" := by decide
  rw [← htext, hprint] at hparsed
  exact ⟨parsed, hparsed, hsame⟩

end SyncEngine
