import Mathlib.Data.Fintype.Card
import SyncEngine.Lib.CanonicalJson
import SyncEngine.Lib.Throwing

/-!
# Canonical JSON

`canonicalizeJson` of `fingerprint.ts` on JavaScript values: primitives, and references to the arrays
and objects of a heap, which may be shared or cyclic and need not be JSON-compatible.
-/

namespace SyncEngine

open JavaScript Throwing

/-- What a variable or a property holds, with references into a heap whose addresses are `α`. -/
inductive JsValue (ν α : Type) where
  | null
  | boolean (value : Bool)
  | number (value : ν)
  | string (value : Text)
  | reference (address : α)
  /-- `undefined`, a bigint, a symbol or a function, with its `typeof`. -/
  | other (type : String)

inductive PropertyDescriptor (ν α : Type) where
  | stored (value : JsValue ν α)
  | accessor

inductive JsProperties (ν α : Type) where
  /-- An array: its elements, `none` for a hole, and the enumerable string keys besides its indices. -/
  | array (elements : List (Option (PropertyDescriptor ν α))) (extraKeys : List Text)
  /-- Any other object: whether its prototype is `Object.prototype` or `null`, and its enumerable
  string keys in the order of `Object.keys`. -/
  | record (hasPlainPrototype : Bool) (fields : List (Text × PropertyDescriptor ν α))

structure JsObject (ν α : Type) where
  enumerableSymbols : Nat
  properties : JsProperties ν α

abbrev Heap (ν α : Type) := α → JsObject ν α

structure InvalidJsonValueError where
  path : Text
  reason : String

def InvalidJsonValueError.message (error : InvalidJsonValueError) : Text :=
  error.path ++ ascii ": " ++ ascii error.reason

structure JsonRuntime (ν : Type) extends NumberFormat ν where
  /-- `Number(key)`, where that is an integer. -/
  toInteger : Text → Option Int

section Canonicalize

variable {ν α : Type} (runtime : JsonRuntime ν) (heap : Heap ν α)

/-- Whether `Number` reads a key as an index below the length of an array. -/
def isIndexKey (length : Nat) (key : Text) : Bool :=
  match runtime.toInteger key with
  | none => false
  | some index => 0 ≤ index && index < length

def PropertyDescriptor.read (path : Text) : PropertyDescriptor ν α → Except InvalidJsonValueError (JsValue ν α)
  | .stored value => .ok value
  | .accessor => .error ⟨path, "accessor properties are not supported"⟩

def readElement (path : Text) : Option (PropertyDescriptor ν α) → Except InvalidJsonValueError (JsValue ν α)
  | none => .error ⟨path, "sparse arrays are not supported"⟩
  | some descriptor => descriptor.read path

def itemPath (path : Text) (index : Nat) : Text := path ++ ascii s!"[{index}]"

def fieldPath (path key : Text) : Text := path ++ 46 :: key

theorem card_sub_card_insert_lt [Fintype α] [DecidableEq α] {ancestors : Finset α} {address : α}
    (h : address ∉ ancestors) :
    Fintype.card α - (insert address ancestors).card < Fintype.card α - ancestors.card := by
  have hcard := Finset.card_insert_of_notMem h
  have hle := Finset.card_le_univ (insert address ancestors)
  omega

mutual

def canonicalize [Fintype α] [DecidableEq α] (value : JsValue ν α) (path : Text)
    (ancestors : Finset α) : Except InvalidJsonValueError Text :=
  match value with
  | .null => .ok (ascii "null")
  | .boolean value => .ok (if value then ascii "true" else ascii "false")
  | .string value => .ok (quote value)
  | .number value => do
      throwIf (¬runtime.isFinite value) ⟨path, "number must be finite"⟩
      .ok (runtime.literal value)
  | .reference address => canonicalizeObject address path ancestors
  | .other type => .error ⟨path, type ++ " is not a JSON value"⟩
termination_by (Fintype.card α - ancestors.card, 1)

def canonicalizeObject [Fintype α] [DecidableEq α] (address : α) (path : Text)
    (ancestors : Finset α) : Except InvalidJsonValueError Text :=
  if h : address ∈ ancestors then .error ⟨path, "cyclic values are not supported"⟩
  else do
    throwIf (0 < (heap address).enumerableSymbols)
      ⟨path, "enumerable symbol keys are not JSON-compatible"⟩
    match (heap address).properties with
    | .array elements extraKeys =>
        throwIf (0 < (extraKeys.filter fun key => !isIndexKey runtime elements.length key).length)
          ⟨path, "arrays must not contain named enumerable properties"⟩
        let items ← elements.zipIdx.mapM fun element => do
          let item ← readElement (itemPath path element.2) element.1
          canonicalize item (itemPath path element.2) (insert address ancestors)
        .ok (91 :: join items ++ [93])
    | .record hasPlainPrototype fields =>
        throwIf (¬hasPlainPrototype) ⟨path, "only plain objects and arrays are supported"⟩
        let fields ← (sortByKey fields).mapM fun field => do
          let value ← field.2.read (fieldPath path field.1)
          let encodedValue ← canonicalize value (fieldPath path field.1) (insert address ancestors)
          .ok (quote field.1 ++ 58 :: encodedValue)
        .ok (123 :: join fields ++ [125])
termination_by (Fintype.card α - ancestors.card, 0)
decreasing_by
  all_goals exact Prod.Lex.left _ _ (card_sub_card_insert_lt h)

end

def canonicalizeJson [Fintype α] [DecidableEq α] (value : JsValue ν α) : Except InvalidJsonValueError Text :=
  canonicalize runtime heap value (ascii "$") ∅

end Canonicalize

section Trees

variable {ν : Type} (format : NumberFormat ν)

mutual

def canonicalizeTree : JsonValue ν → Text → Except InvalidJsonValueError Text
  | .null, _ => .ok (ascii "null")
  | .boolean value, _ => .ok (if value then ascii "true" else ascii "false")
  | .string value, _ => .ok (quote value)
  | .number value, path => do
      throwIf (¬format.isFinite value) ⟨path, "number must be finite"⟩
      .ok (format.literal value)
  | .array items, path => do
      let items ← (canonicalizeItems items).zipIdx.mapM fun item => item.1 (itemPath path item.2)
      .ok (91 :: join items ++ [93])
  | .object fields, path => do
      let fields ← (sortByKey (canonicalizeFields fields)).mapM fun field => do
        let encodedValue ← field.2 (fieldPath path field.1)
        .ok (quote field.1 ++ 58 :: encodedValue)
      .ok (123 :: join fields ++ [125])

def canonicalizeItems : List (JsonValue ν) → List (Text → Except InvalidJsonValueError Text)
  | [] => []
  | item :: items => canonicalizeTree item :: canonicalizeItems items

def canonicalizeFields :
    List (Text × JsonValue ν) → List (Text × (Text → Except InvalidJsonValueError Text))
  | [] => []
  | (key, value) :: fields => (key, canonicalizeTree value) :: canonicalizeFields fields

end

def canonicalizeJsonTree (x : JsonValue ν) : Except InvalidJsonValueError Text :=
  canonicalizeTree format x (ascii "$")

end Trees

def hexByte (byte : UInt8) : List Char := [Nat.digitChar (byte.toNat / 16), Nat.digitChar (byte.toNat % 16)]

/-- The value is the JSON tree: its objects are plain, with stored values and without surplus keys. -/
inductive Represents {ν α : Type} (heap : Heap ν α) : JsValue ν α → JsonValue ν → Prop
  | null : Represents heap .null .null
  | boolean (value : Bool) : Represents heap (.boolean value) (.boolean value)
  | number (value : ν) : Represents heap (.number value) (.number value)
  | string (value : Text) : Represents heap (.string value) (.string value)
  | array {address : α} {items : List (JsValue ν α × JsonValue ν)}
      (hobject : heap address = ⟨0, .array (items.map fun item => some (.stored item.1)) []⟩)
      (hitems : ∀ item ∈ items, Represents heap item.1 item.2) :
      Represents heap (.reference address) (.array (items.map Prod.snd))
  | object {address : α} {fields : List (Text × JsValue ν α × JsonValue ν)}
      (hobject : heap address =
        ⟨0, .record true (fields.map (Prod.map id fun value => .stored value.1))⟩)
      (hfields : ∀ field ∈ fields, Represents heap field.2.1 field.2.2) :
      Represents heap (.reference address) (.object (fields.map (Prod.map id Prod.snd)))

/-- The value is the JSON tree, but for surplus keys of its arrays that `Number` reads as indices. -/
inductive Resembles {ν α : Type} (runtime : JsonRuntime ν) (heap : Heap ν α) : JsValue ν α → JsonValue ν → Prop
  | null : Resembles runtime heap .null .null
  | boolean (value : Bool) : Resembles runtime heap (.boolean value) (.boolean value)
  | number (value : ν) : Resembles runtime heap (.number value) (.number value)
  | string (value : Text) : Resembles runtime heap (.string value) (.string value)
  | array {address : α} {items : List (JsValue ν α × JsonValue ν)} {extraKeys : List Text}
      (hobject : heap address = ⟨0, .array (items.map fun item => some (.stored item.1)) extraKeys⟩)
      (hkeys : ∀ key ∈ extraKeys, isIndexKey runtime items.length key)
      (hitems : ∀ item ∈ items, Resembles runtime heap item.1 item.2) :
      Resembles runtime heap (.reference address) (.array (items.map Prod.snd))
  | object {address : α} {fields : List (Text × JsValue ν α × JsonValue ν)}
      (hobject : heap address =
        ⟨0, .record true (fields.map (Prod.map id fun value => .stored value.1))⟩)
      (hfields : ∀ field ∈ fields, Resembles runtime heap field.2.1 field.2.2) :
      Resembles runtime heap (.reference address) (.object (fields.map (Prod.map id Prod.snd)))

end SyncEngine
