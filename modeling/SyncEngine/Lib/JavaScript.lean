import Mathlib.Data.List.Infix
import Mathlib.Data.Int.Order.Basic

/-!
# The JavaScript built-ins a protocol implementation leans on

Safe integers, array indexing and slicing, the JSON literal of a string, and the decimal literal of
an integer. A number is an `Int` here: a fractional or non-finite number is refused by every safe
integer check, as an integer out of range is.
-/

namespace JavaScript

variable {α : Type*}

def maxSafeInteger : Int := 9007199254740991

def IsSafeInteger (value : Int) : Prop := -maxSafeInteger ≤ value ∧ value ≤ maxSafeInteger

instance (value : Int) : Decidable (IsSafeInteger value) :=
  inferInstanceAs (Decidable (-maxSafeInteger ≤ value ∧ value ≤ maxSafeInteger))

/-- `array[index]`, with nothing at a negative index or past the end. -/
def element? (l : List α) (index : Int) : Option α :=
  if index < 0 then none else l[index.toNat]?

/-- The absolute position a relative index of `slice` stands for. -/
def absoluteIndex (l : List α) (index : Int) : Nat :=
  if index < 0 then (l.length + index).toNat else index.toNat

/-- `array.slice(start, stop)`. -/
def slice (l : List α) (start stop : Int) : List α :=
  (l.take (absoluteIndex l stop)).drop (absoluteIndex l start)

def sliceFrom (l : List α) (start : Int) : List α := l.drop (absoluteIndex l start)

/-- `/first|second/i.test(text)`, for patterns that are plain texts. -/
def testIgnoreCase (patterns : List String) (text : String) : Bool :=
  patterns.any fun pattern => (text.toList.map Char.toLower).tails.any fun rest =>
    (pattern.toList.map Char.toLower).isPrefixOf rest

def includes (text pattern : String) : Bool :=
  text.toList.tails.any fun rest => pattern.toList.isPrefixOf rest

theorem count_le_of_includes {text pattern : String} (h : includes text pattern = true) (c : Char) :
    pattern.toList.count c ≤ text.toList.count c := by
  rw [includes, List.any_eq_true] at h
  obtain ⟨rest, hrest, hpattern⟩ := h
  have hsuffix := (List.mem_tails _ _).mp hrest
  exact ((List.isPrefixOf_iff_prefix.mp hpattern).sublist.trans hsuffix.sublist).count_le c

theorem element?_natCast (l : List α) (i : Nat) : element? l (i : Int) = l[i]? := by
  rw [element?, if_neg (by omega), Int.toNat_natCast]

theorem mem_of_element? {l : List α} {index : Int} {a : α} (h : element? l index = some a) : a ∈ l := by
  rw [element?] at h
  split at h
  · simp at h
  · exact List.mem_of_getElem? h

theorem absoluteIndex_natCast (l : List α) (i : Nat) : absoluteIndex l (i : Int) = i := by
  rw [absoluteIndex, if_neg (by omega), Int.toNat_natCast]

theorem slice_natCast (l : List α) (start stop : Nat) :
    slice l (start : Int) (stop : Int) = (l.take stop).drop start := by
  rw [slice, absoluteIndex_natCast, absoluteIndex_natCast]

theorem sliceFrom_natCast (l : List α) (start : Nat) : sliceFrom l (start : Int) = l.drop start := by
  rw [sliceFrom, absoluteIndex_natCast]

def escapeCharacter (c : Char) : String :=
  match c.toNat with
  | 8 => "\\b"
  | 9 => "\\t"
  | 10 => "\\n"
  | 12 => "\\f"
  | 13 => "\\r"
  | 34 => "\\\""
  | 92 => "\\\\"
  | code =>
      if code < 32 then
        "\\u00" ++ (if code < 16 then "0" else "") ++ String.ofList (Nat.toDigits 16 code)
      else c.toString

def stringify (s : String) : String :=
  "\"" ++ String.join (s.toList.map escapeCharacter) ++ "\""

/-! ### Decimal literals -/

theorem toDigits_injective {m n : Nat} (h : Nat.toDigits 10 m = Nat.toDigits 10 n) : m = n := by
  have hm := Nat.ofDigitChars_toDigits (b := 10) (n := m) (by decide) (by decide)
  have hn := Nat.ofDigitChars_toDigits (b := 10) (n := n) (by decide) (by decide)
  rw [← hm, ← hn, h]

theorem toList_toString_ofNat (n : Nat) : (toString (n : Int)).toList = Nat.toDigits 10 n := by
  change (Nat.repr n).toList = _
  exact Nat.toList_repr

theorem toList_toString_negSucc (n : Nat) :
    (toString (Int.negSucc n)).toList = '-' :: Nat.toDigits 10 (n + 1) := by
  change ("-" ++ Nat.repr (n + 1)).toList = _
  rw [String.toList_append, Nat.toList_repr]
  rfl

/-- A decimal literal is a run of digits and minus signs. -/
theorem isDigit_or_minus_of_mem_toString {value : Int} {c : Char}
    (hc : c ∈ (toString value).toList) : c.isDigit = true ∨ c = '-' := by
  cases value with
  | ofNat n =>
      rw [Int.ofNat_eq_natCast, toList_toString_ofNat] at hc
      exact Or.inl (Nat.isDigit_of_mem_toDigits (by decide) (by decide) hc)
  | negSucc n =>
      rw [toList_toString_negSucc, List.mem_cons] at hc
      exact hc.symm.imp_left (Nat.isDigit_of_mem_toDigits (by decide) (by decide))

theorem minus_not_mem_toDigits (n : Nat) : '-' ∉ Nat.toDigits 10 n := by
  intro hmem
  have := Nat.isDigit_of_mem_toDigits (by decide) (by decide) hmem
  revert this
  decide

theorem toString_injective {a b : Int} (h : toString a = toString b) : a = b := by
  have hlist := congrArg String.toList h
  cases a with
  | ofNat m =>
      rw [Int.ofNat_eq_natCast, toList_toString_ofNat] at hlist
      cases b with
      | ofNat n =>
          rw [Int.ofNat_eq_natCast, toList_toString_ofNat] at hlist
          exact congrArg Int.ofNat (toDigits_injective hlist)
      | negSucc n =>
          rw [toList_toString_negSucc] at hlist
          exact absurd (hlist ▸ List.mem_cons_self) (minus_not_mem_toDigits m)
  | negSucc m =>
      rw [toList_toString_negSucc] at hlist
      cases b with
      | ofNat n =>
          rw [Int.ofNat_eq_natCast, toList_toString_ofNat] at hlist
          exact absurd (hlist ▸ List.mem_cons_self) (minus_not_mem_toDigits n)
      | negSucc n =>
          rw [toList_toString_negSucc, List.cons.injEq] at hlist
          have := toDigits_injective hlist.2
          exact congrArg Int.negSucc (by omega)

theorem append_cons_injective {separator : α} {xs ys us vs : List α} (hxs : separator ∉ xs)
    (hys : separator ∉ ys) (h : xs ++ separator :: us = ys ++ separator :: vs) :
    xs = ys ∧ us = vs := by
  induction xs generalizing ys with
  | nil =>
      cases ys with
      | nil => simpa using h
      | cons y ys =>
          rw [List.nil_append, List.cons_append, List.cons.injEq] at h
          exact absurd (h.1 ▸ List.mem_cons_self) hys
  | cons x xs ih =>
      cases ys with
      | nil =>
          rw [List.nil_append, List.cons_append, List.cons.injEq] at h
          exact absurd (h.1 ▸ List.mem_cons_self) hxs
      | cons y ys =>
          rw [List.cons_append, List.cons_append, List.cons.injEq] at h
          rw [List.mem_cons, not_or] at hxs hys
          obtain ⟨htail, hrest⟩ := ih hxs.2 hys.2 h.2
          exact ⟨by rw [h.1, htail], hrest⟩

/-- A text, a separator no decimal literal contains, and a decimal literal can be read back,
whatever the text contains. -/
theorem append_literal_injective {separator : Char} {left right : String} {m n : Int}
    (hdigit : separator.isDigit = false) (hminus : separator ≠ '-')
    (h : left ++ separator.toString ++ toString m = right ++ separator.toString ++ toString n) :
    left = right ∧ m = n := by
  have habsent : ∀ value : Int, separator ∉ (toString value).toList.reverse := by
    intro value hmem
    rcases isDigit_or_minus_of_mem_toString (List.mem_reverse.mp hmem) with hd | hm
    · rw [hdigit] at hd
      exact Bool.false_ne_true hd
    · exact hminus hm
  -- Read from the end: both texts stop at the last separator, which stands before the literal.
  have hreverse : (toString m).toList.reverse ++ separator :: left.toList.reverse =
      (toString n).toList.reverse ++ separator :: right.toList.reverse := by
    have hlist := congrArg (fun s : String => s.toList.reverse) h
    simpa only [String.toList_append, Char.toString, String.toList_singleton, List.reverse_append,
      List.reverse_cons, List.append_assoc, List.nil_append, List.singleton_append,
      List.reverse_nil] using hlist
  obtain ⟨hliteral, htext⟩ := append_cons_injective (habsent m) (habsent n) hreverse
  exact ⟨String.toList_injective (List.reverse_injective htext),
    toString_injective (String.toList_injective (List.reverse_injective hliteral))⟩

end JavaScript
