import Mathlib.Data.List.TakeWhile
import Mathlib.Data.Nat.Digits.Lemmas
import SyncEngine.Lib.Json

/-!
# Integers in decimal

A number format for the integers: a minus sign and decimal digits without leading zeros.
-/

namespace JavaScript

def digitUnit (digit : Nat) : CodeUnit := Fin.ofNat 65536 (48 + digit)

/-- The decimal digits of a natural number. -/
def naturalLiteral (value : Nat) : Text :=
  if value = 0 then [48] else ((Nat.digits 10 value).map digitUnit).reverse

def naturalValue (text : Text) : Nat := text.foldl (fun value unit => value * 10 + (unit.val - 48)) 0

def integerLiteral (value : Int) : Text :=
  if value < 0 then 45 :: naturalLiteral value.natAbs else naturalLiteral value.natAbs

def integerValue (text : Text) : Int :=
  if text.head? = some 45 then -naturalValue text.tail else naturalValue text

/-- The integers as numbers. -/
def integerFormat : NumberFormat Int where
  isFinite _ := true
  literal := integerLiteral
  value := integerValue

theorem digitUnit_val {digit : Nat} (h : digit < 10) : (digitUnit digit).val = 48 + digit :=
  Nat.mod_eq_of_lt (by omega)

theorem isDigit_digitUnit {digit : Nat} (h : digit < 10) : isDigit (digitUnit digit) = true := by
  rw [isDigit, digitUnit_val h]
  simp only [Bool.and_eq_true, decide_eq_true_eq]
  omega

theorem all_isDigit_naturalLiteral (value : Nat) : (naturalLiteral value).all isDigit = true := by
  rw [naturalLiteral]
  split
  · rfl
  · rw [List.all_reverse, List.all_map, List.all_eq_true]
    exact fun digit hdigit => isDigit_digitUnit (Nat.digits_lt_base (by decide) hdigit)

/-- The first digit of a natural number other than zero is not zero. -/
theorem naturalLiteral_eq_cons (value : Nat) :
    ∃ first rest, naturalLiteral value = first :: rest ∧ isDigit first = true ∧ (first ≠ 48 ∨ rest = []) := by
  rw [naturalLiteral]
  split
  · exact ⟨48, [], rfl, rfl, Or.inr rfl⟩
  · rename_i hvalue
    have hdigits : Nat.digits 10 value ≠ [] := Nat.digits_ne_nil_iff_ne_zero.mpr hvalue
    have hlast := Nat.getLast_digit_ne_zero 10 hvalue
    have hlt := Nat.digits_lt_base (by decide : 1 < 10) (List.getLast_mem hdigits)
    refine ⟨digitUnit ((Nat.digits 10 value).getLast hdigits), ((Nat.digits 10 value).dropLast.map digitUnit).reverse,
      ?_, isDigit_digitUnit hlt, Or.inl ?_⟩
    · conv_lhs => rw [← List.dropLast_append_getLast hdigits]
      rw [List.map_append, List.reverse_append]
      rfl
    · intro hzero
      have hval := digitUnit_val hlt
      rw [hzero] at hval
      exact hlast (by have := hval; simp at this; omega)

theorem isNumberLiteral_integerLiteral (value : Int) : isNumberLiteral (integerLiteral value) = true := by
  obtain ⟨first, rest, heq, hfirst, hleading⟩ := naturalLiteral_eq_cons value.natAbs
  have hall := all_isDigit_naturalLiteral value.natAbs
  have hunsigned : (if (integerLiteral value).head? = some 45 then (integerLiteral value).tail
      else integerLiteral value) = naturalLiteral value.natAbs := by
    rw [integerLiteral]
    split
    · rfl
    · rw [if_neg]
      rw [heq, List.head?_cons, Option.some.injEq]
      intro hminus
      rw [hminus] at hfirst
      revert hfirst
      decide
  rw [isNumberLiteral, hunsigned]
  have htake : (naturalLiteral value.natAbs).takeWhile isDigit = naturalLiteral value.natAbs :=
    List.takeWhile_eq_self_iff.mpr (List.all_eq_true.mp hall)
  have hdrop : (naturalLiteral value.natAbs).dropWhile isDigit = [] :=
    List.dropWhile_eq_nil_iff.mpr (List.all_eq_true.mp hall)
  rw [htake, hdrop, isFractionPart, Bool.and_true]
  rw [heq] at hall ⊢
  rw [isIntegerPart, hall, Bool.true_and, Bool.or_eq_true, bne_iff_ne, List.isEmpty_iff]
  exact hleading

theorem naturalValue_naturalLiteral (value : Nat) : naturalValue (naturalLiteral value) = value := by
  rw [naturalLiteral]
  split
  · rename_i hzero
    rw [hzero]
    rfl
  · rw [naturalValue, List.foldl_reverse, List.foldr_map]
    conv_rhs => rw [← Nat.ofDigits_digits 10 value, Nat.ofDigits_eq_foldr]
    have hdigits : ∀ digit ∈ Nat.digits 10 value, digit < 10 := fun digit => Nat.digits_lt_base (by decide)
    revert hdigits
    generalize Nat.digits 10 value = digits
    intro hdigits
    induction digits with
    | nil => rfl
    | cons digit digits ih =>
        rw [List.forall_mem_cons] at hdigits
        rw [List.foldr_cons, List.foldr_cons, ih hdigits.2, digitUnit_val hdigits.1]
        simp only [Nat.cast_id]
        omega

theorem integerValue_integerLiteral (value : Int) : integerValue (integerLiteral value) = value := by
  obtain ⟨first, rest, heq, hfirst, -⟩ := naturalLiteral_eq_cons value.natAbs
  rw [integerLiteral]
  split
  · rename_i hnegative
    rw [integerValue, List.head?_cons, if_pos rfl, List.tail_cons, naturalValue_naturalLiteral]
    omega
  · rename_i hnonneg
    rw [integerValue, if_neg, naturalValue_naturalLiteral]
    · omega
    · rw [heq, List.head?_cons, Option.some.injEq]
      intro hminus
      rw [hminus] at hfirst
      revert hfirst
      decide

theorem integerFormat_lawful : integerFormat.Lawful where
  isNumberLiteral_literal value _ := isNumberLiteral_integerLiteral value
  value_literal value _ := integerValue_integerLiteral value

end JavaScript
