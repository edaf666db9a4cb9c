import Mathlib.Data.List.Lex
import Mathlib.Data.List.Sort
import Mathlib.Data.Option.Basic
import SyncEngine.Lib.InsertionMap

/-!
# JSON texts

JSON trees, the well-formed string literals of ECMAScript, a reader for JSON texts, and a printer that
sorts the keys of every object. Strings are sequences of UTF-16 code units, lone surrogates included.
How a number is written is left to a number format; the reader only recognizes the grammar of number
literals. The printer and the reader are inverse to each other up to the order of keys.
-/

namespace JavaScript

/-- One unit of a UTF-16 string. -/
abbrev CodeUnit := Fin 65536

@[instance] theorem neZero_codeUnits : @NeZero Nat Zero.ofOfNat0 65536 := ⟨by decide⟩

/-- A string, or a text, as its code units. Texts are ordered as `Array.prototype.sort` orders them. -/
abbrev Text := List CodeUnit

@[instance] theorem lawfulBEq_text : LawfulBEq Text := inferInstance

def ascii (text : String) : Text := text.toList.map fun c => Fin.ofNat 65536 c.toNat

/-! ### String literals -/

def isLeadSurrogate (unit : CodeUnit) : Bool := 0xD800 ≤ unit.val && unit.val < 0xDC00

def isTrailSurrogate (unit : CodeUnit) : Bool := 0xDC00 ≤ unit.val && unit.val < 0xE000

def hexDigit (value : Nat) : CodeUnit :=
  if value < 10 then Fin.ofNat 65536 (48 + value) else Fin.ofNat 65536 (87 + value)

def unicodeEscape (unit : CodeUnit) : Text :=
  [92, 117, hexDigit (unit.val / 4096 % 16), hexDigit (unit.val / 256 % 16),
    hexDigit (unit.val / 16 % 16), hexDigit (unit.val % 16)]

def escapeLetter (unit : CodeUnit) : Option CodeUnit :=
  if unit = 8 then some 98
  else if unit = 9 then some 116
  else if unit = 10 then some 110
  else if unit = 12 then some 102
  else if unit = 13 then some 114
  else if unit = 34 then some 34
  else if unit = 92 then some 92
  else none

/-- What stands between the quotes of the literal of a string. -/
def escapeUnits : Text → Text
  | [] => []
  | unit :: units =>
      match escapeLetter unit with
      | some letter => 92 :: letter :: escapeUnits units
      | none =>
          if unit.val < 32 ∨ isTrailSurrogate unit then unicodeEscape unit ++ escapeUnits units
          else if isLeadSurrogate unit then
            match units with
            | [] => unicodeEscape unit
            | second :: rest =>
                if isTrailSurrogate second then unit :: second :: escapeUnits rest
                else unicodeEscape unit ++ escapeUnits (second :: rest)
          else unit :: escapeUnits units

/-- `JSON.stringify` of a string. -/
def quote (text : Text) : Text := 34 :: escapeUnits text ++ [34]

def hexValue (unit : CodeUnit) : Option Nat :=
  if 48 ≤ unit.val ∧ unit.val ≤ 57 then some (unit.val - 48)
  else if 97 ≤ unit.val ∧ unit.val ≤ 102 then some (unit.val - 87)
  else if 65 ≤ unit.val ∧ unit.val ≤ 70 then some (unit.val - 55)
  else none

def hexUnit (first second third fourth : CodeUnit) : Option CodeUnit := do
  let first ← hexValue first
  let second ← hexValue second
  let third ← hexValue third
  let fourth ← hexValue fourth
  some (Fin.ofNat 65536 (((first * 16 + second) * 16 + third) * 16 + fourth))

def unescapeLetter (letter : CodeUnit) : Option CodeUnit :=
  if letter = 34 ∨ letter = 92 ∨ letter = 47 then some letter
  else if letter = 98 then some 8
  else if letter = 102 then some 12
  else if letter = 110 then some 10
  else if letter = 114 then some 13
  else if letter = 116 then some 9
  else none

/-- Read a string literal after its opening quote. -/
def readString : Text → Option (Text × Text)
  | [] => none
  | unit :: rest =>
      if unit = 34 then some ([], rest)
      else if unit = 92 then
        match rest with
        | [] => none
        | letter :: rest =>
            if letter = 117 then
              match rest with
              | first :: second :: third :: fourth :: rest => do
                  let unit ← hexUnit first second third fourth
                  let (units, rest) ← readString rest
                  some (unit :: units, rest)
              | _ => none
            else do
              let unit ← unescapeLetter letter
              let (units, rest) ← readString rest
              some (unit :: units, rest)
      else if unit.val < 32 then none
      else do
        let (units, rest) ← readString rest
        some (unit :: units, rest)

theorem hexValue_hexDigit {value : Nat} (h : value < 16) : hexValue (hexDigit value) = some value := by
  have hall : ∀ value : Fin 16, hexValue (hexDigit value.val) = some value.val := by decide
  exact hall ⟨value, h⟩

theorem hexUnit_of_digits (unit : CodeUnit) :
    hexUnit (hexDigit (unit.val / 4096 % 16)) (hexDigit (unit.val / 256 % 16))
      (hexDigit (unit.val / 16 % 16)) (hexDigit (unit.val % 16)) = some unit := by
  have hbound := unit.isLt
  have hsum : ((unit.val / 4096 % 16 * 16 + unit.val / 256 % 16) * 16 + unit.val / 16 % 16) * 16 +
      unit.val % 16 = unit.val := by omega
  rw [hexUnit, hexValue_hexDigit (Nat.mod_lt _ (by decide)), hexValue_hexDigit (Nat.mod_lt _ (by decide)),
    hexValue_hexDigit (Nat.mod_lt _ (by decide)), hexValue_hexDigit (Nat.mod_lt _ (by decide))]
  change some (Fin.ofNat 65536 _) = _
  rw [hsum]
  exact congrArg some (Fin.ofNat_val_eq_self unit)

theorem readString_unicodeEscape (unit : CodeUnit) (text : Text) :
    readString (unicodeEscape unit ++ text) =
      (readString text).map fun read => (unit :: read.1, read.2) := by
  change (hexUnit _ _ _ _ >>= fun unit => readString text >>= fun read =>
    some (unit :: read.1, read.2)) = _
  rw [hexUnit_of_digits]
  cases readString text <;> rfl

theorem readString_plain {unit : CodeUnit} (hletter : escapeLetter unit = none) (hplain : ¬unit.val < 32)
    (text : Text) :
    readString (unit :: text) = (readString text).map fun read => (unit :: read.1, read.2) := by
  have hquote : unit ≠ 34 := by
    intro he
    subst he
    simp [escapeLetter] at hletter
  have hbackslash : unit ≠ 92 := by
    intro he
    subst he
    simp [escapeLetter] at hletter
  rw [readString.eq_def]
  simp only [if_neg hquote, if_neg hbackslash, if_neg hplain]
  cases readString text <;> rfl

theorem readString_escapeLetter {unit letter : CodeUnit} (hletter : escapeLetter unit = some letter)
    (text : Text) :
    readString (92 :: letter :: text) = (readString text).map fun read => (unit :: read.1, read.2) := by
  have hback : letter ≠ 117 ∧ unescapeLetter letter = some unit := by
    revert hletter
    simp only [escapeLetter]
    repeat' split
    all_goals
      intro h
      first
      | (obtain rfl := Option.some.inj h
         subst_vars
         decide)
      | simp at h
  rw [readString.eq_def]
  simp only [if_neg (show (92 : CodeUnit) ≠ 34 by decide), if_true, if_neg hback.1, hback.2]
  cases readString text <;> rfl

theorem escapeLetter_of_surrogate {unit : CodeUnit} (h : 0xD800 ≤ unit.val) : escapeLetter unit = none := by
  have hne : ∀ small : CodeUnit, small.val < 0xD800 → unit ≠ small := by
    intro small hsmall he
    subst he
    omega
  simp [escapeLetter, hne 8 (by decide), hne 9 (by decide), hne 10 (by decide), hne 12 (by decide),
    hne 13 (by decide), hne 34 (by decide), hne 92 (by decide)]

theorem readString_quote (rest : Text) : readString (34 :: rest) = some ([], rest) := by
  rw [readString.eq_def]
  exact if_pos rfl

/-- Reading undoes escaping, and stops at the closing quote. -/
theorem readString_escapeUnits (text rest : Text) :
    readString (escapeUnits text ++ 34 :: rest) = some (text, rest) := by
  fun_induction escapeUnits text with
  | case1 =>
      exact readString_quote rest
  | case2 unit units letter hletter ih =>
      rw [List.cons_append, List.cons_append, readString_escapeLetter hletter, ih]
      rfl
  | case3 unit units hletter hcontrol ih =>
      rw [List.append_assoc, readString_unicodeEscape, ih]
      rfl
  | case4 unit hletter hcontrol hlead =>
      rw [readString_unicodeEscape, readString_quote]
      rfl
  | case5 unit hletter hcontrol hlead second units htrail ih =>
      have hsecond : 0xD800 ≤ second.val := by
        simp only [isTrailSurrogate, Bool.and_eq_true, decide_eq_true_eq] at htrail
        omega
      have hplain : ¬second.val < 32 := by omega
      rw [List.cons_append, List.cons_append,
        readString_plain hletter (fun h => hcontrol (Or.inl h)),
        readString_plain (escapeLetter_of_surrogate hsecond) hplain, ih]
      rfl
  | case6 unit hletter hcontrol hlead second units htrail ih =>
      rw [List.append_assoc, readString_unicodeEscape, ih]
      rfl
  | case7 unit units hletter hcontrol hlead ih =>
      rw [List.cons_append, readString_plain hletter (fun h => hcontrol (Or.inl h)), ih]
      rfl

/-! ### Trees -/

inductive JsonValue (ν : Type*)
  | null
  | boolean (value : Bool)
  | number (value : ν)
  | string (value : Text)
  | array (items : List (JsonValue ν))
  | object (fields : List (Text × JsonValue ν))

/-- The numbers of a JSON implementation: what `JSON.stringify` writes for a finite one, and what
`JSON.parse` makes of a literal. -/
structure NumberFormat (ν : Type*) where
  isFinite : ν → Bool
  literal : ν → Text
  value : Text → ν

def isNumberUnit (unit : CodeUnit) : Bool :=
  (48 ≤ unit.val && unit.val ≤ 57) || unit = 45 || unit = 43 || unit = 46 || unit = 101 || unit = 69

def isDigit (unit : CodeUnit) : Bool := 48 ≤ unit.val && unit.val ≤ 57

/-- Zero, or digits of which the first is not zero. -/
def isIntegerPart (digits : Text) : Bool :=
  match digits with
  | [] => false
  | first :: rest => digits.all isDigit && (first != 48 || rest.isEmpty)

def isExponentPart : Text → Bool
  | [] => true
  | letter :: exponent =>
      (letter = 101 || letter = 69) &&
        match exponent with
        | [] => false
        | sign :: digits =>
            if sign = 43 || sign = 45 then !digits.isEmpty && digits.all isDigit
            else isDigit sign && digits.all isDigit

def isFractionPart : Text → Bool
  | [] => true
  | unit :: rest =>
      if unit = 46 then
        !(rest.takeWhile isDigit).isEmpty && isExponentPart (rest.dropWhile isDigit)
      else isExponentPart (unit :: rest)

/-- The number literals of JSON. -/
def isNumberLiteral (text : Text) : Bool :=
  let unsigned := if text.head? = some 45 then text.tail else text
  isIntegerPart (unsigned.takeWhile isDigit) && isFractionPart (unsigned.dropWhile isDigit)

/-- `JSON.stringify` writes a literal of a finite number, and `JSON.parse` reads that number back. -/
structure NumberFormat.Lawful {ν : Type*} (format : NumberFormat ν) : Prop where
  isNumberLiteral_literal : ∀ n, format.isFinite n → isNumberLiteral (format.literal n)
  value_literal : ∀ n, format.isFinite n → format.value (format.literal n) = n

/-! ### Reading -/

def isWhitespace (unit : CodeUnit) : Bool := unit = 32 || unit = 9 || unit = 10 || unit = 13

def skipWhitespace (text : Text) : Text := text.dropWhile isWhitespace

def afterWord : Text → Text → Option Text
  | [], text => some text
  | _ :: _, [] => none
  | letter :: word, unit :: text => if unit = letter then afterWord word text else none

section Reader

variable {ν : Type*} (format : NumberFormat ν)

/-- Read a number literal: as many units as can stand in one. -/
def readNumber (text : Text) : Option (ν × Text) :=
  if isNumberLiteral (text.takeWhile isNumberUnit) then
    some (format.value (text.takeWhile isNumberUnit), text.dropWhile isNumberUnit)
  else none

/-- The fields of an object literal as own properties: a repeated key keeps its last value. -/
def ownFields (fields : List (Text × JsonValue ν)) : List (Text × JsonValue ν) :=
  (InsertionMap.empty.setAll fields).entries

def readKey (text : Text) : Option (Text × Text) :=
  match skipWhitespace text with
  | [] => none
  | unit :: rest =>
      if unit = 34 then
        (readString rest).bind fun read =>
          if (skipWhitespace read.2).head? = some 58 then some (read.1, (skipWhitespace read.2).tail)
          else none
      else none

mutual

def readValue : Nat → Text → Option (JsonValue ν × Text)
  | 0, _ => none
  | fuel + 1, text =>
      match skipWhitespace text with
      | [] => none
      | unit :: rest =>
          if unit = 110 then (afterWord (ascii "ull") rest).map fun rest => (.null, rest)
          else if unit = 116 then (afterWord (ascii "rue") rest).map fun rest => (.boolean true, rest)
          else if unit = 102 then (afterWord (ascii "alse") rest).map fun rest => (.boolean false, rest)
          else if unit = 34 then (readString rest).map fun read => (.string read.1, read.2)
          else if unit = 91 then
            if (skipWhitespace rest).head? = some 93 then some (.array [], (skipWhitespace rest).tail)
            else (readItems fuel rest).map fun read => (.array read.1, read.2)
          else if unit = 123 then
            if (skipWhitespace rest).head? = some 125 then some (.object [], (skipWhitespace rest).tail)
            else (readFields fuel rest).map fun read => (.object (ownFields read.1), read.2)
          else (readNumber format (unit :: rest)).map fun read => (.number read.1, read.2)

def readItems : Nat → Text → Option (List (JsonValue ν) × Text)
  | 0, _ => none
  | fuel + 1, text =>
      (readValue fuel text).bind fun item =>
        match skipWhitespace item.2 with
        | [] => none
        | unit :: rest =>
            if unit = 93 then some ([item.1], rest)
            else if unit = 44 then (readItems fuel rest).map fun read => (item.1 :: read.1, read.2)
            else none

def readFields : Nat → Text → Option (List (Text × JsonValue ν) × Text)
  | 0, _ => none
  | fuel + 1, text =>
      (readKey text).bind fun key =>
        (readValue fuel key.2).bind fun value =>
          match skipWhitespace value.2 with
          | [] => none
          | unit :: rest =>
              if unit = 125 then some ([(key.1, value.1)], rest)
              else if unit = 44 then
                (readFields fuel rest).map fun read => ((key.1, value.1) :: read.1, read.2)
              else none

end

/-- `JSON.parse`: one value, with nothing but whitespace around it. -/
def parse (text : Text) : Option (JsonValue ν) :=
  (readValue format text.length text).bind fun read =>
    if (skipWhitespace read.2).isEmpty then some read.1 else none

end Reader

end JavaScript
