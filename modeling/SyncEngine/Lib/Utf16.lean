import SyncEngine.Lib.CanonicalJson

/-!
# Strings as UTF-16 units

The units of a Unicode string, and the string that a sequence of units stands for, where a surrogate without
its partner stands for the replacement character. Every Unicode string is read back from its units, and the
text of a JSON value is the units of a string, since a printer escapes every surrogate without its partner.
-/

namespace JavaScript

def charUnits (c : Char) : Text :=
  if c.toNat < 0x10000 then [Fin.ofNat 65536 c.toNat]
  else [Fin.ofNat 65536 (0xD800 + (c.toNat - 0x10000) / 0x400),
    Fin.ofNat 65536 (0xDC00 + (c.toNat - 0x10000) % 0x400)]

/-- The UTF-16 units of a string. -/
def utf16Units (value : String) : Text := value.toList.flatMap charUnits

/-- The character of a unit that has no partner. -/
def unitChar (unit : CodeUnit) : Char :=
  if isLeadSurrogate unit || isTrailSurrogate unit then Char.ofNat 0xFFFD else Char.ofNat unit.val

def textChars : Text → List Char
  | [] => []
  | [unit] => [unitChar unit]
  | unit :: second :: rest =>
      if isLeadSurrogate unit && isTrailSurrogate second then
        Char.ofNat (0x10000 + (unit.val - 0xD800) * 0x400 + (second.val - 0xDC00)) :: textChars rest
      else unitChar unit :: textChars (second :: rest)

/-- The string of a text. -/
def ofUtf16Units (text : Text) : String := String.ofList (textChars text)

theorem textChars_eq_nil_iff (text : Text) : textChars text = [] ↔ text = [] := by
  fun_cases textChars text with
  | case1 => simp
  | case2 unit => simp
  | case3 unit second rest hpair => simp
  | case4 unit second rest hpair => simp

theorem char_not_surrogate (c : Char) : c.toNat < 0xD800 ∨ 0xE000 ≤ c.toNat := by
  have hvalid := c.valid
  rcases hvalid with hlow | hhigh
  · exact Or.inl hlow
  · exact Or.inr (by have := hhigh.1; exact this)

theorem char_lt (c : Char) : c.toNat < 0x110000 := by
  rcases c.valid with hlow | hhigh
  · exact Nat.lt_trans hlow (by decide)
  · exact hhigh.2

/-- A character of one unit is read as it stands, whatever follows. -/
theorem textChars_single {c : Char} (hsmall : c.toNat < 0x10000) (text : Text) :
    textChars (Fin.ofNat 65536 c.toNat :: text) = c :: textChars text := by
  have hval : (Fin.ofNat 65536 c.toNat).val = c.toNat := Nat.mod_eq_of_lt hsmall
  have hlead : isLeadSurrogate (Fin.ofNat 65536 c.toNat) = false := by
    rw [isLeadSurrogate, hval]
    rcases char_not_surrogate c with hlow | hhigh <;> simp <;> omega
  have htrail : isTrailSurrogate (Fin.ofNat 65536 c.toNat) = false := by
    rw [isTrailSurrogate, hval]
    rcases char_not_surrogate c with hlow | hhigh <;> simp <;> omega
  have hchar : unitChar (Fin.ofNat 65536 c.toNat) = c := by
    rw [unitChar, hlead, htrail, hval]
    exact Char.ofNat_toNat c
  cases text with
  | nil => exact congrArg (fun first => [first]) hchar
  | cons second rest =>
      rw [textChars, hlead, Bool.false_and, hchar]
      rfl

/-- So is a character of two units. -/
theorem textChars_pair {c : Char} (hlarge : ¬c.toNat < 0x10000) (text : Text) :
    textChars (Fin.ofNat 65536 (0xD800 + (c.toNat - 0x10000) / 0x400) ::
      Fin.ofNat 65536 (0xDC00 + (c.toNat - 0x10000) % 0x400) :: text) = c :: textChars text := by
  have hbound := char_lt c
  have hlead : (Fin.ofNat 65536 (0xD800 + (c.toNat - 0x10000) / 0x400)).val =
      0xD800 + (c.toNat - 0x10000) / 0x400 := Nat.mod_eq_of_lt (by omega)
  have htrail : (Fin.ofNat 65536 (0xDC00 + (c.toNat - 0x10000) % 0x400)).val =
      0xDC00 + (c.toNat - 0x10000) % 0x400 := Nat.mod_eq_of_lt (by omega)
  have hpair : (isLeadSurrogate (Fin.ofNat 65536 (0xD800 + (c.toNat - 0x10000) / 0x400)) &&
      isTrailSurrogate (Fin.ofNat 65536 (0xDC00 + (c.toNat - 0x10000) % 0x400))) = true := by
    rw [isLeadSurrogate, isTrailSurrogate, hlead, htrail]
    simp only [Bool.and_eq_true, decide_eq_true_eq]
    omega
  have hsum : 0x10000 + (0xD800 + (c.toNat - 0x10000) / 0x400 - 0xD800) * 0x400 +
      (0xDC00 + (c.toNat - 0x10000) % 0x400 - 0xDC00) = c.toNat := by omega
  rw [textChars, if_pos hpair, hlead, htrail, hsum, Char.ofNat_toNat]

theorem textChars_flatMap (chars : List Char) : textChars (chars.flatMap charUnits) = chars := by
  induction chars with
  | nil => rfl
  | cons c chars ih =>
      rw [List.flatMap_cons, charUnits]
      split
      · rename_i hsmall
        exact (textChars_single hsmall _).trans (congrArg (c :: ·) ih)
      · rename_i hlarge
        exact (textChars_pair hlarge _).trans (congrArg (c :: ·) ih)

/-- A string is read back from its units. -/
theorem ofUtf16Units_utf16Units (value : String) : ofUtf16Units (utf16Units value) = value := by
  rw [ofUtf16Units, utf16Units, textChars_flatMap, String.ofList_toList]

theorem length_ofUtf16Units (text : Text) : (ofUtf16Units text).length = 0 ↔ text = [] := by
  rw [ofUtf16Units, String.length_ofList, List.length_eq_zero_iff, textChars_eq_nil_iff]

/-! ### Well-formed texts -/

/-- A text without a surrogate that lacks its partner. -/
def WellFormed (text : Text) : Prop := ∃ chars : List Char, text = chars.flatMap charUnits

/-- A well-formed text is read back from its string. -/
theorem WellFormed.utf16Units_ofUtf16Units {text : Text} (h : WellFormed text) :
    utf16Units (ofUtf16Units text) = text := by
  obtain ⟨chars, rfl⟩ := h
  rw [ofUtf16Units, textChars_flatMap, utf16Units, String.toList_ofList]

theorem WellFormed.nil : WellFormed [] := ⟨[], rfl⟩

theorem WellFormed.append {first second : Text} (h : WellFormed first) (h' : WellFormed second) :
    WellFormed (first ++ second) := by
  obtain ⟨chars, rfl⟩ := h
  obtain ⟨chars', rfl⟩ := h'
  exact ⟨chars ++ chars', List.flatMap_append.symm⟩

/-- The character of a number that is no surrogate. -/
theorem toNat_ofNat {n : Nat} (h : n < 0xD800 ∨ 0xDFFF < n ∧ n < 0x110000) : (Char.ofNat n).toNat = n := by
  rw [Char.ofNat, dif_pos h]
  rfl

theorem WellFormed.unit {unit : CodeUnit} (hlead : isLeadSurrogate unit = false)
    (htrail : isTrailSurrogate unit = false) : WellFormed [unit] := by
  have hlt := unit.isLt
  have hscalar : unit.val < 0xD800 ∨ 0xDFFF < unit.val ∧ unit.val < 0x110000 := by
    simp only [isLeadSurrogate, isTrailSurrogate, Bool.and_eq_false_iff, decide_eq_false_iff_not] at hlead htrail
    omega
  refine ⟨[Char.ofNat unit.val], ?_⟩
  rw [List.flatMap_singleton, charUnits, toNat_ofNat hscalar, if_pos hlt]
  exact congrArg (fun u => [u]) (Fin.ofNat_val_eq_self unit).symm

theorem WellFormed.pair {lead trail : CodeUnit} (hlead : isLeadSurrogate lead = true)
    (htrail : isTrailSurrogate trail = true) : WellFormed [lead, trail] := by
  simp only [isLeadSurrogate, isTrailSurrogate, Bool.and_eq_true, decide_eq_true_eq] at hlead htrail
  have hscalar : 0xDFFF < 0x10000 + (lead.val - 0xD800) * 0x400 + (trail.val - 0xDC00) ∧
      0x10000 + (lead.val - 0xD800) * 0x400 + (trail.val - 0xDC00) < 0x110000 := by omega
  refine ⟨[Char.ofNat (0x10000 + (lead.val - 0xD800) * 0x400 + (trail.val - 0xDC00))], ?_⟩
  rw [List.flatMap_singleton, charUnits, toNat_ofNat (.inr hscalar), if_neg (by omega)]
  have hfirst : 0xD800 + (0x10000 + (lead.val - 0xD800) * 0x400 + (trail.val - 0xDC00) - 0x10000) / 0x400 =
      lead.val := by omega
  have hsecond : 0xDC00 + (0x10000 + (lead.val - 0xD800) * 0x400 + (trail.val - 0xDC00) - 0x10000) % 0x400 =
      trail.val := by omega
  rw [hfirst, hsecond, Fin.ofNat_val_eq_self, Fin.ofNat_val_eq_self]

theorem WellFormed.cons {unit : CodeUnit} {text : Text} (hlead : isLeadSurrogate unit = false)
    (htrail : isTrailSurrogate unit = false) (h : WellFormed text) : WellFormed (unit :: text) :=
  (WellFormed.unit hlead htrail).append h

/-- A text of units below the surrogates. -/
theorem WellFormed.of_small {text : Text} (h : ∀ unit ∈ text, unit.val < 0xD800) : WellFormed text := by
  induction text with
  | nil => exact .nil
  | cons unit text ih =>
      rw [List.forall_mem_cons] at h
      refine .cons ?_ ?_ (ih h.2)
      · rw [isLeadSurrogate, Bool.and_eq_false_iff, decide_eq_false_iff_not]
        omega
      · rw [isTrailSurrogate, Bool.and_eq_false_iff, decide_eq_false_iff_not]
        omega

theorem hexDigit_small (value : Nat) (h : value < 16) : (hexDigit value).val < 0xD800 := by
  have hall : ∀ value : Fin 16, (hexDigit value.val).val < 0xD800 := by decide
  exact hall ⟨value, h⟩

theorem wellFormed_unicodeEscape (unit : CodeUnit) : WellFormed (unicodeEscape unit) := by
  apply WellFormed.of_small
  simp only [unicodeEscape, List.forall_mem_cons]
  exact ⟨by decide, by decide, hexDigit_small _ (by omega), hexDigit_small _ (by omega),
    hexDigit_small _ (by omega), hexDigit_small _ (by omega), by simp⟩

theorem escapeLetter_small {unit letter : CodeUnit} (h : escapeLetter unit = some letter) : letter.val < 0xD800 := by
  revert h
  simp only [escapeLetter]
  repeat' split
  all_goals
    intro h
    first
    | (obtain rfl := Option.some.inj h
       decide)
    | simp at h

/-- A surrogate stays as it is only where its partner follows. -/
theorem wellFormed_escapeUnits (text : Text) : WellFormed (escapeUnits text) := by
  fun_induction escapeUnits text with
  | case1 => exact .nil
  | case2 unit units letter hletter ih =>
      have hescape : WellFormed [92, letter] := by
        apply WellFormed.of_small
        simp only [List.forall_mem_cons]
        exact ⟨by decide, escapeLetter_small hletter, by simp⟩
      exact hescape.append ih
  | case3 unit units hletter hcontrol ih => exact (wellFormed_unicodeEscape unit).append ih
  | case4 unit hletter hcontrol hlead => exact wellFormed_unicodeEscape unit
  | case5 unit hletter hcontrol hlead second units htrail ih => exact (WellFormed.pair hlead htrail).append ih
  | case6 unit hletter hcontrol hlead second units htrail ih => exact (wellFormed_unicodeEscape unit).append ih
  | case7 unit units hletter hcontrol hlead ih =>
      have htrail : isTrailSurrogate unit = false := by
        rw [not_or, Bool.not_eq_true] at hcontrol
        exact hcontrol.2
      exact .cons (Bool.eq_false_iff.mpr hlead) htrail ih

theorem wellFormed_quote (text : Text) : WellFormed (quote text) :=
  .cons rfl rfl ((wellFormed_escapeUnits text).append (.unit rfl rfl))

theorem wellFormed_join {texts : List Text} (h : ∀ text ∈ texts, WellFormed text) : WellFormed (join texts) := by
  induction texts with
  | nil => exact .nil
  | cons text texts ih =>
      rw [List.forall_mem_cons] at h
      cases texts with
      | nil =>
          rw [join_singleton]
          exact h.1
      | cons second texts =>
          rw [join_cons_cons]
          exact h.1.append (.cons rfl rfl (ih h.2))

theorem isNumberUnit_small {unit : CodeUnit} (h : isNumberUnit unit = true) : unit.val < 0xD800 := by
  simp only [isNumberUnit, Bool.or_eq_true, Bool.and_eq_true, decide_eq_true_eq] at h
  rcases h with ((((hdigit | rfl) | rfl) | rfl) | rfl) | rfl
  · omega
  all_goals decide

/-- The text of a JSON value is well formed, whatever its strings are. -/
theorem wellFormed_print {ν : Type*} {format : NumberFormat ν} (hlawful : format.Lawful) {value : JsonValue ν}
    (hvalue : value.Valid format) : WellFormed (value.print format) := by
  induction hvalue with
  | null =>
      rw [JsonValue.print]
      exact .of_small (by simp [ascii])
  | boolean value =>
      rw [JsonValue.print]
      cases value <;> exact .of_small (by simp [ascii])
  | number hfinite =>
      have hliteral := (isNumberLiteral_eq_cons (hlawful.isNumberLiteral_literal _ hfinite)).1
      exact .of_small fun unit hunit => isNumberUnit_small (List.all_eq_true.mp hliteral unit hunit)
  | string value => exact wellFormed_quote value
  | array _ ih =>
      rw [JsonValue.print_array]
      refine .cons rfl rfl (.append (wellFormed_join ?_) (.unit rfl rfl))
      exact List.forall_mem_map.mpr ih
  | object _ _ ih =>
      rw [JsonValue.print_object]
      refine .cons rfl rfl (.append (wellFormed_join ?_) (.unit rfl rfl))
      refine List.forall_mem_map.mpr fun field hfield => ?_
      exact (wellFormed_quote field.1).append (.cons rfl rfl (ih field (mem_sortByKey.mp hfield)))

/-! ### Bytes -/

/-- The UTF-8 bytes of a text, with a replacement character for a unit that has no partner. -/
def utf8Bytes (text : Text) : List UInt8 := (ofUtf16Units text).toByteArray.data.toList

/-- The text of UTF-8 bytes. -/
def ofUtf8Bytes (bytes : List UInt8) : Text :=
  match String.fromUTF8? ⟨bytes.toArray⟩ with
  | some value => utf16Units value
  | none => [Fin.ofNat 65536 0xFFFD]

/-- A well-formed text is read back from its bytes. -/
theorem WellFormed.ofUtf8Bytes_utf8Bytes {text : Text} (h : WellFormed text) :
    ofUtf8Bytes (utf8Bytes text) = text := by
  have hread : String.fromUTF8? (ofUtf16Units text).toByteArray = some (ofUtf16Units text) := by
    rw [String.fromUTF8?, dif_pos (ofUtf16Units text).isValidUTF8]
    rfl
  rw [ofUtf8Bytes, utf8Bytes, Array.toArray_toList, hread]
  exact h.utf16Units_ofUtf16Units

theorem length_textChars_le (text : Text) : (textChars text).length ≤ text.length := by
  fun_induction textChars text with
  | case1 => simp
  | case2 => simp
  | case3 _ _ _ _ ih => simp only [List.length_cons]; omega
  | case4 _ _ _ _ ih => simp only [List.length_cons] at *; omega

/-- A unit takes at most four bytes. -/
theorem length_utf8Bytes_le (text : Text) : (utf8Bytes text).length ≤ 4 * text.length := by
  have hbytes : (utf8Bytes text).length = ((textChars text).map Char.utf8Size).sum := by
    rw [utf8Bytes, ofUtf16Units, String.toByteArray_ofList, List.utf8Encode, List.data_toByteArray, List.length_flatMap]
    simp
  have hsum : ∀ chars : List Char, (chars.map Char.utf8Size).sum ≤ 4 * chars.length := by
    intro chars
    induction chars with
    | nil => simp
    | cons c chars ih =>
        have hsize := c.utf8Size_le_four
        simp only [List.map_cons, List.sum_cons, List.length_cons]
        omega
  have hchars := length_textChars_le text
  have hsize := hsum (textChars text)
  omega

end JavaScript
