import TypeAtlas.Json.Printer
import TypeAtlas.Proofs.Source.Readers
import TypeAtlas.Proofs.Text.Digits

/-!
# The line ends of a document

Of the characters below the space, a written document has only the newlines that its layout puts
between the parts (`isLaidOut_indentedAt`); whatever texts it holds, theirs are escaped.  A file that
holds a document is therefore read as it was written, although carriage returns are not
(`unified_indented`).
-/

namespace TypeAtlas.Json

/-- Of the characters below the space, there are only newlines. -/
def IsLaidOut (chars : List Char) : Prop := ∀ c ∈ chars, c = '\n' ∨ 0x20 ≤ c.toNat

instance (chars : List Char) : Decidable (IsLaidOut chars) := List.decidableBAll _ chars

section

variable {chars more : List Char}

theorem IsLaidOut.append (hchars : IsLaidOut chars) (hmore : IsLaidOut more) :
    IsLaidOut (chars ++ more) :=
  List.forall_mem_append.mpr ⟨hchars, hmore⟩

theorem IsLaidOut.cons {c : Char} (hc : 0x20 ≤ c.toNat) (hmore : IsLaidOut more) :
    IsLaidOut (c :: more) :=
  List.forall_mem_cons.mpr ⟨.inr hc, hmore⟩

end

/-! ## Texts and numbers -/

theorem isLaidOut_hexDigits (width code : Nat) : IsLaidOut (Text.hexDigits width code) := by
  induction width generalizing code with
  | zero => exact nofun
  | succ width ih =>
      have hdigit : ∀ digit < 16, 0x20 ≤ (Text.hexDigit digit).toNat := by decide
      rw [Text.hexDigits]
      exact (ih _).append (.cons (hdigit _ (Nat.mod_lt code (by decide))) nofun)

theorem isLaidOut_escapeChar (c : Char) : IsLaidOut (escapeChar c) := by
  unfold escapeChar
  repeat' split
  -- Left over are the characters without an escape of their own: the other low ones, and the rest.
  any_goals decide
  next => exact .cons (by decide) (.cons (by decide) (isLaidOut_hexDigits 4 c.toNat))
  next hlow => exact .cons (Nat.le_of_not_lt hlow) nofun

theorem isLaidOut_printString (text : String) : IsLaidOut (printString text) := by
  have htext : IsLaidOut (text.toList.flatMap escapeChar) := by
    intro c hc
    obtain ⟨item, -, hescaped⟩ := List.mem_flatMap.mp hc
    exact isLaidOut_escapeChar item c hescaped
  exact .cons (by decide) (htext.append (by decide))

theorem isLaidOut_toDigits (n : Nat) : IsLaidOut (Nat.toDigits 10 n) := by
  intro c hc
  have hdigit := isDigit_toDigits hc
  simp only [Char.isDigit, Bool.and_eq_true, decide_eq_true_eq] at hdigit
  have hlow : 48 ≤ c.toNat := hdigit.1
  exact .inr (Nat.le_trans (by decide) hlow)

theorem isLaidOut_printInt (value : Int) : IsLaidOut (printInt value) := by
  cases value with
  | ofNat n => exact isLaidOut_toDigits n
  | negSucc n => exact .cons (by decide) (isLaidOut_toDigits (n + 1))

theorem isLaidOut_printNumber (value : JsonNumber) : IsLaidOut (printNumber value) := by
  cases value with
  | int value => exact isLaidOut_printInt value
  | decimal value =>
      have hsign : IsLaidOut (if value.negative then ['-'] else []) := by
        cases value.negative <;> decide
      have htail : IsLaidOut ('.' :: '0' :: 'e' :: printInt value.exponent) :=
        .cons (by decide) (.cons (by decide) (.cons (by decide) (isLaidOut_printInt value.exponent)))
      exact (hsign.append (isLaidOut_toDigits value.digits)).append htail
  | nan => decide
  | infinite negative => cases negative <;> decide

/-! ## Values -/

theorem isLaidOut_newLine (depth : Nat) : IsLaidOut (newLine depth) := by
  have hspaces : IsLaidOut (List.replicate (2 * depth) ' ') := by
    intro c hc
    rw [List.eq_of_mem_replicate hc]
    decide
  exact List.forall_mem_cons.mpr ⟨.inl rfl, hspaces⟩

-- The induction is on the value; a container hands it down to its parts, one after the other.
mutual

theorem isLaidOut_indentedAt : ∀ (depth : Nat) (value : Json), IsLaidOut (indentedAt depth value)
  | _, .null => show IsLaidOut "null".toList by decide
  | _, .bool true => show IsLaidOut "true".toList by decide
  | _, .bool false => show IsLaidOut "false".toList by decide
  | _, .num value => isLaidOut_printNumber value
  | _, .str text => isLaidOut_printString text
  | _, .arr [] => show IsLaidOut ['[', ']'] by decide
  | depth, .arr (item :: items) =>
      .cons (by decide) (((isLaidOut_newLine (depth + 1)).append
        (isLaidOut_indentedAt (depth + 1) item)).append (isLaidOut_indentedItems depth items))
  | _, .obj [] => show IsLaidOut ['{', '}'] by decide
  | depth, .obj (field :: fields) =>
      .cons (by decide) (((isLaidOut_newLine (depth + 1)).append
        (isLaidOut_indentedField depth field)).append (isLaidOut_indentedFields depth fields))

theorem isLaidOut_indentedItems : ∀ (depth : Nat) (items : List Json),
    IsLaidOut (indentedItems depth items)
  | depth, [] => (isLaidOut_newLine depth).append (by decide)
  | depth, item :: items =>
      .cons (by decide) (((isLaidOut_newLine (depth + 1)).append
        (isLaidOut_indentedAt (depth + 1) item)).append (isLaidOut_indentedItems depth items))

theorem isLaidOut_indentedFields : ∀ (depth : Nat) (fields : List (String × Json)),
    IsLaidOut (indentedFields depth fields)
  | depth, [] => (isLaidOut_newLine depth).append (by decide)
  | depth, field :: fields =>
      .cons (by decide) (((isLaidOut_newLine (depth + 1)).append
        (isLaidOut_indentedField depth field)).append (isLaidOut_indentedFields depth fields))

theorem isLaidOut_indentedField : ∀ (depth : Nat) (field : String × Json),
    IsLaidOut (indentedField depth field)
  | depth, (key, value) =>
      (isLaidOut_printString key).append (.cons (by decide) (.cons (by decide)
        (isLaidOut_indentedAt (depth + 1) value)))

end

/-- **A document is read as it was written.**  It has no carriage return, so no line end of it is
changed when it is read from a file. -/
theorem unified_indented (value : Json) : Text.unified value.indented = value.indented := by
  rw [Text.unified_eq_self_iff, indented, String.toList_ofList]
  intro hreturn
  have hlaid := isLaidOut_indentedAt 0 value '\r' hreturn
  exact absurd hlaid (by decide)

end TypeAtlas.Json
