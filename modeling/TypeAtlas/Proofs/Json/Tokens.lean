import Mathlib.Tactic.SplitIfs
import TypeAtlas.Json.Printer
import TypeAtlas.Proofs.Text.Digits

/-!
# Written tokens are read back

Reading cuts a text into tokens, and what the printer writes for a part of a value is cut into the
tokens it was meant to be.  `Cuts pieces token rest` says that the first token of `pieces` is
`token` and that `rest` is left.

* A text is written character by character in one of three ways: as it is, by a letter after a
  backslash, or by its code.  `scanText_escapeChar` turns each of them into that character again,
  whatever precedes and whatever follows, so a text between its quotes is one token.
* A whole number is one token as long as it has at most `wholeDigitLimit` digits and is followed by
  nothing that could belong to it; a longer one is a broken token.

The readers count octets as they go.  What they count matters for the place of a fault only, so the
statements here leave the new count open.
-/

namespace TypeAtlas.Json

open Utf8 (Piece)

/-! ## Escapes by code -/

private theorem hexValue?_hexDigit : ∀ digit < 16,
    hexValue? (.char (Text.hexDigit digit)) = some digit := by decide

/-- Four hexadecimal digits write any code below `0x10000`. -/
theorem hexQuad?_hexDigits (code : Nat) (hcode : code < 0x10000) :
    ∃ a b c d, Text.hexDigits 4 code = [a, b, c, d] ∧
      hexQuad? (.char a) (.char b) (.char c) (.char d) = some code := by
  refine ⟨_, _, _, _, rfl, ?_⟩
  simp only [hexQuad?, hexValue?_hexDigit _ (Nat.mod_lt _ (by decide : 0 < 16)), Option.bind_eq_bind,
    Option.bind_some, Option.pure_def, Option.some.injEq]
  omega

/-! ## One character -/

section

variable (strictness : Strictness) (start offset : Nat) (read rest : List Piece)

private theorem scanText_letter {letter plain : Char} (hletter : shortEscape? letter = some plain) :
    scanText strictness start offset read (.char '\\' :: .char letter :: rest) =
      scanText strictness start (offset + 2) (.char plain :: read) rest := by
  have hnot : letter ≠ 'u' := by
    rintro rfl
    cases hletter
  rw [scanText]
  · simp only [hletter]
  · exact hnot

private theorem scanText_code (code : Nat) (hcode : code < 0xD800) :
    scanText strictness start offset read
        (('\\' :: 'u' :: Text.hexDigits 4 code).map .char ++ rest) =
      scanText strictness start (offset + 6) (.char (Char.ofNat code) :: read) rest := by
  obtain ⟨a, b, c, d, hdigits, hquad⟩ := hexQuad?_hexDigits code (by omega)
  have hlow : ¬ 0xD800 ≤ code := by omega
  have hmid : ¬ 0xDC00 ≤ code := by omega
  simp [hdigits, scanText, hquad, hlow, hmid]

private theorem scanText_plain {c : Char} (hquote : c ≠ '"') (hslash : c ≠ '\\')
    (hcode : ¬ c.toNat < 0x20) :
    scanText strictness start offset read (.char c :: rest) =
      scanText strictness start (offset + Piece.size (.char c)) (.char c :: read) rest := by
  rw [scanText]
  · simp only [if_neg hcode]
  · simpa using hquote
  · simpa using hslash

/-- What is written for a character is read as that character. -/
theorem scanText_escapeChar (c : Char) :
    ∃ offset', scanText strictness start offset read ((escapeChar c).map .char ++ rest) =
      scanText strictness start offset' (.char c :: read) rest := by
  -- Seven characters have a letter of their own.
  have hshort : ∀ letter, shortEscape? letter = some c →
      ∃ offset', scanText strictness start offset read (['\\', letter].map .char ++ rest) =
        scanText strictness start offset' (.char c :: read) rest := by
    intro letter hletter
    exact ⟨_, scanText_letter strictness start offset read rest hletter⟩
  unfold escapeChar
  split_ifs with hquote hslash hnew hreturn htab hback hfeed hlow
  · exact hshort _ (by rw [hquote]; rfl)
  · exact hshort _ (by rw [hslash]; rfl)
  · exact hshort _ (by rw [hnew]; rfl)
  · exact hshort _ (by rw [hreturn]; rfl)
  · exact hshort _ (by rw [htab]; rfl)
  · exact hshort _ (by rw [← Char.ofNat_toNat c, hback]; rfl)
  · exact hshort _ (by rw [← Char.ofNat_toNat c, hfeed]; rfl)
  · have hread := scanText_code strictness start offset read rest c.toNat (by omega)
    rw [Char.ofNat_toNat] at hread
    exact ⟨_, hread⟩
  · exact ⟨_, scanText_plain _ _ _ _ _ hquote hslash hlow⟩

end

/-! ## Whole texts -/

theorem charsOf?_map_char (chars : List Char) : Utf8.charsOf? (chars.map .char) = some chars := by
  induction chars with
  | nil => rfl
  | cons c chars ih => simp [Utf8.charsOf?, ih]

/-- A text up to its closing quote is read as it was before it was written, after what was read
already. -/
theorem scanText_escaped (strictness : Strictness) (start offset : Nat) (chars read : List Char)
    (rest : List Piece) :
    ∃ offset', scanText strictness start offset (read.map .char)
        ((chars.flatMap escapeChar ++ ['"']).map .char ++ rest) =
      ⟨.text (String.ofList (read.reverse ++ chars)), offset', rest⟩ := by
  induction chars generalizing offset read with
  | nil =>
      refine ⟨offset + 1, ?_⟩
      simp [scanText, closeText, ← List.map_reverse, charsOf?_map_char]
  | cons c chars ih =>
      obtain ⟨next, hc⟩ := scanText_escapeChar strictness start offset (read.map .char)
        ((chars.flatMap escapeChar ++ ['"']).map .char ++ rest) c
      obtain ⟨offset', htail⟩ := ih next (c :: read)
      refine ⟨offset', ?_⟩
      rw [List.flatMap_cons, List.append_assoc, List.map_append, List.append_assoc, hc,
        ← List.map_cons, htail, List.reverse_cons, List.append_assoc, List.singleton_append]

theorem scanWord_word (value : Json) (offset : Nat) (word : List Char) (rest : List Piece) :
    scanWord value offset word (word.map .char ++ rest) =
      ⟨.scalar value, offset + word.length, rest⟩ := by
  induction word generalizing offset with
  | nil => rfl
  | cons c word ih =>
      rw [List.map_cons, List.cons_append, scanWord, if_pos rfl, ih, List.length_cons]
      congr 1
      omega

/-! ## Numbers -/

theorem EndsNumber.scanFraction_eq {rest : List Piece} (hrest : EndsNumber rest) (negative : Bool)
    (digits offset : Nat) :
    scanFraction negative digits offset rest =
      ⟨.scalar (.num (.int (if negative then -(digits : Int) else digits))), offset, rest⟩ := by
  unfold scanFraction
  split
  · exact absurd rfl (hrest _ rfl).2.1
  · exact absurd rfl (hrest _ rfl).2.2.1
  · exact absurd rfl (hrest _ rfl).2.2.2
  · rfl

theorem EndsNumber.tooManyDigits_eq {rest : List Piece} (hrest : EndsNumber rest)
    (strictness : Strictness) (count : Nat) :
    tooManyDigits strictness count rest = decide (wholeDigitLimit < count) := by
  cases strictness with
  | strict => simp [tooManyDigits]
  | generous =>
      cases rest with
      | nil => simp [tooManyDigits]
      | cons piece rest =>
          obtain ⟨-, hpoint, hsmall, hlarge⟩ := hrest piece rfl
          simp [tooManyDigits, hpoint, hsmall, hlarge]

/-- Written digits are a number, or a fault if there are too many of them. -/
theorem scanMagnitude_toDigits {rest : List Piece} (hrest : EndsNumber rest)
    (strictness : Strictness) (negative : Bool) (offset n : Nat) :
    ∃ offset', scanMagnitude strictness negative offset ((Nat.toDigits 10 n).map .char ++ rest) =
      ⟨if digitCount n ≤ wholeDigitLimit then
          .scalar (.num (.int (if negative then -(n : Int) else n)))
        else .brokenScalar ⟨.hugeNumber, offset + wholeDigitLimit + 1⟩, offset', rest⟩ := by
  rcases Nat.eq_zero_or_pos n with rfl | hn
  · have hhead : (rest.head?.bind digitValue?).isSome = false := by
      cases rest with
      | nil => rfl
      | cons piece rest => simp [(hrest piece rfl).1]
    refine ⟨offset + 1, ?_⟩
    have hshort : digitCount 0 ≤ wholeDigitLimit := by decide
    simp [scanMagnitude, hhead, hrest.scanFraction_eq, hshort]
  · -- The first digit is read apart from the others; it is not zero, so more may follow.
    obtain ⟨c, digits, hdigits, hzero⟩ := exists_toDigits_eq_cons hn
    have hdigit : ∀ other ∈ c :: digits, other.isDigit = true := hdigits ▸ fun _ => isDigit_toDigits
    have hc := Timestamp.digit?_of_isDigit (hdigit c (List.mem_cons_self ..))
    have hwhole := scanDigits_digits (fun other hother => hdigit other (List.mem_cons_of_mem _ hother))
      hrest (c.toNat - 48) 1
    have hvalue : Nat.ofDigitChars 10 digits (c.toNat - 48) = n := by
      rw [← Nat.ofDigitChars_ten_toDigits (n := n), hdigits, Nat.ofDigitChars_cons]
      simp
    have hcount : digitCount n = 1 + digits.length := by
      rw [digitCount, hdigits, List.length_cons, Nat.add_comm]
    have hlong : wholeDigitLimit < 1 + digits.length ↔ ¬ digitCount n ≤ wholeDigitLimit := by
      rw [hcount, Nat.not_le]
    rw [hdigits, List.map_cons, List.cons_append, scanMagnitude]
    · simp only [digitValue?_char, hc, hwhole, hvalue, hrest.tooManyDigits_eq, decide_eq_true_eq,
        hlong, hrest.scanFraction_eq]
      by_cases hshort : digitCount n ≤ wholeDigitLimit
      · rw [if_neg (not_not_intro hshort), if_pos hshort]
        exact ⟨_, rfl⟩
      · rw [if_pos hshort, if_neg hshort]
        exact ⟨_, rfl⟩
    · simpa using hzero

theorem scanToken_digit {c : Char} (hdigit : c.isDigit = true) (strictness : Strictness)
    (offset : Nat) (rest : List Piece) :
    scanToken strictness offset (.char c) rest =
      scanMagnitude strictness false offset (.char c :: rest) := by
  have hsome : (digitValue? (.char c)).isSome = true := by
    rw [digitValue?_char, Timestamp.digit?_of_isDigit hdigit]
    rfl
  rw [scanToken]
  · rw [if_pos hsome]
  all_goals
    intro heq
    injection heq with hc
    subst hc
    exact absurd hdigit (by decide)

theorem isSpace_digit {c : Char} (hdigit : c.isDigit = true) : isSpace (.char c) = false := by
  rw [Bool.eq_false_iff]
  intro hspace
  simp only [isSpace, Bool.or_eq_true, decide_eq_true_eq, Piece.char.injEq] at hspace
  rcases hspace with ((rfl | rfl) | rfl) | rfl <;> exact absurd hdigit (by decide)

/-- A written whole number is one token: the number, or a fault if it has too many digits. -/
theorem scanToken_printInt {rest : List Piece} (hrest : EndsNumber rest) (strictness : Strictness)
    (offset : Nat) (value : Int) :
    ∃ first tail offset' place, (printInt value).map .char ++ rest = first :: tail ∧
      isSpace first = false ∧ scanToken strictness offset first tail =
        ⟨if digitCount value.natAbs ≤ wholeDigitLimit then .scalar (.num (.int value))
          else .brokenScalar ⟨.hugeNumber, place⟩, offset', rest⟩ := by
  cases value with
  | ofNat n =>
      obtain ⟨offset', hscan⟩ := scanMagnitude_toDigits hrest strictness false offset n
      obtain ⟨c, digits, hdigits⟩ := List.exists_cons_of_ne_nil (Nat.toDigits_ne_nil (n := n) (b := 10))
      have hc : c.isDigit = true := isDigit_toDigits (n := n) (by rw [hdigits]; exact List.mem_cons_self ..)
      rw [hdigits] at hscan
      refine ⟨.char c, digits.map .char ++ rest, offset', offset + wholeDigitLimit + 1, ?_,
        isSpace_digit hc, ?_⟩
      · rw [printInt, hdigits]
        rfl
      · rw [scanToken_digit hc]
        exact hscan
  | negSucc n =>
      obtain ⟨offset', hscan⟩ := scanMagnitude_toDigits hrest strictness true (offset + 1) (n + 1)
      exact ⟨.char '-', _, offset', _, rfl, rfl, hscan⟩

/-! ## The first token -/

/-- The first token of a text that starts with no space, and what is left after it. -/
def Cuts (strictness : Strictness) (pieces : List Piece) (token : Token) (rest : List Piece) :
    Prop :=
  ∀ offset, ∃ first tail offset', pieces = first :: tail ∧ isSpace first = false ∧
    scanToken strictness offset first tail = ⟨token, offset', rest⟩

section

variable (strictness : Strictness) (rest : List Piece)

theorem cuts_openArray : Cuts strictness (.char '[' :: rest) .openArray rest :=
  fun _ => ⟨_, _, _, rfl, rfl, rfl⟩

theorem cuts_closeArray : Cuts strictness (.char ']' :: rest) .closeArray rest :=
  fun _ => ⟨_, _, _, rfl, rfl, rfl⟩

theorem cuts_openObject : Cuts strictness (.char '\x7b' :: rest) .openObject rest :=
  fun _ => ⟨_, _, _, rfl, rfl, rfl⟩

theorem cuts_closeObject : Cuts strictness (.char '\x7d' :: rest) .closeObject rest :=
  fun _ => ⟨_, _, _, rfl, rfl, rfl⟩

theorem cuts_colon : Cuts strictness (.char ':' :: rest) .colon rest :=
  fun _ => ⟨_, _, _, rfl, rfl, rfl⟩

theorem cuts_comma : Cuts strictness (.char ',' :: rest) .comma rest :=
  fun _ => ⟨_, _, _, rfl, rfl, rfl⟩

theorem cuts_null : Cuts strictness ("null".toList.map .char ++ rest) (.scalar .null) rest :=
  fun offset => ⟨_, _, _, rfl, rfl, scanWord_word .null (offset + 1) "ull".toList rest⟩

theorem cuts_true :
    Cuts strictness ("true".toList.map .char ++ rest) (.scalar (.bool true)) rest :=
  fun offset => ⟨_, _, _, rfl, rfl, scanWord_word (.bool true) (offset + 1) "rue".toList rest⟩

theorem cuts_false :
    Cuts strictness ("false".toList.map .char ++ rest) (.scalar (.bool false)) rest :=
  fun offset => ⟨_, _, _, rfl, rfl, scanWord_word (.bool false) (offset + 1) "alse".toList rest⟩

theorem cuts_printString (text : String) :
    Cuts strictness ((printString text).map .char ++ rest) (.text text) rest := by
  intro offset
  obtain ⟨offset', hscan⟩ :=
    scanText_escaped strictness (offset + 1) (offset + 1) text.toList [] rest
  exact ⟨.char '"', _, offset', rfl, rfl, by simpa [scanToken] using hscan⟩

theorem cuts_printInt {value : Int} (hvalue : digitCount value.natAbs ≤ wholeDigitLimit)
    (hrest : EndsNumber rest) :
    Cuts strictness ((printInt value).map .char ++ rest) (.scalar (.num (.int value))) rest := by
  intro offset
  obtain ⟨first, tail, offset', place, hpieces, hspace, hscan⟩ :=
    scanToken_printInt hrest strictness offset value
  rw [if_pos hvalue] at hscan
  exact ⟨first, tail, offset', hpieces, hspace, hscan⟩

end

end TypeAtlas.Json
