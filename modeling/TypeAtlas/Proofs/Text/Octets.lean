import TypeAtlas.Proofs.Json.Tokens
import TypeAtlas.Text.Utf8

/-!
# Texts as octets and back

The octets of a text are read back as the text: none of them is taken for an ill-formed part.  For
one character this is a matter of four ranges of codes (`pieces_encodeChar`).  Which ranges of octets
a lead octet announces is said in numbers by `lead_eq`; the narrow ones are just wide enough for the
characters there are.
-/

namespace TypeAtlas.Utf8

/-! ## Octets as numbers -/

theorem lead_eq (octet : UInt8) :
    lead octet =
      if octet.toNat < 0x80 then .alone
      else if octet.toNat < 0xC2 then .none
      else if octet.toNat < 0xE0 then .follow 1 0x80 0xBF
      else if octet.toNat = 0xE0 then .follow 2 0xA0 0xBF
      else if octet.toNat = 0xED then .follow 2 0x80 0x9F
      else if octet.toNat < 0xF0 then .follow 2 0x80 0xBF
      else if octet.toNat = 0xF0 then .follow 3 0x90 0xBF
      else if octet.toNat < 0xF4 then .follow 3 0x80 0xBF
      else if octet.toNat = 0xF4 then .follow 3 0x80 0x8F
      else .none := by
  simp only [lead, UInt8.lt_iff_toNat_lt, beq_iff_eq, ← UInt8.toNat_inj]
  rfl

theorem toNat_toUInt8 {code : Nat} (hcode : code < 0x100) : code.toUInt8.toNat = code :=
  Nat.mod_eq_of_lt hcode

theorem within_toUInt8 {code : Nat} {low high : UInt8} (hlow : low.toNat ≤ code)
    (hhigh : code ≤ high.toNat) : (low ≤ code.toUInt8 && code.toUInt8 ≤ high) = true := by
  have hcode : code.toUInt8.toNat = code :=
    toNat_toUInt8 (Nat.lt_of_le_of_lt hhigh high.toNat_lt_size)
  simp only [UInt8.le_iff_toNat_le, hcode, Bool.and_eq_true, decide_eq_true_eq]
  exact ⟨hlow, hhigh⟩

/-- What follows a lead octet has six bits of the code behind a mark. -/
theorem isTail_toUInt8 (code : Nat) : isTail (0x80 + code % 0x40).toUInt8 = true := by
  have hcode : code % 0x40 < 0x40 := Nat.mod_lt code (by decide)
  rw [isTail]
  exact within_toUInt8 (Nat.le_add_right _ _) (by change 0x80 + code % 0x40 ≤ 0xBF; omega)

theorem tail_bits (code : Nat) : (0x80 + code % 0x40).toUInt8.toNat % 0x40 = code % 0x40 := by
  rw [toNat_toUInt8 (by omega)]
  omega

/-! ## Characters of one to four octets -/

section

variable {first second third fourth low high : UInt8} (rest : List UInt8)

theorem pieces_alone (hfirst : lead first = .alone) :
    pieces (first :: rest) = .char (Char.ofNat first.toNat) :: pieces rest := by
  rw [pieces, hfirst]

theorem pieces_two (hfirst : lead first = .follow 1 low high)
    (hsecond : (low ≤ second && second ≤ high) = true) :
    pieces (first :: second :: rest) =
      .char (Char.ofNat (first.toNat % 0x20 * 0x40 + second.toNat % 0x40)) :: pieces rest := by
  rw [pieces, hfirst]
  simp only [hsecond, if_true]
  rfl

theorem pieces_three (hfirst : lead first = .follow 2 low high)
    (hsecond : (low ≤ second && second ≤ high) = true) (hthird : isTail third = true) :
    pieces (first :: second :: third :: rest) =
      .char (Char.ofNat (first.toNat % 0x10 * 0x1000 + second.toNat % 0x40 * 0x40 +
        third.toNat % 0x40)) :: pieces rest := by
  rw [pieces, hfirst]
  simp only [hsecond, hthird, if_true]
  rfl

theorem pieces_four (hfirst : lead first = .follow 3 low high)
    (hsecond : (low ≤ second && second ≤ high) = true) (hthird : isTail third = true)
    (hfourth : isTail fourth = true) :
    pieces (first :: second :: third :: fourth :: rest) =
      .char (Char.ofNat (first.toNat % 0x08 * 0x40000 + second.toNat % 0x40 * 0x1000 +
        third.toNat % 0x40 * 0x40 + fourth.toNat % 0x40)) :: pieces rest := by
  rw [pieces, hfirst]
  simp only [hsecond, hthird, hfourth, if_true]
  rfl

end

/-! ## Codes -/

section

variable {code : Nat}

theorem lead_one (hhigh : code < 0x80) : lead code.toUInt8 = .alone := by
  rw [lead_eq, toNat_toUInt8 (by omega), if_pos hhigh]

theorem lead_two (hlow : 0x80 ≤ code) (hhigh : code < 0x800) :
    lead (0xC0 + code / 0x40).toUInt8 = .follow 1 0x80 0xBF := by
  rw [lead_eq, toNat_toUInt8 (by omega), if_neg (by omega), if_neg (by omega), if_pos (by omega)]

/-- The second octet of three is in the range that the lead octet announces: the code is neither
small enough for two octets nor a surrogate. -/
theorem exists_lead_three (hlow : 0x800 ≤ code) (hhigh : code < 0x10000)
    (hvalid : code < 0xD800 ∨ 0xDFFF < code) :
    ∃ low high, lead (0xE0 + code / 0x1000).toUInt8 = .follow 2 low high ∧
      (low ≤ (0x80 + code / 0x40 % 0x40).toUInt8 &&
        (0x80 + code / 0x40 % 0x40).toUInt8 ≤ high) = true := by
  have hfirst : (0xE0 + code / 0x1000).toUInt8.toNat = 0xE0 + code / 0x1000 :=
    toNat_toUInt8 (by omega)
  rw [lead_eq, hfirst, if_neg (by omega), if_neg (by omega), if_neg (by omega)]
  split
  case isTrue hleast =>
    exact ⟨0xA0, 0xBF, rfl, within_toUInt8 (by change 0xA0 ≤ _; omega) (by change _ ≤ 0xBF; omega)⟩
  split
  case isTrue hsurrogates =>
    exact ⟨0x80, 0x9F, rfl, within_toUInt8 (by change 0x80 ≤ _; omega) (by change _ ≤ 0x9F; omega)⟩
  case isFalse =>
    rw [if_pos (by omega)]
    exact ⟨0x80, 0xBF, rfl, within_toUInt8 (by change 0x80 ≤ _; omega) (by change _ ≤ 0xBF; omega)⟩

/-- The second octet of four is in the range that the lead octet announces: the code is neither small
enough for three octets nor above the last one. -/
theorem exists_lead_four (hlow : 0x10000 ≤ code) (hhigh : code < 0x110000) :
    ∃ low high, lead (0xF0 + code / 0x40000).toUInt8 = .follow 3 low high ∧
      (low ≤ (0x80 + code / 0x1000 % 0x40).toUInt8 &&
        (0x80 + code / 0x1000 % 0x40).toUInt8 ≤ high) = true := by
  have hfirst : (0xF0 + code / 0x40000).toUInt8.toNat = 0xF0 + code / 0x40000 :=
    toNat_toUInt8 (by omega)
  rw [lead_eq, hfirst, if_neg (by omega), if_neg (by omega), if_neg (by omega), if_neg (by omega),
    if_neg (by omega), if_neg (by omega)]
  split
  case isTrue hleast =>
    exact ⟨0x90, 0xBF, rfl, within_toUInt8 (by change 0x90 ≤ _; omega) (by change _ ≤ 0xBF; omega)⟩
  split
  case isTrue hmiddle =>
    exact ⟨0x80, 0xBF, rfl, within_toUInt8 (by change 0x80 ≤ _; omega) (by change _ ≤ 0xBF; omega)⟩
  case isFalse =>
    rw [if_pos (by omega)]
    exact ⟨0x80, 0x8F, rfl, within_toUInt8 (by change 0x80 ≤ _; omega) (by change _ ≤ 0x8F; omega)⟩

end

/-! ## Texts -/

/-- A character is read back from its octets, whatever follows. -/
theorem pieces_encodeChar (c : Char) (rest : List UInt8) :
    pieces (encodeChar c ++ rest) = .char c :: pieces rest := by
  have hvalid : c.toNat < 0xD800 ∨ 0xDFFF < c.toNat ∧ c.toNat < 0x110000 := c.valid
  have hchar : ∀ code, code = c.toNat → Char.ofNat code = c := by
    rintro code rfl
    exact Char.ofNat_toNat c
  rw [encodeChar]
  -- From here on the character is its code, which is taken apart into octets by its size.
  generalize c.toNat = code at hvalid hchar
  split
  case isTrue hone =>
    have hfirst : code.toUInt8.toNat = code := toNat_toUInt8 (by omega)
    rw [List.cons_append, List.nil_append, pieces_alone rest (lead_one hone), hchar _ hfirst]
  split
  case isTrue htwo =>
    have hfirst : (0xC0 + code / 0x40).toUInt8.toNat = 0xC0 + code / 0x40 :=
      toNat_toUInt8 (by omega)
    have hlead := lead_two (by omega) htwo
    simp only [List.cons_append, List.nil_append]
    rw [pieces_two rest hlead (isTail_toUInt8 code), hfirst, tail_bits, hchar _ (by omega)]
  split
  case isTrue hthree =>
    have hfirst : (0xE0 + code / 0x1000).toUInt8.toNat = 0xE0 + code / 0x1000 :=
      toNat_toUInt8 (by omega)
    obtain ⟨low, high, hlead, hsecond⟩ := exists_lead_three (by omega) hthree (by omega)
    simp only [List.cons_append, List.nil_append]
    rw [pieces_three rest hlead hsecond (isTail_toUInt8 code), hfirst, tail_bits, tail_bits,
      hchar _ (by omega)]
  case isFalse hfour =>
    have hfirst : (0xF0 + code / 0x40000).toUInt8.toNat = 0xF0 + code / 0x40000 :=
      toNat_toUInt8 (by omega)
    obtain ⟨low, high, hlead, hsecond⟩ := exists_lead_four (Nat.le_of_not_lt hfour) (by omega)
    simp only [List.cons_append, List.nil_append]
    rw [pieces_four rest hlead hsecond (isTail_toUInt8 _) (isTail_toUInt8 code), hfirst, tail_bits,
      tail_bits, tail_bits, hchar _ (by omega)]

theorem pieces_encodeChars (chars : List Char) : pieces (encodeChars chars) = chars.map .char := by
  induction chars with
  | nil => rfl
  | cons c chars ih =>
      rw [encodeChars, List.flatMap_cons, pieces_encodeChar, ← encodeChars, ih, List.map_cons]

/-- **A text is read back from its octets.** -/
theorem decode?_encode (text : String) : decode? (encode text) = some text := by
  rw [decode?, encode, pieces_encodeChars, Json.charsOf?_map_char, Option.map_some, String.ofList_toList]

end TypeAtlas.Utf8
