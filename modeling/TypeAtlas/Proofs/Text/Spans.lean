import TypeAtlas.Proofs.Text.Octets
import TypeAtlas.Syntax.Tree

/-!
# Texts of spans

A node has the octets of a source from one offset up to another, and these may begin and end in the
middle of a character.  What is read of them is said in terms of the characters of the source and the
offsets at which they start (`placed`, `boundaries`): the characters that lie within the span as a
whole, in front of them a replacement for each octet before the first boundary, and behind them one
for a character that is cut off (`Tree.text_span`).

So a character that is cut does no harm to its neighbours.  The octets before the first boundary
start nothing, and each is an ill-formed part by itself (`pieces_tails`); the first octets of a
character are one ill-formed part as long as nothing follows (`IsSequence.exists_pieces_take`).
-/

namespace TypeAtlas

namespace Utf8

/-! ## Octets of one character -/

/-- The octets of one character: a lead octet and as many others as it announces. -/
inductive IsSequence : List UInt8 → Prop where
  | one {first : UInt8} (hfirst : lead first = .alone) : IsSequence [first]
  | two {first second low high : UInt8} (hfirst : lead first = .follow 1 low high)
      (hsecond : (low ≤ second && second ≤ high) = true) : IsSequence [first, second]
  | three {first second third low high : UInt8} (hfirst : lead first = .follow 2 low high)
      (hsecond : (low ≤ second && second ≤ high) = true) (hthird : isTail third = true) :
      IsSequence [first, second, third]
  | four {first second third fourth low high : UInt8} (hfirst : lead first = .follow 3 low high)
      (hsecond : (low ≤ second && second ≤ high) = true) (hthird : isTail third = true)
      (hfourth : isTail fourth = true) : IsSequence [first, second, third, fourth]

theorem isSequence_encodeChar (c : Char) : IsSequence (encodeChar c) := by
  have hvalid : c.toNat < 0xD800 ∨ 0xDFFF < c.toNat ∧ c.toNat < 0x110000 := c.valid
  rw [encodeChar]
  generalize c.toNat = code at hvalid
  split
  case isTrue hone => exact .one (lead_one hone)
  split
  case isTrue htwo => exact .two (lead_two (by omega) htwo) (isTail_toUInt8 code)
  split
  case isTrue hthree =>
    obtain ⟨low, high, hlead, hsecond⟩ := exists_lead_three (by omega) hthree (by omega)
    exact .three hlead hsecond (isTail_toUInt8 code)
  case isFalse hfour =>
    obtain ⟨low, high, hlead, hsecond⟩ := exists_lead_four (Nat.le_of_not_lt hfour) (by omega)
    exact .four hlead hsecond (isTail_toUInt8 _) (isTail_toUInt8 code)

theorem length_encodeChar (c : Char) : (encodeChar c).length = charSize c := by
  simp only [encodeChar, charSize]
  split_ifs <;> rfl

theorem charSize_pos (c : Char) : 0 < charSize c := by
  rw [charSize]
  split_ifs <;> decide

/-- What a lead octet announces next is never the start of a character. -/
theorem isTail_of_within {first second low high : UInt8} {count : Nat}
    (hfirst : lead first = .follow count low high)
    (hsecond : (low ≤ second && second ≤ high) = true) : isTail second = true := by
  have hrange : 0x80 ≤ low ∧ high ≤ 0xBF := by
    rw [lead] at hfirst
    split_ifs at hfirst <;> cases hfirst <;> decide
  simp only [Bool.and_eq_true, decide_eq_true_eq] at hsecond
  simp only [isTail, Bool.and_eq_true, decide_eq_true_eq]
  exact ⟨UInt8.le_trans hrange.1 hsecond.1, UInt8.le_trans hsecond.2 hrange.2⟩

theorem IsSequence.isTail_of_mem_tail {octets : List UInt8} (hoctets : IsSequence octets) :
    ∀ octet ∈ octets.tail, isTail octet = true := by
  cases hoctets with
  | one hfirst => simp
  | two hfirst hsecond => simpa using isTail_of_within hfirst hsecond
  | three hfirst hsecond hthird => simpa using ⟨isTail_of_within hfirst hsecond, hthird⟩
  | four hfirst hsecond hthird hfourth =>
      simpa using ⟨isTail_of_within hfirst hsecond, hthird, hfourth⟩

/-! ## Characters that are cut -/

theorem lead_of_isTail {octet : UInt8} (hoctet : isTail octet = true) : lead octet = .none := by
  simp only [isTail, UInt8.le_iff_toNat_le, Bool.and_eq_true, decide_eq_true_eq] at hoctet
  obtain ⟨hlow, hhigh⟩ := hoctet
  change 0x80 ≤ octet.toNat at hlow
  change octet.toNat ≤ 0xBF at hhigh
  rw [lead_eq, if_neg (by omega), if_pos (by omega)]

/-- Octets that do not start a character are ill-formed parts one by one, whatever follows. -/
theorem pieces_tails {tails : List UInt8} (htails : ∀ octet ∈ tails, isTail octet = true)
    (rest : List UInt8) :
    pieces (tails ++ rest) = tails.map (fun octet => .illFormed [octet]) ++ pieces rest := by
  induction tails with
  | nil => rfl
  | cons octet tails ih =>
      obtain ⟨hoctet, htails⟩ := List.forall_mem_cons.mp htails
      rw [List.cons_append, pieces, lead_of_isTail hoctet, List.map_cons, List.cons_append, ← ih htails]

section

variable {first second third low high : UInt8} {count : Nat}

theorem pieces_begun_one (hfirst : lead first = .follow count low high) :
    pieces [first] = [.illFormed [first]] := by
  rw [pieces, hfirst]

theorem pieces_begun_two (hfirst : lead first = .follow count low high) (hcount : count ≠ 1)
    (hsecond : (low ≤ second && second ≤ high) = true) :
    pieces [first, second] = [.illFormed [first, second]] := by
  rw [pieces, hfirst]
  simp only [hsecond, if_true, if_neg hcount]

theorem pieces_begun_three (hfirst : lead first = .follow count low high) (hcount : count ≠ 1)
    (hcount' : count ≠ 2) (hsecond : (low ≤ second && second ≤ high) = true)
    (hthird : isTail third = true) :
    pieces [first, second, third] = [.illFormed [first, second, third]] := by
  rw [pieces, hfirst]
  simp only [hsecond, hthird, if_true, if_neg hcount, if_neg hcount']

end

/-- A character of which only the first octets are there is one ill-formed part. -/
theorem IsSequence.exists_pieces_take {octets : List UInt8} (hoctets : IsSequence octets) {count : Nat}
    (hpos : 0 < count) (hlt : count < octets.length) :
    ∃ part, pieces (octets.take count) = [.illFormed part] := by
  cases hoctets with
  | one hfirst => simp only [List.length_singleton] at hlt; omega
  | two hfirst hsecond =>
      obtain rfl : count = 1 := by simp only [List.length_cons, List.length_nil] at hlt; omega
      exact ⟨_, pieces_begun_one hfirst⟩
  | three hfirst hsecond hthird =>
      obtain rfl | rfl : count = 1 ∨ count = 2 := by
        simp only [List.length_cons, List.length_nil] at hlt; omega
      · exact ⟨_, pieces_begun_one hfirst⟩
      · exact ⟨_, pieces_begun_two hfirst (by decide) hsecond⟩
  | four hfirst hsecond hthird hfourth =>
      obtain rfl | rfl | rfl : count = 1 ∨ count = 2 ∨ count = 3 := by
        simp only [List.length_cons, List.length_nil] at hlt; omega
      · exact ⟨_, pieces_begun_one hfirst⟩
      · exact ⟨_, pieces_begun_two hfirst (by decide) hsecond⟩
      · exact ⟨_, pieces_begun_three hfirst (by decide) (by decide) hsecond hthird⟩

/-! ## Where characters are -/

/-- Characters with the offsets of their first octets, if the first of them is at the given one. -/
def placed (offset : Nat) : List Char → List (Nat × Char)
  | [] => []
  | c :: rest => (offset, c) :: placed (offset + charSize c) rest

/-- The offsets at which a character starts, and that of the end. -/
def boundaries (offset : Nat) : List Char → List Nat
  | [] => [offset]
  | c :: rest => offset :: boundaries (offset + charSize c) rest

section

variable (start stop : Nat)

/-- How many octets of a span come before the first boundary in it. -/
def strays (bounds : List Nat) : Nat :=
  min ((bounds.find? (start ≤ ·)).getD start) stop - start

/-- The characters that lie within a span as a whole. -/
def whole (chars : List (Nat × Char)) : List Char :=
  (chars.filter fun (offset, c) => start ≤ offset ∧ offset + charSize c ≤ stop).map Prod.snd

/-- A span ends inside a character that starts in it. -/
def endsInside (chars : List (Nat × Char)) : Bool :=
  chars.any fun (offset, c) => start ≤ offset ∧ offset < stop ∧ stop < offset + charSize c

end

/-! ## What is read of a span -/

section

variable {start stop base : Nat}

theorem encodeChars_cons (c : Char) (chars : List Char) :
    encodeChars (c :: chars) = encodeChar c ++ encodeChars chars := rfl

theorem encodeChars_append (chars more : List Char) :
    encodeChars (chars ++ more) = encodeChars chars ++ encodeChars more := List.flatMap_append

theorem whole_cons (offset : Nat) (c : Char) (chars : List (Nat × Char)) :
    whole start stop ((offset, c) :: chars) =
      if start ≤ offset ∧ offset + charSize c ≤ stop then c :: whole start stop chars
      else whole start stop chars := by
  simp only [whole, List.filter_cons, decide_eq_true_eq]
  split_ifs <;> rfl

theorem endsInside_cons (offset : Nat) (c : Char) (chars : List (Nat × Char)) :
    endsInside start stop ((offset, c) :: chars) =
      (decide (start ≤ offset ∧ offset < stop ∧ stop < offset + charSize c) ||
        endsInside start stop chars) := rfl

/-- What is read of the first octets of some characters, if the span begins no later than these. -/
theorem map_pieces_take (hbase : start ≤ base) (chars : List Char) :
    (pieces ((encodeChars chars).take (stop - base))).map Piece.toChar =
      whole start stop (placed base chars) ++
        if endsInside start stop (placed base chars) then [replacement] else [] := by
  induction chars generalizing base with
  | nil => rw [encodeChars, List.flatMap_nil, List.take_nil]; rfl
  | cons c chars ih =>
      have hpos := charSize_pos c
      have hrest := ih (Nat.le_trans hbase (Nat.le_add_right base (charSize c)))
      rw [encodeChars_cons, List.take_append, length_encodeChar, Nat.sub_sub, placed, whole_cons,
        endsInside_cons]
      rcases Nat.lt_or_ge stop (base + charSize c) with hcut | hfits
      · -- The character does not lie within the span, and nothing behind it does.
        have hnone : stop - (base + charSize c) = 0 := by omega
        rw [hnone, List.take_zero] at hrest ⊢
        rw [List.append_nil, if_neg (by omega)]
        rcases Nat.lt_or_ge base stop with hbegun | hbefore
        · have hlength : stop - base < (encodeChar c).length := by rw [length_encodeChar]; omega
          obtain ⟨part, hpart⟩ :=
            (isSequence_encodeChar c).exists_pieces_take (Nat.sub_pos_of_lt hbegun) hlength
          have hwhole := (List.append_eq_nil_iff.mp hrest.symm).1
          rw [hpart, hwhole, decide_eq_true ⟨hbase, hbegun, hcut⟩, Bool.true_or, if_pos rfl]
          rfl
        · rw [Nat.sub_eq_zero_of_le hbefore, List.take_zero, decide_eq_false (by omega), Bool.false_or]
          exact hrest
      · rw [if_pos ⟨hbase, hfits⟩, decide_eq_false (by omega), Bool.false_or,
          List.take_of_length_le (by rw [length_encodeChar]; omega), pieces_encodeChar, List.map_cons,
          hrest]
        rfl

theorem strays_cons (bound : Nat) (bounds : List Nat) :
    strays start stop (bound :: bounds) =
      if start ≤ bound then min bound stop - start else strays start stop bounds := by
  rw [strays, List.find?_cons]
  split_ifs with hbound <;> simp [hbound, strays]

/-- If all the characters come behind the start of a span, the first of them is at a boundary. -/
theorem strays_boundaries (hbase : start ≤ base) (chars : List Char) :
    strays start stop (boundaries base chars) = min base stop - start := by
  cases chars <;> rw [boundaries, strays_cons, if_pos hbase]

/-- A span of the octets of some characters: the octets before the first boundary start nothing, and
what is read behind them are the characters within the span, and that one is cut off. -/
theorem exists_tails (hbase : base ≤ start) (stop : Nat) (chars : List Char) :
    ∃ tails rest, ((encodeChars chars).drop (start - base)).take (stop - start) = tails ++ rest ∧
      tails.length = strays start stop (boundaries base chars) ∧
      (∀ octet ∈ tails, isTail octet = true) ∧
      (pieces rest).map Piece.toChar = whole start stop (placed base chars) ++
        if endsInside start stop (placed base chars) then [replacement] else [] := by
  induction chars generalizing base with
  | nil =>
      have hnone : strays start stop (boundaries base []) = 0 := by
        rw [boundaries, strays_cons]
        split_ifs
        · omega
        · exact Nat.sub_eq_zero_of_le (Nat.min_le_left start stop)
      refine ⟨[], [], ?_, hnone.symm, nofun, rfl⟩
      rw [encodeChars, List.flatMap_nil, List.drop_nil, List.take_nil, List.append_nil]
  | cons c chars ih =>
      have hpos := charSize_pos c
      rcases Nat.eq_or_lt_of_le hbase with rfl | hlt
      · refine ⟨[], _, ?_, ?_, nofun, map_pieces_take (Nat.le_refl base) (c :: chars)⟩
        · rw [Nat.sub_self, List.drop_zero, List.nil_append]
        · rw [strays_boundaries (Nat.le_refl base), Nat.sub_eq_zero_of_le (Nat.min_le_left base stop)]
          rfl
      rw [boundaries, strays_cons, if_neg (by omega), placed, whole_cons, if_neg (by omega),
        endsInside_cons, decide_eq_false (by omega), Bool.false_or, encodeChars_cons, List.drop_append,
        length_encodeChar, Nat.sub_sub]
      rcases Nat.lt_or_ge start (base + charSize c) with hinside | hpast
      · -- The span begins inside the character, of which the rest is left.
        have hlength : ((encodeChar c).drop (start - base)).length = base + charSize c - start := by
          rw [List.length_drop, length_encodeChar]
          omega
        rw [Nat.sub_eq_zero_of_le (Nat.le_of_lt hinside), List.drop_zero, List.take_append,
          strays_boundaries (Nat.le_of_lt hinside)]
        refine ⟨_, _, rfl, ?_, ?_, ?_⟩
        · rw [List.length_take, hlength]
          omega
        · intro octet hoctet
          apply (isSequence_encodeChar c).isTail_of_mem_tail
          rw [← List.drop_one]
          exact List.drop_subset_drop_left _ (by omega) (List.mem_of_mem_take hoctet)
        · have hbehind : stop - start - (base + charSize c - start) = stop - (base + charSize c) := by
            omega
          rw [hlength, hbehind]
          exact map_pieces_take (Nat.le_of_lt hinside) chars
      · rw [List.drop_eq_nil_of_le (by rw [length_encodeChar]; omega), List.nil_append]
        exact ih hpast

theorem map_pieces_tails {tails : List UInt8} (htails : ∀ octet ∈ tails, isTail octet = true)
    (rest : List UInt8) :
    (pieces (tails ++ rest)).map Piece.toChar =
      List.replicate tails.length replacement ++ (pieces rest).map Piece.toChar := by
  rw [pieces_tails htails, List.map_append, List.map_map, ← List.map_const']
  rfl

/-- A span that begins and ends at boundaries is read as the characters between them. -/
theorem decodeLossy_between (before middle after : List Char) :
    decodeLossy (((encodeChars (before ++ middle ++ after)).take
      (encodeChars (before ++ middle)).length).drop (encodeChars before).length) =
        String.ofList middle := by
  rw [encodeChars_append (before ++ middle), List.take_left, encodeChars_append, List.drop_left,
    decodeLossy, pieces_encodeChars, List.map_map]
  exact congrArg String.ofList (List.map_id middle)

end

end Utf8

namespace Syntax.Tree

open Utf8

/-- **The text of a span of a source**: a replacement for each octet before the first boundary in it,
all of which are octets that continue a character; then the characters that lie within it as a whole;
then a replacement if it ends inside a character that starts in it.  Between two boundaries that is
just the characters. -/
theorem text_of_span (label : Label) (children : List Tree) (source : String) (start stop : Nat) :
    let chars := placed 0 source.toList
    let count := strays start stop (boundaries 0 source.toList)
    let text := (node { label with raw := .span source start stop } children).text
    text = String.ofList (List.replicate count replacement ++ (whole start stop chars ++
        if endsInside start stop chars then [replacement] else [])) ∧
      (∃ tails rest, ((encode source).take stop).drop start = tails ++ rest ∧ tails.length = count ∧
        ∀ octet ∈ tails, isTail octet = true) ∧
      ∀ before middle after, source.toList = before ++ middle ++ after →
        start = (encodeChars before).length → stop = (encodeChars (before ++ middle)).length →
          text = String.ofList middle := by
  intro chars count text
  obtain ⟨tails, rest, hspan, hlength, htails, hrest⟩ :=
    exists_tails (Nat.zero_le start) stop source.toList
  rw [Nat.sub_zero, ← List.drop_take] at hspan
  refine ⟨?_, ⟨tails, rest, hspan, hlength, htails⟩, ?_⟩
  · change decodeLossy (((encode source).take stop).drop start) = _
    rw [encode, hspan, decodeLossy, map_pieces_tails htails, hlength, hrest]
  · rintro before middle after hsource rfl rfl
    change decodeLossy (((encode source).take _).drop _) = _
    rw [encode, hsource, decodeLossy_between]

/-- The span begins inside the second character and ends inside the last. -/
example : (RawText.span "aé😀€" 2 8).decode = "\uFFFD😀\uFFFD" := by decide +kernel

end Syntax.Tree
end TypeAtlas
