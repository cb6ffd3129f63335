import TypeAtlas.Json.Reader
import TypeAtlas.Proofs.Json.Tokens

/-!
# Documents are read back

`read_indented` says of a value without fractions, and with not too many containers inside one
another, what comes of reading its written form strictly: the value itself if none of its numbers has
more than `wholeDigitLimit` digits, and a fault otherwise.

The machine is followed over whole parts of a document.  `Reading.Reaches` relates a state and the
text before a part to the state and the text after it, whatever stands on the stack and whatever
follows; the parts are put together by transitivity, in the order in which the printer writes them.
`Reading.Reads` adds the other case, a part with a number that is too long, at which reading ends.
-/

namespace TypeAtlas.Json

open Utf8 (Piece)

/-! ## Values that can be read back -/

mutual

/-- Whether all numbers of a value are whole and at most `room` containers are open inside it. -/
def IsPlain : Nat → Json → Prop
  | _, .num (.int _) => True
  | _, .num _ => False
  | 0, .arr _ => False
  | room + 1, .arr items => ArePlain room items
  | 0, .obj _ => False
  | room + 1, .obj fields => FieldsArePlain room fields
  | _, _ => True

/-- `IsPlain` for all items of a list. -/
def ArePlain (room : Nat) : List Json → Prop
  | [] => True
  | item :: items => IsPlain room item ∧ ArePlain room items

/-- `IsPlain` for the values of all fields. -/
def FieldsArePlain (room : Nat) : List (String × Json) → Prop
  | [] => True
  | (_, value) :: fields => IsPlain room value ∧ FieldsArePlain room fields

end

mutual

/-- Whether no whole number of a value has more than `wholeDigitLimit` digits. -/
def IsShort : Json → Prop
  | .num (.int value) => digitCount value.natAbs ≤ wholeDigitLimit
  | .arr items => AreShort items
  | .obj fields => FieldsAreShort fields
  | _ => True

/-- `IsShort` for all items of a list. -/
def AreShort : List Json → Prop
  | [] => True
  | item :: items => IsShort item ∧ AreShort items

/-- `IsShort` for the values of all fields. -/
def FieldsAreShort : List (String × Json) → Prop
  | [] => True
  | (_, value) :: fields => IsShort value ∧ FieldsAreShort fields

end

/-! ## Following the machine -/

namespace Reading

variable {size : Nat} {first next last : Reading} {pieces more rest : List Piece}

/-- Reading on from one state with some text left is reading on from another with less of it. -/
def Reaches (size : Nat) (first : Reading) (pieces : List Piece) (next : Reading)
    (rest : List Piece) : Prop :=
  ∀ offset, ∃ offset', first.run .strict size (tokensFrom .strict offset pieces) =
    next.run .strict size (tokensFrom .strict offset' rest)

/-- Reading on from a state ends in a fault. -/
def Fails (size : Nat) (first : Reading) (pieces : List Piece) : Prop :=
  ∀ offset, ∃ fault, first.run .strict size (tokensFrom .strict offset pieces) = .error fault

/-- Reading on from a state leads to another one under a condition, and ends in a fault without. -/
def Reads (size : Nat) (condition : Prop) (first : Reading) (pieces : List Piece) (next : Reading)
    (rest : List Piece) : Prop :=
  (condition → Reaches size first pieces next rest) ∧ (¬ condition → Fails size first pieces)

theorem Reaches.refl (size : Nat) (first : Reading) (pieces : List Piece) :
    Reaches size first pieces first pieces :=
  fun offset => ⟨offset, rfl⟩

theorem Reaches.trans (hfirst : Reaches size first pieces next more)
    (hnext : Reaches size next more last rest) : Reaches size first pieces last rest := by
  intro offset
  obtain ⟨middle, hmiddle⟩ := hfirst offset
  obtain ⟨offset', hlast⟩ := hnext middle
  exact ⟨offset', hmiddle.trans hlast⟩

theorem Reaches.fails (hfirst : Reaches size first pieces next rest)
    (hnext : Fails size next rest) : Fails size first pieces := by
  intro offset
  obtain ⟨middle, hmiddle⟩ := hfirst offset
  obtain ⟨fault, hfault⟩ := hnext middle
  exact ⟨fault, hmiddle.trans hfault⟩

theorem Reaches.reads {condition : Prop} (hfirst : Reaches size first pieces next more)
    (hnext : Reads size condition next more last rest) :
    Reads size condition first pieces last rest :=
  ⟨fun hholds => hfirst.trans (hnext.1 hholds), fun hnot => hfirst.fails (hnext.2 hnot)⟩

theorem Reaches.reads_true (hfirst : Reaches size first pieces next rest) :
    Reads size True first pieces next rest :=
  ⟨fun _ => hfirst, fun hnot => absurd trivial hnot⟩

theorem Reads.trans {left right : Prop} (hfirst : Reads size left first pieces next more)
    (hnext : Reads size right next more last rest) :
    Reads size (left ∧ right) first pieces last rest := by
  constructor
  · rintro ⟨hleft, hright⟩
    exact (hfirst.1 hleft).trans (hnext.1 hright)
  · intro hnot
    by_cases hleft : left
    · exact (hfirst.1 hleft).fails (hnext.2 fun hright => hnot ⟨hleft, hright⟩)
    · exact hfirst.2 hleft

/-! ## One token -/

theorem reaches_space (size : Nat) (reading : Reading) (piece : Piece) (hspace : isSpace piece = true)
    (rest : List Piece) : Reaches size reading (piece :: rest) reading rest := by
  intro offset
  exact ⟨offset + 1, by rw [tokensFrom, if_pos hspace]⟩

theorem reaches_newLine (size : Nat) (reading : Reading) (depth : Nat) (rest : List Piece) :
    Reaches size reading ((newLine depth).map .char ++ rest) reading rest := by
  refine (reaches_space size reading (.char '\n') rfl _).trans ?_
  induction 2 * depth with
  | zero => exact Reaches.refl size reading rest
  | succ count ih => exact (reaches_space size reading (.char ' ') rfl _).trans ih

/-- The machine takes the first token of a text. -/
theorem reaches_of_cuts {token : Token} (hcuts : Cuts .strict pieces token rest)
    (hstep : ∀ offset, first.step .strict offset token = .ok next) :
    Reaches size first pieces next rest := by
  intro offset
  obtain ⟨piece, tail, offset', rfl, hspace, hscan⟩ := hcuts offset
  refine ⟨offset', ?_⟩
  rw [tokensFrom, if_neg (by simp [hspace])]
  simp only [hscan, run, hstep]
  rfl

/-! ## One value -/

/-- A value may come next. -/
def AdmitsValue (awaiting : Awaiting) : Prop :=
  awaiting = .value ∨ awaiting = .itemOrEnd ∨ awaiting = .item

variable {stack : List Frame} {awaiting : Awaiting}

theorem step_eq_startValue (hadmits : AdmitsValue awaiting) (token : Token)
    (htoken : token ≠ .closeArray) (offset : Nat) :
    step .strict ⟨stack, awaiting⟩ offset token = startValue .strict stack offset token := by
  -- An array that has no items yet may end here instead, and nothing else may.
  rcases hadmits with rfl | rfl | rfl <;> cases token <;> first | rfl | exact absurd rfl htoken

/-- The machine takes the first token of a value. -/
theorem reaches_of_startValue (hadmits : AdmitsValue awaiting) {token : Token}
    (hcuts : Cuts .strict pieces token rest) (htoken : token ≠ .closeArray)
    (hstart : ∀ offset, startValue .strict stack offset token = .ok next) :
    Reaches size ⟨stack, awaiting⟩ pieces next rest := by
  apply reaches_of_cuts hcuts
  intro offset
  rw [step_eq_startValue hadmits token htoken, hstart]

theorem admits_of_room (hroom : stack.length ≤ depthLimit) :
    Strictness.strict.admits stack = true := by
  simp [Strictness.admits, hroom]

theorem reaches_scalar (hadmits : AdmitsValue awaiting) (hroom : stack.length ≤ depthLimit)
    {value : Json} (hcuts : Cuts .strict pieces (.scalar value) rest) :
    Reaches size ⟨stack, awaiting⟩ pieces (complete stack value) rest := by
  apply reaches_of_startValue hadmits hcuts nofun
  simp [startValue, admits_of_room hroom]

theorem reaches_printString (hadmits : AdmitsValue awaiting) (hroom : stack.length ≤ depthLimit)
    (text : String) :
    Reaches size ⟨stack, awaiting⟩ ((printString text).map .char ++ rest)
      (complete stack (.str text)) rest := by
  apply reaches_of_startValue hadmits (cuts_printString .strict rest text) nofun
  simp [startValue, admits_of_room hroom]

theorem reaches_openArray (hadmits : AdmitsValue awaiting) (hroom : stack.length ≤ depthLimit) :
    Reaches size ⟨stack, awaiting⟩ (.char '[' :: rest) ⟨.array [] :: stack, .itemOrEnd⟩ rest := by
  apply reaches_of_startValue hadmits (cuts_openArray .strict rest) nofun
  simp [startValue, admits_of_room hroom]

theorem reaches_openObject (hadmits : AdmitsValue awaiting) (hroom : stack.length ≤ depthLimit) :
    Reaches size ⟨stack, awaiting⟩ (.char '\x7b' :: rest) ⟨stack, .keyOrEnd []⟩ rest := by
  apply reaches_of_startValue hadmits (cuts_openObject .strict rest) nofun
  simp [startValue, admits_of_room hroom]

/-- A whole number is read if it is short, and ends the reading if it is not. -/
theorem reads_printInt (hadmits : AdmitsValue awaiting) (hroom : stack.length ≤ depthLimit)
    (value : Int) (hrest : EndsNumber rest) :
    Reads size (digitCount value.natAbs ≤ wholeDigitLimit) ⟨stack, awaiting⟩
      ((printInt value).map .char ++ rest) (complete stack (.num (.int value))) rest := by
  refine ⟨fun hshort => reaches_scalar hadmits hroom (cuts_printInt .strict rest hshort hrest), ?_⟩
  intro hlong offset
  -- The scanner stops inside the number, and the machine at the broken token.
  obtain ⟨piece, tail, offset', place, hpieces, hspace, hscan⟩ :=
    scanToken_printInt hrest .strict offset value
  rw [if_neg hlong] at hscan
  refine ⟨⟨.hugeNumber, place⟩, ?_⟩
  rw [hpieces, tokensFrom, if_neg (by simp [hspace])]
  simp only [hscan, run, step_eq_startValue hadmits (.brokenScalar _) (by simp)]
  simp only [startValue, admits_of_room hroom]
  rfl

/-! ## Whole values -/

theorem endsNumber_char {c : Char} (hdigit : digitValue? (.char c) = none)
    (hmark : c ≠ '.' ∧ c ≠ 'e' ∧ c ≠ 'E') : EndsNumber (.char c :: rest) := by
  rintro piece ⟨⟩
  simpa using ⟨hdigit, hmark⟩

theorem endsNumber_items (depth : Nat) (items : List Json) :
    EndsNumber ((indentedItems depth items).map .char ++ rest) := by
  cases items with
  | nil => exact endsNumber_char rfl (by decide)
  | cons item items => exact endsNumber_char rfl (by decide)

theorem endsNumber_fields (depth : Nat) (fields : List (String × Json)) :
    EndsNumber ((indentedFields depth fields).map .char ++ rest) := by
  cases fields with
  | nil => exact endsNumber_char rfl (by decide)
  | cons field fields => exact endsNumber_char rfl (by decide)

variable (size)

mutual

/-- A written value is read where a value may come, whatever is open and whatever follows. -/
theorem reads_indentedAt : ∀ (value : Json) (room depth : Nat) (stack : List Frame)
    (awaiting : Awaiting) (rest : List Piece), IsPlain room value →
      stack.length + room ≤ depthLimit → AdmitsValue awaiting → EndsNumber rest →
      Reads size (IsShort value) ⟨stack, awaiting⟩ ((indentedAt depth value).map .char ++ rest)
        (complete stack value) rest
  | .null, _, _, _, _, rest, _, hroom, hadmits, _ =>
      (reaches_scalar hadmits (by omega) (cuts_null .strict rest)).reads_true
  | .bool true, _, _, _, _, rest, _, hroom, hadmits, _ =>
      (reaches_scalar hadmits (by omega) (cuts_true .strict rest)).reads_true
  | .bool false, _, _, _, _, rest, _, hroom, hadmits, _ =>
      (reaches_scalar hadmits (by omega) (cuts_false .strict rest)).reads_true
  | .num (.int value), _, _, _, _, _, _, hroom, hadmits, hrest =>
      reads_printInt hadmits (by omega) value hrest
  | .str text, _, _, _, _, _, _, hroom, hadmits, _ =>
      (reaches_printString hadmits (by omega) text).reads_true
  | .arr [], room + 1, _, _, _, rest, _, hroom, hadmits, _ =>
      ((reaches_openArray hadmits (by omega)).trans
        (reaches_of_cuts (cuts_closeArray .strict rest) fun _ => rfl)).reads_true
  | .arr (item :: items), room + 1, depth, stack, _, rest, hplain, hroom, hadmits, _ => by
      -- What follows an item is a comma or a line break, so a number ends there.
      have hitem := reads_indentedAt item room (depth + 1) (.array [] :: stack) .itemOrEnd
        ((indentedItems depth items).map .char ++ rest) hplain.1
        (by rw [List.length_cons]; omega) (.inr (.inl rfl)) (endsNumber_items depth items)
      have hitems := reads_indentedItems items room depth [item] stack rest hplain.2 hroom
      simp only [indentedAt, List.map_cons, List.map_append, List.cons_append, List.append_assoc]
      refine (reaches_openArray hadmits (by omega)).reads ?_
      exact (reaches_newLine size _ (depth + 1) _).reads (hitem.trans hitems)
  | .obj [], room + 1, _, _, _, rest, _, hroom, hadmits, _ =>
      ((reaches_openObject hadmits (by omega)).trans
        (reaches_of_cuts (cuts_closeObject .strict rest) fun _ => rfl)).reads_true
  | .obj ((key, value) :: fields), room + 1, depth, stack, _, rest, hplain, hroom, hadmits, _ => by
      have hfield := reads_indentedField (key, value) room depth [] stack (.keyOrEnd [])
        ((indentedFields depth fields).map .char ++ rest) hplain.1 hroom (.inl rfl)
        (endsNumber_fields depth fields)
      have hfields :=
        reads_indentedFields fields room depth [(key, value)] stack rest hplain.2 hroom
      simp only [indentedAt, List.map_cons, List.map_append, List.cons_append, List.append_assoc]
      refine (reaches_openObject hadmits (by omega)).reads ?_
      exact (reaches_newLine size _ (depth + 1) _).reads (hfield.trans hfields)

/-- The items after some that were read, and the bracket. -/
theorem reads_indentedItems : ∀ (items : List Json) (room depth : Nat) (read : List Json)
    (stack : List Frame) (rest : List Piece), ArePlain room items →
      stack.length + (room + 1) ≤ depthLimit →
      Reads size (AreShort items) ⟨.array read :: stack, .commaOrArrayEnd⟩
        ((indentedItems depth items).map .char ++ rest)
        (complete stack (.arr (read.reverse ++ items))) rest
  | [], _, depth, read, stack, rest, _, _ => by
      simp only [indentedItems, List.map_append, List.append_assoc, List.append_nil]
      exact ((reaches_newLine size _ depth _).trans
        (reaches_of_cuts (cuts_closeArray .strict rest) fun _ => rfl)).reads_true
  | item :: items, room, depth, read, stack, rest, hplain, hroom => by
      have hcomma : Reaches size ⟨.array read :: stack, .commaOrArrayEnd⟩ (.char ',' ::
          ((newLine (depth + 1)).map .char ++ ((indentedAt (depth + 1) item).map .char ++
            ((indentedItems depth items).map .char ++ rest)))) ⟨.array read :: stack, .item⟩ _ :=
        reaches_of_cuts (cuts_comma .strict _) fun _ => rfl
      have hitem := reads_indentedAt item room (depth + 1) (.array read :: stack) .item
        ((indentedItems depth items).map .char ++ rest) hplain.1
        (by rw [List.length_cons]; omega) (.inr (.inr rfl)) (endsNumber_items depth items)
      have hitems := reads_indentedItems items room depth (item :: read) stack rest hplain.2 hroom
      rw [List.reverse_cons, List.append_assoc, List.singleton_append] at hitems
      simp only [indentedItems, List.map_cons, List.map_append, List.cons_append,
        List.append_assoc]
      refine hcomma.reads ?_
      exact (reaches_newLine size _ (depth + 1) _).reads (hitem.trans hitems)

/-- The fields after some that were read, and the brace. -/
theorem reads_indentedFields : ∀ (fields : List (String × Json)) (room depth : Nat)
    (read : List (String × Json)) (stack : List Frame) (rest : List Piece),
      FieldsArePlain room fields → stack.length + (room + 1) ≤ depthLimit →
      Reads size (FieldsAreShort fields) ⟨stack, .commaOrObjectEnd read⟩
        ((indentedFields depth fields).map .char ++ rest)
        (complete stack (.obj (read.reverse ++ fields))) rest
  | [], _, depth, read, stack, rest, _, _ => by
      simp only [indentedFields, List.map_append, List.append_assoc, List.append_nil]
      exact ((reaches_newLine size _ depth _).trans
        (reaches_of_cuts (cuts_closeObject .strict rest) fun _ => rfl)).reads_true
  | (key, value) :: fields, room, depth, read, stack, rest, hplain, hroom => by
      have hcomma : Reaches size ⟨stack, .commaOrObjectEnd read⟩ (.char ',' ::
          ((newLine (depth + 1)).map .char ++ ((indentedField depth (key, value)).map .char ++
            ((indentedFields depth fields).map .char ++ rest)))) ⟨stack, .key read⟩ _ :=
        reaches_of_cuts (cuts_comma .strict _) fun _ => rfl
      have hfield := reads_indentedField (key, value) room depth read stack (.key read)
        ((indentedFields depth fields).map .char ++ rest) hplain.1 hroom (.inr rfl)
        (endsNumber_fields depth fields)
      have hfields :=
        reads_indentedFields fields room depth ((key, value) :: read) stack rest hplain.2 hroom
      rw [List.reverse_cons, List.append_assoc, List.singleton_append] at hfields
      simp only [indentedFields, List.map_cons, List.map_append, List.cons_append,
        List.append_assoc]
      refine hcomma.reads ?_
      exact (reaches_newLine size _ (depth + 1) _).reads (hfield.trans hfields)

/-- A key and its value, where a key may come. -/
theorem reads_indentedField : ∀ (field : String × Json) (room depth : Nat)
    (read : List (String × Json)) (stack : List Frame) (awaiting : Awaiting) (rest : List Piece),
      IsPlain room field.2 → stack.length + (room + 1) ≤ depthLimit →
      awaiting = .keyOrEnd read ∨ awaiting = .key read → EndsNumber rest →
      Reads size (IsShort field.2) ⟨stack, awaiting⟩ ((indentedField depth field).map .char ++ rest)
        ⟨stack, .commaOrObjectEnd (field :: read)⟩ rest
  | (key, value), room, depth, read, stack, awaiting, rest, hplain, hroom, hkey, hrest => by
      have hname : Reaches size ⟨stack, awaiting⟩ ((printString key).map .char ++ (.char ':' ::
          .char ' ' :: ((indentedAt (depth + 1) value).map .char ++ rest)))
          ⟨.object read key :: stack, .colon⟩ _ :=
        reaches_of_cuts (cuts_printString .strict _ key) fun _ => by rcases hkey with rfl | rfl <;> rfl
      have hcolon : Reaches size ⟨.object read key :: stack, .colon⟩ (.char ':' ::
          .char ' ' :: ((indentedAt (depth + 1) value).map .char ++ rest))
          ⟨.object read key :: stack, .value⟩ _ :=
        reaches_of_cuts (cuts_colon .strict _) fun _ => rfl
      have hvalue := reads_indentedAt value room (depth + 1) (.object read key :: stack) .value rest
        hplain (by rw [List.length_cons]; omega) (.inl rfl) hrest
      simp only [indentedField, List.map_cons, List.map_append, List.cons_append,
        List.append_assoc]
      refine (hname.trans hcolon).reads ?_
      exact (reaches_space size _ (.char ' ') rfl _).reads hvalue

end

end Reading

/-! ## Whole documents -/

/-- **What comes of reading a written value.**  It is the value itself if all its numbers are short,
and a fault if one of them is not. -/
theorem read_indented {value : Json} (hplain : IsPlain depthLimit value) :
    (IsShort value → read .strict (value.indented.toList.map .char) = .ok value) ∧
      (¬ IsShort value →
        ∃ fault, read .strict (value.indented.toList.map .char) = .error fault) := by
  have hends : EndsNumber [] := by
    intro piece hmem
    exact absurd hmem (by simp)
  have hreads := Reading.reads_indentedAt (octetCount (value.indented.toList.map .char)) value
    depthLimit 0 [] .value [] hplain (by simp) (.inl rfl) hends
  rw [List.append_nil] at hreads
  simp only [indented, String.toList_ofList] at hreads ⊢
  constructor
  · intro hshort
    obtain ⟨offset', hrun⟩ := hreads.1 hshort 0
    rw [read, Reading.start, hrun, tokensFrom]
    rfl
  · intro hlong
    exact hreads.2 hlong 0

end TypeAtlas.Json
