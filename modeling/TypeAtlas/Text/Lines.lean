/-!
# Line ends

A text that is read from disk has one line end, the newline: a carriage return is read as a newline,
and a carriage return with the newline after it as one newline.
-/

namespace TypeAtlas.Text

/-- The characters with every line end written as a newline. -/
def unifyLineEnds : List Char → List Char
  | [] => []
  | '\r' :: '\n' :: rest => '\n' :: unifyLineEnds rest
  | c :: rest => (if c = '\r' then '\n' else c) :: unifyLineEnds rest

theorem return_not_mem_unifyLineEnds (chars : List Char) : '\r' ∉ unifyLineEnds chars := by
  fun_induction unifyLineEnds chars with
  | case1 => exact List.not_mem_nil
  | case2 rest ih => simpa using ih
  | case3 c rest _ ih =>
    rw [List.mem_cons, not_or]
    refine ⟨?_, ih⟩
    split
    · decide
    next hc => exact Ne.symm hc

/-- Only carriage returns are changed. -/
theorem unifyLineEnds_eq_self_iff {chars : List Char} :
    unifyLineEnds chars = chars ↔ '\r' ∉ chars := by
  constructor
  · intro hself
    exact hself ▸ return_not_mem_unifyLineEnds chars
  · intro hreturn
    fun_induction unifyLineEnds chars with
    | case1 => rfl
    | case2 rest ih => exact absurd List.mem_cons_self hreturn
    | case3 c rest _ ih =>
      rw [List.mem_cons, not_or] at hreturn
      rw [if_neg (Ne.symm hreturn.1), ih hreturn.2]

def endsWith (text ending : String) : Bool :=
  ending.toList.isSuffixOf text.toList

def startsWith (text beginning : String) : Bool :=
  beginning.toList.isPrefixOf text.toList

/-- The parts of a list between the occurrences of a separator; there is always one part more than
there are separators. -/
def splitOn [BEq α] (separator : α) : List α → List (List α)
  | [] => [[]]
  | item :: rest =>
    if item == separator then [] :: splitOn separator rest
    else
      match splitOn separator rest with
      | [] => [[item]]
      | part :: parts => (item :: part) :: parts

/-- The parts of a text between the occurrences of a separator. -/
def split (separator : Char) (text : String) : List String :=
  (splitOn separator text.toList).map String.ofList

/-- Joins the parts of a text with a separator between them. -/
def join (separator : String) (parts : List String) : String :=
  String.intercalate separator parts

end TypeAtlas.Text
