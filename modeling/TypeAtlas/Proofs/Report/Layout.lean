import Mathlib.Data.List.TakeWhile
import TypeAtlas.Proofs.Text.Digits
import TypeAtlas.Report.Wording

/-!
# The text of a report

A report is a text: some lines, one below the other, and what is missing of them is white space at
the end (`Report.Shows`).  Its lines are told apart by their first characters.  A heading begins
with a number sign, a line with figures of the whole report with a star, and the items of a section
with a minus or a plus; behind that a line may hold any names.

So a section can be looked for by its heading, which a report has once or not at all
(`Report.HasSection`).  Changes are written with a sign, each number in a way of its own
(`Report.withSign_injective`).
-/

namespace TypeAtlas

namespace Report

/-! ## Lines -/

/-- White space: tabs, line ends, separators and blanks of any width. -/
def IsSpace (c : Char) : Prop :=
  c.toNat ∈ [0x09, 0x0A, 0x0B, 0x0C, 0x0D, 0x1C, 0x1D, 0x1E, 0x1F, 0x20, 0x85, 0xA0, 0x1680] ∨
    0x2000 ≤ c.toNat ∧ c.toNat ≤ 0x200A ∨ c.toNat ∈ [0x2028, 0x2029, 0x202F, 0x205F, 0x3000]

theorem isSpace_of_isBlank {c : Char} (hblank : Text.isBlank c = true) : IsSpace c := by
  simp only [Text.isBlank, Bool.or_eq_true, Bool.and_eq_true, decide_eq_true_eq, beq_iff_eq]
    at hblank
  simp only [IsSpace, List.mem_cons, List.not_mem_nil, or_false]
  omega

/-- A text is some lines, one below the other, but for white space at the end. -/
def Shows (text : String) (lines : List String) : Prop :=
  ∃ spaces : List Char, (∀ c ∈ spaces, IsSpace c) ∧
    text ++ String.ofList spaces = String.intercalate "\n" lines

theorem shows_layOut (lines : List String) : Shows (layOut lines) lines := by
  let chars := (Text.join "\n" lines).toList.reverse
  refine ⟨(chars.takeWhile Text.isBlank).reverse, ?_, ?_⟩
  · intro c hc
    exact isSpace_of_isBlank (List.mem_takeWhile_imp (List.mem_reverse.mp hc))
  · have hchars : (chars.dropWhile Text.isBlank).reverse ++
        (chars.takeWhile Text.isBlank).reverse = (Text.join "\n" lines).toList := by
      rw [← List.reverse_append, List.takeWhile_append_dropWhile, List.reverse_reverse]
    rw [layOut, Text.trimEnd, ← String.ofList_append]
    exact (congrArg String.ofList hchars).trans String.ofList_toList

/-- A text that ends in something else than a blank has nothing to trim at its end. -/
theorem trimEnd_eq_self {text : String} {c : Char} (hlast : text.toList.getLast? = some c)
    (hc : Text.isBlank c = false) : Text.trimEnd text = text := by
  obtain ⟨chars, hchars⟩ := List.getLast?_eq_some_iff.mp hlast
  rw [Text.trimEnd, Text.dropTrailingBlanks, Text.dropBlanks, hchars, List.reverse_append,
    List.reverse_singleton, List.singleton_append, List.dropWhile_cons_of_neg (by simp [hc]),
    ← List.singleton_append, List.reverse_append, List.reverse_reverse, List.reverse_singleton,
    ← hchars, String.ofList_toList]

/-- Nothing is missing of lines of which the last one ends in a full stop. -/
theorem layOut_append_singleton {lines : List String} (hlines : lines ≠ []) {last : String}
    (hlast : last.toList.getLast? = some '.') :
    layOut (lines ++ [last]) = String.intercalate "\n" (lines ++ [last]) := by
  apply trimEnd_eq_self (c := '.') _ (by decide)
  rw [Text.join, String.intercalate_append_of_ne_nil hlines (by simp), String.intercalate_singleton,
    String.toList_append, List.getLast?_append, hlast]
  rfl

/-! ## Numbers -/

/-- A difference in decimal digits, with a sign unless it is zero. -/
def withSign (difference : Int) : String :=
  if difference = 0 then "0"
  else (if 0 < difference then "+" else "-") ++ toString difference.natAbs

theorem signed_eq_withSign (difference : Int) : signed difference = withSign difference := by
  rw [signed, withSign]
  rcases difference with (- | n) | n
  · rfl
  · have hpos : 0 < Int.ofNat (n + 1) := Int.natCast_pos.mpr n.succ_pos
    rw [if_pos hpos, if_neg (Int.ne_of_gt hpos), if_pos hpos]
    rfl
  · have hneg : ¬ 0 < Int.negSucc n := Int.not_lt.mpr (Int.le_of_lt (Int.negSucc_lt_zero n))
    rw [if_neg hneg, if_neg (Int.negSucc_ne_zero n), if_neg hneg]
    rfl

theorem head?_withSign (difference : Int) : (withSign difference).toList.head? =
    some (if difference = 0 then '0' else if 0 < difference then '+' else '-') := by
  unfold withSign
  split
  · rfl
  · rw [String.toList_append]
    split <;> rfl

/-- **What is printed of a difference tells the difference.** -/
theorem withSign_injective : Function.Injective withSign := by
  intro first second hsame
  have hhead := congrArg (fun text => text.toList.head?) hsame
  simp only [head?_withSign, Option.some_inj] at hhead
  -- The first character tells the sign, and the others the rest of the number.
  have hsign : (first = 0 ↔ second = 0) ∧ (0 < first ↔ 0 < second) := by
    grind
  by_cases hzero : first = 0
  · rw [hzero, hsign.1.mp hzero]
  · rw [withSign, withSign, if_neg hzero, if_neg (mt hsign.1.mpr hzero)] at hsame
    simp only [hsign.2] at hsame
    have hdigits : Nat.toDigits 10 first.natAbs = Nat.toDigits 10 second.natAbs := by
      rw [← Nat.toList_repr, ← Nat.toList_repr]
      exact congrArg String.toList ((String.append_right_inj _).mp hsame)
    have habs : first.natAbs = second.natAbs := calc
      first.natAbs = Nat.ofDigitChars 10 (Nat.toDigits 10 first.natAbs) 0 :=
        Nat.ofDigitChars_ten_toDigits.symm
      _ = Nat.ofDigitChars 10 (Nat.toDigits 10 second.natAbs) 0 := by rw [hdigits]
      _ = second.natAbs := Nat.ofDigitChars_ten_toDigits
    omega

/-- A number of types in words. -/
def typeCount (count : Nat) : String :=
  toString count ++ if count ≤ 1 then " type" else " types"

theorem counted_type (count : Nat) : counted count "type" = typeCount count := by
  rw [counted, typeCount]
  by_cases hone : count ≤ 1
  · rw [if_neg (Nat.not_lt.mpr hone), if_pos hone, String.append_assoc, String.append_assoc]
    rfl
  · rw [if_pos (Nat.not_le.mp hone), if_neg hone, String.append_assoc, String.append_assoc]
    rfl

/-! ## Beginnings of lines -/

/-- A line has a first character. -/
def Begins (first : Char) (line : String) : Prop := line.toList.head? = some first

instance (first : Char) (line : String) : Decidable (Begins first line) :=
  inferInstanceAs (Decidable (_ = _))

theorem Begins.append {first : Char} {line : String} (hline : Begins first line) (more : String) :
    Begins first (line ++ more) := by
  rw [Begins, String.toList_append, List.head?_append, hline]
  rfl

theorem Begins.eq {first other : Char} {line : String} (hline : Begins first line)
    (hother : Begins other line) : first = other :=
  Option.some.inj (hline.symm.trans hother)

/-- Headings, and no other lines, begin with a number sign. -/
abbrev IsHeading (line : String) : Prop := Begins '#' line

/-- The lines with figures of the whole report, and no others, begin with a star. -/
abbrev IsFigure (line : String) : Prop := Begins '*' line

/-- The items of a section begin with a minus, or a plus if they are new. -/
def IsItem (line : String) : Prop := Begins '-' line ∨ Begins '+' line

instance (line : String) : Decidable (IsItem line) := inferInstanceAs (Decidable (_ ∨ _))

variable {heading other line : String} {lines : List String}

theorem IsItem.append (hline : IsItem line) (more : String) : IsItem (line ++ more) :=
  hline.imp (·.append more) (·.append more)

theorem IsItem.not_isHeading (hline : IsItem line) : ¬ IsHeading line := by
  intro hheading
  rcases hline with hline | hline
  · exact absurd (hline.eq hheading) (by decide)
  · exact absurd (hline.eq hheading) (by decide)

theorem IsItem.not_isFigure (hline : IsItem line) : ¬ IsFigure line := by
  intro hfigure
  rcases hline with hline | hline
  · exact absurd (hline.eq hfigure) (by decide)
  · exact absurd (hline.eq hfigure) (by decide)

theorem IsFigure.not_isHeading (hline : IsFigure line) : ¬ IsHeading line :=
  fun hheading => absurd (hline.eq hheading) (by decide)

theorem IsFigure.not_isHeading_append (hline : IsFigure line) (more : String) :
    ¬ IsHeading (line ++ more) :=
  IsFigure.not_isHeading (hline.append more)

theorem IsHeading.not_mem (hheading : IsHeading heading)
    (hlines : ∀ line ∈ lines, ¬ IsHeading line) : heading ∉ lines :=
  fun hmem => hlines heading hmem hheading

/-! ## Sections -/

/-- The lines of a report have one section under a heading: the heading and an empty line, the given
lines, and another empty line.  If there are no lines, the heading is not there either. -/
structure HasSection (report : List String) (heading : String) (lines : List String) : Prop where
  exists_around : ∃ above below,
    report = above ++ (if lines = [] then [] else heading :: "" :: (lines ++ [""])) ++ below ∧
      heading ∉ above ∧ heading ∉ below
  not_mem : heading ∉ lines

theorem titled_eq (heading : String) (lines : List String) :
    titled heading lines = if lines = [] then [] else heading :: "" :: (lines ++ [""]) := by
  simp only [titled, List.isEmpty_iff]

theorem mem_titled (hline : line ∈ titled heading lines) :
    line = heading ∨ line = "" ∨ line ∈ lines := by
  rw [titled_eq] at hline
  split at hline
  · exact absurd hline List.not_mem_nil
  · simp only [List.mem_cons, List.mem_append, List.not_mem_nil, or_false] at hline
    grind

/-- In a report that is made of sections of items, each section is found under its heading. -/
theorem hasSection_of_mem {sections : List (String × List String)} {opening ending : List String}
    (hdistinct : (sections.map Prod.fst).Nodup)
    (hitems : ∀ part ∈ sections, ∀ line ∈ part.2, IsItem line)
    (hopening : heading ∉ opening) (hending : heading ∉ ending) (hheading : IsHeading heading)
    (hmem : (heading, lines) ∈ sections) :
    HasSection (opening ++ sections.flatMap (fun part => titled part.1 part.2) ++ ending) heading
      lines := by
  obtain ⟨before, after, rfl⟩ := List.append_of_mem hmem
  rw [List.map_append, List.map_cons, List.perm_middle.nodup_iff, List.nodup_cons, List.mem_append,
    not_or] at hdistinct
  obtain ⟨⟨hbefore, hafter⟩, -⟩ := hdistinct
  have hnotItem : ∀ part ∈ before ++ (heading, lines) :: after, heading ∉ part.2 :=
    fun part hpart => hheading.not_mem fun line hline => (hitems part hpart line hline).not_isHeading
  have hother : ∀ parts ⊆ before ++ (heading, lines) :: after, heading ∉ parts.map Prod.fst →
      heading ∉ parts.flatMap fun part => titled part.1 part.2 := by
    intro parts hparts hnames hfound
    obtain ⟨part, hpart, htitled⟩ := List.mem_flatMap.mp hfound
    rcases mem_titled htitled with rfl | rfl | hitem
    · exact hnames (List.mem_map_of_mem hpart)
    · exact absurd hheading (by decide)
    · exact hnotItem part (hparts hpart) hitem
  constructor
  · refine ⟨opening ++ before.flatMap fun part => titled part.1 part.2,
      (after.flatMap fun part => titled part.1 part.2) ++ ending, by simp [titled_eq], ?_, ?_⟩
    · rw [List.mem_append, not_or]
      exact ⟨hopening, hother before (List.subset_append_left _ _) hbefore⟩
    · rw [List.mem_append, not_or]
      refine ⟨hother after ?_ hafter, hending⟩
      exact List.Subset.trans (List.subset_cons_self _ _) (List.subset_append_right _ _)
  · exact hnotItem (heading, lines) hmem

/-- Sections of items have no lines with figures of the whole report. -/
theorem not_isFigure_of_mem_sections {sections : List (String × List String)}
    (hheadings : ∀ heading ∈ sections.map Prod.fst, IsHeading heading)
    (hitems : ∀ part ∈ sections, ∀ line ∈ part.2, IsItem line) :
    ∀ line ∈ sections.flatMap (fun part => titled part.1 part.2), ¬ IsFigure line := by
  intro line hline
  obtain ⟨part, hpart, htitled⟩ := List.mem_flatMap.mp hline
  rcases mem_titled htitled with rfl | rfl | hitem
  · exact fun hfigure => hfigure.not_isHeading (hheadings part.1 (List.mem_map_of_mem hpart))
  · decide
  · exact (hitems part hpart line hitem).not_isFigure

end Report
end TypeAtlas
