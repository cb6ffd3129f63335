import TypeAtlas.Calendar.Reading
import TypeAtlas.Json.Token

/-!
# Runs of decimal digits

Numbers are written with `Nat.toDigits 10` and read one digit at a time, in documents by
`Json.scanDigits` and in points of time by `Timestamp.digit?`.  Both readers keep a running value,
so what a run of digits means to them is `Nat.ofDigitChars`, and that this inverts `Nat.toDigits 10`
is a fact of the standard library.
-/

namespace TypeAtlas

open Utf8 (Piece)

/-! ## One digit -/

theorem Timestamp.digit?_of_isDigit {c : Char} (hdigit : c.isDigit = true) :
    digit? c = some (c.toNat - 48) := by
  simp only [Char.isDigit, Bool.and_eq_true, decide_eq_true_eq] at hdigit
  have hlow : 48 ≤ c.toNat := hdigit.1
  have hhigh : c.toNat ≤ 57 := hdigit.2
  simp [digit?, hlow, hhigh]

theorem Json.digitValue?_char (c : Char) : digitValue? (.char c) = Timestamp.digit? c := rfl

theorem isDigit_digitChar {n : Nat} (hn : n < 10) : n.digitChar.isDigit = true :=
  Nat.isDigit_of_mem_toDigits (b := 10) (n := n) (by decide) (by decide)
    (by simp [Nat.toDigits_of_lt_base hn])

theorem isDigit_toDigits {n : Nat} {c : Char} (hmem : c ∈ Nat.toDigits 10 n) : c.isDigit = true :=
  Nat.isDigit_of_mem_toDigits (by decide) (by decide) hmem

/-! ## Whole runs -/

/-- How many decimal digits a number has. -/
def digitCount (n : Nat) : Nat := (Nat.toDigits 10 n).length

/-- The least number with more than so many digits. -/
def leastLonger (count : Nat) : Nat := Nat.pow 10 count

theorem leastLonger_pos (count : Nat) : 0 < leastLonger count := Nat.pow_pos (by decide)

theorem lt_digitCount_leastLonger {count : Nat} (hcount : 0 < count) :
    count < digitCount (leastLonger count) := by
  rw [← Nat.not_le, digitCount, Nat.length_toDigits_le_iff (by decide) hcount]
  exact Nat.lt_irrefl (leastLonger count)

/-- What is left of a text after a number cannot be taken for more of it. -/
def Json.EndsNumber (rest : List Piece) : Prop :=
  ∀ piece ∈ rest.head?, digitValue? piece = none ∧ piece ≠ .char '.' ∧ piece ≠ .char 'e' ∧
    piece ≠ .char 'E'

theorem Json.scanDigits_digits {digits : List Char} (hdigits : ∀ c ∈ digits, c.isDigit = true)
    {rest : List Piece} (hrest : EndsNumber rest) (value count : Nat) :
    scanDigits value count (digits.map .char ++ rest) =
      ⟨Nat.ofDigitChars 10 digits value, count + digits.length, rest⟩ := by
  induction digits generalizing value count with
  | nil =>
      cases rest with
      | nil => rfl
      | cons piece rest =>
          have hnone := (hrest piece rfl).1
          simp [scanDigits, hnone]
  | cons c digits ih =>
      have hc := Timestamp.digit?_of_isDigit (hdigits c (List.mem_cons_self ..))
      have htail := ih (fun other hother => hdigits other (List.mem_cons_of_mem _ hother))
      simp only [List.map_cons, List.cons_append, scanDigits, digitValue?_char, hc, htail,
        Nat.ofDigitChars_cons, List.length_cons]
      congr 1
      · rw [Nat.mul_comm]
        rfl
      · omega

/-- A number is written without a zero in front, except zero itself. -/
theorem exists_toDigits_eq_cons {n : Nat} (hn : 0 < n) :
    ∃ c digits, Nat.toDigits 10 n = c :: digits ∧ c ≠ '0' := by
  induction n using Nat.strongRecOn with
  | ind n ih =>
      rw [Nat.toDigits_eq_if (by decide)]
      split
      · rename_i hlt
        refine ⟨_, [], rfl, fun hzero => ?_⟩
        have hcode := congrArg Char.toNat hzero
        rw [Nat.toNat_digitChar_of_lt_ten hlt, show '0'.toNat = 48 from rfl] at hcode
        omega
      · obtain ⟨c, digits, hdigits, hc⟩ := ih (n / 10) (by omega) (by omega)
        exact ⟨c, digits ++ [(n % 10).digitChar], by rw [hdigits]; rfl, hc⟩

end TypeAtlas
