/-!
# The order of texts

The first character that differs decides which of two texts comes first, and the end of a text comes
before every character.  Any two texts are in order one way or the other, `charsLe_total`, and the
order is transitive, `charsLe_trans`, so that sorting by it is determined up to equal keys.  Texts
that are in order both ways are the same, `le_antisymm`.
-/

namespace TypeAtlas.Text

/-- Whether the characters of one text come before those of another, or are the same. -/
def charsLe : List Char → List Char → Bool
  | [], _ => true
  | _ :: _, [] => false
  | c :: rest, d :: more => if c = d then charsLe rest more else decide (c.toNat < d.toNat)

/-- Whether a text comes before another, or is the same. -/
def le (text other : String) : Bool := charsLe text.toList other.toList

theorem charsLe_total (chars others : List Char) :
    (charsLe chars others || charsLe others chars) = true := by
  induction chars generalizing others with
  | nil => rfl
  | cons c rest ih =>
    cases others with
    | nil => rfl
    | cons d more =>
      by_cases hsame : c = d
      · subst hsame
        simpa [charsLe] using ih more
      · have hdiffer : c.toNat ≠ d.toNat := fun hnat => hsame (Char.toNat_inj.mp hnat)
        have hother : ¬ d = c := fun hdc => hsame hdc.symm
        simp only [charsLe, hsame, hother, if_false, Bool.or_eq_true, decide_eq_true_eq]
        omega

theorem charsLe_trans {chars others third : List Char} (hfirst : charsLe chars others = true)
    (hnext : charsLe others third = true) : charsLe chars third = true := by
  induction chars generalizing others third with
  | nil => rfl
  | cons c rest ih =>
    cases others with
    | nil => simp [charsLe] at hfirst
    | cons d more =>
      cases third with
      | nil => simp [charsLe] at hnext
      | cons e last =>
        by_cases hcd : c = d <;> by_cases hde : d = e
        · subst hcd
          subst hde
          simp only [charsLe, if_true] at hfirst hnext ⊢
          exact ih hfirst hnext
        · subst hcd
          simpa [charsLe, hde] using hnext
        · subst hde
          simpa [charsLe, hcd] using hfirst
        · simp only [charsLe, hcd, hde, if_false, decide_eq_true_eq] at hfirst hnext
          have hce : ¬ c = e := by
            intro hsame
            subst hsame
            omega
          simp only [charsLe, hce, if_false, decide_eq_true_eq]
          omega

theorem charsLe_antisymm {chars others : List Char} (hforth : charsLe chars others = true)
    (hback : charsLe others chars = true) : chars = others := by
  induction chars generalizing others with
  | nil =>
    cases others with
    | nil => rfl
    | cons d more => simp [charsLe] at hback
  | cons c rest ih =>
    cases others with
    | nil => simp [charsLe] at hforth
    | cons d more =>
      by_cases hsame : c = d
      · subst hsame
        simp only [charsLe, if_true] at hforth hback
        rw [ih hforth hback]
      · have hother : ¬ d = c := fun hdc => hsame hdc.symm
        simp only [charsLe, hsame, hother, if_false, decide_eq_true_eq] at hforth hback
        omega

theorem le_antisymm {text other : String} (hforth : le text other = true)
    (hback : le other text = true) : text = other :=
  String.toList_inj.mp (charsLe_antisymm hforth hback)

end TypeAtlas.Text
