import TypeAtlas.Proofs.Text.Digits

/-!
# Written points in time are read back

`ofText_render` says that reading the written form of a point in time gives that point again, if its
distance from UTC is a whole number of minutes and less than a day: that is all that the written
form can hold of a distance.

The parts of the written form are padded numbers with marks between them.  Each reader of a part is
shown to take the padded number and nothing more, whatever follows, and the parts are put together
in the order in which `Timestamp.fullParts?` reads them.
-/

namespace TypeAtlas.Timestamp

/-- The distance from UTC, if it is known, is a whole number of minutes and less than a day. -/
def HasMinuteZone (time : Timestamp) : Prop :=
  ∀ seconds ∈ time.offset, (60 : Int) ∣ seconds ∧ seconds.natAbs < 86400

/-! ## Padded numbers -/

theorem digit?_digitChar {n : Nat} (hn : n < 10) : digit? n.digitChar = some n := by
  rw [digit?_of_isDigit (isDigit_digitChar hn), Nat.toNat_digitChar_sub_48_of_lt_ten hn]

theorem padded_one {n : Nat} (hn : n < 10) : padded 1 n = [n.digitChar] := by
  simp [padded, Nat.toDigits_of_lt_base hn]

/-- The last digit of a padded number stands behind what is padded of the others. -/
theorem padded_succ {width : Nat} (hwidth : 0 < width) (n : Nat) :
    padded (width + 1) n = padded width (n / 10) ++ [(n % 10).digitChar] := by
  rcases Nat.lt_or_ge n 10 with hn | hn
  · obtain ⟨width, rfl⟩ := Nat.exists_eq_succ_of_ne_zero (Nat.pos_iff_ne_zero.mp hwidth)
    rw [Nat.div_eq_of_lt hn, Nat.mod_eq_of_lt hn]
    simp [padded, Nat.toDigits_of_lt_base hn, List.replicate_succ', List.append_assoc]
  · simp [padded, Nat.toDigits_of_base_le (by decide) hn, List.append_assoc]

theorem padded_two {n : Nat} (hn : n < 100) :
    padded 2 n = [(n / 10).digitChar, (n % 10).digitChar] := by
  rw [padded_succ (by decide), padded_one (by omega)]
  rfl

theorem padded_four {n : Nat} (hn : n < 10000) :
    padded 4 n = [(n / 1000).digitChar, (n / 100 % 10).digitChar, (n / 10 % 10).digitChar,
      (n % 10).digitChar] := by
  rw [padded_succ (by decide), padded_succ (by decide), padded_two (by omega)]
  simp [Nat.div_div_eq_div_mul]

theorem isDigit_of_mem_padded {width n : Nat} {c : Char} (hmem : c ∈ padded width n) :
    c.isDigit = true := by
  rcases List.mem_append.mp hmem with hzero | hdigit
  · rw [List.eq_of_mem_replicate hzero]
    rfl
  · exact isDigit_toDigits hdigit

theorem length_padded {width n : Nat} (hn : digitCount n ≤ width) :
    (padded width n).length = width := by
  rw [digitCount] at hn
  simp only [padded, List.length_append, List.length_replicate]
  omega

theorem foldl_digits {digits : List Char} (hdigits : ∀ c ∈ digits, c.isDigit = true) (value : Nat) :
    (digits.filterMap digit?).foldl (fun value digit => 10 * value + digit) value =
      Nat.ofDigitChars 10 digits value := by
  induction digits generalizing value with
  | nil => rfl
  | cons c digits ih =>
      rw [List.filterMap_cons, digit?_of_isDigit (hdigits c (List.mem_cons_self ..)),
        List.foldl_cons, ih fun other hother => hdigits other (List.mem_cons_of_mem _ hother),
        Nat.ofDigitChars_cons]
      rfl

theorem digitsValue_padded (width n : Nat) : digitsValue (padded width n) = n := by
  rw [digitsValue, foldl_digits fun _ => isDigit_of_mem_padded, padded, Nat.ofDigitChars_append]
  simp

/-! ## The parts of a written form -/

theorem twoDigits?_padded {n : Nat} (hn : n < 100) (rest : List Char) :
    twoDigits? (padded 2 n ++ rest) = some (n, rest) := by
  rw [padded_two hn]
  simp only [List.cons_append, List.nil_append, twoDigits?, digit?_digitChar (show n / 10 < 10 by omega),
    digit?_digitChar (show n % 10 < 10 by omega), Option.bind_eq_bind, Option.bind_some,
    Option.pure_def, Nat.div_add_mod]

/-- A text does not begin with a digit. -/
def StartsWithoutDigit (rest : List Char) : Prop := ∀ c ∈ rest.head?, digit? c = none

theorem fractionPart?_padded {n : Nat} (hn : n < 1000000) {rest : List Char}
    (hrest : StartsWithoutDigit rest) :
    fractionPart? (padded 6 n ++ rest) = some (n, rest) := by
  have hcount : digitCount n ≤ 6 := (Nat.length_toDigits_le_iff (by decide) (by decide)).mpr hn
  have hlength : (padded 6 n).length = 6 := length_padded hcount
  have htake : (padded 6 n ++ rest).takeWhile (fun c => (digit? c).isSome) = padded 6 n := by
    rw [List.takeWhile_append_of_pos fun c hc => by
      rw [digit?_of_isDigit (isDigit_of_mem_padded hc)]
      rfl]
    cases rest with
    | nil => simp
    | cons c rest => simp [hrest c rfl]
  have hnonempty : (padded 6 n).isEmpty = false := by
    rw [List.isEmpty_eq_false_iff, ← List.length_pos_iff]
    omega
  simp only [fractionPart?, htake, hnonempty]
  simp [microseconds, hlength, digitsValue_padded]

/-- The fraction of a second as it is written. -/
def fractionChars (microsecond : Nat) : List Char :=
  if microsecond = 0 then [] else '.' :: padded 6 microsecond

/-- The distance from UTC as it is written. -/
def zoneChars : Option Int → List Char
  | none => []
  | some seconds => renderOffset seconds

theorem zoneChars_head (zone : Option Int) :
    ∀ c ∈ (zoneChars zone).head?, c = 'Z' ∨ c = '-' ∨ c = '+' := by
  cases zone with
  | none => simp [zoneChars]
  | some seconds =>
      simp only [zoneChars, renderOffset]
      split
      · simp
      · split <;> simp

theorem startsWithoutDigit_zoneChars (zone : Option Int) : StartsWithoutDigit (zoneChars zone) := by
  intro c hc
  rcases zoneChars_head zone c hc with rfl | rfl | rfl <;> rfl

theorem clockPart?_chars {hour minute second microsecond : Nat} (hhour : hour < 24)
    (hminute : minute < 60) (hsecond : second < 60) (hmicrosecond : microsecond < 1000000)
    (zone : Option Int) :
    clockPart? (padded 2 hour ++ ':' :: (padded 2 minute ++ ':' :: (padded 2 second ++
      (fractionChars microsecond ++ zoneChars zone)))) =
      some ((hour, minute, second, microsecond), zoneChars zone) := by
  simp only [clockPart?, twoDigits?_padded (show hour < 100 by omega),
    twoDigits?_padded (show minute < 100 by omega), twoDigits?_padded (show second < 100 by omega),
    Option.bind_eq_bind, Option.bind_some, Option.pure_def]
  by_cases hzero : microsecond = 0
  · subst hzero
    have hhead := zoneChars_head zone
    simp only [fractionChars, if_true, List.nil_append]
    split
    · rename_i heq
      simp [heq] at hhead
    · rename_i heq
      simp [heq] at hhead
    · rfl
  · simp [fractionChars, hzero, fractionPart?_padded hmicrosecond (startsWithoutDigit_zoneChars zone)]

/-- Hours and minutes with a sign are read as the distance that they write. -/
theorem zonePart?_signed (sign : Char) (direction : Int) {minutes : Nat} (hday : minutes < 1440)
    (hsign : ∀ rest, signPart? (sign :: rest) = some (direction, rest)) :
    zonePart? (sign :: (padded 2 (minutes / 60) ++ ':' :: padded 2 (minutes % 60))) =
      some (some (direction * (60 * minutes))) := by
  have hminutes := twoDigits?_padded (show minutes % 60 < 100 by omega) []
  rw [List.append_nil] at hminutes
  have hhour : minutes / 60 < 24 := by omega
  have hminute : minutes % 60 < 60 := by omega
  rw [zonePart?]
  · simp only [hsign, twoDigits?_padded (show minutes / 60 < 100 by omega), hminutes, hhour, hminute,
      Option.bind_eq_bind, Option.bind_some, List.isEmpty_nil, decide_true, Bool.and_self, if_true]
    congr 3
    omega
  all_goals simp [padded_two (show minutes / 60 < 100 by omega)]

theorem zonePart?_zoneChars {zone : Option Int}
    (hzone : ∀ seconds ∈ zone, (60 : Int) ∣ seconds ∧ seconds.natAbs < 86400) :
    zonePart? (zoneChars zone) = some zone := by
  cases zone with
  | none => rfl
  | some seconds =>
      obtain ⟨hwhole, hday⟩ := hzone seconds rfl
      have hminutes : seconds.natAbs / 60 < 1440 := by omega
      simp only [zoneChars, renderOffset]
      by_cases hzero : seconds = 0
      · simp [hzero, zonePart?]
      · rw [if_neg hzero]
        by_cases hbehind : seconds < 0
        · rw [if_pos hbehind, zonePart?_signed '-' (-1) hminutes fun _ => rfl]
          congr 2
          omega
        · rw [if_neg hbehind, zonePart?_signed '+' 1 hminutes fun _ => rfl]
          congr 2
          omega

theorem length_le_encodeChars (chars : List Char) :
    chars.length ≤ (Utf8.encodeChars chars).length := by
  induction chars with
  | nil => exact Nat.le_refl _
  | cons c chars ih =>
      have hpos : 0 < (Utf8.encodeChar c).length := by
        simp only [Utf8.encodeChar]
        repeat' split
        all_goals simp
      simp only [Utf8.encodeChars, List.flatMap_cons, List.length_append, List.length_cons] at ih ⊢
      omega

theorem datePart_chars {year month day : Nat} (hyear : year < 10000)
    (hmonth : 1 ≤ month ∧ month ≤ 12)
    (hday : 1 ≤ day ∧ day ≤ Calendar.daysInMonth year month) (rest : List Char) :
    datePart (padded 4 year ++ '-' :: (padded 2 month ++ '-' :: (padded 2 day ++ rest))) =
      .ok (year, month, day, rest) := by
  have hdays : Calendar.daysInMonth year month ≤ 31 := by
    unfold Calendar.daysInMonth
    repeat' split
    all_goals decide
  have hlength := length_le_encodeChars
    (padded 4 year ++ '-' :: (padded 2 month ++ '-' :: (padded 2 day ++ rest)))
  simp only [padded_four hyear, padded_two (show month < 100 by omega),
    padded_two (show day < 100 by omega), List.cons_append, List.nil_append, List.length_cons]
    at hlength ⊢
  rw [datePart, if_neg (by omega)]
  -- Every digit reads back as itself, which leaves the year to be put together from its four.
  simp only [digit?_digitChar (show year / 1000 < 10 by omega),
    digit?_digitChar (Nat.mod_lt _ (show 0 < 10 by decide)), twoDigits?,
    digit?_digitChar (show month / 10 < 10 by omega), digit?_digitChar (show day / 10 < 10 by omega),
    Option.bind_eq_bind, Option.bind_some, Option.pure_def, Nat.div_add_mod]
  have hvalue : 1000 * (year / 1000) + 100 * (year / 100 % 10) + 10 * (year / 10 % 10) +
      year % 10 = year := by omega
  rw [hvalue]
  have hmonthBad : (decide (month < 1) || decide (12 < month)) = false := by
    simp
    omega
  have hdayBad : (decide (day < 1) || decide (Calendar.daysInMonth year month < day)) = false := by
    simp
    omega
  rw [hmonthBad, hdayBad]
  rfl

/-! ## The whole written form -/

theorem renderChars_eq (time : Timestamp) :
    time.renderChars =
      padded 4 time.year ++ '-' :: (padded 2 time.month ++ '-' :: (padded 2 time.day ++
        'T' :: (padded 2 time.hour ++ ':' :: (padded 2 time.minute ++ ':' :: (padded 2 time.second ++
          (fractionChars time.microsecond ++ zoneChars time.offset)))))) := by
  unfold renderChars fractionChars zoneChars
  cases time.offset <;> simp only [List.append_assoc, List.cons_append]

theorem fullParts?_renderChars {time : Timestamp} (hzone : time.HasMinuteZone) :
    fullParts? time.renderChars =
      some ((time.year, time.month, time.day),
        (time.hour, time.minute, time.second, time.microsecond), time.offset) := by
  obtain ⟨hyear, hmonth, hday, hhour, hminute, hsecond, hmicrosecond, -⟩ := time.inRange
  have hclock : (guard ((decide (time.hour < 24) && decide (time.minute < 60) &&
      decide (time.second < 60)) = true) : Option Unit) = some () :=
    if_pos (by simp only [hhour, hminute, hsecond, decide_true, Bool.and_self])
  -- The parts are read from the front, and each reader leaves what the next one wants.
  rw [renderChars_eq, fullParts?, datePart_chars (by omega) hmonth hday]
  show (clockPart? _).bind _ = _
  rw [clockPart?_chars hhour hminute hsecond hmicrosecond]
  show (zonePart? _).bind _ = _
  rw [zonePart?_zoneChars hzone]
  show Option.bind (guard _) _ = _
  rw [hclock]
  rfl

/-- **A point in time is read back from its written form**, if its distance from UTC is a whole
number of minutes and less than a day. -/
theorem ofText_render {time : Timestamp} (hzone : time.HasMinuteZone) :
    ofText time.render = .ok time := by
  rw [ofText, render, String.toList_ofList, fullParts?_renderChars hzone]
  simp only [ofParts, make?, dif_pos time.inRange]

end TypeAtlas.Timestamp
