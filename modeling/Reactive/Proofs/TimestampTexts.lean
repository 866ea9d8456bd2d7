import Mathlib
import Reactive.Timestamp.Reading
import Reactive.Proofs.Positions

/-!
# Texts of timestamps

A timestamp is written in one way and read in many. What is written is read back, whatever the date
and the time: years of any length and before the year zero, fractions of any precision, and leap
seconds.

Each part of the text is read off its front, with whatever comes behind it left over. So each part
has a lemma of its own, which says what is read and that the rest is left, and the text as a whole
is read by putting them together.

## Main results

* `Timestamp.readNumber_append` — digits that are followed by something else
* `Timestamp.readYear_yearDigits`, `readPart_padded`, `readFraction_fractionDigits`
* `Timestamp.parse?_text` — **what is written is read back**
-/

namespace Reactive

namespace Timestamp

/-! ### Digits -/

theorem isDigit_of_mem_padded {width n : Nat} {c : Char} (h : c ∈ padded width n) :
    c.isDigit = true := by
  rcases List.mem_append.mp h with hzero | hdigit
  · rw [List.eq_of_mem_replicate hzero]
    rfl
  · exact Nat.isDigit_of_mem_toDigits (by decide) (by decide) hdigit

theorem padded_ne_nil (width n : Nat) : padded width n ≠ [] :=
  List.append_ne_nil_of_right_ne_nil _ Nat.toDigits_ne_nil

/-- Zeros in front of a numeral do not count. -/
theorem ofDigitChars_padded (width n : Nat) : Nat.ofDigitChars 10 (padded width n) 0 = n := by
  rw [padded, Nat.ofDigitChars_append, Nat.ofDigitChars_replicate_zero, Nat.mul_zero,
    Nat.ofDigitChars_ten_toDigits]

/-- A number that fits into a width takes up the width. -/
theorem length_padded {width n : Nat} (hwidth : 0 < width) (h : n < 10 ^ width) :
    (padded width n).length = width := by
  have hle := (Nat.length_toDigits_le_iff (by decide) hwidth).mpr h
  rw [padded, List.length_append, List.length_replicate, Nat.sub_add_cancel hle]

theorem not_isBlank_of_isDigit {c : Char} (h : c.isDigit = true) : isBlank c = false := by
  have hrange : 48 ≤ c.toNat ∧ c.toNat ≤ 57 := by
    simpa [Char.isDigit, UInt32.le_iff_toNat_le] using h
  simp only [isBlank, blankRanges, List.any_cons, List.any_nil, Bool.or_false, Bool.or_eq_false_iff,
    Bool.and_eq_false_iff, decide_eq_false_iff_not]
  omega

theorem exists_cons_padded (width n : Nat) :
    ∃ c digits, padded width n = c :: digits ∧ c.isDigit = true := by
  obtain ⟨c, digits, hpadded⟩ := List.exists_cons_of_ne_nil (padded_ne_nil width n)
  have hc : c ∈ padded width n := by simp [hpadded]
  exact ⟨c, digits, hpadded, isDigit_of_mem_padded hc⟩

theorem skipBlanks_cons {c : Char} (h : isBlank c = false) (rest : List Char) :
    skipBlanks (c :: rest) = c :: rest := by
  rw [skipBlanks, List.dropWhile_cons_of_neg]
  rw [h]
  exact Bool.false_ne_true

/-- There is no blank in front of a number. -/
theorem skipBlanks_padded (width n : Nat) (rest : List Char) :
    skipBlanks (padded width n ++ rest) = padded width n ++ rest := by
  obtain ⟨c, digits, hpadded, hc⟩ := exists_cons_padded width n
  rw [hpadded, List.cons_append, skipBlanks_cons (not_isBlank_of_isDigit hc)]

/-! ### Numbers -/

/-- Digits, of which there are not too many, are read as a number if none follows that could still
be read. -/
theorem readNumber_append {most : Nat} {digits rest : List Char} (hne : digits ≠ [])
    (hdigits : ∀ c ∈ digits, c.isDigit = true) (hlength : digits.length ≤ most)
    (hrest : digits.length = most ∨ ∀ c ∈ rest.head?, c.isDigit = false) :
    readNumber most (digits ++ rest) = some (Nat.ofDigitChars 10 digits 0, rest) := by
  have hstop : (rest.take (most - digits.length)).takeWhile Char.isDigit = [] := by
    rcases hrest with hfull | hother
    · rw [hfull, Nat.sub_self, List.take_zero, List.takeWhile_nil]
    · cases rest with
      | nil => rw [List.take_nil, List.takeWhile_nil]
      | cons c tail =>
        have hc : c.isDigit = false := hother c rfl
        cases most - digits.length with
        | zero => rfl
        | succ k => simp [hc]
  have htaken : ((digits ++ rest).take most).takeWhile Char.isDigit = digits := by
    rw [List.take_append, List.take_of_length_le hlength, List.takeWhile_append_of_pos hdigits,
      hstop, List.append_nil]
  simp only [readNumber, htaken, if_neg hne, List.drop_left]

theorem readNumber_padded {width n : Nat} (hwidth : 0 < width) (h : n < 10 ^ width)
    (rest : List Char) : readNumber width (padded width n ++ rest) = some (n, rest) := by
  have hlength := length_padded hwidth h
  rw [readNumber_append (padded_ne_nil width n) (fun _ hc => isDigit_of_mem_padded hc) hlength.le
    (.inl hlength), ofDigitChars_padded]

/-- A numeral of any length that is followed by a hyphen. -/
theorem readNumber_padded_hyphen (width n : Nat) (rest : List Char) :
    readNumber (padded width n ++ '-' :: rest).length (padded width n ++ '-' :: rest)
      = some (n, '-' :: rest) := by
  rw [readNumber_append (padded_ne_nil width n) (fun _ hc => isDigit_of_mem_padded hc) (by simp)
    (.inr (by simp)), ofDigitChars_padded]

/-! ### Parts -/

/-- A year without a sign has four digits. -/
theorem readYear_of_isDigit {c : Char} (h : c.isDigit = true) (text : List Char) :
    readYear (c :: text) = (readNumber 4 (c :: text)).map fun (n, rest) => ((n : Int), rest) := by
  unfold readYear
  split
  · next heq =>
    obtain ⟨rfl, -⟩ := List.cons_eq_cons.mp heq
    cases h
  · next heq =>
    obtain ⟨rfl, -⟩ := List.cons_eq_cons.mp heq
    cases h
  · rfl

theorem readYear_yearDigits (year : Int) (rest : List Char) :
    readYear (yearDigits year ++ '-' :: rest) = some (year, '-' :: rest) := by
  rw [yearDigits]
  split
  · next hfits =>
    have hread := readNumber_padded (by decide) (show year.toNat < 10 ^ 4 by omega) ('-' :: rest)
    obtain ⟨c, digits, hpadded, hc⟩ := exists_cons_padded 4 year.toNat
    rw [hpadded, List.cons_append] at hread ⊢
    rw [readYear_of_isDigit hc, hread, Option.map_some]
    exact congrArg (fun y => some (y, '-' :: rest)) (Int.toNat_of_nonneg hfits.1)
  · next hsigned =>
    split
    · next hneg =>
      rw [List.cons_append, readYear, readNumber_padded_hyphen, Option.map_some]
      have habs : -(year.natAbs : Int) = year := by omega
      exact congrArg (fun y => some (y, '-' :: rest)) habs
    · next hpos =>
      rw [List.cons_append, readYear, readNumber_padded_hyphen, Option.map_some]
      have habs : (year.natAbs : Int) = year := by omega
      exact congrArg (fun y => some (y, '-' :: rest)) habs

theorem skipBlanks_yearDigits (year : Int) (rest : List Char) :
    skipBlanks (yearDigits year ++ rest) = yearDigits year ++ rest := by
  rw [yearDigits]
  split
  · exact skipBlanks_padded 4 year.toNat rest
  · rw [List.cons_append, skipBlanks_cons]
    split <;> rfl

/-- A number of two digits behind its mark. -/
theorem readPart_padded {mark : Char} (hmark : isBlank mark = false) {n : Nat} (h : n < 100)
    (rest : List Char) : readPart mark (mark :: (padded 2 n ++ rest)) = some (n, rest) := by
  rw [readPart, skipBlanks_cons hmark]
  simp only [if_true, skipBlanks_padded]
  exact readNumber_padded (by decide) h rest

theorem readHour_padded {n : Nat} (h : n < 100) (rest : List Char) :
    readHour ('T' :: (padded 2 n ++ rest)) = some (n, rest) := by
  rw [readHour, if_pos (by decide), skipBlanks_padded]
  exact readNumber_padded (by decide) h rest

/-- A fraction of some digits, of which there are nine at most. -/
theorem readFraction_padded {width n : Nat} (hwidth : 0 < width) (hnine : width ≤ 9)
    (h : n < 10 ^ width) (rest : List Char) :
    readFraction ('.' :: (padded width n ++ 'Z' :: rest))
      = some (10 ^ (9 - width) * n, 'Z' :: rest) := by
  have hlength := length_padded hwidth h
  have hdigits : ∀ c ∈ padded width n, c.isDigit = true := fun _ hc => isDigit_of_mem_padded hc
  have htaken : (padded width n ++ 'Z' :: rest).takeWhile Char.isDigit = padded width n := by
    rw [List.takeWhile_append_of_pos hdigits, List.takeWhile_cons_of_neg (by decide),
      List.append_nil]
  have hleft : (padded width n ++ 'Z' :: rest).dropWhile Char.isDigit = 'Z' :: rest := by
    rw [List.dropWhile_append_of_pos hdigits, List.dropWhile_cons_of_neg (by decide)]
  rw [readFraction]
  simp only [htaken, hleft, if_neg (padded_ne_nil width n)]
  rw [List.take_of_length_le (by rw [hlength]; exact hnine), hlength, Nat.ofDigitChars_append,
    ofDigitChars_padded, Nat.ofDigitChars_replicate_zero]

theorem readFraction_fractionDigits {nanosecond : Nat} (h : nanosecond < 1000000000)
    (rest : List Char) : readFraction (fractionDigits nanosecond ++ 'Z' :: rest)
      = some (nanosecond, 'Z' :: rest) := by
  rw [fractionDigits]
  split
  · next hzero =>
    rw [hzero]
    rfl
  split
  · next hmillis =>
    have hlt : nanosecond / 1000000 < 10 ^ 3 := by omega
    have heq : 10 ^ (9 - 3) * (nanosecond / 1000000) = nanosecond := by omega
    rw [List.cons_append, readFraction_padded (by decide) (by decide) hlt, heq]
  split
  · next hmicros =>
    have hlt : nanosecond / 1000 < 10 ^ 6 := by omega
    have heq : 10 ^ (9 - 6) * (nanosecond / 1000) = nanosecond := by omega
    rw [List.cons_append, readFraction_padded (by decide) (by decide) hlt, heq]
  · have heq : 10 ^ (9 - 9) * nanosecond = nanosecond := by omega
    rw [List.cons_append, readFraction_padded (by decide) (by decide) h, heq]

theorem readOffset_zulu (rest : List Char) : readOffset ('Z' :: rest) = some (0, rest) := rfl

/-! ### The whole text -/

/-- Clocks without an offset show the time itself. -/
theorem ofLocal?_zero (date : Date) (time : TimeOfDay) :
    ofLocal? date time 0 = some ⟨date, time⟩ := by
  obtain ⟨hour, minute, second, nanosecond, hhour, hminute, hsecond, hnanosecond⟩ := time
  have hday : ((hour * 60 + minute : Nat) : Int) / 1440 = 0 := by omega
  have hsame : (((hour * 60 + minute : Nat) : Int) % 1440).toNat = hour * 60 + minute := by omega
  have hhour' : (hour * 60 + minute) / 60 % 24 = hour := by omega
  have hminute' : (hour * 60 + minute) % 60 = minute := by omega
  simp only [ofLocal?, TimeOfDay.minuteOfDay, Int.sub_zero, hday, if_true, Option.map_some, hsame,
    TimeOfDay.atMinute, hhour', hminute']

theorem day_lt (date : Date) : date.day < 100 := by
  have hle : daysInMonth date.year date.month ≤ 31 := by
    unfold daysInMonth
    repeat' split
    all_goals omega
  exact Nat.lt_of_le_of_lt (date.day_le.trans hle) (by decide)

/-- **What is written is read back.** -/
theorem parse?_text (t : Timestamp) : parse? t.text = some t := by
  obtain ⟨date, time⟩ := t
  have hmonth : date.month < 100 := Nat.lt_of_le_of_lt date.month_le (by decide)
  have hhour : time.hour < 100 := Nat.lt_trans time.hour_lt (by decide)
  have hminute : time.minute < 100 := Nat.lt_trans time.minute_lt (by decide)
  have hsecond : time.second < 100 := Nat.lt_of_le_of_lt time.second_le (by decide)
  have hhyphen : isBlank '-' = false := by decide
  have hcolon : isBlank ':' = false := by decide
  have hzulu : isBlank 'Z' = false := by decide
  simp only [parse?, text, String.toList_ofList, List.append_assoc, List.cons_append,
    skipBlanks_yearDigits, readYear_yearDigits, Option.bind_eq_bind, Option.bind_some,
    readPart_padded hhyphen hmonth, readPart_padded hhyphen (day_lt date), readHour_padded hhour,
    readPart_padded hcolon hminute, readPart_padded hcolon hsecond,
    readFraction_fractionDigits time.nanosecond_lt, skipBlanks_cons hzulu, readOffset_zulu,
    Date.ofParts?_self, TimeOfDay.ofParts?_self]
  rw [if_pos (show skipBlanks [] = [] from rfl), ofLocal?_zero]

end Timestamp

end Reactive
