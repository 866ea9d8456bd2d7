import Reactive.Text.Blank
import Reactive.Timestamp

/-!
# Reading timestamps

A timestamp is read more freely than it is written. It consists of these parts, in this order:

1. a year of up to four digits, or a sign and any number of digits;
2. `-`, a month, `-` and a day, of one or two digits each;
3. one letter `T`, capital or small, or one blank;
4. an hour, `:`, a minute, `:` and a second, of one or two digits each;
5. `.` and digits, of which nine count, if the second has a fraction;
6. an offset from UTC: `Z` or `UTC` in capital or small letters, or a sign, two digits of hours and
   two digits of minutes, between which colons and blanks may stand.

Blanks may stand before each number but those of the fraction and the offset, before each `-` and
`:` of the date and the time, and before and behind the offset. The local time that is read is moved
to UTC by the offset, which is less than a day.

## Main definitions

* `Timestamp.parse?`
-/

namespace Reactive

namespace Timestamp

/-! Each reader takes what it reads off the front of the text and gives back the rest. -/

/-- A number of one digit up to `most` digits. -/
def readNumber (most : Nat) (text : List Char) : Option (Nat × List Char) :=
  let digits := (text.take most).takeWhile Char.isDigit
  if digits = [] then none else some (Nat.ofDigitChars 10 digits 0, text.drop digits.length)

/-- A number of two digits. -/
def readTwoDigits (text : List Char) : Option (Nat × List Char) :=
  match readNumber 2 text with
  | some (n, rest) => if rest.length + 2 = text.length then some (n, rest) else none
  | none => none

/-- A year. -/
def readYear : List Char → Option (Int × List Char)
  | '+' :: rest => (readNumber rest.length rest).map fun (n, rest') => ((n : Int), rest')
  | '-' :: rest => (readNumber rest.length rest).map fun (n, rest') => (-(n : Int), rest')
  | text => (readNumber 4 text).map fun (n, rest) => ((n : Int), rest)

/-- A given mark, and behind it a number of one or two digits. -/
def readPart (mark : Char) (text : List Char) : Option (Nat × List Char) :=
  match skipBlanks text with
  | c :: rest => if c = mark then readNumber 2 (skipBlanks rest) else none
  | [] => none

/-- The mark between date and time, and behind it the hour. -/
def readHour : List Char → Option (Nat × List Char)
  | c :: rest => if c ∈ ['T', 't', ' '] then readNumber 2 (skipBlanks rest) else none
  | [] => none

/-- A fraction of a second in nanoseconds, zero if there is none. Digits beyond the ninth are
passed over. -/
def readFraction : List Char → Option (Nat × List Char)
  | '.' :: rest =>
    let digits := rest.takeWhile Char.isDigit
    let nine := digits.take 9
    if digits = [] then none
    else some (Nat.ofDigitChars 10 (nine ++ List.replicate (9 - nine.length) '0') 0,
      rest.dropWhile Char.isDigit)
  | text => some (0, text)

/-- The hours and minutes of an offset, in minutes. -/
def readOffsetMinutes (text : List Char) : Option (Nat × List Char) := do
  let (hours, text) ← readTwoDigits text
  let (minutes, text) ← readTwoDigits (text.dropWhile fun c => c = ':' || isBlank c)
  if hours < 24 ∧ minutes < 60 then some (hours * 60 + minutes, text) else none

/-- An offset from UTC in minutes. The minus may be a hyphen or a minus sign. -/
def readOffset : List Char → Option (Int × List Char)
  | '+' :: rest => (readOffsetMinutes rest).map fun (n, rest') => ((n : Int), rest')
  | '-' :: rest | '\u2212' :: rest =>
    (readOffsetMinutes rest).map fun (n, rest') => (-(n : Int), rest')
  | text =>
    if (text.take 1).map Char.toUpper = ['Z'] then some (0, text.drop 1)
    else if (text.take 3).map Char.toUpper = ['U', 'T', 'C'] then some (0, text.drop 3)
    else none

/-- Reads a timestamp. -/
def parse? (text : String) : Option Timestamp := do
  let (year, rest) ← readYear (skipBlanks text.toList)
  let (month, rest) ← readPart '-' rest
  let (day, rest) ← readPart '-' rest
  let (hour, rest) ← readHour rest
  let (minute, rest) ← readPart ':' rest
  let (second, rest) ← readPart ':' rest
  let (nanosecond, rest) ← readFraction rest
  let (offset, rest) ← readOffset (skipBlanks rest)
  let date ← Date.ofParts? year month day
  let time ← TimeOfDay.ofParts? hour minute second nanosecond
  if skipBlanks rest = [] then ofLocal? date time offset else none

end Timestamp

end Reactive
