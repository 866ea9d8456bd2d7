/-!
# Blanks

The characters that separate words: the blank itself, the tabulators and line ends, and the spaces
of various widths. They are the twenty-five characters with the property `White_Space` of the
Unicode character database.

## Main definitions

* `isBlank`
* `skipBlanks`
-/

namespace Reactive

/-- The ranges of code points, from first to last, of the blanks. -/
def blankRanges : List (Nat × Nat) :=
  [(0x0009, 0x000D), (0x0020, 0x0020), (0x0085, 0x0085), (0x00A0, 0x00A0), (0x1680, 0x1680),
   (0x2000, 0x200A), (0x2028, 0x2029), (0x202F, 0x202F), (0x205F, 0x205F), (0x3000, 0x3000)]

/-- Is this a blank? -/
def isBlank (c : Char) : Bool :=
  blankRanges.any fun range => range.1 ≤ c.toNat && c.toNat ≤ range.2

/-- A text without the blanks it begins with. -/
def skipBlanks (text : List Char) : List Char := text.dropWhile isBlank

/-- Every character that core takes for white space is a blank. -/
theorem isBlank_of_isWhitespace {c : Char} (h : c.isWhitespace = true) : isBlank c = true := by
  simp only [Char.isWhitespace, Bool.or_eq_true, decide_eq_true_eq] at h
  rcases h with ((rfl | rfl) | rfl) | rfl <;> decide

end Reactive
