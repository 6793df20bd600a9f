/-!
# Blank characters

Spacing between tokens, and around the name of a number format, is any run of
characters that Unicode marks as white space. There are twenty-five of them, and
they are listed here as ranges of code points.
-/

namespace RegionalCalculator
namespace Text

/-- First and last code point of each run of characters with the `White_Space` property. -/
def blankRanges : List (Nat × Nat) :=
  [(0x0009, 0x000D), (0x0020, 0x0020), (0x0085, 0x0085), (0x00A0, 0x00A0),
    (0x1680, 0x1680), (0x2000, 0x200A), (0x2028, 0x2029), (0x202F, 0x202F),
    (0x205F, 0x205F), (0x3000, 0x3000)]

def isBlank (c : Char) : Bool :=
  blankRanges.any fun range => range.1 <= c.toNat && c.toNat <= range.2

example : (blankRanges.map fun range => range.2 + 1 - range.1).sum = 25 := by decide

theorem not_isBlank_of_isDigit {c : Char} (h : c.isDigit = true) : isBlank c = false := by
  simp only [Char.isDigit, Bool.and_eq_true, decide_eq_true_eq] at h
  obtain ⟨hlow, hhigh⟩ := h
  have hlow' : 48 <= c.toNat := hlow
  have hhigh' : c.toNat <= 57 := hhigh
  simp [isBlank, blankRanges]
  omega

theorem isDigit_of_isBlank {c : Char} (h : isBlank c = true) : c.isDigit = false := by
  rw [Bool.eq_false_iff]
  intro hdigit
  rw [not_isBlank_of_isDigit hdigit] at h
  cases h

/-!
# Trimming
-/

def trim (text : List Char) : List Char :=
  ((text.dropWhile isBlank).reverse.dropWhile isBlank).reverse

end Text
end RegionalCalculator
