/-
# Blank characters

The characters that separate tokens: those with the Unicode property
White_Space (Unicode 17.0), 25 in all. All of them but six lie beyond ASCII.

Key definitions: `isBlank`.
Key theorems: `isBlank_of_isWhitespace`.
-/
import Chip8.Text.Ranges

namespace Chip8

/-- The code points with the property White_Space. -/
def blankRanges : Ranges :=
  [(0x0009, 0x000D), (0x0020, 0x0020), (0x0085, 0x0085), (0x00A0, 0x00A0), (0x1680, 0x1680),
   (0x2000, 0x200A), (0x2028, 0x2029), (0x202F, 0x202F), (0x205F, 0x205F), (0x3000, 0x3000)]

/-- Whether a character is white space. -/
def isBlank (c : Char) : Bool := blankRanges.has c.toNat

/-- What core counts as white space is blank. -/
theorem isBlank_of_isWhitespace {c : Char} (h : c.isWhitespace = true) : isBlank c = true := by
  simp only [Char.isWhitespace, Bool.or_eq_true, decide_eq_true_eq] at h
  rcases h with ((rfl | rfl) | rfl) | rfl <;> decide

end Chip8
