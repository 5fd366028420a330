/-
This file defines which characters are blank and trims them from the ends of a text.
-/

namespace FourCards.Text

/-- Space, tab, line feed, form feed and carriage return; the vertical tab is not among them. -/
def isAsciiWhitespace (character : Char) : Bool :=
  character = ' ' || character = '\t' || character = '\n' || character = '\x0c' ||
    character = '\r'

def isAsciiControl (character : Char) : Bool :=
  character.toNat < 32 || character.toNat = 127

/-- The property `White_Space` of the Unicode standard. -/
def isWhitespace (character : Char) : Bool :=
  let code := character.toNat
  (9 ≤ code && code ≤ 13) || code = 0x20 || code = 0x85 || code = 0xa0 || code = 0x1680 ||
    (0x2000 ≤ code && code ≤ 0x200a) || code = 0x2028 || code = 0x2029 || code = 0x202f ||
    code = 0x205f || code = 0x3000

theorem isWhitespaceOfAscii {character : Char} (blank : isAsciiWhitespace character = true) :
    isWhitespace character = true := by
  simp only [isAsciiWhitespace, Bool.or_eq_true, decide_eq_true_eq] at blank
  rcases blank with (((rfl | rfl) | rfl) | rfl) | rfl <;> decide

/-- The text with no ASCII whitespace anywhere. -/
def strip (text : List Char) : List Char :=
  text.filter fun character => !isAsciiWhitespace character

/-- The text with no whitespace at its ends. -/
def trim (text : List Char) : List Char :=
  ((text.dropWhile isWhitespace).reverse.dropWhile isWhitespace).reverse

theorem stripStrip (text : List Char) : strip (strip text) = strip text := by
  simp [strip]

end FourCards.Text
