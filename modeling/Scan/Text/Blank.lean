/-!
# Blank characters

The characters that carry the Unicode property `White_Space`, and the trimming of a text to what
stands between its first and last character without it.
-/

namespace Scan.Text

/-- Whether a character has the Unicode property `White_Space`. -/
def isBlank (c : Char) : Bool :=
  let code := c.toNat
  (9 ≤ code && code ≤ 13) || code == 0x20 || code == 0x85 || code == 0xA0 || code == 0x1680 ||
    (0x2000 ≤ code && code ≤ 0x200A) || code == 0x2028 || code == 0x2029 || code == 0x202F ||
    code == 0x205F || code == 0x3000

/-- Every blank of ASCII is a blank here. -/
theorem isBlank_of_isWhitespace (c : Char) (blank : c.isWhitespace = true) :
    isBlank c = true := by
  simp only [Char.isWhitespace, Bool.or_eq_true, decide_eq_true_eq] at blank
  rcases blank with ((rfl | rfl) | rfl) | rfl <;> decide

/-- A list of characters without its leading and trailing blanks. -/
def trimChars (chars : List Char) : List Char :=
  ((chars.dropWhile isBlank).reverse.dropWhile isBlank).reverse

/-- A text without its leading and trailing blanks. -/
def trim (text : String) : String :=
  String.ofList (trimChars text.toList)

/-- Whether a text holds nothing but blanks. -/
def isAllBlank (text : String) : Bool :=
  text.toList.all isBlank

end Scan.Text
