/-!
# Hexadecimal digits

Reading and writing numbers in base sixteen, and the characters that are written by their codes.
-/

namespace Scan.Text

/-- The lower-case hexadecimal digits of a number. -/
def hexDigits (number : Nat) : String :=
  String.ofList (Nat.toDigits 16 number)

/-- The value of a hexadecimal digit. -/
def hexDigit? (c : Char) : Option Nat :=
  if c.isDigit then some (c.toNat - '0'.toNat)
  else if 'a' ≤ c && c ≤ 'f' then some (c.toNat - 'a'.toNat + 10)
  else if 'A' ≤ c && c ≤ 'F' then some (c.toNat - 'A'.toNat + 10)
  else none

/-- The character of a code. Surrogates are no characters. -/
def charOfCode? (code : Nat) : Option Char :=
  if code < 0xD800 || (0xDFFF < code && code ≤ 0x10FFFF) then some (Char.ofNat code) else none

/-- The value of a fixed number of hexadecimal digits at the start of some characters. -/
def readHex (count : Nat) (chars : List Char) : Option Nat := do
  let digits ← (chars.take count).mapM hexDigit?
  if digits.length == count then some (digits.foldl (fun value digit => 16 * value + digit) 0)
  else none

/-- The character whose code is a fixed number of hexadecimal digits. -/
def readCode (count : Nat) (chars : List Char) : Option Char :=
  (readHex count chars).bind charOfCode?

end Scan.Text
