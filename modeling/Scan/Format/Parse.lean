/-!
# Parsing by pieces

A parser takes the beginning of some characters, or has no result. Where a choice has to be made the
next characters decide, and a parser without a result ends all.
-/

namespace Scan.Format

/-- A parser with a result. -/
abbrev Parse (α : Type) := StateT (List Char) Option α

namespace Parse

/-- There is no result. -/
def fail {α : Type} : Parse α := fun _ => none

/-- A result that may be missing. -/
def lift {α : Type} (result : Option α) : Parse α := fun rest =>
  result.map fun value => (value, rest)

/-- The characters that are left. -/
def rest : Parse (List Char) := get

/-- The next character, which is not taken. -/
def peek : Parse (Option Char) := do
  return (← rest).head?

/-- Takes a number of characters, whatever they are. -/
def drop (count : Nat) : Parse Unit :=
  modify fun rest => rest.drop count

/-- Takes one character. -/
def next : Parse Char := do
  match ← rest with
  | c :: more =>
      set more
      return c
  | [] => fail

/-- Takes a word if it is next, and tells whether it was. -/
def accept (word : String) : Parse Bool := do
  if word.toList.isPrefixOf (← rest) then
    drop word.toList.length
    return true
  else return false

/-- Takes a word, which has to be next. -/
def expect (word : String) : Parse Unit := do
  unless ← accept word do fail

/-- Takes the characters that satisfy a test. -/
def takeWhile (test : Char → Bool) : Parse (List Char) := do
  let found := (← rest).takeWhile test
  drop found.length
  return found

/-- Takes the characters up to a word and the word itself, which has to come. -/
def takeThrough (word : String) (fuel : Nat) : Parse (List Char) := do
  match fuel with
  | 0 => fail
  | fuel + 1 =>
      if ← accept word then return []
      else
        let c ← next
        return c :: (← takeThrough word fuel)

/-- The result of a parser that takes a whole text. -/
def run {α : Type} (parse : Parse α) (text : String) : Option α :=
  match StateT.run parse text.toList with
  | some (value, []) => some value
  | _ => none

end Parse

end Scan.Format
