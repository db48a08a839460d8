import Mathlib.Data.List.DropRight
import Mathlib.Tactic.IntervalCases
import Mathlib.Tactic.SplitIfs
import Scan.Proofs.Codecs

/-!
# Texts that spell values

A text spells a value if the tokens of the value stand in it in order, with blanks between them or
without. Whatever spells a value is read as that value, as long as the containers of the value nest
no deeper than a reader allows. All numbers of the value are natural here.
-/

namespace Scan

namespace Json

/-! ## Values that are read back -/

namespace Value

mutual

/-- Whether all numbers in a value are natural, and its containers find room where one fewer than
`room` may be opened. -/
def IsPlain (room : Nat) : Value → Prop
  | .null | .bool _ | .string _ | .number (.natural _) => True
  | .number (.negative _) | .number (.float _) => False
  | .array items => 1 < room ∧ ArePlain (room - 1) items
  | .object members => 1 < room ∧ ArePlainMembers (room - 1) members

/-- Whether that is so of each of some items. -/
def ArePlain (room : Nat) : List Value → Prop
  | [] => True
  | item :: rest => IsPlain room item ∧ ArePlain room rest

/-- Whether that is so of the values of some members. -/
def ArePlainMembers (room : Nat) : List (String × Value) → Prop
  | [] => True
  | (_, value) :: rest => IsPlain room value ∧ ArePlainMembers room rest

end

end Value

namespace Document

/-- The characters of a text as they stand inside a string. -/
def escaped (chars : List Char) : List Char :=
  chars.flatMap fun c => (escapeChar c).toList

/-- Whether a text that stands behind a number does not go on with it. -/
def EndsNumber (rest : List Char) : Prop :=
  ∀ c ∈ rest.head?, c.isDigit = false ∧ c ≠ '.' ∧ c ≠ 'e' ∧ c ≠ 'E'

mutual

/-- Whether a text begins with a value, behind blanks or not, and goes on with a rest. -/
inductive Spells : Value → List Char → List Char → Prop where
  | blank {value : Value} {c : Char} {chars rest : List Char} (space : isSpace c = true)
      (spells : Spells value chars rest) : Spells value (c :: chars) rest
  | null (rest : List Char) : Spells .null ("null".toList ++ rest) rest
  | yes (rest : List Char) : Spells (.bool true) ("true".toList ++ rest) rest
  | no (rest : List Char) : Spells (.bool false) ("false".toList ++ rest) rest
  | natural (word : UInt64) {rest : List Char} (ends : EndsNumber rest) :
      Spells (.number (.natural word)) (Nat.toDigits 10 word.toNat ++ rest) rest
  | string (text : String) (rest : List Char) :
      Spells (.string text) ('"' :: (escaped text.toList ++ '"' :: rest)) rest
  | noItems (rest : List Char) : Spells (.array []) ('[' :: ']' :: rest) rest
  | items {items : List Value} {chars rest : List Char} (spells : SpellsItems items chars rest) :
      Spells (.array items) ('[' :: chars) rest
  | noMembers (rest : List Char) : Spells (.object []) ('\x7b' :: '\x7d' :: rest) rest
  | members {members : List (String × Value)} {chars rest : List Char}
      (spells : SpellsMembers members chars rest) : Spells (.object members) ('\x7b' :: chars) rest

/-- Whether a text begins with items and the end of their array. -/
inductive SpellsItems : List Value → List Char → List Char → Prop where
  | last {item : Value} {chars behind rest : List Char} (spells : Spells item chars behind)
      (closes : skipSpace behind = ']' :: rest) : SpellsItems [item] chars rest
  | more {item : Value} {items : List Value} {chars others rest : List Char}
      (spells : Spells item chars (',' :: others)) (spellsMore : SpellsItems items others rest) :
      SpellsItems (item :: items) chars rest

/-- Whether a text begins with members and the end of their object. -/
inductive SpellsMembers : List (String × Value) → List Char → List Char → Prop where
  | last {name : String} {value : Value} {chars after behind rest : List Char}
      (names : skipSpace chars = '"' :: (escaped name.toList ++ '"' :: ':' :: after))
      (spells : Spells value after behind) (closes : skipSpace behind = '\x7d' :: rest) :
      SpellsMembers [(name, value)] chars rest
  | more {name : String} {value : Value} {members : List (String × Value)}
      {chars after others rest : List Char}
      (names : skipSpace chars = '"' :: (escaped name.toList ++ '"' :: ':' :: after))
      (spells : Spells value after (',' :: others))
      (spellsMore : SpellsMembers members others rest) :
      SpellsMembers ((name, value) :: members) chars rest

end

/-! ## Strings -/

section Strings

variable {fuel : Nat} {gathered chars rest : List Char}

/-- The codes below 32 are read as they are written. -/
theorem readHex_of_control : ∀ code < 32, ∀ rest : List Char,
    Text.readHex 4 ('0' :: '0' :: Nat.digitChar (code / 16) :: Nat.digitChar (code % 16) :: rest) =
      some code := by
  have digits : ∀ code < 32,
      Text.readHex 4 ['0', '0', Nat.digitChar (code / 16), Nat.digitChar (code % 16)] =
        some code := by
    decide
  intro code small rest
  rw [← digits code small]
  rfl

/-- The code of a character is read as that character. -/
theorem readCodePoint_of_control {c : Char} (control : c.toNat < 32) :
    readCodePoint ('0' :: '0' :: Nat.digitChar (c.toNat / 16) :: Nat.digitChar (c.toNat % 16) ::
      rest) = some (c, rest) := by
  have high : ¬ 0xDC00 ≤ c.toNat := by omega
  have low : ¬ 0xD800 ≤ c.toNat := by omega
  rw [readCodePoint, readHex_of_control c.toNat control]
  simp [high, low, Char.ofNat_toNat]

/-- A character that is written by its code is read. -/
theorem readString_code {c : Char} (read : readCodePoint chars = some (c, rest)) :
    readString (fuel + 1) gathered ('\\' :: 'u' :: chars) =
      readString fuel (c :: gathered) rest := by
  rw [readString.eq_def]
  simp [read]

/-- A character is read as it stands inside a string. -/
theorem readString_escapeChar (c : Char) :
    readString (fuel + 1) gathered ((escapeChar c).toList ++ chars) =
      readString fuel (c :: gathered) chars := by
  have named : ∀ {code : Nat}, (c.toNat == code) = true → c = Char.ofNat code := by
    intro code same
    rw [← eq_of_beq same, Char.ofNat_toNat]
  unfold escapeChar
  split_ifs with quote backslash newline return' tab backspace feed control
  · cases eq_of_beq quote
    rfl
  · cases eq_of_beq backslash
    rfl
  · cases eq_of_beq newline
    rfl
  · cases eq_of_beq return'
    rfl
  · cases eq_of_beq tab
    rfl
  · cases named backspace
    rfl
  · cases named feed
    rfl
  · -- the text in front is a list of characters as well
    rw [String.toList_append, String.toList_ofList, String.toList_ofList]
    simp only [List.cons_append, List.nil_append]
    rw [readString_code (readCodePoint_of_control control)]
  · rw [String.toList_singleton, List.singleton_append, readString.eq_def]
    simp only [quote, backslash, control, Bool.false_eq_true, if_false]

/-- A string is read up to its closing quote. -/
theorem readString_escaped (text : List Char) (enough : text.length < fuel) :
    readString fuel gathered (escaped text ++ '"' :: rest) =
      some (String.ofList (gathered.reverse ++ text), rest) := by
  induction text generalizing fuel gathered with
  | nil =>
      obtain ⟨fuel, rfl⟩ := Nat.exists_eq_add_of_lt enough
      simp [escaped, readString]
  | cons c text ih =>
      obtain ⟨fuel, rfl⟩ : ∃ more, fuel = more + 1 := ⟨fuel - 1, by omega⟩
      rw [List.length_cons] at enough
      rw [escaped, List.flatMap_cons, List.append_assoc, readString_escapeChar,
        ← escaped, ih (by omega), List.reverse_cons, List.append_assoc, List.singleton_append]

/-- A text does not become shorter inside a string. -/
theorem length_le_escaped (text : List Char) : text.length ≤ (escaped text).length := by
  induction text with
  | nil => exact Nat.le_refl _
  | cons c text ih =>
      have one : 0 < (escapeChar c).toList.length := by
        unfold escapeChar
        split_ifs <;> simp
      rw [escaped, List.flatMap_cons, ← escaped, List.length_append, List.length_cons]
      omega

/-- A whole string is read behind its opening quote. -/
theorem readString_of_escaped (text : String) (rest : List Char) :
    readString ((escaped text.toList ++ '"' :: rest).length + 1) []
      (escaped text.toList ++ '"' :: rest) = some (text, rest) := by
  have longer := length_le_escaped text.toList
  rw [readString_escaped _ (by rw [List.length_append]; omega), List.reverse_nil, List.nil_append,
    String.ofList_toList]

end Strings

/-! ## Numbers -/

section Numbers

variable {rest : List Char}

/-- The digits of a number that fits a word give that number. -/
theorem gatherDigits_toDigits {number : Nat} (fits : number < 2 ^ 64) :
    gatherDigits 0 (Nat.toDigits 10 number) = (number, 0) := by
  -- digits that fit together are gathered one by one
  have concat : ∀ {start value : Nat} {digits : List Char} {last : Char},
      gatherDigits start digits = (value, 0) → value * 10 + (last.toNat - 48) < 2 ^ 64 →
        gatherDigits start (digits ++ [last]) = (value * 10 + (last.toNat - 48), 0) := by
    intro start value digits last gathered small
    induction digits generalizing start with
    | nil =>
        cases gathered
        simpa [gatherDigits] using small
    | cons first digits ih =>
        rw [gatherDigits] at gathered
        rw [List.cons_append, gatherDigits]
        split at gathered
        · rename_i fits
          rw [if_pos fits]
          exact ih gathered
        · cases gathered
  induction number using Nat.strong_induction_on with
  | _ number ih =>
      rcases Nat.lt_or_ge number 10 with small | large
      · rw [Nat.toDigits_of_lt_base small, gatherDigits]
        simp [gatherDigits, Nat.toNat_digitChar_of_lt_ten small]
        omega
      · have digit : (Nat.digitChar (number % 10)).toNat - 48 = number % 10 := by
          rw [Nat.toNat_digitChar_of_lt_ten (Nat.mod_lt _ (by omega))]
          omega
        rw [Nat.toDigits_of_base_le (by omega) large,
          concat (ih _ (by omega) (by omega)) (by rw [digit]; omega), digit]
        congr 1
        omega

/-- A number of several digits does not begin with a zero. -/
theorem head?_toDigits {number : Nat} (positive : 0 < number) :
    (Nat.toDigits 10 number).head? ≠ some '0' := by
  induction number using Nat.strong_induction_on with
  | _ number ih =>
      rcases Nat.lt_or_ge number 10 with small | large
      · rw [Nat.toDigits_of_lt_base small]
        interval_cases number <;> decide
      · rw [Nat.toDigits_of_base_le (by omega) large, List.head?_append,
          Option.or_of_isSome (by simp [Nat.toDigits_ne_nil])]
        exact ih _ (by omega) (by omega)

/-- The digits of a number begin with a digit. -/
theorem isDigit_of_toDigits {number : Nat} {first : Char} {digits : List Char}
    (shape : Nat.toDigits 10 number = first :: digits) : first.isDigit = true := by
  apply Nat.isDigit_of_mem_toDigits (b := 10) (n := number) (by omega) (by omega)
  rw [shape]
  exact List.mem_cons_self

/-- A number that begins with a digit has no sign. -/
theorem readNumber_of_isDigit {first : Char} (digit : first.isDigit = true) (chars : List Char) :
    readNumber (first :: chars) = readUnsignedNumber false (first :: chars) := by
  rw [readNumber]
  rintro more same
  cases same
  cases digit

/-- The digits of a number are no other digits behind a zero. -/
theorem toDigits_isProper (number : Nat) :
    ((Nat.toDigits 10 number).isEmpty || ((Nat.toDigits 10 number).head? == some '0' &&
      (Nat.toDigits 10 number).length != 1)) = false := by
  rcases Nat.eq_zero_or_pos number with rfl | positive
  · rfl
  · simp [Nat.toDigits_ne_nil, head?_toDigits positive]

theorem span_toDigits (number : Nat) (ends : EndsNumber rest) :
    (Nat.toDigits 10 number ++ rest).takeWhile Char.isDigit = Nat.toDigits 10 number ∧
      (Nat.toDigits 10 number ++ rest).dropWhile Char.isDigit = rest := by
  have digits : ∀ c ∈ Nat.toDigits 10 number, c.isDigit = true :=
    fun c member => Nat.isDigit_of_mem_toDigits (by omega) (by omega) member
  have stops : rest.takeWhile Char.isDigit = [] ∧ rest.dropWhile Char.isDigit = rest := by
    cases rest with
    | nil => exact ⟨rfl, rfl⟩
    | cons c rest => simp [(ends c rfl).1]
  constructor
  · rw [List.takeWhile_append_of_pos digits, stops.1, List.append_nil]
  · rw [List.dropWhile_append_of_pos digits, stops.2]

/-- A natural number that fits a word is read from its digits. -/
theorem readNumber_toDigits (word : UInt64) (ends : EndsNumber rest) :
    readNumber (Nat.toDigits 10 word.toNat ++ rest) = some (.natural word, rest) := by
  obtain ⟨whole, behind⟩ := span_toDigits word.toNat ends
  have found : integerNumber false word.toNat 0 = some (.natural word) := by
    simp [integerNumber]
  have unsigned : readNumber (Nat.toDigits 10 word.toNat ++ rest) =
      readUnsignedNumber false (Nat.toDigits 10 word.toNat ++ rest) := by
    cases shape : Nat.toDigits 10 word.toNat with
    | nil => exact absurd shape Nat.toDigits_ne_nil
    | cons first digits => exact readNumber_of_isDigit (isDigit_of_toDigits shape) _
  rw [unsigned, readUnsignedNumber, whole, behind, toDigits_isProper,
    gatherDigits_toDigits word.toNat_lt]
  cases rest with
  | nil => simp [found]
  | cons c rest =>
      obtain ⟨-, dot, small, large⟩ := ends c rfl
      simp only [Bool.false_eq_true, if_false]
      split
      · rename_i mark
        simp [small, large] at mark
      · rw [found]
        rfl

end Numbers

/-! ## Reading what is spelled -/

section Reading

variable {value : Value} {chars rest blanks : List Char}

@[simp] theorem skipSpace_cons_of_isSpace {c : Char} (space : isSpace c = true) :
    skipSpace (c :: chars) = skipSpace chars := by
  simp [skipSpace, space]

@[simp] theorem skipSpace_cons_of_not_isSpace {c : Char} (solid : isSpace c = false) :
    skipSpace (c :: chars) = c :: chars := by
  simp [skipSpace, solid]

@[simp] theorem skipSpace_skipSpace : skipSpace (skipSpace chars) = skipSpace chars :=
  List.dropWhile_idempotent _ _

theorem length_skipSpace_le : (skipSpace chars).length ≤ chars.length :=
  (List.dropWhile_suffix _).length_le

/-- What is behind the next character is shorter than what begins with it. -/
theorem length_lt_of_next {c : Char} (next : skipSpace chars = c :: rest) :
    rest.length < chars.length := by
  have all : (skipSpace chars).length ≤ chars.length := length_skipSpace_le
  rw [next, List.length_cons] at all
  omega

theorem skipSpace_append (blank : ∀ c ∈ blanks, isSpace c = true) :
    skipSpace (blanks ++ chars) = skipSpace chars :=
  List.dropWhile_append_of_pos blank

/-- A digit is no blank. -/
theorem isSpace_of_isDigit {c : Char} (digit : c.isDigit = true) : isSpace c = false := by
  cases space : isSpace c with
  | false => rfl
  | true =>
      simp only [isSpace, Bool.or_eq_true, beq_iff_eq] at space
      rcases space with ((rfl | rfl) | rfl) | rfl <;> cases digit

/-- What is behind the name of a member is shorter than what begins with it. -/
theorem length_lt_of_names {name after : List Char}
    (names : skipSpace chars = '"' :: (escaped name ++ '"' :: ':' :: after)) :
    after.length < chars.length := by
  have all := length_lt_of_next names
  simp only [List.length_cons, List.length_append] at all
  omega

mutual

/-- What spells a value is longer than what is behind it. -/
theorem Spells.length_lt {value : Value} {chars rest : List Char} :
    Spells value chars rest → rest.length < chars.length
  | .blank _ spells => Nat.lt_succ_of_lt spells.length_lt
  | .null rest | .yes rest | .no rest => by
      rw [List.length_append]
      exact Nat.lt_add_of_pos_left (by decide)
  | .natural word _ => by
      rw [List.length_append]
      exact Nat.lt_add_of_pos_left (List.length_pos_iff.mpr Nat.toDigits_ne_nil)
  | .string text rest => by
      simp only [List.length_cons, List.length_append]
      omega
  | .noItems rest | .noMembers rest => by
      simp only [List.length_cons]
      omega
  | .items spells => Nat.lt_succ_of_lt spells.length_lt
  | .members spells => Nat.lt_succ_of_lt spells.length_lt

theorem SpellsItems.length_lt {items : List Value} {chars rest : List Char} :
    SpellsItems items chars rest → rest.length < chars.length
  | .last spells closes => by
      have own := spells.length_lt
      have closing := length_lt_of_next closes
      omega
  | .more spells spellsMore => by
      have own := spells.length_lt
      have others := spellsMore.length_lt
      rw [List.length_cons] at own
      omega

theorem SpellsMembers.length_lt {members : List (String × Value)} {chars rest : List Char} :
    SpellsMembers members chars rest → rest.length < chars.length
  | .last names spells closes => by
      have own := spells.length_lt
      have closing := length_lt_of_next closes
      have named := length_lt_of_names names
      omega
  | .more names spells spellsMore => by
      have own := spells.length_lt
      have others := spellsMore.length_lt
      have named := length_lt_of_names names
      rw [List.length_cons] at own
      omega

end

/-- What spells a value does not begin with the end of an array. -/
theorem Spells.skipSpace_ne {value : Value} {chars rest : List Char} :
    Spells value chars rest → ∀ tail, skipSpace chars ≠ ']' :: tail
  | .blank space spells => by
      rw [skipSpace_cons_of_isSpace space]
      exact spells.skipSpace_ne
  | .natural word _ => by
      intro tail
      cases shape : Nat.toDigits 10 word.toNat with
      | nil => exact absurd shape Nat.toDigits_ne_nil
      | cons first digits =>
          have digit := isDigit_of_toDigits shape
          rw [List.cons_append, skipSpace_cons_of_not_isSpace (isSpace_of_isDigit digit)]
          rintro same
          cases same
          cases digit
  | .null _ | .yes _ | .no _ | .string .. | .noItems _ | .items _ | .noMembers _
  | .members _ => by
      intro tail same
      cases same

theorem SpellsItems.skipSpace_ne {items : List Value} (spells : SpellsItems items chars rest)
    (tail : List Char) : skipSpace chars ≠ ']' :: tail := by
  cases spells with
  | last spells => exact spells.skipSpace_ne tail
  | more spells => exact spells.skipSpace_ne tail

theorem SpellsMembers.skipSpace_ne {members : List (String × Value)}
    (spells : SpellsMembers members chars rest) (tail : List Char) :
    skipSpace chars ≠ '\x7d' :: tail := by
  intro same
  cases spells with
  | last names => cases names.symm.trans same
  | more names => cases names.symm.trans same

theorem comma_is_solid : isSpace ',' = false := rfl

theorem colon_is_solid : isSpace ':' = false := rfl

variable {fuel room : Nat}

theorem read_of_skipSpace {other : List Char} (same : skipSpace chars = skipSpace other) :
    read fuel room chars = read fuel room other := by
  cases fuel <;> simp only [read, same]

theorem readItems_skipSpace :
    readItems fuel room (skipSpace chars) = readItems fuel room chars := by
  cases fuel with
  | zero => rfl
  | succ fuel => rw [readItems, readItems, read_of_skipSpace skipSpace_skipSpace]

theorem readMembers_skipSpace :
    readMembers fuel room (skipSpace chars) = readMembers fuel room chars := by
  cases fuel with
  | zero => rfl
  | succ fuel => rw [readMembers, readMembers, skipSpace_skipSpace]

/-- A number is read where a value is expected. -/
theorem read_toDigits (word : UInt64) (ends : EndsNumber rest) :
    read (fuel + 1) room (Nat.toDigits 10 word.toNat ++ rest) =
      (.number (.natural word), some rest) := by
  have number := readNumber_toDigits word ends
  cases shape : Nat.toDigits 10 word.toNat with
  | nil => exact absurd shape Nat.toDigits_ne_nil
  | cons first digits =>
      have digit := isDigit_of_toDigits shape
      rw [shape, List.cons_append] at number
      rw [List.cons_append, read, skipSpace_cons_of_not_isSpace (isSpace_of_isDigit digit)]
      split
      case h_8 =>
        rw [number]
        rfl
      -- a digit is none of the other characters that a value begins with
      all_goals
        rename_i same
        cases same
      all_goals cases digit

/-- Fuel for a text that is longer than its rest is not used up. -/
theorem exists_fuel (longer : rest.length < chars.length)
    (enough : chars.length ≤ fuel + rest.length) : ∃ less, fuel = less + 1 :=
  ⟨fuel - 1, by omega⟩

mutual

/-- A value is read from what spells it. -/
theorem Spells.read_eq {value : Value} {chars rest : List Char} {room : Nat} (fuel : Nat) :
    Spells value chars rest → value.IsPlain room → chars.length ≤ fuel + rest.length →
      read fuel room chars = (ofValue value, some rest)
  | .blank space spells, plain, enough => by
      rw [List.length_cons] at enough
      rw [read_of_skipSpace (skipSpace_cons_of_isSpace space)]
      exact spells.read_eq fuel plain (by omega)
  | .null rest, _, enough => by
      obtain ⟨fuel, rfl⟩ := exists_fuel (Spells.null rest).length_lt enough
      rfl
  | .yes rest, _, enough => by
      obtain ⟨fuel, rfl⟩ := exists_fuel (Spells.yes rest).length_lt enough
      rfl
  | .no rest, _, enough => by
      obtain ⟨fuel, rfl⟩ := exists_fuel (Spells.no rest).length_lt enough
      rfl
  | .natural word ends, _, enough => by
      obtain ⟨fuel, rfl⟩ := exists_fuel (Spells.natural word ends).length_lt enough
      exact read_toDigits word ends
  | .string text rest, _, enough => by
      obtain ⟨fuel, rfl⟩ := exists_fuel (Spells.string text rest).length_lt enough
      exact congrArg (scalar .string) (readString_of_escaped text rest)
  | .noItems rest, plain, enough => by
      obtain ⟨fuel, rfl⟩ := exists_fuel (Spells.noItems rest).length_lt enough
      have inside : ¬ room ≤ 1 := Nat.not_le.mpr plain.1
      simp only [read, if_neg inside]
      rfl
  | .noMembers rest, plain, enough => by
      obtain ⟨fuel, rfl⟩ := exists_fuel (Spells.noMembers rest).length_lt enough
      have inside : ¬ room ≤ 1 := Nat.not_le.mpr plain.1
      simp only [read, if_neg inside]
      rfl
  | .items spells, plain, enough => by
      obtain ⟨fuel, rfl⟩ := exists_fuel (Spells.items spells).length_lt enough
      have inside : ¬ room ≤ 1 := Nat.not_le.mpr plain.1
      rw [List.length_cons] at enough
      have found := spells.readItems_eq fuel plain.2 (by omega)
      rw [← readItems_skipSpace] at found
      have start : ∀ chars, skipSpace ('[' :: chars) = '[' :: chars := fun _ => rfl
      have apart := spells.skipSpace_ne
      rw [read, start]
      simp only [if_neg inside]
      rw [found]
      rfl
  | .members spells, plain, enough => by
      obtain ⟨fuel, rfl⟩ := exists_fuel (Spells.members spells).length_lt enough
      have inside : ¬ room ≤ 1 := Nat.not_le.mpr plain.1
      rw [List.length_cons] at enough
      have found := spells.readMembers_eq fuel plain.2 (by omega)
      rw [← readMembers_skipSpace] at found
      have start : ∀ chars, skipSpace ('\x7b' :: chars) = '\x7b' :: chars := fun _ => rfl
      have apart := spells.skipSpace_ne
      rw [read, start]
      simp only [if_neg inside]
      rw [found]
      rfl

/-- Items are read from what spells them. -/
theorem SpellsItems.readItems_eq {items : List Value} {chars rest : List Char} {room : Nat}
    (fuel : Nat) :
    SpellsItems items chars rest → Value.ArePlain room items →
      chars.length ≤ fuel + rest.length →
        readItems fuel room chars = (ofValues items, some rest)
  | .last spells closes, plain, enough => by
      obtain ⟨fuel, rfl⟩ := exists_fuel (SpellsItems.last spells closes).length_lt enough
      have closing := length_lt_of_next closes
      simp only [readItems, spells.read_eq fuel plain.1 (by omega), closes]
      rfl
  | .more spells spellsMore, plain, enough => by
      obtain ⟨fuel, rfl⟩ := exists_fuel (SpellsItems.more spells spellsMore).length_lt enough
      have own := spells.length_lt
      have others := spellsMore.length_lt
      rw [List.length_cons] at own
      have first := spells.read_eq fuel plain.1 (by rw [List.length_cons]; omega)
      rw [readItems, first]
      simp only [skipSpace_cons_of_not_isSpace comma_is_solid]
      rw [spellsMore.readItems_eq fuel plain.2 (by omega)]
      rfl

/-- Members are read from what spells them. -/
theorem SpellsMembers.readMembers_eq {members : List (String × Value)} {chars rest : List Char}
    {room : Nat} (fuel : Nat) :
    SpellsMembers members chars rest → Value.ArePlainMembers room members →
      chars.length ≤ fuel + rest.length →
        readMembers fuel room chars = (ofMembers members, some rest)
  | .last names spells closes, plain, enough => by
      obtain ⟨fuel, rfl⟩ := exists_fuel (SpellsMembers.last names spells closes).length_lt enough
      have closing := length_lt_of_next closes
      have named := length_lt_of_names names
      have own := spells.read_eq fuel plain.1 (by omega)
      rw [readMembers, names]
      simp only [readString_of_escaped, skipSpace_cons_of_not_isSpace colon_is_solid, own, closes]
      rfl
  | .more names spells spellsMore, plain, enough => by
      obtain ⟨fuel, rfl⟩ :=
        exists_fuel (SpellsMembers.more names spells spellsMore).length_lt enough
      have named := length_lt_of_names names
      have first := spells.length_lt
      have others := spellsMore.length_lt
      rw [List.length_cons] at first
      have own := spells.read_eq fuel plain.1 (by rw [List.length_cons]; omega)
      rw [readMembers, names]
      simp only [readString_of_escaped, skipSpace_cons_of_not_isSpace colon_is_solid, own,
        skipSpace_cons_of_not_isSpace comma_is_solid]
      rw [spellsMore.readMembers_eq fuel plain.2 (by omega)]
      rfl

end

end Reading

end Document

end Json

end Scan
