import Mathlib.Data.List.TakeWhile
import Mathlib.Tactic.Linarith
import Scan.Proofs.Compiled

/-!
# What parameters have to be

What can be asked of a parameter, said without reading it: that it is left out, a flag, a text, a
number or a length of time. Each reader of parameters succeeds on just what is asked for here.
-/

namespace Scan

/-- A sequence of two computations succeeds if and only if the first one does, and the second one on
what it found. -/
theorem exists_bind_iff {ε β γ : Type} {first : Except ε β} {next : β → Except ε γ} :
    (∃ result, (first >>= next) = .ok result) ↔
      ∃ found, first = .ok found ∧ ∃ result, next found = .ok result := by
  simp only [bind_eq_ok]
  constructor
  · rintro ⟨result, found, read, made⟩
    exact ⟨found, read, result, made⟩
  · rintro ⟨found, read, result, made⟩
    exact ⟨result, found, read, made⟩

theorem exists_pure_iff {ε β : Type} {value : β} :
    (∃ result, (pure value : Except ε β) = .ok result) ↔ True :=
  iff_true_intro ⟨value, rfl⟩

/-- A computation behind a guard succeeds if and only if the guard lets it and it does. -/
theorem exists_guarded_iff {ε β γ : Type} {refused : Prop} [Decidable refused] {error : ε}
    {next : Except ε γ} {never : β → Except ε γ} :
    (∃ result, (if refused then throw error >>= never else next) = .ok result) ↔
      ¬refused ∧ ∃ result, next = .ok result := by
  by_cases refused : refused <;> simp [refused, throw, throwThe, bind, Except.bind]

/-! ## Lengths of time -/

namespace Duration

variable {α : Type} [Scalar α]

/-- Whether a number of seconds is a length of time: it is finite and not negative, and rounded to
the nearest nanosecond, a half going to the even one, it is less than `2 ^ 64` seconds. -/
def Fits (seconds : α) : Prop :=
  ∃ exact, Scalar.exact seconds = some exact ∧ 0 ≤ exact ∧
    exact * second < 2 ^ 64 * second - 1 / 2

/-- A fraction is more than a half below a bound if and only if it is so with its denominator taken
away. -/
theorem div_lt_sub_half_iff {count den bound : Nat} (positive : 0 < den) :
    (count / den : Rat) < bound - 1 / 2 ↔ 2 * count + den < 2 * bound * den := by
  have real : (0 : Rat) < den := by exact_mod_cast positive
  rw [div_lt_iff₀ real, ← Nat.cast_lt (α := Rat)]
  push_cast
  constructor <;> intro small <;> linarith

/-- What is rounded stays below an even number as long as it is more than a half below it. -/
theorem roundToEven_lt_iff {value : Rat} {bound : Nat} (natural : 0 ≤ value)
    (even : bound % 2 = 0) : roundToEven value < bound ↔ value < bound - 1 / 2 := by
  have positive : 0 < value.den := value.den_pos
  have fraction : (value.num.toNat / value.den : Rat) = value := by
    have numerator : (value.num.toNat : Int) = value.num :=
      Int.toNat_of_nonneg (Rat.num_nonneg.mpr natural)
    rw [← Int.cast_natCast value.num.toNat, numerator, Rat.num_div_den]
  have whole : value < bound - 1 / 2 ↔
      2 * value.num.toNat + value.den < 2 * bound * value.den := by
    rw [← div_lt_sub_half_iff positive, fraction]
  rw [whole, roundToEven]
  generalize value.num.toNat = count at *
  generalize value.den = den at *
  have split := Nat.div_add_mod count den
  have small := Nat.mod_lt count positive
  generalize count / den = quotient at *
  generalize count % den = rest at *
  have below (gap : Nat) (room : quotient + gap ≤ bound) :
      den * quotient + den * gap ≤ bound * den := by
    rw [← Nat.mul_add, Nat.mul_comm den]
    exact Nat.mul_le_mul_right den room
  have above (gap : Nat) (full : bound ≤ quotient + gap) :
      bound * den ≤ den * quotient + den * gap := by
    rw [← Nat.mul_add, Nat.mul_comm den]
    exact Nat.mul_le_mul_right den full
  -- a quotient is below the bound, at it, or, as the bound is even, one or two away from it
  have below₁ := below 1
  have below₂ := below 2
  have above₀ := above 0
  have above₁ := above 1
  rw [Nat.mul_assoc 2 bound den]
  split
  · omega
  split
  · omega
  · omega

/-- A number of seconds makes a duration if and only if it is a length of time. -/
theorem exists_ofSeconds?_iff {seconds : α} :
    (∃ duration, ofSeconds? seconds = some duration) ↔ Fits seconds := by
  rw [ofSeconds?, Fits]
  cases Scalar.exact seconds with
  | none => simp
  | some value =>
      by_cases negative : value < 0
      · simp [negative]
      · have natural : 0 ≤ value * second :=
          Rat.mul_nonneg (Rat.not_lt.mp negative) (by simp [second])
        have fits : roundToEven (value * second) / second ≤ maxSeconds ↔
            value * second < 2 ^ 64 * second - 1 / 2 := by
          have limit : roundToEven (value * second) / second ≤ maxSeconds ↔
              roundToEven (value * second) < 2 ^ 64 * second := by
            simp only [second, maxSeconds, Nat.pow_eq]
            omega
          rw [limit, roundToEven_lt_iff natural (by decide)]
          push_cast
          rfl
        simp [negative, Rat.not_lt.mp negative, fits]

end Duration

/-! ## Texts -/

namespace Text

/-- A list of characters is trimmed to nothing if and only if all of them are blank. -/
theorem trimChars_eq_nil_iff {chars : List Char} :
    trimChars chars = [] ↔ ∀ c ∈ chars, isBlank c = true := by
  rw [trimChars, List.reverse_eq_nil_iff, List.dropWhile_eq_nil_iff]
  simp only [List.mem_reverse]
  constructor
  · intro behind c member
    rw [← List.takeWhile_append_dropWhile (p := isBlank) (l := chars)] at member
    rcases List.mem_append.mp member with member | member
    · exact (List.mem_takeWhile_imp member)
    · exact behind c member
  · intro blank c member
    exact blank c ((List.dropWhile_suffix isBlank).mem member)

/-- A text is trimmed to nothing if and only if it holds nothing but blanks. -/
theorem trim_eq_empty_iff {text : String} : trim text = "" ↔ isAllBlank text = true := by
  rw [trim, isAllBlank, List.all_eq_true, ← trimChars_eq_nil_iff, String.ofList_eq_empty_iff]

end Text

/-- What denotes a number is not blank. -/
theorem trim_ne_empty_of_finiteLiteral? {text : String} {value : Float}
    (literal : finiteLiteral? text = some value) : Text.trim text ≠ "" := by
  intro blank
  rw [finiteLiteral?, blank, show Decimal.readLiteral "" = none by decide] at literal
  cases literal

/-! ## Parameters -/

namespace Descriptor

section Parameters

variable (α : Type) [Scalar α] (descriptor : Descriptor) (name : String)

/-- Whether a parameter is left out: it is missing, or null. -/
def Omits : Prop :=
  descriptor.param? name = none ∨ descriptor.param? name = some .null

/-- Whether a parameter is a flag. -/
def HasFlag : Prop :=
  ∃ flag, descriptor.param? name = some (.bool flag)

/-- Whether a parameter is a given text, which is not blank. -/
def Says (text : String) : Prop :=
  descriptor.param? name = some (.string text) ∧ Text.trim text ≠ ""

/-- Whether a parameter is a text that is not blank. -/
def HasText : Prop :=
  ∃ text, descriptor.Says name text

/-- Whether a parameter is the name of a comparison. -/
def HasComparison : Prop :=
  ∃ text ∈ ["equals", "at_least", "above", "at_most", "below", "increase_by", "decrease_by"],
    descriptor.param? name = some (.string text)

/-- The finite number that a parameter is, if it is one. -/
def numeral? : Option α :=
  match descriptor.param? name with
  | some (.number found) =>
      if found.toFloat.isFinite then some (Scalar.ofFloat found.toFloat) else none
  | _ => none

/-- Whether a parameter is a finite number or a text that is not blank. -/
def HasQuantity : Prop :=
  (∃ value, descriptor.numeral? α name = some value) ∨ descriptor.HasText name

/-- Whether a parameter is a finite number that is not negative. -/
def HasNonNegative : Prop :=
  ∃ value, descriptor.numeral? α name = some value ∧ Scalar.lt value Scalar.zero = false

/-- Whether a parameter is a length of time in seconds. -/
def HasTime : Prop :=
  ∃ value, descriptor.numeral? α name = some value ∧ Scalar.lt value Scalar.zero = false ∧
    Duration.Fits value

end Parameters

section Readers

variable {α : Type} [Scalar α] {descriptor : Descriptor} {name : String}

theorem requireNames_eq_ok {known : List String} {done : Unit} :
    descriptor.requireNames known = .ok done ↔
      ∀ name ∈ descriptor.params.names, name ∈ known := by
  rw [requireNames]
  cases found : descriptor.params.names.find? fun name => !known.contains name with
  | none => simpa using found
  | some stranger =>
      have unknown := List.find?_some found
      have member := List.mem_of_find?_eq_some found
      simp only [Bool.not_eq_true', List.contains_eq_mem, decide_eq_false_iff_not] at unknown
      constructor
      · intro equal
        cases equal
      · intro all
        exact absurd (all stranger member) unknown

theorem requireNoBody_eq_ok {done : Unit} :
    descriptor.requireNoBody = .ok done ↔ descriptor.body = [] := by
  constructor
  · exact Command.body_of_requireNoBody
  · intro flat
    rw [requireNoBody, flat]
    rfl

theorem number?_eq_ok {found : Option α} : descriptor.number? name = .ok found ↔
    (descriptor.Omits name ∧ found = none) ∨
      ∃ value, descriptor.numeral? α name = some value ∧ found = some value := by
  rw [number?, Omits, numeral?]
  cases descriptor.param? name with
  | none => simp [eq_comm]
  | some value =>
      cases value with
      | null => simp [eq_comm]
      | number number => by_cases finite : number.toFloat.isFinite = true <;> simp [finite, eq_comm]
      | bool | string | array | object => simp

theorem not_omits_of_numeral? {value : α} (given : descriptor.numeral? α name = some value) :
    ¬descriptor.Omits name := by
  intro omitted
  rw [numeral?] at given
  rcases omitted with omitted | omitted <;> simp [omitted] at given

theorem number_eq_ok {value : α} :
    descriptor.number name = .ok value ↔ descriptor.numeral? α name = some value := by
  simp only [number, bind_eq_ok, number?_eq_ok]
  constructor
  · rintro ⟨_, ⟨-, rfl⟩ | ⟨value, read, rfl⟩, made⟩
    · cases made
    · cases made
      exact read
  · intro read
    exact ⟨some value, .inr ⟨value, read, rfl⟩, rfl⟩

theorem nonNegative?_eq_ok {found : Option α} : descriptor.nonNegative? name = .ok found ↔
    (descriptor.Omits name ∧ found = none) ∨
      ∃ value, descriptor.numeral? α name = some value ∧
        Scalar.lt value Scalar.zero = false ∧ found = some value := by
  simp only [nonNegative?, bind_eq_ok, number?_eq_ok]
  constructor
  · rintro ⟨_, ⟨omitted, rfl⟩ | ⟨value, read, rfl⟩, made⟩
    · cases made
      exact .inl ⟨omitted, rfl⟩
    · cases negative : Scalar.lt value Scalar.zero
      case true =>
        simp only [negative, if_true] at made
        cases made
      case false =>
        simp only [negative] at made
        cases made
        exact .inr ⟨value, read, negative, rfl⟩
  · rintro (⟨omitted, rfl⟩ | ⟨value, read, natural, rfl⟩)
    · exact ⟨none, .inl ⟨omitted, rfl⟩, rfl⟩
    · refine ⟨some value, .inr ⟨value, read, rfl⟩, ?_⟩
      simp only [natural]
      rfl

theorem exists_nonNegative?_iff : (∃ found : Option α, descriptor.nonNegative? name = .ok found) ↔
    descriptor.Omits name ∨ descriptor.HasNonNegative α name := by
  simp only [nonNegative?_eq_ok, HasNonNegative]
  constructor
  · rintro ⟨_, ⟨omitted, -⟩ | ⟨value, read, natural, -⟩⟩
    · exact .inl omitted
    · exact .inr ⟨value, read, natural⟩
  · rintro (omitted | ⟨value, read, natural⟩)
    · exact ⟨none, .inl ⟨omitted, rfl⟩⟩
    · exact ⟨some value, .inr ⟨value, read, natural, rfl⟩⟩

/-- Time is read from what is left out, as long as zero is zero, and from lengths of time. -/
theorem exists_duration_iff (zero : Scalar.exact (Scalar.zero : α) = some 0) :
    (∃ duration, descriptor.duration α name = .ok duration) ↔
      descriptor.Omits name ∨ descriptor.HasTime α name := by
  have fits : Duration.Fits (Scalar.zero : α) :=
    ⟨0, zero, Rat.le_refl, by simp only [Duration.second]; norm_num⟩
  simp only [duration, bind_eq_ok]
  constructor
  · rintro ⟨duration, found, read, made⟩
    split at made
    · rename_i counted
      rcases nonNegative?_eq_ok.mp read with ⟨omitted, -⟩ | ⟨value, given, natural, rfl⟩
      · exact .inl omitted
      · exact .inr ⟨value, given, natural, Duration.exists_ofSeconds?_iff.mp ⟨_, counted⟩⟩
    · cases made
  · intro given
    have read : ∃ found : Option α, descriptor.nonNegative? name = .ok found ∧
        Duration.Fits (found.getD Scalar.zero) := by
      rcases given with omitted | ⟨value, given, natural, timely⟩
      · exact ⟨none, nonNegative?_eq_ok.mpr (.inl ⟨omitted, rfl⟩), fits⟩
      · exact ⟨some value, nonNegative?_eq_ok.mpr (.inr ⟨value, given, natural, rfl⟩), timely⟩
    obtain ⟨found, read, timely⟩ := read
    obtain ⟨duration, counted⟩ := Duration.exists_ofSeconds?_iff.mpr timely
    exact ⟨duration, found, read, by rw [counted]; rfl⟩

/-- A limit is read from what time is read from. -/
theorem exists_timeout?_iff (zero : Scalar.exact (Scalar.zero : α) = some 0) :
    (∃ limit, descriptor.timeout? α name = .ok limit) ↔
      descriptor.Omits name ∨ descriptor.HasTime α name := by
  simp only [timeout?, exists_bind_iff, exists_pure_iff, and_true, exists_duration_iff zero]

theorem text?_eq_ok {found : Option String} : descriptor.text? name = .ok found ↔
    (descriptor.Omits name ∧ found = none) ∨
      ∃ text, descriptor.Says name text ∧ found = some text := by
  simp only [text?, Omits, Says, ne_eq, Text.trim_eq_empty_iff]
  cases descriptor.param? name with
  | none => simp [@eq_comm _ found]
  | some value =>
      cases value with
      | null => simp [@eq_comm _ found]
      | string text => cases blank : Text.isAllBlank text <;> simp [blank, @eq_comm _ found]
      | bool | number | array | object => simp

theorem exists_text?_iff : (∃ found, descriptor.text? name = .ok found) ↔
    descriptor.Omits name ∨ descriptor.HasText name := by
  simp only [text?_eq_ok, HasText]
  constructor
  · rintro ⟨_, ⟨omitted, -⟩ | ⟨text, told, -⟩⟩
    · exact .inl omitted
    · exact .inr ⟨text, told⟩
  · rintro (omitted | ⟨text, told⟩)
    · exact ⟨none, .inl ⟨omitted, rfl⟩⟩
    · exact ⟨some text, .inr ⟨text, told, rfl⟩⟩

theorem text_eq_ok {found : String} :
    descriptor.text name = .ok found ↔ descriptor.Says name found := by
  simp only [text, bind_eq_ok, text?_eq_ok]
  constructor
  · rintro ⟨_, ⟨-, rfl⟩ | ⟨text, told, rfl⟩, made⟩
    · cases made
    · cases made
      exact told
  · intro told
    exact ⟨some found, .inr ⟨found, told, rfl⟩, rfl⟩

theorem exists_flag_iff {default : Bool} : (∃ found, descriptor.flag name default = .ok found) ↔
    descriptor.Omits name ∨ descriptor.HasFlag name := by
  rw [HasFlag, Omits]
  simp only [flag]
  cases descriptor.param? name with
  | none => simp
  | some value => cases value <;> simp

theorem exists_quantity_iff : (∃ found : Quantity α, descriptor.quantity name = .ok found) ↔
    descriptor.HasQuantity α name := by
  have literal :
      (∃ found : Quantity α, (descriptor.number (α := α) name).map .literal = .ok found) ↔
      ∃ value, descriptor.numeral? α name = some value := by
    simp only [← number_eq_ok]
    cases descriptor.number (α := α) name <;> simp [Except.map]
  simp only [quantity, HasQuantity, HasText, Says]
  split
  · rename_i text given
    have noNumber : descriptor.numeral? α name = none := by rw [numeral?, given]
    simp only [noNumber, given]
    cases denoted : finiteLiteral? text with
    | some value => simp [trim_ne_empty_of_finiteLiteral? denoted]
    | none => cases blank : Text.isAllBlank text <;> simp [blank, Text.trim_eq_empty_iff]
  · rename_i noText
    rw [literal]
    rw [iff_self_or]
    rintro ⟨text, given, -⟩
    exact absurd given (noText text)

end Readers

end Descriptor

end Scan
