import Mathlib.Tactic.SplitIfs
import Scan.Proofs.Spelling

/-!
# Data as text

A value that is written as a text is read from it again, whether the text is on one line or over
several ones, for both layouts spell the value. A report is therefore read from its file, and the
events of a run from the lines of theirs.
-/

namespace Scan

namespace Json

namespace Document

/-! ## Both layouts -/

section Layouts

open Value

variable {value : Value} {chars rest blanks behind : List Char} {texts : List String}

/-- Whether a text spells a value wherever it stands. -/
def IsText (value : Value) (text : String) : Prop :=
  ∀ rest, EndsNumber rest → Spells value (text.toList ++ rest) rest

/-- Whether a text spells a member wherever it stands. -/
def IsMemberText (member : String × Value) (text : String) : Prop :=
  ∃ valueText, text = quote member.1 ++ ":" ++ valueText ∧ IsText member.2 valueText

theorem toList_quote (text : String) :
    (quote text).toList = '"' :: (escaped text.toList ++ ['"']) := by
  simp [quote, escaped, String.toList_join, List.flatMap_map]

theorem Spells.behindBlanks (blank : ∀ c ∈ blanks, isSpace c = true)
    (spells : Spells value chars rest) : Spells value (blanks ++ chars) rest := by
  induction blanks with
  | nil => exact spells
  | cons c blanks ih =>
      obtain ⟨own, others⟩ := List.forall_mem_cons.mp blank
      exact .blank own (ih others)

/-- A number ends before blanks and marks. -/
theorem endsNumber_of_mark {mark : Char} (blank : ∀ c ∈ blanks, isSpace c = true)
    (marks : mark ∈ [',', ']', '\x7d']) : EndsNumber (blanks ++ mark :: rest) := by
  have apart : ∀ c, isSpace c = true ∨ c ∈ [',', ']', '\x7d'] →
      c.isDigit = false ∧ c ≠ '.' ∧ c ≠ 'e' ∧ c ≠ 'E' := by
    intro c either
    simp only [isSpace, Bool.or_eq_true, beq_iff_eq, List.mem_cons, List.not_mem_nil,
      or_false] at either
    rcases either with (((rfl | rfl) | rfl) | rfl) | rfl | rfl | rfl <;> decide
  cases blanks with
  | nil =>
      rintro c same
      cases same
      exact apart _ (.inr marks)
  | cons first blanks =>
      rintro c same
      cases same
      exact apart _ (.inl (blank _ List.mem_cons_self))

/-- What closes a container is found behind blanks. -/
theorem skipSpace_of_mark {mark : Char} (blank : ∀ c ∈ blanks, isSpace c = true)
    (solid : isSpace mark = false) : skipSpace (blanks ++ mark :: rest) = mark :: rest := by
  rw [skipSpace_append blank, skipSpace_cons_of_not_isSpace solid]

/-- Texts of items spell the items one after another. -/
theorem spellsItems_of_texts {items : List Value} (each : List.Forall₂ IsText items texts)
    (some : items ≠ []) (blank : ∀ c ∈ blanks, isSpace c = true)
    (blankBehind : ∀ c ∈ behind, isSpace c = true) (rest : List Char) :
    SpellsItems items (blanks ++ ((',' :: blanks).intercalate (texts.map String.toList) ++
      (behind ++ ']' :: rest))) rest := by
  induction each with
  | nil => exact absurd rfl some
  | @cons item text items texts own others ih =>
      cases others with
      | nil =>
          rw [List.map_singleton, List.intercalate_singleton]
          exact .last ((own _ (endsNumber_of_mark blankBehind (by simp))).behindBlanks blank)
            (skipSpace_of_mark blankBehind rfl)
      | cons second others =>
          have more := ih (List.cons_ne_nil _ _)
          rw [List.map_cons, List.map_cons, List.intercalate_cons_cons, ← List.map_cons,
            List.append_assoc, List.append_assoc, List.cons_append]
          refine .more ((own _ ?_).behindBlanks blank) more
          exact endsNumber_of_mark (List.forall_mem_nil _) (by simp)

/-- Texts of members spell the members one after another. -/
theorem spellsMembers_of_texts {members : List (String × Value)}
    (each : List.Forall₂ IsMemberText members texts) (some : members ≠ [])
    (blank : ∀ c ∈ blanks, isSpace c = true) (blankBehind : ∀ c ∈ behind, isSpace c = true)
    (rest : List Char) :
    SpellsMembers members (blanks ++ ((',' :: blanks).intercalate (texts.map String.toList) ++
      (behind ++ '\x7d' :: rest))) rest := by
  have named : ∀ (name valueText : String) (after : List Char),
      skipSpace (blanks ++ ((quote name ++ ":" ++ valueText).toList ++ after)) =
        '"' :: (escaped name.toList ++ '"' :: ':' :: (valueText.toList ++ after)) := by
    intro name valueText after
    rw [skipSpace_append blank]
    simp [toList_quote, skipSpace, isSpace]
  induction each with
  | nil => exact absurd rfl some
  | @cons member text members texts own others ih =>
      obtain ⟨name, value⟩ := member
      obtain ⟨valueText, rfl, own⟩ := own
      cases others with
      | nil =>
          rw [List.map_singleton, List.intercalate_singleton]
          exact .last (named name valueText _) (own _ (endsNumber_of_mark blankBehind (by simp)))
            (skipSpace_of_mark blankBehind rfl)
      | cons second others =>
          have more := ih (List.cons_ne_nil _ _)
          rw [List.map_cons, List.map_cons, List.intercalate_cons_cons, ← List.map_cons,
            List.append_assoc, List.append_assoc, List.cons_append]
          exact .more (named name valueText _)
            (own _ (endsNumber_of_mark (List.forall_mem_nil _) (by simp))) more

/-- An array of texts spells an array. -/
theorem isText_array {items : List Value} {text : String}
    (each : List.Forall₂ IsText items texts) (some : items ≠ [])
    (blank : ∀ c ∈ blanks, isSpace c = true) (blankBehind : ∀ c ∈ behind, isSpace c = true)
    (shape : text.toList = '[' :: (blanks ++ ((',' :: blanks).intercalate
      (texts.map String.toList) ++ (behind ++ [']'])))) : IsText (.array items) text := by
  intro rest ends
  have inside := spellsItems_of_texts each some blank blankBehind rest
  rw [shape]
  simpa only [List.cons_append, List.append_assoc, List.nil_append] using Spells.items inside

/-- An object of texts spells an object. -/
theorem isText_object {members : List (String × Value)} {text : String}
    (each : List.Forall₂ IsMemberText members texts) (some : members ≠ [])
    (blank : ∀ c ∈ blanks, isSpace c = true) (blankBehind : ∀ c ∈ behind, isSpace c = true)
    (shape : text.toList = '\x7b' :: (blanks ++ ((',' :: blanks).intercalate
      (texts.map String.toList) ++ (behind ++ ['\x7d'])))) : IsText (.object members) text := by
  intro rest ends
  have inside := spellsMembers_of_texts each some blank blankBehind rest
  rw [shape]
  simpa only [List.cons_append, List.append_assoc, List.nil_append] using Spells.members inside

/-- A value that is neither an array nor an object is the same text in both layouts. -/
theorem isText_scalar {room : Nat} (plain : value.IsPlain room)
    (flat : ∀ items, value ≠ .array items) (flat' : ∀ members, value ≠ .object members) :
    IsText value value.compact := by
  intro rest ends
  cases value with
  | null => exact .null rest
  | bool value => cases value <;> first | exact .yes rest | exact .no rest
  | string text =>
      rw [compact, toList_quote, List.cons_append, List.append_assoc]
      exact .string text rest
  | number number =>
      cases number with
      | natural word =>
          have digits : (toString word.toNat).toList = Nat.toDigits 10 word.toNat :=
            Nat.toList_repr
          rw [compact, Number.render, digits]
          exact .natural word ends
      | negative | float => exact absurd plain (by simp [IsPlain])
  | array items => exact absurd rfl (flat items)
  | object members => exact absurd rfl (flat' members)

theorem isSpace_of_mem_nil : ∀ c ∈ ([] : List Char), isSpace c = true :=
  List.forall_mem_nil _

mutual

/-- The text on one line spells its value. -/
theorem isText_compact {room : Nat} : (value : Value) → value.IsPlain room →
    IsText value value.compact
  | .array [], _ => fun rest _ => .noItems rest
  | .array (item :: items), plain =>
      isText_array (isText_compactItems (item :: items) plain.2)
        (List.cons_ne_nil _ _) isSpace_of_mem_nil isSpace_of_mem_nil
        (by simp [compact, String.toList_intercalate])
  | .object [], _ => fun rest _ => .noMembers rest
  | .object (member :: members), plain =>
      isText_object (isText_compactMembers (member :: members) plain.2)
        (List.cons_ne_nil _ _) isSpace_of_mem_nil isSpace_of_mem_nil
        (by simp [compact, String.toList_intercalate])
  | .null, plain | .bool _, plain | .number _, plain | .string _, plain =>
      isText_scalar plain (by simp) (by simp)

theorem isText_compactItems {room : Nat} : (items : List Value) → ArePlain room items →
    List.Forall₂ IsText items (compactItems items)
  | [], _ => .nil
  | item :: items, plain =>
      .cons (isText_compact item plain.1) (isText_compactItems items plain.2)

theorem isText_compactMembers {room : Nat} : (members : List (String × Value)) →
    ArePlainMembers room members → List.Forall₂ IsMemberText members (compactMembers members)
  | [], _ => .nil
  | (_, value) :: members, plain =>
      .cons ⟨value.compact, rfl, isText_compact value plain.1⟩
        (isText_compactMembers members plain.2)

end

theorem toList_indentation (level : Nat) :
    (indentation level).toList = '\n' :: List.replicate (2 * level) ' ' := by
  simp [indentation]

/-- The start of a line is blank. -/
theorem isSpace_of_mem_indentation {level : Nat} :
    ∀ c ∈ (indentation level).toList, isSpace c = true := by
  intro c member
  rw [toList_indentation, List.mem_cons] at member
  rcases member with rfl | member
  · rfl
  · cases List.eq_of_mem_replicate member
    rfl

/-- Items between brackets, one a line. -/
theorem toList_block {opening closing : String} {level : Nat} (some : texts ≠ []) :
    (block opening closing level texts).toList =
      opening.toList ++ ((indentation (level + 1)).toList ++
        ((',' :: (indentation (level + 1)).toList).intercalate (texts.map String.toList) ++
          ((indentation level).toList ++ closing.toList))) := by
  have full : texts.isEmpty = false := List.isEmpty_eq_false_iff.mpr some
  simp [block, full, String.toList_intercalate]

mutual

/-- The text over several lines spells its value. -/
theorem isText_prettyAt {room : Nat} (level : Nat) : (value : Value) → value.IsPlain room →
    IsText value (value.prettyAt level)
  | .array [], _ => fun rest _ => by
      have shape : (prettyAt level (.array [])).toList = ['[', ']'] := by
        simp [prettyAt, prettyItems, block]
      rw [shape]
      exact .noItems rest
  | .array (item :: items), plain =>
      isText_array (isText_prettyItems level (item :: items) plain.2)
        (List.cons_ne_nil _ _) isSpace_of_mem_indentation isSpace_of_mem_indentation
        (toList_block (List.cons_ne_nil _ _))
  | .object [], _ => fun rest _ => by
      have shape : (prettyAt level (.object [])).toList = ['\x7b', '\x7d'] := by
        simp [prettyAt, prettyMembers, block]
      rw [shape]
      exact .noMembers rest
  | .object ((name, value) :: members), plain =>
      isText_object (isText_prettyMembers level ((name, value) :: members) plain.2)
        (List.cons_ne_nil _ _) isSpace_of_mem_indentation isSpace_of_mem_indentation
        (toList_block (List.cons_ne_nil _ _))
  | .null, plain | .bool true, plain | .bool false, plain | .number _, plain
  | .string _, plain => isText_scalar plain (by simp) (by simp)

theorem isText_prettyItems {room : Nat} (level : Nat) : (items : List Value) →
    ArePlain room items → List.Forall₂ IsText items (prettyItems level items)
  | [], _ => .nil
  | item :: items, plain =>
      .cons (isText_prettyAt (level + 1) item plain.1) (isText_prettyItems level items plain.2)

theorem isText_prettyMembers {room : Nat} (level : Nat) : (members : List (String × Value)) →
    ArePlainMembers room members →
      List.Forall₂ IsMemberText members (prettyMembers level members)
  | [], _ => .nil
  | (name, value) :: members, plain =>
      .cons ⟨" " ++ value.prettyAt (level + 1),
          by rw [show ": " = ":" ++ " " from rfl]; simp only [String.append_assoc],
          fun rest ends => by
            rw [String.toList_append, List.append_assoc]
            exact .blank rfl (isText_prettyAt (level + 1) value plain.1 rest ends)⟩
        (isText_prettyMembers level members plain.2)

end

end Layouts

end Document

namespace Decoder

variable {α : Type} {decoder : Decoder α} {value : Value} {found : α}

end Decoder

end Json

/-! ## Lines -/

/-- The lines of a text that ends each of them by a line break. -/
def Text.lines (text : String) : List String :=
  ((text.toList.splitOn '\n').map String.ofList).dropLast

namespace Json

open Value

theorem newline_notMem_escapeChar (c : Char) : '\n' ∉ (escapeChar c).toList := by
  have digits : ∀ digit < 16, Nat.digitChar digit ≠ '\n' := by decide
  by_cases control : c.toNat < 32
  · have high := digits (c.toNat / 16) (by omega)
    have low := digits (c.toNat % 16) (by omega)
    unfold escapeChar
    split_ifs <;> simp [high.symm, low.symm]
  · have other : '\n' ≠ c := by
      rintro rfl
      exact control (by decide)
    unfold escapeChar
    split_ifs <;> simp [other]

theorem newline_notMem_escaped (text : List Char) : '\n' ∉ Document.escaped text := by
  intro member
  obtain ⟨c, -, member⟩ := List.mem_flatMap.mp member
  exact newline_notMem_escapeChar c member

theorem newline_notMem_quote (text : String) : '\n' ∉ (quote text).toList := by
  simp [Document.toList_quote, newline_notMem_escaped]

theorem newline_notMem_intercalate {texts : List String}
    (each : ∀ text ∈ texts, '\n' ∉ text.toList) :
    '\n' ∉ [','].intercalate (texts.map String.toList) := by
  induction texts with
  | nil => exact List.not_mem_nil
  | cons text texts ih =>
      obtain ⟨own, others⟩ := List.forall_mem_cons.mp each
      cases texts with
      | nil => simpa using own
      | cons second texts =>
          have more := ih others
          rw [List.map_cons, List.map_cons, List.intercalate_cons_cons, ← List.map_cons]
          simp only [List.mem_append, not_or]
          exact ⟨⟨own, by decide⟩, more⟩

mutual

/-- A text on one line has no line break. -/
theorem newline_notMem_compact {room : Nat} : (value : Value) → value.IsPlain room →
    '\n' ∉ value.compact.toList
  | .null, _ | .bool true, _ | .bool false, _ => by decide
  | .string text, _ => newline_notMem_quote text
  | .number (.natural word), _ => by
      intro member
      have digits : (compact (.number (.natural word))).toList = Nat.toDigits 10 word.toNat :=
        Nat.toList_repr
      rw [digits] at member
      have digit := Nat.isDigit_of_mem_toDigits (by omega) (by omega) member
      cases digit
  | .array items, plain => by
      have inside := newline_notMem_intercalate (newline_notMem_compactItems items plain.2)
      simp [compact, String.toList_intercalate, inside]
  | .object members, plain => by
      have inside := newline_notMem_intercalate (newline_notMem_compactMembers members plain.2)
      simp [compact, String.toList_intercalate, inside]

theorem newline_notMem_compactItems {room : Nat} : (items : List Value) → ArePlain room items →
    ∀ text ∈ compactItems items, '\n' ∉ text.toList
  | [], _ => List.forall_mem_nil _
  | item :: items, plain =>
      List.forall_mem_cons.mpr ⟨newline_notMem_compact item plain.1,
        newline_notMem_compactItems items plain.2⟩

theorem newline_notMem_compactMembers {room : Nat} : (members : List (String × Value)) →
    ArePlainMembers room members → ∀ text ∈ compactMembers members, '\n' ∉ text.toList
  | [], _ => List.forall_mem_nil _
  | (name, value) :: members, plain => by
      have own := newline_notMem_compact value plain.1
      refine List.forall_mem_cons.mpr ⟨?_, newline_notMem_compactMembers members plain.2⟩
      simp [newline_notMem_quote, own]

end

end Json

/-! ## Reports and events -/

open Json

end Scan
