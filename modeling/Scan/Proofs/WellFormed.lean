import Scan.Proofs.Readers

/-!
# Well-formed descriptors

A descriptor is well formed if every node of its tree is sound by itself: it is of one of the kinds,
has parameters of that kind only and each of them as it has to be, nested steps only where they
belong, and work that fits a word. The parameters of each kind are read from just the nodes that
have them as they have to be.
-/

namespace Scan

variable {α : Type} [Scalar α]

/-! ## The values of a loop -/

/-- How many values there are from a start to a stop, none if the span from one to the other is no
finite number of steps. -/
def valueCount? (start stop step : α) : Option Nat := do
  let span := (stop - start) / step
  let _ ← Scalar.exact span
  if Scalar.lt span (Scalar.zero - iterationSlack) then return 0
  let reach ← Scalar.exact (span + iterationSlack)
  return reach.floor.toNat + 1

/-- The iterations of a loop are its values, if these are not too many. -/
theorem iterationCount_eq_some {start stop step : α} {count : Nat} :
    iterationCount start stop step = some count ↔
      valueCount? start stop step = some count ∧ count ≤ maxIterations := by
  simp only [iterationCount, valueCount?]
  cases Scalar.exact ((stop - start) / step) with
  | none => simp
  | some _ =>
      cases Scalar.lt ((stop - start) / step) (Scalar.zero - iterationSlack)
      case true => simp +contextual [eq_comm]
      case false =>
        cases Scalar.exact ((stop - start) / step + iterationSlack) with
        | none => simp
        | some reach =>
            have many : maxIterations ≤ reach.floor ↔ ¬reach.floor.toNat + 1 ≤ maxIterations := by
              have positive : 0 < maxIterations := by decide
              omega
            by_cases few : reach.floor.toNat + 1 ≤ maxIterations <;>
              simp +contextual [many, few, eq_comm]

/-! ## Sound nodes -/

namespace Descriptor

section Soundness

variable (α) (descriptor : Descriptor)

/-- The kinds of steps. -/
def kinds : List String :=
  ["delay", "set", "wait", "comment", "loop", "group"]

/-- Whether all parameters are among some known ones. -/
def HasOnly (known : List String) : Prop :=
  ∀ name ∈ descriptor.params.names, name ∈ known

/-- Whether the parameters say how a write is completed. -/
structure Completes : Prop where
  wait : descriptor.Omits "wait" ∨ descriptor.HasFlag "wait"
  readback : descriptor.Omits "readback" ∨ descriptor.HasText "readback"
  tolerance : descriptor.Omits "tolerance" ∨ descriptor.HasNonNegative α "tolerance"
  timeout : descriptor.Omits "timeout" ∨ descriptor.HasTime α "timeout"

/-- Whether the parameters say through which values a loop goes. -/
def HasRange : Prop :=
  ∃ start stop step count, descriptor.numeral? α "start" = some start ∧
    descriptor.numeral? α "end" = some stop ∧ descriptor.numeral? α "step" = some step ∧
    Scalar.same step Scalar.zero = false ∧ valueCount? start stop step = some count ∧
    count ≤ maxIterations

/-- How many values a loop goes through. -/
def valueCount : Nat :=
  let count := do
    let start ← descriptor.numeral? α "start"
    let stop ← descriptor.numeral? α "end"
    let step ← descriptor.numeral? α "step"
    valueCount? start stop step
  count.getD 0

mutual

/-- How many units of work a descriptor comes to: a loop has one for each of its values besides
those of its nested steps. -/
def units : Descriptor → Nat
  | ⟨kind, label, params, body⟩ =>
      if kind = "loop" then (unitsAll body + 1) * valueCount α ⟨kind, label, params, body⟩
      else if kind = "group" then unitsAll body
      else 1

/-- How many units of work descriptors come to together. -/
def unitsAll : List Descriptor → Nat
  | [] => 0
  | descriptor :: rest => units descriptor + unitsAll rest

end

/-- What a descriptor has to be by itself, its nested steps being what they may. -/
inductive IsSound : Prop where
  | delay (kind : descriptor.kind = "delay") (known : descriptor.HasOnly ["seconds"])
      (flat : descriptor.body = []) (seconds : descriptor.HasTime α "seconds")
  | set (kind : descriptor.kind = "set")
      (known : descriptor.HasOnly
        ["channel", "value", "wait", "readback", "tolerance", "timeout"])
      (flat : descriptor.body = []) (channel : descriptor.HasText "channel")
      (value : descriptor.HasQuantity α "value") (completes : descriptor.Completes α)
  | wait (kind : descriptor.kind = "wait")
      (known : descriptor.HasOnly ["channel", "comparison", "value", "tolerance", "timeout"])
      (flat : descriptor.body = []) (channel : descriptor.HasText "channel")
      (comparison : descriptor.Omits "comparison" ∨ descriptor.HasComparison "comparison")
      (value : descriptor.HasQuantity α "value")
      (tolerance : descriptor.Omits "tolerance" ∨ descriptor.HasNonNegative α "tolerance")
      (timeout : descriptor.Omits "timeout" ∨ descriptor.HasTime α "timeout")
  | comment (kind : descriptor.kind = "comment") (known : descriptor.HasOnly ["text"])
      (flat : descriptor.body = []) (text : descriptor.HasText "text")
  | loop (kind : descriptor.kind = "loop")
      (known : descriptor.HasOnly
        ["channel", "start", "end", "step", "wait", "readback", "tolerance", "timeout"])
      (channel : descriptor.HasText "channel") (range : descriptor.HasRange α)
      (completes : descriptor.Completes α) (perValue : unitsAll α descriptor.body + 1 < 2 ^ 64)
      (total : (unitsAll α descriptor.body + 1) * descriptor.valueCount α < 2 ^ 64)
  | group (kind : descriptor.kind = "group") (known : descriptor.HasOnly [])
      (total : unitsAll α descriptor.body < 2 ^ 64)

/-- Whether every node of a tree is sound. -/
def IsWellFormed : Prop :=
  ∀ node : Descriptor, node.Within [descriptor] → node.IsSound α

end Soundness

end Descriptor

/-! ## The readers of each kind -/

section Kinds

variable {descriptor : Descriptor}

theorem Completion.exists_ofDescriptor_iff {channel : String}
    (zero : Scalar.exact (Scalar.zero : α) = some 0) :
    (∃ completion : Completion α, ofDescriptor descriptor channel = .ok completion) ↔
      descriptor.Completes α := by
  simp only [ofDescriptor, exists_bind_iff, exists_pure_iff, and_true, exists_and_right,
    Descriptor.exists_flag_iff, Descriptor.exists_text?_iff, Descriptor.exists_nonNegative?_iff,
    Descriptor.exists_timeout?_iff zero]
  constructor
  · rintro ⟨wait, readback, tolerance, timeout⟩
    exact ⟨wait, readback, tolerance, timeout⟩
  · rintro ⟨wait, readback, tolerance, timeout⟩
    exact ⟨wait, readback, tolerance, timeout⟩

/-- A text is the name of a comparison if and only if it is one of the seven. -/
theorem Comparison.exists_parse?_iff {text : String} :
    (∃ comparison, parse? text = some comparison) ↔
      text ∈ ["equals", "at_least", "above", "at_most", "below", "increase_by", "decrease_by"] := by
  rw [← Option.isSome_iff_exists, parse?, Option.isSome_map, List.find?_isSome]
  simp [variants, @eq_comm _ _ text]

namespace Command

/-- A delay is read from a length of time. -/
theorem exists_delayOf_iff (zero : Scalar.exact (Scalar.zero : α) = some 0) :
    (∃ command : Command α, delayOf descriptor = .ok command) ↔
      descriptor.HasOnly ["seconds"] ∧ descriptor.body = [] ∧ descriptor.HasTime α "seconds" := by
  simp only [delayOf, exists_bind_iff, exists_pure_iff, exists_guarded_iff, and_true, exists_const,
    Descriptor.requireNames_eq_ok, Descriptor.requireNoBody_eq_ok, Descriptor.number_eq_ok,
    Descriptor.exists_duration_iff zero, Descriptor.HasOnly, Bool.not_eq_true]
  apply and_congr_right'
  apply and_congr_right'
  constructor
  · rintro ⟨seconds, given, -, timed⟩
    exact timed.resolve_left (Descriptor.not_omits_of_numeral? given)
  · rintro ⟨seconds, given, natural, fits⟩
    exact ⟨seconds, given, natural, .inr ⟨seconds, given, natural, fits⟩⟩

/-- A write is read from a channel, a quantity and how it is completed. -/
theorem exists_setOf_iff (zero : Scalar.exact (Scalar.zero : α) = some 0) :
    (∃ command : Command α, setOf descriptor = .ok command) ↔
      descriptor.HasOnly ["channel", "value", "wait", "readback", "tolerance", "timeout"] ∧
        descriptor.body = [] ∧ descriptor.HasText "channel" ∧ descriptor.HasQuantity α "value" ∧
        descriptor.Completes α := by
  simp only [setOf, exists_bind_iff, exists_pure_iff, and_true, exists_and_right, exists_const,
    Descriptor.requireNames_eq_ok, Descriptor.requireNoBody_eq_ok, Descriptor.text_eq_ok,
    Descriptor.exists_quantity_iff, Completion.exists_ofDescriptor_iff zero, Descriptor.HasOnly,
    Descriptor.HasText]

/-- A comparison is read from its name. -/
theorem exists_comparisonOf_iff : (∃ comparison, comparisonOf descriptor = .ok comparison) ↔
    descriptor.Omits "comparison" ∨ descriptor.HasComparison "comparison" := by
  simp only [comparisonOf, exists_bind_iff]
  constructor
  · rintro ⟨found, read, comparison, made⟩
    rcases Descriptor.text?_eq_ok.mp read with ⟨omitted, -⟩ | ⟨text, ⟨given, -⟩, rfl⟩
    · exact .inl omitted
    · refine .inr ⟨text, ?_, given⟩
      simp only at made
      split at made
      · rename_i parsed
        exact Comparison.exists_parse?_iff.mp ⟨_, parsed⟩
      · cases made
  · rintro (omitted | ⟨text, known, given⟩)
    · exact ⟨none, Descriptor.text?_eq_ok.mpr (.inl ⟨omitted, rfl⟩), .equals, rfl⟩
    · obtain ⟨comparison, parsed⟩ := Comparison.exists_parse?_iff.mpr known
      have legible : Text.trim text ≠ "" := by
        simp only [List.mem_cons, List.not_mem_nil, or_false] at known
        rcases known with rfl | rfl | rfl | rfl | rfl | rfl | rfl <;> decide
      refine ⟨some text, Descriptor.text?_eq_ok.mpr (.inr ⟨text, ⟨given, legible⟩, rfl⟩),
        comparison, ?_⟩
      simp only [parsed]
      rfl

/-- A wait is read from a channel, a comparison, a quantity, a tolerance and a limit. -/
theorem exists_waitOf_iff (zero : Scalar.exact (Scalar.zero : α) = some 0) :
    (∃ command : Command α, waitOf descriptor = .ok command) ↔
      descriptor.HasOnly ["channel", "comparison", "value", "tolerance", "timeout"] ∧
        descriptor.body = [] ∧ descriptor.HasText "channel" ∧
        (descriptor.Omits "comparison" ∨ descriptor.HasComparison "comparison") ∧
        descriptor.HasQuantity α "value" ∧
        (descriptor.Omits "tolerance" ∨ descriptor.HasNonNegative α "tolerance") ∧
        (descriptor.Omits "timeout" ∨ descriptor.HasTime α "timeout") := by
  simp only [waitOf, exists_bind_iff, exists_pure_iff, and_true, exists_and_right, exists_const,
    Descriptor.requireNames_eq_ok, Descriptor.requireNoBody_eq_ok, Descriptor.text_eq_ok,
    exists_comparisonOf_iff, Descriptor.exists_quantity_iff, Descriptor.exists_nonNegative?_iff,
    Descriptor.exists_timeout?_iff zero, Descriptor.HasOnly, Descriptor.HasText]

omit [Scalar α] in
/-- A note is read from a text. -/
theorem exists_commentOf_iff : (∃ command : Command α, commentOf descriptor = .ok command) ↔
    descriptor.HasOnly ["text"] ∧ descriptor.body = [] ∧ descriptor.HasText "text" := by
  simp only [commentOf, exists_bind_iff, exists_pure_iff, and_true, exists_const,
    Descriptor.requireNames_eq_ok, Descriptor.requireNoBody_eq_ok, Descriptor.text_eq_ok,
    Descriptor.HasOnly, Descriptor.HasText]

/-- The range of a loop is read from a channel, two ends and a step and how each value is
completed. -/
theorem exists_sweepOf_iff (zero : Scalar.exact (Scalar.zero : α) = some 0) :
    (∃ sweep : Sweep α, sweepOf descriptor = .ok sweep) ↔
      descriptor.HasOnly
          ["channel", "start", "end", "step", "wait", "readback", "tolerance", "timeout"] ∧
        descriptor.HasText "channel" ∧ descriptor.HasRange α ∧ descriptor.Completes α := by
  simp only [sweepOf, exists_bind_iff, exists_guarded_iff, exists_const,
    Descriptor.requireNames_eq_ok, Descriptor.text_eq_ok, Descriptor.number_eq_ok,
    Descriptor.HasOnly, Descriptor.HasText, Bool.not_eq_true]
  apply and_congr_right'
  constructor
  · rintro ⟨channel, named, start, starts, stop, stops, step, steps, moves, completion, completed,
      sweep, made⟩
    split at made
    · rename_i count counted
      obtain ⟨counted, few⟩ := iterationCount_eq_some.mp counted
      exact ⟨⟨channel, named⟩,
        ⟨start, stop, step, count, starts, stops, steps, moves, counted, few⟩,
        (Completion.exists_ofDescriptor_iff zero).mp ⟨completion, completed⟩⟩
    · cases made
  · rintro ⟨⟨channel, named⟩, ⟨start, stop, step, count, starts, stops, steps, moves, counted, few⟩,
      completes⟩
    obtain ⟨completion, completed⟩ :
        ∃ completion : Completion α, Completion.ofDescriptor descriptor channel = .ok completion :=
      (Completion.exists_ofDescriptor_iff zero).mpr completes
    refine ⟨channel, named, start, starts, stop, stops, step, steps, moves, completion, completed,
      ⟨channel, start, stop, step, completion, count⟩, ?_⟩
    rw [iterationCount_eq_some.mpr ⟨counted, few⟩]
    rfl

end Command

end Kinds

end Scan
