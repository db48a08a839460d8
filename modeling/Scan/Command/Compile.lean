import Scan.Command

/-!
# Compilation

A descriptor is compiled into a command, or refused with the first thing that is wrong with it. The
order of the checks decides what that is: names of parameters first, then the body of a kind that
has none, then the parameters of the kind one after another, and the nested steps last.
-/

namespace Scan

variable {α : Type} [Scalar α]

/-- The tolerance where none is given. -/
def defaultTolerance : α :=
  Scalar.ofNat 1 / Scalar.ofNat 10

/-- Absorbs rounding in the span of a loop, so that its end is not missed. -/
def iterationSlack : α :=
  Scalar.ofNat 1 / Scalar.ofNat 1000000000

/-- The number of values of a loop: none if there is no finite number of them or if there are more
than the most that are allowed. -/
def iterationCount (start stop step : α) : Option Nat :=
  let span := (stop - start) / step
  match Scalar.exact span with
  | none => none
  | some _ =>
      if Scalar.lt span (Scalar.zero - iterationSlack) then some 0
      else
        match Scalar.exact (span + iterationSlack) with
        | none => none
        | some reach => if maxIterations ≤ reach.floor then none else some (reach.floor.toNat + 1)

namespace Completion

/-- Reads how a write to a channel is completed. -/
def ofDescriptor (descriptor : Descriptor) (channel : String) : Except Defect (Completion α) := do
  let wait ← descriptor.flag "wait" true
  let readback ← descriptor.text? "readback"
  let tolerance ← descriptor.nonNegative? "tolerance"
  let timeout ← descriptor.timeout? α "timeout"
  return ⟨wait, readback.getD channel, tolerance.getD defaultTolerance, timeout⟩

end Completion

namespace Command

/-- Compiles a delay. -/
def delayOf (descriptor : Descriptor) : Except Defect (Command α) := do
  descriptor.requireNames ["seconds"]
  descriptor.requireNoBody
  let seconds : α ← descriptor.number "seconds"
  if Scalar.lt seconds Scalar.zero then throw (.negativeDelay (Scalar.text seconds))
  let duration ← descriptor.duration α "seconds"
  return .delay (descriptor.label.getD ("Delay " ++ Scalar.text seconds ++ " sec")) seconds duration

/-- Compiles a write. -/
def setOf (descriptor : Descriptor) : Except Defect (Command α) := do
  descriptor.requireNames ["channel", "value", "wait", "readback", "tolerance", "timeout"]
  descriptor.requireNoBody
  let channel ← descriptor.text "channel"
  let value : Quantity α ← descriptor.quantity "value"
  let completion ← Completion.ofDescriptor descriptor channel
  let description := descriptor.label.getD
    ("Set '" ++ channel ++ "' = " ++ value.text ++ completion.suffix)
  return .set description ⟨channel, value, completion⟩

/-- Reads the comparison of a wait. -/
def comparisonOf (descriptor : Descriptor) : Except Defect Comparison := do
  match ← descriptor.text? "comparison" with
  | none => return .equals
  | some text =>
      match Comparison.parse? text with
      | some comparison => return comparison
      | none => throw (.unknownComparison text)

/-- Compiles a wait. -/
def waitOf (descriptor : Descriptor) : Except Defect (Command α) := do
  descriptor.requireNames ["channel", "comparison", "value", "tolerance", "timeout"]
  descriptor.requireNoBody
  let channel ← descriptor.text "channel"
  let comparison ← comparisonOf descriptor
  let value : Quantity α ← descriptor.quantity "value"
  let tolerance ← descriptor.nonNegative? "tolerance"
  let timeout ← descriptor.timeout? α "timeout"
  let limit := match timeout with
    | some limit => " (timeout " ++ Scalar.text (limit.seconds : α) ++ " sec)"
    | none => ""
  let description := descriptor.label.getD
    ("Wait for '" ++ channel ++ "' " ++ comparison.symbol ++ " " ++ value.text ++ limit)
  return .wait description ⟨channel, comparison, value, tolerance.getD defaultTolerance, timeout⟩

/-- Compiles a note. -/
def commentOf (descriptor : Descriptor) : Except Defect (Command α) := do
  descriptor.requireNames ["text"]
  descriptor.requireNoBody
  let text ← descriptor.text "text"
  return .comment (descriptor.label.getD ("Comment '" ++ text ++ "'")) text

/-- Reads the range of a loop. -/
def sweepOf (descriptor : Descriptor) : Except Defect (Sweep α) := do
  descriptor.requireNames
    ["channel", "start", "end", "step", "wait", "readback", "tolerance", "timeout"]
  let channel ← descriptor.text "channel"
  let start : α ← descriptor.number "start"
  let stop : α ← descriptor.number "end"
  let step : α ← descriptor.number "step"
  if Scalar.same step Scalar.zero then throw .zeroStep
  let completion ← Completion.ofDescriptor descriptor channel
  match iterationCount start stop step with
  | some iterations => return ⟨channel, start, stop, step, completion, iterations⟩
  | none =>
      throw (.tooManyIterations (Scalar.text start) (Scalar.text stop) (Scalar.text step))

/-- What a loop is called if it has no label. -/
def loopDescription (sweep : Sweep α) : String :=
  "Loop '" ++ sweep.channel ++ "' = " ++ Scalar.text sweep.start ++ " .. " ++
    Scalar.text sweep.stop ++ " step " ++ Scalar.text sweep.step ++ sweep.completion.suffix

/-- A loop over compiled nested steps: every value is one unit of work besides theirs. -/
def loopOf (descriptor : Descriptor) (sweep : Sweep α) (body : List (Command α)) :
    Except Defect (Command α) :=
  let work := do
    let perValue ← Work.add? (← totalWork? body) 1
    Work.mul? perValue (UInt64.ofNat sweep.iterations)
  match work with
  | some work => .ok (.loop (descriptor.label.getD (loopDescription sweep)) sweep body work)
  | none => .error .workOverflow

/-- A group of compiled nested steps. -/
def groupOf (descriptor : Descriptor) (children : List (Command α)) :
    Except Defect (Command α) :=
  match totalWork? children with
  | some work =>
      let description := "Group of " ++ toString children.length ++ " commands"
      .ok (.group (descriptor.label.getD description) children work)
  | none => .error .workOverflow

mutual

/-- Compiles one descriptor. -/
def compile : Descriptor → Except ScanError (Command α)
  | ⟨kind, label, params, body⟩ =>
      let descriptor : Descriptor := ⟨kind, label, params, body⟩
      if kind == "delay" then Defect.under kind (delayOf descriptor)
      else if kind == "set" then Defect.under kind (setOf descriptor)
      else if kind == "wait" then Defect.under kind (waitOf descriptor)
      else if kind == "comment" then Defect.under kind (commentOf descriptor)
      else if kind == "loop" then do
        let sweep ← Defect.under kind (sweepOf descriptor)
        let commands ← compileAll body
        Defect.under kind (loopOf descriptor sweep commands)
      else if kind == "group" then do
        Defect.under kind (descriptor.requireNames [])
        let commands ← compileAll body
        Defect.under kind (groupOf descriptor commands)
      else .error (.compilation kind)

/-- Compiles descriptors in order, up to the first that is refused. -/
def compileAll : List Descriptor → Except ScanError (List (Command α))
  | [] => .ok []
  | descriptor :: rest => do
      let command ← compile descriptor
      let commands ← compileAll rest
      return command :: commands

end

end Command

end Scan
