import Scan.Board
import Scan.Json.Value

/-!
# Outlines

What can be said of compiled steps before they run: how they are described, in which status they
are on a board, how much work they are, and what they contain.
-/

namespace Scan.Command

variable {α : Type}

mutual

/-- The outline of a step whose monitor has a given number. Of a loop the first `shown` values are
listed, as `encode` writes them. -/
def outline [Scalar α] (encode : α → Json.Value) (shown : Nat) (board : Board) (id : Nat)
    (command : Command α) : Json.Value :=
  let monitor := board.monitor id
  .object ([("kind", .string command.kind), ("description", .string monitor.description),
    ("status", .string monitor.status.name), ("skippable", .bool monitor.skippable),
    ("work_units", .word command.workUnits)] ++
    match command with
    | .delay _ seconds _ => [("seconds", encode seconds)]
    | .loop _ sweep _ _ =>
        let first := (List.range (min shown sweep.iterations)).map sweep.value
        [("iterations", .nat sweep.iterations), ("first_values", .array (first.map encode))]
    | .group _ children _ =>
        [("children", .array (outlines encode shown board (id + 1) children))]
    | _ => [])

/-- The outlines of steps whose monitors have the numbers from a first one on. -/
def outlines [Scalar α] (encode : α → Json.Value) (shown : Nat) (board : Board) (id : Nat) :
    List (Command α) → List Json.Value
  | [] => []
  | command :: rest =>
      outline encode shown board id command ::
        outlines encode shown board (id + command.monitorCount) rest

end

end Scan.Command
