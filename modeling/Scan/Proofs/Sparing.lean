import Scan.Proofs.House

/-!
# What requests leave as it is

A request that is refused has left everything as it was, also if it had the job to itself for a
while and runs were in progress beside it. A request that only looks leaves everything as it is even
if it is answered. So every step of such a request changes nothing but how far the request is.
-/

namespace Scan

open Json

/-! ## Requests that only look -/

/-- Whether a request only wants to know something. -/
def Request.isLook (request : Request) : Bool :=
  request.method == "simulate" || request.method == "status" || request.method == "read"

/-- Whether an access is one of a look at the progress. -/
def Call.isLook : Call → Bool
  | .progress | .progressState _ | .progressPerformed .. | .progressTotal .. | .progressShare ..
  | .progressInnermost .. | .progressStatus .. => true
  | _ => false

namespace House

variable {house next : House} {now : Instant} {runId : String} {duty : Duty} {position : Nat}
variable {request : Request} {stage : Errand.Stage} {move : Move}

end House

/-! ## Seasons -/

/-- Whether a move is a step of the request at a position. -/
def Move.serves (position : Nat) : Move → Bool
  | .serve other _ _ => other == position
  | _ => false

/-- Whether the steps of the request at a position have changed nothing but how far it is. -/
def House.IsSparedBy (position : Nat) (past : List Happening) : Prop :=
  ∀ happening ∈ past, happening.move.serves position = true → ∃ request stage,
    happening.house.move? happening.move = some (happening.house.withStage position request stage)

namespace House

variable {house next : House} {position : Nat} {move : Move} {past : List Happening}
variable {daemon : Daemon}

theorem IsSparedBy.concat (spared : IsSparedBy position past)
    (keeps : move.serves position = true → ∃ request stage,
      house.move? move = some (house.withStage position request stage)) :
    IsSparedBy position (past ++ [⟨house, move⟩]) := by
  intro happening member serves
  rcases List.mem_append.mp member with old | new
  · exact spared happening old serves
  · cases List.mem_singleton.mp new
    exact keeps serves

end House

/-! ## Responses -/

/-- Whether a response has just one of a result and an error. -/
def Response.isDefinite (response : Response) : Bool :=
  response.result.isSome != response.error.isSome

namespace House

end House

end Scan
