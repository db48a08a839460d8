import Scan.Plant
import Scan.Worker

/-!
# Workers in their surroundings

The surroundings of a worker keep the board and answer its calls. `Worker.live` lets a worker live
through one moment: it finds the board as the surroundings show it, and whatever happens while a
call is answered is on the board when the worker takes the answer up. Only a rest is left to whoever
keeps the time.
-/

namespace Scan

/-- What a worker needs around it. -/
structure Surroundings (m : Type → Type) (α : Type) where
  board : m Board
  setBoard : Board → m Unit
  evaluate : String → m (Except EvalError α)
  read : String → m (Except IoError α)
  write : String → α → m (Except IoError Unit)
  clock : m Instant

/-- What a moment of a worker comes to. -/
inductive Moment (α : Type) where
  /-- There is nothing left to do. -/
  | over
  /-- The worker is held at a safe point. -/
  | held
  | moved (worker : Worker α)
  /-- The worker rests until the latch in a monitor is released or the time is up; then it wakes on
  the board as it is by then. -/
  | resting (id : Nat) (limit : Duration) (wake : Board → Board × Worker α)

namespace Worker

variable {α : Type}

/-- One moment of a worker. -/
def live [Scalar α] {m : Type → Type} [Monad m] (surroundings : Surroundings m α)
    (worker : Worker α) : m (Moment α) := do
  let take {answer : Type} (resume : answer → Board → Board × Worker α) (found : answer) :
      m (Moment α) := do
    let (board, worker) := resume found (← surroundings.board)
    surroundings.setBoard board
    return .moved worker
  match worker.next (← surroundings.board) with
  | .done => return .over
  | .held => return .held
  | .act board worker =>
      surroundings.setBoard board
      return .moved worker
  | .call (.evaluate text) resume => take resume (← surroundings.evaluate text)
  | .call (.read channel) resume => take resume (← surroundings.read channel)
  | .call (.write channel value) resume => take resume (← surroundings.write channel value)
  | .call .clock resume => take resume (← surroundings.clock)
  | .call (.rest id limit) resume => return .resting id limit (resume ())

end Worker

/-- A board and a plant that a worker can live next to. -/
structure Station (α : Type) where
  board : Board
  plant : Plant α

namespace Station

variable {α : Type}

/-- The surroundings that a station makes at an instant, with an evaluator that is a function of the
text. -/
def surroundings [Scalar α] (evaluate : String → Except EvalError α) (now : Instant) :
    Surroundings (StateM (Station α)) α where
  board := return (← get).board
  setBoard board := modify fun station => { station with board := board }
  evaluate text := return evaluate text
  read channel := return (← get).plant.read channel now
  write channel value := do
    match (← get).plant.write channel value now with
    | .ok plant =>
        modify fun station => { station with plant := plant }
        return .ok ()
    | .error error => return .error error
  clock := return now

/-- Lets a worker live by itself, each moment of its work taking a `tick`, and each rest all the
time that it may take. A worker that is held at a safe point, and one that has lived through
`moments`, stays where it is. -/
def settle [Scalar α] (evaluate : String → Except EvalError α) (tick : Nat) (station : Station α)
    (worker : Worker α) (now : Instant) : (moments : Nat) → Worker α × Station α
  | 0 => (worker, station)
  | moments + 1 =>
      let (moment, station) := (worker.live (surroundings evaluate now)).run station
      match moment with
      | .over | .held => (worker, station)
      | .moved worker => settle evaluate tick station worker (now + tick) moments
      | .resting _ limit wake =>
          let (board, worker) := wake station.board
          settle evaluate tick { station with board := board } worker
            (now + limit.nanoseconds) moments

end Station

end Scan
