import Scan.Report

/-!
# The event bus

Every subscriber has an inbox of its own, which grows by each event that is published while the
subscription lasts. A subscriber that has left is taken off the list at the next event.
-/

namespace Scan

/-- One subscription. -/
structure Subscriber where
  id : Nat
  /-- Whether the inbox still has an owner. -/
  listening : Bool := true
  /-- The events that have not been collected, oldest first. -/
  inbox : Array Event := #[]
  deriving BEq, Repr

/-- The subscriptions in the order in which they were made. -/
structure Bus where
  subscribers : List Subscriber := []
  /-- The number of the next subscription. -/
  next : Nat := 0
  deriving BEq, Repr

namespace Bus

/-- Opens a subscription under the number `bus.next`. -/
def subscribe (bus : Bus) : Bus :=
  { subscribers := bus.subscribers ++ [{ id := bus.next }], next := bus.next + 1 }

/-- Leaves a subscription. -/
def unsubscribe (bus : Bus) (id : Nat) : Bus :=
  { bus with
    subscribers := bus.subscribers.map fun subscriber =>
      if subscriber.id == id then { subscriber with listening := false, inbox := #[] }
      else subscriber }

/-- Delivers an event to everyone who listens, and forgets the others. -/
def publish (bus : Bus) (event : Event) : Bus :=
  { bus with
    subscribers := (bus.subscribers.filter Subscriber.listening).map fun subscriber =>
      { subscriber with inbox := subscriber.inbox.push event } }

/-- The subscription of a number, if it has not been left. -/
def find? (bus : Bus) (id : Nat) : Option Subscriber :=
  bus.subscribers.find? fun subscriber => subscriber.id == id && subscriber.listening

/-- The events waiting for a subscriber; none if the subscription has been left. -/
def pending? (bus : Bus) (id : Nat) : Option (Array Event) :=
  (bus.find? id).map Subscriber.inbox

/-- Empties an inbox. -/
def collect (bus : Bus) (id : Nat) : Bus :=
  { bus with
    subscribers := bus.subscribers.map fun subscriber =>
      if subscriber.id == id then { subscriber with inbox := #[] } else subscriber }

end Bus

end Scan
