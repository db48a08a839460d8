import Scan.Proofs.Events

/-!
# What a subscriber receives

As long as a subscription lasts, every event that is published comes into its inbox once and in
order, whoever publishes it and whatever other subscribers do. What the subscriber takes out of the
inbox and what is left in it is therefore the record of all events since it was there.
-/

namespace Scan

variable {α : Type}

/-! ## Inboxes -/

namespace Bus

variable (bus : Bus) {id other : Nat} {inbox : Array Event}

/-- An event comes into every inbox that has an owner. -/
theorem pending?_publish (event : Event) (id : Nat) :
    (bus.publish event).pending? id = (bus.pending? id).map (·.push event) := by
  have same : (fun subscriber : Subscriber =>
      decide (subscriber.listening = true ∧ (subscriber.id == id && subscriber.listening) = true)) =
        fun subscriber => subscriber.id == id && subscriber.listening := by
    funext subscriber
    rw [Bool.eq_iff_iff, decide_eq_true_iff, Bool.and_eq_true]
    exact ⟨fun both => both.2, fun both => ⟨both.2, both⟩⟩
  simp only [publish, pending?, find?, List.find?_map, List.find?_filter, Function.comp_def, same,
    Option.map_map]

variable {bus}

/-- A further subscription leaves the inboxes of the others as they are. -/
theorem pending?_subscribe (present : bus.pending? id = some inbox) :
    bus.subscribe.pending? id = some inbox := by
  obtain ⟨subscriber, found, rfl⟩ := Option.map_eq_some_iff.mp present
  rw [find?] at found
  rw [pending?, find?, subscribe, List.find?_append, found]
  rfl

/-- What happens to the subscription of someone else leaves an inbox as it is. -/
theorem pending?_map (different : other ≠ id) (change : Subscriber → Subscriber)
    (keeps : ∀ subscriber, (change subscriber).id = subscriber.id) :
    pending? { bus with subscribers := bus.subscribers.map fun subscriber =>
      if subscriber.id == other then change subscriber else subscriber } id =
        bus.pending? id := by
  have apart : ∀ {subscriber : Subscriber}, subscriber.id = id →
      (subscriber.id == other) = false := by
    intro subscriber own
    rw [own]
    exact beq_eq_false_iff_ne.mpr different.symm
  rw [pending?, pending?, find?, find?]
  induction bus.subscribers with
  | nil => rfl
  | cons first rest ih =>
      rw [List.map_cons, List.find?_cons, List.find?_cons]
      cases own : first.id == id with
      | true =>
          rw [apart (eq_of_beq own), if_neg Bool.false_ne_true, own]
          cases first.listening with
          | true => rfl
          | false => exact ih
      | false =>
          have still : ((if first.id == other then change first else first).id == id) = false := by
            split
            · rw [keeps, own]
            · exact own
          rw [still]
          exact ih

/-- An inbox that is emptied is empty. -/
theorem pending?_collect (present : bus.pending? id = some inbox) :
    (bus.collect id).pending? id = some #[] := by
  obtain ⟨subscriber, found, -⟩ := Option.map_eq_some_iff.mp present
  rw [find?] at found
  have listens := List.find?_some found
  rw [Bool.and_eq_true] at listens
  have same : ((fun subscriber : Subscriber => subscriber.id == id && subscriber.listening) ∘
      fun subscriber => if subscriber.id == id then { subscriber with inbox := #[] }
        else subscriber) = fun subscriber => subscriber.id == id && subscriber.listening := by
    funext subscriber
    simp only [Function.comp]
    split <;> rfl
  rw [pending?, find?, collect, List.find?_map, same, found, Option.map_some, Option.map_some,
    if_pos listens.1]

end Bus

/-! ## The record of a subscriber -/

/-- What a subscriber takes out of its inbox at a turn. -/
def Turn.collected (subscriber : Nat) (turn : Turn α) : List Event :=
  match turn.act with
  | .collect id =>
      if id = subscriber then
        ((turn.scene.board.bus.pending? subscriber).getD #[]).toList
      else []
  | _ => []

/-- What a subscriber receives in some turns: what it takes out of its inbox, and what is left in it
at the end. -/
def received (subscriber : Nat) (turns : List (Turn α)) (last : Scene α) : List Event :=
  turns.flatMap (·.collected subscriber) ++
    ((last.board.bus.pending? subscriber).getD #[]).toList

namespace Scene

variable [Scalar α] {scene next last : Scene α} {act : Act α} {future : List (Turn α)}
variable {subscriber : Nat} {inbox : Array Event}

/-- At a turn a subscriber receives the event that is published, and nothing else. -/
theorem exists_pending?_turn (acted : scene.act? act = some next)
    (present : scene.board.bus.pending? subscriber = some inbox)
    (stays : act ≠ .unsubscribe subscriber) :
    ∃ after, next.board.bus.pending? subscriber = some after ∧
      (⟨scene, act⟩ : Turn α).collected subscriber ++ after.toList =
        inbox.toList ++ (⟨scene, act⟩ : Turn α).event?.toList := by
  rw [bus_of_act? acted]
  cases event : (⟨scene, act⟩ : Turn α).event? with
  | some event' =>
      refine ⟨inbox.push event', ?_, ?_⟩
      · simp [Bus.pending?_publish, present]
      · cases act with
        | work | access => simp [Turn.collected]
        | _ => cases event
  | none =>
      cases act with
      | subscribe => exact ⟨inbox, Bus.pending?_subscribe present, (List.append_nil _).symm⟩
      | unsubscribe id =>
          have different : id ≠ subscriber := fun same => stays (congrArg _ same)
          refine ⟨inbox, ?_, (List.append_nil _).symm⟩
          rw [← present]
          exact Bus.pending?_map different _ fun _ => rfl
      | collect id =>
          by_cases same : id = subscriber
          · subst same
            refine ⟨#[], Bus.pending?_collect present, ?_⟩
            simp [Turn.collected, present]
          · refine ⟨inbox, ?_, by simp [Turn.collected, same]⟩
            rw [← present]
            exact Bus.pending?_map same _ fun _ => rfl
      | _ => exact ⟨inbox, present, (List.append_nil _).symm⟩

/-- A subscriber that stays receives all events in order, behind those that were in its inbox. -/
theorem Plays.received_eq (later : scene.Plays future last)
    (present : scene.board.bus.pending? subscriber = some inbox)
    (stays : ∀ turn ∈ future, turn.act ≠ .unsubscribe subscriber) :
    received subscriber future last = inbox.toList ++ future.filterMap Turn.event? := by
  have record : ∃ after, last.board.bus.pending? subscriber = some after ∧
      future.flatMap (·.collected subscriber) ++ after.toList =
        inbox.toList ++ future.filterMap Turn.event? := by
    induction later with
    | begin => exact ⟨inbox, present, by simp⟩
    | @turn future scene next act _ acted ih =>
        obtain ⟨before, there, record⟩ :=
          ih fun turn member => stays turn (List.mem_append_left _ member)
        obtain ⟨after, there', more⟩ := exists_pending?_turn acted there
          (stays _ (List.mem_append_right _ (List.mem_singleton.mpr rfl)))
        refine ⟨after, there', ?_⟩
        rw [List.flatMap_append, List.flatMap_singleton, List.append_assoc, more,
          ← List.append_assoc, record, List.filterMap_append, List.append_assoc,
          List.filterMap_cons]
        cases (⟨scene, act⟩ : Turn α).event? <;> rfl
  obtain ⟨after, there, record⟩ := record
  rw [received, there]
  exact record

end Scene

end Scan
