import Mathlib.Data.List.Induction
import Scan.Proofs.Audience

/-!
# Publications among other moves

A publication holds the list of subscribers and goes through it entry by entry, in place: it sends
the event to an owner who listens, and takes the entry off the list if the owner has left. The
inboxes are not held, so between two entries anyone may take an event out of an inbox or leave. In
every such interleaving a subscriber is sent what is published while it is there, and nothing that
becomes of the other entries makes a difference to it.
-/

namespace Scan

/-- A publication that goes through the list. -/
structure Delivery where
  event : Event
  /-- The place in the list of the entry that is next. -/
  place : Nat

/-- A bus in use. -/
structure Exchange where
  bus : Bus := {}
  /-- The publication that holds the list. -/
  delivery : Option Delivery := none
  /-- What has been taken out of the inboxes and by whom, oldest first. -/
  taken : List (Nat × Event) := []

/-- Takes the oldest event out of an inbox. -/
def Bus.receive (bus : Bus) (id : Nat) : Bus :=
  { bus with
    subscribers := bus.subscribers.map fun subscriber =>
      if subscriber.id == id then { subscriber with inbox := subscriber.inbox.extract 1 }
      else subscriber }

/-- Sends an event to the entry at a place, whose owner listens. -/
def Bus.sendTo (bus : Bus) (delivery : Delivery) (entry : Subscriber) : Bus :=
  { bus with
    subscribers := bus.subscribers.set delivery.place
      { entry with inbox := entry.inbox.push delivery.event } }

/-- Takes the entry at a place off the list, so that the next one comes into its place. -/
def Bus.prune (bus : Bus) (delivery : Delivery) : Bus :=
  { bus with subscribers := bus.subscribers.eraseIdx delivery.place }

namespace Exchange

/-- One thing that happens to a bus in use. -/
inductive Move where
  | subscribe
  | leave (id : Nat)
  | receive (id : Nat)
  | publish (event : Event)
  /-- The publication comes to its next entry. -/
  | visit
  /-- The publication is through and lets go of the list. -/
  | finish

/-- The event whose publication begins. -/
def Move.event? : Move → Option Event
  | .publish event => some event
  | _ => none

/-- Whether a subscription is opened. -/
def Move.subscribes : Move → Bool
  | .subscribe => true
  | _ => false

/-- The events that are published by some moves, in order. -/
def published (moves : List Move) : List Event :=
  moves.filterMap Move.event?

/-- The number of the next subscription after some moves. -/
def subscriptions (moves : List Move) : Nat :=
  moves.countP Move.subscribes

/-- The publication comes to an entry. -/
def visit (exchange : Exchange) (delivery : Delivery) (entry : Subscriber) : Exchange :=
  if entry.listening then
    { exchange with
      bus := exchange.bus.sendTo delivery entry
      delivery := some { delivery with place := delivery.place + 1 } }
  else { exchange with bus := exchange.bus.prune delivery }

/-- The bus after a move that can be made. No one else subscribes or publishes as long as a
publication holds the list; only an owner receives and leaves. -/
def move? (exchange : Exchange) : Move → Option Exchange
  | .subscribe =>
      if exchange.delivery.isNone then some { exchange with bus := exchange.bus.subscribe }
      else none
  | .leave id =>
      (exchange.bus.pending? id).map fun _ =>
        { exchange with bus := exchange.bus.unsubscribe id }
  | .receive id =>
      ((exchange.bus.pending? id).bind fun inbox => inbox[0]?).map fun event =>
        { exchange with
          bus := exchange.bus.receive id
          taken := exchange.taken ++ [(id, event)] }
  | .publish event =>
      if exchange.delivery.isNone then
        some { exchange with delivery := some { event, place := 0 } }
      else none
  | .visit =>
      exchange.delivery.bind fun delivery =>
        exchange.bus.subscribers[delivery.place]?.map fun entry => exchange.visit delivery entry
  | .finish =>
      exchange.delivery.bind fun delivery =>
        if delivery.place = exchange.bus.subscribers.length then
          some { exchange with delivery := none }
        else none

/-- The bus after some moves, if they can be made one after the other. -/
def run? (exchange : Exchange) (moves : List Move) : Option Exchange :=
  moves.foldlM move? exchange

/-- What a subscriber has taken out of its inbox, oldest first. -/
def received (exchange : Exchange) (id : Nat) : List Event :=
  exchange.taken.filterMap fun item => if item.1 = id then some item.2 else none

/-- What the publication in progress has still to send to an entry at a place. -/
def owed (exchange : Exchange) (place : Nat) : List Event :=
  match exchange.delivery with
  | some delivery => if delivery.place ≤ place then [delivery.event] else []
  | none => []

variable {exchange next last : Exchange} {move : Move} {moves : List Move} {id other : Nat}
variable {events : List Event} {delivery : Delivery} {entry : Subscriber}

theorem run?_concat :
    exchange.run? (moves ++ [move]) = (exchange.run? moves).bind (·.move? move) := by
  simp [run?, List.foldlM_append]

theorem run?_cons : exchange.run? (move :: moves) = (exchange.move? move).bind (·.run? moves) := by
  simp [run?]

/-- What a move does to the bus, and when it can be made. -/
inductive Makes (exchange : Exchange) : Move → Exchange → Prop
  | subscribe (free : exchange.delivery = none) :
      Makes exchange .subscribe { exchange with bus := exchange.bus.subscribe }
  | leave {id : Nat} {inbox : Array Event} (present : exchange.bus.pending? id = some inbox) :
      Makes exchange (.leave id) { exchange with bus := exchange.bus.unsubscribe id }
  | receive {id : Nat} {inbox : Array Event} {event : Event}
      (present : exchange.bus.pending? id = some inbox) (first : inbox[0]? = some event) :
      Makes exchange (.receive id)
        { exchange with
          bus := exchange.bus.receive id, taken := exchange.taken ++ [(id, event)] }
  | publish (event : Event) (free : exchange.delivery = none) :
      Makes exchange (.publish event) { exchange with delivery := some { event, place := 0 } }
  | send {delivery : Delivery} {entry : Subscriber}
      (current : exchange.delivery = some delivery)
      (there : exchange.bus.subscribers[delivery.place]? = some entry)
      (listens : entry.listening = true) :
      Makes exchange .visit
        { exchange with
          bus := exchange.bus.sendTo delivery entry
          delivery := some { delivery with place := delivery.place + 1 } }
  | prune {delivery : Delivery} {entry : Subscriber}
      (current : exchange.delivery = some delivery)
      (there : exchange.bus.subscribers[delivery.place]? = some entry)
      (left : entry.listening = false) :
      Makes exchange .visit { exchange with bus := exchange.bus.prune delivery }
  | finish {delivery : Delivery} (current : exchange.delivery = some delivery)
      (through : delivery.place = exchange.bus.subscribers.length) :
      Makes exchange .finish { exchange with delivery := none }

theorem makes_of_move? (moved : exchange.move? move = some next) : exchange.Makes move next := by
  cases move with
  | subscribe =>
      obtain ⟨free, same⟩ := Option.ite_none_right_eq_some.mp moved
      cases same
      exact .subscribe (Option.isNone_iff_eq_none.mp free)
  | leave id =>
      obtain ⟨inbox, present, rfl⟩ := Option.map_eq_some_iff.mp moved
      exact .leave present
  | receive id =>
      obtain ⟨event, first, rfl⟩ := Option.map_eq_some_iff.mp moved
      obtain ⟨inbox, present, first⟩ := Option.bind_eq_some_iff.mp first
      exact .receive present first
  | publish event =>
      obtain ⟨free, same⟩ := Option.ite_none_right_eq_some.mp moved
      cases same
      exact .publish event (Option.isNone_iff_eq_none.mp free)
  | visit =>
      obtain ⟨delivery, current, moved⟩ := Option.bind_eq_some_iff.mp moved
      obtain ⟨entry, there, rfl⟩ := Option.map_eq_some_iff.mp moved
      cases listens : entry.listening with
      | true =>
          rw [visit, if_pos listens]
          exact .send current there listens
      | false =>
          rw [visit, if_neg (by rw [listens]; exact Bool.false_ne_true)]
          exact .prune current there listens
  | finish =>
      obtain ⟨delivery, current, moved⟩ := Option.bind_eq_some_iff.mp moved
      obtain ⟨through, same⟩ := Option.ite_none_right_eq_some.mp moved
      cases same
      exact .finish current through

/-- The bus after some moves and one more. -/
theorem exists_of_run?_concat (ran : exchange.run? (moves ++ [move]) = some last) :
    ∃ next, exchange.run? moves = some next ∧ next.Makes move last := by
  rw [run?_concat] at ran
  obtain ⟨next, ran, moved⟩ := Option.bind_eq_some_iff.mp ran
  exact ⟨next, ran, makes_of_move? moved⟩

/-! ## Numbers of subscriptions -/

/-- Whether only subscriptions that have been opened are on the list or have received something. -/
structure IsNumbered (exchange : Exchange) : Prop where
  subscribers : ∀ entry ∈ exchange.bus.subscribers, entry.id < exchange.bus.next
  taken : ∀ item ∈ exchange.taken, item.1 < exchange.bus.next

theorem id_lt_of_pending? {inbox : Array Event} (numbered : exchange.IsNumbered)
    (present : exchange.bus.pending? id = some inbox) : id < exchange.bus.next := by
  obtain ⟨entry, found, -⟩ := Option.map_eq_some_iff.mp present
  have own := List.find?_some found
  rw [Bool.and_eq_true, beq_iff_eq] at own
  rw [← own.1]
  exact numbered.subscribers entry (List.mem_of_find?_eq_some found)

theorem IsNumbered.makes (numbered : exchange.IsNumbered) (makes : exchange.Makes move next) :
    next.IsNumbered := by
  have kept : ∀ (change : Subscriber → Subscriber),
      (∀ entry, (change entry).id = entry.id) →
      ∀ entry ∈ exchange.bus.subscribers.map change, entry.id < exchange.bus.next := by
    intro change keeps
    rw [List.forall_mem_map]
    intro entry member
    rw [keeps]
    exact numbered.subscribers entry member
  cases makes with
  | subscribe =>
      constructor
      · intro entry member
        rcases List.mem_append.mp member with member | member
        · exact Nat.lt_succ_of_lt (numbered.subscribers entry member)
        · rw [List.mem_singleton.mp member]
          exact Nat.lt_succ_self _
      · exact fun item member => Nat.lt_succ_of_lt (numbered.taken item member)
  | leave present => exact ⟨kept _ fun entry => by split <;> rfl, numbered.taken⟩
  | receive present first =>
      refine ⟨kept _ fun entry => by split <;> rfl, ?_⟩
      simp only [List.forall_mem_append, List.forall_mem_singleton]
      exact ⟨numbered.taken, id_lt_of_pending? numbered present⟩
  | publish => exact ⟨numbered.subscribers, numbered.taken⟩
  | send current there listens =>
      refine ⟨fun entry member => ?_, numbered.taken⟩
      rcases List.mem_or_eq_of_mem_set member with member | rfl
      · exact numbered.subscribers entry member
      · have known := numbered.subscribers _ (List.mem_of_getElem? there)
        exact known
  | prune =>
      exact ⟨fun entry member => numbered.subscribers entry (List.mem_of_mem_eraseIdx member),
        numbered.taken⟩
  | finish => exact ⟨numbered.subscribers, numbered.taken⟩

theorem next_of_makes (makes : exchange.Makes move next) :
    next.bus.next = exchange.bus.next + if move.subscribes then 1 else 0 := by
  cases makes <;> rfl

/-- The numbers of the subscriptions tell in which order they were opened. -/
theorem isNumbered_of_run? (ran : ({} : Exchange).run? moves = some last) :
    last.IsNumbered ∧ last.bus.next = subscriptions moves := by
  induction moves using List.reverseRecOn generalizing last with
  | nil =>
      cases ran
      exact ⟨⟨List.forall_mem_nil _, List.forall_mem_nil _⟩, rfl⟩
  | append_singleton moves move ih =>
      obtain ⟨next, ran, makes⟩ := exists_of_run?_concat ran
      obtain ⟨numbered, same⟩ := ih ran
      refine ⟨numbered.makes makes, ?_⟩
      rw [next_of_makes makes, same, subscriptions, subscriptions, List.countP_append,
        List.countP_singleton]

/-- A publication that holds the list comes to its next entry or is through. -/
theorem place_le_of_run? (ran : ({} : Exchange).run? moves = some last)
    (current : last.delivery = some delivery) :
    delivery.place ≤ last.bus.subscribers.length := by
  induction moves using List.reverseRecOn generalizing last delivery with
  | nil =>
      cases ran
      cases current
  | append_singleton moves move ih =>
      obtain ⟨next, earlier, makes⟩ := exists_of_run?_concat ran
      cases makes with
      | subscribe free => cases free.symm.trans current
      | leave =>
          rw [Bus.unsubscribe, List.length_map]
          exact ih earlier current
      | receive =>
          rw [Bus.receive, List.length_map]
          exact ih earlier current
      | publish =>
          cases current
          exact Nat.zero_le _
      | @send other entry _ there =>
          cases current
          rw [Bus.sendTo, List.length_set]
          exact (List.getElem?_eq_some_iff.mp there).1
      | @prune other entry own there =>
          cases own.symm.trans current
          have bound := (List.getElem?_eq_some_iff.mp there).1
          rw [Bus.prune, List.length_eraseIdx_of_lt bound]
          exact Nat.le_sub_one_of_lt bound
      | finish => cases current

/-- A publication is never stuck. -/
theorem exists_move?_of_run? (ran : ({} : Exchange).run? moves = some last)
    (current : last.delivery = some delivery) :
    (∃ next, last.move? .visit = some next) ∨ ∃ next, last.move? .finish = some next := by
  rcases Nat.lt_or_eq_of_le (place_le_of_run? ran current) with before | through
  · exact .inl ⟨last.visit delivery last.bus.subscribers[delivery.place], by
      simp [move?, current, before]⟩
  · exact .inr ⟨{ last with delivery := none }, by simp [move?, current, through]⟩

/-! ## One entry of the list -/

/-- Whether the only entry of a subscriber is at a place, and its owner listens. -/
structure IsAt (subscribers : List Subscriber) (id place : Nat) (own : Subscriber) : Prop where
  there : subscribers[place]? = some own
  mine : own.id = id
  listens : own.listening = true
  only : ∀ {index : Nat} {entry : Subscriber}, subscribers[index]? = some entry →
    entry.id = id → index = place

section Entries

variable {subscribers : List Subscriber} {own : Subscriber} {place : Nat}

theorem IsAt.id_beq_of_ne (isAt : IsAt subscribers id place own) {other : Nat}
    (different : other ≠ id) : (own.id == other) = false := by
  rw [isAt.mine]
  exact beq_eq_false_iff_ne.mpr different.symm

theorem IsAt.pending? (isAt : IsAt exchange.bus.subscribers id place own) :
    exchange.bus.pending? id = some own.inbox := by
  obtain ⟨there, mine, listens, only⟩ := isAt
  obtain ⟨bound, here⟩ := List.getElem?_eq_some_iff.mp there
  rw [Bus.pending?, Bus.find?, Option.map_eq_some_iff]
  refine ⟨own, List.find?_eq_some_iff_getElem.mpr ⟨by simp [mine, listens], place, bound, here, ?_⟩,
    rfl⟩
  intro index before
  have other : exchange.bus.subscribers[index].id ≠ id := fun same =>
    Nat.ne_of_lt before (only (List.getElem?_eq_getElem _) same)
  simp [other]

theorem IsAt.append (isAt : IsAt subscribers id place own) (different : entry.id ≠ id) :
    IsAt (subscribers ++ [entry]) id place own := by
  obtain ⟨there, mine, listens, only⟩ := isAt
  refine ⟨?_, mine, listens, ?_⟩
  · rw [List.getElem?_append_left (List.getElem?_eq_some_iff.mp there).1, there]
  · intro index other found same
    rw [List.getElem?_append] at found
    split at found
    · exact only found same
    · rw [List.getElem?_singleton] at found
      obtain ⟨-, last⟩ := Option.ite_none_right_eq_some.mp found
      cases last
      exact absurd same different

/-- A change of single entries leaves them where they are. -/
theorem IsAt.map (isAt : IsAt subscribers id place own) {change : Subscriber → Subscriber}
    (keeps : ∀ entry, (change entry).id = entry.id) (listens : (change own).listening = true) :
    IsAt (subscribers.map change) id place (change own) := by
  obtain ⟨there, mine, -, only⟩ := isAt
  refine ⟨by rw [List.getElem?_map, there]; rfl, (keeps own).trans mine, listens, ?_⟩
  intro index other found same
  rw [List.getElem?_map] at found
  obtain ⟨entry, here, rfl⟩ := Option.map_eq_some_iff.mp found
  exact only here ((keeps entry).symm.trans same)

/-- An entry is changed at its own place only. -/
theorem IsAt.set (isAt : IsAt subscribers id place own) {index : Nat} {change : Subscriber}
    (found : subscribers[index]? = some entry) (keeps : change.id = entry.id)
    (listens : change.listening = true) :
    IsAt (subscribers.set index change) id place (if index = place then change else own) := by
  obtain ⟨there, mine, ownListens, only⟩ := isAt
  have others : ∀ {spot : Nat} {other : Subscriber},
      (subscribers.set index change)[spot]? = some other → other.id = id → spot = place := by
    intro spot other changed same
    rw [List.getElem?_set] at changed
    split at changed
    · rename_i here
      obtain ⟨-, new⟩ := Option.ite_none_right_eq_some.mp changed
      cases new
      exact here ▸ only found (keeps.symm.trans same)
    · exact only changed same
  split
  · rename_i here
    subst here
    cases found.symm.trans there
    exact ⟨List.getElem?_set_self (List.getElem?_eq_some_iff.mp there).1, keeps.trans mine, listens,
      others⟩
  · rename_i elsewhere
    exact ⟨(List.getElem?_set_ne elsewhere).trans there, mine, ownListens, others⟩

/-- Behind an entry that is taken off the list the others move up. -/
theorem IsAt.eraseIdx (isAt : IsAt subscribers id place own) {index : Nat}
    (different : index ≠ place) :
    IsAt (subscribers.eraseIdx index) id (if index < place then place - 1 else place) own := by
  obtain ⟨there, mine, listens, only⟩ := isAt
  refine ⟨?_, mine, listens, ?_⟩
  · rw [List.getElem?_eraseIdx]
    grind
  · intro spot other found same
    rw [List.getElem?_eraseIdx] at found
    split at found <;> have here := only found same <;> grind

end Entries

/-! ## A subscription that lasts -/

/-- Whether a subscriber is on the list, listens, and has been sent some events, of which the
publication in progress may still owe it the last. -/
def Serves (exchange : Exchange) (id : Nat) (events : List Event) : Prop :=
  ∃ place own, IsAt exchange.bus.subscribers id place own ∧
    exchange.received id ++ own.inbox.toList ++ exchange.owed place = events

theorem received_of_taken {event : Event}
    (taken : next.taken = exchange.taken ++ [(other, event)]) :
    next.received id = exchange.received id ++ if other = id then [event] else [] := by
  rw [received, received, taken, List.filterMap_append]
  split <;> simp [*]

/-- What is left in an inbox when the oldest event is taken out. -/
theorem toList_of_first {inbox : Array Event} {event : Event} (first : inbox[0]? = some event) :
    inbox.toList = event :: (inbox.extract 1).toList := by
  obtain ⟨entries⟩ := inbox
  cases entries with
  | nil => cases first
  | cons head rest =>
      cases first
      simp

theorem Serves.isPrefix (serves : exchange.Serves id events) :
    exchange.received id <+: events := by
  obtain ⟨place, own, -, rfl⟩ := serves
  rw [List.append_assoc]
  exact List.prefix_append ..

/-- A subscription begins with nothing. -/
theorem serves_subscribe (numbered : exchange.IsNumbered) (free : exchange.delivery = none) :
    { exchange with bus := exchange.bus.subscribe }.Serves exchange.bus.next [] := by
  refine ⟨exchange.bus.subscribers.length, { id := exchange.bus.next }, ⟨?_, rfl, rfl, ?_⟩, ?_⟩
  · exact List.getElem?_concat_length
  · intro index entry found same
    rw [Bus.subscribe, List.getElem?_append] at found
    split at found
    · have known := numbered.subscribers entry (List.mem_of_getElem? found)
      omega
    · rw [List.getElem?_singleton] at found
      obtain ⟨here, -⟩ := Option.ite_none_right_eq_some.mp found
      omega
  · have nothing : exchange.received exchange.bus.next = [] := by
      rw [received, List.filterMap_eq_nil_iff]
      exact fun item member => if_neg (Nat.ne_of_lt (numbered.taken item member))
    rw [owed, free]
    change exchange.received exchange.bus.next ++ [] ++ [] = []
    rw [nothing]
    rfl

/-- Whatever is done but that it leaves, a subscriber is sent the events that are published. -/
theorem Serves.makes (serves : exchange.Serves id events) (known : id < exchange.bus.next)
    (makes : exchange.Makes move next) (stays : move ≠ .leave id) :
    next.Serves id (events ++ move.event?.toList) := by
  obtain ⟨place, own, isAt, rfl⟩ := serves
  cases makes with
  | subscribe free =>
      refine ⟨place, own, isAt.append (Nat.ne_of_gt known), ?_⟩
      simp [Move.event?, owed, free, received]
  | @leave other inbox present =>
      have different : other ≠ id := fun same => stays (congrArg _ same)
      have untouched := isAt.id_beq_of_ne different
      refine ⟨place, _, isAt.map (fun entry => by split <;> rfl) ?_, ?_⟩
      · rw [untouched]
        exact isAt.listens
      · rw [untouched]
        simp [Move.event?, owed, received]
  | @receive other inbox event present first =>
      refine ⟨place, _, isAt.map (fun entry => by split <;> rfl) ?_, ?_⟩
      · split <;> exact isAt.listens
      · rw [received_of_taken rfl]
        by_cases same : other = id
        · subst same
          cases isAt.pending?.symm.trans present
          rw [if_pos rfl, if_pos (beq_iff_eq.mpr isAt.mine), toList_of_first first]
          simp [Move.event?, owed]
        · rw [if_neg same, isAt.id_beq_of_ne same]
          simp [Move.event?, owed]
  | publish event free =>
      refine ⟨place, own, isAt, ?_⟩
      simp [Move.event?, owed, free, received]
  | @send delivery entry current there listens =>
      refine ⟨place, _, isAt.set there rfl listens, ?_⟩
      by_cases here : delivery.place = place
      · subst here
        cases isAt.there.symm.trans there
        simp [Move.event?, owed, current, received]
      · have same : delivery.place + 1 ≤ place ↔ delivery.place ≤ place := by omega
        simp [Move.event?, owed, current, received, here, same]
  | @prune delivery entry current there left =>
      have different : delivery.place ≠ place := by
        rintro rfl
        cases isAt.there.symm.trans there
        exact Bool.false_ne_true (left.symm.trans isAt.listens)
      refine ⟨_, own, isAt.eraseIdx different, ?_⟩
      have same : delivery.place ≤ (if delivery.place < place then place - 1 else place) ↔
          delivery.place ≤ place := by
        split <;> omega
      simp [Move.event?, owed, current, received, same]
  | @finish delivery current through =>
      have past : ¬ delivery.place ≤ place := by
        have bound := (List.getElem?_eq_some_iff.mp isAt.there).1
        omega
      refine ⟨place, own, isAt, ?_⟩
      simp [Move.event?, owed, current, past, received]

/-- A subscription that has been opened and not left since. -/
theorem serves_of_run? {before since : List Move}
    (ran : ({} : Exchange).run? (before ++ .subscribe :: since) = some last)
    (stays : .leave (subscriptions before) ∉ since) :
    last.Serves (subscriptions before) (published since) := by
  induction since using List.reverseRecOn generalizing last with
  | nil =>
      obtain ⟨next, ran, makes⟩ := exists_of_run?_concat ran
      obtain ⟨numbered, same⟩ := isNumbered_of_run? ran
      cases makes with
      | subscribe free =>
          rw [← same]
          exact serves_subscribe numbered free
  | append_singleton since move ih =>
      rw [← List.cons_append, ← List.append_assoc] at ran
      obtain ⟨next, ran, makes⟩ := exists_of_run?_concat ran
      rw [List.mem_append, not_or, List.mem_singleton] at stays
      obtain ⟨-, same⟩ := isNumbered_of_run? ran
      have known : subscriptions before < next.bus.next := by
        rw [same, subscriptions, subscriptions, List.countP_append, List.countP_cons]
        simp [Move.subscribes]
      have serves := (ih ran stays.1).makes known makes (Ne.symm stays.2)
      rw [published, List.filterMap_append]
      cases event : move.event? <;> simpa [published, event] using serves

/-! ## A subscription that has been left -/

/-- Whether a subscriber has left: it is sent nothing more. -/
def Misses (exchange : Exchange) (id : Nat) : Prop :=
  id < exchange.bus.next ∧ exchange.bus.pending? id = none

theorem pending?_eq_none_iff : exchange.bus.pending? id = none ↔
    ∀ entry ∈ exchange.bus.subscribers, entry.id = id → entry.listening = false := by
  simp [Bus.pending?, Bus.find?]

theorem Misses.makes (misses : exchange.Misses id) (makes : exchange.Makes move next) :
    next.Misses id ∧ next.received id = exchange.received id := by
  obtain ⟨known, left⟩ := misses
  have gone := pending?_eq_none_iff.mp left
  have present_ne : ∀ {other : Nat} {inbox : Array Event},
      exchange.bus.pending? other = some inbox → other ≠ id := by
    rintro other inbox present rfl
    cases left.symm.trans present
  cases makes with
  | subscribe free =>
      refine ⟨⟨Nat.lt_succ_of_lt known, pending?_eq_none_iff.mpr ?_⟩, rfl⟩
      rw [Bus.subscribe, List.forall_mem_append, List.forall_mem_singleton]
      exact ⟨gone, fun same => absurd same (Nat.ne_of_gt known)⟩
  | leave present =>
      refine ⟨⟨known, ?_⟩, rfl⟩
      rw [← left]
      exact Bus.pending?_map (present_ne present) _ fun _ => rfl
  | receive present first =>
      refine ⟨⟨known, ?_⟩, ?_⟩
      · rw [← left]
        exact Bus.pending?_map (present_ne present) _ fun _ => rfl
      · rw [received_of_taken rfl, if_neg (present_ne present), List.append_nil]
  | publish => exact ⟨⟨known, left⟩, rfl⟩
  | @send delivery entry current there listens =>
      refine ⟨⟨known, pending?_eq_none_iff.mpr fun other member same => ?_⟩, rfl⟩
      rcases List.mem_or_eq_of_mem_set member with member | rfl
      · exact gone other member same
      · exact gone entry (List.mem_of_getElem? there) same
  | prune =>
      refine ⟨⟨known, pending?_eq_none_iff.mpr fun other member same => ?_⟩, rfl⟩
      exact gone other (List.mem_of_mem_eraseIdx member) same
  | finish => exact ⟨⟨known, left⟩, rfl⟩

theorem misses_of_leave (numbered : exchange.IsNumbered) {inbox : Array Event}
    (present : exchange.bus.pending? id = some inbox) :
    { exchange with bus := exchange.bus.unsubscribe id }.Misses id := by
  have known := id_lt_of_pending? numbered present
  refine ⟨known, pending?_eq_none_iff.mpr ?_⟩
  rw [Bus.unsubscribe, List.forall_mem_map]
  intro entry member
  split
  · exact fun _ => rfl
  · rename_i other
    exact fun same => absurd (beq_iff_eq.mpr same) other

/-- A subscriber leaves only once. From then on it receives nothing. -/
theorem misses_of_run? {before later : List Move}
    (ran : ({} : Exchange).run? (before ++ .leave id :: later) = some last) :
    ∃ left, ({} : Exchange).run? before = some left ∧ left.bus.pending? id ≠ none ∧
      last.Misses id ∧ last.received id = left.received id := by
  induction later using List.reverseRecOn generalizing last with
  | nil =>
      obtain ⟨left, earlier, makes⟩ := exists_of_run?_concat ran
      cases makes with
      | leave present =>
          have stood : left.bus.pending? id ≠ none := by
            rw [present]
            exact Option.some_ne_none _
          exact ⟨left, earlier, stood,
            misses_of_leave (isNumbered_of_run? earlier).1 present, rfl⟩
  | append_singleton later move ih =>
      rw [← List.cons_append, ← List.append_assoc] at ran
      obtain ⟨next, ran, makes⟩ := exists_of_run?_concat ran
      obtain ⟨left, earlier, stood, misses, same⟩ := ih ran
      obtain ⟨misses, still⟩ := misses.makes makes
      exact ⟨left, earlier, stood, misses, still.trans same⟩

/-! ## What becomes of the others -/

theorem pending?_prune (current : exchange.bus.subscribers[delivery.place]? = some entry)
    (left : entry.listening = false) :
    (exchange.bus.prune delivery).pending? id = exchange.bus.pending? id := by
  obtain ⟨bound, here⟩ := List.getElem?_eq_some_iff.mp current
  have split : exchange.bus.subscribers = exchange.bus.subscribers.take delivery.place ++
      entry :: exchange.bus.subscribers.drop (delivery.place + 1) := by
    rw [← here, List.getElem_cons_drop, List.take_append_drop]
  rw [Bus.pending?, Bus.pending?, Bus.find?, Bus.find?, Bus.prune,
    List.eraseIdx_eq_take_drop_succ]
  conv => rhs; rw [split]
  simp [List.find?_append, left]

/-- When a subscriber leaves, the others keep their inboxes. -/
theorem pending?_of_leave (moved : exchange.move? (.leave other) = some next)
    (different : id ≠ other) :
    next.bus.pending? id = exchange.bus.pending? id ∧
      next.received id = exchange.received id := by
  cases makes_of_move? moved with
  | leave present => exact ⟨Bus.pending?_map different.symm _ fun _ => rfl, rfl⟩

/-- When a publication takes an entry off the list, all keep their inboxes. -/
theorem pending?_of_visit (moved : exchange.move? .visit = some next)
    (current : exchange.delivery = some delivery)
    (there : exchange.bus.subscribers[delivery.place]? = some entry)
    (left : entry.listening = false) :
    next.bus.pending? id = exchange.bus.pending? id ∧
      next.received id = exchange.received id := by
  cases makes_of_move? moved with
  | send own here listens =>
      cases own.symm.trans current
      cases here.symm.trans there
      exact absurd (left.symm.trans listens) Bool.false_ne_true
  | prune own here =>
      cases own.symm.trans current
      exact ⟨pending?_prune there left, rfl⟩

/-! ## A publication on its own -/

/-- What a publication makes of the entries that it comes to. -/
def served (event : Event) (entries : List Subscriber) : List Subscriber :=
  (entries.filter Subscriber.listening).map fun entry =>
    { entry with inbox := entry.inbox.push event }

theorem run?_visits (event : Event) (number : Nat) (done waiting : List Subscriber) :
    ({ bus := { subscribers := done ++ waiting, next := number }
       delivery := some { event, place := done.length } } : Exchange).run?
        (.replicate waiting.length .visit) =
      some
        { bus := { subscribers := done ++ served event waiting, next := number }
          delivery := some { event, place := (done ++ served event waiting).length } } := by
  induction waiting generalizing done with
  | nil => simp [run?, served]
  | cons entry rest ih =>
      rw [List.length_cons, List.replicate_succ, run?_cons]
      cases listens : entry.listening with
      | true =>
          have more := ih (done ++ [{ entry with inbox := entry.inbox.push event }])
          simpa [move?, visit, listens, Bus.sendTo, served] using more
      | false =>
          have more := ih done
          have pruned : (done ++ entry :: rest).eraseIdx done.length = done ++ rest := by
            rw [List.eraseIdx_append_of_length_le (Nat.le_refl _), Nat.sub_self,
              List.eraseIdx_cons_zero]
          simpa [move?, visit, listens, Bus.prune, served, pruned] using more

/-- A publication that nothing interferes with is what publishing is for the bus. -/
theorem run?_publish (bus : Bus) (event : Event) :
    ({ bus } : Exchange).run?
        (.publish event :: (.replicate bus.subscribers.length .visit ++ [.finish])) =
      some { bus := bus.publish event } := by
  have visits := run?_visits event bus.next [] bus.subscribers
  have begins : ({ bus } : Exchange).move? (.publish event) =
      some { bus, delivery := some { event, place := 0 } } := rfl
  rw [run?_cons, begins, Option.bind_some, run?_concat]
  rw [List.nil_append, List.nil_append, List.length_nil] at visits
  rw [visits, Option.bind_some]
  simp [move?, Bus.publish, served]

/-! ## Any interleaving -/

/-- Any interleaving of subscriptions, departures, receptions and publications that go on entry by
entry, in which a subscription is opened. As long as the subscriber stays, what it has received and
what is in its inbox are the events that were published since, once each and in order, up to the last
one if its publication has not come to this entry yet. The same held when it left, and from then on
it receives nothing. So whatever a subscriber has received is a block of what was published, from its
subscription on. Whoever else leaves or is taken off the list, its inbox stays as it is. A
publication is never stuck, and one that no one interferes with does what publishing is for the
bus. -/
theorem subscribers_receive_what_is_published {before since : List Move}
    (ran : ({} : Exchange).run? (before ++ .subscribe :: since) = some last) :
    let id := subscriptions before
    (.leave id ∉ since → last.Serves id (published since)) ∧
      (∀ during later, since = during ++ .leave id :: later → ∃ left,
        ({} : Exchange).run? (before ++ .subscribe :: during) = some left ∧
          left.Serves id (published during) ∧ last.bus.pending? id = none ∧
          last.received id = left.received id) ∧
      published before ++ last.received id <+: published (before ++ .subscribe :: since) ∧
      (∀ other next, other ≠ id → last.move? (.leave other) = some next →
        next.bus.pending? id = last.bus.pending? id ∧ next.received id = last.received id) ∧
      (∀ delivery entry next, last.delivery = some delivery →
        last.bus.subscribers[delivery.place]? = some entry → entry.listening = false →
        last.move? .visit = some next →
          next.bus.pending? id = last.bus.pending? id ∧ next.received id = last.received id) ∧
      (∀ delivery, last.delivery = some delivery →
        (∃ next, last.move? .visit = some next) ∨ ∃ next, last.move? .finish = some next) ∧
      ∀ bus event, ({ bus } : Exchange).run?
          (.publish event :: (.replicate bus.subscribers.length .visit ++ [.finish])) =
        some { bus := bus.publish event } := by
  intro id
  have departs : ∀ during later, since = during ++ .leave id :: later → ∃ left,
      ({} : Exchange).run? (before ++ .subscribe :: during) = some left ∧
        left.Serves id (published during) ∧ last.bus.pending? id = none ∧
        last.received id = left.received id := by
    rintro during later rfl
    rw [← List.cons_append, ← List.append_assoc] at ran
    obtain ⟨left, earlier, stood, misses, same⟩ := misses_of_run? ran
    refine ⟨left, earlier, serves_of_run? earlier fun member => ?_, misses.2, same⟩
    obtain ⟨first, second, rfl⟩ := List.append_of_mem member
    rw [← List.cons_append, ← List.append_assoc] at earlier
    obtain ⟨-, -, -, misses, -⟩ := misses_of_run? earlier
    exact stood misses.2
  have stays := serves_of_run? ran
  refine ⟨stays, departs, ?_, ?_, ?_, fun _ => exists_move?_of_run? ran, run?_publish⟩
  · have whole : published (before ++ .subscribe :: since) =
        published before ++ published since := by
      rw [published, List.filterMap_append, List.filterMap_cons]
      rfl
    rw [whole, List.prefix_append_right_inj]
    by_cases leaves : .leave id ∈ since
    · obtain ⟨during, later, rfl⟩ := List.append_of_mem leaves
      obtain ⟨left, -, serves, -, same⟩ := departs during later rfl
      have more : published during <+: published (during ++ .leave id :: later) := by
        simp [published]
      rw [same]
      exact serves.isPrefix.trans more
    · exact (stays leaves).isPrefix
  · exact fun other next different moved => pending?_of_leave moved different.symm
  · exact fun delivery entry next current there left moved =>
      pending?_of_visit moved current there left

/-- The third of three subscribers. The second leaves between two entries of a publication, the
first during the next one, and the third receives one event before the publication is through. -/
theorem third_subscriber_receives_both :
    let before : List Move := [.subscribe, .subscribe, .publish (.stateChanged .running), .visit,
      .leave 1, .visit, .finish]
    let during : List Move := [.publish (.workPerformed 1 2), .visit, .leave 0, .visit, .receive 2,
      .finish, .publish (.workPerformed 2 2), .visit, .visit, .finish]
    let gone : List Move := during ++ [.leave 2, .publish (.stateChanged .finished), .visit]
    ∃ last left, ({} : Exchange).run? (before ++ .subscribe :: during) = some last ∧
      last.Serves 2 [.workPerformed 1 2, .workPerformed 2 2] ∧
      last.bus.pending? 2 = some #[.workPerformed 2 2] ∧
      ({} : Exchange).run? (before ++ .subscribe :: gone) = some left ∧
      left.received 2 = [.workPerformed 1 2] ∧ left.bus.pending? 2 = none := by
  intro before during gone
  have lasts : ∃ last, ({} : Exchange).run? (before ++ .subscribe :: during) = some last ∧
      last.bus.pending? 2 = some #[.workPerformed 2 2] := ⟨_, rfl, rfl⟩
  have leaves : ∃ left, ({} : Exchange).run? (before ++ .subscribe :: gone) = some left ∧
      left.received 2 = [.workPerformed 1 2] := ⟨_, rfl, rfl⟩
  obtain ⟨last, ran, pending⟩ := lasts
  obtain ⟨left, departed, received⟩ := leaves
  obtain ⟨serves, -⟩ := subscribers_receive_what_is_published ran
  obtain ⟨-, departs, -⟩ := subscribers_receive_what_is_published departed
  have stays : Move.leave 2 ∉ during := by simp [during]
  obtain ⟨-, -, -, missing, -⟩ := departs during _ rfl
  exact ⟨last, left, ran, serves stays, pending, departed, received, missing⟩

end Exchange

end Scan
