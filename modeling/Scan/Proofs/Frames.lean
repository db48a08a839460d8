import Scan.Proofs.Numbering

/-!
# Steps within steps

A step is in progress from its entry until it is left. The steps in progress stand one within the
other: what a worker has in front of it belongs to the innermost one, behind its end comes what
belongs to the one around it, and so on outwards. A wait lies within the innermost step, and its
beginning is noted only as long as the note is the next thing to be taken back.
-/

namespace Scan

variable {α : Type}

/-- A step by the number of its monitor and its command. -/
abbrev Frame (α : Type) : Type :=
  Nat × Command α

/-- Whether a step is one that another leads to: a child of a group, or a step of a pass through the
body of a loop. -/
def Frame.Contains (outer inner : Frame α) : Prop :=
  match outer.2 with
  | .group _ children _ => inner ∈ Board.numbered (outer.1 + 1) children
  | .loop _ _ body _ => ∃ first, inner ∈ Board.numbered first body
  | _ => False

namespace Task

/-- The steps in progress once a task is done, innermost first, if some were in progress before. -/
def framesAfter (frames : List (Frame α)) : Task α → List (Frame α)
  | .enter id command => (id, command) :: frames
  | .leave => frames.tail
  | .clearActive => []
  | _ => frames

/-- Whether a task is done for a step in progress, between its entry and its end. -/
def IsOf (frame : Frame α) : Task α → Prop
  | .start id command => Frame.Contains frame (id, command)
  | .iterate id sweep body _ =>
      id = frame.1 ∧ ∃ description work, frame.2 = .loop description sweep body work
  | .nest body => ∃ description sweep work, frame.2 = .loop description sweep body work
  | .countUnit id _ | .resolve id .. | .baseline id .. | .installLatch id | .stampStart id
  | .armDelay id _ | .heedAbort id _ | .checkDeadline id _ | .restUntil id .. | .clearStart id
  | .removeLatch id => id = frame.1
  | .armPoll poll | .probe poll _ | .checkLimit poll .. | .restPoll poll _ => poll.id = frame.1
  | .safePoint | .write .. | .announceWork _ => True
  | _ => False

/-- Whether a task is done while a wait is in progress. -/
def isWaiting : Task α → Bool
  | .safePoint | .armDelay .. | .heedAbort .. | .checkDeadline .. | .restUntil .. | .armPoll _
  | .probe .. | .checkLimit .. | .restPoll .. => true
  | _ => false

/-- Whether a task counts work or tells of it. -/
def isCounting : Task α → Bool
  | .countUnit .. | .announceWork _ => true
  | _ => false

/-- Whether a task begins a wait: by a latch, or by noting the time. -/
def beginsWait : Task α → Bool
  | .installLatch _ | .stampStart _ => true
  | _ => false

/-- Whether what comes behind a task that begins a wait is this wait, and then its end. -/
def IsFollowedBy (rest : List (Task α)) : Task α → Prop
  | .installLatch id => ∃ first behind, first.isWaiting = true ∧
      rest = .stampStart id :: first :: .clearStart id :: .removeLatch id :: behind
  | .stampStart id => ∃ first behind, first.isWaiting = true ∧
      rest = first :: .clearStart id :: behind
  | _ => True

/-- Whether a task stands apart from all steps: it leads to top-level steps or comes behind them. -/
def IsApart (top : Nat → Frame α → Prop) (base : List Nat) : Task α → Prop
  | .prepare commands => ∀ first (step : Nat) frame,
      (Board.numbered first commands)[step]? = some frame → top (1 + step) frame
  | .steps first remaining => ∀ (step : Nat) frame, remaining[step]? = some frame →
      top (first + step) frame
  | .clearActive => base = []
  | .announceFinish .. | .closeStep .. | .stampRun | .clearStep | .report | .setState _
  | .announce _ => True
  | _ => False

end Task

/-- The steps that were entered and not left again in some deeds, innermost first. -/
def framesOf (past : List (Deed α)) : List (Frame α) :=
  past.foldl (fun frames deed => deed.task.framesAfter frames) []

@[simp] theorem framesOf_concat (past : List (Deed α)) (deed : Deed α) :
    framesOf (past ++ [deed]) = deed.task.framesAfter (framesOf past) := by
  simp [framesOf]

/-! ## What belongs to a step -/

namespace Worker

variable {task : Task α} {frame : Frame α}

theorem isOf_of_mem_pollTasks {poll : Poll α} (own : poll.id = frame.1)
    (member : task ∈ pollTasks poll) : task.IsOf frame := by
  simp only [pollTasks, List.mem_cons, List.not_mem_nil, or_false] at member
  rcases member with rfl | rfl | rfl | rfl | rfl <;> exact own

theorem isOf_of_mem_writeTasks {id : Nat} {channel : String} {completion : Completion α} {value : α}
    (own : id = frame.1) (member : task ∈ writeTasks id channel completion value) :
    task.IsOf frame := by
  rcases List.mem_cons.mp member with rfl | member
  · trivial
  · split at member
    · exact isOf_of_mem_pollTasks own member
    · cases member

theorem isOf_of_mem_purposeTasks {id : Nat} {value : α} {purpose : Purpose α} (own : id = frame.1)
    (member : task ∈ purposeTasks id value purpose) : task.IsOf frame := by
  cases purpose with
  | assign => exact isOf_of_mem_writeTasks own member
  | await =>
      simp only [purposeTasks] at member
      split at member
      · cases List.mem_singleton.mp member
        exact own
      · exact isOf_of_mem_pollTasks own member

theorem isOf_of_mem_nestedTasks {frames : List (Frame α)}
    (contained : ∀ inner ∈ frames, Frame.Contains frame inner)
    (member : task ∈ nestedTasks frames) : task.IsOf frame := by
  simp only [nestedTasks, List.mem_flatMap, List.mem_cons, List.not_mem_nil, or_false] at member
  obtain ⟨inner, found, rfl | rfl⟩ := member
  · trivial
  · exact contained inner found

theorem isOf_of_mem_commandTasks {id : Nat} {command : Command α}
    (member : task ∈ commandTasks id command) : task.IsOf (id, command) := by
  cases command with
  | group => exact isOf_of_mem_nestedTasks (fun _ found => found) member
  | comment => cases member
  | loop description sweep body work =>
      cases List.mem_singleton.mp member
      exact ⟨rfl, description, work, rfl⟩
  | delay | set | wait =>
      simp only [commandTasks, List.mem_cons, List.not_mem_nil, or_false] at member
      rcases member with rfl | rfl | rfl | rfl | rfl <;> rfl

theorem isOf_of_mem_iterationTasks [Scalar α] {id : Nat} {sweep : Sweep α} {body : List (Command α)}
    {iteration : Nat} (own : id = frame.1)
    (loops : ∃ description work, frame.2 = .loop description sweep body work)
    (member : task ∈ iterationTasks id sweep body iteration) : task.IsOf frame := by
  simp only [iterationTasks, List.mem_append, List.mem_cons, List.not_mem_nil, or_false] at member
  obtain ⟨description, work, loops⟩ := loops
  rcases member with (rfl | member) | rfl | rfl | rfl
  · trivial
  · exact isOf_of_mem_writeTasks own member
  · exact own
  · exact ⟨description, sweep, work, loops⟩
  · exact ⟨own, description, work, loops⟩

end Worker

section Spawning

variable [Scalar α] {board after : Board} {worker : Worker α} {task : Task α}
variable {more : List (Task α)} {reply : Option (Reply α)} {frame : Frame α}

/-- What is done for a step leads to more of that, unless it starts another step. -/
theorem Task.isOf_of_spawns (own : task.IsOf frame)
    (ordinary : ∀ id command, task ≠ .start id command)
    (spawns : task.Spawns board worker reply after more) : ∀ next ∈ more, next.IsOf frame := by
  intro next member
  cases spawns with
  | start id command => exact absurd rfl (ordinary id command)
  | literal | evaluated => exact Worker.isOf_of_mem_purposeTasks own member
  | baseline =>
      refine Worker.isOf_of_mem_pollTasks ?_ member
      exact own
  | round => exact Worker.isOf_of_mem_iterationTasks own.1 own.2 member
  | nest body =>
      obtain ⟨description, sweep, work, loops⟩ := own
      refine Worker.isOf_of_mem_nestedTasks (fun inner found => ?_) member
      rw [Frame.Contains, loops]
      exact ⟨_, found⟩
  | armDelay | heedAbort | deadlineAhead | delayGoesOn | limited | unlimited | withinLimit =>
      cases List.mem_singleton.mp member
      exact own
  | armPoll | pollGoesOn =>
      simp only [List.mem_cons, List.not_mem_nil, or_false] at member
      rcases member with rfl | rfl
      · trivial
      · exact own
  | countUnit =>
      cases List.mem_singleton.mp member
      trivial
  | _ => first
    | exact False.elim own
    | cases member

end Spawning

/-! ## Where a wait begins and ends -/

namespace Worker

/-- An agenda in which every wait that begins comes to its end. -/
def IsPaired : List (Task α) → Prop
  | [] => True
  | task :: rest => task.IsFollowedBy rest ∧ IsPaired rest

variable {task : Task α} {front rest agenda : List (Task α)} {id : Nat}

/-- What comes behind a wait makes no difference to it. -/
theorem isFollowedBy_append (own : task.IsFollowedBy front) (rest : List (Task α)) :
    task.IsFollowedBy (front ++ rest) := by
  cases task with
  | installLatch | stampStart =>
      obtain ⟨first, behind, waiting, rfl⟩ := own
      exact ⟨first, behind ++ rest, waiting, rfl⟩
  | _ => trivial

theorem IsPaired.append (first : IsPaired front) (second : IsPaired rest) :
    IsPaired (front ++ rest) := by
  induction front with
  | nil => exact second
  | cons task front ih => exact ⟨isFollowedBy_append first.1 rest, ih first.2⟩

theorem IsPaired.of_forall (silent : ∀ task ∈ agenda, task.beginsWait = false) :
    IsPaired agenda := by
  induction agenda with
  | nil => trivial
  | cons task rest ih =>
      obtain ⟨own, behind⟩ := List.forall_mem_cons.mp silent
      refine ⟨?_, ih behind⟩
      cases task <;> trivial

theorem IsPaired.of_suffix (paired : IsPaired agenda) (suffix : rest <:+ agenda) :
    IsPaired rest := by
  obtain ⟨front, rfl⟩ := suffix
  induction front with
  | nil => exact paired
  | cons task front ih => exact ih paired.2

/-- The tasks of a wait, from the latch that is installed to its removal. -/
theorem isPaired_wait (id : Nat) (first : Task α) (waiting : first.isWaiting = true) :
    IsPaired [.installLatch id, .stampStart id, first, .clearStart id, .removeLatch id] := by
  refine ⟨⟨first, [], waiting, rfl⟩, ⟨first, [.removeLatch id], waiting, rfl⟩, .of_forall ?_⟩
  have apart : first.beginsWait = false := by cases first <;> first | rfl | cases waiting
  exact List.forall_mem_cons.mpr ⟨apart, by simp [Task.beginsWait]⟩

theorem isPaired_writeTasks (id : Nat) (channel : String) (completion : Completion α) (value : α) :
    IsPaired (writeTasks id channel completion value) := by
  refine ⟨trivial, ?_⟩
  split
  · exact isPaired_wait _ _ rfl
  · trivial

theorem isPaired_purposeTasks (id : Nat) (value : α) (purpose : Purpose α) :
    IsPaired (purposeTasks id value purpose) := by
  cases purpose with
  | assign => exact isPaired_writeTasks ..
  | await =>
      simp only [purposeTasks]
      split
      · exact ⟨trivial, trivial⟩
      · exact isPaired_wait _ _ rfl

theorem isPaired_nestedTasks (frames : List (Frame α)) : IsPaired (nestedTasks frames) := by
  apply IsPaired.of_forall
  intro task member
  simp only [nestedTasks, List.mem_flatMap, List.mem_cons, List.not_mem_nil, or_false] at member
  obtain ⟨_, _, rfl | rfl⟩ := member <;> rfl

theorem isPaired_commandTasks (id : Nat) (command : Command α) :
    IsPaired (commandTasks id command) := by
  cases command with
  | delay => exact isPaired_wait _ _ rfl
  | group => exact isPaired_nestedTasks _
  | set | wait | loop | comment => exact .of_forall (by simp [commandTasks, Task.beginsWait])

theorem isPaired_iterationTasks [Scalar α] (id : Nat) (sweep : Sweep α) (body : List (Command α))
    (iteration : Nat) : IsPaired (iterationTasks id sweep body iteration) := by
  refine IsPaired.append (IsPaired.append ?_ (isPaired_writeTasks ..)) ?_
  · exact ⟨trivial, trivial⟩
  · exact ⟨trivial, trivial, trivial, trivial⟩

/-- Whatever a task leads to ends the waits that it begins. -/
theorem isPaired_of_spawns [Scalar α] {board after : Board} {worker : Worker α}
    {more : List (Task α)} {reply : Option (Reply α)}
    (spawns : task.Spawns board worker reply after more) : IsPaired more := by
  cases spawns with
  | literal | evaluated => exact isPaired_purposeTasks ..
  | baseline => exact isPaired_wait _ _ rfl
  | enter id command =>
      exact (isPaired_commandTasks id command).append ⟨trivial, trivial, trivial⟩
  | round => exact isPaired_iterationTasks ..
  | nest => exact isPaired_nestedTasks _
  | steps step remaining =>
      cases remaining with
      | nil => trivial
      | cons => exact .of_forall (by simp [stepTasks, Task.beginsWait])
  | _ => exact .of_forall (by simp [Task.beginsWait])

/-! ## Waits in progress -/

/-- An agenda in which a task closes something, and in front of it is nothing but what lies within
that. -/
def Closes (close : Task α) (within : Task α → Prop) (agenda : List (Task α)) : Prop :=
  ∃ front rest, agenda = front ++ close :: rest ∧ ∀ task ∈ front, within task

/-- A wait whose beginning is noted is in progress: its tasks come next, and behind them the note is
taken back. -/
abbrev Waits (id : Nat) (agenda : List (Task α)) : Prop :=
  Closes (.clearStart id) (fun task => task.isWaiting = true) agenda

/-- A wait that has a latch is in progress: its tasks come next, with those that note its beginning
and its end, and behind them the latch is removed. -/
abbrev Latched (id : Nat) (agenda : List (Task α)) : Prop :=
  Closes (.removeLatch id)
    (fun task => task.isWaiting = true ∨ task = .stampStart id ∨ task = .clearStart id) agenda

variable {close : Task α} {within : Task α → Prop}

/-- What lies within comes first, or the task that closes. -/
theorem Closes.of_cons (closes : Closes close within (task :: rest)) :
    task = close ∨ within task ∧ Closes close within rest := by
  obtain ⟨front, behind, split, inner⟩ := closes
  cases front with
  | nil =>
      cases split
      exact .inl rfl
  | cons first front =>
      obtain ⟨rfl, rfl⟩ := List.cons.inj split
      obtain ⟨own, others⟩ := List.forall_mem_cons.mp inner
      exact .inr ⟨own, front, behind, rfl, others⟩

theorem Closes.append (closes : Closes close within rest) (inner : ∀ task ∈ front, within task) :
    Closes close within (front ++ rest) := by
  obtain ⟨others, behind, rfl, further⟩ := closes
  exact ⟨front ++ others, behind, (List.append_assoc ..).symm,
    List.forall_mem_append.mpr ⟨inner, further⟩⟩

theorem not_closes_nil : ¬Closes close within [] := by
  rintro ⟨front, rest, split, -⟩
  simp at split

/-- After an error the task that closes is still done. -/
theorem Closes.unwind (closes : Closes close within agenda) (cleans : close.cleansUp = true) :
    Closes close within (unwind agenda) := by
  obtain ⟨front, rest, rfl, inner⟩ := closes
  rw [unwind_append_cons cleans]
  exact ⟨_, rest, rfl, fun task member => inner task ((unwind_suffix front).mem member)⟩

end Worker

/-! ## The steps in progress -/

namespace Worker

variable {top : Nat → Frame α → Prop} {base : List Nat} {current : Nat} {frame : Frame α}
variable {frames : List (Frame α)} {task : Task α} {rest agenda : List (Task α)}

/-- What is in front of a worker that is in no step. If it is on its way to one, the step is that of
the number which is shown, as soon as it is. -/
inductive AtTop (top : Nat → Frame α → Prop) (base : List Nat) (current : Nat) :
    List (Task α) → Prop where
  | apart {agenda : List (Task α)} (apart : ∀ task ∈ agenda, task.IsApart top base) :
      AtTop top base current agenda
  | opening {front rest : List (Task α)} {step id : Nat} {command : Command α}
      (way : ∀ task ∈ front, task = .safePoint) (own : top step (id, command))
      (apart : ∀ task ∈ rest, task.IsApart top base) :
      AtTop top base current (front ++ .openStep step :: .announceStart step id command :: rest)
  | opened {rest : List (Task α)} {id : Nat} {command : Command α}
      (own : top current (id, command)) (apart : ∀ task ∈ rest, task.IsApart top base) :
      AtTop top base current (.announceStart current id command :: rest)
  | due {rest : List (Task α)} {id : Nat} {command : Command α}
      (own : top current (id, command)) (apart : ∀ task ∈ rest, task.IsApart top base) :
      AtTop top base current (.start id command :: rest)

/-- Where a step belongs: within the innermost one that is in progress, or at the top. -/
def Placed (top : Nat → Frame α → Prop) (current : Nat) (frame : Frame α) : List (Frame α) → Prop
  | [] => top current frame
  | outer :: _ => Frame.Contains outer frame

/-- What is in front of a worker that is in the body of a step, of those around it, or of none. -/
inductive Framed (top : Nat → Frame α → Prop) (base : List Nat) (current : Nat) :
    List (Frame α) → List (Task α) → Prop where
  | outside {agenda : List (Task α)} (stands : AtTop top base current agenda) :
      Framed top base current [] agenda
  | inside {frame : Frame α} {frames : List (Frame α)} {inner rest : List (Task α)}
      (own : ∀ task ∈ inner, task.IsOf frame) (paired : IsPaired inner)
      (placed : Placed top current frame frames) (framed : Framed top base current frames rest) :
      Framed top base current (frame :: frames)
        (inner ++ .settle frame.1 frame.2 :: .leave :: rest)

/-- What is in front of a worker with some steps in progress: it is in the body of the innermost
one, it is about to enter another, or it has settled the innermost one and is about to leave it. -/
inductive Stacked (top : Nat → Frame α → Prop) (base : List Nat) (current : Nat) :
    List (Frame α) → List (Task α) → Prop where
  | working {frames : List (Frame α)} {agenda : List (Task α)}
      (framed : Framed top base current frames agenda) : Stacked top base current frames agenda
  | entering {frames : List (Frame α)} {id : Nat} {command : Command α} {rest : List (Task α)}
      (placed : Placed top current (id, command) frames)
      (framed : Framed top base current frames rest) :
      Stacked top base current frames (.enter id command :: rest)
  | leaving {frame : Frame α} {frames : List (Frame α)} {inner rest : List (Task α)}
      (counts : ∀ task ∈ inner, task.isCounting = true)
      (placed : Placed top current frame frames) (framed : Framed top base current frames rest) :
      Stacked top base current (frame :: frames) (inner ++ .leave :: rest)

theorem AtTop.unwind (stands : AtTop top base current agenda) :
    AtTop top base current (unwind agenda) := by
  cases stands with
  | apart apart => exact .apart fun task member => apart task ((unwind_suffix _).mem member)
  | @opening front rest step id command way own apart =>
      have dropped :
          Worker.unwind (front ++ .openStep step :: .announceStart step id command :: rest) =
            Worker.unwind rest := by
        induction front with
        | nil => rfl
        | cons task front ih =>
            obtain ⟨rfl, behind⟩ := List.forall_mem_cons.mp way
            exact ih behind
      rw [dropped]
      exact .apart fun task member => apart task ((unwind_suffix _).mem member)
  | opened own apart | due own apart =>
      rw [unwind_cons_of_not_cleansUp rfl]
      exact .apart fun task member => apart task ((unwind_suffix _).mem member)

theorem Framed.unwind (framed : Framed top base current frames agenda) :
    Framed top base current frames (unwind agenda) := by
  cases framed with
  | outside stands => exact .outside stands.unwind
  | inside own paired placed framed =>
      rw [unwind_append_cons rfl]
      exact .inside (fun task member => own task ((unwind_suffix _).mem member))
        (paired.of_suffix (unwind_suffix _)) placed framed

/-- After an error the same steps are in progress, until they are left. -/
theorem Stacked.unwind (stacked : Stacked top base current frames agenda) :
    Stacked top base current frames (unwind agenda) := by
  cases stacked with
  | working framed => exact .working framed.unwind
  | entering placed framed => exact .working framed.unwind
  | leaving counts placed framed =>
      rw [unwind_append_cons rfl]
      exact .leaving (fun task member => counts task ((unwind_suffix _).mem member)) placed framed

section Steps

variable [Scalar α] {board after : Board} {worker : Worker α} {more : List (Task α)}
variable {reply : Option (Reply α)}

/-- What stands apart leads to what does so or to the next of the top-level steps. -/
theorem AtTop.of_apart (own : task.IsApart top base)
    (behind : ∀ task ∈ rest, task.IsApart top base)
    (spawns : task.Spawns board worker reply after more) :
    AtTop top base after.currentStep (more ++ rest) := by
  cases spawns with
  | prepare commands =>
      refine .apart (List.forall_mem_append.mpr ⟨?_, behind⟩)
      simp only [List.forall_mem_cons, List.not_mem_nil, false_imp_iff, implies_true, and_true]
      exact ⟨trivial, own _⟩
  | steps step remaining =>
      cases remaining with
      | nil => exact .apart behind
      | cons frame remaining =>
          have way : ∀ task ∈ [Task.safePoint (α := α)], task = .safePoint := by simp
          refine .opening way (own 0 frame rfl) ?_
          refine List.forall_mem_cons.mpr ⟨trivial, List.forall_mem_cons.mpr ⟨?_, behind⟩⟩
          intro further other found
          rw [Nat.add_assoc, Nat.add_comm 1]
          exact own (further + 1) other found
  | report =>
      refine .apart (List.forall_mem_append.mpr ⟨?_, behind⟩)
      simp [Task.IsApart]
  | _ => first
    | exact False.elim own
    | exact .apart behind

/-- A worker that is in no step stays so until it is about to enter one. -/
theorem Stacked.of_top (stands : AtTop top base board.currentStep (task :: rest))
    (spawns : task.Spawns board worker reply after more) :
    Stacked top base after.currentStep (task.framesAfter []) (more ++ rest) := by
  generalize shape : task :: rest = agenda at stands
  cases stands with
  | apart apart =>
      subst shape
      obtain ⟨own, behind⟩ := List.forall_mem_cons.mp apart
      have none : task.framesAfter ([] : List (Frame α)) = [] := by
        cases task <;> first | rfl | cases own
      rw [none]
      exact .working (.outside (.of_apart own behind spawns))
  | @opening front rest step id command way own apart =>
      cases front with
      | nil =>
          obtain ⟨rfl, rfl⟩ := List.cons.inj shape
          cases spawns with
          | openStep => exact .working (.outside (.opened own apart))
      | cons first front =>
          obtain ⟨rfl, rfl⟩ := List.cons.inj shape
          obtain ⟨rfl, others⟩ := List.forall_mem_cons.mp way
          cases spawns with
          | safePoint => exact .working (.outside (.opening others own apart))
  | opened own apart =>
      obtain ⟨rfl, rfl⟩ := List.cons.inj shape
      cases spawns with
      | announceStart =>
          refine .working (.outside (.due own (List.forall_mem_cons.mpr ⟨trivial, apart⟩)))
  | due own apart =>
      obtain ⟨rfl, rfl⟩ := List.cons.inj shape
      cases spawns with
      | start => exact .entering own (.outside (.apart apart))

/-- What is done for a step does not show another one to be in progress. -/
theorem currentStep_of_isOf (own : task.IsOf frame)
    (spawns : task.Spawns board worker reply after more) :
    after.currentStep = board.currentStep := by
  cases spawns with
  | nest => rw [Board.addCommands_eq]
  | _ => first | rfl | exact False.elim own

/-- A task that succeeds leaves the worker in the steps that its deed says. -/
theorem Stacked.of_spawns (stacked : Stacked top base board.currentStep frames (task :: rest))
    (spawns : task.Spawns board worker reply after more) :
    Stacked top base after.currentStep (task.framesAfter frames) (more ++ rest) := by
  generalize shape : task :: rest = agenda at stacked
  cases stacked with
  | working framed =>
      cases framed with
      | outside stands =>
          subst shape
          exact .of_top stands spawns
      | @inside frame frames inner rest own paired placed framed =>
          cases inner with
          | nil =>
              obtain ⟨rfl, rfl⟩ := List.cons.inj shape
              cases spawns with
              | settle => exact .leaving (List.forall_mem_nil _) placed framed
              | settleLeaf => exact .leaving (by simp [Task.isCounting]) placed framed
          | cons first inner =>
              rw [List.cons_append] at shape
              obtain ⟨rfl, rfl⟩ := List.cons.inj shape
              obtain ⟨mine, others⟩ := List.forall_mem_cons.mp own
              have same : task.framesAfter (frame :: frames) = frame :: frames := by
                cases task <;> first | rfl | exact False.elim mine
              rw [same, currentStep_of_isOf mine spawns]
              by_cases starts : ∃ id command, task = .start id command
              · obtain ⟨id, command, rfl⟩ := starts
                cases spawns with
                | start => exact .entering mine (.inside others paired.2 placed framed)
              · have ordinary : ∀ id command, task ≠ .start id command :=
                  fun id command same => starts ⟨id, command, same⟩
                have goesOn := Task.isOf_of_spawns mine ordinary spawns
                rw [← List.append_assoc]
                exact .working (.inside (List.forall_mem_append.mpr ⟨goesOn, others⟩)
                  ((isPaired_of_spawns spawns).append paired.2) placed framed)
  | @entering frames id command rest placed framed =>
      obtain ⟨rfl, rfl⟩ := List.cons.inj shape
      cases spawns with
      | enter =>
          rw [List.append_assoc]
          have own : ∀ task ∈ commandTasks id command, task.IsOf (id, command) :=
            fun _ => isOf_of_mem_commandTasks
          exact .working (.inside own (isPaired_commandTasks id command) placed framed)
  | @leaving frame frames inner rest counts placed framed =>
      cases inner with
      | nil =>
          obtain ⟨rfl, rfl⟩ := List.cons.inj shape
          cases spawns with
          | leave => exact .working framed
      | cons first inner =>
          rw [List.cons_append] at shape
          obtain ⟨rfl, rfl⟩ := List.cons.inj shape
          obtain ⟨own, others⟩ := List.forall_mem_cons.mp counts
          rw [← List.append_assoc]
          cases spawns with
          | countUnit | announceWork =>
              exact .leaving (List.forall_mem_append.mpr ⟨by simp [Task.isCounting], others⟩)
                placed framed
          | _ => cases own

end Steps

end Worker

end Scan
