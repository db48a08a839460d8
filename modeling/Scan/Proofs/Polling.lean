import Scan.Proofs.Waiting

/-!
# The course of a poll

A poll is made for a step that has just begun its wait. It reads its channel again and again, and
between two readings it looks at its limit and rests. It goes on as long as no reading satisfies it,
so what it comes to is decided by its last reading, or by what has happened after it.
-/

namespace Scan

variable {α : Type}

/-! ## Readings -/

/-- The value that was read for a poll. -/
def Deed.reading? (deed : Deed α) : Option α :=
  match deed.task, deed.reply with
  | .probe _ _, some (.found (.ok value)) => some value
  | _, _ => none

/-- The values that were read for polls, in order. -/
def readingsOf (past : List (Deed α)) : List α :=
  past.filterMap Deed.reading?

@[simp] theorem readingsOf_nil : readingsOf ([] : List (Deed α)) = [] := rfl

@[simp] theorem readingsOf_concat (past : List (Deed α)) (deed : Deed α) :
    readingsOf (past ++ [deed]) = readingsOf past ++ deed.reading?.toList := by
  cases reads : deed.reading? <;> simp [readingsOf, reads]

/-! ## What a poll is made for -/

/-- The tasks that lead to a poll: its step has written the value that it polls for, if it writes
one, and has begun its wait. -/
def Poll.lead (poll : Poll α) (writes : Option String) : List (Task α) :=
  (writes.map fun channel => Task.write channel poll.threshold).toList ++
    [.installLatch poll.id, .stampStart poll.id]

/-- The channel that a step writes. -/
def Command.writes? : Command α → Option String
  | .set _ assignment => some assignment.channel
  | .loop _ sweep _ _ => some sweep.channel
  | _ => none

/-- The poll of a step: that of a step that waits, or that of a loop at one of its values. -/
inductive Poll.IsMadeFor [Scalar α] (past : List (Deed α)) : Frame α → Poll α → Prop where
  | step {id : Nat} {command : Command α} {poll : Poll α} (own : poll.IsFor past id command) :
      IsMadeFor past (id, command) poll
  | value {id iteration : Nat} {description : String} {sweep : Sweep α} {body : List (Command α)}
      {work : UInt64} (waits : sweep.completion.wait = true)
      (more : iteration < sweep.iterations) :
      IsMadeFor past (id, .loop description sweep body work)
        ⟨id, sweep.completion.readback, .equals, sweep.value iteration, sweep.completion.tolerance,
          sweep.completion.timeout⟩

/-- Whether a task that leads to a poll does so for a step that was started. -/
def Task.IsOwned (past : List (Deed α)) : Task α → Prop
  | .enter id command => ⟨.start id command, none⟩ ∈ past
  | .resolve id quantity (.assign assignment) => quantity = assignment.value ∧
      ∃ description, ⟨.start id (.set description assignment), none⟩ ∈ past
  | .resolve id quantity (.await condition) => quantity = condition.value ∧
      ∃ description, ⟨.start id (.wait description condition), none⟩ ∈ past
  | .baseline id condition desired => condition.comparison.isRelative = true ∧
      condition.value.IsWorth past id desired ∧
      ∃ description, ⟨.start id (.wait description condition), none⟩ ∈ past
  | .iterate id sweep body _ => ∃ description work,
      ⟨.start id (.loop description sweep body work), none⟩ ∈ past
  | _ => True

/-- Whether a task is one of those that lead to a poll. -/
def Task.isLeading : Task α → Bool
  | .safePoint | .write .. | .installLatch _ | .stampStart _ => true
  | _ => false

/-- Whether a poll is made for a step that was started, and what leads to it comes last in what was
done together with what is still in front of it. -/
structure Poll.IsLed [Scalar α] (past : List (Deed α)) (front : List (Task α)) (poll : Poll α) :
    Prop where
  made : ∃ command, ⟨.start poll.id command, none⟩ ∈ past ∧
    poll.IsMadeFor past (poll.id, command) ∧
    poll.lead command.writes? <:+ past.map Deed.task ++ front
  alone : ∀ task ∈ front, task.isLeading = true

section Mono

variable [Scalar α] {past later : List (Deed α)} {frame : Frame α} {poll : Poll α} {task : Task α}
variable {front : List (Task α)} {reply : Option (Reply α)}

theorem Poll.IsMadeFor.mono (made : poll.IsMadeFor past frame) (more : past ⊆ later) :
    poll.IsMadeFor later frame := by
  cases made with
  | step own => exact .step (own.mono more)
  | value waits within => exact .value waits within

omit [Scalar α] in
theorem Task.IsOwned.mono (owned : task.IsOwned past) (more : past ⊆ later) :
    task.IsOwned later := by
  cases task with
  | resolve id quantity purpose =>
      cases purpose <;> exact ⟨owned.1, owned.2.imp fun _ started => more started⟩
  | baseline =>
      obtain ⟨relative, worth, description, started⟩ := owned
      exact ⟨relative, worth.mono more, description, more started⟩
  | enter => exact more owned
  | iterate =>
      obtain ⟨description, work, started⟩ := owned
      exact ⟨description, work, more started⟩
  | _ => trivial

/-- A task that leads to a poll passes from what is in front of it to what was done. -/
theorem Poll.IsLed.work (led : poll.IsLed past (task :: front)) :
    poll.IsLed (past ++ [⟨task, reply⟩]) front where
  made := by
    obtain ⟨command, started, made, lead⟩ := led.made
    have old : past ⊆ past ++ [⟨task, reply⟩] := List.subset_append_left _ _
    exact ⟨command, old started, made.mono old, by simpa using lead⟩
  alone := fun next member => led.alone next (List.mem_cons_of_mem _ member)

end Mono

namespace Worker

variable {poll poll' : Poll α} {front inner : List (Task α)}

/-- A poll is armed at one place among its tasks. -/
theorem eq_of_pollTasks_eq (split : pollTasks poll = front ++ .armPoll poll' :: inner) :
    poll' = poll ∧ front = [.installLatch poll.id, .stampStart poll.id] ∧
      inner = [.clearStart poll.id, .removeLatch poll.id] := by
  rcases front with _ | ⟨_, _ | ⟨_, _ | ⟨_, front⟩⟩⟩
  case cons.cons.nil =>
    cases split
    exact ⟨rfl, rfl, rfl⟩
  case cons.cons.cons =>
    have behind : .armPoll poll' ∈ [Task.clearStart poll.id, .removeLatch poll.id] := by
      obtain ⟨-, split⟩ := List.cons.inj split
      obtain ⟨-, split⟩ := List.cons.inj split
      rw [(List.cons.inj split).2]
      exact List.mem_append_right _ List.mem_cons_self
    simp at behind
  all_goals simp [pollTasks] at split

/-! ## Where polls begin -/

section Leading

variable [Scalar α] {past : List (Deed α)} {agenda rest more behind : List (Task α)}
variable {board after : Board} {worker : Worker α} {task : Task α} {reply : Option (Reply α)}

/-- Whether every poll that a worker is going to make is led to by the tasks in front of it, and
ends with its note and its latch taken back. -/
def IsLeading (past : List (Deed α)) (agenda : List (Task α)) : Prop :=
  ∀ front poll rest, agenda = front ++ .armPoll poll :: rest →
    poll.IsLed past front ∧ ∃ behind, rest = .clearStart poll.id :: .removeLatch poll.id :: behind

/-- The tasks of a poll lead to it, behind some others that do. -/
theorem IsLeading.of_pollTasks (ahead : List (Task α)) {command : Command α}
    (started : ⟨.start poll.id command, none⟩ ∈ past)
    (made : poll.IsMadeFor past (poll.id, command))
    (lead : poll.lead command.writes? <:+ ahead ++ [.installLatch poll.id, .stampStart poll.id])
    (alone : ∀ task ∈ ahead, task.isLeading = true) : IsLeading past (ahead ++ pollTasks poll) := by
  intro front poll' rest split
  rcases split_of_append split with ⟨inner, rfl, same⟩ | ⟨inner, rfl, -⟩
  · obtain ⟨rfl, rfl, rfl⟩ := eq_of_pollTasks_eq same
    refine ⟨⟨⟨command, started, made, lead.trans (List.suffix_append _ _)⟩, ?_⟩, [], rfl⟩
    exact List.forall_mem_append.mpr ⟨alone, by simp [Task.isLeading]⟩
  · cases alone (.armPoll poll') (by simp)

theorem IsLeading.of_silent (silent : ∀ poll, .armPoll poll ∉ agenda) : IsLeading past agenda := by
  intro front poll rest split
  exact absurd (by simp [split]) (silent poll)

/-- What comes behind the polls in front makes no difference to them. -/
theorem IsLeading.append (leading : IsLeading past agenda) (silent : ∀ poll, .armPoll poll ∉ rest) :
    IsLeading past (agenda ++ rest) := by
  intro front poll behind split
  rcases split_of_append split with ⟨inner, -, same⟩ | ⟨inner, rfl, rfl⟩
  · exact absurd (by simp [same]) (silent poll)
  · obtain ⟨led, behind, rfl⟩ := leading front poll inner rfl
    exact ⟨led, behind ++ rest, rfl⟩

/-- A write leads to the poll for the value that it writes. -/
theorem IsLeading.of_writeTasks (ahead : List (Task α)) {id : Nat} {channel : String}
    {completion : Completion α} {value : α} {command : Command α}
    (started : ⟨.start id command, none⟩ ∈ past) (writes : command.writes? = some channel)
    (made : completion.wait = true → Poll.IsMadeFor past (id, command)
      ⟨id, completion.readback, .equals, value, completion.tolerance, completion.timeout⟩)
    (alone : ∀ task ∈ ahead, task.isLeading = true) :
    IsLeading past (ahead ++ writeTasks id channel completion value) := by
  rw [writeTasks]
  split <;> rename_i waits
  · rw [List.append_cons]
    refine .of_pollTasks _ started (made waits) ?_ ?_
    · rw [writes]
      exact ⟨ahead, by simp [Poll.lead]⟩
    · exact List.forall_mem_append.mpr ⟨alone, by simp [Task.isLeading]⟩
  · refine .of_silent fun poll member => ?_
    rcases List.mem_append.mp member with member | member
    · cases alone _ member
    · simp at member

omit [Scalar α] in
theorem armPoll_not_mem_commandTasks {id : Nat} {command : Command α} (poll : Poll α) :
    .armPoll poll ∉ commandTasks id command := by
  cases command <;> simp [commandTasks, nestedTasks]

/-- Whatever a task leads to leads to the polls that are among it. -/
theorem isLeading_of_spawns (owned : task.IsOwned past)
    (spawns : task.Spawns board worker reply after more) :
    IsLeading (past ++ [⟨task, reply⟩]) more := by
  have new : ⟨task, reply⟩ ∈ past ++ [⟨task, reply⟩] := by simp
  have old : past ⊆ past ++ [⟨task, reply⟩] := List.subset_append_left _ _
  -- what a value leads to, once it is known
  have known : ∀ {id quantity value} {purpose : Purpose α}, task = .resolve id quantity purpose →
      quantity.IsWorth (past ++ [⟨task, reply⟩]) id value →
        IsLeading (past ++ [⟨task, reply⟩]) (purposeTasks id value purpose) := by
    rintro id quantity value purpose rfl worth
    cases purpose with
    | assign assignment =>
        obtain ⟨rfl, description, started⟩ := owned
        exact .of_writeTasks [] (old started) rfl (fun waits => .step (.set waits worth))
          (List.forall_mem_nil _)
    | await condition =>
        obtain ⟨rfl, description, started⟩ := owned
        rw [purposeTasks]
        split <;> rename_i relative
        · exact .of_silent (by simp)
        · refine .of_pollTasks [] (old started) (.step (.absolute ?_ worth)) ?_
            (List.forall_mem_nil _)
          · exact Bool.eq_false_iff.mpr relative
          · exact List.suffix_rfl
  cases spawns with
  | literal => exact known rfl rfl
  | evaluated _ _ purpose => exact known rfl ⟨purpose, new⟩
  | baseline =>
      obtain ⟨relative, worth, description, started⟩ := owned
      refine .of_pollTasks [] (old started)
        (.step (.relative relative (worth.mono old) new)) List.suffix_rfl (List.forall_mem_nil _)
  | round id sweep body iteration more =>
      obtain ⟨description, work, started⟩ := owned
      refine IsLeading.append ?_ (by simp)
      exact .of_writeTasks [.safePoint] (old started) rfl (fun waits => .value waits more)
        (by simp [Task.isLeading])
  | enter id command =>
      exact .of_silent fun poll => by simp [armPoll_not_mem_commandTasks poll]
  | steps step remaining => exact .of_silent (by cases remaining <;> simp [stepTasks])
  | nest body => exact .of_silent (by simp [nestedTasks])
  | _ => exact .of_silent (by simp)

/-- The polls that a worker is going to make stay led to, whatever task succeeds. -/
theorem IsLeading.of_spawns (leading : IsLeading past (task :: rest)) (owned : task.IsOwned past)
    (spawns : task.Spawns board worker reply after more) :
    IsLeading (past ++ [⟨task, reply⟩]) (more ++ rest) := by
  intro front poll behind split
  rcases split_of_append split with ⟨inner, rfl, rfl⟩ | ⟨inner, rfl, rfl⟩
  · obtain ⟨led, ends⟩ := leading (task :: inner) poll behind rfl
    have leads : task.isLeading = true := led.alone task List.mem_cons_self
    -- a task that leads to a poll puts nothing in its place
    have nothing : more = [] := by cases spawns <;> first | rfl | cases leads
    subst nothing
    exact ⟨led.work, ends⟩
  · obtain ⟨led, behind, rfl⟩ := isLeading_of_spawns owned spawns front poll inner rfl
    exact ⟨led, behind ++ rest, rfl⟩

omit [Scalar α] in
theorem isOwned_of_mem_pollTasks (member : task ∈ pollTasks poll) : task.IsOwned past := by
  simp only [pollTasks, List.mem_cons, List.not_mem_nil, or_false] at member
  rcases member with rfl | rfl | rfl | rfl | rfl <;> trivial

omit [Scalar α] in
theorem isOwned_of_mem_writeTasks {id : Nat} {channel : String} {completion : Completion α}
    {value : α} (member : task ∈ writeTasks id channel completion value) : task.IsOwned past := by
  rcases List.mem_cons.mp member with rfl | member
  · trivial
  · split at member
    · exact isOwned_of_mem_pollTasks member
    · cases member

omit [Scalar α] in
theorem isOwned_of_mem_nestedTasks {frames : List (Frame α)} (member : task ∈ nestedTasks frames) :
    task.IsOwned past := by
  simp only [nestedTasks, List.mem_flatMap, List.mem_cons, List.not_mem_nil, or_false] at member
  obtain ⟨_, _, rfl | rfl⟩ := member <;> trivial

omit [Scalar α] in
theorem isOwned_of_mem_commandTasks {id : Nat} {command : Command α}
    (started : ⟨.start id command, none⟩ ∈ past) (member : task ∈ commandTasks id command) :
    task.IsOwned past := by
  cases command with
  | group => exact isOwned_of_mem_nestedTasks member
  | comment => cases member
  | delay | set | wait | loop =>
      simp only [commandTasks, List.mem_cons, List.not_mem_nil, or_false] at member
      rcases member with rfl | rfl | rfl | rfl | rfl <;>
        first | trivial | exact ⟨rfl, _, started⟩ | exact ⟨_, _, started⟩

omit [Scalar α] in
theorem isOwned_of_mem_purposeTasks {id : Nat} {quantity : Quantity α} {value : α}
    {purpose : Purpose α} (owned : (Task.resolve id quantity purpose).IsOwned past)
    (worth : quantity.IsWorth past id value) (member : task ∈ purposeTasks id value purpose) :
    task.IsOwned past := by
  cases purpose with
  | assign => exact isOwned_of_mem_writeTasks member
  | await condition =>
      obtain ⟨rfl, started⟩ := owned
      simp only [purposeTasks] at member
      split at member <;> rename_i relative
      · cases List.mem_singleton.mp member
        exact ⟨relative, worth, started⟩
      · exact isOwned_of_mem_pollTasks member

theorem isOwned_of_mem_iterationTasks {id iteration : Nat} {sweep : Sweep α}
    {body : List (Command α)} (owned : (Task.iterate id sweep body iteration).IsOwned past)
    (member : task ∈ iterationTasks id sweep body iteration) : task.IsOwned past := by
  simp only [iterationTasks, List.mem_append, List.mem_cons, List.not_mem_nil, or_false] at member
  rcases member with (rfl | member) | rfl | rfl | rfl
  · trivial
  · exact isOwned_of_mem_writeTasks member
  · trivial
  · trivial
  · exact owned

/-- What leads to polls for a step that was started leads to more of that. -/
theorem isOwned_of_spawns (owned : task.IsOwned past)
    (spawns : task.Spawns board worker reply after more) :
    ∀ next ∈ more, next.IsOwned (past ++ [⟨task, reply⟩]) := by
  intro next member
  have new : ⟨task, reply⟩ ∈ past ++ [⟨task, reply⟩] := by simp
  have later := owned.mono (List.subset_append_left past [⟨task, reply⟩])
  cases spawns with
  | start =>
      cases List.mem_singleton.mp member
      exact new
  | enter =>
      rcases List.mem_append.mp member with member | member
      · exact isOwned_of_mem_commandTasks later member
      · simp only [List.mem_cons, List.not_mem_nil, or_false] at member
        rcases member with rfl | rfl <;> trivial
  | literal => exact isOwned_of_mem_purposeTasks later rfl member
  | evaluated _ _ purpose => exact isOwned_of_mem_purposeTasks later ⟨purpose, new⟩ member
  | baseline => exact isOwned_of_mem_pollTasks member
  | round => exact isOwned_of_mem_iterationTasks later member
  | nest => exact isOwned_of_mem_nestedTasks member
  | steps _ remaining =>
      cases remaining with
      | nil => cases member
      | cons =>
          simp only [stepTasks, List.mem_cons, List.not_mem_nil, or_false] at member
          rcases member with rfl | rfl | rfl | rfl | rfl <;> trivial
  | _ => first
    | exact absurd member List.not_mem_nil
    | simp only [List.mem_cons, List.not_mem_nil, or_false] at member
      rcases member with rfl | rfl | rfl <;> trivial

end Leading

end Worker

/-! ## From a reading to the next one -/

/-- How far a poll is after some deeds since it was armed: what it has in front of its end, and the
error with which it has failed. As long as it goes on no reading has satisfied it. It is over as
soon as one does, or when its wait is cut short, its limit has passed, the run is aborted or the
channel cannot be read. -/
inductive Poll.Course [Scalar α] (poll : Poll α) (since : Instant) (cut : Prop) :
    List (Deed α) → List (Task α) → Option ScanError → Prop where
  | pausing {during : List (Deed α)}
      (unmet : ∀ value ∈ readingsOf during, poll.isSatisfied value = false) :
      Course poll since cut during [.safePoint, .probe poll since] none
  | probing {during : List (Deed α)}
      (unmet : ∀ value ∈ readingsOf during, poll.isSatisfied value = false) :
      Course poll since cut during [.probe poll since] none
  | checking {during : List (Deed α)} {limit : Duration}
      (unmet : ∀ value ∈ readingsOf during, poll.isSatisfied value = false)
      (read : readingsOf during ≠ []) (bounded : poll.limit = some limit) :
      Course poll since cut during [.checkLimit poll since limit] none
  | resting {during : List (Deed α)}
      (unmet : ∀ value ∈ readingsOf during, poll.isSatisfied value = false)
      (read : readingsOf during ≠ []) : Course poll since cut during [.restPoll poll since] none
  | satisfied {during : List (Deed α)} {value : α}
      (unmet : ∀ value ∈ readingsOf during, poll.isSatisfied value = false)
      (holds : poll.isSatisfied value = true) :
      Course poll since cut (during ++ [⟨.probe poll since, some (.found (.ok value))⟩]) [] none
  | cutShort {during : List (Deed α)}
      (unmet : ∀ value ∈ readingsOf during, poll.isSatisfied value = false)
      (read : readingsOf during ≠ []) (short : cut) :
      Course poll since cut (during ++ [⟨.restPoll poll since, some .rested⟩]) [] none
  | timedOut {during : List (Deed α)} {limit : Duration} {now : Instant}
      (unmet : ∀ value ∈ readingsOf during, poll.isSatisfied value = false)
      (read : readingsOf during ≠ []) (bounded : poll.limit = some limit)
      (expired : limit.nanoseconds ≤ now - since) :
      Course poll since cut (during ++ [⟨.checkLimit poll since limit, some (.told now)⟩]) []
        (some (.timeout poll.channel limit.seconds))
  | interrupted {during : List (Deed α)}
      (unmet : ∀ value ∈ readingsOf during, poll.isSatisfied value = false) :
      Course poll since cut (during ++ [⟨.safePoint, none⟩]) [] (some .interrupted)
  | broken {during : List (Deed α)} {error : IoError}
      (unmet : ∀ value ∈ readingsOf during, poll.isSatisfied value = false) :
      Course poll since cut
        (during ++ [⟨.probe poll since, some (.found (.error error))⟩]) []
        (some (.liveIo poll.channel error))

namespace Poll.Course

variable [Scalar α] {poll : Poll α} {since : Instant} {cut cut' : Prop} {during : List (Deed α)}
variable {tasks rest more behind : List (Task α)} {task : Task α} {reply : Option (Reply α)}
variable {failure : Option ScanError} {error : ScanError} {board after : Board} {worker : Worker α}

theorem mono (course : poll.Course since cut during tasks failure) (wider : cut → cut') :
    poll.Course since cut' during tasks failure := by
  cases course with
  | pausing unmet => exact .pausing unmet
  | probing unmet => exact .probing unmet
  | checking unmet read bounded => exact .checking unmet read bounded
  | resting unmet read => exact .resting unmet read
  | satisfied unmet holds => exact .satisfied unmet holds
  | cutShort unmet read short => exact .cutShort unmet read (wider short)
  | timedOut unmet read bounded expired => exact .timedOut unmet read bounded expired
  | interrupted unmet => exact .interrupted unmet
  | broken unmet => exact .broken unmet

/-- A poll that is not over has not failed. -/
theorem sound (course : poll.Course since cut during (task :: rest) failure) : failure = none := by
  cases course <;> rfl

/-- One task of a poll succeeds. -/
theorem of_spawns (course : poll.Course since cut during (task :: rest) failure)
    (spawns : task.Spawns board worker reply after more)
    (cuts : (board.monitor poll.id).isCutShort = true → cut) :
    poll.Course since cut (during ++ [⟨task, reply⟩]) (more ++ rest) none := by
  cases course with
  | pausing unmet =>
      cases spawns with
      | safePoint => exact .probing (by simpa [Deed.reading?] using unmet)
  | probing unmet =>
      cases spawns with
      | satisfied _ _ value holds => exact .satisfied unmet holds
      | limited _ _ value limit fails bounded =>
          refine .checking ?_ (by simp [Deed.reading?]) bounded
          rw [readingsOf_concat]
          exact List.forall_mem_append.mpr ⟨unmet, by simpa [Deed.reading?] using fails⟩
      | unlimited _ _ value fails unbounded =>
          refine .resting ?_ (by simp [Deed.reading?])
          rw [readingsOf_concat]
          exact List.forall_mem_append.mpr ⟨unmet, by simpa [Deed.reading?] using fails⟩
  | checking unmet read bounded =>
      cases spawns with
      | withinLimit =>
          exact .resting (by simpa [Deed.reading?] using unmet) (by simp [read])
  | resting unmet read =>
      cases spawns with
      | pollCut _ _ short => exact .cutShort unmet read (cuts short)
      | pollGoesOn => exact .pausing (by simpa [Deed.reading?] using unmet)

/-- One task of a poll fails. -/
theorem of_fails (course : poll.Course since cut during (task :: rest) failure)
    (fails : task.Fails board reply error) :
    poll.Course since cut (during ++ [⟨task, reply⟩]) [] (some error) := by
  cases course with
  | pausing unmet =>
      cases fails with
      | safePoint => exact .interrupted unmet
  | probing unmet =>
      cases fails with
      | probe => exact .broken unmet
  | checking unmet read bounded =>
      cases fails with
      | timeout _ _ _ _ expired => exact .timedOut unmet read bounded expired
  | resting => cases fails

/-- A poll whose end comes next is over. -/
theorem eq_nil_of_head (course : poll.Course since cut during tasks failure)
    (ends : (tasks ++ .clearStart poll.id :: behind).head? = some (.clearStart poll.id)) :
    tasks = [] := by
  cases course <;> first | rfl | simp at ends

/-- Nothing of a poll is left after an error. -/
theorem unwind_rest (course : poll.Course since cut during (task :: rest) failure) :
    Worker.unwind rest = [] := by
  cases course <;> rfl

/-- A poll is over after the first reading that satisfies it. -/
theorem eq_of_satisfied (course : poll.Course since cut during tasks failure) {value : α}
    (first : (readingsOf during).head? = some value) (holds : poll.isSatisfied value = true) :
    readingsOf during = [value] ∧ tasks = [] ∧ failure = none := by
  -- no other reading has satisfied it
  have apart : ∀ {earlier : List (Deed α)} {deed : Deed α}, deed.reading? = none →
      (∀ value ∈ readingsOf earlier, poll.isSatisfied value = false) →
        (readingsOf (earlier ++ [deed])).head? = some value → False := by
    intro earlier deed silent unmet first
    rw [readingsOf_concat, silent, Option.toList_none, List.append_nil] at first
    simp [unmet value (List.mem_of_mem_head? first)] at holds
  cases course with
  | pausing unmet | probing unmet | checking unmet | resting unmet =>
      simp [unmet value (List.mem_of_mem_head? first)] at holds
  | cutShort unmet | timedOut unmet | interrupted unmet | broken unmet =>
      exact (apart rfl unmet first).elim
  | @satisfied earlier last unmet =>
      rw [readingsOf_concat] at first ⊢
      cases before : readingsOf earlier with
      | nil =>
          rw [before] at first
          exact ⟨by simpa [Deed.reading?] using first, rfl, rfl⟩
      | cons other others =>
          rw [before, List.cons_append, List.head?_cons, Option.some.injEq] at first
          simp [unmet other (by simp [before]), ← first] at holds

end Poll.Course

/-! ## The polls of a worker -/

namespace Worker

/-- The polls of a worker after some deeds: those that it is going to make are led to, and so were
all that it has begun; the one that is not over is as far as its deeds say. -/
structure Polls [Scalar α] (past : List (Deed α)) (cuts : Nat → Prop) (agenda : List (Task α))
    (failure : Option ScanError) : Prop where
  owned : ∀ task ∈ agenda, task.IsOwned past
  leading : failure = none → IsLeading past agenda
  led : ∀ {before during : List (Deed α)} {poll : Poll α} {since : Instant},
    past = before ++ ⟨.armPoll poll, some (.told since)⟩ :: during → poll.IsLed before []
  course : ∀ {before during : List (Deed α)} {poll : Poll α} {since : Instant},
    past = before ++ ⟨.armPoll poll, some (.told since)⟩ :: during →
      (∀ deed ∈ during, deed.task ≠ .clearStart poll.id) →
        ∃ tasks behind, poll.Course since (cuts poll.id) during tasks failure ∧
          agenda = tasks ++ .clearStart poll.id :: .removeLatch poll.id :: behind

section Steps

variable [Scalar α] {past : List (Deed α)} {cuts cuts' : Nat → Prop} {board after : Board}
variable {worker next : Worker α} {task : Task α} {rest : List (Task α)} {reply : Option (Reply α)}
variable {agenda : List (Task α)} {failure : Option ScanError}

theorem Polls.mono (polls : Polls past cuts agenda failure) (wider : ∀ id, cuts id → cuts' id) :
    Polls past cuts' agenda failure where
  owned := polls.owned
  leading := polls.leading
  led := polls.led
  course := by
    intro before during poll since split going
    obtain ⟨tasks, behind, course, agenda⟩ := polls.course split going
    exact ⟨tasks, behind, course.mono (wider poll.id), agenda⟩

/-- A worker that has not begun yet has made no poll. -/
theorem Polls.of_silent (silent : ∀ task ∈ agenda, task.IsOwned ([] : List (Deed α)))
    (apart : ∀ poll, .armPoll poll ∉ agenda) : Polls [] cuts agenda failure where
  owned := silent
  leading := fun _ => .of_silent apart
  led := fun split => by simp at split
  course := fun split => by simp at split

/-- A poll that has just been armed was led to, and pauses before its first reading. -/
theorem Polls.of_arming {poll : Poll α} {since : Instant}
    (polls : Polls past cuts (.armPoll poll :: rest) worker.failure)
    (outcome : Outcome board worker (.armPoll poll) rest (some (.told since)) after next) :
    poll.IsLed past [] ∧ ∃ tasks behind, poll.Course since (cuts poll.id) [] tasks next.failure ∧
      next.agenda = tasks ++ .clearStart poll.id :: .removeLatch poll.id :: behind := by
  cases outcome with
  | sound sound spawns =>
      obtain ⟨led, behind, rfl⟩ := polls.leading sound [] poll rest rfl
      cases spawns with
      | armPoll => exact ⟨led, _, behind, by simpa [sound] using .pausing (by simp), rfl⟩
  | broken _ fails => cases fails
  | cleaning _ cleans => cases cleans

/-- A poll that is not over goes on or comes to its end. -/
theorem Polls.of_going {poll : Poll α} {since : Instant} {before during : List (Deed α)}
    (polls : Polls past cuts (task :: rest) worker.failure)
    (outcome : Outcome board worker task rest reply after next)
    (short : ∀ id, (board.monitor id).isCutShort = true → cuts id)
    (split : past = before ++ ⟨.armPoll poll, some (.told since)⟩ :: during)
    (going : ∀ deed ∈ during, deed.task ≠ .clearStart poll.id) (last : task ≠ .clearStart poll.id) :
    ∃ tasks behind,
      poll.Course since (cuts poll.id) (during ++ [⟨task, reply⟩]) tasks next.failure ∧
        next.agenda = tasks ++ .clearStart poll.id :: .removeLatch poll.id :: behind := by
  obtain ⟨tasks, behind, course, agenda⟩ := polls.course split going
  cases tasks with
  | nil => exact absurd (List.cons.inj agenda).1 last
  | cons first tasks =>
      rw [List.cons_append] at agenda
      obtain ⟨rfl, rfl⟩ := List.cons.inj agenda
      cases outcome with
      | sound sound spawns =>
          refine ⟨_, behind, ?_, (List.append_assoc ..).symm⟩
          simpa [sound] using course.of_spawns spawns (short poll.id)
      | broken _ fails =>
          have nothing := course.unwind_rest
          have ends : (Task.clearStart poll.id : Task α).cleansUp = true := rfl
          exact ⟨[], behind, course.of_fails fails, by rw [unwind_append_cons ends, nothing]⟩
      | cleaning failed => simp [course.sound] at failed

/-- The polls of a worker go on, whatever comes of its task. -/
theorem Polls.of_outcome (polls : Polls past cuts (task :: rest) worker.failure)
    (outcome : Outcome board worker task rest reply after next)
    (short : ∀ id, (board.monitor id).isCutShort = true → cuts id) :
    Polls (past ++ [⟨task, reply⟩]) cuts next.agenda next.failure where
  owned := by
    have own := polls.owned task List.mem_cons_self
    have behind : ∀ other ∈ rest, other.IsOwned (past ++ [⟨task, reply⟩]) := fun other member =>
      (polls.owned other (List.mem_cons_of_mem _ member)).mono (List.subset_append_left _ _)
    cases outcome with
    | sound _ spawns => exact List.forall_mem_append.mpr ⟨isOwned_of_spawns own spawns, behind⟩
    | broken => exact fun other member => behind other ((unwind_suffix _).mem member)
    | cleaning _ _ spawns =>
        exact fun other member => List.forall_mem_append.mpr ⟨isOwned_of_spawns own spawns, behind⟩
          other ((unwind_suffix _).mem member)
  leading := by
    intro still
    cases outcome with
    | sound sound spawns =>
        exact (polls.leading sound).of_spawns (polls.owned task List.mem_cons_self) spawns
    | broken => cases still
    | cleaning failed => simp [Option.isSome_iff_ne_none.mp failed] at still
  led := by
    intro before during poll since split
    rcases List.eq_nil_or_concat during with rfl | ⟨earlier, last, rfl⟩
    · obtain ⟨rfl, same⟩ := List.append_inj' split rfl
      cases List.singleton_inj.mp same
      exact (polls.of_arming outcome).1
    · rw [List.concat_eq_append, ← List.cons_append, ← List.append_assoc] at split
      exact polls.led (List.append_inj' split rfl).1
  course := by
    intro before during poll since split going
    rcases List.eq_nil_or_concat during with rfl | ⟨earlier, last, rfl⟩
    · obtain ⟨rfl, same⟩ := List.append_inj' split rfl
      cases List.singleton_inj.mp same
      exact (polls.of_arming outcome).2
    · rw [List.concat_eq_append] at split going ⊢
      rw [← List.cons_append, ← List.append_assoc] at split
      obtain ⟨own, same⟩ := List.append_inj' split rfl
      cases List.singleton_inj.mp same
      obtain ⟨going, apart⟩ := List.forall_mem_append.mp going
      exact polls.of_going outcome short own going (apart _ List.mem_cons_self)

end Steps

end Worker

/-- The polls of a worker are as far as its deeds say, at any moment of its life. -/
theorem Life.polls [Scalar α] {others : Board → Board → Prop} {board now : Board}
    {worker current : Worker α} {past : List (Deed α)}
    (life : Life others board worker past now current) (steady : worker.IsSteady)
    (start : Worker.Polls [] (fun _ => True) worker.agenda worker.failure) :
    Worker.Polls past (fun _ => True) current.agenda current.failure := by
  induction life with
  | begin => exact start
  | wait _ _ ih => exact ih
  | work life agenda stepped ih =>
      rw [agenda] at ih
      exact ih.of_outcome (Worker.outcome_of_step? (life.isSteady steady) agenda stepped)
        fun _ _ => trivial

end Scan
