import Scan.Proofs.Nesting
import Scan.Proofs.Settling

/-!
# What a waiting step does

A step that waits works out what it waits for, begins its wait, and goes on until what it waits for
has come or the wait is cut short. The tasks that it has in front of it say how far it is.
-/

namespace Scan

variable {α : Type}

/-! ## What is waited for -/

/-- Whether a quantity has a value: it is given, or the evaluator has said so. -/
def Quantity.IsWorth (past : List (Deed α)) (id : Nat) (value : α) : Quantity α → Prop
  | .literal own => value = own
  | .expression text => ∃ purpose,
      ⟨.resolve id (.expression text) purpose, some (.evaluated (.ok value))⟩ ∈ past

/-- The poll that a step makes: for the value that it has written, for a threshold, or for a change
from where it has found the channel. -/
inductive Poll.IsFor (past : List (Deed α)) (id : Nat) [Scalar α] : Command α → Poll α → Prop where
  | set {description : String} {assignment : Assignment α} {value : α}
      (waits : assignment.completion.wait = true) (worth : assignment.value.IsWorth past id value) :
      IsFor past id (.set description assignment)
        ⟨id, assignment.completion.readback, .equals, value, assignment.completion.tolerance,
          assignment.completion.timeout⟩
  | absolute {description : String} {condition : Condition α} {threshold : α}
      (absolute : condition.comparison.isRelative = false)
      (worth : condition.value.IsWorth past id threshold) :
      IsFor past id (.wait description condition)
        ⟨id, condition.channel, condition.comparison, threshold, condition.tolerance,
          condition.timeout⟩
  | relative {description : String} {condition : Condition α} {desired initial : α}
      (relative : condition.comparison.isRelative = true)
      (worth : condition.value.IsWorth past id desired)
      (read : ⟨.baseline id condition desired, some (.found (.ok initial))⟩ ∈ past) :
      IsFor past id (.wait description condition)
        ⟨id, condition.channel, condition.comparison,
          condition.comparison.threshold desired initial, condition.tolerance, condition.timeout⟩

/-- The end of a delay: its duration after the time that it was told at its beginning. -/
def Command.IsDue (past : List (Deed α)) (id : Nat) (deadline : Instant) : Command α → Prop
  | .delay _ _ duration => ∃ now,
      ⟨.armDelay id duration, some (.told now)⟩ ∈ past ∧ deadline = now + duration.nanoseconds
  | _ => False

/-- Whether what a step waits for has come: its condition was observed, or its duration has elapsed.
-/
inductive Command.IsFulfilled [Scalar α] (past : List (Deed α)) (id : Nat) (command : Command α) :
    Prop where
  | observed {poll : Poll α} {since : Instant} {value : α} (own : poll.IsFor past id command)
      (read : ⟨.probe poll since, some (.found (.ok value))⟩ ∈ past)
      (satisfied : poll.isSatisfied value = true)
  | elapsed {deadline now : Instant} (due : command.IsDue past id deadline)
      (told : ⟨.checkDeadline id deadline, some (.told now)⟩ ∈ past) (passed : deadline ≤ now)

/-- What a step does for its wait, once it knows what it waits for. -/
inductive Task.Awaits [Scalar α] (past : List (Deed α)) (id : Nat) (command : Command α) :
    Task α → Prop where
  | armPoll {poll : Poll α} (own : poll.IsFor past id command) :
      Awaits past id command (.armPoll poll)
  | probe {poll : Poll α} (own : poll.IsFor past id command) (since : Instant) :
      Awaits past id command (.probe poll since)
  | checkLimit {poll : Poll α} (own : poll.IsFor past id command) (since : Instant)
      (limit : Duration) : Awaits past id command (.checkLimit poll since limit)
  | restPoll {poll : Poll α} (own : poll.IsFor past id command) (since : Instant) :
      Awaits past id command (.restPoll poll since)
  | armDelay {description : String} {seconds : α} {duration : Duration}
      (own : command = .delay description seconds duration) :
      Awaits past id command (.armDelay id duration)
  | heedAbort {deadline : Instant} (due : command.IsDue past id deadline) :
      Awaits past id command (.heedAbort id deadline)
  | checkDeadline {deadline : Instant} (due : command.IsDue past id deadline) :
      Awaits past id command (.checkDeadline id deadline)
  | restUntil {deadline : Instant} (due : command.IsDue past id deadline) (limit : Duration) :
      Awaits past id command (.restUntil id deadline limit)

section Mono

variable [Scalar α] {past later : List (Deed α)} {id : Nat} {command : Command α} {value : α}
variable {quantity : Quantity α} {poll : Poll α} {deadline : Instant} {task : Task α}

omit [Scalar α] in
theorem Quantity.IsWorth.mono (worth : quantity.IsWorth past id value) (more : past ⊆ later) :
    quantity.IsWorth later id value := by
  cases quantity with
  | literal => exact worth
  | expression =>
      obtain ⟨purpose, evaluated⟩ := worth
      exact ⟨purpose, more evaluated⟩

theorem Poll.IsFor.id_eq (own : poll.IsFor past id command) : poll.id = id := by
  cases own <;> rfl

theorem Poll.IsFor.mono (own : poll.IsFor past id command) (more : past ⊆ later) :
    poll.IsFor later id command := by
  cases own with
  | set waits worth => exact .set waits (worth.mono more)
  | absolute absolute worth => exact .absolute absolute (worth.mono more)
  | relative relative worth read => exact .relative relative (worth.mono more) (more read)

omit [Scalar α] in
theorem Command.IsDue.mono (due : command.IsDue past id deadline) (more : past ⊆ later) :
    command.IsDue later id deadline := by
  cases command with
  | delay =>
      obtain ⟨now, told, same⟩ := due
      exact ⟨now, more told, same⟩
  | _ => cases due

theorem Command.IsFulfilled.mono (fulfilled : command.IsFulfilled past id) (more : past ⊆ later) :
    command.IsFulfilled later id := by
  cases fulfilled with
  | observed own read satisfied => exact .observed (own.mono more) (more read) satisfied
  | elapsed due told passed => exact .elapsed (due.mono more) (more told) passed

theorem Task.Awaits.mono (awaits : task.Awaits past id command) (more : past ⊆ later) :
    task.Awaits later id command := by
  cases awaits with
  | armPoll own => exact .armPoll (own.mono more)
  | probe own since => exact .probe (own.mono more) since
  | checkLimit own since limit => exact .checkLimit (own.mono more) since limit
  | restPoll own since => exact .restPoll (own.mono more) since
  | armDelay own => exact .armDelay own
  | heedAbort due => exact .heedAbort (due.mono more)
  | checkDeadline due => exact .checkDeadline (due.mono more)
  | restUntil due limit => exact .restUntil (due.mono more) limit

theorem Task.Awaits.isErrand (awaits : task.Awaits past id command) : task.isErrand = true := by
  cases awaits <;> rfl

end Mono

/-! ## How far a waiting step is -/

/-- How far a step is with its wait. -/
inductive WaitPhase where
  | ahead
  | waiting
  | past
  deriving DecidableEq, Repr

/-- What decides whether a wait is cut short: its latch, those of the waits before, and whether a
request to skip is held for the next one. -/
def Monitor.slot (monitor : Monitor) : Option Nat × Array Bool × Bool :=
  (monitor.installed, monitor.latches, monitor.skipPending)

/-- Whether a monitor has a latch as it should have in a phase. -/
def WaitPhase.Fits (monitor : Monitor) : WaitPhase → Prop
  | .ahead => monitor.installed = none
  | .waiting => ∃ latch, monitor.installed = some latch ∧ latch < monitor.latches.size
  | .past => True

/-- The phase after a task. -/
def Task.phaseAfter (phase : WaitPhase) : Task α → WaitPhase
  | .installLatch _ => .waiting
  | .removeLatch _ => .past
  | _ => phase

namespace Worker

/-- What a step that waits has in front of it before its end, and how far it is with its wait. Once
its wait is over, what it waits for has come, or else the wait was cut short. -/
inductive Body [Scalar α] (past : List (Deed α)) (id : Nat) (command : Command α) (cut : Prop) :
    WaitPhase → List (Task α) → Prop where
  | assigning {description : String} {assignment : Assignment α}
      (own : command = .set description assignment) (waits : assignment.completion.wait = true) :
      Body past id command cut .ahead [.resolve id assignment.value (.assign assignment)]
  | comparing {description : String} {condition : Condition α}
      (own : command = .wait description condition) :
      Body past id command cut .ahead [.resolve id condition.value (.await condition)]
  | measuring {description : String} {condition : Condition α} {desired : α}
      (own : command = .wait description condition)
      (relative : condition.comparison.isRelative = true)
      (worth : condition.value.IsWorth past id desired) :
      Body past id command cut .ahead [.baseline id condition desired]
  | writing {poll : Poll α} (own : poll.IsFor past id command) (channel : String) (value : α) :
      Body past id command cut .ahead (.write channel value :: pollTasks poll)
  | beginning {task : Task α} (awaits : task.Awaits past id command) :
      Body past id command cut .ahead
        [.installLatch id, .stampStart id, task, .clearStart id, .removeLatch id]
  | noting {task : Task α} (awaits : task.Awaits past id command) :
      Body past id command cut .waiting [.stampStart id, task, .clearStart id, .removeLatch id]
  | waiting {task : Task α} (awaits : task.Awaits past id command) :
      Body past id command cut .waiting [task, .clearStart id, .removeLatch id]
  | pausing {poll : Poll α} (own : poll.IsFor past id command) (since : Instant) :
      Body past id command cut .waiting
        [.safePoint, .probe poll since, .clearStart id, .removeLatch id]
  | done (ended : command.IsFulfilled past id ∨ cut) :
      Body past id command cut .waiting [.clearStart id, .removeLatch id]
  | noted (ended : command.IsFulfilled past id ∨ cut) :
      Body past id command cut .waiting [.removeLatch id]
  | through (ended : command.IsFulfilled past id ∨ cut) :
      Body past id command cut .past []

variable [Scalar α] {past later : List (Deed α)} {id : Nat} {command : Command α} {cut cut' : Prop}
variable {phase : WaitPhase} {tasks : List (Task α)} {poll : Poll α}

/-- A step that waits begins with finding out what it waits for. -/
theorem Body.of_isSkippable (waits : command.isSkippable = true) :
    Body past id command cut .ahead (commandTasks id command) := by
  cases command with
  | delay => exact .beginning (.armDelay rfl)
  | set _ assignment => exact .assigning rfl waits
  | wait => exact .comparing rfl
  | loop | comment | group => cases waits

/-- Once a value is known it is written, or waited for. -/
theorem Body.of_pollTasks (own : poll.IsFor past id command) :
    Body past id command cut .ahead (pollTasks poll) := by
  have awaits : (Task.armPoll poll).Awaits past id command := .armPoll own
  rw [pollTasks, own.id_eq]
  exact .beginning awaits

theorem Body.mono (body : Body past id command cut phase tasks) (more : past ⊆ later)
    (wider : cut → cut') : Body later id command cut' phase tasks := by
  have ends : command.IsFulfilled past id ∨ cut → command.IsFulfilled later id ∨ cut' :=
    Or.imp (·.mono more) wider
  cases body with
  | assigning own waits => exact .assigning own waits
  | comparing own => exact .comparing own
  | measuring own relative worth => exact .measuring own relative (worth.mono more)
  | writing own channel value => exact .writing (own.mono more) channel value
  | beginning awaits => exact .beginning (awaits.mono more)
  | noting awaits => exact .noting (awaits.mono more)
  | waiting awaits => exact .waiting (awaits.mono more)
  | pausing own since => exact .pausing (own.mono more) since
  | done ended => exact .done (ends ended)
  | noted ended => exact .noted (ends ended)
  | through ended => exact .through (ends ended)

section Steps

variable {board after : Board} {worker : Worker α} {task : Task α} {reply : Option (Reply α)}
variable {rest more : List (Task α)}

/-- What a step does while it waits leads to more of that, unless the wait is over. -/
theorem Body.of_awaits (awaits : task.Awaits past id command)
    (spawns : task.Spawns board worker reply after more)
    (cuts : (board.monitor id).isCutShort = true → cut) :
    Body (past ++ [⟨task, reply⟩]) id command cut .waiting
      (more ++ [.clearStart id, .removeLatch id]) := by
  have new : ⟨task, reply⟩ ∈ past ++ [⟨task, reply⟩] := by simp
  have old : past ⊆ past ++ [⟨task, reply⟩] := List.subset_append_left _ _
  cases awaits with
  | armPoll own =>
      cases spawns with
      | armPoll => exact .pausing (own.mono old) _
  | probe own since =>
      cases spawns with
      | satisfied _ _ value holds => exact .done (.inl (.observed (own.mono old) new holds))
      | limited => exact .waiting (.checkLimit (own.mono old) _ _)
      | unlimited => exact .waiting (.restPoll (own.mono old) _)
  | checkLimit own since limit =>
      cases spawns with
      | withinLimit => exact .waiting (.restPoll (own.mono old) _)
  | restPoll own since =>
      cases spawns with
      | pollCut _ _ short => exact .done (.inr (cuts (own.id_eq ▸ short)))
      | pollGoesOn => exact .pausing (own.mono old) _
  | armDelay own =>
      subst own
      cases spawns with
      | armDelay _ duration now => exact .waiting (.heedAbort ⟨now, new, rfl⟩)
  | heedAbort due =>
      cases spawns with
      | heedAbort => exact .waiting (.checkDeadline (due.mono old))
  | checkDeadline due =>
      cases spawns with
      | deadlinePassed _ _ now passed => exact .done (.inl (.elapsed (due.mono old) new passed))
      | deadlineAhead => exact .waiting (.restUntil (due.mono old) _)
  | restUntil due limit =>
      cases spawns with
      | delayCut _ _ _ short => exact .done (.inr (cuts short))
      | delayGoesOn => exact .waiting (.heedAbort (due.mono old))

/-- Getting a value leaves the board as it is. -/
theorem board_of_resolve {quantity : Quantity α} {purpose : Purpose α}
    (spawns : (Task.resolve id quantity purpose).Spawns board worker reply after more) :
    after = board := by
  cases spawns <;> rfl

/-- Once a value is known it is waited for, or it is written and then waited for. -/
theorem Body.of_quantity {quantity : Quantity α} {value : α} {purpose : Purpose α}
    (body : Body past id command cut phase [.resolve id quantity purpose])
    (worth : quantity.IsWorth past id value) :
    Body past id command cut phase (purposeTasks id value purpose) := by
  cases body with
  | assigning own waits =>
      subst own
      rw [purposeTasks, writeTasks, if_pos waits]
      exact .writing (.set waits worth) _ _
  | @comparing _ condition own =>
      subst own
      rw [purposeTasks]
      split
      · rename_i relative
        exact .measuring rfl relative worth
      · rename_i absolute
        exact .of_pollTasks (.absolute (Bool.eq_false_iff.mpr absolute) worth)

/-- A step that waits gets the value of its quantity. -/
theorem Body.of_resolve {quantity : Quantity α} {purpose : Purpose α}
    (body : Body past id command cut phase [.resolve id quantity purpose])
    (spawns : (Task.resolve id quantity purpose).Spawns board worker reply after more) :
    Body (past ++ [⟨.resolve id quantity purpose, reply⟩]) id command cut phase more := by
  have later := body.mono (List.subset_append_left past [⟨.resolve id quantity purpose, reply⟩])
    (fun short => short)
  cases spawns with
  | literal => exact later.of_quantity rfl
  | evaluated => exact later.of_quantity ⟨purpose, by simp⟩

/-- A step that waits goes on to its end, and its wait with it. -/
theorem Body.of_spawns (body : Body past id command cut phase (task :: rest))
    (spawns : task.Spawns board worker reply after more)
    (cuts : (board.monitor id).isCutShort = true → cut) :
    Body (past ++ [⟨task, reply⟩]) id command cut (task.phaseAfter phase) (more ++ rest) := by
  have new : ⟨task, reply⟩ ∈ past ++ [⟨task, reply⟩] := by simp
  have old : past ⊆ past ++ [⟨task, reply⟩] := List.subset_append_left _ _
  have whole := body
  generalize shape : task :: rest = tasks at body
  cases body with
  | assigning | comparing =>
      obtain ⟨rfl, rfl⟩ := List.cons.inj shape
      rw [List.append_nil]
      exact whole.of_resolve spawns
  | measuring own relative worth =>
      obtain ⟨rfl, rfl⟩ := List.cons.inj shape
      subst own
      cases spawns with
      | baseline =>
          rw [List.append_nil]
          exact .of_pollTasks (.relative relative (worth.mono old) new)
  | writing own channel value =>
      obtain ⟨rfl, rfl⟩ := List.cons.inj shape
      cases spawns with
      | write => exact .of_pollTasks (own.mono old)
  | beginning awaits =>
      obtain ⟨rfl, rfl⟩ := List.cons.inj shape
      cases spawns with
      | installLatch => exact .noting (awaits.mono old)
  | noting awaits =>
      obtain ⟨rfl, rfl⟩ := List.cons.inj shape
      cases spawns with
      | stampStart => exact .waiting (awaits.mono old)
  | waiting awaits =>
      obtain ⟨rfl, rfl⟩ := List.cons.inj shape
      have goesOn := Body.of_awaits awaits spawns cuts
      cases awaits <;> exact goesOn
  | pausing own since =>
      obtain ⟨rfl, rfl⟩ := List.cons.inj shape
      cases spawns with
      | safePoint => exact .waiting (.probe (own.mono old) since)
  | done ended =>
      obtain ⟨rfl, rfl⟩ := List.cons.inj shape
      cases spawns with
      | clearStart => exact .noted (ended.imp_left (·.mono old))
  | noted ended =>
      obtain ⟨rfl, rfl⟩ := List.cons.inj shape
      cases spawns with
      | removeLatch => exact .through (ended.imp_left (·.mono old))
  | through => cases shape

/-- What a step that waits does to its latch: it installs it before its wait and removes it behind,
and leaves it alone in between. -/
theorem Body.slot_of_spawns (body : Body past id command cut phase (task :: rest))
    (spawns : task.Spawns board worker reply after more) :
    (phase = .ahead ∧ task = .installLatch id ∧ after = board.update id Monitor.installLatch) ∨
      task.phaseAfter phase = .past ∨
      task.phaseAfter phase = phase ∧ (after.monitor id).slot = (board.monitor id).slot := by
  have kept : ∀ {change : Monitor → Monitor},
      (∀ monitor, (change monitor).slot = Monitor.slot monitor) →
        ((board.update id change).monitor id).slot = (board.monitor id).slot :=
    fun same => board.monitor_update_of id (·.slot = (board.monitor id).slot)
      (fun monitor before => (same monitor).trans before) rfl
  generalize shape : task :: rest = tasks at body
  cases body with
  | assigning | comparing =>
      obtain ⟨rfl, rfl⟩ := List.cons.inj shape
      rw [board_of_resolve spawns]
      exact .inr (.inr ⟨rfl, rfl⟩)
  | measuring | writing | pausing =>
      obtain ⟨rfl, rfl⟩ := List.cons.inj shape
      cases spawns
      exact .inr (.inr ⟨rfl, rfl⟩)
  | beginning =>
      obtain ⟨rfl, rfl⟩ := List.cons.inj shape
      cases spawns with
      | installLatch => exact .inl ⟨rfl, rfl, rfl⟩
  | noting =>
      obtain ⟨rfl, rfl⟩ := List.cons.inj shape
      cases spawns with
      | stampStart => exact .inr (.inr ⟨rfl, kept fun _ => rfl⟩)
  | waiting awaits =>
      obtain ⟨rfl, rfl⟩ := List.cons.inj shape
      refine .inr (.inr ?_)
      cases awaits <;> cases spawns <;> exact ⟨rfl, rfl⟩
  | done =>
      obtain ⟨rfl, rfl⟩ := List.cons.inj shape
      cases spawns with
      | clearStart => exact .inr (.inr ⟨rfl, kept fun _ => rfl⟩)
  | noted =>
      obtain ⟨rfl, rfl⟩ := List.cons.inj shape
      exact .inr (.inl rfl)
  | through => cases shape

/-- The latch of a step that waits goes on to be as it should. -/
theorem Body.fits_of_spawns (body : Body past id command cut phase (task :: rest))
    (spawns : task.Spawns board worker reply after more) (exists_ : id < board.monitors.size)
    (fits : phase.Fits (board.monitor id)) : (task.phaseAfter phase).Fits (after.monitor id) := by
  rcases body.slot_of_spawns spawns with ⟨rfl, rfl, rfl⟩ | through | ⟨same, kept⟩
  · rw [Board.monitor_update_self exists_]
    exact ⟨(board.monitor id).latches.size, rfl, by simp [Monitor.installLatch]⟩
  · rw [through]
    trivial
  · simp only [Monitor.slot, Prod.mk.injEq] at kept
    obtain ⟨installed, latches, -⟩ := kept
    rw [same]
    cases phase with
    | ahead => exact installed.trans fits
    | waiting =>
        obtain ⟨latch, own, inBounds⟩ := fits
        exact ⟨latch, installed.trans own, latches ▸ inBounds⟩
    | past => trivial

/-- A step that waits does all that by itself. -/
theorem Body.isErrand (body : Body past id command cut phase tasks) :
    ∀ task ∈ tasks, task.isErrand = true := by
  intro task member
  cases body with
  | through => cases member
  | writing =>
      rcases List.mem_cons.mp member with rfl | member
      · rfl
      · exact isErrand_of_mem_pollTasks member
  | beginning awaits | noting awaits | waiting awaits =>
      simp only [List.mem_cons, List.not_mem_nil, or_false] at member
      rcases member with rfl | rfl | rfl | rfl | rfl <;> first | rfl | exact awaits.isErrand
  | _ =>
      simp only [List.mem_cons, List.not_mem_nil, or_false] at member
      rcases member with rfl | rfl | rfl | rfl <;> rfl

/-- Within a step that waits no other one is entered, and none is settled. -/
theorem Body.settles?_eq_none (body : Body past id command cut phase tasks) :
    ∀ task ∈ tasks, task.settles? = none :=
  fun task member => Task.settles?_of_isBody (Task.isBody_of_isErrand (body.isErrand task member))

end Steps

/-! ## Waiting steps in front of a worker -/

/-- Whether every step that waits, and that a worker is going to settle, is on its way to the end of
its wait: `cut` says of which step the wait may have been cut short. -/
def IsAttended (past : List (Deed α)) (cut : Nat → Prop) (board : Board) (agenda : List (Task α)) :
    Prop :=
  ∀ front id command rest, agenda = front ++ .settle id command :: rest →
    command.isSkippable = true →
      ∃ phase, Body past id command (cut id) phase front ∧ phase.Fits (board.monitor id)

section Attending

variable {board after : Board} {worker : Worker α} {task : Task α} {reply : Option (Reply α)}
variable {rest more agenda : List (Task α)} {cuts cuts' : Nat → Prop}

/-- Only a task that enters a step leads to one that settles it. -/
theorem ne_settle_of_spawns (apart : ∀ id command, task ≠ .enter id command)
    (spawns : task.Spawns board worker reply after more) (id : Nat) (command : Command α) :
    .settle id command ∉ more := by
  intro member
  cases errand : task.isErrand
  case true => cases Task.isErrand_of_spawns errand spawns _ member
  cases spawns with
  | enter other nested => exact apart other nested rfl
  | nest => cases isBody_of_mem_nestedTasks member
  | round => cases isBody_of_mem_iterationTasks member
  | steps step remaining => cases remaining <;> simp [stepTasks] at member
  | _ => first
    | exact absurd errand.symm Bool.false_ne_true
    | simp at member

theorem IsAttended.of_spares (attended : IsAttended past cuts board agenda)
    (spares : board.Spares after) (wider : ∀ id, cuts id → cuts' id) :
    IsAttended past cuts' after agenda := by
  intro front id command rest split waits
  obtain ⟨phase, body, fits⟩ := attended front id command rest split waits
  refine ⟨phase, body.mono (List.Subset.refl _) (wider id), ?_⟩
  cases phase with
  | ahead => exact (spares.installed id).trans fits
  | waiting =>
      obtain ⟨latch, own, inBounds⟩ := fits
      exact ⟨latch, (spares.installed id).trans own, (spares.size_latches id).symm ▸ inBounds⟩
  | past => trivial

omit [Scalar α] in
/-- An element of two lists, one behind the other, is in the second or in the first. -/
theorem split_of_append {first second before behind : List (Task α)} {task : Task α}
    (split : first ++ second = before ++ task :: behind) :
    (∃ inner, before = first ++ inner ∧ second = inner ++ task :: behind) ∨
      ∃ inner, first = before ++ task :: inner ∧ behind = inner ++ second := by
  rcases List.append_eq_append_iff.mp split with own | ⟨inner, rfl, same⟩
  · exact .inl own
  · cases inner with
    | nil => exact .inl ⟨[], by simp, same.symm⟩
    | cons first inner =>
        obtain ⟨rfl, rfl⟩ := List.cons.inj same
        exact .inr ⟨inner, rfl, rfl⟩

omit [Scalar α] in
/-- A step that is settled behind tasks that settle none is settled by those behind them. -/
theorem exists_of_append_eq_settle {others : List (Task α)} {front behind : List (Task α)}
    (none : ∀ id command, .settle id command ∉ more)
    (split : more ++ others = front ++ .settle id command :: behind) :
    ∃ inner, front = more ++ inner ∧ others = inner ++ .settle id command :: behind := by
  rcases split_of_append split with own | ⟨inner, rfl, -⟩
  · exact own
  · exact absurd (List.mem_append_right _ List.mem_cons_self) (none id command)

omit [Scalar α] in
theorem ne_settle_of_mem_commandTasks {other : Nat} {nested : Command α} (id : Nat)
    (command : Command α) : .settle id command ∉ commandTasks other nested := by
  intro member
  cases isBody_of_mem_commandTasks member

/-- A step that is entered is on its way, if it waits, and so are those around it. -/
theorem IsAttended.of_enter {nested : Command α}
    (attended : IsAttended past cuts board (.enter id nested :: rest))
    (bare : (board.monitor id).installed = none) :
    IsAttended past cuts (board.enter id)
      (commandTasks id nested ++ [.settle id nested, .leave] ++ rest) := by
  intro front other command behind whole waits
  rw [List.append_assoc] at whole
  obtain ⟨inner, rfl, split⟩ := exists_of_append_eq_settle ne_settle_of_mem_commandTasks whole
  cases inner with
  | nil =>
      obtain ⟨same, -⟩ := List.cons.inj split
      cases same
      rw [List.append_nil]
      exact ⟨.ahead, .of_isSkippable waits, bare⟩
  | cons first inner =>
      obtain ⟨-, split⟩ := List.cons.inj split
      cases inner with
      | nil => cases split
      | cons second inner =>
          obtain ⟨-, rfl⟩ := List.cons.inj split
          -- no step that waits leads to another one
          obtain ⟨phase, body, -⟩ :=
            attended (.enter id nested :: inner) other command behind rfl waits
          cases body.settles?_eq_none _ List.mem_cons_self

/-- Steps that wait go on to their end, whatever task succeeds. -/
theorem IsAttended.of_spawns (attended : IsAttended past cuts board (task :: rest))
    (spawns : task.Spawns board worker reply after more)
    (short : ∀ id, (board.monitor id).isCutShort = true → cuts id)
    (bare : ∀ id command, task = .enter id command → (board.monitor id).installed = none)
    (exist : ∀ id command, .settle id command ∈ rest → id < board.monitors.size) :
    IsAttended (past ++ [⟨task, reply⟩]) cuts after (more ++ rest) := by
  by_cases enters : ∃ id command, task = .enter id command
  · obtain ⟨id, command, rfl⟩ := enters
    cases spawns with
    | enter =>
        have later := attended.of_enter (bare id command rfl)
        intro front other nested behind split waits
        obtain ⟨phase, body, fits⟩ := later front other nested behind split waits
        exact ⟨phase, body.mono (List.subset_append_left _ _) (fun cut => cut), fits⟩
  · intro front id command behind split waits
    have apart := ne_settle_of_spawns (fun id command same => enters ⟨id, command, same⟩) spawns
    obtain ⟨inner, rfl, rfl⟩ := exists_of_append_eq_settle apart split
    obtain ⟨phase, body, fits⟩ := attended (task :: inner) id command behind rfl waits
    exact ⟨_, body.of_spawns spawns (short id),
      body.fits_of_spawns spawns (exist id command (by simp)) fits⟩

/-- A step that waits is settled without an error only if what it waits for has come, or else its
wait was cut short. -/
theorem IsAttended.of_settle (attended : IsAttended past cuts board (.settle id command :: rest))
    (waits : command.isSkippable = true) : command.IsFulfilled past id ∨ cuts id := by
  obtain ⟨phase, body, -⟩ := attended [] id command rest rfl waits
  cases body with
  | through ended => exact ended

end Attending

end Worker

end Scan
