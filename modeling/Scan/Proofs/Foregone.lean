import Scan.Proofs.DryRuns
import Scan.Proofs.Polling
import Scan.Proofs.Seconds

/-!
# Waits that are over before they begin

A dry run takes a wait to be free if the channel satisfies the condition where it is believed to
stand. In a run this is so just if the first reading ends the wait, as long as the threshold does
not depend on where the channel stands. A wait for a change is never free in a dry run, although its
first reading ends it if the change that it waits for is none.
-/

namespace Scan

/-! ## Limits -/

/-- Whether a limit is one that can be given: not nothing, and not longer than time is counted. -/
def Duration.IsLimit (limit : Duration) : Prop :=
  0 < limit.nanoseconds ∧ limit.nanoseconds / second ≤ maxSeconds

variable {α : Type} [Scalar α]

theorem Duration.bounded_of_ofSeconds? {seconds : α} {duration : Duration}
    (counted : ofSeconds? seconds = some duration) :
    duration.nanoseconds / second ≤ maxSeconds := by
  unfold ofSeconds? at counted
  split at counted
  · cases counted
  · split at counted
    · cases counted
    · simp only at counted
      split at counted
      · rename_i bounded
        cases counted
        exact bounded
      · cases counted

theorem Descriptor.isLimit_of_timeout? {descriptor : Descriptor} {name : String} {limit : Duration}
    (read : descriptor.timeout? α name = .ok (some limit)) : limit.IsLimit := by
  simp only [timeout?, bind_eq_ok] at read
  obtain ⟨duration, counted, made⟩ := read
  simp only [Descriptor.duration, bind_eq_ok] at counted
  obtain ⟨seconds, -, counted⟩ := counted
  split at counted
  · rename_i own
    cases counted
    have bounded := Duration.bounded_of_ofSeconds? own
    split at made <;> cases made
    rename_i positive
    exact ⟨Nat.pos_of_ne_zero (by simpa using positive), bounded⟩
  · cases counted

/-- A wait is compiled as one. -/
theorem Command.waitOf_of_compile {descriptor : Descriptor} {description : String}
    {condition : Condition α} (compiled : compile descriptor = .ok (.wait description condition)) :
    waitOf descriptor = .ok (.wait description condition) := by
  rcases compile_eq_ok compiled with ⟨noLoop, noGroup, -⟩ | ⟨-, _, _, -, -, made⟩ | ⟨-, _, -, made⟩
  · rcases compile_leaf_eq_ok noLoop noGroup compiled with read | read | read | read
    · simp only [delayOf, bind_eq_ok, pure, Except.pure] at read
      obtain ⟨_, _, _, _, seconds, _, read⟩ := read
      split at read
      · cases read
      · obtain ⟨_, _, made⟩ := bind_eq_ok.mp read
        cases made
    · simp only [setOf, bind_eq_ok, pure, Except.pure] at read
      obtain ⟨_, _, _, _, _, _, _, _, _, _, made⟩ := read
      cases made
    · exact read
    · simp only [commentOf, bind_eq_ok, pure, Except.pure] at read
      obtain ⟨_, _, _, _, _, _, made⟩ := read
      cases made
  · simp only [loopOf] at made
    split at made <;> cases made
  · unfold groupOf at made
    split at made <;> cases made

/-- The limit of a wait that is compiled can be given. -/
theorem Command.isLimit_of_compile {descriptor : Descriptor} {description : String}
    {condition : Condition α} {limit : Duration}
    (compiled : compile descriptor = .ok (.wait description condition))
    (bounded : condition.timeout = some limit) : limit.IsLimit := by
  have read := waitOf_of_compile compiled
  simp only [waitOf, bind_eq_ok, pure, Except.pure] at read
  obtain ⟨_, _, _, _, _, _, _, _, _, _, _, _, timeout, read, made⟩ := read
  cases made
  change timeout = some limit at bounded
  exact Descriptor.isLimit_of_timeout? (bounded ▸ read)

/-! ## Waits in a dry run -/

/-- Whether an entry of a dry run says that a step costs nothing, and says so without a note. -/
def SimulationStep.IsFree (entry : SimulationStep α) (description : String) : Prop :=
  entry.label = description ∧ Scalar.same entry.seconds Scalar.zero = true

/-- A wait is free in a dry run just if it is met where the channel is believed to stand. -/
theorem Condition.isFree_iff {condition : Condition α} {before : Estimate α} {desired : α}
    {description : String} (nothing : Scalar.same (Scalar.zero : α) Scalar.zero = true)
    (limited : ∀ limit, condition.timeout = some limit →
      Scalar.same (limit.seconds : α) Scalar.zero = false) :
    SimulationStep.IsFree ⟨if condition.isUnbounded before desired then
        description ++ " - unbounded" else description, condition.cost before desired⟩ description ↔
      condition.isMet before desired = true := by
  rw [SimulationStep.IsFree, isUnbounded, cost]
  cases condition.isMet before desired with
  | true => simpa using nothing
  | false =>
      cases timeout : condition.timeout with
      | none => simp
      | some limit => simp [limited limit timeout]

/-- A limit that can be given costs something. -/
theorem Duration.IsLimit.same_seconds_zero {limit : Duration} (given : limit.IsLimit) :
    Scalar.same (limit.seconds : Float) Scalar.zero = false := by
  simp [Scalar.same, Duration.le_zero_seconds given.1 given.2]

/-- The dry run of a wait for a given value adds one entry. -/
theorem Command.simulate_wait {condition : Condition α} {description : String} {desired : α}
    (literal : condition.value = .literal desired) (evaluate : String → Except EvalError α)
    (number : Nat) (before : Estimate α) :
    ((Command.wait description condition).simulate (.quiet evaluate) number).run.run before =
      (.ok (), condition.estimateWait description desired before) := by
  rw [simulate, literal]
  rfl

/-! ## The first poll of a wait -/

/-- A poll is over with success at a reading just if this satisfies it. -/
theorem Poll.Course.isOver_iff {poll : Poll α} {since : Instant} {cut : Prop}
    {during : List (Deed α)} {tasks : List (Task α)} {failure : Option ScanError} {value : α}
    (course : poll.Course since cut
      (during ++ [⟨.probe poll since, some (.found (.ok value))⟩]) tasks failure) :
    tasks = [] ∧ failure = none ↔ poll.isSatisfied value = true := by
  have last : value ∈ readingsOf (during ++ [⟨.probe poll since, some (.found (.ok value))⟩]) := by
    simp [Deed.reading?]
  generalize whole : during ++ [⟨.probe poll since, some (.found (.ok value))⟩] = deeds at *
  cases course with
  | pausing unmet | probing unmet | checking unmet | resting unmet => simp [unmet value last]
  | satisfied _ holds =>
      obtain ⟨-, same⟩ := List.append_inj' whole rfl
      cases List.singleton_inj.mp same
      simp [holds]
  | cutShort | timedOut | interrupted | broken =>
      obtain ⟨-, same⟩ := List.append_inj' whole rfl
      cases List.singleton_inj.mp same

namespace Worker

/-- Whether the wait of a step is over with success: what comes next is to take its note back. -/
def HasWaited (worker : Worker α) (id : Nat) : Prop :=
  worker.failure = none ∧ worker.agenda.head? = some (.clearStart id)

/-- A task of a single step that waits. -/
def IsOfWait (id : Nat) (command : Command α) (task : Task α) : Prop :=
  task.isErrand = true ∨ task = .start id command ∨ task = .enter id command ∨
    task = .settle id command ∨ task = .countUnit id (.leaf command) ∨
    (∃ performed, task = .announceWork performed) ∨ task = .leave

theorem isOfWait_of_spawns {id : Nat} {description : String} {condition : Condition α}
    {board after : Board} {worker : Worker α} {task : Task α} {reply : Option (Reply α)}
    {more : List (Task α)} (own : IsOfWait id (.wait description condition) task)
    (spawns : task.Spawns board worker reply after more) :
    ∀ next ∈ more, IsOfWait id (.wait description condition) next := by
  intro next member
  rcases own with errand | rfl | rfl | rfl | rfl | ⟨performed, rfl⟩ | rfl
  · exact .inl (Task.isErrand_of_spawns errand spawns next member)
  · cases spawns
    simp [IsOfWait, List.mem_singleton.mp member]
  · cases spawns
    simp only [commandTasks, List.mem_append, List.mem_cons, List.not_mem_nil, or_false] at member
    rcases member with rfl | rfl | rfl <;> simp [IsOfWait, Task.isErrand]
  · cases spawns with
    | settle => cases member
    | settleLeaf => simp [IsOfWait, List.mem_singleton.mp member]
  · cases spawns
    simp [IsOfWait, List.mem_singleton.mp member]
  all_goals
    cases spawns
    cases member

end Worker

section Lives

variable {others : Board → Board → Prop} {board now : Board} {worker : Worker α} {id : Nat}
variable {pollInterval : Duration} {description : String} {condition : Condition α}
variable {past during : List (Deed α)} {poll : Poll α} {since : Instant} {desired value : α}

/-- The deeds of the first poll of a wait: it is armed, comes to a safe point, and takes a
reading. -/
def firstPoll (poll : Poll α) (since : Instant) (value : α) : List (Deed α) :=
  [⟨.armPoll poll, some (.told since)⟩, ⟨.safePoint, none⟩,
    ⟨.probe poll since, some (.found (.ok value))⟩]

/-- The first poll of a wait ends it with success just if its reading is past the threshold that is
reckoned from this very reading. -/
theorem Life.hasWaited_iff
    (life : Life others board (.ofCommand id (.wait description condition) pollInterval)
      (past ++ firstPoll poll since value) now worker)
    (literal : condition.value = .literal desired)
    (reads : ∀ deed ∈ past, ∀ answer, deed.reply = some (.found answer) → answer = .ok value) :
    worker.HasWaited id ↔ condition.comparison.holds value
      (condition.comparison.threshold desired value) condition.tolerance = true := by
  have steady : (Worker.ofCommand id (.wait description condition) pollInterval).IsSteady := nofun
  have polls := life.polls steady (.of_silent (by simp [Worker.ofCommand, Task.IsOwned])
    (by simp [Worker.ofCommand]))
  have start : ∀ task ∈ (Worker.ofCommand id (.wait description condition) pollInterval).agenda,
      Worker.IsOfWait id (.wait description condition) task := by
    simp [Worker.ofCommand, Worker.IsOfWait]
  have own := (life.forall_task steady Worker.isOfWait_of_spawns start).1
  have split : past ++ firstPoll poll since value = past ++ ⟨.armPoll poll, some (.told since)⟩ ::
      ([⟨.safePoint, none⟩] ++ [⟨.probe poll since, some (.found (.ok value))⟩]) := rfl
  -- the poll is made for the wait itself
  obtain ⟨command, started, made, -⟩ := (polls.led split).made
  have same : poll.id = id ∧ command = .wait description condition := by
    simpa [Worker.IsOfWait, Task.isErrand] using own _ (List.mem_append_left _ started)
  obtain ⟨named, rfl⟩ := same
  have threshold : poll.isSatisfied value = condition.comparison.holds value
      (condition.comparison.threshold desired value) condition.tolerance := by
    rw [named] at made
    cases made with
    | step own =>
        cases own with
        | absolute absolute worth =>
            rw [literal] at worth
            cases worth
            cases comparison : condition.comparison <;>
              simp_all [Poll.isSatisfied, Comparison.threshold, Comparison.isRelative]
        | relative _ worth read =>
            rw [literal] at worth
            cases worth
            cases reads _ read _ rfl
            rfl
  obtain ⟨tasks, behind, course, agenda⟩ := polls.course split (by simp)
  rw [← threshold, ← course.isOver_iff, Worker.HasWaited, ← named, agenda, and_comm]
  refine and_congr_left fun sound => ⟨fun ends => course.eq_nil_of_head ends, ?_⟩
  rintro rfl
  rfl

/-- A reading that succeeds leads on, whatever it is. -/
theorem Task.exists_spawns_of_reading (board : Board) (worker : Worker α) (poll : Poll α)
    (since : Instant) (value : α) :
    ∃ more, (Task.probe poll since).Spawns board worker (some (.found (.ok value))) board more := by
  cases holds : poll.isSatisfied value with
  | true => exact ⟨_, .satisfied poll since value holds⟩
  | false =>
      cases limit : poll.limit with
      | none => exact ⟨_, .unlimited poll since value holds limit⟩
      | some duration => exact ⟨_, .limited poll since value duration holds limit⟩

/-- A wait that nobody holds up comes from its beginning to its first poll. -/
theorem Life.exists_firstPoll_of_pollTasks {origin : Worker α} {rest : List (Task α)}
    (life : Life others board origin past now worker) (sound : worker.failure = none)
    (agenda : worker.agenda = Worker.pollTasks poll ++ rest) (running : now.control.paused = false)
    (free : now.control.aborted = false) (value : α) :
    ∃ after next, Life others board origin
      (past ++ [⟨.installLatch poll.id, none⟩, ⟨.stampStart poll.id, some (.told 0)⟩] ++
        firstPoll poll 0 value) after next := by
  obtain ⟨_, life, sound, agenda⟩ := life.exists_spawn sound agenda (.installLatch poll.id)
  obtain ⟨_, life, sound, agenda⟩ := life.exists_spawn sound agenda (.stampStart poll.id 0)
  obtain ⟨_, life, sound, agenda⟩ := life.exists_spawn sound agenda (.armPoll poll 0)
  obtain ⟨_, life, sound, agenda⟩ := life.exists_spawn sound agenda (.safePoint running free)
  obtain ⟨_, reads⟩ := Task.exists_spawns_of_reading _ _ poll 0 value
  obtain ⟨_, life, -, -⟩ := life.exists_spawn sound agenda reads
  exact ⟨_, _, by simpa [firstPoll] using life⟩

/-- A wait that nobody holds up comes to its first poll. -/
theorem Life.exists_firstPoll (literal : condition.value = .literal desired)
    (fresh : (board.monitor id).status.canAdvance .running = true)
    (running : board.control.paused = false) (free : board.control.aborted = false)
    (pollInterval : Duration) (description : String) (value : α) :
    ∃ past poll since now worker,
      Life others board (.ofCommand id (.wait description condition) pollInterval)
        (past ++ firstPoll poll since value) now worker ∧
      ∀ deed ∈ past, ∀ answer, deed.reply = some (.found answer) → answer = .ok value := by
  have born : Life others board (.ofCommand id (.wait description condition) pollInterval) [] board
      (.ofCommand id (.wait description condition) pollInterval) := .begin
  obtain ⟨_, life, sound, agenda⟩ := born.exists_spawn rfl rfl (.start id _ fresh)
  obtain ⟨_, life, sound, agenda⟩ := life.exists_spawn sound agenda (.enter id _)
  rw [Worker.commandTasks, literal] at agenda
  obtain ⟨_, life, sound, agenda⟩ :=
    life.exists_spawn sound agenda (.literal id desired (.await condition))
  rw [Worker.purposeTasks] at agenda
  cases relative : condition.comparison.isRelative with
  | true =>
      rw [relative, if_pos rfl] at agenda
      obtain ⟨_, life, sound, agenda⟩ :=
        life.exists_spawn sound agenda (.baseline id condition desired value)
      obtain ⟨_, _, life⟩ := life.exists_firstPoll_of_pollTasks sound agenda running free value
      exact ⟨_, _, _, _, _, life, by simp⟩
  | false =>
      rw [relative, if_neg Bool.false_ne_true] at agenda
      obtain ⟨_, _, life⟩ := life.exists_firstPoll_of_pollTasks sound agenda running free value
      exact ⟨_, _, _, _, _, life, by simp⟩

end Lives

/-! ## Dry runs and first polls -/

/-- What a dry run and a run make of a wait for a given value, on a channel that is known to stand
where all readings find it.

The wait is without a limit or has one that can be given, as every wait that is compiled. Its dry
run adds one entry to the trace. It is free, and without a note, just if the threshold does not
depend on where the channel stands and a run of this wait is over with success after its first
poll, whatever happens around it. A wait for a change is never free in the dry run; in a run its
first poll ends it with success just if the channel is already past the threshold that is
reckoned from where it stands. A run that nobody holds up comes to the first poll. -/
theorem free_waits_end_at_first_poll {description : String} {condition : Condition Float}
    {desired value : Float} {before : Estimate Float}
    (limited : ∀ limit, condition.timeout = some limit → limit.IsLimit)
    (literal : condition.value = .literal desired)
    (known : before.values.get? condition.channel = some value)
    (evaluate : String → Except EvalError Float) (number : Nat) :
    ∃ entry after,
      ((Command.wait description condition).simulate (.quiet evaluate) number).run.run before =
          (.ok (), after) ∧
        after.steps = before.steps.push entry ∧
        (∀ {others board id pollInterval past poll since now worker},
          Life others board (.ofCommand id (.wait description condition) pollInterval)
              (past ++ firstPoll poll since value) now worker →
            (∀ deed ∈ past, ∀ answer, deed.reply = some (.found answer) → answer = .ok value) →
              (entry.IsFree description ↔
                condition.comparison.isRelative = false ∧ worker.HasWaited id) ∧
              (worker.HasWaited id ↔ condition.comparison.holds value
                (condition.comparison.threshold desired value) condition.tolerance = true)) ∧
        ∀ {others board id pollInterval}, (board.monitor id).status.canAdvance .running = true →
          board.control.paused = false → board.control.aborted = false →
            ∃ past poll since now worker,
              Life others board (.ofCommand id (.wait description condition) pollInterval)
                (past ++ firstPoll poll since value) now worker ∧
              ∀ deed ∈ past, ∀ answer, deed.reply = some (.found answer) → answer = .ok value := by
  obtain ⟨values, waited⟩ := condition.estimateWait_eq description desired before
  refine ⟨⟨if condition.isUnbounded before desired then description ++ " - unbounded"
    else description, condition.cost before desired⟩, _,
    Command.simulate_wait literal evaluate number before,
    by rw [waited]; rfl, ?_, fun fresh running free =>
      Life.exists_firstPoll literal fresh running free _ _ value⟩
  intro others board id pollInterval past poll since now worker life reads
  have waits := life.hasWaited_iff literal reads
  refine ⟨?_, waits⟩
  rw [Condition.isFree_iff rfl fun limit bounded => (limited limit bounded).same_seconds_zero,
    waits, Condition.isMet, known, Bool.and_eq_true, Bool.not_eq_true']
  refine and_congr_right fun absolute => ?_
  cases comparison : condition.comparison <;>
    simp_all [Comparison.threshold, Comparison.isRelative]

/-- A wait for a channel to be no lower than where it stands is free, and its first poll ends it. -/
theorem free_wait_for_met_bound :
    let command : Command Float := .wait "rise" ⟨"a", .atLeast, .literal 0, 0, none⟩
    let before : Estimate Float := .start ⟨[("a", ⟨some 1, none⟩)], none⟩
    let board := Board.addCommand {} command
    ∃ entry after past poll since now worker,
      (command.simulate (.quiet fun _ => .ok 0) 0).run.run before = (.ok (), after) ∧
        after.steps = #[entry] ∧ entry.IsFree "rise" ∧
        Life (fun _ _ => True) board (.ofCommand 0 command ⟨2000000⟩)
          (past ++ firstPoll poll since 1) now worker ∧
        worker.HasWaited 0 := by
  intro command before board
  obtain ⟨entry, after, dry, pushed, ends, begins⟩ := @free_waits_end_at_first_poll "rise"
    ⟨"a", .atLeast, .literal 0, 0, none⟩ 0 1 before nofun rfl rfl (fun _ => .ok 0) 0
  obtain ⟨past, poll, since, now, worker, life, reads⟩ :=
    @begins (fun _ _ => True) board 0 ⟨2000000⟩ rfl rfl rfl
  have waited := (ends life reads).2.mpr (by decide +kernel)
  exact ⟨entry, after, past, poll, since, now, worker, dry, pushed,
    (ends life reads).1.mpr ⟨rfl, waited⟩, life, waited⟩

/-- A wait for a channel to rise by nothing is not free, although its first poll ends it. -/
theorem wait_for_no_change_is_not_free :
    let command : Command Float := .wait "rise" ⟨"a", .increaseBy, .literal 0, 0, none⟩
    let before : Estimate Float := .start ⟨[("a", ⟨some 0, none⟩)], none⟩
    let board := Board.addCommand {} command
    (∃ entry after,
      (command.simulate (.quiet fun _ => .ok 0) 0).run.run before = (.ok (), after) ∧
        after.steps = #[entry] ∧ ¬ entry.IsFree "rise") ∧
      ∃ past poll since now worker,
        Life (fun _ _ => True) board (.ofCommand 0 command ⟨2000000⟩)
          (past ++ firstPoll poll since 0) now worker ∧
        (∀ deed ∈ past, ∀ answer, deed.reply = some (.found answer) → answer = .ok 0) ∧
        worker.HasWaited 0 := by
  intro command before board
  refine ⟨⟨⟨"rise - unbounded", 0⟩, _, rfl, rfl, fun free => absurd free.1 (by decide)⟩, ?_⟩
  have begins : (board.monitor 0).status.canAdvance .running = true := rfl
  obtain ⟨past, poll, since, now, worker, life, reads⟩ :=
    @Life.exists_firstPoll Float _ (fun _ _ => True) board 0
      ⟨"a", .increaseBy, .literal 0, 0, none⟩ 0 rfl begins rfl rfl ⟨2000000⟩ "rise" 0
  exact ⟨past, poll, since, now, worker, life, reads,
    (life.hasWaited_iff rfl reads).mpr (by decide +kernel)⟩

end Scan
