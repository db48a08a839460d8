import Scan.Proofs.Subtrees

/-!
# Executing a step on its own

A step whose monitors have just been made is executed with the steps nested in it, whatever the
collaborators answer and whatever requests come in between. What its monitors show in the end says
how it went and where it stopped. Executing it once more is refused at once.
-/

namespace Scan

variable {α : Type}

/-- What changes no status of a step that there is; it may make monitors of other steps. -/
structure Board.KeepsStatus (board after : Board) : Prop where
  size : board.monitors.size ≤ after.monitors.size
  status : ∀ id, id < board.monitors.size →
    (after.monitor id).status = (board.monitor id).status

/-- Control calls, for one, change no status. -/
theorem Board.Foreign.keepsStatus {board after : Board} (foreign : board.Foreign after) :
    board.KeepsStatus after :=
  ⟨Nat.le_of_eq foreign.size.symm, fun id _ => foreign.status id⟩

/-- The monitors that have just been made for a step and the steps nested in it are idle. -/
theorem Board.shows_addCommand (board : Board) (command : Command α) :
    (board.addCommand command).Shows .idle board.monitors.size command.monitorCount := by
  intro id above below
  obtain ⟨_, _, new⟩ := board.isNew_addCommands_of_ge [command] above
    (by simpa [Command.monitorCounts] using below)
  change ((board.addCommands [command]).monitor id).status = .idle
  rw [new]

/-- Whether a worker stopped at the safe point before a step: there it came upon a request to abort,
and since then it has only cleaned up. -/
def Life.StopsBefore [Scalar α] (others : Board → Board → Prop) (board : Board) (worker : Worker α)
    (past : List (Deed α)) (child : Nat) : Prop :=
  ∃ before after halfway broken command behind, past = before ++ ⟨.safePoint, none⟩ :: after ∧
    Life others board worker before halfway broken ∧ broken.failure = none ∧
    broken.agenda = .safePoint :: .start child command :: behind ∧
    halfway.control.aborted = true ∧ ∀ deed ∈ after, deed.task.cleansUp = true

section Lives

variable [Scalar α] {others : Board → Board → Prop} {board now : Board} {worker : Worker α}
variable {command : Command α} {pollInterval : Duration} {past : List (Deed α)} {limit : Nat}

theorem Life.StopsBefore.concat {origin : Worker α} {child : Nat} {task : Task α}
    (stops : Life.StopsBefore others board origin past child) (cleans : task.cleansUp = true)
    (reply : Option (Reply α)) :
    Life.StopsBefore others board origin (past ++ [⟨task, reply⟩]) child := by
  obtain ⟨before, after, halfway, broken, command, behind, rfl, life, sound, agenda, aborted,
    clean⟩ := stops
  refine ⟨before, after ++ [⟨task, reply⟩], halfway, broken, command, behind, by simp, life, sound,
    agenda, aborted, fun deed member => ?_⟩
  rcases List.mem_append.mp member with member | member
  · exact clean deed member
  · cases List.mem_singleton.mp member
    exact cleans

/-- How far an executed step has come at any time. -/
theorem Life.fares
    (life : Life others (board.addCommand command)
      (.ofCommand board.monitors.size command pollInterval) past now worker)
    (keeps : ∀ {now after}, others now after → now.KeepsStatus after)
    (limit_eq : limit = board.monitors.size + command.monitorCount) :
    ∃ halt, Worker.Fares now limit worker.failure halt board.monitors.size command worker.agenda ∧
      limit ≤ now.monitors.size ∧ (worker.failure = none → halt = none) ∧
      ∀ child, halt = some child → Life.StopsBefore others (board.addCommand command)
        (.ofCommand board.monitors.size command pollInterval) past child := by
  have steady : (Worker.ofCommand board.monitors.size command pollInterval).IsSteady :=
    fun failed => by cases failed
  induction life with
  | begin =>
      exact ⟨none, .due rfl (board.shows_addCommand command),
        limit_eq ▸ Nat.le_of_eq (board.size_addCommands [command]).symm, fun _ => rfl,
        fun child halted => by cases halted⟩
  | wait _ other ih =>
      obtain ⟨halt, fares, bound, plain, stops⟩ := ih
      exact ⟨halt, fares.of_same fun id _ below => (keeps other).status id (by omega),
        Nat.le_trans bound (keeps other).size, plain, stops⟩
  | @work past _ _ _ _ task rest reply life agenda stepped ih =>
      obtain ⟨halt, fares, bound, plain, stops⟩ := ih
      cases Worker.outcome_of_step? (life.isSteady steady) agenda stepped with
      | sound sound spawns =>
          have goesOn := (fares.of_spawns spawns bound (Nat.le_of_eq limit_eq.symm) agenda).1
          obtain rfl := plain sound
          exact ⟨none, by simpa [sound] using goesOn,
            Nat.le_trans bound (Task.size_le_of_spawns spawns), fun _ => rfl,
            fun child halted => by cases halted⟩
      | broken sound fails =>
          obtain rfl := plain sound
          rw [sound] at fares
          obtain ⟨halt, goesOn, point⟩ := fares.of_fails fails agenda
          refine ⟨halt, goesOn, bound, (fun none => by cases none), fun child halted => ?_⟩
          obtain ⟨rfl, command, behind, rfl⟩ := point child halted
          cases fails with
          | safePoint aborted =>
              exact ⟨past, [], _, _, command, behind, rfl, life, sound, agenda, aborted,
                List.forall_mem_nil _⟩
      | cleaning failed cleans spawns =>
          have goesOn := (fares.of_spawns spawns bound (Nat.le_of_eq limit_eq.symm) agenda).1
          rw [Worker.tidied, if_pos failed] at goesOn
          exact ⟨halt, by simpa using goesOn, Nat.le_trans bound (Task.size_le_of_spawns spawns),
            (fun none => by simp at none; simp [none] at failed),
            fun child halted => (stops child halted).concat cleans reply⟩

/-- A step that has been used is refused: executing it is over at once, calls nobody and leaves
everything as it is. -/
theorem Worker.step?_of_used {id : Nat} (used : (board.monitor id).status ≠ .idle) :
    ∃ text refused, refused.agenda = [] ∧ refused.failure = some (.busy text) ∧
      ∀ reply, (Worker.ofCommand id command pollInterval).step? board reply =
        if reply.isNone then some (board, refused) else none := by
  have barred : (board.monitor id).status.canAdvance .running = false := by
    cases status : (board.monitor id).status <;> first | rfl | exact absurd status used
  refine ⟨_, (Worker.ofCommand id command pollInterval).fail (Worker.refusal (board.monitor id)),
    rfl, rfl, fun reply => ?_⟩
  cases reply with
  | none => exact Worker.step?_of_fails rfl (.refused id command barred)
  | some reply =>
      simp only [Worker.step?, Worker.next, Worker.ofCommand, barred]
      cases reply <;> rfl

omit [Scalar α] in
/-- The status of a step that failed says whether it was aborted. -/
theorem Worker.finalStatus_some (error : ScanError) :
    error = .interrupted ∧ finalStatus (some error) = .aborted ∨
      error ≠ .interrupted ∧ finalStatus (some error) = .failed := by
  cases error with
  | interrupted => exact .inl ⟨rfl, rfl⟩
  | _ => exact .inr ⟨(fun same => by cases same), rfl⟩

/-- What a step shows that was executed, with all the steps nested in it, whatever its collaborators
answered and whatever others did to the board.

If it succeeded, all of them are completed. If it came back as interrupted, it is aborted, and with
any other error it has failed; then each group that was not completed has children that are
completed, then at most one that came to the same end in the same way, and then only children of
which nothing was begun. The one child is missing only if the execution was stopped at the safe point
before it.

Executing the step once more is one step of a worker, which is refused as busy, calls nobody and
leaves the board as it is. -/
theorem executed_step_shows_outcome
    (keeps : ∀ {now after}, others now after → now.KeepsStatus after)
    (life : Life others (board.addCommand command)
      (.ofCommand board.monitors.size command pollInterval) past now worker)
    (ended : worker.agenda = []) :
    (worker.failure = none →
        now.Shows .completed board.monitors.size command.monitorCount) ∧
      (∀ error, worker.failure = some error → ∃ status halt,
        (error = .interrupted ∧ status = .aborted ∨ error ≠ .interrupted ∧ status = .failed) ∧
          command.StoppedAt now status halt board.monitors.size ∧
          ∀ child, halt = some child → Life.StopsBefore others (board.addCommand command)
            (.ofCommand board.monitors.size command pollInterval) past child) ∧
      ∀ {again : Board} {interval : Duration},
        (again.monitor board.monitors.size).status = (now.monitor board.monitors.size).status →
          ∃ text refused, refused.agenda = [] ∧ refused.failure = some (.busy text) ∧
            ∀ reply, (Worker.ofCommand board.monitors.size command interval).step? again reply =
              if reply.isNone then some (again, refused) else none := by
  obtain ⟨halt, fares, -, -, stops⟩ := life.fares keeps rfl
  rw [ended] at fares
  have one := command.one_le_monitorCount
  rcases fares.of_nil with ⟨sound, completed⟩ | ⟨failed, stopped⟩
  · refine ⟨fun _ => completed, fun error failure => ?_, fun same => Worker.step?_of_used ?_⟩
    · simp [sound] at failure
    · rw [same, completed _ (Nat.le_refl _) (by omega)]
      exact nofun
  · obtain ⟨error, failure⟩ := Option.isSome_iff_exists.mp failed
    rw [failure] at stopped
    refine ⟨fun sound => ?_, fun other same => ?_, fun same => Worker.step?_of_used ?_⟩
    · simp [sound] at failure
    · cases failure.symm.trans same
      exact ⟨_, halt, Worker.finalStatus_some error, stopped, stops⟩
    · rw [same, stopped.own]
      rcases Worker.finalStatus_some error with ⟨-, status⟩ | ⟨-, status⟩ <;> rw [status] <;>
        exact nofun

/-- An abort that comes after the first of two notes of a group: the group is aborted at the safe
point before the second one, and cannot be executed again. -/
theorem aborted_group_shows_outcome :
    let command : Command Rat := .group "notes" [.comment "first" "", .comment "second" ""] 2
    ∃ past now worker,
      Life Board.Foreign (Board.addCommand {} command) (.ofCommand 0 command ⟨2000000⟩) past now
        worker ∧
      worker.agenda = [] ∧ worker.failure = some .interrupted ∧
      (∃ halt, command.StoppedAt now .aborted halt 0) ∧
      ∃ text refused, refused.failure = some (.busy text) ∧
        (Worker.ofCommand 0 command ⟨2000000⟩).step? now none = some (now, refused) := by
  intro command
  have born : Life Board.Foreign (Board.addCommand {} command) (.ofCommand 0 command ⟨2000000⟩) []
      (Board.addCommand {} command) (.ofCommand 0 command ⟨2000000⟩) := .begin
  obtain ⟨_, life, sound, agenda⟩ := born.exists_spawn rfl rfl (.start 0 command rfl)
  obtain ⟨_, life, sound, agenda⟩ := life.exists_spawn sound agenda (.enter 0 command)
  obtain ⟨_, life, sound, agenda⟩ := life.exists_spawn sound agenda (.safePoint rfl rfl)
  obtain ⟨_, life, sound, agenda⟩ := life.exists_spawn sound agenda (.start 1 _ rfl)
  obtain ⟨_, life, sound, agenda⟩ := life.exists_spawn sound agenda (.enter 1 _)
  obtain ⟨_, life, sound, agenda⟩ := life.exists_spawn sound agenda (.settleLeaf 1 _ sound rfl)
  obtain ⟨_, life, sound, agenda⟩ := life.exists_spawn sound agenda (.countUnit 1 _)
  obtain ⟨_, life, sound, agenda⟩ := life.exists_spawn sound agenda (.announceWork _)
  obtain ⟨_, life, sound, agenda⟩ := life.exists_spawn sound agenda .leave
  have asked : ∀ board : Board, board.Foreign board.requestAbort :=
    fun _ => ⟨.inl rfl, fun _ => rfl, rfl, rfl, fun _ => rfl⟩
  obtain ⟨_, life, failed, agenda⟩ := (life.wait (asked _)).exists_fail agenda (.safePoint rfl)
  obtain ⟨_, life, failed, agenda⟩ :=
    life.exists_cleaning failed agenda (.settle 0 command (.inr rfl))
  obtain ⟨_, life, failed, agenda⟩ := life.exists_cleaning failed agenda .leave
  obtain ⟨-, stops, again⟩ :=
    executed_step_shows_outcome (fun foreign => foreign.keepsStatus) life agenda
  obtain ⟨status, halt, ⟨-, rfl⟩ | ⟨other, -⟩, stopped, -⟩ := stops _ failed
  · obtain ⟨text, refused, -, busy, refuses⟩ := @again _ ⟨2000000⟩ rfl
    exact ⟨_, _, _, life, agenda, failed, ⟨halt, stopped⟩, text, refused, busy, refuses none⟩
  · exact absurd rfl other

end Lives

end Scan
