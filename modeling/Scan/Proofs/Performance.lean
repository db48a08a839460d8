import Scan.Proofs.Rendition

/-!
# Performances

A run that nobody controls is a performance of the score of its steps: it is noticed exactly as the
score goes on, and whatever the score can go on with, the run comes to. What is not noticed takes a
bounded number of steps, which the worker makes by itself.
-/

namespace Scan

variable {α : Type}

/-! ## From runs to scores -/

section Lives

variable [Scalar α] {board now after : Board} {worker current next : Worker α}
variable {past : List (Deed α)} {task : Task α} {rest : List (Task α)} {reply : Option (Reply α)}

theorem Board.IsUndisturbed.of_bystander (undisturbed : board.IsUndisturbed)
    (bystander : board.Bystander after) : after.IsUndisturbed := by
  constructor
  · rw [bystander.control]
    exact undisturbed.control
  · intro id
    rw [monitor, bystander.monitors]
    exact undisturbed.unskipped id

/-- A board that nobody disturbs stays so. -/
theorem Life.isUndisturbed (life : Life Board.Bystander board worker past now current)
    (steady : worker.IsSteady) (start : board.IsUndisturbed) : now.IsUndisturbed := by
  induction life with
  | begin => exact start
  | wait _ other ih => exact ih.of_bystander other
  | work life agenda stepped ih =>
      cases Worker.outcome_of_step? (life.isSteady steady) agenda stepped with
      | sound _ spawns | cleaning _ _ spawns => exact Task.isUndisturbed_of_spawns spawns ih
      | broken => exact ih

omit [Scalar α] in
theorem Worker.pollInterval_noting (worker : Worker α) (board : Board) (task : Task α)
    (reply : Option (Reply α)) :
    (worker.noting board task reply).pollInterval = worker.pollInterval := by
  unfold noting closing
  split <;> (try split) <;> rfl

/-- How often a worker looks up never changes. -/
theorem Life.pollInterval_eq {others : Board → Board → Prop}
    (life : Life others board worker past now current) (steady : worker.IsSteady) :
    current.pollInterval = worker.pollInterval := by
  induction life with
  | begin => rfl
  | wait _ _ ih => exact ih
  | work life agenda stepped ih =>
      rw [← ih]
      cases Worker.outcome_of_step? (life.isSteady steady) agenda stepped with
      | sound | cleaning => exact Worker.pollInterval_noting ..
      | broken => rfl

variable {steps : List (Command α)} {pollInterval : Duration} {runId : String}
variable {name : Option String} {totalWork : UInt64}

/-- Every step of a run that nobody controls renders its score. -/
theorem Life.renders
    (life : Life Board.Bystander board (.ofSteps steps pollInterval runId name totalWork) past now
      current)
    (start : board.IsUndisturbed) (agenda : current.agenda = task :: rest)
    (stepped : current.step? now reply = some (after, next)) :
    current.Renders task reply next := by
  have stage : Worker.Stage now current :=
    life.stage nofun Board.Bystander.work (Worker.stage_ofSteps board ..)
  have numbered : current.IsNumbered now :=
    life.isNumbered nofun Board.Bystander.foreign (Worker.isNumbered_ofSteps ..)
  exact (Worker.outcome_of_step? (life.isSteady nofun) agenda stepped).renders agenda stage
    (life.isUndisturbed nofun start) numbered

/-- What is noticed of a run that nobody controls follows the score of its steps. -/
theorem Life.score_plays
    (life : Life Board.Bystander board (.ofSteps steps pollInterval runId name totalWork) past now
      current)
    (start : board.IsUndisturbed) :
    (Worker.ofSteps steps pollInterval runId name totalWork).score.Plays pollInterval
      (noticed pollInterval past) current.score := by
  induction life with
  | begin => exact .begin
  | wait _ _ ih => exact ih
  | work life agenda stepped ih =>
      have same := life.pollInterval_eq nofun
      have renders := life.renders start agenda stepped
      rw [Worker.Renders, same] at renders
      rw [noticed_append]
      split at renders
      · rename_i heard
        rw [noticed_of_isNoticed heard]
        exact .step ih renders
      · rename_i silent
        rw [noticed_of_not_isNoticed (Bool.not_eq_true _ ▸ silent), List.append_nil, renders]
        exact ih

end Lives

/-! ## What is not noticed -/

namespace Command

mutual

/-- A bound on the steps that a command takes on its way to its first call. -/
def lull : Command α → Nat
  | .group _ children _ => 4 + lulls children
  | _ => 4

/-- A bound on the steps that nested commands take on their way to a call. -/
def lulls : List (Command α) → Nat
  | [] => 0
  | command :: rest => 3 + lull command + lulls rest

end

end Command

/-- A bound on the steps that a task and the tasks that it leads to take until one is noticed. -/
def Task.lull : Task α → Nat
  | .announceStart _ _ command => command.lull + 4
  | .start _ command => command.lull + 2
  | .enter _ command => command.lull + 1
  | .nest body => 1 + Command.lulls body
  | .steps _ remaining => 1 + (remaining.map fun pair => 8 + pair.2.lull).sum
  | .resolve .. | .iterate .. => 2
  | _ => 1

namespace Worker

/-- A bound on the steps that an agenda takes until one is noticed. -/
def lull : List (Task α) → Nat
  | [] => 0
  | task :: rest => if task.isNoticed then 0 else task.lull + lull rest

/-- A bound on the steps that a worker takes until one is noticed. -/
def silence (worker : Worker α) : Nat :=
  if worker.failure.isSome then worker.agenda.length else lull worker.agenda

theorem lull_append_le (front rest : List (Task α)) :
    lull (front ++ rest) ≤ lull front + lull rest := by
  induction front with
  | nil => simp
  | cons task front ih =>
      simp only [List.cons_append, lull]
      split <;> omega

theorem lull_nestedTasks (first : Nat) (commands : List (Command α)) :
    lull (nestedTasks (Board.numbered first commands)) = Command.lulls commands := by
  induction commands generalizing first with
  | nil => rfl
  | cons command rest ih =>
      rw [Board.numbered, nestedTasks_cons]
      simp only [lull, Task.isNoticed, Task.lull, Bool.false_eq_true, if_false, ih, Command.lulls]
      omega

theorem lull_purposeTasks_le (id : Nat) (value : α) (purpose : Purpose α) :
    lull (purposeTasks id value purpose) ≤ 1 := by
  cases purpose with
  | assign => exact Nat.zero_le _
  | await =>
      simp only [purposeTasks]
      split
      · exact Nat.zero_le _
      · exact Nat.le_refl _

end Worker

section Steps

variable [Scalar α] {board after : Board} {worker next : Worker α} {task : Task α}
variable {rest more : List (Task α)} {reply : Option (Reply α)}

/-- A task that is not noticed takes longer than the tasks in its place. -/
theorem Task.lull_of_spawns (spawns : task.Spawns board worker reply after more)
    (silent : task.isNoticed = false) : 1 + Worker.lull more ≤ task.lull := by
  cases spawns with
  | literal id value purpose =>
      have short := Worker.lull_purposeTasks_le id value purpose
      simp only [lull]
      omega
  | enter id command =>
      cases command with
      | group description children work =>
          have nested := Worker.lull_nestedTasks (id + 1) children
          have joined :=
            Worker.lull_append_le (Worker.nestedTasks (Board.numbered (id + 1) children))
              [.settle id (.group description children work), .leave]
          have behind :
              Worker.lull [.settle id (.group description children work), .leave] = 2 := rfl
          simp only [Worker.commandTasks, lull, Command.lull]
          omega
      | set description assignment | wait description assignment =>
          simp only [Worker.commandTasks, List.cons_append, List.nil_append, Worker.lull, lull]
          split <;> simp [isNoticed, Command.lull]
      | delay | comment | loop =>
          simp [Worker.commandTasks, Worker.lull, isNoticed, lull, Command.lull]
  | nest body =>
      rw [Worker.lull_nestedTasks]
      exact Nat.le_refl _
  | steps step remaining =>
      cases remaining with
      | nil => exact Nat.le_refl _
      | cons pair rest =>
          obtain ⟨id, command⟩ := pair
          simp only [Worker.stepTasks, Worker.lull, isNoticed, lull, Bool.false_eq_true, if_false,
            List.map_cons, List.sum_cons]
          omega
  | start | announceStart =>
      simp only [Worker.lull, isNoticed, lull, Bool.false_eq_true, if_false]
      omega
  | _ => first
    | exact absurd silent.symm Bool.false_ne_true
    | exact Nat.le_refl _
    | exact Nat.le_succ _

/-- A step that is not noticed brings the next one that is nearer. -/
theorem Worker.Outcome.silence_lt (agenda : worker.agenda = task :: rest)
    (outcome : Outcome board worker task rest reply after next) (silent : task.isNoticed = false)
    (undisturbed : board.IsUndisturbed) (numbered : worker.IsNumbered board) :
    next.silence < worker.silence := by
  cases outcome with
  | @sound _ more sound spawns =>
      have shorter := Task.lull_of_spawns spawns silent
      have joined := lull_append_le more rest
      have before : worker.silence = task.lull + lull rest := by
        simp [silence, sound, agenda, lull, silent]
      have behind : ((worker.noting board task reply).withAgenda (more ++ rest)).silence =
          lull (more ++ rest) := by
        simp [silence, sound]
      omega
  | broken _ fails =>
      simp [Task.isNoticed_of_fails fails undisturbed numbered agenda] at silent
  | @cleaning _ more failed cleans spawns =>
      have nothing : more = [] := by
        cases spawns with
        | settleLeaf _ _ sound => simp [sound] at failed
        | _ => first
          | rfl
          | exact absurd cleans Bool.false_ne_true
          | exact absurd silent.symm Bool.false_ne_true
      have shorter := (unwind_suffix (more ++ rest)).length_le
      have before : worker.silence = rest.length + 1 := by simp [silence, failed, agenda]
      have behind : ((worker.noting board task reply).withAgenda (unwind (more ++ rest))).silence =
          (unwind (more ++ rest)).length := by
        simp [silence, failed]
      rw [nothing, List.nil_append] at shorter
      rw [behind, before, nothing, List.nil_append]
      omega

end Steps

/-! ## From scores to runs -/

section Lives

variable [Scalar α] {board now after : Board} {worker current next : Worker α}
variable {past : List (Deed α)} {task : Task α} {rest : List (Task α)} {reply : Option (Reply α)}
variable {pollInterval : Duration} {notice : Notice α} {score : Score α}

theorem Worker.report_eq_none_of_step? (goesOn : worker.score.step? pollInterval reply =
    some (notice, score)) : worker.report = none := by
  cases reported : worker.report with
  | none => rfl
  | some report =>
      rw [Worker.score_of_report reported] at goesOn
      cases goesOn

/-- The report takes any reply with which the score can go on. -/
theorem Worker.exists_step?_of_report (stage : Worker.Stage board worker)
    (agenda : worker.agenda = .report :: rest)
    (goesOn : worker.score.step? pollInterval reply = some (notice, score)) :
    ∃ after next, worker.step? board reply = some (after, next) := by
  have unreported := Worker.report_eq_none_of_step? goesOn
  have alone := stage.eq_nil_of_report agenda
  have told : ∃ time, reply = some (.told time) := by
    cases failure : worker.failure with
    | none =>
        rw [Worker.score_of_sound unreported failure, agenda, alone] at goesOn
        simp only [Score.step?, Worker.beats_cons, Worker.beats_nil, Task.beats,
          List.append_nil] at goesOn
        split at goesOn
        · exact ⟨_, rfl⟩
        · cases goesOn
    | some error =>
        rw [Worker.score_of_broken unreported failure] at goesOn
        simp only [Score.step?] at goesOn
        split at goesOn
        · exact ⟨_, rfl⟩
        · cases goesOn
  obtain ⟨time, rfl⟩ := told
  exact ⟨_, _, step?_of_spawns agenda (.report time)⟩

omit [Scalar α] in
/-- A worker that comes to something that is noticed before its report has not failed. -/
theorem Worker.IsSteady.failure_eq_none (steady : worker.IsSteady)
    (agenda : worker.agenda = task :: rest) (heard : task.isNoticed = true)
    (ordinary : task ≠ .report) : worker.failure = none := by
  cases failure : worker.failure with
  | none => rfl
  | some error =>
      have cleans := cleansUp_of_unwind (agenda ▸ steady (by simp [failure]))
      cases task <;> first
        | exact absurd cleans Bool.false_ne_true
        | exact absurd heard Bool.false_ne_true
        | exact absurd rfl ordinary

/-- A task that is noticed takes any reply with which the score can go on. -/
theorem Worker.exists_step?_of_score (stage : Worker.Stage board worker) (steady : worker.IsSteady)
    (agenda : worker.agenda = task :: rest) (heard : task.isNoticed = true)
    (goesOn : worker.score.step? pollInterval reply = some (notice, score)) :
    ∃ after next, worker.step? board reply = some (after, next) := by
  by_cases ending : task = .report
  · subst ending
    exact exists_step?_of_report stage agenda goesOn
  · have unreported := Worker.report_eq_none_of_step? goesOn
    have sound := steady.failure_eq_none agenda heard ending
    rw [Worker.score_of_sound unreported sound, agenda, Worker.beats_cons] at goesOn
    -- the reply fits the beat of the task, and so it fits its call
    cases task
    case resolve id quantity purpose =>
      cases quantity with
      | literal => exact absurd heard Bool.false_ne_true
      | expression text =>
          rcases reply with _ | _ | _ | _ | _ | _ <;> first
            | (simp only [step?, Worker.next, agenda]; exact ⟨_, _, rfl⟩)
            | cases goesOn
    all_goals first
      | exact absurd heard Bool.false_ne_true
      | exact absurd rfl ending
      | rcases reply with _ | _ | _ | _ | _ | _ <;> first
          | (simp only [step?, Worker.next, agenda]; exact ⟨_, _, rfl⟩)
          | cases goesOn

variable {steps : List (Command α)} {runId : String} {name : Option String} {totalWork : UInt64}
variable {trace : List (Notice α)}

/-- A run that nobody controls comes by itself to what is noticed next, or to its end. -/
theorem Life.exists_heard
    (life : Life Board.Bystander board (.ofSteps steps pollInterval runId name totalWork) past now
      current)
    (start : board.IsUndisturbed) :
    ∃ more later settled,
      Life Board.Bystander board (.ofSteps steps pollInterval runId name totalWork) (past ++ more)
        later settled ∧
      noticed pollInterval more = [] ∧ settled.score = current.score ∧
      ∀ task rest, settled.agenda = task :: rest → task.isNoticed = true := by
  -- what is not noticed brings the next one that is nearer
  induction bound : current.silence using Nat.strongRecOn generalizing past now current with
  | ind length ih =>
      cases agenda : current.agenda with
      | nil => exact ⟨[], now, current, by simpa using life, rfl, rfl, by simp [agenda]⟩
      | cons task rest =>
          cases heard : task.isNoticed with
          | true =>
              refine ⟨[], now, current, by simpa using life, rfl, rfl, ?_⟩
              intro first others same
              cases agenda.symm.trans same
              exact heard
          | false =>
              have undisturbed := life.isUndisturbed nofun start
              have free : current.next now ≠ .held :=
                Worker.next_ne_held (by simp [undisturbed.control, RunControl.blocks])
              obtain ⟨reply, answered⟩ := Worker.exists_step? free (by simp [agenda])
              obtain ⟨⟨after, next⟩, stepped⟩ := Option.isSome_iff_exists.mp answered
              have same : next.score = current.score := by
                simpa [Worker.Renders, heard] using life.renders start agenda stepped
              have nearer : next.silence < length :=
                bound ▸ (Worker.outcome_of_step? (life.isSteady nofun) agenda stepped).silence_lt
                  agenda heard undisturbed
                  (life.isNumbered nofun Board.Bystander.foreign (Worker.isNumbered_ofSteps ..))
              obtain ⟨more, later, settled, whole, silent, kept, head⟩ :=
                ih next.silence nearer (life.work agenda stepped) rfl
              refine ⟨⟨task, reply⟩ :: more, later, settled, by simpa using whole, ?_,
                kept.trans same, head⟩
              rw [← List.singleton_append, noticed_append, silent,
                noticed_of_not_isNoticed heard, List.append_nil]

/-- Whatever the score can go on with, the run can go on with. -/
theorem Life.exists_of_step?
    (life : Life Board.Bystander board (.ofSteps steps pollInterval runId name totalWork) past now
      current)
    (start : board.IsUndisturbed)
    (goesOn : current.score.step? pollInterval reply = some (notice, score)) :
    ∃ more later next,
      Life Board.Bystander board (.ofSteps steps pollInterval runId name totalWork) (past ++ more)
        later next ∧
      noticed pollInterval more = [notice] ∧ next.score = score := by
  obtain ⟨more, later, settled, whole, silent, same, head⟩ := life.exists_heard start
  rw [← same] at goesOn
  have stage : Worker.Stage later settled :=
    whole.stage nofun Board.Bystander.work (Worker.stage_ofSteps board ..)
  have steady : settled.IsSteady := whole.isSteady nofun
  cases agenda : settled.agenda with
  | nil =>
      have unreported := Worker.report_eq_none_of_step? goesOn
      cases stage with
      | working front work => simp [agenda] at work
      | reporting _ work => simp [agenda] at work
      | closed _ _ reports => simp [reports.kept] at unreported
  | cons task rest =>
      have heard := head task rest agenda
      obtain ⟨after, next, stepped⟩ :=
        Worker.exists_step?_of_score stage steady agenda heard goesOn
      have renders := whole.renders start agenda stepped
      rw [Worker.Renders, if_pos heard, whole.pollInterval_eq nofun] at renders
      obtain ⟨rfl, rfl⟩ := Prod.mk.inj (Option.some.inj (goesOn.symm.trans renders))
      refine ⟨more ++ [⟨task, reply⟩], after, next, ?_, ?_, rfl⟩
      · rw [← List.append_assoc]
        exact whole.work agenda stepped
      · rw [noticed_append, silent, noticed_of_isNoticed heard]
        rfl

/-- A run that nobody controls can be noticed to do exactly what its score plays. -/
theorem Score.Plays.exists_life (start : board.IsUndisturbed)
    (plays : (Worker.ofSteps steps pollInterval runId name totalWork).score.Plays pollInterval trace
      score) :
    ∃ past now current,
      Life Board.Bystander board (.ofSteps steps pollInterval runId name totalWork) past now
        current ∧
      noticed pollInterval past = trace ∧ current.score = score := by
  induction plays with
  | begin => exact ⟨[], board, _, .begin, rfl, rfl⟩
  | step _ stepped ih =>
      obtain ⟨past, now, current, life, heard, same⟩ := ih
      rw [← same] at stepped
      obtain ⟨more, later, next, whole, added, reached⟩ := life.exists_of_step? start stepped
      exact ⟨past ++ more, later, next, whole, by rw [noticed_append, heard, added], reached⟩

/-- A run that nobody controls and that has written its report comes by itself to its end. -/
theorem Life.exists_end
    (life : Life Board.Bystander board (.ofSteps steps pollInterval runId name totalWork) past now
      current)
    (start : board.IsUndisturbed) {failure : Option ScanError}
    (reported : current.score = .closed failure) :
    ∃ more later settled,
      Life Board.Bystander board (.ofSteps steps pollInterval runId name totalWork) (past ++ more)
        later settled ∧
      noticed pollInterval more = [] ∧ settled.score = .closed failure ∧ settled.agenda = [] := by
  obtain ⟨more, later, settled, whole, silent, same, head⟩ := life.exists_heard start
  refine ⟨more, later, settled, whole, silent, same.trans reported, ?_⟩
  cases agenda : settled.agenda with
  | nil => rfl
  | cons task rest =>
      have heard := head task rest agenda
      have stage : Worker.Stage later settled :=
        whole.stage nofun Board.Bystander.work (Worker.stage_ofSteps board ..)
      cases stage with
      | working _ _ _ unreported =>
          have playing : settled.score ≠ .closed failure := by
            cases broken : settled.failure with
            | none => simp [Worker.score_of_sound unreported broken]
            | some error => simp [Worker.score_of_broken unreported broken]
          exact absurd (same.trans reported) playing
      | reporting _ work =>
          cases agenda.symm.trans work
          exact absurd heard Bool.false_ne_true
      | closed _ work =>
          obtain ⟨event, rfl⟩ :=
            Worker.exists_event_of_suffix work (agenda ▸ List.mem_cons_self)
          exact absurd heard Bool.false_ne_true

end Lives

end Scan
