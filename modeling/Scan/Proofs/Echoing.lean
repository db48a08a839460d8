import Scan.Proofs.Lockstep

/-!
# Plays that are echoed

Whatever is done in a scene can be echoed in a later one that recurs: for every answer that a worker
gets there is one by which the later worker hears the same. Only a delay that ends at the beginning of
time could not be told to go on, and a later scene need not have one.
-/

namespace Scan

variable {α : Type}

/-! ## Deadlines -/

/-- The end of the delay that a task is about. -/
def Task.deadline? : Task α → Option Instant
  | .heedAbort _ deadline | .checkDeadline _ deadline | .restUntil _ deadline _ => some deadline
  | _ => none

/-- Whether the delay that a task is about, if it is about one, ends after the beginning of time. -/
def Task.IsLate (task : Task α) : Prop :=
  ∀ deadline, task.deadline? = some deadline → 0 < deadline

/-- Tasks that are the same at any time are about no delay. -/
theorem Task.isLate_of_timeless {tasks : List (Task α)}
    (timeless : ∀ dating dating', tasks.map (Task.later 0 dating) = tasks.map (Task.later 0 dating')) :
    ∀ task ∈ tasks, task.IsLate := by
  intro task member deadline about
  obtain ⟨position, inBounds, rfl⟩ := List.getElem_of_mem member
  have same := congrArg (·[position]?) (timeless { time := 0 } { time := 1 })
  simp only [List.getElem?_map, List.getElem?_eq_getElem inBounds, Option.map_some,
    Option.some.injEq] at same
  revert same about
  cases tasks[position] <;> simp [deadline?, later]

/-- Only an armed delay brings in a deadline. -/
theorem Task.isLate_of_spawns [Scalar α] {board after : Board} {worker : Worker α} {task : Task α}
    {reply : Option (Reply α)} {more : List (Task α)}
    (spawns : task.Spawns board worker reply after more) (late : task.IsLate)
    (ticks : ∀ id duration now, task = .armDelay id duration → reply = some (.told now) → 0 < now) :
    ∀ next ∈ more, next.IsLate := by
  cases spawns with
  | armDelay id duration now =>
      intro next member deadline about
      cases List.mem_singleton.mp member
      cases about
      exact Nat.add_pos_left (ticks id duration now rfl rfl) _
  | heedAbort | deadlineAhead | delayGoesOn =>
      intro next member deadline about
      cases List.mem_singleton.mp member
      exact late deadline about
  | enter id command =>
      refine isLate_of_timeless fun dating dating' => ?_
      rw [List.map_append, List.map_append, Worker.map_later_commandTasks,
        Worker.map_later_commandTasks]
      rfl
  | literal | evaluated =>
      refine isLate_of_timeless fun dating dating' => ?_
      rw [Worker.map_later_purposeTasks, Worker.map_later_purposeTasks]
  | round =>
      refine isLate_of_timeless fun dating dating' => ?_
      rw [Worker.map_later_iterationTasks, Worker.map_later_iterationTasks]
  | nest =>
      refine isLate_of_timeless fun dating dating' => ?_
      rw [Worker.map_later_nestedTasks, Worker.map_later_nestedTasks]
  | steps =>
      refine isLate_of_timeless fun dating dating' => ?_
      rw [Worker.map_later_stepTasks, Worker.map_later_stepTasks]
  | armPoll | limited | unlimited | withinLimit | pollGoesOn | report =>
      intro next member
      simp only [List.mem_cons, List.not_mem_nil, or_false] at member
      rcases member with rfl | rfl | rfl <;> nofun
  | _ => exact isLate_of_timeless fun _ _ => rfl

/-- Whether a delay that is armed by a deed is armed after the beginning of time. -/
def Deed.Ticks (deed : Deed α) : Prop :=
  ∀ id duration now, deed.task = .armDelay id duration → deed.reply = some (.told now) → 0 < now

/-- For every reply there is one by which a later task hears the same. -/
theorem Task.Recurs.exists_reply {base : Nat} {task task' : Task α} (recurs : task.Recurs base task')
    (late : task'.IsLate) (reply : Option (Reply α)) :
    ∃ reply', Deed.heard ⟨task', reply'⟩ = Deed.heard ⟨task, reply⟩ ∧
      Deed.Ticks ⟨task', reply'⟩ := by
  obtain ⟨dating, rfl⟩ := recurs
  have clocked (now now' : Instant) (same : (task.later base dating).timeUp now' = task.timeUp now)
      (ticks : Deed.Ticks ⟨task.later base dating, some (.told now')⟩) :
      ∃ reply', Deed.heard ⟨task.later base dating, reply'⟩ =
        Deed.heard ⟨task, some (.told now)⟩ ∧ Deed.Ticks ⟨task.later base dating, reply'⟩ :=
    ⟨some (.told now'), by simp only [Deed.heard, same], ticks⟩
  by_cases told : ∃ now, reply = some (.told now)
  · obtain ⟨now, rfl⟩ := told
    cases task with
    | checkDeadline id deadline =>
        by_cases up : deadline ≤ now
        · refine clocked now dating.time ?_ fun _ _ _ arms _ => by cases arms
          simp [later, timeUp, up]
        · have ahead : ¬ dating.time ≤ 0 := Nat.not_le.mpr (late dating.time rfl)
          refine clocked now 0 ?_ fun _ _ _ arms _ => by cases arms
          simp only [later, timeUp, up, ahead, decide_false]
    | checkLimit poll since limit =>
        by_cases up : limit.nanoseconds ≤ now - since
        · refine clocked now (dating.time + limit.nanoseconds) ?_ fun _ _ _ arms _ => by cases arms
          simp [later, timeUp, up]
        · have within : ¬ limit.nanoseconds ≤ dating.time - dating.time := by omega
          refine clocked now dating.time ?_ fun _ _ _ arms _ => by cases arms
          simp only [later, timeUp, up, within, decide_false]
    | armDelay =>
        refine clocked now 1 rfl fun _ _ _ _ same => ?_
        cases same
        exact Nat.one_pos
    | _ => exact clocked now 1 rfl fun _ _ _ arms _ => by cases arms
  · refine ⟨reply, ?_, fun _ _ now _ same => absurd ⟨now, same⟩ told⟩
    rcases reply with _ | _ | _ | _ | now | _ <;> first | rfl | exact absurd ⟨now, rfl⟩ told

section Scenes

variable [Scalar α] {legacy : Legacy} {start start' scene later last next : Scene α}
variable {act act' : Act α} {future : List (Turn α)}

/-- A scene in which all delays end after the beginning of time. -/
def Scene.IsLate (scene : Scene α) : Prop :=
  ∀ worker ∈ scene.workers, ∀ task ∈ worker.agenda, task.IsLate

/-- A step keeps delays from ending at the beginning of time. -/
theorem Worker.isLate_of_step? {board after : Board} {worker next : Worker α} {task : Task α}
    {rest : List (Task α)} {reply : Option (Reply α)} (agenda : worker.agenda = task :: rest)
    (stepped : worker.step? board reply = some (after, next))
    (late : ∀ task ∈ worker.agenda, task.IsLate) (ticks : Deed.Ticks ⟨task, reply⟩) :
    ∀ task ∈ next.agenda, task.IsLate := by
  obtain ⟨_, _, same, result⟩ := step?_cases stepped
  obtain ⟨rfl, rfl⟩ := List.cons.inj (agenda.symm.trans same)
  rw [agenda] at late
  have behind : ∀ other ∈ rest, other.IsLate :=
    fun other member => late other (List.mem_cons_of_mem _ member)
  rcases result with ⟨more, spawns, rfl⟩ | ⟨error, -, -, rfl⟩
  · have ahead := Task.isLate_of_spawns spawns (late task List.mem_cons_self) ticks
    have all : ∀ other ∈ more ++ rest, other.IsLate := fun other member =>
      (List.mem_append.mp member).elim (ahead other) (behind other)
    intro other member
    simp only [proceed, agenda_noting, agenda, List.tail_cons] at member
    split at member
    · exact all other ((unwind_suffix _).mem member)
    · exact all other member
  · intro other member
    simp only [fail, agenda, List.tail_cons] at member
    exact behind other ((unwind_suffix _).mem member)

omit [Scalar α] in
/-- A run begins without delays. -/
theorem Sequencer.isLate_worker (sequencer : Sequencer α) (runId : String) :
    ∀ task ∈ (sequencer.worker runId).agenda, task.IsLate := by
  simp [worker, Worker.ofSteps, Task.IsLate, Task.deadline?]

/-- An act keeps delays from ending at the beginning of time. -/
theorem Scene.IsLate.turn (late : scene.IsLate) (acted : scene.act? act = some next)
    (ticks : ∀ run deed, (⟨scene, act⟩ : Turn α).deed? run = some deed → deed.Ticks) :
    next.IsLate := by
  rcases amid_of_act? acted with ⟨runId, rfl, -, workers⟩ | ⟨run, reply, rfl⟩ | ⟨workers, -⟩
  · intro worker member
    rw [workers] at member
    rcases List.mem_append.mp member with old | new
    · exact late worker old
    · rw [List.mem_singleton.mp new]
      exact scene.sequencer.isLate_worker runId
  · obtain ⟨worker, board, after, found, stepped, rfl⟩ := exists_of_work acted
    obtain ⟨task, rest, agenda, -⟩ := Worker.step?_cases stepped
    intro other there
    rcases List.mem_or_eq_of_mem_set there with old | rfl
    · exact late other old
    · refine Worker.isLate_of_step? agenda stepped (late worker (List.mem_of_getElem? found)) ?_
      exact ticks run _ (by simp [Turn.deed?, found, agenda])
  · intro worker member
    exact late worker (workers ▸ member)

/-- For every act there is one that does the same in a later scene. -/
theorem Scene.Recurs.exists_act (recurs : scene.Recurs legacy later) (late : later.IsLate)
    (acted : scene.act? act = some next) :
    ∃ act', act.Mirrors legacy scene later act' ∧
      ∀ run deed, (⟨later, act'⟩ : Turn α).deed? run = some deed → deed.Ticks := by
  have silent : ∀ {act' : Act α}, (∀ run, (⟨later, act'⟩ : Turn α).deed? run = none) →
      ∀ run deed, (⟨later, act'⟩ : Turn α).deed? run = some deed → deed.Ticks := by
    intro act' nothing run deed does
    rw [nothing run] at does
    cases does
  cases act with
  | work run reply =>
      obtain ⟨worker, _, _, found, stepped, -⟩ := exists_of_work acted
      obtain ⟨task, rest, agenda, -⟩ := Worker.step?_cases stepped
      rcases none_or_some_of_rel (recurs.workers run) with
        ⟨absent, -⟩ | ⟨_, worker', same, found', workers⟩
      · simp [found] at absent
      · cases found.symm.trans same
        rcases workers.agenda_cases with
          ⟨done, -⟩ | ⟨_, _, task', rest', agenda', later', own⟩
        · simp [agenda] at done
        · obtain ⟨rfl, rfl⟩ := List.cons.inj (agenda.symm.trans agenda')
          have ahead : task'.IsLate :=
            late worker' (List.mem_of_getElem? found') task' (by simp [later'])
          obtain ⟨reply', heard, ticks⟩ := own.exists_reply ahead reply
          refine ⟨_, .work run reply reply' ?_, fun other deed does => ?_⟩
          · simp [Turn.deed?, found, found', agenda, later', heard]
          · simp only [Turn.deed?] at does
            split at does
            · rename_i own
              subst own
              simp only [found', later', Option.bind_some, List.head?_cons, Option.map_some] at does
              cases does
              exact ticks
            · cases does
  | execute runId => exact ⟨_, .execute runId runId, silent fun _ => rfl⟩
  | invoke call => exact ⟨_, .invoke call, silent fun _ => rfl⟩
  | access position now => exact ⟨_, .access position now now, silent fun _ => rfl⟩
  | simulate => exact ⟨_, .simulate, silent fun _ => rfl⟩
  | conclude result => exact ⟨_, .conclude result, silent fun _ => rfl⟩
  | subscribe => exact ⟨_, .subscribe, silent fun _ => rfl⟩
  | unsubscribe id => exact ⟨_, .unsubscribe id, silent fun _ => rfl⟩
  | collect id => exact ⟨_, .collect id, silent fun _ => rfl⟩

/-- Every play is echoed by one from a later scene that recurs. -/
theorem Scene.Recurs.exists_echo (recurs : start.Recurs legacy start')
    (buses : start.board.bus.Recurs legacy.seats start'.board.bus) (late : start'.IsLate)
    (plays : start.Plays future last) :
    ∃ future' last', start'.Plays future' last' ∧ Turn.Echoes legacy future future' := by
  suffices echoed : ∃ future' last', start'.Plays future' last' ∧
      Turn.Echoes legacy future future' ∧ last'.IsLate by
    obtain ⟨future', last', plays', echoes, -⟩ := echoed
    exact ⟨future', last', plays', echoes⟩
  induction plays with
  | begin => exact ⟨[], start', .begin, .begin, late⟩
  | @turn future scene next act plays acted ih =>
      obtain ⟨future', later, plays', echoes, late'⟩ := ih
      have agree := recurs.plays buses echoes plays plays'
      obtain ⟨act', mirrors, ticks⟩ := agree.scenes.exists_act late' acted
      rcases none_or_some_of_rel (agree.scenes.act? mirrors) with
        ⟨stuck, -⟩ | ⟨_, next', same, acted', -⟩
      · simp [acted] at stuck
      · exact ⟨_, next', plays'.turn acted', echoes.turn mirrors, late'.turn acted' ticks⟩

end Scenes

end Scan
