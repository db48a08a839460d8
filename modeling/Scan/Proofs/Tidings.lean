import Mathlib.Data.List.Perm.Basic
import Scan.Proofs.Audience
import Scan.Proofs.Speech

/-!
# Tidings of the state

Whoever changes the state of a run says so later, in a step of its own. What is told and what is
left to tell is therefore at any time what has happened: every state that is taken is told once. It
is told in order if nobody changes the state while someone else has still to say so.
-/

namespace Scan

variable {α : Type}

/-! ## What is left to tell -/

/-- The state that an event tells of. -/
def Event.state? : Event → Option RunState
  | .stateChanged state => some state
  | _ => none

/-- The state that a call has still to tell of. -/
def Call.untold? : Call → Option RunState
  | .announce state => some state
  | _ => none

/-- The states that are told of by tasks in order, up to the first that takes another one. -/
def Task.untold : List (Task α) → List RunState
  | [] => []
  | .setState _ :: _ => []
  | .announce event :: rest => event.state?.toList ++ untold rest
  | _ :: rest => untold rest

/-- The states that workers and calls have taken and have still to tell of. -/
def Scene.untold (scene : Scene α) : List RunState :=
  scene.workers.flatMap (fun worker => Task.untold worker.agenda) ++
    scene.calls.flatMap fun call => call.untold?.toList

/-- The state that a run takes at a turn, if it takes another one. -/
def Turn.taken? [Scalar α] (turn : Turn α) : Option RunState :=
  (turn.scene.act? turn.act).bind fun next =>
    if next.board.run = turn.scene.board.run then none else some next.board.run

/-- The state that is told of at a turn, if one is. -/
def Turn.told? (turn : Turn α) : Option RunState :=
  turn.event?.bind Event.state?

/-! ## Agendas -/

/-- Whether a task has nothing to do with the state of the run. -/
def Task.isPrivate : Task α → Bool
  | .setState _ | .announce _ => false
  | _ => true

section Agendas

variable {task : Task α} {rest : List (Task α)}

theorem Task.untold_cons_of_isPrivate (kept : task.isPrivate = true) :
    untold (task :: rest) = untold rest := by
  cases task <;> first | rfl | exact absurd kept Bool.false_ne_true

theorem Task.untold_append_of_isPrivate {more : List (Task α)}
    (kept : ∀ task ∈ more, task.isPrivate = true) : untold (more ++ rest) = untold rest := by
  induction more with
  | nil => rfl
  | cons first more ih =>
      obtain ⟨own, others⟩ := List.forall_mem_cons.mp kept
      rw [List.cons_append, untold_cons_of_isPrivate own, ih others]

/-- What is dropped after an error has nothing to tell. -/
theorem Task.untold_unwind (agenda : List (Task α)) :
    untold (Worker.unwind agenda) = untold agenda := by
  induction agenda with
  | nil => rfl
  | cons task rest ih =>
      rw [Worker.unwind, List.dropWhile_cons]
      split
      · rename_i dropped
        rw [untold_cons_of_isPrivate]
        · exact ih
        · cases task <;> first | rfl | cases dropped
      · rfl

theorem Task.isPrivate_of_isNested (nested : task.isNested = true) : task.isPrivate = true := by
  cases task <;> first | rfl | exact absurd nested Bool.false_ne_true

variable [Scalar α]

/-- Only the report leads to a word about the state. -/
theorem Task.isPrivate_of_spawns {board after : Board} {worker : Worker α}
    {reply : Option (Reply α)} {more : List (Task α)}
    (spawns : task.Spawns board worker reply after more) (inner : task ≠ .report) :
    ∀ next ∈ more, next.isPrivate = true := by
  intro next member
  cases nested : task.isNested
  case true => exact isPrivate_of_isNested (Task.isNested_of_spawns nested spawns next member)
  cases spawns with
  | steps step remaining =>
      cases remaining with
      | nil => cases member
      | cons =>
          simp only [Worker.stepTasks, List.mem_cons, List.not_mem_nil, or_false] at member
          rcases member with rfl | rfl | rfl | rfl | rfl <;> rfl
  | announceStart | prepare =>
      simp only [List.mem_cons, List.not_mem_nil, or_false] at member
      rcases member with rfl | rfl <;> rfl
  | report => exact absurd rfl inner
  | _ => first
    | exact absurd nested.symm Bool.false_ne_true
    | cases member

omit [Scalar α] in
/-- A task that has nothing to do with the state tells nothing of it. -/
theorem Task.told_of_isPrivate (kept : task.isPrivate = true) (board : Board) :
    (task.event? board).bind Event.state? = none := by
  cases task <;> first | rfl | exact absurd kept Bool.false_ne_true

omit [Scalar α] in
/-- Behind the last state that a worker sets it has still to tell of it. -/
theorem Worker.Stage.untold_of_setState {board : Board} {worker : Worker α} {state : RunState}
    (stage : Stage board worker) (agenda : worker.agenda = .setState state :: rest) :
    Task.untold rest = [state] := by
  obtain ⟨report, -, rfl, rfl⟩ := stage.exists_report_of_setState agenda
  rfl

/-- What a task leaves to tell, together with what it tells, is what was left before, unless it
takes a state. -/
theorem Task.told_of_spawns {board view after : Board} {worker : Worker α}
    {reply : Option (Reply α)} {more : List (Task α)} (stage : Worker.Stage view worker)
    (agenda : worker.agenda = task :: rest) (spawns : task.Spawns board worker reply after more)
    (keeps : ∀ state, task ≠ .setState state) :
    ((task.event? board).bind Event.state?).toList ++ untold (more ++ rest) =
      untold (task :: rest) := by
  by_cases reports : task = .report
  · subst reports
    cases stage.eq_nil_of_report agenda
    cases spawns with
    | report => rfl
  · rw [untold_append_of_isPrivate (isPrivate_of_spawns spawns reports)]
    cases kept : task.isPrivate with
    | true => rw [told_of_isPrivate kept, untold_cons_of_isPrivate kept]; rfl
    | false =>
        cases task with
        | announce event => rfl
        | setState state => exact absurd rfl (keeps state)
        | _ => cases kept

/-- A step of a worker takes a state, which is then the one thing left to tell, or it leaves the
state as it is and what was left to tell is told or still left. -/
theorem Worker.Outcome.untold {board view after : Board} {worker next : Worker α}
    {reply : Option (Reply α)} (agenda : worker.agenda = task :: rest)
    (outcome : Outcome board worker task rest reply after next) (stage : Stage view worker) :
    (∃ state, task = .setState state ∧ Task.untold next.agenda = [state] ∧ after.run = state) ∨
      after.run = board.run ∧
        ((task.event? board).bind Event.state?).toList ++ Task.untold next.agenda =
          Task.untold (task :: rest) := by
  -- an error drops nothing that has something to tell
  have goesOn : (∃ error, task.Fails board reply error ∧ after = board ∧
        Task.untold next.agenda = Task.untold rest) ∨
      ∃ more, task.Spawns board worker reply after more ∧
        Task.untold next.agenda = Task.untold (more ++ rest) := by
    cases outcome with
    | sound _ spawns => exact .inr ⟨_, spawns, rfl⟩
    | cleaning _ _ spawns => exact .inr ⟨_, spawns, Task.untold_unwind _⟩
    | broken _ fails => exact .inl ⟨_, fails, rfl, Task.untold_unwind _⟩
  rcases goesOn with ⟨error, fails, rfl, left⟩ | ⟨more, spawns, left⟩
  · have kept : task.isPrivate = true := by
      cases fails <;> rfl
    refine .inr ⟨rfl, ?_⟩
    rw [Task.told_of_isPrivate kept, left, Task.untold_cons_of_isPrivate kept]
    rfl
  · by_cases sets : ∃ state, task = .setState state
    · obtain ⟨state, rfl⟩ := sets
      cases spawns with
      | setState => exact .inl ⟨state, rfl, left.trans (stage.untold_of_setState agenda), rfl⟩
    · have keeps : ∀ state, task ≠ .setState state := fun state same => sets ⟨state, same⟩
      rcases run_of_spawns spawns with same | ⟨state, same, -⟩
      · exact .inr ⟨same, left ▸ Task.told_of_spawns stage agenda spawns keeps⟩
      · exact absurd same (keeps state)

end Agendas

/-! ## Calls -/

/-- The state that is left to tell of behind an access of a call. -/
def Call.Rest.untold? : Rest → Option RunState
  | .more call => call.untold?
  | .result _ => none

/-- What an access of a call leaves to tell is the state that it takes. -/
theorem Call.untold_step (call : Call) (totalWork : UInt64) (now : Instant) (board : Board) :
    (call.step totalWork now board).2.untold? =
      if (call.step totalWork now board).1.run = board.run then none
      else some (call.step totalWork now board).1.run := by
  by_cases quiet : ∀ state, call ≠ .announce state
  · rcases call.step_of_quiet quiet totalWork now board with
      ⟨same, silent⟩ | ⟨state, announces, sets, toggled⟩
    · rw [if_pos same]
      cases rest : (call.step totalWork now board).2 with
      | result => rfl
      | more next =>
          cases next with
          | announce state => exact absurd rest (silent state)
          | _ => rfl
    · have other : state ≠ board.run := by
        rcases toggled with ⟨running, rfl⟩ | ⟨paused, rfl⟩ <;> simp [*]
      rw [announces, sets, if_neg other]
      rfl
  · simp only [not_forall, not_not] at quiet
    obtain ⟨state, rfl⟩ := quiet
    exact (if_pos rfl).symm

/-! ## Turns -/

section Lists

variable {β γ : Type} {items : List β} {position : Nat} {item : β}

theorem perm_flatMap_eraseIdx (found : items[position]? = some item) (parts : β → List γ) :
    (items.flatMap parts).Perm (parts item ++ (items.eraseIdx position).flatMap parts) := by
  obtain ⟨bound, rfl⟩ := List.getElem?_eq_some_iff.mp found
  exact (List.getElem_cons_eraseIdx_perm bound).symm.flatMap_right parts

theorem perm_flatMap_set (found : items[position]? = some item) (other : β)
    (parts : β → List γ) :
    ((items.set position other).flatMap parts).Perm
      (parts other ++ (items.eraseIdx position).flatMap parts) :=
  (List.set_perm_cons_eraseIdx (List.getElem?_eq_some_iff.mp found).1 other).flatMap_right parts

/-- If one of several takes something and tells something, the balance of all is that of the one. -/
theorem perm_of_exchange {before behind owed left rest others told taken : List γ}
    (first : before.Perm (owed ++ rest)) (second : behind.Perm (left ++ rest))
    (exchange : (told ++ left).Perm (owed ++ taken)) :
    (told ++ (behind ++ others)).Perm (before ++ others ++ taken) :=
  calc
    List.Perm (told ++ (behind ++ others)) (told ++ (left ++ rest ++ others)) :=
      (second.append_right others).append_left told
    _ = told ++ left ++ (rest ++ others) := by simp only [List.append_assoc]
    List.Perm _ (owed ++ taken ++ (rest ++ others)) := exchange.append_right _
    List.Perm _ (owed ++ (rest ++ others) ++ taken) := by
      rw [List.append_assoc, List.append_assoc]
      exact List.perm_append_comm.append_left owed
    List.Perm _ (before ++ others ++ taken) := by
      rw [← List.append_assoc owed]
      exact (first.symm.append_right others).append_right taken

theorem eq_of_perm_of_length_le_one {first second : List γ} (same : first.Perm second)
    (short : second.length ≤ 1) : first = second := by
  match second with
  | [] => exact same.eq_nil
  | [_] => exact List.perm_singleton.mp same

theorem filterMap_concat (past : List β) (last : β) (read : β → Option γ) :
    (past ++ [last]).filterMap read = past.filterMap read ++ (read last).toList := by
  rw [List.filterMap_append, List.filterMap_cons]
  cases read last <;> rfl

end Lists

/-! ## Subscriptions given up -/

/-- Whether someone gives up a subscription. -/
def Act.isUnsubscribe : Act α → Bool
  | .unsubscribe _ => true
  | _ => false

theorem Act.ne_unsubscribe {act : Act α} (stays : act.isUnsubscribe = false) (id : Nat) :
    act ≠ .unsubscribe id := by
  rintro rfl
  cases stays

namespace Scene

variable [Scalar α] {sequencer : Sequencer α} {past future : List (Turn α)}
variable {scene next last : Scene α} {act : Act α} {run position : Nat} {now : Instant}
variable {reply : Option (Reply α)}

/-- What a turn balances: what is told and left to tell behind it is what was left to tell before it
and the state that is taken. -/
def Balances (scene : Scene α) (act : Act α) (next : Scene α) : Prop :=
  ((⟨scene, act⟩ : Turn α).told?.toList ++ next.untold).Perm
    (scene.untold ++ (⟨scene, act⟩ : Turn α).taken?.toList)

theorem taken?_of_act? (acted : scene.act? act = some next) :
    (⟨scene, act⟩ : Turn α).taken? =
      if next.board.run = scene.board.run then none else some next.board.run := by
  rw [Turn.taken?, acted]
  rfl

/-- A step of a worker balances. -/
theorem Sound.balances_work (sound : Sound sequencer past scene)
    (acted : scene.act? (.work run reply) = some next) : Balances scene (.work run reply) next := by
  obtain ⟨worker, board, after, found, stepped, rfl⟩ := exists_of_work acted
  have taken : (⟨scene, .work run reply⟩ : Turn α).taken? =
      if board.run = scene.board.run then none else some board.run := taken?_of_act? acted
  obtain ⟨_, _, view, followed, -⟩ := sound.follows found
  obtain ⟨task, rest, agenda, -⟩ := Worker.step?_cases stepped
  have told : (⟨scene, .work run reply⟩ : Turn α).told? =
      (task.event? scene.board).bind Event.state? := by
    simp [Turn.told?, Turn.event?, found, agenda]
  have outcome := Worker.outcome_of_step? followed.isSteady agenda stepped
  have before := perm_flatMap_eraseIdx found fun worker => Task.untold worker.agenda
  have behind := perm_flatMap_set found after fun worker => Task.untold worker.agenda
  rw [Balances, told, taken]
  apply perm_of_exchange before behind
  rw [agenda]
  rcases outcome.untold agenda followed.stage with ⟨state, rfl, left, sets⟩ | ⟨same, left⟩
  · have inactive := followed.stage.isActive_of_setState agenda
    have current : scene.IsCurrent run :=
      followed.current.mpr ⟨.setState state, by simp [agenda], rfl⟩
    have other : state ≠ scene.board.run := by
      rintro rfl
      exact Bool.false_ne_true (inactive.symm.trans current.2)
    rw [left, sets, if_neg other]
    exact .refl _
  · rw [left, if_pos same, Option.toList_none, List.append_nil]

omit [Scalar α] in
/-- What there is left to tell does not depend on who is named first. -/
theorem perm_untold (scene : Scene α) :
    scene.untold.Perm (scene.calls.flatMap (fun call => call.untold?.toList) ++
      scene.workers.flatMap fun worker => Task.untold worker.agenda) :=
  List.perm_append_comm

/-- An access of a call balances. -/
theorem balances_access (acted : scene.act? (.access position now) = some next) :
    Balances scene (.access position now) next := by
  have taken := taken?_of_act? acted
  cases found : scene.calls[position]? with
  | none => simp [act?, found] at acted
  | some call =>
      have before := perm_flatMap_eraseIdx found fun call => call.untold?.toList
      have told : (⟨scene, .access position now⟩ : Turn α).told? = call.untold? := by
        simp only [Turn.told?, Turn.event?, found]
        cases call <;> rfl
      have exchange := call.untold_step scene.sequencer.totalWork now scene.board
      simp only [act?, found] at acted
      rw [Balances, told]
      apply (next.perm_untold.append_left _).trans
      apply List.Perm.trans _ (scene.perm_untold.symm.append_right _)
      split at acted <;> rename_i board rest stepped <;> rw [stepped] at exchange <;> cases acted <;>
        rw [taken.trans exchange.symm]
      · have behind := perm_flatMap_set found rest fun call => call.untold?.toList
        exact perm_of_exchange before behind (.refl _)
      · have gone : ((scene.calls.eraseIdx position).flatMap fun call => call.untold?.toList).Perm
            ([] ++ (scene.calls.eraseIdx position).flatMap fun call => call.untold?.toList) := .refl _
        exact perm_of_exchange before gone (.refl _)

omit [Scalar α] in
/-- A run that begins has to tell so. -/
theorem perm_untold_begin (scene : Scene α) (claimed : Sequencer α) (runId : String) :
    List.Perm
      (Scene.untold { scene with
        sequencer := claimed, workers := scene.workers ++ [sequencer.worker runId] })
      (scene.untold ++ [.running]) := by
  simp only [untold, List.flatMap_append, List.flatMap_singleton, List.append_assoc]
  exact List.perm_append_comm.append_left _

/-- Every turn balances. -/
theorem Sound.balances (sound : Sound sequencer past scene)
    (acted : scene.act? act = some next) : Balances scene act next := by
  -- all but the steps and the accesses tell nothing, and only the beginning of a run takes a state
  have steady : next.untold = scene.untold → next.board.run = scene.board.run →
      (⟨scene, act⟩ : Turn α).told? = none → Balances scene act next := by
    intro untold same silent
    rw [Balances, taken?_of_act? acted, if_pos same, silent, untold, Option.toList_none,
      List.append_nil]
    exact .refl _
  cases act with
  | work run reply => exact sound.balances_work acted
  | access position now => exact balances_access acted
  | invoke call =>
      simp only [act?] at acted
      split at acted
      · rename_i entry
        cases acted
        refine steady ?_ rfl rfl
        have silent : call.untold? = none := by
          cases call <;> first | rfl | cases entry
        simp [untold, silent]
      · cases acted
  | execute runId =>
      have taken := taken?_of_act? acted
      simp only [act?, Sequencer.beginRun] at acted
      cases busy : scene.sequencer.isTaken with
      | true =>
          simp only [busy] at acted
          cases acted
          exact steady rfl rfl rfl
      | false =>
          have inactive := ((isTaken_eq_false scene).mp busy).1
          have other : RunState.running ≠ scene.board.run := by
            intro same
            rw [← same] at inactive
            cases inactive
          simp only [busy] at acted
          cases acted
          rw [Balances, taken.trans (if_neg other)]
          exact perm_untold_begin scene _ _
  | simulate =>
      simp only [act?, Sequencer.beginSimulation] at acted
      cases busy : scene.sequencer.isTaken <;> simp only [busy] at acted <;> cases acted <;>
        exact steady rfl rfl rfl
  | conclude result =>
      simp only [act?] at acted
      split at acted <;> cases acted
      exact steady rfl rfl rfl
  | subscribe | unsubscribe | collect =>
      cases acted
      exact steady rfl rfl rfl

/-! ## Plays -/

/-- What is told in some turns and left to tell at the end is what was left to tell at their
beginning and the states that are taken. -/
theorem Plays.balances (plays : sequencer.scene.Plays past scene)
    (later : scene.Plays future last) :
    (future.filterMap Turn.told? ++ last.untold).Perm
      (scene.untold ++ future.filterMap Turn.taken?) := by
  induction later with
  | begin => simp
  | @turn future halfway next act more acted ih =>
      have balance := (plays.append more).sound.balances acted
      rw [filterMap_concat, filterMap_concat, List.append_assoc, ← List.append_assoc scene.untold]
      apply (balance.append_left _).trans
      rw [← List.append_assoc]
      exact ih.append_right _

/-- The state of the run is the last one that was taken. -/
theorem Plays.run_eq (later : scene.Plays future last) :
    last.board.run = (future.filterMap Turn.taken?).getLastD scene.board.run := by
  induction later with
  | begin => rfl
  | @turn future halfway next act more acted ih =>
      rw [filterMap_concat, taken?_of_act? acted]
      by_cases same : next.board.run = halfway.board.run
      · rw [if_pos same, same, ih, Option.toList_none, List.append_nil]
      · rw [if_neg same, Option.toList_some, List.getLastD_concat]

/-- If nobody takes a state while there is something left to tell, the states are told in order. -/
theorem Plays.told_in_order (plays : sequencer.scene.Plays past scene)
    (later : scene.Plays future last) (quiet : scene.untold = [])
    (apart : ∀ turn ∈ future, turn.taken? ≠ none → turn.scene.untold = []) :
    future.filterMap Turn.told? ++ last.untold = future.filterMap Turn.taken? ∧
      last.untold.length ≤ 1 := by
  induction later with
  | begin => simp [quiet]
  | @turn future halfway next act more acted ih =>
      obtain ⟨told, short⟩ := ih fun turn member => apart turn (List.mem_append_left _ member)
      have own := apart _ (List.mem_append_right _ (List.mem_singleton.mpr rfl))
      have balance := (plays.append more).sound.balances acted
      rw [Balances] at balance
      -- there is one state at the most on either side, so the balance is an equation
      have single : (halfway.untold ++ (⟨halfway, act⟩ : Turn α).taken?.toList).length ≤ 1 := by
        cases taken : (⟨halfway, act⟩ : Turn α).taken? with
        | none => simpa using short
        | some state =>
            have nothing : halfway.untold = [] := own (by simp [taken])
            simp [nothing]
      have exact := eq_of_perm_of_length_le_one balance single
      constructor
      · rw [filterMap_concat, filterMap_concat, List.append_assoc, exact, ← List.append_assoc, told]
      · have length := balance.length_eq
        rw [List.length_append] at length
        omega

omit [Scalar α] in
/-- Nothing is left to tell when all calls and all runs are through. -/
theorem untold_of_through (calls : scene.calls = [])
    (workers : ∀ worker ∈ scene.workers, worker.agenda = []) : scene.untold = [] := by
  rw [untold, calls, List.flatMap_nil, List.append_nil, List.flatMap_eq_nil_iff]
  intro worker member
  rw [workers worker member]
  rfl

/-- What a subscriber that is there from the start hears of the state of the runs. Under every
interleaving it hears of every state that is taken once, apart from those that have still to be
told, and the state is the last one that was taken. If nobody takes a state while there is another
one to be told, it hears of them in order; when all calls and all runs are through it has heard of
all of them, and last of the state. -/
theorem states_are_told_once {subscriber : Nat} (plays : sequencer.scene.Plays past scene)
    (quiet : scene.untold = []) (present : scene.board.bus.pending? subscriber = some #[])
    (later : scene.Plays future last)
    (stays : ∀ turn ∈ future, turn.act ≠ .unsubscribe subscriber) :
    ((received subscriber future last).filterMap Event.state? ++ last.untold).Perm
        (future.filterMap Turn.taken?) ∧
      last.board.run = (future.filterMap Turn.taken?).getLastD scene.board.run ∧
      ((∀ turn ∈ future, turn.taken? ≠ none → turn.scene.untold = []) →
        (received subscriber future last).filterMap Event.state? ++ last.untold =
            future.filterMap Turn.taken? ∧
          (last.calls = [] → (∀ worker ∈ last.workers, worker.agenda = []) →
            (received subscriber future last).filterMap Event.state? =
                future.filterMap Turn.taken? ∧
              last.board.run = ((received subscriber future last).filterMap
                Event.state?).getLastD scene.board.run)) := by
  have heard : (received subscriber future last).filterMap Event.state? =
      future.filterMap Turn.told? := by
    rw [later.received_eq present stays, Array.toList_empty, List.nil_append,
      List.filterMap_filterMap]
    rfl
  have balance := plays.balances later
  rw [quiet, List.nil_append] at balance
  rw [heard]
  refine ⟨balance, later.run_eq, fun apart => ?_⟩
  have told := (plays.told_in_order later quiet apart).1
  refine ⟨told, fun calls workers => ?_⟩
  rw [untold_of_through calls workers, List.append_nil] at told
  exact ⟨told, told ▸ later.run_eq⟩

/-- A run is paused and resumed, and each of the calls tells so before anything else happens. -/
theorem states_of_resumed_run_are_told_in_order :
    ∃ (future : List (Turn Float)) (last : Scene Float),
      future.filterMap Turn.taken? = [.running, .paused, .running, .finished] ∧
        (received 0 future last).filterMap Event.state? =
          [.running, .paused, .running, .finished] ∧
        last.board.run = .finished := by
  have rehearsed : Scene.rehearseAround (α := Float) ⟨none, [.comment "note"]⟩ ⟨2000000⟩ [.subscribe]
      (.execute "run")
      ([Act.work 0 none, .invoke .pause, .access 0 0, .access 0 0, .invoke .resume, .access 0 0,
        .access 0 0] ++ Scene.workActs 1 [(.told 0, 15), (.told 0, 3)])
      (fun scene _ future last =>
        let turns := ⟨scene, .execute "run"⟩ :: future
        decide (scene.untold = []) && decide (scene.board.bus.pending? 0 = some #[]) &&
          turns.all (fun turn => !turn.act.isUnsubscribe) &&
          turns.all (fun turn => turn.taken?.isNone || turn.scene.untold.isEmpty) &&
          last.calls.isEmpty && last.workers.all (·.agenda.isEmpty) &&
          decide (turns.filterMap Turn.taken? = [.running, .paused, .running, .finished])) =
        true := by
    decide +kernel
  obtain ⟨sequencer, past, scene, next, future, last, -, plays, acted, later, test⟩ :=
    Scene.exists_of_rehearseAround rehearsed
  simp only [Bool.and_eq_true, Bool.or_eq_true, List.all_eq_true, decide_eq_true_eq,
    List.isEmpty_iff, Option.isNone_iff_eq_none, Bool.not_eq_true'] at test
  obtain ⟨⟨⟨⟨⟨⟨quiet, present⟩, stays⟩, apart⟩, calls⟩, done⟩, taken⟩ := test
  have whole : scene.Plays (⟨scene, .execute "run"⟩ :: future) last :=
    (Plays.turn .begin acted).append later
  obtain ⟨-, -, ordered⟩ := states_are_told_once plays quiet present whole
    fun turn member => Act.ne_unsubscribe (stays turn member) 0
  obtain ⟨-, through⟩ := ordered fun turn member takes => (apart turn member).resolve_left takes
  obtain ⟨heard, run⟩ := through calls done
  rw [heard, taken] at run
  exact ⟨_, last, taken, heard.trans taken, run⟩

/-- A run is paused behind its last safe point, and the call that has done so tells it after the run
has come to its end: the last word is that the run is paused. -/
theorem pause_is_told_behind_end :
    ∃ (sequencer : Sequencer Float) (past future : List (Turn Float)) (scene last : Scene Float),
      sequencer.scene.Plays past scene ∧ scene.untold = [] ∧
        scene.board.bus.pending? 0 = some #[] ∧ scene.Plays future last ∧
        (∀ turn ∈ future, turn.act ≠ .unsubscribe 0) ∧
        last.calls = [] ∧ (∀ worker ∈ last.workers, worker.agenda = []) ∧
        future.filterMap Turn.taken? = [.running, .paused, .finished] ∧
        (received 0 future last).filterMap Event.state? = [.running, .finished, .paused] ∧
        last.board.run = .finished := by
  have rehearsed : Scene.rehearseAround (α := Float) ⟨none, [.comment "note"]⟩ ⟨2000000⟩ [.subscribe]
      (.execute "run")
      (Scene.workActs 2 [(.told 0, 2)] ++ [Act.invoke .pause, .access 0 0] ++
        Scene.workActs 13 [(.told 0, 3)] ++ [Act.access 0 0])
      (fun scene _ future last =>
        let turns := ⟨scene, .execute "run"⟩ :: future
        decide (scene.untold = []) && decide (scene.board.bus.pending? 0 = some #[]) &&
          turns.all (fun turn => !turn.act.isUnsubscribe) &&
          last.calls.isEmpty && last.workers.all (·.agenda.isEmpty) &&
          decide (turns.filterMap Turn.taken? = [.running, .paused, .finished]) &&
          decide ((received 0 turns last).filterMap Event.state? =
            [.running, .finished, .paused]) &&
          decide (last.board.run = .finished)) = true := by
    with_unfolding_all decide
  obtain ⟨sequencer, past, scene, next, future, last, -, plays, acted, later, test⟩ :=
    Scene.exists_of_rehearseAround rehearsed
  simp only [Bool.and_eq_true, List.all_eq_true, decide_eq_true_eq, List.isEmpty_iff,
    Bool.not_eq_true'] at test
  obtain ⟨⟨⟨⟨⟨⟨⟨quiet, present⟩, stays⟩, calls⟩, through⟩, taken⟩, heard⟩, run⟩ := test
  refine ⟨sequencer, past, _, scene, last, plays, quiet, present,
    (Plays.turn .begin acted).append later,
    fun turn member => Act.ne_unsubscribe (stays turn member) 0, calls, through, taken, heard, run⟩

end Scene

end Scan
