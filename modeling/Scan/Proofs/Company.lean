import Scan.Proofs.Rendition
import Scan.Proofs.Run

/-!
# Runs in company

What happens next to a run is of two kinds: a call makes an access to the board, or something is
done that does not concern the run. Which calls there are is a parameter, so one development serves
runs that are left alone by some of the calls: seen from its worker, a run among calls of a certain
kind is a life among them.
-/

namespace Scan

variable {α : Type}

/-- The call that makes an access at a turn. -/
def Turn.call? (turn : Turn α) : Option Call :=
  match turn.act with
  | .access position _ => turn.scene.calls[position]?
  | _ => none

/-- What happens to the board in company: a call of a certain kind makes an access, or something is
done that does not concern the run. -/
inductive Board.Amid (company : Call → Prop) (board : Board) : Board → Prop where
  | access {call : Call} (totalWork : UInt64) (now : Instant) (welcome : company call) :
      Amid company board (call.step totalWork now board).1
  | aside {after : Board} (bystander : board.Bystander after) : Amid company board after

/-- What a run among calls of a certain kind comes to in some turns. -/
structure Accompanied [Scalar α] (company : Call → Prop) (origin : Worker α) (first : Board)
    (since : List (Turn α)) (scene : Scene α) (run : Nat) (worker : Worker α) (view : Board) :
    Prop where
  found : scene.workers[run]? = some worker
  life : Life (Board.Amid company) first origin (deedsOf run since) view worker
  sees : scene.IsCurrent run → view = scene.board

namespace Board

variable {company : Call → Prop} {board after : Board}

theorem Bystander.refl (board : Board) : board.Bystander board :=
  ⟨rfl, rfl, rfl, rfl⟩

/-- Whatever happens in company is what others may do. -/
theorem Amid.foreign (amid : board.Amid company after) : board.Foreign after := by
  cases amid with
  | access totalWork now => exact Call.foreign_step totalWork now board _
  | aside bystander => exact bystander.foreign

theorem Amid.mono {wider : Call → Prop} (amid : board.Amid company after)
    (more : ∀ call, company call → wider call) : board.Amid wider after := by
  cases amid with
  | access totalWork now welcome => exact .access totalWork now (more _ welcome)
  | aside bystander => exact .aside bystander

end Board

namespace Scene

variable [Scalar α] {sequencer : Sequencer α} {past future : List (Turn α)}
variable {scene next last : Scene α} {act : Act α} {company : Call → Prop}

/-- What an act comes to for the runs: one begins, a worker makes a step, or something happens to
the board in the company of the call that makes an access. -/
theorem amid_of_act? (acted : scene.act? act = some next) :
    (∃ runId, act = .execute runId ∧ scene.sequencer.isTaken = false ∧
        next.workers = scene.workers ++ [scene.sequencer.worker runId]) ∨
      (∃ run reply, act = .work run reply) ∨
      next.workers = scene.workers ∧ next.sequencer = scene.sequencer.withBoard next.board ∧
        scene.board.Amid (fun call => (⟨scene, act⟩ : Turn α).call? = some call) next.board ∧
        ∀ run, (⟨scene, act⟩ : Turn α).deed? run = none := by
  cases act with
  | execute runId =>
      simp only [act?, Sequencer.beginRun] at acted
      cases taken : scene.sequencer.isTaken with
      | true =>
          simp only [taken] at acted
          cases acted
          exact .inr (.inr ⟨rfl, rfl, .aside (.refl _), fun _ => rfl⟩)
      | false =>
          simp only [taken] at acted
          cases acted
          exact .inl ⟨runId, rfl, rfl, rfl⟩
  | work run reply => exact .inr (.inl ⟨run, reply, rfl⟩)
  | invoke call =>
      simp only [act?] at acted
      split at acted
      · cases acted
        exact .inr (.inr ⟨rfl, rfl, .aside (.refl _), fun _ => rfl⟩)
      · cases acted
  | access position now =>
      simp only [act?] at acted
      cases found : scene.calls[position]? with
      | none => simp [found] at acted
      | some call =>
          have amid : scene.board.Amid
              (fun call => (⟨scene, .access position now⟩ : Turn α).call? = some call)
              (call.step scene.sequencer.totalWork now scene.board).1 :=
            .access scene.sequencer.totalWork now found
          simp only [found] at acted
          split at acted <;> rename_i board _ stepped <;> rw [stepped] at amid <;>
            cases acted <;> exact .inr (.inr ⟨rfl, rfl, amid, fun _ => rfl⟩)
  | simulate =>
      simp only [act?, Sequencer.beginSimulation] at acted
      cases taken : scene.sequencer.isTaken <;> simp only [taken] at acted <;> cases acted
      · exact .inr (.inr ⟨rfl, rfl, .aside ⟨rfl, rfl, rfl, rfl⟩, fun _ => rfl⟩)
      · exact .inr (.inr ⟨rfl, rfl, .aside (.refl _), fun _ => rfl⟩)
  | conclude result =>
      simp only [act?] at acted
      split at acted
      · cases acted
        exact .inr (.inr ⟨rfl, rfl, .aside ⟨rfl, rfl, rfl, rfl⟩, fun _ => rfl⟩)
      · cases acted
  | subscribe | unsubscribe | collect =>
      cases acted
      exact .inr (.inr ⟨rfl, rfl, .aside ⟨rfl, rfl, rfl, rfl⟩, fun _ => rfl⟩)

end Scene

/-- What happens in company is seen by the run in progress only. -/
theorem Accompanied.wait [Scalar α] {company : Call → Prop} {origin worker : Worker α}
    {first view : Board} {since : List (Turn α)} {scene next : Scene α} {run : Nat}
    {turn : Turn α} (accompanied : Accompanied company origin first since scene run worker view)
    (amid : scene.board.Amid company next.board)
    (length : next.workers.length = scene.workers.length)
    (found : next.workers[run]? = some worker) (silent : turn.deed? run = none) :
    ∃ view, Accompanied company origin first (since ++ [turn]) next run worker view := by
  have life := accompanied.life
  rw [← deedsOf_concat silent] at life
  by_cases current : scene.IsCurrent run
  · cases accompanied.sees current
    exact ⟨next.board, found, life.wait amid, fun _ => rfl⟩
  · refine ⟨view, found, life, fun current' => absurd ?_ current⟩
    exact ⟨current'.1.trans length, amid.foreign.isActive_eq ▸ current'.2⟩

/-- A step of a run in company is a step of its life, also when the run is over. -/
theorem Accompanied.work [Scalar α] {company : Call → Prop} {origin origin' worker after : Worker α}
    {first first' view view' board : Board} {since since' : List (Turn α)} {scene : Scene α}
    {run : Nat} {reply : Option (Reply α)}
    (accompanied : Accompanied company origin first since scene run worker view)
    (followed : Followed origin' first' since' scene run worker view')
    (stepped : worker.step? scene.board reply = some (board, after)) :
    ∃ worker view, Accompanied company origin first (since ++ [⟨scene, .work run reply⟩])
      { scene.withBoard board with workers := scene.workers.set run after } run worker view := by
  obtain ⟨found, life, sees⟩ := accompanied
  have moved : (scene.workers.set run after)[run]? = some after :=
    List.getElem?_set_self (List.getElem?_eq_some_iff.mp found).1
  by_cases current : scene.IsCurrent run
  · obtain ⟨task, rest, agenda, -⟩ := Worker.step?_cases stepped
    refine ⟨after, board, moved, ?_, fun _ => rfl⟩
    rw [deedsOf_work found agenda]
    exact .work life agenda (sees current ▸ stepped)
  · obtain ⟨event, rest, agenda, rfl, rfl, -⟩ :=
      followed.step_of_over (mt followed.current.mpr current) stepped
    -- what is published does not depend on the board that the worker sees
    have published : ∀ board, worker.step? board none =
        some (board.publish event, worker.proceed []) :=
      fun _ => Worker.step?_of_spawns agenda (.announce event)
    cases (published scene.board).symm.trans stepped
    refine ⟨_, view.publish event, moved, ?_, fun current' => absurd ?_ current⟩
    · rw [deedsOf_work found agenda]
      exact .work life agenda (published view)
    · exact ⟨current'.1.trans (List.length_set ..), current'.2⟩

namespace Scene

variable [Scalar α] {sequencer : Sequencer α} {past future : List (Turn α)}
variable {scene next last : Scene α} {act : Act α} {company : Call → Prop}

/-- What the worker of a run does at a turn of its own. -/
theorem exists_of_work {run : Nat} {reply : Option (Reply α)}
    (acted : scene.act? (.work run reply) = some next) :
    ∃ worker board after, scene.workers[run]? = some worker ∧
      worker.step? scene.board reply = some (board, after) ∧
      next = { scene.withBoard board with workers := scene.workers.set run after } := by
  simp only [act?] at acted
  cases found : scene.workers[run]? with
  | none => simp [found] at acted
  | some worker =>
      simp only [found, Option.map_eq_some_iff] at acted
      obtain ⟨⟨board, after⟩, stepped, rfl⟩ := acted
      exact ⟨worker, board, after, rfl, stepped, rfl⟩

variable {origin worker : Worker α} {first view : Board} {since : List (Turn α)} {run : Nat}

/-- A run in company stays so at every turn at which no other call makes an access. -/
theorem Sound.accompanied_turn (sound : Sound sequencer past scene)
    (acted : scene.act? act = some next)
    (welcome : ∀ call, (⟨scene, act⟩ : Turn α).call? = some call → company call)
    (accompanied : Accompanied company origin first since scene run worker view) :
    ∃ worker view,
      Accompanied company origin first (since ++ [⟨scene, act⟩]) next run worker view := by
  have inBounds : run < scene.workers.length :=
    (List.getElem?_eq_some_iff.mp accompanied.found).1
  rcases amid_of_act? acted with
    ⟨runId, rfl, free, workers⟩ | ⟨other, reply, rfl⟩ | ⟨workers, claimed, amid, silent⟩
  · refine ⟨worker, view, ?_, ?_, fun current => ?_⟩
    · rw [workers, List.getElem?_append_left inBounds]
      exact accompanied.found
    · rw [deedsOf_concat rfl]
      exact accompanied.life
    · have length := current.1
      simp only [workers, List.length_append, List.length_singleton] at length
      omega
  · obtain ⟨worker', board, after, found, stepped, rfl⟩ := exists_of_work acted
    obtain ⟨_, _, _, followed, -⟩ := sound.follows found
    by_cases same : run = other
    · subst same
      cases accompanied.found.symm.trans found
      exact accompanied.work followed stepped
    · have silent : (⟨scene, .work other reply⟩ : Turn α).deed? run = none := by
        simp [Turn.deed?, Ne.symm same]
      have kept : (scene.workers.set other after)[run]? = some worker := by
        rw [List.getElem?_set_ne (Ne.symm same)]
        exact accompanied.found
      by_cases current : scene.IsCurrent other
      · -- the worker of another run is at work, so this run is over
        refine ⟨worker, view, kept, ?_, fun current' => ?_⟩
        · rw [deedsOf_concat silent]
          exact accompanied.life
        · have last := current'.1.trans (List.length_set ..)
          have latest := current.1
          omega
      · obtain ⟨event, _, _, _, rfl, -⟩ :=
          followed.step_of_over (mt followed.current.mpr current) stepped
        exact ⟨worker, accompanied.wait (.aside ⟨rfl, rfl, rfl, rfl⟩) (List.length_set ..) kept
          silent⟩
  · exact ⟨worker, accompanied.wait (amid.mono welcome) (congrArg List.length workers)
      (workers ▸ accompanied.found) (silent run)⟩

/-- A run in progress is accompanied by whatever calls make an access from then on. -/
theorem Plays.accompanied (plays : sequencer.scene.Plays past scene)
    (later : scene.Plays future last)
    (welcome : ∀ turn ∈ future, ∀ call, turn.call? = some call → company call)
    (accompanied : Accompanied company origin first since scene run worker view) :
    ∃ worker view, Accompanied company origin first (since ++ future) last run worker view := by
  induction later with
  | begin => exact ⟨worker, view, by simpa using accompanied⟩
  | turn more acted ih =>
      obtain ⟨worker, view, halfway⟩ :=
        ih fun turn member => welcome turn (List.mem_append_left _ member)
      rw [← List.append_assoc]
      exact (plays.append more).sound.accompanied_turn acted
        (welcome _ (List.mem_append_right _ (List.mem_singleton.mpr rfl))) halfway

end Scene

end Scan
