import Scan.Proofs.Braking
import Scan.Proofs.Events

/-!
# How a run comes to a standstill

Under a pause that nobody takes back a run comes to its end or to a safe point, where its worker is
held. As long as it is held the run shows as paused, and nothing happens to its steps.
-/

namespace Scan

variable {α : Type}

/-! ## Calls that do not release -/

namespace Board

variable {board after : Board} {company : Call → Prop}

/-- Only a call to resume takes a request to pause back. -/
theorem Amid.paused (amid : board.Amid company after)
    (welcome : ∀ call, company call → call.releases = false)
    (paused : board.control.paused = true) : after.control.paused = true := by
  cases amid with
  | aside bystander => rwa [bystander.control]
  | @access call totalWork now member =>
      have binding := welcome call member
      cases call with
      | resume | abort => exact absurd binding.symm Bool.false_ne_true
      | pause | skip | skipInnermost | skipTest | progressInnermost =>
          simp only [Call.step]
          split <;> first | exact paused | rfl
      | _ => exact paused

/-- Only a call to abort asks for an abort. -/
theorem Amid.aborted_eq (amid : board.Amid company after)
    (welcome : ∀ call, company call → call ≠ .abort) :
    after.control.aborted = board.control.aborted := by
  cases amid with
  | aside bystander => rw [bystander.control]
  | @access call totalWork now member =>
      cases call with
      | abort => exact absurd rfl (welcome _ member)
      | pause | resume | skip | skipInnermost | skipTest | progressInnermost =>
          simp only [Call.step]
          split <;> rfl
      | _ => rfl

/-- What holds a worker goes on to hold it unless a call releases it. -/
theorem Amid.blocks (amid : board.Amid company after)
    (welcome : ∀ call, company call → call.releases = false)
    (blocks : board.control.blocks = true) : after.control.blocks = true := by
  rw [RunControl.blocks, Bool.and_eq_true] at blocks ⊢
  have patient : ∀ call, company call → call ≠ .abort := by
    rintro call member rfl
    exact Bool.false_ne_true (welcome _ member).symm
  rw [amid.aborted_eq patient]
  exact ⟨amid.paused welcome blocks.1, blocks.2⟩

end Board

/-! ## At a standstill -/

/-- A turn at which nothing happens to the steps of a run: whoever is at work only publishes events,
and what is published does not tell of steps. -/
structure Turn.IsIdle (turn : Turn α) : Prop where
  announces : ∀ run deed, turn.deed? run = some deed → ∃ event, deed.task = .announce event
  silent : ∀ event, turn.event? = some event → event.isOfSteps = false

/-- A turn that is no worker's publishes nothing but a change of state. -/
theorem Turn.isIdle_of_silent {turn : Turn α} (silent : ∀ run, turn.deed? run = none) :
    turn.IsIdle where
  announces := fun run deed does => by simp [silent run] at does
  silent := by
    intro event publishes
    obtain ⟨scene, act⟩ := turn
    cases act with
    | work run reply =>
        have nothing := silent run
        cases found : scene.workers[run]? with
        | none => simp [event?, found] at publishes
        | some worker =>
            cases first : worker.agenda.head? with
            | none => simp [event?, found, first] at publishes
            | some task => simp [deed?, found, first] at nothing
    | access position now =>
        simp only [event?] at publishes
        split at publishes <;> cases publishes
        rfl
    | _ => cases publishes

section Plays

variable [Scalar α] {sequencer : Sequencer α} {past : List (Turn α)} {scene next : Scene α}
variable {act : Act α} {run : Nat} {worker : Worker α} {reply : Option (Reply α)}

/-- A worker whose run is over is idle at its turns, and leaves everything but the bus as it is. -/
theorem Scene.Sound.isIdle_of_over (sound : Scene.Sound sequencer past scene)
    (ended : ¬ scene.IsCurrent run) (acted : scene.act? (.work run reply) = some next) :
    (⟨scene, .work run reply⟩ : Turn α).IsIdle ∧
      ∃ event, next.board = scene.board.publish event := by
  obtain ⟨worker, board, after, found, stepped, rfl⟩ := Scene.exists_of_work acted
  obtain ⟨_, _, _, followed, -⟩ := sound.follows found
  have isOver := mt followed.current.mpr ended
  obtain ⟨event, rest, agenda, -, rfl, -⟩ := followed.step_of_over isOver stepped
  obtain ⟨report, -, suffix⟩ := followed.stage.exists_report isOver
  refine ⟨⟨fun other deed does => ⟨event, ?_⟩, fun published publishes => ?_⟩, event, rfl⟩
  · simp only [Turn.deed?] at does
    split at does
    · rename_i same
      subst same
      simp only [found, agenda, List.head?_cons, Option.bind_some, Option.map_some,
        Option.some.injEq] at does
      rw [← does]
    · cases does
  · have own : published = event := by
      simpa [Turn.event?, found, agenda, Task.event?] using publishes.symm
    have announces := suffix.mem (agenda ▸ List.mem_cons_self)
    simp only [List.mem_cons, Task.announce.injEq, List.not_mem_nil, or_false] at announces
    rcases announces with rfl | rfl <;> rw [own] <;> rfl

/-- Unless a call releases it, a worker that is held goes on to be held, and the turns around it are
idle. -/
theorem Scene.Sound.held_turn (sound : Scene.Sound sequencer past scene)
    (found : scene.workers[run]? = some worker) (held : worker.next scene.board = .held)
    (acted : scene.act? act = some next)
    (binding : ∀ call, (⟨scene, act⟩ : Turn α).call? = some call → call.releases = false) :
    next.workers[run]? = some worker ∧ worker.next next.board = .held ∧
      (∀ id, (next.board.monitor id).status = (scene.board.monitor id).status) ∧
      (⟨scene, act⟩ : Turn α).IsIdle ∧ (⟨scene, act⟩ : Turn α).deed? run = none := by
  have current := sound.current_of_held found held
  obtain ⟨stops, blocks⟩ := Worker.next_eq_held.mp held
  rcases Scene.amid_of_act? acted with
    ⟨runId, rfl, free, -⟩ | ⟨other, reply, rfl⟩ | ⟨workers, -, amid, silent⟩
  · have inactive := ((Scene.isTaken_eq_false scene).mp free).1
    simp [current.2] at inactive
  · have different : other ≠ run := by
      rintro rfl
      obtain ⟨_, board, after, found', stepped, -⟩ := Scene.exists_of_work acted
      cases found.symm.trans found'
      rw [Worker.step?, held, Next.take?_held] at stepped
      cases stepped
    have ended : ¬ scene.IsCurrent other := by
      intro current'
      have first := current.1
      have second := current'.1
      omega
    obtain ⟨idle, event, board⟩ := sound.isIdle_of_over ended acted
    obtain ⟨_, _, after, -, -, changed⟩ := Scene.exists_of_work acted
    refine ⟨?_, Worker.next_eq_held.mpr ⟨stops, by rwa [board]⟩, fun id => by rw [board]; rfl, idle,
      by simp [Turn.deed?, different]⟩
    rw [changed]
    exact (List.getElem?_set_ne different).trans found
  · exact ⟨workers ▸ found, Worker.next_eq_held.mpr ⟨stops, amid.blocks binding blocks⟩,
      amid.foreign.status, Turn.isIdle_of_silent silent, silent run⟩

variable {future : List (Turn α)} {last : Scene α}

/-- A run that has come to a standstill stays there until a call releases it. -/
theorem Scene.Plays.held (plays : sequencer.scene.Plays past scene)
    (found : scene.workers[run]? = some worker) (held : worker.next scene.board = .held)
    (later : scene.Plays future last)
    (binding : ∀ turn ∈ future, ∀ call, turn.call? = some call → call.releases = false) :
    last.workers[run]? = some worker ∧ worker.next last.board = .held ∧
      (∀ id, (last.board.monitor id).status = (scene.board.monitor id).status) ∧
      (∀ turn ∈ future, turn.IsIdle) ∧ deedsOf run future = [] := by
  induction later with
  | begin => exact ⟨found, held, fun _ => rfl, by simp, rfl⟩
  | turn more acted ih =>
      obtain ⟨found, held, statuses, idle, still⟩ :=
        ih fun turn member => binding turn (List.mem_append_left _ member)
      obtain ⟨found', held', statuses', idle', still'⟩ :=
        (plays.append more).sound.held_turn found held acted
          (binding _ (List.mem_append_right _ (List.mem_singleton.mpr rfl)))
      refine ⟨found', held', fun id => (statuses' id).trans (statuses id), ?_, ?_⟩
      · intro turn member
        rcases List.mem_append.mp member with member | member
        · exact idle turn member
        · exact List.mem_singleton.mp member ▸ idle'
      · rw [deedsOf_concat still', still]

omit [Scalar α] in
/-- The look-free part of an agenda bounds what a paused worker does. -/
theorem Worker.outlook_le {feat : Feat} (spaced : Spaced feat worker.agenda) :
    worker.outlook feat ≤ 1 := by
  unfold outlook
  split
  · exact Nat.zero_le 1
  · obtain ⟨front, split⟩ := ahead_suffix worker.agenda
    rw [← split] at spaced
    exact spaced.of_suffix.exposure_le

variable {position : Nat} {now : Instant}

/-- A pause that is taken is requested on the board. -/
theorem Scene.board_of_pause (pauses : scene.calls[position]? = some .pause)
    (running : scene.board.run = .running)
    (acted : scene.act? (.access position now) = some next) :
    next.board = { scene.board with run := .paused }.requestPause ∧
      next.workers = scene.workers := by
  have shown : (scene.board.run == .running) = true := by
    rw [running]
    rfl
  simp only [act?, pauses, Call.step, shown, if_true] at acted
  cases acted
  exact ⟨rfl, rfl⟩

variable {sequence : Sequence} {pollInterval : Duration}

/-- How a run heeds a pause until a call releases it. Its worker does at most one more access,
evaluation, step without nested steps and unit of work, and apart from the looks of a delay whose end
is ahead it has a bounded number of steps left; if no abort was requested it passes no safe point. So
it comes to its end or is held, and while it is held the run shows as paused and nothing happens to
its steps. -/
theorem pause_is_heeded (accepted : Sequencer.ofSequence sequence pollInterval = .ok sequencer)
    (plays : sequencer.scene.Plays past scene) (current : scene.IsCurrent run)
    (pauses : scene.calls[position]? = some .pause) (running : scene.board.run = .running)
    (acted : scene.act? (.access position now) = some next) :
    ∃ bound, ∀ future last, next.Plays future last →
      (∀ turn ∈ future, ∀ call, turn.call? = some call → call.releases = false) →
      (∀ feat, featsIn feat (deedsOf run future) ≤ 1) ∧
      (deedsOf run future).length ≤ bound + 3 * (deedsOf run future).countP Deed.isEarly ∧
      (scene.board.control.aborted = false →
        ∀ deed ∈ deedsOf run future, deed.task ≠ .safePoint) ∧
      ∃ worker, last.workers[run]? = some worker ∧
        ((worker.agenda = [] ∧ ∃ report, worker.report = some report) ∨
          worker.next last.board = .held ∨
          ∃ reply, (last.act? (.work run reply)).isSome = true) ∧
        (worker.next last.board = .held → ∀ more final, last.Plays more final →
          (∀ turn ∈ more, ∀ call, turn.call? = some call → call.releases = false) →
          final.workers[run]? = some worker ∧ worker.next final.board = .held ∧
            final.board.run = .paused ∧
            (∀ id, (final.board.monitor id).status = (last.board.monitor id).status) ∧
            (∀ turn ∈ more, turn.IsIdle) ∧ deedsOf run more = []) := by
  obtain ⟨board, workers⟩ := Scene.board_of_pause pauses running acted
  have playsNext := plays.turn acted
  have inBounds : run < next.workers.length := by
    rw [workers, ← current.1]
    exact Nat.lt_succ_self run
  have found : next.workers[run]? = some next.workers[run] := List.getElem?_eq_getElem inBounds
  obtain ⟨runId, first, view, followed, -⟩ := playsNext.sound.follows found
  have steady := followed.isSteady
  have plain : Worker.ArePlain (Worker.ahead next.workers[run].agenda) :=
    followed.life.arePlain_ahead nofun
      (by simp [Sequencer.worker, Worker.ofSteps, Worker.ahead, Task.isLook])
  have paused : next.board.control.paused = true := by rw [board]; rfl
  refine ⟨next.workers[run].distance, fun future last later binding => ?_⟩
  obtain ⟨worker, view', accompanied⟩ := playsNext.accompanied later binding
    (⟨found, .begin, fun _ => rfl⟩ :
      Accompanied (fun call => call.releases = false) _ next.board [] next run _ next.board)
  rw [List.nil_append] at accompanied
  obtain ⟨_, _, after⟩ := playsNext.followed later followed.restart
  cases accompanied.found.symm.trans after.found
  have keeps : ∀ {now after : Board}, now.Amid (fun call => call.releases = false) after →
      now.control.paused = true → after.control.paused = true :=
    fun amid => amid.paused fun _ => id
  refine ⟨fun feat => ?_, ?_, fun free => ?_, worker, accompanied.found, ?_,
    fun held more final last_ binding' => ?_⟩
  · have used : featsIn feat (deedsOf run future) + worker.outlook feat ≤ _ :=
      accompanied.life.feats_add_outlook_le steady plain keeps paused
    have small := Worker.outlook_le (followed.spaced feat)
    omega
  · have used := accompanied.life.length_add_distance_le steady plain keeps paused
    omega
  · have blocks : next.board.control.blocks = true := by
      rw [board]
      exact Bool.and_eq_true_iff.mpr ⟨rfl, by simp [free, Board.requestPause]⟩
    exact (accompanied.life.ne_safePoint steady (fun amid => amid.blocks fun _ => id) blocks).2
  · by_cases done : worker.agenda = []
    · obtain ⟨report, reported, -⟩ := after.report_of_done done
      exact .inl ⟨done, report, reported⟩
    · by_cases held : worker.next last.board = .held
      · exact .inr (.inl held)
      · exact .inr (.inr (after.exists_act? held done))
  · have playsLast := playsNext.append later
    obtain ⟨found', held', statuses, idle, still⟩ :=
      playsLast.held accompanied.found held last_ binding'
    have playsFinal := playsLast.append last_
    obtain ⟨-, blocked⟩ := Worker.next_eq_held.mp held'
    have shown : final.board.control.paused = true := (Bool.and_eq_true_iff.mp blocked).1
    have active := (playsFinal.sound.current_of_held found' held').2
    exact ⟨found', held', (playsFinal.showsPause accepted active).mp shown, statuses, idle, still⟩

/-- Whether a turn is no access of a call that releases. -/
def Turn.isBinding (turn : Turn α) : Bool :=
  match turn.call? with
  | some call => !call.releases
  | none => true

omit [Scalar α] in
theorem Turn.releases_eq_false {turn : Turn α} (binding : turn.isBinding = true) (call : Call)
    (accesses : turn.call? = some call) : call.releases = false := by
  simpa [isBinding, accesses] using binding

/-- A pause within the first of two notes: the run is held before the second one, and goes on to be
held while somebody asks for its progress. -/
theorem pause_within_first_note_is_heeded :
    ∃ (future more : List (Turn Float)) (last final : Scene Float) (worker : Worker Float),
      last.workers[0]? = some worker ∧ worker.next last.board = .held ∧
        featsIn .unit (deedsOf 0 future) ≤ 1 ∧ last.Plays more final ∧
        final.workers[0]? = some worker ∧ worker.next final.board = .held ∧
        final.board.run = .paused ∧ deedsOf 0 more = [] := by
  have rehearsed : Scene.rehearseAround (α := Float)
      ⟨none, [.comment "first", .comment "second"]⟩ ⟨2000000⟩
      (.execute "run" :: (List.replicate 2 (Act.work 0 none) ++ [Act.work 0 (some (.told 0))] ++
        List.replicate 4 (Act.work 0 none) ++ [Act.invoke .pause]))
      (.access 0 0) (List.replicate 9 (.work 0 none))
      (fun scene next future last =>
        scene.workers.length == 1 && scene.board.run == .running &&
        (scene.calls[0]?).any Call.isPause &&
        future.all Turn.isBinding && last.workers.all (Worker.isHeld last.board) &&
        (last.play [.invoke .progress, .access 1 0, .access 0 0]).any fun played =>
          played.1.all Turn.isBinding) = true := by
    with_unfolding_all decide
  obtain ⟨_, past, scene, next, future, last, accepted, plays, acted, later, test⟩ :=
    Scene.exists_of_rehearseAround rehearsed
  simp only [Bool.and_eq_true, List.all_eq_true] at test
  obtain ⟨⟨⟨⟨⟨one, shows⟩, calls⟩, binding⟩, held⟩, goesOn⟩ := test
  have running := RunState.eq_of_beq shows
  have current : scene.IsCurrent 0 := ⟨(eq_of_beq one).symm, by rw [running]; rfl⟩
  obtain ⟨call, pauses, isPause⟩ := (Option.any_eq_true _ _).mp calls
  obtain rfl := Call.isPause_iff.mp isPause
  obtain ⟨_, heeds⟩ := pause_is_heeded accepted plays current pauses running acted
  obtain ⟨feats, -, -, worker, found, -, still⟩ :=
    heeds future last later fun turn member => turn.releases_eq_false (binding turn member)
  have stops := Worker.isHeld_iff.mp (held worker (List.mem_of_getElem? found))
  obtain ⟨⟨more, final⟩, played, goesOn⟩ := (Option.any_eq_true _ _).mp goesOn
  rw [List.all_eq_true] at goesOn
  have goes := Scene.plays_of_play played
  obtain ⟨found', held', paused, -, -, nothing⟩ :=
    still stops more final goes fun turn member => turn.releases_eq_false (goesOn turn member)
  exact ⟨future, more, last, final, worker, found, stops, feats .unit, goes, found', held',
    paused, nothing⟩

end Plays

end Scan
