import Scan.Proofs.Standstill

/-!
# What calls tell

A call that pauses a run or resumes it changes the state of the run and then says so. If every such
call says what it has done before anything else happens, it is told by turns that the run is paused
and that it is resumed, and nobody says so outside of a run in progress.
-/

namespace Scan

variable {α : Type}

namespace Turn

/-- Whether a turn is one of the worker of a run. -/
def isTold (run : Nat) (turn : Turn α) : Bool :=
  match turn.act with
  | .work other _ => other == run
  | _ => false

/-- Whether a turn is one of a control call while a run is in progress. -/
def isCalled (run : Nat) (turn : Turn α) : Bool :=
  match turn.act with
  | .access .. => run + 1 == turn.scene.workers.length && turn.scene.board.run.isActive
  | _ => false

/-- Whether a call that has just changed the state of a run says so at this turn, before anything
else happens. -/
def IsAtomic (turn : Turn α) : Prop :=
  ∀ position state, turn.scene.calls[position]? = some (.announce state) →
    ∃ now, turn.act = .access position now

end Turn

/-- Whether a call has something to say. -/
def Call.announces : Call → Bool
  | .announce _ => true
  | _ => false

/-- Whether no call has anything to say, apart from the one that makes an access at a turn. -/
def Turn.isAtomic (turn : Turn α) : Bool :=
  let others := match turn.act with
    | .access position _ => turn.scene.calls.eraseIdx position
    | _ => turn.scene.calls
  others.all (!·.announces)

theorem Turn.isAtomic_eq_true {turn : Turn α} (test : turn.isAtomic = true) : turn.IsAtomic := by
  intro position state announces
  have silent : ∀ {others : List Call}, others.all (!·.announces) = true →
      .announce state ∉ others := by
    intro others test member
    exact Bool.false_ne_true (List.all_eq_true.mp test _ member)
  unfold isAtomic at test
  split at test
  · rename_i accessed now acts
    by_cases same : position = accessed
    · exact ⟨now, same ▸ acts⟩
    · exact absurd (List.mem_eraseIdx_iff_getElem?.mpr ⟨position, same, announces⟩) (silent test)
  · exact absurd (List.mem_of_getElem? announces) (silent test)

/-- Whether no call has still to say what it has done. -/
def Scene.IsQuiet (scene : Scene α) : Prop :=
  ∀ state, .announce state ∉ scene.calls

/-- The events that control calls publish in some turns while a run is in progress. -/
def calledOf (run : Nat) (turns : List (Turn α)) : List Event :=
  (turns.filter (·.isCalled run)).filterMap Turn.event?

/-- The state of a run that has been paused and resumed so many times in all. -/
def RunState.afterPauses (count : Nat) : RunState :=
  if count % 2 = 0 then .running else .paused

/-- The words that a run is paused and that it is resumed, by turns. -/
def Event.pauses (count : Nat) : List Event :=
  (List.range count).map fun index => .stateChanged (.afterPauses (index + 1))

section Turns

variable {run : Nat} {turn : Turn α}

@[simp] theorem calledOf_append (run : Nat) (first second : List (Turn α)) :
    calledOf run (first ++ second) = calledOf run first ++ calledOf run second := by
  simp [calledOf]

theorem calledOf_of_not_current (ended : ¬ turn.scene.IsCurrent run) :
    calledOf run [turn] = [] := by
  have other : turn.isCalled run = false := by
    unfold Turn.isCalled
    split
    · rw [Scene.IsCurrent] at ended
      simpa using ended
    · rfl
  simp [calledOf, other]

theorem calledOf_of_current {scene : Scene α} {position : Nat} {now : Instant}
    (current : scene.IsCurrent run) :
    calledOf run [(⟨scene, .access position now⟩ : Turn α)] =
      (⟨scene, .access position now⟩ : Turn α).event?.toList := by
  have own : (⟨scene, .access position now⟩ : Turn α).isCalled run = true := by
    rw [Scene.IsCurrent] at current
    simpa [Turn.isCalled] using current
  rw [calledOf, List.filter_cons_of_pos own, List.filter_nil, List.filterMap_cons]
  cases (⟨scene, .access position now⟩ : Turn α).event? <;> rfl

theorem Scene.IsQuiet.not_announces {scene : Scene α} (quiet : scene.IsQuiet) {position : Nat}
    {state : RunState} : scene.calls[position]? ≠ some (.announce state) :=
  fun announces => quiet state (List.mem_of_getElem? announces)

/-- Calls that have nothing to say tell nothing. -/
theorem calledOf_of_quiet {scene : Scene α} (quiet : scene.IsQuiet) (act : Act α) :
    calledOf run [(⟨scene, act⟩ : Turn α)] = [] := by
  cases act with
  | access position now =>
      have silent : (⟨scene, .access position now⟩ : Turn α).event? = none := by
        simp only [Turn.event?]
        split
        · rename_i announces
          exact absurd announces quiet.not_announces
        · rfl
      rw [calledOf, List.filter_cons]
      split <;> simp [silent]
  | _ => rfl

theorem Event.pauses_succ (count : Nat) :
    pauses (count + 1) = pauses count ++ [Event.stateChanged (.afterPauses (count + 1))] := by
  simp [pauses, List.range_succ]

example : Event.pauses 3 = [.stateChanged .paused, .stateChanged .running, .stateChanged .paused] :=
  rfl

theorem RunState.afterPauses_of_running {count : Nat} (running : afterPauses count = .running) :
    afterPauses (count + 1) = .paused := by
  have even : count % 2 = 0 := by
    simpa [afterPauses] using running
  rw [afterPauses, if_neg (by omega)]

theorem RunState.afterPauses_of_paused {count : Nat} (paused : afterPauses count = .paused) :
    afterPauses (count + 1) = .running := by
  have odd : ¬ count % 2 = 0 := by
    intro even
    simp [afterPauses, even] at paused
  rw [afterPauses, if_pos (by omega)]

end Turns

/-! ## Calls that pause and resume -/

/-- A call leaves the state of a run as it is, or it pauses a running one or resumes a paused one
and is about to say so. -/
theorem Call.step_of_quiet {call : Call} (quiet : ∀ state, call ≠ .announce state)
    (totalWork : UInt64) (now : Instant) (board : Board) :
    ((call.step totalWork now board).1.run = board.run ∧
        ∀ state, (call.step totalWork now board).2 ≠ .more (.announce state)) ∨
      ∃ state, (call.step totalWork now board).2 = .more (.announce state) ∧
        (call.step totalWork now board).1.run = state ∧
        (board.run = .running ∧ state = .paused ∨ board.run = .paused ∧ state = .running) := by
  cases call with
  | announce state => exact absurd rfl (quiet state)
  | pause =>
      simp only [step]
      split
      · rename_i running
        exact .inr ⟨.paused, rfl, rfl, .inl ⟨RunState.eq_of_beq running, rfl⟩⟩
      · exact .inl ⟨rfl, fun _ same => by cases same⟩
  | resume =>
      simp only [step]
      split
      · rename_i paused
        exact .inr ⟨.running, rfl, rfl, .inr ⟨RunState.eq_of_beq paused, rfl⟩⟩
      · exact .inl ⟨rfl, fun _ same => by cases same⟩
  | abort | skip | skipInnermost | skipTest | progressInnermost =>
      simp only [step]
      split <;> exact .inl ⟨rfl, fun _ same => by cases same⟩
  | _ => exact .inl ⟨rfl, fun _ same => by cases same⟩

/-- What a turn is for the calls that pause and resume a run, if each of them says at once what it
has done. -/
inductive Scene.Speech (scene : Scene α) (act : Act α) (next : Scene α) : Prop where
  | utters (position : Nat) (now : Instant) (state : RunState) (acts : act = .access position now)
      (announces : scene.calls[position]? = some (.announce state)) (after : next.IsQuiet)
      (same : next.board.run = scene.board.run)
  | toggles (position : Nat) (now : Instant) (state : RunState) (acts : act = .access position now)
      (before : scene.IsQuiet) (announces : next.calls[position]? = some (.announce state))
      (sets : next.board.run = state)
      (toggled : scene.board.run = .running ∧ state = .paused ∨
        scene.board.run = .paused ∧ state = .running)
  | silent (before : scene.IsQuiet) (after : next.IsQuiet)
      (same : ∀ position now, act = .access position now → next.board.run = scene.board.run)

/-- How often a run in progress has been paused and resumed, as far as that has been told; a call
that has just done so may still have to say it. -/
inductive Scene.Toggled (scene : Scene α) (count : Nat) : Prop where
  | told (quiet : scene.IsQuiet) (shows : scene.board.run = .afterPauses count)
  | untold (position : Nat)
      (announces : scene.calls[position]? = some (.announce (.afterPauses (count + 1))))
      (shows : scene.board.run = .afterPauses (count + 1))

section Called

variable [Scalar α] {sequencer : Sequencer α} {past future : List (Turn α)}
variable {scene next last : Scene α} {act : Act α} {run count position : Nat} {worker : Worker α}
variable {now : Instant}

/-- A worker that has nothing left to do makes no step. -/
theorem Worker.agenda_ne_nil_of_step? {board after : Board} {next : Worker α}
    {reply : Option (Reply α)} (stepped : worker.step? board reply = some (after, next)) :
    worker.agenda ≠ [] := by
  obtain ⟨task, rest, agenda, -⟩ := Worker.step?_cases stepped
  simp [agenda]

namespace Scene

/-- Only an access can leave something to say. -/
theorem IsQuiet.of_act? (quiet : scene.IsQuiet) (acted : scene.act? act = some next)
    (other : ∀ position now, act ≠ .access position now) : next.IsQuiet := by
  cases act with
  | access position now => exact absurd rfl (other position now)
  | work run reply =>
      obtain ⟨_, _, _, _, _, rfl⟩ := exists_of_work acted
      exact quiet
  | invoke call =>
      simp only [act?] at acted
      split at acted <;> cases acted
      rename_i entry
      intro state member
      rcases List.mem_append.mp member with member | member
      · exact quiet state member
      · rw [← List.mem_singleton.mp member] at entry
        cases entry
  | execute runId =>
      simp only [act?] at acted
      split at acted <;> cases acted <;> exact quiet
  | simulate =>
      simp only [act?] at acted
      split at acted <;> cases acted <;> exact quiet
  | conclude result =>
      simp only [act?] at acted
      split at acted <;> cases acted
      exact quiet
  | subscribe | unsubscribe | collect =>
      cases acted
      exact quiet

/-- The access of a call that has something to say leaves nothing to say. -/
theorem speech_of_announce (acted : scene.act? (.access position now) = some next)
    (atomic : (⟨scene, .access position now⟩ : Turn α).IsAtomic) {state : RunState}
    (announces : scene.calls[position]? = some (.announce state)) :
    Speech scene (.access position now) next := by
  simp only [act?, announces, Call.step] at acted
  cases acted
  refine .utters position now state rfl announces (fun state member => ?_) rfl
  obtain ⟨other, different, found⟩ := List.mem_eraseIdx_iff_getElem?.mp member
  obtain ⟨_, accesses⟩ := atomic other state found
  cases accesses
  exact different rfl

/-- The access of another call may pause the run or resume it. -/
theorem IsQuiet.speech (quiet : scene.IsQuiet)
    (acted : scene.act? (.access position now) = some next) :
    Speech scene (.access position now) next := by
  cases calls : scene.calls[position]? with
  | none => simp [act?, calls] at acted
  | some call =>
      have silent : ∀ state, call ≠ .announce state := by
        rintro state rfl
        exact quiet.not_announces calls
      have step := Call.step_of_quiet silent scene.sequencer.totalWork now scene.board
      simp only [act?, calls] at acted
      split at acted <;> rename_i board rest stepped <;> rw [stepped] at step <;> cases acted
      · rcases step with ⟨same, others⟩ | ⟨state, announces, sets, toggled⟩
        · refine .silent quiet (fun state member => ?_) fun _ _ _ => same
          rcases List.mem_or_eq_of_mem_set member with member | own
          · exact quiet state member
          · exact others state (by rw [own])
        · cases announces
          refine .toggles position now state rfl quiet ?_ sets toggled
          exact List.getElem?_set_self (List.getElem?_eq_some_iff.mp calls).1
      · rcases step with ⟨same, -⟩ | ⟨state, announces, -⟩
        · refine .silent quiet (fun state member => ?_) fun _ _ _ => same
          exact quiet state (List.mem_of_mem_eraseIdx member)
        · cases announces

/-- Every turn at which calls say at once what they have done is of one of the three kinds. -/
theorem speech_of_act? (acted : scene.act? act = some next)
    (atomic : (⟨scene, act⟩ : Turn α).IsAtomic) : Speech scene act next := by
  by_cases quiet : scene.IsQuiet
  · by_cases accesses : ∃ position now, act = .access position now
    · obtain ⟨position, now, rfl⟩ := accesses
      exact quiet.speech acted
    · have other : ∀ position now, act ≠ .access position now :=
        fun position now same => accesses ⟨position, now, same⟩
      exact .silent quiet (quiet.of_act? acted other) fun position now same =>
        absurd same (other position now)
  · simp only [IsQuiet, not_forall, not_not] at quiet
    obtain ⟨state, member⟩ := quiet
    obtain ⟨position, announces⟩ := List.mem_iff_getElem?.mp member
    obtain ⟨now, accesses⟩ := atomic position state announces
    obtain rfl : act = .access position now := accesses
    exact speech_of_announce acted atomic announces

/-- A run that is not in progress any more does not come back. -/
theorem Sound.current_of_turn (sound : Sound sequencer past scene)
    (acted : scene.act? act = some next) (begun : run < scene.workers.length)
    (current : next.IsCurrent run) : scene.IsCurrent run := by
  rcases amid_of_act? acted with
    ⟨runId, -, -, workers⟩ | ⟨other, reply, rfl⟩ | ⟨workers, -, amid, -⟩
  · have length := current.1
    rw [workers, List.length_append, List.length_singleton] at length
    omega
  · obtain ⟨length, -, -, -, same | ⟨-, inactive⟩⟩ := sound.states_of_work acted
    · exact ⟨length ▸ current.1, same ▸ current.2⟩
    · simp [current.2] at inactive
  · exact ⟨workers ▸ current.1, amid.foreign.isActive_eq ▸ current.2⟩

/-- Only an access changes the state of a run that stays in progress. -/
theorem Sound.run_of_turn (sound : Sound sequencer past scene)
    (acted : scene.act? act = some next) (other : ∀ position now, act ≠ .access position now)
    (current : scene.IsCurrent run) (still : next.IsCurrent run) :
    next.board.run = scene.board.run := by
  rcases amid_of_act? acted with
    ⟨runId, -, free, -⟩ | ⟨run, reply, rfl⟩ | ⟨-, -, amid, -⟩
  · have inactive := ((isTaken_eq_false scene).mp free).1
    simp [current.2] at inactive
  · obtain ⟨-, -, -, -, same | ⟨-, inactive⟩⟩ := sound.states_of_work acted
    · exact same
    · simp [still.2] at inactive
  · generalize next.board = board at amid ⊢
    cases amid with
    | aside bystander => exact bystander.run
    | access totalWork now accesses =>
        cases act with
        | access position now => exact absurd rfl (other position now)
        | _ => cases accesses

/-- At a turn of a run in progress it is told that the run is paused or resumed, if that has just
happened. -/
theorem Sound.toggled_turn (sound : Sound sequencer past scene)
    (acted : scene.act? act = some next) (atomic : (⟨scene, act⟩ : Turn α).IsAtomic)
    (current : scene.IsCurrent run) (toggled : scene.Toggled count) :
    ∃ now, Event.pauses now = Event.pauses count ++ calledOf run [⟨scene, act⟩] ∧
      (next.IsCurrent run → next.Toggled now) := by
  cases speech_of_act? acted atomic with
  | utters position now state acts announces after same =>
      subst acts
      cases toggled with
      | told quiet => exact absurd announces quiet.not_announces
      | untold other announces' shows =>
          obtain ⟨_, accesses⟩ := atomic other _ announces'
          cases accesses
          refine ⟨count + 1, ?_, fun _ => .told after (same.trans shows)⟩
          rw [calledOf_of_current current, Event.pauses_succ]
          simp [Turn.event?, announces']
  | toggles position now state acts before announces sets toggles =>
      subst acts
      cases toggled with
      | untold _ announces' => exact absurd announces' before.not_announces
      | told _ shows =>
          refine ⟨count, ?_, fun _ => ?_⟩
          · rw [calledOf_of_quiet before, List.append_nil]
          · have becomes : RunState.afterPauses (count + 1) = state := by
              rcases toggles with ⟨running, rfl⟩ | ⟨paused, rfl⟩
              · exact RunState.afterPauses_of_running (shows.symm.trans running)
              · exact RunState.afterPauses_of_paused (shows.symm.trans paused)
            subst becomes
            exact .untold position announces sets
  | silent before after same =>
      cases toggled with
      | untold _ announces => exact absurd announces before.not_announces
      | told _ shows =>
          refine ⟨count, ?_, fun still => .told after (Eq.trans ?_ shows)⟩
          · rw [calledOf_of_quiet before, List.append_nil]
          · by_cases accesses : ∃ position now, act = .access position now
            · obtain ⟨position, now, acts⟩ := accesses
              exact same position now acts
            · exact sound.run_of_turn acted
                (fun position now acts => accesses ⟨position, now, acts⟩) current still

/-- From the beginning of a run on it is told by turns that the run is paused and resumed. -/
theorem Plays.exists_pauses (plays : sequencer.scene.Plays past scene)
    (later : scene.Plays future last) (found : scene.workers[run]? = some worker)
    (atomic : ∀ turn ∈ future, turn.IsAtomic) (start : scene.Toggled 0) :
    ∃ count, calledOf run future = Event.pauses count ∧
      (last.IsCurrent run → last.Toggled count) := by
  obtain ⟨_, _, _, followed, -⟩ := plays.sound.follows found
  induction later with
  | begin => exact ⟨0, rfl, fun _ => start⟩
  | @turn future halfway next act more acted ih =>
      obtain ⟨count, told, toggled⟩ :=
        ih fun turn member => atomic turn (List.mem_append_left _ member)
      have sound := (plays.append more).sound
      rw [calledOf_append, told]
      by_cases current : halfway.IsCurrent run
      · obtain ⟨now, pauses, toggled'⟩ := sound.toggled_turn acted
          (atomic _ (List.mem_append_right _ (List.mem_singleton.mpr rfl))) current
          (toggled current)
        exact ⟨now, pauses.symm, toggled'⟩
      · rw [calledOf_of_not_current current, List.append_nil]
        obtain ⟨_, _, there⟩ := plays.followed more followed.restart
        have begun := (List.getElem?_eq_some_iff.mp there.found).1
        exact ⟨count, rfl, fun still => absurd (sound.current_of_turn acted begun still) current⟩

/-- A call has something to say only while a run is in progress. -/
theorem Plays.active_of_announce (later : scene.Plays future last)
    (atomic : ∀ turn ∈ future, turn.IsAtomic) (quiet : scene.IsQuiet) {state : RunState}
    (announces : last.calls[position]? = some (.announce state)) :
    last.board.run.isActive = true := by
  cases later with
  | begin => exact absurd announces quiet.not_announces
  | turn more acted =>
      have own := atomic _ (List.mem_append_right _ (List.mem_singleton.mpr rfl))
      cases speech_of_act? acted own with
      | utters _ _ _ _ _ after => exact absurd announces after.not_announces
      | silent _ after => exact absurd announces after.not_announces
      | toggles _ _ _ _ _ _ sets toggled =>
          rw [sets]
          rcases toggled with ⟨-, rfl⟩ | ⟨-, rfl⟩ <;> rfl

/-- Workers are never lost. -/
theorem Plays.length_workers_le (later : scene.Plays future last) :
    scene.workers.length ≤ last.workers.length := by
  induction later with
  | begin => exact Nat.le_refl _
  | turn more acted ih =>
      refine Nat.le_trans ih ?_
      cases change_of_act? acted with
      | begins runId free workers => simp [workers]
      | works acts found stepped changed => simp [changed]
      | others board foreign workers => simp [workers]

/-- A worker that has nothing left to do stays as it is. -/
theorem Plays.done_stays (later : scene.Plays future last)
    (found : scene.workers[run]? = some worker) (done : worker.agenda = []) :
    last.workers[run]? = some worker := by
  induction later with
  | begin => exact found
  | turn more acted there =>
      cases change_of_act? acted with
      | begins runId free workers =>
          rw [workers, List.getElem?_append_left (List.getElem?_eq_some_iff.mp there).1, there]
      | others board foreign workers => rw [workers, there]
      | works acts other stepped changed =>
          rw [changed, List.getElem?_set_ne, there]
          rintro rfl
          cases other.symm.trans there
          exact Worker.agenda_ne_nil_of_step? stepped done

/-- Every event that is published belongs to a run: its worker publishes it, which has not come to
its end before, or a call does while the run is in progress. -/
theorem Plays.exists_run_of_event (fresh : sequencer.board = {})
    (plays : sequencer.scene.Plays past scene) (later : scene.Plays future last)
    (atomic : ∀ turn ∈ future, turn.IsAtomic) (quiet : scene.IsQuiet) :
    ∀ turn ∈ future, turn.event? ≠ none → ∃ run < last.workers.length,
      turn.isTold run = true ∧
          (∀ worker, scene.workers[run]? = some worker → worker.agenda ≠ []) ∨
        turn.isCalled run = true ∧ scene.workers.length ≤ run + 1 := by
  induction later with
  | begin => exact fun _ member => absurd member List.not_mem_nil
  | @turn future halfway next act more acted ih =>
      have before : ∀ turn ∈ future, turn.IsAtomic :=
        fun turn member => atomic turn (List.mem_append_left _ member)
      have grows : halfway.workers.length ≤ next.workers.length :=
        (Plays.turn .begin acted).length_workers_le
      intro turn member publishes
      rcases List.mem_append.mp member with member | member
      · obtain ⟨run, bound, owned⟩ := ih before turn member publishes
        exact ⟨run, Nat.lt_of_lt_of_le bound grows, owned⟩
      · obtain rfl := List.mem_singleton.mp member
        cases act with
        | work run reply =>
            obtain ⟨worker, _, _, found, stepped, -⟩ := exists_of_work acted
            have bound := (List.getElem?_eq_some_iff.mp found).1
            refine ⟨run, Nat.lt_of_lt_of_le bound grows, .inl ⟨by simp [Turn.isTold], ?_⟩⟩
            intro earlier there done
            cases found.symm.trans (more.done_stays there done)
            exact Worker.agenda_ne_nil_of_step? stepped done
        | access position now =>
            simp only [Turn.event?] at publishes
            split at publishes
            · rename_i announces
              have active := more.active_of_announce before quiet announces
              have staffed := ((plays.append more).exclusive fresh).staffed active
              have latest := Nat.sub_add_cancel staffed
              refine ⟨halfway.workers.length - 1, by omega, .inr ⟨?_, ?_⟩⟩
              · rw [Turn.isCalled, active, latest]
                simp
              · rw [latest]
                exact more.length_workers_le
            · exact absurd rfl publishes
        | _ => exact absurd rfl publishes

end Scene

end Called

end Scan
