import Scan.Proofs.Latches
import Scan.Proofs.Occurrences
import Scan.Proofs.Waiting

/-!
# Requests to skip a step

A request to skip looks for the innermost step, asks its monitor and passes the request on, and
anything may happen in between. It is accepted only if the step that it has found can be skipped and
is running when it is asked. Whatever happens after that, no other wait is cut short than the one of
this step.
-/

namespace Scan

variable {α : Type}

/-! ## The accesses of a call -/

/-- The turns at which a call in progress makes its accesses, until it comes back. -/
def accessesOf (position : Nat) : List (Turn α) → List (Turn α)
  | [] => []
  | turn :: rest =>
      match turn.rest? position with
      | some (.result _) => [turn]
      | some (.more _) => turn :: accessesOf (turn.place position) rest
      | none => accessesOf (turn.place position) rest

theorem Turn.call?_of_rest? {turn : Turn α} {position : Nat} {rest : Call.Rest}
    (makes : turn.rest? position = some rest) : turn.call? = turn.scene.calls[position]? := by
  obtain ⟨scene, act⟩ := turn
  cases act with
  | access other now =>
      simp only [rest?] at makes
      split at makes
      · rename_i same
        rw [call?, same]
      · cases makes
  | _ => cases makes

/-- Whether an access of a request to skip only finds something out. -/
def Call.isAsking : Call → Bool
  | .skip | .skipInnermost | .skipTest _ => true
  | _ => false

theorem Call.board_of_isAsking {call : Call} (asking : call.isAsking = true) (totalWork : UInt64)
    (now : Instant) (board : Board) : (call.step totalWork now board).1 = board := by
  cases call with
  | skip | skipInnermost | skipTest =>
      simp only [step]
      split <;> rfl
  | _ => cases asking

namespace Scene

variable [Scalar α] {sequencer : Sequencer α} {past future first second : List (Turn α)}
variable {start scene next last : Scene α} {act : Act α} {position : Nat} {call : Call}
variable {result : CallResult}

/-- A play can be cut in two. -/
theorem Plays.exists_of_append (plays : start.Plays (first ++ second) last) :
    ∃ middle, start.Plays first middle ∧ middle.Plays second last := by
  induction second using List.reverseRecOn generalizing last with
  | nil => exact ⟨last, by simpa using plays, .begin⟩
  | append_singleton second final ih =>
      rw [← List.append_assoc] at plays
      obtain ⟨plays, ends⟩ := plays.exists_of_concat
      obtain ⟨middle, before, after⟩ := ih plays
      exact ⟨middle, before, .turn after ends⟩

/-- A call that comes back makes an access next. Then it is done, or it goes on from there. -/
theorem Plays.exists_access (later : scene.Plays future last)
    (found : scene.calls[position]? = some call)
    (answered : answer? position future = some result) :
    ∃ before turn behind next now, future = before ++ turn :: behind ∧
      scene.Plays before turn.scene ∧ turn.call? = some call ∧
      turn.scene.act? turn.act = some next ∧ next.Plays behind last ∧
      ((call.step turn.scene.sequencer.totalWork now turn.scene.board).2 = .result result ∧
          accessesOf position future = [turn] ∨
        ∃ other place,
          (call.step turn.scene.sequencer.totalWork now turn.scene.board).2 = .more other ∧
          next.calls[place]? = some other ∧ answer? place behind = some result ∧
          accessesOf position future = turn :: accessesOf place behind) := by
  induction future generalizing scene position with
  | nil => cases answered
  | cons turn future ih =>
      obtain ⟨rfl, next, acted, more⟩ := later.exists_of_cons
      rw [answer?] at answered
      cases makes : turn.rest? position with
      | none =>
          rw [makes] at answered
          obtain ⟨before, own, behind, after, now, rfl, plays, calls, acts, goesOn, outcome⟩ :=
            ih more (calls_of_act? acted found makes) answered
          refine ⟨turn :: before, own, behind, after, now, rfl,
            (Plays.turn .begin acted).append plays, calls, acts, goesOn, ?_⟩
          rwa [accessesOf, makes]
      | some rest =>
          rw [makes] at answered
          obtain ⟨now, stepped, goesOn⟩ := exists_of_rest? acted found makes
          refine ⟨[], turn, future, next, now, rfl, .begin,
            (Turn.call?_of_rest? makes).trans found, acted, more, ?_⟩
          rw [accessesOf, makes, stepped]
          cases rest with
          | result own =>
              cases answered
              exact .inl ⟨rfl, rfl⟩
          | more other => exact .inr ⟨other, _, rfl, goesOn other rfl, answered, rfl⟩

/-- What an access leaves as it is, and what it does to the board. -/
theorem exists_of_call? (acted : scene.act? act = some next)
    (calls : (⟨scene, act⟩ : Turn α).call? = some call) :
    ∃ now, next.sequencer =
        scene.sequencer.withBoard (call.step scene.sequencer.totalWork now scene.board).1 ∧
      next.workers = scene.workers := by
  cases act with
  | access position now =>
      have found : scene.calls[position]? = some call := calls
      refine ⟨now, ?_⟩
      simp only [act?, found] at acted
      split at acted <;> rename_i stepped <;> cases acted <;> rw [stepped] <;> exact ⟨rfl, rfl⟩
  | _ => cases calls

/-- A call in progress was so before, or it begins, or it is what is left of one that has made an
access. -/
theorem mem_calls_of_act? (acted : scene.act? act = some next) (member : call ∈ next.calls) :
    call ∈ scene.calls ∨ call.isEntry = true ∨
      ∃ caller now, (⟨scene, act⟩ : Turn α).call? = some caller ∧ caller ∈ scene.calls ∧
        (caller.step scene.sequencer.totalWork now scene.board).2 = .more call := by
  cases act with
  | access position now =>
      simp only [act?] at acted
      cases found : scene.calls[position]? with
      | none => simp [found] at acted
      | some caller =>
          simp only [found] at acted
          split at acted <;> rename_i stepped <;> cases acted
          · rcases List.mem_or_eq_of_mem_set member with old | rfl
            · exact .inl old
            · exact .inr (.inr ⟨caller, now, found, List.mem_of_getElem? found, by rw [stepped]⟩)
          · exact .inl (List.mem_of_mem_eraseIdx member)
  | invoke entry =>
      simp only [act?] at acted
      split at acted <;> cases acted
      rename_i begins
      rcases List.mem_append.mp member with old | new
      · exact .inl old
      · exact .inr (.inl (List.mem_singleton.mp new ▸ begins))
  | work run reply =>
      obtain ⟨_, _, _, _, _, rfl⟩ := exists_of_work acted
      exact .inl member
  | execute runId =>
      simp only [act?, Sequencer.beginRun] at acted
      cases taken : scene.sequencer.isTaken <;> simp only [taken] at acted <;> cases acted <;>
        exact .inl member
  | simulate =>
      simp only [act?, Sequencer.beginSimulation] at acted
      cases taken : scene.sequencer.isTaken <;> simp only [taken] at acted <;> cases acted <;>
        exact .inl member
  | conclude ended =>
      simp only [act?] at acted
      split at acted <;> cases acted
      exact .inl member
  | subscribe | unsubscribe | collect =>
      cases acted
      exact .inl member

end Scene

/-! ## Accepted requests -/

/-- An access at which a request to skip finds a step of a run as the innermost one. -/
structure Turn.Finds (look : Turn α) (before : List (Turn α)) (run : Nat) (frame : Frame α) :
    Prop where
  looks : look.call? = some .skipInnermost
  reached : look.scene.board.innermost? = some frame.1
  current : look.scene.IsCurrent run
  innermost : (framesOf (deedsOf run before)).head? = some frame

/-- An access at which a request to skip a step finds it running and one that can be skipped, which
is so for steps that wait and have no other steps nested in them. -/
structure Turn.Accepts (test : Turn α) (frame : Frame α) : Prop where
  tests : test.call? = some (.skipTest frame.1)
  running : (test.scene.board.monitor frame.1).status = .running
  waits : frame.2.isSkippable = true
  leaf : frame.2.isComposite = false

/-- The accesses of a request to skip a step of a run that was accepted in some turns: it found the
step, the step accepted it, and it was passed on. -/
inductive Skips (turns : List (Turn α)) (run : Nat) (frame : Frame α) : List (Turn α) → Prop where
  | intro {before between behind after : List (Turn α)} {look test record : Turn α}
      (split : turns = before ++ look :: (between ++ test :: (behind ++ record :: after)))
      (finds : look.Finds before run frame) (accepts : test.Accepts frame)
      (records : record.call? = some (.skipRecord frame.1)) :
      Skips turns run frame [look, test, record]

/-- Whether a request to skip a step of a run was accepted in some turns. -/
def HasSkipped (turns : List (Turn α)) (run : Nat) (frame : Frame α) : Prop :=
  ∃ accesses, Skips turns run frame accesses

theorem Skips.mono {turns accesses : List (Turn α)} {run : Nat} {frame : Frame α}
    (skips : Skips turns run frame accesses) (more : List (Turn α)) :
    Skips (turns ++ more) run frame accesses := by
  cases skips with
  | @intro before between behind after _ _ _ split finds accepts records =>
      have whole := congrArg (· ++ more) split
      simp only [List.append_assoc, List.cons_append] at whole
      exact .intro whole finds accepts records

theorem HasSkipped.mono {turns : List (Turn α)} {run : Nat} {frame : Frame α}
    (skipped : HasSkipped turns run frame) (more : List (Turn α)) :
    HasSkipped (turns ++ more) run frame :=
  skipped.imp fun _ skips => skips.mono more

theorem Command.not_isComposite_of_isSkippable {command : Command α}
    (waits : command.isSkippable = true) : command.isComposite = false := by
  cases command with
  | loop | group => cases waits
  | _ => rfl

namespace Scene

variable [Scalar α] {sequencer : Sequencer α} {past future : List (Turn α)}
variable {scene next last : Scene α} {act : Act α} {position run : Nat} {call : Call}
variable {result : CallResult} {look test : Turn α} {before between : List (Turn α)}
variable {frame : Frame α}

/-- What is found as the innermost step is the innermost one of the run in progress. -/
theorem Plays.exists_finds (plays : sequencer.scene.Plays past look.scene)
    (fresh : sequencer.board = {}) (looks : look.call? = some .skipInnermost) {id : Nat}
    (reached : look.scene.board.innermost? = some id) :
    ∃ run command, look.Finds past run (id, command) := by
  have busy : look.scene.board.active ≠ [] := by
    intro nobody
    simp [Board.innermost?, nobody] at reached
  have active : look.scene.board.run.isActive = true := by
    by_contra inactive
    exact busy (plays.nothing_shown fresh (Bool.eq_false_iff.mpr inactive)).2
  have current : look.scene.IsCurrent (look.scene.workers.length - 1) := by
    refine ⟨Nat.sub_add_cancel (List.length_pos_iff.mpr fun none => ?_), active⟩
    exact busy ((plays.isTidy fresh).bare none)
  obtain ⟨_, -, nests⟩ := plays.exists_nests fresh current
  have shown := reached
  rw [Board.innermost?, nests.active, List.append_nil, List.head?_map] at shown
  obtain ⟨⟨_, command⟩, innermost, rfl⟩ := Option.map_eq_some_iff.mp shown
  exact ⟨_, command, looks, reached, current, innermost⟩

/-- Nobody changes what a monitor shows for good. -/
theorem Plays.keeps_faces (plays : sequencer.scene.Plays past scene)
    (later : scene.Plays future last) : scene.board.Keeps last.board := by
  induction later with
  | begin => exact .refl _
  | turn more acted ih => exact ih.trans (keeps_faces_of_act? (plays.append more).sound acted)

/-- A step that was found can be skipped if its monitor says so later on. -/
theorem Plays.accepts (plays : sequencer.scene.Plays (before ++ look :: between) test.scene)
    (finds : look.Finds before run frame) (tests : test.call? = some (.skipTest frame.1))
    (accepts : (test.scene.board.monitor frame.1).acceptsSkip = true) : test.Accepts frame := by
  obtain ⟨middle, begins, more⟩ := plays.exists_of_append
  have displays := begins.displaysSteps.entered (List.mem_of_mem_head? finds.innermost)
  have shows := (displays.of_keeps (begins.keeps_faces more)).face.2
  obtain ⟨skippable, running⟩ := Monitor.acceptsSkip_iff.mp accepts
  have waits : frame.2.isSkippable = true := (congrArg Prod.snd shows).symm.trans skippable
  exact ⟨tests, running, waits, Command.not_isComposite_of_isSkippable waits⟩

/-- A request that is passed on is accepted by then. -/
theorem Plays.records_skip {id : Nat} (later : scene.Plays future last)
    (found : scene.calls[position]? = some (.skipRecord id))
    (answered : answer? position future = some result) :
    result = .skipped true ∧ ∃ before record behind, future = before ++ record :: behind ∧
      record.call? = some (.skipRecord id) ∧ accessesOf position future = [record] := by
  obtain ⟨before, record, behind, -, now, split, -, records, -, -,
    ⟨own, only⟩ | ⟨_, _, goesOn, -⟩⟩ :=
    later.exists_access found answered
  · cases own
    exact ⟨rfl, before, record, behind, split, records, only⟩
  · cases goesOn

/-- A request that has found a step asks whether it can be skipped, and is then passed on or given
up. -/
theorem Plays.tests_skip (plays : sequencer.scene.Plays (before ++ look :: between) scene)
    (finds : look.Finds before run frame) (later : scene.Plays future last)
    (found : scene.calls[position]? = some (.skipTest frame.1))
    (answered : answer? position future = some result) :
    (result = .skipped true ∧ ∃ test record, accessesOf position future = [test, record] ∧
        Skips (before ++ look :: (between ++ future)) run frame [look, test, record]) ∨
      result = .skipped false ∧ ∃ test, accessesOf position future = [test] ∧
        test.call? = some (.skipTest frame.1) := by
  obtain ⟨waits, test, behind, next, now, rfl, begins, tests, acted, more, outcome⟩ :=
    later.exists_access found answered
  cases accepts : (test.scene.board.monitor frame.1).acceptsSkip with
  | false =>
      rcases outcome with ⟨own, only⟩ | ⟨_, _, goesOn, -⟩
      · simp only [Call.step, accepts, Bool.false_eq_true, if_false] at own
        cases own
        exact .inr ⟨rfl, test, only, tests⟩
      · simp [Call.step, accepts] at goesOn
  | true =>
      rcases outcome with ⟨own, -⟩ | ⟨_, place, goesOn, found, answered, accesses⟩
      · simp [Call.step, accepts] at own
      · simp only [Call.step, accepts, if_true] at goesOn
        cases goesOn
        obtain ⟨rfl, waits', record, behind, rfl, records, only⟩ := more.records_skip found answered
        have way := plays.append begins
        rw [List.append_assoc, List.cons_append] at way
        refine .inl ⟨rfl, test, record, accesses.trans (only ▸ rfl), ?_⟩
        rw [← List.append_assoc]
        exact .intro rfl finds (way.accepts finds tests accepts) records

/-- A request looks for the innermost step, and is given up if there is none. -/
theorem Plays.looks_for_skip (plays : sequencer.scene.Plays past scene)
    (fresh : sequencer.board = {}) (later : scene.Plays future last)
    (found : scene.calls[position]? = some .skipInnermost)
    (answered : answer? position future = some result) :
    (result = .skipped true ∧
        ∃ run frame, Skips (past ++ future) run frame (accessesOf position future)) ∨
      result = .skipped false ∧ ∀ turn ∈ accessesOf position future,
        ∃ call, turn.call? = some call ∧ call.isAsking = true := by
  obtain ⟨waits, look, behind, next, now, rfl, begins, looks, acted, more, outcome⟩ :=
    later.exists_access found answered
  cases reached : look.scene.board.innermost? with
  | none =>
      rcases outcome with ⟨own, only⟩ | ⟨_, _, goesOn, -⟩
      · simp only [Call.step, reached] at own
        cases own
        exact .inr ⟨rfl, only ▸ List.forall_mem_singleton.mpr ⟨_, looks, rfl⟩⟩
      · simp [Call.step, reached] at goesOn
  | some id =>
      rcases outcome with ⟨own, -⟩ | ⟨_, place, goesOn, found, answered, accesses⟩
      · simp [Call.step, reached] at own
      · simp only [Call.step, reached] at goesOn
        cases goesOn
        have way := plays.append begins
        obtain ⟨run, command, finds⟩ := way.exists_finds fresh looks reached
        have here : sequencer.scene.Plays (past ++ waits ++ look :: []) next := .turn way acted
        rw [accesses, ← List.append_assoc]
        rcases here.tests_skip finds more found answered with
          ⟨rfl, test, record, only, skips⟩ | ⟨rfl, test, only, tests⟩
        · exact .inl ⟨rfl, run, (id, command), only ▸ skips⟩
        · refine .inr ⟨rfl, only ▸ List.forall_mem_cons.mpr ⟨⟨_, looks, rfl⟩, ?_⟩⟩
          exact List.forall_mem_singleton.mpr ⟨_, tests, rfl⟩

/-- What comes of a request to skip a step, from its first access on. It is accepted by the step
that it has found, or else it only finds something out. -/
theorem Plays.skips_or_only_asks (plays : sequencer.scene.Plays past scene)
    (fresh : sequencer.board = {}) (later : scene.Plays future last)
    (found : scene.calls[position]? = some .skip)
    (answered : answer? position future = some result) :
    (result = .skipped true ∧ ∃ entry run frame accesses,
        accessesOf position future = entry :: accesses ∧ entry.call? = some .skip ∧
        entry.scene.board.run.isActive = true ∧ Skips (past ++ future) run frame accesses) ∨
      result = .skipped false ∧ ∀ turn ∈ accessesOf position future,
        ∃ call, turn.call? = some call ∧ call.isAsking = true := by
  obtain ⟨waits, entry, behind, next, now, rfl, begins, enters, acted, more, outcome⟩ :=
    later.exists_access found answered
  cases active : entry.scene.board.run.isActive with
  | false =>
      rcases outcome with ⟨own, only⟩ | ⟨_, _, goesOn, -⟩
      · simp only [Call.step, active, Bool.false_eq_true, if_false] at own
        cases own
        exact .inr ⟨rfl, only ▸ List.forall_mem_singleton.mpr ⟨_, enters, rfl⟩⟩
      · simp [Call.step, active] at goesOn
  | true =>
      rcases outcome with ⟨own, -⟩ | ⟨_, place, goesOn, found, answered, accesses⟩
      · simp [Call.step, active] at own
      · simp only [Call.step, active, if_true] at goesOn
        cases goesOn
        have here : sequencer.scene.Plays (past ++ waits ++ entry :: []) next :=
          .turn (plays.append begins) acted
        rw [accesses]
        rcases here.looks_for_skip fresh more found answered with
          ⟨rfl, run, frame, skips⟩ | ⟨rfl, asks⟩
        · refine .inl ⟨rfl, entry, run, frame, _, rfl, enters, active, ?_⟩
          simpa only [List.append_assoc, List.cons_append, List.nil_append] using skips
        · exact .inr ⟨rfl, List.forall_mem_cons.mpr ⟨⟨_, enters, rfl⟩, asks⟩⟩

end Scene

/-! ## Whose wait is cut short -/

/-- A worker asks to skip nothing. -/
theorem Worker.Outcome.isUnskipped [Scalar α] {board after : Board} {worker next : Worker α}
    {task : Task α} {rest : List (Task α)} {reply : Option (Reply α)} {id : Nat}
    (outcome : Outcome board worker task rest reply after next)
    (unskipped : (board.monitor id).IsUnskipped) : (after.monitor id).IsUnskipped := by
  have due : ∀ {more : List (Task α)}, task.Spawns board worker reply after more →
      (after.monitor id).IsUnskipped := fun spawns =>
    Task.keeps_of_spawns Monitor.IsUnskipped (fun _ => .of_isNew)
      (fun _ status own => own.advance status)
      (fun _ _ _ own => own.installLatch) (fun _ _ _ _ own => ⟨own.pending, own.latched⟩)
      (fun _ own => ⟨own.pending, own.latched⟩) (fun _ own => ⟨own.pending, own.latched⟩)
      spawns unskipped
  cases outcome with
  | sound _ spawns | cleaning _ _ spawns => exact due spawns
  | broken => exact unskipped

/-- What a request to skip a step has found out, in the turns so far. -/
def Call.IsBacked (past : List (Turn α)) : Call → Prop
  | .skipTest id => ∃ run command before look between, past = before ++ look :: between ∧
      look.Finds before run (id, command)
  | .skipRecord id => ∃ run command before look between test behind,
      past = before ++ look :: (between ++ test :: behind) ∧ look.Finds before run (id, command) ∧
        test.Accepts (id, command)
  | _ => True

theorem Call.IsBacked.mono {call : Call} {past : List (Turn α)} (backed : call.IsBacked past)
    (more : List (Turn α)) : call.IsBacked (past ++ more) := by
  cases call with
  | skipTest id =>
      obtain ⟨run, command, before, look, between, rfl, finds⟩ := backed
      exact ⟨run, command, before, look, between ++ more, by simp, finds⟩
  | skipRecord id =>
      obtain ⟨run, command, before, look, between, test, behind, rfl, finds, accepts⟩ := backed
      exact ⟨run, command, before, look, between, test, behind ++ more, by simp, finds, accepts⟩
  | _ => trivial

namespace Scene

variable [Scalar α] {sequencer : Sequencer α} {past future : List (Turn α)}
variable {scene next last : Scene α} {act : Act α} {run id : Nat} {frame : Frame α}

/-- Every request in progress has found out what it goes on with. -/
theorem Plays.isBacked (plays : sequencer.scene.Plays past scene) (fresh : sequencer.board = {}) :
    ∀ call ∈ scene.calls, call.IsBacked past := by
  induction plays with
  | begin => exact List.forall_mem_nil _
  | @turn past scene next act plays acted ih =>
      intro call member
      rcases mem_calls_of_act? acted member with old | begins | ⟨caller, now, calls, old, stepped⟩
      · exact (ih call old).mono _
      · cases call <;> trivial
      · cases caller with
        | skipInnermost =>
            cases reached : scene.board.innermost? with
            | none => simp [Call.step, reached] at stepped
            | some id =>
                simp only [Call.step, reached] at stepped
                cases stepped
                have here : sequencer.scene.Plays past (⟨scene, act⟩ : Turn α).scene := plays
                obtain ⟨run, command, finds⟩ := here.exists_finds fresh calls reached
                exact ⟨run, command, past, _, [], rfl, finds⟩
        | skipTest id =>
            cases accepts : (scene.board.monitor id).acceptsSkip with
            | false => simp [Call.step, accepts] at stepped
            | true =>
                simp only [Call.step, accepts, if_true] at stepped
                cases stepped
                obtain ⟨run, command, before, look, between, rfl, finds⟩ := ih _ old
                have here : sequencer.scene.Plays (before ++ look :: between)
                    (⟨scene, act⟩ : Turn α).scene := plays
                exact ⟨run, command, before, look, between, ⟨scene, act⟩, [], by simp, finds,
                  here.accepts finds calls accepts⟩
        | _ =>
            simp only [Call.step] at stepped
            (try split at stepped) <;> cases stepped <;> trivial

/-- A request that is passed on was accepted. -/
theorem Plays.hasSkipped_of_record (plays : sequencer.scene.Plays past scene)
    (fresh : sequencer.board = {})
    (records : (⟨scene, act⟩ : Turn α).call? = some (.skipRecord id)) :
    ∃ run command, HasSkipped (past ++ [⟨scene, act⟩]) run (id, command) := by
  have member : .skipRecord id ∈ scene.calls := by
    cases act with
    | access position now => exact List.mem_of_getElem? records
    | _ => cases records
  obtain ⟨run, command, before, look, between, test, behind, rfl, finds, accepts⟩ :=
    plays.isBacked fresh _ member
  have split : before ++ look :: (between ++ test :: behind) ++ [⟨scene, act⟩] =
      before ++ look :: (between ++ test :: (behind ++ ⟨scene, act⟩ :: [])) := by simp
  exact ⟨run, command, _, .intro split finds accepts records⟩

/-- Nobody has asked to skip a step, or such a request was accepted. -/
theorem Plays.isUnskipped_or (plays : sequencer.scene.Plays past scene)
    (fresh : sequencer.board = {}) (id : Nat) :
    (scene.board.monitor id).IsUnskipped ∨ ∃ run command, HasSkipped past run (id, command) := by
  induction plays with
  | begin =>
      refine .inl (.of_isNew (Board.isNew_monitor_of_ge _ ?_))
      rw [Sequencer.scene, board, fresh]
      exact Nat.zero_le _
  | @turn past scene next act plays acted ih =>
      rcases ih with unskipped | ⟨run, command, skipped⟩
      swap
      · exact .inr ⟨run, command, skipped.mono _⟩
      rcases amid_of_act? acted with ⟨runId, rfl, free, -⟩ | ⟨run, reply, rfl⟩ | ⟨-, -, amid, -⟩
      · rw [(act?_execute free acted).2]
        exact .inl unskipped
      · obtain ⟨worker, board, after, found, stepped, rfl⟩ := exists_of_work acted
        obtain ⟨_, _, _, followed, -⟩ := plays.sound.follows found
        obtain ⟨task, rest, agenda, -⟩ := Worker.step?_cases stepped
        have outcome := Worker.outcome_of_step? followed.isSteady agenda stepped
        exact .inl (outcome.isUnskipped unskipped)
      · generalize shown : next.board = after at amid
        cases amid with
        | aside bystander => exact .inl (bystander.monitor id ▸ unskipped)
        | @access call totalWork now calls =>
            by_cases own : call = .skipRecord id
            · subst own
              exact .inr (plays.hasSkipped_of_record fresh calls)
            · refine .inl ?_
              cases call with
              | skipRecord other =>
                  have apart : other ≠ id := fun same => own (same ▸ rfl)
                  rw [Call.step, Board.monitor_update, if_neg (fun both => apart both.1)]
                  exact unskipped
              | _ => first
                | exact unskipped
                | simp only [Call.step]
                  split <;> exact unskipped

/-- A request to skip is accepted only by a step that was started in its run. -/
theorem Plays.mem_starts_of_hasSkipped (plays : sequencer.scene.Plays past scene)
    (skipped : HasSkipped past run frame) : (run, frame) ∈ past.filterMap Turn.starts? := by
  obtain ⟨accesses, skips⟩ := skipped
  cases skips with
  | intro split finds =>
      rw [split] at plays ⊢
      obtain ⟨middle, begins, -⟩ := plays.exists_of_append
      rw [List.filterMap_append]
      exact List.mem_append_left _ (begins.mem_starts (List.mem_of_mem_head? finds.innermost))

/-- A request to skip that was accepted under the number of a step in progress was made for it. -/
theorem Plays.hasSkipped_unique (plays : sequencer.scene.Plays past scene)
    (member : frame ∈ framesOf (deedsOf run past)) {other : Nat} {command : Command α}
    (skipped : HasSkipped past other (frame.1, command)) : HasSkipped past run frame := by
  have same : (other, (frame.1, command)) = (run, frame) :=
    plays.starts_unique (plays.mem_starts_of_hasSkipped skipped) (plays.mem_starts member) rfl
  obtain ⟨rfl, pair⟩ := Prod.mk.inj same
  exact pair ▸ skipped

/-- If the wait of a step in progress is cut short, a request to skip this step was accepted. -/
theorem Plays.hasSkipped_of_isCutShort (plays : sequencer.scene.Plays past scene)
    (fresh : sequencer.board = {}) (member : frame ∈ framesOf (deedsOf run past))
    (short : (scene.board.monitor frame.1).isCutShort = true) : HasSkipped past run frame := by
  rcases plays.isUnskipped_or fresh frame.1 with unskipped | ⟨_, _, skipped⟩
  · simp [unskipped.isCutShort] at short
  · exact plays.hasSkipped_unique member skipped

end Scene

end Scan
