import Scan.Proofs.House

/-!
# Who has the job

Of all requests at most one has the job to itself at any moment, so what it has found out about the
job stays true until it gives it up. That is why a run is only started when all others are over, and
why the job is always the run that was started last, except for the request that is just about to
make it so.
-/

namespace Scan

/-- The number of the last of some runs. -/
def lastOf : Nat → Option Nat
  | 0 => none
  | count + 1 => some count

theorem lastOf_eq_some {count run : Nat} : lastOf count = some run ↔ run + 1 = count := by
  cases count <;> simp [lastOf, eq_comm]

/-- Whether a run has been started that is not the job yet. -/
def Duty.isInstall : Duty → Bool
  | .install .. => true
  | _ => false

theorem Job.isOver_eq_true {job : Job} : job.isOver = true ↔ job.phase = .ended := by
  unfold isOver
  split <;> simp_all

/-- A run that is over does nothing more. -/
theorem Job.Advances.isOver_eq_false {job after : Job} {lastReport report : Option RunReport}
    (advances : job.Advances lastReport after report) : job.isOver = false := by
  rw [← Bool.not_eq_true, isOver_eq_true]
  cases advances <;> simp_all

/-- What a list contributes changes in one place with its item. -/
theorem exists_filterMap_set {α β : Type} (contribution : α → Option β) {items : List α}
    {position : Nat} {item : α} (found : items[position]? = some item) (other : α) :
    ∃ front rest, items.filterMap contribution = front ++ (contribution item).toList ++ rest ∧
      (items.set position other).filterMap contribution =
        front ++ (contribution other).toList ++ rest := by
  induction items generalizing position with
  | nil => simp at found
  | cons first items ih =>
      cases position with
      | zero =>
          cases found
          refine ⟨[], items.filterMap contribution, ?_, ?_⟩
          · cases own : contribution item <;> simp [own]
          · cases own : contribution other <;> simp [own]
      | succ position =>
          obtain ⟨front, rest, before, after⟩ := ih (by simpa using found)
          refine ⟨(contribution first).toList ++ front, rest, ?_, ?_⟩
          · cases own : contribution first <;> simp [own, before]
          · cases own : contribution first <;> simp [own, after]

/-- What an item looks like is left as it is by another one that looks the same. -/
theorem map_set_of_eq {α β : Type} {look : α → β} {items : List α} {position : Nat}
    {item other : α} (found : items[position]? = some item) (same : look other = look item) :
    (items.set position other).map look = items.map look := by
  obtain ⟨inBounds, rfl⟩ := List.getElem?_eq_some_iff.mp found
  rw [List.map_set, same, ← List.getElem_map look, List.set_getElem_self]
  simpa using inBounds

namespace House

variable {house next : House} {position : Nat} {errand : Errand} {request : Request}

/-! ## Having the job to oneself -/

/-- If anyone has the job, nobody else has. -/
theorem eq_singleton_of_mem {duty : Duty} (member : duty ∈ house.duties)
    (alone : house.duties.length ≤ 1) : house.duties = [duty] := by
  cases duties : house.duties with
  | nil => simp [duties] at member
  | cons first others =>
      rw [duties, List.length_cons] at alone
      obtain rfl : others = [] := List.length_eq_zero_iff.mp (by omega)
      rw [duties, List.mem_singleton] at member
      rw [member]

/-- A request at the job is one that has it to itself. -/
theorem mem_duties {duty : Duty}
    (found : house.errands[position]? = some ⟨request, .atJob duty⟩) : duty ∈ house.duties :=
  List.mem_filterMap.mpr ⟨_, List.mem_of_getElem? found, rfl⟩

/-- Nobody had the job, and now somebody has it. -/
theorem duties_of_enters (request : Request) (duty : Duty)
    (found : house.errands[position]? = some errand) (free : house.duties = []) :
    (house.withStage position request (.atJob duty)).duties = [duty] := by
  obtain ⟨front, rest, before, after⟩ := exists_filterMap_set
    (fun errand : Errand => errand.stage.duty?) found ⟨request, .atJob duty⟩
  have nobody := before.symm.trans free
  simp only [List.append_eq_nil_iff] at nobody
  obtain ⟨⟨rfl, -⟩, rfl⟩ := nobody
  exact after

/-- The one request that has the job goes to another stage. -/
theorem duties_of_attends {after : House} {duty : Duty} (stage : Errand.Stage)
    (found : house.errands[position]? = some ⟨request, .atJob duty⟩)
    (alone : house.duties.length ≤ 1) (same : after.errands = house.errands) :
    (after.withStage position request stage).duties = stage.duty?.toList := by
  obtain ⟨front, rest, before, later⟩ := exists_filterMap_set
    (fun errand : Errand => errand.stage.duty?) found ⟨request, stage⟩
  rw [duties, before] at alone
  simp only [Errand.Stage.duty?, Option.toList_some, List.length_append,
    List.length_singleton] at alone
  obtain rfl : front = [] := List.length_eq_zero_iff.mp (by omega)
  obtain rfl : rest = [] := List.length_eq_zero_iff.mp (by omega)
  rw [duties, withStage, same]
  simpa using later

/-- A request that does not have the job is answered without it. -/
theorem duties_of_answers {after : House} {answer : Except Daemon.Refusal Json.Value}
    (found : house.errands[position]? = some errand) (away : errand.stage.duty? = none)
    (same : after.errands = house.errands) :
    (after.withStage position request (.answered answer)).duties = house.duties := by
  obtain ⟨front, rest, before, later⟩ := exists_filterMap_set
    (fun errand : Errand => errand.stage.duty?) found
    ⟨request, .answered answer⟩
  rw [duties, withStage, same, duties, later, before, away]
  rfl

theorem duties_of_receives (same : next.errands = house.errands ++ [⟨request, .received⟩]) :
    next.duties = house.duties := by
  simp [duties, same, Errand.Stage.duty?]

/-! ## Runs and the job in order -/

/-- What a request at the job relies on. -/
def Fits (house : House) : Duty → Prop
  | .start _ => ∀ job ∈ house.runs, job.isOver = true
  | .install run _ => run + 1 = house.runs.length
  | _ => True

/-- What holds of the job and its requests at any time. -/
structure Orderly (house : House) : Prop where
  alone : house.duties.length ≤ 1
  slot : house.slot = lastOf (house.runs.length - house.duties.countP Duty.isInstall)
  fits : ∀ duty ∈ house.duties, house.Fits duty
  earlier : ∀ {run : Nat} {job : Job}, house.runs[run]? = some job →
    run + 1 < house.runs.length → job.isOver = true

/-- Only the last run is not over. -/
theorem Orderly.last_of_not_isOver (orderly : house.Orderly) {run : Nat} {job : Job}
    (found : house.runs[run]? = some job) (going : job.isOver = false) :
    run + 1 = house.runs.length := by
  have inBounds := (List.getElem?_eq_some_iff.mp found).1
  rcases Nat.lt_or_ge (run + 1) house.runs.length with before | last
  · exact absurd (orderly.earlier found before) (by simp [going])
  · omega

/-- What is relied on, as far as runs are over or not. -/
theorem Fits.of_same {duty : Duty} (fits : house.Fits duty)
    (same : next.runs.map Job.isOver = house.runs.map Job.isOver) : next.Fits duty := by
  cases duty with
  | start =>
      have ended : ∀ isOver ∈ house.runs.map Job.isOver, isOver = true := by
        simpa [Fits] using fits
      rw [← same] at ended
      simpa [Fits] using ended
  | install run =>
      have length := congrArg List.length same
      rw [List.length_map, List.length_map] at length
      exact fits.trans length.symm
  | _ => trivial

/-- The order lasts if a request goes on, or gives the job up, and no run begins or ends. -/
theorem Orderly.of_same (orderly : house.Orderly)
    (same : next.runs.map Job.isOver = house.runs.map Job.isOver) (slot : next.slot = house.slot)
    (alone : next.duties.length ≤ 1)
    (installs : next.duties.countP Duty.isInstall = house.duties.countP Duty.isInstall)
    (fits : ∀ duty ∈ next.duties, house.Fits duty) : next.Orderly := by
  have length := congrArg List.length same
  rw [List.length_map, List.length_map] at length
  refine ⟨alone, ?_, fun duty member => (fits duty member).of_same same,
    fun {run job} found before => ?_⟩
  · rw [slot, orderly.slot, length, installs]
  · have isOver := congrArg (·[run]?) same
    simp only [List.getElem?_map, found, Option.map_some] at isOver
    cases old : house.runs[run]? with
    | none => simp [old] at isOver
    | some job =>
        rw [old, Option.map_some] at isOver
        rw [Option.some.inj isOver]
        exact orderly.earlier old (length ▸ before)

/-- The run that is the job is the last one, unless another one is about to take its place. -/
theorem Orderly.last_of_current? (orderly : house.Orderly)
    (settled : house.duties.countP Duty.isInstall = 0) {run : Nat} {job : Job}
    (current : house.current? = some (run, job)) :
    house.runs[run]? = some job ∧ run + 1 = house.runs.length := by
  obtain ⟨slot, found⟩ := current?_eq_some.mp current
  rw [orderly.slot, settled, Nat.sub_zero, lastOf_eq_some] at slot
  exact ⟨found, slot⟩

/-- There is no job only if no run was started. -/
theorem Orderly.runs_eq_nil (orderly : house.Orderly)
    (settled : house.duties.countP Duty.isInstall = 0) (vacant : house.current? = none) :
    house.runs = [] := by
  rcases List.eq_nil_or_concat house.runs with none | ⟨earlier, job, runs⟩
  · exact none
  · have length : house.runs.length = earlier.length + 1 := by simp [runs]
    have slot : house.slot = some earlier.length := by
      rw [orderly.slot, settled, Nat.sub_zero, length]
      rfl
    simp [current?, slot, runs] at vacant

/-! ## One move -/

section Attends

variable {now : Instant} {runId : String} {duty : Duty} {stage : Errand.Stage}

/-- The order lasts if the request at the job goes on without a run that begins or ends. -/
theorem Orderly.goesOn (orderly : house.Orderly) (duties : house.duties = [duty])
    (plain : duty.isInstall = false) (same : next.runs.map Job.isOver = house.runs.map Job.isOver)
    (slot : next.slot = house.slot) (later : next.duties = stage.duty?.toList)
    (fits : ∀ duty, stage.duty? = some duty → house.Fits duty ∧ duty.isInstall = false) :
    next.Orderly := by
  cases goal : stage.duty? with
  | none =>
      apply orderly.of_same same slot <;> simp [later, goal, duties, plain]
  | some duty =>
      obtain ⟨own, other⟩ := fits duty goal
      apply orderly.of_same same slot <;> simp [later, goal, duties, plain, own, other]

/-- A request that finds the job over relies on all runs being over. -/
theorem Orderly.attends_vet (orderly : house.Orderly) {sequence : Sequence}
    (duties : house.duties = [.vet sequence])
    (later : next.duties = (house.attend now runId (.vet sequence)).2.duty?.toList)
    (runs : next.runs = house.runs) (slot : next.slot = house.slot) : next.Orderly := by
  refine orderly.goesOn duties rfl (by rw [runs]) slot later fun duty starts => ?_
  have settled : house.duties.countP Duty.isInstall = 0 := by rw [duties]; rfl
  simp only [attend] at starts
  cases current : house.current? with
  | none =>
      simp only [current] at starts
      cases starts
      exact ⟨by simp [Fits, orderly.runs_eq_nil settled current], rfl⟩
  | some found =>
      obtain ⟨run, job⟩ := found
      obtain ⟨found, last⟩ := orderly.last_of_current? settled current
      simp only [current] at starts
      split at starts <;> cases starts
      case some.isFalse.refl => exact ⟨trivial, rfl⟩
      rename_i isOver
      refine ⟨fun other member => ?_, rfl⟩
      obtain ⟨position, found'⟩ := List.getElem?_of_mem member
      have inBounds := (List.getElem?_eq_some_iff.mp found').1
      rcases Nat.lt_or_ge (position + 1) house.runs.length with before | after
      · exact orderly.earlier found' before
      · obtain rfl : position = run := by omega
        cases found.symm.trans found'
        exact isOver

/-- A run that is started is about to be the job. -/
theorem Orderly.attends_start (orderly : house.Orderly) {sequence : Sequence}
    (duties : house.duties = [.start sequence])
    (later : next.duties = (house.attend now runId (.start sequence)).2.duty?.toList)
    (runs : next.runs = (house.attend now runId (.start sequence)).1.runs)
    (slot : next.slot = house.slot) : next.Orderly := by
  have ended : house.Fits (.start sequence) := orderly.fits _ (by simp [duties])
  have settled : house.duties.countP Duty.isInstall = 0 := by rw [duties]; rfl
  simp only [attend] at later runs
  cases compiled : (Sequencer.ofSequence sequence house.pollInterval : Except _ (Sequencer Float))
  with
  | error error =>
      simp only [compiled] at later runs
      refine orderly.goesOn duties rfl (by rw [runs]) slot later fun duty starts => ?_
      cases starts
  | ok sequencer =>
      simp only [compiled, Errand.Stage.duty?, Option.toList_some] at later runs
      refine ⟨by simp [later], ?_, fun duty member => ?_, fun {run job} found before => ?_⟩
      · rw [slot, orderly.slot, settled, runs, later]
        simp [Duty.isInstall]
      · rw [later, List.mem_singleton] at member
        subst member
        simp [Fits, runs]
      · rw [runs, List.length_append, List.length_singleton] at before
        rw [runs, List.getElem?_append_left (by omega)] at found
        exact ended job (List.mem_of_getElem? found)

/-- A control call goes on with the job, or gives it up, and no run begins or ends. -/
theorem Orderly.attends_call (orderly : house.Orderly) {call : Call}
    (duties : house.duties = [.call call])
    (later : next.duties = (house.attend now runId (.call call)).2.duty?.toList)
    (runs : next.runs = (house.attend now runId (.call call)).1.runs)
    (slot : next.slot = (house.attend now runId (.call call)).1.slot) : next.Orderly := by
  simp only [attend] at later runs slot
  cases current : house.current? with
  | none =>
      simp only [current] at later runs slot
      refine orderly.goesOn duties rfl (by rw [runs]) slot later fun duty goesOn => ?_
      cases call <;> cases goesOn
  | some found =>
      obtain ⟨run, job⟩ := found
      have settled : house.duties.countP Duty.isInstall = 0 := by rw [duties]; rfl
      obtain ⟨found, -⟩ := orderly.last_of_current? settled current
      simp only [current] at later runs slot
      refine orderly.goesOn duties rfl ?_ slot later fun duty goesOn => ?_
      · rw [runs]
        exact map_set_of_eq found rfl
      · revert goesOn
        generalize (call.step job.sequencer.totalWork now job.sequencer.board).2 = rest
        intro goesOn
        cases rest with
        | more =>
            cases goesOn
            exact ⟨trivial, rfl⟩
        | result result =>
            cases result <;> cases goesOn
            exact ⟨trivial, rfl⟩

/-- The order lasts whatever the request at the job does. -/
theorem Orderly.attends (orderly : house.Orderly) (duties : house.duties = [duty])
    (later : next.duties = (house.attend now runId duty).2.duty?.toList)
    (runs : next.runs = (house.attend now runId duty).1.runs)
    (slot : next.slot = (house.attend now runId duty).1.slot) : next.Orderly := by
  cases duty with
  | vet sequence =>
      have same : (house.attend now runId (.vet sequence)).1 = house := by
        simp only [attend]
        split <;> (try split) <;> rfl
      exact orderly.attends_vet duties later (runs.trans (by rw [same])) (slot.trans (by rw [same]))
  | start sequence =>
      have same : (house.attend now runId (.start sequence)).1.slot = house.slot := by
        simp only [attend]
        split <;> rfl
      exact orderly.attends_start duties later runs (slot.trans same)
  | install run totalWork =>
      have last : run + 1 = house.runs.length := orderly.fits (.install run totalWork) (by
        simp [duties])
      have runs : next.runs = house.runs := runs
      have later : next.duties = [] := later
      refine ⟨by simp [later], ?_, by simp [later], fun {run job} found before => ?_⟩
      · rw [slot, later, runs, ← last]
        rfl
      · rw [runs] at found before
        exact orderly.earlier found before
  | call call => exact orderly.attends_call duties later runs slot
  | decline | look =>
      refine orderly.goesOn duties rfl (by rw [runs]; rfl) slot later fun duty goesOn => ?_
      cases goesOn

end Attends

/-- The order outlasts every move. -/
theorem Orderly.turn (orderly : house.Orderly) {move : Move} (change : house.Change move next) :
    next.Orderly := by
  cases change with
  | receives request _ changed =>
      have duties : next.duties = house.duties := duties_of_receives (by rw [changed])
      subst changed
      exact orderly.of_same rfl rfl (duties ▸ orderly.alone) (by rw [duties])
        (by rw [duties]; exact orderly.fits)
  | @enters position _ _ request duty _ found concerns free changed =>
      subst changed
      have duties := duties_of_enters request duty found free
      have plain : duty.isInstall = false ∧ house.Fits duty := by
        rcases Request.duty?_cases concerns with ⟨_, rfl⟩ | ⟨_, rfl⟩ <;> exact ⟨rfl, trivial⟩
      refine orderly.of_same rfl rfl ?_ ?_ ?_ <;> simp [duties, free, plain]
  | @attends position now runId request duty _ found changed =>
      subst changed
      have duties := eq_singleton_of_mem (mem_duties found) orderly.alone
      have later := duties_of_attends (house.attend now runId duty).2 found orderly.alone
        (house.errands_attend now runId duty)
      exact orderly.attends duties later rfl rfl
  | answers plant _ found away changed =>
      have duties : next.duties = house.duties := by
        rw [changed]
        exact duties_of_answers found away rfl
      subst changed
      exact orderly.of_same rfl rfl (duties ▸ orderly.alone) (by rw [duties])
        (by rw [duties]; exact orderly.fits)
  | @works run _ job after lastReport plant _ found advances changed =>
      subst changed
      have going := advances.isOver_eq_false
      have last := orderly.last_of_not_isOver found going
      refine ⟨orderly.alone, ?_, fun duty member => ?_, fun {other job'} found' before => ?_⟩
      · simp only [List.length_set]
        exact orderly.slot
      · have fits := orderly.fits duty member
        cases duty with
        | start => exact absurd (fits job (List.mem_of_getElem? found)) (by simp [going])
        | install => simpa [Fits] using fits
        | _ => trivial
      · simp only [List.length_set] at before
        rw [List.getElem?_set_ne (by omega)] at found'
        exact orderly.earlier found' before

variable {config : Config Float} {opened : Instant} {past : List Happening}

/-- There is order in a daemon from its start on. -/
theorem Season.orderly (season : (Daemon.ofConfig config opened).house.Season past house) :
    house.Orderly := by
  induction season with
  | opening => exact ⟨Nat.zero_le 1, rfl, List.forall_mem_nil _, fun found => by cases found⟩
  | move _ moved ih => exact ih.turn (change_of_move? moved)

end House

end Scan
