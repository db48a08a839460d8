import Mathlib.Data.List.Induction
import Scan.Monitor

/-!
# Which wait a request ends

A monitor over any history of what is done with it. A request that is accepted is for one wait: the
one in progress, or else the next one. So a latch is released just when a request was made for its
wait, it stays released, and no request is left over for a second wait.
-/

namespace Scan.Monitor

/-- One thing that is done with a monitor. -/
inductive Operation where
  | advance (next : StepStatus)
  | beginWait (now : Instant)
  | endWait
  | request
  deriving DecidableEq, Repr

/-- The monitor after one thing is done with it. -/
def apply (monitor : Monitor) : Operation → Monitor
  | .advance next => monitor.advance next
  | .beginWait now => monitor.beginWait now
  | .endWait => monitor.endWait
  | .request => monitor.requestSkip

/-- The monitor after a history, in which the oldest operation comes first. -/
def run (monitor : Monitor) (history : List Operation) : Monitor :=
  history.foldl apply monitor

@[simp] theorem run_concat (monitor : Monitor) (history : List Operation) (operation : Operation) :
    monitor.run (history ++ [operation]) = (monitor.run history).apply operation := by
  simp [run]

theorem run_append (monitor : Monitor) (first second : List Operation) :
    monitor.run (first ++ second) = (monitor.run first).run second := by
  simp [run]

/-! ## What a history says -/

namespace Operation

/-- Whether a wait begins. -/
def begins : Operation → Bool
  | .beginWait _ => true
  | _ => false

/-- Whether a wait begins or ends. -/
def bounds : Operation → Bool
  | .beginWait _ | .endWait => true
  | _ => false

end Operation

/-- How many waits have begun: each has a latch of its own, and they are numbered in order. -/
def begun (history : List Operation) : Nat :=
  history.countP Operation.begins

/-- Whether a latch is the one that is installed after a history: its wait has begun, and since then
no wait has begun or ended. -/
def Installs (history : List Operation) (latch : Nat) : Prop :=
  ∃ before beginning since, history = before ++ beginning :: since ∧ beginning.begins = true ∧
    begun before = latch ∧ ∀ operation ∈ since, operation.bounds = false

/-- Whether no latch is installed after `past`, and none is as long as `rest` goes on. -/
def IsHeld (past rest : List Operation) : Prop :=
  (∀ latch, ¬ Installs past latch) ∧ ∀ operation ∈ rest, operation.begins = false

/-- Whether a request after `past` that is followed by `rest` is one for the wait of a latch: the
latch is installed, or none is installed up to where its wait begins. -/
def IsFor (latch : Nat) (past rest : List Operation) : Prop :=
  Installs past latch ∨
    begun past = latch ∧ ∃ between beginning later, rest = between ++ beginning :: later ∧
      beginning.begins = true ∧ IsHeld past between

/-- Whether a monitor has accepted a request of a history, of which something holds: of what had
happened before and of what has happened since. -/
def HasAccepted (monitor : Monitor) (holds : List Operation → List Operation → Prop)
    (history : List Operation) : Prop :=
  ∃ past rest, history = past ++ Operation.request :: rest ∧
    (monitor.run past).acceptsSkip = true ∧ holds past rest

/-! ## One more operation -/

section Concat

variable {history past rest : List Operation} {operation : Operation} {latch : Nat}

/-- Where a history that has grown by one operation can be cut in front of an operation. -/
theorem exists_cut_concat_iff {holds : List Operation → Operation → List Operation → Prop} :
    (∃ before cut since, history ++ [operation] = before ++ cut :: since ∧
        holds before cut since) ↔
      holds history operation [] ∨ ∃ before cut since, history = before ++ cut :: since ∧
        holds before cut (since ++ [operation]) := by
  constructor
  · rintro ⟨before, cut, since, split, held⟩
    rcases List.eq_nil_or_concat since with rfl | ⟨more, last, rfl⟩
    · obtain ⟨rfl, same⟩ := List.append_inj' split rfl
      cases same
      exact .inl held
    · rw [List.concat_eq_append, ← List.cons_append, ← List.append_assoc] at split
      obtain ⟨rfl, same⟩ := List.append_inj' split rfl
      cases same
      exact .inr ⟨before, cut, more, rfl, by simpa using held⟩
  · rintro (held | ⟨before, cut, since, rfl, held⟩)
    · exact ⟨history, operation, [], rfl, held⟩
    · exact ⟨before, cut, since ++ [operation], by simp, held⟩

theorem begun_concat : begun (history ++ [operation]) =
    begun history + if operation.begins then 1 else 0 := by
  simp [begun, List.countP_append, List.countP_singleton]

/-- What is installed after one more operation. -/
theorem installs_concat_iff : Installs (history ++ [operation]) latch ↔
    (operation.begins = true ∧ begun history = latch) ∨
      operation.bounds = false ∧ Installs history latch := by
  rw [Installs, exists_cut_concat_iff, Installs]
  simp only [List.forall_mem_append, List.forall_mem_singleton]
  apply or_congr
  · simp
  constructor
  · rintro ⟨before, beginning, since, split, begins, own, quiet, last⟩
    exact ⟨last, before, beginning, since, split, begins, own, quiet⟩
  · rintro ⟨last, before, beginning, since, split, begins, own, quiet⟩
    exact ⟨before, beginning, since, split, begins, own, quiet, last⟩

theorem isHeld_concat_iff : IsHeld past (rest ++ [operation]) ↔
    IsHeld past rest ∧ operation.begins = false := by
  simp only [IsHeld, List.forall_mem_append, List.forall_mem_singleton, and_assoc]

theorem isFor_nil_iff : IsFor latch past [] ↔ Installs past latch := by
  simp [IsFor]

/-- Which latch a request is for, by what has happened since. -/
theorem isFor_concat_iff : IsFor latch past (rest ++ [operation]) ↔
    IsFor latch past rest ∨ begun past = latch ∧ operation.begins = true ∧ IsHeld past rest := by
  rw [IsFor, exists_cut_concat_iff, IsFor, and_or_left, ← or_assoc, or_right_comm]

/-- A request that is held finds no latch installed, and no wait has begun since. -/
theorem IsHeld.append (held : IsHeld past rest) :
    (∀ latch, ¬ Installs (past ++ Operation.request :: rest) latch) ∧
      begun (past ++ Operation.request :: rest) = begun past := by
  obtain ⟨free, quiet⟩ := held
  constructor
  · induction rest using List.reverseRecOn with
    | nil =>
        intro latch
        rw [installs_concat_iff]
        simp [Operation.begins, free latch]
    | append_singleton rest last ih =>
        intro latch
        obtain ⟨quiet, still⟩ := List.forall_mem_append.mp quiet
        rw [← List.cons_append, ← List.append_assoc, installs_concat_iff]
        simp [still last (List.mem_singleton_self last), ih quiet latch]
  · have none : rest.countP Operation.begins = 0 := List.countP_eq_zero.mpr (by simpa using quiet)
    rw [begun, begun, List.countP_append, List.countP_cons, none]
    rfl

variable {monitor : Monitor} {holds others : List Operation → List Operation → Prop}

/-- Which requests have been accepted after one more operation. -/
theorem hasAccepted_concat_iff : monitor.HasAccepted holds (history ++ [operation]) ↔
    (operation = .request ∧ (monitor.run history).acceptsSkip = true ∧ holds history []) ∨
      monitor.HasAccepted (fun past rest => holds past (rest ++ [operation])) history := by
  have shape : ∀ (holds : List Operation → List Operation → Prop) (history : List Operation),
      monitor.HasAccepted holds history ↔ ∃ past cut rest, history = past ++ cut :: rest ∧
        cut = .request ∧ (monitor.run past).acceptsSkip = true ∧ holds past rest := by
    intro holds history
    constructor
    · rintro ⟨past, rest, split, accepted, held⟩
      exact ⟨past, .request, rest, split, rfl, accepted, held⟩
    · rintro ⟨past, _, rest, split, rfl, accepted, held⟩
      exact ⟨past, rest, split, accepted, held⟩
  rw [shape, exists_cut_concat_iff, shape]

/-- The latch that is installed is one of those that have been made. -/
theorem Installs.lt_begun (installs : Installs history latch) : latch < begun history := by
  obtain ⟨before, beginning, since, rfl, begins, rfl, -⟩ := installs
  rw [begun, begun, List.countP_append, List.countP_cons, if_pos begins]
  omega

/-- Whether a monitor accepts a request that is the next operation. -/
def Accepts (monitor : Monitor) (operation : Operation) : Prop :=
  operation = .request ∧ monitor.acceptsSkip = true

/-- Which requests are held after one more operation. -/
theorem hasAccepted_isHeld_concat_iff : monitor.HasAccepted IsHeld (history ++ [operation]) ↔
    ((monitor.run history).Accepts operation ∧ ∀ latch, ¬ Installs history latch) ∨
      monitor.HasAccepted IsHeld history ∧ operation.begins = false := by
  rw [hasAccepted_concat_iff]
  simp only [isHeld_concat_iff, HasAccepted, Accepts, ← and_assoc, exists_and_right]
  simp [IsHeld]

/-- For which latches requests have been accepted after one more operation. -/
theorem hasAccepted_isFor_concat_iff :
    monitor.HasAccepted (IsFor latch) (history ++ [operation]) ↔
      ((monitor.run history).Accepts operation ∧ Installs history latch) ∨
        monitor.HasAccepted (IsFor latch) history ∨
          (operation.begins = true ∧ begun history = latch) ∧
            monitor.HasAccepted IsHeld history := by
  rw [hasAccepted_concat_iff]
  simp only [isFor_nil_iff, isFor_concat_iff, Accepts, and_assoc]
  refine or_congr_right ⟨?_, ?_⟩
  · rintro ⟨past, rest, rfl, accepted, own | ⟨own, begins, held⟩⟩
    · exact .inl ⟨past, rest, rfl, accepted, own⟩
    · exact .inr ⟨begins, held.append.2.trans own, past, rest, rfl, accepted, held⟩
  · rintro (⟨past, rest, split, accepted, own⟩ | ⟨begins, own, past, rest, rfl, accepted, held⟩)
    · exact ⟨past, rest, split, accepted, .inl own⟩
    · exact ⟨past, rest, rfl, accepted, .inr ⟨held.append.2.symm.trans own, begins, held⟩⟩

/-- A request is only held as long as no latch is installed. -/
theorem not_installs_of_hasAccepted (held : monitor.HasAccepted IsHeld history) (latch : Nat) :
    ¬ Installs history latch := by
  obtain ⟨past, rest, rfl, -, held⟩ := held
  exact held.append.1 latch

end Concat

/-! ## What the monitor makes of its history -/

/-- Whether a monitor shows what its history says. -/
structure Reflects (monitor : Monitor) (history : List Operation) : Prop where
  size : (monitor.run history).latches.size = begun history
  installed : ∀ latch, (monitor.run history).installed = some latch ↔ Installs history latch
  waiting : (monitor.run history).isWaiting = (monitor.run history).installed.isSome
  pending : (monitor.run history).skipPending = true ↔ monitor.HasAccepted IsHeld history
  released : ∀ latch, (monitor.run history).isReleased latch = true ↔
    monitor.HasAccepted (IsFor latch) history

section Steps

variable {monitor : Monitor} {history : List Operation} {operation : Operation} {latch own : Nat}

theorem acceptsSkip_iff :
    monitor.acceptsSkip = true ↔ monitor.skippable = true ∧ monitor.status = .running := by
  rw [acceptsSkip, Bool.and_eq_true]
  refine and_congr_right fun _ => ?_
  cases monitor.status <;> decide

theorem recordSkip_of_none (installed : monitor.installed = none) :
    monitor.recordSkip = { monitor with skipPending := true } := by
  simp only [recordSkip, installed]

theorem recordSkip_of_some (installed : monitor.installed = some latch) :
    monitor.recordSkip = monitor.release latch := by
  simp only [recordSkip, installed]

/-- A latch is released as soon as it is installed if a request is held. -/
theorem isReleased_installLatch : monitor.installLatch.isReleased latch = true ↔
    monitor.isReleased latch = true ∨
      latch = monitor.latches.size ∧ monitor.skipPending = true := by
  simp only [isReleased, installLatch, Array.getD_eq_getD_getElem?, Array.getElem?_push]
  by_cases new : latch = monitor.latches.size
  · simp [new]
  · simp [new]

theorem isReleased_release : (monitor.release own).isReleased latch = true ↔
    monitor.isReleased latch = true ∨ latch = own ∧ own < monitor.latches.size := by
  simp only [isReleased, release, Array.getD_eq_getD_getElem?, Array.getElem?_setIfInBounds]
  by_cases same : own = latch
  · subst same
    by_cases there : own < monitor.latches.size <;> simp [there]
  · simp [same, Ne.symm same]

/-- What a monitor shows is what its history says, before anything was done with it. -/
theorem reflects_nil (description : String) (skippable : Bool) :
    Reflects { description, skippable } [] where
  size := rfl
  installed latch := by simp [run, Installs]
  waiting := rfl
  pending := by simp [run, HasAccepted]
  released latch := by simp [run, HasAccepted, isReleased]

/-- A monitor without an installed latch is one whose history says so. -/
theorem Reflects.installed_eq_none_iff (reflects : Reflects monitor history) :
    (monitor.run history).installed = none ↔ ∀ latch, ¬ Installs history latch := by
  simp only [← reflects.installed, Option.eq_none_iff_forall_ne_some]

/-- What neither begins nor ends a wait and is no request that is accepted changes nothing of the
latches. -/
theorem Reflects.of_quiet (reflects : Reflects monitor history)
    (quiet : operation.bounds = false) (idle : ¬ (monitor.run history).Accepts operation)
    (latches : ((monitor.run history).apply operation).latches = (monitor.run history).latches)
    (installed :
      ((monitor.run history).apply operation).installed = (monitor.run history).installed)
    (started : ((monitor.run history).apply operation).started = (monitor.run history).started)
    (pending :
      ((monitor.run history).apply operation).skipPending = (monitor.run history).skipPending) :
    Reflects monitor (history ++ [operation]) := by
  have none : operation.begins = false := by
    cases operation <;> first | rfl | cases quiet
  obtain ⟨size, own, waiting, held, released⟩ := reflects
  constructor
  · rw [run_concat, latches, size, begun_concat, none]
    rfl
  · intro latch
    rw [run_concat, installed, own, installs_concat_iff]
    simp [quiet, none]
  · rw [run_concat, isWaiting, started, installed]
    exact waiting
  · rw [run_concat, pending, held, hasAccepted_isHeld_concat_iff]
    simp [idle, none]
  · intro latch
    have same : ((monitor.run history).apply operation).isReleased latch =
        (monitor.run history).isReleased latch := by rw [isReleased, latches, isReleased]
    rw [run_concat, same, released, hasAccepted_isFor_concat_iff]
    simp [idle, none]

/-- A wait that begins has a latch of its own, which a request that is held releases. -/
theorem Reflects.of_beginWait (reflects : Reflects monitor history) (now : Instant) :
    Reflects monitor (history ++ [.beginWait now]) := by
  obtain ⟨size, own, waiting, held, released⟩ := reflects
  constructor
  · rw [run_concat, begun_concat, ← size]
    exact Array.size_push _
  · intro latch
    rw [run_concat, installs_concat_iff, ← size]
    simp [apply, beginWait, stampStart, installLatch, Operation.begins, Operation.bounds]
  · rw [run_concat]
    rfl
  · rw [run_concat, hasAccepted_isHeld_concat_iff]
    simp [apply, beginWait, stampStart, installLatch, Operation.begins, Accepts]
  · intro latch
    have made : ((monitor.run history).beginWait now).isReleased latch =
        (monitor.run history).installLatch.isReleased latch := rfl
    rw [run_concat, apply, made, isReleased_installLatch, released, held,
      hasAccepted_isFor_concat_iff, size, eq_comm]
    simp [Operation.begins, Accepts]

/-- Once a wait is over no latch is installed. -/
theorem Reflects.of_endWait (reflects : Reflects monitor history) :
    Reflects monitor (history ++ [.endWait]) := by
  obtain ⟨size, own, waiting, held, released⟩ := reflects
  constructor
  · rw [run_concat, begun_concat]
    exact size
  · intro latch
    rw [run_concat, installs_concat_iff]
    simp [apply, endWait, clearStart, removeLatch, Operation.begins, Operation.bounds]
  · rw [run_concat]
    rfl
  · rw [run_concat, hasAccepted_isHeld_concat_iff]
    exact held.trans (by simp [Operation.begins, Accepts])
  · intro latch
    rw [run_concat, hasAccepted_isFor_concat_iff]
    exact (released latch).trans (by simp [Operation.begins, Accepts])

/-- A request that is accepted while no latch is installed is held. -/
theorem Reflects.of_held (reflects : Reflects monitor history)
    (accepted : (monitor.run history).acceptsSkip = true)
    (installed : (monitor.run history).installed = none) :
    Reflects monitor (history ++ [.request]) := by
  have accepts : (monitor.run history).Accepts .request := ⟨rfl, accepted⟩
  have free := reflects.installed_eq_none_iff.mp installed
  have passed : (monitor.run history).apply .request =
      { monitor.run history with skipPending := true } := by
    rw [apply, requestSkip, if_pos accepted, recordSkip_of_none installed]
  obtain ⟨size, own, waiting, held, released⟩ := reflects
  constructor
  · rw [run_concat, begun_concat, passed]
    exact size
  · intro latch
    rw [run_concat, installs_concat_iff, passed]
    exact (own latch).trans (by simp [Operation.begins, Operation.bounds])
  · rw [run_concat, passed]
    exact waiting
  · rw [run_concat, hasAccepted_isHeld_concat_iff, passed]
    exact iff_of_true rfl (.inl ⟨accepts, free⟩)
  · intro latch
    rw [run_concat, hasAccepted_isFor_concat_iff, passed]
    exact (released latch).trans (by simp [Operation.begins, free latch])

/-- A request that is accepted while a latch is installed releases it. -/
theorem Reflects.of_released {current : Nat} (reflects : Reflects monitor history)
    (accepted : (monitor.run history).acceptsSkip = true)
    (installed : (monitor.run history).installed = some current) :
    Reflects monitor (history ++ [.request]) := by
  have accepts : (monitor.run history).Accepts .request := ⟨rfl, accepted⟩
  have passed : (monitor.run history).apply .request = (monitor.run history).release current := by
    rw [apply, requestSkip, if_pos accepted, recordSkip_of_some installed]
  obtain ⟨size, own, waiting, held, released⟩ := reflects
  have installs := (own current).mp installed
  constructor
  · rw [run_concat, begun_concat, passed, release, Array.size_setIfInBounds]
    exact size
  · intro latch
    rw [run_concat, installs_concat_iff, passed]
    exact (own latch).trans (by simp [Operation.begins, Operation.bounds])
  · rw [run_concat, passed]
    exact waiting
  · rw [run_concat, hasAccepted_isHeld_concat_iff, passed]
    refine held.trans ⟨fun held => .inr ⟨held, rfl⟩, ?_⟩
    rintro (⟨-, free⟩ | ⟨held, -⟩)
    · exact absurd installs (free current)
    · exact held
  · intro latch
    have mine : latch = current ↔ Installs history latch := by
      rw [← own, installed, Option.some.injEq, eq_comm]
    rw [run_concat, hasAccepted_isFor_concat_iff, passed, isReleased_release, released, mine, size]
    simp only [accepts, installs.lt_begun, true_and, and_true, Operation.begins,
      Bool.false_eq_true, false_and, or_false]
    exact or_comm

/-- A request that is accepted releases the installed latch, or is held. -/
theorem Reflects.of_accepted (reflects : Reflects monitor history)
    (accepted : (monitor.run history).acceptsSkip = true) :
    Reflects monitor (history ++ [.request]) := by
  cases installed : (monitor.run history).installed with
  | none => exact reflects.of_held accepted installed
  | some current => exact reflects.of_released accepted installed

/-- What a monitor shows is what its history says, after any history. -/
theorem reflects (description : String) (skippable : Bool) (history : List Operation) :
    Reflects { description, skippable } history := by
  induction history using List.reverseRecOn with
  | nil => exact reflects_nil description skippable
  | append_singleton history operation reflects =>
      cases operation with
      | advance next =>
          have same : ∀ monitor : Monitor, monitor.advance next =
              { monitor with status := (monitor.advance next).status } := by
            intro monitor
            unfold advance
            split <;> rfl
          refine reflects.of_quiet rfl (fun accepts => by cases accepts.1) ?_ ?_ ?_ ?_ <;>
            rw [apply, same]
      | beginWait now => exact reflects.of_beginWait now
      | endWait => exact reflects.of_endWait
      | request =>
          by_cases accepted : (Monitor.run { description, skippable } history).acceptsSkip = true
          · exact reflects.of_accepted accepted
          · refine reflects.of_quiet rfl (fun accepts => accepted accepts.2) ?_ ?_ ?_ ?_ <;>
              rw [apply, requestSkip, if_neg accepted]

end Steps

/-! ## One request more -/

/-- Whether two monitors differ in nothing but one latch, or as long as it has not been made, in the
request that is held for it. -/
structure AgreeApart (latch : Nat) (monitor other : Monitor) : Prop where
  skippable : monitor.skippable = other.skippable
  status : monitor.status = other.status
  installed : monitor.installed = other.installed
  size : monitor.latches.size = other.latches.size
  pending : monitor.skipPending = other.skipPending ∨ other.latches.size = latch
  released : ∀ index ≠ latch, monitor.isReleased index = other.isReleased index

section Apart

variable {monitor other : Monitor} {latch : Nat}

theorem AgreeApart.refl (latch : Nat) (monitor : Monitor) : AgreeApart latch monitor monitor :=
  ⟨rfl, rfl, rfl, rfl, .inl rfl, fun _ _ => rfl⟩

/-- A request makes a difference to one latch only. -/
theorem exists_agreeApart_requestSkip (monitor : Monitor) :
    ∃ latch, AgreeApart latch monitor.requestSkip monitor := by
  by_cases accepted : monitor.acceptsSkip = true
  · rw [requestSkip, if_pos accepted]
    cases installed : monitor.installed with
    | none =>
        rw [recordSkip_of_none installed]
        exact ⟨monitor.latches.size, rfl, rfl, rfl, rfl, .inr rfl, fun _ _ => rfl⟩
    | some own =>
        rw [recordSkip_of_some installed]
        refine ⟨own, rfl, rfl, rfl, Array.size_setIfInBounds, .inl rfl, fun index different => ?_⟩
        rw [Bool.eq_iff_iff, isReleased_release]
        simp [different]
  · rw [requestSkip, if_neg accepted]
    exact ⟨0, .refl 0 monitor⟩

/-- A further request that both accept makes no further difference. -/
theorem AgreeApart.recordSkip (agree : AgreeApart latch monitor other) :
    AgreeApart latch monitor.recordSkip other.recordSkip := by
  obtain ⟨skippable, status, installed, size, pending, released⟩ := agree
  cases current : other.installed with
  | none =>
      rw [recordSkip_of_none (installed.trans current), recordSkip_of_none current]
      exact ⟨skippable, status, installed, size, .inl rfl, released⟩
  | some own =>
      rw [recordSkip_of_some (installed.trans current), recordSkip_of_some current]
      refine ⟨skippable, status, installed, ?_, ?_, fun index different => ?_⟩
      · simpa [release] using size
      · simpa [release] using pending
      · rw [Bool.eq_iff_iff, isReleased_release, isReleased_release, released index different, size]

/-- Whatever is done with both, the difference stays with that latch. -/
theorem AgreeApart.apply (agree : AgreeApart latch monitor other) (operation : Operation) :
    AgreeApart latch (monitor.apply operation) (other.apply operation) := by
  have same := agree
  obtain ⟨skippable, status, installed, size, pending, released⟩ := agree
  cases operation with
  | advance next =>
      rw [Monitor.apply, Monitor.apply, advance, advance, status]
      split
      · exact ⟨skippable, rfl, installed, size, pending, released⟩
      · exact same
  | beginWait now =>
      refine ⟨skippable, status, congrArg some size, ?_, .inl rfl, fun index different => ?_⟩
      · simp [Monitor.apply, beginWait, stampStart, installLatch, size]
      · have held : index = other.latches.size ∧ monitor.skipPending = true ↔
            index = other.latches.size ∧ other.skipPending = true := by
          rcases pending with same | new
          · rw [same]
          · simp [new, different]
        change monitor.installLatch.isReleased index = other.installLatch.isReleased index
        rw [Bool.eq_iff_iff, isReleased_installLatch, isReleased_installLatch,
          released index different, size, held]
  | endWait => exact ⟨skippable, status, rfl, size, pending, released⟩
  | request =>
      have accepts : monitor.acceptsSkip = other.acceptsSkip := by
        rw [acceptsSkip, acceptsSkip, skippable, status]
      rw [Monitor.apply, Monitor.apply, requestSkip, requestSkip, accepts]
      split
      · exact same.recordSkip
      · exact same

theorem AgreeApart.run (agree : AgreeApart latch monitor other) (history : List Operation) :
    AgreeApart latch (monitor.run history) (other.run history) := by
  induction history generalizing monitor other with
  | nil => exact agree
  | cons operation rest ih => exact ih (agree.apply operation)

end Apart

/-! ## Any history -/

/-- A latch that is released stays so, whatever is done with the monitor. -/
theorem isReleased_run {monitor : Monitor} {latch : Nat}
    (released : monitor.isReleased latch = true) (history : List Operation) :
    (monitor.run history).isReleased latch = true := by
  induction history generalizing monitor with
  | nil => exact released
  | cons operation rest ih =>
      apply ih
      cases operation with
      | advance next =>
          rw [apply, advance]
          split <;> exact released
      | beginWait now => exact isReleased_installLatch.mpr (.inl released)
      | endWait => exact released
      | request =>
          rw [apply, requestSkip]
          split
          · rw [recordSkip]
            split
            · exact isReleased_release.mpr (.inl released)
            · exact released
          · exact released

/-- Whether a monitor can be skipped is never changed. -/
theorem skippable_run (monitor : Monitor) (history : List Operation) :
    (monitor.run history).skippable = monitor.skippable := by
  induction history generalizing monitor with
  | nil => rfl
  | cons operation rest ih =>
      refine (ih (monitor.apply operation)).trans ?_
      cases operation with
      | advance next =>
          rw [apply, advance]
          split <;> rfl
      | request =>
          rw [apply, requestSkip]
          split
          · rw [recordSkip]
            split <;> rfl
          · rfl
      | _ => rfl

/-- A monitor over any history. A request is accepted if and only if the step can be skipped and is
running, and one that is refused changes nothing. Each wait that begins installs the latch of its
own number, and the monitor reports to wait exactly while a latch is installed. A latch is released
if and only if a request was accepted for its wait: while the latch was installed, or while none was
installed up to where its wait began. It then stays released; no request makes a difference to two
latches; and a request is held only while no latch is installed. -/
theorem requests_end_one_wait (description : String) (skippable : Bool)
    (history : List Operation) :
    let fresh : Monitor := { description, skippable }
    ((fresh.run history).acceptsSkip = true ↔
        skippable = true ∧ (fresh.run history).status = .running) ∧
      ((fresh.run history).acceptsSkip = false →
        fresh.run (history ++ [.request]) = fresh.run history) ∧
      (∀ now, (fresh.run (history ++ [.beginWait now])).installed = some (begun history)) ∧
      (∀ latch, (fresh.run history).installed = some latch ↔ Installs history latch) ∧
      ((fresh.run history).isWaiting = true ↔ ∃ latch, Installs history latch) ∧
      (∀ latch, (fresh.run history).isReleased latch = true ↔
        fresh.HasAccepted (IsFor latch) history) ∧
      (∀ latch later, (fresh.run history).isReleased latch = true →
        (fresh.run (history ++ later)).isReleased latch = true) ∧
      (∀ later, ∃ own, ∀ latch ≠ own, (fresh.run (history ++ .request :: later)).isReleased latch =
        (fresh.run (history ++ later)).isReleased latch) ∧
      ((fresh.run history).skipPending = true → ∀ latch, ¬ Installs history latch) := by
  intro fresh
  have shows := reflects description skippable history
  refine ⟨?_, ?_, ?_, shows.installed, ?_, shows.released, ?_, ?_, ?_⟩
  · rw [acceptsSkip_iff, skippable_run]
  · intro refused
    rw [run_concat, apply, requestSkip, refused]
    rfl
  · intro now
    have begins := reflects description skippable (history ++ [.beginWait now])
    exact (begins.installed _).mpr (installs_concat_iff.mpr (.inl ⟨rfl, rfl⟩))
  · rw [shows.waiting, Option.isSome_iff_exists]
    simp only [shows.installed]
  · intro latch later released
    rw [run_append]
    exact isReleased_run released later
  · intro later
    obtain ⟨own, agree⟩ := exists_agreeApart_requestSkip (fresh.run history)
    refine ⟨own, fun latch different => ?_⟩
    rw [run_append, run_append]
    exact (agree.run later).released latch different
  · intro pending
    exact not_installs_of_hasAccepted (shows.pending.mp pending)

/-- A request before the first of two waits, and one within the second: each ends the wait that it
was made for, a third wait is not cut short, and a request after the step is refused. -/
theorem requests_around_waits_end_one_each :
    let fresh : Monitor := { description := "delay", skippable := true }
    let early : List Operation := [.advance .running, .request]
    let history := early ++ [.beginWait 0, .endWait, .beginWait 5, .request]
    let spent := history ++ [.endWait, .beginWait 9, .endWait, .advance .completed]
    (∀ latch, ¬ Installs early latch) ∧ fresh.HasAccepted (IsFor 0) history ∧
      fresh.HasAccepted (IsFor 1) history ∧ ¬ fresh.HasAccepted (IsFor 2) spent ∧
      (fresh.run spent).isReleased 1 = true ∧ fresh.run (spent ++ [.request]) = fresh.run spent := by
  intro fresh early history spent
  obtain ⟨-, -, -, -, -, -, -, -, held⟩ := requests_end_one_wait "delay" true early
  obtain ⟨-, -, -, -, -, released, stays, -, -⟩ := requests_end_one_wait "delay" true history
  obtain ⟨-, refused, -, -, -, never, -, -, -⟩ := requests_end_one_wait "delay" true spent
  refine ⟨held (by decide), (released 0).mp (by decide), (released 1).mp (by decide), ?_,
    stays 1 _ (by decide), refused (by decide)⟩
  rw [← never]
  decide

end Scan.Monitor
