import Scan.Daemon.Message
import Scan.Descriptor.Codec
import Scan.Proofs.Records

/-!
# Written data

Whatever is written is read back as it was: descriptors and sequences, reports, events, requests and
responses. Nothing gets lost by what is left out where it is absent or empty, so different data are
written differently. Data can be written if no object in them names a member twice, their counts fit
a word and their floating-point numbers are finite.
-/

namespace Scan

open Json

/-! ## What can be written -/

/-- Whether a count fits the word in which it is written. -/
def FitsWord (count : Nat) : Prop :=
  count < UInt64.size

namespace Descriptor

mutual

/-- Whether no object in the parameters names a member twice, here and in all nested steps. -/
def IsWritable : Descriptor → Prop
  | ⟨_, _, params, body⟩ => (Value.object params).HasDistinctNames ∧ AreWritable body

/-- Whether that is so of each of some steps. -/
def AreWritable : List Descriptor → Prop
  | [] => True
  | step :: rest => IsWritable step ∧ AreWritable rest

end

end Descriptor

/-- Whether all steps can be written. -/
def Sequence.IsWritable (sequence : Sequence) : Prop :=
  Descriptor.AreWritable sequence.steps

/-- Whether the counts of a report fit words. -/
def RunReport.IsWritable (report : RunReport) : Prop :=
  FitsWord report.stepsCompleted ∧ ∀ stopped ∈ report.stoppedAt, FitsWord stopped.step

/-- Whether the seconds of a report are finite. -/
def SimulationReport.IsWritable (report : SimulationReport Float) : Prop :=
  report.totalSeconds.isFinite = true ∧ ∀ step ∈ report.steps, step.seconds.isFinite = true

/-- Whether the share is finite and the number of the step fits a word. -/
def Progress.IsWritable (progress : Progress) : Prop :=
  progress.fraction.isFinite = true ∧ ∀ step ∈ progress.currentStep, FitsWord step

/-- Whether the counts of an event fit words. -/
def Event.IsWritable : Event → Prop
  | .stepStarted step _ | .stepFinished step _ => FitsWord step
  | .finished report => report.IsWritable
  | .stateChanged _ | .workPerformed .. => True

/-- Whether no object in the parameters names a member twice. -/
def Request.IsWritable (request : Request) : Prop :=
  request.params.HasDistinctNames

/-- Whether the result, if there is one, is not null, and no object in it names a member twice. -/
def Response.IsWritable (response : Response) : Prop :=
  ∀ result ∈ response.result, result ≠ .null ∧ result.HasDistinctNames

/-! ## Single fields -/

section Fields

variable {source : Source}

theorem countDecoder_ofValue {count : Nat} (fits : FitsWord count) :
    countDecoder source (.ofValue (.nat count)) = .ok count := by
  simp [countDecoder, Value.nat, Document.ofValue, Decoder.word, Except.map,
    UInt64.toNat_ofNat_of_lt' fits]

theorem choice_runState (state : RunState) :
    Decoder.choice RunState.variants source (.ofValue (.string state.name)) = .ok state := by
  cases state <;> rfl

theorem choice_stepStatus (status : StepStatus) :
    Decoder.choice StepStatus.variants source (.ofValue (.string status.name)) = .ok status := by
  cases status <;> rfl

theorem choice_errorCode (code : ErrorCode) :
    Decoder.choice ErrorCode.variants source (.ofValue (.string code.name)) = .ok code := by
  cases code <;> rfl

theorem string_ofValue (text : String) :
    Decoder.string source (.ofValue (.string text)) = .ok text :=
  rfl

theorem word_ofValue (kind : String) (count : UInt64) :
    Decoder.word kind source (.ofValue (.word count)) = .ok count :=
  rfl

/-- A text that may be missing is read as it was written. -/
theorem optString_ofValue (text : Option String) :
    Decoder.string.optional source (.ofValue (.optString text)) = .ok text := by
  cases text <;> rfl

/-- A number that may be missing is read as it was written. -/
theorem optionalCount_ofValue {count : Option Nat} (fits : ∀ found ∈ count, FitsWord found) :
    Decoder.optional countDecoder source (.ofValue (optionalValue Value.nat count)) =
      .ok count := by
  cases count with
  | none => rfl
  | some found =>
      exact Decoder.optional_ofValue (countDecoder_ofValue (fits found rfl))
        (by simp [optionalValue, Value.nat])

/-- A member that is left out where there is nothing to write is read all the same. -/
theorem Json.Record.Takes.optionalField {α β : Type} {record : Record (Option α → β)}
    {front : Members} {build : Option α → β} (takes : record.Takes source front build)
    (name : String) {decoder : Decoder α} {encode : α → Value} {short : Option (Option α)}
    {found : Option α} (fresh : front.names.contains name = false)
    (present : ∀ value ∈ found, encode value ≠ .null)
    (read : ∀ value ∈ found, decoder source (.ofValue (encode value)) = .ok value) :
    (record.fieldWith name decoder.optional (some none) short).Takes source
      (front ++ optionalMember name encode found) (build found) := by
  cases found with
  | none => simpa [optionalMember] using takes.without name fresh
  | some value =>
      exact takes.fieldWith name fresh
        (Decoder.optional_ofValue (read value rfl) (present value rfl))

end Fields

/-! ## Descriptors -/

namespace Descriptor

section Drafts

variable {source : Source} {draft : Draft} {rest : List (String × Document)}

/-- A label is taken up if there is one. -/
theorem decodeFields_label (label : Option String) (fresh : draft.label = none) :
    decodeFields source true draft (Document.ofMembers
        (label.map fun text => ("label", Value.string text)).toList ++ rest) =
      decodeFields source true { draft with label := label.map some } rest := by
  obtain ⟨kind, _, params, body⟩ := draft
  subst fresh
  cases label with
  | none => rfl
  | some text =>
      simp [Document.ofMembers, Document.ofValue, decodeFields, Decoder.optional, Decoder.string,
        Except.map, bind, Except.bind]

/-- Parameters are taken up unless there are none. -/
theorem decodeFields_params {params : Members}
    (distinct : (Value.object params).HasDistinctNames) (fresh : draft.params = none) :
    decodeFields source true draft (Document.ofMembers
        (if params.isEmpty then [] else [("params", Value.object params)]) ++ rest) =
      decodeFields source true
        { draft with params := if params.isEmpty then none else some params } rest := by
  obtain ⟨kind, label, _, body⟩ := draft
  subst fresh
  cases params with
  | nil => rfl
  | cons member others =>
      obtain ⟨names, values⟩ := distinct
      have read : decodeParams source (.ofValue (.object (member :: others))) =
          .ok (member :: others) := by
        rw [decodeParams, Decoder.map_ofValue values, Except.map,
          Members.insertAll_of_nodup [] names]
        rfl
      simp [Document.ofMembers, decodeFields, read, bind, Except.bind]

end Drafts

mutual

/-- A descriptor is read as it was written. -/
theorem decode_toValue (source : Source) : (descriptor : Descriptor) → descriptor.IsWritable →
    decode source (.ofValue descriptor.toValue) = .ok descriptor
  | ⟨kind, label, params, body⟩, ⟨distinct, nested⟩ => by
      have steps := decodeBody_toValues source body nested
      have own : ∀ rest, decodeFields source true {} (("kind", .string kind) :: rest) =
          decodeFields source true { kind := some kind } rest := by
        intro rest
        simp [decodeFields, Decoder.string, bind, Except.bind]
      simp only [toValue, Document.ofValue, decode, List.append_assoc, List.cons_append,
        List.nil_append, Document.ofMembers, Document.ofMembers_append, own]
      rw [decodeFields_label label rfl, decodeFields_params distinct rfl]
      cases body with
      | nil => cases label <;> cases params <;> simp [toValues, Document.ofMembers, decodeFields,
          Draft.finish]
      | cons step others =>
          rw [toValues] at steps ⊢
          cases label <;> cases params <;> simp [Document.ofMembers, decodeFields, steps,
            Draft.finish, bind, Except.bind]

/-- Nested steps are read as they were written. -/
theorem decodeBody_toValues (source : Source) : (steps : List Descriptor) → AreWritable steps →
    decodeBody source (.ofValue (.array (toValues steps))) = .ok steps
  | steps, writable => by
      simp only [Document.ofValue, decodeBody]
      exact decodeSteps_toValues source steps writable

theorem decodeSteps_toValues (source : Source) : (steps : List Descriptor) → AreWritable steps →
    decodeSteps source true (Document.ofValues (toValues steps)) = .ok steps
  | [], _ => rfl
  | step :: rest, ⟨own, others⟩ => by
      simp [toValues, Document.ofValues, decodeSteps, decode_toValue source step own,
        decodeSteps_toValues source rest others, bind, Except.bind, pure, Except.pure]

end

end Descriptor

/-! ## Sequences -/

theorem Sequence.decode_toValue (source : Source) (sequence : Sequence)
    (writable : sequence.IsWritable) :
    decode source (.ofValue sequence.toValue) = .ok sequence :=
  Record.takes_pure Sequence.mk source
    |>.fieldWith "name" rfl (optString_ofValue sequence.name)
    |>.field "steps" rfl
      (Descriptor.decodeBody_toValues source sequence.steps writable)
    |>.decode "struct Sequence"

/-! ## Reports -/

theorem ErrorInfo.decode_toValue (source : Source) (error : ErrorInfo) :
    decode source (.ofValue error.toValue) = .ok error :=
  Record.takes_pure ErrorInfo.mk source
    |>.field "code" rfl (choice_errorCode error.code)
    |>.field "message" rfl (string_ofValue error.message)
    |>.decode "struct ErrorInfo"

theorem StoppedStep.decode_toValue (source : Source) (stopped : StoppedStep)
    (fits : FitsWord stopped.step) :
    decode source (.ofValue stopped.toValue) = .ok stopped :=
  Record.takes_pure StoppedStep.mk source
    |>.field "step" rfl (countDecoder_ofValue fits)
    |>.field "description" rfl (string_ofValue stopped.description)
    |>.field "error" rfl (ErrorInfo.decode_toValue source stopped.error)
    |>.decode "struct StoppedStep"

theorem RunReport.decode_toValue (source : Source) (report : RunReport)
    (writable : report.IsWritable) : decode source (.ofValue report.toValue) = .ok report :=
  Record.takes_pure RunReport.mk source
    |>.field "run_id" rfl (string_ofValue report.runId)
    |>.fieldWith "name" rfl (optString_ofValue report.name)
    |>.field "state" rfl (choice_runState report.state)
    |>.field "steps_completed" rfl (countDecoder_ofValue writable.1)
    |>.field "work_performed" rfl (word_ofValue "u64" report.workPerformed)
    |>.field "total_work" rfl (word_ofValue "u64" report.totalWork)
    |>.field "elapsed_ms" rfl (word_ofValue "u64" report.elapsedMs)
    |>.optionalField "stopped_at" rfl (fun stopped _ => by simp [StoppedStep.toValue])
      (fun stopped found => StoppedStep.decode_toValue source stopped (writable.2 stopped found))
    |>.decode "struct RunReport"

theorem SimulationStep.decode_toValue (source : Source) (step : SimulationStep Float)
    (finite : step.seconds.isFinite = true) :
    decode source (.ofValue (toValue step)) = .ok step :=
  Record.takes_pure SimulationStep.mk source
    |>.field "label" rfl (string_ofValue step.label)
    |>.field "seconds" rfl (Decoder.float_ofValue finite)
    |>.decode "struct SimulationStep"

theorem SimulationReport.decode_toValue (source : Source) (report : SimulationReport Float)
    (writable : report.IsWritable) : decode source (.ofValue (toValue report)) = .ok report :=
  Record.takes_pure SimulationReport.mk source
    |>.field "run_id" rfl (string_ofValue report.runId)
    |>.fieldWith "name" rfl (optString_ofValue report.name)
    |>.field "total_seconds" rfl (Decoder.float_ofValue writable.1)
    |>.field "total_work" rfl (word_ofValue "u64" report.totalWork)
    |>.field "steps" rfl (Decoder.list_ofValue fun step found =>
      SimulationStep.decode_toValue source step (writable.2 step found))
    |>.decode "struct SimulationReport"

theorem Progress.decode_toValue (source : Source) (progress : Progress)
    (writable : progress.IsWritable) : decode source (.ofValue progress.toValue) = .ok progress :=
  Record.takes_pure Progress.mk source
    |>.field "state" rfl (choice_runState progress.state)
    |>.field "performed" rfl (word_ofValue "u64" progress.performed)
    |>.field "total" rfl (word_ofValue "u64" progress.total)
    |>.field "fraction" rfl (Decoder.float_ofValue writable.1)
    |>.fieldWith "current_step" rfl (optionalCount_ofValue writable.2)
    |>.fieldWith "current_status" rfl (optString_ofValue progress.currentStatus)
    |>.decode "struct ProgressSnapshot"

/-! ## Events -/

namespace Event

/-- All that stands beside the tag is set aside in order. -/
theorem gather_ofMembers {body : Body} {members : Members} (apart : "event" ∉ members.names)
    (aside : List (String × Document)) :
    gather true (some body) aside (Document.ofMembers members) =
      body .setAside (.object (aside.reverse ++ Document.ofMembers members) true) := by
  induction members generalizing aside with
  | nil => simp [Document.ofMembers, gather]
  | cons member rest ih =>
      obtain ⟨name, value⟩ := member
      obtain ⟨differs, apart⟩ := not_or.mp (mt List.mem_cons.mpr apart)
      have passed : (name == "event") = false := beq_eq_false_iff_ne.mpr (Ne.symm differs)
      simp [Document.ofMembers, gather, passed, Decoder.skip_ofValue, ih apart, bind, Except.bind]

/-- An event is read by the reader that its tag names from what stands beside it. -/
theorem decode_of_tag {source : Source} {tag : String} {body : Body} {members : Members}
    (known : Decoder.named variants tag = .ok body)
    (fresh : members.names.contains "event" = false) :
    decode source (.ofValue (.object (("event", .string tag) :: members))) =
      body .setAside (.ofValue (.object members)) := by
  have apart : "event" ∉ members.names := by simpa using fresh
  simp [decode, Document.ofValue, Document.ofMembers, gather, decodeTag, known,
    gather_ofMembers apart, bind, Except.bind]

theorem decode_toValue (source : Source) (event : Event) (writable : event.IsWritable) :
    decode source (.ofValue event.toValue) = .ok event := by
  cases event with
  | stateChanged state =>
      exact (decode_of_tag rfl rfl).trans <|
        Record.takes_pure Event.stateChanged .setAside
          |>.field "state" rfl (choice_runState state)
          |>.decode "struct variant ScanEvent::StateChanged"
  | stepStarted step description =>
      exact (decode_of_tag rfl rfl).trans <|
        Record.takes_pure Event.stepStarted .setAside
          |>.field "step" rfl (countDecoder_ofValue writable)
          |>.field "description" rfl (string_ofValue description)
          |>.decode "struct variant ScanEvent::StepStarted"
  | workPerformed performed total =>
      exact (decode_of_tag rfl rfl).trans <|
        Record.takes_pure Event.workPerformed .setAside
          |>.field "performed" rfl (word_ofValue "u64" performed)
          |>.field "total" rfl (word_ofValue "u64" total)
          |>.decode "struct variant ScanEvent::WorkPerformed"
  | stepFinished step status =>
      exact (decode_of_tag rfl rfl).trans <|
        Record.takes_pure Event.stepFinished .setAside
          |>.field "step" rfl (countDecoder_ofValue writable)
          |>.field "status" rfl (choice_stepStatus status)
          |>.decode "struct variant ScanEvent::StepFinished"
  | finished report =>
      exact (decode_of_tag rfl rfl).trans <|
        Record.takes_pure Event.finished .setAside
          |>.field "report" rfl (RunReport.decode_toValue .setAside report writable)
          |>.decode "struct variant ScanEvent::Finished"

end Event

/-! ## Requests and responses -/

theorem Request.decode_toValue (source : Source) (request : Request)
    (writable : request.IsWritable) : decode source (.ofValue request.toValue) = .ok request :=
  Record.takes_pure Request.mk source
    |>.field "id" rfl (string_ofValue request.id)
    |>.field "method" rfl (string_ofValue request.method)
    |>.fieldWith "params" rfl (Decoder.value_ofValue writable)
    |>.decode "struct DaemonRequest"

theorem Response.decode_toValue (source : Source) (response : Response)
    (writable : response.IsWritable) :
    decode source (.ofValue response.toValue) = .ok response := by
  have fresh : (Members.names ([("id", .string response.id)] ++
      optionalMember "result" (fun value => value) response.result)).contains "error" = false := by
    cases response.result <;> rfl
  exact Record.takes_pure Response.mk source
    |>.field "id" rfl (string_ofValue response.id)
    |>.optionalField "result" rfl (fun value found => (writable value found).1)
      (fun value found => Decoder.value_ofValue (writable value found).2)
    |>.optionalField "error" fresh (fun error _ => by simp [ErrorInfo.toValue])
      (fun error _ => ErrorInfo.decode_toValue source error)
    |>.decode "struct DaemonResponse"

/-! ## All written data -/

/-- Whether all data that can be written are read back, so that different data look different. -/
structure IsFaithful {α : Type} (toValue : α → Value) (decode : Decoder α)
    (IsWritable : α → Prop) : Prop where
  reads (source : Source) (data : α) : IsWritable data →
    decode source (.ofValue (toValue data)) = .ok data
  separates (data other : α) : IsWritable data → IsWritable other →
    toValue data = toValue other → data = other

theorem IsFaithful.of_reads {α : Type} {toValue : α → Value} {decode : Decoder α}
    {IsWritable : α → Prop} (reads : ∀ (source : Source) (data : α), IsWritable data →
      decode source (.ofValue (toValue data)) = .ok data) :
    IsFaithful toValue decode IsWritable where
  reads := reads
  separates data other writable others same := by
    have read := reads .value data writable
    rw [same, reads .value other others] at read
    exact (Except.ok.inj read).symm

/-- Whether a value is an object with a member of a name. -/
def Json.Value.HasMember (value : Value) (name : String) : Prop :=
  ∃ members : Members, value = .object members ∧ name ∈ members.names

theorem Json.Value.hasMember_object {members : Members} {name : String} :
    (Value.object members).HasMember name ↔ name ∈ members.names := by
  simp [HasMember]

theorem Descriptor.hasMember_toValue (descriptor : Descriptor) :
    (descriptor.toValue.HasMember "label" ↔ descriptor.label ≠ none) ∧
    (descriptor.toValue.HasMember "params" ↔ descriptor.params ≠ []) ∧
    (descriptor.toValue.HasMember "body" ↔ descriptor.body ≠ []) := by
  obtain ⟨kind, label, params, body⟩ := descriptor
  cases label <;> cases params <;> cases body <;>
    simp [toValue, toValues, Value.hasMember_object, Members.names]

theorem RunReport.hasMember_toValue (report : RunReport) :
    report.toValue.HasMember "stopped_at" ↔ report.stoppedAt ≠ none := by
  cases stopped : report.stoppedAt <;>
    simp [toValue, stopped, optionalMember, Value.hasMember_object, Members.names]

theorem Response.hasMember_toValue (response : Response) :
    (response.toValue.HasMember "result" ↔ response.result ≠ none) ∧
    (response.toValue.HasMember "error" ↔ response.error ≠ none) := by
  cases result : response.result <;> cases error : response.error <;>
    simp [toValue, result, error, optionalMember, Value.hasMember_object, Members.names]

/-- Everything that can be written is read back as it was, though what is absent or empty is left
out. -/
theorem written_data_are_read_back :
    IsFaithful Descriptor.toValue Descriptor.decode Descriptor.IsWritable ∧
    IsFaithful Sequence.toValue Sequence.decode Sequence.IsWritable ∧
    IsFaithful RunReport.toValue RunReport.decode RunReport.IsWritable ∧
    IsFaithful SimulationReport.toValue SimulationReport.decode SimulationReport.IsWritable ∧
    IsFaithful Progress.toValue Progress.decode Progress.IsWritable ∧
    IsFaithful Event.toValue Event.decode Event.IsWritable ∧
    IsFaithful Request.toValue Request.decode Request.IsWritable ∧
    IsFaithful Response.toValue Response.decode Response.IsWritable ∧
    (∀ descriptor : Descriptor,
      (descriptor.toValue.HasMember "label" ↔ descriptor.label ≠ none) ∧
      (descriptor.toValue.HasMember "params" ↔ descriptor.params ≠ []) ∧
      (descriptor.toValue.HasMember "body" ↔ descriptor.body ≠ [])) ∧
    (∀ report : RunReport,
      report.toValue.HasMember "stopped_at" ↔ report.stoppedAt ≠ none) ∧
    (∀ response : Response,
      (response.toValue.HasMember "result" ↔ response.result ≠ none) ∧
      (response.toValue.HasMember "error" ↔ response.error ≠ none)) :=
  ⟨.of_reads Descriptor.decode_toValue, .of_reads Sequence.decode_toValue,
    .of_reads RunReport.decode_toValue, .of_reads SimulationReport.decode_toValue,
    .of_reads Progress.decode_toValue, .of_reads Event.decode_toValue,
    .of_reads Request.decode_toValue, .of_reads Response.decode_toValue,
    Descriptor.hasMember_toValue, RunReport.hasMember_toValue, Response.hasMember_toValue⟩

/-- Parameters of several kinds below a step without any, and the report of a stop as the content of
an event. -/
theorem nested_data_are_read_back :
    Descriptor.decode .value (.ofValue (Descriptor.toValue
      ⟨"group", some "inner", [], [⟨"set", none, [("b", .nat 1), ("a", .float 1),
        ("c", .object [("z", .null), ("y", .array [.bool true])])], []⟩]⟩)) =
      .ok ⟨"group", some "inner", [], [⟨"set", none, [("b", .nat 1), ("a", .float 1),
        ("c", .object [("z", .null), ("y", .array [.bool true])])], []⟩]⟩ ∧
    Event.decode .value (.ofValue (Event.toValue (.finished
      ⟨"run", none, .aborted, 1, 3, 7, 20, some ⟨2, "wait", ⟨.interrupted, "aborted"⟩⟩⟩))) =
      .ok (.finished
        ⟨"run", none, .aborted, 1, 3, 7, 20, some ⟨2, "wait", ⟨.interrupted, "aborted"⟩⟩⟩) ∧
    Progress.decode .value (.ofValue (Progress.toValue ⟨.running, 1, 2, 1, some 1, none⟩)) =
      .ok ⟨.running, 1, 2, 1, some 1, none⟩ := by
  obtain ⟨descriptors, -, -, -, views, events, -⟩ := written_data_are_read_back
  have finite : (1 : Float).isFinite = true := by with_unfolding_all decide
  refine ⟨descriptors.reads .value _ ?_, events.reads .value _ ?_, views.reads .value _ ?_⟩
  · simp [Descriptor.IsWritable, Descriptor.AreWritable, Value.HasDistinctNames, Members.names,
      Value.MembersHaveDistinctNames, Value.AllHaveDistinctNames, Value.nat, Value.float, finite]
  · simp [Event.IsWritable, RunReport.IsWritable, FitsWord, UInt64.size]
  · simp [Progress.IsWritable, FitsWord, UInt64.size, finite]

end Scan
