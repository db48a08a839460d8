import Scan.Json.Shape

/-!
# Reading what was written

A value in which no object names a member twice is the value of the document that it makes, so
nothing is lost on the way to a decoder. A structure is read from the members of an object one after
another: a record takes them up field by field, and a field that is left out has a value of its own.
-/

namespace Scan.Json

/-! ## Values as documents -/

namespace Members

theorem insert_of_not_mem {members : Members} {name : String} {value : Value}
    (new : name ∉ members.names) : members.insert name value = members ++ [(name, value)] := by
  induction members with
  | nil => rfl
  | cons member rest ih =>
      obtain ⟨other, old⟩ := member
      obtain ⟨apart, new⟩ := not_or.mp (mt List.mem_cons.mpr new)
      have differs : (other == name) = false := beq_eq_false_iff_ne.mpr (Ne.symm apart)
      simp [insert, differs, ih new]

/-- Members of different names are put behind one another. -/
theorem insertAll_of_nodup (members : Members) {more : Members}
    (apart : (members ++ more).names.Nodup) : members.insertAll more = members ++ more := by
  induction more generalizing members with
  | nil => simp [insertAll]
  | cons member rest ih =>
      obtain ⟨name, value⟩ := member
      have new : name ∉ members.names := by
        simp only [names, List.map_append, List.map_cons, List.nodup_append, List.mem_cons] at apart
        exact fun old => apart.2.2 name old name (.inl rfl) rfl
      rw [insertAll, List.foldl_cons, insert_of_not_mem new]
      have whole : members ++ (name, value) :: rest = (members ++ [(name, value)]) ++ rest := by
        simp
      rw [whole] at apart ⊢
      exact ih (members ++ [(name, value)]) apart

end Members

namespace Value

mutual

/-- Whether no object within a value names a member twice. -/
def HasDistinctNames : Value → Prop
  | .array items => AllHaveDistinctNames items
  | .object members => (Members.names members).Nodup ∧ MembersHaveDistinctNames members
  | _ => True

/-- Whether that is so in each of some values. -/
def AllHaveDistinctNames : List Value → Prop
  | [] => True
  | item :: rest => HasDistinctNames item ∧ AllHaveDistinctNames rest

/-- Whether that is so in the value of each of some members. -/
def MembersHaveDistinctNames : List (String × Value) → Prop
  | [] => True
  | (_, value) :: rest => HasDistinctNames value ∧ MembersHaveDistinctNames rest

end

end Value

namespace Document

mutual

/-- A value is the value of the document that it makes. -/
theorem toValue?_ofValue : (value : Value) → value.HasDistinctNames →
    (ofValue value).toValue? = some value
  | .null, _ | .bool _, _ | .number _, _ | .string _, _ => rfl
  | .array items, distinct => by
      simp [ofValue, toValue?, toValues?_ofValues items distinct]
  | .object members, ⟨names, distinct⟩ => by
      have whole : Members.insertAll [] members = members :=
        Members.insertAll_of_nodup [] names
      simp [ofValue, toValue?, toMembers?_ofMembers members distinct, whole]

theorem toValues?_ofValues : (items : List Value) → Value.AllHaveDistinctNames items →
    toValues? (ofValues items) = some items
  | [], _ => rfl
  | item :: rest, ⟨distinct, others⟩ => by
      simp [ofValues, toValues?, toValue?_ofValue item distinct, toValues?_ofValues rest others]

theorem toMembers?_ofMembers : (members : List (String × Value)) →
    Value.MembersHaveDistinctNames members → toMembers? (ofMembers members) = some members
  | [], _ => rfl
  | (_, value) :: rest, ⟨distinct, others⟩ => by
      simp [ofMembers, toMembers?, toValue?_ofValue value distinct,
        toMembers?_ofMembers rest others]

end

mutual

/-- The document that a value makes is without faults. -/
theorem isSome_toValue?_ofValue : (value : Value) → (ofValue value).toValue?.isSome = true
  | .null | .bool _ | .number _ | .string _ => rfl
  | .array items => by simp [ofValue, toValue?, isSome_toValues?_ofValues items]
  | .object members => by simp [ofValue, toValue?, isSome_toMembers?_ofMembers members]

theorem isSome_toValues?_ofValues : (items : List Value) →
    (toValues? (ofValues items)).isSome = true
  | [] => rfl
  | item :: rest => by
      obtain ⟨value, found⟩ := Option.isSome_iff_exists.mp (isSome_toValue?_ofValue item)
      obtain ⟨values, others⟩ := Option.isSome_iff_exists.mp (isSome_toValues?_ofValues rest)
      simp [ofValues, toValues?, found, others]

theorem isSome_toMembers?_ofMembers : (members : List (String × Value)) →
    (toMembers? (ofMembers members)).isSome = true
  | [] => rfl
  | (_, item) :: rest => by
      obtain ⟨value, found⟩ := Option.isSome_iff_exists.mp (isSome_toValue?_ofValue item)
      obtain ⟨values, others⟩ := Option.isSome_iff_exists.mp (isSome_toMembers?_ofMembers rest)
      simp [ofMembers, toMembers?, found, others]

end

theorem ofMembers_append (front rest : List (String × Value)) :
    ofMembers (front ++ rest) = ofMembers front ++ ofMembers rest := by
  induction front with
  | nil => rfl
  | cons member front ih => simp [ofMembers, ih]

theorem ofValues_eq_map (items : List Value) : ofValues items = items.map ofValue := by
  induction items with
  | nil => rfl
  | cons item rest ih => simp [ofValues, ih]

end Document

/-! ## Readers of single things -/

namespace Decoder

variable {source : Source}

theorem value_ofValue {value : Value} (distinct : value.HasDistinctNames) :
    Decoder.value source (.ofValue value) = .ok value := by
  simp [Decoder.value, Document.toValue?_ofValue value distinct]

theorem skip_ofValue (value : Value) : skip (.ofValue value) = .ok () := by
  obtain ⟨_, found⟩ := Option.isSome_iff_exists.mp (Document.isSome_toValue?_ofValue value)
  simp [skip, found]

/-- A finite number is read as it was written. -/
theorem float_ofValue {value : Float} (finite : value.isFinite = true) :
    Decoder.float source (.ofValue (.float value)) = .ok value := by
  simp [Decoder.float, Value.float, finite, Document.ofValue, Number.toFloat]

/-- What is written as anything but null is read as something that is there. -/
theorem optional_ofValue {α : Type} {decoder : Decoder α} {value : Value} {found : α}
    (read : decoder source (.ofValue value) = .ok found) (present : value ≠ .null) :
    decoder.optional source (.ofValue value) = .ok (some found) := by
  rw [optional]
  · rw [read, Except.map]
  · intro null
    cases value <;> simp [Document.ofValue] at null present

/-- A list is read item by item. -/
theorem list_ofValue {α : Type} {decoder : Decoder α} {toValue : α → Value} {items : List α}
    (read : ∀ item ∈ items, decoder source (.ofValue (toValue item)) = .ok item) :
    decoder.list source (.ofValue (.array (items.map toValue))) = .ok items := by
  simp only [list, Document.ofValue, Document.ofValues_eq_map, List.map_map]
  induction items with
  | nil => rfl
  | cons item rest ih =>
      obtain ⟨own, others⟩ := List.forall_mem_cons.mp read
      simp only [List.map_cons, Decoder.items, Function.comp_apply, own, ih others]
      rfl

/-- Members of free names are read one by one. -/
theorem map_ofValue {members : Members} (distinct : Value.MembersHaveDistinctNames members) :
    Decoder.map Decoder.value source (.ofValue (.object members)) = .ok members := by
  simp only [map, Document.ofValue]
  induction members with
  | nil => rfl
  | cons member rest ih =>
      obtain ⟨own, others⟩ := distinct
      simp only [Document.ofMembers, Decoder.members, value_ofValue own, ih others]
      rfl

end Decoder

/-! ## Structures -/

namespace Record

variable {α β : Type}

/-- What a record has found out after some members. -/
def after (record : Record α) (source : Source) :
    List (String × Document) → record.State → Except Fault record.State
  | [], state => .ok state
  | (name, document) :: rest, state => do
      let next ← match record.member source name document state with
        | some result => result
        | none => (Decoder.skip document).map fun _ => state
      record.after source rest next

/-- An object is read member by member, and then the structure is put together. -/
theorem readMembers_eq (record : Record α) (source : Source)
    (members : List (String × Document)) (state : record.State) :
    record.readMembers source true members state =
      record.after source members state >>= record.finish := by
  induction members generalizing state with
  | nil => rfl
  | cons member rest ih =>
      obtain ⟨name, document⟩ := member
      simp only [readMembers, after]
      cases record.member source name document state with
      | some result => cases result <;> simp [ih, bind, Except.bind]
      | none => cases Decoder.skip document <;> simp [ih, bind, Except.bind, Except.map]

theorem after_append (record : Record α) (source : Source) (front rest : List (String × Document))
    (state : record.State) : record.after source (front ++ rest) state =
      record.after source front state >>= record.after source rest := by
  induction front generalizing state with
  | nil => rfl
  | cons member front ih =>
      obtain ⟨name, document⟩ := member
      simp only [List.cons_append, after]
      cases record.member source name document state with
      | some result => cases result <;> simp [ih, bind, Except.bind]
      | none => cases Decoder.skip document <;> simp [ih, bind, Except.bind, Except.map]

/-- Written members are those of a structure that a record describes. -/
def Takes (record : Record α) (source : Source) (members : Members) (found : α) : Prop :=
  ∃ state, record.after source (Document.ofMembers members) record.start = .ok state ∧
    record.finish state = .ok found

theorem Takes.decode {record : Record α} {source : Source} {members : Members} {found : α}
    (takes : record.Takes source members found) (name : String) :
    record.decode name source (.ofValue (.object members)) = .ok found := by
  obtain ⟨state, taken, finished⟩ := takes
  rw [Document.ofValue, Record.decode, readMembers_eq, taken]
  exact finished

theorem takes_pure (found : α) (source : Source) : (Record.pure found).Takes source [] found :=
  ⟨(), rfl, rfl⟩

section Fields

variable {record : Record (α → β)} {source : Source} {decoder : Decoder α}
variable {absent short : Option α} {front : Members} {build : α → β} {found : α}

/-- Members of other names are taken up as if there were not the field. -/
theorem after_fieldWith {name : String} {state next : record.State}
    (taken : record.after source (Document.ofMembers front) state = .ok next)
    (apart : name ∉ front.names) :
    (record.fieldWith name decoder absent short).after source (Document.ofMembers front)
      (state, none) = .ok (next, none) := by
  induction front generalizing state with
  | nil =>
      cases taken
      rfl
  | cons member front ih =>
      obtain ⟨other, value⟩ := member
      obtain ⟨differs, apart⟩ := not_or.mp (mt List.mem_cons.mpr apart)
      have passed : (other == name) = false := beq_eq_false_iff_ne.mpr (Ne.symm differs)
      simp only [Document.ofMembers, after] at taken ⊢
      simp only [fieldWith, passed, Bool.false_eq_true, if_false]
      cases inner : record.member source other (.ofValue value) state with
      | some result =>
          rw [inner] at taken
          cases result with
          | error fault => cases taken
          | ok halfway => exact ih taken apart
      | none =>
          rw [inner, Decoder.skip_ofValue] at taken
          rw [Option.map_none, Decoder.skip_ofValue]
          exact ih taken apart

/-- A field is read from the member of its name. -/
theorem Takes.fieldWith (takes : record.Takes source front build) (name : String) {value : Value}
    (fresh : front.names.contains name = false)
    (read : decoder source (.ofValue value) = .ok found) :
    (record.fieldWith name decoder absent short).Takes source (front ++ [(name, value)])
      (build found) := by
  obtain ⟨state, taken, finished⟩ := takes
  let whole : Record β := record.fieldWith name decoder absent short
  have before : whole.after source (Document.ofMembers front) whole.start = .ok (state, none) :=
    after_fieldWith taken (by simpa using fresh)
  refine ⟨(state, some found), ?_, ?_⟩
  · change whole.after source (Document.ofMembers (front ++ [(name, value)])) whole.start =
      .ok (state, some found)
    rw [Document.ofMembers_append, after_append, before]
    simp [whole, Document.ofMembers, after, Record.fieldWith, read, bind, Except.bind, Except.map]
  · simp [Record.fieldWith, finished, bind, Except.bind, Pure.pure, Except.pure]

/-- A field that is left out has the value that stands for its absence. -/
theorem Takes.without (takes : record.Takes source front build) (name : String)
    (fresh : front.names.contains name = false) :
    (record.fieldWith name decoder (some found) short).Takes source front (build found) := by
  obtain ⟨state, taken, finished⟩ := takes
  refine ⟨(state, none), after_fieldWith taken (by simpa using fresh), ?_⟩
  simp [Record.fieldWith, finished, bind, Except.bind, Pure.pure, Except.pure]

theorem Takes.field (takes : record.Takes source front build) (name : String) {value : Value}
    (fresh : front.names.contains name = false)
    (read : decoder source (.ofValue value) = .ok found) :
    (record.field name decoder).Takes source (front ++ [(name, value)]) (build found) :=
  takes.fieldWith name fresh read

end Fields

end Record

end Scan.Json
