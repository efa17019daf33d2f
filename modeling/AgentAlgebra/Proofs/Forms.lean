import AgentAlgebra.Proofs.Values
import AgentAlgebra.Verify.Report
/-!
# Forms that are read back

What verification finds is written as a value and read back from it. A record is listed under
different names, so each of its fields is found as it was listed, and what is optional is left out
where there is none. Only one thing is lost: a start at `null` is written as no start is, and is read
as none.
-/

namespace AgentAlgebra

/-- A list stays as it is if each member does. -/
theorem map_eq_self {α : Type} {f : α → α} {items : List α} :
    items.map f = items ↔ ∀ a ∈ items, f a = a := by
  simpa using List.map_inj_left (l := items) (f := f) (g := id)

namespace Value

@[simp]
theorem items?_ofList (items : List Value) : (ofList items).items? = some items :=
  congrArg some List.ofFn_getElem

@[simp]
theorem text?_text (s : String) : (text s).text? = some s := rfl

@[simp]
theorem nat?_ofNat (n : Nat) : (ofNat n).nat? = some n := by
  simp [nat?, ofNat, ofInt, int?]

@[simp]
theorem nestedSymbol?_text (s : String) : (text s).nestedSymbol? = some s := rfl

theorem listOf?_ofList {α : Type} {read : Value → Option α} {write : α → Value} {back : α → α}
    (each : ∀ a, read (write a) = some (back a)) (items : List α) :
    (ofList (items.map write)).listOf? read = some (items.map back) := by
  have reading : read ∘ write = fun a => some (back a) := funext each
  rw [listOf?, items?_ofList, Option.bind_some, List.mapM_map, reading]
  exact List.mapM_pure

/-- What may be left out and is never written as `null` is read as it was. -/
theorem optional?_map {α : Type} {read : Value → Option α} {write : α → Value}
    (each : ∀ a, read (write a) = some a) (told : ∀ a, (write a).isNull = false)
    (given : Option α) : optional? read (given.map write) = some given := by
  cases given with
  | none => rfl
  | some a =>
    have present : write a ≠ .null := by
      intro null
      have told := told a
      rw [null] at told
      exact nomatch told
    rw [Option.map_some, optional?, each]
    · rfl
    · exact present

@[simp]
theorem optional?_ofNat (given : Option Nat) : optional? nat? (given.map ofNat) = some given :=
  optional?_map nat?_ofNat (fun _ => rfl) given

@[simp]
theorem optional?_text (given : Option String) : optional? text? (given.map text) = some given :=
  optional?_map text?_text (fun _ => rfl) given

/-- A field that is listed only if there is a value for it. -/
@[simp]
theorem lookup_optional {α : Type} (name wanted : String) (write : α → Value) (given : Option α) :
    ((given.map fun a => (name, write a)).toList).lookup wanted =
      if wanted = name then given.map write else none := by
  cases given with
  | none => simp
  | some a => exact Fields.lookup_cons ..

/-- Of fields that are listed under different names each is found as listed. -/
theorem field?_record_of_distinct {fields : List (String × Value)}
    (distinct : (fields.map (·.1)).Nodup) (name : String) :
    (record fields).field? name = fields.lookup name :=
  (field?_record fields name).trans (Fields.get?_ofList distinct name)

/-- The fields of a record that is listed under different names are found as listed. -/
theorem members?_record {fields : List (String × Value)} (distinct : (fields.map (·.1)).Nodup)
    (names : List String) :
    (record fields).members? names = some (names.map fun name => fields.lookup name) :=
  congrArg some (List.map_congr_left fun name _ => field?_record_of_distinct distinct name)

/-- A field that is not asked for makes no difference. -/
theorem members?_record_cons {name : String} {value : Value} {fields : List (String × Value)}
    (distinct : (((name, value) :: fields).map (·.1)).Nodup) {names : List String}
    (other : name ∉ names) :
    (record ((name, value) :: fields)).members? names = (record fields).members? names := by
  rw [members?_record distinct, members?_record (List.nodup_cons.mp distinct).2]
  refine congrArg some (List.map_congr_left fun wanted mem => ?_)
  rw [Fields.lookup_cons, if_neg]
  rintro rfl
  exact other mem

end Value

@[simp]
theorem Observable.ofName?_name (observable : Observable) :
    ofName? observable.name = some observable := by
  cases observable <;> rfl

@[simp]
theorem Divergence.ofValue?_toValue (divergence : Divergence) :
    ofValue? divergence.toValue = some divergence := by
  obtain ⟨step, observable, stage, stageAgent, lhs, rhs⟩ := divergence
  unfold ofValue? toValue
  rw [Value.members?_record (by cases stage <;> cases stageAgent <;> simp)]
  simp [List.lookup_append, Fields.lookup_cons]

@[simp]
theorem Observation.ofValue?_toValue (observation : Observation) :
    ofValue? observation.toValue = some observation := by
  unfold ofValue? toValue
  rw [Value.members?_record (by simp)]
  simp [Fields.lookup_cons]

namespace Scenario

variable (scenario : Scenario)

/-- The scenario with no start where an agent would start at `null`. -/
def withoutNullStarts : Scenario :=
  { scenario with positions := scenario.positions.map (·.filter (!·.isNull)) }

theorem withoutNullStarts_eq_self :
    scenario.withoutNullStarts = scenario ↔ some .null ∉ scenario.positions := by
  have kept (position : Option Value) :
      position.filter (!·.isNull) = position ↔ some .null ≠ position := by
    cases position with
    | none => simp
    | some position => cases position <;> simp [Option.filter, Value.isNull]
  obtain ⟨positions, inputs⟩ := scenario
  rw [withoutNullStarts, mk.injEq, and_iff_left rfl, map_eq_self]
  simp only [kept]
  exact ⟨fun all mem => all _ mem rfl, fun absent position mem null => absent (null ▸ mem)⟩

/-- A start at `null` is read as none. -/
theorem optional?_ofOption (position : Option Value) :
    Value.optional? some (some (.ofOption position)) = some (position.filter (!·.isNull)) := by
  cases position with
  | none => rfl
  | some position => cases position <;> rfl

@[simp]
theorem ofValue?_toValue : ofValue? scenario.toValue = some scenario.withoutNullStarts := by
  unfold ofValue? toValue withoutNullStarts
  by_cases empty : scenario.positions.isEmpty = true
  · rw [if_pos empty, Value.members?_record (by simp)]
    simp [Fields.lookup_cons, List.isEmpty_iff.mp empty]
  · have read : (Value.ofList (scenario.positions.map .ofOption)).listOf?
        (fun position => Value.optional? some (some position)) =
          some (scenario.positions.map (·.filter (!·.isNull))) :=
      Value.listOf?_ofList optional?_ofOption _
    rw [if_neg empty, Value.members?_record (by simp)]
    simp [Fields.lookup_cons, read]

end Scenario

namespace Violation

variable (violation : Violation)

/-- The violation with no start in its scenario where an agent would start at `null`. -/
def withoutNullStarts : Violation := { violation with input := violation.input.withoutNullStarts }

theorem withoutNullStarts_eq_self :
    violation.withoutNullStarts = violation ↔ some .null ∉ violation.input.positions := by
  rw [← Scenario.withoutNullStarts_eq_self]
  constructor
  · intro same
    exact congrArg input same
  · intro same
    rw [withoutNullStarts, same]

@[simp]
theorem ofValue?_toValue : ofValue? violation.toValue = some violation.withoutNullStarts := by
  have members : violation.toValue.members? ["witnessId", "class", "law", "equation", "input",
      "lhs", "rhs", "divergence", "message"] =
        some (violation.fields.map fun field => some field.2) := by
    unfold toValue
    rw [Value.members?_record (by simp [fields])]
    simp [fields, Fields.lookup_cons]
  have read : ofValue? violation.toValue = (do
      let input ← Scenario.ofValue? violation.input.toValue
      let lhs ← Observation.ofValue? violation.lhs.toValue
      let rhs ← Observation.ofValue? violation.rhs.toValue
      let divergence ← Divergence.ofValue? violation.divergence.toValue
      return { violation with input, lhs, rhs, divergence }) := by
    unfold ofValue?
    rw [members]
    rfl
  rw [read, Scenario.ofValue?_toValue, Observation.ofValue?_toValue, Observation.ofValue?_toValue,
    Divergence.ofValue?_toValue]
  rfl

end Violation

namespace LawOutcome

/-- The outcome with no start in its scenario where an agent would start at `null`. -/
def withoutNullStarts : LawOutcome → LawOutcome
  | .violated violation => .violated violation.withoutNullStarts
  | outcome => outcome

theorem withoutNullStarts_eq_self {outcome : LawOutcome} :
    outcome.withoutNullStarts = outcome ↔
      ∀ violation ∈ outcome.violation?, some .null ∉ violation.input.positions := by
  cases outcome with
  | satisfied law cases => simp [withoutNullStarts, violation?]
  | violated violation => simp [withoutNullStarts, violation?, violation.withoutNullStarts_eq_self]
  | inapplicable law reason => simp [withoutNullStarts, violation?]

/-- The name of the result is found where it is listed first. -/
theorem parts?_record {name : String} {fields : List (String × Value)}
    (distinct : ((("result", Value.text name) :: fields).map (·.1)).Nodup) :
    parts? (.record (("result", .text name) :: fields)) =
      some (name, .record (("result", .text name) :: fields)) := by
  have named : (Value.record (("result", .text name) :: fields)).field? "result" =
      some (.text name) := by
    rw [Value.field?_record_of_distinct distinct, Fields.lookup_cons, if_pos rfl]
  have parted : parts? (.record (("result", .text name) :: fields)) =
      ((Value.record (("result", .text name) :: fields)).field? "result").bind fun result =>
        result.text?.bind fun named =>
          some (named, .record (("result", .text name) :: fields)) := rfl
  rw [parted, named]
  rfl

theorem ofValue?_toValue (outcome : LawOutcome) :
    ofValue? outcome.toValue = some outcome.withoutNullStarts := by
  unfold ofValue? toValue
  cases outcome with
  | satisfied law cases =>
    dsimp only
    rw [parts?_record (by simp), Option.bind_eq_bind, Option.bind_some]
    dsimp only
    rw [Value.members?_record (by simp)]
    simp [Fields.lookup_cons, withoutNullStarts]
  | violated violation =>
    have distinct : ((("result", Value.text "violated") :: violation.fields).map (·.1)).Nodup := by
      simp [Violation.fields]
    have read : Violation.ofValue? (.record (("result", .text "violated") :: violation.fields)) =
        Violation.ofValue? violation.toValue := by
      unfold Violation.ofValue?
      rw [Value.members?_record_cons distinct (by simp)]
      rfl
    dsimp only
    rw [parts?_record distinct, Option.bind_eq_bind, Option.bind_some]
    dsimp only
    rw [read, Violation.ofValue?_toValue]
    rfl
  | inapplicable law reason =>
    dsimp only
    rw [parts?_record (by simp), Option.bind_eq_bind, Option.bind_some]
    dsimp only
    rw [Value.members?_record (by simp) ["law", "reason"]]
    simp [Fields.lookup_cons, withoutNullStarts]

/-- A result is read back as it was exactly if no start at `null` is in it. -/
theorem reads_back_iff {outcome : LawOutcome} :
    ofValue? outcome.toValue = some outcome ↔
      ∀ violation ∈ outcome.violation?, some .null ∉ violation.input.positions := by
  rw [ofValue?_toValue, Option.some_inj, withoutNullStarts_eq_self]

end LawOutcome

namespace LawReport

/-- The report with no start in a scenario where an agent would start at `null`. -/
def withoutNullStarts (report : LawReport) : LawReport :=
  { report with results := report.results.map (·.withoutNullStarts) }

theorem withoutNullStarts_eq_self {report : LawReport} :
    report.withoutNullStarts = report ↔
      ∀ violation ∈ report.violations, some .null ∉ violation.input.positions := by
  have results : report.withoutNullStarts = report ↔
      report.results.map (·.withoutNullStarts) = report.results := by
    obtain ⟨algebra, satisfied, violated, inapplicable, results⟩ := report
    simp [withoutNullStarts]
  rw [results, map_eq_self]
  simp only [LawOutcome.withoutNullStarts_eq_self, violations, List.mem_filterMap]
  constructor
  · rintro all violation ⟨outcome, mem, found⟩
    exact all outcome mem violation found
  · intro all outcome mem violation found
    exact all violation ⟨outcome, mem, found⟩

theorem ofValue?_toValue (report : LawReport) :
    ofValue? report.toValue = some report.withoutNullStarts := by
  unfold ofValue? toValue
  rw [Value.members?_record (by simp)]
  simp [Fields.lookup_cons, Value.listOf?_ofList LawOutcome.ofValue?_toValue, withoutNullStarts]

theorem reads_back_iff {report : LawReport} :
    ofValue? report.toValue = some report ↔
      ∀ violation ∈ report.violations, some .null ∉ violation.input.positions := by
  rw [ofValue?_toValue, Option.some_inj, withoutNullStarts_eq_self]

end LawReport

end AgentAlgebra
