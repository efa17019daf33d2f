import AgentAlgebra.Proofs.Excerpts
import AgentAlgebra.Proofs.Forms
import AgentAlgebra.Proofs.Limits
/-!
# Results of checks that are read back

What a check finds is written as a value and read back from it as it was: the two views, what was
expected and what was found, `null` or not, and the distance where one was measured. A measure may
answer with anything, but what is no finite number could not be written as one; a check reports only
what it brought between zero and one.
-/

namespace AgentAlgebra

@[simp]
theorem Conflict.ofValue?_toValue (conflict : Conflict) :
    ofValue? conflict.toValue = some conflict := by
  have measured (d : Double) : Value.double? (.number (.double d)) = some d := rfl
  have written : Value.optional? Value.double?
      (conflict.distance.map fun d => Value.number (.double d)) = some conflict.distance :=
    Value.optional?_map measured (fun _ => rfl) conflict.distance
  have members : conflict.toValue.members? ["witnessId", "class", "views", "expected", "found",
      "distance", "description"] =
        some [some (.text conflict.witnessId), some (.text conflict.failure),
          some (.pair (.text conflict.source) (.text conflict.target)), some conflict.expected,
          some conflict.found, conflict.distance.map fun d => .number (.double d),
          some (.text conflict.description)] := by
    unfold toValue
    rw [Value.members?_record (by cases conflict.distance <;> simp)]
    simp [Fields.lookup_cons]
  unfold ofValue?
  rw [members]
  dsimp only [Option.bind_eq_bind, Option.bind_some, Value.pair?_pair, Value.text?_text]
  rw [written]
  rfl

namespace Coherence

/-- The name of the result is found, and what is listed beside it. -/
theorem parts?_record {name : String} {fields : List (String × Value)}
    (distinct : ((("result", Value.text name) :: fields).map (·.1)).Nodup) :
    parts? (.record (("result", .text name) :: fields)) =
      some (name, fields.lookup "conflicts") := by
  have held (wanted : String) : (Value.record (("result", .text name) :: fields)).field? wanted =
      if wanted = "result" then some (.text name) else fields.lookup wanted := by
    rw [Value.field?_record_of_distinct distinct, Fields.lookup_cons]
  have parted : parts? (.record (("result", .text name) :: fields)) =
      ((Value.record (("result", .text name) :: fields)).field? "result").bind fun result =>
        result.symbol?.bind fun named =>
          some (named, (Value.record (("result", .text name) :: fields)).field? "conflicts") := rfl
  rw [parted, held "result", held "conflicts"]
  rfl

theorem ofValue?_toValue (outcome : Coherence) : ofValue? outcome.toValue = some outcome := by
  unfold ofValue? toValue
  cases outcome with
  | coherent =>
    dsimp only
    rw [parts?_record (by simp)]
    rfl
  | conflicts found =>
    have read : (Value.ofList (found.map Conflict.toValue)).listOf? Conflict.ofValue? =
        some found := by
      rw [Value.listOf?_ofList Conflict.ofValue?_toValue, List.map_id']
    dsimp only
    rw [parts?_record (by simp), Fields.lookup_cons, if_pos rfl]
    exact congrArg (Option.map conflicts) read

end Coherence

namespace CoherenceCheck

open MonadAttach LawfulMonadAttach

section

variable {m : Type → Type} [Monad m] [LawfulMonad m] [MonadAttach m] [LawfulMonadAttach m]
  {checking : CoherenceCheck m} {sheaf : Sheaf m}

/-- Whatever a measure answers, what is reported of it lies between zero and one. -/
theorem within_of_lossyConflict {truth claimed : Value} {view : View m} {conflict : Conflict}
    (returned : CanReturn (checking.lossyConflict? sheaf truth view claimed) (some conflict)) :
    ∀ d ∈ conflict.distance, d.InUnitInterval := by
  unfold lossyConflict? at returned
  split at returned
  · cases eq_of_canReturn_pure returned
  · obtain ⟨unsupported, -, rest⟩ := canReturn_bind_imp' returned
    obtain ⟨measured, -, rest⟩ := canReturn_bind_imp' rest
    dsimp only at rest
    split at rest
    · cases eq_of_canReturn_pure rest
    · obtain rfl := Option.some.inj (eq_of_canReturn_pure rest)
      intro d recorded
      obtain rfl := Option.some.inj recorded
      exact Extended.inUnitInterval_toUnitInterval measured

theorem within_of_lossyConflicts {truth : Value} {lossy : List (View m × Value)}
    {found : List Conflict}
    (returned : CanReturn (checking.lossyConflicts sheaf truth lossy) found) :
    ∀ conflict ∈ found, ∀ d ∈ conflict.distance, d.InUnitInterval :=
  forall_of_reported (fun _ _ _ visited => within_of_lossyConflict visited) returned

theorem within_of_check {artifact : Value} {outcome : Coherence}
    (returned : CanReturn (checking.check sheaf artifact) outcome) :
    ∀ conflict ∈ outcome.list, ∀ d ∈ conflict.distance, d.InUnitInterval := by
  unfold check at returned
  obtain ⟨rendered, -, rest⟩ := canReturn_bind_imp' returned
  obtain ⟨ofGlue, glued, rest⟩ := canReturn_bind_imp' rest
  obtain ⟨ofPairs, paired, rest⟩ := canReturn_bind_imp' rest
  obtain ⟨ofLossy, compared, rest⟩ := canReturn_bind_imp' rest
  obtain rfl := eq_of_canReturn_pure rest
  have unmeasured {conflict : Conflict} (exact : conflict.Exact) :
      ∀ d ∈ conflict.distance, d.InUnitInterval := by
    rw [exact.distance]
    exact nofun
  intro conflict mem
  rw [Coherence.list_ofConflicts, List.mem_append, List.mem_append] at mem
  rcases mem with (mem | mem) | mem
  · exact unmeasured (exact_of_glueConflicts glued conflict mem)
  · exact unmeasured (exact_of_pairConflicts paired conflict mem)
  · exact within_of_lossyConflicts compared conflict mem

end

end CoherenceCheck

end AgentAlgebra
