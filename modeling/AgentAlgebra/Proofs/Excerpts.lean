import AgentAlgebra.Coherence.Entailment
import AgentAlgebra.Proofs.Casing
import AgentAlgebra.Proofs.CompleteViews
import AgentAlgebra.Proofs.Effects
/-!
# Excerpts

A value entails what is cut out of it, and a lossy view that shows an excerpt of the canonical
rendering does not contradict it, as long as no capital sigma comes to end a word by the cut, or
ceases to. Text is compared in lower case, and there a sigma that ends a word is written differently.
-/

namespace AgentAlgebra

namespace Value

/-- An excerpt of a value: nothing of it, the whole of a boolean or a number, a piece of a text,
excerpts of items of an array, or excerpts of some fields of an object. Texts are cut only as
`cut before piece after` allows. -/
inductive Excerpt (cut : List Char → List Char → List Char → Prop) : Value → Value → Prop
  | nothing (whole : Value) : Excerpt cut whole .null
  | bool (b : Bool) : Excerpt cut (.bool b) (.bool b)
  | number (n : Number) : Excerpt cut (.number n) (.number n)
  | text (before piece after : List Char) (allowed : cut before piece after) :
      Excerpt cut (.text (String.ofList (before ++ piece ++ after))) (.text (String.ofList piece))
  | array {size count : Nat} {item : Fin size → Value} {part : Fin count → Value}
      (origin : Fin count → Fin size) (each : ∀ i, Excerpt cut (item (origin i)) (part i)) :
      Excerpt cut (.array size item) (.array count part)
  | object {names kept : Names} {field : Fin names.size → Value} {part : Fin kept.size → Value}
      (origin : Fin kept.size → Fin names.size) (named : ∀ i, names.name (origin i) = kept.name i)
      (each : ∀ i, Excerpt cut (field (origin i)) (part i)) :
      Excerpt cut (.object names field) (.object kept part)

@[simp]
theorem entails_null (truth : Value) : truth.entails .null = true := by
  cases truth <;> rfl

theorem flatText_text (s : String) : (text s).flatText = s := by
  simp [flatText, leaves, joinTexts, separated]

theorem entails_text {s claim : String} :
    (text s).entails (text claim) =
      occursIn (lowerFrom [] claim.toList) (lowerFrom [] s.toList) := by
  have unfolded : (text s).entails (text claim) =
      occursIn (lowercase claim).toList (lowercase (text s).flatText).toList := rfl
  rw [unfolded, flatText_text, lowercase, lowercase, String.toList_ofList, String.toList_ofList]

theorem entails_array {size count : Nat} {item : Fin size → Value} {claim : Fin count → Value} :
    (array size item).entails (array count claim) = true ↔
      ∀ i, ∃ j, (item j).entails (claim i) = true := by
  have unfolded : (array size item).entails (array count claim) =
      (List.finRange count).all fun i => (List.finRange size).any fun j =>
        (item j).entails (claim i) := rfl
  simp [unfolded]

theorem entails_object {names claimed : Names} {field : Fin names.size → Value}
    {claim : Fin claimed.size → Value} :
    (object names field).entails (object claimed claim) = true ↔
      ∀ i, ∃ j, names.name j = claimed.name i ∧ (field j).entails (claim i) = true := by
  have unfolded : (object names field).entails (object claimed claim) =
      (List.finRange claimed.size).all fun i =>
        (names.index? (claimed.name i)).any fun j => (field j).entails (claim i) := by
    rw [entails]
    congr
    funext i
    cases names.index? (claimed.name i) <;> rfl
  rw [unfolded, List.all_eq_true]
  simp only [List.mem_finRange, forall_const, Option.any_eq_true, Names.index?_eq_some]

/-- Of texts in which no capital sigma changes by being cut out, every excerpt is entailed. -/
theorem entails_of_excerpt {whole part : Value} (excerpt : Excerpt KeepsSigmas whole part) :
    whole.entails part = true := by
  induction excerpt with
  | nothing whole => exact entails_null whole
  | bool b => exact beq_self (.bool b)
  | number n => exact beq_self (.number n)
  | text before piece after keeps =>
    rw [entails_text, String.toList_ofList, String.toList_ofList]
    exact keeps.occursIn
  | array origin each ih => exact entails_array.mpr fun i => ⟨origin i, ih i⟩
  | object origin named each ih => exact entails_object.mpr fun i => ⟨origin i, named i, ih i⟩

theorem Excerpt.mono {cut cut' : List Char → List Char → List Char → Prop} {whole part : Value}
    (weaker : ∀ before piece after, cut before piece after → cut' before piece after)
    (excerpt : Excerpt cut whole part) : Excerpt cut' whole part := by
  induction excerpt with
  | nothing whole => exact .nothing whole
  | bool b => exact .bool b
  | number n => exact .number n
  | text before piece after allowed => exact .text before piece after (weaker _ _ _ allowed)
  | array origin each ih => exact .array origin ih
  | object origin named each ih => exact .object origin named ih

end Value

namespace Sheaf

variable {sheaf : Sheaf Id} {artifact : Value} {conflict : Conflict}

theorem failure_of_mem_glueFailures (mem : conflict ∈ sheaf.glueFailures artifact) :
    conflict.failure ≠ FailureClass.lossyViewContradiction.name := by
  unfold glueFailures at mem
  cases glued : (sheaf.glue (sheaf.renderings artifact)).run with
  | none =>
    rw [glued] at mem
    obtain rfl := List.mem_singleton.mp mem
    exact (by decide : FailureClass.glueUndefined.name ≠ FailureClass.lossyViewContradiction.name)
  | some other =>
    rw [glued] at mem
    obtain ⟨view, -, rfl⟩ := List.mem_map.mp mem
    exact (by decide : FailureClass.glueUnfaithful.name ≠ FailureClass.lossyViewContradiction.name)

theorem failure_of_mem_pairFailures (mem : conflict ∈ sheaf.pairFailures artifact) :
    conflict.failure ≠ FailureClass.lossyViewContradiction.name := by
  obtain ⟨⟨source, target⟩, -, failure⟩ := List.mem_filterMap.mp mem
  rcases (sheaf.of_pairFailure artifact failure).2 with undefined | disagree
  · rw [undefined]
    decide
  · rw [disagree]
    decide

end Sheaf

namespace CoherenceCheck

open MonadAttach LawfulMonadAttach

variable {m : Type → Type} [Monad m] [LawfulMonad m] [MonadAttach m] [LawfulMonadAttach m]

/-- Only a rendering that is not entailed makes a conflict, and the conflict names its view. -/
theorem of_lossyConflict {checking : CoherenceCheck m} {sheaf : Sheaf m} {truth claimed : Value}
    {view : View m} {conflict : Conflict}
    (found : CanReturn (checking.lossyConflict? sheaf truth view claimed) (some conflict)) :
    truth.entails claimed = false ∧ conflict.target = view.name := by
  unfold lossyConflict? at found
  cases entailed : truth.entails claimed with
  | true =>
    rw [entailed, if_pos rfl] at found
    exact nomatch eq_of_canReturn_pure found
  | false =>
    rw [entailed, if_neg Bool.false_ne_true] at found
    obtain ⟨unsupported, -, found⟩ := canReturn_bind_imp' found
    obtain ⟨distance, -, found⟩ := canReturn_bind_imp' found
    dsimp only at found
    split at found
    · exact nomatch eq_of_canReturn_pure found
    · exact ⟨rfl, (Option.some.inj (eq_of_canReturn_pure found)) ▸ rfl⟩

/-- A lossy view of which the rendering is entailed is in no contradiction, however distance is
measured. -/
theorem not_contradicted {checking : CoherenceCheck m} {sheaf : Sheaf Id} {artifact : Value}
    {view : View Id} (lossy : view ∈ sheaf.lossyViews)
    (entailed : (sheaf.canonical.render artifact).run.entails (view.render artifact).run = true)
    {outcome : Coherence} (checked : CanReturn (checking.check sheaf.lifted artifact) outcome)
    {conflict : Conflict} (mem : conflict ∈ outcome.list)
    (failure : conflict.failure = FailureClass.lossyViewContradiction.name) :
    conflict.target ≠ view.name := by
  rw [check_lifted] at checked
  obtain ⟨found, reported, rfl⟩ := canReturn_map_imp' checked
  rw [Coherence.list_ofConflicts, List.mem_append, List.mem_append] at mem
  rcases mem with (glue | pair) | contradiction
  · exact absurd failure (Sheaf.failure_of_mem_glueFailures glue)
  · exact absurd failure (Sheaf.failure_of_mem_pairFailures pair)
  · unfold lossyConflicts at reported
    obtain ⟨results, visited, same⟩ := canReturn_bind_imp' reported
    obtain rfl := eq_of_canReturn_pure same
    obtain ⟨result, held, rfl⟩ := List.mem_filterMap.mp contradiction
    obtain ⟨given, among, visit⟩ := canReturn_mapM visited held
    obtain ⟨other, lossy', rfl⟩ := List.mem_map.mp among
    obtain ⟨unentailed, target⟩ := of_lossyConflict visit
    intro same
    have views : other = view := Sheaf.eq_of_name (List.mem_filter.mp lossy').1
      (List.mem_filter.mp lossy).1 (target.symm.trans same)
    subst views
    exact absurd entailed (Bool.eq_false_iff.mp unentailed)

/-- Excerpts that may take any piece of a text that a rule allows are all entailed exactly if the
rule allows only pieces whose capital sigmas stay as they are wherever the piece is cut out. An
excerpt that keeps its sigmas is entailed, and a lossy view that renders one of the canonical
rendering is in no contradiction, by whatever measure and limit. -/
theorem excerpts_entailed_iff_sigmas_kept :
    (∀ allowed : List Char → Prop,
      (∀ whole part, Value.Excerpt (fun _ piece _ => allowed piece) whole part →
        whole.entails part = true) ↔
      ∀ piece, allowed piece → ∀ before after, KeepsSigmas before piece after) ∧
    (∀ whole part, Value.Excerpt KeepsSigmas whole part → whole.entails part = true) ∧
    ∀ (checking : CoherenceCheck m) (sheaf : Sheaf Id) (artifact : Value),
      ∀ view ∈ sheaf.lossyViews,
        Value.Excerpt KeepsSigmas (sheaf.canonical.render artifact).run (view.render artifact).run →
        ∀ outcome, CanReturn (checking.check sheaf.lifted artifact) outcome →
          ∀ conflict ∈ outcome.list,
            conflict.failure = FailureClass.lossyViewContradiction.name →
              conflict.target ≠ view.name := by
  refine ⟨fun allowed => ⟨fun entailed piece allows before after => ?_, ?_⟩, ?_, ?_⟩
  · by_contra changes
    obtain ⟨before', after', absent⟩ := exists_text_without changes
    have found := entailed _ _ (.text before' piece after' allows)
    rw [Value.entails_text, String.toList_ofList, String.toList_ofList, occursIn_iff] at found
    exact absent found
  · intro keep whole part excerpt
    exact Value.entails_of_excerpt (excerpt.mono fun before piece after allows =>
      keep piece allows before after)
  · intro whole part excerpt
    exact Value.entails_of_excerpt excerpt
  · intro checking sheaf artifact view lossy excerpt outcome checked conflict mem failure
    exact not_contradicted lossy (Value.entails_of_excerpt excerpt) checked mem failure

/-- A sign with a street and a house number. -/
def sign : Value := .pair (.text "ΟΔΟΣ ΑΣΑ") (.number (.double .one))

/-- The first word of the street. -/
def street : View Id := ⟨"street", true, fun _ => pure (.array 1 fun _ => .text "ΟΔΟΣ")⟩

/-- What is left of the street if it is cut off within a word. -/
def start : View Id := ⟨"start", true, fun _ => pure (.array 1 fun _ => .text "ΟΔΟΣ ΑΣ")⟩

/-- A sign and two excerpts of it. -/
def signpost : Sheaf Id where
  name := "signpost"
  views := [.identity "sign", street, start]
  canonical := .identity "sign"
  glue renderings := pure (renderings.get? "sign")
  distinct := by decide
  canonical_mem := List.mem_cons_self
  canonical_complete := rfl

/-- A measure that supports nothing, and counts how often it is asked. -/
def doubting : CoherenceCheck (StateM Nat) where
  settings := {}
  distance := ⟨"doubting", fun _ _ => modifyGet fun n => (.nan, n + 1), fun _ _ => pure ["all"]⟩

/-- Of the two excerpts of a sign only the one in which a sigma comes to end a word is reported. -/
theorem excerpts_entailed_iff_sigmas_kept_signpost :
    ∃ outcome, CanReturn (doubting.check signpost.lifted sign) outcome ∧
      outcome.list.map (·.views) = [("sign", "start")] ∧
      ∀ conflict ∈ outcome.list, conflict.failure = FailureClass.lossyViewContradiction.name →
        conflict.target ≠ "street" := by
  have lossy : street ∈ signpost.lossyViews := List.mem_filter.mpr ⟨.tail _ (.head _), rfl⟩
  have excerpt : Value.Excerpt KeepsSigmas sign (street.render sign).run :=
    .array (fun _ => 0) fun _ => .text [] "ΟΔΟΣ".toList " ΑΣΑ".toList
      (lowerWithin_eq_iff_keepsSigmas.mp (by decide +kernel))
  have result : ((doubting.check signpost.lifted sign).run 0).1.list.map (·.views) =
    [("sign", "start")] := by decide +kernel
  have checked := canReturn_run (doubting.check signpost.lifted sign) 0
  refine ⟨((doubting.check signpost.lifted sign).run 0).1, checked, result, ?_⟩
  exact excerpts_entailed_iff_sigmas_kept.2.2 doubting signpost sign street lossy excerpt _ checked

end CoherenceCheck

end AgentAlgebra
