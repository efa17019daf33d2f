import AgentAlgebra.Proofs.Effects
import AgentAlgebra.Proofs.Failures
import Mathlib.Data.List.Forall2
/-!
# What a check with effects reports

Rendering and gluing may have effects, and what a view renders need not be the same twice. Still each
pass of a check reports at most one conflict for each view, or for each ordered pair of complete views,
and a conflict is of the sort of its pass and between the views that it was found for.
-/

namespace AgentAlgebra

open MonadAttach LawfulMonadAttach

section

variable {m : Type → Type} [Monad m] [LawfulMonad m] [MonadAttach m] [LawfulMonadAttach m]
  {α β γ : Type}

/-- What is computed member by member has what was returned for each item in its place. -/
theorem forall₂_of_canReturn_mapM {visit : α → m β} {items : List α} {found : List β}
    (visited : CanReturn (items.mapM visit) found) :
    List.Forall₂ (fun a b => CanReturn (visit a) b) items found := by
  induction items generalizing found with
  | nil =>
    rw [List.mapM_nil] at visited
    obtain rfl := eq_of_canReturn_pure visited
    exact .nil
  | cons a items ih =>
    rw [List.mapM_cons] at visited
    obtain ⟨first, here, rest⟩ := canReturn_bind_imp' visited
    obtain ⟨others, there, whole⟩ := canReturn_bind_imp' rest
    obtain rfl := eq_of_canReturn_pure whole
    exact .cons here (ih there)

/-- A pass that may report something of each item reports of items in their order. -/
theorem reported_of_canReturn {visit : α → m (Option β)} {items : List α} {found : List β}
    {key : α → γ} {shown : β → γ} {Fits : β → Prop}
    (shows : ∀ a ∈ items, ∀ b, CanReturn (visit a) (some b) → shown b = key a ∧ Fits b)
    (returned : CanReturn (do
      let found ← items.mapM visit
      return found.filterMap fun b => b) found) :
    (found.map shown).Sublist (items.map key) ∧ ∀ b ∈ found, Fits b := by
  obtain ⟨results, visited, whole⟩ := canReturn_bind_imp' returned
  obtain rfl := eq_of_canReturn_pure whole
  have each := forall₂_of_canReturn_mapM visited
  clear visited whole returned
  induction each with
  | nil => exact ⟨.refl _, nofun⟩
  | @cons a result items results here _ ih =>
    rw [List.forall_mem_cons] at shows
    obtain ⟨order, others⟩ := ih shows.2
    cases result with
    | none => exact ⟨order.cons _, others⟩
    | some b =>
      obtain ⟨same, fits⟩ := shows.1 b here
      refine ⟨?_, List.forall_mem_cons.mpr ⟨fits, others⟩⟩
      rw [List.map_cons, ← same]
      exact order.cons_cons _

end

namespace Conflict

/-- The key whose hash is the id of a conflict of a sheaf. -/
def witnessKey (sheaf : String) (conflict : Conflict) : WitnessKey :=
  key conflict.failure sheaf conflict.source conflict.target conflict.expected conflict.found

theorem witnessId_of (sheaf : String) (failure : FailureClass) (source target : String)
    (expected found : Value) (distance : Option Double) (description : String) :
    (of sheaf failure source target expected found distance description).witnessId =
      ((of sheaf failure source target expected found distance description).witnessKey sheaf).id := by
  dsimp only [of, witnessKey]

variable {m : Type → Type} {complete : List (View m × Value)}

/-- A conflict with the artifact glued from all renderings. -/
structure OfGlue (sheaf : String) (all : Renderings) (conflict : Conflict) : Prop where
  id : conflict.witnessId = (conflict.witnessKey sheaf).id
  source : conflict.source = allViews
  failure : conflict.failure = FailureClass.glueUnfaithful.name ∨
    conflict.failure = FailureClass.glueUndefined.name ∧ conflict.expected = .ofFields all

/-- A conflict between two complete views, given with what they render. -/
structure OfPair (sheaf : String) (complete : List (View m × Value)) (conflict : Conflict) : Prop where
  id : conflict.witnessId = (conflict.witnessKey sheaf).id
  failure : conflict.failure = FailureClass.glueUndefined.name ∨
    conflict.failure = FailureClass.completeViewsDisagree.name
  source : ∃ source ∈ complete, source.1.name = conflict.source
  target : ∃ target ∈ complete, target.1.name = conflict.target ∧ target.2 = conflict.expected
  apart : conflict.source ≠ conflict.target

/-- A conflict of a lossy view with the canonical one. -/
structure OfLossy (sheaf canonical : String) (conflict : Conflict) : Prop where
  id : conflict.witnessId = (conflict.witnessKey sheaf).id
  source : conflict.source = canonical
  failure : conflict.failure = FailureClass.lossyViewContradiction.name

end Conflict

namespace CoherenceCheck

open Conflict

section

variable {m : Type → Type} [Monad m]

/-- The conflicts of what is glued from one view alone. -/
def conflictsFrom (sheaf : Sheaf m) (complete : List (View m × Value)) (source : View m × Value) :
    m (List Conflict) := do
  let glued ← sheaf.glue (.ofList [(source.1.name, source.2)])
  let others := complete.filter fun (target : View m × Value) => target.1.name != source.1.name
  let found ← others.mapM fun (target : View m × Value) =>
    pairConflict? sheaf source.1 glued target.1 target.2
  return found.filterMap fun conflict => conflict

theorem pairConflicts_eq [LawfulMonad m] (sheaf : Sheaf m) (complete : List (View m × Value)) :
    pairConflicts sheaf complete =
      List.flatten <$> complete.mapM (conflictsFrom sheaf complete) := by
  rw [map_eq_pure_bind]
  rfl

end

variable {m : Type → Type} [Monad m] [LawfulMonad m] [MonadAttach m] [LawfulMonadAttach m]
  {sheaf : Sheaf m} {all : Renderings} {complete lossy : List (View m × Value)}
  {found : List Conflict}

theorem of_glueConflicts (distinct : (complete.map (·.1.name)).Nodup)
    (returned : CanReturn (glueConflicts sheaf all complete) found) :
    (found.map Conflict.target).Nodup ∧ ∀ conflict ∈ found, conflict.OfGlue sheaf.name all := by
  unfold glueConflicts at returned
  obtain ⟨glued, -, rest⟩ := canReturn_bind_imp' returned
  cases glued with
  | none =>
    obtain rfl := eq_of_canReturn_pure rest
    refine ⟨List.nodup_singleton _, fun conflict mem => ?_⟩
    obtain rfl := List.mem_singleton.mp mem
    exact ⟨witnessId_of .., rfl, .inr ⟨rfl, rfl⟩⟩
  | some glued =>
    have shows (entry : View m × Value) (conflict : Conflict)
        (visited : CanReturn (do
          let found ← entry.1.render glued
          if found != entry.2 then
            return some (Conflict.of sheaf.name .glueUnfaithful Conflict.allViews entry.1.name
              entry.2 found none s!"glued artifact does not re-render view {entry.1.name}")
          else return none) (some conflict)) :
        conflict.target = entry.1.name ∧ conflict.OfGlue sheaf.name all := by
      obtain ⟨rendered, -, rest⟩ := canReturn_bind_imp' visited
      split at rest
      · obtain rfl := Option.some.inj (eq_of_canReturn_pure rest)
        exact ⟨rfl, witnessId_of .., rfl, .inl rfl⟩
      · exact nomatch eq_of_canReturn_pure rest
    obtain ⟨order, members⟩ := reported_of_canReturn (fun entry _ => shows entry) rest
    exact ⟨distinct.sublist order, members⟩

theorem of_lossyConflicts {checking : CoherenceCheck m} {truth : Value}
    (distinct : (lossy.map (·.1.name)).Nodup)
    (returned : CanReturn (checking.lossyConflicts sheaf truth lossy) found) :
    (found.map Conflict.target).Nodup ∧
      ∀ conflict ∈ found, conflict.OfLossy sheaf.name sheaf.canonical.name := by
  have shows (entry : View m × Value) (conflict : Conflict)
      (visited : CanReturn (checking.lossyConflict? sheaf truth entry.1 entry.2) (some conflict)) :
      conflict.target = entry.1.name ∧ conflict.OfLossy sheaf.name sheaf.canonical.name := by
    unfold lossyConflict? at visited
    split at visited
    · exact nomatch eq_of_canReturn_pure visited
    · obtain ⟨unsupported, -, rest⟩ := canReturn_bind_imp' visited
      obtain ⟨distance, -, rest⟩ := canReturn_bind_imp' rest
      dsimp only at rest
      split at rest
      · exact nomatch eq_of_canReturn_pure rest
      · obtain rfl := Option.some.inj (eq_of_canReturn_pure rest)
        exact ⟨rfl, witnessId_of .., rfl, rfl⟩
  obtain ⟨order, members⟩ := reported_of_canReturn (fun entry _ => shows entry) returned
  exact ⟨distinct.sublist order, members⟩

theorem of_pairConflict {source target : View m × Value} {glued : Option Value} {conflict : Conflict}
    (mem : source ∈ complete) (mem' : target ∈ complete) (apart : target.1.name ≠ source.1.name)
    (returned : CanReturn (pairConflict? sheaf source.1 glued target.1 target.2) (some conflict)) :
    conflict.views = (source.1.name, target.1.name) ∧ conflict.OfPair sheaf.name complete := by
  unfold pairConflict? at returned
  cases glued with
  | none =>
    obtain rfl := Option.some.inj (eq_of_canReturn_pure returned)
    exact ⟨rfl, witnessId_of .., .inl rfl, ⟨source, mem, rfl⟩, ⟨target, mem', rfl, rfl⟩, apart.symm⟩
  | some glued =>
    obtain ⟨rendered, -, rest⟩ := canReturn_bind_imp' returned
    split at rest
    · obtain rfl := Option.some.inj (eq_of_canReturn_pure rest)
      exact ⟨rfl, witnessId_of .., .inr rfl, ⟨source, mem, rfl⟩, ⟨target, mem', rfl, rfl⟩,
        apart.symm⟩
    · exact nomatch eq_of_canReturn_pure rest

theorem source_mem_of_mem_flatten {names : List String} {results : List (List Conflict)}
    (each : List.Forall₂ (fun name result => ∀ conflict ∈ result, conflict.source = name)
      names results)
    {conflict : Conflict} (mem : conflict ∈ results.flatten) : conflict.source ∈ names := by
  induction each with
  | nil => exact nomatch mem
  | cons here _ ih =>
    rcases List.mem_append.mp mem with mem | mem
    · exact here conflict mem ▸ List.mem_cons_self
    · exact List.mem_cons_of_mem _ (ih mem)

/-- Conflicts that are listed source by source, for each source target by target, are all between
different pairs. -/
theorem nodup_flatten {names : List String} {results : List (List Conflict)} (distinct : names.Nodup)
    (each : List.Forall₂ (fun name result => (result.map Conflict.target).Nodup ∧
      ∀ conflict ∈ result, conflict.source = name) names results) :
    (results.flatten.map Conflict.views).Nodup := by
  induction each with
  | nil => exact .nil
  | @cons name result names results here others ih =>
    obtain ⟨fresh, distinct⟩ := List.nodup_cons.mp distinct
    rw [List.flatten_cons, List.map_append, List.nodup_append']
    refine ⟨.of_map Prod.snd ?_, ih distinct, ?_⟩
    · rw [List.map_map]
      exact here.1
    · intro views shown shown'
      obtain ⟨one, mem, rfl⟩ := List.mem_map.mp shown
      obtain ⟨other, mem', same⟩ := List.mem_map.mp shown'
      have sources : other.source = one.source := congrArg Prod.fst same
      rw [here.2 one mem] at sources
      have listed := source_mem_of_mem_flatten (others.imp fun _ _ each => each.2) mem'
      exact fresh (sources ▸ listed)

theorem of_conflictsFrom {source : View m × Value} (distinct : (complete.map (·.1.name)).Nodup)
    (mem : source ∈ complete) (returned : CanReturn (conflictsFrom sheaf complete source) found) :
    (found.map Conflict.target).Nodup ∧ ∀ conflict ∈ found,
      conflict.source = source.1.name ∧ conflict.OfPair sheaf.name complete := by
  obtain ⟨glued, -, rest⟩ := canReturn_bind_imp' returned
  have shows : ∀ target ∈ complete.filter fun target => target.1.name != source.1.name, ∀ conflict,
      CanReturn (pairConflict? sheaf source.1 glued target.1 target.2) (some conflict) →
        conflict.target = target.1.name ∧
          (conflict.source = source.1.name ∧ conflict.OfPair sheaf.name complete) := by
    intro target mem' conflict visited
    obtain ⟨among, apart⟩ := List.mem_filter.mp mem'
    obtain ⟨views, ofPair⟩ := of_pairConflict mem among (by simpa using apart) visited
    exact ⟨congrArg Prod.snd views, congrArg Prod.fst views, ofPair⟩
  obtain ⟨order, members⟩ := reported_of_canReturn shows rest
  exact ⟨(distinct.sublist (List.filter_sublist.map _)).sublist order, members⟩

theorem of_pairConflicts (distinct : (complete.map (·.1.name)).Nodup)
    (returned : CanReturn (pairConflicts sheaf complete) found) :
    (found.map Conflict.views).Nodup ∧ ∀ conflict ∈ found, conflict.OfPair sheaf.name complete := by
  rw [pairConflicts_eq] at returned
  obtain ⟨results, visited, rfl⟩ := canReturn_map_imp' returned
  constructor
  · have each := (List.forall₂_and_left _ _).mpr
      ⟨fun source mem => mem, forall₂_of_canReturn_mapM visited⟩
    refine nodup_flatten distinct (List.forall₂_map_left_iff.mpr (each.imp ?_))
    rintro source result ⟨mem, here⟩
    obtain ⟨targets, members⟩ := of_conflictsFrom distinct mem here
    exact ⟨targets, fun conflict among => (members conflict among).1⟩
  · intro conflict mem
    obtain ⟨result, among, inside⟩ := List.mem_flatten.mp mem
    obtain ⟨source, mem', here⟩ := canReturn_mapM visited among
    exact ((of_conflictsFrom distinct mem' here).2 conflict inside).2

/-- Every view is rendered once, in order. -/
theorem of_renderEach {artifact : Value} {rendered : List (View m × Value)}
    (returned : CanReturn (sheaf.renderEach artifact) rendered) :
    rendered.map (·.1) = sheaf.views := by
  have each := forall₂_of_canReturn_mapM returned
  clear returned
  generalize sheaf.views = views at each ⊢
  induction each with
  | nil => rfl
  | cons here _ ih =>
    obtain ⟨rendering, -, pair⟩ := canReturn_bind_imp' here
    obtain rfl := eq_of_canReturn_pure pair
    rw [List.map_cons, ih]

/-- What the three passes of a check report, with what all views and the complete ones render. -/
structure Passes (sheaf : Sheaf m) (all : Renderings) (complete : List (View m × Value))
    (ofGlue ofPairs ofLossy : List Conflict) : Prop where
  held : ∀ entry ∈ complete, entry.1 ∈ sheaf.completeViews ∧ all.get? entry.1.name = some entry.2
  glueTargets : (ofGlue.map Conflict.target).Nodup
  glue : ∀ conflict ∈ ofGlue, conflict.OfGlue sheaf.name all
  pairViews : (ofPairs.map Conflict.views).Nodup
  pairs : ∀ conflict ∈ ofPairs, conflict.OfPair sheaf.name complete
  lossyTargets : (ofLossy.map Conflict.target).Nodup
  lossy : ∀ conflict ∈ ofLossy, conflict.OfLossy sheaf.name sheaf.canonical.name

/-- The result of a check is what its three passes report, one behind the other. -/
theorem passes_of_check {checking : CoherenceCheck m} {artifact : Value} {outcome : Coherence}
    (returned : CanReturn (checking.check sheaf artifact) outcome) :
    ∃ (all : Renderings) (complete : List (View m × Value)) (ofGlue ofPairs ofLossy : List Conflict),
      outcome.list = ofGlue ++ ofPairs ++ ofLossy ∧
        Passes sheaf all complete ofGlue ofPairs ofLossy := by
  unfold check at returned
  obtain ⟨rendered, each, rest⟩ := canReturn_bind_imp' returned
  obtain ⟨ofGlue, glued, rest⟩ := canReturn_bind_imp' rest
  obtain ⟨ofPairs, paired, rest⟩ := canReturn_bind_imp' rest
  obtain ⟨ofLossy, compared, rest⟩ := canReturn_bind_imp' rest
  obtain rfl := eq_of_canReturn_pure rest
  have views := of_renderEach each
  have distinct : (rendered.map (·.1.name)).Nodup := by
    have names := sheaf.nodup_names
    rw [← views, List.map_map] at names
    exact names
  have part (kept : View m × Value → Bool) : ((rendered.filter kept).map (·.1.name)).Nodup :=
    distinct.sublist (List.filter_sublist.map _)
  obtain ⟨glueTargets, glue⟩ := of_glueConflicts (part _) glued
  obtain ⟨pairViews, pairs⟩ := of_pairConflicts (part _) paired
  obtain ⟨lossyTargets, lossy⟩ := of_lossyConflicts (part _) compared
  refine ⟨.ofViews rendered, rendered.filter (!·.1.lossy), ofGlue, ofPairs, ofLossy,
    Coherence.list_ofConflicts _, fun entry mem => ?_, glueTargets, glue, pairViews, pairs,
    lossyTargets, lossy⟩
  obtain ⟨among, notLossy⟩ := List.mem_filter.mp mem
  constructor
  · exact List.mem_filter.mpr ⟨views ▸ List.mem_map_of_mem among, notLossy⟩
  · exact Renderings.get?_ofViews distinct among

end CoherenceCheck

end AgentAlgebra
