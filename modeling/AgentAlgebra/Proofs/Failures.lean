import AgentAlgebra.Coherence.Checking
import AgentAlgebra.Proofs.Renderings
import Mathlib.Data.List.ProdSigma
/-!
# The failures of an artifact

What is wrong with the views of an artifact, said without the checker: complete views that do not
render the glued artifact as they should, ordered pairs of complete views of which the first does not
give back what the second renders, and lossy views that contradict the canonical one. Checking
reports exactly these, once each and in this order, and an artifact is coherent if there are none.
-/

namespace AgentAlgebra

variable {m : Type → Type} [Monad m]

/-- A view renders an artifact that was glued otherwise than the one it came from. -/
def View.differs (view : View Id) (artifact glued : Value) : Bool :=
  (view.render glued).run != (view.render artifact).run

namespace Sheaf

variable (sheaf : Sheaf Id) (artifact : Value)

/-- The artifact glued from what one view renders. -/
def gluedFrom (view : View Id) : Option Value :=
  (sheaf.glue (.ofList [(view.name, (view.render artifact).run)])).run

/-- All ordered pairs of two complete views, those with one source next to each other. -/
def pairs : List (View Id × View Id) :=
  (sheaf.completeViews ×ˢ sheaf.completeViews).filter fun (source, target) =>
    target.name != source.name

/-- The glue makes nothing of all renderings, or makes an artifact that complete views render
otherwise. -/
def glueFailures : List Conflict :=
  match (sheaf.glue (sheaf.renderings artifact)).run with
  | none =>
    [.of sheaf.name .glueUndefined Conflict.allViews sheaf.canonical.name
      (.ofFields (sheaf.renderings artifact)) .null none
      "glue produced no artifact from the full set of renderings"]
  | some glued =>
    (sheaf.completeViews.filter (·.differs artifact glued)).map fun view =>
      .of sheaf.name .glueUnfaithful Conflict.allViews view.name (view.render artifact).run
        (view.render glued).run none s!"glued artifact does not re-render view {view.name}"

/-- The glue makes nothing of what the one view renders, or makes an artifact that the other renders
otherwise. -/
def pairFailure? (source target : View Id) : Option Conflict :=
  match sheaf.gluedFrom artifact source with
  | none =>
    some (.of sheaf.name .glueUndefined source.name target.name (target.render artifact).run .null
      none s!"glue cannot reconstruct from view {source.name} alone")
  | some glued =>
    if target.differs artifact glued then
      some (.of sheaf.name .completeViewsDisagree source.name target.name
        (target.render artifact).run (target.render glued).run none
        s!"view {target.name} does not round-trip through view {source.name}")
    else none

/-- The failures of the pairs of complete views. -/
def pairFailures : List Conflict :=
  sheaf.pairs.filterMap fun (source, target) => sheaf.pairFailure? artifact source target

end Sheaf

/-- A pure measure in a program with effects. -/
def TextDistance.lifted (distance : TextDistance Id) : TextDistance m where
  name := distance.name
  distance truth claimed := pure (distance.distance truth claimed).run
  unsupported truth claimed := pure (distance.unsupported truth claimed).run

namespace CoherenceCheck

variable (checking : CoherenceCheck Id)

/-- A check by a pure measure in a program with effects. -/
def lifted : CoherenceCheck m := ⟨checking.settings, checking.distance.lifted⟩

/-- The parts of a claim that the truth gives no support for. -/
def unsupported (truth claimed : Value) : List String :=
  (checking.distance.unsupported truth.flatText claimed.flatText).run

/-- How far a claim is from the truth, between zero and one. -/
def apart (truth claimed : Value) : Double :=
  (checking.distance.distance truth.flatText claimed.flatText).run.toUnitInterval

/-- A claim that the truth does not entail, and that asserts what has no support or is too far from
the truth. -/
def contradicts (truth claimed : Value) : Bool :=
  !truth.entails claimed && (!(checking.unsupported truth claimed).isEmpty ||
    !(Extended.finite (checking.apart truth claimed)).ble checking.settings.maxLossyDistance)

/-- The contradiction of a claim with the truth. -/
def lossyReport (sheaf canonical view : String) (truth claimed : Value) : Conflict :=
  .of sheaf .lossyViewContradiction canonical view truth claimed (some (checking.apart truth claimed))
    (lossyDescription checking.settings.maxLossyDistance view canonical
      (checking.unsupported truth claimed) (checking.apart truth claimed))

/-- The lossy views that contradict the canonical one. -/
def lossyFailures (sheaf : Sheaf Id) (artifact : Value) : List Conflict :=
  let truth := (sheaf.canonical.render artifact).run
  (sheaf.lossyViews.filter fun view =>
    checking.contradicts truth (view.render artifact).run).map fun view =>
      let claimed := (view.render artifact).run
      .of sheaf.name .lossyViewContradiction sheaf.canonical.name view.name truth claimed
        (some (checking.apart truth claimed))
        (lossyDescription checking.settings.maxLossyDistance view.name sheaf.canonical.name
          (checking.unsupported truth claimed) (checking.apart truth claimed))

end CoherenceCheck

/-- Reporting what satisfies a test is filtering. -/
theorem filterMap_ite {α β : Type} (test : α → Bool) (report : α → β) (items : List α) :
    (items.filterMap fun a => if test a then some (report a) else none) =
      (items.filter test).map report := by
  induction items with
  | nil => rfl
  | cons item items ih => by_cases holds : test item = true <;> simp [holds, ih]

theorem mapM_of_pure {α β : Type} [LawfulMonad m] {visit : α → m β} {result : α → β}
    (each : ∀ a, visit a = pure (result a)) (items : List α) :
    items.mapM visit = pure (items.map result) := by
  rw [funext each, List.mapM_pure]

/-- A pass without effects reports what it finds member by member. -/
theorem mapM_reported {α β : Type} [LawfulMonad m] {visit : α → m (Option β)}
    {report : α → Option β} (each : ∀ a, visit a = pure (report a)) (items : List α) :
    (do
      let found ← items.mapM visit
      return found.filterMap fun conflict => conflict) = pure (items.filterMap report) := by
  rw [mapM_of_pure each, pure_bind, List.filterMap_map]
  rfl

namespace CoherenceCheck

variable [LawfulMonad m] (sheaf : Sheaf Id) (artifact : Value)

/-- A view in a program with effects, with what it renders. -/
def carried (view : View Id) : View m × Value := (view.lifted, (view.render artifact).run)

theorem glueConflicts_lifted :
    glueConflicts (sheaf.lifted : Sheaf m) (sheaf.renderings artifact)
      (sheaf.completeViews.map (carried artifact)) = pure (sheaf.glueFailures artifact) := by
  unfold glueConflicts Sheaf.glueFailures
  have glue : (sheaf.lifted : Sheaf m).glue (sheaf.renderings artifact) =
      pure (sheaf.glue (sheaf.renderings artifact)).run := rfl
  rw [glue, pure_bind]
  cases (sheaf.glue (sheaf.renderings artifact)).run with
  | none => rfl
  | some glued =>
    dsimp only
    rw [List.mapM_map, mapM_reported, filterMap_ite]
    intro view
    refine (pure_bind (view.render glued).run _).trans ?_
    exact (apply_ite pure _ _ _).symm

theorem pairConflict_lifted (source target : View Id) :
    pairConflict? (sheaf.lifted : Sheaf m) source.lifted (sheaf.gluedFrom artifact source)
      target.lifted (target.render artifact).run =
        pure (sheaf.pairFailure? artifact source target) := by
  unfold pairConflict? Sheaf.pairFailure?
  cases sheaf.gluedFrom artifact source with
  | none => rfl
  | some glued =>
    refine (pure_bind (target.render glued).run _).trans ?_
    exact (apply_ite pure _ _ _).symm

theorem pairFailures_eq :
    sheaf.pairFailures artifact = sheaf.completeViews.flatMap fun source =>
      (sheaf.completeViews.filter fun target => target.name != source.name).filterMap
        (sheaf.pairFailure? artifact source) := by
  unfold Sheaf.pairFailures Sheaf.pairs
  rw [SProd.sprod, List.instSProd]
  dsimp only
  unfold List.product
  rw [List.filter_flatMap, List.filterMap_flatMap]
  simp only [List.filter_map, List.filterMap_map]
  rfl

theorem pairConflicts_lifted :
    pairConflicts (sheaf.lifted : Sheaf m) (sheaf.completeViews.map (carried artifact)) =
      pure (sheaf.pairFailures artifact) := by
  unfold pairConflicts
  rw [pairFailures_eq, List.mapM_map, mapM_of_pure, pure_bind, List.flatMap_def]
  intro source
  refine (pure_bind (sheaf.gluedFrom artifact source) _).trans ?_
  dsimp only
  rw [List.filter_map, List.mapM_map]
  exact mapM_reported (pairConflict_lifted sheaf artifact source) _

/-- What a check of pure views comes to, whatever effects measuring distance has. -/
theorem check_lifted (checking : CoherenceCheck m) :
    checking.check sheaf.lifted artifact =
      (fun lossy => Coherence.ofConflicts
        (sheaf.glueFailures artifact ++ sheaf.pairFailures artifact ++ lossy)) <$>
          checking.lossyConflicts sheaf.lifted (sheaf.canonical.render artifact).run
            (sheaf.lossyViews.map (carried artifact)) := by
  unfold check
  have complete : (sheaf.views.map (carried artifact)).filter
      (fun rendered : View m × Value => !rendered.1.lossy) =
        sheaf.completeViews.map (carried artifact) := by
    rw [List.filter_map]
    rfl
  have lossy : (sheaf.views.map (carried artifact)).filter
      (fun rendered : View m × Value => rendered.1.lossy) =
        sheaf.lossyViews.map (carried artifact) := by
    rw [List.filter_map]
    rfl
  have all : Renderings.ofViews (sheaf.views.map (carried artifact : View Id → View m × Value)) =
      sheaf.renderings artifact := by
    unfold Renderings.ofViews Sheaf.renderings Sheaf.rendered Renderings.ofViews
    rw [List.map_map, List.map_map]
    rfl
  have truth : ((sheaf.renderings artifact).get? sheaf.canonical.name).getD .null =
      (sheaf.canonical.render artifact).run := by
    rw [Sheaf.get?_renderings artifact sheaf.canonical_mem]
    rfl
  have rendered : (sheaf.lifted : Sheaf m).renderEach artifact =
    pure (sheaf.views.map (carried artifact)) := Sheaf.renderEach_lifted sheaf artifact
  have canonical : (sheaf.lifted : Sheaf m).canonical.name = sheaf.canonical.name := rfl
  rw [rendered, pure_bind]
  dsimp only
  rw [all, canonical, truth, complete, lossy, glueConflicts_lifted, pure_bind,
    pairConflicts_lifted, pure_bind, map_eq_pure_bind]

variable (checking : CoherenceCheck Id)

/-- What a pure measure says of one lossy rendering, with any effects of the views. -/
theorem lossyConflict_lifted (sheaf : Sheaf m) (truth claimed : Value) (view : View m) :
    (checking.lifted : CoherenceCheck m).lossyConflict? sheaf truth view claimed =
      pure (if checking.contradicts truth claimed then
        some (checking.lossyReport sheaf.name sheaf.canonical.name view.name truth claimed)
      else none) := by
  unfold lossyConflict? contradicts
  cases truth.entails claimed with
  | true => rfl
  | false =>
    dsimp only [lifted, TextDistance.lifted]
    rw [if_neg Bool.false_ne_true, pure_bind, pure_bind]
    change (if (checking.unsupported truth claimed).isEmpty &&
        (Extended.finite (checking.apart truth claimed)).ble checking.settings.maxLossyDistance
      then pure none else pure (some _)) = _
    cases (checking.unsupported truth claimed).isEmpty with
    | false => rfl
    | true =>
      cases (Extended.finite (checking.apart truth claimed)).ble
        checking.settings.maxLossyDistance with
      | false => rfl
      | true => rfl

theorem lossyConflicts_lifted (sheaf : Sheaf m) (truth : Value)
    (lossy : List (View m × Value)) :
    (checking.lifted : CoherenceCheck m).lossyConflicts sheaf truth lossy =
      pure ((lossy.filter fun entry => checking.contradicts truth entry.2).map fun entry =>
        checking.lossyReport sheaf.name sheaf.canonical.name entry.1.name truth entry.2) := by
  unfold lossyConflicts
  rw [← filterMap_ite]
  exact mapM_reported (fun entry => lossyConflict_lifted checking sheaf truth entry.2 entry.1) lossy

theorem lossyConflicts_eq :
    checking.lossyConflicts sheaf (sheaf.canonical.render artifact).run
      (sheaf.lossyViews.map (carried artifact)) =
        pure (checking.lossyFailures sheaf artifact) := by
  refine (lossyConflicts_lifted checking sheaf _ _).trans ?_
  rw [List.filter_map, List.map_map]
  rfl

end CoherenceCheck

namespace Coherence

@[simp]
theorem list_ofConflicts (found : List Conflict) : (ofConflicts found).list = found := by
  cases found <;> rfl

@[simp]
theorem ofConflicts_eq_coherent {found : List Conflict} :
    ofConflicts found = .coherent ↔ found = [] := by
  cases found <;> simp [ofConflicts]

end Coherence

/-- The two views that a conflict is between. -/
def Conflict.views (conflict : Conflict) : String × String := (conflict.source, conflict.target)

/-- What is reported of members shows them in their order, without those that are fine. -/
theorem sublist_map_filterMap {α β γ : Type} {report : α → Option β} {key : α → γ} {shown : β → γ}
    (shows : ∀ a b, report a = some b → shown b = key a) (items : List α) :
    ((items.filterMap report).map shown).Sublist (items.map key) := by
  induction items with
  | nil => exact .refl _
  | cons item items ih =>
    cases found : report item with
    | none =>
      rw [List.filterMap_cons_none found, List.map_cons]
      exact ih.cons _
    | some b =>
      rw [List.filterMap_cons_some found, List.map_cons, List.map_cons, shows item b found]
      exact ih.cons_cons _

namespace Sheaf

variable (sheaf : Sheaf Id) (artifact : Value)

theorem nodup_named {views : List (View Id)} (sub : views.Sublist sheaf.views) (source : String) :
    (views.map fun view => (source, view.name)).Nodup := by
  have names : (views.map (·.name)).Nodup := sheaf.nodup_names.sublist (sub.map _)
  have named := names.map (Prod.mk_right_injective source)
  rwa [List.map_map] at named

theorem nodup_glueFailures : ((sheaf.glueFailures artifact).map Conflict.views).Nodup := by
  unfold glueFailures
  cases (sheaf.glue (sheaf.renderings artifact)).run with
  | none => exact List.nodup_singleton _
  | some glued =>
    dsimp only
    rw [List.map_map]
    exact sheaf.nodup_named (List.filter_sublist.trans List.filter_sublist) Conflict.allViews

/-- A failure of a pair of views is between these two, and is of one of two sorts. -/
theorem of_pairFailure {source target : View Id} {conflict : Conflict}
    (failure : sheaf.pairFailure? artifact source target = some conflict) :
    conflict.views = (source.name, target.name) ∧
      (conflict.failure = FailureClass.glueUndefined.name ∨
        conflict.failure = FailureClass.completeViewsDisagree.name) := by
  unfold pairFailure? at failure
  cases glued : sheaf.gluedFrom artifact source with
  | none =>
    rw [glued] at failure
    obtain rfl := Option.some.inj failure
    exact ⟨rfl, .inl rfl⟩
  | some other =>
    rw [glued] at failure
    dsimp only at failure
    obtain ⟨-, same⟩ := Option.ite_none_right_eq_some.mp failure
    obtain rfl := Option.some.inj same
    exact ⟨rfl, .inr rfl⟩

theorem nodup_pairFailures : ((sheaf.pairFailures artifact).map Conflict.views).Nodup := by
  have shown : ((sheaf.pairFailures artifact).map Conflict.views).Sublist
      (sheaf.pairs.map fun (source, target) => (source.name, target.name)) :=
    sublist_map_filterMap (fun _ _ failure => (sheaf.of_pairFailure artifact failure).1) _
  have complete : sheaf.completeViews.Nodup :=
    (List.Nodup.of_map _ sheaf.nodup_names).sublist List.filter_sublist
  have pairs : sheaf.pairs.Nodup := (complete.product complete).filter _
  refine List.Nodup.sublist shown (pairs.map_on ?_)
  rintro ⟨source, target⟩ mem ⟨source', target'⟩ mem' same
  obtain ⟨sources, targets⟩ := Prod.mk.inj same
  have view {v w : View Id} (pair : (v, w) ∈ sheaf.pairs) : v ∈ sheaf.views ∧ w ∈ sheaf.views := by
    have both := List.mem_product.mp (List.mem_filter.mp pair).1
    exact ⟨(List.mem_filter.mp both.1).1, (List.mem_filter.mp both.2).1⟩
  rw [eq_of_name (view mem).1 (view mem').1 sources, eq_of_name (view mem).2 (view mem').2 targets]

end Sheaf

namespace CoherenceCheck

variable (checking : CoherenceCheck Id) (sheaf : Sheaf Id) (artifact : Value)

theorem nodup_lossyFailures :
    ((checking.lossyFailures sheaf artifact).map Conflict.views).Nodup := by
  unfold lossyFailures
  rw [List.map_map]
  exact sheaf.nodup_named (List.filter_sublist.trans List.filter_sublist) sheaf.canonical.name

/-- A sheaf is what passes the tests of its views, so all renderings are found under their names. What
checking reports of an artifact is what is wrong with the glue, with pairs of complete views and with
lossy views, in this order, each failure once; the artifact is coherent if that is nothing. -/
theorem check_exact :
    Sheaf.ofViews sheaf.name sheaf.views sheaf.canonical.name sheaf.glue = .ok sheaf ∧
      (∀ view ∈ sheaf.views,
        (sheaf.renderings artifact).get? view.name = some (view.render artifact).run) ∧
      (checking.check sheaf artifact).run.list =
        sheaf.glueFailures artifact ++ sheaf.pairFailures artifact ++
          checking.lossyFailures sheaf artifact ∧
      ((checking.check sheaf artifact).run = .coherent ↔
        sheaf.glueFailures artifact = [] ∧ sheaf.pairFailures artifact = [] ∧
          checking.lossyFailures sheaf artifact = []) ∧
      ((sheaf.glueFailures artifact).map Conflict.views).Nodup ∧
      ((sheaf.pairFailures artifact).map Conflict.views).Nodup ∧
      ((checking.lossyFailures sheaf artifact).map Conflict.views).Nodup := by
  have result : checking.check sheaf artifact = .ofConflicts (sheaf.glueFailures artifact ++
      sheaf.pairFailures artifact ++ checking.lossyFailures sheaf artifact) := by
    have lifted := check_lifted sheaf artifact checking
    rw [Sheaf.lifted_id, lossyConflicts_eq] at lifted
    exact lifted
  refine ⟨sheaf.ofViews_self, fun view mem => Sheaf.get?_renderings artifact mem, ?_, ?_,
    sheaf.nodup_glueFailures artifact, sheaf.nodup_pairFailures artifact,
    checking.nodup_lossyFailures sheaf artifact⟩
  · rw [result]
    exact Coherence.list_ofConflicts _
  · rw [result]
    exact Coherence.ofConflicts_eq_coherent.trans (by simp)

end CoherenceCheck

end AgentAlgebra
