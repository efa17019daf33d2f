import AgentAlgebra.Proofs.EffectfulChecks
/-!
# The limit of lossy distance

Only whether a lossy rendering is close enough depends on the limit. So a check is what it sees of the
views, whatever effects they have, and from that a result for each limit: a looser limit forgives some
of the contradictions of lossy views and nothing else. What the truth gives no support for is never
forgiven, and the distances that are reported lie between zero and one, whatever the measure says.
-/

namespace AgentAlgebra

open MonadAttach LawfulMonadAttach

/-- Between zero and one. -/
def Double.InUnitInterval (x : Double) : Prop := 0 ≤ x.units ∧ x.units ≤ one.units

namespace Extended

theorem inUnitInterval_toUnitInterval (x : Extended) : x.toUnitInterval.InUnitInterval := by
  have zero : (Double.zero false).InUnitInterval := ⟨by decide, by decide⟩
  have one : Double.one.InUnitInterval := ⟨by decide, by decide⟩
  cases x with
  | nan => exact one
  | infinite negative =>
    cases negative with
    | true => exact zero
    | false => exact one
  | finite x =>
    unfold toUnitInterval
    dsimp only
    split
    · exact zero
    · split
      · exact one
      · rename_i notBelow notAbove
        exact ⟨Int.not_lt.mp notBelow, Int.not_lt.mp notAbove⟩

/-- What is within a limit is within a looser one. -/
theorem finite_ble_of_ble {x : Double} {limit limit' : Extended}
    (within : (finite x).ble limit = true) (looser : limit.ble limit' = true) :
    (finite x).ble limit' = true := by
  cases limit with
  | nan => exact absurd within Bool.false_ne_true
  | infinite negative =>
    cases negative with
    | true => exact absurd within Bool.false_ne_true
    | false =>
      cases limit' with
      | nan => exact absurd looser Bool.false_ne_true
      | infinite negative =>
        cases negative with
        | true => exact absurd looser Bool.false_ne_true
        | false => rfl
      | finite z => exact absurd looser Bool.false_ne_true
  | finite y =>
    cases limit' with
    | nan => exact absurd looser Bool.false_ne_true
    | infinite negative =>
      cases negative with
      | true => exact absurd looser Bool.false_ne_true
      | false => rfl
    | finite z =>
      have below : x.units ≤ y.units := of_decide_eq_true within
      have above : y.units ≤ z.units := of_decide_eq_true looser
      exact decide_eq_true (below.trans above)

end Extended

/-- A conflict up to its description. -/
def Conflict.undescribed (conflict : Conflict) : Conflict := { conflict with description := "" }

/-- A conflict of views that must agree exactly, so that no distance is measured. -/
structure Conflict.Exact (conflict : Conflict) : Prop where
  failure : conflict.failure ≠ FailureClass.lossyViewContradiction.name
  distance : conflict.distance = none

theorem Conflict.exact_of {sheaf source target description : String} {failure : FailureClass}
    {expected found : Value} (other : failure.name ≠ FailureClass.lossyViewContradiction.name) :
    (of sheaf failure source target expected found none description).Exact := ⟨other, rfl⟩

/-- What a check sees before it compares texts: what each view renders, and the conflicts of views that
must agree exactly. -/
structure Sighting (m : Type → Type) where
  rendered : List (View m × Value)
  exact : List Conflict

namespace Sighting

variable {m : Type → Type} (seen : Sighting m) (sheaf : Sheaf m)

/-- What the canonical view rendered. -/
def truth : Value := ((Renderings.ofViews seen.rendered).get? sheaf.canonical.name).getD .null

/-- The conflicts of lossy views that contradict the canonical one. -/
def contradictions (checking : CoherenceCheck Id) : List Conflict :=
  let lossy := seen.rendered.filter fun entry => entry.1.lossy
  (lossy.filter fun entry => checking.contradicts (seen.truth sheaf) entry.2).map fun entry =>
    checking.lossyReport sheaf.name sheaf.canonical.name entry.1.name (seen.truth sheaf) entry.2

/-- The result with a measure and a limit. -/
def outcome (distance : TextDistance Id) (limit : Extended) : Coherence :=
  .ofConflicts (seen.exact ++ seen.contradictions sheaf ⟨⟨limit⟩, distance⟩)

end Sighting

section

variable {m : Type → Type} [Monad m]

/-- All views are rendered, and the complete ones are held against the glue and against each other. -/
def Sheaf.sight (sheaf : Sheaf m) (artifact : Value) : m (Sighting m) := do
  let rendered ← sheaf.renderEach artifact
  let complete := rendered.filter fun entry => !entry.1.lossy
  let ofGlue ← CoherenceCheck.glueConflicts sheaf (.ofViews rendered) complete
  let ofPairs ← CoherenceCheck.pairConflicts sheaf complete
  return ⟨rendered, ofGlue ++ ofPairs⟩

namespace CoherenceCheck

variable [LawfulMonad m] (sheaf : Sheaf m) (artifact : Value)

/-- A check with a pure measure sees all that it needs before it measures anything. -/
theorem check_eq_outcome (distance : TextDistance Id) (limit : Extended) :
    (⟨⟨limit⟩, distance.lifted⟩ : CoherenceCheck m).check sheaf artifact =
      (fun seen => seen.outcome sheaf distance limit) <$> sheaf.sight artifact := by
  have compared := lossyConflicts_lifted ⟨⟨limit⟩, distance⟩ sheaf
  unfold lifted at compared
  unfold check Sheaf.sight
  rw [map_bind]
  refine bind_congr fun rendered => ?_
  dsimp only
  rw [map_bind]
  refine bind_congr fun ofGlue => ?_
  rw [map_bind]
  refine bind_congr fun ofPairs => ?_
  rw [compared, pure_bind, map_pure]
  rfl

end CoherenceCheck

end

namespace CoherenceCheck

variable {distance : TextDistance Id} {limit limit' : Extended} {truth claimed : Value}

/-- What contradicts in spite of a looser limit contradicts. -/
theorem contradicts_of_looser (looser : limit.ble limit' = true)
    (found : contradicts ⟨⟨limit'⟩, distance⟩ truth claimed = true) :
    contradicts ⟨⟨limit⟩, distance⟩ truth claimed = true := by
  unfold contradicts at found ⊢
  rw [Bool.and_eq_true, Bool.or_eq_true] at found ⊢
  refine ⟨found.1, found.2.imp_right fun beyond => ?_⟩
  rw [Bool.not_eq_true', Bool.eq_false_iff] at beyond ⊢
  exact fun within => beyond (Extended.finite_ble_of_ble within looser)

/-- What the truth gives no support for contradicts at any limit. -/
theorem contradicts_of_unsupported (unentailed : truth.entails claimed = false)
    (unsupported : (distance.unsupported truth.flatText claimed.flatText).run ≠ []) :
    contradicts ⟨⟨limit⟩, distance⟩ truth claimed = true := by
  unfold contradicts
  rw [unentailed, Bool.and_eq_true, Bool.or_eq_true]
  refine ⟨rfl, .inl ?_⟩
  rw [Bool.not_eq_true', List.isEmpty_eq_false_iff]
  exact unsupported

end CoherenceCheck

section

variable {m : Type → Type} [Monad m] [LawfulMonad m] [MonadAttach m] [LawfulMonadAttach m]

/-- What holds of whatever a pass may report of an item holds of all that it reports. -/
theorem forall_of_reported {α β : Type} {visit : α → m (Option β)} {items : List α} {found : List β}
    {Fits : β → Prop} (fits : ∀ a ∈ items, ∀ b, CanReturn (visit a) (some b) → Fits b)
    (returned : CanReturn (do
      let found ← items.mapM visit
      return found.filterMap fun b => b) found) : ∀ b ∈ found, Fits b := by
  have both : (found.map fun _ => ()).Sublist (items.map fun _ => ()) ∧ ∀ b ∈ found, Fits b :=
    reported_of_canReturn (fun a mem b visited => ⟨rfl, fits a mem b visited⟩) returned
  exact both.2

namespace CoherenceCheck

variable {sheaf : Sheaf m} {all : Renderings} {complete : List (View m × Value)}
  {found : List Conflict}

theorem exact_of_glueConflicts (returned : CanReturn (glueConflicts sheaf all complete) found) :
    ∀ conflict ∈ found, conflict.Exact := by
  unfold glueConflicts at returned
  obtain ⟨glued, -, rest⟩ := canReturn_bind_imp' returned
  cases glued with
  | none =>
    obtain rfl := eq_of_canReturn_pure rest
    exact List.forall_mem_singleton.mpr (Conflict.exact_of (by decide))
  | some glued =>
    refine forall_of_reported (fun entry _ conflict visited => ?_) rest
    obtain ⟨rendered, -, rest⟩ := canReturn_bind_imp' visited
    split at rest
    · obtain rfl := Option.some.inj (eq_of_canReturn_pure rest)
      exact Conflict.exact_of (by decide)
    · cases eq_of_canReturn_pure rest

theorem exact_of_pairConflict {source target : View m} {glued : Option Value} {expected : Value}
    {conflict : Conflict}
    (returned : CanReturn (pairConflict? sheaf source glued target expected) (some conflict)) :
    conflict.Exact := by
  unfold pairConflict? at returned
  cases glued with
  | none =>
    obtain rfl := Option.some.inj (eq_of_canReturn_pure returned)
    exact Conflict.exact_of (by decide)
  | some glued =>
    obtain ⟨rendered, -, rest⟩ := canReturn_bind_imp' returned
    split at rest
    · obtain rfl := Option.some.inj (eq_of_canReturn_pure rest)
      exact Conflict.exact_of (by decide)
    · cases eq_of_canReturn_pure rest

theorem exact_of_pairConflicts (returned : CanReturn (pairConflicts sheaf complete) found) :
    ∀ conflict ∈ found, conflict.Exact := by
  rw [pairConflicts_eq] at returned
  obtain ⟨results, visited, rfl⟩ := canReturn_map_imp' returned
  intro conflict mem
  obtain ⟨result, among, inside⟩ := List.mem_flatten.mp mem
  obtain ⟨source, -, here⟩ := canReturn_mapM visited among
  obtain ⟨glued, -, rest⟩ := canReturn_bind_imp' here
  exact forall_of_reported (fun target _ _ compared => exact_of_pairConflict compared) rest
    conflict inside

end CoherenceCheck

theorem Sheaf.exact_of_sight {sheaf : Sheaf m} {artifact : Value} {seen : Sighting m}
    (returned : CanReturn (sheaf.sight artifact) seen) :
    seen.rendered.map (·.1) = sheaf.views ∧ ∀ conflict ∈ seen.exact, conflict.Exact := by
  unfold sight at returned
  obtain ⟨rendered, each, rest⟩ := canReturn_bind_imp' returned
  obtain ⟨ofGlue, glued, rest⟩ := canReturn_bind_imp' rest
  obtain ⟨ofPairs, paired, rest⟩ := canReturn_bind_imp' rest
  obtain rfl := eq_of_canReturn_pure rest
  refine ⟨CoherenceCheck.of_renderEach each, fun conflict mem => ?_⟩
  rcases List.mem_append.mp mem with mem | mem
  · exact CoherenceCheck.exact_of_glueConflicts glued conflict mem
  · exact CoherenceCheck.exact_of_pairConflicts paired conflict mem

end

namespace Sighting

variable {m : Type → Type} {seen : Sighting m} {sheaf : Sheaf m} {distance : TextDistance Id}
  {limit limit' : Extended}

/-- Of all that is seen of a sheaf a looser limit only forgives lossy views that are close. -/
structure Forgives (distance : TextDistance Id) (sheaf : Sheaf m) (seen : Sighting m) : Prop where
  /-- All views are seen, in their order. -/
  views : seen.rendered.map (·.1) = sheaf.views
  /-- What is reported at a looser limit is reported in the same order, but for the words. -/
  forgives {limit limit' : Extended} : limit.ble limit' = true →
    ((seen.outcome sheaf distance limit').list.map Conflict.undescribed).Sublist
      ((seen.outcome sheaf distance limit).list.map Conflict.undescribed)
  /-- What is wrong with the glue and with complete views is the same at all limits. -/
  exact (limit : Extended) : ((seen.outcome sheaf distance limit).list.filter fun conflict =>
    conflict.failure != FailureClass.lossyViewContradiction.name) = seen.exact
  /-- What is not entailed and asserts more than it has support for is reported at all limits. -/
  insists {view : View m} {truth claimed : Value} : (sheaf.canonical, truth) ∈ seen.rendered →
    (view, claimed) ∈ seen.rendered → view.lossy = true → truth.entails claimed = false →
    (distance.unsupported truth.flatText claimed.flatText).run ≠ [] → ∀ limit,
      ∃ conflict ∈ (seen.outcome sheaf distance limit).list,
        conflict.failure = FailureClass.lossyViewContradiction.name ∧
        conflict.views = (sheaf.canonical.name, view.name) ∧
        conflict.expected = truth ∧ conflict.found = claimed
  /-- Every distance that is reported lies between zero and one. -/
  within (limit : Extended) : ∀ conflict ∈ (seen.outcome sheaf distance limit).list,
    ∀ d ∈ conflict.distance, d.InUnitInterval

theorem truth_eq {truth : Value} (views : seen.rendered.map (·.1) = sheaf.views)
    (mem : (sheaf.canonical, truth) ∈ seen.rendered) : seen.truth sheaf = truth := by
  have distinct : (seen.rendered.map (·.1.name)).Nodup := by
    have names := sheaf.nodup_names
    rw [← views, List.map_map] at names
    exact names
  unfold Sighting.truth
  rw [Renderings.get?_ofViews distinct mem]
  rfl

theorem failure_of_mem_contradictions {checking : CoherenceCheck Id} {conflict : Conflict}
    (mem : conflict ∈ seen.contradictions sheaf checking) :
    conflict.failure = FailureClass.lossyViewContradiction.name ∧
      ∃ d, conflict.distance = some d ∧ d.InUnitInterval := by
  obtain ⟨entry, -, rfl⟩ := List.mem_map.mp mem
  exact ⟨rfl, _, rfl, Extended.inUnitInterval_toUnitInterval _⟩

theorem sublist_contradictions (looser : limit.ble limit' = true) :
    ((seen.contradictions sheaf ⟨⟨limit'⟩, distance⟩).map Conflict.undescribed).Sublist
      ((seen.contradictions sheaf ⟨⟨limit⟩, distance⟩).map Conflict.undescribed) := by
  unfold contradictions
  rw [List.map_map, List.map_map]
  -- but for the words, what is reported of a view does not depend on the limit
  refine List.Sublist.map _ (List.monotone_filter_right _ fun entry found => ?_)
  exact CoherenceCheck.contradicts_of_looser looser found

theorem list_outcome : (seen.outcome sheaf distance limit).list =
    seen.exact ++ seen.contradictions sheaf ⟨⟨limit⟩, distance⟩ :=
  Coherence.list_ofConflicts _

theorem forgives_of_exact (views : seen.rendered.map (·.1) = sheaf.views)
    (exact : ∀ conflict ∈ seen.exact, conflict.Exact) : seen.Forgives distance sheaf where
  views := views
  forgives looser := by
    rw [list_outcome, list_outcome, List.map_append, List.map_append]
    exact (sublist_contradictions looser).append_left _
  exact limit := by
    rw [list_outcome, List.filter_append, List.filter_eq_self.mpr, List.filter_eq_nil_iff.mpr,
      List.append_nil]
    · intro conflict mem
      simpa using (failure_of_mem_contradictions mem).1
    · intro conflict mem
      simpa using (exact conflict mem).failure
  insists := by
    intro view truth claimed canonical mem lossy unentailed unsupported limit
    obtain rfl := truth_eq views canonical
    rw [list_outcome]
    refine ⟨_, List.mem_append_right _ (List.mem_map_of_mem (List.mem_filter.mpr
      ⟨List.mem_filter.mpr ⟨mem, lossy⟩, ?_⟩)), rfl, rfl, rfl, rfl⟩
    exact CoherenceCheck.contradicts_of_unsupported unentailed unsupported
  within limit := by
    intro conflict mem d recorded
    rw [list_outcome] at mem
    rcases List.mem_append.mp mem with mem | mem
    · exact nomatch (exact conflict mem).distance.symm.trans recorded
    · obtain ⟨measured, same, within⟩ := (failure_of_mem_contradictions mem).2
      obtain rfl := Option.some.inj (same.symm.trans recorded)
      exact within

end Sighting

namespace CoherenceCheck

/-- Checking with a pure measure has the same effects at every limit, and sees the same. Of what it sees
it reports less at a looser limit, but all conflicts of the glue and of complete views, and all lossy
views that assert what has no support; and no distance that it reports is outside the unit interval. -/
theorem limit_only_forgives {m : Type → Type} [Monad m] [LawfulMonad m] [MonadAttach m]
    [LawfulMonadAttach m] (distance : TextDistance Id) (sheaf : Sheaf m) (artifact : Value) :
    (∀ limit, (⟨⟨limit⟩, distance.lifted⟩ : CoherenceCheck m).check sheaf artifact =
      (fun seen => seen.outcome sheaf distance limit) <$> sheaf.sight artifact) ∧
    ∀ seen, CanReturn (sheaf.sight artifact) seen → seen.Forgives distance sheaf := by
  refine ⟨fun limit => check_eq_outcome sheaf artifact distance limit, fun seen returned => ?_⟩
  obtain ⟨views, exact⟩ := Sheaf.exact_of_sight returned
  exact Sighting.forgives_of_exact views exact

/-- A lossy view that renders the same of everything, and counts how often it does. -/
def caption (text : String) : View (StateM Nat) :=
  ⟨text, true, fun _ => modifyGet fun n => (.text text, n + 1)⟩

/-- A picture and two captions. -/
def picture : Sheaf (StateM Nat) where
  name := "picture"
  views := [.identity "picture", caption "boats", caption "ships"]
  canonical := .identity "picture"
  glue renderings := pure (renderings.get? "picture")
  distinct := by decide
  canonical_mem := List.mem_cons_self
  canonical_complete := rfl

/-- All is half as far as can be, and only of ships there is no support. -/
def halfway : TextDistance Id :=
  ⟨"halfway", fun _ _ => .finite .half, fun _ claimed => if claimed = "ships" then ["ships"] else []⟩

/-- What is halfway is forgiven at the limit of one, unless it has no support. -/
theorem limit_only_forgives_halfway :
    ∃ seen, CanReturn (picture.sight (.text "sea")) seen ∧
      ((seen.outcome picture halfway (.finite (.zero false))).list.map Conflict.views =
        [("picture", "boats"), ("picture", "ships")]) ∧
      ((seen.outcome picture halfway (.finite .one)).list.map Conflict.views =
        [("picture", "ships")]) ∧
      ((seen.outcome picture halfway (.finite .one)).list.map Conflict.undescribed).Sublist
        ((seen.outcome picture halfway (.finite (.zero false))).list.map Conflict.undescribed) := by
  have returned := canReturn_run (picture.sight (.text "sea")) 0
  refine ⟨_, returned, by decide +kernel, by decide +kernel, ?_⟩
  have forgiving := (limit_only_forgives halfway picture (.text "sea")).2 _ returned
  exact forgiving.forgives (by decide)

end CoherenceCheck

end AgentAlgebra
