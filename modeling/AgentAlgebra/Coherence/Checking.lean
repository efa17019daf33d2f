import AgentAlgebra.Coherence.Conflict
import AgentAlgebra.Coherence.Entailment
import AgentAlgebra.Coherence.Sheaf
import AgentAlgebra.Text.Distance
/-!
# Checking coherence

Complete views must agree exactly: an artifact glued from all renderings, or from any one of them,
must be rendered as the instance was. Lossy views must only not contradict the canonical one: either
it entails them, or they assert nothing that it lacks and are close to it.
-/

namespace AgentAlgebra

/-- How coherence is checked. -/
structure CoherenceSettings where
  /-- How far a lossy rendering may be from the canonical one that does not entail it. -/
  maxLossyDistance : Extended := .finite .half

/-- What a check goes by: its settings, and how it measures distance. -/
structure CoherenceCheck (m : Type → Type) where
  settings : CoherenceSettings
  distance : TextDistance m

namespace CoherenceCheck

variable {m : Type → Type} [Monad m]

/-- Conflicts of the artifact glued from all renderings: it is missing, or complete views render it
otherwise than the instance. -/
def glueConflicts (sheaf : Sheaf m) (all : Renderings) (complete : List (View m × Value)) :
    m (List Conflict) := do
  match ← sheaf.glue all with
  | none =>
    return [.of sheaf.name .glueUndefined Conflict.allViews sheaf.canonical.name (.ofFields all) .null
      none "glue produced no artifact from the full set of renderings"]
  | some glued =>
    let found ← complete.mapM fun (view, expected) => do
      let found ← view.render glued
      if found != expected then
        return some (Conflict.of sheaf.name .glueUnfaithful Conflict.allViews view.name expected found
          none s!"glued artifact does not re-render view {view.name}")
      else return none
    return found.filterMap fun conflict => conflict

/-- The conflict of the artifact glued from one view alone with another complete view. -/
def pairConflict? (sheaf : Sheaf m) (source : View m) (glued : Option Value) (target : View m)
    (expected : Value) : m (Option Conflict) :=
  match glued with
  | none =>
    return some (.of sheaf.name .glueUndefined source.name target.name expected .null none
      s!"glue cannot reconstruct from view {source.name} alone")
  | some artifact => do
    let found ← target.render artifact
    if found != expected then
      return some (.of sheaf.name .completeViewsDisagree source.name target.name expected found none
        s!"view {target.name} does not round-trip through view {source.name}")
    else return none

/-- Conflicts of the artifacts glued from one complete view alone with all other complete views. -/
def pairConflicts (sheaf : Sheaf m) (complete : List (View m × Value)) : m (List Conflict) := do
  let found ← complete.mapM fun (source, rendering) => do
    let glued ← sheaf.glue (.ofList [(source.name, rendering)])
    let others := complete.filter fun (target, _) => target.name != source.name
    let found ← others.mapM fun (target, expected) => pairConflict? sheaf source glued target expected
    return found.filterMap fun conflict => conflict
  return found.flatten

/-- What a lossy view does wrong, in words. -/
def lossyDescription (limit : Extended) (view canonical : String) (unsupported : List String)
    (distance : Double) : String :=
  if unsupported.isEmpty then
    s!"lossy view {view} is not entailed by view {canonical} and is " ++ distance.fixed 3 ++
      " away (limit " ++ limit.sentence ++ ")"
  else
    s!"lossy view {view} asserts " ++ joinTexts ", " unsupported ++ s!" beyond view {canonical}"

/-- The conflict of a lossy rendering with the canonical one. -/
def lossyConflict? (checking : CoherenceCheck m) (sheaf : Sheaf m) (truth : Value) (view : View m)
    (claimed : Value) : m (Option Conflict) := do
  if truth.entails claimed then return none
  else
    let unsupported ← checking.distance.unsupported truth.flatText claimed.flatText
    let distance := (← checking.distance.distance truth.flatText claimed.flatText).toUnitInterval
    let limit := checking.settings.maxLossyDistance
    if unsupported.isEmpty && (Extended.finite distance).ble limit then return none
    else
      return some (.of sheaf.name .lossyViewContradiction sheaf.canonical.name view.name truth claimed
        (some distance) (lossyDescription limit view.name sheaf.canonical.name unsupported distance))

/-- Conflicts of the lossy renderings with the canonical one. -/
def lossyConflicts (checking : CoherenceCheck m) (sheaf : Sheaf m) (truth : Value)
    (lossy : List (View m × Value)) : m (List Conflict) := do
  let found ← lossy.mapM fun (view, claimed) => checking.lossyConflict? sheaf truth view claimed
  return found.filterMap fun conflict => conflict

/-- All conflicts of the views of an artifact: of the glue, of pairs of complete views, and of lossy
views, each in the order of the views. -/
def check (checking : CoherenceCheck m) (sheaf : Sheaf m) (artifact : Value) : m Coherence := do
  let rendered ← sheaf.renderEach artifact
  let all := Renderings.ofViews rendered
  let complete := rendered.filter (!·.1.lossy)
  let lossy := rendered.filter (·.1.lossy)
  let truth := (all.get? sheaf.canonical.name).getD .null
  let ofGlue ← glueConflicts sheaf all complete
  let ofPairs ← pairConflicts sheaf complete
  let ofLossy ← checking.lossyConflicts sheaf truth lossy
  return .ofConflicts (ofGlue ++ ofPairs ++ ofLossy)

end CoherenceCheck

end AgentAlgebra
