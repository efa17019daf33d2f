import AgentAlgebra.Repeated
import AgentAlgebra.Value.Basic
/-!
# Sheaves of views

A view renders an artifact; a sheaf is a list of views of one artifact with a way of gluing an
artifact back from renderings. A complete view keeps enough for that, a lossy one need not. One
complete view is the canonical one.
-/

namespace AgentAlgebra

/-- A named rendering of an artifact. -/
structure View (m : Type → Type) where
  name : String
  lossy : Bool
  render : Value → m Value

/-- The artifact itself. -/
def View.identity {m : Type → Type} [Pure m] (name : String) : View m := ⟨name, false, pure⟩

/-- Why views make no sheaf. -/
inductive SheafError where
  | noViews (sheaf : String)
  | duplicateView (sheaf view : String)
  | unknownCanonicalView (sheaf view : String)
  | lossyCanonicalView (sheaf view : String)

/-- The sentence that reports the error. -/
def SheafError.message : SheafError → String
  | .noViews sheaf => s!"sheaf {sheaf} has no views"
  | .duplicateView sheaf view => s!"sheaf {sheaf} declares view {view} twice"
  | .unknownCanonicalView sheaf view =>
    s!"sheaf {sheaf}: canonical view {view} is not one of its views"
  | .lossyCanonicalView sheaf view => s!"sheaf {sheaf}: canonical view {view} is lossy"

/-- Renderings by the names of their views. -/
abbrev Renderings := Fields Value

/-- Views of one artifact under different names, with a complete one among them that is canonical. -/
structure Sheaf (m : Type → Type) where
  name : String
  views : List (View m)
  canonical : View m
  /-- The artifact that renderings determine, if they determine one. -/
  glue : Renderings → m (Option Value)
  distinct : views.Pairwise fun v w => v.name ≠ w.name
  canonical_mem : canonical ∈ views
  canonical_complete : canonical.lossy = false

namespace Sheaf

variable {m : Type → Type}

/-- The sheaf of some views. There must be views, no two of one name, and the canonical one must be a
complete one among them; what fails first is the answer. -/
def ofViews (name : String) (views : List (View m)) (canonical : String)
    (glue : Renderings → m (Option Value)) : Except SheafError (Sheaf m) :=
  if views.isEmpty then .error (.noViews name)
  else
    match unrepeated : firstRepeated? (views.map (·.name)) with
    | some view => .error (.duplicateView name view)
    | none =>
      match found : views.find? (·.name == canonical) with
      | none => .error (.unknownCanonicalView name canonical)
      | some view =>
        if lossy : view.lossy then .error (.lossyCanonicalView name canonical)
        else
          .ok
            { name, views, glue
              canonical := view
              distinct := by
                have := List.pairwise_map.mp (distinct_of_firstRepeated?_eq_none unrepeated)
                exact this.imp fun apart same => by simp [same] at apart
              canonical_mem := List.mem_of_find?_eq_some found
              canonical_complete := by simpa using lossy }

/-- The views that must agree exactly. -/
def completeViews (sheaf : Sheaf m) : List (View m) := sheaf.views.filter (!·.lossy)

/-- The views that need only not contradict. -/
def lossyViews (sheaf : Sheaf m) : List (View m) := sheaf.views.filter (·.lossy)

/-- The view of a name. -/
def view? (sheaf : Sheaf m) (name : String) : Option (View m) :=
  sheaf.views.find? (·.name == name)

/-- Every view with its rendering of an artifact, rendered in order. -/
def renderEach [Monad m] (sheaf : Sheaf m) (artifact : Value) : m (List (View m × Value)) :=
  sheaf.views.mapM fun view => return (view, ← view.render artifact)

end Sheaf

/-- The renderings that some views gave. -/
def Renderings.ofViews {m : Type → Type} (rendered : List (View m × Value)) : Renderings :=
  .ofList (rendered.map fun (view, rendering) => (view.name, rendering))

end AgentAlgebra
