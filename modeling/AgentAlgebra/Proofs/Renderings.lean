import AgentAlgebra.Coherence.Sheaf
import AgentAlgebra.Proofs.Values
import Mathlib.Control.Monad.Basic
/-!
# Renderings of pure views

The views and the glue of a sheaf may have no effects while other functions of the program do: such a
sheaf is a pure one carried over, `Sheaf.lifted`. What its views render is then a matter of the
artifact alone. Since no two views have one name, every rendering is found under the name of its view,
the canonical one included.
-/

namespace AgentAlgebra

theorem firstRepeatedAfter?_of_nodup {α : Type} [BEq α] [LawfulBEq α] {members seen : List α}
    (fresh : ∀ a ∈ members, a ∉ seen) (distinct : members.Nodup) :
    firstRepeatedAfter? seen members = none := by
  induction members generalizing seen with
  | nil => rfl
  | cons a rest ih =>
    rw [List.nodup_cons] at distinct
    have new : ¬ seen.contains a = true := by simpa using fresh a List.mem_cons_self
    rw [firstRepeatedAfter?, if_neg new]
    refine ih (fun b mem => ?_) distinct.2
    rw [List.mem_cons, not_or]
    exact ⟨fun same => distinct.1 (same ▸ mem), fresh b (List.mem_cons_of_mem _ mem)⟩

variable {m : Type → Type} [Monad m]

/-- A pure view in a program with effects. -/
def View.lifted (view : View Id) : View m :=
  ⟨view.name, view.lossy, fun artifact => pure (view.render artifact).run⟩

/-- Of views with different names every rendering is found under the name of its view. -/
theorem Renderings.get?_ofViews {m : Type → Type} {rendered : List (View m × Value)}
    (distinct : (rendered.map (·.1.name)).Nodup) {view : View m} {rendering : Value}
    (mem : (view, rendering) ∈ rendered) :
    (ofViews rendered).get? view.name = some rendering := by
  have names : ((rendered.map fun entry => (entry.1.name, entry.2)).map (·.1)).Nodup := by
    rw [List.map_map]
    exact distinct
  exact (Fields.get?_ofList names _).trans
    (Fields.lookup_of_mem names (List.mem_map.mpr ⟨_, mem, rfl⟩))

namespace Sheaf

/-- A pure sheaf in a program with effects. -/
def lifted (sheaf : Sheaf Id) : Sheaf m where
  name := sheaf.name
  views := sheaf.views.map View.lifted
  canonical := sheaf.canonical.lifted
  glue renderings := pure (sheaf.glue renderings).run
  distinct := List.pairwise_map.mpr sheaf.distinct
  canonical_mem := List.mem_map_of_mem sheaf.canonical_mem
  canonical_complete := sheaf.canonical_complete

/-- Without effects there is nothing to carry over. -/
theorem lifted_id (sheaf : Sheaf Id) : sheaf.lifted = sheaf := by
  have views : sheaf.views.map View.lifted = sheaf.views := List.map_id _
  unfold lifted
  congr 1

theorem nodup_names {m : Type → Type} (sheaf : Sheaf m) : (sheaf.views.map (·.name)).Nodup :=
  List.pairwise_map.mpr sheaf.distinct

/-- Views of one name are one view. -/
theorem eq_of_name {m : Type → Type} {sheaf : Sheaf m} {view other : View m}
    (mem : view ∈ sheaf.views) (mem' : other ∈ sheaf.views) (same : view.name = other.name) :
    view = other :=
  List.inj_on_of_nodup_map sheaf.nodup_names mem mem' same

/-- The views, the name of the canonical one and the glue of a sheaf make that sheaf. -/
theorem ofViews_self {m : Type → Type} (sheaf : Sheaf m) :
    ofViews sheaf.name sheaf.views sheaf.canonical.name sheaf.glue = .ok sheaf := by
  have some_view : ¬ sheaf.views.isEmpty = true := by
    rw [List.isEmpty_iff]
    exact List.ne_nil_of_mem sheaf.canonical_mem
  have unrepeated : firstRepeated? (sheaf.views.map (·.name)) = none :=
    firstRepeatedAfter?_of_nodup (fun _ _ => List.not_mem_nil) sheaf.nodup_names
  have found : sheaf.views.find? (·.name == sheaf.canonical.name) = some sheaf.canonical := by
    cases found : sheaf.views.find? (·.name == sheaf.canonical.name) with
    | none => simpa using List.find?_eq_none.mp found _ sheaf.canonical_mem
    | some view =>
      have named : view.name = sheaf.canonical.name := by simpa using List.find?_some found
      rw [eq_of_name (List.mem_of_find?_eq_some found) sheaf.canonical_mem named]
  have complete := sheaf.canonical_complete
  unfold ofViews
  rw [if_neg some_view]
  split
  · rename_i repeated
    exact nomatch unrepeated.symm.trans repeated
  · split
    · rename_i missing
      exact nomatch found.symm.trans missing
    · rename_i view here
      obtain rfl := Option.some.inj (found.symm.trans here)
      rw [dif_neg (by simp [complete])]

variable (sheaf : Sheaf Id) (artifact : Value)

/-- What each view renders. -/
def rendered : List (View Id × Value) :=
  sheaf.views.map fun view => (view, (view.render artifact).run)

/-- What the views render, by their names. -/
def renderings : Renderings := .ofViews (sheaf.rendered artifact)

variable {sheaf} {view : View Id}

/-- Every rendering is found under the name of its view. -/
theorem get?_renderings (mem : view ∈ sheaf.views) :
    (sheaf.renderings artifact).get? view.name = some (view.render artifact).run := by
  have distinct : ((sheaf.rendered artifact).map (·.1.name)).Nodup := by
    unfold rendered
    rw [List.map_map]
    exact sheaf.nodup_names
  exact Renderings.get?_ofViews distinct (List.mem_map.mpr ⟨view, mem, rfl⟩)

variable [LawfulMonad m]

theorem renderEach_lifted (sheaf : Sheaf Id) (artifact : Value) :
    (sheaf.lifted : Sheaf m).renderEach artifact =
      pure (sheaf.views.map fun view => (view.lifted, (view.render artifact).run)) := by
  simp [renderEach, lifted, View.lifted, List.mapM_map, Function.comp_def]

end Sheaf

end AgentAlgebra
