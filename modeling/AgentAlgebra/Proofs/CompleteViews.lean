import AgentAlgebra.Proofs.Failures
/-!
# Complete views lose nothing

If an artifact is found coherent, what any complete view renders of it determines what every other
complete view renders: the artifact glued from the one rendering alone is rendered alike. So two
coherent artifacts that one complete view renders to the same value are rendered alike by all of
them. The checks of the two artifacts need not be by one measure of distance, and measuring may have
effects.
-/

namespace AgentAlgebra

namespace Sheaf

variable {sheaf : Sheaf Id} {artifact : Value} {source target : View Id}

/-- What the one view renders of an artifact gives back what the other renders of it. -/
def GivesBack (sheaf : Sheaf Id) (artifact : Value) (source target : View Id) : Prop :=
  ∃ glued, sheaf.gluedFrom artifact source = some glued ∧
    ((target.render glued).run == (target.render artifact).run) = true

theorem pairFailure?_eq_none :
    sheaf.pairFailure? artifact source target = none ↔ sheaf.GivesBack artifact source target := by
  unfold pairFailure? GivesBack
  cases sheaf.gluedFrom artifact source with
  | none => simp
  | some glued =>
    dsimp only [View.differs]
    by_cases alike : ((target.render glued).run == (target.render artifact).run) = true
    · simp [bne, alike]
    · simp [bne, alike]

theorem mem_pairs :
    (source, target) ∈ sheaf.pairs ↔
      source ∈ sheaf.completeViews ∧ target ∈ sheaf.completeViews ∧ target.name ≠ source.name := by
  unfold pairs
  rw [List.mem_filter, List.mem_product, and_assoc]
  simp

end Sheaf

namespace CoherenceCheck

variable {m : Type → Type} [Monad m] [LawfulMonad m] [MonadAttach m] [LawfulMonadAttach m]
  {sheaf : Sheaf Id} {artifact : Value} {source target : View Id}

/-- Of a coherent artifact each complete view gives back what every other one renders. -/
theorem givesBack_of_coherent {checking : CoherenceCheck m}
    (coherent : MonadAttach.CanReturn (checking.check sheaf.lifted artifact) .coherent)
    (complete : source ∈ sheaf.completeViews) (complete' : target ∈ sheaf.completeViews)
    (apart : target.name ≠ source.name) : sheaf.GivesBack artifact source target := by
  rw [check_lifted] at coherent
  obtain ⟨lossy, -, none_found⟩ := LawfulMonadAttach.canReturn_map_imp' coherent
  have failures := Coherence.ofConflicts_eq_coherent.mp none_found
  have pairs : sheaf.pairFailures artifact = [] :=
    (List.append_eq_nil_iff.mp (List.append_eq_nil_iff.mp failures).1).2
  have fine := List.filterMap_eq_nil_iff.mp pairs (source, target)
    (Sheaf.mem_pairs.mpr ⟨complete, complete', apart⟩)
  exact Sheaf.pairFailure?_eq_none.mp fine

theorem complete_views_lossless (sheaf : Sheaf Id) (checking checking' : CoherenceCheck m)
    (x y : Value) (coherent : MonadAttach.CanReturn (checking.check sheaf.lifted x) .coherent)
    (coherent' : MonadAttach.CanReturn (checking'.check sheaf.lifted y) .coherent)
    (view : View Id) (complete : view ∈ sheaf.completeViews)
    (same : (view.render x).run = (view.render y).run) :
    (∀ other ∈ sheaf.completeViews, ((other.render x).run == (other.render y).run) = true) ∧
      (sheaf.canonical = View.identity sheaf.canonical.name → (x == y) = true) := by
  have determined (other : View Id) (complete' : other ∈ sheaf.completeViews) :
      ((other.render x).run == (other.render y).run) = true := by
    by_cases apart : other.name = view.name
    · obtain rfl : other = view := Sheaf.eq_of_name (List.mem_filter.mp complete').1
        (List.mem_filter.mp complete).1 apart
      rw [same]
      exact BEq.rfl
    · obtain ⟨glued, from_x, back_x⟩ := givesBack_of_coherent coherent complete complete' apart
      obtain ⟨glued', from_y, back_y⟩ := givesBack_of_coherent coherent' complete complete' apart
      have alike : sheaf.gluedFrom x view = sheaf.gluedFrom y view := by
        unfold Sheaf.gluedFrom
        rw [same]
      obtain rfl : glued = glued' := by simpa [from_x, from_y] using alike
      exact Value.beq_of_beq_of_beq back_x back_y
  refine ⟨determined, fun identity => ?_⟩
  have canonical : sheaf.canonical ∈ sheaf.completeViews :=
    List.mem_filter.mpr ⟨sheaf.canonical_mem, by simp [sheaf.canonical_complete]⟩
  have equal := determined _ canonical
  rw [identity] at equal
  exact equal

/-- A number without its sign. -/
def unsigned : Value → Value
  | .number (.double x) => .number (.double { x with negative := false })
  | value => value

/-- Doubles as they are and by their size, with a remark on them. -/
def sizes : Sheaf Id where
  name := "sizes"
  views := [.identity "exact", ⟨"size", false, fun x => pure (unsigned x)⟩,
    ⟨"remark", true, fun _ => pure (.text "a number")⟩]
  canonical := .identity "exact"
  glue renderings := pure ((renderings.get? "exact").or (renderings.get? "size"))
  distinct := by decide
  canonical_mem := List.mem_cons_self
  canonical_complete := rfl

/-- A measure that finds no distance and counts how often it is asked. -/
def counting : CoherenceCheck (StateM Nat) where
  settings := {}
  distance := ⟨"counting", fun _ _ => modifyGet fun n => (.finite (.zero false), n + 1),
    fun _ _ => pure []⟩

/-- The two zeros are coherent artifacts of one size. They are not the same value, but compare equal.
-/
theorem complete_views_lossless_zeros :
    MonadAttach.CanReturn (counting.check sizes.lifted (.number (.double (.zero false))))
        .coherent ∧
      MonadAttach.CanReturn (counting.check sizes.lifted (.number (.double (.zero true))))
        .coherent ∧
      Value.number (.double (.zero false)) ≠ .number (.double (.zero true)) ∧
      (Value.number (.double (.zero false)) == .number (.double (.zero true))) = true := by
  have positive : MonadAttach.CanReturn
      (counting.check sizes.lifted (.number (.double (.zero false)))) .coherent := ⟨0, 1, rfl⟩
  have negative : MonadAttach.CanReturn
      (counting.check sizes.lifted (.number (.double (.zero true)))) .coherent := ⟨1, 2, rfl⟩
  have lossless := complete_views_lossless sizes counting counting _ _ positive negative
    ⟨"size", false, fun x => pure (unsigned x)⟩ (.tail _ (.head _)) rfl
  refine ⟨positive, negative, fun same => ?_, lossless.2 rfl⟩
  injection same with same
  injection same with same
  exact absurd same (by decide)

end CoherenceCheck

end AgentAlgebra
