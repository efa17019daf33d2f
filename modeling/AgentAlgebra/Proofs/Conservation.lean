import AgentAlgebra.Proofs.WellFormed
import AgentAlgebra.Verify.Outcome
/-!
# Extensions are conservative

A law names the operations it applies, and they are looked up anew in whatever algebra it is checked
in. In a well-formed algebra all of them are there, and an extension keeps them; so the sides of a
law, and all that checking it can come to, are the same in every extension, with whatever effects
the agents and the operations have.
-/

namespace AgentAlgebra

variable {m : Type → Type} [Monad m] {algebra extended : Algebra m}

namespace Algebra

/-- What is there is applied the same way in an extension. -/
theorem Conserves.compose (kept : Conserves algebra extended) {name : String}
    {operation : Operation m} (known : algebra.operation? name = some operation)
    (agents : List (Agent m)) : extended.compose name agents = algebra.compose name agents := by
  unfold Algebra.compose
  rw [known, kept.operation known]

/-- An expression without faulty applications denotes the same in an extension, errors included. -/
theorem Conserves.instantiate (kept : Conserves algebra extended) {expr : Expr m}
    (faultless : ∀ application ∈ expr.applications, algebra.fault? application = none)
    (agents : List (Agent m)) :
    expr.instantiate extended agents = expr.instantiate algebra agents := by
  induction expr with
  | var index => rfl
  | agent fixed => rfl
  | apply operation count operand ih =>
    unfold Expr.applications at faultless
    rw [List.forall_mem_cons] at faultless
    obtain ⟨outermost, inner⟩ := faultless
    obtain ⟨found, known, -⟩ := fault?_eq_none.mp outermost
    have operands : ∀ i, (operand i).instantiate extended agents =
        (operand i).instantiate algebra agents := by
      intro i
      refine ih i fun application applied => inner application ?_
      exact List.mem_flatten.mpr ⟨_, List.mem_ofFn.mpr ⟨i, rfl⟩, applied⟩
    have composed : ∀ built, extended.compose operation built = algebra.compose operation built :=
      fun built => kept.compose known built
    unfold Expr.instantiate
    simp only [operands, composed]

/-- A law without faulty applications has the same sides in an extension. -/
theorem Conserves.sides (kept : Conserves algebra extended) {law : Law m}
    (faultless : ∀ application ∈ law.applications, algebra.fault? application = none)
    (agents : List (Agent m)) : law.sides extended agents = law.sides algebra agents := by
  unfold Law.applications at faultless
  rw [List.forall_mem_append] at faultless
  unfold Law.sides
  rw [kept.instantiate faultless.1, kept.instantiate faultless.2]

end Algebra

namespace VerifySettings

variable {settings settings' : VerifySettings} {law : Law m} {agents : List (Agent m)}

/-- Checking a law comes out the same if each of its scenarios does. -/
theorem checkAll_congr
    (same : ∀ scenario, settings'.check extended law agents scenario =
      settings.check algebra law agents scenario) (scenarios : List Scenario) :
    settings'.checkAll extended law agents scenarios =
      settings.checkAll algebra law agents scenarios := by
  induction scenarios with
  | nil => rfl
  | cons scenario scenarios ih =>
    unfold checkAll
    rw [same, ih]

theorem verify_congr {name : String} (found : algebra.law? name = some law)
    (found' : extended.law? name = some law)
    (same : ∀ scenario, settings'.check extended law agents scenario =
      settings.check algebra law agents scenario) (scenarios : List Scenario) :
    settings'.verify extended name agents scenarios =
      settings.verify algebra name agents scenarios := by
  unfold verify
  simp only [found, found', checkAll_congr same]

/-- Of the algebra, checking a law on a scenario looks only at the sides of the law. -/
theorem check_congr
    (same : ∀ agents, law.sides extended agents = law.sides algebra agents) (scenario : Scenario) :
    settings.check extended law agents scenario = settings.check algebra law agents scenario := by
  unfold check
  simp only [same]

end VerifySettings

namespace Algebra

/-- Whatever an algebra is extended by, its operations and laws stay what they were: each is found
under its name, and each law has the same sides, errors included, and comes out the same when it is
checked. -/
theorem extension_conservative (made : algebra.Made) (grown : algebra.Extends extended) :
    (∀ operation ∈ algebra.operations, algebra.operation? operation.name = some operation ∧
      extended.operation? operation.name = some operation) ∧
    ∀ law ∈ algebra.laws, algebra.law? law.name = some law ∧
      extended.law? law.name = some law ∧
      ∀ agents, law.sides extended agents = law.sides algebra agents ∧
        ∀ (settings : VerifySettings) (scenarios : List Scenario),
          settings.verify extended law.name agents scenarios =
            settings.verify algebra law.name agents scenarios := by
  have wellFormed := made.wellFormed
  have kept := grown.conserves
  constructor
  · intro operation among
    have known := wellFormed.operation?_of_mem among
    exact ⟨known, kept.operation known⟩
  · intro law among
    have known := wellFormed.law?_of_mem among
    have same := kept.sides (wellFormed.applications law among)
    refine ⟨known, kept.law known, fun agents => ⟨same agents, fun settings scenarios => ?_⟩⟩
    exact VerifySettings.verify_congr known (kept.law known)
      (VerifySettings.check_congr same) scenarios

/-- An operation that an extension may add: it gives back the one agent it is applied to. -/
def keeping : Operation Id := ⟨"keep", 1, "(X -> Y) -> (X -> Y)", .extension fun
  | [agent] => pure agent
  | agents => throw (.arityMismatch "keep" 1 agents.length)⟩

/-- A law about it, which is added with it. -/
def keepsAgent : Law Id := ⟨"keep_same", .applyTo "keep" [.var 0], .var 0, .outputsAndFrontier⟩

/-- Extending the base algebra twice, by an operation and by a law on it, leaves associativity as it
was. -/
theorem extension_conservative_keeping :
    ∃ grown twice : Algebra Id, base.extend "grown" [keeping] [] = .ok grown ∧
      grown.extend "twice" [] [keepsAgent] = .ok twice ∧
      twice.operation? "seq" = some (.ofBuiltin .sequence) ∧
      ∀ law ∈ Law.base, ∀ agents,
        law.sides twice agents = law.sides .base agents ∧
          VerifySettings.verify {} twice law.name agents [.single .null] =
            VerifySettings.verify {} .base law.name agents [.single .null] := by
  obtain ⟨grown, one⟩ : ∃ grown, base.extend "grown" [keeping] [] = .ok grown := ⟨_, rfl⟩
  obtain ⟨twice, two⟩ : ∃ twice, grown.extend "twice" [] [keepsAgent] = .ok twice := by
    obtain rfl := Except.ok.inj one
    exact ⟨_, rfl⟩
  have conservative :=
    extension_conservative (Made.baseWith .standard) ((Extends.refl.extend one).extend two)
  have catalogued : .ofBuiltin .sequence ∈ (base : Algebra Id).operations :=
    List.mem_map_of_mem List.mem_cons_self
  refine ⟨grown, twice, one, two, (conservative.1 _ catalogued).2, fun law among agents => ?_⟩
  obtain ⟨-, -, same⟩ := conservative.2 law among
  exact ⟨(same agents).1, (same agents).2 _ _⟩

end Algebra

end AgentAlgebra
