import AgentAlgebra.Verify.Outcome
/-!
# Reports on several laws

The results of checking a list of laws of one algebra, with how many came out which way.
-/

namespace AgentAlgebra

/-- A law to check, with agents for its variables and what to try it on. -/
structure Trial (m : Type → Type) where
  law : String
  agents : List (Agent m)
  inputs : List Scenario

/-- The results of several checks. -/
structure LawReport where
  algebra : String
  satisfied : Nat
  violated : Nat
  inapplicable : Nat
  results : List LawOutcome

namespace LawReport

/-- The report of some results, counted. -/
def ofResults (algebra : String) (results : List LawOutcome) : LawReport :=
  ⟨algebra, results.countP (·.isSatisfied), results.countP (·.isViolated),
    results.countP (·.isInapplicable), results⟩

/-- Every law was tried and held. -/
def isClean (report : LawReport) : Bool := report.violated == 0 && report.inapplicable == 0

/-- The violations of the laws that were broken. -/
def violations (report : LawReport) : List Violation :=
  report.results.filterMap (·.violation?)

def toValue (report : LawReport) : Value :=
  .record [("algebra", .text report.algebra), ("satisfied", .ofNat report.satisfied),
    ("violated", .ofNat report.violated), ("inapplicable", .ofNat report.inapplicable),
    ("results", .ofList (report.results.map (·.toValue)))]

def ofValue? (value : Value) : Option LawReport := do
  match ← value.members? ["algebra", "satisfied", "violated", "inapplicable", "results"] with
  | [algebra, satisfied, violated, inapplicable, results] =>
    return ⟨← (← algebra).text?, ← (← satisfied).nat?, ← (← violated).nat?, ← (← inapplicable).nat?,
      ← (← results).listOf? LawOutcome.ofValue?⟩
  | _ => none

end LawReport

/-- Make every trial, in order. -/
def VerifySettings.verifyAll {m : Type → Type} [Monad m] (settings : VerifySettings)
    (algebra : Algebra m) (trials : List (Trial m)) : m LawReport := do
  let results ← trials.mapM fun trial => settings.verify algebra trial.law trial.agents trial.inputs
  return .ofResults algebra.name results

end AgentAlgebra
