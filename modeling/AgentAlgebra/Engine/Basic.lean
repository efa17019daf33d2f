import AgentAlgebra.Explore.Sample
import AgentAlgebra.Settings.Basic
import AgentAlgebra.Verify.Report
/-!
# Engines

An algebra together with the settings by which agents are built from it, laws are checked, and views
are held against each other.
-/

namespace AgentAlgebra

/-- Settings and an algebra. -/
structure Engine (m : Type → Type) where
  settings : Settings
  algebra : Algebra m

namespace Engine

variable {m : Type → Type} [Monad m]

/-- The base algebra with the usual settings. -/
def standard : Engine m := ⟨{}, .base⟩

/-- The base algebra built by some settings. -/
def ofSettings (settings : Settings) : Except AlgebraError (Engine m) := do
  return ⟨settings, ← Algebra.baseOfBound settings.compose.defaultRetryBound⟩

/-- The engine of the settings in a TOML document that was found at `path`. -/
def ofToml (path text : String) : Except SettingsError (Engine m) := do
  let settings ← Settings.ofToml path text
  match ofSettings settings with
  | .ok engine => .ok engine
  | .error error => .error (.algebra error)

/-- The same settings with another algebra. -/
def withAlgebra (engine : Engine m) (algebra : Algebra m) : Engine m := { engine with algebra }

/-- Apply an operation of the algebra. -/
def compose (engine : Engine m) (operation : String) (agents : List (Agent m)) :
    ExceptT AlgebraError m (Agent m) :=
  engine.algebra.compose operation agents

/-- Check a law of the algebra. -/
def verify (engine : Engine m) (law : String) (agents : List (Agent m)) (scenarios : List Scenario) :
    m LawOutcome :=
  engine.settings.verify.verify engine.algebra law agents scenarios

/-- Check several laws of the algebra. -/
def verifyAll (engine : Engine m) (trials : List (Trial m)) : m LawReport :=
  engine.settings.verify.verifyAll engine.algebra trials

/-- How views are checked: by common words. -/
def coherenceCheck (engine : Engine m) : CoherenceCheck m := ⟨engine.settings.coherence, .byWords⟩

/-- Hold the views of an artifact against each other. -/
def check (engine : Engine m) (sheaf : Sheaf m) (artifact : Value) : m Coherence :=
  engine.coherenceCheck.check sheaf artifact

/-- The agents that the algebra builds from given ones. -/
def enumerate (engine : Engine m) (primitives : List (Agent m)) (depth : Nat) :
    m (Array (Agent m)) :=
  AgentAlgebra.enumerate engine.algebra primitives depth engine.settings.compose.maxEnumerated

/-- The agent that a seed stands for. -/
def sample (engine : Engine m) (primitives : List (Agent m)) (seed : UInt64) (bound : Nat) :
    ExceptT AlgebraError m (Agent m) :=
  sampleSeed engine.algebra primitives seed bound

end Engine

end AgentAlgebra
