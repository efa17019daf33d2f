import AgentAlgebra.Engine.Disk
import AgentAlgebra.Value.Reader
import AgentAlgebra.Proofs.BaseLaws
import AgentAlgebra.Proofs.Progress
import AgentAlgebra.Proofs.WellFormed
import AgentAlgebra.Proofs.Conservation
import AgentAlgebra.Proofs.Verdicts
import AgentAlgebra.Proofs.Congruence
import AgentAlgebra.Proofs.Positions
import AgentAlgebra.Proofs.Substitution
import AgentAlgebra.Proofs.Exhaustive
import AgentAlgebra.Proofs.Renderings
import AgentAlgebra.Proofs.Failures
import AgentAlgebra.Proofs.CompleteViews
import AgentAlgebra.Proofs.Casing
import AgentAlgebra.Proofs.Excerpts
import AgentAlgebra.Proofs.Forms
import AgentAlgebra.Proofs.Reports
import AgentAlgebra.Proofs.Movement
import AgentAlgebra.Proofs.Frontiers
import AgentAlgebra.Proofs.Replays
import AgentAlgebra.Proofs.Neutrality
import AgentAlgebra.Proofs.Sides
import AgentAlgebra.Proofs.Feeding
import AgentAlgebra.Proofs.Constants
import AgentAlgebra.Proofs.Rounding
import AgentAlgebra.Proofs.NumberTexts
import AgentAlgebra.Proofs.CanonicalText
import AgentAlgebra.Proofs.Base32
import AgentAlgebra.Proofs.WitnessIds
import AgentAlgebra.Proofs.EffectfulChecks
import AgentAlgebra.Proofs.ConflictIds
import AgentAlgebra.Proofs.Intersections
import AgentAlgebra.Proofs.HiddenState
import AgentAlgebra.Proofs.Blame
import AgentAlgebra.Proofs.Attempts
import AgentAlgebra.Proofs.Truncation
import AgentAlgebra.Proofs.Samples
import AgentAlgebra.Proofs.Runs
import AgentAlgebra.Proofs.Mirroring
import AgentAlgebra.Proofs.Routing
import AgentAlgebra.Proofs.FirstDifferences
import AgentAlgebra.Proofs.Limits
import AgentAlgebra.Proofs.TypeForms
import AgentAlgebra.Proofs.CoherenceForms
import AgentAlgebra.Proofs.Recordings
import AgentAlgebra.Proofs.Observing
import AgentAlgebra.Proofs.Lowered
import AgentAlgebra.Proofs.WordCasing
import AgentAlgebra.Proofs.CaseIgnored
import AgentAlgebra.Proofs.Odometers
import AgentAlgebra.Proofs.Base32Bits
import AgentAlgebra.Proofs.BuiltNames
