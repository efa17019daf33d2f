import AgentAlgebra.Digest.Base32Hex
import AgentAlgebra.Digest.Sha256
import AgentAlgebra.Value.Printer
/-!
# Witness ids

A failure is known by the hash of its key: what sort of failure it is, of which law or sheaf, who is
at fault, and what brings it about. The same failure has the same id wherever it is found.
-/

namespace AgentAlgebra

/-- The sorts of failures. -/
inductive FailureClass where
  /-- The sides of a law were seen to behave differently. -/
  | lawViolation
  /-- A second run on the same inputs went another way. -/
  | replayDivergence
  | completeViewsDisagree
  | lossyViewContradiction
  | glueUndefined
  | glueUnfaithful
deriving DecidableEq

def FailureClass.name : FailureClass → String
  | .lawViolation => "law_violation"
  | .replayDivergence => "replay_divergence"
  | .completeViewsDisagree => "complete_views_disagree"
  | .lossyViewContradiction => "lossy_view_contradiction"
  | .glueUndefined => "glue_undefined"
  | .glueUnfaithful => "glue_unfaithful"

/-- What a failure is known by. -/
structure WitnessKey where
  failure : String
  /-- The law or the sheaf. -/
  law : String
  /-- The agents or the views at fault. -/
  subject : Option String
  /-- What brings the failure about. -/
  context : Option Value

namespace WitnessKey

/-- The version of the key's layout. -/
def schema : Nat := 1

/-- The key as a value; what is absent is `null`. -/
def toValue (key : WitnessKey) : Value :=
  .record [("schema", .ofNat schema), ("class", .text key.failure), ("law", .text key.law),
    ("subject", .ofOption (key.subject.map .text)), ("context", .ofOption key.context)]

/-- The id: the hash of the key's canonical text. -/
def id (key : WitnessKey) : String :=
  "w1_" ++ Base32Hex.encode (Sha256.hash key.toValue.canonicalText.toUTF8.data.toList)

end WitnessKey

end AgentAlgebra
