import AgentAlgebra.Double.Decimal
import AgentAlgebra.Text.Words
/-!
# Distances between texts

How far two texts are apart in what they say, and which parts of one the other gives no support for.
-/

namespace AgentAlgebra

/-- A measure of how far texts are apart, meant to lie between zero and one. -/
structure TextDistance (m : Type → Type) where
  name : String
  distance : String → String → m Extended
  /-- The parts of the claim, given second, for which the truth gives no support. -/
  unsupported : String → String → m (List String)

/-- The words of a claim that do not occur in the truth. -/
def unsupportedWords (truth claimed : String) : List String :=
  let known := words truth
  (words claimed).toList.filter fun word => !known.toList.contains word

/-- One less the share of common words among all words of two texts, zero if they have none. -/
def wordOverlap (a b : String) : Extended :=
  let a := (words a).toList
  let b := (words b).toList
  let shared := (a.filter b.contains).length
  let all := a.length + b.length - shared
  if all = 0 then .finite (.zero false)
  else
    match Double.ofRatio false shared all with
    | .finite share => share.oneMinus
    | other => other

/-- Zero for the same text, and one for any other. -/
def exactDistance (a b : String) : Extended :=
  .finite (if a = b then .zero false else .one)

namespace TextDistance

variable {m : Type → Type} [Pure m]

/-- Distance by common words. -/
def byWords : TextDistance m where
  name := "token_overlap"
  distance a b := pure (wordOverlap a b)
  unsupported truth claimed := pure (unsupportedWords truth claimed)

/-- Distance by identity. -/
def exact : TextDistance m where
  name := "exact"
  distance a b := pure (exactDistance a b)
  unsupported truth claimed := pure (unsupportedWords truth claimed)

end TextDistance

end AgentAlgebra
