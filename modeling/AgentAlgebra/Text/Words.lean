import AgentAlgebra.Fields
import AgentAlgebra.Text.Lowercase
import AgentAlgebra.Text.WordChar
/-!
# Words

The words of a text are its longest runs of letters and numbers. They are compared in lower case.
-/

namespace AgentAlgebra

/-- The longest runs of letters and numbers, `run` being the run before the text, last character
first. -/
def wordsFrom (run : List Char) : List Char → List String
  | [] => if run.isEmpty then [] else [String.ofList run.reverse]
  | c :: rest =>
    if isWordChar c then wordsFrom (c :: run) rest
    else if run.isEmpty then wordsFrom [] rest
    else String.ofList run.reverse :: wordsFrom [] rest

/-- The words of a text, in lower case and without repetition. -/
def words (text : String) : Names := .ofList ((wordsFrom [] text.toList).map lowercase)

/-- Whether a text occurs in another. -/
def occursIn (part : List Char) : List Char → Bool
  | [] => part.isEmpty
  | c :: rest => part.isPrefixOf (c :: rest) || occursIn part rest

end AgentAlgebra
