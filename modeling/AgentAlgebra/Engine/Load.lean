import AgentAlgebra.Engine.Basic
/-!
# Loading an engine

The engine of the settings in a file.
-/

namespace AgentAlgebra

namespace Engine

variable {m : Type → Type} [Monad m]

/-- The engine of the settings in a file, by what reading the file at `path` gave. -/
def ofReading (path : String) : Except FileError String → Except SettingsError (Engine m)
  | .ok text => ofToml path text
  | .error error => .error (.unreadable path error)

/-- The engine of the settings in one of some files. -/
def load (files : Files) (path : String) : Except SettingsError (Engine m) :=
  ofReading path (files.read path)

end Engine

end AgentAlgebra
