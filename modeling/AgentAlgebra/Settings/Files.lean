/-!
# Files

The texts that settings are read from, by path, and why a path may give no text. Files are plain
data, so that loading from them is a function.
-/

namespace AgentAlgebra

/-- Why a file cannot be read. -/
inductive FileError where
  /-- The operating system refuses, with a reason and its number. -/
  | refused (reason : String) (number : Nat)
  /-- The reading fails, for a reason of its own. -/
  | failed (reason : String)

namespace FileError

/-- Nothing stands at the path. -/
def missing : FileError := .refused "No such file or directory" 2

/-- A directory stands at the path. -/
def directory : FileError := .refused "Is a directory" 21

/-- The bytes of the file are no UTF-8. -/
def notText : FileError := .failed "stream did not contain valid UTF-8"

/-- The reason, with its number if it has one. -/
def text : FileError → String
  | .refused reason number => s!"{reason} (os error {number})"
  | .failed reason => reason

end FileError

/-- What stands at a path. -/
inductive FileNode where
  | directory
  | file (text : String)

/-- What stands at each path; a path that is not listed has nothing. -/
abbrev Files := List (String × FileNode)

namespace Files

/-- The root directory and the null device, which reads as the empty text. -/
def bare : Files := [("/", .directory), ("/dev/null", .file "")]

/-- The text of the file at a path. -/
def read (files : Files) (path : String) : Except FileError String :=
  match files.lookup path with
  | some (.file text) => .ok text
  | some .directory => .error .directory
  | none => .error .missing

end Files

end AgentAlgebra
