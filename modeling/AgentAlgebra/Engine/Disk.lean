import AgentAlgebra.Engine.Load
/-!
# Files on disk

Reading the settings of an engine from a file of the operating system. Only the reading is done
here; what it gives is turned into an engine by `Engine.ofReading`.
-/

namespace AgentAlgebra

/-- The reason that the operating system gives for a failure, with its number. -/
def FileError.ofFailure (failure : IO.Error) : FileError :=
  match failure with
  | .alreadyExists _ code details | .hardwareFault code details | .illegalOperation code details
  | .inappropriateType _ code details | .interrupted _ code details
  | .invalidArgument _ code details | .noFileOrDirectory _ code details
  | .noSuchThing _ code details | .otherError code details | .permissionDenied _ code details
  | .protocolError code details | .resourceBusy code details | .resourceExhausted _ code details
  | .resourceVanished code details | .timeExpired code details
  | .unsatisfiedConstraints code details | .unsupportedOperation code details =>
    .refused details.capitalize
      (if code.toNat < 0x80000000 then code.toNat else 0x100000000 - code.toNat)
  | .unexpectedEof | .userError _ => .failed (toString failure)

/-- The text of the file at a path on disk. -/
def readDisk (path : String) : BaseIO (Except FileError String) := do
  match ← (IO.FS.readBinFile path).toBaseIO with
  | .error failure => return .error (.ofFailure failure)
  | .ok bytes =>
    match String.fromUTF8? bytes with
    | some text => return .ok text
    | none => return .error .notText

/-- The engine of the settings in a file on disk. -/
def Engine.loadDisk {m : Type → Type} [Monad m] (path : String) :
    BaseIO (Except SettingsError (Engine m)) := do
  return Engine.ofReading path (← readDisk path)

end AgentAlgebra
