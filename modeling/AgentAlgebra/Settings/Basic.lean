import AgentAlgebra.Coherence.Checking
import AgentAlgebra.Explore.Enumerate
import AgentAlgebra.Settings.Files
import AgentAlgebra.Settings.Tree
import AgentAlgebra.Verify.Outcome
/-!
# Settings

How an engine builds, explores and checks. Settings come from a TOML document with a table for each
part; every table and every field may be left out.
-/

namespace AgentAlgebra

namespace ComposeSettings

def ofTree? (tree : SettingTree) : Option ComposeSettings := do
  let standard : ComposeSettings := {}
  match ← tree.fields? ["default_retry_bound", "max_enumerated"] with
  | [bound, cap] =>
    return ⟨← SettingTree.fieldOr standard.defaultRetryBound SettingTree.count? bound,
      ← SettingTree.fieldOr standard.maxEnumerated SettingTree.count? cap⟩
  | _ => none

def toValue (settings : ComposeSettings) : Value :=
  .record [("default_retry_bound", .ofNat settings.defaultRetryBound),
    ("max_enumerated", .ofNat settings.maxEnumerated)]

end ComposeSettings

namespace VerifySettings

def ofTree? (tree : SettingTree) : Option VerifySettings := do
  match ← tree.fields? ["replay"] with
  | [replay] => return ⟨← SettingTree.fieldOr true SettingTree.flag? replay⟩
  | _ => none

def toValue (settings : VerifySettings) : Value := .record [("replay", .bool settings.replay)]

end VerifySettings

namespace CoherenceSettings

def ofTree? (tree : SettingTree) : Option CoherenceSettings := do
  let standard : CoherenceSettings := {}
  match ← tree.fields? ["max_lossy_distance"] with
  | [limit] => return ⟨← SettingTree.fieldOr standard.maxLossyDistance SettingTree.real? limit⟩
  | _ => none

/-- A limit that is no finite number has no form and is left `null`. -/
def toValue (settings : CoherenceSettings) : Value :=
  .record [("max_lossy_distance",
    match settings.maxLossyDistance with
    | .finite limit => .number (.double limit)
    | _ => .null)]

end CoherenceSettings

/-- The settings of an engine. -/
structure Settings where
  compose : ComposeSettings := {}
  verify : VerifySettings := {}
  coherence : CoherenceSettings := {}

/-- A setting that is out of range. -/
inductive SettingFault where
  | retryBound
  | enumerationCap
  | lossyDistance

/-- The setting and what it must be. -/
def SettingFault.text : SettingFault → String
  | .retryBound => "compose.default_retry_bound must be at least 1"
  | .enumerationCap => "compose.max_enumerated must be at least 1"
  | .lossyDistance => "coherence.max_lossy_distance must lie in [0, 1]"

/-- Why there are no settings. -/
inductive SettingsError where
  /-- The file at `path` cannot be read. -/
  | unreadable (path : String) (error : FileError)
  /-- The text is no document of settings. -/
  | unparsed (path : String)
  | invalid (path : String) (fault : SettingFault)
  | algebra (error : AlgebraError)

/-- The sentence that reports the error. -/
def SettingsError.message : SettingsError → String
  | .unreadable path error => s!"failed to read file: {path}: " ++ error.text
  | .unparsed path => s!"invalid toml at {path}"
  | .invalid path fault => s!"invalid config at {path}: " ++ fault.text
  | .algebra error => error.message

namespace Settings

/-- The settings in a document, whatever their range. -/
def ofTree? (tree : SettingTree) : Option Settings := do
  match ← tree.fields? ["compose", "verify", "coherence"] with
  | [compose, verify, coherence] =>
    return ⟨← SettingTree.fieldOr {} ComposeSettings.ofTree? compose,
      ← SettingTree.fieldOr {} VerifySettings.ofTree? verify,
      ← SettingTree.fieldOr {} CoherenceSettings.ofTree? coherence⟩
  | _ => none

/-- The first setting that is out of range. -/
def fault? (settings : Settings) : Option SettingFault :=
  let limit := settings.coherence.maxLossyDistance
  if settings.compose.defaultRetryBound = 0 then some .retryBound
  else if settings.compose.maxEnumerated = 0 then some .enumerationCap
  else if (Extended.finite (.zero false)).ble limit && limit.ble (.finite .one) then none
  else some .lossyDistance

/-- The settings of a TOML document that was found at `path`. -/
def ofToml (path text : String) : Except SettingsError Settings :=
  match (Toml.ofText? text).bind fun entries => ofTree? (.table (SettingTree.ofEntries entries)) with
  | none => .error (.unparsed path)
  | some settings =>
    match settings.fault? with
    | some fault => .error (.invalid path fault)
    | none => .ok settings

/-- The name of the place where a text stands that is in no file. -/
def inline : String := "<inline>"

def toValue (settings : Settings) : Value :=
  .record [("compose", settings.compose.toValue), ("verify", settings.verify.toValue),
    ("coherence", settings.coherence.toValue)]

end Settings

end AgentAlgebra
