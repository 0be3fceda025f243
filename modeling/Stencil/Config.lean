import Stencil.Charset
import Stencil.Config.Settings
import Stencil.Yaml.Document

/-!
# Configuration files

A configuration is a YAML document: a mapping of settings, or an empty document, which stands for
the defaults.

## Main definitions

* `ConfigError` is why a file is no configuration.
* `Settings.ofDocument` loads settings from the value of a document, `Settings.ofFile` from the
  bytes of a file.

## Main results

* `Settings.ofDocument_of_isEmpty`: an empty document gives the defaults.
-/

namespace Stencil

/-- The name of a configuration file. -/
def configFileName : String := "ftl.yaml"

/-- Why a file is no configuration. -/
inductive ConfigError
  /-- The file cannot be read. -/
  | unreadable (detail : String)
  /-- Its bytes are no text. -/
  | undecodable (detail : String)
  /-- Its text is no document. -/
  | malformed (path : String) (fault : Yaml.Fault)
  /-- Its document is no mapping. -/
  | noMapping (path : String)
  /-- Its mapping holds no settings. -/
  | refused (path : String) (fault : SettingsFault)
  deriving Repr, Inhabited

/-- The wording of an error. -/
def ConfigError.message : ConfigError → String
  | unreadable detail => detail
  | undecodable detail => detail
  | malformed path fault => "Invalid YAML in " ++ path ++ ": " ++ fault.message
  | noMapping path => "YAML must be a mapping: " ++ path
  | refused path fault => path ++ ": " ++ fault.message

namespace Settings

/-- Loads settings from the value of a document, found at a path. -/
def ofDocument (path : String) (document : Value) : Except ConfigError Settings :=
  if document.isEmpty then .ok defaults
  else
    match document with
    | .dict entries => (ofValue (.dict entries)).mapError (.refused path)
    | _ => .error (.noMapping path)

/-- An empty document gives the defaults. -/
theorem ofDocument_of_isEmpty (path : String) {document : Value}
    (h : document.isEmpty = true) : ofDocument path document = .ok defaults := by
  simp [ofDocument, h]

/-- Loads settings from the text of a file at a path. -/
def ofText (path text : String) : Except ConfigError Settings :=
  match Yaml.read text with
  | .ok document => ofDocument path document
  | .error fault => .error (.malformed path fault)

/-- Loads settings from the bytes of a file at a path. -/
def ofFile (path : String) : Except String (List UInt8) → Except ConfigError Settings
  | .error detail => .error (.unreadable detail)
  | .ok bytes =>
    match decodeText "utf-8" bytes with
    | .ok text => ofText path text
    | .error (.undecodable e) => .error (.undecodable e.message)
    | .error _ => .error (.undecodable "")

end Settings

end Stencil
