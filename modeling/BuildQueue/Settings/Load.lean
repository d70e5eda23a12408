import BuildQueue.Settings.Validation
import BuildQueue.Toml.Reader

/-!
# Loading settings

A configuration is a TOML document, given as text or as the content of a file. A failure says
where it happened, from the outside in.
-/

namespace BuildQueue
namespace Settings

/-- Why a configuration could not be loaded. -/
inductive LoadError where
  /-- The file is missing or its content is no text. -/
  | unreadable
  /-- The text is no document of the right shape. -/
  | unparsable
  | invalid (why : Invalid)
deriving DecidableEq, Repr

/-- The wording of a failure to load a text. -/
def LoadError.message : LoadError → String
  | unreadable => "while reading"
  | unparsable => "while parsing collapse config"
  | invalid why => why.message

/-- The wording of a failure to load a file. -/
def LoadError.messageIn (fileName : String) : LoadError → String
  | unreadable => "while reading " ++ fileName
  | error => "in " ++ fileName ++ ": " ++ error.message

/-- The settings of a document. -/
def ofToml (text : String) : Except LoadError Settings :=
  match (Toml.read text).bind Draft.ofDocument? with
  | none => .error .unparsable
  | some draft => draft.validate.mapError .invalid

/-- The settings of a file with the given content, if the file is there. -/
def ofFile (content : Option ByteArray) : Except LoadError Settings :=
  match content.bind String.fromUTF8? with
  | none => .error .unreadable
  | some text => ofToml text

end Settings
end BuildQueue
