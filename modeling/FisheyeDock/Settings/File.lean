import FisheyeDock.Color.Css
import FisheyeDock.Settings.Decode
import FisheyeDock.Settings.Derive

/-! # Settings from a file

    Reads the text of a settings document.  Settings are kept in a file whose bytes are the text in
    UTF-8.  Any library can decode the document and any reader its colors; those that come with the dock
    do where none are named. -/

namespace FisheyeDock.Settings

/-- Why a text is no settings document. -/
inductive ParseError where
  | notADocument
  | issues (found : List Issue)
  deriving Repr, DecidableEq

/-- The issues of a document, one a line. -/
def ParseError.message : ParseError → String
  | notADocument => "error parsing KDL"
  | issues found => String.intercalate "\n" (found.map Issue.message)

/-- The settings that a text holds. -/
def parse (text : String) (library : Library := .builtIn) (css : Color.Css := .builtIn) :
    Except (Halt ParseError) (Settings Float) :=
  match library.parse text with
  | none => .error (.report .notADocument)
  | some nodes => (library.ofNodes css nodes).mapError (Halt.map .issues)

/-- Why a file gives no settings. -/
inductive LoadError where
  /-- The file cannot be read, or its bytes are no text. -/
  | reading (name : String)
  | parsing (cause : ParseError)
  deriving Repr, DecidableEq

def LoadError.message : LoadError → String
  | reading name => "error reading " ++ Text.quote name
  | parsing _ => "error parsing"

/-- The settings in a file of a name, given its bytes if it could be read. -/
def ofFile (name : String) (contents : Option ByteArray) (library : Library := .builtIn)
    (css : Color.Css := .builtIn) : Except (Halt LoadError) (Settings Float) :=
  match contents.bind String.fromUTF8? with
  | none => .error (.report (.reading name))
  | some text => (parse text library css).mapError (Halt.map .parsing)

end FisheyeDock.Settings
