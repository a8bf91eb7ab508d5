import Circulation.Zone.Basic

/-!
# Settings

The settings name a tenant and its zone. They are kept as a text, which a reader turns into settings
or refuses with a reason; what the text looks like is the reader's business.
-/

namespace Circulation

structure Settings where
  tenantId : String
  zone : Zone
  deriving DecidableEq, Repr

namespace Settings

/-- What reads the text of settings. -/
abbrev Reader := String → Except String Settings

/-- The name under which settings are reported that do not come from a file. -/
def inlinePath : String := "<inline>"

/-- Reads the settings in a text that is reported under a path. -/
def parse (read : Reader) (path text : String) : Result Settings :=
  match read text with
  | .ok settings => .ok settings
  | .error reason => .error (.configParse path reason)

/-- Reads the settings file of a directory, given what the file holds if it can be read. -/
def load (read : Reader) (directory : String) (content : Option String) : Result Settings :=
  let path := directory ++ "/engine.yaml"
  match content with
  | some text => parse read path text
  | none => .error (.configNotFound path)

end Settings

end Circulation
