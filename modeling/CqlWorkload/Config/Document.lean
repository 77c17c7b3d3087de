import CqlWorkload.Config.Reader
import CqlWorkload.Yaml.Reader

/-!
# Configuration documents

A configuration is kept in a YAML text.  An empty text is an empty mapping, any other
document has to be a mapping, and a text that is no document is reported with the path
of the file.  The text is read by the reader of this library or by another one.
-/

namespace CqlWorkload.Config

def textFailure (path : String) : Yaml.Fault → Failure
  | .malformed => .unreadableConfiguration path
  | .noValue reason => .impossibleValue reason
  | .wideCode => .wideCode
  | .wideWeight => .wideWeight
  | .noTruth word => .unknownTruth word
  | .noStamp => .noMember "NoneType" "groupdict"
  | .stampOfMapping => .notMatchable "list"
  | .noDigits => .missingDigits
  | .unsupported => .unsupportedDocument path

def ofFileText (path text : String) (reader : Yaml.Loader := Yaml.read) : Except Failure Config :=
  match reader text with
  | .error fault => .error (textFailure path fault)
  | .ok .null => ofDocument (.map [])
  | .ok (.map entries) => ofDocument (.map entries)
  | .ok value => .error (.configurationFileKind path value.kindName)

end CqlWorkload.Config
