import ClassAtlas.Name
import ClassAtlas.Text.Lowercase

/-!
Resources: files of chosen types that are drawn as nodes although they are no classes.
-/

namespace ClassAtlas

structure ResourceRule where
  fileTypes : List String
  deriving Repr, DecidableEq

namespace ResourceRule

def withoutDots (fileType : String) : String :=
  String.ofList (fileType.toList.dropWhile (· == '.'))

/-- The node of an entry that the rule tracks: its name, with a slash in front at the root. -/
def nodeName? (rule : ResourceRule) (entry : String) : Option String :=
  if Name.hasFileType entry (rule.fileTypes.map withoutDots) then
    some (if entry.toList.contains '/' then entry else "/" ++ entry)
  else none

def isExtraType (fileType : String) : Bool :=
  fileType != "" && fileType != "java" && fileType != "class"

/-- The types that rules track, in lower case, each once and in the order they are met. -/
def extraFileTypes (rules : List ResourceRule) : List String :=
  let types := rules.flatMap (·.fileTypes.map fun t => Text.lowercase (withoutDots t))
  (types.filter isExtraType).foldl (fun seen t => if seen.contains t then seen else seen ++ [t]) []

def resolve? (rules : List ResourceRule) (entry : String) : Option String :=
  rules.findSome? (·.nodeName? entry)

end ResourceRule

end ClassAtlas
