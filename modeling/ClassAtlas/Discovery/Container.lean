import ClassAtlas.FileSystem.Path
import ClassAtlas.Text.Alphanumeric
import ClassAtlas.Text.Lowercase

/-!
Archives by their file names: of which kind one is, and to which family it belongs.
-/

namespace ClassAtlas

inductive ContainerKind where
  | jar
  | war
  deriving Repr, DecidableEq

def ContainerKind.ofPath? (path : String) : Option ContainerKind := do
  let ending ← Path.extension? path
  if Text.sameIgnoringCase ending "jar" then some .jar
  else if Text.sameIgnoringCase ending "war" then some .war
  else none

/-- The letters and digits that the file name starts with, in lower case and before the last
dot. -/
def familyName (path : String) : String :=
  let name := (Text.lowercase ((Path.fileName? path).getD "")).toList
  let stem := match Text.cutLast? '.' name with
    | some (stem, _) => stem
    | none => name
  String.ofList (stem.takeWhile Text.isAlphanumeric)

end ClassAtlas
