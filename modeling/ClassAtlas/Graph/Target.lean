import ClassAtlas.Failure
import ClassAtlas.FileSystem.Path
import ClassAtlas.Text.Lowercase

/-!
The files of a graph export: the image, whose suffix picks the format, and beside it the graph text
it is rendered from.
-/

namespace ClassAtlas.Graph

structure Target where
  image : String
  dotFile : String
  format : String
  /-- The file name up to its first dot, which also names the graph. -/
  stem : String
  deriving Repr, DecidableEq

def imageFormats : List String := ["svg", "png", "pdf"]

def stemOf (fileName : String) : String :=
  String.ofList (fileName.toList.takeWhile (· != '.'))

def Target.ofImage (image : String) : Except Failure Target := do
  let some fileName := Path.fileName? image
    | throw (.invalidOutputFile image "no file name")
  let some suffix := Path.extension? image
    | throw (.invalidOutputFile image "expected a .svg, .png or .pdf file")
  let format := Text.lowercase suffix
  if !imageFormats.contains format then
    throw (.invalidOutputFormat format)
  let stem := stemOf fileName
  if stem.isEmpty then
    throw (.invalidOutputFile image "empty file name")
  let dotFile := Path.join ((Path.parent? image).getD "") (stem ++ ".dot")
  return { image, dotFile, format, stem }

end ClassAtlas.Graph
