import ClassAtlas.Failure
import ClassAtlas.FileSystem.World
import ClassAtlas.Resource

/-!
What is found in an input: classes, whose bytes may still have to be read, and resources.
-/

namespace ClassAtlas

inductive EntryKind where
  | classFile (path : String)
  | classBytes (bytes : List UInt8)
  | resource
  deriving Repr, DecidableEq

structure Entry where
  name : String
  kind : EntryKind
  deriving Repr, DecidableEq

namespace Entry

def isClass (e : Entry) : Bool :=
  e.kind != .resource

def bytes (e : Entry) (w : World) : Except Failure (Option (List UInt8)) :=
  match e.kind with
  | .classFile path =>
    match w.readFile path with
    | .ok bytes => .ok (some bytes)
    | .error cause => .error (.ofFileAccess path (.os cause))
  | .classBytes bytes => .ok (some bytes)
  | .resource => .ok none

/-- The class name of a path in an input, for paths of classes. -/
def className? (path : String) : Option String :=
  let ending := ".class".toList
  let chars := path.toList
  let stem := chars.take (chars.length - ending.length)
  if ending.isSuffixOf chars && !stem.isEmpty then some (String.ofList stem) else none

end Entry

end ClassAtlas
