import ClassAtlas.FileSystem.Path
import ClassAtlas.FileSystem.Tree
import ClassAtlas.Time

/-!
What a run sees of the machine: the files, the current directory, the environment and the time.
-/

namespace ClassAtlas

open FileSystem

structure World where
  root : Node := .bareRoot
  here : Place := []
  environment : List (String × String) := []
  now : Timestamp := {}
  elapsed : Duration := {}

namespace World

def envVar? (w : World) (name : String) : Option String :=
  w.environment.lookup name

def currentDirectory (w : World) : String :=
  "/" ++ Text.joinWith "/" w.here

def stat (w : World) (path : String) : Except OsError (Place × Node) := do
  match ← resolve w.root w.here .find path with
  | .found place node => return (place, node)
  | .missing _ _ => throw .notFound

def pathExists (w : World) (path : String) : Bool :=
  (w.stat path).toOption.isSome

def isDirectory (w : World) (path : String) : Bool :=
  (w.stat path).toOption.any (·.2.isDirectory)

def isFile (w : World) (path : String) : Bool :=
  (w.stat path).toOption.any (·.2.isFile)

def readFile (w : World) (path : String) : Except OsError (List UInt8) := do
  match ← w.stat path with
  | (_, .file content _) => return content
  | (_, .device _) => return []
  | _ => throw .isADirectory

def readText (w : World) (path : String) : Except IoError String :=
  match w.readFile path with
  | .error cause => .error (.os cause)
  | .ok content =>
    match String.fromUTF8? ⟨content.toArray⟩ with
    | some text => .ok text
    | none => .error .notUtf8

def writeFile (w : World) (path : String) (content : List UInt8) : Except OsError World := do
  match ← resolve w.root w.here .write path with
  | .found _ (.directory _) => throw .isADirectory
  | .found place (.file _ executable) =>
    return { w with root := w.root.put (.file content executable) place }
  | .found _ (.link _) => throw .tooManyLinks
  | .found _ (.device full) => if full && !content.isEmpty then throw .noSpace else return w
  | .missing directory name =>
    return { w with root := w.root.put (.file content false) (directory ++ [name]) }

def writeText (w : World) (path text : String) : Except OsError World :=
  w.writeFile path text.toUTF8.data.toList

/-- Removes a file or a link, never what a link leads to. -/
def removeFile (w : World) (path : String) : Except OsError World := do
  match ← resolve w.root w.here .findItself path with
  | .found _ (.directory _) => throw .isADirectory
  | .found place _ => return { w with root := w.root.erase place }
  | .missing _ _ => throw .notFound

def makeDirectory (w : World) (path : String) : Except OsError World := do
  match ← resolve w.root w.here .findItself path with
  | .found _ _ => throw .fileExists
  | .missing directory name =>
    return { w with root := w.root.put .emptyDirectory (directory ++ [name]) }

/-- Makes a directory and those above it that are missing, at most `bound` of them. -/
def makeDirectoriesWithin (w : World) : Nat → String → Except OsError World
  | 0, _ => .error .notFound
  | bound + 1, path =>
    if path.isEmpty then .ok w
    else
      match w.makeDirectory path with
      | .ok made => .ok made
      | .error .notFound =>
        match Path.parent? path with
        | none => .error .notFound
        | some parent => do
          let above ← w.makeDirectoriesWithin bound parent
          match above.makeDirectory path with
          | .ok made => return made
          | .error cause => if above.isDirectory path then return above else throw cause
      | .error cause => if w.isDirectory path then .ok w else .error cause

def makeDirectories (w : World) (path : String) : Except OsError World :=
  w.makeDirectoriesWithin (path.length + 1) path

end World

end ClassAtlas
