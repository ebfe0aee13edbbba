import ClassAtlas.Discovery.Container
import ClassAtlas.Discovery.Entry
import ClassAtlas.Zip.Archive

/-!
Discovery in an archive. Entries are visited in the order of the archive; an archive inside it that
belongs to the same family is visited in its place.
-/

namespace ClassAtlas.Discovery

def webClasses : String := "WEB-INF/classes/"

/-- The start that is taken off the names of entries, at the outermost level only. -/
def stripped : ContainerKind → String
  | .war => webClasses
  | .jar => ""

def stripStart (start name : String) : String :=
  if start.toList.isPrefixOf name.toList then String.ofList (name.toList.drop start.length)
  else name

def occursIn (part : List Char) : List Char → Bool
  | [] => part.isEmpty
  | c :: rest => part.isPrefixOf (c :: rest) || occursIn part rest

def isFamilyArchive (family name : String) : Bool :=
  (Name.extension? name).any (Text.sameIgnoringCase · "jar")
    && occursIn family.toList (Text.lowercase (String.ofList (Name.lastSegment name))).toList

def readEntry (label : String) (entry : Zip.Entry) (data : List UInt8) :
    Except Failure (List UInt8) :=
  match entry.content data with
  | .ok bytes => .ok bytes
  | .error e => .error (.archiveEntryUnreadable label entry.name e.message)

def openArchive (label : String) (bytes : List UInt8) : Except Failure Zip.Archive :=
  match Zip.Archive.read bytes with
  | .ok archive => .ok archive
  | .error e => .error (.archiveUnreadable label e.message)

def nestedLabel (label entry : String) : String :=
  label ++ "!/" ++ entry

inductive Finding where
  | entries (found : List Entry)
  /-- An archive of the family, which is visited in the place of its entry. -/
  | archive (label : String) (inside : Zip.Archive)

def examine (rules : List ResourceRule) (family start label : String) (entry : Zip.Entry) :
    Except Failure Finding := do
  let data ← match entry.opened with
    | .error e => throw (.archiveUnreadable label e.message)
    | .ok data => pure data
  if entry.isDirectory then return .entries []
  let name := stripStart start entry.name
  match Entry.className? name with
  | some className =>
    return .entries [{ name := className, kind := .classBytes (← readEntry label entry data) }]
  | none =>
    if isFamilyArchive family entry.name then
      let inner := nestedLabel label entry.name
      return .archive inner (← openArchive inner (← readEntry label entry data))
    else
      return .entries ((ResourceRule.resolve? rules name).map fun node =>
        ({ name := node, kind := .resource } : Entry)).toList

def contribution (rules : List ResourceRule) (family : String)
    (enter : String → Zip.Archive → Except Failure (List Entry)) (start label : String)
    (entry : Zip.Entry) : Except Failure (List Entry) := do
  match ← examine rules family start label entry with
  | .entries found => return found
  | .archive inner archive => enter inner archive

section

variable (rules : List ResourceRule) (family : String)

/-- Visits an archive inside another, which goes by its label, and the archives inside it in turn. An
archive that holds itself has no end, and no result. -/
def flatten? : ReaderT String (ReaderT Zip.Archive (ExceptT Failure Option)) (List Entry) :=
  fun label archive => do
    let parts ← archive.entries.mapM fun entry => do
      match ← examine rules family "" label entry with
      | .entries found => return found
      | .archive inner inside => (flatten?.run inner).run inside
    return parts.flatten
partial_fixpoint

end

def flatten (rules : List ResourceRule) (family label : String) (archive : Zip.Archive) :
    Except Failure (List Entry) :=
  match (flatten? rules family label archive).run with
  | some outcome => outcome
  | none => .error (.archiveUnreadable label "archives are nested without end")

def walkArchive (w : World) (rules : List ResourceRule) (path : String) :
    Except Failure (List Entry) := do
  match ContainerKind.ofPath? path with
  | none => throw (.invalidArgument s!"{path} is not a .jar or .war file")
  | some kind =>
    match w.readFile path with
    | .error _ => throw (.archiveUnreadable path "i/o error")
    | .ok bytes =>
      let archive ← openArchive path bytes
      let family := familyName path
      let parts ← archive.entries.mapM
        (contribution rules family (flatten rules family) (stripped kind) path)
      return parts.flatten

end ClassAtlas.Discovery
