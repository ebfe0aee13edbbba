import ClassAtlas.FileSystem.Error
import ClassAtlas.NameSet
import ClassAtlas.Text.Cut

/-!
A tree of files, directories and symbolic links, and the resolution of paths in it. A place is the
list of names that leads to a node from the root without any link; directory entries are kept in
ascending order of their names.
-/

namespace ClassAtlas.FileSystem

inductive Node where
  | file (content : List UInt8) (executable : Bool)
  | directory (entries : List (String × Node))
  | link (target : String)
  /-- A device that is empty to read and forgets what is written to it, unless it is full. -/
  | device (full : Bool)

abbrev Place := List String

namespace Node

def emptyDirectory : Node := .directory []

def isDirectory : Node → Bool
  | .directory _ => true
  | _ => false

def isFile : Node → Bool
  | .file _ _ => true
  | _ => false

def isExecutable : Node → Bool
  | .file _ executable => executable
  | .directory _ => true
  | .link _ => false
  | .device _ => false

def entries : Node → List (String × Node)
  | .directory entries => entries
  | _ => []

def at? (node : Node) : Place → Option Node
  | [] => some node
  | name :: rest => do (← node.entries.lookup name).at? rest

/-- Sets the node at a place, making the directories that lead to it. -/
def put (node new : Node) : Place → Node
  | [] => new
  | name :: rest =>
    let child := (node.entries.lookup name).getD emptyDirectory
    .directory (NameMap.insert name (child.put new rest) node.entries)

def erase (node : Node) : Place → Node
  | [] => node
  | [name] => .directory (node.entries.filter (·.1 ≠ name))
  | name :: rest =>
    match node.entries.lookup name with
    | some child => .directory (NameMap.insert name (child.erase rest) node.entries)
    | none => node

def bareRoot : Node :=
  let devices : Node := .directory [("full", .device true), ("null", .device false)]
  ["bin", "etc", "home", "tmp", "usr", "var"].foldl
    (fun root name => root.put emptyDirectory [name]) (.directory [("dev", devices)])

end Node

/-- What a path leads to: a node, or a name that is not there in a directory that is. -/
inductive Resolved where
  | found (place : Place) (node : Node)
  | missing (directory : Place) (name : String)

/-- The steps of a path. A slash at the end is an empty step: it asks for a directory. -/
def stepsOf (path : String) : List String :=
  let parts := Text.splitAll '/' path.toList
  let named := (parts.filter (!·.isEmpty)).map String.ofList
  if parts.getLast? == some [] then named ++ [""] else named

def startOf (here : Place) (path : String) : Place :=
  if path.toList.head? == some '/' then [] else here

def nameLimit : Nat := 255

def pathLimit : Nat := 4095

/-- What a path is looked up for, which decides on its last name. -/
inductive Purpose where
  | find
  | findItself
  | write
  deriving Repr, DecidableEq

/-- Takes steps from a directory. A link is handed to `onLink` with the directory it stands in and
the steps after it, one at the end only if it is to be followed. A name with a slash behind it
cannot be written, whether or not it is there. -/
def walkSteps (root : Node) (purpose : Purpose)
    (onLink : Place → String → List String → Except OsError Resolved) :
    Place → List String → Except OsError Resolved
  | place, [] =>
    match root.at? place with
    | some node => .ok (.found place node)
    | none => .error .notFound
  | place, step :: rest =>
    match root.at? place with
    | none => .error .notFound
    | some (.file _ _) => .error .notADirectory
    | some (.link _) => .error .notADirectory
    | some (.device _) => .error .notADirectory
    | some (.directory entries) =>
      if step == "." || step == "" then walkSteps root purpose onLink place rest
      else if step == ".." then walkSteps root purpose onLink place.dropLast rest
      else if purpose == .write && rest == [""] then .error .isADirectory
      else if step.utf8ByteSize > nameLimit then .error .nameTooLong
      else
        match entries.lookup step with
        | none =>
          if rest.isEmpty || rest == [""] then .ok (.missing place step) else .error .notFound
        | some (.link target) =>
          if rest.isEmpty && purpose == .findItself then
            .ok (.found (place ++ [step]) (.link target))
          else onLink place target rest
        | some _ => walkSteps root purpose onLink (place ++ [step]) rest

def follow (root : Node) (purpose : Purpose) : Nat → Place → List String → Except OsError Resolved
  | 0 => walkSteps root purpose fun _ _ _ => .error .tooManyLinks
  | links + 1 => walkSteps root purpose fun place target rest =>
    follow root purpose links (startOf place target) (stepsOf target ++ rest)

def linkLimit : Nat := 40

def resolve (root : Node) (here : Place) (purpose : Purpose) (path : String) :
    Except OsError Resolved :=
  if path.toList.contains '\x00' then .error .nulInName
  else if path.isEmpty then .error .notFound
  else if path.utf8ByteSize > pathLimit then .error .nameTooLong
  else follow root purpose linkLimit (startOf here path) (stepsOf path)

end ClassAtlas.FileSystem
