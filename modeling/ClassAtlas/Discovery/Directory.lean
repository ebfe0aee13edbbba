import ClassAtlas.Discovery.Entry
import ClassAtlas.Settings.Basic

/-!
Discovery in a directory. The files below it are visited in the order of their names, a directory
before what is in it. Links are followed only if that is wanted, and never into a directory that is
being visited.
-/

namespace ClassAtlas.Discovery

open FileSystem

/-- Why something below the root cannot be visited. -/
inductive Obstacle where
  | unreachable (cause : OsError)
  | loop (ancestor : String)
  deriving Repr, DecidableEq

inductive Visit where
  | file (name : String)
  | directory (name : String) (inside : List Visit)
  | obstacle (name : String) (cause : Obstacle)

/-- A directory that is being visited: how it is called, where it is, and those above it, the
nearest first. -/
structure Stop where
  path : String
  place : Place
  above : List (Place × String)

def Stop.enter (s : Stop) (name : String) (place : Place) : Stop :=
  { path := Path.join s.path name, place, above := (s.place, s.path) :: s.above }

def Stop.ancestors (s : Stop) : List (Place × String) :=
  (s.place, s.path) :: s.above

mutual

def visitNode (onLink : Stop → String → Option Visit) (stop : Stop) (name : String) :
    Node → Option Visit
  | .file _ _ => some (.file name)
  | .directory entries =>
    some (.directory name (visitEntries onLink (stop.enter name (stop.place ++ [name])) entries))
  | .link _ => onLink stop name
  | .device _ => none

def visitEntries (onLink : Stop → String → Option Visit) (stop : Stop) :
    List (String × Node) → List Visit
  | [] => []
  | (name, node) :: rest =>
    (visitNode onLink stop name node).toList ++ visitEntries onLink stop rest

end

def visitLink (w : World) : Nat → Stop → String → Option Visit
  | 0, _, _ => none
  | links + 1, stop, name =>
    match w.stat (Path.join stop.path name) with
    | .error cause => some (.obstacle name (.unreachable cause))
    | .ok (place, .directory entries) =>
      match stop.ancestors.lookup place with
      | some ancestor => some (.obstacle name (.loop ancestor))
      | none =>
        some (.directory name
          (visitEntries (visitLink w links) (stop.enter name place) entries))
    | .ok (_, .device _) => none
    | .ok _ => some (.file name)

mutual

def countNode : Node → Nat
  | .file _ _ => 1
  | .directory entries => countEntries entries + 1
  | .link _ => 1
  | .device _ => 1

def countEntries : List (String × Node) → Nat
  | [] => 0
  | (_, node) :: rest => countNode node + countEntries rest

end

/-- The visits below a root. Each nested link leads to another directory, so the size of the tree
bounds their number. -/
def visits (w : World) (followLinks : Bool) (root : String) (place : Place)
    (entries : List (String × Node)) : List Visit :=
  let onLink := if followLinks then visitLink w (countNode w.root) else fun _ _ => none
  visitEntries onLink { path := root, place, above := [] } entries

inductive Sight where
  | file (names : List String)
  | obstacle (names : List String) (cause : Obstacle)
  deriving Repr, DecidableEq

structure Scope where
  depth : Option Nat := none
  excluded : List String → Bool := fun _ => false

def Scope.reaches (scope : Scope) (names : List String) : Bool :=
  scope.depth.all (names.length ≤ ·)

mutual

/-- Leaves out what lies too deep, and what is excluded with all that is in it. An obstacle is
reported even where its name is excluded. -/
def sightsOf (scope : Scope) (above : List String) : Visit → List Sight
  | .file name =>
    let names := above ++ [name]
    if scope.reaches names && !scope.excluded names then [.file names] else []
  | .obstacle name cause =>
    let names := above ++ [name]
    if scope.reaches names then [.obstacle names cause] else []
  | .directory name inside =>
    let names := above ++ [name]
    if scope.reaches names && !scope.excluded names then sights scope names inside else []

def sights (scope : Scope) (above : List String) : List Visit → List Sight
  | [] => []
  | visit :: rest => sightsOf scope above visit ++ sights scope above rest

end

def relative (names : List String) : String :=
  Text.joinWith "/" names

/-- A pattern excludes by the whole path or by the last name of it. -/
def isExcluded (patterns : List Glob.Pattern) (names : List String) : Bool :=
  patterns.any fun pattern =>
    pattern.admits (relative names) || pattern.admits (names.getLast?.getD "")

/-- The depth of a walk is one more than the number of directories passed, in 64 bits. -/
def depthLimit (maxDepth : Nat) : Except Fault Nat :=
  if maxDepth + 1 < UInt64.size then .ok (maxDepth + 1) else .error .overflow

def compilePatterns (patterns : List String) : Except Failure (List Glob.Pattern) :=
  patterns.mapM fun pattern =>
    match Glob.compile pattern with
    | .ok compiled => .ok compiled
    | .error e => .error (.globPattern e)

def entryOfFile? (rules : List ResourceRule) (path relative : String) : Option Entry :=
  match Entry.className? relative with
  | some name => some { name, kind := .classFile path }
  | none =>
    if Name.hasFileType relative (ResourceRule.extraFileTypes rules) then
      some { name := (ResourceRule.resolve? rules relative).getD relative, kind := .resource }
    else none

def pathOf (root : String) (names : List String) : String :=
  names.foldl Path.join root

def obstacleFailure (path : String) : Obstacle → Failure
  | .unreachable cause =>
    if cause == .permissionDenied then .permissionDenied path
    else .traversal path (s!"IO error for operation on {path}: " ++ cause.message)
  | .loop ancestor =>
    .traversal path s!"File system loop found: {path} points to an ancestor {ancestor}"

structure Walk where
  entries : List Entry := []
  faults : List (String × Failure) := []
  deriving Repr, DecidableEq

namespace Walk

def entryOf? (rules : List ResourceRule) (root : String) : Sight → Option Entry
  | .file names => entryOfFile? rules (pathOf root names) (relative names)
  | .obstacle _ _ => none

def faultOf? (root : String) : Sight → Option (String × Failure)
  | .file _ => none
  | .obstacle names cause =>
    some (pathOf root names, obstacleFailure (pathOf root names) cause)

def ofSights (rules : List ResourceRule) (root : String) (sights : List Sight) : Walk where
  entries := sights.filterMap (entryOf? rules root)
  faults := sights.filterMap (faultOf? root)

def log (walk : Walk) : List LogLine :=
  walk.faults.map fun (path, failure) => ⟨.warning, s!"Skipping {path}: " ++ failure.message⟩

end Walk

def scopeOf (s : Settings) (patterns : List Glob.Pattern) : Except Fault Scope := do
  return { depth := ← s.maxDepth.mapM depthLimit, excluded := isExcluded patterns }

def walkDirectory (w : World) (s : Settings) (rules : List ResourceRule) (root : String) :
    Except Halt Walk :=
  match w.stat root with
  | .ok (place, .directory entries) => do
    let patterns ← compilePatterns s.excludePatterns
    let scope ← scopeOf s patterns
    let found := visits w s.followLinks root place entries
    return .ofSights rules root (sights scope [] found)
  | _ => .error (.failure (.invalidPath root))

end ClassAtlas.Discovery
