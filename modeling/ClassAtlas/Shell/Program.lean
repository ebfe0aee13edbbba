import ClassAtlas.Shell.Toolbox

/-!
What can be started. A command without a slash is looked for in the directories of the search path;
a file that may be executed is a script, whose first line names its interpreter.
-/

namespace ClassAtlas.Shell

inductive Program where
  | script (path source : String)
  | unnamed (path source : String)
  | tool (tool : Tool)
  | shell (name : String)

def systemDirectories : List String := ["/bin", "/usr/bin"]

def shells : List String := ["sh", "dash", "bash"]

def systemName? (path : String) : Option String :=
  systemDirectories.findSome? fun directory =>
    if path.startsWith (directory ++ "/") then
      some (String.ofList (path.toList.drop (directory.length + 1)))
    else none

def systemProgram? (path : String) : Option Program := do
  let name ← systemName? path
  if shells.contains name then some (.shell name) else (tool? name).map .tool

/-- Whether the first line of a script names an interpreter that is there. -/
def namesShell (line : String) : Bool :=
  match (line.splitOn " ").filter (· != "") with
  | path :: args =>
    match systemName? path with
    | some name => shells.contains name || (name == "env" && args.head?.any shells.contains)
    | none => false
  | [] => false

def scriptOf (path : String) (content : List UInt8) : Except OsError Program :=
  match String.fromUTF8? ⟨content.toArray⟩ with
  | none => .error .execFormat
  | some source =>
    match source.toList with
    | '#' :: '!' :: rest =>
      if namesShell (String.ofList (rest.takeWhile (· != '\n'))) then .ok (.script path source)
      else .error .notFound
    | _ => .ok (.unnamed path source)

def programAt (w : World) (path : String) : Except OsError Program :=
  match systemProgram? path with
  | some program => .ok program
  | none => do
    match ← w.stat path with
    | (_, .file content true) => scriptOf path content
    | _ => throw .permissionDenied

/-- Tries directories in turn. One that holds no such program is passed over; a program that may
not be executed is reported if no other is found. -/
def searchIn (w : World) (command : String) (refused : Option OsError) :
    List String → Except OsError Program
  | [] => .error (refused.getD .notFound)
  | directory :: rest =>
    let path := if directory == "" then command else Path.join directory command
    match programAt w path with
    | .ok program => .ok program
    | .error .permissionDenied => searchIn w command (some .permissionDenied) rest
    | .error .execFormat => .error .execFormat
    | .error _ => searchIn w command refused rest

def findProgram (w : World) (searchPath command : String) : Except OsError Program :=
  if command == "" then .error .notFound
  else if command.toList.contains '/' then programAt w command
  else searchIn w command none (searchPath.splitOn ":")

/-- Finds a program that can be started by itself, not only by a script. -/
def startable (w : World) (command : String) : Except OsError Program := do
  match ← findProgram w ((w.envVar? "PATH").getD "/bin:/usr/bin") command with
  | .unnamed _ _ => throw .execFormat
  | program => return program

end ClassAtlas.Shell
