import ClassAtlas.Shell.Machine

/-!
Connecting the streams of a command with files, texts and each other.
-/

namespace ClassAtlas.Shell

/-- What is said of a file that cannot be opened, `absent` if it is not there. -/
def openingFault (absent : String) (e : OsError) : String :=
  if e == .notFound || e == .notADirectory then absent else e.description

def absolutePath (w : World) (path : String) : String :=
  if path.startsWith "/" then path else Path.join w.currentDirectory path

/-- Files that stand for streams. -/
def streamFiles : List (String × Nat) :=
  [("/dev/stdin", 0), ("/dev/stdout", 1), ("/dev/stderr", 2), ("/dev/fd/0", 0), ("/dev/fd/1", 1),
    ("/dev/fd/2", 2)]

def duplicate (stream : Nat) (target : String) : Run Bool := do
  if target == "-" then
    connect stream none
    return true
  match target.toNat? with
  | none => giveUp "Syntax error: Bad fd number"
  | some source =>
    match ← channel? source with
    | some channel =>
      connect stream (some channel)
      return true
    | none =>
      complain 2 s!"{target}: Bad file descriptor"
      return false

def redirect (expand : Word → Run String) (target : Redirect) : Run Bool := do
  match target with
  | .toStream stream word => duplicate stream (← expand word)
  | .fromText stream body =>
    connect stream (some (← newInput (bytesOf (← expand body))))
    return true
  | .fromFile stream word =>
    let path ← expand word
    match (← get).world.readFile path with
    | .ok bytes =>
      connect stream (some (← newInput bytes))
      return true
    | .error e =>
      complain 2 (s!"cannot open {path}: " ++ openingFault "No such file" e)
      return false
  | .toFile stream append word =>
    let path ← expand word
    match streamFiles.lookup path with
    | some source => duplicate stream (toString source)
    | none =>
      let m ← get
      match if append then appendFile m.world path [] else m.world.writeFile path [] with
      | .ok world =>
        set { m with world }
        connect stream (some (.file (absolutePath world path)))
        return true
      | .error e =>
        complain 2 (s!"cannot create {path}: " ++ openingFault "Directory nonexistent" e)
        return false

def redirectAll (expand : Word → Run String) : List Redirect → Run Bool
  | [] => return true
  | target :: rest => do
    if ← redirect expand target then redirectAll expand rest else return false

def withStreams (action : Run Unit) : Run Unit :=
  restoring (fun before after => { after with streams := before.streams }) action

end ClassAtlas.Shell
