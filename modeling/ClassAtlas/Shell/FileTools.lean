import ClassAtlas.Shell.Tool
import ClassAtlas.Shell.Printing

/-!
Programs that copy, make and remove files and directories.
-/

namespace ClassAtlas.Shell

def setRoot (root : FileSystem.Node) : Run Unit :=
  modify fun m => { m with world := { m.world with root } }

def copyTarget (w : World) (source target : String) : String :=
  if w.isDirectory target then Path.join target ((Path.fileName? source).getD "") else target

def samePlace (w : World) (a b : String) : Bool :=
  match w.stat a, w.stat b with
  | .ok (first, _), .ok (second, _) => first == second
  | _, _ => false

/-- Copies one file; what is moved is removed afterwards. -/
def copyFile (moves : Bool) (source target : String) : Run Unit := do
  let m ← get
  let target := copyTarget m.world source target
  match m.world.stat source with
  | .error e => fail (s!"cannot stat '{source}': " ++ e.description) 1
  | .ok (place, node) =>
    if samePlace m.world source target then
      fail s!"'{source}' and '{target}' are the same file" 1
    else if node.isDirectory && !moves then
      fail s!"-r not specified; omitting directory '{source}'" 1
    else
      match node with
      | .file content executable =>
        match m.world.writeFile target content with
        | .error e =>
          let deed := if moves then s!"move '{source}' to '{target}'"
            else s!"create regular file '{target}'"
          fail (s!"cannot {deed}: " ++ e.description) 1
        | .ok w =>
          let root := match w.stat target with
            | .ok (made, .file content _) => w.root.put (.file content executable) made
            | _ => w.root
          setRoot (if moves then root.erase place else root)
      | _ =>
        match FileSystem.resolve m.world.root m.world.here .findItself target with
        | .ok (.missing directory name) =>
          setRoot ((m.world.root.erase place).put node (directory ++ [name]))
        | _ => fail s!"cannot move '{source}' to '{target}'" 1

def copying (name : String) (flags : String) (moves : Bool) : Tool where
  name := name
  flags := some flags
  valued := "St"
  run g :=
    match g.operands with
    | [] => misuse "missing file operand" 1
    | [source] => misuse s!"missing destination file operand after '{source}'" 1
    | operands => do
      let target := operands.getLastD ""
      if operands.length > 2 && !(← get).world.isDirectory target then
        fail s!"target '{target}': No such file or directory" 1
      else for source in operands.dropLast do copyFile moves source target

def rm : Tool where
  name := "rm"
  flags := some "dfiIrRv"
  run g := do
    if g.operands.isEmpty && !g.has 'f' then misuse "missing operand" 1
    for path in g.operands do
      let m ← get
      let recursive := g.has 'r' || g.has 'R'
      match FileSystem.resolve m.world.root m.world.here .findItself path with
      | .ok (.found place (.directory _)) =>
        if recursive then setRoot (m.world.root.erase place)
        else fail s!"cannot remove '{path}': Is a directory" 1
      | .ok (.found place _) => setRoot (m.world.root.erase place)
      | .ok (.missing _ _) =>
        if !g.has 'f' then fail s!"cannot remove '{path}': No such file or directory" 1
      | .error e =>
        if !(g.has 'f' && e == .notFound) then
          fail (s!"cannot remove '{path}': " ++ e.description) 1

def touch : Tool where
  name := "touch"
  flags := some "acfhm"
  valued := "drt"
  run g := do
    if g.operands.isEmpty then misuse "missing file operand" 1
    for path in g.operands do
      let m ← get
      if !m.world.isDirectory path && !(g.has 'c' && !m.world.pathExists path) then
        match appendFile m.world path [] with
        | .ok world => set { m with world }
        | .error e => fail (s!"cannot touch '{path}': " ++ e.description) 1

def mkdir : Tool where
  name := "mkdir"
  flags := some "pvZ"
  valued := "m"
  run g := do
    if g.operands.isEmpty then misuse "missing operand" 1
    for path in g.operands do
      let m ← get
      match if g.has 'p' then m.world.makeDirectories path else m.world.makeDirectory path with
      | .ok world => set { m with world }
      | .error e => fail (s!"cannot create directory '{path}': " ++ e.description) 1

def rmdir : Tool where
  name := "rmdir"
  flags := some "pv"
  run g := do
    if g.operands.isEmpty then misuse "missing operand" 1
    for path in g.operands do
      let m ← get
      let failed := fun (reason : String) => fail (s!"failed to remove '{path}': " ++ reason) 1
      match m.world.stat path with
      | .error e => failed e.description
      | .ok (place, .directory entries) =>
        if entries.isEmpty then setRoot (m.world.root.erase place)
        else failed "Directory not empty"
      | .ok _ => failed "Not a directory"

def ls : Tool where
  name := "ls"
  flags := some "aAbBcCdfFgGhHiklLmnNopqQrRsStuUvxXZ1"
  valued := "TwI"
  refusal := 2
  run g := do
    match (g.value? 'T').filter fun text => text.toNat?.isNone with
    | some text => fail s!"invalid tab size: '{text}'" 2
    | none =>
      for path in (if g.operands.isEmpty then ["."] else g.operands) do
        match (← get).world.stat path with
        | .error e => fail (s!"cannot access '{path}': " ++ e.description) 2
        | .ok (_, node) =>
          if node.isDirectory && !g.has 'd' then
            let names := (if g.has 'a' then [".", ".."] else []) ++ node.entries.map (·.1)
            let shown := names.filter fun name => g.has 'a' || g.has 'A' || !name.startsWith "."
            for name in (if g.has 'r' then shown.reverse else shown) do
              emit (bytesOf (name ++ "\n"))
          else emit (bytesOf (path ++ "\n"))

def tee : Tool where
  name := "tee"
  flags := some "aip"
  run g := do
    let bytes ← takeInput
    for path in g.operands do
      let m ← get
      match if g.has 'a' then appendFile m.world path bytes else m.world.writeFile path bytes with
      | .ok world => set { m with world }
      | .error e => fail (path ++ ": " ++ e.description) 1
    emit bytes

def ln : Tool where
  name := "ln"
  flags := some "bdfFiLnPrsTv"
  valued := "St"
  run g :=
    match g.operands with
    | [] => misuse "missing file operand" 1
    | source :: rest => do
      let m ← get
      let target := match rest with
        | target :: _ => copyTarget m.world source target
        | [] => "./" ++ (Path.fileName? source).getD ""
      let kind := if g.has 's' then "symbolic" else "hard"
      let node? : Except OsError FileSystem.Node :=
        if g.has 's' then .ok (.link source) else (m.world.stat source).map (·.2)
      match node?, FileSystem.resolve m.world.root m.world.here .findItself target with
      | .error e, _ => fail (s!"failed to access '{source}': " ++ e.description) 1
      | .ok node, .ok (.missing directory name) =>
        setRoot (m.world.root.put node (directory ++ [name]))
      | .ok node, .ok (.found place _) =>
        if g.has 'f' then setRoot (m.world.root.put node place)
        else fail s!"failed to create {kind} link '{target}': File exists" 1
      | .ok _, .error e =>
        fail (s!"failed to create {kind} link '{target}': " ++ e.description) 1

/-- Whether a mode lets a file be executed; nothing if it does not tell. -/
def executableBy (mode : String) : Option Bool :=
  if mode.toList.all isOctal then some (mode.toList.any fun c => (c.toNat - '0'.toNat) % 2 = 1)
  else if mode.toList.contains 'x' then some (!mode.toList.contains '-')
  else none

def chmod : Tool where
  name := "chmod"
  flags := some "Rcfv"
  run g :=
    match g.operands with
    | [] => misuse "missing operand" 1
    | [mode] => misuse s!"missing operand after '{mode}'" 1
    | mode :: paths => do
      if mode.toList.all Char.isDigit && !mode.toList.all isOctal then
        misuse s!"invalid mode: '{mode}'" 1
      else
        for path in paths do
          let m ← get
          match m.world.stat path with
          | .error e => fail (s!"cannot access '{path}': " ++ e.description) 1
          | .ok (place, .file content old) =>
            let node := FileSystem.Node.file content ((executableBy mode).getD old)
            setRoot (m.world.root.put node place)
          | .ok _ => pure ()

end ClassAtlas.Shell
