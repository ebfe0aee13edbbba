import ClassAtlas.CommandLine.Execute
import ClassAtlas.Shell.Interpreter
import Std.Time.DateTime.Timestamp

/-!
The program. It takes in the files that a run may need, carries out the command line on them, and
writes back what has changed. Scripts are interpreted on those files; no other program is started.
-/

namespace ClassAtlas.Main

open FileSystem

def variableNames : List String :=
  ["HOME", "PATH", "XDG_CONFIG_HOME"]
    ++ Settings.EnvironmentLayer.keys.map (Settings.defaultStem ++ "_" ++ ·)

def readEnvironment : IO (List (String × String)) := do
  let values ← variableNames.mapM fun name => do
    return (← IO.getEnv name).map fun value => (name, value)
  return values.reduceOption

/-- Takes in what a path leads to; a link keeps the path that it resolves to. -/
partial def loadNode (path : String) : IO Node := do
  let real ← IO.FS.realPath path
  if real.toString != path then return .link real.toString
  if ← real.isDir then
    let names := (← real.readDir).toList.map (·.fileName)
    let entries ← names.mapM fun name => do
      let child := (if path == "/" then "" else path) ++ "/" ++ name
      return (name, ← loadNode child <|> pure (.link "missing"))
    return .directory (NameMap.ofList entries)
  else return .file (← IO.FS.readBinFile path).toList false

def loadInto (root : Node) (path : String) : IO Node := do
  let attempt : IO Node := do
    let real ← IO.FS.realPath path
    let node ← loadNode real.toString
    return root.put node (Path.names real.toString)
  attempt <|> pure root

def namedPaths (request : CommandLine.Request) : List String :=
  [request.settings.inputPath, request.settings.classificationFile, request.config].reduceOption

def loadWorld (request : CommandLine.Request) : IO World := do
  let here := (← IO.currentDir).toString
  let environment ← readEnvironment
  let world : World := { here := Path.names here, environment }
  let paths := here :: Settings.candidates world ++ namedPaths request
  let root ← paths.foldlM loadInto world.root
  let now ← Std.Time.Timestamp.now
  let nanos := now.toNanosecondsSinceUnixEpoch.val
  return { world with
    root
    now := { seconds := nanos / 1000000000, nanos := (nanos % 1000000000).toNat } }

partial def filesOf (path : String) : Node → List (String × List UInt8)
  | .directory entries => entries.flatMap fun (name, node) => filesOf (path ++ "/" ++ name) node
  | .file content _ => [(path, content)]
  | .link _ => []
  | .device _ => []

/-- Writes the files that differ and removes those that are gone. -/
def saveChanges (before after : World) : IO Unit := do
  let old := filesOf "" before.root
  let new := filesOf "" after.root
  for (path, content) in new do
    if old.lookup path != some content then IO.FS.writeBinFile path ⟨content.toArray⟩
  for (path, _) in old do
    if (new.lookup path).isNone then IO.FS.removeFile path

def usageLine : CommandLine.UsageError → String
  | .invalidValue => "error: invalid value"
  | .unknownArgument => "error: unexpected argument"
  | .valueValidation => "error: invalid value"
  | .argumentConflict => "error: arguments cannot be combined"
  | .tooManyValues => "error: unexpected value"
  | .displayHelp =>
    "Options: " ++ " ".intercalate (CommandLine.Argument.all.map ("--" ++ ·.long))
  | .displayVersion => "classwalk"

end ClassAtlas.Main

def main (args : List String) : IO UInt32 := do
  match ClassAtlas.CommandLine.parse args with
  | .error e =>
    if e.exitCode = 0 then IO.println (ClassAtlas.Main.usageLine e)
    else IO.eprintln (ClassAtlas.Main.usageLine e)
    return e.exitCode.toUInt32
  | .ok request =>
    let world ← ClassAtlas.Main.loadWorld request
    match ClassAtlas.CommandLine.run ClassAtlas.Shell.runner request world with
    | .error _ =>
      IO.eprintln "a number left its range"
      return 101
    | .ok (code, effects) =>
      ClassAtlas.Main.saveChanges world effects.world
      IO.print effects.stdout
      IO.eprint effects.stderr
      return code.toUInt32
