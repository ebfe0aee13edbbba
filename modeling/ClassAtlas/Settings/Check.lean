import ClassAtlas.Graph.Target
import ClassAtlas.FileSystem.World
import ClassAtlas.Settings.Basic
import ClassAtlas.Text.Blank

/-!
Checks of settings: those of one layer, which need only its text, and those of the settings as a
whole, which look at the files they name. The first problem found is the one reported.
-/

namespace ClassAtlas

namespace PartialSettings

def isEmptyText (text : Option String) : Bool :=
  text == some ""

def excludeProblem? (pattern : String) : Option String :=
  if pattern == "" then some "Empty exclude pattern"
  else
    match Glob.compile pattern with
    | .ok _ => none
    | .error e => some (s!"Invalid exclude pattern '{pattern}' (" ++ e.message ++ ")")

/-- The first thing that is wrong with a layer. -/
def problem? (p : PartialSettings) : Option String :=
  if isEmptyText p.inputPath then some "Invalid empty input_path"
  else if isEmptyText p.outputFile then some "Invalid empty output_file"
  else if isEmptyText p.reportFile then some "Invalid empty report_file"
  else if isEmptyText p.classificationFile then some "Invalid empty classification_file"
  else
    match (p.excludePatterns.getD []).findSome? excludeProblem? with
    | some problem => some problem
    | none =>
      if (p.extraFileTypes.getD []).any (·.toList.all (· == '.')) then some "Empty extra file type"
      else if (p.platformPrefixes.getD []).any (· == "") then some "Empty platform prefix"
      else if p.renderer.any fun r => r.toList.all Text.isBlank then
        some "Invalid empty renderer"
      else if p.renderTimeoutSecs == some 0 then
        some "Invalid render_timeout_secs 0. Must be at least 1"
      else if p.threads == some 0 then some "Invalid threads 0. Must be at least 1"
      else none

def check (p : PartialSettings) (place : String) : Except Failure PartialSettings :=
  match p.problem? with
  | some problem => .error (.config (problem ++ " in config file: " ++ place))
  | none => .ok p

end PartialSettings

namespace Settings

/-- The directory that a file is written into has to exist. -/
def checkOutputDirectory (w : World) (path : String) : Except Failure Unit :=
  match Path.parent? path with
  | some parent =>
    if parent != "" && !w.isDirectory parent then
      .error (.invalidOutputFile path s!"directory {parent} does not exist")
    else .ok ()
  | none => .ok ()

def checkPattern (pattern : String) : Except Failure Unit :=
  match Glob.compile pattern with
  | .ok _ => .ok ()
  | .error e => .error (.globPattern e)

def checkImage (w : World) (image : String) : Except Failure Unit := do
  discard (Graph.Target.ofImage image)
  checkOutputDirectory w image

def require (condition : Bool) (failure : Failure) : Except Failure Unit :=
  if condition then .ok () else .error failure

def check (s : Settings) (w : World) : Except Failure Unit := do
  require (w.pathExists s.inputPath) (.invalidPath s.inputPath)
  s.excludePatterns.forM checkPattern
  s.outputFile.forM (checkImage w)
  s.reportFile.forM (checkOutputDirectory w)
  s.classificationFile.forM fun path => require (w.isFile path) (.configNotFound path)
  require (s.renderer.toList.any (!Text.isBlank ·)) (.config "Renderer command must not be empty")
  require (s.renderTimeoutSecs != 0) (.config "Render timeout must be at least 1 second")
  require (s.threads != some 0) (.config "Thread count must be at least 1")
  require (!(s.quiet && s.verbose)) (.invalidArgument "--quiet and --verbose cannot be combined")

end Settings

end ClassAtlas
