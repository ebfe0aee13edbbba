import ClassAtlas.Analysis.Run
import ClassAtlas.Graph.CommandRenderer
import ClassAtlas.Graph.LegendFile
import ClassAtlas.Report.Format
import ClassAtlas.Report.Target
import ClassAtlas.Settings.Load
import ClassAtlas.Settings.Template

/-!
Carrying out a command line: either the input is analyzed, reported and drawn, or a settings file is
made to start from.
-/

namespace ClassAtlas.CommandLine

/-- What a command leaves behind: the world, and what it wrote to its two streams. -/
structure Effects where
  world : World
  stdout : String := ""
  stderr : String := ""

/-- A command may end without a result after part of its effects. -/
abbrev Action := ExceptT Halt (StateM Effects)

instance : MonadLift (Except Halt) Action where
  monadLift result := ExceptT.mk (pure result)

def print (text : String) : Action Unit :=
  modify fun e => { e with stdout := e.stdout ++ text }

def printError (text : String) : Action Unit :=
  modify fun e => { e with stderr := e.stderr ++ text }

def setWorld (w : World) : Action Unit :=
  modify fun e => { e with world := w }

def reportStyle (s : Settings) : Report.Style where
  useColors := s.useColors
  verbose := s.verbose
  quiet := s.quiet

def writeReport (s : Settings) (results : Results) : Action Unit := do
  let report := Report.format s.reportFormat (reportStyle s) results
  let (w, out) ← (Report.Target.ofPath? s.reportFile).write (← get).world report
  setWorld w
  print out

def legends (w : World) (s : Settings) : Except Failure (List Graph.Legend) :=
  match s.classificationFile with
  | none => .ok []
  | some path => do return [← Graph.LegendFile.load w path s.extraFileTypes]

def rendererOf (runner : Process.Runner) (s : Settings) : Option Graph.Renderer :=
  if s.render then some (Graph.commandRenderer runner s.renderer (s.renderTimeoutSecs * 1000))
  else none

def outcomeLine : Graph.RenderOutcome → String
  | .rendered image => s!"Graph written to {image}\n"
  | .skipped dotFile => s!"DOT file written to {dotFile}\n"
  | .failed reason => s!"Graph rendering failed: {reason}\n"

def drawGraph (runner : Process.Runner) (s : Settings) (results : Results) (image : String) :
    Action Unit := do
  let style : Graph.Style := {
    includeExternal := s.includeExternal
    legends := ← legends (← get).world s }
  let exported ← Graph.exportGraph (← get).world style results.records results.packages image
    (rendererOf runner s)
  setWorld exported.world
  if !s.quiet then printError (outcomeLine exported.outcome)

def analyze (runner : Process.Runner) (request : Request) : Action Unit := do
  let w := (← get).world
  let s ← Settings.load w request Settings.defaultStem
  let report ← Analysis.run w s (Analysis.rulesOf s [])
  writeReport s report.results
  match s.outputFile with
  | some image => drawGraph runner s report.results image
  | none => pure ()

def startFile : Action Unit := do
  let w := (← get).world
  let path := Settings.defaultFileName
  if w.pathExists path then
    print s!"Configuration file already exists at: {path}\n"
    print "To overwrite it, delete the file first and run this command again.\n"
  else
    setWorld (← Settings.createDefault w path)
    print s!"Created default configuration file at: {path}\n"
    print "\nEdit it to set the input, graph output and report options.\n"

def execute (runner : Process.Runner) (request : Request) (w : World) : Except Halt Unit × Effects :=
  (if request.init then startFile else analyze runner request).run.run { world := w }

/-- Carries out a command line; gives the exit code. A failure is told on the error stream. -/
def run (runner : Process.Runner) (request : Request) (w : World) : Except Fault (Nat × Effects) :=
  match execute runner request w with
  | (.ok (), effects) => .ok (0, effects)
  | (.error (.failure failure), effects) =>
    .ok (failure.severity.exitCode,
      { effects with
        stderr := effects.stderr ++ failure.severity.label ++ ": " ++ failure.userMessage ++ "\n" })
  | (.error (.fault fault), _) => .error fault

end ClassAtlas.CommandLine
