import ClassAtlas.CommandLine.Parse
import ClassAtlas.Settings.Environment
import ClassAtlas.Settings.File

/-!
The settings of a run: defaults, then a settings file, then the environment, then the command line.
-/

namespace ClassAtlas.Settings

/-- A file that is named has to exist; else the usual places are tried. -/
def fileLayer (w : World) (config : Option String) : Except Failure PartialSettings := do
  match config with
  | some path => (FileLayer.named path).load w
  | none => return (← findDefault w).getD {}

def environmentLayer (w : World) (stem : String) : Except Failure PartialSettings :=
  let layer : EnvironmentLayer := { stem }
  if layer.isAvailable w then layer.load w else .ok {}

def load (w : World) (request : CommandLine.Request) (stem : String) : Except Failure Settings := do
  let file ← fileLayer w request.config
  let environment ← environmentLayer w stem
  let settings := ((file.merge environment).merge request.settings).toSettings
  settings.check w
  return settings

end ClassAtlas.Settings
