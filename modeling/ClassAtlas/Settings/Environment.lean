import ClassAtlas.Settings.Check
import ClassAtlas.Text.Number

/-!
The layer of settings that is read from environment variables. The names of the variables share
a stem; a list is separated by commas.
-/

namespace ClassAtlas.Settings

/-- The variables are named after this word. -/
def defaultStem : String := "CLASSWALK"

structure EnvironmentLayer where
  stem : String := defaultStem
  deriving Repr, DecidableEq

namespace EnvironmentLayer

def keys : List String :=
  ["INPUT_PATH", "OUTPUT_FILE", "INCLUDE_EXTERNAL", "EXTRA_FILE_TYPES", "PLATFORM_PREFIXES",
    "EXCLUDE", "MAX_DEPTH", "RENDERER", "RENDER_TIMEOUT", "RENDER", "CLASSIFICATION_FILE",
    "REPORT_FORMAT", "REPORT_FILE", "PARALLEL", "THREADS", "SKIP_MALFORMED"]

def name (layer : EnvironmentLayer) : String :=
  layer.stem ++ " environment variables"

def priority : Nat := 20

def read (layer : EnvironmentLayer) (w : World) (key : String) : Option String :=
  w.envVar? (layer.stem ++ "_" ++ key)

def isAvailable (layer : EnvironmentLayer) (w : World) : Bool :=
  keys.any fun key => (layer.read w key).isSome

def readAs {α : Type} (layer : EnvironmentLayer) (w : World) (parse? : String → Option α)
    (key : String) : Except Failure (Option α) :=
  match layer.read w key with
  | none => .ok none
  | some value =>
    match parse? (Text.trim value) with
    | some parsed => .ok (some parsed)
    | none => .error (.config (s!"Invalid value '{value}' for " ++ layer.stem ++ "_" ++ key))

def splitList (value : String) : List String :=
  ((Text.splitAll ',' value.toList).map fun part => Text.trim (String.ofList part)).filter (· != "")

def readList (layer : EnvironmentLayer) (w : World) (key : String) : Option (List String) :=
  (layer.read w key).map splitList

def load (layer : EnvironmentLayer) (w : World) : Except Failure PartialSettings := do
  let includeExternal ← layer.readAs w Text.parseBool? "INCLUDE_EXTERNAL"
  let maxDepth ← layer.readAs w Text.parseWord? "MAX_DEPTH"
  let renderTimeoutSecs ← layer.readAs w Text.parseWord? "RENDER_TIMEOUT"
  let render ← layer.readAs w Text.parseBool? "RENDER"
  let reportFormat ← layer.readAs w (fun text => (OutputFormat.parse text).toOption) "REPORT_FORMAT"
  let parallel ← layer.readAs w Text.parseBool? "PARALLEL"
  let threads ← layer.readAs w Text.parseWord? "THREADS"
  let skipMalformed ← layer.readAs w Text.parseBool? "SKIP_MALFORMED"
  let settings : PartialSettings := {
    inputPath := layer.read w "INPUT_PATH"
    outputFile := layer.read w "OUTPUT_FILE"
    includeExternal
    extraFileTypes := layer.readList w "EXTRA_FILE_TYPES"
    platformPrefixes := layer.readList w "PLATFORM_PREFIXES"
    excludePatterns := layer.readList w "EXCLUDE"
    maxDepth
    renderer := layer.read w "RENDERER"
    renderTimeoutSecs
    render
    classificationFile := layer.read w "CLASSIFICATION_FILE"
    reportFormat
    reportFile := layer.read w "REPORT_FILE"
    parallel
    threads
    skipMalformed }
  settings.check ("$" ++ layer.stem ++ "_*")

end EnvironmentLayer

end ClassAtlas.Settings
