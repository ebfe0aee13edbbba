import ClassAtlas.Settings.Basic
import ClassAtlas.Text.Number

/-!
The options of the command line, how each is spelled, and what it sets.
-/

namespace ClassAtlas.CommandLine

inductive Argument where
  | path
  | outputFile
  | includeExternal
  | extraType
  | platformPrefix
  | exclude
  | maxDepth
  | followLinks
  | renderer
  | renderTimeout
  | noRender
  | classification
  | format
  | reportFile
  | noParallel
  | threads
  | skipMalformed
  | quiet
  | verbose
  | noColors
  | noProgress
  | config
  | init
  | help
  | version
  deriving Repr, DecidableEq

namespace Argument

def all : List Argument :=
  [.path, .outputFile, .includeExternal, .extraType, .platformPrefix, .exclude, .maxDepth,
    .followLinks, .renderer, .renderTimeout, .noRender, .classification, .format, .reportFile,
    .noParallel, .threads, .skipMalformed, .quiet, .verbose, .noColors, .noProgress, .config,
    .init, .help, .version]

def long : Argument → String
  | .path => "path"
  | .outputFile => "output-file"
  | .includeExternal => "include-external"
  | .extraType => "extra-type"
  | .platformPrefix => "platform-prefix"
  | .exclude => "exclude"
  | .maxDepth => "max-depth"
  | .followLinks => "follow-links"
  | .renderer => "renderer"
  | .renderTimeout => "render-timeout"
  | .noRender => "no-render"
  | .classification => "classification"
  | .format => "format"
  | .reportFile => "report-file"
  | .noParallel => "no-parallel"
  | .threads => "threads"
  | .skipMalformed => "skip-malformed"
  | .quiet => "quiet"
  | .verbose => "verbose"
  | .noColors => "no-colors"
  | .noProgress => "no-progress"
  | .config => "config"
  | .init => "init"
  | .help => "help"
  | .version => "version"

def short? : Argument → Option Char
  | .path => some 'p'
  | .outputFile => some 'o'
  | .exclude => some 'e'
  | .format => some 'f'
  | .threads => some 'j'
  | .quiet => some 'q'
  | .verbose => some 'v'
  | .config => some 'c'
  | .help => some 'h'
  | .version => some 'V'
  | _ => none

def takesValue : Argument → Bool
  | .path | .outputFile | .extraType | .platformPrefix | .exclude | .maxDepth | .renderer
  | .renderTimeout | .classification | .format | .reportFile | .threads | .config => true
  | _ => false

def repeats : Argument → Bool
  | .extraType | .platformPrefix | .exclude => true
  | _ => false

def ofLong? (name : String) : Option Argument :=
  all.find? (·.long == name)

def ofShort? (c : Char) : Option Argument :=
  all.find? (·.short? == some c)

end Argument

/-- Why a command line is not carried out. Asking for help or the version is among the reasons. -/
inductive UsageError where
  | invalidValue
  | unknownArgument
  | valueValidation
  | argumentConflict
  | tooManyValues
  | displayHelp
  | displayVersion
  deriving Repr, DecidableEq

def UsageError.exitCode : UsageError → Nat
  | .displayHelp | .displayVersion => 0
  | _ => 2

/-- What a command line asks for. A flag sets its setting, and its absence leaves it alone. -/
structure Request where
  settings : PartialSettings := {}
  config : Option String := none
  init : Bool := false
  deriving Repr, DecidableEq

namespace Request

def setFlag (r : Request) (argument : Argument) : Request :=
  let s := r.settings
  match argument with
  | .includeExternal => { r with settings := { s with includeExternal := some true } }
  | .followLinks => { r with settings := { s with followLinks := some true } }
  | .noRender => { r with settings := { s with render := some false } }
  | .noParallel => { r with settings := { s with parallel := some false } }
  | .skipMalformed => { r with settings := { s with skipMalformed := some true } }
  | .quiet => { r with settings := { s with quiet := some true } }
  | .verbose => { r with settings := { s with verbose := some true } }
  | .noColors => { r with settings := { s with useColors := some false } }
  | .noProgress => { r with settings := { s with showProgress := some false } }
  | .init => { r with init := true }
  | _ => r

def filePath (value : String) : Except UsageError (Option String) :=
  if value == "" then .error .invalidValue else .ok (some value)

def number (value : String) : Except UsageError (Option Nat) :=
  match Text.parseWord? value with
  | some n => .ok (some n)
  | none => .error .valueValidation

def appended (values : Option (List String)) (value : String) : Option (List String) :=
  some (values.getD [] ++ [value])

def setValue (r : Request) (argument : Argument) (value : String) : Except UsageError Request := do
  let s := r.settings
  match argument with
  | .path => return { r with settings := { s with inputPath := ← filePath value } }
  | .outputFile => return { r with settings := { s with outputFile := ← filePath value } }
  | .extraType =>
    return { r with settings := { s with extraFileTypes := appended s.extraFileTypes value } }
  | .platformPrefix =>
    return { r with settings := { s with platformPrefixes := appended s.platformPrefixes value } }
  | .exclude =>
    return { r with settings := { s with excludePatterns := appended s.excludePatterns value } }
  | .maxDepth => return { r with settings := { s with maxDepth := ← number value } }
  | .renderer => return { r with settings := { s with renderer := some value } }
  | .renderTimeout => return { r with settings := { s with renderTimeoutSecs := ← number value } }
  | .classification =>
    return { r with settings := { s with classificationFile := ← filePath value } }
  | .format =>
    match OutputFormat.ofName? value with
    | some format => return { r with settings := { s with reportFormat := some format } }
    | none => throw .invalidValue
  | .reportFile => return { r with settings := { s with reportFile := ← filePath value } }
  | .threads => return { r with settings := { s with threads := ← number value } }
  | .config => return { r with config := ← filePath value }
  | _ => return r

end Request

end ClassAtlas.CommandLine
