import ClassAtlas.Settings.Check
import ClassAtlas.Text.Number
import ClassAtlas.Toml.Document

/-!
The layer of settings that is read from a TOML file, and where such a file is looked for.
-/

namespace ClassAtlas.Settings

def defaultFileName : String := ".classwalk.toml"

inductive FileError where
  | document (cause : Toml.Error)
  | kind (key expected : String)

def FileError.message : FileError → String
  | .document cause => cause.message
  | .kind key expected => s!"{key} is not {expected}"

def readKind {α : Type} (members : List (String × Toml.Value)) (expected : String)
    (read? : Toml.Value → Option α) (key : String) : Except FileError (Option α) :=
  match members.lookup key with
  | none => .ok none
  | some value =>
    match read? value with
    | some a => .ok (some a)
    | none => .error (.kind key expected)

def textOf? : Toml.Value → Option String
  | .string text => some text
  | _ => none

def boolOf? : Toml.Value → Option Bool
  | .boolean b => some b
  | _ => none

def wordOf? : Toml.Value → Option Nat
  | .integer n => if 0 ≤ n ∧ n < Text.wordLimit then some n.toNat else none
  | _ => none

def textsOf? : Toml.Value → Option (List String)
  | .array items => items.mapM textOf?
  | _ => none

/-- A format is named by a text, or by the one key of a table whose value is empty. -/
def formatOf? : Toml.Value → Option OutputFormat
  | .string text => OutputFormat.ofName? text
  | .table [(name, .table [])] => OutputFormat.ofName? name
  | .table [(name, .array [])] => OutputFormat.ofName? name
  | _ => none

/-- The layer that a table describes; keys that it does not know are ignored. -/
def ofToml (members : List (String × Toml.Value)) : Except FileError PartialSettings := do
  let text := readKind members "a text" textOf?
  let texts := readKind members "a list of texts" textsOf?
  let bool := readKind members "a truth value" boolOf?
  let word := readKind members "a number" wordOf?
  return {
    inputPath := ← text "input_path"
    outputFile := ← text "output_file"
    includeExternal := ← bool "include_external"
    extraFileTypes := ← texts "extra_file_types"
    platformPrefixes := ← texts "platform_prefixes"
    excludePatterns := ← texts "exclude_patterns"
    maxDepth := ← word "max_depth"
    followLinks := ← bool "follow_links"
    renderer := ← text "renderer"
    renderTimeoutSecs := ← word "render_timeout_secs"
    render := ← bool "render"
    classificationFile := ← text "classification_file"
    reportFormat := ← readKind members "a format" formatOf? "report_format"
    reportFile := ← text "report_file"
    parallel := ← bool "parallel"
    threads := ← word "threads"
    skipMalformed := ← bool "skip_malformed"
    quiet := ← bool "quiet"
    verbose := ← bool "verbose"
    useColors := ← bool "use_colors"
    showProgress := ← bool "show_progress" }

def parseContent (content : String) : Except FileError PartialSettings := do
  match Toml.parse content with
  | .ok members => ofToml members
  | .error e => throw (.document e)

def ofContent (content path : String) : Except Failure PartialSettings :=
  match parseContent content with
  | .ok settings => settings.check path
  | .error e => .error (.configMalformed path e.message)

def ofPath (w : World) (path : String) : Except Failure PartialSettings := do
  if !w.pathExists path then throw (.configNotFound path)
  match w.readText path with
  | .ok content => ofContent content path
  | .error e => throw (.configUnreadable path e)

structure FileLayer where
  path : String := defaultFileName
  name : String := "default config file"
  deriving Repr, DecidableEq

namespace FileLayer

def named (path : String) : FileLayer :=
  { path, name := s!"config file ({path})" }

def priority : Nat := 15

def isAvailable (layer : FileLayer) (w : World) : Bool :=
  w.isFile layer.path

def load (layer : FileLayer) (w : World) : Except Failure PartialSettings :=
  if layer.isAvailable w then ofPath w layer.path
  else .error (.configNotFound layer.path)

end FileLayer

def homeDirectory? (w : World) : Option String :=
  (w.envVar? "HOME").filter (· != "")

def configDirectory? (w : World) : Option String :=
  ((w.envVar? "XDG_CONFIG_HOME").filter Path.isAbsolute)
    <|> (homeDirectory? w).map (Path.join · ".config")

/-- The places of a settings file that is not named, in the order they are tried. -/
def candidates (w : World) : List String :=
  [Path.join w.currentDirectory defaultFileName]
    ++ ((homeDirectory? w).map (Path.join · defaultFileName)).toList
    ++ ((configDirectory? w).map fun dir =>
      Path.join (Path.join dir "classwalk") "config.toml").toList

def findDefault (w : World) : Except Failure (Option PartialSettings) := do
  match (candidates w).find? w.isFile with
  | some path => return some (← ofPath w path)
  | none => return none

end ClassAtlas.Settings
