import ClassAtlas.Settings.File

/-!
The settings file that a user can start from. It spells out the defaults.
-/

namespace ClassAtlas.Settings

def templateLines : List String := [
  "# classwalk configuration",
  "#",
  "# Values here sit between the built-in defaults and CLASSWALK_* environment",
  "# variables. Command-line flags override everything.",
  "",
  "# Directory, .jar or .war to analyze",
  "# input_path = \"target/classes\"",
  "",
  "# Rendered graph image (svg, png or pdf). No graph is exported when unset.",
  "# output_file = \"dependencies.svg\"",
  "",
  "# Draw dependencies on classes outside the input",
  "include_external = false",
  "",
  "# Non-class file types tracked as resource nodes",
  "extra_file_types = []",
  "",
  "# Name prefixes of platform classes that are never dependencies",
  "platform_prefixes = [\"java\"]",
  "",
  "# Glob patterns excluded from directory walks",
  "exclude_patterns = []",
  "",
  "# Maximum directory depth to traverse",
  "# max_depth = 10",
  "",
  "follow_links = false",
  "",
  "# Graph renderer executable and how long to wait for it",
  "renderer = \"dot\"",
  "render_timeout_secs = 60",
  "",
  "# Set to false to keep the DOT file and skip rendering",
  "render = true",
  "",
  "# JSON map of class name to group label used to colour nodes",
  "# classification_file = \"groups.json\"",
  "",
  "# Report format: text, json or csv",
  "report_format = \"text\"",
  "",
  "# Report file (stdout when unset)",
  "# report_file = \"report.txt\"",
  "",
  "parallel = true",
  "# threads = 4",
  "",
  "# Skip malformed class files instead of aborting the run",
  "skip_malformed = false",
  "",
  "quiet = false",
  "verbose = false",
  "use_colors = true",
  "show_progress = true"]

def template : String :=
  String.join (templateLines.map (· ++ "\n"))

/-- Writes the template, making the directories above it where they are missing. -/
def createDefault (w : World) (path : String) : Except Failure World := do
  let w ← match Path.parent? path with
    | some parent =>
      if parent != "" && !w.pathExists parent then
        match w.makeDirectories parent with
        | .ok w => pure w
        | .error e => throw (.io (.os e))
      else pure w
    | none => pure w
  match w.writeText path template with
  | .ok w => return w
  | .error e => throw (.outputWrite path (.os e))

end ClassAtlas.Settings
