import ClassAtlas.Analysis.Results
import ClassAtlas.Report.Color
import ClassAtlas.Report.Csv
import ClassAtlas.Report.Json
import ClassAtlas.Report.OutputFormat

/-!
Reports of the results: a text for people, JSON with everything, and CSV with a row for each record.
-/

namespace ClassAtlas

namespace Report

structure Style where
  useColors : Bool := false
  verbose : Bool := false
  quiet : Bool := false
  deriving Repr, DecidableEq

/-- The dependencies of a record, one to a line; colours take the place of words. -/
def dependencyLines (style : Style) (record : DependencyRecord) : String :=
  String.join (record.internal.map fun name => "      " ++ name ++ "\n")
    ++ String.join (record.external.map fun name =>
      if style.useColors then "      " ++ paint true .dimmed name ++ "\n"
      else "      " ++ name ++ " (external)\n")

/-- A member of a package. One without a class record is a resource. -/
def memberLines (style : Style) (records : List (String × DependencyRecord)) (member : String) :
    String :=
  match records.lookup member with
  | some record =>
    if record.isSynthetic then resourceLine
    else
      "  " ++ member ++ s!" -> {record.internal.length} internal, {record.external.length} external\n"
        ++ (if style.verbose then dependencyLines style record else "")
  | none => resourceLine
where
  resourceLine : String :=
    "  " ++ member ++ " [" ++ paint style.useColors .cyan "resource" ++ "]\n"

def packageText (style : Style) (results : Results) (group : PackageGroup) : String :=
  paint style.useColors .boldBlue group.name ++ " "
    ++ paint style.useColors .dimmed s!"({group.members.length} members)" ++ "\n"
    ++ String.join (group.members.map (memberLines style results.recordsByClass)) ++ "\n"

def severityLabel (style : Style) (severity : Severity) : String :=
  let color := match severity with
    | .warning => Color.yellow
    | .error => Color.red
    | .critical => Color.boldRed
  paint style.useColors color severity.label

def errorLines (style : Style) (results : Results) : String :=
  let summary := results.summary
  if summary.errorsEncountered > 0 then
    "\n" ++ paint style.useColors .boldYellow s!"Errors encountered: {summary.errorsEncountered}"
      ++ s!"\n  Warnings: {summary.warningsCount}\n"
      ++ String.join (results.errors.map fun e =>
        "  [" ++ severityLabel style e.severity ++ "] " ++ e.location ++ ": " ++ e.error ++ "\n")
  else ""

def packageLines (style : Style) (results : Results) : String :=
  if style.verbose then
    "\nPackage Details:\n\n"
      ++ String.join (results.packages.toList.map (packageText style results))
  else if results.packages.isEmpty then ""
  else
    "\nPackage Breakdown:\n"
      ++ String.join (results.packages.toList.map fun group =>
        "  " ++ group.name ++ ": "
          ++ paint style.useColors .green (toString group.members.length) ++ "\n")

def fullText (style : Style) (results : Results) : String :=
  let summary := results.summary
  paint style.useColors .boldBlue "Dependency Analysis Summary" ++ "\n\n"
    ++ "Input: " ++ results.inputPath ++ "\n"
    ++ s!"Classes: {summary.classes}\n"
    ++ s!"Resources: {summary.resources}\n"
    ++ s!"Packages: {summary.packages}\n"
    ++ s!"Internal dependencies: {summary.internalEdges}\n"
    ++ s!"External dependencies: {summary.externalEdges}\n"
    ++ (if summary.skippedEntries > 0 then s!"Skipped entries: {summary.skippedEntries}\n" else "")
    ++ "Scan duration: " ++ summary.scanDuration.render ++ "\n"
    ++ errorLines style results
    ++ packageLines style results

def quietText (results : Results) : String :=
  let summary := results.summary
  s!"Classes: {summary.classes}, Resources: {summary.resources}, "
    ++ s!"Internal: {summary.internalEdges}, External: {summary.externalEdges}\n"
    ++ (if summary.skippedEntries > 0 then s!"Skipped: {summary.skippedEntries}\n" else "")

def severityName : Severity → String
  | .warning => "Warning"
  | .error => "Error"
  | .critical => "Critical"

def recordJson (record : DependencyRecord) : Json :=
  let names (list : Option (List String)) := (list.map Json.strings).getD .null
  .object [("class_name", .string record.className), ("internal_deps", names record.internalDeps),
    ("external_deps", names record.externalDeps)]

def summaryJson (s : Summary) : Json :=
  .object [("classes", .number s.classes), ("resources", .number s.resources),
    ("internal_edges", .number s.internalEdges), ("external_edges", .number s.externalEdges),
    ("packages", .number s.packages), ("skipped_entries", .number s.skippedEntries),
    ("errors_encountered", .number s.errorsEncountered),
    ("warnings_count", .number s.warningsCount),
    ("scan_duration", .object [("secs", .number s.scanDuration.seconds),
      ("nanos", .number s.scanDuration.nanos)])]

def resultsJson (r : Results) : Json :=
  .object [("input_path", .string r.inputPath),
    ("records", .array (r.records.map recordJson)),
    ("packages", .array (r.packages.toList.map fun group =>
      .object [("name", .string group.name), ("members", .strings group.members)])),
    ("summary", summaryJson r.summary),
    ("errors", .array (r.errors.map fun e => .object [("location", .string e.location),
      ("error", .string e.error), ("severity", .string (severityName e.severity))])),
    ("analysis_date", .string r.analysisDate.render)]

def csvHeader : List String :=
  ["Class", "Package", "Kind", "Internal Count", "External Count", "Internal Dependencies",
    "External Dependencies"]

def csvFields (record : DependencyRecord) : List String :=
  [record.className, record.package, if record.isSynthetic then "resource" else "class",
    toString record.internal.length, toString record.external.length,
    Text.joinWith ";" record.internal, Text.joinWith ";" record.external]

def csvText (results : Results) : String :=
  Csv.text (csvHeader :: results.records.map csvFields)

def format (kind : OutputFormat) (style : Style) (results : Results) : String :=
  match kind with
  | .text => if style.quiet then quietText results else fullText style results
  | .json => (resultsJson results).text
  | .csv => csvText results

end Report

end ClassAtlas
