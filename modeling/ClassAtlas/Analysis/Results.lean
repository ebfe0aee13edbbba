import ClassAtlas.Time
import ClassAtlas.Failure
import ClassAtlas.Package.Grouping

/-!
The outcome of an analysis: the records in the order they were discovered, their packages, the
failures that did not stop the run, and a summary of all of it.
-/

namespace ClassAtlas

structure Summary where
  classes : Nat := 0
  resources : Nat := 0
  internalEdges : Nat := 0
  externalEdges : Nat := 0
  packages : Nat := 0
  skippedEntries : Nat := 0
  errorsEncountered : Nat := 0
  warningsCount : Nat := 0
  scanDuration : Duration := {}
  deriving Repr, DecidableEq

structure RecoveredError where
  location : String
  error : String
  severity : Severity
  deriving Repr, DecidableEq

structure Results where
  inputPath : String
  records : List DependencyRecord := []
  packages : PackageIndex := {}
  summary : Summary := {}
  errors : List RecoveredError := []
  analysisDate : Timestamp := {}
  deriving Repr, DecidableEq

namespace Results

def addRecord (r : Results) (record : DependencyRecord) : Results :=
  { r with records := r.records ++ [record] }

def addError (r : Results) (location : String) (failure : Failure) : Results :=
  { r with errors := r.errors ++ [⟨location, failure.userMessage, failure.severity⟩] }

/-- Notes an entry that was left out; this is a warning whatever the failure. -/
def addSkipped (r : Results) (location : String) (failure : Failure) : Results :=
  { r with
    errors := r.errors ++ [⟨location, failure.message, .warning⟩]
    summary := { r.summary with skippedEntries := r.summary.skippedEntries + 1 } }

def setScanDuration (r : Results) (duration : Duration) : Results :=
  { r with summary := { r.summary with scanDuration := duration } }

def group (r : Results) (fileTypes : List String) : Results :=
  { r with packages := PackageIndex.ofRecords r.records fileTypes }

def record? (r : Results) (className : String) : Option DependencyRecord :=
  r.records.find? (·.className == className)

/-- The map from names to records; of several records of one name the last counts. -/
def recordsByClass (r : Results) : List (String × DependencyRecord) :=
  NameMap.ofList (r.records.map fun record => (record.className, record))

def warnings (r : Results) : List RecoveredError :=
  r.errors.filter (·.severity == .warning)

/-- Counts everything again. Only the duration and the number of skipped entries are kept. -/
def finalize (r : Results) : Results :=
  { r with summary := {
      classes := r.records.countP (!·.isSynthetic)
      resources := r.records.countP (·.isSynthetic)
      internalEdges := r.records.foldl (· + ·.internal.length) 0
      externalEdges := r.records.foldl (· + ·.external.length) 0
      packages := r.packages.size
      skippedEntries := r.summary.skippedEntries
      errorsEncountered := r.errors.length
      warningsCount := r.warnings.length
      scanDuration := r.summary.scanDuration } }

end Results

end ClassAtlas
