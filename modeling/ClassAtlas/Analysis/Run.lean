import ClassAtlas.Analysis.Results
import ClassAtlas.Analysis.Schedule
import ClassAtlas.ClassFile.References
import ClassAtlas.Discovery.Archive
import ClassAtlas.Discovery.Directory

/-!
The analysis of an input: its entries are discovered, each class is read and its dependencies are
classified, and the records are grouped by package.
-/

namespace ClassAtlas.Analysis

/-- File types in the settings make a rule of their own, before any other. -/
def rulesOf (s : Settings) (more : List ResourceRule) : List ResourceRule :=
  (if s.extraFileTypes.isEmpty then [] else [{ fileTypes := s.extraFileTypes }]) ++ more

def noteFault (r : Results) (fault : String × Failure) : Except Failure Results :=
  match fault.2.unhandled? with
  | some critical => .error critical
  | none => .ok (r.addError fault.1 fault.2)

def discover (w : World) (s : Settings) (rules : List ResourceRule) (r : Results) :
    Except Halt (List Entry × Results) := do
  if w.isDirectory s.inputPath then
    let walk ← Discovery.walkDirectory w s rules s.inputPath
    let noted : Except Failure Results := walk.faults.foldlM noteFault r
    return (walk.entries, ← noted)
  else return (← Discovery.walkArchive w rules s.inputPath, r)

def recordOf (w : World) (internalNames platformPrefixes : List String) (e : Entry) :
    Except Failure DependencyRecord := do
  match ← e.bytes w with
  | none => return .resource e.name
  | some bytes =>
    match ClassFile.extract bytes with
    | .error cause => throw (.malformedClass e.name cause)
    | .ok (extracted, _) =>
      return Dependency.classify internalNames platformPrefixes e.name extracted.referenced

def isMalformed : Failure → Bool
  | .malformedClass _ _ => true
  | _ => false

def addOutcome (skipMalformed : Bool) (r : Results)
    (outcome : Entry × Except Failure DependencyRecord) : Except Failure Results :=
  match outcome.2 with
  | .ok record => .ok (r.addRecord record)
  | .error failure =>
    if skipMalformed && isMalformed failure then .ok (r.addSkipped outcome.1.name failure)
    else .error failure

structure Report where
  results : Results
  progress : List Progress

/-- The outcome of each entry; by several workers if that is wanted, who move in the given order. -/
def process (order : List Nat) (w : World) (s : Settings) (entries : List Entry) :
    List (Except Failure DependencyRecord) × List Progress :=
  let f := recordOf w (entries.map (·.name)) s.platformPrefixes
  if s.parallel then Schedule.parallel order f entries else Schedule.sequential f entries

def conclude (w : World) (rules : List ResourceRule) (collected : Results) : Results :=
  ((collected.group (ResourceRule.extraFileTypes rules)).setScanDuration w.elapsed).finalize

def reportOn (order : List Nat) (w : World) (s : Settings) (rules : List ResourceRule)
    (entries : List Entry) (noted : Results) : Except Failure Report := do
  let work := process order w s entries
  let collected ← (entries.zip work.1).foldlM (addOutcome s.skipMalformed) noted
  return { results := conclude w rules collected, progress := work.2 }

/-- A run whose workers, given the number of entries, move in the order of the schedule. -/
def runIn (schedule : Nat → List Nat) (w : World) (s : Settings) (rules : List ResourceRule) :
    Except Halt Report := do
  if !w.pathExists s.inputPath then throw (.failure (.invalidPath s.inputPath))
  let found ← discover w s rules { inputPath := s.inputPath, analysisDate := w.now }
  reportOn (schedule found.1.length) w s rules found.1 found.2

def run (w : World) (s : Settings) (rules : List ResourceRule) : Except Halt Report :=
  runIn Schedule.inTurn w s rules

end ClassAtlas.Analysis
