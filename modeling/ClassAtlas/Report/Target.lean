import ClassAtlas.Failure
import ClassAtlas.FileSystem.World

/-!
Where a report goes. Writing to a file replaces it.
-/

namespace ClassAtlas.Report

inductive Target where
  | stdout
  | file (path : String)
  deriving Repr, DecidableEq

namespace Target

def ofPath? : Option String → Target
  | none => .stdout
  | some path => .file path

/-- Writes a report and gives what goes to the standard output. -/
def write (target : Target) (w : World) (report : String) : Except Failure (World × String) :=
  match target with
  | .stdout => .ok (w, report)
  | .file path =>
    match w.writeText path report with
    | .ok w => .ok (w, "")
    | .error e => .error (.outputWrite path (.os e))

end Target

end ClassAtlas.Report
