import ClassAtlas.Graph.Export
import ClassAtlas.Process
import ClassAtlas.Text.Utf8

/-!
Rendering by an external layout command. What it says on its error stream explains a failure.
-/

namespace ClassAtlas.Graph

/-- How much of the error stream is kept. -/
def keptBytes : Nat := 8192

def layoutArguments (dotFile image format : String) : List String :=
  ["-T" ++ format, dotFile, "-o", image]

def exitMessage (status : Process.Status) (stderr : List UInt8) : String :=
  let said := Text.trim (Text.decodeLossy (stderr.take keptBytes))
  "exited with " ++ status.describe ++ (if said == "" then "" else ": " ++ said)

def commandRenderer (runner : Process.Runner) (command : String) (limitMillis : Nat) : Renderer where
  name := command
  render w dotFile image format :=
    match runner.start w command (layoutArguments dotFile image format) limitMillis with
    | .error e => (w, .error (.renderer command ("cannot start: " ++ e.message)))
    | .ok finish =>
      let result := match finish.ending with
        | .timedOut =>
          .error (.renderer command ("timed out after " ++ Process.describeLimit limitMillis))
        | .finished status =>
          if status.isSuccess then .ok ()
          else .error (.renderer command (exitMessage status finish.stderr))
      ({ w with root := finish.root }, result)

def defaultRenderer (runner : Process.Runner) : Renderer :=
  commandRenderer runner "dot" 60000

end ClassAtlas.Graph
