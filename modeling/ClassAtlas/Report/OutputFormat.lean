import ClassAtlas.Text.Lowercase

/-!
The kinds of report and their names.
-/

namespace ClassAtlas

inductive OutputFormat where
  | text
  | json
  | csv
  deriving Repr, DecidableEq

namespace OutputFormat

def name : OutputFormat → String
  | .text => "text"
  | .json => "json"
  | .csv => "csv"

def ofName? (name : String) : Option OutputFormat :=
  [text, json, csv].find? (·.name == name)

/-- The format of a name in any mixture of cases. -/
def parse (text : String) : Except String OutputFormat :=
  match ofName? (Text.lowercase text) with
  | some format => .ok format
  | none => .error ("Invalid output format: " ++ text)

end OutputFormat

end ClassAtlas
