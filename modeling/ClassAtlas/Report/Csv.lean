import ClassAtlas.Text.Cut

/-!
Rows of comma-separated fields. A field that holds a comma, a quote or a line break is quoted, with
its quotes doubled; a row ends in a line feed.
-/

namespace ClassAtlas.Report.Csv

def needsQuotes (field : String) : Bool :=
  field.toList.any [',', '"', '\r', '\n'].contains

def doubleQuotes : List Char → List Char
  | [] => []
  | c :: rest => if c == '"' then '"' :: '"' :: doubleQuotes rest else c :: doubleQuotes rest

def field (text : String) : String :=
  if needsQuotes text then "\"" ++ String.ofList (doubleQuotes text.toList) ++ "\"" else text

def row (fields : List String) : String :=
  Text.joinWith "," (fields.map field) ++ "\n"

def text (rows : List (List String)) : String :=
  String.join (rows.map row)

end ClassAtlas.Report.Csv
