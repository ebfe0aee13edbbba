import ClassAtlas.Text.Cut

/-!
Paths as texts. A path is read as a head, which is a root slash or a leading dot, and the parts
between the slashes after it. Empty parts and single dots after the head name nothing, but they
stay in the text.
-/

namespace ClassAtlas.Path

def isAbsolute (path : String) : Bool :=
  path.toList.head? == some '/'

def headAndBody (path : String) : List Char × List Char :=
  match path.toList with
  | '/' :: rest => (['/'], rest)
  | ['.'] => (['.'], [])
  | '.' :: '/' :: rest => (['.'], '/' :: rest)
  | chars => ([], chars)

def parts (body : List Char) : List (List Char) :=
  if body.isEmpty then [] else Text.splitAll '/' body

def isVoid (part : List Char) : Bool :=
  part == [] || part == ['.']

def trimParts (parts : List (List Char)) : List (List Char) :=
  (parts.reverse.dropWhile isVoid).reverse

def steps (path : String) : List String :=
  ((parts (headAndBody path).2).filter (!isVoid ·)).map String.ofList

/-- The names of a path, without root, dots and parent steps. -/
def names (path : String) : List String :=
  (steps path).filter (· != "..")

def fileName? (path : String) : Option String :=
  match (steps path).getLast? with
  | some ".." => none
  | name => name

/-- The part after the last dot of the file name, unless that dot opens the name. -/
def extension? (path : String) : Option String := do
  match Text.cutLast? '.' (← fileName? path).toList with
  | some ([], _) => none
  | some (_, after) => some (String.ofList after)
  | none => none

def joinParts (parts : List (List Char)) : List Char :=
  (Text.joinWith "/" (parts.map String.ofList)).toList

/-- The path without its last step. The root has no parent, nor has the empty path. -/
def parent? (path : String) : Option String :=
  let (head, body) := headAndBody path
  match trimParts (parts body) with
  | [] => if head == ['.'] then some "" else none
  | present => some (String.ofList (head ++ joinParts (trimParts present.dropLast)))

/-- Appends a path to a directory; an absolute path stands for itself. -/
def join (directory path : String) : String :=
  if isAbsolute path then path
  else if directory.isEmpty || directory.toList.getLast? == some '/' then directory ++ path
  else directory ++ "/" ++ path

end ClassAtlas.Path
