import ClassAtlas.Text.Cut

/-!
The parts of a qualified name: package, leaf, declaring class and file extension. Names are divided
by slashes, or by dots where there is no slash.
-/

namespace ClassAtlas.Name

def rootPackage : String := "/"

def package (name : String) : String :=
  match Text.cutLast? '/' name.toList with
  | some ([], _) => rootPackage
  | some (before, _) => String.ofList before
  | none =>
    match Text.cutLast? '.' name.toList with
    | some ([], _) => rootPackage
    | some (before, _) => String.ofList before
    | none => rootPackage

def leaf (name : String) : String :=
  match Text.cutLast? '/' name.toList with
  | some (_, after) => String.ofList after
  | none =>
    match Text.cutLast? '.' name.toList with
    | some (_, after) => String.ofList after
    | none => name

/-- The text before the first dollar sign; one that opens the name marks no inner class. -/
def declaring? (name : String) : Option String :=
  match Text.cutFirst? '$' name.toList with
  | some ([], _) => none
  | some (before, _) => some (String.ofList before)
  | none => none

def lastSegment (name : String) : List Char :=
  match Text.cutLast? '/' name.toList with
  | some (_, after) => after
  | none => name.toList

def extension? (name : String) : Option String :=
  match Text.cutLast? '.' (lastSegment name) with
  | some (_, []) => none
  | some (_, after) => some (String.ofList after)
  | none => none

/-- Whether the extension is one of `fileTypes`, whatever the case of its ASCII letters. -/
def hasFileType (name : String) (fileTypes : List String) : Bool :=
  (extension? name).any fun found => fileTypes.any (Text.sameIgnoringCase · found)

end ClassAtlas.Name
