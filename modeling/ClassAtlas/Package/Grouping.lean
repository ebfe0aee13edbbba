import ClassAtlas.Dependency
import ClassAtlas.NameSet
import ClassAtlas.Package.Index

/-!
Grouping records by package. Once a package holds a file of an extra type, only files of such types
join it.
-/

namespace ClassAtlas

structure Admission where
  members : List String := []
  holdsFiles : Bool := false
  deriving Repr, DecidableEq

/-- Offers a name to the package; a name that is a member already joins only once. -/
def Admission.offer (fileTypes : List String) (a : Admission) (name : String) : Admission :=
  let isFile := Name.hasFileType name fileTypes
  if a.holdsFiles && !isFile then a
  else
    { members := if a.members.contains name then a.members else a.members ++ [name]
      holdsFiles := a.holdsFiles || isFile }

namespace PackageIndex

def membersOf (fileTypes : List String) (records : List DependencyRecord) (package : String) :
    List String :=
  let names := (records.filter (·.package == package)).map (·.className)
  (names.foldl (Admission.offer fileTypes) {}).members

def addPackage (fileTypes : List String) (records : List DependencyRecord) (index : PackageIndex)
    (record : DependencyRecord) : PackageIndex :=
  let package := record.package
  if (index.get? package).isSome then index
  else index.modify package fun group => { group with members := membersOf fileTypes records package }

/-- Packages stand in the order in which their first record does. -/
def ofRecords (records : List DependencyRecord) (fileTypes : List String) : PackageIndex :=
  records.foldl (addPackage fileTypes records) {}

end PackageIndex

end ClassAtlas
