/-!
Packages in the order they were first seen. The positions map each package name to the last place
that holds it, so that look-ups need no search of the groups.
-/

namespace ClassAtlas

structure PackageGroup where
  name : String
  members : List String := []
  deriving Repr, DecidableEq

structure PackageIndex where
  groups : List PackageGroup := []
  positions : List (String × Nat) := []
  deriving Repr, DecidableEq

namespace PackageIndex

def setPosition (name : String) (position : Nat) (positions : List (String × Nat)) :
    List (String × Nat) :=
  (name, position) :: positions.filter (·.1 ≠ name)

def positionsFrom (start : Nat) (positions : List (String × Nat)) :
    List PackageGroup → List (String × Nat)
  | [] => positions
  | group :: groups => positionsFrom (start + 1) (setPosition group.name start positions) groups

/-- Repeated names are allowed; look-ups find the last. -/
def ofList (groups : List PackageGroup) : PackageIndex :=
  { groups, positions := positionsFrom 0 [] groups }

def toList (index : PackageIndex) : List PackageGroup :=
  index.groups

def position? (index : PackageIndex) (name : String) : Option Nat :=
  index.positions.lookup name

def get? (index : PackageIndex) (name : String) : Option PackageGroup := do
  index.groups[← index.position? name]?

def size (index : PackageIndex) : Nat :=
  index.groups.length

def isEmpty (index : PackageIndex) : Bool :=
  index.groups.isEmpty

def entry (index : PackageIndex) (name : String) : PackageIndex :=
  match index.position? name with
  | some _ => index
  | none =>
    { groups := index.groups ++ [{ name }]
      positions := setPosition name index.groups.length index.positions }

/-- Changes the group of a package, which is made first if it is not present. -/
def modify (index : PackageIndex) (name : String) (f : PackageGroup → PackageGroup) :
    PackageIndex :=
  let index := index.entry name
  match index.position? name with
  | some position => { index with groups := index.groups.modify position f }
  | none => index

def push (index : PackageIndex) (name member : String) : PackageIndex :=
  index.modify name fun group => { group with members := group.members ++ [member] }

/-- The packages by ascending number of members; equal ones stay in their order. -/
def byMemberCount (index : PackageIndex) : List PackageGroup :=
  index.groups.mergeSort fun a b => a.members.length ≤ b.members.length

end PackageIndex

end ClassAtlas
