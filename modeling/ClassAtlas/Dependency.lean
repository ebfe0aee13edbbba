import ClassAtlas.Name
import ClassAtlas.NameSet

/-!
Dependency records and the split of referenced names into internal and external dependencies.
-/

namespace ClassAtlas

/-- The dependencies of a class, or a resource that has none and is drawn as a node only. -/
structure DependencyRecord where
  className : String
  internalDeps : Option (List String)
  externalDeps : Option (List String)
  deriving Repr, DecidableEq

namespace DependencyRecord

def ofClass (className : String) (internal external : List String) : DependencyRecord :=
  { className, internalDeps := some internal, externalDeps := some external }

def resource (name : String) : DependencyRecord :=
  { className := name, internalDeps := none, externalDeps := none }

def isSynthetic (record : DependencyRecord) : Bool :=
  record.internalDeps.isNone && record.externalDeps.isNone

def internal (record : DependencyRecord) : List String :=
  record.internalDeps.getD []

def external (record : DependencyRecord) : List String :=
  record.externalDeps.getD []

def package (record : DependencyRecord) : String :=
  Name.package record.className

end DependencyRecord

namespace Dependency

def isPlatform (platformPrefixes : List String) (name : String) : Bool :=
  platformPrefixes.any fun start => start.toList.isPrefixOf name.toList

def isInnerOf (owner name : String) : Bool :=
  match Name.declaring? name with
  | none => false
  | some declarer => declarer == owner || Name.declaring? owner == some declarer

/-- Platform classes, the owner itself and the inner classes around it are no dependencies. -/
def isValid (owner name : String) (platformPrefixes : List String) : Bool :=
  !isPlatform platformPrefixes name && name != owner && !isInnerOf owner name

/-- Splits the set of names that `owner` refers to by whether they belong to the run. -/
def classify (internalNames platformPrefixes : List String) (owner : String)
    (referenced : List String) : DependencyRecord :=
  let valid := (NameSet.ofList referenced).filter (isValid owner · platformPrefixes)
  .ofClass owner (valid.filter internalNames.contains) (valid.filter (!internalNames.contains ·))

end Dependency

end ClassAtlas
