import ClassAtlas.Graph.Legend
import ClassAtlas.Package.Grouping

/-!
The graph of a list of records: the edges of each record in turn, then a cluster for each package.
External dependencies are drawn only on request, in clusters of their own.
-/

namespace ClassAtlas.Graph

structure Style where
  includeExternal : Bool
  legends : List Legend := []
  deriving Repr, DecidableEq

def Style.externalOf (style : Style) (record : DependencyRecord) : List String :=
  if style.includeExternal && !record.isSynthetic then record.external else []

/-- The statements of one record: its colours, then its edges. -/
def recordStatements (style : Style) (record : DependencyRecord) : List Statement :=
  let edgeTo (name : String) := Statement.edge (nodeId record.className) (nodeId name)
  (style.legends.filterMap (·.nodeStyle? record)).map .fragment
    ++ record.internal.map edgeTo
    ++ (style.externalOf record).map edgeTo

/-- Adds a name to the cluster of its package, which comes last if it is new. -/
def addToClusters (clusters : List Cluster) (name : String) : List Cluster :=
  let package := Name.package name
  if clusters.any (·.package == package) then
    clusters.map fun c => if c.package == package then c.add name else c
  else
    clusters ++ [Cluster.ofNames package [name]]

def externalClusters (style : Style) (records : List DependencyRecord) : List Cluster :=
  (records.flatMap style.externalOf).foldl addToClusters []

def internalClusters (packages : PackageIndex) : List Cluster :=
  packages.toList.map fun group => Cluster.ofNames group.name group.members

def build (style : Style) (name : String) (records : List DependencyRecord)
    (packages : PackageIndex) : Document :=
  { name
    statements :=
      style.legends.map (fun legend => .fragment legend.description)
        ++ records.flatMap (recordStatements style)
        ++ clusterBlocks (internalClusters packages)
        ++ (if style.includeExternal then clusterBlocks (externalClusters style records) else []) }

end ClassAtlas.Graph
