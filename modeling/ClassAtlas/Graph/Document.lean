import ClassAtlas.Name

/-!
The text of a directed graph: a header, edges, free fragments, and one cluster for each package.
Clusters stand by ascending number of members, each tied to the one before by an invisible edge
between their first members, so that a renderer stacks them.
-/

namespace ClassAtlas.Graph

def nodeId (name : String) : String :=
  "\"" ++ Name.leaf name ++ "\""

structure Cluster where
  package : String
  members : List String := []
  deriving Repr, DecidableEq

/-- Adds the node of a name; an id that is present stays single. -/
def Cluster.add (cluster : Cluster) (name : String) : Cluster :=
  let id := nodeId name
  if cluster.members.contains id then cluster
  else { cluster with members := cluster.members ++ [id] }

def Cluster.ofNames (package : String) (names : List String) : Cluster :=
  names.foldl add { package }

inductive Statement where
  | fragment (text : String)
  | edge (source target : String)
  /-- A cluster block; `above` is the first member of the nearest cluster before it that has one. -/
  | cluster (cluster : Cluster) (above : Option String)
  deriving Repr, DecidableEq

/-- The invisible edge that puts a cluster below another. -/
def link (package member above : String) : String :=
  "\n\t" ++ above ++ " -> " ++ member ++ "[lhead=\"cluster_" ++ package ++ "\", style=\"invis\"];"

def memberList (package : String) (above : Option String) : List String → String
  | [] => ""
  | first :: others =>
    first ++ ";" ++ (above.map (link package first)).getD ""
      ++ String.join (others.map (· ++ ";"))

def Statement.render : Statement → String
  | .fragment text => text
  | .edge source target => "\t" ++ source ++ " -> " ++ target ++ ";\n"
  | .cluster c above =>
    "\tsubgraph \"cluster_" ++ c.package ++ "\" \x7b\n\t\trankdir=\"TB\";fontsize=8;label = \""
      ++ c.package ++ "\";\n\t\t" ++ memberList c.package above c.members ++ "\n\t\x7d\n"

def chain (above : Option String) : List Cluster → List Statement
  | [] => []
  | c :: clusters => .cluster c above :: chain (c.members.head?.or above) clusters

def clusterBlocks (clusters : List Cluster) : List Statement :=
  chain none (clusters.mergeSort fun a b => a.members.length ≤ b.members.length)

structure Document where
  name : String
  statements : List Statement := []
  deriving Repr, DecidableEq

namespace Document

def header (name : String) : String :=
  "digraph \"" ++ name ++ "\" \x7b\n\tcompound=\"true\";rankdir=\"TB\";\n"
    ++ "\tnode[shape=box, fontsize=8, height=.1, width=.1];\n"

def add (document : Document) (statements : List Statement) : Document :=
  { document with statements := document.statements ++ statements }

/-- The text so far, with the graph still open. -/
def openText (document : Document) : String :=
  header document.name ++ String.join (document.statements.map Statement.render)

def text (document : Document) : String :=
  document.openText ++ "\x7d"

end Document

end ClassAtlas.Graph
