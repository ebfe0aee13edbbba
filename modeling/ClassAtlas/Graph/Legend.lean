import ClassAtlas.Dependency
import ClassAtlas.Graph.Document
import ClassAtlas.NameSet
import ClassAtlas.Resource

/-!
Colouring nodes by a classification that maps class names to group labels. The groups are listed by
ascending label in a legend; architectural layers have styles of their own, and the other groups
take colours from a palette in turn.
-/

namespace ClassAtlas.Graph

structure GroupStyle where
  label : String
  color : String
  style : String
  deriving Repr, DecidableEq

structure Legend where
  classes : List (String × String) := []
  groups : List GroupStyle := []
  deriving Repr, DecidableEq

namespace Legend

def layerStyles : List GroupStyle := [
  ⟨"Model", "#B1FF3D", "filled"⟩,
  ⟨"View", "#3399FF", "filled"⟩,
  ⟨"Controller", "#A3A3A3", "filled"⟩,
  ⟨"InvalidModel", "#B1FF3D", "rounded"⟩,
  ⟨"InvalidView", "#3399FF", "rounded"⟩,
  ⟨"InvalidController", "#A3A3A3", "rounded"⟩
]

def palette : List String :=
  ["#FFCC66", "#FF9999", "#CC99FF", "#66CCCC", "#FFFF99", "#99CC99"]

/-- The colour of the group that is `turn`-th, from 0, among those of no layer. -/
def paletteColor (turn : Nat) : String :=
  palette.getD (turn % palette.length) ""

def stylesFrom (turn : Nat) : List String → List GroupStyle
  | [] => []
  | label :: labels =>
    match layerStyles.find? (·.label == label) with
    | some layer => layer :: stylesFrom turn labels
    | none =>
      { label, color := paletteColor turn, style := "filled" } :: stylesFrom (turn + 1) labels

def nodeOfKey (resources : ResourceRule) (key : String) : String :=
  match resources.nodeName? key with
  | some node => node
  | none =>
    if key.toList.contains '/' then key
    else String.ofList (key.toList.map fun c => if c == '.' then '/' else c)

/-- The legend of a classification. Where several keys stand for one node the last key in order
counts. -/
def ofMap (entries : List (String × String)) (resourceTypes : List String) : Legend :=
  let resources : ResourceRule := { fileTypes := resourceTypes }
  let classes := NameMap.ofList ((NameMap.ofList entries).map fun (key, label) =>
    (nodeOfKey resources key, label))
  { classes, groups := stylesFrom 0 (NameSet.ofList (classes.map (·.2))) }

def groupOf? (legend : Legend) (name : String) : Option GroupStyle := do
  let label ← legend.classes.lookup name
  legend.groups.find? (·.label == label)

def nodeStyle? (legend : Legend) (record : DependencyRecord) : Option String :=
  (legend.groupOf? record.className).map fun group =>
    "\n\t" ++ nodeId record.className ++ " [color=\"" ++ group.color ++ "\",style=\""
      ++ group.style ++ "\"];\n"

def legendNode (group : GroupStyle) : String :=
  "\"legend_" ++ group.label ++ "\""

def declaration (group : GroupStyle) : String :=
  "\n\t" ++ legendNode group ++ " [label=\"" ++ group.label ++ "\",color=\"" ++ group.color
    ++ "\",style=\"" ++ group.style ++ "\"];"

/-- The fragment that draws the legend; there is none without groups. -/
def description (legend : Legend) : String :=
  if legend.groups.isEmpty then ""
  else
    let nodes := legend.groups.map legendNode
    String.join (legend.groups.map declaration)
      ++ "\n\tsubgraph \"clusterLegend\" \x7b\n\t\trankdir=\"TB\";fontsize=8;label=\"Groups\";\n\t\t"
      ++ String.join (nodes.map (· ++ "; "))
      ++ (if nodes.length > 1 then
            "\n\t\t" ++ Text.joinWith " -> " nodes ++ " [style=\"invis\"];"
          else "")
      ++ "\n\t\x7d\n"

end Legend

end ClassAtlas.Graph
