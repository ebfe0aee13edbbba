import ClassAtlas.Proofs.Graph.Grouping
import ClassAtlas.Proofs.Graph.Outline

/-!
The text of a legend: each group is declared once as a node, each node is listed once in the cluster of
the legend, and several nodes are held in a row by a chain of invisible edges. Main statement: that is
what the legend of any classification shows, and the text is read back as it exactly if every label can
stand in quotes as it is.
-/

namespace ClassAtlas.Graph.Legend

open Lexer

inductive LegendStatement where
  | declares (node : String) (style : GroupStyle)
  | lists (node : String)
  | chains (nodes : List String)
  deriving Repr, DecidableEq

namespace LegendStatement

def text : LegendStatement → String
  | declares node style =>
    "\n\t" ++ quote node ++ " [label=" ++ quote style.label ++ ",color=" ++ quote style.color
      ++ ",style=" ++ quote style.style ++ "];"
  | lists node => quote node ++ "; "
  | chains nodes => "\n\t\t" ++ Text.joinWith " -> " (nodes.map quote) ++ " [style=\"invis\"];"

def tokens : LegendStatement → List Token
  | declares node style =>
    List.flatten
      [[.quoted node, .symbol '['],
        setting "label" (.quoted style.label) ',',
        setting "color" (.quoted style.color) ',',
        setting "style" (.quoted style.style) ']',
        [.symbol ';']]
  | lists node => [.quoted node, .symbol ';']
  | chains nodes =>
    (nodes.map Token.quoted).intersperse .arrow
      ++ (.symbol '[' :: setting "style" (.quoted "invis") ']' ++ [.symbol ';'])

def Readable : LegendStatement → Prop
  | declares node style =>
    Quotable node ∧ Quotable style.label ∧ Quotable style.color ∧ Quotable style.style
  | lists node => Quotable node
  | chains nodes => ∀ node ∈ nodes, Quotable node

end LegendStatement

/-- A legend as statements before its cluster and in it. -/
structure Drawing where
  outside : List LegendStatement
  inside : List LegendStatement
  deriving Repr, DecidableEq

namespace Drawing

def text (drawing : Drawing) : String :=
  String.join (drawing.outside.map LegendStatement.text)
    ++ "\n\tsubgraph \"clusterLegend\" \x7b\n\t\trankdir=\"TB\";fontsize=8;label=\"Groups\";\n\t\t"
    ++ String.join (drawing.inside.map LegendStatement.text) ++ "\n\t\x7d\n"

/-- What opens the cluster. -/
def clusterSettings : List Token :=
  List.flatten
    [[.word "subgraph", .quoted "clusterLegend", .symbol '\x7b'],
      setting "rankdir" (.quoted "TB") ';',
      setting "fontsize" (.word "8") ';',
      setting "label" (.quoted "Groups") ';']

def tokens (drawing : Drawing) : List Token :=
  drawing.outside.flatMap LegendStatement.tokens ++ clusterSettings
    ++ drawing.inside.flatMap LegendStatement.tokens ++ [.symbol '\x7d']

/-- Each group is declared, and listed in the cluster; only several groups need a chain. -/
def ofGroups (groups : List GroupStyle) : Drawing where
  outside := groups.map fun group => .declares ("legend_" ++ group.label) group
  inside := groups.map (fun group => .lists ("legend_" ++ group.label))
    ++ if 1 < groups.length then [.chains (groups.map ("legend_" ++ ·.label))] else []

end Drawing

section Text

theorem legendNode_eq (group : GroupStyle) : legendNode group = quote ("legend_" ++ group.label) := by
  apply String.toList_inj.mp
  simp [legendNode, quote]

theorem declaration_eq (group : GroupStyle) :
    declaration group = (LegendStatement.declares ("legend_" ++ group.label) group).text := by
  apply String.toList_inj.mp
  simp [declaration, legendNode_eq, LegendStatement.text, quote]

theorem description_eq {legend : Legend} (shown : legend.groups ≠ []) :
    legend.description = (Drawing.ofGroups legend.groups).text := by
  have declared : legend.groups.map declaration =
      (Drawing.ofGroups legend.groups).outside.map LegendStatement.text := by
    simp [Drawing.ofGroups, Function.comp_def, declaration_eq]
  have nodes : legend.groups.map legendNode =
      (legend.groups.map ("legend_" ++ ·.label)).map quote := by
    simp [Function.comp_def, legendNode_eq]
  have several : ¬ legend.groups.isEmpty := by simpa using shown
  unfold description Drawing.text
  rw [if_neg several, declared, nodes]
  by_cases chained : 1 < legend.groups.length <;>
    simp [Drawing.ofGroups, LegendStatement.text, Function.comp_def, chained, String.append_assoc]

end Text

section Reading

open ReadsIff

theorem quotable_legend (label : String) : Quotable ("legend_" ++ label) ↔ Quotable label :=
  quotable_append (by decide +kernel)

theorem reads_joinWith (nodes : List String) :
    ReadsIff (Text.joinWith " -> " (nodes.map quote)) ((nodes.map Token.quoted).intersperse .arrow)
      (∀ node ∈ nodes, Quotable node) := by
  induction nodes with
  | nil => exact empty.congr (by simp)
  | cons node nodes ih =>
      cases nodes with
      | nil => exact (quoted node).congr (by simp)
      | cons next others =>
          have begun := (quoted node).append_fixed " -> " [.arrow] (by decide +kernel)
          have reads := begun.append fun _ => ih
          exact reads.congr List.forall_mem_cons.symm

theorem reads_statement (statement : LegendStatement) :
    ReadsIff statement.text statement.tokens statement.Readable := by
  cases statement with
  | declares node style =>
      have begun : ReadsIff "\n\t" [] True := fixed (by decide +kernel)
      have named := (begun.append_quoted node).append_fixed " [label="
        [.symbol '[', .word "label", .symbol '='] (by decide +kernel)
      have labelled := (named.append_quoted style.label).append_fixed ",color="
        [.symbol ',', .word "color", .symbol '='] (by decide +kernel)
      have coloured := (labelled.append_quoted style.color).append_fixed ",style="
        [.symbol ',', .word "style", .symbol '='] (by decide +kernel)
      have reads := (coloured.append_quoted style.style).append_fixed "];"
        [.symbol ']', .symbol ';'] (by decide +kernel)
      apply reads.regroup
      · rfl
      · rfl
      · simp [LegendStatement.Readable, and_assoc]
  | lists node => exact (quoted node).append_fixed "; " [.symbol ';'] (by decide +kernel)
  | chains nodes =>
      have begun : ReadsIff "\n\t\t" [] True := fixed (by decide +kernel)
      have reads := (begun.append fun _ => reads_joinWith nodes).append_fixed " [style=\"invis\"];"
        (.symbol '[' :: setting "style" (.quoted "invis") ']' ++ [.symbol ';']) (by decide +kernel)
      exact reads.congr (and_iff_right trivial)

theorem reads_drawing (drawing : Drawing) :
    ReadsIff drawing.text drawing.tokens
      (∀ statement ∈ drawing.outside ++ drawing.inside, statement.Readable) := by
  have outside : ReadsIff _ _ (∀ statement ∈ drawing.outside, statement.Readable) :=
    join fun statement _ => reads_statement statement
  have inside : ReadsIff _ _ (∀ statement ∈ drawing.inside, statement.Readable) :=
    join fun statement _ => reads_statement statement
  have opened := outside.append_fixed
    "\n\tsubgraph \"clusterLegend\" \x7b\n\t\trankdir=\"TB\";fontsize=8;label=\"Groups\";\n\t\t"
    Drawing.clusterSettings (by decide +kernel)
  have reads := (opened.append fun _ => inside).append_fixed "\n\t\x7d\n" [.symbol '\x7d']
    (by decide +kernel)
  exact reads.congr List.forall_mem_append.symm

end Reading

section Arrows

theorem count_arrow_intersperse (nodes : List String) :
    ((nodes.map Token.quoted).intersperse .arrow).count .arrow = nodes.length - 1 := by
  induction nodes with
  | nil => rfl
  | cons node nodes ih =>
      cases nodes with
      | nil => rfl
      | cons next others =>
          simp only [List.map_cons, List.intersperse_cons_cons, List.length_cons] at ih ⊢
          rw [List.count_cons_of_ne (by simp), List.count_cons_self, ih]
          omega

theorem count_arrow_chains (nodes : List String) :
    (LegendStatement.chains nodes).tokens.count .arrow = nodes.length - 1 := by
  rw [LegendStatement.tokens, List.count_append, count_arrow_intersperse]
  rfl

theorem count_arrow_flatMap {groups : List GroupStyle} {statement : GroupStyle → LegendStatement}
    (without : ∀ group, (statement group).tokens.count .arrow = 0) :
    ((groups.map statement).flatMap LegendStatement.tokens).count .arrow = 0 := by
  simp [List.count_flatMap, Function.comp_def, without]

theorem count_arrow_ofGroups (groups : List GroupStyle) :
    (Drawing.ofGroups groups).tokens.count .arrow = groups.length - 1 := by
  have opened : Drawing.clusterSettings.count .arrow = 0 := by decide
  have closed : [Token.symbol '\x7d'].count .arrow = 0 := by decide
  unfold Drawing.tokens Drawing.ofGroups
  rw [List.count_append, List.count_append, List.count_append, List.flatMap_append,
    List.count_append, count_arrow_flatMap fun _ => rfl, count_arrow_flatMap fun _ => rfl, opened,
    closed]
  by_cases several : 1 < groups.length
  · simp [several, count_arrow_chains]
  · simp only [several, if_false, List.flatMap_nil, List.count_nil]
    omega

end Arrows

section Groups

variable {types : List String} {entries : List (String × String)}

theorem quotable_style {group : GroupStyle} (member : group ∈ (ofMap entries types).groups) :
    Quotable group.color ∧ Quotable group.style := by
  by_cases layer : IsLayer group.label
  · have layers : ∀ style ∈ layerStyles, Quotable style.color ∧ Quotable style.style := by
      decide +kernel
    obtain ⟨style, known, same⟩ := List.mem_map.mp layer
    exact eq_layer member known same.symm ▸ layers style known
  · have colors : ∀ color ∈ palette, Quotable color := by decide +kernel
    have filled : Quotable "filled" := by decide +kernel
    have other : group ∈ (ofMap entries types).groups.filter fun group => ¬ IsLayer group.label := by
      simpa using ⟨member, layer⟩
    obtain ⟨turn, found⟩ := List.mem_iff_getElem?.mp other
    obtain ⟨color, style⟩ := getElem?_others found
    exact ⟨colors _ (List.mem_of_getElem? color), style ▸ filled⟩

/-- Labels are chosen freely, and nothing else in a legend is. -/
theorem readable_iff :
    (∀ statement ∈ (Drawing.ofGroups (ofMap entries types).groups).outside ++
        (Drawing.ofGroups (ofMap entries types).groups).inside, statement.Readable) ↔
      ∀ group ∈ (ofMap entries types).groups, Quotable group.label := by
  constructor
  · intro readable group member
    have declared := readable (.declares ("legend_" ++ group.label) group)
      (List.mem_append_left _ (List.mem_map_of_mem member))
    exact declared.2.1
  · intro quotable statement drawn
    have node : ∀ group ∈ (ofMap entries types).groups, Quotable ("legend_" ++ group.label) :=
      fun group member => (quotable_legend _).mpr (quotable group member)
    obtain outside | inside := List.mem_append.mp drawn
    · obtain ⟨group, member, rfl⟩ := List.mem_map.mp outside
      exact ⟨node group member, quotable group member, quotable_style member⟩
    · obtain listed | chained := List.mem_append.mp inside
      · obtain ⟨group, member, rfl⟩ := List.mem_map.mp listed
        exact node group member
      · split at chained
        case isTrue =>
          rw [List.mem_singleton.mp chained]
          exact List.forall_mem_map.mpr node
        case isFalse => cases chained

end Groups

/-- A text that draws groups: a node for each, in order, and no arrow but those of one chain. -/
structure Depicts (groups : List GroupStyle) (text : String) : Prop where
  shown : groups ≠ []
  distinct : (groups.map ("legend_" ++ ·.label)).Nodup
  text_eq : text = (Drawing.ofGroups groups).text
  arrows : (Drawing.ofGroups groups).tokens.count .arrow = groups.length - 1
  reads_iff : tokens? text = some (Drawing.ofGroups groups).tokens ↔
    ∀ group ∈ groups, Quotable group.label

theorem nodup_nodes {groups : List GroupStyle} (distinct : (groups.map (·.label)).Nodup) :
    (groups.map ("legend_" ++ ·.label)).Nodup := by
  have nodes : groups.map ("legend_" ++ ·.label) = (groups.map (·.label)).map ("legend_" ++ ·) := by
    rw [List.map_map]
    rfl
  rw [nodes]
  apply distinct.map
  intro one other same
  simpa using same

theorem depicts_description {types : List String} {entries : List (String × String)}
    (shown : (ofMap entries types).groups ≠ []) :
    Depicts (ofMap entries types).groups (ofMap entries types).description where
  shown := shown
  distinct := nodup_nodes nodup_labels
  text_eq := description_eq shown
  arrows := count_arrow_ofGroups _
  reads_iff := by
    rw [description_eq shown, (reads_drawing _).tokens?_eq_some_iff]
    exact readable_iff

/-- A legend has a group for each label that a node of the classification has, and draws them all. -/
theorem ofMap_shows_classification (types : List String) (entries : List (String × String)) :
    Represents types entries (ofMap entries types) ∧
      ((ofMap entries types).groups = [] ∧ (ofMap entries types).description = "" ∨
        Depicts (ofMap entries types).groups (ofMap entries types).description) := by
  refine ⟨represents_ofMap types entries, ?_⟩
  by_cases shown : (ofMap entries types).groups = []
  · refine .inl ⟨shown, ?_⟩
    simp [description, shown]
  · exact .inr (depicts_description shown)

/-- A key with dots and one with slashes stand for one node, and the one with slashes counts. -/
example : ofMap [("shop/Cart", "Billing"), ("shop.Cart", "View"), ("logo.png", "Art")] ["png"] =
    { classes := [("/logo.png", "Art"), ("shop/Cart", "Billing")]
      groups := [⟨"Art", "#FFCC66", "filled"⟩, ⟨"Billing", "#FF9999", "filled"⟩] } := by
  decide +kernel

end ClassAtlas.Graph.Legend
