import ClassAtlas.Proofs.Graph.Stacking

/-!
What the text of a graph draws of the records. Behind the header and the legends stands a passage for
each record, with a line for every dependency that is listed, and then the blocks of the clusters; the
external dependencies that are drawn have clusters of their own. Main statement: this is all of the
text, and of external dependencies nothing shows unless they are asked for.
-/

namespace ClassAtlas

/-- The record with its external dependencies left out. -/
def DependencyRecord.withoutExternal (record : DependencyRecord) : DependencyRecord :=
  { record with externalDeps := none }

namespace Graph

/-- An edge between two ids. -/
structure Edge where
  source : String
  target : String
  deriving Repr, DecidableEq

def Edge.line (edge : Edge) : String :=
  "\t" ++ edge.source ++ " -> " ++ edge.target ++ ";\n"

/-- What is written for a record: the colours of its node and the lines of its edges. -/
structure Passage where
  colors : List String
  edges : List Edge
  deriving Repr, DecidableEq

def Passage.text (passage : Passage) : String :=
  String.join passage.colors ++ String.join (passage.edges.map Edge.line)

/-- The parts of a graph in the order of its text. -/
structure Layout where
  legends : List String
  passages : List Passage
  internal : List TiedBlock
  external : List TiedBlock

def Layout.text (name : String) (layout : Layout) : String :=
  Document.header name ++ String.join layout.legends
    ++ String.join (layout.passages.map Passage.text)
    ++ blocksText layout.internal ++ blocksText layout.external

/-- The external dependencies of a record that are drawn: if they are asked for, those of a class. -/
def drawnExternal (includeExternal : Bool) (record : DependencyRecord) : List String :=
  if includeExternal && !record.isSynthetic then record.external else []

/-- The edges of a record: to its internal dependencies, and then to the external ones that are
drawn. -/
def edgesOf (includeExternal : Bool) (record : DependencyRecord) : List Edge :=
  (record.internal ++ drawnExternal includeExternal record).map fun dependency =>
    ⟨nodeId record.className, nodeId dependency⟩

/-- The package has a name at the place. -/
def InPackageAt (names : List String) (i : Nat) (package : String) : Prop :=
  ∃ name, names[i]? = some name ∧ Name.package name = package

/-- The place holds a name in the package that is shown by the id. -/
def ShownAt (names : List String) (package : String) (i : Nat) (id : String) : Prop :=
  ∃ name, names[i]? = some name ∧ Name.package name = package ∧ nodeId name = id

/-- The clusters of names: one for each package, with the ids of its names. -/
structure Gathers (names : List String) (clusters : List Cluster) : Prop where
  packages : InFirstOrder (InPackageAt names) (clusters.map (·.package))
  members : ∀ cluster ∈ clusters, InFirstOrder (ShownAt names cluster.package) cluster.members

/-- What the parts show of the records and the packages. -/
structure Draws (style : Style) (records : List DependencyRecord) (packages : PackageIndex)
    (layout : Layout) : Prop where
  legends : layout.legends = style.legends.map (·.description)
  colors : layout.passages.map (·.colors) =
    records.map fun record => style.legends.filterMap (·.nodeStyle? record)
  edges : layout.passages.map (·.edges) = records.map (edgesOf style.includeExternal)
  internal : Stacked (internalClusters packages) layout.internal
  external : ∃ clusters, Gathers (records.flatMap (drawnExternal style.includeExternal)) clusters ∧
    Stacked clusters layout.external

section Passages

variable (style : Style)

def passageOf (record : DependencyRecord) : Passage where
  colors := style.legends.filterMap (·.nodeStyle? record)
  edges := edgesOf style.includeExternal record

theorem join_fragments (texts : List String) :
    String.join ((texts.map Statement.fragment).map Statement.render) = String.join texts := by
  rw [List.map_map]
  exact congrArg String.join (List.map_id texts)

theorem join_recordStatements (record : DependencyRecord) :
    String.join ((recordStatements style record).map Statement.render) =
      (passageOf style record).text := by
  have lines (names : List String) :
      (names.map fun name => Statement.edge (nodeId record.className) (nodeId name)).map
          Statement.render =
        (names.map fun name => (⟨nodeId record.className, nodeId name⟩ : Edge)).map Edge.line := by
    rw [List.map_map, List.map_map]
    rfl
  unfold recordStatements Passage.text passageOf edgesOf
  rw [List.map_append, List.map_append, List.append_assoc, String.join_append, join_fragments,
    lines, lines, ← List.map_append, ← List.map_append]
  rfl

theorem openText_front (name : String) (records : List DependencyRecord) :
    (front style name records).openText =
      Document.header name ++ String.join (style.legends.map (·.description))
        ++ String.join ((records.map (passageOf style)).map Passage.text) := by
  have passages : String.join ((records.flatMap (recordStatements style)).map Statement.render) =
      String.join ((records.map (passageOf style)).map Passage.text) := by
    induction records with
    | nil => rfl
    | cons record records ih =>
        rw [List.flatMap_cons, List.map_append, String.join_append, join_recordStatements, ih,
          List.map_cons, List.map_cons, String.join_cons]
  have legends : String.join ((style.legends.map fun legend =>
      Statement.fragment legend.description).map Statement.render) =
        String.join (style.legends.map (·.description)) := by
    rw [← join_fragments, List.map_map, List.map_map, List.map_map]
    rfl
  unfold Document.openText front
  rw [List.map_append, String.join_append, legends, passages, String.append_assoc]

end Passages

section External

variable (style : Style) (records : List DependencyRecord)

theorem drawnClusters_eq : drawnClusters style records = externalClusters style records := by
  unfold drawnClusters
  split
  case isTrue => rfl
  case isFalse hidden =>
    have none : records.flatMap style.externalOf = [] := by
      simp [Style.externalOf, hidden]
    rw [externalClusters, none]
    rfl

theorem packages_inFirstOrder (names : List String) :
    InFirstOrder (InPackageAt names) ((Block.ofPackages names).map (·.package)) := by
  have listed : (Block.ofPackages names).map (·.package) = (names.map Name.package).eraseDups := by
    rw [Block.ofPackages, List.map_map]
    exact List.map_id _
  rw [listed]
  exact inFirstOrder_eraseDups_map Name.package names

theorem members_add (cluster : Cluster) (name : String) : (cluster.add name).members =
    if nodeId name ∈ cluster.members then cluster.members
    else cluster.members ++ [nodeId name] := by
  unfold Cluster.add
  simp only [List.contains_iff_mem]
  split <;> rfl

theorem shownAt_concat {names : List String} {last package : String} {i : Nat} {id : String} :
    ShownAt (names ++ [last]) package i id ↔ ShownAt names package i id ∨
      i = names.length ∧ Name.package last = package ∧ nodeId last = id := by
  unfold ShownAt
  constructor
  · rintro ⟨name, held, within, shown⟩
    rcases getElem?_concat_eq_some_iff.mp held with earlier | ⟨atEnd, rfl⟩
    · exact .inl ⟨name, earlier, within, shown⟩
    · exact .inr ⟨atEnd, within, shown⟩
  · rintro (⟨name, earlier, within, shown⟩ | ⟨atEnd, within, shown⟩)
    · exact ⟨name, getElem?_concat_eq_some_iff.mpr (.inl earlier), within, shown⟩
    · exact ⟨last, getElem?_concat_eq_some_iff.mpr (.inr ⟨atEnd, rfl⟩), within, shown⟩

/-- The cluster of a package lists the names of the package that were met so far. -/
theorem ids_inFirstOrder (names : List String) (package : String) :
    InFirstOrder (ShownAt names package) (Block.ofPackage names package).cluster.members := by
  induction names using List.reverseRecOn with
  | nil => exact ⟨by simp [ShownAt, Block.ofPackage, Block.ofNames, Block.cluster], .nil⟩
  | append_singleton names last ih =>
      rw [Block.ofPackage_concat]
      by_cases same : package = Name.package last
      · have bounded : ∀ i id, ShownAt names package i id → i < names.length := by
          rintro i id ⟨name, held, -⟩
          exact (List.getElem?_eq_some_iff.mp held).1
        rw [if_pos same, members_add]
        apply ih.next bounded
        intro i id
        rw [shownAt_concat, same]
        simp [eq_comm]
      · rw [if_neg same]
        apply ih.congr
        intro i id
        rw [shownAt_concat, or_iff_left]
        rintro ⟨-, within, -⟩
        exact same within.symm

end External

section Hidden

variable {style : Style}

/-- Where external dependencies are not drawn, nothing of a record depends on them. -/
theorem recordStatements_withoutExternal (hidden : style.includeExternal = false)
    (record : DependencyRecord) :
    recordStatements style record.withoutExternal = recordStatements style record := by
  simp [recordStatements, Style.externalOf, hidden, Legend.nodeStyle?,
    DependencyRecord.withoutExternal, DependencyRecord.internal]

theorem build_withoutExternal (hidden : style.includeExternal = false) (name : String)
    (records : List DependencyRecord) (packages : PackageIndex) :
    build style name (records.map (·.withoutExternal)) packages =
      build style name records packages := by
  simp [build, hidden, List.flatMap_map, recordStatements_withoutExternal hidden]

end Hidden

theorem gathers_externalClusters (style : Style) (records : List DependencyRecord) :
    Gathers (records.flatMap (drawnExternal style.includeExternal))
      (externalClusters style records) := by
  have clusters : externalClusters style records =
      (Block.ofPackages (records.flatMap (drawnExternal style.includeExternal))).map Block.cluster :=
    foldl_addToClusters _
  rw [clusters]
  constructor
  · rw [List.map_map]
    exact packages_inFirstOrder _
  · intro cluster member
    simp only [Block.ofPackages, List.map_map, List.mem_map] at member
    obtain ⟨package, -, rfl⟩ := member
    exact ids_inFirstOrder _ package

/-- The text of a graph has a line for every dependency that is listed, the external ones only if they
are asked for; else they do not change it. -/
theorem build_draws (style : Style) (name : String) (records : List DependencyRecord)
    (packages : PackageIndex) :
    (∃ layout, (build style name records packages).openText = layout.text name ∧
      Draws style records packages layout) ∧
      (style.includeExternal = false → ∀ others : List DependencyRecord,
        others.map (·.withoutExternal) = records.map (·.withoutExternal) →
          build style name others packages = build style name records packages) := by
  constructor
  · refine ⟨⟨style.legends.map (·.description), records.map (passageOf style),
      tiedBlocks none (bySize (internalClusters packages)),
      tiedBlocks none (bySize (externalClusters style records))⟩, ?_, rfl, ?_, ?_,
      stacked_bySize _, externalClusters style records, gathers_externalClusters style records,
      stacked_bySize _⟩
    · rw [openText_build, openText_front, drawnClusters_eq]
      rfl
    · rw [List.map_map]
      rfl
    · rw [List.map_map]
      rfl
  · intro hidden others alike
    rw [← build_withoutExternal hidden name others, alike, build_withoutExternal hidden]

/-- The library that a class of the shop refers to does not show where it is not asked for. -/
theorem shopRecords_drawn :
    let bare := shopRecords.map (·.withoutExternal)
    let packages := PackageIndex.ofRecords shopRecords []
    bare ≠ shopRecords ∧
      (∃ layout, (build { includeExternal := false } "deps" shopRecords packages).openText =
          layout.text "deps" ∧
        Draws { includeExternal := false } shopRecords packages layout) ∧
      build { includeExternal := false } "deps" bare packages =
        build { includeExternal := false } "deps" shopRecords packages := by
  intro bare packages
  have drawn := build_draws { includeExternal := false } "deps" shopRecords packages
  exact ⟨by decide, drawn.1, drawn.2 rfl bare rfl⟩

end Graph

end ClassAtlas
