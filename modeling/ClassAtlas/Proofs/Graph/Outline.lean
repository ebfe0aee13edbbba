import ClassAtlas.Graph.Build
import ClassAtlas.Proofs.FirstOccurrence
import ClassAtlas.Proofs.Graph.Lexer

/-!
What a graph without legends shows: its name, its edges, and for each package the leaf names of its
members. No name is escaped in the text of the graph. Main statement: the text is read back as the graph
exactly if every name that is shown can stand in quotes as it is.
-/

namespace ClassAtlas.Graph

open Lexer

/-- A package with the leaf names of its members, each once. -/
structure Block where
  package : String
  leaves : List String
  deriving Repr, DecidableEq

namespace Block

def ofNames (package : String) (names : List String) : Block :=
  ⟨package, (names.map Name.leaf).eraseDups⟩

def cluster (block : Block) : Cluster :=
  ⟨block.package, block.leaves.map quote⟩

/-- The smaller blocks first; blocks of one size stay in their order. -/
def bySize (blocks : List Block) : List Block :=
  blocks.mergeSort fun a b => a.leaves.length ≤ b.leaves.length

def Readable (block : Block) : Prop :=
  Quotable block.package ∧ ∀ leaf ∈ block.leaves, Quotable leaf

/-- The block of a package, with those of the names that are in it. -/
def ofPackage (names : List String) (package : String) : Block :=
  ofNames package (names.filter (Name.package · = package))

/-- The blocks of names, in the order of the first names of their packages. -/
def ofPackages (names : List String) : List Block :=
  (names.map Name.package).eraseDups.map (ofPackage names)

end Block

/-- What a graph shows. -/
structure Outline where
  name : String
  edges : List (String × String)
  internal : List Block
  external : List Block
  deriving Repr, DecidableEq

namespace Outline

def ofRecords (includeExternal : Bool) (name : String) (records : List DependencyRecord)
    (packages : PackageIndex) : Outline :=
  let externalOf := Style.externalOf { includeExternal }
  { name
    edges := records.flatMap fun record =>
      (record.internal ++ externalOf record).map fun dependency =>
        (Name.leaf record.className, Name.leaf dependency)
    internal := Block.bySize (packages.toList.map fun group => Block.ofNames group.name group.members)
    external := Block.bySize (Block.ofPackages (records.flatMap externalOf)) }

def document (outline : Outline) : Document :=
  { name := outline.name
    statements :=
      outline.edges.map (fun edge => .edge (quote edge.1) (quote edge.2))
        ++ chain none (outline.internal.map Block.cluster)
        ++ chain none (outline.external.map Block.cluster) }

def Readable (outline : Outline) : Prop :=
  Quotable outline.name ∧
    (∀ edge ∈ outline.edges, Quotable edge.1 ∧ Quotable edge.2) ∧
    (∀ block ∈ outline.internal, block.Readable) ∧ ∀ block ∈ outline.external, block.Readable

end Outline

section Building

theorem quote_injective : Function.Injective quote := by
  intro one other same
  have chars := congrArg String.toList same
  rw [toList_quote, toList_quote] at chars
  exact String.toList_inj.mp (by simpa using chars)

theorem nodeId_eq (name : String) : nodeId name = quote (Name.leaf name) :=
  rfl

theorem Block.ofNames_concat (package : String) (names : List String) (last : String) :
    (ofNames package (names ++ [last])).cluster = (ofNames package names).cluster.add last := by
  have present : (ofNames package names).cluster.members.contains (nodeId last) =
      decide (Name.leaf last ∈ (names.map Name.leaf).eraseDups) := by
    simp [cluster, ofNames, nodeId_eq, quote_injective.eq_iff]
  simp only [Cluster.add, present, decide_eq_true_eq]
  rw [ofNames, List.map_append, List.map_singleton, eraseDups_concat]
  split
  case isTrue => rfl
  case isFalse => simp [cluster, ofNames, nodeId_eq]

theorem Block.cluster_ofNames (package : String) (names : List String) :
    (ofNames package names).cluster = Cluster.ofNames package names := by
  induction names using List.reverseRecOn with
  | nil => rfl
  | append_singleton names last ih =>
      rw [ofNames_concat, ih]
      simp [Cluster.ofNames]

theorem Block.ofPackage_concat (names : List String) (last package : String) :
    (ofPackage (names ++ [last]) package).cluster =
      if package = Name.package last then (ofPackage names package).cluster.add last
      else (ofPackage names package).cluster := by
  by_cases same : package = Name.package last
  · rw [if_pos same, ofPackage, List.filter_append]
    simp only [same, decide_true, List.filter_cons_of_pos, List.filter_nil]
    exact ofNames_concat ..
  · simp [ofPackage, same, Ne.symm same]

theorem Block.ofPackage_absent {names : List String} {package : String}
    (absent : package ∉ (names.map Name.package).eraseDups) :
    (ofPackage names package).cluster = Cluster.ofNames package [] := by
  have none : names.filter (Name.package · = package) = [] := by
    rw [List.filter_eq_nil_iff]
    intro name member same
    exact absent (List.mem_eraseDups.mpr (List.mem_map.mpr ⟨name, member, of_decide_eq_true same⟩))
  rw [ofPackage, none]
  rfl

theorem addToClusters_map {packages : List String} {f : String → Cluster}
    (named : ∀ package, (f package).package = package) (name : String) :
    addToClusters (packages.map f) name =
      if Name.package name ∈ packages then
        packages.map fun package =>
          if package = Name.package name then (f package).add name else f package
      else packages.map f ++ [Cluster.ofNames (Name.package name) [name]] := by
  have found : (packages.map f).any (·.package == Name.package name) =
      decide (Name.package name ∈ packages) := by
    simp [List.any_map, Function.comp_def, named, List.any_beq']
  simp only [addToClusters, found, decide_eq_true_eq, List.map_map, Function.comp_def, named, beq_iff_eq]

theorem foldl_addToClusters (names : List String) :
    names.foldl addToClusters [] = (Block.ofPackages names).map Block.cluster := by
  induction names using List.reverseRecOn with
  | nil => rfl
  | append_singleton names last ih =>
      rw [List.foldl_append, ih, List.foldl_cons, List.foldl_nil, Block.ofPackages, List.map_map,
        addToClusters_map (fun _ => rfl), Block.ofPackages, List.map_map, List.map_append,
        List.map_singleton, eraseDups_concat]
      simp only [Function.comp_def, Block.ofPackage_concat]
      split
      case isTrue => rfl
      case isFalse absent =>
        rw [List.map_append, List.map_singleton, if_pos rfl, Block.ofPackage_absent absent]
        refine congrArg₂ (· ++ ·) (List.map_congr_left ?_) rfl
        intro package member
        have other : package ≠ Name.package last := fun same => absent (same ▸ member)
        rw [if_neg other]

theorem Block.cluster_bySize (blocks : List Block) :
    clusterBlocks (blocks.map cluster) = chain none ((bySize blocks).map cluster) := by
  unfold clusterBlocks bySize
  rw [List.map_mergeSort]
  intro a _ b _
  simp [cluster]

variable (includeExternal : Bool) (name : String) (records : List DependencyRecord)
  (packages : PackageIndex)

theorem recordStatements_eq : recordStatements { includeExternal } = fun record =>
    (record.internal ++ Style.externalOf { includeExternal } record).map fun dependency =>
      .edge (quote (Name.leaf record.className)) (quote (Name.leaf dependency)) := by
  funext record
  simp [recordStatements, nodeId_eq]

theorem externalOf_off : Style.externalOf { includeExternal := false } = fun _ => [] := by
  funext record
  simp [Style.externalOf]

theorem externalBlocks_eq : (if includeExternal then
      clusterBlocks (externalClusters { includeExternal } records) else []) =
    chain none ((Outline.ofRecords includeExternal name records packages).external.map
      Block.cluster) := by
  cases includeExternal with
  | true =>
      rw [if_pos rfl, externalClusters, foldl_addToClusters, Block.cluster_bySize]
      rfl
  | false =>
      have none_drawn : records.flatMap (Style.externalOf { includeExternal := false }) = [] := by
        simp [externalOf_off]
      simp [Outline.ofRecords, none_drawn, Block.ofPackages, Block.bySize, chain]

theorem build_eq : build { includeExternal } name records packages =
    (Outline.ofRecords includeExternal name records packages).document := by
  have edges : records.flatMap (recordStatements { includeExternal }) =
      (Outline.ofRecords includeExternal name records packages).edges.map
        fun edge => .edge (quote edge.1) (quote edge.2) := by
    simp [Outline.ofRecords, recordStatements_eq, List.map_flatMap, Function.comp_def]
  have internal : internalClusters packages =
      (packages.toList.map fun group => Block.ofNames group.name group.members).map Block.cluster := by
    simp [internalClusters, Block.cluster_ofNames]
  rw [build, edges, internal, Block.cluster_bySize,
    externalBlocks_eq includeExternal name records packages]
  rfl

end Building

section Tokens

/-- A setting of a graph, a node or an edge, with the sign after it. -/
def setting (key : String) (value : Token) (after : Char) : List Token :=
  [.word key, .symbol '=', value, .symbol after]

/-- What opens a graph after its name. -/
def graphSettings : List Token :=
  List.flatten
    [[.symbol '\x7b'],
      setting "compound" (.quoted "true") ';',
      setting "rankdir" (.quoted "TB") ';',
      [.word "node", .symbol '['],
      setting "shape" (.word "box") ',',
      setting "fontsize" (.word "8") ',',
      setting "height" (.word ".1") ',',
      setting "width" (.word ".1") ']',
      [.symbol ';']]

def headerTokens (name : String) : List Token :=
  [.word "digraph", .quoted name] ++ graphSettings

def edgeTokens (edge : String × String) : List Token :=
  [.quoted edge.1, .arrow, .quoted edge.2, .symbol ';']

def memberToken (leaf : String) : List Token :=
  [.quoted leaf, .symbol ';']

/-- The edge from the first member of the nearest block above that has one. -/
def linkTokens (package member above : String) : List Token :=
  List.flatten
    [[.quoted above, .arrow, .quoted member, .symbol '['],
      setting "lhead" (.quoted ("cluster_" ++ package)) ',',
      setting "style" (.quoted "invis") ']',
      [.symbol ';']]

def memberTokens (package : String) (above : Option String) : List String → List Token
  | [] => []
  | first :: others =>
    memberToken first ++ (above.map (linkTokens package first)).getD [] ++ others.flatMap memberToken

/-- What opens a block after its id. -/
def blockSettings : List Token :=
  List.flatten
    [[.symbol '\x7b'],
      setting "rankdir" (.quoted "TB") ';',
      setting "fontsize" (.word "8") ';',
      [.word "label", .symbol '=']]

def blockTokens (above : Option String) (block : Block) : List Token :=
  [.word "subgraph", .quoted ("cluster_" ++ block.package)] ++ blockSettings
    ++ [.quoted block.package, .symbol ';']
    ++ memberTokens block.package above block.leaves ++ [.symbol '\x7d']

def chainTokens (above : Option String) : List Block → List Token
  | [] => []
  | block :: blocks =>
    blockTokens above block ++ chainTokens (block.leaves.head?.or above) blocks

def Outline.tokens (outline : Outline) : List Token :=
  headerTokens outline.name ++ outline.edges.flatMap edgeTokens
    ++ chainTokens none outline.internal ++ chainTokens none outline.external ++ [.symbol '\x7d']

end Tokens

section Reading

open ReadsIff

theorem reads_header (name : String) :
    ReadsIff (Document.header name) (headerTokens name) (Quotable name) := by
  have begun : ReadsIff "digraph " [.word "digraph"] True := fixed (by decide +kernel)
  have reads := (begun.append_quoted name).append_fixed
    " \x7b\n\tcompound=\"true\";rankdir=\"TB\";\n\tnode[shape=box, fontsize=8, height=.1, width=.1];\n"
    graphSettings (by rw [String.toList_ofList]; decide +kernel)
  apply reads.regroup
  · simp [Document.header, quote]
  · rfl
  · simp

theorem reads_edge (edge : String × String) :
    ReadsIff (Statement.edge (quote edge.1) (quote edge.2)).render (edgeTokens edge)
      (Quotable edge.1 ∧ Quotable edge.2) := by
  have begun : ReadsIff "\t" [] True := fixed (by decide +kernel)
  have source := (begun.append_quoted edge.1).append_fixed " -> " [.arrow] (by decide +kernel)
  have reads := (source.append_quoted edge.2).append_fixed ";\n" [.symbol ';'] (by decide +kernel)
  exact reads.congr (by simp)

theorem quotable_cluster (package : String) :
    Quotable ("cluster_" ++ package) ↔ Quotable package :=
  quotable_append (by decide +kernel)

theorem reads_member (leaf : String) :
    ReadsIff (quote leaf ++ ";") (memberToken leaf) (Quotable leaf) :=
  (quoted leaf).append_fixed ";" [.symbol ';'] (by decide +kernel)

theorem reads_link (package member above : String) :
    ReadsIff (link package (quote member) (quote above)) (linkTokens package member above)
      (Quotable above ∧ Quotable member ∧ Quotable package) := by
  have begun : ReadsIff "\n\t" [] True := fixed (by decide +kernel)
  have source := (begun.append_quoted above).append_fixed " -> " [.arrow] (by decide +kernel)
  have target := (source.append_quoted member).append_fixed "[lhead="
    [.symbol '[', .word "lhead", .symbol '='] (by decide +kernel)
  have reads := (target.append_quoted ("cluster_" ++ package)).append_fixed ", style=\"invis\"];"
    (.symbol ',' :: setting "style" (.quoted "invis") ']' ++ [.symbol ';']) (by decide +kernel)
  apply reads.regroup
  · simp [link, quote]
  · rfl
  · simp [quotable_cluster, and_assoc]

/-- The members and the link of a block that stands below a name that can be read. -/
theorem reads_members {package : String} {above : Option String} (readable : Quotable package)
    (aboveReadable : ∀ name ∈ above, Quotable name) (leaves : List String) :
    ReadsIff (memberList package (above.map quote) (leaves.map quote))
      (memberTokens package above leaves) (∀ leaf ∈ leaves, Quotable leaf) := by
  cases leaves with
  | nil => exact empty.congr (by simp)
  | cons first others =>
      have linked : Quotable first →
          ReadsIff (((above.map quote).map (link package (quote first))).getD "")
            ((above.map (linkTokens package first)).getD []) True := by
        intro firstReadable
        cases above with
        | none => exact empty
        | some name =>
            have reads := reads_link package first name
            exact reads.congr (iff_true_intro ⟨aboveReadable name rfl, firstReadable, readable⟩)
      have rest : ReadsIff (String.join (others.map fun leaf => quote leaf ++ ";"))
          (others.flatMap memberToken) (∀ leaf ∈ others, Quotable leaf) :=
        join fun leaf _ => reads_member leaf
      have reads := ((reads_member first).append linked).append fun _ => rest
      apply reads.regroup
      · simp [memberList, Function.comp_def]
      · rfl
      · simp

theorem reads_block {above : Option String} (aboveReadable : ∀ name ∈ above, Quotable name)
    (block : Block) :
    ReadsIff (Statement.cluster block.cluster (above.map quote)).render (blockTokens above block)
      block.Readable := by
  have begun : ReadsIff "\tsubgraph " [.word "subgraph"] True := fixed (by decide +kernel)
  have opened := (begun.append_quoted ("cluster_" ++ block.package)).append_fixed
    " \x7b\n\t\trankdir=\"TB\";fontsize=8;label = " blockSettings (by decide +kernel)
  have labelled := (opened.append_quoted block.package).append_fixed ";\n\t\t" [.symbol ';']
    (by decide +kernel)
  have filled := labelled.append fun readable =>
    reads_members readable.2 aboveReadable block.leaves
  have reads := filled.append_fixed "\n\t\x7d\n" [.symbol '\x7d'] (by decide +kernel)
  apply reads.regroup
  · unfold Statement.render
    simp [Block.cluster, quote]
  · simp [blockTokens]
  · simp [quotable_cluster, Block.Readable]

theorem head?_cluster (block : Block) (above : Option String) :
    block.cluster.members.head?.or (above.map quote) = (block.leaves.head?.or above).map quote := by
  simp [Block.cluster, Option.map_or]

theorem Block.Readable.below {block : Block} (readable : block.Readable) {above : Option String}
    (aboveReadable : ∀ name ∈ above, Quotable name) :
    ∀ name ∈ block.leaves.head?.or above, Quotable name := by
  intro name nearest
  cases first : block.leaves.head? with
  | none =>
      rw [first, Option.none_or] at nearest
      exact aboveReadable name nearest
  | some leaf =>
      rw [first, Option.some_or] at nearest
      rw [← Option.some.inj nearest]
      exact readable.2 leaf (List.mem_of_head? first)

theorem reads_chain (above : Option String) (blocks : List Block)
    (aboveReadable : ∀ name ∈ above, Quotable name) :
    ReadsIff (String.join ((chain (above.map quote) (blocks.map Block.cluster)).map Statement.render))
      (chainTokens above blocks) (∀ block ∈ blocks, block.Readable) := by
  induction blocks generalizing above with
  | nil => exact empty.congr (by simp)
  | cons block blocks ih =>
      have reads := (reads_block aboveReadable block).append fun readable =>
        ih _ (readable.below aboveReadable)
      rw [List.map_cons, chain, List.map_cons, String.join_cons, head?_cluster]
      exact reads.congr List.forall_mem_cons.symm

theorem reads_document (outline : Outline) :
    ReadsIff outline.document.text outline.tokens outline.Readable := by
  have edges : ReadsIff (String.join (outline.edges.map fun edge =>
      (Statement.edge (quote edge.1) (quote edge.2)).render)) (outline.edges.flatMap edgeTokens) _ :=
    join fun edge _ => reads_edge edge
  have internal := reads_chain none outline.internal (by simp)
  have external := reads_chain none outline.external (by simp)
  have clusters := (((reads_header outline.name).append fun _ => edges).append
    fun _ => internal).append fun _ => external
  have reads := clusters.append_fixed "\x7d" [.symbol '\x7d'] (by decide +kernel)
  apply reads.regroup
  · simp [Document.text, Document.openText, Outline.document, Function.comp_def]
  · rfl
  · simp [Outline.Readable, and_assoc]

end Reading

/-- Every name that the graph of the records shows can stand in quotes as it is. -/
structure NamesQuotable (includeExternal : Bool) (name : String) (records : List DependencyRecord)
    (packages : PackageIndex) : Prop where
  graph : Quotable name
  edges : ∀ record ∈ records,
    ∀ dependency ∈ record.internal ++ Style.externalOf { includeExternal } record,
      Quotable (Name.leaf record.className) ∧ Quotable (Name.leaf dependency)
  groups : ∀ group ∈ packages.toList,
    Quotable group.name ∧ ∀ member ∈ group.members, Quotable (Name.leaf member)
  external : ∀ record ∈ records, ∀ dependency ∈ Style.externalOf { includeExternal } record,
    Quotable (Name.package dependency)

section Names

theorem Block.mem_bySize {block : Block} {blocks : List Block} :
    block ∈ bySize blocks ↔ block ∈ blocks :=
  List.mem_mergeSort

theorem Block.readable_ofNames {package : String} {names : List String} :
    (ofNames package names).Readable ↔
      Quotable package ∧ ∀ name ∈ names, Quotable (Name.leaf name) := by
  simp [Readable, ofNames]

theorem Block.readable_ofPackages {names : List String} :
    (∀ block ∈ ofPackages names, block.Readable) ↔
      ∀ name ∈ names, Quotable (Name.package name) ∧ Quotable (Name.leaf name) := by
  simp only [ofPackages, List.forall_mem_map, List.mem_eraseDups, ofPackage, readable_ofNames,
    List.mem_filter, decide_eq_true_eq]
  constructor
  · intro blocks name member
    obtain ⟨package, leaves⟩ := blocks name member
    exact ⟨package, leaves name ⟨member, rfl⟩⟩
  · intro each name member
    refine ⟨(each name member).1, ?_⟩
    intro other inPackage
    exact (each other inPackage.1).2

variable {includeExternal : Bool} {name : String} {records : List DependencyRecord}
  {packages : PackageIndex}

theorem readable_ofRecords_iff :
    (Outline.ofRecords includeExternal name records packages).Readable ↔
      NamesQuotable includeExternal name records packages := by
  unfold Outline.Readable
  simp only [Outline.ofRecords, List.forall_mem_flatMap, List.forall_mem_map, Block.mem_bySize,
    Block.readable_ofNames, Block.readable_ofPackages]
  constructor
  · intro quotable
    obtain ⟨graph, edges, groups, external⟩ := quotable
    refine ⟨graph, edges, groups, ?_⟩
    intro record member dependency drawn
    exact (external record member dependency drawn).1
  · intro quotable
    refine ⟨quotable.graph, quotable.edges, quotable.groups, ?_⟩
    intro record member dependency drawn
    -- the leaf of an external dependency is shown by its edge too
    have edge := quotable.edges record member dependency (List.mem_append_right _ drawn)
    exact ⟨quotable.external record member dependency drawn, edge.2⟩

end Names

/-- The text of a graph is read back as what the graph shows exactly if every name in it can stand in
quotes as it is: no quote in it, and no backslash at its end. -/
theorem build_reads_iff (includeExternal : Bool) (name : String) (records : List DependencyRecord)
    (packages : PackageIndex) :
    tokens? (build { includeExternal } name records packages).text =
        some (Outline.ofRecords includeExternal name records packages).tokens ↔
      NamesQuotable includeExternal name records packages := by
  rw [build_eq, (reads_document _).tokens?_eq_some_iff, readable_ofRecords_iff]

/-- The quote in a class name ends its id, and from there on the text cannot be read. -/
theorem quote_in_name_unreadable :
    let record := DependencyRecord.ofClass "shop/Say\"Hi" [] []
    tokens? (build { includeExternal := false } "deps" [record]
      (PackageIndex.ofRecords [record] [])).text = none := by
  intro record
  have text : (build { includeExternal := false } "deps" [record]
      (PackageIndex.ofRecords [record] [])).text = Document.header "deps"
        ++ "\tsubgraph \"cluster_shop\" \x7b\n\t\trankdir=\"TB\";fontsize=8;label = \"shop\";\n"
        ++ "\t\t\"Say\"Hi\";\n\t\x7d\n\x7d" := by
    decide +kernel
  have header := (reads_header "deps").scan_eq (by decide +kernel)
  rw [text, tokens?, String.toList_append, String.toList_append, List.append_assoc,
    tokensFrom_append header, String.toList_ofList, String.toList_ofList]
  decide +kernel

end ClassAtlas.Graph
