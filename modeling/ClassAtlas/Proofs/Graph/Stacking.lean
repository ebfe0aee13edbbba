import ClassAtlas.Proofs.Graph.Outline
import ClassAtlas.Proofs.Package.Grouping
import ClassAtlas.Proofs.Text.Cut

/-!
How the clusters of a graph are stacked. The blocks stand by ascending number of members, and clusters
of one size stay in their order; each cluster that has members is tied to the nearest one above it
that has any. Main statement: this holds of whatever clusters are added to a document, and of the
internal and the external clusters of a graph, each for themselves; and the internal ones stand as
their packages do.
-/

namespace ClassAtlas.Graph

/-- An invisible edge between the first members of two clusters, which heads for the second one. -/
structure Tie where
  source : String
  target : String
  package : String
  deriving Repr, DecidableEq

def Tie.text (tie : Tie) : String :=
  "\n\t" ++ tie.source ++ " -> " ++ tie.target ++ "[lhead=\"cluster_" ++ tie.package
    ++ "\", style=\"invis\"];"

/-- The block of a cluster with the edge that is written in it. -/
structure TiedBlock where
  cluster : Cluster
  tie : Option Tie
  deriving Repr, DecidableEq

namespace TiedBlock

def hasMembers (block : TiedBlock) : Bool :=
  !block.cluster.members.isEmpty

/-- The members; the edge stands behind the first. -/
def listing (block : TiedBlock) : String :=
  match block.cluster.members with
  | [] => ""
  | first :: others =>
    first ++ ";" ++ (block.tie.map Tie.text).getD "" ++ String.join (others.map (· ++ ";"))

def text (block : TiedBlock) : String :=
  "\tsubgraph \"cluster_" ++ block.cluster.package
    ++ "\" \x7b\n\t\trankdir=\"TB\";fontsize=8;label = \"" ++ block.cluster.package ++ "\";\n\t\t"
    ++ block.listing ++ "\n\t\x7d\n"

end TiedBlock

def blocksText (blocks : List TiedBlock) : String :=
  String.join (blocks.map TiedBlock.text)

/-- The blocks are those of the clusters, in their order by size and tied to each other. -/
structure Stacked (clusters : List Cluster) (blocks : List TiedBlock) : Prop where
  each : (blocks.map (·.cluster)).Perm clusters
  ascending : (blocks.map (·.cluster)).Pairwise fun upper lower =>
    upper.members.length ≤ lower.members.length
  stable : ∀ size, (blocks.map (·.cluster)).filter (·.members.length = size) =
    clusters.filter (·.members.length = size)
  empty : ∀ block ∈ blocks, block.hasMembers = false → block.tie = none
  top : ∀ block, (blocks.filter (·.hasMembers)).head? = some block → block.tie = none
  next : ∀ i upper lower, (blocks.filter (·.hasMembers))[i]? = some upper →
    (blocks.filter (·.hasMembers))[i + 1]? = some lower →
      ∃ tie, lower.tie = some tie ∧ upper.cluster.members.head? = some tie.source ∧
        lower.cluster.members.head? = some tie.target ∧ lower.cluster.package = tie.package
  count : (blocks.filterMap (·.tie)).length = (blocks.filter (·.hasMembers)).length - 1

section Tying

/-- The edge to a cluster below a member. -/
def tieTo? (above : Option String) (cluster : Cluster) : Option Tie := do
  return ⟨← above, ← cluster.members.head?, cluster.package⟩

/-- The blocks of clusters below a member. -/
def tiedBlocks (above : Option String) : List Cluster → List TiedBlock
  | [] => []
  | c :: clusters => ⟨c, tieTo? above c⟩ :: tiedBlocks (c.members.head?.or above) clusters

theorem render_cluster (c : Cluster) (above : Option String) :
    (Statement.cluster c above).render = TiedBlock.text ⟨c, tieTo? above c⟩ := by
  obtain ⟨package, members⟩ := c
  unfold Statement.render TiedBlock.text TiedBlock.listing
  cases members with
  | nil => rfl
  | cons first others => cases above <;> rfl

theorem join_chain (above : Option String) (clusters : List Cluster) :
    String.join ((chain above clusters).map Statement.render) =
      blocksText (tiedBlocks above clusters) := by
  unfold blocksText
  induction clusters generalizing above with
  | nil => rfl
  | cons c clusters ih =>
    rw [chain, tiedBlocks, List.map_cons, List.map_cons, String.join_cons, String.join_cons, ih,
      render_cluster]

@[simp] theorem clusters_tiedBlocks (above : Option String) (clusters : List Cluster) :
    (tiedBlocks above clusters).map (·.cluster) = clusters := by
  induction clusters generalizing above with
  | nil => rfl
  | cons c clusters ih => rw [tiedBlocks, List.map_cons, ih]

theorem length_tiedBlocks (above : Option String) (clusters : List Cluster) :
    (tiedBlocks above clusters).length = clusters.length := by
  rw [← clusters_tiedBlocks above clusters, List.length_map, clusters_tiedBlocks]

theorem tieTo?_empty (above : Option String) {c : Cluster} (empty : c.members = []) :
    tieTo? above c = none := by
  cases above <;> simp [tieTo?, empty]

theorem tie_of_empty {above : Option String} {clusters : List Cluster} {block : TiedBlock}
    (member : block ∈ tiedBlocks above clusters) (empty : block.cluster.members = []) :
    block.tie = none := by
  induction clusters generalizing above with
  | nil => cases member
  | cons c clusters ih =>
    rcases List.mem_cons.mp member with rfl | later
    · exact tieTo?_empty above empty
    · exact ih later

/-- An empty cluster is passed over: the blocks that have members are tied as if they were alone. -/
theorem filter_tiedBlocks (above : Option String) (clusters : List Cluster) :
    (tiedBlocks above clusters).filter (·.hasMembers) =
      tiedBlocks above (clusters.filter (!·.members.isEmpty)) := by
  induction clusters generalizing above with
  | nil => rfl
  | cons c clusters ih =>
    rw [tiedBlocks]
    cases members : c.members with
    | nil =>
      have skipped : TiedBlock.hasMembers ⟨c, tieTo? above c⟩ = false := by
        simp [TiedBlock.hasMembers, members]
      rw [List.filter_cons_of_neg (by rw [skipped]; exact Bool.false_ne_true),
        List.filter_cons_of_neg (by simp [members]), ih]
      rfl
    | cons first others =>
      rw [List.filter_cons_of_pos (by simp [TiedBlock.hasMembers, members]),
        List.filter_cons_of_pos (by simp [members]), ih, tiedBlocks, members]

variable {clusters : List Cluster}

/-- Where every cluster has members, each is tied to the one right before it. -/
theorem getElem?_tiedBlocks_succ (filled : ∀ c ∈ clusters, c.members ≠ []) (above : Option String)
    (i : Nat) : (tiedBlocks above clusters)[i + 1]? = do
      let upper ← clusters[i]?
      let lower ← clusters[i + 1]?
      return ⟨lower, tieTo? upper.members.head? lower⟩ := by
  induction clusters generalizing above i with
  | nil => rfl
  | cons c clusters ih =>
    obtain ⟨here, later⟩ := List.forall_mem_cons.mp filled
    obtain ⟨first, others, members⟩ := List.exists_cons_of_ne_nil here
    rw [tiedBlocks, List.getElem?_cons_succ]
    cases i with
    | zero =>
      cases clusters with
      | nil => rfl
      | cons next clusters =>
        simp [tiedBlocks, members]
    | succ i => exact ih later _ i

theorem getElem?_tiedBlocks {above : Option String} {i : Nat} {block : TiedBlock}
    (there : (tiedBlocks above clusters)[i]? = some block) : clusters[i]? = some block.cluster := by
  have placed := congrArg (Option.map (·.cluster)) there
  rwa [← List.getElem?_map, clusters_tiedBlocks] at placed

theorem tieTo?_some (above : String) {c : Cluster} (filled : c.members ≠ []) :
    ∃ tie, tieTo? (some above) c = some tie ∧ tie.source = above ∧
      c.members.head? = some tie.target ∧ c.package = tie.package := by
  obtain ⟨first, others, members⟩ := List.exists_cons_of_ne_nil filled
  exact ⟨⟨above, first, c.package⟩, by simp [tieTo?, members], rfl, by rw [members]; rfl, rfl⟩

/-- Every cluster that has members is tied, but for the first if it is below nothing. -/
theorem length_ties (above : Option String) (clusters : List Cluster) :
    ((tiedBlocks above clusters).filterMap (·.tie)).length =
      (clusters.filter (!·.members.isEmpty)).length - if above.isSome then 0 else 1 := by
  induction clusters generalizing above with
  | nil => simp [tiedBlocks]
  | cons c clusters ih =>
    rw [tiedBlocks, List.filterMap_cons]
    cases members : c.members with
    | nil => simp [tieTo?_empty above members, members, ih]
    | cons first others => cases above <;> simp [tieTo?, members, ih]

end Tying

section Sorting

/-- The smaller clusters first. -/
def bySize (clusters : List Cluster) : List Cluster :=
  clusters.mergeSort fun a b => a.members.length ≤ b.members.length

theorem size_le_trans (a b c : Cluster) (one : decide (a.members.length ≤ b.members.length) = true)
    (other : decide (b.members.length ≤ c.members.length) = true) :
    decide (a.members.length ≤ c.members.length) = true :=
  decide_eq_true (Nat.le_trans (of_decide_eq_true one) (of_decide_eq_true other))

theorem size_le_total (a b : Cluster) : (decide (a.members.length ≤ b.members.length) ||
    decide (b.members.length ≤ a.members.length)) = true := by
  simpa using Nat.le_total a.members.length b.members.length

variable (clusters : List Cluster)

theorem bySize_perm : (bySize clusters).Perm clusters :=
  List.mergeSort_perm ..

theorem bySize_ascending :
    (bySize clusters).Pairwise fun upper lower => upper.members.length ≤ lower.members.length :=
  (List.pairwise_mergeSort size_le_trans size_le_total clusters).imp of_decide_eq_true

/-- Clusters of one size are ascending already, so they keep their order. -/
theorem bySize_stable (size : Nat) : (bySize clusters).filter (·.members.length = size) =
    clusters.filter (·.members.length = size) := by
  have alike : (clusters.filter (·.members.length = size)).Pairwise fun a b =>
      decide (a.members.length ≤ b.members.length) = true := by
    apply List.pairwise_of_forall_mem_list
    intro a inA b inB
    have sizeA := of_decide_eq_true (List.mem_filter.mp inA).2
    have sizeB := of_decide_eq_true (List.mem_filter.mp inB).2
    exact decide_eq_true (Nat.le_of_eq (sizeA.trans sizeB.symm))
  have kept := List.sublist_mergeSort size_le_trans size_le_total alike List.filter_sublist
  have within := kept.filter (·.members.length = size)
  simp only [List.filter_filter, Bool.and_self] at within
  exact (within.eq_of_length ((bySize_perm clusters).filter _).length_eq.symm).symm

end Sorting

/-- The blocks of clusters given in any order. -/
theorem stacked_bySize (clusters : List Cluster) :
    Stacked clusters (tiedBlocks none (bySize clusters)) := by
  have filled : ∀ c ∈ (bySize clusters).filter (!·.members.isEmpty), c.members ≠ [] := by
    intro c member
    simpa using (List.mem_filter.mp member).2
  refine ⟨?_, ?_, ?_, ?_, ?_, ?_, ?_⟩
  · rw [clusters_tiedBlocks]
    exact bySize_perm clusters
  · rw [clusters_tiedBlocks]
    exact bySize_ascending clusters
  · intro size
    rw [clusters_tiedBlocks]
    exact bySize_stable clusters size
  · intro block member empty
    exact tie_of_empty member (by simpa [TiedBlock.hasMembers] using empty)
  · intro block first
    rw [filter_tiedBlocks] at first
    cases sorted : (bySize clusters).filter (!·.members.isEmpty) with
    | nil =>
      rw [sorted] at first
      cases first
    | cons c rest =>
      rw [sorted] at first
      cases first
      rfl
  · intro i upper lower here below
    rw [filter_tiedBlocks] at here below
    have isUpper := getElem?_tiedBlocks here
    have isLower := getElem?_tiedBlocks below
    rw [getElem?_tiedBlocks_succ filled, isUpper, isLower] at below
    obtain ⟨first, others, members⟩ :=
      List.exists_cons_of_ne_nil (filled _ (List.mem_of_getElem? isUpper))
    obtain ⟨tie, made, source, target, package⟩ :=
      tieTo?_some first (filled _ (List.mem_of_getElem? isLower))
    refine ⟨tie, ?_, ?_, target, package⟩
    · rw [← made, ← Option.some.inj below, members]
      rfl
    · rw [members, source]
      rfl
  · rw [length_ties, filter_tiedBlocks, length_tiedBlocks]
    rfl

section Text

theorem openText_add (document : Document) (statements : List Statement) :
    (document.add statements).openText =
      document.openText ++ String.join (statements.map Statement.render) := by
  simp [Document.openText, Document.add, String.append_assoc]

theorem join_clusterBlocks (clusters : List Cluster) :
    String.join ((clusterBlocks clusters).map Statement.render) =
      blocksText (tiedBlocks none (bySize clusters)) :=
  join_chain none (bySize clusters)

/-- The document of a graph before its clusters. -/
def front (style : Style) (name : String) (records : List DependencyRecord) : Document where
  name := name
  statements := style.legends.map (fun legend => .fragment legend.description)
    ++ records.flatMap (recordStatements style)

/-- The external clusters that are drawn. -/
def drawnClusters (style : Style) (records : List DependencyRecord) : List Cluster :=
  if style.includeExternal then externalClusters style records else []

theorem build_eq_add (style : Style) (name : String) (records : List DependencyRecord)
    (packages : PackageIndex) : build style name records packages =
      ((front style name records).add (clusterBlocks (internalClusters packages))).add
        (clusterBlocks (drawnClusters style records)) := by
  unfold drawnClusters build
  split
  case isTrue => rfl
  case isFalse => simp [front, Document.add, clusterBlocks, chain]

theorem openText_build (style : Style) (name : String) (records : List DependencyRecord)
    (packages : PackageIndex) : (build style name records packages).openText =
      (front style name records).openText
        ++ blocksText (tiedBlocks none (bySize (internalClusters packages)))
        ++ blocksText (tiedBlocks none (bySize (drawnClusters style records))) := by
  rw [build_eq_add, openText_add, openText_add, join_clusterBlocks, join_clusterBlocks]

end Text

end ClassAtlas.Graph

namespace ClassAtlas

/-- Where the last slash does not open a name, the name is its package and its leaf. -/
theorem Name.eq_package_leaf {name : String} (slash : '/' ∈ name.toList.tail) :
    name = Name.package name ++ "/" ++ Name.leaf name := by
  cases cut : Text.cutLast? '/' name.toList with
  | none => exact absurd (List.mem_of_mem_tail slash) (Text.cutLast?_eq_none_iff.mp cut)
  | some parts =>
    obtain ⟨before, after⟩ := parts
    obtain ⟨whole, last⟩ := Text.eq_of_cutLast? cut
    cases before with
    | nil =>
      rw [whole] at slash
      exact absurd slash last
    | cons first more =>
      unfold Name.package Name.leaf
      rw [cut]
      apply String.toList_inj.mp
      rw [whole]
      simp

namespace Graph

/-- Names of one package that hold a slash behind their first character differ in their leaves. -/
theorem nodup_leaves {package : String} {names : List String} (distinct : names.Nodup)
    (within : ∀ name ∈ names, Name.package name = package)
    (slashes : ∀ name ∈ names, '/' ∈ name.toList.tail) : (names.map Name.leaf).Nodup := by
  apply List.Nodup.map_on _ distinct
  intro one isOne other isOther same
  rw [Name.eq_package_leaf (slashes one isOne), Name.eq_package_leaf (slashes other isOther),
    within one isOne, within other isOther, same]

theorem members_ofNames {names : List String} (distinct : (names.map Name.leaf).Nodup)
    (package : String) : Cluster.ofNames package names = ⟨package, names.map nodeId⟩ := by
  rw [← Block.cluster_ofNames, Block.ofNames, eraseDups_of_nodup distinct, Block.cluster,
    List.map_map]
  rfl

theorem nodup_leaves_ofRecords {sources : List DependencyRecord} {fileTypes : List String}
    {group : PackageGroup} (held : group ∈ (PackageIndex.ofRecords sources fileTypes).toList)
    (slashes : ∀ member ∈ group.members, '/' ∈ member.toList.tail) :
    (group.members.map Name.leaf).Nodup := by
  have listed : InFirstOrder (PackageIndex.MemberAt fileTypes sources group.name) group.members := by
    rw [(PackageIndex.mem_ofRecords.mp held).2]
    exact PackageIndex.members_inFirstOrder
  have within : ∀ name ∈ group.members, Name.package name = group.name := by
    intro name member
    obtain ⟨i, there⟩ := (listed.mem name).mp member
    exact there.package_eq
  exact nodup_leaves listed.nodup within slashes

/-- Where no two members of a package share a leaf, its cluster is as large as the package. -/
theorem bySize_internalClusters {packages : PackageIndex}
    (distinct : ∀ group ∈ packages.toList, (group.members.map Name.leaf).Nodup) :
    bySize (internalClusters packages) =
      packages.byMemberCount.map fun group => ⟨group.name, group.members.map nodeId⟩ := by
  have listed : internalClusters packages =
      packages.toList.map fun group => ⟨group.name, group.members.map nodeId⟩ :=
    List.map_congr_left fun group held => members_ofNames (distinct group held) group.name
  rw [listed, bySize, PackageIndex.byMemberCount, List.map_mergeSort]
  · rfl
  · intro a _ b _
    simp

/-- Whatever clusters are added to a document, their blocks are stacked. In a graph the internal and
the external clusters are stacked each for themselves, the internal ones as their packages are by the
number of members, if the names of the members tell their packages. -/
theorem clusters_stacked :
    (∀ clusters : List Cluster, ∃ blocks, Stacked clusters blocks ∧
      ∀ document : Document, (document.add (clusterBlocks clusters)).openText =
        document.openText ++ blocksText blocks) ∧
    ∀ (style : Style) (name : String) (records : List DependencyRecord) (packages : PackageIndex),
      ∃ internal external, Stacked (internalClusters packages) internal ∧
        Stacked (drawnClusters style records) external ∧
        (build style name records packages).openText =
          (front style name records).openText ++ blocksText internal ++ blocksText external ∧
        ∀ (sources : List DependencyRecord) (fileTypes : List String),
          packages = PackageIndex.ofRecords sources fileTypes →
          (∀ group ∈ packages.toList, ∀ member ∈ group.members, '/' ∈ member.toList.tail) →
            (∀ group ∈ packages.toList, (group.members.map Name.leaf).Nodup) ∧
            internal.map (·.cluster) =
              packages.byMemberCount.map fun group => ⟨group.name, group.members.map nodeId⟩ := by
  constructor
  · intro clusters
    refine ⟨tiedBlocks none (bySize clusters), stacked_bySize clusters, fun document => ?_⟩
    rw [openText_add, join_clusterBlocks]
  · intro style name records packages
    refine ⟨_, _, stacked_bySize _, stacked_bySize _, openText_build style name records packages, ?_⟩
    rintro sources fileTypes rfl slashes
    have distinct : ∀ group ∈ (PackageIndex.ofRecords sources fileTypes).toList,
        (group.members.map Name.leaf).Nodup :=
      fun group held => nodup_leaves_ofRecords held (slashes group held)
    exact ⟨distinct, by rw [clusters_tiedBlocks, bySize_internalClusters distinct]⟩

/-- Two packages, the larger of which is met first. -/
def shopRecords : List DependencyRecord :=
  [.ofClass "shop/Cart" ["shop/Item", "app/Main"] ["lib/Log"], .ofClass "shop/Item" [] [],
    .ofClass "app/Main" [] []]

theorem shopRecords_stacked :
    let packages := PackageIndex.ofRecords shopRecords []
    (∀ group ∈ packages.toList, ∀ member ∈ group.members, '/' ∈ member.toList.tail) ∧
      ∃ internal, Stacked (internalClusters packages) internal ∧
        internal.map (·.cluster) =
          [⟨"app", ["\"Main\""]⟩, ⟨"shop", ["\"Cart\"", "\"Item\""]⟩] := by
  intro packages
  have groups : packages.toList = [⟨"shop", ["shop/Cart", "shop/Item"]⟩, ⟨"app", ["app/Main"]⟩] := by
    decide +kernel
  have slashes : ∀ group ∈ packages.toList, ∀ member ∈ group.members, '/' ∈ member.toList.tail := by
    rw [groups]
    decide +kernel
  obtain ⟨internal, external, stacked, -, -, named⟩ :=
    clusters_stacked.2 { includeExternal := true } "deps" shopRecords packages
  have sorted : packages.byMemberCount =
      [⟨"app", ["app/Main"]⟩, ⟨"shop", ["shop/Cart", "shop/Item"]⟩] := by
    change packages.toList.mergeSort _ = _
    rw [groups]
    simp [List.mergeSort]
  refine ⟨slashes, internal, stacked, ?_⟩
  rw [(named shopRecords [] rfl slashes).2, sorted]
  decide +kernel

end Graph

end ClassAtlas
