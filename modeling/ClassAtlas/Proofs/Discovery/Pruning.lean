import ClassAtlas.Proofs.Discovery.Resources
import ClassAtlas.Proofs.NameSet
import ClassAtlas.Proofs.Outcome
import ClassAtlas.Proofs.Text.Utf8
import Mathlib.Data.List.Infix

/-!
Pruning a walk. A walk leaves out directories before it sees what is in them, by their depth and by
their names. Main statement: that is the same as visiting the whole tree and keeping the files that lie
within the depth and have no excluded name above them or of their own.
-/

namespace ClassAtlas.Discovery

open FileSystem

namespace Sight

/-- The names that lead to what is reported. -/
def names : Sight → List String
  | .file names => names
  | .obstacle names _ => names

/-- What a walk of a scope that has come to `above` reports: what it reaches without an excluded name
on the way. The name of an obstacle itself may be excluded. -/
def Passes (scope : Scope) (above : List String) : Sight → Prop
  | .file names => scope.reaches names ∧
    ∀ level ∈ names.inits, above.length < level.length → scope.excluded level = false
  | .obstacle names _ => scope.reaches names ∧
    ∀ level ∈ names.inits, above.length < level.length → level.length < names.length →
      scope.excluded level = false

instance (scope : Scope) (above : List String) (sight : Sight) : Decidable (Passes scope above sight) :=
  match sight with
  | .file names => inferInstanceAs (Decidable (_ ∧ ∀ level ∈ names.inits, _))
  | .obstacle names _ => inferInstanceAs (Decidable (_ ∧ ∀ level ∈ names.inits, _))

end Sight

section Visits

variable {scope : Scope} {above : List String} {visits : List Visit}

theorem reaches_of_prefix {level names : List String} (shorter : level <+: names)
    (reached : scope.reaches names) : scope.reaches level := by
  unfold Scope.reaches at *
  cases limit : scope.depth with
  | none => rfl
  | some depth =>
      simp only [limit, Option.all_some, decide_eq_true_eq] at reached ⊢
      exact Nat.le_trans shorter.length_le reached

/-! A walk without limits. -/

theorem sightsOf_file (above : List String) (name : String) :
    sightsOf {} above (.file name) = [.file (above ++ [name])] := by
  rw [sightsOf]
  rfl

theorem sightsOf_obstacle (above : List String) (name : String) (cause : Obstacle) :
    sightsOf {} above (.obstacle name cause) = [.obstacle (above ++ [name]) cause] := by
  rw [sightsOf]
  rfl

theorem sightsOf_directory (above : List String) (name : String) (inside : List Visit) :
    sightsOf {} above (.directory name inside) = sights {} (above ++ [name]) inside := by
  rw [sightsOf]
  rfl

mutual

/-- What is reported lies below. -/
theorem below_of_mem_sightsOf (above : List String) (visit : Visit) (sight : Sight)
    (member : sight ∈ sightsOf {} above visit) :
    above <+: sight.names ∧ above.length < sight.names.length := by
  match visit with
  | .file name =>
      rw [sightsOf_file] at member
      cases List.mem_singleton.mp member
      exact ⟨List.prefix_append _ _, by simp [Sight.names]⟩
  | .obstacle name cause =>
      rw [sightsOf_obstacle] at member
      cases List.mem_singleton.mp member
      exact ⟨List.prefix_append _ _, by simp [Sight.names]⟩
  | .directory name inside =>
      rw [sightsOf_directory] at member
      obtain ⟨below, longer⟩ := below_of_mem_sights (above ++ [name]) inside sight member
      rw [List.length_append, List.length_singleton] at longer
      exact ⟨(List.prefix_append _ _).trans below, Nat.lt_of_succ_lt longer⟩

theorem below_of_mem_sights (above : List String) (visits : List Visit) (sight : Sight)
    (member : sight ∈ sights {} above visits) :
    above <+: sight.names ∧ above.length < sight.names.length := by
  match visits with
  | [] =>
      rw [sights] at member
      cases member
  | visit :: rest =>
      rw [sights] at member
      rcases List.mem_append.mp member with first | later
      · exact below_of_mem_sightsOf above visit sight first
      · exact below_of_mem_sights above rest sight later

end

/-- The names on the way that are longer than `above`, the next one apart. -/
theorem forall_levels_iff {name : String} {names : List String} {P : List String → Prop}
    (below : above ++ [name] <+: names) :
    (∀ level ∈ names.inits, above.length < level.length → P level) ↔
      P (above ++ [name]) ∧
        ∀ level ∈ names.inits, (above ++ [name]).length < level.length → P level := by
  have next : (above ++ [name]).length = above.length + 1 := by simp
  constructor
  · intro all
    refine ⟨all _ ((List.mem_inits _ _).mpr below) (by omega), ?_⟩
    intro level member longer
    exact all level member (by omega)
  · rintro ⟨first, later⟩ level member longer
    rcases Nat.eq_or_lt_of_le (next ▸ longer : (above ++ [name]).length ≤ level.length) with same | more
    · have whole := List.prefix_of_prefix_length_le below ((List.mem_inits _ _).mp member) same.le
      exact whole.eq_of_length same ▸ first
    · exact later level member more

/-- One directory further down: it has to be within reach and not excluded itself. -/
theorem passes_below {name : String} {sight : Sight} (below : above ++ [name] <+: sight.names)
    (longer : (above ++ [name]).length < sight.names.length) :
    sight.Passes scope above ↔
      (scope.reaches (above ++ [name]) && !scope.excluded (above ++ [name])) = true ∧
        sight.Passes scope (above ++ [name]) := by
  have nearer : scope.reaches sight.names → scope.reaches (above ++ [name]) := reaches_of_prefix below
  cases sight with
  | file names =>
      simp only [Sight.names] at below nearer
      rw [Sight.Passes, Sight.Passes, forall_levels_iff below, Bool.and_eq_true, Bool.not_eq_true']
      tauto
  | obstacle names cause =>
      simp only [Sight.names] at below nearer longer
      rw [Sight.Passes, Sight.Passes, forall_levels_iff below, Bool.and_eq_true, Bool.not_eq_true']
      tauto

/-- No level is longer than the names themselves. -/
theorem forall_levels_of_length {names : List String} {P : List String → Prop} :
    ∀ level ∈ names.inits, names.length < level.length → P level := by
  intro level member longer
  exact absurd ((List.mem_inits _ _).mp member).length_le (Nat.not_le_of_lt longer)

theorem passes_file (name : String) :
    (Sight.file (above ++ [name])).Passes scope above ↔
      (scope.reaches (above ++ [name]) && !scope.excluded (above ++ [name])) = true := by
  rw [Sight.Passes, forall_levels_iff (List.prefix_refl _), Bool.and_eq_true, Bool.not_eq_true']
  exact and_congr_right fun _ => and_iff_left forall_levels_of_length

theorem passes_obstacle (name : String) (cause : Obstacle) :
    (Sight.obstacle (above ++ [name]) cause).Passes scope above ↔ scope.reaches (above ++ [name]) := by
  rw [Sight.Passes, forall_levels_iff (List.prefix_refl _)]
  refine and_iff_left ⟨?_, forall_levels_of_length⟩
  intro shorter
  exact absurd shorter (Nat.lt_irrefl _)

mutual

theorem sightsOf_eq_filter (scope : Scope) (above : List String) (visit : Visit) :
    sightsOf scope above visit =
      (sightsOf {} above visit).filter fun sight => sight.Passes scope above := by
  match visit with
  | .file name =>
      rw [sightsOf_file, sightsOf, List.filter_cons, List.filter_nil]
      simp only [passes_file, decide_eq_true_eq]
  | .obstacle name cause =>
      rw [sightsOf_obstacle, sightsOf, List.filter_cons, List.filter_nil]
      simp only [passes_obstacle, decide_eq_true_eq]
  | .directory name inside =>
      rw [sightsOf_directory, sightsOf, sights_eq_filter scope (above ++ [name]) inside]
      have further (sight : Sight) (member : sight ∈ sights {} (above ++ [name]) inside) :
          sight.Passes scope above ↔
            (scope.reaches (above ++ [name]) && !scope.excluded (above ++ [name])) = true ∧
              sight.Passes scope (above ++ [name]) :=
        passes_below (below_of_mem_sights _ _ sight member).1 (below_of_mem_sights _ _ sight member).2
      split
      case isTrue entered =>
        apply List.filter_congr
        intro sight member
        rw [decide_eq_decide, further sight member]
        exact (and_iff_right entered).symm
      case isFalse left =>
        symm
        rw [List.filter_eq_nil_iff]
        intro sight member passes
        exact left ((further sight member).mp (of_decide_eq_true passes)).1

/-- Leaving out directories on the way is keeping what passes at the end. -/
theorem sights_eq_filter (scope : Scope) (above : List String) (visits : List Visit) :
    sights scope above visits =
      (sights {} above visits).filter fun sight => sight.Passes scope above := by
  match visits with
  | [] => rw [sights, sights, List.filter_nil]
  | visit :: rest =>
      rw [sights, sights, List.filter_append, sightsOf_eq_filter scope above visit,
        sights_eq_filter scope above rest]

end

end Visits

/-! Trees of directories and regular files. -/

section Trees

/-- Directories and regular files alone. Each directory lists its entries in the order of their
names. -/
inductive Regular : Node → Prop where
  | file (content : List UInt8) (executable : Bool) : Regular (.file content executable)
  | directory {entries : List (String × Node)} (ascending : NameSet.Ascending (entries.map (·.1)))
      (inside : ∀ entry ∈ entries, Regular entry.2) : Regular (.directory entries)

/-- The files of a tree, each by the names that lead to it: a directory's entries follow each other in
the order of the bytes of their names, and what is in one stands before the next. -/
structure ListsFiles (tree : Node) (files : List (List String)) : Prop where
  mem_iff (names : List String) :
    names ∈ files ↔ ∃ content executable, tree.at? names = some (.file content executable)
  ordered : files.Pairwise fun first second => first.map Text.utf8 < second.map Text.utf8

theorem listsFiles_file (content : List UInt8) (executable : Bool) :
    ListsFiles (.file content executable) [[]] := by
  refine ⟨?_, List.pairwise_singleton _ _⟩
  intro names
  cases names with
  | nil => simp [Node.at?]
  | cons name rest => simp [Node.at?, Node.entries]

theorem listsFiles_nil : ListsFiles (.directory []) [] := by
  refine ⟨?_, List.Pairwise.nil⟩
  intro names
  cases names with
  | nil => simp [Node.at?]
  | cons name rest => simp [Node.at?, Node.entries]

/-- What leads to a file of a directory starts with the name of an entry. -/
theorem ListsFiles.exists_entry {entries : List (String × Node)} {files : List (List String)}
    (lists : ListsFiles (.directory entries) files) {names : List String} (member : names ∈ files) :
    ∃ name rest, names = name :: rest ∧ name ∈ entries.map (·.1) := by
  obtain ⟨content, executable, found⟩ := (lists.mem_iff names).mp member
  cases names with
  | nil => cases found
  | cons name rest =>
      obtain ⟨node, entered, -⟩ := Option.bind_eq_some_iff.mp found
      obtain ⟨front, back, split, -⟩ := List.lookup_eq_some_iff.mp entered
      refine ⟨name, rest, rfl, ?_⟩
      change entries = _ at split
      simp [split]

/-- The files of the first entry of a directory, and those of the other entries. -/
theorem listsFiles_cons {name : String} {node : Node} {entries : List (String × Node)}
    {files more : List (List String)} (before : ∀ other ∈ entries.map (·.1), name < other)
    (first : ListsFiles node files) (others : ListsFiles (.directory entries) more) :
    ListsFiles (.directory ((name, node) :: entries)) (files.map (name :: ·) ++ more) := by
  constructor
  · intro names
    rw [List.mem_append]
    cases names with
    | nil =>
        have none : [] ∉ more := by
          intro member
          obtain ⟨_, _, wrong, -⟩ := others.exists_entry member
          cases wrong
        simp [none, Node.at?]
    | cons step rest =>
        have descend (list : List (String × Node)) :
            (Node.directory list).at? (step :: rest) = (list.lookup step).bind (·.at? rest) := rfl
        by_cases same : step = name
        · subst same
          have notLater : (step :: rest) ∉ more := by
            intro member
            obtain ⟨_, _, split, among⟩ := others.exists_entry member
            cases split
            exact String.lt_irrefl _ (before _ among)
          rw [descend, List.lookup_cons_self, Option.bind_some, ← first.mem_iff]
          simp [notLater]
        · rw [others.mem_iff, descend, descend, List.lookup_cons, beq_false_of_ne same]
          simp [Ne.symm same]
  · rw [List.pairwise_append, List.pairwise_map]
    refine ⟨first.ordered.imp fun below => List.Lex.cons below, others.ordered, ?_⟩
    intro earlier fromFirst later fromOthers
    obtain ⟨rest, -, rfl⟩ := List.mem_map.mp fromFirst
    obtain ⟨step, more, rfl, among⟩ := others.exists_entry fromOthers
    exact List.Lex.rel (Text.utf8_lt (before step among))

theorem sights_append (scope : Scope) (above : List String) (visits more : List Visit) :
    sights scope above (visits ++ more) = sights scope above visits ++ sights scope above more := by
  induction visits with
  | nil => rw [List.nil_append, sights, List.nil_append]
  | cons visit rest ih => rw [List.cons_append, sights, sights, ih, List.append_assoc]

/-- The visits of `visit` report the files, in order, below any place, and no obstacle. -/
def Reports (visit : (Stop → String → Option Visit) → Stop → List Visit)
    (files : List (List String)) : Prop :=
  ∀ onLink stop above, sights {} above (visit onLink stop) = files.map fun names => .file (above ++ names)

/-- A walk without limits over the entries of a directory, if one over each of them does so. -/
theorem exists_files_of_entries {entries : List (String × Node)}
    (ascending : NameSet.Ascending (entries.map (·.1)))
    (inside : ∀ entry ∈ entries, ∃ files, ListsFiles entry.2 files ∧
      Reports (fun onLink stop => (visitNode onLink stop entry.1 entry.2).toList)
        (files.map (entry.1 :: ·))) :
    ∃ files, ListsFiles (.directory entries) files ∧
      Reports (fun onLink stop => visitEntries onLink stop entries) files := by
  induction entries with
  | nil =>
      refine ⟨[], listsFiles_nil, ?_⟩
      intro onLink stop above
      dsimp only
      rw [visitEntries, sights, List.map_nil]
  | cons entry entries ih =>
      obtain ⟨name, node⟩ := entry
      obtain ⟨before, ascending⟩ := List.pairwise_cons.mp ascending
      obtain ⟨⟨files, first, reported⟩, inside⟩ := List.forall_mem_cons.mp inside
      obtain ⟨more, others, reportedMore⟩ := ih ascending inside
      refine ⟨_, listsFiles_cons before first others, ?_⟩
      intro onLink stop above
      dsimp only
      rw [visitEntries, sights_append, reported, reportedMore, List.map_append]

/-- A walk without limits reports the files of a tree, in order, and meets no obstacle. -/
theorem Regular.exists_files {node : Node} (regular : Regular node) (name : String) :
    ∃ files, ListsFiles node files ∧
      Reports (fun onLink stop => (visitNode onLink stop name node).toList)
        (files.map (name :: ·)) := by
  induction regular generalizing name with
  | file content executable =>
      refine ⟨[[]], listsFiles_file content executable, ?_⟩
      intro onLink stop above
      dsimp only
      rw [visitNode, Option.toList_some, sights, sights, sightsOf_file]
      rfl
  | @directory entries ascending inside ih =>
      obtain ⟨files, lists, reported⟩ := exists_files_of_entries ascending fun entry member =>
        ih entry member entry.1
      refine ⟨files, lists, ?_⟩
      intro onLink stop above
      dsimp only
      rw [visitNode, Option.toList_some, sights, sights, sightsOf_directory, reported, List.append_nil,
        List.map_map]
      apply List.map_congr_left
      intro names member
      simp

end Trees

/-- A pattern matches the path of names, or the last of them. -/
def Excluded (patterns : List Glob.Pattern) (names : List String) : Prop :=
  ∃ pattern ∈ patterns, pattern.admits (relative names) ∨ ∃ name ∈ names.getLast?, pattern.admits name

/-- At most as many directories stand above a file as the limit allows, and neither one of these nor
the file is excluded. -/
def Kept (maxDepth : Option Nat) (patterns : List Glob.Pattern) (names : List String) : Prop :=
  (∀ limit ∈ maxDepth, names.dropLast.length ≤ limit) ∧
    ∀ level ∈ names.inits, level ≠ [] → ¬ Excluded patterns level

instance (patterns : List Glob.Pattern) (names : List String) : Decidable (Excluded patterns names) :=
  inferInstanceAs (Decidable (∃ pattern ∈ patterns, _))

instance (maxDepth : Option Nat) (patterns : List Glob.Pattern) (names : List String) :
    Decidable (Kept maxDepth patterns names) :=
  inferInstanceAs (Decidable (_ ∧ ∀ level ∈ names.inits, _))

/-- How a file is found: a class by its path without the ending, another file of a type that rules
track as their node. -/
inductive FoundAs (rules : List ResourceRule) (root : String) (names : List String) : Entry → Prop where
  | classFile {name : String} (named : name ≠ "") (path : relative names = name ++ ".class") :
      FoundAs rules root names ⟨name, .classFile (pathOf root names)⟩
  | resource (noClass : ∀ name, name ≠ "" → relative names ≠ name ++ ".class")
      (tracked : Name.hasFileType (relative names) (ResourceRule.extraFileTypes rules)) :
      FoundAs rules root names
        ⟨(ResourceRule.resolve? rules (relative names)).getD (relative names), .resource⟩

def entryAt? (rules : List ResourceRule) (root : String) (names : List String) : Option Entry :=
  entryOfFile? rules (pathOf root names) (relative names)

section Walk

variable {w : World} {s : Settings} {rules : List ResourceRule} {root : String} {place : Place}
  {entries : List (String × Node)} {patterns : List Glob.Pattern}

theorem entryAt?_eq_some_iff {names : List String} {entry : Entry} :
    entryAt? rules root names = some entry ↔ FoundAs rules root names entry := by
  unfold entryAt? entryOfFile?
  cases given : Entry.className? (relative names) with
  | some name =>
      obtain ⟨named, path⟩ := Entry.className?_eq_some_iff.mp given
      constructor
      · intro same
        cases same
        exact .classFile named path
      · intro found
        cases found with
        | classFile other again =>
            rw [Entry.className?_eq_some_iff.mpr ⟨other, again⟩] at given
            cases given
            rfl
        | resource noClass _ => exact absurd path (noClass name named)
  | none =>
      have noClass (name : String) (named : name ≠ "") : relative names ≠ name ++ ".class" := by
        intro path
        rw [Entry.className?_eq_some_iff.mpr ⟨named, path⟩] at given
        cases given
      simp only [Option.ite_none_right_eq_some, Option.some.injEq]
      constructor
      · rintro ⟨tracked, rfl⟩
        exact .resource noClass tracked
      · intro found
        cases found with
        | classFile named path => exact absurd path (noClass _ named)
        | resource _ tracked => exact ⟨tracked, rfl⟩

theorem isExcluded_iff {names : List String} (named : names ≠ []) :
    isExcluded patterns names ↔ Excluded patterns names := by
  obtain ⟨name, last⟩ := Option.ne_none_iff_exists'.mp (mt List.getLast?_eq_none_iff.mp named)
  simp [isExcluded, Excluded, last]

/-- The scope of settings whose limit can be raised by one. -/
theorem scopeOf_eq_ok (representable : ∀ limit ∈ s.maxDepth, limit + 1 < UInt64.size)
    (patterns : List Glob.Pattern) :
    scopeOf s patterns = .ok ⟨s.maxDepth.map (· + 1), isExcluded patterns⟩ := by
  unfold scopeOf
  cases limited : s.maxDepth with
  | none => rfl
  | some limit =>
      have raised : depthLimit limit = .ok (limit + 1) := if_pos (representable limit limited)
      rw [Option.mapM_some, raised]
      rfl

theorem passes_iff_kept (names : List String) :
    (Sight.file names).Passes ⟨s.maxDepth.map (· + 1), isExcluded patterns⟩ [] ↔
      Kept s.maxDepth patterns names := by
  apply and_congr
  · unfold Scope.reaches
    cases s.maxDepth with
    | none => simp
    | some limit => simp
  · refine forall₂_congr fun level member => ?_
    rw [List.length_nil, List.length_pos_iff]
    refine imp_congr_right fun named => ?_
    rw [← isExcluded_iff named, Bool.not_eq_true]

/-- What a walk finds that reports the given files and nothing else. -/
def foundIn (rules : List ResourceRule) (root : String) (files : List (List String)) : Walk :=
  { entries := files.filterMap (entryAt? rules root) }

theorem ofSights_files (rules : List ResourceRule) (root : String) (files : List (List String)) :
    Walk.ofSights rules root (files.map .file) = foundIn rules root files := by
  rw [Walk.ofSights, foundIn, List.filterMap_map, List.filterMap_map]
  congr 1
  rw [List.filterMap_eq_nil_iff]
  intro names member
  rfl

theorem walkDirectory_of_reached {scope : Scope}
    (found : w.stat root = .ok (place, .directory entries))
    (compiled : compilePatterns s.excludePatterns = .ok patterns)
    (bounded : scopeOf s patterns = .ok scope) :
    walkDirectory w s rules root =
      .ok (.ofSights rules root (sights scope [] (visits w s.followLinks root place entries))) := by
  unfold walkDirectory
  simp only [found, compiled]
  change (liftM (scopeOf s patterns) : Except Halt Scope) >>= _ = _
  rw [bounded]
  rfl

/-- A walk reports the files that its settings keep. -/
theorem walkDirectory_eq {files : List (List String)}
    (found : w.stat root = .ok (place, .directory entries))
    (compiled : compilePatterns s.excludePatterns = .ok patterns)
    (representable : ∀ limit ∈ s.maxDepth, limit + 1 < UInt64.size)
    (reported : Reports (fun onLink stop => visitEntries onLink stop entries) files) :
    walkDirectory w s rules root =
      .ok (foundIn rules root (files.filter fun names => Kept s.maxDepth patterns names)) := by
  have kept : sights ⟨s.maxDepth.map (· + 1), isExcluded patterns⟩ []
      (visits w s.followLinks root place entries) =
        (files.filter fun names => Kept s.maxDepth patterns names).map .file := by
    rw [sights_eq_filter, visits, reported, List.filter_map]
    congr 1
    apply List.filter_congr
    intro names member
    exact decide_eq_decide.mpr (passes_iff_kept names)
  have bounded := scopeOf_eq_ok representable patterns
  rw [walkDirectory_of_reached found compiled bounded, kept, ofSights_files]

/-- Settings that exclude no less and go no deeper. -/
structure Narrows (narrow wide : Settings) : Prop where
  patterns : wide.excludePatterns ⊆ narrow.excludePatterns
  depth : ∀ limit ∈ wide.maxDepth, ∃ lower ∈ narrow.maxDepth, lower ≤ limit

theorem subset_of_compilePatterns {texts : List String} {more : List Glob.Pattern}
    (compiled : compilePatterns s.excludePatterns = .ok patterns)
    (compiledMore : compilePatterns texts = .ok more) (listed : s.excludePatterns ⊆ texts) :
    patterns ⊆ more := by
  intro pattern member
  obtain ⟨text, among, compiles⟩ := (mem_of_mapM_eq_ok compiled).mp member
  exact (mem_of_mapM_eq_ok compiledMore).mpr ⟨text, listed among, compiles⟩

theorem Kept.mono {t : Settings} {more : List Glob.Pattern} {names : List String} (narrows : Narrows t s)
    (among : patterns ⊆ more) (kept : Kept t.maxDepth more names) :
    Kept s.maxDepth patterns names := by
  constructor
  · intro limit limited
    obtain ⟨lower, lowered, less⟩ := narrows.depth limit limited
    exact Nat.le_trans (kept.1 lower lowered) less
  · rintro level member named ⟨pattern, listed, matched⟩
    exact kept.2 level member named ⟨pattern, among listed, matched⟩

/-- In a tree of directories and regular files, a walk finds the tracked files of a walk without limits
that lie within the depth and have no excluded name above them or of their own, in the same order.
Excluding more and going less deep only removes entries. -/
theorem walk_filters_files (found : w.stat root = .ok (place, .directory entries))
    (regular : Regular (.directory entries))
    (compiled : compilePatterns s.excludePatterns = .ok patterns)
    (representable : ∀ limit ∈ s.maxDepth, limit + 1 < UInt64.size) :
    ∃ files, ListsFiles (.directory entries) files ∧
      walkDirectory w { s with maxDepth := none, excludePatterns := [] } rules root =
        .ok (foundIn rules root files) ∧
      walkDirectory w s rules root =
        .ok (foundIn rules root (files.filter fun names => Kept s.maxDepth patterns names)) ∧
      (∀ names entry, entryAt? rules root names = some entry ↔ FoundAs rules root names entry) ∧
      ∀ (t : Settings) (more : List Glob.Pattern), Narrows t s →
        compilePatterns t.excludePatterns = .ok more →
        (∀ limit ∈ t.maxDepth, limit + 1 < UInt64.size) →
        ∃ fewer, walkDirectory w t rules root = .ok fewer ∧ fewer.faults = [] ∧
          fewer.entries.Sublist
            (foundIn rules root (files.filter fun names => Kept s.maxDepth patterns names)).entries := by
  cases regular with
  | directory ascending inside =>
      obtain ⟨files, lists, reported⟩ := exists_files_of_entries ascending fun entry member =>
        (inside entry member).exists_files entry.1
      refine ⟨files, lists, ?_, walkDirectory_eq found compiled representable reported,
        fun names entry => entryAt?_eq_some_iff, ?_⟩
      · have all : ∀ names ∈ files, decide (Kept none [] names) = true := by
          intro names member
          simp [Kept, Excluded]
        have whole : walkDirectory w { s with maxDepth := none, excludePatterns := [] } rules root =
            .ok (foundIn rules root (files.filter fun names => Kept none [] names)) :=
          walkDirectory_eq found rfl (by simp) reported
        rw [whole, List.filter_eq_self.mpr all]
      · intro t more narrows compiledMore representableToo
        have among := subset_of_compilePatterns compiled compiledMore narrows.patterns
        refine ⟨_, walkDirectory_eq found compiledMore representableToo reported, rfl, ?_⟩
        apply List.Sublist.filterMap
        apply List.monotone_filter_right
        intro names kept
        exact decide_eq_true (Kept.mono narrows among (of_decide_eq_true kept))

end Walk

/-- Classes at three depths, generated ones among them, and a page. -/
def buildOutput : List (String × Node) :=
  [("a", .directory [("A.class", .file [] false), ("b", .directory [("B.class", .file [] false)])]),
    ("gen", .directory [("G.class", .file [] false)]), ("index.jsp", .file [] false)]

def buildMachine : World where
  root := .directory [("out", .directory buildOutput)]

theorem regular_buildOutput : Regular (.directory buildOutput) := by
  have single (name : String) : Regular (.directory [(name, .file [] false)]) := by
    refine .directory (List.pairwise_singleton _ _) ?_
    intro entry member
    cases List.mem_singleton.mp member
    exact .file _ _
  refine .directory (by unfold NameSet.Ascending; decide) ?_
  simp only [buildOutput, List.forall_mem_cons]
  refine ⟨.directory (by unfold NameSet.Ascending; decide) ?_, single _, .file _ _, ?_⟩
  · simp only [List.forall_mem_cons]
    exact ⟨.file _ _, single _, fun _ member => (List.not_mem_nil member).elim⟩
  · exact fun _ member => (List.not_mem_nil member).elim

theorem buildOutput_filtered :
    Regular (.directory buildOutput) ∧
      ∃ files, ListsFiles (.directory buildOutput) files ∧
        walkDirectory buildMachine { maxDepth := some 1, excludePatterns := ["gen"] } [⟨["jsp"]⟩] "out" =
          .ok (foundIn [⟨["jsp"]⟩] "out" (files.filter fun names =>
            Kept (some 1) [⟨[.char 'g', .char 'e', .char 'n']⟩] names)) := by
  have reached : buildMachine.stat "out" = .ok (["out"], .directory buildOutput) := by rfl
  have small : ∀ limit ∈ some 1, limit + 1 < UInt64.size := by
    intro limit same
    cases same
    decide
  obtain ⟨files, lists, -, walked, -⟩ := walk_filters_files
    (s := { maxDepth := some 1, excludePatterns := ["gen"] }) reached regular_buildOutput (by rfl) small
  exact ⟨regular_buildOutput, files, lists, walked⟩

example :
    (walkDirectory buildMachine { maxDepth := some 1, excludePatterns := ["gen"] } [⟨["jsp"]⟩]
      "out").toOption.map (fun walk => walk.entries.map (·.name)) = some ["a/A", "/index.jsp"] := by
  decide +kernel

end ClassAtlas.Discovery
