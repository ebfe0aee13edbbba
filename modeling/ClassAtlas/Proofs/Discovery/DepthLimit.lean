import ClassAtlas.Proofs.Discovery.Pruning

/-!
Limits on the depth of a walk. What a limited walk finds is what a walk without a limit finds among the
files that have no more directories above them; but the limit is raised by one as a 64-bit word, which
the largest word does not allow. Main statement: a higher limit keeps every entry of a lower one exactly
if it is not the largest, with which a walk breaks off.
-/

namespace ClassAtlas.Discovery

open FileSystem

section Reach

variable {scope : Scope}

theorem passes_iff_reaches {above : List String} {sight : Sight} :
    sight.Passes scope above ↔
      scope.reaches sight.names ∧ sight.Passes { scope with depth := none } above := by
  cases sight with
  | file names => exact and_congr_right fun _ => (and_iff_right rfl).symm
  | obstacle names cause => exact and_congr_right fun _ => (and_iff_right rfl).symm

/-- What a walk with a limit reports is what it reports without one, within its reach. -/
theorem sights_eq_filter_reaches (above : List String) (visits : List Visit) :
    sights scope above visits =
      (sights { scope with depth := none } above visits).filter (scope.reaches ·.names) := by
  rw [sights_eq_filter scope, sights_eq_filter { scope with depth := none }, List.filter_filter]
  apply List.filter_congr
  intro sight member
  rw [Bool.eq_iff_iff, Bool.and_eq_true, decide_eq_true_iff, decide_eq_true_iff]
  exact passes_iff_reaches

end Reach

section Located

variable (rules : List ResourceRule) (root : String)

/-- The entry of what is reported, with the names that lead to it. -/
def located? (sight : Sight) : Option (List String × Entry) :=
  (Walk.entryOf? rules root sight).map (sight.names, ·)

def located (sights : List Sight) : List (List String × Entry) :=
  sights.filterMap (located? rules root)

theorem entries_ofSights (sights : List Sight) :
    (Walk.ofSights rules root sights).entries = (located rules root sights).map (·.2) := by
  rw [located, List.map_filterMap]
  apply List.filterMap_congr
  intro sight member
  rw [located?, Option.map_map]
  exact (Option.map_id_apply ..).symm

theorem located_filter (P : List String → Bool) (sights : List Sight) :
    located rules root (sights.filter (P ·.names)) =
      (located rules root sights).filter (P ·.1) := by
  rw [located, located, List.filterMap_filter, List.filter_filterMap]
  apply List.filterMap_congr
  intro sight member
  rw [located?]
  cases Walk.entryOf? rules root sight with
  | none => simp
  | some entry => simp [Option.filter]

theorem foundAs_of_mem_located {sights : List Sight} {file : List String × Entry}
    (member : file ∈ located rules root sights) : FoundAs rules root file.1 file.2 := by
  obtain ⟨sight, -, located⟩ := List.mem_filterMap.mp member
  obtain ⟨entry, found, rfl⟩ := Option.map_eq_some_iff.mp located
  cases sight with
  | file names => exact entryAt?_eq_some_iff.mp found
  | obstacle names cause => cases found

end Located

/-- Settings with another limit on the depth. -/
def limitedTo (s : Settings) (limit : Option UInt64) : Settings :=
  { s with maxDepth := limit.map UInt64.toNat }

/-- No more directories stand above a file than the limit allows. -/
def Within (limit : UInt64) (file : List String × Entry) : Prop :=
  file.1.dropLast.length ≤ limit.toNat

instance (limit : UInt64) (file : List String × Entry) : Decidable (Within limit file) :=
  inferInstanceAs (Decidable (_ ≤ _))

/-- The limit can still be raised by one. -/
def Raisable (limit : UInt64) : Prop :=
  limit.toNat + 1 < UInt64.size

section Limits

variable {w : World} {s : Settings} {rules : List ResourceRule} {root : String}

/-- What a walk reports has a name. -/
theorem names_ne_nil_of_mem_sights {scope : Scope} {visits : List Visit} {sight : Sight}
    (member : sight ∈ sights scope [] visits) : sight.names ≠ [] := by
  rw [sights_eq_filter] at member
  have below := (below_of_mem_sights [] visits sight (List.mem_filter.mp member).1).2
  exact List.length_pos_iff.mp below

/-- One name more leads to a file than directories stand above it. -/
theorem filter_reaches (limit : UInt64) (excluded : List String → Bool)
    {found : List (List String × Entry)} (named : ∀ file ∈ found, file.1 ≠ []) :
    found.filter (Scope.reaches ⟨some (limit.toNat + 1), excluded⟩ ·.1) =
      found.filter (Within limit) := by
  apply List.filter_congr
  intro file member
  have positive := List.length_pos_iff.mpr (named file member)
  rw [Scope.reaches, Option.all_some, decide_eq_decide, Within, List.length_dropLast]
  omega

section Started

variable {place : Place} {entries : List (String × Node)} {patterns : List Glob.Pattern}

theorem walkDirectory_of_scope {limit : Option UInt64} {scope : Scope}
    (reached : w.stat root = .ok (place, .directory entries))
    (compiled : compilePatterns s.excludePatterns = .ok patterns)
    (bounded : scopeOf (limitedTo s limit) patterns = .ok scope) :
    walkDirectory w (limitedTo s limit) rules root =
      .ok (.ofSights rules root
        ((sights { scope with depth := none } [] (visits w s.followLinks root place entries)).filter
          (scope.reaches ·.names))) := by
  rw [walkDirectory_of_reached (s := limitedTo s limit) reached compiled bounded,
    sights_eq_filter_reaches]
  rfl

/-- The largest limit breaks a walk off. -/
theorem walkDirectory_of_not_raisable (rules : List ResourceRule)
    (reached : w.stat root = .ok (place, .directory entries))
    (compiled : compilePatterns s.excludePatterns = .ok patterns) {limit : UInt64}
    (large : ¬ Raisable limit) :
    walkDirectory w (limitedTo s (some limit)) rules root = .error (.fault .overflow) := by
  have overflow : depthLimit limit.toNat = .error .overflow := if_neg large
  have unbounded : scopeOf (limitedTo s (some limit)) patterns = .error .overflow := by
    unfold scopeOf limitedTo
    rw [Option.map_some, Option.mapM_some, overflow]
    rfl
  unfold walkDirectory
  simp only [reached]
  change (liftM (compilePatterns s.excludePatterns) : Except Halt (List Glob.Pattern)) >>= _ = _
  rw [compiled]
  change (liftM (scopeOf (limitedTo s (some limit)) patterns) : Except Halt Scope) >>= _ = _
  rw [unbounded]
  rfl

/-- The files that a walk finds without a limit decide what it finds with each. -/
theorem walks_of_limits (rules : List ResourceRule)
    (reached : w.stat root = .ok (place, .directory entries))
    (compiled : compilePatterns s.excludePatterns = .ok patterns) :
    ∃ found : List (List String × Entry), (∀ file ∈ found, FoundAs rules root file.1 file.2) ∧
      (∃ all, walkDirectory w (limitedTo s none) rules root = .ok all ∧
        all.entries = found.map (·.2)) ∧
      ∀ limit, Raisable limit →
        ∃ walk, walkDirectory w (limitedTo s (some limit)) rules root = .ok walk ∧
          walk.entries = (found.filter (Within limit)).map (·.2) := by
  let found := located rules root
    (sights { excluded := isExcluded patterns } [] (visits w s.followLinks root place entries))
  have named : ∀ file ∈ found, file.1 ≠ [] := by
    intro file member
    obtain ⟨sight, seen, located⟩ := List.mem_filterMap.mp member
    obtain ⟨entry, -, rfl⟩ := Option.map_eq_some_iff.mp located
    exact names_ne_nil_of_mem_sights seen
  refine ⟨found, fun file => foundAs_of_mem_located rules root,
    ⟨_, walkDirectory_of_scope reached compiled rfl, ?_⟩, fun limit small => ?_⟩
  · rw [entries_ofSights, located_filter]
    exact congrArg _ (List.filter_eq_self.mpr fun _ _ => rfl)
  · have representable : ∀ most ∈ (limitedTo s (some limit)).maxDepth, most + 1 < UInt64.size := by
      intro most same
      cases same
      exact small
    refine ⟨_, walkDirectory_of_scope reached compiled (scopeOf_eq_ok representable patterns), ?_⟩
    rw [entries_ofSights, located_filter]
    exact congrArg _ (filter_reaches limit _ named)

end Started

/-- A walk that cannot start fails in the same way with every limit. -/
theorem walkDirectory_fails_alike
    (unstarted : ¬ ∃ place entries patterns, w.stat root = .ok (place, .directory entries) ∧
      compilePatterns s.excludePatterns = .ok patterns) :
    ∃ failure, ∀ limit,
      walkDirectory w (limitedTo s limit) rules root = .error (.failure failure) := by
  by_cases directory : ∃ place entries, w.stat root = .ok (place, .directory entries)
  · obtain ⟨place, entries, reached⟩ := directory
    cases compiled : compilePatterns s.excludePatterns with
    | ok patterns => exact absurd ⟨place, entries, patterns, reached, compiled⟩ unstarted
    | error failure =>
        refine ⟨failure, fun limit => ?_⟩
        unfold walkDirectory
        simp only [reached]
        change (liftM (compilePatterns s.excludePatterns) : Except Halt _) >>= _ = _
        rw [compiled]
        rfl
  · refine ⟨.invalidPath root, fun limit => ?_⟩
    unfold walkDirectory
    split
    case h_1 place entries reached => exact absurd ⟨place, entries, reached⟩ directory
    case h_2 => rfl

theorem filter_within_mono {low high : UInt64} (le : low ≤ high)
    (found : List (List String × Entry)) :
    (found.filter (Within low)).Sublist (found.filter (Within high)) := by
  apply List.monotone_filter_right
  intro file within
  exact decide_eq_true (Nat.le_trans (of_decide_eq_true within) (UInt64.le_iff_toNat_le.mp le))

/-- Unless a walk fails alike with every limit, it finds within a limit what it finds without one and
the limit allows, but breaks off with the largest limit. So raising the limit loses no entry exactly
if the higher one is not the largest. -/
theorem higher_limit_keeps_iff {low high : UInt64} (le : low ≤ high) :
    (∃ failure, ∀ limit,
      walkDirectory w (limitedTo s limit) rules root = .error (.failure failure)) ∨
      ∃ (found : List (List String × Entry)) (all : Walk),
        walkDirectory w (limitedTo s none) rules root = .ok all ∧
        all.entries = found.map (·.2) ∧ (∀ file ∈ found, FoundAs rules root file.1 file.2) ∧
        (∀ limit : UInt64, limit.toNat + 1 < UInt64.size →
          ∃ walk, walkDirectory w (limitedTo s (some limit)) rules root = .ok walk ∧
            walk.entries = (found.filter (Within limit)).map (·.2)) ∧
        (∀ limit : UInt64, ¬ limit.toNat + 1 < UInt64.size →
          walkDirectory w (limitedTo s (some limit)) rules root = .error (.fault .overflow)) ∧
        ((∃ fewer more, walkDirectory w (limitedTo s (some low)) rules root = .ok fewer ∧
            walkDirectory w (limitedTo s (some high)) rules root = .ok more ∧
            fewer.entries.Sublist more.entries ∧ more.entries.Sublist all.entries) ↔
          high.toNat + 1 < UInt64.size) := by
  by_cases started : ∃ place entries patterns, w.stat root = .ok (place, .directory entries) ∧
      compilePatterns s.excludePatterns = .ok patterns
  · obtain ⟨place, entries, patterns, reached, compiled⟩ := started
    obtain ⟨found, located, ⟨all, walkedAll, entriesAll⟩, limited⟩ :=
      walks_of_limits rules reached compiled
    have broken (limit : UInt64) (large : ¬ Raisable limit) :=
      walkDirectory_of_not_raisable rules reached compiled large
    refine .inr ⟨found, all, walkedAll, entriesAll, located, limited, broken, ?_⟩
    constructor
    · rintro ⟨fewer, more, -, walkedMore, -⟩
      apply Classical.byContradiction
      intro large
      rw [broken high large] at walkedMore
      cases walkedMore
    · intro small
      have lower : Raisable low :=
        Nat.lt_of_le_of_lt (Nat.succ_le_succ (UInt64.le_iff_toNat_le.mp le)) small
      obtain ⟨fewer, walkedFewer, entriesFewer⟩ := limited low lower
      obtain ⟨more, walkedMore, entriesMore⟩ := limited high small
      refine ⟨fewer, more, walkedFewer, walkedMore, ?_, ?_⟩
      · rw [entriesFewer, entriesMore]
        exact (filter_within_mono le found).map _
      · rw [entriesMore, entriesAll]
        exact List.filter_sublist.map _
  · exact .inl (walkDirectory_fails_alike started)

end Limits

theorem buildOutput_kept :
    (0 : UInt64) ≤ 1 ∧ ∃ fewer more : Walk,
      walkDirectory buildMachine (limitedTo {} (some 0)) [⟨["jsp"]⟩] "out" = .ok fewer ∧
        walkDirectory buildMachine (limitedTo {} (some 1)) [⟨["jsp"]⟩] "out" = .ok more ∧
          fewer.entries.Sublist more.entries := by
  have le : (0 : UInt64) ≤ 1 := by decide
  refine ⟨le, ?_⟩
  rcases higher_limit_keeps_iff le with ⟨failure, failed⟩ | ⟨found, all, -, -, -, -, -, keeps⟩
  · have succeeds :
        (walkDirectory buildMachine (limitedTo {} none) [⟨["jsp"]⟩] "out").toOption.isSome := by
      decide +kernel
    rw [failed] at succeeds
    cases succeeds
  · obtain ⟨fewer, more, walkedFewer, walkedMore, sublist, -⟩ := keeps.mpr (by decide)
    exact ⟨fewer, more, walkedFewer, walkedMore, sublist⟩

/-- The smallest limit finds the page at the root, and the largest breaks the walk off. -/
theorem largest_limit_breaks_off :
    (0 : UInt64) ≤ 18446744073709551615 ∧
      (walkDirectory buildMachine (limitedTo {} (some 0)) [⟨["jsp"]⟩] "out").toOption.map
          (·.entries.map (·.name)) = some ["/index.jsp"] ∧
        walkDirectory buildMachine (limitedTo {} (some 18446744073709551615)) [⟨["jsp"]⟩] "out" =
          .error (.fault .overflow) := by
  decide +kernel

end ClassAtlas.Discovery
