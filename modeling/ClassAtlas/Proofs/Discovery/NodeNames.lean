import ClassAtlas.Graph.Document
import ClassAtlas.Proofs.Discovery.Flattening
import ClassAtlas.Proofs.Discovery.Pruning
import ClassAtlas.Proofs.Text.Cut

/-!
Names that entries are drawn with. A node shows the leaf of an entry's name, and that can be empty: a
class is called like its path without the ending, and only a path that is nothing but the ending is
refused. Main statement: on every tree of directories and every tree of archives, all entries have a
leaf exactly if no file is called just like the ending in a directory, or ends in a dot before the
ending at the root.
-/

namespace ClassAtlas

theorem Text.after_eq_nil_iff {separator : Char} {text before after : List Char}
    (cut : Text.cutLast? separator text = some (before, after)) :
    after = [] ↔ text.getLast? = some separator := by
  obtain ⟨rfl, last⟩ := Text.eq_of_cutLast? cut
  rw [List.getLast?_append, List.getLast?_cons]
  cases ends : after.getLast? with
  | none => simp [List.getLast?_eq_none_iff.mp ends]
  | some c =>
      have inside := List.mem_of_getLast? ends
      have other : c ≠ separator := fun same => last (same ▸ inside)
      simp [List.ne_nil_of_mem inside, other]

namespace Name

theorem leaf_eq_empty_iff {name : String} (named : name ≠ "") :
    leaf name = "" ↔ name.toList.getLast? = some '/' ∨
      '/' ∉ name.toList ∧ name.toList.getLast? = some '.' := by
  unfold leaf
  cases slash : Text.cutLast? '/' name.toList with
  | some parts =>
      have present : '/' ∈ name.toList := by
        rw [(Text.eq_of_cutLast? slash).1]
        simp
      simp only [String.ofList_eq_empty_iff, Text.after_eq_nil_iff slash, present, not_true_eq_false,
        false_and, or_false]
  | none =>
      have absent := Text.cutLast?_eq_none_iff.mp slash
      have noEnd : name.toList.getLast? ≠ some '/' := fun ends => absent (List.mem_of_getLast? ends)
      simp only [noEnd, absent, not_false_eq_true, true_and, false_or]
      cases dot : Text.cutLast? '.' name.toList with
      | some parts => simp only [String.ofList_eq_empty_iff, Text.after_eq_nil_iff dot]
      | none =>
          have noDot : name.toList.getLast? ≠ some '.' := fun ends =>
            Text.cutLast?_eq_none_iff.mp dot (List.mem_of_getLast? ends)
          simp only [named, noDot]

/-- What has an ending has a leaf. -/
theorem leaf_ne_empty_of_extension? {name ending : String} (found : extension? name = some ending) :
    leaf name ≠ "" := by
  unfold extension? lastSegment at found
  unfold leaf
  cases slash : Text.cutLast? '/' name.toList with
  | some parts =>
      simp only [slash] at found ⊢
      intro empty
      rw [String.ofList_eq_empty_iff.mp empty] at found
      cases found
  | none =>
      simp only [slash] at found ⊢
      cases dot : Text.cutLast? '.' name.toList with
      | some parts =>
          simp only [dot] at found ⊢
          intro empty
          rw [← parts.eta, String.ofList_eq_empty_iff.mp empty] at found
          cases found
      | none =>
          simp only [dot] at found
          cases found

end Name

namespace Discovery

/-- The path of a class that is called nothing: its last name is the ending alone, or it lies at the
root and a dot stands before the ending. -/
def Nameless (path : String) : Prop :=
  "/.class".toList <:+ path.toList ∨ '/' ∉ path.toList ∧ "..class".toList <:+ path.toList

instance (path : String) : Decidable (Nameless path) :=
  inferInstanceAs (Decidable (_ ∨ _))

/-- An entry that has a leaf, and so is drawn as a node that is called something. -/
structure Drawable (e : Entry) : Prop where
  leaf : Name.leaf e.name ≠ ""
  node : Graph.nodeId e.name ≠ "\"\""

section Paths

variable {rules : List ResourceRule} {p name : String}

theorem drawable_iff {e : Entry} : Drawable e ↔ Name.leaf e.name ≠ "" := by
  constructor
  · exact Drawable.leaf
  · intro named
    refine ⟨named, fun empty => named ?_⟩
    have chars := congrArg String.toList empty
    simpa [Graph.nodeId] using chars

/-- A class has no leaf exactly if its path is nameless. -/
theorem leaf_className_iff (given : Entry.className? p = some name) :
    Name.leaf name = "" ↔ Nameless p := by
  obtain ⟨named, rfl⟩ := Entry.className?_eq_some_iff.mp given
  have slash : "/.class".toList = ['/'] ++ ".class".toList := rfl
  have dot : "..class".toList = ['.'] ++ ".class".toList := rfl
  have unslashed : '/' ∉ ".class".toList := by decide
  rw [Name.leaf_eq_empty_iff named, Nameless, String.toList_append, slash, dot,
    List.suffix_append_self_iff, List.suffix_append_self_iff, List.mem_append, or_iff_left unslashed,
    List.singleton_suffix_iff_getLast?_eq_some, List.singleton_suffix_iff_getLast?_eq_some]

/-- A nameless path is the path of a class. -/
theorem Nameless.className? (nameless : Nameless p) : ∃ name, Entry.className? p = some name := by
  have stem (c : Char) (ends : c :: ".class".toList <:+ p.toList) :
      ∃ name, Entry.className? p = some name := by
    obtain ⟨front, chars⟩ := ends
    refine ⟨String.ofList (front ++ [c]), Entry.className?_eq_some_iff.mpr ⟨?_, ?_⟩⟩
    · rw [Ne, String.ofList_eq_empty_iff]
      simp
    · rw [← String.toList_inj, ← chars]
      simp
  rcases nameless with ends | ⟨-, ends⟩
  · exact stem '/' ends
  · exact stem '.' ends

theorem leaf_of_nodeName? {rule : ResourceRule} {node : String}
    (tracked : rule.nodeName? p = some node) : Name.leaf node ≠ "" := by
  unfold ResourceRule.nodeName? at tracked
  split at tracked
  case isFalse => cases tracked
  case isTrue typed =>
    obtain ⟨ending, found, -⟩ := Name.hasFileType_iff.mp typed
    cases tracked
    refine Name.leaf_ne_empty_of_extension? (?_ : Name.extension? _ = some ending)
    split
    case isTrue => exact found
    case isFalse =>
      have chars : ("/" ++ p).toList = [] ++ '/' :: p.toList := by simp
      rw [Name.extension?_eq_of_slash chars, String.ofList_toList]
      exact found

theorem leaf_of_resolve? {node : String} (resolved : ResourceRule.resolve? rules p = some node) :
    Name.leaf node ≠ "" := by
  obtain ⟨rule, -, tracked⟩ := List.exists_of_findSome?_eq_some resolved
  exact leaf_of_nodeName? tracked

/-- A file of a directory: of all paths only the nameless ones give an entry without a leaf. -/
theorem drawable_entryOfFile?_iff (rules : List ResourceRule) (path p : String) :
    (∀ e, entryOfFile? rules path p = some e → Drawable e) ↔ ¬ Nameless p := by
  simp only [drawable_iff]
  unfold entryOfFile?
  cases given : Entry.className? p with
  | some name =>
      rw [← leaf_className_iff given]
      simp
  | none =>
      have other : ¬ Nameless p := by
        intro nameless
        obtain ⟨name, isClass⟩ := nameless.className?
        rw [given] at isClass
        cases isClass
      refine iff_of_true ?_ other
      intro e found
      rw [Option.ite_none_right_eq_some] at found
      obtain ⟨typed, same⟩ := found
      cases same
      cases resolved : ResourceRule.resolve? rules p with
      | some node => exact leaf_of_resolve? resolved
      | none =>
          obtain ⟨ending, extended, -⟩ := Name.hasFileType_iff.mp typed
          exact Name.leaf_ne_empty_of_extension? extended

end Paths

section Directory

variable {rules : List ResourceRule} {root : String}

theorem drawable_ofSights_iff (sights : List Sight) :
    (∀ e ∈ (Walk.ofSights rules root sights).entries, Drawable e) ↔
      ∀ names, .file names ∈ sights → ¬ Nameless (relative names) := by
  simp only [Walk.ofSights, List.mem_filterMap]
  constructor
  · intro all names seen
    refine (drawable_entryOfFile?_iff rules (pathOf root names) _).mp ?_
    intro e found
    exact all e ⟨.file names, seen, found⟩
  · rintro named e ⟨sight, seen, found⟩
    cases sight with
    | file names => exact (drawable_entryOfFile?_iff ..).mpr (named names seen) e found
    | obstacle names cause => cases found

end Directory

section Archives

variable {rules : List ResourceRule} {family start : String}

/-- A walk comes to a file at the path. The start of names is taken off at the outermost level only. -/
def ArchiveTree.HasFile (family : String) : ArchiveTree → String → String → Prop
  | .nil, _, _ => False
  | .cons e inside rest, start, path =>
    (e.isDirectory = false ∧ IsWithout start e.name path) ∨
      (HasRole family start e .archive ∧ inside.HasFile family "" path) ∨
        rest.HasFile family start path

theorem IsWithout.unique {start name path other : String} (without : IsWithout start name path)
    (also : IsWithout start name other) : path = other :=
  (stripStart_eq_iff.mpr without).symm.trans (stripStart_eq_iff.mpr also)

theorem not_nameless {path : String} (noClass : ∀ name, path = name ++ ".class" → name = "") :
    ¬ Nameless path := by
  intro nameless
  obtain ⟨name, isClass⟩ := nameless.className?
  rw [className?_eq_none_iff.mpr noClass] at isClass
  cases isClass

/-- One entry of an archive; `inside` and `has` tell of the archive in it. -/
theorem drawable_contributes_iff {e : Zip.Entry} {inside : List Entry → Prop} {has : String → Prop}
    {here : List Entry}
    (insideIff : ∀ found, inside found →
      ((∀ entry ∈ found, Drawable entry) ↔ ∀ path, has path → ¬ Nameless path))
    (contributes : Contributes rules family start e inside here) :
    (∀ entry ∈ here, Drawable entry) ↔
      (∀ path, e.isDirectory = false → IsWithout start e.name path → ¬ Nameless path) ∧
        (HasRole family start e .archive → ∀ path, has path → ¬ Nameless path) := by
  cases contributes with
  | directory role =>
      refine iff_of_true (by simp) ⟨?_, fun archive => nomatch role.unique archive⟩
      intro path file
      cases role with
      | directory isDirectory => exact (Bool.false_ne_true (file.symm.trans isDirectory)).elim
  | @classFile name bytes role gives =>
      rw [and_iff_left (fun archive => nomatch role.unique archive), List.forall_mem_singleton,
        drawable_iff]
      cases role with
      | classFile file without named =>
          have given : Entry.className? (name ++ ".class") = some name :=
            Entry.className?_eq_some_iff.mpr ⟨named, rfl⟩
          rw [Ne, leaf_className_iff given]
          constructor
          · intro drawn path _ also
            rwa [also.unique without]
          · intro all
            exact all _ file without
  | archive role found =>
      rw [insideIff here found, and_iff_right, imp_iff_right role]
      cases role with
      | archive file without noClass isFamily =>
          intro path _ also
          rw [also.unique without]
          exact not_nameless noClass
  | @other path role =>
      refine iff_of_true ?_ ⟨?_, fun archive => nomatch role.unique archive⟩
      · intro entry member
        obtain ⟨node, resolved, rfl⟩ := Option.map_eq_some_iff.mp (Option.mem_toList.mp member)
        exact drawable_iff.mpr (leaf_of_resolve? resolved)
      · cases role with
        | other file without noClass noFamily =>
            intro path _ also
            rw [also.unique without]
            exact not_nameless noClass

theorem ArchiveTree.drawable_iff_hasFile {tree : ArchiveTree} {found : List Entry}
    (flattens : tree.Flattens rules family start found) :
    (∀ e ∈ found, Drawable e) ↔ ∀ path, tree.HasFile family start path → ¬ Nameless path := by
  induction tree generalizing start found with
  | nil =>
      cases flattens
      simp [HasFile]
  | cons e inside rest insideIff restIff =>
      obtain ⟨here, later, contributes, flattensRest, rfl⟩ := flattens
      rw [List.forall_mem_append, drawable_contributes_iff (fun _ => insideIff) contributes,
        restIff flattensRest]
      simp only [HasFile, or_imp, forall_and, and_imp, and_assoc]
      tauto

end Archives

/-- Every entry of a directory, and every entry of an archive with those inside it, has a leaf exactly
if no file that the walk comes to has a nameless path. -/
theorem entries_drawable_iff (w : World) (rules : List ResourceRule) :
    (∀ (s : Settings) (root : String) (place : FileSystem.Place)
        (entries : List (String × FileSystem.Node)) (patterns : List Glob.Pattern),
      w.stat root = .ok (place, .directory entries) →
        compilePatterns s.excludePatterns = .ok patterns →
        (∀ limit ∈ s.maxDepth, limit + 1 < UInt64.size) →
        ∃ scope walk, scopeOf s patterns = .ok scope ∧ walkDirectory w s rules root = .ok walk ∧
          ((∀ e ∈ walk.entries, Drawable e) ↔
            ∀ names, .file names ∈ sights scope [] (visits w s.followLinks root place entries) →
              ¬ Nameless (relative names))) ∧
      ∀ (path : String) (kind : ContainerKind) (tree : ArchiveTree) (found : List Entry),
        ContainerKind.ofPath? path = some kind →
        (∀ archive, Opens w path archive → archive.entries = tree.entries) →
        tree.Describes (familyName path) → walkArchive w rules path = .ok found →
          ((∀ e ∈ found, Drawable e) ↔
            ∀ file, tree.HasFile (familyName path) (stripped kind) file → ¬ Nameless file) := by
  constructor
  · intro s root place entries patterns reached compiled representable
    have bounded := scopeOf_eq_ok representable patterns
    exact ⟨_, _, bounded, walkDirectory_of_reached reached compiled bounded, drawable_ofSights_iff _⟩
  · intro path kind tree found container outermost describes walked
    obtain ⟨-, -, flattens⟩ := (walkArchive_eq_ok_iff container outermost describes).mp walked
    exact ArchiveTree.drawable_iff_hasFile flattens

/-- A directory of classes and a page beside an archive. -/
def drawnMachine : World where
  root := .directory [("core.jar", .file coreArchive false), ("out", .directory buildOutput)]

theorem drawnMachine_drawable :
    (∃ walk, walkDirectory drawnMachine {} [⟨["jsp"]⟩] "out" = .ok walk ∧
        ∀ e ∈ walk.entries, Drawable e) ∧
      ∃ found, walkArchive drawnMachine [⟨["jsp"]⟩] "core.jar" = .ok found ∧
        ∀ e ∈ found, Drawable e := by
  obtain ⟨inDirectory, inArchive⟩ := entries_drawable_iff drawnMachine [⟨["jsp"]⟩]
  have noFamily : ¬ OfFamily (familyName "core.jar") "WEB-INF/classes/Item.class" := by
    rw [← isFamilyArchive_iff]
    decide +kernel
  constructor
  · obtain ⟨scope, walk, bounded, walked, drawn⟩ :=
      inDirectory {} "out" ["out"] buildOutput [] (by rfl) (by rfl) nofun
    cases bounded
    refine ⟨walk, walked, drawn.mpr ?_⟩
    have seen : sights ⟨none, isExcluded []⟩ [] (visits drawnMachine false "out" ["out"] buildOutput) =
        [.file ["a", "A.class"], .file ["a", "b", "B.class"], .file ["gen", "G.class"],
          .file ["index.jsp"]] := by
      decide +kernel
    intro names member
    rw [seen] at member
    simp only [List.mem_cons, Sight.file.injEq, List.not_mem_nil, or_false] at member
    rcases member with rfl | rfl | rfl | rfl <;> decide
  · have walked : walkArchive drawnMachine [⟨["jsp"]⟩] "core.jar" =
        .ok [{ name := "WEB-INF/classes/Item", kind := .classBytes [7] }] := by
      decide +kernel
    have file : drawnMachine.readFile "core.jar" = .ok coreArchive := rfl
    have outermost : ∀ archive, Opens drawnMachine "core.jar" archive →
        archive.entries = coreTree.entries := by
      rintro archive ⟨bytes, also, read⟩
      cases file.symm.trans also
      cases read_coreArchive.symm.trans read
      rfl
    refine ⟨_, walked, (inArchive "core.jar" .jar coreTree _ (by decide +kernel) outermost
      ⟨fun isFamily => absurd isFamily noFamily, trivial⟩ walked).mpr ?_⟩
    rintro path (⟨-, without⟩ | ⟨archive, -⟩ | none)
    · have same : path = "WEB-INF/classes/Item.class" := (stripStart_eq_iff.mpr without).symm
      rw [same]
      decide
    · exact absurd archive.ofFamily noFamily
    · exact none.elim

def namelessMachine : World where
  root := .directory [("out", .directory [("shop", .directory [(".class", .file [] false)])])]

/-- A file that is called just like the ending is a class without a leaf. -/
theorem bare_ending_found :
    (walkDirectory namelessMachine {} [] "out").toOption.map (·.entries) =
        some [{ name := "shop/", kind := .classFile "out/shop/.class" }] ∧
      Name.leaf "shop/" = "" ∧ Graph.nodeId "shop/" = "\"\"" := by
  decide +kernel

end Discovery

end ClassAtlas
