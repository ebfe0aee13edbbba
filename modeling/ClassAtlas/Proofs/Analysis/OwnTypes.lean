import ClassAtlas.Proofs.Analysis.Classification
import ClassAtlas.Proofs.ClassFile.Gathering

/-!
What a record says of its own class. Owner and dependency are compared as texts, and the owner goes by
the name of its entry. An inner type is told by the text before the first dollar sign of each name, so
nothing inside an owner that opens with one is told at all; a class is told from itself only by the
name of its entry, which need not be the name that it declares.
-/

namespace ClassAtlas

theorem Text.cutFirst?_eq_some_iff {separator : Char} {text before after : List Char} :
    cutFirst? separator text = some (before, after) ↔
      text = before ++ separator :: after ∧ separator ∉ before := by
  induction text generalizing before with
  | nil => simp [cutFirst?]
  | cons c text ih =>
      rw [cutFirst?]
      by_cases here : c = separator
      · subst here
        cases before with
        | nil => simp
        | cons d before =>
            simp only [if_true, Option.some.injEq, Prod.mk.injEq, List.nil_eq, List.cons_append,
              List.cons.injEq, List.mem_cons, reduceCtorEq, false_and, false_iff]
            rintro ⟨⟨rfl, -⟩, free⟩
            exact free (.inl rfl)
      · cases before with
        | nil => simp [here]
        | cons d before =>
            simp only [here, if_false, Option.map_eq_some_iff, Prod.exists, Prod.mk.injEq,
              List.cons.injEq, List.cons_append, List.mem_cons, not_or]
            constructor
            · rintro ⟨front, back, cut, ⟨rfl, rfl⟩, rfl⟩
              obtain ⟨split, free⟩ := ih.mp cut
              exact ⟨⟨rfl, split⟩, Ne.symm here, free⟩
            · rintro ⟨⟨rfl, split⟩, -, free⟩
              exact ⟨before, after, ih.mpr ⟨split, free⟩, ⟨rfl, rfl⟩, rfl⟩

namespace Name

/-- The text of `name` is that of `owner`, a dollar sign and more. -/
def Inner (owner name : String) : Prop :=
  owner.toList ++ ['$'] <+: name.toList

/-- `declarer` is the outermost class around `name`. -/
def Declares (declarer name : String) : Prop :=
  declarer ≠ "" ∧ '$' ∉ declarer.toList ∧ Inner declarer name

theorem inner_iff {owner name : String} :
    Inner owner name ↔ ∃ more, name.toList = owner.toList ++ '$' :: more := by
  constructor
  · rintro ⟨more, written⟩
    exact ⟨more, by rw [← written, List.append_assoc]; rfl⟩
  · rintro ⟨more, written⟩
    exact ⟨more, by rw [written, List.append_assoc]; rfl⟩

theorem declaring?_eq_some_iff {declarer name : String} :
    declaring? name = some declarer ↔ Declares declarer name := by
  have cut : declaring? name = some declarer ↔
      declarer ≠ "" ∧ ∃ more, Text.cutFirst? '$' name.toList = some (declarer.toList, more) := by
    unfold declaring?
    cases found : Text.cutFirst? '$' name.toList with
    | none => simp
    | some parts =>
        obtain ⟨before, more⟩ := parts
        cases before with
        | nil =>
            simp only [Option.some.injEq, Prod.mk.injEq, reduceCtorEq, false_iff, not_and, not_exists]
            intro named after absent
            exact absurd (String.toList_eq_nil_iff.mp absent.symm) named
        | cons c before =>
            simp only [Option.some.injEq, Prod.mk.injEq, exists_and_left, exists_eq', and_true]
            constructor
            · rintro rfl
              simp
            · rintro ⟨-, same⟩
              rw [same, String.ofList_toList]
  simp only [cut, Text.cutFirst?_eq_some_iff, Declares, inner_iff, exists_and_right]
  tauto

/-- The outermost class around the owner is also the outermost class around its inner types. -/
theorem Declares.of_inner {declarer owner name : String} (declares : Declares declarer owner)
    (inner : Inner owner name) : Declares declarer name := by
  obtain ⟨named, plain, outer⟩ := declares
  exact ⟨named, plain, outer.trans ((List.prefix_append ..).trans inner)⟩

/-- What has a declaring class opens with it, hence not with a dollar sign. -/
theorem Declares.opens {declarer name : String} (declares : Declares declarer name) :
    name ≠ "" ∧ name.toList.head? ≠ some '$' := by
  obtain ⟨named, plain, inner⟩ := declares
  obtain ⟨more, written⟩ := inner_iff.mp inner
  obtain ⟨c, text, spelled⟩ := List.exists_cons_of_ne_nil (mt String.toList_eq_nil_iff.mp named)
  rw [spelled] at written plain
  constructor
  · rintro rfl
    cases written
  · rw [written]
    rintro opens
    cases opens
    exact plain List.mem_cons_self

/-- A name that holds a dollar sign, but does not open with one, has a declaring class. -/
theorem exists_declares {name : String} (opens : name.toList.head? ≠ some '$')
    (nested : '$' ∈ name.toList) : ∃ declarer, Declares declarer name := by
  obtain ⟨before, after, written, free⟩ := List.eq_append_cons_of_mem nested
  refine ⟨String.ofList before, ?_, ?_, ?_⟩
  · rintro empty
    rw [String.ofList_eq_empty_iff] at empty
    rw [written, empty] at opens
    exact opens rfl
  · rwa [String.toList_ofList]
  · rw [inner_iff, String.toList_ofList]
    exact ⟨after, written⟩

/-- An inner type has the declaring class of its owner, or the owner itself for one, unless the owner
opens with a dollar sign. -/
theorem exists_declarer_iff {owner name : String} (inner : Inner owner name) :
    (∃ declarer, Declares declarer name ∧ (declarer = owner ∨ Declares declarer owner)) ↔
      owner ≠ "" ∧ owner.toList.head? ≠ some '$' := by
  constructor
  · rintro ⟨declarer, ⟨named, plain, -⟩, rfl | declares⟩
    · exact ⟨named, fun opens => plain (List.mem_of_head? opens)⟩
    · exact declares.opens
  · rintro ⟨named, opens⟩
    by_cases nested : '$' ∈ owner.toList
    · obtain ⟨declarer, declares⟩ := exists_declares opens nested
      exact ⟨declarer, declares.of_inner inner, .inr declares⟩
    · exact ⟨owner, ⟨named, nested, inner⟩, .inl rfl⟩

theorem Inner.ne {owner name : String} (inner : Inner owner name) : name ≠ owner := by
  rintro rfl
  have longer := inner.length_le
  rw [List.length_append] at longer
  exact Nat.not_succ_le_self _ longer

end Name

namespace Dependency

theorem isInnerOf_iff {owner name : String} :
    isInnerOf owner name = true ↔
      ∃ declarer, Name.Declares declarer name ∧ (declarer = owner ∨ Name.Declares declarer owner) := by
  unfold isInnerOf
  cases found : Name.declaring? name with
  | none => simp [← Name.declaring?_eq_some_iff, found]
  | some declarer => simp [← Name.declaring?_eq_some_iff, found]

/-- What both lists of a classified owner hold. -/
theorem mem_classify_iff {names platformPrefixes : List String} {owner : String}
    {referenced : List String} {name : String} :
    name ∈ (classify names platformPrefixes owner referenced).internal ∨
        name ∈ (classify names platformPrefixes owner referenced).external ↔
      name ∈ referenced ∧ isPlatform platformPrefixes name = false ∧ name ≠ owner ∧
        ¬ ∃ declarer, Name.Declares declarer name ∧
          (declarer = owner ∨ Name.Declares declarer owner) := by
  obtain ⟨internal, external, same, split⟩ :=
    classify_split names platformPrefixes owner referenced
  rw [same, ← isInnerOf_iff, Bool.not_eq_true, ← isValid_iff]
  exact split.valid name

/-- The inner types of the owner are no dependencies exactly if the owner has a name that does not
open with a dollar sign, or all of them that it refers to are platform classes. -/
theorem inner_types_unlisted_iff (names platformPrefixes : List String) (owner : String)
    (referenced : List String) :
    (∀ name, name ∈ (classify names platformPrefixes owner referenced).internal ∨
        name ∈ (classify names platformPrefixes owner referenced).external → ¬ Name.Inner owner name) ↔
      (owner ≠ "" ∧ owner.toList.head? ≠ some '$') ∨
        ∀ name ∈ referenced, Name.Inner owner name → isPlatform platformPrefixes name = true := by
  simp only [mem_classify_iff]
  constructor
  · intro unlisted
    by_cases opens : owner ≠ "" ∧ owner.toList.head? ≠ some '$'
    · exact .inl opens
    · refine .inr fun name listed inner => ?_
      by_contra foreign
      rw [Bool.not_eq_true] at foreign
      exact unlisted name ⟨listed, foreign, inner.ne, mt (Name.exists_declarer_iff inner).mp opens⟩ inner
  · rintro (opens | platform) name ⟨listed, foreign, -, undeclared⟩ inner
    · exact undeclared ((Name.exists_declarer_iff inner).mpr opens)
    · rw [platform name listed inner] at foreign
      cases foreign

/-- An owner that opens with a dollar sign depends on its inner type. -/
theorem proxy_lists_inner_type :
    Name.Inner "$Proxy" "$Proxy$1" ∧
      "$Proxy$1" ∈ (classify [] ["java"] "$Proxy" ["$Proxy$1"]).external := by
  have listed : classify [] ["java"] "$Proxy" ["$Proxy$1"] = .ofClass "$Proxy" [] ["$Proxy$1"] := by decide +kernel
  refine ⟨Name.inner_iff.mpr ⟨['1'], by simp⟩, ?_⟩
  rw [listed]
  exact List.mem_singleton_self _

end Dependency

namespace Analysis

open ClassFile

variable {w : World} {e : Entry} {bytes : List UInt8} {extracted : ExtractedClass}
  {skipped : List SkippedSignature}

/-- A class refers to itself, unless its name is empty or that of an array. -/
theorem className_mem_referenced (decoded : extract bytes = .ok (extracted, skipped))
    (named : extracted.className ≠ "") (single : extracted.className.toList.head? ≠ some '[') :
    extracted.className ∈ extracted.referenced := by
  obtain ⟨record, -, gathered⟩ := bind_eq_ok_iff.mp decoded
  obtain ⟨found, ran, same⟩ := bind_eq_ok_iff.mp gathered
  cases same
  obtain ⟨-, gathers⟩ := (record.references_eq_ok_iff found).mp ran
  exact (gathers.names _).mpr (.inr (.inl ⟨List.mem_cons_self, named, single⟩))

/-- The record of a class leaves the name that the class declares out of both lists exactly if the
entry is called so, or the name is that of a platform class, or it has the entry for its declaring class
or the same declaring class as the entry, or the class never refers to it. -/
theorem declared_name_unlisted_iff (names platformPrefixes : List String)
    (read : e.bytes w = .ok (some bytes)) (decoded : extract bytes = .ok (extracted, skipped)) :
    ∃ record, recordOf w names platformPrefixes e = .ok record ∧
      (extracted.className ∉ record.internal ∧ extracted.className ∉ record.external ↔
        extracted.className = e.name ∨
        (∃ start ∈ platformPrefixes, start.toList <+: extracted.className.toList) ∨
        (∃ declarer, Name.Declares declarer extracted.className ∧
          (declarer = e.name ∨ Name.Declares declarer e.name)) ∨
        (extracted.className ∉ extracted.referenced ∧
          (extracted.className = "" ∨ extracted.className.toList.head? = some '['))) := by
  refine ⟨_, recordOf_class read decoded, ?_⟩
  have refers : extracted.className ∉ extracted.referenced →
      extracted.className = "" ∨ extracted.className.toList.head? = some '[' := by
    intro missing
    by_contra usable
    obtain ⟨named, single⟩ := not_or.mp usable
    exact missing (className_mem_referenced decoded named single)
  have platform : (∃ start ∈ platformPrefixes, start.toList <+: extracted.className.toList) ↔
      ¬ Dependency.isPlatform platformPrefixes extracted.className = false := by
    simp [Dependency.not_isPlatform_iff]
  rw [← not_or, Dependency.mem_classify_iff, platform, and_iff_left_of_imp refers, not_and_or,
    not_and_or, not_and_or, not_not, not_not]
  grind

/-- A class `A` in a directory above its own root goes by another name, and depends on `A`. -/
theorem misplaced_class_lists_itself :
    ∃ extracted skipped record, extract smallClass = .ok (extracted, skipped) ∧
      recordOf {} ["classes/A"] ["java"] ⟨"classes/A", .classBytes smallClass⟩ = .ok record ∧
      extracted.className ∈ record.external := by
  have split : Dependency.classify ["classes/A"] ["java"] "classes/A" ["A", "B"] =
      .ofClass "classes/A" [] ["A", "B"] := by decide +kernel
  refine ⟨_, _, _, extract_smallClass, recordOf_class rfl extract_smallClass, ?_⟩
  rw [split]
  exact List.mem_cons_self

/-- The same class in its place. -/
theorem smallClass_unlisted :
    ∃ extracted skipped record, extract smallClass = .ok (extracted, skipped) ∧
      recordOf {} ["A"] ["java"] ⟨"A", .classBytes smallClass⟩ = .ok record ∧
      extracted.className ∉ record.internal ∧ extracted.className ∉ record.external := by
  obtain ⟨record, made, unlisted⟩ := declared_name_unlisted_iff ["A"] ["java"]
    (e := ⟨"A", .classBytes smallClass⟩) (w := {}) rfl extract_smallClass
  exact ⟨_, _, record, extract_smallClass, made, unlisted.mpr (.inl rfl)⟩

end Analysis

end ClassAtlas
