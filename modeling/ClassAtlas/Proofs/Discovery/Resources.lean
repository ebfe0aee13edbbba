import ClassAtlas.Discovery.Archive
import ClassAtlas.Discovery.Directory
import ClassAtlas.Proofs.Text.Lowercase

/-!
Which files are resources, in a directory and in an archive. A directory compares the ending of a
file with the lower case of the types that rules list and leaves source and class files out; an
archive compares it with the types as they are written. Main statement: the two find the same node
exactly where these comparisons give one answer.
-/

namespace ClassAtlas

namespace Name

/-- What is cut after the last separator does not depend on what stands before a separator. -/
theorem cutLast?_after_append (separator : Char) (start rest : List Char) :
    ((Text.cutLast? separator (start ++ separator :: rest)).map (·.2)) =
      some (((Text.cutLast? separator rest).map (·.2)).getD rest) := by
  induction start with
  | nil =>
    simp only [List.nil_append, Text.cutLast?]
    cases Text.cutLast? separator rest with
    | none => simp
    | some parts => rfl
  | cons c start later =>
    obtain ⟨parts, cut, same⟩ := Option.map_eq_some_iff.mp later
    simp only [List.cons_append, Text.cutLast?, cut]
    exact congrArg some same

theorem lastSegment_eq (name : String) :
    lastSegment name = ((Text.cutLast? '/' name.toList).map (·.2)).getD name.toList := by
  unfold lastSegment
  cases Text.cutLast? '/' name.toList <;> rfl

theorem extension?_eq_of_slash {name : String} {start rest : List Char}
    (chars : name.toList = start ++ '/' :: rest) :
    extension? name = extension? (String.ofList rest) := by
  have same : lastSegment name = lastSegment (String.ofList rest) := by
    rw [lastSegment_eq, lastSegment_eq, chars, cutLast?_after_append, String.toList_ofList]
    rfl
  rw [extension?, extension?, same]

theorem ne_empty_of_extension? {name ending : String} (found : extension? name = some ending) :
    ending.toList ≠ [] := by
  unfold extension? at found
  split at found
  case h_1 => exact (nomatch found)
  case h_2 before after notEmpty _ =>
    rw [← Option.some.inj found, String.toList_ofList]
    exact notEmpty
  case h_3 => exact (nomatch found)

theorem hasFileType_iff {name : String} {fileTypes : List String} :
    hasFileType name fileTypes ↔
      ∃ ending ∈ extension? name, ∃ t ∈ fileTypes, Text.sameIgnoringCase t ending := by
  simp only [hasFileType, Option.any_eq_true, List.any_eq_true, Option.mem_def]

end Name

namespace ResourceRule

/-- Whether a rule lists an ending; `spelling` is how a listed type is read. -/
def Lists (spelling : String → String) (rules : List ResourceRule) (ending : String) : Prop :=
  ∃ rule ∈ rules, ∃ t ∈ rule.fileTypes, Text.sameIgnoringCase (spelling t) ending

instance (spelling : String → String) (rules : List ResourceRule) (ending : String) :
    Decidable (Lists spelling rules ending) :=
  inferInstanceAs (Decidable (∃ rule ∈ rules, ∃ t ∈ rule.fileTypes, _))

/-- The lower case of a type, its dots in front left out. -/
def lowered (t : String) : String :=
  Text.lowercase (withoutDots t)

/-- The endings of source and class files. -/
def isSource (ending : String) : Bool :=
  Text.sameIgnoringCase "java" ending || Text.sameIgnoringCase "class" ending

theorem mem_foldl_insert {t : String} {types seen : List String} :
    t ∈ types.foldl (fun seen t => if seen.contains t then seen else seen ++ [t]) seen ↔
      t ∈ seen ∨ t ∈ types := by
  induction types generalizing seen with
  | nil => simp
  | cons first rest later =>
    rw [List.foldl_cons, later, List.mem_cons]
    split
    case isTrue known =>
      have known := List.contains_iff_mem.mp known
      grind
    case isFalse => simp only [List.mem_append, List.mem_singleton, or_assoc]

theorem mem_extraFileTypes_iff {rules : List ResourceRule} {t : String} :
    t ∈ extraFileTypes rules ↔
      (∃ rule ∈ rules, ∃ written ∈ rule.fileTypes, lowered written = t) ∧ isExtraType t := by
  simp only [extraFileTypes, mem_foldl_insert, List.not_mem_nil, false_or, List.mem_filter,
    List.mem_flatMap, List.mem_map, lowered]

/-- A type in lower case counts as extra exactly for endings that are of no source or class. -/
theorem isExtraType_lowered_iff {t ending : String} (notEmpty : ending.toList ≠ [])
    (same : Text.sameIgnoringCase (lowered t) ending) :
    isExtraType (lowered t) ↔ isSource ending = false := by
  have chars : (lowered t).toList = ending.toList.map Char.toLower :=
    Text.sameIgnoringCase_lowercase_iff.mp same
  have spelled (word : String) (small : word.toList.map Char.toLower = word.toList) :
      lowered t = word ↔ Text.sameIgnoringCase word ending := by
    rw [Text.sameIgnoringCase_iff, small, ← chars, ← String.toList_inj, eq_comm]
  have named : lowered t ≠ "" := by
    intro empty
    rw [empty] at chars
    exact notEmpty (List.map_eq_nil_iff.mp chars.symm)
  simp only [isExtraType, isSource, Bool.and_eq_true, bne_iff_ne, ne_eq, named, not_false_eq_true,
    true_and, spelled "java" rfl, spelled "class" rfl, Bool.or_eq_false_iff, Bool.not_eq_true]

/-- Which files are resources in a directory. -/
theorem hasFileType_extraFileTypes_iff {rules : List ResourceRule} {p : String} :
    Name.hasFileType p (extraFileTypes rules) ↔
      ∃ ending ∈ Name.extension? p, Lists lowered rules ending ∧ isSource ending = false := by
  rw [Name.hasFileType_iff]
  refine exists_congr fun ending => and_congr_right fun found => ?_
  have notEmpty := Name.ne_empty_of_extension? found
  constructor
  · rintro ⟨t, member, same⟩
    obtain ⟨⟨rule, listed, written, among, rfl⟩, extra⟩ := mem_extraFileTypes_iff.mp member
    exact ⟨⟨rule, listed, written, among, same⟩, (isExtraType_lowered_iff notEmpty same).mp extra⟩
  · rintro ⟨⟨rule, listed, written, among, same⟩, noSource⟩
    exact ⟨lowered written,
      mem_extraFileTypes_iff.mpr ⟨⟨rule, listed, written, among, rfl⟩,
        (isExtraType_lowered_iff notEmpty same).mpr noSource⟩, same⟩

/-- Which files are resources in an archive. -/
theorem resolve?_isSome_iff {rules : List ResourceRule} {p : String} :
    (resolve? rules p).isSome ↔ ∃ ending ∈ Name.extension? p, Lists withoutDots rules ending := by
  have tracks (rule : ResourceRule) :
      (rule.nodeName? p).isSome ↔ Name.hasFileType p (rule.fileTypes.map withoutDots) := by
    unfold nodeName?
    split <;> simp_all
  simp only [resolve?, List.isSome_findSome?, List.any_eq_true, tracks, Name.hasFileType_iff, Lists,
    List.mem_map]
  constructor
  · rintro ⟨rule, listed, ending, found, _, ⟨t, among, rfl⟩, same⟩
    exact ⟨ending, found, rule, listed, t, among, same⟩
  · rintro ⟨ending, found, rule, listed, t, among, same⟩
    exact ⟨rule, listed, ending, found, _, ⟨t, among, rfl⟩, same⟩

/-- Of ASCII types it makes no difference whether they are put in lower case. -/
theorem lists_lowered_iff {rules : List ResourceRule} {ending : String}
    (ascii : ∀ rule ∈ rules, ∀ t ∈ rule.fileTypes, ∀ c ∈ t.toList, c.toNat < 128) :
    Lists lowered rules ending ↔ Lists withoutDots rules ending := by
  refine exists_congr fun rule => and_congr_right fun listed => exists_congr fun t =>
    and_congr_right fun among => ?_
  have kept : ∀ c ∈ (withoutDots t).toList, c.toNat < 128 := by
    intro c member
    rw [withoutDots, String.toList_ofList] at member
    exact ascii rule listed t among c ((List.dropWhile_suffix _).subset member)
  rw [lowered, Text.sameIgnoringCase_lowercase_iff, Text.toList_lowercase_of_ascii kept,
    Text.sameIgnoringCase_iff]

end ResourceRule

namespace Entry

theorem className?_eq_some_iff {path name : String} :
    className? path = some name ↔ name ≠ "" ∧ path = name ++ ".class" := by
  have chars : path = name ++ ".class" ↔ path.toList = name.toList ++ ".class".toList := by
    rw [← String.toList_inj, String.toList_append]
  have named : name ≠ "" ↔ name.toList ≠ [] := by
    rw [Ne, ← String.toList_inj]
    rfl
  rw [chars, named]
  unfold className?
  generalize ".class".toList = ending
  simp only [Option.ite_none_right_eq_some, Bool.and_eq_true, List.isSuffixOf_iff_suffix,
    Bool.not_eq_true', List.isEmpty_eq_false_iff, Option.some.injEq]
  constructor
  · rintro ⟨⟨⟨stem, ends⟩, notEmpty⟩, rfl⟩
    rw [← ends, List.length_append, Nat.add_sub_cancel, List.take_left] at notEmpty ⊢
    rw [String.toList_ofList]
    exact ⟨notEmpty, rfl⟩
  · rintro ⟨notEmpty, ends⟩
    rw [ends, List.length_append, Nat.add_sub_cancel, List.take_left, String.ofList_toList]
    exact ⟨⟨List.suffix_append _ _, notEmpty⟩, rfl⟩

end Entry

namespace Discovery

open ResourceRule

/-- The start that is taken off is empty or ends in a slash, so that the ending stays. -/
theorem extension?_stripStart (kind : ContainerKind) (name : String) :
    Name.extension? (stripStart (stripped kind) name) = Name.extension? name := by
  cases kind with
  | jar =>
    have whole : stripStart (stripped .jar) name = name := by
      simp [stripStart, stripped]
    rw [whole]
  | war =>
    unfold stripStart
    split
    case isTrue starts =>
      obtain ⟨rest, chars⟩ := List.isPrefixOf_iff_prefix.mp starts
      have dropped : name.toList.drop (stripped .war).length = rest := by
        rw [← chars, ← String.length_toList, List.drop_left]
      have slash : (stripped .war).toList = "WEB-INF/classes".toList ++ ['/'] := by decide
      have shape : name.toList = "WEB-INF/classes".toList ++ '/' :: rest := by
        rw [← chars, slash, List.append_assoc, List.singleton_append]
      rw [dropped, Name.extension?_eq_of_slash shape]
    case isFalse => rfl

/-- An archive inside has the ending of one. -/
theorem isFamilyArchive_eq_false {family name : String}
    (noArchive : ∀ ending ∈ Name.extension? name, Text.sameIgnoringCase ending "jar" = false) :
    isFamilyArchive family name = false := by
  have other : (Name.extension? name).any (Text.sameIgnoringCase · "jar") = false := by
    cases found : Name.extension? name with
    | none => rfl
    | some ending => exact noArchive ending found
  rw [isFamilyArchive, other, Bool.false_and]

section

variable {rules : List ResourceRule} {p : String}

/-- The types that rules list decide alike on the ending of a path, as they are written and in lower
case with source and class files left out. -/
def DecidedAlike (rules : List ResourceRule) (p : String) : Prop :=
  ∀ ending ∈ Name.extension? p,
    Lists withoutDots rules ending ↔ Lists lowered rules ending ∧ isSource ending = false

instance (rules : List ResourceRule) (p : String) : Decidable (DecidedAlike rules p) :=
  inferInstanceAs (Decidable (∀ ending ∈ Name.extension? p, _))

/-- The entry of the node that rules give a path. -/
def resourceOf? (rules : List ResourceRule) (p : String) : Option Entry :=
  (resolve? rules p).map fun node => { name := node, kind := .resource }

theorem resourceOf?_isSome_iff :
    (resourceOf? rules p).isSome ↔
      ∃ ending ∈ Name.extension? p, Lists withoutDots rules ending := by
  rw [resourceOf?, Option.isSome_map, resolve?_isSome_iff]

theorem entryOfFile?_isSome_iff {path : String} (noClass : Entry.className? p = none) :
    (entryOfFile? rules path p).isSome ↔
      ∃ ending ∈ Name.extension? p, Lists lowered rules ending ∧ isSource ending = false := by
  rw [← hasFileType_extraFileTypes_iff]
  unfold entryOfFile?
  rw [noClass]
  split <;> simp_all

/-- Where both find a node, it is the same. -/
theorem entryOfFile?_eq_of_isSome {path : String} (noClass : Entry.className? p = none)
    (inDirectory : (entryOfFile? rules path p).isSome) (inArchive : (resourceOf? rules p).isSome) :
    entryOfFile? rules path p = resourceOf? rules p := by
  rw [resourceOf?, Option.isSome_map] at inArchive
  obtain ⟨node, resolved⟩ := Option.isSome_iff_exists.mp inArchive
  unfold entryOfFile? at inDirectory ⊢
  rw [noClass] at inDirectory ⊢
  simp only [resourceOf?, resolved] at inDirectory ⊢
  split at inDirectory
  case isTrue tracked => rw [if_pos tracked]; rfl
  case isFalse => cases inDirectory

theorem decidedAlike_iff {path : String} (noClass : Entry.className? p = none) :
    DecidedAlike rules p ↔
      ((resourceOf? rules p).isSome ↔ (entryOfFile? rules path p).isSome) := by
  rw [resourceOf?_isSome_iff, entryOfFile?_isSome_iff noClass, DecidedAlike]
  cases Name.extension? p with
  | none => simp
  | some ending => simp

theorem entryOfFile?_eq_iff {path : String} (noClass : Entry.className? p = none) :
    entryOfFile? rules path p = resourceOf? rules p ↔ DecidedAlike rules p := by
  rw [decidedAlike_iff noClass]
  constructor
  · intro same
    rw [same]
  · intro alike
    by_cases inArchive : (resourceOf? rules p).isSome
    · exact entryOfFile?_eq_of_isSome noClass (alike.mp inArchive) inArchive
    · have notInDirectory := mt alike.mpr inArchive
      rw [Option.not_isSome_iff_eq_none] at inArchive notInDirectory
      rw [inArchive, notInDirectory]

/-- An entry of an archive contributes the node of its path. -/
theorem contribution_eq {family label : String}
    {enter : String → Zip.Archive → Except Failure (List Entry)} {kind : ContainerKind}
    {entry : Zip.Entry} {data : List UInt8} (opened : entry.opened = .ok data)
    (file : entry.isDirectory = false) (named : stripStart (stripped kind) entry.name = p)
    (noClass : Entry.className? p = none)
    (noArchive : ∀ ending ∈ Name.extension? p, Text.sameIgnoringCase ending "jar" = false) :
    contribution rules family enter (stripped kind) label entry =
      .ok (resourceOf? rules p).toList := by
  have outside : isFamilyArchive family entry.name = false := by
    refine isFamilyArchive_eq_false ?_
    rw [← extension?_stripStart kind, named]
    exact noArchive
  subst named
  simp only [contribution, examine, opened, file, noClass, outside]
  rfl

/-- Of ASCII types the two decide alike unless one of them is the type of source or class files. -/
theorem decidedAlike_of_ascii_iff
    (ascii : ∀ rule ∈ rules, ∀ t ∈ rule.fileTypes, ∀ c ∈ t.toList, c.toNat < 128) :
    DecidedAlike rules p ↔
      ∀ ending ∈ Name.extension? p, isSource ending → ¬ Lists withoutDots rules ending := by
  refine forall_congr' fun ending => imp_congr_right fun _ => ?_
  rw [lists_lowered_iff ascii]
  cases isSource ending with
  | false => simp
  | true => simp

/-- A directory and an archive find the same node at a path exactly where the listed types decide
alike on its ending. A directory never makes a source or class file a resource; so where types are
ASCII, the two differ only on source and class files whose type is listed. -/
theorem walks_agree_iff {path family label : String}
    {enter : String → Zip.Archive → Except Failure (List Entry)} {kind : ContainerKind}
    {entry : Zip.Entry} {data : List UInt8} (opened : entry.opened = .ok data)
    (file : entry.isDirectory = false) (named : stripStart (stripped kind) entry.name = p)
    (noClass : Entry.className? p = none)
    (noArchive : ∀ ending ∈ Name.extension? p, Text.sameIgnoringCase ending "jar" = false) :
    (contribution rules family enter (stripped kind) label entry =
        .ok (entryOfFile? rules path p).toList ↔ DecidedAlike rules p) ∧
      (∀ ending ∈ Name.extension? p, isSource ending → entryOfFile? rules path p = none) ∧
      ((∀ rule ∈ rules, ∀ t ∈ rule.fileTypes, ∀ c ∈ t.toList, c.toNat < 128) →
        (DecidedAlike rules p ↔
          ∀ ending ∈ Name.extension? p, isSource ending → ¬ Lists withoutDots rules ending)) := by
  refine ⟨?_, ?_, decidedAlike_of_ascii_iff⟩
  · rw [contribution_eq opened file named noClass noArchive, ← entryOfFile?_eq_iff noClass,
      Except.ok.injEq, eq_comm]
    cases entryOfFile? rules path p <;> cases resourceOf? rules p <;> simp
  · intro ending found source
    rw [← Option.not_isSome_iff_eq_none, entryOfFile?_isSome_iff noClass]
    rintro ⟨other, also, _, noSource⟩
    cases Option.some.inj (found.symm.trans also)
    rw [source] at noSource
    cases noSource

end

/-- A file as it is stored in an archive. -/
def storedFile (name : String) : Zip.Entry where
  name := name
  encrypted := false
  method := .stored
  crc := 0
  data := some []

theorem priceList_found_alike :
    entryOfFile? [⟨[".Json"]⟩] "out/shop/prices.JSON" "shop/prices.JSON" =
        some { name := "shop/prices.JSON", kind := .resource } ∧
      contribution [⟨[".Json"]⟩] "shop" (fun _ _ => .ok []) (stripped .war) "shop.war"
          (storedFile "WEB-INF/classes/shop/prices.JSON") =
        .ok (entryOfFile? [⟨[".Json"]⟩] "out/shop/prices.JSON" "shop/prices.JSON").toList :=
  ⟨rfl, (walks_agree_iff (by rfl) (by rfl) (by decide) (by decide) (by decide)).1.mpr (by decide)⟩

/-- A source file whose type is listed is a resource in an archive and none in a directory. -/
theorem listedSource_found_apart :
    entryOfFile? [⟨["java"]⟩] "out/shop/Cart.java" "shop/Cart.java" = none ∧
      contribution [⟨["java"]⟩] "shop" (fun _ _ => .ok []) (stripped .jar) "shop.jar"
          (storedFile "shop/Cart.java") =
        .ok [{ name := "shop/Cart.java", kind := .resource }] :=
  ⟨rfl, rfl⟩

end Discovery

end ClassAtlas
