import ClassAtlas.Proofs.Discovery.ArchiveEntry
import ClassAtlas.Proofs.Text.Utf8

/-!
Archives inside archives. A walk visits an archive of the family in the place of its entry, with the
same family, a longer label and no start taken off. Main statement: on every finite tree of archives a
walk gives the contributions of the entries from left to right, it succeeds exactly where everything
that it needs can be opened and read, and else it tells the first thing that cannot, by the labels that
lead there.
-/

namespace ClassAtlas.Discovery

/-! Visits of an archive inside another end where those of the archives inside it do; they are then
walks over its entries like the outermost one. -/

section Visits

variable {rules : List ResourceRule} {family start label : String}

/-- The walk over the entries of one archive. -/
def level (rules : List ResourceRule) (family start label : String) (entries : List Zip.Entry) :
    Except Failure (List Entry) := do
  let parts ← entries.mapM (contribution rules family (flatten rules family) start label)
  return parts.flatten

theorem level_cons (e : Zip.Entry) (entries : List Zip.Entry) :
    level rules family start label (e :: entries) =
      contribution rules family (flatten rules family) start label e >>= fun here =>
        level rules family start label entries >>= fun later => pure (here ++ later) := by
  simp only [level, List.mapM_cons, bind_assoc, pure_bind, List.flatten_cons]

/-- A visit that ends. -/
def finished {α : Type} (outcome : Except Failure α) : ExceptT Failure Option α :=
  ExceptT.mk (some outcome)

theorem mapM_eq_finished {α β : Type} {f : α → ExceptT Failure Option β} {g : α → Except Failure β}
    {items : List α} (same : ∀ item ∈ items, f item = finished (g item)) :
    items.mapM f = finished (items.mapM g) := by
  induction items with
  | nil => rfl
  | cons first rest ih =>
      rw [List.forall_mem_cons] at same
      rw [List.mapM_cons, List.mapM_cons, same.1, ih same.2]
      cases g first with
      | error failure => rfl
      | ok here => cases rest.mapM g <;> rfl

def Ends (rules : List ResourceRule) (family label : String) (archive : Zip.Archive) : Prop :=
  flatten? rules family label archive = finished (flatten rules family label archive)

theorem flatten?_eq_finished {archive : Zip.Archive}
    (inside : ∀ e ∈ archive.entries, ∀ inner nested,
      examine rules family "" label e = .ok (.archive inner nested) → Ends rules family inner nested) :
    flatten? rules family label archive =
      finished (level rules family "" label archive.entries) := by
  rw [flatten?, mapM_eq_finished (g := contribution rules family (flatten rules family) "" label)]
  · unfold level
    generalize archive.entries.mapM (contribution rules family (flatten rules family) "" label) = parts
    cases parts <;> rfl
  · intro e member
    have ends := inside e member
    rw [contribution]
    cases found : examine rules family "" label e with
    | error failure => rfl
    | ok finding =>
        cases finding with
        | entries found => rfl
        | archive inner nested => exact ends inner nested found

theorem flatten_eq_level {archive : Zip.Archive}
    (inside : ∀ e ∈ archive.entries, ∀ inner nested,
      examine rules family "" label e = .ok (.archive inner nested) → Ends rules family inner nested) :
    flatten rules family label archive = level rules family "" label archive.entries := by
  rw [flatten, flatten?_eq_finished inside]
  rfl

theorem ends_of_inside {archive : Zip.Archive}
    (inside : ∀ e ∈ archive.entries, ∀ inner nested,
      examine rules family "" label e = .ok (.archive inner nested) → Ends rules family inner nested) :
    Ends rules family label archive := by
  rw [Ends, flatten_eq_level inside, flatten?_eq_finished inside]

theorem eq_archive_of_examine {e : Zip.Entry} {inner : String} {nested : Zip.Archive}
    (found : examine rules family start label e = .ok (.archive inner nested)) :
    inner = nestedLabel label e.name ∧ HasRole family start e .archive ∧
      ∃ bytes, Gives e bytes ∧ Zip.Archive.read bytes = .ok nested := by
  cases opened : e.opened with
  | error cause =>
      rw [examine_of_unopened opened] at found
      cases found
  | ok data =>
      have has : HasRole family start e (roleOf family start e) := hasRole_iff.mpr rfl
      rw [examine_of_opened opened] at found
      cases role : roleOf family start e with
      | directory =>
          rw [role] at found
          cases found
      | classFile name =>
          rw [role] at found
          obtain ⟨bytes, -, wrong⟩ := bind_eq_ok_iff.mp found
          cases wrong
      | archive =>
          rw [role] at found has
          obtain ⟨bytes, read, found⟩ := bind_eq_ok_iff.mp found
          obtain ⟨archive, opens, same⟩ := bind_eq_ok_iff.mp found
          cases same
          exact ⟨rfl, has, bytes, (readEntry_eq_ok_iff opened).mp read, openArchive_eq_ok_iff.mp opens⟩
      | other path =>
          rw [role] at found
          cases found

end Visits

/-- The entries of an archive in order, and with each of them the entries of the archive inside it; an
entry that is no archive has none. -/
inductive ArchiveTree where
  | nil
  | cons (entry : Zip.Entry) (inside rest : ArchiveTree)

namespace ArchiveTree

/-- The entries of the outermost archive. -/
def entries : ArchiveTree → List Zip.Entry
  | .nil => []
  | .cons entry _ rest => entry :: rest.entries

/-- A tree tells what the archives of the family hold, where they can be read. -/
def Describes (family : String) : ArchiveTree → Prop
  | .nil => True
  | .cons e inside rest =>
    (OfFamily family e.name → ∀ bytes archive, Gives e bytes → Zip.Archive.read bytes = .ok archive →
      archive.entries = inside.entries ∧ inside.Describes family) ∧ rest.Describes family

/-- Whether everything that a walk needs can be opened and read. -/
def Readable (family : String) : ArchiveTree → String → Prop
  | .nil, _ => True
  | .cons e inside rest, start =>
    EntryReadable family start e (inside.Readable family "") ∧ rest.Readable family start

/-- The contributions of the entries from left to right. -/
def Flattens (rules : List ResourceRule) (family : String) :
    ArchiveTree → String → List Entry → Prop
  | .nil, _, found => found = []
  | .cons e inside rest, start, found => ∃ here later,
    Contributes rules family start e (inside.Flattens rules family "") here ∧
      rest.Flattens rules family start later ∧ found = here ++ later

/-- The failure of the first entry that fails; `label` is the archive's. -/
def FailsWith (family : String) : ArchiveTree → String → String → Failure → Prop
  | .nil, _, _, _ => False
  | .cons e inside rest, start, label, failure =>
    EntryFails family start label e (inside.FailsWith family "" (label ++ "!/" ++ e.name)) failure ∨
      EntryReadable family start e (inside.Readable family "") ∧
        rest.FailsWith family start label failure

variable {rules : List ResourceRule} {family : String} {tree : ArchiveTree}

theorem ends_of_mem (describes : tree.Describes family) {e : Zip.Entry} (member : e ∈ tree.entries)
    {start label inner : String} {nested : Zip.Archive}
    (found : examine rules family start label e = .ok (.archive inner nested)) :
    Ends rules family inner nested := by
  induction tree generalizing e start label inner nested with
  | nil => exact (List.not_mem_nil member).elim
  | cons first inside rest insideEnds restEnds =>
      rcases List.mem_cons.mp member with rfl | later
      · obtain ⟨-, has, bytes, gives, opens⟩ := eq_archive_of_examine found
        obtain ⟨same, describesInside⟩ := describes.1 has.ofFamily bytes nested gives opens
        -- Start and label differ inside, so the induction is for all of them.
        apply ends_of_inside
        intro e member inner deeper found
        rw [same] at member
        exact insideEnds describesInside member found
      · exact restEnds describes.2 later found

theorem flatten_eq (describes : tree.Describes family) {label : String} {archive : Zip.Archive}
    (same : archive.entries = tree.entries) :
    flatten rules family label archive = level rules family "" label tree.entries := by
  rw [← same]
  apply flatten_eq_level
  intro e member inner nested found
  rw [same] at member
  exact ends_of_mem describes member found

/-- An archive that is visited is the one that the tree tells of. -/
theorem visit_eq_level {e : Zip.Entry} {inside rest : ArchiveTree}
    (describes : Describes family (.cons e inside rest)) {start : String} {bytes : List UInt8}
    {archive : Zip.Archive} (has : HasRole family start e .archive) (gives : Gives e bytes)
    (opens : Zip.Archive.read bytes = .ok archive) (label : String) :
    flatten rules family label archive = level rules family "" label inside.entries ∧
      inside.Describes family := by
  obtain ⟨same, describesInside⟩ := describes.1 has.ofFamily bytes archive gives opens
  exact ⟨flatten_eq describesInside same, describesInside⟩

theorem level_eq_ok_iff (describes : tree.Describes family) {start label : String}
    {found : List Entry} :
    level rules family start label tree.entries = .ok found ↔
      tree.Readable family start ∧ tree.Flattens rules family start found := by
  induction tree generalizing start label found with
  | nil =>
      simp only [Readable, Flattens, true_and]
      exact ⟨fun same => (Except.ok.inj same).symm, fun same => same ▸ rfl⟩
  | cons e inside rest insideIff restIff =>
      have entered : ∀ bytes archive, HasRole family start e .archive → Gives e bytes →
          Zip.Archive.read bytes = .ok archive → ∀ found,
            flatten rules family (nestedLabel label e.name) archive = .ok found ↔
              inside.Readable family "" ∧ inside.Flattens rules family "" found := by
        intro bytes archive has gives opens found
        obtain ⟨visited, describesInside⟩ := visit_eq_level describes has gives opens _
        rw [visited, insideIff describesInside]
      rw [entries, level_cons, bind_eq_ok_iff]
      simp only [bind_eq_ok_iff, contribution_eq_ok_iff entered, restIff describes.2, Readable, Flattens]
      constructor
      · rintro ⟨here, ⟨readable, contributes⟩, later, ⟨readableRest, flattens⟩, same⟩
        exact ⟨⟨readable, readableRest⟩, here, later, contributes, flattens, (Except.ok.inj same).symm⟩
      · rintro ⟨⟨readable, readableRest⟩, here, later, contributes, flattens, same⟩
        exact ⟨here, ⟨readable, contributes⟩, later, ⟨readableRest, flattens⟩, same ▸ rfl⟩

theorem exists_flattens {start : String} (readable : tree.Readable family start) :
    ∃ found, tree.Flattens rules family start found := by
  induction tree generalizing start with
  | nil => exact ⟨[], rfl⟩
  | cons e inside rest insideExists restExists =>
      obtain ⟨needed, readableRest⟩ := readable
      obtain ⟨later, flattens⟩ := restExists readableRest
      obtain ⟨here, contributes⟩ := needed.exists_contributes insideExists
      exact ⟨here ++ later, here, later, contributes, flattens, rfl⟩

theorem level_eq_error_iff (describes : tree.Describes family) {start label : String}
    {failure : Failure} :
    level rules family start label tree.entries = .error failure ↔
      tree.FailsWith family start label failure := by
  induction tree generalizing start label failure with
  | nil => exact ⟨nofun, False.elim⟩
  | cons e inside rest insideIff restIff =>
      have entered : ∀ bytes archive, HasRole family start e .archive → Gives e bytes →
          Zip.Archive.read bytes = .ok archive → ∀ failure,
            flatten rules family (nestedLabel label e.name) archive = .error failure ↔
              inside.FailsWith family "" (nestedLabel label e.name) failure := by
        intro bytes archive has gives opens failure
        obtain ⟨visited, describesInside⟩ := visit_eq_level describes has gives opens _
        rw [visited, insideIff describesInside]
      have here_iff (here : List Entry) :
          contribution rules family (flatten rules family) start label e = .ok here ↔
            EntryReadable family start e (inside.Readable family "") ∧
              Contributes rules family start e (inside.Flattens rules family "") here := by
        apply contribution_eq_ok_iff
        intro bytes archive has gives opens found
        obtain ⟨visited, describesInside⟩ := visit_eq_level describes has gives opens _
        rw [visited, level_eq_ok_iff describesInside]
      rw [entries, level_cons, bind_eq_error_iff, contribution_eq_error_iff entered]
      refine or_congr_right ?_
      constructor
      · rintro ⟨here, ran, failed⟩
        rcases bind_eq_error_iff.mp failed with failed | ⟨later, -, wrong⟩
        · exact ⟨((here_iff here).mp ran).1, (restIff describes.2).mp failed⟩
        · cases wrong
      · rintro ⟨needed, failed⟩
        -- What the earlier entry contributes is lost, but it has to contribute something.
        obtain ⟨here, contributes⟩ := needed.exists_contributes exists_flattens
        exact ⟨here, (here_iff here).mpr ⟨needed, contributes⟩,
          bind_eq_error_iff.mpr (.inl ((restIff describes.2).mpr failed))⟩

end ArchiveTree

section Walk

variable {w : World} {rules : List ResourceRule} {path : String} {kind : ContainerKind}

/-- The archive that a file holds. -/
def Opens (w : World) (path : String) (archive : Zip.Archive) : Prop :=
  ∃ bytes, w.readFile path = .ok bytes ∧ Zip.Archive.read bytes = .ok archive

inductive Unopened (w : World) (path : String) : Failure → Prop
  | file {cause : OsError} : w.readFile path = .error cause →
      Unopened w path (.archiveUnreadable path "i/o error")
  | archive {bytes : List UInt8} {cause : Zip.Error} : w.readFile path = .ok bytes →
      Zip.Archive.read bytes = .error cause → Unopened w path (.archiveUnreadable path cause.message)

theorem opens_or_unopened (w : World) (path : String) :
    (∃ archive, Opens w path archive) ∨ ∃ failure, Unopened w path failure := by
  cases file : w.readFile path with
  | error cause => exact .inr ⟨_, .file file⟩
  | ok bytes =>
      cases read : Zip.Archive.read bytes with
      | error cause => exact .inr ⟨_, .archive file read⟩
      | ok archive => exact .inl ⟨archive, bytes, file, read⟩

theorem walkArchive_of_opens {archive : Zip.Archive} (container : ContainerKind.ofPath? path = some kind)
    (opens : Opens w path archive) :
    walkArchive w rules path =
      level rules (familyName path) (stripped kind) path archive.entries := by
  obtain ⟨bytes, file, read⟩ := opens
  simp only [walkArchive, container, file, openArchive, read]
  rfl

theorem walkArchive_of_unopened {failure : Failure} (container : ContainerKind.ofPath? path = some kind)
    (unopened : Unopened w path failure) : walkArchive w rules path = .error failure := by
  cases unopened with
  | file file =>
      simp only [walkArchive, container, file]
      rfl
  | archive file read =>
      simp only [walkArchive, container, file, openArchive, read]
      rfl

theorem Unopened.not_opens {failure : Failure} (unopened : Unopened w path failure) :
    ¬ ∃ archive, Opens w path archive := by
  rintro ⟨archive, bytes, file, read⟩
  cases unopened with
  | file noFile => cases noFile.symm.trans file
  | archive also noArchive =>
      cases also.symm.trans file
      cases noArchive.symm.trans read

variable {tree : ArchiveTree}

theorem walkArchive_eq_ok_iff (container : ContainerKind.ofPath? path = some kind)
    (outermost : ∀ archive, Opens w path archive → archive.entries = tree.entries)
    (describes : tree.Describes (familyName path)) {found : List Entry} :
    walkArchive w rules path = .ok found ↔
      (∃ archive, Opens w path archive) ∧ tree.Readable (familyName path) (stripped kind) ∧
        tree.Flattens rules (familyName path) (stripped kind) found := by
  rcases opens_or_unopened w path with ⟨archive, opens⟩ | ⟨failure, unopened⟩
  · have opened : ∃ archive, Opens w path archive := ⟨archive, opens⟩
    rw [walkArchive_of_opens container opens, outermost archive opens,
      ArchiveTree.level_eq_ok_iff describes]
    exact (and_iff_right opened).symm
  · rw [walkArchive_of_unopened container unopened]
    exact ⟨nofun, fun both => absurd both.1 unopened.not_opens⟩

theorem walkArchive_eq_error_iff (container : ContainerKind.ofPath? path = some kind)
    (outermost : ∀ archive, Opens w path archive → archive.entries = tree.entries)
    (describes : tree.Describes (familyName path)) {failure : Failure} :
    walkArchive w rules path = .error failure ↔
      Unopened w path failure ∨ (∃ archive, Opens w path archive) ∧
        tree.FailsWith (familyName path) (stripped kind) path failure := by
  constructor
  · intro failed
    rcases opens_or_unopened w path with ⟨archive, opens⟩ | ⟨cause, unopened⟩
    · rw [walkArchive_of_opens container opens, outermost archive opens] at failed
      exact .inr ⟨⟨archive, opens⟩, (ArchiveTree.level_eq_error_iff describes).mp failed⟩
    · rw [walkArchive_of_unopened container unopened] at failed
      cases failed
      exact .inl unopened
  · rintro (unopened | ⟨⟨archive, opens⟩, fails⟩)
    · exact walkArchive_of_unopened container unopened
    · rw [walkArchive_of_opens container opens, outermost archive opens]
      exact (ArchiveTree.level_eq_error_iff describes).mpr fails

/-- A walk of an archive is the flattening of the tree of archives in it, as far as these are of its
family. -/
theorem walk_flattens_archives {start : String}
    (container : ContainerKind.ofPath? path = some kind)
    (taken : start = if kind = .war then "WEB-INF/classes/" else "")
    (outermost : ∀ archive, Opens w path archive → archive.entries = tree.entries)
    (describes : tree.Describes (familyName path)) :
    ((∃ found, walkArchive w rules path = .ok found) ↔
        (∃ archive, Opens w path archive) ∧ tree.Readable (familyName path) start) ∧
      (∀ found, walkArchive w rules path = .ok found ↔
        (∃ archive, Opens w path archive) ∧ tree.Readable (familyName path) start ∧
          tree.Flattens rules (familyName path) start found) ∧
      ∀ failure, walkArchive w rules path = .error failure ↔
        Unopened w path failure ∨
          (∃ archive, Opens w path archive) ∧ tree.FailsWith (familyName path) start path failure := by
  have same : start = stripped kind := by
    rw [taken]
    cases kind <;> rfl
  subst same
  refine ⟨?_, fun found => walkArchive_eq_ok_iff container outermost describes,
    fun failure => walkArchive_eq_error_iff container outermost describes⟩
  constructor
  · rintro ⟨found, walked⟩
    obtain ⟨opened, readable, -⟩ := (walkArchive_eq_ok_iff container outermost describes).mp walked
    exact ⟨opened, readable⟩
  · rintro ⟨opened, readable⟩
    obtain ⟨found, flattens⟩ := ArchiveTree.exists_flattens readable
    exact ⟨found, (walkArchive_eq_ok_iff container outermost describes).mpr ⟨opened, readable, flattens⟩⟩

end Walk

/-! An archive with another of its family inside. -/

/-- A number in a field of a width. -/
def field : Nat → Nat → List UInt8
  | 0, _ => []
  | width + 1, value => value.toUInt8 :: field width (value / 256)

/-- The checksum and the two lengths of stored bytes. -/
def sizeFields (bytes : List UInt8) : List UInt8 :=
  field 4 (Zip.checksum bytes).toNat ++ field 4 bytes.length ++ field 4 bytes.length

def fileRecord (name bytes : List UInt8) : List UInt8 :=
  Zip.entryMark ++ field 10 0 ++ sizeFields bytes ++ field 2 name.length ++ field 2 0 ++ name ++ bytes

def directoryRecords (offset : Nat) : List (List UInt8 × List UInt8) → List UInt8
  | [] => []
  | (name, bytes) :: files =>
    Zip.directoryMark ++ field 12 0 ++ sizeFields bytes ++ field 2 name.length ++ field 12 0 ++
      field 4 offset ++ name ++ directoryRecords (offset + (fileRecord name bytes).length) files

/-- An archive of stored files. -/
def storedArchive (files : List (List UInt8 × List UInt8)) : List UInt8 :=
  let records := files.flatMap fun file => fileRecord file.1 file.2
  let directory := directoryRecords 0 files
  records ++ directory ++ Zip.directoryEndMark ++ field 4 0 ++ field 2 files.length ++
    field 2 files.length ++ field 4 directory.length ++ field 4 records.length ++ field 2 0

def storedEntry (name : String) (bytes : List UInt8) : Zip.Entry where
  name := name
  encrypted := false
  method := .stored
  crc := Zip.checksum bytes
  data := some bytes

theorem gives_storedEntry_iff {name : String} {bytes other : List UInt8} :
    Gives (storedEntry name bytes) other ↔ other = bytes := by
  have opened : (storedEntry name bytes).opened = .ok bytes := rfl
  have content : (storedEntry name bytes).content bytes = .ok bytes := if_pos rfl
  simp only [Gives, opened, Except.ok.injEq, exists_eq_left', content, eq_comm]

theorem storedEntry_readable {family start name : String} {bytes : List UInt8} {inside : Prop}
    (archive : HasRole family start (storedEntry name bytes) .archive →
      (∃ archive, Zip.Archive.read bytes = .ok archive) ∧ inside) :
    EntryReadable family start (storedEntry name bytes) inside := by
  have gives : Gives (storedEntry name bytes) bytes := gives_storedEntry_iff.mpr rfl
  refine ⟨⟨bytes, rfl⟩, fun _ _ _ => ⟨bytes, gives⟩, ?_⟩
  intro has
  obtain ⟨⟨nested, opens⟩, inside⟩ := archive has
  exact ⟨⟨bytes, nested, gives, opens⟩, inside⟩

/-- The archive of the shop's core, whose one class is where a web archive has its classes. -/
def coreArchive : List UInt8 :=
  storedArchive [(Text.utf8 "WEB-INF/classes/Item.class", [7])]

def shopArchive : List UInt8 :=
  storedArchive [(Text.utf8 "WEB-INF/classes/shop/Cart.class", [1, 2]),
    (Text.utf8 "WEB-INF/lib/Shop-core.JAR", coreArchive), (Text.utf8 "index.jsp", [])]

def coreTree : ArchiveTree :=
  .cons (storedEntry "WEB-INF/classes/Item.class" [7]) .nil .nil

def shopTree : ArchiveTree :=
  .cons (storedEntry "WEB-INF/classes/shop/Cart.class" [1, 2]) .nil
    (.cons (storedEntry "WEB-INF/lib/Shop-core.JAR" coreArchive) coreTree
      (.cons (storedEntry "index.jsp" []) .nil .nil))

def shopMachine : World where
  root := .directory [("shop-1.0.war", .file shopArchive false)]

theorem checksum_coreArchive : Zip.checksum coreArchive = 734264976 := by
  -- In three parts: the kernel would nest the steps of all bytes in one term.
  have first : (coreArchive.take 50).foldl Zip.stepByte 0xFFFFFFFF = 813884941 := by decide +kernel
  have second : ((coreArchive.drop 50).take 50).foldl Zip.stepByte 813884941 = 3644701953 := by
    decide +kernel
  have third : ((coreArchive.drop 50).drop 50).foldl Zip.stepByte 3644701953 = 3560702319 := by
    decide +kernel
  rw [Zip.checksum, ← List.take_append_drop 50 coreArchive, List.foldl_append, first,
    ← List.take_append_drop 50 (coreArchive.drop 50), List.foldl_append, second, third]
  rfl

theorem read_coreArchive : Zip.Archive.read coreArchive = .ok ⟨coreTree.entries⟩ := by
  decide +kernel

theorem read_shopArchive : Zip.Archive.read shopArchive = .ok ⟨shopTree.entries⟩ := by
  simp only [shopArchive, storedArchive, List.flatMap_cons, List.flatMap_nil, directoryRecords,
    fileRecord, sizeFields, shopTree, ArchiveTree.entries, storedEntry, checksum_coreArchive]
  decide +kernel

theorem describes_shopTree : shopTree.Describes "shop" := by
  have noFamily {name : String} {P : Prop} (other : isFamilyArchive "shop" name = false) :
      OfFamily "shop" name → P := by
    intro isFamily
    rw [isFamilyArchive_iff.mpr isFamily] at other
    cases other
  refine ⟨noFamily (by decide +kernel), ?_, noFamily (by decide +kernel), trivial⟩
  intro _ bytes archive gives opens
  cases gives_storedEntry_iff.mp gives
  cases read_coreArchive.symm.trans opens
  exact ⟨rfl, noFamily (by decide +kernel), trivial⟩

theorem shopArchive_flattened :
    shopTree.Describes (familyName "shop-1.0.war") ∧
      walkArchive shopMachine [⟨["jsp"]⟩] "shop-1.0.war" =
        .ok [{ name := "shop/Cart", kind := .classBytes [1, 2] },
          { name := "WEB-INF/classes/Item", kind := .classBytes [7] },
          { name := "/index.jsp", kind := .resource }] := by
  have family : familyName "shop-1.0.war" = "shop" := by decide +kernel
  have file : shopMachine.readFile "shop-1.0.war" = .ok shopArchive := rfl
  have outermost : ∀ archive, Opens shopMachine "shop-1.0.war" archive →
      archive.entries = shopTree.entries := by
    rintro archive ⟨bytes, also, read⟩
    cases file.symm.trans also
    cases read_shopArchive.symm.trans read
    rfl
  have describes : shopTree.Describes (familyName "shop-1.0.war") := family ▸ describes_shopTree
  have walked (found : List Entry) :
      walkArchive shopMachine [⟨["jsp"]⟩] "shop-1.0.war" = .ok found ↔ _ :=
    (walk_flattens_archives (by decide +kernel : ContainerKind.ofPath? _ = some .war)
      (by rfl : "WEB-INF/classes/" = _) outermost describes).2.1 found
  rw [family] at walked
  have given (name : String) (bytes : List UInt8) : Gives (storedEntry name bytes) bytes :=
    gives_storedEntry_iff.mpr rfl
  have cart : HasRole "shop" "WEB-INF/classes/"
      (storedEntry "WEB-INF/classes/shop/Cart.class" [1, 2]) (.classFile "shop/Cart") := by
    decide +kernel
  have core : HasRole "shop" "WEB-INF/classes/"
      (storedEntry "WEB-INF/lib/Shop-core.JAR" coreArchive) .archive := by
    decide +kernel
  have item : HasRole "shop" "" (storedEntry "WEB-INF/classes/Item.class" [7])
      (.classFile "WEB-INF/classes/Item") := by
    decide +kernel
  have page : HasRole "shop" "WEB-INF/classes/" (storedEntry "index.jsp" []) (.other "index.jsp") := by
    decide +kernel
  refine ⟨describes, (walked _).mpr ⟨⟨_, _, file, read_shopArchive⟩, ?_, ?_⟩⟩
  · refine ⟨storedEntry_readable (fun has => nomatch cart.unique has), ?_,
      storedEntry_readable (fun has => nomatch page.unique has), trivial⟩
    exact storedEntry_readable fun _ => ⟨⟨_, read_coreArchive⟩,
      storedEntry_readable (fun has => nomatch item.unique has), trivial⟩
  · exact ⟨_, _, .classFile cart (given _ _),
      ⟨_, _, .archive core ⟨_, _, .classFile item (given _ _), rfl, rfl⟩,
        ⟨_, _, .other page, rfl, rfl⟩, rfl⟩, rfl⟩

end ClassAtlas.Discovery
