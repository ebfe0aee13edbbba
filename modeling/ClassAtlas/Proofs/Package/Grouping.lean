import ClassAtlas.Package.Grouping
import ClassAtlas.Proofs.FirstOccurrence
import ClassAtlas.Proofs.Package.Index

/-!
What the groups of a list of records are. Packages and members stand in the order of their first
places in the list, where a place after a file of an extra type counts only if it holds such a file.
The index, for which the records are scanned again at every new package, is the one that a single
pass over the records makes.
-/

namespace ClassAtlas.PackageIndex

section Packages

/-- The package has a record at the place. -/
def PackageAt (records : List DependencyRecord) (i : Nat) (package : String) : Prop :=
  ∃ record, records[i]? = some record ∧ record.package = package

/-- The packages of records in the order of their first records. -/
def packagesOf (records : List DependencyRecord) : List String :=
  (records.map (·.package)).eraseDups

theorem packagesOf_concat (records : List DependencyRecord) (last : DependencyRecord) :
    packagesOf (records ++ [last]) =
      if last.package ∈ packagesOf records then packagesOf records
      else packagesOf records ++ [last.package] := by
  unfold packagesOf
  rw [List.map_append, List.map_singleton, eraseDups_concat]

theorem mem_packagesOf {records : List DependencyRecord} {package : String} :
    package ∈ packagesOf records ↔ ∃ record ∈ records, record.package = package := by
  rw [packagesOf, List.mem_eraseDups, List.mem_map]

theorem packagesOf_inFirstOrder (records : List DependencyRecord) :
    InFirstOrder (PackageAt records) (packagesOf records) :=
  inFirstOrder_eraseDups_map (·.package) records

end Packages

section Members

variable (fileTypes : List String)

/-- No record of the package before the place is a file of an extra type. -/
def FreeOfFiles (records : List DependencyRecord) (package : String) (i : Nat) : Prop :=
  ∀ j < i, ∀ earlier, records[j]? = some earlier → earlier.package = package →
    Name.hasFileType earlier.className fileTypes = false

/-- The place holds a record of the name in the package, and the record counts: it is a file of an
extra type, or no earlier one of the package is. -/
def MemberAt (records : List DependencyRecord) (package : String) (i : Nat) (name : String) : Prop :=
  ∃ record, records[i]? = some record ∧ record.package = package ∧ record.className = name ∧
    (Name.hasFileType name fileTypes = true ∨ FreeOfFiles fileTypes records package i)

/-- What offering the records of a package one after another comes to. -/
def admissionOf (records : List DependencyRecord) (package : String) : Admission :=
  ((records.filter (·.package == package)).map (·.className)).foldl (Admission.offer fileTypes) {}

theorem offer_holdsFiles (a : Admission) (name : String) :
    (a.offer fileTypes name).holdsFiles = (a.holdsFiles || Name.hasFileType name fileTypes) := by
  unfold Admission.offer
  cases holds : a.holdsFiles <;> cases Name.hasFileType name fileTypes <;> simp [holds]

theorem offer_refused {a : Admission} {name : String} (holds : a.holdsFiles = true)
    (noFile : Name.hasFileType name fileTypes = false) : a.offer fileTypes name = a := by
  simp [Admission.offer, holds, noFile]

theorem offer_members {a : Admission} {name : String}
    (admitted : Name.hasFileType name fileTypes = true ∨ a.holdsFiles = false) :
    (a.offer fileTypes name).members =
      if name ∈ a.members then a.members else a.members ++ [name] := by
  unfold Admission.offer
  rcases admitted with isFile | noFiles
  · simp [isFile]
  · simp [noFiles]

theorem admissionOf_concat (records : List DependencyRecord) (last : DependencyRecord)
    (package : String) :
    admissionOf fileTypes (records ++ [last]) package =
      if package = last.package then
        (admissionOf fileTypes records package).offer fileTypes last.className
      else admissionOf fileTypes records package := by
  unfold admissionOf
  by_cases same : package = last.package
  · simp [List.filter_append, same]
  · simp [List.filter_append, same, Ne.symm same]

variable {fileTypes} {records : List DependencyRecord} {package : String}

theorem admissionOf_absent (absent : package ∉ packagesOf records) :
    admissionOf fileTypes records package = {} := by
  have none : records.filter (·.package == package) = [] := by
    rw [List.filter_eq_nil_iff]
    intro record member named
    exact absent (mem_packagesOf.mpr ⟨record, member, beq_iff_eq.mp named⟩)
  rw [admissionOf, none]
  rfl

/-- The flag of a package tells whether it holds a file. -/
theorem holdsFiles_iff : (admissionOf fileTypes records package).holdsFiles = true ↔
    ∃ record ∈ records, record.package = package ∧ Name.hasFileType record.className fileTypes = true := by
  induction records using List.reverseRecOn with
  | nil => simp [admissionOf]
  | append_singleton records last ih =>
      have split : (∃ record ∈ records ++ [last], record.package = package ∧
          Name.hasFileType record.className fileTypes = true) ↔
            (admissionOf fileTypes records package).holdsFiles = true ∨
              last.package = package ∧ Name.hasFileType last.className fileTypes = true := by
        rw [ih]
        simp [or_and_right, exists_or]
      rw [admissionOf_concat, split]
      by_cases same : package = last.package
      · rw [if_pos same, offer_holdsFiles, Bool.or_eq_true]
        simp [same]
      · rw [if_neg same]
        simp [Ne.symm same]

theorem MemberAt.lt {i : Nat} {name : String} (there : MemberAt fileTypes records package i name) :
    i < records.length := by
  obtain ⟨record, held, -⟩ := there
  exact (List.getElem?_eq_some_iff.mp held).1

theorem freeOfFiles_concat {last : DependencyRecord} {i : Nat} (inside : i ≤ records.length) :
    FreeOfFiles fileTypes (records ++ [last]) package i ↔ FreeOfFiles fileTypes records package i := by
  unfold FreeOfFiles
  apply forall₂_congr
  intro j earlier
  rw [List.getElem?_append_left (Nat.lt_of_lt_of_le earlier inside)]

theorem freeOfFiles_length : FreeOfFiles fileTypes records package records.length ↔
    (admissionOf fileTypes records package).holdsFiles = false := by
  rw [← Bool.not_eq_true, holdsFiles_iff]
  constructor
  · intro free held
    obtain ⟨record, member, named, isFile⟩ := held
    obtain ⟨j, inside, there⟩ := List.getElem_of_mem member
    rw [free j inside record (List.getElem?_eq_some_iff.mpr ⟨inside, there⟩) named] at isFile
    cases isFile
  · intro none j inside earlier there named
    rw [← Bool.not_eq_true]
    intro isFile
    exact none ⟨earlier, List.mem_of_getElem? there, named, isFile⟩

theorem memberAt_concat {last : DependencyRecord} {i : Nat} {name : String} :
    MemberAt fileTypes (records ++ [last]) package i name ↔
      MemberAt fileTypes records package i name ∨
        i = records.length ∧ last.package = package ∧ last.className = name ∧
          (Name.hasFileType name fileTypes = true ∨
            (admissionOf fileTypes records package).holdsFiles = false) := by
  unfold MemberAt
  rw [← freeOfFiles_length]
  constructor
  · intro there
    obtain ⟨record, held, named, called, counts⟩ := there
    rcases getElem?_concat_eq_some_iff.mp held with within | ⟨rfl, rfl⟩
    · have inside := Nat.le_of_lt (List.getElem?_eq_some_iff.mp within).1
      rw [freeOfFiles_concat inside] at counts
      exact .inl ⟨record, within, named, called, counts⟩
    · rw [freeOfFiles_concat Nat.le.refl] at counts
      exact .inr ⟨rfl, named, called, counts⟩
  · intro there
    rcases there with ⟨record, within, named, called, counts⟩ | ⟨rfl, named, called, counts⟩
    · have inside := Nat.le_of_lt (List.getElem?_eq_some_iff.mp within).1
      rw [← freeOfFiles_concat inside] at counts
      exact ⟨record, getElem?_concat_eq_some_iff.mpr (.inl within), named, called, counts⟩
    · rw [← freeOfFiles_concat Nat.le.refl] at counts
      exact ⟨last, List.getElem?_concat_length, named, called, counts⟩

theorem members_inFirstOrder :
    InFirstOrder (MemberAt fileTypes records package)
      (admissionOf fileTypes records package).members := by
  induction records using List.reverseRecOn with
  | nil => exact ⟨by simp [admissionOf, MemberAt], .nil⟩
  | append_singleton records last ih =>
      rw [admissionOf_concat]
      by_cases same : package = last.package
      · by_cases counts : Name.hasFileType last.className fileTypes = true ∨
            (admissionOf fileTypes records package).holdsFiles = false
        · rw [if_pos same, offer_members fileTypes counts]
          apply ih.next (fun i name there => there.lt)
          intro i name
          rw [memberAt_concat]
          constructor
          · intro there
            exact there.imp_right fun ⟨atEnd, _, called, _⟩ => ⟨atEnd, called.symm⟩
          · intro there
            exact there.imp_right fun ⟨atEnd, called⟩ =>
              ⟨atEnd, same.symm, called.symm, called ▸ counts⟩
        · obtain ⟨noFile, holds⟩ := not_or.mp counts
          rw [if_pos same, offer_refused fileTypes (Bool.not_eq_false _ ▸ holds)
            (Bool.not_eq_true _ ▸ noFile)]
          apply ih.congr
          intro i name
          rw [memberAt_concat, or_iff_left]
          intro there
          obtain ⟨-, -, called, admitted⟩ := there
          exact counts (called ▸ admitted)
      · rw [if_neg same]
        apply ih.congr
        intro i name
        rw [memberAt_concat, or_iff_left]
        intro there
        exact same there.2.1.symm

end Members

section OnePass

variable (fileTypes : List String)

/-- Offers a record to its package, which comes last if it is new. -/
def sortIn : List (String × Admission) → DependencyRecord → List (String × Admission)
  | [], record => [(record.package, Admission.offer fileTypes {} record.className)]
  | (package, a) :: others, record =>
    if package = record.package then (package, a.offer fileTypes record.className) :: others
    else (package, a) :: sortIn others record

/-- The index by one pass over the records. For each package so far, the pass keeps the members and
whether there are files among them. -/
def onePass (records : List DependencyRecord) : PackageIndex :=
  ofList ((records.foldl (sortIn fileTypes) []).map fun (package, a) => ⟨package, a.members⟩)

variable {fileTypes}

theorem sortIn_map {packages : List String} (distinct : packages.Nodup) {f : String → Admission}
    {record : DependencyRecord} (fresh : record.package ∉ packages → f record.package = {}) :
    sortIn fileTypes (packages.map fun package => (package, f package)) record =
      (if record.package ∈ packages then packages else packages ++ [record.package]).map
        fun package => (package, if package = record.package then
          (f package).offer fileTypes record.className else f package) := by
  induction packages with
  | nil => simp [sortIn, fresh]
  | cons first packages ih =>
      obtain ⟨notAgain, distinctRest⟩ := List.nodup_cons.mp distinct
      rw [List.map_cons, sortIn]
      by_cases same : first = record.package
      · have elsewhere : ∀ package ∈ packages, package ≠ record.package := by
          intro package member wrong
          exact notAgain (same ▸ wrong ▸ member)
        rw [if_pos same, if_pos (List.mem_cons.mpr (.inl same.symm)), List.map_cons, if_pos same]
        congr 1
        apply List.map_congr_left
        intro package member
        rw [if_neg (elsewhere package member)]
      · have later : record.package ∈ first :: packages ↔ record.package ∈ packages := by
          rw [List.mem_cons, or_iff_right (Ne.symm same)]
        rw [if_neg same, ih distinctRest fun absent => fresh (later.not.mpr absent)]
        by_cases present : record.package ∈ packages
        · rw [if_pos present, if_pos (later.mpr present), List.map_cons, if_neg same]
        · rw [if_neg present, if_neg (later.not.mpr present), List.cons_append, List.map_cons,
            if_neg same]

/-- After any number of records the pass holds their packages, each with its members. -/
theorem foldl_sortIn (records : List DependencyRecord) :
    records.foldl (sortIn fileTypes) [] =
      (packagesOf records).map fun package => (package, admissionOf fileTypes records package) := by
  induction records using List.reverseRecOn with
  | nil => rfl
  | append_singleton records last ih =>
      have distinct := (packagesOf_inFirstOrder records).nodup
      rw [List.foldl_append, ih, List.foldl_cons, List.foldl_nil,
        sortIn_map distinct admissionOf_absent, packagesOf_concat]
      simp only [admissionOf_concat]

end OnePass

section Rescan

variable {fileTypes : List String}

/-- The index after any number of records holds their packages, each with all members it has among
the whole of the records. -/
theorem foldl_addPackage (records done : List DependencyRecord) :
    done.foldl (addPackage fileTypes records) {} =
      ofList ((packagesOf done).map fun package => ⟨package, membersOf fileTypes records package⟩) := by
  induction done using List.reverseRecOn with
  | nil => rfl
  | append_singleton done last ih =>
      have names : ((packagesOf done).map fun package =>
          (⟨package, membersOf fileTypes records package⟩ : PackageGroup)).map (·.name) =
            packagesOf done := by
        rw [List.map_map]
        exact List.map_id _
      rw [List.foldl_append, ih, List.foldl_cons, List.foldl_nil, packagesOf_concat, addPackage]
      simp only [get?_ofList_isSome_iff, names]
      split
      case isTrue => rfl
      case isFalse absent =>
        rw [modify_ofList_new (by rwa [names]) rfl, List.map_append, List.map_singleton]

end Rescan

/-- What an index of records by packages is. -/
structure Groups (records : List DependencyRecord) (fileTypes : List String) (index : PackageIndex) :
    Prop where
  packages : InFirstOrder (PackageAt records) (index.toList.map (·.name))
  distinct : (index.toList.map (·.name)).Nodup
  present : ∀ record ∈ records, ∃ group, index.get? record.package = some group ∧
    group ∈ index.toList ∧ group.name = record.package
  nonempty : ∀ group ∈ index.toList, group.members ≠ []
  members : ∀ group ∈ index.toList,
    InFirstOrder (MemberAt fileTypes records group.name) group.members
  unrepeated : ∀ group ∈ index.toList, group.members.Nodup
  singlePass : index = onePass fileTypes records
  apart : ∀ one ∈ index.toList, ∀ other ∈ index.toList, ∀ name,
    name ∈ one.members → name ∈ other.members → one = other
  complete : fileTypes = [] → ∀ record ∈ records,
    ∃! group, group ∈ index.toList ∧ record.className ∈ group.members

section

variable {records : List DependencyRecord} {fileTypes : List String} {package name : String}

theorem ofRecords_eq (records : List DependencyRecord) (fileTypes : List String) :
    ofRecords records fileTypes = ofList ((packagesOf records).map fun package =>
      ⟨package, (admissionOf fileTypes records package).members⟩) :=
  foldl_addPackage records records

theorem mem_ofRecords {group : PackageGroup} : group ∈ (ofRecords records fileTypes).toList ↔
    group.name ∈ packagesOf records ∧
      group.members = (admissionOf fileTypes records group.name).members := by
  rw [ofRecords_eq]
  change group ∈ (packagesOf records).map _ ↔ _
  rw [List.mem_map]
  constructor
  · intro made
    obtain ⟨package, listed, rfl⟩ := made
    exact ⟨listed, rfl⟩
  · intro held
    exact ⟨group.name, held.1, by rw [← held.2]⟩

theorem names_ofRecords (records : List DependencyRecord) (fileTypes : List String) :
    (ofRecords records fileTypes).toList.map (·.name) = packagesOf records := by
  rw [ofRecords_eq]
  change ((packagesOf records).map _).map _ = _
  rw [List.map_map]
  exact List.map_id _

theorem get?_ofRecords {group : PackageGroup} (held : group ∈ (ofRecords records fileTypes).toList) :
    (ofRecords records fileTypes).get? group.name = some group := by
  have distinct : ((ofRecords records fileTypes).toList.map (·.name)).Nodup := by
    rw [names_ofRecords]
    exact (packagesOf_inFirstOrder records).nodup
  rw [ofRecords_eq] at held distinct ⊢
  exact get?_ofList_of_mem distinct held

theorem exists_group {record : DependencyRecord} (among : record ∈ records) :
    ∃ group ∈ (ofRecords records fileTypes).toList, group.name = record.package := by
  rw [← List.mem_map, names_ofRecords, mem_packagesOf]
  exact ⟨record, among, rfl⟩

theorem MemberAt.package_eq {i : Nat} (there : MemberAt fileTypes records package i name) :
    Name.package name = package := by
  obtain ⟨record, -, named, rfl, -⟩ := there
  exact named

/-- The first record of a package always counts. -/
theorem members_ne_nil (listed : package ∈ packagesOf records) :
    (admissionOf fileTypes records package).members ≠ [] := by
  classical
  have somewhere := ((packagesOf_inFirstOrder records).mem package).mp listed
  obtain ⟨record, held, named⟩ := Nat.find_spec somewhere
  have free : FreeOfFiles fileTypes records package (Nat.find somewhere) := by
    intro j before earlier there alike
    exact absurd ⟨earlier, there, alike⟩ (Nat.find_min somewhere before)
  have member := (members_inFirstOrder.mem record.className).mpr
    ⟨_, record, held, named, rfl, .inr free⟩
  exact List.ne_nil_of_mem member

theorem freeOfFiles_of_no_types (i : Nat) : FreeOfFiles [] records package i := by
  intro j before earlier there named
  simp [Name.hasFileType]

end

/-- Scanning the records again at every new package loses nothing and repeats nothing. -/
theorem ofRecords_groups (records : List DependencyRecord) (fileTypes : List String) :
    Groups records fileTypes (ofRecords records fileTypes) := by
  have inOrder : InFirstOrder (PackageAt records)
      ((ofRecords records fileTypes).toList.map (·.name)) := by
    rw [names_ofRecords]
    exact packagesOf_inFirstOrder records
  have members : ∀ group ∈ (ofRecords records fileTypes).toList,
      InFirstOrder (MemberAt fileTypes records group.name) group.members := by
    intro group held
    rw [(mem_ofRecords.mp held).2]
    exact members_inFirstOrder
  have apart : ∀ one ∈ (ofRecords records fileTypes).toList,
      ∀ other ∈ (ofRecords records fileTypes).toList, ∀ name,
        name ∈ one.members → name ∈ other.members → one = other := by
    intro one isGroup other isOther name inOne inOther
    obtain ⟨i, there⟩ := ((members one isGroup).mem name).mp inOne
    obtain ⟨j, elsewhere⟩ := ((members other isOther).mem name).mp inOther
    have same : one.name = other.name := there.package_eq.symm.trans elsewhere.package_eq
    exact List.inj_on_of_nodup_map inOrder.nodup isGroup isOther same
  refine ⟨inOrder, inOrder.nodup, ?_, ?_, members, ?_, ?_, apart, ?_⟩
  · intro record among
    obtain ⟨group, held, named⟩ := exists_group among
    exact ⟨group, named ▸ get?_ofRecords held, held, named⟩
  · intro group held
    rw [(mem_ofRecords.mp held).2]
    exact members_ne_nil (mem_ofRecords.mp held).1
  · intro group held
    exact (members group held).nodup
  · rw [ofRecords_eq, onePass, foldl_sortIn, List.map_map]
    rfl
  · intro noTypes record among
    subst noTypes
    obtain ⟨group, held, named⟩ := exists_group among
    obtain ⟨i, inside, there⟩ := List.getElem_of_mem among
    have counted : MemberAt [] records group.name i record.className :=
      ⟨record, List.getElem?_eq_some_iff.mpr ⟨inside, there⟩, named.symm, rfl,
        .inr (freeOfFiles_of_no_types i)⟩
    have inGroup := ((members group held).mem record.className).mpr ⟨i, counted⟩
    refine ⟨group, ⟨held, inGroup⟩, ?_⟩
    intro other isOther
    exact apart other isOther.1 group held record.className isOther.2 inGroup

end ClassAtlas.PackageIndex
