import ClassAtlas.Proofs.Analysis.Accounting
import ClassAtlas.Report.Format

/-!
Looking up the record of a name. Several entries of an input can be called the same, and then each of
them has a record: one look-up gives the first of these, the other the last. Main statement: the two
agree on a name exactly if the first and the last entry that are called so are alike.
-/

namespace ClassAtlas

namespace Results

variable (r : Results) (name : String)

/-- The records of a name. -/
def recordsNamed : List DependencyRecord :=
  r.records.filter (·.className == name)

theorem record?_eq : r.record? name = (r.recordsNamed name).head? :=
  List.head?_filter.symm

theorem lookup_recordsByClass : r.recordsByClass.lookup name = (r.recordsNamed name).getLast? := by
  rw [recordsByClass, NameMap.lookup_ofList, List.filter_map, List.getLast?_map, Option.map_map]
  exact Option.map_id_apply ..

end Results

namespace Analysis

open ClassFile Schedule

variable (w : World) (s : Settings)

/-- The entries that are called so and have a record. -/
def entriesNamed (entries : List Entry) (name : String) : List Entry :=
  (entries.filter fun e => !isSkipped w s.skipMalformed e).filter (·.name == name)

/-- The class of the entry refers to the name. -/
def RefersTo (e : Entry) (name : String) : Prop :=
  ∃ bytes extracted skipped, e.bytes w = .ok (some bytes) ∧
    extract bytes = .ok (extracted, skipped) ∧ name ∈ extracted.referenced

/-- Two entries of one name that cannot be told apart by their dependencies: two resources, or two
classes that refer to the same names, as far as these count for them. -/
structure Alike (one other : Entry) : Prop where
  kind : one.kind = .resource ↔ other.kind = .resource
  references : ∀ name, Dependency.isValid one.name name s.platformPrefixes = true →
    (RefersTo w one name ↔ RefersTo w other name)

/-- What the two look-ups of a name give in the results on the entries. -/
structure LooksUp (entries : List Entry) (results : Results) (name : String) : Prop where
  first : ∀ e, (entriesNamed w s entries name).head? = some e →
    ∃ record, results.record? name = some record ∧ RecordFor w s (entries.map (·.name)) e record
  last : ∀ e, (entriesNamed w s entries name).getLast? = some e →
    ∃ record, results.recordsByClass.lookup name = some record ∧
      RecordFor w s (entries.map (·.name)) e record
  absent : entriesNamed w s entries name = [] →
    results.record? name = none ∧ results.recordsByClass.lookup name = none
  agree : results.record? name = results.recordsByClass.lookup name ↔
    ∀ one ∈ (entriesNamed w s entries name).head?,
      ∀ other ∈ (entriesNamed w s entries name).getLast?, Alike w s one other
  reported : results.record? name = results.recordsByClass.lookup name → ∀ style,
    Report.memberLines style results.recordsByClass name =
      Report.memberLines style ((results.record? name).map (name, ·)).toList name

variable {w s}

section Records

variable {names : List String} {e one other : Entry} {record : DependencyRecord}

theorem not_refersTo_resource (resource : e.kind = .resource) (name : String) :
    ¬ RefersTo w e name := by
  rintro ⟨bytes, _, _, read, -⟩
  rw [bytes_eq_ok_none_iff.mpr resource] at read
  cases read

theorem eq_of_byteAscending {names others : List String} (ascending : NameSet.ByteAscending names)
    (alsoAscending : NameSet.ByteAscending others) (same : ∀ name, name ∈ names ↔ name ∈ others) :
    names = others := by
  have distinct {list : List String} (ascending : NameSet.ByteAscending list) : list.Nodup := by
    apply List.Pairwise.imp _ ascending
    rintro a _ before rfl
    exact List.lt_irrefl _ before
  have perm := (List.perm_ext_iff_of_nodup (distinct ascending) (distinct alsoAscending)).mpr same
  refine perm.eq_of_pairwise ?_ ascending alsoAscending
  intro a b _ _ before after
  exact absurd after (List.lt_asymm before)

/-- A valid name is among the internal dependencies if it is discovered, else among the external. -/
theorem mem_lists_iff {prefixes : List String} {owner name : String}
    {referenced internal external : List String}
    (split : Dependency.Split names prefixes owner referenced internal external) :
    (name ∈ internal ↔ name ∈ names ∧ name ∈ referenced ∧
        Dependency.isValid owner name prefixes = true) ∧
      (name ∈ external ↔ name ∉ names ∧ name ∈ referenced ∧
        Dependency.isValid owner name prefixes = true) := by
  have valid := split.valid name
  have discovered := split.discovered name
  have undiscovered := split.undiscovered name
  grind

/-- The lists of a split are fixed by the valid names among those referred to. -/
theorem lists_eq_iff {prefixes : List String} {owner : String}
    {referenced internal external referenced' internal' external' : List String}
    (split : Dependency.Split names prefixes owner referenced internal external)
    (split' : Dependency.Split names prefixes owner referenced' internal' external') :
    internal = internal' ∧ external = external' ↔
      ∀ name, Dependency.isValid owner name prefixes = true →
        (name ∈ referenced ↔ name ∈ referenced') := by
  constructor
  · rintro ⟨rfl, rfl⟩ name valid
    have one := split.valid name
    have other := split'.valid name
    simp only [valid, and_true] at one other
    exact one.symm.trans other
  · intro alike
    have sameValid (name : String) :
        name ∈ referenced ∧ Dependency.isValid owner name prefixes = true ↔
          name ∈ referenced' ∧ Dependency.isValid owner name prefixes = true :=
      and_congr_left (alike name)
    constructor
    · apply eq_of_byteAscending split.internal_ascending split'.internal_ascending
      intro name
      rw [(mem_lists_iff split).1, (mem_lists_iff split').1, sameValid]
    · apply eq_of_byteAscending split.external_ascending split'.external_ascending
      intro name
      rw [(mem_lists_iff split).2, (mem_lists_iff split').2, sameValid]

theorem refersTo_iff {bytes : List UInt8} {extracted : ExtractedClass}
    {skipped : List SkippedSignature} (read : e.bytes w = .ok (some bytes))
    (decoded : extract bytes = .ok (extracted, skipped)) (name : String) :
    RefersTo w e name ↔ name ∈ extracted.referenced := by
  constructor
  · rintro ⟨_, _, _, readAgain, decodedAgain, refers⟩
    cases read.symm.trans readAgain
    cases decoded.symm.trans decodedAgain
    exact refers
  · intro refers
    exact ⟨bytes, extracted, skipped, read, decoded, refers⟩

theorem eq_iff_of_className {also : DependencyRecord} (named : record.className = also.className) :
    record = also ↔ record.internalDeps = also.internalDeps ∧
      record.externalDeps = also.externalDeps := by
  cases record
  cases also
  cases named
  simp

/-- Entries of one name have the same record exactly if they are alike. -/
theorem recordFor_eq_iff {also : DependencyRecord} (right : RecordFor w s names one record)
    (alsoRight : RecordFor w s names other also) (same : other.name = one.name) :
    record = also ↔ Alike w s one other := by
  rw [eq_iff_of_className (by rw [right.className, alsoRight.className, same])]
  by_cases resource : one.kind = .resource <;> by_cases alsoResource : other.kind = .resource
  case pos =>
    obtain ⟨noInternal, noExternal⟩ := right.resource resource
    obtain ⟨alsoNoInternal, alsoNoExternal⟩ := alsoRight.resource alsoResource
    rw [noInternal, noExternal, alsoNoInternal, alsoNoExternal]
    refine iff_of_true ⟨rfl, rfl⟩ ⟨iff_of_true resource alsoResource, fun name _ => ?_⟩
    exact iff_of_false (not_refersTo_resource resource name)
      (not_refersTo_resource alsoResource name)
  case neg =>
    obtain ⟨noInternal, _⟩ := right.resource resource
    obtain ⟨_, _, _, _, _, _, _, held, _⟩ := alsoRight.classified alsoResource
    rw [noInternal, held]
    refine iff_of_false (fun lists => nomatch lists.1) fun alike => ?_
    exact alsoResource (alike.kind.mp resource)
  case pos =>
    obtain ⟨noInternal, _⟩ := alsoRight.resource alsoResource
    obtain ⟨_, _, _, _, _, _, _, held, _⟩ := right.classified resource
    rw [noInternal, held]
    refine iff_of_false (fun lists => nomatch lists.1) fun alike => ?_
    exact resource (alike.kind.mpr alsoResource)
  case neg =>
    obtain ⟨_, _, _, _, _, read, decoded, held, heldToo, split⟩ := right.classified resource
    obtain ⟨_, _, _, _, _, read', decoded', held', heldToo', split'⟩ :=
      alsoRight.classified alsoResource
    rw [same] at split'
    rw [held, heldToo, held', heldToo', Option.some.injEq, Option.some.injEq,
      lists_eq_iff split split']
    constructor
    · intro alike
      refine ⟨iff_of_false resource alsoResource, fun name valid => ?_⟩
      rw [refersTo_iff read decoded, refersTo_iff read' decoded']
      exact alike name valid
    · intro alike name valid
      rw [← refersTo_iff read decoded, ← refersTo_iff read' decoded']
      exact alike.references name valid

end Records

section Ends

variable {α β : Type} {R : α → β → Prop} {xs : List α} {ys : List β}

theorem head?_of_forall₂ (related : List.Forall₂ R xs ys) {x : α} (first : xs.head? = some x) :
    ∃ y, ys.head? = some y ∧ R x y := by
  cases related with
  | nil => cases first
  | cons here _ =>
    cases first
    exact ⟨_, rfl, here⟩

theorem getLast?_of_forall₂ (related : List.Forall₂ R xs ys) {x : α}
    (last : xs.getLast? = some x) : ∃ y, ys.getLast? = some y ∧ R x y := by
  rw [← List.head?_reverse] at last ⊢
  exact head?_of_forall₂ (List.forall₂_reverse_iff.mpr related) last

end Ends

/-- The records of a name belong to the entries of the name, one to one and in their order. -/
theorem Classified.named {entries : List Entry} {results : Results}
    (classified : Classified w s entries results) (name : String) :
    List.Forall₂ (RecordFor w s (entries.map (·.name))) (entriesNamed w s entries name)
      (results.recordsNamed name) := by
  refine List.rel_filter ?_ classified.records
  intro e record right
  dsimp only
  rw [right.className]

theorem Classified.looksUp {entries : List Entry} {results : Results}
    (classified : Classified w s entries results) (name : String) :
    LooksUp w s entries results name := by
  have related := classified.named name
  have ends {e : Entry} (member : e ∈ entriesNamed w s entries name) : e.name = name :=
    beq_iff_eq.mp (List.mem_filter.mp member).2
  have first {e : Entry} (isFirst : (entriesNamed w s entries name).head? = some e) :
      ∃ record, results.record? name = some record ∧
        RecordFor w s (entries.map (·.name)) e record := by
    rw [Results.record?_eq]
    exact head?_of_forall₂ related isFirst
  have last {e : Entry} (isLast : (entriesNamed w s entries name).getLast? = some e) :
      ∃ record, results.recordsByClass.lookup name = some record ∧
        RecordFor w s (entries.map (·.name)) e record := by
    rw [Results.lookup_recordsByClass]
    exact getLast?_of_forall₂ related isLast
  have absent (none : entriesNamed w s entries name = []) :
      results.record? name = .none ∧ results.recordsByClass.lookup name = .none := by
    rw [none] at related
    rw [Results.record?_eq, Results.lookup_recordsByClass, List.forall₂_nil_left_iff.mp related]
    exact ⟨rfl, rfl⟩
  refine ⟨fun _ => first, fun _ => last, absent, ?_, ?_⟩
  · by_cases none : entriesNamed w s entries name = []
    · obtain ⟨noRecord, notFound⟩ := absent none
      rw [noRecord, notFound, none]
      simp
    · have isFirst := List.head?_eq_some_head none
      have isLast := List.getLast?_eq_some_getLast none
      obtain ⟨record, found, right⟩ := first isFirst
      obtain ⟨also, alsoFound, alsoRight⟩ := last isLast
      have same := (ends (List.getLast_mem none)).trans (ends (List.head_mem none)).symm
      rw [found, alsoFound, isFirst, isLast, Option.some.injEq, recordFor_eq_iff right alsoRight same]
      simp
  · intro agree style
    unfold Report.memberLines
    rw [← agree]
    cases results.record? name with
    | none => rfl
    | some record => simp [Report.memberLines.resourceLine]

/-- In every run, the two look-ups of a name agree exactly if the first and the last entry of the name
are alike. -/
theorem lookups_agree_iff (w : World) (s : Settings) (rules : List ResourceRule) :
    (∀ (order : List Nat) (entries : List Entry) (noted : Results) (report : Report),
      Complete entries.length order → noted.records = [] →
      reportOn order w s rules entries noted = .ok report →
        ∀ name, LooksUp w s entries report.results name) ∧
    (∀ (schedule : Nat → List Nat) (report : Report), (∀ count, Complete count (schedule count)) →
      runIn schedule w s rules = .ok report →
        ∃ entries noted, discover w s rules { inputPath := s.inputPath, analysisDate := w.now } =
            .ok (entries, noted) ∧
          ∀ name, LooksUp w s entries report.results name) := by
  constructor
  · intro order entries noted report complete fresh ran name
    exact (reportOn_classified complete fresh ran).looksUp name
  · intro schedule report complete ran
    obtain ⟨entries, noted, discovered, reported⟩ := runIn_cases ran
    have fresh := records_of_discover discovered
    refine ⟨entries, noted, discovered, fun name => ?_⟩
    exact (reportOn_classified (complete entries.length) fresh reported).looksUp name

theorem exists_report {ε : Type} {ran : Except ε Report} {results : Results}
    (given : ran.map (·.results) = .ok results) :
    ∃ report, ran = .ok report ∧ report.results = results := by
  cases ran with
  | error failure => cases given
  | ok report => exact ⟨report, rfl, Except.ok.inj given⟩

/-- A class that an archive holds twice, and a resource between the two. -/
def copiedEntries : List Entry :=
  [⟨"A", .classBytes smallClass⟩, ⟨"x.xml", .resource⟩, ⟨"A", .classBytes smallClass⟩]

theorem copiedEntries_agree :
    ∃ report, reportOn (inTurn 3) {} {} [] copiedEntries { inputPath := "." } = .ok report ∧
      LooksUp {} {} copiedEntries report.results "A" ∧
      report.results.record? "A" = report.results.recordsByClass.lookup "A" := by
  have complete : Complete copiedEntries.length (inTurn 3) := complete_inTurn 3
  have outcomes : copiedEntries.map (recordOf {} (copiedEntries.map (·.name)) ["java"]) =
      [.ok (Dependency.classify ["A", "x.xml", "A"] ["java"] "A" ["A", "B"]),
        .ok (.resource "x.xml"),
        .ok (Dependency.classify ["A", "x.xml", "A"] ["java"] "A" ["A", "B"])] := by
    simp only [copiedEntries, List.map_cons, List.map_nil]
    rw [recordOf_class rfl extract_smallClass, recordOf_resource rfl]
  have results := reportOn_results complete {} {} [] { inputPath := "." }
  rw [outcomes] at results
  obtain ⟨report, ran, -⟩ := exists_report results
  have looksUp := (lookups_agree_iff {} {} []).1 _ _ _ _ complete rfl ran "A"
  refine ⟨report, ran, looksUp, looksUp.agree.mpr ?_⟩
  have named : entriesNamed {} {} copiedEntries "A" =
      [⟨"A", .classBytes smallClass⟩, ⟨"A", .classBytes smallClass⟩] := rfl
  rw [named]
  rintro one isOne other isOther
  cases isOne
  cases isOther
  exact ⟨.rfl, fun _ _ => .rfl⟩

/-- A class `w/p.x` that extends `B`. -/
def pageClass : List UInt8 :=
  [0xCA, 0xFE, 0xBA, 0xBE, 0, 0, 0, 52, 0, 5,
    1, 0, 5, 119, 47, 112, 46, 120, 7, 0, 1, 1, 0, 1, 66, 7, 0, 3,
    0, 33, 0, 2, 0, 4, 0, 0, 0, 0, 0, 0, 0, 0]

/-- A page, and beside it a class that is called as the page. -/
def pageInput : World where
  root := .directory [("w", .directory
    [("p.x", .file [] false), ("p.x.class", .file pageClass false)])]

def pageSettings : Settings where
  extraFileTypes := ["x"]

/-- One look-up finds the page and the other the class, which is what the report tells of. -/
theorem page_and_class_differ :
    ∃ report, run pageInput pageSettings (rulesOf pageSettings []) = .ok report ∧
      report.results.record? "w/p.x" = some (.resource "w/p.x") ∧
      report.results.recordsByClass.lookup "w/p.x" =
        some (.ofClass "w/p.x" [] ["B"]) ∧
      Report.memberLines { verbose := true } report.results.recordsByClass "w/p.x" =
        "  w/p.x -> 0 internal, 1 external\n      B (external)\n" := by
  have walked : Discovery.walkDirectory pageInput pageSettings (rulesOf pageSettings []) "." =
      .ok ⟨[⟨"w/p.x", .resource⟩, ⟨"w/p.x", .classFile "./w/p.x.class"⟩], []⟩ := by
    decide +kernel
  have isDirectory : pageInput.isDirectory "." = true := by decide +kernel
  have present : pageInput.pathExists "." = true := by decide +kernel
  have read : Entry.bytes ⟨"w/p.x", .classFile "./w/p.x.class"⟩ pageInput =
      .ok (some pageClass) := by
    decide +kernel
  have decoded : extract pageClass = .ok (⟨"w/p.x", ["B", "w/p.x"]⟩, []) := by decide +kernel
  have split : Dependency.classify ["w/p.x", "w/p.x"] ["java"] "w/p.x"
      ["B", "w/p.x"] = .ofClass "w/p.x" [] ["B"] := by
    decide +kernel
  have results := (Discovered.directory isDirectory walked).runIn_results complete_inTurn present
  simp only [List.map_cons, List.map_nil] at results
  rw [recordOf_resource rfl, recordOf_class read decoded] at results
  have platform : pageSettings.platformPrefixes = ["java"] := rfl
  rw [platform, split] at results
  obtain ⟨report, ran, same⟩ := exists_report results
  have found : report.results.recordsByClass.lookup "w/p.x" =
      some (.ofClass "w/p.x" [] ["B"]) := by
    rw [same]
    rfl
  refine ⟨report, ran, by rw [same]; rfl, found, ?_⟩
  unfold Report.memberLines
  rw [found]
  decide +kernel

end Analysis

end ClassAtlas
