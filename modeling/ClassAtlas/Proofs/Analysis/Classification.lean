import ClassAtlas.Proofs.Analysis.Schedule
import ClassAtlas.Proofs.ClassFile.Resolution
import ClassAtlas.Proofs.NameSet
import ClassAtlas.Proofs.Text.Utf8

/-!
What a run says about its entries. Each entry that is not skipped has one record, in the order of
discovery; a class has its valid references in two lists, by whether an entry of the whole run is
called so. The names of a list are compared by the bytes of their UTF-8 form.
-/

namespace ClassAtlas

namespace Dependency

theorem not_isPlatform_iff (platformPrefixes : List String) (name : String) :
    isPlatform platformPrefixes name = false ↔
      ∀ start ∈ platformPrefixes, ¬ start.toList <+: name.toList := by
  simp [isPlatform]

/-- The dependencies of `owner`, which refers to `referenced`, in a run whose entries are called
`names`. -/
structure Split (names platformPrefixes : List String) (owner : String)
    (referenced internal external : List String) : Prop where
  internal_ascending : NameSet.ByteAscending internal
  external_ascending : NameSet.ByteAscending external
  disjoint : internal.Disjoint external
  valid (name : String) : name ∈ internal ∨ name ∈ external ↔
    name ∈ referenced ∧ isValid owner name platformPrefixes = true
  not_owner : owner ∉ internal ∧ owner ∉ external
  not_platform (name : String) : name ∈ internal ∨ name ∈ external →
    ∀ start ∈ platformPrefixes, ¬ start.toList <+: name.toList
  discovered : ∀ name ∈ internal, name ∈ names
  undiscovered : ∀ name ∈ external, name ∉ names

theorem isValid_iff (owner name : String) (platformPrefixes : List String) :
    isValid owner name platformPrefixes = true ↔
      isPlatform platformPrefixes name = false ∧ name ≠ owner ∧ isInnerOf owner name = false := by
  simp [isValid, and_assoc]

theorem classify_split (names platformPrefixes : List String) (owner : String)
    (referenced : List String) :
    ∃ internal external, classify names platformPrefixes owner referenced =
        .ofClass owner internal external ∧
      Split names platformPrefixes owner referenced internal external := by
  have ascending : NameSet.Ascending
      ((NameSet.ofList referenced).filter (isValid owner · platformPrefixes)) :=
    (NameSet.ascending_ofList referenced).filter _
  have together (name : String) :
      name ∈ (NameSet.ofList referenced).filter (isValid owner · platformPrefixes) ↔
        name ∈ referenced ∧ isValid owner name platformPrefixes = true := by
    rw [List.mem_filter, NameSet.mem_ofList]
  generalize listed : (NameSet.ofList referenced).filter (isValid owner · platformPrefixes) = valid
    at ascending together
  have split (name : String) : name ∈ valid.filter names.contains ∨
      name ∈ valid.filter (!names.contains ·) ↔
        name ∈ referenced ∧ isValid owner name platformPrefixes = true := by
    rw [← together]
    simp only [List.mem_filter]
    cases names.contains name <;> simp
  have invalidOwner : isValid owner owner platformPrefixes = false := by simp [isValid]
  refine ⟨valid.filter names.contains, valid.filter (!names.contains ·), ?_,
    (NameSet.Ascending.bytes (ascending.filter _)), (NameSet.Ascending.bytes (ascending.filter _)),
    ?_, split, ?_, ?_, ?_, ?_⟩
  · rw [classify, listed]
  · intro name inside outside
    have found := (List.mem_filter.mp inside).2
    have missing := (List.mem_filter.mp outside).2
    rw [found] at missing
    cases missing
  · have unlisted : ¬ (owner ∈ valid.filter names.contains ∨
        owner ∈ valid.filter (!names.contains ·)) := by
      rw [split, invalidOwner]
      simp
    exact not_or.mp unlisted
  · intro name listed
    have valid := ((split name).mp listed).2
    exact (not_isPlatform_iff ..).mp ((isValid_iff ..).mp valid).1
  · intro name inside
    simpa using (List.mem_filter.mp inside).2
  · intro name outside
    simpa using (List.mem_filter.mp outside).2

end Dependency

namespace Analysis

open ClassFile Schedule

variable (w : World) (s : Settings)

/-- A class whose bytes are malformed, in a run that leaves such classes out. -/
def isSkipped (skipMalformed : Bool) (e : Entry) : Bool :=
  match e.bytes w with
  | .ok (some bytes) => skipMalformed && !(extract bytes).isOk
  | _ => false

/-- The record of an entry in a run whose entries are called `names`. -/
structure RecordFor (names : List String) (e : Entry) (record : DependencyRecord) : Prop where
  className : record.className = e.name
  resource : e.kind = .resource → record.internalDeps = none ∧ record.externalDeps = none
  classified : e.kind ≠ .resource → ∃ bytes extracted skipped internal external,
    e.bytes w = .ok (some bytes) ∧ extract bytes = .ok (extracted, skipped) ∧
      record.internalDeps = some internal ∧ record.externalDeps = some external ∧
      Dependency.Split names s.platformPrefixes e.name extracted.referenced internal external

/-- The results agree with the entries: one record for each entry that is not skipped, in their order,
and every internal dependency accounted for by a record or a warning. -/
structure Classified (entries : List Entry) (results : Results) : Prop where
  records : List.Forall₂ (RecordFor w s (entries.map (·.name)))
    (entries.filter fun e => !isSkipped w s.skipMalformed e) results.records
  accounted : ∀ record ∈ results.records, ∀ name ∈ record.internal,
    (∃ other ∈ results.records, other.className = name) ∨
      ∃ skipped ∈ results.errors, skipped.location = name ∧ skipped.severity = .warning

/-- What taking in the outcomes of all entries comes to. -/
structure Collected (names : List String) (entries : List Entry) (before after : Results) : Prop where
  records : ∃ records, after.records = before.records ++ records ∧
    List.Forall₂ (RecordFor w s names) (entries.filter fun e => !isSkipped w s.skipMalformed e) records
  errors : before.errors ⊆ after.errors
  accounted : ∀ e ∈ entries, (∃ record ∈ after.records, record.className = e.name) ∨
    ∃ skipped ∈ after.errors, skipped.location = e.name ∧ skipped.severity = .warning

variable {w} {s}

theorem bytes_eq_ok_none_iff {e : Entry} : e.bytes w = .ok none ↔ e.kind = .resource := by
  obtain ⟨name, kind⟩ := e
  cases kind with
  | resource => simp [Entry.bytes]
  | classBytes bytes => simp [Entry.bytes]
  | classFile path =>
      simp only [Entry.bytes]
      cases w.readFile path <;> simp

/-- A file that cannot be read is no malformed class. -/
theorem not_isMalformed_of_bytes {e : Entry} {failure : Failure} (unread : e.bytes w = .error failure) :
    isMalformed failure = false := by
  obtain ⟨name, kind⟩ := e
  cases kind with
  | resource => cases unread
  | classBytes bytes => cases unread
  | classFile path =>
      simp only [Entry.bytes] at unread
      cases read : w.readFile path with
      | ok bytes => rw [read] at unread; cases unread
      | error cause =>
          rw [read] at unread
          cases unread
          unfold Failure.ofFileAccess
          split <;> rfl

section RecordOf

variable {names platformPrefixes : List String} {e : Entry}

theorem recordOf_unread {failure : Failure} (unread : e.bytes w = .error failure) :
    recordOf w names platformPrefixes e = .error failure := by
  rw [recordOf, unread]
  rfl

theorem recordOf_resource (resource : e.bytes w = .ok none) :
    recordOf w names platformPrefixes e = .ok (.resource e.name) := by
  rw [recordOf, resource]
  rfl

theorem recordOf_malformed {bytes : List UInt8} {cause : DecodeError}
    (read : e.bytes w = .ok (some bytes)) (malformed : extract bytes = .error cause) :
    recordOf w names platformPrefixes e = .error (.malformedClass e.name cause) := by
  rw [recordOf, read]
  simp only [bind, Except.bind, malformed]
  rfl

theorem recordOf_class {bytes : List UInt8} {extracted : ExtractedClass}
    {skipped : List SkippedSignature} (read : e.bytes w = .ok (some bytes))
    (decoded : extract bytes = .ok (extracted, skipped)) :
    recordOf w names platformPrefixes e =
      .ok (Dependency.classify names platformPrefixes e.name extracted.referenced) := by
  rw [recordOf, read]
  simp only [bind, Except.bind, decoded]
  rfl

/-- An entry that has a record is not skipped, and the record is the right one. -/
theorem recordFor_of_recordOf {record : DependencyRecord}
    (made : recordOf w names s.platformPrefixes e = .ok record) :
    isSkipped w s.skipMalformed e = false ∧ RecordFor w s names e record := by
  cases read : e.bytes w with
  | error failure =>
      rw [recordOf_unread read] at made
      cases made
  | ok content =>
      cases content with
      | none =>
          rw [recordOf_resource read] at made
          cases made
          refine ⟨by simp only [isSkipped, read], rfl, fun _ => ⟨rfl, rfl⟩, fun other => ?_⟩
          exact absurd (bytes_eq_ok_none_iff.mp read) other
      | some bytes =>
          have isClass : e.kind ≠ .resource := by
            intro resource
            rw [bytes_eq_ok_none_iff.mpr resource] at read
            cases read
          cases decoded : extract bytes with
          | error cause =>
              rw [recordOf_malformed read decoded] at made
              cases made
          | ok found =>
              obtain ⟨extracted, skipped⟩ := found
              rw [recordOf_class read decoded] at made
              obtain ⟨internal, external, same, split⟩ := Dependency.classify_split names
                s.platformPrefixes e.name extracted.referenced
              rw [same] at made
              cases made
              refine ⟨?_, rfl, fun resource => absurd resource isClass, fun _ => ?_⟩
              · simp only [isSkipped, read, decoded, Except.isOk, Except.toBool, Bool.not_true,
                  Bool.and_false]
              · exact ⟨bytes, extracted, skipped, internal, external, read, decoded, rfl, rfl, split⟩

/-- Among the failures, a malformed class is what can be skipped. -/
theorem isSkipped_of_recordOf {failure : Failure} (skips : s.skipMalformed = true)
    (failed : recordOf w names s.platformPrefixes e = .error failure)
    (malformed : isMalformed failure = true) : isSkipped w s.skipMalformed e = true := by
  cases read : e.bytes w with
  | error other =>
      rw [recordOf_unread read] at failed
      cases failed
      rw [not_isMalformed_of_bytes read] at malformed
      cases malformed
  | ok content =>
      cases content with
      | none =>
          rw [recordOf_resource read] at failed
          cases failed
      | some bytes =>
          cases decoded : extract bytes with
          | ok found =>
              rw [recordOf_class read decoded] at failed
              cases failed
          | error cause =>
              simp only [isSkipped, read, decoded, skips, Except.isOk, Except.toBool, Bool.not_false,
                Bool.and_true]

end RecordOf

/-- What taking in one outcome can do. -/
theorem addOutcome_cases {skipMalformed : Bool} {before after : Results} {e : Entry}
    {outcome : Except Failure DependencyRecord}
    (added : addOutcome skipMalformed before (e, outcome) = .ok after) :
    (∃ record, outcome = .ok record ∧ after = before.addRecord record) ∨
      ∃ failure, outcome = .error failure ∧ skipMalformed = true ∧ isMalformed failure = true ∧
        after = before.addSkipped e.name failure := by
  cases outcome with
  | ok record =>
      cases added
      exact .inl ⟨record, rfl, rfl⟩
  | error failure =>
      simp only [addOutcome] at added
      split at added
      case isTrue skips =>
        cases added
        obtain ⟨skips, malformed⟩ := (Bool.and_eq_true _ _).mp skips
        exact .inr ⟨failure, rfl, skips, malformed, rfl⟩
      case isFalse => cases added

theorem collected_of_foldlM {names : List String} (entries : List Entry) {before after : Results}
    (ran : (entries.zip (entries.map (recordOf w names s.platformPrefixes))).foldlM
      (addOutcome s.skipMalformed) before = .ok after) :
    Collected w s names entries before after := by
  induction entries generalizing before with
  | nil =>
      cases ran
      refine ⟨⟨[], (List.append_nil _).symm, .nil⟩, fun _ member => member, ?_⟩
      intro e member
      cases member
  | cons e entries ih =>
      rw [List.map_cons, List.zip_cons_cons, List.foldlM_cons] at ran
      obtain ⟨between, added, rest⟩ := bind_eq_ok_iff.mp ran
      obtain ⟨⟨records, appended, belong⟩, kept, accounted⟩ := ih rest
      rcases addOutcome_cases added with ⟨record, made, rfl⟩ | ⟨failure, failed, skips, malformed, rfl⟩
      · obtain ⟨notSkipped, right⟩ := recordFor_of_recordOf made
        refine ⟨⟨record :: records, ?_, ?_⟩, kept, ?_⟩
        · rw [appended, Results.addRecord, List.append_assoc, List.singleton_append]
        · rw [List.filter_cons_of_pos (by rw [notSkipped]; rfl)]
          exact .cons right belong
        · intro other member
          rcases List.mem_cons.mp member with rfl | later
          · refine .inl ⟨record, ?_, right.className⟩
            rw [appended, Results.addRecord]
            simp
          · exact accounted other later
      · have isLeftOut := isSkipped_of_recordOf skips failed malformed
        refine ⟨⟨records, appended, ?_⟩, ?_, ?_⟩
        · rw [List.filter_cons_of_neg (by rw [isLeftOut]; decide)]
          exact belong
        · exact fun error member => kept (List.mem_append_left _ member)
        · intro other member
          rcases List.mem_cons.mp member with rfl | later
          · exact .inr ⟨⟨other.name, failure.message, .warning⟩,
              kept (List.mem_append_right _ (List.mem_singleton_self _)), rfl, rfl⟩
          · exact accounted other later

theorem exists_of_forall₂_right {α β : Type} {R : α → β → Prop} {xs : List α} {ys : List β}
    (related : List.Forall₂ R xs ys) {y : β} (member : y ∈ ys) : ∃ x ∈ xs, R x y := by
  induction related with
  | nil => cases member
  | cons first _ ih =>
      rcases List.mem_cons.mp member with rfl | later
      · exact ⟨_, List.mem_cons_self, first⟩
      · obtain ⟨x, inside, right⟩ := ih later
        exact ⟨x, List.mem_cons_of_mem _ inside, right⟩

theorem classified_of_collected {rules : List ResourceRule} {entries : List Entry}
    {before after : Results} (fresh : before.records = [])
    (collected : Collected w s (entries.map (·.name)) entries before after) :
    Classified w s entries (conclude w rules after) := by
  obtain ⟨⟨records, appended, belong⟩, -, accounted⟩ := collected
  rw [fresh, List.nil_append] at appended
  have same : (conclude w rules after).records = records := appended
  refine ⟨same ▸ belong, ?_⟩
  intro record member name internal
  have own : record ∈ records := same ▸ member
  obtain ⟨e, listed, right⟩ := exists_of_forall₂_right belong own
  have discovered : name ∈ entries.map (·.name) := by
    by_cases resource : e.kind = .resource
    · rw [DependencyRecord.internal, (right.resource resource).1] at internal
      cases internal
    · obtain ⟨_, _, _, found, _, _, _, held, _, split⟩ := right.classified resource
      rw [DependencyRecord.internal, held] at internal
      exact split.discovered name internal
  obtain ⟨target, among, rfl⟩ := List.mem_map.mp discovered
  exact accounted target among

/-- Discovery notes failures and no records. -/
theorem records_of_noteFault (faults : List (String × Failure)) {start noted : Results}
    (ran : faults.foldlM noteFault start = .ok noted) : noted.records = start.records := by
  induction faults generalizing start with
  | nil =>
      cases ran
      rfl
  | cons fault faults ih =>
      rw [List.foldlM_cons] at ran
      obtain ⟨between, step, rest⟩ := bind_eq_ok_iff.mp ran
      rw [ih rest]
      unfold noteFault at step
      split at step
      · cases step
      · cases step
        rfl

theorem records_of_discover {rules : List ResourceRule} {start : Results}
    {found : List Entry × Results} (discovered : discover w s rules start = .ok found) :
    found.2.records = start.records := by
  unfold discover at discovered
  split at discovered
  · obtain ⟨walk, -, rest⟩ := bind_eq_ok_iff.mp discovered
    obtain ⟨noted, ran, same⟩ := bind_eq_ok_iff.mp rest
    cases same
    exact records_of_noteFault walk.faults (liftM_eq_ok_iff.mp ran)
  · obtain ⟨entries, -, same⟩ := bind_eq_ok_iff.mp discovered
    cases same
    rfl

theorem reportOn_classified {order : List Nat} {rules : List ResourceRule} {entries : List Entry}
    {noted : Results} {report : Report} (complete : Complete entries.length order)
    (fresh : noted.records = []) (ran : reportOn order w s rules entries noted = .ok report) :
    Classified w s entries report.results := by
  have results := reportOn_results complete w s rules noted
  rw [ran] at results
  cases collected : (entries.zip (entries.map (recordOf w (entries.map (·.name))
      s.platformPrefixes))).foldlM (addOutcome s.skipMalformed) noted with
  | error failure =>
      rw [collected] at results
      cases results
  | ok after =>
      rw [collected] at results
      have same : report.results = conclude w rules after := Except.ok.inj results
      rw [same]
      exact classified_of_collected fresh (collected_of_foldlM entries collected)

/-- A run discovers the entries and reports on them. -/
theorem runIn_cases {schedule : Nat → List Nat} {rules : List ResourceRule} {report : Report}
    (ran : runIn schedule w s rules = .ok report) :
    ∃ entries noted, discover w s rules { inputPath := s.inputPath, analysisDate := w.now } =
        .ok (entries, noted) ∧
      reportOn (schedule entries.length) w s rules entries noted = .ok report := by
  unfold runIn at ran
  split at ran
  case isTrue => cases ran
  case isFalse =>
    obtain ⟨⟨entries, noted⟩, discovered, reported⟩ := bind_eq_ok_iff.mp ran
    exact ⟨entries, noted, discovered, liftM_eq_ok_iff.mp reported⟩

/-- A run classifies whatever entries it discovers. -/
theorem run_classifies (w : World) (s : Settings) (rules : List ResourceRule) :
    (∀ (order : List Nat) (entries : List Entry) (noted : Results) (report : Report),
      Complete entries.length order → noted.records = [] →
      reportOn order w s rules entries noted = .ok report →
        Classified w s entries report.results) ∧
    (∀ (schedule : Nat → List Nat) (report : Report), (∀ count, Complete count (schedule count)) →
      runIn schedule w s rules = .ok report →
        ∃ entries noted, discover w s rules { inputPath := s.inputPath, analysisDate := w.now } =
            .ok (entries, noted) ∧
          Classified w s entries report.results) := by
  refine ⟨fun order entries noted report => reportOn_classified, ?_⟩
  intro schedule report complete ran
  obtain ⟨entries, noted, discovered, reported⟩ := runIn_cases ran
  refine ⟨entries, noted, discovered, ?_⟩
  exact reportOn_classified (complete entries.length) (records_of_discover discovered) reported

/-- A class `A` that extends `B`. -/
def smallClass : List UInt8 :=
  [0xCA, 0xFE, 0xBA, 0xBE, 0, 0, 0, 52, 0, 5, 1, 0, 1, 65, 7, 0, 1, 1, 0, 1, 66, 7, 0, 3,
    0, 33, 0, 2, 0, 4, 0, 0, 0, 0, 0, 0, 0, 0]

theorem extract_smallClass : extract smallClass = .ok (⟨"A", ["A", "B"]⟩, []) := by decide +kernel

/-- A class, a malformed class that it refers to, and a resource. -/
def mixedEntries : List Entry :=
  [⟨"A", .classBytes smallClass⟩, ⟨"B", .classBytes [0xCA]⟩, ⟨"x.xml", .resource⟩]

theorem mixedEntries_classified :
    ∃ report, reportOn [0, 1, 2, 2, 1, 0, 1, 0, 2] {} { skipMalformed := true } [] mixedEntries
        { inputPath := "." } = .ok report ∧
      report.results.records = [.ofClass "A" ["B"] [], .resource "x.xml"] ∧
      Classified {} { skipMalformed := true } mixedEntries report.results := by
  have complete : Complete mixedEntries.length [0, 1, 2, 2, 1, 0, 1, 0, 2] := by decide
  have cut : extract [0xCA] = .error (.unexpectedEnd 0 3) := by decide +kernel
  have split : Dependency.classify ["A", "B", "x.xml"] ["java"] "A" ["A", "B"] =
      .ofClass "A" ["B"] [] := by decide +kernel
  have outcomes : mixedEntries.map (recordOf {} (mixedEntries.map (·.name)) ["java"]) =
      [.ok (.ofClass "A" ["B"] []), .error (.malformedClass "B" (.unexpectedEnd 0 3)),
        .ok (.resource "x.xml")] := by
    simp only [mixedEntries, List.map_cons, List.map_nil]
    rw [recordOf_class rfl extract_smallClass, recordOf_malformed rfl cut, recordOf_resource rfl, split]
  have results := reportOn_results complete {} { skipMalformed := true } [] { inputPath := "." }
  rw [outcomes] at results
  cases ran : reportOn [0, 1, 2, 2, 1, 0, 1, 0, 2] {} { skipMalformed := true } [] mixedEntries
      { inputPath := "." } with
  | error failure =>
      rw [ran] at results
      cases results
  | ok report =>
      rw [ran] at results
      refine ⟨report, rfl, congrArg Results.records (Except.ok.inj results), ?_⟩
      exact (run_classifies {} { skipMalformed := true } []).1 _ mixedEntries { inputPath := "." }
        report complete rfl ran

end Analysis

end ClassAtlas
