import ClassAtlas.Proofs.Analysis.Classification
import Mathlib.Algebra.GroupWithZero.Nat

/-!
What becomes of the entries of a run. A run ends with the first failure in the order of discovery
that is not a skipped class. Otherwise every entry has either its record or its warning, the warnings
follow the failures that discovery recovered from, and the summary counts all of it.
-/

namespace ClassAtlas.Analysis

open Schedule

/-- What reading an entry came to. -/
abbrev Outcome := Except Failure DependencyRecord

/-- The failure of an entry ends the run, unless it is a malformed class and such classes are skipped. -/
def Fatal (skipMalformed : Bool) (failure : Failure) : Prop :=
  isMalformed failure = false ∨ skipMalformed = false

def Harmless (skipMalformed : Bool) (outcomes : List Outcome) : Prop :=
  ∀ failure, .error failure ∈ outcomes → ¬ Fatal skipMalformed failure

/-- The first failure among the outcomes that ends the run. -/
def FirstFatal (skipMalformed : Bool) (outcomes : List Outcome) (failure : Failure) : Prop :=
  ∃ before after, outcomes = before ++ .error failure :: after ∧ Fatal skipMalformed failure ∧
    Harmless skipMalformed before

/-- The results of a run that met the faults while it discovered the entries. -/
def resultsOf (w : World) (inputPath : String) (rules : List ResourceRule) (skipMalformed : Bool)
    (faults : List (String × Failure)) (entries : List Entry) (outcomes : List Outcome) :
    Except Failure Results := do
  let noted ← faults.foldlM noteFault { inputPath, analysisDate := w.now }
  ((entries.zip outcomes).foldlM (addOutcome skipMalformed) noted).map (conclude w rules)

/-- What is noted of a failure that discovery recovered from. -/
def noteOf (fault : String × Failure) : RecoveredError :=
  ⟨fault.1, fault.2.userMessage, fault.2.severity⟩

/-- The warning that stands for an entry which was skipped. -/
def warning? : Entry × Outcome → Option RecoveredError
  | (e, .error failure) => some ⟨e.name, failure.message, .warning⟩
  | (_, .ok _) => none

/-- The results account for every entry and every failure. -/
structure Accounts (faults : List (String × Failure)) (entries : List Entry)
    (outcomes : List Outcome) (results : Results) : Prop where
  records : results.records = outcomes.filterMap Except.toOption
  errors : results.errors = faults.map noteOf ++ (entries.zip outcomes).filterMap warning?
  skipped : ∀ failure, .error failure ∈ outcomes → isMalformed failure = true
  kinds : results.summary.classes + results.summary.resources = results.records.length
  entries : results.records.length + results.summary.skippedEntries = entries.length
  internalEdges : results.summary.internalEdges = (results.records.map (·.internal.length)).sum
  externalEdges : results.summary.externalEdges = (results.records.map (·.external.length)).sum
  packages : results.summary.packages = results.packages.toList.length
  errorsEncountered : results.summary.errorsEncountered = results.errors.length
  warningsCount : results.summary.warningsCount =
    (results.errors.filter (·.severity = .warning)).length
  warned : results.summary.skippedEntries ≤ results.summary.warningsCount
  settled : results.finalize = results

/-- How a run goes by the outcomes of the entries it discovered. -/
structure Decided (skipMalformed : Bool) (faults : List (String × Failure)) (entries : List Entry)
    (outcomes : List Outcome) (ran : Except Halt Results) : Prop where
  fails : (∃ halt, ran = .error halt) ↔
    ∃ failure, .error failure ∈ outcomes ∧ Fatal skipMalformed failure
  first : ∀ failure, ran = .error (.failure failure) ↔ FirstFatal skipMalformed outcomes failure
  accounts : ∀ results, ran = .ok results → Accounts faults entries outcomes results

/-- The entries of an input and the failures that were met on the way to them. -/
inductive Discovered (w : World) (s : Settings) (rules : List ResourceRule) :
    List Entry → List (String × Failure) → Prop where
  | directory {walk : Discovery.Walk} (isDirectory : w.isDirectory s.inputPath = true)
      (walked : Discovery.walkDirectory w s rules s.inputPath = .ok walk) :
      Discovered w s rules walk.entries walk.faults
  | archive {entries : List Entry} (isArchive : w.isDirectory s.inputPath = false)
      (walked : Discovery.walkArchive w rules s.inputPath = .ok entries) :
      Discovered w s rules entries []

section Faults

variable {faults : List (String × Failure)} {start : Results}

theorem foldlM_noteFault (recovered : ∀ fault ∈ faults, fault.2.isCritical = false) :
    faults.foldlM noteFault start = .ok { start with errors := start.errors ++ faults.map noteOf } := by
  induction faults generalizing start with
  | nil =>
      rw [List.foldlM_nil, List.map_nil, List.append_nil]
      rfl
  | cons fault faults ih =>
      obtain ⟨here, later⟩ := List.forall_mem_cons.mp recovered
      have step : noteFault start fault = .ok (start.addError fault.1 fault.2) := by
        simp [noteFault, Failure.unhandled?, here]
      rw [List.foldlM_cons, step]
      change faults.foldlM noteFault _ = _
      rw [ih later]
      simp [Results.addError, noteOf]

end Faults

section Outcomes

variable {skipMalformed : Bool}

/-- The results with the outcomes of some entries taken in, none of which ended the run. -/
def taken (before : Results) (pairs : List (Entry × Outcome)) : Results :=
  { before with
    records := before.records ++ pairs.filterMap (·.2.toOption)
    errors := before.errors ++ pairs.filterMap warning?
    summary := { before.summary with
      skippedEntries := before.summary.skippedEntries + (pairs.filterMap warning?).length } }

theorem taken_append (before : Results) (pairs more : List (Entry × Outcome)) :
    taken (taken before pairs) more = taken before (pairs ++ more) := by
  simp [taken, List.append_assoc, Nat.add_assoc]

theorem addOutcome_harmless {before : Results} {pair : Entry × Outcome}
    (harmless : ∀ failure, pair.2 = .error failure → ¬ Fatal skipMalformed failure) :
    addOutcome skipMalformed before pair = .ok (taken before [pair]) := by
  obtain ⟨e, outcome⟩ := pair
  cases outcome with
  | ok record =>
      simp [addOutcome, taken, Results.addRecord, List.filterMap_cons, warning?, Except.toOption]
  | error failure =>
      have skipped : (skipMalformed && isMalformed failure) = true := by
        simpa [Fatal, and_comm] using harmless failure rfl
      simp [addOutcome, taken, Results.addSkipped, warning?, Except.toOption, skipped]

theorem addOutcome_fatal {before : Results} {e : Entry} {failure : Failure}
    (fatal : Fatal skipMalformed failure) :
    addOutcome skipMalformed before (e, .error failure) = .error failure := by
  have kept : (skipMalformed && isMalformed failure) = false := by
    rw [Bool.and_eq_false_iff]
    exact fatal.symm
  simp [addOutcome, kept]

theorem foldlM_addOutcome {before : Results} {pairs : List (Entry × Outcome)}
    (harmless : Harmless skipMalformed (pairs.map (·.2))) :
    pairs.foldlM (addOutcome skipMalformed) before = .ok (taken before pairs) := by
  induction pairs generalizing before with
  | nil =>
      have unchanged : taken before [] = before := by simp [taken]
      rw [unchanged]
      rfl
  | cons pair pairs ih =>
      have here : ∀ failure, pair.2 = .error failure → ¬ Fatal skipMalformed failure := by
        intro failure failed
        exact harmless failure (by rw [List.map_cons, failed]; exact List.mem_cons_self)
      have later : Harmless skipMalformed (pairs.map (·.2)) := by
        intro failure member
        exact harmless failure (List.mem_cons_of_mem _ member)
      rw [List.foldlM_cons, addOutcome_harmless here]
      change pairs.foldlM _ _ = _
      rw [ih later, taken_append, List.singleton_append]

theorem foldlM_addOutcome_fatal {before : Results} {pairs : List (Entry × Outcome)}
    {failure : Failure} (first : FirstFatal skipMalformed (pairs.map (·.2)) failure) :
    pairs.foldlM (addOutcome skipMalformed) before = .error failure := by
  obtain ⟨earlier, later, outcomes, fatal, harmless⟩ := first
  obtain ⟨front, rest, rfl, rfl, fromFatal⟩ := List.map_eq_append_iff.mp outcomes
  obtain ⟨⟨e, outcome⟩, back, rfl, same, rfl⟩ := List.map_eq_cons_iff.mp fromFatal
  cases same
  rw [List.foldlM_append, foldlM_addOutcome harmless]
  change ((e, .error failure) :: back).foldlM (addOutcome skipMalformed) (taken before front) = _
  rw [List.foldlM_cons, addOutcome_fatal fatal]
  rfl

theorem outcomes_zip {entries : List Entry} {outcomes : List Outcome}
    (paired : entries.length = outcomes.length) : (entries.zip outcomes).map (·.2) = outcomes :=
  List.map_snd_zip (Nat.le_of_eq paired.symm)

theorem harmless_or_firstFatal (skipMalformed : Bool) (outcomes : List Outcome) :
    Harmless skipMalformed outcomes ∨ ∃ failure, FirstFatal skipMalformed outcomes failure := by
  induction outcomes with
  | nil =>
      left
      intro failure member
      cases member
  | cons outcome outcomes ih =>
      by_cases fatal : ∃ failure, outcome = .error failure ∧ Fatal skipMalformed failure
      · obtain ⟨failure, rfl, fatal⟩ := fatal
        right
        refine ⟨failure, [], outcomes, rfl, fatal, ?_⟩
        intro other member
        cases member
      · have harmless : ∀ earlier, Harmless skipMalformed earlier →
            Harmless skipMalformed (outcome :: earlier) := by
          intro earlier harmless failure member
          rcases List.mem_cons.mp member with rfl | later
          · exact fun isFatal => fatal ⟨failure, rfl, isFatal⟩
          · exact harmless failure later
        rcases ih with none | ⟨failure, earlier, later, rfl, isFatal, none⟩
        · exact .inl (harmless outcomes none)
        · exact .inr ⟨failure, outcome :: earlier, later, rfl, isFatal, harmless earlier none⟩

end Outcomes

section Summary

theorem foldl_add_eq_sum (records : List DependencyRecord) (f : DependencyRecord → Nat) :
    records.foldl (fun total record => total + f record) 0 = (records.map f).sum := by
  rw [List.sum_eq_foldl, List.foldl_map]

theorem classes_add_resources (records : List DependencyRecord) :
    records.countP (!·.isSynthetic) + records.countP (·.isSynthetic) = records.length := by
  rw [List.length_eq_countP_add_countP DependencyRecord.isSynthetic, Nat.add_comm]
  congr 1
  apply List.countP_congr
  intro record _
  simp

/-- Each entry has a record or a warning. -/
theorem length_records_add_warnings (pairs : List (Entry × Outcome)) :
    (pairs.filterMap (·.2.toOption)).length + (pairs.filterMap warning?).length = pairs.length := by
  induction pairs with
  | nil => rfl
  | cons pair pairs ih =>
      obtain ⟨e, outcome⟩ := pair
      cases outcome with
      | ok record =>
          change (record :: pairs.filterMap (·.2.toOption)).length + (pairs.filterMap warning?).length =
            pairs.length + 1
          rw [List.length_cons, ← ih, Nat.add_right_comm]
      | error failure =>
          change _ + (_ :: pairs.filterMap warning?).length = pairs.length + 1
          rw [List.length_cons, ← ih]
          rfl

theorem severity_of_warning? {pair : Entry × Outcome} {noted : RecoveredError}
    (made : warning? pair = some noted) : noted.severity = .warning := by
  obtain ⟨e, outcome⟩ := pair
  cases outcome with
  | ok record => cases made
  | error failure =>
      cases made
      rfl

theorem accounts_conclude (w : World) (rules : List ResourceRule) {skipMalformed : Bool}
    {faults : List (String × Failure)} {entries : List Entry} {outcomes : List Outcome}
    (paired : entries.length = outcomes.length)
    (harmless : Harmless skipMalformed outcomes) {before : Results} (fresh : before.records = [])
    (noted : before.errors = faults.map noteOf) (unskipped : before.summary.skippedEntries = 0) :
    Accounts faults entries outcomes (conclude w rules (taken before (entries.zip outcomes))) := by
  have records : (entries.zip outcomes).filterMap (·.2.toOption) =
      outcomes.filterMap Except.toOption := by
    conv => rhs; rw [← outcomes_zip paired]
    rw [List.filterMap_map]
    rfl
  have warnings : ((entries.zip outcomes).filterMap warning?).filter (·.severity = .warning) =
      (entries.zip outcomes).filterMap warning? := by
    rw [List.filter_eq_self]
    intro noted member
    obtain ⟨pair, -, made⟩ := List.mem_filterMap.mp member
    exact decide_eq_true (severity_of_warning? made)
  have counted := length_records_add_warnings (entries.zip outcomes)
  rw [List.length_zip, paired, Nat.min_self, ← paired] at counted
  have recordsHeld : (conclude w rules (taken before (entries.zip outcomes))).records =
      outcomes.filterMap Except.toOption := by
    change before.records ++ _ = _
    rw [fresh, List.nil_append, records]
  have errorsHeld : (conclude w rules (taken before (entries.zip outcomes))).errors =
      faults.map noteOf ++ (entries.zip outcomes).filterMap warning? := by
    change before.errors ++ _ = _
    rw [noted]
  have skippedHeld : (conclude w rules (taken before (entries.zip outcomes))).summary.skippedEntries =
      ((entries.zip outcomes).filterMap warning?).length := by
    change before.summary.skippedEntries + _ = _
    rw [unskipped, Nat.zero_add]
  have warningsHeld : (conclude w rules (taken before (entries.zip outcomes))).summary.warningsCount =
      ((conclude w rules (taken before (entries.zip outcomes))).errors.filter
        (·.severity = .warning)).length :=
    congrArg List.length (List.filter_congr fun noted _ => by rw [beq_eq_decide])
  refine ⟨recordsHeld, errorsHeld, ?_, ?_, ?_, ?_, ?_, rfl, rfl, ?_, ?_, rfl⟩
  · intro failure member
    simpa [Fatal] using (not_or.mp (harmless failure member)).1
  · exact classes_add_resources _
  · rw [recordsHeld, skippedHeld, ← records, counted]
  · exact foldl_add_eq_sum _ _
  · exact foldl_add_eq_sum _ _
  · exact warningsHeld
  · rw [warningsHeld, errorsHeld, skippedHeld, List.filter_append, List.length_append, warnings]
    exact Nat.le_add_left ..

end Summary

section Run

variable {w : World} {inputPath : String} {rules : List ResourceRule} {skipMalformed : Bool}
  {faults : List (String × Failure)} {entries : List Entry} {outcomes : List Outcome}

/-- The outcomes decide what the results are, once the faults are recovered from. -/
theorem resultsOf_eq (recovered : ∀ fault ∈ faults, fault.2.isCritical = false) :
    resultsOf w inputPath rules skipMalformed faults entries outcomes =
      ((entries.zip outcomes).foldlM (addOutcome skipMalformed)
        { inputPath, analysisDate := w.now, errors := faults.map noteOf }).map (conclude w rules) := by
  rw [resultsOf, foldlM_noteFault recovered]
  rfl

theorem resultsOf_harmless (w : World) (inputPath : String) (rules : List ResourceRule)
    (recovered : ∀ fault ∈ faults, fault.2.isCritical = false)
    (paired : entries.length = outcomes.length) (harmless : Harmless skipMalformed outcomes) :
    ∃ results, resultsOf w inputPath rules skipMalformed faults entries outcomes = .ok results ∧
      Accounts faults entries outcomes results := by
  rw [resultsOf_eq recovered, foldlM_addOutcome (by rwa [outcomes_zip paired])]
  exact ⟨_, rfl, accounts_conclude w rules paired harmless rfl rfl rfl⟩

theorem resultsOf_fatal (recovered : ∀ fault ∈ faults, fault.2.isCritical = false)
    (paired : entries.length = outcomes.length) {failure : Failure}
    (first : FirstFatal skipMalformed outcomes failure) :
    resultsOf w inputPath rules skipMalformed faults entries outcomes = .error failure := by
  rw [resultsOf_eq recovered, foldlM_addOutcome_fatal (by rwa [outcomes_zip paired])]
  rfl

theorem resultsOf_decided (w : World) (inputPath : String) (rules : List ResourceRule)
    (recovered : ∀ fault ∈ faults, fault.2.isCritical = false)
    (paired : entries.length = outcomes.length) :
    Decided skipMalformed faults entries outcomes
      (liftM (resultsOf w inputPath rules skipMalformed faults entries outcomes)) := by
  have fatal {failure : Failure} (first : FirstFatal skipMalformed outcomes failure) :
      resultsOf w inputPath rules skipMalformed faults entries outcomes = .error failure :=
    resultsOf_fatal recovered paired first
  rcases harmless_or_firstFatal skipMalformed outcomes with harmless | ⟨failure, first⟩
  · obtain ⟨results, ran, accounts⟩ :=
      resultsOf_harmless w inputPath rules recovered paired harmless
    rw [ran] at fatal ⊢
    refine ⟨?_, ?_, ?_⟩
    · constructor
      · intro failed
        obtain ⟨_, failed⟩ := failed
        cases failed
      · intro found
        obtain ⟨failure, member, isFatal⟩ := found
        exact absurd isFatal (harmless failure member)
    · intro failure
      exact ⟨fun failed => (nomatch failed), fun first => (nomatch fatal first)⟩
    · intro other same
      cases same
      exact accounts
  · rw [fatal first]
    refine ⟨?_, ?_, ?_⟩
    · obtain ⟨before, after, rfl, isFatal, -⟩ := first
      exact iff_of_true ⟨.failure failure, rfl⟩ ⟨failure, by simp, isFatal⟩
    · intro other
      constructor
      · intro same
        cases same
        exact first
      · intro alsoFirst
        cases (fatal first).symm.trans (fatal alsoFirst)
        rfl
    · intro results ran
      cases ran

end Run

section Discovery

variable {w : World} {s : Settings} {rules : List ResourceRule} {entries : List Entry}
  {faults : List (String × Failure)}

theorem not_critical_of_obstacle (path : String) (cause : Discovery.Obstacle) :
    (Discovery.obstacleFailure path cause).isCritical = false := by
  cases cause with
  | loop ancestor => rfl
  | unreachable cause =>
      rw [Discovery.obstacleFailure]
      split <;> rfl

/-- What a walk cannot visit never ends the run. -/
theorem Discovered.recovered (discovered : Discovered w s rules entries faults) :
    ∀ fault ∈ faults, fault.2.isCritical = false := by
  cases discovered with
  | archive isArchive walked =>
      intro fault member
      cases member
  | directory isDirectory walked =>
      unfold Discovery.walkDirectory at walked
      split at walked
      case h_2 => cases walked
      case h_1 =>
        obtain ⟨patterns, -, scopedWalk⟩ := bind_eq_ok_iff.mp walked
        obtain ⟨scope, -, made⟩ := bind_eq_ok_iff.mp scopedWalk
        cases made
        intro fault member
        obtain ⟨sight, -, met⟩ := List.mem_filterMap.mp member
        cases sight with
        | file names => cases met
        | obstacle names cause =>
            cases met
            exact not_critical_of_obstacle _ cause

theorem Discovered.discover_eq (discovered : Discovered w s rules entries faults) (start : Results) :
    discover w s rules start = liftM ((faults.foldlM noteFault start).map (entries, ·)) := by
  unfold discover
  cases discovered with
  | @directory walk isDirectory walked =>
      rw [if_pos isDirectory, walked]
      change (liftM (walk.faults.foldlM noteFault start : Except Failure Results) :
        Except Halt Results) >>= _ = _
      cases walk.faults.foldlM noteFault start with
      | error failure => rfl
      | ok noted => rfl
  | archive isArchive walked =>
      rw [if_neg (by rw [isArchive]; decide), walked]
      rfl

/-- The run over the entries of an input, with the workers out of sight. -/
theorem Discovered.runIn_results (discovered : Discovered w s rules entries faults)
    {schedule : Nat → List Nat} (complete : ∀ count, Complete count (schedule count))
    (present : w.pathExists s.inputPath = true) :
    (runIn schedule w s rules).map (·.results) =
      liftM (resultsOf w s.inputPath rules s.skipMalformed faults entries
        (entries.map (recordOf w (entries.map (·.name)) s.platformPrefixes))) := by
  unfold runIn
  rw [present]
  change Except.map _ (discover w s rules _ >>= _) = _
  rw [discovered.discover_eq, resultsOf, foldlM_noteFault discovered.recovered]
  have reported := reportOn_results (complete entries.length) w s rules
    { inputPath := s.inputPath, analysisDate := w.now, errors := faults.map noteOf }
  exact (map_liftM _ _).trans
    (congrArg (liftM : Except Failure Results → Except Halt Results) reported)

end Discovery

/-- In every run, the outcomes of the entries decide whether it fails and account for its results. -/
theorem outcomes_decide_run :
    (∀ (w : World) (inputPath : String) (rules : List ResourceRule) (skipMalformed : Bool)
      (faults : List (String × Failure)) (entries : List Entry) (outcomes : List Outcome),
      (∀ fault ∈ faults, fault.2.isCritical = false) → entries.length = outcomes.length →
        Decided skipMalformed faults entries outcomes
          (liftM (resultsOf w inputPath rules skipMalformed faults entries outcomes))) ∧
    (∀ (schedule : Nat → List Nat) (w : World) (s : Settings) (rules : List ResourceRule)
      (entries : List Entry) (faults : List (String × Failure)),
      (∀ count, Complete count (schedule count)) → w.pathExists s.inputPath = true →
      Discovered w s rules entries faults →
        Decided s.skipMalformed faults entries
          (entries.map (recordOf w (entries.map (·.name)) s.platformPrefixes))
          ((runIn schedule w s rules).map (·.results))) := by
  constructor
  · intro w inputPath rules skipMalformed faults entries outcomes recovered paired
    exact resultsOf_decided w inputPath rules recovered paired
  · intro schedule w s rules entries faults complete present discovered
    rw [discovered.runIn_results complete present]
    exact resultsOf_decided w s.inputPath rules discovered.recovered (List.length_map _).symm

/-- An input with a class that breaks off and a link that leads nowhere. -/
def brokenInput : World where
  root := .directory [("B.class", .file [0xCA] false), ("dead", .link "nowhere")]

def lenientSettings : Settings where
  followLinks := true
  skipMalformed := true

/-- The link, as it is reported. -/
def deadLink : String × Failure :=
  ("./dead", .traversal "./dead"
    "IO error for operation on ./dead: No such file or directory (os error 2)")

/-- The class is skipped where that is wanted, and ends the run where it is not. -/
theorem brokenInput_decided :
    (∃ report, run brokenInput lenientSettings [] = .ok report ∧
      Accounts [deadLink] [⟨"B", .classFile "./B.class"⟩]
        [.error (.malformedClass "B" (.unexpectedEnd 0 3))] report.results) ∧
    resultsOf brokenInput "." [] false [deadLink]
      [⟨"A.xml", .resource⟩, ⟨"B", .classFile "./B.class"⟩, ⟨"C", .classFile "./C.class"⟩]
      [.ok (.resource "A.xml"), .error (.malformedClass "B" (.unexpectedEnd 0 3)),
        .error (.permissionDenied "./C.class")] =
          .error (.malformedClass "B" (.unexpectedEnd 0 3)) := by
  have recovered : ∀ fault ∈ [deadLink], fault.2.isCritical = false := by
    intro fault member
    cases List.mem_singleton.mp member
    rfl
  constructor
  · have walked : Discovery.walkDirectory brokenInput lenientSettings [] "." =
        .ok ⟨[⟨"B", .classFile "./B.class"⟩], [deadLink]⟩ := by
      decide +kernel
    have isDirectory : brokenInput.isDirectory "." = true := by decide +kernel
    have present : brokenInput.pathExists "." = true := by decide +kernel
    have read : Entry.bytes ⟨"B", .classFile "./B.class"⟩ brokenInput = .ok (some [0xCA]) := by
      decide +kernel
    have cut : ClassFile.extract [0xCA] = .error (.unexpectedEnd 0 3) := by decide +kernel
    have decided := outcomes_decide_run.2 inTurn brokenInput lenientSettings [] _ _ complete_inTurn
      present (.directory isDirectory walked)
    rw [List.map_singleton, recordOf_malformed read cut] at decided
    cases ran : run brokenInput lenientSettings [] with
    | ok report => exact ⟨report, rfl, decided.accounts _ (congrArg (Except.map (·.results)) ran)⟩
    | error halt =>
        obtain ⟨other, member, fatal⟩ :=
          decided.fails.mp ⟨halt, congrArg (Except.map (·.results)) ran⟩
        cases List.mem_singleton.mp member
        rcases fatal with wrong | wrong <;> cases wrong
  · have decided := outcomes_decide_run.1 brokenInput "." [] false [deadLink]
      [⟨"A.xml", .resource⟩, ⟨"B", .classFile "./B.class"⟩, ⟨"C", .classFile "./C.class"⟩]
      [.ok (.resource "A.xml"), .error (.malformedClass "B" (.unexpectedEnd 0 3)),
        .error (.permissionDenied "./C.class")] recovered rfl
    rw [← liftM_eq_error_iff, decided.first]
    refine ⟨[.ok (.resource "A.xml")], _, rfl, .inr rfl, ?_⟩
    intro failure member
    cases List.mem_singleton.mp member

end ClassAtlas.Analysis
